/-!
# Files

A snapshot of a directory: the contents of files by their paths, with `/` between the parts of a
path. Directories are there because of the files in them.
-/

namespace RubyTree

/-- A file and the parts of its path. -/
structure File where
  path : List String
  bytes : ByteArray

/-- The files below a directory. -/
structure Files where
  files : List File

namespace Files

/-- The parts of a path as it is written. -/
def partsOf (path : String) : List String := (path.toList.splitOn '/').map String.ofList

/-- The place one part further on: empty parts and `.` stay, and `..` leads back to the directory
    around, or out of the directory where paths begin. -/
def onward (place : List String) (part : String) : List String :=
  if part = "" ∨ part = "." then place
  else if part = ".." ∧ place ≠ [] ∧ place.getLast? ≠ some ".." then place.dropLast
  else place ++ [part]

/-- Where a path begins: at the root of all directories, or here. -/
def start (path : String) : List String := if path.startsWith "/" then ["/"] else []

/-- A snapshot of files whose paths are written out. -/
def ofList (files : List (String × ByteArray)) : Files :=
  ⟨files.map fun (path, bytes) => ⟨(partsOf path).foldl onward (start path), bytes⟩⟩

/-- A file stands at a place. -/
def file? (files : Files) (place : List String) : Option File :=
  files.files.find? (·.path == place)

/-- A directory stands at a place. -/
def isDirectory (files : Files) (place : List String) : Bool :=
  place.isEmpty || files.files.any fun file => place.isPrefixOf file.path && file.path != place

/-- Where the parts of a path lead, beginning at a place. Every part has to start from a
    directory. -/
def resolve? (files : Files) (place : List String) : List String → Option (List String)
  | [] => some place
  | part :: parts =>
    if files.isDirectory place then files.resolve? (onward place part) parts else none

/-- Where a path leads. The empty path leads nowhere. -/
def place? (files : Files) (path : String) : Option (List String) :=
  if path.isEmpty then none
  else files.resolve? (start path) (partsOf path)

/-- The text of a file, if the path leads to one and its bytes are UTF-8. -/
def text? (files : Files) (path : String) : Option String := do
  let place ← files.place? path
  let file ← files.file? place
  String.fromUTF8? file.bytes

/-- The order of paths: by their parts, from the first on. -/
def precedes (a b : List String) : Bool := !List.lex b a

/-- A root with the path below it. -/
def joined (root : String) (below : List String) : String :=
  (if root.endsWith "/" then root else root ++ "/") ++ "/".intercalate below

/-- The files at and below a root, in the order of their paths, each written with the root in
    front. -/
def below (files : Files) (root : String) : List String :=
  match files.place? root with
  | none => []
  | some place =>
    if (files.file? place).isSome then [root]
    else
      let found := files.files.filterMap fun file =>
        if place.isPrefixOf file.path then some (file.path.drop place.length) else none
      (found.mergeSort precedes).map (joined root)

/-- The extension of a file name: what follows its last dot, if something stands before that dot. -/
def extension? (path : String) : Option String :=
  match ((partsOf path).getLast?.getD "").toList.reverse.span (· != '.') with
  | (ending, _ :: name) => if name.isEmpty then none else some (String.ofList ending.reverse)
  | (_, []) => none

end Files

end RubyTree
