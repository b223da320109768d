import RubyTree.Yaml.Node

/-!
# Documents

A text holds one document: directives, if any, and then a node. The document may be empty.

A document is read part by part, and references are followed on the way. Since a short text can
spell a long way, a document allows a hundred references to be followed for each of its marks.
-/

namespace RubyTree.Yaml

/-- A document. -/
structure Document where
  root : Node

namespace Document

/-! ## Directives -/

/-- The directives at the front of a text, with what follows them. -/
def directives : List Token → List Directive × List Token
  | .directive directive :: tokens =>
    let (others, rest) := directives tokens
    (directive :: others, rest)
  | tokens => ([], tokens)

/-- A version that can be read. -/
def isVersion : Directive → Bool
  | .version major minor => major == 1 && (minor == 1 || minor == 2)
  | .handle _ _ => true

/-- The handles that directives give. -/
def handlesOf (directives : List Directive) : Handles :=
  directives.filterMap fun
    | .handle handle beginning => some (handle, beginning)
    | .version _ _ => none

/-- The handles of a document with such directives. There is one version at most, and no handle is
    given twice. -/
def handles? (directives : List Directive) : Option Handles :=
  let handles := handlesOf directives
  let versions := directives.length - handles.length
  let names := handles.map Prod.fst
  if directives.all isVersion && versions ≤ 1 && names.eraseDups == names then
    some (handles ++ defaultHandles)
  else none

/-! ## Reading -/

/-- The document is empty: nothing follows, or something that concerns documents as such. -/
def isEmpty : List Token → Bool
  | [] | .directive _ :: _ | .documentStart :: _ | .documentEnd :: _ => true
  | _ => false

/-- The mark that ends a document. -/
def isEnd : Token → Bool
  | .documentEnd => true
  | _ => false

/-- The root of a document, and what follows it. -/
def root? : List Token → Option (Node × List Token)
  | [] => some (.empty, [])
  | tokens =>
    match directives tokens with
    | (given, .documentStart :: tokens) => do
      let handles ← handles? given
      if isEmpty tokens then return (.empty, tokens) else Node.ofTokens? handles tokens
    | ([], tokens) => Node.ofTokens? defaultHandles tokens
    | _ => none

/-- Reads the only document of a text. -/
def read? (text : String) : Option Document := do
  let (root, rest) ← root? (← tokens? (← glyphs? text))
  if rest.all isEnd then return ⟨root⟩ else failure

/-! ## Parts of a document -/

/-- A reading that may follow so many references, and says how many it leaves. -/
abbrev Reading := StateT Nat Option

/-- The node that is meant by a node: a reference means another one. -/
def follow (document : Document) : Node → Reading Node
  | .reference name => fun allowed =>
    match allowed, document.root.anchored? name with
    | allowed + 1, some node => some (node, allowed)
    | _, _ => none
  | node => pure node

/-- The text of a scalar, however it is written. -/
def text (document : Document) (node : Node) : Reading String := do
  match ← document.follow node with
  | .scalar _ _ _ text => return text
  | _ => failure

/-- The truth value of a scalar that is plain, or literal and tagged as one. -/
def bool (document : Document) (node : Node) : Reading Bool := do
  match ← document.follow node with
  | .scalar _ tag style text =>
    if style = .plain ∨ (style = .literal ∧ tag = some boolTag) then
      if text = "true" ∨ text = "True" ∨ text = "TRUE" then return true
      else if text = "false" ∨ text = "False" ∨ text = "FALSE" then return false
      else failure
    else failure
  | _ => failure

/-- The items of a sequence. A node that is left out is an empty one. -/
def items (document : Document) (node : Node) : Reading (List Node) := do
  match ← document.follow node with
  | .sequence _ items => return items
  | .scalar _ _ .plain "" => return []
  | _ => failure

/-- The texts of a sequence. -/
def texts (document : Document) (node : Node) : Reading (List String) := do
  (← document.items node).mapM document.text

/-- Reads a document as a whole. -/
def readAs? {α : Type} (document : Document) (read : Document → Node → Reading α) : Option α :=
  ((read document document.root).run (100 * document.root.size)).map Prod.fst

end Document

end RubyTree.Yaml
