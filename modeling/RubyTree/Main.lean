import RubyTree.CommandLine

/-!
# The program

Takes a snapshot of the files that a command line names, answers it, and prints the answer.
-/

open RubyTree

/-- The file at a path, or every file below it. What cannot be read is left out. -/
partial def snapshot (path : String) : IO (List (String × ByteArray)) := do
  let place := (← IO.currentDir) / path
  if ← place.isDir then
    let entries ← place.readDir
    let mut found := []
    for entry in entries do
      found := found ++ (← snapshot (path ++ "/" ++ entry.fileName))
    return found
  else
    try
      return [(path, ← IO.FS.readBinFile place)]
    catch _ =>
      return []

/-- The files that a request reads. -/
def filesOf : Request → IO Files
  | .run command => do
    return Files.ofList (← (CommandLine.pathsOf command).mapM snapshot).flatten
  | _ => return Files.ofList []

/-- Reads the command line, runs the command on the files it names, and prints what that leaves. -/
def main (arguments : List String) : IO UInt32 := do
  let request := CommandLine.read arguments
  let files ← filesOf request
  let output := CommandLine.answer files false request
  IO.print output.out
  IO.eprint output.errors
  return output.status.toUInt32
