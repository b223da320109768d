import RubyTree.Diff
import RubyTree.Files
import RubyTree.Replay
import RubyTree.Suite.Case
import RubyTree.Text.Lowercase

/-!
# Suites

All suite files below a root are loaded first. Then every case is either run or skipped, in the
order of the files and of the cases in them, and the results are counted.
-/

namespace RubyTree

/-- Why a case is not run. -/
inductive SkipReason where
  | notOnly
  | marked
  | filtered (filter : String)

/-- The reason as it is printed. -/
def SkipReason.text : SkipReason → String
  | notOnly => "Not marked 'only' in 'only' mode"
  | marked => "Marked 'skip'"
  | filtered filter => "Filtered out by substring: " ++ filter

/-- Why a case that was run did not pass. -/
inductive Failure where
  | error (cause : Error)
  | diagnostics (expected actual : List String)
  | dump (expected actual : String)

/-- What is printed about a failure. -/
def Failure.message : Failure → String
  | error cause => "Normalization failed: " ++ cause.message
  | diagnostics _ _ => "Diagnostics did not match expected"
  | dump _ _ => "Output did not match expected"

/-- The two texts that did not match. -/
def Failure.texts? : Failure → Option (String × String)
  | error _ => none
  | diagnostics expected actual => some (Text.joinLines expected, Text.joinLines actual)
  | dump expected actual => some (Diff.trimmed expected, Diff.trimmed actual)

/-- What became of a case. -/
inductive Verdict where
  | passed
  | failed (failure : Failure)
  | skipped (reason : SkipReason)

/-- The case passed. -/
def Verdict.isPassed : Verdict → Bool
  | .passed => true
  | _ => false

/-- The case failed. -/
def Verdict.isFailed : Verdict → Bool
  | .failed _ => true
  | _ => false

/-- The case was skipped. -/
def Verdict.isSkipped : Verdict → Bool
  | .skipped _ => true
  | _ => false

/-- A case by its file and its name, and what became of it. -/
structure CaseResult where
  file : String
  name : String
  verdict : Verdict

/-- How many cases passed, failed and were skipped. -/
structure Summary where
  passed : Nat
  failed : Nat
  skipped : Nat
  deriving DecidableEq

namespace Suite

/-- A list occurs inside another one. -/
def holds (part : List Char) : List Char → Bool
  | [] => part.isEmpty
  | c :: cs => part.isPrefixOf (c :: cs) || holds part cs

/-- The text holds another one, whatever the case of letters. -/
def mentions (text part : String) : Bool :=
  holds (Text.lowercase part.toList) (Text.lowercase text.toList)

/-- Why a case is skipped, if it is; `anyOnly` says that some case is marked as the only one
    (`skip_reason`). -/
def skipReason? (anyOnly : Bool) (filter : Option String) (entry : Case) : Option SkipReason :=
  if anyOnly && !entry.only then some .notOnly
  else if entry.skip then some .marked
  else match filter with
    | none => none
    | some part => if mentions entry.name part then none else some (.filtered part)

/-- Runs a case (`run_test_case`). -/
def verdictOf (entry : Case) : Verdict :=
  match normalize entry.events with
  | .error cause => .failed (.error cause)
  | .ok normalized =>
    let diagnostics := normalized.diagnostics.map Diagnostic.text
    if diagnostics ≠ entry.diagnostics then .failed (.diagnostics entry.diagnostics diagnostics)
    else if Diff.sameDump entry.expected normalized.render then .passed
    else .failed (.dump entry.expected normalized.render)

/-- Runs or skips a case. -/
def resultOf (anyOnly : Bool) (filter : Option String) (file : String) (entry : Case) :
    CaseResult :=
  { file, name := entry.name,
    verdict := match skipReason? anyOnly filter entry with
      | some reason => .skipped reason
      | none => verdictOf entry }

/-- Counts results (`partition_results`). -/
def summary (results : List CaseResult) : Summary :=
  ⟨results.countP fun result => Verdict.isPassed result.verdict,
    results.countP fun result => Verdict.isFailed result.verdict,
    results.countP fun result => Verdict.isSkipped result.verdict⟩

/-! ## Files -/

/-- The suite files at and below a root (`discover_yaml_files`). -/
def filesBelow (files : Files) (root : String) : List String :=
  (files.below root).filter fun path =>
    match Files.extension? path with
    | some extension => extension == "yaml" || extension == "yml"
    | none => false

/-- The cases of one file (`load_test_cases`). -/
def load (files : Files) (path : String) : Except Error (List Case) :=
  match files.text? path with
  | none => .error (.unreadable path)
  | some text =>
    match Case.readAll? text with
    | none => .error (.suite (.malformed path))
    | some cases => .ok cases

/-- The cases of several files, each with its file. -/
def loadAll (files : Files) : List String → Except Error (List (String × Case))
  | [] => .ok []
  | path :: paths => do
    let cases ← load files path
    return cases.map (path, ·) ++ (← loadAll files paths)

/-- Runs or skips all cases. -/
def runAll (filter : Option String) (cases : List (String × Case)) : List CaseResult :=
  let anyOnly := cases.any fun (_, entry) => entry.only
  cases.map fun (file, entry) => resultOf anyOnly filter file entry

/-- Runs the suites below a root (`run_all_tests`). -/
def run (files : Files) (root : String) (filter : Option String) :
    Except Error (List CaseResult) := do
  let paths := filesBelow files root
  if paths.isEmpty then .error (.suite (.noFiles root))
  else return runAll filter (← loadAll files paths)

end Suite

end RubyTree
