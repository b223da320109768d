import RubyTree.Suite

/-!
# Reports of suites

What is printed about results: a line for each case that passed or was skipped and the counts on one
channel, the failures with their differences on the other.
-/

namespace RubyTree.Suite

/-- A colour of a terminal. -/
inductive Color where
  | red
  | green
  | yellow

/-- The number of a colour. -/
def Color.code : Color → String
  | red => "31"
  | green => "32"
  | yellow => "33"

/-- A text in a colour, if colours are used (`colorize`). -/
def paint (colors : Bool) (color : Color) (text : String) : String :=
  if colors then "\x1b[" ++ color.code ++ "m" ++ text ++ "\x1b[0m" else text

/-! ## Differences -/

/-- Two lines in the same place. -/
def compareLines (colors : Bool) (expected actual : String) : String :=
  if expected = actual then "    " ++ expected ++ "\n"
  else "  - expected: " ++ paint colors .green expected ++ "\n"
    ++ "  + actual:   " ++ paint colors .red actual ++ "\n"

/-- Two lists of lines, line against line. Where one has ended, its line is empty. -/
def compareAll (colors : Bool) : List String → List String → String
  | [], [] => ""
  | expected :: more, [] => compareLines colors expected "" ++ compareAll colors more []
  | [], actual :: more => compareLines colors "" actual ++ compareAll colors [] more
  | expected :: moreExpected, actual :: moreActual =>
    compareLines colors expected actual ++ compareAll colors moreExpected moreActual

/-- Two texts, line against line (`print_diff`). -/
def difference (colors : Bool) (expected actual : String) : String :=
  compareAll colors (Text.lines expected) (Text.lines actual)

/-! ## Results -/

/-- The line of a case that passed or was skipped. -/
def outcomeLine (colors : Bool) (result : CaseResult) : String :=
  match result.verdict with
  | .passed => paint colors .green "PASS" ++ ": " ++ result.name ++ " [" ++ result.file ++ "]\n"
  | .skipped reason =>
    paint colors .yellow "SKIP" ++ ": " ++ result.name ++ " [" ++ result.file ++ "] ("
      ++ reason.text ++ ")\n"
  | .failed _ => ""

/-- The lines of a case that failed (`print_failure`). -/
def failureLines (colors : Bool) (result : CaseResult) : String :=
  match result.verdict with
  | .failed failure =>
    paint colors .red "FAIL" ++ ": " ++ result.name ++ " [" ++ result.file ++ "]\n"
      ++ "  Error: " ++ failure.message ++ "\n"
      ++ match failure.texts? with
        | none => ""
        | some (expected, actual) => "  Diff:\n" ++ difference colors expected actual
  | _ => ""

/-- The line with the counts, after an empty line. -/
def summaryLine (colors : Bool) (results : List CaseResult) : String :=
  let counts := summary results
  "\nTest summary: total " ++ toString results.length ++ ", "
    ++ paint colors .green "passed" ++ " " ++ toString counts.passed ++ ", "
    ++ paint colors .red "failed" ++ " " ++ toString counts.failed ++ ", "
    ++ paint colors .yellow "skipped" ++ " " ++ toString counts.skipped ++ "\n"

/-- The names of the cases that failed, if there are any. -/
def failedNames (results : List CaseResult) : String :=
  let failed := results.filter fun result => Verdict.isFailed result.verdict
  if failed.isEmpty then ""
  else "\nFailed tests:\n" ++ String.join (failed.map fun result => "  - " ++ result.name ++ "\n")

/-- What is printed about results (`report_results`). -/
def output (colors : Bool) (results : List CaseResult) : String :=
  String.join (results.map (outcomeLine colors)) ++ summaryLine colors results

/-- What is printed about failures, on the channel of errors. -/
def errors (colors : Bool) (results : List CaseResult) : String :=
  String.join (results.map (failureLines colors)) ++ failedNames results

end RubyTree.Suite
