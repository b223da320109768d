import Mathlib.Data.List.Forall2
import Mathlib.Data.List.Lex
import Mathlib.Data.String.Basic
import RubyTree.CommandLine
import RubyTree.Proofs.Outcome

/-!
# The account of a run of suites

A run loads all suite files first, in the order of their paths, and ends if one of them cannot be
loaded. Then each case gets one result: it is skipped, or it is executed and passes or fails. Whether
a case is marked as one of the only ones concerns the cases of all files; the other two reasons to
skip it are its own. The counts that are printed are those of the results, and the command succeeds
if none of them is a failure.

A directory without suite files is refused: there, nothing fails and still the command does not
succeed.

Specification: `IsExecuted`, which cases are executed, `Passes`, which of these pass, and `Account`,
what a run gives for the suites that it loads.

Results:

* `inPathOrder_filesBelow`: the order of the files.
* `loadAll_eq_of_loads`, `loadAll_eq_of_failsFirst`: what loading them comes to.
* `isResult_resultOf`: the result of one case.
* `partitions_summary`: the counts.
* `suites_accounted`: whole runs.
* `noSuites_not_accounted`: a directory without suite files.
-/

namespace RubyTree.Suite

/-! ## The order of files -/

/-- Each path is the root with a path below it, and these are in order: they are compared part by
    part, from the first one on. -/
def InPathOrder (root : String) (paths : List String) : Prop :=
  ∃ places : List (List String), places.Pairwise (· ≤ ·) ∧
    paths = places.map fun place => if place = [] then root else Files.joined root place

theorem precedes_iff {a b : List String} : Files.precedes a b = true ↔ a ≤ b := by
  rw [Files.precedes, Bool.not_eq_true', ← Bool.not_eq_true, List.lex_eq_true_iff_lt]
  exact not_lt

theorem pairwise_mergeSort_precedes (places : List (List String)) :
    (places.mergeSort Files.precedes).Pairwise (· ≤ ·) := by
  have htrans : ∀ a b c, Files.precedes a b = true → Files.precedes b c = true →
      Files.precedes a c = true := by
    intro a b c hab hbc
    rw [precedes_iff] at hab hbc ⊢
    exact le_trans hab hbc
  have htotal : ∀ a b, (Files.precedes a b || Files.precedes b a) = true := by
    intro a b
    rw [Bool.or_eq_true, precedes_iff, precedes_iff]
    exact le_total a b
  exact (List.pairwise_mergeSort htrans htotal places).imp precedes_iff.mp

/-- No file stands at the root itself when files below it are looked for. -/
theorem inPathOrder_below (files : Files) (root : String) : InPathOrder root (files.below root) := by
  rw [Files.below]
  cases files.place? root with
  | none => exact ⟨[], .nil, rfl⟩
  | some place =>
    by_cases hfile : (files.file? place).isSome = true
    · simp only [if_pos hfile]
      exact ⟨[[]], List.pairwise_singleton _ _, rfl⟩
    · simp only [if_neg hfile]
      refine ⟨_, pairwise_mergeSort_precedes _, List.map_congr_left fun below hbelow => ?_⟩
      rw [List.mem_mergeSort, List.mem_filterMap] at hbelow
      obtain ⟨file, hmem, hdrop⟩ := hbelow
      split at hdrop
      · next hfirst =>
        cases hdrop
        refine (if_neg fun hnil => hfile ?_).symm
        have hpath : file.path = place := by
          rw [List.isPrefixOf_iff_prefix] at hfirst
          exact (hfirst.eq_of_length_le (List.drop_eq_nil_iff.mp hnil)).symm
        rw [Files.file?, List.find?_isSome]
        exact ⟨file, hmem, beq_iff_eq.mpr hpath⟩
      · cases hdrop

/-- Leaving out the files that are no suites changes no order. -/
theorem inPathOrder_filesBelow (files : Files) (root : String) :
    InPathOrder root (filesBelow files root) := by
  obtain ⟨places, hsorted, hbelow⟩ := inPathOrder_below files root
  rw [filesBelow, hbelow, List.filter_map]
  exact ⟨_, hsorted.filter _, rfl⟩

theorem mem_filesBelow_iff {files : Files} {root path : String} :
    path ∈ filesBelow files root ↔ path ∈ files.below root ∧
      (Files.extension? path = some "yaml" ∨ Files.extension? path = some "yml") := by
  rw [filesBelow, List.mem_filter]
  cases Files.extension? path <;> simp

/-! ## Loading -/

section Loading

variable {files : Files}

/-- The suites of some paths: each path with the cases in its file. -/
structure Loads (files : Files) (paths : List String) (suites : List (String × List Case)) :
    Prop where
  paths_eq : suites.map Prod.fst = paths
  load_eq : ∀ suite ∈ suites, load files suite.1 = .ok suite.2

/-- The cases of suites, each with its path: suite after suite, and each suite from its first case
    on. -/
def casesOf (suites : List (String × List Case)) : List (String × Case) :=
  suites.flatMap fun suite => suite.2.map (suite.1, ·)

/-- The error is that of the first file that cannot be loaded. -/
def FailsFirst (files : Files) (paths : List String) (error : Error) : Prop :=
  ∃ before path behind, paths = before ++ path :: behind ∧
    (∀ other ∈ before, ∃ cases, load files other = .ok cases) ∧ load files path = .error error

theorem exists_loads {paths : List String}
    (h : ∀ path ∈ paths, ∃ cases, load files path = .ok cases) :
    ∃ suites, Loads files paths suites := by
  induction paths with
  | nil => exact ⟨[], rfl, nofun⟩
  | cons path paths ih =>
    rw [List.forall_mem_cons] at h
    obtain ⟨⟨cases, hcases⟩, hpaths⟩ := h
    obtain ⟨suites, hsuites⟩ := ih hpaths
    refine ⟨(path, cases) :: suites, ?_, List.forall_mem_cons.mpr ⟨hcases, hsuites.load_eq⟩⟩
    rw [List.map_cons, hsuites.paths_eq]

theorem loadAll_eq_of_loads {paths : List String} {suites : List (String × List Case)}
    (h : Loads files paths suites) : loadAll files paths = .ok (casesOf suites) := by
  obtain ⟨rfl, hload⟩ := h
  induction suites with
  | nil => rfl
  | cons suite suites ih =>
    rw [List.forall_mem_cons] at hload
    rw [List.map_cons, loadAll, hload.1, ih hload.2]
    rfl

theorem exists_failsFirst {paths : List String}
    (h : ∃ path ∈ paths, ∃ error, load files path = .error error) :
    ∃ error, FailsFirst files paths error := by
  induction paths with
  | nil =>
    obtain ⟨path, hpath, -⟩ := h
    cases hpath
  | cons path paths ih =>
    cases hload : load files path with
    | error error => exact ⟨error, [], path, paths, rfl, nofun, hload⟩
    | ok cases =>
      have hpaths : ∃ path ∈ paths, ∃ error, load files path = .error error := by
        obtain ⟨other, hother, error, herror⟩ := h
        rcases List.mem_cons.mp hother with rfl | hother
        · cases hload.symm.trans herror
        · exact ⟨other, hother, error, herror⟩
      obtain ⟨error, before, other, behind, rfl, hbefore, hother⟩ := ih hpaths
      exact ⟨error, path :: before, other, behind, rfl,
        List.forall_mem_cons.mpr ⟨⟨cases, hload⟩, hbefore⟩, hother⟩

theorem loadAll_eq_of_failsFirst {paths : List String} {error : Error}
    (h : FailsFirst files paths error) : loadAll files paths = .error error := by
  obtain ⟨before, path, behind, rfl, hbefore, hpath⟩ := h
  induction before with
  | nil =>
    rw [List.nil_append, loadAll, hpath]
    rfl
  | cons other before ih =>
    rw [List.forall_mem_cons] at hbefore
    obtain ⟨⟨cases, hcases⟩, hbefore⟩ := hbefore
    rw [List.cons_append, loadAll, hcases, ih hbefore]
    rfl

end Loading

/-! ## Cases -/

/-- The case is executed in a run of these cases: it is not marked to be skipped, its name holds the
    filter if there is one, whatever the case of letters, and it is marked as one of the only ones
    unless no case is. -/
structure IsExecuted (filter : Option String) (cases : List (String × Case)) (entry : Case) :
    Prop where
  skip_eq : entry.skip = false
  mentions : ∀ part ∈ filter,
    Text.lowercase part.toList <:+: Text.lowercase entry.name.toList
  only : entry.only = true ∨ ∀ other ∈ cases, other.2.only = false

/-- The stream of the case replays, reports the diagnostics that are listed, and gives the dump that
    is expected. -/
def Passes (entry : Case) : Prop :=
  ∃ normalized, normalize entry.events = .ok normalized ∧
    normalized.diagnostics.map Diagnostic.text = entry.diagnostics ∧
    Diff.sameDump entry.expected normalized.render = true

theorem holds_iff {part text : List Char} : holds part text = true ↔ part <:+: text := by
  induction text with
  | nil => rw [holds, List.isEmpty_iff, List.infix_nil]
  | cons c text ih =>
    rw [holds, Bool.or_eq_true, List.isPrefixOf_iff_prefix, ih, List.infix_cons_iff]

theorem skipReason?_eq_none_iff {filter : Option String} {cases : List (String × Case)}
    {entry : Case} :
    skipReason? (cases.any fun (_, other) => other.only) filter entry = none ↔
      IsExecuted filter cases entry := by
  have honly : ((cases.any fun (_, other) => other.only) && !entry.only) = false ↔
      entry.only = true ∨ ∀ other ∈ cases, other.2.only = false := by
    rw [Bool.and_eq_false_iff, Bool.not_eq_false', List.any_eq_false, or_comm]
    simp only [Bool.not_eq_true]
  constructor
  · intro h
    unfold skipReason? at h
    split at h
    · cases h
    · next hrun =>
      split at h
      · cases h
      · next hskip =>
        refine ⟨by simpa using hskip, ?_, honly.mp (by simpa using hrun)⟩
        intro part hpart
        cases hpart
        by_cases hholds : mentions entry.name part = true
        · exact holds_iff.mp hholds
        · simp [hholds] at h
  · rintro ⟨hskip, hmentions, hrun⟩
    unfold skipReason?
    rw [honly.mpr hrun, hskip]
    cases filter with
    | none => rfl
    | some part =>
      have hholds : mentions entry.name part = true := holds_iff.mpr (hmentions part rfl)
      simp [hholds]

theorem verdictOf_eq_passed_iff {entry : Case} : verdictOf entry = .passed ↔ Passes entry := by
  rw [verdictOf, Passes]
  cases hnormalize : normalize entry.events with
  | error cause => simp
  | ok normalized =>
    by_cases hdiagnostics : normalized.diagnostics.map Diagnostic.text = entry.diagnostics
    · cases hdump : Diff.sameDump entry.expected normalized.render <;>
        simp [hdiagnostics, hdump]
    · simp [hdiagnostics]

/-- A case that is executed passes or fails. -/
theorem isFailed_verdictOf_iff {entry : Case} :
    (verdictOf entry).isFailed = true ↔ ¬ Passes entry := by
  rw [← verdictOf_eq_passed_iff, verdictOf]
  split
  · simp [Verdict.isFailed]
  · dsimp only
    split
    · simp [Verdict.isFailed]
    · split <;> simp [Verdict.isFailed]

/-- The result of a case in a run of these cases: it is skipped if it is not executed, and else
    passes or fails. -/
structure IsResult (filter : Option String) (cases : List (String × Case)) (source : String × Case)
    (result : CaseResult) : Prop where
  file_eq : result.file = source.1
  name_eq : result.name = source.2.name
  isSkipped_iff : result.verdict.isSkipped = true ↔ ¬ IsExecuted filter cases source.2
  isPassed_iff : result.verdict.isPassed = true ↔
    IsExecuted filter cases source.2 ∧ Passes source.2
  isFailed_iff : result.verdict.isFailed = true ↔
    IsExecuted filter cases source.2 ∧ ¬ Passes source.2

theorem isResult_resultOf (filter : Option String) (cases : List (String × Case))
    (source : String × Case) : IsResult filter cases source
      (resultOf (cases.any fun (_, other) => other.only) filter source.1 source.2) := by
  obtain ⟨file, entry⟩ := source
  rw [resultOf]
  cases hreason : skipReason? (cases.any fun (_, other) => other.only) filter entry with
  | some reason =>
    have hskipped : ¬ IsExecuted filter cases entry := by
      rw [← skipReason?_eq_none_iff, hreason]
      nofun
    exact ⟨rfl, rfl, iff_of_true rfl hskipped, iff_of_false nofun fun h => hskipped h.1,
      iff_of_false nofun fun h => hskipped h.1⟩
  | none =>
    have hexecuted : IsExecuted filter cases entry := skipReason?_eq_none_iff.mp hreason
    have hpassed : (verdictOf entry).isPassed = true ↔ Passes entry := by
      rw [← verdictOf_eq_passed_iff]
      cases verdictOf entry <;> simp [Verdict.isPassed]
    have hskipped : (verdictOf entry).isSkipped = false := by
      by_cases hpasses : Passes entry
      · rw [verdictOf_eq_passed_iff.mpr hpasses]
        rfl
      · have hfailed := isFailed_verdictOf_iff.mpr hpasses
        cases hverdict : verdictOf entry
        all_goals first | rfl | (rw [hverdict] at hfailed; cases hfailed)
    refine ⟨rfl, rfl, iff_of_false (by simp [hskipped]) (not_not.mpr hexecuted), ?_, ?_⟩
    · rw [and_iff_right hexecuted]
      exact hpassed
    · rw [and_iff_right hexecuted]
      exact isFailed_verdictOf_iff

theorem forall₂_runAll (filter : Option String) (cases : List (String × Case)) :
    List.Forall₂ (IsResult filter cases) cases (runAll filter cases) := by
  rw [runAll, List.forall₂_map_right_iff, List.forall₂_same]
  exact fun source _ => isResult_resultOf filter cases source

/-! ## Counts -/

/-- The results come apart into those that passed, those that failed and those that were skipped,
    and the counts say how many these are. -/
def Partitions (results : List CaseResult) (counts : Summary) : Prop :=
  ∃ passed failed skipped, results.Perm (passed ++ failed ++ skipped) ∧
    (∀ result ∈ passed, result.verdict.isPassed = true) ∧
    (∀ result ∈ failed, result.verdict.isFailed = true) ∧
    (∀ result ∈ skipped, result.verdict.isSkipped = true) ∧
    counts = ⟨passed.length, failed.length, skipped.length⟩

theorem partitions_summary (results : List CaseResult) : Partitions results (summary results) := by
  -- the results that did not pass come apart in turn
  have hfailed : (results.filter fun result => !result.verdict.isPassed).filter
      (fun result => result.verdict.isFailed) =
        results.filter fun result => result.verdict.isFailed := by
    rw [List.filter_filter]
    exact List.filter_congr fun result _ => by cases result.verdict <;> rfl
  have hskipped : (results.filter fun result => !result.verdict.isPassed).filter
      (fun result => !result.verdict.isFailed) =
        results.filter fun result => result.verdict.isSkipped := by
    rw [List.filter_filter]
    exact List.filter_congr fun result _ => by cases result.verdict <;> rfl
  have hperm := (List.filter_append_perm (fun result => result.verdict.isFailed)
    (results.filter fun result => !result.verdict.isPassed)).symm
  rw [hfailed, hskipped] at hperm
  refine ⟨results.filter fun result => result.verdict.isPassed,
    results.filter fun result => result.verdict.isFailed,
    results.filter fun result => result.verdict.isSkipped, ?_,
    fun result h => (List.mem_filter.mp h).2, fun result h => (List.mem_filter.mp h).2,
    fun result h => (List.mem_filter.mp h).2, ?_⟩
  · rw [List.append_assoc]
    exact (List.filter_append_perm _ results).symm.trans (hperm.append_left _)
  · rw [summary, List.countP_eq_length_filter, List.countP_eq_length_filter,
      List.countP_eq_length_filter]

/-! ## Whole runs -/

/-- What a run gives for the suites that it loads. -/
structure Account (files : Files) (root : String) (filter : Option String) (colors : Bool)
    (suites : List (String × List Case)) (results : List CaseResult) : Prop where
  loads : Loads files (filesBelow files root) suites
  run_eq : run files root filter = .ok results
  /-- Each case has its result, in the order of the cases. -/
  isResult : List.Forall₂ (IsResult filter (casesOf suites)) (casesOf suites) results
  partitions : Partitions results (summary results)
  /-- The lines about cases are followed by the number of results and the counts. -/
  out_eq : (CommandLine.run files colors (.test root filter)).out =
    String.join (results.map (outcomeLine colors)) ++ ("\nTest summary: total "
      ++ toString results.length ++ ", "
      ++ paint colors .green "passed" ++ " " ++ toString (summary results).passed ++ ", "
      ++ paint colors .red "failed" ++ " " ++ toString (summary results).failed ++ ", "
      ++ paint colors .yellow "skipped" ++ " " ++ toString (summary results).skipped ++ "\n")
  succeeds_iff : (CommandLine.run files colors (.test root filter)).status = 0 ↔
    ∀ source ∈ casesOf suites, IsExecuted filter (casesOf suites) source.2 → Passes source.2

/-- The run gives an error instead of results, and the command reports nothing else. -/
def IsRefused (files : Files) (root : String) (filter : Option String) (colors : Bool)
    (error : Error) : Prop :=
  run files root filter = .error error ∧
    CommandLine.run files colors (.test root filter) =
      { status := 1, out := "", errors := CommandLine.errorLines error }

section Runs

variable {files : Files} {root : String} {filter : Option String} {colors : Bool}

theorem isRefused_of_run {error : Error} (h : run files root filter = .error error) :
    IsRefused files root filter colors error := by
  refine ⟨h, ?_⟩
  rw [CommandLine.run, CommandLine.perform, h]
  rfl

theorem run_eq_of_ne_nil (h : filesBelow files root ≠ []) :
    run files root filter =
      (loadAll files (filesBelow files root)).map (runAll filter) := by
  have hempty : (filesBelow files root).isEmpty = false := by simpa using h
  simp only [run, hempty]
  cases loadAll files (filesBelow files root) <;> rfl

/-- No result is a failure if every case that is executed passes. -/
theorem failed_summary_eq_zero_iff {cases : List (String × Case)} {results : List CaseResult}
    (h : List.Forall₂ (IsResult filter cases) cases results) :
    (summary results).failed = 0 ↔
      ∀ source ∈ cases, IsExecuted filter cases source.2 → Passes source.2 := by
  have hfailed : ∀ {sources : List (String × Case)} {results : List CaseResult},
      List.Forall₂ (IsResult filter cases) sources results →
      ((∀ result ∈ results, ¬ result.verdict.isFailed = true) ↔
        ∀ source ∈ sources, IsExecuted filter cases source.2 → Passes source.2) := by
    intro sources results hresults
    induction hresults with
    | nil => exact iff_of_true nofun nofun
    | cons hresult _ ih =>
      rw [List.forall_mem_cons, List.forall_mem_cons, ih, hresult.isFailed_iff, not_and_not_right]
  rw [← hfailed h]
  exact List.countP_eq_zero

theorem account_of_loads {suites : List (String × List Case)} (hne : filesBelow files root ≠ [])
    (h : Loads files (filesBelow files root) suites) :
    Account files root filter colors suites (runAll filter (casesOf suites)) := by
  have hrun : run files root filter = .ok (runAll filter (casesOf suites)) := by
    rw [run_eq_of_ne_nil hne, loadAll_eq_of_loads h]
    rfl
  have hresults := forall₂_runAll filter (casesOf suites)
  have hperform : CommandLine.run files colors (.test root filter) =
      { status := if (summary (runAll filter (casesOf suites))).failed = 0 then 0 else 1
        out := output colors (runAll filter (casesOf suites))
        errors := errors colors (runAll filter (casesOf suites)) } := by
    rw [CommandLine.run, CommandLine.perform, hrun]
    rfl
  refine ⟨h, hrun, hresults, partitions_summary _, ?_, ?_⟩
  · rw [hperform]
    rfl
  · rw [hperform, ← failed_summary_eq_zero_iff hresults]
    simp

end Runs

/-- The suite files are taken in the order of their paths. A directory without any is refused, and
    so is one in which some file cannot be loaded, with the error of the first such file. Otherwise
    a run gives an account of every case. -/
theorem suites_accounted (files : Files) (root : String) (filter : Option String)
    (colors : Bool) :
    (InPathOrder root (filesBelow files root) ∧
      ∀ path, path ∈ filesBelow files root ↔ path ∈ files.below root ∧
        (Files.extension? path = some "yaml" ∨ Files.extension? path = some "yml")) ∧
    (filesBelow files root = [] →
      IsRefused files root filter colors (.suite (.noFiles root))) ∧
    ((∃ path ∈ filesBelow files root, ∃ error, load files path = .error error) →
      ∃ error, FailsFirst files (filesBelow files root) error ∧
        IsRefused files root filter colors error) ∧
    (filesBelow files root ≠ [] →
      (∀ path ∈ filesBelow files root, ∃ cases, load files path = .ok cases) →
      ∃ suites results, Account files root filter colors suites results) := by
  refine ⟨⟨inPathOrder_filesBelow files root, fun path => mem_filesBelow_iff⟩, ?_, ?_, ?_⟩
  · intro hnil
    apply isRefused_of_run
    rw [run, hnil]
    rfl
  · intro hpath
    have hne : filesBelow files root ≠ [] := List.ne_nil_of_mem hpath.choose_spec.1
    obtain ⟨error, herror⟩ := exists_failsFirst hpath
    refine ⟨error, herror, isRefused_of_run ?_⟩
    rw [run_eq_of_ne_nil hne, loadAll_eq_of_failsFirst herror]
    rfl
  · intro hne hload
    obtain ⟨suites, hsuites⟩ := exists_loads hload
    exact ⟨suites, _, account_of_loads hne hsuites⟩

/-- Files at and below a directory, given in the order of their paths, are found as they stand. -/
theorem below_eq_map_of_pairwise {files : Files} {root : String} {place : List String}
    (hplace : files.place? root = some place) (hfile : files.file? place = none)
    {found : List (List String)}
    (hfound : (files.files.filterMap fun file =>
      if place.isPrefixOf file.path then some (file.path.drop place.length) else none) = found)
    (hsorted : found.Pairwise fun a b => Files.precedes a b = true) :
    files.below root = found.map (Files.joined root) := by
  rw [Files.below, hplace]
  simp only [hfile, Option.isSome_none, hfound, List.mergeSort_of_pairwise hsorted]
  rfl

theorem load_eq_ok {files : Files} {path text : String} {cases : List Case}
    (htext : files.text? path = some text) (hcases : Case.readAll? text = some cases) :
    load files path = .ok cases := by
  simp only [load, htext, hcases]

/-- A directory with a file that is no suite. -/
def noSuites : Files := ⟨[⟨["suites", "notes.txt"], "no suite\n".toUTF8⟩]⟩

theorem filesBelow_noSuites : filesBelow noSuites "suites" = [] := by
  have hplace : noSuites.place? "suites" = some ["suites"] := by decide +kernel
  have hfile : noSuites.file? ["suites"] = none := rfl
  rw [filesBelow, below_eq_map_of_pairwise hplace hfile rfl (by decide +kernel)]
  decide +kernel

/-- A directory with a file that lists no cases. -/
def brokenSuites : Files := ⟨[⟨["suites", "a.yml"], "name: Any\n".toUTF8⟩]⟩

theorem mem_filesBelow_brokenSuites : "suites/a.yml" ∈ filesBelow brokenSuites "suites" := by
  have hplace : brokenSuites.place? "suites" = some ["suites"] := by decide +kernel
  have hfile : brokenSuites.file? ["suites"] = none := rfl
  rw [mem_filesBelow_iff, below_eq_map_of_pairwise hplace hfile rfl (by decide +kernel)]
  decide +kernel

theorem load_brokenSuites :
    load brokenSuites "suites/a.yml" = .error (.suite (.malformed "suites/a.yml")) := by
  have htext : brokenSuites.text? "suites/a.yml" = some "name: Any\n" := by decide +kernel
  have hcases : Case.readAll? "name: Any\n" = none := by decide +kernel
  simp only [load, htext, hcases]

/-- Two suites, the second of them with a case that is the only one to execute. -/
def twoSuites : Files :=
  ⟨[⟨["suites", "a.yml"], "- name: Any\n  events: ''\n  expected: ''\n".toUTF8⟩,
    ⟨["suites", "b.yaml"], "- name: Only\n  only: true\n  events: ''\n  expected: ''\n".toUTF8⟩]⟩

theorem filesBelow_twoSuites :
    filesBelow twoSuites "suites" = ["suites/a.yml", "suites/b.yaml"] := by
  have hplace : twoSuites.place? "suites" = some ["suites"] := by decide +kernel
  have hfile : twoSuites.file? ["suites"] = none := rfl
  rw [filesBelow, below_eq_map_of_pairwise hplace hfile rfl (by decide +kernel)]
  decide +kernel

theorem load_twoSuites : ∀ path ∈ filesBelow twoSuites "suites",
    ∃ cases, load twoSuites path = .ok cases := by
  have hany : Case.readAll? "- name: Any\n  events: ''\n  expected: ''\n" =
      some [{ name := "Any", events := "", expected := "" }] := by decide +kernel
  have honly : Case.readAll? "- name: Only\n  only: true\n  events: ''\n  expected: ''\n" =
      some [{ name := "Only", events := "", expected := "", only := true }] := by decide +kernel
  rw [filesBelow_twoSuites, List.forall_mem_cons, List.forall_mem_singleton]
  exact ⟨⟨_, load_eq_ok (by decide +kernel) hany⟩, ⟨_, load_eq_ok (by decide +kernel) honly⟩⟩

/-- One directory for each of the three ends of a run. -/
theorem suites_accounted_each_end :
    (filesBelow noSuites "suites" = [] ∧
      IsRefused noSuites "suites" none false (.suite (.noFiles "suites"))) ∧
    ((∃ path ∈ filesBelow brokenSuites "suites", ∃ error,
        load brokenSuites path = .error error) ∧
      ∃ error, FailsFirst brokenSuites (filesBelow brokenSuites "suites") error ∧
        IsRefused brokenSuites "suites" none false error) ∧
    (filesBelow twoSuites "suites" ≠ [] ∧
      (∀ path ∈ filesBelow twoSuites "suites", ∃ cases, load twoSuites path = .ok cases) ∧
      ∃ suites results, Account twoSuites "suites" (some "ON") false suites results) := by
  obtain ⟨-, hempty, -, -⟩ := suites_accounted noSuites "suites" none false
  obtain ⟨-, -, hbroken, -⟩ := suites_accounted brokenSuites "suites" none false
  obtain ⟨-, -, -, hloads⟩ := suites_accounted twoSuites "suites" (some "ON") false
  have hpath : ∃ path ∈ filesBelow brokenSuites "suites", ∃ error,
      load brokenSuites path = .error error :=
    ⟨_, mem_filesBelow_brokenSuites, _, load_brokenSuites⟩
  have hne : filesBelow twoSuites "suites" ≠ [] := by
    rw [filesBelow_twoSuites]
    nofun
  exact ⟨⟨filesBelow_noSuites, hempty filesBelow_noSuites⟩, ⟨hpath, hbroken hpath⟩,
    hne, load_twoSuites, hloads hne load_twoSuites⟩

/-- Where there are no suites, all of them load and no case fails, and still the command gives no
    account and does not succeed. -/
theorem noSuites_not_accounted :
    (CommandLine.run noSuites false (.test "suites" none)).status = 1 ∧
    ¬ ((∀ path ∈ filesBelow noSuites "suites", ∃ cases, load noSuites path = .ok cases) →
      ∃ suites results, Account noSuites "suites" none false suites results) := by
  have hrun : run noSuites "suites" none = .error (.suite (.noFiles "suites")) := by
    rw [run, filesBelow_noSuites]
    rfl
  have hload : ∀ path ∈ filesBelow noSuites "suites", ∃ cases,
      load noSuites path = .ok cases := by
    rw [filesBelow_noSuites]
    nofun
  refine ⟨by rw [(isRefused_of_run hrun).2], fun haccounted => ?_⟩
  obtain ⟨suites, results, haccount⟩ := haccounted hload
  cases hrun.symm.trans haccount.run_eq

end RubyTree.Suite
