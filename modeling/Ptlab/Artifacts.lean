/-
Run artifacts (`src/ptlab/artifacts.py`): the assertions a run records and the
JUnit report made of them.

The report is modelled before serialisation: the counts in the attributes of the
suite, and one case for each assertion, for the error and for the skip.
`write_junit_counts` says that the counts are those of the cases.
-/
import Mathlib.Tactic

set_option autoImplicit false

namespace Ptlab.Artifacts

/-- One entry of `ScenarioContext.assertions`. Actual and expected value are kept
as their `repr`. -/
structure Assertion where
  name : String
  passed : Bool
  actual : String
  expected : String
  detail : String
  duration_seconds : ℚ
  /-- Only an assertion that failed has one. -/
  message : Option String
  deriving DecidableEq, Repr

/-! ## The JUnit report -/

/-- The element inside a test case. -/
inductive Verdict where
  | passed
  | failure (message text : String)
  | error (message text : String)
  | skipped (message : String)
  deriving DecidableEq, Repr

structure Testcase where
  classname : String
  name : String
  time : Option ℚ
  verdict : Verdict
  deriving DecidableEq, Repr

structure Testsuite where
  name : String
  tests : ℕ
  failures : ℕ
  errors : ℕ
  skipped : ℕ
  time : ℚ
  cases : List Testcase
  deriving DecidableEq, Repr

/-- A character at which `str.splitlines` ends a line. -/
def isLineBoundary (c : Char) : Bool :=
  c.val ∈ [0x0A, 0x0B, 0x0C, 0x0D, 0x1C, 0x1D, 0x1E, 0x85, 0x2028, 0x2029]

/-- `text.splitlines()[0]`. An empty text has no first line. -/
def firstLine (text : String) : Option String :=
  if text = "" then none
  else some (String.ofList (text.toList.takeWhile fun c => !isLineBoundary c))

/-- The case of one assertion. -/
def assertionCase (suite : String) (assertion : Assertion) : Testcase where
  classname := "ptlab." ++ suite
  name := assertion.name
  time := some assertion.duration_seconds
  verdict :=
    if assertion.passed then .passed
    else .failure (assertion.message.getD "assertion failed") assertion.detail

/-- The case of the error. -/
def errorCases (suite : String) : Option String → Option (List Testcase)
  | none => some []
  | some error => (firstLine error).map fun message =>
    [⟨"ptlab." ++ suite, "scenario", none, .error message error⟩]

/-- The case of the skip. -/
def skippedCases (suite : String) : Option String → List Testcase
  | none => []
  | some skipped => [⟨"ptlab." ++ suite, "scenario", none, .skipped skipped⟩]

/-- `write_junit`. It has no value where the source raises `IndexError`: at an
error without a first line. -/
def write_junit (suite : String) (duration_seconds : ℚ) (assertions : List Assertion)
    (error skipped : Option String) : Option Testsuite :=
  (errorCases suite error).map fun cases =>
    { name := suite
      tests := assertions.length + (if error.isSome then 1 else 0) +
        (if skipped.isSome then 1 else 0)
      failures := assertions.countP fun assertion => !assertion.passed
      errors := if error.isSome then 1 else 0
      skipped := if skipped.isSome then 1 else 0
      time := duration_seconds
      cases := assertions.map (assertionCase suite) ++ cases ++ skippedCases suite skipped }

/-- A report is written unless the error is an empty text. -/
theorem write_junit_isSome (suite : String) (duration_seconds : ℚ)
    (assertions : List Assertion) {error : Option String} (skipped : Option String)
    (h : error ≠ some "") :
    ∃ report, write_junit suite duration_seconds assertions error skipped = some report ∧
      report.failures = assertions.countP (fun assertion => !assertion.passed) ∧
      report.errors = if error.isSome then 1 else 0 := by
  have hcases : ∃ cases, errorCases suite error = some cases := by
    cases error with
    | none => exact ⟨[], rfl⟩
    | some text =>
        have hne : text ≠ "" := fun he => h (congrArg some he)
        rw [errorCases, firstLine, if_neg hne]
        exact ⟨_, rfl⟩
  obtain ⟨cases, hcases⟩ := hcases
  unfold write_junit
  rw [hcases]
  exact ⟨_, rfl, rfl, rfl⟩

def Verdict.isFailure : Verdict → Bool
  | .passed => false
  | .failure _ _ => true
  | .error _ _ => false
  | .skipped _ => false

def Verdict.isError : Verdict → Bool
  | .passed => false
  | .failure _ _ => false
  | .error _ _ => true
  | .skipped _ => false

def Verdict.isSkipped : Verdict → Bool
  | .passed => false
  | .failure _ _ => false
  | .error _ _ => false
  | .skipped _ => true

/-- An assertion's case has a failure in it exactly if the assertion failed, and
nothing else. -/
theorem assertionCase_verdict (suite : String) (assertion : Assertion) :
    (assertionCase suite assertion).verdict.isFailure = !assertion.passed ∧
      (assertionCase suite assertion).verdict.isError = false ∧
      (assertionCase suite assertion).verdict.isSkipped = false := by
  unfold assertionCase
  cases assertion.passed
  · exact ⟨rfl, rfl, rfl⟩
  · exact ⟨rfl, rfl, rfl⟩

/-- **The counts are those of the cases.** -/
theorem write_junit_counts {suite : String} {duration_seconds : ℚ} {assertions : List Assertion}
    {error skipped : Option String} {report : Testsuite}
    (h : write_junit suite duration_seconds assertions error skipped = some report) :
    report.tests = report.cases.length ∧
      report.failures = report.cases.countP (·.verdict.isFailure) ∧
      report.errors = report.cases.countP (·.verdict.isError) ∧
      report.skipped = report.cases.countP (·.verdict.isSkipped) := by
  have hfailure := fun assertion => (assertionCase_verdict suite assertion).1
  have herror := fun assertion => (assertionCase_verdict suite assertion).2.1
  have hskipped := fun assertion => (assertionCase_verdict suite assertion).2.2
  unfold write_junit at h
  rcases hcases : errorCases suite error with _ | cases
  · rw [hcases] at h
    cases h
  -- what `errorCases` makes of an error is one case with an error in it
  have hkind : cases.length = (if error.isSome then 1 else 0) ∧
      cases.countP (·.verdict.isFailure) = 0 ∧
      cases.countP (·.verdict.isError) = (if error.isSome then 1 else 0) ∧
      cases.countP (·.verdict.isSkipped) = 0 := by
    cases error with
    | none =>
        injection hcases with hcases
        subst hcases
        exact ⟨rfl, rfl, rfl, rfl⟩
    | some text =>
        obtain ⟨message, -, rfl⟩ := Option.map_eq_some_iff.mp hcases
        exact ⟨rfl, rfl, rfl, rfl⟩
  rw [hcases] at h
  injection h with h
  subst h
  obtain ⟨hlength, hf, he, hs⟩ := hkind
  refine ⟨?_, ?_, ?_, ?_⟩
  · simp only [List.length_append, List.length_map, hlength]
    cases skipped <;> rfl
  · simp only [List.countP_append, List.countP_map, Function.comp_def, hfailure, hf]
    cases skipped <;> rfl
  · simp only [List.countP_append, List.countP_map, Function.comp_def, herror, he,
      List.countP_false]
    cases error <;> cases skipped <;> rfl
  · simp only [List.countP_append, List.countP_map, Function.comp_def, hskipped, hs,
      List.countP_false]
    cases skipped <;> rfl

end Ptlab.Artifacts
