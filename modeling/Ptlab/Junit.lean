/-
The JUnit file of a run (`write_junit` of `src/ptlab/artifacts.py`): the elements of a
report, their indentation, and what a reader finds in the file.

`junit_file` says that a reader finds the report, with carriage returns turned into line
feeds in what stands between tags, and that its counts are those of the cases it finds;
but a file in which any text holds a character that XML does not have, such as the escape
character of a coloured log, cannot be read at all.
-/
import Ptlab.Artifacts
import Ptlab.Control.Response
import Ptlab.Lib.JsNumber
import Ptlab.Lib.Xml

set_option autoImplicit false

namespace Ptlab.Junit

open Artifacts Xml

/-! ## Names -/

def testsuite : Name := ⟨"testsuite".toList, List.cons_ne_nil _ _, rfl⟩

def testcase : Name := ⟨"testcase".toList, List.cons_ne_nil _ _, rfl⟩

def failure : Name := ⟨"failure".toList, List.cons_ne_nil _ _, rfl⟩

def error : Name := ⟨"error".toList, List.cons_ne_nil _ _, rfl⟩

def skipped : Name := ⟨"skipped".toList, List.cons_ne_nil _ _, rfl⟩

def name : Name := ⟨"name".toList, List.cons_ne_nil _ _, rfl⟩

def classname : Name := ⟨"classname".toList, List.cons_ne_nil _ _, rfl⟩

def message : Name := ⟨"message".toList, List.cons_ne_nil _ _, rfl⟩

def tests : Name := ⟨"tests".toList, List.cons_ne_nil _ _, rfl⟩

def failures : Name := ⟨"failures".toList, List.cons_ne_nil _ _, rfl⟩

def errors : Name := ⟨"errors".toList, List.cons_ne_nil _ _, rfl⟩

def time : Name := ⟨"time".toList, List.cons_ne_nil _ _, rfl⟩

/-! ## The elements of a report -/

/-- `f"{x:.6f}"`. A tie goes to the even digit. -/
def fixed6 (x : ℚ) : String :=
  let micros := (JsNumber.halfEven (|x| * 10 ^ 6)).toNat
  (if x < 0 then "-" else "") ++ toString (micros / 10 ^ 6) ++ "." ++
    String.ofList ((toString (micros % 10 ^ 6)).toList.leftpad 6 '0')

/-- What stands in a case. -/
def elements : Verdict → List Element
  | .passed => []
  | .failure reason text => [.mk failure [(message, reason.toList)] text.toList [] []]
  | .error reason text => [.mk error [(message, reason.toList)] text.toList [] []]
  | .skipped reason => [.mk skipped [(message, reason.toList)] [] [] []]

def caseElement (c : Testcase) : Element :=
  .mk testcase
    ([(classname, c.classname.toList), (name, c.name.toList)] ++
      (c.time.map fun t => (time, (fixed6 t).toList)).toList)
    [] (elements c.verdict) []

def suiteElement (report : Testsuite) : Element :=
  .mk testsuite
    [(name, report.name.toList), (tests, (toString report.tests).toList),
      (failures, (toString report.failures).toList), (errors, (toString report.errors).toList),
      (skipped, (toString report.skipped).toList), (time, (fixed6 report.time).toList)]
    [] (report.cases.map caseElement) []

/-- The file of a report. -/
def junit (report : Testsuite) : List Char :=
  document (indent Control.isSpace 0 (suiteElement report))

/-! ## What a reader finds -/

structure Case where
  classname : String
  name : String
  time : Option String
  verdict : Verdict
  deriving DecidableEq, Repr

/-- The report of a reader: counts and times are texts. -/
structure Report where
  name : String
  tests : String
  failures : String
  errors : String
  skipped : String
  time : String
  cases : List Case
  deriving DecidableEq, Repr

def attribute? (e : Element) (key : Name) : Option String :=
  (e.attributes.lookup key).map String.ofList

def verdict? : List Element → Option Verdict
  | [] => some .passed
  | [e] => do
    let reason ← attribute? e message
    if e.tag = failure then some (.failure reason (String.ofList e.text))
    else if e.tag = error then some (.error reason (String.ofList e.text))
    else if e.tag = skipped then some (.skipped reason)
    else none
  | _ => none

def case? (e : Element) : Option Case := do
  let classname ← attribute? e classname
  let name ← attribute? e name
  let verdict ← verdict? e.children
  if e.tag = testcase then some ⟨classname, name, attribute? e time, verdict⟩ else none

def report? (e : Element) : Option Report := do
  let name ← attribute? e name
  let tests ← attribute? e tests
  let failures ← attribute? e failures
  let errors ← attribute? e errors
  let skipped ← attribute? e skipped
  let time ← attribute? e time
  let cases ← e.children.mapM case?
  if e.tag = testsuite then some ⟨name, tests, failures, errors, skipped, time, cases⟩ else none

/-- Reading a file; the layout between its elements does not count. -/
def readReport (text : List Char) : Option Report :=
  ((read text).map Element.content).bind report?

/-! ## What a reader should find -/

/-- A text between tags. -/
def shown (text : String) : String := String.ofList (normalized text.toList)

def shownVerdict : Verdict → Verdict
  | .passed => .passed
  | .failure reason text => .failure reason (shown text)
  | .error reason text => .error reason (shown text)
  | .skipped reason => .skipped reason

def shownCase (c : Testcase) : Case :=
  ⟨c.classname, c.name, c.time.map fixed6, shownVerdict c.verdict⟩

def shownReport (report : Testsuite) : Report :=
  ⟨report.name, toString report.tests, toString report.failures, toString report.errors,
    toString report.skipped, fixed6 report.time, report.cases.map shownCase⟩

theorem verdict?_elements (verdict : Verdict) :
    verdict? (normalizedAll (elements verdict)) = some (shownVerdict verdict) := by
  have hofList : ∀ text : String, String.ofList text.toList = text := fun _ => String.ofList_toList
  cases verdict with
  | passed => rfl
  | failure reason text => exact congrArg (fun m => some (Verdict.failure m _)) (hofList reason)
  | error reason text => exact congrArg (fun m => some (Verdict.error m _)) (hofList reason)
  | skipped reason => exact congrArg (fun m => some (Verdict.skipped m)) (hofList reason)

theorem case?_caseElement (c : Testcase) :
    case? (caseElement c).normalized = some (shownCase c) := by
  obtain ⟨classname, name, time, verdict⟩ := c
  have hverdict := verdict?_elements verdict
  have htime : attribute? (caseElement ⟨classname, name, time, verdict⟩).normalized Junit.time =
      time.map fixed6 := by
    cases time with
    | none => rfl
    | some t => exact congrArg some String.ofList_toList
  change (verdict? (normalizedAll (elements verdict))).bind _ = _
  rw [hverdict]
  change some (Case.mk _ _ _ _) = _
  rw [htime, String.ofList_toList, String.ofList_toList]
  rfl

theorem mapM_case? (cases : List Testcase) :
    (normalizedAll (cases.map caseElement)).mapM case? = some (cases.map shownCase) := by
  induction cases with
  | nil => rfl
  | cons c cases ih =>
      rw [List.map_cons, normalizedAll, List.mapM_cons, case?_caseElement, ih]
      rfl

/-- **A reader of the elements finds the report.** -/
theorem report?_suiteElement (report : Testsuite) :
    report? (suiteElement report).normalized = some (shownReport report) := by
  have hcases := mapM_case? report.cases
  change ((normalizedAll (report.cases.map caseElement)).mapM case?).bind _ = _
  rw [hcases]
  change some (Report.mk _ _ _ _ _ _ _) = _
  simp only [String.ofList_toList]
  rfl

/-! ## What can be read -/

theorem content_elements (verdict : Verdict) :
    contentAll (elements verdict) = elements verdict := by
  cases verdict <;> rfl

theorem content_caseElement (c : Testcase) : (caseElement c).content = caseElement c := by
  unfold caseElement
  rw [Element.content, content_elements]
  cases (elements c.verdict).isEmpty <;> rfl

/-- The elements have no layout of their own. -/
theorem content_suiteElement (report : Testsuite) :
    (suiteElement report).content = suiteElement report := by
  have hcases : contentAll (report.cases.map caseElement) = report.cases.map caseElement := by
    induction report.cases with
    | nil => rfl
    | cons c cases ih => rw [List.map_cons, contentAll, content_caseElement, ih]
  unfold suiteElement
  rw [Element.content, hcases]
  cases (report.cases.map caseElement).isEmpty <;> rfl

/-- A text that can be read. -/
def Legible (text : String) : Prop := Valid text.toList

instance : DecidablePred Legible := fun _ => inferInstanceAs (Decidable (Valid _))

theorem legible_append {a b : String} : Legible (a ++ b) ↔ Legible a ∧ Legible b := by
  unfold Legible Valid
  rw [String.toList_append]
  exact List.forall_mem_append

theorem legible_of_digits {text : String} (h : ∀ c ∈ text.toList, c.isDigit = true) :
    Legible text := by
  intro c hc
  have hdigit := h c hc
  unfold Char.isDigit at hdigit
  simp only [Bool.and_eq_true, decide_eq_true_eq] at hdigit
  have hlow : 48 ≤ c.toNat := UInt32.le_iff_toNat_le.mp hdigit.1
  have hhigh : c.toNat ≤ 57 := UInt32.le_iff_toNat_le.mp hdigit.2
  exact .inr ⟨by omega, by omega, by omega⟩

theorem isDigit_toString (n : ℕ) : ∀ c ∈ (toString n).toList, c.isDigit = true := by
  intro c hc
  rw [Nat.toString_eq_ofList_toDigits, String.toList_ofList] at hc
  exact Nat.isDigit_of_mem_toDigits (by decide) (by decide) hc

theorem legible_toString (n : ℕ) : Legible (toString n) := legible_of_digits (isDigit_toString n)

theorem legible_fixed6 (x : ℚ) : Legible (fixed6 x) := by
  unfold fixed6
  dsimp only
  rw [legible_append, legible_append, legible_append]
  refine ⟨⟨⟨?_, legible_toString _⟩, by decide⟩, legible_of_digits fun c hc => ?_⟩
  · split_ifs <;> decide
  · rw [String.toList_ofList, List.leftpad] at hc
    rcases List.mem_append.mp hc with hc | hc
    · rw [List.eq_of_mem_replicate hc]
      decide
    · exact isDigit_toString _ c hc

/-- The texts of a verdict. -/
def verdictTexts : Verdict → List String
  | .passed => []
  | .failure reason text => [reason, text]
  | .error reason text => [reason, text]
  | .skipped reason => [reason]

/-- The texts of a case, but for its time. -/
def caseTexts (c : Testcase) : List String := c.classname :: c.name :: verdictTexts c.verdict

theorem valid_elements (verdict : Verdict) :
    validChildren (elements verdict) = true ↔ ∀ text ∈ verdictTexts verdict, Legible text := by
  cases verdict <;>
    simp [elements, verdictTexts, validChildren, Element.valid, ValidAll, Element.tail, Legible, valid_nil]

theorem valid_caseElement (c : Testcase) :
    (caseElement c).valid = true ↔ ∀ text ∈ caseTexts c, Legible text := by
  obtain ⟨classname, name, time, verdict⟩ := c
  have htime : ∀ entry ∈ (time.map fun t => (Junit.time, (fixed6 t).toList)).toList,
      Valid entry.2 := by
    intro entry hentry
    obtain ⟨t, -, rfl⟩ := Option.map_eq_some_iff.mp (Option.mem_toList.mp hentry)
    exact legible_fixed6 t
  unfold caseElement caseTexts
  rw [Element.valid, Bool.and_eq_true, Bool.and_eq_true, valid_elements, decide_eq_true_iff,
    and_iff_left (decide_eq_true valid_nil), List.forall_mem_cons, List.forall_mem_cons, ← and_assoc]
  refine and_congr_left fun _ => ?_
  unfold ValidAll
  rw [List.forall_mem_append, and_iff_left htime, List.forall_mem_cons, List.forall_mem_singleton]
  rfl

theorem valid_suiteElement (report : Testsuite) :
    (suiteElement report).valid = true ↔
      Legible report.name ∧ ∀ c ∈ report.cases, ∀ text ∈ caseTexts c, Legible text := by
  have hcases : validChildren (report.cases.map caseElement) = true ↔
      ∀ c ∈ report.cases, ∀ text ∈ caseTexts c, Legible text := by
    induction report.cases with
    | nil => exact iff_of_true rfl fun _ h => absurd h List.not_mem_nil
    | cons c cases ih =>
        have htail : (caseElement c).tail = [] := rfl
        rw [List.map_cons, validChildren, Bool.and_eq_true, Bool.and_eq_true, valid_caseElement, ih,
          htail, and_iff_left (decide_eq_true valid_nil), List.forall_mem_cons]
  unfold suiteElement
  rw [Element.valid, Bool.and_eq_true, Bool.and_eq_true, hcases, decide_eq_true_iff,
    and_iff_left (decide_eq_true valid_nil)]
  refine and_congr_left fun _ => ?_
  unfold ValidAll
  simp only [List.forall_mem_cons]
  exact ⟨fun h => h.1, fun h => ⟨h, legible_toString _, legible_toString _, legible_toString _,
    legible_toString _, legible_fixed6 _, fun _ h => absurd h List.not_mem_nil⟩⟩

theorem legible_firstLine {text reason : String} (h : firstLine text = some reason)
    (htext : Legible text) : Legible reason := by
  unfold firstLine at h
  split_ifs at h
  obtain rfl := Option.some.inj h
  intro c hc
  rw [String.toList_ofList] at hc
  exact htext c ((List.takeWhile_prefix _).subset hc)

/-! ## The file -/

/-- The texts of a run that get into its file. -/
def texts (suite : String) (assertions : List Assertion) (error skipped : Option String) :
    List String :=
  suite :: (assertions.flatMap (fun assertion => assertion.name ::
    if assertion.passed then []
    else [assertion.message.getD "assertion failed", assertion.detail]) ++
    error.toList ++ skipped.toList)

/-- A report can be read if its texts can. -/
theorem valid_write_junit {suite : String} {duration_seconds : ℚ} {assertions : List Assertion}
    {error skipped : Option String} {report : Testsuite}
    (h : write_junit suite duration_seconds assertions error skipped = some report) :
    (suiteElement report).valid = true ↔
      ∀ text ∈ texts suite assertions error skipped, Legible text := by
  obtain ⟨cases, hcases, rfl⟩ := Option.map_eq_some_iff.mp h
  have hprefix : Legible "ptlab." := by decide
  have hscenario : Legible "scenario" := by decide
  have hassertion : ∀ assertion : Assertion,
      (∀ text ∈ caseTexts (assertionCase suite assertion), Legible text) ↔
        Legible suite ∧ ∀ text ∈ assertion.name ::
          (if assertion.passed then []
           else [assertion.message.getD "assertion failed", assertion.detail]), Legible text := by
    intro assertion
    unfold caseTexts assertionCase
    rw [List.forall_mem_cons, legible_append, and_iff_right hprefix]
    refine and_congr_right fun _ => ?_
    cases assertion.passed <;> exact Iff.rfl
  have herror : (∀ c ∈ cases, ∀ text ∈ caseTexts c, Legible text) ↔
      ∀ text ∈ error.toList, Legible suite ∧ Legible text := by
    cases error with
    | none =>
        injection hcases with hcases
        subst hcases
        exact iff_of_true (fun _ h => absurd h List.not_mem_nil) fun _ h => absurd h List.not_mem_nil
    | some text =>
        obtain ⟨reason, hreason, rfl⟩ := Option.map_eq_some_iff.mp hcases
        simp only [caseTexts, verdictTexts, Option.toList_some, List.forall_mem_cons,
          List.not_mem_nil, false_implies, implies_true, and_true,
          legible_append, hprefix, hscenario, true_and]
        exact and_congr_right fun _ => and_iff_right_of_imp (legible_firstLine hreason)
  have hskipped : (∀ c ∈ skippedCases suite skipped, ∀ text ∈ caseTexts c, Legible text) ↔
      ∀ text ∈ skipped.toList, Legible suite ∧ Legible text := by
    cases skipped with
    | none => exact iff_of_true (fun _ h => absurd h List.not_mem_nil) fun _ h => absurd h List.not_mem_nil
    | some text =>
        simp only [skippedCases, caseTexts, verdictTexts, Option.toList_some, List.forall_mem_cons,
          List.not_mem_nil, false_implies, implies_true, and_true, legible_append, hprefix, hscenario,
          true_and]
  rw [valid_suiteElement]
  dsimp only
  unfold texts
  rw [List.forall_mem_cons, List.forall_mem_append, List.forall_mem_append, List.forall_mem_append,
    List.forall_mem_append, herror, hskipped, List.forall_mem_map]
  refine and_congr_right fun hsuite => ?_
  simp only [hassertion, hsuite, true_and, List.forall_mem_flatMap]

/-- A reader finds the report, or cannot read the file. -/
theorem readReport_junit {suite : String} {duration_seconds : ℚ} {assertions : List Assertion}
    {error skipped : Option String} {report : Testsuite}
    (h : write_junit suite duration_seconds assertions error skipped = some report) :
    readReport (junit report) =
      if ∀ text ∈ texts suite assertions error skipped, Legible text then some (shownReport report)
      else none := by
  unfold readReport junit
  rw [read_indented Control.isSpace (content_suiteElement report)]
  simp only [valid_write_junit h]
  split_ifs
  · exact report?_suiteElement report
  · rfl

/-- Carriage returns are lost, and nothing else. -/
theorem shown_eq_self {text : String} : shown text = text ↔ '\r' ∉ text.toList := by
  unfold shown normalized
  rw [← Lines.universal_eq_self (by decide : '\r' ≠ '\n')]
  constructor
  · intro h
    rw [← String.toList_ofList (l := Lines.universal _ _ _ _), h]
  · intro h
    rw [h, String.ofList_toList]

/-- What stands between the tags of a verdict. -/
def between : Verdict → List String
  | .passed => []
  | .failure _ text => [text]
  | .error _ text => [text]
  | .skipped _ => []

theorem shownVerdict_eq_self (verdict : Verdict) :
    shownVerdict verdict = verdict ↔ ∀ text ∈ between verdict, '\r' ∉ text.toList := by
  have hnone : ∀ text ∈ ([] : List String), '\r' ∉ text.toList := fun _ h => absurd h List.not_mem_nil
  cases verdict with
  | passed => exact iff_of_true rfl hnone
  | failure reason text =>
      rw [shownVerdict, Verdict.failure.injEq, eq_self, true_and, shown_eq_self, between,
        List.forall_mem_singleton]
  | error reason text =>
      rw [shownVerdict, Verdict.error.injEq, eq_self, true_and, shown_eq_self, between,
        List.forall_mem_singleton]
  | skipped reason => exact iff_of_true rfl hnone

theorem shown_counts (p : Verdict → Bool) (hp : ∀ verdict, p (shownVerdict verdict) = p verdict)
    (report : Testsuite) :
    (shownReport report).cases.countP (fun c => p c.verdict) =
      report.cases.countP fun c => p c.verdict := by
  unfold shownReport
  rw [List.countP_map]
  exact List.countP_congr fun c _ => by rw [Function.comp_apply, shownCase, hp]

/-- The verdicts a reader finds are those of the run if no carriage return is in them. -/
theorem verdicts_shown {suite : String} {duration_seconds : ℚ} {assertions : List Assertion}
    {error skipped : Option String} {report : Testsuite}
    (h : write_junit suite duration_seconds assertions error skipped = some report) :
    (shownReport report).cases.map (·.verdict) = report.cases.map (·.verdict) ↔
      (∀ assertion ∈ assertions, assertion.passed = false → '\r' ∉ assertion.detail.toList) ∧
        ∀ text ∈ error, '\r' ∉ text.toList := by
  have hverdicts : (shownReport report).cases.map (·.verdict) =
      report.cases.map fun c => shownVerdict c.verdict := by
    unfold shownReport
    rw [List.map_map]
    rfl
  rw [hverdicts, List.map_inj_left]
  simp only [shownVerdict_eq_self]
  obtain ⟨cases, hcases, rfl⟩ := Option.map_eq_some_iff.mp h
  rw [List.forall_mem_append, List.forall_mem_append, List.forall_mem_map]
  have hassertion : ∀ assertion : Assertion,
      (∀ text ∈ between (assertionCase suite assertion).verdict, '\r' ∉ text.toList) ↔
        (assertion.passed = false → '\r' ∉ assertion.detail.toList) := by
    intro assertion
    unfold assertionCase
    cases assertion.passed
    · exact List.forall_mem_singleton.trans (imp_iff_right rfl).symm
    · exact iff_of_true (fun _ h => absurd h List.not_mem_nil) fun h => absurd h (by decide)
  have herror : (∀ c ∈ cases, ∀ text ∈ between c.verdict, '\r' ∉ text.toList) ↔
      ∀ text ∈ error, '\r' ∉ text.toList := by
    cases error with
    | none =>
        injection hcases with hcases
        subst hcases
        exact iff_of_true (fun _ h => absurd h List.not_mem_nil) fun _ h => absurd h (by simp)
    | some text =>
        obtain ⟨reason, -, rfl⟩ := Option.map_eq_some_iff.mp hcases
        rw [List.forall_mem_singleton]
        exact List.forall_mem_singleton.trans (by simp)
  have hskipped : ∀ c ∈ skippedCases suite skipped, ∀ text ∈ between c.verdict,
      '\r' ∉ text.toList := by
    cases skipped with
    | none => exact fun _ h => absurd h List.not_mem_nil
    | some text => exact List.forall_mem_singleton.mpr fun _ h => absurd h List.not_mem_nil
  rw [herror, and_iff_left hskipped]
  exact and_congr_left fun _ => forall₂_congr fun assertion _ => hassertion assertion

/-- **What a reader finds in the file of a run**: the report, if all its texts are legible, and
otherwise nothing. The counts it finds are those of the cases it finds, and the verdicts are the
ones of the run if there is no carriage return in the details and the error. -/
theorem junit_file {suite : String} {duration_seconds : ℚ} {assertions : List Assertion}
    {error skipped : Option String} {report : Testsuite}
    (h : write_junit suite duration_seconds assertions error skipped = some report) :
    readReport (junit report) =
        (if ∀ text ∈ texts suite assertions error skipped, Legible text then
          some (shownReport report) else none) ∧
      (shownReport report).tests = toString (shownReport report).cases.length ∧
      (shownReport report).failures =
        toString ((shownReport report).cases.countP (·.verdict.isFailure)) ∧
      (shownReport report).errors =
        toString ((shownReport report).cases.countP (·.verdict.isError)) ∧
      (shownReport report).skipped =
        toString ((shownReport report).cases.countP (·.verdict.isSkipped)) ∧
      ((shownReport report).cases.map (·.verdict) = report.cases.map (·.verdict) ↔
        (∀ assertion ∈ assertions, assertion.passed = false → '\r' ∉ assertion.detail.toList) ∧
          ∀ text ∈ error, '\r' ∉ text.toList) := by
  obtain ⟨htests, hfailures, herrors, hskipped⟩ := write_junit_counts h
  have hfailure := shown_counts Verdict.isFailure (by rintro (_ | _ | _ | _) <;> rfl) report
  have herror := shown_counts Verdict.isError (by rintro (_ | _ | _ | _) <;> rfl) report
  have hskip := shown_counts Verdict.isSkipped (by rintro (_ | _ | _ | _) <;> rfl) report
  have hlength : (shownReport report).cases.length = report.cases.length := List.length_map _
  refine ⟨readReport_junit h, ?_, ?_, ?_, ?_, ?_⟩
  · rw [hlength, ← htests]
    rfl
  · rw [hfailure, ← hfailures]
    rfl
  · rw [herror, ← herrors]
    rfl
  · rw [hskip, ← hskipped]
    rfl
  · exact verdicts_shown h

/-- The details of a failure lose a carriage return; nothing can be read once an error has a
character that is none of XML's. -/
theorem junit_file_texts :
    (∃ report, write_junit "gatt" 0 [⟨"echo", false, "'a'", "'b'", "a\r\nb", 0, none⟩] none none =
        some report ∧ readReport (junit report) = some (shownReport report) ∧
      (shownReport report).failures = "1" ∧
      (shownReport report).cases.map (·.verdict) = [.failure "assertion failed" "a\nb"]) ∧
    ∃ report, write_junit "gatt" 0 [] (some "\x1b[31mfailed") none = some report ∧
      readReport (junit report) = none := by
  refine ⟨⟨_, rfl, ?_⟩, ⟨_, rfl, ?_⟩⟩
  · obtain ⟨hread, -, hfailures, -⟩ :=
      junit_file (rfl : write_junit "gatt" 0 [⟨"echo", false, "'a'", "'b'", "a\r\nb", 0, none⟩]
        none none = some _)
    exact ⟨hread.trans (if_pos (by decide)), hfailures.trans (by decide), by decide⟩
  · obtain ⟨hread, -⟩ :=
      junit_file (rfl : write_junit "gatt" 0 [] (some "\x1b[31mfailed") none = some _)
    exact hread.trans (if_neg (by decide))

end Ptlab.Junit
