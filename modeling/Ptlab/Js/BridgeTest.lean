/-
The two verdicts of the bridge regression: the exit status of `bridge-test.mjs`, and
what `_external_regression` (`src/ptlab/scenarios.py`) reads off its output.

Every check is a line on one of the two outputs, and `_external_regression` makes an
assertion of every line that looks like one. The details of a failed check may hold
anything, line feeds included, but the line they stand in begins with `FAIL:`
(`external_records_iff`). The exit status is another matter: the expression in the
last line of the script is zero on both of its branches.
-/
import Mathlib.Data.Bool.AllAny
import Ptlab.Control.Client
import Ptlab.Lib.Lines
import Ptlab.Scenario

set_option autoImplicit false

open Ptlab.Artifacts Ptlab.Control Ptlab.Scenario

namespace Ptlab.Js.BridgeTest

/-! ## `bridge-test.mjs` -/

/-- The arguments of one call of `check`. The script names its checks in one line. -/
structure CheckCall where
  ok : Bool
  what : String
  detail : String
  single_line : ∀ c ∈ what.toList, isLineBoundary c = false

/-- The script at work: its counters, and what it has logged line by line. -/
structure Script where
  failures : ℕ
  checks : ℕ
  stdout : List String
  stderr : List String

/-- `check`. -/
def Script.check (s : Script) (call : CheckCall) : Script :=
  if !call.ok then
    { s with
      checks := s.checks + 1
      failures := s.failures + 1
      stderr := s.stderr ++ ["FAIL: " ++ call.what ++ " " ++ call.detail] }
  else { s with checks := s.checks + 1, stdout := s.stdout ++ ["ok:   " ++ call.what] }

/-- What `console.log` makes of some lines. -/
def printed (lines : List String) : List Char :=
  (lines.map String.toList).flatMap (· ++ [LINE_FEED])

/-- A process that has ended. -/
structure CompletedProcess where
  returncode : ℕ
  stdout : List Char
  stderr : List Char

/-- `failures === 0 ? 1 * (failures > 0) : 0`. -/
def exitStatus (failures : ℕ) : ℕ := if failures = 0 then 1 * (if failures > 0 then 1 else 0) else 0

/-- The script up to its last line, with these checks made on the way. -/
def Script.run (port : ℕ) (calls : List CheckCall) : Script :=
  calls.foldl Script.check
    ⟨0, 0, ["connected to GATT bridge at 127.0.0.1:" ++ toString port], []⟩

/-- The script. -/
def bridgeTest (port : ℕ) (calls : List CheckCall) : CompletedProcess :=
  let s := Script.run port calls
  { returncode := exitStatus s.failures
    stdout := printed (s.stdout ++
      ["\n" ++ toString s.checks ++ " checks, " ++ toString s.failures ++ " failures"])
    stderr := printed s.stderr }

/-! ## `_external_regression` -/

/-- The text of an output, as `run_command` has it (`text=True`). -/
def textOf (output : List Char) : List Char := Lines.universal RETURN LINE_FEED false output

/-- `text.splitlines()`, of a text without carriage returns. -/
def splitlines (text : List Char) : List String :=
  (Lines.split isLineBoundary [] text).map String.ofList

def startswith (text start : String) : Bool := start.toList.isPrefixOf text.toList

/-- What a line of the output is checked as. -/
def parsedCheck (line : String) : Option CheckArgs :=
  let stripped := strip line
  if startswith stripped "ok:" then
    some ⟨true, strip (String.ofList (stripped.toList.drop 3)), "None", "None", ""⟩
  else if startswith stripped "FAIL:" then
    some ⟨false, strip (String.ofList (stripped.toList.drop 5)), "None", "None", stripped⟩
  else none

/-- One check after another. -/
def checkAll : List CheckArgs → ScenarioFunction
  | [] => .returns
  | args :: rest => .check args fun _ => checkAll rest

/-- `_external_regression`, from the end of the command. -/
def _external_regression (script : String) (result : CompletedProcess) : ScenarioFunction :=
  let parsed := (splitlines (textOf result.stdout ++ LINE_FEED :: textOf result.stderr)).filterMap
    parsedCheck
  checkAll (parsed ++
    [⟨0 < parsed.length, script ++ " emitted machine-parsable checks", toString parsed.length,
        "None", ""⟩,
      ⟨result.returncode = 0, script ++ " exits successfully", toString result.returncode, "0",
        ""⟩])

/-- The assertions of the bridge regression. -/
def recorded (port : ℕ) (calls : List CheckCall) : List Assertion :=
  (_external_regression "bridge-test.mjs" (bridgeTest port calls)).behaviour.1

/-! ## What the script prints -/

/-- The lines of the checks that passed. -/
def okLines (calls : List CheckCall) : List String :=
  (calls.filter (·.ok)).map fun call => "ok:   " ++ call.what

/-- And of those that failed. -/
def failLines (calls : List CheckCall) : List String :=
  (calls.filter fun call => !call.ok).map fun call => "FAIL: " ++ call.what ++ " " ++ call.detail

theorem foldl_check (calls : List CheckCall) : ∀ s : Script,
    (calls.foldl Script.check s).failures = s.failures + calls.countP (fun call => !call.ok) ∧
      (calls.foldl Script.check s).stdout = s.stdout ++ okLines calls ∧
      (calls.foldl Script.check s).stderr = s.stderr ++ failLines calls := by
  induction calls with
  | nil => intro s; exact ⟨rfl, (List.append_nil _).symm, (List.append_nil _).symm⟩
  | cons call calls ih =>
      intro s
      obtain ⟨hfailures, hstdout, hstderr⟩ := ih (s.check call)
      rw [List.foldl_cons, hfailures, hstdout, hstderr]
      unfold Script.check okLines failLines
      rcases hok : call.ok with _ | _
      · -- a line on `stderr`, and one more failure
        refine ⟨?_, ?_, ?_⟩
        · rw [List.countP_cons_of_pos (by rw [hok]; rfl), Bool.not_false, if_pos rfl]
          dsimp only
          omega
        · rw [List.filter_cons_of_neg (by rw [hok]; exact Bool.false_ne_true)]
          rfl
        · rw [List.filter_cons_of_pos (by rw [hok]; rfl), List.map_cons, Bool.not_false, if_pos rfl]
          exact List.append_assoc ..
      · -- a line on `stdout`
        refine ⟨?_, ?_, ?_⟩
        · rw [List.countP_cons_of_neg (by rw [hok]; exact Bool.false_ne_true)]
          rfl
        · rw [List.filter_cons_of_pos hok, List.map_cons, Bool.not_true,
            if_neg Bool.false_ne_true]
          exact List.append_assoc ..
        · rw [List.filter_cons_of_neg (by rw [hok]; exact Bool.false_ne_true)]
          rfl

/-- **The exit status** says nothing. -/
theorem exitStatus_eq (failures : ℕ) : exitStatus failures = 0 := by
  unfold exitStatus
  by_cases h : failures = 0
  · rw [if_pos h, h]
    rfl
  · rw [if_neg h]

/-! ## What is read of it -/

theorem RETURN_ne : RETURN ≠ LINE_FEED := by decide

theorem isLineBoundary_RETURN : isLineBoundary RETURN = true := by decide

theorem isLineBoundary_LINE_FEED : isLineBoundary LINE_FEED = true := by decide

/-- The lines that are read of one that was logged. -/
def linesOf (line : String) : List String :=
  (Lines.readLines RETURN LINE_FEED isLineBoundary false [] (line.toList ++ [LINE_FEED])).map
    String.ofList

/-- **Both outputs are read line by line**, with an empty line between them. -/
theorem splitlines_printed (stdout stderr : List String) :
    splitlines (textOf (printed stdout) ++ LINE_FEED :: textOf (printed stderr)) =
      (stdout ++ "" :: stderr).flatMap linesOf := by
  have htext : textOf (printed stdout) ++ LINE_FEED :: textOf (printed stderr) =
      textOf (printed (stdout ++ "" :: stderr)) := by
    -- the line feed between the two outputs ends an empty line
    have hempty : LINE_FEED :: textOf (printed stderr) = textOf (printed ("" :: stderr)) := rfl
    rw [hempty]
    unfold textOf printed
    rw [List.map_append, List.flatMap_append, Lines.universal_flatMap RETURN_ne]
  rw [htext]
  unfold splitlines
  have hlines := @Lines.readLines_flatMap _ _ RETURN LINE_FEED isLineBoundary RETURN_ne
    isLineBoundary_LINE_FEED ((stdout ++ "" :: stderr).map String.toList)
  unfold Lines.readLines at hlines
  rw [show textOf (printed (stdout ++ "" :: stderr)) = Lines.universal RETURN LINE_FEED false
    (((stdout ++ "" :: stderr).map String.toList).flatMap (· ++ [LINE_FEED])) from rfl, hlines,
    List.map_flatMap, List.flatMap_map]
  rfl

theorem linesOf_single {line : String} (hline : ∀ c ∈ line.toList, isLineBoundary c = false) :
    linesOf line = [line] := by
  unfold linesOf
  rw [Lines.readLines_single isLineBoundary_RETURN RETURN_ne isLineBoundary_LINE_FEED hline,
    List.map_singleton, String.ofList_toList]

/-- A number is written in digits. -/
theorem toList_toString (n : ℕ) : ∃ d ds, (toString n).toList = d :: ds ∧
    d.isDigit = true ∧ ∀ c ∈ ds, c.isDigit = true := by
  have hdigit : ∀ c ∈ Nat.toDigits 10 n, c.isDigit = true := fun c hc =>
    Nat.isDigit_of_mem_toDigits (by decide) (by decide) hc
  rcases hdigits : Nat.toDigits 10 n with _ | ⟨d, ds⟩
  · exact absurd hdigits Nat.toDigits_ne_nil
  · rw [hdigits, List.forall_mem_cons] at hdigit
    refine ⟨d, ds, ?_, hdigit⟩
    rw [Nat.toString_eq_ofList_toDigits, hdigits, String.toList_ofList]

theorem isDigit_bounds {c : Char} (h : c.isDigit = true) : 48 ≤ c.val.toNat ∧ c.val.toNat ≤ 57 := by
  unfold Char.isDigit at h
  simp only [Bool.and_eq_true, decide_eq_true_eq] at h
  exact ⟨UInt32.le_iff_toNat_le.mp h.1, UInt32.le_iff_toNat_le.mp h.2⟩

theorem isLineBoundary_digit {c : Char} (h : c.isDigit = true) : isLineBoundary c = false := by
  obtain ⟨hlow, hhigh⟩ := isDigit_bounds h
  unfold isLineBoundary
  rw [decide_eq_false_iff_not]
  intro hmem
  simp only [List.mem_cons, List.not_mem_nil, or_false] at hmem
  rcases hmem with h | h | h | h | h | h | h | h | h | h <;> rw [h] at hlow hhigh <;>
    revert hlow hhigh <;> decide

theorem isSpace_digit {c : Char} (h : c.isDigit = true) : isSpace c = false := by
  obtain ⟨hlow, hhigh⟩ := isDigit_bounds h
  unfold isSpace
  rw [decide_eq_false_iff_not]
  intro hmem
  have hrange : ∀ v ∈ ([0x09, 0x0A, 0x0B, 0x0C, 0x0D, 0x1C, 0x1D, 0x1E, 0x1F, 0x20, 0x85, 0xA0,
      0x1680, 0x2000, 0x2001, 0x2002, 0x2003, 0x2004, 0x2005, 0x2006, 0x2007, 0x2008, 0x2009,
      0x200A, 0x2028, 0x2029, 0x202F, 0x205F, 0x3000] : List UInt32),
      v.toNat < 48 ∨ 57 < v.toNat := List.all_iff_forall_prop.mp (by decide)
  have hv := hrange c.val hmem
  omega

/-! ## What a line is checked as -/

/-- Stripping leaves the beginning of a line up to any symbol that is no space. -/
theorem toList_strip (text : String) (start : List Char) (last : Char) (rest : List Char)
    (htext : text.toList = start ++ [last] ++ rest)
    (hfirst : ∀ c ∈ (start ++ [last]).head?, isSpace c = false) (hlast : isSpace last = false) :
    (strip text).toList = start ++ [last] ++ rest.rdropWhile isSpace := by
  have hdrop : text.toList.dropWhile isSpace = start ++ [last] ++ rest := by
    rw [htext]
    cases start with
    | nil => exact List.dropWhile_cons_of_neg (by rw [hlast]; exact Bool.false_ne_true)
    | cons first start =>
        exact List.dropWhile_cons_of_neg (by rw [hfirst first rfl]; exact Bool.false_ne_true)
  have hstrip : (strip text).toList = (text.toList.dropWhile isSpace).rdropWhile isSpace :=
    String.toList_ofList
  rw [hstrip, hdrop, Lines.rdropWhile_append_of_last hlast]

/-- The line of a check that passed. -/
theorem parsedCheck_ok (what : String) :
    ∃ args, parsedCheck ("ok:   " ++ what) = some args ∧ args.condition = true := by
  have hstrip := toList_strip ("ok:   " ++ what) ['o', 'k'] ':'
    ([' ', ' ', ' '] ++ what.toList) (String.toList_append ..) (by rintro c ⟨⟩; decide)
    (by decide)
  have hstarts : startswith (strip ("ok:   " ++ what)) "ok:" = true := by
    unfold startswith
    rw [hstrip]
    rfl
  unfold parsedCheck
  exact ⟨_, if_pos hstarts, rfl⟩

/-- The first line of a check that failed. -/
theorem parsedCheck_fail (more : List Char) :
    ∃ args, parsedCheck (String.ofList ("FAIL:".toList ++ more)) = some args ∧
      args.condition = false := by
  have hstrip := toList_strip (String.ofList ("FAIL:".toList ++ more))
    ['F', 'A', 'I', 'L'] ':' more String.toList_ofList (by rintro c ⟨⟩; decide)
    (by decide)
  have hok : ¬ startswith (strip (String.ofList ("FAIL:".toList ++ more))) "ok:" = true := by
    unfold startswith
    rw [hstrip]
    exact Bool.false_ne_true
  have hstarts : startswith (strip (String.ofList ("FAIL:".toList ++ more))) "FAIL:" = true := by
    unfold startswith
    rw [hstrip]
    rfl
  unfold parsedCheck
  exact ⟨_, (if_neg hok).trans (if_pos hstarts), rfl⟩

/-- Other lines of the script are checked as nothing. -/
theorem parsedCheck_other {line : String} (first : Char) {rest : List Char}
    (hline : line.toList = first :: rest) (hspace : isSpace first = false) (ho : first ≠ 'o')
    (hF : first ≠ 'F') : parsedCheck line = none := by
  have hstrip := toList_strip line [] first rest hline
    (by rintro c ⟨⟩; exact hspace) hspace
  have hstarts : ∀ start : List Char, ∀ c, c ≠ first →
      (c :: start).isPrefixOf (strip line).toList = false := by
    intro start c hc
    rw [hstrip, ← Bool.not_eq_true, List.isPrefixOf_iff_prefix]
    rintro ⟨more, hmore⟩
    exact hc (List.cons.inj hmore).1
  unfold parsedCheck startswith
  dsimp only
  rw [if_neg, if_neg]
  · rw [show "FAIL:".toList = 'F' :: ['A', 'I', 'L', ':'] from rfl, hstarts _ _ hF.symm]
    exact Bool.false_ne_true
  · rw [show "ok:".toList = 'o' :: ['k', ':'] from rfl, hstarts _ _ ho.symm]
    exact Bool.false_ne_true

/-! ## The verdict on the output -/

theorem behaviour_checkAll (checks : List CheckArgs) :
    (checkAll checks).behaviour = (checks.map CheckArgs.assertion, .ok ()) := by
  induction checks with
  | nil => rfl
  | cons args checks ih =>
      unfold checkAll ScenarioFunction.behaviour
      rw [ih]
      rfl

/-- What a line that was logged is checked as. -/
def checksOf (line : String) : List CheckArgs := (linesOf line).filterMap parsedCheck

theorem checksOf_single {line : String} (hline : ∀ c ∈ line.toList, isLineBoundary c = false) :
    checksOf line = (parsedCheck line).toList := by
  unfold checksOf
  rw [linesOf_single hline]
  rcases hparsed : parsedCheck line with _ | args
  · exact List.filterMap_cons_none hparsed
  · exact List.filterMap_cons_some hparsed

/-- The first line says where the bridge is. -/
theorem checksOf_connected (port : ℕ) :
    checksOf ("connected to GATT bridge at 127.0.0.1:" ++ toString port) = [] := by
  obtain ⟨d, ds, hport, hd, hds⟩ := toList_toString port
  rw [checksOf_single, parsedCheck_other 'c' (by rw [String.toList_append]; rfl)
    (by decide) (by decide) (by decide)]
  · rfl
  · intro c hc
    rw [String.toList_append, hport, List.mem_append, List.mem_cons] at hc
    rcases hc with hc | rfl | hc
    · revert c
      exact List.all_iff_forall_prop.mp (by decide)
    · exact isLineBoundary_digit hd
    · exact isLineBoundary_digit (hds c hc)

/-- The last two say how many checks there were. -/
theorem checksOf_summary (checks failures : ℕ) :
    checksOf ("\n" ++ toString checks ++ " checks, " ++ toString failures ++ " failures") = [] := by
  obtain ⟨d, ds, hchecks, hd, hds⟩ := toList_toString checks
  obtain ⟨e, es, hfailures, he, hes⟩ := toList_toString failures
  let line := toString checks ++ " checks, " ++ toString failures ++ " failures"
  have hline : line.toList = d :: (ds ++ (" checks, ".toList ++ (e :: (es ++ " failures".toList)))) := by
    simp only [line, String.toList_append, hchecks, hfailures, List.append_assoc, List.cons_append]
  have hplain : ∀ c ∈ line.toList, isLineBoundary c = false := by
    rw [hline]
    intro c hc
    simp only [List.mem_cons, List.mem_append] at hc
    rcases hc with rfl | hc | hc | rfl | hc | hc
    · exact isLineBoundary_digit hd
    · exact isLineBoundary_digit (hds c hc)
    · revert c
      exact List.all_iff_forall_prop.mp (by decide)
    · exact isLineBoundary_digit he
    · exact isLineBoundary_digit (hes c hc)
    · revert c
      exact List.all_iff_forall_prop.mp (by decide)
  -- the text begins with a line feed, so it is read as an empty line and the rest
  have hblank : linesOf ("\n" ++ toString checks ++ " checks, " ++ toString failures ++ " failures") =
      ["", line] := by
    have htext : ("\n" ++ toString checks ++ " checks, " ++ toString failures ++ " failures").toList =
        LINE_FEED :: line.toList := by
      simp only [line, String.toList_append, List.append_assoc]
      rfl
    have happend := @Lines.readLines_append _ _ RETURN LINE_FEED isLineBoundary RETURN_ne
      isLineBoundary_LINE_FEED (line.toList ++ [LINE_FEED]) [] false [] fun _ => rfl
    have hrest := linesOf_single hplain
    unfold linesOf at hrest ⊢
    rw [htext, List.cons_append, ← List.nil_append (LINE_FEED :: _), happend, List.map_append,
      hrest]
    rfl
  have hdigit : ∀ c : Char, c.isDigit = false → d ≠ c := by
    rintro c hc rfl
    rw [hd] at hc
    cases hc
  unfold checksOf
  rw [hblank, List.filterMap_cons_none rfl, List.filterMap_cons_none
    (parsedCheck_other d hline (isSpace_digit hd) (hdigit 'o' rfl) (hdigit 'F' rfl))]
  rfl

theorem checksOf_ok (call : CheckCall) :
    ∃ args, checksOf ("ok:   " ++ call.what) = [args] ∧ args.condition = true := by
  obtain ⟨args, hparsed, hcondition⟩ := parsedCheck_ok call.what
  refine ⟨args, ?_, hcondition⟩
  rw [checksOf_single, hparsed]
  · rfl
  · intro c hc
    rw [String.toList_append, List.mem_append] at hc
    rcases hc with hc | hc
    · revert c
      exact List.all_iff_forall_prop.mp (by decide)
    · exact call.single_line c hc

/-- Whatever else its details make of it. -/
theorem checksOf_fail (call : CheckCall) :
    ∃ args ∈ checksOf ("FAIL: " ++ call.what ++ " " ++ call.detail), args.condition = false := by
  have htext : ("FAIL: " ++ call.what ++ " " ++ call.detail).toList ++ [LINE_FEED] =
      "FAIL:".toList ++ (' ' :: (call.what ++ " " ++ call.detail).toList ++ [LINE_FEED]) := by
    simp only [String.toList_append, List.append_assoc, List.cons_append]
    rfl
  obtain ⟨more, lines, hlines⟩ := @Lines.readLines_first _ _ RETURN LINE_FEED isLineBoundary
    isLineBoundary_RETURN "FAIL:".toList (List.all_iff_forall_prop.mp (by decide)) (by decide)
    (' ' :: (call.what ++ " " ++ call.detail).toList ++ [LINE_FEED])
  obtain ⟨args, hparsed, hcondition⟩ := parsedCheck_fail more
  refine ⟨args, ?_, hcondition⟩
  unfold checksOf linesOf
  rw [htext, hlines, List.map_cons, List.filterMap_cons_some hparsed]
  exact List.mem_cons_self ..

/-- The checks that are parsed from the output. -/
def parsedOf (calls : List CheckCall) : List CheckArgs :=
  (okLines calls).flatMap checksOf ++ (failLines calls).flatMap checksOf

/-- **The assertions** are those of the lines, and two more. -/
theorem recorded_eq (port : ℕ) (calls : List CheckCall) :
    recorded port calls = (parsedOf calls ++
      ([⟨0 < (parsedOf calls).length, "bridge-test.mjs emitted machine-parsable checks",
          toString (parsedOf calls).length, "None", ""⟩,
        ⟨true, "bridge-test.mjs exits successfully", "0", "0", ""⟩] : List CheckArgs)).map
      CheckArgs.assertion := by
  obtain ⟨-, hstdout, hstderr⟩ := foldl_check calls
    ⟨0, 0, ["connected to GATT bridge at 127.0.0.1:" ++ toString port], []⟩
  have hparsed : (splitlines (textOf (bridgeTest port calls).stdout ++
      LINE_FEED :: textOf (bridgeTest port calls).stderr)).filterMap parsedCheck =
        parsedOf calls := by
    unfold bridgeTest Script.run
    dsimp only
    rw [splitlines_printed, hstdout, hstderr, List.filterMap_flatMap]
    -- only the lines of the checks are left: not the first, the blank one, the summary
    show List.flatMap checksOf _ = _
    have hempty : checksOf "" = [] := rfl
    simp only [List.flatMap_append, List.flatMap_cons, List.flatMap_nil, List.nil_append,
      List.append_nil, checksOf_connected, checksOf_summary, hempty]
    rfl
  unfold recorded _external_regression
  dsimp only
  rw [hparsed, behaviour_checkAll]
  have hreturncode : (bridgeTest port calls).returncode = 0 := exitStatus_eq _
  rw [hreturncode]
  rfl

/-- **The other verdict is right.** `_external_regression` records a failed check exactly
if a check of the script failed, or there was none. -/
theorem external_records_iff (port : ℕ) (calls : List CheckCall) :
    (∃ assertion ∈ recorded port calls, assertion.passed = false) ↔
      calls = [] ∨ ∃ call ∈ calls, call.ok = false := by
  have hrecorded : (∃ assertion ∈ recorded port calls, assertion.passed = false) ↔
      (∃ args ∈ parsedOf calls, args.condition = false) ∨ parsedOf calls = [] := by
    rw [recorded_eq]
    simp only [List.mem_map, List.mem_append, List.mem_cons, List.not_mem_nil, or_false]
    constructor
    · rintro ⟨_, ⟨args, hargs | rfl | rfl, rfl⟩, hfailed⟩
      · exact .inl ⟨args, hargs, hfailed⟩
      · refine .inr (List.eq_nil_iff_length_eq_zero.mpr ?_)
        have hlength := of_decide_eq_false hfailed
        omega
      · cases hfailed
    · rintro (⟨args, hargs, hfailed⟩ | hnil)
      · exact ⟨_, ⟨args, .inl hargs, rfl⟩, hfailed⟩
      · refine ⟨_, ⟨_, .inr (.inl rfl), rfl⟩, ?_⟩
        rw [hnil]
        rfl
  rw [hrecorded]
  constructor
  · intro h
    by_cases hfailed : ∃ call ∈ calls, call.ok = false
    · exact .inr hfailed
    · -- every check passed, so the parsed ones are those of the first output
      left
      have hok : ∀ call ∈ calls, call.ok = true := fun call hcall => by
        by_contra hnot
        exact hfailed ⟨call, hcall, Bool.eq_false_of_not_eq_true hnot⟩
      have hparsed : parsedOf calls =
          calls.flatMap fun call => checksOf ("ok:   " ++ call.what) := by
        unfold parsedOf okLines failLines
        rw [List.filter_eq_self.mpr hok, List.filter_eq_nil_iff.mpr, List.flatMap_map]
        · exact List.append_nil _
        · intro call hcall
          rw [hok call hcall]
          exact Bool.false_ne_true
      rw [hparsed] at h
      rcases h with ⟨args, hargs, hcondition⟩ | hnil
      · obtain ⟨call, -, hmem⟩ := List.mem_flatMap.mp hargs
        obtain ⟨args', hchecks, hcondition'⟩ := checksOf_ok call
        rw [hchecks, List.mem_singleton] at hmem
        rw [hmem, hcondition'] at hcondition
        cases hcondition
      · rw [List.flatMap_eq_nil_iff] at hnil
        refine List.eq_nil_iff_forall_not_mem.mpr fun call hcall => ?_
        obtain ⟨args', hchecks, -⟩ := checksOf_ok call
        have hnone := hnil call hcall
        rw [hchecks] at hnone
        cases hnone
  · rintro (rfl | ⟨call, hcall, hfailed⟩)
    · exact .inr rfl
    · obtain ⟨args, hargs, hcondition⟩ := checksOf_fail call
      refine .inl ⟨args, List.mem_append_right _ (List.mem_flatMap.mpr ⟨_, ?_, hargs⟩), hcondition⟩
      refine List.mem_map_of_mem (List.mem_filter.mpr ⟨hcall, ?_⟩)
      rw [hfailed]
      rfl

/-! ## The contract -/

/-- Both consumers of the script come to the verdict of its checks. -/
structure ReportsFailures (port : ℕ) (calls : List CheckCall) : Prop where
  exit_status : (bridgeTest port calls).returncode ≠ 0 ↔ ∃ call ∈ calls, call.ok = false
  external : (∃ assertion ∈ recorded port calls, assertion.passed = false) ↔
    ∃ call ∈ calls, call.ok = false

/-- **The bridge regression reports its failures** exactly if it has none. -/
theorem reports_failures_iff (port : ℕ) (calls : List CheckCall) :
    ReportsFailures port calls ↔ calls ≠ [] ∧ ∀ call ∈ calls, call.ok = true := by
  have hreturncode : (bridgeTest port calls).returncode = 0 := exitStatus_eq _
  constructor
  · intro h
    have hok : ¬ ∃ call ∈ calls, call.ok = false := by
      rw [← h.exit_status, hreturncode]
      exact fun hne => hne rfl
    refine ⟨?_, fun call hcall => ?_⟩
    · -- without a check nothing is printed, and the run counts as one that reports
      rintro rfl
      exact hok (h.external.mp ((external_records_iff port []).mpr (.inl rfl)))
    · by_contra hnot
      exact hok ⟨call, hcall, Bool.eq_false_of_not_eq_true hnot⟩
  · rintro ⟨hne, hok⟩
    have hnone : ¬ ∃ call ∈ calls, call.ok = false := by
      rintro ⟨call, hcall, hfailed⟩
      rw [hok call hcall] at hfailed
      cases hfailed
    constructor
    · rw [hreturncode]
      exact ⟨fun h => absurd rfl h, fun h => absurd h hnone⟩
    · rw [external_records_iff]
      exact or_iff_right hne

/-- **A failure goes unreported.** The battery is out of range: `_external_regression`
records it, and the script exits with zero all the same. -/
theorem failed_check_exits_zero :
    let calls : List CheckCall :=
      [⟨false, "battery read", "-> 101%", List.all_iff_forall_prop.mp (by decide)⟩]
    (∃ call ∈ calls, call.ok = false) ∧ (bridgeTest 18632 calls).returncode = 0 ∧
      (recorded 18632 calls).map (fun assertion => (assertion.name, assertion.passed)) =
        [("battery read -> 101%", false), ("bridge-test.mjs emitted machine-parsable checks", true),
          ("bridge-test.mjs exits successfully", true)] ∧
      ¬ ReportsFailures 18632 calls := by
  intro calls
  have hfailed : ∃ call ∈ calls, call.ok = false := ⟨_, List.mem_singleton_self _, rfl⟩
  refine ⟨hfailed, rfl, by decide +kernel, fun h => ?_⟩
  exact h.exit_status.mpr hfailed rfl

end Ptlab.Js.BridgeTest
