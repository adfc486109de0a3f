/-
`run_scenario` (`src/ptlab/scenario.py`) and its three verdicts: the exit code,
the status and counts of the result, and the totals of the JUnit report.

A scenario function is the tree of what it does with its context: at each call
of `check` or `require` it goes on depending on how the call ended, so a handler
around a `require` is a branch like any other. What surrounds it -- starting and
stopping the simulator, closing the context, copying files, writing the result and
emitting events -- is the environment, where each step returns or raises. A step that
raises in an `except` clause or in front of the `try` is no exception to this:
`run_scenario` leaves with what it raised. An interrupt is one way for a step to raise;
between two steps there is none.
-/
import Ptlab.Artifacts
import Ptlab.Lib.Effect

set_option autoImplicit false

open Effect Ptlab.Artifacts

namespace Ptlab.Scenario

/-! ## Scenario functions -/

/-- What is raised: the two classes `run_scenario` knows, and any other by name
and text. -/
inductive PyError where
  | ScenarioTimeout (message : String)
  | ScenarioSkip (message : String)
  | other (type message : String)
  deriving DecidableEq, Repr

/-- The arguments of `check` and `require`. -/
structure CheckArgs where
  condition : Bool
  name : String
  actual : String
  expected : String
  detail : String
  deriving DecidableEq, Repr

/-- What a scenario function does. -/
inductive ScenarioFunction where
  | returns
  | raises (error : PyError)
  | check (args : CheckArgs) (next : Bool → ScenarioFunction)
  | require (args : CheckArgs) (next : Except PyError Unit → ScenarioFunction)

/-- The assertion `check` records. -/
def CheckArgs.assertion (args : CheckArgs) : Assertion where
  name := args.name
  passed := args.condition
  actual := args.actual
  expected := args.expected
  detail := args.detail
  duration_seconds := 0
  message :=
    if args.condition then none
    else some (if args.detail ≠ "" then args.detail
      else s!"expected {args.expected}, got {args.actual}")

/-! ## The run -/

inductive Status where
  | running
  | passed
  | failed
  | skipped
  | timed_out
  deriving DecidableEq, Repr

/-- The result of a run: the entries that change while it runs. -/
structure RunResult where
  status : Status
  finished_at : Option ℚ
  duration_seconds : Option ℚ
  check_count : ℕ
  failure_count : ℕ
  error : Option String
  deriving DecidableEq, Repr

/-- A run under way. `assertions` are those of the context, once there is one;
`resultFile` and `junitFile` are what is on disk. -/
structure Run where
  result : RunResult
  assertions : Option (List Assertion)
  skipped : Option String
  resultFile : Option RunResult
  junitFile : Option Testsuite
  deriving DecidableEq, Repr

structure ScenarioDefinition where
  name : String
  function : ScenarioFunction
  timeout : ℚ

/-- The places where `run_scenario` emits an event. `check` and `require` emit as well: that
an event of theirs cannot be written is one way for a scenario function to go on, as
`check args fun _ => raises error`. -/
inductive Emission where
  | run_started
  | simulator_started
  /-- `scenario.skipped` or `scenario.failure`. -/
  | exception
  | simulator_stopped
  | run_finished
  deriving DecidableEq, Repr

/-- How a result is written: `orjson.dumps` comes first, and `write_bytes` opens the file,
which empties it. -/
inductive Saved where
  | complete
  /-- `orjson.dumps` raises, or the file cannot be opened: it stays as it was. -/
  | refused (error : PyError)
  /-- The file has a part of the document. -/
  | torn (error : PyError)
  /-- The file has the document, and the call raises all the same. -/
  | late (error : PyError)
  deriving DecidableEq, Repr

/-- How the steps around a scenario function end, and what else the run reads. `first` and
`last` are the two results that are written. -/
structure Environment where
  first : Saved
  start : Except PyError Unit
  close : Except PyError Unit
  stop : Except PyError Unit
  copy : Except PyError Unit
  junit : Except PyError Unit
  last : Saved
  emit : Emission → Except PyError Unit
  finished_at : ℚ
  duration : ℚ
  /-- `"".join(traceback.format_exception(error))`. -/
  format_exception : PyError → String
  format_exception_ne : ∀ error, format_exception error ≠ ""

/-- A step that ends as the environment has it. -/
def step (outcome : Except PyError Unit) : Effect Run PyError Unit :=
  match outcome with
  | .ok () => pure ()
  | .error error => throw error

/-- `JsonResultWriter.write(result)`. -/
def JsonResultWriter.write : Saved → Effect Run PyError Unit
  | .complete => update fun r => { r with resultFile := some r.result }
  | .refused error => throw error
  | .torn error => do
    update fun r => { r with resultFile := none }
    throw error
  | .late error => do
    update fun r => { r with resultFile := some r.result }
    throw error

def ScenarioContext.check (args : CheckArgs) : Effect Run PyError Bool := do
  update fun r => { r with assertions := r.assertions.map (· ++ [args.assertion]) }
  return args.condition

def ScenarioContext.require (args : CheckArgs) : Effect Run PyError Unit := do
  if !(← check args) then
    throw (.other "AssertionError" args.name)

/-- A scenario function at work. -/
def ScenarioFunction.run : ScenarioFunction → Effect Run PyError Unit
  | .returns => pure ()
  | .raises error => throw error
  | .check args next => do
    let passed ← ScenarioContext.check args
    (next passed).run
  | .require args next => do
    let outcome ← attempt (ScenarioContext.require args)
    (next outcome).run

/-- `with scenario_deadline(seconds)`: the limit is checked before the function
runs. That it expires is one way the function may end. -/
def withDeadline (seconds : ℚ) (body : Effect Run PyError Unit) : Effect Run PyError Unit :=
  if seconds ≤ 0 then throw (.other "ValueError" "scenario timeout must be positive")
  else body

/-- `timeout or definition.timeout`. -/
def ScenarioDefinition.limit (definition : ScenarioDefinition) (timeout : Option ℚ) : ℚ :=
  match timeout with
  | some seconds => if seconds ≠ 0 then seconds else definition.timeout
  | none => definition.timeout

/-- The `try` clause. -/
def tryClause (definition : ScenarioDefinition) (timeout : Option ℚ) (env : Environment) :
    Effect Run PyError Unit := do
  step env.start
  step (env.emit .simulator_started)
  update fun r => { r with assertions := some [] }
  withDeadline (definition.limit timeout) definition.function.run
  update fun r =>
    let passed := (r.assertions.getD []).all (·.passed)
    { r with result := { r.result with status := if passed then .passed else .failed } }

/-- What the two `except` clauses make of an exception. -/
def caught (env : Environment) : PyError → Effect Run PyError Unit
  -- a skip does not look at the assertions recorded so far
  | .ScenarioSkip message => update fun r =>
    { r with
      skipped := some message
      result := { r.result with status := .skipped, error := some message } }
  | error => update fun r =>
    let status := match error with
      | .ScenarioTimeout _ => .timed_out
      | _ => .failed
    { r with
      result := { r.result with status := status, error := some (env.format_exception error) } }

/-- The two `except` clauses. -/
def exceptClauses (env : Environment) (error : PyError) : Effect Run PyError Unit := do
  caught env error
  step (env.emit .exception)

/-- `if context is not None`: the context is closed, and its assertions are counted. -/
def closeContext (env : Environment) : Option (List Assertion) → Effect Run PyError Unit
  -- the simulator did not start, or its event was not written
  | none => pure ()
  | some assertions => do
    step env.close
    update fun r =>
      { r with result := { r.result with
        check_count := assertions.length
        failure_count := assertions.countP fun assertion => !assertion.passed } }

/-- The `finally` clause up to `simulator.stop()`. -/
def closeClause (env : Environment) : Effect Run PyError Unit := do
  let assertions ← read Run.assertions
  closeContext env assertions
  step env.stop

/-- The call of `write_junit`. -/
def reportRun (name : String) (env : Environment) (r : Run) : Effect Run PyError Unit :=
  match write_junit name env.duration (r.assertions.getD [])
      (if r.result.status ∈ [.failed, .timed_out] then r.result.error else none) r.skipped with
  | none => throw (.other "IndexError" "list index out of range")
  | some report => update fun r => { r with junitFile := some report }

/-- The `finally` clause between its two events. -/
def reportClause (name : String) (env : Environment) : Effect Run PyError Unit := do
  step env.copy
  update fun r =>
    { r with result := { r.result with
      duration_seconds := some env.duration, finished_at := some env.finished_at } }
  let r ← read id
  step env.junit
  reportRun name env r
  JsonResultWriter.write env.last

/-- The `finally` clause. -/
def finallyClause (definition : ScenarioDefinition) (env : Environment) :
    Effect Run PyError Unit := do
  closeClause env
  step (env.emit .simulator_stopped)
  reportClause definition.name env
  step (env.emit .run_finished)

/-- `run_scenario`: the exit code. The first result and `run.started` stand in front of the
`try`, so that the clean-up does not follow when they raise. -/
def run_scenario (definition : ScenarioDefinition) (timeout : Option ℚ) (env : Environment) :
    Effect Run PyError ℕ := do
  JsonResultWriter.write env.first
  step (env.emit .run_started)
  ensure (tryCatch (tryClause definition timeout env) (exceptClauses env))
    (finallyClause definition env)
  let result ← read Run.result
  return if result.status ∈ [.passed, .skipped] then 0 else 1

/-- A run that has not started. -/
def Run.new : Run where
  result := ⟨.running, none, none, 0, 0, none⟩
  assertions := none
  skipped := none
  resultFile := none
  junitFile := none

/-! ## What a scenario function comes to -/

/-- The assertions a function records, and how it ends. -/
def ScenarioFunction.behaviour : ScenarioFunction → List Assertion × Except PyError Unit
  | .returns => ([], .ok ())
  | .raises error => ([], .error error)
  | .check args next =>
    let (recorded, ending) := (next args.condition).behaviour
    (args.assertion :: recorded, ending)
  | .require args next =>
    let (recorded, ending) := (next (if args.condition then .ok ()
      else .error (.other "AssertionError" args.name))).behaviour
    (args.assertion :: recorded, ending)

theorem check_exec (args : CheckArgs) (r : Run) :
    (ScenarioContext.check args).exec r =
      (.ok args.condition, { r with assertions := r.assertions.map (· ++ [args.assertion]) }) :=
  rfl

theorem require_exec (args : CheckArgs) (r : Run) :
    (ScenarioContext.require args).exec r =
      (if args.condition then .ok () else .error (.other "AssertionError" args.name),
        { r with assertions := r.assertions.map (· ++ [args.assertion]) }) := by
  unfold ScenarioContext.require
  rw [exec_bind, check_exec]
  cases args.condition <;> rfl

/-- Recording one assertion and then others is recording them all. -/
theorem record_cons (assertions : Option (List Assertion)) (a : Assertion) (as : List Assertion) :
    (assertions.map (· ++ [a])).map (· ++ as) = assertions.map (· ++ a :: as) := by
  cases assertions with
  | none => rfl
  | some recorded => exact congrArg some (List.append_assoc recorded [a] as)

/-- **A function at work does what its behaviour says**, by induction on the
tree, whatever its handlers do. -/
theorem run_exec (function : ScenarioFunction) : ∀ r : Run,
    function.run.exec r = (function.behaviour.2,
      { r with assertions := r.assertions.map (· ++ function.behaviour.1) }) := by
  induction function with
  | returns =>
      intro r
      cases h : r.assertions <;> simp [ScenarioFunction.run, ScenarioFunction.behaviour, ← h]
  | raises error =>
      intro r
      cases h : r.assertions <;> simp [ScenarioFunction.run, ScenarioFunction.behaviour, ← h]
  | check args next ih =>
      intro r
      rw [ScenarioFunction.run, exec_bind, check_exec]
      dsimp only
      rw [ih, record_cons]
      rfl
  | require args next ih =>
      intro r
      rw [ScenarioFunction.run, exec_bind, exec_attempt, require_exec]
      dsimp only
      rw [ih, record_cons]
      rfl

/-! ## What the run makes of it -/

/-- The status a run ends with. -/
def statusOf (recorded : List Assertion) : Except PyError Unit → Status
  | .ok () => if recorded.all (·.passed) then .passed else .failed
  | .error (.ScenarioSkip _) => .skipped
  | .error (.ScenarioTimeout _) => .timed_out
  | .error (.other _ _) => .failed

/-- The error entry a run ends with. -/
def errorOf (env : Environment) : Except PyError Unit → Option String
  | .ok () => none
  | .error (.ScenarioSkip message) => some message
  | .error error => some (env.format_exception error)

def skippedOf : Except PyError Unit → Option String
  | .error (.ScenarioSkip message) => some message
  | _ => none

/-- The simulator starts, no clean-up step raises, and what is to be written is written. -/
structure Environment.Fine (env : Environment) : Prop where
  first : env.first = .complete
  start : env.start = .ok ()
  close : env.close = .ok ()
  stop : env.stop = .ok ()
  copy : env.copy = .ok ()
  junit : env.junit = .ok ()
  last : env.last = .complete
  emit : ∀ emission, env.emit emission = .ok ()

section Outcome

variable {definition : ScenarioDefinition} {timeout : Option ℚ} {env : Environment}

/-- `try` and `except` leave the status and the error that the function's
behaviour calls for. -/
theorem body_exec (henv : env.Fine) (hlimit : 0 < definition.limit timeout) :
    exec (tryCatch (tryClause definition timeout env) (exceptClauses env))
        { Run.new with resultFile := some Run.new.result } =
      (.ok (), { Run.new with
        resultFile := some Run.new.result
        assertions := some definition.function.behaviour.1
        skipped := skippedOf definition.function.behaviour.2
        result := { Run.new.result with
          status := statusOf definition.function.behaviour.1 definition.function.behaviour.2
          error := errorOf env definition.function.behaviour.2 } }) := by
  rw [exec_tryCatch, tryClause, henv.start, henv.emit, withDeadline,
    if_neg (not_le.mpr hlimit), step]
  simp only [exec_bind, exec_pure, exec_update, run_exec, Option.map_some, List.nil_append,
    exceptClauses, henv.emit, step]
  rcases definition.function.behaviour with ⟨recorded, ⟨message | message | _⟩ | ⟨⟩⟩ <;> rfl

/-- The ending is an exception other than a skip. -/
def Broken : Except PyError Unit → Bool
  | .ok () => false
  | .error (.ScenarioSkip _) => false
  | .error (.ScenarioTimeout _) => true
  | .error (.other _ _) => true

/-- The error that goes into the report is there if the ending is broken, and is
no empty text. -/
theorem reported_error (env : Environment) (recorded : List Assertion)
    (ending : Except PyError Unit) :
    let error := if statusOf recorded ending ∈ [.failed, .timed_out] then errorOf env ending
      else none
    error ≠ some "" ∧ error.isSome = Broken ending := by
  have hne : ∀ e, some (env.format_exception e) ≠ some "" := by
    intro e he
    injection he with he
    exact env.format_exception_ne e he
  rcases ending with (message | message | ⟨type, message⟩) | ⟨⟩
  · exact ⟨hne _, rfl⟩
  · exact ⟨by simp [statusOf], rfl⟩
  · exact ⟨hne _, rfl⟩
  · refine ⟨by simp [errorOf], by simp [errorOf, Broken]⟩

/-- A run that has been finalised with this report. -/
def Run.finished (definition : ScenarioDefinition) (env : Environment) (report : Testsuite) :
    Run :=
  let (recorded, ending) := definition.function.behaviour
  let result : RunResult :=
    { status := statusOf recorded ending
      finished_at := some env.finished_at
      duration_seconds := some env.duration
      check_count := recorded.length
      failure_count := recorded.countP fun assertion => !assertion.passed
      error := errorOf env ending }
  { result := result
    assertions := some recorded
    skipped := skippedOf ending
    resultFile := some result
    junitFile := some report }

/-- **The outcome.** Exit code, result and report are computed from the recorded
assertions and the ending. -/
theorem run_scenario_exec (henv : env.Fine) (hlimit : 0 < definition.limit timeout) :
    ∃ report, (run_scenario definition timeout env).exec Run.new =
        (.ok (if statusOf definition.function.behaviour.1 definition.function.behaviour.2 ∈
            [.passed, .skipped] then 0 else 1),
          Run.finished definition env report) ∧
      report.failures =
        definition.function.behaviour.1.countP (fun assertion => !assertion.passed) ∧
      report.errors = if Broken definition.function.behaviour.2 then 1 else 0 := by
  obtain ⟨hne, hsome⟩ := reported_error env definition.function.behaviour.1
    definition.function.behaviour.2
  obtain ⟨report, hreport, hfailures, herrors⟩ := write_junit_isSome definition.name env.duration
    definition.function.behaviour.1 (skippedOf definition.function.behaviour.2) hne
  rw [hsome] at herrors
  refine ⟨report, ?_, hfailures, herrors⟩
  -- with every step fine, the clean-up runs to its end and leaves the exit code alone
  rw [run_scenario, henv.first, henv.emit, exec_bind, JsonResultWriter.write, exec_update]
  dsimp only
  rw [exec_bind, step, exec_pure]
  dsimp only
  rw [exec_bind, exec_ensure, body_exec henv hlimit, finallyClause, closeClause, reportClause,
    henv.stop, henv.copy, henv.junit, henv.last, henv.emit, henv.emit]
  simp only [step, exec_bind, exec_pure, exec_update, exec_read, id, closeContext, henv.close,
    reportRun, JsonResultWriter.write, Option.getD_some, hreport]
  rfl

end Outcome

/-! ## Agreement of the verdicts -/

/-- The three verdicts agree on a function that recorded these assertions and
ended so. -/
structure VerdictsAgree (recorded : List Assertion) (ending : Except PyError Unit) (code : ℕ)
    (result : RunResult) (report : Testsuite) : Prop where
  exit_iff : code = 0 ↔ (∀ a ∈ recorded, a.passed) ∧ Broken ending = false
  exit_iff_report : code = 0 ↔ report.failures = 0 ∧ report.errors = 0
  failure_count : result.failure_count = report.failures
  failures : report.failures = recorded.countP fun a => !a.passed
  failed : (∃ a ∈ recorded, ¬ a.passed) →
    code ≠ 0 ∧ result.status ≠ .passed ∧ result.status ≠ .skipped

/-- The function skips after a check that failed. -/
def SkipsAfterFailure (function : ScenarioFunction) : Prop :=
  (∃ a ∈ function.behaviour.1, ¬ a.passed) ∧
    ∃ message, function.behaviour.2 = .error (.ScenarioSkip message)

/-- No check failed. -/
theorem failures_eq_zero (recorded : List Assertion) :
    recorded.countP (fun a => !a.passed) = 0 ↔ ∀ a ∈ recorded, a.passed := by
  rw [List.countP_eq_zero]
  simp

/-- The verdicts computed from an ending agree unless it is a skip and a check
failed. The cases are the four exit paths. -/
theorem verdictsAgree_iff {recorded : List Assertion} {ending : Except PyError Unit}
    {result : RunResult} {report : Testsuite} (hstatus : result.status = statusOf recorded ending)
    (hcount : result.failure_count = recorded.countP fun a => !a.passed)
    (hfailures : report.failures = recorded.countP fun a => !a.passed)
    (herrors : report.errors = if Broken ending then 1 else 0) :
    VerdictsAgree recorded ending
        (if statusOf recorded ending ∈ [.passed, .skipped] then 0 else 1) result report ↔
      ¬ ((∃ a ∈ recorded, ¬ a.passed) ∧ ∃ message, ending = .error (.ScenarioSkip message)) := by
  have hzero := failures_eq_zero recorded
  have hsame : result.failure_count = report.failures := hcount.trans hfailures.symm
  -- on the paths that report an error, exit code 1 is right whatever was recorded
  have hbroken : Broken ending = true → statusOf recorded ending ∉ [.passed, .skipped] →
      VerdictsAgree recorded ending 1 result report := by
    intro hb hmem
    rw [hb] at herrors
    refine ⟨by simp [hb], by simp [herrors], hsame, hfailures, fun _ => ⟨one_ne_zero, ?_, ?_⟩⟩
    · rw [hstatus]
      exact fun h => hmem (by simp [h])
    · rw [hstatus]
      exact fun h => hmem (by simp [h])
  rcases ending with (message | message | ⟨type, message⟩) | ⟨⟩
  · have hmem : statusOf recorded (.error (.ScenarioTimeout message)) ∉
        [Status.passed, .skipped] := by simp [statusOf]
    rw [if_neg hmem]
    exact ⟨fun _ ⟨_, _, h⟩ => (by cases h), fun _ => hbroken rfl hmem⟩
  · -- the skip: exit code 0 and status `skipped`, whatever was recorded
    have hmem : statusOf recorded (.error (.ScenarioSkip message)) ∈
        [Status.passed, .skipped] := by simp [statusOf]
    have herrors : report.errors = 0 := herrors
    rw [if_pos hmem]
    constructor
    · rintro h ⟨hfailed, -⟩
      exact (h.failed hfailed).1 rfl
    · intro hno
      have hall : ∀ a ∈ recorded, a.passed := by
        by_contra hnot
        push Not at hnot
        obtain ⟨a, ha, hp⟩ := hnot
        exact hno ⟨⟨a, ha, by simpa using hp⟩, message, rfl⟩
      have hf : report.failures = 0 := hfailures.trans (hzero.mpr hall)
      exact ⟨by simpa using ⟨hall, rfl⟩, by simp [hf, herrors], hsame, hfailures,
        fun ⟨a, ha, hp⟩ => absurd (hall a ha) hp⟩
  · have hmem : statusOf recorded (.error (.other type message)) ∉
        [Status.passed, .skipped] := by simp [statusOf]
    rw [if_neg hmem]
    exact ⟨fun _ ⟨_, _, h⟩ => (by cases h), fun _ => hbroken rfl hmem⟩
  · -- the normal return looks at all assertions
    have herrors : report.errors = 0 := herrors
    refine ⟨fun _ ⟨_, _, h⟩ => (by cases h), fun _ => ?_⟩
    by_cases hall : ∀ a ∈ recorded, a.passed
    · have hpassed : statusOf recorded (.ok ()) = .passed := by
        unfold statusOf
        exact if_pos (List.all_eq_true.mpr hall)
      have hf : report.failures = 0 := hfailures.trans (hzero.mpr hall)
      rw [hpassed]
      exact ⟨by simpa using ⟨hall, rfl⟩, by simp [hf, herrors], hsame, hfailures,
        fun ⟨a, ha, hp⟩ => absurd (hall a ha) hp⟩
    · have hfailed : statusOf recorded (.ok ()) = .failed := by
        unfold statusOf
        exact if_neg fun h => hall (List.all_eq_true.mp h)
      have hf : report.failures ≠ 0 := fun h => hall (hzero.mp (hfailures.symm.trans h))
      rw [hfailed] at hstatus ⊢
      refine ⟨?_, by simp [hf], hsame, hfailures, fun _ => ⟨by simp, by simp [hstatus],
        by simp [hstatus]⟩⟩
      exact ⟨fun h => by simp at h, fun h => absurd h.1 hall⟩

/-- **When the verdicts agree.** They do exactly if the function does not skip
after a failed check. -/
theorem run_scenario_verdicts_agree_iff {definition : ScenarioDefinition} {timeout : Option ℚ}
    {env : Environment} (henv : env.Fine) (hlimit : 0 < definition.limit timeout) :
    ∃ code r report, (run_scenario definition timeout env).exec Run.new = (.ok code, r) ∧
      r.resultFile = some r.result ∧ r.junitFile = some report ∧
      (VerdictsAgree definition.function.behaviour.1 definition.function.behaviour.2 code
          r.result report ↔
        ¬ SkipsAfterFailure definition.function) := by
  obtain ⟨report, hrun, hfailures, herrors⟩ := run_scenario_exec henv hlimit
  exact ⟨_, _, report, hrun, rfl, rfl, verdictsAgree_iff rfl rfl hfailures herrors⟩

/-- Nothing around the function goes wrong. -/
def quiet : Environment where
  first := .complete
  start := .ok ()
  close := .ok ()
  stop := .ok ()
  copy := .ok ()
  junit := .ok ()
  last := .complete
  emit := fun _ => .ok ()
  finished_at := 12
  duration := 12
  format_exception := fun _ => "Traceback (most recent call last):"
  format_exception_ne := fun _ => by decide

/-- A required check fails, and the function does not catch it. -/
theorem run_scenario_verdicts_agree_required :
    let args : CheckArgs := ⟨false, "battery", "7", "100", ""⟩
    let definition : ScenarioDefinition := ⟨"smoke", .require args fun
      | .ok () => .returns
      | .error error => .raises error, 60⟩
    ∃ code r report, (run_scenario definition none quiet).exec Run.new = (.ok code, r) ∧
      VerdictsAgree [args.assertion] (.error (.other "AssertionError" "battery")) code
        r.result report := by
  intro args definition
  have hquiet : quiet.Fine := ⟨rfl, rfl, rfl, rfl, rfl, rfl, rfl, fun _ => rfl⟩
  have hlimit : 0 < definition.limit none := by decide
  have h := run_scenario_verdicts_agree_iff hquiet hlimit
  obtain ⟨code, r, report, hrun, -, -, hiff⟩ := h
  refine ⟨code, r, report, hrun, hiff.mpr ?_⟩
  rintro ⟨-, message, hskip⟩
  cases hskip

/-- **A masked failure.** A check fails, then the function skips: exit code 0 and
status `skipped`, while the report has one failure. -/
theorem skip_masks_failed_check :
    let args : CheckArgs := ⟨false, "battery", "7", "100", ""⟩
    let definition : ScenarioDefinition := ⟨"smoke",
      .check args fun _ => .raises (.ScenarioSkip "no phone"), 60⟩
    ∃ r report, (run_scenario definition none quiet).exec Run.new = (.ok 0, r) ∧
      r.result.status = .skipped ∧ r.result.failure_count = 1 ∧ r.junitFile = some report ∧
      report.failures = 1 ∧ report.errors = 0 :=
  ⟨_, _, rfl, rfl, rfl, rfl, rfl, rfl⟩

/-! ## The result on disk -/

/-- The result file says that the run is over. -/
def Run.Finalised (r : Run) : Prop :=
  ∃ result, r.resultFile = some result ∧ result.status ≠ .running ∧ result.finished_at ≠ none

/-- The document gets into the file, whether or not the call returns. -/
def Saved.Lands : Saved → Prop
  | .complete => True
  | .refused _ => False
  | .torn _ => False
  | .late _ => True

/-- `context` is there: the simulator has started, and so has its event. -/
def Environment.Opens (env : Environment) : Prop :=
  env.start = .ok () ∧ env.emit .simulator_started = .ok ()

/-- Nothing raises in front of the `try`, no clean-up step that the run comes to raises up
to the last result, and that gets into the file. The context is closed only if there is
one. -/
structure Environment.CleansUp (env : Environment) : Prop where
  first : env.first = .complete
  run_started : env.emit .run_started = .ok ()
  close : env.Opens → env.close = .ok ()
  stop : env.stop = .ok ()
  simulator_stopped : env.emit .simulator_stopped = .ok ()
  copy : env.copy = .ok ()
  junit : env.junit = .ok ()
  last : env.last.Lands

/-- A run as `try` and `except` leave it: it has a verdict, but only in memory. -/
structure Run.Left (env : Environment) (r : Run) : Prop where
  resultFile : r.resultFile = some Run.new.result
  status : r.result.status ≠ .running
  error : r.result.status ∈ [.failed, .timed_out] → r.result.error ≠ some ""
  assertions : r.assertions = none ↔ ¬ env.Opens

section Finalised

variable {env : Environment}

theorem exec_step (outcome : Except PyError Unit) (r : Run) :
    (step outcome).exec r = (outcome, r) := by
  rcases outcome with e | ⟨⟩ <;> rfl

/-- The `except` clauses leave a verdict, whatever they handle and whether or not they
raise. -/
theorem exceptClauses_left (e : PyError) {r : Run}
    (hfile : r.resultFile = some Run.new.result)
    (hassertions : r.assertions = none ↔ ¬ env.Opens) :
    ((exceptClauses env e).exec r).2.Left env := by
  have hne : ∀ e, some (env.format_exception e) ≠ some "" := fun e he =>
    env.format_exception_ne e (Option.some.inj he)
  have hcaught : ∃ r', (caught env e).exec r = (.ok (), r') ∧ r'.Left env := by
    rcases e with message | message | ⟨type, message⟩
    · exact ⟨_, rfl, hfile, by simp, fun _ => hne _, hassertions⟩
    · exact ⟨_, rfl, hfile, by simp, by simp, hassertions⟩
    · exact ⟨_, rfl, hfile, by simp, fun _ => hne _, hassertions⟩
  obtain ⟨r', hrun, hleft⟩ := hcaught
  rw [exceptClauses, exec_bind, hrun]
  dsimp only
  rwa [exec_step]

/-- Every way through `try` and `except` leaves a verdict. -/
theorem body_left (definition : ScenarioDefinition) (timeout : Option ℚ) (env : Environment) :
    (exec (tryCatch (tryClause definition timeout env) (exceptClauses env))
      { Run.new with resultFile := some Run.new.result }).2.Left env := by
  rw [exec_tryCatch, tryClause, exec_bind, exec_step]
  rcases hstart : env.start with e | ⟨⟩
  · exact exceptClauses_left e rfl (by simp [Environment.Opens, hstart, Run.new])
  dsimp only
  rw [exec_bind, exec_step]
  rcases hemit : env.emit .simulator_started with e | ⟨⟩
  · exact exceptClauses_left e rfl (by simp [Environment.Opens, hemit, Run.new])
  have hopens : env.Opens := ⟨hstart, hemit⟩
  dsimp only
  rw [exec_bind, exec_update]
  dsimp only
  rw [exec_bind, withDeadline]
  -- a limit that is over before the scenario has begun
  by_cases hlimit : definition.limit timeout ≤ 0
  · rw [if_pos hlimit, exec_throw]
    exact exceptClauses_left _ rfl (by simp [hopens])
  rw [if_neg hlimit, run_exec]
  rcases definition.function.behaviour with ⟨recorded, e | ⟨⟩⟩
  · exact exceptClauses_left e rfl (by simp [hopens])
  · dsimp only
    rw [exec_update]
    refine ⟨rfl, ?_, fun _ => by simp [Run.new], by simp [hopens]⟩
    dsimp only
    split <;> simp

/-- A run whose file still holds the first result is not finalised. -/
theorem not_finalised {r : Run} (h : r.resultFile = some Run.new.result) : ¬ r.Finalised := by
  rintro ⟨result, hresult, hstatus, -⟩
  rw [h] at hresult
  exact hstatus (by rw [← Option.some.inj hresult]; rfl)

/-- Nor is one whose file has no document. -/
theorem not_finalised_none {r : Run} (h : r.resultFile = none) : ¬ r.Finalised := by
  rintro ⟨result, hresult, -⟩
  rw [h] at hresult
  cases hresult

/-- The first result says `running`, however it is written. -/
theorem first_not_finalised (saved : Saved) :
    ¬ ((JsonResultWriter.write saved).exec Run.new).2.Finalised := by
  cases saved with
  | complete => exact not_finalised rfl
  | refused error => exact not_finalised_none rfl
  | torn error => exact not_finalised_none rfl
  | late error => exact not_finalised rfl

/-- The last result finalises the run if it gets into the file. -/
theorem last_finalised (saved : Saved) {r : Run} (hfile : r.resultFile = some Run.new.result)
    (hstatus : r.result.status ≠ .running) (hfinished : r.result.finished_at ≠ none) :
    ((JsonResultWriter.write saved).exec r).2.Finalised ↔ saved.Lands := by
  cases saved with
  | complete => exact iff_of_true ⟨_, rfl, hstatus, hfinished⟩ trivial
  | refused error => exact iff_of_false (not_finalised hfile) id
  | torn error => exact iff_of_false (not_finalised_none rfl) id
  | late error => exact iff_of_true ⟨_, rfl, hstatus, hfinished⟩ trivial

/-- A step that raises ends a clause where it stands. -/
theorem step_finalised {outcome : Except PyError Unit} {rest : Effect Run PyError Unit} {r : Run}
    {P : Prop} (hfile : r.resultFile = some Run.new.result)
    (hrest : (rest.exec r).2.Finalised ↔ P) :
    ((step outcome >>= fun _ => rest).exec r).2.Finalised ↔ outcome = .ok () ∧ P := by
  rw [exec_bind, exec_step]
  rcases outcome with e | ⟨⟩
  · exact iff_of_false (not_finalised hfile) fun h => by cases h.1
  · exact hrest.trans ⟨fun h => ⟨rfl, h⟩, fun h => h.2⟩

/-- A step behind the last result changes no file. -/
theorem bind_step_exec (m : Effect Run PyError Unit) (outcome : Except PyError Unit) (r : Run) :
    ((m >>= fun _ => step outcome).exec r).2 = (m.exec r).2 := by
  rw [exec_bind]
  rcases m.exec r with ⟨e | ⟨⟩, r'⟩
  · rfl
  · dsimp only
    rw [exec_step]

/-- The result is written last, so any step that raises before leaves the file as
it was when the run began. -/
theorem reportClause_finalised (name : String) (env : Environment) {r : Run}
    (hfile : r.resultFile = some Run.new.result) (hstatus : r.result.status ≠ .running)
    (herror : r.result.status ∈ [.failed, .timed_out] → r.result.error ≠ some "") :
    ((reportClause name env).exec r).2.Finalised ↔
      env.copy = .ok () ∧ env.junit = .ok () ∧ env.last.Lands := by
  unfold reportClause
  refine step_finalised hfile ?_
  rw [exec_bind, exec_update]
  dsimp only
  rw [exec_bind, exec_read]
  dsimp only
  refine step_finalised hfile ?_
  have hne : (if r.result.status ∈ [Status.failed, Status.timed_out] then r.result.error
      else none) ≠ some "" := by
    split
    · exact herror ‹_›
    · simp
  -- the report does not raise: no error that goes into it is empty
  obtain ⟨report, hreport, -, -⟩ := write_junit_isSome name env.duration
    (r.assertions.getD []) r.skipped hne
  rw [exec_bind, reportRun]
  dsimp only [id]
  rw [hreport, exec_update]
  exact last_finalised env.last hfile hstatus (by simp)

/-- What follows the context's closing. -/
theorem stopped_finalised (name : String) (env : Environment) {r : Run}
    (hfile : r.resultFile = some Run.new.result) (hstatus : r.result.status ≠ .running)
    (herror : r.result.status ∈ [.failed, .timed_out] → r.result.error ≠ some "") :
    ((step env.stop >>= fun _ => step (env.emit .simulator_stopped) >>= fun _ =>
        reportClause name env).exec r).2.Finalised ↔
      env.stop = .ok () ∧ env.emit .simulator_stopped = .ok () ∧ env.copy = .ok () ∧
        env.junit = .ok () ∧ env.last.Lands :=
  step_finalised hfile (step_finalised hfile (reportClause_finalised name env hfile hstatus herror))

/-- The clean-up, step by step. -/
theorem finallyClause_eq (definition : ScenarioDefinition) (env : Environment) :
    finallyClause definition env =
      (read Run.assertions >>= fun assertions => closeContext env assertions >>= fun _ =>
        step env.stop >>= fun _ => step (env.emit .simulator_stopped) >>= fun _ =>
        reportClause definition.name env) >>= fun _ => step (env.emit .run_finished) := by
  simp only [finallyClause, closeClause, bind_assoc]

/-- What the clean-up needs, for a run that the first result is written of. -/
theorem finallyClause_finalised (definition : ScenarioDefinition) {r : Run} (hr : r.Left env) :
    ((finallyClause definition env).exec r).2.Finalised ↔
      (env.Opens → env.close = .ok ()) ∧ env.stop = .ok () ∧
        env.emit .simulator_stopped = .ok () ∧ env.copy = .ok () ∧ env.junit = .ok () ∧
        env.last.Lands := by
  rw [finallyClause_eq, bind_step_exec, exec_bind, exec_read]
  dsimp only
  rcases hassertions : r.assertions with _ | assertions
  · have hclosed := hr.assertions.mp hassertions
    refine (stopped_finalised definition.name env hr.resultFile hr.status hr.error).trans ?_
    exact ⟨fun h => ⟨fun hs => absurd hs hclosed, h⟩, fun h => h.2⟩
  · have hopens : env.Opens := by
      by_contra h
      rw [hr.assertions.mpr h] at hassertions
      cases hassertions
    let counted : Run := { r with result := { r.result with
      check_count := assertions.length
      failure_count := assertions.countP fun assertion => !assertion.passed } }
    -- the counts do not touch the status and the error
    have hstopped := stopped_finalised definition.name env (r := counted) hr.resultFile
      hr.status hr.error
    have hclose : (env.Opens → env.close = .ok ()) ↔ env.close = .ok () :=
      ⟨fun h => h hopens, fun h _ => h⟩
    rw [closeContext, bind_assoc, hclose]
    refine step_finalised hr.resultFile ?_
    rw [exec_bind, exec_update]
    exact hstopped

/-- **When a run is finalised.** However the scenario ends, and whatever raises in the
`except` clauses or behind the last result, the result on disk is the final one exactly if
the run gets into its `try` and cleans up. -/
theorem run_scenario_finalised_iff (definition : ScenarioDefinition) (timeout : Option ℚ)
    (env : Environment) :
    ((run_scenario definition timeout env).exec Run.new).2.Finalised ↔ env.CleansUp := by
  rw [run_scenario, exec_bind]
  -- the first result, and the event behind it
  by_cases hfirst : env.first = .complete
  case neg =>
    have hraised : ∃ e r, (JsonResultWriter.write env.first).exec Run.new = (.error e, r) := by
      rcases h : env.first with _ | error | error | error
      · exact absurd h hfirst
      · exact ⟨_, _, rfl⟩
      · exact ⟨_, _, rfl⟩
      · exact ⟨_, _, rfl⟩
    obtain ⟨e, r, hrun⟩ := hraised
    have hnot := first_not_finalised env.first
    rw [hrun] at hnot ⊢
    exact iff_of_false hnot fun h => hfirst h.first
  rw [hfirst, JsonResultWriter.write, exec_update]
  dsimp only
  rw [exec_bind, exec_step]
  rcases hstarted : env.emit .run_started with e | ⟨⟩
  · refine iff_of_false (not_finalised rfl) fun h => ?_
    rw [h.run_started] at hstarted
    cases hstarted
  dsimp only
  rw [exec_bind, exec_ensure]
  have hfinally := finallyClause_finalised definition (body_left definition timeout env)
  rcases hbody : exec (tryCatch (tryClause definition timeout env) (exceptClauses env))
    { Run.new with resultFile := some Run.new.result } with ⟨outcome, r⟩
  rw [hbody] at hfinally
  dsimp only at hfinally ⊢
  have hcleans : env.CleansUp ↔ (env.Opens → env.close = .ok ()) ∧ env.stop = .ok () ∧
      env.emit .simulator_stopped = .ok () ∧ env.copy = .ok () ∧ env.junit = .ok () ∧
      env.last.Lands :=
    ⟨fun h => ⟨h.close, h.stop, h.simulator_stopped, h.copy, h.junit, h.last⟩,
      fun ⟨hclose, hstop, hstopped, hcopy, hjunit, hlast⟩ =>
        ⟨hfirst, hstarted, hclose, hstop, hstopped, hcopy, hjunit, hlast⟩⟩
  rw [hcleans, ← hfinally]
  rcases hrun : (finallyClause definition env).exec r with ⟨e | ⟨⟩, r'⟩
  · rfl
  · rcases outcome with e | ⟨⟩ <;> rfl

/-- **A run left unfinished.** The scenario passes, the simulator does not stop,
and the result on disk stays at `running`. -/
theorem stop_failure_leaves_running :
    let definition : ScenarioDefinition := ⟨"smoke", .returns, 60⟩
    let env := { quiet with stop := .error (.other "PermissionError" "[Errno 1] killpg") }
    let r := ((run_scenario definition none env).exec Run.new).2
    r.result.status = .passed ∧ ¬ r.Finalised ∧
      r.resultFile = some ⟨.running, none, none, 0, 0, none⟩ :=
  ⟨rfl, not_finalised rfl, rfl⟩

end Finalised

end Ptlab.Scenario
