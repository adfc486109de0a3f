/-
The event log of a run: `EventWriter` (`src/ptlab/artifacts.py`) and the places of
`src/ptlab/scenario.py` that emit.

An event is a line of JSON at the end of a file. `emit` numbers it first and then
writes it, so that a record orjson refuses has taken its number, and the exception
comes out of whatever was emitting: `check` has recorded the assertion by then. The
log and the result are kept by different calls; `Told` is the invariant between them,
and `events_tell_run` says what a reader of the file may conclude, also of a file that
a crash has cut anywhere. `run_scenario_seen` is the other direction: without its log
the run is one of those that `Ptlab.Scenario` is about, whose environment says which
emissions raise.

The file is `events.ndjson`. What an assertion has as `actual` and `expected` is kept as
text. An alarm in `check` between the recording and the numbering is left out: it loses a
record without a missing number.
-/
import Ptlab.JsonLines
import Ptlab.Scenario

set_option autoImplicit false

open Effect Ptlab.Artifacts Ptlab.Control Ptlab.JsonLines

namespace Ptlab.Scenario.Events

/-! ## The log -/

/-- What `simulator.started` has of the state. -/
structure Allocations where
  gatt_port : ℤ
  bridge_port : ℤ
  ble_control_port : ℤ
  display : Option String
  headless : Bool
  pid : ℤ
  deriving DecidableEq, Repr

inductive Event where
  | run_started (suite : String)
  | simulator_started (allocations : Allocations)
  | assertion (suite : String) (assertion : Assertion)
  | command_started (command : List String) (cwd : String)
  | command_finished (command : List String) (returncode : ℤ)
  | scenario_skipped (reason : String)
  | scenario_failure (error_type message traceback : String)
  | simulator_stopped (stopped : Bool)
  | run_finished (status : Status) (duration_seconds : ℚ) (check_count failure_count : ℕ)
  deriving DecidableEq, Repr

structure EventRecord where
  sequence : ℕ
  timestamp : String
  event : Event
  deriving DecidableEq, Repr

/-- How the write of a record goes. -/
inductive Written where
  | complete
  /-- Nothing is written: `orjson.dumps` raises, or the file cannot be opened. -/
  | refused (error : PyError)
  /-- The file takes so many bytes. -/
  | cut (bytes : ℕ) (message : String)
  deriving DecidableEq, Repr

/-- What is around the writer: the clock, how orjson writes a float, and how each write
goes. -/
structure Recorder where
  utc_now : ℕ → String
  float : ℚ → Json.Number
  written : ℕ → Written

def Status.text : Status → String
  | .running => "running"
  | .passed => "passed"
  | .failed => "failed"
  | .skipped => "skipped"
  | .timed_out => "timed_out"

def int (n : ℤ) : Json.Value := .number (.ofInt n)

def strings (texts : List String) : Json.Value := .array (texts.map .string)

/-- The name of an event and its fields, in the order of the call. -/
def Event.fields (float : ℚ → Json.Number) : Event → String × List (String × Json.Value)
  | .run_started suite => ("run.started", [("suite", .string suite), ("target", .string "sim")])
  | .simulator_started allocations => ("simulator.started",
    [("gatt_port", int allocations.gatt_port), ("bridge_port", int allocations.bridge_port),
      ("ble_control_port", int allocations.ble_control_port),
      ("display", (allocations.display.map Json.Value.string).getD .null),
      ("headless", .bool allocations.headless), ("pid", int allocations.pid)])
  | .assertion suite recorded => ("assertion",
    [("suite", .string suite), ("name", .string recorded.name), ("passed", .bool recorded.passed),
      ("actual", .string recorded.actual), ("expected", .string recorded.expected),
      ("detail", .string recorded.detail)])
  | .command_started command cwd => ("command.started",
    [("command", strings command), ("cwd", .string cwd)])
  | .command_finished command returncode => ("command.finished",
    [("command", strings command), ("returncode", int returncode)])
  | .scenario_skipped reason => ("scenario.skipped", [("reason", .string reason)])
  | .scenario_failure error_type message traceback => ("scenario.failure",
    [("error_type", .string error_type), ("message", .string message),
      ("traceback", .string traceback)])
  | .simulator_stopped stopped => ("simulator.stopped", [("stopped", .bool stopped)])
  | .run_finished status duration_seconds check_count failure_count => ("run.finished",
    [("status", .string (Status.text status)),
      ("duration_seconds", .number (float duration_seconds)), ("check_count", int check_count),
      ("failure_count", int failure_count)])

/-- The dict that `emit` builds, with its keys sorted. -/
def Recorder.dict (recorder : Recorder) (record : EventRecord) : Members :=
  let (event, fields) := record.event.fields recorder.float
  Json.sortKeys (("sequence", int record.sequence) ::
    ("timestamp", .string record.timestamp) :: ("event", .string event) :: fields)

/-- `EventWriter`, with the file at its path. -/
structure EventWriter where
  sequence : ℕ
  file : List UInt8
  deriving DecidableEq, Repr

/-- A run with its log. -/
structure Logged where
  run : Run
  events : EventWriter
  deriving DecidableEq, Repr

def Logged.new : Logged := ⟨Run.new, ⟨0, []⟩⟩

section Model

variable (recorder : Recorder)

/-- `EventWriter.emit`. -/
def emit (event : Event) : Effect Logged PyError Unit := .of fun w =>
  let record : EventRecord := ⟨w.events.sequence, recorder.utc_now w.events.sequence, event⟩
  let line := dumps (recorder.dict record) ++ [NEWLINE]
  let sequence := w.events.sequence + 1
  match recorder.written w.events.sequence with
  | .complete => (.ok (), { w with events := ⟨sequence, w.events.file ++ line⟩ })
  -- the number is taken
  | .refused error => (.error error, { w with events := ⟨sequence, w.events.file⟩ })
  | .cut bytes message => (.error (.other "OSError" message),
      { w with events := ⟨sequence, w.events.file ++ line.take bytes⟩ })

/-- A step of the run that emits nothing. -/
def onRun {α : Type} (m : Effect Run PyError α) : Effect Logged PyError α :=
  zoom Logged.run (fun run w => { w with run := run }) m

/-! ## The scenario function -/

/-- What a scenario function does: as `ScenarioFunction`, with the commands it runs, and
with a `check` that may raise. `outcome` is what comes of a command. -/
inductive Activity where
  | returns
  | raises (error : PyError)
  | check (args : CheckArgs) (next : Except PyError Bool → Activity)
  | require (args : CheckArgs) (next : Except PyError Unit → Activity)
  | run_command (command : List String) (cwd : String) (outcome : Except PyError ℤ)
      (next : Except PyError ℤ → Activity)

/-- `ScenarioContext.check`. -/
def check (suite : String) (args : CheckArgs) : Effect Logged PyError Bool := do
  let passed ← onRun (ScenarioContext.check args)
  emit recorder (.assertion suite args.assertion)
  return passed

/-- `ScenarioContext.require`. -/
def require (suite : String) (args : CheckArgs) : Effect Logged PyError Unit := do
  if !(← check recorder suite args) then
    throw (.other "AssertionError" args.name)

/-- `ScenarioContext.run_command`, without the log of commands. -/
def run_command (command : List String) (cwd : String) (outcome : Except PyError ℤ) :
    Effect Logged PyError ℤ := do
  emit recorder (.command_started command cwd)
  let returncode ← lift outcome
  emit recorder (.command_finished command returncode)
  return returncode

/-- A scenario function at work. -/
def Activity.run (suite : String) : Activity → Effect Logged PyError Unit
  | .returns => pure ()
  | .raises error => throw error
  | .check args next => do
    let outcome ← attempt (Events.check recorder suite args)
    (next outcome).run suite
  | .require args next => do
    let outcome ← attempt (Events.require recorder suite args)
    (next outcome).run suite
  | .run_command command cwd outcome next => do
    let outcome ← attempt (Events.run_command recorder command cwd outcome)
    (next outcome).run suite

/-! ## The run -/

structure Definition where
  name : String
  function : Activity
  timeout : ℚ

/-- What is around the run, with what its events have to say. Which of them raise is up to
the recorder here, and not to `emit`. -/
structure Surroundings extends Environment where
  allocations : Allocations
  stopped : Bool
  /-- `type(error).__name__` and `str(error)`. -/
  describe : PyError → String × String

/-- `with scenario_deadline(seconds)`. -/
def withDeadline (seconds : ℚ) (body : Effect Logged PyError Unit) : Effect Logged PyError Unit :=
  if seconds ≤ 0 then throw (.other "ValueError" "scenario timeout must be positive")
  else body

/-- `timeout or definition.timeout`. -/
def Definition.limit (definition : Definition) (timeout : Option ℚ) : ℚ :=
  match timeout with
  | some seconds => if seconds ≠ 0 then seconds else definition.timeout
  | none => definition.timeout

/-- The `try` clause. -/
def tryClause (definition : Definition) (timeout : Option ℚ) (env : Surroundings) :
    Effect Logged PyError Unit := do
  onRun (step env.start)
  emit recorder (.simulator_started env.allocations)
  onRun (update fun r => { r with assertions := some [] })
  withDeadline (definition.limit timeout) (definition.function.run recorder definition.name)
  onRun (update fun r =>
    let passed := (r.assertions.getD []).all (·.passed)
    { r with result := { r.result with status := if passed then .passed else .failed } })

/-- The event of an exception. -/
def failureEvent (env : Surroundings) : PyError → Event
  | .ScenarioSkip message => .scenario_skipped message
  | error => .scenario_failure (env.describe error).1 (env.describe error).2
      (env.format_exception error)

/-- The two `except` clauses. -/
def exceptClauses (env : Surroundings) (error : PyError) : Effect Logged PyError Unit := do
  onRun (caught env.toEnvironment error)
  emit recorder (failureEvent env error)

/-- The `finally` clause. -/
def finallyClause (definition : Definition) (env : Surroundings) : Effect Logged PyError Unit := do
  onRun (closeClause env.toEnvironment)
  emit recorder (.simulator_stopped env.stopped)
  onRun (reportClause definition.name env.toEnvironment)
  let result ← onRun (read Run.result)
  emit recorder
    (.run_finished result.status env.duration result.check_count result.failure_count)

/-- `run_scenario`: the exit code. -/
def run_scenario (definition : Definition) (timeout : Option ℚ) (env : Surroundings) :
    Effect Logged PyError ℕ := do
  onRun (JsonResultWriter.write env.first)
  emit recorder (.run_started definition.name)
  ensure (tryCatch (tryClause recorder definition timeout env) (exceptClauses recorder env))
    (finallyClause recorder definition env)
  let result ← onRun (read Run.result)
  return if result.status ∈ [.passed, .skipped] then 0 else 1

end Model

/-! ## What the log says -/

/-- The assertion that an event is about. -/
def Event.assertion? : Event → Option Assertion
  | .assertion _ recorded => some recorded
  | _ => none

/-- The assertions of some records, in order. -/
def assertionsOf (records : List EventRecord) : List Assertion :=
  records.filterMap fun record => record.event.assertion?

/-- The file has these records, numbered in order. -/
structure Holds (recorder : Recorder) (events : EventWriter) (records : List EventRecord) :
    Prop where
  file : events.file = lines (records.map recorder.dict)
  ordered : records.Pairwise fun a b => a.sequence < b.sequence
  numbered : ∀ record ∈ records, record.sequence < events.sequence
  count : records.length ≤ events.sequence

/-- **The invariant** between the log and the run. While no number is missing, the log has
every assertion. -/
structure Told (recorder : Recorder) (w : Logged) (records : List EventRecord) : Prop where
  holds : Holds recorder w.events records
  sublist : (assertionsOf records).Sublist (w.run.assertions.getD [])
  all : records.length = w.events.sequence →
    assertionsOf records = w.run.assertions.getD []

/-- No write is cut. -/
def Recorder.TakesAll (recorder : Recorder) : Prop :=
  ∀ n bytes message, recorder.written n ≠ .cut bytes message

section Told

variable {recorder : Recorder}

theorem assertionsOf_append (records : List EventRecord) (record : EventRecord) :
    assertionsOf (records ++ [record]) =
      assertionsOf records ++ record.event.assertion?.toList := by
  unfold assertionsOf
  rw [List.filterMap_append]
  congr 1

/-- A record that is written whole. -/
theorem Holds.complete {events : EventWriter} {records : List EventRecord}
    (h : Holds recorder events records) (event : Event) :
    let record : EventRecord := ⟨events.sequence, recorder.utc_now events.sequence, event⟩
    Holds recorder ⟨events.sequence + 1, events.file ++ (dumps (recorder.dict record) ++ [NEWLINE])⟩
      (records ++ [record]) := by
  intro record
  refine ⟨?_, ?_, fun r hr => ?_, ?_⟩
  · rw [List.map_append, List.map_singleton, lines_append, h.file]
  · rw [List.pairwise_append]
    refine ⟨h.ordered, List.pairwise_singleton _ _, fun r hr r' hr' => ?_⟩
    rw [List.mem_singleton.mp hr']
    exact h.numbered r hr
  · rcases List.mem_append.mp hr with hr | hr
    · exact (h.numbered r hr).trans (Nat.lt_succ_self _)
    · rw [List.mem_singleton.mp hr]
      exact Nat.lt_succ_self _
  · rw [List.length_append, List.length_singleton]
    exact Nat.succ_le_succ h.count

/-- One that orjson refuses has its number for nothing. -/
theorem Holds.refused {events : EventWriter} {records : List EventRecord}
    (h : Holds recorder events records) :
    Holds recorder ⟨events.sequence + 1, events.file⟩ records :=
  ⟨h.file, h.ordered, fun r hr => (h.numbered r hr).trans (Nat.lt_succ_self _),
    h.count.trans (Nat.le_succ _)⟩

/-- Some records tell the run. -/
def Tells (recorder : Recorder) (w : Logged) : Prop := ∃ records, Told recorder w records

/-- The last record is of this event, and nothing was emitted since. -/
def Ends (recorder : Recorder) (event : Event) (w : Logged) : Prop :=
  ∃ records record, Told recorder w (records ++ [record]) ∧ record.event = event ∧
    record.sequence + 1 = w.events.sequence

theorem told_new : Told recorder .new [] :=
  ⟨⟨rfl, .nil, fun _ hr => absurd hr List.not_mem_nil, le_rfl⟩, List.Sublist.refl _, fun _ => rfl⟩

/-- **The step.** An event that is not of an assertion leaves the log true of the run. -/
theorem emit_tells (hdisk : recorder.TakesAll) {event : Event} (hother : event.assertion? = none) :
    Triple (Tells recorder) (emit recorder event) (fun _ => Ends recorder event)
      (fun _ => Tells recorder) := by
  rintro w ⟨records, h⟩
  unfold emit
  rw [exec_of]
  rcases hwritten : recorder.written w.events.sequence with _ | error | ⟨bytes, message⟩
  · refine ⟨records, _, ⟨h.holds.complete event, ?_, fun hlength => ?_⟩, rfl, rfl⟩
    · rw [assertionsOf_append, hother, Option.toList_none, List.append_nil]
      exact h.sublist
    · rw [assertionsOf_append, hother, Option.toList_none, List.append_nil]
      rw [List.length_append, List.length_singleton] at hlength
      exact h.all (Nat.succ_injective hlength)
  · refine ⟨records, h.holds.refused, h.sublist, fun hlength => ?_⟩
    have hcount := h.holds.count
    dsimp only at hlength
    omega
  · exact absurd hwritten (hdisk _ bytes message)

/-- **The step of an assertion.** It is recorded, and then it is emitted or not. -/
theorem check_tells (hdisk : recorder.TakesAll) (suite : String) (args : CheckArgs) :
    Triple (fun w => Tells recorder w ∧ w.run.assertions.isSome) (check recorder suite args)
      (fun _ w => Tells recorder w ∧ w.run.assertions.isSome)
      (fun _ w => Tells recorder w ∧ w.run.assertions.isSome) := by
  rintro w ⟨⟨records, h⟩, hsome⟩
  obtain ⟨recorded, hrecorded⟩ := Option.isSome_iff_exists.mp hsome
  have hsublist := h.sublist
  have hall := h.all
  rw [hrecorded, Option.getD_some] at hsublist hall
  unfold check onRun zoom emit
  simp only [exec_bind, exec_of, check_exec, hrecorded, Option.map_some]
  rcases hwritten : recorder.written w.events.sequence with _ | error | ⟨bytes, message⟩
  · refine ⟨⟨_, h.holds.complete (.assertion suite args.assertion), ?_, fun hlength => ?_⟩, rfl⟩
    · rw [assertionsOf_append]
      exact hsublist.append (List.Sublist.refl [args.assertion])
    · rw [List.length_append, List.length_singleton] at hlength
      rw [assertionsOf_append, hall (Nat.succ_injective hlength)]
      rfl
  · refine ⟨⟨records, h.holds.refused, ?_, fun hlength => ?_⟩, rfl⟩
    · exact hsublist.trans (List.sublist_append_left ..)
    · have hcount := h.holds.count
      dsimp only at hlength
      omega
  · exact absurd hwritten (hdisk _ bytes message)

theorem Ends.tells {event : Event} {w : Logged} (h : Ends recorder event w) : Tells recorder w :=
  let ⟨records, record, htold, _⟩ := h
  ⟨records ++ [record], htold⟩

/-- An emission leaves the run alone. -/
theorem emit_keeps {P : Run → Prop} (event : Event) :
    Always (fun w => P w.run) (emit recorder event) := by
  intro w hw
  unfold emit
  rw [exec_of]
  rcases recorder.written w.events.sequence with _ | error | ⟨bytes, message⟩ <;> exact hw

/-- A step of the run leaves the log alone. -/
theorem onRun_rule {α : Type} {m : Effect Run PyError α} {P : Run → Prop} {Q : α → Run → Prop}
    {E : PyError → Run → Prop} (hm : Triple P m Q E) :
    Triple (fun w => P w.run) (onRun m) (fun a w => Q a w.run) (fun e w => E e w.run) :=
  triple_zoom (fun _ _ => rfl) hm

/-- A step that records no assertion leaves the log true of the run. -/
theorem onRun_tells {α : Type} {m : Effect Run PyError α}
    (hm : ∀ recorded, Always (fun r => r.assertions = recorded) m) :
    Always (Tells recorder) (onRun m) := by
  rintro w ⟨records, h⟩
  unfold onRun zoom
  rw [exec_of]
  have hkept : (m.exec w.run).2.assertions = w.run.assertions := (hm w.run.assertions).exec rfl
  rcases hrun : m.exec w.run with ⟨e | a, r⟩ <;> rw [hrun] at hkept
  · exact ⟨records, h.holds, by rw [hkept]; exact h.sublist, by rw [hkept]; exact h.all⟩
  · exact ⟨records, h.holds, by rw [hkept]; exact h.sublist, by rw [hkept]; exact h.all⟩

/-! ## A scenario function at work -/

/-- Nothing has been counted. -/
def Uncounted (r : Run) : Prop := r.result.check_count = 0 ∧ r.result.failure_count = 0

/-- With the context, and before it is closed. -/
structure Working (recorder : Recorder) (w : Logged) : Prop where
  tells : Tells recorder w
  context : w.run.assertions.isSome
  uncounted : Uncounted w.run

theorem emit_working (hdisk : recorder.TakesAll) {event : Event}
    (hother : event.assertion? = none) :
    Always (Working recorder) (emit recorder event) := by
  have hkeeps : Always (fun w : Logged => w.run.assertions.isSome ∧ Uncounted w.run)
      (emit recorder event) := emit_keeps (P := fun r => r.assertions.isSome ∧ Uncounted r) event
  refine ((emit_tells hdisk hother).and hkeeps).conseq (fun w hw => ⟨hw.tells, hw.context,
    hw.uncounted⟩) (fun _ w hw => ⟨hw.1.tells, hw.2.1, hw.2.2⟩) fun _ w hw => ⟨hw.1, hw.2.1, hw.2.2⟩

theorem check_working (hdisk : recorder.TakesAll) (suite : String) (args : CheckArgs) :
    Always (Working recorder) (check recorder suite args) := by
  have huncounted : Always (fun w : Logged => Uncounted w.run) (check recorder suite args) := by
    unfold check
    have hcheck : Always Uncounted (ScenarioContext.check args) := fun r hr => hr
    refine always_bind (onRun_rule hcheck) fun passed => ?_
    exact always_bind (emit_keeps (P := Uncounted) _) fun _ => always_pure _
  refine ((check_tells hdisk suite args).and huncounted).conseq (fun w hw => ⟨⟨hw.tells, hw.context⟩,
    hw.uncounted⟩) (fun _ w hw => ⟨hw.1.1, hw.1.2, hw.2⟩) fun _ w hw => ⟨hw.1.1, hw.1.2, hw.2⟩

theorem require_working (hdisk : recorder.TakesAll) (suite : String) (args : CheckArgs) :
    Always (Working recorder) (require recorder suite args) := by
  unfold require
  refine always_bind (check_working hdisk suite args) fun passed => ?_
  split_ifs
  · exact always_throw _
  · exact always_pure _

theorem run_command_working (hdisk : recorder.TakesAll) (command : List String) (cwd : String)
    (outcome : Except PyError ℤ) :
    Always (Working recorder) (run_command recorder command cwd outcome) := by
  unfold run_command
  refine always_bind (emit_working hdisk rfl) fun _ => ?_
  refine always_bind (fun w hw => ?_) fun returncode => ?_
  · rw [exec_lift]
    rcases outcome with e | n <;> exact hw
  · exact always_bind (emit_working hdisk rfl) fun _ => always_pure _

theorem always_attempt {α : Type} {I : Logged → Prop} {m : Effect Logged PyError α}
    (h : Always I m) : Always I (attempt m) := by
  intro w hw
  rw [exec_attempt]
  exact h.exec hw

/-- **A function at work**, by induction on the tree, whatever its handlers do. -/
theorem activity_working (hdisk : recorder.TakesAll) (suite : String) (activity : Activity) :
    Always (Working recorder) (activity.run recorder suite) := by
  induction activity with
  | returns => exact always_pure _
  | raises error => exact always_throw _
  | check args next ih =>
      exact always_bind (always_attempt (check_working hdisk suite args)) ih
  | require args next ih =>
      exact always_bind (always_attempt (require_working hdisk suite args)) ih
  | run_command command cwd outcome next ih =>
      exact always_bind (always_attempt (run_command_working hdisk command cwd outcome)) ih

/-! ## The run -/

/-- In the `try` clause. -/
def Under (recorder : Recorder) (w : Logged) : Prop := Tells recorder w ∧ Uncounted w.run

theorem emit_under (hdisk : recorder.TakesAll) {event : Event}
    (hother : event.assertion? = none) : Always (Under recorder) (emit recorder event) :=
  ((emit_tells hdisk hother).and (emit_keeps (P := Uncounted) event)).conseq (fun _ hw => hw)
    (fun _ _ hw => ⟨hw.1.tells, hw.2⟩) fun _ _ hw => hw

theorem onRun_under {α : Type} {m : Effect Run PyError α}
    (hm : ∀ recorded, Always (fun r => r.assertions = recorded) m) (huncounted : Always Uncounted m) :
    Always (Under recorder) (onRun m) :=
  ((onRun_tells hm).and (onRun_rule huncounted)).conseq (fun _ hw => hw) (fun _ _ hw => hw)
    fun _ _ hw => hw

theorem step_always {I : Run → Prop} (outcome : Except PyError Unit) : Always I (step outcome) := by
  unfold step
  rcases outcome with e | ⟨⟩
  · exact always_throw _
  · exact always_pure _

theorem tryClause_under (hdisk : recorder.TakesAll) (definition : Definition)
    (timeout : Option ℚ) (env : Surroundings) :
    Triple (fun w => Under recorder w ∧ w.run.assertions = none)
      (tryClause recorder definition timeout env) (fun _ => Under recorder)
      (fun _ => Under recorder) := by
  have hwith : ∀ {m : Effect Logged PyError Unit}, Always (Under recorder) m →
      Always (fun w : Logged => w.run.assertions = none) m →
      Triple (fun w => Under recorder w ∧ w.run.assertions = none) m
        (fun _ w => Under recorder w ∧ w.run.assertions = none) (fun _ => Under recorder) :=
    fun h h' => (h.and h').conseq (fun _ hw => hw) (fun _ _ hw => hw) fun _ _ hw => hw.1
  unfold tryClause
  refine triple_bind (hwith (onRun_under (fun _ => step_always _) (step_always _))
    (onRun_rule (step_always (I := fun r => r.assertions = none) _))) fun _ => ?_
  refine triple_bind (hwith (emit_under hdisk rfl)
    (emit_keeps (P := fun r => r.assertions = none) _)) fun _ => ?_
  -- the context begins without assertions, and the log has none so far
  refine triple_bind (Q := fun _ => Working recorder) ?_ fun _ => ?_
  · rintro w ⟨⟨⟨records, h⟩, huncounted⟩, hnone⟩
    have hsublist := h.sublist
    have hall := h.all
    rw [hnone] at hsublist hall
    exact ⟨⟨records, h.holds, hsublist, hall⟩, rfl, huncounted⟩
  have hunder : ∀ w, Working recorder w → Under recorder w := fun w hw => ⟨hw.tells, hw.uncounted⟩
  refine triple_bind (Q := fun _ => Under recorder) ?_ fun _ => ?_
  · unfold withDeadline
    split_ifs
    · exact triple_throw hunder
    · exact (activity_working hdisk definition.name definition.function).conseq (fun _ hw => hw)
        (fun _ => hunder) fun _ => hunder
  · exact onRun_under (fun _ => triple_update fun _ hr => hr) (triple_update fun _ hr => hr)

theorem exceptClauses_under (hdisk : recorder.TakesAll) (env : Surroundings) (error : PyError) :
    Always (Under recorder) (exceptClauses recorder env error) := by
  unfold exceptClauses
  refine always_bind (onRun_under (fun recorded => ?_) ?_) fun _ => ?_
  · unfold caught
    split <;> exact triple_update fun _ hr => hr
  · unfold caught
    split <;> exact triple_update fun _ hr => hr
  · refine emit_under hdisk ?_
    unfold failureEvent
    split <;> rfl

/-- The counts are those of the assertions. -/
def Counted (r : Run) : Prop :=
  r.result.check_count = (r.assertions.getD []).length ∧
    r.result.failure_count = (r.assertions.getD []).countP fun a => !a.passed

theorem closeClause_counted (env : Environment) :
    Triple Uncounted (closeClause env) (fun _ => Counted) (fun _ _ => True) := by
  unfold closeClause
  refine triple_bind (Q := fun recorded r => Uncounted r ∧ r.assertions = recorded)
    (triple_read fun r hr => ⟨hr, rfl⟩) fun recorded => ?_
  refine triple_bind (Q := fun _ => Counted) ?_ fun _ => (step_always _).raises fun _ _ _ => trivial
  cases recorded with
  | none =>
      refine triple_pure fun r hr => ?_
      unfold Counted
      rw [hr.2]
      exact hr.1
  | some recorded =>
      have hclose : Triple (fun r => Uncounted r ∧ r.assertions = some recorded) (step env.close)
          (fun _ r => r.assertions = some recorded) (fun _ _ => True) :=
        (step_always (I := fun r => r.assertions = some recorded) env.close).conseq
          (fun _ hr => hr.2) (fun _ _ hr => hr) fun _ _ _ => trivial
      refine triple_bind hclose fun _ => triple_update fun r hr => ?_
      unfold Counted
      dsimp only
      rw [hr]
      exact ⟨rfl, rfl⟩

theorem closeClause_assertions (env : Environment) (recorded : Option (List Assertion)) :
    Always (fun r => r.assertions = recorded) (closeClause env) := by
  unfold closeClause
  have hstop : Always (fun r => r.assertions = recorded) (step env.stop) := step_always _
  refine triple_bind (Q := fun _ (r : Run) => r.assertions = recorded) (triple_read fun _ hr => hr)
    fun found => triple_bind (Q := fun _ (r : Run) => r.assertions = recorded) ?_ fun _ => hstop
  cases found with
  | none => exact always_pure _
  | some found => exact always_bind (step_always _) fun _ => triple_update fun _ hr => hr

/-- A result is written or not, and nothing else changes. -/
theorem write_always {I : Run → Prop}
    (hfile : ∀ r result, I r → I { r with resultFile := result }) (saved : Saved) :
    Always I (JsonResultWriter.write saved) := by
  unfold JsonResultWriter.write
  split
  · exact triple_update fun r hr => hfile r _ hr
  · exact always_throw _
  · exact always_bind (triple_update fun r hr => hfile r _ hr) fun _ => always_throw _
  · exact always_bind (triple_update fun r hr => hfile r _ hr) fun _ => always_throw _

/-- The report changes neither the assertions nor the counts. -/
theorem reportClause_always {I : Run → Prop}
    (hdone : ∀ r duration finished_at, I r → I { r with result :=
      { r.result with duration_seconds := duration, finished_at := finished_at } })
    (hreport : ∀ r report, I r → I { r with junitFile := report })
    (hfile : ∀ r result, I r → I { r with resultFile := result }) (name : String)
    (env : Environment) : Always I (reportClause name env) := by
  unfold reportClause
  refine always_bind (step_always _) fun _ => ?_
  refine always_bind (triple_update fun r hr => hdone r _ _ hr) fun _ => ?_
  refine triple_bind (Q := fun _ => I) (triple_read fun _ hr => hr) fun r => ?_
  refine always_bind (step_always _) fun _ => always_bind ?_ fun _ => ?_
  · unfold reportRun
    split
    · exact always_throw _
    · exact triple_update fun r hr => hreport r _ hr
  · exact write_always hfile env.last

/-- The run is over, and so is its log. -/
structure Finished (recorder : Recorder) (env : Surroundings) (w : Logged) : Prop where
  counted : Counted w.run
  ends : Ends recorder (.run_finished w.run.result.status env.duration w.run.result.check_count
    w.run.result.failure_count) w

theorem finallyClause_finished (hdisk : recorder.TakesAll) (definition : Definition)
    (env : Surroundings) :
    Triple (Under recorder) (finallyClause recorder definition env)
      (fun _ => Finished recorder env) (fun _ => Tells recorder) := by
  unfold finallyClause
  have hclose : Triple (Under recorder) (onRun (closeClause env.toEnvironment))
      (fun _ w => Tells recorder w ∧ Counted w.run) (fun _ => Tells recorder) :=
    ((onRun_tells (closeClause_assertions _)).and (onRun_rule (closeClause_counted _))).conseq
      (fun _ hw => hw) (fun _ _ hw => hw) fun _ _ hw => hw.1
  have hreport : Always (fun w => Tells recorder w ∧ Counted w.run)
      (onRun (reportClause definition.name env.toEnvironment)) :=
    ((onRun_tells fun recorded => reportClause_always (fun _ _ _ hr => hr) (fun _ _ hr => hr)
      (fun _ _ hr => hr) _ _).and (onRun_rule (reportClause_always (fun _ _ _ hr => hr)
      (fun _ _ hr => hr) (fun _ _ hr => hr) _ _))).conseq (fun _ hw => hw) (fun _ _ hw => hw)
      fun _ _ hw => hw
  refine triple_bind hclose fun _ => triple_bind (Q := fun _ w => Tells recorder w ∧ Counted w.run)
    (((emit_tells hdisk rfl).and (emit_keeps (P := Counted) _)).conseq (fun _ hw => hw)
      (fun _ _ hw => ⟨hw.1.tells, hw.2⟩) fun _ _ hw => hw.1) fun _ => ?_
  refine triple_bind (hreport.raises fun _ _ hw => hw.1) fun _ => ?_
  refine triple_bind (Q := fun result w => Tells recorder w ∧ Counted w.run ∧ w.run.result = result)
    (fun w hw => ⟨hw.1, hw.2, rfl⟩) fun result => ?_
  refine ((emit_tells hdisk rfl).and (emit_keeps (P := fun r => Counted r ∧ r.result = result)
    _)).conseq (fun _ hw => hw) (fun _ w hw => ⟨hw.2.1, ?_⟩) fun _ _ hw => hw.1
  rw [hw.2.2]
  exact hw.1

/-- **The run.** However it ends, the log is true of it; if it returns, the last event is
the one that says so. -/
theorem run_scenario_told (hdisk : recorder.TakesAll) (definition : Definition)
    (timeout : Option ℚ) (env : Surroundings) :
    Triple (· = .new) (run_scenario recorder definition timeout env)
      (fun _ => Finished recorder env) (fun _ => Tells recorder) := by
  unfold run_scenario
  have hwrite : Always (fun w : Logged => Under recorder w ∧ w.run.assertions = none)
      (onRun (JsonResultWriter.write env.first)) :=
    ((onRun_under (fun _ => write_always (fun _ _ hr => hr) _)
      (write_always (fun _ _ hr => hr) _)).and
      (onRun_rule (write_always (I := fun r => r.assertions = none) (fun _ _ hr => hr) _))).conseq
      (fun _ hw => hw) (fun _ _ hw => hw) fun _ _ hw => hw
  refine triple_bind (hwrite.conseq ?_ (fun _ _ hw => hw) fun _ _ hw => hw.1.1) fun _ => ?_
  · rintro w rfl
    exact ⟨⟨⟨[], told_new⟩, rfl, rfl⟩, rfl⟩
  refine triple_bind (((emit_under hdisk rfl).and
    (emit_keeps (P := fun r => r.assertions = none) _)).raises fun _ _ hw => hw.1.1) fun _ => ?_
  have hbody : Triple (fun w => Under recorder w ∧ w.run.assertions = none)
      (tryCatch (tryClause recorder definition timeout env) (exceptClauses recorder env))
      (fun _ => Under recorder) (fun _ => Under recorder) :=
    triple_tryCatch (tryClause_under hdisk definition timeout env) (exceptClauses_under hdisk env)
  have hclean := finallyClause_finished hdisk definition env
  refine triple_bind (Q := fun _ => Finished recorder env) (triple_ensure hbody (fun _ => hclean)
    fun _ => hclean.conseq (fun _ hw => hw) (fun _ _ hw => hw.ends.tells) fun _ _ hw => hw) ?_
  exact fun _ => triple_bind (Q := fun _ => Finished recorder env) (fun w hw => hw) fun _ =>
    triple_pure fun _ hw => hw

/-! ## Reading the log -/

theorem Holds.readLog {events : EventWriter} {records : List EventRecord}
    (h : Holds recorder events records) :
    readLog events.file = (records.map recorder.dict).map .object := by
  have hread := (readLog_lines (records.map recorder.dict) List.not_mem_nil).1
  rwa [List.append_nil, ← h.file] at hread

theorem Holds.cut {events : EventWriter} {records : List EventRecord}
    (h : Holds recorder events records) {seen : List UInt8} (hseen : seen <+: events.file) :
    ReadsCut (records.map recorder.dict) seen := readLog_cut (h.file ▸ hseen)

/-- **The log tells the run.** Whatever the scenario function does, however the run ends and
whichever records are refused: the file reads as records that are numbered in order, and
their assertions are assertions that the run recorded, in order; all of them, where no
number is missing. A file cut by a crash reads as a beginning of it. If the run returns, the
last record says how, with the counts of what was recorded. -/
theorem events_tell_run (recorder : Recorder) (hdisk : recorder.TakesAll)
    (definition : Definition) (timeout : Option ℚ) (env : Surroundings) :
    let ended := (run_scenario recorder definition timeout env).exec .new
    let w := ended.2
    let recorded := w.run.assertions.getD []
    ∃ records, readLog w.events.file = (records.map recorder.dict).map .object ∧
      (records.Pairwise fun a b => a.sequence < b.sequence) ∧
      (assertionsOf records).Sublist recorded ∧
      (records.length = w.events.sequence → assertionsOf records = recorded) ∧
      (∀ seen, seen <+: w.events.file → ReadsCut (records.map recorder.dict) seen) ∧
      ∀ code, ended.1 = .ok code → ∃ last, records.getLast? = some last ∧
        last.sequence + 1 = w.events.sequence ∧
        last.event = .run_finished w.run.result.status env.duration recorded.length
          (recorded.countP fun a => !a.passed) := by
  intro ended w recorded
  have hrun := run_scenario_told hdisk definition timeout env
  rcases hcode : ended.1 with e | code
  · obtain ⟨records, htold⟩ : Tells recorder w := hrun.of_error rfl (Prod.ext hcode rfl)
    refine ⟨records, htold.holds.readLog, htold.holds.ordered, htold.sublist, htold.all,
      fun seen => htold.holds.cut, fun code hreturn => ?_⟩
    cases hreturn
  · obtain ⟨hcounted, earlier, last, htold, hevent, hlast⟩ : Finished recorder env w :=
      hrun.of_ok rfl (Prod.ext hcode rfl)
    refine ⟨earlier ++ [last], htold.holds.readLog, htold.holds.ordered, htold.sublist, htold.all,
      fun seen => htold.holds.cut, fun _ _ => ⟨last, List.getLast?_concat .., hlast, ?_⟩⟩
    rw [hevent, hcounted.1, hcounted.2]

/-- A clock that stands still, a run of twelve seconds, and a log that refuses the second
check of a function. -/
def refusing : Recorder where
  utc_now := fun _ => "2026-01-05T09:00:00Z"
  float := fun _ => ⟨[0x31, 0x32, 0x2E, 0x30], by decide⟩
  written
    | 3 => .refused (.other "TypeError" "Type is not JSON serializable: bytes")
    | _ => .complete

/-- Nothing around the run goes wrong. -/
def quiet : Surroundings where
  toEnvironment := Scenario.quiet
  allocations := ⟨9631, 9632, 9633, none, true, 4711⟩
  stopped := true
  describe := fun _ => ("AssertionError", "")

/-- The log misses a check that the run counts. -/
theorem events_tell_run_refused :
    let battery : CheckArgs := ⟨true, "battery", "100", "100", ""⟩
    let payload : CheckArgs := ⟨false, "payload", "b'\\x00'", "b''", ""⟩
    let definition : Definition := ⟨"smoke",
      .check battery fun _ => .check payload fun _ => .returns, 60⟩
    let w := ((run_scenario refusing definition none quiet).exec .new).2
    ∃ records, readLog w.events.file = (records.map refusing.dict).map .object ∧
      (assertionsOf records).Sublist [battery.assertion, payload.assertion] ∧
      ∃ last, records.getLast? = some last ∧ last.sequence = 5 ∧
        last.event = .run_finished .failed 12 2 1 := by
  intro battery payload definition w
  have hdisk : refusing.TakesAll := by
    intro n bytes message h
    unfold refusing at h
    dsimp only at h
    split at h <;> cases h
  obtain ⟨records, hread, -, hsublist, -, -, hlast⟩ :=
    events_tell_run refusing hdisk definition none quiet
  obtain ⟨last, hlast, hsequence, hevent⟩ := hlast 1 rfl
  exact ⟨records, hread, hsublist, last, hlast, Nat.succ_injective hsequence, hevent⟩

end Told

/-! ## The run without its log -/

section Seen

variable (recorder : Recorder)

/-- How the emission with this number ends. -/
def Recorder.outcome (sequence : ℕ) : Except PyError Unit :=
  match recorder.written sequence with
  | .complete => .ok ()
  | .refused error => .error error
  | .cut _ message => .error (.other "OSError" message)

/-- How a command ends whose first event has this number, and the next number. -/
def Recorder.command (outcome : Except PyError ℤ) (sequence : ℕ) : Except PyError ℤ × ℕ :=
  match recorder.outcome sequence, outcome with
  | .error error, _ => (.error error, sequence + 1)
  | .ok (), .error error => (.error error, sequence + 1)
  | .ok (), .ok returncode =>
    ((recorder.outcome (sequence + 1)).map fun _ => returncode, sequence + 2)

/-- What a function is without the log: which events cannot be written decides how it goes
on, like what comes of its commands. -/
def Activity.seen : Activity → ℕ → ScenarioFunction
  | .returns, _ => .returns
  | .raises error, _ => .raises error
  | .check args next, sequence => .check args fun passed =>
    (next ((recorder.outcome sequence).map fun _ => passed)).seen (sequence + 1)
  | .require args next, sequence => .require args fun outcome =>
    (next (recorder.outcome sequence >>= fun _ => outcome)).seen (sequence + 1)
  | .run_command _ _ outcome next, sequence =>
    (next (recorder.command outcome sequence).1).seen (recorder.command outcome sequence).2

variable {recorder}

variable (recorder) in
/-- An emission takes a number, and leaves the run. -/
theorem emit_exec (event : Event) (w : Logged) :
    ∃ file, (emit recorder event).exec w = (recorder.outcome w.events.sequence,
      { w with events := ⟨w.events.sequence + 1, file⟩ }) := by
  unfold emit Recorder.outcome
  rw [exec_of]
  rcases recorder.written w.events.sequence with _ | error | ⟨bytes, message⟩
  · exact ⟨_, rfl⟩
  · exact ⟨_, rfl⟩
  · exact ⟨_, rfl⟩

/-- Without the log an emission is a step that ends as it does. -/
theorem emit_projects (event : Event) (w : Logged) :
    ProjectsAt Logged.run (emit recorder event) (step (recorder.outcome w.events.sequence)) w := by
  obtain ⟨file, hrun⟩ := emit_exec recorder event w
  unfold ProjectsAt
  rw [hrun, exec_step]

theorem emit_sequence {event : Event} {w w' : Logged}
    (h : (emit recorder event).exec w = (.ok (), w')) :
    w'.events.sequence = w.events.sequence + 1 := by
  obtain ⟨file, hrun⟩ := emit_exec recorder event w
  rw [hrun] at h
  rw [← (Prod.mk.inj h).2]

theorem onRun_projects {α : Type} (m : Effect Run PyError α) (w : Logged) :
    ProjectsAt Logged.run (onRun m) m w := projects_zoom (fun _ _ => rfl) m w

theorem onRun_sequence {α : Type} {m : Effect Run PyError α} {a : α} {w w' : Logged}
    (h : (onRun m).exec w = (.ok a, w')) : w'.events.sequence = w.events.sequence := by
  unfold onRun zoom at h
  rw [exec_of] at h
  rw [← (Prod.mk.inj h).2]

variable (recorder) in
/-- A check that is recorded, and then emitted or not. -/
theorem check_seen (suite : String) (args : CheckArgs) (w : Logged) :
    ∃ file, (check recorder suite args).exec w =
      ((recorder.outcome w.events.sequence).map fun _ => args.condition,
        ⟨((ScenarioContext.check args).exec w.run).2, w.events.sequence + 1, file⟩) := by
  obtain ⟨file, hrun⟩ := emit_exec recorder (.assertion suite args.assertion)
    { w with run := ((ScenarioContext.check args).exec w.run).2 }
  refine ⟨file, ?_⟩
  unfold check
  rw [exec_bind]
  change exec (emit recorder (.assertion suite args.assertion) >>= fun _ =>
    pure args.condition) { w with run := ((ScenarioContext.check args).exec w.run).2 } = _
  rw [exec_bind, hrun]
  rcases recorder.outcome w.events.sequence with e | ⟨⟩ <;> rfl

variable (recorder) in
theorem require_seen (suite : String) (args : CheckArgs) (w : Logged) :
    ∃ file, (require recorder suite args).exec w =
      (recorder.outcome w.events.sequence >>= fun _ =>
          ((ScenarioContext.require args).exec w.run).1,
        ⟨((ScenarioContext.require args).exec w.run).2, w.events.sequence + 1, file⟩) := by
  obtain ⟨file, hrun⟩ := check_seen recorder suite args w
  refine ⟨file, ?_⟩
  unfold require
  rw [exec_bind, hrun, require_exec, check_exec]
  rcases recorder.outcome w.events.sequence with e | ⟨⟩
  · rfl
  · cases hcondition : args.condition <;> rfl

variable (recorder) in
/-- A command changes nothing of the run. -/
theorem run_command_seen (command : List String) (cwd : String) (outcome : Except PyError ℤ)
    (w : Logged) :
    ∃ file, (run_command recorder command cwd outcome).exec w =
      ((recorder.command outcome w.events.sequence).1,
        ⟨w.run, (recorder.command outcome w.events.sequence).2, file⟩) := by
  obtain ⟨file, hstarted⟩ := emit_exec recorder (.command_started command cwd) w
  unfold run_command Recorder.command
  rw [exec_bind, hstarted]
  rcases recorder.outcome w.events.sequence with e | ⟨⟩
  · exact ⟨file, rfl⟩
  dsimp only
  rw [exec_bind, exec_lift]
  rcases outcome with e | returncode
  · exact ⟨file, rfl⟩
  obtain ⟨later, hfinished⟩ := emit_exec recorder
    (.command_finished command returncode) { w with events := ⟨w.events.sequence + 1, file⟩ }
  refine ⟨later, ?_⟩
  dsimp only at hfinished ⊢
  rw [exec_bind, hfinished]
  rcases recorder.outcome (w.events.sequence + 1) with e | ⟨⟩ <;> rfl

/-- By induction on the tree, as `activity_working`. -/
theorem activity_seen (suite : String) (activity : Activity) : ∀ w,
    ProjectsAt Logged.run (activity.run recorder suite)
      (activity.seen recorder w.events.sequence).run w := by
  induction activity with
  | returns => exact projects_pure _
  | raises error => exact projects_throw _
  | check args next ih =>
      intro w
      obtain ⟨file, hrun⟩ := check_seen recorder suite args w
      have hnext := ih ((recorder.outcome w.events.sequence).map fun _ => args.condition)
        ⟨((ScenarioContext.check args).exec w.run).2, w.events.sequence + 1, file⟩
      unfold ProjectsAt at hnext ⊢
      rw [Activity.run, exec_bind, exec_attempt, hrun, Activity.seen, ScenarioFunction.run,
        exec_bind]
      exact hnext
  | require args next ih =>
      intro w
      obtain ⟨file, hrun⟩ := require_seen recorder suite args w
      have hnext := ih (recorder.outcome w.events.sequence >>= fun _ =>
        ((ScenarioContext.require args).exec w.run).1)
        ⟨((ScenarioContext.require args).exec w.run).2, w.events.sequence + 1, file⟩
      unfold ProjectsAt at hnext ⊢
      rw [Activity.run, exec_bind, exec_attempt, hrun, Activity.seen, ScenarioFunction.run,
        exec_bind, exec_attempt]
      exact hnext
  | run_command command cwd outcome next ih =>
      intro w
      obtain ⟨file, hrun⟩ := run_command_seen recorder command cwd outcome w
      have hnext := ih (recorder.command outcome w.events.sequence).1
        ⟨w.run, (recorder.command outcome w.events.sequence).2, file⟩
      unfold ProjectsAt at hnext ⊢
      rw [Activity.run, exec_bind, exec_attempt, hrun, Activity.seen]
      exact hnext

/-- The numbers of the events of a run, outside its function: those of an exception and of
the clean-up depend on how far it came. -/
def numbers (exception stopped : ℕ) : Emission → ℕ
  | .run_started => 0
  | .simulator_started => 1
  | .exception => exception
  | .simulator_stopped => stopped
  | .run_finished => stopped + 1

theorem tryClause_seen {definition : Definition} {timeout : Option ℚ} {env : Surroundings}
    {emits : Emission → Except PyError Unit} (hemits : emits .simulator_started = recorder.outcome 1)
    {w : Logged} (hw : w.events.sequence = 1) :
    ProjectsAt Logged.run (tryClause recorder definition timeout env)
      (Scenario.tryClause ⟨definition.name, definition.function.seen recorder 2,
        definition.timeout⟩ timeout { env.toEnvironment with emit := emits }) w := by
  refine projects_bind (onRun_projects _ w) fun _ w1 h1 => ?_
  have hone : w1.events.sequence = 1 := (onRun_sequence h1).trans hw
  refine projects_bind (n := step (emits .simulator_started)) ?_ fun _ w2 h2 => ?_
  · rw [hemits, ← hone]
    exact emit_projects _ w1
  refine projects_bind (onRun_projects _ w2) fun _ w3 h3 => ?_
  have htwo : w3.events.sequence = 2 := by rw [onRun_sequence h3, emit_sequence h2, hone]
  refine projects_bind ?_ fun _ w4 h4 => onRun_projects _ w4
  have hlimit : (ScenarioDefinition.mk definition.name (definition.function.seen recorder 2)
      definition.timeout).limit timeout = definition.limit timeout := rfl
  unfold withDeadline Scenario.withDeadline
  rw [hlimit]
  split_ifs
  · exact projects_throw _ w3
  · rw [← htwo]
    exact activity_seen definition.name definition.function w3

theorem exceptClauses_seen {env : Surroundings} {emits : Emission → Except PyError Unit}
    {error : PyError} {w : Logged}
    (hexception : emits .exception = recorder.outcome w.events.sequence) :
    ProjectsAt Logged.run (exceptClauses recorder env error)
      (Scenario.exceptClauses { env.toEnvironment with emit := emits } error) w := by
  refine projects_bind (onRun_projects _ w) fun _ w1 h1 => ?_
  change ProjectsAt Logged.run (emit recorder _) (step (emits .exception)) w1
  rw [hexception, ← onRun_sequence h1]
  exact emit_projects _ w1

theorem finallyClause_seen {definition : Definition} {function : ScenarioFunction}
    {env : Surroundings} {emits : Emission → Except PyError Unit} {w : Logged}
    (hstopped : emits .simulator_stopped = recorder.outcome w.events.sequence)
    (hfinished : emits .run_finished = recorder.outcome (w.events.sequence + 1)) :
    ProjectsAt Logged.run (finallyClause recorder definition env)
      (Scenario.finallyClause ⟨definition.name, function, definition.timeout⟩
        { env.toEnvironment with emit := emits }) w := by
  refine projects_bind (onRun_projects _ w) fun _ w1 h1 => ?_
  have hone := onRun_sequence h1
  refine projects_bind (n := step (emits .simulator_stopped)) ?_ fun _ w2 h2 => ?_
  · rw [hstopped, ← hone]
    exact emit_projects _ w1
  refine projects_bind (onRun_projects _ w2) fun _ w3 h3 => ?_
  have hthree : w3.events.sequence = w.events.sequence + 1 := by
    rw [onRun_sequence h3, emit_sequence h2, hone]
  -- the last event has what the result says
  change ProjectsAt Logged.run (emit recorder _) (step (emits .run_finished)) w3
  rw [hfinished, ← hthree]
  exact emit_projects _ w3

/-- **The run without its log** is a run of `run_scenario` as `Ptlab.Scenario` has it, in an
environment in which those emissions raise that the recorder does not take. -/
theorem run_scenario_seen (recorder : Recorder) (definition : Definition) (timeout : Option ℚ)
    (env : Surroundings) :
    ∃ exception stopped, ∃ emits : Emission → Except PyError Unit,
      (∀ emission, emits emission = recorder.outcome (numbers exception stopped emission)) ∧
      ProjectsAt Logged.run (run_scenario recorder definition timeout env)
        (Scenario.run_scenario ⟨definition.name, definition.function.seen recorder 2,
          definition.timeout⟩ timeout { env.toEnvironment with emit := emits }) .new := by
  let started := ((onRun (JsonResultWriter.write env.first) >>= fun _ =>
    emit recorder (.run_started definition.name)).exec .new).2
  let tried := ((tryClause recorder definition timeout env).exec started).2
  let left := (exec (tryCatch (tryClause recorder definition timeout env)
    (exceptClauses recorder env)) started).2
  let emits := fun emission =>
    recorder.outcome (numbers tried.events.sequence left.events.sequence emission)
  refine ⟨tried.events.sequence, left.events.sequence, emits, fun _ => rfl, ?_⟩
  refine projects_bind (onRun_projects _ .new) fun _ w1 h1 => ?_
  have hnone : w1.events.sequence = 0 := onRun_sequence h1
  refine projects_bind (n := step (recorder.outcome 0)) ?_ fun _ w2 h2 => ?_
  · rw [← hnone]
    exact emit_projects _ w1
  have hone : w2.events.sequence = 1 := by rw [emit_sequence h2, hnone]
  have hstarted : started = w2 := by
    change ((onRun _ >>= fun _ => _).exec Logged.new).2 = w2
    rw [exec_bind, h1]
    exact congrArg Prod.snd h2
  have hbody : ProjectsAt Logged.run
      (tryCatch (tryClause recorder definition timeout env) (exceptClauses recorder env))
      (tryCatch (Scenario.tryClause ⟨definition.name, definition.function.seen recorder 2,
          definition.timeout⟩ timeout { env.toEnvironment with emit := emits })
        (Scenario.exceptClauses { env.toEnvironment with emit := emits })) w2 := by
    refine projects_tryCatch (tryClause_seen rfl hone) fun error w3 h3 => exceptClauses_seen ?_
    have htried : tried = w3 := by
      change ((tryClause recorder definition timeout env).exec started).2 = w3
      rw [hstarted, h3]
    rw [← htried]
    rfl
  refine projects_bind (projects_ensure hbody (finallyClause_seen ?_ ?_)) fun _ w5 h5 => ?_
  · rw [← hstarted]
    rfl
  · rw [← hstarted]
    rfl
  · exact projects_bind (onRun_projects _ w5) fun result w6 h6 => projects_pure _ w6

end Seen

end Ptlab.Scenario.Events
