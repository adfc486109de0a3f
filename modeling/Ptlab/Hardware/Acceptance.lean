/-
The physical acceptance run (`run_acceptance_plan` of `src/ptlab/hardware.py`)
on a bench that replies as it likes.

A `Bench` is the probe, ADB, the operator and the checkpoint, each as a function of
all the dealings so far. The run carries one flag through the steps: the rejection
of an unbonded read is asked for until a Linux probe has succeeded. Android steps
and failures leave it as it is. `StepDoes` says once what a step can do;
`acceptance_verdict` follows from it by induction on the sequence.
-/
import Ptlab.Hardware.Pairing
import Ptlab.Control.Response

set_option autoImplicit false

open Effect

namespace Ptlab.Hardware

/-! ## Plans -/

/-- `AcceptancePeer.kind`. -/
inductive PeerKind where
  | linux
  | android
  /-- A kind that `AcceptancePlan.load` refuses. -/
  | unsupported (kind : String)
  deriving DecidableEq, Repr

structure AcceptancePeer where
  label : String
  kind : PeerKind
  address : Option String
  name : Option String
  adapter : Option String
  serial : Option String
  allow_eviction : Bool
  deriving DecidableEq, Repr

/-- The `capacity_check` of a plan. -/
structure CapacityCheck where
  survivor : String
  evicted : String
  new_peer : String
  deriving DecidableEq, Repr

structure AcceptancePlan where
  watch_label : String
  peers : List AcceptancePeer
  sequence : List String
  capacity_check : Option CapacityCheck
  deriving DecidableEq, Repr

/-- The entry of `{peer.label: peer for peer in plan.peers}`: the last one stays. -/
def AcceptancePlan.peer (plan : AcceptancePlan) (label : String) : Option AcceptancePeer :=
  plan.peers.reverse.find? fun peer => peer.label = label

/-! ## Results -/

/-- How a step ended. -/
inductive Verdict where
  | pass
  | fail
  | skip
  deriving DecidableEq, Repr

/-- The verdict that an operator's answer is, if it is one. -/
def Verdict.parse (answer : String) : Option Verdict :=
  if answer = "pass" then some .pass
  else if answer = "fail" then some .fail
  else if answer = "skip" then some .skip
  else none

/-- What `AdbHardware.snapshot` returns, but for what it copies. -/
structure AdbSnapshot where
  model : String
  android_sdk : String
  bluetooth_evidence : List String
  deriving DecidableEq, Repr

inductive Evidence where
  | probe (result : ProbeResult)
  | android (snapshot : AdbSnapshot)
  | error (text : String)
  deriving DecidableEq, Repr

/-- An entry of `steps`. -/
structure Step where
  index : ℕ
  peer : String
  kind : PeerKind
  status : Verdict
  evidence : Evidence
  deriving DecidableEq, Repr

/-- The `capacity_check` of a result. -/
structure Capacity where
  check : CapacityCheck
  status : Verdict
  instruction : String
  deriving DecidableEq, Repr

/-- The status of a result. -/
inductive RunStatus where
  | running
  | passed
  | failed
  | incomplete
  deriving DecidableEq, Repr

structure BatteryPreflight where
  reported_percent : ℤ
  reported_voltage_mv : ℤ
  minimum_percent : ℤ
  deriving DecidableEq, Repr

structure AcceptanceResult where
  watch_label : String
  status : RunStatus
  battery_preflight : BatteryPreflight
  steps : List Step
  capacity_check : Option Capacity
  deriving DecidableEq, Repr

/-! ## The bench -/

/-- One dealing of the run. -/
inductive BenchEvent where
  | probe (endpoint : BleEndpoint) (require_authentication_rejection allow_eviction : Bool)
      (reply : Except PyExc ProbeResult)
  | launch_app (serial : String) (reply : Except PyExc Unit)
  | snapshot (serial : String) (watch_address : Option String) (reply : Except PyExc AdbSnapshot)
  | operator (prompt : String) (reply : Except PyExc String)
  | checkpoint (result : AcceptanceResult) (reply : Except PyExc Unit)

/-- How the probe, ADB, the operator and the checkpoint reply. `contract` is what
`CharacteristicContract.load` does. -/
structure Bench where
  contract : Except PyExc CharacteristicContract
  probe : List BenchEvent → BleakHardware → BleEndpoint → Bool → Bool → Except PyExc ProbeResult
  launch_app : List BenchEvent → String → Except PyExc Unit
  snapshot : List BenchEvent → String → Option String → Except PyExc AdbSnapshot
  operator : List BenchEvent → String → Except PyExc String
  checkpoint : Option (List BenchEvent → AcceptanceResult → Except PyExc Unit)

/-- A computation on the bench. -/
abbrev OnBench (α : Type) : Type := Effect (List BenchEvent) PyExc α

/-- An `AdbHardware`. `__init__` lets no other through. -/
structure AdbHardware where
  serial : String
  not_blank : ¬ serial.toList.all Control.isSpace

/-- `AdbHardware.__init__`. -/
def AdbHardware.init (serial : String) : Except PyExc AdbHardware :=
  if h : serial.toList.all Control.isSpace then
    .error (ValueError "ADB serial cannot be empty")
  else .ok ⟨serial, h⟩

/-- The exceptions that make a step fail. Any other ends the run. -/
def caught (error : PyExc) : Bool :=
  match error.kind with
  | .HardwareError => true
  | .OSError => true
  | .SubprocessError => true
  | .ValueError => true
  | .Exception => "bleak".toList <+: error.module.toList
  | .BaseException => false

/-- `acceptance_battery_preflight`. -/
def acceptance_battery_preflight (reported_percent reported_voltage_mv minimum_percent : ℤ) :
    Except PyExc BatteryPreflight :=
  if ¬ (0 ≤ reported_percent ∧ reported_percent ≤ 100) then
    .error (ValueError "reported battery percent must be between 0 and 100")
  else if ¬ (2500 ≤ reported_voltage_mv ∧ reported_voltage_mv ≤ 5000) then
    .error (ValueError "reported battery voltage must be between 2500 and 5000 mV")
  else if ¬ (1 ≤ minimum_percent ∧ minimum_percent ≤ 100) then
    .error (ValueError "minimum battery percent must be between 1 and 100")
  else if reported_percent < minimum_percent then
    .error (HardwareError (s!"watch reports {reported_percent}% battery; physical acceptance " ++
      s!"requires at least {minimum_percent}%"))
  else .ok ⟨reported_percent, reported_voltage_mv, minimum_percent⟩

/-! ## The run -/

section Run

variable (py : Builtins) (bench : Bench) (plan : AcceptancePlan) (hardware : BleakHardware)
  (preflight : BatteryPreflight)

/-- Ask the operator. -/
def askOperator (prompt : String) : OnBench String :=
  ask (fun log => bench.operator log prompt) (.operator prompt)

/-- The operator's answer as a verdict. -/
def supported (answer : String) : Except PyExc Verdict :=
  match Verdict.parse answer with
  | none => .error (ValueError s!"operator returned unsupported result {py.repr answer}")
  | some verdict => .ok verdict

/-- What the operator is asked in a step. -/
def stepPrompt (index : ℕ) (label : String) : String :=
  s!"Step {index}: on {label}, pair only if Android requests it, read {plan.watch_label}'s " ++
    "battery, then release the connection"

/-- A step on Linux, up to an exception: the verdict, the evidence and the flag. -/
def linuxStep (peer : AcceptancePeer) (first_linux_probe : Bool) :
    OnBench (Verdict × Evidence × Bool) := do
  let endpoint ← lift (BleEndpoint.init peer.address peer.name peer.adapter)
  let evidence ←
    ask (fun log => bench.probe log hardware endpoint first_linux_probe peer.allow_eviction)
      (.probe endpoint first_linux_probe peer.allow_eviction)
  return (.pass, .probe evidence, false)

/-- A step on another peer, up to an exception. -/
def androidStep (index : ℕ) (label : String) (peer : AcceptancePeer) (first_linux_probe : Bool) :
    OnBench (Verdict × Evidence × Bool) := do
  let adb ← lift (AdbHardware.init (peer.serial.getD ""))
  ask (fun log => bench.launch_app log adb.serial) (.launch_app adb.serial)
  let evidence ← ask (fun log => bench.snapshot log adb.serial peer.address)
    (.snapshot adb.serial peer.address)
  let answer ← askOperator bench (stepPrompt plan index label)
  let status ← lift (supported py answer)
  return (status, .android evidence, first_linux_probe)

/-- A step with its two exception filters. -/
def tryStep (index : ℕ) (label : String) (peer : AcceptancePeer) (first_linux_probe : Bool) :
    OnBench (Verdict × Evidence × Bool) :=
  tryCatch
    (if peer.kind = .linux then linuxStep bench hardware peer first_linux_probe
      else androidStep py bench plan index label peer first_linux_probe)
    fun error =>
      if caught error then return (.fail, .error error.summary, first_linux_probe)
      else throw error

/-- `checkpoint(result)`, if there is a checkpoint. -/
def hand (result : AcceptanceResult) : OnBench Unit :=
  match bench.checkpoint with
  | none => pure ()
  | some save => ask (fun log => save log result) (.checkpoint result)

/-- `result(status, capacity)`. -/
def resultOf (steps : List Step) (status : RunStatus) (capacity : Option Capacity) :
    AcceptanceResult :=
  ⟨plan.watch_label, status, preflight, steps, capacity⟩

/-- `peers[label]`. -/
def peerOf (label : String) : Except PyExc AcceptancePeer :=
  match plan.peer label with
  | none => .error ⟨.Exception, "builtins", "KeyError", py.repr label⟩
  | some peer => .ok peer

/-- The loop over the sequence, from a step on. -/
def runSteps : List String → ℕ → List Step → Bool → OnBench (List Step)
  | [], _, steps, _ => pure steps
  | label :: labels, index, steps, first_linux_probe => do
    let peer ← lift (peerOf py plan label)
    let (status, evidence, first_linux_probe) ←
      tryStep py bench plan hardware index label peer first_linux_probe
    let steps := steps ++ [⟨index, label, peer.kind, status, evidence⟩]
    hand bench (resultOf plan preflight steps .running none)
    runSteps labels (index + 1) steps first_linux_probe

/-- What the operator is asked about the capacity. -/
def instructions (check : CapacityCheck) : String :=
  s!"With five peers retained, touch {check.survivor} so it is MRU; " ++
    s!"pair {check.new_peer} as the sixth peer; without repairing, " ++
    s!"confirm {check.survivor} still verifies and {check.evicted} no longer verifies"

/-- The capacity stage. -/
def capacityStage (steps : List Step) : OnBench (Option Capacity) :=
  match plan.capacity_check with
  | none => return none
  | some check => do
    let answer ← askOperator bench (instructions check)
    let status ← lift (supported py answer)
    let capacity : Capacity := ⟨check, status, instructions check⟩
    hand bench (resultOf plan preflight steps .running (some capacity))
    return some capacity

/-- The statuses that the overall one is made of. -/
def statuses (steps : List Step) (capacity : Option Capacity) : List Verdict :=
  steps.map Step.status ++ (capacity.map Capacity.status).toList

/-- The overall status. -/
def overall (statuses : List Verdict) : RunStatus :=
  if .fail ∈ statuses then .failed
  else if .skip ∈ statuses then .incomplete
  else .passed

theorem default_timeout_pos : (0 : ℚ) < 30 := by norm_num

/-- `BleakHardware(contract)`, with the default timeout. -/
def defaultHardware (contract : CharacteristicContract) : BleakHardware :=
  ⟨contract, 30, default_timeout_pos⟩

/-- `run_acceptance_plan`. -/
def run_acceptance_plan (reported_battery_percent reported_battery_mv minimum_battery_percent : ℤ) :
    OnBench AcceptanceResult := do
  let preflight ← lift (acceptance_battery_preflight reported_battery_percent reported_battery_mv
    minimum_battery_percent)
  let contract ← lift bench.contract
  hand bench (resultOf plan preflight [] .running none)
  let steps ← runSteps py bench plan (defaultHardware contract) preflight plan.sequence 1 [] true
  let capacity ← capacityStage py bench plan preflight steps
  let final := resultOf plan preflight steps (overall (statuses steps capacity)) capacity
  hand bench final
  return final

end Run

/-! ## What one step does -/

/-- A call of the probe. -/
def BenchEvent.IsProbe : BenchEvent → Bool
  | .probe .. => true
  | _ => false

/-- A call of the probe that returned. -/
def BenchEvent.Succeeded : BenchEvent → Prop
  | .probe _ _ _ (.ok _) => True
  | _ => False

theorem BenchEvent.Succeeded.isProbe {event : BenchEvent} (h : event.Succeeded) :
    event.IsProbe = true := by
  cases event with
  | probe endpoint require allow reply => rfl
  | _ => exact h.elim

/-- A call of the checkpoint. -/
def BenchEvent.IsCheckpoint : BenchEvent → Bool
  | .checkpoint .. => true
  | _ => false

theorem BenchEvent.not_isProbe {event : BenchEvent} (h : event.IsCheckpoint = true) :
    event.IsProbe = false := by
  cases event with
  | checkpoint => rfl
  | _ => cases h

section StepDoes

variable (plan : AcceptancePlan) (index : ℕ) (label : String) (peer : AcceptancePeer)

/-- How a step on another peer ends with an exception: there is no serial, one of its
three dealings raises, or the operator's answer is no verdict. -/
inductive AndroidFails : List BenchEvent → PyExc → Prop
  | serial (error : PyExc) (h : AdbHardware.init (peer.serial.getD "") = .error error) :
      AndroidFails [] error
  | launch_app (serial : String) (error : PyExc) :
      AndroidFails [.launch_app serial (.error error)] error
  | snapshot (serial : String) (error : PyExc) :
      AndroidFails [.launch_app serial (.ok ()), .snapshot serial peer.address (.error error)] error
  | operator (serial : String) (snapshot : AdbSnapshot) (error : PyExc) :
      AndroidFails [.launch_app serial (.ok ()), .snapshot serial peer.address (.ok snapshot),
        .operator (stepPrompt plan index label) (.error error)] error
  | unsupported (serial : String) (snapshot : AdbSnapshot) (answer message : String)
      (hanswer : Verdict.parse answer = none) :
      AndroidFails [.launch_app serial (.ok ()), .snapshot serial peer.address (.ok snapshot),
        .operator (stepPrompt plan index label) (.ok answer)] (ValueError message)

/-- What a step that does not end the run does, given the flag: the events, the
verdict, the evidence and the flag after it. -/
inductive StepDoes (first : Bool) : List BenchEvent → Verdict → Evidence → Bool → Prop
  /-- A Linux peer that is not an endpoint. -/
  | noEndpoint (error : PyExc) (hkind : peer.kind = .linux) (hcaught : caught error) :
      StepDoes first [] .fail (.error error.summary) first
  | probed (endpoint : BleEndpoint) (result : ProbeResult) (hkind : peer.kind = .linux) :
      StepDoes first [.probe endpoint first peer.allow_eviction (.ok result)] .pass
        (.probe result) false
  | rejected (endpoint : BleEndpoint) (error : PyExc) (hkind : peer.kind = .linux)
      (hcaught : caught error) :
      StepDoes first [.probe endpoint first peer.allow_eviction (.error error)] .fail
        (.error error.summary) first
  /-- Another peer: the verdict is the operator's answer. -/
  | operated (serial : String) (snapshot : AdbSnapshot) (answer : String) (verdict : Verdict)
      (hkind : peer.kind ≠ .linux) (hanswer : Verdict.parse answer = some verdict) :
      StepDoes first [.launch_app serial (.ok ()), .snapshot serial peer.address (.ok snapshot),
        .operator (stepPrompt plan index label) (.ok answer)] verdict (.android snapshot) first
  | failed (events : List BenchEvent) (error : PyExc) (hkind : peer.kind ≠ .linux)
      (hfails : AndroidFails plan index label peer events error) (hcaught : caught error) :
      StepDoes first events .fail (.error error.summary) first

end StepDoes

section Steps

variable {py : Builtins} {bench : Bench} {plan : AcceptancePlan} {hardware : BleakHardware}
  {preflight : BatteryPreflight}

/-- Neither a call of the probe nor one of the checkpoint. -/
def BenchEvent.Aside : BenchEvent → Prop
  | .probe .. => False
  | .checkpoint .. => False
  | _ => True

theorem BenchEvent.Aside.isProbe {event : BenchEvent} (h : event.Aside) :
    event.IsProbe = false := by
  cases event with
  | probe => exact h.elim
  | _ => rfl

section Adds

variable {p : BenchEvent → Prop}

theorem adds_hand (h : ∀ result reply, p (.checkpoint result reply)) (result : AcceptanceResult) :
    Adds p (hand bench result) := by
  unfold hand
  split
  · exact adds_pure _
  · exact adds_ask fun log => h result _

variable (bench) in
theorem adds_hand_isCheckpoint (result : AcceptanceResult) :
    Adds (fun event => event.IsCheckpoint = true) (hand bench result) :=
  adds_hand (fun _ _ => rfl) result

variable (haside : ∀ event : BenchEvent, event.Aside → p event)
include haside

theorem adds_askOperator (prompt : String) : Adds p (askOperator bench prompt) :=
  adds_ask fun _ => haside _ trivial

theorem adds_androidStep (index : ℕ) (label : String) (peer : AcceptancePeer) (first : Bool) :
    Adds p (androidStep py bench plan index label peer first) := by
  refine adds_bind (adds_lift _) fun adb => ?_
  refine adds_bind (adds_ask fun _ => haside _ trivial) fun _ => ?_
  refine adds_bind (adds_ask fun _ => haside _ trivial) fun _ => ?_
  exact adds_bind (adds_askOperator haside _) fun _ => adds_bind (adds_lift _) fun _ => adds_pure _

/-- A step adds what its probe adds, if it has one. -/
theorem adds_tryStep {index : ℕ} {label : String} {peer : AcceptancePeer} {first : Bool}
    (hlinux : peer.kind = .linux → Adds p (linuxStep bench hardware peer first)) :
    Adds p (tryStep py bench plan hardware index label peer first) := by
  unfold tryStep
  refine adds_tryCatch ?_ fun error => ?_
  · by_cases hkind : peer.kind = .linux
    · rw [if_pos hkind]
      exact hlinux hkind
    · rw [if_neg hkind]
      exact adds_androidStep haside index label peer first
  · split
    · exact adds_pure _
    · exact adds_throw _

end Adds

/-- An exception that a step catches leaves the flag as it is. -/
theorem handler_ok {error : PyExc} {first first' : Bool} {verdict : Verdict} {evidence : Evidence}
    {log log' : List BenchEvent}
    (h : exec (if caught error then pure (.fail, .error error.summary, first) else throw error :
      OnBench (Verdict × Evidence × Bool)) log = (.ok (verdict, evidence, first'), log')) :
    caught error ∧ verdict = .fail ∧ evidence = .error error.summary ∧ first' = first ∧
      log' = log := by
  split at h
  · rename_i hcaught
    obtain ⟨heq, rfl⟩ := exec_pure_ok.mp h
    injection heq with hverdict heq
    injection heq with hevidence hfirst
    exact ⟨hcaught, hverdict.symm, hevidence.symm, hfirst.symm, rfl⟩
  · exact absurd h exec_throw_ok

theorem linuxStep_exec (peer : AcceptancePeer) (first : Bool) (log : List BenchEvent) :
    (∃ error, (linuxStep bench hardware peer first).exec log = (.error error, log)) ∨
    (∃ endpoint result, (linuxStep bench hardware peer first).exec log =
      (.ok (.pass, .probe result, false),
        log ++ [.probe endpoint first peer.allow_eviction (.ok result)])) ∨
    (∃ endpoint error, (linuxStep bench hardware peer first).exec log =
      (.error error, log ++ [.probe endpoint first peer.allow_eviction (.error error)])) := by
  unfold linuxStep
  rw [exec_bind, exec_lift]
  rcases BleEndpoint.init peer.address peer.name peer.adapter with error | endpoint
  · exact .inl ⟨error, rfl⟩
  · right
    dsimp only
    rw [exec_bind, exec_ask]
    rcases bench.probe log hardware endpoint first peer.allow_eviction with error | result
    · exact .inr ⟨endpoint, error, rfl⟩
    · exact .inl ⟨endpoint, result, rfl⟩

theorem androidStep_exec (index : ℕ) (label : String) (peer : AcceptancePeer) (first : Bool)
    (log : List BenchEvent) :
    (∃ serial snapshot answer verdict, Verdict.parse answer = some verdict ∧
      (androidStep py bench plan index label peer first).exec log =
        (.ok (verdict, .android snapshot, first), log ++ [.launch_app serial (.ok ()),
          .snapshot serial peer.address (.ok snapshot),
          .operator (stepPrompt plan index label) (.ok answer)])) ∨
    (∃ error events, AndroidFails plan index label peer events error ∧
      (androidStep py bench plan index label peer first).exec log =
        (.error error, log ++ events)) := by
  unfold androidStep askOperator
  rw [exec_bind, exec_lift]
  rcases hserial : AdbHardware.init (peer.serial.getD "") with error | adb
  · exact .inr ⟨error, [], .serial error hserial, by rw [List.append_nil]⟩
  dsimp only
  rw [exec_bind, exec_ask]
  rcases bench.launch_app log adb.serial with error | ⟨⟩
  · exact .inr ⟨error, _, .launch_app adb.serial error, rfl⟩
  dsimp only
  rw [exec_bind, exec_ask]
  rcases bench.snapshot _ adb.serial peer.address with error | snapshot
  · exact .inr ⟨error, _, .snapshot adb.serial error, by rw [List.append_assoc]; rfl⟩
  dsimp only
  rw [exec_bind, exec_ask]
  rcases bench.operator _ (stepPrompt plan index label) with error | answer
  · exact .inr ⟨error, _, .operator adb.serial snapshot error, by
      rw [List.append_assoc, List.append_assoc]; rfl⟩
  dsimp only
  rw [exec_bind, exec_lift]
  unfold supported
  rcases hanswer : Verdict.parse answer with _ | verdict
  · exact .inr ⟨_, _, .unsupported adb.serial snapshot answer _ hanswer, by
      rw [List.append_assoc, List.append_assoc]; rfl⟩
  · exact .inl ⟨adb.serial, snapshot, answer, verdict, hanswer, by
      rw [List.append_assoc, List.append_assoc]; rfl⟩

/-- **The step.** -/
theorem tryStep_ok {index : ℕ} {label : String} {peer : AcceptancePeer} {first first' : Bool}
    {verdict : Verdict} {evidence : Evidence} {log log' : List BenchEvent}
    (h : (tryStep py bench plan hardware index label peer first).exec log =
      (.ok (verdict, evidence, first'), log')) :
    ∃ events, log' = log ++ events ∧
      StepDoes plan index label peer first events verdict evidence first' := by
  unfold tryStep at h
  by_cases hkind : peer.kind = .linux
  · rw [if_pos hkind, exec_tryCatch] at h
    -- the three ends of a Linux step: no endpoint, a result, an exception
    rcases @linuxStep_exec bench hardware peer first log with
      ⟨error, hrun⟩ | ⟨endpoint, result, hrun⟩ | ⟨endpoint, error, hrun⟩ <;> rw [hrun] at h
    · obtain ⟨hcaught, rfl, rfl, rfl, rfl⟩ := handler_ok h
      exact ⟨[], (List.append_nil _).symm, .noEndpoint error hkind hcaught⟩
    · obtain ⟨heq, rfl⟩ := Prod.mk.inj h
      obtain ⟨rfl, rfl, rfl⟩ := by simpa using heq
      exact ⟨_, rfl, .probed endpoint result hkind⟩
    · obtain ⟨hcaught, rfl, rfl, rfl, rfl⟩ := handler_ok h
      exact ⟨_, rfl, .rejected endpoint error hkind hcaught⟩
  · rw [if_neg hkind, exec_tryCatch] at h
    rcases @androidStep_exec py bench plan index label peer first log with
      ⟨serial, snapshot, answer, answered, hanswer, hrun⟩ | ⟨error, events, hfails, hrun⟩ <;>
      rw [hrun] at h
    · obtain ⟨heq, rfl⟩ := Prod.mk.inj h
      obtain ⟨rfl, rfl, rfl⟩ := by simpa using heq
      exact ⟨_, rfl, .operated serial snapshot answer answered hkind hanswer⟩
    · obtain ⟨hcaught, rfl, rfl, rfl, rfl⟩ := handler_ok h
      exact ⟨events, rfl, .failed events error hkind hfails hcaught⟩

theorem AndroidFails.not_isProbe {index : ℕ} {label : String} {peer : AcceptancePeer}
    {events : List BenchEvent} {error : PyExc}
    (h : AndroidFails plan index label peer events error) :
    ∀ event ∈ events, event.IsProbe = false := by
  cases h with
  | serial => exact fun event hevent => absurd hevent List.not_mem_nil
  | launch_app => simp [BenchEvent.IsProbe]
  | snapshot => simp [BenchEvent.IsProbe]
  | operator => simp [BenchEvent.IsProbe]
  | unsupported => simp [BenchEvent.IsProbe]

/-! ## What the steps have done -/

/-- The demand is made as long as no probe has succeeded. -/
def Demanded (before : List BenchEvent) : BenchEvent → Prop
  | .probe _ require_authentication_rejection _ _ =>
    require_authentication_rejection = true ↔ ∀ event ∈ before, ¬ event.Succeeded
  | _ => True

theorem demanded_of_not_isProbe {before : List BenchEvent} {event : BenchEvent}
    (h : event.IsProbe = false) : Demanded before event := by
  cases event with
  | probe endpoint require allow reply => cases h
  | _ => trivial

/-- The first probe is the one of the first Linux step, and makes the demand. -/
def FirstProbe (steps : List Step) (events : List BenchEvent) : Prop :=
  match steps.find? fun step => step.kind = .linux with
  | none => events.find? BenchEvent.IsProbe = none
  | some step => ∃ endpoint allow_eviction result, step.evidence = .probe result ∧
      events.find? BenchEvent.IsProbe = some (.probe endpoint true allow_eviction (.ok result))

/-- What holds between one step and the next, `labels` being over. -/
structure StepsDone (labels : List String) (steps : List Step) (first : Bool)
    (events : List BenchEvent) : Prop where
  named : steps.map (fun step => (step.peer, step.index)) = labels.zipIdx 1
  flag : first = true ↔ ∀ event ∈ events, ¬ event.Succeeded
  demands : Each Demanded events
  firstProbe : (∀ step ∈ steps, step.status = .pass) → FirstProbe steps events

/-- What was dealt apart from the checkpoints. -/
def dealings (events : List BenchEvent) : List BenchEvent :=
  events.filter fun event => !event.IsCheckpoint

theorem dealings_append (events events' : List BenchEvent) :
    dealings (events ++ events') = dealings events ++ dealings events' := List.filter_append ..

theorem dealings_checkpoints {events : List BenchEvent}
    (h : ∀ event ∈ events, event.IsCheckpoint = true) : dealings events = [] :=
  List.filter_eq_nil_iff.mpr fun event hevent => by simp [h event hevent]

/-- A step makes no checkpoint itself. -/
theorem StepDoes.dealings_eq {plan : AcceptancePlan} {index : ℕ} {label : String}
    {peer : AcceptancePeer} {first first' : Bool} {events : List BenchEvent} {verdict : Verdict}
    {evidence : Evidence} (h : StepDoes plan index label peer first events verdict evidence first') :
    dealings events = events := by
  cases h with
  | noEndpoint => rfl
  | probed => rfl
  | rejected => rfl
  | operated => rfl
  | failed events error hkind hfails hcaught => cases hfails <;> rfl

/-- The recorded step is what its dealings make it. -/
def Made (plan : AcceptancePlan) (step : Step) (events : List BenchEvent) : Prop :=
  ∃ peer first first', plan.peer step.peer = some peer ∧ step.kind = peer.kind ∧
    StepDoes plan step.index step.peer peer first events step.status step.evidence first'

/-- So is the capacity check, whose status is the operator's answer. -/
def CapacityMade : Option Capacity → List BenchEvent → Prop
  | none, events => events = []
  | some capacity, events => ∃ answer, Verdict.parse answer = some capacity.status ∧
      events = [.operator capacity.instruction (.ok answer)]

/-- The dealings so far, step for step. -/
def Recorded (plan : AcceptancePlan) (steps : List Step) (events : List BenchEvent) : Prop :=
  ∃ slices : List (List BenchEvent), dealings events = slices.flatten ∧
    List.Forall₂ (Made plan) steps slices

theorem Recorded.init {events : List BenchEvent}
    (h : ∀ event ∈ events, event.IsCheckpoint = true) : Recorded plan [] events :=
  ⟨[], dealings_checkpoints h, .nil⟩

theorem Recorded.step {steps : List Step} {events stepEvents handEvents : List BenchEvent}
    {step : Step} (hsteps : Recorded plan steps events) (hstep : Made plan step stepEvents)
    (hhand : ∀ event ∈ handEvents, event.IsCheckpoint = true) :
    Recorded plan (steps ++ [step]) (events ++ stepEvents ++ handEvents) := by
  obtain ⟨slices, hslices, hmade⟩ := hsteps
  have heq : dealings stepEvents = stepEvents := by
    obtain ⟨peer, first, first', -, -, hdoes⟩ := hstep
    exact hdoes.dealings_eq
  refine ⟨slices ++ [stepEvents], ?_, List.rel_append hmade (.cons hstep .nil)⟩
  rw [dealings_append, dealings_append, dealings_checkpoints hhand, List.append_nil, hslices, heq,
    List.flatten_append, List.flatten_singleton]

theorem not_succeeded {events : List BenchEvent} (h : ∀ event ∈ events, event.IsProbe = false) :
    ∀ event ∈ events, ¬ event.Succeeded := by
  intro event hevent hsucceeded
  have hprobe := hsucceeded.isProbe
  rw [h event hevent] at hprobe
  cases hprobe

theorem find_isProbe {events : List BenchEvent} (h : ∀ event ∈ events, event.IsProbe = false) :
    events.find? BenchEvent.IsProbe = none :=
  List.find?_eq_none.mpr fun event hevent => by simp [h event hevent]

/-- Once there is a first probe, what comes behind it does not matter. -/
theorem FirstProbe.append {steps steps' : List Step} {events events' : List BenchEvent}
    (h : FirstProbe steps events)
    (hnew : (∀ step ∈ steps, step.kind ≠ .linux) → events.find? BenchEvent.IsProbe = none →
      FirstProbe steps' events') : FirstProbe (steps ++ steps') (events ++ events') := by
  unfold FirstProbe at h hnew ⊢
  rw [List.find?_append, List.find?_append]
  rcases hfind : steps.find? (fun step => step.kind = .linux) with _ | step <;> rw [hfind] at h
  · dsimp only at h
    rw [hfind, h, Option.none_or, Option.none_or]
    refine hnew (fun step hstep => ?_) h
    simpa using List.find?_eq_none.mp hfind step hstep
  · obtain ⟨endpoint, allow, result, hevidence, hevents⟩ := h
    rw [hfind, hevents, Option.some_or, Option.some_or]
    exact ⟨endpoint, allow, result, hevidence, rfl⟩

theorem StepsDone.init {events : List BenchEvent} (h : ∀ event ∈ events, event.IsProbe = false) :
    StepsDone [] [] true events where
  named := rfl
  flag := iff_of_true rfl (not_succeeded h)
  demands := each_of_forall fun _ event hevent => demanded_of_not_isProbe (h event hevent)
  firstProbe := fun _ => find_isProbe h

theorem flag_append {first : Bool} {events events' : List BenchEvent}
    (h : first = true ↔ ∀ event ∈ events, ¬ event.Succeeded)
    (h' : ∀ event ∈ events', ¬ event.Succeeded) :
    first = true ↔ ∀ event ∈ events ++ events', ¬ event.Succeeded := by
  rw [h]
  constructor
  · intro hall event hevent
    rcases List.mem_append.mp hevent with hevent | hevent
    · exact hall event hevent
    · exact h' event hevent
  · intro hall event hevent
    exact hall event (List.mem_append_left _ hevent)

theorem demands_append {events events' : List BenchEvent} (h : Each Demanded events)
    (h' : ∀ event ∈ events', event.IsProbe = false) : Each Demanded (events ++ events') :=
  each_append.mpr ⟨h, each_of_forall fun _ event hevent =>
    demanded_of_not_isProbe (h' event hevent)⟩

/-- Dealings that are not with the probe change nothing. -/
theorem StepsDone.append {labels : List String} {steps : List Step} {first : Bool}
    {events events' : List BenchEvent} (hdone : StepsDone labels steps first events)
    (h : ∀ event ∈ events', event.IsProbe = false) :
    StepsDone labels steps first (events ++ events') where
  named := hdone.named
  flag := flag_append hdone.flag (not_succeeded h)
  demands := demands_append hdone.demands h
  firstProbe := by
    intro hpass
    have hfirst : FirstProbe (steps ++ []) (events ++ events') := (hdone.firstProbe hpass).append
      fun _ _ => find_isProbe h
    rwa [List.append_nil] at hfirst

/-- **One more step.** -/
theorem StepsDone.step {labels : List String} {steps : List Step} {first first' : Bool}
    {events events' : List BenchEvent} {peer : AcceptancePeer} {verdict : Verdict}
    {evidence : Evidence} (hdone : StepsDone labels steps first events)
    {label : String}
    (hstep : StepDoes plan (labels.length + 1) label peer first events' verdict evidence first') :
    StepsDone (labels ++ [label])
      (steps ++ [⟨labels.length + 1, label, peer.kind, verdict, evidence⟩]) first'
      (events ++ events') := by
  have hnamed : (steps ++ [(⟨labels.length + 1, label, peer.kind, verdict, evidence⟩ : Step)]).map
      (fun step => (step.peer, step.index)) = (labels ++ [label]).zipIdx 1 := by
    rw [List.map_append, hdone.named, List.zipIdx_append, Nat.add_comm]
    rfl
  have hbefore : (∀ step ∈ steps ++
        [(⟨labels.length + 1, label, peer.kind, verdict, evidence⟩ : Step)],
      step.status = .pass) → FirstProbe steps events ∧ verdict = .pass := fun hpass =>
    ⟨hdone.firstProbe fun step hmem => hpass step (List.mem_append_left _ hmem),
      hpass _ (List.mem_append_right _ (List.mem_singleton_self _))⟩
  -- a step without the probe leaves the flag, and what is known of the first probe
  have hother : peer.kind ≠ .linux → (∀ event ∈ events', event.IsProbe = false) →
      StepsDone (labels ++ [label])
        (steps ++ [⟨labels.length + 1, label, peer.kind, verdict, evidence⟩]) first
        (events ++ events') := by
    intro hkind hevents
    refine ⟨hnamed, flag_append hdone.flag (not_succeeded hevents),
      demands_append hdone.demands hevents, fun hpass => ?_⟩
    refine (hbefore hpass).1.append fun _ _ => ?_
    unfold FirstProbe
    rw [List.find?_cons_of_neg (by simpa using hkind)]
    exact find_isProbe hevents
  cases hstep with
  | noEndpoint error hkind hcaught =>
      rw [List.append_nil]
      refine ⟨hnamed, hdone.flag, hdone.demands, fun hpass => ?_⟩
      cases (hbefore hpass).2
  | probed endpoint result hkind =>
      refine ⟨hnamed, ?_, ?_, fun hpass => ?_⟩
      · refine iff_of_false Bool.false_ne_true fun hall => ?_
        exact hall _ (List.mem_append_right _ (List.mem_singleton_self _)) trivial
      · refine each_append.mpr ⟨hdone.demands, each_singleton.mpr ?_⟩
        rw [List.append_nil]
        exact hdone.flag
      · -- no Linux step yet, so none has succeeded and this probe makes the demand
        refine (hbefore hpass).1.append fun _ hnone => ?_
        have hfirst : first = true := hdone.flag.mpr (not_succeeded fun event hevent => by
          simpa using List.find?_eq_none.mp hnone event hevent)
        unfold FirstProbe
        rw [List.find?_cons_of_pos (by simp [hkind]), hfirst]
        exact ⟨endpoint, peer.allow_eviction, result, rfl, rfl⟩
  | rejected endpoint error hkind hcaught =>
      refine ⟨hnamed, flag_append hdone.flag ?_, ?_, fun hpass => ?_⟩
      · intro event hevent
        rw [List.mem_singleton.mp hevent]
        exact id
      · refine each_append.mpr ⟨hdone.demands, each_singleton.mpr ?_⟩
        rw [List.append_nil]
        exact hdone.flag
      · cases (hbefore hpass).2
  | operated serial snapshot answer verdict hkind hanswer =>
      exact hother hkind (by simp [BenchEvent.IsProbe])
  | failed events' error hkind hfails hcaught => exact hother hkind hfails.not_isProbe

theorem peerOf_ok {label : String} {peer : AcceptancePeer}
    (h : peerOf py plan label = .ok peer) : plan.peer label = some peer := by
  unfold peerOf at h
  rcases hpeer : plan.peer label with _ | found <;> rw [hpeer] at h
  · cases h
  · injection h with h
    rw [h]

theorem supported_ok {answer : String} {verdict : Verdict}
    (h : supported py answer = .ok verdict) : Verdict.parse answer = some verdict := by
  unfold supported at h
  rcases hparse : Verdict.parse answer with _ | parsed <;> rw [hparse] at h
  · cases h
  · injection h with h
    rw [h]

/-- **The loop.** By induction on what is left of the sequence. -/
theorem runSteps_ok {rest : List String} : ∀ {labels : List String} {steps steps' : List Step}
    {first : Bool} {events log log' : List BenchEvent}, StepsDone labels steps first events →
    Recorded plan steps events →
    (runSteps py bench plan hardware preflight rest (labels.length + 1) steps first).exec
      (log ++ events) = (.ok steps', log') →
    ∃ first' events', log' = log ++ events' ∧
      StepsDone (labels ++ rest) steps' first' events' ∧ Recorded plan steps' events' := by
  induction rest with
  | nil =>
      intro labels steps steps' first events log log' hdone hrecorded h
      obtain ⟨rfl, rfl⟩ := exec_pure_ok.mp h
      exact ⟨first, events, rfl, by rwa [List.append_nil], hrecorded⟩
  | cons label rest ih =>
      intro labels steps steps' first events log log' hdone hrecorded h
      unfold runSteps at h
      obtain ⟨peer, log₁, hpeer, h⟩ := exec_bind_ok.mp h
      obtain ⟨hfound, rfl⟩ := exec_lift_ok.mp hpeer
      obtain ⟨⟨verdict, evidence, first'⟩, log₂, htry, h⟩ := exec_bind_ok.mp h
      obtain ⟨stepEvents, rfl, hstep⟩ := tryStep_ok htry
      -- the checkpoint behind the step changes nothing that is kept track of
      obtain ⟨u, log₃, hhand, h⟩ := exec_bind_ok.mp h
      obtain ⟨handEvents, hlog, hevents⟩ := adds_hand_isCheckpoint bench (resultOf plan preflight
        (steps ++ [⟨labels.length + 1, label, peer.kind, verdict, evidence⟩]) .running none)
        (log ++ events ++ stepEvents)
      rw [hhand] at hlog
      dsimp only at hlog
      obtain rfl : log₃ = log ++ (events ++ stepEvents ++ handEvents) := by
        rw [hlog]
        simp only [List.append_assoc]
      have hnext := (hdone.step hstep).append fun event hevent =>
        BenchEvent.not_isProbe (hevents event hevent)
      have hmade : Made plan ⟨labels.length + 1, label, peer.kind, verdict, evidence⟩ stepEvents :=
        ⟨peer, first, first', peerOf_ok hfound, rfl, hstep⟩
      obtain ⟨first'', events', hlog', hdone', hrecorded'⟩ :=
        ih hnext (hrecorded.step hmade hevents) (by simpa using h)
      exact ⟨first'', events', hlog', by simpa using hdone', hrecorded'⟩

theorem capacityStage_ok {steps : List Step} {log log' : List BenchEvent}
    {capacity : Option Capacity}
    (h : (capacityStage py bench plan preflight steps).exec log = (.ok capacity, log')) :
    capacity.isSome = plan.capacity_check.isSome ∧ ∃ events, log' = log ++ events ∧
      (∀ event ∈ events, event.IsProbe = false) ∧ CapacityMade capacity (dealings events) := by
  unfold capacityStage at h
  rcases hplan : plan.capacity_check with _ | check <;> rw [hplan] at h
  · obtain ⟨rfl, rfl⟩ := exec_pure_ok.mp h
    exact ⟨rfl, [], (List.append_nil _).symm, fun _ h => absurd h List.not_mem_nil, rfl⟩
  · obtain ⟨answer, log₁, hask, h⟩ := exec_bind_ok.mp h
    obtain ⟨-, rfl⟩ := exec_ask_ok.mp hask
    obtain ⟨status, log₂, hstatus, h⟩ := exec_bind_ok.mp h
    obtain ⟨hparsed, rfl⟩ := exec_lift_ok.mp hstatus
    obtain ⟨u, log₃, hhand, h⟩ := exec_bind_ok.mp h
    obtain ⟨handEvents, hlog, hevents⟩ := adds_hand_isCheckpoint bench
      (resultOf plan preflight steps .running (some ⟨check, status, instructions check⟩))
      (log ++ [.operator (instructions check) (.ok answer)])
    rw [hhand] at hlog
    obtain rfl : log₃ = _ := hlog
    obtain ⟨rfl, rfl⟩ := exec_pure_ok.mp h
    refine ⟨rfl, .operator (instructions check) (.ok answer) :: handEvents, ?_, ?_, ?_⟩
    · rw [List.append_assoc]
      rfl
    · exact List.forall_mem_cons.mpr ⟨rfl, fun event hevent =>
        BenchEvent.not_isProbe (hevents event hevent)⟩
    · refine ⟨answer, supported_ok hparsed, ?_⟩
      rw [← List.singleton_append, dealings_append, dealings_checkpoints hevents, List.append_nil]
      rfl

end Steps

/-! ## The overall status -/

theorem overall_passed (statuses : List Verdict) :
    overall statuses = .passed ↔ ∀ verdict ∈ statuses, verdict = .pass := by
  unfold overall
  constructor
  · intro h verdict hmem
    split_ifs at h with hfail hskip
    cases verdict with
    | pass => rfl
    | fail => exact absurd hmem hfail
    | skip => exact absurd hmem hskip
  · intro h
    rw [if_neg fun hfail => absurd (h _ hfail) (by decide),
      if_neg fun hskip => absurd (h _ hskip) (by decide)]

theorem overall_failed (statuses : List Verdict) :
    overall statuses = .failed ↔ .fail ∈ statuses := by
  unfold overall
  split_ifs with hfail hskip
  · exact iff_of_true rfl hfail
  · exact iff_of_false (by decide) hfail
  · exact iff_of_false (by decide) hfail

theorem overall_incomplete (statuses : List Verdict) :
    overall statuses = .incomplete ↔
      ¬ (∀ verdict ∈ statuses, verdict = .pass) ∧ .fail ∉ statuses := by
  rw [← overall_passed, ← overall_failed]
  unfold overall
  split_ifs <;> decide

theorem overall_ne_running (statuses : List Verdict) : overall statuses ≠ .running := by
  unfold overall
  split_ifs <;> decide

/-- What is said of a result that is returned, and of the dealings that led to
it. -/
structure Accepted (plan : AcceptancePlan) (final : AcceptanceResult) (events : List BenchEvent) :
    Prop where
  /-- One step for each element of the sequence, numbered from 1. -/
  steps : final.steps.map (fun step => (step.peer, step.index)) = plan.sequence.zipIdx 1
  capacity : final.capacity_check.isSome = plan.capacity_check.isSome
  passed : final.status = .passed ↔
    ∀ verdict ∈ statuses final.steps final.capacity_check, verdict = .pass
  failed : final.status = .failed ↔ .fail ∈ statuses final.steps final.capacity_check
  incomplete : final.status = .incomplete ↔
    ¬ (∀ verdict ∈ statuses final.steps final.capacity_check, verdict = .pass) ∧
      .fail ∉ statuses final.steps final.capacity_check
  /-- A probe demands the rejection if and only if none before it has succeeded. -/
  demands : Each Demanded events
  firstProbe : final.status = .passed → FirstProbe final.steps events
  /-- Each step and the capacity check have the verdict that their own dealings give. -/
  made : ∃ slices asked, dealings events = slices.flatten ++ asked ∧
    List.Forall₂ (Made plan) final.steps slices ∧ CapacityMade final.capacity_check asked

/-- **The verdict of an acceptance run** that returns is right, whatever happened
in its steps. -/
theorem acceptance_verdict (py : Builtins) (bench : Bench) (plan : AcceptancePlan)
    (reported_battery_percent reported_battery_mv minimum_battery_percent : ℤ)
    (log log' : List BenchEvent) (final : AcceptanceResult)
    (h : (run_acceptance_plan py bench plan reported_battery_percent reported_battery_mv
      minimum_battery_percent).exec log = (.ok final, log')) :
    ∃ events, log' = log ++ events ∧ Accepted plan final events := by
  unfold run_acceptance_plan at h
  obtain ⟨preflight, log₁, hpreflight, h⟩ := exec_bind_ok.mp h
  obtain ⟨-, rfl⟩ := exec_lift_ok.mp hpreflight
  obtain ⟨contract, log₂, hcontract, h⟩ := exec_bind_ok.mp h
  obtain ⟨-, rfl⟩ := exec_lift_ok.mp hcontract
  obtain ⟨u, log₃, hstart, h⟩ := exec_bind_ok.mp h
  obtain ⟨startEvents, hlog, hstartEvents⟩ :=
    adds_hand_isCheckpoint bench (resultOf plan preflight [] .running none) log
  rw [hstart] at hlog
  obtain rfl : log₃ = log ++ startEvents := hlog
  obtain ⟨steps, log₄, hsteps, h⟩ := exec_bind_ok.mp h
  obtain ⟨first, events, rfl, hdone, hrecorded⟩ := runSteps_ok (StepsDone.init fun event hevent =>
    BenchEvent.not_isProbe (hstartEvents event hevent)) (Recorded.init hstartEvents) hsteps
  obtain ⟨capacity, log₅, hcapacity, h⟩ := exec_bind_ok.mp h
  obtain ⟨hsome, capacityEvents, rfl, hcapacityEvents, hmade⟩ := capacityStage_ok hcapacity
  obtain ⟨u', log₆, hfinal, h⟩ := exec_bind_ok.mp h
  obtain ⟨finalEvents, hlog, hfinalEvents⟩ := adds_hand_isCheckpoint bench
    (resultOf plan preflight steps (overall (statuses steps capacity)) capacity)
    (log ++ events ++ capacityEvents)
  rw [hfinal] at hlog
  obtain rfl : log₆ = log ++ events ++ capacityEvents ++ finalEvents := hlog
  obtain ⟨rfl, rfl⟩ := exec_pure_ok.mp h
  -- what held behind the loop still holds behind the stage and the last checkpoint
  have hall := (hdone.append hcapacityEvents).append fun event hevent =>
    BenchEvent.not_isProbe (hfinalEvents event hevent)
  rw [List.nil_append] at hall
  obtain ⟨slices, hslices, hsteps'⟩ := hrecorded
  refine ⟨events ++ capacityEvents ++ finalEvents, by simp only [List.append_assoc], hall.named,
    hsome, overall_passed _, overall_failed _, overall_incomplete _,
    hall.demands, fun hpassed => hall.firstProbe fun step hstep => ?_, slices,
    dealings capacityEvents, ?_, hsteps', hmade⟩
  · exact (overall_passed _).mp hpassed step.status
      (List.mem_append_left _ (List.mem_map_of_mem hstep))
  · rw [dealings_append, dealings_append, dealings_checkpoints hfinalEvents, List.append_nil,
      hslices]

/-! ## A run -/

/-- A laptop and a phone. -/
def familyPlan : AcceptancePlan where
  watch_label := "Kid A"
  peers :=
    [⟨"phone", .android, none, none, none, some "phone-a", false⟩,
      ⟨"laptop", .linux, some "AA:BB:CC:DD:EE:FF", none, none, none, false⟩]
  sequence := ["phone", "laptop", "phone"]
  capacity_check := none

/-- A bench on which the probe fails and the operator says what is given. -/
def familyBench (answer : Except PyExc String) : Bench where
  contract := .ok ⟨"battery", "firmware_revision", "companion_status", "companion_verify"⟩
  probe _ _ _ _ _ := .error (HardwareError "watch was not advertising")
  launch_app _ _ := .ok ()
  snapshot _ _ _ := .ok ⟨"Pixel", "35", []⟩
  operator _ _ := answer
  checkpoint := some fun _ _ => .ok ()

theorem acceptance_verdict_family : ∃ final log',
    (run_acceptance_plan ⟨id, id, id, fun _ => ""⟩ (familyBench (.ok "pass")) familyPlan 40 3750
      40).exec [] = (.ok final, log') ∧ final.status = .failed ∧
    ∃ events, log' = [] ++ events ∧ Accepted familyPlan final events :=
  ⟨_, _, rfl, rfl, acceptance_verdict ⟨id, id, id, fun _ => ""⟩ (familyBench (.ok "pass"))
    familyPlan 40 3750 40 [] _ _ rfl⟩

end Ptlab.Hardware
