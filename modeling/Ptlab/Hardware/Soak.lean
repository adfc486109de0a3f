/-
The side-by-side observation of two watches (`run_soak` of `src/ptlab/hardware.py`,
and `BleakHardware.observe_pair` under it).

`result` is a variable that the run changes as it goes on, so the handler finds in
it whatever was sampled before the exception. The observation lasts until the
clock has reached the deadline; `fuel` bounds the rounds that are looked at, and
`none` means that it is still going on then.
-/
import Ptlab.Hardware.Acceptance

set_option autoImplicit false

open Effect

namespace Ptlab.Hardware

/-! ## Samples -/

/-- What the scanner reports. -/
structure Advertisement where
  device : Device
  local_name : Option String
  deriving DecidableEq, Repr

/-- One sample of a watch, but for its time. -/
structure Sample where
  visible : Bool
  address : Option String
  name : Option String
  deriving DecidableEq, Repr

/-- The dict `found` of a round. -/
structure Found where
  candidate : Option Device
  baseline : Option Device
  deriving DecidableEq, Repr

/-- The test of `detected` for one endpoint. -/
def detects (py : Builtins) (endpoint : BleEndpoint) (advertisement : Advertisement) : Bool :=
  let address := py.casefold (advertisement.device.address.getD "None")
  (truthy endpoint.address && address = py.casefold (endpoint.address.getD "")) ||
    (truthy endpoint.name &&
      (endpoint.name = advertisement.local_name || endpoint.name = advertisement.device.name))

/-- `detected`. -/
def detected (py : Builtins) (candidate baseline : BleEndpoint) (found : Found)
    (advertisement : Advertisement) : Found where
  candidate :=
    if detects py candidate advertisement then some advertisement.device else found.candidate
  baseline :=
    if detects py baseline advertisement then some advertisement.device else found.baseline

/-- The sample of a watch, from its entry in `found`. -/
def sampleOf (endpoint : BleEndpoint) : Option Device → Sample
  | none => ⟨false, endpoint.address, endpoint.name⟩
  | some device => ⟨true, device.address, device.name⟩

/-! ## Results -/

/-- The entry of one watch. -/
structure WatchRecord where
  endpoint : BleEndpoint
  battery_start : Option UInt8
  battery_end : Option UInt8
  battery_delta : Option ℤ
  advertising_samples : List Sample
  deriving DecidableEq, Repr

/-- The result of a soak, but for its times. -/
structure SoakResult where
  status : RunStatus
  candidate : WatchRecord
  baseline : WatchRecord
  error : Option String
  deriving DecidableEq, Repr

/-- The record of a watch before anything was read. -/
def WatchRecord.empty (endpoint : BleEndpoint) : WatchRecord := ⟨endpoint, none, none, none, []⟩

def WatchRecord.setStart (record : WatchRecord) (percent : UInt8) : WatchRecord :=
  { record with battery_start := some percent }

def WatchRecord.setEnd (record : WatchRecord) (percent : UInt8) : WatchRecord :=
  { record with battery_end := some percent }

/-- `battery_end - battery_start`, where both were read. -/
def WatchRecord.setDelta (record : WatchRecord) : WatchRecord :=
  { record with
    battery_delta := record.battery_end.bind fun stop =>
      record.battery_start.map fun start => (stop.toNat : ℤ) - start.toNat }

def WatchRecord.push (record : WatchRecord) (sample : Sample) : WatchRecord :=
  { record with advertising_samples := record.advertising_samples ++ [sample] }

/-- Change the entry of the candidate. -/
def SoakResult.onCandidate (f : WatchRecord → WatchRecord) (result : SoakResult) : SoakResult :=
  { result with candidate := f result.candidate }

/-- Change the entry of the baseline. -/
def SoakResult.onBaseline (f : WatchRecord → WatchRecord) (result : SoakResult) : SoakResult :=
  { result with baseline := f result.baseline }

/-- `visibility_passed`. -/
def SoakResult.visible (result : SoakResult) : Bool :=
  (result.candidate.advertising_samples ++ result.baseline.advertising_samples).all Sample.visible

/-- The status at the end. -/
def SoakResult.finish (result : SoakResult) : SoakResult :=
  { result with status := if result.visible then .passed else .failed }

/-- What the handler makes of the result. -/
def SoakResult.fail (error : PyExc) (result : SoakResult) : SoakResult :=
  { result with status := .failed, error := some error.summary }

/-! ## The bench -/

/-- One dealing of a soak. -/
inductive SoakEvent where
  | read_battery (endpoint : BleEndpoint) (reply : Except PyExc UInt8)
  | monotonic (reply : Except PyExc ℚ)
  /-- The scanner is on for so long, and these were reported. -/
  | scan (adapter : Option String) (seconds : ℚ) (reply : Except PyExc (List Advertisement))
  | sleep (seconds : ℚ) (reply : Except PyExc Unit)
  | checkpoint (result : SoakResult) (reply : Except PyExc Unit)

structure SoakBench where
  installed : Bool
  read_battery : List SoakEvent → BleEndpoint → Except PyExc UInt8
  monotonic : List SoakEvent → ℚ
  scan : List SoakEvent → Option String → ℚ → Except PyExc (List Advertisement)
  sleep : List SoakEvent → ℚ → Except PyExc Unit
  checkpoint : Option (List SoakEvent → SoakResult → Except PyExc Unit)

/-- A computation of a soak: its result so far, and the dealings. -/
abbrev Soak (α : Type) : Type := Effect (SoakResult × List SoakEvent) PyExc α

section Run

variable (py : Builtins) (bench : SoakBench) (candidate baseline : BleEndpoint)
  (duration interval scan_window : ℚ)

/-- `checkpoint(result)`, if there is a checkpoint. -/
def save : Soak Unit := do
  let result ← Effect.read Prod.fst
  match bench.checkpoint with
  | none => pure ()
  | some save => outside (ask (fun log => save log result) (.checkpoint result))

/-- `time.monotonic()`. -/
def monotonic : Soak ℚ := outside (ask (fun log => .ok (bench.monotonic log)) .monotonic)

def batteryOf (endpoint : BleEndpoint) : Soak UInt8 :=
  outside (ask (fun log => bench.read_battery log endpoint) (.read_battery endpoint))

/-- The callback of `run_soak`. -/
def sampled (candidate_sample baseline_sample : Sample) : Soak Unit := do
  assign (SoakResult.onCandidate fun record => record.push candidate_sample)
  assign (SoakResult.onBaseline fun record => record.push baseline_sample)
  save bench

/-- The rounds of `observe_pair` up to the deadline. -/
def rounds (deadline : ℚ) : ℕ → Soak (Option Unit)
  | 0 => return none
  | fuel + 1 => do
    let started ← monotonic bench
    let advertisements ← outside (ask (fun log => bench.scan log candidate.adapter scan_window)
      (.scan candidate.adapter scan_window))
    let found := advertisements.foldl (detected py candidate baseline) ⟨none, none⟩
    sampled bench (sampleOf candidate found.candidate) (sampleOf baseline found.baseline)
    let now ← monotonic bench
    if now ≥ deadline then return some ()
    else do
      let after ← monotonic bench
      let last ← monotonic bench
      let pause := min (max 0 (interval - (after - started))) (deadline - last)
      outside (ask (fun log => bench.sleep log pause) (.sleep pause))
      rounds deadline fuel

/-- `BleakHardware.observe_pair`, with the callback of `run_soak`. -/
def observe_pair (fuel : ℕ) : Soak (Option Unit) := do
  if duration ≤ 0 ∨ interval ≤ 0 ∨ scan_window ≤ 0 then
    throw (ValueError "advertising duration, interval, and scan window must be positive")
  else if scan_window > interval then
    throw (ValueError "scan window cannot exceed the observation interval")
  else if candidate.adapter ≠ baseline.adapter then
    throw (ValueError "candidate and baseline must use the same BlueZ adapter")
  else if !bench.installed then
    throw (HardwareError "Bleak is not installed; run `uv sync --group hardware` and retry")
  else do
    let start ← monotonic bench
    rounds py bench candidate baseline interval scan_window (start + duration) fuel

/-- The `try` of `run_soak`. -/
def soakBody (fuel : ℕ) : Soak (Option SoakResult) := do
  let percent ← batteryOf bench candidate
  assign (SoakResult.onCandidate fun record => record.setStart percent)
  let percent ← batteryOf bench baseline
  assign (SoakResult.onBaseline fun record => record.setStart percent)
  save bench
  let observed ← observe_pair py bench candidate baseline duration interval scan_window fuel
  match observed with
  | none => return none
  | some _ => do
    let percent ← batteryOf bench candidate
    assign (SoakResult.onCandidate fun record => record.setEnd percent)
    let percent ← batteryOf bench baseline
    assign (SoakResult.onBaseline fun record => record.setEnd percent)
    assign (SoakResult.onCandidate WatchRecord.setDelta)
    assign (SoakResult.onBaseline WatchRecord.setDelta)
    assign SoakResult.finish
    save bench
    let result ← Effect.read Prod.fst
    return some result

/-- Its handler. -/
def soakHandler (error : PyExc) : Soak (Option SoakResult) :=
  if !error.isException then throw error
  else do
    assign (SoakResult.fail error)
    save bench
    throw error

/-- `run_soak`. `none` means that it is still going on. -/
def run_soak (fuel : ℕ) : Effect (List SoakEvent) PyExc (Option SoakResult) :=
  if candidate = baseline then throw (ValueError "candidate and baseline watches must differ")
  else
    withLocal ⟨.running, .empty candidate, .empty baseline, none⟩ do
      save bench
      tryCatch (soakBody py bench candidate baseline duration interval scan_window fuel)
        (soakHandler bench)

end Run

/-! ## The rule of a soak

What a soak keeps is a matter of its single dealings. `I` holds between them, `B`
when a window has been scanned and its samples are still to be taken, and `E` when
an exception is raised.
-/

section Rule

variable {py : Builtins} {bench : SoakBench} {candidate baseline : BleEndpoint}
  {duration interval scan_window : ℚ} {I : SoakResult × List SoakEvent → Prop}
  {B : List Advertisement → SoakResult × List SoakEvent → Prop}
  {E : PyExc → SoakResult × List SoakEvent → Prop}

/-- What each dealing has to do. -/
structure SoakSteps (py : Builtins) (bench : SoakBench) (candidate baseline : BleEndpoint)
    (scan_window : ℚ) (I : SoakResult × List SoakEvent → Prop)
    (B : List Advertisement → SoakResult × List SoakEvent → Prop)
    (E : PyExc → SoakResult × List SoakEvent → Prop) : Prop where
  battery : ∀ endpoint, Triple I (batteryOf bench endpoint) (fun _ => I) E
  clock : Triple I (monotonic bench) (fun _ => I) E
  scan : candidate.adapter = baseline.adapter →
    Triple I (outside (ask (fun log => bench.scan log candidate.adapter scan_window)
      (.scan candidate.adapter scan_window))) B E
  sampled : candidate.adapter = baseline.adapter → ∀ advertisements : List Advertisement,
    Triple (B advertisements)
      (sampled bench
        (sampleOf candidate
          (advertisements.foldl (detected py candidate baseline) ⟨none, none⟩).candidate)
        (sampleOf baseline
          (advertisements.foldl (detected py candidate baseline) ⟨none, none⟩).baseline))
      (fun _ => I) E
  sleep : ∀ pause, Triple I (outside (ask (fun log => bench.sleep log pause) (.sleep pause)))
    (fun _ => I) E
  save : Triple I (save bench) (fun _ => I) E
  /-- What is entered but for the samples. -/
  candidate : ∀ f : WatchRecord → WatchRecord,
    (∀ record, (f record).advertising_samples = record.advertising_samples) →
      Triple I (assign (SoakResult.onCandidate f)) (fun _ => I) E
  baseline : ∀ f : WatchRecord → WatchRecord,
    (∀ record, (f record).advertising_samples = record.advertising_samples) →
      Triple I (assign (SoakResult.onBaseline f)) (fun _ => I) E
  refused : ∀ error s, error.isException = true → I s → E error s

variable (h : SoakSteps py bench candidate baseline scan_window I B E)
include h

/-- The rounds, by induction on how many of them are looked at. -/
theorem SoakSteps.rounds (hadapter : candidate.adapter = baseline.adapter) (deadline : ℚ)
    (fuel : ℕ) :
    Triple I (rounds py bench candidate baseline interval scan_window deadline fuel)
      (fun _ => I) E := by
  induction fuel with
  | zero => exact triple_pure fun s hs => hs
  | succ fuel ih =>
      unfold Hardware.rounds
      refine triple_bind h.clock fun started => ?_
      refine triple_bind (h.scan hadapter) fun advertisements => ?_
      refine triple_bind (h.sampled hadapter advertisements) fun _ => ?_
      refine triple_bind h.clock fun now => ?_
      split
      · exact triple_pure fun s hs => hs
      · refine triple_bind h.clock fun after => triple_bind h.clock fun last => ?_
        exact triple_bind (h.sleep _) fun _ => ih

theorem SoakSteps.observe_pair (fuel : ℕ) :
    Triple I (observe_pair py bench candidate baseline duration interval scan_window fuel)
      (fun _ => I) E := by
  have hraise : ∀ error : PyExc, error.isException = true →
      Triple I (throw error : Soak (Option Unit)) (fun _ => I) E := fun error herror =>
    triple_throw fun s hs => h.refused error s herror hs
  unfold Hardware.observe_pair
  split_ifs with hpositive hwindow hadapter hinstalled
  · exact hraise _ rfl
  · exact hraise _ rfl
  · exact hraise _ rfl
  · exact hraise _ rfl
  · have hsame : candidate.adapter = baseline.adapter := by
      by_contra hne
      exact hadapter hne
    exact triple_bind h.clock fun _ => h.rounds hsame _ fuel

/-- **The body.** It is still going on, or it returns its result, of which the last
checkpoint has made `O`. -/
theorem SoakSteps.soakBody {F O : SoakResult × List SoakEvent → Prop}
    (hfinish : Triple I (assign SoakResult.finish) (fun _ => F) E)
    (hlast : Triple F (Hardware.save bench) (fun _ => O) E) (fuel : ℕ) :
    Triple I (soakBody py bench candidate baseline duration interval scan_window fuel)
      (fun returned s => (returned = none ∧ I s) ∨ (returned = some s.1 ∧ O s)) E := by
  unfold Hardware.soakBody
  refine triple_bind (h.battery candidate) fun percent => ?_
  refine triple_bind (h.candidate _ fun _ => rfl) fun _ => ?_
  refine triple_bind (h.battery baseline) fun percent' => ?_
  refine triple_bind (h.baseline _ fun _ => rfl) fun _ => ?_
  refine triple_bind h.save fun _ => triple_bind (h.observe_pair fuel) fun observed => ?_
  cases observed with
  | none => exact triple_pure fun s hs => Or.inl ⟨rfl, hs⟩
  | some _ =>
      refine triple_bind (h.battery candidate) fun percent => ?_
      refine triple_bind (h.candidate _ fun _ => rfl) fun _ => ?_
      refine triple_bind (h.battery baseline) fun percent' => ?_
      refine triple_bind (h.baseline _ fun _ => rfl) fun _ => ?_
      refine triple_bind (h.candidate _ fun _ => rfl) fun _ => ?_
      refine triple_bind (h.baseline _ fun _ => rfl) fun _ => ?_
      refine triple_bind hfinish fun _ => triple_bind hlast fun _ => ?_
      refine triple_bind (Q := fun result s => O s ∧ result = s.1)
        (triple_read fun s hs => ⟨hs, rfl⟩) fun result => ?_
      exact triple_pure fun s hs => Or.inr ⟨congrArg some hs.2, hs.1⟩

end Rule

end Ptlab.Hardware
