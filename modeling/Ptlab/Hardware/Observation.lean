/-
The schedule of an observation: `observe_advertising` and `observe_pair` of
`BleakHardware` in `src/ptlab/hardware.py`.

Both loops are one (`schedule`), and so is the soak's (`rounds_eq_schedule`). The
clock is read three times between a scan and the next, and time may pass at any
dealing; what is known is that it does not go back and that a sleep is not cut
short. From that a scan begins no earlier than an interval after the last or at the
deadline (`Begun.slept`), and the rest follows by counting the rounds, each of which is
one scan and one sleep (`beats`).
-/
import Mathlib.Algebra.Order.Floor.Semiring
import Mathlib.Data.Rat.Floor
import Ptlab.Hardware.Sighting

set_option autoImplicit false

open Effect

namespace Ptlab.Hardware

/-! ## The loops -/

/-- A sample with its time. -/
structure TimedSample extends Sample where
  timestamp : String
  deriving DecidableEq, Repr

/-- One dealing of an observation. -/
inductive ObserveEvent where
  | monotonic (reply : Except PyExc ℚ)
  | utcnow (reply : Except PyExc String)
  /-- `_find`. -/
  | find (endpoint : BleEndpoint) (timeout : ℚ) (reply : Except PyExc Device)
  /-- The scanner is on for so long, and these were reported. -/
  | scan (adapter : Option String) (seconds : ℚ) (reply : Except PyExc (List Advertisement))
  | on_sample (sample : TimedSample) (reply : Except PyExc Unit)
  | on_pair (candidate baseline : TimedSample) (reply : Except PyExc Unit)
  | sleep (seconds : ℚ) (reply : Except PyExc Unit)

/-- How clock, scanner and callbacks reply. `now` is the time after some dealings. -/
structure ObserveBench where
  installed : Bool
  now : List ObserveEvent → ℚ
  /-- The clock never goes back. -/
  forward : ∀ log event, now log ≤ now (log ++ [event])
  /-- A sleep lasts as long as it is to last. -/
  sleeps : ∀ log seconds, now log + seconds ≤ now (log ++ [.sleep seconds (.ok ())])
  utcnow : List ObserveEvent → String
  find : List ObserveEvent → BleEndpoint → ℚ → Except PyExc Device
  scan : List ObserveEvent → Option String → ℚ → Except PyExc (List Advertisement)
  on_sample : Option (List ObserveEvent → TimedSample → Except PyExc Unit)
  on_pair : Option (List ObserveEvent → TimedSample → TimedSample → Except PyExc Unit)
  sleep : List ObserveEvent → ℚ → Except PyExc Unit

abbrev Observe (α : Type) : Type := Effect (List ObserveEvent) PyExc α

/-- The `while` loop of an observation. A round adds to the samples, and `none` means
that the loop is still going on. -/
def schedule {σ β : Type} (clock : Effect σ PyExc ℚ) (sleep : ℚ → Effect σ PyExc Unit)
    (round : β → Effect σ PyExc β) (interval deadline : ℚ) : ℕ → β → Effect σ PyExc (Option β)
  | 0, _ => return none
  | fuel + 1, samples => do
    let started ← clock
    let samples ← round samples
    let now ← clock
    if now ≥ deadline then return some samples
    else do
      let after ← clock
      let last ← clock
      sleep (min (max 0 (interval - (after - started))) (deadline - last))
      schedule clock sleep round interval deadline fuel samples

section Functions

variable (py : Builtins) (bench : ObserveBench)

/-- `time.monotonic()`. -/
def readClock : Observe ℚ := ask (fun log => .ok (bench.now log)) .monotonic

/-- `datetime.now(UTC).isoformat()`. -/
def utcnow : Observe String := ask (fun log => .ok (bench.utcnow log)) .utcnow

/-- `asyncio.sleep`. -/
def sleepFor (seconds : ℚ) : Observe Unit := ask (fun log => bench.sleep log seconds) (.sleep seconds)

/-- Call the callback, if there is one. -/
def callback (reply : Option (List ObserveEvent → Except PyExc Unit))
    (event : Except PyExc Unit → ObserveEvent) : Observe Unit :=
  match reply with
  | none => pure ()
  | some reply => ask reply event

/-- The sample of a round of `observe_advertising`. -/
def advertisingSample (endpoint : BleEndpoint) (scan_window : ℚ) : Observe TimedSample :=
  tryCatch
    (do
      let device ← ask (fun log => bench.find log endpoint scan_window) (.find endpoint scan_window)
      let timestamp ← utcnow bench
      return ⟨⟨true, device.address, device.name⟩, timestamp⟩)
    fun error =>
      if error.kind = .HardwareError then do
        let timestamp ← utcnow bench
        return ⟨⟨false, endpoint.address, endpoint.name⟩, timestamp⟩
      else throw error

/-- A round of `observe_advertising`, up to the deadline. -/
def advertisingRound (endpoint : BleEndpoint) (scan_window : ℚ) (samples : List TimedSample) :
    Observe (List TimedSample) := do
  let sample ← advertisingSample bench endpoint scan_window
  callback (bench.on_sample.map fun on_sample log => on_sample log sample) (.on_sample sample)
  return samples ++ [sample]

/-- A round of `observe_pair`, up to the deadline. -/
def pairRound (candidate baseline : BleEndpoint) (scan_window : ℚ)
    (samples : List TimedSample × List TimedSample) :
    Observe (List TimedSample × List TimedSample) := do
  let advertisements ← ask (fun log => bench.scan log candidate.adapter scan_window)
    (.scan candidate.adapter scan_window)
  let found := advertisements.foldl (detected py candidate baseline) ⟨none, none⟩
  let timestamp ← utcnow bench
  let candidate_sample : TimedSample := ⟨sampleOf candidate found.candidate, timestamp⟩
  let baseline_sample : TimedSample := ⟨sampleOf baseline found.baseline, timestamp⟩
  callback (bench.on_pair.map fun on_sample log => on_sample log candidate_sample baseline_sample)
    (.on_pair candidate_sample baseline_sample)
  return (samples.1 ++ [candidate_sample], samples.2 ++ [baseline_sample])

/-- The loop with the deadline, which is read off the clock first. -/
def observed {β : Type} (duration interval : ℚ) (round : β → Observe β) (samples : β) (fuel : ℕ) :
    Observe (Option β) := do
  let start ← readClock bench
  schedule (readClock bench) (sleepFor bench) round interval (start + duration) fuel samples

/-- `BleakHardware.observe_advertising`. -/
def observe_advertising (endpoint : BleEndpoint) (duration interval scan_window : ℚ) (fuel : ℕ) :
    Observe (Option (List TimedSample)) :=
  if duration ≤ 0 ∨ interval ≤ 0 ∨ scan_window ≤ 0 then
    throw (ValueError "advertising duration, interval, and scan window must be positive")
  else if scan_window > interval then
    throw (ValueError "scan window cannot exceed the observation interval")
  else observed bench duration interval (advertisingRound bench endpoint scan_window) [] fuel

/-- `BleakHardware.observe_pair`, with any callback. -/
def observe_pair_timed (candidate baseline : BleEndpoint) (duration interval scan_window : ℚ)
    (fuel : ℕ) : Observe (Option (List TimedSample × List TimedSample)) :=
  if duration ≤ 0 ∨ interval ≤ 0 ∨ scan_window ≤ 0 then
    throw (ValueError "advertising duration, interval, and scan window must be positive")
  else if scan_window > interval then
    throw (ValueError "scan window cannot exceed the observation interval")
  else if candidate.adapter ≠ baseline.adapter then
    throw (ValueError "candidate and baseline must use the same BlueZ adapter")
  else if !bench.installed then
    throw (HardwareError "Bleak is not installed; run `uv sync --group hardware` and retry")
  else observed bench duration interval (pairRound py bench candidate baseline scan_window) ([], [])
    fuel

end Functions

/-! ## Starts

A scan starts at the last reading of the clock before it, which is the `started` of
its round.
-/

/-- A round looks for devices. -/
def ObserveEvent.isScan : ObserveEvent → Bool
  | .find .. | .scan .. => true
  | _ => false

/-- The last reading and the starts so far, after one dealing more. -/
def noteStart (noted : ℚ × List ℚ) : ObserveEvent → ℚ × List ℚ
  | .monotonic (.ok reading) => (reading, noted.2)
  | .find .. | .scan .. => (noted.1, noted.2 ++ [noted.1])
  | _ => noted

/-- The last reading of the clock, and when the scans started. -/
def noted (log : List ObserveEvent) : ℚ × List ℚ := log.foldl noteStart (0, [])

/-- When the scans started. -/
def startsOf (log : List ObserveEvent) : List ℚ := (noted log).2

theorem noted_append (log : List ObserveEvent) (event : ObserveEvent) :
    noted (log ++ [event]) = noteStart (noted log) event := List.foldl_concat ..

theorem noted_monotonic (log : List ObserveEvent) (reading : ℚ) :
    noted (log ++ [.monotonic (.ok reading)]) = (reading, startsOf log) := noted_append ..

theorem startsOf_scan {event : ObserveEvent} (h : event.isScan = true) (log : List ObserveEvent) :
    startsOf (log ++ [event]) = startsOf log ++ [(noted log).1] := by
  unfold startsOf
  rw [noted_append]
  cases event with
  | find => rfl
  | scan => rfl
  | _ => cases h

theorem startsOf_other {event : ObserveEvent} (h : event.isScan = false)
    (log : List ObserveEvent) : startsOf (log ++ [event]) = startsOf log := by
  unfold startsOf
  rw [noted_append]
  cases event with
  | find => cases h
  | scan => cases h
  | monotonic reply => cases reply <;> rfl
  | _ => rfl

/-! ## Beats

A round is a scan, and a sleep if the deadline is not reached.
-/

inductive Beat where
  | scan
  | sleep
  deriving DecidableEq, Repr

def ObserveEvent.beat : ObserveEvent → Option Beat
  | .find .. | .scan .. => some .scan
  | .sleep .. => some .sleep
  | _ => none

/-- The scans and the sleeps, in order. -/
def beatsOf (log : List ObserveEvent) : List Beat := log.filterMap ObserveEvent.beat

/-- Those of `k` rounds with their sleeps. -/
def beats (k : ℕ) : List Beat := (List.replicate k [.scan, .sleep]).flatten

theorem beats_succ (k : ℕ) : beats (k + 1) = beats k ++ [.scan, .sleep] := by
  unfold beats
  rw [List.replicate_succ', List.flatten_append, List.flatten_singleton]

theorem ObserveEvent.beat_of_isScan {event : ObserveEvent} (h : event.isScan = true) :
    event.beat = some .scan := by
  cases event with
  | find => rfl
  | scan => rfl
  | _ => cases h

theorem ObserveEvent.isScan_of_beat {event : ObserveEvent} (h : event.beat = none) :
    event.isScan = false := by
  cases event with
  | find => cases h
  | scan => cases h
  | _ => rfl

theorem beatsOf_none {event : ObserveEvent} (h : event.beat = none) (log : List ObserveEvent) :
    beatsOf (log ++ [event]) = beatsOf log := by
  unfold beatsOf
  rw [List.filterMap_append, List.filterMap_cons_none h, List.filterMap_nil, List.append_nil]

theorem beatsOf_some {event : ObserveEvent} {beat : Beat} (h : event.beat = some beat)
    (log : List ObserveEvent) : beatsOf (log ++ [event]) = beatsOf log ++ [beat] := by
  unfold beatsOf
  rw [List.filterMap_append, List.filterMap_cons_some h, List.filterMap_nil]

/-! ## The rounds -/

section Rounds

variable (bench : ObserveBench) (duration interval : ℚ)

/-- The deadline, when the clock was read first of all. -/
def ObserveBench.deadline : ℚ := bench.now [] + duration

/-- A scan starts no earlier than this after another. -/
def Spaced (log : List ObserveEvent) : Prop :=
  (startsOf log).IsChain fun start next => min (start + interval) (bench.deadline duration) ≤ next

/-- Between two rounds, `k` of them done. -/
structure Paced (k : ℕ) (log : List ObserveEvent) : Prop where
  spaced : Spaced bench duration interval log
  count : (startsOf log).length = k
  next : ∀ start ∈ (startsOf log).getLast?,
    min (start + interval) (bench.deadline duration) ≤ bench.now log
  due : min (bench.now [] + k * interval) (bench.deadline duration) ≤ bench.now log
  few : k ≤ ⌈duration / interval⌉₊
  rhythm : beatsOf log = beats k

/-- In round `k`, before its scan. -/
structure Started (k : ℕ) (started : ℚ) (log : List ObserveEvent) : Prop where
  spaced : Spaced bench duration interval log
  count : (startsOf log).length = k
  next : ∀ start ∈ (startsOf log).getLast?,
    min (start + interval) (bench.deadline duration) ≤ started
  due : min (bench.now [] + k * interval) (bench.deadline duration) ≤ started
  few : k ≤ ⌈duration / interval⌉₊
  reading : (noted log).1 = started
  past : started ≤ bench.now log
  rhythm : beatsOf log = beats k

/-- In round `k`, after its scan. -/
structure Begun (k : ℕ) (started : ℚ) (log : List ObserveEvent) : Prop where
  spaced : Spaced bench duration interval log
  count : (startsOf log).length = k + 1
  last : (startsOf log).getLast? = some started
  due : min (bench.now [] + k * interval) (bench.deadline duration) ≤ started
  few : k ≤ ⌈duration / interval⌉₊
  past : started ≤ bench.now log
  rhythm : beatsOf log = beats k ++ [.scan]

/-- However the loop ends. -/
structure Ended (log : List ObserveEvent) : Prop where
  spaced : Spaced bench duration interval log
  few : (startsOf log).length ≤ ⌈duration / interval⌉₊ + 1
  rounds : ∃ k, beatsOf log <+: beats k

variable {bench duration interval} {k : ℕ} {started : ℚ} {log : List ObserveEvent}

theorem Paced.ended (h : Paced bench duration interval k log) : Ended bench duration interval log :=
  ⟨h.spaced, by rw [h.count]; exact h.few.trans (Nat.le_succ _), k, by rw [h.rhythm]⟩

theorem Started.ended (h : Started bench duration interval k started log) :
    Ended bench duration interval log :=
  ⟨h.spaced, by rw [h.count]; exact h.few.trans (Nat.le_succ _), k, by rw [h.rhythm]⟩

theorem Begun.ended (h : Begun bench duration interval k started log) :
    Ended bench duration interval log := by
  refine ⟨h.spaced, ?_, k + 1, [.sleep], ?_⟩
  · rw [h.count]
    exact Nat.succ_le_succ h.few
  · rw [h.rhythm, beats_succ, List.append_assoc]
    rfl

/-- The clock is read at the head of a round. -/
theorem Paced.start (h : Paced bench duration interval k log) :
    Started bench duration interval k (bench.now log)
      (log ++ [.monotonic (.ok (bench.now log))]) := by
  have hstarts : startsOf (log ++ [.monotonic (.ok (bench.now log))]) = startsOf log :=
    startsOf_other rfl log
  refine ⟨?_, ?_, ?_, h.due, h.few, ?_, bench.forward log _, ?_⟩
  · unfold Spaced
    rw [hstarts]
    exact h.spaced
  · rw [hstarts, h.count]
  · rw [hstarts]
    exact h.next
  · rw [noted_monotonic]
  · rw [beatsOf_none rfl, h.rhythm]

/-- The scan of a round. -/
theorem Started.scan {event : ObserveEvent} (hscan : event.isScan = true)
    (h : Started bench duration interval k started log) :
    Begun bench duration interval k started (log ++ [event]) := by
  have hstarts : startsOf (log ++ [event]) = startsOf log ++ [started] := by
    rw [startsOf_scan hscan, h.reading]
  refine ⟨?_, ?_, ?_, h.due, h.few, h.past.trans (bench.forward log event), ?_⟩
  · unfold Spaced
    rw [hstarts]
    refine List.isChain_append.mpr ⟨h.spaced, List.isChain_singleton _, fun start hstart next hnext => ?_⟩
    rw [List.head?_cons, Option.mem_some_iff] at hnext
    rw [← hnext]
    exact h.next start hstart
  · rw [hstarts, List.length_append, h.count]
    rfl
  · rw [hstarts, List.getLast?_concat]
  · rw [beatsOf_some (ObserveEvent.beat_of_isScan hscan), h.rhythm]

/-- Anything else in a round after its scan, but for the sleep. -/
theorem Begun.other {event : ObserveEvent} (hother : event.beat = none)
    (h : Begun bench duration interval k started log) :
    Begun bench duration interval k started (log ++ [event]) := by
  have hstarts := startsOf_other (ObserveEvent.isScan_of_beat hother) log
  refine ⟨?_, ?_, ?_, h.due, h.few, h.past.trans (bench.forward log event), ?_⟩
  · unfold Spaced
    rw [hstarts]
    exact h.spaced
  · rw [hstarts, h.count]
  · rw [hstarts, h.last]
  · rw [beatsOf_none hother, h.rhythm]

theorem Begun.rhythm_sleep (h : Begun bench duration interval k started log) (seconds : ℚ)
    (reply : Except PyExc Unit) : beatsOf (log ++ [.sleep seconds reply]) = beats (k + 1) := by
  rw [beatsOf_some rfl, h.rhythm, beats_succ, List.append_assoc]
  rfl

/-- A sleep that raises. -/
theorem Begun.broken (h : Begun bench duration interval k started log) (seconds : ℚ)
    (error : PyExc) : Ended bench duration interval (log ++ [.sleep seconds (.error error)]) := by
  have hstarts : startsOf (log ++ [.sleep seconds (.error error)]) = startsOf log :=
    startsOf_other rfl log
  refine ⟨?_, ?_, k + 1, by rw [h.rhythm_sleep]⟩
  · unfold Spaced
    rw [hstarts]
    exact h.spaced
  · rw [hstarts]
    exact h.ended.few

/-- **The sleep.** Of its two bounds the first keeps the interval and the second
stops at the deadline, wherever the clock stood at the three readings. -/
theorem Begun.slept {now after last : ℚ} (hinterval : 0 < interval)
    (h : Begun bench duration interval k started log) (hnow : started ≤ now)
    (hbefore : now < bench.deadline duration) (hlast : after ≤ last)
    (hpast : last ≤ bench.now log) :
    Paced bench duration interval (k + 1) (log ++ [.sleep
      (min (max 0 (interval - (after - started))) (bench.deadline duration - last)) (.ok ())]) := by
  set pause := min (max 0 (interval - (after - started))) (bench.deadline duration - last) with hpause
  have hslept := bench.sleeps log pause
  have hstarts : startsOf (log ++ [.sleep pause (.ok ())]) = startsOf log := startsOf_other rfl log
  have hround : bench.now [] + k * interval ≤ started := by
    rcases min_le_iff.mp h.due with hdue | hdue
    · exact hdue
    · linarith
  have hnext : min (started + interval) (bench.deadline duration) ≤
      bench.now (log ++ [.sleep pause (.ok ())]) := by
    rcases min_choice (max 0 (interval - (after - started))) (bench.deadline duration - last) with
      hchoice | hchoice
    · have hlonger : interval - (after - started) ≤ pause := by
        rw [hpause, hchoice]
        exact le_max_right _ _
      exact (min_le_left _ _).trans (by linarith)
    · have hstop : pause = bench.deadline duration - last := by rw [hpause, hchoice]
      exact (min_le_right _ _).trans (by linarith)
  refine ⟨?_, ?_, ?_, ?_, ?_, h.rhythm_sleep _ _⟩
  · unfold Spaced
    rw [hstarts]
    exact h.spaced
  · rw [hstarts, h.count]
  · rw [hstarts, h.last]
    intro start hstart
    rw [Option.mem_some_iff] at hstart
    rw [← hstart]
    exact hnext
  · refine le_trans (min_le_min_right _ ?_) hnext
    push_cast
    linarith
  · -- the round began before the deadline, so that it is not the last there is time for
    have hdeadline : bench.deadline duration = bench.now [] + duration := rfl
    have hk : (k : ℚ) < duration / interval := by
      rw [lt_div_iff₀ hinterval]
      linarith
    exact Nat.lt_ceil.mpr hk

/-! ## The loop -/

/-- A reading of the clock or a sleep. -/
def ObserveEvent.isTime : ObserveEvent → Bool
  | .monotonic _ | .sleep .. => true
  | _ => false

theorem ObserveEvent.not_isScan {event : ObserveEvent} (h : event.isTime = true) :
    event.isScan = false := by
  cases event with
  | find => cases h
  | scan => cases h
  | _ => rfl

variable {β : Type} {round : β → Observe β} {A : β → List ObserveEvent → Prop}

/-- What the round of an observation does: one scan, and samples with `A`. -/
structure RoundSteps (bench : ObserveBench) (duration interval : ℚ) (round : β → Observe β)
    (A : β → List ObserveEvent → Prop) : Prop where
  round : ∀ k started samples,
    Triple (fun log => Started bench duration interval k started log ∧ A samples log) (round samples)
      (fun samples log => Begun bench duration interval k started log ∧ A samples log)
      (fun _ => Ended bench duration interval)
  time : ∀ samples log event, event.isTime = true → A samples log → A samples (log ++ [event])

/-- A reading after the scan is no earlier than the one before. -/
theorem triple_readClock (h : RoundSteps bench duration interval round A) (samples : β)
    (earlier : ℚ) :
    Triple (fun log => Begun bench duration interval k started log ∧ A samples log ∧
        earlier ≤ bench.now log) (readClock bench)
      (fun reading log => (Begun bench duration interval k started log ∧ A samples log ∧
        reading ≤ bench.now log) ∧ earlier ≤ reading)
      (fun _ => Ended bench duration interval) := by
  refine triple_ask (fun log reading hlog hreading => ?_) fun log error _ herror => (by cases herror)
  obtain ⟨hbegun, hsamples, hearlier⟩ := hlog
  injection hreading with hreading
  rw [← hreading]
  exact ⟨⟨hbegun.other rfl, h.time _ _ _ rfl hsamples, bench.forward log _⟩, hearlier⟩

/-- The reading that starts a round. -/
theorem triple_start (h : RoundSteps bench duration interval round A) (samples : β) :
    Triple (fun log => Paced bench duration interval k log ∧ A samples log) (readClock bench)
      (fun started log => Started bench duration interval k started log ∧ A samples log)
      (fun _ => Ended bench duration interval) := by
  refine triple_ask (fun log reading hlog hreading => ?_) fun log error _ herror => (by cases herror)
  injection hreading with hreading
  rw [← hreading]
  exact ⟨hlog.1.start, h.time _ _ _ rfl hlog.2⟩

/-- The first reading behind a round, no earlier than its start. -/
theorem triple_roundRead (h : RoundSteps bench duration interval round A) (samples : β) :
    Triple (fun log => Begun bench duration interval k started log ∧ A samples log)
      (readClock bench)
      (fun reading log => (Begun bench duration interval k started log ∧ A samples log ∧
        reading ≤ bench.now log) ∧ started ≤ reading)
      (fun _ => Ended bench duration interval) :=
  (triple_readClock h samples started).conseq (fun _ hlog => ⟨hlog.1, hlog.2, hlog.1.past⟩)
    (fun _ _ hlog => hlog) fun _ _ hlog => hlog

/-- The sleep in front of the next round. -/
theorem triple_sleepFor (hinterval : 0 < interval)
    (h : RoundSteps bench duration interval round A) (samples : β) {now after last : ℚ}
    (hnow : started ≤ now) (hbefore : now < bench.deadline duration) (hlast : after ≤ last) :
    Triple (fun log => Begun bench duration interval k started log ∧ A samples log ∧
        last ≤ bench.now log)
      (sleepFor bench (min (max 0 (interval - (after - started))) (bench.deadline duration - last)))
      (fun _ log => Paced bench duration interval (k + 1) log ∧ A samples log)
      (fun _ => Ended bench duration interval) := by
  refine triple_ask (fun log _ hlog _ => ?_) fun log error hlog _ => ?_
  · exact ⟨hlog.1.slept hinterval hnow hbefore hlast hlog.2.2, h.time _ _ _ rfl hlog.2.1⟩
  · exact hlog.1.broken _ error

/-- **The run of the loop**, from `k` rounds on. -/
theorem schedule_rule (hinterval : 0 < interval) (h : RoundSteps bench duration interval round A)
    (fuel : ℕ) : ∀ (k : ℕ) (samples : β),
    Triple (fun log => Paced bench duration interval k log ∧ A samples log)
      (schedule (readClock bench) (sleepFor bench) round interval (bench.deadline duration) fuel samples)
      (fun result log => Ended bench duration interval log ∧
        match result with
        | none => fuel + k ≤ ⌈duration / interval⌉₊
        | some samples => bench.deadline duration ≤ bench.now log ∧ A samples log ∧
            ∃ last, beatsOf log = beats last ++ [.scan])
      (fun _ => Ended bench duration interval) := by
  induction fuel with
  | zero =>
      intro k samples
      refine triple_pure fun log hlog => ⟨hlog.1.ended, ?_⟩
      dsimp only
      rw [Nat.zero_add]
      exact hlog.1.few
  | succ fuel ih =>
      intro k samples
      unfold schedule
      refine triple_bind (triple_start h samples) fun started =>
        triple_bind (h.round k started samples) fun samples => ?_
      -- the first of the three readings decides whether the loop returns
      refine triple_bind (triple_roundRead h samples) fun now => triple_assume fun hstarted => ?_
      split_ifs with hdeadline
      · refine triple_pure fun log hlog => ⟨hlog.1.ended, ?_⟩
        exact ⟨le_trans hdeadline hlog.2.2, hlog.2.1, k, hlog.1.rhythm⟩
      · -- the other two make the sleep
        refine triple_bind (triple_readClock h samples now) fun after => triple_assume fun hafter => ?_
        refine triple_bind (triple_readClock h samples after) fun last => triple_assume fun hlast => ?_
        refine triple_bind (triple_sleepFor hinterval h samples hstarted (not_le.mp hdeadline) hlast)
          fun _ => (ih (k + 1) samples).conseq (fun _ h => h) ?_ fun _ _ h => h
        rintro result log ⟨hended, hresult⟩
        refine ⟨hended, ?_⟩
        cases result with
        | none =>
            dsimp only at hresult ⊢
            omega
        | some samples => exact hresult

/-! ## What is raised -/

/-- What a dealing raises, if it does. -/
def errorOf {α : Type} : Except PyExc α → Option PyExc
  | .ok _ => none
  | .error error => some error

def ObserveEvent.raised : ObserveEvent → Option PyExc
  | .monotonic reply => errorOf reply
  | .utcnow reply => errorOf reply
  | .find _ _ reply => errorOf reply
  | .scan _ _ reply => errorOf reply
  | .on_sample _ reply => errorOf reply
  | .on_pair _ _ reply => errorOf reply
  | .sleep _ reply => errorOf reply

/-- What it raises a dealing has raised. -/
abbrev Honest {α : Type} (m : Observe α) : Prop :=
  Triple (fun _ => True) m (fun _ _ => True) fun error log => ∃ event ∈ log,
    event.raised = some error

theorem honest_ask {α : Type} {reply : List ObserveEvent → Except PyExc α}
    {event : Except PyExc α → ObserveEvent}
    (h : ∀ error, (event (.error error)).raised = some error) : Honest (ask reply event) :=
  triple_ask (fun _ _ _ _ => trivial) fun _ error _ _ =>
    ⟨_, List.mem_append_right _ (List.mem_singleton_self _), h error⟩

theorem honest_pure {α : Type} (a : α) : Honest (pure a : Observe α) := triple_pure fun _ h => h

theorem honest_callback {reply : Option (List ObserveEvent → Except PyExc Unit)}
    {event : Except PyExc Unit → ObserveEvent}
    (h : ∀ error, (event (.error error)).raised = some error) : Honest (callback reply event) := by
  unfold callback
  cases reply with
  | none => exact honest_pure ()
  | some reply => exact honest_ask h

theorem honest_schedule (hround : ∀ samples, Honest (round samples)) (deadline : ℚ) (fuel : ℕ) :
    ∀ samples, Honest (schedule (readClock bench) (sleepFor bench) round interval deadline fuel
      samples) := by
  have hclock : Honest (readClock bench) := honest_ask fun _ => rfl
  induction fuel with
  | zero => exact fun samples => honest_pure _
  | succ fuel ih =>
      intro samples
      unfold schedule
      refine triple_bind hclock fun started => triple_bind (hround samples) fun samples => ?_
      refine triple_bind hclock fun now => ?_
      split_ifs
      · exact honest_pure _
      · refine triple_bind hclock fun after => triple_bind hclock fun last => ?_
        exact triple_bind (honest_ask fun _ => rfl) fun _ => ih samples

variable (bench duration interval) in
/-- What is known of a run with so much fuel: its scans keep to the schedule, each round
is one scan and one sleep, but for the last, it has ended once there was fuel for a round
more than there are intervals, by a return if no dealing raised and the arguments are
`accepted`, and a return comes no earlier than the deadline. -/
structure KeepsSchedule (fuel : ℕ) (accepted : Prop) (A : β → List ObserveEvent → Prop)
    (run : Except PyExc (Option β) × List ObserveEvent) : Prop where
  /-- A scan starts an interval after the one before, or at the deadline. -/
  spaced : Spaced bench duration interval run.2
  few : (startsOf run.2).length ≤ ⌈duration / interval⌉₊ + 1
  rounds : ∃ k, beatsOf run.2 <+: beats k
  ends : ⌈duration / interval⌉₊ + 1 ≤ fuel → run.1 ≠ .ok none
  returns : accepted → ⌈duration / interval⌉₊ + 1 ≤ fuel →
    (∀ event ∈ run.2, event.raised = none) → ∃ samples, run.1 = .ok (some samples)
  complete : ∀ samples, run.1 = .ok (some samples) →
    bench.deadline duration ≤ bench.now run.2 ∧ A samples run.2 ∧
      ∃ last, beatsOf run.2 = beats last ++ [.scan]

/-- An observation that is refused has begun nothing. -/
theorem keepsSchedule_refused (fuel : ℕ) (error : PyExc) {accepted : Prop} (h : ¬ accepted) :
    KeepsSchedule bench duration interval fuel accepted A (.error error, []) :=
  ⟨List.isChain_nil, Nat.zero_le _, ⟨0, List.nil_prefix⟩, fun _ h => (by cases h),
    fun haccepted => absurd haccepted h, fun _ h => (by cases h)⟩

theorem keepsSchedule_observed (hinterval : 0 < interval)
    (h : RoundSteps bench duration interval round A) (hround : ∀ samples, Honest (round samples))
    {samples : β} (hsamples : A samples [.monotonic (.ok (bench.now []))]) (fuel : ℕ)
    (accepted : Prop) :
    KeepsSchedule bench duration interval fuel accepted A
      ((observed bench duration interval round samples fuel).exec []) := by
  -- the reading that the deadline is made of is the first of the log
  have hpaced : Paced bench duration interval 0 [.monotonic (.ok (bench.now []))] := by
    refine ⟨List.isChain_nil, rfl, fun start hstart => (by cases hstart), ?_, Nat.zero_le _, rfl⟩
    push_cast
    rw [zero_mul, add_zero]
    exact (min_le_left _ _).trans (bench.forward [] _)
  have hrun := schedule_rule hinterval h fuel 0 samples _ ⟨hpaced, hsamples⟩
  have hhonest : Honest (schedule (readClock bench) (sleepFor bench) round interval
      (bench.deadline duration) fuel samples) := honest_schedule hround _ fuel samples
  have hraises := hhonest [.monotonic (.ok (bench.now []))] trivial
  have hexec : (observed bench duration interval round samples fuel).exec [] =
      (schedule (readClock bench) (sleepFor bench) round interval (bench.deadline duration) fuel
        samples).exec [.monotonic (.ok (bench.now []))] := rfl
  rw [hexec]
  rcases hresult : (schedule (readClock bench) (sleepFor bench) round interval
    (bench.deadline duration) fuel samples).exec [.monotonic (.ok (bench.now []))] with
    ⟨error | result, log⟩
  · rw [hresult] at hrun hraises
    obtain ⟨event, hevent, hraised⟩ := hraises
    refine ⟨hrun.spaced, hrun.few, hrun.rounds, fun _ h => (by cases h), fun _ _ hquiet => ?_,
      fun _ h => (by cases h)⟩
    rw [hquiet event hevent] at hraised
    cases hraised
  · rw [hresult] at hrun
    have hends : ⌈duration / interval⌉₊ + 1 ≤ fuel → result ≠ none := by
      intro hfuel hnone
      have hless := hrun.2
      rw [hnone] at hless
      dsimp only at hless
      omega
    refine ⟨hrun.1.spaced, hrun.1.few, hrun.1.rounds, fun hfuel hnone => ?_, fun _ hfuel _ => ?_,
      fun samples hsome => ?_⟩
    · injection hnone with hnone
      exact hends hfuel hnone
    · obtain ⟨samples, hsamples⟩ := Option.ne_none_iff_exists'.mp (hends hfuel)
      exact ⟨samples, by rw [hsamples]⟩
    · injection hsome with hsome
      have hlast := hrun.2
      rw [hsome] at hlast
      exact hlast

end Rounds

/-! ## One watch -/

section Samples

variable {py : Builtins} {bench : ObserveBench} {duration interval : ℚ} {k : ℕ} {started : ℚ}

theorem triple_callback {Q : List ObserveEvent → Prop}
    {reply : Option (List ObserveEvent → Except PyExc Unit)}
    {event : Except PyExc Unit → ObserveEvent} {R E : List ObserveEvent → Prop}
    (hnone : reply = none → ∀ log, Q log → R log)
    (hok : reply.isSome → ∀ log, Q log → R (log ++ [event (.ok ())]))
    (herror : ∀ log error, Q log → E (log ++ [event (.error error)])) :
    Triple Q (callback reply event) (fun _ => R) (fun _ => E) := by
  unfold callback
  cases reply with
  | none => exact triple_pure fun log hlog => hnone rfl log hlog
  | some reply =>
      exact triple_ask (fun log _ hlog _ => hok rfl log hlog) fun log error hlog _ =>
        herror log error hlog

/-- A dealing after the scan of a round. -/
theorem triple_utcnow :
    Triple (Begun bench duration interval k started) (utcnow bench)
      (fun _ => Begun bench duration interval k started) (fun _ => Ended bench duration interval) :=
  triple_ask (fun _ _ hlog _ => hlog.other rfl) fun _ _ hlog _ => (hlog.other rfl).ended

/-- So many samples as scans. -/
def Sampled (samples : List TimedSample) (log : List ObserveEvent) : Prop :=
  samples.length = (startsOf log).length

theorem triple_advertisingSample (endpoint : BleEndpoint) (scan_window : ℚ) :
    Triple (Started bench duration interval k started)
      (advertisingSample bench endpoint scan_window)
      (fun _ => Begun bench duration interval k started) (fun _ => Ended bench duration interval) := by
  refine triple_tryCatch ?_ fun error =>
    (?_ : Triple (Begun bench duration interval k started) _ _ _)
  · refine triple_bind (triple_ask (fun log _ hlog _ => hlog.scan rfl) fun log _ hlog _ =>
      hlog.scan rfl) fun device => ?_
    refine triple_bind (triple_ask (fun log _ hlog _ => hlog.other rfl) fun log _ hlog _ =>
      hlog.other rfl) fun timestamp => ?_
    exact triple_pure fun log hlog => hlog
  · split_ifs
    · exact triple_bind triple_utcnow fun timestamp => triple_pure fun log hlog => hlog
    · exact triple_throw fun log hlog => hlog.ended

theorem advertisingRound_steps (endpoint : BleEndpoint) (scan_window : ℚ) :
    RoundSteps bench duration interval (advertisingRound bench endpoint scan_window) Sampled where
  round k started samples := by
    intro log hlog
    obtain ⟨hstarted, hsamples⟩ := hlog
    -- a round that raises leaves `Ended`, one that goes on adds its sample
    have hk : samples.length = k := hsamples.trans hstarted.count
    have hround : Triple (Started bench duration interval k started)
        (advertisingRound bench endpoint scan_window samples)
        (fun samples log => Begun bench duration interval k started log ∧ Sampled samples log)
        (fun _ => Ended bench duration interval) := by
      refine triple_bind (triple_advertisingSample endpoint scan_window) fun sample => ?_
      refine triple_bind (triple_callback (fun _ log hlog => hlog) (fun _ log hlog => hlog.other rfl)
        fun log error hlog => (hlog.other rfl).ended) fun _ => ?_
      refine triple_pure fun log hlog => ⟨hlog, ?_⟩
      unfold Sampled
      rw [List.length_append, hk, hlog.count]
      rfl
    exact hround log hstarted
  time samples log event htime hsamples := by
    unfold Sampled at hsamples ⊢
    rw [startsOf_other (ObserveEvent.not_isScan htime), hsamples]

/-- The arguments that both functions take. -/
structure Positive (duration interval scan_window : ℚ) : Prop where
  duration_pos : 0 < duration
  interval_pos : 0 < interval
  scan_window_pos : 0 < scan_window
  window_le : scan_window ≤ interval

theorem Positive.not_refused {scan_window : ℚ} (h : Positive duration interval scan_window) :
    ¬ (duration ≤ 0 ∨ interval ≤ 0 ∨ scan_window ≤ 0) := by
  rintro (hle | hle | hle)
  · exact absurd h.duration_pos (not_lt.mpr hle)
  · exact absurd h.interval_pos (not_lt.mpr hle)
  · exact absurd h.scan_window_pos (not_lt.mpr hle)

theorem honest_advertisingRound (endpoint : BleEndpoint) (scan_window : ℚ)
    (samples : List TimedSample) : Honest (advertisingRound bench endpoint scan_window samples) := by
  have hutcnow : Honest (utcnow bench) := honest_ask fun _ => rfl
  have hsample : Honest (advertisingSample bench endpoint scan_window) := by
    refine triple_tryCatch (triple_bind (honest_ask fun _ => rfl) fun device =>
      triple_bind hutcnow fun timestamp => honest_pure _) fun error => ?_
    split_ifs
    · exact (triple_bind hutcnow fun timestamp => honest_pure _).conseq (fun _ _ => trivial)
        (fun _ _ h => h) fun _ _ h => h
    · exact triple_throw fun _ h => h
  exact triple_bind hsample fun sample => triple_bind (honest_callback fun _ => rfl) fun _ =>
    honest_pure _

theorem observe_advertising_keeps (endpoint : BleEndpoint) (scan_window : ℚ) (fuel : ℕ) :
    KeepsSchedule bench duration interval fuel (Positive duration interval scan_window) Sampled
      ((observe_advertising bench endpoint duration interval scan_window fuel).exec []) := by
  unfold observe_advertising
  split_ifs with hpositive hwindow
  · exact keepsSchedule_refused fuel _ fun h => h.not_refused hpositive
  · exact keepsSchedule_refused fuel _ fun h => absurd h.window_le (not_le.mpr hwindow)
  · have hinterval : 0 < interval := by
      by_contra h
      exact hpositive (.inr (.inl (not_lt.mp h)))
    have hnone : Sampled [] [.monotonic (.ok (bench.now []))] := rfl
    exact keepsSchedule_observed hinterval (advertisingRound_steps endpoint scan_window)
      (honest_advertisingRound endpoint scan_window) hnone fuel _

/-! ## Two watches -/

/-- The pair of samples that a callback took. -/
def ObserveEvent.pair : ObserveEvent → Option (TimedSample × TimedSample)
  | .on_pair candidate baseline _ => some (candidate, baseline)
  | _ => none

/-- The pairs handed to the callback, in order. -/
def handedPairs (log : List ObserveEvent) : List (TimedSample × TimedSample) :=
  log.filterMap ObserveEvent.pair

theorem handedPairs_other {event : ObserveEvent} (h : event.pair = none) (log : List ObserveEvent) :
    handedPairs (log ++ [event]) = handedPairs log := by
  unfold handedPairs
  rw [List.filterMap_append, List.filterMap_cons_none h, List.filterMap_nil, List.append_nil]

theorem handedPairs_pair (log : List ObserveEvent) (candidate baseline : TimedSample)
    (reply : Except PyExc Unit) :
    handedPairs (log ++ [.on_pair candidate baseline reply]) =
      handedPairs log ++ [(candidate, baseline)] := by
  unfold handedPairs
  rw [List.filterMap_append]
  rfl

variable (bench) in
/-- Two lists of `k` samples with equal times, and what the callback was handed of
them. -/
structure Paired (k : ℕ) (samples : List TimedSample × List TimedSample) (log : List ObserveEvent) :
    Prop where
  candidate : samples.1.length = k
  baseline : samples.2.length = k
  times : samples.1.map TimedSample.timestamp = samples.2.map TimedSample.timestamp
  handed : bench.on_pair.isSome → handedPairs log = samples.1.zip samples.2

/-- A dealing that does not call back. -/
theorem Paired.other {samples : List TimedSample × List TimedSample} {log : List ObserveEvent}
    {event : ObserveEvent} (hpair : event.pair = none) (h : Paired bench k samples log) :
    Paired bench k samples (log ++ [event]) :=
  ⟨h.candidate, h.baseline, h.times, fun hsome => by rw [handedPairs_other hpair, h.handed hsome]⟩

/-- The samples of a round are added. -/
theorem Paired.push {samples : List TimedSample × List TimedSample} {log log' : List ObserveEvent}
    {candidate baseline : TimedSample} (h : Paired bench k samples log)
    (htime : candidate.timestamp = baseline.timestamp)
    (hlog : bench.on_pair.isSome → handedPairs log' = handedPairs log ++ [(candidate, baseline)]) :
    Paired bench (k + 1) (samples.1 ++ [candidate], samples.2 ++ [baseline]) log' := by
  refine ⟨?_, ?_, ?_, fun hsome => ?_⟩
  · rw [List.length_append, h.candidate]
    rfl
  · rw [List.length_append, h.baseline]
    rfl
  · rw [List.map_append, List.map_append, h.times, List.map_singleton, List.map_singleton, htime]
  · rw [hlog hsome, h.handed hsome, List.zip_append (h.candidate.trans h.baseline.symm)]
    rfl

/-- The callback takes the samples of the round. -/
theorem triple_handed (samples : List TimedSample × List TimedSample)
    {candidate baseline : TimedSample} (htime : candidate.timestamp = baseline.timestamp) :
    Triple (fun log => Begun bench duration interval k started log ∧ Paired bench k samples log)
      (callback (bench.on_pair.map fun on_sample log => on_sample log candidate baseline)
        (.on_pair candidate baseline))
      (fun _ log => Begun bench duration interval k started log ∧
        Paired bench (k + 1) (samples.1 ++ [candidate], samples.2 ++ [baseline]) log)
      (fun _ => Ended bench duration interval) := by
  refine triple_callback (fun hnone log hlog => ?_) (fun _ log hlog => ?_) fun log error hlog => ?_
  · refine ⟨hlog.1, hlog.2.push htime fun hsome => ?_⟩
    rw [Option.map_eq_none_iff.mp hnone] at hsome
    cases hsome
  · exact ⟨hlog.1.other rfl, hlog.2.push htime fun _ => handedPairs_pair log _ _ _⟩
  · exact (hlog.1.other rfl).ended

theorem pairRound_steps (candidate baseline : BleEndpoint) (scan_window : ℚ) :
    RoundSteps bench duration interval (pairRound py bench candidate baseline scan_window)
      (fun samples log => Paired bench (startsOf log).length samples log) where
  round k started samples := by
    intro log hlog
    obtain ⟨hstarted, hsamples⟩ := hlog
    rw [hstarted.count] at hsamples
    have hround : Triple
        (fun log => Started bench duration interval k started log ∧ Paired bench k samples log)
        (pairRound py bench candidate baseline scan_window samples)
        (fun samples log => Begun bench duration interval k started log ∧
          Paired bench (startsOf log).length samples log)
        (fun _ => Ended bench duration interval) := by
      -- after the scan the samples are one behind, until the callback has taken the next
      have hscan : Triple
          (fun log => Started bench duration interval k started log ∧ Paired bench k samples log)
          (ask (fun log => bench.scan log candidate.adapter scan_window)
            (.scan candidate.adapter scan_window))
          (fun _ log => Begun bench duration interval k started log ∧ Paired bench k samples log)
          (fun _ => Ended bench duration interval) :=
        triple_ask (fun log _ hlog _ => ⟨hlog.1.scan rfl, hlog.2.other rfl⟩)
          fun log _ hlog _ => (hlog.1.scan rfl).ended
      have htime : Triple
          (fun log => Begun bench duration interval k started log ∧ Paired bench k samples log)
          (utcnow bench)
          (fun _ log => Begun bench duration interval k started log ∧ Paired bench k samples log)
          (fun _ => Ended bench duration interval) :=
        triple_ask (fun log _ hlog _ => ⟨hlog.1.other rfl, hlog.2.other rfl⟩)
          fun log _ hlog _ => (hlog.1.other rfl).ended
      refine triple_bind hscan fun advertisements => triple_bind htime fun timestamp => ?_
      refine triple_bind (triple_handed samples rfl) fun _ => triple_pure fun log hlog => ⟨hlog.1, ?_⟩
      rw [hlog.1.count]
      exact hlog.2
    exact hround log ⟨hstarted, hsamples⟩
  time samples log event htime hsamples := by
    have hpair : event.pair = none := by
      cases event with
      | on_pair => cases htime
      | _ => rfl
    rw [startsOf_other (ObserveEvent.not_isScan htime)]
    exact hsamples.other hpair

theorem honest_pairRound (candidate baseline : BleEndpoint) (scan_window : ℚ)
    (samples : List TimedSample × List TimedSample) :
    Honest (pairRound py bench candidate baseline scan_window samples) := by
  refine triple_bind (honest_ask fun _ => rfl) fun advertisements => ?_
  refine triple_bind (honest_ask fun _ => rfl) fun timestamp => ?_
  exact triple_bind (honest_callback fun _ => rfl) fun _ => honest_pure _

variable (bench) in
/-- What `observe_pair` asks of its arguments, and that Bleak is there. -/
def PairAccepted (candidate baseline : BleEndpoint) (duration interval scan_window : ℚ) : Prop :=
  Positive duration interval scan_window ∧ candidate.adapter = baseline.adapter ∧ bench.installed

theorem observe_pair_keeps (candidate baseline : BleEndpoint) (scan_window : ℚ) (fuel : ℕ) :
    KeepsSchedule bench duration interval fuel
      (PairAccepted bench candidate baseline duration interval scan_window)
      (fun samples log => Paired bench (startsOf log).length samples log)
      ((observe_pair_timed py bench candidate baseline duration interval scan_window fuel).exec []) := by
  unfold observe_pair_timed
  split_ifs with hpositive hwindow hadapter hinstalled
  · exact keepsSchedule_refused fuel _ fun h => h.1.not_refused hpositive
  · exact keepsSchedule_refused fuel _ fun h => absurd h.1.window_le (not_le.mpr hwindow)
  · exact keepsSchedule_refused fuel _ fun h => hadapter h.2.1
  · refine keepsSchedule_refused fuel _ fun h => ?_
    rw [h.2.2] at hinstalled
    cases hinstalled
  · have hinterval : 0 < interval := by
      by_contra h
      exact hpositive (.inr (.inl (not_lt.mp h)))
    have hnone : Paired bench 0 ([], []) [.monotonic (.ok (bench.now []))] :=
      ⟨rfl, rfl, rfl, fun _ => rfl⟩
    exact keepsSchedule_observed hinterval (pairRound_steps candidate baseline scan_window)
      (honest_pairRound candidate baseline scan_window) hnone fuel _

/-- A dealing that hands over no two times at once. -/
def OneTime (event : ObserveEvent) : Prop :=
  ∀ pair, event.pair = some pair → pair.1.timestamp = pair.2.timestamp

theorem oneTime_of_none {event : ObserveEvent} (h : event.pair = none) : OneTime event := by
  intro pair hpair
  rw [h] at hpair
  cases hpair

theorem adds_schedule {σ ι : Type} {p : ι → Prop} {clock : Effect (List ι) PyExc ℚ}
    {sleep : ℚ → Effect (List ι) PyExc Unit} {round : σ → Effect (List ι) PyExc σ}
    (hclock : Adds p clock) (hsleep : ∀ seconds, Adds p (sleep seconds))
    (hround : ∀ samples, Adds p (round samples)) (interval deadline : ℚ) (fuel : ℕ) :
    ∀ samples, Adds p (schedule clock sleep round interval deadline fuel samples) := by
  induction fuel with
  | zero => exact fun samples => adds_pure none
  | succ fuel ih =>
      intro samples
      unfold schedule
      refine adds_bind hclock fun started => adds_bind (hround samples) fun samples => ?_
      refine adds_bind hclock fun now => ?_
      split_ifs
      · exact adds_pure _
      · exact adds_bind hclock fun after => adds_bind hclock fun last =>
          adds_bind (hsleep _) fun _ => ih samples

/-- However the run ends, what the callback was handed has one time. -/
theorem handedPairs_oneTime (candidate baseline : BleEndpoint) (scan_window : ℚ) (fuel : ℕ) :
    ∀ pair ∈ handedPairs ((observe_pair_timed py bench candidate baseline duration interval
      scan_window fuel).exec []).2, pair.1.timestamp = pair.2.timestamp := by
  -- both samples of a round are made with the one timestamp
  have hround : ∀ samples, Adds OneTime
      (pairRound py bench candidate baseline scan_window samples) := by
    intro samples
    unfold pairRound
    refine adds_bind (adds_ask fun log => oneTime_of_none rfl) fun advertisements => ?_
    refine adds_bind (adds_ask fun log => oneTime_of_none rfl) fun timestamp => ?_
    refine adds_bind ?_ fun _ => adds_pure _
    unfold callback
    split
    · exact adds_pure ()
    · refine adds_ask fun log pair hpair => ?_
      injection hpair with hpair
      rw [← hpair]
  have hadds : Adds OneTime (observe_pair_timed py bench candidate baseline duration interval
      scan_window fuel) := by
    unfold observe_pair_timed
    split_ifs
    · exact adds_throw _
    · exact adds_throw _
    · exact adds_throw _
    · exact adds_throw _
    · refine adds_bind (adds_ask fun log => oneTime_of_none rfl) fun start => ?_
      exact adds_schedule (adds_ask fun log => oneTime_of_none rfl)
        (fun _ => adds_ask fun log => oneTime_of_none rfl) hround _ _ fuel _
  intro pair hpair
  obtain ⟨added, hlog, hadded⟩ := hadds []
  rw [hlog, List.nil_append] at hpair
  obtain ⟨event, hevent, hpair⟩ := List.mem_filterMap.mp hpair
  exact hadded event hevent pair hpair

end Samples

/-- How long a dealing takes when only sleeping takes time. -/
def ObserveEvent.asleep : ObserveEvent → ℚ
  | .sleep seconds (.ok ()) => max seconds 0
  | _ => 0

theorem ObserveEvent.asleep_nonneg (event : ObserveEvent) : 0 ≤ event.asleep := by
  unfold ObserveEvent.asleep
  split
  · exact le_max_right _ _
  · exact le_rfl

/-- A bench on which nothing else takes time and nothing is found. -/
def idleBench : ObserveBench where
  installed := true
  now log := (log.map ObserveEvent.asleep).sum
  forward log event := by
    rw [List.map_append, List.sum_append, List.map_singleton, List.sum_singleton]
    exact le_add_of_nonneg_right event.asleep_nonneg
  sleeps log seconds := by
    rw [List.map_append, List.sum_append, List.map_singleton, List.sum_singleton]
    exact add_le_add_right (le_max_left _ _) _
  utcnow _ := ""
  find _ _ _ := .error (HardwareError "")
  scan _ _ _ := .ok []
  on_sample := none
  on_pair := none
  sleep _ _ := .ok ()

/-- There the bound is reached. -/
example : (startsOf ((observe_advertising idleBench upperEndpoint 5 2 1 9).exec []).2) = [0, 2, 4, 5] := by
  decide +kernel

/-- The rounds of a soak are this loop. -/
theorem rounds_eq_schedule (py : Builtins) (bench : SoakBench) (candidate baseline : BleEndpoint)
    (interval scan_window deadline : ℚ) (fuel : ℕ) :
    rounds py bench candidate baseline interval scan_window deadline fuel =
      schedule (monotonic bench)
        (fun pause => outside (ask (fun log => bench.sleep log pause) (.sleep pause)))
        (fun _ : Unit => do
          let advertisements ← outside (ask (fun log => bench.scan log candidate.adapter scan_window)
            (.scan candidate.adapter scan_window))
          let found := advertisements.foldl (detected py candidate baseline) ⟨none, none⟩
          sampled bench (sampleOf candidate found.candidate) (sampleOf baseline found.baseline))
        interval deadline fuel () := by
  induction fuel with
  | zero => rfl
  | succ fuel ih =>
      unfold rounds schedule
      rw [ih]
      simp only [bind_assoc]

end Ptlab.Hardware
