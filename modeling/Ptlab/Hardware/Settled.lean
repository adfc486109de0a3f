/-
What the last checkpoint of a hardware run says.

The results that a run hands to `checkpoint` are all that is left of it. They are
settled if the last of them is no longer running and has every step or sample of
those before it. `run_soak` sees to that in a handler for any `Exception`.
`run_acceptance_plan` has no such handler around it: its filters are inside the
steps, and there is none around the capacity stage. So its results are settled
for as long as nothing gets past the filters, which is what `runs_settle_iff`
says.
-/
import Ptlab.Hardware.Soak

set_option autoImplicit false

open Effect

namespace Ptlab.Hardware

/-- The last result is not running any more and has what those before it had. -/
def Settled {ρ : Type} (status : ρ → RunStatus) (GrowsTo : ρ → ρ → Prop) (handed : List ρ) :
    Prop :=
  ∀ last, handed.getLast? = some last →
    status last ≠ .running ∧ ∀ result ∈ handed, GrowsTo result last

theorem settled_append {ρ : Type} {status : ρ → RunStatus} {GrowsTo : ρ → ρ → Prop}
    {handed : List ρ} {last : ρ} (hstatus : status last ≠ .running)
    (hgrows : ∀ result ∈ handed, GrowsTo result last) (hrefl : GrowsTo last last) :
    Settled status GrowsTo (handed ++ [last]) := by
  intro result hresult
  rw [List.getLast?_concat] at hresult
  obtain rfl := Option.some.inj hresult
  refine ⟨hstatus, fun before hbefore => ?_⟩
  rcases List.mem_append.mp hbefore with hbefore | hbefore
  · exact hgrows before hbefore
  · rw [List.mem_singleton.mp hbefore]
    exact hrefl

/-! ## The soak -/

/-- The samples of the one are the first of the other. -/
def SoakResult.GrowsTo (result result' : SoakResult) : Prop :=
  result.candidate.advertising_samples <+: result'.candidate.advertising_samples ∧
    result.baseline.advertising_samples <+: result'.baseline.advertising_samples

theorem SoakResult.GrowsTo.refl (result : SoakResult) : result.GrowsTo result :=
  ⟨List.prefix_rfl, List.prefix_rfl⟩

theorem SoakResult.GrowsTo.trans {a b c : SoakResult} (hab : a.GrowsTo b) (hbc : b.GrowsTo c) :
    a.GrowsTo c := ⟨hab.1.trans hbc.1, hab.2.trans hbc.2⟩

/-- The result that is handed to the checkpoint. -/
def SoakEvent.handed : SoakEvent → Option SoakResult
  | .checkpoint result _ => some result
  | _ => none

/-- The results that a soak handed out are settled. -/
def SoakSettled (events : List SoakEvent) : Prop :=
  Settled SoakResult.status SoakResult.GrowsTo (events.filterMap SoakEvent.handed)

/-- A bench that raises nothing but `Exception`s, and whose checkpoint does not
fail. -/
structure SoakBench.Plain (bench : SoakBench) : Prop where
  read_battery : ∀ log endpoint error, bench.read_battery log endpoint = .error error →
    error.isException
  scan : ∀ log adapter seconds error, bench.scan log adapter seconds = .error error →
    error.isException
  sleep : ∀ log seconds error, bench.sleep log seconds = .error error → error.isException
  checkpoint : ∃ save, bench.checkpoint = some save ∧ ∀ log result, save log result = .ok ()

section Soak

variable {py : Builtins} {bench : SoakBench} {candidate baseline : BleEndpoint}
  {duration interval scan_window : ℚ} {start : List SoakEvent}

/-- What holds all along: the result has every sample that was handed out. -/
def SoakInv (start : List SoakEvent) (s : SoakResult × List SoakEvent) : Prop :=
  ∃ events, s.2 = start ++ events ∧
    ∀ result ∈ events.filterMap SoakEvent.handed, result.GrowsTo s.1

/-- What holds when an exception is raised. -/
def SoakRaised (start : List SoakEvent) (error : PyExc) (s : SoakResult × List SoakEvent) : Prop :=
  SoakInv start s ∧ error.isException

/-- What holds at the end. -/
def SoakOver (start : List SoakEvent) (s : SoakResult × List SoakEvent) : Prop :=
  ∃ events, s.2 = start ++ events ∧ SoakSettled events

/-- A computation that keeps to the invariant. -/
abbrev KeepsSoak {α : Type} (start : List SoakEvent) (m : Soak α) : Prop :=
  Triple (SoakInv start) m (fun _ => SoakInv start) (SoakRaised start)

theorem keeps_ask {α : Type} {reply : List SoakEvent → Except PyExc α}
    {event : Except PyExc α → SoakEvent} (hreply : ∀ log error, reply log = .error error →
      error.isException) (hevent : ∀ r, (event r).handed = none) :
    KeepsSoak start (outside (ask reply event)) := by
  rintro ⟨result, log⟩ ⟨events, hlog, hgrows⟩
  have hinv : SoakInv start (result, log ++ [event (reply log)]) := by
    refine ⟨events ++ [event (reply log)], ?_, ?_⟩
    · rw [← List.append_assoc, ← hlog]
    · rw [List.filterMap_append, List.filterMap_cons_none (hevent _), List.filterMap_nil,
        List.append_nil]
      exact hgrows
  rw [exec_outside, exec_ask]
  rcases hr : reply log with error | a <;> rw [hr] at hinv
  · exact ⟨hinv, hreply log error hr⟩
  · exact hinv

theorem keeps_assign {f : SoakResult → SoakResult}
    (hf : ∀ result : SoakResult, result.GrowsTo (f result)) :
    KeepsSoak start (assign f) := by
  refine triple_update fun s hs => ?_
  obtain ⟨events, hlog, hgrows⟩ := hs
  exact ⟨events, hlog, fun result hresult => (hgrows result hresult).trans (hf s.1)⟩

theorem grows_onCandidate {f : WatchRecord → WatchRecord}
    (hf : ∀ record : WatchRecord, record.advertising_samples <+: (f record).advertising_samples)
    (result : SoakResult) : result.GrowsTo (result.onCandidate f) :=
  ⟨hf result.candidate, List.prefix_rfl⟩

theorem grows_onBaseline {f : WatchRecord → WatchRecord}
    (hf : ∀ record : WatchRecord, record.advertising_samples <+: (f record).advertising_samples)
    (result : SoakResult) : result.GrowsTo (result.onBaseline f) :=
  ⟨List.prefix_rfl, hf result.baseline⟩

theorem keeps_monotonic : KeepsSoak start (monotonic bench) :=
  keeps_ask (fun log error h => by cases h) fun _ => rfl

/-- A status that is not `running` may be set. -/
theorem assign_status {f : SoakResult → SoakResult} {F : PyExc → SoakResult × List SoakEvent → Prop}
    (hf : ∀ result : SoakResult, result.GrowsTo (f result) ∧ (f result).status ≠ .running) :
    Triple (SoakInv start) (assign f) (fun _ s => SoakInv start s ∧ s.1.status ≠ .running) F := by
  refine triple_update fun s hs => ?_
  obtain ⟨events, hlog, hgrows⟩ := hs
  exact ⟨⟨events, hlog, fun result hresult => (hgrows result hresult).trans (hf s.1).1⟩,
    (hf s.1).2⟩

theorem handed_append_checkpoint (events : List SoakEvent) (result : SoakResult)
    (reply : Except PyExc Unit) :
    (events ++ [SoakEvent.checkpoint result reply]).filterMap SoakEvent.handed =
      events.filterMap SoakEvent.handed ++ [result] := by
  rw [List.filterMap_append]
  rfl

section Plain

variable (hplain : bench.Plain)
include hplain

theorem save_exec (s : SoakResult × List SoakEvent) :
    (save bench).exec s = (.ok (), (s.1, s.2 ++ [.checkpoint s.1 (.ok ())])) := by
  obtain ⟨callback, hcallback, hreply⟩ := hplain.checkpoint
  unfold save
  rw [exec_bind, exec_read, hcallback]
  dsimp only
  rw [exec_outside, exec_ask, hreply]

theorem keeps_save {F : PyExc → SoakResult × List SoakEvent → Prop} :
    Triple (SoakInv start) (save bench) (fun _ => SoakInv start) F := by
  rintro ⟨result, log⟩ ⟨events, rfl, hgrows⟩
  rw [save_exec hplain]
  refine ⟨_, List.append_assoc .., ?_⟩
  rw [handed_append_checkpoint]
  intro before hbefore
  rcases List.mem_append.mp hbefore with hbefore | hbefore
  · exact hgrows before hbefore
  · rw [List.mem_singleton.mp hbefore]
    exact .refl result

/-- Once the result is not running any more, a `save` settles it. -/
theorem save_over {F : PyExc → SoakResult × List SoakEvent → Prop} :
    Triple (fun s => SoakInv start s ∧ s.1.status ≠ .running) (save bench)
      (fun _ => SoakOver start) F := by
  rintro ⟨result, log⟩ ⟨⟨events, rfl, hgrows⟩, hstatus⟩
  rw [save_exec hplain]
  refine ⟨_, List.append_assoc .., ?_⟩
  unfold SoakSettled
  rw [handed_append_checkpoint]
  exact settled_append hstatus hgrows (.refl result)

theorem keeps_battery (endpoint : BleEndpoint) : KeepsSoak start (batteryOf bench endpoint) :=
  keeps_ask (fun log error h => hplain.read_battery log endpoint error h) fun _ => rfl

theorem keeps_sampled (candidate_sample baseline_sample : Sample) :
    KeepsSoak start (sampled bench candidate_sample baseline_sample) := by
  have hpush : ∀ (record : WatchRecord) (sample : Sample),
      record.advertising_samples <+: (record.push sample).advertising_samples :=
    fun record sample => List.prefix_append ..
  unfold sampled
  refine triple_bind (keeps_assign (grows_onCandidate fun record => hpush record _)) fun _ => ?_
  refine triple_bind (keeps_assign (grows_onBaseline fun record => hpush record _)) fun _ => ?_
  exact keeps_save hplain

theorem keeps_steps : SoakSteps py bench candidate baseline scan_window (SoakInv start)
    (fun _ => SoakInv start) (SoakRaised start) where
  battery := keeps_battery hplain
  clock := keeps_monotonic
  scan := fun _ => keeps_ask (fun log error h => hplain.scan log _ _ error h) fun _ => rfl
  sampled := fun _ _ => keeps_sampled hplain _ _
  sleep := fun _ => keeps_ask (fun log error h => hplain.sleep log _ error h) fun _ => rfl
  save := keeps_save hplain
  candidate := fun _ hf =>
    keeps_assign (grows_onCandidate fun record => (hf record).symm ▸ List.prefix_rfl)
  baseline := fun _ hf =>
    keeps_assign (grows_onBaseline fun record => (hf record).symm ▸ List.prefix_rfl)
  refused := fun _ _ hexception hs => ⟨hs, hexception⟩

theorem soakBody_over (fuel : ℕ) :
    Triple (SoakInv start)
      (soakBody py bench candidate baseline duration interval scan_window fuel)
      (fun r s => r ≠ none → SoakOver start s) (SoakRaised start) := by
  have hfinish : ∀ result : SoakResult,
      result.GrowsTo result.finish ∧ result.finish.status ≠ .running := by
    refine fun result => ⟨⟨List.prefix_rfl, List.prefix_rfl⟩, ?_⟩
    unfold SoakResult.finish
    dsimp only
    split <;> decide
  refine ((keeps_steps hplain).soakBody (assign_status hfinish) (save_over hplain) fuel).conseq
    (fun _ hs => hs) ?_ fun _ _ hs => hs
  rintro returned s (⟨rfl, -⟩ | ⟨-, hs⟩)
  -- still going on, so there is nothing to show
  · exact fun hne => absurd rfl hne
  · exact fun _ => hs

/-- The handler settles the result, whatever it holds. -/
theorem soakHandler_over (error : PyExc) :
    Triple (SoakRaised start error) (soakHandler bench error) (fun _ => SoakOver start)
      (fun _ => SoakOver start) := by
  have hthrow : Triple (SoakOver start) (throw error : Soak (Option SoakResult))
      (fun _ => SoakOver start) (fun _ => SoakOver start) := triple_throw fun s hs => hs
  refine triple_assume fun hexception => ?_
  unfold soakHandler
  rw [if_neg (by simp [hexception])]
  have hfail : ∀ result : SoakResult,
      result.GrowsTo (result.fail error) ∧ (result.fail error).status ≠ .running := fun result =>
    ⟨⟨List.prefix_rfl, List.prefix_rfl⟩, fun h => by cases h⟩
  exact triple_bind (assign_status hfail) fun _ => triple_bind (save_over hplain) fun _ => hthrow

/-- **A soak** is settled however it ends. -/
theorem run_soak_over (fuel : ℕ) :
    Triple (fun log => log = start)
      (run_soak py bench candidate baseline duration interval scan_window fuel)
      (fun r log => r ≠ none → ∃ events, log = start ++ events ∧ SoakSettled events)
      (fun _ log => ∃ events, log = start ++ events ∧ SoakSettled events) := by
  unfold run_soak
  split
  · rintro log rfl
    exact ⟨[], (List.append_nil _).symm, fun last h => by cases h⟩
  · refine triple_withLocal (R := fun r s => r ≠ none → SoakOver start s)
      (F := fun _ => SoakOver start) ?_ (fun r s hs => hs) fun error s hs => hs
    -- the first checkpoint is of a running result, and every way out of the body hands a last one
    refine triple_bind (Q := fun _ => SoakInv start) ?_ fun _ => ?_
    · refine (keeps_save hplain).conseq ?_ (fun _ _ hs => hs) fun _ _ hs => hs
      rintro ⟨result, log⟩ ⟨-, rfl⟩
      exact ⟨[], (List.append_nil _).symm, fun before hbefore => by cases hbefore⟩
    · refine triple_tryCatch (soakBody_over hplain fuel) fun error => ?_
      exact (soakHandler_over hplain error).conseq (fun _ hs => hs) (fun _ _ hs _ => hs)
        fun _ _ hs => hs

end Plain

end Soak

/-! ## The acceptance run -/

/-- The result that is handed to the checkpoint. -/
def BenchEvent.handed : BenchEvent → Option AcceptanceResult
  | .checkpoint result _ => some result
  | _ => none

/-- The results that an acceptance run handed out are settled. -/
def AcceptanceSettled (events : List BenchEvent) : Prop :=
  Settled AcceptanceResult.status (fun result result' => result.steps <+: result'.steps)
    (events.filterMap BenchEvent.handed)

/-- Every label of the sequence has a peer, as `AcceptancePlan.load` checks. -/
def AcceptancePlan.Known (plan : AcceptancePlan) : Prop :=
  ∀ label ∈ plan.sequence, ∃ peer ∈ plan.peers, peer.label = label

/-- What may go wrong: the exceptions in a step, the exceptions of the operator at
the capacity stage, and the operator's answers there that are no verdicts. -/
structure Faults where
  step : PyExc → Prop
  capacity : PyExc → Prop
  answer : String → Prop

/-- A bench on which nothing else goes wrong, and whose checkpoint does not fail. -/
structure Bench.Within (bench : Bench) (plan : AcceptancePlan) (faults : Faults) : Prop where
  probe : ∀ log hardware endpoint require allow error,
    bench.probe log hardware endpoint require allow = .error error → faults.step error
  launch_app : ∀ log serial error, bench.launch_app log serial = .error error → faults.step error
  snapshot : ∀ log serial address error, bench.snapshot log serial address = .error error →
    faults.step error
  operator : ∀ log index label error,
    bench.operator log (stepPrompt plan index label) = .error error → faults.step error
  capacity : ∀ log check error,
    bench.operator log (instructions check) = .error error → faults.capacity error
  answer : ∀ log check answer, bench.operator log (instructions check) = .ok answer →
    Verdict.parse answer = none → faults.answer answer
  checkpoint : ∃ save, bench.checkpoint = some save ∧ ∀ log result, save log result = .ok ()

section Acceptance

variable {py : Builtins} {bench : Bench} {plan : AcceptancePlan} {hardware : BleakHardware}
  {preflight : BatteryPreflight} {faults : Faults}

theorem peerOf_known (hknown : plan.Known) {label : String} (hlabel : label ∈ plan.sequence) :
    ∃ peer, peerOf py plan label = .ok peer := by
  obtain ⟨peer, hpeer, hname⟩ := hknown label hlabel
  have hfound : (plan.peer label).isSome := by
    unfold AcceptancePlan.peer
    rw [List.find?_isSome]
    exact ⟨peer, List.mem_reverse.mpr hpeer, by simpa using hname⟩
  obtain ⟨found, hfound⟩ := Option.isSome_iff_exists.mp hfound
  unfold peerOf
  rw [hfound]
  exact ⟨found, rfl⟩

theorem hand_exec (hwithin : bench.Within plan faults) (result : AcceptanceResult)
    (log : List BenchEvent) :
    (hand bench result).exec log = (.ok (), log ++ [.checkpoint result (.ok ())]) := by
  obtain ⟨save, hsave, hreply⟩ := hwithin.checkpoint
  unfold hand
  rw [hsave]
  dsimp only
  rw [exec_ask, hreply]

/-! ### A step -/

theorem quiet_linuxStep (peer : AcceptancePeer) (first : Bool) :
    Adds (fun event => event.handed = none) (linuxStep bench hardware peer first) :=
  adds_bind (adds_lift _) fun _ => adds_bind (adds_ask fun _ => rfl) fun _ => adds_pure _

theorem BenchEvent.Aside.handed {event : BenchEvent} (h : event.Aside) : event.handed = none := by
  cases event with
  | checkpoint => exact h.elim
  | _ => rfl

theorem handed_quiet {events : List BenchEvent} (h : ∀ event ∈ events, event.handed = none) :
    events.filterMap BenchEvent.handed = [] :=
  List.filterMap_eq_nil_iff.mpr h

/-- A computation that raises only what a step catches. -/
abbrev Catchable {α : Type} (m : OnBench α) : Prop :=
  Triple (fun _ => True) m (fun _ _ => True) (fun error _ => caught error)

theorem catchable_lift {α : Type} {outcome : Except PyExc α}
    (h : ∀ error, outcome = .error error → caught error) :
    Catchable (lift outcome : OnBench α) := by
  intro log _
  rw [exec_lift]
  rcases outcome with error | a
  · exact h error rfl
  · trivial

theorem catchable_ask {α : Type} {reply : List BenchEvent → Except PyExc α}
    {event : Except PyExc α → BenchEvent}
    (h : ∀ log error, reply log = .error error → caught error) : Catchable (ask reply event) := by
  intro log _
  rw [exec_ask]
  rcases hreply : reply log with error | a
  · exact h log error hreply
  · trivial

theorem catchable_init (peer : AcceptancePeer) (error : PyExc)
    (h : BleEndpoint.init peer.address peer.name peer.adapter = .error error) : caught error := by
  unfold BleEndpoint.init at h
  split at h
  · injection h with h
    rw [← h]
    rfl
  · cases h

theorem catchable_adb (serial : String) (error : PyExc)
    (h : AdbHardware.init serial = .error error) : caught error := by
  unfold AdbHardware.init at h
  split at h
  · injection h with h
    rw [← h]
    rfl
  · cases h

theorem supported_error {answer : String} {error : PyExc}
    (h : supported py answer = .error error) :
    caught error ∧ Verdict.parse answer = none := by
  unfold supported at h
  split at h
  · rename_i hparse
    injection h with h
    rw [← h]
    exact ⟨rfl, hparse⟩
  · cases h

section Caught

variable (hwithin : bench.Within plan faults) (hcaught : ∀ error, faults.step error → caught error)
include hwithin hcaught

theorem catchable_linuxStep (peer : AcceptancePeer) (first : Bool) :
    Catchable (linuxStep bench hardware peer first) := by
  refine triple_bind (catchable_lift (catchable_init peer)) fun endpoint => ?_
  refine triple_bind (catchable_ask fun log error h => ?_) fun _ => triple_pure fun _ h => h
  exact hcaught error (hwithin.probe log _ _ _ _ error h)

theorem catchable_androidStep (index : ℕ) (label : String) (peer : AcceptancePeer)
    (first : Bool) : Catchable (androidStep py bench plan index label peer first) := by
  refine triple_bind (catchable_lift (catchable_adb _)) fun adb => ?_
  refine triple_bind (catchable_ask fun log error h => ?_) fun _ => ?_
  · exact hcaught error (hwithin.launch_app log _ error h)
  refine triple_bind (catchable_ask fun log error h => ?_) fun _ => ?_
  · exact hcaught error (hwithin.snapshot log _ _ error h)
  refine triple_bind (catchable_ask fun log error h => ?_) fun answer => ?_
  · exact hcaught error (hwithin.operator log _ _ error h)
  exact triple_bind (catchable_lift fun error h => (supported_error h).1) fun _ =>
    triple_pure fun _ h => h

/-- If all that goes wrong in a step is caught, the step returns. -/
theorem tryStep_returns (index : ℕ) (label : String) (peer : AcceptancePeer) (first : Bool)
    (log : List BenchEvent) :
    ∃ out events, (tryStep py bench plan hardware index label peer first).exec log =
      (.ok out, log ++ events) ∧ events.filterMap BenchEvent.handed = [] := by
  obtain ⟨events, hlog, hquiet⟩ :=
    @adds_tryStep py bench plan hardware (fun event => event.handed = none)
      (fun _ => BenchEvent.Aside.handed) index label peer first
      (fun _ => quiet_linuxStep peer first) log
  have hbody : Catchable (if peer.kind = .linux then linuxStep bench hardware peer first
      else androidStep py bench plan index label peer first) := by
    split
    · exact catchable_linuxStep hwithin hcaught peer first
    · exact catchable_androidStep hwithin hcaught index label peer first
  -- a step raises only what its `except` catches
  have hreturns : ∃ out, ((tryStep py bench plan hardware index label peer first).exec log).1 =
      .ok out := by
    unfold tryStep
    rw [exec_tryCatch]
    rcases hrun : (if peer.kind = .linux then linuxStep bench hardware peer first
      else androidStep py bench plan index label peer first).exec log with ⟨error | out, log'⟩
    · dsimp only
      rw [if_pos (hbody.of_error trivial hrun)]
      exact ⟨_, rfl⟩
    · exact ⟨out, rfl⟩
  obtain ⟨out, hout⟩ := hreturns
  exact ⟨out, events, Prod.ext hout hlog, handed_quiet hquiet⟩

/-! ### The loop -/

/-- **The loop returns**, and every result handed out in it has a first part of
its steps. -/
theorem runSteps_returns {rest : List String} : (∀ label ∈ rest, ∃ peer,
      peerOf py plan label = .ok peer) → ∀ (index : ℕ) (steps : List Step) (first : Bool)
    (log : List BenchEvent),
    ∃ steps' events,
      (runSteps py bench plan hardware preflight rest index steps first).exec log =
        (.ok steps', log ++ events) ∧ steps <+: steps' ∧
      ∀ result ∈ events.filterMap BenchEvent.handed, result.steps <+: steps' := by
  induction rest with
  | nil =>
      intro _ index steps first log
      exact ⟨steps, [], by simp [runSteps], List.prefix_rfl, by simp⟩
  | cons label rest ih =>
      intro hpeers index steps first log
      obtain ⟨peer, hpeer⟩ := hpeers label (List.mem_cons_self ..)
      obtain ⟨⟨verdict, evidence, first'⟩, stepEvents, htry, hquiet⟩ :=
        @tryStep_returns py bench plan hardware faults hwithin hcaught index label peer first log
      have hlater : ∀ label ∈ rest, ∃ peer, peerOf py plan label = .ok peer :=
        fun label hlabel => hpeers label (List.mem_cons_of_mem _ hlabel)
      -- the step returns, its result is handed over, and the rest goes on from there
      obtain ⟨steps', events, hrun, hprefix, hhanded⟩ := ih hlater (index + 1)
        (steps ++ [⟨index, label, peer.kind, verdict, evidence⟩]) first'
        (log ++ stepEvents ++ [.checkpoint (resultOf plan preflight
          (steps ++ [⟨index, label, peer.kind, verdict, evidence⟩]) .running none) (.ok ())])
      refine ⟨steps', stepEvents ++ [.checkpoint (resultOf plan preflight
          (steps ++ [⟨index, label, peer.kind, verdict, evidence⟩]) .running none) (.ok ())] ++
          events, ?_, (List.prefix_append ..).trans hprefix, ?_⟩
      · unfold runSteps
        rw [exec_bind, exec_lift, hpeer]
        dsimp only
        rw [exec_bind, htry]
        dsimp only
        rw [exec_bind, hand_exec hwithin]
        dsimp only
        rw [hrun]
        simp only [List.append_assoc]
      · intro result hresult
        rw [List.filterMap_append, List.filterMap_append, hquiet, List.nil_append] at hresult
        rcases List.mem_append.mp hresult with hresult | hresult
        · obtain rfl : result = _ := List.mem_singleton.mp hresult
          exact hprefix
        · exact hhanded result hresult

end Caught

/-! ### The capacity stage -/

/-- If the operator answers with a verdict, the capacity stage returns. -/
theorem capacityStage_returns (hwithin : bench.Within plan faults)
    (hcapacity : ∀ error, ¬ faults.capacity error)
    (hanswer : ∀ answer, faults.answer answer → Verdict.parse answer ≠ none) (steps : List Step)
    (log : List BenchEvent) :
    ∃ capacity events, (capacityStage py bench plan preflight steps).exec log =
      (.ok capacity, log ++ events) ∧
      ∀ result ∈ events.filterMap BenchEvent.handed, result.steps = steps := by
  unfold capacityStage
  rcases plan.capacity_check with _ | check
  · exact ⟨none, [], by simp, by simp⟩
  · dsimp only
    -- the operator may raise, and may answer what is no verdict
    rcases hreply : bench.operator log (instructions check) with error | answer
    · exact absurd (hwithin.capacity log check error hreply) (hcapacity error)
    · obtain ⟨verdict, hverdict⟩ : ∃ verdict, Verdict.parse answer = some verdict := by
        rcases hparse : Verdict.parse answer with _ | verdict
        · exact absurd hparse (hanswer answer (hwithin.answer log check answer hreply hparse))
        · exact ⟨verdict, rfl⟩
      have hsupported : supported py answer = .ok verdict := by
        unfold supported
        rw [hverdict]
      unfold askOperator
      rw [exec_bind, exec_ask, hreply]
      dsimp only
      rw [exec_bind, exec_lift, hsupported]
      dsimp only
      rw [exec_bind, hand_exec hwithin]
      dsimp only
      refine ⟨_, _, Prod.ext rfl (List.append_assoc ..), ?_⟩
      intro result hresult
      obtain rfl : result = _ := List.mem_singleton.mp hresult
      rfl

/-! ### The run -/

/-- **If nothing gets past the filters**, the results are settled. -/
theorem run_acceptance_settled (hknown : plan.Known) (hwithin : bench.Within plan faults)
    (hcaught : ∀ error, faults.step error → caught error)
    (hcapacity : ∀ error, ¬ faults.capacity error)
    (hanswer : ∀ answer, faults.answer answer → Verdict.parse answer ≠ none)
    (percent mv minimum : ℤ) (log : List BenchEvent) :
    ∃ events, ((run_acceptance_plan py bench plan percent mv minimum).exec log).2 =
      log ++ events ∧ AcceptanceSettled events := by
  have hnothing : AcceptanceSettled [] := fun last h => by cases h
  unfold run_acceptance_plan
  rw [exec_bind, exec_lift]
  rcases acceptance_battery_preflight percent mv minimum with error | preflight
  · exact ⟨[], (List.append_nil _).symm, hnothing⟩
  dsimp only
  rw [exec_bind, exec_lift]
  rcases bench.contract with error | contract
  · exact ⟨[], (List.append_nil _).symm, hnothing⟩
  dsimp only
  rw [exec_bind, hand_exec hwithin]
  dsimp only
  obtain ⟨steps, stepEvents, hsteps, -, hstepsHanded⟩ :=
    @runSteps_returns py bench plan (defaultHardware contract) preflight faults hwithin hcaught
      plan.sequence (fun label hlabel => peerOf_known hknown hlabel) 1 [] true
      (log ++ [.checkpoint (resultOf plan preflight [] .running none) (.ok ())])
  rw [exec_bind, hsteps]
  dsimp only
  obtain ⟨capacity, capacityEvents, hcapacityRun, hcapacityHanded⟩ :=
    @capacityStage_returns py bench plan preflight faults hwithin hcapacity hanswer steps
      (log ++ [.checkpoint (resultOf plan preflight [] .running none) (.ok ())] ++ stepEvents)
  rw [exec_bind, hcapacityRun]
  dsimp only
  rw [exec_bind, hand_exec hwithin]
  dsimp only
  refine ⟨[.checkpoint (resultOf plan preflight [] .running none) (.ok ())] ++ stepEvents ++
    capacityEvents ++ [.checkpoint (resultOf plan preflight steps
      (overall (statuses steps capacity)) capacity) (.ok ())], ?_, ?_⟩
  · simp
  · unfold AcceptanceSettled
    rw [List.filterMap_append]
    -- the last result has all the steps, and an overall status
    refine settled_append (overall_ne_running _) ?_ List.prefix_rfl
    intro result hresult
    rw [List.filterMap_append, List.filterMap_append] at hresult
    rcases List.mem_append.mp hresult with hresult | hresult
    · rcases List.mem_append.mp hresult with hresult | hresult
      · obtain rfl : result = _ := List.mem_singleton.mp hresult
        exact List.nil_prefix
      · exact hstepsHanded result hresult
    · rw [hcapacityHanded result hresult]
      exact List.prefix_rfl

end Acceptance

/-! ## Both runs -/

/-- Whatever goes wrong within `faults`, an acceptance run leaves its results
settled. -/
def AcceptanceSettles (faults : Faults) : Prop :=
  ∀ (py : Builtins) (bench : Bench) (plan : AcceptancePlan) (reported_battery_percent
    reported_battery_mv minimum_battery_percent : ℤ) (log : List BenchEvent),
    plan.Known → bench.Within plan faults →
    ∃ events, ((run_acceptance_plan py bench plan reported_battery_percent reported_battery_mv
      minimum_battery_percent).exec log).2 = log ++ events ∧ AcceptanceSettled events

/-- Whatever `Exception` is raised, a soak that has ended left its results settled. -/
def SoakSettles : Prop :=
  ∀ (py : Builtins) (bench : SoakBench) (candidate baseline : BleEndpoint)
    (duration interval scan_window : ℚ) (fuel : ℕ) (log : List SoakEvent), bench.Plain →
    ((run_soak py bench candidate baseline duration interval scan_window fuel).exec log).1 ≠
      .ok none →
    ∃ events, ((run_soak py bench candidate baseline duration interval scan_window fuel).exec
      log).2 = log ++ events ∧ SoakSettled events

theorem soak_settles : SoakSettles := by
  intro py bench candidate baseline duration interval scan_window fuel log hplain hended
  have hover := @run_soak_over py bench candidate baseline duration interval scan_window log
    hplain fuel
  rcases hrun : (run_soak py bench candidate baseline duration interval scan_window fuel).exec log
    with ⟨error | result, log'⟩
  · exact hover.of_error rfl hrun
  · refine hover.of_ok rfl hrun fun hnone => hended ?_
    rw [hrun, hnone]

/-! ### What gets past -/

/-- A bench on which everything is fine, but for the probe, and for the operator at
the capacity stage of one plan. -/
def faultyBench (probe : Except PyExc ProbeResult) (check : CapacityCheck)
    (answer : Except PyExc String) : Bench where
  contract := .ok ⟨"battery", "firmware_revision", "companion_status", "companion_verify"⟩
  probe _ _ _ _ _ := probe
  launch_app _ _ := .ok ()
  snapshot _ _ _ := .ok ⟨"Pixel", "35", []⟩
  operator _ prompt := if prompt = instructions check then answer else .ok "pass"
  checkpoint := some fun _ _ => .ok ()

theorem stepPrompt_head (plan : AcceptancePlan) (index : ℕ) (label : String) :
    (stepPrompt plan index label).toList.head? = some 'S' := by
  unfold stepPrompt
  simp only [String.toList_append, List.head?_append]
  rfl

theorem instructions_head (check : CapacityCheck) :
    (instructions check).toList.head? = some 'W' := by
  unfold instructions
  simp only [String.toList_append, List.head?_append]
  rfl

/-- The two prompts are never the same. -/
theorem stepPrompt_ne (plan : AcceptancePlan) (index : ℕ) (label : String)
    (check : CapacityCheck) : stepPrompt plan index label ≠ instructions check := by
  intro h
  have hhead := stepPrompt_head plan index label
  rw [h, instructions_head] at hhead
  exact absurd hhead (by decide)

theorem faultyBench_within {faults : Faults} {probe : Except PyExc ProbeResult}
    {answer : Except PyExc String} {check : CapacityCheck} (plan : AcceptancePlan)
    (hprobe : ∀ error, probe = .error error → faults.step error)
    (hcapacity : ∀ error, answer = .error error → faults.capacity error)
    (hanswer : ∀ text, answer = .ok text → Verdict.parse text = none → faults.answer text) :
    (faultyBench probe check answer).Within plan faults where
  probe _ _ _ _ _ error h := hprobe error h
  launch_app _ _ error h := by cases h
  snapshot _ _ _ error h := by cases h
  operator log index label error h := by
    unfold faultyBench at h
    dsimp only at h
    -- the faulty answer is given to the prompt of the capacity check alone
    rw [if_neg (stepPrompt_ne plan index label check)] at h
    cases h
  capacity log check' error h := by
    unfold faultyBench at h
    dsimp only at h
    split at h
    · exact hcapacity error h
    · cases h
  answer log check' text h hparse := by
    unfold faultyBench at h
    dsimp only at h
    split at h
    · exact hanswer text h hparse
    · injection h with h
      rw [← h] at hparse
      exact absurd hparse (by decide)
  checkpoint := ⟨_, rfl, fun _ _ => rfl⟩

/-- A plan that begins with the laptop. -/
def laptopPlan : AcceptancePlan := { familyPlan with sequence := ["laptop", "phone", "laptop"] }

/-- A plan of nothing but a capacity check. -/
def capacityPlan (check : CapacityCheck) : AcceptancePlan :=
  { familyPlan with sequence := [], capacity_check := some check }

def familyCheck : CapacityCheck := ⟨"phone", "tablet", "laptop"⟩

def goodProbe : ProbeResult := ⟨"1.0", 50, unpackStatus [], unpackStatus [], none, none, []⟩

def textBuiltins : Builtins := ⟨id, id, id, fun _ => ""⟩

/-- A run whose last result is still running. -/
theorem not_settled_of_running {events : List BenchEvent} {last : AcceptanceResult}
    (h : (events.filterMap BenchEvent.handed).getLast? = some last)
    (hrunning : last.status = .running) : ¬ AcceptanceSettled events :=
  fun hsettled => (hsettled last h).1 hrunning

/-- An exception that is not caught ends the run in its first step. -/
theorem step_fault_exec {error : PyExc} (h : caught error = false) :
    ∃ endpoint, ((run_acceptance_plan textBuiltins
        (faultyBench (.error error) familyCheck (.ok "pass")) laptopPlan 40 3750 40).exec []).2 =
      [.checkpoint (resultOf laptopPlan ⟨40, 3750, 40⟩ [] .running none) (.ok ()),
        .probe endpoint true false (.error error)] := by
  have hpreflight : acceptance_battery_preflight 40 3750 40 = .ok ⟨40, 3750, 40⟩ := rfl
  have hsequence : laptopPlan.sequence = ["laptop", "phone", "laptop"] := rfl
  have hpeer : peerOf textBuiltins laptopPlan "laptop" =
      .ok ⟨"laptop", .linux, some "AA:BB:CC:DD:EE:FF", none, none, none, false⟩ := rfl
  have hinit : BleEndpoint.init (some "AA:BB:CC:DD:EE:FF") none none =
      .ok ⟨some "AA:BB:CC:DD:EE:FF", none, none, by decide⟩ := rfl
  refine ⟨⟨some "AA:BB:CC:DD:EE:FF", none, none, by decide⟩, ?_⟩
  simp [-bind_pure_comp, run_acceptance_plan, runSteps, tryStep, linuxStep, hand, faultyBench,
    exec_bind, exec_ask, exec_tryCatch, hpreflight, hsequence, hpeer, hinit, h]

/-- An exception of the operator, or an answer that is no verdict, ends the run at
its capacity stage. -/
theorem capacity_fault_exec {answer : Except PyExc String}
    (h : ∀ text, answer = .ok text → Verdict.parse text = none) :
    ((run_acceptance_plan textBuiltins (faultyBench (.ok goodProbe) familyCheck answer)
        (capacityPlan familyCheck) 40 3750 40).exec []).2 =
      [.checkpoint (resultOf (capacityPlan familyCheck) ⟨40, 3750, 40⟩ [] .running none) (.ok ()),
        .operator (instructions familyCheck) answer] := by
  have hpreflight : acceptance_battery_preflight 40 3750 40 = .ok ⟨40, 3750, 40⟩ := rfl
  have hsequence : (capacityPlan familyCheck).sequence = [] := rfl
  have hcheck : (capacityPlan familyCheck).capacity_check = some familyCheck := rfl
  cases answer with
  | error error =>
      simp [-bind_pure_comp, run_acceptance_plan, runSteps, capacityStage, askOperator, hand,
        faultyBench, exec_bind, exec_ask, hpreflight, hsequence, hcheck]
  | ok text =>
      simp [-bind_pure_comp, run_acceptance_plan, runSteps, capacityStage, askOperator, hand,
        supported, faultyBench, exec_bind, exec_ask, hpreflight, hsequence, hcheck, h text rfl]

theorem laptopPlan_known : laptopPlan.Known := by
  unfold AcceptancePlan.Known
  decide

/-- Such a fault at the capacity stage leaves the results as they were. -/
theorem capacity_fault_unsettled {faults : Faults} {answer : Except PyExc String}
    (hsettles : AcceptanceSettles faults) (h : ∀ text, answer = .ok text → Verdict.parse text = none)
    (hwithin : (faultyBench (.ok goodProbe) familyCheck answer).Within
      (capacityPlan familyCheck) faults) : False := by
  obtain ⟨events, hlog, hsettled⟩ := hsettles textBuiltins _ _ 40 3750 40 []
    (fun label hlabel => by cases hlabel) hwithin
  rw [capacity_fault_exec h, List.nil_append] at hlog
  rw [← hlog] at hsettled
  exact not_settled_of_running rfl rfl hsettled

/-- **When hardware runs never end looking alive**: exactly when no exception in a
step gets past its filters, and the operator answers the question about the
capacity with a verdict. -/
theorem runs_settle_iff (faults : Faults) :
    AcceptanceSettles faults ∧ SoakSettles ↔
      (∀ error, faults.step error → caught error) ∧ (∀ error, ¬ faults.capacity error) ∧
        (∀ answer, faults.answer answer → Verdict.parse answer ≠ none) := by
  constructor
  · rintro ⟨hsettles, -⟩
    refine ⟨fun error hfault => ?_, fun error hfault => ?_, fun answer hfault hparse => ?_⟩
    · by_contra hcaught
      -- a probe with this error, and nothing else that fails
      have hwithin : (faultyBench (.error error) familyCheck (.ok "pass")).Within laptopPlan faults :=
        faultyBench_within _ (fun e he => by cases he; exact hfault) (fun e he => by cases he)
          fun text htext hparse => by cases htext; exact absurd hparse (by decide)
      obtain ⟨events, hlog, hsettled⟩ := hsettles textBuiltins _ _ 40 3750 40 [] laptopPlan_known
        hwithin
      obtain ⟨endpoint, hexec⟩ := step_fault_exec (Bool.eq_false_iff.mpr hcaught)
      rw [hexec, List.nil_append] at hlog
      rw [← hlog] at hsettled
      exact not_settled_of_running rfl rfl hsettled
    · refine @capacity_fault_unsettled faults (.error error) hsettles (fun text h => by cases h)
        (faultyBench_within _ (fun e he => by cases he) (fun e he => by cases he; exact hfault)
          fun text htext _ => by cases htext)
    · refine @capacity_fault_unsettled faults (.ok answer) hsettles
        (fun text h => by cases h; exact hparse)
        (faultyBench_within _ (fun e he => by cases he) (fun e he => by cases he)
          fun text htext _ => by cases htext; exact hfault)
  · rintro ⟨hcaught, hcapacity, hanswer⟩
    refine ⟨?_, soak_settles⟩
    intro py bench plan percent mv minimum log hknown hwithin
    exact run_acceptance_settled hknown hwithin hcaught hcapacity hanswer percent mv minimum log

/-- Any `Exception` at all, and any answer. -/
def anyException : Faults where
  step error := error.isException
  capacity error := error.isException
  answer _ := True

/-- What `input` raises at the end of the input. -/
def EOFError : PyExc := ⟨.Exception, "builtins", "EOFError", "EOF when reading a line"⟩

theorem familyBench_within : (familyBench (.error EOFError)).Within familyPlan anyException where
  probe _ _ _ _ _ error h := by
    injection h with h
    rw [← h]
    rfl
  launch_app _ _ error h := by cases h
  snapshot _ _ _ error h := by cases h
  operator _ _ _ error h := by
    injection h with h
    rw [← h]
    rfl
  capacity _ _ error h := by
    injection h with h
    rw [← h]
    rfl
  answer _ _ _ _ _ := trivial
  checkpoint := ⟨_, rfl, fun _ _ => rfl⟩

/-- The operator's input ends in the first step, and the last result is one that is
still running. -/
theorem operator_eof_leaves_running : ¬ (AcceptanceSettles anyException ∧ SoakSettles) := by
  rintro ⟨hsettles, -⟩
  obtain ⟨events, hlog, hsettled⟩ := hsettles textBuiltins _ familyPlan 40 3750 40 []
    (by unfold AcceptancePlan.Known; decide) familyBench_within
  rw [List.nil_append] at hlog
  rw [← hlog] at hsettled
  exact not_settled_of_running rfl rfl hsettled

end Ptlab.Hardware
