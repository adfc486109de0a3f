/-
`Simulator.stop` and `Simulator.kill` (`src/ptlab/sim.py`), and whom they signal.

Both take their targets from the state file: process groups if it has any
reference, else single processes. `stop` leaves the choice to the guards of
`terminate_process_groups` and `terminate_pids`; `kill` sends SIGKILL itself.
`stop_kill_safe_iff` says for which state files they can do no harm.
-/
import Mathlib.Data.List.Dedup
import Ptlab.Sim.State

set_option autoImplicit false

open Effect Ptlab.Processes

namespace Ptlab.Sim

/-! ## The operations -/

/-- Something done to the processes. -/
def onProcesses {α : Type} (m : Effect Trace ProcessExc α) : Effect SimWorld ProcessExc α :=
  zoom SimWorld.trace (fun trace w => { w with trace := trace }) m

/-- `self.layout.state.unlink(missing_ok=True)`. -/
def unlinkState : Effect SimWorld ProcessExc Unit :=
  update fun w => { w with stateFile := none }

/-- The branch in `stop`. -/
def terminateRecorded (host : Host) (fuel : ℕ) (state : SimState) :
    Effect Trace ProcessExc Unit :=
  if _process_refs state ≠ [] then
    terminate_process_groups host (_process_refs state) 3 fuel
  else
    terminate_pids host (_legacy_pids state) 3 fuel

/-- `Simulator.stop`. -/
def stop (host : Host) (fuel : ℕ) : Effect SimWorld ProcessExc Bool := do
  match ← read SimWorld.stateFile with
  | none => return false
  | some state =>
    onProcesses (terminateRecorded host fuel state)
    unlinkState
    return true

/-- The targets of `kill`: process, process group, and whether the group is meant. -/
def killTargets (state : SimState) : List (ℤ × ℤ × Bool) :=
  if _process_refs state ≠ [] then
    (_process_refs state).map fun ref => (ref.pid, ref.pgid, true)
  else (_legacy_pids state).map fun pid => (pid, pid, false)

theorem mem_killTargets {state : SimState} {target : ℤ × ℤ × Bool} :
    target ∈ killTargets state ↔
      (∃ ref ∈ _process_refs state, (ref.pid, ref.pgid, true) = target) ∨
        (_process_refs state = [] ∧ ∃ pid ∈ _legacy_pids state, (pid, pid, false) = target) := by
  unfold killTargets
  by_cases hrefs : _process_refs state = []
  · rw [if_neg (not_not.mpr hrefs), List.mem_map]
    refine ⟨fun h => .inr ⟨hrefs, h⟩, fun h => ?_⟩
    rcases h with ⟨ref, hmem, -⟩ | ⟨-, h⟩
    · rw [hrefs] at hmem
      exact absurd hmem List.not_mem_nil
    · exact h
  · rw [if_pos hrefs, List.mem_map]
    exact ⟨.inl, fun h => h.resolve_right fun hnone => hrefs hnone.1⟩

/-- One turn of the loop in `kill`. -/
def killTarget (host : Host) (target : ℤ × ℤ × Bool) : Effect SimWorld ProcessExc Unit := do
  let (pid, process_group, grouped) := target
  if ← onProcesses (process_is_alive host pid) then
    if grouped then onProcesses (send host (.group process_group) .SIGKILL)
    else onProcesses (send host (.process pid) .SIGKILL)

/-- `Simulator.kill`. -/
def kill (host : Host) : Effect SimWorld ProcessExc Bool := do
  match ← read SimWorld.stateFile with
  | none => return false
  | some state =>
    (killTargets state).forM (killTarget host)
    unlinkState
    return true

/-! ## Harm -/

/-- A target of 1 or less, or ptlab itself. -/
def Harmful (getpid getpgrp : ℤ) : Target → Prop
  | .process pid => pid ≤ 1 ∨ pid = getpid
  | .group pgid => pgid ≤ 1 ∨ pgid = getpgrp

/-- A world with this state file in which nothing has been done yet. -/
def SimWorld.found (state : SimState) : SimWorld := ⟨⟨0, 0, []⟩, some state⟩

/-- On any system where ptlab has this process and group, a run with this state
file sends no harmful signal. -/
def Harmless (getpid getpgrp : ℤ) (state : SimState)
    (run : Host → Effect SimWorld ProcessExc Bool) : Prop :=
  ∀ host : Host, host.getpid = getpid → host.getpgrp = getpgrp →
    ∀ s ∈ ((run host).exec (.found state)).2.trace.signals, ¬ Harmful getpid getpgrp s.target

/-- A system where every process is there and takes its signals. -/
def obliging (getpid getpgrp : ℤ) : Host where
  getpid := getpid
  getpgrp := getpgrp
  probe := fun _ _ => .ok
  deliver := fun _ _ => .ok
  monotonic := fun n => n
  order := List.dedup
  order_nodup := List.nodup_dedup
  mem_order := fun _ _ => List.mem_dedup

theorem obliging_obliging (getpid getpgrp : ℤ) : (obliging getpid getpgrp).Obliging :=
  ⟨fun _ _ => rfl, fun _ _ => rfl⟩

section Lift

variable {host : Host} {state : SimState}

theorem triple_onProcesses {α : Type} {m : Effect Trace ProcessExc α} {P : Trace → Prop}
    {Q : α → Trace → Prop} {E : ProcessExc → Trace → Prop} (h : Triple P m Q E) :
    Triple (fun w => P w.trace) (onProcesses m) (fun a w => Q a w.trace)
      (fun e w => E e w.trace) :=
  triple_zoom (fun _ _ => rfl) h

/-- What `stop` does to a state file that is there. -/
theorem stop_found (host : Host) (fuel : ℕ) (state : SimState) :
    (stop host fuel).exec (.found state) =
      exec (do
        onProcesses (terminateRecorded host fuel state)
        unlinkState
        return true) (.found state) := by
  unfold stop
  rw [exec_bind]
  rfl

theorem kill_found (host : Host) (state : SimState) :
    (kill host).exec (.found state) =
      exec (do
        (killTargets state).forM (killTarget host)
        unlinkState
        return true) (.found state) := by
  unfold kill
  rw [exec_bind]
  rfl

/-- The file is gone afterwards; the trace is as it was. -/
theorem triple_unlinkState {P : Trace → Prop} {E : ProcessExc → SimWorld → Prop} :
    Triple (fun w => P w.trace) (do unlinkState; return true) (fun _ w => P w.trace) E := by
  have hunlink : Triple (fun w => P w.trace) unlinkState (fun _ w => P w.trace) E :=
    triple_update fun _ hw => hw
  exact triple_bind hunlink fun _ => triple_pure fun _ hw => hw

end Lift

/-! ## Whom they signal -/

section Safe

variable {getpid getpgrp : ℤ} {state : SimState}

/-- Nothing harmful has been sent. -/
def NoHarm (getpid getpgrp : ℤ) (signals : List Sent) : Prop :=
  ∀ s ∈ signals, ¬ Harmful getpid getpgrp s.target

theorem noHarm_append {l : List Sent} {s : Sent} (hs : ¬ Harmful getpid getpgrp s.target)
    (hl : NoHarm getpid getpgrp l) : NoHarm getpid getpgrp (l ++ [s]) := by
  intro x hx
  rcases List.mem_append.mp hx with hx | hx
  · exact hl x hx
  · rw [List.mem_singleton.mp hx]
    exact hs

/-- `stop` is harmless unless it has only legacy pids and one of them is ptlab's
own. -/
theorem stop_harmless (fuel : ℕ)
    (h : _process_refs state = [] → 1 < getpid → getpid ∉ _legacy_pids state) :
    Harmless getpid getpgrp state fun host => stop host fuel := by
  intro host hpid hpgrp
  rw [stop_found]
  have hrun : Always (fun t => NoHarm getpid getpgrp t.signals)
      (terminateRecorded host fuel state) := by
    unfold terminateRecorded
    split_ifs with hrefs
    · -- groups: the guards of `terminate_process_groups` are enough
      refine terminate_process_groups_always (P := fun s => ¬ Harmful getpid getpgrp s.target)
        (fun l s => noHarm_append) (fun ref _ hone hown signal => ?_) 3 fuel
      rw [hpgrp] at hown
      simp only [Harmful]
      omega
    · -- legacy pids: only the state file can keep ptlab's own out
      refine terminate_pids_always (P := fun s => ¬ Harmful getpid getpgrp s.target)
        (fun l s => noHarm_append) (fun pid hmem hone signal => ?_) 3 fuel
      have hown : pid ≠ getpid := by
        rintro rfl
        exact h (not_not.mp hrefs) hone hmem
      simp only [Harmful]
      omega
  have hall : Always (fun w : SimWorld => NoHarm getpid getpgrp w.trace.signals) (do
      onProcesses (terminateRecorded host fuel state)
      unlinkState
      return true) :=
    always_bind (triple_onProcesses hrun) fun _ =>
      triple_unlinkState (P := fun t => NoHarm getpid getpgrp t.signals)
  exact hall.exec (s := .found state) fun s hs => by cases hs

/-- `kill` is harmless unless a group or a legacy pid is 1 or less or ptlab's
own. -/
theorem kill_harmless
    (hrefs : ∀ ref ∈ _process_refs state, 1 < ref.pgid ∧ ref.pgid ≠ getpgrp)
    (hlegacy : _process_refs state = [] → ∀ pid ∈ _legacy_pids state, 1 < pid ∧ pid ≠ getpid) :
    Harmless getpid getpgrp state kill := by
  intro host hpid hpgrp
  rw [kill_found]
  have hturn : ∀ target ∈ killTargets state,
      Always (fun w : SimWorld => NoHarm getpid getpgrp w.trace.signals)
        (killTarget host target) := by
    intro target htarget
    have hsend : ∀ victim : Target, ¬ Harmful getpid getpgrp victim →
        Always (fun w : SimWorld => NoHarm getpid getpgrp w.trace.signals)
          (onProcesses (send host victim .SIGKILL)) := fun victim hvictim =>
      triple_onProcesses (send_always (P := fun s => ¬ Harmful getpid getpgrp s.target)
        (fun l s => noHarm_append) hvictim)
    -- `kill` has no guard of its own: the target is as safe as its entry in the state file
    rcases mem_killTargets.mp htarget with ⟨ref, hmem, rfl⟩ | ⟨hnone, pid, hmem, rfl⟩
    · refine always_bind (triple_onProcesses (process_is_alive_always ref.pid)) fun isAlive => ?_
      split_ifs with hlive hgrouped
      · have hsafe := hrefs ref hmem
        refine hsend (.group ref.pgid) ?_
        simp only [Harmful]
        omega
      · exact absurd rfl hgrouped
      · exact always_pure _
    · refine always_bind (triple_onProcesses (process_is_alive_always pid)) fun isAlive => ?_
      split_ifs with hlive hgrouped
      · exact hgrouped.elim
      · have hsafe := hlegacy hnone pid hmem
        refine hsend (.process pid) ?_
        simp only [Harmful]
        omega
      · exact always_pure _
  have hall : Always (fun w : SimWorld => NoHarm getpid getpgrp w.trace.signals) (do
      (killTargets state).forM (killTarget host)
      unlinkState
      return true) :=
    always_bind (always_forM hturn) fun _ =>
      triple_unlinkState (P := fun t => NoHarm getpid getpgrp t.signals)
  exact hall.exec (s := .found state) fun s hs => by cases hs

/-- With legacy pids only, `stop` on an obliging system signals each above 1. -/
theorem stop_reaches (fuel : ℕ) (hrefs : _process_refs state = []) {pid : ℤ}
    (hpid : pid ∈ _legacy_pids state) (hone : 1 < pid) :
    ⟨.process pid, .SIGTERM⟩ ∈ ((stop (obliging getpid getpgrp) fuel).exec
      (.found state)).2.trace.signals := by
  rw [stop_found]
  let P : Trace → Prop := fun t => ⟨.process pid, .SIGTERM⟩ ∈ t.signals
  have hterm : Triple (fun _ => True) (terminateRecorded (obliging getpid getpgrp) fuel state)
      (fun _ => P) (fun _ => P) := by
    unfold terminateRecorded
    rw [if_neg (not_not.mpr hrefs)]
    exact terminate_pids_reaches (obliging_obliging getpid getpgrp) hpid hone 3 fuel
  have hall : Triple (fun _ : SimWorld => True) (do
      onProcesses (terminateRecorded (obliging getpid getpgrp) fuel state)
      unlinkState
      return true) (fun _ w => P w.trace) (fun _ w => P w.trace) :=
    triple_bind (triple_onProcesses hterm) fun _ => triple_unlinkState (P := P)
  exact hall.final trivial (fun _ _ h => h) fun _ _ h => h

/-- The signal a turn of the loop in `kill` sends. -/
def killSignal (target : ℤ × ℤ × Bool) : Sent :=
  ⟨if target.2.2 then .group target.2.1 else .process target.1, .SIGKILL⟩

/-- One turn on an obliging system. -/
theorem killTarget_obliging (target : ℤ × ℤ × Bool) (w : SimWorld) :
    (killTarget (obliging getpid getpgrp) target).exec w =
      (.ok (), { w with trace := { w.trace with
        probes := w.trace.probes + 1, signals := w.trace.signals ++ [killSignal target] } }) := by
  obtain ⟨pid, process_group, grouped⟩ := target
  cases grouped <;> rfl

/-- `kill` on an obliging system signals each of its targets. -/
theorem kill_reaches {target : ℤ × ℤ × Bool} (htarget : target ∈ killTargets state) :
    killSignal target ∈
      ((kill (obliging getpid getpgrp)).exec (.found state)).2.trace.signals := by
  rw [kill_found]
  let P : Trace → Prop := fun t => killSignal target ∈ t.signals
  have hloop : Triple (fun _ => True)
      ((killTargets state).forM (killTarget (obliging getpid getpgrp))) (fun _ w => P w.trace)
      (fun _ w => P w.trace) := by
    refine triple_forM_mem (I := fun _ => True) htarget (fun y _ w _ => ?_) (fun w _ => ?_)
      fun y _ w hw => ?_
    · rw [killTarget_obliging]; trivial
    · rw [killTarget_obliging]; exact List.mem_append_right _ (List.mem_singleton_self _)
    · rw [killTarget_obliging]; exact List.mem_append_left _ hw
  have hall : Triple (fun _ : SimWorld => True) (do
      (killTargets state).forM (killTarget (obliging getpid getpgrp))
      unlinkState
      return true) (fun _ w => P w.trace) (fun _ w => P w.trace) :=
    triple_bind hloop fun _ => triple_unlinkState (P := P)
  exact hall.final trivial (fun _ _ h => h) fun _ _ h => h

end Safe

/-! ## The contract -/

theorem one_lt_and_ne_of_not_harmful {getpid getpgrp : ℤ} {id : ℤ} :
    (¬ Harmful getpid getpgrp (.process id) → 1 < id ∧ id ≠ getpid) ∧
      (¬ Harmful getpid getpgrp (.group id) → 1 < id ∧ id ≠ getpgrp) := by
  simp only [Harmful]
  omega

/-- **When shutdown is safe.** `stop` is harmless, whatever the system answers,
exactly if no legacy pid it falls back on is ptlab's own. `kill` is harmless
exactly if every group, or else every legacy pid, is above 1 and not ptlab's
own. -/
theorem stop_kill_safe_iff (getpid getpgrp : ℤ) (state : SimState) :
    ((∀ fuel, Harmless getpid getpgrp state fun host => stop host fuel) ↔
        (_process_refs state = [] → 1 < getpid → getpid ∉ _legacy_pids state)) ∧
      (Harmless getpid getpgrp state kill ↔
        (∀ ref ∈ _process_refs state, 1 < ref.pgid ∧ ref.pgid ≠ getpgrp) ∧
          (_process_refs state = [] →
            ∀ pid ∈ _legacy_pids state, 1 < pid ∧ pid ≠ getpid)) := by
  refine ⟨⟨fun hsafe hrefs hone hmem => ?_, fun h fuel => stop_harmless fuel h⟩,
    ⟨fun hsafe => ⟨fun ref href => ?_, fun hrefs pid hpid => ?_⟩,
      fun h => kill_harmless h.1 h.2⟩⟩
  · -- on an obliging system every target is signalled, so each has to be harmless
    refine hsafe 0 (obliging getpid getpgrp) rfl rfl _ (stop_reaches 0 hrefs hmem hone) ?_
    exact Or.inr rfl
  · have htarget : (ref.pid, ref.pgid, true) ∈ killTargets state :=
      mem_killTargets.mpr (.inl ⟨ref, href, rfl⟩)
    exact one_lt_and_ne_of_not_harmful.2
      (hsafe (obliging getpid getpgrp) rfl rfl _ (kill_reaches htarget))
  · have htarget : (pid, pid, false) ∈ killTargets state :=
      mem_killTargets.mpr (.inr ⟨hrefs, pid, hpid, rfl⟩)
    exact one_lt_and_ne_of_not_harmful.1
      (hsafe (obliging getpid getpgrp) rfl rfl _ (kill_reaches htarget))

/-- **What goes wrong.** ptlab is process 500 in group 400. `stop` sends SIGTERM
to ptlab itself if it is the legacy `sim_pid`. `kill` sends SIGKILL to ptlab's
group if the state file has it, and to everything ptlab may signal if the legacy
`sim_pid` is -1. -/
theorem stop_and_kill_harm :
    let host := obliging 500 400
    (∀ fuel, ⟨.process 500, .SIGTERM⟩ ∈
        ((stop host fuel).exec (.found ⟨none, none, some 500, none⟩)).2.trace.signals) ∧
      ((kill host).exec (.found ⟨some ⟨some 77, some 400⟩, none, none, none⟩)).2.trace.signals =
        [⟨.group 400, .SIGKILL⟩] ∧
      ((kill host).exec (.found ⟨none, none, some (-1), none⟩)).2.trace.signals =
        [⟨.process (-1), .SIGKILL⟩] :=
  ⟨fun fuel => stop_reaches fuel rfl (by decide) (by decide), by decide, by decide⟩

end Ptlab.Sim
