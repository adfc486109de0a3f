/-
What is known of the processes when a termination function of `src/ptlab/processes.py`
returns: each was found gone by some poll, or SIGKILL went to it.

A trace only grows, so what is known of a process stays known (`Rising`). The wait may
drop an item from its set for one reason only, which is what a poll has to say of it;
`terminate_settles` is the rule for both functions.
-/
import Ptlab.Processes

set_option autoImplicit false

open Effect

namespace Ptlab.Processes

/-! ## What stays known -/

/-- A later trace of the same run. -/
structure Trace.Later (t t' : Trace) : Prop where
  probes : t.probes ≤ t'.probes
  signals : t.signals <+: t'.signals

/-- What holds of a trace holds later. -/
def Rising (P : Trace → Prop) : Prop := ∀ t t' : Trace, t.Later t' → P t → P t'

/-- At one of the questions asked so far the process was gone. -/
def Host.FoundGone (host : Host) (pid : ℤ) (t : Trace) : Prop :=
  ∃ n < t.probes, host.probe n pid = .ProcessLookupError

/-- SIGKILL was sent to the target. -/
def SentKill (target : Target) (t : Trace) : Prop := ⟨target, .SIGKILL⟩ ∈ t.signals

theorem rising_foundGone (host : Host) (pid : ℤ) : Rising (host.FoundGone pid) := by
  rintro t t' hlater ⟨n, hn, hgone⟩
  exact ⟨n, lt_of_lt_of_le hn hlater.probes, hgone⟩

theorem rising_sentKill (target : Target) : Rising (SentKill target) :=
  fun _ _ hlater h => hlater.signals.subset h

theorem Rising.and {P R : Trace → Prop} (hP : Rising P) (hR : Rising R) :
    Rising fun t => P t ∧ R t :=
  fun t t' hlater h => ⟨hP t t' hlater h.1, hR t t' hlater h.2⟩

theorem Rising.or {P R : Trace → Prop} (hP : Rising P) (hR : Rising R) :
    Rising fun t => P t ∨ R t :=
  fun t t' hlater h => h.imp (hP t t' hlater) (hR t t' hlater)

theorem rising_forall {β : Type} {P : β → Trace → Prop} (h : ∀ x, Rising (P x)) :
    Rising fun t => ∀ x, P x t :=
  fun t t' hlater hall x => h x t t' hlater (hall x)

theorem rising_imp {F : Prop} {P : Trace → Prop} (hP : Rising P) : Rising fun t => F → P t :=
  fun t t' hlater h hF => hP t t' hlater (h hF)

theorem rising_const (F : Prop) : Rising fun _ => F := fun _ _ _ h => h

/-! ## The steps -/

section Steps

variable {host : Host} {P : Trace → Prop} (hP : Rising P)

include hP

theorem process_is_alive_found (pid : ℤ) :
    Triple P (process_is_alive host pid)
      (fun isAlive t => P t ∧ (isAlive = false → host.FoundGone pid t)) (fun _ => P) := by
  intro t ht
  have hlater : P { t with probes := t.probes + 1 } :=
    hP t _ ⟨Nat.le_succ _, List.prefix_rfl⟩ ht
  unfold process_is_alive
  rw [exec_of]
  rcases hprobe : host.probe t.probes pid with _ | _ | _ | message
  · exact ⟨hlater, fun h => by cases h⟩
  · exact ⟨hlater, fun _ => ⟨t.probes, Nat.lt_succ_self _, hprobe⟩⟩
  · exact ⟨hlater, fun h => by cases h⟩
  · exact hlater

theorem send_sent (target : Target) (signal : Signal) :
    Triple P (send host target signal)
      (fun _ t => P t ∧ ⟨target, signal⟩ ∈ t.signals) (fun _ => P) := by
  intro t ht
  have hlater : P { t with signals := t.signals ++ [⟨target, signal⟩] } :=
    hP t _ ⟨le_rfl, List.prefix_append _ _⟩ ht
  have hsent : (⟨target, signal⟩ : Sent) ∈ t.signals ++ [⟨target, signal⟩] :=
    List.mem_append_right _ (List.mem_singleton_self _)
  unfold send
  rw [exec_of]
  rcases host.deliver t.signals.length ⟨target, signal⟩ with _ | _ | _ | message
  · exact ⟨hlater, hsent⟩
  · exact ⟨hlater, hsent⟩
  · exact hlater
  · exact hlater

theorem monotonic_rising : Always P (monotonic host) :=
  fun t ht => hP t _ ⟨le_rfl, List.prefix_rfl⟩ ht

/-- A loop whose turns each make something known of their item. -/
theorem forM_settles {β : Type} {D : β → Trace → Prop} {f : β → Effect Trace ProcessExc PUnit}
    (hD : ∀ x, Rising (D x))
    (hf : ∀ P : Trace → Prop, Rising P → ∀ x,
      Triple P (f x) (fun _ t => P t ∧ D x t) (fun _ => P)) (xs : List β) :
    Triple P (xs.forM f) (fun _ t => P t ∧ ∀ x ∈ xs, D x t) (fun _ => P) := by
  induction xs generalizing P with
  | nil => exact triple_pure fun t ht => ⟨ht, fun x hx => by cases hx⟩
  | cons x xs ih =>
      rw [List.forM]
      refine triple_bind (hf P hP x) fun _ => ?_
      exact (ih (hP.and (hD x))).conseq (fun _ h => h)
        (fun _ t h => ⟨h.1.1, List.forall_mem_cons.mpr ⟨h.1.2, h.2⟩⟩) fun _ _ h => h.1

theorem sendAll_sent {target : ℤ → Target} {signal : Signal} (ids : List ℤ) :
    Triple P (ids.forM fun id => send host (target id) signal)
      (fun _ t => P t ∧ ∀ id ∈ ids, ⟨target id, signal⟩ ∈ t.signals) (fun _ => P) :=
  forM_settles (D := fun id t => ⟨target id, signal⟩ ∈ t.signals) hP
    (fun _ _ _ hlater h => hlater.signals.subset h)
    (fun _ hP' id => send_sent hP' (target id) signal) ids

/-- A poll: what it leaves out was found gone. -/
theorem stillAlive_found {β : Type} (pid : β → ℤ) (xs : List β) :
    Triple P (stillAlive host pid xs)
      (fun ys t => P t ∧ ∀ x ∈ xs, x ∈ ys ∨ host.FoundGone (pid x) t) (fun _ => P) := by
  induction xs generalizing P with
  | nil => exact triple_pure fun t ht => ⟨ht, fun x hx => by cases hx⟩
  | cons x xs ih =>
      unfold stillAlive
      refine triple_bind (process_is_alive_found hP (pid x)) fun isAlive => ?_
      have hfirst : Rising fun t => P t ∧ (isAlive = false → host.FoundGone (pid x) t) :=
        hP.and (rising_imp (rising_foundGone host _))
      refine triple_bind ((ih hfirst).raises fun _ _ h => h.1) fun rest => ?_
      refine triple_pure fun t ht => ⟨ht.1.1, List.forall_mem_cons.mpr ⟨?_, fun y hy => ?_⟩⟩
      · cases isAlive with
        | true => exact .inl (List.mem_cons_self ..)
        | false => exact .inr (ht.1.2 rfl)
      · refine (ht.2 y hy).imp_left fun hmem => ?_
        split_ifs
        · exact List.mem_cons_of_mem _ hmem
        · exact hmem

end Steps

/-! ## The wait -/

section Wait

variable {host : Host} {P : Trace → Prop} {D : ℤ → Trace → Prop}
  {poll : List ℤ → Effect Trace ProcessExc (List ℤ)}

/-- What a poll says of the items it leaves out. -/
def PollFinds (poll : List ℤ → Effect Trace ProcessExc (List ℤ)) (D : ℤ → Trace → Prop) : Prop :=
  ∀ P : Trace → Prop, Rising P → ∀ xs, Triple P (poll xs)
    (fun ys t => P t ∧ ∀ x ∈ xs, x ∈ ys ∨ D x t) (fun _ => P)

variable (hD : ∀ x, Rising (D x)) (hpoll : PollFinds poll D)

include hD hpoll

/-- **The wait** drops an item only for what a poll said of it. By induction on the
turns; what is known of the dropped ones rises through the turns that follow. -/
theorem waitWhile_finds (hP : Rising P) (deadline : ℚ) (fuel : ℕ) : ∀ remaining : List ℤ,
    Triple P (waitWhile host deadline poll fuel remaining)
      (fun ys t => P t ∧ ∀ x ∈ remaining, x ∈ ys ∨ D x t) (fun _ => P) := by
  induction fuel generalizing P with
  | zero => exact fun remaining => triple_throw fun t ht => ht
  | succ fuel ih =>
      intro remaining
      unfold waitWhile
      split_ifs with hempty
      · exact triple_pure fun t ht => ⟨ht, fun x hx => .inl hx⟩
      refine triple_bind (monotonic_rising hP) fun now => ?_
      split_ifs with hnow
      · refine triple_bind (hpoll P hP remaining) fun left => ?_
        have hfound : Rising fun t => P t ∧ ∀ x ∈ remaining, x ∈ left ∨ D x t :=
          hP.and (rising_forall fun x => rising_imp ((rising_const _).or (hD x)))
        -- the last reading of the clock is for the sleep
        have hrest : Triple (fun t => P t ∧ ∀ x ∈ remaining, x ∈ left ∨ D x t)
            (waitWhile host deadline poll fuel left)
            (fun ys t => P t ∧ ∀ x ∈ remaining, x ∈ ys ∨ D x t) (fun _ => P) := by
          refine (ih hfound left).conseq (fun _ h => h) (fun ys t h => ⟨h.1.1, fun x hx => ?_⟩)
            fun _ _ h => h.1
          rcases h.1.2 x hx with hleft | hgone
          · exact h.2 x hleft
          · exact .inr hgone
        split_ifs
        · exact triple_bind ((monotonic_rising hfound).raises fun _ _ h => h.1) fun _ => hrest
        · exact hrest
      · exact triple_pure fun t ht => ⟨ht, fun x hx => .inl hx⟩

/-- **On return** every item was dropped by a poll, or it was killed. -/
theorem terminate_settles (hP : Rising P) (target : ℤ → Target) (timeout : ℚ) (fuel : ℕ)
    (remaining : List ℤ) :
    Triple P (terminate host target timeout poll fuel remaining)
      (fun _ t => P t ∧ ∀ x ∈ remaining, D x t ∨ SentKill (target x) t) (fun _ => P) := by
  unfold terminate
  refine triple_bind ((sendAll_sent hP (host.order remaining)).conseq (fun _ h => h)
    (fun _ _ h => h.1) fun _ _ h => h) fun _ => ?_
  refine triple_bind (monotonic_rising hP) fun now => ?_
  refine triple_bind (waitWhile_finds hD hpoll hP _ fuel remaining) fun left => ?_
  have hfound : Rising fun t => P t ∧ ∀ x ∈ remaining, x ∈ left ∨ D x t :=
    hP.and (rising_forall fun x => rising_imp ((rising_const _).or (hD x)))
  refine (sendAll_sent hfound (host.order left)).conseq (fun _ h => h)
    (fun _ t h => ⟨h.1.1, fun x hx => ?_⟩) fun _ _ h => h.1
  rcases h.1.2 x hx with hleft | hgone
  · exact .inr (h.2 x ((host.mem_order left x).mpr hleft))
  · exact .inl hgone

end Wait

/-! ## The functions -/

section Functions

variable {host : Host} {P : Trace → Prop}

/-- **`terminate_process_groups`** leaves no reference open: its process was found gone,
or its group was killed. -/
theorem terminate_process_groups_settles (hP : Rising P) (processes : List ProcessRef)
    (timeout : ℚ) (fuel : ℕ) :
    Triple P (terminate_process_groups host processes timeout fuel)
      (fun _ t => P t ∧ ∀ ref ∈ guarded processes,
        host.FoundGone ref.pid t ∨ SentKill (.group ref.pgid) t) (fun _ => P) := by
  unfold terminate_process_groups
  dsimp only
  split_ifs
  · exact triple_throw fun t ht => ht
  -- a group is dropped when every process that leads it is gone
  let D : ℤ → Trace → Prop := fun g t =>
    ∀ ref, ref ∈ guarded processes ∧ ref.pgid = g → host.FoundGone ref.pid t
  have hD : ∀ g, Rising (D g) := fun g =>
    rising_forall fun ref => rising_imp (rising_foundGone host _)
  refine triple_bind (stillAlive_found hP _ _) fun live => ?_
  have hfirst : Rising fun t => P t ∧ ∀ ref ∈ guarded processes,
      ref ∈ live ∨ host.FoundGone ref.pid t :=
    hP.and (rising_forall fun ref => rising_imp ((rising_const _).or (rising_foundGone host _)))
  refine (terminate_settles (D := D) hD (fun P' hP' groups => ?_) hfirst .group timeout fuel
    (live.map ProcessRef.pgid)).conseq (fun _ h => h) (fun _ t h => ⟨h.1.1, fun ref href => ?_⟩)
    fun _ _ h => h.1
  · refine triple_bind (stillAlive_found hP' _ _) fun left => triple_pure fun t ht => ⟨ht.1, ?_⟩
    intro g hg
    by_cases hleft : g ∈ left.map ProcessRef.pgid
    · exact .inl hleft
    · refine .inr fun ref href => ?_
      have hasked : ref ∈ (guarded processes).filter fun ref => ref.pgid ∈ groups := by
        rw [List.mem_filter, href.2]
        exact ⟨href.1, decide_eq_true hg⟩
      refine (ht.2 ref hasked).resolve_left fun hmem => hleft ?_
      exact List.mem_map.mpr ⟨ref, hmem, href.2⟩
  · rcases h.1.2 ref href with hlive | hgone
    · exact (h.2 ref.pgid (List.mem_map_of_mem hlive)).imp_left fun hD => hD ref ⟨href, rfl⟩
    · exact .inl hgone

/-- **`terminate_pids`** likewise. -/
theorem terminate_pids_settles (hP : Rising P) (pids : List ℤ) (timeout : ℚ) (fuel : ℕ) :
    Triple P (terminate_pids host pids timeout fuel)
      (fun _ t => P t ∧ ∀ pid ∈ pids, 1 < pid →
        host.FoundGone pid t ∨ SentKill (.process pid) t) (fun _ => P) := by
  unfold terminate_pids
  refine triple_bind (stillAlive_found hP id _) fun live => ?_
  have hfirst : Rising fun t => P t ∧ ∀ pid ∈ pids.filter (fun pid => 1 < pid),
      pid ∈ live ∨ host.FoundGone (id pid) t :=
    hP.and (rising_forall fun pid => rising_imp ((rising_const _).or (rising_foundGone host _)))
  refine (terminate_settles (D := host.FoundGone) (rising_foundGone host) (fun P' hP' xs => ?_)
    hfirst .process timeout fuel live).conseq (fun _ h => h)
    (fun _ t h => ⟨h.1.1, fun pid hpid hlt => ?_⟩) fun _ _ h => h.1
  · refine (stillAlive_found hP' id _).conseq (fun _ h => h) (fun ys t h => ⟨h.1, fun x hx => ?_⟩)
      fun _ _ h => h
    exact h.2 x ((host.mem_order xs x).mpr hx)
  · have hasked : pid ∈ pids.filter fun pid => 1 < pid :=
      List.mem_filter.mpr ⟨hpid, decide_eq_true hlt⟩
    rcases h.1.2 pid hasked with hlive | hgone
    · exact h.2 pid hlive
    · exact .inl hgone

end Functions

end Ptlab.Processes
