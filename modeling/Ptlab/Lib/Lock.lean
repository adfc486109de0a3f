/-
Threads that share a state under one lock.

A call takes the lock, goes through its section step by step, and gives the lock back.
The steps of the threads come in any order, and a thread in its section does not look at
the lock again: that no other one is in there is a fact about runs. `Reached.serial` is
the reduction. What the threads have done to the state is what their calls do one after
another, in the order in which they took the lock, and the beginning of the section that
is under way.
-/
import Mathlib.Logic.Function.Basic
import Mathlib.Logic.Relation
import Mathlib.Tactic

set_option autoImplicit false

namespace Lock

open Relation

/-- What a call `m` does while it has the lock: where it begins, its steps on the state,
and where it may give the lock back. -/
structure Section (M L S : Type*) where
  enter : M → L
  step : L → S → L → S → Prop
  leave : L → Prop

/-- A thread: its calls that are not over, and how far the first one is, if it is in its
section. -/
structure Thread (M L : Type*) where
  calls : List M
  inside : Option L

structure World (T M L S : Type*) where
  lock : Option T
  threads : T → Thread M L
  shared : S

variable {T M L S : Type*} [DecidableEq T]

/-- The step of one thread. -/
inductive Step (sec : Section M L S) : World T M L S → World T M L S → Prop
  | acquire {w : World T M L S} {t : T} {m : M} {ms : List M} (ht : w.threads t = ⟨m :: ms, none⟩)
      (hfree : w.lock = none) : Step sec w { w with
        lock := some t
        threads := Function.update w.threads t ⟨m :: ms, some (sec.enter m)⟩ }
  | inner {w : World T M L S} {t : T} {ms : List M} {l l' : L} {s' : S}
      (ht : w.threads t = ⟨ms, some l⟩) (hstep : sec.step l w.shared l' s') : Step sec w { w with
        threads := Function.update w.threads t ⟨ms, some l'⟩
        shared := s' }
  | release {w : World T M L S} {t : T} {m : M} {ms : List M} {l : L}
      (ht : w.threads t = ⟨m :: ms, some l⟩) (hleave : sec.leave l) : Step sec w { w with
        lock := none
        threads := Function.update w.threads t ⟨ms, none⟩ }

/-- Before any call. -/
def start (calls : T → List M) (s : S) : World T M L S := ⟨none, fun t => ⟨calls t, none⟩, s⟩

/-- Any interleaving. -/
def Reached (sec : Section M L S) (calls : T → List M) (s : S) (w : World T M L S) : Prop :=
  ReflTransGen (Step sec) (start calls s) w

/-! ## One call at a time -/

/-- The section of `m` alone, from `s` up to some point. -/
def Within (sec : Section M L S) (m : M) (s : S) (l : L) (s' : S) : Prop :=
  ReflTransGen (fun p q : L × S => sec.step p.1 p.2 q.1 q.2) (sec.enter m, s) (l, s')

/-- All of it. -/
def Runs (sec : Section M L S) (m : M) (s s' : S) : Prop := ∃ l, Within sec m s l s' ∧ sec.leave l

/-- Calls one after another. -/
inductive Serial (sec : Section M L S) (s : S) : List (T × M) → S → Prop
  | nil : Serial sec s [] s
  | snoc {done : List (T × M)} {t : T} {m : M} {s' s'' : S} (hdone : Serial sec s done s')
      (hrun : Runs sec m s' s'') : Serial sec s (done ++ [(t, m)]) s''

/-- The calls of one thread among those of all. -/
def callsOf (t : T) (done : List (T × M)) : List M :=
  done.filterMap fun call => if call.1 = t then some call.2 else none

theorem callsOf_snoc_self (t : T) (done : List (T × M)) (m : M) :
    callsOf t (done ++ [(t, m)]) = callsOf t done ++ [m] := by
  unfold callsOf
  rw [List.filterMap_append, List.filterMap_cons, if_pos rfl]
  rfl

theorem callsOf_snoc_of_ne {t t' : T} (hne : t' ≠ t) (done : List (T × M)) (m : M) :
    callsOf t (done ++ [(t', m)]) = callsOf t done := by
  unfold callsOf
  rw [List.filterMap_append, List.filterMap_cons, if_neg hne]
  exact List.append_nil _

/-! ## The reduction -/

/-- Where the holder of the lock is, if there is one, since the state was `s`; no other
thread is in its section. -/
def Held (sec : Section M L S) (s : S) (w : World T M L S) : Prop :=
  match w.lock with
  | none => w.shared = s ∧ ∀ t, (w.threads t).inside = none
  | some t => (∃ m ms l, w.threads t = ⟨m :: ms, some l⟩ ∧ Within sec m s l w.shared) ∧
      ∀ t', t' ≠ t → (w.threads t').inside = none

/-- The calls that are over, in the order in which they took the lock. -/
structure Serialized (sec : Section M L S) (calls : T → List M) (s : S) (w : World T M L S)
    (done : List (T × M)) (s' : S) : Prop where
  serial : Serial sec s done s'
  held : Held sec s' w
  order : ∀ t, calls t = callsOf t done ++ (w.threads t).calls

variable {sec : Section M L S} {calls : T → List M} {s : S}

omit [DecidableEq T] in
/-- **Mutual exclusion.** A thread in its section has the lock. -/
theorem Held.lock_of_inside {w : World T M L S} (h : Held sec s w) {t : T} {l : L}
    (ht : (w.threads t).inside = some l) : w.lock = some t := by
  unfold Held at h
  split at h
  · rw [h.2 t] at ht
    cases ht
  · next holder hlock =>
    by_contra hne
    rw [h.2 t fun heq => hne (heq ▸ hlock)] at ht
    cases ht

omit [DecidableEq T] in
theorem Held.holder {w : World T M L S} (h : Held sec s w) {t : T} (hlock : w.lock = some t) :
    (∃ m ms l, w.threads t = ⟨m :: ms, some l⟩ ∧ Within sec m s l w.shared) ∧
      ∀ t', t' ≠ t → (w.threads t').inside = none := by
  unfold Held at h
  rw [hlock] at h
  exact h

omit [DecidableEq T] in
theorem Held.free {w : World T M L S} (h : Held sec s w) (hlock : w.lock = none) :
    w.shared = s ∧ ∀ t, (w.threads t).inside = none := by
  unfold Held at h
  rw [hlock] at h
  exact h

/-- **The step.** -/
theorem Serialized.step {w w' : World T M L S} {done : List (T × M)} {s' : S}
    (h : Serialized sec calls s w done s') (hstep : Step sec w w') :
    ∃ done' s'', Serialized sec calls s w' done' s'' := by
  cases hstep with
  | @acquire t m ms ht hfree =>
      obtain ⟨hshared, hout⟩ := h.held.free hfree
      refine ⟨done, s', h.serial, ⟨⟨m, ms, _, Function.update_self .., ?_⟩, fun t' hne => ?_⟩,
        fun t' => ?_⟩
      · rw [← hshared]
        exact .refl
      · dsimp only
        rw [Function.update_of_ne hne]
        exact hout t'
      · rw [h.order t']
        by_cases heq : t' = t
        · subst heq
          dsimp only
          rw [Function.update_self, ht]
        · dsimp only
          rw [Function.update_of_ne heq]
  | @inner t ms l l' s'' ht hstep =>
      have hlock := h.held.lock_of_inside (t := t) (by rw [ht])
      obtain ⟨⟨m, ms', l₀, ht', hwithin⟩, hout⟩ := h.held.holder hlock
      obtain ⟨rfl, rfl⟩ : ms = m :: ms' ∧ l = l₀ := by
        rw [ht] at ht'
        injection ht' with h₁ h₂
        exact ⟨h₁, Option.some.inj h₂⟩
      refine ⟨done, s', h.serial, ?_, fun t' => ?_⟩
      · unfold Held
        dsimp only
        rw [hlock]
        refine ⟨⟨m, ms', l', Function.update_self .., hwithin.tail hstep⟩, fun t' hne => ?_⟩
        rw [Function.update_of_ne hne]
        exact hout t' hne
      · rw [h.order t']
        by_cases heq : t' = t
        · subst heq
          dsimp only
          rw [Function.update_self, ht]
        · dsimp only
          rw [Function.update_of_ne heq]
  | @release t m ms l ht hleave =>
      have hlock := h.held.lock_of_inside (t := t) (by rw [ht])
      obtain ⟨⟨m', ms', l₀, ht', hwithin⟩, hout⟩ := h.held.holder hlock
      obtain ⟨⟨rfl, rfl⟩, rfl⟩ : (m = m' ∧ ms = ms') ∧ l = l₀ := by
        rw [ht] at ht'
        injection ht' with h₁ h₂
        exact ⟨List.cons.inj h₁, Option.some.inj h₂⟩
      -- the call is over
      refine ⟨done ++ [(t, m)], w.shared, h.serial.snoc ⟨l, hwithin, hleave⟩, ⟨rfl, fun t' => ?_⟩,
        fun t' => ?_⟩
      · dsimp only
        by_cases heq : t' = t
        · subst heq
          rw [Function.update_self]
        · rw [Function.update_of_ne heq]
          exact hout t' heq
      · rw [h.order t']
        by_cases heq : t' = t
        · subst heq
          dsimp only
          rw [Function.update_self, ht, callsOf_snoc_self, List.append_assoc]
          rfl
        · dsimp only
          rw [Function.update_of_ne heq, callsOf_snoc_of_ne (Ne.symm heq)]

/-- **The reduction.** Every interleaving is calls one after another, and one under way. -/
theorem Reached.serial {w : World T M L S} (h : Reached sec calls s w) :
    ∃ done s', Serialized sec calls s w done s' := by
  induction h with
  | refl => exact ⟨[], s, .nil, ⟨rfl, fun _ => rfl⟩, fun _ => rfl⟩
  | tail _ hstep ih =>
      obtain ⟨done, s', ih⟩ := ih
      exact ih.step hstep

/-- What the section of a first call can do is reached. -/
theorem reached_within {t : T} {m : M} {ms : List M} {l : L} {s' : S} (ht : calls t = m :: ms)
    (h : Within sec m s l s') : Reached sec calls s ⟨some t,
      Function.update (fun t => ⟨calls t, none⟩) t ⟨m :: ms, some l⟩, s'⟩ := by
  unfold Within at h
  generalize hq : (l, s') = q at h
  induction h generalizing l s' with
  | refl =>
      obtain ⟨rfl, rfl⟩ := Prod.mk.inj hq
      refine .single (.acquire (t := t) ?_ rfl)
      rw [← ht]
      rfl
  | @tail p q _ hstep ih =>
      subst hq
      refine (ih rfl).tail ?_
      let threads : T → Thread M L := Function.update (fun t => ⟨calls t, none⟩) t
        ⟨m :: ms, some p.1⟩
      have hself : threads t = ⟨m :: ms, some p.1⟩ := Function.update_self t _ _
      have hnext := Step.inner (w := ⟨some t, threads, p.2⟩) hself hstep
      dsimp only [threads] at hnext
      rwa [Function.update_idem] at hnext

/-- **No deadlock**, where no section gets stuck. -/
theorem Reached.progress {w : World T M L S} (h : Reached sec calls s w)
    (hlive : ∀ l s, sec.leave l ∨ ∃ l' s', sec.step l s l' s') {t : T}
    (ht : (w.threads t).calls ≠ []) : ∃ w', Step sec w w' := by
  obtain ⟨done, s', hserial⟩ := h.serial
  rcases hlock : w.lock with _ | holder
  · -- the lock is free for `t`
    obtain ⟨m, ms, hcalls⟩ := List.exists_cons_of_ne_nil ht
    have hout := (hserial.held.free hlock).2 t
    have hthread : w.threads t = ⟨m :: ms, none⟩ := by rw [← hcalls, ← hout]
    exact ⟨_, .acquire hthread hlock⟩
  · obtain ⟨⟨m, ms, l, hholder, -⟩, -⟩ := hserial.held.holder hlock
    rcases hlive l w.shared with hleave | ⟨l', s'', hstep⟩
    · exact ⟨_, .release hholder hleave⟩
    · exact ⟨_, .inner hholder hstep⟩

end Lock
