/-
Computations that change a state and may raise, and triples for them.

`Effect σ ε α` is `ExceptT ε (StateM σ) α`: a raised exception keeps the state
reached when it was raised, which is what code with handlers and clean-up is
about. A `Triple` has one postcondition for a return and one for an exception.
There is one rule for each way to put computations together; `Always` is the
triple of an invariant that holds however the computation ends.
-/
import Mathlib.Tactic

set_option autoImplicit false

/-- A computation with state `σ` that returns an `α` or raises an `ε`. -/
abbrev Effect (σ ε : Type) (α : Type) : Type := ExceptT ε (StateM σ) α

namespace Effect

variable {σ ε α β : Type}

/-! ## Running -/

/-- What a computation does from a state. -/
def exec (m : Effect σ ε α) (s : σ) : Except ε α × σ := m.run.run s

/-- The computation that does `f`. -/
def of (f : σ → Except ε α × σ) : Effect σ ε α := ExceptT.mk f

@[simp] theorem exec_of (f : σ → Except ε α × σ) (s : σ) : (of f).exec s = f s := rfl

@[simp] theorem exec_pure (a : α) (s : σ) : (pure a : Effect σ ε α).exec s = (.ok a, s) := rfl

@[simp] theorem exec_throw (e : ε) (s : σ) : (throw e : Effect σ ε α).exec s = (.error e, s) :=
  rfl

theorem exec_bind (m : Effect σ ε α) (f : α → Effect σ ε β) (s : σ) :
    (m >>= f).exec s = match m.exec s with
      | (.ok a, s') => (f a).exec s'
      | (.error e, s') => (.error e, s') := by
  change (match m.exec s with
    | (r, s') => (ExceptT.bindCont f r : StateM σ (Except ε β)) s') = _
  rcases m.exec s with ⟨_ | _, s'⟩ <;> rfl

theorem exec_tryCatch (m : Effect σ ε α) (handler : ε → Effect σ ε α) (s : σ) :
    exec (tryCatch m handler) s = match m.exec s with
      | (.ok a, s') => (.ok a, s')
      | (.error e, s') => (handler e).exec s' := by
  change (match m.exec s with
    | (r, s') => (match r with
      | .ok a => (pure (.ok a) : StateM σ (Except ε α))
      | .error e => handler e) s') = _
  rcases m.exec s with ⟨_ | _, s'⟩ <;> rfl

/-- `finally`: the clean-up runs however the body ends, and what it raises takes
the place of what the body did. -/
def ensure (m : Effect σ ε α) (cleanup : Effect σ ε Unit) : Effect σ ε α :=
  of fun s => match m.exec s with
    | (r, s') => match cleanup.exec s' with
      | (.ok (), s'') => (r, s'')
      | (.error e, s'') => (.error e, s'')

/-- Read something off the state. -/
def read (f : σ → α) : Effect σ ε α := of fun s => (.ok (f s), s)

/-- Change the state. -/
def update (f : σ → σ) : Effect σ ε Unit := of fun s => (.ok (), f s)

/-- A computation on a part of the state. -/
def zoom {τ : Type} (part : τ → σ) (put : σ → τ → τ) (m : Effect σ ε α) : Effect τ ε α :=
  of fun t => match m.exec (part t) with
    | (r, s) => (r, put s t)

/-- A computation whose exceptions are renamed. -/
def mapException {ε' : Type} (f : ε → ε') (m : Effect σ ε α) : Effect σ ε' α :=
  of fun s => match m.exec s with
    | (.ok a, s') => (.ok a, s')
    | (.error e, s') => (.error (f e), s')

/-- A computation with a variable of its own, which starts as `init`. -/
def withLocal {ρ : Type} (init : ρ) (m : Effect (ρ × σ) ε α) : Effect σ ε α :=
  of fun s => match m.exec (init, s) with
    | (r, s') => (r, s'.2)

/-- A computation on the state around the variable. -/
def outside {ρ : Type} (m : Effect σ ε α) : Effect (ρ × σ) ε α :=
  zoom Prod.snd (fun outer s => (s.1, outer)) m

/-- Assign to the variable. -/
def assign {ρ : Type} (f : ρ → ρ) : Effect (ρ × σ) ε Unit := update fun s => (f s.1, s.2)

/-- A computation that is left out if `b` holds. -/
def skipIf (b : Bool) (m : Effect σ ε Unit) : Effect σ ε Unit := if b then pure () else m

/-- Run a computation and look at how it ended. -/
def attempt (m : Effect σ ε α) : Effect σ ε (Except ε α) :=
  of fun s => match m.exec s with
    | (r, s') => (.ok r, s')

/-- An `Except` as a computation. -/
def lift (outcome : Except ε α) : Effect σ ε α := of fun s => (outcome, s)

@[simp] theorem exec_lift (outcome : Except ε α) (s : σ) :
    (lift outcome : Effect σ ε α).exec s = (outcome, s) := rfl

@[simp] theorem exec_read (f : σ → α) (s : σ) :
    (read f : Effect σ ε α).exec s = (.ok (f s), s) := rfl

@[simp] theorem exec_update (f : σ → σ) (s : σ) :
    (update f : Effect σ ε Unit).exec s = (.ok (), f s) := rfl

theorem exec_ensure (m : Effect σ ε α) (cleanup : Effect σ ε Unit) (s : σ) :
    (ensure m cleanup).exec s = match m.exec s with
      | (r, s') => match cleanup.exec s' with
        | (.ok (), s'') => (r, s'')
        | (.error e, s'') => (.error e, s'') := rfl

theorem exec_attempt (m : Effect σ ε α) (s : σ) :
    (attempt m).exec s = (.ok (m.exec s).1, (m.exec s).2) := rfl

/-! ## Returning

What a return says of the parts: to be peeled off from the front. -/

theorem exec_bind_ok {m : Effect σ ε α} {f : α → Effect σ ε β} {s s' : σ} {b : β} :
    (m >>= f).exec s = (.ok b, s') ↔
      ∃ a t, m.exec s = (.ok a, t) ∧ (f a).exec t = (.ok b, s') := by
  rw [exec_bind]
  rcases m.exec s with ⟨e | a, t⟩
  · simp
  · simp

theorem exec_pure_ok {a b : α} {s s' : σ} :
    (pure a : Effect σ ε α).exec s = (.ok b, s') ↔ a = b ∧ s = s' := by
  rw [exec_pure, Prod.mk.injEq, Except.ok.injEq]

theorem exec_lift_ok {outcome : Except ε α} {a : α} {s s' : σ} :
    (lift outcome : Effect σ ε α).exec s = (.ok a, s') ↔ outcome = .ok a ∧ s = s' := by
  rw [exec_lift, Prod.mk.injEq]

theorem exec_throw_ok {e : ε} {a : α} {s s' : σ} :
    (throw e : Effect σ ε α).exec s ≠ (.ok a, s') := by
  rw [exec_throw]
  simp

theorem exec_ensure_ok {m : Effect σ ε α} {cleanup : Effect σ ε Unit} {s s' : σ} {a : α} :
    (ensure m cleanup).exec s = (.ok a, s') ↔
      ∃ t, m.exec s = (.ok a, t) ∧ cleanup.exec t = (.ok (), s') := by
  rw [exec_ensure]
  constructor
  · rcases m.exec s with ⟨r, t⟩
    dsimp only
    rcases hc : cleanup.exec t with ⟨e | ⟨⟩, t'⟩
    · intro h
      cases h
    · rintro h
      injection h with hr ht
      exact ⟨t, by rw [hr], by rw [hc, ht]⟩
  · rintro ⟨t, hm, hc⟩
    rw [hm]
    dsimp only
    rw [hc]

theorem exec_tryCatch_ok {m : Effect σ ε α} {handler : ε → Effect σ ε α} {s s' : σ} {a : α} :
    exec (tryCatch m handler) s = (.ok a, s') ↔ m.exec s = (.ok a, s') ∨
      ∃ e t, m.exec s = (.error e, t) ∧ (handler e).exec t = (.ok a, s') := by
  rw [exec_tryCatch]
  rcases m.exec s with ⟨e | b, t⟩
  · simp
  · simp

/-! ## Triples -/

/-- From a state with `P`, a return leaves a state with `Q` and an exception one
with `E`. -/
def Triple (P : σ → Prop) (m : Effect σ ε α) (Q : α → σ → Prop) (E : ε → σ → Prop) : Prop :=
  ∀ s, P s → match m.exec s with
    | (.ok a, s') => Q a s'
    | (.error e, s') => E e s'

/-- `I` is kept, however the computation ends. -/
def Always (I : σ → Prop) (m : Effect σ ε α) : Prop := Triple I m (fun _ => I) (fun _ => I)

section Rules

variable {P P' : σ → Prop} {Q Q' : α → σ → Prop} {E E' : ε → σ → Prop} {m : Effect σ ε α}

theorem Triple.of_ok (h : Triple P m Q E) {s s' : σ} {a : α} (hs : P s)
    (hm : m.exec s = (.ok a, s')) : Q a s' := by
  have hrun := h s hs
  rw [hm] at hrun
  exact hrun

theorem Triple.of_error (h : Triple P m Q E) {s s' : σ} {e : ε} (hs : P s)
    (hm : m.exec s = (.error e, s')) : E e s' := by
  have hrun := h s hs
  rw [hm] at hrun
  exact hrun

/-- What both ends have in common holds at the end. -/
theorem Triple.final (h : Triple P m Q E) {R : σ → Prop} {s : σ} (hs : P s)
    (hQ : ∀ a s, Q a s → R s) (hE : ∀ e s, E e s → R s) : R (m.exec s).2 := by
  rcases hm : m.exec s with ⟨e | a, s'⟩
  · exact hE e s' (h.of_error hs hm)
  · exact hQ a s' (h.of_ok hs hm)

/-- The consequence rule. -/
theorem Triple.conseq (h : Triple P m Q E) (hP : ∀ s, P' s → P s) (hQ : ∀ a s, Q a s → Q' a s)
    (hE : ∀ e s, E e s → E' e s) : Triple P' m Q' E' := by
  intro s hs
  rcases hm : m.exec s with ⟨e | a, s'⟩
  · exact hE e s' (h.of_error (hP s hs) hm)
  · exact hQ a s' (h.of_ok (hP s hs) hm)

/-- The consequence rule for exceptions alone. -/
theorem Triple.raises (h : Triple P m Q E) (hE : ∀ e s, E e s → E' e s) : Triple P m Q E' :=
  h.conseq (fun _ hs => hs) (fun _ _ hs => hs) hE

/-- The conjunction rule. -/
theorem Triple.and (h : Triple P m Q E) (h' : Triple P' m Q' E') :
    Triple (fun s => P s ∧ P' s) m (fun a s => Q a s ∧ Q' a s) (fun e s => E e s ∧ E' e s) := by
  intro s hs
  rcases hm : m.exec s with ⟨e | a, s'⟩
  · exact ⟨h.of_error hs.1 hm, h'.of_error hs.2 hm⟩
  · exact ⟨h.of_ok hs.1 hm, h'.of_ok hs.2 hm⟩

/-- A fact about the values at hand may be used. -/
theorem triple_assume {F : Prop} (h : F → Triple P m Q E) :
    Triple (fun s => P s ∧ F) m Q E := fun s hs => h hs.2 s hs.1

/-- So may a value that the state is only said to have. -/
theorem triple_exists {γ : Type} {R : γ → σ → Prop} (h : ∀ c, Triple (R c) m Q E) :
    Triple (fun s => ∃ c, R c s) m Q E := fun s ⟨c, hs⟩ => h c s hs

theorem triple_pure {a : α} (h : ∀ s, P s → Q a s) : Triple P (pure a : Effect σ ε α) Q E := h

theorem triple_throw {e : ε} (h : ∀ s, P s → E e s) : Triple P (throw e : Effect σ ε α) Q E := h

theorem triple_bind {f : α → Effect σ ε β} {R : β → σ → Prop} (hm : Triple P m Q E)
    (hf : ∀ a, Triple (Q a) (f a) R E) : Triple P (m >>= f) R E := by
  intro s hs
  rw [exec_bind]
  rcases hrun : m.exec s with ⟨e | a, s'⟩
  · exact hm.of_error hs hrun
  · exact hf a s' (hm.of_ok hs hrun)

theorem triple_tryCatch {handler : ε → Effect σ ε α} (hm : Triple P m Q E')
    (hh : ∀ e, Triple (E' e) (handler e) Q E) : Triple P (tryCatch m handler) Q E := by
  intro s hs
  change match exec (tryCatch m handler) s with
    | (.ok a, s') => Q a s'
    | (.error e, s') => E e s'
  rw [exec_tryCatch]
  rcases hrun : m.exec s with ⟨e | a, s'⟩
  · exact hh e s' (hm.of_error hs hrun)
  · exact hm.of_ok hs hrun

theorem triple_ensure {cleanup : Effect σ ε Unit} (hm : Triple P m Q' E')
    (hQ : ∀ a, Triple (Q' a) cleanup (fun _ => Q a) E)
    (hE : ∀ e, Triple (E' e) cleanup (fun _ => E e) E) : Triple P (ensure m cleanup) Q E := by
  intro s hs
  rw [exec_ensure]
  rcases hrun : m.exec s with ⟨e | a, s'⟩
  · have hclean := hE e s' (hm.of_error hs hrun)
    dsimp only
    rcases hc : cleanup.exec s' with ⟨e' | ⟨⟩, s''⟩ <;> rw [hc] at hclean <;> exact hclean
  · have hclean := hQ a s' (hm.of_ok hs hrun)
    dsimp only
    rcases hc : cleanup.exec s' with ⟨e' | ⟨⟩, s''⟩ <;> rw [hc] at hclean <;> exact hclean

theorem triple_read {f : σ → α} (h : ∀ s, P s → Q (f s) s) :
    Triple P (read f : Effect σ ε α) Q E := h

theorem triple_update {f : σ → σ} {R : σ → Prop} (h : ∀ s, P s → R (f s)) :
    Triple P (update f : Effect σ ε Unit) (fun _ => R) E := h

theorem triple_skipIf {b : Bool} {m : Effect σ ε Unit} {R : σ → Prop}
    (hskip : b = true → ∀ s, P s → R s) (hm : b = false → Triple P m (fun _ => R) E) :
    Triple P (skipIf b m) (fun _ => R) E := by
  cases b with
  | true => exact triple_pure (hskip rfl)
  | false => exact hm rfl

theorem triple_withLocal {ρ : Type} {init : ρ} {m : Effect (ρ × σ) ε α} {R : α → ρ × σ → Prop}
    {F : ε → ρ × σ → Prop} (hm : Triple (fun s => s.1 = init ∧ P s.2) m R F)
    (hQ : ∀ a s, R a s → Q a s.2) (hE : ∀ e s, F e s → E e s.2) :
    Triple P (withLocal init m) Q E := by
  intro s hs
  unfold withLocal
  rw [exec_of]
  rcases hrun : m.exec (init, s) with ⟨e | a, s'⟩
  · exact hE e s' (hm.of_error ⟨rfl, hs⟩ hrun)
  · exact hQ a s' (hm.of_ok ⟨rfl, hs⟩ hrun)

theorem exec_outside {ρ : Type} (m : Effect σ ε α) (s : ρ × σ) :
    (outside m : Effect (ρ × σ) ε α).exec s = ((m.exec s.2).1, (s.1, (m.exec s.2).2)) := rfl

theorem triple_zoom {τ : Type} {part : τ → σ} {put : σ → τ → τ}
    (hput : ∀ s t, part (put s t) = s) (hm : Triple P m Q E) :
    Triple (fun t => P (part t)) (zoom part put m) (fun a t => Q a (part t))
      (fun e t => E e (part t)) := by
  intro t ht
  unfold zoom
  rw [exec_of]
  rcases hrun : m.exec (part t) with ⟨e | a, s⟩
  · have he := hm.of_error ht hrun
    rw [← hput s t] at he
    exact he
  · have hq := hm.of_ok ht hrun
    rw [← hput s t] at hq
    exact hq

/-- **The frame rule.** What putting the part back keeps is kept, whatever is done to
the part. -/
theorem triple_zoom_frame {τ : Type} {part : τ → σ} {put : σ → τ → τ} {I : τ → Prop}
    {F : ε → Prop} (hput : ∀ s t, I t → I (put s t))
    (hm : Triple (fun _ => True) m (fun _ _ => True) fun e _ => F e) :
    Triple I (zoom part put m) (fun _ => I) (fun e t => I t ∧ F e) := by
  intro t ht
  unfold zoom
  rw [exec_of]
  rcases hrun : m.exec (part t) with ⟨e | a, s⟩
  · exact ⟨hput s t ht, hm.of_error trivial hrun⟩
  · exact hput s t ht

theorem triple_mapException {ε' : Type} {f : ε → ε'} {F : ε' → σ → Prop}
    (hm : Triple P m Q fun e => F (f e)) : Triple P (mapException f m) Q F := by
  intro s hs
  unfold mapException
  rw [exec_of]
  rcases hrun : m.exec s with ⟨e | a, s'⟩
  · exact hm.of_error hs hrun
  · exact hm.of_ok hs hrun

/-- A loop over a list keeps what its body keeps. -/
theorem triple_forM {I : σ → Prop} {f : β → Effect σ ε PUnit} {xs : List β}
    (h : ∀ x ∈ xs, Triple I (f x) (fun _ => I) E) : Triple I (xs.forM f) (fun _ => I) E := by
  induction xs with
  | nil => exact triple_pure fun s hs => hs
  | cons x xs ih =>
      rw [List.forM]
      exact triple_bind (h x (List.mem_cons_self ..)) fun _ =>
        ih fun y hy => h y (List.mem_cons_of_mem _ hy)

/-- A loop that collects what its turns return. -/
theorem triple_mapM {I : σ → Prop} {R : β → α → Prop} {f : β → Effect σ ε α} {xs : List β}
    (h : ∀ x ∈ xs, Triple I (f x) (fun a s => I s ∧ R x a) E) :
    Triple I (xs.mapM f) (fun as s => I s ∧ List.Forall₂ R xs as) E := by
  induction xs with
  | nil => exact triple_pure fun s hs => ⟨hs, .nil⟩
  | cons x xs ih =>
      rw [List.mapM_cons]
      refine triple_bind (h x (List.mem_cons_self ..)) fun a => triple_assume fun ha => ?_
      refine triple_bind (ih fun y hy => h y (List.mem_cons_of_mem _ hy)) fun as => ?_
      exact triple_pure fun s hs => ⟨hs.1, .cons ha hs.2⟩

/-- A loop whose invariant speaks of the turns that are over. -/
theorem triple_forM_turns {I : List β → σ → Prop} {f : β → Effect σ ε PUnit} {xs : List β}
    (h : ∀ pre x post, xs = pre ++ x :: post →
      Triple (I pre) (f x) (fun _ => I (pre ++ [x])) E) :
    Triple (I []) (xs.forM f) (fun _ => I xs) E := by
  induction xs generalizing I with
  | nil => exact triple_pure fun s hs => hs
  | cons x xs ih =>
      rw [List.forM]
      refine triple_bind (h [] x xs rfl) fun _ => ?_
      exact ih (I := fun pre => I (x :: pre)) fun pre y post heq =>
        h (x :: pre) y post (by rw [heq, List.cons_append])

/-- What one turn of a loop establishes and the others keep holds after it. -/
theorem triple_forM_mem {I R : σ → Prop} {f : β → Effect σ ε PUnit} {xs : List β} {x : β}
    (hx : x ∈ xs) (hreach : ∀ y ∈ xs, Triple I (f y) (fun _ => I) E)
    (hdo : Triple I (f x) (fun _ => R) E) (hkeep : ∀ y ∈ xs, Triple R (f y) (fun _ => R) E) :
    Triple I (xs.forM f) (fun _ => R) E := by
  induction xs with
  | nil => cases hx
  | cons y xs ih =>
      rw [List.forM]
      rcases List.mem_cons.mp hx with rfl | hx
      · exact triple_bind hdo fun _ =>
          triple_forM fun z hz => hkeep z (List.mem_cons_of_mem _ hz)
      · exact triple_bind (hreach y (List.mem_cons_self ..)) fun _ =>
          ih hx (fun z hz => hreach z (List.mem_cons_of_mem _ hz))
            fun z hz => hkeep z (List.mem_cons_of_mem _ hz)

end Rules

/-! ## Loops with known turns -/

/-- A loop whose turns are known by the turns before them. -/
theorem exec_forM_turns {H : List β → σ} {f : β → Effect σ ε PUnit} {xs : List β}
    (h : ∀ pre x post, xs = pre ++ x :: post → (f x).exec (H pre) = (.ok (), H (pre ++ [x]))) :
    (xs.forM f).exec (H []) = (.ok (), H xs) := by
  induction xs generalizing H with
  | nil => rfl
  | cons x xs ih =>
      rw [List.forM, exec_bind, h [] x xs rfl]
      exact ih (H := fun pre => H (x :: pre)) fun pre y post heq =>
        h (x :: pre) y post (by rw [heq, List.cons_append])

/-- A loop that collects what its turns come to. -/
theorem exec_mapM_turns {H : List β → σ} {f : β → Effect σ ε α} {outcome : β → Except ε α}
    {xs : List β}
    (hout : ∀ pre x post, xs = pre ++ x :: post → ((f x).exec (H pre)).1 = outcome x)
    (hnext : ∀ pre x post, xs = pre ++ x :: post → ∀ a, outcome x = .ok a →
      ((f x).exec (H pre)).2 = H (pre ++ [x])) :
    ((xs.mapM f).exec (H [])).1 = xs.mapM outcome := by
  induction xs generalizing H with
  | nil => rfl
  | cons x xs ih =>
      have hfirst := hout [] x xs rfl
      have hstate := hnext [] x xs rfl
      have hrest := ih (H := fun pre => H (x :: pre))
        (fun pre y post heq => hout (x :: pre) y post (by rw [heq, List.cons_append]))
        (fun pre y post heq => hnext (x :: pre) y post (by rw [heq, List.cons_append]))
      rw [List.mapM_cons, List.mapM_cons, exec_bind, ← hfirst]
      rw [← hfirst] at hstate
      -- what the first turn comes to does not depend on those behind it
      rcases hrun : (f x).exec (H []) with ⟨e | a, s⟩
      · rfl
      · rw [hrun] at hstate
        obtain rfl : s = H [x] := hstate a rfl
        dsimp only
        rw [exec_bind, ← hrest]
        rcases (xs.mapM f).exec (H [x]) with ⟨e | as, s'⟩ <;> rfl

/-- Where a loop that returns has left the state, if its turns know. -/
theorem exec_mapM_reached {H : List β → σ} {f : β → Effect σ ε α} {xs : List β}
    (hnext : ∀ pre x post, xs = pre ++ x :: post → ∀ a s,
      (f x).exec (H pre) = (.ok a, s) → s = H (pre ++ [x]))
    {as : List α} {s : σ} (h : (xs.mapM f).exec (H []) = (.ok as, s)) : s = H xs := by
  induction xs generalizing H as with
  | nil => exact (exec_pure_ok.mp h).2.symm
  | cons x xs ih =>
      rw [List.mapM_cons] at h
      obtain ⟨a, t, hfirst, hrest⟩ := exec_bind_ok.mp h
      obtain rfl := hnext [] x xs rfl a t hfirst
      obtain ⟨bs, t', hloop, hpure⟩ := exec_bind_ok.mp hrest
      obtain ⟨-, rfl⟩ := exec_pure_ok.mp hpure
      exact ih (H := fun pre => H (x :: pre)) (fun pre y post heq =>
        hnext (x :: pre) y post (by rw [heq, List.cons_append])) hloop

/-- Which lists such a loop collects, where a turn comes to `a x` or fails. -/
theorem mapM_ok_iff {outcome : β → Except ε α} {P : β → Prop} {a : β → α} {xs : List β}
    (h : ∀ x ∈ xs, ∀ y, outcome x = .ok y ↔ P x ∧ y = a x) (ys : List α) :
    xs.mapM outcome = .ok ys ↔ (∀ x ∈ xs, P x) ∧ ys = xs.map a := by
  induction xs generalizing ys with
  | nil => exact ⟨fun heq => ⟨fun _ hx => (by cases hx), (Except.ok.inj heq).symm⟩, fun heq =>
      congrArg Except.ok heq.2.symm⟩
  | cons x xs ih =>
      have htail := ih fun y hy => h y (List.mem_cons_of_mem _ hy)
      have hhead := h x (List.mem_cons_self ..)
      rw [List.mapM_cons, List.forall_mem_cons, List.map_cons]
      constructor
      · intro heq
        rcases hx : outcome x with e | y
        · rw [hx] at heq
          cases heq
        · rcases hxs : xs.mapM outcome with e | zs
          · rw [hx, hxs] at heq
            cases heq
          · rw [hx, hxs] at heq
            obtain rfl := Except.ok.inj heq
            obtain ⟨hP, rfl⟩ := (hhead y).mp hx
            obtain ⟨hall, rfl⟩ := (htail zs).mp hxs
            exact ⟨⟨hP, hall⟩, rfl⟩
      · rintro ⟨⟨hP, hall⟩, rfl⟩
        rw [(hhead _).mpr ⟨hP, rfl⟩, (htail _).mpr ⟨hall, rfl⟩]
        rfl

/-! ## Invariants -/

section Invariants

variable {I : σ → Prop} {m : Effect σ ε α}

theorem always_pure (a : α) : Always I (pure a : Effect σ ε α) := triple_pure fun _ hs => hs

theorem always_throw (e : ε) : Always I (throw e : Effect σ ε α) := triple_throw fun _ hs => hs

theorem always_bind {f : α → Effect σ ε β} (hm : Always I m) (hf : ∀ a, Always I (f a)) :
    Always I (m >>= f) := triple_bind hm hf

theorem always_tryCatch {handler : ε → Effect σ ε α} (hm : Always I m)
    (hh : ∀ e, Always I (handler e)) : Always I (tryCatch m handler) := triple_tryCatch hm hh

theorem always_forM {f : β → Effect σ ε PUnit} {xs : List β} (h : ∀ x ∈ xs, Always I (f x)) :
    Always I (xs.forM f) := triple_forM h

theorem always_zoom {τ : Type} {part : σ → τ} {put : τ → σ → σ} {m : Effect τ ε α}
    (hput : ∀ t s, I s → I (put t s)) : Always I (zoom part put m) := by
  have hm : Triple (fun _ => True) m (fun _ _ => True) fun _ _ => True := by
    intro t _
    rcases m.exec t with ⟨e | a, t'⟩ <;> trivial
  exact (triple_zoom_frame hput hm).raises fun _ _ h => h.1

theorem Always.exec (h : Always I m) {s : σ} (hs : I s) : I (m.exec s).2 :=
  h.final hs (fun _ _ hI => hI) fun _ _ hI => hI

end Invariants

/-! ## Projections

A computation that keeps a second account of the state. Another one has no such account, but
may be told what the first one finds in it: so the two are compared from one state at a
time. -/

/-- From `t` on, `m` does on its `part` of the state what `n` does. -/
def ProjectsAt {τ : Type} (part : τ → σ) (m : Effect τ ε α) (n : Effect σ ε α) (t : τ) : Prop :=
  n.exec (part t) = ((m.exec t).1, part (m.exec t).2)

section Projections

variable {τ : Type} {part : τ → σ} {m : Effect τ ε α} {n : Effect σ ε α} {t : τ}

theorem projects_pure (a : α) (t : τ) : ProjectsAt part (pure a) (pure a : Effect σ ε α) t := rfl

theorem projects_throw (e : ε) (t : τ) :
    ProjectsAt part (throw e) (throw e : Effect σ ε α) t := rfl

theorem projects_zoom {put : σ → τ → τ} (hput : ∀ s t, part (put s t) = s) (m : Effect σ ε α)
    (t : τ) : ProjectsAt part (zoom part put m) m t := by
  unfold ProjectsAt zoom
  rw [exec_of, hput]

theorem projects_bind {f : α → Effect τ ε β} {f' : α → Effect σ ε β}
    (hm : ProjectsAt part m n t)
    (hf : ∀ a t', m.exec t = (.ok a, t') → ProjectsAt part (f a) (f' a) t') :
    ProjectsAt part (m >>= f) (n >>= f') t := by
  unfold ProjectsAt at hm ⊢
  rw [exec_bind, exec_bind, hm]
  rcases hrun : m.exec t with ⟨e | a, t'⟩
  · rfl
  · exact hf a t' hrun

theorem projects_tryCatch {handler : ε → Effect τ ε α} {handler' : ε → Effect σ ε α}
    (hm : ProjectsAt part m n t)
    (hh : ∀ e t', m.exec t = (.error e, t') → ProjectsAt part (handler e) (handler' e) t') :
    ProjectsAt part (tryCatch m handler) (tryCatch n handler') t := by
  unfold ProjectsAt at hm ⊢
  rw [exec_tryCatch, exec_tryCatch, hm]
  rcases hrun : m.exec t with ⟨e | a, t'⟩
  · exact hh e t' hrun
  · rfl

theorem projects_ensure {cleanup : Effect τ ε Unit} {cleanup' : Effect σ ε Unit}
    (hm : ProjectsAt part m n t) (hc : ProjectsAt part cleanup cleanup' (m.exec t).2) :
    ProjectsAt part (ensure m cleanup) (ensure n cleanup') t := by
  unfold ProjectsAt at hm hc ⊢
  rw [exec_ensure, exec_ensure, hm]
  rcases hrun : m.exec t with ⟨r, t'⟩
  rw [hrun] at hc
  dsimp only at hc ⊢
  rw [hc]
  rcases cleanup.exec t' with ⟨e | ⟨⟩, t''⟩ <;> rfl

end Projections

end Effect
