/-
Computations that deal with the world and keep a log of it.

The state is the log. `ask` is one dealing: the world's reply may depend on all
that went before, and the event that records it goes to the end of the log. So a
statement about every world is a statement about every script of replies, and a
computation is described by the events it adds. `Adds p` says that they all have
`p`; there is one rule for each way to put computations together.
-/
import Ptlab.Lib.Effect

set_option autoImplicit false

namespace Effect

variable {ι ε α β : Type}

/-- Ask the world, and log the question with the reply. -/
def ask (reply : List ι → Except ε α) (event : Except ε α → ι) : Effect (List ι) ε α :=
  of fun log => (reply log, log ++ [event (reply log)])

theorem exec_ask (reply : List ι → Except ε α) (event : Except ε α → ι) (log : List ι) :
    (ask reply event).exec log = (reply log, log ++ [event (reply log)]) := rfl

theorem exec_ask_ok {reply : List ι → Except ε α} {event : Except ε α → ι} {log log' : List ι}
    {a : α} : (ask reply event).exec log = (.ok a, log') ↔
      reply log = .ok a ∧ log' = log ++ [event (.ok a)] := by
  rw [exec_ask, Prod.mk.injEq]
  constructor
  · rintro ⟨hreply, rfl⟩
    exact ⟨hreply, by rw [hreply]⟩
  · rintro ⟨hreply, rfl⟩
    exact ⟨hreply, by rw [hreply]⟩

theorem exec_ask_error {reply : List ι → Except ε α} {event : Except ε α → ι}
    {log log' : List ι} {e : ε} : (ask reply event).exec log = (.error e, log') ↔
      reply log = .error e ∧ log' = log ++ [event (.error e)] := by
  rw [exec_ask, Prod.mk.injEq]
  constructor
  · rintro ⟨hreply, rfl⟩
    exact ⟨hreply, by rw [hreply]⟩
  · rintro ⟨hreply, rfl⟩
    exact ⟨hreply, by rw [hreply]⟩

theorem triple_ask {reply : List ι → Except ε α} {event : Except ε α → ι} {P : List ι → Prop}
    {Q : α → List ι → Prop} {E : ε → List ι → Prop}
    (hok : ∀ log a, P log → reply log = .ok a → Q a (log ++ [event (.ok a)]))
    (herror : ∀ log e, P log → reply log = .error e → E e (log ++ [event (.error e)])) :
    Triple P (ask reply event) Q E := by
  intro log hlog
  rw [exec_ask]
  rcases hreply : reply log with e | a
  · exact herror log e hlog hreply
  · exact hok log a hlog hreply

/-! ## The events added -/

/-- The computation only adds to the log, and only events with `p`. -/
def Adds (p : ι → Prop) (m : Effect (List ι) ε α) : Prop :=
  ∀ log, ∃ added, (m.exec log).2 = log ++ added ∧ ∀ event ∈ added, p event

section Adds

variable {p : ι → Prop} {m : Effect (List ι) ε α}

theorem adds_nothing (h : ∀ log, (m.exec log).2 = log) : Adds p m := by
  intro log
  refine ⟨[], ?_, by simp⟩
  rw [h, List.append_nil]

theorem adds_pure (a : α) : Adds p (pure a : Effect (List ι) ε α) := adds_nothing fun _ => rfl

theorem adds_throw (e : ε) : Adds p (throw e : Effect (List ι) ε α) := adds_nothing fun _ => rfl

theorem adds_lift (outcome : Except ε α) : Adds p (lift outcome : Effect (List ι) ε α) :=
  adds_nothing fun _ => rfl

theorem adds_ask {reply : List ι → Except ε α} {event : Except ε α → ι}
    (h : ∀ log, p (event (reply log))) : Adds p (ask reply event) :=
  fun log => ⟨[event (reply log)], rfl, by simpa using h log⟩

/-- What two computations add, one after the other. -/
theorem Adds.trans {log log' log'' : List ι}
    (h : ∃ added, log' = log ++ added ∧ ∀ event ∈ added, p event)
    (h' : ∃ added, log'' = log' ++ added ∧ ∀ event ∈ added, p event) :
    ∃ added, log'' = log ++ added ∧ ∀ event ∈ added, p event := by
  obtain ⟨added, rfl, hadded⟩ := h
  obtain ⟨added', rfl, hadded'⟩ := h'
  refine ⟨added ++ added', List.append_assoc .., fun event hevent => ?_⟩
  rcases List.mem_append.mp hevent with hevent | hevent
  · exact hadded event hevent
  · exact hadded' event hevent

theorem adds_bind {f : α → Effect (List ι) ε β} (hm : Adds p m) (hf : ∀ a, Adds p (f a)) :
    Adds p (m >>= f) := by
  intro log
  have hfirst := hm log
  rw [exec_bind]
  rcases hrun : m.exec log with ⟨e | a, log'⟩ <;> rw [hrun] at hfirst
  · exact hfirst
  · exact Adds.trans hfirst (hf a log')

theorem adds_throw_bind (e : ε) (f : β → Effect (List ι) ε α) :
    Adds p ((throw e : Effect (List ι) ε β) >>= f) := adds_nothing fun _ => rfl

theorem adds_tryCatch {handler : ε → Effect (List ι) ε α} (hm : Adds p m)
    (hh : ∀ e, Adds p (handler e)) : Adds p (tryCatch m handler) := by
  intro log
  have hfirst := hm log
  change ∃ added, (exec (tryCatch m handler) log).2 = log ++ added ∧ ∀ event ∈ added, p event
  rw [exec_tryCatch]
  rcases hrun : m.exec log with ⟨e | a, log'⟩ <;> rw [hrun] at hfirst
  · exact Adds.trans hfirst (hh e log')
  · exact hfirst

theorem adds_ensure {cleanup : Effect (List ι) ε Unit} (hm : Adds p m) (hc : Adds p cleanup) :
    Adds p (ensure m cleanup) := by
  intro log
  have hfirst := hm log
  rw [exec_ensure]
  rcases hrun : m.exec log with ⟨r, log'⟩
  rw [hrun] at hfirst
  have hsecond := hc log'
  dsimp only
  rcases hclean : cleanup.exec log' with ⟨e | ⟨⟩, log''⟩ <;> rw [hclean] at hsecond
  · exact Adds.trans hfirst hsecond
  · exact Adds.trans hfirst hsecond

end Adds

/-! ## Events and those before them -/

/-- Every event has `P`, seen with the events before it. -/
def Each (P : List ι → ι → Prop) (events : List ι) : Prop :=
  ∀ pre event post, events = pre ++ event :: post → P pre event

section Each

variable {P : List ι → ι → Prop}

theorem each_append {events events' : List ι} :
    Each P (events ++ events') ↔
      Each P events ∧ Each (fun pre event => P (events ++ pre) event) events' := by
  constructor
  · intro h
    constructor
    · rintro pre event post rfl
      exact h pre event (post ++ events') (by rw [List.append_assoc, List.cons_append])
    · rintro pre event post rfl
      exact h (events ++ pre) event post (List.append_assoc ..).symm
  · rintro ⟨h, h'⟩ pre event post heq
    -- the event lies in the second part or in the first
    rcases List.append_eq_append_iff.mp heq with ⟨behind, rfl, hbehind⟩ | ⟨rest, hpre, hrest⟩
    · exact h' behind event post hbehind
    · cases rest with
      | nil =>
          rw [List.nil_append] at hrest
          rw [List.append_nil] at hpre
          subst hpre
          simpa using h' [] event post hrest.symm
      | cons e rest =>
          injection hrest with he hpost
          exact h pre event rest (by rw [hpre, he])

theorem each_singleton {event : ι} : Each P [event] ↔ P [] event := by
  constructor
  · intro h
    exact h [] event [] rfl
  · intro h pre e post heq
    rcases pre with _ | ⟨x, pre⟩
    · injection heq with he
      rw [← he]
      exact h
    · injection heq with _ hnil
      exact absurd hnil (by simp)

theorem each_of_forall {events : List ι} (h : ∀ pre, ∀ event ∈ events, P pre event) :
    Each P events := by
  rintro pre event post rfl
  exact h pre event (by simp)

end Each

/-! ## One event among the others -/

/-- An event without `p` among events with it has one place. -/
theorem append_cons_inj {p : ι → Prop} {x y : ι} (hx : ¬ p x) (before : List ι) :
    ∀ {pre post behind : List ι}, pre ++ x :: post = before ++ y :: behind →
      (∀ e ∈ before, p e) → (∀ e ∈ behind, p e) → pre = before ∧ x = y ∧ post = behind := by
  induction before with
  | nil =>
      intro pre post behind h _ hbehind
      cases pre with
      | nil =>
          injection h with hxy hpost
          exact ⟨rfl, hxy, hpost⟩
      | cons z pre =>
          injection h with _ h
          exact absurd (hbehind x (h ▸ by simp)) hx
  | cons z before ih =>
      intro pre post behind h hbefore hbehind
      cases pre with
      | nil =>
          injection h with hxz _
          exact absurd (hbefore z (List.mem_cons_self ..)) (hxz ▸ hx)
      | cons w pre =>
          injection h with hwz h
          obtain ⟨rfl, hxy, hpost⟩ := ih h (fun e he => hbefore e (List.mem_cons_of_mem _ he))
            hbehind
          exact ⟨by rw [hwz], hxy, hpost⟩

end Effect
