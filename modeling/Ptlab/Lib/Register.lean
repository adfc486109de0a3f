/-
Registers whose writes take effect late, or never.

A write that was accepted waits behind the ones before it, and when it takes effect
they are gone (`Late.Step`). From outside, one knows the values that such a register
may show: a write adds its value to them (`Known.put`), and is the only one left once
it is known to have taken effect. That is known if its tag is found among the writes
that have, and nothing before it had that tag (`Newest.confirmed`).
-/
import Mathlib.Data.Set.Insert
import Mathlib.Logic.Relation
import Mathlib.Tactic

set_option autoImplicit false

namespace Register

/-! ## A register -/

/-- What a register shows, the writes that wait, the oldest first, and the writes that
have taken effect. -/
structure Late (α : Type) where
  current : α
  waiting : List α
  landed : List α

section Late

variable {α : Type}

/-- What it shows or may come to show. -/
def Late.shows (r : Late α) : List α := r.current :: r.waiting

/-- A write is accepted. -/
def Late.accept (r : Late α) (a : α) : Late α := { r with waiting := r.waiting ++ [a] }

/-- What becomes of the writes that wait: one takes effect, or some are given up. -/
inductive Late.Step : Late α → Late α → Prop
  | land (current a : α) (before after landed : List α) :
      Step ⟨current, before ++ a :: after, landed⟩ ⟨a, after, a :: landed⟩
  | drop {waiting waiting' : List α} (h : waiting'.Sublist waiting) (current : α)
      (landed : List α) : Step ⟨current, waiting, landed⟩ ⟨current, waiting', landed⟩

end Late

/-! ## What is known of it -/

/-- The values that a register may show, and the tags of all that it ever had. -/
structure Known (α τ : Type) where
  possible : Set α
  tags : Set τ

section Known

variable {α τ : Type} (tag : α → τ)

/-- What is known behind a write. If it is confirmed, by a tag that is new, the other
values are out. -/
def Known.put (k : Known α τ) (a : α) (confirmed : Bool) : Known α τ where
  possible := {b | b = a ∨ b ∈ k.possible ∧ (confirmed = true → tag a ∈ k.tags)}
  tags := insert (tag a) k.tags

/-- It is true of the register. -/
structure Known.Holds (k : Known α τ) (r : Late α) : Prop where
  shows : ∀ a ∈ r.shows, a ∈ k.possible ∧ tag a ∈ k.tags
  landed : ∀ a ∈ r.landed, tag a ∈ k.tags

/-- What there is to know. -/
def Late.known (r : Late α) : Known α τ where
  possible := {a | a ∈ r.shows}
  tags := {t | ∃ a, (a ∈ r.shows ∨ a ∈ r.landed) ∧ tag a = t}

theorem Late.known_holds (r : Late α) : (r.known tag).Holds tag r where
  shows a ha := ⟨ha, a, .inl ha, rfl⟩
  landed a ha := ⟨a, .inr ha, rfl⟩

/-- The last write is `a`: it waits, was given up, or has taken effect. -/
inductive Newest (k : Known α τ) (a : α) : Late α → Prop
  | waits {current : α} {waiting rest landed : List α} (hrest : rest.Sublist [a])
      (h : k.Holds tag ⟨current, waiting, landed⟩) : Newest k a ⟨current, waiting ++ rest, landed⟩
  | done {landed : List α} (h : ∀ b ∈ landed, tag b = tag a ∨ tag b ∈ k.tags) :
      Newest k a ⟨a, [], landed⟩

variable {tag} {k : Known α τ} {a : α} {r r' : Late α}

theorem Known.Holds.step (h : k.Holds tag r) (hstep : r.Step r') : k.Holds tag r' := by
  cases hstep with
  | land current b before after landed =>
      have hb := h.shows b (by simp [Late.shows])
      refine ⟨fun c hc => h.shows c ?_, fun c hc => ?_⟩
      · simp only [Late.shows, List.mem_cons, List.mem_append] at hc ⊢
        rcases hc with rfl | hc
        · exact .inr (.inr (.inl rfl))
        · exact .inr (.inr (.inr hc))
      · rcases List.mem_cons.mp hc with rfl | hc
        · exact hb.2
        · exact h.landed c hc
  | drop hsub current landed =>
      refine ⟨fun c hc => h.shows c ?_, h.landed⟩
      rcases List.mem_cons.mp hc with rfl | hc
      · exact List.mem_cons_self ..
      · exact List.mem_cons_of_mem _ (hsub.subset hc)

/-- A write that is not known to have taken effect may have. -/
theorem Known.Holds.put (h : k.Holds tag r) (a : α) : (k.put tag a false).Holds tag r where
  shows b hb := ⟨.inr ⟨(h.shows b hb).1, fun hfalse => by cases hfalse⟩, .inr (h.shows b hb).2⟩
  landed b hb := .inr (h.landed b hb)

theorem Known.Holds.accept (h : k.Holds tag r) (a : α) : Newest tag k a (r.accept a) :=
  .waits (List.Sublist.refl _) h

/-- A list with an element in it, and within one of one element. -/
theorem eq_of_sublist_singleton {α : Type} {front back : List α} {a b : α}
    (h : (front ++ b :: back).Sublist [a]) : front = [] ∧ b = a ∧ back = [] := by
  have hlength := h.length_le
  rw [List.length_append, List.length_cons, List.length_singleton] at hlength
  obtain rfl := List.eq_nil_of_length_eq_zero (l := front) (by omega)
  obtain rfl := List.eq_nil_of_length_eq_zero (l := back) (by omega)
  exact ⟨rfl, List.mem_singleton.mp (h.subset (List.mem_cons_self ..)), rfl⟩

theorem Newest.land {current : α} {waiting landed : List α}
    (h : k.Holds tag ⟨current, waiting, landed⟩) : Newest tag k a ⟨a, [], a :: landed⟩ :=
  .done fun _ hb => (List.mem_cons.mp hb).imp (congrArg tag) (h.landed _)

/-- **The step.** The last write stays the last one, until it has taken effect. -/
theorem Newest.step (h : Newest tag k a r) (hstep : r.Step r') : Newest tag k a r' := by
  cases h with
  | @done landed hlanded =>
      generalize hr : (⟨a, [], landed⟩ : Late α) = r at hstep
      cases hstep with
      | land current b before after landed' =>
          exact absurd (congrArg Late.waiting hr).symm (by simp)
      | drop hsub current landed' =>
          obtain ⟨rfl, rfl, rfl⟩ := Late.mk.inj hr
          rw [List.sublist_nil.mp hsub]
          exact .done hlanded
  | @waits current waiting rest landed hrest hk =>
      generalize hr : (⟨current, waiting ++ rest, landed⟩ : Late α) = r at hstep
      cases hstep with
      | drop hsub current' landed' =>
          obtain ⟨rfl, rfl, rfl⟩ := Late.mk.inj hr
          obtain ⟨front, back, rfl, hfront, hback⟩ := List.sublist_append_iff.mp hsub
          exact .waits (hback.trans hrest) (hk.step (.drop hfront _ _))
      | land current' b before after landed' =>
          obtain ⟨rfl, hwaiting, rfl⟩ := Late.mk.inj hr
          -- what takes effect is the last write, or one before it
          rcases List.append_eq_append_iff.mp hwaiting with
            ⟨front, rfl, rfl⟩ | ⟨_ | ⟨c, back⟩, rfl, hback⟩
          · obtain ⟨rfl, rfl, rfl⟩ := eq_of_sublist_singleton hrest
            exact .land hk
          · rw [List.nil_append] at hback
            obtain ⟨-, rfl, rfl⟩ :=
              eq_of_sublist_singleton (show ([] ++ b :: after).Sublist [a] from hback ▸ hrest)
            exact .land hk
          · obtain ⟨rfl, rfl⟩ := List.cons.inj hback
            exact .waits hrest (hk.step (.land _ _ _ _ _))

/-- Nothing but the last write is new. -/
theorem Newest.holds (h : Newest tag k a r) : (k.put tag a false).Holds tag r := by
  cases h with
  | done hlanded =>
      refine ⟨fun b hb => ?_, hlanded⟩
      rw [List.mem_singleton.mp hb]
      exact ⟨.inl rfl, .inl rfl⟩
  | waits hrest hk =>
      have hput := hk.put a
      refine ⟨fun b hb => ?_, hput.landed⟩
      rcases List.mem_cons.mp hb with rfl | hb
      · exact hput.shows _ (List.mem_cons_self ..)
      · rcases List.mem_append.mp hb with hb | hb
        · exact hput.shows b (List.mem_cons_of_mem _ hb)
        · rw [List.mem_singleton.mp (hrest.subset hb)]
          exact ⟨.inl rfl, .inl rfl⟩

/-- **Confirmed.** A write whose tag is among those that have taken effect, and was new,
has taken effect itself, and nothing else waits. -/
theorem Newest.confirmed (h : Newest tag k a r) (hfound : ∃ b ∈ r.landed, tag b = tag a) :
    (k.put tag a true).Holds tag r := by
  by_cases hseen : tag a ∈ k.tags
  · -- an old tag tells nothing
    refine ⟨fun b hb => ?_, h.holds.landed⟩
    obtain ⟨hpossible, htags⟩ := h.holds.shows b hb
    exact ⟨hpossible.imp_right fun hb => ⟨hb.1, fun _ => hseen⟩, htags⟩
  · cases h with
    | done hlanded =>
        refine ⟨fun b hb => ?_, hlanded⟩
        rw [List.mem_singleton.mp hb]
        exact ⟨.inl rfl, .inl rfl⟩
    | waits hrest hk =>
        obtain ⟨b, hb, htag⟩ := hfound
        exact absurd (htag ▸ hk.landed b hb) hseen

end Known

/-! ## Many writes -/

/-- A write to the register of a key. -/
structure Put (κ α : Type) where
  key : κ
  value : α
  confirmed : Bool

section Puts

variable {κ α τ : Type} [DecidableEq κ] (tag : α → τ)

/-- What is known behind some writes. -/
def after (k : κ → Known α τ) (puts : List (Put κ α)) : κ → Known α τ :=
  puts.foldl (fun k p => Function.update k p.key ((k p.key).put tag p.value p.confirmed)) k

variable {tag} {k : κ → Known α τ}

theorem after_cons (p : Put κ α) (puts : List (Put κ α)) : after tag k (p :: puts) =
    after tag (Function.update k p.key ((k p.key).put tag p.value p.confirmed)) puts := rfl

theorem after_append (before later : List (Put κ α)) :
    after tag k (before ++ later) = after tag (after tag k before) later := List.foldl_append

/-- A tag is one of the first ones or that of a write. -/
theorem mem_tags_after {puts : List (Put κ α)} {key : κ} {t : τ} :
    t ∈ (after tag k puts key).tags ↔
      t ∈ (k key).tags ∨ ∃ p ∈ puts, p.key = key ∧ tag p.value = t := by
  induction puts generalizing k with
  | nil => simp [after]
  | cons p puts ih =>
      simp only [after_cons, ih, List.mem_cons, exists_eq_or_imp]
      by_cases hkey : key = p.key
      · subst hkey
        rw [Function.update_self]
        change (t = tag p.value ∨ t ∈ (k p.key).tags) ∨ _ ↔ _
        tauto
      · rw [Function.update_of_ne hkey]
        have hother : ¬ (p.key = key ∧ tag p.value = t) := fun h => hkey h.1.symm
        tauto

/-- So is a value. -/
theorem possible_after {puts : List (Put κ α)} {key : κ} {a : α}
    (h : a ∈ (after tag k puts key).possible) :
    a ∈ (k key).possible ∨ ∃ p ∈ puts, p.key = key ∧ p.value = a := by
  induction puts generalizing k with
  | nil => exact .inl h
  | cons p puts ih =>
      simp only [List.mem_cons, exists_eq_or_imp]
      rw [after_cons] at h
      rcases ih h with hfirst | hlater
      · by_cases hkey : key = p.key
        · subst hkey
          rw [Function.update_self] at hfirst
          exact hfirst.elim (fun ha => .inr (.inl ⟨rfl, ha.symm⟩)) fun ha => .inl ha.1
        · rw [Function.update_of_ne hkey] at hfirst
          exact .inl hfirst
      · exact .inr (.inr hlater)

theorem after_of_other {puts : List (Put κ α)} {key : κ} (h : ∀ p ∈ puts, p.key ≠ key) :
    after tag k puts key = k key := by
  induction puts generalizing k with
  | nil => rfl
  | cons p puts ih =>
      obtain ⟨hp, hputs⟩ := List.forall_mem_cons.mp h
      rw [after_cons, ih hputs, Function.update_of_ne (Ne.symm hp)]

/-- **Settled.** Behind a confirmed write with a tag of its own, and none later, the register
shows its value. -/
theorem possible_settled {before later : List (Put κ α)} {key : κ} {a : α}
    (hnew : tag a ∉ (after tag k before key).tags) (hlater : ∀ p ∈ later, p.key ≠ key) :
    (after tag k (before ++ ⟨key, a, true⟩ :: later) key).possible = {a} := by
  rw [after_append, after_cons, after_of_other hlater, Function.update_self]
  ext b
  exact ⟨fun hb => hb.elim id fun hb => absurd (hb.2 rfl) hnew, .inl⟩

end Puts

end Register
