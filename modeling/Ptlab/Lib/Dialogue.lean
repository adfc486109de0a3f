/-
Clients that ask and go on with the answers.

A `Dialogue` is a client as the tree of its questions: it returns, fails, or asks
and goes on with what it is answered. `perform` runs it by a computation that
carries its questions out, and `against` is the same for a server, which answers
from the questions it has been asked. `perform_answers` leads from one to the
other: what a dialogue returned, every server that gives the same answers makes
it return.
-/
import Ptlab.Lib.Effect

set_option autoImplicit false

open Effect

/-- A client with questions `Q`, answered in `A`, that returns an `α` or fails with
an `ε`. -/
inductive Dialogue (Q : Type) (A : Q → Type) (ε α : Type) : Type where
  | ret (a : α)
  | fail (e : ε)
  | ask (q : Q) (next : A q → Dialogue Q A ε α)

namespace Dialogue

variable {Q : Type} {A : Q → Type} {ε ε' α β σ : Type}

/-! ## Putting dialogues together -/

/-- One dialogue, and another that goes on from what it returned. -/
def andThen : Dialogue Q A ε α → (α → Dialogue Q A ε β) → Dialogue Q A ε β
  | .ret a, f => f a
  | .fail e, _ => .fail e
  | .ask q next, f => .ask q fun answer => (next answer).andThen f

instance : Monad (Dialogue Q A ε) where
  pure := .ret
  bind := andThen

/-- One question. -/
def question (q : Q) : Dialogue Q A ε (A q) := .ask q .ret

/-- An `Except` as a dialogue. -/
def ofExcept : Except ε α → Dialogue Q A ε α
  | .ok a => .ret a
  | .error e => .fail e

theorem andThen_ret (d : Dialogue Q A ε α) : d.andThen .ret = d := by
  induction d with
  | ret a => rfl
  | fail e => rfl
  | ask q next ih => exact congrArg (Dialogue.ask q) (funext ih)

theorem andThen_assoc {γ : Type} (d : Dialogue Q A ε α) (f : α → Dialogue Q A ε β)
    (g : β → Dialogue Q A ε γ) :
    (d.andThen f).andThen g = d.andThen fun a => (f a).andThen g := by
  induction d with
  | ret a => rfl
  | fail e => rfl
  | ask q next ih => exact congrArg (Dialogue.ask q) (funext ih)

instance : LawfulMonad (Dialogue Q A ε) := LawfulMonad.mk' _ andThen_ret (fun _ _ => rfl)
  andThen_assoc

/-! ## Running -/

/-- A dialogue run by `carry`, which carries a question out. -/
def perform (carry : (q : Q) → Effect σ ε' (A q)) (raise : ε → ε') :
    Dialogue Q A ε α → Effect σ ε' α
  | .ret a => pure a
  | .fail e => throw (raise e)
  | .ask q next => carry q >>= fun answer => (next answer).perform carry raise

section Perform

variable (carry : (q : Q) → Effect σ ε' (A q)) (raise : ε → ε')

theorem perform_question (q : Q) :
    (question q : Dialogue Q A ε (A q)).perform carry raise = carry q := by
  change (carry q >>= fun answer => pure answer) = carry q
  exact bind_pure (carry q)

theorem perform_bind (d : Dialogue Q A ε α) (f : α → Dialogue Q A ε β) :
    (d >>= f).perform carry raise =
      d.perform carry raise >>= fun a => (f a).perform carry raise := by
  induction d with
  | ret a => rfl
  | fail e => rfl
  | ask q next ih =>
      change (carry q >>= fun answer => (next answer >>= f).perform carry raise) =
        (carry q >>= fun answer => (next answer).perform carry raise) >>= _
      rw [bind_assoc]
      exact congrArg (carry q >>= ·) (funext ih)

theorem perform_mapM (f : β → Dialogue Q A ε α) (xs : List β) :
    (xs.mapM f).perform carry raise = xs.mapM fun x => (f x).perform carry raise := by
  induction xs with
  | nil => rfl
  | cons x xs ih =>
      rw [List.mapM_cons, List.mapM_cons, perform_bind]
      refine congrArg ((f x).perform carry raise >>= ·) (funext fun a => ?_)
      rw [perform_bind, ih]
      rfl

theorem perform_forM (f : β → Dialogue Q A ε PUnit) (xs : List β) :
    (xs.forM f).perform carry raise = xs.forM fun x => (f x).perform carry raise := by
  induction xs with
  | nil => rfl
  | cons x xs ih =>
      rw [List.forM, List.forM, perform_bind]
      exact congrArg ((f x).perform carry raise >>= ·) (funext fun _ => ih)

end Perform

/-! ## Servers -/

/-- What a question is answered, by the questions before it. -/
abbrev Server (Q : Type) (A : Q → Type) : Type := List Q → (q : Q) → A q

/-- A server at work, which keeps the questions it is asked. -/
def Server.answer (server : Server Q A) (q : Q) : Effect (List Q) ε (A q) :=
  .of fun asked => (.ok (server asked q), asked ++ [q])

/-- A dialogue with a server. -/
def against (server : Server Q A) (d : Dialogue Q A ε α) : Effect (List Q) ε α :=
  d.perform server.answer id

section Against

variable (server : Server Q A)

theorem exec_against_ask (q : Q) (next : A q → Dialogue Q A ε α) (asked : List Q) :
    ((ask q next).against server).exec asked =
      ((next (server asked q)).against server).exec (asked ++ [q]) :=
  exec_bind (server.answer q) _ asked

theorem exec_against_question_bind (q : Q) (f : A q → Dialogue Q A ε α) (asked : List Q) :
    ((question q >>= f).against server).exec asked =
      ((f (server asked q)).against server).exec (asked ++ [q]) :=
  exec_against_ask server q f asked

theorem exec_against_ofExcept_bind (outcome : Except ε α) (f : α → Dialogue Q A ε β)
    (asked : List Q) :
    ((ofExcept outcome >>= f).against server).exec asked = match outcome with
      | .ok a => ((f a).against server).exec asked
      | .error e => (.error e, asked) := by
  rcases outcome with e | a <;> rfl

theorem exec_against_bind (d : Dialogue Q A ε α) (f : α → Dialogue Q A ε β) (asked : List Q) :
    ((d >>= f).against server).exec asked = match (d.against server).exec asked with
      | (.ok a, asked') => ((f a).against server).exec asked'
      | (.error e, asked') => (.error e, asked') := by
  unfold against
  rw [perform_bind, exec_bind]
  rcases (d.perform server.answer id).exec asked with ⟨e | a, asked'⟩ <;> rfl

/-- A loop whose turns are known by what was asked before them. -/
theorem exec_against_forM {H : List β → List Q} {f : β → Dialogue Q A ε PUnit} {xs : List β}
    (h : ∀ pre x post, xs = pre ++ x :: post →
      ((f x).against server).exec (H pre) = (.ok (), H (pre ++ [x]))) :
    ((xs.forM f).against server).exec (H []) = (.ok (), H xs) := by
  unfold against
  rw [perform_forM]
  exact exec_forM_turns h

/-- A loop that collects what its turns come to, and a return. `H` is what has been
asked behind some turns. -/
theorem exec_against_loop {γ : Type} {H : List β → List Q} {f : β → Dialogue Q A ε α}
    {outcome : β → Except ε α} {xs : List β} (g : List α → γ)
    (hout : ∀ pre x post, xs = pre ++ x :: post →
      (((f x).against server).exec (H pre)).1 = outcome x)
    (hnext : ∀ pre x post, xs = pre ++ x :: post → ∀ a, outcome x = .ok a →
      (((f x).against server).exec (H pre)).2 = H (pre ++ [x])) :
    (((xs.mapM f >>= fun as => pure (g as)).against server).exec (H [])).1 =
      (xs.mapM outcome >>= fun as => pure (g as)) := by
  have hloop : (((xs.mapM f).against server).exec (H [])).1 = xs.mapM outcome := by
    unfold against
    rw [perform_mapM]
    exact exec_mapM_turns hout hnext
  rw [exec_against_bind, ← hloop]
  rcases ((xs.mapM f).against server).exec (H []) with ⟨e | as, asked⟩
  · rfl
  · rfl

end Against

/-! ## What a dialogue asks -/

/-- Whatever it is answered, the dialogue asks only questions with `p`. -/
def AsksOnly (p : Q → Prop) : Dialogue Q A ε α → Prop
  | .ret _ => True
  | .fail _ => True
  | .ask q next => p q ∧ ∀ answer, (next answer).AsksOnly p

section AsksOnly

variable {p : Q → Prop}

theorem asksOnly_question {q : Q} (h : p q) :
    AsksOnly p (question q : Dialogue Q A ε (A q)) := ⟨h, fun _ => trivial⟩

theorem asksOnly_ofExcept (outcome : Except ε α) :
    AsksOnly p (ofExcept outcome : Dialogue Q A ε α) := by
  rcases outcome with e | a
  · trivial
  · trivial

theorem asksOnly_bind {d : Dialogue Q A ε α} {f : α → Dialogue Q A ε β} (hd : d.AsksOnly p)
    (hf : ∀ a, (f a).AsksOnly p) : (d >>= f).AsksOnly p := by
  induction d with
  | ret a => exact hf a
  | fail e => trivial
  | ask q next ih => exact ⟨hd.1, fun answer => ih answer (hd.2 answer)⟩

theorem asksOnly_forM {f : β → Dialogue Q A ε PUnit} {xs : List β}
    (h : ∀ x ∈ xs, (f x).AsksOnly p) : (xs.forM f).AsksOnly p := by
  induction xs with
  | nil => trivial
  | cons x xs ih =>
      rw [List.forM]
      exact asksOnly_bind (h x (List.mem_cons_self ..)) fun _ =>
        ih fun y hy => h y (List.mem_cons_of_mem _ hy)

theorem asksOnly_mapM {f : β → Dialogue Q A ε α} {xs : List β}
    (h : ∀ x ∈ xs, (f x).AsksOnly p) : (xs.mapM f).AsksOnly p := by
  induction xs with
  | nil => trivial
  | cons x xs ih =>
      rw [List.mapM_cons]
      refine asksOnly_bind (h x (List.mem_cons_self ..)) fun _ => ?_
      exact asksOnly_bind (ih fun y hy => h y (List.mem_cons_of_mem _ hy)) fun _ => trivial

/-- What has `p` may have less. -/
theorem AsksOnly.mono {p' : Q → Prop} {d : Dialogue Q A ε α} (h : d.AsksOnly p)
    (hp : ∀ q, p q → p' q) : d.AsksOnly p' := by
  induction d with
  | ret a => trivial
  | fail e => trivial
  | ask q next ih => exact ⟨hp q h.1, fun answer => ih answer (h.2 answer)⟩

theorem asksOnly_true (d : Dialogue Q A ε α) : d.AsksOnly fun _ => True := by
  induction d with
  | ret a => trivial
  | fail e => trivial
  | ask q next ih => exact ⟨trivial, ih⟩

/-- A server is asked nothing else by it. -/
theorem AsksOnly.against {d : Dialogue Q A ε α} (h : d.AsksOnly p) (server : Server Q A)
    (asked : List Q) : ∃ later, ((d.against server).exec asked).2 = asked ++ later ∧
      ∀ q ∈ later, p q := by
  induction d generalizing asked with
  | ret a => exact ⟨[], (List.append_nil _).symm, fun q hq => by cases hq⟩
  | fail e => exact ⟨[], (List.append_nil _).symm, fun q hq => by cases hq⟩
  | ask q next ih =>
      obtain ⟨later, hlater, hall⟩ := ih (server asked q) (h.2 _) (asked ++ [q])
      refine ⟨q :: later, ?_, List.forall_mem_cons.mpr ⟨h.1, hall⟩⟩
      rw [exec_against_ask, hlater, List.append_assoc]
      rfl

end AsksOnly

/-! ## The same answers -/

/-- Questions carried out one after another. -/
inductive Carried (carry : (q : Q) → Effect σ ε' (A q)) : σ → List (Sigma A) → σ → Prop where
  | nil (s : σ) : Carried carry s [] s
  | cons {q : Q} {answer : A q} {s t s' : σ} {rest : List (Sigma A)}
      (first : (carry q).exec s = (.ok answer, t)) (then_ : Carried carry t rest s') :
      Carried carry s (⟨q, answer⟩ :: rest) s'

/-- A server that gives these answers to these questions. -/
def Server.Gives (server : Server Q A) : List Q → List (Sigma A) → Prop
  | _, [] => True
  | asked, x :: rest => server asked x.1 = x.2 ∧ server.Gives (asked ++ [x.1]) rest

/-- **The same answers.** What a dialogue returned was carried out question by
question, and a server that answers them alike makes it return the same. -/
theorem perform_answers {carry : (q : Q) → Effect σ ε' (A q)} {raise : ε → ε'} {a : α} {s' : σ}
    (d : Dialogue Q A ε α) : ∀ s, (d.perform carry raise).exec s = (.ok a, s') →
      ∃ answered, Carried carry s answered s' ∧ ∀ (server : Server Q A) (asked : List Q),
        server.Gives asked answered →
          (d.against server).exec asked = (.ok a, asked ++ answered.map Sigma.fst) := by
  induction d with
  | ret b =>
      intro s h
      obtain ⟨rfl, rfl⟩ := exec_pure_ok.mp h
      refine ⟨[], .nil s, fun server asked _ => ?_⟩
      rw [List.map_nil, List.append_nil]
      rfl
  | fail e =>
      intro s h
      exact absurd h exec_throw_ok
  | ask q next ih =>
      intro s h
      -- the answer picks the branch, and the server gives the same one
      obtain ⟨answer, t, hfirst, hrest⟩ := exec_bind_ok.mp h
      obtain ⟨answered, hcarried, hserver⟩ := ih answer t hrest
      refine ⟨⟨q, answer⟩ :: answered, .cons hfirst hcarried, fun server asked hgives => ?_⟩
      rw [exec_against_ask, hgives.1, hserver server _ hgives.2, List.append_assoc]
      rfl

end Dialogue
