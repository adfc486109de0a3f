/-
Waiting for something to take: receive until there is one.

The state of a waiter changes with what it receives, which may also make it give
up. What it receives is a script, and the wait ends in one of three ways: with a
value taken, with an error, or with the script at its end and the waiter still
waiting. `await_rule` is the rule of this loop: an invariant of the state and
the script ahead, and one obligation for each way to end.
-/
import Mathlib.Tactic

set_option autoImplicit false

namespace Await

variable {σ ρ ε α : Type}

/-- How a wait ends. -/
inductive Ended (ε α : Type) where
  | returned (value : α)
  | raised (error : ε)
  /-- Still waiting. -/
  | waiting
  deriving DecidableEq, Repr

/-- What a wait hands over. -/
def Ended.toList : Ended ε α → List α
  | .returned value => [value]
  | .raised _ => []
  | .waiting => []

/-- Take a value if there is one, and receive until there is. -/
def await (take : σ → Option (α × σ)) (receive : σ → ρ → Except ε Unit × σ) (s : σ)
    (script : List ρ) : Ended ε α × σ × List ρ :=
  match take s, script with
  | some (a, s'), script => (.returned a, s', script)
  | none, [] => (.waiting, s, [])
  | none, r :: script =>
    match receive s r with
    | (.error e, s') => (.raised e, s', script)
    | (.ok (), s') => await take receive s' script
termination_by structural script

variable {take : σ → Option (α × σ)} {receive : σ → ρ → Except ε Unit × σ}

/-- **The rule.** `I` holds between one `receive` and the next, and `Q` of how
the wait ended, the state it left and the script it did not use. -/
theorem await_rule {I : σ → List ρ → Prop} {Q : Ended ε α → σ → List ρ → Prop}
    (htake : ∀ s script a s', I s script → take s = some (a, s') → Q (.returned a) s' script)
    (hwait : ∀ s, I s [] → Q .waiting s [])
    (hraise : ∀ s r script e s', I s (r :: script) → receive s r = (.error e, s') →
      Q (.raised e) s' script)
    (hreceive : ∀ s r script s', I s (r :: script) → receive s r = (.ok (), s') → I s' script)
    (script : List ρ) : ∀ s, I s script →
      Q (await take receive s script).1 (await take receive s script).2.1
        (await take receive s script).2.2 := by
  -- the script shrinks; the state is generalized, since each `receive` changes it
  induction script with
  | nil =>
      intro s hI
      unfold await
      rcases htaken : take s with _ | ⟨a, s'⟩
      · exact hwait s hI
      · exact htake s [] a s' hI htaken
  | cons r script ih =>
      intro s hI
      unfold await
      rcases htaken : take s with _ | ⟨a, s'⟩
      · dsimp only
        rcases hr : receive s r with ⟨e | ⟨⟩, s'⟩
        · exact hraise s r script e s' hI hr
        · exact ih s' (hreceive s r script s' hI hr)
      · exact htake s (r :: script) a s' hI htaken

end Await
