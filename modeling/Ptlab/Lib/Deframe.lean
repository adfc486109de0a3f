/-
Incremental deframing: cutting self-delimiting items off the front of a buffer
that is filled in arbitrary pieces.

A `Format` says what one look at the front of a buffer can tell: nothing
complete yet, a complete item of so many symbols, or a header that must be
refused. `drain` repeats the look until it stops. `drain_append` is the fact
everything else rests on: what was cut off before more symbols arrived is what
would have been cut off had they all been there.

Nothing here knows what the items are. A `Codec` adds their encodings, and with
them losslessness (`Codec.encode_drain`) and the round trip
(`Codec.drain_encode`).
-/
import Mathlib.Data.List.Basic
import Mathlib.Tactic

set_option autoImplicit false

namespace Deframe

/-! ## Formats -/

/-- What one look at the front of a buffer says. -/
inductive Look (α ε : Type*) where
  /-- No complete item yet. -/
  | more
  /-- The item `a` stands at the front, in `n` symbols. -/
  | item (a : α) (n : ℕ)
  /-- The front must be refused. -/
  | reject (e : ε)

/-- A self-delimiting format. Its verdicts are stable: once an item or a refusal
is visible, symbols arriving behind it do not change what is seen. -/
structure Format (β α ε : Type*) where
  look : List β → Look α ε
  look_nil : look [] = .more
  item_pos : ∀ {b a n}, look b = .item a n → 0 < n
  item_le : ∀ {b a n}, look b = .item a n → n ≤ b.length
  item_append : ∀ {b a n} (c : List β), look b = .item a n → look (b ++ c) = .item a n
  reject_append : ∀ {b e} (c : List β), look b = .reject e → look (b ++ c) = .reject e

/-- The outcome of draining a buffer: the items cut off, what is left, and the
refusal that stopped it, if one did. -/
structure Drained (β α ε : Type*) where
  items : List α
  rest : List β
  error : Option ε

section Drain

variable {β α ε : Type*} (F : Format β α ε)

/-- Put items that were cut off earlier in front of an outcome. -/
def Drained.prepend (as : List α) (d : Drained β α ε) : Drained β α ε :=
  { d with items := as ++ d.items }

@[simp] theorem Drained.prepend_items (as : List α) (d : Drained β α ε) :
    (d.prepend as).items = as ++ d.items := rfl

@[simp] theorem Drained.prepend_rest (as : List α) (d : Drained β α ε) :
    (d.prepend as).rest = d.rest := rfl

@[simp] theorem Drained.prepend_error (as : List α) (d : Drained β α ε) :
    (d.prepend as).error = d.error := rfl

/-- The loop, on fuel. Every item takes at least one symbol, so a buffer's
length is fuel enough (`drainFuel_congr`). -/
def drainFuel : ℕ → List β → Drained β α ε
  | 0, b => ⟨[], b, none⟩
  | k + 1, b =>
    match F.look b with
    | .more => ⟨[], b, none⟩
    | .reject e => ⟨[], b, some e⟩
    | .item a n => (drainFuel k (b.drop n)).prepend [a]

/-- Cut items off the front of `b` until the look says stop. -/
def drain (b : List β) : Drained β α ε := drainFuel F b.length b

/-- Two fuels that both cover the buffer's length give the same outcome. -/
theorem drainFuel_congr (k : ℕ) : ∀ (l : ℕ) (b : List β), b.length ≤ k → b.length ≤ l →
    drainFuel F k b = drainFuel F l b := by
  induction k with
  | zero =>
      intro l b hk _
      have hnil : b = [] := List.length_eq_zero_iff.mp (by omega)
      subst hnil
      cases l with
      | zero => rfl
      | succ l => simp only [drainFuel, F.look_nil]
  | succ k ih =>
      intro l b hk hl
      cases l with
      | zero =>
          have hnil : b = [] := List.length_eq_zero_iff.mp (by omega)
          subst hnil
          simp only [drainFuel, F.look_nil]
      | succ l =>
          simp only [drainFuel]
          rcases hlook : F.look b with _ | ⟨a, n⟩ | e
          · rfl
          · -- an item shortens the buffer, so the smaller fuels cover what is left
            have hpos := F.item_pos hlook
            have hle := F.item_le hlook
            have hdrop : (b.drop n).length = b.length - n := List.length_drop
            simp only [ih l (b.drop n) (by omega) (by omega)]
          · rfl

/-! ## One look at a time -/

@[simp] theorem drain_nil : drain F [] = ⟨[], [], none⟩ := rfl

theorem drain_of_more {b : List β} (h : F.look b = .more) : drain F b = ⟨[], b, none⟩ := by
  unfold drain
  cases b with
  | nil => rfl
  | cons x t => simp only [List.length_cons, drainFuel, h]

theorem drain_of_reject {b : List β} {e : ε} (h : F.look b = .reject e) :
    drain F b = ⟨[], b, some e⟩ := by
  unfold drain
  cases b with
  | nil => rw [F.look_nil] at h; cases h
  | cons x t => simp only [List.length_cons, drainFuel, h]

theorem drain_of_item {b : List β} {a : α} {n : ℕ} (h : F.look b = .item a n) :
    drain F b = (drain F (b.drop n)).prepend [a] := by
  have hpos := F.item_pos h
  have hle := F.item_le h
  cases b with
  | nil => rw [F.look_nil] at h; cases h
  | cons x t =>
      have hdrop : ((x :: t).drop n).length = (x :: t).length - n := List.length_drop
      simp only [List.length_cons] at hdrop
      rw [drain, List.length_cons, drainFuel, h]
      dsimp only
      rw [drain, drainFuel_congr F t.length _ _ (by omega) le_rfl]

/-- Induction along the items that come off the front. -/
theorem drain_induction {motive : List β → Prop}
    (more : ∀ b, F.look b = .more → motive b)
    (reject : ∀ b e, F.look b = .reject e → motive b)
    (item : ∀ b a n, F.look b = .item a n → motive (b.drop n) → motive b) :
    ∀ b, motive b := by
  intro b
  induction hlen : b.length using Nat.strong_induction_on generalizing b with
  | _ len ih =>
      rcases hlook : F.look b with _ | ⟨a, n⟩ | e
      · exact more b hlook
      · have hpos := F.item_pos hlook
        have hle := F.item_le hlook
        have hdrop : (b.drop n).length = b.length - n := List.length_drop
        exact item b a n hlook (ih _ (by omega) (b.drop n) rfl)
      · exact reject b e hlook

/-- What stops the loop is what the look says about the rest. -/
theorem look_rest (b : List β) :
    F.look (drain F b).rest = match (drain F b).error with
      | none => .more
      | some e => .reject e := by
  induction b using drain_induction F with
  | more b h => rw [drain_of_more F h]; exact h
  | reject b e h => rw [drain_of_reject F h]; exact h
  | item b a n h ih => rw [drain_of_item F h]; exact ih

theorem look_rest_of_ok {b : List β} (h : (drain F b).error = none) :
    F.look (drain F b).rest = .more := by
  rw [look_rest, h]

/-! ## More symbols arrive -/

/-- **Draining is incremental.** Items cut off a buffer are the items cut off
any longer one; symbols that arrive later go behind the rest. A refusal stays a
refusal. -/
theorem drain_append (b c : List β) :
    drain F (b ++ c) = match (drain F b).error with
      | none => (drain F ((drain F b).rest ++ c)).prepend (drain F b).items
      | some e => ⟨(drain F b).items, (drain F b).rest ++ c, some e⟩ := by
  induction b using drain_induction F with
  | more b h =>
      rw [drain_of_more F h]
      rfl
  | reject b e h =>
      rw [drain_of_reject F h, drain_of_reject F (F.reject_append c h)]
  | item b a n h ih =>
      -- the item is whole within `b`, so what stands behind `b` does not touch it
      have hle := F.item_le h
      rw [drain_of_item F h, drain_of_item F (F.item_append c h),
        List.drop_append_of_le_length hle, ih]
      simp only [Drained.prepend_error]
      rcases (drain F (b.drop n)).error with _ | e
      · rfl
      · rfl

theorem drain_append_of_ok {b : List β} (c : List β) (h : (drain F b).error = none) :
    drain F (b ++ c) = (drain F ((drain F b).rest ++ c)).prepend (drain F b).items := by
  rw [drain_append, h]

theorem drain_append_of_error {b : List β} {e : ε} (c : List β) (h : (drain F b).error = some e) :
    drain F (b ++ c) = ⟨(drain F b).items, (drain F b).rest ++ c, some e⟩ := by
  rw [drain_append, h]

/-- A buffer no prefix of a clean one can spoil: if the whole drains without a
refusal, so does every prefix. -/
theorem error_none_of_append {b c : List β} (h : (drain F (b ++ c)).error = none) :
    (drain F b).error = none := by
  rcases hb : (drain F b).error with _ | e
  · rfl
  · rw [drain_append_of_error F c hb] at h
    exact h

/-- What comes off a prefix comes off first. -/
theorem items_prefix_append (b c : List β) : (drain F b).items <+: (drain F (b ++ c)).items := by
  rcases hb : (drain F b).error with _ | e
  · rw [drain_append_of_ok F c hb]
    exact List.prefix_append _ _
  · rw [drain_append_of_error F c hb]

/-! ## At most so many items

A reader that has only so many takers stops when each of them has its item. -/

theorem drainFuel_length (k : ℕ) : ∀ b : List β, (drainFuel F k b).items.length ≤ k := by
  induction k with
  | zero => intro b; exact le_rfl
  | succ k ih =>
      intro b
      unfold drainFuel
      rcases F.look b with _ | ⟨a, n⟩ | e
      · exact Nat.zero_le _
      · exact Nat.succ_le_succ (ih (b.drop n))
      · exact Nat.zero_le _

/-- **Draining for a number of takers is incremental**, too: what arrives later
is for those who have nothing yet. -/
theorem drainFuel_append (k : ℕ) : ∀ b c : List β,
    drainFuel F k (b ++ c) = match (drainFuel F k b).error with
      | none => (drainFuel F (k - (drainFuel F k b).items.length)
          ((drainFuel F k b).rest ++ c)).prepend (drainFuel F k b).items
      | some e => ⟨(drainFuel F k b).items, (drainFuel F k b).rest ++ c, some e⟩ := by
  induction k with
  | zero => intro b c; rfl
  | succ k ih =>
      intro b c
      rcases hlook : F.look b with _ | ⟨a, n⟩ | e
      · have hb : drainFuel F (k + 1) b = ⟨[], b, none⟩ := by rw [drainFuel, hlook]
        rw [hb]
        rfl
      · have hle := F.item_le hlook
        have hb : drainFuel F (k + 1) b = (drainFuel F k (b.drop n)).prepend [a] := by
          rw [drainFuel, hlook]
        -- an item at the front is the same item with more behind it
        have hbc : drainFuel F (k + 1) (b ++ c) = (drainFuel F k (b.drop n ++ c)).prepend [a] := by
          rw [drainFuel, F.item_append c hlook]
          dsimp only
          rw [List.drop_append_of_le_length hle]
        rw [hbc, hb, ih, Drained.prepend_error]
        rcases (drainFuel F k (b.drop n)).error with _ | e
        · simp only [Drained.prepend_items, Drained.prepend_rest, List.singleton_append,
            List.length_cons, Nat.add_sub_add_right]
          rfl
        · rfl
      · have hb : drainFuel F (k + 1) b = ⟨[], b, some e⟩ := by rw [drainFuel, hlook]
        rw [hb, drainFuel, F.reject_append c hlook]

end Drain

/-! ## Codecs -/

/-- A format together with the encodings it accepts. `Valid` marks the items
that have an encoding of their own. -/
structure Codec (β α ε : Type*) extends Format β α ε where
  encode : α → List β
  Valid : α → Prop
  encode_item : ∀ {b a n}, look b = .item a n → b.take n = encode a
  valid_item : ∀ {b a n}, look b = .item a n → Valid a
  look_encode : ∀ {a}, Valid a → ∀ c, look (encode a ++ c) = .item a (encode a).length

section Codec

variable {β α ε : Type*} (C : Codec β α ε)

/-- The wire form of a list of items. -/
def Codec.encodeAll (as : List α) : List β := as.flatMap C.encode

@[simp] theorem Codec.encodeAll_nil : C.encodeAll [] = [] := rfl

@[simp] theorem Codec.encodeAll_cons (a : α) (as : List α) :
    C.encodeAll (a :: as) = C.encode a ++ C.encodeAll as := rfl

/-- **Nothing is lost.** The items' encodings followed by the rest are the
buffer. -/
theorem Codec.encode_drain (b : List β) :
    C.encodeAll (drain C.toFormat b).items ++ (drain C.toFormat b).rest = b := by
  induction b using drain_induction C.toFormat with
  | more b h => rw [drain_of_more _ h]; rfl
  | reject b e h => rw [drain_of_reject _ h]; rfl
  | item b a n h ih =>
      rw [drain_of_item _ h, Drained.prepend_items, Drained.prepend_rest, List.cons_append,
        List.nil_append, Codec.encodeAll_cons, List.append_assoc, ih, ← C.encode_item h]
      exact List.take_append_drop n b

/-- Every item that comes off is valid. -/
theorem Codec.valid_drain (b : List β) : ∀ a ∈ (drain C.toFormat b).items, C.Valid a := by
  induction b using drain_induction C.toFormat with
  | more b h => rw [drain_of_more _ h]; intro a ha; cases ha
  | reject b e h => rw [drain_of_reject _ h]; intro a ha; cases ha
  | item b a n h ih =>
      rw [drain_of_item _ h]
      intro x hx
      rcases List.mem_cons.mp hx with rfl | hx
      · exact C.valid_item h
      · exact ih x hx

/-- **The round trip.** Valid items come back in order, and draining goes on
behind them. -/
theorem Codec.drain_encode (as : List α) (hv : ∀ a ∈ as, C.Valid a) (c : List β) :
    drain C.toFormat (C.encodeAll as ++ c) = (drain C.toFormat c).prepend as := by
  induction as with
  | nil => rfl
  | cons a as ih =>
      have ha : C.Valid a := hv a (List.mem_cons_self ..)
      rw [Codec.encodeAll_cons, List.append_assoc, drain_of_item _ (C.look_encode ha _),
        List.drop_left, ih (fun x hx => hv x (List.mem_cons_of_mem a hx))]
      rfl

/-- Takers enough for some items have them, and the others go on behind them. -/
theorem Codec.drainFuel_encode (as : List α) (hv : ∀ a ∈ as, C.Valid a) (k : ℕ) (c : List β) :
    drainFuel C.toFormat (as.length + k) (C.encodeAll as ++ c) =
      (drainFuel C.toFormat k c).prepend as := by
  induction as with
  | nil => rw [List.length_nil, Nat.zero_add]; rfl
  | cons a as ih =>
      have ha : C.Valid a := hv a (List.mem_cons_self ..)
      rw [List.length_cons, Nat.add_right_comm, drainFuel, Codec.encodeAll_cons,
        List.append_assoc, C.look_encode ha]
      dsimp only
      rw [List.drop_left, ih (fun x hx => hv x (List.mem_cons_of_mem a hx))]
      rfl

/-- Valid items have only one reading: if one list of them begins like another,
it is the other with more behind. -/
theorem Codec.prefix_of_encodeAll (as : List α) : ∀ bs : List α, (∀ a ∈ as, C.Valid a) →
    (∀ b ∈ bs, C.Valid b) → ∀ x : List β, C.encodeAll as ++ x <+: C.encodeAll bs →
    ∃ cs, bs = as ++ cs ∧ x <+: C.encodeAll cs := by
  induction as with
  | nil => intro bs _ _ x hx; exact ⟨bs, rfl, hx⟩
  | cons a as ih =>
      intro bs ha hb x hx
      rw [Codec.encodeAll_cons, List.append_assoc] at hx
      obtain ⟨y, hy⟩ := hx
      rw [List.append_assoc] at hy
      -- a look at the second list's encoding sees `a`, and its own first item too
      have hlook := C.look_encode (ha a (List.mem_cons_self ..)) ((C.encodeAll as ++ x) ++ y)
      cases bs with
      | nil =>
          have hnil := C.look_nil
          rw [hy, Codec.encodeAll_nil, hnil] at hlook
          cases hlook
      | cons b bs =>
          rw [hy, Codec.encodeAll_cons, C.look_encode (hb b (List.mem_cons_self ..))] at hlook
          injection hlook with hab _
          subst hab
          rw [Codec.encodeAll_cons] at hy
          obtain ⟨cs, hcs, hx⟩ := ih bs (fun c hc => ha c (List.mem_cons_of_mem _ hc))
            (fun c hc => hb c (List.mem_cons_of_mem _ hc)) x ⟨y, List.append_cancel_left hy⟩
          exact ⟨cs, by rw [hcs, List.cons_append], hx⟩

end Codec

/-! ## Rows of encodings

For a writer that has no reader here, it is enough that no encoding is the beginning
of another one. -/

section PrefixFree

variable {β α : Type*}

/-- One list begins with one encoding of a `Valid` item at most. -/
def PrefixFree (Valid : α → Prop) (encode : α → List β) : Prop :=
  ∀ a b x y, Valid a → Valid b → encode a ++ x = encode b ++ y → a = b

/-- **A row has one reading.** -/
theorem PrefixFree.flatMap_injective {Valid : α → Prop} {encode : α → List β}
    (h : PrefixFree Valid encode) (hne : ∀ a, encode a ≠ []) (as : List α) :
    ∀ bs : List α, (∀ a ∈ as, Valid a) → (∀ b ∈ bs, Valid b) →
      as.flatMap encode = bs.flatMap encode → as = bs := by
  induction as with
  | nil =>
      intro bs _ _ heq
      cases bs with
      | nil => rfl
      | cons b bs =>
          rw [List.flatMap_nil, List.flatMap_cons] at heq
          exact absurd (List.append_eq_nil_iff.mp heq.symm).1 (hne b)
  | cons a as ih =>
      intro bs ha hb heq
      cases bs with
      | nil =>
          rw [List.flatMap_nil, List.flatMap_cons] at heq
          exact absurd (List.append_eq_nil_iff.mp heq).1 (hne a)
      | cons b bs =>
          rw [List.forall_mem_cons] at ha hb
          rw [List.flatMap_cons, List.flatMap_cons] at heq
          have hab : a = b := h a b _ _ ha.1 hb.1 heq
          subst hab
          rw [ih bs ha.2 hb.2 (List.append_cancel_left heq)]

end PrefixFree

end Deframe
