/-
Reflected cyclic redundancy checks.

A register of `w` bits is a polynomial over the field of two elements, the lowest
bit being the coefficient of the highest power. `shift` is one step of the
division by `modulus P`, which is `X ^ w` and the polynomial of `P`, and that makes
a check a remainder (`register_modByMonic`). A byte is taken in by eight of these
steps (`shifts_eq_serial`) or by one look at a table of 256 registers
(`tableByte_eq_shifts`). A step is linear, and where it can be undone messages that
differ in a window no wider than the register keep different registers
(`register_window`).
-/
import Mathlib.Algebra.Polynomial.Div
import Mathlib.Algebra.Polynomial.Monic
import Mathlib.Data.List.GetD
import Mathlib.Data.ZMod.Basic
import Mathlib.Tactic

set_option autoImplicit false

open Polynomial

namespace Crc

variable {w : ℕ}

/-! ## The register -/

/-- What comes back for the bit that is shifted out. -/
def feedback (P : BitVec w) (b : Bool) : BitVec w := if b then P else 0#w

/-- One step. -/
def shift (P r : BitVec w) : BitVec w := (r >>> 1) ^^^ feedback P (r.getLsbD 0)

/-- So many steps. -/
def shifts (P : BitVec w) : ℕ → BitVec w → BitVec w
  | 0, r => r
  | n + 1, r => shifts P n (shift P r)

/-- One step that takes a bit in. -/
def step (P r : BitVec w) (b : Bool) : BitVec w := shift P (r ^^^ BitVec.setWidth w (.ofBool b))

theorem step_false (P r : BitVec w) : step P r false = shift P r := by
  unfold step
  simp

/-- A single bit is shifted out at once. -/
theorem ofBool_ushiftRight (b : Bool) : (BitVec.setWidth w (.ofBool b)) >>> 1 = 0#w := by
  apply BitVec.eq_of_getLsbD_eq
  intro i hi
  rw [BitVec.getLsbD_ushiftRight, BitVec.getLsbD_setWidth, BitVec.getLsbD_ofBool]
  simp

/-- A step takes in the lowest bit of what is laid over the register, and the
others are still laid over it afterwards. -/
theorem shift_xor (P r y : BitVec w) : shift P (r ^^^ y) = step P r (y.getLsbD 0) ^^^ (y >>> 1) := by
  by_cases hw : 0 < w
  · have hbit : (BitVec.setWidth w (.ofBool (y.getLsbD 0))).getLsbD 0 = y.getLsbD 0 := by
      rw [BitVec.getLsbD_setWidth, BitVec.getLsbD_ofBool]
      simp [hw]
    unfold step shift
    rw [BitVec.getLsbD_xor, BitVec.getLsbD_xor, hbit, BitVec.ushiftRight_xor_distrib,
      BitVec.ushiftRight_xor_distrib, ofBool_ushiftRight, BitVec.xor_zero]
    ac_rfl
  · obtain rfl : w = 0 := by omega
    exact Subsingleton.elim _ _

/-- The lowest `n` bits, the lowest first. -/
def lowBits (n : ℕ) (y : BitVec w) : List Bool := (List.range n).map y.getLsbD

theorem lowBits_succ (n : ℕ) (y : BitVec w) :
    lowBits (n + 1) y = y.getLsbD 0 :: lowBits n (y >>> 1) := by
  unfold lowBits
  rw [List.range_succ_eq_map, List.map_cons, List.map_map]
  congr 2
  funext i
  rw [BitVec.getLsbD_ushiftRight, Nat.add_comm]
  rfl

/-- **A number of `n` bits** laid over the register is taken in by `n` steps. -/
theorem shifts_eq_serial (P : BitVec w) (n : ℕ) : ∀ r y : BitVec w, y.toNat < 2 ^ n →
    shifts P n (r ^^^ y) = (lowBits n y).foldl (step P) r := by
  induction n with
  | zero =>
      intro r y hy
      have hzero : y = 0#w := BitVec.eq_of_toNat_eq (by simpa using hy)
      rw [hzero, BitVec.xor_zero]
      rfl
  | succ n ih =>
      intro r y hy
      have hrest : (y >>> 1).toNat < 2 ^ n := by
        rw [BitVec.toNat_ushiftRight, Nat.shiftRight_eq_div_pow]
        omega
      rw [shifts, shift_xor, ih _ _ hrest, lowBits_succ]
      rfl

/-- What stands above the lowest `n` bits only moves down in `n` steps. -/
theorem shifts_xor_high (P : BitVec w) (n : ℕ) : ∀ r y : BitVec w,
    (∀ i < n, y.getLsbD i = false) → shifts P n (r ^^^ y) = shifts P n r ^^^ (y >>> n) := by
  induction n with
  | zero =>
      intro r y _
      rw [BitVec.ushiftRight_zero]
      rfl
  | succ n ih =>
      intro r y hy
      have hrest : ∀ i < n, (y >>> 1).getLsbD i = false := by
        intro i hi
        rw [BitVec.getLsbD_ushiftRight]
        exact hy _ (by omega)
      rw [shifts, shift_xor, hy 0 (Nat.succ_pos n), step_false, ih _ _ hrest, shifts,
        ← BitVec.shiftRight_add, Nat.add_comm]

/-! ## Linearity -/

/-- What is done to two registers is done to one laid over the other. -/
def Linear (f : BitVec w → BitVec w) : Prop := ∀ r s, f (r ^^^ s) = f r ^^^ f s

theorem Linear.zero {f : BitVec w → BitVec w} (hf : Linear f) : f 0#w = 0#w := by
  have h := hf 0#w 0#w
  rwa [BitVec.xor_self, BitVec.xor_self] at h

theorem Linear.comp {f g : BitVec w → BitVec w} (hf : Linear f) (hg : Linear g) :
    Linear (f ∘ g) := by
  intro r s
  rw [Function.comp_apply, hg, hf]
  rfl

theorem ushiftRight_linear (n : ℕ) : Linear fun r : BitVec w => r >>> n :=
  fun r s => BitVec.ushiftRight_xor_distrib r s n

theorem shiftLeft_linear (n : ℕ) : Linear fun r : BitVec w => r <<< n :=
  fun r s => BitVec.shiftLeft_xor_distrib r s n

theorem and_linear (m : BitVec w) : Linear fun r : BitVec w => r &&& m := by
  intro r s
  apply BitVec.eq_of_getLsbD_eq
  intro i hi
  simp only [BitVec.getLsbD_xor, BitVec.getLsbD_and]
  exact Bool.and_xor_distrib_right _ _ _

/-- A register over which something made of it is laid. -/
theorem Linear.laid {f : BitVec w → BitVec w} (hf : Linear f) : Linear fun r => r ^^^ f r := by
  intro r s
  show (r ^^^ s) ^^^ f (r ^^^ s) = (r ^^^ f r) ^^^ (s ^^^ f s)
  rw [hf]
  ac_rfl

/-- A linear map that takes nothing but zero to zero is one to one. -/
theorem Linear.injective {f : BitVec w → BitVec w} (hf : Linear f)
    (hzero : ∀ r, f r = 0#w → r = 0#w) : Function.Injective f := by
  intro r s h
  have hsum : f (r ^^^ s) = 0#w := by rw [hf, h, BitVec.xor_self]
  exact BitVec.xor_eq_zero_iff.mp (hzero _ hsum)

/-- Where two linear maps agree on the single bits below `n`, they agree on all
registers with no other bit. The induction is on `n`, and its step takes the
highest of these bits away. -/
theorem Linear.eq_below {f g : BitVec w → BitVec w} (hf : Linear f) (hg : Linear g) (n : ℕ)
    (hbits : ∀ i < n, f (BitVec.twoPow w i) = g (BitVec.twoPow w i)) :
    ∀ r : BitVec w, (∀ i, n ≤ i → r.getLsbD i = false) → f r = g r := by
  induction n with
  | zero =>
      intro r hr
      have hzero : r = 0#w := by
        apply BitVec.eq_of_getLsbD_eq
        intro i hi
        rw [hr i (Nat.zero_le i), BitVec.getLsbD_zero]
      rw [hzero, hf.zero, hg.zero]
  | succ n ih =>
      intro r hr
      have hbelow := ih fun i hi => hbits i (by omega)
      -- with the bit `n` set, it is that bit and what is left below
      by_cases hn : r.getLsbD n
      · have hnw : n < w := BitVec.lt_of_getLsbD hn
        have hback : r = (r ^^^ BitVec.twoPow w n) ^^^ BitVec.twoPow w n := by
          rw [BitVec.xor_assoc, BitVec.xor_self, BitVec.xor_zero]
        have hrest : f (r ^^^ BitVec.twoPow w n) = g (r ^^^ BitVec.twoPow w n) := by
          apply hbelow
          intro i hi
          rw [BitVec.getLsbD_xor, BitVec.getLsbD_twoPow]
          by_cases hin : i = n
          · simp [hin, hn, hnw]
          · simp [hr i (by omega), Ne.symm hin]
        rw [hback, hf, hg, hrest, hbits n (Nat.lt_succ_self n)]
      · apply hbelow
        intro i hi
        by_cases hin : i = n
        · simpa [hin] using hn
        · exact hr i (by omega)

/-- **Linear maps** are known by what they do to single bits. -/
theorem Linear.ext {f g : BitVec w → BitVec w} (hf : Linear f) (hg : Linear g)
    (hbits : ∀ i < w, f (BitVec.twoPow w i) = g (BitVec.twoPow w i)) : f = g := by
  funext r
  exact hf.eq_below hg w hbits r fun i hi => BitVec.getLsbD_of_ge r i hi

theorem feedback_xor (P : BitVec w) (a b : Bool) :
    feedback P (a ^^ b) = feedback P a ^^^ feedback P b := by
  cases a <;> cases b <;> simp [feedback]

theorem shift_linear (P : BitVec w) : Linear (shift P) := by
  intro r s
  unfold shift
  rw [BitVec.getLsbD_xor, feedback_xor, BitVec.ushiftRight_xor_distrib]
  ac_rfl

theorem shifts_linear (P : BitVec w) (n : ℕ) : Linear (shifts P n) := by
  induction n with
  | zero => exact fun _ _ => rfl
  | succ n ih => exact ih.comp (shift_linear P)

/-! ## Steps back

The highest bit of `P` is the constant coefficient of the modulus. Where it is one
a step can be undone. -/

theorem shift_injective {P : BitVec w} (hP : P.msb = true) : Function.Injective (shift P) := by
  apply (shift_linear P).injective
  intro r hr
  have hw : 0 < w := by
    by_contra h
    obtain rfl : w = 0 := by omega
    simp [BitVec.of_length_zero] at hP
  have htop : (r >>> 1).getLsbD (w - 1) = false := by
    rw [BitVec.getLsbD_ushiftRight]
    exact BitVec.getLsbD_of_ge r _ (by omega)
  have hback : r >>> 1 = feedback P (r.getLsbD 0) := BitVec.xor_eq_zero_iff.mp hr
  -- a bit that is shifted out feeds the top back, which the shift leaves empty
  have hlow : r.getLsbD 0 = false := by
    rw [hback] at htop
    by_contra hbit
    rw [Bool.not_eq_false] at hbit
    rw [hbit, feedback, if_pos rfl, ← BitVec.msb_eq_getLsbD_last, hP] at htop
    exact absurd htop (by decide)
  rw [hlow] at hback
  apply BitVec.eq_of_getLsbD_eq
  intro i hi
  rw [BitVec.getLsbD_zero]
  cases i with
  | zero => exact hlow
  | succ i =>
      have hbit := congrArg (BitVec.getLsbD · i) hback
      simpa [feedback, BitVec.getLsbD_ushiftRight, Nat.add_comm] using hbit

theorem shifts_injective {P : BitVec w} (hP : P.msb = true) (n : ℕ) :
    Function.Injective (shifts P n) := by
  induction n with
  | zero => exact fun _ _ h => h
  | succ n ih => exact fun _ _ h => shift_injective hP (ih h)

theorem step_injective {P : BitVec w} (hP : P.msb = true) (b : Bool) :
    Function.Injective fun r => step P r b := by
  intro r s h
  exact (BitVec.xor_left_inj _).mp (shift_injective hP h)

/-- Bits taken in after two registers differ do not make them the same. -/
theorem serial_injective {P : BitVec w} (hP : P.msb = true) (bits : List Bool) :
    Function.Injective fun r => bits.foldl (step P) r := by
  induction bits with
  | nil => exact fun _ _ h => h
  | cons b bits ih => exact fun _ _ h => step_injective hP b (ih h)

/-- Bits as a number. -/
def ofLowBits (bits : List Bool) : BitVec w := (BitVec.ofBoolListLE bits).setWidth w

theorem lowBits_ofLowBits {bits : List Bool} (hlen : bits.length ≤ w) :
    lowBits bits.length (ofLowBits bits : BitVec w) = bits := by
  unfold lowBits
  apply List.ext_getElem
  · rw [List.length_map, List.length_range]
  · intro i _ hi
    have hbit : (ofLowBits bits : BitVec w).getLsbD i = bits[i] := by
      rw [ofLowBits, BitVec.getLsbD_setWidth, BitVec.getLsbD_ofBoolListLE,
        List.getD_eq_getElem _ _ hi, decide_eq_true (show i < w by omega), Bool.true_and]
    rw [List.getElem_map, List.getElem_range, hbit]

theorem ofLowBits_lt {bits : List Bool} : (ofLowBits bits : BitVec w).toNat < 2 ^ bits.length := by
  unfold ofLowBits
  rw [BitVec.toNat_setWidth]
  exact lt_of_le_of_lt (Nat.mod_le ..) (BitVec.isLt _)

/-- **A window** no wider than the register: from one register, different bits lead
to different registers. -/
theorem window_injective {P : BitVec w} (hP : P.msb = true) (r : BitVec w) {bits bits' : List Bool}
    (hlen : bits.length = bits'.length) (hw : bits.length ≤ w)
    (h : bits.foldl (step P) r = bits'.foldl (step P) r) : bits = bits' := by
  have hbits : bits.foldl (step P) r = shifts P bits.length (r ^^^ ofLowBits bits) := by
    rw [shifts_eq_serial P _ r _ ofLowBits_lt, lowBits_ofLowBits hw]
  have hbits' : bits'.foldl (step P) r = shifts P bits.length (r ^^^ ofLowBits bits') := by
    rw [hlen, shifts_eq_serial P _ r _ ofLowBits_lt, lowBits_ofLowBits (hlen ▸ hw)]
  have hsame : (ofLowBits bits : BitVec w) = ofLowBits bits' :=
    (BitVec.xor_right_inj _).mp (shifts_injective hP _ (by rw [← hbits, ← hbits', h]))
  rw [← lowBits_ofLowBits hw, hsame, hlen, lowBits_ofLowBits (hlen ▸ hw)]

/-! ## The table -/

/-- The registers that a byte alone leads to. -/
def table (P : BitVec w) : List (BitVec w) :=
  (List.range 256).map fun i => shifts P 8 (BitVec.ofNat w i)

/-- A byte, by one look at the table. -/
def tableByte (P r : BitVec w) (byte : UInt8) : BitVec w :=
  (table P).getD ((r ^^^ BitVec.ofNat w byte.toNat) &&& 0xFF#w).toNat 0#w ^^^ (r >>> 8)

theorem getLsbD_mask (i : ℕ) : (0xFF#w).getLsbD i = decide (i < w ∧ i < 8) := by
  have h : (255 : ℕ).testBit i = decide (i < 8) := Nat.testBit_two_pow_sub_one 8 i
  rw [BitVec.getLsbD_ofNat, h]
  simp

/-- Masked and not masked, a number is all there. -/
theorem mask_xor (x : BitVec w) : (x &&& 0xFF#w) ^^^ (x &&& ~~~0xFF#w) = x := by
  apply BitVec.eq_of_getLsbD_eq
  intro i hi
  rw [BitVec.getLsbD_xor, BitVec.getLsbD_and, BitVec.getLsbD_and, BitVec.getLsbD_not]
  cases x.getLsbD i <;> cases (0xFF#w).getLsbD i <;> simp [hi]

/-- Eight places down, the mask does not matter. -/
theorem not_mask_ushiftRight (x : BitVec w) : (x &&& ~~~0xFF#w) >>> 8 = x >>> 8 := by
  apply BitVec.eq_of_getLsbD_eq
  intro i hi
  rw [BitVec.getLsbD_ushiftRight, BitVec.getLsbD_ushiftRight, BitVec.getLsbD_and,
    BitVec.getLsbD_not, getLsbD_mask]
  by_cases h : 8 + i < w
  · simp [h]
  · simp [BitVec.getLsbD_of_ge x (8 + i) (by omega)]

theorem byte_lt (byte : UInt8) : (BitVec.ofNat w byte.toNat).toNat < 2 ^ 8 := by
  rw [BitVec.toNat_ofNat]
  exact lt_of_le_of_lt (Nat.mod_le ..) byte.toNat_lt

theorem table_getD (P x : BitVec w) :
    (table P).getD (x &&& 0xFF#w).toNat 0#w = shifts P 8 (x &&& 0xFF#w) := by
  have hlt : (x &&& 0xFF#w).toNat < 256 := by
    rw [BitVec.toNat_and, BitVec.toNat_ofNat]
    exact lt_of_le_of_lt (Nat.and_le_right.trans (Nat.mod_le ..)) (by decide)
  unfold table
  rw [List.getD_eq_getElem _ _ (by simpa using hlt), List.getElem_map, List.getElem_range,
    BitVec.ofNat_toNat, BitVec.setWidth_eq]

/-- **A byte by the table** is a byte by steps. -/
theorem tableByte_eq_shifts (P r : BitVec w) (byte : UInt8) :
    tableByte P r byte = shifts P 8 (r ^^^ BitVec.ofNat w byte.toNat) := by
  have hgone : BitVec.ofNat w byte.toNat >>> 8 = 0#w := by
    apply BitVec.eq_of_toNat_eq
    rw [BitVec.toNat_ushiftRight, Nat.shiftRight_eq_div_pow, Nat.div_eq_of_lt (byte_lt byte)]
    rfl
  have hhigh : ∀ i < 8, ((r ^^^ BitVec.ofNat w byte.toNat) &&& ~~~0xFF#w).getLsbD i = false := by
    intro i hi
    rw [BitVec.getLsbD_and, BitVec.getLsbD_not, getLsbD_mask]
    by_cases hw : i < w
    · simp [hi, hw]
    · simp [hw]
  unfold tableByte
  -- the steps of the whole number are those of its low byte, and the rest moved down
  conv_rhs => rw [← mask_xor (r ^^^ BitVec.ofNat w byte.toNat)]
  rw [table_getD, shifts_xor_high P 8 _ _ hhigh, not_mask_ushiftRight,
    BitVec.ushiftRight_xor_distrib, hgone, BitVec.xor_zero]

/-! ## Polynomials -/

/-- A bit as a coefficient. -/
def coefficient (b : Bool) : ZMod 2 := if b then 1 else 0

theorem coefficient_xor (a b : Bool) : coefficient (a ^^ b) = coefficient a + coefficient b := by
  cases a <;> cases b <;> decide

theorem coefficient_inj {a b : Bool} (h : coefficient a = coefficient b) : a = b := by
  cases a <;> cases b <;> first | rfl | exact absurd h (by decide)

/-- The polynomial of a register. -/
noncomputable def toPoly (r : BitVec w) : (ZMod 2)[X] :=
  ∑ i ∈ Finset.range w, C (coefficient (r.getLsbD (w - 1 - i))) * X ^ i

/-- What the division is by. -/
noncomputable def modulus (P : BitVec w) : (ZMod 2)[X] := X ^ w + toPoly P

/-- The polynomial of bits as they come: the first has the highest power. -/
noncomputable def ofBits : List Bool → (ZMod 2)[X]
  | [] => 0
  | b :: bits => C (coefficient b) * X ^ bits.length + ofBits bits

theorem coeff_toPoly (r : BitVec w) (k : ℕ) :
    (toPoly r).coeff k = if k < w then coefficient (r.getLsbD (w - 1 - k)) else 0 := by
  unfold toPoly
  simp

theorem degree_toPoly_lt (r : BitVec w) : (toPoly r).degree < w := by
  rw [degree_lt_iff_coeff_zero]
  intro k hk
  rw [coeff_toPoly, if_neg (by omega)]

theorem toPoly_injective : Function.Injective (toPoly (w := w)) := by
  intro r s h
  apply BitVec.eq_of_getLsbD_eq
  intro i hi
  have hcoeff := congrArg (Polynomial.coeff · (w - 1 - i)) h
  rw [coeff_toPoly, coeff_toPoly, if_pos (by omega), if_pos (by omega),
    show w - 1 - (w - 1 - i) = i by omega] at hcoeff
  exact coefficient_inj hcoeff

theorem modulus_monic (P : BitVec w) : (modulus P).Monic := monic_X_pow_add (degree_toPoly_lt P)

theorem degree_modulus (P : BitVec w) : (modulus P).degree = w := by
  have h : (toPoly P).degree < (X ^ w : (ZMod 2)[X]).degree := by
    rw [degree_X_pow]
    exact degree_toPoly_lt P
  unfold modulus
  rw [degree_add_eq_left_of_degree_lt h, degree_X_pow]

theorem toPoly_xor (r s : BitVec w) : toPoly (r ^^^ s) = toPoly r + toPoly s := by
  ext k
  rw [coeff_add, coeff_toPoly, coeff_toPoly, coeff_toPoly, BitVec.getLsbD_xor, coefficient_xor]
  split_ifs
  · rfl
  · exact (add_zero 0).symm

theorem coefficient_feedback (P : BitVec w) (b : Bool) (i : ℕ) :
    coefficient ((feedback P b).getLsbD i) = coefficient b * coefficient (P.getLsbD i) := by
  cases b
  · simp [feedback, coefficient]
  · simp [feedback, coefficient]

theorem coeff_modulus (P : BitVec w) (k : ℕ) :
    (modulus P).coeff k = if k = w then 1 else (toPoly P).coeff k := by
  unfold modulus
  rw [coeff_add, coeff_X_pow, coeff_toPoly]
  split_ifs with hk hlt
  · omega
  · exact add_zero 1
  · exact zero_add _
  · exact zero_add 0

/-- **One step** is a multiplication by `X`, reduced by the modulus. -/
theorem toPoly_shift (P r : BitVec w) :
    toPoly (shift P r) = X * toPoly r + C (coefficient (r.getLsbD 0)) * modulus P := by
  ext k
  rw [coeff_add, coeff_C_mul, coeff_modulus, coeff_toPoly]
  rcases lt_trichotomy k w with hk | rfl | hk
  · -- below the highest power the bits have moved up by one
    rw [if_pos hk, if_neg hk.ne, coeff_toPoly, if_pos hk]
    unfold shift
    rw [BitVec.getLsbD_xor, coefficient_xor, coefficient_feedback, BitVec.getLsbD_ushiftRight]
    cases k with
    | zero =>
        rw [coeff_X_mul_zero, BitVec.getLsbD_of_ge _ _ (by omega)]
        rfl
    | succ k =>
        rw [coeff_X_mul, coeff_toPoly, if_pos (by omega), show 1 + (w - 1 - (k + 1)) = w - 1 - k by omega]
  · -- the highest power goes out twice
    rw [if_neg (lt_irrefl _), if_pos rfl, mul_one]
    cases k with
    | zero => simp [coefficient]
    | succ k =>
        rw [coeff_X_mul, coeff_toPoly, if_pos (Nat.lt_succ_self k), Nat.add_sub_cancel, Nat.sub_self]
        exact (CharTwo.add_self_eq_zero _).symm
  · rw [if_neg (by omega), if_neg (by omega), coeff_toPoly, if_neg (by omega), mul_zero, add_zero]
    cases k with
    | zero => omega
    | succ k => rw [coeff_X_mul, coeff_toPoly, if_neg (by omega)]

/-! ## Messages -/

/-- The bits of a message: byte after byte, in each the lowest first. -/
def bitsOf (message : List UInt8) : List Bool := message.flatMap fun byte => lowBits 8 byte.toBitVec

/-- The register a message leads to, bit by bit. -/
def register (P r : BitVec w) (message : List UInt8) : BitVec w :=
  (bitsOf message).foldl (step P) r

/-- What the register is the remainder of: the message moved up by the width, and
in front of it what was in the register. -/
noncomputable def dividend (r : BitVec w) (message : List UInt8) : (ZMod 2)[X] :=
  X ^ (bitsOf message).length * toPoly r + X ^ w * ofBits (bitsOf message)

theorem toPoly_ofBool (hw : 0 < w) (b : Bool) :
    toPoly (BitVec.setWidth w (.ofBool b)) = C (coefficient b) * X ^ (w - 1) := by
  ext k
  rw [coeff_toPoly, coeff_C_mul, coeff_X_pow, BitVec.getLsbD_setWidth, BitVec.getLsbD_ofBool]
  by_cases hk : k = w - 1
  · subst hk
    cases b <;> simp [coefficient, hw]
  · have hne : w - 1 - k ≠ 0 ∨ ¬ k < w := by omega
    rcases hne with hne | hlt
    · simp [hk, hne, coefficient]
    · simp [hk, hlt]

/-- A step that takes a bit in, up to a multiple of the modulus. -/
theorem toPoly_step (hw : 0 < w) (P r : BitVec w) (b : Bool) :
    ∃ q, toPoly (step P r b) = X * toPoly r + C (coefficient b) * X ^ w + q * modulus P := by
  refine ⟨C (coefficient ((r ^^^ BitVec.setWidth w (.ofBool b)).getLsbD 0)), ?_⟩
  have hpow : (X : (ZMod 2)[X]) * X ^ (w - 1) = X ^ w := by
    rw [← pow_succ', Nat.sub_add_cancel hw]
  unfold step
  rw [toPoly_shift, toPoly_xor, toPoly_ofBool hw, mul_add, mul_left_comm, hpow]

/-- The steps of several bits, up to a multiple of the modulus. -/
theorem toPoly_serial (hw : 0 < w) (P : BitVec w) (bits : List Bool) : ∀ r : BitVec w,
    ∃ q, toPoly (bits.foldl (step P) r) =
      X ^ bits.length * toPoly r + X ^ w * ofBits bits + q * modulus P := by
  induction bits with
  | nil =>
      intro r
      exact ⟨0, by simp [ofBits]⟩
  | cons b bits ih =>
      intro r
      obtain ⟨q, hq⟩ := toPoly_step hw P r b
      obtain ⟨q', hq'⟩ := ih (step P r b)
      refine ⟨X ^ bits.length * q + q', ?_⟩
      rw [List.foldl_cons, hq', hq, ofBits, List.length_cons]
      ring

/-- **The register is a remainder.** -/
theorem register_modByMonic (hw : 0 < w) (P r : BitVec w) (message : List UInt8) :
    toPoly (register P r message) = dividend r message %ₘ modulus P := by
  obtain ⟨q, hq⟩ := toPoly_serial hw P (bitsOf message) r
  have hdegree : (toPoly (register P r message)).degree < (modulus P).degree := by
    rw [degree_modulus]
    exact degree_toPoly_lt _
  rw [← (modByMonic_eq_self_iff (modulus_monic P)).mpr hdegree]
  unfold register dividend
  rw [hq, add_modByMonic, mul_self_modByMonic (modulus_monic P), add_zero]

/-- Step by step and byte by byte it is one register. -/
theorem register_eq_bytes (hw : 8 ≤ w) (P : BitVec w) (message : List UInt8) : ∀ r : BitVec w,
    register P r message =
      message.foldl (fun r byte => shifts P 8 (r ^^^ BitVec.ofNat w byte.toNat)) r := by
  induction message with
  | nil => intro r; rfl
  | cons byte message ih =>
      intro r
      have hbits : lowBits 8 byte.toBitVec = lowBits 8 (BitVec.ofNat w byte.toNat) := by
        unfold lowBits
        refine List.map_congr_left fun i hi => ?_
        have hi : i < 8 := List.mem_range.mp hi
        rw [BitVec.getLsbD_ofNat, decide_eq_true (show i < w by omega), Bool.true_and]
        rfl
      rw [List.foldl_cons, shifts_eq_serial P 8 r _ (byte_lt byte), ← ih, ← hbits]
      unfold register bitsOf
      rw [List.flatMap_cons, List.foldl_append]

/-- The table does not change the register. -/
theorem table_eq_register (hw : 8 ≤ w) (P r : BitVec w) (message : List UInt8) :
    message.foldl (tableByte P) r = register P r message := by
  rw [register_eq_bytes hw]
  congr 1
  funext r byte
  exact tableByte_eq_shifts P r byte

/-- From its bits a message is known. -/
theorem bitsOf_injective : Function.Injective bitsOf := by
  intro message
  induction message with
  | nil =>
      intro other h
      cases other with
      | nil => rfl
      | cons byte other => simp [bitsOf, lowBits] at h
  | cons byte message ih =>
      intro other h
      cases other with
      | nil => simp [bitsOf, lowBits] at h
      | cons byte' other =>
          obtain ⟨hbyte, hrest⟩ := List.append_inj h (by simp [lowBits])
          have hbits : byte.toBitVec = byte'.toBitVec := by
            apply BitVec.eq_of_getLsbD_eq
            intro i hi
            exact List.map_inj_left.mp hbyte i (List.mem_range.mpr hi)
          rw [UInt8.toBitVec_inj.mp hbits, ih hrest]

theorem length_bitsOf (message : List UInt8) : (bitsOf message).length = 8 * message.length := by
  induction message with
  | nil => rfl
  | cons byte message ih =>
      rw [bitsOf, List.flatMap_cons, List.length_append, List.length_cons]
      have hbyte : (lowBits 8 byte.toBitVec).length = 8 := by simp [lowBits]
      rw [hbyte, show (List.flatMap (fun byte => lowBits 8 byte.toBitVec) message).length
        = 8 * message.length from ih]
      omega

theorem register_append (P r : BitVec w) (m m' : List UInt8) :
    register P r (m ++ m') = register P (register P r m) m' := by
  unfold register bitsOf
  rw [List.flatMap_append, List.foldl_append]

/-- **Messages that differ in a window** no wider than the register, and nowhere
else, lead to different registers. -/
theorem register_window {P : BitVec w} (hP : P.msb = true) (r : BitVec w)
    {pre mid mid' post : List UInt8} (hlen : mid.length = mid'.length) (hw : 8 * mid.length ≤ w)
    (h : register P r (pre ++ mid ++ post) = register P r (pre ++ mid' ++ post)) : mid = mid' := by
  rw [register_append, register_append, register_append P r (pre ++ mid'), register_append] at h
  have hmid := serial_injective hP (bitsOf post) h
  refine bitsOf_injective (window_injective hP (register P r pre) ?_ ?_ hmid)
  · rw [length_bitsOf, length_bitsOf, hlen]
  · rw [length_bitsOf]
    exact hw

/-- The register of a polynomial. -/
noncomputable def ofPoly (p : (ZMod 2)[X]) : BitVec w := Function.invFun toPoly p

theorem ofPoly_toPoly (r : BitVec w) : ofPoly (toPoly r) = r :=
  Function.leftInverse_invFun toPoly_injective r

/-! ## CRC-32 -/

/-- The polynomial of CRC-32, reflected. -/
def CRC32 : BitVec 32 := 0xEDB88320#32

/-- CRC-32 by the table. -/
def crc32 (message : List UInt8) : ℕ :=
  (message.foldl (tableByte CRC32) 0xFFFFFFFF#32 ^^^ 0xFFFFFFFF#32).toNat

/-- CRC-32 by division. -/
noncomputable def crc32ByDivision (message : List UInt8) : ℕ :=
  (ofPoly (dividend 0xFFFFFFFF#32 message %ₘ modulus CRC32) ^^^ 0xFFFFFFFF#32).toNat

/-- **Two forms of CRC-32.** -/
theorem crc32_eq_byDivision (message : List UInt8) : crc32 message = crc32ByDivision message := by
  unfold crc32 crc32ByDivision
  rw [table_eq_register (by decide), ← register_modByMonic (by decide), ofPoly_toPoly]

/-- CRC-32 tells messages apart that differ in a window of four bytes only. -/
theorem crc32_window {pre mid mid' post : List UInt8} (hlen : mid.length = mid'.length)
    (hfour : mid.length ≤ 4) (h : crc32 (pre ++ mid ++ post) = crc32 (pre ++ mid' ++ post)) :
    mid = mid' := by
  unfold crc32 at h
  rw [table_eq_register (by decide), table_eq_register (by decide)] at h
  have hregister := (BitVec.xor_left_inj _).mp (BitVec.toNat_inj.mp h)
  exact register_window (by decide) _ hlen (by omega) hregister

/-- The check value of CRC-32: its value of `123456789`. -/
example : crc32 [49, 50, 51, 52, 53, 54, 55, 56, 57] = 0xCBF43926 := by decide +kernel

end Crc
