/-
Cyclic redundancy checks that are not reflected.

The register moves up, the highest bit goes out first, and of a byte the highest
bit is taken in first. Read from the other end this is the reflected register
(`reverse_step`), and what is known of that one is carried over.
-/
import Ptlab.Lib.Crc

set_option autoImplicit false

namespace Crc.Forward

variable {w : ℕ}

/-! ## The register -/

/-- One step that takes a bit in. -/
def step (P r : BitVec w) (b : Bool) : BitVec w := (r <<< 1) ^^^ feedback P (r.msb ^^ b)

/-- One step. -/
def shift (P r : BitVec w) : BitVec w := step P r false

/-- So many steps. -/
def shifts (P : BitVec w) : ℕ → BitVec w → BitVec w
  | 0, r => r
  | n + 1, r => shifts P n (shift P r)

/-- The highest `n` bits, the highest first. -/
def highBits (n : ℕ) (y : BitVec w) : List Bool := (List.range n).map y.getMsbD

/-- The bits of a message: byte after byte, in each the highest first. -/
def bitsOf (message : List UInt8) : List Bool := message.flatMap fun byte => highBits 8 byte.toBitVec

/-- The register a message leads to, bit by bit. -/
def register (P r : BitVec w) (message : List UInt8) : BitVec w :=
  (bitsOf message).foldl (step P) r

/-! ## From the other end -/

theorem reverse_xor (r s : BitVec w) : (r ^^^ s).reverse = r.reverse ^^^ s.reverse := by
  apply BitVec.eq_of_getLsbD_eq
  intro i hi
  rw [BitVec.getLsbD_reverse, BitVec.getLsbD_xor, BitVec.getLsbD_reverse, BitVec.getLsbD_reverse,
    BitVec.getMsbD_xor]

theorem reverse_shiftLeft (r : BitVec w) (n : ℕ) : (r <<< n).reverse = r.reverse >>> n := by
  apply BitVec.eq_of_getLsbD_eq
  intro i hi
  rw [BitVec.getLsbD_reverse, BitVec.getLsbD_ushiftRight, BitVec.getLsbD_reverse,
    BitVec.getMsbD_shiftLeft, Nat.add_comm]

theorem reverse_feedback (P : BitVec w) (b : Bool) :
    (feedback P b).reverse = feedback P.reverse b := by
  cases b
  · exact BitVec.reverse_eq_zero_iff.mpr rfl
  · rfl

theorem getLsbD_reverse_zero (r : BitVec w) : r.reverse.getLsbD 0 = r.msb := by
  rw [BitVec.getLsbD_reverse, BitVec.msb_eq_getMsbD_zero]

/-- **One step** of either register is one of the other. -/
theorem reverse_step (P r : BitVec w) (b : Bool) :
    (step P r b).reverse = Crc.step P.reverse r.reverse b := by
  by_cases hw : 0 < w
  · have hbit : (r.reverse ^^^ BitVec.setWidth w (.ofBool b)).getLsbD 0 = (r.msb ^^ b) := by
      rw [BitVec.getLsbD_xor, getLsbD_reverse_zero, BitVec.getLsbD_setWidth, BitVec.getLsbD_ofBool]
      simp [hw]
    unfold step Crc.step Crc.shift
    rw [hbit, reverse_xor, reverse_shiftLeft, reverse_feedback, BitVec.ushiftRight_xor_distrib,
      ofBool_ushiftRight, BitVec.xor_zero]
  · obtain rfl : w = 0 := by omega
    exact Subsingleton.elim _ _

theorem reverse_shifts (P : BitVec w) (n : ℕ) : ∀ r : BitVec w,
    (shifts P n r).reverse = Crc.shifts P.reverse n r.reverse := by
  induction n with
  | zero => intro r; rfl
  | succ n ih =>
      intro r
      rw [shifts, ih, shift, reverse_step, Crc.step_false, Crc.shifts]

theorem reverse_serial (P : BitVec w) (bits : List Bool) : ∀ r : BitVec w,
    (bits.foldl (step P) r).reverse = bits.foldl (Crc.step P.reverse) r.reverse := by
  induction bits with
  | nil => intro r; rfl
  | cons b bits ih =>
      intro r
      rw [List.foldl_cons, ih, reverse_step, List.foldl_cons]

theorem lowBits_reverse (n : ℕ) (y : BitVec w) : lowBits n y.reverse = highBits n y := by
  unfold lowBits highBits
  refine List.map_congr_left fun i _ => ?_
  exact BitVec.getLsbD_reverse

theorem reverse_injective : Function.Injective (BitVec.reverse (w := w)) := by
  intro r s h
  rw [← BitVec.reverse_reverse_eq (x := r), h, BitVec.reverse_reverse_eq]

/-! ## Steps -/

theorem shifts_linear (P : BitVec w) (n : ℕ) : Linear (shifts P n) := by
  intro r s
  apply reverse_injective
  rw [reverse_xor, reverse_shifts, reverse_shifts, reverse_shifts, reverse_xor]
  exact Crc.shifts_linear P.reverse n _ _

/-- **Bits at the top** of the register are taken in by as many steps. -/
theorem shifts_eq_serial (P : BitVec w) (n : ℕ) (r y : BitVec w)
    (hy : y.reverse.toNat < 2 ^ n) :
    shifts P n (r ^^^ y) = (highBits n y).foldl (step P) r := by
  apply reverse_injective
  rw [reverse_shifts, reverse_xor, reverse_serial, ← lowBits_reverse]
  exact Crc.shifts_eq_serial P.reverse n _ _ hy

/-- **Its own bits** bring any register to zero. -/
theorem serial_self (P r : BitVec w) : (highBits w r).foldl (step P) r = 0#w := by
  rw [← shifts_eq_serial P w r r (BitVec.isLt _), BitVec.xor_self]
  exact (shifts_linear P w).zero

/-- A byte stands at the top of the register. -/
theorem getMsbD_byte (hw : 8 ≤ w) (byte : UInt8) (i : ℕ) :
    (BitVec.ofNat w byte.toNat <<< (w - 8)).getMsbD i = (decide (i < 8) && byte.toBitVec.getMsbD i) := by
  rw [BitVec.getMsbD_shiftLeft, BitVec.getMsbD_eq_getLsbD, BitVec.getMsbD_eq_getLsbD,
    BitVec.getLsbD_ofNat]
  by_cases hi : i < 8
  · rw [show w - 1 - (i + (w - 8)) = 8 - 1 - i by omega]
    rw [decide_eq_true (show i + (w - 8) < w by omega), decide_eq_true (show 8 - 1 - i < w by omega),
      decide_eq_true hi, Bool.true_and, Bool.true_and, Bool.true_and, Bool.true_and]
    rfl
  · simp [hi, show ¬ i + (w - 8) < w by omega]

/-- **A byte** is taken in by eight steps. -/
theorem shifts_byte (hw : 8 ≤ w) (P r : BitVec w) (byte : UInt8) :
    shifts P 8 (r ^^^ (BitVec.ofNat w byte.toNat <<< (w - 8))) =
      (highBits 8 byte.toBitVec).foldl (step P) r := by
  have htop : (BitVec.ofNat w byte.toNat <<< (w - 8)).reverse.toNat < 2 ^ 8 := by
    apply Nat.lt_pow_two_of_testBit
    intro i hi
    show (BitVec.ofNat w byte.toNat <<< (w - 8)).reverse.getLsbD i = false
    rw [BitVec.getLsbD_reverse, getMsbD_byte hw, decide_eq_false (by omega), Bool.false_and]
  have hbits : highBits 8 (BitVec.ofNat w byte.toNat <<< (w - 8)) = highBits 8 byte.toBitVec := by
    unfold highBits
    refine List.map_congr_left fun i hi => ?_
    rw [getMsbD_byte hw, decide_eq_true (List.mem_range.mp hi), Bool.true_and]
  rw [shifts_eq_serial P 8 r _ htop, hbits]

/-! ## Messages -/

theorem register_append (P r : BitVec w) (m m' : List UInt8) :
    register P r (m ++ m') = register P (register P r m) m' := by
  unfold register bitsOf
  rw [List.flatMap_append, List.foldl_append]

/-- A message that ends in its own check leads to zero. -/
theorem register_own (P r : BitVec w) {message check : List UInt8}
    (hcheck : bitsOf check = highBits w (register P r message)) :
    register P r (message ++ check) = 0#w := by
  rw [register_append]
  unfold register at hcheck ⊢
  rw [hcheck, serial_self]

end Crc.Forward
