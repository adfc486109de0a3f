/-
`crc16` of `dfu_regression` in `src/ptlab/scenarios.py`.

The function takes a byte in by five assignments that shift the whole register; the
definition of the check takes it in by eight steps of a division. Both are linear,
so it is enough that they agree on sixteen registers of one bit (`turn_eq_shifts`).
-/
import Ptlab.Lib.CrcForward

set_option autoImplicit false

namespace Ptlab.Scenario

open Crc

/-! ## The function -/

/-- The assignments to `crc` in one turn of the loop, in order. -/
def assignments (byte : UInt8) : List (ℕ → ℕ) :=
  [fun crc => ((crc >>> 8) &&& 0xFF) ||| ((crc <<< 8) &&& 0xFFFF),
    fun crc => crc ^^^ byte.toNat,
    fun crc => crc ^^^ ((crc &&& 0xFF) >>> 4),
    fun crc => crc ^^^ ((crc <<< 12) &&& 0xFFFF),
    fun crc => crc ^^^ (((crc &&& 0xFF) <<< 5) &&& 0xFFFF),
    fun crc => crc &&& 0xFFFF]

/-- Assignments, one after the other. -/
def assign (run : List (ℕ → ℕ)) (crc : ℕ) : ℕ := run.foldl (fun crc f => f crc) crc

/-- `crc16`. -/
def crc16 (data : List UInt8) : ℕ := data.foldl (fun crc byte => assign (assignments byte) crc) 0xFFFF

/-- `>H`, the big-endian form of a number of two bytes. -/
def bigEndian16 (crc : ℕ) : List UInt8 := [UInt8.ofNat (crc >>> 8), UInt8.ofNat (crc &&& 0xFF)]

/-- The polynomial of CRC-16/CCITT. -/
def CRC16 : BitVec 16 := 0x1021#16

/-! ## Sixteen bits -/

theorem and_mask (x : ℕ) : x &&& 0xFFFF = x % 2 ^ 16 := Nat.and_two_pow_sub_one_eq_mod x 16

/-- No assignment leaves the sixteen bits. -/
theorem assignments_lt (byte : UInt8) {f : ℕ → ℕ} (hf : f ∈ assignments byte) {crc : ℕ}
    (hcrc : crc < 2 ^ 16) : f crc < 2 ^ 16 := by
  have hmask : ∀ x : ℕ, x &&& 0xFFFF < 2 ^ 16 := fun x => by
    rw [and_mask]
    exact Nat.mod_lt _ (by decide)
  have hbyte : byte.toNat < 2 ^ 16 := lt_trans byte.toNat_lt (by decide)
  have hlow : ∀ x : ℕ, x &&& 0xFF < 2 ^ 16 := fun x => lt_of_le_of_lt Nat.and_le_right (by decide)
  have hdown : ∀ x n : ℕ, x < 2 ^ 16 → x >>> n < 2 ^ 16 := fun x n hx =>
    lt_of_le_of_lt (Nat.shiftRight_le x n) hx
  unfold assignments at hf
  simp only [List.mem_cons, List.not_mem_nil, or_false] at hf
  -- one case for each assignment; the second to the fourth rely on what came before
  rcases hf with rfl | rfl | rfl | rfl | rfl | rfl
  · exact Nat.or_lt_two_pow (hlow _) (hmask _)
  · exact Nat.xor_lt_two_pow hcrc hbyte
  · exact Nat.xor_lt_two_pow hcrc (hdown _ 4 (hlow _))
  · exact Nat.xor_lt_two_pow hcrc (hmask _)
  · exact Nat.xor_lt_two_pow hcrc (hmask _)
  · exact hmask _

theorem assign_lt (data : List UInt8) (run : List (ℕ → ℕ))
    (hrun : ∀ f ∈ run, ∃ byte ∈ data, f ∈ assignments byte) :
    ∀ crc < 2 ^ 16, assign run crc < 2 ^ 16 := by
  induction run with
  | nil => exact fun crc hcrc => hcrc
  | cons f run ih =>
      intro crc hcrc
      obtain ⟨byte, -, hf⟩ := hrun f List.mem_cons_self
      exact ih (fun g hg => hrun g (List.mem_cons_of_mem f hg)) _ (assignments_lt byte hf hcrc)

/-! ## One turn -/

/-- The first assignment. -/
def swapped (r : BitVec 16) : BitVec 16 := ((r >>> 8) &&& 0xFF#16) ||| (r <<< 8)

/-- The third to the fifth. -/
def mixed (r : BitVec 16) : BitVec 16 :=
  let r := r ^^^ ((r &&& 0xFF#16) >>> 4)
  let r := r ^^^ (r <<< 12)
  r ^^^ ((r &&& 0xFF#16) <<< 5)

/-- A turn is these two and the byte in between. -/
theorem assign_turn (r : BitVec 16) (byte : UInt8) :
    assign (assignments byte) r.toNat =
      (mixed (swapped r ^^^ BitVec.ofNat 16 byte.toNat)).toNat := by
  have hbyte : byte.toNat % 2 ^ 16 = byte.toNat :=
    Nat.mod_eq_of_lt (lt_trans byte.toNat_lt (by decide))
  have hlow : 255 % 2 ^ 16 = 255 := by decide
  have hlast : (mixed (swapped r ^^^ BitVec.ofNat 16 byte.toNat)).toNat &&& 0xFFFF =
      (mixed (swapped r ^^^ BitVec.ofNat 16 byte.toNat)).toNat := by
    rw [and_mask]
    exact Nat.mod_eq_of_lt (BitVec.isLt _)
  rw [← hlast]
  unfold mixed swapped assign assignments
  simp only [List.foldl_cons, List.foldl_nil, BitVec.toNat_xor, BitVec.toNat_or, BitVec.toNat_and,
    BitVec.toNat_ushiftRight, BitVec.toNat_shiftLeft, BitVec.toNat_ofNat, hbyte, hlow, and_mask]

/-- The shifts of `swapped` do not meet. -/
theorem swapped_eq_xor (r : BitVec 16) : swapped r = (r >>> 8) ^^^ (r <<< 8) := by
  apply BitVec.eq_of_getLsbD_eq
  intro i hi
  unfold swapped
  rw [BitVec.getLsbD_or, BitVec.getLsbD_and, BitVec.getLsbD_xor, BitVec.getLsbD_shiftLeft,
    BitVec.getLsbD_ushiftRight, getLsbD_mask]
  by_cases h : i < 8
  · simp [h, hi]
  · -- above the lower eight bits only the left shift has any
    simp [h, hi, BitVec.getLsbD_of_ge r (8 + i) (by omega)]

theorem swapped_linear : Linear swapped := by
  intro r s
  rw [swapped_eq_xor, swapped_eq_xor, swapped_eq_xor, BitVec.ushiftRight_xor_distrib,
    BitVec.shiftLeft_xor_distrib]
  ac_rfl

theorem mixed_linear : Linear mixed := by
  have hthird : Linear fun r : BitVec 16 => r ^^^ ((r &&& 0xFF#16) >>> 4) :=
    Linear.laid ((ushiftRight_linear 4).comp (and_linear 0xFF#16))
  have hfourth : Linear fun r : BitVec 16 => r ^^^ (r <<< 12) := Linear.laid (shiftLeft_linear 12)
  have hfifth : Linear fun r : BitVec 16 => r ^^^ ((r &&& 0xFF#16) <<< 5) :=
    Linear.laid ((shiftLeft_linear 5).comp (and_linear 0xFF#16))
  exact hfifth.comp (hfourth.comp hthird)

/-- **One turn** is eight steps of the division. The byte stands where `swapped`
takes the upper half to. -/
theorem turn_eq_shifts (r : BitVec 16) (byte : UInt8) :
    mixed (swapped r ^^^ BitVec.ofNat 16 byte.toNat) =
      Forward.shifts CRC16 8 (r ^^^ (BitVec.ofNat 16 byte.toNat <<< 8)) := by
  -- both sides are linear, so that the sixteen single bits decide it
  have hbits : ∀ i < 16, mixed (swapped (BitVec.twoPow 16 i)) =
      Forward.shifts CRC16 8 (BitVec.twoPow 16 i) := by decide +kernel
  have hturn := (mixed_linear.comp swapped_linear).ext (Forward.shifts_linear CRC16 8) hbits
  have hbyte : swapped (BitVec.ofNat 16 byte.toNat <<< 8) = BitVec.ofNat 16 byte.toNat := by
    have hsmall : ∀ i, 8 ≤ i → (BitVec.ofNat 16 byte.toNat).getLsbD i = false := by
      intro i hi
      rw [BitVec.getLsbD_ofNat, Nat.testBit_lt_two_pow, Bool.and_false]
      exact lt_of_lt_of_le byte.toNat_lt (Nat.pow_le_pow_right (by decide) hi)
    rw [swapped_eq_xor]
    apply BitVec.eq_of_getLsbD_eq
    intro i hi
    rw [BitVec.getLsbD_xor, BitVec.getLsbD_ushiftRight, BitVec.getLsbD_shiftLeft,
      BitVec.getLsbD_shiftLeft, BitVec.getLsbD_shiftLeft]
    by_cases h : i < 8
    · simp [h, show 8 + i < 16 by omega]
    · have hlow : i - 8 < 8 := by omega
      simp [h, show ¬ 8 + i < 16 by omega, hlow, hsmall i (by omega)]
  rw [← hturn, Function.comp_apply, swapped_linear, hbyte]

/-- **One turn** takes the eight bits of a byte in. -/
theorem assign_eq_serial (r : BitVec 16) (byte : UInt8) :
    assign (assignments byte) r.toNat =
      ((Forward.highBits 8 byte.toBitVec).foldl (Forward.step CRC16) r).toNat := by
  rw [assign_turn, turn_eq_shifts, ← Forward.shifts_byte (by decide)]

theorem crc16_eq_register (data : List UInt8) : ∀ r : BitVec 16,
    data.foldl (fun crc byte => assign (assignments byte) crc) r.toNat =
      (Forward.register CRC16 r data).toNat := by
  induction data with
  | nil => intro r; rfl
  | cons byte data ih =>
      intro r
      rw [List.foldl_cons, assign_eq_serial, ih]
      rfl

/-- The check in two bytes has the bits of the register. -/
theorem bitsOf_bigEndian16 (r : BitVec 16) :
    Forward.bitsOf (bigEndian16 r.toNat) = Forward.highBits 16 r := by
  -- bit by bit, from the most significant one on
  have hhigh : ∀ i < 8, (UInt8.ofNat (r.toNat >>> 8)).toBitVec.getMsbD i = r.getMsbD i := by
    intro i hi
    show (BitVec.ofNat 8 (r.toNat >>> 8)).getMsbD i = r.getMsbD i
    rw [BitVec.getMsbD_eq_getLsbD, BitVec.getMsbD_eq_getLsbD, BitVec.getLsbD_ofNat,
      Nat.testBit_shiftRight, show 16 - 1 - i = 8 + (8 - 1 - i) by omega]
    simp [hi, show i < 16 by omega, show 8 - 1 - i < 8 by omega, BitVec.testBit_toNat]
  have hlow : ∀ i < 8, (UInt8.ofNat (r.toNat &&& 0xFF)).toBitVec.getMsbD i = r.getMsbD (8 + i) := by
    intro i hi
    show (BitVec.ofNat 8 (r.toNat &&& 0xFF)).getMsbD i = r.getMsbD (8 + i)
    rw [BitVec.getMsbD_eq_getLsbD, BitVec.getMsbD_eq_getLsbD, BitVec.getLsbD_ofNat,
      Nat.testBit_and, show (0xFF : ℕ) = 2 ^ 8 - 1 by rfl, Nat.testBit_two_pow_sub_one,
      show 16 - 1 - (8 + i) = 8 - 1 - i by omega]
    simp [hi, show 8 + i < 16 by omega, show 8 - 1 - i < 8 by omega, BitVec.testBit_toNat]
  have hrange : List.range 16 = List.range 8 ++ (List.range 8).map (8 + ·) := by decide
  unfold Forward.bitsOf bigEndian16 Forward.highBits
  rw [List.flatMap_cons, List.flatMap_cons, List.flatMap_nil, List.append_nil,
    hrange, List.map_append, List.map_map]
  congr 1
  · refine List.map_congr_left fun i hi => ?_
    exact hhigh i (List.mem_range.mp hi)
  · refine List.map_congr_left fun i hi => ?_
    exact hlow i (List.mem_range.mp hi)

/-! ## The check -/

/-- **The byte-wise check** is the bit-wise one, no assignment of the loop leaves the
sixteen bits, and data that ends in its own check has the check 0. -/
theorem crc16_bitwise (data : List UInt8) :
    crc16 data = (Forward.register CRC16 0xFFFF#16 data).toNat ∧
      (∀ run, run <+: data.flatMap assignments → assign run 0xFFFF < 2 ^ 16) ∧
      crc16 (data ++ bigEndian16 (crc16 data)) = 0 := by
  have hcheck : ∀ data, crc16 data = (Forward.register CRC16 0xFFFF#16 data).toNat :=
    fun data => crc16_eq_register data 0xFFFF#16
  refine ⟨hcheck data, ?_, ?_⟩
  · intro run hrun
    refine assign_lt data run (fun f hf => ?_) _ (by decide)
    exact List.mem_flatMap.mp (hrun.subset hf)
  · -- a register that takes in its own bits comes to zero
    rw [hcheck, hcheck data, Forward.register_own _ _ (bitsOf_bigEndian16 _)]
    rfl

/-- The check value of this CRC-16: its value of `123456789`. -/
example : crc16 [49, 50, 51, 52, 53, 54, 55, 56, 57] = 0x29B1 := by decide +kernel

end Ptlab.Scenario
