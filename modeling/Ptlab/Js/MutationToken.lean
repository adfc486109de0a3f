/-
The token of a mutation: `mutationToken` of `bridge-test.mjs` and
`family_mutation_token` of `src/ptlab/wire.py`.

The JavaScript operators give signed 32-bit numbers, but for `>>>`, which gives an
unsigned one, so the register of the loop is negative every other time. What is
kept from one bit to the next is its value modulo `2 ^ 32` (`ofInt_crcBit`), and
that is the register of CRC-32. A payload that is edited within four bytes gets
another token (`family_mutation_token_window`).
-/
import Ptlab.Lib.Crc

set_option autoImplicit false

namespace Ptlab.Js

/-! ## JavaScript's operators -/

/-- `ToInt32`, as bits. -/
def ToInt32 (x : ℤ) : BitVec 32 := BitVec.ofInt 32 x

/-- `x ^ y`. -/
def bitXor (x y : ℤ) : ℤ := (ToInt32 x ^^^ ToInt32 y).toInt

/-- `x & y`. -/
def bitAnd (x y : ℤ) : ℤ := (ToInt32 x &&& ToInt32 y).toInt

/-- `~x`. -/
def bitNot (x : ℤ) : ℤ := (~~~ ToInt32 x).toInt

/-- `x >>> n`. -/
def unsignedShift (x : ℤ) (n : ℕ) : ℤ := (ToInt32 x >>> (n % 32)).toNat

/-! ## The two functions -/

/-- One turn of the inner loop. -/
def crcBit (crc : ℤ) : ℤ := bitXor (unsignedShift crc 1) (bitAnd 0xedb88320 (-(bitAnd crc 1)))

/-- The inner loop. -/
def crcBits : ℕ → ℤ → ℤ
  | 0, crc => crc
  | bit + 1, crc => crcBits bit (crcBit crc)

/-- One turn of the outer loop. -/
def crcByte (crc : ℤ) (byte : UInt8) : ℤ := crcBits 8 (bitXor crc byte.toNat)

/-- `mutationToken` of `bridge-test.mjs`. -/
def mutationToken (payload : List UInt8) : ℤ :=
  let crc := payload.foldl crcByte 0xffffffff
  let token := unsignedShift (bitNot crc) 0
  if token = 0 then 1 else token

/-- `family_mutation_token` of `wire.py`. Its `zlib.crc32` is `Crc.crc32`. -/
def family_mutation_token (payload : List UInt8) : ℕ :=
  let token := Crc.crc32 payload &&& 0xFFFFFFFF
  if token ≠ 0 then token else 1

/-! ## The register of the loop -/

theorem ofInt_toInt (x : BitVec 32) : ToInt32 x.toInt = x := BitVec.ofInt_toInt

theorem ofInt_toNat (x : BitVec 32) : ToInt32 x.toNat = x := by
  unfold ToInt32
  rw [BitVec.ofInt_natCast, BitVec.ofNat_toNat, BitVec.setWidth_eq]

/-- The mask is all bits or none. -/
theorem ofInt_mask (crc : ℤ) : ToInt32 (-(bitAnd crc 1)) =
    if (ToInt32 crc).getLsbD 0 then BitVec.allOnes 32 else 0#32 := by
  have hand : ToInt32 crc &&& ToInt32 1 =
      BitVec.setWidth 32 (BitVec.ofBool ((ToInt32 crc).getLsbD 0)) :=
    BitVec.and_one_eq_setWidth_ofBool_getLsbD
  unfold bitAnd
  rw [hand]
  cases (ToInt32 crc).getLsbD 0 <;> decide

/-- **One bit.** Signed or not, the register makes a step. -/
theorem ofInt_crcBit (crc : ℤ) : ToInt32 (crcBit crc) = Crc.shift Crc.CRC32 (ToInt32 crc) := by
  have hpolynomial : ToInt32 0xedb88320 = Crc.CRC32 := by decide
  have hfeedback : ToInt32 (bitAnd 0xedb88320 (-(bitAnd crc 1))) =
      Crc.feedback Crc.CRC32 ((ToInt32 crc).getLsbD 0) := by
    rw [bitAnd, ofInt_toInt, ofInt_mask, hpolynomial, Crc.feedback]
    split_ifs
    · exact BitVec.and_allOnes
    · exact BitVec.and_zero
  unfold crcBit bitXor
  rw [ofInt_toInt, hfeedback, unsignedShift, ofInt_toNat]
  rfl

theorem ofInt_crcBits (n : ℕ) : ∀ crc : ℤ,
    ToInt32 (crcBits n crc) = Crc.shifts Crc.CRC32 n (ToInt32 crc) := by
  induction n with
  | zero => intro crc; rfl
  | succ n ih =>
      intro crc
      rw [crcBits, ih, ofInt_crcBit, Crc.shifts]

/-- **One byte**, which is the table's byte. -/
theorem ofInt_crcByte (crc : ℤ) (byte : UInt8) :
    ToInt32 (crcByte crc byte) = Crc.tableByte Crc.CRC32 (ToInt32 crc) byte := by
  have hbyte : ToInt32 byte.toNat = BitVec.ofNat 32 byte.toNat := BitVec.ofInt_natCast ..
  rw [crcByte, ofInt_crcBits, bitXor, ofInt_toInt, hbyte, Crc.tableByte_eq_shifts]

theorem ofInt_foldl (payload : List UInt8) : ∀ crc : ℤ,
    ToInt32 (payload.foldl crcByte crc) =
      payload.foldl (Crc.tableByte Crc.CRC32) (ToInt32 crc) := by
  induction payload with
  | nil => intro crc; rfl
  | cons byte payload ih =>
      intro crc
      rw [List.foldl_cons, List.foldl_cons, ih, ofInt_crcByte]

/-! ## Agreement -/

theorem crc32_lt (payload : List UInt8) : Crc.crc32 payload < 2 ^ 32 := BitVec.isLt _

/-- The complement of the loop's register is the check. -/
theorem unsigned_register (payload : List UInt8) :
    unsignedShift (bitNot (payload.foldl crcByte 0xffffffff)) 0 = Crc.crc32 payload := by
  have hstart : ToInt32 0xffffffff = 0xFFFFFFFF#32 := by decide
  have hones : BitVec.allOnes 32 = 0xFFFFFFFF#32 := by decide
  have hregister := ofInt_foldl payload 0xffffffff
  unfold unsignedShift bitNot Crc.crc32
  rw [ofInt_toInt, hregister, hstart, Nat.zero_mod, BitVec.ushiftRight_zero, ← hones,
    BitVec.xor_allOnes]

/-- The mask of `family_mutation_token` changes nothing. -/
theorem family_mutation_token_eq (payload : List UInt8) :
    family_mutation_token payload =
      if Crc.crc32 payload ≠ 0 then Crc.crc32 payload else 1 := by
  have hmask : Crc.crc32 payload &&& 0xFFFFFFFF = Crc.crc32 payload := by
    rw [show (0xFFFFFFFF : ℕ) = 2 ^ 32 - 1 by norm_num, Nat.and_two_pow_sub_one_eq_mod]
    exact Nat.mod_eq_of_lt (crc32_lt payload)
  unfold family_mutation_token
  dsimp only
  rw [hmask]

/-- **One token.** Both functions compute the same number for any payload: its
CRC-32, which is the table's and the remainder's, or 1 if that is 0. -/
theorem mutation_tokens_agree (payload : List UInt8) :
    mutationToken payload = family_mutation_token payload ∧
      Crc.crc32 payload = Crc.crc32ByDivision payload ∧
      1 ≤ family_mutation_token payload ∧ family_mutation_token payload ≤ 2 ^ 32 - 1 := by
  have hlt := crc32_lt payload
  have hjs : mutationToken payload =
      if (Crc.crc32 payload : ℤ) = 0 then (1 : ℤ) else (Crc.crc32 payload : ℤ) := by
    unfold mutationToken
    dsimp only
    rw [unsigned_register]
  rw [hjs, family_mutation_token_eq]
  refine ⟨?_, Crc.crc32_eq_byDivision payload, ?_, ?_⟩
  · split_ifs <;> omega
  · split_ifs <;> omega
  · split_ifs <;> omega

/-- The payload of the beacon key. -/
example : mutationToken ((List.range 28).map UInt8.ofNat) =
    family_mutation_token ((List.range 28).map UInt8.ofNat) := by decide +kernel

/-! ## Edited payloads -/

/-- Two payloads of one length that are alike outside a window, taken apart at it. -/
theorem split_window {α : Type} {payload payload' : List α} (start width : ℕ)
    (hlen : payload.length = payload'.length)
    (halike : ∀ i, i < start ∨ start + width ≤ i → payload[i]? = payload'[i]?) :
    ∃ pre mid mid' post, payload = pre ++ mid ++ post ∧ payload' = pre ++ mid' ++ post ∧
      mid.length = mid'.length ∧ mid.length ≤ width := by
  refine ⟨payload.take start, (payload.drop start).take width, (payload'.drop start).take width,
    payload.drop (start + width), ?_, ?_, ?_, ?_⟩
  · rw [← List.drop_drop, List.append_assoc, List.take_append_drop, List.take_append_drop]
  · -- in front of the window and behind it they are alike, place by place
    have hpre : payload.take start = payload'.take start := by
      apply List.ext_getElem?
      intro i
      rw [List.getElem?_take, List.getElem?_take]
      split_ifs with hi
      · exact halike i (.inl hi)
      · rfl
    have hpost : payload.drop (start + width) = payload'.drop (start + width) := by
      apply List.ext_getElem?
      intro i
      rw [List.getElem?_drop, List.getElem?_drop]
      exact halike _ (.inr (by omega))
    rw [hpre, hpost, ← List.drop_drop, List.append_assoc, List.take_append_drop,
      List.take_append_drop]
  · rw [List.length_take, List.length_take, List.length_drop, List.length_drop, hlen]
  · exact List.length_take_le ..

/-- **A new token.** Payloads that differ, and only within four bytes in a row, have
different tokens, but for the one pair of checks that share the token 1. -/
theorem family_mutation_token_window (payload payload' : List UInt8) (start : ℕ)
    (hlen : payload.length = payload'.length) (hne : payload ≠ payload')
    (halike : ∀ i, i < start ∨ start + 4 ≤ i → payload[i]? = payload'[i]?) :
    family_mutation_token payload = family_mutation_token payload' ↔
      (Crc.crc32 payload = 0 ∧ Crc.crc32 payload' = 1) ∨
        (Crc.crc32 payload = 1 ∧ Crc.crc32 payload' = 0) := by
  have hcheck : Crc.crc32 payload ≠ Crc.crc32 payload' := by
    obtain ⟨pre, mid, mid', post, rfl, rfl, hmid, hfour⟩ := split_window start 4 hlen halike
    intro h
    apply hne
    rw [Crc.crc32_window hmid hfour h]
  rw [family_mutation_token_eq, family_mutation_token_eq]
  split_ifs <;> omega

/-- The pair exists: two payloads of four bytes have the checks 0 and 1. -/
theorem family_mutation_token_alias :
    family_mutation_token [0x9D, 0x0A, 0xD9, 0x6D] =
      family_mutation_token [0xDC, 0x0C, 0xA8, 0xB6] := by
  have halike : ∀ i, i < 0 ∨ 0 + 4 ≤ i →
      [(0x9D : UInt8), 0x0A, 0xD9, 0x6D][i]? = [(0xDC : UInt8), 0x0C, 0xA8, 0xB6][i]? := by
    intro i hi
    rw [List.getElem?_eq_none (by simp; omega), List.getElem?_eq_none (by simp; omega)]
  have hpair := family_mutation_token_window [0x9D, 0x0A, 0xD9, 0x6D] [0xDC, 0x0C, 0xA8, 0xB6] 0 rfl
    (by decide) halike
  exact hpair.mpr (.inl ⟨by decide +kernel, by decide +kernel⟩)

end Ptlab.Js
