/-
Little-endian words in byte lists.

`le16` and `le32` write a natural number's low two or four bytes, `read16` and
`read32` read them back at an offset. Writing is total and wraps, as storing
into a byte does; the round trips carry the range as a hypothesis.
-/
import Mathlib.Data.List.GetD
import Mathlib.Tactic

set_option autoImplicit false

namespace Bytes

/-! ## Writing -/

/-- The low two bytes of `n`, low byte first. -/
def le16 (n : ℕ) : List UInt8 := [UInt8.ofNat n, UInt8.ofNat (n / 256)]

/-- The low four bytes of `n`, low byte first. -/
def le32 (n : ℕ) : List UInt8 :=
  [UInt8.ofNat n, UInt8.ofNat (n / 256), UInt8.ofNat (n / 65536), UInt8.ofNat (n / 16777216)]

@[simp] theorem le16_length (n : ℕ) : (le16 n).length = 2 := rfl

@[simp] theorem le32_length (n : ℕ) : (le32 n).length = 4 := rfl

/-! ## Reading -/

/-- The two-byte word at offset `i`; bytes past the end read as zero. -/
def read16 (b : List UInt8) (i : ℕ) : ℕ :=
  (b.getD i 0).toNat + 256 * (b.getD (i + 1) 0).toNat

/-- The four-byte word at offset `i`. -/
def read32 (b : List UInt8) (i : ℕ) : ℕ :=
  read16 b i + 65536 * read16 b (i + 2)

theorem toNat_ofNat_lt {n : ℕ} (h : n < 256) : (UInt8.ofNat n).toNat = n := by
  rw [UInt8.toNat_ofNat']
  exact Nat.mod_eq_of_lt h

/-- Bytes that arrive behind the word do not change it. -/
theorem read16_append {b : List UInt8} {i : ℕ} (h : i + 1 < b.length) (c : List UInt8) :
    read16 (b ++ c) i = read16 b i := by
  unfold read16
  rw [List.getD_append _ _ _ _ (by omega), List.getD_append _ _ _ _ h]

/-- A word read behind a prefix of `k` bytes. -/
theorem read16_append_right {p : List UInt8} (b : List UInt8) {k : ℕ} (h : p.length = k) (i : ℕ) :
    read16 (p ++ b) (k + i) = read16 b i := by
  subst h
  unfold read16
  rw [List.getD_append_right _ _ _ _ (by omega), List.getD_append_right _ _ _ _ (by omega)]
  congr 4 <;> omega

theorem read32_append_right {p : List UInt8} (b : List UInt8) {k : ℕ} (h : p.length = k) (i : ℕ) :
    read32 (p ++ b) (k + i) = read32 b i := by
  unfold read32
  rw [Nat.add_assoc, read16_append_right b h, read16_append_right b h]

theorem getD_append_right {p : List UInt8} (b : List UInt8) {k : ℕ} (h : p.length = k) (i : ℕ) :
    (p ++ b).getD (k + i) 0 = b.getD i 0 := by
  subst h
  rw [List.getD_append_right _ _ _ _ (by omega), Nat.add_sub_cancel_left]

theorem read16_lt (b : List UInt8) (i : ℕ) : read16 b i < 65536 := by
  have hlow := (b.getD i 0).toNat_lt
  have hhigh := (b.getD (i + 1) 0).toNat_lt
  unfold read16
  omega

/-! ## Round trips -/

/-- The word `le16` wrote is read back. -/
theorem read16_le16 {n : ℕ} (h : n < 65536) (c : List UInt8) : read16 (le16 n ++ c) 0 = n := by
  simp only [read16, le16, List.cons_append, List.getD_cons_zero, List.getD_cons_succ,
    UInt8.toNat_ofNat']
  omega

/-- The word `le32` wrote is read back. -/
theorem read32_le32 {n : ℕ} (h : n < 4294967296) (c : List UInt8) :
    read32 (le32 n ++ c) 0 = n := by
  simp only [read32, read16, le32, List.cons_append, List.getD_cons_zero, List.getD_cons_succ,
    UInt8.toNat_ofNat', Nat.zero_add]
  omega

/-- Writing the word at `i` gives the two bytes that stand there. -/
theorem le16_read16 {b : List UInt8} {i : ℕ} {x y : UInt8} (h0 : b.getD i 0 = x)
    (h1 : b.getD (i + 1) 0 = y) : le16 (read16 b i) = [x, y] := by
  have hx := x.toNat_lt
  have hy := y.toNat_lt
  have hlow : UInt8.ofNat (x.toNat + 256 * y.toNat) = x := by
    apply UInt8.toNat_inj.mp
    rw [UInt8.toNat_ofNat']
    omega
  have hhigh : (x.toNat + 256 * y.toNat) / 256 = y.toNat := by omega
  simp only [le16, read16, h0, h1, hlow, hhigh, UInt8.ofNat_toNat]

/-! ## Writing into a buffer -/

/-- `b` with `xs` written over it from `offset` on. -/
def patch (b : List UInt8) (offset : ℕ) (xs : List UInt8) : List UInt8 :=
  b.take offset ++ xs ++ b.drop (offset + xs.length)

/-- Writing over a piece that is as long. -/
theorem patch_append {p old s xs : List UInt8} {k : ℕ} (hp : p.length = k)
    (hlen : old.length = xs.length) : patch (p ++ old ++ s) k xs = p ++ xs ++ s := by
  subst hp
  have hdrop : (p ++ old ++ s).drop (p.length + xs.length) = s := by
    rw [← hlen, ← List.length_append]
    exact List.drop_left
  unfold patch
  rw [hdrop, List.append_assoc p old s, List.take_left]

/-- Writing on from where the last write ended is one write. -/
theorem patch_patch {b xs ys : List UInt8} {i j : ℕ} (hj : j = i + xs.length)
    (hb : i + xs.length ≤ b.length) : patch (patch b i xs) j ys = patch b i (xs ++ ys) := by
  subst hj
  have htake : (b.take i ++ xs).length = i + xs.length := by
    rw [List.length_append, List.length_take]
    omega
  have hdrop : (b.take i ++ xs ++ b.drop (i + xs.length)).drop (i + xs.length + ys.length) =
      b.drop (i + (xs ++ ys).length) := by
    rw [← htake, ← List.drop_drop, List.drop_left, List.drop_drop, htake, List.length_append,
      Nat.add_assoc]
  unfold patch
  rw [hdrop]
  conv_lhs => rw [← htake, List.take_left]
  simp only [List.append_assoc]

end Bytes
