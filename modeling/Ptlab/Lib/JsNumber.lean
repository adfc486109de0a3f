/-
Numbers of JavaScript: what a text reads as, how a result is rounded, and what is
stored of it in a byte.

A finite number is the rational that the double stands for; the two zeros count as
one. `round` is the nearest double, the even one of two, which leaves every integer
below 2 ^ 53 as it is (`round_intCast`). Texts are lists of UTF-16 code units.
-/
import Mathlib.Data.Int.Log
import Mathlib.Data.Rat.Floor
import Mathlib.Tactic

set_option autoImplicit false

inductive JsNumber where
  | nan
  | infinity (negative : Bool)
  | finite (q : ℚ)
  deriving DecidableEq, Repr

namespace JsNumber

/-! ## Rounding -/

/-- The integer nearest to `x`, and the even one of two. -/
def halfEven (x : ℚ) : ℤ :=
  if x - ⌊x⌋ < 1 / 2 then ⌊x⌋
  else if 1 / 2 < x - ⌊x⌋ then ⌊x⌋ + 1
  else if ⌊x⌋ % 2 = 0 then ⌊x⌋
  else ⌊x⌋ + 1

theorem halfEven_intCast (n : ℤ) : halfEven n = n := by
  unfold halfEven
  rw [Int.floor_intCast, sub_self, if_pos (by norm_num)]

/-- The exponent of the last place of a double of the size of `q`. -/
def lastPlace (q : ℚ) : ℤ := max (Int.log 2 |q|) (-1022) - 52

/-- The double nearest to `q`. -/
def round (q : ℚ) : JsNumber :=
  let unit : ℚ := 2 ^ lastPlace q
  let r := halfEven (q / unit) * unit
  if 2 ^ 1024 ≤ |r| then .infinity (q < 0) else .finite r

/-- The last place of an integer below 2 ^ 53 stands behind the point, or right in
front of it. -/
theorem lastPlace_nonpos {n : ℤ} (h : |n| < 2 ^ 53) : lastPlace n ≤ 0 := by
  have hlog : Int.log 2 |(n : ℚ)| ≤ 52 := by
    by_cases hn : n = 0
    · subst hn
      simp
    · have hpos : 0 < |(n : ℚ)| := abs_pos.mpr (Int.cast_ne_zero.mpr hn)
      have hlt : |(n : ℚ)| < ((2 : ℕ) : ℚ) ^ (53 : ℤ) := by
        rw [← Int.cast_abs]
        exact_mod_cast h
      have := (Int.lt_zpow_iff_log_lt (by norm_num) hpos).mp hlt
      omega
  unfold lastPlace
  omega

/-- Integers below 2 ^ 53 are doubles. -/
theorem round_intCast {n : ℤ} (h : |n| < 2 ^ 53) : round n = .finite n := by
  obtain ⟨k, hk⟩ := Int.exists_eq_neg_ofNat (lastPlace_nonpos h)
  have hunit : (2 : ℚ) ^ lastPlace (n : ℚ) = ((2 : ℚ) ^ k)⁻¹ := by
    rw [hk, zpow_neg, zpow_natCast]
  -- the quotient is an integer, which no rounding changes
  have hquotient : (n : ℚ) / ((2 : ℚ) ^ k)⁻¹ = ((n * 2 ^ k : ℤ) : ℚ) := by
    rw [div_inv_eq_mul]
    push_cast
    rfl
  have hback : ((n * 2 ^ k : ℤ) : ℚ) * ((2 : ℚ) ^ k)⁻¹ = n := by
    push_cast
    rw [mul_assoc, mul_inv_cancel₀ (by positivity), mul_one]
  have hsmall : ¬ (2 : ℚ) ^ 1024 ≤ |(n : ℚ)| := by
    rw [not_le, ← Int.cast_abs]
    have hcast : ((|n| : ℤ) : ℚ) < 2 ^ 53 := by exact_mod_cast h
    exact lt_trans hcast (pow_lt_pow_right₀ (by norm_num) (by norm_num))
  unfold round
  dsimp only
  rw [hunit, hquotient, halfEven_intCast, hback, if_neg hsmall]

/-- `x - n`. -/
def sub (x : JsNumber) (n : ℚ) : JsNumber :=
  match x with
  | finite q => round (q - n)
  | other => other

/-! ## Conversions -/

/-- A number without its fraction. -/
def trunc (q : ℚ) : ℤ := if 0 ≤ q then ⌊q⌋ else ⌈q⌉

theorem trunc_intCast (n : ℤ) : trunc n = n := by
  unfold trunc
  split_ifs
  · exact Int.floor_intCast n
  · exact Int.ceil_intCast n

/-- What a byte keeps of a number that is stored in it. -/
def toUint8 : JsNumber → UInt8
  | finite q => UInt8.ofNat (trunc q % 256).toNat
  | _ => 0

theorem toUint8_intCast (n : ℤ) : toUint8 (.finite n) = UInt8.ofNat (n % 256).toNat := by
  change UInt8.ofNat (trunc (n : ℚ) % 256).toNat = _
  rw [trunc_intCast]

theorem toUint8_natCast (n : ℕ) : toUint8 (.finite n) = UInt8.ofNat n := by
  have hcast : (n : ℚ) = ((n : ℤ) : ℚ) := (Int.cast_natCast n).symm
  apply UInt8.toNat_inj.mp
  rw [hcast, toUint8_intCast, UInt8.toNat_ofNat', UInt8.toNat_ofNat']
  omega

/-- `Boolean(x)`. -/
def truthy : JsNumber → Bool
  | nan => false
  | infinity _ => true
  | finite q => q ≠ 0

/-! ## `Number(text)` -/

/-- The white space and the line ends that `trim` removes. -/
def isSpace (u : UInt16) : Bool :=
  u.toNat ∈ [0x09, 0x0A, 0x0B, 0x0C, 0x0D, 0x20, 0xA0, 0x1680, 0x2028, 0x2029, 0x202F, 0x205F,
    0x3000, 0xFEFF] || (0x2000 ≤ u.toNat && u.toNat ≤ 0x200A)

def trim (text : List UInt16) : List UInt16 :=
  ((text.dropWhile isSpace).reverse.dropWhile isSpace).reverse

/-- The digit that a code unit is, in a radix above it. -/
def digitValue (u : UInt16) : ℕ :=
  if 0x30 ≤ u.toNat ∧ u.toNat ≤ 0x39 then u.toNat - 0x30
  else if 0x41 ≤ u.toNat ∧ u.toNat ≤ 0x5A then u.toNat - 0x41 + 10
  else if 0x61 ≤ u.toNat ∧ u.toNat ≤ 0x7A then u.toNat - 0x61 + 10
  else 36

/-- The digits that a text begins with. -/
def digits (radix : ℕ) (text : List UInt16) : List ℕ :=
  (text.takeWhile fun u => digitValue u < radix).map digitValue

/-- What stands behind them. -/
def behind (radix : ℕ) (text : List UInt16) : List UInt16 :=
  text.dropWhile fun u => digitValue u < radix

def positional (radix : ℕ) (ds : List ℕ) : ℕ := ds.foldl (fun value d => value * radix + d) 0

/-- A text of digits, at least one. -/
def natural (radix : ℕ) (text : List UInt16) : Option ℕ :=
  if digits radix text = [] ∨ behind radix text ≠ [] then none
  else some (positional radix (digits radix text))

/-- `+` and `-`. -/
def signed {α : Type} (read : List UInt16 → Option α) (neg : α → α) :
    List UInt16 → Option α
  | [] => read []
  | u :: rest =>
    if u = 0x2B then read rest
    else if u = 0x2D then (read rest).map neg
    else read (u :: rest)

/-- `e` or `E` and an integer, or nothing. -/
def exponentPart : List UInt16 → Option ℤ
  | [] => some 0
  | u :: rest =>
    if u = 0x65 ∨ u = 0x45 then signed (fun text => (natural 10 text).map Int.ofNat) (- ·) rest
    else none

/-- The digits around a point, with the exponent. -/
def decimal (whole fraction : List ℕ) (rest : List UInt16) : Option JsNumber :=
  if whole = [] ∧ fraction = [] then none
  else (exponentPart rest).map fun e : ℤ =>
    round (positional 10 (whole ++ fraction) * (10 : ℚ) ^ (e - fraction.length))

/-- `Infinity`. -/
def infinityText : List UInt16 := [0x49, 0x6E, 0x66, 0x69, 0x6E, 0x69, 0x74, 0x79]

def unsignedDecimal (text : List UInt16) : Option JsNumber :=
  if text = infinityText then some (.infinity false)
  else match behind 10 text with
    | 0x2E :: rest => decimal (digits 10 text) (digits 10 rest) (behind 10 rest)
    | rest => decimal (digits 10 text) [] rest

/-- `-x`. -/
def negate : JsNumber → JsNumber
  | nan => nan
  | infinity negative => infinity !negative
  | finite q => finite (-q)

/-- A decimal literal with its sign, or `0x`, `0o` or `0b` and digits of that radix. -/
def literal : List UInt16 → Option JsNumber
  | 0x30 :: u :: rest =>
    if u = 0x78 ∨ u = 0x58 then (natural 16 rest).map fun n => round n
    else if u = 0x6F ∨ u = 0x4F then (natural 8 rest).map fun n => round n
    else if u = 0x62 ∨ u = 0x42 then (natural 2 rest).map fun n => round n
    else unsignedDecimal (0x30 :: u :: rest)
  | text => signed unsignedDecimal negate text

/-- `Number(text)`. -/
def Number (text : List UInt16) : JsNumber :=
  if trim text = [] then .finite 0 else (literal (trim text)).getD .nan

end JsNumber
