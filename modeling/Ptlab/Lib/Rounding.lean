/-
Rounding to doubles keeps the order.

`rounded q` is the double nearest to `q`, as long as there are doubles of that size
(`rounded_of_round`). The doubles get sparser at every power of 2, but the power itself is
one of them, which nothing is rounded across (`rounded_le`, `le_rounded`); from that the
order is kept (`rounded_mono`).
-/
import Ptlab.Lib.JsNumber

set_option autoImplicit false

namespace JsNumber

/-! ## Integers -/

theorem floor_le_halfEven (x : ℚ) : ⌊x⌋ ≤ halfEven x := by
  unfold halfEven
  split_ifs <;> omega

theorem halfEven_le_floor (x : ℚ) : halfEven x ≤ ⌊x⌋ + 1 := by
  unfold halfEven
  split_ifs <;> omega

/-- The nearest integers are in order. -/
theorem halfEven_mono {x y : ℚ} (h : x ≤ y) : halfEven x ≤ halfEven y := by
  rcases (Int.floor_le_floor h).lt_or_eq with hlt | heq
  · -- an integer lies between them
    calc halfEven x ≤ ⌊x⌋ + 1 := halfEven_le_floor x
      _ ≤ ⌊y⌋ := hlt
      _ ≤ halfEven y := floor_le_halfEven y
  · have hfract : x - ⌊x⌋ ≤ y - ⌊y⌋ := by
      rw [heq]
      linarith
    unfold halfEven
    rw [← heq] at hfract ⊢
    split_ifs <;> first | omega | linarith

theorem halfEven_le {x : ℚ} {n : ℤ} (h : x ≤ n) : halfEven x ≤ n := by
  rw [← halfEven_intCast n]
  exact halfEven_mono h

theorem le_halfEven {x : ℚ} {n : ℤ} (h : n ≤ x) : n ≤ halfEven x := by
  rw [← halfEven_intCast n]
  exact halfEven_mono h

/-! ## Doubles -/

/-- The double nearest to `q`, if there are doubles that large. -/
def rounded (q : ℚ) : ℚ := halfEven (q / 2 ^ lastPlace q) * 2 ^ lastPlace q

theorem rounded_of_round {q r : ℚ} (h : round q = .finite r) : r = rounded q := by
  unfold round at h
  dsimp only at h
  split_ifs at h
  exact (finite.inj h).symm

/-- Integers below 2 ^ 53 are doubles. -/
theorem rounded_intCast {n : ℤ} (h : |n| < 2 ^ 53) : rounded n = n :=
  (rounded_of_round (round_intCast h)).symm

theorem unit_pos (e : ℤ) : (0 : ℚ) < 2 ^ e := zpow_pos (by norm_num) e

/-- A multiple of a power of 2 is a multiple of every smaller one. -/
theorem multiple_div {e L : ℤ} (h : e ≤ L) (s : ℤ) :
    ((s : ℚ) * 2 ^ L) / 2 ^ e = ((s * 2 ^ (L - e).toNat : ℤ) : ℚ) := by
  obtain ⟨k, hk⟩ := Int.le.dest h
  have hpow : (2 : ℚ) ^ L = 2 ^ k * 2 ^ e := by
    rw [← hk, zpow_add₀ (by norm_num), zpow_natCast, mul_comm]
  rw [hpow, ← mul_assoc, mul_div_assoc, div_self (unit_pos e).ne', mul_one]
  have hsub : (L - e).toNat = k := by omega
  rw [hsub]
  push_cast
  rfl

/-- Nothing is rounded up across a multiple of a larger power of 2. -/
theorem rounded_le {q : ℚ} {s L : ℤ} (hL : lastPlace q ≤ L) (h : q ≤ s * 2 ^ L) :
    rounded q ≤ s * 2 ^ L := by
  have hunit := unit_pos (lastPlace q)
  have hdiv : q / 2 ^ lastPlace q ≤ ((s * 2 ^ (L - lastPlace q).toNat : ℤ) : ℚ) := by
    rw [← multiple_div hL]
    exact div_le_div_of_nonneg_right h hunit.le
  calc rounded q ≤ ((s * 2 ^ (L - lastPlace q).toNat : ℤ) : ℚ) * 2 ^ lastPlace q :=
        mul_le_mul_of_nonneg_right (Int.cast_le.mpr (halfEven_le hdiv)) hunit.le
    _ = s * 2 ^ L := by rw [← multiple_div hL, div_mul_cancel₀ _ hunit.ne']

/-- Nor is anything rounded down across it. -/
theorem le_rounded {q : ℚ} {s L : ℤ} (hL : lastPlace q ≤ L) (h : s * 2 ^ L ≤ q) :
    s * 2 ^ L ≤ rounded q := by
  have hunit := unit_pos (lastPlace q)
  have hdiv : ((s * 2 ^ (L - lastPlace q).toNat : ℤ) : ℚ) ≤ q / 2 ^ lastPlace q := by
    rw [← multiple_div hL]
    exact div_le_div_of_nonneg_right h hunit.le
  calc (s : ℚ) * 2 ^ L = ((s * 2 ^ (L - lastPlace q).toNat : ℤ) : ℚ) * 2 ^ lastPlace q := by
        rw [← multiple_div hL, div_mul_cancel₀ _ hunit.ne']
    _ ≤ rounded q := mul_le_mul_of_nonneg_right (Int.cast_le.mpr (le_halfEven hdiv)) hunit.le

theorem rounded_nonneg {q : ℚ} (h : 0 ≤ q) : 0 ≤ rounded q := by
  have hzero := le_rounded (s := 0) (le_refl (lastPlace q)) (by simpa using h)
  simpa using hzero

theorem rounded_nonpos {q : ℚ} (h : q ≤ 0) : rounded q ≤ 0 := by
  have hzero := rounded_le (s := 0) (le_refl (lastPlace q)) (by simpa using h)
  simpa using hzero

/-- Between numbers with different last places there is a power of 2. -/
theorem pow_between {q r : ℚ} (hq : 0 < |q|) (h : |q| ≤ |r|) (hne : lastPlace q ≠ lastPlace r) :
    ∃ L : ℤ, lastPlace q ≤ L ∧ lastPlace r ≤ L ∧ |q| ≤ 2 ^ L ∧ 2 ^ L ≤ |r| := by
  have hr : 0 < |r| := lt_of_lt_of_le hq h
  have hlog : Int.log 2 |q| ≤ Int.log 2 |r| := Int.log_mono_right hq h
  have hlt : Int.log 2 |q| < Int.log 2 |r| ∧ -1022 < Int.log 2 |r| := by
    unfold lastPlace at hne
    omega
  refine ⟨Int.log 2 |r|, ?_, ?_, ?_, ?_⟩
  · unfold lastPlace
    omega
  · unfold lastPlace
    omega
  · exact_mod_cast ((Int.lt_zpow_iff_log_lt (by norm_num) hq).mpr hlt.1).le
  · exact_mod_cast Int.zpow_log_le_self (by norm_num) hr

theorem rounded_mono_of_place {q r : ℚ} (h : q ≤ r) (hplace : lastPlace q = lastPlace r) :
    rounded q ≤ rounded r := by
  have hunit := unit_pos (lastPlace r)
  unfold rounded
  rw [hplace]
  exact mul_le_mul_of_nonneg_right
    (Int.cast_le.mpr (halfEven_mono (div_le_div_of_nonneg_right h hunit.le))) hunit.le

/-- **Rounding keeps the order.** -/
theorem rounded_mono {q r : ℚ} (h : q ≤ r) : rounded q ≤ rounded r := by
  by_cases hplace : lastPlace q = lastPlace r
  · exact rounded_mono_of_place h hplace
  · rcases lt_or_ge 0 q with hq | hq
    · -- both are positive, and a power of 2 lies between them
      have habs : |q| ≤ |r| := by rwa [abs_of_pos hq, abs_of_pos (hq.trans_le h)]
      obtain ⟨L, hqL, hrL, hbelow, habove⟩ := pow_between (abs_pos.mpr hq.ne') habs hplace
      rw [abs_of_pos hq] at hbelow
      rw [abs_of_pos (hq.trans_le h)] at habove
      have hbelow' := rounded_le (s := 1) hqL (by simpa using hbelow)
      have habove' := le_rounded (s := 1) hrL (by simpa using habove)
      exact hbelow'.trans habove'
    · rcases lt_or_ge r 0 with hr | hr
      · -- both are negative
        have habs : |r| ≤ |q| := by
          rw [abs_of_neg hr, abs_of_nonpos hq]
          linarith
        obtain ⟨L, hrL, hqL, hbelow, habove⟩ := pow_between (abs_pos.mpr hr.ne) habs (Ne.symm hplace)
        rw [abs_of_neg hr] at hbelow
        rw [abs_of_nonpos hq] at habove
        have hbelow' := le_rounded (s := -1) hrL (by push_cast; linarith)
        have habove' := rounded_le (s := -1) hqL (by push_cast; linarith)
        exact habove'.trans hbelow'
      · exact (rounded_nonpos hq).trans (rounded_nonneg hr)

theorem trunc_mono {q r : ℚ} (h : q ≤ r) : trunc q ≤ trunc r := by
  unfold trunc
  split_ifs with hq hr
  · exact Int.floor_le_floor h
  · exact absurd (hq.trans h) hr
  · exact (Int.ceil_nonpos.mpr (not_le.mp hq).le).trans (Int.floor_nonneg.mpr ‹0 ≤ r›)
  · exact Int.ceil_le_ceil h

end JsNumber
