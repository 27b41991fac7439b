import AlphaAlgo.Lib.Rounding

/-!
# Binary — rounding to floating point numbers of radix two

`round p x` is the nearest number with `p` binary digits, ties to the even one; `p = 53` is the precision of a Python
float.  The exponent range is not modelled: a difference of two floats is never rounded for being small, and only one
beyond the greatest float would be infinite.

* `round_mono`: rounding is monotone.
-/

namespace AlphaAlgo.Binary

theorem two_zpow_pos (e : ℤ) : (0 : ℚ) < 2 ^ e := zpow_pos (by norm_num) e

/-- The nearest multiple of `2 ^ e`, ties to the even one. -/
def nearest (e : ℤ) (x : ℚ) : ℚ := halfEven (x / 2 ^ e) * 2 ^ e

theorem nearest_mono (e : ℤ) {x y : ℚ} (h : x ≤ y) : nearest e x ≤ nearest e y := by
  have hpos := two_zpow_pos e
  have hle : halfEven (x / 2 ^ e) ≤ halfEven (y / 2 ^ e) := halfEven_mono (div_le_div_of_nonneg_right h hpos.le)
  exact mul_le_mul_of_nonneg_right (by exact_mod_cast hle) hpos.le

/-- The powers of two above the last place are kept. -/
theorem nearest_zpow {e n : ℤ} (h : e ≤ n) : nearest e (2 ^ n) = 2 ^ n := by
  have hdiv : (2 : ℚ) ^ n / 2 ^ e = ((2 ^ (n - e).toNat : ℤ) : ℚ) := by
    rw [← zpow_sub₀ (by norm_num), Int.cast_pow, Int.cast_ofNat, ← zpow_natCast, Int.toNat_of_nonneg (by omega)]
  rw [nearest, hdiv, halfEven_intCast, ← hdiv, div_mul_cancel₀ _ (two_zpow_pos e).ne']

/-- The exponent of the last of the `p` digits of `x`. -/
def lastPlace (p : ℕ) (x : ℚ) : ℤ := Int.log 2 |x| + 1 - p

/-- The nearest number with `p` digits. -/
def round (p : ℕ) (x : ℚ) : ℚ := if x = 0 then 0 else nearest (lastPlace p x) x

theorem round_of_ne {p : ℕ} {x : ℚ} (hx : x ≠ 0) : round p x = nearest (lastPlace p x) x := if_neg hx

theorem round_neg (p : ℕ) (x : ℚ) : round p (-x) = -round p x := by
  by_cases hx : x = 0
  · simp [round, hx]
  · rw [round_of_ne (neg_ne_zero.mpr hx), round_of_ne hx, lastPlace, lastPlace, abs_neg, nearest, nearest, neg_div,
      halfEven_neg]
    push_cast
    ring

section Positive

variable {p : ℕ} {x y : ℚ}

/-- The leading power of two of a positive number survives. -/
theorem zpow_log_le_round (hp : 0 < p) (hx : 0 < x) : (2 : ℚ) ^ Int.log 2 |x| ≤ round p x := by
  have hlog : (2 : ℚ) ^ Int.log 2 |x| ≤ |x| := by
    simpa using Int.zpow_log_le_self (b := 2) (by norm_num) (abs_pos.mpr hx.ne')
  have hplace : lastPlace p x ≤ Int.log 2 |x| := by
    unfold lastPlace
    omega
  rw [round_of_ne hx.ne', ← nearest_zpow hplace]
  rw [abs_of_pos hx] at hlog ⊢
  exact nearest_mono _ hlog

/-- Rounding does not pass the next power of two. -/
theorem round_le_zpow (hp : 0 < p) (hx : 0 < x) : round p x ≤ 2 ^ (Int.log 2 |x| + 1) := by
  have hlog : |x| < (2 : ℚ) ^ (Int.log 2 |x| + 1) := by
    simpa using Int.lt_zpow_succ_log_self (b := 2) (by norm_num) |x|
  have hplace : lastPlace p x ≤ Int.log 2 |x| + 1 := by
    unfold lastPlace
    omega
  rw [round_of_ne hx.ne', ← nearest_zpow hplace]
  rw [abs_of_pos hx] at hlog ⊢
  exact nearest_mono _ hlog.le

theorem round_pos (hp : 0 < p) (hx : 0 < x) : 0 < round p x := (two_zpow_pos _).trans_le (zpow_log_le_round hp hx)

theorem round_mono_of_pos (hp : 0 < p) (hx : 0 < x) (h : x ≤ y) : round p x ≤ round p y := by
  have hy : 0 < y := hx.trans_le h
  have hlog : Int.log 2 |x| ≤ Int.log 2 |y| :=
    Int.log_mono_right (abs_pos.mpr hx.ne') (abs_le_abs_of_nonneg hx.le h)
  rcases hlog.lt_or_eq with hlt | heq
  · calc round p x ≤ 2 ^ (Int.log 2 |x| + 1) := round_le_zpow hp hx
      _ ≤ 2 ^ Int.log 2 |y| := zpow_le_zpow_right₀ (by norm_num) hlt
      _ ≤ round p y := zpow_log_le_round hp hy
  · rw [round_of_ne hx.ne', round_of_ne hy.ne', lastPlace, lastPlace, heq]
    exact nearest_mono _ h

end Positive

/-- **Rounding is monotone.** -/
theorem round_mono {p : ℕ} (hp : 0 < p) : Monotone (round p) := by
  have hnonneg : ∀ {z : ℚ}, 0 ≤ z → 0 ≤ round p z := by
    intro z hz
    rcases hz.eq_or_lt with rfl | hz
    · simp [round]
    · exact (round_pos hp hz).le
  intro x y h
  rcases lt_trichotomy x 0 with hx | rfl | hx
  · have hneg : round p x ≤ 0 := by
      have := hnonneg (neg_nonneg.mpr hx.le)
      rw [round_neg] at this
      linarith
    rcases le_or_gt 0 y with hy | hy
    · exact hneg.trans (hnonneg hy)
    · have := round_mono_of_pos hp (neg_pos.mpr hy) (neg_le_neg h)
      rw [round_neg, round_neg] at this
      linarith
  · rw [round, if_pos rfl]
    exact hnonneg h
  · exact round_mono_of_pos hp hx h

end AlphaAlgo.Binary
