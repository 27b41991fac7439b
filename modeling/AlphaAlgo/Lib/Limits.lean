import AlphaAlgo.Lib.Sums

/-!
# Limits — a decimal context with its exponent range

Beside the number of digits a context has a range of exponents: a result keeps no digit below `10 ^ etiny`, and one of
`10 ^ (emax + 1)` or more is an overflow, which raises.

* `limited_of_units`: on the multiples of `10 ^ etiny` the range shows only as an overflow.
* `limited_of_tiny`: what is less than half of `10 ^ etiny` becomes zero.
-/

namespace AlphaAlgo

/-- The exponent range of a context. -/
structure Limits where
  emin : ℤ
  emax : ℤ

namespace Limits

/-- The range of the default context of Python's `decimal` module. -/
def default : Limits := ⟨-999999, 999999⟩

/-- The exponent of the last place of the smallest numbers. -/
def etiny (r : Limits) (p : ℕ) : ℤ := r.emin - p + 1

/-- The least number that is an overflow. -/
def top (r : Limits) : ℚ := 10 ^ (r.emax + 1)

/-- The result with `p` digits of an operation whose exact value is `x`, unless it is an overflow. -/
def limited (r : Limits) (p : ℕ) (x : ℚ) : Option ℚ :=
  if x = 0 then some 0
  else
    let y := quantize (max (lastDigit p x) (r.etiny p)) x
    if |y| < r.top then some y else none

variable {r : Limits} {p : ℕ} {x : ℚ}

theorem top_pos (r : Limits) : 0 < r.top := ten_zpow_pos _

/-- **In range**: only an overflow differs from the context without a range. -/
theorem limited_of_units (h : Units (r.etiny p) x) :
    r.limited p x = if |(Ctx.mk (some p)).fix x| < r.top then some ((Ctx.mk (some p)).fix x) else none := by
  by_cases hx : x = 0
  · rw [limited, if_pos hx, hx, Ctx.fix_zero, abs_zero, if_pos r.top_pos]
  rw [limited, if_neg hx, Ctx.fix_some hx]
  rcases le_total (lastDigit p x) (r.etiny p) with hle | hle
  · -- all digits are kept
    rw [max_eq_right hle, quantize_of_units h, quantize_of_units (h.of_le hle)]
  · rw [max_eq_left hle]

/-- **Underflow.** -/
theorem limited_of_tiny (hx : 0 < x) (hsmall : x < 10 ^ r.etiny p / 2) : r.limited p x = some 0 := by
  have hpos := ten_zpow_pos (r.etiny p)
  have hlast : lastDigit p x ≤ r.etiny p := by
    have hlog : (10 : ℚ) ^ Int.log 10 |x| < 10 ^ r.etiny p := by
      calc (10 : ℚ) ^ Int.log 10 |x| ≤ |x| := zpow_log_le hx.ne'
        _ = x := abs_of_pos hx
        _ < 10 ^ r.etiny p := by linarith
    have hlt := (zpow_lt_zpow_iff_right₀ (by norm_num : (1 : ℚ) < 10)).mp hlog
    unfold lastDigit
    omega
  have hzero : halfEven (x / 10 ^ r.etiny p) = 0 := by
    have hquot : x / 10 ^ r.etiny p < 1 / 2 := by
      rw [div_lt_iff₀ hpos]
      linarith
    have hnonneg : 0 ≤ x / 10 ^ r.etiny p := (div_pos hx hpos).le
    have hfloor : ⌊x / 10 ^ r.etiny p⌋ = 0 := Int.floor_eq_zero_iff.mpr ⟨hnonneg, by linarith⟩
    rw [halfEven, hfloor, if_pos (by simpa using hquot)]
  have hquantize : quantize (r.etiny p) x = 0 := by rw [quantize, hzero, Int.cast_zero, zero_mul]
  rw [limited, if_neg hx.ne', max_eq_right hlast, hquantize]
  dsimp only
  rw [abs_zero, if_pos r.top_pos]

end Limits

end AlphaAlgo
