import AlphaAlgo.Lib.Sums
import AlphaAlgo.Lib.Table

/-!
# Columns — amounts in `NUMERIC(18, 4)` columns

A column rounds to four places and refuses what has more than fourteen digits before the point.

* `numeric4_of_units`: an amount of four places is stored as it is.
* `fix_of_units`: sums of a few stored amounts are exact in the default context.
-/

namespace AlphaAlgo

/-- An amount of four places is stored as it is. -/
theorem numeric4_of_units {x : ℚ} (h : Units (-4) x) : numeric4 x = x := by
  obtain ⟨n, rfl⟩ := h
  have hscaled : (n : ℚ) * 10 ^ (-4 : ℤ) * 10 ^ 4 = n := by
    rw [mul_assoc, zpow_neg]
    norm_num
  have hfloor : ⌊(n : ℚ) + 1 / 2⌋ = n := by
    rw [Int.floor_eq_iff]
    constructor <;> linarith
  have hceil : ⌈(n : ℚ) - 1 / 2⌉ = n := by
    rw [Int.ceil_eq_iff]
    constructor <;> linarith
  unfold numeric4
  rw [hscaled, hfloor, hceil, ite_self, zpow_neg]
  norm_num
  ring

/-- The column takes the amount. -/
def holds (x : ℚ) : Bool := |numeric4 x| < 10 ^ 14

/-- The default context does not round an amount of four places and up to 24 digits before the point. -/
theorem fix_of_units {x : ℚ} (h : Units (-4) x) (hx : |x| < 10 ^ 24) : Ctx.default.fix x = x := by
  apply Ctx.fix_of_digits
  apply digits_of_units h
  norm_num
  exact hx

end AlphaAlgo
