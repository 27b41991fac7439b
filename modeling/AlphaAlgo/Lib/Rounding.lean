import Mathlib

/-!
# Rounding — half-even rounding and the arithmetic of a decimal context

* `halfEven x`: the nearest integer, ties to the even one.
* `quantize e x`: the nearest multiple of `10 ^ e` (Python's `Decimal.quantize`, `ROUND_HALF_EVEN`).
* `Ctx.fix c x`: the value an exact result `x` is given by a context of `prec` significant digits (`prec = none`:
  exact arithmetic).  The exponent range of a context is not modelled.

The facts used later: the error of `quantize` is at most half a quantum, `fix` keeps the numbers that have at most
`prec` digits (`Digits`), its results are such numbers, it is monotone, and it does not undo a gain or a loss of half a
quantum.
-/

namespace AlphaAlgo

/-! ### Nearest integer, ties to even -/

/-- The nearest integer, ties to the even one. -/
def halfEven (x : ℚ) : ℤ :=
  if x - ⌊x⌋ < 1 / 2 then ⌊x⌋
  else if 1 / 2 < x - ⌊x⌋ then ⌊x⌋ + 1
  else if ⌊x⌋ % 2 = 0 then ⌊x⌋ else ⌊x⌋ + 1

theorem halfEven_eq_or (x : ℚ) : halfEven x = ⌊x⌋ ∨ halfEven x = ⌊x⌋ + 1 := by
  unfold halfEven
  split_ifs <;> simp

theorem abs_halfEven_sub_le (x : ℚ) : |(halfEven x : ℚ) - x| ≤ 1 / 2 := by
  have h0 := Int.floor_le x
  have h1 := Int.lt_floor_add_one x
  unfold halfEven
  split_ifs with ha hb hc
  · rw [abs_le]; constructor <;> linarith
  · push_cast; rw [abs_le]; constructor <;> linarith
  · rw [abs_le]; constructor <;> linarith
  · push_cast; rw [abs_le]; constructor <;> linarith

@[simp] theorem halfEven_intCast (n : ℤ) : halfEven (n : ℚ) = n := by
  simp [halfEven]

theorem le_halfEven {n : ℤ} {x : ℚ} (h : (n : ℚ) ≤ x) : n ≤ halfEven x := by
  have hn : n ≤ ⌊x⌋ := Int.le_floor.mpr h
  rcases halfEven_eq_or x with h | h <;> omega

theorem halfEven_le {n : ℤ} {x : ℚ} (h : x ≤ (n : ℚ)) : halfEven x ≤ n := by
  rcases h.lt_or_eq with h | h
  · have hn : ⌊x⌋ < n := Int.floor_lt.mpr h
    rcases halfEven_eq_or x with h | h <;> omega
  · rw [h, halfEven_intCast]

theorem lt_halfEven {n : ℤ} {x : ℚ} (h : (n : ℚ) + 1 / 2 < x) : n < halfEven x := by
  have hnear := (abs_le.mp (abs_halfEven_sub_le x)).1
  have hlt : (n : ℚ) < halfEven x := by linarith
  exact_mod_cast hlt

theorem halfEven_mono {x y : ℚ} (h : x ≤ y) : halfEven x ≤ halfEven y := by
  rcases (Int.floor_mono h).lt_or_eq with hlt | heq
  · have hx : halfEven x ≤ ⌊x⌋ + 1 := by rcases halfEven_eq_or x with e | e <;> omega
    have hy : ⌊y⌋ ≤ halfEven y := by rcases halfEven_eq_or y with e | e <;> omega
    omega
  · -- the same floor: the fractional parts decide
    have hf : x - ⌊y⌋ ≤ y - ⌊y⌋ := by linarith
    unfold halfEven
    rw [heq]
    split_ifs <;> first | omega | linarith

/-- Rounding is symmetric. -/
theorem halfEven_neg (x : ℚ) : halfEven (-x) = -halfEven x := by
  by_cases hx : x = ⌊x⌋
  · have hneg : -x = ((-⌊x⌋ : ℤ) : ℚ) := by rw [Int.cast_neg, ← hx]
    rw [hneg, halfEven_intCast, hx, halfEven_intCast, Int.floor_intCast]
  · have hlt : (⌊x⌋ : ℚ) < x := lt_of_le_of_ne (Int.floor_le x) (Ne.symm hx)
    have hfloor : ⌊-x⌋ = -⌊x⌋ - 1 := by
      rw [Int.floor_eq_iff]
      push_cast
      constructor <;> linarith [Int.lt_floor_add_one x]
    unfold halfEven
    rw [hfloor]
    push_cast
    split_ifs <;> first | omega | linarith

/-! ### Multiples of a power of ten -/

/-- The nearest multiple of `10 ^ e`, ties to the even one. -/
def quantize (e : ℤ) (x : ℚ) : ℚ := halfEven (x / 10 ^ e) * 10 ^ e

theorem ten_zpow_pos (e : ℤ) : (0 : ℚ) < 10 ^ e := zpow_pos (by norm_num) e

theorem abs_quantize_sub_le (e : ℤ) (x : ℚ) : |quantize e x - x| ≤ 10 ^ e / 2 := by
  have hpos := ten_zpow_pos e
  have hx : quantize e x - x = (halfEven (x / 10 ^ e) - x / 10 ^ e) * 10 ^ e := by
    unfold quantize
    field_simp
  rw [hx, abs_mul, abs_of_pos hpos]
  have := mul_le_mul_of_nonneg_right (abs_halfEven_sub_le (x / 10 ^ e)) hpos.le
  linarith

theorem quantize_of_mul (e n : ℤ) : quantize e (n * 10 ^ e) = n * 10 ^ e := by
  unfold quantize
  rw [mul_div_cancel_right₀ _ (ten_zpow_pos e).ne', halfEven_intCast]

theorem le_quantize {e n : ℤ} {x : ℚ} (h : (n : ℚ) * 10 ^ e ≤ x) : (n : ℚ) * 10 ^ e ≤ quantize e x := by
  have hpos := ten_zpow_pos e
  have hn : n ≤ halfEven (x / 10 ^ e) := le_halfEven ((le_div_iff₀ hpos).mpr h)
  exact mul_le_mul_of_nonneg_right (by exact_mod_cast hn) hpos.le

theorem quantize_mono (e : ℤ) {x y : ℚ} (h : x ≤ y) : quantize e x ≤ quantize e y := by
  have hpos := ten_zpow_pos e
  have hle : halfEven (x / 10 ^ e) ≤ halfEven (y / 10 ^ e) := halfEven_mono (div_le_div_of_nonneg_right h hpos.le)
  exact mul_le_mul_of_nonneg_right (by exact_mod_cast hle) hpos.le

theorem quantize_le {e n : ℤ} {x : ℚ} (h : x ≤ (n : ℚ) * 10 ^ e) : quantize e x ≤ (n : ℚ) * 10 ^ e := by
  have := quantize_mono e h
  rwa [quantize_of_mul] at this

theorem quantize_neg (e : ℤ) (x : ℚ) : quantize e (-x) = -quantize e x := by
  rw [quantize, quantize, neg_div, halfEven_neg]
  push_cast
  ring

/-- A multiple of a higher power of ten is a multiple of a lower one. -/
theorem exists_mul_zpow {d e : ℤ} (h : d ≤ e) (n : ℤ) : ∃ k : ℤ, (n : ℚ) * 10 ^ e = k * 10 ^ d := by
  refine ⟨n * 10 ^ (e - d).toNat, ?_⟩
  have he : (e - d).toNat = e - d := Int.toNat_of_nonneg (by omega)
  push_cast
  rw [mul_assoc, ← zpow_natCast, he, ← zpow_add₀ (by norm_num), sub_add_cancel]

/-! ### A context of `prec` significant digits -/

/-- A decimal context: the number of significant digits, or exact arithmetic.  Its exponents are not limited. -/
structure Ctx where
  prec : Option ℕ
deriving DecidableEq, Repr

/-- Exact arithmetic. -/
def Ctx.exact : Ctx := ⟨none⟩

/-- The default context of Python's `decimal` module: 28 digits, half-even. -/
def Ctx.default : Ctx := ⟨some 28⟩

/-- The exponent of the last digit kept when `x` is written with `p` significant digits. -/
def lastDigit (p : ℕ) (x : ℚ) : ℤ := Int.log 10 |x| + 1 - p

/-- The result of an operation whose exact value is `x`. -/
def Ctx.fix (c : Ctx) (x : ℚ) : ℚ :=
  match c.prec with
  | none => x
  | some p => if x = 0 then 0 else quantize (lastDigit p x) x

/-- `x.quantize(10 ** e)`: refused when the result has more digits than the context. -/
def Ctx.quantize? (c : Ctx) (e : ℤ) (x : ℚ) : Option ℚ :=
  match c.prec with
  | none => some (quantize e x)
  | some p => if |quantize e x| < 10 ^ (p + e) then some (quantize e x) else none

/-- `x` has at most `p` significant digits. -/
def Digits (p : ℕ) (x : ℚ) : Prop := ∃ m e : ℤ, x = m * 10 ^ e ∧ |m| < 10 ^ p

@[simp] theorem Ctx.fix_exact (x : ℚ) : Ctx.exact.fix x = x := rfl

theorem Ctx.fix_zero (c : Ctx) : c.fix 0 = 0 := by
  unfold Ctx.fix
  cases c.prec <;> simp

theorem Ctx.fix_neg (c : Ctx) (x : ℚ) : c.fix (-x) = -c.fix x := by
  unfold Ctx.fix
  cases c.prec with
  | none => rfl
  | some p =>
    by_cases hx : x = 0
    · simp [hx]
    · simp only [neg_eq_zero, hx, if_false, lastDigit, abs_neg]
      exact quantize_neg _ _

theorem Ctx.fix_some {p : ℕ} {x : ℚ} (hx : x ≠ 0) :
    (Ctx.mk (some p)).fix x = quantize (lastDigit p x) x := by
  simp [Ctx.fix, hx]

theorem digits_zero (p : ℕ) : Digits p 0 := ⟨0, 0, by simp, by simp⟩

theorem digits_natCast {p n : ℕ} (h : n < 10 ^ p) : Digits p n :=
  ⟨n, 0, by simp, by rw [Nat.abs_cast]; exact_mod_cast h⟩

theorem zpow_log_le {x : ℚ} (hx : x ≠ 0) : (10 : ℚ) ^ Int.log 10 |x| ≤ |x| := by
  simpa using Int.zpow_log_le_self (b := 10) (by norm_num) (abs_pos.mpr hx)

theorem lt_zpow_log_add_one (x : ℚ) : |x| < (10 : ℚ) ^ (Int.log 10 |x| + 1) := by
  simpa using Int.lt_zpow_succ_log_self (b := 10) (by norm_num) |x|

/-- The last digit kept is not above the last digit of a number that fits. -/
theorem lastDigit_le {p : ℕ} {m e : ℤ} {x : ℚ} (hx : x ≠ 0) (h : x = m * 10 ^ e) (hm : |m| < 10 ^ p) :
    lastDigit p x ≤ e := by
  have h1 : |x| < (10 : ℚ) ^ ((p : ℤ) + e) := by
    rw [h, abs_mul, abs_of_pos (ten_zpow_pos e), zpow_add₀ (by norm_num), zpow_natCast]
    have : ((|m| : ℤ) : ℚ) < 10 ^ p := by exact_mod_cast hm
    rw [Int.cast_abs] at this
    exact mul_lt_mul_of_pos_right this (ten_zpow_pos e)
  have h2 : Int.log 10 |x| < (p : ℤ) + e :=
    (zpow_lt_zpow_iff_right₀ (by norm_num : (1 : ℚ) < 10)).mp ((zpow_log_le hx).trans_lt h1)
  unfold lastDigit
  omega

/-- Numbers that fit are kept. -/
theorem Ctx.fix_of_digits {p : ℕ} {x : ℚ} (h : Digits p x) : (Ctx.mk (some p)).fix x = x := by
  by_cases hx : x = 0
  · rw [hx, Ctx.fix_zero]
  · obtain ⟨m, e, hme, hm⟩ := h
    obtain ⟨k, hk⟩ := exists_mul_zpow (lastDigit_le hx hme hm) m
    rw [Ctx.fix_some hx]
    nth_rewrite 2 [hme]
    rw [hk, quantize_of_mul, ← hk, ← hme]

/-- The leading power of ten of a positive number survives rounding. -/
theorem zpow_log_le_fix {p : ℕ} (hp : 0 < p) {x : ℚ} (hx : 0 < x) :
    (10 : ℚ) ^ Int.log 10 |x| ≤ (Ctx.mk (some p)).fix x := by
  rw [Ctx.fix_some hx.ne']
  have he : lastDigit p x ≤ Int.log 10 |x| := by unfold lastDigit; omega
  obtain ⟨k, hk⟩ := exists_mul_zpow he 1
  rw [Int.cast_one, one_mul] at hk
  rw [hk]
  refine le_quantize ?_
  rw [← hk]
  exact (zpow_log_le hx.ne').trans (abs_of_pos hx).le

theorem Ctx.fix_pos {p : ℕ} (hp : 0 < p) {x : ℚ} (hx : 0 < x) : 0 < (Ctx.mk (some p)).fix x :=
  (ten_zpow_pos _).trans_le (zpow_log_le_fix hp hx)

/-- **Monotone against the numbers that fit**: rounding does not pass below one of them. -/
theorem Ctx.le_fix {p : ℕ} (hp : 0 < p) {a x : ℚ} (ha : Digits p a) (h0 : 0 ≤ a) (h : a ≤ x) :
    a ≤ (Ctx.mk (some p)).fix x := by
  by_cases hx : x = 0
  · rw [hx, Ctx.fix_zero, ← hx]; exact h
  have hxpos : 0 < x := lt_of_le_of_ne (h0.trans h) (Ne.symm hx)
  obtain ⟨m, e, hme, hm⟩ := ha
  by_cases he : lastDigit p x ≤ e
  · -- `a` is a multiple of the quantum
    obtain ⟨k, hk⟩ := exists_mul_zpow he m
    rw [Ctx.fix_some hx, hme, hk]
    exact le_quantize (by rw [← hk, ← hme]; exact h)
  · -- `a` lies below the leading power of ten of `x`
    refine le_trans ?_ (zpow_log_le_fix hp hxpos)
    have h1 : a < (10 : ℚ) ^ ((p : ℤ) + e) := by
      rw [hme, zpow_add₀ (by norm_num), zpow_natCast]
      have : (m : ℚ) < 10 ^ p := by exact_mod_cast (le_abs_self m).trans_lt hm
      exact mul_lt_mul_of_pos_right this (ten_zpow_pos e)
    refine h1.le.trans (zpow_le_zpow_right₀ (by norm_num) ?_)
    unfold lastDigit at he
    omega

theorem digits_quantize {p : ℕ} (hp : 0 < p) (x : ℚ) : Digits p (quantize (lastDigit p x) x) := by
  set n := halfEven (x / 10 ^ lastDigit p x) with hn
  have hpos := ten_zpow_pos (lastDigit p x)
  have hlt : |x / 10 ^ lastDigit p x| < (10 : ℚ) ^ p := by
    rw [abs_div, abs_of_pos hpos, div_lt_iff₀ hpos, ← zpow_natCast, ← zpow_add₀ (by norm_num)]
    have : (p : ℤ) + lastDigit p x = Int.log 10 |x| + 1 := by unfold lastDigit; ring
    rw [this]
    exact lt_zpow_log_add_one x
  have hle : |n| ≤ 10 ^ p := by
    obtain ⟨h1, h2⟩ := abs_lt.mp hlt
    refine abs_le.mpr ⟨?_, ?_⟩
    · exact le_halfEven (by push_cast; exact h1.le)
    · exact halfEven_le (by push_cast; exact h2.le)
  rcases hle.lt_or_eq with h | h
  · exact ⟨n, lastDigit p x, rfl, h⟩
  · -- the carry `10 ^ p` is one digit, `p` places higher
    refine ⟨Int.sign n, lastDigit p x + p, ?_, ?_⟩
    · have hs : n = Int.sign n * 10 ^ p := by rw [← h, Int.sign_mul_abs]
      unfold quantize
      rw [← hn, zpow_add₀ (by norm_num), zpow_natCast]
      nth_rewrite 1 [hs]
      push_cast
      ring
    · refine lt_of_le_of_lt ?_ (one_lt_pow₀ (by norm_num : (1 : ℤ) < 10) hp.ne')
      rcases Int.sign_trichotomy n with h | h | h <;> simp [h]

/-- Results of a context have at most `prec` digits. -/
theorem Ctx.digits_fix {p : ℕ} (hp : 0 < p) (x : ℚ) : Digits p ((Ctx.mk (some p)).fix x) := by
  by_cases hx : x = 0
  · rw [hx, Ctx.fix_zero]; exact digits_zero p
  · rw [Ctx.fix_some hx]; exact digits_quantize hp x

/-- A natural number whose rounded value stays below `10 ^ p` is not rounded. -/
theorem Ctx.fix_natCast_of_lt {p n : ℕ} (hp : 0 < p) (h : (Ctx.mk (some p)).fix (n : ℚ) < 10 ^ p) :
    (Ctx.mk (some p)).fix (n : ℚ) = n := by
  by_cases hn : n < 10 ^ p
  · exact Ctx.fix_of_digits (digits_natCast hn)
  · have hd : Digits p ((10 : ℚ) ^ p) :=
      ⟨1, p, by simp, by rw [abs_one]; exact one_lt_pow₀ (by norm_num) hp.ne'⟩
    have := Ctx.le_fix hp hd (by positivity) (x := n) (by exact_mod_cast not_lt.mp hn)
    exact absurd h (not_lt.mpr this)

/-- The rounded value of a nonzero number lies between the powers of ten around it. -/
theorem fix_between {p : ℕ} (hp : 0 < p) {x : ℚ} (hx : x ≠ 0) {n : ℤ} (hn : Int.log 10 |x| ≤ n) {k : ℤ} :
    (k * 10 ^ n ≤ x → k * 10 ^ n ≤ (Ctx.mk (some p)).fix x) ∧ (x ≤ k * 10 ^ n → (Ctx.mk (some p)).fix x ≤ k * 10 ^ n) := by
  have he : lastDigit p x ≤ n := by unfold lastDigit; omega
  obtain ⟨m, hm⟩ := exists_mul_zpow he k
  rw [Ctx.fix_some hx, hm]
  exact ⟨le_quantize, quantize_le⟩

/-- **Rounding is monotone.** -/
theorem Ctx.fix_mono {p : ℕ} (hp : 0 < p) {x y : ℚ} (h : x ≤ y) :
    (Ctx.mk (some p)).fix x ≤ (Ctx.mk (some p)).fix y := by
  have hsign : ∀ z : ℚ, (0 ≤ z → 0 ≤ (Ctx.mk (some p)).fix z) ∧ (z ≤ 0 → (Ctx.mk (some p)).fix z ≤ 0) := by
    intro z
    by_cases hz : z = 0
    · rw [hz, Ctx.fix_zero]
      exact ⟨fun _ => le_rfl, fun _ => le_rfl⟩
    · have := fix_between hp hz (le_refl _) (k := 0)
      simpa using this
  rcases le_or_gt 0 x with hx0 | hx0
  · rcases hx0.eq_or_lt with rfl | hx
    · rw [Ctx.fix_zero]
      exact (hsign y).1 h
    have hy : 0 < y := hx.trans_le h
    rcases (Int.log_mono_right (b := 10) (abs_pos.mpr hx.ne') (abs_le_abs_of_nonneg hx.le h)).lt_or_eq with hlt | heq
    · calc (Ctx.mk (some p)).fix x ≤ 10 ^ (Int.log 10 |x| + 1) := by
            have := (fix_between hp hx.ne' (Int.le_add_one le_rfl) (k := 1)).2
            rw [Int.cast_one, one_mul] at this
            exact this ((abs_of_pos hx).ge.trans (lt_zpow_log_add_one x).le)
        _ ≤ 10 ^ Int.log 10 |y| := zpow_le_zpow_right₀ (by norm_num) hlt
        _ ≤ (Ctx.mk (some p)).fix y := zpow_log_le_fix hp hy
    · rw [Ctx.fix_some hx.ne', Ctx.fix_some hy.ne', lastDigit, lastDigit, heq]
      exact quantize_mono _ h
  · rcases le_or_gt 0 y with hy0 | hy
    · exact ((hsign x).2 hx0.le).trans ((hsign y).1 hy0)
    have habs : |y| ≤ |x| := by rw [abs_of_neg hy, abs_of_neg hx0]; linarith
    rcases (Int.log_mono_right (b := 10) (abs_pos.mpr hy.ne) habs).lt_or_eq with hlt | heq
    · calc (Ctx.mk (some p)).fix x ≤ -10 ^ Int.log 10 |x| := by
            have := (fix_between hp hx0.ne (le_refl _) (k := -1)).2
            rw [Int.cast_neg, Int.cast_one, neg_one_mul] at this
            refine this ?_
            have := zpow_log_le hx0.ne
            rw [abs_of_neg hx0] at this ⊢
            linarith
        _ ≤ -10 ^ (Int.log 10 |y| + 1) := neg_le_neg (zpow_le_zpow_right₀ (by norm_num) hlt)
        _ ≤ (Ctx.mk (some p)).fix y := by
            have := (fix_between hp hy.ne (Int.le_add_one le_rfl) (k := -1)).1
            rw [Int.cast_neg, Int.cast_one, neg_one_mul] at this
            refine this ?_
            have := (lt_zpow_log_add_one y).le
            rw [abs_of_neg hy] at this ⊢
            linarith
    · rw [Ctx.fix_some hx0.ne, Ctx.fix_some hy.ne, lastDigit, lastDigit, heq]
      exact quantize_mono _ h

/-! ### Half a quantum -/

/-- Above a positive number, rounding reaches the next power of ten or keeps the same last digit. -/
theorem Ctx.fix_above {p : ℕ} (hp : 0 < p) {a y : ℚ} (ha : 0 < a) (h : a ≤ y) :
    (10 : ℚ) ^ (lastDigit p a + p) ≤ (Ctx.mk (some p)).fix y ∨ lastDigit p y = lastDigit p a := by
  have hy : 0 < y := ha.trans_le h
  have hlog : Int.log 10 |a| ≤ Int.log 10 |y| :=
    Int.log_mono_right (abs_pos.mpr ha.ne') (abs_le_abs_of_nonneg ha.le h)
  rcases hlog.lt_or_eq with hlt | heq
  · refine .inl ((zpow_le_zpow_right₀ (by norm_num) ?_).trans (zpow_log_le_fix hp hy))
    unfold lastDigit
    omega
  · right
    unfold lastDigit
    rw [heq]

theorem lt_zpow_lastDigit {p : ℕ} {a : ℚ} (ha : 0 < a) : a < 10 ^ (lastDigit p a + p) := by
  have hlt := lt_zpow_log_add_one a
  rw [abs_of_pos ha] at hlt
  refine hlt.trans_le (zpow_le_zpow_right₀ (by norm_num) ?_)
  unfold lastDigit
  rw [abs_of_pos ha]
  omega

/-- The quantum of a positive number is small against it. -/
theorem zpow_lastDigit_le {p : ℕ} {a : ℚ} (ha : 0 < a) : (10 : ℚ) ^ lastDigit p a ≤ a * 10 ^ (1 - (p : ℤ)) := by
  have hle := zpow_log_le ha.ne'
  have hsplit : lastDigit p a = Int.log 10 |a| + (1 - (p : ℤ)) := by
    unfold lastDigit
    ring
  rw [hsplit, zpow_add₀ (by norm_num)]
  rw [abs_of_pos ha] at hle ⊢
  exact mul_le_mul_of_nonneg_right hle (ten_zpow_pos _).le

/-- **A gain of half a quantum** survives rounding. -/
theorem Ctx.le_fix_of_gain {p : ℕ} (hp : 0 < p) {a y : ℚ} (ha : 0 < a) (h : a + 10 ^ lastDigit p a / 2 ≤ y) :
    a ≤ (Ctx.mk (some p)).fix y := by
  have hpos := ten_zpow_pos (lastDigit p a)
  have hay : a ≤ y := by linarith
  rcases Ctx.fix_above hp ha hay with hnext | hsame
  · exact (lt_zpow_lastDigit ha).le.trans hnext
  · rw [Ctx.fix_some (ha.trans_le hay).ne', hsame]
    have hnear := (abs_le.mp (abs_quantize_sub_le (lastDigit p a) y)).1
    linarith

/-- **A loss of half a quantum** survives rounding. -/
theorem Ctx.fix_le_of_loss {p : ℕ} {a y : ℚ} (hy : 0 < y) (h : y + 10 ^ lastDigit p a / 2 ≤ a) :
    (Ctx.mk (some p)).fix y ≤ a := by
  have hpos := ten_zpow_pos (lastDigit p a)
  have hya : y ≤ a := by linarith
  have hlog : Int.log 10 |y| ≤ Int.log 10 |a| :=
    Int.log_mono_right (abs_pos.mpr hy.ne') (abs_le_abs_of_nonneg hy.le hya)
  have hdigit : (10 : ℚ) ^ lastDigit p y ≤ 10 ^ lastDigit p a :=
    zpow_le_zpow_right₀ (by norm_num) (by unfold lastDigit; omega)
  rw [Ctx.fix_some hy.ne']
  have hnear := (abs_le.mp (abs_quantize_sub_le (lastDigit p y) y)).2
  linarith

/-- **More than half a quantum** above a number with `p` digits, rounding reaches the next one. -/
theorem Ctx.next_le_fix {p : ℕ} (hp : 0 < p) {m e : ℤ} {y : ℚ} (hm : 0 < m) (he : lastDigit p (m * 10 ^ e) = e)
    (h : (m + 1 / 2) * 10 ^ e < y) : (m + 1) * 10 ^ e ≤ (Ctx.mk (some p)).fix y := by
  have hpos := ten_zpow_pos e
  have ha : (0 : ℚ) < m * 10 ^ e := mul_pos (by exact_mod_cast hm) hpos
  have hay : (m : ℚ) * 10 ^ e ≤ y := by linarith
  rcases Ctx.fix_above hp ha hay with hnext | hsame
  · have hlt := @lt_zpow_lastDigit p _ ha
    rw [he, zpow_add₀ (by norm_num), zpow_natCast] at hnext hlt
    have hm' : (m : ℚ) < 10 ^ p := lt_of_mul_lt_mul_right (by rwa [mul_comm (10 ^ e)] at hlt) hpos.le
    have hsucc : (m : ℚ) + 1 ≤ 10 ^ p := by exact_mod_cast Int.add_one_le_of_lt (by exact_mod_cast hm')
    rw [mul_comm (10 ^ e)] at hnext
    exact (mul_le_mul_of_nonneg_right hsucc hpos.le).trans hnext
  · rw [Ctx.fix_some (ha.trans_le hay).ne', hsame, he]
    have hnext : m + 1 ≤ halfEven (y / 10 ^ e) := lt_halfEven ((lt_div_iff₀ hpos).mpr h)
    exact mul_le_mul_of_nonneg_right (by exact_mod_cast hnext) hpos.le

/-! ### Conversion to an integer -/

/-- `int(x)`: truncation towards zero. -/
def pyInt (x : ℚ) : ℤ := if 0 ≤ x then ⌊x⌋ else ⌈x⌉

@[simp] theorem pyInt_natCast (n : ℕ) : pyInt (n : ℚ) = n := by simp [pyInt]

end AlphaAlgo
