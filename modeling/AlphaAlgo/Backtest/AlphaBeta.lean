import AlphaAlgo.Backtest.Fills
import AlphaAlgo.Backtest.Metrics
import AlphaAlgo.Backtest.Var

/-!
# AlphaBeta — alpha and beta against a benchmark

`computeAlphaBeta` compares the returns of a run with those of a benchmark of the same length.  It reports neither number
below two observations, nor where the variance of the benchmark comes out as zero.

* `variance_eq_zero_iff`: the computed variance is zero exactly when every return is the computed mean.
* `undefined_iff`: alpha and beta are missing exactly below two observations or for a flat benchmark, unless the benchmark
  is flat at a value that its computed mean misses.
* `averages_of_short`: the mean of copies does not miss a value that is short enough.
-/

namespace AlphaAlgo.Backtest

open Loop

/-- The last fields are the checks of `__post_init__`. -/
structure AlphaBetaMetrics where
  benchmarkIdentity : String
  frequency : String
  observationCount : ℕ
  alpha : Option ℚ
  beta : Option ℚ
  identity_nonempty : benchmarkIdentity ≠ ""
  frequency_nonempty : frequency ≠ ""
  together : alpha = none ↔ beta = none

/-- What labels a comparison. -/
structure Labels where
  benchmarkIdentity : String
  frequency : String

/-- `_validate_aligned`. -/
def validateAligned (portfolio benchmark : List Decimal) : Except RiskError (List ℚ × List ℚ) := do
  raiseIf (portfolio.length ≠ benchmark.length) (.riskMeasure
    ("portfolio and benchmark must be aligned (got " ++ toString portfolio.length ++ " vs " ++
      toString benchmark.length ++ ")"))
  let p ← portfolio.mapM (finiteValue "portfolio must contain only finite Decimals")
  let b ← benchmark.mapM (finiteValue "benchmark must contain only finite Decimals")
  return (p, b)

section

variable (c : Ctx)

/-- `sum(values) / n`. -/
def contextMean (values : List ℚ) : ℚ := c.fix (contextTotal c values / values.length)

/-- The population covariance. -/
def covariance (portfolio benchmark : List ℚ) : ℚ :=
  contextMean c (List.zipWith (fun p b => c.fix (c.fix (p - contextMean c portfolio) * c.fix (b - contextMean c benchmark)))
    portfolio benchmark)

/-- The population variance; a square is rounded once. -/
def variance (values : List ℚ) : ℚ := contextMean c (values.map fun x => c.fix (c.fix (x - contextMean c values) ^ 2))

/-- Alpha and beta, where they are defined. -/
def alphaBeta (portfolio benchmark : List ℚ) (riskFree : ℚ) : Option (ℚ × ℚ) :=
  if portfolio.length < 2 then none
  else if variance c benchmark = 0 then none
  else
    let beta := c.fix (covariance c portfolio benchmark / variance c benchmark)
    let alpha := c.fix (c.fix (contextMean c portfolio - riskFree) -
      c.fix (beta * c.fix (contextMean c benchmark - riskFree)))
    some (alpha, beta)

def computeAlphaBeta (portfolio benchmark : List Decimal) (riskFreeRatePerPeriod : Decimal) (labels : Labels) :
    Except RiskError AlphaBetaMetrics := do
  let (p, b) ← validateAligned portfolio benchmark
  let riskFree ← finiteValue "risk_free_rate_per_period must be a non-negative finite Decimal" riskFreeRatePerPeriod
  raiseIf (riskFree < 0) (.riskMeasure "risk_free_rate_per_period must be a non-negative finite Decimal")
  if hidentity : labels.benchmarkIdentity = "" then throw (.riskMeasure "benchmark_identity must be a non-empty string")
  else if hfrequency : labels.frequency = "" then throw (.riskMeasure "frequency must be a non-empty string")
  else
    return {
      benchmarkIdentity := labels.benchmarkIdentity
      frequency := labels.frequency
      observationCount := p.length
      alpha := (alphaBeta c p b riskFree).map Prod.fst
      beta := (alphaBeta c p b riskFree).map Prod.snd
      identity_nonempty := hidentity
      frequency_nonempty := hfrequency
      together := by rw [Option.map_eq_none_iff, Option.map_eq_none_iff] }

end

/-! ### The variance of a series -/

section Variance

variable {p : ℕ} {values : List ℚ}

theorem fix_eq_zero_iff (hp : 0 < p) {x : ℚ} : (Ctx.mk (some p)).fix x = 0 ↔ x = 0 := by
  constructor
  · intro h
    by_contra hx
    rcases lt_or_gt_of_ne hx with hneg | hpos
    · have := Ctx.fix_pos hp (neg_pos.mpr hneg)
      rw [Ctx.fix_neg, h, neg_zero] at this
      exact lt_irrefl 0 this
    · exact absurd h (Ctx.fix_pos hp hpos).ne'
  · rintro rfl
    exact Ctx.fix_zero _

/-- A running sum of numbers that are not negative grows. -/
theorem le_foldl_fix (hp : 0 < p) : ∀ {l : List ℚ} {s : ℚ}, 0 ≤ s → Digits p s → (∀ x ∈ l, 0 ≤ x) →
    s ≤ l.foldl (fun total x => (Ctx.mk (some p)).fix (total + x)) s
  | [], _, _, _, _ => le_rfl
  | x :: l, s, hs, hd, h => by
    have hstep : s ≤ (Ctx.mk (some p)).fix (s + x) :=
      Ctx.le_fix hp hd hs (le_add_of_nonneg_right (h x List.mem_cons_self))
    exact hstep.trans (le_foldl_fix hp (hs.trans hstep) (Ctx.digits_fix hp _)
      fun y hy => h y (List.mem_cons_of_mem _ hy))

/-- **A computed sum of numbers that are not negative** is zero only where all of them are. -/
theorem contextTotal_eq_zero_iff (hp : 0 < p) (h : ∀ x ∈ values, 0 ≤ x) :
    contextTotal ⟨some p⟩ values = 0 ↔ ∀ x ∈ values, x = 0 := by
  induction values with
  | nil => simp [contextTotal]
  | cons x l ih =>
    have hx : 0 ≤ x := h x List.mem_cons_self
    have hl : ∀ y ∈ l, 0 ≤ y := fun y hy => h y (List.mem_cons_of_mem _ hy)
    rw [contextTotal, List.foldl_cons, zero_add, List.forall_mem_cons]
    by_cases hzero : x = 0
    · rw [hzero, Ctx.fix_zero]
      exact (ih hl).trans (by simp)
    · have hpos : 0 < (Ctx.mk (some p)).fix x := Ctx.fix_pos hp (lt_of_le_of_ne hx (Ne.symm hzero))
      have hgrown := le_foldl_fix hp hpos.le (Ctx.digits_fix hp x) hl
      constructor
      · exact fun heq => absurd heq (hpos.trans_le hgrown).ne'
      · exact fun hall => absurd hall.1 hzero

/-- **The computed variance** is zero exactly where every value is the computed mean. -/
theorem variance_eq_zero_iff (hne : values ≠ []) :
    variance .default values = 0 ↔ ∀ x ∈ values, x = contextMean .default values := by
  have hp : 0 < 28 := by norm_num
  have hsquares : ∀ y ∈ values.map (fun x => Ctx.default.fix (Ctx.default.fix (x - contextMean .default values) ^ 2)),
      0 ≤ y := by
    intro y hy
    obtain ⟨x, -, rfl⟩ := List.mem_map.mp hy
    exact fix_nonneg_iff.mpr (sq_nonneg _)
  have hlength : ((values.map fun x =>
      Ctx.default.fix (Ctx.default.fix (x - contextMean .default values) ^ 2)).length : ℚ) ≠ 0 := by
    rw [List.length_map]
    exact_mod_cast (List.length_pos_iff.mpr hne).ne'
  have hfix : ∀ x : ℚ, Ctx.default.fix x = 0 ↔ x = 0 := fun _ => fix_eq_zero_iff hp
  have htotal := contextTotal_eq_zero_iff hp hsquares
  rw [variance, contextMean, hfix, div_eq_zero_iff, or_iff_left hlength]
  refine htotal.trans ?_
  rw [List.forall_mem_map]
  refine forall₂_congr fun x _ => ?_
  rw [hfix, sq_eq_zero_iff, hfix, sub_eq_zero]

end Variance

/-! ### Undefined numbers -/

section Undefined

variable {portfolio benchmark : List Dec} {riskFree : Dec} {labels : Labels}

/-- All values are equal. -/
def Flat (values : List ℚ) : Prop := ∀ x ∈ values, ∀ y ∈ values, x = y

/-- The computed mean of `n` copies of a value is the value. -/
def Averages (n : ℕ) (v : ℚ) : Prop := contextMean .default (List.replicate n v) = v

/-- A sum of copies that keeps within 28 digits is not rounded. -/
theorem contextTotal_replicate {v : ℚ} {m e : ℤ} (hv : v = m * 10 ^ e) : ∀ {n : ℕ}, n * |m| < 10 ^ 28 →
    contextTotal .default (List.replicate n v) = n * v
  | 0, _ => by simp [contextTotal]
  | n + 1, h => by
    have hless : n * |m| < 10 ^ 28 := by
      refine lt_of_le_of_lt (mul_le_mul_of_nonneg_right ?_ (abs_nonneg m)) h
      push_cast
      omega
    have hdigits : Digits 28 (n * v + v) := by
      refine ⟨(n + 1 : ℕ) * m, e, ?_, ?_⟩
      · rw [hv]
        push_cast
        ring
      · rwa [abs_mul, Nat.abs_cast]
    have hfold : contextTotal .default (List.replicate n v ++ [v]) =
        Ctx.default.fix (contextTotal .default (List.replicate n v) + v) := by
      rw [contextTotal, List.foldl_append]
      rfl
    rw [List.replicate_succ', hfold, contextTotal_replicate hv hless, Ctx.default, Ctx.fix_of_digits hdigits]
    push_cast
    ring

/-- **A short value**: `n` times its digits are fewer than `10 ^ 28`. -/
theorem averages_of_short {n : ℕ} (hn : 0 < n) {d : Dec} (h : n * d.coeff < 10 ^ 28) : Averages n d.val := by
  have hval : d.val = (((if d.neg then -1 else 1) * d.coeff : ℤ) : ℚ) * 10 ^ d.exp := by
    unfold Dec.val
    push_cast
    rfl
  have habs : |((if d.neg then -1 else 1) * d.coeff : ℤ)| = d.coeff := by
    rw [abs_mul, Nat.abs_cast]
    split <;> simp
  have hcoeff : n * |((if d.neg then -1 else 1) * d.coeff : ℤ)| < 10 ^ 28 := by
    rw [habs]
    exact_mod_cast h
  have hone : |((if d.neg then -1 else 1) * d.coeff : ℤ)| < 10 ^ 28 := by
    refine lt_of_le_of_lt (le_mul_of_one_le_left (abs_nonneg _) ?_) hcoeff
    exact_mod_cast hn
  have hzero : (n : ℚ) ≠ 0 := by exact_mod_cast hn.ne'
  rw [Averages, contextMean, contextTotal_replicate hval hcoeff, List.length_replicate, mul_div_cancel_left₀ _ hzero]
  exact Ctx.fix_of_digits ⟨_, _, hval, hone⟩

/-- A flat series has no variance exactly when its mean is computed as its value; any other series has some. -/
theorem variance_eq_zero_iff_flat {values : List ℚ} (hne : values ≠ []) :
    variance .default values = 0 ↔ Flat values ∧ ∀ v ∈ values, Averages values.length v := by
  rw [variance_eq_zero_iff hne]
  have hreplicate : ∀ v, (∀ x ∈ values, x = v) → contextMean .default (List.replicate values.length v) =
      contextMean .default values := by
    intro v hv
    rw [← List.eq_replicate_length.mpr hv]
  constructor
  · intro h
    refine ⟨fun x hx y hy => (h x hx).trans (h y hy).symm, fun v hv => ?_⟩
    have hall : ∀ x ∈ values, x = v := fun x hx => (h x hx).trans (h v hv).symm
    exact (hreplicate v hall).trans (h v hv).symm
  · rintro ⟨hflat, hmean⟩ x hx
    exact ((hreplicate x fun y hy => hflat y hy x hx).symm.trans (hmean x hx)).symm

theorem validateAligned_finite (h : portfolio.length = benchmark.length) :
    validateAligned (portfolio.map .finite) (benchmark.map .finite) =
      .ok (portfolio.map Dec.val, benchmark.map Dec.val) := by
  have hlength : ¬(portfolio.map Decimal.finite).length ≠ (benchmark.map Decimal.finite).length := by simp [h]
  rw [validateAligned, raiseIf, if_neg hlength, mapM_finiteValue, mapM_finiteValue]
  rfl

/-- What is answered for accepted arguments. -/
theorem computeAlphaBeta_finite (h : portfolio.length = benchmark.length) (hrate : 0 ≤ riskFree.val)
    (hidentity : labels.benchmarkIdentity ≠ "") (hfrequency : labels.frequency ≠ "") :
    ∃ m, computeAlphaBeta .default (portfolio.map .finite) (benchmark.map .finite) (.finite riskFree) labels = .ok m ∧
      (m.alpha = none ↔ alphaBeta .default (portfolio.map Dec.val) (benchmark.map Dec.val) riskFree.val = none) := by
  have hvalue : finiteValue "risk_free_rate_per_period must be a non-negative finite Decimal" (.finite riskFree) =
      .ok riskFree.val := rfl
  have hcheck : raiseIf (riskFree.val < 0)
      (RiskError.riskMeasure "risk_free_rate_per_period must be a non-negative finite Decimal") = .ok () :=
    raiseIf_eq_ok.mpr (not_lt.mpr hrate)
  unfold computeAlphaBeta
  rw [validateAligned_finite h, hvalue]
  dsimp only [bind, Except.bind]
  rw [hcheck]
  dsimp only
  rw [dif_neg hidentity, dif_neg hfrequency]
  exact ⟨_, rfl, Option.map_eq_none_iff⟩

theorem alphaBeta_eq_none_iff {p b : List ℚ} {rate : ℚ} :
    alphaBeta .default p b rate = none ↔ p.length < 2 ∨ variance .default b = 0 := by
  unfold alphaBeta
  split_ifs with hlength hvariance <;> simp [*]

/-- **Alpha and beta are missing** exactly below two observations or for a flat benchmark, unless the benchmark is flat
at a value that its computed mean misses.  The exponents of the `Decimal`s are not limited. -/
theorem undefined_iff (portfolio benchmark : List Dec) (h : portfolio.length = benchmark.length) (riskFree : Dec)
    (hrate : 0 ≤ riskFree.val) (labels : Labels) (hidentity : labels.benchmarkIdentity ≠ "")
    (hfrequency : labels.frequency ≠ "") :
    (∃ m, computeAlphaBeta .default (portfolio.map .finite) (benchmark.map .finite) (.finite riskFree) labels = .ok m ∧
      (m.alpha = none ∧ m.beta = none ↔ portfolio.length < 2 ∨ Flat (benchmark.map Dec.val))) ↔
    (2 ≤ portfolio.length → Flat (benchmark.map Dec.val) →
      ∀ v ∈ benchmark.map Dec.val, Averages portfolio.length v) := by
  obtain ⟨m, hm, hnone⟩ := computeAlphaBeta_finite h hrate hidentity hfrequency
  have hboth : m.alpha = none ∧ m.beta = none ↔ m.alpha = none := ⟨And.left, fun h => ⟨h, m.together.mp h⟩⟩
  rw [alphaBeta_eq_none_iff, List.length_map] at hnone
  have hresult : (∃ m', computeAlphaBeta .default (portfolio.map .finite) (benchmark.map .finite) (.finite riskFree)
        labels = .ok m' ∧ (m'.alpha = none ∧ m'.beta = none ↔ portfolio.length < 2 ∨ Flat (benchmark.map Dec.val))) ↔
      (portfolio.length < 2 ∨ variance .default (benchmark.map Dec.val) = 0 ↔
        portfolio.length < 2 ∨ Flat (benchmark.map Dec.val)) := by
    constructor
    · rintro ⟨m', hm', hiff⟩
      rw [hm] at hm'
      cases hm'
      exact hnone.symm.trans (hboth.symm.trans hiff)
    · exact fun hiff => ⟨m, hm, hboth.trans (hnone.trans hiff)⟩
  rw [hresult]
  by_cases hfew : portfolio.length < 2
  · exact iff_of_true (by simp [hfew]) fun htwo => absurd hfew (not_lt.mpr htwo)
  · have hne : benchmark.map Dec.val ≠ [] := by
      rw [← List.length_pos_iff, List.length_map, ← h]
      omega
    rw [or_iff_right hfew, or_iff_right hfew, variance_eq_zero_iff_flat hne, List.length_map, ← h]
    constructor
    · exact fun hiff _ hflat => (hiff.mpr hflat).2
    · exact fun hmean => ⟨And.left, fun hflat => ⟨hflat, hmean (not_lt.mp hfew) hflat⟩⟩

/-- Two returns against a flat benchmark at one percent. -/
theorem undefined_iff_two : ∃ m, computeAlphaBeta .default ([⟨false, 1, -2⟩, ⟨false, 2, -2⟩].map .finite)
    ([⟨false, 1, -2⟩, ⟨false, 1, -2⟩].map .finite) (.finite (.ofNat 0)) ⟨"bench", "daily"⟩ = .ok m ∧
      (m.alpha = none ∧ m.beta = none ↔
        2 < 2 ∨ Flat (List.map Dec.val [⟨false, 1, -2⟩, ⟨false, 1, -2⟩])) := by
  refine (undefined_iff [⟨false, 1, -2⟩, ⟨false, 2, -2⟩] [⟨false, 1, -2⟩, ⟨false, 1, -2⟩] rfl (.ofNat 0)
    (by decide +kernel) ⟨"bench", "daily"⟩ (by decide) (by decide)).mpr fun _ _ => List.forall_mem_map.mpr fun d hd => ?_
  have hshort : ∀ d ∈ ([⟨false, 1, -2⟩, ⟨false, 1, -2⟩] : List Dec), 2 * d.coeff < 10 ^ 28 := by decide
  exact averages_of_short (by decide) (hshort d hd)

/-- Three equal returns of the benchmark whose sum has 29 digits. -/
theorem not_undefined_flat : ¬∀ (portfolio benchmark : List Dec) (riskFree : Dec) (labels : Labels),
    portfolio.length = benchmark.length → 0 ≤ riskFree.val → labels.benchmarkIdentity ≠ "" → labels.frequency ≠ "" →
    ∃ m, computeAlphaBeta .default (portfolio.map .finite) (benchmark.map .finite) (.finite riskFree) labels = .ok m ∧
      (m.alpha = none ∧ m.beta = none ↔ portfolio.length < 2 ∨ Flat (benchmark.map Dec.val)) := by
  intro hall
  obtain ⟨m, hm, hiff⟩ := hall (List.replicate 3 (.ofNat 0)) (List.replicate 3 ⟨false, 4 * 10 ^ 27 + 1, -28⟩) (.ofNat 0)
    ⟨"bench", "daily"⟩ rfl (by decide +kernel) (by decide) (by decide)
  have hflat : Flat ((List.replicate 3 (⟨false, 4 * 10 ^ 27 + 1, -28⟩ : Dec)).map Dec.val) := by
    intro x hx y hy
    rw [List.map_replicate] at hx hy
    exact (List.eq_of_mem_replicate hx).trans (List.eq_of_mem_replicate hy).symm
  have hdefined : (computeAlphaBeta .default ((List.replicate 3 (.ofNat 0)).map .finite)
      ((List.replicate 3 ⟨false, 4 * 10 ^ 27 + 1, -28⟩).map .finite) (.finite (.ofNat 0)) ⟨"bench", "daily"⟩).toOption.any
        (fun m => m.alpha.isSome) = true := by
    decide +kernel
  rw [hm] at hdefined
  have hnone := (hiff.mpr (.inr hflat)).1
  rw [Except.toOption, Option.any_some, hnone] at hdefined
  cases hdefined

end Undefined

end AlphaAlgo.Backtest
