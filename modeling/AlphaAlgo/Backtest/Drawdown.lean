import AlphaAlgo.Backtest.Metrics
import AlphaAlgo.Lib.Peaks

/-!
# Drawdown — the drawdowns of the metrics and of the report

Both packages keep a running peak.  Their ratios are the same, computed with 28 digits; without rounding the largest is
the greatest relative loss from an equity to a later one.

* `drawdownRatio_near`: what the two roundings of a ratio change.
* `maxDrawdown_eq`, `computeDrawdownSeries_ok`: the two loops, over the curve with its peaks.
* `maxDrawdown_agrees`: the two implementations against all pairs.
-/

namespace AlphaAlgo.Backtest

open Loop

/-! ### The series of the report -/

/-- What the functions of the report raise. -/
inductive ReportError where
  | report (text : String)
  | metrics (text : String)
deriving DecidableEq

/-- The last six fields are the checks of `__post_init__`. -/
structure DrawdownPoint where
  timestamp : DateTime
  equity : ℚ
  peakEquity : ℚ
  drawdownRatio : ℚ
  drawdownAmount : ℚ
  timestamp_aware : timestamp.aware = true
  equity_pos : 0 < equity
  peak_pos : 0 < peakEquity
  ratio_nonneg : 0 ≤ drawdownRatio
  ratio_le_one : drawdownRatio ≤ 1
  amount_nonneg : 0 ≤ drawdownAmount

def makeDrawdownPoint (timestamp : DateTime) (equity peakEquity drawdownRatio drawdownAmount : ℚ) :
    Except ReportError DrawdownPoint :=
  if timestamp_aware : timestamp.aware = true then
    if positive : 0 < equity ∧ 0 < peakEquity then
      if ratio : 0 ≤ drawdownRatio ∧ drawdownRatio ≤ 1 then
        if amount_nonneg : 0 ≤ drawdownAmount then
          .ok ⟨timestamp, equity, peakEquity, drawdownRatio, drawdownAmount, timestamp_aware, positive.1, positive.2,
            ratio.1, ratio.2, amount_nonneg⟩
        else .error (.report "DrawdownPoint.drawdown_amount must be non-negative")
      else .error (.report "DrawdownPoint.drawdown_ratio must be in [0, 1]")
    else .error (.report "DrawdownPoint equity values must be positive")
  else .error (.report "DrawdownPoint.timestamp must be timezone-aware")

/-- `_validate_equity_curve`. -/
def validateEquityCurve (equityCurve : List EquityPoint) : Except ReportError Unit := do
  raiseIf (equityCurve = []) (.report "equity_curve must be a non-empty tuple of EquityPoint")
  raiseIf (∃ point ∈ equityCurve, point.equity ≤ 0)
    (.metrics "marked equity must stay positive to compute honest reports")

/-- The loop of `compute_drawdown_series`. -/
def drawdownPoints : ℚ → List EquityPoint → Except ReportError (List DrawdownPoint)
  | _, [] => .ok []
  | peak, point :: rest => do
    let peak := if peak < point.equity then point.equity else peak
    let drawdownAmount := Ctx.default.fix (peak - point.equity)
    let drawdown ← makeDrawdownPoint point.timestamp point.equity peak (Ctx.default.fix (drawdownAmount / peak))
      drawdownAmount
    let drawdowns ← drawdownPoints peak rest
    return drawdown :: drawdowns

def computeDrawdownSeries (equityCurve : List EquityPoint) : Except ReportError (List DrawdownPoint) := do
  validateEquityCurve equityCurve
  match equityCurve with
  | [] => return []
  | first :: rest => drawdownPoints first.equity (first :: rest)

/-! ### The ratios -/

/-- The relative loss from an equity to a later one. -/
def loss (earlier later : ℚ) : ℚ := (earlier - later) / earlier

theorem roundings_one : Ctx.default.fix 1 = 1 ∧ Ctx.default.fix (1 + 5 / 10 ^ 28) = 1 ∧
    Ctx.default.fix (1 - 1 / 10 ^ 30) = 1 := by
  decide +kernel

section Ratio

variable {peak equity : ℚ}

theorem fix_near {x : ℚ} (hx : 0 ≤ x) : |Ctx.default.fix x - x| ≤ x * (5 / 10 ^ 28) := by
  rcases hx.eq_or_lt with rfl | hx
  · rw [Ctx.fix_zero]
    simp
  · have hnear : |Ctx.default.fix x - x| ≤ 10 ^ lastDigit 28 x / 2 := by
      show |(Ctx.mk (some 28)).fix x - x| ≤ _
      rw [Ctx.fix_some hx.ne']
      exact abs_quantize_sub_le _ _
    have hquantum := @zpow_lastDigit_le 28 x hx
    norm_num at hquantum ⊢
    linarith

/-- The ratio before its last rounding. -/
theorem quotient_near (hpeak : 0 < peak) (hequity : equity ≤ peak) (h0 : 0 < equity) :
    |Ctx.default.fix (peak - equity) / peak - loss peak equity| ≤ 5 / 10 ^ 28 := by
  have hnear := fix_near (sub_nonneg.mpr hequity)
  rw [loss, ← sub_div, abs_div, abs_of_pos hpeak, div_le_iff₀ hpeak]
  refine hnear.trans ?_
  rw [mul_comm]
  exact mul_le_mul_of_nonneg_left (by linarith) (by norm_num)

theorem loss_lt_one (hpeak : 0 < peak) (h0 : 0 < equity) : loss peak equity < 1 := by
  rw [loss, div_lt_one hpeak]
  linarith

/-- The loss grows with the earlier equity. -/
theorem loss_mono {a b : ℚ} (ha : 0 < a) (h0 : 0 < equity) (hab : a ≤ b) : loss a equity ≤ loss b equity := by
  have hb : 0 < b := ha.trans_le hab
  rw [loss, loss, sub_div, sub_div, div_self ha.ne', div_self hb.ne']
  exact sub_le_sub_left (div_le_div_of_nonneg_left h0.le ha hab) 1

theorem drawdownRatio_nonneg (hpeak : 0 < peak) (hequity : equity ≤ peak) : 0 ≤ drawdownRatio peak equity :=
  fix_nonneg (div_nonneg (fix_nonneg (sub_nonneg.mpr hequity)) hpeak.le)

theorem drawdownRatio_le_one (hpeak : 0 < peak) (hequity : equity ≤ peak) (h0 : 0 < equity) :
    drawdownRatio peak equity ≤ 1 := by
  have hnear := (abs_le.mp (quotient_near hpeak hequity h0)).2
  have hlt := loss_lt_one hpeak h0
  have hle : Ctx.default.fix (peak - equity) / peak ≤ 1 + 5 / 10 ^ 28 := by linarith
  have hfix := fix_le_fix hle
  rwa [roundings_one.2.1] at hfix

/-- **What rounding changes** in a ratio. -/
theorem drawdownRatio_near (hpeak : 0 < peak) (hequity : equity ≤ peak) (h0 : 0 < equity) :
    |drawdownRatio peak equity - loss peak equity| ≤ 1 / 10 ^ 27 := by
  have hquotient := quotient_near hpeak hequity h0
  have hlt := loss_lt_one hpeak h0
  have hquotient_nonneg : 0 ≤ Ctx.default.fix (peak - equity) / peak :=
    div_nonneg (fix_nonneg (sub_nonneg.mpr hequity)) hpeak.le
  rw [abs_le] at hquotient ⊢
  rcases le_or_gt (Ctx.default.fix (peak - equity) / peak) 1 with hle | hgt
  · have hnear := abs_le.mp (fix_near hquotient_nonneg)
    have hbound := mul_le_mul_of_nonneg_right hle (by norm_num : (0 : ℚ) ≤ 5 / 10 ^ 28)
    unfold drawdownRatio
    constructor <;> norm_num at * <;> linarith
  · -- the ratio is rounded to 1
    have hone : drawdownRatio peak equity = 1 := by
      refine le_antisymm (drawdownRatio_le_one hpeak hequity h0) ?_
      have hfix := fix_le_fix hgt.le
      rwa [roundings_one.1] at hfix
    rw [hone]
    constructor <;> norm_num at * <;> linarith

end Ratio

/-! ### Both loops run over the curve with its peaks -/

/-- The equities, each with its running peak. -/
def marks : List ℚ → List (ℚ × ℚ)
  | [] => []
  | first :: rest => marked first (first :: rest)

theorem ite_lt_eq_max (a b : ℚ) : (if a < b then b else a) = max a b := by
  rcases le_or_gt b a with h | h
  · rw [if_neg (not_lt.mpr h), max_eq_left h]
  · rw [if_pos h, max_eq_right h.le]

theorem foldl_step : ∀ (values : List ℚ) (s : Peak), (values.foldl Peak.step s).maxDrawdown =
    ((marked s.peak values).map fun q => drawdownRatio q.1 q.2).foldl max s.maxDrawdown
  | [], _ => rfl
  | value :: values, s => by
    have hstep : s.step value = ⟨max s.peak value, max s.maxDrawdown (drawdownRatio (max s.peak value) value)⟩ := by
      unfold Peak.step
      simp only [ite_lt_eq_max]
    rw [List.foldl_cons, hstep, foldl_step values]
    rfl

/-- **The largest drawdown of the metrics** is the greatest of the ratios. -/
theorem maxDrawdown_eq (curve : List ℚ) :
    maxDrawdown curve = ((marks curve).map fun q => drawdownRatio q.1 q.2).foldl max 0 := by
  cases curve with
  | nil => rfl
  | cons first rest => exact foldl_step (first :: rest) ⟨first, 0⟩

theorem makeDrawdownPoint_ok {timestamp : DateTime} {equity peak : ℚ} (haware : timestamp.aware = true)
    (h0 : 0 < equity) (hequity : equity ≤ peak) : ∃ point, makeDrawdownPoint timestamp equity peak
      (drawdownRatio peak equity) (Ctx.default.fix (peak - equity)) = .ok point ∧
      point.drawdownRatio = drawdownRatio peak equity := by
  have hpeak : 0 < peak := h0.trans_le hequity
  have hratio : 0 ≤ drawdownRatio peak equity ∧ drawdownRatio peak equity ≤ 1 :=
    ⟨drawdownRatio_nonneg hpeak hequity, drawdownRatio_le_one hpeak hequity h0⟩
  have hamount : 0 ≤ Ctx.default.fix (peak - equity) := fix_nonneg (sub_nonneg.mpr hequity)
  unfold makeDrawdownPoint
  rw [dif_pos haware, dif_pos ⟨h0, hpeak⟩, dif_pos hratio, dif_pos hamount]
  exact ⟨_, rfl, rfl⟩

theorem drawdownPoints_ok : ∀ {curve : List EquityPoint} {peak : ℚ},
    (∀ point ∈ curve, 0 < point.equity ∧ point.timestamp.aware = true) →
    ∃ points, drawdownPoints peak curve = .ok points ∧ points.map DrawdownPoint.drawdownRatio =
      (marked peak (curve.map EquityPoint.equity)).map fun q => drawdownRatio q.1 q.2
  | [], _, _ => ⟨[], rfl, rfl⟩
  | point :: curve, peak, h => by
    obtain ⟨⟨h0, haware⟩, hcurve⟩ := List.forall_mem_cons.mp h
    obtain ⟨first, hfirst, hratio⟩ := makeDrawdownPoint_ok haware h0 (le_max_right peak point.equity)
    obtain ⟨points, hpoints, hratios⟩ := @drawdownPoints_ok curve (max peak point.equity) hcurve
    refine ⟨first :: points, ?_, ?_⟩
    · simp only [drawdownPoints, bind_eq_ok, ite_lt_eq_max]
      exact ⟨first, hfirst, points, hpoints, rfl⟩
    · rw [List.map_cons, hratio, hratios]
      rfl

/-- **The ratios of the series**; it raises nothing when the equity stays positive. -/
theorem computeDrawdownSeries_ok {curve : List EquityPoint} (hne : curve ≠ [])
    (h : ∀ point ∈ curve, 0 < point.equity ∧ point.timestamp.aware = true) :
    ∃ points, computeDrawdownSeries curve = .ok points ∧ points.map DrawdownPoint.drawdownRatio =
      (marks (curve.map EquityPoint.equity)).map fun q => drawdownRatio q.1 q.2 := by
  cases curve with
  | nil => exact absurd rfl hne
  | cons first rest =>
    obtain ⟨points, hpoints, hratios⟩ := @drawdownPoints_ok (first :: rest) first.equity h
    refine ⟨points, ?_, hratios⟩
    simp only [computeDrawdownSeries, validateEquityCurve, bind_eq_ok, raiseIf_eq_ok]
    refine ⟨(), ⟨(), hne, ?_⟩, hpoints⟩
    rintro ⟨point, hpoint, hle⟩
    exact not_lt.mpr hle (h point hpoint).1

/-! ### Against all pairs -/

/-- No subtraction and no division of the pass is rounded. -/
def Unrounded (curve : List ℚ) : Prop := ∀ q ∈ marks curve, Digits 28 (q.1 - q.2) ∧ Digits 28 (loss q.1 q.2)

section Curve

variable {curve : List ℚ}

theorem pos_of_mem_marks (hpos : ∀ value ∈ curve, 0 < value) {q : ℚ × ℚ} (hq : q ∈ marks curve) :
    0 < q.1 ∧ q.2 ≤ q.1 ∧ 0 < q.2 := by
  cases curve with
  | nil => cases hq
  | cons first rest =>
    obtain ⟨hpeak, hequity⟩ := peak_mem hq
    exact ⟨hpos _ hpeak, le_of_mem_marked hq, hpos _ hequity⟩

/-- At the first equity nothing is lost. -/
theorem exists_mark (hne : curve ≠ []) : ∃ value ∈ curve, (value, value) ∈ marks curve := by
  cases curve with
  | nil => exact absurd rfl hne
  | cons first rest =>
    refine ⟨first, List.mem_cons_self, ?_⟩
    rw [marks, marked, max_self]
    exact List.mem_cons_self

/-- The greatest of the ratios. -/
theorem isGreatest_maxDrawdown (hne : curve ≠ []) :
    IsGreatest {x | ∃ q ∈ marks curve, drawdownRatio q.1 q.2 = x} (maxDrawdown curve) := by
  obtain ⟨value, -, hvalue⟩ := exists_mark hne
  rw [maxDrawdown_eq]
  refine isGreatest_map_foldl_max ⟨(value, value), hvalue, ?_⟩
  simp [drawdownRatio, Ctx.fix_zero]

/-- The greatest of the losses at the peaks, which is the greatest over all pairs. -/
theorem exists_isGreatest_loss (hne : curve ≠ []) (hpos : ∀ value ∈ curve, 0 < value) :
    ∃ s, IsGreatest {x | ∃ q ∈ marks curve, loss q.1 q.2 = x} s ∧ IsGreatest (pairValues loss curve) s := by
  obtain ⟨value, -, hvalue⟩ := exists_mark hne
  have hgreatest : IsGreatest {x | ∃ q ∈ marks curve, loss q.1 q.2 = x}
      (((marks curve).map fun q => loss q.1 q.2).foldl max 0) :=
    isGreatest_map_foldl_max ⟨(value, value), hvalue, by simp [loss]⟩
  refine ⟨_, hgreatest, ?_⟩
  cases curve with
  | nil => exact absurd rfl hne
  | cons first rest =>
    refine isGreatest_marked (fun a ha b _ y hy hab => ?_) hgreatest
    exact loss_mono (hpos a ha) (hpos y hy) hab

theorem drawdownRatio_unrounded (h : Unrounded curve) {q : ℚ × ℚ} (hq : q ∈ marks curve) :
    drawdownRatio q.1 q.2 = loss q.1 q.2 := by
  obtain ⟨hamount, hratio⟩ := h q hq
  have hfix : Ctx.default.fix (q.1 - q.2) = q.1 - q.2 := Ctx.fix_of_digits hamount
  rw [drawdownRatio, hfix]
  exact Ctx.fix_of_digits hratio

end Curve

/-- **The two implementations and all pairs.**  The largest drawdown of the metrics is the greatest ratio of the report's
series; it is the greatest loss over all pairs up to the rounding to 28 digits, and exactly when nothing is rounded.  The
exponents of the `Decimal`s are not limited. -/
theorem maxDrawdown_agrees (r : BacktestRun) (riskFree : Dec) (hrate : 0 ≤ riskFree.val)
    (hpos : ∀ point ∈ r.equityCurve, 0 < point.equity) (haware : ∀ point ∈ r.equityCurve, point.timestamp.aware = true) :
    ∃ m points s, computeMetrics r (.finite riskFree) = .ok m ∧ computeDrawdownSeries r.equityCurve = .ok points ∧
      IsGreatest {x | ∃ point ∈ points, point.drawdownRatio = x} m.maxDrawdown ∧
      IsGreatest (pairValues loss r.curve) s ∧ |m.maxDrawdown - s| ≤ 1 / 10 ^ 27 ∧
      0 ≤ m.maxDrawdown ∧ m.maxDrawdown ≤ 1 ∧ (Unrounded r.curve → m.maxDrawdown = s ∧ m.maxDrawdown < 1) := by
  have hne : r.curve ≠ [] := fun h => r.equity_nonempty (List.map_eq_nil_iff.mp h)
  have hcurve : ∀ value ∈ r.curve, 0 < value := by
    intro value hvalue
    obtain ⟨point, hpoint, rfl⟩ := List.mem_map.mp hvalue
    exact hpos point hpoint
  obtain ⟨points, hpoints, hratios⟩ :=
    computeDrawdownSeries_ok r.equity_nonempty fun point hpoint => ⟨hpos point hpoint, haware point hpoint⟩
  have hmetrics : computeMetrics r (.finite riskFree) = .ok (metricsOf r riskFree.val) :=
    computeMetrics_eq_ok.mpr ⟨riskFree, rfl, hrate, hcurve, rfl⟩
  have hgreatest := isGreatest_maxDrawdown hne
  obtain ⟨s, hs, hpairs⟩ := exists_isGreatest_loss hne hcurve
  obtain ⟨q, hq, hmax⟩ := hgreatest.1
  obtain ⟨hpeak, hle, h0⟩ := pos_of_mem_marks hcurve hq
  refine ⟨_, points, s, hmetrics, hpoints, ?_, hpairs, ?_, ?_, ?_, fun hexact => ?_⟩
  · have hsame : {x | ∃ point ∈ points, point.drawdownRatio = x} =
        {x | ∃ q ∈ marks r.curve, drawdownRatio q.1 q.2 = x} := by
      ext x
      have hmem : x ∈ points.map DrawdownPoint.drawdownRatio ↔ x ∈ (marks r.curve).map fun q => drawdownRatio q.1 q.2 := by
        rw [hratios, BacktestRun.curve]
      rw [Set.mem_ofPred_eq, Set.mem_ofPred_eq]
      simpa only [List.mem_map] using hmem
    rw [hsame]
    exact hgreatest
  · refine abs_sub_le_of_isGreatest (S := {q | q ∈ marks r.curve}) (fun q hq => ?_) hgreatest hs
    obtain ⟨hpeak, hle, h0⟩ := pos_of_mem_marks hcurve hq
    exact drawdownRatio_near hpeak hle h0
  · show 0 ≤ maxDrawdown r.curve
    rw [← hmax]
    exact drawdownRatio_nonneg hpeak hle
  · show maxDrawdown r.curve ≤ 1
    rw [← hmax]
    exact drawdownRatio_le_one hpeak hle h0
  · have hsame : {x | ∃ q ∈ marks r.curve, drawdownRatio q.1 q.2 = x} = {x | ∃ q ∈ marks r.curve, loss q.1 q.2 = x} := by
      ext x
      refine exists_congr fun q => and_congr_right fun hq => ?_
      rw [drawdownRatio_unrounded hexact hq]
    have heq : maxDrawdown r.curve = s := by
      rw [hsame] at hgreatest
      exact hgreatest.unique hs
    refine ⟨heq, ?_⟩
    show maxDrawdown r.curve < 1
    rw [← hmax, drawdownRatio_unrounded hexact hq]
    exact loss_lt_one hpeak h0

/-- A run without intents, marked at the given equities. -/
def markedRun (first : ℕ) (rest : List ℚ) : BacktestRun where
  datasetId := "infy"
  source := "csv"
  initialCapital := 1
  costModel := sampleCosts
  intents := []
  outcomes := []
  trades := []
  equityCurve := ((first : ℚ) :: rest).zipIdx.map fun e => ⟨⟨2026, 1, 1, 9, e.2, 0, 0, some 0⟩, e.1⟩
  capital_pos := one_pos
  outcomes_length := rfl
  equity_nonempty := List.cons_ne_nil _ _

theorem maxDrawdown_agrees_half : ∃ m points s, computeMetrics (markedRun 2 [1]) (.finite (.ofNat 0)) = .ok m ∧
    computeDrawdownSeries (markedRun 2 [1]).equityCurve = .ok points ∧
    IsGreatest {x | ∃ point ∈ points, point.drawdownRatio = x} m.maxDrawdown ∧
    IsGreatest (pairValues loss (markedRun 2 [1]).curve) s ∧ |m.maxDrawdown - s| ≤ 1 / 10 ^ 27 ∧
    0 ≤ m.maxDrawdown ∧ m.maxDrawdown ≤ 1 ∧
    (Unrounded (markedRun 2 [1]).curve → m.maxDrawdown = s ∧ m.maxDrawdown < 1) :=
  maxDrawdown_agrees (markedRun 2 [1]) (.ofNat 0) (by simp) (by simp [markedRun]) (by simp [markedRun, DateTime.aware])

/-- A loss of all but 10⁻³⁰ is rounded to 1. -/
theorem not_maxDrawdown_supremum : ∃ m, computeMetrics (markedRun 1 [1 / 10 ^ 30]) (.finite (.ofNat 0)) = .ok m ∧
    (∀ point ∈ (markedRun 1 [1 / 10 ^ 30]).equityCurve, 0 < point.equity) ∧ m.maxDrawdown = 1 ∧
    ¬IsGreatest (pairValues loss (markedRun 1 [1 / 10 ^ 30]).curve) m.maxDrawdown := by
  have hcurve : (markedRun 1 [1 / 10 ^ 30]).curve = [1, 1 / 10 ^ 30] := by
    simp [BacktestRun.curve, markedRun]
  have hmax : maxDrawdown [1, 1 / 10 ^ 30] = 1 := by
    rw [maxDrawdown_eq]
    simp only [marks, marked, List.map_cons, List.map_nil, List.foldl_cons, List.foldl_nil]
    rw [max_self, max_eq_left (show (1 : ℚ) / 10 ^ 30 ≤ 1 by norm_num), drawdownRatio, drawdownRatio, sub_self, Ctx.fix_zero, zero_div,
      Ctx.fix_zero, roundings_one.2.2, div_one, roundings_one.1]
    norm_num
  refine ⟨metricsOf (markedRun 1 [1 / 10 ^ 30]) 0, ?_, ?_, ?_, ?_⟩
  · refine computeMetrics_eq_ok.mpr ⟨.ofNat 0, rfl, by simp, ?_, by simp⟩
    rw [hcurve]
    simp
  · simp [markedRun]
  · show maxDrawdown (markedRun 1 [1 / 10 ^ 30]).curve = 1
    rw [hcurve, hmax]
  · show ¬IsGreatest _ (maxDrawdown (markedRun 1 [1 / 10 ^ 30]).curve)
    rw [hcurve, hmax]
    rintro ⟨⟨i, j, x, y, -, hx, hy, hloss⟩, -⟩
    have hpos : ∀ value ∈ [(1 : ℚ), 1 / 10 ^ 30], 0 < value := by simp
    exact (loss_lt_one (hpos x (List.mem_of_getElem? hx)) (hpos y (List.mem_of_getElem? hy))).ne hloss

end AlphaAlgo.Backtest
