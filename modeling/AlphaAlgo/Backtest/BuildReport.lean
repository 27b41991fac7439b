import AlphaAlgo.Backtest.Buckets
import AlphaAlgo.Backtest.Statistics

/-!
# BuildReport — the report of a run

`buildReport` assembles the metrics, the statistics, the risk ratios, the reconstructed trades, the drawdowns and the
buckets of one run.  Each part checks what it makes, and any check can refuse the report.

* `reconstructTrade_run`: the row of a completed trade; only its exit price can be refused.
* `buildReport_outcome`: which runs have a report, and what is raised for the others.
* `buildReport_contents`: the parts of a report agree with each other.
-/

namespace AlphaAlgo.Backtest

open Loop

/-! ### The risk ratios -/

structure RiskMetrics where
  sortinoRatio : Option ℚ
  calmarRatio : Option ℚ
deriving DecidableEq

/-- `_validate_rf`: the rate, when it is accepted. -/
def validateRf : Decimal → Except ReportError ℚ
  | .finite d =>
    if d.val < 0 then .error (.report "risk_free_rate_per_period must be a non-negative finite Decimal") else .ok d.val
  | _ => .error (.report "risk_free_rate_per_period must be a non-negative finite Decimal")

/-- The last field is the check of `__post_init__`. -/
structure ReturnPoint where
  timestamp : DateTime
  value : ℚ
  timestamp_aware : timestamp.aware = true

def makeReturnPoint (timestamp : DateTime) (value : ℚ) : Except ReportError ReturnPoint :=
  if timestamp_aware : timestamp.aware = true then .ok ⟨timestamp, value, timestamp_aware⟩
  else .error (.report "ReturnPoint.timestamp must be timezone-aware")

/-- The loop of `compute_period_returns`. -/
def returnPoints : List EquityPoint → Except BuildError (List ReturnPoint)
  | previous :: current :: rest => do
    let value ← divide (Ctx.default.fix (current.equity - previous.equity)) previous.equity
    let point ← (makeReturnPoint current.timestamp value).mapError .report
    let points ← returnPoints (current :: rest)
    return point :: points
  | _ => .ok []

def computePeriodReturns (equityCurve : List EquityPoint) : Except BuildError (List ReturnPoint) := do
  (validateEquityCurve equityCurve).mapError .report
  returnPoints equityCurve

/-- The population semi-deviation of the returns against 0; a square is rounded once. -/
def computeDownsideDeviation (returns : List ℚ) : ℚ :=
  if returns = [] then 0
  else
    let squares := contextTotal .default (returns.map fun value => Ctx.default.fix (min value 0 ^ 2))
    decimalSqrt (Ctx.default.fix (squares / returns.length))

def computeSortinoRatio (returns : List ℚ) (riskFreeRatePerPeriod : Decimal) : Except ReportError (Option ℚ) := do
  let riskFree ← validateRf riskFreeRatePerPeriod
  if returns.length < 2 then return none
  else
    let mean := Ctx.default.fix (contextTotal .default returns / returns.length)
    let downside := computeDownsideDeviation returns
    return if downside = 0 then none else some (Ctx.default.fix (Ctx.default.fix (mean - riskFree) / downside))

def computeCalmarRatio (totalReturn maxDrawdown : ℚ) : Except ReportError (Option ℚ) := do
  raiseIf (maxDrawdown < 0 ∨ 1 < maxDrawdown) (.report "max_drawdown must be in [0, 1]")
  return if maxDrawdown = 0 then none else some (Ctx.default.fix (totalReturn / maxDrawdown))

/-! ### The report -/

/-- The fields of a report, before their checks. -/
structure ReportFields where
  datasetId : String
  source : String
  symbol : Option String
  timeframe : Option String
  initialCapital : ℚ
  costModel : CostModel
  riskFreeRatePerPeriod : ℚ
  metrics : BacktestMetrics
  statistics : TradeStatistics
  risk : RiskMetrics
  trades : List TradeReconstruction
  equityCurve : List EquityPoint
  returns : List ReturnPoint
  drawdowns : List DrawdownPoint
  dailyBuckets : List PeriodBucket
  monthlyBuckets : List PeriodBucket
  yearlyBuckets : List PeriodBucket

/-- `BacktestReport.__post_init__`. -/
def ReportFields.check (f : ReportFields) : Except BuildError Unit := do
  raiseIf (f.datasetId = "") (.report (.report "BacktestReport.dataset_id must be a non-empty string"))
  raiseIf (f.source = "") (.report (.report "BacktestReport.source must be a non-empty string"))
  raiseIf (f.initialCapital ≤ 0)
    (.report (.report "BacktestReport.initial_capital must be a positive finite Decimal"))
  raiseIf (f.riskFreeRatePerPeriod < 0)
    (.report (.report "BacktestReport.risk_free_rate_per_period must be a non-negative finite Decimal"))
  raiseIf (f.equityCurve = [])
    (.report (.report "BacktestReport.equity_curve must be a non-empty tuple of EquityPoint"))

/-- A report: its fields passed the checks. -/
structure BacktestReport extends ReportFields where
  valid : toReportFields.check = .ok ()

/-- `max((point.drawdown_amount for point in drawdowns), default=Decimal("0"))`. -/
def maxDrawdownDollar (drawdowns : List DrawdownPoint) : ℚ := (drawdowns.map DrawdownPoint.drawdownAmount).max?.getD 0

/-- `labels` are the labels of the intents. -/
def buildReport (r : BacktestRun) (labels : List (Option String)) (riskFreeRatePerPeriod : Decimal)
    (symbol timeframe : Option String) : Except BuildError BacktestReport := do
  let riskFree ← (validateRf riskFreeRatePerPeriod).mapError .report
  (validateEquityCurve r.equityCurve).mapError .report
  let metrics ← (computeMetrics r riskFreeRatePerPeriod).mapError .engine
  let returns ← computePeriodReturns r.equityCurve
  let drawdowns ← (computeDrawdownSeries r.equityCurve).mapError .report
  let statistics ← computeTradeStatistics r metrics (maxDrawdownDollar drawdowns)
  let sortino ← (computeSortinoRatio (returns.map ReturnPoint.value) riskFreeRatePerPeriod).mapError .report
  let calmar ← (computeCalmarRatio metrics.totalReturn metrics.maxDrawdown).mapError .report
  let trades ← (buildTradeReconstructions .default r labels symbol timeframe).mapError .report
  let daily ← (bucketPerformance r.equityCurve .daily).mapError .report
  let monthly ← (bucketPerformance r.equityCurve .monthly).mapError .report
  let yearly ← (bucketPerformance r.equityCurve .yearly).mapError .report
  let fields : ReportFields :=
    { datasetId := r.datasetId
      source := r.source
      symbol := symbol
      timeframe := timeframe
      initialCapital := r.initialCapital
      costModel := r.costModel
      riskFreeRatePerPeriod := riskFree
      metrics := metrics
      statistics := statistics
      risk := ⟨sortino, calmar⟩
      trades := trades
      equityCurve := r.equityCurve
      returns := returns
      drawdowns := drawdowns
      dailyBuckets := daily
      monthlyBuckets := monthly
      yearlyBuckets := yearly }
  accept fields.check fun h => ⟨fields, h⟩

/-! ### The parts of the report -/

/-- The returns of the report are those of the metrics. -/
theorem returnPoints_ok : ∀ {curve : List EquityPoint}, (∀ p ∈ curve, 0 < p.equity ∧ p.timestamp.aware = true) →
    ∃ points, returnPoints curve = .ok points ∧
      points.map ReturnPoint.value = periodReturns (curve.map EquityPoint.equity)
  | [], _ => ⟨[], rfl, rfl⟩
  | [_], _ => ⟨[], rfl, rfl⟩
  | previous :: current :: rest, h => by
    obtain ⟨⟨hprevious, -⟩, hrest⟩ := List.forall_mem_cons.mp h
    obtain ⟨points, hpoints, hvalues⟩ := returnPoints_ok hrest
    obtain ⟨-, haware⟩ := hrest current List.mem_cons_self
    refine ⟨⟨current.timestamp, _, haware⟩ :: points, ?_, congrArg (List.cons _) hvalues⟩
    rw [returnPoints, divide, if_neg hprevious.ne', hpoints]
    dsimp only [bind, Except.bind]
    rw [makeReturnPoint, dif_pos haware]
    rfl

theorem computeSortinoRatio_ok {d : Dec} (hrate : 0 ≤ d.val) (returns : List ℚ) :
    ∃ sortino, computeSortinoRatio returns (.finite d) = .ok sortino := by
  have hvalid : validateRf (.finite d) = .ok d.val := if_neg (not_lt.mpr hrate)
  rw [computeSortinoRatio, hvalid]
  by_cases hshort : returns.length < 2
  · exact ⟨none, if_pos hshort⟩
  · exact ⟨_, if_neg hshort⟩

/-- The largest drawdown of the metrics is a ratio. -/
theorem computeCalmarRatio_ok {r : BacktestRun} (hpos : ∀ p ∈ r.equityCurve, 0 < p.equity) (totalReturn : ℚ) :
    ∃ calmar, computeCalmarRatio totalReturn (maxDrawdown r.curve) = .ok calmar := by
  have hne : r.curve ≠ [] := fun h => r.equity_nonempty (List.map_eq_nil_iff.mp h)
  have hcurve : ∀ value ∈ r.curve, 0 < value := by
    intro value hvalue
    obtain ⟨p, hp, rfl⟩ := List.mem_map.mp hvalue
    exact hpos p hp
  obtain ⟨q, hq, hmax⟩ := (isGreatest_maxDrawdown hne).1
  obtain ⟨hpeak, hle, h0⟩ := pos_of_mem_marks hcurve hq
  have hrange : ¬(maxDrawdown r.curve < 0 ∨ 1 < maxDrawdown r.curve) := by
    rw [← hmax, not_or, not_lt, not_lt]
    exact ⟨drawdownRatio_nonneg hpeak hle, drawdownRatio_le_one hpeak hle h0⟩
  rw [computeCalmarRatio, raiseIf, if_neg hrange]
  exact ⟨_, rfl⟩

theorem maxDrawdownDollar_nonneg (drawdowns : List DrawdownPoint) : 0 ≤ maxDrawdownDollar drawdowns := by
  unfold maxDrawdownDollar
  cases hmax : (drawdowns.map DrawdownPoint.drawdownAmount).max? with
  | none => exact le_rfl
  | some x =>
    obtain ⟨point, -, rfl⟩ := List.mem_map.mp (List.max?_mem hmax)
    exact point.amount_nonneg

theorem makeDrawdownPoint_eq {timestamp : DateTime} {equity peak ratio amount : ℚ} {point : DrawdownPoint}
    (h : makeDrawdownPoint timestamp equity peak ratio amount = .ok point) :
    point.peakEquity = peak ∧ point.drawdownRatio = ratio ∧ point.drawdownAmount = amount := by
  unfold makeDrawdownPoint at h
  split_ifs at h
  cases h
  exact ⟨rfl, rfl, rfl⟩

/-- The ratio of a drawdown is that of its amount. -/
theorem ratio_of_drawdownPoints : ∀ {curve : List EquityPoint} {peak : ℚ} {points : List DrawdownPoint},
    drawdownPoints peak curve = .ok points →
    ∀ p ∈ points, p.drawdownRatio = Ctx.default.fix (p.drawdownAmount / p.peakEquity)
  | [], _, _, h => by
    cases h
    simp
  | point :: curve, peak, points, h => by
    simp only [drawdownPoints, bind_eq_ok] at h
    obtain ⟨first, hfirst, rest, hrest, h⟩ := h
    cases h
    obtain ⟨hpeak, hratio, hamount⟩ := makeDrawdownPoint_eq hfirst
    refine List.forall_mem_cons.mpr ⟨?_, ratio_of_drawdownPoints hrest⟩
    rw [hratio, hamount, hpeak]

/-- Something is lost somewhere on the curve. -/
def Loses (drawdowns : List DrawdownPoint) : Prop := ∃ p ∈ drawdowns, 0 < p.drawdownAmount

theorem maxDrawdown_eq_zero {curve : List EquityPoint} {drawdowns : List DrawdownPoint} (hne : curve ≠ [])
    (h : computeDrawdownSeries curve = .ok drawdowns)
    (hratios : drawdowns.map DrawdownPoint.drawdownRatio =
      (marks (curve.map EquityPoint.equity)).map fun q => drawdownRatio q.1 q.2) :
    IsGreatest {x | ∃ p ∈ drawdowns, p.drawdownRatio = x} (maxDrawdown (curve.map EquityPoint.equity)) ∧
      (maxDrawdown (curve.map EquityPoint.equity) = 0 ↔ ¬Loses drawdowns) := by
  have hsame : {x | ∃ p ∈ drawdowns, p.drawdownRatio = x} =
      {x | ∃ q ∈ marks (curve.map EquityPoint.equity), drawdownRatio q.1 q.2 = x} := by
    ext x
    have hmem : x ∈ drawdowns.map DrawdownPoint.drawdownRatio ↔
        x ∈ (marks (curve.map EquityPoint.equity)).map fun q => drawdownRatio q.1 q.2 := by rw [hratios]
    rw [Set.mem_ofPred_eq, Set.mem_ofPred_eq]
    simpa only [List.mem_map] using hmem
  have hequities : curve.map EquityPoint.equity ≠ [] := fun hnil => hne (List.map_eq_nil_iff.mp hnil)
  have hgreatest := isGreatest_maxDrawdown hequities
  rw [← hsame] at hgreatest
  have hratio : ∀ p ∈ drawdowns, p.drawdownRatio = Ctx.default.fix (p.drawdownAmount / p.peakEquity) := by
    cases curve with
    | nil => exact absurd rfl hne
    | cons first rest =>
      obtain ⟨-, -, h⟩ := bind_eq_ok.mp h
      exact ratio_of_drawdownPoints h
  refine ⟨hgreatest, fun hzero => ?_, fun hnone => ?_⟩
  · rintro ⟨p, hp, hamount⟩
    have hpos : 0 < p.drawdownRatio := by
      rw [hratio p hp]
      exact fix_pos (div_pos hamount p.peak_pos)
    exact not_lt.mpr (hgreatest.2 ⟨p, hp, rfl⟩) (hzero ▸ hpos)
  · obtain ⟨p, hp, hmax⟩ := hgreatest.1
    have hamount : p.drawdownAmount = 0 :=
      le_antisymm (not_lt.mp fun hlt => hnone ⟨p, hp, hlt⟩) p.amount_nonneg
    rw [← hmax, hratio p hp, hamount, zero_div, Ctx.fix_zero]

theorem maxDrawdownDollar_pos {drawdowns : List DrawdownPoint} : 0 < maxDrawdownDollar drawdowns ↔ Loses drawdowns := by
  unfold maxDrawdownDollar Loses
  cases hmax : (drawdowns.map DrawdownPoint.drawdownAmount).max? with
  | none =>
    rw [List.max?_eq_none_iff, List.map_eq_nil_iff] at hmax
    simp [hmax]
  | some x =>
    obtain ⟨p, hp, rfl⟩ := List.mem_map.mp (List.max?_mem hmax)
    rw [Option.getD_some]
    refine ⟨fun h => ⟨p, hp, h⟩, ?_⟩
    rintro ⟨q, hq, hpos⟩
    exact hpos.trans_le ((List.max?_eq_some_iff.mp hmax).2 _ (List.mem_map_of_mem hq))

/-! ### The rows -/

/-- The row of a completed trade: from its buy to the last of its sales. -/
structure Reconstructed (fills : List FillRecord) (t : TradeRecord) (row : TradeReconstruction) : Prop where
  tradeId : row.tradeId = t.sequence
  quantity : row.quantity = t.quantity
  prices : row.entryPrice = t.entryPrice ∧ row.exitPrice = t.exitPrice
  netPnl : row.netPnl = t.realizedPnl
  bought : ∃ f ∈ fills, f.side = .buy ∧ f.sequence = t.entryFillSequence ∧ row.entryTimestamp = f.filledAt
  sold : ∃ f ∈ fills, f.side = .sell ∧ f.sequence ∈ t.exitFillSequences ∧ row.exitTimestamp = f.filledAt
  held : row.exitTimestamp.instant - row.entryTimestamp.instant = heldFor fills t

/-- The refusal of an exit price. -/
def exitPriceRefused : ReportError := .report "TradeReconstruction.exit_price must be a positive finite Decimal"

/-- A row whose other fields are accepted. -/
theorem check_row {row : TradeRow} (hside : row.side = "long") (hentry : row.entryTimestamp.aware = true)
    (hexit : row.exitTimestamp.aware = true) (horder : row.entryTimestamp.instant ≤ row.exitTimestamp.instant)
    (hprice : 0 < row.entryPrice) (hquantity : 0 < row.quantity) (hfees : 0 ≤ row.fees)
    (hentrySlippage : 0 ≤ row.entrySlippage) (hexitSlippage : ∀ x ∈ row.exitSlippage, 0 ≤ x)
    (hslippage : ∀ x ∈ row.slippage, 0 ≤ x) (hnone : row.exitSlippage.isNone = row.slippage.isNone) :
    row.check = if 0 < row.exitPrice then .ok () else .error exitPriceRefused := by
  have hlong : ¬row.side = "" := by
    rw [hside]
    decide
  have hexits : ¬∃ x ∈ row.exitSlippage, x < 0 := by
    rintro ⟨x, hx, hlt⟩
    exact not_lt.mpr (hexitSlippage x hx) hlt
  have hslippages : ¬∃ x ∈ row.slippage, x < 0 := by
    rintro ⟨x, hx, hlt⟩
    exact not_lt.mpr (hslippage x hx) hlt
  simp only [TradeRow.check, requireAware, requirePositive, requireNonneg, requireOptional, raiseIf, hlong, hentry,
    hexit, not_lt.mpr horder, not_le.mpr hprice, not_le.mpr hquantity, not_lt.mpr hfees, not_lt.mpr hentrySlippage,
    hexits, hslippages, hnone, if_false, bind, Except.bind]
  by_cases hpos : 0 < row.exitPrice
  · simp [hpos, not_le.mpr hpos]
  · simp [hpos, not_lt.mp hpos, exitPriceRefused]

section Row

variable {fills : List FillRecord} {trades : List TradeRecord} {labels : List (Option String)}
  {symbol timeframe : Option String} {t : TradeRecord}

theorem make_of_check {row : TradeRow} {p : Prop} [Decidable p] {e : ReportError} {P : TradeReconstruction → Prop}
    (h : row.check = if p then .ok () else .error e) (hP : ∀ made : TradeReconstruction, made.toTradeRow = row → P made) :
    (p → ∃ made, row.make = .ok made ∧ P made) ∧ (¬p → row.make = .error e) := by
  constructor
  · intro hp
    rw [if_pos hp] at h
    refine ⟨⟨row, h⟩, ?_, hP _ rfl⟩
    unfold TradeRow.make
    split
    · rfl
    · rename_i heq
      rw [h] at heq
      cases heq
  · intro hp
    rw [if_neg hp] at h
    unfold TradeRow.make
    split
    · rename_i heq
      rw [h] at heq
      cases heq
    · rename_i heq
      rw [h] at heq
      cases heq
      rfl

/-- **The row of a completed trade.**  Only its exit price can be refused. -/
theorem reconstructTrade_run (hnodup : (fills.map FillRecord.sequence).Nodup) (hsound : ∀ f ∈ fills, f.Sound)
    (h : t.Kept fills) :
    (0 < t.exitPrice → ∃ row, reconstructTrade .default fills trades labels symbol timeframe t = .ok row ∧
      Reconstructed fills t row) ∧
    (¬0 < t.exitPrice → reconstructTrade .default fills trades labels symbol timeframe t = .error exitPriceRefused) := by
  obtain ⟨buy, exit, exits, hbuy, hbuySide, hentry, hexits, hmap, hmem, hheld, hnonneg⟩ := exists_fills hnodup h
  have hlatest := latest_mem exit exits
  obtain ⟨hlatestMem, hlatestSide⟩ := hmem _ hlatest
  have hslippage : ∀ x ∈ (exit :: exits).map (FillRecord.slippage .default), 0 ≤ x := by
    intro x hx
    obtain ⟨f, hf, rfl⟩ := List.mem_map.mp hx
    have hf := hsound f (hmem f hf).1
    exact fix_nonneg (mul_nonneg hf.slippage_nonneg hf.quantity_pos.le)
  have hentrySlippage : 0 ≤ Ctx.default.fix (buy.slippagePerShare * t.quantity) :=
    fix_nonneg (mul_nonneg (hsound buy hbuy).slippage_nonneg h.quantity_pos.le)
  have hexitSlippage : ∀ x ∈ if Shared trades t then none else
      some (contextTotal .default ((exit :: exits).map (FillRecord.slippage .default))), 0 ≤ x := by
    intro x hx
    split_ifs at hx
    · cases hx
    · obtain rfl := Option.some.inj hx
      exact contextTotal_nonneg hslippage
  rw [reconstructTrade, hentry, hexits]
  refine make_of_check (check_row rfl (hsound buy hbuy).aware (hsound _ hlatestMem).aware ?_ h.entry_pos h.quantity_pos
    (fix_nonneg (add_nonneg h.entryCost_nonneg h.exitCost_nonneg)) hentrySlippage hexitSlippage ?_ ?_) fun made hmade => ?_
  · rw [hheld] at hnonneg
    exact sub_nonneg.mp hnonneg
  · intro x hx
    obtain ⟨y, hy, rfl⟩ := Option.map_eq_some_iff.mp hx
    exact fix_nonneg (add_nonneg hentrySlippage (hexitSlippage y hy))
  · exact Option.isNone_map.symm
  · have hexit : made.exitTimestamp = (latest exit exits).filledAt := by rw [hmade]
    have hentryTime : made.entryTimestamp = buy.filledAt := by rw [hmade]
    refine ⟨by rw [hmade], by rw [hmade], by rw [hmade]; exact ⟨rfl, rfl⟩, by rw [hmade], ?_, ?_, ?_⟩
    · have hsequence : buy.sequence = t.entryFillSequence := by simpa using List.find?_some hentry
      exact ⟨buy, hbuy, hbuySide, hsequence, hentryTime⟩
    · exact ⟨latest exit exits, hlatestMem, hlatestSide, hmap ▸ List.mem_map_of_mem hlatest, hexit⟩
    · rw [hexit, hentryTime, hheld]

end Row

/-! ### The report of a run -/

/-- A finite rate that is not negative. -/
def ValidRate : Decimal → Prop
  | .finite d => 0 ≤ d.val
  | _ => False

instance : DecidablePred ValidRate
  | .finite d => inferInstanceAs (Decidable (0 ≤ d.val))
  | .infinity _ => instDecidableFalse
  | .nan => instDecidableFalse

/-- Why a run has no report. -/
def refusal (r : BacktestRun) (riskFreeRatePerPeriod : Decimal) : Except BuildError Unit := do
  raiseIf (¬ValidRate riskFreeRatePerPeriod)
    (.report (.report "risk_free_rate_per_period must be a non-negative finite Decimal"))
  raiseIf (∃ p ∈ r.equityCurve, p.equity ≤ 0)
    (.report (.metrics "marked equity must stay positive to compute honest reports"))
  raiseIf (maxDelta < r.totalTime) .overflow
  raiseIf (∃ t ∈ r.trades, t.exitPrice ≤ 0) (.report exitPriceRefused)

/-- A function that raises one error only raises it on a list where it does on an element. -/
theorem mapM_eq_error {ε α β : Type} {f : α → Except ε β} {e : ε} : ∀ {l : List α},
    (∀ x ∈ l, (∃ y, f x = .ok y) ∨ f x = .error e) → (∃ x ∈ l, f x = .error e) → l.mapM f = .error e
  | [], _, h => by simp at h
  | x :: l, hall, h => by
    obtain ⟨hx, hl⟩ := List.forall_mem_cons.mp hall
    rw [List.mapM_cons]
    rcases hx with ⟨y, hy⟩ | hx
    · have hrest : ∃ x ∈ l, f x = .error e := by
        obtain ⟨z, hz, hez⟩ := h
        rcases List.mem_cons.mp hz with rfl | hz
        · rw [hy] at hez
          cases hez
        · exact ⟨z, hz, hez⟩
      rw [hy, mapM_eq_error hl hrest]
      rfl
    · rw [hx]
      rfl

section Run

variable {inputs : BacktestInput} {intents : List OrderIntent} {costModel : CostModel} {initialCapital : ℚ}
  {r : BacktestRun} {labels : List (Option String)} {symbol timeframe : Option String}

/-- The rows of a run. -/
theorem buildTradeReconstructions_run (h : runBacktest .default inputs intents costModel initialCapital = .ok r) :
    ((∀ t ∈ r.trades, 0 < t.exitPrice) → ∃ rows, buildTradeReconstructions .default r labels symbol timeframe = .ok rows ∧
      List.Forall₂ (Reconstructed r.fills) r.trades rows) ∧
    ((∃ t ∈ r.trades, ¬0 < t.exitPrice) →
      buildTradeReconstructions .default r labels symbol timeframe = .error exitPriceRefused) := by
  have hnodup := (exists_replay h).1.sequences
  have hrow := fun t ht => @reconstructTrade_run r.fills r.trades labels symbol timeframe t hnodup
    (fun f hf => (sound_of_run h hf).1) (trades_kept h ht).1
  rw [buildTradeReconstructions, raiseIf, if_neg (not_not.mpr hnodup)]
  constructor
  · intro hpos
    obtain ⟨rows, hrows⟩ := exists_forall₂ fun t ht => (hrow t ht).1 (hpos t ht)
    exact ⟨rows, mapM_eq_ok_iff.mpr (hrows.imp fun _ _ hrow => hrow.1), hrows.imp fun _ _ hrow => hrow.2⟩
  · rintro ⟨t, ht, hnot⟩
    refine mapM_eq_error (fun t ht => ?_) ⟨t, ht, (hrow t ht).2 hnot⟩
    by_cases hpos : 0 < t.exitPrice
    · obtain ⟨row, hok, -⟩ := (hrow t ht).1 hpos
      exact .inl ⟨row, hok⟩
    · exact .inr ((hrow t ht).2 hpos)

theorem reconstructed_of_ok (h : runBacktest .default inputs intents costModel initialCapital = .ok r)
    {rows : List TradeReconstruction} (hrows : buildTradeReconstructions .default r labels symbol timeframe = .ok rows) :
    List.Forall₂ (Reconstructed r.fills) r.trades rows := by
  obtain ⟨hok, hrefused⟩ := @buildTradeReconstructions_run _ _ _ _ _ labels symbol timeframe h
  by_cases hall : ∃ t ∈ r.trades, ¬0 < t.exitPrice
  · rw [hrefused hall] at hrows
    cases hrows
  · obtain ⟨rows', hrows', hmade⟩ := hok fun t ht => not_not.mp fun hnot => hall ⟨t, ht, hnot⟩
    rw [hrows'] at hrows
    cases hrows
    exact hmade

theorem identity_of_run (h : runBacktest .default inputs intents costModel initialCapital = .ok r) :
    r.datasetId ≠ "" ∧ r.source ≠ "" := by
  have haccepted := inputs.accepted
  simp only [checkInput, bind_eq_ok, raiseIf_eq_ok] at haccepted
  obtain ⟨-, hdataset, -, hsource, -⟩ := haccepted
  simp only [runBacktest, makeRun, bind_eq_ok] at h
  obtain ⟨-, -, -, -, s, -, outcomes, -, h⟩ := h
  split_ifs at h
  cases h
  constructor
  · intro hempty
    have hempty : inputs.datasetId = "" := hempty
    rw [hempty] at hdataset
    exact hdataset rfl
  · intro hempty
    have hempty : inputs.source = "" := hempty
    rw [hempty] at hsource
    exact hsource rfl

/-- **The report of a run**, up to its rows: where the rate is valid and the equity stays positive, only the sum of the
durations and the rows can raise. -/
theorem buildReport_eq (h : runBacktest .default inputs intents costModel initialCapital = .ok r) {d : Dec}
    (hrate : 0 ≤ d.val) (hpos : ∀ p ∈ r.equityCurve, 0 < p.equity) :
    ∃ (drawdowns : List DrawdownPoint) (returns : List ReturnPoint)
      (report : List TradeReconstruction → BacktestReport),
      computeDrawdownSeries r.equityCurve = .ok drawdowns ∧ returns.map ReturnPoint.value = periodReturns r.curve ∧
      (∀ rows, (report rows).trades = rows ∧ (report rows).metrics = metricsOf r d.val ∧
        (report rows).statistics.toStatisticsFields =
          statisticsOf r (metricsOf r d.val) (maxDrawdownDollar drawdowns) ∧
        (report rows).drawdowns = drawdowns ∧ (report rows).returns = returns ∧
        computeCalmarRatio (metricsOf r d.val).totalReturn (maxDrawdown r.curve) = .ok (report rows).risk.calmarRatio) ∧
      buildReport r labels (.finite d) symbol timeframe = if r.totalTime ≤ maxDelta then
        ((buildTradeReconstructions .default r labels symbol timeframe).mapError .report).map report
        else .error .overflow := by
  have haware := aware_of_run h
  have hcurve : ∀ value ∈ r.curve, 0 < value := by
    intro value hvalue
    obtain ⟨p, hp, rfl⟩ := List.mem_map.mp hvalue
    exact hpos p hp
  have hvalid : validateRf (.finite d) = .ok d.val := if_neg (not_lt.mpr hrate)
  have hequity : validateEquityCurve r.equityCurve = .ok () := validateEquityCurve_ok.mpr ⟨r.equity_nonempty, hpos⟩
  have hmetrics : computeMetrics r (.finite d) = .ok (metricsOf r d.val) :=
    computeMetrics_eq_ok.mpr ⟨d, rfl, hrate, hcurve, rfl⟩
  obtain ⟨returns, hreturns, hvalues⟩ := returnPoints_ok fun p hp => ⟨hpos p hp, haware p hp⟩
  obtain ⟨drawdowns, hdrawdowns, -⟩ := computeDrawdownSeries_ok r.equity_nonempty fun p hp => ⟨hpos p hp, haware p hp⟩
  obtain ⟨sortino, hsortino⟩ := computeSortinoRatio_ok hrate (returns.map ReturnPoint.value)
  obtain ⟨calmar, hcalmar⟩ := computeCalmarRatio_ok hpos (metricsOf r d.val).totalReturn
  obtain ⟨daily, hdaily, -⟩ := exists_buckets h hpos .daily
  obtain ⟨monthly, hmonthly, -⟩ := exists_buckets h hpos .monthly
  obtain ⟨yearly, hyearly, -⟩ := exists_buckets h hpos .yearly
  obtain ⟨hdataset, hsource⟩ := identity_of_run h
  let fields := fun rows : List TradeReconstruction => ReportFields.mk r.datasetId r.source symbol timeframe
    r.initialCapital r.costModel d.val (metricsOf r d.val) ⟨_, statisticsOf_valid h d.val (maxDrawdownDollar drawdowns)⟩
    ⟨sortino, calmar⟩ rows r.equityCurve returns drawdowns daily monthly yearly
  have hfields : ∀ rows, (fields rows).check = .ok () := by
    intro rows
    simp only [ReportFields.check, bind_eq_ok, raiseIf_eq_ok, exists_const, not_le, not_lt]
    exact ⟨hdataset, hsource, r.capital_pos, hrate, r.equity_nonempty⟩
  refine ⟨drawdowns, returns, fun rows => ⟨fields rows, hfields rows⟩, hdrawdowns, hvalues,
    fun rows => ⟨rfl, rfl, rfl, rfl, rfl, hcalmar⟩, ?_⟩
  have hperiod : computePeriodReturns r.equityCurve = .ok returns := by
    rw [computePeriodReturns, hequity]
    exact hreturns
  rw [buildReport, hvalid, hequity, hmetrics, hperiod, hdrawdowns]
  show (computeTradeStatistics r (metricsOf r d.val) (maxDrawdownDollar drawdowns) >>= _) = _
  rw [computeTradeStatistics_run h d.val (maxDrawdownDollar_nonneg drawdowns)]
  by_cases hle : r.totalTime ≤ maxDelta
  · rw [if_pos hle, if_pos hle]
    show ((computeSortinoRatio (returns.map ReturnPoint.value) (.finite d)).mapError BuildError.report >>= _) = _
    rw [hsortino]
    show ((computeCalmarRatio (metricsOf r d.val).totalReturn (maxDrawdown r.curve)).mapError BuildError.report >>= _) = _
    rw [hcalmar]
    show ((buildTradeReconstructions .default r labels symbol timeframe).mapError BuildError.report >>= _) = _
    cases buildTradeReconstructions .default r labels symbol timeframe with
    | error e => rfl
    | ok rows =>
      rw [hdaily, hmonthly, hyearly]
      exact accept_of_ok _ (hfields rows)
  · rw [if_neg hle, if_neg hle]
    rfl

/-- **Which runs have a report.**  The rate must be valid and the equity positive, the durations of the trades must add
up to a `timedelta`, and every trade must have a positive exit price, which it has when the slippage is not rounded to
the whole price.  The exponents of the `Decimal`s are not limited. -/
theorem buildReport_outcome (h : runBacktest .default inputs intents costModel initialCapital = .ok r)
    (labels : List (Option String)) (riskFreeRatePerPeriod : Decimal) (symbol timeframe : Option String) :
    (buildReport r labels riskFreeRatePerPeriod symbol timeframe).map (fun _ => ()) = refusal r riskFreeRatePerPeriod ∧
      (costModel.Partial → ∀ t ∈ r.trades, 0 < t.exitPrice) := by
  refine ⟨?_, fun hpartial t ht => (trades_kept h ht).2 hpartial⟩
  by_cases hrate : ValidRate riskFreeRatePerPeriod
  · cases riskFreeRatePerPeriod with
    | infinity neg => cases hrate
    | nan => cases hrate
    | finite d =>
      have hvalid : validateRf (.finite d) = .ok d.val := if_neg (not_lt.mpr hrate)
      by_cases hpos : ∃ p ∈ r.equityCurve, p.equity ≤ 0
      · rw [refusal, raiseIf, if_neg (not_not.mpr hrate), buildReport, hvalid, validateEquityCurve, raiseIf,
          if_neg r.equity_nonempty]
        dsimp only [bind, Except.bind]
        rw [raiseIf, if_pos hpos, raiseIf, if_pos hpos]
        rfl
      · have hall : ∀ p ∈ r.equityCurve, 0 < p.equity := fun p hp => not_le.mp fun hle => hpos ⟨p, hp, hle⟩
        obtain ⟨drawdowns, returns, report, -, -, -, hreport⟩ :=
          @buildReport_eq _ _ _ _ _ labels symbol timeframe h d hrate hall
        obtain ⟨hrows, hrefused⟩ := @buildTradeReconstructions_run _ _ _ _ _ labels symbol timeframe h
        rw [hreport, refusal, raiseIf, if_neg (not_not.mpr hrate), raiseIf, if_neg hpos]
        dsimp only [bind, Except.bind]
        by_cases hlong : maxDelta < r.totalTime
        · rw [if_neg (not_le.mpr hlong), raiseIf, if_pos hlong]
          rfl
        · rw [if_pos (not_lt.mp hlong), raiseIf, if_neg hlong]
          by_cases hprice : ∃ t ∈ r.trades, t.exitPrice ≤ 0
          · obtain ⟨t, ht, hle⟩ := hprice
            rw [hrefused ⟨t, ht, not_lt.mpr hle⟩, raiseIf, if_pos ⟨t, ht, hle⟩]
            rfl
          · obtain ⟨rows, hok, -⟩ := hrows fun t ht => not_le.mp fun hle => hprice ⟨t, ht, hle⟩
            rw [hok, raiseIf, if_neg hprice]
            rfl
  · have hinvalid : validateRf riskFreeRatePerPeriod =
        .error (.report "risk_free_rate_per_period must be a non-negative finite Decimal") := by
      cases riskFreeRatePerPeriod with
      | infinity neg => rfl
      | nan => rfl
      | finite d => exact if_pos (not_le.mp hrate)
    rw [refusal, raiseIf, if_pos hrate, buildReport, hinvalid]
    rfl

/-- The parts of a report agree with each other. -/
structure Consistent (r : BacktestRun) (riskFreeRatePerPeriod : Decimal) (report : BacktestReport) : Prop where
  metrics : computeMetrics r riskFreeRatePerPeriod = .ok report.metrics
  rows : List.Forall₂ (Reconstructed r.fills) r.trades report.trades
  duration : report.statistics.averageTradeDuration =
    if report.trades = [] then none
    else some (halfEven ((report.trades.map fun row =>
      row.exitTimestamp.instant - row.entryTimestamp.instant).sum / report.trades.length))
  wins : IsGreatest {n | ∃ s, s <:+: report.trades ∧ (∀ row ∈ s, 0 < row.netPnl) ∧ s.length = n}
    report.statistics.maxConsecutiveWins
  losses : IsGreatest {n | ∃ s, s <:+: report.trades ∧ (∀ row ∈ s, row.netPnl < 0) ∧ s.length = n}
    report.statistics.maxConsecutiveLosses
  returns : report.returns.map ReturnPoint.value = periodReturns r.curve
  drawdown : IsGreatest {x | ∃ p ∈ report.drawdowns, p.drawdownRatio = x} report.metrics.maxDrawdown
  calmar : report.risk.calmarRatio.isSome = true ↔ Loses report.drawdowns
  recovery : report.statistics.recoveryFactor.isSome = true ↔ report.trades ≠ [] ∧ Loses report.drawdowns

theorem map_eq_of_forall₂ {α β γ : Type*} {R : α → β → Prop} {f : α → γ} {g : β → γ} (hR : ∀ a b, R a b → f a = g b) :
    ∀ {l : List α} {l' : List β}, List.Forall₂ R l l' → l.map f = l'.map g
  | [], [], .nil => rfl
  | _ :: _, _ :: _, .cons h hl => by rw [List.map_cons, List.map_cons, hR _ _ h, map_eq_of_forall₂ hR hl]

/-- **The parts of a report agree.**  There is a row for each trade, the average duration and the streaks are those of
the rows, the largest drawdown is the greatest of the series, and the ratios over a drawdown are defined where
something is lost. -/
theorem buildReport_contents (h : runBacktest .default inputs intents costModel initialCapital = .ok r)
    {riskFreeRatePerPeriod : Decimal} {report : BacktestReport}
    (hreport : buildReport r labels riskFreeRatePerPeriod symbol timeframe = .ok report) :
    Consistent r riskFreeRatePerPeriod report := by
  have hok := hreport
  simp only [buildReport, bind_eq_ok, mapError_eq_ok] at hok
  obtain ⟨riskFree, hvalid, ⟨⟩, hequity, -⟩ := hok
  cases riskFreeRatePerPeriod with
  | infinity neg => cases hvalid
  | nan => cases hvalid
  | finite d =>
    have hrate : 0 ≤ d.val := by
      by_contra hneg
      rw [validateRf, if_pos (not_le.mp hneg)] at hvalid
      cases hvalid
    have hpos := (validateEquityCurve_ok.mp hequity).2
    obtain ⟨drawdowns, returns, made, hdrawdowns, hvalues, hmade, heq⟩ :=
      @buildReport_eq _ _ _ _ _ labels symbol timeframe h d hrate hpos
    rw [heq] at hreport
    split_ifs at hreport with hle
    obtain ⟨rows, hrows, rfl⟩ := map_eq_ok.mp hreport
    rw [mapError_eq_ok] at hrows
    obtain ⟨htrades, hmetrics, hstatistics, hdrawn, hreturned, hcalmar⟩ := hmade rows
    obtain ⟨points, hpoints, hratios⟩ :=
      computeDrawdownSeries_ok r.equity_nonempty fun p hp => ⟨hpos p hp, aware_of_run h p hp⟩
    rw [hdrawdowns] at hpoints
    cases hpoints
    obtain ⟨hgreatest, hzero⟩ := maxDrawdown_eq_zero r.equity_nonempty hdrawdowns hratios
    have hall := reconstructed_of_ok h hrows
    have hpnls : r.pnls = rows.map fun row => row.netPnl := map_eq_of_forall₂ (fun _ _ hrow => hrow.netPnl.symm) hall
    have hheld : r.trades.map (heldFor r.fills) =
        rows.map fun row => row.exitTimestamp.instant - row.entryTimestamp.instant :=
      map_eq_of_forall₂ (fun _ _ hrow => hrow.held.symm) hall
    have hnil : r.trades = [] ↔ rows = [] := by
      rw [← List.length_eq_zero_iff, ← List.length_eq_zero_iff, hall.length_eq]
    refine ⟨?_, by rw [htrades]; exact hall, ?_, ?_, ?_, by rw [hreturned]; exact hvalues, ?_, ?_, ?_⟩
    · rw [hmetrics]
      refine computeMetrics_eq_ok.mpr ⟨d, rfl, hrate, fun value hvalue => ?_, rfl⟩
      obtain ⟨p, hp, rfl⟩ := List.mem_map.mp hvalue
      exact hpos p hp
    · rw [hstatistics, htrades, ← hheld, ← hall.length_eq]
      simp only [← hnil]
      rfl
    · rw [hstatistics, htrades]
      show IsGreatest _ (maxStreak (0 < ·) r.pnls)
      rw [hpnls, maxStreak_map]
      exact isGreatest_maxStreak rows
    · rw [hstatistics, htrades]
      show IsGreatest _ (maxStreak (· < 0) r.pnls)
      rw [hpnls, maxStreak_map]
      exact isGreatest_maxStreak rows
    · rw [hdrawn, hmetrics]
      exact hgreatest
    · rw [hdrawn]
      simp only [computeCalmarRatio, bind_eq_ok] at hcalmar
      obtain ⟨-, -, hcalmar⟩ := hcalmar
      rw [← Except.ok.inj hcalmar, ← not_iff_not, ← hzero]
      by_cases hmax : maxDrawdown r.curve = 0
      · rw [if_pos hmax]
        exact ⟨fun _ => hmax, fun _ => Bool.false_ne_true⟩
      · rw [if_neg hmax]
        exact ⟨fun hnot => absurd rfl hnot, fun heq => absurd heq hmax⟩
    · rw [hstatistics, hdrawn, htrades, ← maxDrawdownDollar_pos, Ne, ← hnil, ← Ne, ← List.length_pos_iff]
      show (if 0 < r.trades.length ∧ 0 < maxDrawdownDollar drawdowns then some _ else none).isSome = true ↔ _
      by_cases hdefined : 0 < r.trades.length ∧ 0 < maxDrawdownDollar drawdowns
      · rw [if_pos hdefined]
        exact ⟨fun _ => hdefined, fun _ => rfl⟩
      · rw [if_neg hdefined]
        exact ⟨fun hnot => absurd hnot Bool.false_ne_true, fun hboth => absurd hboth hdefined⟩

end Run

/-- The report of the sample run with a slippage of one percent. -/
def sampleReport : Option BacktestReport :=
  (runBacktest .default sampleInput flatIntents slippingCosts 1000).toOption.bind fun r =>
    (buildReport r [] (.finite (.ofNat 0)) (some "INFY") none).toOption

theorem isSome_sampleReport : sampleReport.isSome = true := by decide +kernel

theorem buildReport_outcome_sample : ∃ r, runBacktest .default sampleInput flatIntents slippingCosts 1000 = .ok r ∧
    (buildReport r [] (.finite (.ofNat 0)) (some "INFY") none).map (fun _ => ()) = refusal r (.finite (.ofNat 0)) := by
  obtain ⟨r, hr⟩ := exists_ok (x := runBacktest .default sampleInput flatIntents slippingCosts 1000) (by decide +kernel)
  exact ⟨r, hr, (buildReport_outcome hr [] (.finite (.ofNat 0)) (some "INFY") none).1⟩

theorem buildReport_contents_sample : ∃ r report,
    runBacktest .default sampleInput flatIntents slippingCosts 1000 = .ok r ∧
      Consistent r (.finite (.ofNat 0)) report := by
  obtain ⟨r, hr⟩ := exists_ok (x := runBacktest .default sampleInput flatIntents slippingCosts 1000) (by decide +kernel)
  have hsome := isSome_sampleReport
  rw [sampleReport, hr] at hsome
  obtain ⟨report, hreport⟩ := exists_ok hsome
  exact ⟨r, report, hr, buildReport_contents hr hreport⟩

end AlphaAlgo.Backtest
