import AlphaAlgo.Backtest.Quality
import AlphaAlgo.Backtest.Report
import AlphaAlgo.Backtest.RoundTrips
import AlphaAlgo.Lib.Streaks

/-!
# Statistics — the trade statistics of a run

`computeTradeStatistics` aggregates the completed trades of a run.  Every division is one that can raise, and the sum of
the durations is one of `timedelta`s, which have a greatest value.

* `run_addDelta`: the sum of the durations, or that it is too long.
* `tradeDuration_run`: a trade lasts from its buy to the last of its sales.
* `computeTradeStatistics_run`: what is computed for a run; only the sum of the durations can raise.
-/

namespace AlphaAlgo.Backtest

open Loop

/-- What the assembly of a report raises. -/
inductive BuildError where
  | report (e : ReportError)
  | engine (e : MetricsError)
  /-- `OverflowError` of a `timedelta`. -/
  | overflow
  /-- `decimal.DivisionByZero`. -/
  | zeroDivision
deriving DecidableEq

/-! ### Arithmetic that can raise -/

/-- A quotient with 28 digits. -/
def divide (x y : ℚ) : Except BuildError ℚ := if y = 0 then .error .zeroDivision else .ok (Ctx.default.fix (x / y))

/-- `x / y if defined else None`. -/
def divideIf (defined : Prop) [Decidable defined] (x y : ℚ) : Except BuildError (Option ℚ) :=
  if defined then (divide x y).map some else .ok none

/-- `timedelta.min` and `timedelta.max`, in microseconds. -/
def minDelta : ℤ := -86399999913600000000

def maxDelta : ℤ := 86399999999999999999

/-- The sum of two `timedelta`s. -/
def addDelta (a b : ℤ) : Except BuildError ℤ :=
  if a + b < minDelta ∨ maxDelta < a + b then .error .overflow else .ok (a + b)

/-! ### The statistics -/

/-- One round of the loop of `_average_trade_duration`, in microseconds. -/
def tradeDuration (fills : List FillRecord) (t : TradeRecord) : Except BuildError ℤ :=
  match bySequence fills t.entryFillSequence with
  | none => .error (.report (.report "trade references an unknown entry fill sequence"))
  | some entry => do
    match ← (exitFills fills t.exitFillSequences).mapError .report with
    | [] => .error (.report (.report "trade must have at least one exit fill sequence"))
    | exit :: exits =>
      match (latest exit exits).filledAt.sub? entry.filledAt with
      | none => .error (.report (.report "fill timestamps must share timezone awareness"))
      | some duration => do
        raiseIf (duration < 0) (.report (.report "exit fill must not precede the entry fill"))
        return duration

/-- `_average_trade_duration`; a `timedelta` is divided to the nearest microsecond, ties to the even one. -/
def averageTradeDuration (fills : List FillRecord) (trades : List TradeRecord) : Except BuildError (Option ℤ) := do
  raiseIf (¬(fills.map FillRecord.sequence).Nodup) (.report (.report "fill sequences must be unique"))
  let durations ← trades.mapM (tradeDuration fills)
  if durations = [] then return none
  else do
    let total ← run addDelta 0 durations
    return some (halfEven (total / durations.length))

/-- The fields of the statistics, before their checks. -/
structure StatisticsFields where
  netProfit : ℚ
  lossRate : Option ℚ
  expectancy : Option ℚ
  avgWin : Option ℚ
  avgLoss : Option ℚ
  riskRewardRatio : Option ℚ
  largestWin : Option ℚ
  largestLoss : Option ℚ
  maxConsecutiveWins : ℕ
  maxConsecutiveLosses : ℕ
  averageTradeDuration : Option ℤ
  recoveryFactor : Option ℚ
  totalFees : ℚ
  totalSlippage : ℚ
deriving DecidableEq

/-- `TradeStatistics.__post_init__`. -/
def StatisticsFields.check (f : StatisticsFields) : Except BuildError Unit := do
  raiseIf (∃ x ∈ f.avgWin, x < 0) (.report (.report "TradeStatistics.avg_win must be non-negative"))
  raiseIf (∃ x ∈ f.avgLoss, x < 0) (.report (.report "TradeStatistics.avg_loss must be non-negative"))
  raiseIf (∃ x ∈ f.largestWin, x < 0) (.report (.report "TradeStatistics.largest_win must be non-negative"))
  raiseIf (∃ x ∈ f.largestLoss, x < 0) (.report (.report "TradeStatistics.largest_loss must be non-negative"))
  raiseIf (f.totalFees < 0) (.report (.report "TradeStatistics.total_fees must be a non-negative finite Decimal"))
  raiseIf (f.totalSlippage < 0)
    (.report (.report "TradeStatistics.total_slippage must be a non-negative finite Decimal"))

/-- Statistics: their fields passed the checks. -/
structure TradeStatistics extends StatisticsFields where
  valid : toStatisticsFields.check = .ok ()

/-- `BacktestRun.total_commission`. -/
def BacktestRun.totalCommission (r : BacktestRun) : ℚ := contextTotal .default (r.fills.map FillRecord.commissionAmount)

/-- What the trades of a run realized. -/
def BacktestRun.pnls (r : BacktestRun) : List ℚ := r.trades.map TradeRecord.realizedPnl

/-- The average duration, where there are trades. -/
def BacktestRun.averageDuration (r : BacktestRun) : Except BuildError (Option ℤ) :=
  if 0 < r.trades.length then averageTradeDuration r.fills r.trades else .ok none

def computeTradeStatistics (r : BacktestRun) (metrics : BacktestMetrics) (maxDrawdownDollar : ℚ) :
    Except BuildError TradeStatistics := do
  raiseIf (maxDrawdownDollar < 0) (.report (.report "max_drawdown_dollar must be a non-negative finite Decimal"))
  let tradeCount := r.trades.length
  let netProfit := contextTotal .default r.pnls
  let lossRate ← divideIf (0 < tradeCount) metrics.losses tradeCount
  let expectancy ← divideIf (0 < tradeCount) netProfit tradeCount
  let avgWin ← divideIf (0 < metrics.wins) metrics.grossProfit metrics.wins
  let avgLoss ← divideIf (0 < metrics.losses) metrics.grossLoss metrics.losses
  let riskRewardRatio ← divideIf (avgWin.isSome ∧ avgLoss.isSome) (avgWin.getD 0) (avgLoss.getD 0)
  let average ← r.averageDuration
  let recoveryFactor ← divideIf (0 < tradeCount ∧ 0 < maxDrawdownDollar) netProfit maxDrawdownDollar
  let fields : StatisticsFields :=
    { netProfit := netProfit
      lossRate := lossRate
      expectancy := expectancy
      avgWin := avgWin
      avgLoss := avgLoss
      riskRewardRatio := riskRewardRatio
      largestWin := (r.pnls.filter (0 < ·)).max?
      largestLoss := ((r.pnls.filter (· < 0)).map fun pnl => Ctx.default.fix (-pnl)).max?
      maxConsecutiveWins := maxStreak (0 < ·) r.pnls
      maxConsecutiveLosses := maxStreak (· < 0) r.pnls
      averageTradeDuration := average
      recoveryFactor := recoveryFactor
      totalFees := r.totalCommission
      totalSlippage := r.totalSlippageCost .default }
  accept fields.check fun h => ⟨fields, h⟩

/-! ### Sums and quotients -/

theorem foldl_fix_pos : ∀ {l : List ℚ} {s : ℚ}, 0 < s → (∀ x ∈ l, 0 ≤ x) →
    0 < l.foldl (fun total x => Ctx.default.fix (total + x)) s
  | [], _, hs, _ => hs
  | _ :: _, _, hs, h => by
    obtain ⟨hx, hl⟩ := List.forall_mem_cons.mp h
    rw [List.foldl_cons]
    exact foldl_fix_pos (fix_pos (add_pos_of_pos_of_nonneg hs hx)) hl

theorem contextTotal_pos {l : List ℚ} (hne : l ≠ []) (h : ∀ x ∈ l, 0 < x) : 0 < contextTotal .default l := by
  obtain ⟨x, l, rfl⟩ := List.exists_cons_of_ne_nil hne
  obtain ⟨hx, hl⟩ := List.forall_mem_cons.mp h
  rw [contextTotal, List.foldl_cons, zero_add]
  exact foldl_fix_pos (fix_pos hx) fun y hy => (hl y hy).le

theorem foldl_fix_nonneg : ∀ {l : List ℚ} {s : ℚ}, 0 ≤ s → (∀ x ∈ l, 0 ≤ x) →
    0 ≤ l.foldl (fun total x => Ctx.default.fix (total + x)) s
  | [], _, hs, _ => hs
  | _ :: _, _, hs, h => by
    obtain ⟨hx, hl⟩ := List.forall_mem_cons.mp h
    rw [List.foldl_cons]
    exact foldl_fix_nonneg (fix_nonneg (add_nonneg hs hx)) hl

theorem contextTotal_nonneg {l : List ℚ} (h : ∀ x ∈ l, 0 ≤ x) : 0 ≤ contextTotal .default l := foldl_fix_nonneg le_rfl h

/-- A quotient that is defined does not raise. -/
theorem divideIf_eq {defined : Prop} [Decidable defined] {x y : ℚ} (h : defined → y ≠ 0) :
    divideIf defined x y = .ok (if defined then some (Ctx.default.fix (x / y)) else none) := by
  unfold divideIf divide
  split_ifs with hdefined hzero
  · exact absurd hzero (h hdefined)
  · rfl
  · rfl

/-- The ratio of two quotients that may be undefined. -/
theorem riskReward_eq {p q : Prop} [Decidable p] [Decidable q] {x y : ℚ} (h : q → y ≠ 0) :
    divideIf ((if p then some x else none).isSome ∧ (if q then some y else none).isSome)
      ((if p then some x else none).getD 0) ((if q then some y else none).getD 0) =
      .ok (if p ∧ q then some (Ctx.default.fix (x / y)) else none) := by
  by_cases hp : p
  · by_cases hq : q
    · have hy : y ≠ 0 := h hq
      simp [divideIf, divide, hp, hq, hy, Except.map]
    · simp [divideIf, hq]
  · simp [divideIf, hp]

/-- **The sum of durations** raises exactly when it is too long. -/
theorem run_addDelta : ∀ {ds : List ℤ} {a : ℤ}, 0 ≤ a → a ≤ maxDelta → (∀ d ∈ ds, 0 ≤ d) →
    run addDelta a ds = if a + ds.sum ≤ maxDelta then .ok (a + ds.sum) else .error .overflow
  | [], a, _, ha, _ => by
    rw [List.sum_nil, add_zero, if_pos ha, run_nil]
  | d :: ds, a, h0, _, h => by
    obtain ⟨hd, hds⟩ := List.forall_mem_cons.mp h
    have hsum : 0 ≤ ds.sum := List.sum_nonneg hds
    have hmin : ¬a + d < minDelta := by
      unfold minDelta
      omega
    rw [run_cons, List.sum_cons, ← add_assoc]
    by_cases hle : a + d ≤ maxDelta
    · have hstep : addDelta a d = .ok (a + d) := if_neg (not_or.mpr ⟨hmin, not_lt.mpr hle⟩)
      rw [hstep]
      exact run_addDelta (add_nonneg h0 hd) hle hds
    · have hstep : addDelta a d = .error .overflow := if_pos (.inr (not_le.mp hle))
      rw [hstep, if_neg (by omega)]
      rfl

/-! ### How long a trade lasts -/

/-- When the fill with a sequence was. -/
def timeOf (fills : List FillRecord) (sequence : ℕ) : ℤ :=
  ((bySequence fills sequence).map fun f => f.filledAt.instant).getD 0

/-- From the buy to the last of the sales, in microseconds. -/
def heldFor (fills : List FillRecord) (t : TradeRecord) : ℤ :=
  ((t.exitFillSequences.map (timeOf fills)).max?.getD 0) - timeOf fills t.entryFillSequence

theorem latest_instant (first : FillRecord) (rest : List FillRecord) : (latest first rest).filledAt.instant =
    (rest.map fun f => f.filledAt.instant).foldl max first.filledAt.instant := by
  induction rest generalizing first with
  | nil => rfl
  | cons f rest ih =>
    have hstep : latest first (f :: rest) =
        latest (if first.filledAt.instant < f.filledAt.instant then f else first) rest := rfl
    rw [hstep, ih, List.map_cons, List.foldl_cons]
    by_cases h : first.filledAt.instant < f.filledAt.instant
    · rw [if_pos h, max_eq_right h.le]
    · rw [if_neg h, max_eq_left (not_lt.mp h)]

theorem latest_mem (first : FillRecord) (rest : List FillRecord) : latest first rest ∈ first :: rest := by
  induction rest generalizing first with
  | nil => exact List.mem_cons_self
  | cons f rest ih =>
    have hstep : latest first (f :: rest) =
        latest (if first.filledAt.instant < f.filledAt.instant then f else first) rest := rfl
    rw [hstep]
    rcases List.mem_cons.mp (ih (if first.filledAt.instant < f.filledAt.instant then f else first)) with heq | hmem
    · rw [heq]
      split_ifs
      · exact List.mem_cons_of_mem _ List.mem_cons_self
      · exact List.mem_cons_self
    · exact List.mem_cons_of_mem _ (List.mem_cons_of_mem _ hmem)

section Trade

variable {fills : List FillRecord} {t : TradeRecord}

/-- The exit fills are there. -/
theorem exitFills_ok (hnodup : (fills.map FillRecord.sequence).Nodup) : ∀ {sequences : List ℕ},
    (∀ n ∈ sequences, ∃ f ∈ fills, f.sequence = n) → ∃ exits, exitFills fills sequences = .ok exits ∧
      exits.map FillRecord.sequence = sequences ∧ ∀ f ∈ exits, f ∈ fills
  | [], _ => ⟨[], rfl, rfl, by simp⟩
  | n :: sequences, h => by
    obtain ⟨⟨f, hf, rfl⟩, hrest⟩ := List.forall_mem_cons.mp h
    obtain ⟨exits, hexits, hmap, hmem⟩ := exitFills_ok hnodup hrest
    refine ⟨f :: exits, ?_, by rw [List.map_cons, hmap], List.forall_mem_cons.mpr ⟨hf, hmem⟩⟩
    rw [exitFills, bySequence_of_mem hnodup hf, hexits]
    rfl

theorem timeOf_of_mem (hnodup : (fills.map FillRecord.sequence).Nodup) {f : FillRecord} (hf : f ∈ fills) :
    timeOf fills f.sequence = f.filledAt.instant := by
  rw [timeOf, bySequence_of_mem hnodup hf]
  rfl

/-- The fills of a trade: its buy, and its sales with the last of them. -/
theorem exists_fills (hnodup : (fills.map FillRecord.sequence).Nodup) (h : t.Kept fills) :
    ∃ buy exit exits, buy ∈ fills ∧ buy.side = .buy ∧ bySequence fills t.entryFillSequence = some buy ∧
      exitFills fills t.exitFillSequences = .ok (exit :: exits) ∧
      (exit :: exits).map FillRecord.sequence = t.exitFillSequences ∧ (∀ f ∈ exit :: exits, f ∈ fills ∧ f.side = .sell) ∧
      heldFor fills t = (latest exit exits).filledAt.instant - buy.filledAt.instant ∧ 0 ≤ heldFor fills t := by
  obtain ⟨buy, hbuy, hentry, hside, hsales⟩ := h.roundTrip
  have hthere : ∀ n ∈ t.exitFillSequences, ∃ f ∈ fills, f.sequence = n := by
    intro n hn
    obtain ⟨sale, hsale, hn, -⟩ := hsales n hn
    exact ⟨sale, hsale, hn⟩
  obtain ⟨exits, hexits, hmap, hmem⟩ := exitFills_ok hnodup hthere
  cases exits with
  | nil => exact absurd hmap.symm h.exits_ne_nil
  | cons exit exits =>
    -- each exit fill is the sale of the round trip with its sequence
    have hsale : ∀ f ∈ exit :: exits, f.side = .sell ∧ buy.filledAt.instant ≤ f.filledAt.instant := by
      intro f hf
      obtain ⟨sale, hsale, hn, hsell, hle⟩ := hsales f.sequence (hmap ▸ List.mem_map_of_mem hf)
      rw [List.inj_on_of_nodup_map hnodup (hmem f hf) hsale hn.symm]
      exact ⟨hsell, hle⟩
    have htimes : t.exitFillSequences.map (timeOf fills) = (exit :: exits).map fun f => f.filledAt.instant := by
      rw [← hmap, List.map_map]
      exact List.map_congr_left fun f hf => timeOf_of_mem hnodup (hmem f hf)
    have hheld : heldFor fills t = (latest exit exits).filledAt.instant - buy.filledAt.instant := by
      rw [heldFor, htimes, ← hentry, timeOf_of_mem hnodup hbuy, latest_instant, List.map_cons, List.max?_cons']
      rfl
    refine ⟨buy, exit, exits, hbuy, hside, hentry ▸ bySequence_of_mem hnodup hbuy, hexits, hmap, ?_, hheld, ?_⟩
    · exact fun f hf => ⟨hmem f hf, (hsale f hf).1⟩
    · rw [hheld]
      exact sub_nonneg.mpr (hsale _ (latest_mem exit exits)).2

/-- **A trade lasts** from its buy to the last of its sales. -/
theorem tradeDuration_run (hnodup : (fills.map FillRecord.sequence).Nodup) (haware : ∀ f ∈ fills, f.filledAt.aware = true)
    (h : t.Kept fills) : tradeDuration fills t = .ok (heldFor fills t) := by
  obtain ⟨buy, exit, exits, hbuy, -, hentry, hexits, -, hmem, hheld, hnonneg⟩ := exists_fills hnodup h
  have hsub : (latest exit exits).filledAt.sub? buy.filledAt = some (heldFor fills t) := by
    rw [hheld]
    exact sub?_of_aware (haware _ (hmem _ (latest_mem exit exits)).1) (haware buy hbuy)
  rw [tradeDuration, hentry, hexits]
  dsimp only [Except.mapError, bind, Except.bind]
  rw [hsub]
  dsimp only
  rw [raiseIf, if_neg (not_lt.mpr hnonneg)]
  rfl

end Trade

/-! ### The statistics of a run -/

/-- How long all trades last. -/
def BacktestRun.totalTime (r : BacktestRun) : ℤ := (r.trades.map (heldFor r.fills)).sum

/-- What is computed for a run. -/
def statisticsOf (r : BacktestRun) (metrics : BacktestMetrics) (maxDrawdownDollar : ℚ) : StatisticsFields where
  netProfit := contextTotal .default r.pnls
  lossRate := if 0 < r.trades.length then some (Ctx.default.fix (metrics.losses / r.trades.length)) else none
  expectancy :=
    if 0 < r.trades.length then some (Ctx.default.fix (contextTotal .default r.pnls / r.trades.length)) else none
  avgWin := if 0 < metrics.wins then some (Ctx.default.fix (metrics.grossProfit / metrics.wins)) else none
  avgLoss := if 0 < metrics.losses then some (Ctx.default.fix (metrics.grossLoss / metrics.losses)) else none
  riskRewardRatio :=
    if 0 < metrics.wins ∧ 0 < metrics.losses then
      some (Ctx.default.fix (Ctx.default.fix (metrics.grossProfit / metrics.wins) /
        Ctx.default.fix (metrics.grossLoss / metrics.losses)))
    else none
  largestWin := (r.pnls.filter (0 < ·)).max?
  largestLoss := ((r.pnls.filter (· < 0)).map fun pnl => Ctx.default.fix (-pnl)).max?
  maxConsecutiveWins := maxStreak (0 < ·) r.pnls
  maxConsecutiveLosses := maxStreak (· < 0) r.pnls
  averageTradeDuration := if r.trades = [] then none else some (halfEven (r.totalTime / r.trades.length))
  recoveryFactor :=
    if 0 < r.trades.length ∧ 0 < maxDrawdownDollar then
      some (Ctx.default.fix (contextTotal .default r.pnls / maxDrawdownDollar))
    else none
  totalFees := r.totalCommission
  totalSlippage := r.totalSlippageCost .default

section Run

variable {inputs : BacktestInput} {intents : List OrderIntent} {costModel : CostModel} {initialCapital : ℚ}
  {r : BacktestRun}

theorem totalTime_nil (h : r.trades = []) : r.totalTime ≤ maxDelta := by
  rw [BacktestRun.totalTime, h, List.map_nil, List.sum_nil]
  decide

theorem averageDuration_run (h : runBacktest .default inputs intents costModel initialCapital = .ok r) :
    r.averageDuration = if r.totalTime ≤ maxDelta then
      .ok (if r.trades = [] then none else some (halfEven (r.totalTime / r.trades.length))) else .error .overflow := by
  have hnodup := (exists_replay h).1.sequences
  have haware : ∀ f ∈ r.fills, f.filledAt.aware = true := fun f hf => (sound_of_run h hf).1.aware
  have hdurations : r.trades.mapM (tradeDuration r.fills) = .ok (r.trades.map (heldFor r.fills)) :=
    mapM_ok fun t ht => tradeDuration_run hnodup haware (trades_kept h ht).1
  have hnonneg : ∀ d ∈ r.trades.map (heldFor r.fills), 0 ≤ d := by
    intro d hd
    obtain ⟨t, ht, rfl⟩ := List.mem_map.mp hd
    obtain ⟨_, _, _, -, -, -, -, -, -, -, hd⟩ := exists_fills hnodup (trades_kept h ht).1
    exact hd
  have htotal : run addDelta 0 (r.trades.map (heldFor r.fills)) =
      if r.totalTime ≤ maxDelta then .ok r.totalTime else .error .overflow := by
    rw [run_addDelta le_rfl (by unfold maxDelta; omega) hnonneg, zero_add]
    rfl
  rw [BacktestRun.averageDuration]
  by_cases hempty : r.trades = []
  · have hnone : ¬0 < r.trades.length := by simp [hempty]
    rw [if_neg hnone, if_pos (totalTime_nil hempty), if_pos hempty]
  · have hsome : r.trades.map (heldFor r.fills) ≠ [] := fun hnil => hempty (List.map_eq_nil_iff.mp hnil)
    rw [if_pos (List.length_pos_iff.mpr hempty), averageTradeDuration, raiseIf, if_neg (not_not.mpr hnodup), hdurations]
    dsimp only [bind, Except.bind]
    rw [if_neg hsome, htotal, if_neg hempty, List.length_map]
    split_ifs
    · rfl
    · rfl

/-- The metrics have a gross loss where they have losses. -/
theorem avgLoss_pos (riskFree : ℚ) (hlosses : 0 < (metricsOf r riskFree).losses) :
    0 < Ctx.default.fix ((metricsOf r riskFree).grossLoss / (metricsOf r riskFree).losses) := by
  refine fix_pos (div_pos (contextTotal_pos ?_ ?_) (by exact_mod_cast hlosses))
  · intro hnil
    rw [List.map_eq_nil_iff] at hnil
    exact hlosses.ne' (List.length_eq_zero_iff.mpr hnil)
  · intro x hx
    obtain ⟨pnl, hpnl, rfl⟩ := List.mem_map.mp hx
    exact fix_pos (neg_pos.mpr (of_decide_eq_true (List.mem_filter.mp hpnl).2))

theorem grossProfit_nonneg (r : BacktestRun) (riskFree : ℚ) : 0 ≤ (metricsOf r riskFree).grossProfit :=
  contextTotal_nonneg fun _ hx => (of_decide_eq_true (List.mem_filter.mp hx).2 : _ < _).le

theorem fees_nonneg (h : runBacktest .default inputs intents costModel initialCapital = .ok r) :
    0 ≤ r.totalCommission ∧ 0 ≤ r.totalSlippageCost .default := by
  constructor
  · refine contextTotal_nonneg fun x hx => ?_
    obtain ⟨f, hf, rfl⟩ := List.mem_map.mp hx
    exact (sound_of_run h hf).1.commission_nonneg
  · refine contextTotal_nonneg fun x hx => ?_
    obtain ⟨f, hf, rfl⟩ := List.mem_map.mp hx
    have hsound := (sound_of_run h hf).1
    exact fix_nonneg (mul_nonneg hsound.slippage_nonneg hsound.quantity_pos.le)

/-- The statistics of a run pass their checks. -/
theorem statisticsOf_valid (h : runBacktest .default inputs intents costModel initialCapital = .ok r) (riskFree : ℚ)
    (maxDrawdownDollar : ℚ) : (statisticsOf r (metricsOf r riskFree) maxDrawdownDollar).check = .ok () := by
  obtain ⟨hfees, hslippage⟩ := fees_nonneg h
  have hprofit := grossProfit_nonneg r riskFree
  simp only [StatisticsFields.check, bind_eq_ok, raiseIf_eq_ok, exists_const, not_exists, not_and, not_lt]
  refine ⟨fun x hx => ?_, fun x hx => ?_, fun x hx => ?_, fun x hx => ?_, hfees, hslippage⟩
  · simp only [statisticsOf] at hx
    split_ifs at hx with hwins
    · obtain rfl := Option.some.inj hx
      exact fix_nonneg (div_nonneg hprofit (Nat.cast_nonneg _))
    · cases hx
  · simp only [statisticsOf] at hx
    split_ifs at hx with hlosses
    · obtain rfl := Option.some.inj hx
      exact (avgLoss_pos riskFree hlosses).le
    · cases hx
  · have hmem := List.max?_mem hx
    exact (of_decide_eq_true (List.mem_filter.mp hmem).2 : _ < _).le
  · have hmem := List.max?_mem hx
    obtain ⟨pnl, hpnl, rfl⟩ := List.mem_map.mp hmem
    exact fix_nonneg (neg_nonneg.mpr (of_decide_eq_true (List.mem_filter.mp hpnl).2 : _ < _).le)

/-- **The statistics of a run.**  Nothing but the sum of the durations can raise. -/
theorem computeTradeStatistics_run (h : runBacktest .default inputs intents costModel initialCapital = .ok r)
    (riskFree : ℚ) {maxDrawdownDollar : ℚ} (hdrawdown : 0 ≤ maxDrawdownDollar) :
    computeTradeStatistics r (metricsOf r riskFree) maxDrawdownDollar = if r.totalTime ≤ maxDelta then
      .ok ⟨statisticsOf r (metricsOf r riskFree) maxDrawdownDollar, statisticsOf_valid h riskFree maxDrawdownDollar⟩
      else .error .overflow := by
  have hcount : 0 < r.trades.length → (r.trades.length : ℚ) ≠ 0 := fun hpos => by exact_mod_cast hpos.ne'
  have hwins : 0 < (metricsOf r riskFree).wins → ((metricsOf r riskFree).wins : ℚ) ≠ 0 :=
    fun hpos => by exact_mod_cast hpos.ne'
  have hlosses : 0 < (metricsOf r riskFree).losses → ((metricsOf r riskFree).losses : ℚ) ≠ 0 :=
    fun hpos => by exact_mod_cast hpos.ne'
  have hrecovery : 0 < r.trades.length ∧ 0 < maxDrawdownDollar → maxDrawdownDollar ≠ 0 := fun hpos => hpos.2.ne'
  simp only [computeTradeStatistics, raiseIf, if_neg (not_lt.mpr hdrawdown), divideIf_eq hcount, divideIf_eq hwins,
    divideIf_eq hlosses, divideIf_eq hrecovery, riskReward_eq fun hpos => (avgLoss_pos riskFree hpos).ne',
    averageDuration_run h, bind, Except.bind]
  by_cases hle : r.totalTime ≤ maxDelta
  · rw [if_pos hle, if_pos hle]
    exact accept_of_ok _ (statisticsOf_valid h riskFree maxDrawdownDollar)
  · rw [if_neg hle, if_neg hle]

end Run

end AlphaAlgo.Backtest
