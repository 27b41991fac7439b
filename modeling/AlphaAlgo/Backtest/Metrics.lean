import AlphaAlgo.Backtest.Runs

/-!
# Metrics — the performance metrics of a run

`computeMetrics` is a pure function of a run and a risk-free rate per record.  Its loop over the equity curve keeps the
peak and the largest drawdown from it.

* `computeMetrics_eq_ok`: it answers exactly when the rate is valid and the equity stays positive.
-/

namespace AlphaAlgo.Backtest

open Loop

/-- What `compute_metrics` raises. -/
inductive MetricsError where
  | engine (text : String)
  | metrics (text : String)
deriving DecidableEq

structure BacktestMetrics where
  initialCapital : ℚ
  finalEquity : ℚ
  totalReturn : ℚ
  tradeCount : ℕ
  wins : ℕ
  losses : ℕ
  breakevens : ℕ
  winRate : Option ℚ
  grossProfit : ℚ
  grossLoss : ℚ
  profitFactor : Option ℚ
  maxDrawdown : ℚ
  sharpeRatio : Option ℚ
  riskFreeRatePerPeriod : ℚ

/-! ### Arithmetic in a context -/

/-- `sum(values, Decimal("0"))` in a context. -/
def contextTotal (c : Ctx) (values : List ℚ) : ℚ := values.foldl (fun total x => c.fix (total + x)) 0

theorem contextTotal_exact (values : List ℚ) : contextTotal .exact values = values.sum := by
  rw [contextTotal, List.sum_eq_foldl]
  rfl

/-- `x.sqrt()` of a number that is not negative: the nearest number with 28 digits, ties to the even one. -/
def decimalSqrt (x : ℚ) : ℚ :=
  if x ≤ 0 then 0
  else
    let e := Int.log 10 x / 2 + 1 - 28
    let q := x / 10 ^ (2 * e)
    let n := Nat.sqrt ⌊q⌋₊
    if q < (n + 1 / 2) ^ 2 ∨ (q = (n + 1 / 2) ^ 2 ∧ n % 2 = 0) then n * 10 ^ e else (n + 1) * 10 ^ e

/-- The returns between consecutive equity marks. -/
def periodReturns : List ℚ → List ℚ
  | previous :: current :: rest =>
    Ctx.default.fix (Ctx.default.fix (current - previous) / previous) :: periodReturns (current :: rest)
  | _ => []

/-- The Sharpe ratio per record; the deviation is that of the population.  A square is rounded once here; `** 2` rounds it to
some more digits first. -/
def sharpe (returns : List ℚ) (riskFree : ℚ) : Option ℚ :=
  if returns.length < 2 then none
  else
    let mean := Ctx.default.fix (contextTotal .default returns / returns.length)
    let squares := returns.map fun r => Ctx.default.fix (Ctx.default.fix (r - mean) ^ 2)
    let std := decimalSqrt (Ctx.default.fix (contextTotal .default squares / returns.length))
    if std = 0 then none else some (Ctx.default.fix (Ctx.default.fix (mean - riskFree) / std))

/-! ### Drawdown -/

/-- The drawdown from a peak, as a ratio. -/
def drawdownRatio (peak equity : ℚ) : ℚ := Ctx.default.fix (Ctx.default.fix (peak - equity) / peak)

/-- The state of the drawdown loop. -/
structure Peak where
  peak : ℚ
  maxDrawdown : ℚ

/-- One round of the loop. -/
def Peak.step (s : Peak) (value : ℚ) : Peak :=
  let peak := if s.peak < value then value else s.peak
  let drawdown := drawdownRatio peak value
  ⟨peak, if s.maxDrawdown < drawdown then drawdown else s.maxDrawdown⟩

/-- The largest drawdown of a curve. -/
def maxDrawdown : List ℚ → ℚ
  | [] => 0
  | first :: rest => ((first :: rest).foldl Peak.step ⟨first, 0⟩).maxDrawdown

/-! ### The metrics -/

/-- The equities of a run. -/
def BacktestRun.curve (r : BacktestRun) : List ℚ := r.equityCurve.map EquityPoint.equity

/-- The metrics, once the arguments are checked. -/
def metricsOf (r : BacktestRun) (riskFree : ℚ) : BacktestMetrics :=
  let pnls := r.trades.map TradeRecord.realizedPnl
  let grossProfit := contextTotal .default (pnls.filter (0 < ·))
  let grossLoss := contextTotal .default ((pnls.filter (· < 0)).map fun pnl => Ctx.default.fix (-pnl))
  { initialCapital := r.initialCapital
    finalEquity := r.finalEquity
    totalReturn := Ctx.default.fix (Ctx.default.fix (r.finalEquity - r.initialCapital) / r.initialCapital)
    tradeCount := r.trades.length
    wins := (pnls.filter (0 < ·)).length
    losses := (pnls.filter (· < 0)).length
    breakevens := (pnls.filter (· = 0)).length
    winRate :=
      if 0 < r.trades.length then some (Ctx.default.fix ((pnls.filter (0 < ·)).length / r.trades.length)) else none
    grossProfit := grossProfit
    grossLoss := grossLoss
    profitFactor := if 0 < grossLoss then some (Ctx.default.fix (grossProfit / grossLoss)) else none
    maxDrawdown := maxDrawdown r.curve
    sharpeRatio := sharpe (periodReturns r.curve) riskFree
    riskFreeRatePerPeriod := riskFree }

def computeMetrics (r : BacktestRun) (riskFreeRatePerPeriod : Decimal) : Except MetricsError BacktestMetrics :=
  match riskFreeRatePerPeriod with
  | .finite d => do
    raiseIf (d.val < 0) (.engine "risk_free_rate_per_period must be a non-negative finite Decimal")
    raiseIf (∃ value ∈ r.curve, value ≤ 0)
      (.metrics "marked equity must stay positive to compute honest metrics")
    return metricsOf r d.val
  | _ => .error (.engine "risk_free_rate_per_period must be a non-negative finite Decimal")

theorem computeMetrics_eq_ok {r : BacktestRun} {riskFree : Decimal} {m : BacktestMetrics} :
    computeMetrics r riskFree = .ok m ↔
      ∃ d, riskFree = .finite d ∧ 0 ≤ d.val ∧ (∀ value ∈ r.curve, 0 < value) ∧ m = metricsOf r d.val := by
  cases riskFree with
  | finite d =>
    simp only [computeMetrics, bind_eq_ok, raiseIf_eq_ok, not_lt, not_exists, not_and, not_le]
    constructor
    · rintro ⟨-, hrate, -, hpos, hm⟩
      exact ⟨d, rfl, hrate, hpos, (Except.ok.inj hm).symm⟩
    · rintro ⟨d', hd, hrate, hpos, rfl⟩
      cases hd
      exact ⟨(), hrate, (), hpos, rfl⟩
  | infinity neg => simp [computeMetrics]
  | nan => simp [computeMetrics]

end AlphaAlgo.Backtest
