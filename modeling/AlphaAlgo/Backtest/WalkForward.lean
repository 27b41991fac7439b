import AlphaAlgo.Backtest.Metrics
import AlphaAlgo.Backtest.Windows
import AlphaAlgo.Lib.Coverage

/-!
# WalkForward — a walk-forward test and its coverage

`runWalkForward` builds the schedule, has the caller's runner answer each window, aggregates the answers and counts
the records that some window covers.

* `metricStats`, `aggregatePeriods`: the statistics over the windows.
* `runPeriods`, `runWalkForward`: the harness; the runner is a parameter.
* `coverage_eq`: the flags of the harness count the union of all slices.
* `walkForward_coverage`: the schedule and what is reported of it.
-/

namespace AlphaAlgo.Backtest

open Loop

/-! ### The aggregate -/

/-- `AGGREGATED_METRICS`. -/
inductive Metric where
  | totalReturn
  | winRate
  | profitFactor
  | maxDrawdown
  | sharpeRatio
  | tradeCount
deriving DecidableEq

def aggregatedMetrics : List Metric := [.totalReturn, .winRate, .profitFactor, .maxDrawdown, .sharpeRatio, .tradeCount]

namespace Metric

def value (m : BacktestMetrics) : Metric → Option ℚ
  | totalReturn => some m.totalReturn
  | winRate => m.winRate
  | profitFactor => m.profitFactor
  | maxDrawdown => some m.maxDrawdown
  | sharpeRatio => m.sharpeRatio
  | tradeCount => some m.tradeCount

/-- `DEGRADATION_DIRECTIONS`; there is none for the trade count. -/
def direction : Metric → Option ℚ
  | tradeCount => none
  | maxDrawdown => some (-1)
  | _ => some 1

end Metric

/-- The last three fields are the checks of `__post_init__`. -/
structure MetricStats where
  mean : Option ℚ
  median : Option ℚ
  stdev : Option ℚ
  count : ℕ
  undefined : count = 0 → mean = none ∧ median = none ∧ stdev = none
  defined : count ≠ 0 → mean.isSome = true ∧ median.isSome = true
  single : count = 1 → stdev = none

/-- The middle of sorted values. -/
def medianOf (c : Ctx) (ordered : List ℚ) : ℚ :=
  let count := ordered.length
  if count % 2 = 1 then ordered.getD (count / 2) 0
  else c.fix (c.fix (ordered.getD (count / 2 - 1) 0 + ordered.getD (count / 2) 0) / 2)

/-- `_metric_stats`; a square is rounded once. -/
def metricStats (values : List ℚ) : MetricStats :=
  if h : values.length = 0 then
    { mean := none, median := none, stdev := none, count := 0, undefined := by simp, defined := by simp
      single := by simp }
  else
    let c := Ctx.default
    let mean := c.fix (contextTotal c values / values.length)
    let variance := c.fix (contextTotal c (values.map fun value => c.fix (c.fix (value - mean) ^ 2)) / values.length)
    { mean := some mean
      median := some (medianOf c (values.mergeSort (· ≤ ·)))
      stdev := if 2 ≤ values.length then some (decimalSqrt variance) else none
      count := values.length
      undefined := fun h' => absurd h' h
      defined := by simp
      single := by
        intro hone
        rw [hone]
        rfl }

structure MetricAggregate where
  metric : Metric
  isStats : MetricStats
  oosStats : MetricStats
  degradation : Option ℚ
  trade : metric = .tradeCount → degradation = none

/-- How much worse the metric is out of sample, relative to the amount in sample. -/
def degradationOf (metric : Metric) (isMean oosMean : Option ℚ) : Option ℚ :=
  match metric.direction, isMean, oosMean with
  | some direction, some isMean, some oosMean =>
    if isMean = 0 then none
    else
      let c := Ctx.default
      some (c.fix (c.fix (direction * c.fix (isMean - oosMean)) / c.fix |isMean|))
  | _, _, _ => none

/-- What the harness checks of the metrics it aggregates. -/
structure Carried (m : BacktestMetrics) : Prop where
  winRate : ∀ x, m.winRate = some x → 0 ≤ x ∧ x ≤ 1
  profitFactor : ∀ x, m.profitFactor = some x → 0 ≤ x
  maxDrawdown : 0 ≤ m.maxDrawdown ∧ m.maxDrawdown ≤ 1

/-- The result of one period; the last two fields are `_validate_carried_metrics`. -/
structure WindowBacktestResult where
  window : WalkForwardWindow
  isMetrics : BacktestMetrics
  oosMetrics : BacktestMetrics
  isCarried : Carried isMetrics
  oosCarried : Carried oosMetrics

def metricAggregate (periods : List WindowBacktestResult) (metric : Metric) : MetricAggregate :=
  let isStats := metricStats (periods.filterMap fun period => metric.value period.isMetrics)
  let oosStats := metricStats (periods.filterMap fun period => metric.value period.oosMetrics)
  { metric := metric
    isStats := isStats
    oosStats := oosStats
    degradation := degradationOf metric isStats.mean oosStats.mean
    trade := by
      rintro rfl
      rfl }

/-- The last two fields are the checks of `__post_init__`. -/
structure WalkForwardAggregate where
  periodCount : ℕ
  metrics : List MetricAggregate
  period_pos : 1 ≤ periodCount
  order : metrics.map MetricAggregate.metric = aggregatedMetrics

def aggregatePeriods (periods : List WindowBacktestResult) : Except WalkForwardError WalkForwardAggregate :=
  if h : periods = [] then
    .error (.walkForward "periods must be a non-empty tuple of WindowBacktestResult")
  else if periods.map (fun period => period.window.index) = List.range periods.length then
    .ok
      { periodCount := periods.length
        metrics := aggregatedMetrics.map (metricAggregate periods)
        period_pos := List.length_pos_iff.mpr h
        order := rfl }
  else
    .error (.walkForward
      "periods must be strictly ascending and gap-free (window.index must equal the position)")

/-! ### The run -/

def checkResult (datasetId source : String) (periods : List WindowBacktestResult) (aggregate : WalkForwardAggregate)
    (recordCount coveredRecords : ℕ) (uncoveredRecords : ℤ) : Except WalkForwardError Unit := do
  raiseIf (blank datasetId = true) (.walkForward "dataset_id must be a non-empty string")
  raiseIf (blank source = true) (.walkForward "source must be a non-empty string")
  raiseIf (periods = []) (.walkForward "periods must be a non-empty tuple of WindowBacktestResult")
  raiseIf (periods.map (fun period => period.window.index) ≠ List.range periods.length) (.walkForward
    "periods must be strictly ascending and gap-free (window.index must equal the period position)")
  raiseIf (aggregate.periodCount ≠ periods.length) (.walkForward "aggregate.period_count must equal len(periods)")
  raiseIf (uncoveredRecords < 0) (.walkForward "uncovered_records must be a non-negative int")
  raiseIf (coveredRecords + uncoveredRecords ≠ recordCount)
    (.walkForward "covered_records + uncovered_records must equal record_count")

structure WalkForwardResult where
  config : WalkForwardConfig
  datasetId : String
  source : String
  periods : List WindowBacktestResult
  aggregate : WalkForwardAggregate
  recordCount : ℕ
  coveredRecords : ℕ
  uncoveredRecords : ℤ
  accepted : checkResult datasetId source periods aggregate recordCount coveredRecords uncoveredRecords = .ok ()

/-- What a run raises: an error of the harness, or that of the runner as it is. -/
inductive RunError (ε : Type) where
  | harness (e : WalkForwardError)
  | runner (e : ε)

/-- The index ranges of a window. -/
def WalkForwardWindow.ranges (w : WalkForwardWindow) : List (ℕ × ℕ) :=
  [(w.train.startIndex, w.train.endIndex), (w.validation.startIndex, w.validation.endIndex),
    (w.test.startIndex, w.test.endIndex)]

/-- A record that a window covers. -/
def WalkForwardWindow.Covers (w : WalkForwardWindow) (i : ℕ) : Prop := ∃ r ∈ w.ranges, r.1 ≤ i ∧ i < r.2

/-- The sum of the flags, one for each record. -/
def coveredRecords (recordCount : ℕ) (windows : List WalkForwardWindow) : ℕ :=
  ((windows.flatMap WalkForwardWindow.ranges).foldl Coverage.mark (List.replicate recordCount 0)).sum

section Run

variable {ε : Type} (same : WalkForwardWindow → WalkForwardWindow → Bool)
  (windowRunner : WalkForwardWindow → Except ε WindowBacktestResult)

/-- One call of the runner; `same` is the `==` of windows. -/
def runPeriod (window : WalkForwardWindow) : Except (RunError ε) WindowBacktestResult := do
  let result ← (windowRunner window).mapError .runner
  raiseIf (same result.window window = false) (.harness (.walkForward
    ("runner contract: period " ++ toString window.index ++ " returned a result for a different window")))
  return result

def runWalkForward (inputs : BacktestInput) (config : WalkForwardConfig) :
    Except (RunError ε) WalkForwardResult := do
  let windows ← (buildWindows inputs config).mapError .harness
  let periods ← windows.mapM (runPeriod same windowRunner)
  let aggregate ← (aggregatePeriods periods).mapError .harness
  let covered := coveredRecords inputs.recordCount windows
  let uncovered : ℤ := inputs.recordCount - covered
  (accept (checkResult inputs.datasetId inputs.source periods aggregate inputs.recordCount covered uncovered) fun h =>
    WalkForwardResult.mk config inputs.datasetId inputs.source periods aggregate inputs.recordCount covered uncovered
      h).mapError .harness

end Run

/-! ### What is covered -/

section Law

variable {inputs : BacktestInput} {config : WalkForwardConfig} {ws : List WalkForwardWindow}

theorem mem_union_ranges {i : ℕ} :
    i ∈ Coverage.union (ws.flatMap WalkForwardWindow.ranges) ↔ ∃ w ∈ ws, w.Covers i := by
  constructor
  · rintro ⟨r, hr, hi⟩
    obtain ⟨w, hw, hrange⟩ := List.mem_flatMap.mp hr
    exact ⟨w, hw, r, hrange, hi⟩
  · rintro ⟨w, hw, r, hrange, hi⟩
    exact ⟨r, List.mem_flatMap.mpr ⟨w, hw, hrange⟩, hi⟩

/-- The ranges of a schedule are in bounds. -/
theorem Schedule.ranges (h : Schedule inputs config ws) :
    ∀ r ∈ ws.flatMap WalkForwardWindow.ranges, r.1 ≤ r.2 ∧ r.2 ≤ inputs.recordCount := by
  intro r hr
  obtain ⟨w, hw, hrange⟩ := List.mem_flatMap.mp hr
  obtain ⟨htrain, hvalidation⟩ := h.contiguous w hw
  obtain ⟨h₁, h₂, h₃, hend⟩ := h.inBounds w hw
  simp only [WalkForwardWindow.ranges, List.mem_cons, List.not_mem_nil, or_false] at hrange
  rcases hrange with rfl | rfl | rfl
  · exact ⟨h₁.le, by omega⟩
  · exact ⟨h₂.le, by omega⟩
  · exact ⟨h₃.le, hend⟩

/-- The flags count the union of all slices. -/
theorem coverage_eq (h : Schedule inputs config ws) :
    coveredRecords inputs.recordCount ws = {i | ∃ w ∈ ws, w.Covers i}.ncard := by
  rw [coveredRecords, Coverage.sum_foldl_mark h.ranges]
  congr 1
  ext i
  exact mem_union_ranges

/-- The rest of the records. -/
theorem coverage_add (h : Schedule inputs config ws) : coveredRecords inputs.recordCount ws +
    {i | i < inputs.recordCount ∧ ∀ w ∈ ws, ¬w.Covers i}.ncard = inputs.recordCount := by
  have hrest : {i | i < inputs.recordCount ∧ ∀ w ∈ ws, ¬w.Covers i} =
      {i | i < inputs.recordCount ∧ i ∉ Coverage.union (ws.flatMap WalkForwardWindow.ranges)} := by
    ext i
    simp only [Set.mem_ofPred_eq, mem_union_ranges, not_exists, not_and]
  rw [coveredRecords, Coverage.sum_foldl_mark h.ranges, hrest]
  exact Coverage.ncard_union_add fun r hr => (h.ranges r hr).2

variable {ε : Type} {same : WalkForwardWindow → WalkForwardWindow → Bool}
  {windowRunner : WalkForwardWindow → Except ε WindowBacktestResult}

/-- What a run that returns has counted. -/
theorem runWalkForward_ok {result : WalkForwardResult} (hws : buildWindows inputs config = .ok ws)
    (h : runWalkForward same windowRunner inputs config = .ok result) :
    result.recordCount = inputs.recordCount ∧ result.coveredRecords = coveredRecords inputs.recordCount ws ∧
      result.uncoveredRecords = inputs.recordCount - coveredRecords inputs.recordCount ws := by
  simp only [runWalkForward, bind_eq_ok, mapError_eq_ok] at h
  obtain ⟨ws', hws', periods, -, aggregate, -, h⟩ := h
  cases hws.symm.trans hws'
  obtain ⟨hok, rfl⟩ := accept_eq_ok.mp h
  exact ⟨rfl, rfl, rfl⟩

/-- A run whose runner answers each window returns. -/
theorem exists_runWalkForward (hws : buildWindows inputs config = .ok ws) (hsame : ∀ w ∈ ws, same w w = true)
    (hrunner : ∀ w ∈ ws, ∃ r, windowRunner w = .ok r ∧ r.window = w) :
    ∃ result, runWalkForward same windowRunner inputs config = .ok result := by
  obtain ⟨-, hschedule⟩ := schedule_of_ok hws
  have hperiod : ∀ w r, w ∈ ws → (runPeriod same windowRunner w = .ok r ↔ windowRunner w = .ok r ∧ r.window = w) := by
    intro w r hw
    obtain ⟨r', hr', hwindow⟩ := hrunner w hw
    rw [runPeriod, hr']
    show (raiseIf (same r'.window w = false) _ >>= fun _ => .ok r') = _ ↔ _
    rw [hwindow, hsame w hw]
    constructor
    · rintro h
      cases h
      exact ⟨rfl, hwindow⟩
    · rintro ⟨h, -⟩
      cases h
      rfl
  obtain ⟨periods, hperiods⟩ : ∃ periods, ws.mapM (runPeriod same windowRunner) = .ok periods := by
    refine exists_mapM fun w hw => ?_
    obtain ⟨r, hr⟩ := hrunner w hw
    exact ⟨r, (hperiod w r hw).mpr hr⟩
  obtain ⟨hlength, hall⟩ := mapM_eq_ok hperiods
  have hindices : periods.map (fun period => period.window.index) = List.range periods.length := by
    refine List.ext_getElem (by simp) fun i hi hi' => ?_
    rw [List.getElem_map, List.getElem_range]
    have hlt : i < ws.length := by
      rw [← hlength]
      simpa using hi
    have hr := hall i _ _ (List.getElem?_eq_getElem hlt) (List.getElem?_eq_getElem (by omega))
    rw [((hperiod _ _ (List.getElem_mem hlt)).mp hr).2]
    exact (hschedule.windows i _ (List.getElem?_eq_getElem hlt)).index
  have hne : periods ≠ [] := by
    rw [← List.length_pos_iff, hlength]
    exact List.length_pos_iff.mpr hschedule.nonempty
  obtain ⟨aggregate, haggregate, hcount⟩ :
      ∃ aggregate, aggregatePeriods periods = .ok aggregate ∧ aggregate.periodCount = periods.length := by
    rw [aggregatePeriods, dif_neg hne, if_pos hindices]
    exact ⟨_, rfl, rfl⟩
  have hcovered := coverage_add hschedule
  obtain ⟨hid, hsource, -⟩ := checkInput_eq_ok.mp inputs.accepted
  have hok : checkResult inputs.datasetId inputs.source periods aggregate inputs.recordCount
      (coveredRecords inputs.recordCount ws)
      ((inputs.recordCount : ℤ) - coveredRecords inputs.recordCount ws) = .ok () := by
    simp only [checkResult, bind_eq_ok, raiseIf_eq_ok, exists_const, not_not, Bool.not_eq_true]
    exact ⟨hid, hsource, hne, hindices, hcount, by omega, by omega⟩
  refine ⟨⟨config, inputs.datasetId, inputs.source, periods, aggregate, _, _, _, hok⟩, ?_⟩
  simp only [runWalkForward, bind_eq_ok, mapError_eq_ok]
  exact ⟨ws, hws, periods, hperiods, aggregate, haggregate, accept_of_ok _ hok⟩

/-- **The schedule and its coverage.** -/
theorem walkForward_coverage (inputs : BacktestInput) (config : WalkForwardConfig) :
    ((∃ e, buildWindows inputs config = .error e) ↔ inputs.recordCount < config.span) ∧
      ∀ ws, buildWindows inputs config = .ok ws → Schedule inputs config ws ∧
        ∀ (ε : Type) (same : WalkForwardWindow → WalkForwardWindow → Bool)
          (windowRunner : WalkForwardWindow → Except ε WindowBacktestResult) (result : WalkForwardResult),
          runWalkForward same windowRunner inputs config = .ok result →
            result.coveredRecords = {i | ∃ w ∈ ws, w.Covers i}.ncard ∧
              result.uncoveredRecords = {i | i < inputs.recordCount ∧ ∀ w ∈ ws, ¬w.Covers i}.ncard := by
  refine ⟨⟨?_, fun h => ⟨_, buildWindows_short h⟩⟩, fun ws hws => ?_⟩
  · rintro ⟨e, he⟩
    by_contra hlong
    obtain ⟨ws, hws, -⟩ := buildWindows_ok (not_lt.mp hlong)
    rw [hws] at he
    cases he
  · obtain ⟨-, hschedule⟩ := schedule_of_ok hws
    refine ⟨hschedule, fun ε same windowRunner result hresult => ?_⟩
    obtain ⟨-, hcovered, huncovered⟩ := runWalkForward_ok hws hresult
    have hadd := coverage_add hschedule
    exact ⟨hcovered.trans (coverage_eq hschedule), by omega⟩

end Law

/-! ### A run -/

/-- Fourteen ticks, a minute apart. -/
def minuteTicks : List MarketRecord := (List.range 14).map fun minute => sampleTick minute (.finite (.ofNat 100))

theorem minuteTicks_accepted : checkInput "infy" "csv" minuteTicks = .ok () := by decide

def minuteInput : BacktestInput := ⟨"infy", "csv", minuteTicks, minuteTicks_accepted⟩

/-- A record for each slice, and a window at every fifth record. -/
def gapConfig : WalkForwardConfig := ⟨1, 1, 1, 5, rfl⟩

/-- The metrics of a run that does nothing. -/
def idleMetrics : BacktestMetrics := ⟨100, 100, 0, 0, 0, 0, 0, none, 0, 0, none, 0, none, 0⟩

theorem idle_carried : Carried idleMetrics := ⟨by simp [idleMetrics], by simp [idleMetrics], by simp [idleMetrics]⟩

/-- A runner that trades nothing. -/
def idleRunner (w : WalkForwardWindow) : Except Empty WindowBacktestResult :=
  .ok ⟨w, idleMetrics, idleMetrics, idle_carried, idle_carried⟩

theorem walkForward_coverage_gaps : ∃ ws result, buildWindows minuteInput gapConfig = .ok ws ∧ ws.length = 3 ∧
    runWalkForward (fun _ _ => true) idleRunner minuteInput gapConfig = .ok result ∧
      result.coveredRecords = {i | ∃ w ∈ ws, w.Covers i}.ncard ∧
      result.uncoveredRecords = {i | i < 14 ∧ ∀ w ∈ ws, ¬w.Covers i}.ncard := by
  obtain ⟨ws, hws, hlength, -⟩ := @buildWindows_ok minuteInput gapConfig (by decide)
  obtain ⟨result, hresult⟩ := @exists_runWalkForward minuteInput gapConfig ws Empty (fun _ _ => true) idleRunner hws
    (fun _ _ => rfl) fun w _ => ⟨_, rfl, rfl⟩
  exact ⟨ws, result, hws, hlength, hresult,
    ((walkForward_coverage minuteInput gapConfig).2 ws hws).2 Empty _ idleRunner result hresult⟩

end AlphaAlgo.Backtest
