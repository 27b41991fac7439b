import AlphaAlgo.Broker.Updates
import AlphaAlgo.Indicators.MovingAverage
import AlphaAlgo.Strategy.Instance

/-!
# SmaCross — the crossover strategy and the candles of several instruments

`SmaCrossStrategy` appends the close of every candle to one list in the state of its context and, once the list is longer
than the slow period, compares the last two fast and slow averages of that list and emits a signal for the instrument of
the candle.  The list does not say which instrument a close belongs to.

* `onCandle_cases`: what a candle does.
* `instruments_signals`: for which instruments signals are emitted, by the order of the candles alone.
* `unmixed_iff`: the signals of each instrument are those of its own candles exactly where nothing is emitted at all or all
  candles are of one instrument.
-/

namespace AlphaAlgo.Strategy

open Broker (intOfText)
open Indicators (simpleMovingAverage)
open Market (MarketCandle Price)
open Risk (SignalAction)
open Signal (StrategySignal)

/-! ### The strategy -/

/-- What a candle can make the strategy raise. -/
inductive CandleError where
  | valueError
  | typeError
  | indexError
  deriving DecidableEq, Repr

/-- `int(value)` of a configured value. -/
def intOf : Json → Except CandleError ℤ
  | .int n => .ok n
  | .bool b => .ok (if b then 1 else 0)
  | .str s => ((intOfText s).map Except.ok).getD (.error .valueError)
  | _ => .error .typeError

/-- The context, with the closes of its state. -/
structure SmaContext where
  strategyId : UUID
  strategyVersion : String
  strategyConfigHash : String
  config : StrategyConfig
  closes : List Price := []
  strategyVersion_nonblank : blank strategyVersion = false
  strategyConfigHash_nonblank : blank strategyConfigHash = false

namespace SmaContext

/-- `initialize`. -/
def opened (context : SmaContext) : SmaContext := { context with closes := [] }

/-- `closes.append(close)`. -/
def append (context : SmaContext) (close : Price) : SmaContext := { context with closes := context.closes ++ [close] }

/-- `int(context.config.get(key, default))`. -/
def configInt (context : SmaContext) (key : String) (default : ℤ) : Except CandleError ℤ :=
  intOf ((context.config.lookup key).getD (.int default))

def fast (context : SmaContext) : Except CandleError ℤ := context.configInt "fast_period" 5

def slow (context : SmaContext) : Except CandleError ℤ := context.configInt "slow_period" 20

end SmaContext

/-- `simple_moving_average(closes, period=period)[-1]`. -/
def lastAverage (c : Ctx) (closes : List Price) (period : ℤ) : Except CandleError (Option ℚ) :=
  match simpleMovingAverage c (closes.map fun close => close.val.val) period with
  | .error _ => .error .valueError
  | .ok averages =>
    match averages.getLast? with
    | none => .error .indexError
    | some average => .ok average

/-- An average that is missing is at most any other. -/
def atMost (a b : Option ℚ) : Bool :=
  match a, b with
  | some a, some b => a ≤ b
  | _, _ => true

def crossAction (fastNow slowNow fastPrev slowPrev : Option ℚ) : SignalAction :=
  match fastNow, slowNow with
  | some fast, some slow =>
    if slow < fast ∧ atMost fastPrev slowPrev then .buy
    else if fast < slow ∧ atMost slowPrev fastPrev then .sell
    else .hold
  | _, _ => .hold

/-- The action of the last close. -/
def crossing (c : Ctx) (closes : List Price) (fast slow : ℤ) : Except CandleError SignalAction := do
  let fastNow ← lastAverage c closes fast
  let slowNow ← lastAverage c closes slow
  let fastPrev ← lastAverage c closes.dropLast fast
  let slowPrev ← lastAverage c closes.dropLast slow
  return crossAction fastNow slowNow fastPrev slowPrev

/-- `reason`. -/
def crossReason (fast slow : ℤ) : String := "SMA " ++ toString fast ++ "/" ++ toString slow ++ " crossover"

/-- The bounds on the texts of a `StrategySignal`; a longer text is refused. -/
def SmaContext.Fits (context : SmaContext) (fast slow : ℤ) : Prop :=
  context.strategyVersion.length ≤ 64 ∧ context.strategyConfigHash.length ≤ 128 ∧ (crossReason fast slow).length ≤ 500

instance (context : SmaContext) (fast slow : ℤ) : Decidable (context.Fits fast slow) := by
  unfold SmaContext.Fits
  infer_instance

/-- The signal of a candle, with the identifier that `uuid4` gives it. -/
def crossSignal (context : SmaContext) (candle : MarketCandle) (signalId : UUID) (action : SignalAction) (fast slow : ℤ) :
    StrategySignal where
  signalId := signalId
  strategyId := context.strategyId
  strategyVersion := context.strategyVersion
  strategyConfigHash := context.strategyConfigHash
  instrumentId := candle.instrumentId
  action := action
  timestamp := candle.candleStart.val
  confidence := ⟨false, 8, -1⟩
  reason := crossReason fast slow
  metadata := []
  confidence_range := by decide +kernel
  timestamp_aware := candle.candleStart.property

/-- `on_candle`: what it emits or raises, and the context that it leaves. -/
def onCandle (c : Ctx) (context : SmaContext) (candle : MarketCandle) (signalId : UUID) :
    Except CandleError (Option StrategySignal) × SmaContext :=
  match context.fast, context.slow with
  | .error e, _ => (.error e, context)
  | .ok _, .error e => (.error e, context)
  | .ok fast, .ok slow =>
    let context := context.append candle.closePrice
    if (context.closes.length : ℤ) < slow + 1 then (.ok none, context)
    else match crossing c context.closes fast slow with
      | .error e => (.error e, context)
      | .ok action =>
        if context.Fits fast slow then (.ok (some (crossSignal context candle signalId action fast slow)), context)
        else (.error .valueError, context)

/-- A candle and the identifier of its signal. -/
abbrev Feed := MarketCandle × UUID

/-- The signals emitted for a series of candles; where the strategy raises it has failed, and no candle follows. -/
def signals (c : Ctx) : SmaContext → List Feed → List StrategySignal
  | _, [] => []
  | context, p :: feed =>
    match onCandle c context p.1 p.2 with
    | (.error _, _) => []
    | (.ok signal, context) => signal.toList ++ signals c context feed

/-- The candles of an instrument. -/
def ofInstrument (i : UUID) (feed : List Feed) : List Feed := feed.filter fun p => p.1.instrumentId = i

/-- The signals emitted for each instrument are those emitted where only its candles are fed. -/
def Unmixed (c : Ctx) (context : SmaContext) (feed : List Feed) : Prop :=
  ∀ i, (signals c context feed).filter (fun signal => signal.instrumentId = i) =
    signals c context (ofInstrument i feed)

/-! ### One candle -/

/-- A candle that follows `slow` others is answered by a signal. -/
def SmaContext.Emits (context : SmaContext) (slow : ℤ) : Prop :=
  context.slow = .ok slow ∧ 0 < slow ∧ ∃ fast, context.fast = .ok fast ∧ 0 < fast ∧ context.Fits fast slow

section Candle

variable {c : Ctx} {context : SmaContext} {closes : List Price} {fast slow period : ℤ}

theorem lastAverage_of_pos (hperiod : 0 < period) (hcloses : closes ≠ []) :
    ∃ average, lastAverage c closes period = .ok average := by
  have hok : simpleMovingAverage c (closes.map fun close => close.val.val) period =
      .ok (Indicators.simpleAverages c period.toNat (closes.map fun close => close.val.val)) := by
    rw [simpleMovingAverage, Indicators.validatePeriod, if_neg (by omega)]
    rfl
  have hne : Indicators.simpleAverages c period.toNat (closes.map fun close => close.val.val) ≠ [] := by
    rw [← List.length_pos_iff, (Indicators.causal_simple c period.toNat).length_eq, List.length_map]
    exact List.length_pos_iff.mpr hcloses
  refine ⟨(Indicators.simpleAverages c period.toNat (closes.map fun close => close.val.val)).getLast hne, ?_⟩
  rw [lastAverage, hok]
  dsimp only
  rw [List.getLast?_eq_some_getLast hne]

theorem lastAverage_of_nonpos (hperiod : period ≤ 0) : lastAverage c closes period = .error .valueError := by
  rw [lastAverage, simpleMovingAverage, Indicators.validatePeriod, if_pos hperiod]
  rfl

theorem crossing_of_pos (hfast : 0 < fast) (hslow : 0 < slow) (hcloses : 2 ≤ closes.length) :
    ∃ action, crossing c closes fast slow = .ok action := by
  have hne : closes ≠ [] := List.length_pos_iff.mp (by omega)
  have hprev : closes.dropLast ≠ [] := List.length_pos_iff.mp (by rw [List.length_dropLast]; omega)
  obtain ⟨fastNow, h₁⟩ := lastAverage_of_pos (c := c) hfast hne
  obtain ⟨slowNow, h₂⟩ := lastAverage_of_pos (c := c) hslow hne
  obtain ⟨fastPrev, h₃⟩ := lastAverage_of_pos (c := c) hfast hprev
  obtain ⟨slowPrev, h₄⟩ := lastAverage_of_pos (c := c) hslow hprev
  exact ⟨crossAction fastNow slowNow fastPrev slowPrev, by rw [crossing, h₁, h₂, h₃, h₄]; rfl⟩

theorem crossing_of_nonpos (h : fast ≤ 0 ∨ slow ≤ 0) (action : SignalAction) :
    crossing c closes fast slow ≠ .ok action := by
  intro hok
  obtain ⟨fastNow, hfast, hok⟩ := Loop.bind_eq_ok.mp hok
  obtain ⟨slowNow, hslow, -⟩ := Loop.bind_eq_ok.mp hok
  obtain hnonpos | hnonpos := h
  · rw [lastAverage_of_nonpos hnonpos] at hfast
    cases hfast
  · rw [lastAverage_of_nonpos hnonpos] at hslow
    cases hslow

variable (candle : MarketCandle) (signalId : UUID)

/-- **A candle of a context that emits.** -/
theorem onCandle_of_emits (h : context.Emits slow) :
    ∃ signal, onCandle c context candle signalId = (.ok signal, context.append candle.closePrice) ∧
      signal.toList.map StrategySignal.instrumentId =
        if (context.closes.length : ℤ) < slow then [] else [candle.instrumentId] := by
  obtain ⟨hslow, hpos, fast, hfast, hfastPos, hfits⟩ := h
  have hlength : (context.append candle.closePrice).closes.length = context.closes.length + 1 := by
    simp [SmaContext.append]
  simp only [onCandle, hfast, hslow]
  by_cases hfew : (context.closes.length : ℤ) < slow
  · rw [if_pos (by omega), if_pos hfew]
    exact ⟨none, rfl, rfl⟩
  · have hclosed : 2 ≤ (context.append candle.closePrice).closes.length := by omega
    obtain ⟨action, haction⟩ := crossing_of_pos (c := c) hfastPos hpos hclosed
    rw [if_neg (by omega), if_neg hfew, haction]
    dsimp only
    rw [if_pos (show (context.append candle.closePrice).Fits fast slow from hfits)]
    exact ⟨_, rfl, rfl⟩

/-- A candle of a context that never emits. -/
theorem onCandle_of_silent (h : ∀ slow, ¬context.Emits slow) :
    (∃ e, (onCandle c context candle signalId).1 = .error e) ∨
      onCandle c context candle signalId = (.ok none, context.append candle.closePrice) := by
  unfold onCandle
  cases hfast : context.fast with
  | error e => exact .inl ⟨e, rfl⟩
  | ok fast =>
    cases hslow : context.slow with
    | error e => exact .inl ⟨e, rfl⟩
    | ok slow =>
      dsimp only
      by_cases hfew : ((context.append candle.closePrice).closes.length : ℤ) < slow + 1
      · rw [if_pos hfew]
        exact .inr rfl
      · rw [if_neg hfew]
        cases haction : crossing c (context.append candle.closePrice).closes fast slow with
        | error e => exact .inl ⟨e, rfl⟩
        | ok action =>
          dsimp only
          split_ifs with hfits
          · have hperiods : 0 < fast ∧ 0 < slow := by
              by_contra hnonpos
              exact crossing_of_nonpos (by omega) action haction
            exact absurd ⟨hslow, hperiods.2, fast, hfast, hperiods.1, hfits⟩ (h slow)
          · exact .inl ⟨_, rfl⟩

end Candle

/-! ### Many candles -/

section Feeds

variable {c : Ctx} {context : SmaContext} {slow : ℤ}

/-- **For which instruments signals are emitted**: those of the candles after the first `slow` closes. -/
theorem instruments_signals (h : context.Emits slow) (feed : List Feed) :
    (signals c context feed).map StrategySignal.instrumentId =
      (feed.drop (slow.toNat - context.closes.length)).map fun p => p.1.instrumentId := by
  induction feed generalizing context with
  | nil => simp [signals]
  | cons p feed ih =>
    obtain ⟨signal, hcandle, hsignal⟩ := onCandle_of_emits (c := c) p.1 p.2 h
    have hlength : (context.append p.1.closePrice).closes.length = context.closes.length + 1 := by
      simp [SmaContext.append]
    have happend : (context.append p.1.closePrice).Emits slow := h
    have hrest := ih happend
    rw [hlength] at hrest
    rw [signals, hcandle]
    dsimp only
    rw [List.map_append, hsignal, hrest]
    by_cases hfew : (context.closes.length : ℤ) < slow
    · rw [if_pos hfew, show slow.toNat - context.closes.length = slow.toNat - (context.closes.length + 1) + 1 by omega]
      rfl
    · rw [if_neg hfew, show slow.toNat - context.closes.length = 0 by omega,
        show slow.toNat - (context.closes.length + 1) = 0 by omega]
      rfl

theorem signals_of_silent (h : ∀ slow, ¬context.Emits slow) (feed : List Feed) : signals c context feed = [] := by
  induction feed generalizing context with
  | nil => rfl
  | cons p feed ih =>
    rw [signals]
    obtain ⟨e, herror⟩ | hnone := onCandle_of_silent (c := c) p.1 p.2 h
    · generalize onCandle c context p.1 p.2 = answer at herror
      obtain ⟨result, context'⟩ := answer
      cases herror
      rfl
    · rw [hnone]
      exact ih h

theorem length_filter_eq_count {α : Type*} (f : α → UUID) (i : UUID) (l : List α) :
    (l.filter fun a => f a = i).length = (l.map f).count i := by
  induction l with
  | nil => rfl
  | cons a l ih =>
    by_cases ha : f a = i
    · rw [List.filter_cons_of_pos (by simpa using ha), List.length_cons, ih, List.map_cons, ha, List.count_cons_self]
    · rw [List.filter_cons_of_neg (by simpa using ha), ih, List.map_cons, List.count_cons_of_ne ha]

/-- Where each entry loses `n` of its occurrences to the first `n` entries, or all of them, the entries are all the
same. -/
theorem all_eq_of_count {l : List UUID} {n : ℕ} (hn : 0 < n) (hlong : n < l.length)
    (hcount : ∀ i, (l.drop n).count i = l.count i - n) : ∀ a ∈ l, ∀ b ∈ l, a = b := by
  have htake : ∀ i ∈ l.drop n, ∀ a ∈ l.take n, i = a := by
    intro i hi
    have hsplit : l.count i = (l.take n).count i + (l.drop n).count i := by
      rw [← List.count_append, List.take_append_drop]
    have hpos : 0 < (l.drop n).count i := List.count_pos_iff.mpr hi
    have hlength : (l.take n).length = n := by
      rw [List.length_take]
      omega
    rw [← List.count_eq_length, hlength]
    have hlost := hcount i
    omega
  obtain ⟨i, hi⟩ := List.exists_mem_of_length_pos (show 0 < (l.drop n).length by rw [List.length_drop]; omega)
  obtain ⟨a, ha⟩ := List.exists_mem_of_length_pos (show 0 < (l.take n).length by rw [List.length_take]; omega)
  have hall : ∀ b ∈ l, b = a := by
    intro b hb
    rw [← List.take_append_drop n l, List.mem_append] at hb
    obtain hb | hb := hb
    · exact (htake i hi b hb).symm.trans (htake i hi a ha)
    · exact htake b hb a ha
  intro b hb b' hb'
  rw [hall b hb, hall b' hb']

theorem instruments_opened (h : context.Emits slow) (feed : List Feed) :
    (signals c context.opened feed).map StrategySignal.instrumentId =
      (feed.drop slow.toNat).map fun p => p.1.instrumentId := by
  have hopened : context.opened.Emits slow := h
  exact instruments_signals hopened feed

/-- A signal is for the instrument of a candle. -/
theorem exists_candle (h : context.Emits slow) {feed : List Feed} {signal : StrategySignal}
    (hsignal : signal ∈ signals c context.opened feed) : ∃ p ∈ feed, p.1.instrumentId = signal.instrumentId := by
  have hmem : signal.instrumentId ∈ (signals c context.opened feed).map StrategySignal.instrumentId :=
    List.mem_map_of_mem hsignal
  rw [instruments_opened h] at hmem
  obtain ⟨p, hp, heq⟩ := List.mem_map.mp hmem
  exact ⟨p, List.mem_of_mem_drop hp, heq⟩

/-- **The signals of each instrument are those of its own candles** exactly where no signal is emitted, by the
configuration or by the number of candles, or all candles are of one instrument. -/
theorem unmixed_iff (c : Ctx) (context : SmaContext) (feed : List Feed) :
    Unmixed c context.opened feed ↔ ∀ slow, context.Emits slow →
      (feed.length : ℤ) ≤ slow ∨ ∀ p ∈ feed, ∀ q ∈ feed, p.1.instrumentId = q.1.instrumentId := by
  constructor
  · intro hunmixed slow hemits
    by_contra hneither
    obtain ⟨hlong, hseveral⟩ := not_or.mp hneither
    have hpos : 0 < slow := hemits.2.1
    have hcount : ∀ i, ((feed.map fun p => p.1.instrumentId).drop slow.toNat).count i =
        (feed.map fun p => p.1.instrumentId).count i - slow.toNat := by
      intro i
      have hlength := congrArg List.length (hunmixed i)
      have halone := congrArg List.length (instruments_opened (c := c) hemits (ofInstrument i feed))
      rw [List.length_map, List.length_map, List.length_drop] at halone
      rw [length_filter_eq_count, instruments_opened hemits, halone, ofInstrument, length_filter_eq_count, List.map_drop] at hlength
      exact hlength
    refine hseveral fun p hp q hq => ?_
    exact all_eq_of_count (by omega) (by rw [List.length_map]; omega) hcount _ (List.mem_map_of_mem hp) _
      (List.mem_map_of_mem hq)
  · intro hcondition i
    by_cases hemits : ∃ slow, context.Emits slow
    · obtain ⟨slow, hemits⟩ := hemits
      obtain hfew | hone := hcondition slow hemits
      · have hnone : ∀ feed : List Feed, (feed.length : ℤ) ≤ slow → signals c context.opened feed = [] := by
          intro feed hfew
          have hmap := instruments_opened (c := c) hemits feed
          rw [List.drop_of_length_le (by omega), List.map_nil, List.map_eq_nil_iff] at hmap
          exact hmap
        have hle : (ofInstrument i feed).length ≤ feed.length := List.length_filter_le _ _
        rw [hnone feed hfew, hnone (ofInstrument i feed) (by omega)]
        rfl
      · by_cases hi : ∃ p ∈ feed, p.1.instrumentId = i
        · obtain ⟨p, hp, rfl⟩ := hi
          have hfeed : ofInstrument p.1.instrumentId feed = feed :=
            List.filter_eq_self.mpr fun q hq => decide_eq_true (hone q hq p hp)
          rw [hfeed, List.filter_eq_self]
          intro signal hsignal
          obtain ⟨q, hq, heq⟩ := exists_candle hemits hsignal
          exact decide_eq_true (heq.symm.trans (hone q hq p hp))
        · have hfeed : ofInstrument i feed = [] :=
            List.filter_eq_nil_iff.mpr fun q hq h => hi ⟨q, hq, of_decide_eq_true h⟩
          rw [hfeed, signals, List.filter_eq_nil_iff]
          intro signal hsignal h
          obtain ⟨q, hq, heq⟩ := exists_candle hemits hsignal
          exact hi ⟨q, hq, heq.trans (of_decide_eq_true h)⟩
    · have hsilent : ∀ slow, ¬context.opened.Emits slow := fun slow h => hemits ⟨slow, h⟩
      rw [signals_of_silent hsilent, signals_of_silent hsilent]
      rfl

end Feeds

/-- The periods one and two. -/
def smaContext : SmaContext where
  strategyId := ⟨9⟩
  strategyVersion := "1.0.0"
  strategyConfigHash := "44136fa3"
  config := [("fast_period", .int 1), ("slow_period", .int 2)]
  strategyVersion_nonblank := sma_version_nonblank
  strategyConfigHash_nonblank := sma_hash_nonblank

/-- A minute of the first hour of trading. -/
def candleMinute (minute : ℕ) : Market.Stamp := ⟨⟨2026, 9, 1, 10, minute, 0, 0, some 0⟩, rfl⟩

/-- A candle of an instrument that opens and closes at one price. -/
def flatCandle (instrumentId : UUID) (price : Price) : MarketCandle where
  instrumentId := instrumentId
  exchange := ⟨"NSE", Market.nse_within⟩
  symbol := ⟨"INFY", Market.infy_within⟩
  timeframe := .oneMinute
  candleStart := candleMinute 0
  openPrice := price
  highPrice := price
  lowPrice := price
  closePrice := price
  sourceBroker := ⟨"kite", Market.kite_within⟩
  generatedAt := candleMinute 1
  low_le_high := le_rfl
  open_within := ⟨le_rfl, le_rfl⟩
  close_within := ⟨le_rfl, le_rfl⟩

def hundred : Price := ⟨.ofNat 100, Market.hundred_pos⟩

/-- Two candles of one instrument, and then one of another. -/
def twoInstruments : List Feed :=
  [(flatCandle ⟨1⟩ hundred, ⟨11⟩), (flatCandle ⟨1⟩ hundred, ⟨12⟩), (flatCandle ⟨2⟩ hundred, ⟨13⟩)]

/-- The first candle of the second instrument is answered by a signal, which its own candles alone are not. -/
theorem not_unmixed : ¬∀ (c : Ctx) (context : SmaContext) (feed : List Feed), Unmixed c context.opened feed := by
  intro hall
  have hemits : smaContext.Emits 2 := ⟨rfl, by decide, 1, rfl, by decide, by decide⟩
  have hlength := congrArg List.length (hall .default smaContext twoInstruments ⟨2⟩)
  have halone := congrArg List.length
    (instruments_opened (c := .default) hemits (ofInstrument ⟨2⟩ twoInstruments))
  rw [List.length_map] at halone
  rw [length_filter_eq_count, instruments_opened hemits, halone] at hlength
  exact absurd hlength (by decide)

end AlphaAlgo.Strategy
