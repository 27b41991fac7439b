import AlphaAlgo.Base.Values
import AlphaAlgo.Lib.Loop
import AlphaAlgo.Lib.Number

/-!
# Records — candles, ticks and the input of a backtest

`MarketCandle` and `MarketTick` are records as they may be handed to a backtest: the contracts admit positive finite
prices only, but a record can also be built or changed around them, so a price is any decimal here and a timestamp may
be naive.  `BacktestInput` is a sequence of records that its constructor accepts.

* `checkRecord_eq_ok`, `checkRecords_eq_ok`: what the constructor checks.
* `BacktestInput.take`: a non-empty prefix of an accepted sequence is accepted.
-/

namespace AlphaAlgo

/-- The point of time of an aware timestamp, in microseconds; aware timestamps compare by it. -/
def DateTime.instant (t : DateTime) : ℤ := t.wallClock - t.utcoffset.getD 0

namespace Backtest

open Loop

inductive CandleTimeframe where
  | oneMinute
  | fiveMinutes
  | fifteenMinutes
  | oneHour
  | oneDay
deriving DecidableEq, Repr

structure MarketTick where
  instrumentId : UUID
  exchange : String
  symbol : String
  timestamp : DateTime
  ltp : Decimal
  bid : Option Decimal := none
  ask : Option Decimal := none
deriving DecidableEq

structure MarketCandle where
  instrumentId : UUID
  exchange : String
  symbol : String
  timeframe : CandleTimeframe
  candleStart : DateTime
  openPrice : Decimal
  highPrice : Decimal
  lowPrice : Decimal
  closePrice : Decimal
deriving DecidableEq

inductive MarketRecord where
  | candle (c : MarketCandle)
  | tick (t : MarketTick)
deriving DecidableEq

namespace MarketRecord

def isCandle : MarketRecord → Bool
  | candle _ => true
  | tick _ => false

/-- `_record_timestamp`. -/
def timestamp : MarketRecord → DateTime
  | candle c => c.candleStart
  | tick t => t.timestamp

def instrumentId : MarketRecord → UUID
  | candle c => c.instrumentId
  | tick t => t.instrumentId

def exchange : MarketRecord → String
  | candle c => c.exchange
  | tick t => t.exchange

def symbol : MarketRecord → String
  | candle c => c.symbol
  | tick t => t.symbol

def timeframe : MarketRecord → Option CandleTimeframe
  | candle c => some c.timeframe
  | tick _ => none

end MarketRecord

/-! ### The constructor of an input -/

/-- What the constructor raises; a comparison with a NaN signals. -/
inductive InputError where
  | valueError (text : String)
  | arithmetic (e : ArithError)
deriving DecidableEq

/-- `record.bid > record.ask`, where both are there. -/
def crossed : MarketRecord → Except ArithError Bool
  | .candle _ => .ok false
  | .tick t =>
    match t.bid, t.ask with
    | some bid, some ask => ask.num.lt? bid.num
    | _, _ => .ok false

/-- The comparison of a timestamp with the one before it. -/
def checkOrder (previous : Option MarketRecord) (index : ℕ) (record : MarketRecord) : Except InputError Unit :=
  match previous with
  | none => .ok ()
  | some p => do
    raiseIf (record.timestamp.instant < p.timestamp.instant)
      (.valueError ("records must be sorted ascending by timestamp (index " ++ toString index ++ ")"))
    raiseIf (record.timestamp.instant = p.timestamp.instant)
      (.valueError ("duplicate record timestamp at index " ++ toString index))

/-- The checks on one record, against the first record and the one before it. -/
def checkRecord (first : MarketRecord) (previous : Option MarketRecord) (index : ℕ) (record : MarketRecord) :
    Except InputError Unit := do
  raiseIf (record.isCandle ≠ first.isCandle)
    (.valueError "records must all be the same kind (all candles or all ticks)")
  raiseIf (record.timestamp.aware = false) (.valueError "record timestamps must be timezone-aware")
  raiseIf (record.instrumentId ≠ first.instrumentId) (.valueError "records must share a single instrument")
  raiseIf (record.exchange ≠ first.exchange) (.valueError "records must share a single exchange")
  raiseIf (record.symbol ≠ first.symbol) (.valueError "records must share a single symbol")
  raiseIf (first.isCandle = true ∧ record.timeframe ≠ first.timeframe)
    (.valueError "candles must share a single timeframe")
  checkOrder previous index record
  let exceeds ← (crossed record).mapError .arithmetic
  raiseIf (exceeds = true) (.valueError ("tick bid cannot exceed ask (index " ++ toString index ++ ")"))

def checkRecords (first : MarketRecord) : Option MarketRecord → ℕ → List MarketRecord → Except InputError Unit
  | _, _, [] => .ok ()
  | previous, index, r :: rs => do
    checkRecord first previous index r
    checkRecords first (some r) (index + 1) rs

/-- `BacktestInput.__post_init__`. -/
def checkInput (datasetId source : String) (records : List MarketRecord) : Except InputError Unit := do
  raiseIf (blank datasetId = true) (.valueError "dataset_id is required")
  raiseIf (blank source = true) (.valueError "source is required")
  match records with
  | [] => .error (.valueError "backtest requires at least one data record")
  | first :: _ => checkRecords first none 0 records

/-- An input that the constructor accepts. -/
structure BacktestInput where
  datasetId : String
  source : String
  records : List MarketRecord
  accepted : checkInput datasetId source records = .ok ()

/-! ### What the constructor accepts -/

/-- A record fits the first one and the one before it. -/
structure Fits (first : MarketRecord) (previous : Option MarketRecord) (r : MarketRecord) : Prop where
  kind : r.isCandle = first.isCandle
  aware : r.timestamp.aware = true
  instrument : r.instrumentId = first.instrumentId
  exchange : r.exchange = first.exchange
  symbol : r.symbol = first.symbol
  timeframe : first.isCandle = true → r.timeframe = first.timeframe
  later : ∀ p, previous = some p → p.timestamp.instant < r.timestamp.instant
  uncrossed : crossed r = .ok false

theorem checkOrder_eq_ok {previous : Option MarketRecord} {index : ℕ} {r : MarketRecord} {u : Unit} :
    checkOrder previous index r = .ok u ↔ ∀ p, previous = some p → p.timestamp.instant < r.timestamp.instant := by
  cases previous with
  | none => simp [checkOrder]
  | some p =>
    simp only [checkOrder, bind_eq_ok, raiseIf_eq_ok, Option.some.injEq, forall_eq', not_lt]
    constructor
    · rintro ⟨-, hle, hne⟩
      exact lt_of_le_of_ne hle (Ne.symm hne)
    · intro h
      exact ⟨(), h.le, h.ne'⟩

theorem checkRecord_eq_ok {first : MarketRecord} {previous : Option MarketRecord} {index : ℕ} {r : MarketRecord}
    {u : Unit} : checkRecord first previous index r = .ok u ↔ Fits first previous r := by
  simp only [checkRecord, bind_eq_ok, raiseIf_eq_ok, checkOrder_eq_ok, mapError_eq_ok, not_not, not_and,
    Bool.not_eq_false]
  constructor
  · rintro ⟨-, hkind, -, haware, -, hinstrument, -, hexchange, -, hsymbol, -, htimeframe, -, hlater, exceeds,
      hcrossed, hexceeds⟩
    rw [Bool.not_eq_true] at hexceeds
    rw [hexceeds] at hcrossed
    exact ⟨hkind, haware, hinstrument, hexchange, hsymbol, htimeframe, hlater, hcrossed⟩
  · intro h
    exact ⟨(), h.kind, (), h.aware, (), h.instrument, (), h.exchange, (), h.symbol, (), h.timeframe, (), h.later, false,
      h.uncrossed, by simp⟩

/-- The records of a list fit the first one and the one before them. -/
def FitsFrom (first : MarketRecord) : Option MarketRecord → List MarketRecord → Prop
  | _, [] => True
  | previous, r :: rs => Fits first previous r ∧ FitsFrom first (some r) rs

theorem checkRecords_eq_ok {first : MarketRecord} {u : Unit} : ∀ {previous : Option MarketRecord} {index : ℕ}
    {rs : List MarketRecord}, checkRecords first previous index rs = .ok u ↔ FitsFrom first previous rs
  | _, _, [] => by simp [checkRecords, FitsFrom]
  | previous, index, r :: rs => by
    rw [checkRecords, bind_eq_ok, FitsFrom]
    simp only [checkRecord_eq_ok, checkRecords_eq_ok, exists_const]

/-- **The constructor accepts** named sequences that are not empty and whose records fit. -/
theorem checkInput_eq_ok {datasetId source : String} {rs : List MarketRecord} {u : Unit} :
    checkInput datasetId source rs = .ok u ↔
      blank datasetId = false ∧ blank source = false ∧ ∃ first rest, rs = first :: rest ∧ FitsFrom first none rs := by
  simp only [checkInput, bind_eq_ok, raiseIf_eq_ok, Bool.not_eq_true, exists_const]
  refine and_congr_right fun _ => and_congr_right fun _ => ?_
  cases rs with
  | nil => simp
  | cons first rest =>
    rw [checkRecords_eq_ok]
    constructor
    · intro h
      exact ⟨first, rest, rfl, h⟩
    · rintro ⟨first', rest', heq, h⟩
      cases heq
      exact h

/-! ### Accepted sequences -/

/-- Each record fits, whatever the one before it is. -/
theorem FitsFrom.fits {first : MarketRecord} : ∀ {previous : Option MarketRecord} {rs : List MarketRecord},
    FitsFrom first previous rs → ∀ r ∈ rs, ∃ p, Fits first p r
  | _, [], _ => by simp
  | previous, r :: rs, h => List.forall_mem_cons.mpr ⟨⟨previous, h.1⟩, FitsFrom.fits h.2⟩

theorem FitsFrom.take {first : MarketRecord} : ∀ {previous : Option MarketRecord} {rs : List MarketRecord} (n : ℕ),
    FitsFrom first previous rs → FitsFrom first previous (rs.take n)
  | _, _, 0, _ => trivial
  | _, [], _ + 1, _ => trivial
  | _, _ :: _, n + 1, h => ⟨h.1, FitsFrom.take n h.2⟩

/-- The timestamps ascend. -/
theorem FitsFrom.ascending {first : MarketRecord} : ∀ {previous : Option MarketRecord} {rs : List MarketRecord},
    FitsFrom first previous rs → rs.Pairwise (fun a b => a.timestamp.instant < b.timestamp.instant) ∧
      ∀ p, previous = some p → ∀ r ∈ rs, p.timestamp.instant < r.timestamp.instant
  | _, [], _ => by simp
  | previous, r :: rs, h => by
    obtain ⟨hpairwise, hlater⟩ := FitsFrom.ascending h.2
    refine ⟨List.pairwise_cons.mpr ⟨hlater r rfl, hpairwise⟩, fun p hp => ?_⟩
    have hr : p.timestamp.instant < r.timestamp.instant := h.1.later p hp
    exact List.forall_mem_cons.mpr ⟨hr, fun s hs => hr.trans (hlater r rfl s hs)⟩

namespace BacktestInput

variable (inputs : BacktestInput)

theorem exists_first : ∃ first rest, inputs.records = first :: rest ∧ FitsFrom first none inputs.records :=
  (checkInput_eq_ok.mp inputs.accepted).2.2

theorem records_ne_nil : inputs.records ≠ [] := by
  obtain ⟨first, rest, hrecords, -⟩ := inputs.exists_first
  rw [hrecords]
  exact List.cons_ne_nil _ _

theorem ascending : inputs.records.Pairwise fun a b => a.timestamp.instant < b.timestamp.instant := by
  obtain ⟨first, rest, -, hfits⟩ := inputs.exists_first
  exact hfits.ascending.1

/-- The first `n + 1` records are accepted. -/
theorem accepted_take (n : ℕ) : checkInput inputs.datasetId inputs.source (inputs.records.take (n + 1)) = .ok () := by
  obtain ⟨hid, hsource, first, rest, hrecords, hfits⟩ := checkInput_eq_ok.mp inputs.accepted
  refine checkInput_eq_ok.mpr ⟨hid, hsource, first, rest.take n, ?_, hfits.take _⟩
  rw [hrecords, List.take_succ_cons]

/-- The input of the first `n + 1` records. -/
def take (n : ℕ) : BacktestInput := ⟨inputs.datasetId, inputs.source, inputs.records.take (n + 1), inputs.accepted_take n⟩

/-- The symbol of the input. -/
def symbol : String :=
  match inputs.records with
  | [] => ""
  | r :: _ => r.symbol

end BacktestInput

/-- A tick of one symbol. -/
def sampleTick (minute : ℕ) (ltp : Decimal) : MarketRecord :=
  .tick ⟨⟨1⟩, "NSE", "INFY", ⟨2026, 1, 1, 9, minute, 0, 0, some 0⟩, ltp, none, none⟩

end Backtest

end AlphaAlgo
