import AlphaAlgo.Lib.Loop
import AlphaAlgo.Market.Contracts
import AlphaAlgo.Risk.Context

/-!
# Normalize — raw events of a provider as ticks and candles

`validate_raw_event` asks for the keys of a payload, `normalize` coerces their values and builds the tick or the candle,
whose contract may still refuse them.  How texts are parsed and how the contracts coerce a field is a parameter (`Reading`).
-/

namespace AlphaAlgo.Market

open Backtest (CandleTimeframe)
open Loop Risk

/-! ### Raw events -/

inductive EventKind where
  | tick
  | candle
  deriving DecidableEq, Repr

def EventKind.value : EventKind → String
  | tick => "tick"
  | candle => "candle"

/-- A value of a payload; `other` is any other object, by its `repr`. -/
inductive RawValue where
  | none
  | bool (b : Bool)
  | int (n : ℤ)
  | str (s : String)
  | decimal (d : Decimal)
  | datetime (t : DateTime)
  | uuid (u : UUID)
  | timeframe (t : CandleTimeframe)
  | other (text : String)

/-- `payload` is `none` where it is no dictionary. -/
structure RawMarketEvent where
  provider : String
  kind : EventKind
  payload : Option (List (String × RawValue))
  receivedAt : DateTime

/-- The parsers of the standard library, and what the contracts make of a value: a `str` field, an `int` field, and
the text of their refusal. -/
structure Reading where
  fromisoformat : String → Option DateTime
  uuid : String → Option UUID
  /-- `Decimal(str(value))`. -/
  decimal : RawValue → Option Decimal
  repr : RawValue → String
  text : RawValue → Option String
  int : RawValue → Option ℤ
  refusal : RawMarketEvent → String

def timeframeValue : CandleTimeframe → String
  | .oneMinute => "1m"
  | .fiveMinutes => "5m"
  | .fifteenMinutes => "15m"
  | .oneHour => "1h"
  | .oneDay => "1d"

/-- The text of a value that is a `str`; the members of `CandleTimeframe` are. -/
def RawValue.str? : RawValue → Option String
  | .str s => some s
  | .timeframe t => some (timeframeValue t)
  | _ => Option.none

/-! ### Validation -/

def tickRequiredKeys : List String :=
  ["instrument_id", "exchange", "symbol", "timestamp", "ltp", "source_broker", "source_sequence"]

def candleRequiredKeys : List String :=
  ["instrument_id", "exchange", "symbol", "timeframe", "candle_start", "open_price", "high_price", "low_price",
    "close_price", "source_broker", "generated_at"]

/-- A list of texts as a formatted string shows it. -/
def reprTexts (l : List String) : String := "[" ++ ", ".intercalate (l.map reprText) ++ "]"

/-- `validate_raw_event`; no `allowed_kinds`, or an empty set, allows both kinds. -/
def validateRawEvent (event : RawMarketEvent) (allowedKinds : List EventKind) : Except String Unit := do
  let allowed := if allowedKinds = [] then [EventKind.tick, EventKind.candle] else allowedKinds
  raiseIf (event.kind ∉ allowed) ("unsupported event kind: " ++ event.kind.value)
  match event.payload with
  | none => .error "payload must be a dict"
  | some payload =>
    let required := if event.kind = .tick then tickRequiredKeys else candleRequiredKeys
    let missing := required.filter fun key => key ∉ payload.map Prod.fst
    raiseIf (missing ≠ []) ("missing payload keys: " ++ reprTexts (missing.insertionSort (· ≤ ·)))

/-! ### Coercion -/

section Coerce

variable (reading : Reading)

def coerceDatetime (value : RawValue) (field : String) : Except String DateTime :=
  match value with
  | .datetime t => .ok t
  | value =>
    match value.str? with
    | none => .error (field ++ " must be a datetime")
    | some s =>
      match reading.fromisoformat s with
      | none => .error (field ++ " is not a valid datetime")
      | some t => .ok t

def coerceDecimal (value : RawValue) (field : String) : Except String Dec := do
  let result ← match value with
    | .decimal d => pure d
    | value =>
      match reading.decimal value with
      | none => .error (field ++ " is not a valid number")
      | some d => pure d
  match result with
  | .finite d => return d
  | _ => .error (field ++ " must be a finite number")

def coerceOptionalDecimal (value : RawValue) (field : String) : Except String (Option Dec) :=
  match value with
  | .none => .ok none
  | value => (coerceDecimal reading value field).map some

def coerceUuid (value : RawValue) (field : String) : Except String UUID :=
  match value with
  | .uuid u => .ok u
  | value =>
    match value.str? with
    | none => .error (field ++ " must be a UUID")
    | some s =>
      match reading.uuid s with
      | none => .error (field ++ " is not a valid UUID")
      | some u => .ok u

def coerceTimeframe (value : RawValue) : Except String CandleTimeframe :=
  match value with
  | .timeframe t => .ok t
  | .str "1m" => .ok .oneMinute
  | .str "5m" => .ok .fiveMinutes
  | .str "15m" => .ok .fifteenMinutes
  | .str "1h" => .ok .oneHour
  | .str "1d" => .ok .oneDay
  | value => .error ("timeframe is not valid: " ++ reading.repr value)

/-! ### The fields of the contracts -/

def textField (n : ℕ) (value : RawValue) : Option (Text n) := do
  let s ← reading.text value
  if h : 1 ≤ s.length ∧ s.length ≤ n then some ⟨s, h⟩ else none

def countField (value : RawValue) : Option (Option ℕ) :=
  match value with
  | .none => some none
  | value => do
    let n ← reading.int value
    if 0 ≤ n then some (some n.toNat) else none

def priceField (d : Dec) : Option Price := if h : 0 < d.val then some ⟨d, h⟩ else none

def optionalPriceField (d : Option Dec) : Option (Option Price) :=
  match d with
  | none => some none
  | some d => (priceField d).map some

/-- `require_timezone`. -/
def stampField (t : DateTime) : Option Stamp := if h : t.aware = true then some ⟨t, h⟩ else none

/-! ### Normalization -/

/-- `payload[key]`, with the text of the `KeyError`. -/
def item (payload : List (String × RawValue)) (key : String) : Except String RawValue :=
  match payload.lookup key with
  | none => .error (reprText key)
  | some value => .ok value

/-- `payload.get(key)`. -/
def getItem (payload : List (String × RawValue)) (key : String) : RawValue := (payload.lookup key).getD .none

/-- What a contract accepts; a refusal is raised with its text. -/
def accept {α : Type} (event : RawMarketEvent) : Option α → Except String α
  | none => .error (reading.refusal event)
  | some a => .ok a

def normalizeTick (event : RawMarketEvent) : Except String MarketTick := do
  -- `validate_raw_event` has seen that there is a dictionary
  let payload := event.payload.getD []
  let instrumentId ← coerceUuid reading (← item payload "instrument_id") "instrument_id"
  let exchange ← item payload "exchange"
  let symbol ← item payload "symbol"
  let timestamp ← coerceDatetime reading (← item payload "timestamp") "timestamp"
  let ltp ← coerceDecimal reading (← item payload "ltp") "ltp"
  let bid ← coerceOptionalDecimal reading (getItem payload "bid") "bid"
  let ask ← coerceOptionalDecimal reading (getItem payload "ask") "ask"
  let sourceBroker ← item payload "source_broker"
  let sourceSequence ← item payload "source_sequence"
  accept reading event do
    return {
      instrumentId := instrumentId
      exchange := ← textField reading 32 exchange
      symbol := ← textField reading 100 symbol
      timestamp := ← stampField timestamp
      ltp := ← priceField ltp
      volume := ← countField reading (getItem payload "volume")
      bid := ← optionalPriceField bid
      ask := ← optionalPriceField ask
      bidQuantity := ← countField reading (getItem payload "bid_quantity")
      askQuantity := ← countField reading (getItem payload "ask_quantity")
      sourceBroker := ← textField reading 50 sourceBroker
      sourceSequence := ← textField reading 150 sourceSequence
      receivedAt := ← stampField event.receivedAt }

/-- The validators of `MarketCandle` on the prices, its other fields given. -/
def candleOf (instrumentId : UUID) (exchange : Text 32) (symbol : Text 100) (timeframe : CandleTimeframe)
    (candleStart : Stamp) (openPrice highPrice lowPrice closePrice : Price) (volume : Option ℕ) (sourceBroker : Text 50)
    (generatedAt : Stamp) : Option MarketCandle :=
  if h : lowPrice.val.val ≤ highPrice.val.val ∧
      (lowPrice.val.val ≤ openPrice.val.val ∧ openPrice.val.val ≤ highPrice.val.val) ∧
      (lowPrice.val.val ≤ closePrice.val.val ∧ closePrice.val.val ≤ highPrice.val.val) then
    some {
      instrumentId, exchange, symbol, timeframe, candleStart, openPrice, highPrice, lowPrice, closePrice, volume,
      sourceBroker, generatedAt
      low_le_high := h.1
      open_within := h.2.1
      close_within := h.2.2 }
  else none

def normalizeCandle (event : RawMarketEvent) : Except String MarketCandle := do
  let payload := event.payload.getD []
  let timeframe ← coerceTimeframe reading (← item payload "timeframe")
  let instrumentId ← coerceUuid reading (← item payload "instrument_id") "instrument_id"
  let exchange ← item payload "exchange"
  let symbol ← item payload "symbol"
  let candleStart ← coerceDatetime reading (← item payload "candle_start") "candle_start"
  let openPrice ← coerceDecimal reading (← item payload "open_price") "open_price"
  let highPrice ← coerceDecimal reading (← item payload "high_price") "high_price"
  let lowPrice ← coerceDecimal reading (← item payload "low_price") "low_price"
  let closePrice ← coerceDecimal reading (← item payload "close_price") "close_price"
  let sourceBroker ← item payload "source_broker"
  let generatedAt ← coerceDatetime reading (getItem payload "generated_at") "generated_at"
  accept reading event do
    candleOf instrumentId (← textField reading 32 exchange) (← textField reading 100 symbol) timeframe
      (← stampField candleStart) (← priceField openPrice) (← priceField highPrice) (← priceField lowPrice)
      (← priceField closePrice) (← countField reading (getItem payload "volume"))
      (← textField reading 50 sourceBroker) (← stampField generatedAt)

end Coerce

inductive MarketEvent where
  | tick (tick : MarketTick)
  | candle (candle : MarketCandle)
  deriving DecidableEq

def MarketEvent.symbol : MarketEvent → String
  | tick t => t.symbol.val
  | candle c => c.symbol.val

def normalize (reading : Reading) (event : RawMarketEvent) : Except String MarketEvent :=
  if event.kind = .tick then (normalizeTick reading event).map .tick else (normalizeCandle reading event).map .candle

/-- `check_supported_symbol`, with the reason of the refusal. -/
def checkSupportedSymbol (symbol : String) (allowedSymbols : Option (List String)) : Except String Unit :=
  match allowedSymbols with
  | none => .ok ()
  | some allowed => raiseIf (symbol ∉ allowed) "unsupported_instrument"

end AlphaAlgo.Market
