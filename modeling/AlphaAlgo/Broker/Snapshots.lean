import AlphaAlgo.Broker.Statuses
import AlphaAlgo.Lib.Dict

/-!
# Snapshots — positions and holdings, and the instruments they are of

`InstrumentMapping` has the registered instruments by their internal id.  Each adapter looks the instrument of a row up by
exchange and symbol; Upstox asks with an empty exchange and falls back to the token or the key of an instrument.

* `findBySymbol_eq_some`: the instrument that is found.
* `ids_of_rows`: the ids of the snapshots, row by row.
* `resolved_iff`: when every snapshot has the id of its row's instrument.
-/

namespace AlphaAlgo.Broker

open Loop (bind_eq_ok mapM_eq_ok_iff map_eq_ok)

/-! ### Instruments -/

structure BrokerInstrument where
  internalInstrumentId : UUID
  exchange : String
  symbol : String
  brokerToken : String
  instrumentKey : String
deriving DecidableEq

/-- `_by_id`: each instrument is under its own id. -/
structure InstrumentMapping where
  byId : Dict UUID BrokerInstrument
  keyed : ∀ p ∈ byId.items, p.2.internalInstrumentId = p.1

/-- `a == s` for a text. -/
def Value.isText (a : Value) (s : String) : Bool :=
  match a with
  | .scalar (.str t) => t == s
  | _ => false

theorem isText_iff {a : Value} {s : String} : a.isText s = true ↔ a = .str s := by
  unfold Value.isText
  split
  · simp
  · rename_i h
    simp only [Bool.false_eq_true, false_iff]
    exact fun heq => h s heq

namespace InstrumentMapping

def empty : InstrumentMapping := ⟨.empty, by simp [Dict.empty]⟩

def register (m : InstrumentMapping) (instrument : BrokerInstrument) : InstrumentMapping where
  byId := m.byId.set instrument.internalInstrumentId instrument
  keyed := by
    rintro ⟨id, i⟩ hi
    rcases Dict.mem_set.mp hi with ⟨rfl, rfl⟩ | ⟨-, hi⟩
    · rfl
    · exact m.keyed _ hi

/-- `_by_id.values()`. -/
def instruments (m : InstrumentMapping) : List BrokerInstrument := m.byId.items.map Prod.snd

def findBySymbol (m : InstrumentMapping) (exchange symbol : Value) : Option BrokerInstrument :=
  m.instruments.find? fun i => exchange.isText i.exchange && symbol.isText i.symbol

variable {m : InstrumentMapping} {i j : BrokerInstrument}

/-- Registered instruments with one id are one. -/
theorem eq_of_id (hi : i ∈ m.instruments) (hj : j ∈ m.instruments)
    (h : i.internalInstrumentId = j.internalInstrumentId) : i = j := by
  obtain ⟨p, hp, rfl⟩ := List.mem_map.mp hi
  obtain ⟨q, hq, rfl⟩ := List.mem_map.mp hj
  rw [m.keyed p hp, m.keyed q hq] at h
  rw [List.inj_on_of_nodup_map m.byId.nodup hp hq h]

/-- No two registered instruments have the same exchange and symbol. -/
def Distinct (m : InstrumentMapping) : Prop :=
  ∀ i ∈ m.instruments, ∀ j ∈ m.instruments, i.exchange = j.exchange → i.symbol = j.symbol → i = j

theorem findBySymbol_eq_some (hdistinct : m.Distinct) (hi : i ∈ m.instruments) {exchange symbol : Value} :
    m.findBySymbol exchange symbol = some i ↔ exchange = .str i.exchange ∧ symbol = .str i.symbol := by
  unfold findBySymbol
  constructor
  · intro h
    have hfound := List.find?_some h
    simpa [isText_iff] using hfound
  · rintro ⟨rfl, rfl⟩
    cases hfind : m.instruments.find? fun j => (Value.str i.exchange).isText j.exchange && (Value.str i.symbol).isText j.symbol with
    | none =>
      have hnone := List.find?_eq_none.mp hfind i hi
      simp [isText_iff] at hnone
    | some j =>
      have hfound := List.find?_some hfind
      simp only [Bool.and_eq_true, isText_iff] at hfound
      obtain ⟨hexchange, hsymbol⟩ := hfound
      have hij : i = j := hdistinct i hi j (List.mem_of_find?_eq_some hfind)
        (Scalar.str.inj (Value.scalar.inj hexchange)) (Scalar.str.inj (Value.scalar.inj hsymbol))
      rw [hij]

end InstrumentMapping

/-! ### Snapshots -/

structure BrokerPositionSnapshot where
  brokerAccountId : UUID
  instrumentId : UUID
  tradingMode : String
  quantity : Decimal
  averagePrice : Option Decimal
  exchange : Value
  symbol : Value
  capturedAt : DateTime

structure BrokerHoldingSnapshot where
  brokerAccountId : UUID
  instrumentId : UUID
  quantity : Decimal
  averagePrice : Option Decimal
  exchange : Value
  symbol : Value
  capturedAt : DateTime

/-- `Decimal(str(a or 0))`. -/
def decimalOr (decimal : String → Option Decimal) (a : Value) : Except ReadError Decimal :=
  match decimal (a.orElse (.int 0)).text with
  | some d => .ok d
  | none => .error .invalidOperation

/-- `a or ""`. -/
def Value.orEmpty (a : Value) : Value := a.orElse (.str "")

/-- Where a provider's rows have what is read of them, and how the instrument of a row is found. -/
structure SnapshotReader where
  positionRows : Fields → Except ReadError (List Value)
  instrumentId : InstrumentMapping → Fields → UUID
  exchange : Fields → Value
  symbol : Fields → Value
  /-- The quantity of a position, none where the row is passed over. -/
  positionQuantity : (String → Option Decimal) → Fields → Except ReadError (Option Decimal)
  positionPrice : String
  holdingPrice : String

/-- `data.get("net") or []` where the body has a dictionary under `data`. -/
def netRows (body : Fields) : Except ReadError (List Value) :=
  match body.get "data" with
  | .dict data => ((Fields.get data "net").orElse (.list [])).iterate
  | _ => .ok []

/-- `body.get("data") or []`. -/
def dataRows (body : Fields) : Except ReadError (List Value) := ((body.get "data").orElse (.list [])).iterate

/-- A row without a quantity is passed over. -/
def quantityOf (decimal : String → Option Decimal) (row : Fields) : Except ReadError (Option Decimal) :=
  if (row.get "quantity").truthy = true then (decimalOr decimal (row.get "quantity")).map some else .ok none

/-- `_instrument_id_for` of Zerodha and Angel One. -/
def instrumentIdFor (m : InstrumentMapping) (exchange symbol : Value) : UUID :=
  match m.findBySymbol exchange symbol with
  | some mapped => mapped.internalInstrumentId
  | none => sentinel

namespace Zerodha

def snapshots : SnapshotReader where
  positionRows := netRows
  instrumentId m row := instrumentIdFor m (row.get "exchange").orEmpty (row.get "tradingsymbol").orEmpty
  exchange row := (row.get "exchange").orEmpty
  symbol row := (row.get "tradingsymbol").orEmpty
  positionQuantity := quantityOf
  positionPrice := "average_price"
  holdingPrice := "average_price"

end Zerodha

namespace Upstox

/-- The first instrument with a token or a key. -/
def firstByToken (m : InstrumentMapping) (symbol : String) : Option BrokerInstrument :=
  m.instruments.find? fun i => i.brokerToken = symbol || i.instrumentKey = symbol

/-- `_instrument_id_for`. -/
def instrumentIdFor (m : InstrumentMapping) (exchange symbol : String) : UUID :=
  match m.findBySymbol (.str exchange) (.str symbol) with
  | some mapped => mapped.internalInstrumentId
  | none =>
    match firstByToken m symbol with
    | some instrument => instrument.internalInstrumentId
    | none => sentinel

/-- The symbol of a row, else its token. -/
def symbolOf (row : Fields) : String := ((row.get "tradingsymbol").orElse (row.get "instrument_token")).orEmpty.text

def snapshots : SnapshotReader where
  positionRows := dataRows
  instrumentId m row := instrumentIdFor m "" (symbolOf row)
  exchange row := .str (row.get "exchange").orEmpty.text
  symbol row := .str (symbolOf row)
  positionQuantity := quantityOf
  positionPrice := "average_price"
  holdingPrice := "average_price"

end Upstox

namespace AngelOne

def symbolOf (row : Fields) : String := (row.get "tradingsymbol").orEmpty.text

/-- A net quantity that is not zero. -/
def netQuantity (row : Fields) : Except ReadError (Option Decimal) := do
  let netQty ← (row.get "netqty").intOr
  return if netQty = 0 then none else some (.finite (.ofInt netQty))

def snapshots : SnapshotReader where
  positionRows := dataRows
  instrumentId m row := instrumentIdFor m (row.get "exchange").orEmpty (.str (symbolOf row))
  exchange row := .str (row.get "exchange").orEmpty.text
  symbol row := .str (symbolOf row)
  positionQuantity _ row := netQuantity row
  positionPrice := "netavgprice"
  holdingPrice := "averageprice"

end AngelOne

def BrokerName.snapshots : BrokerName → SnapshotReader
  | zerodha => Zerodha.snapshots
  | upstox => Upstox.snapshots
  | angelOne => AngelOne.snapshots

namespace SnapshotReader

variable (reader : SnapshotReader) (m : InstrumentMapping) (decimal : String → Option Decimal) (account : UUID)
  (now : DateTime)

/-- A row of the positions. -/
def position (row : Value) : Except ReadError (Option BrokerPositionSnapshot) := do
  let row ← row.asDict
  let quantity ← reader.positionQuantity decimal row
  return quantity.map fun quantity => {
    brokerAccountId := account
    instrumentId := reader.instrumentId m row
    tradingMode := "PAPER"
    quantity := quantity
    averagePrice := decOf decimal (row.get reader.positionPrice)
    exchange := reader.exchange row
    symbol := reader.symbol row
    capturedAt := now }

/-- A row of the holdings. -/
def holding (row : Value) : Except ReadError BrokerHoldingSnapshot := do
  let row ← row.asDict
  let quantity ← decimalOr decimal (row.get "quantity")
  return {
    brokerAccountId := account
    instrumentId := reader.instrumentId m row
    quantity := quantity
    averagePrice := decOf decimal (row.get reader.holdingPrice)
    exchange := reader.exchange row
    symbol := reader.symbol row
    capturedAt := now }

def parsePositionsResponse (resp : TransportResponse) : Except ReadError (List BrokerPositionSnapshot) := do
  let body ← resp.fields
  let rows ← reader.positionRows body
  let snapshots ← rows.mapM (reader.position m decimal account now)
  return snapshots.reduceOption

def parseHoldingsResponse (resp : TransportResponse) : Except ReadError (List BrokerHoldingSnapshot) := do
  let body ← resp.fields
  let rows ← dataRows body
  rows.mapM (reader.holding m decimal account now)

end SnapshotReader

/-! ### The ids of the snapshots -/

/-- The ids that are made of rows, of which some are passed over. -/
theorem ids_of_rows {β : Type} {f : Value → Except ReadError (Option β)} {ident : β → UUID} {kept : Fields → Bool}
    {g : Fields → UUID} (hf : ∀ row o, f (.dict row) = .ok o → o.map ident = if kept row = true then some (g row) else none) :
    ∀ {rows : List Fields} {os : List (Option β)}, (rows.map Value.dict).mapM f = .ok os →
      os.reduceOption.map ident = (rows.filter kept).map g
  | [], os, h => by
    cases h
    rfl
  | row :: rows, os, h => by
    rw [List.map_cons, mapM_eq_ok_iff, List.forall₂_cons_left_iff] at h
    obtain ⟨o, os, ho, hos, rfl⟩ := h
    have ih := ids_of_rows hf (mapM_eq_ok_iff.mpr hos)
    have hrow := hf row o ho
    by_cases hkept : kept row = true
    · rw [if_pos hkept] at hrow
      obtain ⟨b, rfl, hb⟩ := Option.map_eq_some_iff.mp hrow
      rw [List.reduceOption_cons_of_some, List.map_cons, List.filter_cons_of_pos hkept, List.map_cons, hb, ih]
    · rw [if_neg hkept, Option.map_eq_none_iff] at hrow
      rw [hrow, List.reduceOption_cons_of_none, List.filter_cons_of_neg hkept, ih]

/-- The ids where no row is passed over. -/
theorem map_of_rows {β : Type} {f : Value → Except ReadError β} {ident : β → UUID} {g : Fields → UUID}
    (hf : ∀ row b, f (.dict row) = .ok b → ident b = g row) :
    ∀ {rows : List Fields} {bs : List β}, (rows.map Value.dict).mapM f = .ok bs → bs.map ident = rows.map g
  | [], bs, h => by
    cases h
    rfl
  | row :: rows, bs, h => by
    rw [List.map_cons, mapM_eq_ok_iff, List.forall₂_cons_left_iff] at h
    obtain ⟨b, bs, hb, hbs, rfl⟩ := h
    rw [List.map_cons, List.map_cons, hf row b hb, map_of_rows hf (mapM_eq_ok_iff.mpr hbs)]

inductive AccountQuery where
  | positions
  | holdings
  deriving DecidableEq, Repr

section Queries

variable (reader : SnapshotReader) (m : InstrumentMapping) (decimal : String → Option Decimal) (account : UUID)
  (now : DateTime)

/-- The rows that the answer to a query has. -/
def AccountQuery.rows (body : Fields) : AccountQuery → Except ReadError (List Value)
  | positions => reader.positionRows body
  | holdings => dataRows body

/-- The rows of which snapshots are made: a position without a quantity is passed over. -/
def AccountQuery.kept (row : Fields) : AccountQuery → Bool
  | positions =>
    match reader.positionQuantity decimal row with
    | .ok (some _) => true
    | _ => false
  | holdings => true

/-- The instrument ids of the snapshots. -/
def AccountQuery.ids (resp : TransportResponse) : AccountQuery → Except ReadError (List UUID)
  | positions => (reader.parsePositionsResponse m decimal account now resp).map fun l => l.map (·.instrumentId)
  | holdings => (reader.parseHoldingsResponse m decimal account now resp).map fun l => l.map (·.instrumentId)

variable {reader m decimal account now}

/-- **The ids of the snapshots, row by row.** -/
theorem ids_eq {query : AccountQuery} {resp : TransportResponse} {rows : List Fields} {ids : List UUID}
    (hrows : query.rows reader resp.bodyFields = .ok (rows.map Value.dict))
    (hids : query.ids reader m decimal account now resp = .ok ids) :
    ids = (rows.filter fun row => query.kept reader decimal row).map (reader.instrumentId m) := by
  cases query with
  | positions =>
    obtain ⟨snapshots, hparse, rfl⟩ := map_eq_ok.mp hids
    obtain ⟨body, hbody, hparse⟩ := bind_eq_ok.mp hparse
    obtain ⟨values, hvalues, hparse⟩ := bind_eq_ok.mp hparse
    obtain ⟨os, hos, hsnapshots⟩ := bind_eq_ok.mp hparse
    cases hsnapshots
    obtain ⟨-, rfl⟩ := fields_eq_ok.mp hbody
    cases hvalues.symm.trans hrows
    refine ids_of_rows (fun row o ho => ?_) hos
    obtain ⟨row', hrow', ho⟩ := bind_eq_ok.mp ho
    cases hrow'
    obtain ⟨quantity, hquantity, ho⟩ := bind_eq_ok.mp ho
    cases ho
    cases quantity with
    | none => simp [AccountQuery.kept, hquantity]
    | some d => simp [AccountQuery.kept, hquantity]
  | holdings =>
    obtain ⟨snapshots, hparse, rfl⟩ := map_eq_ok.mp hids
    obtain ⟨body, hbody, hparse⟩ := bind_eq_ok.mp hparse
    obtain ⟨values, hvalues, hparse⟩ := bind_eq_ok.mp hparse
    obtain ⟨-, rfl⟩ := fields_eq_ok.mp hbody
    cases hvalues.symm.trans hrows
    have hall : (rows.filter fun row => AccountQuery.holdings.kept reader decimal row) = rows :=
      List.filter_eq_self.mpr fun _ _ => rfl
    rw [hall]
    refine map_of_rows (fun row b hb => ?_) hparse
    obtain ⟨row', hrow', hb⟩ := bind_eq_ok.mp hb
    cases hrow'
    obtain ⟨quantity, -, hb⟩ := bind_eq_ok.mp hb
    cases hb
    rfl

/-! ### The instruments of the rows -/

/-- A row has the exchange and the symbol of an instrument. -/
def OfInstrument (row : Fields) (i : BrokerInstrument) : Prop :=
  row.get "exchange" = .str i.exchange ∧ row.get "tradingsymbol" = .str i.symbol

/-- Each snapshot has the id of its row's instrument, so that those of different instruments have different ones and
none has the sentinel. -/
structure Resolved (m : InstrumentMapping) (rows : List Fields) (ids : List UUID) : Prop where
  length : ids.length = rows.length
  exact : ∀ p ∈ rows.zip ids, ∀ i ∈ m.instruments, OfInstrument p.1 i → p.2 = i.internalInstrumentId
  apart : ∀ p ∈ rows.zip ids, ∀ q ∈ rows.zip ids, ∀ i ∈ m.instruments, ∀ j ∈ m.instruments, OfInstrument p.1 i →
    OfInstrument q.1 j → i ≠ j → p.2 ≠ q.2
  known : ∀ p ∈ rows.zip ids, ∀ i ∈ m.instruments, OfInstrument p.1 i → p.2 ≠ sentinel

/-- Upstox finds the instrument of a row: it has no exchange, and the symbol of the row, or else no instrument has, and it
is the first whose token or key is the symbol of the row. -/
def UpstoxFinds (m : InstrumentMapping) (row : Fields) (i : BrokerInstrument) : Prop :=
  (i.exchange = "" ∧ i.symbol = Upstox.symbolOf row) ∨
  ((∀ j ∈ m.instruments, ¬(j.exchange = "" ∧ j.symbol = Upstox.symbolOf row)) ∧
    Upstox.firstByToken m (Upstox.symbolOf row) = some i)

/-- The condition on a row: its instrument is not registered under the sentinel, and is found if the adapter is that of
Upstox. -/
def Found (broker : BrokerName) (m : InstrumentMapping) (row : Fields) : Prop :=
  ∀ i ∈ m.instruments, OfInstrument row i →
    i.internalInstrumentId ≠ sentinel ∧ (broker = .upstox → UpstoxFinds m row i)

theorem orEmpty_str (s : String) : (Value.str s).orEmpty = .str s := by
  unfold Value.orEmpty Value.orElse
  by_cases hs : (Value.str s).truthy = true
  · rw [if_pos hs]
  · have hempty : s = "" := by simpa [Value.truthy, Scalar.truthy] using hs
    rw [if_neg hs, hempty]

theorem text_str (s : String) : (Value.str s).text = s := by
  simp [Value.text, Value.render]

/-- Zerodha and Angel One find the instrument of a row. -/
theorem instrumentIdFor_eq (hdistinct : m.Distinct) {i : BrokerInstrument} (hi : i ∈ m.instruments) :
    instrumentIdFor m (.str i.exchange) (.str i.symbol) = i.internalInstrumentId := by
  rw [instrumentIdFor, (InstrumentMapping.findBySymbol_eq_some hdistinct hi).mpr ⟨rfl, rfl⟩]

theorem findBySymbol_eq_none {exchange symbol : String} : m.findBySymbol (.str exchange) (.str symbol) = none ↔
    ∀ j ∈ m.instruments, ¬(j.exchange = exchange ∧ j.symbol = symbol) := by
  have hkeys : ∀ j : BrokerInstrument, ((Value.str exchange).isText j.exchange && (Value.str symbol).isText j.symbol) =
      true ↔ j.exchange = exchange ∧ j.symbol = symbol := by
    intro j
    simp [Value.isText, @eq_comm _ j.exchange, @eq_comm _ j.symbol]
  rw [InstrumentMapping.findBySymbol, List.find?_eq_none]
  exact forall₂_congr fun j _ => not_congr (hkeys j)

/-- **When Upstox has the id of an instrument**, which is not the sentinel. -/
theorem upstox_instrumentIdFor_iff (hdistinct : m.Distinct) {i : BrokerInstrument} (hi : i ∈ m.instruments)
    {row : Fields} : Upstox.instrumentIdFor m "" (Upstox.symbolOf row) = i.internalInstrumentId ∧
      i.internalInstrumentId ≠ sentinel ↔ i.internalInstrumentId ≠ sentinel ∧ UpstoxFinds m row i := by
  rw [and_comm]
  refine and_congr_right fun hsentinel => ?_
  unfold Upstox.instrumentIdFor UpstoxFinds
  cases hsymbol : m.findBySymbol (.str "") (.str (Upstox.symbolOf row)) with
  | some j =>
    have hj : j ∈ m.instruments := List.mem_of_find?_eq_some hsymbol
    obtain ⟨hexchange, hname⟩ := (InstrumentMapping.findBySymbol_eq_some hdistinct hj).mp hsymbol
    have hexchange : j.exchange = "" := (Scalar.str.inj (Value.scalar.inj hexchange)).symm
    have hname : j.symbol = Upstox.symbolOf row := (Scalar.str.inj (Value.scalar.inj hname)).symm
    constructor
    · intro hid
      rw [← InstrumentMapping.eq_of_id hj hi hid]
      exact .inl ⟨hexchange, hname⟩
    · rintro (⟨hexchange', hname'⟩ | ⟨hnone, -⟩)
      · rw [hdistinct i hi j hj (hexchange'.trans hexchange.symm) (hname'.trans hname.symm)]
      · exact absurd ⟨hexchange, hname⟩ (hnone j hj)
  | none =>
    have hnone := findBySymbol_eq_none.mp hsymbol
    constructor
    · intro hid
      refine .inr ⟨hnone, ?_⟩
      cases hfirst : Upstox.firstByToken m (Upstox.symbolOf row) with
      | some j =>
        rw [hfirst] at hid
        rw [InstrumentMapping.eq_of_id (List.mem_of_find?_eq_some hfirst) hi hid]
      | none =>
        rw [hfirst] at hid
        exact absurd hid.symm hsentinel
    · rintro (hname | ⟨-, hfirst⟩)
      · exact absurd hname (hnone i hi)
      · rw [hfirst]

/-- The id of a row and its instrument. -/
theorem instrumentId_iff (broker : BrokerName) (hdistinct : m.Distinct) {i : BrokerInstrument} (hi : i ∈ m.instruments)
    {row : Fields} (hrow : OfInstrument row i) :
    broker.snapshots.instrumentId m row = i.internalInstrumentId ∧ i.internalInstrumentId ≠ sentinel ↔
      i.internalInstrumentId ≠ sentinel ∧ (broker = .upstox → UpstoxFinds m row i) := by
  obtain ⟨hexchange, hsymbol⟩ := hrow
  cases broker with
  | upstox =>
    show Upstox.instrumentIdFor m "" (Upstox.symbolOf row) = _ ∧ _ ↔ _
    simpa using upstox_instrumentIdFor_iff hdistinct hi
  | zerodha =>
    have hid : BrokerName.zerodha.snapshots.instrumentId m row = i.internalInstrumentId := by
      show instrumentIdFor m (row.get "exchange").orEmpty (row.get "tradingsymbol").orEmpty = _
      rw [hexchange, hsymbol, orEmpty_str, orEmpty_str, instrumentIdFor_eq hdistinct hi]
    simpa using fun _ => hid
  | angelOne =>
    have hid : BrokerName.angelOne.snapshots.instrumentId m row = i.internalInstrumentId := by
      show instrumentIdFor m (row.get "exchange").orEmpty (.str (row.get "tradingsymbol").orEmpty.text) = _
      rw [hexchange, hsymbol, orEmpty_str, orEmpty_str, text_str, instrumentIdFor_eq hdistinct hi]
    simpa using fun _ => hid

/-- **When every snapshot has the id of its row's instrument.** -/
theorem resolved_iff {broker : BrokerName} (hdistinct : m.Distinct) {query : AccountQuery} {resp : TransportResponse}
    {rows : List Fields} (hrows : query.rows broker.snapshots resp.bodyFields = .ok (rows.map Value.dict))
    {ids : List UUID} (hids : query.ids broker.snapshots m decimal account now resp = .ok ids) :
    Resolved m (rows.filter fun row => query.kept broker.snapshots decimal row) ids ↔
      ∀ row ∈ rows.filter (fun row => query.kept broker.snapshots decimal row), Found broker m row := by
  rw [ids_eq hrows hids]
  generalize hkept : (rows.filter fun row => query.kept broker.snapshots decimal row) = kept
  have hzip : ∀ p, p ∈ kept.zip (kept.map (broker.snapshots.instrumentId m)) ↔
      ∃ row ∈ kept, p = (row, broker.snapshots.instrumentId m row) := by
    intro p
    have hmap : kept.zip (kept.map (broker.snapshots.instrumentId m)) =
        kept.map fun row => (row, broker.snapshots.instrumentId m row) := by
      conv_lhs => rw [← List.map_id kept]
      rw [List.map_map, List.zip_map']
      rfl
    rw [hmap, List.mem_map]
    exact ⟨fun ⟨row, hrow, h⟩ => ⟨row, hrow, h.symm⟩, fun ⟨row, hrow, h⟩ => ⟨row, hrow, h.symm⟩⟩
  constructor
  · intro h row hrow i hi hof
    have hmem := (hzip _).mpr ⟨row, hrow, rfl⟩
    have hid := h.exact _ hmem i hi hof
    have hknown := h.known _ hmem i hi hof
    refine (instrumentId_iff broker hdistinct hi hof).mp ⟨hid, ?_⟩
    rw [← hid]
    exact hknown
  · intro h
    have hid : ∀ row ∈ kept, ∀ i ∈ m.instruments, OfInstrument row i →
        broker.snapshots.instrumentId m row = i.internalInstrumentId ∧ i.internalInstrumentId ≠ sentinel :=
      fun row hrow i hi hof => (instrumentId_iff broker hdistinct hi hof).mpr (h row hrow i hi hof)
    refine ⟨List.length_map _, fun p hp i hi hof => ?_, fun p hp q hq i hi j hj hof hof' hij hsame => ?_,
      fun p hp i hi hof => ?_⟩
    · obtain ⟨row, hrow, rfl⟩ := (hzip p).mp hp
      exact (hid row hrow i hi hof).1
    · obtain ⟨row, hrow, rfl⟩ := (hzip p).mp hp
      obtain ⟨row', hrow', rfl⟩ := (hzip q).mp hq
      refine hij (InstrumentMapping.eq_of_id hi hj ?_)
      rw [← (hid row hrow i hi hof).1, ← (hid row' hrow' j hj hof').1]
      exact hsame
    · obtain ⟨row, hrow, rfl⟩ := (hzip p).mp hp
      obtain ⟨heq, hne⟩ := hid row hrow i hi hof
      rw [show (row, broker.snapshots.instrumentId m row).2 = i.internalInstrumentId from heq]
      exact hne

end Queries

def reliance : BrokerInstrument where
  internalInstrumentId := ⟨2⟩
  exchange := "NSE"
  symbol := "RELIANCE"
  brokerToken := "NSE_EQ|INE002A01018"
  instrumentKey := "RELIANCE-EQ"

def sampleMapping : InstrumentMapping := InstrumentMapping.empty.register reliance

theorem distinct_sampleMapping : sampleMapping.Distinct := by
  have hall : ∀ i ∈ sampleMapping.instruments, i = reliance := by decide
  intro i hi j hj _ _
  rw [hall i hi, hall j hj]

/-- A holding of five shares. -/
def relianceRow : Fields := [("exchange", .str "NSE"), ("tradingsymbol", .str "RELIANCE"), ("quantity", .int 5)]

theorem ofInstrument_relianceRow : OfInstrument relianceRow reliance := ⟨rfl, rfl⟩

def fiveOnly (s : String) : Option Decimal := if s = "5" then some (.finite (.ofNat 5)) else none

theorem resolved_iff_zerodha : Resolved sampleMapping [relianceRow] [⟨2⟩] := by
  have hrows : AccountQuery.holdings.rows BrokerName.zerodha.snapshots
      (dataResponse (.list [.dict relianceRow])).bodyFields = .ok ([relianceRow].map Value.dict) := rfl
  have hids : AccountQuery.holdings.ids BrokerName.zerodha.snapshots sampleMapping fiveOnly ⟨1⟩ sampleNow
      (dataResponse (.list [.dict relianceRow])) = .ok [⟨2⟩] := rfl
  have hfound : ∀ row ∈ [relianceRow].filter (fun row => AccountQuery.holdings.kept BrokerName.zerodha.snapshots fiveOnly
      row), Found .zerodha sampleMapping row := by
    intro row hrow i hi hof
    have hall : ∀ i ∈ sampleMapping.instruments, i.internalInstrumentId ≠ sentinel := by decide
    exact ⟨hall i hi, fun h => by cases h⟩
  exact (resolved_iff distinct_sampleMapping hrows hids).mpr hfound

/-- Upstox gives it the sentinel. -/
theorem not_resolved_upstox : ¬ ∀ (broker : BrokerName) (m : InstrumentMapping) (decimal : String → Option Decimal)
    (account : UUID) (now : DateTime) (query : AccountQuery) (resp : TransportResponse) (rows : List Fields)
    (ids : List UUID), m.Distinct → query.rows broker.snapshots resp.bodyFields = .ok (rows.map Value.dict) →
    (∀ row ∈ rows, ∃ i ∈ m.instruments, OfInstrument row i) →
    query.ids broker.snapshots m decimal account now resp = .ok ids →
      Resolved m (rows.filter fun row => query.kept broker.snapshots decimal row) ids := by
  intro h
  have hregistered : ∀ row ∈ [relianceRow], ∃ i ∈ sampleMapping.instruments, OfInstrument row i := by
    intro row hrow
    rw [List.mem_singleton.mp hrow]
    exact ⟨reliance, by decide, ofInstrument_relianceRow⟩
  have hids : AccountQuery.holdings.ids BrokerName.upstox.snapshots sampleMapping fiveOnly ⟨1⟩ sampleNow
      (dataResponse (.list [.dict relianceRow])) = .ok [sentinel] := rfl
  have hresolved := h .upstox sampleMapping fiveOnly ⟨1⟩ sampleNow .holdings (dataResponse (.list [.dict relianceRow]))
    [relianceRow] [sentinel] distinct_sampleMapping rfl hregistered hids
  exact hresolved.known (relianceRow, sentinel) List.mem_cons_self reliance (by decide) ofInstrument_relianceRow rfl

end AlphaAlgo.Broker
