import AlphaAlgo.Broker.Responses

/-!
# Statuses — the rows of the order books and what is read of them

`parse_orders_response` gives each row of an order book the status that `map_status` of the provider finds in it.
`get_order` of Zerodha and Upstox reads the answer to a single order as an acknowledgement, that of Angel One looks the
order up in its book.

* `mapStatus_ne_acknowledged`: no row is read as an acknowledgement.
* `entries_of_book`: the entry of an order that has one row.
* `orders_agree_iff`: when the two ways to ask for an order agree.
-/

namespace AlphaAlgo.Broker

open Loop (bind_eq_ok mapM_eq_ok_iff)

/-! ### Rows -/

/-- `int(a or 0)`. -/
def Value.intOr (a : Value) : Except ReadError ℤ :=
  match a.orElse (.int 0) with
  | .scalar a => Broker.intOr a
  | .float (some q) _ => .ok (q.num.tdiv q.den)
  | .float .none text => .error (if text = "nan" then .valueError else .overflowError)
  | .list _ => .error .typeError
  | .dict _ => .error .typeError

/-- What `.get` is called of. -/
def Value.asDict : Value → Except ReadError Fields
  | .dict fields => .ok fields
  | _ => .error .attributeError

/-- `for a in rows`. -/
def Value.iterate : Value → Except ReadError (List Value)
  | .list items => .ok items
  | .dict fields => .ok (fields.map fun p => .str p.1)
  | .scalar (.str s) => .ok (s.toList.map fun c => .str c.toString)
  | _ => .error .typeError

/-- `_dec`; `decimal` reads a text. -/
def decOf (decimal : String → Option Decimal) : Value → Option Decimal
  | .scalar .none => none
  | .scalar (.str "") => none
  | a => decimal a.text

/-- The status that a table has for a text, in the case of its keys; what a table does not have is `UNKNOWN`. -/
def normalized (table : List (String × BrokerOrderStatus)) (case : String → String) (status : String) :
    BrokerOrderStatus :=
  (table.lookup (case status)).getD .unknown

/-- A status that is neither in the table nor `UNKNOWN` is not found. -/
theorem normalized_ne {table : List (String × BrokerOrderStatus)} {s : BrokerOrderStatus} (hs : .unknown ≠ s)
    (htable : ∀ p ∈ table, p.2 ≠ s) (case : String → String) (status : String) : normalized table case status ≠ s := by
  unfold normalized
  cases hlookup : table.lookup (case status) with
  | none => exact hs
  | some n =>
    obtain ⟨before, after, hsplit, -⟩ := List.lookup_eq_some_iff.mp hlookup
    exact htable (case status, n) (by rw [hsplit]; simp)

/-- An open order with a part filled. -/
def refine (n : BrokerOrderStatus) (filled quantity : ℤ) : BrokerOrderStatus :=
  if n = .opened ∧ 0 < quantity ∧ 0 < filled ∧ filled < quantity then .partiallyFilled else n

/-- `map_status` with the table of a provider. -/
def mapStatusBy (table : List (String × BrokerOrderStatus)) (case : String → String) (status : Value)
    (filled quantity : ℤ) : Except ReadError BrokerOrderStatus :=
  match status with
  | .scalar .none => .ok .unknown
  | .scalar (.str s) => .ok (refine (normalized table case s) filled quantity)
  | _ => .error .attributeError

/-- Where a provider's row has what is read of it, and its table of statuses with the case of the keys. -/
structure RowReader where
  status : Fields → Value
  filled : Fields → Value
  orderId : String
  tag : String
  averagePrice : String
  statusMap : List (String × BrokerOrderStatus)
  case : String → String

namespace Zerodha

def statusMap : List (String × BrokerOrderStatus) :=
  [("OPEN", .opened), ("PENDING", .pending), ("COMPLETE", .filled), ("CANCELLED", .cancelled),
    ("CANCEL PENDING", .cancelled), ("REJECTED", .rejected), ("TRIGGER PENDING", .pending),
    ("AMO REQ RECEIVED", .pending), ("PUT ORDER REQ RECEIVED", .pending)]

def rows : RowReader where
  status row := row.get "status"
  filled row := row.get "filled_quantity"
  orderId := "order_id"
  tag := "tag"
  averagePrice := "average_price"
  statusMap := statusMap
  case := upper

end Zerodha

namespace Upstox

def statusMap : List (String × BrokerOrderStatus) :=
  [("open", .opened), ("complete", .filled), ("cancelled", .cancelled), ("rejected", .rejected), ("pending", .pending),
    ("trigger pending", .pending), ("put order req received", .pending), ("validation pending", .pending),
    ("modify pending", .pending), ("after market order req received", .pending)]

def rows : RowReader where
  status row := row.get "status"
  filled row := row.get "filled_quantity"
  orderId := "order_id"
  tag := "tag"
  averagePrice := "average_price"
  statusMap := statusMap
  case := lower

end Upstox

namespace AngelOne

def statusMap : List (String × BrokerOrderStatus) :=
  [("complete", .filled), ("rejected", .rejected), ("cancelled", .cancelled), ("open", .opened), ("pending", .pending),
    ("trigger pending", .pending), ("amo", .pending)]

def rows : RowReader where
  status row := (row.get "orderstatus").orElse (row.get "status")
  filled row := (row.get "filledquantity").orElse (row.get "filledQuantity")
  orderId := "orderid"
  tag := "clientorderid"
  averagePrice := "averageprice"
  statusMap := statusMap
  case := lower

end AngelOne

def BrokerName.rows : BrokerName → RowReader
  | zerodha => Zerodha.rows
  | upstox => Upstox.rows
  | angelOne => AngelOne.rows

namespace RowReader

variable (reader : RowReader) (decimal : String → Option Decimal) (now : DateTime)

/-- `map_status` of a provider. -/
def mapStatus (status : Value) (filled quantity : ℤ) : Except ReadError BrokerOrderStatus :=
  mapStatusBy reader.statusMap reader.case status filled quantity

/-- The status of a row. -/
def rowStatus (row : Fields) : Except ReadError BrokerOrderStatus := do
  let quantity ← (row.get "quantity").intOr
  let filled ← (reader.filled row).intOr
  reader.mapStatus (reader.status row) filled quantity

/-- The order id of a row; one that does not count is none. -/
def rowId (row : Fields) : Option String :=
  if (row.get reader.orderId).truthy = true then some (row.get reader.orderId).text else none

/-- One row of `parse_orders_response`. -/
def parseRow (row : Value) : Except ReadError BrokerOrderResponse := do
  let row ← row.asDict
  let quantity ← (row.get "quantity").intOr
  let filled ← (reader.filled row).intOr
  let status ← reader.mapStatus (reader.status row) filled quantity
  return {
    status := status
    clientOrderId := ((row.get reader.tag).orElse (.str "")).text
    brokerOrderId := reader.rowId row
    filledQuantity := filled
    averagePrice := decOf decimal (row.get reader.averagePrice)
    timestamp := now }

/-- `body.get("data") or []`, over which is iterated; a single dictionary is one row. -/
def rowsOf (body : Fields) : Except ReadError (List Value) :=
  match (body.get "data").orElse (.list []) with
  | .dict row => .ok [.dict row]
  | rows => rows.iterate

def parseOrdersResponse (resp : TransportResponse) : Except ReadError (List BrokerOrderResponse) := do
  let body ← resp.fields
  let rows ← rowsOf body
  rows.mapM (reader.parseRow decimal now)

end RowReader

/-! ### Single orders and order books -/

namespace BrokerName

variable (broker : BrokerName) (decimal : String → Option Decimal) (now : DateTime) (state : ConnectionState)

/-- `get_orders`; `resp` is what the order book answers. -/
def getOrders (resp : TransportResponse) : Except Failure (List BrokerOrderResponse) := do
  guardConnection state
  if resp.ok then (broker.rows.parseOrdersResponse decimal now resp).mapError ReadError.failure
  else .error (broker.raised resp)

/-- `get_order`; `resp` is what the endpoint of a single order answers, which is the order book for Angel One. -/
def getOrder (brokerOrderId : String) (resp : TransportResponse) : Except Failure BrokerOrderResponse := do
  guardConnection state
  if resp.ok then
    match broker with
    | angelOne => do
      let orders ← (AngelOne.rows.parseOrdersResponse decimal now resp).mapError ReadError.failure
      match orders.find? fun order => order.brokerOrderId = some brokerOrderId with
      | some order => .ok order
      | none => .error (.broker { errorClass := .notFound, message := "order " ++ brokerOrderId ++ " not found" })
    | broker => (broker.parseOrderResponse now resp none).mapError ReadError.failure
  else .error (broker.raised resp)

end BrokerName

/-! ### The two ways to ask for an order -/

/-- What is returned for an element, and where what is returned comes from. -/
theorem mapM_mem {α β ε : Type} {f : α → Except ε β} {l : List α} {l' : List β} (h : l.mapM f = .ok l') :
    (∀ a ∈ l, ∃ b ∈ l', f a = .ok b) ∧ ∀ b ∈ l', ∃ a ∈ l, f a = .ok b := by
  have hall := mapM_eq_ok_iff.mp h
  clear h
  induction hall with
  | nil => simp
  | cons hab hrest ih =>
    obtain ⟨ih, ih'⟩ := ih
    refine ⟨fun a ha => ?_, fun b hb => ?_⟩
    · rcases List.mem_cons.mp ha with rfl | ha
      · exact ⟨_, List.mem_cons_self, hab⟩
      · obtain ⟨b, hb, hf⟩ := ih a ha
        exact ⟨b, List.mem_cons_of_mem _ hb, hf⟩
    · rcases List.mem_cons.mp hb with rfl | hb
      · exact ⟨_, List.mem_cons_self, hab⟩
      · obtain ⟨a, ha, hf⟩ := ih' b hb
        exact ⟨a, List.mem_cons_of_mem _ ha, hf⟩

theorem mapStatusBy_ne_acknowledged {table : List (String × BrokerOrderStatus)} {case : String → String}
    (htable : ∀ p ∈ table, p.2 ≠ .brokerAcknowledged) {status : Value} {filled quantity : ℤ} {s : BrokerOrderStatus}
    (h : mapStatusBy table case status filled quantity = .ok s) : s ≠ .brokerAcknowledged := by
  unfold mapStatusBy at h
  split at h
  · cases h
    simp
  · cases h
    unfold refine
    split_ifs
    · simp
    · exact normalized_ne (by decide) htable case _
  · cases h

/-- No row is read as an acknowledgement. -/
theorem mapStatus_ne_acknowledged (broker : BrokerName) {status : Value} {filled quantity : ℤ} {s : BrokerOrderStatus}
    (h : broker.rows.mapStatus status filled quantity = .ok s) : s ≠ .brokerAcknowledged := by
  have htable : ∀ p ∈ broker.rows.statusMap, p.2 ≠ .brokerAcknowledged := by cases broker <;> decide
  exact mapStatusBy_ne_acknowledged htable h

section Agreement

variable {broker : BrokerName} {decimal : String → Option Decimal} {now : DateTime} {state : ConnectionState}
  {brokerOrderId : String} {row : Fields} {single book : TransportResponse} {orders : List BrokerOrderResponse}

theorem parseRow_eq_ok {reader : RowReader} {a : Value} {entry : BrokerOrderResponse}
    (h : reader.parseRow decimal now a = .ok entry) : ∃ row, a = .dict row ∧ entry.brokerOrderId = reader.rowId row ∧
      ∃ quantity filled, reader.mapStatus (reader.status row) filled quantity = .ok entry.status := by
  unfold RowReader.parseRow at h
  obtain ⟨row, hrow, h⟩ := bind_eq_ok.mp h
  obtain ⟨quantity, -, h⟩ := bind_eq_ok.mp h
  obtain ⟨filled, -, h⟩ := bind_eq_ok.mp h
  obtain ⟨status, hstatus, h⟩ := bind_eq_ok.mp h
  cases h
  refine ⟨row, ?_, rfl, quantity, filled, hstatus⟩
  unfold Value.asDict at hrow
  split at hrow
  · cases hrow
    rfl
  · cases hrow

/-- The order book of a provider, which has one row for an order. -/
structure InBook (reader : RowReader) (brokerOrderId : String) (row : Fields) (book : TransportResponse) : Prop where
  ok : book.ok = true
  id : reader.rowId row = some brokerOrderId
  rows : ∃ rows, book.bodyFields.get "data" = .list rows ∧ .dict row ∈ rows ∧
    ∀ other, .dict other ∈ rows → reader.rowId other = some brokerOrderId → other = row

/-- What the endpoint of a single order answers: the row, alone or in a list; for Angel One it is the order book. -/
def Answers (broker : BrokerName) (row : Fields) (single book : TransportResponse) : Prop :=
  match broker with
  | .angelOne => single = book
  | _ => single.ok = true ∧
      (single.bodyFields.get "data" = .dict row ∨ single.bodyFields.get "data" = .list [.dict row])

/-- The same status, filled quantity and order id. -/
def SameReport (r entry : BrokerOrderResponse) : Prop :=
  r.status = entry.status ∧ r.filledQuantity = entry.filledQuantity ∧ r.brokerOrderId = entry.brokerOrderId

theorem getOrders_eq_ok : broker.getOrders decimal now state book = .ok orders ↔
    state = .connected ∧ (if book.ok then (broker.rows.parseOrdersResponse decimal now book).mapError ReadError.failure
      else .error (broker.raised book)) = .ok orders := by
  unfold BrokerName.getOrders guardConnection
  rw [bind_eq_ok]
  simp

/-- The entries of an order book are its rows. -/
theorem entries_of_book (hbook : InBook broker.rows brokerOrderId row book)
    (horders : broker.getOrders decimal now state book = .ok orders) :
    state = .connected ∧ broker.rows.parseOrdersResponse decimal now book = .ok orders ∧
    ∃ entry ∈ orders, entry.brokerOrderId = some brokerOrderId ∧ entry.status ≠ .brokerAcknowledged ∧
      ∀ e ∈ orders, e.brokerOrderId = some brokerOrderId → e = entry := by
  obtain ⟨hstate, hparse⟩ := getOrders_eq_ok.mp horders
  rw [if_pos hbook.ok, Loop.mapError_eq_ok] at hparse
  refine ⟨hstate, hparse, ?_⟩
  obtain ⟨rows, hdata, hrow, hunique⟩ := hbook.rows
  unfold RowReader.parseOrdersResponse at hparse
  obtain ⟨body, hfields, hparse⟩ := bind_eq_ok.mp hparse
  obtain ⟨rows', hrows', hparse⟩ := bind_eq_ok.mp hparse
  have hrows : rows' = rows := by
    have htruthy : (Value.list rows).truthy = true := by
      cases rows with
      | nil => cases hrow
      | cons r rows => rfl
    rw [(fields_eq_ok.mp hfields).2, RowReader.rowsOf, hdata, Value.orElse, if_pos htruthy] at hrows'
    exact (Except.ok.inj hrows').symm
  subst hrows
  obtain ⟨hto, hfrom⟩ := mapM_mem hparse
  obtain ⟨entry, hentry, hread⟩ := hto _ hrow
  obtain ⟨row', hrow', hid, quantity, filled, hstatus⟩ := parseRow_eq_ok hread
  cases hrow'
  refine ⟨entry, hentry, hid.trans hbook.id, mapStatus_ne_acknowledged broker hstatus, fun e he heid => ?_⟩
  obtain ⟨a, ha, hea⟩ := hfrom e he
  obtain ⟨other, rfl, hotherId, -⟩ := parseRow_eq_ok hea
  rw [hunique other ha (hotherId.symm.trans heid)] at hea
  exact Except.ok.inj (hea.symm.trans hread)

/-- **The two ways to ask for an order agree** only where both read the order book. -/
theorem orders_agree_iff (hbook : InBook broker.rows brokerOrderId row book) (hsingle : Answers broker row single book)
    (horders : broker.getOrders decimal now state book = .ok orders) :
    (∀ entry ∈ orders, entry.brokerOrderId = some brokerOrderId →
      ∃ r, broker.getOrder decimal now state brokerOrderId single = .ok r ∧ SameReport r entry) ↔ broker = .angelOne := by
  obtain ⟨hstate, hparse, entry, hentry, hid, hstatus, hunique⟩ := entries_of_book hbook horders
  have hguard : guardConnection state = .ok () := by
    rw [hstate]
    rfl
  constructor
  · intro h
    obtain ⟨r, hr, hsame, -⟩ := h entry hentry hid
    have hacknowledged : (broker.parseOrderResponse now single none).mapError ReadError.failure = .ok r →
        r.status = .brokerAcknowledged := by
      intro hr
      rw [Loop.mapError_eq_ok, BrokerName.parseOrderResponse, parseOrder] at hr
      obtain ⟨body, -, hr⟩ := bind_eq_ok.mp hr
      cases hr
      rfl
    obtain ⟨-, -, hr⟩ := bind_eq_ok.mp hr
    cases broker with
    | angelOne => rfl
    | zerodha =>
      rw [if_pos hsingle.1] at hr
      exact absurd (hsame.symm.trans (hacknowledged hr)) hstatus
    | upstox =>
      rw [if_pos hsingle.1] at hr
      exact absurd (hsame.symm.trans (hacknowledged hr)) hstatus
  · rintro rfl e he heid
    obtain rfl : single = book := hsingle
    have hfind : ∃ r, orders.find? (fun order => order.brokerOrderId = some brokerOrderId) = some r := by
      rw [← Option.isSome_iff_exists, List.find?_isSome]
      exact ⟨entry, hentry, by simpa using hid⟩
    obtain ⟨r, hfind⟩ := hfind
    have hr : r = entry := hunique r (List.mem_of_find?_eq_some hfind) (by simpa using List.find?_some hfind)
    have he' : e = entry := hunique e he heid
    refine ⟨r, ?_, by rw [hr, he']; exact ⟨rfl, rfl, rfl⟩⟩
    unfold BrokerName.getOrder
    have hparse' : AngelOne.rows.parseOrdersResponse decimal now single = .ok orders := hparse
    rw [hguard, hparse', if_pos hbook.ok]
    show (match orders.find? fun order => order.brokerOrderId = some brokerOrderId with
      | some order => Except.ok order
      | none => _) = _
    rw [hfind]

end Agreement

def sampleNow : DateTime := ⟨2026, 9, 1, 10, 0, 0, 0, some 0⟩

/-- A completed order of 10 in the words of Angel One. -/
def angelRow : Fields :=
  [("orderid", .str "a1"), ("orderstatus", .str "complete"), ("filledquantity", .int 10), ("quantity", .int 10)]

/-- A completed order of 10 in the words of Zerodha. -/
def kiteRow : Fields :=
  [("order_id", .str "kite-1"), ("status", .str "COMPLETE"), ("filled_quantity", .int 10), ("quantity", .int 10)]

def dataResponse (data : Value) : TransportResponse where
  statusCode := 200
  body := .dict [("data", data)]

theorem inBook_single {reader : RowReader} {brokerOrderId : String} {row : Fields}
    (h : reader.rowId row = some brokerOrderId) : InBook reader brokerOrderId row (dataResponse (.list [.dict row])) where
  ok := rfl
  id := h
  rows := by
    refine ⟨[.dict row], rfl, List.mem_cons_self, fun other hother _ => ?_⟩
    cases List.mem_singleton.mp hother
    rfl

/-- The entry of an order in a book. -/
def filledEntry (brokerOrderId : String) : BrokerOrderResponse where
  status := .filled
  clientOrderId := ""
  brokerOrderId := some brokerOrderId
  filledQuantity := 10
  timestamp := sampleNow

theorem orders_agree_iff_angelOne :
    BrokerName.angelOne.getOrders (fun _ => none) sampleNow .connected (dataResponse (.list [.dict angelRow])) =
      .ok [filledEntry "a1"] ∧
    ∀ entry ∈ [filledEntry "a1"], entry.brokerOrderId = some "a1" →
      ∃ r, BrokerName.angelOne.getOrder (fun _ => none) sampleNow .connected "a1"
        (dataResponse (.list [.dict angelRow])) = .ok r ∧ SameReport r entry := by
  have horders : BrokerName.angelOne.getOrders (fun _ => none) sampleNow .connected
      (dataResponse (.list [.dict angelRow])) = .ok [filledEntry "a1"] := rfl
  have hbook : InBook BrokerName.angelOne.rows "a1" angelRow (dataResponse (.list [.dict angelRow])) := inBook_single rfl
  have hsingle : Answers .angelOne angelRow (dataResponse (.list [.dict angelRow]))
      (dataResponse (.list [.dict angelRow])) := rfl
  exact ⟨horders, (orders_agree_iff hbook hsingle horders).mpr rfl⟩

/-- A completed order is acknowledged, with nothing filled. -/
theorem not_orders_agree : ¬ ∀ (broker : BrokerName) (decimal : String → Option Decimal) (now : DateTime)
    (state : ConnectionState) (brokerOrderId : String) (row : Fields) (single book : TransportResponse)
    (orders : List BrokerOrderResponse), InBook broker.rows brokerOrderId row book → Answers broker row single book →
    broker.getOrders decimal now state book = .ok orders → ∀ entry ∈ orders, entry.brokerOrderId = some brokerOrderId →
      ∃ r, broker.getOrder decimal now state brokerOrderId single = .ok r ∧ SameReport r entry := by
  intro h
  obtain ⟨r, hr, hstatus, -⟩ := h .zerodha (fun _ => none) sampleNow .connected "kite-1" kiteRow
    (dataResponse (.dict kiteRow)) (dataResponse (.list [.dict kiteRow])) [filledEntry "kite-1"] (inBook_single rfl)
    ⟨rfl, .inl rfl⟩ rfl (filledEntry "kite-1") List.mem_cons_self rfl
  cases hr
  cases hstatus

end AlphaAlgo.Broker
