import AlphaAlgo.Lib.GroupBy
import AlphaAlgo.Lib.Number
import AlphaAlgo.Lib.Sha1
import AlphaAlgo.Execution.Events
import AlphaAlgo.Paper.Costs

/-!
# Book — fill policy and order book of the paper broker

`decideFill` and `PaperOrderBook`: submissions are recorded by account and client order id, a repeated submission with
the same payload is answered from the record, a new one is rejected or filled at once.

The time is read from the injected clock; its reading is a parameter of `submit`.  The order id in the metadata of a
request and the price in the metadata of a fill travel as texts and are read back as the same values: here they are
the values.  The prices of a request may be infinite or a NaN; reference prices are finite.

* `submit_cases`: everything a submission does to the book.
-/

namespace AlphaAlgo.Paper

/-! ### Requests and reference prices -/

inductive TradingMode where
  | backtest
  | paper
  | live
deriving DecidableEq, Repr

def TradingMode.value : TradingMode → String
  | backtest => "BACKTEST"
  | paper => "PAPER"
  | live => "LIVE"

inductive OrderType where
  | market
  | limit
  | stop
  | stopLimit
deriving DecidableEq, Repr

def OrderType.value : OrderType → String
  | market => "MARKET"
  | limit => "LIMIT"
  | stop => "STOP"
  | stopLimit => "STOP_LIMIT"

/-- `metadata["order_id"]`: absent, no UUID, or the UUID that it denotes. -/
inductive OrderIdEntry where
  | missing
  | malformed
  | id (orderId : UUID)
deriving DecidableEq, Repr

structure BrokerOrderRequest where
  brokerAccountId : UUID
  instrumentId : UUID
  tradingMode : TradingMode
  clientOrderId : String
  side : OrderSide
  orderType : OrderType
  quantity : ℤ
  riskApprovalId : String
  limitPrice : Option Num := none
  stopPrice : Option Num := none
  orderIdEntry : OrderIdEntry := .missing
deriving DecidableEq

inductive BrokerOrderStatus where
  | accepted
  | rejected
deriving DecidableEq, Repr

structure BrokerOrderResponse where
  status : BrokerOrderStatus
  clientOrderId : String
  brokerOrderId : Option String
  acceptedAt : DateTime
  reason : Option String := none
deriving DecidableEq

/-- The last five fields are the checks of `__post_init__`. -/
structure PaperReferencePrice where
  instrumentId : UUID
  last : ℚ
  bid : Option ℚ := none
  ask : Option ℚ := none
  last_pos : 0 < last
  bid_pos : ∀ b, bid = some b → 0 < b
  ask_pos : ∀ a, ask = some a → 0 < a
  bid_le_ask : ∀ b a, bid = some b → ask = some a → b ≤ a
  last_within : ∀ b a, bid = some b → ask = some a → b ≤ last ∧ last ≤ a

/-- A text that is not blank. -/
abbrev Reason := { s : String // blank s = false }

/-- An instant that is timezone-aware. -/
abbrev Stamp := { t : DateTime // t.aware = true }

/-- What the paper runtime raises. -/
inductive PaperError where
  | adapter (text : String)
  | modeViolation (text : String)
  | clientOrderIdConflict (clientOrderId field : String)
  | unsupportedOrderType (text : Reason)
  | valueError (text : String)
  | invalidOperation
  | repository
deriving DecidableEq

/-- The reason of an acknowledgement. -/
def ackReason : Reason := ⟨"paper broker accepted order", by decide +kernel⟩

/-- The reason of a fill. -/
def fillReason : Reason := ⟨"paper simulator-confirmed fill", by decide +kernel⟩

/-- The reason of a rejection without a reference price. -/
def noReferenceReason : Reason := ⟨"no reference price available for instrument", by decide +kernel⟩

/-! ### Fill policy -/

/-- A decision: a price and the whole quantity, or the reason of a rejection. -/
inductive FillDecision where
  | fills (price : ℚ) (quantity : ℤ) (price_pos : 0 < price) (quantity_pos : 0 < quantity)
  | rejects (reason : Reason)

def fullQuantityDecision (request : BrokerOrderRequest) (price : ℚ) (h : 0 < price) :
    Except PaperError FillDecision :=
  if hq : 0 < request.quantity then .ok (.fills price request.quantity h hq)
  else .error (.valueError "fill decisions require a positive fill_quantity")

/-- The decision on a limit order against the leg of the quote that it needs; the comparison with a NaN raises. -/
def decideLimit (request : BrokerOrderRequest) (leg : Option ℚ) (hleg : ∀ q, leg = some q → 0 < q)
    (beyond : Num → ℚ → Except ArithError Bool) (noLeg notExecutable : Reason) : Except PaperError FillDecision :=
  match leg, hleg with
  | none, _ => .ok (.rejects noLeg)
  | some q, hleg =>
    match request.limitPrice with
    | none => .ok (.rejects notExecutable)
    | some l =>
      match beyond l q with
      | .error _ => .error .invalidOperation
      | .ok true => .ok (.rejects notExecutable)
      | .ok false => fullQuantityDecision request q (hleg q rfl)

def decideBuy (request : BrokerOrderRequest) (reference : PaperReferencePrice) : Except PaperError FillDecision :=
  match request.orderType with
  | .market => fullQuantityDecision request reference.last reference.last_pos
  | _ => decideLimit request reference.ask reference.ask_pos (fun l q => l.lt? (.fin q))
      ⟨"no executable quote: injected reference has no ask", by decide +kernel⟩
      ⟨"limit price not executable against injected ask", by decide +kernel⟩

def decideSell (request : BrokerOrderRequest) (reference : PaperReferencePrice) : Except PaperError FillDecision :=
  match request.orderType with
  | .market => fullQuantityDecision request reference.last reference.last_pos
  | _ => decideLimit request reference.bid reference.bid_pos (fun l q => (Num.fin q).lt? l)
      ⟨"no executable quote: injected reference has no bid", by decide +kernel⟩
      ⟨"limit price not executable against injected bid", by decide +kernel⟩

def decideFill (request : BrokerOrderRequest) (reference : PaperReferencePrice) : Except PaperError FillDecision :=
  match request.orderType, request.side with
  | .stop, _ => .error (.unsupportedOrderType
      ⟨"unsupported order type in paper mode: " ++ OrderType.stop.value, by decide +kernel⟩)
  | .stopLimit, _ => .error (.unsupportedOrderType
      ⟨"unsupported order type in paper mode: " ++ OrderType.stopLimit.value, by decide +kernel⟩)
  | _, .buy => decideBuy request reference
  | _, .sell => decideSell request reference

/-! ### Order ids -/

/-- The bytes of an identifier, the highest first. -/
def uuidBytes (u : UUID) : List ℕ := (List.range 16).map fun i => u.bits.toNat >>> (8 * (15 - i)) % 256

/-- `uuid5`: the first 128 bits of the digest, with the version and the variant put in. -/
def uuid5 (namespaceId : UUID) (name : String) : UUID :=
  let hash := sha1 (uuidBytes namespaceId ++ (name.toList.flatMap String.utf8EncodeChar).map UInt8.toNat)
  let bits : BitVec 128 := BitVec.ofNat 128 (hash >>> 32)
  let variant := (bits &&& ~~~((0xc000 : BitVec 128) <<< 48)) ||| ((0x8000 : BitVec 128) <<< 48)
  ⟨(variant &&& ~~~((0xf000 : BitVec 128) <<< 64)) ||| ((5 : BitVec 128) <<< 76)⟩

example : uuid5 ⟨0x6ba7b8109dad11d180b400c04fd430c8⟩ "python.org" = ⟨0x886313e13b8a53729b900c9aee199e5d⟩ := by
  decide +kernel

def orderIdNamespace : UUID := ⟨0x8f4e1a2b3c4d4e5f8a9b0c1d2e3f4a5b⟩

def paperOrderId (brokerAccountId : UUID) (clientOrderId : String) : UUID :=
  uuid5 orderIdNamespace (brokerAccountId.str ++ ":" ++ clientOrderId)

/-! ### The book -/

/-- A broker event of the simulator, with the entries of its metadata that are read. -/
structure PaperEvent where
  orderId : UUID
  eventType : Execution.OrderEventType
  occurredAt : Stamp
  reason : Reason
  brokerOrderId : Option String
  fillQuantity : ℤ := 0
  clientOrderId : String
  paperFillPrice : Option ℚ := none

/-- The last two fields are checks of `__post_init__`. -/
structure PaperFillRecord where
  sequence : ℕ
  clientOrderId : String
  brokerOrderId : String
  orderId : UUID
  side : OrderSide
  instrumentId : UUID
  brokerAccountId : UUID
  fillQuantity : ℤ
  fillPrice : ℚ
  occurredAt : Stamp
  quantity_pos : 0 < fillQuantity
  price_pos : 0 < fillPrice

structure PaperPosition where
  brokerAccountId : UUID
  instrumentId : UUID
  quantity : ℚ
  averagePrice : Option ℚ
  capturedAt : DateTime
deriving DecidableEq

structure SubmissionRecord where
  request : BrokerOrderRequest
  response : BrokerOrderResponse
  events : List PaperEvent

structure PaperOrderBook where
  submissions : List ((UUID × String) × SubmissionRecord) := []
  events : List PaperEvent := []
  fills : List PaperFillRecord := []
  pendingIndex : ℕ := 0
  sequence : ℕ := 0

namespace PaperOrderBook

/-- The submission recorded for an account and a client order id. -/
def recorded (book : PaperOrderBook) (brokerAccountId : UUID) (clientOrderId : String) : Option SubmissionRecord :=
  book.submissions.lookup (brokerAccountId, clientOrderId)

def resolveOrderId (request : BrokerOrderRequest) : Except PaperError UUID :=
  let expected := paperOrderId request.brokerAccountId request.clientOrderId
  match request.orderIdEntry with
  | .missing =>
    .error (.adapter "metadata['order_id'] is required (must equal the deterministic paper order id)")
  | .malformed => .error (.adapter "metadata['order_id'] must be a valid UUID string")
  | .id provided =>
    if provided ≠ expected then .error (.adapter ("metadata['order_id'] " ++ provided.str ++
      " does not match deterministic paper order id " ++ expected.str))
    else .ok expected

/-- Equality of two prices that may be absent; a NaN is not equal to itself. -/
def samePrice : Option Num → Option Num → Bool
  | none, none => true
  | some a, some b => a ≠ .nan && a = b
  | _, _ => false

/-- The first field of the payload in which two requests differ. -/
def firstDifference (prior request : BrokerOrderRequest) : Option String :=
  ([("broker_account_id", decide (prior.brokerAccountId = request.brokerAccountId)),
    ("instrument_id", decide (prior.instrumentId = request.instrumentId)),
    ("trading_mode", decide (prior.tradingMode = request.tradingMode)),
    ("side", decide (prior.side = request.side)),
    ("order_type", decide (prior.orderType = request.orderType)),
    ("quantity", decide (prior.quantity = request.quantity)),
    ("risk_approval_id", decide (prior.riskApprovalId = request.riskApprovalId)),
    ("limit_price", samePrice prior.limitPrice request.limitPrice),
    ("stop_price", samePrice prior.stopPrice request.stopPrice)].find? fun p => !p.2).map Prod.fst

def record (book : PaperOrderBook) (request : BrokerOrderRequest) (response : BrokerOrderResponse)
    (events : List PaperEvent) : PaperOrderBook :=
  { book with
    submissions := ((request.brokerAccountId, request.clientOrderId), ⟨request, response, events⟩) :: book.submissions
    events := book.events ++ events }

def reject (book : PaperOrderBook) (request : BrokerOrderRequest) (orderId : UUID) (now : Stamp) (reason : Reason) :
    PaperOrderBook × BrokerOrderResponse :=
  let event : PaperEvent :=
    { orderId := orderId, eventType := .rejected, occurredAt := now, reason := reason, brokerOrderId := none
      clientOrderId := request.clientOrderId }
  let response : BrokerOrderResponse :=
    { status := .rejected, clientOrderId := request.clientOrderId, brokerOrderId := none, acceptedAt := now
      reason := some reason }
  (book.record request response [event], response)

def acceptAndFill (book : PaperOrderBook) (request : BrokerOrderRequest) (orderId : UUID) (now : Stamp)
    (fillPrice : ℚ) (hp : 0 < fillPrice) (hq : 0 < request.quantity) : PaperOrderBook × BrokerOrderResponse :=
  let brokerOrderId := "paper-" ++ String.ofList orderId.hex
  let ack : PaperEvent :=
    { orderId := orderId, eventType := .brokerAcknowledged, occurredAt := now
      reason := ackReason, brokerOrderId := some brokerOrderId
      clientOrderId := request.clientOrderId }
  let fill : PaperEvent :=
    { orderId := orderId, eventType := .fill, occurredAt := now
      reason := fillReason, brokerOrderId := some brokerOrderId
      fillQuantity := request.quantity, clientOrderId := request.clientOrderId, paperFillPrice := some fillPrice }
  let fillRecord : PaperFillRecord :=
    { sequence := book.sequence, clientOrderId := request.clientOrderId, brokerOrderId := brokerOrderId
      orderId := orderId, side := request.side, instrumentId := request.instrumentId
      brokerAccountId := request.brokerAccountId, fillQuantity := request.quantity, fillPrice := fillPrice
      occurredAt := now, quantity_pos := hq, price_pos := hp }
  let response : BrokerOrderResponse :=
    { status := .accepted, clientOrderId := request.clientOrderId, brokerOrderId := some brokerOrderId
      acceptedAt := now }
  ({ book with sequence := book.sequence + 1, fills := book.fills ++ [fillRecord] }.record request response [ack, fill],
    response)

/-- A new submission, at the reading `now` of the clock. -/
def submitNew (book : PaperOrderBook) (request : BrokerOrderRequest) (orderId : UUID)
    (reference : Option PaperReferencePrice) (now : Stamp) (hq : 0 < request.quantity) :
    Except PaperError (PaperOrderBook × BrokerOrderResponse) :=
  match reference with
  | none => .ok (book.reject request orderId now noReferenceReason)
  | some reference =>
    if reference.instrumentId ≠ request.instrumentId then
      .error (.adapter "injected reference price does not match request instrument")
    else match decideFill request reference with
      | .error (.unsupportedOrderType text) => .ok (book.reject request orderId now text)
      | .error err => .error err
      | .ok (.rejects reason) => .ok (book.reject request orderId now reason)
      | .ok (.fills price _ hp _) => .ok (book.acceptAndFill request orderId now price hp hq)

/-- A submission whose order id is checked: answered from the record, or new. -/
def submitResolved (book : PaperOrderBook) (request : BrokerOrderRequest) (orderId : UUID)
    (reference : Option PaperReferencePrice) (now : DateTime) (hq : 0 < request.quantity) :
    Except PaperError (PaperOrderBook × BrokerOrderResponse) :=
  match book.recorded request.brokerAccountId request.clientOrderId with
  | some r =>
    match firstDifference r.request request with
    | some field => .error (.clientOrderIdConflict request.clientOrderId field)
    | none => .ok (book, r.response)
  | none =>
    if ha : now.aware = true then book.submitNew request orderId reference ⟨now, ha⟩ hq
    else .error (.adapter "clock output must be timezone-aware")

/-- `PaperOrderBook.submit`; a submission that raises leaves the book as it is. -/
def submit (book : PaperOrderBook) (request : BrokerOrderRequest) (reference : Option PaperReferencePrice)
    (now : DateTime) : Except PaperError (PaperOrderBook × BrokerOrderResponse) :=
  if request.tradingMode ≠ .paper then .error (.modeViolation
    ("paper book accepts only TradingMode.PAPER orders, got " ++ request.tradingMode.value))
  else if blank request.clientOrderId then .error (.adapter "client_order_id is required")
  else if hq : request.quantity ≤ 0 then .error (.adapter "quantity must be positive")
  else match resolveOrderId request with
    | .error err => .error err
    | .ok orderId => book.submitResolved request orderId reference now (not_le.mp hq)

/-- The events since the last call, and the book without them pending. -/
def pendingEvents (book : PaperOrderBook) : List PaperEvent × PaperOrderBook :=
  (book.events.drop book.pendingIndex, { book with pendingIndex := book.events.length })

/-! ### What a submission does -/

/-- **Everything an answered submission does to the book**: it is answered from the record, rejected, or filled. -/
inductive Submitted (book : PaperOrderBook) (request : BrokerOrderRequest) (reference : Option PaperReferencePrice)
    (now : DateTime) : PaperOrderBook × BrokerOrderResponse → Prop
  | replayed {r : SubmissionRecord} (hr : book.recorded request.brokerAccountId request.clientOrderId = some r)
      (hd : firstDifference r.request request = none) : Submitted book request reference now (book, r.response)
  | rejected {stamp : Stamp} {reason : Reason}
      (hr : book.recorded request.brokerAccountId request.clientOrderId = none)
      (hb : blank request.clientOrderId = false) :
      Submitted book request reference now
        (book.reject request (paperOrderId request.brokerAccountId request.clientOrderId) stamp reason)
  | filled {stamp : Stamp} {ref : PaperReferencePrice} {price : ℚ} {quantity : ℤ} {hp : 0 < price}
      {hd : 0 < quantity} {hq : 0 < request.quantity}
      (hr : book.recorded request.brokerAccountId request.clientOrderId = none)
      (hb : blank request.clientOrderId = false) (ha : now.aware = true) (href : reference = some ref)
      (hi : ref.instrumentId = request.instrumentId) (hf : decideFill request ref = .ok (.fills price quantity hp hd)) :
      Submitted book request reference now
        (book.acceptAndFill request (paperOrderId request.brokerAccountId request.clientOrderId) stamp price hp hq)

theorem resolveOrderId_ok {request : BrokerOrderRequest} {orderId : UUID}
    (h : resolveOrderId request = .ok orderId) :
    orderId = paperOrderId request.brokerAccountId request.clientOrderId := by
  unfold resolveOrderId at h
  cases he : request.orderIdEntry with
  | missing => rw [he] at h; cases h
  | malformed => rw [he] at h; cases h
  | id provided =>
    rw [he] at h
    simp only at h
    split_ifs at h
    cases h
    rfl

theorem submit_cases {book : PaperOrderBook} {request : BrokerOrderRequest} {reference : Option PaperReferencePrice}
    {now : DateTime} {x : PaperOrderBook × BrokerOrderResponse} (h : book.submit request reference now = .ok x) :
    Submitted book request reference now x := by
  unfold submit at h
  split_ifs at h with hm hb hq
  have hid : blank request.clientOrderId = false := Bool.eq_false_of_not_eq_true hb
  cases ho : resolveOrderId request with
  | error err => rw [ho] at h; cases h
  | ok orderId =>
    obtain rfl := resolveOrderId_ok ho
    rw [ho] at h
    simp only [submitResolved] at h
    cases hr : book.recorded request.brokerAccountId request.clientOrderId with
    | some r =>
      rw [hr] at h
      simp only at h
      cases hd : firstDifference r.request request with
      | some field => rw [hd] at h; cases h
      | none => rw [hd] at h; cases h; exact .replayed hr hd
    | none =>
      rw [hr] at h
      simp only at h
      split_ifs at h with ha
      unfold submitNew at h
      cases reference with
      | none => cases h; exact .rejected hr hid
      | some ref =>
        simp only at h
        split_ifs at h with hi
        cases hf : decideFill request ref with
        | error err =>
          rw [hf] at h
          cases err <;> cases h
          exact .rejected hr hid
        | ok d =>
          rw [hf] at h
          cases d with
          | rejects reason => cases h; exact .rejected hr hid
          | fills price quantity hp hd =>
            cases h
            exact .filled hr hid ha rfl (not_not.mp hi) hf

theorem resolveOrderId_of_eq {request : BrokerOrderRequest}
    (ho : request.orderIdEntry = .id (paperOrderId request.brokerAccountId request.clientOrderId)) :
    resolveOrderId request = .ok (paperOrderId request.brokerAccountId request.clientOrderId) := by
  simp only [resolveOrderId, ho, ne_eq, not_true_eq_false, if_false]

/-- A recorded submission with the same payload is answered from the record. -/
theorem submit_replay {book : PaperOrderBook} {request : BrokerOrderRequest} {r : SubmissionRecord}
    (hm : request.tradingMode = .paper) (hb : blank request.clientOrderId = false) (hq : 0 < request.quantity)
    (ho : request.orderIdEntry = .id (paperOrderId request.brokerAccountId request.clientOrderId))
    (hr : book.recorded request.brokerAccountId request.clientOrderId = some r)
    (hd : firstDifference r.request request = none) (reference : Option PaperReferencePrice) (now : DateTime) :
    book.submit request reference now = .ok (book, r.response) := by
  unfold submit
  rw [if_neg (not_not.mpr hm), if_neg (by rw [hb]; decide), dif_neg (not_le.mpr hq), resolveOrderId_of_eq ho]
  simp only [submitResolved, hr, hd]

/-- A new submission that the fill policy fills. -/
theorem submit_fill {book : PaperOrderBook} {request : BrokerOrderRequest} {ref : PaperReferencePrice} {price : ℚ}
    {quantity : ℤ} {hp : 0 < price} {hd : 0 < quantity} {now : DateTime} (hm : request.tradingMode = .paper)
    (hb : blank request.clientOrderId = false) (hq : 0 < request.quantity)
    (ho : request.orderIdEntry = .id (paperOrderId request.brokerAccountId request.clientOrderId))
    (hr : book.recorded request.brokerAccountId request.clientOrderId = none) (ha : now.aware = true)
    (hi : ref.instrumentId = request.instrumentId) (hf : decideFill request ref = .ok (.fills price quantity hp hd)) :
    book.submit request (some ref) now = .ok (book.acceptAndFill request
      (paperOrderId request.brokerAccountId request.clientOrderId) ⟨now, ha⟩ price hp hq) := by
  unfold submit
  rw [if_neg (not_not.mpr hm), if_neg (by rw [hb]; decide), dif_neg (not_le.mpr hq), resolveOrderId_of_eq ho]
  simp only [submitResolved, submitNew, hr, ha, hi, hf, dif_pos, ne_eq, not_true_eq_false, if_false]

/-! ### Pending events -/

/-- No event is pending. -/
def Drained (book : PaperOrderBook) : Prop := book.pendingIndex = book.events.length

/-- The book without pending events. -/
def drain (book : PaperOrderBook) : PaperOrderBook := { book with pendingIndex := book.events.length }

theorem Drained.drain {book : PaperOrderBook} (h : book.Drained) : book.drain = book := by
  unfold PaperOrderBook.drain
  rw [← h]

theorem Drained.drop_events {book : PaperOrderBook} (h : book.Drained) : book.events.drop book.pendingIndex = [] := by
  rw [h, List.drop_length]

theorem Drained.drop_append {book : PaperOrderBook} (h : book.Drained) (l : List PaperEvent) :
    (book.events ++ l).drop book.pendingIndex = l := by
  rw [h, List.drop_left]

/-! ### Positions -/

/-- A sum of decimals, rounded at every step. -/
def sumFixed (l : List ℚ) : ℚ := l.foldl (fun a x => Ctx.default.fix (a + x)) 0

def signedQuantity (f : PaperFillRecord) : ℚ :=
  match f.side with
  | .buy => f.fillQuantity
  | .sell => Ctx.default.fix (-f.fillQuantity)

/-- The position of the fills of one instrument; a flat one is not reported. -/
def positionOf (brokerAccountId : UUID) (capturedAt : DateTime) (group : UUID × List PaperFillRecord) :
    Except PaperError (Option PaperPosition) :=
  let totalQuantity := sumFixed (group.2.map fun f => f.fillQuantity)
  let signed := sumFixed (group.2.map signedQuantity)
  if signed = 0 then .ok none
  else if totalQuantity > 0 then
    let totalCost := sumFixed (group.2.map fun f => Ctx.default.fix (f.fillPrice * f.fillQuantity))
    match Ctx.default.quantize? (-8) (Ctx.default.fix (totalCost / totalQuantity)) with
    | none => .error .invalidOperation
    | some averagePrice =>
      if averagePrice ≤ 0 then .error (.valueError "average_price must be positive when present")
      else .ok (some ⟨brokerAccountId, group.1, signed, some averagePrice, capturedAt⟩)
  else .ok (some ⟨brokerAccountId, group.1, signed, none, capturedAt⟩)

/-- The positions of an account, by instrument, at the reading `now` of the clock. -/
def positions (book : PaperOrderBook) (brokerAccountId : UUID) (now : DateTime) :
    Except PaperError (List PaperPosition) :=
  if !now.aware then .error (.adapter "clock output must be timezone-aware")
  else
    let grouped := groupBy (fun f : PaperFillRecord => some f.instrumentId)
      (book.fills.filter fun f => f.brokerAccountId = brokerAccountId)
    let sorted := grouped.mergeSort fun a b => a.1.bits.toNat ≤ b.1.bits.toNat
    (sorted.mapM (positionOf brokerAccountId now)).map List.reduceOption

end PaperOrderBook

end AlphaAlgo.Paper
