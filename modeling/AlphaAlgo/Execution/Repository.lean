import AlphaAlgo.Lib.Table
import AlphaAlgo.Execution.Identity

/-!
# Repository — the orders and order events of the database

The columns of `orders` and `order_events` that the order management and the execution engine read or write, and
the execution repository's operations on them.  A write is one transaction: it returns the new database or fails
and changes nothing.  A commit is refused when a unique constraint (`source_event_id`, `broker_order_id`) or a
column's range is broken.

The event table is keyed by `source_event_id`: every writer sets it.
-/

namespace AlphaAlgo.Execution

/-! ### Tables -/

/-- A row of `orders`. -/
structure Order where
  id : UUID
  clientOrderId : String
  orchestrationId : Option String := none
  orderIdentityKey : Option String := none
  brokerOrderId : Option String := none
  correlationId : Option String := none
  strategyId : Option UUID := none
  strategyVersion : Option String := none
  strategyRunId : Option UUID := none
  riskApprovalId : Option String := none
  approvalExpiresAt : Option DateTime := none
  signalId : Option UUID := none
  instrumentId : UUID := ⟨0⟩
  brokerAccountId : UUID := ⟨0⟩
  tradingMode : String := "PAPER"
  side : String := "BUY"
  orderType : String := "MARKET"
  limitPrice : Option ℚ := none
  quantity : Int4
  status : OrderState
  filledQuantity : Option Int4 := none
  acknowledgedAt : Option DateTime := none
  filledAt : Option DateTime := none
  rejectedAt : Option DateTime := none
  canceledAt : Option DateTime := none
deriving DecidableEq

/-- A row of `order_events`. -/
structure OrderEvent where
  orderId : UUID
  sourceEventId : String
  eventType : String
  previousStatus : Option String
  newStatus : String
  brokerOrderId : Option String := none
  eventTimestamp : DateTime
  reason : String
  eventPayload : List (String × Scalar) := []
deriving DecidableEq

structure OrderDb where
  orders : Table Order UUID Order.id
  events : Table OrderEvent String OrderEvent.sourceEventId

/-- What a database operation raises. -/
inductive DbError where
  | keyError (text : String)
  | integrityError
  | dataError
  | operationalError
  | multipleResultsFound
  | order (err : OrderError)
deriving DecidableEq, Repr

/-- `order.filled_quantity or 0`. -/
def Order.filled (o : Order) : ℤ :=
  match o.filledQuantity with
  | some f => f.val
  | none => 0

/-! ### Reads -/

def hasEvent (db : OrderDb) (eventIdentity : String) : Bool := (db.events.get eventIdentity).isSome

/-- The stored content hash; rows written by the order management have none. -/
def getEventHash (db : OrderDb) (eventIdentity : String) : Option Scalar :=
  ((db.events.get eventIdentity).bind fun row => row.eventPayload.lookup "_content_hash").filter (· ≠ .none)

def loadExecutionState (db : OrderDb) (orderId : UUID) : Except DbError (Option OrderExecutionState) :=
  match db.orders.get orderId with
  | none => .ok none
  | some o =>
    match OrderExecutionState.make ⟨o.id, o.status, []⟩ o.quantity.val o.filled o.brokerOrderId with
    | .ok s => .ok (some s)
    | .error err => .error (.order err)

/-! ### The write of an event -/

def applyEventTimestamp (o : Order) (e : BrokerOrderEvent) : Order :=
  match e.eventType with
  | .brokerAcknowledged => { o with acknowledgedAt := some e.occurredAt }
  | .fill => { o with filledAt := some e.occurredAt }
  | .rejected => { o with rejectedAt := some e.occurredAt }
  | .cancelled => { o with canceledAt := some e.occurredAt }
  | _ => o

/-- The order row after an event: status, truncated filled quantity, broker order id and timestamp. -/
def savedOrder (e : BrokerOrderEvent) (newState : OrderExecutionState) (filled : Int4) (o : Order) : Order :=
  applyEventTimestamp
    { o with
      status := newState.status
      filledQuantity := some filled
      brokerOrderId := newState.brokerOrderId.or o.brokerOrderId } e

/-- The event row; `previous_status` is filled with the event type. -/
def savedEvent (orderId : UUID) (e : BrokerOrderEvent) (newState : OrderExecutionState)
    (eventIdentity : String) : OrderEvent where
  orderId := orderId
  sourceEventId := eventIdentity
  eventType := e.eventType.value
  previousStatus := some e.eventType.value
  newStatus := newState.status.value
  brokerOrderId := e.brokerOrderId
  eventTimestamp := e.occurredAt
  reason := e.reason
  eventPayload := e.metadata.filter (fun kv => kv.1 ≠ "_content_hash") ++
    [("_content_hash", .str (eventContentHash e.toEventFields))]

/-- Another order holds this broker order id. -/
def brokerOrderIdTaken (db : OrderDb) (orderId : UUID) (b : Option String) : Bool :=
  b.isSome && db.orders.rows.any fun o => o.id ≠ orderId && o.brokerOrderId = b

/-- The texts of the event row fit their columns. -/
def eventFits (row : OrderEvent) : Bool :=
  fits 150 row.sourceEventId && (row.brokerOrderId.all (fits 100))

theorem savedOrder_id (e : BrokerOrderEvent) (s : OrderExecutionState) (f : Int4) (o : Order) :
    (savedOrder e s f o).id = o.id := by
  unfold savedOrder applyEventTimestamp
  cases e.eventType <;> rfl

theorem savedOrder_status (e : BrokerOrderEvent) (s : OrderExecutionState) (f : Int4) (o : Order) :
    (savedOrder e s f o).status = s.status := by
  unfold savedOrder applyEventTimestamp
  cases e.eventType <;> rfl

theorem savedOrder_filled (e : BrokerOrderEvent) (s : OrderExecutionState) (f : Int4) (o : Order) :
    (savedOrder e s f o).filled = f.val := by
  unfold savedOrder applyEventTimestamp
  cases e.eventType <;> rfl

theorem savedOrder_quantity (e : BrokerOrderEvent) (s : OrderExecutionState) (f : Int4) (o : Order) :
    (savedOrder e s f o).quantity = o.quantity := by
  unfold savedOrder applyEventTimestamp
  cases e.eventType <;> rfl

def saveEvent (db : OrderDb) (orderId : UUID) (e : BrokerOrderEvent) (newState : OrderExecutionState)
    (eventIdentity : String) : Except DbError OrderDb :=
  match db.orders.get orderId with
  | none => .error (.keyError ("order not found: " ++ orderId.str))
  | some _ =>
    match Int4.of? (pyInt newState.filledQuantity) with
    | none => .error .dataError
    | some filled =>
      let row := savedEvent orderId e newState eventIdentity
      if !eventFits row || !newState.brokerOrderId.all (fits 100) then .error .dataError
      else if brokerOrderIdTaken db orderId newState.brokerOrderId then .error .integrityError
      else match db.events.insert? row with
        | none => .error .integrityError
        | some events => .ok
            { orders := db.orders.modify orderId (savedOrder e newState filled) (savedOrder_id e newState filled)
              events := events }

/-- **Everything a committed event does.** -/
theorem saveEvent_ok {db db' : OrderDb} {orderId : UUID} {e : BrokerOrderEvent} {s : OrderExecutionState}
    {ident : String} (h : saveEvent db orderId e s ident = .ok db') :
    ∃ o f, db.orders.get orderId = some o ∧ f.val = pyInt s.filledQuantity ∧
      db'.orders.get orderId = some (savedOrder e s f o) ∧
      (∀ k, k ≠ orderId → db'.orders.get k = db.orders.get k) ∧
      db.events.insert? (savedEvent orderId e s ident) = some db'.events := by
  unfold saveEvent at h
  cases ho : db.orders.get orderId with
  | none => rw [ho] at h; cases h
  | some o =>
    cases hf : Int4.of? (pyInt s.filledQuantity) with
    | none => rw [ho, hf] at h; cases h
    | some f =>
      rw [ho, hf] at h
      simp only at h
      split_ifs at h
      cases hi : db.events.insert? (savedEvent orderId e s ident) with
      | none => rw [hi] at h; cases h
      | some events =>
        rw [hi] at h
        cases h
        refine ⟨o, f, rfl, Int4.of?_eq_some hf, ?_, fun k hk => ?_, rfl⟩
        · rw [Table.get_modify_self, ho]; rfl
        · exact Table.get_modify_of_ne _ _ (savedOrder_id e s f) hk

/-- A loaded state is the row. -/
theorem loadExecutionState_some {db : OrderDb} {orderId : UUID} {s : OrderExecutionState}
    (h : loadExecutionState db orderId = .ok (some s)) :
    ∃ o, db.orders.get orderId = some o ∧ s.lifecycle.orderId = orderId ∧ s.status = o.status ∧
      s.orderQuantity = o.quantity.val ∧ s.filledQuantity = o.filled ∧ s.brokerOrderId = o.brokerOrderId := by
  unfold loadExecutionState at h
  cases ho : db.orders.get orderId with
  | none => rw [ho] at h; cases h
  | some o =>
    rw [ho] at h
    simp only at h
    cases hm : OrderExecutionState.make ⟨o.id, o.status, []⟩ o.quantity.val o.filled o.brokerOrderId with
    | error err => rw [hm] at h; cases h
    | ok s' =>
      rw [hm] at h
      cases h
      obtain ⟨h1, h2, h3, h4⟩ := OrderExecutionState.make_ok hm
      have hid : o.id = orderId := Table.key_of_get ho
      exact ⟨o, rfl, by rw [h1]; exact hid, by rw [OrderExecutionState.status, h1], h2, h3, h4⟩

end AlphaAlgo.Execution
