import AlphaAlgo.Execution.Repository

/-!
# Cancellation — the order management's cancellation requests

`requestCancellation` is `OmsService.request_cancellation`: read the order, check its status, then append a
`CANCEL_REQUESTED` event and set the status.  Read and write are separate transactions: `cancellationEvent` is what
the call computes from the row it has read, `appendEvent` the write.
-/

namespace AlphaAlgo.Oms

open Execution

/-- What the order management raises: its own errors, and what passes through it. -/
inductive OmsError where
  | orderValidation (text : String)
  | orderNotFound (text : String)
  | intentConflict (text : String)
  | riskApproval (text : String)
  | tradingMode (text : String)
  | invalidStateTransition (text : String)
  | persistence (text : String)
  | order (err : OrderError)
  | db (err : DbError)
  | typeError
  | port
deriving DecidableEq, Repr

structure OrderResult where
  orderId : UUID
  clientOrderId : String
  orchestrationId : String
  status : OrderState
  duplicate : Bool := false
  created : Bool := false
  reason : String := ""
deriving DecidableEq, Repr

/-- `OrderRepository.find_by_id`. -/
def findById (db : OrderDb) (orderId : UUID) : Option Order := db.orders.get orderId

/-- The order row with a new status. -/
def withStatus (newStatus : OrderState) (o : Order) : Order := { o with status := newStatus }

theorem withStatus_id (newStatus : OrderState) (o : Order) : (withStatus newStatus o).id = o.id := rfl

/-- `OrderRepository.append_event`: the status is set whatever it is now. -/
def appendEvent (db : OrderDb) (orderId : UUID) (event : OrderEvent) (newStatus : OrderState) :
    Except DbError OrderDb :=
  match db.orders.get orderId with
  | none => .error (.keyError ("order not found: " ++ orderId.str))
  | some _ =>
    let row := { event with orderId := orderId }
    if !eventFits row then .error .dataError
    else match db.events.insert? row with
      | none => .error .integrityError
      | some events => .ok
          { orders := db.orders.modify orderId (withStatus newStatus) (withStatus_id newStatus)
            events := events }

/-- The statuses in which a cancellation may be requested. -/
def cancellable : List OrderState := [.submissionRequested, .brokerAcknowledged, .partiallyFilled]

/-- The event row of a cancellation request on the order that was read. -/
def cancelEvent (order : Order) (orderId : UUID) (now : DateTime) : OrderEvent where
  orderId := orderId
  sourceEventId := (orElse order.orderIdentityKey none).getD orderId.str ++ "-cancel"
  eventType := "CANCEL_REQUESTED"
  previousStatus := some order.status.value
  newStatus := OrderState.cancelRequested.value
  eventTimestamp := now
  reason := "cancellation requested"

/-- The checks on the order that was read. -/
def cancellationEvent (order : Option Order) (orderId : UUID) (now : DateTime) :
    Except OmsError (Order × OrderEvent) :=
  match order with
  | none => .error (.orderNotFound "order not found")
  | some o =>
    if o.status ∉ cancellable then
      .error (.invalidStateTransition ("cannot request cancellation from " ++ o.status.value))
    else .ok (o, cancelEvent o orderId now)

/-- The write and the result. -/
def persistCancellation (db : OrderDb) (orderId : UUID) (order : Order) (event : OrderEvent) :
    Except OmsError (OrderResult × OrderDb) :=
  match appendEvent db orderId event .cancelRequested with
  | .error _ => .error (.persistence "failed to persist cancellation")
  | .ok db' => .ok
      ({ orderId := orderId
         clientOrderId := order.clientOrderId
         orchestrationId := order.orchestrationId.getD ""
         status := .cancelRequested
         reason := "cancellation requested" }, db')

def requestCancellation (db : OrderDb) (orderId : UUID) (now : DateTime) :
    Except OmsError (OrderResult × OrderDb) := do
  let (order, event) ← cancellationEvent (findById db orderId) orderId now
  persistCancellation db orderId order event

/-- **Everything a committed lifecycle event does.** -/
theorem appendEvent_ok {db db' : OrderDb} {orderId : UUID} {event : OrderEvent} {newStatus : OrderState}
    (h : appendEvent db orderId event newStatus = .ok db') :
    ∃ o, db.orders.get orderId = some o ∧ db'.orders.get orderId = some (withStatus newStatus o) ∧
      (∀ k, k ≠ orderId → db'.orders.get k = db.orders.get k) ∧
      db.events.insert? { event with orderId := orderId } = some db'.events := by
  unfold appendEvent at h
  cases ho : db.orders.get orderId with
  | none => rw [ho] at h; cases h
  | some o =>
    rw [ho] at h
    simp only at h
    split_ifs at h
    cases hi : db.events.insert? { event with orderId := orderId } with
    | none => rw [hi] at h; cases h
    | some events =>
      rw [hi] at h
      cases h
      refine ⟨o, rfl, ?_, fun k hk => ?_, rfl⟩
      · rw [Table.get_modify_self, ho]; rfl
      · exact Table.get_modify_of_ne _ _ (withStatus_id newStatus) hk

/-- A cancellation is requested from a cancellable status of the row that was read. -/
theorem cancellationEvent_ok {order : Option Order} {orderId : UUID} {now : DateTime} {o : Order}
    {event : OrderEvent} (h : cancellationEvent order orderId now = .ok (o, event)) :
    order = some o ∧ o.status ∈ cancellable ∧ event = cancelEvent o orderId now := by
  unfold cancellationEvent at h
  cases order with
  | none => cases h
  | some o' =>
    simp only at h
    split_ifs at h with hs
    cases h
    exact ⟨rfl, hs, rfl⟩

/-- The table has the edge of a cancellation request. -/
theorem cancelRequested_mem {s : OrderState} (h : s ∈ cancellable) :
    OrderState.cancelRequested ∈ allowedTransitions s := by
  simp only [cancellable, List.mem_cons, List.not_mem_nil, or_false] at h
  rcases h with rfl | rfl | rfl <;> decide

theorem persistCancellation_ok {db db' : OrderDb} {orderId : UUID} {order : Order} {event : OrderEvent}
    {r : OrderResult} (h : persistCancellation db orderId order event = .ok (r, db')) :
    appendEvent db orderId event .cancelRequested = .ok db' := by
  unfold persistCancellation at h
  cases ha : appendEvent db orderId event .cancelRequested with
  | error err => rw [ha] at h; cases h
  | ok d => rw [ha] at h; cases h; rfl

end AlphaAlgo.Oms
