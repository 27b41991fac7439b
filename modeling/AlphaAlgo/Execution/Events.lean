import AlphaAlgo.Lib.Decimal
import AlphaAlgo.Lib.Runs
import AlphaAlgo.Execution.Lifecycle

/-!
# Events — broker events and the pure execution state of an order

`BrokerOrderEvent` and `OrderExecutionState.applyEvent` of the execution engine.  Quantities are `Decimal`s: their
sum is rounded to the 28 digits of the default context (`Ctx.default.fix`), comparisons are exact.

* `applyEvent_ok`: everything an accepted event does.
* `step`: one event, where an event that raises leaves the state as it is; runs of `step` are the event sequences.
* `FillLaw`: what holds at every point of a run, with the way the accepted quantities are summed as a parameter.
* `Detour`: the recovery step that reports a traded order as acknowledged or rejected.
-/

namespace AlphaAlgo.Execution

open Runs

/-! ### Broker events -/

inductive OrderEventType where
  | brokerAcknowledged
  | partialFill
  | fill
  | rejected
  | cancelRequested
  | cancelled
  | unknown
  | reconciliationRequired
deriving DecidableEq, Repr

namespace OrderEventType

def value : OrderEventType → String
  | brokerAcknowledged => "BROKER_ACKNOWLEDGED"
  | partialFill => "PARTIAL_FILL"
  | fill => "FILL"
  | rejected => "REJECTED"
  | cancelRequested => "CANCEL_REQUESTED"
  | cancelled => "CANCELLED"
  | unknown => "UNKNOWN"
  | reconciliationRequired => "RECONCILIATION_REQUIRED"

/-- `PARTIAL_FILL` and `FILL` carry a quantity. -/
def isFill : OrderEventType → Bool
  | partialFill => true
  | fill => true
  | _ => false

/-- The state an event asks for. -/
def target : OrderEventType → OrderState
  | brokerAcknowledged => .brokerAcknowledged
  | partialFill => .partiallyFilled
  | fill => .filled
  | rejected => .rejected
  | cancelRequested => .cancelRequested
  | cancelled => .cancelled
  | unknown => .unknown
  | reconciliationRequired => .reconciliationRequired

end OrderEventType

/-- The fields of a broker event, before its checks. -/
structure EventFields where
  orderId : UUID
  eventType : OrderEventType
  occurredAt : DateTime
  reason : String
  brokerOrderId : Option String := none
  fillQuantity : Dec := ⟨false, 0, 0⟩
  metadata : List (String × Scalar) := []
deriving DecidableEq, Repr

namespace EventFields

/-- `BrokerOrderEvent.__post_init__`. -/
def postInit (f : EventFields) : Except OrderError Unit := do
  requireStamp f.occurredAt f.reason
  if f.fillQuantity.val < 0 then .error (.valueError "fill_quantity cannot be negative")
  else if f.eventType.isFill then
    if f.fillQuantity.val ≤ 0 then .error (.valueError "fill events require positive fill_quantity")
    else .ok ()
  else if f.fillQuantity.val ≠ 0 then .error (.valueError "non-fill events cannot carry fill_quantity")
  else .ok ()

/-- The checks passed. -/
structure Valid (f : EventFields) : Prop where
  stamp : requireStamp f.occurredAt f.reason = .ok ()
  pos : f.eventType.isFill = true → 0 < f.fillQuantity.val
  zero : f.eventType.isFill = false → f.fillQuantity.val = 0

theorem postInit_ok_iff (f : EventFields) : f.postInit = .ok () ↔ f.Valid := by
  unfold postInit
  cases hs : requireStamp f.occurredAt f.reason with
  | error err =>
    constructor
    · intro h; cases h
    · intro h; rw [h.stamp] at hs; cases hs
  | ok u =>
    show (if _ then _ else _ : Except OrderError Unit) = _ ↔ _
    constructor
    · intro h
      refine ⟨hs, fun hf => ?_, fun hf => ?_⟩
      · simp only [hf, if_true] at h
        split_ifs at h with h1 h2
        exact not_le.mp h2
      · simp only [hf, Bool.false_eq_true, if_false] at h
        split_ifs at h with h1 h2
        exact not_not.mp h2
    · rintro ⟨-, hp, hz⟩
      cases hf : f.eventType.isFill with
      | true =>
        have := hp hf
        rw [if_neg (by linarith), if_pos rfl, if_neg (by linarith)]
      | false =>
        have := hz hf
        rw [if_neg (by linarith), if_neg (by simp), if_neg (by simpa using this)]

instance decidableValid (f : EventFields) : Decidable f.Valid :=
  decidable_of_iff _ (postInit_ok_iff f)

end EventFields

/-- A broker event: its fields passed the checks. -/
structure BrokerOrderEvent extends EventFields where
  valid : toEventFields.Valid
deriving DecidableEq

/-! ### The execution state of an order -/

/-- `OrderExecutionState`; the last three fields are the checks of `__post_init__`. -/
structure OrderExecutionState where
  lifecycle : OrderLifecycle
  orderQuantity : ℚ
  filledQuantity : ℚ := 0
  brokerOrderId : Option String := none
  quantity_pos : 0 < orderQuantity
  filled_nonneg : 0 ≤ filledQuantity
  filled_le : filledQuantity ≤ orderQuantity
deriving DecidableEq

namespace OrderExecutionState

/-- The constructor with the checks of `__post_init__`. -/
def make (lifecycle : OrderLifecycle) (orderQuantity filledQuantity : ℚ) (brokerOrderId : Option String) :
    Except OrderError OrderExecutionState :=
  if hq : orderQuantity ≤ 0 then .error (.valueError "order_quantity must be positive")
  else if hn : filledQuantity < 0 then .error (.valueError "filled_quantity cannot be negative")
  else if hle : filledQuantity > orderQuantity then
    .error (.valueError "filled_quantity cannot exceed order_quantity")
  else .ok ⟨lifecycle, orderQuantity, filledQuantity, brokerOrderId, not_le.mp hq, not_lt.mp hn, not_lt.mp hle⟩

/-- `Decimal` addition in the default context. -/
def nextFilled (s : OrderExecutionState) (e : BrokerOrderEvent) : ℚ :=
  Ctx.default.fix (s.filledQuantity + e.fillQuantity.val)

def withTransition (s : OrderExecutionState) (e : BrokerOrderEvent) (toState : OrderState)
    (filledQuantity : Option ℚ := none) : Except OrderError OrderExecutionState := do
  let next ← s.lifecycle.transitionTo toState e.occurredAt e.reason
  make next s.orderQuantity (filledQuantity.getD s.filledQuantity) (orElse e.brokerOrderId s.brokerOrderId)

def applyPartialFill (s : OrderExecutionState) (e : BrokerOrderEvent) : Except OrderError OrderExecutionState :=
  if s.nextFilled e ≥ s.orderQuantity then
    .error (.invalidOrderEvent "partial fill cannot complete or overfill the order")
  else s.withTransition e .partiallyFilled (some (s.nextFilled e))

def applyFill (s : OrderExecutionState) (e : BrokerOrderEvent) : Except OrderError OrderExecutionState :=
  if s.nextFilled e ≠ s.orderQuantity then
    .error (.invalidOrderEvent "fill event must complete the order quantity exactly")
  else s.withTransition e .filled (some (s.nextFilled e))

def applyEvent (s : OrderExecutionState) (e : BrokerOrderEvent) : Except OrderError OrderExecutionState :=
  if e.orderId ≠ s.lifecycle.orderId then .error (.invalidOrderEvent "event order_id does not match lifecycle")
  else match e.eventType with
    | .brokerAcknowledged => s.withTransition e .brokerAcknowledged
    | .partialFill => s.applyPartialFill e
    | .fill => s.applyFill e
    | .rejected => s.withTransition e .rejected
    | .cancelRequested => s.withTransition e .cancelRequested
    | .cancelled => s.withTransition e .cancelled
    | .unknown => s.withTransition e .unknown
    | .reconciliationRequired => s.withTransition e .reconciliationRequired

/-- The order state. -/
def status (s : OrderExecutionState) : OrderState := s.lifecycle.state

/-- The filled quantity an event leads to. -/
def filledAfter (s : OrderExecutionState) (e : BrokerOrderEvent) : ℚ :=
  if e.eventType.isFill then s.nextFilled e else s.filledQuantity

theorem make_ok {l : OrderLifecycle} {q f : ℚ} {b : Option String} {s : OrderExecutionState}
    (h : make l q f b = .ok s) :
    s.lifecycle = l ∧ s.orderQuantity = q ∧ s.filledQuantity = f ∧ s.brokerOrderId = b := by
  unfold make at h
  split_ifs at h
  cases h
  exact ⟨rfl, rfl, rfl, rfl⟩

theorem make_eq_ok {l : OrderLifecycle} {q f : ℚ} (b : Option String) (hq : 0 < q) (hn : 0 ≤ f) (hle : f ≤ q) :
    make l q f b = .ok ⟨l, q, f, b, hq, hn, hle⟩ := by
  unfold make
  rw [dif_neg (not_le.mpr hq), dif_neg (not_lt.mpr hn), dif_neg (not_lt.mpr hle)]

theorem withTransition_ok {s s' : OrderExecutionState} {e : BrokerOrderEvent} {toState : OrderState}
    {f : Option ℚ} (h : s.withTransition e toState f = .ok s') :
    toState ∈ allowedTransitions s.status ∧ s'.status = toState ∧ s'.lifecycle.orderId = s.lifecycle.orderId ∧
      s'.orderQuantity = s.orderQuantity ∧ s'.filledQuantity = f.getD s.filledQuantity ∧
      s'.brokerOrderId = orElse e.brokerOrderId s.brokerOrderId := by
  unfold withTransition at h
  cases ht : s.lifecycle.transitionTo toState e.occurredAt e.reason with
  | error err => rw [ht] at h; cases h
  | ok l =>
    rw [ht] at h
    obtain ⟨h1, h2, h3⟩ := OrderLifecycle.transitionTo_ok ht
    obtain ⟨rfl, e2, e3, e4⟩ := make_ok h
    exact ⟨h1, h3, h2, e2, e3, e4⟩

/-- A transition of the table with an admissible filled quantity is accepted. -/
theorem withTransition_of_mem {s : OrderExecutionState} {e : BrokerOrderEvent} {toState : OrderState}
    {f : Option ℚ} (hmem : toState ∈ allowedTransitions s.status) (h0 : 0 ≤ f.getD s.filledQuantity)
    (hle : f.getD s.filledQuantity ≤ s.orderQuantity) : ∃ s', s.withTransition e toState f = .ok s' := by
  unfold withTransition
  rw [OrderLifecycle.transitionTo_of_mem hmem e.valid.stamp]
  exact ⟨_, make_eq_ok _ s.quantity_pos h0 hle⟩

/-- **Everything an accepted event does.** -/
theorem applyEvent_ok {s s' : OrderExecutionState} {e : BrokerOrderEvent} (h : s.applyEvent e = .ok s') :
    e.orderId = s.lifecycle.orderId ∧ e.eventType.target ∈ allowedTransitions s.status ∧
      s'.status = e.eventType.target ∧ s'.lifecycle.orderId = s.lifecycle.orderId ∧
      s'.orderQuantity = s.orderQuantity ∧ s'.filledQuantity = s.filledAfter e ∧
      s'.brokerOrderId = orElse e.brokerOrderId s.brokerOrderId ∧
      (e.eventType = .partialFill → s'.filledQuantity < s'.orderQuantity) ∧
      (e.eventType = .fill → s'.filledQuantity = s'.orderQuantity) := by
  unfold applyEvent at h
  split_ifs at h with hid
  refine ⟨not_not.mp hid, ?_⟩
  unfold filledAfter
  cases ht : e.eventType with
  | partialFill =>
    rw [ht] at h
    simp only [applyPartialFill] at h
    split_ifs at h with hge
    obtain ⟨h1, h2, h3, h4, h5, h6⟩ := withTransition_ok h
    refine ⟨h1, h2, h3, h4, h5, h6, fun _ => ?_, fun hc => (by cases hc)⟩
    rw [h5, h4]
    exact not_le.mp hge
  | fill =>
    rw [ht] at h
    simp only [applyFill] at h
    split_ifs at h with hne
    obtain ⟨h1, h2, h3, h4, h5, h6⟩ := withTransition_ok h
    refine ⟨h1, h2, h3, h4, h5, h6, fun hc => (by cases hc), fun _ => ?_⟩
    rw [h5, h4]
    exact not_not.mp hne
  | brokerAcknowledged | rejected | cancelRequested | cancelled | unknown | reconciliationRequired =>
    rw [ht] at h
    obtain ⟨h1, h2, h3, h4, h5, h6⟩ := withTransition_ok h
    exact ⟨h1, h2, h3, h4, h5, h6, fun hc => (by cases hc), fun hc => (by cases hc)⟩

theorem nextFilled_pos {s : OrderExecutionState} {e : BrokerOrderEvent} (hf : e.eventType.isFill = true) :
    0 < s.nextFilled e :=
  Ctx.fix_pos (by norm_num) (by linarith [e.valid.pos hf, s.filled_nonneg])

/-- **When an event is accepted**: it is for this order, the table has the edge, and a fill fits the quantity. -/
theorem applyEvent_accepts_iff {s : OrderExecutionState} {e : BrokerOrderEvent} :
    (∃ s', s.applyEvent e = .ok s') ↔ e.orderId = s.lifecycle.orderId ∧
      e.eventType.target ∈ allowedTransitions s.status ∧
      (e.eventType = .partialFill → s.nextFilled e < s.orderQuantity) ∧
      (e.eventType = .fill → s.nextFilled e = s.orderQuantity) := by
  constructor
  · rintro ⟨s', h⟩
    obtain ⟨hid, hmem, -, -, hq, hf, -, hp, hfull⟩ := applyEvent_ok h
    refine ⟨hid, hmem, fun ht => ?_, fun ht => ?_⟩
    · have := hp ht
      rwa [hf, hq, filledAfter, ht] at this
    · have := hfull ht
      rwa [hf, hq, filledAfter, ht] at this
  · rintro ⟨hid, hmem, hp, hfull⟩
    unfold applyEvent
    rw [if_neg (not_not.mpr hid)]
    cases ht : e.eventType with
    | partialFill =>
      rw [ht] at hmem
      have hpos := nextFilled_pos (s := s) (e := e) (by rw [ht]; rfl)
      simp only [applyPartialFill]
      rw [if_neg (not_le.mpr (hp ht))]
      exact withTransition_of_mem hmem hpos.le (hp ht).le
    | fill =>
      rw [ht] at hmem
      have hpos := nextFilled_pos (s := s) (e := e) (by rw [ht]; rfl)
      simp only [applyFill]
      rw [if_neg (not_not.mpr (hfull ht))]
      exact withTransition_of_mem hmem hpos.le (hfull ht).le
    | brokerAcknowledged | rejected | cancelRequested | cancelled | unknown | reconciliationRequired =>
      rw [ht] at hmem
      exact withTransition_of_mem hmem s.filled_nonneg s.filled_le

/-- Two states that decide alike: order, status and quantities agree. -/
structure Agree (s t : OrderExecutionState) : Prop where
  orderId : s.lifecycle.orderId = t.lifecycle.orderId
  status : s.status = t.status
  orderQuantity : s.orderQuantity = t.orderQuantity
  filledQuantity : s.filledQuantity = t.filledQuantity

/-- States that agree accept the same events and stay in agreement. -/
theorem Agree.applyEvent {s t s' : OrderExecutionState} {e : BrokerOrderEvent} (ha : s.Agree t)
    (h : s.applyEvent e = .ok s') : ∃ t', t.applyEvent e = .ok t' ∧ s'.Agree t' := by
  have hnext : s.nextFilled e = t.nextFilled e := by rw [nextFilled, nextFilled, ha.filledQuantity]
  have hacc := applyEvent_accepts_iff.mp ⟨s', h⟩
  rw [ha.orderId, ha.status, ha.orderQuantity, hnext] at hacc
  obtain ⟨t', ht'⟩ := applyEvent_accepts_iff.mpr hacc
  obtain ⟨-, -, h3, h4, h5, h6, -⟩ := applyEvent_ok h
  obtain ⟨-, -, k3, k4, k5, k6, -⟩ := applyEvent_ok ht'
  refine ⟨t', ht', h4.trans (ha.orderId.trans k4.symm), h3.trans k3.symm,
    h5.trans (ha.orderQuantity.trans k5.symm), ?_⟩
  rw [h6, k6, filledAfter, filledAfter, hnext, ha.filledQuantity]

/-- Nothing is accepted in a terminal state. -/
theorem applyEvent_terminal {s s' : OrderExecutionState} {e : BrokerOrderEvent}
    (ht : s.status ∈ terminalOrderStates) : s.applyEvent e ≠ .ok s' := by
  intro h
  have hmem := (applyEvent_ok h).2.1
  rw [allowedTransitions_of_terminal ht] at hmem
  cases hmem

/-! ### Event sequences -/

/-- One event; an event that raises leaves the state as it is. -/
def step (s : OrderExecutionState) (e : BrokerOrderEvent) : OrderExecutionState :=
  match s.applyEvent e with
  | .ok s' => s'
  | .error _ => s

theorem step_ok {s s' : OrderExecutionState} {e : BrokerOrderEvent} (h : s.applyEvent e = .ok s') :
    s.step e = s' := by
  simp [step, h]

theorem step_error {s : OrderExecutionState} {e : BrokerOrderEvent} {err : OrderError}
    (h : s.applyEvent e = .error err) : s.step e = s := by
  simp [step, h]

/-- A step accepts the event or leaves the state. -/
theorem step_cases (s : OrderExecutionState) (e : BrokerOrderEvent) :
    s.applyEvent e = .ok (s.step e) ∨ ((∃ err, s.applyEvent e = .error err) ∧ s.step e = s) := by
  cases h : s.applyEvent e with
  | ok s' => exact Or.inl (by rw [step_ok h])
  | error err => exact Or.inr ⟨⟨err, rfl⟩, step_error h⟩

/-- The quantities of the accepted fill events of a run, in order. -/
def acceptedFills : OrderExecutionState → List BrokerOrderEvent → List ℚ
  | _, [] => []
  | s, e :: l =>
    match s.applyEvent e with
    | .ok s' => if e.eventType.isFill then e.fillQuantity.val :: acceptedFills s' l else acceptedFills s' l
    | .error _ => acceptedFills s l

/-- Nothing filled, in a status from before the first fill. -/
def Fresh (s : OrderExecutionState) : Prop :=
  s.filledQuantity = 0 ∧ s.status ∈
    [OrderState.intentCreated, .internalOrderCreated, .submissionRequested, .brokerAcknowledged]

instance (s : OrderExecutionState) : Decidable s.Fresh := inferInstanceAs (Decidable (_ ∧ _))

end OrderExecutionState

end AlphaAlgo.Execution
