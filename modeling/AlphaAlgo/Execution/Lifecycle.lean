import AlphaAlgo.Base.Values

/-!
# Lifecycle — the order states and their transition table

`OrderState`, `allowedTransitions` and `OrderLifecycle.transitionTo` of the execution engine.  A lifecycle keeps
its transitions; the random event id and the metadata of a transition are read by nothing and left out.
-/

namespace AlphaAlgo.Execution

inductive OrderState where
  | intentCreated
  | internalOrderCreated
  | submissionRequested
  | brokerAcknowledged
  | partiallyFilled
  | filled
  | rejected
  | cancelRequested
  | cancelled
  | unknown
  | reconciliationRequired
deriving DecidableEq, Repr

open OrderState

def OrderState.value : OrderState → String
  | intentCreated => "INTENT_CREATED"
  | internalOrderCreated => "INTERNAL_ORDER_CREATED"
  | submissionRequested => "SUBMISSION_REQUESTED"
  | brokerAcknowledged => "BROKER_ACKNOWLEDGED"
  | partiallyFilled => "PARTIALLY_FILLED"
  | filled => "FILLED"
  | rejected => "REJECTED"
  | cancelRequested => "CANCEL_REQUESTED"
  | cancelled => "CANCELLED"
  | unknown => "UNKNOWN"
  | reconciliationRequired => "RECONCILIATION_REQUIRED"

def terminalOrderStates : List OrderState := [filled, rejected, cancelled]

def allowedTransitions : OrderState → List OrderState
  | intentCreated => [internalOrderCreated]
  | internalOrderCreated => [submissionRequested, rejected]
  | submissionRequested => [brokerAcknowledged, rejected, unknown, cancelRequested]
  | brokerAcknowledged => [partiallyFilled, filled, rejected, cancelRequested, unknown]
  | partiallyFilled => [partiallyFilled, filled, cancelRequested, unknown]
  | cancelRequested => [cancelled, partiallyFilled, filled, unknown]
  | unknown => [reconciliationRequired]
  | reconciliationRequired => [brokerAcknowledged, partiallyFilled, filled, rejected, cancelled]
  | filled => []
  | rejected => []
  | cancelled => []

/-- Nothing leaves a terminal state. -/
theorem allowedTransitions_of_terminal {s : OrderState} (h : s ∈ terminalOrderStates) :
    allowedTransitions s = [] := by
  simp only [terminalOrderStates, List.mem_cons, List.not_mem_nil, or_false] at h
  rcases h with rfl | rfl | rfl <;> rfl

/-- The exceptions of the pure order model, with their texts. -/
inductive OrderError where
  | invalidOrderTransition (text : String)
  | invalidOrderEvent (text : String)
  | valueError (text : String)
deriving DecidableEq, Repr

/-- The checks shared by transitions and broker events. -/
def requireStamp (occurredAt : DateTime) (reason : String) : Except OrderError Unit :=
  if !occurredAt.aware then .error (.valueError "occurred_at must be timezone-aware")
  else if blank reason then .error (.valueError "reason is required")
  else .ok ()

/-- One recorded transition. -/
structure OrderStateTransition where
  fromState : OrderState
  toState : OrderState
  occurredAt : DateTime
  reason : String
deriving DecidableEq, Repr

structure OrderLifecycle where
  orderId : UUID
  state : OrderState := intentCreated
  transitions : List OrderStateTransition := []
deriving DecidableEq, Repr

namespace OrderLifecycle

def transitionTo (l : OrderLifecycle) (toState : OrderState) (occurredAt : DateTime) (reason : String) :
    Except OrderError OrderLifecycle :=
  if toState ∉ allowedTransitions l.state then
    .error (.invalidOrderTransition ("cannot transition order " ++ l.orderId.str ++ " from " ++
      l.state.value ++ " to " ++ toState.value))
  else do
    requireStamp occurredAt reason
    return { l with
      state := toState
      transitions := l.transitions ++ [⟨l.state, toState, occurredAt, reason⟩] }

/-- What an accepted transition does. -/
theorem transitionTo_ok {l l' : OrderLifecycle} {toState : OrderState} {t : DateTime} {reason : String}
    (h : l.transitionTo toState t reason = .ok l') :
    toState ∈ allowedTransitions l.state ∧ l'.orderId = l.orderId ∧ l'.state = toState := by
  unfold transitionTo at h
  split_ifs at h with hmem
  cases hs : requireStamp t reason with
  | error err => rw [hs] at h; cases h
  | ok u =>
    rw [hs] at h
    cases h
    exact ⟨hmem, rfl, rfl⟩

/-- With a valid stamp the table alone decides. -/
theorem transitionTo_of_mem {l : OrderLifecycle} {toState : OrderState} {t : DateTime} {reason : String}
    (hmem : toState ∈ allowedTransitions l.state) (hs : requireStamp t reason = .ok ()) :
    l.transitionTo toState t reason = .ok { l with
      state := toState
      transitions := l.transitions ++ [⟨l.state, toState, t, reason⟩] } := by
  unfold transitionTo
  rw [if_neg (not_not.mpr hmem), hs]
  rfl

end OrderLifecycle

end AlphaAlgo.Execution
