import AlphaAlgo.Execution.Engine

/-!
# Submission — dispatch of orders to a broker adapter

`ExecutionEngine.submit` and `cancel` over the SQL repository.  An attempt is stored before the adapter is called;
a transient failure starts the next attempt, every other reply is concluded: an event is applied to the order where
the reply calls for one (its failures are swallowed), the attempt is updated and the outcome returned.

The adapter is a parameter: its reply to each attempt, and what other actors have done to the orders by the time the
reply is there.

* `updateAttempt` selects the attempt by its execution id alone.
* `executionIdFromAttemptId_compute`: the id that it is given by.
-/

namespace AlphaAlgo.Execution

/-! ### Requests, replies and attempts -/

inductive ExecutionSubmissionState where
  | submissionRequested
  | submissionInProgress
  | submitted
  | acknowledged
  | timeout
  | rejected
  | unknown
  | cancelled
deriving DecidableEq, Repr

inductive FailureClass where
  | validationFailure
  | authFailure
  | transientFailure
  | timeout
  | providerRejection
  | unknownExternalState
  | internalFailure
deriving DecidableEq, Repr

/-- `ExecutionRequest`: the fields that the engine reads or checks; the last four are the checks of
`__post_init__`. -/
structure ExecutionRequest where
  orderId : UUID
  clientOrderId : String
  executionId : String
  quantity : ℤ
  tradingMode : String
  riskApprovalId : String
  approvalExpiresAt : DateTime
  approval_aware : approvalExpiresAt.aware = true
  quantity_pos : 0 < quantity
  client_set : blank clientOrderId = false
  execution_set : blank executionId = false

/-- `ExecutionResponse`, with the check of `__post_init__`. -/
structure ExecutionResponse where
  status : ExecutionSubmissionState
  reason : String
  occurredAt : DateTime
  brokerOrderId : Option String := none
  aware : occurredAt.aware = true
deriving DecidableEq

/-- What a call of the adapter comes to: a response, one of the engine's errors, or another exception. -/
inductive Reply where
  | response (r : ExecutionResponse)
  | transient (text : String)
  | timeout (text : String)
  | error (failureClass : FailureClass) (text : String)
  | other
deriving DecidableEq

/-- A row of `execution_attempts`. -/
structure AttemptRow where
  executionId : String
  attemptNumber : ℕ
  orderId : UUID
  state : ExecutionSubmissionState
  brokerOrderId : Option String
  submittedAt : Option DateTime
  respondedAt : Option DateTime
  reason : Option String
deriving DecidableEq

/-- The unique constraint of `execution_attempts`. -/
def AttemptRow.key (r : AttemptRow) : String × ℕ := (r.executionId, r.attemptNumber)

structure ExecutionAttempt where
  attemptId : String
  executionId : String
  orderId : UUID
  attemptNumber : ℕ
  state : ExecutionSubmissionState
  brokerOrderId : Option String := none
  submittedAt : Option DateTime := none
  respondedAt : Option DateTime := none
  reason : String := ""
deriving DecidableEq

/-- Orders, their events and the attempts to submit them. -/
structure ExecDb extends OrderDb where
  attempts : Table AttemptRow (String × ℕ) AttemptRow.key

/-! ### Attempt identity -/

def computeAttemptId (executionId : String) (attemptNumber : ℕ) : String :=
  executionId ++ "-a" ++ toString attemptNumber

/-- What stands before the last `-a` of a text, the text given from its end. -/
def beforeLast : List Char → Option (List Char)
  | 'a' :: '-' :: l => some l
  | _ :: l => beforeLast l
  | [] => none

/-- `attempt_id.rsplit("-a", 1)[0]`. -/
def executionIdFromAttemptId (attemptId : String) : String :=
  match beforeLast attemptId.toList.reverse with
  | some l => String.ofList l.reverse
  | none => attemptId

theorem beforeLast_append : ∀ (d l : List Char), (∀ c ∈ d, c ≠ 'a') → beforeLast (d ++ 'a' :: '-' :: l) = some l
  | [], _, _ => rfl
  | c :: d, l, h => by
    have hc : c ≠ 'a' := h c List.mem_cons_self
    have ih := beforeLast_append d l fun e he => h e (List.mem_cons_of_mem _ he)
    rw [List.cons_append]
    unfold beforeLast
    split
    · rename_i heq
      exact absurd (List.cons.inj heq).1 hc
    · rename_i heq
      rw [← (List.cons.inj heq).2]
      exact ih
    · rename_i heq
      cases heq

/-- The execution id is recovered, whatever it contains. -/
theorem executionIdFromAttemptId_compute (executionId : String) (n : ℕ) :
    executionIdFromAttemptId (computeAttemptId executionId n) = executionId := by
  have hdig : ∀ c ∈ (toString n).toList.reverse, c ≠ 'a' := by
    intro c hc
    rintro rfl
    exact absurd (isDigit_of_mem_repr (List.mem_reverse.mp hc)) (by decide)
  have hrev : (computeAttemptId executionId n).toList.reverse =
      (toString n).toList.reverse ++ 'a' :: '-' :: executionId.toList.reverse := by
    simp [computeAttemptId]
  unfold executionIdFromAttemptId
  rw [hrev, beforeLast_append _ _ hdig]
  simp

/-! ### The repository -/

def toOrmAttempt (a : ExecutionAttempt) : AttemptRow where
  executionId := a.executionId
  attemptNumber := a.attemptNumber
  orderId := a.orderId
  state := a.state
  brokerOrderId := a.brokerOrderId
  submittedAt := a.submittedAt
  respondedAt := a.respondedAt
  reason := some a.reason

def fromOrmAttempt (r : AttemptRow) : ExecutionAttempt where
  attemptId := computeAttemptId r.executionId r.attemptNumber
  executionId := r.executionId
  orderId := r.orderId
  attemptNumber := r.attemptNumber
  state := r.state
  brokerOrderId := r.brokerOrderId
  submittedAt := r.submittedAt
  respondedAt := r.respondedAt
  reason := r.reason.getD ""

def findAttempt (db : ExecDb) (executionId : String) (attemptNumber : ℕ) : Option ExecutionAttempt :=
  (db.attempts.get (executionId, attemptNumber)).map fromOrmAttempt

/-- The columns take the attempt. -/
def attemptFits (r : AttemptRow) : Bool :=
  fits 64 r.executionId && r.brokerOrderId.all (fits 100) && r.attemptNumber ≤ 2147483647

/-- The insertion of an attempt; its order must be stored. -/
def saveAttempt (db : ExecDb) (a : ExecutionAttempt) : Except DbError ExecDb :=
  if !attemptFits (toOrmAttempt a) then .error .dataError
  else if (db.orders.get a.orderId).isNone then .error .integrityError
  else match db.attempts.insert? (toOrmAttempt a) with
    | none => .error .integrityError
    | some attempts => .ok { db with attempts := attempts }

/-- The columns that `update_attempt` sets; `None` leaves the broker order id. -/
def respondedRow (state : ExecutionSubmissionState) (brokerOrderId : Option String) (respondedAt : DateTime)
    (reason : String) (r : AttemptRow) : AttemptRow :=
  { r with
    state := state
    brokerOrderId := brokerOrderId.or r.brokerOrderId
    respondedAt := some respondedAt
    reason := some reason }

theorem respondedRow_key (state : ExecutionSubmissionState) (b : Option String) (t : DateTime) (reason : String)
    (r : AttemptRow) : (respondedRow state b t reason r).key = r.key := rfl

/-- The attempts of an execution. -/
def attemptsOf (db : ExecDb) (executionId : String) : List AttemptRow :=
  db.attempts.rows.filter fun r => r.executionId = executionId

/-- `update_attempt`: `scalar_one_or_none` over the attempts of the execution, whatever their number. -/
def updateAttempt (db : ExecDb) (attemptId : String) (state : ExecutionSubmissionState)
    (brokerOrderId : Option String) (respondedAt : DateTime) (reason : String) : Except DbError ExecDb :=
  match attemptsOf db (executionIdFromAttemptId attemptId) with
  | [] => .ok db
  | [r] =>
    if !brokerOrderId.all (fits 100) then .error .dataError
    else .ok
      { db with
        attempts := db.attempts.modify r.key (respondedRow state brokerOrderId respondedAt reason)
          (respondedRow_key state brokerOrderId respondedAt reason) }
  | _ :: _ :: _ => .error .multipleResultsFound

/-! ### The engine -/

/-- What an engine has and gets from outside: the halt flag, the number of retries and its readings of the clock. -/
structure EngineEnv where
  globalHaltActive : Bool := false
  maxRetries : ℕ := 0
  supportsCancellation : Bool := true
  validatedAt : DateTime
  submittedAt : ℕ → DateTime
  timedOutAt : DateTime
  respondedAt : DateTime

/-- The adapter: its reply to each attempt, and the orders as other actors have left them by then. -/
structure Adapter where
  reply : ℕ → Reply
  meanwhile : ℕ → OrderDb → OrderDb := fun _ d => d

structure ExecutionOutcome where
  orderId : UUID
  executionId : String
  attemptId : String
  submissionState : ExecutionSubmissionState
  orderState : Option OrderState
  brokerOrderId : Option String
  reason : String
  duplicate : Bool := false
deriving DecidableEq

def validateRequest (env : EngineEnv) (req : ExecutionRequest) : Except ExecutionError Unit :=
  if upper req.tradingMode = "LIVE" then .error (.validation "LIVE trading is disabled (fail-closed)")
  else if upper req.tradingMode ∉ allowedModes then
    .error (.validation ("unknown trading mode: " ++ req.tradingMode))
  else if env.globalHaltActive then .error (.validation "global trading halt is active; submission refused")
  else match req.approvalExpiresAt.le? env.validatedAt with
    | none => .error .typeError
    | some true => .error (.validation "risk approval is expired")
    | some false =>
      if blank req.riskApprovalId then .error (.validation "risk approval id is missing") else .ok ()

def newAttempt (env : EngineEnv) (req : ExecutionRequest) (attemptNumber : ℕ) : ExecutionAttempt where
  attemptId := computeAttemptId req.executionId attemptNumber
  executionId := req.executionId
  orderId := req.orderId
  attemptNumber := attemptNumber
  state := .submissionInProgress
  submittedAt := some (env.submittedAt attemptNumber)

/-- `_outcome` of a stored attempt. -/
def duplicateOutcome (a : ExecutionAttempt) (req : ExecutionRequest) : ExecutionOutcome where
  orderId := req.orderId
  executionId := req.executionId
  attemptId := a.attemptId
  submissionState := a.state
  orderState := none
  brokerOrderId := a.brokerOrderId
  reason := a.reason
  duplicate := true

/-- What a reply is concluded with: an event on the order, the attempt's last state, and the order state that is
reported. -/
structure Conclusion where
  event : Option EventFields := none
  state : ExecutionSubmissionState
  brokerOrderId : Option String := none
  reason : String
  orderState : Option OrderState := none
deriving DecidableEq

/-- The event of a response. -/
def responseEvent (orderId : UUID) (eventType : OrderEventType) (r : ExecutionResponse) : EventFields where
  orderId := orderId
  eventType := eventType
  occurredAt := r.occurredAt
  reason := r.reason
  brokerOrderId := r.brokerOrderId

/-- `_process_response`. -/
def processResponse (orderId : UUID) (r : ExecutionResponse) : Conclusion :=
  match r.status with
  | .acknowledged =>
    ⟨some (responseEvent orderId .brokerAcknowledged r), .acknowledged, r.brokerOrderId, r.reason,
      some .brokerAcknowledged⟩
  | .submitted => ⟨none, .submitted, r.brokerOrderId, r.reason, some .submissionRequested⟩
  | .rejected => ⟨some (responseEvent orderId .rejected r), .rejected, r.brokerOrderId, r.reason, some .rejected⟩
  | .timeout => ⟨some (responseEvent orderId .unknown r), .timeout, r.brokerOrderId, r.reason, some .unknown⟩
  | .unknown => ⟨some (responseEvent orderId .unknown r), .unknown, r.brokerOrderId, r.reason, some .unknown⟩
  | _ => ⟨none, .unknown, r.brokerOrderId, r.reason, some .unknown⟩

/-- The reply to the last attempt; another exception than the engine's own passes through. -/
def concludeReply (env : EngineEnv) (req : ExecutionRequest) : Reply → Option Conclusion
  | .response r => some (processResponse req.orderId r)
  | .transient text => some ⟨none, .rejected, none, text, none⟩
  | .timeout text => some
      ⟨some { orderId := req.orderId, eventType := .unknown, occurredAt := env.timedOutAt, reason := text }, .timeout,
        none, text, some .unknown⟩
  | .error .unknownExternalState text => some ⟨none, .unknown, none, text, none⟩
  | .error _ text => some ⟨none, .rejected, none, text, none⟩
  | .other => none

/-- The constructor of `BrokerOrderEvent`. -/
def makeEvent (f : EventFields) : Except ExecutionError BrokerOrderEvent :=
  match h : f.postInit with
  | .ok () => .ok ⟨f, (EventFields.postInit_ok_iff f).mp h⟩
  | .error err => .error (.order err)

/-- `_apply_order_event` on an event that may be absent; the constructor raises, the application does not. -/
def applyOrderEvent (orders : OrderDb) : Option EventFields → Except ExecutionError OrderDb
  | none => .ok orders
  | some f =>
    match makeEvent f with
    | .error err => .error err
    | .ok e => .ok (deliver orders e)

/-- What `submit` leaves behind: the database, how often it called the adapter, and its result. -/
structure SubmitResult where
  db : ExecDb
  calls : ℕ
  result : Except ExecutionError ExecutionOutcome

/-- The event and `_finalize`. -/
def finalize (env : EngineEnv) (req : ExecutionRequest) (attemptNumber : ℕ) (db : ExecDb) (c : Conclusion) :
    ExecDb × Except ExecutionError ExecutionOutcome :=
  match applyOrderEvent db.toOrderDb c.event with
  | .error err => (db, .error err)
  | .ok orders =>
    let db' : ExecDb := { db with toOrderDb := orders }
    match updateAttempt db' (computeAttemptId req.executionId attemptNumber) c.state c.brokerOrderId env.respondedAt
        c.reason with
    | .error err => (db', .error (.db err))
    | .ok db'' => (db'', .ok
        { orderId := req.orderId
          executionId := req.executionId
          attemptId := computeAttemptId req.executionId attemptNumber
          submissionState := c.state
          orderState := c.orderState
          brokerOrderId := c.brokerOrderId
          reason := c.reason })

/-- The loop of `submit` from attempt `n` on, with `retries` left and `n` calls made. -/
def submitAttempt (env : EngineEnv) (req : ExecutionRequest) (adapter : Adapter) :
    ℕ → ℕ → ExecDb → SubmitResult
  | retries, n, db =>
    match saveAttempt db (newAttempt env req n) with
    | .error .integrityError =>
      match findAttempt db req.executionId 0 with
      | some a => ⟨db, n, .ok (duplicateOutcome a req)⟩
      | none => ⟨db, n, .error (.db .integrityError)⟩
    | .error err => ⟨db, n, .error (.db err)⟩
    | .ok db₁ =>
      let db₂ : ExecDb := { db₁ with toOrderDb := adapter.meanwhile n db₁.toOrderDb }
      match adapter.reply n, retries with
      | .transient _, k + 1 => submitAttempt env req adapter k (n + 1) db₂
      | reply, _ =>
        match concludeReply env req reply with
        | none => ⟨db₂, n + 1, .error .adapter⟩
        | some c => ⟨(finalize env req n db₂ c).1, n + 1, (finalize env req n db₂ c).2⟩

/-- `ExecutionEngine.submit`. -/
def submit (env : EngineEnv) (req : ExecutionRequest) (adapter : Adapter) (db : ExecDb) : SubmitResult :=
  match validateRequest env req with
  | .error err => ⟨db, 0, .error err⟩
  | .ok _ =>
    match findAttempt db req.executionId 0 with
    | some a => ⟨db, 0, .ok (duplicateOutcome a req)⟩
    | none => submitAttempt env req adapter env.maxRetries 0 db

/-- `ExecutionEngine.cancel`; `none` is an exception of the adapter. -/
def cancel (env : EngineEnv) (orderId : UUID) (reply : Option ExecutionResponse) (orders : OrderDb) :
    OrderDb × Except ExecutionError ExecutionOutcome :=
  if !env.supportsCancellation then
    (orders, .ok ⟨orderId, "", "", .rejected, none, none, "cancellation not supported by adapter", false⟩)
  else match reply with
    | none => (orders, .error .adapter)
    | some r =>
      match r.status with
      | .cancelled =>
        match applyOrderEvent orders (some (responseEvent orderId .cancelled r)) with
        | .error err => (orders, .error err)
        | .ok orders' =>
          (orders', .ok ⟨orderId, "", "", r.status, some .cancelled, r.brokerOrderId, r.reason, false⟩)
      | .rejected => (orders, .ok ⟨orderId, "", "", r.status, some .cancelRequested, r.brokerOrderId, r.reason, false⟩)
      | _ => (orders, .ok ⟨orderId, "", "", r.status, some .unknown, r.brokerOrderId, r.reason, false⟩)

end AlphaAlgo.Execution
