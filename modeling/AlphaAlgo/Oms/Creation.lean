import AlphaAlgo.Oms.Cancellation

/-!
# Creation — orders from trading intents

`OmsService.create_order` with a repository: validate the intent, derive the order's identity, look the
orchestration id up, insert the order with its first event, then drive it to `SUBMISSION_REQUESTED` with two more
transactions.

`nextCreate` is one step of a call: one transaction on the database and the local code that follows it.  A call that
is not stepped again is a process that died there.  `CreateEnv` holds what a call gets from outside: the clock, the
halt flag, the random order id, whether the referenced rows exist, and the faults of its transactions.

* `keyText_inj`: the text that is hashed into the order identity key determines the fields that enter it.
* `insertOrder_ok`, `createStep_next`: everything an insertion and a step do.
-/

namespace AlphaAlgo.Oms

open Execution

/-! ### Intents and their validation -/

/-- `TradingIntent`: the fields that the order management reads. -/
structure TradingIntent where
  correlationId : UUID
  orchestrationId : String
  accountId : Option UUID
  strategyId : UUID
  strategyVersion : String
  strategyRunId : Option UUID
  signalId : UUID
  instrumentId : UUID
  action : String
  quantity : Dec
  orderType : String
  limitPrice : Option Dec
  tradingMode : String
  approvalId : UUID
  approvalExpiresAt : DateTime
deriving DecidableEq, Repr

/-- `OrderSpec`; the account was checked to be there. -/
structure OrderSpec where
  orchestrationId : String
  signalId : UUID
  strategyId : UUID
  strategyVersion : String
  strategyRunId : Option UUID
  accountId : UUID
  instrumentId : UUID
  side : String
  quantity : ℤ
  orderType : String
  limitPrice : Option Dec
  tradingMode : String
  riskApprovalId : String
  approvalExpiresAt : DateTime
deriving DecidableEq, Repr

def allowedActions : List String := ["BUY", "SELL", "EXIT"]

def allowedOrderTypes : List String := ["MARKET", "LIMIT", "STOP", "STOP_LIMIT"]

def toQuantity (value : Dec) : Except OmsError ℤ :=
  if value.val ≤ 0 then .error (.orderValidation "quantity must be positive")
  else if value.val.den ≠ 1 then .error (.orderValidation "quantity must be a whole number")
  else .ok (pyInt value.val)

/-- The spec of an intent that passed its checks. -/
def specOf (intent : TradingIntent) (quantity : ℤ) (account : UUID) : OrderSpec where
  orchestrationId := intent.orchestrationId
  signalId := intent.signalId
  strategyId := intent.strategyId
  strategyVersion := intent.strategyVersion
  strategyRunId := intent.strategyRunId
  accountId := account
  instrumentId := intent.instrumentId
  side := upper intent.action
  quantity := quantity
  orderType := upper intent.orderType
  limitPrice := intent.limitPrice
  tradingMode := upper intent.tradingMode
  riskApprovalId := intent.approvalId.str
  approvalExpiresAt := intent.approvalExpiresAt

/-- The checks on approval and account that follow the quantity. -/
def validateApproval (intent : TradingIntent) (now : DateTime) (quantity : ℤ) : Except OmsError OrderSpec :=
  if !intent.approvalExpiresAt.aware then .error (.orderValidation "approval_expires_at must be timezone-aware")
  else match intent.approvalExpiresAt.le? now with
    | none => .error .typeError
    | some true => .error (.orderValidation "risk approval is expired")
    | some false =>
      match intent.accountId with
      | none => .error (.orderValidation "account_id is required")
      | some account => .ok (specOf intent quantity account)

/-- `validate_intent`. -/
def validateIntent (intent : TradingIntent) (now : DateTime) (globalHaltActive : Bool) : Except OmsError OrderSpec :=
  if blank intent.orchestrationId then .error (.orderValidation "orchestration_id is required")
  else if upper intent.tradingMode = "LIVE" then .error (.tradingMode "LIVE trading is disabled (fail-closed)")
  else if upper intent.tradingMode ∉ allowedModes then
    .error (.tradingMode ("unknown trading mode: " ++ intent.tradingMode))
  else if globalHaltActive then
    .error (.orderValidation "global trading halt is active; order creation refused")
  else if upper intent.action ∉ allowedActions then
    .error (.orderValidation ("unsupported action: " ++ intent.action))
  else if upper intent.orderType ∉ allowedOrderTypes then
    .error (.orderValidation ("unsupported order type: " ++ intent.orderType))
  else match toQuantity intent.quantity with
    | .error err => .error err
    | .ok quantity => validateApproval intent now quantity

/-! ### Identity -/

/-- The arguments of `compute_order_identity_key`. -/
structure KeyFields where
  orchestrationId : String
  signalId : UUID
  strategyId : UUID
  accountId : Option UUID
  instrumentId : UUID
  side : String
  quantity : ℤ
  orderType : String
  tradingMode : String
  riskApprovalId : String
deriving DecidableEq, Repr

/-- The hashed payload, keys sorted. -/
def keyJson (k : KeyFields) : Json :=
  .obj [("account_id", .ofOption (k.accountId.map UUID.str)), ("instrument_id", .str k.instrumentId.str),
    ("orchestration_id", .str k.orchestrationId), ("order_type", .str (upper k.orderType)),
    ("quantity", .int k.quantity), ("risk_approval_id", .str k.riskApprovalId), ("side", .str (upper k.side)),
    ("signal_id", .str k.signalId.str), ("strategy_id", .str k.strategyId.str),
    ("trading_mode", .str (upper k.tradingMode))]

def keyText (k : KeyFields) : String := (keyJson k).dumps .compact

/-- **The hashed text determines the fields of the key**, the three that are upper-cased up to case. -/
theorem keyText_inj {k k' : KeyFields} (h : keyText k = keyText k') :
    k.accountId = k'.accountId ∧ k.instrumentId = k'.instrumentId ∧ k.orchestrationId = k'.orchestrationId ∧
      upper k.orderType = upper k'.orderType ∧ k.quantity = k'.quantity ∧ k.riskApprovalId = k'.riskApprovalId ∧
      upper k.side = upper k'.side ∧ k.signalId = k'.signalId ∧ k.strategyId = k'.strategyId ∧
      upper k.tradingMode = upper k'.tradingMode := by
  unfold keyText Json.dumps at h
  rw [String.ofList_inj] at h
  simp only [keyJson, Json.chars, Json.fields, if_true, List.nil_append, List.append_assoc,
    Bool.false_eq_true, if_false, List.cons_append, List.cons.injEq, true_and] at h
  have skip : ∀ {a b c r r' : List Char}, a ++ (b ++ (c ++ r)) = a ++ (b ++ (c ++ r')) → r = r' :=
    fun e => List.append_cancel_left (List.append_cancel_left (List.append_cancel_left e))
  obtain ⟨h1, e1⟩ := ofOption_append_inj .compact (List.append_cancel_left (List.append_cancel_left h))
  obtain ⟨h2, e2⟩ := quote_append_inj (skip e1)
  obtain ⟨h3, e3⟩ := quote_append_inj (skip e2)
  obtain ⟨h4, e4⟩ := quote_append_inj (skip e3)
  obtain ⟨h5, e5⟩ := int_append_inj (skip e4)
  obtain ⟨h6, e6⟩ := quote_append_inj (List.append_cancel_left (List.append_cancel_left e5))
  obtain ⟨h7, e7⟩ := quote_append_inj (skip e6)
  obtain ⟨h8, e8⟩ := quote_append_inj (skip e7)
  obtain ⟨h9, e9⟩ := quote_append_inj (skip e8)
  obtain ⟨h10, -⟩ := quote_append_inj (skip e9)
  exact ⟨Option.map_injective (fun _ _ => UUID.str_inj) h1, UUID.str_inj h2, h3, h4, h5, h6, h7, UUID.str_inj h8,
    UUID.str_inj h9, h10⟩

def computeOrderIdentityKey (k : KeyFields) : String := sha256 (keyText k)

def makeClientOrderId (orchestrationId : String) : String := "ord-" ++ orchestrationId

structure OrderIdentity where
  internalOrderId : UUID
  clientOrderId : String
  correlationId : String
  orderIdentityKey : String
deriving DecidableEq, Repr

/-- The fields of an intent that enter the key. -/
def keyFields (intent : TradingIntent) (quantity : ℤ) : KeyFields where
  orchestrationId := intent.orchestrationId
  signalId := intent.signalId
  strategyId := intent.strategyId
  accountId := intent.accountId
  instrumentId := intent.instrumentId
  side := intent.action
  quantity := quantity
  orderType := intent.orderType
  tradingMode := intent.tradingMode
  riskApprovalId := intent.approvalId.str

def buildOrderIdentity (intent : TradingIntent) (internalOrderId : UUID) (quantity : ℤ) : OrderIdentity where
  internalOrderId := internalOrderId
  clientOrderId := makeClientOrderId intent.orchestrationId
  correlationId := intent.correlationId.str
  orderIdentityKey := computeOrderIdentityKey (keyFields intent quantity)

/-! ### The rows -/

/-- `to_orm_order`, with the quantity as its column takes it; the column rounds the limit price. -/
def toOrmOrder (spec : OrderSpec) (identity : OrderIdentity) (quantity : Int4) : Order where
  id := identity.internalOrderId
  clientOrderId := identity.clientOrderId
  orchestrationId := some spec.orchestrationId
  orderIdentityKey := some identity.orderIdentityKey
  correlationId := some identity.correlationId
  strategyId := some spec.strategyId
  strategyVersion := some spec.strategyVersion
  strategyRunId := spec.strategyRunId
  riskApprovalId := some spec.riskApprovalId
  approvalExpiresAt := some spec.approvalExpiresAt
  signalId := some spec.signalId
  instrumentId := spec.instrumentId
  brokerAccountId := spec.accountId
  tradingMode := spec.tradingMode
  side := spec.side
  orderType := spec.orderType
  limitPrice := spec.limitPrice.map fun p => numeric4 p.val
  quantity := quantity
  status := .intentCreated

/-- The rows that the order management appends to an order's trail have no broker order id and no payload. -/
def toOrmEvent (orderId : UUID) (eventType : String) (previousStatus : Option OrderState) (newStatus : OrderState)
    (eventTimestamp : DateTime) (reason sourceEventId : String) : OrderEvent where
  orderId := orderId
  sourceEventId := sourceEventId
  eventType := eventType
  previousStatus := previousStatus.map OrderState.value
  newStatus := newStatus.value
  eventTimestamp := eventTimestamp
  reason := reason

/-- The first event of an order. -/
def creationEvent (spec : OrderSpec) (orderId : UUID) (now : DateTime) : OrderEvent :=
  toOrmEvent orderId "ORDER_CREATED" none .intentCreated now "internal order created from validated intent"
    ("create-" ++ spec.orchestrationId)

def internalEvent (spec : OrderSpec) (orderId : UUID) (now : DateTime) : OrderEvent :=
  toOrmEvent orderId "INTERNAL_ORDER_CREATED" (some .intentCreated) .internalOrderCreated now
    "internal order created" (spec.orchestrationId ++ "-internal")

def submissionEvent (spec : OrderSpec) (orderId : UUID) (now : DateTime) : OrderEvent :=
  toOrmEvent orderId "SUBMISSION_REQUESTED" (some .internalOrderCreated) .submissionRequested now
    "risk approval re-validated; submission requested" (spec.orchestrationId ++ "-submission")

/-- The columns take the order. -/
def orderFits (o : Order) : Bool :=
  fits 100 o.clientOrderId && o.orchestrationId.all (fits 64) && o.orderIdentityKey.all (fits 64) &&
    o.correlationId.all (fits 100) && o.strategyVersion.all (fits 64) && o.riskApprovalId.all (fits 100) &&
    fits 16 o.tradingMode && fits 8 o.side && fits 16 o.orderType &&
    o.limitPrice.all fun p => |p| < 10 ^ 14

/-- A unique column of another row holds the value; the primary key and `broker_order_id` apart (a new order has no
broker order id). -/
def uniqueTaken (db : OrderDb) (o : Order) : Bool :=
  db.orders.rows.any fun r => r.clientOrderId = o.clientOrderId ||
    (o.orchestrationId.isSome && r.orchestrationId = o.orchestrationId) ||
    (o.orderIdentityKey.isSome && r.orderIdentityKey = o.orderIdentityKey) ||
    (o.riskApprovalId.isSome && r.riskApprovalId = o.riskApprovalId)

/-- The insertion of an order with its first event, one transaction; `referenced` says that the rows the order
refers to exist. -/
def insertOrder (db : OrderDb) (order : Order) (event : OrderEvent) (referenced : Bool) : Except DbError OrderDb :=
  if !orderFits order then .error .dataError
  else if !referenced || uniqueTaken db order then .error .integrityError
  else match db.orders.insert? order with
    | none => .error .integrityError
    | some orders =>
      let row := { event with orderId := order.id }
      if !eventFits row then .error .dataError
      else match db.events.insert? row with
        | none => .error .integrityError
        | some events => .ok ⟨orders, events⟩

def findByOrchestrationId (db : OrderDb) (orchestrationId : String) : Option Order :=
  db.orders.rows.find? fun o => o.orchestrationId = some orchestrationId

/-- **Everything an insertion does.** -/
theorem insertOrder_ok {db db' : OrderDb} {order : Order} {event : OrderEvent} {referenced : Bool}
    (h : insertOrder db order event referenced = .ok db') :
    orderFits order = true ∧ uniqueTaken db order = false ∧ db.orders.insert? order = some db'.orders ∧
      db.events.insert? { event with orderId := order.id } = some db'.events := by
  unfold insertOrder at h
  split_ifs at h with hf hu
  cases ho : db.orders.insert? order with
  | none => rw [ho] at h; cases h
  | some orders =>
    rw [ho] at h
    simp only at h
    split_ifs at h with he
    cases hi : db.events.insert? { event with orderId := order.id } with
    | none => rw [hi] at h; cases h
    | some events =>
      rw [hi] at h
      cases h
      refine ⟨by simpa using hf, ?_, rfl, rfl⟩
      simp only [Bool.or_eq_true, not_or, Bool.not_eq_true] at hu
      exact hu.2

/-! ### The call -/

/-- How a transaction of a call goes: as it should, lost before its commit, or committed without the caller hearing
of it. -/
inductive Fault where
  | none
  | lost
  | unacknowledged
deriving DecidableEq, Repr

/-- The database after a transaction, and what the caller sees. -/
def commit (fault : Fault) (db : OrderDb) (result : Except DbError OrderDb) : OrderDb × Except DbError Unit :=
  match fault, result with
  | .lost, _ => (db, .error .operationalError)
  | _, .error err => (db, .error err)
  | .none, .ok db' => (db', .ok ())
  | .unacknowledged, .ok db' => (db', .error .operationalError)

/-- What a call of `create_order` gets from outside: `uuid4()`, the halt flag, its seven readings of the clock, the
rows its order refers to, the execution port, and the faults of its reads and writes. -/
structure CreateEnv where
  orderId : UUID
  globalHaltActive : Bool := false
  validatedAt : DateTime
  createdAt : DateTime
  advancedAt : DateTime
  recheckedAt : DateTime
  requestedAt : DateTime
  appendedAt : DateTime
  handedOffAt : DateTime
  referenced : Bool := true
  portAccepts : Bool := true
  findFails : Bool := false
  checkFails : Bool := false
  insertFault : Fault := .none
  rereadFails : Bool := false
  resolveFails : Bool := false
  internalFault : Fault := .none
  submissionFault : Fault := .none

/-- A clock that stands still. -/
def CreateEnv.at (orderId : UUID) (now : DateTime) : CreateEnv where
  orderId := orderId
  validatedAt := now
  createdAt := now
  advancedAt := now
  recheckedAt := now
  requestedAt := now
  appendedAt := now
  handedOffAt := now

/-- Where a call is.  A call that has raised is `abandoned` when its order is stored and not advanced, `raised`
otherwise. -/
inductive CreatePc where
  | start
  | find (spec : OrderSpec) (identity : OrderIdentity)
  | check (spec : OrderSpec) (identity : OrderIdentity)
  | insert (spec : OrderSpec) (identity : OrderIdentity)
  | reread (spec : OrderSpec) (identity : OrderIdentity)
  | resolve (spec : OrderSpec) (identity : OrderIdentity) (orderId : Option UUID)
  | internal (spec : OrderSpec) (identity : OrderIdentity)
  | submission (spec : OrderSpec) (identity : OrderIdentity)
  | returned (result : OrderResult)
  | raised (err : OmsError)
  | abandoned (err : OmsError)
deriving DecidableEq

/-- The text of an exception of the order model. -/
def errorText : OrderError → String
  | .invalidOrderTransition text => text
  | .invalidOrderEvent text => text
  | .valueError text => text

/-- The answer to the replay of a stored order. -/
def duplicateOf (o : Order) : OrderResult where
  orderId := o.id
  clientOrderId := o.clientOrderId
  orchestrationId := o.orchestrationId.getD ""
  status := o.status
  duplicate := true

/-- The answer to another intent under a stored orchestration id. -/
def conflict : OmsError := .intentConflict "same orchestration_id with a different immutable payload"

/-- `_resolve_existing`. -/
def resolveExisting (existing : Option Order) (identity : OrderIdentity) : Except OmsError OrderResult :=
  match existing with
  | none => .error (.orderValidation "order not found during duplicate resolution")
  | some o => if o.orderIdentityKey = some identity.orderIdentityKey then .ok (duplicateOf o) else .error conflict

/-- `_request_submission`. -/
def requestSubmission (lifecycle : OrderLifecycle) (spec : OrderSpec) (env : CreateEnv) :
    Except OmsError OrderLifecycle :=
  match spec.approvalExpiresAt.le? env.recheckedAt with
  | none => .error .typeError
  | some true => .error (.riskApproval "risk approval is expired")
  | some false =>
    if blank spec.riskApprovalId then .error (.riskApproval "risk approval id is missing")
    else match lifecycle.transitionTo .submissionRequested env.requestedAt
        "risk approval re-validated; submission requested" with
      | .error err => .error (.invalidStateTransition (errorText err))
      | .ok next => .ok next

/-- The hand-off to the execution port. -/
def handOff (env : CreateEnv) : Except OmsError Unit :=
  if !env.handedOffAt.aware then .error (.order (.valueError "requested_at must be timezone-aware"))
  else if !env.portAccepts then .error .port
  else .ok ()

/-- The end of a call that has read an existing order. -/
def resolved (existing : Option Order) (identity : OrderIdentity) : CreatePc :=
  match resolveExisting existing identity with
  | .ok r => .returned r
  | .error err => .raised err

/-- The local code after the insertion. -/
def afterInsert (spec : OrderSpec) (identity : OrderIdentity) (env : CreateEnv) : CreatePc :=
  match OrderLifecycle.transitionTo ⟨identity.internalOrderId, .intentCreated, []⟩ .internalOrderCreated env.advancedAt
      "internal order identity established" with
  | .error err => .abandoned (.order err)
  | .ok _ => .internal spec identity

/-- The local code after the first appended event. -/
def afterInternal (spec : OrderSpec) (identity : OrderIdentity) (env : CreateEnv) : CreatePc :=
  match requestSubmission ⟨identity.internalOrderId, .internalOrderCreated, []⟩ spec env with
  | .error err => .abandoned err
  | .ok _ => .submission spec identity

/-- The result of a call that has created its order. -/
def createdResult (spec : OrderSpec) (identity : OrderIdentity) : OrderResult where
  orderId := identity.internalOrderId
  clientOrderId := identity.clientOrderId
  orchestrationId := spec.orchestrationId
  status := .submissionRequested
  created := true

/-- The local code after the second appended event. -/
def afterSubmission (spec : OrderSpec) (identity : OrderIdentity) (env : CreateEnv) : CreatePc :=
  match handOff env with
  | .error err => .raised err
  | .ok _ => .returned (createdResult spec identity)

/-- The end of a call whose write failed. -/
def stopped (unfinished : Bool) (err : OmsError) : CreatePc := if unfinished then .abandoned err else .raised err

/-- The row that the call inserts, unless the quantity is out of the column's range. -/
def insertRow (db : OrderDb) (spec : OrderSpec) (identity : OrderIdentity) (env : CreateEnv) :
    Except DbError OrderDb :=
  match Int4.of? spec.quantity with
  | none => .error .dataError
  | some quantity => insertOrder db (toOrmOrder spec identity quantity)
      (creationEvent spec identity.internalOrderId env.createdAt) env.referenced

/-- One step of a call: a transaction and the local code after it. -/
def nextCreate (db : OrderDb) (intent : TradingIntent) (env : CreateEnv) : CreatePc → OrderDb × CreatePc
  | .start =>
    match validateIntent intent env.validatedAt env.globalHaltActive with
    | .error err => (db, .raised err)
    | .ok spec => (db, .find spec (buildOrderIdentity intent env.orderId spec.quantity))
  | .find spec identity =>
    if env.findFails then (db, .raised (.db .operationalError))
    else match findByOrchestrationId db spec.orchestrationId with
      | some existing => (db, resolved (some existing) identity)
      | none => (db, .check spec identity)
  | .check spec identity =>
    if env.checkFails then (db, .raised (.persistence "order creation failed"))
    else match findByOrchestrationId db spec.orchestrationId with
      | some existing => (db, .resolve spec identity (some existing.id))
      | none => (db, .insert spec identity)
  | .insert spec identity =>
    match commit env.insertFault db (insertRow db spec identity env) with
    | (db', .ok _) => (db', afterInsert spec identity env)
    | (db', .error .integrityError) => (db', .reread spec identity)
    | (db', .error _) => (db', stopped (env.insertFault = .unacknowledged && (insertRow db spec identity env).toBool)
        (.persistence "order creation failed"))
  | .reread spec identity =>
    if env.rereadFails then (db, .raised (.persistence "order creation failed"))
    else (db, .resolve spec identity ((findByOrchestrationId db spec.orchestrationId).map Order.id))
  | .resolve _ identity orderId =>
    if env.resolveFails then (db, .raised (.db .operationalError))
    else (db, resolved (orderId.bind (findById db)) identity)
  | .internal spec identity =>
    match commit env.internalFault db (appendEvent db identity.internalOrderId
        (internalEvent spec identity.internalOrderId env.advancedAt) .internalOrderCreated) with
    | (db', .ok _) => (db', afterInternal spec identity env)
    | (db', .error _) => (db', .abandoned (.persistence "failed to persist INTERNAL_ORDER_CREATED"))
  | .submission spec identity =>
    let result := appendEvent db identity.internalOrderId
      (submissionEvent spec identity.internalOrderId env.appendedAt) .submissionRequested
    match commit env.submissionFault db result with
    | (db', .ok _) => (db', afterSubmission spec identity env)
    | (db', .error _) => (db', stopped (!(env.submissionFault = .unacknowledged && result.toBool))
        (.persistence "failed to persist SUBMISSION_REQUESTED"))
  | .returned r => (db, .returned r)
  | .raised err => (db, .raised err)
  | .abandoned err => (db, .abandoned err)

/-- A call of `create_order`. -/
structure CreateCall where
  intent : TradingIntent
  env : CreateEnv
  pc : CreatePc := .start

def CreateCall.next (db : OrderDb) (c : CreateCall) : OrderDb × CreateCall :=
  ((nextCreate db c.intent c.env c.pc).1, { c with pc := (nextCreate db c.intent c.env c.pc).2 })

/-- The call taken as far as `n` steps: a process that dies there leaves this database. -/
def createSteps (intent : TradingIntent) (env : CreateEnv) (n : ℕ) (db : OrderDb) : OrderDb × CreatePc :=
  (fun x => nextCreate x.1 intent env x.2)^[n] (db, .start)

/-- The identity key always fits its column. -/
theorem orderFits_built (spec : OrderSpec) (intent : TradingIntent) (id : UUID) (n : ℤ) (q : Int4) :
    orderFits (toOrmOrder spec (buildOrderIdentity intent id n) q) =
      (fits 100 (makeClientOrderId intent.orchestrationId) && fits 64 spec.orchestrationId &&
        fits 100 intent.correlationId.str && fits 64 spec.strategyVersion && fits 100 spec.riskApprovalId &&
        fits 16 spec.tradingMode && fits 8 spec.side && fits 16 spec.orderType &&
        spec.limitPrice.all fun p => |numeric4 p.val| < 10 ^ 14) := by
  have hkey : fits 64 (computeOrderIdentityKey (keyFields intent n)) = true := decide_eq_true (length_sha256 _).le
  unfold orderFits toOrmOrder buildOrderIdentity
  simp only [Option.all_some, hkey, Bool.and_true, Option.all_map]

/-- **When an order is inserted**: its columns take it, the rows it refers to exist, and its unique values and its
first event are new. -/
theorem insertRow_of_fresh {db : OrderDb} {spec : OrderSpec} {identity : OrderIdentity} (env : CreateEnv) {q : Int4}
    (hq : Int4.of? spec.quantity = some q) (hfit : orderFits (toOrmOrder spec identity q) = true)
    (href : env.referenced = true) (hu : uniqueTaken db (toOrmOrder spec identity q) = false)
    (hid : db.orders.get identity.internalOrderId = none)
    (hev : fits 150 ("create-" ++ spec.orchestrationId) = true)
    (hsrc : db.events.get ("create-" ++ spec.orchestrationId) = none) :
    ∃ db', insertRow db spec identity env = .ok db' ∧
      db'.orders.rows = db.orders.rows ++ [toOrmOrder spec identity q] := by
  obtain ⟨orders, ho⟩ := Table.insert?_of_get_none (t := db.orders) (r := toOrmOrder spec identity q) hid
  obtain ⟨events, he⟩ := Table.insert?_of_get_none (t := db.events)
    (r := creationEvent spec identity.internalOrderId env.createdAt) hsrc
  have hfits : eventFits (creationEvent spec identity.internalOrderId env.createdAt) = true := by
    simp only [eventFits, creationEvent, toOrmEvent, hev, Option.all_none, Bool.and_self]
  refine ⟨⟨orders, events⟩, ?_, (Table.insert?_eq_some ho).2⟩
  have hrow : { creationEvent spec identity.internalOrderId env.createdAt with
      orderId := (toOrmOrder spec identity q).id } = creationEvent spec identity.internalOrderId env.createdAt := rfl
  unfold insertRow insertOrder
  simp only [hq, hfit, href, hu, ho, hrow, hfits, he, Bool.not_true, Bool.or_self, Bool.false_eq_true, if_false]

/-- What an insertion does to the orders. -/
theorem insertRow_ok {db db' : OrderDb} {spec : OrderSpec} {identity : OrderIdentity} {env : CreateEnv}
    (h : insertRow db spec identity env = .ok db') :
    ∃ q, Int4.of? spec.quantity = some q ∧ db'.orders.rows = db.orders.rows ++ [toOrmOrder spec identity q] ∧
      db'.events.rows = db.events.rows ++ [creationEvent spec identity.internalOrderId env.createdAt] ∧
      db.orders.get identity.internalOrderId = none ∧
      ∀ o ∈ db.orders.rows, o.orchestrationId ≠ some spec.orchestrationId := by
  unfold insertRow at h
  cases hq : Int4.of? spec.quantity with
  | none => rw [hq] at h; cases h
  | some q =>
    rw [hq] at h
    obtain ⟨-, hu, hi, he⟩ := insertOrder_ok h
    refine ⟨q, rfl, (Table.insert?_eq_some hi).2, (Table.insert?_eq_some he).2, (Table.insert?_eq_some hi).1,
      fun o ho hx => ?_⟩
    have := List.any_eq_false.mp hu o ho
    simp [toOrmOrder, hx] at this

/-! ### What a step does -/

theorem validateIntent_ok {intent : TradingIntent} {now : DateTime} {halt : Bool} {spec : OrderSpec}
    (h : validateIntent intent now halt = .ok spec) :
    ∃ account quantity, intent.accountId = some account ∧ toQuantity intent.quantity = .ok quantity ∧
      spec = specOf intent quantity account := by
  unfold validateIntent at h
  split_ifs at h
  cases hq : toQuantity intent.quantity with
  | error err => rw [hq] at h; cases h
  | ok quantity =>
    rw [hq] at h
    simp only [validateApproval] at h
    split_ifs at h
    split at h
    · cases h
    · cases h
    · cases ha : intent.accountId with
      | none => rw [ha] at h; cases h
      | some account =>
        rw [ha] at h
        cases h
        exact ⟨account, quantity, rfl, rfl, rfl⟩

/-- The order of the call is stored and the call has not finished its advance. -/
def CreatePc.unfinished : CreatePc → Bool
  | .internal _ _ => true
  | .submission _ _ => true
  | .abandoned _ => true
  | _ => false

/-- The call has returned or raised. -/
def CreatePc.ended : CreatePc → Bool
  | .returned _ => true
  | .raised _ => true
  | .abandoned _ => true
  | _ => false

/-- The identity of the order that a call with this intent creates. -/
abbrev identityOf (intent : TradingIntent) (env : CreateEnv) (spec : OrderSpec) : OrderIdentity :=
  buildOrderIdentity intent env.orderId spec.quantity

/-- The steps of a call: place before, database and place after. -/
inductive CreateStep (db : OrderDb) (intent : TradingIntent) (env : CreateEnv) : CreatePc → OrderDb → CreatePc → Prop
  | refused {err : OmsError} (h : validateIntent intent env.validatedAt env.globalHaltActive = .error err) :
      CreateStep db intent env .start db (.raised err)
  | validated {spec : OrderSpec} (h : validateIntent intent env.validatedAt env.globalHaltActive = .ok spec) :
      CreateStep db intent env .start db (.find spec (identityOf intent env spec))
  | findFailed {spec : OrderSpec} {identity : OrderIdentity} {err : OmsError} (h : env.findFails = true) :
      CreateStep db intent env (.find spec identity) db (.raised err)
  | found {spec : OrderSpec} {identity : OrderIdentity} {o : Order}
      (h : findByOrchestrationId db spec.orchestrationId = some o) :
      CreateStep db intent env (.find spec identity) db (resolved (some o) identity)
  | missing {spec : OrderSpec} {identity : OrderIdentity}
      (h : findByOrchestrationId db spec.orchestrationId = none) :
      CreateStep db intent env (.find spec identity) db (.check spec identity)
  | checkFailed {spec : OrderSpec} {identity : OrderIdentity} {err : OmsError} (h : env.checkFails = true) :
      CreateStep db intent env (.check spec identity) db (.raised err)
  | taken {spec : OrderSpec} {identity : OrderIdentity} {o : Order}
      (h : findByOrchestrationId db spec.orchestrationId = some o) :
      CreateStep db intent env (.check spec identity) db (.resolve spec identity (some o.id))
  | free {spec : OrderSpec} {identity : OrderIdentity} (h : findByOrchestrationId db spec.orchestrationId = none) :
      CreateStep db intent env (.check spec identity) db (.insert spec identity)
  | inserted {spec : OrderSpec} {identity : OrderIdentity} {db' : OrderDb} {pc : CreatePc}
      (h : insertRow db spec identity env = .ok db')
      (hpc : pc = .internal spec identity ∨ ∃ err, pc = .abandoned err) :
      CreateStep db intent env (.insert spec identity) db' pc
  | violated {spec : OrderSpec} {identity : OrderIdentity}
      (h : insertRow db spec identity env = .error .integrityError) :
      CreateStep db intent env (.insert spec identity) db (.reread spec identity)
  | insertFailed {spec : OrderSpec} {identity : OrderIdentity} {err : OmsError}
      (h : env.insertFault = .lost ∨ insertRow db spec identity env ≠ .error .integrityError) :
      CreateStep db intent env (.insert spec identity) db (.raised err)
  | rereadFailed {spec : OrderSpec} {identity : OrderIdentity} {err : OmsError} (h : env.rereadFails = true) :
      CreateStep db intent env (.reread spec identity) db (.raised err)
  | reread {spec : OrderSpec} {identity : OrderIdentity} : CreateStep db intent env (.reread spec identity) db
      (.resolve spec identity ((findByOrchestrationId db spec.orchestrationId).map Order.id))
  | resolveFailed {spec : OrderSpec} {identity : OrderIdentity} {orderId : Option UUID} {err : OmsError}
      (h : env.resolveFails = true) : CreateStep db intent env (.resolve spec identity orderId) db (.raised err)
  | resolve {spec : OrderSpec} {identity : OrderIdentity} {orderId : Option UUID} :
      CreateStep db intent env (.resolve spec identity orderId) db (resolved (orderId.bind (findById db)) identity)
  | internal {spec : OrderSpec} {identity : OrderIdentity} {db' : OrderDb} {pc : CreatePc}
      (h : appendEvent db identity.internalOrderId
        (internalEvent spec identity.internalOrderId env.advancedAt) .internalOrderCreated = .ok db')
      (hpc : pc = .submission spec identity ∨ ∃ err, pc = .abandoned err) :
      CreateStep db intent env (.internal spec identity) db' pc
  | internalFailed {spec : OrderSpec} {identity : OrderIdentity} {err : OmsError} :
      CreateStep db intent env (.internal spec identity) db (.abandoned err)
  | submission {spec : OrderSpec} {identity : OrderIdentity} {db' : OrderDb} {pc : CreatePc}
      (h : appendEvent db identity.internalOrderId
        (submissionEvent spec identity.internalOrderId env.appendedAt) .submissionRequested = .ok db')
      (hpc : pc = .returned (createdResult spec identity) ∨ ∃ err, pc = .raised err) :
      CreateStep db intent env (.submission spec identity) db' pc
  | submissionFailed {spec : OrderSpec} {identity : OrderIdentity} {err : OmsError} :
      CreateStep db intent env (.submission spec identity) db (.abandoned err)
  | ended {pc : CreatePc} (h : pc.ended = true) : CreateStep db intent env pc db pc

theorem afterInsert_cases (spec : OrderSpec) (identity : OrderIdentity) (env : CreateEnv) :
    afterInsert spec identity env = .internal spec identity ∨ ∃ err, afterInsert spec identity env = .abandoned err := by
  unfold afterInsert
  split
  · exact Or.inr ⟨_, rfl⟩
  · exact Or.inl rfl

theorem afterInternal_cases (spec : OrderSpec) (identity : OrderIdentity) (env : CreateEnv) :
    afterInternal spec identity env = .submission spec identity ∨
      ∃ err, afterInternal spec identity env = .abandoned err := by
  unfold afterInternal
  split
  · exact Or.inr ⟨_, rfl⟩
  · exact Or.inl rfl

theorem afterSubmission_cases (spec : OrderSpec) (identity : OrderIdentity) (env : CreateEnv) :
    afterSubmission spec identity env = .returned (createdResult spec identity) ∨
      ∃ err, afterSubmission spec identity env = .raised err := by
  unfold afterSubmission
  split
  · exact Or.inr ⟨_, rfl⟩
  · exact Or.inl rfl

/-- **Everything a step of a call does.** -/
theorem createStep_next (db : OrderDb) (intent : TradingIntent) (env : CreateEnv) (pc : CreatePc) :
    CreateStep db intent env pc (nextCreate db intent env pc).1 (nextCreate db intent env pc).2 := by
  cases pc with
  | start =>
    simp only [nextCreate]
    cases hv : validateIntent intent env.validatedAt env.globalHaltActive with
    | error err => exact .refused hv
    | ok spec => exact .validated hv
  | find spec identity =>
    simp only [nextCreate]
    split_ifs with hf
    · exact .findFailed hf
    · cases ho : findByOrchestrationId db spec.orchestrationId with
      | none => exact .missing ho
      | some o => exact .found ho
  | check spec identity =>
    simp only [nextCreate]
    split_ifs with hf
    · exact .checkFailed hf
    · cases ho : findByOrchestrationId db spec.orchestrationId with
      | none => exact .free ho
      | some o => exact .taken ho
  | reread spec identity =>
    simp only [nextCreate]
    split_ifs with hf
    · exact .rereadFailed hf
    · exact .reread
  | resolve spec identity orderId =>
    simp only [nextCreate]
    split_ifs with hf
    · exact .resolveFailed hf
    · exact .resolve
  | returned r => exact .ended rfl
  | raised err => exact .ended rfl
  | abandoned err => exact .ended rfl
  | insert spec identity =>
    simp only [nextCreate]
    cases hf : env.insertFault with
    | lost => exact .insertFailed (Or.inl hf)
    | none =>
      cases hr : insertRow db spec identity env with
      | ok db' => exact .inserted hr (afterInsert_cases spec identity env)
      | error err =>
        cases err with
        | integrityError => exact .violated hr
        | keyError _ | dataError | operationalError | multipleResultsFound | order _ =>
          exact .insertFailed (Or.inr fun h => (by rw [hr] at h; cases h))
    | unacknowledged =>
      cases hr : insertRow db spec identity env with
      | ok db' => exact .inserted hr (Or.inr ⟨_, rfl⟩)
      | error err =>
        cases err with
        | integrityError => exact .violated hr
        | keyError _ | dataError | operationalError | multipleResultsFound | order _ =>
          exact .insertFailed (Or.inr fun h => (by rw [hr] at h; cases h))
  | internal spec identity =>
    simp only [nextCreate]
    cases hr : appendEvent db identity.internalOrderId
        (internalEvent spec identity.internalOrderId env.advancedAt) .internalOrderCreated with
    | error err => cases env.internalFault <;> exact .internalFailed
    | ok db' =>
      cases env.internalFault with
      | none => exact .internal hr (afterInternal_cases spec identity env)
      | lost => exact .internalFailed
      | unacknowledged => exact .internal hr (Or.inr ⟨_, rfl⟩)
  | submission spec identity =>
    simp only [nextCreate]
    cases hr : appendEvent db identity.internalOrderId
        (submissionEvent spec identity.internalOrderId env.appendedAt) .submissionRequested with
    | error err => cases env.submissionFault <;> exact .submissionFailed
    | ok db' =>
      cases env.submissionFault with
      | none => exact .submission hr (afterSubmission_cases spec identity env)
      | lost => exact .submissionFailed
      | unacknowledged => exact .submission hr (Or.inr ⟨_, rfl⟩)

theorem resolved_of_key {identity : OrderIdentity} {o : Order} (h : o.orderIdentityKey = some identity.orderIdentityKey) :
    resolved (some o) identity = .returned (duplicateOf o) := by
  unfold resolved resolveExisting
  simp only [if_pos h]

theorem resolved_of_ne {identity : OrderIdentity} {o : Order} (h : o.orderIdentityKey ≠ some identity.orderIdentityKey) :
    resolved (some o) identity = .raised conflict := by
  unfold resolved resolveExisting
  simp only [if_neg h]

/-! ### Steps of a call without faults -/

section Steps

variable {db db' : OrderDb} (intent : TradingIntent) {spec : OrderSpec} (env : CreateEnv) (identity : OrderIdentity)

theorem next_start (hv : validateIntent intent env.validatedAt env.globalHaltActive = .ok spec) :
    CreateCall.next db ⟨intent, env, .start⟩ = (db, ⟨intent, env, .find spec (identityOf intent env spec)⟩) := by
  simp only [CreateCall.next, nextCreate, hv]

theorem next_find_none (hf : env.findFails = false) (hn : findByOrchestrationId db spec.orchestrationId = none) :
    CreateCall.next db ⟨intent, env, .find spec identity⟩ = (db, ⟨intent, env, .check spec identity⟩) := by
  simp only [CreateCall.next, nextCreate, hf, hn, Bool.false_eq_true, if_false]

theorem next_find_some {o : Order} (hf : env.findFails = false)
    (hs : findByOrchestrationId db spec.orchestrationId = some o) :
    CreateCall.next db ⟨intent, env, .find spec identity⟩ = (db, ⟨intent, env, resolved (some o) identity⟩) := by
  simp only [CreateCall.next, nextCreate, hf, hs, Bool.false_eq_true, if_false]

theorem next_check_none (hf : env.checkFails = false) (hn : findByOrchestrationId db spec.orchestrationId = none) :
    CreateCall.next db ⟨intent, env, .check spec identity⟩ = (db, ⟨intent, env, .insert spec identity⟩) := by
  simp only [CreateCall.next, nextCreate, hf, hn, Bool.false_eq_true, if_false]

theorem next_insert (hf : env.insertFault = .none)
    (hi : insertRow db spec identity env = .ok db') :
    CreateCall.next db ⟨intent, env, .insert spec identity⟩ = (db', ⟨intent, env, afterInsert spec identity env⟩) := by
  simp only [CreateCall.next, nextCreate, hf, hi, commit]

end Steps

end AlphaAlgo.Oms
