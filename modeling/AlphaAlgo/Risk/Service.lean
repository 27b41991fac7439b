import AlphaAlgo.Lib.Outbox
import AlphaAlgo.Lib.Sha256
import AlphaAlgo.Risk.Breaker
import AlphaAlgo.Risk.Context

/-!
# Service — the risk service and its repository

`RiskService.evaluate` judges a signal by its mode, the decisions it remembers, the circuit breakers, the snapshot and
the rules, then stores the decision in `risk_events`, remembers it and tells its consumers.  A call is a program that
stops before each access to the database and before the fan-out, so that calls of one service and of several services
interleave.  The lock of a service is left out: it only rules schedules out.

* `riskStep_next`: what one step of a call can do.
-/

namespace AlphaAlgo.Risk

open Loop (bind_eq_ok map_eq_ok)

/-! ### Identity -/

/-- `event_timestamp`. -/
def eventTimestamp (signal : StrategySignal) : Except RiskError DateTime :=
  match signal.eventTimestampEntry with
  | .missing => .ok signal.timestamp
  | .malformed raw => .error (.valueError ("Invalid isoformat string: " ++ reprText raw))
  | .at t => .ok t

/-- `compute_signal_identity_key`. -/
def signalIdentityKey (signal : StrategySignal) : Except RiskError String := do
  let t ← eventTimestamp signal
  return sha256 ("|".intercalate [signal.strategyId.str, signal.strategyVersion, signal.strategyConfigHash,
    signal.instrumentId.str, signal.action.value, t.isoformat])

/-- The hashed payload of a risk identity, keys sorted. -/
def riskIdentityJson (signalIdentity : String) (intent : Option RiskOrderIntent) (tradingMode : String) : Json :=
  .obj [("account_id", .ofOption ((intent.bind RiskOrderIntent.accountId).map UUID.str)),
    ("order_type", .ofOption (intent.map RiskOrderIntent.orderType)),
    ("quantity", .ofOption ((intent.bind RiskOrderIntent.quantity).map Decimal.str)),
    ("signal_identity", .str signalIdentity), ("trading_mode", .str (upper tradingMode))]

/-- `compute_risk_identity_key`. -/
def riskIdentityKey (signal : StrategySignal) (intent : Option RiskOrderIntent) (tradingMode : String) :
    Except RiskError String := do
  return sha256 ((riskIdentityJson (← signalIdentityKey signal) intent tradingMode).dumps .compact)

/-- `approval_is_usable`. -/
def approvalIsUsable (d : RiskDecision) (now : DateTime) (bindingHash : String) : Except RiskError Bool :=
  match d.verdict with
  | .rejected => .ok false
  | .approved _ expiresAt =>
    if !now.aware then .error (.valueError "value must be timezone-aware")
    else .ok (expiresAt.le? now = some false && d.bindingHash = some bindingHash)

/-- An approval is bound to its identity key and its snapshot. -/
def RiskDecision.bind (d : RiskDecision) (identityKey : String) (snapshotId : UUID) : RiskDecision :=
  if d.isApproved then
    ⟨{ d.toDecisionFields with bindingHash := some identityKey, snapshotId := some snapshotId }, d.valid⟩
  else d

theorem RiskDecision.bindingHash_bind {d : RiskDecision} {k : String} {i : UUID}
    (h : (d.bind k i).isApproved = true) : (d.bind k i).bindingHash = some k := by
  unfold RiskDecision.bind at h ⊢
  split
  · rfl
  · rename_i hd
    rw [if_neg hd] at h
    exact absurd h hd

/-! ### The table `risk_events` -/

inductive RiskDecisionResult where
  | approved
  | rejected
deriving DecidableEq

def RiskDecision.result (d : RiskDecision) : RiskDecisionResult := if d.isApproved then .approved else .rejected

/-- A row of `risk_events`. -/
structure RiskEvent where
  id : UUID
  decisionId : UUID
  strategyId : UUID
  signalId : UUID
  instrumentId : UUID
  accountId : Option UUID
  decision : RiskDecisionResult
  reasonCode : String
  reason : String
  approvalId : Option String
  expiresAt : Option DateTime
  evaluatedAt : DateTime
  tradingMode : String
  ruleId : String
  bindingHash : Option String
  identityKey : String
  snapshotId : Option UUID
deriving DecidableEq

def RiskDecision.expiresAt (d : RiskDecision) : Option DateTime :=
  match d.verdict with
  | .approved _ expiresAt => some expiresAt
  | .rejected => none

/-- `to_orm_risk_event`; the row draws its id. -/
def toOrmRiskEvent (id : UUID) (d : RiskDecision) (accountId : Option UUID) (tradingMode : String)
    (snapshotId : Option UUID) (identityKey : String) : RiskEvent where
  id := id
  decisionId := d.decisionId
  strategyId := d.strategyId
  signalId := d.signalId
  instrumentId := d.instrumentId
  accountId := accountId
  decision := d.result
  reasonCode := d.reasonCode
  reason := d.reason
  approvalId := d.approvalId.map UUID.str
  expiresAt := d.expiresAt
  evaluatedAt := d.evaluatedAt
  tradingMode := tradingMode
  ruleId := d.ruleId
  bindingHash := d.bindingHash
  identityKey := identityKey
  snapshotId := snapshotId

/-- The rows, unique by identity key. -/
abbrev RiskEvents := Table RiskEvent String RiskEvent.identityKey

/-- The other unique columns, and the width of the trading mode. -/
def accepts (events : RiskEvents) (e : RiskEvent) : Bool :=
  fits 16 e.tradingMode && events.rows.all fun r =>
    r.id ≠ e.id && r.decisionId ≠ e.decisionId && (e.approvalId.isNone || r.approvalId ≠ e.approvalId)

/-- The insertion of a row; `none` when a constraint is violated. -/
def insertEvent (events : RiskEvents) (e : RiskEvent) : Option RiskEvents :=
  if accepts events e then events.insert? e else none

/-! ### The service -/

/-- `now` in microseconds since the first of January of year 1. -/
def instant (now : DateTime) : ℤ := now.wallClock - now.utcoffset.getD 0

/-- The state of a service; `decisions` and `retries` are ordered dictionaries, the oldest entry first. -/
structure RiskService where
  engine : RiskRuleEngine
  hasRepository : Bool := true
  capacity : ℤ := 4096
  breaker : CircuitBreakerRegistry := {}
  decisions : List (String × RiskDecision) := []
  retries : List (String × ℤ) := []

/-- What an evaluation gets from outside: the readings of the clock, the identifiers it draws, the answer of the state
provider, and the answers of the database.  A commit that the database refuses for another reason than its unique
columns (a foreign key, a lost connection) is `Commit.lost`. -/
structure EvalEnv where
  now : DateTime
  requestId : UUID
  rejectId : UUID
  snapshot : Except ContextError RiskSnapshot
  builtAt : DateTime
  engine : EngineEnv
  recordId : UUID
  readFails : Bool := false
  insertion : Commit := .answered

/-- The outcome of the steps of an evaluation that precede the database. -/
inductive Judgement where
  | replay (prior : RiskDecision)
  | early (decision : RiskDecision)
  | final (decision : RiskDecision) (snapshotId : UUID)

namespace RiskService

/-- `_record_seen`, and whether it returns: with a negative capacity the eviction runs out of entries (`KeyError`). -/
def recordSeen (s : RiskService) (identityKey : String) (d : RiskDecision) : RiskService × Bool :=
  let decisions := s.decisions.filter (fun e => e.1 ≠ identityKey) ++ [(identityKey, d)]
  let evicted := (decisions.length - s.capacity).toNat
  ({ s with
      decisions := decisions.drop evicted
      retries := s.retries.filter fun e => e.1 ∉ (decisions.take evicted).map Prod.fst }, decide (0 ≤ s.capacity))

def scopes (signal : StrategySignal) : List String :=
  ["global", "strategy:" ++ signal.strategyId.str, "instrument:" ++ signal.instrumentId.str]

/-- The scopes are asked in order, up to the first that refuses. -/
def checkScopes (now : ℤ) : List String → CircuitBreakerRegistry → CircuitBreakerRegistry × Option String
  | [], r => (r, none)
  | scope :: l, r => if (r.allows scope now).2 then checkScopes now l (r.allows scope now).1
      else ((r.allows scope now).1, some scope)

/-- The breakers and the retry count after a decision of the engine. -/
def recordOutcome (s : RiskService) (signal : StrategySignal) (now : ℤ) (identityKey : String) (approved : Bool) :
    RiskService :=
  { s with
    breaker := (scopes signal).foldl
      (fun r scope => if approved then r.recordSuccess scope now else r.recordFailure scope now) s.breaker
    retries := s.retries.filter (fun e => e.1 ≠ identityKey) ++
      [(identityKey, (s.retries.lookup identityKey).getD 0 + 1)] }

/-- `_make_reject`. -/
def makeReject (request : RiskAssessmentRequest) (env : EvalEnv) (ruleId reasonCode reason : String) :
    Except RiskError RiskDecision :=
  DecisionFields.make
    { decisionId := env.rejectId, requestId := request.requestId, signalId := request.signal.signalId
      strategyId := request.signal.strategyId, instrumentId := request.signal.instrumentId, verdict := .rejected
      reasonCode := reasonCode, reason := reason, ruleId := ruleId, evaluatedAt := env.now }

/-- The snapshot and the context built from it. -/
def buildContext (s : RiskService) (signal : StrategySignal) (intent : Option RiskOrderIntent) (mode : String)
    (identityKey : String) (env : EvalEnv) : Except ContextError (RiskSnapshot × RiskEvaluationContext) := do
  let snapshot ← env.snapshot
  let context ← build env.builtAt signal intent snapshot mode ((s.retries.lookup identityKey).getD 0)
  return (snapshot, context)

/-- Steps 5 to 9: validation, rules, binding, breakers and retries. -/
def judgeContext (s : RiskService) (request : RiskAssessmentRequest) (identityKey : String) (env : EvalEnv)
    (snapshot : RiskSnapshot) (context : RiskEvaluationContext) : RiskService × Except RiskError Judgement :=
  match validate context with
  | .error e => (s, .error (.arithmetic e))
  | .ok (problem :: problems) => (s, (makeReject request env "core.risk-context" "RISK_CONTEXT_INVALID"
      ("; ".intercalate (problem :: problems))).map .early)
  | .ok [] =>
    match s.engine.evaluate request context env.engine with
    | .error e => (s, .error e)
    | .ok decision => (s.recordOutcome request.signal (instant env.now) identityKey decision.isApproved,
        .ok (.final (decision.bind identityKey snapshot.snapshotId) snapshot.snapshotId))

/-- Steps 3 to 9: breakers, snapshot and context first. -/
def judgeNew (s : RiskService) (request : RiskAssessmentRequest) (intent : Option RiskOrderIntent) (mode : String)
    (identityKey : String) (env : EvalEnv) : RiskService × Except RiskError Judgement :=
  let (breaker, refused) := checkScopes (instant env.now) (scopes request.signal) s.breaker
  let s := { s with breaker := breaker }
  match refused with
  | some scope => (s, (makeReject request env "core.circuit-breaker" "CIRCUIT_BREAKER_OPEN"
      ("circuit breaker open: " ++ scope)).map .early)
  | none =>
    match s.buildContext request.signal intent mode identityKey env with
    | .error (.unavailable text) =>
      (s, (makeReject request env "core.risk-context" "RISK_STATE_UNAVAILABLE" text).map .early)
    | .error (.other type) => (s, (makeReject request env "core.risk-context" "RISK_CONTEXT_ERROR"
        ("context construction failed: " ++ type)).map .early)
    | .ok (snapshot, context) => s.judgeContext request identityKey env snapshot context

/-- A remembered decision is answered again, unless it is an approval that is not usable any more. -/
def judgePrior (request : RiskAssessmentRequest) (identityKey : String) (env : EvalEnv) (prior : RiskDecision) :
    Except RiskError Judgement := do
  if prior.isApproved then
    if ← approvalIsUsable prior env.now identityKey then return .replay prior
    else return .early (← makeReject request env "core.duplicate-order-protection" "PRIOR_APPROVAL_INVALID"
      "prior approval expired or unbound on replay")
  else return .replay prior

/-- The steps of `_evaluate_locked` that precede the database. -/
def judge (s : RiskService) (request : RiskAssessmentRequest) (intent : Option RiskOrderIntent) (mode : String)
    (identityKey : String) (env : EvalEnv) : RiskService × Except RiskError Judgement :=
  if mode ∉ allowedModes then (s, (makeReject request env "core.live-mode-gate" "LIVE_MODE_BLOCKED"
      ("trading mode not allowed: " ++ mode)).map .early)
  else
    match s.decisions.lookup identityKey with
    | some prior => (s, judgePrior request identityKey env prior)
    | none => s.judgeNew request intent mode identityKey env

end RiskService

/-! ### Calls -/

inductive RiskStatus where
  | approved
  | rejected
  | duplicate
deriving DecidableEq

structure RiskEvaluationOutcome where
  decision : RiskDecision
  status : RiskStatus
  persisted : Bool := false
  recordId : Option UUID := none
  snapshotId : Option UUID := none
  priorDecisionId : Option UUID := none

/-- A decision on its way to the database; the early ones are those of `_finish_reject`. -/
structure Pending where
  identityKey : String
  decision : RiskDecision
  early : Bool
  snapshotId : Option UUID

/-- The next access of a call to what it shares with others. -/
inductive RiskPc where
  | start
  | find (w : Pending)
  | insert (w : Pending)
  | finish (w : Pending) (persisted : Bool) (recordId : Option UUID)
  | fanOut (w : Pending) (persisted : Bool) (recordId : Option UUID)
  | returned (outcome : RiskEvaluationOutcome)
  | raised (e : RiskError)

/-- A call of `evaluate` on service number `service`. -/
structure RiskCall where
  service : ℕ
  signal : StrategySignal
  intent : Option RiskOrderIntent
  tradingMode : String
  env : EvalEnv
  pc : RiskPc := .start

/-- A fan-out: the consumers of a service get a decision. -/
structure Notification where
  service : ℕ
  identityKey : String
  decision : RiskDecision

/-- The services, the table they share, and the fan-outs so far. -/
structure RiskShared where
  services : List RiskService
  events : RiskEvents
  notified : List Notification

namespace RiskCall

/-- The identity key of the call. -/
def key (c : RiskCall) : Except RiskError String := riskIdentityKey c.signal c.intent (upper c.tradingMode)

/-- The row of a decision of the call. -/
def event (c : RiskCall) (w : Pending) : RiskEvent :=
  toOrmRiskEvent c.env.recordId w.decision (c.intent.bind RiskOrderIntent.accountId) (upper c.tradingMode)
    w.snapshotId w.identityKey

/-- What the call returns for a decision. -/
def outcome (w : Pending) (persisted : Bool) (recordId : Option UUID) : RiskEvaluationOutcome where
  decision := w.decision
  status := if w.decision.isApproved then .approved else .rejected
  persisted := persisted
  recordId := recordId
  snapshotId := w.snapshotId

/-- `_persist` starts with a read, if there is a repository. -/
def persist (service : RiskService) (w : Pending) : RiskPc :=
  if service.hasRepository then .find w else .finish w false none

def request (c : RiskCall) : Except RiskError RiskAssessmentRequest :=
  if h : c.env.now.aware = true then .ok ⟨c.env.requestId, c.signal, c.env.now, h⟩ else .error .validationError

/-- What a judgement leads to. -/
def proceed (key : String) : RiskService × Except RiskError Judgement → RiskService × RiskPc
  | (service, .error e) => (service, .raised e)
  | (service, .ok (.replay prior)) =>
    (service, .returned { decision := prior, status := .duplicate, priorDecisionId := some prior.decisionId })
  | (service, .ok (.early d)) =>
    if (service.recordSeen key d).2 then
      ((service.recordSeen key d).1, persist (service.recordSeen key d).1 ⟨key, d, true, none⟩)
    else ((service.recordSeen key d).1, .raised .keyError)
  | (service, .ok (.final d snapshotId)) => (service, persist service ⟨key, d, false, some snapshotId⟩)

/-- The call up to its first access to the database. -/
def begin (c : RiskCall) (service : RiskService) : RiskService × RiskPc :=
  match c.key, c.request with
  | .error e, _ => (service, .raised e)
  | .ok _, .error e => (service, .raised e)
  | .ok key, .ok request => proceed key (service.judge request c.intent (upper c.tradingMode) key c.env)

/-- The call after the database: what is remembered, and whether the consumers are told. -/
def conclude (service : RiskService) (w : Pending) (persisted : Bool) (recordId : Option UUID) :
    RiskService × RiskPc :=
  if w.early || (w.decision.isApproved && !persisted && service.hasRepository) then
    (service, .returned (outcome w persisted recordId))
  else if !(service.recordSeen w.identityKey w.decision).2 then
    ((service.recordSeen w.identityKey w.decision).1, .raised .keyError)
  else ((service.recordSeen w.identityKey w.decision).1,
    if w.decision.isApproved then .fanOut w persisted recordId else .returned (outcome w persisted recordId))

/-- The next step of the call. -/
def next (s : RiskShared) (c : RiskCall) : RiskShared × RiskCall :=
  match s.services[c.service]? with
  | none => (s, c)
  | some service =>
    match c.pc with
    | .start => ({ s with services := s.services.set c.service (c.begin service).1 }, { c with pc := (c.begin service).2 })
    | .find w =>
      if c.env.readFails then (s, { c with pc := .finish w false none })
      else
        match s.events.get w.identityKey with
        | some row => (s, { c with pc := .finish w false (some row.id) })
        | none => (s, { c with pc := .insert w })
    | .insert w =>
      let stored := c.env.insertion.apply s.events (insertEvent s.events (c.event w))
      ({ s with events := stored.1 },
        { c with pc := if stored.2 then .finish w true (some c.env.recordId) else .finish w false none })
    | .finish w persisted recordId =>
      ({ s with services := s.services.set c.service (conclude service w persisted recordId).1 },
        { c with pc := (conclude service w persisted recordId).2 })
    | .fanOut w persisted recordId =>
      ({ s with notified := s.notified ++ [⟨c.service, w.identityKey, w.decision⟩] },
        { c with pc := .returned (outcome w persisted recordId) })
    | .returned _ => (s, c)
    | .raised _ => (s, c)

end RiskCall

/-! ### What a judgement does -/

section Judgement

variable {s : RiskService} {request : RiskAssessmentRequest} {intent : Option RiskOrderIntent} {mode key : String}
  {env : EvalEnv}

theorem isApproved_of_makeReject {ruleId code reason : String} {d : RiskDecision}
    (h : RiskService.makeReject request env ruleId code reason = .ok d) : d.isApproved = false := by
  have hv : d.verdict = .rejected := congrArg DecisionFields.verdict (RiskRuleEngine.fields_of_make h)
  simp only [RiskDecision.isApproved, hv]

/-- The judgement is sound for the key and the remembered decisions: a replay is one of them, an early decision is a
rejection, and another approval is bound to the key. -/
def Judgement.Sound (key : String) (decisions : List (String × RiskDecision)) : Judgement → Prop
  | .replay prior => (key, prior) ∈ decisions
  | .early d => d.isApproved = false
  | .final d _ => d.isApproved = true → d.bindingHash = some key

theorem sound_of_early {ruleId code reason : String} {decisions : List (String × RiskDecision)} {j : Judgement}
    (h : (RiskService.makeReject request env ruleId code reason).map .early = .ok j) : j.Sound key decisions := by
  obtain ⟨d, hd, rfl⟩ := map_eq_ok.mp h
  exact isApproved_of_makeReject hd

/-- What a judgement leaves as it is, and that it is sound. -/
structure Judged (s : RiskService) (key : String) (result : RiskService × Except RiskError Judgement) : Prop where
  decisions : result.1.decisions = s.decisions
  hasRepository : result.1.hasRepository = s.hasRepository
  capacity : result.1.capacity = s.capacity
  sound : ∀ j, result.2 = .ok j → j.Sound key s.decisions

theorem judged_context (s : RiskService) (snapshot : RiskSnapshot) (context : RiskEvaluationContext) :
    Judged s key (s.judgeContext request key env snapshot context) := by
  unfold RiskService.judgeContext
  cases validate context with
  | error e => exact ⟨rfl, rfl, rfl, fun j h => by cases h⟩
  | ok problems =>
    cases problems with
    | cons problem problems => exact ⟨rfl, rfl, rfl, fun j h => sound_of_early h⟩
    | nil =>
      dsimp only
      cases s.engine.evaluate request context env.engine with
      | error e => exact ⟨rfl, rfl, rfl, fun j h => by cases h⟩
      | ok d => exact ⟨rfl, rfl, rfl, fun j h => by cases h; exact RiskDecision.bindingHash_bind⟩

/-- The breakers do not matter. -/
theorem Judged.of_breaker {breaker : CircuitBreakerRegistry} {result : RiskService × Except RiskError Judgement}
    (h : Judged { s with breaker := breaker } key result) : Judged s key result :=
  ⟨h.decisions, h.hasRepository, h.capacity, h.sound⟩

theorem judged_new : Judged s key (s.judgeNew request intent mode key env) := by
  unfold RiskService.judgeNew
  dsimp only
  cases (RiskService.checkScopes (instant env.now) (RiskService.scopes request.signal) s.breaker).2 with
  | some scope => exact ⟨rfl, rfl, rfl, fun j h => sound_of_early h⟩
  | none =>
    dsimp only
    split
    · exact ⟨rfl, rfl, rfl, fun j h => sound_of_early h⟩
    · exact ⟨rfl, rfl, rfl, fun j h => sound_of_early h⟩
    · exact (judged_context _ _ _).of_breaker

theorem sound_judgePrior {prior : RiskDecision} {j : Judgement} (hmem : (key, prior) ∈ s.decisions)
    (h : RiskService.judgePrior request key env prior = .ok j) : j.Sound key s.decisions := by
  unfold RiskService.judgePrior at h
  split at h
  · obtain ⟨usable, -, h⟩ := bind_eq_ok.mp h
    cases usable with
    | true => cases h; exact hmem
    | false =>
      obtain ⟨d, hd, h⟩ := bind_eq_ok.mp h
      cases h
      exact isApproved_of_makeReject hd
  · cases h
    exact hmem

/-- **A judgement touches neither what is remembered nor the configuration, and it is sound.** -/
theorem judged (s : RiskService) (request : RiskAssessmentRequest) (intent : Option RiskOrderIntent)
    (mode key : String) (env : EvalEnv) : Judged s key (s.judge request intent mode key env) := by
  unfold RiskService.judge
  by_cases hmode : mode ∉ allowedModes
  · rw [if_pos hmode]
    exact ⟨rfl, rfl, rfl, fun j h => sound_of_early h⟩
  · rw [if_neg hmode]
    cases hl : s.decisions.lookup key with
    | none => exact judged_new
    | some prior =>
      obtain ⟨l, l', hdecisions, -⟩ := List.lookup_eq_some_iff.mp hl
      have hmem : (key, prior) ∈ s.decisions := by rw [hdecisions]; simp
      exact ⟨rfl, rfl, rfl, fun j h => sound_judgePrior hmem h⟩

end Judgement

/-! ### What a step does -/

theorem mem_recordSeen {s : RiskService} {key : String} {d : RiskDecision} {e : String × RiskDecision}
    (h : e ∈ (s.recordSeen key d).1.decisions) : e ∈ s.decisions ∨ e = (key, d) := by
  have h' : e ∈ s.decisions.filter (fun e => e.1 ≠ key) ++ [(key, d)] := List.mem_of_mem_drop h
  rcases List.mem_append.mp h' with h' | h'
  · exact .inl (List.mem_of_mem_filter h')
  · exact .inr (List.mem_singleton.mp h')

@[simp] theorem hasRepository_recordSeen (s : RiskService) (key : String) (d : RiskDecision) :
    (s.recordSeen key d).1.hasRepository = s.hasRepository := rfl

namespace RiskCall

variable {c : RiskCall} {s : RiskShared} {service : RiskService} {w : Pending} {persisted : Bool}
  {recordId : Option UUID}

/-- Where a call is after its first step. -/
inductive Begun (c : RiskCall) (service : RiskService) : RiskPc → Prop
  | raised (e : RiskError) : Begun c service (.raised e)
  | replayed {key : String} {prior : RiskDecision} (hkey : c.key = .ok key) (hprior : (key, prior) ∈ service.decisions) :
      Begun c service (.returned
        { decision := prior, status := .duplicate, priorDecisionId := some prior.decisionId })
  | judged {w : Pending} (hkey : c.key = .ok w.identityKey)
      (hbound : w.decision.isApproved = true → w.decision.bindingHash = some w.identityKey) :
      Begun c service (persist service w)

/-- The first step of a call: an entry that it adds to the memory is a rejection. -/
structure BeginSpec (c : RiskCall) (service : RiskService) (result : RiskService × RiskPc) : Prop where
  decisions : ∀ e ∈ result.1.decisions, e ∈ service.decisions ∨ e.2.isApproved = false
  hasRepository : result.1.hasRepository = service.hasRepository
  pc : Begun c service result.2

theorem beginSpec_proceed {key : String} {result : RiskService × Except RiskError Judgement} (hkey : c.key = .ok key)
    (h : Judged service key result) : BeginSpec c service (proceed key result) := by
  obtain ⟨service', j⟩ := result
  obtain ⟨hdecisions, hrepository, -, hsound⟩ := h
  dsimp only at hdecisions hrepository hsound
  have hpersist : ∀ w, persist service' w = persist service w := fun w => by rw [persist, persist, hrepository]
  cases j with
  | error e => exact ⟨fun e he => .inl (hdecisions ▸ he), hrepository, .raised e⟩
  | ok j =>
    have hj := hsound j rfl
    cases j with
    | replay prior => exact ⟨fun e he => .inl (hdecisions ▸ he), hrepository, .replayed hkey hj⟩
    | final d snapshotId =>
      refine ⟨fun e he => .inl (hdecisions ▸ he), hrepository, ?_⟩
      have hbegun : Begun c service (persist service ⟨key, d, false, some snapshotId⟩) :=
        .judged hkey hj
      rw [← hpersist] at hbegun
      exact hbegun
    | early d =>
      have hseen : ∀ e ∈ (service'.recordSeen key d).1.decisions, e ∈ service.decisions ∨ e.2.isApproved = false := by
        intro e he
        rcases mem_recordSeen he with he | rfl
        · exact .inl (hdecisions ▸ he)
        · exact .inr hj
      simp only [proceed]
      split
      · refine ⟨hseen, hrepository, ?_⟩
        have hbegun : Begun c service (persist service ⟨key, d, true, none⟩) :=
          .judged hkey fun happroved => (by rw [hj] at happroved; cases happroved)
        rw [← hpersist] at hbegun
        exact hbegun
      · exact ⟨hseen, hrepository, .raised .keyError⟩

theorem beginSpec (c : RiskCall) (service : RiskService) : BeginSpec c service (c.begin service) := by
  unfold begin
  cases hkey : c.key with
  | error e => exact ⟨fun e he => .inl he, rfl, .raised e⟩
  | ok key =>
    cases c.request with
    | error e => exact ⟨fun e he => .inl he, rfl, .raised e⟩
    | ok request => exact beginSpec_proceed hkey (judged _ _ _ _ _ _)

/-- Where a call is after it has heard of the database. -/
inductive Concluded (w : Pending) (persisted : Bool) (recordId : Option UUID) : RiskPc → Prop
  | raised : Concluded w persisted recordId (.raised .keyError)
  | returned : Concluded w persisted recordId (.returned (outcome w persisted recordId))
  | fanOut (happroved : w.decision.isApproved = true) (hearly : w.early = false) :
      Concluded w persisted recordId (.fanOut w persisted recordId)

/-- With a repository, an approval is remembered and told only when it was inserted. -/
structure ConcludeSpec (service : RiskService) (w : Pending) (persisted : Bool) (recordId : Option UUID)
    (result : RiskService × RiskPc) : Prop where
  decisions : ∀ e ∈ result.1.decisions, e ∈ service.decisions ∨ e = (w.identityKey, w.decision)
  hasRepository : result.1.hasRepository = service.hasRepository
  pc : Concluded w persisted recordId result.2
  told : service.hasRepository = true → result.2 = .fanOut w persisted recordId → persisted = true

theorem concludeSpec (service : RiskService) (w : Pending) (persisted : Bool) (recordId : Option UUID) :
    ConcludeSpec service w persisted recordId (conclude service w persisted recordId) := by
  unfold conclude
  split_ifs with hskip hseen happroved
  · exact ⟨fun e he => .inl he, rfl, .returned, fun _ h => by cases h⟩
  · exact ⟨fun e he => mem_recordSeen he, rfl, .raised, fun _ h => by cases h⟩
  · simp only [Bool.or_eq_true, not_or, Bool.not_eq_true, happroved, Bool.true_and] at hskip
    refine ⟨fun e he => mem_recordSeen he, rfl, .fanOut happroved hskip.1, fun hrepository _ => ?_⟩
    simpa [hrepository] using hskip.2
  · exact ⟨fun e he => mem_recordSeen he, rfl, .returned, fun _ h => by cases h⟩

end RiskCall

/-- The step of a call `c` over `s`, with the state and the program counter after it. -/
inductive RiskStep (s : RiskShared) (c : RiskCall) : RiskShared → RiskPc → Prop
  | idle (hpc : s.services[c.service]? = none ∨ (∃ o, c.pc = .returned o) ∨ ∃ e, c.pc = .raised e) :
      RiskStep s c s c.pc
  | began {service service' : RiskService} {pc : RiskPc} (hs : s.services[c.service]? = some service)
      (hpc : c.pc = .start) (hspec : RiskCall.BeginSpec c service (service', pc)) :
      RiskStep s c { s with services := s.services.set c.service service' } pc
  | readFailed {w : Pending} (hpc : c.pc = .find w) (hread : c.env.readFails = true) :
      RiskStep s c s (.finish w false none)
  | found {w : Pending} {row : RiskEvent} (hpc : c.pc = .find w) (hfound : s.events.get w.identityKey = some row) :
      RiskStep s c s (.finish w false (some row.id))
  | missing {w : Pending} (hpc : c.pc = .find w) : RiskStep s c s (.insert w)
  | inserted {w : Pending} {events : RiskEvents} (hpc : c.pc = .insert w)
      (hinsert : insertEvent s.events (c.event w) = some events) :
      RiskStep s c { s with events := events } (.finish w true (some c.env.recordId))
  | unanswered {w : Pending} {events : RiskEvents} (hpc : c.pc = .insert w)
      (hinsert : insertEvent s.events (c.event w) = some events) (hlost : c.env.insertion ≠ .answered) :
      RiskStep s c { s with events := events } (.finish w false none)
  | refused {w : Pending} (hpc : c.pc = .insert w)
      (hlost : c.env.insertion ≠ .answered ∨ insertEvent s.events (c.event w) = none) :
      RiskStep s c s (.finish w false none)
  | concluded {service service' : RiskService} {w : Pending} {persisted : Bool} {recordId : Option UUID}
      {pc : RiskPc} (hs : s.services[c.service]? = some service) (hpc : c.pc = .finish w persisted recordId)
      (hspec : RiskCall.ConcludeSpec service w persisted recordId (service', pc)) :
      RiskStep s c { s with services := s.services.set c.service service' } pc
  | told {w : Pending} {persisted : Bool} {recordId : Option UUID} (hpc : c.pc = .fanOut w persisted recordId) :
      RiskStep s c { s with notified := s.notified ++ [⟨c.service, w.identityKey, w.decision⟩] }
        (.returned (RiskCall.outcome w persisted recordId))

/-- Only the program counter of a call changes. -/
theorem RiskCall.next_eq (s : RiskShared) (c : RiskCall) : (c.next s).2 = { c with pc := (c.next s).2.pc } := by
  unfold RiskCall.next
  cases s.services[c.service]? with
  | none => rfl
  | some service =>
    cases hpc : c.pc with
    | find w =>
      dsimp only
      split
      · rfl
      · split <;> rfl
    | start | insert _ | finish _ _ _ | fanOut _ _ _ | returned _ | raised _ => rfl

/-- **Every step is one of these.** -/
theorem riskStep_next (s : RiskShared) (c : RiskCall) : RiskStep s c (c.next s).1 (c.next s).2.pc := by
  unfold RiskCall.next
  cases hs : s.services[c.service]? with
  | none => exact .idle (.inl hs)
  | some service =>
    cases hpc : c.pc with
    | start => exact .began hs hpc (RiskCall.beginSpec c service)
    | find w =>
      dsimp only
      cases hread : c.env.readFails with
      | true => exact .readFailed hpc hread
      | false =>
        simp only [Bool.false_eq_true, if_false]
        cases hfound : s.events.get w.identityKey with
        | some row => exact .found hpc hfound
        | none => exact .missing hpc
    | insert w =>
      dsimp only
      rcases Commit.apply_cases c.env.insertion s.events (insertEvent s.events (c.event w)) with
        ⟨-, events, hinsert, heq⟩ | heq | ⟨events, hinsert, heq⟩
      · rw [heq]
        exact .inserted hpc hinsert
      · rw [heq]
        refine .refused hpc ?_
        by_contra hnot
        obtain ⟨hanswered, hsome⟩ := not_or.mp hnot
        obtain ⟨events, hinsert⟩ := Option.ne_none_iff_exists'.mp hsome
        rw [not_not.mp hanswered, hinsert] at heq
        cases heq
      · rw [heq]
        refine .unanswered hpc hinsert fun hanswered => ?_
        rw [hanswered, hinsert] at heq
        cases heq
    | finish w persisted recordId => exact .concluded hs hpc (RiskCall.concludeSpec service w persisted recordId)
    | fanOut w persisted recordId => exact .told hpc
    | returned o =>
      dsimp only
      rw [hpc, ← hpc]
      exact .idle (.inr (.inl ⟨o, hpc⟩))
    | raised e =>
      dsimp only
      rw [hpc, ← hpc]
      exact .idle (.inr (.inr ⟨e, hpc⟩))

end AlphaAlgo.Risk
