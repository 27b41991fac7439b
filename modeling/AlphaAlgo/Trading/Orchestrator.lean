import AlphaAlgo.Risk.ServiceRuns

/-!
# Orchestrator — from an accepted signal to the hand-off

`TradingOrchestrator.process_signal` checks the signal, resolves the order intent, has the risk service evaluate it,
validates the approval, stores a trading intent and hands it to the OMS.  A call is a program that stops before each
access to what it shares with others: the risk service, the memory of the orchestrator, the table `trading_intents`,
and the OMS port.

* `tradingStep_next`: what one step of a call can do.
-/

namespace AlphaAlgo.Trading

open Risk
open Loop (bind_eq_ok)

/-! ### Signals and states -/

inductive SignalState where
  | received
  | validated
  | accepted
  | persisted
  | rejected
  | duplicate
  | conflict
  | expired
deriving DecidableEq

def SignalState.value : SignalState → String
  | received => "received"
  | validated => "validated"
  | accepted => "accepted"
  | persisted => "persisted"
  | rejected => "rejected"
  | duplicate => "duplicate"
  | conflict => "conflict"
  | expired => "expired"

structure SignalRecord where
  signal : StrategySignal
  identityKey : String
  state : SignalState

inductive OrchestrationState where
  | received
  | validated
  | riskEvaluated
  | approved
  | omsHandoffReady
  | rejected
  | failed
  | duplicate
deriving DecidableEq

/-- What `process_signal` raises. -/
inductive OrchestrationError where
  | risk (e : RiskError)
  | illegalTransition (state target : OrchestrationState)
  | arithmetic (e : ArithError)
  | keyError
deriving DecidableEq

/-- `_TRANSITIONS`; the other states are terminal. -/
def transitions : OrchestrationState → List OrchestrationState
  | .received => [.validated, .rejected]
  | .validated => [.riskEvaluated, .rejected]
  | .riskEvaluated => [.approved, .rejected]
  | .approved => [.omsHandoffReady, .failed]
  | _ => []

def transition (state target : OrchestrationState) : Except OrchestrationError OrchestrationState :=
  if target ∈ transitions state then .ok target else .error (.illegalTransition state target)

/-! ### Intents and their table -/

/-- `compute_orchestration_identity_key`, with the payload keys sorted. -/
def orchestrationIdentityKey (signal : StrategySignal) (intent : Option RiskOrderIntent) (tradingMode : String) :
    Except RiskError String := do
  return sha256 ((Json.obj [("account_id", .ofOption ((intent.bind RiskOrderIntent.accountId).map UUID.str)),
    ("order_type", .ofOption (intent.map RiskOrderIntent.orderType)),
    ("quantity", .ofOption ((intent.bind RiskOrderIntent.quantity).map Decimal.str)),
    ("signal_identity", .str (← signalIdentityKey signal)), ("strategy_run_id", .ofOption signal.strategyRunId),
    ("trading_mode", .str (upper tradingMode))]).dumps .compact)

/-- The value of a hexadecimal digit. -/
def hexValue (c : Char) : Option ℕ :=
  if '0' ≤ c ∧ c ≤ '9' then some (c.toNat - 48)
  else if 'a' ≤ c ∧ c ≤ 'f' then some (c.toNat - 87)
  else if 'A' ≤ c ∧ c ≤ 'F' then some (c.toNat - 55)
  else none

/-- `UUID(s)`: 32 hexadecimal digits, dashes apart, maybe in braces or after a prefix.  Signs and underscores between
the digits are not read. -/
def parseUuid (s : String) : Option UUID :=
  let text := ((s.replace "urn:" "").replace "uuid:" "").toList
  let digits := ((text.dropWhile ("{}".toList.contains ·)).rdropWhile ("{}".toList.contains ·)).filter (· ≠ '-')
  if digits.length = 32 then
    (digits.mapM hexValue).map fun values => ⟨BitVec.ofNat 128 (values.foldl (fun a d => 16 * a + d) 0)⟩
  else none

/-- `_parse_run_id`. -/
def parseRunId (signal : StrategySignal) : Option UUID := signal.strategyRunId.bind parseUuid

/-- The payload of a hand-off. -/
structure TradingIntent where
  correlationId : UUID
  orchestrationId : String
  accountId : Option UUID
  strategyId : UUID
  strategyVersion : String
  strategyConfigHash : String
  strategyRunId : Option UUID
  signalId : UUID
  signalIdentityKey : String
  instrumentId : UUID
  action : String
  quantity : Decimal
  orderType : String
  limitPrice : Option Decimal
  tradingMode : String
  riskDecisionId : UUID
  approvalId : UUID
  approvalExpiresAt : DateTime
  bindingHash : String

/-- A row of `trading_intents`. -/
structure TradingIntentRecord where
  id : UUID
  orchestrationId : String
  correlationId : Option String
  signalId : UUID
  strategyId : UUID
  strategyVersion : String
  strategyConfigHash : String
  strategyRunId : Option UUID
  accountId : Option UUID
  instrumentId : UUID
  action : String
  orderType : Option String
  quantity : Option Decimal
  limitPrice : Option Decimal
  tradingMode : String
  riskDecisionId : Option UUID
  approvalId : Option String
  approvalExpiresAt : Option DateTime
  bindingHash : Option String
  state : OrchestrationState
  reasonCode : Option String
  reason : Option String

/-- `to_orm_trading_intent`; the row draws its id. -/
def toOrmTradingIntent (id : UUID) (t : TradingIntent) (state : OrchestrationState) : TradingIntentRecord where
  id := id
  orchestrationId := t.orchestrationId
  correlationId := some t.correlationId.str
  signalId := t.signalId
  strategyId := t.strategyId
  strategyVersion := t.strategyVersion
  strategyConfigHash := t.strategyConfigHash
  strategyRunId := t.strategyRunId
  accountId := t.accountId
  instrumentId := t.instrumentId
  action := t.action
  orderType := some t.orderType
  quantity := some t.quantity
  limitPrice := t.limitPrice
  tradingMode := t.tradingMode
  riskDecisionId := some t.riskDecisionId
  approvalId := some t.approvalId.str
  approvalExpiresAt := some t.approvalExpiresAt
  bindingHash := some t.bindingHash
  state := state
  reasonCode := none
  reason := none

/-- `to_orm_rejection`: no approval, no correlation. -/
def toOrmRejection (id : UUID) (signal : StrategySignal) (intent : Option RiskOrderIntent) (tradingMode : String)
    (orchestrationId reasonCode reason : String) (decision : Option RiskDecision) : TradingIntentRecord where
  id := id
  orchestrationId := orchestrationId
  correlationId := none
  signalId := signal.signalId
  strategyId := signal.strategyId
  strategyVersion := signal.strategyVersion
  strategyConfigHash := signal.strategyConfigHash
  strategyRunId := parseRunId signal
  accountId := intent.bind RiskOrderIntent.accountId
  instrumentId := signal.instrumentId
  action := signal.action.value
  orderType := intent.map RiskOrderIntent.orderType
  quantity := intent.bind RiskOrderIntent.quantity
  limitPrice := none
  tradingMode := tradingMode
  riskDecisionId := decision.map fun d => d.decisionId
  approvalId := none
  approvalExpiresAt := none
  bindingHash := none
  state := .rejected
  reasonCode := some reasonCode
  reason := some reason

/-- The rows, unique by orchestration id. -/
abbrev TradingIntents := Table TradingIntentRecord String TradingIntentRecord.orchestrationId

/-- The insertion of a row; `none` when a unique column is violated. -/
def insertRecord (records : TradingIntents) (r : TradingIntentRecord) : Option TradingIntents :=
  if records.rows.all fun x => x.id ≠ r.id && (r.approvalId.isNone || x.approvalId ≠ r.approvalId) then
    records.insert? r
  else none

/-! ### The orchestrator -/

structure OrchestrationResult where
  state : OrchestrationState
  intent : Option TradingIntent := none
  riskDecision : Option RiskDecision := none
  persisted : Bool := false
  recordId : Option UUID := none
  handoffDelivered : Bool := false
  reasonCode : Option String := none
  reason : String := ""

/-- The state of an orchestrator: its risk service, and the intents it remembers, the oldest first. -/
structure Orchestrator where
  riskService : ℕ
  hasRepository : Bool := true
  capacity : ℤ := 4096
  handedOff : List (String × TradingIntent) := []

/-- `_remember_handed_off`, and whether it returns: with a negative capacity the eviction runs out of entries. -/
def Orchestrator.remember (o : Orchestrator) (identity : String) (t : TradingIntent) : Orchestrator × Bool :=
  let handedOff := if o.handedOff.any (fun e => e.1 = identity) then
      o.handedOff.map fun e => if e.1 = identity then (identity, t) else e
    else o.handedOff ++ [(identity, t)]
  ({ o with handedOff := handedOff.drop (handedOff.length - o.capacity).toNat }, decide (0 ≤ o.capacity))

/-- What a call gets from outside: the reading of its clock, the answer of the intent resolver, what its evaluation of
the risk gets, the identifiers it draws, and the answers of the database and of the OMS. -/
structure TradingEnv where
  now : DateTime
  resolved : Option RiskOrderIntent := none
  risk : EvalEnv
  correlationId : UUID
  recordId : UUID
  readFails : Bool := false
  insertion : Commit := .answered
  delivered : Bool := true

/-- An order intent whose quantity is given. -/
structure ResolvedIntent extends RiskOrderIntent where
  amount : Decimal
  given : quantity = some amount

/-- A trading intent that is ready, with what it was made from. -/
structure Ready where
  intent : ResolvedIntent
  decision : RiskDecision
  payload : TradingIntent

/-- The next access of a call to what it shares with others. -/
inductive TradingPc where
  | start
  | risk (intent : ResolvedIntent) (sub : RiskPc)
  | findRejection (row : TradingIntentRecord) (result : OrchestrationResult)
  | insertRejection (row : TradingIntentRecord) (result : OrchestrationResult)
  | find (r : Ready)
  | insert (r : Ready)
  | remember (r : Ready) (persisted : Bool) (recordId : Option UUID)
  | handOff (r : Ready) (persisted : Bool) (recordId : Option UUID)
  | returned (result : OrchestrationResult)
  | raised (e : OrchestrationError)

/-- A call of `process_signal` on orchestrator number `orchestrator`. -/
structure TradingCall where
  orchestrator : ℕ
  record : SignalRecord
  tradingMode : String
  intent : Option RiskOrderIntent
  env : TradingEnv
  pc : TradingPc := .start

/-- A hand-off to the OMS: the request it was made for, and the payload. -/
structure HandOff where
  signal : StrategySignal
  intent : RiskOrderIntent
  tradingMode : String
  payload : TradingIntent

/-- The risk services, the orchestrators, the table they share, and the hand-offs so far. -/
structure TradingShared where
  risk : RiskShared
  orchestrators : List Orchestrator
  records : TradingIntents
  handOffs : List HandOff

namespace TradingCall

/-- The trading mode of the call. -/
def mode (c : TradingCall) : String := upper c.tradingMode

/-- The evaluation that the call makes. -/
def riskCall (c : TradingCall) (o : Orchestrator) (intent : ResolvedIntent) (sub : RiskPc) : RiskCall where
  service := o.riskService
  signal := c.record.signal
  intent := some intent.toRiskOrderIntent
  tradingMode := c.mode
  env := c.env.risk
  pc := sub

def rejection (reasonCode reason : String) (decision : Option RiskDecision) : OrchestrationResult where
  state := .rejected
  riskDecision := decision
  reasonCode := some reasonCode
  reason := reason

/-- `_reject`; a rejection by the risk service is stored. -/
def reject (c : TradingCall) (o : Orchestrator) (intent : Option RiskOrderIntent) (machine : OrchestrationState)
    (reasonCode reason : String) (persist : Bool) (decision : Option RiskDecision) : TradingPc :=
  match transition machine .rejected with
  | .error e => .raised e
  | .ok _ =>
    if persist && o.hasRepository then
      match orchestrationIdentityKey c.record.signal intent c.mode with
      | .error e => .raised (.risk e)
      | .ok orchestrationId => .findRejection
          (toOrmRejection c.env.recordId c.record.signal intent c.mode orchestrationId reasonCode reason decision)
          (rejection reasonCode reason decision)
    else .returned (rejection reasonCode reason decision)

def tradableActions : List SignalAction := [.buy, .sell, .exit]

/-- Step 5: an order intent with a positive quantity, or the rejection. -/
def resolve (c : TradingCall) (o : Orchestrator) (machine : OrchestrationState) : TradingPc :=
  match c.intent <|> c.env.resolved with
  | none => c.reject o none machine "INTENT_UNAVAILABLE" "no valid order quantity resolved" false none
  | some intent =>
    match h : intent.quantity with
    | none => c.reject o (some intent) machine "INTENT_UNAVAILABLE" "no valid order quantity resolved" false none
    | some quantity =>
      match quantity.num.le? (.fin 0) with
      | .error e => .raised (.arithmetic e)
      | .ok true =>
        c.reject o (some intent) machine "INTENT_UNAVAILABLE" "no valid order quantity resolved" false none
      | .ok false => .risk ⟨intent, quantity, h⟩ .start

/-- Steps 1 to 5: the checks of the signal, and the order intent. -/
def begin (c : TradingCall) (o : Orchestrator) : TradingPc :=
  if c.mode ∉ allowedModes then
    c.reject o c.intent .received "LIVE_MODE_BLOCKED" ("trading mode not allowed: " ++ c.mode) false none
  else if c.record.state ≠ .persisted then
    c.reject o c.intent .received "SIGNAL_NOT_ACCEPTED"
      ("signal not accepted (state=" ++ c.record.state.value ++ ")") false none
  else
    match Risk.signalIdentityKey c.record.signal with
    | .error e => .raised (.risk e)
    | .ok key =>
      if c.record.identityKey ≠ key then
        c.reject o c.intent .received "SIGNAL_IDENTITY_MISMATCH" "signal record identity does not match the signal" false
          none
      else
        match transition .received .validated with
        | .error e => .raised e
        | .ok machine =>
          if c.record.signal.action ∉ tradableActions then
            c.reject o c.intent machine "ACTION_NOT_TRADABLE"
              ("action " ++ c.record.signal.action.value ++ " does not create a trading intent") false none
          else c.resolve o machine

/-- `_build_intent`, for an approval and the keys that were computed. -/
def buildIntent (c : TradingCall) (intent : ResolvedIntent) (decision : RiskDecision) (approvalId : UUID)
    (expiresAt : DateTime) (orchestrationId binding : String) : TradingIntent where
  correlationId := c.env.correlationId
  orchestrationId := orchestrationId
  accountId := intent.accountId
  strategyId := c.record.signal.strategyId
  strategyVersion := c.record.signal.strategyVersion
  strategyConfigHash := c.record.signal.strategyConfigHash
  strategyRunId := parseRunId c.record.signal
  signalId := c.record.signal.signalId
  signalIdentityKey := c.record.identityKey
  instrumentId := c.record.signal.instrumentId
  action := c.record.signal.action.value
  quantity := intent.amount
  orderType := intent.orderType
  limitPrice := intent.limitPrice
  tradingMode := c.mode
  riskDecisionId := decision.decisionId
  approvalId := approvalId
  approvalExpiresAt := expiresAt
  bindingHash := binding

/-- The result for an intent that was handed off before. -/
def duplicateResult (r : Ready) : OrchestrationResult where
  state := .duplicate
  intent := some r.payload
  riskDecision := some r.decision
  reasonCode := some "DUPLICATE_ORCHESTRATION"
  reason := "signal already produced a trading intent"

def failedResult (r : Ready) : OrchestrationResult where
  state := .failed
  intent := some r.payload
  riskDecision := some r.decision
  reasonCode := some "PERSISTENCE_FAILED"
  reason := "failed to durably persist the trading intent"

/-- Step 9 up to the database: the memory of the orchestrator first. -/
def prepare (o : Orchestrator) (r : Ready) : TradingPc :=
  if o.handedOff.any fun e => e.1 = r.payload.orchestrationId then .returned (duplicateResult r)
  else if o.hasRepository then .find r
  else .remember r false none

/-- Steps 7 and 8 for an approval: it must be usable and bound to the request. -/
def validate (c : TradingCall) (o : Orchestrator) (machine : OrchestrationState) (intent : ResolvedIntent)
    (decision : RiskDecision) (approvalId : UUID) (expiresAt : DateTime) : Except RiskError TradingPc := do
  let binding ← riskIdentityKey c.record.signal (some intent.toRiskOrderIntent) c.mode
  if ← approvalIsUsable decision c.env.now binding then
    match transition machine .approved with
    | .error e => return .raised e
    | .ok _ =>
      let orchestrationId ← orchestrationIdentityKey c.record.signal (some intent.toRiskOrderIntent) c.mode
      return prepare o ⟨intent, decision, c.buildIntent intent decision approvalId expiresAt orchestrationId binding⟩
  else
    return c.reject o (some intent.toRiskOrderIntent) machine "PRIOR_APPROVAL_INVALID" "approval expired or unbound" true
      (some decision)

/-- The call after the evaluation. -/
def resume (c : TradingCall) (o : Orchestrator) (intent : ResolvedIntent) (outcome : RiskEvaluationOutcome) :
    TradingPc :=
  match transition .validated .riskEvaluated with
  | .error e => .raised e
  | .ok machine =>
    match outcome.decision.verdict with
    | .rejected => c.reject o (some intent.toRiskOrderIntent) machine outcome.decision.reasonCode
        outcome.decision.reason true (some outcome.decision)
    | .approved approvalId expiresAt =>
      match c.validate o machine intent outcome.decision approvalId expiresAt with
      | .error e => .raised (.risk e)
      | .ok pc => pc

/-- The result of a call that handed off. -/
def readyResult (c : TradingCall) (r : Ready) (persisted : Bool) (recordId : Option UUID) : OrchestrationResult where
  state := .omsHandoffReady
  intent := some r.payload
  riskDecision := some r.decision
  persisted := persisted
  recordId := recordId
  handoffDelivered := c.env.delivered

/-- The row of a ready intent. -/
def row (c : TradingCall) (r : Ready) : TradingIntentRecord :=
  toOrmTradingIntent c.env.recordId r.payload .omsHandoffReady

/-- A rejection after the attempt to store it. -/
def stored (result : OrchestrationResult) (persisted : Bool) (recordId : Option UUID) : TradingPc :=
  .returned { result with persisted := persisted, recordId := recordId }

/-- What is remembered before the hand-off, and the machine's last transition. -/
def keep (o : Orchestrator) (r : Ready) (persisted : Bool) (recordId : Option UUID) : Orchestrator × TradingPc :=
  let kept := o.remember r.payload.orchestrationId r.payload
  (kept.1, if kept.2 then
      match transition .approved .omsHandoffReady with
      | .error e => .raised e
      | .ok _ => .handOff r persisted recordId
    else .raised .keyError)

/-- The next step of the call. -/
def next (s : TradingShared) (c : TradingCall) : TradingShared × TradingCall :=
  match s.orchestrators[c.orchestrator]? with
  | none => (s, c)
  | some o =>
    match c.pc with
    | .start => (s, { c with pc := c.begin o })
    | .risk intent (.returned outcome) => (s, { c with pc := c.resume o intent outcome })
    | .risk _ (.raised e) => (s, { c with pc := .raised (.risk e) })
    | .risk intent sub =>
      ({ s with risk := ((c.riskCall o intent sub).next s.risk).1 },
        { c with pc := .risk intent ((c.riskCall o intent sub).next s.risk).2.pc })
    | .findRejection row result =>
      if c.env.readFails then (s, { c with pc := stored result false none })
      else
        match s.records.get row.orchestrationId with
        | some existing => (s, { c with pc := stored result false (some existing.id) })
        | none => (s, { c with pc := .insertRejection row result })
    | .insertRejection row result =>
      let done := c.env.insertion.apply s.records (insertRecord s.records row)
      ({ s with records := done.1 },
        { c with pc := if done.2 then stored result true (some row.id) else stored result false none })
    | .find r =>
      if c.env.readFails then (s, { c with pc := .returned (failedResult r) })
      else
        match s.records.get r.payload.orchestrationId with
        | some _ => (s, { c with pc := .returned (duplicateResult r) })
        | none => (s, { c with pc := .insert r })
    | .insert r =>
      let done := c.env.insertion.apply s.records (insertRecord s.records (c.row r))
      ({ s with records := done.1 },
        { c with pc := if done.2 then .remember r true (some c.env.recordId) else .returned (failedResult r) })
    | .remember r persisted recordId =>
      ({ s with orchestrators := s.orchestrators.set c.orchestrator (keep o r persisted recordId).1 },
        { c with pc := (keep o r persisted recordId).2 })
    | .handOff r persisted recordId =>
      ({ s with handOffs := s.handOffs ++ [⟨c.record.signal, r.intent.toRiskOrderIntent, c.mode, r.payload⟩] },
        { c with pc := .returned (c.readyResult r persisted recordId) })
    | .returned _ => (s, c)
    | .raised _ => (s, c)

end TradingCall

/-! ### What a step does -/

/-- Places from which a call makes no hand-off any more; a rejection that is to be stored has no approval. -/
inductive Refused : TradingPc → Prop
  | returned (result : OrchestrationResult) : Refused (.returned result)
  | raised (e : OrchestrationError) : Refused (.raised e)
  | rejection {row : TradingIntentRecord} {result : OrchestrationResult} (hrow : row.approvalId = none) :
      Refused (.findRejection row result)

namespace TradingCall

variable {c : TradingCall} {o : Orchestrator}

theorem refused_reject (c : TradingCall) (o : Orchestrator) (intent : Option RiskOrderIntent)
    (machine : OrchestrationState) (reasonCode reason : String) (persist : Bool) (decision : Option RiskDecision) :
    Refused (c.reject o intent machine reasonCode reason persist decision) := by
  unfold reject
  split
  · exact .raised _
  · split
    · split
      · exact .raised _
      · exact .rejection rfl
    · exact .returned _

/-- A call that starts is refused or goes to the risk service. -/
theorem begin_cases (c : TradingCall) (o : Orchestrator) :
    Refused (c.begin o) ∨ ∃ intent, c.begin o = .risk intent .start := by
  have hresolve : ∀ machine, Refused (c.resolve o machine) ∨ ∃ intent, c.resolve o machine = .risk intent .start := by
    intro machine
    unfold resolve
    split
    · exact .inl (refused_reject ..)
    · split
      · exact .inl (refused_reject ..)
      · split
        · exact .inl (.raised _)
        · exact .inl (refused_reject ..)
        · exact .inr ⟨_, rfl⟩
  unfold begin
  split
  · exact .inl (refused_reject ..)
  · split
    · exact .inl (refused_reject ..)
    · split
      · exact .inl (.raised _)
      · split
        · exact .inl (refused_reject ..)
        · split
          · exact .inl (.raised _)
          · split
            · exact .inl (refused_reject ..)
            · exact hresolve _

/-- A ready intent of the call: its approval is the one of the decision, which is bound to the request. -/
structure MadeFor (c : TradingCall) (intent : ResolvedIntent) (decision : RiskDecision) (r : Ready) : Prop where
  intent_eq : r.intent = intent
  decision_eq : r.decision = decision
  approved : decision.approvalId = some r.payload.approvalId
  binding : riskIdentityKey c.record.signal (some intent.toRiskOrderIntent) c.mode = .ok r.payload.bindingHash
  bound : decision.bindingHash = some r.payload.bindingHash

/-- A call that resumes is refused or prepares an intent. -/
theorem resume_cases (c : TradingCall) (o : Orchestrator) (intent : ResolvedIntent) (outcome : RiskEvaluationOutcome) :
    Refused (c.resume o intent outcome) ∨
      ∃ r, c.resume o intent outcome = prepare o r ∧ c.MadeFor intent outcome.decision r := by
  unfold resume
  split
  · exact .inl (.raised _)
  · split
    · exact .inl (refused_reject ..)
    · rename_i approvalId expiresAt hverdict
      split
      · exact .inl (.raised _)
      · rename_i pc hvalidate
        obtain ⟨binding, hbinding, h⟩ := bind_eq_ok.mp hvalidate
        obtain ⟨usable, husable, h⟩ := bind_eq_ok.mp h
        cases usable with
        | false =>
          cases h
          exact .inl (refused_reject ..)
        | true =>
          simp only [if_true] at h
          split at h
          · cases h
            exact .inl (.raised _)
          · obtain ⟨orchestrationId, -, h⟩ := bind_eq_ok.mp h
            cases h
            refine .inr ⟨_, rfl, rfl, rfl, ?_, hbinding, ?_⟩
            · simp only [RiskDecision.approvalId, hverdict]
              rfl
            · simp only [approvalIsUsable, hverdict] at husable
              split_ifs at husable
              simp only [Except.ok.injEq, Bool.and_eq_true, decide_eq_true_eq] at husable
              exact husable.2

end TradingCall

/-- The step of a call `c` over `s`, with the state and the program counter after it. -/
inductive TradingStep (s : TradingShared) (c : TradingCall) : TradingShared → TradingPc → Prop
  | idle : TradingStep s c s c.pc
  | refused {pc : TradingPc} (hrefused : Refused pc) : TradingStep s c s pc
  | began {intent : ResolvedIntent} (hpc : c.pc = .start) : TradingStep s c s (.risk intent .start)
  | evaluated {o : Orchestrator} {intent : ResolvedIntent} {sub : RiskPc}
      (ho : s.orchestrators[c.orchestrator]? = some o) (hpc : c.pc = .risk intent sub) :
      TradingStep s c { s with risk := ((c.riskCall o intent sub).next s.risk).1 }
        (.risk intent ((c.riskCall o intent sub).next s.risk).2.pc)
  | prepared {o : Orchestrator} {intent : ResolvedIntent} {outcome : RiskEvaluationOutcome} {r : Ready}
      (ho : s.orchestrators[c.orchestrator]? = some o) (hpc : c.pc = .risk intent (.returned outcome))
      (hmade : c.MadeFor intent outcome.decision r) : TradingStep s c s (TradingCall.prepare o r)
  | rejecting {row : TradingIntentRecord} {result : OrchestrationResult} (hpc : c.pc = .findRejection row result) :
      TradingStep s c s (.insertRejection row result)
  | rejected {row : TradingIntentRecord} {result : OrchestrationResult} {records : TradingIntents} {pc : TradingPc}
      (hpc : c.pc = .insertRejection row result) (hinsert : insertRecord s.records row = some records)
      (hrefused : Refused pc) : TradingStep s c { s with records := records } pc
  | missing {r : Ready} (hpc : c.pc = .find r) : TradingStep s c s (.insert r)
  | inserted {r : Ready} {records : TradingIntents} (hpc : c.pc = .insert r)
      (hinsert : insertRecord s.records (c.row r) = some records) :
      TradingStep s c { s with records := records } (.remember r true (some c.env.recordId))
  | unanswered {r : Ready} {records : TradingIntents} {pc : TradingPc} (hpc : c.pc = .insert r)
      (hinsert : insertRecord s.records (c.row r) = some records) (hrefused : Refused pc) :
      TradingStep s c { s with records := records } pc
  | kept {o o' : Orchestrator} {r : Ready} {persisted : Bool} {recordId : Option UUID} {pc : TradingPc}
      (ho : s.orchestrators[c.orchestrator]? = some o) (ho' : o'.hasRepository = o.hasRepository)
      (hpc : c.pc = .remember r persisted recordId) (hnext : pc = .handOff r persisted recordId ∨ Refused pc) :
      TradingStep s c { s with orchestrators := s.orchestrators.set c.orchestrator o' } pc
  | handedOff {r : Ready} {persisted : Bool} {recordId : Option UUID} (hpc : c.pc = .handOff r persisted recordId) :
      TradingStep s c
        { s with handOffs := s.handOffs ++ [⟨c.record.signal, r.intent.toRiskOrderIntent, c.mode, r.payload⟩] }
        (.returned (c.readyResult r persisted recordId))

/-- **Every step is one of these**, and only the program counter of the call changes. -/
theorem tradingStep_next (s : TradingShared) (c : TradingCall) :
    TradingStep s c (c.next s).1 (c.next s).2.pc ∧ (c.next s).2 = { c with pc := (c.next s).2.pc } := by
  unfold TradingCall.next
  cases ho : s.orchestrators[c.orchestrator]? with
  | none => exact ⟨.idle, rfl⟩
  | some o =>
    cases hpc : c.pc with
    | start =>
      refine ⟨?_, rfl⟩
      rcases c.begin_cases o with hrefused | ⟨intent, hbegin⟩
      · exact .refused hrefused
      · dsimp only
        rw [hbegin]
        exact .began hpc
    | risk intent sub =>
      cases sub with
      | returned outcome =>
        refine ⟨?_, rfl⟩
        rcases c.resume_cases o intent outcome with hrefused | ⟨r, hresume, hmade⟩
        · exact .refused hrefused
        · dsimp only
          rw [hresume]
          exact .prepared ho hpc hmade
      | raised e => exact ⟨.refused (.raised _), rfl⟩
      | start | find _ | insert _ | finish _ _ _ | fanOut _ _ _ => exact ⟨.evaluated ho hpc, rfl⟩
    | findRejection row result =>
      dsimp only
      split
      · exact ⟨.refused (.returned _), rfl⟩
      · split
        · exact ⟨.refused (.returned _), rfl⟩
        · exact ⟨.rejecting hpc, rfl⟩
    | insertRejection row result =>
      refine ⟨?_, rfl⟩
      dsimp only
      rcases Commit.apply_cases c.env.insertion s.records (insertRecord s.records row) with
        ⟨-, records, hinsert, heq⟩ | heq | ⟨records, hinsert, heq⟩
      · rw [heq]
        exact .rejected hpc hinsert (.returned _)
      · rw [heq]
        exact .refused (.returned _)
      · rw [heq]
        exact .rejected hpc hinsert (.returned _)
    | find r =>
      dsimp only
      split
      · exact ⟨.refused (.returned _), rfl⟩
      · split
        · exact ⟨.refused (.returned _), rfl⟩
        · exact ⟨.missing hpc, rfl⟩
    | insert r =>
      refine ⟨?_, rfl⟩
      dsimp only
      rcases Commit.apply_cases c.env.insertion s.records (insertRecord s.records (c.row r)) with
        ⟨-, records, hinsert, heq⟩ | heq | ⟨records, hinsert, heq⟩
      · rw [heq]
        exact .inserted hpc hinsert
      · rw [heq]
        exact .refused (.returned _)
      · rw [heq]
        exact .unanswered hpc hinsert (.returned _)
    | remember r persisted recordId =>
      refine ⟨.kept ho rfl hpc ?_, rfl⟩
      dsimp only [TradingCall.keep]
      split
      · exact .inl rfl
      · exact .inr (.raised _)
    | handOff r persisted recordId => exact ⟨.handedOff hpc, rfl⟩
    | returned result =>
      dsimp only
      rw [hpc, ← hpc]
      exact ⟨.idle, rfl⟩
    | raised e =>
      dsimp only
      rw [hpc, ← hpc]
      exact ⟨.idle, rfl⟩

end AlphaAlgo.Trading
