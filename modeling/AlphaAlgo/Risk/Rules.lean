import AlphaAlgo.Base.Values
import AlphaAlgo.Lib.Number
import AlphaAlgo.Lib.Table

/-!
# Rules — the risk rules and the rule engine

A rule of the risk engine is a list of tests in the order of the code: the first test that answers yes rejects with its
reason, a test that raises (a comparison with a NaN, or with a value that is absent) ends the rule, and a rule without
such a test passes.  `RiskRuleEngine.evaluate` runs the rules in order and approves when all of them pass.

Counts are `int`s, amounts are `Decimal`s (`Num`), and a limit that is absent is `none`.
-/

namespace AlphaAlgo.Risk

/-! ### Requests and contexts -/

inductive SignalAction where
  | buy
  | sell
  | exit
  | hold
deriving DecidableEq, Repr

def SignalAction.value : SignalAction → String
  | buy => "BUY"
  | sell => "SELL"
  | exit => "EXIT"
  | hold => "HOLD"

/-- `metadata["event_timestamp"]`: absent, a text that is no timestamp, or the instant that it denotes. -/
inductive EventTimestampEntry where
  | missing
  | malformed (raw : String)
  | at (t : DateTime)
deriving DecidableEq, Repr

/-- A signal, with the entries of its metadata that are read: the event timestamp and `str(strategy_run_id)`. -/
structure StrategySignal where
  signalId : UUID
  strategyId : UUID
  strategyVersion : String
  strategyConfigHash : String
  instrumentId : UUID
  action : SignalAction
  timestamp : DateTime
  eventTimestampEntry : EventTimestampEntry := .missing
  strategyRunId : Option String := none
deriving DecidableEq

/-- The last field is the check of the validator. -/
structure RiskAssessmentRequest where
  requestId : UUID
  signal : StrategySignal
  requestedAt : DateTime
  aware : requestedAt.aware = true

inductive RiskTradingMode where
  | backtest
  | paper
  | live
deriving DecidableEq, Repr

structure RiskEvaluationContext where
  tradingMode : RiskTradingMode := .live
  liveTradingEnabled : Bool := false
  globalHaltActive : Bool := true
  brokerConnected : Bool := false
  marketDataFresh : Bool := false
  marketSessionOpen : Bool := false
  instrumentAllowed : Bool := false
  duplicateSignal : Bool := true
  orderQuantity : Option Num := none
  maxOrderQuantity : Option Num := none
  projectedPositionQuantity : Option Num := none
  maxPositionQuantity : Option Num := none
  projectedExposure : Option Num := none
  maxExposure : Option Num := none
  dailyRealizedPnl : Option Num := none
  maxDailyLoss : Option Num := none
  strategyRealizedPnl : Option Num := none
  maxStrategyLoss : Option Num := none
  requiredMargin : Option Num := none
  availableMargin : Option Num := none
  openPositionsCount : Option ℤ := none
  maxOpenPositions : Option ℤ := none
  equityValue : Option Num := none
  highWaterMark : Option Num := none
  currentDrawdown : Option Num := none
  maxDrawdown : Option Num := none
  referencePrice : Option Num := none
  currentPrice : Option Num := none
  maxPriceDeviation : Option Num := none
  recentOrderCount : Option ℤ := none
  maxOrdersPerWindow : Option ℤ := none
  orderWindowSeconds : Option ℤ := none
  accountMaxOrderQuantity : Option Num := none
  accountMaxPositions : Option ℤ := none
  accountMaxExposure : Option Num := none
  accountMaxLoss : Option Num := none
  accountMaxOrderRate : Option ℤ := none
  accountDailyRealizedPnl : Option Num := none
  pendingExecutionCount : Option ℤ := none
  maxUnresolvedExecutions : Option ℤ := none
  retryCount : Option ℤ := none
  maxRetriesPerSignal : Option ℤ := none
  reservedQuantity : Option Num := none
  openOrderQuantity : Option Num := none

/-! ### Tests -/

/-- The exceptions of a rule, by the name of their type. -/
abbrev Raised := String

/-- The name of the type of a signal. -/
def raised : ArithError → Raised
  | .invalidOperation => "InvalidOperation"
  | .divisionByZero => "DivisionByZero"

/-- A comparison of two amounts; an amount that is absent does not compare. -/
def compare (test : Num → Num → Except ArithError Bool) : Option Num → Option Num → Except Raised Bool
  | some a, some b => (test a b).mapError raised
  | _, _ => .error "TypeError"

/-- `a < b`. -/
def less (a b : Option Num) : Except Raised Bool := compare Num.lt? a b

/-- `a <= b`. -/
def atMost (a b : Option Num) : Except Raised Bool := compare Num.le? a b

/-- A comparison of two counts. -/
def compareCounts (test : ℤ → ℤ → Bool) : Option ℤ → Option ℤ → Except Raised Bool
  | some a, some b => .ok (test a b)
  | _, _ => .error "TypeError"

/-- `x or y`: the second is asked when the first answers no. -/
def either (x y : Except Raised Bool) : Except Raised Bool :=
  match x with
  | .ok false => y
  | r => r

/-- `Decimal("0")`. -/
def zero : Option Num := some (.fin 0)

/-- One `if` of a rule, and the rejection it returns. -/
structure Test where
  holds : Except Raised Bool
  reasonCode : String
  reason : String

/-- The first test that answers yes; a test that raises ends the search. -/
def firstFailing : List Test → Except Raised (Option Test)
  | [] => .ok none
  | t :: l =>
    match t.holds with
    | .error e => .error e
    | .ok true => .ok (some t)
    | .ok false => firstFailing l

structure RuleEvaluation where
  passed : Bool
  ruleId : String
  reasonCode : String
  reason : String
deriving DecidableEq

def pass (ruleId : String) : RuleEvaluation := ⟨true, ruleId, "PASSED", "rule passed"⟩

def reject (ruleId reasonCode reason : String) : RuleEvaluation := ⟨false, ruleId, reasonCode, reason⟩

/-- A rule; `isGlobalHalt` is the test `isinstance(rule, GlobalHaltRule)`. -/
structure RiskRule where
  ruleId : String
  isGlobalHalt : Bool := false
  evaluate : RiskAssessmentRequest → RiskEvaluationContext → Except Raised RuleEvaluation

/-- The rule that makes the given tests. -/
def testRule (ruleId : String) (tests : RiskEvaluationContext → List Test) : RiskRule where
  ruleId := ruleId
  evaluate := fun _ c =>
    match firstFailing (tests c) with
    | .error e => .error e
    | .ok none => .ok (pass ruleId)
    | .ok (some t) => .ok (reject ruleId t.reasonCode t.reason)

/-! ### The rules -/

/-- The two tests of `_require_positive_pair`. -/
def requirePositivePair (currentValue limitValue : Option Num) (currentName limitName : String) : List Test :=
  [⟨.ok (currentValue.isNone || limitValue.isNone), "RISK_CONTEXT_MISSING",
      currentName ++ " and " ++ limitName ++ " are required"⟩,
    ⟨either (less currentValue zero) (atMost limitValue zero), "RISK_CONTEXT_INVALID",
      currentName ++ " must be non-negative and " ++ limitName ++ " must be positive"⟩]

def globalHaltTests (c : RiskEvaluationContext) : List Test :=
  [⟨.ok c.globalHaltActive, "GLOBAL_HALT_ACTIVE", "global trading halt is active"⟩]

def globalHaltRule : RiskRule := { testRule "core.global-halt" globalHaltTests with isGlobalHalt := true }

def liveModeTests (c : RiskEvaluationContext) : List Test :=
  [⟨.ok (c.tradingMode = .live && !c.liveTradingEnabled), "LIVE_MODE_DISABLED",
    "LIVE trading is not explicitly enabled"⟩]

def liveModeRule : RiskRule := testRule "core.live-mode-gate" liveModeTests

def brokerHealthTests (c : RiskEvaluationContext) : List Test :=
  [⟨.ok (!c.brokerConnected), "BROKER_DISCONNECTED", "broker connection is not healthy"⟩]

def brokerHealthRule : RiskRule := testRule "core.broker-health" brokerHealthTests

def marketDataFreshnessTests (c : RiskEvaluationContext) : List Test :=
  [⟨.ok (!c.marketDataFresh), "STALE_MARKET_DATA", "market data is stale or unavailable"⟩]

def marketDataFreshnessRule : RiskRule := testRule "core.market-data-freshness" marketDataFreshnessTests

def marketSessionTests (c : RiskEvaluationContext) : List Test :=
  [⟨.ok (!c.marketSessionOpen), "MARKET_SESSION_CLOSED", "market session is closed"⟩]

def marketSessionRule : RiskRule := testRule "core.market-session" marketSessionTests

def instrumentRestrictionTests (c : RiskEvaluationContext) : List Test :=
  [⟨.ok (!c.instrumentAllowed), "INSTRUMENT_BLOCKED", "instrument is not allowed"⟩]

def instrumentRestrictionRule : RiskRule := testRule "core.instrument-restriction" instrumentRestrictionTests

def quantityLimitTests (c : RiskEvaluationContext) : List Test :=
  requirePositivePair c.orderQuantity c.maxOrderQuantity "order_quantity" "max_order_quantity" ++
    [⟨.ok (c.orderQuantity = zero), "ZERO_QUANTITY", "order quantity must be positive"⟩,
      ⟨less c.maxOrderQuantity c.orderQuantity, "QUANTITY_LIMIT_EXCEEDED", "order quantity exceeds limit"⟩]

def quantityLimitRule : RiskRule := testRule "core.quantity-limit" quantityLimitTests

/-- The tests of an amount against a limit that has to be given. -/
def limitTests (currentValue limitValue : Option Num) (currentName limitName reasonCode reason : String) : List Test :=
  requirePositivePair currentValue limitValue currentName limitName ++
    [⟨less limitValue currentValue, reasonCode, reason⟩]

def positionLimitTests (c : RiskEvaluationContext) : List Test :=
  limitTests (c.projectedPositionQuantity.map (Num.abs .default)) c.maxPositionQuantity "projected_position_quantity"
    "max_position_quantity" "POSITION_LIMIT_EXCEEDED" "projected position exceeds limit"

def positionLimitRule : RiskRule := testRule "core.position-limit" positionLimitTests

def exposureLimitTests (c : RiskEvaluationContext) : List Test :=
  limitTests c.projectedExposure c.maxExposure "projected_exposure" "max_exposure" "EXPOSURE_LIMIT_EXCEEDED"
    "projected exposure exceeds limit"

def exposureLimitRule : RiskRule := testRule "core.exposure-limit" exposureLimitTests

def marginAvailabilityTests (c : RiskEvaluationContext) : List Test :=
  limitTests c.requiredMargin c.availableMargin "required_margin" "available_margin" "MARGIN_UNAVAILABLE"
    "required margin exceeds availability"

def marginAvailabilityRule : RiskRule := testRule "core.margin-availability" marginAvailabilityTests

/-- The tests of a realized result against a loss limit that has to be given. -/
def lossTests (pnl limit : Option Num) (pnlName limitName reasonCode reason : String) : List Test :=
  [⟨.ok (pnl.isNone || limit.isNone), "RISK_CONTEXT_MISSING", pnlName ++ " and " ++ limitName ++ " are required"⟩,
    ⟨atMost limit zero, "RISK_CONTEXT_INVALID", limitName ++ " must be positive"⟩,
    ⟨atMost pnl (limit.map (Num.neg .default)), reasonCode, reason⟩]

def dailyLossLimitTests (c : RiskEvaluationContext) : List Test :=
  lossTests c.dailyRealizedPnl c.maxDailyLoss "daily_realized_pnl" "max_daily_loss" "DAILY_LOSS_LIMIT_EXCEEDED"
    "daily loss limit reached"

def dailyLossLimitRule : RiskRule := testRule "core.daily-loss-limit" dailyLossLimitTests

def strategyLossLimitTests (c : RiskEvaluationContext) : List Test :=
  lossTests c.strategyRealizedPnl c.maxStrategyLoss "strategy_realized_pnl" "max_strategy_loss"
    "STRATEGY_LOSS_LIMIT_EXCEEDED" "strategy loss limit reached"

def strategyLossLimitRule : RiskRule := testRule "core.strategy-loss-limit" strategyLossLimitTests

def duplicateOrderProtectionTests (c : RiskEvaluationContext) : List Test :=
  [⟨.ok c.duplicateSignal, "DUPLICATE_SIGNAL", "duplicate signal detected"⟩]

def duplicateOrderProtectionRule : RiskRule :=
  testRule "core.duplicate-order-protection" duplicateOrderProtectionTests

/-- `a < 0 or b < 0`. -/
def anyNegative (a b : Option ℤ) : Except Raised Bool :=
  either (compareCounts (fun x y => x < y) a (some 0)) (compareCounts (fun x y => x < y) b (some 0))

def maximumOpenPositionsTests (c : RiskEvaluationContext) : List Test :=
  [⟨.ok (c.openPositionsCount.isNone || c.maxOpenPositions.isNone), "RISK_CONTEXT_MISSING",
      "open_positions_count and max_open_positions are required"⟩,
    ⟨anyNegative c.openPositionsCount c.maxOpenPositions, "RISK_CONTEXT_INVALID",
      "open position counts must be non-negative"⟩,
    ⟨compareCounts (fun n m => n ≥ m) c.openPositionsCount c.maxOpenPositions, "MAX_OPEN_POSITIONS_REACHED",
      "maximum simultaneous positions reached"⟩]

def maximumOpenPositionsRule : RiskRule := testRule "core.maximum-open-positions" maximumOpenPositionsTests

/-- The tests that are made when a limit is configured. -/
def ifSet {α : Type} (limit : Option α) (tests : List Test) : List Test := if limit.isSome then tests else []

/-- A configured account limit on a measured value. -/
def accountTests {α : Type} (limit current : Option α) (missing : String) (exceeded : Except Raised Bool)
    (reasonCode reason : String) : List Test :=
  ifSet limit [⟨.ok current.isNone, "RISK_CONTEXT_MISSING", missing⟩, ⟨exceeded, reasonCode, reason⟩]

def accountLimitTests (c : RiskEvaluationContext) : List Test :=
  accountTests c.accountMaxOrderQuantity c.orderQuantity "order_quantity is required for the account quantity limit"
      (less c.accountMaxOrderQuantity c.orderQuantity) "ACCOUNT_ORDER_QUANTITY_LIMIT_EXCEEDED"
      "account order-quantity limit exceeded" ++
    accountTests c.accountMaxPositions c.openPositionsCount
      "open_positions_count is required for the account position limit"
      (compareCounts (fun n m => n ≥ m) c.openPositionsCount c.accountMaxPositions) "ACCOUNT_POSITIONS_LIMIT_EXCEEDED"
      "account position limit reached" ++
    accountTests c.accountMaxExposure c.projectedExposure
      "projected_exposure is required for the account exposure limit" (less c.accountMaxExposure c.projectedExposure)
      "ACCOUNT_EXPOSURE_LIMIT_EXCEEDED" "account exposure limit exceeded" ++
    accountTests c.accountMaxLoss c.accountDailyRealizedPnl
      "account_daily_realized_pnl is required for the account loss limit"
      (atMost c.accountDailyRealizedPnl (c.accountMaxLoss.map (Num.neg .default))) "ACCOUNT_LOSS_LIMIT_EXCEEDED"
      "account loss limit reached" ++
    accountTests c.accountMaxOrderRate c.recentOrderCount
      "recent_order_count is required for the account order-rate limit"
      (compareCounts (fun n m => n ≥ m) c.recentOrderCount c.accountMaxOrderRate) "ACCOUNT_ORDER_RATE_EXCEEDED"
      "account order-rate limit exceeded"

def accountLimitRule : RiskRule := testRule "core.account-limits" accountLimitTests

def maximumDrawdownTests (c : RiskEvaluationContext) : List Test :=
  ifSet c.maxDrawdown
    [⟨.ok c.currentDrawdown.isNone, "RISK_CONTEXT_MISSING",
        "current_drawdown is required when a drawdown limit is configured"⟩,
      ⟨either (less c.maxDrawdown zero) (less c.currentDrawdown zero), "RISK_CONTEXT_INVALID",
        "drawdown values must be non-negative"⟩,
      ⟨less c.maxDrawdown c.currentDrawdown, "DRAWDOWN_LIMIT_EXCEEDED", "drawdown limit exceeded"⟩]

def maximumDrawdownRule : RiskRule := testRule "core.maximum-drawdown" maximumDrawdownTests

/-- `abs(current_price - reference_price) / reference_price`. -/
def priceDeviation (ctx : Ctx) (currentPrice referencePrice : Num) : Except ArithError Num := do
  let difference ← Num.sub? ctx currentPrice referencePrice
  Num.div? ctx (difference.abs ctx) referencePrice

/-- `deviation > max_price_deviation`. -/
def deviates (currentPrice referencePrice limit : Option Num) : Except Raised Bool :=
  match currentPrice, referencePrice with
  | some current, some reference =>
    match priceDeviation .default current reference with
    | .error e => .error (raised e)
    | .ok deviation => less limit (some deviation)
  | _, _ => .error "TypeError"

def priceDeviationTests (c : RiskEvaluationContext) : List Test :=
  ifSet c.maxPriceDeviation
    [⟨.ok (c.referencePrice.isNone || c.currentPrice.isNone), "RISK_CONTEXT_MISSING",
        "reference_price and current_price are required when a price-deviation limit is configured"⟩,
      ⟨atMost c.referencePrice zero, "RISK_CONTEXT_INVALID", "reference_price must be positive"⟩,
      ⟨atMost c.currentPrice zero, "PRICE_INVALID", "current price must be positive"⟩,
      ⟨less c.maxPriceDeviation zero, "RISK_CONTEXT_INVALID", "max_price_deviation must be non-negative"⟩,
      ⟨deviates c.currentPrice c.referencePrice c.maxPriceDeviation, "PRICE_DEVIATION_EXCEEDED",
        "price deviation from reference exceeds threshold"⟩]

def priceDeviationRule : RiskRule := testRule "core.price-deviation" priceDeviationTests

/-- The tests of a count against a configured limit. -/
def countTests (count limit : Option ℤ) (reached : ℤ → ℤ → Bool) (missing negative reasonCode reason : String) :
    List Test :=
  ifSet limit
    [⟨.ok count.isNone, "RISK_CONTEXT_MISSING", missing⟩, ⟨anyNegative count limit, "RISK_CONTEXT_INVALID", negative⟩,
      ⟨compareCounts reached count limit, reasonCode, reason⟩]

def orderFrequencyTests (c : RiskEvaluationContext) : List Test :=
  countTests c.recentOrderCount c.maxOrdersPerWindow (fun n m => n ≥ m)
    "recent_order_count is required when an order-frequency limit is configured" "order counts must be non-negative"
    "ORDER_FREQUENCY_LIMIT_EXCEEDED" "order frequency limit reached"

def orderFrequencyRule : RiskRule := testRule "core.order-frequency" orderFrequencyTests

def executionTimeoutTests (c : RiskEvaluationContext) : List Test :=
  countTests c.pendingExecutionCount c.maxUnresolvedExecutions (fun n m => n ≥ m)
    "pending_execution_count is required when an execution-timeout limit is configured"
    "execution counts must be non-negative" "UNRESOLVED_EXECUTIONS_LIMIT_EXCEEDED" "too many unresolved executions"

def executionTimeoutRule : RiskRule := testRule "core.execution-timeout" executionTimeoutTests

def retrySafetyTests (c : RiskEvaluationContext) : List Test :=
  countTests c.retryCount c.maxRetriesPerSignal (fun n m => n > m)
    "retry_count is required when a retry limit is configured" "retry counts must be non-negative"
    "MAX_RETRIES_EXCEEDED" "signal retry limit exceeded"

def retrySafetyRule : RiskRule := testRule "core.retry-safety" retrySafetyTests

def defaultRiskRules : List RiskRule :=
  [globalHaltRule, liveModeRule, brokerHealthRule, marketDataFreshnessRule, marketSessionRule,
    instrumentRestrictionRule, accountLimitRule, quantityLimitRule, positionLimitRule, exposureLimitRule,
    dailyLossLimitRule, strategyLossLimitRule, marginAvailabilityRule, maximumDrawdownRule, priceDeviationRule,
    orderFrequencyRule, duplicateOrderProtectionRule, maximumOpenPositionsRule, executionTimeoutRule, retrySafetyRule]

/-! ### Decisions -/

/-- Approved decisions carry an approval and its expiry, rejected ones do not. -/
inductive Verdict where
  | approved (approvalId : UUID) (expiresAt : DateTime)
  | rejected
deriving DecidableEq

/-- The fields of a decision; of its metadata, the rules that passed and the type of an exception. -/
structure DecisionFields where
  decisionId : UUID
  requestId : UUID
  signalId : UUID
  strategyId : UUID
  instrumentId : UUID
  verdict : Verdict
  reasonCode : String
  reason : String
  ruleId : String
  evaluatedAt : DateTime
  bindingHash : Option String := none
  snapshotId : Option UUID := none
  passedRuleIds : List String := []
  errorType : Option String := none
deriving DecidableEq

/-- A text field of a decision: not blank, at most `n` characters. -/
def validText (n : ℕ) (s : String) : Bool := !blank s && fits n s

/-- An approval expires after the evaluation. -/
def validVerdict (evaluatedAt : DateTime) : Verdict → Bool
  | .approved _ expiresAt => expiresAt.aware && expiresAt.le? evaluatedAt = some false
  | .rejected => true

/-- The validators of `RiskDecision`. -/
def DecisionFields.Valid (f : DecisionFields) : Prop :=
  validText 100 f.reasonCode = true ∧ validText 500 f.reason = true ∧ validText 100 f.ruleId = true ∧
    f.evaluatedAt.aware = true ∧ validVerdict f.evaluatedAt f.verdict = true

instance (f : DecisionFields) : Decidable f.Valid := inferInstanceAs (Decidable (_ ∧ _))

structure RiskDecision extends DecisionFields where
  valid : toDecisionFields.Valid
deriving DecidableEq

/-- What an evaluation raises. -/
inductive RiskError where
  | valueError (text : String)
  | validationError
  | overflowError
  | arithmetic (e : ArithError)
  | keyError
deriving DecidableEq

def DecisionFields.make (f : DecisionFields) : Except RiskError RiskDecision :=
  if h : f.Valid then .ok ⟨f, h⟩ else .error .validationError

def RiskDecision.isApproved (d : RiskDecision) : Bool :=
  match d.verdict with
  | .approved _ _ => true
  | .rejected => false

def RiskDecision.approvalId (d : RiskDecision) : Option UUID :=
  match d.verdict with
  | .approved approvalId _ => some approvalId
  | .rejected => none

/-! ### The engine -/

/-- The check of the constructor is a field. -/
structure RiskRuleEngine where
  rules : List RiskRule
  approvalTtl : ℤ := 30000000
  ttl_pos : 0 < approvalTtl := by decide

/-- The global halt rule comes first, unless there are no rules. -/
def withGlobalHaltFirst : Option (List RiskRule) → List RiskRule
  | none => defaultRiskRules
  | some [] => []
  | some (r :: l) =>
    if r.isGlobalHalt then r :: l else globalHaltRule :: (r :: l).filter fun x => !x.isGlobalHalt

def RiskRuleEngine.new (rules : Option (List RiskRule)) (approvalTtl : ℤ) : Except RiskError RiskRuleEngine :=
  if h : approvalTtl ≤ 0 then .error (.valueError "approval_ttl must be positive")
  else .ok ⟨withGlobalHaltFirst rules, approvalTtl, not_le.mp h⟩

/-- The reading of the clock and the identifiers drawn by an evaluation. -/
structure EngineEnv where
  evaluatedAt : DateTime
  decisionId : UUID
  approvalId : UUID

namespace RiskRuleEngine

/-- `_reject`. -/
def rejection (request : RiskAssessmentRequest) (env : EngineEnv) (ruleId reasonCode reason : String)
    (passedRuleIds : List String) (errorType : Option String) : Except RiskError RiskDecision :=
  DecisionFields.make
    { decisionId := env.decisionId, requestId := request.requestId, signalId := request.signal.signalId
      strategyId := request.signal.strategyId, instrumentId := request.signal.instrumentId, verdict := .rejected
      reasonCode := reasonCode, reason := reason, ruleId := ruleId, evaluatedAt := env.evaluatedAt
      passedRuleIds := passedRuleIds, errorType := errorType }

def approval (e : RiskRuleEngine) (request : RiskAssessmentRequest) (env : EngineEnv) (passedRuleIds : List String) :
    Except RiskError RiskDecision :=
  match env.evaluatedAt.add? e.approvalTtl with
  | none => .error .overflowError
  | some expiresAt => DecisionFields.make
      { decisionId := env.decisionId, requestId := request.requestId, signalId := request.signal.signalId
        strategyId := request.signal.strategyId, instrumentId := request.signal.instrumentId
        verdict := .approved env.approvalId expiresAt, reasonCode := "ALL_RULES_PASSED"
        reason := "all configured risk rules passed", ruleId := "core.risk-rule-engine"
        evaluatedAt := env.evaluatedAt, passedRuleIds := passedRuleIds }

/-- The loop over the rules; `passedRuleIds` are those before. -/
def runRules (e : RiskRuleEngine) (request : RiskAssessmentRequest) (context : RiskEvaluationContext)
    (env : EngineEnv) : List RiskRule → List String → Except RiskError RiskDecision
  | [], passedRuleIds => e.approval request env passedRuleIds
  | r :: l, passedRuleIds =>
    match r.evaluate request context with
    | .error err => rejection request env r.ruleId "RISK_RULE_ERROR" "risk rule raised an exception" [] (some err)
    | .ok result =>
      if result.passed then e.runRules request context env l (passedRuleIds ++ [result.ruleId])
      else rejection request env result.ruleId result.reasonCode result.reason passedRuleIds none

def evaluate (e : RiskRuleEngine) (request : RiskAssessmentRequest) (context : RiskEvaluationContext)
    (env : EngineEnv) : Except RiskError RiskDecision :=
  if !env.evaluatedAt.aware then .error (.valueError "clock must return a timezone-aware datetime")
  else if e.rules.isEmpty then
    rejection request env "core.fail-safe" "NO_RISK_RULES_CONFIGURED" "risk engine has no configured rules" [] none
  else e.runRules request context env e.rules []

end RiskRuleEngine

/-! ### The default engine -/

theorem defaultRiskRules_ne_nil : defaultRiskRules ≠ [] := by simp [defaultRiskRules]

theorem rules_of_new {ttl : ℤ} {e : RiskRuleEngine} (h : RiskRuleEngine.new none ttl = .ok e) :
    e.rules = defaultRiskRules := by
  unfold RiskRuleEngine.new at h
  split at h
  · cases h
  · cases h
    rfl

def sampleRequest : RiskAssessmentRequest where
  requestId := ⟨1⟩
  signal :=
    { signalId := ⟨2⟩, strategyId := ⟨3⟩, strategyVersion := "1.0.0", strategyConfigHash := "c0", instrumentId := ⟨4⟩
      action := .buy, timestamp := ⟨2026, 8, 12, 9, 15, 0, 0, some 0⟩ }
  requestedAt := ⟨2026, 8, 12, 9, 15, 1, 0, some 0⟩
  aware := rfl

def sampleEnv : EngineEnv := ⟨⟨2026, 8, 12, 9, 15, 2, 0, some 0⟩, ⟨5⟩, ⟨6⟩⟩

theorem ttl_pos_default : (0 : ℤ) < 30000000 := by decide

def defaultEngine : RiskRuleEngine := { rules := defaultRiskRules, ttl_pos := ttl_pos_default }

theorem new_default : RiskRuleEngine.new none 30000000 = .ok defaultEngine := rfl

end AlphaAlgo.Risk
