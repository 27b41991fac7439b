import AlphaAlgo.Lib.Number
import AlphaAlgo.Lib.Sha256
import AlphaAlgo.Base.Values

/-!
# Discrepancy — observations and the evidence of their differences

The observations that the reconciliation compares, the kinds of discrepancies with their severities, and
`discrepancy`, which builds the evidence with its key and content hash.  The `source` of an observation is read by
nothing and left out.
-/

namespace AlphaAlgo.Reconciliation

inductive Severity where
  | info
  | warning
  | high
  | critical
deriving DecidableEq, Repr

inductive EntityType where
  | order
  | execution
  | position
  | funds
deriving DecidableEq, Repr

def EntityType.value : EntityType → String
  | order => "ORDER"
  | execution => "EXECUTION"
  | position => "POSITION"
  | funds => "FUNDS"

inductive DiscrepancyKind where
  | match
  | internalOnly
  | brokerOnly
  | statusMismatch
  | quantityMismatch
  | priceMismatch
  | feeMismatch
  | averagePriceMismatch
  | sideMismatch
  | orderTypeMismatch
  | accountMismatch
  | instrumentMismatch
  | cashMismatch
  | marginMismatch
  | orderLinkMismatch
  | duplicateExecution
  | roundingDifference
  | conflict
  | unknown
  | stale
deriving DecidableEq, Repr

/-- An observation of one side only. -/
def DiscrepancyKind.oneSided (kind : DiscrepancyKind) : Bool := kind = internalOnly || kind = brokerOnly

def DiscrepancyKind.value : DiscrepancyKind → String
  | .match => "MATCH"
  | internalOnly => "INTERNAL_ONLY"
  | brokerOnly => "BROKER_ONLY"
  | statusMismatch => "STATUS_MISMATCH"
  | quantityMismatch => "QUANTITY_MISMATCH"
  | priceMismatch => "PRICE_MISMATCH"
  | feeMismatch => "FEE_MISMATCH"
  | averagePriceMismatch => "AVERAGE_PRICE_MISMATCH"
  | sideMismatch => "SIDE_MISMATCH"
  | orderTypeMismatch => "ORDER_TYPE_MISMATCH"
  | accountMismatch => "ACCOUNT_MISMATCH"
  | instrumentMismatch => "INSTRUMENT_MISMATCH"
  | cashMismatch => "CASH_MISMATCH"
  | marginMismatch => "MARGIN_MISMATCH"
  | orderLinkMismatch => "ORDER_LINK_MISMATCH"
  | duplicateExecution => "DUPLICATE_EXECUTION"
  | roundingDifference => "ROUNDING_DIFFERENCE"
  | conflict => "CONFLICT"
  | unknown => "UNKNOWN"
  | stale => "STALE"

def severity (kind : DiscrepancyKind) (entityType : EntityType) : Severity :=
  match kind with
  | .roundingDifference => .info
  | .unknown | .stale => .warning
  | .internalOnly => .warning
  | .brokerOnly => if entityType = .execution then .critical else .warning
  | .duplicateExecution => .high
  | .conflict => .high
  | .cashMismatch | .marginMismatch => .warning
  | _ => .high

/-! ### Observations -/

structure OrderObservation where
  brokerOrderId : Option String
  clientOrderId : Option String
  accountId : Option UUID
  instrumentId : Option UUID
  side : Option String
  quantity : Option ℤ
  orderType : Option String
  status : Option String
  observedAt : Option DateTime := none
deriving DecidableEq

/-- Quantity, price and fees are finite; a NaN or an infinity would raise where it is compared. -/
structure ExecutionObservation where
  brokerExecutionId : Option String
  executionId : Option String
  orderId : Option UUID
  brokerOrderId : Option String
  accountId : Option UUID
  instrumentId : Option UUID
  side : Option String
  quantity : Option Dec
  price : Option Dec
  fees : Option Dec
  status : Option String
  observedAt : Option DateTime := none
deriving DecidableEq

structure PositionObservation where
  accountId : Option UUID
  instrumentId : Option UUID
  quantity : ℤ
  side : String
  averagePrice : Option Decimal
  observedAt : Option DateTime := none
deriving DecidableEq

structure FundsObservation where
  accountId : Option UUID
  availableCash : Option Dec
  availableMargin : Option Dec
  usedMargin : Option Dec
  currency : String := "INR"
  observedAt : Option DateTime := none
deriving DecidableEq

structure Tolerance where
  priceEpsilon : ℚ := 1 / 10000
  feeEpsilon : ℚ := 1 / 100
  fundsEpsilon : ℚ := 1 / 100

/-- `abs(a - b) <= epsilon`, with the difference in the default context. -/
def within (a b : Dec) (epsilon : ℚ) : Bool := |Ctx.default.fix (a.val - b.val)| ≤ epsilon

/-! ### Evidence -/

/-- A state dictionary: its entries with sorted keys. -/
abbrev StateDict := List (String × Json)

structure MatchContext where
  runId : UUID
  accountId : UUID
  broker : String
  tradingMode : String

inductive ResolutionStatus where
  | detected
  | classified
  | open
  | investigating
  | resolved
  | acknowledged
  | escalated
deriving DecidableEq, Repr

structure Discrepancy where
  discrepancyKey : String
  runId : UUID
  accountId : UUID
  broker : String
  tradingMode : String
  entityType : EntityType
  entityId : String
  kind : DiscrepancyKind
  severity : Severity
  internalState : StateDict
  brokerState : StateDict
  resolutionStatus : ResolutionStatus
  contentHash : String
  observedAt : Option DateTime

def computeDiscrepancyKey (accountId : UUID) (entityType entityId kind : String) : String :=
  sha256 ((Json.obj [("account_id", .str accountId.str), ("entity_id", .str entityId),
    ("entity_type", .str entityType), ("kind", .str kind)]).dumps .compact)

def discrepancyContentHash (internalState brokerState : StateDict) (observedAt : Option DateTime) : String :=
  sha256 ((Json.obj [("broker_state", .obj brokerState), ("internal_state", .obj internalState),
    ("observed_at", .ofOption (observedAt.map DateTime.isoformat))]).dumps .compact)

def discrepancy (ctx : MatchContext) (entityType : EntityType) (entityId : String) (kind : DiscrepancyKind)
    (internalState brokerState : StateDict) (observedAt : Option DateTime) : Discrepancy where
  discrepancyKey := computeDiscrepancyKey ctx.accountId entityType.value entityId kind.value
  runId := ctx.runId
  accountId := ctx.accountId
  broker := ctx.broker
  tradingMode := ctx.tradingMode
  entityType := entityType
  entityId := entityId
  kind := kind
  severity := Reconciliation.severity kind entityType
  internalState := internalState
  brokerState := brokerState
  resolutionStatus := .open
  contentHash := discrepancyContentHash internalState brokerState observedAt
  observedAt := observedAt

@[simp] theorem discrepancy_kind (ctx : MatchContext) (entityType : EntityType) (entityId : String)
    (kind : DiscrepancyKind) (internalState brokerState : StateDict) (observedAt : Option DateTime) :
    (discrepancy ctx entityType entityId kind internalState brokerState observedAt).kind = kind := rfl

end AlphaAlgo.Reconciliation
