import AlphaAlgo.Lib.GroupBy
import AlphaAlgo.Reconciliation.Discrepancy

/-!
# Matching — pairing internal and broker observations by key

`reconcileOrders` and `reconcileExecutions`.  Both index the broker observations by key, walk the internal ones and
take for each the first observation of its group whose index is not in `consumed`, and report the broker
observations whose index is not in `consumed`.  `consumed` holds indices within a group and is shared by all groups.

The two functions differ by a `Matcher`: the key, the fields compared, the state written as evidence.
-/

namespace AlphaAlgo.Reconciliation

/-! ### The algorithm -/

section

variable {α : Type*} (key : α → Option String)

/-- The broker observations with a key, grouped by it. -/
def brokerIndex (broker : List α) : List (String × List α) := groupBy key broker

/-- The first observation of a group, counted from `j`, whose index is not consumed. -/
def firstFree (consumed : List ℕ) : ℕ → List α → Option (α × ℕ)
  | _, [] => none
  | j, o :: group => if j ∉ consumed then some (o, j) else firstFree consumed (j + 1) group

/-- The observations of a group, counted from `j`, whose index is not consumed. -/
def unconsumed (consumed : List ℕ) : ℕ → List α → List α
  | _, [] => []
  | j, o :: group => if j ∉ consumed then o :: unconsumed consumed (j + 1) group else unconsumed consumed (j + 1) group

/-- The counterpart of an internal observation, with its index. -/
def counterpart (index : List (String × List α)) (consumed : List ℕ) (x : α) : Option (α × ℕ) :=
  match key x with
  | none => none
  | some k =>
    match index.lookup k with
    | none => none
    | some group => firstFree consumed 0 group

/-- The loop over the internal observations: each with its counterpart, and the consumed indices. -/
def matchLoop (index : List (String × List α)) : List ℕ → List α → List (α × Option α) × List ℕ
  | consumed, [] => ([], consumed)
  | consumed, x :: l =>
    match counterpart key index consumed x with
    | none =>
      let r := matchLoop index consumed l
      ((x, none) :: r.1, r.2)
    | some (y, j) =>
      let r := matchLoop index (j :: consumed) l
      ((x, some y) :: r.1, r.2)

/-- What the matcher decides: the internal observations with their counterparts, and the broker observations that
it reports. -/
structure Decisions (α : Type*) where
  internal : List (α × Option α)
  brokerOnly : List (String × α)

def matchAll (internal broker : List α) : Decisions α :=
  let index := brokerIndex key broker
  let r := matchLoop key index [] internal
  { internal := r.1
    brokerOnly := index.flatMap fun p => (unconsumed r.2 0 p.2).map fun o => (p.1, o) }

end

/-! ### The report -/

/-- What differs between orders and executions. -/
structure Matcher (α : Type*) where
  entityType : EntityType
  duplicateKind : DiscrepancyKind
  key : α → Option String
  compare : α → α → List DiscrepancyKind
  state : α → StateDict
  observedAt : α → Option DateTime
  brokerOnlyId : String → α → String
  duplicate_not_oneSided : duplicateKind.oneSided = false
  compare_not_oneSided : ∀ x y, ∀ kind ∈ compare x y, kind.oneSided = false

structure ComparisonResult where
  discrepancies : List Discrepancy
  matched : ℕ := 0
  internalOnly : ℕ := 0
  brokerOnly : ℕ := 0
  unknown : ℕ := 0
  unavailable : ℕ := 0
  skipped : ℕ := 0

section

variable {α : Type*} (m : Matcher α) (ctx : MatchContext)

/-- `key or str(i)`. -/
def entityId (i : ℕ) (x : α) : String := (orElse (m.key x) none).getD (toString i)

/-- Evidence of several broker observations with one key. -/
def duplicateReport (p : String × List α) : List Discrepancy :=
  if p.2.length > 1 then
    [discrepancy ctx m.entityType p.1 m.duplicateKind [] [("duplicate_count", .int p.2.length)]
      (p.2.head?.bind m.observedAt)]
  else []

def internalOnlyReport (i : ℕ) (x : α) : Discrepancy :=
  discrepancy ctx m.entityType (entityId m i x) .internalOnly (m.state x) [] (m.observedAt x)

/-- Evidence of the internal observation number `i`. -/
def internalReport (i : ℕ) (d : α × Option α) : List Discrepancy :=
  match d.2 with
  | none => [internalOnlyReport m ctx i d.1]
  | some y => (m.compare d.1 y).map fun kind =>
      discrepancy ctx m.entityType (entityId m i d.1) kind (m.state d.1) (m.state y) (m.observedAt y)

def brokerOnlyReport (p : String × α) : Discrepancy :=
  discrepancy ctx m.entityType (m.brokerOnlyId p.1 p.2) .brokerOnly [] (m.state p.2) (m.observedAt p.2)

/-- An internal observation that agrees with its counterpart. -/
def agrees (d : α × Option α) : Bool :=
  match d.2 with
  | none => false
  | some y => (m.compare d.1 y).isEmpty

def reconcile (internal broker : List α) : ComparisonResult :=
  let index := brokerIndex m.key broker
  let d := matchAll m.key internal broker
  { discrepancies := index.flatMap (duplicateReport m ctx) ++
      d.internal.zipIdx.flatMap (fun p => internalReport m ctx p.2 p.1) ++ d.brokerOnly.map (brokerOnlyReport m ctx)
    matched := d.internal.countP (agrees m)
    internalOnly := d.internal.countP fun p => p.2.isNone
    brokerOnly := d.brokerOnly.length }

end

/-! ### Orders and executions -/

/-- Both sides are given and differ. -/
def differ {β : Type*} [DecidableEq β] (a b : Option β) : Bool := a.isSome && b.isSome && a ≠ b

/-- The kinds whose test is positive, in order. -/
def kindsOf (tests : List (Bool × DiscrepancyKind)) : List DiscrepancyKind :=
  (tests.filter Prod.fst).map Prod.snd

theorem not_oneSided_of_mem_kindsOf {tests : List (Bool × DiscrepancyKind)}
    (h : ∀ t ∈ tests, t.2.oneSided = false) {kind : DiscrepancyKind} (hk : kind ∈ kindsOf tests) :
    kind.oneSided = false := by
  obtain ⟨t, ht, rfl⟩ := List.mem_map.mp hk
  exact h t (List.mem_filter.mp ht).1

def orderMatchKey (o : OrderObservation) : Option String := orElse o.brokerOrderId o.clientOrderId

def compareOrderFields (i b : OrderObservation) : List DiscrepancyKind :=
  kindsOf [(differ i.status b.status, .statusMismatch), (differ i.quantity b.quantity, .quantityMismatch),
    (differ i.side b.side, .sideMismatch), (differ i.orderType b.orderType, .orderTypeMismatch),
    (differ i.instrumentId b.instrumentId, .instrumentMismatch), (differ i.accountId b.accountId, .accountMismatch)]

/-- Keys sorted. -/
def orderState (o : OrderObservation) : StateDict :=
  [("account_id", .ofOption (o.accountId.map UUID.str)), ("broker_order_id", .ofOption o.brokerOrderId),
    ("client_order_id", .ofOption o.clientOrderId), ("instrument_id", .ofOption (o.instrumentId.map UUID.str)),
    ("order_type", .ofOption o.orderType), ("quantity", (o.quantity.map Json.int).getD .null),
    ("side", .ofOption o.side), ("status", .ofOption o.status)]

def orderMatcher : Matcher OrderObservation where
  entityType := .order
  duplicateKind := .conflict
  key := orderMatchKey
  compare := compareOrderFields
  state := orderState
  observedAt := OrderObservation.observedAt
  brokerOnlyId := fun k o => (orElse (some k) (orElse o.clientOrderId (some ""))).getD ""
  duplicate_not_oneSided := rfl
  compare_not_oneSided := fun _ _ _ hk => not_oneSided_of_mem_kindsOf (by simp [DiscrepancyKind.oneSided]) hk

def reconcileOrders (ctx : MatchContext) (internal broker : List OrderObservation) : ComparisonResult :=
  reconcile orderMatcher ctx internal broker

def executionMatchKey (o : ExecutionObservation) : Option String :=
  orElse o.brokerExecutionId (orElse o.executionId o.brokerOrderId)

/-- Both sides are given and differ by more than `epsilon`. -/
def apart (a b : Option Dec) (epsilon : ℚ) : Bool :=
  match a, b with
  | some x, some y => !within x y epsilon
  | _, _ => false

def compareExecutionFields (tol : Tolerance) (i b : ExecutionObservation) : List DiscrepancyKind :=
  kindsOf [(differ (i.quantity.map Dec.val) (b.quantity.map Dec.val), .quantityMismatch),
    (apart i.price b.price tol.priceEpsilon, .priceMismatch), (apart i.fees b.fees tol.feeEpsilon, .feeMismatch),
    (differ i.orderId b.orderId, .orderLinkMismatch), (differ i.side b.side, .sideMismatch)]

/-- Keys sorted. -/
def execState (o : ExecutionObservation) : StateDict :=
  [("broker_execution_id", .ofOption o.brokerExecutionId), ("execution_id", .ofOption o.executionId),
    ("fees", .ofOption (o.fees.map Dec.str)), ("order_id", .ofOption (o.orderId.map UUID.str)),
    ("price", .ofOption (o.price.map Dec.str)), ("quantity", .ofOption (o.quantity.map Dec.str)),
    ("side", .ofOption o.side), ("status", .ofOption o.status)]

def executionMatcher (tol : Tolerance) : Matcher ExecutionObservation where
  entityType := .execution
  duplicateKind := .duplicateExecution
  key := executionMatchKey
  compare := compareExecutionFields tol
  state := execState
  observedAt := ExecutionObservation.observedAt
  brokerOnlyId := fun k _ => k
  duplicate_not_oneSided := rfl
  compare_not_oneSided := fun _ _ _ hk => not_oneSided_of_mem_kindsOf (by simp [DiscrepancyKind.oneSided]) hk

def reconcileExecutions (ctx : MatchContext) (internal broker : List ExecutionObservation)
    (tolerance : Option Tolerance := none) : ComparisonResult :=
  reconcile (executionMatcher (tolerance.getD {})) ctx internal broker

end AlphaAlgo.Reconciliation
