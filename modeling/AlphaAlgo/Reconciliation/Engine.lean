import AlphaAlgo.Lib.Table
import AlphaAlgo.Reconciliation.Positions

/-!
# Engine — reconciliation runs and their stored evidence

`run` compares the observations, stores the discrepancies one by one, each in a transaction of its own, and then the
row of the run.  A discrepancy that the store refuses with an integrity error counts as a duplicate: the stored one
with the same content is an idempotent replay, anything else is stored once more as a `CONFLICT`.

`StoreRules` says what the store enforces: `sqlRules` is the SQL schema, where a discrepancy refers to the row of its
run, which is written last.

* `persistDiscrepancies_blocked`: without the row of the run nothing is stored.
* `run_stores_iff`: when everything that a run has found is stored afterwards.
* `rerun_keeps_discrepancies`: a second run with the same inputs leaves the stored evidence as it is.
-/

namespace AlphaAlgo.Reconciliation

/-! ### Runs -/

/-- `partly` is `PARTIAL`. -/
inductive RunStatus where
  | pending
  | running
  | completed
  | partly
  | failed
deriving DecidableEq, Repr

/-- The scope of a run; the domains are those of the set, sorted. -/
structure ReconciliationScope where
  accountId : UUID
  broker : String
  tradingMode : String
  domains : List String := ["EXECUTIONS", "FUNDS", "ORDERS", "POSITIONS"]

structure ReconciliationInputs where
  ordersInternal : List OrderObservation := []
  ordersBroker : List OrderObservation := []
  executionsInternal : List ExecutionObservation := []
  executionsBroker : List ExecutionObservation := []
  positionsInternal : List PositionObservation := []
  positionsBroker : List PositionObservation := []
  fundsInternal : Option FundsObservation := none
  fundsBroker : Option FundsObservation := none

/-- The arguments of a run, with the engine's halt flag and tolerance. -/
structure RunRequest where
  scope : ReconciliationScope
  inputs : ReconciliationInputs
  tolerance : Tolerance := {}
  staleSeconds : Option ℤ := none
  now : DateTime
  globalHaltActive : Bool := false

structure ReconciliationRun where
  runId : UUID
  accountId : UUID
  broker : String
  tradingMode : String
  scope : String
  status : RunStatus
  startedAt : DateTime
  completedAt : Option DateTime
  matched : ℕ
  mismatched : ℕ
  internalOnly : ℕ
  brokerOnly : ℕ
  unknown : ℕ
  unavailable : ℕ
  skipped : ℕ
  conflicts : ℕ

/-- A proposed correction; the key stands for the id that the database gives. -/
structure RecoveryAction where
  discrepancyKey : String
  actionType : String
  targetBoundary : String
  normalizedFill : Option (List (String × Option Json)) := none
  note : String

structure RunResult where
  status : RunStatus
  run : ReconciliationRun
  discrepancies : List Discrepancy
  recoveryActions : List RecoveryAction

/-! ### The store -/

structure ReconciliationDb where
  runs : Table ReconciliationRun UUID ReconciliationRun.runId
  discrepancies : Table Discrepancy String Discrepancy.discrepancyKey

/-- What the store enforces besides the unique key: the reference to the run, and the widths of the columns. -/
structure StoreRules where
  foreignKey : Bool
  widths : Bool

def sqlRules : StoreRules := ⟨true, true⟩

/-- The columns take the discrepancy; key and content hash are digests of 64 characters. -/
def discrepancyFits (d : Discrepancy) : Bool := fits 32 d.broker && fits 16 d.tradingMode && fits 128 d.entityId

/-- The columns take the run. -/
def runFits (r : ReconciliationRun) : Bool :=
  fits 32 r.broker && fits 16 r.tradingMode && fits 128 r.scope &&
    [r.matched, r.mismatched, r.internalOnly, r.brokerOnly, r.unknown, r.unavailable, r.skipped, r.conflicts].all
      (· ≤ 2147483647)

/-- The transaction violates a constraint unless the run of the discrepancy is there and its key is new; every
violation is reported as a duplicate. -/
def saveDiscrepancy (rules : StoreRules) (db : ReconciliationDb) (d : Discrepancy) :
    Except ReconciliationError ReconciliationDb :=
  if rules.widths && !discrepancyFits d then .error (.persistence "discrepancy write failed")
  else if rules.foreignKey && (db.runs.get d.runId).isNone then
    .error (.duplicateDiscrepancy ("duplicate discrepancy " ++ d.discrepancyKey))
  else match db.discrepancies.insert? d with
    | none => .error (.duplicateDiscrepancy ("duplicate discrepancy " ++ d.discrepancyKey))
    | some discrepancies => .ok { db with discrepancies := discrepancies }

def loadDiscrepancy (db : ReconciliationDb) (discrepancyKey : String) : Option Discrepancy :=
  db.discrepancies.get discrepancyKey

def saveRun (rules : StoreRules) (db : ReconciliationDb) (r : ReconciliationRun) :
    Except ReconciliationError ReconciliationDb :=
  if rules.widths && !runFits r then .error (.persistence "reconciliation run write failed")
  else match db.runs.insert? r with
    | none => .error (.persistence "reconciliation run write failed")
    | some runs => .ok { db with runs := runs }

/-! ### The run -/

/-- The key of the conflict on the entity of a discrepancy. -/
def conflictKey (d : Discrepancy) : String :=
  computeDiscrepancyKey d.accountId d.entityType.value d.entityId DiscrepancyKind.conflict.value

def conflictDiscrepancy (original : Discrepancy) (existing : Option Discrepancy) : Discrepancy :=
  { original with
    discrepancyKey := conflictKey original
    kind := .conflict
    severity := .high
    internalState := [("original_content_hash", .ofOption (existing.map Discrepancy.contentHash)),
      ("original_discrepancy_key", .str original.discrepancyKey)]
    brokerState := [("new_content_hash", .str original.contentHash)]
    resolutionStatus := .open }

/-- One discrepancy: what is stored for it, and whether it counts as a conflict. -/
def persistDiscrepancy (rules : StoreRules) (db : ReconciliationDb) (d : Discrepancy) :
    ReconciliationDb × Except ReconciliationError (List Discrepancy × ℕ) :=
  match saveDiscrepancy rules db d with
  | .ok db' => (db', .ok ([d], 0))
  | .error (.duplicateDiscrepancy _) =>
    let existing := loadDiscrepancy db d.discrepancyKey
    if existing.map Discrepancy.contentHash = some d.contentHash then (db, .ok ([], 0))
    else match saveDiscrepancy rules db (conflictDiscrepancy d existing) with
      | .ok db' => (db', .ok ([conflictDiscrepancy d existing], 1))
      | .error (.duplicateDiscrepancy _) => (db, .ok ([], 1))
      | .error err => (db, .error err)
  | .error err => (db, .error err)

def persistDiscrepancies (rules : StoreRules) :
    ReconciliationDb → List Discrepancy → ReconciliationDb × Except ReconciliationError (List Discrepancy × ℕ)
  | db, [] => (db, .ok ([], 0))
  | db, d :: l =>
    match persistDiscrepancy rules db d with
    | (db', .error err) => (db', .error err)
    | (db', .ok (p, c)) =>
      match persistDiscrepancies rules db' l with
      | (db'', .error err) => (db'', .error err)
      | (db'', .ok (ps, cs)) => (db'', .ok (p ++ ps, c + cs))

def recoveryAction (d : Discrepancy) : List RecoveryAction :=
  if d.entityType = .execution ∧ d.kind = .brokerOnly then
    [{ discrepancyKey := d.discrepancyKey
       actionType := "ROUTE_BROKER_FILL"
       targetBoundary := "execution_engine"
       normalizedFill := some (["broker_execution_id", "quantity", "price", "side", "order_id"].map fun k =>
         (k, d.brokerState.lookup k))
       note := "route via trusted execution boundary; do not mutate positions/pnl/portfolio directly" }]
  else if d.kind ∉ [DiscrepancyKind.stale, .unknown, .roundingDifference] then
    [{ discrepancyKey := d.discrepancyKey
       actionType := "ESCALATE"
       targetBoundary := "none"
       note := "manual review required; no automatic correction" }]
  else []

/-- `_guard`; the check for a missing account concerns values that are no UUID. -/
def guard (scope : ReconciliationScope) (globalHaltActive : Bool) : Except ReconciliationError Unit :=
  if upper scope.tradingMode = "LIVE" then .error (.mode "LIVE reconciliation is disabled (fail-closed)")
  else if upper scope.tradingMode ∉ allowedModes then
    .error (.mode ("unknown trading mode: " ++ scope.tradingMode))
  else if globalHaltActive then .error (.validation "global trading halt is active; reconciliation refused")
  else .ok ()

/-- The results of two domains together. -/
def ComparisonResult.add (a b : ComparisonResult) : ComparisonResult where
  discrepancies := a.discrepancies ++ b.discrepancies
  matched := a.matched + b.matched
  internalOnly := a.internalOnly + b.internalOnly
  brokerOnly := a.brokerOnly + b.brokerOnly
  unknown := a.unknown + b.unknown
  unavailable := a.unavailable + b.unavailable
  skipped := a.skipped + b.skipped

/-- The result of a domain, if it is in the scope. -/
def ifInScope (scope : ReconciliationScope) (domain : String) (r : Except ReconciliationError ComparisonResult) :
    Except ReconciliationError ComparisonResult :=
  if domain ∈ scope.domains then r else .ok { discrepancies := [] }

/-- The comparisons of the domains in scope, in order. -/
def compareAll (ctx : MatchContext) (req : RunRequest) : Except ReconciliationError ComparisonResult := do
  let o ← ifInScope req.scope "ORDERS" (.ok (reconcileOrders ctx req.inputs.ordersInternal req.inputs.ordersBroker))
  let e ← ifInScope req.scope "EXECUTIONS" (.ok (reconcileExecutions ctx req.inputs.executionsInternal
    req.inputs.executionsBroker (some req.tolerance)))
  let p ← ifInScope req.scope "POSITIONS" (reconcilePositions ctx req.tolerance req.staleSeconds req.now
    req.inputs.positionsInternal req.inputs.positionsBroker)
  let f ← ifInScope req.scope "FUNDS" (reconcileFunds ctx req.tolerance req.staleSeconds req.now
    req.inputs.fundsInternal req.inputs.fundsBroker)
  return ((o.add e).add p).add f

/-- The context of a run. -/
def contextOf (req : RunRequest) (runId : UUID) : MatchContext where
  runId := runId
  accountId := req.scope.accountId
  broker := req.scope.broker
  tradingMode := upper req.scope.tradingMode

/-- The row of a run. -/
def runOf (req : RunRequest) (runId : UUID) (r : ComparisonResult) (conflicts : ℕ) : ReconciliationRun where
  runId := runId
  accountId := req.scope.accountId
  broker := req.scope.broker
  tradingMode := upper req.scope.tradingMode
  scope := ",".intercalate req.scope.domains
  status := if r.unavailable > 0 ∨ r.unknown > 0 then .partly else .completed
  startedAt := req.now
  completedAt := some req.now
  matched := r.matched
  mismatched := r.discrepancies.countP fun d => d.kind ∉ [DiscrepancyKind.stale, .unknown]
  internalOnly := r.internalOnly
  brokerOnly := r.brokerOnly
  unknown := r.unknown
  unavailable := r.unavailable
  skipped := conflicts
  conflicts := conflicts

/-- `ReconciliationEngine.run`; `runId` is the `uuid4()` of the run. -/
def run (rules : StoreRules) (req : RunRequest) (runId : UUID) (db : ReconciliationDb) :
    ReconciliationDb × Except ReconciliationError RunResult :=
  match guard req.scope req.globalHaltActive with
  | .error err => (db, .error err)
  | .ok _ =>
    match compareAll (contextOf req runId) req with
    | .error err => (db, .error err)
    | .ok r =>
      match persistDiscrepancies rules db r.discrepancies with
      | (db', .error err) => (db', .error err)
      | (db', .ok (persisted, conflicts)) =>
        let row := runOf req runId r conflicts
        match saveRun rules db' row with
        | .error err => (db', .error err)
        | .ok db'' => (db'', .ok
            { status := row.status
              run := row
              discrepancies := persisted
              recoveryActions := persisted.flatMap recoveryAction })

/-! ### What the store does -/

/-- **Everything a stored discrepancy does.** -/
theorem saveDiscrepancy_ok {rules : StoreRules} {db db' : ReconciliationDb} {d : Discrepancy}
    (h : saveDiscrepancy rules db d = .ok db') :
    (rules.foreignKey = true → (db.runs.get d.runId).isSome) ∧ db'.runs = db.runs ∧
      db.discrepancies.insert? d = some db'.discrepancies := by
  unfold saveDiscrepancy at h
  split_ifs at h with hw hf
  cases hi : db.discrepancies.insert? d with
  | none => rw [hi] at h; cases h
  | some t =>
    rw [hi] at h
    cases h
    refine ⟨fun hk => ?_, rfl, rfl⟩
    cases hg : db.runs.get d.runId with
    | none => rw [hk, hg] at hf; exact absurd rfl hf
    | some r => rfl

/-- The store refuses a discrepancy of this run under this key. -/
def Refused (rules : StoreRules) (db : ReconciliationDb) (runId : UUID) (discrepancyKey : String) : Prop :=
  (rules.foreignKey = true ∧ db.runs.get runId = none) ∨ (db.discrepancies.get discrepancyKey).isSome

/-- The columns do not take the discrepancy. -/
def tooWide (rules : StoreRules) (d : Discrepancy) : Bool := rules.widths && !discrepancyFits d

theorem saveDiscrepancy_error {rules : StoreRules} {db : ReconciliationDb} {d : Discrepancy}
    {err : ReconciliationError} (h : saveDiscrepancy rules db d = .error err) :
    (tooWide rules d = true ∧ err = .persistence "discrepancy write failed") ∨
      (tooWide rules d = false ∧ (∃ text, err = .duplicateDiscrepancy text) ∧
        Refused rules db d.runId d.discrepancyKey) := by
  unfold saveDiscrepancy at h
  by_cases hw : (rules.widths && !discrepancyFits d) = true
  · rw [if_pos hw] at h
    cases h
    exact Or.inl ⟨hw, rfl⟩
  · rw [if_neg hw] at h
    refine Or.inr ⟨Bool.eq_false_of_not_eq_true hw, ?_⟩
    by_cases hf : (rules.foreignKey && (db.runs.get d.runId).isNone) = true
    · rw [if_pos hf] at h
      cases h
      simp only [Bool.and_eq_true, Option.isNone_iff_eq_none] at hf
      exact ⟨⟨_, rfl⟩, Or.inl hf⟩
    · rw [if_neg hf] at h
      cases hi : db.discrepancies.insert? d with
      | some t => rw [hi] at h; cases h
      | none =>
        rw [hi] at h
        cases h
        exact ⟨⟨_, rfl⟩, Or.inr (Table.insert?_eq_none hi)⟩

/-- **Everything that is done for one discrepancy.** -/
inductive PersistStep (rules : StoreRules) (db : ReconciliationDb) (d : Discrepancy) :
    ReconciliationDb → Except ReconciliationError (List Discrepancy × ℕ) → Prop
  | stored {db' : ReconciliationDb} (h : saveDiscrepancy rules db d = .ok db') : PersistStep rules db d db' (.ok ([d], 0))
  | unfit {err : ReconciliationError} (hw : tooWide rules d = true) : PersistStep rules db d db (.error err)
  | replayed (hh : (db.discrepancies.get d.discrepancyKey).map Discrepancy.contentHash = some d.contentHash) :
      PersistStep rules db d db (.ok ([], 0))
  | conflict {c : Discrepancy} {db' : ReconciliationDb} (hk : c.discrepancyKey = conflictKey d)
      (hr : c.runId = d.runId) (hd : Refused rules db d.runId d.discrepancyKey)
      (hh : (db.discrepancies.get d.discrepancyKey).map Discrepancy.contentHash ≠ some d.contentHash)
      (h : saveDiscrepancy rules db c = .ok db') : PersistStep rules db d db' (.ok ([c], 1))
  | dropped (hd : Refused rules db d.runId d.discrepancyKey) (hc : Refused rules db d.runId (conflictKey d)) :
      PersistStep rules db d db (.ok ([], 1))

theorem persistStep (rules : StoreRules) (db : ReconciliationDb) (d : Discrepancy) :
    PersistStep rules db d (persistDiscrepancy rules db d).1 (persistDiscrepancy rules db d).2 := by
  unfold persistDiscrepancy
  cases hs : saveDiscrepancy rules db d with
  | ok db' => exact .stored hs
  | error err =>
    rcases saveDiscrepancy_error hs with ⟨hw, rfl⟩ | ⟨hw, ⟨text, rfl⟩, hd⟩
    · exact .unfit hw
    · by_cases hh : (db.discrepancies.get d.discrepancyKey).map Discrepancy.contentHash = some d.contentHash
      · simp only [loadDiscrepancy, hh, if_true]
        exact .replayed hh
      · simp only [loadDiscrepancy, hh, if_false]
        cases hc : saveDiscrepancy rules db (conflictDiscrepancy d (db.discrepancies.get d.discrepancyKey)) with
        | ok db' => exact .conflict rfl rfl hd hh hc
        | error err =>
          -- the conflict has the broker, mode and entity of the discrepancy, so it fits as well
          rcases saveDiscrepancy_error hc with ⟨hw', -⟩ | ⟨-, ⟨text', rfl⟩, hc'⟩
          · exact absurd (hw'.symm.trans hw) (by decide)
          · exact .dropped hd hc'

/-- Stored evidence stays. -/
def Extends (t t' : Table Discrepancy String Discrepancy.discrepancyKey) : Prop :=
  ∀ k d, t.get k = some d → t'.get k = some d

theorem extends_of_save {rules : StoreRules} {db db' : ReconciliationDb} {d : Discrepancy}
    (h : saveDiscrepancy rules db d = .ok db') : Extends db.discrepancies db'.discrepancies := by
  obtain ⟨-, -, hi⟩ := saveDiscrepancy_ok h
  intro k r hr
  rw [Table.get_of_insert hi, if_neg]
  · exact hr
  · rintro rfl
    rw [(Table.insert?_eq_some hi).1] at hr
    cases hr

theorem PersistStep.extends {rules : StoreRules} {db db' : ReconciliationDb} {d : Discrepancy}
    {res : Except ReconciliationError (List Discrepancy × ℕ)} (h : PersistStep rules db d db' res) :
    Extends db.discrepancies db'.discrepancies ∧ db'.runs = db.runs := by
  cases h with
  | stored h => exact ⟨extends_of_save h, (saveDiscrepancy_ok h).2.1⟩
  | unfit hw => exact ⟨fun _ _ h => h, rfl⟩
  | replayed hh => exact ⟨fun _ _ h => h, rfl⟩
  | conflict hk hr hd hh h => exact ⟨extends_of_save h, (saveDiscrepancy_ok h).2.1⟩
  | dropped hd hc => exact ⟨fun _ _ h => h, rfl⟩

/-- The loop keeps the stored evidence and the runs. -/
theorem persistDiscrepancies_extends (rules : StoreRules) : ∀ (l : List Discrepancy) (db : ReconciliationDb),
    Extends db.discrepancies (persistDiscrepancies rules db l).1.discrepancies ∧
      (persistDiscrepancies rules db l).1.runs = db.runs
  | [], _ => ⟨fun _ _ h => h, rfl⟩
  | d :: l, db => by
    obtain ⟨h1, h2⟩ := (persistStep rules db d).extends
    unfold persistDiscrepancies
    cases hp : persistDiscrepancy rules db d with
    | mk db' res =>
      rw [hp] at h1 h2
      cases res with
      | error err => exact ⟨h1, h2⟩
      | ok x =>
        obtain ⟨h3, h4⟩ := persistDiscrepancies_extends rules l db'
        simp only
        cases hq : persistDiscrepancies rules db' l with
        | mk db'' res' =>
          rw [hq] at h3 h4
          have hboth : Extends db.discrepancies db''.discrepancies ∧ db''.runs = db.runs :=
            ⟨fun k r hr => h3 k r (h1 k r hr), h4.trans h2⟩
          cases res' <;> exact hboth

/-- **Without the row of its run nothing is stored.** -/
theorem persistDiscrepancies_blocked {rules : StoreRules} (hf : rules.foreignKey = true) {runId : UUID} :
    ∀ (l : List Discrepancy) (db : ReconciliationDb), db.runs.get runId = none → (∀ d ∈ l, d.runId = runId) →
      (persistDiscrepancies rules db l).1 = db
  | [], _, _, _ => rfl
  | d :: l, db, hn, hl => by
    have hd : d.runId = runId := hl d List.mem_cons_self
    have hsame : (persistDiscrepancy rules db d).1 = db := by
      have hno : ∀ (c : Discrepancy) (db' : ReconciliationDb), c.runId = runId → saveDiscrepancy rules db c ≠ .ok db' := by
        intro c db' hc h
        have := (saveDiscrepancy_ok h).1 hf
        rw [hc, hn] at this
        cases this
      have hstep := persistStep rules db d
      generalize persistDiscrepancy rules db d = x at hstep
      obtain ⟨db', res⟩ := x
      cases hstep with
      | stored h => exact absurd h (hno d db' hd)
      | unfit hw => rfl
      | replayed hh => rfl
      | conflict hk hr _ _ h => exact absurd h (hno _ db' (hr.trans hd))
      | dropped _ _ => rfl
    unfold persistDiscrepancies
    cases hp : persistDiscrepancy rules db d with
    | mk db' res =>
      rw [hp] at hsame
      simp only at hsame
      subst hsame
      cases res with
      | error err => rfl
      | ok x =>
        have ih := persistDiscrepancies_blocked hf l db' hn fun c hc => hl c (List.mem_cons_of_mem _ hc)
        simp only
        cases hq : persistDiscrepancies rules db' l with
        | mk db'' res' =>
          rw [hq] at ih
          cases res' <;> exact ih

/-! ### The id of the run is a label -/

def MatchContext.withRun (r : UUID) (ctx : MatchContext) : MatchContext := { ctx with runId := r }

def Discrepancy.withRun (r : UUID) (d : Discrepancy) : Discrepancy := { d with runId := r }

def ComparisonResult.withRun (r : UUID) (c : ComparisonResult) : ComparisonResult :=
  { c with discrepancies := c.discrepancies.map (Discrepancy.withRun r) }

section

variable (r : UUID) (ctx : MatchContext)

theorem duplicateReport_withRun {α : Type*} (m : Matcher α) (p : String × List α) :
    duplicateReport m (ctx.withRun r) p = (duplicateReport m ctx p).map (Discrepancy.withRun r) := by
  unfold duplicateReport
  split_ifs <;> rfl

theorem internalReport_withRun {α : Type*} (m : Matcher α) (i : ℕ) (p : α × Option α) :
    internalReport m (ctx.withRun r) i p = (internalReport m ctx i p).map (Discrepancy.withRun r) := by
  obtain ⟨x, y⟩ := p
  cases y with
  | none => rfl
  | some y =>
    simp only [internalReport, List.map_map]
    rfl

theorem reconcile_withRun {α : Type*} (m : Matcher α) (internal broker : List α) :
    reconcile m (ctx.withRun r) internal broker = (reconcile m ctx internal broker).withRun r := by
  have hd : duplicateReport m (ctx.withRun r) = fun p => (duplicateReport m ctx p).map (Discrepancy.withRun r) :=
    funext (duplicateReport_withRun r ctx m)
  simp only [reconcile, ComparisonResult.withRun, hd, internalReport_withRun, List.map_append, List.map_flatMap,
    List.map_map]
  rfl

theorem positionReport_withRun (tol : Tolerance) (p : PositionObservation × Finding) :
    positionReport (ctx.withRun r) tol p = (positionReport ctx tol p).map (Discrepancy.withRun r) := by
  obtain ⟨x, f⟩ := p
  cases f with
  | internalOnly => rfl
  | stale y => rfl
  | compared y =>
    simp only [positionReport, List.map_map]
    rfl

theorem reconcilePositions_withRun (tol : Tolerance) (staleSeconds : Option ℤ) (now : DateTime)
    (internal broker : List PositionObservation) :
    reconcilePositions (ctx.withRun r) tol staleSeconds now internal broker =
      (reconcilePositions ctx tol staleSeconds now internal broker).map (ComparisonResult.withRun r) := by
  have hp : positionReport (ctx.withRun r) tol = fun p => (positionReport ctx tol p).map (Discrepancy.withRun r) :=
    funext (positionReport_withRun r ctx tol)
  simp only [reconcilePositions, hp]
  cases findPositions staleSeconds now (positionIndex broker) internal with
  | error err => rfl
  | ok findings =>
    simp only [Except.map, ComparisonResult.withRun, List.map_append, List.map_flatMap, List.map_map]
    rfl

theorem reconcileFunds_withRun (tol : Tolerance) (staleSeconds : Option ℤ) (now : DateTime)
    (internal broker : Option FundsObservation) :
    reconcileFunds (ctx.withRun r) tol staleSeconds now internal broker =
      (reconcileFunds ctx tol staleSeconds now internal broker).map (ComparisonResult.withRun r) := by
  cases broker with
  | none => rfl
  | some b =>
    cases internal with
    | none => rfl
    | some i =>
      unfold reconcileFunds
      simp only
      cases isStale now staleSeconds b.observedAt with
      | error err => rfl
      | ok stale =>
        cases stale with
        | true => rfl
        | false =>
          simp only [Except.map, ComparisonResult.withRun, List.map_map]
          rfl

theorem ifInScope_withRun (scope : ReconciliationScope) (domain : String)
    (c : Except ReconciliationError ComparisonResult) :
    ifInScope scope domain (c.map (ComparisonResult.withRun r)) =
      (ifInScope scope domain c).map (ComparisonResult.withRun r) := by
  unfold ifInScope
  split_ifs <;> rfl

theorem add_withRun (a b : ComparisonResult) : (a.withRun r).add (b.withRun r) = (a.add b).withRun r := by
  simp only [ComparisonResult.add, ComparisonResult.withRun, List.map_append]

/-- **The id of the run changes nothing in the comparison but the run that the evidence refers to.** -/
theorem compareAll_withRun (req : RunRequest) :
    compareAll (ctx.withRun r) req = (compareAll ctx req).map (ComparisonResult.withRun r) := by
  have ho (a b : List OrderObservation) : (Except.ok (reconcileOrders (ctx.withRun r) a b) : Except ReconciliationError _) =
      (Except.ok (reconcileOrders ctx a b)).map (ComparisonResult.withRun r) :=
    congrArg Except.ok (reconcile_withRun r ctx _ a b)
  have he (a b : List ExecutionObservation) (t : Option Tolerance) :
      (Except.ok (reconcileExecutions (ctx.withRun r) a b t) : Except ReconciliationError _) =
        (Except.ok (reconcileExecutions ctx a b t)).map (ComparisonResult.withRun r) :=
    congrArg Except.ok (reconcile_withRun r ctx _ a b)
  simp only [compareAll, ho, he, reconcilePositions_withRun, reconcileFunds_withRun, ifInScope_withRun]
  cases ifInScope req.scope "ORDERS" _ with
  | error err => rfl
  | ok o =>
    cases ifInScope req.scope "EXECUTIONS" _ with
    | error err => rfl
    | ok e =>
      cases ifInScope req.scope "POSITIONS" _ with
      | error err => rfl
      | ok p =>
        cases ifInScope req.scope "FUNDS" _ with
        | error err => rfl
        | ok f =>
          simp only [Except.map, bind, Except.bind, pure, Except.pure, add_withRun]

end

/-- Everything that a run finds refers to it. -/
theorem runId_of_compareAll {req : RunRequest} {runId : UUID} {c : ComparisonResult}
    (h : compareAll (contextOf req runId) req = .ok c) : ∀ d ∈ c.discrepancies, d.runId = runId := by
  have hsame : compareAll ((contextOf req runId).withRun runId) req = .ok c := h
  rw [compareAll_withRun, h] at hsame
  simp only [Except.map, Except.ok.injEq] at hsame
  intro d hd
  rw [← hsame] at hd
  obtain ⟨d', -, rfl⟩ := List.mem_map.mp hd
  rfl

/-! ### What a run finds, and what it stores -/

/-- What the comparison of a run finds. -/
def found (req : RunRequest) (runId : UUID) : List Discrepancy :=
  match guard req.scope req.globalHaltActive with
  | .error _ => []
  | .ok _ =>
    match compareAll (contextOf req runId) req with
    | .error _ => []
    | .ok c => c.discrepancies

theorem runId_of_found {req : RunRequest} {runId : UUID} : ∀ d ∈ found req runId, d.runId = runId := by
  unfold found
  cases guard req.scope req.globalHaltActive with
  | error err => exact fun _ h => by cases h
  | ok u =>
    simp only
    cases hc : compareAll (contextOf req runId) req with
    | error err => exact fun _ h => by cases h
    | ok c => exact runId_of_compareAll hc

theorem found_withRun (req : RunRequest) (r1 r2 : UUID) :
    found req r2 = (found req r1).map (Discrepancy.withRun r2) := by
  have hcmp : compareAll (contextOf req r2) req =
      (compareAll (contextOf req r1) req).map (ComparisonResult.withRun r2) :=
    compareAll_withRun r2 (contextOf req r1) req
  unfold found
  cases guard req.scope req.globalHaltActive with
  | error err => rfl
  | ok u =>
    rw [hcmp]
    cases compareAll (contextOf req r1) req <;> rfl

theorem saveRun_ok {rules : StoreRules} {db db' : ReconciliationDb} {row : ReconciliationRun}
    (h : saveRun rules db row = .ok db') :
    db.runs.get row.runId = none ∧ db'.discrepancies = db.discrepancies ∧ db.runs.insert? row = some db'.runs := by
  unfold saveRun at h
  split_ifs at h
  cases hi : db.runs.insert? row with
  | none => rw [hi] at h; cases h
  | some t =>
    rw [hi] at h
    cases h
    exact ⟨(Table.insert?_eq_some hi).1, rfl, rfl⟩

/-- **Everything a run does to the store**: it stores what it has found, and then perhaps its own row; a run that
returns has found its id unused. -/
theorem run_cases (rules : StoreRules) (req : RunRequest) (runId : UUID) (db : ReconciliationDb) :
    (run rules req runId db).1.discrepancies = (persistDiscrepancies rules db (found req runId)).1.discrepancies ∧
      (∀ k, k ≠ runId → (run rules req runId db).1.runs.get k = db.runs.get k) ∧
      ((run rules req runId db).2.isOk = true → db.runs.get runId = none) := by
  unfold run found
  cases guard req.scope req.globalHaltActive with
  | error err => exact ⟨rfl, fun _ _ => rfl, fun h => by cases h⟩
  | ok u =>
    simp only
    cases compareAll (contextOf req runId) req with
    | error err => exact ⟨rfl, fun _ _ => rfl, fun h => by cases h⟩
    | ok c =>
      simp only
      have hruns := (persistDiscrepancies_extends rules c.discrepancies db).2
      cases hp : persistDiscrepancies rules db c.discrepancies with
      | mk db' res =>
        rw [hp] at hruns
        simp only at hruns
        cases res with
        | error err => exact ⟨rfl, fun _ _ => by rw [hruns], fun h => by cases h⟩
        | ok x =>
          obtain ⟨persisted, conflicts⟩ := x
          simp only
          cases hs : saveRun rules db' (runOf req runId c conflicts) with
          | error err => exact ⟨rfl, fun _ _ => by rw [hruns], fun h => by cases h⟩
          | ok db'' =>
            obtain ⟨hn, hd, hi⟩ := saveRun_ok hs
            refine ⟨hd, fun k hk => ?_, fun _ => ?_⟩
            · rw [Table.get_of_insert hi, if_neg fun h => hk h.symm, hruns]
            · rw [← hruns]
              exact hn

/-- There is a row for a discrepancy: one with its key, or a conflict on its entity. -/
def Stored (db : ReconciliationDb) (d : Discrepancy) : Prop :=
  (db.discrepancies.get d.discrepancyKey).isSome ∨
    ∃ r ∈ db.discrepancies.rows, r.kind = .conflict ∧ r.accountId = d.accountId ∧ r.entityType = d.entityType ∧
      r.entityId = d.entityId

/-- **A run that returns stores no evidence at all**: its own row, which the evidence refers to, comes last.  So what
it has found is stored exactly if it was stored before. -/
theorem run_stores_iff {req : RunRequest} {runId : UUID} {db db' : ReconciliationDb} {result : RunResult}
    (h : run sqlRules req runId db = (db', .ok result)) :
    db'.discrepancies = db.discrepancies ∧
      ((∀ d ∈ found req runId, Stored db' d) ↔ ∀ d ∈ found req runId, Stored db d) := by
  obtain ⟨hd, -, hn⟩ := run_cases sqlRules req runId db
  rw [h] at hd hn
  have hsame : db'.discrepancies = db.discrepancies :=
    hd.trans (congrArg _ (persistDiscrepancies_blocked rfl _ db (hn rfl) runId_of_found))
  exact ⟨hsame, by simp only [Stored, hsame]⟩

/-- An internal order that the broker does not know. -/
def lostOrder : OrderObservation where
  clientOrderId := some "ORD-1"
  brokerOrderId := none
  accountId := some ⟨1⟩
  instrumentId := some ⟨2⟩
  side := some "BUY"
  quantity := some 5
  orderType := some "MARKET"
  status := some "SUBMITTED"

def lostRequest : RunRequest where
  scope := { accountId := ⟨1⟩, broker := "dhan", tradingMode := "PAPER", domains := ["ORDERS"] }
  inputs := { ordersInternal := [lostOrder] }
  now := ⟨2026, 1, 5, 9, 15, 0, 0, some 0⟩

def emptyStore : ReconciliationDb := ⟨.empty, .empty⟩

/-- Both attempts violate the reference to the run. -/
theorem persistDiscrepancy_emptyStore {d : Discrepancy} (hd : discrepancyFits d = true) :
    persistDiscrepancy sqlRules emptyStore d = (emptyStore, .ok ([], 1)) := by
  have hs (c : Discrepancy) (hc : discrepancyFits c = true) : saveDiscrepancy sqlRules emptyStore c =
      .error (.duplicateDiscrepancy ("duplicate discrepancy " ++ c.discrepancyKey)) := by
    unfold saveDiscrepancy
    rw [hc]
    rfl
  have hl : loadDiscrepancy emptyStore d.discrepancyKey = none := rfl
  unfold persistDiscrepancy
  rw [hs d hd]
  simp only [hl, Option.map_none, reduceCtorEq, if_false, hs (conflictDiscrepancy d none) hd]

/-- The run returns, has found the order, and the store holds no evidence of it. -/
theorem lostRequest_run : ∃ db' result, run sqlRules lostRequest ⟨7⟩ emptyStore = (db', .ok result) ∧
    db'.discrepancies = .empty ∧ ∃ d, d ∈ found lostRequest ⟨7⟩ := by
  let d := internalOnlyReport orderMatcher (contextOf lostRequest ⟨7⟩) 0 lostOrder
  let c : ComparisonResult := { discrepancies := [d], internalOnly := 1 }
  have hg : guard lostRequest.scope lostRequest.globalHaltActive = .ok () := by decide
  have hc : compareAll (contextOf lostRequest ⟨7⟩) lostRequest = .ok c := rfl
  have hp : persistDiscrepancies sqlRules emptyStore c.discrepancies = (emptyStore, .ok ([], 1)) := by
    simp only [c, persistDiscrepancies, persistDiscrepancy_emptyStore (show discrepancyFits d = true by decide)]
    rfl
  have hok : (saveRun sqlRules emptyStore (runOf lostRequest ⟨7⟩ c 1)).isOk = true := by
    have hfit : runFits (runOf lostRequest ⟨7⟩ c 1) = true := by decide +kernel
    unfold saveRun
    rw [hfit]
    rfl
  have hfound : d ∈ found lostRequest ⟨7⟩ := by
    simp only [found, hg, hc]
    exact List.mem_singleton_self d
  unfold run
  rw [hg, hc]
  simp only [hp]
  cases hs : saveRun sqlRules emptyStore (runOf lostRequest ⟨7⟩ c 1) with
  | error err => rw [hs] at hok; cases hok
  | ok db' => exact ⟨db', _, rfl, (saveRun_ok hs).2.1, d, hfound⟩

theorem run_stores_iff_lost : ∃ db' result, run sqlRules lostRequest ⟨7⟩ emptyStore = (db', .ok result) ∧
    db'.discrepancies = emptyStore.discrepancies ∧
      ((∀ d ∈ found lostRequest ⟨7⟩, Stored db' d) ↔ ∀ d ∈ found lostRequest ⟨7⟩, Stored emptyStore d) := by
  obtain ⟨db', result, hrun, -⟩ := lostRequest_run
  exact ⟨db', result, hrun, run_stores_iff hrun⟩

theorem not_stored_lost : ∃ db' result, run sqlRules lostRequest ⟨7⟩ emptyStore = (db', .ok result) ∧
    ∃ d ∈ found lostRequest ⟨7⟩, ¬ Stored db' d := by
  obtain ⟨db', result, hrun, hempty, d, hd⟩ := lostRequest_run
  refine ⟨db', result, hrun, d, hd, ?_⟩
  rintro (h | ⟨r, hr, -⟩)
  · rw [hempty] at h
    cases h
  · rw [hempty] at hr
    cases hr

/-! ### A second run with the same inputs -/

/-- There is nothing left to store for a discrepancy. -/
def Settled (t : Table Discrepancy String Discrepancy.discrepancyKey) (d : Discrepancy) : Prop :=
  ∃ r, t.get d.discrepancyKey = some r ∧ (r.contentHash = d.contentHash ∨ (t.get (conflictKey d)).isSome)

theorem Settled.mono {t t' : Table Discrepancy String Discrepancy.discrepancyKey} {d : Discrepancy}
    (h : Settled t d) (he : Extends t t') : Settled t' d := by
  obtain ⟨r, hr, hc⟩ := h
  refine ⟨r, he _ r hr, hc.imp_right fun hs => ?_⟩
  obtain ⟨c, hc⟩ := Option.isSome_iff_exists.mp hs
  exact Option.isSome_iff_exists.mpr ⟨c, he _ c hc⟩

section

variable {rules : StoreRules} (hf : rules.foreignKey = false)

include hf

theorem isSome_of_refused {db : ReconciliationDb} {runId : UUID} {k : String} (h : Refused rules db runId k) :
    (db.discrepancies.get k).isSome := by
  rcases h with ⟨hk, -⟩ | h
  · rw [hf] at hk
    cases hk
  · exact h

/-- A discrepancy that is dealt with is settled. -/
theorem PersistStep.settled {db db' : ReconciliationDb} {d : Discrepancy} {x : List Discrepancy × ℕ}
    (h : PersistStep rules db d db' (.ok x)) : Settled db'.discrepancies d := by
  cases h with
  | stored h => exact ⟨d, by rw [Table.get_of_insert (saveDiscrepancy_ok h).2.2, if_pos rfl], Or.inl rfl⟩
  | replayed hh =>
    obtain ⟨r, hr, hc⟩ := Option.map_eq_some_iff.mp hh
    exact ⟨r, hr, Or.inl hc⟩
  | conflict hk hr hd hh h =>
    obtain ⟨r, hr⟩ := Option.isSome_iff_exists.mp (isSome_of_refused hf hd)
    refine ⟨r, extends_of_save h _ r hr, Or.inr ?_⟩
    rw [Table.get_of_insert (saveDiscrepancy_ok h).2.2, if_pos hk]
    rfl
  | dropped hd hc =>
    obtain ⟨r, hr⟩ := Option.isSome_iff_exists.mp (isSome_of_refused hf hd)
    exact ⟨r, hr, Or.inr (isSome_of_refused hf hc)⟩

end

/-- A settled discrepancy changes nothing. -/
theorem persistDiscrepancy_of_settled {db : ReconciliationDb} {d : Discrepancy} (h : Settled db.discrepancies d)
    (rules : StoreRules) : (persistDiscrepancy rules db d).1 = db := by
  obtain ⟨r, hr, hc⟩ := h
  have hstep := persistStep rules db d
  generalize persistDiscrepancy rules db d = x at hstep
  obtain ⟨db', res⟩ := x
  cases hstep with
  | stored h =>
    have hn := (Table.insert?_eq_some (saveDiscrepancy_ok h).2.2).1
    rw [hr] at hn
    cases hn
  | unfit hw => rfl
  | replayed hh => rfl
  | conflict hk _ _ hh h =>
    -- the stored content differs, so the conflict is there, and a second one is not taken
    have hn := (Table.insert?_eq_some (saveDiscrepancy_ok h).2.2).1
    rcases hc with hc | hc
    · rw [hr, Option.map_some, hc] at hh
      exact absurd rfl hh
    · rw [hk] at hn
      rw [hn] at hc
      cases hc
  | dropped _ _ => rfl

/-- Settled up to the first discrepancy that the columns do not take. -/
def SettledUpTo (rules : StoreRules) (t : Table Discrepancy String Discrepancy.discrepancyKey) :
    List Discrepancy → Prop
  | [] => True
  | d :: l => tooWide rules d = true ∨ (Settled t d ∧ SettledUpTo rules t l)

/-- The id of the run does not matter for it. -/
theorem settledUpTo_withRun {rules : StoreRules} {t : Table Discrepancy String Discrepancy.discrepancyKey} (r : UUID) :
    ∀ {l : List Discrepancy}, SettledUpTo rules t l → SettledUpTo rules t (l.map (Discrepancy.withRun r))
  | [], _ => trivial
  | _ :: _, h => h.imp_right fun ⟨hd, hl⟩ => ⟨hd, settledUpTo_withRun r hl⟩

/-- The loop over the discrepancies settles them. -/
theorem persistDiscrepancies_settles {rules : StoreRules} (hf : rules.foreignKey = false) :
    ∀ (l : List Discrepancy) (db : ReconciliationDb),
      SettledUpTo rules (persistDiscrepancies rules db l).1.discrepancies l
  | [], _ => trivial
  | d :: l, db => by
    have hstep := persistStep rules db d
    unfold persistDiscrepancies
    cases hp : persistDiscrepancy rules db d with
    | mk db' res =>
      rw [hp] at hstep
      cases res with
      | error err =>
        cases hstep with
        | unfit hw => exact Or.inl hw
      | ok x =>
        have ih := persistDiscrepancies_settles hf l db'
        have hd := (hstep.settled hf).mono (persistDiscrepancies_extends rules l db').1
        simp only
        cases hq : persistDiscrepancies rules db' l with
        | mk db'' res' =>
          rw [hq] at ih hd
          cases res' <;> exact Or.inr ⟨hd, ih⟩

theorem persistDiscrepancy_tooWide {rules : StoreRules} {db : ReconciliationDb} {d : Discrepancy}
    (hw : tooWide rules d = true) :
    persistDiscrepancy rules db d = (db, .error (.persistence "discrepancy write failed")) := by
  have hs : saveDiscrepancy rules db d = .error (.persistence "discrepancy write failed") := if_pos hw
  unfold persistDiscrepancy
  rw [hs]

/-- Nothing is stored for discrepancies that are settled. -/
theorem persistDiscrepancies_of_settled {rules : StoreRules} :
    ∀ (l : List Discrepancy) (db : ReconciliationDb), SettledUpTo rules db.discrepancies l →
      (persistDiscrepancies rules db l).1 = db
  | [], _, _ => rfl
  | d :: l, db, h => by
    unfold persistDiscrepancies
    rcases h with hw | ⟨hd, hl⟩
    · rw [persistDiscrepancy_tooWide hw]
    · have hsame := persistDiscrepancy_of_settled hd rules
      cases hp : persistDiscrepancy rules db d with
      | mk db' res =>
        rw [hp] at hsame
        simp only at hsame
        subst hsame
        cases res with
        | error err => rfl
        | ok x =>
          have ih := persistDiscrepancies_of_settled l db' hl
          simp only
          cases hq : persistDiscrepancies rules db' l with
          | mk db'' res' =>
            rw [hq] at ih
            cases res' <;> exact ih

/-- **A second run with the same inputs and clock leaves the stored evidence as it is**, from every state of the
store, whichever constraints it enforces, and also when a run raises midway.  Where evidence refers to the row of its
run, the id of the second run is new. -/
theorem rerun_keeps_discrepancies (rules : StoreRules) (req : RunRequest) (r1 r2 : UUID) (db : ReconciliationDb)
    (hnew : rules.foreignKey = true → (run rules req r1 db).1.runs.get r2 = none) :
    (run rules req r2 (run rules req r1 db).1).1.discrepancies = (run rules req r1 db).1.discrepancies := by
  obtain ⟨h1, -⟩ := run_cases rules req r1 db
  obtain ⟨h2, -⟩ := run_cases rules req r2 (run rules req r1 db).1
  rw [h2]
  refine congrArg ReconciliationDb.discrepancies ?_
  cases hf : rules.foreignKey with
  | true => exact persistDiscrepancies_blocked hf _ _ (hnew hf) runId_of_found
  | false =>
    apply persistDiscrepancies_of_settled
    rw [h1, found_withRun req r1 r2]
    exact settledUpTo_withRun r2 (persistDiscrepancies_settles hf _ db)

/-- A store without the reference to the run. -/
def looseRules : StoreRules := ⟨false, true⟩

/-- A position that the broker does not know. -/
def lostPosition (quantity : ℤ) : PositionObservation := ⟨none, none, quantity, "BUY", none, none⟩

/-- One position, reported twice with different quantities. -/
def twiceRequest : RunRequest where
  scope := { accountId := ⟨1⟩, broker := "dhan", tradingMode := "PAPER", domains := ["POSITIONS"] }
  inputs := { positionsInternal := [lostPosition 5, lostPosition 7] }
  now := ⟨2026, 1, 5, 9, 15, 0, 0, some 0⟩

/-- What a run reports of the position. -/
def lostReport (quantity : ℤ) : Discrepancy :=
  discrepancy (contextOf twiceRequest ⟨7⟩) .position (positionMatchKey (lostPosition quantity)) .internalOnly
    (positionState (lostPosition quantity)) [] none

theorem found_twice : found twiceRequest ⟨7⟩ = [lostReport 5, lostReport 7] := by
  have hguard : guard twiceRequest.scope twiceRequest.globalHaltActive = .ok () := by decide
  unfold found
  rw [hguard]
  rfl

theorem contentHash_lostReport : (lostReport 5).contentHash ≠ (lostReport 7).contentHash := by decide +kernel

theorem settled_twice : SettledUpTo looseRules (run looseRules twiceRequest ⟨7⟩ emptyStore).1.discrepancies
    [lostReport 5, lostReport 7] := by
  rw [(run_cases looseRules twiceRequest ⟨7⟩ emptyStore).1, found_twice]
  exact persistDiscrepancies_settles rfl _ emptyStore

/-- Two discrepancies of one entity: the first run stores one and a conflict, and the second run leaves both. -/
theorem rerun_keeps_discrepancies_twice :
    ((run looseRules twiceRequest ⟨7⟩ emptyStore).1.discrepancies.get (lostReport 5).discrepancyKey).isSome ∧
    ((run looseRules twiceRequest ⟨7⟩ emptyStore).1.discrepancies.get (conflictKey (lostReport 5))).isSome ∧
    (run looseRules twiceRequest ⟨8⟩ (run looseRules twiceRequest ⟨7⟩ emptyStore).1).1.discrepancies =
      (run looseRules twiceRequest ⟨7⟩ emptyStore).1.discrepancies := by
  have hfit (quantity : ℤ) : tooWide looseRules (lostReport quantity) = false := by
    have hfits : discrepancyFits (lostReport quantity) = discrepancyFits (lostReport 5) := rfl
    rw [tooWide, hfits]
    decide +kernel
  obtain ⟨⟨r, hr, hfirst⟩, hrest⟩ := settled_twice.resolve_left (by rw [hfit]; exact Bool.false_ne_true)
  obtain ⟨⟨r', hr', hsecond⟩, -⟩ := hrest.resolve_left (by rw [hfit]; exact Bool.false_ne_true)
  refine ⟨Option.isSome_iff_exists.mpr ⟨r, hr⟩, ?_,
    rerun_keeps_discrepancies looseRules twiceRequest ⟨7⟩ ⟨8⟩ emptyStore fun h => by cases h⟩
  -- one row cannot have both contents
  have hsame : r = r' := Option.some.inj (hr.symm.trans hr')
  rcases hfirst with hfirst | hconflict
  · rcases hsecond with hsecond | hconflict
    · exact absurd (hfirst.symm.trans (hsame ▸ hsecond)) contentHash_lostReport
    · exact hconflict
  · exact hconflict

end AlphaAlgo.Reconciliation
