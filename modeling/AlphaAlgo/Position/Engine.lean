import AlphaAlgo.Position.Store

/-!
# Engine — applying fills to positions

`applyFill` is `PositionEngine.apply_fill` of one engine without concurrent calls: validate the fill, look up its
execution id, plan the new state from the stored position, and persist plan and event.  `computePlan` and
`resolveReplay` are also steps of the concurrent calls.

* `computePlan_ok`: everything a plan says.
* `applyFill_cases`: a call applies its fill, returns a duplicate, raises and changes nothing, or raises a conflict
  and appends evidence.
-/

namespace AlphaAlgo.Position

/-- What `apply_fill` raises. -/
inductive PositionError where
  | validation (text : String)
  | identity (text : String)
  | mode (text : String)
  | conflict (executionId : String)
  | overClose (current requested : ℤ)
  | persistence (text : String)
  | arithmetic (err : ArithmeticError)
deriving DecidableEq, Repr

/-- The checks of a fill that the side's type leaves. -/
def validate (globalHaltActive : Bool) (f : PositionFill) : Except PositionError Unit :=
  let mode := upper f.tradingMode
  if mode = "LIVE" then .error (.mode "LIVE trading is disabled (fail-closed)")
  else if mode ∉ allowedModes then .error (.mode ("unknown trading mode: " ++ f.tradingMode))
  else if globalHaltActive then
    .error (.validation "global trading halt is active; position updates refused")
  else if f.quantity.val ≤ 0 then .error (.validation "fill quantity must be positive")
  else if f.quantity.val ≠ halfEven f.quantity.val then
    .error (.validation "fill quantity must be a whole number")
  else if f.price.val ≤ 0 then .error (.validation "fill price must be positive")
  else .ok ()

/-! ### The plan -/

structure PositionApplyPlan where
  newState : PositionState
  event : PositionEventData

def quantityOrZero : Option PositionState → ℤ
  | none => 0
  | some s => s.quantity

/-- The state after a delta. -/
def nextState (positionId : Option UUID) (k : PositionIdentity) (accountId : Option UUID) (d : PositionDelta)
    (executionId : String) : PositionState where
  positionId := positionId
  identity := k
  accountId := accountId
  quantity := d.quantity
  averagePrice := d.averagePrice
  status := d.status
  openedAt := d.openedAt
  closedAt := d.closedAt
  lastExecutionId := some executionId

/-- The delta and the new state of a fill on the position that was loaded. -/
def planState (current : Option PositionState) (f : PositionFill) :
    Except PositionError (PositionDelta × PositionState) :=
  match current with
  | none =>
    match f.side with
    | .sell => .error (.overClose 0 f.shares)
    | .buy =>
      match applyBuy .default 0 none none f.shares f.price.val f.occurredAt with
      | .error err => .error (.arithmetic err)
      | .ok d => .ok (d, nextState none f.identity (some f.accountId) d f.executionId)
  | some c =>
    if c.accountId.isSome && c.accountId ≠ some f.accountId then
      .error (.identity "fill account does not match existing position account")
    else
      let delta := match f.side with
        | .buy => applyBuy .default c.quantity c.averagePrice c.openedAt f.shares f.price.val f.occurredAt
        | .sell => applySell c.quantity c.averagePrice c.openedAt f.shares f.occurredAt
      match delta with
      | .error .exceeds => .error (.overClose c.quantity f.shares)
      | .error err => .error (.arithmetic err)
      | .ok d => .ok (d, nextState c.positionId c.identity (c.accountId.or (some f.accountId)) d f.executionId)

def computePlan (current : Option PositionState) (f : PositionFill) : Except PositionError PositionApplyPlan :=
  match planState current f with
  | .error err => .error err
  | .ok (d, s) => .ok
      { newState := s
        event :=
          { eventType := d.eventType
            quantityBefore := quantityOrZero current
            quantityAfter := d.quantity
            executionId := f.executionId
            contentHash := fillContentHash f
            occurredAt := f.occurredAt
            reason := "fill " ++ f.side.value ++ " " ++ toString f.shares ++ " @ " ++ f.price.str } }

/-! ### Results -/

inductive PositionApplyStatus where
  | applied
  | duplicate
deriving DecidableEq, Repr

/-- The read model of a position. -/
structure PositionSnapshot where
  state : PositionState
  side : Option String

structure PositionResult where
  status : PositionApplyStatus
  eventType : Option PositionEventType
  snapshot : PositionSnapshot
  quantityBefore : ℤ
  quantityAfter : ℤ

def toSnapshot (s : PositionState) : PositionSnapshot := ⟨s, if s.quantity > 0 then some "LONG" else none⟩

def flatSnapshot (k : PositionIdentity) : PositionSnapshot :=
  ⟨⟨none, k, none, 0, none, .flat, none, none, none⟩, none⟩

def appliedResult (plan : PositionApplyPlan) : PositionResult where
  status := .applied
  eventType := some plan.event.eventType
  snapshot := toSnapshot plan.newState
  quantityBefore := plan.event.quantityBefore
  quantityAfter := plan.event.quantityAfter

def duplicateResult (k : PositionIdentity) (current : Option PositionState) : PositionResult where
  status := .duplicate
  eventType := none
  snapshot := match current with
    | none => flatSnapshot k
    | some s => toSnapshot s
  quantityBefore := quantityOrZero current
  quantityAfter := quantityOrZero current

/-- `stored_hash or ""`. -/
def originalHash (storedHash : Option Scalar) : Scalar := (storedHash.filter Scalar.truthy).getD (.str "")

def resolveReplay (db : PositionDb) (f : PositionFill) (storedHash : Option Scalar) :
    PositionDb × Except PositionError PositionResult :=
  if storedHash = some (.str (fillContentHash f)) then
    (db, .ok (duplicateResult f.identity (loadPosition db f.identity)))
  else (recordConflict db f (originalHash storedHash), .error (.conflict f.executionId))

/-- One call of `apply_fill`; `newId` is the id drawn for a new position. -/
def applyFill (globalHaltActive : Bool) (newId : UUID) (db : PositionDb) (f : PositionFill) :
    PositionDb × Except PositionError PositionResult :=
  match validate globalHaltActive f with
  | .error err => (db, .error err)
  | .ok _ =>
    let existingHash := findFillHash db f.executionId
    if existingHash.isSome then resolveReplay db f existingHash
    else match computePlan (loadPosition db f.identity) f with
      | .error err => (db, .error err)
      | .ok plan =>
        match persistApply db f.identity plan.newState plan.event newId with
        | .ok db' => (db', .ok (appliedResult plan))
        | .error .duplicateApply => resolveReplay db f (findFillHash db f.executionId)
        | .error (.persistence text) => (db, .error (.persistence text))

/-! ### What a plan says -/

/-- The signed quantity of a fill. -/
def PositionFill.signed (f : PositionFill) : ℤ :=
  match f.side with
  | .buy => f.shares
  | .sell => -f.shares

/-- The fields of a state fit together. -/
def PositionState.Consistent (s : PositionState) : Prop :=
  OpenOrClosed s.quantity s.averagePrice s.status s.closedAt

/-- **Everything a plan says**: the state of the same position with the fill added, and the event that leads from
the old quantity to the new one. -/
structure PlanFor (current : Option PositionState) (f : PositionFill) (plan : PositionApplyPlan) : Prop where
  identity : plan.newState.identity = f.identity
  positionId : plan.newState.positionId = current.bind PositionState.positionId
  account : plan.newState.accountId = some f.accountId
  quantity : plan.newState.quantity = quantityOrZero current + f.signed
  consistent : (∀ c ∈ current, c.Consistent) → plan.newState.Consistent
  before : plan.event.quantityBefore = quantityOrZero current
  after : plan.event.quantityAfter = plan.newState.quantity
  executionId : plan.event.executionId = f.executionId
  notConflict : plan.event.eventType ≠ .conflict

/-- The delta of a fill on a stored position, whatever its side. -/
theorem delta_ok {c : PositionState} {f : PositionFill} {d : PositionDelta}
    (h : (match f.side with
      | .buy => applyBuy .default c.quantity c.averagePrice c.openedAt f.shares f.price.val f.occurredAt
      | .sell => applySell c.quantity c.averagePrice c.openedAt f.shares f.occurredAt) = .ok d) :
    d.quantity = c.quantity + f.signed ∧ d.eventType ≠ .conflict ∧
      (c.Consistent → OpenOrClosed d.quantity d.averagePrice d.status d.closedAt) := by
  unfold PositionFill.signed
  cases hs : f.side with
  | buy =>
    rw [hs] at h
    obtain ⟨-, hq, -, he, -⟩ := applyBuy_ok h
    exact ⟨hq, he, fun hc => OpenOrClosed.applyBuy hc.nonneg h⟩
  | sell =>
    rw [hs] at h
    obtain ⟨-, -, hq, he, -, -⟩ := applySell_ok h
    exact ⟨by rw [hq, sub_eq_add_neg], he, fun hc => OpenOrClosed.applySell hc h⟩

theorem computePlan_ok {current : Option PositionState} {f : PositionFill} {plan : PositionApplyPlan}
    (h : computePlan current f = .ok plan) (hk : ∀ c ∈ current, c.identity = f.identity) :
    PlanFor current f plan := by
  unfold computePlan planState at h
  cases current with
  | none =>
    cases hs : f.side with
    | sell => rw [hs] at h; cases h
    | buy =>
      simp only [hs] at h
      cases hb : applyBuy .default 0 none none f.shares f.price.val f.occurredAt with
      | error err => rw [hb] at h; cases h
      | ok d =>
        rw [hb] at h
        cases h
        obtain ⟨-, hq, -, he, -⟩ := applyBuy_ok hb
        refine ⟨rfl, rfl, rfl, ?_, fun _ => OpenOrClosed.applyBuy le_rfl hb, rfl, rfl, rfl, he⟩
        show d.quantity = 0 + f.signed
        rw [hq, PositionFill.signed, hs]
  | some c =>
    simp only at h
    by_cases hacc : (c.accountId.isSome && c.accountId ≠ some f.accountId) = true
    · rw [if_pos hacc] at h; cases h
    · rw [if_neg hacc] at h
      have hor : c.accountId.or (some f.accountId) = some f.accountId := by
        cases ha : c.accountId with
        | none => rfl
        | some a => simpa [ha] using hacc
      revert h
      generalize hd : (match f.side with
        | .buy => applyBuy .default c.quantity c.averagePrice c.openedAt f.shares f.price.val f.occurredAt
        | .sell => applySell c.quantity c.averagePrice c.openedAt f.shares f.occurredAt) = delta
      intro h
      cases delta with
      | error err => cases err <;> cases h
      | ok d =>
        cases h
        obtain ⟨hq, he, hcons⟩ := delta_ok hd
        exact ⟨hk c rfl, rfl, hor, hq, fun hc => hcons (hc c rfl), rfl, rfl, rfl, he⟩

theorem identity_of_loadPosition {db : PositionDb} {k : PositionIdentity} :
    ∀ c ∈ loadPosition db k, c.identity = k := by
  intro c hc
  unfold loadPosition at hc
  rw [Option.mem_map] at hc
  obtain ⟨r, hr, rfl⟩ := hc
  have hkey : r.identity = k := Table.key_of_get hr
  exact hkey

/-! ### What a call does -/

/-- The outcomes of a call on `db`: database after the call, and result. -/
inductive CallOutcome (newId : UUID) (db : PositionDb) (f : PositionFill) :
    PositionDb → Except PositionError PositionResult → Prop
  | applied {plan : PositionApplyPlan} {db' : PositionDb}
      (hplan : computePlan (loadPosition db f.identity) f = .ok plan)
      (hpersist : persistApply db f.identity plan.newState plan.event newId = .ok db') :
      CallOutcome newId db f db' (.ok (appliedResult plan))
  | duplicate : CallOutcome newId db f db (.ok (duplicateResult f.identity (loadPosition db f.identity)))
  | raised {err : PositionError} (herr : err ≠ .conflict f.executionId) : CallOutcome newId db f db (.error err)
  | conflict (hash : Scalar) : CallOutcome newId db f (recordConflict db f hash) (.error (.conflict f.executionId))

theorem resolveReplay_outcome (newId : UUID) (db : PositionDb) (f : PositionFill) (stored : Option Scalar) :
    CallOutcome newId db f (resolveReplay db f stored).1 (resolveReplay db f stored).2 := by
  unfold resolveReplay
  split_ifs
  · exact .duplicate
  · exact .conflict _

theorem planState_error {current : Option PositionState} {f : PositionFill} {err : PositionError} (id : String)
    (h : planState current f = .error err) : err ≠ .conflict id := by
  unfold planState at h
  cases current with
  | none =>
    cases hs : f.side with
    | sell => rw [hs] at h; cases h; simp
    | buy =>
      simp only [hs] at h
      cases hb : applyBuy .default 0 none none f.shares f.price.val f.occurredAt <;> rw [hb] at h <;> cases h
      simp
  | some c =>
    simp only at h
    split_ifs at h
    · cases h; simp
    · split at h <;> cases h <;> simp

theorem validate_error {halt : Bool} {f : PositionFill} {err : PositionError} (id : String)
    (h : validate halt f = .error err) : err ≠ .conflict id := by
  unfold validate at h
  simp only at h
  split_ifs at h <;> cases h <;> simp

/-- **What a call does.** -/
theorem applyFill_cases (halt : Bool) (newId : UUID) (db : PositionDb) (f : PositionFill) :
    CallOutcome newId db f (applyFill halt newId db f).1 (applyFill halt newId db f).2 := by
  unfold applyFill
  cases hv : validate halt f with
  | error err => exact .raised (validate_error _ hv)
  | ok u =>
    simp only
    split_ifs
    · exact resolveReplay_outcome newId db f _
    · cases hp : computePlan (loadPosition db f.identity) f with
      | error err =>
        refine .raised ?_
        unfold computePlan at hp
        cases hs : planState (loadPosition db f.identity) f <;> rw [hs] at hp <;> cases hp
        exact planState_error _ hs
      | ok plan =>
        simp only
        cases hpersist : persistApply db f.identity plan.newState plan.event newId with
        | ok db' => exact .applied hp hpersist
        | error err =>
          cases err with
          | duplicateApply => exact resolveReplay_outcome newId db f _
          | persistence text => exact .raised (by simp)

end AlphaAlgo.Position
