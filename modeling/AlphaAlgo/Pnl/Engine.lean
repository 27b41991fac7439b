import AlphaAlgo.Position.Engine

/-!
# Engine — realised profit and loss

The accounting functions and `PnlEngine.record_fill`: a sale is booked against the average price of the position
before it.  Booked events are stored under their execution id.  The context of the `Decimal` operations is a
parameter, as in the position arithmetic.
-/

namespace AlphaAlgo.Pnl

open Position

/-! ### Accounting -/

/-- What the accounting raises. -/
inductive AccountingError where
  | notPositive
  | invalidOperation
deriving DecidableEq, Repr

def AccountingError.text : AccountingError → String
  | notPositive => "closed_quantity must be positive"
  | invalidOperation => "[<class 'decimal.InvalidOperation'>]"

section

variable (ctx : Ctx)

/-- Four places, half-even. -/
def roundMoney (value : ℚ) : Except AccountingError ℚ :=
  match ctx.quantize? (-4) value with
  | some x => .ok x
  | none => .error .invalidOperation

def realizedPnlLong (sellPrice averageCost : ℚ) (closedQuantity : ℤ) : Except AccountingError ℚ :=
  if closedQuantity ≤ 0 then .error .notPositive
  else roundMoney ctx (ctx.fix (ctx.fix (sellPrice - averageCost) * closedQuantity))

def netPnl (gross costs : ℚ) : Except AccountingError ℚ := roundMoney ctx (ctx.fix (gross - costs))

/-- A cost of a fill; amounts are not negative. -/
structure CostComponent where
  amount : Dec
  nonneg : 0 ≤ amount.val

def costsTotal (costs : List CostComponent) : Except AccountingError ℚ :=
  roundMoney ctx (costs.foldl (fun a c => ctx.fix (a + c.amount.val)) 0)

end

/-! ### Events -/

inductive PnlEventType where
  | realizedPnl
deriving DecidableEq, Repr

def PnlEventType.value : PnlEventType → String
  | realizedPnl => "REALIZED_PNL"

structure PnlEvent where
  executionId : String
  eventType : PnlEventType
  accountId : UUID
  strategyRunId : UUID
  instrumentId : UUID
  positionId : Option UUID
  tradingMode : String
  side : Side
  quantity : ℤ
  price : ℚ
  averageCost : ℚ
  grossPnl : ℚ
  costs : ℚ
  netPnl : ℚ
  occurredAt : DateTime
  contentHash : String
deriving DecidableEq

/-- An amount of four places as text. -/
def moneyText (x : ℚ) : String := (Dec.places (-4) x).str

/-- The hashed content of an event, keys sorted. -/
def eventContentHash (f : PositionFill) (eventType : PnlEventType) (quantity : ℤ)
    (averageCost gross costs net : ℚ) : String :=
  sha256 ((Json.obj [("account_id", .str f.accountId.str), ("average_cost", .str (moneyText averageCost)),
    ("costs", .str (moneyText costs)), ("event_type", .str eventType.value),
    ("execution_id", .str f.executionId), ("gross_pnl", .str (moneyText gross)),
    ("instrument_id", .str f.instrumentId.str), ("net_pnl", .str (moneyText net)),
    ("occurred_at", .str f.occurredAt.isoformat), ("price", .str f.price.str), ("quantity", .int quantity),
    ("side", .str f.side.value), ("strategy_run_id", .str f.strategyRunId.str),
    ("trading_mode", .str (upper f.tradingMode))]).dumps .compact)

def buildEvent (f : PositionFill) (positionId : Option UUID) (eventType : PnlEventType) (closedQty : ℤ)
    (averageCost gross costs net : ℚ) : PnlEvent where
  executionId := f.executionId
  eventType := eventType
  accountId := f.accountId
  strategyRunId := f.strategyRunId
  instrumentId := f.instrumentId
  positionId := positionId
  tradingMode := upper f.tradingMode
  side := f.side
  quantity := closedQty
  price := f.price.val
  averageCost := averageCost
  grossPnl := gross
  costs := costs
  netPnl := net
  occurredAt := f.occurredAt
  contentHash := eventContentHash f eventType closedQty averageCost gross costs net

/-! ### The repository -/

/-- The table `pnl_events` and the positions that it may refer to. -/
structure PnlDb where
  events : Table PnlEvent String PnlEvent.executionId
  positions : List UUID

/-- The row of an event. -/
def storedEvent (e : PnlEvent) : PnlEvent :=
  { e with
    price := numeric4 e.price
    averageCost := numeric4 e.averageCost
    grossPnl := numeric4 e.grossPnl
    costs := numeric4 e.costs
    netPnl := numeric4 e.netPnl }

/-- The columns take the event. -/
def eventFits (e : PnlEvent) : Bool :=
  fits 64 e.executionId && fits 16 e.tradingMode && (Int4.of? e.quantity).isSome &&
    [e.price, e.averageCost, e.grossPnl, e.costs, e.netPnl].all fun x => |numeric4 x| < 10 ^ 14

inductive SaveError where
  | duplicateExecution
  | persistence (text : String)
deriving DecidableEq, Repr

def saveEvent (db : PnlDb) (e : PnlEvent) : Except SaveError (PnlEvent × PnlDb) :=
  if !eventFits e then .error (.persistence "P&L event write failed")
  else if !e.positionId.all (· ∈ db.positions) then .error .duplicateExecution
  else match db.events.insert? (storedEvent e) with
    | none => .error .duplicateExecution
    | some events => .ok (storedEvent e, { db with events := events })

def loadEvent (db : PnlDb) (executionId : String) : Option PnlEvent := db.events.get executionId

/-! ### Recording a fill -/

/-- What `record_fill` raises. -/
inductive PnlError where
  | validation (text : String)
  | data (text : String)
  | mode (text : String)
  | overClose (text : String)
  | persistence (text : String)
  | accounting (err : AccountingError)
deriving DecidableEq, Repr

/-- Outcome of recording a fill; `RealizedPnl` is read off the event. -/
inductive PnlResult where
  | opened
  | applied (event : PnlEvent)
  | duplicate (event : PnlEvent)
  | conflict (original : PnlEvent)

def guardMode (tradingMode : String) : Except PnlError Unit :=
  let mode := upper tradingMode
  if mode = "LIVE" then .error (.mode "LIVE trading is disabled (fail-closed)")
  else if mode ∉ allowedModes then .error (.mode ("unknown trading mode: " ++ tradingMode))
  else .ok ()

def validate (globalHaltActive : Bool) (f : PositionFill) : Except PnlError Unit := do
  guardMode f.tradingMode
  if globalHaltActive then .error (.validation "global trading halt is active; P&L refused") else .ok ()

/-- The event of a sale. -/
def realize (ctx : Ctx) (f : PositionFill) (positionBefore : Option PositionState)
    (costs : List CostComponent) : Except PnlError PnlEvent :=
  match positionBefore with
  | none => .error (.overClose "SELL on a flat/unknown position")
  | some p =>
    if p.quantity ≤ 0 then .error (.overClose "SELL on a flat/unknown position")
    else if f.shares > p.quantity then .error (.overClose "SELL exceeds open long quantity")
    else match p.averagePrice with
      | none => .error (.data "cannot realize P&L without a cost basis")
      | some avg =>
        match realizedPnlLong ctx f.price.val avg f.shares with
        | .error err => .error (.accounting err)
        | .ok gross =>
          match costsTotal ctx costs with
          | .error err => .error (.accounting err)
          | .ok total =>
            match netPnl ctx gross total with
            | .error err => .error (.accounting err)
            | .ok net => .ok (buildEvent f p.positionId .realizedPnl f.shares avg gross total net)

def recordFill (ctx : Ctx) (globalHaltActive : Bool) (db : PnlDb) (f : PositionFill)
    (positionBefore : Option PositionState) (costs : List CostComponent) : Except PnlError (PnlResult × PnlDb) :=
  match validate globalHaltActive f with
  | .error err => .error err
  | .ok _ =>
    match f.side with
    | .buy => .ok (.opened, db)
    | .sell =>
      match realize ctx f positionBefore costs with
      | .error err => .error err
      | .ok event =>
        match saveEvent db event with
        | .ok (persisted, db') => .ok (.applied persisted, db')
        | .error (.persistence text) => .error (.persistence text)
        | .error .duplicateExecution =>
          match loadEvent db f.executionId with
          | none => .error (.persistence "duplicate but no existing event")
          | some existing =>
            if existing.contentHash ≠ event.contentHash then .ok (.conflict existing, db)
            else .ok (.duplicate existing, db)

/-- **Everything a recorded fill does**: a purchase books nothing; a sale stores its event, or finds the event of
its execution id. -/
theorem recordFill_ok {ctx : Ctx} {halt : Bool} {db db' : PnlDb} {f : PositionFill} {p : Option PositionState}
    {costs : List CostComponent} {r : PnlResult} (h : recordFill ctx halt db f p costs = .ok (r, db')) :
    (f.side = .buy ∧ r = .opened ∧ db' = db) ∨
    (f.side = .sell ∧ ∃ event, realize ctx f p costs = .ok event ∧
      ((∃ persisted, saveEvent db event = .ok (persisted, db') ∧ r = .applied persisted) ∨
        (db' = db ∧ ∃ existing, loadEvent db f.executionId = some existing ∧
          (r = .duplicate existing ∨ r = .conflict existing)))) := by
  unfold recordFill at h
  cases hv : validate halt f with
  | error err => rw [hv] at h; cases h
  | ok u =>
    rw [hv] at h
    cases hs : f.side with
    | buy => simp only [hs] at h; cases h; exact Or.inl ⟨rfl, rfl, rfl⟩
    | sell =>
      simp only [hs] at h
      cases hr : realize ctx f p costs with
      | error err => rw [hr] at h; cases h
      | ok event =>
        refine Or.inr ⟨rfl, event, rfl, ?_⟩
        rw [hr] at h
        simp only at h
        cases hsave : saveEvent db event with
        | ok s => rw [hsave] at h; cases h; exact Or.inl ⟨_, rfl, rfl⟩
        | error err =>
          rw [hsave] at h
          cases err with
          | persistence text => cases h
          | duplicateExecution =>
            simp only at h
            cases hl : loadEvent db f.executionId with
            | none => rw [hl] at h; cases h
            | some existing =>
              rw [hl] at h
              simp only at h
              split_ifs at h <;> cases h
              · exact Or.inr ⟨rfl, existing, rfl, Or.inr rfl⟩
              · exact Or.inr ⟨rfl, existing, rfl, Or.inl rfl⟩

/-- A stored event is the row of the event. -/
theorem saveEvent_ok {db db' : PnlDb} {e persisted : PnlEvent} (h : saveEvent db e = .ok (persisted, db')) :
    persisted = storedEvent e ∧ db.events.insert? (storedEvent e) = some db'.events := by
  unfold saveEvent at h
  split_ifs at h
  cases hi : db.events.insert? (storedEvent e) with
  | none => rw [hi] at h; cases h
  | some events => rw [hi] at h; cases h; exact ⟨rfl, rfl⟩

end AlphaAlgo.Pnl
