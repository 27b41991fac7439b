import AlphaAlgo.Lib.Decimal
import AlphaAlgo.Lib.Sha256
import AlphaAlgo.Lib.Table
import AlphaAlgo.Position.Arithmetic

/-!
# Store — fills, positions and position events in the database

`PositionFill`, its identity and content hash, the tables `positions` and `position_events`, and the operations of
the position repository.  The constraints of the tables are fields of `PositionDb`: unique identities, unique
execution ids, unique position ids, and the reference from an event to its position.

`persistApply` is one transaction.  `insertApply` and `updateApply` are its two halves: they are what the commit
does when the row lock was asked for a missing row and for an existing one.
-/

namespace AlphaAlgo.Position

/-! ### Fills -/

/-- `BUY` and `SELL`: the constructor of a fill admits no other side. -/
inductive Side where
  | buy
  | sell
deriving DecidableEq, Repr

def Side.value : Side → String
  | buy => "BUY"
  | sell => "SELL"

/-- A normalised fill; the last fields are the checks of `__post_init__`. -/
structure PositionFill where
  executionId : String
  accountId : UUID
  instrumentId : UUID
  strategyRunId : UUID
  tradingMode : String
  side : Side
  quantity : Dec
  price : Dec
  occurredAt : DateTime
  executionId_given : blank executionId = false
  tradingMode_given : blank tradingMode = false
  quantity_pos : 0 < quantity.val
  price_pos : 0 < price.val
  occurredAt_aware : occurredAt.aware = true

/-- A fill in paper trading. -/
def paperFill (executionId : String) (side : Side) (quantity price : Dec)
    (h : blank executionId = false ∧ 0 < quantity.val ∧ 0 < price.val) : PositionFill where
  executionId := executionId
  accountId := ⟨1⟩
  instrumentId := ⟨2⟩
  strategyRunId := ⟨3⟩
  tradingMode := "PAPER"
  side := side
  quantity := quantity
  price := price
  occurredAt := ⟨2026, 8, 12, 9, 30, 0, 0, some 0⟩
  executionId_given := h.1
  tradingMode_given := by decide +kernel
  quantity_pos := h.2.1
  price_pos := h.2.2
  occurredAt_aware := by decide +kernel

/-- The key of a position. -/
structure PositionIdentity where
  strategyRunId : UUID
  instrumentId : UUID
  tradingMode : String
deriving DecidableEq, Repr

/-- `build_position_identity` of a fill. -/
def PositionFill.identity (f : PositionFill) : PositionIdentity :=
  ⟨f.strategyRunId, f.instrumentId, upper f.tradingMode⟩

/-- `int(fill.quantity)`. -/
def PositionFill.shares (f : PositionFill) : ℤ := pyInt f.quantity.val

/-- The hashed economics of a fill, keys sorted. -/
def fillContentHash (f : PositionFill) : String :=
  sha256 ((Json.obj [("occurred_at", .str f.occurredAt.isoformat), ("price", .str f.price.str),
    ("quantity", .str f.quantity.str), ("side", .str (upper f.side.value))]).dumps .compact)

/-! ### Tables -/

/-- A row of `positions`. -/
structure PositionRow where
  id : UUID
  identity : PositionIdentity
  brokerAccountId : Option UUID
  quantity : Int4
  averagePrice : Option ℚ
  openedAt : Option DateTime
  closedAt : Option DateTime
  status : PositionStatus
  lastExecutionId : Option String
deriving DecidableEq

/-- A row of `position_events`. -/
structure PositionEvent where
  positionId : UUID
  sourceEventId : String
  eventType : PositionEventType
  quantityBefore : ℤ
  quantityAfter : ℤ
  eventTimestamp : DateTime
  reason : String
  eventPayload : List (String × Scalar)
deriving DecidableEq

/-- The rows that positions refer to. -/
structure References where
  strategyRuns : List UUID
  instruments : List UUID
  brokerAccounts : List UUID

structure PositionDb where
  positions : Table PositionRow PositionIdentity PositionRow.identity
  events : Table PositionEvent String PositionEvent.sourceEventId
  references : References
  ids : (positions.rows.map PositionRow.id).Nodup
  owned : ∀ e ∈ events.rows, e.positionId ∈ positions.rows.map PositionRow.id

namespace PositionDb

/-- A store without positions. -/
def empty (references : References) : PositionDb where
  positions := Table.empty
  events := Table.empty
  references := references
  ids := List.nodup_nil
  owned := fun e he => absurd he (by simp [Table.empty])

/-- Insert a position; `none` when a constraint is broken. -/
def addPosition (db : PositionDb) (row : PositionRow) : Option PositionDb :=
  if !(row.identity.strategyRunId ∈ db.references.strategyRuns &&
      row.identity.instrumentId ∈ db.references.instruments &&
      row.brokerAccountId.all (· ∈ db.references.brokerAccounts)) then none
  else if hid : row.id ∈ db.positions.rows.map PositionRow.id then none
  else match hp : db.positions.insert? row with
    | none => none
    | some positions => some
        { db with
          positions := positions
          ids := by
            rw [(Table.insert?_eq_some hp).2, List.map_append, List.nodup_append]
            refine ⟨db.ids, by simp, ?_⟩
            rintro a ha b hb rfl
            simp only [List.map_cons, List.map_nil, List.mem_singleton] at hb
            exact hid (hb ▸ ha)
          owned := fun e he => by
            rw [(Table.insert?_eq_some hp).2, List.map_append]
            exact List.mem_append_left _ (db.owned e he) }

theorem modify_ids (t : Table PositionRow PositionIdentity PositionRow.identity) (k : PositionIdentity)
    (f : PositionRow → PositionRow) (hf : ∀ r, (f r).identity = r.identity) (hid : ∀ r, (f r).id = r.id) :
    (t.modify k f hf).rows.map PositionRow.id = t.rows.map PositionRow.id := by
  rw [Table.modify, List.map_map]
  refine List.map_congr_left fun r _ => ?_
  simp only [Function.comp_apply]
  split_ifs
  · exact hid r
  · rfl

/-- Update the position of an identity in place. -/
def setPosition (db : PositionDb) (k : PositionIdentity) (f : PositionRow → PositionRow)
    (hf : ∀ r, (f r).identity = r.identity) (hid : ∀ r, (f r).id = r.id) : PositionDb :=
  { db with
    positions := db.positions.modify k f hf
    ids := by rw [modify_ids _ _ _ _ hid]; exact db.ids
    owned := by rw [modify_ids _ _ _ _ hid]; exact db.owned }

theorem positions_setPosition (db : PositionDb) (k : PositionIdentity) (f : PositionRow → PositionRow)
    (hf : ∀ r, (f r).identity = r.identity) (hid : ∀ r, (f r).id = r.id) :
    (db.setPosition k f hf hid).positions = db.positions.modify k f hf := rfl

/-- Append an event; `none` when its execution id is there or its position is not. -/
def addEvent (db : PositionDb) (e : PositionEvent) : Option PositionDb :=
  if hpos : e.positionId ∈ db.positions.rows.map PositionRow.id then
    match he : db.events.insert? e with
    | none => none
    | some events => some
        { db with
          events := events
          owned := fun e' he' => by
            rw [(Table.insert?_eq_some he).2, List.mem_append, List.mem_singleton] at he'
            rcases he' with he' | rfl
            · exact db.owned e' he'
            · exact hpos }
  else none

end PositionDb

/-! ### The projection of a row -/

structure PositionState where
  positionId : Option UUID
  identity : PositionIdentity
  accountId : Option UUID
  quantity : ℤ
  averagePrice : Option ℚ
  status : PositionStatus
  openedAt : Option DateTime
  closedAt : Option DateTime
  lastExecutionId : Option String
deriving DecidableEq

def toState (r : PositionRow) : PositionState where
  positionId := some r.id
  identity := r.identity
  accountId := r.brokerAccountId
  quantity := r.quantity.val
  averagePrice := r.averagePrice
  status := r.status
  openedAt := r.openedAt
  closedAt := r.closedAt
  lastExecutionId := r.lastExecutionId

/-- The event that the engine computes. -/
structure PositionEventData where
  eventType : PositionEventType
  quantityBefore : ℤ
  quantityAfter : ℤ
  executionId : String
  contentHash : String
  occurredAt : DateTime
  reason : String
deriving DecidableEq

/-! ### The repository -/

/-- The stored content hash of an execution id; conflict evidence has none. -/
def findFillHash (db : PositionDb) (executionId : String) : Option Scalar :=
  ((db.events.get executionId).bind fun e => e.eventPayload.lookup "_content_hash").filter (· ≠ .none)

def loadPosition (db : PositionDb) (k : PositionIdentity) : Option PositionState := (db.positions.get k).map toState

/-- What `persist_apply` raises. -/
inductive PersistError where
  | duplicateApply
  | persistence (text : String)
deriving DecidableEq, Repr

/-- A `NUMERIC(18, 4)` column takes the price. -/
def priceFits (p : Option ℚ) : Bool := p.all fun x => |x| < 10 ^ 14

/-- The columns take the state. -/
def stateFits (s : PositionState) : Bool :=
  priceFits s.averagePrice && s.lastExecutionId.all (fits 64) && fits 16 s.identity.tradingMode

def newPositionRow (s : PositionState) (quantity : Int4) (newId : UUID) : PositionRow where
  id := s.positionId.getD newId
  identity := s.identity
  brokerAccountId := s.accountId
  quantity := quantity
  averagePrice := s.averagePrice
  openedAt := s.openedAt
  closedAt := s.closedAt
  status := s.status
  lastExecutionId := s.lastExecutionId

def applyState (s : PositionState) (quantity : Int4) (r : PositionRow) : PositionRow :=
  { r with
    brokerAccountId := s.accountId
    quantity := quantity
    averagePrice := s.averagePrice
    openedAt := s.openedAt
    closedAt := s.closedAt
    status := s.status
    lastExecutionId := s.lastExecutionId }

theorem applyState_identity (s : PositionState) (q : Int4) (r : PositionRow) :
    (applyState s q r).identity = r.identity := rfl

theorem applyState_id (s : PositionState) (q : Int4) (r : PositionRow) : (applyState s q r).id = r.id := rfl

def newEventRow (positionId : UUID) (e : PositionEventData) : PositionEvent where
  positionId := positionId
  sourceEventId := e.executionId
  eventType := e.eventType
  quantityBefore := e.quantityBefore
  quantityAfter := e.quantityAfter
  eventTimestamp := e.occurredAt
  reason := e.reason
  eventPayload := [("_content_hash", .str e.contentHash)]

/-- The event row and the commit. -/
def appendApply (db : PositionDb) (positionId : UUID) (event : PositionEventData) : Except PersistError PositionDb :=
  if !fits 150 event.executionId then .error (.persistence "position apply failed")
  else match db.addEvent (newEventRow positionId event) with
    | none => .error .duplicateApply
    | some db' => .ok db'

/-- The transaction when no row was found: insert the position, then its event. -/
def insertApply (db : PositionDb) (state : PositionState) (event : PositionEventData) (newId : UUID) :
    Except PersistError PositionDb :=
  match Int4.of? state.quantity with
  | none => .error (.persistence "position apply failed")
  | some q =>
    if !stateFits state then .error (.persistence "position apply failed")
    else
      let row := newPositionRow state q newId
      match db.addPosition row with
      | none => .error .duplicateApply
      | some db' => appendApply db' row.id event

/-- The transaction when the row was found and locked: overwrite it with the state, then append the event. -/
def updateApply (db : PositionDb) (row : PositionRow) (state : PositionState) (event : PositionEventData) :
    Except PersistError PositionDb :=
  match Int4.of? state.quantity with
  | none => .error (.persistence "position apply failed")
  | some q =>
    if !stateFits state then .error (.persistence "position apply failed")
    else if !state.accountId.all (· ∈ db.references.brokerAccounts) then .error .duplicateApply
    else
      appendApply (db.setPosition row.identity (applyState state q) (applyState_identity state q)
        (applyState_id state q)) row.id event

def persistApply (db : PositionDb) (k : PositionIdentity) (state : PositionState) (event : PositionEventData)
    (newId : UUID) : Except PersistError PositionDb :=
  match db.positions.get k with
  | none => insertApply db state event newId
  | some row => updateApply db row state event

/-- The position that conflict evidence is attached to. -/
def conflictPosition (db : PositionDb) (f : PositionFill) : Option UUID :=
  match db.events.get f.executionId with
  | some original => some original.positionId
  | none => (db.positions.get ⟨f.strategyRunId, f.instrumentId, f.tradingMode⟩).map PositionRow.id

def conflictRow (f : PositionFill) (positionId : UUID) (originalHash : Scalar) : PositionEvent where
  positionId := positionId
  sourceEventId := "conflict-" ++ f.executionId
  eventType := .conflict
  quantityBefore := 0
  quantityAfter := 0
  eventTimestamp := f.occurredAt
  reason := "same execution identity, different payload"
  eventPayload := [("execution_id", .str f.executionId), ("original_hash", originalHash),
    ("conflicting_hash", .str (fillContentHash f)), ("side", .str f.side.value),
    ("quantity", .str f.quantity.str), ("price", .str f.price.str)]

/-- Evidence of a conflict, if it can be stored; failures are swallowed. -/
def recordConflict (db : PositionDb) (f : PositionFill) (originalHash : Scalar) : PositionDb :=
  match conflictPosition db f with
  | none => db
  | some positionId =>
    let row := conflictRow f positionId originalHash
    if !fits 150 row.sourceEventId then db else (db.addEvent row).getD db

/-! ### What the operations do -/

section

variable {db db' : PositionDb}

theorem PositionDb.addPosition_eq_some {row : PositionRow} (h : db.addPosition row = some db') :
    row.id ∉ db.positions.rows.map PositionRow.id ∧ db.positions.insert? row = some db'.positions ∧
      db'.events = db.events ∧ db'.references = db.references := by
  unfold PositionDb.addPosition at h
  split_ifs at h with href hid
  split at h
  · cases h
  · next positions hp =>
    cases h
    exact ⟨hid, hp, rfl, rfl⟩

theorem PositionDb.addEvent_eq_some {e : PositionEvent} (h : db.addEvent e = some db') :
    db.events.insert? e = some db'.events ∧ db'.positions = db.positions ∧ db'.references = db.references := by
  unfold PositionDb.addEvent at h
  split_ifs at h with hpos
  split at h
  · cases h
  · next events he =>
    cases h
    exact ⟨he, rfl, rfl⟩

/-- An event of a stored position is only refused for its execution id. -/
theorem PositionDb.addEvent_eq_none {e : PositionEvent} (hpos : e.positionId ∈ db.positions.rows.map PositionRow.id)
    (h : db.addEvent e = none) : (db.events.get e.sourceEventId).isSome := by
  unfold PositionDb.addEvent at h
  rw [dif_pos hpos] at h
  split at h
  · next he => exact Table.insert?_eq_none he
  · cases h

theorem appendApply_ok {id : UUID} {event : PositionEventData} (h : appendApply db id event = .ok db') :
    db.events.insert? (newEventRow id event) = some db'.events ∧ db'.positions = db.positions ∧
      db'.references = db.references := by
  unfold appendApply at h
  split_ifs at h
  cases ha : db.addEvent (newEventRow id event) with
  | none => rw [ha] at h; cases h
  | some d => rw [ha] at h; cases h; exact PositionDb.addEvent_eq_some ha

/-- The row holds the state. -/
structure Holds (row : PositionRow) (k : PositionIdentity) (s : PositionState) : Prop where
  identity : row.identity = k
  account : row.brokerAccountId = s.accountId
  quantity : row.quantity.val = s.quantity
  average : row.averagePrice = s.averagePrice
  status : row.status = s.status
  closedAt : row.closedAt = s.closedAt

/-- **Everything a committed apply does**: the position of `k` holds the state, other positions stay, and the event
is appended to the trail of the position. -/
structure Applied (db db' : PositionDb) (k : PositionIdentity) (s : PositionState) (event : PositionEventData)
    (row : PositionRow) : Prop where
  holds : Holds row k s
  stored : db'.positions.get k = some row
  other : ∀ k', k' ≠ k → db'.positions.get k' = db.positions.get k'
  fresh : db.positions.get k = none → row.id ∉ db.positions.rows.map PositionRow.id
  same : ∀ r, db.positions.get k = some r → row.id = r.id
  unseen : db.events.get event.executionId = none
  events : db'.events.rows = db.events.rows ++ [newEventRow row.id event]

theorem insertApply_ok {s : PositionState} {event : PositionEventData} {newId : UUID}
    (h : insertApply db s event newId = .ok db') :
    db.positions.get s.identity = none ∧ ∃ row, Applied db db' s.identity s event row := by
  unfold insertApply at h
  cases hq : Int4.of? s.quantity with
  | none => rw [hq] at h; cases h
  | some q =>
    rw [hq] at h
    simp only at h
    split_ifs at h
    cases ha : db.addPosition (newPositionRow s q newId) with
    | none => rw [ha] at h; cases h
    | some d =>
      rw [ha] at h
      obtain ⟨hid, hins, hev, -⟩ := PositionDb.addPosition_eq_some ha
      obtain ⟨hins', hpos, -⟩ := appendApply_ok h
      have hnone : db.positions.get s.identity = none := (Table.insert?_eq_some hins).1
      have hget := Table.get_of_insert hins
      rw [hev] at hins'
      obtain ⟨hun, hrows⟩ := Table.insert?_eq_some hins'
      refine ⟨hnone, newPositionRow s q newId, ⟨rfl, rfl, Int4.of?_eq_some hq, rfl, rfl, rfl⟩, ?_, fun k' hk' => ?_,
        fun _ => hid, fun r hr => ?_, hun, hrows⟩
      · rw [hpos, hget]; exact if_pos rfl
      · rw [hpos, hget]; exact if_neg fun h => hk' h.symm
      · rw [hnone] at hr; cases hr

theorem updateApply_ok {r : PositionRow} {k : PositionIdentity} {s : PositionState} {event : PositionEventData}
    (hr : db.positions.get k = some r) (h : updateApply db r s event = .ok db') :
    ∃ row, Applied db db' k s event row := by
  have hk : r.identity = k := Table.key_of_get hr
  unfold updateApply at h
  cases hq : Int4.of? s.quantity with
  | none => rw [hq] at h; cases h
  | some q =>
    rw [hq, hk] at h
    simp only at h
    split_ifs at h
    obtain ⟨hins, hpos, -⟩ := appendApply_ok h
    obtain ⟨hun, hrows⟩ := Table.insert?_eq_some hins
    refine ⟨applyState s q r, ⟨hk, rfl, Int4.of?_eq_some hq, rfl, rfl, rfl⟩, ?_, fun k' hk' => ?_, fun hn => ?_,
      fun r' hr' => ?_, hun, hrows⟩
    · rw [hpos, PositionDb.positions_setPosition, Table.get_modify_self, hr]; rfl
    · rw [hpos, PositionDb.positions_setPosition]; exact Table.get_modify_of_ne _ _ _ hk'
    · rw [hr] at hn; cases hn
    · rw [hr] at hr'; cases hr'; rfl

theorem persistApply_ok {k : PositionIdentity} {s : PositionState} {event : PositionEventData} {newId : UUID}
    (hk : s.identity = k) (h : persistApply db k s event newId = .ok db') :
    ∃ row, Applied db db' k s event row := by
  unfold persistApply at h
  cases hr : db.positions.get k with
  | none => rw [hr] at h; subst hk; exact (insertApply_ok h).2
  | some r => rw [hr] at h; exact updateApply_ok hr h

/-- Recording a conflict appends at most its evidence. -/
theorem recordConflict_cases (db : PositionDb) (f : PositionFill) (hash : Scalar) :
    recordConflict db f hash = db ∨ ((recordConflict db f hash).positions = db.positions ∧
      ∃ id, db.events.insert? (conflictRow f id hash) = some (recordConflict db f hash).events) := by
  unfold recordConflict
  cases conflictPosition db f with
  | none => exact Or.inl rfl
  | some id =>
    simp only
    split_ifs
    · exact Or.inl rfl
    · cases ha : db.addEvent (conflictRow f id hash) with
      | none => exact Or.inl rfl
      | some d =>
        obtain ⟨h1, h2, -⟩ := PositionDb.addEvent_eq_some ha
        exact Or.inr ⟨h2, id, h1⟩

/-- The position of an identity is determined by its id. -/
theorem PositionDb.identity_of_id (db : PositionDb) {k k' : PositionIdentity} {r r' : PositionRow}
    (h : db.positions.get k = some r) (h' : db.positions.get k' = some r') (hid : r.id = r'.id) : k = k' := by
  have hr := (Table.get_eq_some_iff.mp h).1
  have hr' := (Table.get_eq_some_iff.mp h').1
  rw [← Table.key_of_get h, ← Table.key_of_get h', List.inj_on_of_nodup_map db.ids hr hr' hid]

end

end AlphaAlgo.Position
