import Mathlib.Algebra.BigOperators.Group.List.Basic
import Mathlib.Data.List.Chain
import AlphaAlgo.Lib.Runs
import AlphaAlgo.Position.Engine

/-!
# Runs — sequences of calls on one position engine

A `Ledger` is the database together with the fills that calls have reported as applied.  `Ledger.step` is one call.

* `Ledger.Law`: positions add up the applied fills, open and closed positions carry their fields, execution ids are
  applied once, and the events of each position chain up to the stored quantity.
* `ledger_law`: this holds after every sequence of calls on an empty store, and a call that does not apply its fill
  changes nothing but conflict evidence.
-/

namespace AlphaAlgo.Position

open Runs

/-- A call: whether the halt is active, the id drawn for a new position, and the fill. -/
structure FillCall where
  globalHaltActive : Bool
  newId : UUID
  fill : PositionFill

/-- The database and the fills applied to it, in order. -/
structure Ledger where
  db : PositionDb
  applied : List PositionFill

namespace Ledger

def empty (references : References) : Ledger := ⟨.empty references, []⟩

/-- The result of a call. -/
def result (l : Ledger) (c : FillCall) : Except PositionError PositionResult :=
  (applyFill c.globalHaltActive c.newId l.db c.fill).2

/-- The call reports its fill as applied. -/
def Reports (r : Except PositionError PositionResult) : Bool :=
  match r with
  | .ok r => r.status = .applied
  | .error _ => false

def step (l : Ledger) (c : FillCall) : Ledger where
  db := (applyFill c.globalHaltActive c.newId l.db c.fill).1
  applied := if Reports (l.result c) then l.applied ++ [c.fill] else l.applied

/-! ### The law -/

/-- The events of applied fills. -/
def fillEvents (db : PositionDb) : List PositionEvent := db.events.rows.filter fun e => e.eventType ≠ .conflict

/-- The events of applied fills of one position. -/
def trail (db : PositionDb) (id : UUID) : List PositionEvent := (fillEvents db).filter fun e => e.positionId = id

/-- The signed sum of the applied fills of a position. -/
def total (l : Ledger) (k : PositionIdentity) : ℤ :=
  ((l.applied.filter fun f => f.identity = k).map PositionFill.signed).sum

/-- Every event starts where the one before it ended. -/
def Linked (events : List PositionEvent) : Prop := events.IsChain fun a b => b.quantityBefore = a.quantityAfter

/-- What holds of a stored position. -/
structure RowLaw (l : Ledger) (row : PositionRow) : Prop where
  fields : OpenOrClosed row.quantity.val row.averagePrice row.status row.closedAt
  quantity : row.quantity.val = l.total row.identity
  linked : Linked (trail l.db row.id)
  last : (trail l.db row.id).getLast?.map PositionEvent.quantityAfter = some row.quantity.val

structure Law (l : Ledger) : Prop where
  rows : ∀ row ∈ l.db.positions.rows, l.RowLaw row
  once : (l.applied.map PositionFill.executionId).Nodup
  stored : (fillEvents l.db).map PositionEvent.sourceEventId = l.applied.map PositionFill.executionId
  none : ∀ k, l.db.positions.get k = none → l.total k = 0

/-- A call that raises or returns a duplicate leaves positions, applied fills and their events; only a conflict
appends a row, its evidence. -/
def KeepsLedger (l : Ledger) (c : FillCall) : Prop :=
  Reports (l.result c) = false →
    (l.step c).db.positions = l.db.positions ∧ (l.step c).applied = l.applied ∧
      fillEvents (l.step c).db = fillEvents l.db ∧
      ((l.step c).db.events.rows = l.db.events.rows ∨
        l.result c = .error (.conflict c.fill.executionId) ∧ ∃ e : PositionEvent, e.eventType = .conflict ∧
          e.sourceEventId = "conflict-" ++ c.fill.executionId ∧ (l.step c).db.events.rows = l.db.events.rows ++ [e])

/-! ### One call -/

theorem fillEvents_append_conflict {db db' : PositionDb} {e : PositionEvent} (he : e.eventType = .conflict)
    (h : db'.events.rows = db.events.rows ++ [e]) : fillEvents db' = fillEvents db := by
  simp [fillEvents, h, he]

theorem fillEvents_append {db db' : PositionDb} {e : PositionEvent} (he : e.eventType ≠ .conflict)
    (h : db'.events.rows = db.events.rows ++ [e]) : fillEvents db' = fillEvents db ++ [e] := by
  simp [fillEvents, h, he]

/-- A call that reports no application. -/
theorem keepsLedger (l : Ledger) (c : FillCall) : l.KeepsLedger c := by
  intro hr
  have happ : (l.step c).applied = l.applied := by simp [step, hr]
  suffices h : (l.step c).db.positions = l.db.positions ∧ ((l.step c).db.events.rows = l.db.events.rows ∨
      l.result c = .error (.conflict c.fill.executionId) ∧ ∃ e : PositionEvent, e.eventType = .conflict ∧
        e.sourceEventId = "conflict-" ++ c.fill.executionId ∧
        (l.step c).db.events.rows = l.db.events.rows ++ [e]) by
    refine ⟨h.1, happ, ?_, h.2⟩
    rcases h.2 with hev | ⟨-, e, he, -, hev⟩
    · rw [fillEvents, fillEvents, hev]
    · exact fillEvents_append_conflict he hev
  have hout := applyFill_cases c.globalHaltActive c.newId l.db c.fill
  unfold result at hr ⊢
  unfold step
  revert hr hout
  generalize applyFill c.globalHaltActive c.newId l.db c.fill = out
  obtain ⟨db', r⟩ := out
  intro hr hout
  cases hout with
  | applied hplan hpersist => simp [Reports, appliedResult] at hr
  | duplicate => exact ⟨rfl, Or.inl rfl⟩
  | raised herr => exact ⟨rfl, Or.inl rfl⟩
  | conflict hash =>
    rcases recordConflict_cases l.db c.fill hash with h | ⟨hpos, id, hins⟩
    · exact ⟨congrArg PositionDb.positions h, Or.inl (congrArg (fun d => d.events.rows) h)⟩
    · exact ⟨hpos, Or.inr ⟨rfl, _, rfl, rfl, (Table.insert?_eq_some hins).2⟩⟩

/-- A call that applies its fill. -/
theorem step_applied {l : Ledger} {c : FillCall} (hr : Reports (l.result c) = true) :
    ∃ plan row, PlanFor (loadPosition l.db c.fill.identity) c.fill plan ∧
      Applied l.db (l.step c).db c.fill.identity plan.newState plan.event row := by
  have hout := applyFill_cases c.globalHaltActive c.newId l.db c.fill
  unfold result at hr
  unfold step
  revert hr hout
  generalize applyFill c.globalHaltActive c.newId l.db c.fill = out
  obtain ⟨db', r⟩ := out
  intro hr hout
  cases hout with
  | @applied plan _ hplan hpersist =>
    have hp := computePlan_ok hplan identity_of_loadPosition
    obtain ⟨row, hrow⟩ := persistApply_ok hp.identity hpersist
    exact ⟨plan, row, hp, hrow⟩
  | duplicate => simp [Reports, duplicateResult] at hr
  | raised herr => simp [Reports] at hr
  | conflict hash => simp [Reports] at hr

/-! ### The law along a run -/

/-- A stored position, as it is loaded, is consistent and has the quantity of its fills. -/
theorem Law.consistent {l : Ledger} (h : l.Law) (k : PositionIdentity) :
    ∀ s ∈ loadPosition l.db k, s.Consistent := by
  intro s hs
  rw [loadPosition, Option.mem_map] at hs
  obtain ⟨row, hrow, rfl⟩ := hs
  exact (h.rows row (Table.get_eq_some_iff.mp hrow).1).fields

theorem Law.quantityOrZero {l : Ledger} (h : l.Law) (k : PositionIdentity) :
    quantityOrZero (loadPosition l.db k) = l.total k := by
  unfold loadPosition
  cases hk : l.db.positions.get k with
  | none => exact (h.none k hk).symm
  | some row =>
    have hr := (h.rows row (Table.get_eq_some_iff.mp hk).1).quantity
    rw [Table.key_of_get hk] at hr
    exact hr

theorem total_append (db' : PositionDb) (l : Ledger) (f : PositionFill) (k : PositionIdentity) :
    (⟨db', l.applied ++ [f]⟩ : Ledger).total k = l.total k + if f.identity = k then f.signed else 0 := by
  unfold total
  by_cases hk : f.identity = k <;> simp [hk]

theorem trail_applied {db db' : PositionDb} {k : PositionIdentity} {s : PositionState} {event : PositionEventData}
    {row : PositionRow} (he : event.eventType ≠ .conflict) (ha : Applied db db' k s event row) (id : UUID) :
    trail db' id = trail db id ++ if row.id = id then [newEventRow row.id event] else [] := by
  have hevents : fillEvents db' = fillEvents db ++ [newEventRow row.id event] := fillEvents_append he ha.events
  rw [trail, hevents, List.filter_append]
  by_cases hid : row.id = id <;> simp [trail, newEventRow, hid]

/-- A trail that ends at `q` goes on with an event that starts at `q`. -/
theorem Linked.append {events : List PositionEvent} {e : PositionEvent} {q : ℤ} (h : Linked events)
    (hlast : events.getLast?.map PositionEvent.quantityAfter = some q) (he : e.quantityBefore = q) :
    Linked (events ++ [e]) := by
  refine List.isChain_append.mpr ⟨h, List.isChain_singleton e, ?_⟩
  intro a ha b hb
  simp only [List.head?_cons, Option.mem_def, Option.some.injEq] at hb
  subst hb
  rw [Option.mem_def] at ha
  rw [ha, Option.map_some, Option.some.injEq] at hlast
  rw [he, hlast]

/-- The trail of a position that is not stored is empty. -/
theorem trail_eq_nil {db : PositionDb} {id : UUID} (h : id ∉ db.positions.rows.map PositionRow.id) :
    trail db id = [] := by
  rw [trail, List.filter_eq_nil_iff]
  intro e he hid
  have hmem := db.owned e (List.mem_of_mem_filter he)
  rw [of_decide_eq_true hid] at hmem
  exact h hmem

section

variable {l : Ledger} {db' : PositionDb} {f : PositionFill} {plan : PositionApplyPlan} {row : PositionRow}

/-- The position of the fill: its quantity and its trail grow by the fill. -/
theorem Law.row_applied (h : l.Law) (hp : PlanFor (loadPosition l.db f.identity) f plan)
    (ha : Applied l.db db' f.identity plan.newState plan.event row) :
    (⟨db', l.applied ++ [f]⟩ : Ledger).RowLaw row := by
  have hk : row.identity = f.identity := Table.key_of_get ha.stored
  have htr : trail db' row.id = trail l.db row.id ++ [newEventRow row.id plan.event] := by
    rw [trail_applied hp.notConflict ha, if_pos rfl]
  have hbefore := hp.before.trans (h.quantityOrZero _)
  refine ⟨?_, ?_, ?_, ?_⟩
  · rw [ha.holds.quantity, ha.holds.average, ha.holds.status, ha.holds.closedAt]
    exact hp.consistent (h.consistent _)
  · rw [ha.holds.quantity, hp.quantity, h.quantityOrZero, total_append, hk, if_pos rfl]
  · rw [htr]
    cases hold : l.db.positions.get f.identity with
    | none =>
      rw [trail_eq_nil (ha.fresh hold)]
      exact List.isChain_singleton _
    | some old =>
      have hlaw := h.rows old (Table.get_eq_some_iff.mp hold).1
      rw [ha.same old hold]
      refine hlaw.linked.append hlaw.last ?_
      rw [hlaw.quantity, Table.key_of_get hold]
      exact hbefore
  · rw [htr, List.getLast?_append]
    simp only [List.getLast?_singleton, Option.some_or, Option.map_some, newEventRow, Option.some.injEq]
    rw [hp.after, ha.holds.quantity]

/-- Another position: nothing changes. -/
theorem Law.row_other (h : l.Law) (hp : PlanFor (loadPosition l.db f.identity) f plan)
    (ha : Applied l.db db' f.identity plan.newState plan.event row) {r : PositionRow}
    (hget : db'.positions.get r.identity = some r) (hk : r.identity ≠ f.identity) :
    (⟨db', l.applied ++ [f]⟩ : Ledger).RowLaw r := by
  have hold : l.db.positions.get r.identity = some r := by rw [← ha.other _ hk]; exact hget
  have hlaw := h.rows r (Table.get_eq_some_iff.mp hold).1
  have hid : row.id ≠ r.id := fun hid => hk (db'.identity_of_id hget ha.stored hid.symm)
  have htr : trail db' r.id = trail l.db r.id := by
    rw [trail_applied hp.notConflict ha, if_neg hid, List.append_nil]
  refine ⟨hlaw.fields, ?_, ?_, ?_⟩
  · rw [total_append, if_neg (fun h => hk h.symm), add_zero]
    exact hlaw.quantity
  · rw [htr]
    exact hlaw.linked
  · rw [htr]
    exact hlaw.last

/-- An applied execution id has its row, and the row of this one was not there. -/
theorem Law.executionId_notMem (h : l.Law) (hp : PlanFor (loadPosition l.db f.identity) f plan)
    (ha : Applied l.db db' f.identity plan.newState plan.event row) :
    f.executionId ∉ l.applied.map PositionFill.executionId := by
  intro hmem
  rw [← h.stored] at hmem
  obtain ⟨e, he, hid⟩ := List.mem_map.mp hmem
  have hun := Table.get_eq_none_iff.mp ha.unseen
  rw [hp.executionId] at hun
  exact hun (List.mem_map.mpr ⟨e, List.mem_of_mem_filter he, hid⟩)

theorem Law.applied (h : l.Law) (hp : PlanFor (loadPosition l.db f.identity) f plan)
    (ha : Applied l.db db' f.identity plan.newState plan.event row) :
    (⟨db', l.applied ++ [f]⟩ : Ledger).Law := by
  refine ⟨?_, ?_, ?_, ?_⟩
  · intro r hrow
    have hget : db'.positions.get r.identity = some r := Table.get_eq_some_iff.mpr ⟨hrow, rfl⟩
    by_cases hk : r.identity = f.identity
    · rw [hk, ha.stored] at hget
      cases hget
      exact h.row_applied hp ha
    · exact h.row_other hp ha hget hk
  · rw [List.map_append, List.nodup_append]
    refine ⟨h.once, by simp, ?_⟩
    rintro a hmem b hb rfl
    simp only [List.map_cons, List.map_nil, List.mem_singleton] at hb
    exact h.executionId_notMem hp ha (hb ▸ hmem)
  · rw [fillEvents_append (e := newEventRow row.id plan.event) hp.notConflict ha.events, List.map_append,
      List.map_append, h.stored]
    simp [newEventRow, hp.executionId]
  · intro k hk
    by_cases hk' : k = f.identity
    · subst hk'
      rw [ha.stored] at hk
      cases hk
    · rw [ha.other k hk'] at hk
      rw [total_append, if_neg (fun h => hk' h.symm), add_zero]
      exact h.none k hk

end

theorem Law.step {l : Ledger} (h : l.Law) (c : FillCall) : (l.step c).Law := by
  cases hr : Reports (l.result c) with
  | true =>
    obtain ⟨plan, row, hp, ha⟩ := step_applied hr
    have happ : (l.step c).applied = l.applied ++ [c.fill] := by simp [Ledger.step, hr]
    have hlaw := h.applied hp ha
    rw [← happ] at hlaw
    exact hlaw
  | false =>
    obtain ⟨hpos, happ, hev, -⟩ := keepsLedger l c hr
    have htotal : ∀ k, (l.step c).total k = l.total k := by
      intro k
      rw [total, total, happ]
    refine ⟨?_, ?_, ?_, ?_⟩
    · intro row hrow
      rw [hpos] at hrow
      have hlaw := h.rows row hrow
      have htr : trail (l.step c).db row.id = trail l.db row.id := by rw [trail, trail, hev]
      refine ⟨hlaw.fields, ?_, ?_, ?_⟩
      · rw [htotal]
        exact hlaw.quantity
      · rw [htr]
        exact hlaw.linked
      · rw [htr]
        exact hlaw.last
    · rw [happ]
      exact h.once
    · rw [hev, happ]
      exact h.stored
    · intro k hk
      rw [hpos] at hk
      rw [htotal]
      exact h.none k hk

theorem empty_law (references : References) : (empty references).Law := by
  refine ⟨?_, ?_, ?_, ?_⟩
  · intro row h
    simp [empty, PositionDb.empty, Table.empty] at h
  · exact List.nodup_nil
  · simp [fillEvents, empty, PositionDb.empty, Table.empty]
  · intro k _
    simp [total, empty]

/-- **The ledger of a position engine**: after every sequence of calls on an empty store the law holds, and every
call that does not apply its fill keeps positions, applied fills and their events. -/
theorem ledger_law (references : References) (calls : List FillCall) :
    (∀ l, l <+: calls → (run step (empty references) l).Law) ∧
      Along step KeepsLedger (empty references) calls :=
  ⟨fun l _ => run_invariant step Law (fun _ c h => h.step c) (empty_law references) l,
    along_of_invariant step (fun _ => True) (fun _ _ _ => trivial) (fun l c _ => keepsLedger l c) trivial calls⟩

end Ledger

end AlphaAlgo.Position
