import AlphaAlgo.Lib.Pool
import AlphaAlgo.Position.Runs

/-!
# Interleaving — engines that share one position store

`apply_fill` one step at a time, by calls of several engines over one database.  An engine has a lock for each
position, held from before the load to the end of the call; engines do not share it.  The transaction of
`persist_apply` locks the row, if there is one, in its first step and commits in its second.  The plan that is
written was computed from the row that was loaded before the transaction began.

* `apply_fill_alone`: a call that is not interrupted is the sequential `applyFill`.
* `no_lost_apply`: quantities add up and conflicts are real on the schedules in which every commit finds the
  position that its plan was computed from.
-/

namespace AlphaAlgo.Position

open Runs

/-! ### Calls -/

/-- Where an `apply_fill` call is; `locked` says whether it holds the lock of its engine. -/
inductive FillPc where
  | start
  | acquire
  | load
  | plan (current : Option PositionState)
  | begin (current : Option PositionState) (plan : PositionApplyPlan)
  | commit (current : Option PositionState) (plan : PositionApplyPlan) (found : Bool)
  | refind
  | resolve (locked : Bool) (stored : Option Scalar)
  | loadDuplicate (locked : Bool)
  | recordConflict (locked : Bool) (stored : Option Scalar)
  | applied (result : PositionResult)
  | duplicate (result : PositionResult)
  | raised (err : PositionError)

/-- A call of an engine. -/
structure Task where
  engine : ℕ
  call : FillCall
  pc : FillPc

namespace Task

def fill (t : Task) : PositionFill := t.call.fill

def identity (t : Task) : PositionIdentity := t.fill.identity

def goto (t : Task) (pc : FillPc) : Task := { t with pc := pc }

end Task

/-- The database and the locks that are held: by engines, and on rows by open transactions. -/
structure Shared where
  db : PositionDb
  locks : List (ℕ × PositionIdentity)
  rowLocks : List PositionIdentity

/-- The end of the `with` block. -/
def Shared.release (s : Shared) (t : Task) (locked : Bool) : Shared :=
  if locked then { s with locks := s.locks.erase (t.engine, t.identity) } else s

/-- The end of the transaction: a row that was found is unlocked. -/
def Shared.endTransaction (s : Shared) (t : Task) (found : Bool) : Shared :=
  if found then { s with rowLocks := s.rowLocks.erase t.identity } else s

/-- The second half of `persist_apply`, after the select found a row or not. -/
def commitApply (db : PositionDb) (k : PositionIdentity) (state : PositionState) (event : PositionEventData)
    (newId : UUID) (found : Bool) : Except PersistError PositionDb :=
  if found then
    match db.positions.get k with
    | some row => updateApply db row state event
    | none => .error (.persistence "position apply failed")
  else insertApply db state event newId

theorem persistApply_eq_commitApply (db : PositionDb) (k : PositionIdentity) (state : PositionState)
    (event : PositionEventData) (newId : UUID) :
    persistApply db k state event newId =
      commitApply db k state event newId (db.positions.get k).isSome := by
  unfold persistApply commitApply
  cases db.positions.get k <;> rfl

/-- One step of a call. -/
def Task.next (s : Shared) (t : Task) : Shared × Task :=
  match t.pc with
  | .start =>
    match validate t.call.globalHaltActive t.fill with
    | .error err => (s, t.goto (.raised err))
    | .ok _ =>
      let existingHash := findFillHash s.db t.fill.executionId
      if existingHash.isSome then (s, t.goto (.resolve false existingHash)) else (s, t.goto .acquire)
  | .acquire =>
    if (t.engine, t.identity) ∈ s.locks then (s, t)
    else ({ s with locks := (t.engine, t.identity) :: s.locks }, t.goto .load)
  | .load => (s, t.goto (.plan (loadPosition s.db t.identity)))
  | .plan current =>
    match computePlan current t.fill with
    | .error err => (s.release t true, t.goto (.raised err))
    | .ok plan => (s, t.goto (.begin current plan))
  | .begin current plan =>
    match s.db.positions.get t.identity with
    | none => (s, t.goto (.commit current plan false))
    | some _ =>
      if t.identity ∈ s.rowLocks then (s, t)
      else ({ s with rowLocks := t.identity :: s.rowLocks }, t.goto (.commit current plan true))
  | .commit _ plan found =>
    let ended := s.endTransaction t found
    match commitApply s.db t.identity plan.newState plan.event t.call.newId found with
    | .ok db' => ({ ended with db := db' }.release t true, t.goto (.applied (appliedResult plan)))
    | .error .duplicateApply => (ended, t.goto .refind)
    | .error (.persistence text) => (ended.release t true, t.goto (.raised (.persistence text)))
  | .refind => (s, t.goto (.resolve true (findFillHash s.db t.fill.executionId)))
  | .resolve locked stored =>
    if stored = some (.str (fillContentHash t.fill)) then (s, t.goto (.loadDuplicate locked))
    else (s, t.goto (.recordConflict locked stored))
  | .loadDuplicate locked =>
    (s.release t locked, t.goto (.duplicate (duplicateResult t.identity (loadPosition s.db t.identity))))
  | .recordConflict locked stored =>
    ({ s with db := recordConflict s.db t.fill (originalHash stored) }.release t locked,
      t.goto (.raised (.conflict t.fill.executionId)))
  | .applied _ | .duplicate _ | .raised _ => (s, t)

/-- The store and the calls on it. -/
abbrev System := Pool Shared Task

/-- No call has begun and no lock is held. -/
def Started (p : System) : Prop :=
  p.shared.locks = [] ∧ p.shared.rowLocks = [] ∧ ∀ t ∈ p.calls, t.pc = .start

/-- The schedule `l` of calls. -/
abbrev schedule (p : System) (l : List ℕ) : System := run (Pool.step Task.next) p l

/-- The call has returned or raised. -/
def Task.ended (t : Task) : Bool :=
  match t.pc with
  | .applied _ | .duplicate _ | .raised _ => true
  | _ => false

/-- The call has reported a conflict. -/
def Task.conflicted (t : Task) : Bool :=
  match t.pc with
  | .raised (.conflict _) => true
  | _ => false

/-! ### A call alone -/

/-- The end of a call, from what `applyFill` returns. -/
def FillPc.ofResult : Except PositionError PositionResult → FillPc
  | .error err => .raised err
  | .ok r => if r.status = .applied then .applied r else .duplicate r

/-- The steps of an uninterrupted call. -/
theorem schedule_alone : ∀ (n : ℕ) (s : Shared) (t : Task),
    schedule ⟨s, [t]⟩ (List.replicate n 0) =
      ⟨((fun x => Task.next x.1 x.2)^[n] (s, t)).1, [((fun x => Task.next x.1 x.2)^[n] (s, t)).2]⟩
  | 0, _, _ => rfl
  | n + 1, s, t => schedule_alone n (t.next s).1 (t.next s).2

theorem iterate_next {n : ℕ} {s s' : Shared} {t t' : Task} (h : t.next s = (s', t')) :
    (fun x => Task.next x.1 x.2)^[n + 1] (s, t) = (fun x => Task.next x.1 x.2)^[n] (s', t') := by
  rw [Function.iterate_succ_apply, h]

theorem iterate_ended {s : Shared} {t : Task} (h : t.ended = true) (n : ℕ) :
    (fun x => Task.next x.1 x.2)^[n] (s, t) = (s, t) := by
  have hstay : t.next s = (s, t) := by
    obtain ⟨engine, call, pc⟩ := t
    cases pc <;> first | rfl | cases h
  induction n with
  | zero => rfl
  | succ n ih => rw [iterate_next hstay, ih]

/-- The last steps of a replay. -/
theorem iterate_resolve (n : ℕ) (s : Shared) (t : Task) (locked : Bool) (stored : Option Scalar) :
    (fun x => Task.next x.1 x.2)^[n + 2] (s, t.goto (.resolve locked stored)) =
      ({ s with db := (resolveReplay s.db t.fill stored).1 }.release t locked,
        t.goto (.ofResult (resolveReplay s.db t.fill stored).2)) := by
  unfold resolveReplay
  by_cases hc : stored = some (.str (fillContentHash t.fill))
  · have h1 : (t.goto (.resolve locked stored)).next s = (s, t.goto (.loadDuplicate locked)) := if_pos hc
    rw [if_pos hc, iterate_next h1, iterate_next rfl, iterate_ended rfl]
    rfl
  · have h1 : (t.goto (.resolve locked stored)).next s = (s, t.goto (.recordConflict locked stored)) := if_neg hc
    rw [if_neg hc, iterate_next h1, iterate_next rfl, iterate_ended rfl]
    rfl

/-- A call alone holds the lock of its engine, and that of the row if its transaction found one. -/
def holding (db : PositionDb) (engine : ℕ) (c : FillCall) (found : Bool) : Shared :=
  ⟨db, [(engine, c.fill.identity)], if found then [c.fill.identity] else []⟩

/-- The step that ends the transaction, and what follows a refused one. -/
theorem iterate_commit (db : PositionDb) (engine : ℕ) (c : FillCall) (current : Option PositionState)
    (plan : PositionApplyPlan) (found : Bool) :
    (fun x => Task.next x.1 x.2)^[4] (holding db engine c found, ⟨engine, c, .commit current plan found⟩) =
      match commitApply db c.fill.identity plan.newState plan.event c.newId found with
      | .ok db' => (⟨db', [], []⟩, ⟨engine, c, .applied (appliedResult plan)⟩)
      | .error .duplicateApply =>
        (⟨(resolveReplay db c.fill (findFillHash db c.fill.executionId)).1, [], []⟩,
          ⟨engine, c, .ofResult (resolveReplay db c.fill (findFillHash db c.fill.executionId)).2⟩)
      | .error (.persistence text) => (⟨db, [], []⟩, ⟨engine, c, .raised (.persistence text)⟩) := by
  have hend : (holding db engine c found).endTransaction ⟨engine, c, .commit current plan found⟩ found =
      holding db engine c false := by
    cases found <;> simp [holding, Shared.endTransaction, Task.identity, Task.fill]
  have hdb : (holding db engine c found).db = db := rfl
  cases hc : commitApply db c.fill.identity plan.newState plan.event c.newId found with
  | ok db' =>
    have hnext : Task.next (holding db engine c found) ⟨engine, c, .commit current plan found⟩ =
        (⟨db', [], []⟩, ⟨engine, c, .applied (appliedResult plan)⟩) := by
      simp only [Task.next, Task.identity, Task.fill, hend, hdb, hc]
      simp [holding, Shared.release, Task.identity, Task.fill, Task.goto]
    rw [iterate_next hnext, iterate_ended rfl]
  | error err =>
    cases err with
    | persistence text =>
      have hnext : Task.next (holding db engine c found) ⟨engine, c, .commit current plan found⟩ =
          (⟨db, [], []⟩, ⟨engine, c, .raised (.persistence text)⟩) := by
        simp only [Task.next, Task.identity, Task.fill, hend, hdb, hc]
        simp [holding, Shared.release, Task.identity, Task.fill, Task.goto]
      rw [iterate_next hnext, iterate_ended rfl]
    | duplicateApply =>
      have hnext : Task.next (holding db engine c found) ⟨engine, c, .commit current plan found⟩ =
          (holding db engine c false, ⟨engine, c, .refind⟩) := by
        simp only [Task.next, Task.identity, Task.fill, hend, hdb, hc]
        rfl
      have hrefind : Task.next (holding db engine c false) ⟨engine, c, .refind⟩ =
          (holding db engine c false,
            Task.goto ⟨engine, c, .refind⟩ (.resolve true (findFillHash db c.fill.executionId))) := rfl
      rw [iterate_next hnext, iterate_next hrefind, iterate_resolve 0]
      simp [holding, Shared.release, Task.identity, Task.fill, Task.goto]

/-- **An uninterrupted call is the sequential `applyFill`.** -/
theorem apply_fill_alone (db : PositionDb) (engine : ℕ) (c : FillCall) :
    schedule ⟨⟨db, [], []⟩, [⟨engine, c, .start⟩]⟩ (List.replicate 9 0) =
      ⟨⟨(applyFill c.globalHaltActive c.newId db c.fill).1, [], []⟩,
        [⟨engine, c, .ofResult (applyFill c.globalHaltActive c.newId db c.fill).2⟩]⟩ := by
  rw [schedule_alone]
  unfold applyFill
  cases hv : validate c.globalHaltActive c.fill with
  | error err =>
    have h1 : Task.next ⟨db, [], []⟩ ⟨engine, c, .start⟩ = (⟨db, [], []⟩, ⟨engine, c, .raised err⟩) := by
      simp [Task.next, Task.fill, Task.goto, hv]
    rw [iterate_next h1, iterate_ended rfl]
    rfl
  | ok u =>
    by_cases hh : (findFillHash db c.fill.executionId).isSome = true
    · have h1 : Task.next ⟨db, [], []⟩ ⟨engine, c, .start⟩ =
          (⟨db, [], []⟩, Task.goto ⟨engine, c, .start⟩ (.resolve false (findFillHash db c.fill.executionId))) := by
        simp [Task.next, Task.fill, Task.goto, hv, hh]
      rw [iterate_next h1, iterate_resolve]
      simp only
      rw [if_pos hh]
      rfl
    · have h1 : Task.next ⟨db, [], []⟩ ⟨engine, c, .start⟩ = (⟨db, [], []⟩, ⟨engine, c, .acquire⟩) := by
        simp [Task.next, Task.fill, Task.goto, hv, hh]
      have h2 : Task.next ⟨db, [], []⟩ ⟨engine, c, .acquire⟩ = (holding db engine c false, ⟨engine, c, .load⟩) := by
        simp [Task.next, Task.identity, Task.fill, Task.goto, holding]
      have h3 : Task.next (holding db engine c false) ⟨engine, c, .load⟩ =
          (holding db engine c false, ⟨engine, c, .plan (loadPosition db c.fill.identity)⟩) := rfl
      rw [iterate_next h1, iterate_next h2, iterate_next h3]
      simp only
      rw [if_neg hh]
      cases hp : computePlan (loadPosition db c.fill.identity) c.fill with
      | error err =>
        have h4 : Task.next (holding db engine c false) ⟨engine, c, .plan (loadPosition db c.fill.identity)⟩ =
            (⟨db, [], []⟩, ⟨engine, c, .raised err⟩) := by
          simp [Task.next, Task.identity, Task.fill, Task.goto, hp, holding, Shared.release]
        rw [iterate_next h4, iterate_ended rfl]
        rfl
      | ok plan =>
        have h4 : Task.next (holding db engine c false) ⟨engine, c, .plan (loadPosition db c.fill.identity)⟩ =
            (holding db engine c false, ⟨engine, c, .begin (loadPosition db c.fill.identity) plan⟩) := by
          simp [Task.next, Task.fill, Task.goto, hp]
        -- the select finds the row exactly when there is one, and locks it
        have h5 : Task.next (holding db engine c false) ⟨engine, c, .begin (loadPosition db c.fill.identity) plan⟩ =
            (holding db engine c (db.positions.get c.fill.identity).isSome,
              ⟨engine, c, .commit (loadPosition db c.fill.identity) plan
                (db.positions.get c.fill.identity).isSome⟩) := by
          cases hg : db.positions.get c.fill.identity <;>
            simp [Task.next, Task.identity, Task.fill, Task.goto, holding, hg]
        rw [iterate_next h4, iterate_next h5, iterate_commit]
        simp only
        rw [persistApply_eq_commitApply]
        cases commitApply db c.fill.identity plan.newState plan.event c.newId
            (db.positions.get c.fill.identity).isSome with
        | ok db' => rfl
        | error err => cases err <;> rfl

/-! ### What a step does -/

/-- What a call has added to the position `k`: the signed quantity of the fill it reports as applied. -/
def appliedQuantity (k : PositionIdentity) (t : Task) : ℤ :=
  match t.pc with
  | .applied _ => if t.identity = k then t.fill.signed else 0
  | _ => 0

/-- The execution id that a call reports as applied. -/
def appliedId (t : Task) : Option String :=
  match t.pc with
  | .applied _ => some t.fill.executionId
  | _ => none

theorem Shared.release_db (s : Shared) (t : Task) (locked : Bool) : (s.release t locked).db = s.db := by
  unfold Shared.release
  split_ifs <;> rfl

theorem Shared.endTransaction_db (s : Shared) (t : Task) (found : Bool) : (s.endTransaction t found).db = s.db := by
  unfold Shared.endTransaction
  split_ifs <;> rfl

/-- **Everything a step does to the database**: nothing, a commit, or conflict evidence. -/
theorem Task.next_cases (s : Shared) (t : Task) :
    ((t.next s).1.db = s.db ∧ appliedId (t.next s).2 = appliedId t ∧
      ∀ k, appliedQuantity k (t.next s).2 = appliedQuantity k t) ∨
    (∃ current plan found r, t.pc = .commit current plan found ∧ (t.next s).2 = t.goto (.applied r) ∧
      commitApply s.db t.identity plan.newState plan.event t.call.newId found = .ok (t.next s).1.db) ∨
    (∃ locked stored, t.pc = .recordConflict locked stored ∧
      (t.next s).2 = t.goto (.raised (.conflict t.fill.executionId)) ∧
      (t.next s).1.db = recordConflict s.db t.fill (originalHash stored)) := by
  obtain ⟨engine, call, pc⟩ := t
  cases pc with
  | start =>
    left
    simp only [Task.next]
    cases validate call.globalHaltActive (Task.fill ⟨engine, call, .start⟩) with
    | error err => exact ⟨rfl, rfl, fun _ => rfl⟩
    | ok u => simp only; split_ifs <;> exact ⟨rfl, rfl, fun _ => rfl⟩
  | acquire => left; simp only [Task.next]; split_ifs <;> exact ⟨rfl, rfl, fun _ => rfl⟩
  | load => left; exact ⟨rfl, rfl, fun _ => rfl⟩
  | plan current =>
    left
    simp only [Task.next]
    cases computePlan current (Task.fill ⟨engine, call, .plan current⟩) with
    | error err => exact ⟨Shared.release_db _ _ _, rfl, fun _ => rfl⟩
    | ok plan => exact ⟨rfl, rfl, fun _ => rfl⟩
  | begin current plan =>
    left
    simp only [Task.next]
    cases s.db.positions.get (Task.identity ⟨engine, call, .begin current plan⟩) with
    | none => exact ⟨rfl, rfl, fun _ => rfl⟩
    | some row => simp only; split_ifs <;> exact ⟨rfl, rfl, fun _ => rfl⟩
  | commit current plan found =>
    simp only [Task.next]
    cases hc : commitApply s.db (Task.identity ⟨engine, call, .commit current plan found⟩) plan.newState plan.event
        call.newId found with
    | ok db' =>
      right; left
      exact ⟨current, plan, found, _, rfl, rfl, by rw [hc, Shared.release_db]⟩
    | error err =>
      left
      cases err with
      | duplicateApply => exact ⟨Shared.endTransaction_db _ _ _, rfl, fun _ => rfl⟩
      | persistence text =>
        exact ⟨(Shared.release_db _ _ _).trans (Shared.endTransaction_db _ _ _), rfl, fun _ => rfl⟩
  | refind => left; exact ⟨rfl, rfl, fun _ => rfl⟩
  | resolve locked stored => left; simp only [Task.next]; split_ifs <;> exact ⟨rfl, rfl, fun _ => rfl⟩
  | loadDuplicate locked => left; exact ⟨Shared.release_db _ _ _, rfl, fun _ => rfl⟩
  | recordConflict locked stored => right; right; exact ⟨locked, stored, rfl, rfl, Shared.release_db _ _ _⟩
  | applied r | duplicate r | raised err => left; exact ⟨rfl, rfl, fun _ => rfl⟩

theorem commitApply_ok {db db' : PositionDb} {k : PositionIdentity} {s : PositionState} {event : PositionEventData}
    {newId : UUID} {found : Bool} (hk : s.identity = k) (h : commitApply db k s event newId found = .ok db') :
    ∃ row, Applied db db' k s event row := by
  unfold commitApply at h
  cases found with
  | false => subst hk; exact (insertApply_ok h).2
  | true =>
    rw [if_pos rfl] at h
    cases hr : db.positions.get k with
    | none => rw [hr] at h; cases h
    | some row => rw [hr] at h; exact updateApply_ok hr h

/-! ### The condition on commits -/

/-- The rows that a fill refers to are there. -/
def RefersTo (db : PositionDb) (f : PositionFill) : Prop :=
  f.strategyRunId ∈ db.references.strategyRuns ∧ f.instrumentId ∈ db.references.instruments ∧
    f.accountId ∈ db.references.brokerAccounts

/-- The stored position is the one the plan was computed from, the select found it exactly then, a new id is new,
and the rows that the fill refers to are there. -/
def CommitsCurrent (s : Shared) (t : Task) : Prop :=
  match t.pc with
  | .commit current _ found => loadPosition s.db t.identity = current ∧ found = current.isSome ∧
      t.call.newId ∉ s.db.positions.rows.map PositionRow.id ∧ RefersTo s.db t.fill
  | _ => True

instance (db : PositionDb) (f : PositionFill) : Decidable (RefersTo db f) :=
  inferInstanceAs (Decidable (_ ∧ _ ∧ _))

instance (s : Shared) (t : Task) : Decidable (CommitsCurrent s t) := by
  unfold CommitsCurrent
  split <;> exact inferInstance

/-- An event of a stored position is refused only when its execution id is stored. -/
theorem stored_of_appendApply {db : PositionDb} {id : UUID} {event : PositionEventData}
    (hid : id ∈ db.positions.rows.map PositionRow.id) (h : appendApply db id event = .error .duplicateApply) :
    (db.events.get event.executionId).isSome := by
  unfold appendApply at h
  split_ifs at h
  · cases h
  · cases hd : db.addEvent (newEventRow id event) with
    | some d' => rw [hd] at h; cases h
    | none => exact PositionDb.addEvent_eq_none (e := newEventRow id event) hid hd

/-- A new position with a new id is inserted when the rows it refers to are there. -/
theorem addPosition_ne_none {db : PositionDb} {row : PositionRow} {account : UUID}
    (hrun : row.identity.strategyRunId ∈ db.references.strategyRuns)
    (hinst : row.identity.instrumentId ∈ db.references.instruments) (hacc : row.brokerAccountId = some account)
    (hacc' : account ∈ db.references.brokerAccounts) (hid : row.id ∉ db.positions.rows.map PositionRow.id)
    (hnew : db.positions.get row.identity = none) : db.addPosition row ≠ none := by
  intro h
  unfold PositionDb.addPosition at h
  rw [if_neg (by simp [hrun, hinst, hacc, hacc']), dif_neg hid] at h
  split at h
  · next hp =>
    have hsome := Table.insert?_eq_none hp
    rw [hnew] at hsome
    cases hsome
  · cases h

theorem stored_of_insertApply {db : PositionDb} {f : PositionFill} {plan : PositionApplyPlan} {newId : UUID}
    (hplan : PlanFor none f plan) (hid : newId ∉ db.positions.rows.map PositionRow.id) (href : RefersTo db f)
    (hnew : db.positions.get f.identity = none)
    (h : insertApply db plan.newState plan.event newId = .error .duplicateApply) :
    (db.events.get f.executionId).isSome := by
  unfold insertApply at h
  cases hq : Int4.of? plan.newState.quantity with
  | none => rw [hq] at h; cases h
  | some q =>
    rw [hq] at h
    simp only at h
    split_ifs at h
    · cases h
    · have hrowId : (newPositionRow plan.newState q newId).id = newId := by
        rw [newPositionRow, hplan.positionId]; rfl
      have hkey : (newPositionRow plan.newState q newId).identity = f.identity := hplan.identity
      cases ha : db.addPosition (newPositionRow plan.newState q newId) with
      | some d =>
        rw [ha] at h
        obtain ⟨-, hins, hev, -⟩ := PositionDb.addPosition_eq_some ha
        have hmem : (newPositionRow plan.newState q newId).id ∈ d.positions.rows.map PositionRow.id := by
          rw [(Table.insert?_eq_some hins).2, List.map_append]
          exact List.mem_append_right _ (by simp)
        have hst := stored_of_appendApply hmem h
        rwa [hev, hplan.executionId] at hst
      | none =>
        refine absurd ha (addPosition_ne_none ?_ ?_ hplan.account href.2.2 ?_ ?_)
        · rw [hkey]; exact href.1
        · rw [hkey]; exact href.2.1
        · rw [hrowId]; exact hid
        · rw [hkey]; exact hnew

theorem stored_of_updateApply {db : PositionDb} {f : PositionFill} {current : PositionState}
    {plan : PositionApplyPlan} {row : PositionRow} (hplan : PlanFor (some current) f plan) (href : RefersTo db f)
    (hr : db.positions.get f.identity = some row)
    (h : updateApply db row plan.newState plan.event = .error .duplicateApply) :
    (db.events.get f.executionId).isSome := by
  unfold updateApply at h
  cases hq : Int4.of? plan.newState.quantity with
  | none => rw [hq] at h; cases h
  | some q =>
    rw [hq] at h
    simp only at h
    split_ifs at h with h1 h2
    · cases h
    · simp [hplan.account, href.2.2] at h2
    · have hst := stored_of_appendApply (by
        rw [PositionDb.positions_setPosition, PositionDb.modify_ids _ _ _ _ (applyState_id _ _)]
        exact List.mem_map_of_mem (Table.get_eq_some_iff.mp hr).1) h
      rwa [hplan.executionId] at hst

/-- Under the condition a refused commit has its execution id stored. -/
theorem stored_of_duplicateApply {db : PositionDb} {f : PositionFill} {plan : PositionApplyPlan} {newId : UUID}
    (hplan : PlanFor (loadPosition db f.identity) f plan) (hid : newId ∉ db.positions.rows.map PositionRow.id)
    (href : RefersTo db f)
    (h : commitApply db f.identity plan.newState plan.event newId (loadPosition db f.identity).isSome =
      .error .duplicateApply) : (db.events.get f.executionId).isSome := by
  unfold commitApply at h
  cases hr : db.positions.get f.identity with
  | none =>
    have hload : loadPosition db f.identity = none := by rw [loadPosition, hr]; rfl
    rw [hload] at h hplan
    exact stored_of_insertApply hplan hid href hr h
  | some row =>
    have hload : loadPosition db f.identity = some (toState row) := by rw [loadPosition, hr]; rfl
    rw [hload] at h hplan
    rw [hr] at h
    exact stored_of_updateApply hplan href hr h

/-! ### Quantities add up, conflicts are real -/

/-- The stored quantity of a position. -/
def quantityOf (db : PositionDb) (k : PositionIdentity) : ℤ := quantityOrZero (loadPosition db k)

/-- Since `db₀` the quantities have grown by the fills reported as applied, no execution id is reported as applied
twice, and an execution id that is reported as a conflict is stored.  The stored events include the rows that record a
conflict as evidence. -/
structure NoLostApply (db₀ : PositionDb) (p : System) : Prop where
  quantity : ∀ k, quantityOf p.shared.db k = quantityOf db₀ k + (p.calls.map (appliedQuantity k)).sum
  once : (p.calls.filterMap appliedId).Nodup
  conflict : ∀ t ∈ p.calls, t.conflicted = true → (p.shared.db.events.get t.fill.executionId).isSome

/-- What a call knows: the plan is for the position that it loaded, and a call on the way to a conflict has its
execution id stored. -/
def TaskInv (db : PositionDb) (t : Task) : Prop :=
  match t.pc with
  | .plan current => ∀ c ∈ current, c.identity = t.identity
  | .begin current plan | .commit current plan _ => PlanFor current t.fill plan
  | .refind => (db.events.get t.fill.executionId).isSome
  | .resolve _ _ | .recordConflict _ _ => (db.events.get t.fill.executionId).isSome
  | .raised (.conflict _) => (db.events.get t.fill.executionId).isSome
  | .applied _ => (db.events.get t.fill.executionId).isSome
  | _ => True

/-- Stored events stay. -/
def Keeps (db db' : PositionDb) : Prop := ∀ id, (db.events.get id).isSome → (db'.events.get id).isSome

theorem keeps_of_rows {db db' : PositionDb} {e : PositionEvent} (h : db'.events.rows = db.events.rows ++ [e]) :
    Keeps db db' := by
  intro id hid
  unfold Table.get at hid ⊢
  rw [h, List.find?_append, Option.isSome_or, hid, Bool.true_or]

theorem TaskInv.mono {db db' : PositionDb} (hk : Keeps db db') {t : Task} (h : TaskInv db t) : TaskInv db' t := by
  obtain ⟨engine, call, pc⟩ := t
  cases pc with
  | raised err => cases err <;> first | trivial | exact hk _ h
  | refind | resolve | recordConflict | applied => exact hk _ h
  | plan current => exact h
  | begin current plan => exact h
  | commit current plan found => exact h
  | start | acquire | load | loadDuplicate | duplicate => trivial

theorem Keeps.refl (db : PositionDb) : Keeps db db := fun _ h => h

/-- A row with a hash is a row. -/
theorem stored_of_findFillHash {db : PositionDb} {id : String} (h : (findFillHash db id).isSome = true) :
    (db.events.get id).isSome := by
  unfold findFillHash at h
  cases hg : db.events.get id with
  | none => rw [hg] at h; cases h
  | some e => rfl

/-- A refused plan is no conflict. -/
theorem computePlan_error {current : Option PositionState} {f : PositionFill} {err : PositionError} (id : String)
    (h : computePlan current f = .error err) : err ≠ .conflict id := by
  unfold computePlan at h
  cases hs : planState current f with
  | error e =>
    rw [hs] at h
    cases h
    exact planState_error id hs
  | ok d => rw [hs] at h; cases h

/-- A step to an error other than a conflict asks nothing. -/
theorem taskInv_raised {db : PositionDb} {t : Task} {err : PositionError} (h : ∀ id, err ≠ .conflict id) :
    TaskInv db (t.goto (.raised err)) := by
  cases err with
  | conflict id => exact absurd rfl (h id)
  | _ => trivial

theorem keeps_of_recordConflict (db : PositionDb) (f : PositionFill) (stored : Scalar) :
    Keeps db (recordConflict db f stored) := by
  rcases recordConflict_cases db f stored with he | ⟨-, id, hins⟩
  · rw [he]
    exact Keeps.refl db
  · exact keeps_of_rows (Table.insert?_eq_some hins).2

/-- A commit under the condition stores its execution id, or finds it stored. -/
theorem TaskInv.next_commit {s : Shared} {t : Task} {current : Option PositionState} {plan : PositionApplyPlan}
    {found : Bool} (hpc : t.pc = .commit current plan found) (h : TaskInv s.db t) (hG : CommitsCurrent s t) :
    Keeps s.db (t.next s).1.db ∧ TaskInv (t.next s).1.db (t.next s).2 := by
  unfold TaskInv at h
  unfold CommitsCurrent at hG
  rw [hpc] at h hG
  have hplan : PlanFor current t.fill plan := h
  obtain ⟨hcur, hfound, hid, href⟩ := hG
  unfold Task.next
  simp only [hpc]
  cases hc : commitApply s.db t.identity plan.newState plan.event t.call.newId found with
  | ok db' =>
    simp only [Shared.release_db]
    obtain ⟨row, ha⟩ := commitApply_ok hplan.identity hc
    refine ⟨keeps_of_rows ha.events, ?_⟩
    have hget : db'.events.get t.fill.executionId = some (newEventRow row.id plan.event) := by
      refine Table.get_eq_some_iff.mpr ⟨?_, hplan.executionId⟩
      rw [ha.events]
      exact List.mem_append_right _ (by simp)
    exact congrArg Option.isSome hget
  | error err =>
    cases err with
    | persistence text =>
      simp only [Shared.release_db, Shared.endTransaction_db]
      exact ⟨Keeps.refl s.db, trivial⟩
    | duplicateApply =>
      simp only [Shared.endTransaction_db]
      subst hfound
      rw [← hcur] at hplan hc
      exact ⟨Keeps.refl s.db, stored_of_duplicateApply hplan hid href hc⟩

/-- A step keeps the stored events and what the stepping call knows. -/
theorem TaskInv.next {s : Shared} {t : Task} (h : TaskInv s.db t) (hG : CommitsCurrent s t) :
    Keeps s.db (t.next s).1.db ∧ TaskInv (t.next s).1.db (t.next s).2 := by
  have hrefl : Keeps s.db s.db := Keeps.refl s.db
  obtain ⟨engine, call, pc⟩ := t
  cases pc with
  | start =>
    simp only [Task.next]
    cases hv : validate call.globalHaltActive (Task.fill ⟨engine, call, .start⟩) with
    | error err => exact ⟨hrefl, taskInv_raised fun id => validate_error id hv⟩
    | ok u =>
      simp only
      split_ifs with hh
      · exact ⟨hrefl, stored_of_findFillHash hh⟩
      · exact ⟨hrefl, trivial⟩
  | acquire => simp only [Task.next]; split_ifs <;> exact ⟨hrefl, trivial⟩
  | load => exact ⟨hrefl, identity_of_loadPosition⟩
  | plan current =>
    simp only [Task.next]
    cases hp : computePlan current (Task.fill ⟨engine, call, .plan current⟩) with
    | error err =>
      simp only [Shared.release_db]
      exact ⟨hrefl, taskInv_raised fun id => computePlan_error id hp⟩
    | ok plan => exact ⟨hrefl, computePlan_ok hp h⟩
  | begin current plan =>
    simp only [Task.next]
    cases s.db.positions.get (Task.identity ⟨engine, call, .begin current plan⟩) with
    | none => exact ⟨hrefl, h⟩
    | some row => simp only; split_ifs <;> exact ⟨hrefl, h⟩
  | commit current plan found => exact h.next_commit rfl hG
  | refind => exact ⟨hrefl, h⟩
  | resolve locked stored => simp only [Task.next]; split_ifs <;> exact ⟨hrefl, by first | exact h | trivial⟩
  | loadDuplicate locked => simp only [Task.next, Shared.release_db]; exact ⟨hrefl, trivial⟩
  | recordConflict locked stored =>
    simp only [Task.next, Shared.release_db]
    have hk := keeps_of_recordConflict s.db (Task.fill ⟨engine, call, .recordConflict locked stored⟩)
      (originalHash stored)
    exact ⟨hk, hk _ h⟩
  | applied r | duplicate r | raised err => exact ⟨hrefl, h⟩

/-- Quantities after a commit. -/
theorem Applied.quantityOf {db db' : PositionDb} {k : PositionIdentity} {s : PositionState} {e : PositionEventData}
    {row : PositionRow} (h : Applied db db' k s e row) (k' : PositionIdentity) :
    quantityOf db' k' = if k = k' then s.quantity else quantityOf db k' := by
  unfold Position.quantityOf loadPosition
  by_cases hk : k' = k
  · subst hk
    rw [h.stored, if_pos rfl]
    exact h.holds.quantity
  · rw [h.other k' hk, if_neg fun h => hk h.symm]

/-- The invariant of a schedule. -/
structure SystemInv (db₀ : PositionDb) (p : System) : Prop where
  tasks : ∀ t ∈ p.calls, TaskInv p.shared.db t
  quantity : ∀ k, quantityOf p.shared.db k = quantityOf db₀ k + (p.calls.map (appliedQuantity k)).sum
  once : (p.calls.filterMap appliedId).Nodup

/-- A reported execution id is stored. -/
theorem SystemInv.stored {db₀ : PositionDb} {p : System} (hI : SystemInv db₀ p) {id : String}
    (h : id ∈ p.calls.filterMap appliedId) : (p.shared.db.events.get id).isSome := by
  obtain ⟨t, ht, hid⟩ := List.mem_filterMap.mp h
  have hinv := hI.tasks t ht
  unfold appliedId at hid
  unfold TaskInv at hinv
  split at hid
  · next hpc =>
    cases hid
    rw [hpc] at hinv
    exact hinv
  · cases hid

section

variable {db₀ : PositionDb} {p : System} {i : ℕ} {t : Task}

/-- A step that keeps the positions and what the call reports. -/
theorem SystemInv.step_idle (hI : SystemInv db₀ p) (hi : p.calls[i]? = some t)
    (htasks : ∀ t' ∈ (p.step Task.next i).calls, TaskInv (p.step Task.next i).shared.db t')
    (hpos : (t.next p.shared).1.db.positions = p.shared.db.positions)
    (hid : appliedId (t.next p.shared).2 = appliedId t)
    (hq : ∀ k, appliedQuantity k (t.next p.shared).2 = appliedQuantity k t) :
    SystemInv db₀ (p.step Task.next i) := by
  refine ⟨htasks, fun k => ?_, ?_⟩
  · have hsame : quantityOf (p.step Task.next i).shared.db k = quantityOf p.shared.db k := by
      rw [Pool.step_of_some hi]
      unfold quantityOf loadPosition
      rw [hpos]
    rw [hsame, Pool.sum_step Task.next (appliedQuantity k) hi, hq, sub_self, add_zero]
    exact hI.quantity k
  · rw [Pool.filterMap_step_of_eq appliedId hi hid]
    exact hI.once

/-- A commit of a plan that was computed from the stored position. -/
theorem SystemInv.step_commit (hI : SystemInv db₀ p) (hi : p.calls[i]? = some t)
    (htasks : ∀ t' ∈ (p.step Task.next i).calls, TaskInv (p.step Task.next i).shared.db t')
    {current : Option PositionState} {plan : PositionApplyPlan} {found : Bool} {r : PositionResult}
    (hpc : t.pc = .commit current plan found) (hplan : PlanFor current t.fill plan)
    (hcur : loadPosition p.shared.db t.identity = current) (hnext : (t.next p.shared).2 = t.goto (.applied r))
    (hc : commitApply p.shared.db t.identity plan.newState plan.event t.call.newId found =
      .ok (t.next p.shared).1.db) : SystemInv db₀ (p.step Task.next i) := by
  obtain ⟨row, ha⟩ : ∃ row, Applied p.shared.db (t.next p.shared).1.db t.identity plan.newState plan.event row :=
    commitApply_ok hplan.identity hc
  have hshared : (p.step Task.next i).shared = (t.next p.shared).1 := by rw [Pool.step_of_some hi]
  have hidle : appliedId t = none := by unfold appliedId; rw [hpc]
  have hzero : ∀ k, appliedQuantity k t = 0 := fun k => by unfold appliedQuantity; rw [hpc]
  refine ⟨htasks, fun k => ?_, ?_⟩
  · rw [hshared, ha.quantityOf, Pool.sum_step Task.next (appliedQuantity k) hi, hnext, hzero, sub_zero, ← add_assoc,
      ← hI.quantity]
    show _ = _ + if t.identity = k then t.fill.signed else 0
    by_cases hk : t.identity = k
    · rw [if_pos hk, if_pos hk, hplan.quantity, ← hcur, ← hk]
      rfl
    · rw [if_neg hk, if_neg hk, add_zero]
  · have hperm := Pool.perm_filterMap_step Task.next appliedId hi hidle
    rw [hnext] at hperm
    rw [hperm.nodup_iff, List.nodup_append]
    refine ⟨hI.once, List.nodup_singleton _, ?_⟩
    rintro a hmem b hb rfl
    -- a reported id is stored, and the one committed was not
    have hb' : a = t.fill.executionId := by simpa [appliedId, Task.goto, Task.fill] using hb
    have hst := hI.stored hmem
    have hun := ha.unseen
    rw [hplan.executionId, ← hb'] at hun
    rw [hun] at hst
    cases hst

theorem SystemInv.step (hI : SystemInv db₀ p) (hG : Pool.OnCall CommitsCurrent p i) :
    SystemInv db₀ (p.step Task.next i) := by
  cases hi : p.calls[i]? with
  | none => rw [Pool.step_of_none hi]; exact hI
  | some t =>
    have hG := hG t hi
    have hti := hI.tasks t (List.mem_of_getElem? hi)
    obtain ⟨hkeeps, hnext⟩ := hti.next hG
    have htasks : ∀ t' ∈ (p.step Task.next i).calls, TaskInv (p.step Task.next i).shared.db t' := by
      have hshared : (p.step Task.next i).shared = (t.next p.shared).1 := by rw [Pool.step_of_some hi]
      rw [hshared]
      exact Pool.forall_step hi (fun t' ht' => (hI.tasks t' ht').mono hkeeps) hnext
    rcases t.next_cases p.shared with ⟨h1, h2, h3⟩ | ⟨current, plan, found, r, hpc, h2, hc⟩ |
      ⟨locked, stored, hpc, h2, h3⟩
    · exact hI.step_idle hi htasks (congrArg PositionDb.positions h1) h2 h3
    · unfold TaskInv at hti
      unfold CommitsCurrent at hG
      rw [hpc] at hti hG
      exact hI.step_commit hi htasks hpc hti hG.1 h2 hc
    · refine hI.step_idle hi htasks ?_ ?_ fun k => ?_
      · rw [h3]
        rcases recordConflict_cases p.shared.db t.fill (originalHash stored) with he | ⟨he, -⟩
        · rw [he]
        · exact he
      · unfold appliedId
        rw [h2, hpc]
        rfl
      · unfold appliedQuantity
        rw [h2, hpc]
        rfl

end

theorem Started.systemInv {p : System} (h : Started p) : SystemInv p.shared.db p := by
  obtain ⟨-, -, hstart⟩ := h
  refine ⟨?_, ?_, ?_⟩
  · intro t ht
    unfold TaskInv
    rw [hstart t ht]
    trivial
  · intro k
    have hzero : (p.calls.map (appliedQuantity k)).sum = 0 := by
      apply List.sum_eq_zero
      intro q hq
      obtain ⟨t, ht, rfl⟩ := List.mem_map.mp hq
      unfold appliedQuantity
      rw [hstart t ht]
    rw [hzero, add_zero]
  · have hnil : p.calls.filterMap appliedId = [] := by
      rw [List.filterMap_eq_nil_iff]
      intro t ht
      unfold appliedId
      rw [hstart t ht]
    rw [hnil]
    exact List.nodup_nil

/-- **No application is lost and conflicts are real**: at every point of a schedule in which every commit finds the
position that its plan was computed from, quantities add up the fills reported as applied, and an execution id that
is reported as a conflict is stored. -/
theorem no_lost_apply {p : System} (hp : Started p) (l : List ℕ)
    (hG : Along (Pool.step Task.next) (Pool.OnCall CommitsCurrent) p l) :
    ∀ l', l' <+: l → NoLostApply p.shared.db (schedule p l') := by
  rintro l' ⟨r, rfl⟩
  have hI := ((along_append _ _ _ _ _).mp hG).1.invariant (I := SystemInv p.shared.db)
    (fun q i hI hG => hI.step hG) hp.systemInv
  refine ⟨hI.quantity, hI.once, ?_⟩
  intro t ht hc
  have hinv := hI.tasks t ht
  unfold Task.conflicted at hc
  unfold TaskInv at hinv
  split at hc
  · next hpc => rw [hpc] at hinv; exact hinv
  · cases hc

/-- Two engines, each with one purchase of the same position, over an empty store. -/
def twoPurchases : System where
  shared := ⟨.empty ⟨[⟨3⟩], [⟨2⟩], [⟨1⟩]⟩, [], []⟩
  calls := [⟨0, ⟨false, ⟨10⟩, paperFill "e1" .buy (Dec.ofNat 5) (Dec.ofNat 100) (by decide +kernel)⟩, .start⟩,
    ⟨1, ⟨false, ⟨11⟩, paperFill "e2" .buy (Dec.ofNat 7) (Dec.ofNat 100) (by decide +kernel)⟩, .start⟩]

theorem twoPurchases_started : Started twoPurchases := by
  refine ⟨rfl, rfl, fun t ht => ?_⟩
  simp only [twoPurchases, List.mem_cons, List.not_mem_nil, or_false] at ht
  rcases ht with rfl | rfl <;> rfl

theorem no_lost_apply_twoPurchases :
    NoLostApply twoPurchases.shared.db (schedule twoPurchases [0, 0, 0, 0, 0, 0, 1, 1, 1, 1, 1, 1]) :=
  no_lost_apply twoPurchases_started _ (by decide +kernel) _ List.prefix_rfl

/-- Both engines plan from the empty store and the second transaction begins after the first has committed: the
position holds 7 of 12. -/
theorem lost_apply : ¬ ∀ p : System, Started p → ∀ l : List ℕ, (∀ t ∈ (schedule p l).calls, t.ended = true) →
    NoLostApply p.shared.db (schedule p l) := by
  intro h
  have hq := (h twoPurchases twoPurchases_started [0, 0, 0, 0, 1, 1, 1, 1, 0, 0, 1, 1] (by decide +kernel)).quantity
    ⟨⟨3⟩, ⟨2⟩, "PAPER"⟩
  revert hq
  decide +kernel

/-- Both transactions begin before either commits: the second insertion is refused, and a fill that was never
stored is reported as a conflict. -/
theorem false_conflict : ¬ ∀ p : System, Started p → ∀ l : List ℕ, ∀ t ∈ (schedule p l).calls,
    t.conflicted = true → ((schedule p l).shared.db.events.get t.fill.executionId).isSome = true := by
  intro h
  have hc := h twoPurchases twoPurchases_started [0, 0, 0, 0, 0, 1, 1, 1, 1, 1, 0, 1, 1, 1, 1]
  revert hc
  decide +kernel

end AlphaAlgo.Position
