import AlphaAlgo.Lib.Pool
import AlphaAlgo.Execution.Engine
import AlphaAlgo.Oms.Cancellation

/-!
# Interleaving — concurrent calls on one order database

`apply_event` of the execution engine and `request_cancellation` of the order management, one transaction or local
computation at a time, over a shared database.  No call holds a lock between its read and its write.

* `apply_event_alone`: a call that is not interrupted is the sequential `applyEvent`.
* `no_lost_fill`: filled quantities add up on the schedules in which no event is saved over a filled quantity that
  the call did not load.
* `status_along_table`: statuses follow the transition table on the schedules in which no call writes over a status
  that it did not read.
-/

namespace AlphaAlgo.Execution

open Runs Oms

/-! ### Calls -/

/-- Where an `apply_event` call is. -/
inductive EventPc where
  | start
  | compareHash
  | loadReplay
  | load
  | update (s : OrderExecutionState)
  | save (s next : OrderExecutionState)
  | saved (next : OrderExecutionState)
  | replayed (s : OrderExecutionState)
  | raised (err : ExecutionError)

/-- Where a `request_cancellation` call is. -/
inductive CancelPc where
  | start
  | append (order : Order) (event : OrderEvent)
  | requested (event : OrderEvent) (result : OrderResult)
  | raised (err : OmsError)

inductive Call where
  | applyEvent (e : BrokerOrderEvent) (pc : EventPc)
  | requestCancellation (orderId : UUID) (now : DateTime) (pc : CancelPc)

/-- The read of the order, in either branch of `apply_event`. -/
def loadStep (db : OrderDb) (e : BrokerOrderEvent) (cont : OrderExecutionState → EventPc) : EventPc :=
  match loadExecutionState db e.orderId with
  | .error err => .raised (.db err)
  | .ok none => .raised (.validation ("order not found: " ++ e.orderId.str))
  | .ok (some s) => cont s

/-- One step of `apply_event`. -/
def nextEvent (db : OrderDb) (e : BrokerOrderEvent) : EventPc → OrderDb × EventPc
  | .start => (db, if hasEvent db (computeEventIdentity e.toEventFields) then .compareHash else .load)
  | .compareHash =>
    let storedHash := getEventHash db (computeEventIdentity e.toEventFields)
    (db, if storedHash.isSome && storedHash ≠ some (.str (eventContentHash e.toEventFields)) then
        .raised (.validation "event identity conflict: same identity, different payload")
      else .loadReplay)
  | .loadReplay => (db, loadStep db e .replayed)
  | .load => (db, loadStep db e .update)
  | .update s =>
    match s.applyEvent e with
    | .error err => (db, .raised (.order err))
    | .ok next => (db, .save s next)
  | .save _ next =>
    match saveEvent db e.orderId e next (computeEventIdentity e.toEventFields) with
    | .error err => (db, .raised (.db err))
    | .ok db' => (db', .saved next)
  | .saved next => (db, .saved next)
  | .replayed s => (db, .replayed s)
  | .raised err => (db, .raised err)

/-- One step of `request_cancellation`. -/
def nextCancel (db : OrderDb) (orderId : UUID) (now : DateTime) : CancelPc → OrderDb × CancelPc
  | .start =>
    match cancellationEvent (findById db orderId) orderId now with
    | .error err => (db, .raised err)
    | .ok (order, event) => (db, .append order event)
  | .append order event =>
    match persistCancellation db orderId order event with
    | .error err => (db, .raised err)
    | .ok (result, db') => (db', .requested event result)
  | .requested event result => (db, .requested event result)
  | .raised err => (db, .raised err)

def Call.next (db : OrderDb) : Call → OrderDb × Call
  | .applyEvent e pc => ((nextEvent db e pc).1, .applyEvent e (nextEvent db e pc).2)
  | .requestCancellation o now pc => ((nextCancel db o now pc).1, .requestCancellation o now (nextCancel db o now pc).2)

/-- A call that has not begun. -/
def Call.atStart : Call → Prop
  | .applyEvent _ .start => True
  | .requestCancellation _ _ .start => True
  | _ => False

/-- A call that has returned or raised. -/
def Call.ended : Call → Bool
  | .applyEvent _ (.saved _) | .applyEvent _ (.replayed _) | .applyEvent _ (.raised _) => true
  | .requestCancellation _ _ (.requested _ _) | .requestCancellation _ _ (.raised _) => true
  | _ => false

/-- The database and the calls on it. -/
abbrev System := Pool OrderDb Call

/-- No call has begun. -/
def Started (p : System) : Prop := ∀ c ∈ p.calls, c.atStart

/-- The schedule `l` of calls. -/
abbrev schedule (p : System) (l : List ℕ) : System := run (Pool.step Call.next) p l

/-! ### A call alone -/

/-- The end of a call, from what `applyEvent` returns. -/
def EventPc.ofResult (replay : Bool) : Except ExecutionError (OrderExecutionState × OrderDb) → EventPc
  | .error err => .raised err
  | .ok (s, _) => if replay then .replayed s else .saved s

/-- The steps of an uninterrupted call. -/
theorem schedule_alone (e : BrokerOrderEvent) : ∀ (n : ℕ) (db : OrderDb) (pc : EventPc),
    schedule ⟨db, [.applyEvent e pc]⟩ (List.replicate n 0) =
      ⟨((fun x => nextEvent x.1 e x.2)^[n] (db, pc)).1,
        [.applyEvent e ((fun x => nextEvent x.1 e x.2)^[n] (db, pc)).2]⟩
  | 0, _, _ => rfl
  | n + 1, db, pc => schedule_alone e n (nextEvent db e pc).1 (nextEvent db e pc).2

/-- A call that has raised stays so. -/
theorem iterate_raised (e : BrokerOrderEvent) (db : OrderDb) (err : ExecutionError) : ∀ n : ℕ,
    (fun x => nextEvent x.1 e x.2)^[n] (db, .raised err) = (db, .raised err)
  | 0 => rfl
  | n + 1 => iterate_raised e db err n

/-- **An uninterrupted call is the sequential `applyEvent`.** -/
theorem apply_event_alone (db : OrderDb) (e : BrokerOrderEvent) :
    schedule ⟨db, [.applyEvent e .start]⟩ (List.replicate 4 0) =
      ⟨deliver db e, [.applyEvent e (.ofResult (hasEvent db (computeEventIdentity e.toEventFields))
        (applyEvent db e))]⟩ := by
  rw [schedule_alone]
  have hload : ∀ cont, loadStep db e cont = (match loadExecutionState db e.orderId with
      | .error err => .raised (.db err)
      | .ok none => .raised (.validation ("order not found: " ++ e.orderId.str))
      | .ok (some s) => cont s) := fun _ => rfl
  unfold deliver applyEvent
  cases hh : hasEvent db (computeEventIdentity e.toEventFields) with
  | true =>
    have h1 : nextEvent db e .start = (db, .compareHash) := by simp [nextEvent, hh]
    rw [Function.iterate_succ_apply, h1, Function.iterate_succ_apply]
    by_cases hc : ((getEventHash db (computeEventIdentity e.toEventFields)).isSome && getEventHash db
        (computeEventIdentity e.toEventFields) ≠ some (.str (eventContentHash e.toEventFields))) = true
    · have h2 : nextEvent db e .compareHash = (db, .raised
          (.validation "event identity conflict: same identity, different payload")) := by
        simp only [nextEvent]; rw [if_pos hc]
      rw [h2, iterate_raised]
      simp only [hh, if_true]
      rw [if_pos hc]
      rfl
    · have h2 : nextEvent db e .compareHash = (db, .loadReplay) := by simp only [nextEvent]; rw [if_neg hc]
      have h3 : nextEvent db e .loadReplay = (db, loadStep db e .replayed) := rfl
      rw [h2, Function.iterate_succ_apply, h3, hload]
      simp only [hh, if_true]
      rw [if_neg hc]
      cases loadExecutionState db e.orderId with
      | error err => rfl
      | ok o => cases o <;> rfl
  | false =>
    have h1 : nextEvent db e .start = (db, .load) := by simp [nextEvent, hh]
    have h2 : nextEvent db e .load = (db, loadStep db e .update) := rfl
    rw [Function.iterate_succ_apply, h1, Function.iterate_succ_apply, h2, hload]
    simp only [hh, Bool.false_eq_true, if_false]
    cases loadExecutionState db e.orderId with
    | error err => rfl
    | ok o =>
      cases o with
      | none => rfl
      | some s =>
        rw [Function.iterate_succ_apply]
        simp only
        cases hn : s.applyEvent e with
        | error err =>
          have h3 : nextEvent db e (.update s) = (db, .raised (.order err)) := by simp [nextEvent, hn]
          rw [h3, iterate_raised]
          rfl
        | ok next =>
          have h3 : nextEvent db e (.update s) = (db, .save s next) := by simp [nextEvent, hn]
          rw [h3, Function.iterate_one]
          simp only [nextEvent]
          cases saveEvent db e.orderId e next (computeEventIdentity e.toEventFields) <;> rfl

/-! ### What a step does -/

/-- What a call has added to the filled quantity of `o`: the quantity of the event it saved. -/
def savedFill (o : UUID) : Call → ℚ
  | .applyEvent e (.saved _) => if e.orderId = o then e.fillQuantity.val else 0
  | _ => 0

/-- Order and identity of the event row that a call has stored. -/
def storedKey : Call → Option (UUID × String)
  | .applyEvent e (.saved _) => some (e.orderId, computeEventIdentity e.toEventFields)
  | .requestCancellation o _ (.requested event _) => some (o, event.sourceEventId)
  | _ => none

/-- **Everything a step does**: it leaves the database and the call's record, saves an event, or appends a
cancellation. -/
theorem Call.next_cases (db : OrderDb) (c : Call) :
    ((c.next db).1 = db ∧ storedKey (c.next db).2 = storedKey c ∧ ∀ o, savedFill o (c.next db).2 = savedFill o c) ∨
    (∃ e s n, c = .applyEvent e (.save s n) ∧ (c.next db).2 = .applyEvent e (.saved n) ∧
      saveEvent db e.orderId e n (computeEventIdentity e.toEventFields) = .ok (c.next db).1) ∨
    (∃ o now order event r, c = .requestCancellation o now (.append order event) ∧
      (c.next db).2 = .requestCancellation o now (.requested event r) ∧
      appendEvent db o event .cancelRequested = .ok (c.next db).1) := by
  cases c with
  | applyEvent e pc =>
    cases pc with
    | start =>
      left
      cases hh : hasEvent db (computeEventIdentity e.toEventFields) <;>
        simp [Call.next, nextEvent, hh, storedKey, savedFill]
    | compareHash =>
      left
      simp only [Call.next, nextEvent]
      split_ifs <;> simp [storedKey, savedFill]
    | loadReplay | load =>
      left
      simp only [Call.next, nextEvent, loadStep]
      cases loadExecutionState db e.orderId with
      | error err => simp [storedKey, savedFill]
      | ok o => cases o <;> simp [storedKey, savedFill]
    | update s =>
      left
      cases hn : s.applyEvent e <;> simp [Call.next, nextEvent, hn, storedKey, savedFill]
    | save s n =>
      cases hs : saveEvent db e.orderId e n (computeEventIdentity e.toEventFields) with
      | error err => left; simp [Call.next, nextEvent, hs, storedKey, savedFill]
      | ok db' =>
        right; left
        exact ⟨e, s, n, rfl, by simp [Call.next, nextEvent, hs], by simp [Call.next, nextEvent, hs]⟩
    | saved n | replayed s | raised err => left; exact ⟨rfl, rfl, fun _ => rfl⟩
  | requestCancellation o now pc =>
    cases pc with
    | start =>
      left
      cases hc : cancellationEvent (findById db o) o now <;> simp [Call.next, nextCancel, hc, storedKey, savedFill]
    | append order event =>
      cases hp : persistCancellation db o order event with
      | error err => left; simp [Call.next, nextCancel, hp, storedKey, savedFill]
      | ok r =>
        right; right
        refine ⟨o, now, order, event, r.1, rfl, by simp [Call.next, nextCancel, hp], ?_⟩
        rw [persistCancellation_ok hp]
        simp [Call.next, nextCancel, hp]
    | requested event r | raised err => left; exact ⟨rfl, rfl, fun _ => rfl⟩

/-- What a call knows of what it has read. -/
def CallInv : Call → Prop
  | .applyEvent _ (.update s) => s.orderQuantity < 10 ^ 28
  | .applyEvent e (.save s next) => s.orderQuantity < 10 ^ 28 ∧ s.applyEvent e = .ok next
  | .requestCancellation _ _ (.append order _) => order.status ∈ cancellable
  | _ => True

theorem CallInv.next {db : OrderDb} {c : Call} (h : CallInv c) : CallInv (c.next db).2 := by
  cases c with
  | applyEvent e pc =>
    cases pc with
    | start => simp only [Call.next, nextEvent]; split_ifs <;> trivial
    | compareHash => simp only [Call.next, nextEvent]; split_ifs <;> trivial
    | loadReplay =>
      simp only [Call.next, nextEvent, loadStep]
      cases loadExecutionState db e.orderId with
      | error err => trivial
      | ok o => cases o <;> trivial
    | load =>
      simp only [Call.next, nextEvent, loadStep]
      cases hl : loadExecutionState db e.orderId with
      | error err => trivial
      | ok o =>
        cases o with
        | none => trivial
        | some s =>
          obtain ⟨row, -, -, -, hq, -⟩ := loadExecutionState_some hl
          show s.orderQuantity < 10 ^ 28
          rw [hq]
          exact Int4.lt_digits _
    | update s =>
      simp only [Call.next, nextEvent]
      cases hn : s.applyEvent e with
      | error err => trivial
      | ok next => exact ⟨h, hn⟩
    | save s n =>
      simp only [Call.next, nextEvent]
      cases saveEvent db e.orderId e n (computeEventIdentity e.toEventFields) <;> trivial
    | saved n | replayed s | raised err => trivial
  | requestCancellation o now pc =>
    cases pc with
    | start =>
      simp only [Call.next, nextCancel]
      cases hc : cancellationEvent (findById db o) o now with
      | error err => trivial
      | ok r => exact (cancellationEvent_ok hc).2.1
    | append order event =>
      simp only [Call.next, nextCancel]
      cases persistCancellation db o order event <;> trivial
    | requested event r | raised err => trivial

theorem Call.atStart.callInv {c : Call} (h : c.atStart) : CallInv c := by
  cases c with
  | applyEvent e pc => cases pc <;> trivial
  | requestCancellation o now pc => cases pc <;> trivial

/-- All calls know what they have read, at every point of a schedule. -/
theorem callInv_step {p : System} (h : ∀ c ∈ p.calls, CallInv c) (i : ℕ) :
    ∀ c ∈ (p.step Call.next i).calls, CallInv c := by
  cases hc : p.calls[i]? with
  | none => rw [Pool.step_of_none hc]; exact h
  | some c => exact Pool.forall_step hc h (h c (List.mem_of_getElem? hc)).next

/-! ### No fill is lost -/

/-- Order and identity of an event row. -/
def rowKey (r : OrderEvent) : UUID × String := (r.orderId, r.sourceEventId)

/-- The rows stored since `db₀` are those of the calls that ended with a stored row, and the filled quantity of an
order has grown by the quantities of the events stored for it. -/
structure NoLostFill (db₀ : OrderDb) (p : System) : Prop where
  rows : (p.shared.events.rows.map rowKey).Perm (db₀.events.rows.map rowKey ++ p.calls.filterMap storedKey)
  filled : ∀ o, (filledOf p.shared o : ℚ) = filledOf db₀ o + (p.calls.map (savedFill o)).sum

/-- The condition on the save of an event: the row has the filled quantity that the call loaded, and the event has
a whole quantity. -/
def SavesCurrent (db : OrderDb) : Call → Prop
  | .applyEvent e (.save s _) => (filledOf db e.orderId : ℚ) = s.filledQuantity ∧ WholeFill e
  | _ => True

instance (db : OrderDb) : ∀ c, Decidable (SavesCurrent db c)
  | .applyEvent _ (.save _ _) => inferInstanceAs (Decidable (_ ∧ _))
  | .applyEvent _ .start | .applyEvent _ .compareHash | .applyEvent _ .loadReplay | .applyEvent _ .load
  | .applyEvent _ (.update _) | .applyEvent _ (.saved _) | .applyEvent _ (.replayed _)
  | .applyEvent _ (.raised _) | .requestCancellation _ _ _ => isTrue trivial

theorem filledOf_of_get {db db' : OrderDb} {o : UUID} (h : db'.orders.get o = db.orders.get o) :
    filledOf db' o = filledOf db o := by
  unfold filledOf
  rw [h]

section

variable {db₀ : OrderDb} {p : System} {i : ℕ}

/-- A stored row is reported by the call that stored it. -/
theorem NoLostFill.rows_step (hI : NoLostFill db₀ p) {c : Call} (hi : p.calls[i]? = some c) {r : OrderEvent}
    (hc : storedKey c = none) (hr : storedKey (c.next p.shared).2 = some (rowKey r))
    (hins : p.shared.events.insert? r = some (c.next p.shared).1.events) :
    ((p.step Call.next i).shared.events.rows.map rowKey).Perm
      (db₀.events.rows.map rowKey ++ (p.step Call.next i).calls.filterMap storedKey) := by
  have hrows : (p.step Call.next i).shared.events.rows.map rowKey = p.shared.events.rows.map rowKey ++ [rowKey r] := by
    rw [Pool.step_of_some hi, (Table.insert?_eq_some hins).2, List.map_append]
    rfl
  have hperm := Pool.perm_filterMap_step Call.next storedKey hi hc
  rw [hr] at hperm
  rw [hrows]
  refine (hI.rows.append_right _).trans ?_
  rw [List.append_assoc]
  exact hperm.symm.append_left _

/-- An event saved over the filled quantity that its call loaded adds its quantity. -/
theorem NoLostFill.step_save (hI : NoLostFill db₀ p) {e : BrokerOrderEvent} {s n : OrderExecutionState}
    (hi : p.calls[i]? = some (.applyEvent e (.save s n))) (hci : CallInv (.applyEvent e (.save s n)))
    (hG : SavesCurrent p.shared (.applyEvent e (.save s n)))
    (hnext : (Call.next p.shared (.applyEvent e (.save s n))).2 = .applyEvent e (.saved n))
    (hsave : saveEvent p.shared e.orderId e n (computeEventIdentity e.toEventFields) =
      .ok (Call.next p.shared (.applyEvent e (.save s n))).1) : NoLostFill db₀ (p.step Call.next i) := by
  obtain ⟨hcur, hwhole⟩ := hG
  obtain ⟨hq, hn⟩ := hci
  obtain ⟨row, f, hrow, -, -, hoth, hins⟩ := saveEvent_ok hsave
  have hf : s.filledQuantity = row.filled := by rw [← hcur, filledOf, hrow]
  obtain ⟨row', hrow', -, -, hst, hadd⟩ := saveEvent_whole hrow hf hq hn hwhole hsave
  refine ⟨hI.rows_step hi rfl (by rw [hnext]; rfl) hins, fun o => ?_⟩
  rw [Pool.sum_step Call.next (savedFill o) hi, hnext, Pool.step_of_some hi]
  simp only [savedFill, sub_zero]
  by_cases ho : e.orderId = o
  · subst ho
    rw [if_pos rfl, ← add_assoc, ← hI.filled e.orderId]
    unfold filledOf
    rw [hrow, hrow']
    exact hst.trans hadd
  · rw [if_neg ho, add_zero, filledOf_of_get (hoth o fun h => ho h.symm)]
    exact hI.filled o

/-- A cancellation keeps the filled quantities. -/
theorem NoLostFill.step_append (hI : NoLostFill db₀ p) {o : UUID} {now : DateTime} {order : Order}
    {event : OrderEvent} {r : OrderResult} (hi : p.calls[i]? = some (.requestCancellation o now (.append order event)))
    (hnext : (Call.next p.shared (.requestCancellation o now (.append order event))).2 =
      .requestCancellation o now (.requested event r))
    (happ : appendEvent p.shared o event .cancelRequested =
      .ok (Call.next p.shared (.requestCancellation o now (.append order event))).1) :
    NoLostFill db₀ (p.step Call.next i) := by
  obtain ⟨row, hrow, hrow', hoth, hins⟩ := appendEvent_ok happ
  refine ⟨hI.rows_step hi rfl (by rw [hnext]; rfl) hins, fun o' => ?_⟩
  rw [Pool.sum_step Call.next (savedFill o') hi, hnext, Pool.step_of_some hi]
  simp only [savedFill, sub_self, add_zero]
  rw [← hI.filled o']
  by_cases ho : o' = o
  · subst ho
    unfold filledOf
    rw [hrow, hrow']
    rfl
  · rw [filledOf_of_get (hoth o' ho)]

theorem NoLostFill.step (hI : NoLostFill db₀ p) (hc : ∀ c ∈ p.calls, CallInv c)
    (hG : Pool.OnCall SavesCurrent p i) : NoLostFill db₀ (p.step Call.next i) := by
  cases hi : p.calls[i]? with
  | none => rw [Pool.step_of_none hi]; exact hI
  | some c =>
    rcases c.next_cases p.shared with ⟨h1, h2, h3⟩ | ⟨e, s, n, rfl, h2, hsave⟩ |
      ⟨o, now, order, event, r, rfl, h2, happ⟩
    · have hshared : (p.step Call.next i).shared = p.shared := by rw [Pool.step_of_some hi, h1]
      refine ⟨?_, fun o => ?_⟩
      · rw [hshared, Pool.filterMap_step_of_eq storedKey hi h2]
        exact hI.rows
      · rw [hshared, Pool.sum_step Call.next (savedFill o) hi, h3, sub_self, add_zero]
        exact hI.filled o
    · exact hI.step_save hi (hc _ (List.mem_of_getElem? hi)) (hG _ hi) h2 hsave
    · exact hI.step_append hi h2 happ

end

theorem Started.filterMap_storedKey {p : System} (h : Started p) : p.calls.filterMap storedKey = [] := by
  rw [List.filterMap_eq_nil_iff]
  intro c hc
  have := h c hc
  cases c with
  | applyEvent e pc => cases pc <;> trivial
  | requestCancellation o now pc => cases pc <;> trivial

theorem Started.sum_savedFill {p : System} (h : Started p) (o : UUID) : (p.calls.map (savedFill o)).sum = 0 := by
  apply List.sum_eq_zero
  intro q hq
  obtain ⟨c, hc, rfl⟩ := List.mem_map.mp hq
  have := h c hc
  cases c with
  | applyEvent e pc => cases pc <;> trivial
  | requestCancellation o now pc => cases pc <;> trivial

/-- **No fill is lost**: at every point of a schedule in which every event is saved over the filled quantity that
its call loaded, the stored rows and the filled quantities are those of the saved events. -/
theorem no_lost_fill {p : System} (hp : Started p) (l : List ℕ)
    (hG : Along (Pool.step Call.next) (Pool.OnCall SavesCurrent) p l) :
    ∀ l', l' <+: l → NoLostFill p.shared (schedule p l') := by
  rintro l' ⟨r, rfl⟩
  have h0 : NoLostFill p.shared p :=
    ⟨by rw [hp.filterMap_storedKey, List.append_nil], fun o => by rw [hp.sum_savedFill, add_zero]⟩
  have hinv := ((along_append _ _ _ _ _).mp hG).1.invariant
    (I := fun q => (∀ c ∈ q.calls, CallInv c) ∧ NoLostFill p.shared q)
    (fun q i hI hG => ⟨callInv_step hI.1 i, hI.2.step hI.1 hG⟩) ⟨fun c hc => (hp c hc).callInv, h0⟩
  exact hinv.2

/-- Two fills, of 30 and of 40, on the acknowledged order. -/
def twoFills : System where
  shared := acknowledgedDb
  calls := [.applyEvent (partialFill30 (sourceId "f1")) .start,
    .applyEvent ⟨report .partialFill (Dec.ofNat 40) (sourceId "f2"), by decide +kernel⟩ .start]

theorem twoFills_started : Started twoFills := by
  intro c hc
  simp only [twoFills, List.mem_cons, List.not_mem_nil, or_false] at hc
  rcases hc with rfl | rfl <;> trivial

theorem no_lost_fill_twoFills : NoLostFill acknowledgedDb (schedule twoFills [0, 0, 0, 0, 1, 1, 1, 1]) :=
  no_lost_fill twoFills_started _ (by decide +kernel) _ List.prefix_rfl

/-- Both calls load the order before either saves: 40 stays of 70. -/
theorem lost_fill : ¬ ∀ p : System, Started p → ∀ l : List ℕ, (∀ c ∈ (schedule p l).calls, c.ended) →
    NoLostFill p.shared (schedule p l) := by
  intro h
  have hf := (h twoFills twoFills_started [0, 0, 0, 1, 1, 1, 0, 1] (by decide +kernel)).filled ⟨1⟩
  revert hf
  decide +kernel

/-! ### Statuses follow the table -/

/-- The stored status of an order. -/
def statusOf (db : OrderDb) (o : UUID) : Option OrderState := (db.orders.get o).map Order.status

/-- Every stored status stays or moves along an edge of the table, and a terminal one stays. -/
structure FollowsTable (db db' : OrderDb) : Prop where
  edge : ∀ o s, statusOf db o = some s → ∃ s', statusOf db' o = some s' ∧ (s' = s ∨ s' ∈ allowedTransitions s)
  terminal : ∀ o s, statusOf db o = some s → s ∈ terminalOrderStates → statusOf db' o = some s

/-- A write of one row along an edge. -/
theorem FollowsTable.of_write {db db' : OrderDb} {o : UUID} {s : OrderState} (s' : OrderState)
    (hoth : ∀ k, k ≠ o → db'.orders.get k = db.orders.get k) (hs : statusOf db o = some s)
    (hs' : statusOf db' o = some s') (hedge : s' ∈ allowedTransitions s) : FollowsTable db db' := by
  have hsame : ∀ k, k ≠ o → statusOf db' k = statusOf db k := fun k hk => by rw [statusOf, statusOf, hoth k hk]
  refine ⟨fun k t ht => ?_, fun k t ht hterm => ?_⟩
  · by_cases hk : k = o
    · subst hk
      rw [hs] at ht
      cases ht
      exact ⟨s', hs', Or.inr hedge⟩
    · exact ⟨t, by rw [hsame k hk, ht], Or.inl rfl⟩
  · by_cases hk : k = o
    · subst hk
      rw [hs] at ht
      cases ht
      rw [allowedTransitions_of_terminal hterm] at hedge
      cases hedge
    · rw [hsame k hk, ht]

/-- The condition on a write: the row has the status that the call read. -/
def WritesCurrent (db : OrderDb) : Call → Prop
  | .applyEvent e (.save s _) => statusOf db e.orderId = some s.status
  | .requestCancellation o _ (.append order _) => statusOf db o = some order.status
  | _ => True

instance (db : OrderDb) : ∀ c, Decidable (WritesCurrent db c)
  | .applyEvent _ (.save _ _) => inferInstanceAs (Decidable (_ = _))
  | .requestCancellation _ _ (.append _ _) => inferInstanceAs (Decidable (_ = _))
  | .applyEvent _ .start | .applyEvent _ .compareHash | .applyEvent _ .loadReplay | .applyEvent _ .load
  | .applyEvent _ (.update _) | .applyEvent _ (.saved _) | .applyEvent _ (.replayed _)
  | .applyEvent _ (.raised _) | .requestCancellation _ _ .start | .requestCancellation _ _ (.requested _ _)
  | .requestCancellation _ _ (.raised _) => isTrue trivial

theorem followsTable_step {p : System} (hc : ∀ c ∈ p.calls, CallInv c) {i : ℕ}
    (hG : Pool.OnCall WritesCurrent p i) : FollowsTable p.shared (p.step Call.next i).shared := by
  have hrefl : FollowsTable p.shared p.shared := ⟨fun o s h => ⟨s, h, Or.inl rfl⟩, fun o s h _ => h⟩
  cases hi : p.calls[i]? with
  | none => rw [Pool.step_of_none hi]; exact hrefl
  | some c =>
    have hG := hG c hi
    have hci := hc c (List.mem_of_getElem? hi)
    rw [Pool.step_of_some hi]
    rcases c.next_cases p.shared with ⟨h1, -, -⟩ | ⟨e, s, n, rfl, -, hsave⟩ | ⟨o, now, order, event, r, rfl, -, happ⟩
    · rw [h1]; exact hrefl
    · obtain ⟨row, f, hrow, -, hrow', hoth, -⟩ := saveEvent_ok hsave
      obtain ⟨-, hmem, hst, -⟩ := OrderExecutionState.applyEvent_ok hci.2
      refine FollowsTable.of_write n.status hoth hG ?_ (hst ▸ hmem)
      rw [statusOf, hrow', Option.map_some, savedOrder_status]
    · obtain ⟨row, hrow, hrow', hoth, -⟩ := appendEvent_ok happ
      refine FollowsTable.of_write .cancelRequested hoth hG ?_ (cancelRequested_mem hci)
      rw [statusOf, hrow']
      rfl

/-- **Statuses follow the table**: so does every step of a schedule in which every event and every cancellation is
written over the status that its call read. -/
theorem status_along_table {p : System} (hp : Started p) (l : List ℕ)
    (hG : Along (Pool.step Call.next) (Pool.OnCall WritesCurrent) p l) :
    Along (Pool.step Call.next) (fun q i => FollowsTable q.shared (q.step Call.next i).shared) p l :=
  hG.steps (I := fun q => ∀ c ∈ q.calls, CallInv c) (fun _ i hI _ => callInv_step hI i)
    (fun _ _ hI hG => followsTable_step hI hG) fun c hc => (hp c hc).callInv

/-- A complete fill and a cancellation request on the acknowledged order. -/
def fillAndCancel : System where
  shared := acknowledgedDb
  calls := [.applyEvent ⟨report .fill (Dec.ofNat 100) (sourceId "f1"), by decide +kernel⟩ .start,
    .requestCancellation ⟨1⟩ ⟨2026, 8, 12, 9, 30, 0, 0, some 0⟩ .start]

theorem fillAndCancel_started : Started fillAndCancel := by
  intro c hc
  simp only [fillAndCancel, List.mem_cons, List.not_mem_nil, or_false] at hc
  rcases hc with rfl | rfl <;> trivial

theorem status_along_table_cancelled_first :
    Along (Pool.step Call.next) (fun q i => FollowsTable q.shared (q.step Call.next i).shared) fillAndCancel
      [1, 1, 0, 0, 0, 0] :=
  status_along_table fillAndCancel_started _ (by decide +kernel)

/-- The cancellation checks the status, the fill commits, the cancellation writes: `CANCEL_REQUESTED` over
`FILLED`. -/
theorem cancelled_over_filled : ¬ ∀ p : System, Started p → ∀ l : List ℕ,
    Along (Pool.step Call.next) (fun q i => FollowsTable q.shared (q.step Call.next i).shared) p l := by
  intro h
  have hs := (h fillAndCancel fillAndCancel_started [1, 0, 0, 0, 0, 1]).at_step [1, 0, 0, 0, 0]
  have ht := hs.terminal ⟨1⟩ .filled (by decide +kernel) (by decide)
  revert ht
  decide +kernel

end AlphaAlgo.Execution
