import AlphaAlgo.Execution.OrderRuns
import AlphaAlgo.Execution.Repository

/-!
# Engine — the durable `apply_event`

`applyEvent` is `ExecutionEngine.apply_event` over the SQL repository: look up the identity, resolve a replay, or
load the order, apply the event to the pure state and save it.

* `outcome`: replayed, refused as a conflicting replay, refused, or saved.
* `durable_refines_pure`: the stored status and filled quantity are those of the pure state folded over the saved
  events, as long as the fills are whole numbers (`save_event` truncates the filled quantity).
-/

namespace AlphaAlgo.Execution

open Runs

/-- What the execution engine raises: its own errors, and what passes through it. -/
inductive ExecutionError where
  | validation (text : String)
  | order (err : OrderError)
  | db (err : DbError)
  | typeError
  | adapter
deriving DecidableEq, Repr

/-- `ExecutionEngine.apply_event` with a repository. -/
def applyEvent (db : OrderDb) (e : BrokerOrderEvent) : Except ExecutionError (OrderExecutionState × OrderDb) :=
  let ident := computeEventIdentity e.toEventFields
  if hasEvent db ident then
    let storedHash := getEventHash db ident
    if storedHash.isSome && storedHash ≠ some (.str (eventContentHash e.toEventFields)) then
      .error (.validation "event identity conflict: same identity, different payload")
    else match loadExecutionState db e.orderId with
      | .error err => .error (.db err)
      | .ok none => .error (.validation ("order not found: " ++ e.orderId.str))
      | .ok (some s) => .ok (s, db)
  else match loadExecutionState db e.orderId with
    | .error err => .error (.db err)
    | .ok none => .error (.validation ("order not found: " ++ e.orderId.str))
    | .ok (some s) =>
      match s.applyEvent e with
      | .error err => .error (.order err)
      | .ok next =>
        match saveEvent db e.orderId e next ident with
        | .error err => .error (.db err)
        | .ok db' => .ok (next, db')

/-- What becomes of an event. -/
inductive Outcome where
  | replayed
  | replayRefused
  | refused
  | saved
deriving DecidableEq, Repr

def outcome (db : OrderDb) (e : BrokerOrderEvent) : Outcome :=
  match hasEvent db (computeEventIdentity e.toEventFields), applyEvent db e with
  | true, .ok _ => .replayed
  | true, .error _ => .replayRefused
  | false, .ok _ => .saved
  | false, .error _ => .refused

/-- One call; a call that raises changes nothing. -/
def deliver (db : OrderDb) (e : BrokerOrderEvent) : OrderDb :=
  match applyEvent db e with
  | .ok (_, db') => db'
  | .error _ => db

/-- **The steps of a saved event.** -/
theorem outcome_saved {db : OrderDb} {e : BrokerOrderEvent} (h : outcome db e = .saved) :
    ∃ s next, loadExecutionState db e.orderId = .ok (some s) ∧ s.applyEvent e = .ok next ∧
      saveEvent db e.orderId e next (computeEventIdentity e.toEventFields) =
        .ok (deliver db e) := by
  unfold outcome at h
  cases hh : hasEvent db (computeEventIdentity e.toEventFields) with
  | true => rw [hh] at h; cases ha : applyEvent db e <;> rw [ha] at h <;> cases h
  | false =>
    rw [hh] at h
    unfold deliver
    unfold applyEvent at h ⊢
    simp only [hh] at h ⊢
    cases hl : loadExecutionState db e.orderId with
    | error err => rw [hl] at h; cases h
    | ok o =>
      cases o with
      | none => rw [hl] at h; cases h
      | some s =>
        rw [hl] at h
        cases hn : s.applyEvent e with
        | error err => simp only [hn] at h; cases h
        | ok next =>
          simp only [hn] at h
          cases hs : saveEvent db e.orderId e next (computeEventIdentity e.toEventFields) with
          | error err => simp only [hs] at h; cases h
          | ok db' => exact ⟨s, next, rfl, hn, by simp [hn, hs]⟩

/-- Any other outcome leaves the database. -/
theorem deliver_of_not_saved {db : OrderDb} {e : BrokerOrderEvent} (h : outcome db e ≠ .saved) :
    deliver db e = db := by
  unfold outcome at h
  unfold deliver
  cases hh : hasEvent db (computeEventIdentity e.toEventFields) with
  | false =>
    rw [hh] at h
    cases ha : applyEvent db e with
    | error err => rfl
    | ok r => rw [ha] at h; exact absurd rfl h
  | true =>
    unfold applyEvent
    simp only [hh, if_true]
    split_ifs
    · rfl
    · cases hl : loadExecutionState db e.orderId with
      | error err => rfl
      | ok o => cases o <;> rfl

/-! ### Whole fills -/

/-- The event's quantity is a whole number. -/
def WholeFill (e : BrokerOrderEvent) : Prop := ∃ n : ℕ, e.fillQuantity.val = n

instance (e : BrokerOrderEvent) : Decidable (WholeFill e) :=
  decidable_of_iff (e.fillQuantity.val = e.fillQuantity.val.num.toNat)
    ⟨fun h => ⟨_, h⟩, fun ⟨n, hn⟩ => by rw [hn]; simp⟩

/-- A whole fill that the state machine accepts is added exactly, up to 28-digit order quantities. -/
theorem applyEvent_whole {s s' : OrderExecutionState} {e : BrokerOrderEvent} (h : s.applyEvent e = .ok s')
    (hw : WholeFill e) (hf : ∃ k : ℕ, s.filledQuantity = k) (hq : s.orderQuantity < 10 ^ 28) :
    s'.filledQuantity = s.filledQuantity + e.fillQuantity.val := by
  obtain ⟨-, -, -, -, hoq, hfa, -, -, -⟩ := OrderExecutionState.applyEvent_ok h
  obtain ⟨n, hn⟩ := hw
  obtain ⟨k, hk⟩ := hf
  cases ht : e.eventType.isFill with
  | false => rw [hfa, OrderExecutionState.filledAfter, ht, e.valid.zero ht, add_zero]; rfl
  | true =>
    have hle := s'.filled_le
    rw [hoq, hfa, OrderExecutionState.filledAfter, if_pos ht, OrderExecutionState.nextFilled, hk, hn] at hle
    have hsum : (k : ℚ) + n = ((k + n : ℕ) : ℚ) := by push_cast; rfl
    rw [hsum] at hle
    have hfix := Ctx.fix_natCast_of_lt (p := 28) (n := k + n) (by norm_num) (lt_of_le_of_lt hle hq)
    rw [hfa, OrderExecutionState.filledAfter, if_pos ht, OrderExecutionState.nextFilled, hk, hn, hsum]
    exact hfix

/-- An `INTEGER` quantity is far below 28 digits. -/
theorem Int4.lt_digits (i : Int4) : (i.val : ℚ) < 10 ^ 28 := by
  have : i.val < 10 ^ 28 := lt_of_le_of_lt i.range.2 (by norm_num)
  exact_mod_cast this

/-- The filled quantity stored for an order. -/
def filledOf (db : OrderDb) (o : UUID) : ℤ :=
  match db.orders.get o with
  | some row => row.filled
  | none => 0

/-- **The write of a whole fill**: the event `e`, applied to a state that has the row's filled quantity and saved,
adds its quantity to the row's filled quantity and stores the status of the new state. -/
theorem saveEvent_whole {db db' : OrderDb} {e : BrokerOrderEvent} {s next : OrderExecutionState} {ident : String}
    {row : Order} (hrow : db.orders.get e.orderId = some row) (hs : s.filledQuantity = row.filled)
    (hq : s.orderQuantity < 10 ^ 28) (hn : s.applyEvent e = .ok next) (hw : WholeFill e)
    (hsave : saveEvent db e.orderId e next ident = .ok db') :
    ∃ row', db'.orders.get e.orderId = some row' ∧ row'.status = next.status ∧ row'.quantity = row.quantity ∧
      (row'.filled : ℚ) = next.filledQuantity ∧ next.filledQuantity = row.filled + e.fillQuantity.val := by
  obtain ⟨o, f, ho, hfv, hget, -, -⟩ := saveEvent_ok hsave
  rw [hrow] at ho
  cases ho
  have hk : ∃ k : ℕ, s.filledQuantity = k := by
    have h0 := s.filled_nonneg
    rw [hs] at h0
    have h0' : 0 ≤ row.filled := by exact_mod_cast h0
    refine ⟨row.filled.toNat, ?_⟩
    rw [hs]
    have := Int.toNat_of_nonneg h0'
    exact_mod_cast this.symm
  have hadd := applyEvent_whole hn hw hk hq
  obtain ⟨k, hk⟩ := hk
  obtain ⟨n, hnn⟩ := hw
  have hnext : next.filledQuantity = ((k + n : ℕ) : ℚ) := by rw [hadd, hk, hnn]; push_cast; rfl
  refine ⟨_, hget, savedOrder_status _ _ _ _, savedOrder_quantity _ _ _ _, ?_, by rw [hadd, hs]⟩
  rw [savedOrder_filled, hfv, hnext, pyInt_natCast]
  norm_cast

/-- A saved whole fill moves the stored filled quantity of its order by its quantity, and no other order. -/
theorem filledOf_deliver {db : OrderDb} {e : BrokerOrderEvent} (hw : WholeFill e)
    (h : outcome db e = .saved) :
    (filledOf (deliver db e) e.orderId : ℚ) = filledOf db e.orderId + e.fillQuantity.val := by
  obtain ⟨s, next, hl, hn, hsave⟩ := outcome_saved h
  obtain ⟨row, hrow, -, -, hq, hf, -⟩ := loadExecutionState_some hl
  obtain ⟨row', hrow', -, -, h1, h2⟩ := saveEvent_whole hrow hf (hq ▸ Int4.lt_digits _) hn hw hsave
  unfold filledOf
  rw [hrow, hrow']
  exact h1.trans h2

/-! ### The stored state refines the pure one -/

/-- The saved events of order `o`, in order. -/
def acceptedEvents (o : UUID) : OrderDb → List BrokerOrderEvent → List BrokerOrderEvent
  | _, [] => []
  | db, e :: l =>
    if outcome db e = .saved ∧ e.orderId = o then e :: acceptedEvents o (deliver db e) l
    else acceptedEvents o (deliver db e) l

/-- The row of `o` stores the order of the state `s`. -/
def Stores (db : OrderDb) (o : UUID) (s : OrderExecutionState) : Prop :=
  s.lifecycle.orderId = o ∧ ∃ row, db.orders.get o = some row ∧ row.status = s.status ∧
    (row.quantity.val : ℚ) = s.orderQuantity ∧ (row.filled : ℚ) = s.filledQuantity

/-- After the events the row stores the pure state folded over the saved events. -/
def RefinesPure (o : UUID) (db : OrderDb) (s : OrderExecutionState) (events : List BrokerOrderEvent) : Prop :=
  ∃ s', (acceptedEvents o db events).foldlM OrderExecutionState.applyEvent s = .ok s' ∧
    Stores (run (deliver) db events) o s'

/-- An event of another order, or one that is not saved, leaves the row. -/
theorem Stores.deliver_other {db : OrderDb} {o : UUID} {s : OrderExecutionState} {e : BrokerOrderEvent}
    (h : Stores db o s) (he : ¬ (outcome db e = .saved ∧ e.orderId = o)) :
    Stores (deliver db e) o s := by
  by_cases hs : outcome db e = .saved
  · obtain ⟨_, _, -, -, hsave⟩ := outcome_saved hs
    obtain ⟨-, -, -, -, -, hoth, -⟩ := saveEvent_ok hsave
    obtain ⟨hid, row, hrow, h1⟩ := h
    exact ⟨hid, row, by rw [hoth o (fun h => he ⟨hs, h.symm⟩)]; exact hrow, h1⟩
  · rw [deliver_of_not_saved hs]; exact h

/-- A saved whole event takes the row from the pure state to its successor. -/
theorem Stores.deliver_saved {db : OrderDb} {s : OrderExecutionState} {e : BrokerOrderEvent}
    (h : Stores db e.orderId s) (hs : outcome db e = .saved) (hw : WholeFill e) :
    ∃ s', s.applyEvent e = .ok s' ∧ Stores (deliver db e) e.orderId s' := by
  obtain ⟨d, next, hl, hn, hsave⟩ := outcome_saved hs
  obtain ⟨hid, row, hrow, hst, hq, hf⟩ := h
  obtain ⟨row0, hrow0, d1, d2, d3, d4, -⟩ := loadExecutionState_some hl
  rw [hrow] at hrow0
  cases hrow0
  have hagree : d.Agree s := ⟨d1.trans hid.symm, d2.trans hst, d3.trans hq, d4.trans hf⟩
  obtain ⟨s', hs', ha⟩ := hagree.applyEvent hn
  obtain ⟨row', hrow', r1, r2, r3, -⟩ := saveEvent_whole hrow d4 (d3 ▸ Int4.lt_digits _) hn hw hsave
  obtain ⟨-, -, -, k4, k5, -⟩ := OrderExecutionState.applyEvent_ok hs'
  refine ⟨s', hs', k4.trans hid, row', hrow', r1.trans ha.status, ?_, r3.trans ha.filledQuantity⟩
  rw [r2, hq, k5]

/-- The condition on a step: an event that is saved for `o` has a whole quantity. -/
def SavesWhole (o : UUID) (db : OrderDb) (e : BrokerOrderEvent) : Prop :=
  outcome db e = .saved → e.orderId = o → WholeFill e

instance (o : UUID) (db : OrderDb) (e : BrokerOrderEvent) : Decidable (SavesWhole o db e) :=
  inferInstanceAs (Decidable (_ → _ → _))

theorem refinesPure_of_stores {o : UUID} : ∀ (events : List BrokerOrderEvent) {db : OrderDb}
    {s : OrderExecutionState}, Stores db o s → Along deliver (SavesWhole o) db events →
    RefinesPure o db s events
  | [], _, s, h, _ => ⟨s, rfl, h⟩
  | e :: l, db, s, h, hw => by
    by_cases he : outcome db e = .saved ∧ e.orderId = o
    · obtain ⟨hs, rfl⟩ := he
      obtain ⟨s₁, h1, hst⟩ := h.deliver_saved hs (hw.1 hs rfl)
      obtain ⟨s', h2, h3⟩ := refinesPure_of_stores l hst hw.2
      refine ⟨s', ?_, h3⟩
      rw [acceptedEvents, if_pos ⟨hs, rfl⟩, List.foldlM_cons, h1]
      exact h2
    · obtain ⟨s', h2, h3⟩ := refinesPure_of_stores l (h.deliver_other he) hw.2
      refine ⟨s', ?_, h3⟩
      rw [acceptedEvents, if_neg he]
      exact h2

/-- **The durable engine refines the pure state machine on whole fills**: started from the state the order loads
as, after each of the events the row holds status and filled quantity of the pure state folded over the saved
events. -/
theorem durable_refines_pure {o : UUID} {db : OrderDb} {s : OrderExecutionState}
    (hl : loadExecutionState db o = .ok (some s)) (events : List BrokerOrderEvent)
    (hw : Along deliver (SavesWhole o) db events) : ∀ l, l <+: events → RefinesPure o db s l := by
  rintro l ⟨r, rfl⟩
  obtain ⟨row, hrow, h1, h2, h3, h4, -⟩ := loadExecutionState_some hl
  exact refinesPure_of_stores l ⟨h1, row, hrow, h2.symm, h3.symm, h4.symm⟩ ((along_append _ _ _ _ _).mp hw).1

theorem hundred_range : -2147483648 ≤ (100 : ℤ) ∧ (100 : ℤ) ≤ 2147483647 := by decide

/-- A database with one order of quantity 100, acknowledged by the broker. -/
def acknowledgedDb : OrderDb where
  orders :=
    { rows := [{ id := ⟨1⟩, clientOrderId := "c1", quantity := ⟨100, hundred_range⟩, status := .brokerAcknowledged }]
      unique := by decide }
  events := Table.empty

/-- The fields of an event on that order. -/
def report (t : OrderEventType) (q : Dec) (metadata : List (String × Scalar)) : EventFields where
  orderId := ⟨1⟩
  eventType := t
  occurredAt := ⟨2026, 8, 12, 9, 30, 0, 0, some 0⟩
  reason := "broker report"
  fillQuantity := q
  metadata := metadata

/-- The metadata of an event with an id. -/
def sourceId (id : String) : List (String × Scalar) := [("source_event_id", .str id)]

/-- A partial fill of 30. -/
def partialFill30 (metadata : List (String × Scalar)) : BrokerOrderEvent where
  toEventFields := report .partialFill (Dec.ofNat 30) metadata
  valid :=
    have h : (report .partialFill (Dec.ofNat 30) []).Valid := by decide +kernel
    ⟨h.stamp, h.pos, h.zero⟩

/-- The rest is filled. -/
def fill40 (metadata : List (String × Scalar)) : BrokerOrderEvent where
  toEventFields := report .fill (Dec.ofNat 40) metadata
  valid :=
    have h : (report .fill (Dec.ofNat 40) []).Valid := by decide +kernel
    ⟨h.stamp, h.pos, h.zero⟩

/-- Three fills, the first of them delivered twice. -/
def deliveries : List BrokerOrderEvent :=
  [partialFill30 (sourceId "f1"), partialFill30 (sourceId "f1"), partialFill30 (sourceId "f2"), fill40 (sourceId "f3")]

theorem durable_refines_pure_deliveries :
    RefinesPure ⟨1⟩ acknowledgedDb (OrderExecutionState.acknowledgedOrder 100 (by decide)) deliveries :=
  durable_refines_pure (by decide +kernel) _ (by decide +kernel) _ List.prefix_rfl

/-- A fill of one half is stored as zero. -/
theorem not_refinesPure_half : ¬ ∀ (o : UUID) (db : OrderDb) (s : OrderExecutionState),
    loadExecutionState db o = .ok (some s) → ∀ events, RefinesPure o db s events := by
  intro h
  obtain ⟨s', h1, -, row, hrow, -, -, hf⟩ := h ⟨1⟩ acknowledgedDb
    (OrderExecutionState.acknowledgedOrder 100 (by decide)) (by decide +kernel)
    [⟨report .partialFill ⟨false, 5, -1⟩ (sourceId "f1"), by decide +kernel⟩]
  have h2 : s'.filledQuantity = filledOf (run deliver acknowledgedDb
      [⟨report .partialFill ⟨false, 5, -1⟩ (sourceId "f1"), by decide +kernel⟩]) ⟨1⟩ := by
    unfold filledOf
    rw [hrow]
    exact hf.symm
  have h3 := congrArg (fun r => r.toOption.map OrderExecutionState.filledQuantity) h1
  simp only [Except.toOption, Option.map_some, h2] at h3
  exact absurd h3 (by decide +kernel)

end AlphaAlgo.Execution
