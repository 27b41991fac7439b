import Mathlib.Logic.Relation
import Mathlib.Data.List.Chain
import AlphaAlgo.Execution.Agreement
import AlphaAlgo.Oms.CreateRuns

/-!
# Trail — the events of an order as its history

Order creation, the order management's later events and the execution engine all append to `order_events`, each with
a row of its own making.  Every operation is a sequence of `Write`s, a write is one committed transaction.

* `History`: rows that begin with the creation and follow the transition table, with the status they lead to.
* `writes_apply`: every operation, a creation that dies half-way included, is a sequence of writes.
* `order_trail_faithful`: after any run of operations the rows of an order are its history.  Rows of the execution
  engine have the event type in place of the previous status, so the link to the row before is one of the order
  management's rows only.
-/

namespace AlphaAlgo.Oms

open Execution Runs Relation

/-! ### Histories -/

/-- The events of an order, in the order they were committed. -/
def trailOf (db : OrderDb) (o : UUID) : List OrderEvent := db.events.rows.filter fun r => r.orderId = o

/-- A row of the order management: the execution engine stores a content hash with its rows. -/
def omsRow (r : OrderEvent) : Bool := (r.eventPayload.lookup "_content_hash").isNone

/-- **The rows of an order and the status they lead to.** -/
inductive History : List OrderEvent → OrderState → Prop
  | created {r : OrderEvent} (hp : r.previousStatus = none) (hn : r.newStatus = OrderState.intentCreated.value) :
      History [r] .intentCreated
  | next {l : List OrderEvent} {s s' : OrderState} {r : OrderEvent} (h : History l s)
      (hm : s' ∈ allowedTransitions s) (hn : r.newStatus = s'.value)
      (hp : omsRow r = true → r.previousStatus = some s.value) : History (l ++ [r]) s'

def orderStates : List OrderState :=
  [.intentCreated, .internalOrderCreated, .submissionRequested, .brokerAcknowledged, .partiallyFilled, .filled,
    .rejected, .cancelRequested, .cancelled, .unknown, .reconciliationRequired]

/-- `OrderState(text)`. -/
def orderState? (text : String) : Option OrderState := orderStates.find? fun s => s.value = text

theorem orderState?_value (s : OrderState) : orderState? s.value = some s := by
  cases s <;> decide

/-- Take a row's new status, if the transition table has the edge. -/
def replayRow (s : OrderState) (r : OrderEvent) : Option OrderState :=
  (orderState? r.newStatus).filter fun s' => s' ∈ allowedTransitions s

/-- Replay rows from a status. -/
def replay (s : OrderState) (l : List OrderEvent) : Option OrderState := l.foldlM replayRow s

/-- The last row has the status. -/
theorem History.last {l : List OrderEvent} {s : OrderState} (h : History l s) :
    ∀ r ∈ l.getLast?, r.newStatus = s.value := by
  intro r hr
  cases h with
  | created hp hn =>
    cases hr
    exact hn
  | next h hm hn hp =>
    rw [List.getLast?_concat] at hr
    cases hr
    exact hn

/-- A history begins with the creation, and replaying what follows leads to its status. -/
theorem History.replay {l : List OrderEvent} {s : OrderState} (h : History l s) :
    ∃ first rest, l = first :: rest ∧ first.previousStatus = none ∧ first.newStatus = "INTENT_CREATED" ∧
      Oms.replay .intentCreated rest = some s := by
  induction h with
  | created hp hn => exact ⟨_, [], rfl, hp, hn, rfl⟩
  | @next l s s' r h hm hn hp ih =>
    obtain ⟨first, rest, rfl, h1, h2, h3⟩ := ih
    refine ⟨first, rest ++ [r], rfl, h1, h2, ?_⟩
    have hrow : replayRow s r = some s' := by
      simp only [replayRow, hn, orderState?_value, Option.filter_some, hm, decide_true, if_true]
    unfold Oms.replay at h3 ⊢
    rw [List.foldlM_append, h3]
    simp [hrow]

/-- A row that the order management has written after another one. -/
def Linked (a b : OrderEvent) : Prop := omsRow b = true → b.previousStatus = some a.newStatus

/-- Every row of the order management names the status of the row before it. -/
theorem History.linked {l : List OrderEvent} {s : OrderState} (h : History l s) : l.IsChain Linked := by
  induction h with
  | created hp hn => exact List.isChain_singleton _
  | next h hm hn hp ih =>
    refine List.isChain_append.mpr ⟨ih, List.isChain_singleton _, fun a ha b hb => ?_⟩
    cases hb
    intro homs
    rw [hp homs, h.last a ha]

/-- The order is not there and has no rows, or its rows are its history. -/
def Recorded (db : OrderDb) (o : UUID) : Prop :=
  match db.orders.get o with
  | none => trailOf db o = []
  | some row => History (trailOf db o) row.status

/-! ### Writes -/

/-- **A committed transaction on the orders and their events**, by its writer. -/
inductive Write (db : OrderDb) : OrderDb → Prop
  | created {spec : OrderSpec} {identity : OrderIdentity} {env : CreateEnv} {db' : OrderDb}
      (h : insertRow db spec identity env = .ok db') : Write db db'
  | appended {orderId : UUID} {event : OrderEvent} {newStatus : OrderState} {row : Order} {db' : OrderDb}
      (hrow : db.orders.get orderId = some row) (hm : newStatus ∈ allowedTransitions row.status)
      (hp : event.previousStatus = some row.status.value) (hn : event.newStatus = newStatus.value)
      (h : appendEvent db orderId event newStatus = .ok db') : Write db db'
  | saved {e : BrokerOrderEvent} (h : outcome db e = .saved) : Write db (deliver db e)

/-- The rows of an order after a row was added. -/
theorem trailOf_insert {db db' : OrderDb} {r : OrderEvent} (h : db.events.insert? r = some db'.events) (o : UUID) :
    trailOf db' o = if r.orderId = o then trailOf db o ++ [r] else trailOf db o := by
  unfold trailOf
  rw [(Table.insert?_eq_some h).2, List.filter_append]
  split_ifs with ho
  · simp [ho]
  · simp [ho]

/-- The rows of the execution engine carry a hash. -/
theorem omsRow_savedEvent (orderId : UUID) (e : BrokerOrderEvent) (s : OrderExecutionState) (ident : String) :
    omsRow (savedEvent orderId e s ident) = false := by
  have hlookup : ∀ (l : List (String × Scalar)) (x : Scalar),
      ((l ++ [("_content_hash", x)]).lookup "_content_hash").isNone = false := by
    intro l x
    induction l with
    | nil => rfl
    | cons kv l ih =>
      rw [List.cons_append, List.lookup]
      split
      · rfl
      · exact ih
  exact hlookup _ _

/-- What a saved event writes. -/
theorem deliver_saved {db : OrderDb} {e : BrokerOrderEvent} (h : outcome db e = .saved) :
    ∃ row row' next, db.orders.get e.orderId = some row ∧ (deliver db e).orders.get e.orderId = some row' ∧
      (∀ k, k ≠ e.orderId → (deliver db e).orders.get k = db.orders.get k) ∧
      e.eventType.target ∈ allowedTransitions row.status ∧ row'.status = e.eventType.target ∧
      next.status = e.eventType.target ∧ db.events.insert?
        (savedEvent e.orderId e next (computeEventIdentity e.toEventFields)) = some (deliver db e).events := by
  obtain ⟨s, next, hl, hn, hsave⟩ := outcome_saved h
  obtain ⟨row, hrow, -, hst, -⟩ := loadExecutionState_some hl
  obtain ⟨-, hmem, hnst, -⟩ := OrderExecutionState.applyEvent_ok hn
  obtain ⟨o, f, ho, -, hget, hoth, hi⟩ := saveEvent_ok hsave
  rw [hrow] at ho
  cases ho
  exact ⟨row, _, next, hrow, hget, hoth, hst ▸ hmem, by rw [savedOrder_status, hnst], hnst, hi⟩

/-- **A write keeps the rows of every order its history.** -/
theorem Write.recorded {db db' : OrderDb} (h : Write db db') {o : UUID} (hr : Recorded db o) : Recorded db' o := by
  unfold Recorded at hr ⊢
  cases h with
  | @created spec identity env _ h =>
    unfold insertRow at h
    cases hq : Int4.of? spec.quantity with
    | none => rw [hq] at h; cases h
    | some q =>
      rw [hq] at h
      obtain ⟨-, -, hi, he⟩ := insertOrder_ok h
      by_cases ho : identity.internalOrderId = o
      · have hnone : db.orders.get o = none := by
          rw [← ho]
          exact (Table.insert?_eq_some hi).1
        have htrail := (trailOf_insert he o).trans (if_pos ho)
        rw [hnone] at hr
        rw [(Table.get_of_insert hi o).trans (if_pos ho), htrail, hr]
        exact .created rfl rfl
      · have htrail := (trailOf_insert he o).trans (if_neg ho)
        rw [(Table.get_of_insert hi o).trans (if_neg ho), htrail]
        exact hr
  | @appended orderId event newStatus row _ hrow hm hp hn h =>
    obtain ⟨row', hrow', hget, hoth, he⟩ := appendEvent_ok h
    rw [hrow] at hrow'
    cases hrow'
    by_cases ho : orderId = o
    · subst ho
      have htrail := (trailOf_insert he orderId).trans (if_pos rfl)
      rw [hrow] at hr
      rw [hget, htrail]
      exact .next hr hm hn fun _ => hp
    · have htrail := (trailOf_insert he o).trans (if_neg ho)
      rw [hoth o (Ne.symm ho), htrail]
      exact hr
  | @saved e h =>
    obtain ⟨row, row', next, hrow, hrow', hoth, hm, hst, hnst, he⟩ := deliver_saved h
    by_cases ho : e.orderId = o
    · subst ho
      have htrail := (trailOf_insert he e.orderId).trans (if_pos rfl)
      rw [hrow] at hr
      rw [hrow', htrail]
      simp only [hst]
      refine .next hr hm ?_ fun homs => ?_
      · rw [savedEvent, hnst]
      · rw [omsRow_savedEvent] at homs
        cases homs
    · have htrail := (trailOf_insert he o).trans (if_neg ho)
      rw [hoth o (Ne.symm ho), htrail]
      exact hr

theorem recorded_of_writes {db db' : OrderDb} (h : ReflTransGen Write db db') {o : UUID} (hr : Recorded db o) :
    Recorded db' o := by
  induction h with
  | refl => exact hr
  | tail _ hw ih => exact hw.recorded ih

/-! ### Operations -/

/-- The operations on orders: creation taken as far as some step, cancellation requests, broker events, and the
dispatch and cancellation at the broker. -/
inductive Operation where
  | create (intent : TradingIntent) (env : CreateEnv) (steps : ℕ)
  | requestCancellation (orderId : UUID) (now : DateTime)
  | applyEvent (e : BrokerOrderEvent)
  | submit (env : EngineEnv) (req : ExecutionRequest) (replies : ℕ → Reply)
  | cancel (env : EngineEnv) (orderId : UUID) (reply : Option ExecutionResponse)

/-- The database after an operation. -/
def Operation.apply (db : ExecDb) : Operation → ExecDb
  | .create intent env steps => { db with toOrderDb := (createSteps intent env steps db.toOrderDb).1 }
  | .requestCancellation orderId now =>
    match Oms.requestCancellation db.toOrderDb orderId now with
    | .ok (_, orders) => { db with toOrderDb := orders }
    | .error _ => db
  | .applyEvent e => { db with toOrderDb := deliver db.toOrderDb e }
  | .submit env req replies => (Execution.submit env req { reply := replies } db).db
  | .cancel env orderId reply => { db with toOrderDb := (Execution.cancel env orderId reply db.toOrderDb).1 }

/-- Between the transactions of a creation the order has the status that its next event names. -/
def AtStatus (db : OrderDb) : CreatePc → Prop
  | .internal _ identity => ∃ row, db.orders.get identity.internalOrderId = some row ∧ row.status = .intentCreated
  | .submission _ identity =>
    ∃ row, db.orders.get identity.internalOrderId = some row ∧ row.status = .internalOrderCreated
  | _ => True

/-- One step of a creation. -/
theorem CreateStep.write {db db' : OrderDb} {intent : TradingIntent} {env : CreateEnv} {pc pc' : CreatePc}
    (h : CreateStep db intent env pc db' pc') (hat : AtStatus db pc) :
    (db' = db ∨ Write db db') ∧ AtStatus db' pc' := by
  -- the answer to a stored order touches nothing
  have hresolved : ∀ existing identity, AtStatus db (resolved existing identity) := by
    intro existing identity
    unfold resolved
    split <;> trivial
  cases h with
  | refused h => exact ⟨Or.inl rfl, trivial⟩
  | validated h => exact ⟨Or.inl rfl, trivial⟩
  | findFailed h => exact ⟨Or.inl rfl, trivial⟩
  | found h => exact ⟨Or.inl rfl, hresolved _ _⟩
  | missing h => exact ⟨Or.inl rfl, trivial⟩
  | checkFailed h => exact ⟨Or.inl rfl, trivial⟩
  | taken h => exact ⟨Or.inl rfl, trivial⟩
  | free h => exact ⟨Or.inl rfl, trivial⟩
  | violated h => exact ⟨Or.inl rfl, trivial⟩
  | insertFailed h => exact ⟨Or.inl rfl, trivial⟩
  | rereadFailed h => exact ⟨Or.inl rfl, trivial⟩
  | reread => exact ⟨Or.inl rfl, trivial⟩
  | resolveFailed h => exact ⟨Or.inl rfl, trivial⟩
  | resolve => exact ⟨Or.inl rfl, hresolved _ _⟩
  | internalFailed => exact ⟨Or.inl rfl, trivial⟩
  | submissionFailed => exact ⟨Or.inl rfl, trivial⟩
  | ended h => exact ⟨Or.inl rfl, hat⟩
  | @inserted spec identity _ _ h hpc =>
    refine ⟨Or.inr (.created h), ?_⟩
    rcases hpc with rfl | ⟨err, rfl⟩
    · obtain ⟨q, -, hrows, -, hnone, -⟩ := insertRow_ok h
      have hget : db'.orders.get identity.internalOrderId = some (toOrmOrder spec identity q) := by
        refine Table.get_eq_some_iff.mpr ⟨?_, rfl⟩
        rw [hrows]
        exact List.mem_append_right _ (List.mem_singleton.mpr rfl)
      exact ⟨_, hget, rfl⟩
    · trivial
  | @internal spec identity _ _ h hpc =>
    obtain ⟨row, hrow, hst⟩ := hat
    obtain ⟨row', hrow', hget, -⟩ := appendEvent_ok h
    refine ⟨Or.inr (.appended hrow ?_ ?_ rfl h), ?_⟩
    · rw [hst]; decide
    · rw [hst]; rfl
    · rcases hpc with rfl | ⟨err, rfl⟩
      · exact ⟨_, hget, rfl⟩
      · trivial
  | @submission spec identity _ _ h hpc =>
    obtain ⟨row, hrow, hst⟩ := hat
    refine ⟨Or.inr (.appended hrow ?_ ?_ rfl h), ?_⟩
    · rw [hst]; decide
    · rw [hst]; rfl
    · rcases hpc with rfl | ⟨err, rfl⟩ <;> trivial

theorem writes_createSteps (intent : TradingIntent) (env : CreateEnv) (db : OrderDb) (n : ℕ) :
    ReflTransGen Write db (createSteps intent env n db).1 ∧
      AtStatus (createSteps intent env n db).1 (createSteps intent env n db).2 := by
  induction n with
  | zero => exact ⟨.refl, trivial⟩
  | succ n ih =>
    obtain ⟨hw, hat⟩ := ih
    have hstep : createSteps intent env (n + 1) db =
        nextCreate (createSteps intent env n db).1 intent env (createSteps intent env n db).2 :=
      Function.iterate_succ_apply' _ n _
    obtain ⟨h, hat'⟩ := (createStep_next (createSteps intent env n db).1 intent env
      (createSteps intent env n db).2).write hat
    rw [hstep]
    refine ⟨?_, hat'⟩
    rcases h with h | h
    · rw [h]; exact hw
    · exact hw.tail h

theorem writes_requestCancellation {db db' : OrderDb} {orderId : UUID} {now : DateTime} {r : OrderResult}
    (h : Oms.requestCancellation db orderId now = .ok (r, db')) : ReflTransGen Write db db' := by
  unfold Oms.requestCancellation at h
  cases hc : cancellationEvent (findById db orderId) orderId now with
  | error err => rw [hc] at h; cases h
  | ok x =>
    obtain ⟨order, event⟩ := x
    rw [hc] at h
    obtain ⟨ho, hs, rfl⟩ := cancellationEvent_ok hc
    exact .single (.appended ho (cancelRequested_mem hs) rfl rfl (persistCancellation_ok h))

theorem writes_deliver (db : OrderDb) (e : BrokerOrderEvent) : ReflTransGen Write db (deliver db e) := by
  by_cases hs : outcome db e = .saved
  · exact .single (.saved hs)
  · rw [deliver_of_not_saved hs]

theorem writes_applyOrderEvent {orders orders' : OrderDb} {event : Option EventFields}
    (h : applyOrderEvent orders event = .ok orders') : ReflTransGen Write orders orders' := by
  rcases applyOrderEvent_ok_iff.mp h with ⟨f, hv, -, rfl⟩ | ⟨-, rfl⟩
  · exact writes_deliver orders ⟨f, hv⟩
  · exact .refl

theorem writes_finalize (env : EngineEnv) (req : ExecutionRequest) (n : ℕ) (db : ExecDb) (c : Conclusion) :
    ReflTransGen Write db.toOrderDb (finalize env req n db c).1.toOrderDb := by
  unfold finalize
  cases ha : applyOrderEvent db.toOrderDb c.event with
  | error err => exact .refl
  | ok orders =>
    simp only
    cases hu : updateAttempt { db with toOrderDb := orders } (computeAttemptId req.executionId n) c.state
        c.brokerOrderId env.respondedAt c.reason with
    | error err => exact writes_applyOrderEvent ha
    | ok db' =>
      simp only
      rw [(updateAttempt_other hu).1]
      exact writes_applyOrderEvent ha

theorem writes_submitAttempt (env : EngineEnv) (req : ExecutionRequest) (replies : ℕ → Reply) (retries n : ℕ)
    (db : ExecDb) : ReflTransGen Write db.toOrderDb
      (submitAttempt env req { reply := replies } retries n db).db.toOrderDb := by
  induction retries using Nat.strong_induction_on generalizing n db with
  | _ retries ih =>
    cases hs : saveAttempt db (newAttempt env req n) with
    | error err => rw [submitAttempt_refused hs]
    | ok db₁ =>
      have hsame : db₁.toOrderDb = db.toOrderDb := (saveAttempt_ok hs).2.2.1
      by_cases ht : retries = 0 ∨ (replies n).isTransient = false
      · have ht' : retries = 0 ∨ (({ reply := replies } : Adapter).reply n).isTransient = false := ht
        rw [submitAttempt_last hs ht', ← hsame]
        cases concludeReply env req (replies n) with
        | none => exact .refl
        | some c => exact writes_finalize env req n db₁ c
      · push Not at ht
        obtain ⟨m, rfl⟩ := Nat.exists_eq_succ_of_ne_zero ht.1
        have ht' : (({ reply := replies } : Adapter).reply n).isTransient = true := by simpa using ht.2
        rw [submitAttempt_retry hs ht', ← hsame]
        exact ih m (Nat.lt_succ_self m) (n + 1) db₁

/-- **Every operation is a sequence of writes.** -/
theorem writes_apply (db : ExecDb) (op : Operation) :
    ReflTransGen Write db.toOrderDb (op.apply db).toOrderDb := by
  cases op with
  | create intent env steps => exact (writes_createSteps intent env db.toOrderDb steps).1
  | requestCancellation orderId now =>
    cases h : Oms.requestCancellation db.toOrderDb orderId now with
    | error err => simp only [Operation.apply, h]; exact .refl
    | ok x => simp only [Operation.apply, h]; exact writes_requestCancellation h
  | applyEvent e => exact writes_deliver db.toOrderDb e
  | submit env req replies =>
    unfold Operation.apply Execution.submit
    simp only
    cases validateRequest env req with
    | error err => exact .refl
    | ok u =>
      simp only
      cases findAttempt db req.executionId 0 with
      | some a => exact .refl
      | none => exact writes_submitAttempt env req replies env.maxRetries 0 db
  | cancel env orderId reply =>
    unfold Operation.apply Execution.cancel
    simp only
    split_ifs
    · exact .refl
    · cases reply with
      | none => exact .refl
      | some r =>
        simp only
        cases r.status with
        | cancelled =>
          simp only
          cases ha : applyOrderEvent db.toOrderDb (some (responseEvent orderId .cancelled r)) with
          | error err => exact .refl
          | ok orders => exact writes_applyOrderEvent ha
        | submissionRequested | submissionInProgress | submitted | acknowledged | timeout | rejected | unknown =>
          exact .refl

/-- **The events of an order are its history**: whatever operations run, from a database without the order, once the
order is there its rows begin with the creation in `INTENT_CREATED`, every later row of the order management names
the status of the row before it, and replaying the rows over the transition table gives the stored status. -/
theorem order_trail_faithful {db : ExecDb} {o : UUID} (hnew : db.orders.get o = none)
    (hnone : ∀ r ∈ db.events.rows, r.orderId ≠ o) (ops : List Operation) {row : Order}
    (hrow : (run Operation.apply db ops).orders.get o = some row) :
    ∃ first rest, trailOf (run Operation.apply db ops).toOrderDb o = first :: rest ∧
      first.previousStatus = none ∧ first.newStatus = "INTENT_CREATED" ∧ (first :: rest).IsChain Linked ∧
      replay .intentCreated rest = some row.status := by
  have hstart : Recorded db.toOrderDb o := by
    unfold Recorded
    rw [hnew]
    exact List.filter_eq_nil_iff.mpr fun r hr h => hnone r hr (by simpa using h)
  have hend := run_invariant Operation.apply (fun d => Recorded d.toOrderDb o)
    (fun d op h => recorded_of_writes (writes_apply d op) h) hstart ops
  unfold Recorded at hend
  rw [hrow] at hend
  obtain ⟨first, rest, htrail, h1, h2, h3⟩ := History.replay hend
  have hlinked := History.linked hend
  rw [htrail] at hlinked
  exact ⟨first, rest, htrail, h1, h2, hlinked, h3⟩

/-! ### A creation that dies, then a rejection -/

/-- A row with a new id is appended to a stored order. -/
theorem appendEvent_of_new {db : OrderDb} {orderId : UUID} (event : OrderEvent) (newStatus : OrderState) {o : Order}
    (ho : db.orders.get orderId = some o) (hf : eventFits { event with orderId := orderId } = true)
    (hn : db.events.get event.sourceEventId = none) : ∃ db', appendEvent db orderId event newStatus = .ok db' := by
  obtain ⟨events, he⟩ := Table.insert?_of_get_none (t := db.events) (r := { event with orderId := orderId }) hn
  unfold appendEvent
  simp only [ho, hf, he, Bool.not_true, Bool.false_eq_true, if_false]
  exact ⟨_, rfl⟩

/-- The database of a creation that dies after its first appended event. -/
theorem createSteps_internal {db db₁ db₂ : OrderDb} {intent : TradingIntent} (env : CreateEnv) {spec : OrderSpec}
    (hv : validateIntent intent env.validatedAt env.globalHaltActive = .ok spec) (hf : env.findFails = false)
    (hc : env.checkFails = false) (hi : env.insertFault = .none) (ha : env.internalFault = .none)
    (hn : findByOrchestrationId db spec.orchestrationId = none)
    (hins : insertRow db spec (identityOf intent env spec) env = .ok db₁)
    (haware : env.advancedAt.aware = true)
    (happ : appendEvent db₁ env.orderId (internalEvent spec env.orderId env.advancedAt) .internalOrderCreated =
      .ok db₂) : (createSteps intent env 5 db).1 = db₂ := by
  have hstamp : requireStamp env.advancedAt "internal order identity established" = .ok () :=
    requireStamp_ok_iff.mpr ⟨haware, by decide⟩
  have hafter : afterInsert spec (identityOf intent env spec) env = .internal spec (identityOf intent env spec) := by
    unfold afterInsert
    rw [OrderLifecycle.transitionTo_of_mem
      (show OrderState.internalOrderCreated ∈ allowedTransitions .intentCreated by decide) hstamp]
  have happ' : appendEvent db₁ (identityOf intent env spec).internalOrderId
      (internalEvent spec (identityOf intent env spec).internalOrderId env.advancedAt) .internalOrderCreated =
        .ok db₂ := happ
  have h1 : nextCreate db intent env .start = (db, .find spec (identityOf intent env spec)) := by
    simp only [nextCreate, hv]
  have h2 : ∀ i, nextCreate db intent env (.find spec i) = (db, .check spec i) := by
    intro i
    simp only [nextCreate, hf, hn, Bool.false_eq_true, if_false]
  have h3 : ∀ i, nextCreate db intent env (.check spec i) = (db, .insert spec i) := by
    intro i
    simp only [nextCreate, hc, hn, Bool.false_eq_true, if_false]
  have h4 : nextCreate db intent env (.insert spec (identityOf intent env spec)) =
      (db₁, .internal spec (identityOf intent env spec)) := by
    simp only [nextCreate, hi, hins, commit, hafter]
  have h5 : (nextCreate db₁ intent env (.internal spec (identityOf intent env spec))).1 = db₂ := by
    simp only [nextCreate, ha, happ', commit]
  unfold createSteps
  simp only [Function.iterate_succ_apply, Function.iterate_zero, id_eq, h1, h2, h3, h4, h5]

/-- No orders, events or attempts. -/
def emptyExecDb : ExecDb where
  toOrderDb := emptyDb
  attempts := Table.empty

theorem apply_create (db : ExecDb) (intent : TradingIntent) (env : CreateEnv) (steps : ℕ) :
    (Operation.apply db (.create intent env steps)).toOrderDb = (createSteps intent env steps db.toOrderDb).1 := rfl

theorem apply_event (db : ExecDb) (op : Operation) (e : BrokerOrderEvent) :
    (run Operation.apply db [op, .applyEvent e]).toOrderDb = deliver (op.apply db).toOrderDb e := rfl

/-- The creation of the order `⟨9⟩`, which dies after its first appended event. -/
def dyingCreation : Operation := .create (limitIntent 100) (.at ⟨9⟩ noon) 5

/-- What it leaves. -/
theorem dyingCreation_apply :
    (dyingCreation.apply emptyExecDb).orders.get ⟨9⟩ = some (withStatus .internalOrderCreated (limitOrder 100 ⟨9⟩)) ∧
    (dyingCreation.apply emptyExecDb).events.rows =
      [creationEvent (limitSpec 100) ⟨9⟩ noon, internalEvent (limitSpec 100) ⟨9⟩ noon] := by
  have hfit : orderFits (limitOrder 100 ⟨9⟩) = true := by
    rw [limitOrder, orderFits_built]
    decide +kernel
  obtain ⟨db₁, hins, hrows⟩ := insertRow_of_fresh (.at ⟨9⟩ noon) rfl hfit rfl
    (rfl : uniqueTaken emptyExecDb.toOrderDb _ = false) rfl (by decide) rfl
  obtain ⟨q, -, -, hevents, -⟩ := insertRow_ok hins
  have hget : db₁.orders.get ⟨9⟩ = some (limitOrder 100 ⟨9⟩) := by
    refine Table.get_eq_some_iff.mpr ⟨?_, rfl⟩
    rw [hrows]
    exact List.mem_singleton.mpr rfl
  have hnew : db₁.events.get "intent-1-internal" = none := by
    refine Table.get_eq_none_iff.mpr ?_
    rw [hevents]
    decide
  obtain ⟨db₂, happ⟩ := appendEvent_of_new (internalEvent (limitSpec 100) ⟨9⟩ noon) .internalOrderCreated hget (by decide)
    hnew
  have hdb : (dyingCreation.apply emptyExecDb).toOrderDb = db₂ := by
    rw [dyingCreation, apply_create]
    exact createSteps_internal (.at ⟨9⟩ noon) (validateIntent_limit 100) rfl rfl rfl rfl rfl hins rfl happ
  obtain ⟨o, ho, hget', -, hi⟩ := appendEvent_ok happ
  rw [hget] at ho
  cases ho
  rw [hdb]
  refine ⟨hget', ?_⟩
  rw [(Table.insert?_eq_some hi).2, hevents]
  rfl

/-- The broker rejects the order. -/
def lateRejection : BrokerOrderEvent where
  orderId := ⟨9⟩
  eventType := .rejected
  occurredAt := noon
  reason := "broker report"
  metadata := sourceId "f1"
  valid := by decide +kernel

theorem lateRejection_saved : outcome (dyingCreation.apply emptyExecDb).toOrderDb lateRejection = .saved := by
  obtain ⟨hget, hevents⟩ := dyingCreation_apply
  refine (outcome_saved_iff rfl).mpr ⟨?_, _, hget, ⟨by decide, by decide, by decide⟩, by decide, by decide +kernel,
    rfl, rfl, rfl⟩
  have hnone : (dyingCreation.apply emptyExecDb).events.get (computeEventIdentity lateRejection.toEventFields) = none := by
    refine Table.get_eq_none_iff.mpr ?_
    rw [hevents]
    decide +kernel
  unfold hasEvent
  rw [hnone]
  rfl

theorem order_trail_faithful_dying : ∃ first rest,
    trailOf (run Operation.apply emptyExecDb [dyingCreation]).toOrderDb ⟨9⟩ = first :: rest ∧
      first.previousStatus = none ∧ first.newStatus = "INTENT_CREATED" ∧ (first :: rest).IsChain Linked ∧
      replay .intentCreated rest = some .internalOrderCreated := by
  refine order_trail_faithful ?_ ?_ [dyingCreation] dyingCreation_apply.1
  · rfl
  · decide

/-- The first row of an order has no previous status; the row of a broker event has the event's type there. -/
theorem not_linked_rejection :
    (¬ ∀ (db : ExecDb) (o : UUID), db.orders.get o = none → (∀ r ∈ db.events.rows, r.orderId ≠ o) →
      ∀ (ops : List Operation) (row : Order), (run Operation.apply db ops).orders.get o = some row →
        ∀ r ∈ (trailOf (run Operation.apply db ops).toOrderDb o).head?, r.previousStatus = some "INTENT_CREATED") ∧
    ¬ ∀ (db : ExecDb) (o : UUID), db.orders.get o = none → (∀ r ∈ db.events.rows, r.orderId ≠ o) →
      ∀ (ops : List Operation) (row : Order), (run Operation.apply db ops).orders.get o = some row →
        (trailOf (run Operation.apply db ops).toOrderDb o).IsChain fun a b => b.previousStatus = some a.newStatus := by
  obtain ⟨hget, hevents⟩ := dyingCreation_apply
  have htrail : trailOf (dyingCreation.apply emptyExecDb).toOrderDb ⟨9⟩ =
      [creationEvent (limitSpec 100) ⟨9⟩ noon, internalEvent (limitSpec 100) ⟨9⟩ noon] := by
    unfold trailOf
    rw [hevents]
    rfl
  constructor
  · intro h
    have h1 := h emptyExecDb ⟨9⟩ rfl (by decide) [dyingCreation]
    rw [run_cons, run_nil, htrail] at h1
    have h2 := h1 _ hget _ rfl
    cases h2
  · intro h
    obtain ⟨row, row', next, -, hrow', -, -, -, -, hi⟩ := deliver_saved lateRejection_saved
    have h1 := h emptyExecDb ⟨9⟩ rfl (by decide) [dyingCreation, .applyEvent lateRejection] row'
    have h2 := (trailOf_insert hi ⟨9⟩).trans (if_pos rfl)
    rw [apply_event] at h1
    replace h1 := h1 hrow'
    rw [h2, htrail] at h1
    have h3 : some "REJECTED" = some "INTERNAL_ORDER_CREATED" :=
      (List.isChain_cons_cons.mp (List.isChain_cons_cons.mp h1).2).1
    exact absurd h3 (by decide)

end AlphaAlgo.Oms
