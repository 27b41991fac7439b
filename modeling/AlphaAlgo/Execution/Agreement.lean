import AlphaAlgo.Execution.Outcomes

/-!
# Agreement — what the engine returns about an order against the stored order

An outcome of `submit` or `cancel` may carry a state of the order.  The engine has then applied the event of the
reply, or not, and an event that is refused changes nothing.

* `outcome_saved_iff`: when an event without a fill reaches the order row.
* `outcome_agrees_iff`: when the order row agrees with the outcome, in terms of the row at the time of the reply.
-/

namespace AlphaAlgo.Execution

open Runs

/-! ### When an event reaches the order -/

/-- The commit of an event is accepted when the order is there and every constraint is met. -/
theorem saveEvent_accepts_iff {db : OrderDb} {orderId : UUID} {e : BrokerOrderEvent} {s : OrderExecutionState}
    {ident : String} : (∃ db', saveEvent db orderId e s ident = .ok db') ↔
      (db.orders.get orderId).isSome ∧ (Int4.of? (pyInt s.filledQuantity)).isSome ∧
      eventFits (savedEvent orderId e s ident) = true ∧ s.brokerOrderId.all (fits 100) = true ∧
      brokerOrderIdTaken db orderId s.brokerOrderId = false ∧ hasEvent db ident = false := by
  unfold saveEvent hasEvent
  cases ho : db.orders.get orderId with
  | none => simp
  | some o =>
    cases hf : Int4.of? (pyInt s.filledQuantity) with
    | none => simp
    | some f =>
      cases hfit : eventFits (savedEvent orderId e s ident) with
      | false => simp [hfit]
      | true =>
        cases hb : s.brokerOrderId.all (fits 100) with
        | false => simp [hfit]
        | true =>
          cases ht : brokerOrderIdTaken db orderId s.brokerOrderId with
          | true => simp [hfit]
          | false =>
            cases hi : db.events.insert? (savedEvent orderId e s ident) with
            | none =>
              have hsome : (db.events.get ident).isSome = true := Table.insert?_eq_none hi
              simp [hfit, hi, hsome]
            | some events =>
              have hnone : db.events.get ident = none := (Table.insert?_eq_some hi).1
              simp [hfit, hi, hnone]

/-- The row loads as an execution state. -/
def Loads (row : Order) : Prop := 0 < row.quantity.val ∧ 0 ≤ row.filled ∧ row.filled ≤ row.quantity.val

/-- **The event reaches the order**: it is new, the row loads and has an edge to the state it asks for, and the
columns and the broker order id's constraint admit it. -/
def Lands (d : OrderDb) (f : EventFields) : Prop :=
  hasEvent d (computeEventIdentity f) = false ∧ ∃ row, d.orders.get f.orderId = some row ∧ Loads row ∧
    f.eventType.target ∈ allowedTransitions row.status ∧ fits 150 (computeEventIdentity f) = true ∧
    f.brokerOrderId.all (fits 100) = true ∧ (orElse f.brokerOrderId row.brokerOrderId).all (fits 100) = true ∧
    brokerOrderIdTaken d f.orderId (orElse f.brokerOrderId row.brokerOrderId) = false

theorem loadExecutionState_iff {d : OrderDb} {orderId : UUID} :
    (∃ s, loadExecutionState d orderId = .ok (some s)) ↔ ∃ row, d.orders.get orderId = some row ∧ Loads row := by
  constructor
  · rintro ⟨s, h⟩
    obtain ⟨row, hrow, -, -, hq, hf, -⟩ := loadExecutionState_some h
    have h1 := s.quantity_pos
    have h2 := s.filled_nonneg
    have h3 := s.filled_le
    rw [hq] at h1 h3
    rw [hf] at h2 h3
    exact ⟨row, hrow, by exact_mod_cast h1, by exact_mod_cast h2, by exact_mod_cast h3⟩
  · rintro ⟨row, hrow, h1, h2, h3⟩
    unfold loadExecutionState
    rw [hrow]
    simp only
    rw [OrderExecutionState.make_eq_ok _ (by exact_mod_cast h1) (by exact_mod_cast h2) (by exact_mod_cast h3)]
    exact ⟨_, rfl⟩

/-- The filled quantity of a row is an `INTEGER`. -/
theorem Order.filled_range (row : Order) : (Int4.of? row.filled).isSome := by
  have h : -2147483648 ≤ row.filled ∧ row.filled ≤ 2147483647 := by
    unfold Order.filled
    cases row.filledQuantity with
    | none => exact ⟨by norm_num, by norm_num⟩
    | some f => exact f.range
  unfold Int4.of?
  rw [dif_pos h]
  rfl

theorem pyInt_intCast (n : ℤ) : pyInt (n : ℚ) = n := by simp [pyInt]

/-- **An event without a fill is saved exactly when it lands.** -/
theorem outcome_saved_iff {d : OrderDb} {e : BrokerOrderEvent} (hfill : e.eventType.isFill = false) :
    outcome d e = .saved ↔ Lands d e.toEventFields := by
  have hnotFill : e.eventType ≠ .partialFill ∧ e.eventType ≠ .fill := by
    constructor <;> (intro h; rw [h] at hfill; cases hfill)
  constructor
  · intro h
    obtain ⟨s, next, hl, hn, hsave⟩ := outcome_saved h
    obtain ⟨row, hrow, -, hst, -, -, hb⟩ := loadExecutionState_some hl
    obtain ⟨row', hrow', hloads⟩ := loadExecutionState_iff.mp ⟨s, hl⟩
    rw [hrow] at hrow'
    cases hrow'
    obtain ⟨-, hmem, -, -, -, -, hnb, -⟩ := OrderExecutionState.applyEvent_ok hn
    obtain ⟨-, -, hfit, hbfit, htaken, hnew⟩ := saveEvent_accepts_iff.mp ⟨_, hsave⟩
    rw [hnb, hb] at hbfit htaken
    rw [hst] at hmem
    obtain ⟨h150, h100⟩ : fits 150 (computeEventIdentity e.toEventFields) = true ∧
        e.brokerOrderId.all (fits 100) = true := by
      simpa [eventFits, savedEvent] using hfit
    exact ⟨hnew, row, hrow, hloads, hmem, h150, h100, hbfit, htaken⟩
  · rintro ⟨hnew, row, hrow, hloads, hmem, h150, h100, hbfit, htaken⟩
    obtain ⟨s, hl⟩ := loadExecutionState_iff.mpr ⟨row, hrow, hloads⟩
    obtain ⟨row', hrow', hid, hst, -, hf, hb⟩ := loadExecutionState_some hl
    rw [hrow] at hrow'
    cases hrow'
    obtain ⟨next, hn⟩ := OrderExecutionState.applyEvent_accepts_iff.mpr
      ⟨hid.symm, hst ▸ hmem, fun h => absurd h hnotFill.1, fun h => absurd h hnotFill.2⟩
    obtain ⟨-, -, -, -, -, hnf, hnb, -⟩ := OrderExecutionState.applyEvent_ok hn
    obtain ⟨db', hsave⟩ : ∃ db', saveEvent d e.orderId e next (computeEventIdentity e.toEventFields) = .ok db' := by
      refine saveEvent_accepts_iff.mpr ⟨by rw [hrow]; rfl, ?_, ?_, ?_, ?_, hnew⟩
      · rw [hnf, OrderExecutionState.filledAfter, hfill, if_neg Bool.false_ne_true, hf, pyInt_intCast]
        exact row.filled_range
      · simp [eventFits, savedEvent, h150, h100]
      · rw [hnb, hb]; exact hbfit
      · rw [hnb, hb]; exact htaken
    have hap : applyEvent d e = .ok (next, db') := by
      unfold applyEvent
      simp only [hnew, Bool.false_eq_true, if_false, hl, hn, hsave]
    unfold outcome
    rw [hnew, hap]

/-! ### The order row and an outcome -/

/-- The order row has status `s` and, when an id `b` is given, stores it. -/
def RowAgrees (d : OrderDb) (orderId : UUID) (s : OrderState) (b : Option String) : Prop :=
  ∃ row, d.orders.get orderId = some row ∧ row.status = s ∧ ∀ x, b = some x → row.brokerOrderId = some x

/-- The order row has the status an event asks for and its broker order id: the event lands (an empty id is not
stored), or the row has them already. -/
def EventAgrees (d : OrderDb) (f : EventFields) : Prop :=
  (Lands d f ∧ (f.brokerOrderId = some "" → ∃ row, d.orders.get f.orderId = some row ∧ row.brokerOrderId = some "")) ∨
    RowAgrees d f.orderId f.eventType.target f.brokerOrderId

theorem savedOrder_brokerOrderId (e : BrokerOrderEvent) (s : OrderExecutionState) (f : Int4) (o : Order) :
    (savedOrder e s f o).brokerOrderId = s.brokerOrderId.or o.brokerOrderId := by
  unfold savedOrder applyEventTimestamp
  cases e.eventType <;> rfl

theorem orElse_or (a b : Option String) : (orElse a b).or b = orElse a b := by
  unfold orElse
  cases a with
  | none => cases b <;> rfl
  | some x =>
    by_cases hx : x = ""
    · simp only [hx, if_true]; cases b <;> rfl
    · simp [hx]

/-- The order row after an event that was saved. -/
theorem get_deliver_saved {d : OrderDb} {e : BrokerOrderEvent} (h : outcome d e = .saved) :
    ∃ row row', d.orders.get e.orderId = some row ∧ (deliver d e).orders.get e.orderId = some row' ∧
      e.eventType.target ∈ allowedTransitions row.status ∧ row'.status = e.eventType.target ∧
      row'.brokerOrderId = orElse e.brokerOrderId row.brokerOrderId := by
  obtain ⟨s, next, hl, hn, hsave⟩ := outcome_saved h
  obtain ⟨row, hrow, -, hst, -, -, hb⟩ := loadExecutionState_some hl
  obtain ⟨-, hmem, hnst, -, -, -, hnb, -⟩ := OrderExecutionState.applyEvent_ok hn
  obtain ⟨o, f, ho, -, hget, -, -⟩ := saveEvent_ok hsave
  rw [hrow] at ho
  cases ho
  refine ⟨row, _, hrow, hget, hst ▸ hmem, by rw [savedOrder_status, hnst], ?_⟩
  rw [savedOrder_brokerOrderId, hnb, hb, orElse_or]

/-- No event without a fill leads from its target to its target. -/
theorem target_notMem {t : OrderEventType} (h : t.isFill = false) : t.target ∉ allowedTransitions t.target := by
  cases t with
  | partialFill => cases h
  | fill => cases h
  | brokerAcknowledged | rejected | cancelRequested | cancelled | unknown | reconciliationRequired => decide

/-- **The row after the event of an outcome**, in terms of the row before it. -/
theorem rowAgrees_deliver_iff {d : OrderDb} {e : BrokerOrderEvent} (hfill : e.eventType.isFill = false) :
    RowAgrees (deliver d e) e.orderId e.eventType.target e.brokerOrderId ↔ EventAgrees d e.toEventFields := by
  by_cases hs : outcome d e = .saved
  · have hlands := (outcome_saved_iff hfill).mp hs
    obtain ⟨row, row', hrow, hrow', hmem, hst, hb⟩ := get_deliver_saved hs
    constructor
    · rintro ⟨r, hr, -, hid⟩
      rw [hrow'] at hr
      cases hr
      refine Or.inl ⟨hlands, fun hempty => ⟨row, hrow, ?_⟩⟩
      have := hid "" hempty
      rwa [hb, hempty, orElse, if_pos rfl] at this
    · rintro (⟨-, hempty⟩ | ⟨r, hr, hst', -⟩)
      · refine ⟨row', hrow', hst, fun x hx => ?_⟩
        rw [hb, hx, orElse]
        by_cases hxe : x = ""
        · subst hxe
          obtain ⟨r, hr, hre⟩ := hempty hx
          rw [show d.orders.get e.orderId = some r from hr] at hrow
          cases hrow
          rw [if_pos rfl, hre]
        · rw [if_neg hxe]
      · rw [show d.orders.get e.orderId = some r from hr] at hrow
        cases hrow
        rw [hst'] at hmem
        exact absurd hmem (target_notMem hfill)
  · have hnot : ¬ Lands d e.toEventFields := fun h => hs ((outcome_saved_iff hfill).mpr h)
    rw [deliver_of_not_saved hs]
    constructor
    · exact Or.inr
    · rintro (⟨h, -⟩ | h)
      · exact absurd h hnot
      · exact h

/-- An order state that the outcome carries is the stored one, with the broker order id. -/
def Agrees (d : OrderDb) (o : ExecutionOutcome) : Prop :=
  ∀ s, o.orderState = some s → RowAgrees d o.orderId s o.brokerOrderId

/-- For a submission, a rejection is also stored as one. -/
def SubmitAgrees (d : OrderDb) (o : ExecutionOutcome) : Prop :=
  Agrees d o ∧ (o.submissionState = .rejected → RowAgrees d o.orderId .rejected none)

/-- **When a concluded reply agrees with the order**, in terms of the orders at the time of the reply. -/
def ReplyAgrees (env : EngineEnv) (d : OrderDb) (orderId : UUID) : Reply → Prop
  | .response r =>
    match r.status with
    | .acknowledged => EventAgrees d (responseEvent orderId .brokerAcknowledged r)
    | .submitted => RowAgrees d orderId .submissionRequested r.brokerOrderId
    | .rejected => EventAgrees d (responseEvent orderId .rejected r)
    | .timeout => EventAgrees d (responseEvent orderId .unknown r)
    | .unknown => EventAgrees d (responseEvent orderId .unknown r)
    | _ => RowAgrees d orderId .unknown r.brokerOrderId
  | .transient _ => RowAgrees d orderId .rejected none
  | .timeout text =>
    EventAgrees d { orderId := orderId, eventType := .unknown, occurredAt := env.timedOutAt, reason := text }
  | .error .unknownExternalState _ => True
  | .error _ _ => RowAgrees d orderId .rejected none
  | .other => True

theorem RowAgrees.weaken {d : OrderDb} {orderId : UUID} {s : OrderState} {b : Option String}
    (h : RowAgrees d orderId s b) : RowAgrees d orderId s none := by
  obtain ⟨row, hrow, hs, -⟩ := h
  exact ⟨row, hrow, hs, fun x hx => by cases hx⟩

/-- The order row after the event of a conclusion that reports a state. -/
theorem rowAgrees_applied_iff {orders orders' : OrderDb} {f : EventFields} (hfill : f.eventType.isFill = false)
    (ha : applyOrderEvent orders (some f) = .ok orders') :
    RowAgrees orders' f.orderId f.eventType.target f.brokerOrderId ↔ EventAgrees orders f := by
  rcases applyOrderEvent_ok_iff.mp ha with ⟨f', hv, he, rfl⟩ | ⟨he, -⟩
  · cases he
    exact rowAgrees_deliver_iff (e := ⟨f, hv⟩) hfill
  · cases he

/-- The stored order after a conclusion, when the state that is reported is the event's target. -/
theorem agrees_conclusion_iff {env : EngineEnv} {req : ExecutionRequest} {orders orders' : OrderDb} {reply : Reply}
    {c : Conclusion} (hc : concludeReply env req reply = some c)
    (ha : applyOrderEvent orders c.event = .ok orders') :
    ((∀ s, c.orderState = some s → RowAgrees orders' req.orderId s c.brokerOrderId) ∧
      (c.state = .rejected → RowAgrees orders' req.orderId .rejected none)) ↔
    ReplyAgrees env orders req.orderId reply := by
  cases reply with
  | other => cases hc
  | transient text =>
    cases hc
    cases ha
    simp [ReplyAgrees]
  | error k text =>
    cases k with
    | unknownExternalState => cases hc; simp [ReplyAgrees]
    | validationFailure | authFailure | transientFailure | timeout | providerRejection | internalFailure =>
      cases hc
      cases ha
      simp [ReplyAgrees]
  | timeout text =>
    cases hc
    have h := rowAgrees_applied_iff rfl ha
    simp only [Option.some.injEq, forall_eq', reduceCtorEq, false_implies, and_true]
    exact h
  | response r =>
    simp only [concludeReply, Option.some.injEq] at hc
    subst hc
    unfold processResponse at ha ⊢
    unfold ReplyAgrees
    cases hs : r.status with
    | rejected =>
      rw [hs] at ha
      have h := rowAgrees_applied_iff rfl ha
      simp only [hs, Option.some.injEq, forall_eq', forall_const]
      constructor
      · rintro ⟨h1, -⟩
        exact h.mp h1
      · intro h1
        exact ⟨h.mpr h1, (h.mpr h1).weaken⟩
    | acknowledged | timeout | unknown =>
      rw [hs] at ha
      have h := rowAgrees_applied_iff rfl ha
      simp only [hs, Option.some.injEq, forall_eq', reduceCtorEq, false_implies, and_true]
      exact h
    | submitted | submissionRequested | submissionInProgress | cancelled =>
      rw [hs] at ha
      cases ha
      simp only [hs, Option.some.injEq, forall_eq', reduceCtorEq, false_implies, and_true]

/-- A concluded attempt agrees with the stored order exactly when its reply does. -/
theorem finalize_agrees_iff {env : EngineEnv} {req : ExecutionRequest} {n : ℕ} {db db' : ExecDb} {reply : Reply}
    {c : Conclusion} {o : ExecutionOutcome} (hc : concludeReply env req reply = some c)
    (h : finalize env req n db c = (db', .ok o)) :
    SubmitAgrees db'.toOrderDb o ↔ ReplyAgrees env db.toOrderDb req.orderId reply := by
  obtain ⟨orders, ha, hu, h1, h2, h3, h4⟩ := finalize_ok h
  unfold SubmitAgrees Agrees
  rw [(updateAttempt_other hu).1, h1, h2, h3, h4]
  exact agrees_conclusion_iff hc ha

/-- Beside another attempt of its execution no attempt is concluded. -/
theorem finalize_beside {env : EngineEnv} {req : ExecutionRequest} {adapter : Adapter} {n : ℕ}
    {db db₁ db' : ExecDb} {c : Conclusion} {o : ExecutionOutcome}
    (hs : saveAttempt db (newAttempt env req n) = .ok db₁) (hne : attemptsOf db req.executionId ≠ []) :
    finalize env req n (atReply adapter n db₁) c ≠ (db', .ok o) := by
  intro h
  obtain ⟨orders, -, hu, -⟩ := finalize_ok h
  have hrows := attemptsOf_of_saveAttempt hs
  obtain ⟨r, l, hl⟩ := List.exists_cons_of_ne_nil hne
  rw [show (newAttempt env req n).executionId = req.executionId from rfl, hl] at hrows
  unfold updateAttempt at hu
  rw [executionIdFromAttemptId_compute, show attemptsOf { atReply adapter n db₁ with toOrderDb := orders }
    req.executionId = _ from hrows] at hu
  cases l <;> cases hu

/-- The condition on a submission: a first attempt stored as rejected has a rejected order; and where one attempt
is made, its reply agrees with the order as it is by then. -/
def SubmitCondition (env : EngineEnv) (req : ExecutionRequest) (adapter : Adapter) (db : ExecDb) : Prop :=
  validateRequest env req = .ok () →
    (∀ r, db.attempts.get (req.executionId, 0) = some r → r.state = .rejected →
      RowAgrees db.toOrderDb req.orderId .rejected none) ∧
    (attemptsOf db req.executionId = [] → OneAttempt env req (adapter.reply 0) db →
      ReplyAgrees env (adapter.meanwhile 0 db.toOrderDb) req.orderId (adapter.reply 0))

theorem submit_agrees (env : EngineEnv) (req : ExecutionRequest) (adapter : Adapter) (db : ExecDb) :
    (∀ o, (submit env req adapter db).result = .ok o → SubmitAgrees (submit env req adapter db).db.toOrderDb o) ↔
      SubmitCondition env req adapter db := by
  constructor
  · intro h hv
    constructor
    · intro r hr hst
      have heq : submit env req adapter db = _ := submit_duplicate hv hr
      have ho := h (duplicateOutcome (fromOrmAttempt r) req) (by rw [heq])
      rw [heq] at ho
      exact ho.2 hst
    · intro hnone hone
      obtain ⟨c, db₁, db', o, hc, hs, hfin, heq, -⟩ := submit_of_oneAttempt adapter hv hnone hone
      have ho := h o (by rw [heq])
      rw [heq] at ho
      have hr := (finalize_agrees_iff hc hfin).mp ho
      rwa [show (atReply adapter 0 db₁).toOrderDb = adapter.meanwhile 0 db.toOrderDb from
        congrArg (adapter.meanwhile 0) (saveAttempt_ok hs).2.2.1] at hr
  · intro hcond o ho
    cases hv : validateRequest env req with
    | error err => rw [submit_invalid hv] at ho; cases ho
    | ok u =>
      obtain ⟨hrej, hreply⟩ := hcond hv
      cases h0 : db.attempts.get (req.executionId, 0) with
      | some r =>
        rw [submit_duplicate hv h0] at ho ⊢
        cases ho
        exact ⟨fun s hs => (by cases hs), fun hst => hrej r h0 hst⟩
      | none =>
        rw [submit_fresh hv h0] at ho ⊢
        rcases submitAttempt_ok ho with ⟨a, hf, -⟩ | ⟨db₁, hs, ⟨k, -, ht, heq⟩ | ⟨hlast, c, db', hc, hfin, heq⟩⟩
        · rw [findAttempt, h0] at hf
          cases hf
        · -- a retried submission can only report its own first attempt, which is still in progress
          rw [heq] at ho
          rw [submitAttempt_later one_ne_zero (get_self_of_saved hs) ho]
          exact ⟨fun s hs => (by cases hs), fun hst => (by cases hst)⟩
        · rw [heq]
          by_cases hnone : attemptsOf db req.executionId = []
          · obtain ⟨hfit, hord, hsame, -⟩ := saveAttempt_ok hs
            have hcon := (concludes_iff req).mpr ⟨c, hc, finalize_single_ok (attemptsOf_first hs hnone) hfin⟩
            have hr := hreply hnone ⟨hord, attemptFits_first env req ▸ hfit, hlast, hcon⟩
            rw [← hsame] at hr
            exact (finalize_agrees_iff hc hfin).mpr hr
          · exact absurd hfin (finalize_beside hs hnone)

/-! ### Cancellation -/

/-- The condition on a cancellation, in terms of the orders at the time of the reply. -/
def CancelCondition (env : EngineEnv) (orderId : UUID) (reply : Option ExecutionResponse) (orders : OrderDb) : Prop :=
  env.supportsCancellation = true → ∀ r, reply = some r →
    match r.status with
    | .cancelled => blank r.reason = false → EventAgrees orders (responseEvent orderId .cancelled r)
    | .rejected => RowAgrees orders orderId .cancelRequested r.brokerOrderId
    | _ => RowAgrees orders orderId .unknown r.brokerOrderId

theorem cancel_agrees (env : EngineEnv) (orderId : UUID) (reply : Option ExecutionResponse) (orders : OrderDb) :
    (∀ o, (cancel env orderId reply orders).2 = .ok o → Agrees (cancel env orderId reply orders).1 o) ↔
      CancelCondition env orderId reply orders := by
  unfold CancelCondition cancel
  cases hsup : env.supportsCancellation with
  | false => simp [Agrees]
  | true =>
    cases reply with
    | none => simp
    | some r =>
      simp only [Bool.not_true, Bool.false_eq_true, if_false, Option.some.injEq, forall_eq', forall_const]
      cases hs : r.status with
      | cancelled =>
        simp only
        cases ha : applyOrderEvent orders (some (responseEvent orderId .cancelled r)) with
        | error err =>
          have hb : ¬ blank r.reason = false := by
            intro hb
            have hv : (responseEvent orderId .cancelled r).Valid := (responseEvent_valid_iff rfl).mpr hb
            rw [applyOrderEvent_ok_iff.mpr (Or.inl ⟨_, hv, rfl, rfl⟩)] at ha
            cases ha
          simp [hb]
        | ok orders' =>
          have hb : blank r.reason = false := by
            rcases applyOrderEvent_ok_iff.mp ha with ⟨f, hv, he, -⟩ | ⟨he, -⟩
            · cases he
              exact (responseEvent_valid_iff rfl).mp hv
            · cases he
          have h := rowAgrees_applied_iff rfl ha
          simp only [Except.ok.injEq, forall_eq', hb, forall_const, Agrees, Option.some.injEq]
          exact h
      | rejected | submissionRequested | submissionInProgress | submitted | acknowledged | timeout | unknown =>
        simp [Agrees]

/-- **When an outcome agrees with the stored order**: `submit` and `cancel` return what is stored exactly when the
event of the reply reaches the row or the row is there already; an outcome that is reported without an event needs
the row to have that state on its own. -/
theorem outcome_agrees_iff (env : EngineEnv) (req : ExecutionRequest) (adapter : Adapter) (db : ExecDb)
    (orderId : UUID) (reply : Option ExecutionResponse) (orders : OrderDb) :
    ((∀ o, (submit env req adapter db).result = .ok o → SubmitAgrees (submit env req adapter db).db.toOrderDb o) ↔
      SubmitCondition env req adapter db) ∧
    ((∀ o, (cancel env orderId reply orders).2 = .ok o → Agrees (cancel env orderId reply orders).1 o) ↔
      CancelCondition env orderId reply orders) :=
  ⟨submit_agrees env req adapter db, cancel_agrees env orderId reply orders⟩

/-- Exhausted retries are returned as a rejection of an order that stays requested; a cancellation without an
answer is returned as unknown on an order that stays requested. -/
theorem not_agrees_rejected :
    (¬ ∀ (env : EngineEnv) (req : ExecutionRequest) (adapter : Adapter) (db : ExecDb) (o : ExecutionOutcome),
      (submit env req adapter db).result = .ok o → SubmitAgrees (submit env req adapter db).db.toOrderDb o) ∧
    ¬ ∀ (env : EngineEnv) (orderId : UUID) (reply : Option ExecutionResponse) (orders : OrderDb) (o : ExecutionOutcome),
      (cancel env orderId reply orders).2 = .ok o → Agrees (cancel env orderId reply orders).1 o := by
  constructor
  · intro h
    have ho := (h (openEngine 0) openRequest { reply := fun _ => .transient "busy" } requestedDb
      ⟨⟨1⟩, "x1", "x1-a0", .rejected, none, none, "busy", false⟩ (by decide +kernel)).2 rfl
    obtain ⟨row, hrow, hst, -⟩ := ho
    have hget : (submit (openEngine 0) openRequest { reply := fun _ => .transient "busy" } requestedDb).db.orders.get
        ⟨1⟩ = requestedDb.orders.get ⟨1⟩ := by decide +kernel
    rw [hget] at hrow
    cases hrow
    cases hst
  · intro h
    obtain ⟨row, hrow, hst, -⟩ := h (openEngine 0) ⟨1⟩ (some (brokerResponse .timeout none)) requestedDb.toOrderDb
      ⟨⟨1⟩, "", "", .timeout, some .unknown, none, "broker report", false⟩ (by decide +kernel) .unknown rfl
    cases hrow
    cases hst

end AlphaAlgo.Execution
