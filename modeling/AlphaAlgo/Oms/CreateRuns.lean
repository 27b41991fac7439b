import AlphaAlgo.Lib.Pool
import AlphaAlgo.Oms.Creation

/-!
# CreateRuns — concurrent, failing and repeated order creations

Calls of `create_order` interleave over one database, one transaction at a time.  A crash is a call that is not
stepped again, a replay another call with the same intent.

* `create_order_idempotent`: at most one order per orchestration id; a repeated call tells a duplicate from a
  conflict on the schedules in which intents that agree in the fields of the identity key agree in limit price,
  strategy run and strategy version.
* `create_order_handed_off`: a call that returns leaves its order at `SUBMISSION_REQUESTED` or later on the
  schedules in which no duplicate is answered for an order whose creation is not finished.
-/

namespace AlphaAlgo.Oms

open Execution Runs

/-- The database and the calls on it. -/
abbrev CreateSystem := Pool OrderDb CreateCall

/-- The schedule `l` of calls. -/
abbrev createSchedule (p : CreateSystem) (l : List ℕ) : CreateSystem := run (Pool.step CreateCall.next) p l

/-! ### What a call carries -/

/-- The spec and the identity that a call has built. -/
def CreatePc.prepared : CreatePc → Option (OrderSpec × OrderIdentity)
  | .find spec identity => some (spec, identity)
  | .check spec identity => some (spec, identity)
  | .insert spec identity => some (spec, identity)
  | .reread spec identity => some (spec, identity)
  | .resolve spec identity _ => some (spec, identity)
  | .internal spec identity => some (spec, identity)
  | .submission spec identity => some (spec, identity)
  | _ => none

/-- What the call has built comes from its intent. -/
def CreateCall.Sound (c : CreateCall) : Prop := ∀ spec identity, c.pc.prepared = some (spec, identity) →
  validateIntent c.intent c.env.validatedAt c.env.globalHaltActive = .ok spec ∧
    identity = buildOrderIdentity c.intent c.env.orderId spec.quantity

theorem resolved_cases (existing : Option Order) (identity : OrderIdentity) :
    (∃ r, resolved existing identity = .returned r) ∨ ∃ err, resolved existing identity = .raised err := by
  unfold resolved
  split
  · exact Or.inl ⟨_, rfl⟩
  · exact Or.inr ⟨_, rfl⟩

theorem CreateStep.sound {db db' : OrderDb} {intent : TradingIntent} {env : CreateEnv} {pc pc' : CreatePc}
    (hstep : CreateStep db intent env pc db' pc') (h : CreateCall.Sound ⟨intent, env, pc⟩) :
    CreateCall.Sound ⟨intent, env, pc'⟩ := by
  intro spec identity hp
  cases hstep with
  | validated hv => cases hp; exact ⟨hv, rfl⟩
  | @found s i o hf =>
    rcases resolved_cases (some o) i with ⟨r, hr⟩ | ⟨err, hr⟩ <;> simp only [hr] at hp <;> cases hp
  | @resolve s i id =>
    rcases resolved_cases (id.bind (findById db)) i with ⟨r, hr⟩ | ⟨err, hr⟩ <;> simp only [hr] at hp <;> cases hp
  | inserted _ hpc | internal _ hpc =>
    rcases hpc with rfl | ⟨err, rfl⟩
    · exact h spec identity hp
    · cases hp
  | submission _ hpc => rcases hpc with rfl | ⟨err, rfl⟩ <;> cases hp
  | missing _ | taken _ | free _ | violated _ | reread | ended _ => exact h spec identity hp
  | refused _ | findFailed _ | checkFailed _ | insertFailed _ | rereadFailed _ | resolveFailed _ | internalFailed
    | submissionFailed => cases hp

theorem CreateCall.Sound.next {c : CreateCall} (h : c.Sound) (db : OrderDb) : (c.next db).2.Sound :=
  (createStep_next db c.intent c.env c.pc).sound h

theorem soundCall_start {c : CreateCall} (h : c.pc = .start) : c.Sound := by
  intro spec identity hp
  rw [h] at hp
  cases hp

/-- All calls of a schedule carry what they built from their intents. -/
theorem sound_step {p : CreateSystem} (h : ∀ c ∈ p.calls, c.Sound) (i : ℕ) :
    ∀ c ∈ (p.step CreateCall.next i).calls, c.Sound := by
  cases hc : p.calls[i]? with
  | none => rw [Pool.step_of_none hc]; exact h
  | some c => exact Pool.forall_step hc h ((h c (List.mem_of_getElem? hc)).next _)

/-! ### An intent -/

/-- Noon of a trading day. -/
def noon : DateTime := ⟨2026, 8, 12, 12, 0, 0, 0, some 0⟩

/-- A buy of ten at a limit, approved until three. -/
def limitIntent (limitPrice : ℕ) : TradingIntent where
  correlationId := ⟨1⟩
  orchestrationId := "intent-1"
  accountId := some ⟨2⟩
  strategyId := ⟨3⟩
  strategyVersion := "v1"
  strategyRunId := none
  signalId := ⟨4⟩
  instrumentId := ⟨5⟩
  action := "BUY"
  quantity := Dec.ofNat 10
  orderType := "LIMIT"
  limitPrice := some (Dec.ofNat limitPrice)
  tradingMode := "PAPER"
  approvalId := ⟨6⟩
  approvalExpiresAt := ⟨2026, 8, 12, 15, 0, 0, 0, some 0⟩

/-- The spec of that intent. -/
def limitSpec (limitPrice : ℕ) : OrderSpec := specOf (limitIntent limitPrice) 10 ⟨2⟩

/-- A call with that intent at noon. -/
def limitCall (limitPrice : ℕ) (id : UUID) : CreateCall := ⟨limitIntent limitPrice, .at id noon, .start⟩

theorem validateIntent_limit (limitPrice : ℕ) :
    validateIntent (limitIntent limitPrice) noon false = .ok (limitSpec limitPrice) := by
  have h1 : blank "intent-1" = false := by decide
  have h2 : upper "PAPER" = "PAPER" := by decide
  have h3 : upper "BUY" = "BUY" := by decide
  have h4 : upper "LIMIT" = "LIMIT" := by decide
  have h5 : toQuantity (Dec.ofNat 10) = .ok 10 := by decide +kernel
  have h6 : DateTime.le? ⟨2026, 8, 12, 15, 0, 0, 0, some 0⟩ noon = some false := by decide
  have h7 : "PAPER" ∈ allowedModes := by decide
  have h8 : "BUY" ∈ allowedActions := by decide
  have h9 : "LIMIT" ∈ allowedOrderTypes := by decide
  simp [validateIntent, limitIntent, h1, h2, h3, h4, h5, h7, h8, h9, validateApproval, h6, DateTime.aware, limitSpec]

/-- A database without orders. -/
def emptyDb : OrderDb := ⟨Table.empty, Table.empty⟩

/-- The order of the intent, as it is inserted. -/
def limitOrder (limitPrice : ℕ) (id : UUID) : Order :=
  toOrmOrder (limitSpec limitPrice) (buildOrderIdentity (limitIntent limitPrice) id 10) ⟨10, by decide⟩

/-- A database that holds the order of the intent, handed off. -/
def limitDb (limitPrice : ℕ) (id : UUID) : OrderDb where
  orders := ⟨[withStatus .submissionRequested (limitOrder limitPrice id)], List.nodup_singleton _⟩
  events := Table.empty

/-- The call after its validation. -/
theorem limitCall_step (db : OrderDb) (limitPrice : ℕ) (id : UUID) :
    Pool.step CreateCall.next ⟨db, [limitCall limitPrice id]⟩ 0 = ⟨db, [⟨limitIntent limitPrice, .at id noon,
      .find (limitSpec limitPrice) (identityOf (limitIntent limitPrice) (.at id noon) (limitSpec limitPrice))⟩]⟩ := by
  rw [Pool.step_of_some (c := limitCall limitPrice id) rfl, limitCall,
    next_start (limitIntent limitPrice) (.at id noon) (validateIntent_limit limitPrice)]
  rfl

/-! ### Hand-off -/

/-- `SUBMISSION_REQUESTED` or later. -/
def pastHandOff (s : OrderState) : Bool := s ≠ .intentCreated && s ≠ .internalOrderCreated

/-- The row of a stored order. -/
theorem findByOrchestrationId_some {db : OrderDb} {orchestrationId : String} {o : Order}
    (h : findByOrchestrationId db orchestrationId = some o) :
    o ∈ db.orders.rows ∧ o.orchestrationId = some orchestrationId ∧ findById db o.id = some o := by
  have hmem : o ∈ db.orders.rows := List.mem_of_find?_eq_some h
  exact ⟨hmem, by simpa using List.find?_some h, Table.get_eq_some_iff.mpr ⟨hmem, rfl⟩⟩

/-- The stored order that the next step of a call answers as a duplicate. -/
def CreateCall.duplicated (db : OrderDb) (c : CreateCall) : Option Order :=
  match c.pc with
  | .find spec identity => (findByOrchestrationId db spec.orchestrationId).filter
      fun o => o.orderIdentityKey = some identity.orderIdentityKey
  | .resolve _ identity orderId => (orderId.bind (findById db)).filter
      fun o => o.orderIdentityKey = some identity.orderIdentityKey
  | _ => none

/-- The condition on a step: the order that it answers as a duplicate is not the order of a call that is between its
insertion and the end of its advance, running or not. -/
def DuplicateFinished (p : CreateSystem) (i : ℕ) : Prop :=
  ∀ c ∈ p.calls[i]?, ∀ o ∈ c.duplicated p.shared, ∀ d ∈ p.calls, d.env.orderId = o.id → d.pc.unfinished = false

/-- An order that a step answers as a duplicate is stored. -/
theorem CreateCall.duplicated_mem {db : OrderDb} {c : CreateCall} {o : Order} (h : c.duplicated db = some o) :
    o ∈ db.orders.rows := by
  unfold CreateCall.duplicated at h
  cases hp : c.pc with
  | find spec identity =>
    rw [hp] at h
    exact (findByOrchestrationId_some (Option.filter_eq_some_iff.mp h).1).1
  | resolve spec identity orderId =>
    rw [hp] at h
    obtain ⟨id, -, hid⟩ := Option.bind_eq_some_iff.mp (Option.filter_eq_some_iff.mp h).1
    exact (Table.get_eq_some_iff.mp hid).1
  | start | check _ _ | insert _ _ | reread _ _ | internal _ _ | submission _ _ | returned _ | raised _ | abandoned _ =>
    rw [hp] at h
    cases h

/-- The condition holds while no call is to create an order that is stored. -/
theorem duplicateFinished_of_ids {p : CreateSystem} {i : ℕ}
    (h : ∀ o ∈ p.shared.orders.rows, ∀ d ∈ p.calls, d.env.orderId ≠ o.id) : DuplicateFinished p i :=
  fun _ _ o ho d hd hid => absurd hid (h o (CreateCall.duplicated_mem ho) d hd)

/-- A call that returns in this step leaves its order handed off. -/
def HandedOff (p : CreateSystem) (i : ℕ) : Prop :=
  ∀ c ∈ p.calls[i]?, (∀ r, c.pc ≠ .returned r) → ∀ r, (c.next p.shared).2.pc = .returned r →
    ∃ o, (c.next p.shared).1.orders.get r.orderId = some o ∧ pastHandOff o.status = true

/-- Every stored order is handed off, or the call that created it is not done with it. -/
structure CreationInv (p : CreateSystem) : Prop where
  sound : ∀ c ∈ p.calls, c.Sound
  advanced : ∀ o ∈ p.shared.orders.rows, pastHandOff o.status = true ∨
    ∃ d ∈ p.calls, d.env.orderId = o.id ∧ d.pc.unfinished = true

/-- The rows after the status of one order is set. -/
theorem mem_rows_of_append {db db' : OrderDb} {orderId : UUID} {event : OrderEvent} {s : OrderState}
    (h : appendEvent db orderId event s = .ok db') {o : Order} (ho : o ∈ db'.orders.rows) :
    (o.id = orderId ∧ o.status = s) ∨ (o.id ≠ orderId ∧ o ∈ db.orders.rows) := by
  obtain ⟨row, hrow, hnew, hoth, -⟩ := appendEvent_ok h
  have hget : db'.orders.get o.id = some o := Table.get_eq_some_iff.mpr ⟨ho, rfl⟩
  by_cases hid : o.id = orderId
  · left
    rw [hid, hnew] at hget
    cases hget
    exact ⟨hid, rfl⟩
  · right
    rw [hoth _ hid] at hget
    exact ⟨hid, (Table.get_eq_some_iff.mp hget).1⟩

/-- What becomes of the rows and of the call in a step: each row is as it was and an unfinished call stays so, or is
the order of the call, which is unfinished or has handed the order off. -/
theorem CreateStep.rows {db db' : OrderDb} {intent : TradingIntent} {env : CreateEnv} {pc pc' : CreatePc}
    (hstep : CreateStep db intent env pc db' pc') (hs : CreateCall.Sound ⟨intent, env, pc⟩) {o : Order}
    (ho : o ∈ db'.orders.rows) :
    (o ∈ db.orders.rows ∧ (env.orderId = o.id → pc.unfinished = true → pc'.unfinished = true)) ∨
      (o.id = env.orderId ∧ (pc'.unfinished = true ∨ pastHandOff o.status = true)) := by
  cases hstep with
  | @inserted spec identity _ _ hins hpc =>
    obtain ⟨-, hid⟩ := hs spec identity rfl
    obtain ⟨q, -, hrows, -⟩ := insertRow_ok hins
    have hu : pc'.unfinished = true := by rcases hpc with rfl | ⟨err, rfl⟩ <;> rfl
    rw [hrows] at ho
    rcases List.mem_append.mp ho with ho | ho
    · exact Or.inl ⟨ho, fun _ _ => hu⟩
    · rw [List.mem_singleton.mp ho]
      exact Or.inr ⟨by rw [hid]; rfl, Or.inl hu⟩
  | @internal spec identity _ _ happ hpc =>
    obtain ⟨-, hid⟩ := hs spec identity rfl
    have hu : pc'.unfinished = true := by rcases hpc with rfl | ⟨err, rfl⟩ <;> rfl
    rcases mem_rows_of_append happ ho with ⟨heq, -⟩ | ⟨-, ho⟩
    · exact Or.inr ⟨by rw [heq, hid]; rfl, Or.inl hu⟩
    · exact Or.inl ⟨ho, fun _ _ => hu⟩
  | @submission spec identity _ _ happ _ =>
    obtain ⟨-, hid⟩ := hs spec identity rfl
    have hown : identity.internalOrderId = env.orderId := by rw [hid]; rfl
    rcases mem_rows_of_append happ ho with ⟨heq, hst⟩ | ⟨hne, ho⟩
    · exact Or.inr ⟨heq.trans hown, Or.inr (by rw [hst]; rfl)⟩
    · exact Or.inl ⟨ho, fun he => absurd (he.symm.trans hown.symm) hne⟩
  | internalFailed | submissionFailed => exact Or.inl ⟨ho, fun _ _ => rfl⟩
  | ended _ => exact Or.inl ⟨ho, fun _ hu => hu⟩
  | refused _ | validated _ | findFailed _ | found _ | missing _ | checkFailed _ | taken _ | free _ | violated _
    | insertFailed _ | rereadFailed _ | reread | resolveFailed _ | resolve =>
    exact Or.inl ⟨ho, fun _ hu => (by cases hu)⟩

theorem CreationInv.step {p : CreateSystem} (h : CreationInv p) (i : ℕ) :
    CreationInv (p.step CreateCall.next i) := by
  refine ⟨sound_step h.sound i, ?_⟩
  cases hc : p.calls[i]? with
  | none => rw [Pool.step_of_none hc]; exact h.advanced
  | some c =>
    intro o ho
    have hshared : (p.step CreateCall.next i).shared = (c.next p.shared).1 := by rw [Pool.step_of_some hc]
    rw [hshared] at ho
    have hself := Pool.next_mem_step CreateCall.next hc
    rcases (createStep_next p.shared c.intent c.env c.pc).rows (h.sound c (List.mem_of_getElem? hc)) ho with
      ⟨ho, hu⟩ | ⟨hid, hu | hpast⟩
    · rcases h.advanced o ho with hpast | ⟨d, hd, hid, hud⟩
      · exact Or.inl hpast
      · -- the witness of the row is another call, or the call that steps
        rcases Pool.mem_step CreateCall.next hc hd with rfl | hd'
        · exact Or.inr ⟨_, hself, hid, hu hid hud⟩
        · exact Or.inr ⟨d, hd', hid, hud⟩
    · exact Or.inr ⟨_, hself, hid.symm, hu⟩
    · exact Or.inl hpast

/-- A duplicate is answered for a stored order with the identity key of the call. -/
theorem resolved_returned {existing : Option Order} {identity : OrderIdentity} {r : OrderResult}
    (h : resolved existing identity = .returned r) :
    ∃ o, existing = some o ∧ o.orderIdentityKey = some identity.orderIdentityKey ∧ r.orderId = o.id := by
  cases existing with
  | none => cases h
  | some o =>
    by_cases hk : o.orderIdentityKey = some identity.orderIdentityKey
    · rw [resolved_of_key hk] at h
      cases h
      exact ⟨o, rfl, hk, rfl⟩
    · rw [resolved_of_ne hk] at h
      cases h

/-- How a call comes to return: it answers a duplicate, or has made the last write of its advance. -/
theorem CreateStep.returned {db db' : OrderDb} {intent : TradingIntent} {env : CreateEnv} {pc pc' : CreatePc}
    {r : OrderResult} (hstep : CreateStep db intent env pc db' pc') (hpc : ∀ r, pc ≠ .returned r)
    (hr : pc' = .returned r) :
    (∃ o, CreateCall.duplicated db ⟨intent, env, pc⟩ = some o ∧ findById db o.id = some o ∧ r.orderId = o.id ∧
      db' = db) ∨
    ∃ o, db'.orders.get r.orderId = some o ∧ o.status = .submissionRequested := by
  cases hstep with
  | @found spec identity o hf =>
    obtain ⟨o', ho', hk, hid⟩ := resolved_returned hr
    cases ho'
    refine Or.inl ⟨o, ?_, (findByOrchestrationId_some hf).2.2, hid, rfl⟩
    simp [CreateCall.duplicated, hf, hk]
  | resolve =>
    obtain ⟨o, ho, hk, hid⟩ := resolved_returned hr
    obtain ⟨id, hsome, hget⟩ := Option.bind_eq_some_iff.mp ho
    have heq : o.id = id := Table.key_of_get hget
    refine Or.inl ⟨o, ?_, by rw [heq]; exact hget, hid, rfl⟩
    simp [CreateCall.duplicated, hsome, hget, hk]
  | submission happ hc =>
    obtain ⟨row, -, hnew, -⟩ := appendEvent_ok happ
    rcases hc with rfl | ⟨err, rfl⟩
    · cases hr
      exact Or.inr ⟨_, hnew, rfl⟩
    · cases hr
  | inserted _ hc | internal _ hc => rcases hc with rfl | ⟨err, rfl⟩ <;> cases hr
  | ended _ => exact absurd hr (hpc r)
  | refused _ | validated _ | findFailed _ | missing _ | checkFailed _ | taken _ | free _ | violated _
    | insertFailed _ | rereadFailed _ | reread | resolveFailed _ | internalFailed | submissionFailed => cases hr

/-- A step that meets the condition hands off. -/
theorem CreationInv.handedOff {p : CreateSystem} (h : CreationInv p) {i : ℕ} (hG : DuplicateFinished p i) :
    HandedOff p i := by
  intro c hc hpc r hr
  rcases (createStep_next p.shared c.intent c.env c.pc).returned hpc hr with ⟨o, hdup, hget, hid, hdb⟩ | ⟨o, ho, hs⟩
  · refine ⟨o, by rw [hid]; exact (congrArg (fun d => findById d o.id) hdb).trans hget, ?_⟩
    rcases h.advanced o (Table.get_eq_some_iff.mp hget).1 with hpast | ⟨d, hd, hdid, hu⟩
    · exact hpast
    · rw [hG c hc o hdup d hd hdid] at hu
      cases hu
  · exact ⟨o, ho, by rw [hs]; rfl⟩

/-- **Accepted intents are handed off**: from a database whose orders are handed off, whenever a call returns, with
a new order or a duplicate, its order is at `SUBMISSION_REQUESTED` or later, as long as no duplicate is answered for
an order whose creation is not finished. -/
theorem create_order_handed_off {p : CreateSystem} (hstart : ∀ c ∈ p.calls, c.pc = .start)
    (horders : ∀ o ∈ p.shared.orders.rows, pastHandOff o.status = true) (l : List ℕ)
    (hG : Along (Pool.step CreateCall.next) DuplicateFinished p l) :
    Along (Pool.step CreateCall.next) HandedOff p l := by
  have hinit : CreationInv p := ⟨fun c hc => soundCall_start (hstart c hc), fun o ho => Or.inl (horders o ho)⟩
  exact hG.steps (fun p i h _ => CreationInv.step h i) (fun p i h hG => h.handedOff hG) hinit

/-- **A process that dies after the insertion leaves the order behind**: the replay of the intent is answered as a
duplicate while the order is at `INTENT_CREATED`. -/
theorem crash_not_handedOff {db db' : OrderDb} {intent : TradingIntent} {spec : OrderSpec} (env env' : CreateEnv)
    {q : Int4} (hv : validateIntent intent env.validatedAt env.globalHaltActive = .ok spec)
    (hv' : validateIntent intent env'.validatedAt env'.globalHaltActive = .ok spec)
    (hf : env.findFails = false) (hf' : env'.findFails = false) (hc : env.checkFails = false)
    (hi : env.insertFault = .none) (hn : findByOrchestrationId db spec.orchestrationId = none)
    (hins : insertRow db spec (identityOf intent env spec) env = .ok db')
    (hrows : db'.orders.rows = db.orders.rows ++ [toOrmOrder spec (identityOf intent env spec) q]) :
    ¬ Along (Pool.step CreateCall.next) HandedOff ⟨db, [⟨intent, env, .start⟩, ⟨intent, env', .start⟩]⟩
      [0, 0, 0, 0, 1, 1] := by
  intro h
  have hrun : run (Pool.step CreateCall.next) ⟨db, [⟨intent, env, .start⟩, ⟨intent, env', .start⟩]⟩ [0, 0, 0, 0, 1] =
      ⟨db', [⟨intent, env, afterInsert spec (identityOf intent env spec) env⟩,
        ⟨intent, env', .find spec (identityOf intent env' spec)⟩]⟩ := by
    simp [Pool.step, next_start intent env hv, next_start intent env' hv', next_find_none intent env _ hf hn,
      next_check_none intent env _ hc hn, next_insert intent env _ hi hins]
  have hs : findByOrchestrationId db' spec.orchestrationId = some (toOrmOrder spec (identityOf intent env spec) q) := by
    have hself : (toOrmOrder spec (identityOf intent env spec) q).orchestrationId = some spec.orchestrationId := rfl
    unfold findByOrchestrationId at hn ⊢
    rw [hrows, List.find?_append, hn, List.find?_singleton, decide_eq_true hself]
    rfl
  have hstep := h.at_step [0, 0, 0, 0, 1]
  rw [hrun] at hstep
  have hnext := next_find_some intent env' (identityOf intent env' spec) hf' hs
  have hkey : (toOrmOrder spec (identityOf intent env spec) q).orderIdentityKey =
      some (identityOf intent env' spec).orderIdentityKey := rfl
  rw [resolved_of_key hkey] at hnext
  obtain ⟨o, ho, hp⟩ := hstep _ rfl (by rintro r hr; cases hr) _ (by rw [hnext])
  rw [hnext] at ho
  cases ho.symm.trans (findByOrchestrationId_some hs).2.2
  cases hp

/-- The replay of a handed-off intent. -/
theorem create_order_handed_off_replay :
    Along (Pool.step CreateCall.next) HandedOff ⟨limitDb 100 ⟨9⟩, [limitCall 100 ⟨10⟩]⟩ [0, 0] := by
  have hids : ∀ o ∈ (limitDb 100 ⟨9⟩).orders.rows, ∀ pc, ∀ d ∈ [{ limitCall 100 ⟨10⟩ with pc := pc }],
      d.env.orderId ≠ o.id := by
    intro o ho pc d hd
    rw [List.mem_singleton.mp ho, List.mem_singleton.mp hd]
    show (⟨10⟩ : UUID) ≠ ⟨9⟩
    decide
  refine create_order_handed_off (by decide) ?_ [0, 0] ⟨?_, ?_, trivial⟩
  · intro o ho
    rw [List.mem_singleton.mp ho]
    rfl
  · exact duplicateFinished_of_ids fun o ho => hids o ho .start
  · rw [limitCall_step]
    exact duplicateFinished_of_ids fun o ho => hids o ho _

/-- Without the condition it fails: a crash between insertion and advance, then a replay. -/
theorem not_handedOff_after_crash : ¬ ∀ p : CreateSystem, (∀ c ∈ p.calls, c.pc = .start) →
    (∀ o ∈ p.shared.orders.rows, pastHandOff o.status = true) → ∀ l,
    Along (Pool.step CreateCall.next) HandedOff p l := by
  intro h
  have hall := h ⟨emptyDb, [limitCall 100 ⟨10⟩, limitCall 100 ⟨11⟩]⟩ (by decide) (fun o ho => (by cases ho))
    [0, 0, 0, 0, 1, 1]
  have hfit : orderFits (limitOrder 100 ⟨10⟩) = true := by
    rw [limitOrder, orderFits_built]
    decide +kernel
  obtain ⟨db, hins, hrows⟩ := insertRow_of_fresh (.at ⟨10⟩ noon) rfl hfit rfl (rfl : uniqueTaken emptyDb _ = false) rfl
    (by decide) rfl
  have hv := validateIntent_limit 100
  exact crash_not_handedOff (.at ⟨10⟩ noon) (.at ⟨11⟩ noon) hv hv rfl rfl rfl rfl rfl hins hrows hall

/-! ### One order per intent -/

/-- The immutable payload of an order. -/
structure OrderPayload where
  orchestrationId : Option String
  accountId : UUID
  instrumentId : UUID
  signalId : Option UUID
  strategyId : Option UUID
  side : String
  orderType : String
  tradingMode : String
  quantity : ℤ
  riskApprovalId : Option String
  limitPrice : Option ℚ
  strategyRunId : Option UUID
  strategyVersion : Option String
deriving DecidableEq

/-- The payload that is stored. -/
def rowPayload (o : Order) : OrderPayload where
  orchestrationId := o.orchestrationId
  accountId := o.brokerAccountId
  instrumentId := o.instrumentId
  signalId := o.signalId
  strategyId := o.strategyId
  side := o.side
  orderType := o.orderType
  tradingMode := o.tradingMode
  quantity := o.quantity.val
  riskApprovalId := o.riskApprovalId
  limitPrice := o.limitPrice
  strategyRunId := o.strategyRunId
  strategyVersion := o.strategyVersion

/-- The payload that is requested. -/
def OrderSpec.payload (spec : OrderSpec) : OrderPayload where
  orchestrationId := some spec.orchestrationId
  accountId := spec.accountId
  instrumentId := spec.instrumentId
  signalId := some spec.signalId
  strategyId := some spec.strategyId
  side := spec.side
  orderType := spec.orderType
  tradingMode := spec.tradingMode
  quantity := spec.quantity
  riskApprovalId := some spec.riskApprovalId
  limitPrice := spec.limitPrice.map Dec.val
  strategyRunId := spec.strategyRunId
  strategyVersion := some spec.strategyVersion

/-- The part of the payload that enters the identity key. -/
def OrderPayload.keyed (p : OrderPayload) : OrderPayload :=
  { p with limitPrice := none, strategyRunId := none, strategyVersion := none }

/-- The fields of the key, from the columns of a stored order. -/
def rowKeyFields (o : Order) : KeyFields where
  orchestrationId := o.orchestrationId.getD ""
  signalId := o.signalId.getD ⟨0⟩
  strategyId := o.strategyId.getD ⟨0⟩
  accountId := some o.brokerAccountId
  instrumentId := o.instrumentId
  side := o.side
  quantity := o.quantity.val
  orderType := o.orderType
  tradingMode := o.tradingMode
  riskApprovalId := o.riskApprovalId.getD ""

/-- The order was stored by `create_order`: its columns are filled and its identity key is the one they give. -/
structure KeyedRow (o : Order) : Prop where
  key : o.orderIdentityKey = some (computeOrderIdentityKey (rowKeyFields o))
  orchestrationId : o.orchestrationId.isSome
  signalId : o.signalId.isSome
  strategyId : o.strategyId.isSome
  riskApprovalId : o.riskApprovalId.isSome
  side : upper o.side = o.side
  orderType : upper o.orderType = o.orderType
  tradingMode : upper o.tradingMode = o.tradingMode

/-- Orders are stored by `create_order`, and no orchestration id has two. -/
structure StoredOrders (db : OrderDb) : Prop where
  keyed : ∀ o ∈ db.orders.rows, o.orchestrationId.isSome → KeyedRow o
  unique : ∀ o ∈ db.orders.rows, ∀ o' ∈ db.orders.rows, o.orchestrationId.isSome →
    o.orchestrationId = o'.orchestrationId → o.id = o'.id

/-- The inserted order has the key of its columns. -/
theorem keyedRow_toOrmOrder {intent : TradingIntent} {now : DateTime} {halt : Bool} {spec : OrderSpec} {q : Int4}
    (hv : validateIntent intent now halt = .ok spec) (hq : Int4.of? spec.quantity = some q) (id : UUID) :
    KeyedRow (toOrmOrder spec (buildOrderIdentity intent id spec.quantity) q) := by
  obtain ⟨account, n, ha, -, rfl⟩ := validateIntent_ok hv
  have hqv : q.val = n := Int4.of?_eq_some hq
  refine ⟨?_, rfl, rfl, rfl, rfl, upper_upper _, upper_upper _, upper_upper _⟩
  have hkey : keyText (keyFields intent n) =
      keyText (rowKeyFields (toOrmOrder (specOf intent n account) (buildOrderIdentity intent id n) q)) := by
    unfold keyText keyJson keyFields rowKeyFields toOrmOrder specOf
    simp only [ha, hqv, upper_upper, Option.getD_some]
  show some (computeOrderIdentityKey (keyFields intent n)) = _
  rw [computeOrderIdentityKey, computeOrderIdentityKey, hkey]
  rfl

/-- **Two payloads have the same key text iff they agree in the fields of the key.** -/
theorem keyText_eq_iff {intent : TradingIntent} {now : DateTime} {halt : Bool} {spec : OrderSpec} {o : Order}
    (hv : validateIntent intent now halt = .ok spec) (ho : KeyedRow o) :
    keyText (keyFields intent spec.quantity) = keyText (rowKeyFields o) ↔ spec.payload.keyed = (rowPayload o).keyed := by
  obtain ⟨account, n, ha, -, rfl⟩ := validateIntent_ok hv
  obtain ⟨x, hx⟩ := Option.isSome_iff_exists.mp ho.orchestrationId
  obtain ⟨g, hg⟩ := Option.isSome_iff_exists.mp ho.signalId
  obtain ⟨t, ht⟩ := Option.isSome_iff_exists.mp ho.strategyId
  obtain ⟨r, hr⟩ := Option.isSome_iff_exists.mp ho.riskApprovalId
  constructor
  · intro h
    obtain ⟨h1, h2, h3, h4, h5, h6, h7, h8, h9, h10⟩ := keyText_inj h
    simp only [keyFields, rowKeyFields, ha, hx, hg, ht, hr, ho.side, ho.orderType, ho.tradingMode,
      Option.getD_some, Option.some.injEq] at h1 h2 h3 h4 h5 h6 h7 h8 h9 h10
    simp only [OrderPayload.keyed, OrderSpec.payload, rowPayload, specOf, hx, hg, ht, hr, h1, h2, h3, h4, h6, h7,
      h8, h9, h10]
    rw [← h5]
    rfl
  · intro h
    simp only [OrderPayload.keyed, OrderSpec.payload, rowPayload, specOf, hx, hg, ht, hr, OrderPayload.mk.injEq,
      Option.some.injEq] at h
    obtain ⟨h1, h2, h3, h4, h5, h6, h7, h8, h9, h10, -⟩ := h
    show keyText (keyFields intent n) = _
    unfold keyText keyJson
    simp only [keyFields, rowKeyFields, ha, hx, hg, ht, hr, ho.side, ho.orderType, ho.tradingMode,
      Option.getD_some, h1, h2, h3, h4, h5, h6, h7, h8, h9, h10]

/-- The rows of `db'` are those of `db`, up to status. -/
def SameOrders (db db' : OrderDb) : Prop :=
  (∀ o' ∈ db'.orders.rows, ∃ o ∈ db.orders.rows, ∃ s, o' = withStatus s o) ∧
    ∀ o ∈ db.orders.rows, ∃ s, withStatus s o ∈ db'.orders.rows

theorem sameOrders_of_append {db db' : OrderDb} {orderId : UUID} {event : OrderEvent} {s : OrderState}
    (h : appendEvent db orderId event s = .ok db') : SameOrders db db' := by
  obtain ⟨row, hrow, hnew, hoth, -⟩ := appendEvent_ok h
  have hrowmem : row ∈ db.orders.rows := (Table.get_eq_some_iff.mp hrow).1
  have hnewmem : withStatus s row ∈ db'.orders.rows := (Table.get_eq_some_iff.mp hnew).1
  constructor
  · intro o' ho'
    have hget : db'.orders.get o'.id = some o' := Table.get_eq_some_iff.mpr ⟨ho', rfl⟩
    by_cases hid : o'.id = orderId
    · rw [hid, hnew] at hget
      cases hget
      exact ⟨row, hrowmem, s, rfl⟩
    · rw [hoth _ hid] at hget
      exact ⟨o', (Table.get_eq_some_iff.mp hget).1, o'.status, rfl⟩
  · intro o ho
    have hget : db.orders.get o.id = some o := Table.get_eq_some_iff.mpr ⟨ho, rfl⟩
    by_cases hid : o.id = orderId
    · rw [hid, hrow] at hget
      cases hget
      exact ⟨s, hnewmem⟩
    · rw [← hoth _ hid] at hget
      exact ⟨o.status, (Table.get_eq_some_iff.mp hget).1⟩

/-- Everything about a row but its status stays. -/
theorem KeyedRow.withStatus {o : Order} (h : KeyedRow o) (s : OrderState) : KeyedRow (withStatus s o) :=
  ⟨h.key, h.orchestrationId, h.signalId, h.strategyId, h.riskApprovalId, h.side, h.orderType, h.tradingMode⟩

theorem StoredOrders.of_same {db db' : OrderDb} (h : StoredOrders db) (hs : SameOrders db db') : StoredOrders db' := by
  constructor
  · intro o' ho' hx
    obtain ⟨o, ho, s, rfl⟩ := hs.1 o' ho'
    exact (h.keyed o ho hx).withStatus s
  · intro o' ho' p' hp' hx heq
    obtain ⟨o, ho, s, rfl⟩ := hs.1 o' ho'
    obtain ⟨p, hp, t, rfl⟩ := hs.1 p' hp'
    exact h.unique o ho p hp hx heq

theorem StoredOrders.of_insert {db db' : OrderDb} {c : CreateCall} {spec : OrderSpec} {identity : OrderIdentity}
    (h : StoredOrders db) (hv : validateIntent c.intent c.env.validatedAt c.env.globalHaltActive = .ok spec)
    (hid : identity = buildOrderIdentity c.intent c.env.orderId spec.quantity)
    (hins : insertRow db spec identity c.env = .ok db') : StoredOrders db' := by
  obtain ⟨q, hq, hrows, -, -, hnew⟩ := insertRow_ok hins
  subst hid
  have hcases : ∀ o ∈ db'.orders.rows, o ∈ db.orders.rows ∨
      o = toOrmOrder spec (buildOrderIdentity c.intent c.env.orderId spec.quantity) q := by
    intro o ho
    rw [hrows] at ho
    rcases List.mem_append.mp ho with ho | ho
    · exact Or.inl ho
    · exact Or.inr (List.mem_singleton.mp ho)
  constructor
  · intro o ho hx
    rcases hcases o ho with ho | rfl
    · exact h.keyed o ho hx
    · exact keyedRow_toOrmOrder hv hq c.env.orderId
  · intro o ho o' ho' hx heq
    rcases hcases o ho with ho | rfl <;> rcases hcases o' ho' with ho' | rfl
    · exact h.unique o ho o' ho' hx heq
    · exact absurd heq (hnew o ho)
    · exact absurd heq.symm (hnew o' ho')
    · rfl

/-- Every step keeps one order per orchestration id. -/
theorem CreateStep.stored {db db' : OrderDb} {intent : TradingIntent} {env : CreateEnv} {pc pc' : CreatePc}
    (hstep : CreateStep db intent env pc db' pc') (hs : CreateCall.Sound ⟨intent, env, pc⟩) (h : StoredOrders db) :
    StoredOrders db' := by
  cases hstep with
  | @inserted spec identity _ _ hins _ =>
    obtain ⟨hv, hid⟩ := hs spec identity rfl
    exact h.of_insert hv hid hins
  | internal happ _ => exact h.of_same (sameOrders_of_append happ)
  | submission happ _ => exact h.of_same (sameOrders_of_append happ)
  | _ => exact h

/-- Stored orders stay stored. -/
theorem CreateStep.persist {db db' : OrderDb} {intent : TradingIntent} {env : CreateEnv} {pc pc' : CreatePc}
    (hstep : CreateStep db intent env pc db' pc') {o : Order} (ho : o ∈ db.orders.rows) :
    ∃ s, withStatus s o ∈ db'.orders.rows := by
  cases hstep with
  | inserted hins _ =>
    obtain ⟨q, -, hrows, -⟩ := insertRow_ok hins
    rw [hrows]
    exact ⟨o.status, List.mem_append_left _ ho⟩
  | internal happ _ => exact (sameOrders_of_append happ).2 o ho
  | submission happ _ => exact (sameOrders_of_append happ).2 o ho
  | _ => exact ⟨o.status, ho⟩

/-- The call is to look its orchestration id up, or has found it stored. -/
def CreatePc.looksUp : CreatePc → Bool
  | .start => true
  | .find _ _ => true
  | .check _ _ => true
  | .insert _ _ => true
  | .reread _ _ => true
  | .resolve _ _ (some _) => true
  | _ => false

/-- The steps that such a call has before it. -/
def CreatePc.remaining : CreatePc → ℕ
  | .start => 6
  | .find _ _ => 5
  | .check _ _ => 4
  | .insert _ _ => 3
  | .reread _ _ => 2
  | .resolve _ _ _ => 1
  | _ => 0

/-- The transaction of the next step does not fail, and the row that it is to insert fits its columns. -/
def CreateCall.Undisturbed (c : CreateCall) : Prop :=
  match c.pc with
  | .find _ _ => c.env.findFails = false
  | .check _ _ => c.env.checkFails = false
  | .insert spec identity => c.env.insertFault ≠ .lost ∧
      ∃ q, Int4.of? spec.quantity = some q ∧ orderFits (toOrmOrder spec identity q) = true
  | .reread _ _ => c.env.rereadFails = false
  | .resolve _ _ _ => c.env.resolveFails = false
  | _ => True

/-- The condition on a step of a repeated call: the intent passes its validation, no transaction fails, the identity
hash does not collide, and a request that agrees with the stored order in the fields of the key agrees with it in
limit price, strategy run and strategy version. -/
def KeyCovers (db : OrderDb) (c : CreateCall) : Prop :=
  ∀ o ∈ db.orders.rows, o.orchestrationId = some c.intent.orchestrationId → c.pc.looksUp = true →
    c.Undisturbed ∧ ∃ spec, validateIntent c.intent c.env.validatedAt c.env.globalHaltActive = .ok spec ∧
      (computeOrderIdentityKey (keyFields c.intent spec.quantity) = computeOrderIdentityKey (rowKeyFields o) →
        keyText (keyFields c.intent spec.quantity) = keyText (rowKeyFields o)) ∧
      (spec.payload.keyed = (rowPayload o).keyed → spec.payload = rowPayload o)

/-- What the contract asks of a step of a repeated call: it comes closer to its end, answers a duplicate and the payload
is the stored one, or raises the conflict and the payload is another. -/
def AnswersReplay (db : OrderDb) (c : CreateCall) : Prop :=
  ∀ o ∈ db.orders.rows, o.orchestrationId = some c.intent.orchestrationId → c.pc.looksUp = true →
    ∃ spec, validateIntent c.intent c.env.validatedAt c.env.globalHaltActive = .ok spec ∧
      (((c.next db).2.pc.looksUp = true ∧ (c.next db).2.pc.remaining < c.pc.remaining) ∨
        ((c.next db).2.pc = .returned (duplicateOf o) ∧ spec.payload = rowPayload o) ∨
        ((c.next db).2.pc = .raised conflict ∧ spec.payload ≠ rowPayload o))

/-- A call that is to read an order by its id found it under its orchestration id. -/
def FoundStored (db : OrderDb) (c : CreateCall) : Prop :=
  ∀ spec identity id, c.pc = .resolve spec identity (some id) →
    ∃ o ∈ db.orders.rows, o.id = id ∧ o.orchestrationId = some c.intent.orchestrationId

/-- The orders and the calls of a schedule. -/
structure IdempotenceInv (p : CreateSystem) : Prop where
  sound : ∀ c ∈ p.calls, c.Sound
  stored : StoredOrders p.shared
  found : ∀ c ∈ p.calls, FoundStored p.shared c

theorem spec_orchestrationId {intent : TradingIntent} {now : DateTime} {halt : Bool} {spec : OrderSpec}
    (hv : validateIntent intent now halt = .ok spec) : spec.orchestrationId = intent.orchestrationId := by
  obtain ⟨account, n, -, -, rfl⟩ := validateIntent_ok hv
  rfl

/-- A call comes to read an order by its id only from the two lookups. -/
theorem CreateStep.foundStored {db db' : OrderDb} {intent : TradingIntent} {env : CreateEnv} {pc pc' : CreatePc}
    (hstep : CreateStep db intent env pc db' pc') (hs : CreateCall.Sound ⟨intent, env, pc⟩) :
    FoundStored db' ⟨intent, env, pc'⟩ := by
  intro spec identity id hr
  simp only at hr
  have key : ∀ {s : OrderSpec} {i : OrderIdentity} {o : Order}, pc.prepared = some (s, i) →
      findByOrchestrationId db s.orchestrationId = some o → o ∈ db.orders.rows ∧
        o.orchestrationId = some intent.orchestrationId := by
    intro s i o hp hf
    obtain ⟨hmem, hx, -⟩ := findByOrchestrationId_some hf
    exact ⟨hmem, by rw [hx, spec_orchestrationId (hs s i hp).1]⟩
  cases hstep with
  | @taken s i o hf =>
    cases hr
    exact ⟨o, (key rfl hf).1, rfl, (key rfl hf).2⟩
  | @reread s i =>
    simp only [CreatePc.resolve.injEq, Option.map_eq_some_iff] at hr
    obtain ⟨-, -, o, hf, hid⟩ := hr
    exact ⟨o, (key rfl hf).1, hid, (key rfl hf).2⟩
  | @found s i o hf => rcases resolved_cases (some o) i with ⟨r, h⟩ | ⟨err, h⟩ <;> rw [h] at hr <;> cases hr
  | @resolve s i x =>
    rcases resolved_cases (x.bind (findById db)) i with ⟨r, h⟩ | ⟨err, h⟩ <;> rw [h] at hr <;> cases hr
  | inserted _ hc | internal _ hc | submission _ hc => rcases hc with rfl | ⟨err, rfl⟩ <;> cases hr
  | ended h => subst hr; cases h
  | refused _ | validated _ | findFailed _ | missing _ | checkFailed _ | free _ | violated _ | insertFailed _
    | rereadFailed _ | resolveFailed _ | internalFailed | submissionFailed => cases hr

theorem IdempotenceInv.step {p : CreateSystem} (h : IdempotenceInv p) (i : ℕ) :
    IdempotenceInv (p.step CreateCall.next i) := by
  cases hc : p.calls[i]? with
  | none => rw [Pool.step_of_none hc]; exact h
  | some c =>
    have hmem := List.mem_of_getElem? hc
    have hshared : (p.step CreateCall.next i).shared = (c.next p.shared).1 := by rw [Pool.step_of_some hc]
    refine ⟨sound_step h.sound i, ?_, ?_⟩
    · rw [hshared]
      exact (createStep_next p.shared c.intent c.env c.pc).stored (h.sound c hmem) h.stored
    · rw [hshared]
      refine Pool.forall_step hc (fun d hd spec identity id hr => ?_) 
        ((createStep_next p.shared c.intent c.env c.pc).foundStored (h.sound c hmem))
      obtain ⟨o, ho, hid, hx⟩ := h.found d hd spec identity id hr
      obtain ⟨s, hs⟩ := (createStep_next p.shared c.intent c.env c.pc).persist ho
      exact ⟨_, hs, hid, hx⟩

/-- The stored order of an orchestration id is found under it. -/
theorem StoredOrders.find {db : OrderDb} (h : StoredOrders db) {o : Order} {x : String} (ho : o ∈ db.orders.rows)
    (hx : o.orchestrationId = some x) : findByOrchestrationId db x = some o := by
  cases hf : findByOrchestrationId db x with
  | none =>
    have := List.find?_eq_none.mp hf o ho
    simp [hx] at this
  | some o' =>
    obtain ⟨hmem, hx', hget⟩ := findByOrchestrationId_some hf
    have hid := h.unique o' hmem o ho (by rw [hx']; rfl) (hx'.trans hx.symm)
    have hget' : findById db o.id = some o := Table.get_eq_some_iff.mpr ⟨ho, rfl⟩
    rw [hid, hget'] at hget
    rw [Option.some.inj hget]

/-- An order of a stored orchestration id violates a unique constraint. -/
theorem insertRow_violates {db : OrderDb} {spec : OrderSpec} {identity : OrderIdentity} (env : CreateEnv) {o : Order}
    {q : Int4} (ho : o ∈ db.orders.rows) (hx : o.orchestrationId = some spec.orchestrationId)
    (hq : Int4.of? spec.quantity = some q) (hfit : orderFits (toOrmOrder spec identity q) = true) :
    insertRow db spec identity env = .error .integrityError := by
  have hu : uniqueTaken db (toOrmOrder spec identity q) = true := by
    refine List.any_eq_true.mpr ⟨o, ho, ?_⟩
    simp [toOrmOrder, hx]
  unfold insertRow insertOrder
  simp only [hq, hfit, hu, Bool.not_true, Bool.or_true, Bool.false_eq_true, if_false, if_true]

/-- Under the condition the key tells the payloads apart. -/
theorem key_eq_iff {c : CreateCall} {spec : OrderSpec} {o : Order} (ho : KeyedRow o)
    (hv : validateIntent c.intent c.env.validatedAt c.env.globalHaltActive = .ok spec)
    (hcol : computeOrderIdentityKey (keyFields c.intent spec.quantity) = computeOrderIdentityKey (rowKeyFields o) →
      keyText (keyFields c.intent spec.quantity) = keyText (rowKeyFields o))
    (hcov : spec.payload.keyed = (rowPayload o).keyed → spec.payload = rowPayload o) :
    o.orderIdentityKey = some (identityOf c.intent c.env spec).orderIdentityKey ↔ spec.payload = rowPayload o := by
  rw [ho.key, Option.some.injEq]
  constructor
  · intro h
    exact hcov ((keyText_eq_iff hv ho).mp (hcol h.symm))
  · intro h
    have htext := (keyText_eq_iff hv ho).mpr (by rw [h])
    exact (congrArg sha256 htext).symm

/-- A call that reads the stored order answers as the contract asks. -/
theorem resolved_answers {c : CreateCall} {spec : OrderSpec} {o : Order} (ho : KeyedRow o)
    (hv : validateIntent c.intent c.env.validatedAt c.env.globalHaltActive = .ok spec)
    (hcol : computeOrderIdentityKey (keyFields c.intent spec.quantity) = computeOrderIdentityKey (rowKeyFields o) →
      keyText (keyFields c.intent spec.quantity) = keyText (rowKeyFields o))
    (hcov : spec.payload.keyed = (rowPayload o).keyed → spec.payload = rowPayload o) :
    (resolved (some o) (identityOf c.intent c.env spec) = .returned (duplicateOf o) ∧ spec.payload = rowPayload o) ∨
      (resolved (some o) (identityOf c.intent c.env spec) = .raised conflict ∧ spec.payload ≠ rowPayload o) := by
  by_cases hk : o.orderIdentityKey = some (identityOf c.intent c.env spec).orderIdentityKey
  · exact Or.inl ⟨resolved_of_key hk, (key_eq_iff ho hv hcol hcov).mp hk⟩
  · exact Or.inr ⟨resolved_of_ne hk, fun h => hk ((key_eq_iff ho hv hcol hcov).mpr h)⟩

/-- A step that meets the condition answers as the contract asks. -/
theorem answersReplay_of_keyCovers {db : OrderDb} {c : CreateCall} (hs : c.Sound) (hdb : StoredOrders db)
    (hfound : FoundStored db c) (hG : KeyCovers db c) : AnswersReplay db c := by
  intro o ho hx hl
  obtain ⟨hund, spec, hv, hcol, hcov⟩ := hG o ho hx hl
  refine ⟨spec, hv, ?_⟩
  have hrow := hdb.keyed o ho (by rw [hx]; rfl)
  have hfind := hdb.find ho hx
  have hspec := spec_orchestrationId hv
  have hanswer := resolved_answers hrow hv hcol hcov
  -- what the call carries is the spec and the identity of its intent
  have hown : ∀ {s : OrderSpec} {i : OrderIdentity}, c.pc.prepared = some (s, i) →
      s = spec ∧ i = identityOf c.intent c.env spec := by
    intro s i hp
    obtain ⟨hv', hi⟩ := hs s i hp
    rw [hv] at hv'
    cases hv'
    exact ⟨rfl, hi⟩
  have hnext : (c.next db).2.pc = (nextCreate db c.intent c.env c.pc).2 := rfl
  unfold CreateCall.Undisturbed at hund
  rw [hnext]
  cases hp : c.pc with
  | start =>
    left
    simp only [nextCreate, hv]
    exact ⟨rfl, show 5 < 6 by omega⟩
  | find s i =>
    obtain ⟨rfl, rfl⟩ := hown (s := s) (i := i) (by rw [hp]; rfl)
    rw [hp] at hund
    right
    simp only [nextCreate, hund, hspec, hfind, Bool.false_eq_true, if_false]
    exact hanswer
  | check s i =>
    obtain ⟨rfl, rfl⟩ := hown (s := s) (i := i) (by rw [hp]; rfl)
    rw [hp] at hund
    left
    simp only [nextCreate, hund, hspec, hfind, Bool.false_eq_true, if_false]
    exact ⟨rfl, show 1 < 4 by omega⟩
  | insert s i =>
    obtain ⟨rfl, rfl⟩ := hown (s := s) (i := i) (by rw [hp]; rfl)
    rw [hp] at hund
    obtain ⟨hfault, q, hq, hfit⟩ := hund
    left
    have hins := insertRow_violates c.env ho (by rw [hx, hspec]) hq hfit
    simp only [nextCreate, hins]
    cases hf : c.env.insertFault with
    | lost => exact absurd hf hfault
    | none => exact ⟨rfl, show 2 < 3 by omega⟩
    | unacknowledged => exact ⟨rfl, show 2 < 3 by omega⟩
  | reread s i =>
    obtain ⟨rfl, rfl⟩ := hown (s := s) (i := i) (by rw [hp]; rfl)
    rw [hp] at hund
    left
    simp only [nextCreate, hund, hspec, hfind, Bool.false_eq_true, if_false]
    exact ⟨rfl, show 1 < 2 by omega⟩
  | resolve s i x =>
    obtain ⟨rfl, rfl⟩ := hown (s := s) (i := i) (by rw [hp]; rfl)
    rw [hp] at hund hl
    cases x with
    | none => cases hl
    | some id =>
      obtain ⟨o', ho', hid, hx'⟩ := hfound s _ id hp
      have heq : o' = o := Option.some.inj ((hdb.find ho' hx').symm.trans hfind)
      have hget : findById db id = some o := by
        rw [← hid, heq]
        exact Table.get_eq_some_iff.mpr ⟨ho, rfl⟩
      right
      simp only [nextCreate, hund, Option.bind_some, hget, Bool.false_eq_true, if_false]
      exact hanswer
  | internal _ _ | submission _ _ | returned _ | raised _ | abandoned _ => rw [hp] at hl; cases hl

/-- **One order per intent**: from orders stored by `create_order`, at every point of every schedule no orchestration
id has two orders; and as long as each step of a repeated call meets the condition, a repeated call answers a
duplicate for the stored payload and raises the conflict for any other. -/
theorem create_order_idempotent {p : CreateSystem} (hstart : ∀ c ∈ p.calls, c.pc = .start)
    (hstored : StoredOrders p.shared) (l : List ℕ)
    (hG : Along (Pool.step CreateCall.next) (Pool.OnCall KeyCovers) p l) :
    (∀ l', l' <+: l → StoredOrders (createSchedule p l').shared) ∧
      Along (Pool.step CreateCall.next) (Pool.OnCall AnswersReplay) p l := by
  have hinit : IdempotenceInv p := by
    refine ⟨fun c hc => soundCall_start (hstart c hc), hstored, fun c hc spec identity id hr => ?_⟩
    rw [hstart c hc] at hr
    cases hr
  constructor
  · intro l' _
    exact (run_invariant (Pool.step CreateCall.next) IdempotenceInv (fun _ i h => h.step i) hinit l').stored
  · refine hG.steps (I := IdempotenceInv) (fun p i h _ => h.step i) (fun p i h hG c hc => ?_) hinit
    have hmem := List.mem_of_getElem? hc
    exact answersReplay_of_keyCovers (h.sound c hmem) h.stored (h.found c hmem) (hG c hc)

theorem storedOrders_limitDb (limitPrice : ℕ) (id : UUID) : StoredOrders (limitDb limitPrice id) := by
  have hrow : KeyedRow (limitOrder limitPrice id) := keyedRow_toOrmOrder (validateIntent_limit limitPrice) rfl id
  constructor
  · intro o ho _
    rw [List.mem_singleton.mp ho]
    exact hrow.withStatus .submissionRequested
  · intro o ho o' ho' _ _
    rw [List.mem_singleton.mp ho, List.mem_singleton.mp ho']

/-- The replay of a stored intent. -/
theorem create_order_idempotent_replay :
    StoredOrders (createSchedule ⟨limitDb 100 ⟨9⟩, [limitCall 100 ⟨10⟩]⟩ [0, 0]).shared ∧
      Along (Pool.step CreateCall.next) (Pool.OnCall AnswersReplay) ⟨limitDb 100 ⟨9⟩, [limitCall 100 ⟨10⟩]⟩ [0, 0] := by
  have hstored := storedOrders_limitDb 100 ⟨9⟩
  have hprice : (some (Dec.ofNat 100).val : Option ℚ) = some (numeric4 (Dec.ofNat 100).val) := by decide +kernel
  have hpayload : (limitSpec 100).payload = rowPayload (withStatus .submissionRequested (limitOrder 100 ⟨9⟩)) := by
    unfold OrderSpec.payload rowPayload
    rw [OrderPayload.mk.injEq]
    exact ⟨rfl, rfl, rfl, rfl, rfl, rfl, rfl, rfl, rfl, rfl, hprice, rfl, rfl⟩
  have hcovers : ∀ pc, (CreateCall.mk (limitIntent 100) (.at ⟨10⟩ noon) pc).Undisturbed →
      KeyCovers (limitDb 100 ⟨9⟩) ⟨limitIntent 100, .at ⟨10⟩ noon, pc⟩ := by
    intro pc hund o ho _ _
    have hrow := hstored.keyed o ho (by rw [List.mem_singleton.mp ho]; rfl)
    rw [List.mem_singleton.mp ho] at hrow ⊢
    refine ⟨hund, limitSpec 100, validateIntent_limit 100, fun _ => ?_, fun _ => hpayload⟩
    exact (keyText_eq_iff (validateIntent_limit 100) hrow).mpr (by rw [hpayload])
  have hG : Along (Pool.step CreateCall.next) (Pool.OnCall KeyCovers) ⟨limitDb 100 ⟨9⟩, [limitCall 100 ⟨10⟩]⟩
      [0, 0] := by
    refine ⟨?_, ?_, trivial⟩
    · rintro c ⟨⟩
      exact hcovers .start trivial
    · rw [limitCall_step]
      rintro c ⟨⟩
      exact hcovers _ rfl
  have hstart : ∀ c ∈ [limitCall 100 ⟨10⟩], c.pc = .start := by
    intro c hc
    rw [List.mem_singleton.mp hc]
    rfl
  exact ⟨(create_order_idempotent hstart hstored [0, 0] hG).1 _ List.prefix_rfl,
    (create_order_idempotent hstart hstored [0, 0] hG).2⟩

/-- The key does not see the limit price: another limit under the same orchestration id is answered as a
duplicate. -/
theorem not_answersReplay_limitPrice : ¬ ∀ p : CreateSystem, (∀ c ∈ p.calls, c.pc = .start) →
    StoredOrders p.shared → ∀ l,
    (∀ l', l' <+: l → StoredOrders (createSchedule p l').shared) ∧
      Along (Pool.step CreateCall.next) (Pool.OnCall AnswersReplay) p l := by
  intro h
  have hstart : ∀ c ∈ [limitCall 200 ⟨10⟩], c.pc = .start := by
    intro c hc
    rw [List.mem_singleton.mp hc]
    rfl
  have hall := (h ⟨limitDb 100 ⟨9⟩, [limitCall 200 ⟨10⟩]⟩ hstart (storedOrders_limitDb 100 ⟨9⟩) [0, 0]).2.2.1
  rw [limitCall_step] at hall
  obtain ⟨spec, hv, hanswer⟩ := hall _ rfl _ (List.mem_singleton.mpr rfl) rfl rfl
  have hspec : spec = limitSpec 200 := Except.ok.inj (hv.symm.trans (validateIntent_limit 200))
  have hkeys : keyFields (limitIntent 100) 10 = keyFields (limitIntent 200) 10 := rfl
  have hkey : (withStatus .submissionRequested (limitOrder 100 ⟨9⟩)).orderIdentityKey =
      some (identityOf (limitIntent 200) (.at ⟨10⟩ noon) (limitSpec 200)).orderIdentityKey :=
    congrArg (fun k => some (computeOrderIdentityKey k)) hkeys
  have hfind : findByOrchestrationId (limitDb 100 ⟨9⟩) (limitSpec 200).orchestrationId = _ :=
    (storedOrders_limitDb 100 ⟨9⟩).find (List.mem_singleton.mpr rfl) rfl
  have hnext := next_find_some (limitIntent 200) (.at ⟨10⟩ noon)
    (identityOf (limitIntent 200) (.at ⟨10⟩ noon) (limitSpec 200)) rfl hfind
  rw [resolved_of_key hkey] at hnext
  have hpc := congrArg (fun x => x.2.pc) hnext
  simp only at hpc
  rw [hpc] at hanswer
  rcases hanswer with ⟨hl, -⟩ | ⟨-, hpayload⟩ | ⟨hraised, -⟩
  · cases hl
  · rw [hspec] at hpayload
    have hprice := congrArg OrderPayload.limitPrice hpayload
    change (some (Dec.ofNat 200).val : Option ℚ) = some (numeric4 (Dec.ofNat 100).val) at hprice
    exact absurd hprice (by decide +kernel)
  · cases hraised

end AlphaAlgo.Oms
