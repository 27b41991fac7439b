import AlphaAlgo.Execution.Submission

/-!
# Outcomes — what a submission returns against what it stores

* `submitAttempt_ok`: what an attempt that returns has done.
* `submitAttempt_later_raises`: once an attempt was retried, no outcome is returned.
* `submit_settled_iff`: when a submission returns, stores its last state and is repeated by every later submission:
  exactly when the execution is known already or takes one attempt that can be concluded.
-/

namespace AlphaAlgo.Execution

open Runs

/-! ### Attempts -/

/-- **What a stored attempt does.** -/
theorem saveAttempt_ok {db db' : ExecDb} {a : ExecutionAttempt} (h : saveAttempt db a = .ok db') :
    attemptFits (toOrmAttempt a) = true ∧ (db.orders.get a.orderId).isSome ∧ db'.toOrderDb = db.toOrderDb ∧
      db.attempts.insert? (toOrmAttempt a) = some db'.attempts := by
  unfold saveAttempt at h
  split_ifs at h with hf ho
  cases hi : db.attempts.insert? (toOrmAttempt a) with
  | none => rw [hi] at h; cases h
  | some t =>
    rw [hi] at h
    cases h
    refine ⟨by simpa using hf, ?_, rfl, rfl⟩
    cases hg : db.orders.get a.orderId with
    | none => rw [hg] at ho; exact absurd rfl ho
    | some o => rfl

/-- An attempt with a new number is stored. -/
theorem saveAttempt_of_new (db : ExecDb) {a : ExecutionAttempt} (hf : attemptFits (toOrmAttempt a) = true)
    (ho : (db.orders.get a.orderId).isSome) (hn : db.attempts.get (a.executionId, a.attemptNumber) = none) :
    ∃ db', saveAttempt db a = .ok db' := by
  obtain ⟨t, ht⟩ := Table.insert?_of_get_none (t := db.attempts) (r := toOrmAttempt a) hn
  refine ⟨{ db with attempts := t }, ?_⟩
  obtain ⟨o, ho⟩ := Option.isSome_iff_exists.mp ho
  unfold saveAttempt
  simp only [hf, ho, ht, Bool.not_true, Option.isNone_some, Bool.false_eq_true, if_false]

theorem get_of_saveAttempt {db db' : ExecDb} {a : ExecutionAttempt} (h : saveAttempt db a = .ok db')
    (k : String × ℕ) : db'.attempts.get k =
      if (a.executionId, a.attemptNumber) = k then some (toOrmAttempt a) else db.attempts.get k :=
  Table.get_of_insert (saveAttempt_ok h).2.2.2 k

/-- An update leaves the orders and the attempts of other executions. -/
theorem updateAttempt_other {db db' : ExecDb} {e : String} {n : ℕ} {state : ExecutionSubmissionState}
    {b : Option String} {t : DateTime} {reason : String}
    (h : updateAttempt db (computeAttemptId e n) state b t reason = .ok db') :
    db'.toOrderDb = db.toOrderDb ∧ ∀ k, k.1 ≠ e → db'.attempts.get k = db.attempts.get k := by
  unfold updateAttempt at h
  rw [executionIdFromAttemptId_compute] at h
  cases hr : attemptsOf db e with
  | nil => rw [hr] at h; cases h; exact ⟨rfl, fun _ _ => rfl⟩
  | cons r l =>
    rw [hr] at h
    cases l with
    | cons r' l' => cases h
    | nil =>
      simp only at h
      split_ifs at h
      cases h
      have hre : r.executionId = e := by
        have hm : r ∈ attemptsOf db e := by rw [hr]; exact List.mem_singleton.mpr rfl
        simpa using (List.mem_filter.mp hm).2
      refine ⟨rfl, fun k hk => Table.get_modify_of_ne _ _ (respondedRow_key state b t reason) fun hkr => hk ?_⟩
      rw [hkr]
      exact hre

/-- The only attempt of an execution is updated. -/
theorem updateAttempt_single (db : ExecDb) {e : String} {n : ℕ} {r : AttemptRow} (hr : attemptsOf db e = [r])
    (state : ExecutionSubmissionState) {b : Option String} (t : DateTime) (reason : String)
    (hb : b.all (fits 100) = true) :
    ∃ db', updateAttempt db (computeAttemptId e n) state b t reason = .ok db' ∧
      db'.attempts.get r.key = some (respondedRow state b t reason r) := by
  have hm : r ∈ db.attempts.rows := by
    have : r ∈ attemptsOf db e := by rw [hr]; exact List.mem_singleton.mpr rfl
    exact (List.mem_filter.mp this).1
  have hget : db.attempts.get r.key = some r := Table.get_eq_some_iff.mpr ⟨hm, rfl⟩
  unfold updateAttempt
  rw [executionIdFromAttemptId_compute, hr]
  simp only [hb, Bool.not_true, Bool.false_eq_true, if_false]
  refine ⟨_, rfl, ?_⟩
  simp only
  rw [Table.get_modify_self, hget]
  rfl

/-- Two attempts of one execution make the update fail. -/
theorem updateAttempt_two (db : ExecDb) {e : String} {n i j : ℕ} (hij : i ≠ j)
    (hi : (db.attempts.get (e, i)).isSome) (hj : (db.attempts.get (e, j)).isSome)
    (state : ExecutionSubmissionState) (b : Option String) (t : DateTime) (reason : String) :
    updateAttempt db (computeAttemptId e n) state b t reason = .error .multipleResultsFound := by
  obtain ⟨r, hr⟩ := Option.isSome_iff_exists.mp hi
  obtain ⟨s, hs⟩ := Option.isSome_iff_exists.mp hj
  obtain ⟨hrm, hrk⟩ := Table.get_eq_some_iff.mp hr
  obtain ⟨hsm, hsk⟩ := Table.get_eq_some_iff.mp hs
  have hne : r ≠ s := by
    rintro rfl
    rw [hrk] at hsk
    exact hij (Prod.mk.inj hsk).2
  have hr' : r ∈ attemptsOf db e := List.mem_filter.mpr ⟨hrm, decide_eq_true (Prod.mk.inj hrk).1⟩
  have hs' : s ∈ attemptsOf db e := List.mem_filter.mpr ⟨hsm, decide_eq_true (Prod.mk.inj hsk).1⟩
  unfold updateAttempt
  rw [executionIdFromAttemptId_compute]
  cases hl : attemptsOf db e with
  | nil => rw [hl] at hr'; cases hr'
  | cons x l =>
    cases l with
    | cons y l => rfl
    | nil =>
      rw [hl] at hr' hs'
      exact absurd ((List.mem_singleton.mp hr').trans (List.mem_singleton.mp hs').symm) hne

theorem attemptsOf_of_saveAttempt {db db' : ExecDb} {a : ExecutionAttempt} (h : saveAttempt db a = .ok db') :
    attemptsOf db' a.executionId = attemptsOf db a.executionId ++ [toOrmAttempt a] := by
  obtain ⟨-, -, -, hi⟩ := saveAttempt_ok h
  unfold attemptsOf
  rw [(Table.insert?_eq_some hi).2, List.filter_append]
  simp [toOrmAttempt]

/-! ### Replies that can be concluded -/

/-- The statuses of a response that are told to the order. -/
def toldStatuses : List ExecutionSubmissionState := [.acknowledged, .rejected, .timeout, .unknown]

/-- The reply leads to an outcome: no foreign exception, a broker order id that the column takes, and reason and
clock such that the event, if there is one, can be built. -/
def Concludes (env : EngineEnv) : Reply → Prop
  | .response r => r.brokerOrderId.all (fits 100) = true ∧ (r.status ∈ toldStatuses → blank r.reason = false)
  | .transient _ => True
  | .timeout text => env.timedOutAt.aware = true ∧ blank text = false
  | .error _ _ => True
  | .other => False

instance (env : EngineEnv) : ∀ reply, Decidable (Concludes env reply)
  | .response _ => inferInstanceAs (Decidable (_ ∧ _))
  | .transient _ => inferInstanceAs (Decidable True)
  | .timeout _ => inferInstanceAs (Decidable (_ ∧ _))
  | .error _ _ => inferInstanceAs (Decidable True)
  | .other => inferInstanceAs (Decidable False)

theorem requireStamp_ok_iff {t : DateTime} {reason : String} :
    requireStamp t reason = .ok () ↔ t.aware = true ∧ blank reason = false := by
  unfold requireStamp
  cases t.aware <;> cases blank reason <;> simp

/-- Events without a fill carry a zero quantity. -/
theorem val_noFill : (⟨false, 0, 0⟩ : Dec).val = 0 := by
  simp [Dec.val]

theorem responseEvent_valid_iff {orderId : UUID} {t : OrderEventType} {r : ExecutionResponse}
    (ht : t.isFill = false) : (responseEvent orderId t r).Valid ↔ blank r.reason = false := by
  constructor
  · intro h
    exact (requireStamp_ok_iff.mp h.stamp).2
  · intro h
    refine ⟨requireStamp_ok_iff.mpr ⟨r.aware, h⟩, fun hf => ?_, fun _ => val_noFill⟩
    rw [responseEvent, ht] at hf
    cases hf

/-- **A reply concludes when** its event is valid and its broker order id fits. -/
theorem concludes_iff {env : EngineEnv} (req : ExecutionRequest) {reply : Reply} :
    Concludes env reply ↔ ∃ c, concludeReply env req reply = some c ∧ (∀ f, c.event = some f → f.Valid) ∧
      c.brokerOrderId.all (fits 100) = true := by
  cases reply with
  | transient text => simp [Concludes, concludeReply]
  | error k text => cases k <;> simp [Concludes, concludeReply]
  | other => simp [Concludes, concludeReply]
  | timeout text =>
    simp only [Concludes, concludeReply, Option.some.injEq, exists_eq_left', Option.all_none, and_true, forall_eq']
    constructor
    · intro h
      exact ⟨requireStamp_ok_iff.mpr h, fun hf => (by cases hf), fun _ => val_noFill⟩
    · intro h
      exact requireStamp_ok_iff.mp h.stamp
  | response r =>
    simp only [Concludes, concludeReply, Option.some.injEq, exists_eq_left']
    unfold processResponse
    cases hs : r.status <;>
      simp [toldStatuses, responseEvent_valid_iff (t := .brokerAcknowledged) rfl,
        responseEvent_valid_iff (t := .rejected) rfl, responseEvent_valid_iff (t := .unknown) rfl, and_comm]

theorem makeEvent_of_valid {f : EventFields} (h : f.Valid) : makeEvent f = .ok ⟨f, h⟩ := by
  unfold makeEvent
  split
  · rfl
  · rename_i hp
    rw [(EventFields.postInit_ok_iff f).mpr h] at hp
    cases hp

theorem makeEvent_ok {f : EventFields} {e : BrokerOrderEvent} (h : makeEvent f = .ok e) :
    ∃ hv : f.Valid, e = ⟨f, hv⟩ := by
  unfold makeEvent at h
  split at h
  · cases h
    exact ⟨_, rfl⟩
  · cases h

/-- The orders after the event of a conclusion, if its event can be built. -/
theorem applyOrderEvent_ok_iff {orders orders' : OrderDb} {event : Option EventFields} :
    applyOrderEvent orders event = .ok orders' ↔
      (∃ f hv, event = some f ∧ orders' = deliver orders ⟨f, hv⟩) ∨ (event = none ∧ orders' = orders) := by
  cases event with
  | none =>
    simp [applyOrderEvent, eq_comm]
  | some f =>
    simp only [applyOrderEvent, Option.some.injEq, reduceCtorEq, false_and, or_false]
    constructor
    · intro h
      cases hm : makeEvent f with
      | error err => rw [hm] at h; cases h
      | ok e =>
        obtain ⟨hv, rfl⟩ := makeEvent_ok hm
        rw [hm] at h
        cases h
        exact ⟨f, hv, rfl, rfl⟩
    · rintro ⟨_, hv, rfl, rfl⟩
      rw [makeEvent_of_valid hv]

/-! ### One attempt -/

def Reply.isTransient : Reply → Bool
  | .transient _ => true
  | _ => false

/-- The database when the reply to attempt `n` is there. -/
def atReply (adapter : Adapter) (n : ℕ) (db : ExecDb) : ExecDb :=
  { db with toOrderDb := adapter.meanwhile n db.toOrderDb }

section Attempt

variable {env : EngineEnv} {req : ExecutionRequest} {adapter : Adapter} {retries n : ℕ} {db db₁ : ExecDb}

theorem submitAttempt_refused {err : DbError} (hs : saveAttempt db (newAttempt env req n) = .error err) :
    (submitAttempt env req adapter retries n db).db = db := by
  unfold submitAttempt
  rw [hs]
  cases err with
  | integrityError => cases findAttempt db req.executionId 0 <;> rfl
  | keyError _ => rfl
  | dataError => rfl
  | operationalError => rfl
  | multipleResultsFound => rfl
  | order _ => rfl

theorem submitAttempt_failed {err : DbError} (hs : saveAttempt db (newAttempt env req n) = .error err)
    (hi : err ≠ .integrityError) : submitAttempt env req adapter retries n db = ⟨db, n, .error (.db err)⟩ := by
  unfold submitAttempt
  rw [hs]
  cases err with
  | integrityError => exact absurd rfl hi
  | keyError _ => rfl
  | dataError => rfl
  | operationalError => rfl
  | multipleResultsFound => rfl
  | order _ => rfl

theorem submitAttempt_retry (hs : saveAttempt db (newAttempt env req n) = .ok db₁)
    (ht : (adapter.reply n).isTransient = true) : submitAttempt env req adapter (retries + 1) n db =
      submitAttempt env req adapter retries (n + 1) (atReply adapter n db₁) := by
  rw [submitAttempt, hs]
  cases hr : adapter.reply n with
  | transient text => rfl
  | response r => rw [hr] at ht; cases ht
  | timeout text => rw [hr] at ht; cases ht
  | error k text => rw [hr] at ht; cases ht
  | other => rw [hr] at ht; cases ht

theorem submitAttempt_last (hs : saveAttempt db (newAttempt env req n) = .ok db₁)
    (ht : retries = 0 ∨ (adapter.reply n).isTransient = false) : submitAttempt env req adapter retries n db =
      match concludeReply env req (adapter.reply n) with
      | none => ⟨atReply adapter n db₁, n + 1, .error .adapter⟩
      | some c =>
        ⟨(finalize env req n (atReply adapter n db₁) c).1, n + 1, (finalize env req n (atReply adapter n db₁) c).2⟩ := by
  unfold submitAttempt
  rw [hs]
  cases hr : adapter.reply n with
  | transient text =>
    cases retries with
    | zero => rfl
    | succ k =>
      rcases ht with ht | ht
      · cases ht
      · rw [hr] at ht; cases ht
  | response r => rfl
  | timeout text => rfl
  | error k text => rfl
  | other => rfl

/-- **What an attempt that returns has done**: it found the execution taken, or it was stored and then either
retried or concluded. -/
theorem submitAttempt_ok {o : ExecutionOutcome} (h : (submitAttempt env req adapter retries n db).result = .ok o) :
    (∃ a, findAttempt db req.executionId 0 = some a ∧
        saveAttempt db (newAttempt env req n) = .error .integrityError ∧
        submitAttempt env req adapter retries n db = ⟨db, n, .ok (duplicateOutcome a req)⟩) ∨
      ∃ db₁, saveAttempt db (newAttempt env req n) = .ok db₁ ∧
        ((∃ k, retries = k + 1 ∧ (adapter.reply n).isTransient = true ∧
            submitAttempt env req adapter retries n db =
              submitAttempt env req adapter k (n + 1) (atReply adapter n db₁)) ∨
          ((retries = 0 ∨ (adapter.reply n).isTransient = false) ∧
            ∃ c db', concludeReply env req (adapter.reply n) = some c ∧
              finalize env req n (atReply adapter n db₁) c = (db', .ok o) ∧
              submitAttempt env req adapter retries n db = ⟨db', n + 1, .ok o⟩)) := by
  cases hs : saveAttempt db (newAttempt env req n) with
  | error err =>
    left
    unfold submitAttempt at h ⊢
    rw [hs] at h ⊢
    cases err with
    | integrityError =>
      cases hf : findAttempt db req.executionId 0 with
      | none => simp only [hf] at h; cases h
      | some a => exact ⟨a, rfl, rfl, rfl⟩
    | keyError _ => cases h
    | dataError => cases h
    | operationalError => cases h
    | multipleResultsFound => cases h
    | order _ => cases h
  | ok db₁ =>
    refine Or.inr ⟨db₁, rfl, ?_⟩
    by_cases ht : retries = 0 ∨ (adapter.reply n).isTransient = false
    · right
      have heq := submitAttempt_last hs ht
      rw [heq] at h ⊢
      cases hc : concludeReply env req (adapter.reply n) with
      | none => rw [hc] at h; cases h
      | some c =>
        rw [hc] at h
        refine ⟨ht, c, (finalize env req n (atReply adapter n db₁) c).1, rfl, Prod.ext rfl h, ?_⟩
        simp only
        rw [show (finalize env req n (atReply adapter n db₁) c).2 = .ok o from h]
    · left
      push Not at ht
      obtain ⟨k, rfl⟩ := Nat.exists_eq_succ_of_ne_zero ht.1
      have ht' : (adapter.reply n).isTransient = true := by simpa using ht.2
      exact ⟨k, rfl, ht', submitAttempt_retry hs ht'⟩

/-- **What a concluded attempt has done.** -/
theorem finalize_ok {c : Conclusion} {db' : ExecDb} {o : ExecutionOutcome}
    (h : finalize env req n db c = (db', .ok o)) :
    ∃ orders, applyOrderEvent db.toOrderDb c.event = .ok orders ∧
      updateAttempt { db with toOrderDb := orders } (computeAttemptId req.executionId n) c.state c.brokerOrderId
        env.respondedAt c.reason = .ok db' ∧
      o.submissionState = c.state ∧ o.orderState = c.orderState ∧ o.brokerOrderId = c.brokerOrderId ∧
      o.orderId = req.orderId := by
  unfold finalize at h
  cases ha : applyOrderEvent db.toOrderDb c.event with
  | error err => rw [ha] at h; cases h
  | ok orders =>
    rw [ha] at h
    simp only at h
    cases hu : updateAttempt { db with toOrderDb := orders } (computeAttemptId req.executionId n) c.state
        c.brokerOrderId env.respondedAt c.reason with
    | error err => rw [hu] at h; cases h
    | ok db'' =>
      rw [hu] at h
      cases h
      exact ⟨orders, rfl, hu, rfl, rfl, rfl, rfl⟩

/-- A stored attempt beside the first one is never concluded. -/
theorem finalize_ne_ok {c : Conclusion} {db' : ExecDb} {o : ExecutionOutcome} (hn : n ≠ 0)
    (h0 : (db.attempts.get (req.executionId, 0)).isSome) (hs : (db.attempts.get (req.executionId, n)).isSome) :
    finalize env req n db c ≠ (db', .ok o) := by
  intro h
  obtain ⟨orders, -, hu, -⟩ := finalize_ok h
  rw [updateAttempt_two { db with toOrderDb := orders } hn hs h0] at hu
  cases hu

theorem get_of_saved (hs : saveAttempt db (newAttempt env req n) = .ok db₁) (k : String × ℕ) :
    (atReply adapter n db₁).attempts.get k =
      if (req.executionId, n) = k then some (toOrmAttempt (newAttempt env req n)) else db.attempts.get k :=
  get_of_saveAttempt hs k

theorem get_other_of_saved (hs : saveAttempt db (newAttempt env req n) = .ok db₁) {m : ℕ} (hm : m ≠ n) :
    (atReply adapter n db₁).attempts.get (req.executionId, m) = db.attempts.get (req.executionId, m) := by
  rw [get_of_saved hs, if_neg]
  intro h
  exact hm (Prod.mk.inj h).2.symm

theorem get_self_of_saved (hs : saveAttempt db (newAttempt env req n) = .ok db₁) :
    (atReply adapter n db₁).attempts.get (req.executionId, n) = some (toOrmAttempt (newAttempt env req n)) := by
  rw [get_of_saved hs, if_pos rfl]

/-- An attempt after the first one returns only the first one. -/
theorem submitAttempt_later {r : AttemptRow} {o : ExecutionOutcome} (hn : n ≠ 0)
    (h0 : db.attempts.get (req.executionId, 0) = some r)
    (h : (submitAttempt env req adapter retries n db).result = .ok o) :
    o = duplicateOutcome (fromOrmAttempt r) req := by
  induction retries using Nat.strong_induction_on generalizing n db with
  | _ retries ih =>
    rcases submitAttempt_ok h with ⟨a, hf, -, heq⟩ | ⟨db₁, hs, ⟨k, rfl, -, heq⟩ | ⟨-, c, db', -, hfin, -⟩⟩
    · rw [findAttempt, h0] at hf
      rw [heq] at h
      cases hf
      cases h
      rfl
    · rw [heq] at h
      exact ih k (Nat.lt_succ_self k) (Nat.succ_ne_zero n) (by rw [get_other_of_saved hs hn.symm, h0]) h
    · refine absurd hfin (finalize_ne_ok hn ?_ ?_)
      · rw [get_other_of_saved hs hn.symm, h0]; rfl
      · rw [get_self_of_saved hs]; rfl

/-- **A retried submission of a stored order raises.** -/
theorem submitAttempt_later_raises {o : ExecutionOutcome} (hn : n ≠ 0)
    (h0 : (db.attempts.get (req.executionId, 0)).isSome)
    (hfree : ∀ m, n ≤ m → db.attempts.get (req.executionId, m) = none)
    (ho : (db.orders.get req.orderId).isSome)
    (hkeep : ∀ m d, (d.orders.get req.orderId).isSome → ((adapter.meanwhile m d).orders.get req.orderId).isSome) :
    (submitAttempt env req adapter retries n db).result ≠ .ok o := by
  intro h
  induction retries using Nat.strong_induction_on generalizing n db with
  | _ retries ih =>
    rcases submitAttempt_ok h with ⟨a, hf, hs, -⟩ | ⟨db₁, hs, ⟨k, rfl, -, heq⟩ | ⟨-, c, db', -, hfin, -⟩⟩
    · -- the number is free and the order is stored, so the insertion is not refused
      by_cases hfit : attemptFits (toOrmAttempt (newAttempt env req n)) = true
      · obtain ⟨db', hs'⟩ := saveAttempt_of_new db hfit ho (hfree n (le_refl n))
        rw [hs'] at hs
        cases hs
      · unfold saveAttempt at hs
        rw [if_pos (by simpa using hfit)] at hs
        cases hs
    · rw [heq] at h
      refine ih k (Nat.lt_succ_self k) (Nat.succ_ne_zero n) ?_ (fun m hm => ?_) ?_ h
      · rw [get_other_of_saved hs hn.symm]; exact h0
      · rw [get_other_of_saved hs (by omega)]; exact hfree m (by omega)
      · refine hkeep n _ ?_
        rw [(saveAttempt_ok hs).2.2.1]
        exact ho
    · refine absurd hfin (finalize_ne_ok hn ?_ ?_)
      · rw [get_other_of_saved hs hn.symm]; exact h0
      · rw [get_self_of_saved hs]; rfl

end Attempt

/-! ### Sequences of submissions -/

/-- A call of `submit`: engine, request and adapter. -/
structure SubmitCall where
  env : EngineEnv
  req : ExecutionRequest
  adapter : Adapter

def SubmitCall.apply (db : ExecDb) (c : SubmitCall) : ExecDb := (submit c.env c.req c.adapter db).db

theorem get_finalize_other {env : EngineEnv} {req : ExecutionRequest} {n : ℕ} {db : ExecDb} {c : Conclusion}
    {k : String × ℕ} (hk : k.1 ≠ req.executionId) :
    (finalize env req n db c).1.attempts.get k = db.attempts.get k := by
  unfold finalize
  cases applyOrderEvent db.toOrderDb c.event with
  | error err => rfl
  | ok orders =>
    simp only
    cases hu : updateAttempt { db with toOrderDb := orders } (computeAttemptId req.executionId n) c.state
        c.brokerOrderId env.respondedAt c.reason with
    | error err => rfl
    | ok db' => exact (updateAttempt_other hu).2 k hk

/-- A submission leaves the attempts of other executions. -/
theorem get_submitAttempt_other {env : EngineEnv} {req : ExecutionRequest} {adapter : Adapter} {k : String × ℕ}
    (hk : k.1 ≠ req.executionId) (retries n : ℕ) (db : ExecDb) :
    (submitAttempt env req adapter retries n db).db.attempts.get k = db.attempts.get k := by
  induction retries using Nat.strong_induction_on generalizing n db with
  | _ retries ih =>
    cases hs : saveAttempt db (newAttempt env req n) with
    | error err => rw [submitAttempt_refused hs]
    | ok db₁ =>
      have hsaved : (atReply adapter n db₁).attempts.get k = db.attempts.get k := by
        rw [get_of_saved hs, if_neg]
        rintro rfl
        exact hk rfl
      by_cases ht : retries = 0 ∨ (adapter.reply n).isTransient = false
      · rw [submitAttempt_last hs ht]
        cases concludeReply env req (adapter.reply n) with
        | none => exact hsaved
        | some c => exact (get_finalize_other hk).trans hsaved
      · push Not at ht
        obtain ⟨m, rfl⟩ := Nat.exists_eq_succ_of_ne_zero ht.1
        rw [submitAttempt_retry hs (by simpa using ht.2)]
        exact (ih m (Nat.lt_succ_self m) _ _).trans hsaved

/-- A submission of an execution that has a first attempt. -/
theorem submit_duplicate {env : EngineEnv} {req : ExecutionRequest} {adapter : Adapter} {db : ExecDb}
    {r : AttemptRow} (hv : validateRequest env req = .ok ()) (h0 : db.attempts.get (req.executionId, 0) = some r) :
    submit env req adapter db = ⟨db, 0, .ok (duplicateOutcome (fromOrmAttempt r) req)⟩ := by
  unfold submit
  rw [hv, findAttempt, h0]
  rfl

theorem submit_invalid {env : EngineEnv} {req : ExecutionRequest} {adapter : Adapter} {db : ExecDb}
    {err : ExecutionError} (hv : validateRequest env req = .error err) :
    submit env req adapter db = ⟨db, 0, .error err⟩ := by
  unfold submit
  rw [hv]

theorem submit_fresh {env : EngineEnv} {req : ExecutionRequest} {adapter : Adapter} {db : ExecDb}
    (hv : validateRequest env req = .ok ()) (h0 : db.attempts.get (req.executionId, 0) = none) :
    submit env req adapter db = submitAttempt env req adapter env.maxRetries 0 db := by
  unfold submit
  rw [hv, findAttempt, h0]
  rfl

/-- The first attempt of an execution stays as it is, whatever is submitted later. -/
theorem get_apply_first {e : String} {r : AttemptRow} (c : SubmitCall) {db : ExecDb}
    (h0 : db.attempts.get (e, 0) = some r) : (c.apply db).attempts.get (e, 0) = some r := by
  unfold SubmitCall.apply
  cases hv : validateRequest c.env c.req with
  | error err => rw [submit_invalid hv]; exact h0
  | ok u =>
    by_cases he : e = c.req.executionId
    · subst he
      rw [submit_duplicate hv h0]
      exact h0
    · cases hf : db.attempts.get (c.req.executionId, 0) with
      | none => rw [submit_fresh hv hf, get_submitAttempt_other he]; exact h0
      | some r' => rw [submit_duplicate hv hf]; exact h0

/-! ### What a submission settles -/

/-- **A submission is settled**: it returns, the attempt that had the reply (the first, when the adapter was not
called) holds the state and the broker order id it returns, and whatever is submitted in between, a later
submission of the execution returns them again, calls no adapter and changes nothing. -/
def Settles (env : EngineEnv) (req : ExecutionRequest) (adapter : Adapter) (db : ExecDb) : Prop :=
  ∃ o row, (submit env req adapter db).result = .ok o ∧
    (submit env req adapter db).db.attempts.get (req.executionId, (submit env req adapter db).calls - 1) = some row ∧
    row.state = o.submissionState ∧ row.brokerOrderId = o.brokerOrderId ∧
    ∀ (between : List SubmitCall) (c : SubmitCall), c.req.executionId = req.executionId →
      validateRequest c.env c.req = .ok () →
      ∃ o', submit c.env c.req c.adapter (run SubmitCall.apply (submit env req adapter db).db between) =
          ⟨run SubmitCall.apply (submit env req adapter db).db between, 0, .ok o'⟩ ∧
        o'.submissionState = o.submissionState ∧ o'.brokerOrderId = o.brokerOrderId

/-- The attempts of an execution begin with number 0. -/
def BeginsAtZero (db : ExecDb) (executionId : String) : Prop :=
  db.attempts.get (executionId, 0) = none → attemptsOf db executionId = []

/-- The request makes one attempt, which is stored and concluded. -/
structure OneAttempt (env : EngineEnv) (req : ExecutionRequest) (reply : Reply) (db : ExecDb) : Prop where
  stored : (db.orders.get req.orderId).isSome
  idFits : fits 64 req.executionId = true
  last : env.maxRetries = 0 ∨ reply.isTransient = false
  concludes : Concludes env reply

/-- A first attempt that is stored is repeated from then on. -/
theorem settles_of_row {env : EngineEnv} {req : ExecutionRequest} {adapter : Adapter} {db : ExecDb}
    {o : ExecutionOutcome} (row : AttemptRow) (ho : (submit env req adapter db).result = .ok o)
    (hc : (submit env req adapter db).calls ≤ 1)
    (hrow : (submit env req adapter db).db.attempts.get (req.executionId, 0) = some row)
    (hs : row.state = o.submissionState) (hb : row.brokerOrderId = o.brokerOrderId) :
    Settles env req adapter db := by
  refine ⟨o, row, ho, ?_, hs, hb, fun between c he hv => ?_⟩
  · rw [Nat.sub_eq_zero_of_le hc]
    exact hrow
  · have hkept := run_invariant SubmitCall.apply (fun d => d.attempts.get (req.executionId, 0) = some row)
      (fun d c h => get_apply_first c h) hrow between
    rw [← he] at hkept
    exact ⟨_, submit_duplicate hv hkept, hs, hb⟩

theorem attemptFits_first (env : EngineEnv) (req : ExecutionRequest) :
    attemptFits (toOrmAttempt (newAttempt env req 0)) = fits 64 req.executionId := by
  simp [attemptFits, toOrmAttempt, newAttempt]

/-- The conclusion of the only attempt of an execution. -/
theorem finalize_of_single (env : EngineEnv) {req : ExecutionRequest} {n : ℕ} {db : ExecDb} {c : Conclusion}
    {r : AttemptRow} (hr : attemptsOf db req.executionId = [r]) (hev : ∀ f, c.event = some f → f.Valid)
    (hb : c.brokerOrderId.all (fits 100) = true) :
    ∃ db' o, finalize env req n db c = (db', .ok o) ∧
      db'.attempts.get r.key = some (respondedRow c.state c.brokerOrderId env.respondedAt c.reason r) := by
  obtain ⟨orders, ha⟩ : ∃ orders, applyOrderEvent db.toOrderDb c.event = .ok orders := by
    cases he : c.event with
    | none => exact ⟨_, rfl⟩
    | some f => exact ⟨_, applyOrderEvent_ok_iff.mpr (Or.inl ⟨f, hev f he, rfl, rfl⟩)⟩
  obtain ⟨db', hu, hrow⟩ := updateAttempt_single { db with toOrderDb := orders } (n := n) hr c.state
    env.respondedAt c.reason hb
  unfold finalize
  rw [ha]
  simp only [hu]
  exact ⟨db', _, rfl, hrow⟩

/-- Only such a conclusion of a single attempt returns. -/
theorem finalize_single_ok {env : EngineEnv} {req : ExecutionRequest} {n : ℕ} {db db' : ExecDb} {c : Conclusion}
    {r : AttemptRow} {o : ExecutionOutcome} (hr : attemptsOf db req.executionId = [r])
    (h : finalize env req n db c = (db', .ok o)) :
    (∀ f, c.event = some f → f.Valid) ∧ c.brokerOrderId.all (fits 100) = true := by
  obtain ⟨orders, ha, hu, -⟩ := finalize_ok h
  constructor
  · intro f hf
    rcases applyOrderEvent_ok_iff.mp ha with ⟨f', hv, he, -⟩ | ⟨he, -⟩
    · rw [hf] at he
      cases he
      exact hv
    · rw [hf] at he
      cases he
  · unfold updateAttempt at hu
    rw [executionIdFromAttemptId_compute,
      show attemptsOf { db with toOrderDb := orders } req.executionId = [r] from hr] at hu
    simp only at hu
    split_ifs at hu with hb
    simpa using hb

theorem attemptsOf_first {env : EngineEnv} {req : ExecutionRequest} {adapter : Adapter} {db db₁ : ExecDb}
    (hs : saveAttempt db (newAttempt env req 0) = .ok db₁) (hnone : attemptsOf db req.executionId = []) :
    attemptsOf (atReply adapter 0 db₁) req.executionId = [toOrmAttempt (newAttempt env req 0)] := by
  have h := attemptsOf_of_saveAttempt hs
  rwa [show (newAttempt env req 0).executionId = req.executionId from rfl, hnone] at h

theorem get_eq_none_of_attemptsOf {db : ExecDb} {e : String} (h : attemptsOf db e = []) (m : ℕ) :
    db.attempts.get (e, m) = none := by
  refine Table.get_eq_none_iff.mpr fun hmem => ?_
  obtain ⟨r, hr, hkey⟩ := List.mem_map.mp hmem
  have hof : r ∈ attemptsOf db e := List.mem_filter.mpr ⟨hr, decide_eq_true (Prod.mk.inj hkey).1⟩
  rw [h] at hof
  cases hof

/-- **A submission that takes one attempt returns.** -/
theorem submit_of_oneAttempt {env : EngineEnv} {req : ExecutionRequest} (adapter : Adapter) {db : ExecDb}
    (hv : validateRequest env req = .ok ()) (hnone : attemptsOf db req.executionId = [])
    (h : OneAttempt env req (adapter.reply 0) db) :
    ∃ c db₁ db' o, concludeReply env req (adapter.reply 0) = some c ∧
      saveAttempt db (newAttempt env req 0) = .ok db₁ ∧
      finalize env req 0 (atReply adapter 0 db₁) c = (db', .ok o) ∧
      submit env req adapter db = ⟨db', 1, .ok o⟩ ∧
      db'.attempts.get (req.executionId, 0) = some (respondedRow c.state c.brokerOrderId env.respondedAt c.reason
        (toOrmAttempt (newAttempt env req 0))) := by
  obtain ⟨hord, hfit, hlast, hcon⟩ := h
  obtain ⟨c, hc, hev, hb⟩ := (concludes_iff req).mp hcon
  rw [← attemptFits_first env] at hfit
  have h0 := get_eq_none_of_attemptsOf hnone 0
  obtain ⟨db₁, hs⟩ := saveAttempt_of_new _ hfit hord h0
  obtain ⟨db', o, hfin, hrow⟩ := finalize_of_single env (n := 0) (attemptsOf_first hs hnone) hev hb
  refine ⟨c, db₁, db', o, hc, hs, hfin, ?_, hrow⟩
  rw [submit_fresh hv h0, submitAttempt_last hs hlast]
  simp only [hc, hfin, zero_add]

/-- **When a submission is settled**: exactly when the request is valid and either the execution has a first
attempt already, or this call makes one attempt only and its reply can be concluded.  A retry stores a second
attempt, after which the update of the attempt fails. -/
theorem submit_settled_iff (env : EngineEnv) (req : ExecutionRequest) (replies : ℕ → Reply) {db : ExecDb}
    (hdb : BeginsAtZero db req.executionId) : Settles env req { reply := replies } db ↔
      validateRequest env req = .ok () ∧
        ((db.attempts.get (req.executionId, 0)).isSome ∨ OneAttempt env req (replies 0) db) := by
  constructor
  · rintro ⟨o, row, ho, -⟩
    cases hv : validateRequest env req with
    | error err => rw [submit_invalid hv] at ho; cases ho
    | ok u =>
      refine ⟨rfl, ?_⟩
      cases h0 : db.attempts.get (req.executionId, 0) with
      | some r => exact Or.inl rfl
      | none =>
        right
        rw [submit_fresh hv h0] at ho
        rcases submitAttempt_ok ho with ⟨a, hf, -⟩ | ⟨db₁, hs, ⟨k, -, ht, heq⟩ | ⟨hlast, c, db', hc, hfin, -⟩⟩
        · rw [findAttempt, h0] at hf
          cases hf
        · -- a retry never returns: the order is stored and the further numbers are free
          rw [heq] at ho
          obtain ⟨-, hord, hsame, -⟩ := saveAttempt_ok hs
          refine absurd ho (submitAttempt_later_raises one_ne_zero ?_ (fun m hm => ?_) ?_ fun _ _ h => h)
          · rw [get_self_of_saved hs]; rfl
          · rw [get_other_of_saved hs (by omega)]
            exact get_eq_none_of_attemptsOf (hdb h0) m
          · rw [show (atReply { reply := replies } 0 db₁).orders = db.orders from congrArg OrderDb.orders hsame]
            exact hord
        · obtain ⟨hfit, hord, -⟩ := saveAttempt_ok hs
          rw [attemptFits_first] at hfit
          exact ⟨hord, hfit, hlast, (concludes_iff req).mpr ⟨c, hc, finalize_single_ok (attemptsOf_first hs (hdb h0)) hfin⟩⟩
  · rintro ⟨hv, h⟩
    cases h0 : db.attempts.get (req.executionId, 0) with
    | some r =>
      have heq : submit env req { reply := replies } db = _ := submit_duplicate hv h0
      refine settles_of_row (o := duplicateOutcome (fromOrmAttempt r) req) r ?_ ?_ ?_ rfl rfl
      · rw [heq]
      · rw [heq]; exact Nat.zero_le 1
      · rw [heq]; exact h0
    | none =>
      rw [h0] at h
      obtain ⟨c, db₁, db', o, -, -, hfin, heq, hrow⟩ :=
        submit_of_oneAttempt { reply := replies } hv (hdb h0) (h.resolve_left (by simp))
      obtain ⟨-, -, -, h1, -, h2, -⟩ := finalize_ok hfin
      refine settles_of_row (o := o) (respondedRow c.state c.brokerOrderId env.respondedAt c.reason
        (toOrmAttempt (newAttempt env req 0))) ?_ ?_ ?_ h1.symm ?_
      · rw [heq]
      · rw [heq]
      · rw [heq]; exact hrow
      · rw [h2]
        exact Option.or_none

/-! ### Every sequence of submissions -/

theorem beginsAtZero_iff {db : ExecDb} {e : String} :
    BeginsAtZero db e ↔ (db.attempts.get (e, 0) = none → ∀ m, db.attempts.get (e, m) = none) := by
  unfold BeginsAtZero
  constructor
  · intro h h0 m
    exact get_eq_none_of_attemptsOf (h h0) m
  · intro h h0
    refine List.filter_eq_nil_iff.mpr fun r hr hre => ?_
    obtain rfl : r.executionId = e := by simpa using hre
    have hget : db.attempts.get r.key = some r := Table.get_eq_some_iff.mpr ⟨hr, rfl⟩
    rw [show r.key = (r.executionId, r.attemptNumber) from rfl, h h0] at hget
    cases hget

/-- An update keeps every attempt stored. -/
theorem isSome_of_updateAttempt (db : ExecDb) {db' : ExecDb} {id : String} {state : ExecutionSubmissionState}
    {b : Option String} {t : DateTime} {reason : String} {k : String × ℕ}
    (h : updateAttempt db id state b t reason = .ok db') (hk : (db.attempts.get k).isSome) :
    (db'.attempts.get k).isSome := by
  unfold updateAttempt at h
  split at h
  · cases h; exact hk
  · rename_i r hr
    split_ifs at h
    cases h
    by_cases hkr : k = r.key
    · subst hkr
      simp only
      rw [Table.get_modify_self, Option.isSome_map]
      exact hk
    · simp only
      rw [Table.get_modify_of_ne _ _ (respondedRow_key state b t reason) hkr]
      exact hk
  · cases h

theorem isSome_of_finalize {env : EngineEnv} {req : ExecutionRequest} {n : ℕ} {db : ExecDb} {c : Conclusion}
    {k : String × ℕ} (hk : (db.attempts.get k).isSome) :
    ((finalize env req n db c).1.attempts.get k).isSome := by
  unfold finalize
  cases applyOrderEvent db.toOrderDb c.event with
  | error err => exact hk
  | ok orders =>
    simp only
    cases hu : updateAttempt { db with toOrderDb := orders } (computeAttemptId req.executionId n) c.state
        c.brokerOrderId env.respondedAt c.reason with
    | error err => exact hk
    | ok db' => exact isSome_of_updateAttempt { db with toOrderDb := orders } hu hk

/-- A submission keeps every attempt stored, the one it begins with included. -/
theorem isSome_of_submitAttempt {env : EngineEnv} {req : ExecutionRequest} (adapter : Adapter) {k : String × ℕ}
    (retries n : ℕ) (db : ExecDb) (hk : (db.attempts.get k).isSome ∨
      k = (req.executionId, n) ∧ ∃ db₁, saveAttempt db (newAttempt env req n) = .ok db₁) :
    ((submitAttempt env req adapter retries n db).db.attempts.get k).isSome := by
  induction retries using Nat.strong_induction_on generalizing n db with
  | _ retries ih =>
    cases hs : saveAttempt db (newAttempt env req n) with
    | error err =>
      rw [submitAttempt_refused hs]
      rcases hk with hk | ⟨-, db₁, hk⟩
      · exact hk
      · rw [hs] at hk; cases hk
    | ok db₁ =>
      have hsaved : ((atReply adapter n db₁).attempts.get k).isSome := by
        rw [get_of_saved hs]
        split_ifs with hkn
        · rfl
        · exact hk.resolve_right fun h => hkn h.1.symm
      by_cases ht : retries = 0 ∨ (adapter.reply n).isTransient = false
      · rw [submitAttempt_last hs ht]
        cases concludeReply env req (adapter.reply n) with
        | none => exact hsaved
        | some c => exact isSome_of_finalize hsaved
      · push Not at ht
        obtain ⟨m, rfl⟩ := Nat.exists_eq_succ_of_ne_zero ht.1
        rw [submitAttempt_retry hs (by simpa using ht.2)]
        exact ih m (Nat.lt_succ_self m) _ _ (Or.inl hsaved)

/-- A submission that stores any attempt stores the first one. -/
theorem beginsAtZero_apply {db : ExecDb} (h : ∀ e, BeginsAtZero db e) (c : SubmitCall) :
    ∀ e, BeginsAtZero (c.apply db) e := by
  intro e
  unfold SubmitCall.apply
  cases hv : validateRequest c.env c.req with
  | error err => rw [submit_invalid hv]; exact h e
  | ok u =>
    cases h0 : db.attempts.get (c.req.executionId, 0) with
    | some r => rw [submit_duplicate hv h0]; exact h e
    | none =>
      rw [submit_fresh hv h0]
      by_cases he : e = c.req.executionId
      · subst he
        cases hs : saveAttempt db (newAttempt c.env c.req 0) with
        | error err => rw [submitAttempt_refused hs]; exact h _
        | ok db₁ =>
          intro hz
          have hk := isSome_of_submitAttempt c.adapter c.env.maxRetries 0 db (Or.inr ⟨rfl, db₁, hs⟩)
          rw [hz] at hk
          cases hk
      · rw [beginsAtZero_iff]
        have hb := beginsAtZero_iff.mp (h e)
        rw [get_submitAttempt_other he]
        intro hz m
        rw [get_submitAttempt_other he]
        exact hb hz m

/-- The attempts of every execution begin with number 0, in every sequence of submissions. -/
theorem beginsAtZero_run {db : ExecDb} (h : ∀ e, BeginsAtZero db e) (calls : List SubmitCall) :
    ∀ e, BeginsAtZero (run SubmitCall.apply db calls) e :=
  run_invariant SubmitCall.apply (fun d => ∀ e, BeginsAtZero d e) (fun _ c hd => beginsAtZero_apply hd c) h calls

/-! ### Cases -/

/-- The order of `acknowledgedDb`, before the broker has it. -/
def requestedDb : ExecDb where
  orders :=
    { rows := [{ id := ⟨1⟩, clientOrderId := "c1", quantity := ⟨100, hundred_range⟩, status := .submissionRequested }]
      unique := by decide }
  events := Table.empty
  attempts := Table.empty

/-- Its submission. -/
def openRequest : ExecutionRequest where
  orderId := ⟨1⟩
  clientOrderId := "c1"
  executionId := "x1"
  quantity := 100
  tradingMode := "PAPER"
  riskApprovalId := "r1"
  approvalExpiresAt := ⟨2026, 8, 12, 10, 0, 0, 0, some 0⟩
  approval_aware := rfl
  quantity_pos := by decide
  client_set := by decide
  execution_set := by decide

/-- An engine with the given number of retries. -/
def openEngine (maxRetries : ℕ) : EngineEnv where
  maxRetries := maxRetries
  validatedAt := ⟨2026, 8, 12, 9, 30, 0, 0, some 0⟩
  submittedAt := fun _ => ⟨2026, 8, 12, 9, 30, 0, 0, some 0⟩
  timedOutAt := ⟨2026, 8, 12, 9, 30, 0, 0, some 0⟩
  respondedAt := ⟨2026, 8, 12, 9, 30, 0, 0, some 0⟩

/-- A response of the broker. -/
def brokerResponse (status : ExecutionSubmissionState) (brokerOrderId : Option String) : ExecutionResponse where
  status := status
  reason := "broker report"
  occurredAt := ⟨2026, 8, 12, 9, 30, 0, 0, some 0⟩
  brokerOrderId := brokerOrderId
  aware := rfl

/-- An earlier submission of the order for another execution, which timed out. -/
def timedOutCall : SubmitCall where
  env := openEngine 0
  req := { openRequest with executionId := "x0", execution_set := by decide }
  adapter := { reply := fun _ => .timeout "no answer" }

/-- One acknowledged attempt, in the stored state and after an earlier submission. -/
theorem submit_settled_acknowledged : (BeginsAtZero requestedDb "x1" ∧
    Settles (openEngine 1) openRequest { reply := fun _ => .response (brokerResponse .acknowledged (some "B1")) }
      requestedDb) ∧
    Settles (openEngine 1) openRequest { reply := fun _ => .response (brokerResponse .acknowledged (some "B1")) }
      (run SubmitCall.apply requestedDb [timedOutCall]) :=
  ⟨⟨fun _ => rfl, (submit_settled_iff _ _ _ fun _ => rfl).mpr
    ⟨by decide, Or.inr ⟨by decide, by decide, by decide, by decide⟩⟩⟩,
    (submit_settled_iff _ _ _ (beginsAtZero_run (fun _ _ => rfl) [timedOutCall] _)).mpr
      ⟨by decide, Or.inr ⟨by decide +kernel, by decide, by decide, by decide⟩⟩⟩

/-- A transient failure, then an acknowledgement: the second attempt is stored and the call raises, although the
order has gone to the broker. -/
theorem not_settles_retry : ¬ ∀ (env : EngineEnv) (req : ExecutionRequest) (replies : ℕ → Reply) (db : ExecDb),
    BeginsAtZero db req.executionId → validateRequest env req = .ok () → (db.orders.get req.orderId).isSome →
    fits 64 req.executionId = true → (∀ n, Concludes env (replies n)) → Settles env req { reply := replies } db := by
  intro h
  obtain ⟨o, row, ho, -⟩ := h (openEngine 1) openRequest
    (fun n => if n = 0 then .transient "busy" else .response (brokerResponse .acknowledged (some "B1"))) requestedDb
    (fun _ => rfl) (by decide) (by decide) (by decide) (fun n => by by_cases hn : n = 0 <;> simp only [hn] <;> decide)
  obtain ⟨db₁, hs⟩ := saveAttempt_of_new requestedDb (a := newAttempt (openEngine 1) openRequest 0)
    (by decide) (by decide) (by decide)
  rw [submit_fresh (by decide) (by decide), show (openEngine 1).maxRetries = 0 + 1 from rfl,
    submitAttempt_retry hs rfl] at ho
  refine submitAttempt_later_raises one_ne_zero ?_ (fun m hm => ?_) ?_ (fun _ _ h => h) ho
  · rw [get_self_of_saved hs]; rfl
  · rw [get_other_of_saved hs (by omega)]; rfl
  · exact congrArg OrderDb.orders (saveAttempt_ok hs).2.2.1 ▸ (by decide)

end AlphaAlgo.Execution
