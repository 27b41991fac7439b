import AlphaAlgo.Execution.Outcomes
import AlphaAlgo.Execution.Interleaving

/-!
# SubmitInterleaving — concurrent submissions over one repository

`submit` of the execution engine, one transaction, one message of the adapter or one local computation at a time,
over a shared database, beside the calls of `Interleaving` on the orders.  A process that dies is a submission that
takes no further step, a restart or a replay another submission.

* `submit_alone`: a submission that is not interrupted is the sequential `submit`.
* `SubmitInv`: at most one submission has stored attempts of an execution, and its calls of the adapter so far ended
  in transient failures.
* `submit_calls_bounded`: the adapter is called at most `max_retries + 1` times for an execution, and again only
  after a transient failure of the same submission.
-/

namespace AlphaAlgo.Execution

open Runs

/-! ### Submissions -/

/-- Where a `submit` call is. -/
inductive SubmitPc where
  | start
  | findExisting
  | persist (attemptNumber : ℕ)
  | reread
  | call (attemptNumber : ℕ)
  | await (attemptNumber : ℕ)
  | event (attemptNumber : ℕ) (c : Conclusion) (e : BrokerOrderEvent) (pc : EventPc)
  | update (attemptNumber : ℕ) (c : Conclusion)
  | returned (o : ExecutionOutcome)
  | raised (err : ExecutionError)

/-- A `submit` call: engine, request and the replies it will get; where it is, how often it has called the adapter
and the replies it has had. -/
structure Submission where
  env : EngineEnv
  req : ExecutionRequest
  reply : ℕ → Reply
  pc : SubmitPc := .start
  sent : ℕ := 0
  replies : List Reply := []

/-- The end of an `apply_event` call. -/
def EventPc.ended : EventPc → Bool
  | .saved _ | .replayed _ | .raised _ => true
  | _ => false

/-- Where a concluded reply leads. -/
def concludePc (attemptNumber : ℕ) (c : Conclusion) : SubmitPc :=
  match c.event with
  | none => .update attemptNumber c
  | some f =>
    match makeEvent f with
    | .error err => .raised err
    | .ok e => .event attemptNumber c e .start

/-- Where the reply to an attempt leads. -/
def replyPc (env : EngineEnv) (req : ExecutionRequest) (attemptNumber : ℕ) (reply : Reply) : SubmitPc :=
  if reply.isTransient && attemptNumber < env.maxRetries then .persist (attemptNumber + 1)
  else match concludeReply env req reply with
    | none => .raised .adapter
    | some c => concludePc attemptNumber c

/-- The outcome that `_finalize` returns. -/
def concludedOutcome (req : ExecutionRequest) (attemptNumber : ℕ) (c : Conclusion) : ExecutionOutcome where
  orderId := req.orderId
  executionId := req.executionId
  attemptId := computeAttemptId req.executionId attemptNumber
  submissionState := c.state
  orderState := c.orderState
  brokerOrderId := c.brokerOrderId
  reason := c.reason

/-- One step of `submit`. -/
def Submission.next (db : ExecDb) (s : Submission) : ExecDb × Submission :=
  match s.pc with
  | .start =>
    match validateRequest s.env s.req with
    | .error err => (db, { s with pc := .raised err })
    | .ok _ => (db, { s with pc := .findExisting })
  | .findExisting =>
    match findAttempt db s.req.executionId 0 with
    | some a => (db, { s with pc := .returned (duplicateOutcome a s.req) })
    | none => (db, { s with pc := .persist 0 })
  | .persist n =>
    match saveAttempt db (newAttempt s.env s.req n) with
    | .error .integrityError => (db, { s with pc := .reread })
    | .error err => (db, { s with pc := .raised (.db err) })
    | .ok db' => (db', { s with pc := .call n })
  | .reread =>
    match findAttempt db s.req.executionId 0 with
    | some a => (db, { s with pc := .returned (duplicateOutcome a s.req) })
    | none => (db, { s with pc := .raised (.db .integrityError) })
  | .call n => (db, { s with pc := .await n, sent := s.sent + 1 })
  | .await n =>
    (db, { s with pc := replyPc s.env s.req n (s.reply n), replies := s.replies ++ [s.reply n] })
  | .event n c e pc =>
    if pc.ended then (db, { s with pc := .update n c })
    else
      let r := nextEvent db.toOrderDb e pc
      ({ db with toOrderDb := r.1 }, { s with pc := .event n c e r.2 })
  | .update n c =>
    match updateAttempt db (computeAttemptId s.req.executionId n) c.state c.brokerOrderId s.env.respondedAt
        c.reason with
    | .error err => (db, { s with pc := .raised (.db err) })
    | .ok db' => (db', { s with pc := .returned (concludedOutcome s.req n c) })
  | .returned _ => (db, s)
  | .raised _ => (db, s)

/-- Who works on the database: submissions and the other calls on the orders. -/
inductive Party where
  | submission (s : Submission)
  | order (c : Call)

def Party.next (db : ExecDb) : Party → ExecDb × Party
  | .submission s => ((s.next db).1, .submission (s.next db).2)
  | .order c => ({ db with toOrderDb := (c.next db.toOrderDb).1 }, .order (c.next db.toOrderDb).2)

/-- The database and the parties. -/
abbrev Desk := Pool ExecDb Party

/-- The desk after a schedule. -/
abbrev workDesk (p : Desk) (l : List ℕ) : Desk := run (Pool.step Party.next) p l

/-! ### A submission alone -/

/-- One submission can run from one point to another without being interrupted. -/
def Reaches (a b : ExecDb × Submission) : Prop := ∃ k, (fun x => x.2.next x.1)^[k] a = b

theorem Reaches.refl (a : ExecDb × Submission) : Reaches a a := ⟨0, rfl⟩

theorem Reaches.head {a b : ExecDb × Submission} (h : Reaches (a.2.next a.1) b) : Reaches a b := by
  obtain ⟨k, hk⟩ := h
  exact ⟨k + 1, hk⟩

/-- The event of a conclusion, once it is over. -/
theorem reaches_update (s : Submission) (n : ℕ) (c : Conclusion) (e : BrokerOrderEvent) :
    ∀ (k : ℕ) (db : ExecDb) (pc : EventPc),
      ((fun x => nextEvent x.1 e x.2)^[k] (db.toOrderDb, pc)).2.ended = true →
      Reaches (db, { s with pc := .event n c e pc })
        ({ db with toOrderDb := ((fun x => nextEvent x.1 e x.2)^[k] (db.toOrderDb, pc)).1 },
          { s with pc := .update n c }) := by
  intro k
  induction k with
  | zero =>
    intro db pc h
    refine Reaches.head ?_
    have hstep : Submission.next db { s with pc := .event n c e pc } = (db, { s with pc := .update n c }) := by
      simp only [Submission.next]
      exact if_pos h
    rw [hstep]
    exact Reaches.refl _
  | succ k ih =>
    intro db pc h
    by_cases hend : pc.ended = true
    · -- an ended call steps to itself
      have hfix : nextEvent db.toOrderDb e pc = (db.toOrderDb, pc) := by
        cases pc with
        | saved _ => rfl
        | replayed _ => rfl
        | raised _ => rfl
        | start | compareHash | loadReplay | load | update _ | save _ _ => cases hend
      rw [Function.iterate_succ_apply, hfix] at h ⊢
      exact ih db pc h
    · refine Reaches.head ?_
      have hstep : Submission.next db { s with pc := .event n c e pc } =
          ({ db with toOrderDb := (nextEvent db.toOrderDb e pc).1 },
            { s with pc := .event n c e (nextEvent db.toOrderDb e pc).2 }) := by
        simp only [Submission.next]
        exact if_neg hend
      rw [hstep]
      rw [Function.iterate_succ_apply] at h ⊢
      exact ih { db with toOrderDb := (nextEvent db.toOrderDb e pc).1 } _ h

theorem Reaches.trans {a b c : ExecDb × Submission} (h : Reaches a b) (h' : Reaches b c) : Reaches a c := by
  obtain ⟨k, rfl⟩ := h
  obtain ⟨k', rfl⟩ := h'
  exact ⟨k' + k, Function.iterate_add_apply _ k' k a⟩

/-- An uninterrupted `apply_event` is over after four steps. -/
theorem iterate_nextEvent (db : OrderDb) (e : BrokerOrderEvent) :
    ((fun x => nextEvent x.1 e x.2)^[4] (db, .start)).1 = deliver db e ∧
      ((fun x => nextEvent x.1 e x.2)^[4] (db, .start)).2.ended = true := by
  have h := apply_event_alone db e
  rw [schedule_alone] at h
  obtain ⟨h1, h2⟩ := Pool.mk.inj h
  obtain ⟨h3, -⟩ := List.cons.inj h2
  injection h3 with _ h4
  refine ⟨h1, ?_⟩
  rw [h4]
  unfold EventPc.ofResult
  cases applyEvent db e with
  | error err => rfl
  | ok r => simp only; split_ifs <;> rfl

/-- The end of a submission, from what `submit` returns. -/
def SubmitPc.ofResult : Except ExecutionError ExecutionOutcome → SubmitPc
  | .ok o => .returned o
  | .error err => .raised err

theorem reaches_finalize (s : Submission) (n : ℕ) (db : ExecDb) (c : Conclusion) :
    Reaches (db, { s with pc := concludePc n c })
      ((finalize s.env s.req n db c).1, { s with pc := .ofResult (finalize s.env s.req n db c).2 }) := by
  -- the update of the attempt, over the orders that the event has left
  have hupdate : ∀ db' : ExecDb, applyOrderEvent db.toOrderDb c.event = .ok db'.toOrderDb → db'.attempts = db.attempts →
      Reaches (db', { s with pc := .update n c })
        ((finalize s.env s.req n db c).1, { s with pc := .ofResult (finalize s.env s.req n db c).2 }) := by
    intro db' ha hdb
    obtain ⟨orders, attempts⟩ := db'
    cases hdb
    refine Reaches.head ?_
    unfold finalize Submission.next
    simp only at ha
    rw [ha]
    simp only
    cases updateAttempt ⟨orders, db.attempts⟩ (computeAttemptId s.req.executionId n) c.state c.brokerOrderId
        s.env.respondedAt c.reason <;> exact Reaches.refl _
  unfold concludePc
  cases he : c.event with
  | none =>
    refine hupdate db ?_ rfl
    rw [he]
    rfl
  | some f =>
    simp only
    cases hm : makeEvent f with
    | error err =>
      unfold finalize
      rw [he]
      simp only [applyOrderEvent, hm]
      exact Reaches.refl _
    | ok e =>
      obtain ⟨h1, h2⟩ := iterate_nextEvent db.toOrderDb e
      have hev := reaches_update s n c e 4 db .start h2
      rw [h1] at hev
      refine hev.trans (hupdate _ ?_ rfl)
      rw [he]
      simp only [applyOrderEvent, hm]

/-- A stored attempt, its call and the reply. -/
theorem reaches_reply {s : Submission} {n : ℕ} {db db₁ : ExecDb} (hpc : s.pc = .persist n)
    (hs : saveAttempt db (newAttempt s.env s.req n) = .ok db₁) : Reaches (db, s) (db₁,
      { s with
        pc := replyPc s.env s.req n (s.reply n)
        sent := s.sent + 1
        replies := s.replies ++ [s.reply n] }) := by
  have h1 : s.next db = (db₁, { s with pc := .call n }) := by
    simp only [Submission.next, hpc, hs]
  refine Reaches.head (a := (db, s)) ?_
  rw [h1]
  exact Reaches.head (Reaches.head (Reaches.refl _))

/-- The loop of `submit`. -/
theorem reaches_submitAttempt (retries : ℕ) : ∀ (n : ℕ) (db : ExecDb) (s : Submission), s.pc = .persist n →
    s.env.maxRetries = n + retries → ∃ s', Reaches (db, s)
      ((submitAttempt s.env s.req { reply := s.reply } retries n db).db, s') ∧
      s'.pc = .ofResult (submitAttempt s.env s.req { reply := s.reply } retries n db).result ∧
      s'.sent + n = s.sent + (submitAttempt s.env s.req { reply := s.reply } retries n db).calls := by
  induction retries using Nat.strong_induction_on with
  | _ retries ih =>
    intro n db s hpc hm
    cases hs : saveAttempt db (newAttempt s.env s.req n) with
    | ok db₁ =>
      have hcalled := reaches_reply hpc hs
      by_cases ht : retries = 0 ∨ (s.reply n).isTransient = false
      · have hlast : ((s.reply n).isTransient && decide (n < s.env.maxRetries)) = false := by
          rcases ht with rfl | ht
          · simp [hm]
          · rw [ht]; rfl
        have ht' : retries = 0 ∨ (({ reply := s.reply } : Adapter).reply n).isTransient = false := ht
        rw [submitAttempt_last hs ht']
        rw [replyPc, if_neg (by rw [hlast]; exact Bool.false_ne_true)] at hcalled
        cases hc : concludeReply s.env s.req (s.reply n) with
        | none =>
          rw [hc] at hcalled
          exact ⟨_, hcalled, rfl, by simp only; omega⟩
        | some c =>
          rw [hc] at hcalled
          have hfin := reaches_finalize { s with sent := s.sent + 1, replies := s.replies ++ [s.reply n] } n db₁ c
          exact ⟨_, hcalled.trans hfin, rfl, by simp only; omega⟩
      · push Not at ht
        obtain ⟨k, rfl⟩ := Nat.exists_eq_succ_of_ne_zero ht.1
        have ht' : (s.reply n).isTransient = true := by simpa using ht.2
        have hmore : ((s.reply n).isTransient && decide (n < s.env.maxRetries)) = true := by
          rw [ht', Bool.true_and, decide_eq_true_eq]
          omega
        rw [replyPc, if_pos hmore] at hcalled
        have hagain : (({ reply := s.reply } : Adapter).reply n).isTransient = true := ht'
        rw [submitAttempt_retry hs hagain]
        obtain ⟨s', h1, h2, h3⟩ := ih k (Nat.lt_succ_self k) (n + 1) db₁
          { s with pc := .persist (n + 1), sent := s.sent + 1, replies := s.replies ++ [s.reply n] } rfl
          (by rw [hm]; omega)
        refine ⟨s', hcalled.trans h1, h2, ?_⟩
        simp only at h3
        show s'.sent + n = s.sent + (submitAttempt s.env s.req { reply := s.reply } k (n + 1) db₁).calls
        omega
    | error err =>
      by_cases hi : err = .integrityError
      · subst hi
        have h1 : s.next db = (db, { s with pc := .reread }) := by simp [Submission.next, hpc, hs]
        have h2 : Reaches (db, s) (Submission.next db { s with pc := .reread }) :=
          Reaches.head (a := (db, s)) (by rw [h1]; exact Reaches.head (Reaches.refl _))
        rw [submitAttempt, hs]
        simp only
        cases hf : findAttempt db s.req.executionId 0 with
        | none =>
          refine ⟨{ s with pc := .raised (.db .integrityError) }, ?_, rfl, rfl⟩
          simpa [Submission.next, hf] using h2
        | some a =>
          refine ⟨{ s with pc := .returned (duplicateOutcome a s.req) }, ?_, rfl, rfl⟩
          simpa [Submission.next, hf] using h2
      · have h1 : s.next db = (db, { s with pc := .raised (.db err) }) := by
          simp only [Submission.next, hpc, hs]
        rw [submitAttempt_failed hs hi]
        refine ⟨{ s with pc := .raised (.db err) }, Reaches.head (a := (db, s)) ?_, rfl, rfl⟩
        rw [h1]
        exact Reaches.refl _

/-- **A submission that is not interrupted is the sequential `submit`.** -/
theorem submit_alone (db : ExecDb) (s : Submission) (hs : s.pc = .start) (h0 : s.sent = 0) :
    ∃ s', Reaches (db, s) ((submit s.env s.req { reply := s.reply } db).db, s') ∧
      s'.pc = .ofResult (submit s.env s.req { reply := s.reply } db).result ∧
      s'.sent = (submit s.env s.req { reply := s.reply } db).calls := by
  cases hv : validateRequest s.env s.req with
  | error err =>
    have h1 : s.next db = (db, { s with pc := .raised err }) := by simp only [Submission.next, hs, hv]
    rw [submit_invalid hv]
    refine ⟨{ s with pc := .raised err }, Reaches.head (a := (db, s)) ?_, rfl, h0⟩
    rw [h1]
    exact Reaches.refl _
  | ok u =>
    have h1 : s.next db = (db, { s with pc := .findExisting }) := by simp only [Submission.next, hs, hv]
    cases hf : db.attempts.get (s.req.executionId, 0) with
    | some r =>
      have h2 : Submission.next db { s with pc := .findExisting } =
          (db, { s with pc := .returned (duplicateOutcome (fromOrmAttempt r) s.req) }) := by
        simp only [Submission.next, findAttempt, hf, Option.map_some]
      rw [submit_duplicate hv hf]
      refine ⟨{ s with pc := .returned (duplicateOutcome (fromOrmAttempt r) s.req) }, Reaches.head (a := (db, s)) ?_,
        rfl, h0⟩
      rw [h1]
      refine Reaches.head ?_
      rw [h2]
      exact Reaches.refl _
    | none =>
      have h2 : Submission.next db { s with pc := .findExisting } = (db, { s with pc := .persist 0 }) := by
        simp only [Submission.next, findAttempt, hf, Option.map_none]
      obtain ⟨s', h3, h4, h5⟩ := reaches_submitAttempt s.env.maxRetries 0 db { s with pc := .persist 0 } rfl
        (Nat.zero_add _).symm
      rw [submit_fresh hv hf]
      refine ⟨s', Reaches.head (a := (db, s)) ?_, h4, ?_⟩
      · rw [h1]
        refine Reaches.head ?_
        rw [h2]
        exact h3
      · simp only at h5
        omega

/-! ### What a step does -/

/-- The end of a submission: it will store no attempt and call no adapter. -/
def SubmitPc.late : SubmitPc → Bool
  | .reread | .event _ _ _ _ | .update _ _ | .returned _ | .raised _ => true
  | _ => false

/-- At an adapter call: about to send it, or waiting for the reply. -/
def SubmitPc.atAdapter : SubmitPc → Bool
  | .call _ | .await _ => true
  | _ => false

/-- **Everything a step of a submission does.** -/
inductive SubmitStep (db : ExecDb) (s : Submission) : ExecDb → Submission → Prop
  | validated (h : s.pc = .start) : SubmitStep db s db { s with pc := .findExisting }
  | notFound (h : s.pc = .findExisting) : SubmitStep db s db { s with pc := .persist 0 }
  | stored (n : ℕ) (db' : ExecDb) (h : s.pc = .persist n) (hs : saveAttempt db (newAttempt s.env s.req n) = .ok db') :
    SubmitStep db s db' { s with pc := .call n }
  | called (n : ℕ) (h : s.pc = .call n) : SubmitStep db s db { s with pc := .await n, sent := s.sent + 1 }
  | replied (n : ℕ) (h : s.pc = .await n) :
    SubmitStep db s db { s with pc := replyPc s.env s.req n (s.reply n), replies := s.replies ++ [s.reply n] }
  | ending (db' : ExecDb) (pc : SubmitPc) (h : s.pc.atAdapter = false)
    (hk : ∀ k, (db.attempts.get k).isSome → (db'.attempts.get k).isSome) (hl : pc.late = true) :
    SubmitStep db s db' { s with pc := pc }

theorem submitStep_next (db : ExecDb) (s : Submission) : SubmitStep db s (s.next db).1 (s.next db).2 := by
  -- a step that goes to a late position and leaves the database
  have hquiet : ∀ pc : SubmitPc, s.pc.atAdapter = false → pc.late = true → SubmitStep db s db { s with pc := pc } :=
    fun pc h hl => .ending db pc h (fun _ hk => hk) hl
  unfold Submission.next
  cases hpc : s.pc with
  | start =>
    simp only
    cases validateRequest s.env s.req with
    | error err => exact hquiet _ (by rw [hpc]; rfl) rfl
    | ok u => exact .validated hpc
  | findExisting =>
    simp only
    cases findAttempt db s.req.executionId 0 with
    | some a => exact hquiet _ (by rw [hpc]; rfl) rfl
    | none => exact .notFound hpc
  | persist n =>
    simp only
    cases hs : saveAttempt db (newAttempt s.env s.req n) with
    | ok db' => exact .stored n db' hpc hs
    | error err => cases err <;> exact hquiet _ (by rw [hpc]; rfl) rfl
  | reread =>
    simp only
    cases findAttempt db s.req.executionId 0 <;> exact hquiet _ (by rw [hpc]; rfl) rfl
  | call n => exact .called n hpc
  | await n => exact .replied n hpc
  | event n c e pc =>
    simp only
    split_ifs
    · exact hquiet _ (by rw [hpc]; rfl) rfl
    · exact .ending _ _ (by rw [hpc]; rfl) (fun _ hk => hk) rfl
  | update n c =>
    simp only
    cases hu : updateAttempt db (computeAttemptId s.req.executionId n) c.state c.brokerOrderId s.env.respondedAt
        c.reason with
    | error err => exact hquiet _ (by rw [hpc]; rfl) rfl
    | ok db' => exact .ending db' _ (by rw [hpc]; rfl) (fun _ hk => isSome_of_updateAttempt _ hu hk) rfl
  | returned o =>
    have heq : s = { s with pc := .returned o } := by rw [← hpc]
    have h := hquiet (.returned o) (by rw [hpc]; rfl) rfl
    rwa [← heq] at h
  | raised err =>
    have heq : s = { s with pc := .raised err } := by rw [← hpc]
    have h := hquiet (.raised err) (by rw [hpc]; rfl) rfl
    rwa [← heq] at h

/-! ### The invariant -/

/-- How far a submission is: its calls and their replies, which are transient failures as long as it goes on. -/
def Progress (s : Submission) : Prop :=
  match s.pc with
  | .start | .findExisting => s.sent = 0 ∧ s.replies = []
  | .persist n | .call n =>
    s.sent = n ∧ n ≤ s.env.maxRetries ∧ s.replies.length = n ∧ ∀ r ∈ s.replies, r.isTransient = true
  | .await n => s.sent = n + 1 ∧ n ≤ s.env.maxRetries ∧ s.replies.length = n ∧ ∀ r ∈ s.replies, r.isTransient = true
  | _ => s.sent ≤ s.env.maxRetries + 1

theorem Progress.sent_le {s : Submission} (h : Progress s) : s.sent ≤ s.env.maxRetries + 1 := by
  unfold Progress at h
  cases hpc : s.pc with
  | start | findExisting => rw [hpc] at h; obtain ⟨h, -⟩ := h; omega
  | persist n | call n | await n => rw [hpc] at h; obtain ⟨h1, h2, -⟩ := h; omega
  | reread | event _ _ _ _ | update _ _ | returned _ | raised _ => rw [hpc] at h; exact h

theorem progress_of_late {s : Submission} (hl : s.pc.late = true) (h : s.sent ≤ s.env.maxRetries + 1) : Progress s := by
  unfold Progress
  cases hpc : s.pc with
  | start | findExisting | persist _ | call _ | await _ => rw [hpc] at hl; cases hl
  | reread | event _ _ _ _ | update _ _ | returned _ | raised _ => exact h

/-- A reply starts the next attempt or ends the submission. -/
theorem replyPc_cases (env : EngineEnv) (req : ExecutionRequest) (n : ℕ) (reply : Reply) :
    (replyPc env req n reply = .persist (n + 1) ∧ reply.isTransient = true ∧ n < env.maxRetries) ∨
      (replyPc env req n reply).late = true := by
  unfold replyPc
  by_cases h : (reply.isTransient && n < env.maxRetries) = true
  · rw [if_pos h]
    left
    simpa using h
  · rw [if_neg h]
    right
    cases concludeReply env req reply with
    | none => rfl
    | some c =>
      simp only [concludePc]
      cases c.event with
      | none => rfl
      | some f => simp only; cases makeEvent f <;> rfl

theorem SubmitStep.progress {db db' : ExecDb} {s s' : Submission} (h : SubmitStep db s db' s') (hp : Progress s) :
    Progress s' := by
  have hle := hp.sent_le
  cases h with
  | validated h => rw [Progress, h] at hp; exact hp
  | notFound h =>
    rw [Progress, h] at hp
    obtain ⟨h1, h2⟩ := hp
    exact ⟨h1, Nat.zero_le _, by rw [h2]; rfl, fun r hr => by rw [h2] at hr; cases hr⟩
  | stored n db' h hs => rw [Progress, h] at hp; exact hp
  | called n h =>
    rw [Progress, h] at hp
    obtain ⟨h1, h2⟩ := hp
    exact ⟨by rw [h1], h2⟩
  | replied n h =>
    rw [Progress, h] at hp
    obtain ⟨h1, h2, h3, h4⟩ := hp
    rcases replyPc_cases s.env s.req n (s.reply n) with ⟨hpc, ht, hn⟩ | hl
    · unfold Progress
      simp only [hpc]
      refine ⟨h1, hn, by rw [List.length_append, h3]; rfl, fun r hr => ?_⟩
      rcases List.mem_append.mp hr with hr | hr
      · exact h4 r hr
      · rw [List.mem_singleton.mp hr]; exact ht
    · exact progress_of_late hl hle
  | ending db' pc h hk hl => exact progress_of_late hl hle

/-- The submission has stored an attempt of execution `e` and goes on with it, or has called the adapter for it. -/
def Holds (e : String) (s : Submission) : Prop :=
  s.req.executionId = e ∧ (s.sent ≠ 0 ∨ ∃ n, s.pc = .call n)

open Classical in
/-- The parties that hold execution `e`, counted. -/
noncomputable def holding (e : String) : Party → ℕ
  | .submission s => if Holds e s then 1 else 0
  | .order _ => 0

theorem holding_of_holds {e : String} {s : Submission} (h : Holds e s) : holding e (.submission s) = 1 := if_pos h

theorem holding_of_not {e : String} {s : Submission} (h : ¬ Holds e s) : holding e (.submission s) = 0 := if_neg h

/-- The adapter calls of a party for execution `e`. -/
def sentFor (e : String) : Party → ℕ
  | .submission s => if s.req.executionId = e then s.sent else 0
  | .order _ => 0

/-- The adapter calls made for execution `e` so far. -/
def callsFor (e : String) (p : Desk) : ℕ := (p.calls.map (sentFor e)).sum

/-- A step takes an execution only when its first attempt was not stored, and stores it. -/
theorem SubmitStep.holds {db db' : ExecDb} {s s' : Submission} {e : String} (h : SubmitStep db s db' s')
    (hp : Progress s) :
    (Holds e s' ↔ Holds e s) ∨ (db.attempts.get (e, 0) = none ∧ (db'.attempts.get (e, 0)).isSome) := by
  cases h with
  | validated h => left; simp [Holds, h]
  | notFound h => left; simp [Holds, h]
  | stored n db' h hs =>
    rw [Progress, h] at hp
    by_cases he : s.req.executionId = e
    · subst he
      by_cases hn : n = 0
      · right
        subst hn
        obtain ⟨-, -, -, hi⟩ := saveAttempt_ok hs
        refine ⟨(Table.insert?_eq_some hi).1, ?_⟩
        rw [(get_of_saveAttempt hs (s.req.executionId, 0)).trans (if_pos rfl)]
        rfl
      · left
        have hsent : s.sent ≠ 0 := by rw [hp.1]; exact hn
        exact ⟨fun _ => ⟨rfl, Or.inl hsent⟩, fun _ => ⟨rfl, Or.inl hsent⟩⟩
    · left
      exact ⟨fun hh => absurd hh.1 he, fun hh => absurd hh.1 he⟩
  | called n h =>
    left
    exact ⟨fun hh => ⟨hh.1, Or.inr ⟨n, h⟩⟩, fun hh => ⟨hh.1, Or.inl (Nat.succ_ne_zero _)⟩⟩
  | replied n h =>
    left
    rw [Progress, h] at hp
    have hsent : s.sent ≠ 0 := by rw [hp.1]; exact Nat.succ_ne_zero n
    exact ⟨fun hh => ⟨hh.1, Or.inl hsent⟩, fun hh => ⟨hh.1, Or.inl hsent⟩⟩
  | ending db' pc h hk hl =>
    left
    have hpc : ∀ n, s.pc ≠ .call n := by
      intro n hn
      rw [hn] at h
      cases h
    have hpc' : ∀ n, pc ≠ .call n := by
      rintro n rfl
      cases hl
    constructor
    · rintro ⟨he, hh | ⟨n, hn⟩⟩
      · exact ⟨he, Or.inl hh⟩
      · exact absurd hn (hpc' n)
    · rintro ⟨he, hh | ⟨n, hn⟩⟩
      · exact ⟨he, Or.inl hh⟩
      · exact absurd hn (hpc n)

theorem SubmitStep.keeps {db db' : ExecDb} {s s' : Submission} (h : SubmitStep db s db' s') {k : String × ℕ}
    (hk : (db.attempts.get k).isSome) : (db'.attempts.get k).isSome := by
  cases h with
  | validated h => exact hk
  | notFound h => exact hk
  | called n h => exact hk
  | replied n h => exact hk
  | ending db' pc h hkeep hl => exact hkeep k hk
  | stored n db' h hs =>
    rw [get_of_saveAttempt hs]
    split_ifs
    · rfl
    · exact hk

theorem SubmitStep.env_eq {db db' : ExecDb} {s s' : Submission} (h : SubmitStep db s db' s') : s'.env = s.env := by
  cases h <;> rfl

/-- **The invariant of a desk**, for one execution and a bound on the engines' retries: every submission is where
its calls and replies put it, at most one of them holds the execution, and then its first attempt is stored. -/
structure SubmitInv (e : String) (m : ℕ) (p : Desk) : Prop where
  progress : ∀ s, .submission s ∈ p.calls → Progress s ∧ s.env.maxRetries ≤ m
  one : (p.calls.map (holding e)).sum ≤ 1
  stored : (p.calls.map (holding e)).sum ≠ 0 → (p.shared.attempts.get (e, 0)).isSome

theorem submitInv_step {e : String} {m : ℕ} {p : Desk} (h : SubmitInv e m p) (i : ℕ) :
    SubmitInv e m (p.step Party.next i) := by
  cases hc : p.calls[i]? with
  | none => rw [Pool.step_of_none hc]; exact h
  | some c =>
    have hmem : c ∈ p.calls := List.mem_of_getElem? hc
    have hsum := Pool.sum_eq_add_others (holding e) hc
    have hsum' := Pool.sum_step_eq_add_others Party.next (holding e) hc
    cases c with
    | order o =>
      have hhold : holding e (Party.next p.shared (.order o)).2 = holding e (.order o) := rfl
      rw [hhold, ← hsum] at hsum'
      refine ⟨fun s hs => ?_, by rw [hsum']; exact h.one, fun hne => ?_⟩
      · rw [Pool.step_of_some hc] at hs
        rcases List.mem_or_eq_of_mem_set hs with hs | hs
        · exact h.progress s hs
        · cases hs
      · rw [hsum'] at hne
        rw [Pool.step_of_some hc]
        exact h.stored hne
    | submission s =>
      have hstep := submitStep_next p.shared s
      obtain ⟨hpr, hm⟩ := h.progress s hmem
      have hshared : (p.step Party.next i).shared = (s.next p.shared).1 := by rw [Pool.step_of_some hc]; rfl
      have hprog : ∀ t, .submission t ∈ (p.step Party.next i).calls → Progress t ∧ t.env.maxRetries ≤ m := by
        intro t ht
        rw [Pool.step_of_some hc] at ht
        rcases List.mem_or_eq_of_mem_set ht with ht | ht
        · exact h.progress t ht
        · cases ht
          exact ⟨hstep.progress hpr, hstep.env_eq ▸ hm⟩
      rcases hstep.holds (e := e) hpr with hsame | ⟨hnone, hsome⟩
      · have hhold : holding e (Party.next p.shared (.submission s)).2 = holding e (.submission s) := by
          by_cases hh : Holds e s
          · rw [holding_of_holds hh]
            exact holding_of_holds (hsame.mpr hh)
          · rw [holding_of_not hh]
            exact holding_of_not fun h' => hh (hsame.mp h')
        rw [hhold, ← hsum] at hsum'
        refine ⟨hprog, by rw [hsum']; exact h.one, fun hne => ?_⟩
        rw [hshared]
        exact hstep.keeps (h.stored (hsum' ▸ hne))
      · -- nobody held the execution, so this submission is the only one now
        have hzero : (p.calls.map (holding e)).sum = 0 := by
          by_contra hne
          have := h.stored hne
          rw [hnone] at this
          cases this
        have hle : holding e (Party.next p.shared (.submission s)).2 ≤ 1 := by
          by_cases hh : Holds e (s.next p.shared).2
          · exact (holding_of_holds hh).le
          · exact (holding_of_not hh).trans_le (Nat.zero_le 1)
        refine ⟨hprog, by omega, fun _ => ?_⟩
        rw [hshared]
        exact hsome

/-- A submission that has not begun. -/
def Submission.atStart (s : Submission) : Prop := s.pc = .start ∧ s.sent = 0 ∧ s.replies = []

theorem submitInv_start {e : String} {m : ℕ} {p : Desk}
    (h : ∀ s, .submission s ∈ p.calls → s.atStart ∧ s.env.maxRetries ≤ m) : SubmitInv e m p := by
  have hzero : (p.calls.map (holding e)).sum = 0 := by
    refine List.sum_eq_zero fun x hx => ?_
    obtain ⟨c, hc, rfl⟩ := List.mem_map.mp hx
    cases c with
    | order o => rfl
    | submission s =>
      obtain ⟨⟨hpc, hsent, -⟩, -⟩ := h s hc
      refine holding_of_not ?_
      rintro ⟨-, hh | ⟨n, hn⟩⟩
      · exact hh hsent
      · rw [hpc] at hn; cases hn
  refine ⟨fun s hs => ?_, by omega, fun hne => absurd hzero hne⟩
  obtain ⟨⟨hpc, hsent, hr⟩, hm⟩ := h s hs
  refine ⟨?_, hm⟩
  unfold Progress
  rw [hpc]
  exact ⟨hsent, hr⟩

/-- A party's calls are bounded by its share. -/
theorem sentFor_le {e : String} {m : ℕ} {p : Desk} (h : SubmitInv e m p) {c : Party} (hc : c ∈ p.calls) :
    sentFor e c ≤ (m + 1) * holding e c := by
  cases c with
  | order o => exact Nat.zero_le _
  | submission s =>
    obtain ⟨hp, hm⟩ := h.progress s hc
    have hle := hp.sent_le
    show (if s.req.executionId = e then s.sent else 0) ≤ _
    by_cases he : s.req.executionId = e
    · by_cases hs : s.sent = 0
      · rw [if_pos he, hs]; exact Nat.zero_le _
      · rw [if_pos he, holding_of_holds ⟨he, Or.inl hs⟩]
        omega
    · rw [if_neg he]; exact Nat.zero_le _

theorem sum_sentFor_le {e : String} {m : ℕ} {p : Desk} (h : SubmitInv e m p) {l : List Party}
    (hl : ∀ c ∈ l, c ∈ p.calls) : (l.map (sentFor e)).sum ≤ (m + 1) * (l.map (holding e)).sum := by
  rw [← List.sum_map_mul_left]
  exact List.sum_le_sum fun c hc => sentFor_le h (hl c hc)

/-- **The rule for calling the adapter**: when call `i` is about to call the adapter for execution `e` and the
adapter was called for it before, then all those calls are its own and every one of them ended in a transient
failure. -/
def CallRule (e : String) (p : Desk) (i : ℕ) : Prop :=
  ∀ s n, p.calls[i]? = some (.submission s) → s.req.executionId = e → s.pc = .call n → callsFor e p ≠ 0 →
    callsFor e p = s.sent ∧ s.replies.length = s.sent ∧ ∀ r ∈ s.replies, r.isTransient = true

theorem callRule_of_inv {e : String} {m : ℕ} {p : Desk} (h : SubmitInv e m p) (i : ℕ) : CallRule e p i := by
  intro s n hc he hpc _
  obtain ⟨hp, -⟩ := h.progress s (List.mem_of_getElem? hc)
  have hhold := holding_of_holds (e := e) ⟨he, Or.inr ⟨n, hpc⟩⟩
  have hsent : sentFor e (.submission s) = s.sent := if_pos he
  have h1 := Pool.sum_eq_add_others (holding e) hc
  have h2 := Pool.sum_eq_add_others (sentFor e) hc
  -- the others hold nothing, hence have sent nothing
  have hothers := sum_sentFor_le h (l := p.calls.eraseIdx i) fun c hc => List.mem_of_mem_eraseIdx hc
  have hone := h.one
  rw [h1, hhold] at hone
  have hrest : ((p.calls.eraseIdx i).map (holding e)).sum = 0 := by omega
  rw [hrest, Nat.mul_zero] at hothers
  rw [Progress, hpc] at hp
  obtain ⟨hs, -, hlen, ht⟩ := hp
  refine ⟨?_, by rw [hlen, hs], ht⟩
  unfold callsFor
  rw [h2, hsent]
  omega

/-- **The adapter is called at most `max_retries + 1` times for an execution**, in every interleaving of
submissions from any database, and after the first call only by the same submission after a transient failure. -/
theorem submit_calls_bounded {p : Desk} {m : ℕ}
    (hstart : ∀ s, .submission s ∈ p.calls → s.atStart ∧ s.env.maxRetries ≤ m) (e : String) (l : List ℕ) :
    callsFor e (workDesk p l) ≤ m + 1 ∧ Along (Pool.step Party.next) (CallRule e) p l := by
  have hinv : SubmitInv e m p := submitInv_start hstart
  constructor
  · have h := run_invariant (Pool.step Party.next) (SubmitInv e m) (fun _ i h => submitInv_step h i) hinv l
    calc callsFor e (workDesk p l) ≤ (m + 1) * (((workDesk p l).calls.map (holding e)).sum) :=
          sum_sentFor_le h fun _ hc => hc
      _ ≤ (m + 1) * 1 := Nat.mul_le_mul_left _ h.one
      _ = m + 1 := Nat.mul_one _
  · exact along_of_invariant (Pool.step Party.next) (SubmitInv e m) (fun _ i h => submitInv_step h i)
      (fun _ i h => callRule_of_inv h i) hinv l

/-- The same request submitted by two engines, which both find no attempt; the first adapter fails once. -/
def racingDesk : Desk where
  shared := requestedDb
  calls :=
    [.submission { env := openEngine 1, req := openRequest, reply := fun _ => .transient "busy" },
      .submission { env := openEngine 1, req := openRequest, reply := fun _ => .transient "busy" }]

theorem submit_calls_bounded_racing :
    callsFor "x1" (workDesk racingDesk [0, 1, 0, 1, 0, 1, 0, 0, 0, 0, 0, 0]) ≤ 1 + 1 ∧
      Along (Pool.step Party.next) (CallRule "x1") racingDesk [0, 1, 0, 1, 0, 1, 0, 0, 0, 0, 0, 0] := by
  refine submit_calls_bounded (fun s hs => ?_) "x1" _
  simp only [racingDesk, List.mem_cons, Party.submission.injEq, List.not_mem_nil, or_false, or_self] at hs
  subst hs
  exact ⟨⟨rfl, rfl, rfl⟩, le_refl 1⟩

example : callsFor "x1" (workDesk racingDesk [0, 1, 0, 1, 0, 1, 0, 0, 0, 0, 0, 0]) = 2 := by decide +kernel

end AlphaAlgo.Execution
