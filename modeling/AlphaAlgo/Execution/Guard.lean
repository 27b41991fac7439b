import AlphaAlgo.Lib.Runs
import AlphaAlgo.Execution.Events
import AlphaAlgo.Risk.Rules

/-!
# Guard — an approval before an order is submitted

`BrokerSubmissionGuard.requestSubmission` of the execution engine with `RiskDecision.isValidApprovalAt`, over the
lifecycle of an order and the broker events that follow.

An order is driven by three kinds of action: its owner's transitions, requests to the guard and broker events.  An
action that raises leaves the order as it is.  The guard returns an intent with the new lifecycle; the intents are kept
beside the order, so that what was submitted can be compared with what was approved.

* `requestSubmission_ok`: everything an accepted request does.
* `Held`: the two phases of an order, before and after its only intent.
-/

namespace AlphaAlgo.Execution

open Runs Risk

/-- `is_valid_approval_at`. -/
def isValidApprovalAt (d : RiskDecision) (value : DateTime) : Except RiskError Bool :=
  if !value.aware then .error (.valueError "value must be timezone-aware")
  else match d.verdict with
    -- `value < expires_at`, both aware
    | .approved _ expiresAt => .ok (expiresAt.le? value == some false)
    | .rejected => .ok false

/-! ### The guard -/

inductive SubmissionError where
  | riskApprovalRequired (text : String)
  | risk (e : RiskError)
  | order (e : OrderError)
deriving DecidableEq

/-- `BrokerSubmissionIntent`, with the check of `__post_init__`. -/
structure BrokerSubmissionIntent where
  orderId : UUID
  signalId : UUID
  strategyId : UUID
  instrumentId : UUID
  riskApprovalId : UUID
  requestedAt : DateTime
  metadata : List (String × Scalar)
  aware : requestedAt.aware = true

/-- The arguments of a request. -/
structure SubmissionRequest where
  riskDecision : Option RiskDecision
  signalId : UUID
  strategyId : UUID
  instrumentId : UUID
  requestedAt : DateTime
  metadata : List (String × Scalar) := []
deriving DecidableEq

/-- `{"risk_decision_id": ..., **(metadata or {})}`. -/
def intentMetadata (d : RiskDecision) (metadata : List (String × Scalar)) : List (String × Scalar) :=
  ("risk_decision_id", (metadata.lookup "risk_decision_id").getD (.str d.decisionId.str)) ::
    metadata.filter fun p => p.1 ≠ "risk_decision_id"

/-- `_validate_risk_decision`; what it returns is the decision, which is there, and the id of its approval. -/
def validateRiskDecision (r : SubmissionRequest) : Except SubmissionError (RiskDecision × UUID) :=
  match r.riskDecision with
  | none => .error (.riskApprovalRequired "risk approval is required before broker submission")
  | some d =>
    match d.approvalId with
    | none => .error (.riskApprovalRequired "risk decision is not approved")
    | some approvalId =>
      match isValidApprovalAt d r.requestedAt with
      | .error e => .error (.risk e)
      | .ok valid =>
        if !valid then .error (.riskApprovalRequired "risk approval is expired or invalid")
        else if d.signalId ≠ r.signalId then
          .error (.riskApprovalRequired "risk approval signal_id does not match order intent")
        else if d.strategyId ≠ r.strategyId then
          .error (.riskApprovalRequired "risk approval strategy_id does not match order intent")
        else if d.instrumentId ≠ r.instrumentId then
          .error (.riskApprovalRequired "risk approval instrument_id does not match order intent")
        else .ok (d, approvalId)

def requestSubmission (lifecycle : OrderLifecycle) (r : SubmissionRequest) :
    Except SubmissionError (OrderLifecycle × BrokerSubmissionIntent) :=
  if h : r.requestedAt.aware = true then
    match validateRiskDecision r with
    | .error e => .error e
    | .ok (d, approvalId) =>
      match lifecycle.transitionTo .submissionRequested r.requestedAt
          "valid risk approval accepted for broker submission request" with
      | .error e => .error (.order e)
      | .ok next => .ok (next,
          { orderId := lifecycle.orderId, signalId := r.signalId, strategyId := r.strategyId
            instrumentId := r.instrumentId, riskApprovalId := approvalId, requestedAt := r.requestedAt
            metadata := intentMetadata d r.metadata, aware := h })
  else .error (.order (.valueError "requested_at must be timezone-aware"))

/-- A decision that covers an intent: approved under its id, for its signal, strategy and instrument, and not expired
when the intent was asked for. -/
structure Covers (d : RiskDecision) (i : BrokerSubmissionIntent) : Prop where
  approved : ∃ expiresAt, d.verdict = .approved i.riskApprovalId expiresAt ∧ expiresAt.le? i.requestedAt = some false
  signal : d.signalId = i.signalId
  strategy : d.strategyId = i.strategyId
  instrument : d.instrumentId = i.instrumentId

theorem isValidApprovalAt_eq_true {d : RiskDecision} {t : DateTime} {approvalId : UUID}
    (hid : d.approvalId = some approvalId) (h : isValidApprovalAt d t = .ok true) :
    ∃ expiresAt, d.verdict = .approved approvalId expiresAt ∧ expiresAt.le? t = some false := by
  unfold isValidApprovalAt at h
  unfold RiskDecision.approvalId at hid
  split_ifs at h
  cases hv : d.verdict with
  | rejected =>
    rw [hv] at hid
    cases hid
  | approved a expiresAt =>
    rw [hv] at h hid
    cases hid
    refine ⟨expiresAt, rfl, ?_⟩
    simpa using h

theorem validateRiskDecision_ok {r : SubmissionRequest} {d : RiskDecision} {approvalId : UUID}
    (h : validateRiskDecision r = .ok (d, approvalId)) :
    r.riskDecision = some d ∧
      (∃ expiresAt, d.verdict = .approved approvalId expiresAt ∧ expiresAt.le? r.requestedAt = some false) ∧
      d.signalId = r.signalId ∧ d.strategyId = r.strategyId ∧ d.instrumentId = r.instrumentId := by
  unfold validateRiskDecision at h
  cases hd : r.riskDecision with
  | none =>
    rw [hd] at h
    cases h
  | some d' =>
    simp only [hd] at h
    cases ha : d'.approvalId with
    | none =>
      rw [ha] at h
      cases h
    | some a =>
      simp only [ha] at h
      cases hv : isValidApprovalAt d' r.requestedAt with
      | error e =>
        rw [hv] at h
        cases h
      | ok valid =>
        simp only [hv] at h
        split_ifs at h with h0 h1 h2 h3
        cases h
        have hvalid : valid = true := by simpa using h0
        rw [hvalid] at hv
        exact ⟨rfl, isValidApprovalAt_eq_true ha hv, not_not.mp h1, not_not.mp h2, not_not.mp h3⟩

/-- **Everything an accepted request does.** -/
theorem requestSubmission_ok {l next : OrderLifecycle} {r : SubmissionRequest} {i : BrokerSubmissionIntent}
    (h : requestSubmission l r = .ok (next, i)) :
    .submissionRequested ∈ allowedTransitions l.state ∧ next.state = .submissionRequested ∧
      next.orderId = l.orderId ∧ i.orderId = l.orderId ∧ ∃ d, r.riskDecision = some d ∧ Covers d i := by
  unfold requestSubmission at h
  split_ifs at h with haware
  cases hv : validateRiskDecision r with
  | error e =>
    rw [hv] at h
    cases h
  | ok p =>
    obtain ⟨d, approvalId⟩ := p
    simp only [hv] at h
    cases ht : l.transitionTo .submissionRequested r.requestedAt
        "valid risk approval accepted for broker submission request" with
    | error e =>
      rw [ht] at h
      cases h
    | ok l' =>
      rw [ht] at h
      cases h
      obtain ⟨hmem, hid, hstate⟩ := OrderLifecycle.transitionTo_ok ht
      obtain ⟨hd, happroved, h1, h2, h3⟩ := validateRiskDecision_ok hv
      exact ⟨hmem, hstate, hid, rfl, d, hd, ⟨happroved, h1, h2, h3⟩⟩

/-! ### An order under its guard -/

/-- An order and the intents that its guard has returned. -/
structure GuardedOrder where
  order : OrderExecutionState
  intents : List BrokerSubmissionIntent := []

inductive OrderAction where
  | transition (toState : OrderState) (occurredAt : DateTime) (reason : String)
  | request (r : SubmissionRequest)
  | event (e : BrokerOrderEvent)

namespace GuardedOrder

/-- The order with another lifecycle. -/
def withLifecycle (s : GuardedOrder) (l : OrderLifecycle) : OrderExecutionState := { s.order with lifecycle := l }

/-- One action; an action that raises leaves the order as it is. -/
def step (s : GuardedOrder) : OrderAction → GuardedOrder
  | .transition toState occurredAt reason =>
    match s.order.lifecycle.transitionTo toState occurredAt reason with
    | .ok l => { s with order := s.withLifecycle l }
    | .error _ => s
  | .request r =>
    match requestSubmission s.order.lifecycle r with
    | .ok (l, i) => ⟨s.withLifecycle l, s.intents ++ [i]⟩
    | .error _ => s
  | .event e => { s with order := s.order.step e }

/-- The owner's transitions leave the request for submission to the guard. -/
def Unforced (_ : GuardedOrder) : OrderAction → Prop
  | .transition toState _ _ => toState ≠ .submissionRequested
  | .request _ => True
  | .event _ => True

instance (s : GuardedOrder) : DecidablePred s.Unforced
  | .transition _ _ _ => inferInstanceAs (Decidable (_ ≠ _))
  | .request _ => isTrue trivial
  | .event _ => isTrue trivial

/-- What an unforced action does: nothing, a move within the table that asks for no submission, or the submission. -/
inductive Stepped (s : GuardedOrder) (a : OrderAction) (t : GuardedOrder) : Prop where
  | stays (h : t = s)
  | moves (hmem : t.order.status ∈ allowedTransitions s.order.status)
      (hother : t.order.status ≠ .submissionRequested)
      (hfill : t.order.filledQuantity = s.order.filledQuantity ∨
        t.order.status ∈ [OrderState.partiallyFilled, .filled])
      (hid : t.order.lifecycle.orderId = s.order.lifecycle.orderId) (hi : t.intents = s.intents)
  | submits (r : SubmissionRequest) (d : RiskDecision) (i : BrokerSubmissionIntent) (ha : a = .request r)
      (hd : r.riskDecision = some d) (hcovers : Covers d i) (horder : i.orderId = s.order.lifecycle.orderId)
      (hmem : .submissionRequested ∈ allowedTransitions s.order.status)
      (ht : t.order.status = .submissionRequested) (hid : t.order.lifecycle.orderId = s.order.lifecycle.orderId)
      (hi : t.intents = s.intents ++ [i])

/-- A broker event never asks for a submission, and only a fill changes the quantity. -/
theorem stepped_event (s : GuardedOrder) (e : BrokerOrderEvent) : s.Stepped (.event e) (s.step (.event e)) := by
  rcases s.order.step_cases e with h | ⟨-, h⟩
  · obtain ⟨-, hmem, hstatus, hid, -, hfilled, -⟩ := OrderExecutionState.applyEvent_ok h
    refine .moves ?_ ?_ ?_ hid rfl
    · show (s.order.step e).status ∈ _
      rw [hstatus]
      exact hmem
    · show (s.order.step e).status ≠ _
      rw [hstatus]
      cases e.eventType <;> decide
    · show (s.order.step e).filledQuantity = _ ∨ (s.order.step e).status ∈ _
      rw [hstatus, hfilled]
      unfold OrderExecutionState.filledAfter
      cases e.eventType <;> simp [OrderEventType.isFill, OrderEventType.target]
  · refine .stays ?_
    show ({ s with order := s.order.step e } : GuardedOrder) = s
    rw [h]

theorem step_cases (s : GuardedOrder) (a : OrderAction) (ha : s.Unforced a) : s.Stepped a (s.step a) := by
  cases a with
  | event e => exact s.stepped_event e
  | transition toState occurredAt reason =>
    cases h : s.order.lifecycle.transitionTo toState occurredAt reason with
    | error err => exact .stays (by simp only [step, h])
    | ok l =>
      have hstep : s.step (.transition toState occurredAt reason) = { s with order := s.withLifecycle l } := by
        simp only [step, h]
      obtain ⟨hmem, hid, hstate⟩ := OrderLifecycle.transitionTo_ok h
      rw [hstep]
      refine .moves ?_ ?_ (Or.inl rfl) hid rfl
      · show l.state ∈ _
        rw [hstate]
        exact hmem
      · show l.state ≠ _
        rw [hstate]
        exact ha
  | request r =>
    cases h : requestSubmission s.order.lifecycle r with
    | error err => exact .stays (by simp only [step, h])
    | ok p =>
      obtain ⟨l, i⟩ := p
      have hstep : s.step (.request r) = ⟨s.withLifecycle l, s.intents ++ [i]⟩ := by simp only [step, h]
      obtain ⟨hmem, hstate, hid, horder, d, hd, hcovers⟩ := requestSubmission_ok h
      rw [hstep]
      exact .submits r d i rfl hd hcovers horder hmem hstate hid rfl

/-- The states of an order that was not submitted. -/
def unsubmitted : List OrderState := [.intentCreated, .internalOrderCreated, .rejected]

/-- Only a created order is submitted. -/
theorem eq_of_submission {x : OrderState} (h : OrderState.submissionRequested ∈ allowedTransitions x) :
    x = .internalOrderCreated := by
  cases x <;> simp [allowedTransitions] at h ⊢

/-- Without the submission an order does not leave the states before it. -/
theorem unsubmitted_of_mem {x y : OrderState} (hx : x ∈ unsubmitted) (h : y ∈ allowedTransitions x)
    (hy : y ≠ .submissionRequested) : y ∈ unsubmitted := by
  simp only [unsubmitted, List.mem_cons, List.not_mem_nil, or_false] at hx
  rcases hx with rfl | rfl | rfl
  · simp only [allowedTransitions, List.mem_singleton] at h
    subst h
    decide
  · simp only [allowedTransitions, List.mem_cons, List.not_mem_nil, or_false] at h
    rcases h with rfl | rfl
    · exact absurd rfl hy
    · decide
  · simp [allowedTransitions] at h

/-- No state but the first leads to a created order. -/
theorem created_of_mem {x y : OrderState} (h : y ∈ allowedTransitions x)
    (hy : y ∈ [OrderState.intentCreated, .internalOrderCreated]) : x = .intentCreated := by
  simp only [List.mem_cons, List.not_mem_nil, or_false] at hy
  rcases hy with rfl | rfl <;> cases x <;> simp [allowedTransitions] at h ⊢

/-- The phases of an order: nothing submitted and nothing filled, or submitted once, for good. -/
inductive Held (orderId : UUID) (s : GuardedOrder) : Prop where
  | before (hid : s.order.lifecycle.orderId = orderId) (hi : s.intents = []) (hstatus : s.order.status ∈ unsubmitted)
      (hfilled : s.order.filledQuantity = 0)
  | after (hid : s.order.lifecycle.orderId = orderId) (i : BrokerSubmissionIntent) (hi : s.intents = [i])
      (horder : i.orderId = orderId)
      (hstatus : s.order.status ∉ [OrderState.intentCreated, .internalOrderCreated])

/-- **The phases are kept.** -/
theorem Held.step {orderId : UUID} {s : GuardedOrder} (h : s.Held orderId) {a : OrderAction} (ha : s.Unforced a) :
    (s.step a).Held orderId := by
  cases s.step_cases a ha with
  | stays ht =>
    rw [ht]
    exact h
  | moves hmem hother hfill hid hi =>
    cases h with
    | before hs hn hstatus hfilled =>
      have hstill := unsubmitted_of_mem hstatus hmem hother
      refine .before (hid.trans hs) (hi.trans hn) hstill ?_
      rcases hfill with hf | hf
      · exact hf.trans hfilled
      · simp only [unsubmitted, List.mem_cons, List.not_mem_nil, or_false] at hstill hf
        rcases hf with hf | hf <;> rw [hf] at hstill <;> simp at hstill
    | after hs i hn horder hstatus =>
      refine .after (hid.trans hs) i (hi.trans hn) horder fun hback => hstatus ?_
      rw [created_of_mem hmem hback]
      exact List.mem_cons_self
  | submits r d i haction hd hcovers horder hmem ht hid hi =>
    have hcreated := eq_of_submission hmem
    cases h with
    | before hs hn hstatus hfilled =>
      refine .after (hid.trans hs) i (by rw [hi, hn, List.nil_append]) (horder.trans hs) ?_
      rw [ht]
      decide
    | after hs i' hn horder' hstatus =>
      rw [hcreated] at hstatus
      exact absurd (List.mem_cons_of_mem _ List.mem_cons_self) hstatus

/-- The intents of a run are covered by decisions that were handed to the guard in it. -/
theorem run_covered (l : List OrderAction) (s : GuardedOrder) (hl : Along step Unforced s l)
    (i : BrokerSubmissionIntent) (hi : i ∈ (run step s l).intents) :
    i ∈ s.intents ∨ ∃ r d, .request r ∈ l ∧ r.riskDecision = some d ∧ Covers d i := by
  induction l generalizing s with
  | nil => exact Or.inl hi
  | cons a l ih =>
    rw [along_cons] at hl
    rcases ih (s.step a) hl.2 hi with hmem | ⟨r, d, hr, hd⟩
    · cases s.step_cases a hl.1 with
      | stays ht =>
        rw [ht] at hmem
        exact Or.inl hmem
      | moves _ _ _ _ hsame =>
        rw [hsame] at hmem
        exact Or.inl hmem
      | submits r d j haction hd hcovers _ _ _ _ hsame =>
        rw [hsame, List.mem_append, List.mem_singleton] at hmem
        rcases hmem with hmem | rfl
        · exact Or.inl hmem
        · exact Or.inr ⟨r, d, by rw [haction]; exact List.mem_cons_self, hd, hcovers⟩
    · exact Or.inr ⟨r, d, List.mem_cons_of_mem _ hr, hd⟩

/-- **No order trades without an approval.**  However transitions, requests and broker events follow on each other, a
new order is submitted at most once; while it is not, it is new, created or rejected and nothing of it is filled; and
its submission is for this order and covered by a decision that was handed to the guard: approved, not expired at the
request, and for the same signal, strategy and instrument. -/
theorem submitted_once (s : GuardedOrder) (l : List OrderAction) (hnew : s.order.status = .intentCreated)
    (hfilled : s.order.filledQuantity = 0) (hnone : s.intents = []) (hl : Along step Unforced s l) :
    (run step s l).intents.length ≤ 1 ∧
      ((run step s l).intents = [] →
        (run step s l).order.status ∈ unsubmitted ∧ (run step s l).order.filledQuantity = 0) ∧
      ∀ i ∈ (run step s l).intents, i.orderId = s.order.lifecycle.orderId ∧
        ∃ r d, .request r ∈ l ∧ r.riskDecision = some d ∧ Covers d i := by
  have hstart : s.Held s.order.lifecycle.orderId :=
    .before rfl hnone (by rw [hnew]; exact List.mem_cons_self) hfilled
  have hend : (run step s l).Held s.order.lifecycle.orderId :=
    hl.invariant (fun _ _ h ha => h.step ha) hstart
  have hcovered : ∀ i ∈ (run step s l).intents, ∃ r d, .request r ∈ l ∧ r.riskDecision = some d ∧ Covers d i := by
    intro i hi
    rcases run_covered l s hl i hi with hmem | h
    · rw [hnone] at hmem
      cases hmem
    · exact h
  cases hend with
  | before _ hi hstatus hzero =>
    refine ⟨by simp [hi], fun _ => ⟨hstatus, hzero⟩, fun i hmem => ?_⟩
    rw [hi] at hmem
    cases hmem
  | after _ i hi horder _ =>
    refine ⟨by simp [hi], fun hempty => ?_, fun j hmem => ?_⟩
    · rw [hi] at hempty
      cases hempty
    · refine ⟨?_, hcovered j hmem⟩
      rw [hi, List.mem_singleton] at hmem
      rw [hmem]
      exact horder

/-! A created order is refused without a decision, submitted with one, and filled. -/

def sampleFields : DecisionFields :=
  { decisionId := ⟨1⟩, requestId := ⟨2⟩, signalId := ⟨3⟩, strategyId := ⟨4⟩, instrumentId := ⟨5⟩
    verdict := .approved ⟨6⟩ ⟨2026, 8, 12, 9, 30, 30, 0, some 0⟩, reasonCode := "ALL_RULES_PASSED"
    reason := "all configured risk rules passed", ruleId := "core.risk-rule-engine"
    evaluatedAt := ⟨2026, 8, 12, 9, 30, 0, 0, some 0⟩ }

theorem sampleFields_valid : sampleFields.Valid := by decide +kernel

def sampleDecision : RiskDecision := ⟨sampleFields, sampleFields_valid⟩

def sampleRequest (riskDecision : Option RiskDecision) : SubmissionRequest :=
  { riskDecision := riskDecision, signalId := ⟨3⟩, strategyId := ⟨4⟩, instrumentId := ⟨5⟩
    requestedAt := ⟨2026, 8, 12, 9, 30, 1, 0, some 0⟩ }

def sampleEvent (eventType : OrderEventType) (fillQuantity : Dec) : EventFields :=
  { orderId := ⟨7⟩, eventType := eventType, occurredAt := ⟨2026, 8, 12, 9, 30, 2, 0, some 0⟩, reason := "broker"
    fillQuantity := fillQuantity }

theorem acknowledged_valid : (sampleEvent .brokerAcknowledged ⟨false, 0, 0⟩).Valid := by decide +kernel

theorem filled_valid : (sampleEvent .fill ⟨false, 10, 0⟩).Valid := by decide +kernel

def sampleActions : List OrderAction :=
  [.transition .internalOrderCreated ⟨2026, 8, 12, 9, 30, 0, 0, some 0⟩ "internal order created",
    .request (sampleRequest none), .request (sampleRequest (some sampleDecision)), .event ⟨_, acknowledged_valid⟩,
    .event ⟨_, filled_valid⟩]

theorem sample_quantity : (0 : ℚ) < 10 ∧ (0 : ℚ) ≤ 0 ∧ (0 : ℚ) ≤ 10 := by decide

def sampleOrder : GuardedOrder :=
  ⟨⟨⟨⟨7⟩, .intentCreated, []⟩, 10, 0, none, sample_quantity.1, sample_quantity.2.1, sample_quantity.2.2⟩, []⟩

theorem submitted_once_sample : (run step sampleOrder sampleActions).order.status = .filled ∧
    (run step sampleOrder sampleActions).intents.length = 1 ∧
    ∀ i ∈ (run step sampleOrder sampleActions).intents, i.orderId = ⟨7⟩ := by
  have hrun : (run step sampleOrder sampleActions).order.status = .filled ∧
      (run step sampleOrder sampleActions).intents ≠ [] := by decide +kernel
  obtain ⟨hle, -, hcovered⟩ := submitted_once sampleOrder sampleActions rfl rfl rfl (by decide +kernel)
  refine ⟨hrun.1, ?_, fun i hi => (hcovered i hi).1⟩
  have hpos := List.length_pos_of_ne_nil hrun.2
  omega

end GuardedOrder

end AlphaAlgo.Execution
