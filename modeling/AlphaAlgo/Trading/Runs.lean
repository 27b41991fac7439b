import AlphaAlgo.Trading.Orchestrator

/-!
# Runs — signals processed by several orchestrators

Calls of any number of orchestrators interleave over the tables `risk_events` and `trading_intents`.  As in
`Risk.ServiceRuns`, a replay is another call, a crash a call that is not stepped again, and a restart an orchestrator
(and a risk service) of its own whose calls come later.

* `hand_offs_once`: at most one hand-off for each orchestration id, at most one stored intent for each approval.
* `hand_offs_approved`: the approval of a hand-off is committed for the same request on the schedules in which every
  approval of the risk service is persisted.
-/

namespace AlphaAlgo.Trading

open Risk Runs
open Loop (bind_eq_ok)

/-- The orchestrators with what they share, and the calls on them. -/
abbrev TradingSystem := Pool TradingShared TradingCall

/-- The schedule `l` of calls. -/
abbrev tradingSchedule (p : TradingSystem) (l : List ℕ) : TradingSystem := run (Pool.step TradingCall.next) p l

/-- The condition on a step: an approval that the evaluation of the call is to persist is persisted. -/
def ApprovalPersistsFor (s : TradingShared) (c : TradingCall) : Prop :=
  ∀ o intent sub, s.orchestrators[c.orchestrator]? = some o → c.pc = .risk intent sub →
    ApprovalPersists s.risk (c.riskCall o intent sub)

/-! ### A signal of the day -/

/-- The identity key of the sample signal. -/
def sampleSignalKey : String := ((signalIdentityKey sampleRequest.signal).toOption).getD ""

/-- The accepted signal of the sample, processed with an order of one share. -/
def sampleTrade : TradingCall where
  orchestrator := 0
  record := ⟨sampleRequest.signal, sampleSignalKey, .persisted⟩
  tradingMode := "PAPER"
  intent := some sampleIntent
  env := { now := sampleRequest.requestedAt, risk := sampleEval 0, correlationId := ⟨20⟩, recordId := ⟨21⟩ }

def sampleResolved : ResolvedIntent := ⟨sampleIntent, .finite ⟨false, 1, 0⟩, rfl⟩

/-- An orchestrator with its repository. -/
def sampleOrchestrator : Orchestrator := { riskService := 0 }

theorem mode_sampleTrade : sampleTrade.mode = "PAPER" := by
  show upper "PAPER" = "PAPER"
  decide

theorem riskCall_sampleTrade (pc : TradingPc) (sub : RiskPc) :
    TradingCall.riskCall { sampleTrade with pc := pc } sampleOrchestrator sampleResolved sub =
      { sampleCall 0 0 with pc := sub } := by
  have hmode : TradingCall.mode { sampleTrade with pc := pc } = "PAPER" := mode_sampleTrade
  unfold TradingCall.riskCall
  rw [hmode]
  rfl

theorem begin_sampleTrade : sampleTrade.begin sampleOrchestrator = .risk sampleResolved .start := by
  have hallowed : ¬"PAPER" ∉ allowedModes := by decide
  have hstate : ¬sampleTrade.record.state ≠ .persisted := not_not.mpr rfl
  have hkey : signalIdentityKey sampleTrade.record.signal = .ok sampleSignalKey := rfl
  have hidentity : ¬sampleTrade.record.identityKey ≠ sampleSignalKey := not_not.mpr rfl
  have haction : ¬sampleTrade.record.signal.action ∉ TradingCall.tradableActions := by decide
  have hquantity : Num.le? (Decimal.num (.finite ⟨false, 1, 0⟩)) (.fin 0) = .ok false := by decide +kernel
  have hresolve : sampleTrade.resolve sampleOrchestrator .validated = .risk sampleResolved .start := by
    simp [TradingCall.resolve, sampleTrade, sampleIntent, hquantity]
    rfl
  unfold TradingCall.begin
  rw [mode_sampleTrade, if_neg hallowed, if_neg hstate, hkey]
  dsimp only
  rw [if_neg hidentity]
  show (if sampleTrade.record.signal.action ∉ TradingCall.tradableActions then _ else
    sampleTrade.resolve sampleOrchestrator .validated) = _
  rw [if_neg haction, hresolve]

section Steps

variable {s s' : TradingShared} {c c' : TradingCall} {rest : List TradingCall} {o : Orchestrator}

theorem step_first (h : c.next s = (s', c')) : Pool.step TradingCall.next ⟨s, c :: rest⟩ 0 = ⟨s', c' :: rest⟩ := by
  rw [Pool.step_of_some (c := c) rfl, h]
  rfl

theorem onCall_first {G : TradingShared → TradingCall → Prop} : Pool.OnCall G ⟨s, c :: rest⟩ 0 ↔ G s c := by
  simp [Pool.OnCall]

/-- A step of the evaluation is a step of the call. -/
theorem next_risk {intent : ResolvedIntent} {sub pc : RiskPc} {risk : RiskShared}
    (ho : s.orchestrators[c.orchestrator]? = some o) (hpc : c.pc = .risk intent sub)
    (hreturned : ∀ outcome, sub ≠ .returned outcome) (hraised : ∀ e, sub ≠ .raised e)
    (h : (c.riskCall o intent sub).next s.risk = (risk, { c.riskCall o intent sub with pc := pc })) :
    c.next s = ({ s with risk := risk }, { c with pc := .risk intent pc }) := by
  unfold TradingCall.next
  rw [ho, hpc]
  cases sub with
  | returned outcome => exact absurd rfl (hreturned outcome)
  | raised e => exact absurd rfl (hraised e)
  | start | find _ | insert _ | finish _ _ _ | fanOut _ _ _ => dsimp only; rw [h]

theorem next_resume {intent : ResolvedIntent} {outcome : RiskEvaluationOutcome} {pc : TradingPc}
    (ho : s.orchestrators[c.orchestrator]? = some o) (hpc : c.pc = .risk intent (.returned outcome))
    (h : c.resume o intent outcome = pc) : c.next s = (s, { c with pc := pc }) := by
  simp only [TradingCall.next, ho, hpc, h]

theorem next_find {r : Ready} (ho : s.orchestrators[c.orchestrator]? = some o) (hpc : c.pc = .find r)
    (hread : c.env.readFails = false) (hnone : s.records.get r.payload.orchestrationId = none) :
    c.next s = (s, { c with pc := .insert r }) := by
  simp only [TradingCall.next, ho, hpc, hread, hnone, Bool.false_eq_true, if_false]

theorem next_store {r : Ready} {records : TradingIntents} (ho : s.orchestrators[c.orchestrator]? = some o)
    (hpc : c.pc = .insert r) (hanswered : c.env.insertion = .answered)
    (hinsert : insertRecord s.records (c.row r) = some records) :
    c.next s = ({ s with records := records }, { c with pc := .remember r true (some c.env.recordId) }) := by
  simp only [TradingCall.next, ho, hpc, hanswered, hinsert, Commit.apply, if_true]

theorem next_keep {r : Ready} {o' : Orchestrator} {persisted : Bool} {recordId : Option UUID} {pc : TradingPc}
    (ho : s.orchestrators[c.orchestrator]? = some o) (hpc : c.pc = .remember r persisted recordId)
    (hkeep : TradingCall.keep o r persisted recordId = (o', pc)) :
    c.next s = ({ s with orchestrators := s.orchestrators.set c.orchestrator o' }, { c with pc := pc }) := by
  simp only [TradingCall.next, ho, hpc, hkeep]

theorem next_handOff {r : Ready} {persisted : Bool} {recordId : Option UUID}
    (ho : s.orchestrators[c.orchestrator]? = some o) (hpc : c.pc = .handOff r persisted recordId) :
    c.next s =
      ({ s with handOffs := s.handOffs ++ [⟨c.record.signal, r.intent.toRiskOrderIntent, c.mode, r.payload⟩] },
        { c with pc := .returned (c.readyResult r persisted recordId) }) := by
  simp only [TradingCall.next, ho, hpc]

/-- Outside of the evaluation a step meets the condition. -/
theorem approvalPersistsFor_of_ne (h : ∀ intent sub, c.pc ≠ .risk intent sub) : ApprovalPersistsFor s c :=
  fun _ intent sub _ hpc => absurd hpc (h intent sub)

end Steps

/-- The id of the orchestration of the sample. -/
def sampleOrchestrationId : String :=
  ((orchestrationIdentityKey sampleRequest.signal (some sampleIntent) "PAPER").toOption).getD ""

/-- What the sample hands off for an approval. -/
def sampleReady (d : RiskDecision) : Ready :=
  ⟨sampleResolved, d, sampleTrade.buildIntent sampleResolved d ⟨2⟩ sampleExpiry sampleOrchestrationId sampleKey⟩

theorem resume_sampleTrade {pc : TradingPc} {outcome : RiskEvaluationOutcome} (h : SampleApproval 0 outcome.decision) :
    TradingCall.resume { sampleTrade with pc := pc } sampleOrchestrator sampleResolved outcome =
      .find (sampleReady outcome.decision) := by
  have hmode : TradingCall.mode { sampleTrade with pc := pc } = "PAPER" := mode_sampleTrade
  have hbinding : riskIdentityKey sampleRequest.signal (some sampleIntent) "PAPER" = .ok sampleKey := by
    have hupper : upper "PAPER" = "PAPER" := mode_sampleTrade
    have hkey := key_sampleCall 0 0
    rw [RiskCall.key] at hkey
    exact (congrArg _ hupper.symm).trans hkey
  have hid : orchestrationIdentityKey sampleRequest.signal (some sampleIntent) "PAPER" = .ok sampleOrchestrationId := rfl
  have husable : approvalIsUsable outcome.decision sampleRequest.requestedAt sampleKey = .ok true := by
    have htime : sampleExpiry.le? sampleRequest.requestedAt = some false := by decide
    have haware : sampleRequest.requestedAt.aware = true := rfl
    simp [approvalIsUsable, h.verdict, h.bound, htime, haware]
  have hvalidate : TradingCall.validate { sampleTrade with pc := pc } sampleOrchestrator .riskEvaluated sampleResolved
      outcome.decision ⟨2⟩ sampleExpiry = .ok (.find (sampleReady outcome.decision)) := by
    unfold TradingCall.validate
    rw [hmode]
    refine bind_eq_ok.mpr ⟨sampleKey, hbinding, bind_eq_ok.mpr ⟨true, husable, ?_⟩⟩
    rw [if_pos rfl]
    exact bind_eq_ok.mpr ⟨sampleOrchestrationId, hid, rfl⟩
  have hverdict : outcome.decision.verdict = .approved ⟨2⟩ sampleExpiry := h.verdict
  have hmachine : transition .validated .riskEvaluated = .ok .riskEvaluated := rfl
  unfold TradingCall.resume
  rw [hmachine, hverdict]
  dsimp only
  rw [hvalidate]

/-- The system of the sample, with the call at `pc`; a second orchestrator is given the same signal. -/
def samplePool (risk : RiskShared) (pc : TradingPc) : TradingSystem :=
  ⟨⟨risk, [sampleOrchestrator, sampleOrchestrator], Table.empty, []⟩,
    [{ sampleTrade with pc := pc }, { sampleTrade with orchestrator := 1 }]⟩

theorem step_sampleStart (risk : RiskShared) :
    Pool.step TradingCall.next (samplePool risk .start) 0 = samplePool risk (.risk sampleResolved .start) := by
  refine step_first ?_
  have hnext : sampleTrade.next ⟨risk, [sampleOrchestrator, sampleOrchestrator], Table.empty, []⟩ =
      (⟨risk, [sampleOrchestrator, sampleOrchestrator], Table.empty, []⟩,
        { sampleTrade with pc := sampleTrade.begin sampleOrchestrator }) :=
    rfl
  rw [← begin_sampleTrade]
  exact hnext

/-- The evaluation of the sample takes a step. -/
theorem step_sampleRisk {risk risk' : RiskShared} {sub pc : RiskPc} (hreturned : ∀ outcome, sub ≠ .returned outcome)
    (hraised : ∀ e, sub ≠ .raised e)
    (h : RiskCall.next risk { sampleCall 0 0 with pc := sub } = (risk', { sampleCall 0 0 with pc := pc })) :
    Pool.step TradingCall.next (samplePool risk (.risk sampleResolved sub)) 0 =
      samplePool risk' (.risk sampleResolved pc) := by
  refine step_first (next_risk (o := sampleOrchestrator) rfl rfl hreturned hraised ?_)
  rw [riskCall_sampleTrade]
  exact h

/-- The rest of the sample for an approval: the intent is stored, remembered and handed off. -/
theorem run_sampleReturned (outcome : RiskEvaluationOutcome) (h : SampleApproval 0 outcome.decision)
    (risk : RiskShared) : ∃ o records,
    Along (Pool.step TradingCall.next) (Pool.OnCall ApprovalPersistsFor)
        (samplePool risk (.risk sampleResolved (.returned outcome))) [0, 0, 0, 0, 0] ∧
    (tradingSchedule (samplePool risk (.risk sampleResolved (.returned outcome))) [0, 0, 0, 0, 0]).shared =
      ⟨risk, [o, sampleOrchestrator], records,
        [⟨sampleRequest.signal, sampleIntent, "PAPER", (sampleReady outcome.decision).payload⟩]⟩ := by
  have hnone : (Table.empty : TradingIntents).get (sampleTrade.row (sampleReady outcome.decision)).orchestrationId =
      none := rfl
  obtain ⟨records, hinsert⟩ := Table.insert?_of_get_none hnone
  obtain ⟨o, hkeep⟩ : ∃ o, TradingCall.keep sampleOrchestrator (sampleReady outcome.decision) true (some ⟨21⟩) =
      (o, .handOff (sampleReady outcome.decision) true (some ⟨21⟩)) := ⟨_, rfl⟩
  have hmode : TradingCall.mode { sampleTrade with pc := .handOff (sampleReady outcome.decision) true (some ⟨21⟩) } =
      "PAPER" := mode_sampleTrade
  have h1 : TradingCall.next ⟨risk, [sampleOrchestrator, sampleOrchestrator], Table.empty, []⟩
      { sampleTrade with pc := .risk sampleResolved (.returned outcome) } =
      (⟨risk, [sampleOrchestrator, sampleOrchestrator], Table.empty, []⟩,
        { sampleTrade with pc := .find (sampleReady outcome.decision) }) :=
    next_resume rfl rfl (resume_sampleTrade h)
  have h2 : TradingCall.next ⟨risk, [sampleOrchestrator, sampleOrchestrator], Table.empty, []⟩
      { sampleTrade with pc := .find (sampleReady outcome.decision) } =
      (⟨risk, [sampleOrchestrator, sampleOrchestrator], Table.empty, []⟩,
        { sampleTrade with pc := .insert (sampleReady outcome.decision) }) := next_find rfl rfl rfl rfl
  have h3 : TradingCall.next ⟨risk, [sampleOrchestrator, sampleOrchestrator], Table.empty, []⟩
      { sampleTrade with pc := .insert (sampleReady outcome.decision) } =
      (⟨risk, [sampleOrchestrator, sampleOrchestrator], records, []⟩,
        { sampleTrade with pc := .remember (sampleReady outcome.decision) true (some ⟨21⟩) }) :=
    next_store rfl rfl rfl hinsert
  have h4 : TradingCall.next ⟨risk, [sampleOrchestrator, sampleOrchestrator], records, []⟩
      { sampleTrade with pc := .remember (sampleReady outcome.decision) true (some ⟨21⟩) } =
      (⟨risk, [o, sampleOrchestrator], records, []⟩,
        { sampleTrade with pc := .handOff (sampleReady outcome.decision) true (some ⟨21⟩) }) := next_keep rfl rfl hkeep
  have h5 := next_handOff (s := ⟨risk, [o, sampleOrchestrator], records, []⟩)
    (c := { sampleTrade with pc := .handOff (sampleReady outcome.decision) true (some ⟨21⟩) }) rfl rfl
  rw [hmode] at h5
  refine ⟨o, records, ?_, ?_⟩
  · simp only [along_cons, along_nil, and_true, samplePool]
    rw [step_first h1, step_first h2, step_first h3, step_first h4]
    refine ⟨onCall_first.mpr ?_, onCall_first.mpr ?_, onCall_first.mpr ?_, onCall_first.mpr ?_, onCall_first.mpr ?_⟩
    · intro _ _ _ _ hpc
      cases hpc
      trivial
    · exact approvalPersistsFor_of_ne fun _ _ hpc => by cases hpc
    · exact approvalPersistsFor_of_ne fun _ _ hpc => by cases hpc
    · exact approvalPersistsFor_of_ne fun _ _ hpc => by cases hpc
    · exact approvalPersistsFor_of_ne fun _ _ hpc => by cases hpc
  · simp only [tradingSchedule, run_cons, run_nil, samplePool]
    rw [step_first h1, step_first h2, step_first h3, step_first h4, step_first h5]
    rfl

theorem onCall_samplePool {risk : RiskShared} {sub : RiskPc}
    (h : ApprovalPersists risk { sampleCall 0 0 with pc := sub }) :
    Pool.OnCall ApprovalPersistsFor (samplePool risk (.risk sampleResolved sub)) 0 := by
  refine onCall_first.mpr fun o intent sub' ho hpc => ?_
  cases ho
  cases hpc
  rw [riskCall_sampleTrade]
  exact h

/-- The system after the sample. -/
abbrev sampleDay : TradingSystem :=
  tradingSchedule (samplePool sampleShared .start) ([0, 0, 0, 0, 0, 0] ++ [0, 0, 0, 0, 0])

/-- The sample on an empty table: its approval is stored, then its intent is handed off. -/
theorem run_sampleTrade : ∃ d risk o records, SampleApproval 0 d ∧
    Along (Pool.step TradingCall.next) (Pool.OnCall ApprovalPersistsFor) (samplePool sampleShared .start)
      ([0, 0, 0, 0, 0, 0] ++ [0, 0, 0, 0, 0]) ∧
    sampleDay.shared =
      ⟨risk, [o, sampleOrchestrator], records,
        [⟨sampleRequest.signal, sampleIntent, "PAPER", (sampleReady d).payload⟩]⟩ := by
  obtain ⟨service, d, hbegin, hcapacity, -, -, hd⟩ := begin_sampleCall 0 0
  obtain ⟨events, hinsert, -⟩ := insert_sample d
  have hconclude := conclude_inserted (show 0 ≤ service.capacity by rw [hcapacity]; decide) hd.isApproved (some ⟨3⟩)
  generalize (service.recordSeen sampleKey d).1 = service' at hconclude
  let outcome := RiskCall.outcome (sampleWay d) true (some ⟨3⟩)
  let risk : RiskShared := ⟨[service', sampleService], events, [⟨0, sampleKey, d⟩]⟩
  have h1 := step_sampleStart sampleShared
  have h2 : Pool.step TradingCall.next (samplePool sampleShared (.risk sampleResolved .start)) 0 =
      samplePool ⟨[service, sampleService], Table.empty, []⟩ (.risk sampleResolved (.find (sampleWay d))) :=
    step_sampleRisk (by simp) (by simp) (next_start rfl rfl hbegin)
  have h3 : Pool.step TradingCall.next (samplePool ⟨[service, sampleService], Table.empty, []⟩
      (.risk sampleResolved (.find (sampleWay d)))) 0 =
      samplePool ⟨[service, sampleService], Table.empty, []⟩ (.risk sampleResolved (.insert (sampleWay d))) :=
    step_sampleRisk (by simp) (by simp) (next_missing rfl rfl rfl rfl)
  have h4 : Pool.step TradingCall.next (samplePool ⟨[service, sampleService], Table.empty, []⟩
      (.risk sampleResolved (.insert (sampleWay d)))) 0 = samplePool ⟨[service, sampleService], events, []⟩
      (.risk sampleResolved (.finish (sampleWay d) true (some ⟨3⟩))) :=
    step_sampleRisk (by simp) (by simp) (next_insert rfl rfl rfl hinsert)
  have h5 : Pool.step TradingCall.next (samplePool ⟨[service, sampleService], events, []⟩
      (.risk sampleResolved (.finish (sampleWay d) true (some ⟨3⟩)))) 0 =
      samplePool ⟨[service', sampleService], events, []⟩
        (.risk sampleResolved (.fanOut (sampleWay d) true (some ⟨3⟩))) :=
    step_sampleRisk (by simp) (by simp) (next_finish rfl rfl hconclude)
  have h6 : Pool.step TradingCall.next (samplePool ⟨[service', sampleService], events, []⟩
      (.risk sampleResolved (.fanOut (sampleWay d) true (some ⟨3⟩)))) 0 =
      samplePool risk (.risk sampleResolved (.returned outcome)) :=
    step_sampleRisk (by simp) (by simp) (next_fanOut (w := sampleWay d) rfl rfl)
  have hfirst : run (Pool.step TradingCall.next) (samplePool sampleShared .start) [0, 0, 0, 0, 0, 0] =
      samplePool risk (.risk sampleResolved (.returned outcome)) := by
    simp only [run_cons, run_nil]
    rw [h1, h2, h3, h4, h5, h6]
  obtain ⟨o, records, hguard, hrun⟩ := run_sampleReturned outcome hd risk
  refine ⟨d, risk, o, records, hd, (along_append ..).mpr ⟨?_, ?_⟩, ?_⟩
  · simp only [along_cons, along_nil, and_true]
    rw [h1, h2, h3, h4, h5]
    refine ⟨?_, onCall_samplePool trivial, onCall_samplePool fun _ => ⟨rfl, rfl⟩, onCall_samplePool fun _ => ⟨rfl, ?_⟩,
      onCall_samplePool trivial, onCall_samplePool trivial⟩
    · exact onCall_first.mpr (approvalPersistsFor_of_ne fun _ _ hpc => by cases hpc)
    · exact Option.ne_none_iff_exists'.mpr ⟨events, hinsert⟩
  · rw [hfirst]
    exact hguard
  · rw [sampleDay, tradingSchedule, run_append, hfirst]
    exact hrun

/-- The row of a rejection of the same request, stored by another process whose breaker was open. -/
def sampleRejection : RiskEvent where
  id := ⟨30⟩
  decisionId := ⟨31⟩
  strategyId := sampleRequest.signal.strategyId
  signalId := sampleRequest.signal.signalId
  instrumentId := sampleRequest.signal.instrumentId
  accountId := none
  decision := .rejected
  reasonCode := "CIRCUIT_BREAKER_OPEN"
  reason := "circuit breaker open: global"
  approvalId := none
  expiresAt := none
  evaluatedAt := sampleRequest.requestedAt
  tradingMode := "PAPER"
  ruleId := "core.circuit-breaker"
  bindingHash := none
  identityKey := sampleKey
  snapshotId := none

/-- A service over the table with that row. -/
def sampleRejected : RiskShared := ⟨[sampleService], ⟨[sampleRejection], List.nodup_singleton _⟩, []⟩

theorem get_sampleRejected : sampleRejected.events.get sampleKey = some sampleRejection :=
  Table.get_eq_some_iff.mpr ⟨List.mem_singleton_self _, rfl⟩

/-- The sample over the stored rejection: an approval that is not stored is handed off. -/
theorem run_sampleRejected : ∃ d service o records,
    (tradingSchedule (samplePool sampleRejected .start) ([0, 0, 0, 0] ++ [0, 0, 0, 0, 0])).shared =
      ⟨{ sampleRejected with services := [service] }, [o, sampleOrchestrator], records,
        [⟨sampleRequest.signal, sampleIntent, "PAPER", (sampleReady d).payload⟩]⟩ := by
  obtain ⟨service, d, hbegin, -, -, hrepository, hd⟩ := begin_sampleCall 0 0
  let outcome := RiskCall.outcome (sampleWay d) false (some sampleRejection.id)
  let risk : RiskShared := { sampleRejected with services := [service] }
  have hconclude : RiskCall.conclude service (sampleWay d) false (some sampleRejection.id) =
      (service, .returned outcome) := by
    simp [RiskCall.conclude, sampleWay, hd.isApproved, hrepository, outcome]
  have h1 := step_sampleStart sampleRejected
  have h2 : Pool.step TradingCall.next (samplePool sampleRejected (.risk sampleResolved .start)) 0 =
      samplePool risk (.risk sampleResolved (.find (sampleWay d))) :=
    step_sampleRisk (by simp) (by simp) (next_start rfl rfl hbegin)
  have h3 : Pool.step TradingCall.next (samplePool risk (.risk sampleResolved (.find (sampleWay d)))) 0 =
      samplePool risk (.risk sampleResolved (.finish (sampleWay d) false (some sampleRejection.id))) :=
    step_sampleRisk (by simp) (by simp) (next_found rfl rfl rfl get_sampleRejected)
  have h4 : Pool.step TradingCall.next
      (samplePool risk (.risk sampleResolved (.finish (sampleWay d) false (some sampleRejection.id)))) 0 =
      samplePool risk (.risk sampleResolved (.returned outcome)) :=
    step_sampleRisk (by simp) (by simp) (next_finish rfl rfl hconclude)
  obtain ⟨o, records, -, hrun⟩ := run_sampleReturned outcome hd risk
  refine ⟨d, service, o, records, ?_⟩
  rw [tradingSchedule, run_append]
  simp only [run_cons, run_nil]
  rw [h1, h2, h3, h4]
  exact hrun

/-! ### Hand-offs -/

/-- What a row and a payload have in common. -/
structure RecordRef where
  orchestrationId : String
  approvalId : Option String
  state : OrchestrationState
deriving DecidableEq

def TradingIntentRecord.ref (r : TradingIntentRecord) : RecordRef := ⟨r.orchestrationId, r.approvalId, r.state⟩

def TradingIntent.ref (t : TradingIntent) : RecordRef := ⟨t.orchestrationId, some t.approvalId.str, .omsHandoffReady⟩

/-- The committed intent that its call has not handed off yet. -/
def TradingCall.pending (c : TradingCall) : Option RecordRef :=
  match c.pc with
  | .remember r _ _ => some r.payload.ref
  | .handOff r _ _ => some r.payload.ref
  | _ => none

def tradingOutbox : Outbox TradingShared TradingCall RecordRef String where
  committed s := s.records.rows.map TradingIntentRecord.ref
  announced s := s.handOffs.map fun h => h.payload.ref
  pending := TradingCall.pending
  key := RecordRef.orchestrationId

theorem Refused.pending {pc : TradingPc} (h : Refused pc) (c : TradingCall) :
    TradingCall.pending { c with pc := pc } = none := by
  cases h <;> rfl

theorem insertRecord_eq_some {records records' : TradingIntents} {r : TradingIntentRecord}
    (h : insertRecord records r = some records') : records.get r.orchestrationId = none ∧
      records'.rows = records.rows ++ [r] ∧ ∀ x ∈ records.rows, r.approvalId = none ∨ x.approvalId ≠ r.approvalId := by
  unfold insertRecord at h
  split at h
  · rename_i hall
    obtain ⟨hnone, hrows⟩ := Table.insert?_eq_some h
    refine ⟨hnone, hrows, fun x hx => ?_⟩
    have hx := List.all_eq_true.mp hall x hx
    simp only [Bool.and_eq_true, Bool.or_eq_true, decide_eq_true_eq, Option.isNone_iff_eq_none] at hx
    exact hx.2
  · cases h

theorem TradingStep.rows {s s' : TradingShared} {c : TradingCall} {pc : TradingPc} (h : TradingStep s c s' pc) :
    s.records.rows ⊆ s'.records.rows := by
  cases h with
  | rejected _ hinsert _ | inserted _ hinsert | unanswered _ hinsert _ =>
    dsimp only
    rw [(insertRecord_eq_some hinsert).2.1]
    exact List.subset_append_left _ _
  | idle | refused _ | began _ | evaluated _ _ | prepared _ _ _ | rejecting _ | missing _ | kept _ _ _ _
    | handedOff _ => exact List.Subset.refl _

/-- All orchestrators have the repository. -/
def Stores (s : TradingShared) : Prop := ∀ o ∈ s.orchestrators, o.hasRepository = true

theorem TradingStep.stores {s s' : TradingShared} {c : TradingCall} {pc : TradingPc} (h : TradingStep s c s' pc)
    (hs : Stores s) : Stores s' := by
  cases h with
  | kept ho ho' _ _ =>
    intro o hmem
    rcases List.mem_or_eq_of_mem_set hmem with hmem | rfl
    · exact hs o hmem
    · exact ho'.trans (hs _ (List.mem_of_getElem? ho))
  | idle | refused _ | began _ | evaluated _ _ | prepared _ _ _ | rejecting _ | rejected _ _ _ | missing _
    | inserted _ _ | unanswered _ _ _ | handedOff _ => exact hs

/-- With a repository nothing is remembered before it is stored. -/
theorem pending_prepare {o : Orchestrator} (ho : o.hasRepository = true) (c : TradingCall) (r : Ready) :
    TradingCall.pending { c with pc := TradingCall.prepare o r } = none := by
  unfold TradingCall.prepare
  rw [if_pos ho]
  split <;> rfl

/-- **A step of a call commits or hands off at most one intent**, and hands off what it committed. -/
theorem TradingStep.move {s s' : TradingShared} {c : TradingCall} {pc : TradingPc} (h : TradingStep s c s' pc)
    (hs : Stores s) : tradingOutbox.Move s s' c { c with pc := pc } := by
  have hrows : tradingOutbox.committed s ⊆ tradingOutbox.committed s' := List.map_subset _ h.rows
  cases h with
  | idle => exact .quiet hrows rfl rfl
  | refused hrefused | rejected _ _ hrefused | unanswered _ _ hrefused => exact .drop hrows rfl (hrefused.pending c)
  | began _ | evaluated _ _ | rejecting _ | missing _ => exact .drop hrows rfl rfl
  | prepared ho _ _ => exact .drop hrows rfl (pending_prepare (hs _ (List.mem_of_getElem? ho)) c _)
  | @inserted r records hpc hinsert =>
    obtain ⟨hnone, hnew, -⟩ := insertRecord_eq_some hinsert
    refine .commit r.payload.ref hrows ?_ ?_ rfl ?_ rfl
    · show r.payload.orchestrationId ∉ _
      rw [tradingOutbox, List.map_map]
      exact Table.get_eq_none_iff.mp hnone
    · show _ ∈ records.rows.map TradingIntentRecord.ref
      rw [hnew, List.map_append]
      exact List.mem_append_right _ (List.mem_singleton.mpr rfl)
    · show c.pending = none
      rw [TradingCall.pending, hpc]
  | kept _ _ hpc hnext =>
    rcases hnext with rfl | hrefused
    · refine .quiet hrows rfl ?_
      show some _ = c.pending
      rw [TradingCall.pending, hpc]
    · exact .drop hrows rfl (hrefused.pending c)
  | @handedOff r persisted recordId hpc =>
    refine .announce r.payload.ref hrows ?_ ?_ rfl
    · show c.pending = _
      rw [TradingCall.pending, hpc]
    · exact List.map_append

/-- The approvals of the stored intents. -/
def approvals (records : TradingIntents) : List String := records.rows.filterMap TradingIntentRecord.approvalId

/-- The unique column of the approvals: a row that is inserted brings a new one or none. -/
theorem nodup_approvals {records records' : TradingIntents} {r : TradingIntentRecord}
    (h : insertRecord records r = some records') (hnodup : (approvals records).Nodup) : (approvals records').Nodup := by
  obtain ⟨-, hrows, hnew⟩ := insertRecord_eq_some h
  rw [approvals, hrows, List.filterMap_append]
  cases hid : r.approvalId with
  | none =>
    rw [List.filterMap_cons_none hid, List.filterMap_nil, List.append_nil]
    exact hnodup
  | some a =>
    have hsingle : [r].filterMap TradingIntentRecord.approvalId = [a] := by simp [hid]
    rw [hsingle, List.nodup_append]
    refine ⟨hnodup, List.nodup_singleton a, fun x hx y hy hxy => ?_⟩
    obtain ⟨row, hrow, hx⟩ := List.mem_filterMap.mp hx
    rcases hnew row hrow with hnone | hne
    · rw [hid] at hnone
      cases hnone
    · rw [hx, hid, hxy, List.mem_singleton.mp hy] at hne
      exact hne rfl

theorem TradingStep.approvals {s s' : TradingShared} {c : TradingCall} {pc : TradingPc} (h : TradingStep s c s' pc)
    (hnodup : (Trading.approvals s.records).Nodup) : (Trading.approvals s'.records).Nodup := by
  cases h with
  | rejected _ hinsert _ | inserted _ hinsert | unanswered _ hinsert _ => exact nodup_approvals hinsert hnodup
  | idle | refused _ | began _ | evaluated _ _ | prepared _ _ _ | rejecting _ | missing _ | kept _ _ _ _
    | handedOff _ => exact hnodup

/-- What holds of the hand-offs and the stored intents. -/
structure HandOffInv (p : TradingSystem) : Prop where
  stores : Stores p.shared
  approvals : (Trading.approvals p.shared.records).Nodup
  outbox : tradingOutbox.Inv p

theorem HandOffInv.step {p : TradingSystem} (h : HandOffInv p) (i : ℕ) : HandOffInv (p.step TradingCall.next i) := by
  have houtbox : tradingOutbox.Inv (p.step TradingCall.next i) := h.outbox.step fun c _ => by
    obtain ⟨hstep, hnext⟩ := tradingStep_next p.shared c
    rw [hnext]
    exact hstep.move h.stores
  cases hc : p.calls[i]? with
  | none => rw [Pool.step_of_none hc]; exact h
  | some c =>
    obtain ⟨hstep, -⟩ := tradingStep_next p.shared c
    have hshared : (p.step TradingCall.next i).shared = (c.next p.shared).1 := by rw [Pool.step_of_some hc]
    refine ⟨?_, ?_, houtbox⟩
    · rw [hshared]
      exact hstep.stores h.stores
    · rw [hshared]
      exact hstep.approvals h.approvals

/-- A system whose calls are still to be made and whose table keeps its unique column. -/
structure Fresh (p : TradingSystem) : Prop where
  stores : Stores p.shared
  approvals : (Trading.approvals p.shared.records).Nodup
  silent : p.shared.handOffs = []
  start : ∀ c ∈ p.calls, c.pc = .start

theorem handOffInv_fresh {p : TradingSystem} (h : Fresh p) : HandOffInv p := by
  refine ⟨h.stores, h.approvals, Outbox.inv_start ?_ fun c hc => ?_⟩
  · show p.shared.handOffs.map _ = []
    rw [h.silent, List.map_nil]
  · show c.pending = none
    rw [TradingCall.pending, h.start c hc]

/-- **At most one hand-off is made for each orchestration id, and each approval is in at most one stored intent**, on
every schedule and whatever the orchestrators remember at first. -/
theorem hand_offs_once {p : TradingSystem} (h : Fresh p) (l : List ℕ) :
    ((tradingSchedule p l).shared.handOffs.map fun x => x.payload.orchestrationId).Nodup ∧
      (approvals (tradingSchedule p l).shared.records).Nodup := by
  have hinv : HandOffInv (tradingSchedule p l) :=
    run_invariant _ HandOffInv (fun q i hq => hq.step i) (handOffInv_fresh h) l
  refine ⟨?_, hinv.approvals⟩
  have honce := hinv.outbox.announced_once
  have hmap : tradingOutbox.announced (tradingSchedule p l).shared =
      (tradingSchedule p l).shared.handOffs.map fun x => x.payload.ref := rfl
  rw [hmap, List.map_map] at honce
  exact honce

theorem fresh_samplePool : Fresh (samplePool sampleShared .start) where
  stores := by simp [Stores, samplePool, sampleOrchestrator]
  approvals := List.nodup_nil
  silent := rfl
  start := by simp [samplePool, sampleTrade]

theorem TradingStep.handOffs {s s' : TradingShared} {c : TradingCall} {pc : TradingPc} (h : TradingStep s c s' pc) :
    s.handOffs ⊆ s'.handOffs := by
  cases h with
  | handedOff _ => exact List.subset_append_left _ _
  | idle | refused _ | began _ | evaluated _ _ | prepared _ _ _ | rejecting _ | missing _ | kept _ _ _ _
    | rejected _ _ _ | inserted _ _ | unanswered _ _ _ => exact List.Subset.refl _

/-- What was handed off stays handed off. -/
theorem handOffs_mono {p : TradingSystem} {x : HandOff} (hx : x ∈ p.shared.handOffs) (l : List ℕ) :
    x ∈ (tradingSchedule p l).shared.handOffs := by
  refine run_invariant _ (fun q : TradingSystem => x ∈ q.shared.handOffs) (fun q i hq => ?_) hx l
  cases hc : q.calls[i]? with
  | none => rwa [Pool.step_of_none hc]
  | some c =>
    rw [Pool.step_of_some hc]
    exact (tradingStep_next q.shared c).1.handOffs hq

/-- The signal of the day is handed off once, also when a second orchestrator takes it up again. -/
theorem hand_offs_once_replayed :
    ((tradingSchedule sampleDay (List.replicate 11 1)).shared.handOffs.map
        fun x => x.payload.orchestrationId).count sampleOrchestrationId = 1 ∧
      (approvals (tradingSchedule sampleDay (List.replicate 11 1)).shared.records).Nodup := by
  obtain ⟨d, risk, o, records, -, -, hrun⟩ := run_sampleTrade
  have honce := hand_offs_once fresh_samplePool (([0, 0, 0, 0, 0, 0] ++ [0, 0, 0, 0, 0]) ++ List.replicate 11 1)
  rw [tradingSchedule, run_append] at honce
  have hfirst : ⟨sampleRequest.signal, sampleIntent, "PAPER", (sampleReady d).payload⟩ ∈ sampleDay.shared.handOffs := by
    rw [hrun]
    exact List.mem_singleton_self _
  have hlast := List.mem_map_of_mem (f := fun x : HandOff => x.payload.orchestrationId)
    (handOffs_mono hfirst (List.replicate 11 1))
  exact ⟨List.count_eq_one_of_mem honce.1 hlast, honce.2⟩

/-! ### Approvals of the hand-offs -/

/-- The approval of a payload is committed for the request that it was made for. -/
def Committed (events : RiskEvents) (signal : StrategySignal) (intent : RiskOrderIntent) (tradingMode : String)
    (t : TradingIntent) : Prop :=
  riskIdentityKey signal (some intent) tradingMode = .ok t.bindingHash ∧
    ∃ row ∈ events.rows, row.identityKey = t.bindingHash ∧ row.decision = .approved ∧
      row.approvalId = some t.approvalId.str

theorem Committed.mono {events events' : RiskEvents} (hrows : events.rows ⊆ events'.rows) {signal : StrategySignal}
    {intent : RiskOrderIntent} {tradingMode : String} {t : TradingIntent}
    (h : Committed events signal intent tradingMode t) : Committed events' signal intent tradingMode t := by
  obtain ⟨hkey, row, hrow, hdata⟩ := h
  exact ⟨hkey, row, hrows hrow, hdata⟩

/-- The approval of a hand-off is committed. -/
def HandOff.Committed (events : RiskEvents) (h : HandOff) : Prop :=
  Trading.Committed events h.signal h.intent h.tradingMode h.payload

/-- The evaluation of a call, and its ready intent, have their approvals stored. -/
def TradingCall.Backed (events : RiskEvents) (c : TradingCall) : Prop :=
  match c.pc with
  | .risk intent sub => ∀ o, (c.riskCall o intent sub).Backed events
  | .find r | .insert r | .remember r _ _ | .handOff r _ _ =>
    Committed events c.record.signal r.intent.toRiskOrderIntent c.mode r.payload
  | _ => True

theorem TradingCall.Backed.mono {events events' : RiskEvents} (hrows : events.rows ⊆ events'.rows) {c : TradingCall}
    (h : c.Backed events) : c.Backed events' := by
  unfold TradingCall.Backed at h ⊢
  cases hpc : c.pc with
  | start | findRejection _ _ | insertRejection _ _ | returned _ | raised _ => trivial
  | risk intent sub =>
    rw [hpc] at h
    exact fun o => (h o).mono hrows
  | find r | insert r | remember r _ _ | handOff r _ _ =>
    rw [hpc] at h
    exact Committed.mono hrows h

theorem Refused.backed {pc : TradingPc} (h : Refused pc) (events : RiskEvents) (c : TradingCall) :
    TradingCall.Backed events { c with pc := pc } := by
  cases h <;> trivial

/-- The mode is upper-cased again in the key. -/
theorem riskIdentityKey_upper (signal : StrategySignal) (intent : Option RiskOrderIntent) (mode : String) :
    riskIdentityKey signal intent (upper mode) = riskIdentityKey signal intent mode := by
  unfold riskIdentityKey riskIdentityJson
  simp only [upper_upper]

theorem TradingCall.MadeFor.isApproved {c : TradingCall} {intent : ResolvedIntent} {d : RiskDecision} {r : Ready}
    (h : c.MadeFor intent d r) : d.isApproved = true := by
  have hid := h.approved
  unfold RiskDecision.approvalId at hid
  unfold RiskDecision.isApproved
  cases hv : d.verdict with
  | rejected => rw [hv] at hid; cases hid
  | approved a t => rfl

/-- An intent that is made for a stored approval is committed. -/
theorem TradingCall.MadeFor.committed {c : TradingCall} {intent : ResolvedIntent} {d : RiskDecision} {r : Ready}
    (h : c.MadeFor intent d r) {events : RiskEvents} {key : String}
    (hkey : riskIdentityKey c.record.signal (some intent.toRiskOrderIntent) (upper c.mode) = .ok key)
    (hstored : Stored events key d) :
    Committed events c.record.signal r.intent.toRiskOrderIntent c.mode r.payload := by
  obtain ⟨row, hrow, href⟩ := hstored
  have hsame : riskIdentityKey c.record.signal (some intent.toRiskOrderIntent) c.mode = .ok key := by
    rw [← riskIdentityKey_upper]
    exact hkey
  rw [h.binding] at hsame
  cases hsame
  rw [h.intent_eq]
  refine ⟨h.binding, row, hrow, congrArg EventRef.identityKey href, ?_, ?_⟩
  · have hresult : row.decision = d.result := congrArg EventRef.decision href
    rw [hresult, RiskDecision.result, if_pos h.isApproved]
  · have hid : row.approvalId = d.approvalId.map UUID.str := congrArg EventRef.approvalId href
    rw [hid, h.approved]
    rfl

theorem backed_prepare {events : RiskEvents} {c : TradingCall} {r : Ready}
    (h : Committed events c.record.signal r.intent.toRiskOrderIntent c.mode r.payload) (o : Orchestrator) :
    TradingCall.Backed events { c with pc := TradingCall.prepare o r } := by
  unfold TradingCall.prepare
  split
  · trivial
  · split
    · exact h
    · exact h

/-- What holds of the risk services, the calls and the hand-offs on the schedules of the condition. -/
structure ApprovedInv (p : TradingSystem) : Prop where
  wired : Wired p.shared.risk
  services : p.shared.risk.Backed
  calls : ∀ c ∈ p.calls, c.Backed p.shared.risk.events
  handOffs : ∀ h ∈ p.shared.handOffs, h.Committed p.shared.risk.events

/-- What a step does to the risk services, the call and the hand-offs. -/
structure StepApproved (s s' : TradingShared) (c c' : TradingCall) : Prop where
  wired : Wired s'.risk
  services : s'.risk.Backed
  rows : s.risk.events.rows ⊆ s'.risk.events.rows
  call : c'.Backed s'.risk.events
  handOffs : ∀ h ∈ s'.handOffs, h ∈ s.handOffs ∨ h.Committed s'.risk.events

/-- **A step that meets the condition hands off a committed approval, if it hands off at all.** -/
theorem TradingStep.approved {s s' : TradingShared} {c : TradingCall} {pc : TradingPc} (h : TradingStep s c s' pc)
    (hG : ApprovalPersistsFor s c) (hw : Wired s.risk) (hs : s.risk.Backed) (hc : c.Backed s.risk.events) :
    StepApproved s s' c { c with pc := pc } := by
  have hsame := List.Subset.refl s.risk.events.rows
  have hcall := hc
  unfold TradingCall.Backed at hc
  cases h with
  | idle => exact ⟨hw, hs, hsame, hcall, fun _ hx => .inl hx⟩
  | refused hrefused | rejected _ _ hrefused | unanswered _ _ hrefused =>
    exact ⟨hw, hs, hsame, hrefused.backed _ c, fun _ hx => .inl hx⟩
  | began _ => exact ⟨hw, hs, hsame, fun _ => trivial, fun _ hx => .inl hx⟩
  | rejecting _ => exact ⟨hw, hs, hsame, trivial, fun _ hx => .inl hx⟩
  | @evaluated o intent sub ho hpc =>
    rw [hpc] at hc
    have hstep := riskStep_next s.risk (c.riskCall o intent sub)
    obtain ⟨hservices, hsub⟩ := hstep.backed hw (hG o intent sub ho hpc) hs (hc o)
    exact ⟨hstep.wired hw, hservices, hstep.rows, fun _ => hsub, fun _ hx => .inl hx⟩
  | @prepared o intent outcome r ho hpc hmade =>
    rw [hpc] at hc
    obtain ⟨key, hkey, hstored⟩ := hc o hmade.isApproved
    exact ⟨hw, hs, hsame, backed_prepare (hmade.committed hkey hstored) o, fun _ hx => .inl hx⟩
  | missing hpc | inserted hpc _ =>
    rw [hpc] at hc
    exact ⟨hw, hs, hsame, hc, fun _ hx => .inl hx⟩
  | kept _ _ hpc hnext =>
    rw [hpc] at hc
    rcases hnext with rfl | hrefused
    · exact ⟨hw, hs, hsame, hc, fun _ hx => .inl hx⟩
    · exact ⟨hw, hs, hsame, hrefused.backed _ c, fun _ hx => .inl hx⟩
  | handedOff hpc =>
    rw [hpc] at hc
    refine ⟨hw, hs, hsame, trivial, fun x hx => ?_⟩
    rcases List.mem_append.mp hx with hx | hx
    · exact .inl hx
    · rw [List.mem_singleton.mp hx]
      exact .inr hc

theorem ApprovedInv.step {p : TradingSystem} (h : ApprovedInv p) {i : ℕ} (hG : Pool.OnCall ApprovalPersistsFor p i) :
    ApprovedInv (p.step TradingCall.next i) := by
  cases hc : p.calls[i]? with
  | none => rw [Pool.step_of_none hc]; exact h
  | some c =>
    obtain ⟨hstep, hnext⟩ := tradingStep_next p.shared c
    have hshared : (p.step TradingCall.next i).shared = (c.next p.shared).1 := by rw [Pool.step_of_some hc]
    have happroved := hstep.approved (hG c hc) h.wired h.services (h.calls c (List.mem_of_getElem? hc))
    rw [← hnext] at happroved
    refine ⟨?_, ?_, ?_, fun x hx => ?_⟩
    · rw [hshared]
      exact happroved.wired
    · rw [hshared]
      exact happroved.services
    · rw [hshared]
      exact Pool.forall_step hc (fun d hd => (h.calls d hd).mono happroved.rows) happroved.call
    · rw [hshared] at hx ⊢
      rcases happroved.handOffs x hx with hx | hx
      · exact (h.handOffs x hx).mono happroved.rows
      · exact hx

/-- A system whose risk services have their repository and do not remember anything yet, and whose calls are still to
be made. -/
structure New (p : TradingSystem) : Prop where
  wired : Wired p.shared.risk
  forgetful : ∀ s ∈ p.shared.risk.services, s.decisions = []
  silent : p.shared.handOffs = []
  start : ∀ c ∈ p.calls, c.pc = .start

theorem approvedInv_new {p : TradingSystem} (h : New p) : ApprovedInv p := by
  refine ⟨h.wired, fun s hs e he => ?_, fun c hc => ?_, ?_⟩
  · rw [h.forgetful s hs] at he
    cases he
  · unfold TradingCall.Backed
    rw [h.start c hc]
    trivial
  · rw [h.silent]
    simp

/-- **Every hand-off carries an approval that is committed for the same request**, on the schedules in which every
approval of the risk service is persisted. -/
theorem hand_offs_approved {p : TradingSystem} (h : New p) {l : List ℕ}
    (hG : Along (Pool.step TradingCall.next) (Pool.OnCall ApprovalPersistsFor) p l) :
    ∀ x ∈ (tradingSchedule p l).shared.handOffs, x.Committed (tradingSchedule p l).shared.risk.events :=
  (Along.invariant (fun _ _ hq hGi => ApprovedInv.step hq hGi) hG (approvedInv_new h)).handOffs

theorem new_samplePool : New (samplePool sampleShared .start) where
  wired := by simp [Wired, samplePool, sampleShared, sampleService]
  forgetful := by simp [samplePool, sampleShared, sampleService]
  silent := rfl
  start := by simp [samplePool, sampleTrade]

/-- The signal of the day meets the condition. -/
theorem hand_offs_approved_sample : ∃ x, sampleDay.shared.handOffs = [x] ∧
    x.Committed sampleDay.shared.risk.events := by
  obtain ⟨d, risk, o, records, -, hguard, hrun⟩ := run_sampleTrade
  have happroved := hand_offs_approved new_samplePool hguard
  rw [hrun] at happroved ⊢
  exact ⟨_, rfl, happroved _ (List.mem_singleton_self _)⟩

theorem new_sampleRejected : New (samplePool sampleRejected .start) where
  wired := by simp [Wired, samplePool, sampleRejected, sampleService]
  forgetful := by simp [samplePool, sampleRejected, sampleService]
  silent := rfl
  start := by simp [samplePool, sampleTrade]

/-- A rejection of the request is stored, the service approves, and the orchestrator does not look at `persisted`. -/
theorem not_committed_duplicate : ¬∀ p, New p → ∀ l, ∀ x ∈ (tradingSchedule p l).shared.handOffs,
    x.Committed (tradingSchedule p l).shared.risk.events := by
  intro h
  obtain ⟨d, service, o, records, hrun⟩ := run_sampleRejected
  have hall := h _ new_sampleRejected ([0, 0, 0, 0] ++ [0, 0, 0, 0, 0])
  rw [hrun] at hall
  obtain ⟨-, row, hrow, -, hdecision, -⟩ := hall _ (List.mem_singleton_self _)
  rw [List.mem_singleton.mp hrow] at hdecision
  cases hdecision

end AlphaAlgo.Trading
