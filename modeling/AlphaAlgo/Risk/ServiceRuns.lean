import AlphaAlgo.Risk.Service

/-!
# ServiceRuns — evaluations of several services over one table

Calls of any number of services interleave over one table `risk_events`.  A replay is another call with the same
signal, intent and mode, a crash a call that is not stepped again, a restart a service of its own whose calls come
later, another process a further service.

* `approvals_announced_once`: the consumers hear of at most one approval for each identity key, and only of one whose
  row is committed.
* `approvals_agree`: the approvals returned for one identity key have one approval id on the schedules in which every
  approval is stored.
-/

namespace AlphaAlgo.Risk

open Runs
open Loop (bind_eq_ok)

/-- The services with their table, and the calls on them. -/
abbrev RiskSystem := Pool RiskShared RiskCall

/-- The schedule `l` of calls. -/
abbrev riskSchedule (p : RiskSystem) (l : List ℕ) : RiskSystem := run (Pool.step RiskCall.next) p l

/-! ### Rows -/

/-- What a row and a decision have in common. -/
structure EventRef where
  identityKey : String
  decisionId : UUID
  decision : RiskDecisionResult
  approvalId : Option String
deriving DecidableEq

def RiskEvent.ref (e : RiskEvent) : EventRef := ⟨e.identityKey, e.decisionId, e.decision, e.approvalId⟩

def RiskDecision.ref (d : RiskDecision) (identityKey : String) : EventRef :=
  ⟨identityKey, d.decisionId, d.result, d.approvalId.map UUID.str⟩

theorem ref_event (c : RiskCall) (w : Pending) : (c.event w).ref = w.decision.ref w.identityKey := rfl

theorem insertEvent_eq_some {events events' : RiskEvents} {e : RiskEvent} (h : insertEvent events e = some events') :
    events.get e.identityKey = none ∧ events'.rows = events.rows ++ [e] := by
  unfold insertEvent at h
  split_ifs at h
  exact Table.insert?_eq_some h

/-- Rows stay. -/
theorem RiskStep.rows {s s' : RiskShared} {c : RiskCall} {pc : RiskPc} (h : RiskStep s c s' pc) :
    s.events.rows ⊆ s'.events.rows := by
  cases h with
  | inserted _ hinsert | unanswered _ hinsert _ =>
    dsimp only
    rw [(insertEvent_eq_some hinsert).2]
    exact List.subset_append_left _ _
  | idle _ | began _ _ _ | readFailed _ _ | found _ _ | missing _ | refused _ _ | concluded _ _ _ | told _ =>
    exact List.Subset.refl _

/-- All services have the repository. -/
def Wired (s : RiskShared) : Prop := ∀ service ∈ s.services, service.hasRepository = true

theorem wired_set {s : RiskShared} (h : Wired s) {i : ℕ} {service : RiskService}
    (hs : service.hasRepository = true) : Wired { s with services := s.services.set i service } := by
  intro x hx
  rcases List.mem_or_eq_of_mem_set hx with hx | rfl
  · exact h x hx
  · exact hs

theorem RiskStep.wired {s s' : RiskShared} {c : RiskCall} {pc : RiskPc} (h : RiskStep s c s' pc) (hw : Wired s) :
    Wired s' := by
  cases h with
  | began hs _ hspec => exact wired_set hw (hspec.hasRepository.trans (hw _ (List.mem_of_getElem? hs)))
  | concluded hs _ hspec => exact wired_set hw (hspec.hasRepository.trans (hw _ (List.mem_of_getElem? hs)))
  | idle _ | readFailed _ _ | found _ _ | missing _ | inserted _ _ | unanswered _ _ _ | refused _ _ | told _ =>
    exact hw

/-! ### The condition -/

/-- The condition on a step: an approval that is to be persisted is persisted.  The read answers and finds no row of the
identity key, the commit is accepted and answered. -/
def ApprovalPersists (s : RiskShared) (c : RiskCall) : Prop :=
  match c.pc with
  | .find w => w.decision.isApproved = true → c.env.readFails = false ∧ s.events.get w.identityKey = none
  | .insert w => w.decision.isApproved = true →
    c.env.insertion = .answered ∧ insertEvent s.events (c.event w) ≠ none
  | _ => True

/-! ### A day of one signal -/

/-- A service with the default rules. -/
def sampleService : RiskService := { engine := defaultEngine, breaker := { config := defaultConfig } }

/-- What an evaluation reads and draws; the identifiers start from `n`. -/
def sampleEval (n : BitVec 128) : EvalEnv where
  now := sampleRequest.requestedAt
  requestId := sampleRequest.requestId
  rejectId := ⟨n⟩
  snapshot := .ok (sampleSnapshot 10 100)
  builtAt := sampleEnv.evaluatedAt
  engine := ⟨sampleEnv.evaluatedAt, ⟨n + 1⟩, ⟨n + 2⟩⟩
  recordId := ⟨n + 3⟩

/-- An evaluation of the order of one share. -/
def sampleCall (service : ℕ) (n : BitVec 128) : RiskCall where
  service := service
  signal := sampleRequest.signal
  intent := some sampleIntent
  tradingMode := "PAPER"
  env := sampleEval n

/-- The identity key of that evaluation. -/
def sampleKey : String := ((sampleCall 0 0).key.toOption).getD ""

theorem key_sampleCall (service : ℕ) (n : BitVec 128) : (sampleCall service n).key = .ok sampleKey := rfl

/-- The context of the sample is acceptable and has no problems. -/
theorem sample_context : ∃ c,
    build sampleEnv.evaluatedAt sampleRequest.signal (some sampleIntent) (sampleSnapshot 10 100) "PAPER" 0 = .ok c ∧
      Acceptable c ∧ validate c = .ok [] := by
  have happroves : sampleApproves 10 100 = true := by decide +kernel
  obtain ⟨c, d, hbuild, h, hd⟩ := sample_approved happroves
  have hvalid : ((build sampleEnv.evaluatedAt sampleRequest.signal (some sampleIntent) (sampleSnapshot 10 100) "PAPER"
      0).toOption.map validate) = some (.ok []) := by decide +kernel
  rw [hbuild] at hvalid
  exact ⟨c, hbuild, passes_iff_acceptable.mp (RiskRuleEngine.evaluate_approved h hd).2, Option.some.inj hvalid⟩

/-- When the approvals of the sample expire. -/
def sampleExpiry : DateTime := ⟨2026, 8, 12, 9, 15, 32, 0, some 0⟩

/-- The default engine approves an acceptable context, with the approval id that it draws. -/
theorem defaultEngine_approves {c : RiskEvaluationContext} (hc : Acceptable c) (decisionId approvalId : UUID) :
    ∃ d, defaultEngine.evaluate sampleRequest c ⟨sampleEnv.evaluatedAt, decisionId, approvalId⟩ = .ok d ∧
      d.verdict = .approved approvalId sampleExpiry := by
  have hall : ∀ r ∈ defaultRiskRules, r.Passes sampleRequest c := passes_iff_acceptable.mpr hc
  obtain ⟨passed, hrun⟩ := RiskRuleEngine.runRules_of_passes defaultEngine
    ⟨sampleEnv.evaluatedAt, decisionId, approvalId⟩ hall []
  have heval : defaultEngine.evaluate sampleRequest c ⟨sampleEnv.evaluatedAt, decisionId, approvalId⟩ =
      defaultEngine.approval sampleRequest ⟨sampleEnv.evaluatedAt, decisionId, approvalId⟩ passed := hrun
  have hexpires : sampleEnv.evaluatedAt.add? defaultEngine.approvalTtl = some sampleExpiry := by decide
  have hcode : validText 100 "ALL_RULES_PASSED" = true := by decide
  have hreason : validText 500 "all configured risk rules passed" = true := by decide
  have hrule : validText 100 "core.risk-rule-engine" = true := by decide
  have hverdict : validVerdict sampleEnv.evaluatedAt (.approved approvalId sampleExpiry) = true := by
    show validVerdict sampleEnv.evaluatedAt (.approved ⟨0⟩ sampleExpiry) = true
    decide
  rw [heval, RiskRuleEngine.approval]
  dsimp only
  rw [hexpires]
  exact ⟨_, RiskRuleEngine.make_of_valid ⟨hcode, hreason, hrule, rfl, hverdict⟩, rfl⟩

theorem verdict_bind (d : RiskDecision) (key : String) (snapshotId : UUID) :
    (d.bind key snapshotId).verdict = d.verdict := by
  unfold RiskDecision.bind
  split <;> rfl

/-- An approval of the sample: its id, its expiry, and what it is bound to. -/
structure SampleApproval (n : BitVec 128) (d : RiskDecision) : Prop where
  verdict : d.verdict = .approved ⟨n + 2⟩ sampleExpiry
  bound : d.bindingHash = some sampleKey

theorem SampleApproval.isApproved {n : BitVec 128} {d : RiskDecision} (h : SampleApproval n d) :
    d.isApproved = true := by
  simp only [RiskDecision.isApproved, h.verdict]

theorem SampleApproval.approvalId {n : BitVec 128} {d : RiskDecision} (h : SampleApproval n d) :
    d.approvalId = some ⟨n + 2⟩ := by
  simp only [RiskDecision.approvalId, h.verdict]

/-- A new request that no breaker refuses and whose context is well formed is judged by the engine. -/
theorem judge_of_evaluate {s : RiskService} {request : RiskAssessmentRequest} {intent : Option RiskOrderIntent}
    {mode key : String} {env : EvalEnv} {snapshot : RiskSnapshot} {c : RiskEvaluationContext} {d : RiskDecision}
    (hmode : mode ∈ allowedModes) (hnew : s.decisions.lookup key = none)
    (hscopes : (RiskService.checkScopes (instant env.now) (RiskService.scopes request.signal) s.breaker).2 = none)
    (hcontext : s.buildContext request.signal intent mode key env = .ok (snapshot, c)) (hvalid : validate c = .ok [])
    (heval : s.engine.evaluate request c env.engine = .ok d) :
    (s.judge request intent mode key env).2 = .ok (.final (d.bind key snapshot.snapshotId) snapshot.snapshotId) := by
  unfold RiskService.judge
  rw [if_neg (not_not.mpr hmode), hnew]
  dsimp only
  unfold RiskService.judgeNew
  dsimp only
  rw [hscopes]
  dsimp only
  have hcontext' : RiskService.buildContext { s with
      breaker := (RiskService.checkScopes (instant env.now) (RiskService.scopes request.signal) s.breaker).1 }
      request.signal intent mode key env = .ok (snapshot, c) := hcontext
  rw [hcontext']
  dsimp only
  unfold RiskService.judgeContext
  rw [hvalid]
  dsimp only
  rw [heval]

/-- The first step of the evaluation on a new service: an approval on its way to the database. -/
theorem begin_sampleCall (service : ℕ) (n : BitVec 128) : ∃ service' d,
    (sampleCall service n).begin sampleService = (service', .find ⟨sampleKey, d, false, some ⟨7⟩⟩) ∧
      service'.capacity = 4096 ∧ service'.decisions = [] ∧ service'.hasRepository = true ∧ SampleApproval n d := by
  obtain ⟨c, hbuild, hc, hvalid⟩ := sample_context
  obtain ⟨d, heval, hverdict⟩ := defaultEngine_approves hc ⟨n + 1⟩ ⟨n + 2⟩
  have hnow : (sampleEval n).now = sampleRequest.requestedAt := rfl
  have hscopes : (RiskService.checkScopes (instant (sampleEval n).now) (RiskService.scopes sampleRequest.signal)
      sampleService.breaker).2 = none := by
    rw [hnow]
    decide +kernel
  have hcontext : sampleService.buildContext sampleRequest.signal (some sampleIntent) "PAPER" sampleKey (sampleEval n) =
      .ok (sampleSnapshot 10 100, c) :=
    bind_eq_ok.mpr ⟨sampleSnapshot 10 100, rfl, bind_eq_ok.mpr ⟨c, hbuild, rfl⟩⟩
  have hallowed : "PAPER" ∈ allowedModes := by decide
  have hnew : sampleService.decisions.lookup sampleKey = none := rfl
  have hjudge : (sampleService.judge sampleRequest (some sampleIntent) "PAPER" sampleKey (sampleEval n)).2 =
      .ok (.final (d.bind sampleKey ⟨7⟩) ⟨7⟩) :=
    judge_of_evaluate hallowed hnew hscopes hcontext hvalid heval
  have hjudged := judged sampleService sampleRequest (some sampleIntent) "PAPER" sampleKey (sampleEval n)
  have hrequest : (sampleCall service n).request = .ok sampleRequest := rfl
  have hmode : upper (sampleCall service n).tradingMode = "PAPER" := by
    show upper "PAPER" = "PAPER"
    decide
  have hbegin : (sampleCall service n).begin sampleService = RiskCall.proceed sampleKey
      (sampleService.judge sampleRequest (some sampleIntent) "PAPER" sampleKey (sampleEval n)) := by
    rw [RiskCall.begin, key_sampleCall, hrequest]
    dsimp only
    rw [hmode]
    rfl
  rw [hbegin]
  generalize sampleService.judge sampleRequest (some sampleIntent) "PAPER" sampleKey (sampleEval n) = r at *
  obtain ⟨service', j⟩ := r
  have hrepository : service'.hasRepository = true := hjudged.hasRepository
  have hcapacity : service'.capacity = 4096 := hjudged.capacity
  have happroved : (d.bind sampleKey ⟨7⟩).isApproved = true := by
    simp only [RiskDecision.isApproved, verdict_bind, hverdict]
  refine ⟨service', d.bind sampleKey ⟨7⟩, ?_, hcapacity, hjudged.decisions, hrepository,
    by rw [verdict_bind, hverdict], RiskDecision.bindingHash_bind happroved⟩
  dsimp only at hjudge
  rw [hjudge]
  simp only [RiskCall.proceed, RiskCall.persist, hrepository, if_true]

section Steps

variable {s : RiskShared} {c : RiskCall} {service service' : RiskService} {w : Pending} {pc : RiskPc}

theorem next_start (hs : s.services[c.service]? = some service) (hpc : c.pc = .start)
    (hbegin : c.begin service = (service', pc)) :
    c.next s = ({ s with services := s.services.set c.service service' }, { c with pc := pc }) := by
  simp only [RiskCall.next, hs, hpc, hbegin]

theorem next_missing (hs : s.services[c.service]? = some service) (hpc : c.pc = .find w)
    (hread : c.env.readFails = false) (hnone : s.events.get w.identityKey = none) :
    c.next s = (s, { c with pc := .insert w }) := by
  simp only [RiskCall.next, hs, hpc, hread, hnone, Bool.false_eq_true, if_false]

theorem next_found {row : RiskEvent} (hs : s.services[c.service]? = some service) (hpc : c.pc = .find w)
    (hread : c.env.readFails = false) (hfound : s.events.get w.identityKey = some row) :
    c.next s = (s, { c with pc := .finish w false (some row.id) }) := by
  simp only [RiskCall.next, hs, hpc, hread, hfound, Bool.false_eq_true, if_false]

theorem next_insert {events : RiskEvents} (hs : s.services[c.service]? = some service) (hpc : c.pc = .insert w)
    (hanswered : c.env.insertion = .answered) (hinsert : insertEvent s.events (c.event w) = some events) :
    c.next s = ({ s with events := events }, { c with pc := .finish w true (some c.env.recordId) }) := by
  simp only [RiskCall.next, hs, hpc, hanswered, hinsert, Commit.apply, if_true]

theorem next_finish {persisted : Bool} {recordId : Option UUID} (hs : s.services[c.service]? = some service)
    (hpc : c.pc = .finish w persisted recordId)
    (hconclude : RiskCall.conclude service w persisted recordId = (service', pc)) :
    c.next s = ({ s with services := s.services.set c.service service' }, { c with pc := pc }) := by
  simp only [RiskCall.next, hs, hpc, hconclude]

theorem next_fanOut {persisted : Bool} {recordId : Option UUID} (hs : s.services[c.service]? = some service)
    (hpc : c.pc = .fanOut w persisted recordId) :
    c.next s = ({ s with notified := s.notified ++ [⟨c.service, w.identityKey, w.decision⟩] },
      { c with pc := .returned (RiskCall.outcome w persisted recordId) }) := by
  simp only [RiskCall.next, hs, hpc]

theorem step_first {s' : RiskShared} {c' : RiskCall} {rest : List RiskCall} (h : c.next s = (s', c')) :
    Pool.step RiskCall.next ⟨s, c :: rest⟩ 0 = ⟨s', c' :: rest⟩ := by
  rw [Pool.step_of_some (c := c) rfl, h]
  rfl

theorem step_second {s' : RiskShared} {c' d : RiskCall} {rest : List RiskCall} (h : c.next s = (s', c')) :
    Pool.step RiskCall.next ⟨s, d :: c :: rest⟩ 1 = ⟨s', d :: c' :: rest⟩ := by
  rw [Pool.step_of_some (c := c) rfl, h]
  rfl

theorem step_third {s' : RiskShared} {c' d e : RiskCall} (h : c.next s = (s', c')) :
    Pool.step RiskCall.next ⟨s, [d, e, c]⟩ 2 = ⟨s', [d, e, c']⟩ := by
  rw [Pool.step_of_some (c := c) rfl, h]
  rfl

end Steps

/-- Two services over an empty table. -/
def sampleShared : RiskShared := ⟨[sampleService, sampleService], Table.empty, []⟩

/-- The approval of the sample on its way. -/
def sampleWay (d : RiskDecision) : Pending := ⟨sampleKey, d, false, some ⟨7⟩⟩

theorem accepts_empty (e : RiskEvent) : accepts Table.empty e = fits 16 e.tradingMode := by
  simp [accepts, Table.empty]

/-- The row of the sample is accepted by an empty table. -/
theorem insert_sample (d : RiskDecision) : ∃ events,
    insertEvent Table.empty ((sampleCall 0 0).event (sampleWay d)) = some events ∧
      events.get sampleKey = some ((sampleCall 0 0).event (sampleWay d)) := by
  have hwidth : fits 16 ((sampleCall 0 0).event (sampleWay d)).tradingMode = true := by
    show fits 16 (upper "PAPER") = true
    decide
  have hnone : (Table.empty : RiskEvents).get ((sampleCall 0 0).event (sampleWay d)).identityKey = none := rfl
  obtain ⟨events, hinsert⟩ := Table.insert?_of_get_none hnone
  refine ⟨events, ?_, ?_⟩
  · rw [insertEvent, accepts_empty, if_pos hwidth, hinsert]
  · rw [Table.get_of_insert hinsert]
    exact if_pos rfl

theorem conclude_inserted {service : RiskService} {d : RiskDecision} (hcapacity : 0 ≤ service.capacity)
    (happroved : d.isApproved = true) (recordId : Option UUID) :
    RiskCall.conclude service (sampleWay d) true recordId =
      ((service.recordSeen sampleKey d).1, .fanOut (sampleWay d) true recordId) := by
  have hseen : (service.recordSeen sampleKey d).2 = true := decide_eq_true hcapacity
  simp [RiskCall.conclude, sampleWay, happroved, hseen]

theorem onCall_first {G : RiskShared → RiskCall → Prop} {s : RiskShared} {c : RiskCall} {rest : List RiskCall} :
    Pool.OnCall G ⟨s, c :: rest⟩ 0 ↔ G s c := by
  simp [Pool.OnCall]

/-- The first evaluation of a day, alone: its approval is stored, remembered, announced and returned. -/
theorem run_sample (rest : List RiskCall) : ∃ d service' events, SampleApproval 0 d ∧ (events.get sampleKey).isSome ∧
    service'.decisions.lookup sampleKey = some d ∧
    Along (Pool.step RiskCall.next) (Pool.OnCall ApprovalPersists) ⟨sampleShared, sampleCall 0 0 :: rest⟩
      [0, 0, 0, 0, 0] ∧
    riskSchedule ⟨sampleShared, sampleCall 0 0 :: rest⟩ [0, 0, 0, 0, 0] =
      ⟨⟨[service', sampleService], events, [⟨0, sampleKey, d⟩]⟩,
        { sampleCall 0 0 with pc := .returned (RiskCall.outcome (sampleWay d) true (some ⟨3⟩)) } :: rest⟩ := by
  obtain ⟨service1, d, hbegin, hcapacity, hempty, -, hd⟩ := begin_sampleCall 0 0
  obtain ⟨events, hinsert, hget⟩ := insert_sample d
  have hconclude := conclude_inserted (show 0 ≤ service1.capacity by rw [hcapacity]; decide) hd.isApproved (some ⟨3⟩)
  have hseen : (service1.recordSeen sampleKey d).1.decisions.lookup sampleKey = some d := by
    simp [RiskService.recordSeen, hempty, hcapacity]
  generalize (service1.recordSeen sampleKey d).1 = service2 at hconclude hseen
  refine ⟨d, service2, events, hd, by rw [hget]; rfl, hseen, ?_⟩
  have h1 : (sampleCall 0 0).next sampleShared = (⟨[service1, sampleService], Table.empty, []⟩,
      { sampleCall 0 0 with pc := .find (sampleWay d) }) := next_start rfl rfl hbegin
  have h2 : RiskCall.next ⟨[service1, sampleService], Table.empty, []⟩
      { sampleCall 0 0 with pc := .find (sampleWay d) } = (⟨[service1, sampleService], Table.empty, []⟩,
      { sampleCall 0 0 with pc := .insert (sampleWay d) }) := next_missing rfl rfl rfl rfl
  have h3 : RiskCall.next ⟨[service1, sampleService], Table.empty, []⟩
      { sampleCall 0 0 with pc := .insert (sampleWay d) } = (⟨[service1, sampleService], events, []⟩,
      { sampleCall 0 0 with pc := .finish (sampleWay d) true (some ⟨3⟩) }) := next_insert rfl rfl rfl hinsert
  have h4 : RiskCall.next ⟨[service1, sampleService], events, []⟩
      { sampleCall 0 0 with pc := .finish (sampleWay d) true (some ⟨3⟩) } = (⟨[service2, sampleService], events, []⟩,
      { sampleCall 0 0 with pc := .fanOut (sampleWay d) true (some ⟨3⟩) }) := next_finish rfl rfl hconclude
  have h5 : RiskCall.next ⟨[service2, sampleService], events, []⟩
      { sampleCall 0 0 with pc := .fanOut (sampleWay d) true (some ⟨3⟩) } =
      (⟨[service2, sampleService], events, [⟨0, sampleKey, d⟩]⟩,
        { sampleCall 0 0 with pc := .returned (RiskCall.outcome (sampleWay d) true (some ⟨3⟩)) }) := by
    rw [next_fanOut (w := sampleWay d) rfl rfl]
    rfl
  constructor
  · simp only [along_cons, along_nil, and_true]
    rw [step_first h1, step_first h2, step_first h3, step_first h4]
    refine ⟨onCall_first.mpr trivial, onCall_first.mpr fun _ => ⟨rfl, rfl⟩, onCall_first.mpr fun _ => ⟨rfl, ?_⟩,
      onCall_first.mpr trivial, onCall_first.mpr trivial⟩
    exact Option.ne_none_iff_exists'.mpr ⟨events, hinsert⟩
  · simp only [riskSchedule, run_cons, run_nil]
    rw [step_first h1, step_first h2, step_first h3, step_first h4, step_first h5]

/-! ### Announcements -/

/-- The committed row of an approval that its call has not announced yet. -/
def RiskCall.pending (c : RiskCall) : Option EventRef :=
  match c.pc with
  | .finish w true _ =>
    if w.early = false ∧ w.decision.isApproved = true then some (w.decision.ref w.identityKey) else none
  | .fanOut w _ _ => some (w.decision.ref w.identityKey)
  | _ => none

def riskOutbox : Outbox RiskShared RiskCall EventRef String where
  committed s := s.events.rows.map RiskEvent.ref
  announced s := s.notified.map fun n => n.decision.ref n.identityKey
  pending := RiskCall.pending
  key := EventRef.identityKey

/-- A call before its fan-out holds an approval that is bound to its identity key. -/
def RiskCall.Bound (c : RiskCall) : Prop :=
  match c.pc with
  | .find w | .insert w | .finish w _ _ =>
    w.decision.isApproved = true → w.decision.bindingHash = some w.identityKey
  | .fanOut w _ _ => w.decision.isApproved = true ∧ w.decision.bindingHash = some w.identityKey
  | _ => True

theorem bound_persist {c : RiskCall} {service : RiskService} {w : Pending}
    (h : w.decision.isApproved = true → w.decision.bindingHash = some w.identityKey) :
    RiskCall.Bound { c with pc := RiskCall.persist service w } := by
  unfold RiskCall.persist
  split <;> exact h

theorem RiskStep.bound {s s' : RiskShared} {c : RiskCall} {pc : RiskPc} (h : RiskStep s c s' pc) (hb : c.Bound) :
    RiskCall.Bound { c with pc := pc } := by
  cases h with
  | idle _ => exact hb
  | began hs _ hspec =>
    cases hspec.pc with
    | raised _ | replayed _ _ => trivial
    | judged _ hbound => exact bound_persist hbound
  | readFailed hpc _ | found hpc _ | missing hpc | inserted hpc _ | unanswered hpc _ _ | refused hpc _ =>
    unfold RiskCall.Bound at hb
    rw [hpc] at hb
    exact hb
  | concluded hs hpc hspec =>
    unfold RiskCall.Bound at hb
    rw [hpc] at hb
    cases hspec.pc with
    | raised | returned => trivial
    | fanOut happroved _ => exact ⟨happroved, hb happroved⟩
  | told _ => trivial

theorem pending_persist {c : RiskCall} {service : RiskService} {w : Pending} :
    RiskCall.pending { c with pc := RiskCall.persist service w } = none := by
  unfold RiskCall.persist
  split <;> rfl

/-- A fan-out of a bound approval. -/
def Notification.Bound (n : Notification) : Prop :=
  n.decision.isApproved = true ∧ n.decision.bindingHash = some n.identityKey

theorem RiskStep.notified {s s' : RiskShared} {c : RiskCall} {pc : RiskPc} (h : RiskStep s c s' pc) (hb : c.Bound)
    (hn : ∀ n ∈ s.notified, n.Bound) : ∀ n ∈ s'.notified, n.Bound := by
  cases h with
  | told hpc =>
    unfold RiskCall.Bound at hb
    rw [hpc] at hb
    intro n hmem
    rcases List.mem_append.mp hmem with hmem | hmem
    · exact hn n hmem
    · rw [List.mem_singleton.mp hmem]
      exact hb
  | idle _ | began _ _ _ | readFailed _ _ | found _ _ | missing _ | inserted _ _ | unanswered _ _ _ | refused _ _
    | concluded _ _ _ => exact hn

/-- **A step of a call commits or announces at most one approval**, and announces what it committed. -/
theorem RiskStep.move {s s' : RiskShared} {c : RiskCall} {pc : RiskPc} (h : RiskStep s c s' pc) (hw : Wired s) :
    riskOutbox.Move s s' c { c with pc := pc } := by
  have hrows : riskOutbox.committed s ⊆ riskOutbox.committed s' := List.map_subset _ h.rows
  cases h with
  | idle _ => exact .quiet hrows rfl rfl
  | began hs _ hspec =>
    refine .drop hrows rfl ?_
    cases hspec.pc with
    | raised _ | replayed _ _ => rfl
    | judged _ _ => exact pending_persist
  | readFailed _ _ | found _ _ | missing _ | refused _ _ => exact .drop hrows rfl rfl
  | unanswered _ _ _ => exact .drop hrows rfl rfl
  | @inserted w events hpc hinsert =>
    obtain ⟨hnone, hnew⟩ := insertEvent_eq_some hinsert
    by_cases happroved : w.early = false ∧ w.decision.isApproved = true
    · refine .commit (w.decision.ref w.identityKey) hrows ?_ ?_ rfl ?_ ?_
      · show w.identityKey ∉ _
        rw [riskOutbox, List.map_map]
        exact Table.get_eq_none_iff.mp hnone
      · show _ ∈ events.rows.map RiskEvent.ref
        rw [hnew, List.map_append]
        exact List.mem_append_right _ (List.mem_singleton.mpr (ref_event c w).symm)
      · show c.pending = none
        rw [RiskCall.pending, hpc]
      · exact if_pos happroved
    · exact .drop hrows rfl (if_neg happroved)
  | @concluded service service' w persisted recordId _ hs hpc hspec =>
    have htold := hspec.told (hw _ (List.mem_of_getElem? hs))
    cases hspec.pc with
    | raised | returned => exact .drop hrows rfl rfl
    | fanOut happroved hearly =>
      refine .quiet hrows rfl ?_
      show some _ = c.pending
      rw [RiskCall.pending, hpc, htold rfl]
      exact (if_pos ⟨hearly, happroved⟩).symm
  | @told w persisted recordId hpc =>
    refine .announce (w.decision.ref w.identityKey) hrows ?_ ?_ rfl
    · show c.pending = _
      rw [RiskCall.pending, hpc]
    · exact List.map_append

/-- What holds of the calls, the fan-outs and the table. -/
structure AnnounceInv (p : RiskSystem) : Prop where
  wired : Wired p.shared
  bound : ∀ c ∈ p.calls, c.Bound
  notified : ∀ n ∈ p.shared.notified, n.Bound
  outbox : riskOutbox.Inv p

theorem AnnounceInv.step {p : RiskSystem} (h : AnnounceInv p) (i : ℕ) : AnnounceInv (p.step RiskCall.next i) := by
  have houtbox : riskOutbox.Inv (p.step RiskCall.next i) := h.outbox.step fun c _ => by
    rw [RiskCall.next_eq]
    exact (riskStep_next p.shared c).move h.wired
  cases hc : p.calls[i]? with
  | none => rw [Pool.step_of_none hc]; exact h
  | some c =>
    have hstep := riskStep_next p.shared c
    have hbound : c.Bound := h.bound c (List.mem_of_getElem? hc)
    have hshared : (p.step RiskCall.next i).shared = (c.next p.shared).1 := by rw [Pool.step_of_some hc]
    refine ⟨?_, Pool.forall_step hc h.bound ?_, ?_, houtbox⟩
    · rw [hshared]
      exact hstep.wired h.wired
    · rw [RiskCall.next_eq]
      exact hstep.bound hbound
    · rw [hshared]
      exact hstep.notified hbound h.notified

/-- A system whose calls are still to be made and whose consumers have not been told anything. -/
structure Fresh (p : RiskSystem) : Prop where
  wired : Wired p.shared
  silent : p.shared.notified = []
  start : ∀ c ∈ p.calls, c.pc = .start

theorem announceInv_fresh {p : RiskSystem} (h : Fresh p) : AnnounceInv p := by
  refine ⟨h.wired, fun c hc => ?_, ?_, Outbox.inv_start ?_ fun c hc => ?_⟩
  · unfold RiskCall.Bound
    rw [h.start c hc]
    trivial
  · rw [h.silent]
    simp
  · show p.shared.notified.map _ = []
    rw [h.silent, List.map_nil]
  · show c.pending = none
    rw [RiskCall.pending, h.start c hc]

/-- **At most one approval is announced for each identity key, and its row is committed**, whatever the services
remember at first, whatever the table holds, and on every schedule. -/
theorem approvals_announced_once {p : RiskSystem} (h : Fresh p) (l : List ℕ) :
    ((riskSchedule p l).shared.notified.map Notification.identityKey).Nodup ∧
      ∀ n ∈ (riskSchedule p l).shared.notified, n.decision.isApproved = true ∧
        n.decision.bindingHash = some n.identityKey ∧
        ∃ row ∈ (riskSchedule p l).shared.events.rows, row.identityKey = n.identityKey ∧ row.decision = .approved ∧
          row.decisionId = n.decision.decisionId ∧ row.approvalId = n.decision.approvalId.map UUID.str := by
  have hinv : AnnounceInv (riskSchedule p l) :=
    run_invariant _ AnnounceInv (fun q i hq => hq.step i) (announceInv_fresh h) l
  constructor
  · have honce := hinv.outbox.announced_once
    have hmap : riskOutbox.announced (riskSchedule p l).shared =
        (riskSchedule p l).shared.notified.map fun n => n.decision.ref n.identityKey := rfl
    rw [hmap, List.map_map] at honce
    exact honce
  · intro n hn
    obtain ⟨happroved, hbound⟩ := hinv.notified n hn
    refine ⟨happroved, hbound, ?_⟩
    obtain ⟨row, hrow, href⟩ := List.mem_map.mp (hinv.outbox.announced_stored _ (List.mem_map_of_mem hn))
    refine ⟨row, hrow, congrArg EventRef.identityKey href, ?_, congrArg EventRef.decisionId href,
      congrArg EventRef.approvalId href⟩
    have hresult : row.decision = n.decision.result := congrArg EventRef.decision href
    rw [hresult, RiskDecision.result, if_pos happroved]

theorem fresh_sample : Fresh ⟨sampleShared, [sampleCall 0 0, sampleCall 1 10]⟩ := by
  refine ⟨?_, rfl, ?_⟩
  · simp [Wired, sampleShared, sampleService]
  · simp [sampleCall]

/-- The consumers of the first service hear of the stored approval. -/
theorem approvals_announced_once_sample : ∃ d, ∃ row ∈
    (riskSchedule ⟨sampleShared, [sampleCall 0 0, sampleCall 1 10]⟩ [0, 0, 0, 0, 0]).shared.events.rows,
    (riskSchedule ⟨sampleShared, [sampleCall 0 0, sampleCall 1 10]⟩ [0, 0, 0, 0, 0]).shared.notified =
      [⟨0, sampleKey, d⟩] ∧ row.identityKey = sampleKey ∧ row.decision = .approved := by
  obtain ⟨d, service, events, -, -, -, -, hrun⟩ := run_sample [sampleCall 1 10]
  have hnotified : (riskSchedule ⟨sampleShared, [sampleCall 0 0, sampleCall 1 10]⟩ [0, 0, 0, 0, 0]).shared.notified =
      [⟨0, sampleKey, d⟩] := by rw [hrun]
  obtain ⟨-, hstored⟩ := approvals_announced_once fresh_sample [0, 0, 0, 0, 0]
  obtain ⟨-, -, row, hrow, hkey, hdecision, -⟩ := hstored ⟨0, sampleKey, d⟩ (by rw [hnotified]; simp)
  exact ⟨d, row, hrow, hnotified, hkey, hdecision⟩

/-! ### One approval for each identity key -/

/-- A row of the table stores the decision. -/
def Stored (events : RiskEvents) (identityKey : String) (d : RiskDecision) : Prop :=
  ∃ row ∈ events.rows, row.ref = d.ref identityKey

theorem Stored.mono {events events' : RiskEvents} (h : events.rows ⊆ events'.rows) {key : String} {d : RiskDecision}
    (hd : Stored events key d) : Stored events' key d := by
  obtain ⟨row, hrow, href⟩ := hd
  exact ⟨row, h hrow, href⟩

/-- Two decisions that are stored under one identity key have one approval id. -/
theorem Stored.approvalId_eq {events : RiskEvents} {key : String} {d d' : RiskDecision} (h : Stored events key d)
    (h' : Stored events key d') : d.approvalId = d'.approvalId := by
  obtain ⟨row, hrow, href⟩ := h
  obtain ⟨row', hrow', href'⟩ := h'
  have hkeys : row.identityKey = row'.identityKey :=
    (congrArg EventRef.identityKey href).trans (congrArg EventRef.identityKey href').symm
  have hrows : row = row' := List.inj_on_of_nodup_map events.unique hrow hrow' hkeys
  have hids : d.approvalId.map UUID.str = d'.approvalId.map UUID.str := by
    have h1 : row.approvalId = d.approvalId.map UUID.str := congrArg EventRef.approvalId href
    have h2 : row'.approvalId = d'.approvalId.map UUID.str := congrArg EventRef.approvalId href'
    rw [← h1, ← h2, hrows]
  exact Option.map_injective (fun _ _ => UUID.str_inj) hids

/-- What a call holds has its identity key, and an approval after the database is stored. -/
def RiskCall.Backed (events : RiskEvents) (c : RiskCall) : Prop :=
  match c.pc with
  | .find w | .insert w => c.key = .ok w.identityKey
  | .finish w _ _ | .fanOut w _ _ =>
    c.key = .ok w.identityKey ∧ (w.decision.isApproved = true → Stored events w.identityKey w.decision)
  | .returned o => o.decision.isApproved = true → ∃ key, c.key = .ok key ∧ Stored events key o.decision
  | _ => True

/-- The remembered approvals are stored. -/
def RiskShared.Backed (s : RiskShared) : Prop :=
  ∀ service ∈ s.services, ∀ e ∈ service.decisions, e.2.isApproved = true → Stored s.events e.1 e.2

theorem RiskCall.Backed.mono {events events' : RiskEvents} (hrows : events.rows ⊆ events'.rows) {c : RiskCall}
    (h : c.Backed events) : c.Backed events' := by
  unfold RiskCall.Backed at h ⊢
  cases hpc : c.pc with
  | start | raised _ => trivial
  | find w | insert w => rw [hpc] at h; exact h
  | finish w _ _ | fanOut w _ _ =>
    rw [hpc] at h
    exact ⟨h.1, fun happroved => (h.2 happroved).mono hrows⟩
  | returned o =>
    rw [hpc] at h
    intro happroved
    obtain ⟨key, hkey, hstored⟩ := h happroved
    exact ⟨key, hkey, hstored.mono hrows⟩

theorem RiskShared.Backed.mono {s : RiskShared} {events : RiskEvents} (hrows : s.events.rows ⊆ events.rows)
    (h : s.Backed) : RiskShared.Backed { s with events := events } :=
  fun service hs e he happroved => (h service hs e he happroved).mono hrows

theorem RiskShared.Backed.set {s : RiskShared} (h : s.Backed) {i : ℕ} {service : RiskService}
    (hs : ∀ e ∈ service.decisions, e.2.isApproved = true → Stored s.events e.1 e.2) :
    RiskShared.Backed { s with services := s.services.set i service } := by
  intro x hx
  rcases List.mem_or_eq_of_mem_set hx with hx | rfl
  · exact h x hx
  · exact hs

theorem backed_persist {events : RiskEvents} {c : RiskCall} {service : RiskService} {w : Pending}
    (hs : service.hasRepository = true) (hkey : c.key = .ok w.identityKey) :
    RiskCall.Backed events { c with pc := RiskCall.persist service w } := by
  unfold RiskCall.persist
  rw [if_pos hs]
  exact hkey

/-- **A step that meets the condition leaves every approval stored**, the remembered ones and those of the call. -/
theorem RiskStep.backed {s s' : RiskShared} {c : RiskCall} {pc : RiskPc} (h : RiskStep s c s' pc) (hw : Wired s)
    (hG : ApprovalPersists s c) (hs : s.Backed) (hc : c.Backed s.events) :
    s'.Backed ∧ RiskCall.Backed s'.events { c with pc := pc } := by
  have hpcs := hc
  unfold RiskCall.Backed at hc
  unfold ApprovalPersists at hG
  cases h with
  | idle _ => exact ⟨hs, hpcs⟩
  | @began service service' _ hservice _ hspec =>
    have hmem := List.mem_of_getElem? hservice
    refine ⟨hs.set fun e he happroved => ?_, ?_⟩
    · rcases hspec.decisions e he with he | hrejected
      · exact hs service hmem e he happroved
      · rw [hrejected] at happroved
        cases happroved
    · cases hspec.pc with
      | raised e => trivial
      | replayed hkey hprior => exact fun happroved => ⟨_, hkey, hs service hmem _ hprior happroved⟩
      | judged hkey _ => exact backed_persist (hw service hmem) hkey
  | readFailed hpc hread =>
    rw [hpc] at hc hG
    refine ⟨hs, hc, fun happroved => ?_⟩
    have hanswers := (hG happroved).1
    rw [hread] at hanswers
    cases hanswers
  | found hpc hfound =>
    rw [hpc] at hc hG
    refine ⟨hs, hc, fun happroved => ?_⟩
    have hnone := (hG happroved).2
    rw [hfound] at hnone
    cases hnone
  | missing hpc =>
    rw [hpc] at hc
    exact ⟨hs, hc⟩
  | @inserted w events hpc hinsert =>
    rw [hpc] at hc
    have hnew := (insertEvent_eq_some hinsert).2
    have hrows : s.events.rows ⊆ events.rows := by rw [hnew]; exact List.subset_append_left _ _
    refine ⟨hs.mono hrows, hc, fun _ => ⟨c.event w, ?_, ref_event c w⟩⟩
    show _ ∈ events.rows
    rw [hnew]
    exact List.mem_append_right _ (List.mem_singleton_self _)
  | unanswered hpc hinsert hlost =>
    rw [hpc] at hc hG
    have hrows := RiskStep.rows (.unanswered hpc hinsert hlost)
    exact ⟨hs.mono hrows, hc, fun happroved => absurd (hG happroved).1 hlost⟩
  | refused hpc hlost =>
    rw [hpc] at hc hG
    refine ⟨hs, hc, fun happroved => ?_⟩
    rcases hlost with hlost | hlost
    · exact absurd (hG happroved).1 hlost
    · exact absurd hlost (hG happroved).2
  | @concluded service service' w persisted recordId _ hservice hpc hspec =>
    rw [hpc] at hc
    refine ⟨hs.set fun e he happroved => ?_, ?_⟩
    · rcases hspec.decisions e he with he | rfl
      · exact hs service (List.mem_of_getElem? hservice) e he happroved
      · exact hc.2 happroved
    · cases hspec.pc with
      | raised => trivial
      | returned => exact fun happroved => ⟨_, hc.1, hc.2 happroved⟩
      | fanOut _ _ => exact hc
  | told hpc =>
    rw [hpc] at hc
    exact ⟨hs, fun happroved => ⟨_, hc.1, hc.2 happroved⟩⟩

/-- What holds of the services, the calls and the table on the schedules of the condition. -/
structure StoredInv (p : RiskSystem) : Prop where
  wired : Wired p.shared
  services : p.shared.Backed
  calls : ∀ c ∈ p.calls, c.Backed p.shared.events

theorem StoredInv.step {p : RiskSystem} (h : StoredInv p) {i : ℕ} (hG : Pool.OnCall ApprovalPersists p i) :
    StoredInv (p.step RiskCall.next i) := by
  cases hc : p.calls[i]? with
  | none => rw [Pool.step_of_none hc]; exact h
  | some c =>
    have hstep := riskStep_next p.shared c
    have hshared : (p.step RiskCall.next i).shared = (c.next p.shared).1 := by rw [Pool.step_of_some hc]
    obtain ⟨hservices, hcall⟩ := hstep.backed h.wired (hG c hc) h.services (h.calls c (List.mem_of_getElem? hc))
    rw [← RiskCall.next_eq] at hcall
    refine ⟨by rw [hshared]; exact hstep.wired h.wired, by rw [hshared]; exact hservices, ?_⟩
    rw [hshared]
    exact Pool.forall_step hc (fun d hd => (h.calls d hd).mono hstep.rows) hcall

/-- The approvals that were returned for one identity key have one approval id. -/
def OneApproval (p : RiskSystem) : Prop :=
  ∀ c ∈ p.calls, ∀ c' ∈ p.calls, ∀ o o', c.pc = .returned o → c'.pc = .returned o' → c.key = c'.key →
    o.decision.isApproved = true → o'.decision.isApproved = true → o.decision.approvalId = o'.decision.approvalId

theorem StoredInv.oneApproval {p : RiskSystem} (h : StoredInv p) : OneApproval p := by
  intro c hc c' hc' o o' ho ho' hkeys happroved happroved'
  have hb := h.calls c hc
  have hb' := h.calls c' hc'
  unfold RiskCall.Backed at hb hb'
  rw [ho] at hb
  rw [ho'] at hb'
  obtain ⟨key, hkey, hstored⟩ := hb happroved
  obtain ⟨key', hkey', hstored'⟩ := hb' happroved'
  rw [hkey, hkey'] at hkeys
  cases hkeys
  exact hstored.approvalId_eq hstored'

/-- A system whose services do not remember anything yet. -/
structure New (p : RiskSystem) : Prop extends Fresh p where
  forgetful : ∀ s ∈ p.shared.services, s.decisions = []

theorem storedInv_new {p : RiskSystem} (h : New p) : StoredInv p := by
  refine ⟨h.wired, fun s hs e he => ?_, fun c hc => ?_⟩
  · rw [h.forgetful s hs] at he
    cases he
  · unfold RiskCall.Backed
    rw [h.start c hc]
    trivial

/-- **All approvals returned for one identity key carry one approval id** on the schedules in which every approval
that is to be persisted is persisted. -/
theorem approvals_agree {p : RiskSystem} (h : New p) {l : List ℕ}
    (hG : Along (Pool.step RiskCall.next) (Pool.OnCall ApprovalPersists) p l) : OneApproval (riskSchedule p l) :=
  (Along.invariant (fun _ _ hq hGi => StoredInv.step hq hGi) hG (storedInv_new h)).oneApproval

/-- Two services, an evaluation on each. -/
def samplePair : RiskSystem := ⟨sampleShared, [sampleCall 0 0, sampleCall 1 10]⟩

theorem new_sample : New samplePair where
  toFresh := fresh_sample
  forgetful := by simp [samplePair, sampleShared, sampleService]

/-- The same signal again: the remembered approval is returned. -/
theorem begin_replay (service : ℕ) (n : BitVec 128) {s : RiskService} {d : RiskDecision} (hd : SampleApproval 0 d)
    (hseen : s.decisions.lookup sampleKey = some d) :
    (sampleCall service n).begin s =
      (s, .returned { decision := d, status := .duplicate, priorDecisionId := some d.decisionId }) := by
  have hrequest : (sampleCall service n).request = .ok sampleRequest := rfl
  have hmode : upper (sampleCall service n).tradingMode = "PAPER" := by
    show upper "PAPER" = "PAPER"
    decide
  have hallowed : ¬"PAPER" ∉ allowedModes := by decide
  have hnow : (sampleCall service n).env.now = sampleRequest.requestedAt := rfl
  have husable : approvalIsUsable d sampleRequest.requestedAt sampleKey = .ok true := by
    have htime : sampleExpiry.le? sampleRequest.requestedAt = some false := by decide
    have haware : sampleRequest.requestedAt.aware = true := rfl
    simp [approvalIsUsable, hd.verdict, hd.bound, htime, haware]
  have hprior : RiskService.judgePrior sampleRequest sampleKey (sampleCall service n).env d = .ok (.replay d) := by
    rw [RiskService.judgePrior, hd.isApproved, hnow, husable]
    rfl
  rw [RiskCall.begin, key_sampleCall, hrequest]
  dsimp only
  rw [hmode, RiskService.judge, if_neg hallowed, hseen]
  dsimp only
  rw [hprior]
  rfl

/-- A signal, the signal again, and the signal on a second service. -/
def sampleTrio : RiskSystem := ⟨sampleShared, [sampleCall 0 0, sampleCall 0 10, sampleCall 1 20]⟩

theorem new_trio : New sampleTrio where
  wired := fresh_sample.wired
  silent := rfl
  start := by simp [sampleTrio, sampleCall]
  forgetful := by simp [sampleTrio, sampleShared, sampleService]

/-- The second service begins before the signal is replayed on the first. -/
theorem approvals_agree_replayed : ∃ o o', o.status = .duplicate ∧
    ((riskSchedule sampleTrio [0, 0, 0, 0, 0, 2, 1]).calls.map RiskCall.pc).take 2 = [.returned o', .returned o] ∧
      OneApproval (riskSchedule sampleTrio [0, 0, 0, 0, 0, 2, 1]) := by
  obtain ⟨d, service, events, hd, -, hseen, hguard, hrun⟩ := run_sample [sampleCall 0 10, sampleCall 1 20]
  obtain ⟨service', d', hbegin, -⟩ := begin_sampleCall 1 20
  have h6 : RiskCall.next ⟨[service, sampleService], events, [⟨0, sampleKey, d⟩]⟩ (sampleCall 1 20) =
      (⟨[service, service'], events, [⟨0, sampleKey, d⟩]⟩, { sampleCall 1 20 with pc := .find (sampleWay d') }) :=
    next_start rfl rfl hbegin
  have h7 : RiskCall.next ⟨[service, service'], events, [⟨0, sampleKey, d⟩]⟩ (sampleCall 0 10) =
      (⟨[service, service'], events, [⟨0, sampleKey, d⟩]⟩, { sampleCall 0 10 with
        pc := .returned { decision := d, status := .duplicate, priorDecisionId := some d.decisionId } }) :=
    next_start rfl rfl (begin_replay 0 10 hd hseen)
  have hguards : Along (Pool.step RiskCall.next) (Pool.OnCall ApprovalPersists) sampleTrio
      ([0, 0, 0, 0, 0] ++ [2, 1]) := by
    refine (along_append ..).mpr ⟨hguard, ?_⟩
    show Along _ _ (riskSchedule ⟨sampleShared, [sampleCall 0 0, sampleCall 0 10, sampleCall 1 20]⟩ [0, 0, 0, 0, 0]) _
    rw [hrun]
    simp only [along_cons, along_nil, and_true]
    rw [step_third h6]
    refine ⟨fun c hc => ?_, fun c hc => ?_⟩
    · cases hc
      trivial
    · cases hc
      trivial
  have hfinal : riskSchedule sampleTrio ([0, 0, 0, 0, 0] ++ [2, 1]) = run (Pool.step RiskCall.next)
      (riskSchedule ⟨sampleShared, [sampleCall 0 0, sampleCall 0 10, sampleCall 1 20]⟩ [0, 0, 0, 0, 0]) [2, 1] := by
    rw [riskSchedule, run_append]
    rfl
  rw [hrun, run_cons, step_third h6, run_cons, step_second h7, run_nil] at hfinal
  refine ⟨{ decision := d, status := .duplicate, priorDecisionId := some d.decisionId },
    RiskCall.outcome (sampleWay d) true (some ⟨3⟩), rfl, ?_, approvals_agree new_trio hguards⟩
  show ((riskSchedule sampleTrio ([0, 0, 0, 0, 0] ++ [2, 1])).calls.map RiskCall.pc).take 2 = _
  rw [hfinal]
  rfl

/-- A restarted service evaluates the signal again: the stored approval is found, another one is returned. -/
theorem not_oneApproval_restart : ¬∀ p, New p → ∀ l, OneApproval (riskSchedule p l) := by
  intro h
  obtain ⟨d, service, events, hd, hsome, -, -, hrun⟩ := run_sample [sampleCall 1 10]
  obtain ⟨row, hrow⟩ := Option.isSome_iff_exists.mp hsome
  obtain ⟨service', d', hbegin, -, -, hrepository, hd'⟩ := begin_sampleCall 1 10
  have hconclude : RiskCall.conclude service' (sampleWay d') false (some row.id) =
      (service', .returned (RiskCall.outcome (sampleWay d') false (some row.id))) := by
    simp [RiskCall.conclude, sampleWay, hd'.isApproved, hrepository]
  have h1 : RiskCall.next ⟨[service, sampleService], events, [⟨0, sampleKey, d⟩]⟩ (sampleCall 1 10) =
      (⟨[service, service'], events, [⟨0, sampleKey, d⟩]⟩, { sampleCall 1 10 with pc := .find (sampleWay d') }) :=
    next_start rfl rfl hbegin
  have h2 : RiskCall.next ⟨[service, service'], events, [⟨0, sampleKey, d⟩]⟩
      { sampleCall 1 10 with pc := .find (sampleWay d') } = (⟨[service, service'], events, [⟨0, sampleKey, d⟩]⟩,
      { sampleCall 1 10 with pc := .finish (sampleWay d') false (some row.id) }) := next_found rfl rfl rfl hrow
  have h3 : RiskCall.next ⟨[service, service'], events, [⟨0, sampleKey, d⟩]⟩
      { sampleCall 1 10 with pc := .finish (sampleWay d') false (some row.id) } =
      (⟨[service, service'], events, [⟨0, sampleKey, d⟩]⟩, { sampleCall 1 10 with
        pc := .returned (RiskCall.outcome (sampleWay d') false (some row.id)) }) := next_finish rfl rfl hconclude
  have hfinal := h samplePair new_sample ([0, 0, 0, 0, 0] ++ [1, 1, 1])
  rw [riskSchedule, run_append] at hfinal
  change OneApproval (run _ (riskSchedule ⟨sampleShared, [sampleCall 0 0, sampleCall 1 10]⟩ [0, 0, 0, 0, 0]) _) at hfinal
  rw [hrun, run_cons, step_second h1, run_cons, step_second h2, run_cons, step_second h3, run_nil] at hfinal
  have heq := hfinal _ (List.mem_cons_self) _ (List.mem_cons_of_mem _ List.mem_cons_self) _ _ rfl rfl rfl
    hd.isApproved hd'.isApproved
  have heq' : d.approvalId = d'.approvalId := heq
  rw [hd.approvalId, hd'.approvalId] at heq'
  exact absurd heq' (by decide)

end AlphaAlgo.Risk
