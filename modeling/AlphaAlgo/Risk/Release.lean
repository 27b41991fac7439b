import AlphaAlgo.Base.Values
import AlphaAlgo.Lib.Pool
import AlphaAlgo.Risk.Breaker

/-!
# Release — the live release controller

`LiveReleaseController` moves the release stage from `DISABLED` over `SHADOW` to `FULL`; an advance checks the stage,
evaluates the safety gates, the halt and the circuit breaker, and then writes the stage.  The three are separate steps,
and calls interleave between them.  Halts are switched and the breakers are used by others meanwhile.

* `release_guarded`: in the schedules in which no advance writes its stage after a `disable` that came after its
  check, `FULL` is entered from `SHADOW` only, and a disabled controller stays disabled until an advance to `SHADOW`
  that began later.
-/

namespace AlphaAlgo.Risk

open Runs

/-! ### Gates and halts -/

inductive LiveSafetyGate where
  | marketDataStable
  | brokerConnectionStable
  | strategyTestsPassing
  | riskTestsPassing
  | executionTestsPassing
  | reconciliationWorking
  | paperTradingVerified
  | emergencyStopVerified
  | circuitBreakersVerified
  | positionCalculationsVerified
  | pnlVerified
  | duplicateOrderProtectionVerified
  | brokerFailureHandlingVerified
  | databasePersistenceVerified
  | auditLoggingVerified
  | monitoringVerified
  | securityChecksPassed
deriving DecidableEq, Repr

/-- The gates in the order of the enumeration. -/
def LiveSafetyGate.all : List LiveSafetyGate :=
  [marketDataStable, brokerConnectionStable, strategyTestsPassing, riskTestsPassing, executionTestsPassing,
    reconciliationWorking, paperTradingVerified, emergencyStopVerified, circuitBreakersVerified,
    positionCalculationsVerified, pnlVerified, duplicateOrderProtectionVerified, brokerFailureHandlingVerified,
    databasePersistenceVerified, auditLoggingVerified, monitoringVerified, securityChecksPassed]

structure LiveSafetyGateSnapshot where
  passed : LiveSafetyGate → Bool := fun _ => false
  evaluatedSource : String := "manual"

def LiveSafetyGateSnapshot.failedGates (s : LiveSafetyGateSnapshot) : List LiveSafetyGate :=
  LiveSafetyGate.all.filter fun g => !s.passed g

/-- The last three fields are the checks of `__post_init__`. -/
structure GlobalHaltState where
  active : Bool
  reason : String
  updatedAt : DateTime
  updatedBy : String
  aware : updatedAt.aware = true
  reason_given : active = true → blank reason = false
  actor_given : blank updatedBy = false

/-- `ValueError`. -/
structure ReleaseError where
  text : String
deriving DecidableEq

/-- `_require_actor_reason`. -/
def requireActorReason (actor reason : String) : Option ReleaseError :=
  if blank reason then some ⟨"reason is required"⟩
  else if blank actor then some ⟨"actor is required"⟩
  else none

/-- `GlobalHaltController.activate`, at the reading `now` of its clock. -/
def activate (reason actor : String) (now : DateTime) : Except ReleaseError GlobalHaltState :=
  if hr : blank reason = true then .error ⟨"reason is required"⟩
  else if ha : blank actor = true then .error ⟨"actor is required"⟩
  else if hn : now.aware = true then
    .ok ⟨true, reason, now, actor, hn, fun _ => Bool.eq_false_of_not_eq_true hr, Bool.eq_false_of_not_eq_true ha⟩
  else .error ⟨"updated_at must be timezone-aware"⟩

/-- `GlobalHaltController.deactivate`; the reason goes into the metadata. -/
def deactivate (reason actor : String) (now : DateTime) : Except ReleaseError GlobalHaltState :=
  if blank reason then .error ⟨"reason is required"⟩
  else if ha : blank actor = true then .error ⟨"actor is required"⟩
  else if hn : now.aware = true then
    .ok ⟨false, "", now, actor, hn, fun h => (by cases h), Bool.eq_false_of_not_eq_true ha⟩
  else .error ⟨"updated_at must be timezone-aware"⟩

/-! ### The controller -/

inductive LiveReleaseStage where
  | disabled
  | shadow
  | full
deriving DecidableEq, Repr

def LiveReleaseStage.value : LiveReleaseStage → String
  | disabled => "DISABLED"
  | shadow => "SHADOW"
  | full => "FULL"

/-- The last two fields are the checks of `__post_init__`. -/
structure LiveReleaseDecision where
  stage : LiveReleaseStage
  approved : Bool
  reasonCode : String
  reason : String
  evaluatedAt : DateTime
  failedGates : List LiveSafetyGate := []
  globalHaltActive : Bool := true
  circuitBreakerOpen : Bool := false
  actor : String
  evaluatedSource : Option String := none
  aware : evaluatedAt.aware = true
  sound : approved = true → failedGates = [] ∧ globalHaltActive = false ∧ circuitBreakerOpen = false

/-- The stages an advance leads to. -/
inductive AdvanceTarget where
  | shadow
  | full
deriving DecidableEq, Repr

def AdvanceTarget.stage : AdvanceTarget → LiveReleaseStage
  | shadow => .shadow
  | full => .full

/-- Why a stage refuses the advance, without an evaluation. -/
def AdvanceTarget.refusal : AdvanceTarget → LiveReleaseStage → Option (String × String)
  | shadow, .shadow => some ("ALREADY_SHADOW", "already in SHADOW stage")
  | shadow, .full => some ("ALREADY_FULL", "already in FULL stage; disable() to pull back")
  | shadow, .disabled => none
  | full, .disabled => some ("NOT_IN_SHADOW", "must advance to SHADOW before FULL")
  | full, .full => some ("ALREADY_FULL", "already in FULL stage")
  | full, .shadow => none

/-- What the calls share.  `disables` counts the completed `disable` calls; no step reads it. -/
structure ReleaseState where
  stage : LiveReleaseStage := .disabled
  halt : GlobalHaltState
  breakers : CircuitBreakerRegistry := {}
  disables : ℕ := 0

/-- The readings of the clocks of a call. -/
structure ReleaseEnv where
  evaluatedAt : DateTime
  breakerNow : ℤ

/-- `_current`. -/
def current (s : ReleaseState) (reasonCode reason actor : String) (env : ReleaseEnv) :
    ReleaseState × Except ReleaseError LiveReleaseDecision :=
  let (breakers, allowed) := s.breakers.allows "global" env.breakerNow
  ({ s with breakers := breakers },
    if ha : env.evaluatedAt.aware = true then
      .ok { stage := s.stage, approved := false, reasonCode := reasonCode, reason := reason
            evaluatedAt := env.evaluatedAt, globalHaltActive := s.halt.active, circuitBreakerOpen := !allowed
            actor := actor, aware := ha, sound := fun h => (by cases h) }
    else .error ⟨"evaluated_at must be timezone-aware"⟩)

/-- The decision of `_evaluate` on what it has read. -/
def decideRelease (target : LiveReleaseStage) (snapshot : LiveSafetyGateSnapshot) (actor : String)
    (halt : GlobalHaltState) (breakerOpen : Bool) (evaluatedAt : DateTime) (ha : evaluatedAt.aware = true) :
    LiveReleaseDecision :=
  if halt.active then
    { stage := target, approved := false, reasonCode := "GLOBAL_HALT_ACTIVE", reason := halt.reason
      evaluatedAt := evaluatedAt, failedGates := snapshot.failedGates, globalHaltActive := true
      circuitBreakerOpen := breakerOpen, actor := actor, aware := ha, sound := fun h => (by cases h) }
  else if snapshot.failedGates ≠ [] then
    { stage := target, approved := false, reasonCode := "LIVE_SAFETY_GATES_FAILED"
      reason := "one or more LIVE safety gates are incomplete", evaluatedAt := evaluatedAt
      failedGates := snapshot.failedGates, globalHaltActive := false, circuitBreakerOpen := breakerOpen
      actor := actor, evaluatedSource := some snapshot.evaluatedSource, aware := ha, sound := fun h => (by cases h) }
  else if breakerOpen then
    { stage := target, approved := false, reasonCode := "CIRCUIT_BREAKER_OPEN", reason := "circuit breaker is open"
      evaluatedAt := evaluatedAt, globalHaltActive := false, circuitBreakerOpen := true, actor := actor
      aware := ha, sound := fun h => (by cases h) }
  else
    { stage := target, approved := true, reasonCode := "RELEASE_APPROVED"
      reason := "progression to " ++ target.value ++ " approved", evaluatedAt := evaluatedAt
      globalHaltActive := false, circuitBreakerOpen := false, actor := actor
      evaluatedSource := some snapshot.evaluatedSource, aware := ha, sound := fun _ => ⟨rfl, rfl, rfl⟩ }

/-- `_evaluate`: a query of the breaker may make it half-open. -/
def evaluateRelease (s : ReleaseState) (target : LiveReleaseStage) (snapshot : LiveSafetyGateSnapshot)
    (actor : String) (env : ReleaseEnv) : ReleaseState × Except ReleaseError LiveReleaseDecision :=
  let (breakers, allowed) := s.breakers.allows "global" env.breakerNow
  ({ s with breakers := breakers },
    if ha : env.evaluatedAt.aware = true then
      .ok (decideRelease target snapshot actor s.halt (!allowed) env.evaluatedAt ha)
    else .error ⟨"evaluated_at must be timezone-aware"⟩)

/-! ### Calls -/

/-- The calls on the controller, on its halt controller, and on the breakers that it shares. -/
inductive ReleaseOp where
  | advance (target : AdvanceTarget) (snapshot : LiveSafetyGateSnapshot)
  | disable
  | activate
  | deactivate
  | breaker (scopeKey : String) (c : BreakerCall)

/-- Where a call is.  An advance under way carries the number of completed `disable` calls at its check. -/
inductive ReleasePc where
  | start
  | evaluate (checkedAt : ℕ)
  | write (checkedAt : ℕ) (decision : LiveReleaseDecision)
  | returned (decision : Option LiveReleaseDecision)
  | raised (err : ReleaseError)

structure ReleaseCall where
  op : ReleaseOp
  actor : String := ""
  reason : String := ""
  env : ReleaseEnv
  pc : ReleasePc := .start

namespace ReleaseCall

/-- The end of a call with a decision or an exception. -/
def ended (x : ReleaseState × Except ReleaseError LiveReleaseDecision) : ReleaseState × ReleasePc :=
  match x with
  | (s, .error err) => (s, .raised err)
  | (s, .ok d) => (s, .returned (some d))

/-- The new halt state, or the exception. -/
def switched (s : ReleaseState) (x : Except ReleaseError GlobalHaltState) : ReleaseState × ReleasePc :=
  match x with
  | .error err => (s, .raised err)
  | .ok halt => ({ s with halt := halt }, .returned none)

/-- The first step: the arguments are checked, and an advance checks the stage. -/
def begin (s : ReleaseState) (c : ReleaseCall) : ReleaseState × ReleasePc :=
  match c.op with
  | .advance target _ =>
    match requireActorReason c.actor c.reason with
    | some err => (s, .raised err)
    | none =>
      match target.refusal s.stage with
      | some (reasonCode, reason) => ended (current s reasonCode reason c.actor c.env)
      | none => (s, .evaluate s.disables)
  | .disable =>
    match requireActorReason c.actor c.reason with
    | some err => (s, .raised err)
    | none => ({ s with stage := .disabled, disables := s.disables + 1 }, .returned none)
  | .activate => switched s (Risk.activate c.reason c.actor c.env.evaluatedAt)
  | .deactivate => switched s (Risk.deactivate c.reason c.actor c.env.evaluatedAt)
  | .breaker scopeKey call => ({ s with breakers := s.breakers.call scopeKey call }, .returned none)

/-- One step of a call. -/
def nextPc (s : ReleaseState) (c : ReleaseCall) : ReleaseState × ReleasePc :=
  match c.pc, c.op with
  | .start, _ => c.begin s
  | .evaluate n, .advance target snapshot =>
    match evaluateRelease s target.stage snapshot c.actor c.env with
    | (s', .error err) => (s', .raised err)
    | (s', .ok d) => (s', if d.approved then .write n d else .returned (some d))
  | .write _ d, .advance target _ => ({ s with stage := target.stage }, .returned (some d))
  | pc, _ => (s, pc)

def next (s : ReleaseState) (c : ReleaseCall) : ReleaseState × ReleaseCall :=
  ((c.nextPc s).1, { c with pc := (c.nextPc s).2 })

end ReleaseCall

/-! ### What a step does -/

/-- The number of completed `disable` calls at the check of an advance under way. -/
def ReleasePc.checkedAt : ReleasePc → Option ℕ
  | .evaluate n => some n
  | .write n _ => some n
  | _ => none

/-- The steps of a call: state and place after. -/
inductive ReleaseStep (s : ReleaseState) (c : ReleaseCall) : ReleaseState → ReleasePc → Prop
  | kept {s' : ReleaseState} {pc : ReleasePc} (hs : s'.stage = s.stage) (hd : s'.disables = s.disables)
      (hpc : pc ≠ .start) (hn : ∀ n, pc.checkedAt = some n → c.pc.checkedAt = some n) : ReleaseStep s c s' pc
  | checked {target : AdvanceTarget} {snapshot : LiveSafetyGateSnapshot} (hpc : c.pc = .start)
      (hop : c.op = .advance target snapshot) (hr : target.refusal s.stage = none) :
      ReleaseStep s c s (.evaluate s.disables)
  | disabled (hpc : c.pc = .start) (hop : c.op = .disable) :
      ReleaseStep s c { s with stage := .disabled, disables := s.disables + 1 } (.returned none)
  | wrote {target : AdvanceTarget} {snapshot : LiveSafetyGateSnapshot} {n : ℕ} {d : LiveReleaseDecision}
      (hpc : c.pc = .write n d) (hop : c.op = .advance target snapshot) :
      ReleaseStep s c { s with stage := target.stage } (.returned (some d))

theorem ended_cases (x : ReleaseState × Except ReleaseError LiveReleaseDecision) :
    (ReleaseCall.ended x).1 = x.1 ∧ (ReleaseCall.ended x).2 ≠ .start ∧ (ReleaseCall.ended x).2.checkedAt = none := by
  obtain ⟨s, e | d⟩ := x
  · exact ⟨rfl, (fun h => by cases h), rfl⟩
  · exact ⟨rfl, (fun h => by cases h), rfl⟩

theorem switched_cases (s : ReleaseState) (x : Except ReleaseError GlobalHaltState) :
    (ReleaseCall.switched s x).1.stage = s.stage ∧ (ReleaseCall.switched s x).1.disables = s.disables ∧
      (ReleaseCall.switched s x).2 ≠ .start ∧ (ReleaseCall.switched s x).2.checkedAt = none := by
  obtain e | h := x
  · exact ⟨rfl, rfl, (fun h => by cases h), rfl⟩
  · exact ⟨rfl, rfl, (fun h => by cases h), rfl⟩

/-- A step after which no advance is under way. -/
theorem ReleaseStep.of_none {s s' : ReleaseState} {c : ReleaseCall} {pc : ReleasePc} (hs : s'.stage = s.stage)
    (hd : s'.disables = s.disables) (hpc : pc ≠ .start) (hn : pc.checkedAt = none) : ReleaseStep s c s' pc :=
  .kept hs hd hpc fun n h => by rw [hn] at h; cases h

theorem releaseStep_begin (s : ReleaseState) (c : ReleaseCall) (hpc : c.pc = .start) :
    ReleaseStep s c (c.begin s).1 (c.begin s).2 := by
  unfold ReleaseCall.begin
  cases hop : c.op with
  | advance target snapshot =>
    cases hq : requireActorReason c.actor c.reason with
    | some err => exact .of_none rfl rfl (fun h => by cases h) rfl
    | none =>
      dsimp only
      cases hr : target.refusal s.stage with
      | none => exact .checked hpc hop hr
      | some texts =>
        obtain ⟨hs, hstart, hnone⟩ := ended_cases (current s texts.1 texts.2 c.actor c.env)
        exact .of_none ((congrArg ReleaseState.stage hs :).trans rfl) ((congrArg ReleaseState.disables hs :).trans rfl)
          hstart hnone
  | disable =>
    cases hq : requireActorReason c.actor c.reason with
    | some err => exact .of_none rfl rfl (fun h => by cases h) rfl
    | none => exact .disabled hpc hop
  | activate =>
    obtain ⟨hs, hd, hstart, hnone⟩ := switched_cases s (activate c.reason c.actor c.env.evaluatedAt)
    exact .of_none hs hd hstart hnone
  | deactivate =>
    obtain ⟨hs, hd, hstart, hnone⟩ := switched_cases s (deactivate c.reason c.actor c.env.evaluatedAt)
    exact .of_none hs hd hstart hnone
  | breaker scopeKey call => exact .of_none rfl rfl (fun h => by cases h) rfl

/-- **Everything a step of a call does** to the stage and to the call. -/
theorem releaseStep_next (s : ReleaseState) (c : ReleaseCall) :
    ReleaseStep s c (c.next s).1 (c.next s).2.pc := by
  unfold ReleaseCall.next ReleaseCall.nextPc
  cases hpc : c.pc with
  | start => exact releaseStep_begin s c hpc
  | evaluate n =>
    cases hop : c.op with
    | advance target snapshot =>
      simp only [evaluateRelease]
      by_cases ha : c.env.evaluatedAt.aware = true
      · rw [dif_pos ha]
        dsimp only
        split_ifs
        · exact .kept rfl rfl (fun h => by cases h) fun m h => by rw [hpc]; exact h
        · exact .of_none rfl rfl (fun h => by cases h) rfl
      · rw [dif_neg ha]
        exact .of_none rfl rfl (fun h => by cases h) rfl
    | disable | activate | deactivate | breaker _ _ =>
      exact .kept rfl rfl (fun h => by cases h) fun m h => by rw [hpc]; exact h
  | write n d =>
    cases hop : c.op with
    | advance target snapshot => exact .wrote hpc hop
    | disable | activate | deactivate | breaker _ _ =>
      exact .kept rfl rfl (fun h => by cases h) fun m h => by rw [hpc]; exact h
  | returned d => exact .of_none rfl rfl (fun h => by cases h) rfl
  | raised err => exact .of_none rfl rfl (fun h => by cases h) rfl

/-! ### Schedules -/

/-- The controller and the calls on it. -/
abbrev ReleaseSystem := Pool ReleaseState ReleaseCall

/-- The schedule `l` of calls. -/
abbrev releaseSchedule (p : ReleaseSystem) (l : List ℕ) : ReleaseSystem := run (Pool.step ReleaseCall.next) p l

/-- Step `i` is the write of an advance. -/
def Writes (p : ReleaseSystem) (i : ℕ) (target : AdvanceTarget) : Prop :=
  ∃ c snapshot n d, p.calls[i]? = some c ∧ c.op = .advance target snapshot ∧ c.pc = .write n d

/-- Step `i` completes a `disable`. -/
def Disables (p : ReleaseSystem) (i : ℕ) : Prop :=
  ∃ c, p.calls[i]? = some c ∧ c.op = .disable ∧ c.pc = .start ∧ requireActorReason c.actor c.reason = none

/-- Call `j` has not begun. -/
def NotBegun (p : ReleaseSystem) (j : ℕ) : Prop := ∀ c ∈ p.calls[j]?, c.pc = .start

/-- A change of the stage to `FULL` happens from `SHADOW`. -/
def FullFromShadow (p : ReleaseSystem) (i : ℕ) : Prop :=
  p.shared.stage ≠ .full → (p.step ReleaseCall.next i).shared.stage = .full → p.shared.stage = .shadow

/-- After every completed `disable` the stage is `DISABLED`, unless an advance to `SHADOW` that had not begun then has
written it; and an advance that had begun then writes nothing. -/
def DisableHolds (p : ReleaseSystem) (l : List ℕ) : Prop :=
  ∀ before i after, before ++ i :: after <+: l → Disables (releaseSchedule p before) i →
    ((releaseSchedule p (before ++ i :: after)).shared.stage = .disabled ∨
      ∃ m j m', after = m ++ j :: m' ∧ NotBegun (releaseSchedule p (before ++ [i])) j ∧
        Writes (releaseSchedule p (before ++ i :: m)) j .shadow) ∧
    ∀ m j m', after = m ++ j :: m' → (∃ target, Writes (releaseSchedule p (before ++ i :: m)) j target) →
      NotBegun (releaseSchedule p (before ++ [i])) j

/-- The condition on a step: an advance writes its stage only if no `disable` has completed since its check. -/
def WritesInTime (p : ReleaseSystem) (i : ℕ) : Prop :=
  Pool.OnCall (fun s c => ∀ n d, c.pc = .write n d → n = s.disables) p i

instance (p : ReleaseSystem) (i : ℕ) : Decidable (WritesInTime p i) :=
  @Pool.instDecidableOnCall _ _ _ (fun s c => match h : c.pc with
    | .write n d => decidable_of_iff (n = s.disables) ⟨fun e m x hm => (by cases hm; exact e), fun e => e n d rfl⟩
    | .start => isTrue fun n d hm => (by cases hm)
    | .evaluate _ => isTrue fun n d hm => (by cases hm)
    | .returned _ => isTrue fun n d hm => (by cases hm)
    | .raised _ => isTrue fun n d hm => (by cases hm)) p i

/-- An advance under way has checked the stage no later than now; an advance to `FULL` sees no `DISABLED` before the
next `disable`. -/
structure ReleaseCall.Sound (s : ReleaseState) (c : ReleaseCall) : Prop where
  checked : ∀ n, c.pc.checkedAt = some n → n ≤ s.disables
  full : ∀ snapshot n, c.op = .advance .full snapshot → c.pc.checkedAt = some n → n = s.disables →
    s.stage ≠ .disabled

theorem AdvanceTarget.stage_ne_disabled (target : AdvanceTarget) : target.stage ≠ .disabled := by
  cases target <;> decide

/-- The steps of other calls keep a call sound. -/
theorem ReleaseCall.Sound.other {s s' : ReleaseState} {c d : ReleaseCall} {pc : ReleasePc} (h : c.Sound s)
    (hstep : ReleaseStep s d s' pc) : c.Sound s' := by
  cases hstep with
  | kept hs hd =>
    refine ⟨fun n hn => ?_, fun snapshot n hop hn heq => ?_⟩
    · rw [hd]
      exact h.checked n hn
    · rw [hs]
      exact h.full snapshot n hop hn (heq.trans hd)
  | checked => exact h
  | disabled =>
    refine ⟨fun n hn => ?_, fun snapshot n hop hn heq => ?_⟩
    · exact Nat.le_succ_of_le (h.checked n hn)
    · have hle := h.checked n hn
      have heq' : n = s.disables + 1 := heq
      omega
  | wrote => exact ⟨h.checked, fun _ _ _ _ _ => AdvanceTarget.stage_ne_disabled _⟩

/-- Its own steps keep it sound. -/
theorem ReleaseCall.Sound.own {s s' : ReleaseState} {c : ReleaseCall} {pc : ReleasePc} (h : c.Sound s)
    (hstep : ReleaseStep s c s' pc) : ReleaseCall.Sound s' { c with pc := pc } := by
  cases hstep with
  | kept hs hd hpc hn =>
    refine ⟨fun n hc => ?_, fun snapshot n hop hc heq => ?_⟩
    · rw [hd]
      exact h.checked n (hn n hc)
    · rw [hs]
      exact h.full snapshot n hop (hn n hc) (heq.trans hd)
  | @checked target snapshot hpc hop hr =>
    refine ⟨fun n hc => ?_, fun snapshot' n hop' hc heq hdis => ?_⟩
    · cases hc
      exact le_rfl
    · have hop' : c.op = .advance .full snapshot' := hop'
      rw [hop] at hop'
      cases hop'
      rw [hdis] at hr
      cases hr
  | disabled => exact ⟨(fun n hc => by cases hc), (fun _ n _ hc => by cases hc)⟩
  | wrote => exact ⟨(fun n hc => by cases hc), (fun _ n _ hc => by cases hc)⟩

theorem sound_release_step {p : ReleaseSystem} (h : ∀ c ∈ p.calls, c.Sound p.shared) (i : ℕ) :
    ∀ c ∈ (p.step ReleaseCall.next i).calls, c.Sound (p.step ReleaseCall.next i).shared := by
  cases hc : p.calls[i]? with
  | none => rw [Pool.step_of_none hc]; exact h
  | some c =>
    have hstep := releaseStep_next p.shared c
    have hshared : (p.step ReleaseCall.next i).shared = (c.next p.shared).1 := by rw [Pool.step_of_some hc]
    rw [hshared]
    exact Pool.forall_step hc (fun d hd => (h d hd).other hstep) ((h c (List.mem_of_getElem? hc)).own hstep)

/-- A write in time to `FULL` finds no `DISABLED`. -/
theorem stage_of_write {p : ReleaseSystem} (h : ∀ c ∈ p.calls, c.Sound p.shared) {i : ℕ} (hG : WritesInTime p i)
    (hw : Writes p i .full) : p.shared.stage ≠ .disabled := by
  obtain ⟨c, snapshot, n, d, hc, hop, hpc⟩ := hw
  exact (h c (List.mem_of_getElem? hc)).full snapshot n hop (by rw [hpc]; rfl) (hG c hc n d hpc)

/-- How a step changes the stage. -/
theorem stage_step (p : ReleaseSystem) (i : ℕ) :
    (p.step ReleaseCall.next i).shared.stage = p.shared.stage ∨
      (p.step ReleaseCall.next i).shared.stage = .disabled ∨
      ∃ target, Writes p i target ∧ (p.step ReleaseCall.next i).shared.stage = target.stage := by
  cases hc : p.calls[i]? with
  | none => exact Or.inl (by rw [Pool.step_of_none hc])
  | some c =>
    have hstep := releaseStep_next p.shared c
    rw [Pool.step_of_some hc]
    dsimp only
    generalize hnext : c.next p.shared = x at hstep ⊢
    obtain ⟨s', c'⟩ := x
    dsimp only at hstep ⊢
    generalize c'.pc = pc at hstep
    cases hstep with
    | kept hs => exact Or.inl hs
    | checked => exact Or.inl rfl
    | disabled => exact Or.inr (Or.inl rfl)
    | @wrote target snapshot n d hpc hop => exact Or.inr (Or.inr ⟨target, ⟨c, snapshot, n, d, hc, hop, hpc⟩, rfl⟩)

theorem fullFromShadow_of_sound {p : ReleaseSystem} (h : ∀ c ∈ p.calls, c.Sound p.shared) {i : ℕ}
    (hG : WritesInTime p i) : FullFromShadow p i := by
  intro hbefore hafter
  rcases stage_step p i with hs | hs | ⟨target, hw, hs⟩
  · exact absurd (hs.symm.trans hafter) hbefore
  · rw [hafter] at hs
    cases hs
  · cases target with
    | shadow =>
      rw [hafter] at hs
      cases hs
    | full =>
      have hdis := stage_of_write h hG hw
      cases hst : p.shared.stage with
      | disabled => exact absurd hst hdis
      | shadow => rfl
      | full => exact absurd hst hbefore

/-- A step completes no more than one `disable`, and never takes one back. -/
theorem disables_le_step (p : ReleaseSystem) (i : ℕ) :
    p.shared.disables ≤ (p.step ReleaseCall.next i).shared.disables := by
  cases hc : p.calls[i]? with
  | none => rw [Pool.step_of_none hc]
  | some c =>
    have hstep := releaseStep_next p.shared c
    rw [Pool.step_of_some hc]
    dsimp only
    generalize c.next p.shared = x at hstep ⊢
    obtain ⟨s', c'⟩ := x
    dsimp only at hstep ⊢
    generalize c'.pc = pc at hstep
    cases hstep with
    | kept hs hd => exact hd.ge
    | checked => exact le_rfl
    | disabled => exact Nat.le_succ _
    | wrote => exact le_rfl

/-- Call `j` has begun, and if it is an advance under way its check came before the `bound`-th `disable`. -/
def Behind (bound j : ℕ) (p : ReleaseSystem) : Prop :=
  ∃ c, p.calls[j]? = some c ∧ c.pc ≠ .start ∧ ∀ n, c.pc.checkedAt = some n → n < bound

theorem behind_step {bound j : ℕ} {p : ReleaseSystem} (h : Behind bound j p) (i : ℕ) :
    Behind bound j (p.step ReleaseCall.next i) := by
  obtain ⟨c, hc, hpc, hn⟩ := h
  by_cases hij : i = j
  · subst hij
    refine ⟨(c.next p.shared).2, ?_, ?_⟩
    · obtain ⟨hi, -⟩ := List.getElem?_eq_some_iff.mp hc
      rw [Pool.step_of_some hc, List.getElem?_set_self hi]
    · have hstep := releaseStep_next p.shared c
      generalize (c.next p.shared).1 = s' at hstep
      generalize (c.next p.shared).2.pc = pc at hstep ⊢
      cases hstep with
      | kept _ _ hstart hchecked => exact ⟨hstart, fun n h => hn n (hchecked n h)⟩
      | checked hstart => exact absurd hstart hpc
      | disabled hstart => exact absurd hstart hpc
      | wrote => exact ⟨(fun h => by cases h), (fun n h => by cases h)⟩
  · refine ⟨c, ?_, hpc, hn⟩
    unfold Pool.step
    split
    · exact hc
    · rw [List.getElem?_set_ne hij]
      exact hc

/-- After a `disable` every call that has begun is behind it. -/
theorem behind_of_disables {p : ReleaseSystem} (h : ∀ c ∈ p.calls, c.Sound p.shared) {i j : ℕ} (hd : Disables p i)
    (hj : ¬ NotBegun (p.step ReleaseCall.next i) j) :
    Behind (p.step ReleaseCall.next i).shared.disables j (p.step ReleaseCall.next i) := by
  obtain ⟨c, hc, hop, hpc, hreq⟩ := hd
  have hnext : c.next p.shared = ({ p.shared with stage := .disabled, disables := p.shared.disables + 1 },
      { c with pc := .returned none }) := by
    simp only [ReleaseCall.next, ReleaseCall.nextPc, hpc, ReleaseCall.begin, hop, hreq]
  have hdisables : (p.step ReleaseCall.next i).shared.disables = p.shared.disables + 1 := by
    rw [Pool.step_of_some hc, hnext]
  unfold NotBegun at hj
  push Not at hj
  obtain ⟨c', hc', hstart⟩ := hj
  refine ⟨c', hc', hstart, fun n hn => ?_⟩
  rw [hdisables]
  rw [Pool.step_of_some hc, hnext] at hc'
  by_cases hij : i = j
  · subst hij
    obtain ⟨hi, -⟩ := List.getElem?_eq_some_iff.mp hc
    rw [List.getElem?_set_self hi] at hc'
    cases hc'
    cases hn
  · rw [List.getElem?_set_ne hij] at hc'
    have := (h c' (List.mem_of_getElem? hc')).checked n hn
    omega

theorem stage_of_disables {p : ReleaseSystem} {i : ℕ} (hd : Disables p i) :
    (p.step ReleaseCall.next i).shared.stage = .disabled := by
  obtain ⟨c, hc, hop, hpc, hreq⟩ := hd
  rw [Pool.step_of_some hc]
  simp only [ReleaseCall.next, ReleaseCall.nextPc, hpc, ReleaseCall.begin, hop, hreq]

/-- A write in time is not made by a call that had begun before the `disable`. -/
theorem notBegun_of_write {p : ReleaseSystem} (h : ∀ c ∈ p.calls, c.Sound p.shared) {i j : ℕ} (hd : Disables p i)
    (m : List ℕ) {target : AdvanceTarget}
    (hw : Writes (releaseSchedule (p.step ReleaseCall.next i) m) j target)
    (hG : WritesInTime (releaseSchedule (p.step ReleaseCall.next i) m) j) :
    NotBegun (p.step ReleaseCall.next i) j := by
  by_contra hj
  obtain ⟨c, snapshot, n, d, hc, hop, hpc⟩ := hw
  obtain ⟨c', hc', -, hbehind⟩ := run_invariant (Pool.step ReleaseCall.next) (Behind _ j)
    (fun q k hq => behind_step hq k) (behind_of_disables h hd hj) m
  rw [hc] at hc'
  cases hc'
  have hlt := hbehind n (by rw [hpc]; rfl)
  have heq := hG c hc n d hpc
  have hle : (p.step ReleaseCall.next i).shared.disables ≤
      (releaseSchedule (p.step ReleaseCall.next i) m).shared.disables :=
    run_invariant (Pool.step ReleaseCall.next)
      (fun q => (p.step ReleaseCall.next i).shared.disables ≤ q.shared.disables)
      (fun q k hq => hq.trans (disables_le_step q k)) le_rfl m
  omega

/-- After a `disable` the stage is `DISABLED` until a later advance to `SHADOW` writes it. -/
theorem disabled_until {p : ReleaseSystem} (h : ∀ c ∈ p.calls, c.Sound p.shared) {i : ℕ} (hd : Disables p i)
    (after : List ℕ) (hG : Along (Pool.step ReleaseCall.next) WritesInTime (p.step ReleaseCall.next i) after) :
    (releaseSchedule (p.step ReleaseCall.next i) after).shared.stage = .disabled ∨
      ∃ m j m', after = m ++ j :: m' ∧ NotBegun (p.step ReleaseCall.next i) j ∧
        Writes (releaseSchedule (p.step ReleaseCall.next i) m) j .shadow := by
  induction after using List.reverseRecOn with
  | nil => exact Or.inl (stage_of_disables hd)
  | append_singleton m k ih =>
    obtain ⟨hGm, hGk, -⟩ := (along_append _ _ _ m [k]).mp hG
    have hsound := run_invariant (Pool.step ReleaseCall.next)
      (fun q : ReleaseSystem => ∀ c ∈ q.calls, c.Sound q.shared) (fun q x hq => sound_release_step hq x)
      (sound_release_step h i) m
    rw [releaseSchedule, run_concat]
    rcases ih hGm with hdis | ⟨m₁, j, m₂, rfl, hj, hw⟩
    · rcases stage_step (releaseSchedule (p.step ReleaseCall.next i) m) k with hs | hs | ⟨target, hw, hs⟩
      · exact Or.inl (hs.trans hdis)
      · exact Or.inl hs
      · cases target with
        | shadow => exact Or.inr ⟨m, k, [], rfl, notBegun_of_write h hd m hw hGk, hw⟩
        | full => exact absurd hdis (stage_of_write hsound hGk hw)
    · exact Or.inr ⟨m₁, j, m₂ ++ [k], by simp, hj, hw⟩

/-- **The release stage is guarded in the schedules without late writes.** -/
theorem release_guarded {p : ReleaseSystem} (hstart : ∀ c ∈ p.calls, c.pc = .start) (l : List ℕ)
    (hG : Along (Pool.step ReleaseCall.next) WritesInTime p l) :
    Along (Pool.step ReleaseCall.next) FullFromShadow p l ∧ DisableHolds p l := by
  have hinit : ∀ c ∈ p.calls, c.Sound p.shared := by
    intro c hc
    have hnone : c.pc.checkedAt = none := by rw [hstart c hc]; rfl
    exact ⟨fun n hn => absurd (hnone.symm.trans hn) (by simp), fun _ n _ hn => absurd (hnone.symm.trans hn) (by simp)⟩
  refine ⟨hG.steps (fun q k hq _ => sound_release_step hq k) (fun q k hq hk => fullFromShadow_of_sound hq hk) hinit,
    ?_⟩
  rintro before i after ⟨rest, rfl⟩ hd
  have hsound := run_invariant (Pool.step ReleaseCall.next)
    (fun q : ReleaseSystem => ∀ c ∈ q.calls, c.Sound q.shared) (fun q x hq => sound_release_step hq x) hinit before
  have hafter : Along (Pool.step ReleaseCall.next) WritesInTime
      ((releaseSchedule p before).step ReleaseCall.next i) after := by
    obtain ⟨h1, -⟩ := (along_append _ _ _ (before ++ i :: after) rest).mp hG
    exact ((along_append _ _ _ before (i :: after)).mp h1).2.2
  have hrun : ∀ m, releaseSchedule p (before ++ i :: m) =
      releaseSchedule ((releaseSchedule p before).step ReleaseCall.next i) m := by
    intro m
    simp only [releaseSchedule, run_append, run_cons]
  have hone : releaseSchedule p (before ++ [i]) = (releaseSchedule p before).step ReleaseCall.next i := hrun []
  rw [hone]
  refine ⟨?_, fun m j m' hm hw => ?_⟩
  · rw [hrun]
    rcases disabled_until hsound hd after hafter with hdis | ⟨m, j, m', hm, hj, hw⟩
    · exact Or.inl hdis
    · exact Or.inr ⟨m, j, m', hm, hj, by rw [hrun]; exact hw⟩
  · obtain ⟨target, hw⟩ := hw
    rw [hrun] at hw
    rw [hm] at hafter
    exact notBegun_of_write hsound hd m hw (hafter.at_step m)

/-! ### A disabled controller that is enabled again -/

def releaseNoon : DateTime := ⟨2026, 8, 12, 12, 0, 0, 0, some 0⟩

/-- A call of an operator at noon. -/
def operatorCall (op : ReleaseOp) : ReleaseCall where
  op := op
  actor := "ops"
  reason := "release"
  env := ⟨releaseNoon, 0⟩

/-- All gates passed. -/
def greenSnapshot : LiveSafetyGateSnapshot := { passed := fun _ => true }

/-- The controller without a halt, and calls to advance twice, to disable and to advance again. -/
def releaseDay : ReleaseSystem where
  shared :=
    { halt := ⟨false, "", releaseNoon, "ops", by decide, fun h => (by cases h), by decide⟩ }
  calls := [operatorCall (.advance .shadow greenSnapshot), operatorCall (.advance .full greenSnapshot),
    operatorCall .disable, operatorCall (.advance .shadow greenSnapshot)]

theorem release_guarded_day :
    (releaseSchedule releaseDay [0, 0, 0, 1, 1, 1, 2, 3, 3, 3]).shared.stage = .shadow ∧
      Along (Pool.step ReleaseCall.next) FullFromShadow releaseDay [0, 0, 0, 1, 1, 1, 2, 3, 3, 3] ∧
      DisableHolds releaseDay [0, 0, 0, 1, 1, 1, 2, 3, 3, 3] := by
  have hstart : ∀ c ∈ releaseDay.calls, c.pc = .start := by
    intro c hc
    simp only [releaseDay, List.mem_cons, List.not_mem_nil, or_false] at hc
    rcases hc with rfl | rfl | rfl | rfl <;> rfl
  exact ⟨by decide +kernel, release_guarded hstart _ (by decide +kernel)⟩

/-- The `disable` comes between the evaluation and the write of the advance to `FULL`. -/
theorem not_guarded_late_write :
    ¬ (Along (Pool.step ReleaseCall.next) FullFromShadow releaseDay [0, 0, 0, 1, 1, 2, 1] ∧
      DisableHolds releaseDay [0, 0, 0, 1, 1, 2, 1]) := by
  rintro ⟨hfull, -⟩
  have hstep := Along.at_step [0, 0, 0, 1, 1, 2] hfull
  have hbefore : (run (Pool.step ReleaseCall.next) releaseDay [0, 0, 0, 1, 1, 2]).shared.stage = .disabled := by
    decide +kernel
  have hafter : ((run (Pool.step ReleaseCall.next) releaseDay [0, 0, 0, 1, 1, 2]).step ReleaseCall.next 1).shared.stage =
      .full := by decide +kernel
  have hshadow := hstep (by rw [hbefore]; decide) hafter
  rw [hbefore] at hshadow
  cases hshadow

end AlphaAlgo.Risk
