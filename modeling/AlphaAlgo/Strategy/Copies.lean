import AlphaAlgo.Strategy.Runtime

/-!
# Copies — registry, dispatcher, instances and run records in step

The enabled flag is kept in the registry and in the dispatcher, the state of an instance in the instance and in the run
record.  `Consistent` says that the copies agree.

* `consistent_iff`: they agree in every state of exactly the runs whose operations are `Careful`.
-/

namespace AlphaAlgo.Strategy

open Backtest (CandleTimeframe)
open Runs

/-! ### The law and the condition -/

namespace StrategyRuntime

variable (s : StrategyRuntime)

/-- The instance with a reference belongs to a strategy and is in a state. -/
def InState (strategyId : UUID) (ref : ℕ) (state : StrategyRunState) : Prop :=
  ∃ inst, s.made[ref]? = some inst ∧ inst.identity.strategyId = strategyId ∧ inst.state = state

/-- The state of the latest instance of a strategy. -/
def latestState (strategyId : UUID) : Option StrategyRunState :=
  (s.latest.get? strategyId).bind fun ref => (s.made[ref]?).map StrategyInstance.state

/-- The copies agree. -/
structure Consistent : Prop where
  oneLive : ∀ strategyId ref ref' state state', s.InState strategyId ref state → s.InState strategyId ref' state' →
    state.Live → state'.Live → ref = ref'
  delivered : ∀ instrumentId timeframe, ∀ strategyId ∈ s.dispatcher.matched s.made instrumentId timeframe,
    (∃ definition, s.registry.byId.get? strategyId = some definition ∧ definition.enabled = true) ∧
      s.latestState strategyId = some .running
  recorded : ∀ strategyId record, s.runRecord strategyId = some record →
    s.latestState strategyId = some record.state

/-- The dispatcher's copy of a strategy is enabled and its instance is running. -/
def Deliverable (strategyId : UUID) : Prop :=
  ∃ definition ref inst, s.dispatcher.definitions.get? strategyId = some definition ∧ definition.enabled = true ∧
    s.dispatcher.instance? s.made strategyId = some (ref, inst) ∧ inst.state = .running

/-- A start that goes through: mode, definition and configuration are accepted and the strategy's own code raises
nothing. -/
def Starts (call : StartCall) : Prop :=
  (∃ mode, allowedMode call.tradingMode = .ok mode) ∧
    (∃ definition inst, s.registry.byId.get? call.strategyId = some definition ∧
      StrategyInstance.new definition call.configValues = .ok inst) ∧
    call.factoryRaises = none ∧ call.initializeRaises = none ∧ call.onStartRaises = none

end StrategyRuntime

/-- The condition on an operation: a strategy is not started over a live instance, a running one is not paused, a live one
does not raise when it is stopped, and the registry is not changed behind the back of a running one. -/
def Careful (s : StrategyRuntime) : RuntimeCall → Prop
  | .start call => s.Starts call → ∀ ref state, s.InState call.strategyId ref state → ¬state.Live
  | .pause strategyId => ∀ ref inst, s.dispatcher.instance? s.made strategyId = some (ref, inst) → inst.state ≠ .running
  | .stop strategyId onStopRaises _ =>
    ∀ ref inst, s.dispatcher.instance? s.made strategyId = some (ref, inst) → inst.state.Live → onStopRaises = none
  | .registryUnregister strategyId => ¬s.Deliverable strategyId
  | .disable strategyId => ¬s.Deliverable strategyId
  | _ => True

/-! ### The invariant -/

/-- What the careful operations keep. -/
structure Synced (s : StrategyRuntime) : Prop where
  keyed : ∀ strategyId definition, s.registry.byId.get? strategyId = some definition →
    definition.identity.strategyId = strategyId
  held : ∀ strategyId ref, s.dispatcher.instances.get? strategyId = some ref →
    ∃ inst, s.made[ref]? = some inst ∧ inst.identity.strategyId = strategyId
  latest : ∀ strategyId ref, s.dispatcher.instances.get? strategyId = some ref →
    s.latest.get? strategyId = some ref
  enabled : ∀ strategyId, s.Deliverable strategyId →
    ∃ definition, s.registry.byId.get? strategyId = some definition ∧ definition.enabled = true
  hasRecord : ∀ strategyId ref, s.dispatcher.instances.get? strategyId = some ref →
    ∃ record, s.runs.get? strategyId = some record
  recorded : ∀ strategyId record, s.runs.get? strategyId = some record →
    ∃ ref inst, s.dispatcher.instance? s.made strategyId = some (ref, inst) ∧ record.state = inst.state ∧
      inst.state ≠ .paused
  oneLive : ∀ strategyId ref ref' state state', s.InState strategyId ref state → s.InState strategyId ref' state' →
    state.Live → state'.Live → ref = ref'

theorem instance?_eq_some {d : StrategyDispatcher} {made : List StrategyInstance} {strategyId : UUID} {ref : ℕ}
    {inst : StrategyInstance} :
    d.instance? made strategyId = some (ref, inst) ↔ d.instances.get? strategyId = some ref ∧ made[ref]? = some inst := by
  simp only [StrategyDispatcher.instance?, Option.bind_eq_some_iff, Option.map_eq_some_iff, Prod.mk.injEq]
  constructor
  · rintro ⟨ref', href, inst', hinst, rfl, rfl⟩
    exact ⟨href, hinst⟩
  · rintro ⟨href, hinst⟩
    exact ⟨ref, href, inst, hinst, rfl, rfl⟩

/-- An event reaches a strategy that is enabled in the dispatcher and runs. -/
theorem deliverable_of_matched {s : StrategyRuntime} {instrumentId strategyId : UUID}
    {timeframe : Option CandleTimeframe} (h : strategyId ∈ s.dispatcher.matched s.made instrumentId timeframe) :
    s.Deliverable strategyId := by
  have hmatches := (List.mem_filter.mp h).2
  unfold StrategyDispatcher.matchesEvent at hmatches
  cases hdefinition : s.dispatcher.definitions.get? strategyId with
  | none => simp [hdefinition] at hmatches
  | some definition =>
    cases hinst : s.dispatcher.instance? s.made strategyId with
    | none => simp [hdefinition, hinst] at hmatches
    | some p =>
      obtain ⟨ref, inst⟩ := p
      simp only [hdefinition, hinst, Bool.and_eq_true, decide_eq_true_eq] at hmatches
      exact ⟨definition, ref, inst, hdefinition, hmatches.1.1, hinst, hmatches.1.2⟩

/-- Some event reaches it. -/
theorem matched_of_deliverable {s : StrategyRuntime} {strategyId : UUID} (h : s.Deliverable strategyId) :
    ∃ instrumentId, strategyId ∈ s.dispatcher.matched s.made instrumentId none := by
  obtain ⟨definition, ref, inst, hdefinition, henabled, hinst, hrunning⟩ := h
  have hkey : strategyId ∈ s.dispatcher.instances.items.map Prod.fst :=
    List.mem_map.mpr ⟨_, Dict.get?_eq_some.mp (instance?_eq_some.mp hinst).1, rfl⟩
  refine ⟨definition.instruments.headD strategyId, List.mem_filter.mpr ⟨hkey, ?_⟩⟩
  simp only [StrategyDispatcher.matchesEvent, hdefinition, hinst, henabled, hrunning, StrategyDispatcher.routes]
  cases definition.instruments <;> simp

namespace Synced

variable {s : StrategyRuntime} {strategyId : UUID} {call : RuntimeCall}

theorem latestState_of_held (h : Synced s) {ref : ℕ} {inst : StrategyInstance}
    (hinst : s.dispatcher.instance? s.made strategyId = some (ref, inst)) :
    s.latestState strategyId = some inst.state := by
  obtain ⟨href, hmade⟩ := instance?_eq_some.mp hinst
  rw [StrategyRuntime.latestState, h.latest _ _ href, Option.bind_some, hmade, Option.map_some]

/-- **The copies agree.** -/
theorem consistent (h : Synced s) : s.Consistent where
  oneLive := h.oneLive
  delivered := by
    intro instrumentId timeframe strategyId hmem
    refine ⟨h.enabled _ (deliverable_of_matched hmem), ?_⟩
    obtain ⟨-, ref, inst, -, -, hinst, hrunning⟩ := deliverable_of_matched hmem
    exact (h.latestState_of_held hinst).trans (congrArg some hrunning)
  recorded := by
    intro strategyId record hrecord
    obtain ⟨ref, inst, hinst, hstate, -⟩ := h.recorded _ _ hrecord
    rw [h.latestState_of_held hinst, hstate]

/-- The record of a strategy that the dispatcher holds says its state, which is not `PAUSED`. -/
theorem record_of_held (h : Synced s) {ref : ℕ} {inst : StrategyInstance}
    (hinst : s.dispatcher.instance? s.made strategyId = some (ref, inst)) :
    ∃ record, s.runs.get? strategyId = some record ∧ record.state = inst.state ∧ inst.state ≠ .paused := by
  obtain ⟨record, hrecord⟩ := h.hasRecord _ _ (instance?_eq_some.mp hinst).1
  obtain ⟨ref', inst', hinst', hstate, hpaused⟩ := h.recorded _ _ hrecord
  rw [hinst] at hinst'
  cases hinst'
  exact ⟨record, hrecord, hstate, hpaused⟩

end Synced

/-! ### The registry -/

section Registry

variable {r r' : StrategyRegistry} {strategyId other : UUID} {definition : StrategyDefinition}

theorem get_eq_ok : r.get strategyId = .ok definition ↔ r.byId.get? strategyId = some definition := by
  unfold StrategyRegistry.get
  cases r.byId.get? strategyId <;> simp

theorem register_eq_ok (h : r.register definition = .ok r') :
    r.byId.get? definition.identity.strategyId = none ∧
      r'.byId = r.byId.set definition.identity.strategyId definition := by
  unfold StrategyRegistry.register at h
  dsimp only at h
  split_ifs at h with hid hcode
  cases h
  exact ⟨Option.not_isSome_iff_eq_none.mp hid, rfl⟩

theorem unregister_eq_ok (h : r.unregister strategyId = .ok r') : r'.byId = r.byId.erase strategyId := by
  obtain ⟨definition, -, rfl⟩ := Loop.map_eq_ok.mp h
  rfl

theorem setEnabled_eq_ok {enabled : Bool} (h : r.setEnabled strategyId enabled = .ok r') :
    ∃ definition, r.byId.get? strategyId = some definition ∧
      r'.byId = r.byId.set strategyId { definition with enabled := enabled } := by
  obtain ⟨definition, hget, rfl⟩ := Loop.map_eq_ok.mp h
  exact ⟨definition, get_eq_ok.mp hget, rfl⟩

end Registry

namespace Synced

variable {s : StrategyRuntime} {strategyId : UUID}

/-- A change of the registry that leaves the strategies that run alone, where it goes through. -/
theorem onRegistry (h : Synced s) {change : StrategyRegistry → Except StrategyError StrategyRegistry}
    (hchange : ∀ registry, change s.registry = .ok registry →
      (∀ strategyId definition, registry.byId.get? strategyId = some definition →
        definition.identity.strategyId = strategyId) ∧
      ∀ strategyId, s.Deliverable strategyId →
        ∃ definition, registry.byId.get? strategyId = some definition ∧ definition.enabled = true) :
    Synced (s.onRegistry change).2 := by
  unfold StrategyRuntime.onRegistry
  cases hresult : change s.registry with
  | error e => exact h
  | ok registry =>
    exact {
      keyed := (hchange registry hresult).1
      held := h.held
      latest := h.latest
      enabled := (hchange registry hresult).2
      hasRecord := h.hasRecord
      recorded := h.recorded
      oneLive := h.oneLive }

theorem register (h : Synced s) (definition : StrategyDefinition) : Synced (s.register definition).2 := by
  refine h.onRegistry fun registry hresult => ?_
  obtain ⟨hnew, hbyId⟩ := register_eq_ok hresult
  rw [hbyId]
  constructor
  · intro strategyId other hget
    rw [Dict.get?_set] at hget
    split_ifs at hget with hid
    · cases hget
      exact hid.symm
    · exact h.keyed _ _ hget
  · intro strategyId hdeliverable
    obtain ⟨d, hd, henabled⟩ := h.enabled _ hdeliverable
    have hne : strategyId ≠ definition.identity.strategyId := by
      rintro rfl
      rw [hnew] at hd
      cases hd
    exact ⟨d, (Dict.get?_set_of_ne hne).trans hd, henabled⟩

theorem setEnabled (h : Synced s) {enabled : Bool} (hG : enabled = false → ¬s.Deliverable strategyId) :
    Synced (s.onRegistry fun r => r.setEnabled strategyId enabled).2 := by
  refine h.onRegistry fun registry hresult => ?_
  obtain ⟨definition, hdefinition, hbyId⟩ := setEnabled_eq_ok hresult
  rw [hbyId]
  constructor
  · intro other d hget
    rw [Dict.get?_set] at hget
    split_ifs at hget with hid
    · cases hget
      exact (h.keyed _ _ hdefinition).trans hid.symm
    · exact h.keyed _ _ hget
  · intro other hdeliverable
    by_cases hid : other = strategyId
    · subst hid
      refine ⟨_, Dict.get?_set_self, ?_⟩
      cases enabled with
      | false => exact absurd hdeliverable (hG rfl)
      | true => rfl
    · obtain ⟨d, hd, henabled⟩ := h.enabled _ hdeliverable
      exact ⟨d, (Dict.get?_set_of_ne hid).trans hd, henabled⟩

theorem registryUnregister (h : Synced s) (hG : ¬s.Deliverable strategyId) :
    Synced (s.onRegistry fun r => r.unregister strategyId).2 := by
  refine h.onRegistry fun registry hresult => ?_
  rw [unregister_eq_ok hresult]
  constructor
  · intro other d hget
    rw [Dict.get?_erase] at hget
    split_ifs at hget
    exact h.keyed _ _ hget
  · intro other hdeliverable
    have hid : other ≠ strategyId := by
      rintro rfl
      exact hG hdeliverable
    obtain ⟨d, hd, henabled⟩ := h.enabled _ hdeliverable
    exact ⟨d, (Dict.get?_erase_of_ne hid).trans hd, henabled⟩

theorem unregister (h : Synced s) (strategyId : UUID) : Synced (s.unregister strategyId).2 := by
  unfold StrategyRuntime.unregister StrategyRuntime.onRegistry
  cases hresult : s.registry.unregister strategyId with
  | error e =>
    simp only [hresult]
    exact h
  | ok registry =>
    simp only [hresult]
    have hbyId := unregister_eq_ok hresult
    -- what the dispatcher still holds, it held before
    have hkept : ∀ {other ref}, (s.dispatcher.instances.erase strategyId).get? other = some ref →
        other ≠ strategyId ∧ s.dispatcher.instances.get? other = some ref := by
      intro other ref hget
      rw [Dict.get?_erase] at hget
      split_ifs at hget with hid
      exact ⟨hid, hget⟩
    refine ⟨?_, fun other ref href => h.held _ _ (hkept href).2, fun other ref href => h.latest _ _ (hkept href).2, ?_,
      ?_, ?_, h.oneLive⟩
    · intro other d hget
      change registry.byId.get? other = some d at hget
      rw [hbyId, Dict.get?_erase] at hget
      split_ifs at hget
      exact h.keyed _ _ hget
    · rintro other ⟨d, ref, inst, hd, henabled, hinst, hrunning⟩
      obtain ⟨href, hmade⟩ := instance?_eq_some.mp hinst
      obtain ⟨hid, href⟩ := hkept href
      have hd' : s.dispatcher.definitions.get? other = some d := (Dict.get?_erase_of_ne hid).symm.trans hd
      obtain ⟨d', hget, henabled'⟩ :=
        h.enabled other ⟨d, ref, inst, hd', henabled, instance?_eq_some.mpr ⟨href, hmade⟩, hrunning⟩
      refine ⟨d', ?_, henabled'⟩
      show registry.byId.get? other = some d'
      rw [hbyId, Dict.get?_erase_of_ne hid, hget]
    · intro other ref href
      obtain ⟨hid, href⟩ := hkept href
      obtain ⟨record, hrecord⟩ := h.hasRecord _ _ href
      exact ⟨record, (Dict.get?_erase_of_ne hid).trans hrecord⟩
    · intro other record hrecord
      change (s.runs.erase strategyId).get? other = some record at hrecord
      rw [Dict.get?_erase] at hrecord
      split_ifs at hrecord with hid
      obtain ⟨ref, inst, hinst, hstate⟩ := h.recorded _ _ hrecord
      obtain ⟨href, hmade⟩ := instance?_eq_some.mp hinst
      exact ⟨ref, inst, instance?_eq_some.mpr ⟨(Dict.get?_erase_of_ne hid).trans href, hmade⟩, hstate⟩

/-! ### The instances -/

/-- An operation that raises and changes nothing. -/
theorem onInstance_error {operation : StrategyInstance → StrategyMetrics → Effect}
    (hraises : ∀ ref inst, s.dispatcher.instance? s.made strategyId = some (ref, inst) →
      ∃ e, operation inst s.metrics = (.error e, inst, s.metrics)) :
    ∃ e, s.onInstance strategyId operation = (.error e, s) := by
  unfold StrategyRuntime.onInstance
  cases hinst : s.dispatcher.instance? s.made strategyId with
  | none => exact ⟨_, rfl⟩
  | some p =>
    obtain ⟨ref, inst⟩ := p
    obtain ⟨e, he⟩ := hraises ref inst hinst
    obtain ⟨-, hmade⟩ := instance?_eq_some.mp hinst
    obtain ⟨hlt, rfl⟩ := List.getElem?_eq_some_iff.mp hmade
    refine ⟨e, ?_⟩
    simp only [he, List.set_getElem_self]

/-- A running instance is not paused, so a pause does nothing. -/
theorem pause_eq (hG : Careful s (.pause strategyId)) : (s.pause strategyId).2 = s := by
  obtain ⟨e, he⟩ := @onInstance_error s strategyId StrategyInstance.pause fun ref inst hinst =>
    ((pause_cases inst s.metrics).resolve_left fun h => hG ref inst hinst h.1).2
  rw [StrategyRuntime.pause, he]

/-- No instance is paused, so a resume does nothing. -/
theorem resume_eq (h : Synced s) (strategyId : UUID) : (s.resume strategyId).2 = s := by
  obtain ⟨e, he⟩ := @onInstance_error s strategyId StrategyInstance.resume fun ref inst hinst =>
    ((resume_cases inst s.metrics).resolve_left fun hpaused =>
      (h.record_of_held hinst).choose_spec.2.2 hpaused.1).2
  rw [StrategyRuntime.resume, he]

theorem instances_setEnabled (d : StrategyDispatcher) (enabled : Bool) :
    (d.setEnabled strategyId enabled).instances = d.instances := by
  unfold StrategyDispatcher.setEnabled
  cases d.definitions.get? strategyId <;> rfl

theorem definitions_setEnabled (d : StrategyDispatcher) (enabled : Bool) {other : UUID} (h : other ≠ strategyId) :
    (d.setEnabled strategyId enabled).definitions.get? other = d.definitions.get? other := by
  unfold StrategyDispatcher.setEnabled
  cases d.definitions.get? strategyId with
  | none => rfl
  | some definition => exact Dict.get?_set_of_ne h

/-- The instance that the dispatcher holds, after a change of its state. -/
theorem instance?_set_self {ref : ℕ} {inst : StrategyInstance}
    (hinst : s.dispatcher.instance? s.made strategyId = some (ref, inst)) (enabled : Bool) (inst' : StrategyInstance) :
    (s.dispatcher.setEnabled strategyId enabled).instance? (s.made.set ref inst') strategyId = some (ref, inst') := by
  obtain ⟨href, hmade⟩ := instance?_eq_some.mp hinst
  obtain ⟨hlt, -⟩ := List.getElem?_eq_some_iff.mp hmade
  exact instance?_eq_some.mpr ⟨(instances_setEnabled _ _).symm ▸ href, List.getElem?_set_self hlt⟩

/-- The other strategies hold other instances. -/
theorem instance?_set (h : Synced s) {ref : ℕ} {inst : StrategyInstance}
    (hinst : s.dispatcher.instance? s.made strategyId = some (ref, inst)) {other : UUID} (hne : other ≠ strategyId)
    (inst' : StrategyInstance) :
    s.dispatcher.instance? (s.made.set ref inst') other = s.dispatcher.instance? s.made other := by
  unfold StrategyDispatcher.instance?
  cases hother : s.dispatcher.instances.get? other with
  | none => rfl
  | some ref' =>
    have href : ref ≠ ref' := by
      rintro rfl
      obtain ⟨i, hi, hid⟩ := h.held _ _ hother
      obtain ⟨j, hj, hjd⟩ := h.held _ _ (instance?_eq_some.mp hinst).1
      rw [hi] at hj
      cases hj
      exact hne (hid.symm.trans hjd)
    simp only [Option.bind_some, List.getElem?_set_ne href]

/-- A live instance that is stopped and does not raise. -/
theorem stopped (h : Synced s) {ref : ℕ} {inst : StrategyInstance}
    (hinst : s.dispatcher.instance? s.made strategyId = some (ref, inst)) (m : StrategyMetrics) (now : DateTime)
    {record : StrategyRunRecord} :
    Synced { s with
      metrics := m
      made := s.made.set ref { inst with state := .stopped }
      dispatcher := s.dispatcher.setEnabled strategyId false
      runs := s.runs.set strategyId { record with state := .stopped, stoppedAt := some now } } := by
  obtain ⟨href, hmade⟩ := instance?_eq_some.mp hinst
  obtain ⟨hlt, -⟩ := List.getElem?_eq_some_iff.mp hmade
  have hinstances := @instances_setEnabled strategyId s.dispatcher false
  have hself := instance?_set_self hinst false { inst with state := .stopped }
  have hother : ∀ {other}, other ≠ strategyId →
      (s.dispatcher.setEnabled strategyId false).instance? (s.made.set ref { inst with state := .stopped }) other =
        s.dispatcher.instance? s.made other := by
    intro other hne
    rw [← h.instance?_set hinst hne, StrategyDispatcher.instance?, hinstances]
    rfl
  -- only the stopped instance changed
  have hstate : ∀ {other ref' state}, StrategyRuntime.InState
      { s with made := s.made.set ref { inst with state := .stopped } } other ref' state → state.Live →
      s.InState other ref' state := by
    rintro other ref' state ⟨inst', hinst', hid, rfl⟩ hlive
    by_cases hsame : ref = ref'
    · subst hsame
      rw [List.getElem?_set_self hlt] at hinst'
      cases hinst'
      rcases hlive with hlive | hlive <;> cases hlive
    · rw [List.getElem?_set_ne hsame] at hinst'
      exact ⟨inst', hinst', hid, rfl⟩
  refine ⟨h.keyed, ?_, ?_, ?_, ?_, ?_, ?_⟩
  · intro other ref' hget
    obtain ⟨inst', hinst', hid⟩ := h.held other ref' (hinstances ▸ hget)
    by_cases hsame : ref = ref'
    · subst hsame
      rw [hmade] at hinst'
      cases hinst'
      exact ⟨_, List.getElem?_set_self hlt, hid⟩
    · exact ⟨inst', (List.getElem?_set_ne hsame).trans hinst', hid⟩
  · exact fun other ref' hget => h.latest other ref' (hinstances ▸ hget)
  · rintro other ⟨d, ref', inst', hd, henabled, hinst', hrunning⟩
    have hne : other ≠ strategyId := by
      rintro rfl
      rw [hself] at hinst'
      cases hinst'
      cases hrunning
    exact h.enabled other ⟨d, ref', inst', (definitions_setEnabled _ _ hne).symm.trans hd, henabled, (hother hne).symm.trans hinst', hrunning⟩
  · intro other ref' hget
    by_cases hne : other = strategyId
    · subst hne
      exact ⟨_, Dict.get?_set_self⟩
    · obtain ⟨r, hr⟩ := h.hasRecord other ref' (hinstances ▸ hget)
      exact ⟨r, (Dict.get?_set_of_ne hne).trans hr⟩
  · intro other r hr
    change (s.runs.set strategyId _).get? other = some r at hr
    by_cases hne : other = strategyId
    · subst hne
      rw [Dict.get?_set_self] at hr
      cases hr
      exact ⟨_, _, hself, rfl, by simp⟩
    · rw [Dict.get?_set_of_ne hne] at hr
      obtain ⟨ref', inst', hinst', hrest⟩ := h.recorded _ _ hr
      exact ⟨ref', inst', (hother hne).trans hinst', hrest⟩
  · exact fun other ref' ref'' state state' h₁ h₂ hl₁ hl₂ =>
      h.oneLive other ref' ref'' state state' (hstate h₁ hl₁) (hstate h₂ hl₂) hl₁ hl₂

/-- What a stop leaves. -/
theorem stop_step (h : Synced s) {raises : Option String} {now : DateTime}
    (hG : Careful s (.stop strategyId raises now)) : Synced (s.stop strategyId raises now).2 := by
  by_cases hlive : ∃ ref inst, s.dispatcher.instance? s.made strategyId = some (ref, inst) ∧ inst.state.Live
  · obtain ⟨ref, inst, hinst, hlive⟩ := hlive
    obtain ⟨record, hrecord, -⟩ := h.record_of_held hinst
    obtain ⟨m', hstop⟩ : ∃ m', inst.stop s.metrics raises = (.ok (), { inst with state := .stopped }, m') := by
      rcases stop_cases inst s.metrics raises with ⟨-, -, hstop⟩ | ⟨-, hraises, -⟩ | ⟨hdead, -⟩
      · exact hstop
      · exact absurd (hG ref inst hinst hlive) hraises
      · exact absurd hlive hdead
    have hself := instance?_set_self hinst false { inst with state := .stopped }
    simp only [StrategyRuntime.stop, StrategyRuntime.onInstance, hinst, hstop, hrecord, hself]
    exact h.stopped hinst m' now
  · obtain ⟨e, he⟩ := @onInstance_error s strategyId (fun inst m => inst.stop m raises) fun ref inst hinst => by
      rcases stop_cases inst s.metrics raises with ⟨hl, -⟩ | ⟨hl, -⟩ | ⟨-, hstop⟩
      · exact absurd ⟨ref, inst, hinst, hl⟩ hlive
      · exact absurd ⟨ref, inst, hinst, hl⟩ hlive
      · exact hstop
    rw [StrategyRuntime.stop, he]
    exact h

/-! ### Starts -/

/-- The references of the dispatcher are old ones. -/
theorem instance?_append (h : Synced s) (strategyId : UUID) (inst : StrategyInstance) :
    s.dispatcher.instance? (s.made ++ [inst]) strategyId = s.dispatcher.instance? s.made strategyId := by
  unfold StrategyDispatcher.instance?
  cases hget : s.dispatcher.instances.get? strategyId with
  | none => rfl
  | some ref =>
    obtain ⟨i, hi, -⟩ := h.held _ _ hget
    obtain ⟨hlt, -⟩ := List.getElem?_eq_some_iff.mp hi
    simp only [Option.bind_some, List.getElem?_append_left hlt]

/-- An instance after one more was made is an old one, or the new one. -/
theorem inState_append {metrics : StrategyMetrics} {inst : StrategyInstance} {ref : ℕ} {state : StrategyRunState}
    (h : StrategyRuntime.InState { s with metrics := metrics, made := s.made ++ [inst] } strategyId ref state) :
    s.InState strategyId ref state ∨
      (ref = s.made.length ∧ inst.identity.strategyId = strategyId ∧ inst.state = state) := by
  obtain ⟨inst', hinst', hid, hstate⟩ := h
  dsimp only at hinst'
  rw [List.getElem?_append] at hinst'
  split_ifs at hinst' with hlt
  · exact .inl ⟨inst', hinst', hid, hstate⟩
  · rw [List.getElem?_singleton] at hinst'
    split_ifs at hinst'
    cases hinst'
    exact .inr ⟨by omega, hid, hstate⟩

/-- An instance that was made and is not live changes nothing. -/
theorem append (h : Synced s) (metrics : StrategyMetrics) {inst : StrategyInstance} (hdead : ¬inst.state.Live) :
    Synced { s with metrics := metrics, made := s.made ++ [inst] } where
  keyed := h.keyed
  held := by
    intro strategyId ref hget
    obtain ⟨i, hi, hid⟩ := h.held strategyId ref hget
    obtain ⟨hlt, -⟩ := List.getElem?_eq_some_iff.mp hi
    exact ⟨i, (List.getElem?_append_left hlt).trans hi, hid⟩
  latest := h.latest
  enabled := by
    rintro strategyId ⟨d, ref, i, hd, henabled, hinst, hrunning⟩
    exact h.enabled strategyId ⟨d, ref, i, hd, henabled, (h.instance?_append _ _).symm.trans hinst, hrunning⟩
  hasRecord := h.hasRecord
  recorded := by
    intro strategyId record hrecord
    obtain ⟨ref, i, hinst, hrest⟩ := h.recorded strategyId record hrecord
    exact ⟨ref, i, (h.instance?_append _ _).trans hinst, hrest⟩
  oneLive := by
    intro strategyId ref ref' state state' h₁ h₂ hl₁ hl₂
    rcases inState_append h₁ with h₁ | ⟨-, -, rfl⟩
    · rcases inState_append h₂ with h₂ | ⟨-, -, rfl⟩
      · exact h.oneLive _ _ _ _ _ h₁ h₂ hl₁ hl₂
      · exact absurd hl₂ hdead
    · exact absurd hl₁ hdead

/-- A strategy that starts, with no live instance before. -/
theorem started (h : Synced s) {definition : StrategyDefinition} {inst : StrategyInstance} (metrics : StrategyMetrics)
    {record : StrategyRunRecord} (hdefinition : s.registry.byId.get? strategyId = some definition)
    (hidentity : inst.identity = definition.identity) (hrunning : inst.state = .running)
    (hrecord : record.state = .running) (hnone : ∀ ref state, s.InState strategyId ref state → ¬state.Live) :
    Synced { s with
      dispatcher := s.dispatcher.register s.made.length definition
      metrics := metrics
      runs := s.runs.set strategyId record
      made := s.made ++ [inst]
      latest := s.latest.set strategyId s.made.length } := by
  have hid : definition.identity.strategyId = strategyId := h.keyed _ _ hdefinition
  have hnew : (s.made ++ [inst])[s.made.length]? = some inst := List.getElem?_concat_length
  have hinstances : ∀ other, (s.dispatcher.register s.made.length definition).instances.get? other =
      if other = strategyId then some s.made.length else s.dispatcher.instances.get? other := by
    intro other
    rw [StrategyDispatcher.register, hid, Dict.get?_set]
  have hself : (s.dispatcher.register s.made.length definition).instance? (s.made ++ [inst]) strategyId =
      some (s.made.length, inst) :=
    instance?_eq_some.mpr ⟨(hinstances _).trans (if_pos rfl), hnew⟩
  have hother : ∀ {other}, other ≠ strategyId →
      (s.dispatcher.register s.made.length definition).instance? (s.made ++ [inst]) other =
        s.dispatcher.instance? s.made other := by
    intro other hne
    rw [← h.instance?_append, StrategyDispatcher.instance?, hinstances, if_neg hne]
    rfl
  refine ⟨h.keyed, ?_, ?_, ?_, ?_, ?_, ?_⟩
  · intro other ref hget
    rw [hinstances] at hget
    split_ifs at hget with hsame
    · cases hget
      exact ⟨inst, hnew, by rw [hidentity, hid, hsame]⟩
    · obtain ⟨i, hi, hi'⟩ := h.held _ _ hget
      obtain ⟨hlt, -⟩ := List.getElem?_eq_some_iff.mp hi
      exact ⟨i, (List.getElem?_append_left hlt).trans hi, hi'⟩
  · intro other ref hget
    rw [hinstances] at hget
    show (s.latest.set strategyId s.made.length).get? other = some ref
    rw [Dict.get?_set]
    split_ifs at hget ⊢
    · exact hget
    · exact h.latest _ _ hget
  · rintro other ⟨d, ref, i, hd, henabled, hinst, hi⟩
    by_cases hne : other = strategyId
    · subst hne
      have hd' : definition = d := by
        rw [StrategyDispatcher.register, hid, Dict.get?_set_self] at hd
        exact Option.some.inj hd
      exact ⟨d, hd' ▸ hdefinition, henabled⟩
    · refine h.enabled other ⟨d, ref, i, ?_, henabled, (hother hne).symm.trans hinst, hi⟩
      rw [StrategyDispatcher.register, hid, Dict.get?_set_of_ne hne] at hd
      exact hd
  · intro other ref hget
    show ∃ r, (s.runs.set strategyId record).get? other = some r
    rw [hinstances] at hget
    rw [Dict.get?_set]
    split_ifs at hget ⊢
    · exact ⟨record, rfl⟩
    · exact h.hasRecord _ _ hget
  · intro other r hr
    change (s.runs.set strategyId record).get? other = some r at hr
    rw [Dict.get?_set] at hr
    split_ifs at hr with hsame
    · cases hr
      subst hsame
      exact ⟨_, inst, hself, hrecord.trans hrunning.symm, by rw [hrunning]; simp⟩
    · obtain ⟨ref, i, hinst, hrest⟩ := h.recorded _ _ hr
      exact ⟨ref, i, (hother hsame).trans hinst, hrest⟩
  · intro other ref ref' state state' h₁ h₂ hl₁ hl₂
    -- an old live instance of the strategy would have been in the way
    have hold : ∀ {ref state}, s.InState other ref state → state.Live → other ≠ strategyId := by
      rintro ref state hin hlive rfl
      exact hnone _ _ hin hlive
    rcases @inState_append s other metrics inst ref state h₁ with h₁ | ⟨rfl, hid₁, -⟩
    · rcases @inState_append s other metrics inst ref' state' h₂ with h₂ | ⟨rfl, hid₂, -⟩
      · exact h.oneLive _ _ _ _ _ h₁ h₂ hl₁ hl₂
      · exact absurd (by rw [← hid₂, hidentity, hid]) (hold h₁ hl₁)
    · rcases @inState_append s other metrics inst ref' state' h₂ with h₂ | ⟨rfl, -, -⟩
      · exact absurd (by rw [← hid₁, hidentity, hid]) (hold h₂ hl₂)
      · rfl

/-- What a start does: it makes no instance, or one that has failed, or it goes through. -/
theorem start_cases (s : StrategyRuntime) (call : StartCall) :
    (¬s.Starts call ∧ ((s.start call).2 = s ∨
      ∃ inst metrics, ¬inst.state.Live ∧ (s.start call).2 = { s with metrics := metrics, made := s.made ++ [inst] })) ∨
    (s.Starts call ∧ ∃ definition inst metrics record, s.registry.byId.get? call.strategyId = some definition ∧
      inst.identity = definition.identity ∧ inst.state = .running ∧ record.state = .running ∧
      (s.start call).2 = { s with
        dispatcher := s.dispatcher.register s.made.length definition
        metrics := metrics
        runs := s.runs.set call.strategyId record
        made := s.made ++ [inst]
        latest := s.latest.set call.strategyId s.made.length }) := by
  unfold StrategyRuntime.start
  cases hmode : StrategyRuntime.allowedMode call.tradingMode with
  | error e =>
    refine .inl ⟨fun hs => ?_, .inl rfl⟩
    obtain ⟨⟨mode, hm⟩, -⟩ := hs
    rw [hmode] at hm
    cases hm
  | ok mode =>
    cases hget : s.registry.get call.strategyId with
    | error e =>
      refine .inl ⟨fun hs => ?_, .inl rfl⟩
      obtain ⟨-, ⟨definition, -, hdefinition, -⟩, -⟩ := hs
      rw [get_eq_ok.mpr hdefinition] at hget
      cases hget
    | ok definition =>
      cases hfactory : call.factoryRaises with
      | some exc =>
        refine .inl ⟨fun hs => ?_, .inl rfl⟩
        rw [hs.2.2.1] at hfactory
        cases hfactory
      | none =>
        dsimp only
        cases hnew : StrategyInstance.new definition call.configValues with
        | error e =>
          refine .inl ⟨fun hs => ?_, .inl rfl⟩
          obtain ⟨-, ⟨d, i, hd, hi⟩, -⟩ := hs
          rw [get_eq_ok.mp hget] at hd
          cases hd
          rw [hnew] at hi
          cases hi
        | ok inst =>
          obtain ⟨-, hlaunch⟩ := launch_cases s.metrics hnew call.initializeRaises call.onStartRaises
          rcases hlaunch with ⟨e, failed, m', hfailed, -, heffect, hraises⟩ | ⟨ready, m', heffect, hinit, hstart⟩
          · simp only [heffect]
            refine .inl ⟨fun hs => hraises hs.2.2.2.1, .inr ⟨failed, m', ?_, rfl⟩⟩
            rw [hfailed]
            rintro (h | h) <;> cases h
          · rcases hstart with ⟨e, failed, m'', hfailed, -, hstart, hraises⟩ | ⟨running, m'', hrunning, hid, hstart, honstart⟩
            · simp only [heffect, hstart]
              refine .inl ⟨fun hs => hraises hs.2.2.2.2, .inr ⟨failed, m'', ?_, rfl⟩⟩
              rw [hfailed]
              rintro (h | h) <;> cases h
            · simp only [heffect, hstart]
              refine .inr ⟨⟨⟨mode, hmode⟩, ⟨definition, inst, get_eq_ok.mp hget, hnew⟩, hfactory, hinit, honstart⟩,
                definition, running, m'', _, get_eq_ok.mp hget, hid, hrunning, ?_, rfl⟩
              exact hrunning

/-! ### The steps -/

/-- A new runtime. -/
theorem new : Synced {} where
  keyed := fun _ _ h => by cases h
  held := fun _ _ h => by cases h
  latest := fun _ _ h => by cases h
  enabled := fun _ h => by obtain ⟨_, _, _, h, -⟩ := h; cases h
  hasRecord := fun _ _ h => by cases h
  recorded := fun _ _ h => by cases h
  oneLive := fun _ _ _ _ _ h => by obtain ⟨_, h, -⟩ := h; simp at h

/-- **A careful operation keeps the copies in step.** -/
theorem step (h : Synced s) {call : RuntimeCall} (hG : Careful s call) : Synced (s.next call) := by
  cases call with
  | register definition => exact h.register definition
  | unregister strategyId => exact h.unregister strategyId
  | registryUnregister strategyId => exact h.registryUnregister hG
  | enable strategyId => exact h.setEnabled (by simp)
  | disable strategyId => exact h.setEnabled fun _ => hG
  | stop strategyId raises now => exact h.stop_step hG
  | pause strategyId =>
    show Synced (s.pause strategyId).2
    rw [pause_eq hG]
    exact h
  | resume strategyId =>
    show Synced (s.resume strategyId).2
    rw [h.resume_eq strategyId]
    exact h
  | start call =>
    show Synced (s.start call).2
    rcases start_cases s call with ⟨-, heq | ⟨inst, metrics, hdead, heq⟩⟩ | ⟨hstarts, definition, inst, metrics, record,
      hdefinition, hidentity, hrunning, hrecord, heq⟩
    · rw [heq]
      exact h
    · rw [heq]
      exact h.append metrics hdead
    · rw [heq]
      exact h.started metrics hdefinition hidentity hrunning hrecord (hG hstarts)

/-- **An operation that is not careful puts them out of step.** -/
theorem careful_of_consistent (h : Synced s) {call : RuntimeCall} (hafter : (s.next call).Consistent) :
    Careful s call := by
  cases call with
  | register definition => trivial
  | unregister strategyId => trivial
  | enable strategyId => trivial
  | resume strategyId => trivial
  | registryUnregister strategyId =>
    rintro hdeliverable
    obtain ⟨d, hd, -⟩ := h.enabled _ hdeliverable
    obtain ⟨instrumentId, hmatched⟩ := matched_of_deliverable hdeliverable
    have hnext : s.next (.registryUnregister strategyId) =
        { s with registry := ⟨s.registry.byId.erase strategyId, s.registry.byCode.erase d.identity.code⟩ } := by
      rw [StrategyRuntime.next, StrategyRuntime.onRegistry, StrategyRegistry.unregister, get_eq_ok.mpr hd]
      rfl
    rw [hnext] at hafter
    obtain ⟨⟨d', hd', -⟩, -⟩ := hafter.delivered instrumentId none strategyId hmatched
    simp at hd'
  | disable strategyId =>
    rintro hdeliverable
    obtain ⟨d, hd, -⟩ := h.enabled _ hdeliverable
    obtain ⟨instrumentId, hmatched⟩ := matched_of_deliverable hdeliverable
    have hnext : s.next (.disable strategyId) =
        { s with registry :=
            { s.registry with byId := s.registry.byId.set strategyId { d with enabled := false } } } := by
      rw [StrategyRuntime.next, StrategyRuntime.onRegistry, StrategyRegistry.disable, StrategyRegistry.setEnabled,
        get_eq_ok.mpr hd]
      rfl
    rw [hnext] at hafter
    obtain ⟨⟨d', hd', henabled⟩, -⟩ := hafter.delivered instrumentId none strategyId hmatched
    simp only [Dict.get?_set_self, Option.some.injEq] at hd'
    subst hd'
    cases henabled
  | pause strategyId =>
    intro ref inst hinst hrunning
    obtain ⟨record, hrecord, hstate, -⟩ := h.record_of_held hinst
    obtain ⟨-, m', hpause⟩ := (pause_cases inst s.metrics).resolve_right fun hr => hr.1 hrunning
    have hnext : s.next (.pause strategyId) =
        { s with metrics := m', made := s.made.set ref { inst with state := .paused } } := by
      simp only [StrategyRuntime.next, StrategyRuntime.pause, StrategyRuntime.onInstance, hinst, hpause]
    rw [hnext] at hafter
    obtain ⟨href, hmade⟩ := instance?_eq_some.mp hinst
    obtain ⟨hlt, -⟩ := List.getElem?_eq_some_iff.mp hmade
    have hsays := hafter.recorded strategyId record hrecord
    rw [StrategyRuntime.latestState, h.latest _ _ href, Option.bind_some, List.getElem?_set_self hlt, hstate,
      hrunning] at hsays
    cases hsays
  | stop strategyId raises now =>
    intro ref inst hinst hlive
    by_contra hraises
    obtain ⟨record, hrecord, hstate, -⟩ := h.record_of_held hinst
    obtain ⟨e, reason, m', hstop⟩ : ∃ e reason m',
        inst.stop s.metrics raises = (.error e, { inst with state := .failed, failReason := reason }, m') := by
      rcases stop_cases inst s.metrics raises with ⟨-, hnone, -⟩ | ⟨-, -, hstop⟩ | ⟨hdead, -⟩
      · exact absurd hnone hraises
      · exact hstop
      · exact absurd hlive hdead
    have hnext : s.next (.stop strategyId raises now) =
        { s with metrics := m', made := s.made.set ref { inst with state := .failed, failReason := reason } } := by
      simp only [StrategyRuntime.next, StrategyRuntime.stop, StrategyRuntime.onInstance, hinst, hstop]
    rw [hnext] at hafter
    obtain ⟨href, hmade⟩ := instance?_eq_some.mp hinst
    obtain ⟨hlt, -⟩ := List.getElem?_eq_some_iff.mp hmade
    have hsays := hafter.recorded strategyId record hrecord
    rw [StrategyRuntime.latestState, h.latest _ _ href, Option.bind_some, List.getElem?_set_self hlt, hstate] at hsays
    have hfailed : StrategyRunState.failed = inst.state := Option.some.inj hsays
    rw [← hfailed] at hlive
    rcases hlive with hlive | hlive <;> cases hlive
  | start call =>
    intro hstarts ref state hin hlive
    obtain ⟨-, definition, inst, metrics, record, hdefinition, hidentity, hrunning, -, heq⟩ :=
      (start_cases s call).resolve_left fun hl => hl.1 hstarts
    have hid : definition.identity.strategyId = call.strategyId := h.keyed _ _ hdefinition
    change (s.start call).2.Consistent at hafter
    rw [heq] at hafter
    obtain ⟨old, hold, holdId, hstate⟩ := hin
    obtain ⟨hlt, -⟩ := List.getElem?_eq_some_iff.mp hold
    have hsame := hafter.oneLive call.strategyId ref s.made.length state .running
      ⟨old, (List.getElem?_append_left hlt).trans hold, holdId, hstate⟩
      ⟨inst, List.getElem?_concat_length, by rw [hidentity, hid], hrunning⟩ hlive (.inl rfl)
    omega

end Synced

/-- **The copies agree in every state** of exactly the runs whose operations are careful. -/
theorem consistent_iff (l : List RuntimeCall) :
    (∀ l', l' <+: l → (runtimeRun l').Consistent) ↔ Along StrategyRuntime.next Careful {} l :=
  prefixes_iff_along (I := Synced) (P := StrategyRuntime.Consistent) (s := {}) (fun _ _ h hG => h.step hG)
    (fun _ h => h.consistent) (fun _ _ h hafter => h.careful_of_consistent hafter) Synced.new l

/-- A strategy without configuration. -/
def sampleDefinition : StrategyDefinition where
  identity := {
    strategyId := ⟨1⟩
    code := "sma"
    name := "SMA"
    version := "1.0.0"
    configHash := computeConfigHash []
    code_nonblank := sma_code_nonblank
    name_nonblank := sma_name_nonblank
    version_nonblank := sma_version_nonblank
    configHash_nonblank := by decide +kernel
    codeHash_nonblank := no_codeHash_nonblank }

def sampleStart : StartCall where
  strategyId := ⟨1⟩
  tradingMode := "PAPER"
  runId := ⟨2⟩
  now := ⟨2026, 8, 12, 9, 15, 0, 0, some 0⟩

/-- The strategy is paused, and its run record still says that it runs. -/
theorem not_consistent_pause :
    ¬(runtimeRun [.register sampleDefinition, .start sampleStart, .pause ⟨1⟩]).Consistent := by
  intro h
  have hstates : (runtimeRun [.register sampleDefinition, .start sampleStart, .pause ⟨1⟩]).latestState ⟨1⟩ =
        some .paused ∧
      ((runtimeRun [.register sampleDefinition, .start sampleStart, .pause ⟨1⟩]).runRecord ⟨1⟩).map
        StrategyRunRecord.state = some .running := by decide +kernel
  obtain ⟨record, hrecord, hstate⟩ := Option.map_eq_some_iff.mp hstates.2
  have hsays := h.recorded _ _ hrecord
  rw [hstates.1, hstate] at hsays
  cases hsays

end AlphaAlgo.Strategy
