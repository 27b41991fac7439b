import AlphaAlgo.Lib.Lru
import AlphaAlgo.Market.Contracts
import AlphaAlgo.Signal.Signals

/-!
# Instance — a strategy instance, its run state and its signals

A `StrategyInstance` runs one strategy: its state moves along `_TRANSITIONS`, `STOPPED` and `FAILED` are terminal, and
what its callbacks emit is validated and freed of duplicates.  What the strategy's own code does (raise or return) is an
argument of each operation.

* `transition_eq_ok`, `transition_failed`: which transitions are legal, and that every state but a terminal one may fail.
* `pause_cases`, `resume_cases`, `stop_cases`: what the operations do to an instance and what they raise.
-/

namespace AlphaAlgo.Strategy

open Backtest (CandleTimeframe)
open Market (Stamp)
open Signal (StrategySignal)

/-! ### Run states -/

inductive TradingMode where
  | backtest
  | paper
  | live
  deriving DecidableEq, Repr

def TradingMode.value : TradingMode → String
  | backtest => "BACKTEST"
  | paper => "PAPER"
  | live => "LIVE"

def TradingMode.ofString? : String → Option TradingMode
  | "BACKTEST" => some .backtest
  | "PAPER" => some .paper
  | "LIVE" => some .live
  | _ => none

inductive StrategyRunState where
  | created
  | initializing
  | running
  | paused
  | stopping
  | stopped
  | failed
  deriving DecidableEq, Repr

/-- What the operations of the strategy engine raise; `raised` is an exception of a strategy's own code. -/
inductive StrategyError where
  | duplicateRegistration (text : String)
  | strategyNotFound (text : String)
  | lifecycle (text : String)
  | configValidation (text : String)
  | tradingMode (text : String)
  | valueError (text : String)
  | runtimeError (text : String)
  | raised (text : String)
  deriving DecidableEq, Repr

namespace StrategyRunState

def value : StrategyRunState → String
  | created => "created"
  | initializing => "initializing"
  | running => "running"
  | paused => "paused"
  | stopping => "stopping"
  | stopped => "stopped"
  | failed => "failed"

/-- `_TRANSITIONS`. -/
def successors : StrategyRunState → List StrategyRunState
  | created => [initializing, running, failed]
  | initializing => [created, failed]
  | running => [paused, stopping, failed]
  | paused => [running, stopping, failed]
  | stopping => [stopped, failed]
  | stopped => []
  | failed => []

def terminal : StrategyRunState → Bool
  | stopped => true
  | failed => true
  | _ => false

/-- `transition`, under the lock of the state machine. -/
def transition (s target : StrategyRunState) : Except StrategyError StrategyRunState :=
  if target ∈ s.successors then .ok target
  else .error (.runtimeError ("illegal state transition: " ++ s.value ++ " -> " ++ target.value))

theorem transition_eq_ok {s target t : StrategyRunState} :
    s.transition target = .ok t ↔ target ∈ s.successors ∧ t = target := by
  unfold transition
  split_ifs with h
  · simp [h, eq_comm]
  · simp [h]

/-- Only a terminal state cannot fail. -/
theorem transition_failed {s : StrategyRunState} (h : s.terminal = false) : s.transition .failed = .ok .failed := by
  cases s <;> first | rfl | cases h

/-- A terminal state is left by no transition. -/
theorem transition_of_terminal {s : StrategyRunState} (h : s.terminal = true) (target t : StrategyRunState) :
    s.transition target ≠ .ok t := by
  rw [Ne, transition_eq_ok]
  rintro ⟨hmem, -⟩
  cases s with
  | stopped => cases hmem
  | failed => cases hmem
  | _ => cases h

end StrategyRunState

/-! ### Identity and definition -/

structure StrategyIdentity where
  strategyId : UUID
  code : String
  name : String
  version : String
  configHash : String
  codeHash : Option String := none
  code_nonblank : blank code = false
  name_nonblank : blank name = false
  version_nonblank : blank version = false
  configHash_nonblank : blank configHash = false
  codeHash_nonblank : ∀ h ∈ codeHash, blank h = false

theorem sma_code_nonblank : blank "sma" = false := by decide

theorem sma_name_nonblank : blank "SMA" = false := by decide

theorem sma_version_nonblank : blank "1.0.0" = false := by decide

theorem sma_hash_nonblank : blank "44136fa3" = false := by decide

theorem no_codeHash_nonblank : ∀ h ∈ (none : Option String), blank h = false := nofun

/-- A configuration, as the JSON object that is hashed. -/
abbrev StrategyConfig := List (String × Json)

def computeConfigHash (config : StrategyConfig) : String := sha256 ((Json.obj config).sortKeys.dumps .compact)

/-- No instruments, or no timeframes, means all. -/
structure StrategyDefinition where
  identity : StrategyIdentity
  enabled : Bool := true
  instruments : List UUID := []
  timeframes : List CandleTimeframe := []
  config : StrategyConfig := []

/-! ### Metrics -/

structure StrategyMetrics where
  strategiesStarted : ℕ := 0
  strategiesStopped : ℕ := 0
  strategiesPaused : ℕ := 0
  strategiesResumed : ℕ := 0
  strategiesFailed : ℕ := 0
  eventsDispatched : ℕ := 0
  eventsDropped : ℕ := 0
  callbackCount : ℕ := 0
  signalsGenerated : ℕ := 0
  signalsRejected : ℕ := 0
  signalsDuplicate : ℕ := 0
  deriving DecidableEq, Repr

/-! ### Instances -/

/-- `emitted` is the buffer of the context, `seen` the keys of the deduplicator in the order of their last use. -/
structure StrategyInstance where
  identity : StrategyIdentity
  allowedInstruments : Option (List UUID)
  state : StrategyRunState := .created
  initialized : Bool := false
  failReason : Option String := none
  emitted : List StrategySignal := []
  seen : List String := []

/-- What an operation raises, and what it leaves. -/
abbrev Effect := Except StrategyError Unit × StrategyInstance × StrategyMetrics

namespace StrategyInstance

/-- The constructor; without `config_values` the configuration of the definition is taken. -/
def new (definition : StrategyDefinition) (configValues : Option StrategyConfig) :
    Except StrategyError StrategyInstance :=
  let actual := computeConfigHash (configValues.getD definition.config)
  if actual ≠ definition.identity.configHash then
    .error (.configValidation ("config hash mismatch: " ++ actual ++ " != " ++ definition.identity.configHash))
  else
    .ok {
      identity := definition.identity
      allowedInstruments := if definition.instruments = [] then none else some definition.instruments }

def moveTo (inst : StrategyInstance) (target : StrategyRunState) : Except StrategyError StrategyInstance :=
  (inst.state.transition target).map fun state => { inst with state := state }

/-- `_fail`. -/
def fail (inst : StrategyInstance) (m : StrategyMetrics) (reason : String) : Effect :=
  if inst.state.terminal then (.ok (), inst, m)
  else match inst.moveTo .failed with
    | .error e => (.error e, inst, m)
    | .ok inst => (.ok (), { inst with failReason := some reason }, { m with strategiesFailed := m.strategiesFailed + 1 })

/-- `_fail`, and then a `LifecycleError`. -/
def failAndRaise (inst : StrategyInstance) (m : StrategyMetrics) (reason text : String) : Effect :=
  match inst.fail m reason with
  | (.error e, rest) => (.error e, rest)
  | (.ok _, rest) => (.error (.lifecycle text), rest)

/-- `initialize`; `raises` is what the strategy's own `initialize` raises. -/
def initializeOnce (inst : StrategyInstance) (m : StrategyMetrics) (raises : Option String) : Effect :=
  if inst.initialized then (.error (.lifecycle "strategy already initialized"), inst, m)
  else if inst.state ≠ .created then (.error (.lifecycle "initialize only allowed from CREATED"), inst, m)
  else match inst.moveTo .initializing with
    | .error e => (.error e, inst, m)
    | .ok inst =>
      match raises with
      | some exc => inst.failAndRaise m exc ("initialize failed: " ++ exc)
      | none =>
        match inst.moveTo .created with
        | .error e => (.error e, inst, m)
        | .ok inst => (.ok (), { inst with initialized := true }, m)

def start (inst : StrategyInstance) (m : StrategyMetrics) (raises : Option String) : Effect :=
  if inst.initialized = false then (.error (.lifecycle "must initialize before start"), inst, m)
  else if inst.state ≠ .created then (.error (.lifecycle "start only allowed once from CREATED"), inst, m)
  else match inst.moveTo .running with
    | .error e => (.error e, inst, m)
    | .ok inst =>
      match raises with
      | some exc => inst.failAndRaise m exc ("on_start failed: " ++ exc)
      | none => (.ok (), inst, { m with strategiesStarted := m.strategiesStarted + 1 })

def pause (inst : StrategyInstance) (m : StrategyMetrics) : Effect :=
  if inst.state ≠ .running then (.error (.lifecycle "pause only allowed from RUNNING"), inst, m)
  else match inst.moveTo .paused with
    | .error e => (.error e, inst, m)
    | .ok inst => (.ok (), inst, { m with strategiesPaused := m.strategiesPaused + 1 })

def resume (inst : StrategyInstance) (m : StrategyMetrics) : Effect :=
  if inst.state ≠ .paused then (.error (.lifecycle "resume only allowed from PAUSED"), inst, m)
  else match inst.moveTo .running with
    | .error e => (.error e, inst, m)
    | .ok inst => (.ok (), inst, { m with strategiesResumed := m.strategiesResumed + 1 })

def stop (inst : StrategyInstance) (m : StrategyMetrics) (raises : Option String) : Effect :=
  if inst.state ≠ .running ∧ inst.state ≠ .paused then
    (.error (.lifecycle "stop only allowed from RUNNING/PAUSED"), inst, m)
  else match inst.moveTo .stopping with
    | .error e => (.error e, inst, m)
    | .ok inst =>
      match raises with
      | some exc => inst.failAndRaise m exc ("on_stop failed: " ++ exc)
      | none =>
        match inst.moveTo .stopped with
        | .error e => (.error e, inst, m)
        | .ok inst => (.ok (), inst, { m with strategiesStopped := m.strategiesStopped + 1 })

end StrategyInstance

/-! ### Signals -/

structure SignalValidationResult where
  valid : Bool
  reason : String := ""

/-- `SignalValidator.validate` against the time of the event, five seconds of skew and of age being allowed. -/
def validateSignal (signal : StrategySignal) (identity : StrategyIdentity) (allowedInstruments : Option (List UUID))
    (eventTimestamp : Stamp) : SignalValidationResult :=
  if signal.strategyId ≠ identity.strategyId then ⟨false, "strategy_id_mismatch"⟩
  else if signal.strategyVersion ≠ identity.version then ⟨false, "strategy_version_mismatch"⟩
  else if signal.strategyConfigHash ≠ identity.configHash then ⟨false, "config_hash_mismatch"⟩
  else if ¬(0 ≤ signal.confidence.val ∧ signal.confidence.val ≤ 1) then ⟨false, "confidence_out_of_range"⟩
  else if blank signal.reason then ⟨false, "missing_reason"⟩
  else if allowedInstruments.any fun l => signal.instrumentId ∉ l then ⟨false, "instrument_not_subscribed"⟩
  else if 5000000 < signal.timestamp.instant - eventTimestamp.instant then ⟨false, "future_timestamp"⟩
  else if 5000000 < eventTimestamp.instant - signal.timestamp.instant then ⟨false, "stale_timestamp"⟩
  else ⟨true, "ok"⟩

/-- `signal_dedup_key`. -/
def signalDedupKey (signal : StrategySignal) (eventTimestamp : Stamp) : String := signal.identityKey eventTimestamp.val

/-- The signals accepted so far, the deduplicator and the metrics. -/
structure Acceptance where
  accepted : List StrategySignal
  seen : List String
  metrics : StrategyMetrics

/-- One signal of an event. -/
def acceptSignal (identity : StrategyIdentity) (allowedInstruments : Option (List UUID)) (eventTimestamp : Stamp)
    (a : Acceptance) (signal : StrategySignal) : Acceptance :=
  let key := signalDedupKey signal eventTimestamp
  let seen := Lru.use (some 100000) a.seen key
  if (validateSignal signal identity allowedInstruments eventTimestamp).valid = false then
    { a with metrics := { a.metrics with signalsRejected := a.metrics.signalsRejected + 1 } }
  else if key ∈ a.seen then
    { a with seen := seen, metrics := { a.metrics with signalsDuplicate := a.metrics.signalsDuplicate + 1 } }
  else
    ⟨a.accepted ++ [signal], seen, { a.metrics with signalsGenerated := a.metrics.signalsGenerated + 1 }⟩

namespace StrategyInstance

/-- What a callback emits: `emit_signal` refuses the signals of another strategy. -/
def emit (inst : StrategyInstance) (signals : List StrategySignal) : StrategyInstance :=
  { inst with emitted := inst.emitted ++ signals.filter fun signal =>
      signal.strategyId = inst.identity.strategyId && signal.strategyVersion = inst.identity.version &&
        signal.strategyConfigHash = inst.identity.configHash }

/-- The signals that are accepted of those emitted after the first `before`. -/
def acceptSignals (inst : StrategyInstance) (m : StrategyMetrics) (before : ℕ) (eventTimestamp : Stamp) :
    List StrategySignal × StrategyInstance × StrategyMetrics :=
  let a := (inst.emitted.drop before).foldl (acceptSignal inst.identity inst.allowedInstruments eventTimestamp)
    ⟨[], inst.seen, m⟩
  (a.accepted, { inst with emitted := inst.emitted.drop before, seen := a.seen }, a.metrics)

end StrategyInstance

/-! ### What the operations do -/

section Cases

variable (inst : StrategyInstance) (m : StrategyMetrics)

/-- Not terminal, that is `RUNNING` or `PAUSED`. -/
def StrategyRunState.Live (s : StrategyRunState) : Prop := s = .running ∨ s = .paused

instance (s : StrategyRunState) : Decidable s.Live := by unfold StrategyRunState.Live; infer_instance

theorem moveTo_of_mem {inst : StrategyInstance} {target : StrategyRunState} (h : target ∈ inst.state.successors) :
    inst.moveTo target = .ok { inst with state := target } := by
  rw [StrategyInstance.moveTo, StrategyRunState.transition, if_pos h]
  rfl

theorem pause_cases : (inst.state = .running ∧ ∃ m', inst.pause m = (.ok (), { inst with state := .paused }, m')) ∨
    (inst.state ≠ .running ∧ ∃ e, inst.pause m = (.error e, inst, m)) := by
  unfold StrategyInstance.pause
  by_cases h : inst.state = .running
  · rw [if_neg (not_not.mpr h), moveTo_of_mem (by rw [h]; decide)]
    exact .inl ⟨h, _, rfl⟩
  · rw [if_pos h]
    exact .inr ⟨h, _, rfl⟩

theorem resume_cases : (inst.state = .paused ∧ ∃ m', inst.resume m = (.ok (), { inst with state := .running }, m')) ∨
    (inst.state ≠ .paused ∧ ∃ e, inst.resume m = (.error e, inst, m)) := by
  unfold StrategyInstance.resume
  by_cases h : inst.state = .paused
  · rw [if_neg (not_not.mpr h), moveTo_of_mem (by rw [h]; decide)]
    exact .inl ⟨h, _, rfl⟩
  · rw [if_pos h]
    exact .inr ⟨h, _, rfl⟩

/-- A live instance is stopped, or fails where `on_stop` raises. -/
theorem stop_cases (raises : Option String) :
    (inst.state.Live ∧ raises = none ∧ ∃ m', inst.stop m raises = (.ok (), { inst with state := .stopped }, m')) ∨
    (inst.state.Live ∧ raises ≠ none ∧ ∃ e reason m',
      inst.stop m raises = (.error e, { inst with state := .failed, failReason := reason }, m')) ∨
    (¬inst.state.Live ∧ ∃ e, inst.stop m raises = (.error e, inst, m)) := by
  unfold StrategyInstance.stop
  by_cases h : inst.state.Live
  · have hguard : ¬(inst.state ≠ .running ∧ inst.state ≠ .paused) := by
      rintro ⟨hrunning, hpaused⟩
      exact h.elim hrunning hpaused
    have hmove : StrategyRunState.stopping ∈ inst.state.successors := by
      rcases h with h | h <;> rw [h] <;> decide
    rw [if_neg hguard, moveTo_of_mem hmove]
    cases raises with
    | none => exact .inl ⟨h, rfl, _, rfl⟩
    | some exc =>
      exact .inr (.inl ⟨h, by simp, .lifecycle ("on_stop failed: " ++ exc), some exc,
        { m with strategiesFailed := m.strategiesFailed + 1 }, rfl⟩)
  · have hguard : inst.state ≠ .running ∧ inst.state ≠ .paused := ⟨fun hr => h (.inl hr), fun hp => h (.inr hp)⟩
    rw [if_pos hguard]
    exact .inr (.inr ⟨h, _, rfl⟩)

/-- A new instance that is initialized and started runs; where the strategy raises, it has failed. -/
theorem launch_cases {definition : StrategyDefinition} {configValues : Option StrategyConfig} {inst : StrategyInstance}
    (hnew : StrategyInstance.new definition configValues = .ok inst) (initializeRaises onStartRaises : Option String) :
    inst.identity = definition.identity ∧
    ((∃ e failed m', failed.state = .failed ∧ failed.identity = definition.identity ∧
        inst.initializeOnce m initializeRaises = (.error e, failed, m') ∧ initializeRaises ≠ none) ∨
      ∃ ready m', inst.initializeOnce m initializeRaises = (.ok (), ready, m') ∧ initializeRaises = none ∧
        ((∃ e failed m'', failed.state = .failed ∧ failed.identity = definition.identity ∧
            ready.start m' onStartRaises = (.error e, failed, m'') ∧ onStartRaises ≠ none) ∨
          ∃ running m'', running.state = .running ∧ running.identity = definition.identity ∧
            ready.start m' onStartRaises = (.ok (), running, m'') ∧ onStartRaises = none)) := by
  unfold StrategyInstance.new at hnew
  dsimp only at hnew
  by_cases hhash : computeConfigHash (configValues.getD definition.config) ≠ definition.identity.configHash
  · rw [if_pos hhash] at hnew
    cases hnew
  rw [if_neg hhash] at hnew
  cases hnew
  refine ⟨rfl, ?_⟩
  cases initializeRaises with
  | some exc =>
    refine .inl ⟨_, _, _, ?_, ?_, rfl, by simp⟩ <;> rfl
  | none =>
    refine .inr ⟨_, _, rfl, rfl, ?_⟩
    cases onStartRaises with
    | some exc => refine .inl ⟨_, _, _, ?_, ?_, rfl, by simp⟩ <;> rfl
    | none => refine .inr ⟨_, _, ?_, ?_, rfl, rfl⟩ <;> rfl

end Cases

end AlphaAlgo.Strategy
