import AlphaAlgo.Lib.Dict
import AlphaAlgo.Lib.Runs
import AlphaAlgo.Risk.Context
import AlphaAlgo.Strategy.Instance

/-!
# Runtime — the registry, the dispatcher and the operations of the strategy runtime

The registry holds the definitions; a start copies the definition of a strategy and its new instance into the dispatcher
and makes a run record.  The operations show these copies one by one.
-/

namespace AlphaAlgo.Strategy

open Backtest (CandleTimeframe)
open Risk (reprText)

/-! ### The registry -/

structure StrategyRegistry where
  byId : Dict UUID StrategyDefinition := .empty
  byCode : Dict String UUID := .empty

namespace StrategyRegistry

def register (r : StrategyRegistry) (definition : StrategyDefinition) : Except StrategyError StrategyRegistry :=
  let identity := definition.identity
  if (r.byId.get? identity.strategyId).isSome then
    .error (.duplicateRegistration ("strategy_id already registered: " ++ identity.strategyId.str))
  else if (r.byCode.get? identity.code).isSome then
    .error (.duplicateRegistration ("strategy code already registered: " ++ reprText identity.code))
  else .ok ⟨r.byId.set identity.strategyId definition, r.byCode.set identity.code identity.strategyId⟩

def get (r : StrategyRegistry) (strategyId : UUID) : Except StrategyError StrategyDefinition :=
  match r.byId.get? strategyId with
  | none => .error (.strategyNotFound ("strategy not registered: " ++ strategyId.str))
  | some definition => .ok definition

def unregister (r : StrategyRegistry) (strategyId : UUID) : Except StrategyError StrategyRegistry :=
  (r.get strategyId).map fun definition => ⟨r.byId.erase strategyId, r.byCode.erase definition.identity.code⟩

/-- `_set_enabled`. -/
def setEnabled (r : StrategyRegistry) (strategyId : UUID) (enabled : Bool) : Except StrategyError StrategyRegistry :=
  (r.get strategyId).map fun definition =>
    { r with byId := r.byId.set strategyId { definition with enabled := enabled } }

def enable (r : StrategyRegistry) (strategyId : UUID) : Except StrategyError StrategyRegistry :=
  r.setEnabled strategyId true

def disable (r : StrategyRegistry) (strategyId : UUID) : Except StrategyError StrategyRegistry :=
  r.setEnabled strategyId false

end StrategyRegistry

/-! ### The dispatcher -/

/-- The instances are references into the list of all instances that were made. -/
structure StrategyDispatcher where
  instances : Dict UUID ℕ := .empty
  definitions : Dict UUID StrategyDefinition := .empty

namespace StrategyDispatcher

def register (d : StrategyDispatcher) (ref : ℕ) (definition : StrategyDefinition) : StrategyDispatcher :=
  ⟨d.instances.set definition.identity.strategyId ref, d.definitions.set definition.identity.strategyId definition⟩

def unregister (d : StrategyDispatcher) (strategyId : UUID) : StrategyDispatcher :=
  ⟨d.instances.erase strategyId, d.definitions.erase strategyId⟩

def setEnabled (d : StrategyDispatcher) (strategyId : UUID) (enabled : Bool) : StrategyDispatcher :=
  match d.definitions.get? strategyId with
  | none => d
  | some definition => { d with definitions := d.definitions.set strategyId { definition with enabled := enabled } }

/-- The instance of a strategy, with its reference. -/
def instance? (d : StrategyDispatcher) (made : List StrategyInstance) (strategyId : UUID) :
    Option (ℕ × StrategyInstance) :=
  (d.instances.get? strategyId).bind fun ref => (made[ref]?).map fun inst => (ref, inst)

/-- The routing of a definition: no timeframe is given for what is not a candle. -/
def routes (definition : StrategyDefinition) (instrumentId : UUID) (timeframe : Option CandleTimeframe) : Bool :=
  (definition.instruments = [] || instrumentId ∈ definition.instruments) &&
    timeframe.all fun t => definition.timeframes = [] || t ∈ definition.timeframes

/-- `_matches`. -/
def matchesEvent (d : StrategyDispatcher) (made : List StrategyInstance) (strategyId instrumentId : UUID)
    (timeframe : Option CandleTimeframe) : Bool :=
  match d.definitions.get? strategyId, d.instance? made strategyId with
  | some definition, some (_, inst) =>
    definition.enabled && inst.state = .running && routes definition instrumentId timeframe
  | _, _ => false

/-- The strategies that `match_tick`, `match_candle`, `match_order_update` or `match_position_update` gives for an event. -/
def matched (d : StrategyDispatcher) (made : List StrategyInstance) (instrumentId : UUID)
    (timeframe : Option CandleTimeframe) : List UUID :=
  (d.instances.items.map Prod.fst).filter fun strategyId => d.matchesEvent made strategyId instrumentId timeframe

end StrategyDispatcher

/-! ### The runtime -/

structure StrategyRunRecord where
  strategyId : UUID
  version : String
  configHash : String
  codeHash : Option String
  tradingMode : TradingMode
  runId : UUID
  startedAt : Option DateTime := none
  stoppedAt : Option DateTime := none
  state : StrategyRunState := .created
  reason : Option String := none

/-- `made` are all instances that were made; `latest` refers, for the statements, to the one last started for each
strategy. -/
structure StrategyRuntime where
  registry : StrategyRegistry := {}
  dispatcher : StrategyDispatcher := {}
  metrics : StrategyMetrics := {}
  runs : Dict UUID StrategyRunRecord := .empty
  made : List StrategyInstance := []
  latest : Dict UUID ℕ := .empty

/-- A start with what the strategy's own code raises, the identifier of the run and the reading of the clock. -/
structure StartCall where
  strategyId : UUID
  tradingMode : String
  configValues : Option StrategyConfig := none
  factoryRaises : Option String := none
  initializeRaises : Option String := none
  onStartRaises : Option String := none
  runId : UUID
  now : DateTime

namespace StrategyRuntime

variable (s : StrategyRuntime)

/-- The allowed modes are `BACKTEST` and `PAPER`. -/
def allowedMode (tradingMode : String) : Except StrategyError TradingMode :=
  match TradingMode.ofString? tradingMode with
  | none => .error (.valueError (reprText tradingMode ++ " is not a valid TradingMode"))
  | some .live => .error (.tradingMode ("trading mode not allowed: " ++ TradingMode.live.value))
  | some mode => .ok mode

def start (call : StartCall) : Except StrategyError UUID × StrategyRuntime :=
  match allowedMode call.tradingMode with
  | .error e => (.error e, s)
  | .ok mode =>
    match s.registry.get call.strategyId with
    | .error e => (.error e, s)
    | .ok definition =>
      match call.factoryRaises with
      | some exc => (.error (.raised exc), s)
      | none =>
        match StrategyInstance.new definition call.configValues with
        | .error e => (.error e, s)
        | .ok inst =>
          match inst.initializeOnce s.metrics call.initializeRaises with
          | (.error e, inst, metrics) => (.error e, { s with metrics := metrics, made := s.made ++ [inst] })
          | (.ok _, inst, metrics) =>
            match inst.start metrics call.onStartRaises with
            | (.error e, inst, metrics) => (.error e, { s with metrics := metrics, made := s.made ++ [inst] })
            | (.ok _, inst, metrics) =>
              let record : StrategyRunRecord := {
                strategyId := call.strategyId
                version := definition.identity.version
                configHash := definition.identity.configHash
                codeHash := definition.identity.codeHash
                tradingMode := mode
                runId := call.runId
                startedAt := some call.now
                state := inst.state }
              (.ok call.runId,
                { s with
                  dispatcher := s.dispatcher.register s.made.length definition
                  metrics := metrics
                  runs := s.runs.set call.strategyId record
                  made := s.made ++ [inst]
                  latest := s.latest.set call.strategyId s.made.length })

/-- An operation of the instance that `_require_instance` finds. -/
def onInstance (strategyId : UUID) (operation : StrategyInstance → StrategyMetrics → Effect) :
    Except StrategyError Unit × StrategyRuntime :=
  match s.dispatcher.instance? s.made strategyId with
  | none => (.error (.strategyNotFound ("strategy not running: " ++ strategyId.str)), s)
  | some (ref, inst) =>
    let (result, inst, metrics) := operation inst s.metrics
    (result, { s with metrics := metrics, made := s.made.set ref inst })

def pause (strategyId : UUID) : Except StrategyError Unit × StrategyRuntime :=
  s.onInstance strategyId StrategyInstance.pause

def resume (strategyId : UUID) : Except StrategyError Unit × StrategyRuntime :=
  s.onInstance strategyId StrategyInstance.resume

/-- The record takes the state of the instance. -/
def stop (strategyId : UUID) (onStopRaises : Option String) (now : DateTime) :
    Except StrategyError Unit × StrategyRuntime :=
  match s.onInstance strategyId fun inst m => inst.stop m onStopRaises with
  | (.error e, s) => (.error e, s)
  | (.ok _, s) =>
    let s := { s with dispatcher := s.dispatcher.setEnabled strategyId false }
    match s.runs.get? strategyId, s.dispatcher.instance? s.made strategyId with
    | some record, some (_, inst) =>
      (.ok (), { s with runs := s.runs.set strategyId { record with state := inst.state, stoppedAt := some now } })
    | _, _ => (.ok (), s)

/-- A change of the registry, where it raises nothing. -/
def onRegistry (change : StrategyRegistry → Except StrategyError StrategyRegistry) :
    Except StrategyError Unit × StrategyRuntime :=
  match change s.registry with
  | .error e => (.error e, s)
  | .ok registry => (.ok (), { s with registry := registry })

def register (definition : StrategyDefinition) : Except StrategyError Unit × StrategyRuntime :=
  s.onRegistry fun r => r.register definition

def unregister (strategyId : UUID) : Except StrategyError Unit × StrategyRuntime :=
  match s.onRegistry fun r => r.unregister strategyId with
  | (.error e, s) => (.error e, s)
  | (.ok _, s) =>
    (.ok (), { s with dispatcher := s.dispatcher.unregister strategyId, runs := s.runs.erase strategyId })

def runRecord (strategyId : UUID) : Option StrategyRunRecord := s.runs.get? strategyId

end StrategyRuntime

/-- The operations of the runtime and of its registry. -/
inductive RuntimeCall where
  | register (definition : StrategyDefinition)
  | unregister (strategyId : UUID)
  | registryUnregister (strategyId : UUID)
  | enable (strategyId : UUID)
  | disable (strategyId : UUID)
  | start (call : StartCall)
  | stop (strategyId : UUID) (onStopRaises : Option String) (now : DateTime)
  | pause (strategyId : UUID)
  | resume (strategyId : UUID)

/-- The runtime after an operation. -/
def StrategyRuntime.next (s : StrategyRuntime) : RuntimeCall → StrategyRuntime
  | .register definition => (s.register definition).2
  | .unregister strategyId => (s.unregister strategyId).2
  | .registryUnregister strategyId => (s.onRegistry fun r => r.unregister strategyId).2
  | .enable strategyId => (s.onRegistry fun r => r.enable strategyId).2
  | .disable strategyId => (s.onRegistry fun r => r.disable strategyId).2
  | .start call => (s.start call).2
  | .stop strategyId onStopRaises now => (s.stop strategyId onStopRaises now).2
  | .pause strategyId => (s.pause strategyId).2
  | .resume strategyId => (s.resume strategyId).2

/-- A new runtime after some operations. -/
abbrev runtimeRun (l : List RuntimeCall) : StrategyRuntime := Runs.run StrategyRuntime.next {} l

end AlphaAlgo.Strategy
