import AlphaAlgo.Lib.Pool
import AlphaAlgo.Strategy.Runtime

/-!
# Dispatch — events, workers and lifecycle calls that interleave

A dispatch matches the instances, submits one future for each, collects the results as they complete and then looks for
futures that hit the timeout.  A worker takes the lock of the instance, checks that it runs, runs the callback and
accepts its signals.  `pause`, `resume` and `stop` take no lock of the instance.  Between any two of the steps below
another thread may take its own.  A dispatch submits all its futures in one step, and the shutdown of the dispatcher and
its pool is left out.
-/

namespace AlphaAlgo.Strategy

open Backtest (CandleTimeframe)
open Market (Stamp)
open Signal (StrategySignal)

/-! ### The parties -/

/-- An instance with the dispatcher's copy of its definition, its run record and its lock.  The last three are for the
statements: one of its callbacks raised; one that had begun, or one that had not, was unfinished at a timeout. -/
structure Hosted where
  inst : StrategyInstance
  definition : StrategyDefinition
  record : Option StrategyRunRecord := none
  locked : Bool := false
  raised : Bool := false
  overran : Bool := false
  starved : Bool := false

structure StrategyEvent where
  instrumentId : UUID
  timeframe : Option CandleTimeframe := none
  timestamp : Stamp

/-- What a future ends with: the accepted signals, the `LifecycleError` of an instance that does not run, or the
`RuntimeError` of an illegal transition. -/
inductive FutureResult where
  | signals (accepted : List StrategySignal)
  | refused (text : String)
  | illegal (text : String)

/-- Where a future stands.  It holds the lock of the instance from `entered` on, up to `returning`. -/
inductive FuturePc where
  | pending
  | cancelled
  | waiting
  | entered
  | calling (before : ℕ)
  | raisedIn (reason : String)
  | failing (reason : String)
  | accepting (before : ℕ)
  | returning (result : FutureResult)
  | done (result : FutureResult)

/-- `counted`, for the statements: the event was counted in `strategies_failed` by its callback, or as dropped. -/
structure StrategyFuture where
  owner : ℕ
  target : ℕ
  timestamp : Stamp
  pc : FuturePc := .pending
  begun : Bool := false
  counted : Bool := false

/-- Where the collector goes on after a failure. -/
inductive Resume where
  | collect (ready : List ℕ)
  | sweep (rest : List ℕ)

/-- `checking` and `failing` are the two steps of `mark_failed`. -/
inductive DispatchPc where
  | matching (next : ℕ)
  | submitting
  | opening
  | collecting (ready : List ℕ)
  | checking (future : ℕ) (reason : String) (resume : Resume)
  | failing (future : ℕ) (reason : String) (resume : Resume)
  | recording (future : ℕ) (resume : Resume)
  | sweeping (rest : List ℕ)
  | cancelling (future : ℕ) (rest : List ℕ)
  | returned
  | raised (text : String)

structure EnrichedSignal where
  signal : StrategySignal
  codeHash : Option String
  runId : Option UUID
  eventTimestamp : Stamp

/-- `unyielded` are the futures that `as_completed` has not given yet; an accepted signal is kept with its future. -/
structure EventDispatch where
  event : StrategyEvent
  pc : DispatchPc := .matching 0
  found : List ℕ := []
  futures : List ℕ := []
  unyielded : List ℕ := []
  accepted : List (ℕ × EnrichedSignal) := []

inductive ControlKind where
  | pause
  | resume
  | stop
  deriving DecidableEq, Repr

inductive ControlPc where
  | start
  | checked
  | onStop
  | raisedIn (reason : String)
  | failing (reason : String)
  | stopping
  | stopped
  | finished
  | raised (e : StrategyError)

/-- A call of `pause`, `resume` or `stop`. -/
structure LifecycleCall where
  kind : ControlKind
  target : ℕ
  pc : ControlPc := .start

/-- A signal of a future that was given to a consumer. -/
structure Delivery where
  consumer : ℕ
  future : ℕ
  signal : EnrichedSignal

structure DispatchSystem where
  hosted : List Hosted
  dispatches : List EventDispatch
  calls : List LifecycleCall
  futures : List StrategyFuture := []
  metrics : StrategyMetrics := {}
  handed : List Delivery := []
  consumers : ℕ
  maxWorkers : ℕ
  hasTimeout : Bool

/-- What the strategy's own code does: the signals it emits, and what it raises. -/
structure CallbackOutcome where
  emits : List StrategySignal := []
  raises : Option String := none

/-- What `as_completed` does next: give a future that is ready, or go on waiting, or raise the `TimeoutError`. -/
inductive Collecting where
  | give (future : ℕ)
  | wait
  | timeout

inductive DispatchAction where
  | dispatch (d : ℕ) (choice : Collecting) (now : DateTime)
  | work (f : ℕ) (outcome : CallbackOutcome)
  | call (c : ℕ) (outcome : CallbackOutcome) (now : DateTime)

/-! ### Workers -/

def FuturePc.isDone : FuturePc → Bool
  | done _ => true
  | cancelled => true
  | _ => false

/-- On a worker. -/
def FuturePc.active : FuturePc → Bool
  | pending => false
  | cancelled => false
  | done _ => false
  | _ => true

def Hosted.withState (h : Hosted) (state : StrategyRunState) : Hosted :=
  { h with inst := { h.inst with state := state } }

/-- The transition of `_fail`, once the state was seen not to be terminal. -/
def Hosted.failNow (h : Hosted) (m : StrategyMetrics) (reason : String) :
    Except StrategyError (Hosted × StrategyMetrics) :=
  (h.inst.state.transition .failed).map fun state =>
    ({ h with inst := { h.inst with state := state, failReason := some reason } },
      { m with strategiesFailed := m.strategiesFailed + 1 })

def StrategyError.text : StrategyError → String
  | .duplicateRegistration text => text
  | .strategyNotFound text => text
  | .lifecycle text => text
  | .configValidation text => text
  | .tradingMode text => text
  | .valueError text => text
  | .runtimeError text => text
  | .raised text => text

/-- The next step of a future on the instance; `free` is whether it may have a worker. -/
def StrategyFuture.next (fut : StrategyFuture) (free : Bool) (h : Hosted) (m : StrategyMetrics)
    (outcome : CallbackOutcome) : StrategyFuture × Hosted × StrategyMetrics :=
  match fut.pc with
  | .pending => if free then ({ fut with pc := .waiting }, h, m) else (fut, h, m)
  | .waiting => if h.locked then (fut, h, m) else ({ fut with pc := .entered }, { h with locked := true }, m)
  | .entered =>
    if h.inst.state ≠ .running then
      ({ fut with pc := .returning (.refused ("callback not allowed in state " ++ h.inst.state.value)) },
        { h with locked := false }, m)
    else ({ fut with pc := .calling h.inst.emitted.length, begun := true }, h, m)
  | .calling before =>
    let h := { h with inst := h.inst.emit outcome.emits }
    let m := { m with callbackCount := m.callbackCount + 1 }
    match outcome.raises with
    | some reason => ({ fut with pc := .raisedIn reason }, { h with raised := true }, m)
    | none => ({ fut with pc := .accepting before }, h, m)
  | .raisedIn reason =>
    if h.inst.state.terminal then ({ fut with pc := .returning (.signals []) }, { h with locked := false }, m)
    else ({ fut with pc := .failing reason }, h, m)
  | .failing reason =>
    match h.failNow m reason with
    | .error e => ({ fut with pc := .returning (.illegal e.text) }, { h with locked := false }, m)
    | .ok (h, m) => ({ fut with pc := .returning (.signals []), counted := true }, { h with locked := false }, m)
  | .accepting before =>
    let (accepted, inst, m) := h.inst.acceptSignals m before fut.timestamp
    ({ fut with pc := .returning (.signals accepted) }, { h with inst := inst, locked := false }, m)
  | .returning result => ({ fut with pc := .done result }, h, m)
  | .cancelled => (fut, h, m)
  | .done _ => (fut, h, m)

/-- `cancel`: only a future that no worker has. -/
def StrategyFuture.cancel (fut : StrategyFuture) : StrategyFuture :=
  match fut.pc with
  | .pending => { fut with pc := .cancelled }
  | _ => fut

/-! ### Lifecycle calls -/

/-- A transition of a call. -/
def LifecycleCall.move (c : LifecycleCall) (h : Hosted) (m : StrategyMetrics) (target : StrategyRunState)
    (pc : ControlPc) (counted : StrategyMetrics → StrategyMetrics) : LifecycleCall × Hosted × StrategyMetrics :=
  match h.inst.state.transition target with
  | .error e => ({ c with pc := .raised e }, h, m)
  | .ok state => ({ c with pc := pc }, h.withState state, counted m)

/-- The next step of `pause`, `resume` or `stop` on its instance. -/
def LifecycleCall.next (c : LifecycleCall) (h : Hosted) (m : StrategyMetrics) (outcome : CallbackOutcome)
    (now : DateTime) : LifecycleCall × Hosted × StrategyMetrics :=
  match c.pc with
  | .start =>
    match c.kind with
    | .pause =>
      if h.inst.state ≠ .running then ({ c with pc := .raised (.lifecycle "pause only allowed from RUNNING") }, h, m)
      else ({ c with pc := .checked }, h, m)
    | .resume =>
      if h.inst.state ≠ .paused then ({ c with pc := .raised (.lifecycle "resume only allowed from PAUSED") }, h, m)
      else ({ c with pc := .checked }, h, m)
    | .stop =>
      if h.inst.state ≠ .running ∧ h.inst.state ≠ .paused then
        ({ c with pc := .raised (.lifecycle "stop only allowed from RUNNING/PAUSED") }, h, m)
      else ({ c with pc := .checked }, h, m)
  | .checked =>
    match c.kind with
    | .pause => c.move h m .paused .finished fun m => { m with strategiesPaused := m.strategiesPaused + 1 }
    | .resume => c.move h m .running .finished fun m => { m with strategiesResumed := m.strategiesResumed + 1 }
    | .stop => c.move h m .stopping .onStop id
  | .onStop =>
    let h := { h with inst := h.inst.emit outcome.emits }
    match outcome.raises with
    | some reason => ({ c with pc := .raisedIn reason }, { h with raised := true }, m)
    | none => ({ c with pc := .stopping }, h, m)
  | .raisedIn reason =>
    if h.inst.state.terminal then ({ c with pc := .raised (.lifecycle ("on_stop failed: " ++ reason)) }, h, m)
    else ({ c with pc := .failing reason }, h, m)
  | .failing reason =>
    match h.failNow m reason with
    | .error e => ({ c with pc := .raised e }, h, m)
    | .ok (h, m) => ({ c with pc := .raised (.lifecycle ("on_stop failed: " ++ reason)) }, h, m)
  | .stopping => c.move h m .stopped .stopped fun m => { m with strategiesStopped := m.strategiesStopped + 1 }
  | .stopped =>
    ({ c with pc := .finished },
      { h with
        definition := { h.definition with enabled := false }
        record := h.record.map fun record => { record with state := h.inst.state, stoppedAt := some now } }, m)
  | .finished => (c, h, m)
  | .raised _ => (c, h, m)

/-! ### Dispatches -/

/-- `_record_failure`. -/
def Hosted.recordFailure (h : Hosted) (now : DateTime) : Hosted :=
  { h with record := h.record.map fun record =>
      { record with reason := h.inst.failReason, state := h.inst.state, stoppedAt := some now } }

/-- For the statements: a future hit the timeout. -/
def Hosted.expire (h : Hosted) (begun : Bool) : Hosted :=
  if begun then { h with overran := true } else { h with starved := true }

/-- `_enrich`. -/
def Hosted.enrich (h : Hosted) (eventTimestamp : Stamp) (signal : StrategySignal) : EnrichedSignal :=
  ⟨signal, h.inst.identity.codeHash, h.record.map StrategyRunRecord.runId, eventTimestamp⟩

def Resume.pc : Resume → DispatchPc
  | collect ready => .collecting ready
  | sweep rest => .sweeping rest

namespace DispatchSystem

variable (s : DispatchSystem)

def setDispatch (d : ℕ) (disp : EventDispatch) : DispatchSystem := { s with dispatches := s.dispatches.set d disp }

/-- The instance matches the event: its copy of the definition is enabled, it runs and the event is routed to it. -/
def matchesAt (event : StrategyEvent) (i : ℕ) : Bool :=
  (s.hosted[i]?).any fun h =>
    h.definition.enabled && h.inst.state = .running &&
      StrategyDispatcher.routes h.definition event.instrumentId event.timeframe

/-- The futures of a list that have completed. -/
def completed (l : List ℕ) : List ℕ := l.filter fun f => (s.futures[f]?).any fun fut => fut.pc.isDone

/-- One future for each instance that was found; the event lag is taken from the clock first. -/
def submit (d : ℕ) (disp : EventDispatch) (now : DateTime) : DispatchSystem :=
  let s := { s with metrics := { s.metrics with eventsDispatched := s.metrics.eventsDispatched + disp.found.length } }
  if disp.found = [] then s.setDispatch d { disp with pc := .returned }
  else if now.aware = false then
    s.setDispatch d { disp with pc := .raised "can't subtract offset-naive and offset-aware datetimes" }
  else
    let refs := List.range' s.futures.length disp.found.length
    let submitted : List StrategyFuture :=
      disp.found.map fun i => { owner := d, target := i, timestamp := disp.event.timestamp }
    { s with
      futures := s.futures ++ submitted
      dispatches := s.dispatches.set d { disp with pc := .opening, futures := refs, unyielded := refs } }

/-- `_fan_out`, for the signals of a future: each goes to every consumer. -/
def fanOut (f : ℕ) (signals : List EnrichedSignal) : List Delivery :=
  signals.flatMap fun signal => (List.range s.consumers).map fun c => ⟨c, f, signal⟩

/-- The signals of a future: enriched, returned and handed to each consumer; a failure of the instance is recorded. -/
def collect (d : ℕ) (disp : EventDispatch) (f i : ℕ) (h : Hosted) (ready : List ℕ) (signals : List StrategySignal)
    (now : DateTime) : DispatchSystem :=
  let enriched := signals.map (h.enrich disp.event.timestamp)
  let h := if h.inst.state = .failed then h.recordFailure now else h
  { s with
    hosted := s.hosted.set i h
    handed := s.handed ++ s.fanOut f enriched
    dispatches := s.dispatches.set d { disp with
      pc := .collecting (ready.filter (· ≠ f))
      unyielded := disp.unyielded.filter (· ≠ f)
      accepted := disp.accepted ++ enriched.map fun signal => (f, signal) } }

/-- A future that `as_completed` gives. -/
def takeFuture (d : ℕ) (disp : EventDispatch) (ready : List ℕ) (f : ℕ) (now : DateTime) : DispatchSystem :=
  match s.futures[f]? with
  | none => s
  | some fut =>
    match fut.pc, s.hosted[fut.target]? with
    | .done (.signals signals), some h => s.collect d disp f fut.target h ready signals now
    | .done (.refused text), some _ =>
      s.setDispatch d { disp with
        pc := .checking f text (.collect (ready.filter (· ≠ f)))
        unyielded := disp.unyielded.filter (· ≠ f) }
    | .done (.illegal text), some _ =>
      s.setDispatch d { disp with
        pc := .checking f text (.collect (ready.filter (· ≠ f)))
        unyielded := disp.unyielded.filter (· ≠ f) }
    | _, _ => s

/-- The loop over `as_completed`: what is ready is given first, and the timeout is only looked at in between. -/
def collectNext (d : ℕ) (disp : EventDispatch) (ready : List ℕ) (choice : Collecting) (now : DateTime) :
    DispatchSystem :=
  match choice with
  | .give f => if f ∈ ready then s.takeFuture d disp ready f now else s
  | .wait =>
    if ready ≠ [] then s
    else if disp.unyielded = [] then s.setDispatch d { disp with pc := .sweeping disp.futures }
    else s.setDispatch d { disp with pc := .collecting (s.completed disp.unyielded) }
  | .timeout =>
    if ready = [] ∧ disp.unyielded ≠ [] ∧ s.hasTimeout then s.setDispatch d { disp with pc := .sweeping disp.futures }
    else s

/-- The target of a future, with the instance. -/
def targetOf (f : ℕ) : Option (StrategyFuture × Hosted) :=
  (s.futures[f]?).bind fun fut => (s.hosted[fut.target]?).map fun h => (fut, h)

/-- A future is looked at after the loop: one that is not done has hit the timeout. -/
def sweepNext (d : ℕ) (disp : EventDispatch) : List ℕ → DispatchSystem
  | [] => s.setDispatch d { disp with pc := .returned }
  | f :: rest =>
    match s.targetOf f with
    | none => s.setDispatch d { disp with pc := .sweeping rest }
    | some (fut, h) =>
      if fut.pc.isDone then s.setDispatch d { disp with pc := .sweeping rest }
      else
        { s with
          hosted := s.hosted.set fut.target (h.expire fut.begun)
          dispatches := s.dispatches.set d { disp with pc := .cancelling f rest } }

/-- The next step of a dispatch. -/
def dispatchNext (d : ℕ) (disp : EventDispatch) (choice : Collecting) (now : DateTime) : DispatchSystem :=
  match disp.pc with
  | .matching i =>
    if i < s.hosted.length then
      s.setDispatch d { disp with
        pc := .matching (i + 1)
        found := if s.matchesAt disp.event i then disp.found ++ [i] else disp.found }
    else s.setDispatch d { disp with pc := .submitting }
  | .submitting => s.submit d disp now
  | .opening => s.setDispatch d { disp with pc := .collecting (s.completed disp.unyielded) }
  | .collecting ready => s.collectNext d disp ready choice now
  | .checking f reason resume =>
    match s.targetOf f with
    | none => s
    | some (_, h) =>
      if h.inst.state.terminal then s.setDispatch d { disp with pc := .recording f resume }
      else s.setDispatch d { disp with pc := .failing f reason resume }
  | .failing f reason resume =>
    match s.targetOf f with
    | none => s
    | some (fut, h) =>
      match h.failNow s.metrics reason with
      | .error e => s.setDispatch d { disp with pc := .raised e.text }
      | .ok (h, m) =>
        { s with
          metrics := m
          hosted := s.hosted.set fut.target h
          dispatches := s.dispatches.set d { disp with pc := .recording f resume } }
  | .recording f resume =>
    match s.targetOf f with
    | none => s
    | some (fut, h) =>
      { s with
        metrics := { s.metrics with eventsDropped := s.metrics.eventsDropped + 1 }
        futures := s.futures.set f { fut with counted := true }
        hosted := s.hosted.set fut.target (h.recordFailure now)
        dispatches := s.dispatches.set d { disp with pc := resume.pc } }
  | .sweeping rest => s.sweepNext d disp rest
  | .cancelling f rest =>
    match s.futures[f]? with
    | none => s
    | some fut =>
      { s with
        futures := s.futures.set f fut.cancel
        dispatches := s.dispatches.set d { disp with pc := .checking f "callback_timeout" (.sweep rest) } }
  | .returned => s
  | .raised _ => s

/-- A worker is free, and the queue has no earlier future. -/
def freeFor (f : ℕ) : Bool :=
  (s.futures.filter fun fut => fut.pc.active).length < s.maxWorkers &&
    (s.futures.take f).all fun fut => match fut.pc with
      | .pending => false
      | _ => true

def step (s : DispatchSystem) : DispatchAction → DispatchSystem
  | .dispatch d choice now =>
    match s.dispatches[d]? with
    | none => s
    | some disp => s.dispatchNext d disp choice now
  | .work f outcome =>
    match s.targetOf f with
    | none => s
    | some (fut, h) =>
      let (fut', h', m) := fut.next (s.freeFor f) h s.metrics outcome
      { s with metrics := m, futures := s.futures.set f fut', hosted := s.hosted.set fut.target h' }
  | .call c outcome now =>
    match s.calls[c]? with
    | none => s
    | some call =>
      match s.hosted[call.target]? with
      | none => s
      | some h =>
        let (call', h', m) := call.next h s.metrics outcome now
        { s with metrics := m, calls := s.calls.set c call', hosted := s.hosted.set call.target h' }

end DispatchSystem

namespace DispatchSystem

/-- Before the first step. -/
structure Initial (s : DispatchSystem) : Prop where
  hosted : ∀ h ∈ s.hosted, h.locked = false ∧ h.raised = false ∧ h.overran = false ∧ h.starved = false
  dispatches : ∀ disp ∈ s.dispatches, ∃ event, disp = { event := event }
  calls : ∀ call ∈ s.calls, call.pc = .start
  futures : s.futures = []
  handed : s.handed = []

end DispatchSystem

/-- A strategy that runs, an event for it and a call of `pause`. -/
def sampleIdentity : StrategyIdentity where
  strategyId := ⟨1⟩
  code := "sma"
  name := "SMA"
  version := "1.0.0"
  configHash := "44136fa3"
  code_nonblank := sma_code_nonblank
  name_nonblank := sma_name_nonblank
  version_nonblank := sma_version_nonblank
  configHash_nonblank := sma_hash_nonblank
  codeHash_nonblank := no_codeHash_nonblank

def sampleNow : DateTime := ⟨2026, 8, 12, 9, 15, 0, 0, some 0⟩

theorem sampleNow_aware : sampleNow.aware = true := rfl

theorem nine_tenths_range : 0 ≤ (⟨false, 9, -1⟩ : Dec).val ∧ (⟨false, 9, -1⟩ : Dec).val ≤ 1 := by decide +kernel

def sampleSystem : DispatchSystem where
  hosted := [{
    inst := { identity := sampleIdentity, allowedInstruments := none, state := .running, initialized := true }
    definition := { identity := sampleIdentity } }]
  dispatches := [{ event := { instrumentId := ⟨7⟩, timestamp := ⟨sampleNow, sampleNow_aware⟩ } }]
  calls := [{ kind := .pause, target := 0 }]
  consumers := 1
  maxWorkers := 4
  hasTimeout := true

theorem initial_sampleSystem : sampleSystem.Initial := by
  refine ⟨?_, ?_, ?_, rfl, rfl⟩
  · simp [sampleSystem]
  · simp [sampleSystem]
  · simp [sampleSystem]

/-! ### What a party does to its instance -/

theorem Hosted.failNow_of_terminal {h : Hosted} (ht : h.inst.state.terminal = true) (m : StrategyMetrics)
    (reason : String) : ∃ e, h.failNow m reason = .error e := by
  unfold Hosted.failNow
  cases hs : h.inst.state.transition .failed with
  | error e => exact ⟨e, rfl⟩
  | ok state => exact absurd hs (StrategyRunState.transition_of_terminal ht _ _)

theorem Hosted.failNow_of_not_terminal {h : Hosted} (ht : h.inst.state.terminal = false) (m : StrategyMetrics)
    (reason : String) :
    h.failNow m reason = .ok ({ h with inst := { h.inst with state := .failed, failReason := some reason } },
      { m with strategiesFailed := m.strategiesFailed + 1 }) := by
  rw [Hosted.failNow, StrategyRunState.transition_failed ht]
  rfl

/-- What time cannot take back. -/
structure Hosted.Later (h h' : Hosted) : Prop where
  terminal : h.inst.state.terminal = true → h'.inst.state.terminal = true
  raised : h.raised = true → h'.raised = true
  overran : h.overran = true → h'.overran = true
  starved : h.starved = true → h'.starved = true

theorem Hosted.Later.refl (h : Hosted) : h.Later h := ⟨id, id, id, id⟩

theorem Hosted.later_recordFailure (h : Hosted) (now : DateTime) : h.Later (h.recordFailure now) := ⟨id, id, id, id⟩

theorem Hosted.later_expire (h : Hosted) (begun : Bool) : h.Later (h.expire begun) := by
  cases begun with
  | true => exact ⟨id, id, fun _ => rfl, id⟩
  | false => exact ⟨id, id, id, fun _ => rfl⟩

/-- A transition that goes through left no terminal state. -/
theorem Hosted.later_of_not_terminal {h h' : Hosted} (ht : h.inst.state.terminal = false)
    (hr : h.raised = true → h'.raised = true) (ho : h'.overran = h.overran) (hs : h'.starved = h.starved) :
    h.Later h' :=
  ⟨fun hterm => absurd (ht.symm.trans hterm) Bool.false_ne_true, hr, fun h => ho ▸ h, fun h => hs ▸ h⟩

/-- The next step of a future: time goes on for its instance, which fails only where the callback has raised. -/
theorem StrategyFuture.next_hosted (fut : StrategyFuture) (free : Bool) (h : Hosted) (m : StrategyMetrics)
    (outcome : CallbackOutcome) :
    h.Later (fut.next free h m outcome).2.1 ∧
      ((fut.next free h m outcome).2.1.inst.state = h.inst.state ∨ ∃ reason, fut.pc = .failing reason) ∧
      (fut.next free h m outcome).2.1.starved = h.starved := by
  obtain ⟨owner, target, timestamp, pc, begun, counted⟩ := fut
  cases pc with
  | pending => unfold next; dsimp only; split_ifs <;> exact ⟨.refl h, .inl rfl, rfl⟩
  | waiting => unfold next; dsimp only; split_ifs <;> exact ⟨⟨id, id, id, id⟩, .inl rfl, rfl⟩
  | entered => unfold next; dsimp only; split_ifs <;> exact ⟨⟨id, id, id, id⟩, .inl rfl, rfl⟩
  | calling before =>
    unfold next
    cases outcome.raises with
    | none => exact ⟨⟨id, id, id, id⟩, .inl rfl, rfl⟩
    | some reason => exact ⟨⟨id, fun _ => rfl, id, id⟩, .inl rfl, rfl⟩
  | raisedIn reason => unfold next; dsimp only; split_ifs <;> exact ⟨⟨id, id, id, id⟩, .inl rfl, rfl⟩
  | failing reason =>
    unfold next
    cases ht : h.inst.state.terminal with
    | true =>
      obtain ⟨e, he⟩ := Hosted.failNow_of_terminal ht m reason
      simp only [he]
      exact ⟨⟨id, id, id, id⟩, .inl trivial, trivial⟩
    | false =>
      simp only [Hosted.failNow_of_not_terminal ht]
      exact ⟨Hosted.later_of_not_terminal ht id rfl rfl, .inr ⟨reason, rfl⟩, trivial⟩
  | accepting before => exact ⟨⟨id, id, id, id⟩, .inl rfl, rfl⟩
  | returning result => exact ⟨.refl h, .inl rfl, rfl⟩
  | cancelled => exact ⟨.refl h, .inl rfl, rfl⟩
  | done result => exact ⟨.refl h, .inl rfl, rfl⟩

/-- A transition of a call: the state moves along the table, or the call raises. -/
theorem LifecycleCall.move_cases (c : LifecycleCall) (h : Hosted) (m : StrategyMetrics) (target : StrategyRunState)
    (pc : ControlPc) (counted : StrategyMetrics → StrategyMetrics) :
    (target ∈ h.inst.state.successors ∧
      c.move h m target pc counted = ({ c with pc := pc }, h.withState target, counted m)) ∨
    (target ∉ h.inst.state.successors ∧ ∃ e, c.move h m target pc counted = ({ c with pc := .raised e }, h, m)) := by
  unfold LifecycleCall.move StrategyRunState.transition
  by_cases hmem : target ∈ h.inst.state.successors
  · exact .inl ⟨hmem, by rw [if_pos hmem]⟩
  · exact .inr ⟨hmem, _, by rw [if_neg hmem]⟩

theorem StrategyRunState.not_terminal_of_mem {s target : StrategyRunState} (h : target ∈ s.successors) :
    s.terminal = false := by
  cases s with
  | stopped => cases h
  | failed => cases h
  | _ => rfl

theorem LifecycleCall.move_hosted (c : LifecycleCall) (h : Hosted) (m : StrategyMetrics) (target : StrategyRunState)
    (pc : ControlPc) (counted : StrategyMetrics → StrategyMetrics) (hne : target ≠ .failed) :
    h.Later (c.move h m target pc counted).2.1 ∧
      ((c.move h m target pc counted).2.1.inst.state = .failed → h.inst.state = .failed) ∧
      (c.move h m target pc counted).2.1.starved = h.starved := by
  obtain ⟨hmem, heq⟩ | ⟨-, e, heq⟩ := c.move_cases h m target pc counted
  · rw [heq]
    exact ⟨Hosted.later_of_not_terminal (StrategyRunState.not_terminal_of_mem hmem) id rfl rfl,
      fun hfailed => absurd hfailed hne, rfl⟩
  · rw [heq]
    exact ⟨.refl h, id, rfl⟩

/-- The next step of a call: time goes on for its instance, which fails only where `on_stop` has raised. -/
theorem LifecycleCall.next_hosted (c : LifecycleCall) (h : Hosted) (m : StrategyMetrics) (outcome : CallbackOutcome)
    (now : DateTime) :
    h.Later (c.next h m outcome now).2.1 ∧
      ((c.next h m outcome now).2.1.inst.state = .failed →
        h.inst.state = .failed ∨ ∃ reason, c.pc = .failing reason) ∧
      (c.next h m outcome now).2.1.starved = h.starved := by
  obtain ⟨kind, target, pc⟩ := c
  have hmove : ∀ {goal pc' counted}, goal ≠ .failed →
      h.Later (LifecycleCall.move ⟨kind, target, pc⟩ h m goal pc' counted).2.1 ∧
        ((LifecycleCall.move ⟨kind, target, pc⟩ h m goal pc' counted).2.1.inst.state = .failed →
          h.inst.state = .failed ∨ ∃ reason, pc = .failing reason) ∧
        (LifecycleCall.move ⟨kind, target, pc⟩ h m goal pc' counted).2.1.starved = h.starved := by
    intro goal pc' counted hne
    obtain ⟨hlater, hf, hstarved⟩ := LifecycleCall.move_hosted ⟨kind, target, pc⟩ h m goal pc' counted hne
    exact ⟨hlater, fun hstate => .inl (hf hstate), hstarved⟩
  cases pc with
  | start => cases kind <;> (unfold next; dsimp only; split_ifs <;> exact ⟨.refl h, .inl, rfl⟩)
  | checked =>
    cases kind with
    | pause => exact hmove (by decide)
    | resume => exact hmove (by decide)
    | stop => exact hmove (by decide)
  | onStop =>
    unfold next
    cases outcome.raises with
    | none => exact ⟨⟨id, id, id, id⟩, .inl, rfl⟩
    | some reason => exact ⟨⟨id, fun _ => rfl, id, id⟩, .inl, rfl⟩
  | raisedIn reason => unfold next; dsimp only; split_ifs <;> exact ⟨.refl h, .inl, rfl⟩
  | failing reason =>
    unfold next
    cases ht : h.inst.state.terminal with
    | true =>
      obtain ⟨e, he⟩ := Hosted.failNow_of_terminal ht m reason
      simp only [he]
      exact ⟨.refl h, .inl, trivial⟩
    | false =>
      simp only [Hosted.failNow_of_not_terminal ht]
      exact ⟨Hosted.later_of_not_terminal ht id rfl rfl, fun _ => .inr ⟨reason, rfl⟩, trivial⟩
  | stopping => exact hmove (by decide)
  | stopped => exact ⟨⟨id, id, id, id⟩, .inl, rfl⟩
  | finished => exact ⟨.refl h, .inl, rfl⟩
  | raised e => exact ⟨.refl h, .inl, rfl⟩

theorem LifecycleCall.target_next (c : LifecycleCall) (h : Hosted) (m : StrategyMetrics) (outcome : CallbackOutcome)
    (now : DateTime) : (c.next h m outcome now).1.target = c.target := by
  obtain ⟨kind, target, pc⟩ := c
  have hmove : ∀ {goal pc' counted}, (LifecycleCall.move ⟨kind, target, pc⟩ h m goal pc' counted).1.target = target := by
    intro goal pc' counted
    unfold move
    cases h.inst.state.transition goal <;> rfl
  cases pc with
  | start => cases kind <;> (unfold next; dsimp only; split_ifs <;> rfl)
  | checked => cases kind <;> exact hmove
  | onStop => unfold next; cases outcome.raises <;> rfl
  | raisedIn reason => unfold next; dsimp only; split_ifs <;> rfl
  | failing reason => unfold next; dsimp only; cases h.failNow m reason <;> rfl
  | stopping => exact hmove
  | stopped => rfl
  | finished => rfl
  | raised e => rfl

/-! ### Time goes on -/

structure StrategyFuture.Later (fut fut' : StrategyFuture) : Prop where
  owner : fut'.owner = fut.owner
  target : fut'.target = fut.target
  done : fut.pc.isDone = true → fut'.pc = fut.pc
  counted : fut.counted = true → fut'.counted = true

theorem StrategyFuture.Later.refl (fut : StrategyFuture) : fut.Later fut := ⟨rfl, rfl, fun _ => rfl, id⟩

/-- A future that is not done takes its next step. -/
theorem StrategyFuture.later_of_not_done {fut fut' : StrategyFuture} (hdone : fut.pc.isDone = false)
    (howner : fut'.owner = fut.owner) (htarget : fut'.target = fut.target)
    (hcounted : fut.counted = true → fut'.counted = true) : fut.Later fut' :=
  ⟨howner, htarget, fun h => absurd (hdone.symm.trans h) Bool.false_ne_true, hcounted⟩

theorem StrategyFuture.later_next (fut : StrategyFuture) (free : Bool) (h : Hosted) (m : StrategyMetrics)
    (outcome : CallbackOutcome) : fut.Later (fut.next free h m outcome).1 := by
  obtain ⟨owner, target, timestamp, pc, begun, counted⟩ := fut
  cases pc with
  | pending => unfold next; dsimp only; split_ifs <;> exact later_of_not_done rfl rfl rfl id
  | waiting => unfold next; dsimp only; split_ifs <;> exact later_of_not_done rfl rfl rfl id
  | entered => unfold next; dsimp only; split_ifs <;> exact later_of_not_done rfl rfl rfl id
  | calling before => unfold next; cases outcome.raises <;> exact later_of_not_done rfl rfl rfl id
  | raisedIn reason => unfold next; dsimp only; split_ifs <;> exact later_of_not_done rfl rfl rfl id
  | failing reason =>
    unfold next
    dsimp only
    cases h.failNow m reason with
    | error e => exact later_of_not_done rfl rfl rfl id
    | ok r => exact later_of_not_done rfl rfl rfl fun _ => rfl
  | accepting before => exact later_of_not_done rfl rfl rfl id
  | returning result => exact later_of_not_done rfl rfl rfl id
  | cancelled => exact .refl _
  | done result => exact .refl _

theorem StrategyFuture.later_cancel (fut : StrategyFuture) : fut.Later fut.cancel := by
  obtain ⟨owner, target, timestamp, pc, begun, counted⟩ := fut
  cases pc with
  | pending => exact later_of_not_done rfl rfl rfl id
  | _ => exact .refl _

theorem StrategyFuture.counted_cancel (fut : StrategyFuture) : fut.cancel.counted = fut.counted := by
  unfold StrategyFuture.cancel
  split <;> rfl

namespace DispatchSystem

structure Later (s s' : DispatchSystem) : Prop where
  hosted : ∀ (i : ℕ) (h : Hosted), s.hosted[i]? = some h → ∃ h', s'.hosted[i]? = some h' ∧ h.Later h'
  futures : ∀ (f : ℕ) (fut : StrategyFuture), s.futures[f]? = some fut →
    ∃ fut', s'.futures[f]? = some fut' ∧ fut.Later fut'

/-- A step that leaves the instances and the futures. -/
theorem later_of_eq {s s' : DispatchSystem} (hh : s'.hosted = s.hosted) (hf : s'.futures = s.futures) : s.Later s' :=
  ⟨fun _ h hget => ⟨h, hh ▸ hget, .refl h⟩, fun _ fut hget => ⟨fut, hf ▸ hget, .refl fut⟩⟩

/-- A step that leaves the futures and all instances but one. -/
theorem later_of_set {s s' : DispatchSystem} {i : ℕ} {h h' : Hosted} (hget : s.hosted[i]? = some h) (hlater : h.Later h')
    (hh : s'.hosted = s.hosted.set i h') (hf : s'.futures = s.futures) : s.Later s' :=
  ⟨hh ▸ Pool.exists_set Hosted.Later.refl hget hlater, fun _ fut hget => ⟨fut, hf ▸ hget, .refl fut⟩⟩

variable {s : DispatchSystem}

theorem targetOf_eq_some {f : ℕ} {fut : StrategyFuture} {h : Hosted} :
    s.targetOf f = some (fut, h) ↔ s.futures[f]? = some fut ∧ s.hosted[fut.target]? = some h := by
  simp only [targetOf, Option.bind_eq_some_iff, Option.map_eq_some_iff, Prod.mk.injEq]
  constructor
  · rintro ⟨fut', hfut, h', hh, rfl, rfl⟩
    exact ⟨hfut, hh⟩
  · rintro ⟨hfut, hh⟩
    exact ⟨fut, hfut, h, hh, rfl, rfl⟩

end DispatchSystem

/-! ### The steps of a dispatch -/

/-- All that the next step of a dispatch can do. -/
inductive DispatchStep (s : DispatchSystem) (d : ℕ) (disp : EventDispatch) (now : DateTime) : DispatchSystem → Prop
  | stays : DispatchStep s d disp now s
  | looks {i : ℕ} (hpc : disp.pc = .matching i) (hi : i < s.hosted.length) :
      DispatchStep s d disp now (s.setDispatch d { disp with
        pc := .matching (i + 1)
        found := if s.matchesAt disp.event i then disp.found ++ [i] else disp.found })
  | looked {i : ℕ} (hpc : disp.pc = .matching i) :
      DispatchStep s d disp now (s.setDispatch d { disp with pc := .submitting })
  | nothing (hpc : disp.pc = .submitting) (hfound : disp.found = []) (m : StrategyMetrics) :
      DispatchStep s d disp now
        { s with metrics := m, dispatches := s.dispatches.set d { disp with pc := .returned } }
  | naive (hpc : disp.pc = .submitting) (hfound : disp.found ≠ []) (haware : now.aware = false) (m : StrategyMetrics)
      (text : String) :
      DispatchStep s d disp now
        { s with metrics := m, dispatches := s.dispatches.set d { disp with pc := .raised text } }
  | submits (hpc : disp.pc = .submitting) (m : StrategyMetrics) :
      DispatchStep s d disp now
        { s with
          metrics := m
          futures := s.futures ++ disp.found.map fun i => { owner := d, target := i, timestamp := disp.event.timestamp }
          dispatches := s.dispatches.set d { disp with
            pc := .opening
            futures := List.range' s.futures.length disp.found.length
            unyielded := List.range' s.futures.length disp.found.length } }
  | waits (hpc : disp.pc = .opening ∨ ∃ ready, disp.pc = .collecting ready) :
      DispatchStep s d disp now (s.setDispatch d { disp with pc := .collecting (s.completed disp.unyielded) })
  | collects {ready : List ℕ} {f : ℕ} {fut : StrategyFuture} {h : Hosted} {signals : List StrategySignal}
      (hpc : disp.pc = .collecting ready) (hf : f ∈ ready) (hfut : s.futures[f]? = some fut)
      (hdone : fut.pc = .done (.signals signals)) (hh : s.hosted[fut.target]? = some h) :
      DispatchStep s d disp now (s.collect d disp f fut.target h ready signals now)
  | takes {ready : List ℕ} {f : ℕ} {fut : StrategyFuture} {result : FutureResult} {text : String}
      (hpc : disp.pc = .collecting ready) (hf : f ∈ ready) (hfut : s.futures[f]? = some fut)
      (hdone : fut.pc = .done result) (hresult : result = .refused text ∨ result = .illegal text) :
      DispatchStep s d disp now (s.setDispatch d { disp with
        pc := .checking f text (.collect (ready.filter (· ≠ f)))
        unyielded := disp.unyielded.filter (· ≠ f) })
  | leaves {ready : List ℕ} (hpc : disp.pc = .collecting ready) :
      DispatchStep s d disp now (s.setDispatch d { disp with pc := .sweeping disp.futures })
  | excuses {f : ℕ} {reason : String} {resume : Resume} {fut : StrategyFuture} {h : Hosted}
      (hpc : disp.pc = .checking f reason resume) (hfut : s.futures[f]? = some fut)
      (hh : s.hosted[fut.target]? = some h) (hterminal : h.inst.state.terminal = true) :
      DispatchStep s d disp now (s.setDispatch d { disp with pc := .recording f resume })
  | accuses {f : ℕ} {reason : String} {resume : Resume} {fut : StrategyFuture} {h : Hosted}
      (hpc : disp.pc = .checking f reason resume) (hfut : s.futures[f]? = some fut)
      (hh : s.hosted[fut.target]? = some h) (hterminal : h.inst.state.terminal = false) :
      DispatchStep s d disp now (s.setDispatch d { disp with pc := .failing f reason resume })
  | raises {f : ℕ} {reason : String} {resume : Resume} {fut : StrategyFuture} {h : Hosted}
      (hpc : disp.pc = .failing f reason resume) (hfut : s.futures[f]? = some fut)
      (hh : s.hosted[fut.target]? = some h) (hterminal : h.inst.state.terminal = true) (text : String) :
      DispatchStep s d disp now (s.setDispatch d { disp with pc := .raised text })
  | fails {f : ℕ} {reason : String} {resume : Resume} {fut : StrategyFuture} {h : Hosted}
      (hpc : disp.pc = .failing f reason resume) (hfut : s.futures[f]? = some fut)
      (hh : s.hosted[fut.target]? = some h) (hterminal : h.inst.state.terminal = false) (m : StrategyMetrics) :
      DispatchStep s d disp now
        { s with
          metrics := m
          hosted := s.hosted.set fut.target
            { h with inst := { h.inst with state := .failed, failReason := some reason } }
          dispatches := s.dispatches.set d { disp with pc := .recording f resume } }
  | records {f : ℕ} {resume : Resume} {fut : StrategyFuture} {h : Hosted} (hpc : disp.pc = .recording f resume)
      (hfut : s.futures[f]? = some fut) (hh : s.hosted[fut.target]? = some h) (m : StrategyMetrics) :
      DispatchStep s d disp now
        { s with
          metrics := m
          futures := s.futures.set f { fut with counted := true }
          hosted := s.hosted.set fut.target (h.recordFailure now)
          dispatches := s.dispatches.set d { disp with pc := resume.pc } }
  | returns (hpc : disp.pc = .sweeping []) :
      DispatchStep s d disp now (s.setDispatch d { disp with pc := .returned })
  | skips {f : ℕ} {rest : List ℕ} (hpc : disp.pc = .sweeping (f :: rest)) (hnone : s.targetOf f = none) :
      DispatchStep s d disp now (s.setDispatch d { disp with pc := .sweeping rest })
  | passes {f : ℕ} {rest : List ℕ} {fut : StrategyFuture} (hpc : disp.pc = .sweeping (f :: rest))
      (hfut : s.futures[f]? = some fut) (hdone : fut.pc.isDone = true) :
      DispatchStep s d disp now (s.setDispatch d { disp with pc := .sweeping rest })
  | expires {f : ℕ} {rest : List ℕ} {fut : StrategyFuture} {h : Hosted} (hpc : disp.pc = .sweeping (f :: rest))
      (hfut : s.futures[f]? = some fut) (hh : s.hosted[fut.target]? = some h) (hdone : fut.pc.isDone = false) :
      DispatchStep s d disp now
        { s with
          hosted := s.hosted.set fut.target (h.expire fut.begun)
          dispatches := s.dispatches.set d { disp with pc := .cancelling f rest } }
  | cancels {f : ℕ} {rest : List ℕ} {fut : StrategyFuture} (hpc : disp.pc = .cancelling f rest)
      (hfut : s.futures[f]? = some fut) :
      DispatchStep s d disp now
        { s with
          futures := s.futures.set f fut.cancel
          dispatches := s.dispatches.set d { disp with pc := .checking f "callback_timeout" (.sweep rest) } }

namespace DispatchSystem

variable {s : DispatchSystem} {d : ℕ} {disp : EventDispatch} {now : DateTime}

theorem submit_step (hpc : disp.pc = .submitting) : DispatchStep s d disp now (s.submit d disp now) := by
  unfold submit
  by_cases hfound : disp.found = []
  · rw [if_pos hfound]
    exact .nothing hpc hfound _
  · rw [if_neg hfound]
    cases haware : now.aware with
    | false => rw [if_pos rfl]; exact .naive hpc hfound haware _ _
    | true => rw [if_neg Bool.noConfusion]; exact .submits hpc _

theorem takeFuture_step {ready : List ℕ} {f : ℕ} (hpc : disp.pc = .collecting ready) (hf : f ∈ ready) :
    DispatchStep s d disp now (s.takeFuture d disp ready f now) := by
  unfold takeFuture
  split
  · exact .stays
  · next fut hfut =>
    split
    · next hdone hh => exact .collects hpc hf hfut hdone hh
    · next hdone _ => exact .takes hpc hf hfut hdone (.inl rfl)
    · next hdone _ => exact .takes hpc hf hfut hdone (.inr rfl)
    · exact .stays

theorem collectNext_step {ready : List ℕ} (hpc : disp.pc = .collecting ready) (choice : Collecting) :
    DispatchStep s d disp now (s.collectNext d disp ready choice now) := by
  cases choice with
  | give f =>
    unfold collectNext
    dsimp only
    split_ifs with hf
    · exact takeFuture_step hpc hf
    · exact .stays
  | wait =>
    unfold collectNext
    dsimp only
    split_ifs
    · exact .stays
    · exact .leaves hpc
    · exact .waits (.inr ⟨ready, hpc⟩)
  | timeout =>
    unfold collectNext
    dsimp only
    split_ifs
    · exact .leaves hpc
    · exact .stays

theorem sweepNext_step {left : List ℕ} (hpc : disp.pc = .sweeping left) :
    DispatchStep s d disp now (s.sweepNext d disp left) := by
  cases left with
  | nil => exact .returns hpc
  | cons f rest =>
    unfold sweepNext
    dsimp only
    split
    · next hnone => exact .skips hpc hnone
    · next fut h ht =>
      obtain ⟨hfut, hh⟩ := targetOf_eq_some.mp ht
      split
      · next hdone => exact .passes hpc hfut hdone
      · next hdone => exact .expires hpc hfut hh (Bool.eq_false_iff.mpr hdone)

theorem dispatchNext_step (s : DispatchSystem) (d : ℕ) (disp : EventDispatch) (choice : Collecting) (now : DateTime) :
    DispatchStep s d disp now (s.dispatchNext d disp choice now) := by
  unfold dispatchNext
  split
  · next i hpc =>
    split
    · next hi => exact .looks hpc hi
    · exact .looked hpc
  · next hpc => exact submit_step hpc
  · next hpc => exact .waits (.inl hpc)
  · next ready hpc => exact collectNext_step hpc choice
  · next f reason resume hpc =>
    split
    · exact .stays
    · next fut h ht =>
      obtain ⟨hfut, hh⟩ := targetOf_eq_some.mp ht
      split
      · next hterminal => exact .excuses hpc hfut hh hterminal
      · next hterminal => exact .accuses hpc hfut hh (Bool.eq_false_iff.mpr hterminal)
  · next f reason resume hpc =>
    split
    · exact .stays
    · next fut h ht =>
      obtain ⟨hfut, hh⟩ := targetOf_eq_some.mp ht
      cases hterminal : h.inst.state.terminal with
      | true =>
        obtain ⟨e, he⟩ := Hosted.failNow_of_terminal hterminal s.metrics reason
        simp only [he]
        exact .raises hpc hfut hh hterminal _
      | false =>
        simp only [Hosted.failNow_of_not_terminal hterminal]
        exact .fails hpc hfut hh hterminal _
  · next f resume hpc =>
    split
    · exact .stays
    · next fut h ht =>
      obtain ⟨hfut, hh⟩ := targetOf_eq_some.mp ht
      exact .records hpc hfut hh _
  · next rest hpc => exact sweepNext_step hpc
  · next f rest hpc =>
    split
    · exact .stays
    · next fut hfut => exact .cancels hpc hfut
  · exact .stays
  · exact .stays

theorem calls_of_dispatchStep {s' : DispatchSystem} (h : DispatchStep s d disp now s') : s'.calls = s.calls := by
  cases h <;> rfl

/-- Time goes on in a step of a dispatch. -/
theorem later_of_dispatchStep {s' : DispatchSystem} (h : DispatchStep s d disp now s') : s.Later s' := by
  cases h with
  | submits =>
    refine ⟨fun i h hget => ⟨h, hget, .refl h⟩, fun f fut hget => ⟨fut, ?_, .refl fut⟩⟩
    exact (List.getElem?_append_left (List.getElem?_eq_some_iff.mp hget).1).trans hget
  | collects hpc hf hfut hdone hh =>
    refine later_of_set hh ?_ rfl rfl
    split_ifs
    · exact Hosted.later_recordFailure _ now
    · exact .refl _
  | fails hpc hfut hh hterminal =>
    refine later_of_set hh ?_ rfl rfl
    exact Hosted.later_of_not_terminal hterminal id rfl rfl
  | records hpc hfut hh =>
    exact ⟨Pool.exists_set Hosted.Later.refl hh (Hosted.later_recordFailure _ now),
      Pool.exists_set StrategyFuture.Later.refl hfut ⟨rfl, rfl, fun _ => rfl, fun _ => rfl⟩⟩
  | expires hpc hfut hh => exact later_of_set hh (Hosted.later_expire _ _) rfl rfl
  | cancels hpc hfut =>
    exact ⟨fun _ h hget => ⟨h, hget, .refl h⟩,
      Pool.exists_set StrategyFuture.Later.refl hfut (StrategyFuture.later_cancel _)⟩
  | _ => exact later_of_eq rfl rfl

/-- The step of a worker. -/
theorem step_work {f : ℕ} {fut : StrategyFuture} {h : Hosted} (ht : s.targetOf f = some (fut, h))
    (outcome : CallbackOutcome) :
    s.step (.work f outcome) = { s with
      metrics := (fut.next (s.freeFor f) h s.metrics outcome).2.2
      futures := s.futures.set f (fut.next (s.freeFor f) h s.metrics outcome).1
      hosted := s.hosted.set fut.target (fut.next (s.freeFor f) h s.metrics outcome).2.1 } := by
  simp only [step, ht]

/-- The step of a call. -/
theorem step_call {c : ℕ} {call : LifecycleCall} {h : Hosted} (hc : s.calls[c]? = some call)
    (hh : s.hosted[call.target]? = some h) (outcome : CallbackOutcome) :
    s.step (.call c outcome now) = { s with
      metrics := (call.next h s.metrics outcome now).2.2
      calls := s.calls.set c (call.next h s.metrics outcome now).1
      hosted := s.hosted.set call.target (call.next h s.metrics outcome now).2.1 } := by
  simp only [step, hc, hh]

/-- **What a step is**: nothing, a step of a dispatch, of a worker or of a call. -/
theorem step_cases (s : DispatchSystem) (a : DispatchAction) :
    s.step a = s ∨
    (∃ d choice now disp, a = .dispatch d choice now ∧ s.dispatches[d]? = some disp ∧
      DispatchStep s d disp now (s.step a)) ∨
    (∃ f outcome fut h, a = .work f outcome ∧ s.futures[f]? = some fut ∧ s.hosted[fut.target]? = some h ∧
      s.step a = { s with
        metrics := (fut.next (s.freeFor f) h s.metrics outcome).2.2
        futures := s.futures.set f (fut.next (s.freeFor f) h s.metrics outcome).1
        hosted := s.hosted.set fut.target (fut.next (s.freeFor f) h s.metrics outcome).2.1 }) ∨
    (∃ c outcome now call h, a = .call c outcome now ∧ s.calls[c]? = some call ∧ s.hosted[call.target]? = some h ∧
      s.step a = { s with
        metrics := (call.next h s.metrics outcome now).2.2
        calls := s.calls.set c (call.next h s.metrics outcome now).1
        hosted := s.hosted.set call.target (call.next h s.metrics outcome now).2.1 }) := by
  cases a with
  | dispatch d choice now =>
    cases hdisp : s.dispatches[d]? with
    | none => exact .inl (by simp only [step, hdisp])
    | some disp =>
      refine .inr (.inl ⟨d, choice, now, disp, rfl, hdisp, ?_⟩)
      simp only [step, hdisp]
      exact dispatchNext_step s d disp choice now
  | work f outcome =>
    cases ht : s.targetOf f with
    | none => exact .inl (by simp only [step, ht])
    | some p =>
      obtain ⟨hfut, hh⟩ := targetOf_eq_some.mp ht
      exact .inr (.inr (.inl ⟨f, outcome, p.1, p.2, rfl, hfut, hh, step_work ht outcome⟩))
  | call c outcome now =>
    cases hc : s.calls[c]? with
    | none => exact .inl (by simp only [step, hc])
    | some call =>
      cases hh : s.hosted[call.target]? with
      | none => exact .inl (by simp only [step, hc, hh])
      | some h => exact .inr (.inr (.inr ⟨c, outcome, now, call, h, rfl, hc, hh, step_call hc hh outcome⟩))

theorem later_step (s : DispatchSystem) (a : DispatchAction) : s.Later (s.step a) := by
  obtain heq | ⟨d, choice, now, disp, -, -, hstep⟩ | ⟨f, outcome, fut, h, -, hfut, hh, heq⟩ |
    ⟨c, outcome, now, call, h, -, hc, hh, heq⟩ := s.step_cases a
  · rw [heq]
    exact later_of_eq rfl rfl
  · exact later_of_dispatchStep hstep
  · rw [heq]
    exact ⟨Pool.exists_set Hosted.Later.refl hh (fut.next_hosted _ h _ outcome).1,
      Pool.exists_set StrategyFuture.Later.refl hfut (fut.later_next _ h _ outcome)⟩
  · rw [heq]
    exact later_of_set hh (call.next_hosted h _ outcome now).1 rfl rfl

end DispatchSystem

end AlphaAlgo.Strategy
