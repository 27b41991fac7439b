import Mathlib.Tactic
import AlphaAlgo.Lib.Pool

/-!
# Connection — the connection of the market-data service and its watchdog

The service runs on one event loop: what stands between two awaits is one step.  Its owner makes one call at a time
(`start`, `stop`); each `start` leaves a task that runs the monitor, which looks at the heartbeat and reconnects.  A
cancelled task ends at its next step.  A call of the provider may raise and leave a connection behind.

* `Kept`: at most the task that the service holds is alive, and none while the service closes the connection.
* `stopped_stays_closed`: after a `stop` no task connects again.
* `connects_le`: one call of `connect` for each `start`, and for each reconnect no more than the configuration has attempts.
* `failed_stays_failed`: after a reconnect that failed the watchdog makes no other.
-/

namespace AlphaAlgo.Market

open Runs

/-! ### The service -/

inductive ConnectionState where
  | disconnected
  | connecting
  | connected
  | reconnecting
  | failed
  | closed
  deriving DecidableEq, Repr

/-- The configuration of the connection manager; the durations in microseconds and seconds. -/
structure ConnectionConfig where
  symbols : List String := []
  reconnectMaxAttempts : ℤ := 10
  reconnectBaseDelay : ℚ := 1 / 2
  reconnectMaxDelay : ℚ := 30
  heartbeatTimeout : ℤ := 45000000

/-- `max(1, reconnect_max_attempts)`. -/
def ConnectionConfig.maxAttempts (cfg : ConnectionConfig) : ℕ := (max 1 cfg.reconnectMaxAttempts).toNat

/-- `backoff_delay`. -/
def backoffDelay (attempt : ℕ) (base maxDelay : ℚ) : Except String ℚ :=
  if attempt < 1 then .error "attempt must be >= 1"
  else if base ≤ 0 then .error "base must be > 0"
  else if maxDelay < base then .error "max_delay must be >= base"
  else .ok (min (base * 2 ^ (attempt - 1)) maxDelay)

/-- The counters of the connection in `MarketDataMetrics`. -/
structure ConnectionMetrics where
  connected : ℕ := 0
  disconnected : ℕ := 0
  connectFailures : ℕ := 0
  reconnects : ℕ := 0
  reconnectFailures : ℕ := 0
  heartbeatFailures : ℕ := 0
  deriving DecidableEq, Repr

/-- The provider: whether it holds a connection, and how often its `connect` was called. -/
structure MarketDataProvider where
  up : Bool := false
  connects : ℕ := 0
  deriving DecidableEq, Repr

/-- Where a monitor task stands: what it waits for. -/
inductive MonitorPoint where
  | created
  | sleeping
  | tearingDown
  | connecting (attempt : ℕ)
  | backingOff (attempt : ℕ)
  | ended
  deriving DecidableEq, Repr

structure Monitor where
  point : MonitorPoint := .created
  cancelled : Bool := false
  deriving DecidableEq, Repr

/-- Where the owner's call stands. -/
inductive OwnerPoint where
  | idle
  | connecting
  | subscribing
  | gathering
  | closing
  deriving DecidableEq, Repr

/-- `monitors` are the tasks that were ever made, `monitorTask` the one that the service holds; instants are in
microseconds. -/
structure Service where
  state : ConnectionState := .disconnected
  lastActivity : Option ℤ := none
  monitoring : Bool := false
  metrics : ConnectionMetrics := {}
  provider : MarketDataProvider := {}
  monitors : List Monitor := []
  monitorTask : Option ℕ := none
  owner : OwnerPoint := .idle
  deriving DecidableEq

/-- How a call of the provider ends: whether it returns, and whether a call that raises leaves a connection. -/
structure ProviderOutcome where
  returns : Bool
  left : Bool := false
  deriving DecidableEq, Repr

inductive ServiceAction where
  | start
  | connectEnds (outcome : ProviderOutcome) (now : ℤ)
  | subscribeEnds (returns : Bool)
  | stop
  | gatherEnds
  | closeEnds (outcome : ProviderOutcome)
  | monitor (i : ℕ) (outcome : ProviderOutcome) (now : ℤ)
  | event (now : ℤ)
  | lost
  deriving DecidableEq

/-- `HeartbeatMonitor.is_alive`. -/
def Service.isAlive (cfg : ConnectionConfig) (s : Service) (now : ℤ) : Bool :=
  match s.lastActivity with
  | none => true
  | some last => now - last ≤ cfg.heartbeatTimeout

/-! ### The provider -/

/-- A `connect` begins. -/
def MarketDataProvider.call (p : MarketDataProvider) : MarketDataProvider := { p with connects := p.connects + 1 }

def MarketDataProvider.connected (p : MarketDataProvider) (outcome : ProviderOutcome) : MarketDataProvider :=
  { p with up := p.up || outcome.returns || outcome.left }

def MarketDataProvider.disconnected (p : MarketDataProvider) (outcome : ProviderOutcome) : MarketDataProvider :=
  { p with up := p.up && !outcome.returns }

/-! ### The monitor -/

/-- The loop test of `run_monitor`. -/
def loopPoint (s : Service) : MonitorPoint := if s.monitoring then .sleeping else .ended

/-- A step of a monitor that is not cancelled: what the service becomes and where the task then stands. -/
def monitorNext (cfg : ConnectionConfig) (s : Service) (outcome : ProviderOutcome) (now : ℤ) :
    MonitorPoint → Service × MonitorPoint
  | .created => ({ s with monitoring := true }, .sleeping)
  | .sleeping =>
    if s.state = .connected ∧ s.isAlive cfg now = false then
      ({ s with
        state := .reconnecting
        metrics := { s.metrics with
          heartbeatFailures := s.metrics.heartbeatFailures + 1
          reconnects := s.metrics.reconnects + 1 } }, .tearingDown)
    else (s, loopPoint s)
  | .tearingDown => ({ s with provider := (s.provider.disconnected outcome).call }, .connecting 1)
  | .connecting attempt =>
    if outcome.returns then
      ({ s with
        state := .connected
        provider := s.provider.connected outcome
        lastActivity := some now }, loopPoint s)
    else if attempt < cfg.maxAttempts then
      match backoffDelay attempt cfg.reconnectBaseDelay cfg.reconnectMaxDelay with
      -- the exception ends the task
      | .error _ => ({ s with provider := s.provider.connected outcome }, .ended)
      | .ok _ => ({ s with provider := s.provider.connected outcome }, .backingOff attempt)
    else
      ({ s with
        state := .failed
        provider := s.provider.connected outcome
        metrics := { s.metrics with reconnectFailures := s.metrics.reconnectFailures + 1 } }, loopPoint s)
  | .backingOff attempt => ({ s with provider := s.provider.call }, .connecting (attempt + 1))
  | .ended => (s, .ended)

/-- A cancelled task ends; a `connect` or `disconnect` that it waited for may have done its work. -/
def monitorCancelled (s : Service) (outcome : ProviderOutcome) : MonitorPoint → Service
  | .tearingDown => { s with provider := s.provider.disconnected outcome }
  | .connecting _ => { s with provider := s.provider.connected outcome }
  | _ => s

def monitorStep (cfg : ConnectionConfig) (s : Service) (i : ℕ) (m : Monitor) (outcome : ProviderOutcome)
    (now : ℤ) : Service :=
  if m.cancelled then
    { monitorCancelled s outcome m.point with monitors := s.monitors.set i { m with point := .ended } }
  else
    { (monitorNext cfg s outcome now m.point).1 with
      monitors := s.monitors.set i { m with point := (monitorNext cfg s outcome now m.point).2 } }

/-! ### The owner -/

/-- `start` after the subscription: the monitor task is made. -/
def Service.withTask (s : Service) : Service :=
  { s with monitors := s.monitors ++ [{}], monitorTask := some s.monitors.length, owner := .idle }

/-- `stop` up to its first await: the monitor's flag falls and the task that the service holds is cancelled. -/
def Service.beginStop (s : Service) : Service :=
  match s.monitorTask with
  | none => { s with monitoring := false, owner := .closing }
  | some i =>
    { s with
      monitoring := false
      monitors := s.monitors.modify i fun m => { m with cancelled := true }
      owner := .gathering }

/-- The task that the service holds has ended. -/
def Service.taskEnded (s : Service) : Bool :=
  match s.monitorTask with
  | none => true
  | some i => (s.monitors[i]?.map Monitor.point).getD .ended = .ended

/-- A step of the service; an action whose call is not waited for does nothing. -/
def serviceStep (cfg : ConnectionConfig) (s : Service) : ServiceAction → Service
  | .start =>
    if s.owner = .idle then
      { s with state := .connecting, provider := s.provider.call, owner := .connecting }
    else s
  | .connectEnds outcome now =>
    if s.owner = .connecting then
      if outcome.returns then
        let s' : Service := { s with
          state := .connected
          provider := s.provider.connected outcome
          metrics := { s.metrics with connected := s.metrics.connected + 1 }
          lastActivity := some now }
        if cfg.symbols = [] then s'.withTask else { s' with owner := .subscribing }
      else
        { s with
          state := .failed
          provider := s.provider.connected outcome
          metrics := { s.metrics with connectFailures := s.metrics.connectFailures + 1 }
          owner := .idle }
    else s
  | .subscribeEnds returns =>
    if s.owner = .subscribing then if returns then s.withTask else { s with owner := .idle } else s
  | .stop => if s.owner = .idle then s.beginStop else s
  | .gatherEnds => if s.owner = .gathering ∧ s.taskEnded then { s with owner := .closing } else s
  | .closeEnds outcome =>
    if s.owner = .closing then
      if outcome.returns then
        { s with
          state := .closed
          provider := s.provider.disconnected outcome
          metrics := { s.metrics with disconnected := s.metrics.disconnected + 1 }
          owner := .idle }
      else { s with provider := s.provider.disconnected outcome, owner := .idle }
    else s
  | .monitor i outcome now =>
    match s.monitors[i]? with
    | none => s
    | some m => monitorStep cfg s i m outcome now
  | .event now => { s with lastActivity := some now }
  | .lost => { s with provider := { s.provider with up := false } }


/-- A run of the service from its construction. -/
def serviceRun (cfg : ConnectionConfig) (l : List ServiceAction) : Service := run (serviceStep cfg) {} l

/-! ### What holds in every state -/

/-- A monitor within a reconnect. -/
def MonitorPoint.busy : MonitorPoint → Bool
  | .created | .sleeping | .ended => false
  | .tearingDown | .connecting _ | .backingOff _ => true

/-- No task is alive. -/
def Service.Quiet (s : Service) : Prop := ∀ m ∈ s.monitors, m.point = .ended

instance (s : Service) : Decidable s.Quiet := inferInstanceAs (Decidable (∀ m ∈ s.monitors, m.point = .ended))

/-- `start` is called only when the tasks of the last one have ended. -/
def Orderly (s : Service) (a : ServiceAction) : Prop := a = .start → s.Quiet

instance (s : Service) (a : ServiceAction) : Decidable (Orderly s a) :=
  inferInstanceAs (Decidable (a = .start → s.Quiet))

/-- The invariant of orderly runs. -/
structure Service.Kept (s : Service) : Prop where
  /-- Only the task that the service holds is alive. -/
  alone : ∀ (i : ℕ) (m : Monitor), s.monitors[i]? = some m → m.point ≠ .ended → s.monitorTask = some i
  /-- A reconnect shows in the state. -/
  busy : ∀ m ∈ s.monitors, m.point.busy = true → s.state = .reconnecting
  /-- While `start` waits no task is alive. -/
  connecting : s.owner = .connecting → s.Quiet ∧ s.state = .connecting
  subscribing : s.owner = .subscribing → s.Quiet ∧ s.state = .connected
  /-- `stop` closes the connection when no task is alive. -/
  closing : s.owner = .closing → s.Quiet

section Steps

variable {cfg : ConnectionConfig} {s : Service} {outcome : ProviderOutcome} {now : ℤ}

theorem kept_initial : Service.Kept {} := by
  constructor <;> simp [Service.Quiet]

/-- A step of a monitor leaves the tasks and the owner. -/
theorem monitorNext_frame (cfg : ConnectionConfig) (s : Service) (outcome : ProviderOutcome) (now : ℤ)
    (p : MonitorPoint) :
    (monitorNext cfg s outcome now p).1.monitors = s.monitors ∧
      (monitorNext cfg s outcome now p).1.monitorTask = s.monitorTask ∧
      (monitorNext cfg s outcome now p).1.owner = s.owner := by
  unfold monitorNext
  split <;> (try split_ifs) <;> (try split) <;> exact ⟨rfl, rfl, rfl⟩

/-- A monitor that is within a reconnect after its step shows it in the state. -/
theorem monitorNext_busy {p : MonitorPoint} (h : p.busy = true → s.state = .reconnecting)
    (hbusy : (monitorNext cfg s outcome now p).2.busy = true) :
    (monitorNext cfg s outcome now p).1.state = .reconnecting := by
  have hloop : (loopPoint s).busy = false := by
    unfold loopPoint
    split_ifs <;> rfl
  unfold monitorNext at hbusy ⊢
  split at hbusy
  · simp [MonitorPoint.busy] at hbusy
  · split_ifs at hbusy ⊢
    · rfl
    · simp [hloop] at hbusy
  · exact h rfl
  · split_ifs at hbusy ⊢
    · simp [hloop] at hbusy
    · split at hbusy
      · simp [MonitorPoint.busy] at hbusy
      · exact h rfl
    · simp [hloop] at hbusy
  · exact h rfl
  · simp [MonitorPoint.busy] at hbusy

theorem monitorCancelled_frame (s : Service) (outcome : ProviderOutcome) (p : MonitorPoint) :
    (monitorCancelled s outcome p).monitors = s.monitors ∧ (monitorCancelled s outcome p).monitorTask = s.monitorTask ∧
      (monitorCancelled s outcome p).owner = s.owner ∧ (monitorCancelled s outcome p).state = s.state := by
  unfold monitorCancelled
  split <;> exact ⟨rfl, rfl, rfl, rfl⟩

/-- What a step of a task does to the tasks: it moves one, and shows in the state when it is within a reconnect. -/
theorem monitorStep_tasks (cfg : ConnectionConfig) (outcome : ProviderOutcome) (now : ℤ) (i : ℕ) {m : Monitor}
    (h : m.point.busy = true → s.state = .reconnecting) :
    ∃ m' : Monitor, (monitorStep cfg s i m outcome now).monitors = s.monitors.set i m' ∧
      (monitorStep cfg s i m outcome now).monitorTask = s.monitorTask ∧
      (monitorStep cfg s i m outcome now).owner = s.owner ∧
      (m'.point.busy = true → (monitorStep cfg s i m outcome now).state = .reconnecting) := by
  unfold monitorStep
  split_ifs with hc
  · obtain ⟨-, htask, howner, -⟩ := monitorCancelled_frame s outcome m.point
    exact ⟨_, rfl, htask, howner, fun hb => by simp [MonitorPoint.busy] at hb⟩
  · obtain ⟨-, htask, howner⟩ := monitorNext_frame cfg s outcome now m.point
    exact ⟨_, rfl, htask, howner, monitorNext_busy h⟩

/-- A task that has ended takes no more steps. -/
theorem monitorStep_ended {i : ℕ} {m : Monitor} (hi : s.monitors[i]? = some m) (h : m.point = .ended) :
    monitorStep cfg s i m outcome now = s := by
  obtain ⟨point, cancelled⟩ := m
  cases h
  have hset : s.monitors.set i ⟨.ended, cancelled⟩ = s.monitors := Pool.set_of_get hi
  unfold monitorStep
  split_ifs with hc
  · simp only [monitorCancelled, hset]
  · simp only [monitorNext, hset]

theorem serviceStep_none {i : ℕ} (h : s.monitors[i]? = none) : serviceStep cfg s (.monitor i outcome now) = s := by
  simp [serviceStep, h]

theorem serviceStep_some {i : ℕ} {m : Monitor} (h : s.monitors[i]? = some m) :
    serviceStep cfg s (.monitor i outcome now) = monitorStep cfg s i m outcome now := by
  simp [serviceStep, h]

/-- A cancellation leaves the tasks where they stand. -/
theorem map_point_beginStop (s : Service) : s.beginStop.monitors.map Monitor.point = s.monitors.map Monitor.point := by
  unfold Service.beginStop
  split
  · rfl
  · rename_i i _
    have hmodify : ∀ (l : List Monitor) (i : ℕ),
        (l.modify i fun m => { m with cancelled := true }).map Monitor.point = l.map Monitor.point := by
      intro l
      induction l with
      | nil => simp
      | cons m l ih =>
        intro i
        cases i with
        | zero => simp
        | succ i => simp [ih]
    exact hmodify s.monitors i

theorem beginStop_frame (s : Service) :
    s.beginStop.state = s.state ∧ s.beginStop.provider = s.provider ∧ s.beginStop.metrics = s.metrics ∧
      s.beginStop.monitorTask = s.monitorTask ∧ s.beginStop.owner ≠ .connecting ∧ s.beginStop.owner ≠ .subscribing := by
  unfold Service.beginStop
  split <;> simp_all

/-- A task after the cancellation, and the same task before it. -/
theorem getElem?_beginStop {j : ℕ} {d : Monitor} (h : s.beginStop.monitors[j]? = some d) :
    ∃ d' : Monitor, s.monitors[j]? = some d' ∧ d'.point = d.point := by
  have hpoints := congrArg (·[j]?) (map_point_beginStop s)
  simp only [List.getElem?_map, h, Option.map_some] at hpoints
  cases hj : s.monitors[j]? with
  | none => simp [hj] at hpoints
  | some d' => exact ⟨d', rfl, by simpa [hj] using hpoints.symm⟩

theorem Service.Quiet.beginStop (h : s.Quiet) : s.beginStop.Quiet := by
  intro m hm
  obtain ⟨j, hj⟩ := List.mem_iff_getElem?.mp hm
  obtain ⟨d, hd, hsame⟩ := getElem?_beginStop hj
  exact hsame ▸ h d (List.mem_of_getElem? hd)

namespace Service.Kept

/-- What changes neither the tasks nor the owner, and the state only where no reconnect is under way. -/
theorem of_same (h : s.Kept) {t : Service} (hmonitors : t.monitors = s.monitors) (htask : t.monitorTask = s.monitorTask)
    (howner : t.owner = s.owner) (hstate : t.state = s.state) : t.Kept where
  alone := by rw [hmonitors, htask]; exact h.alone
  busy := by rw [hmonitors, hstate]; exact h.busy
  connecting := by rw [howner, hstate, Quiet, hmonitors]; exact h.connecting
  subscribing := by rw [howner, hstate, Quiet, hmonitors]; exact h.subscribing
  closing := by rw [howner, Quiet, hmonitors]; exact h.closing

/-- With no task alive the invariant is what the owner's call says. -/
theorem of_quiet (hquiet : s.Quiet) (hconnecting : s.owner = .connecting → s.state = .connecting)
    (hsubscribing : s.owner = .subscribing → s.state = .connected) : s.Kept where
  alone := fun _ m hm halive => absurd (hquiet m (List.mem_of_getElem? hm)) halive
  busy := fun m hm hbusy => by simp [hquiet m hm, MonitorPoint.busy] at hbusy
  connecting := fun ho => ⟨hquiet, hconnecting ho⟩
  subscribing := fun ho => ⟨hquiet, hsubscribing ho⟩
  closing := fun _ => hquiet

/-- The task that `start` makes is the only one. -/
theorem withTask (hquiet : s.Quiet) : s.withTask.Kept where
  alone := by
    intro i m hm halive
    have hi : i = s.monitors.length := by
      rcases Nat.lt_trichotomy i s.monitors.length with hlt | heq | hgt
      · have hold : s.monitors[i]? = some m := by
          rw [← hm]
          exact (List.getElem?_append_left hlt).symm
        exact absurd (hquiet m (List.mem_of_getElem? hold)) halive
      · exact heq
      · have hnone : (s.monitors ++ [({} : Monitor)])[i]? = none := by simp; omega
        rw [show s.withTask.monitors = s.monitors ++ [{}] from rfl, hnone] at hm
        cases hm
    rw [hi]; rfl
  busy := by
    intro m hm hbusy
    rcases List.mem_append.mp hm with hold | hnew
    · simp [hquiet m hold, MonitorPoint.busy] at hbusy
    · rw [List.mem_singleton.mp hnew] at hbusy
      simp [MonitorPoint.busy] at hbusy
  connecting := fun ho => by cases ho
  subscribing := fun ho => by cases ho
  closing := fun ho => by cases ho

/-- A task that is alive steps: no call of the owner waits that needs it ended. -/
theorem monitorStep (h : s.Kept) {i : ℕ} {m : Monitor} (hi : s.monitors[i]? = some m) :
    (monitorStep cfg s i m outcome now).Kept := by
  by_cases halive : m.point = .ended
  · rw [monitorStep_ended hi halive]
    exact h
  obtain ⟨m', hmonitors, htask, howner, hbusy⟩ :=
    monitorStep_tasks cfg outcome now i (h.busy m (List.mem_of_getElem? hi))
  have hheld : s.monitorTask = some i := h.alone i m hi halive
  have hnot : ¬s.Quiet := fun hq => halive (hq m (List.mem_of_getElem? hi))
  constructor
  · intro j d hd hlive
    rw [hmonitors] at hd
    rw [htask]
    rcases Pool.get_set_cases hd with ⟨rfl, -⟩ | ⟨-, hold⟩
    · exact hheld
    · exact h.alone j d hold hlive
  · intro d hd hdbusy
    rw [hmonitors] at hd
    obtain ⟨j, hj⟩ := List.mem_iff_getElem?.mp hd
    rcases Pool.get_set_cases hj with ⟨-, rfl⟩ | ⟨hne, hold⟩
    · exact hbusy hdbusy
    · -- only the task that steps is alive
      have hlive : d.point ≠ .ended := fun he => by simp [he, MonitorPoint.busy] at hdbusy
      exact absurd (Option.some.inj ((h.alone j d hold hlive).symm.trans hheld)) hne
  · exact fun ho => absurd (h.connecting (howner ▸ ho)).1 hnot
  · exact fun ho => absurd (h.subscribing (howner ▸ ho)).1 hnot
  · exact fun ho => absurd (h.closing (howner ▸ ho)) hnot

theorem beginStop (h : s.Kept) : s.beginStop.Kept := by
  obtain ⟨hstate, -, -, htask, hconnecting, hsubscribing⟩ := beginStop_frame s
  constructor
  · intro j d hd hlive
    obtain ⟨d', hd', hsame⟩ := getElem?_beginStop hd
    rw [htask]
    exact h.alone j d' hd' (hsame ▸ hlive)
  · intro d hd hbusy
    obtain ⟨j, hj⟩ := List.mem_iff_getElem?.mp hd
    obtain ⟨d', hd', hsame⟩ := getElem?_beginStop hj
    rw [hstate]
    exact h.busy d' (List.mem_of_getElem? hd') (hsame ▸ hbusy)
  · exact fun ho => absurd ho hconnecting
  · exact fun ho => absurd ho hsubscribing
  · -- nothing to gather: no task was ever held
    intro ho m hm
    obtain ⟨j, hj⟩ := List.mem_iff_getElem?.mp hm
    obtain ⟨d, hd, hsame⟩ := getElem?_beginStop hj
    by_contra hlive
    have hheld := h.alone j d hd (hsame ▸ hlive)
    simp [Service.beginStop, hheld] at ho

/-- The task that `stop` gathered has ended, and it is the only one that could be alive. -/
theorem quiet_of_taskEnded (h : s.Kept) (hended : s.taskEnded = true) : s.Quiet := by
  intro m hm
  obtain ⟨i, hi⟩ := List.mem_iff_getElem?.mp hm
  by_contra hlive
  have htask := h.alone i m hi hlive
  simp [Service.taskEnded, htask, hi, hlive] at hended

/-- One orderly step. -/
theorem step (h : s.Kept) {a : ServiceAction} (ha : Orderly s a) : (serviceStep cfg s a).Kept := by
  cases a with
  | start =>
    unfold serviceStep
    dsimp only
    split_ifs
    · exact of_quiet (ha rfl) (fun _ => rfl) fun ho => by cases ho
    · exact h
  | connectEnds outcome now =>
    unfold serviceStep
    dsimp only
    split_ifs with ho hreturns hsymbols
    · exact withTask (h.connecting ho).1
    · exact of_quiet (h.connecting ho).1 (fun ho => by cases ho) fun _ => rfl
    · exact of_quiet (h.connecting ho).1 (fun ho => by cases ho) fun ho => by cases ho
    · exact h
  | subscribeEnds returns =>
    unfold serviceStep
    dsimp only
    split_ifs with ho hreturns
    · exact withTask (h.subscribing ho).1
    · exact of_quiet (h.subscribing ho).1 (fun ho => by cases ho) fun ho => by cases ho
    · exact h
  | stop =>
    unfold serviceStep
    dsimp only
    split_ifs
    · exact h.beginStop
    · exact h
  | gatherEnds =>
    unfold serviceStep
    dsimp only
    split_ifs with ho
    · exact of_quiet (h.quiet_of_taskEnded ho.2) (fun ho => by cases ho) fun ho => by cases ho
    · exact h
  | closeEnds outcome =>
    unfold serviceStep
    dsimp only
    split_ifs with ho
    · exact of_quiet (h.closing ho) (fun ho => by cases ho) fun ho => by cases ho
    · exact of_quiet (h.closing ho) (fun ho => by cases ho) fun ho => by cases ho
    · exact h
  | monitor i outcome now =>
    cases hi : s.monitors[i]? with
    | none => rw [serviceStep_none hi]; exact h
    | some m => rw [serviceStep_some hi]; exact h.monitorStep hi
  | event now => exact h.of_same rfl rfl rfl rfl
  | lost => exact h.of_same rfl rfl rfl rfl

end Service.Kept

theorem kept_run {l : List ServiceAction} (h : Along (serviceStep cfg) Orderly {} l) : (serviceRun cfg l).Kept :=
  h.invariant (fun _ _ hk ha => hk.step ha) kept_initial

/-! ### After `stop` -/

/-- The connection is closed, nothing is left that could open it, and no more `connect` was called than `n`. -/
structure Service.Closed (n : ℕ) (s : Service) : Prop where
  state : s.state = .closed
  down : s.provider.up = false
  quiet : s.Quiet
  connects : s.provider.connects = n
  connecting : s.owner ≠ .connecting
  subscribing : s.owner ≠ .subscribing

namespace Service.Closed

variable {n : ℕ}

theorem step (h : s.Closed n) {a : ServiceAction} (ha : a ≠ .start) : (serviceStep cfg s a).Closed n := by
  cases a with
  | start => exact absurd rfl ha
  | connectEnds outcome now =>
    rw [show serviceStep cfg s (.connectEnds outcome now) = s by simp [serviceStep, h.connecting]]
    exact h
  | subscribeEnds returns =>
    rw [show serviceStep cfg s (.subscribeEnds returns) = s by simp [serviceStep, h.subscribing]]
    exact h
  | stop =>
    unfold serviceStep
    dsimp only
    split_ifs
    · obtain ⟨hstate, hprovider, -, -, hconnecting, hsubscribing⟩ := beginStop_frame s
      exact ⟨hstate ▸ h.state, hprovider ▸ h.down, h.quiet.beginStop, hprovider ▸ h.connects, hconnecting,
        hsubscribing⟩
    · exact h
  | gatherEnds =>
    unfold serviceStep
    dsimp only
    split_ifs
    · exact ⟨h.state, h.down, h.quiet, h.connects, by simp, by simp⟩
    · exact h
  | closeEnds outcome =>
    have hdown : (s.provider.disconnected outcome).up = false := by simp [MarketDataProvider.disconnected, h.down]
    unfold serviceStep
    dsimp only
    split_ifs
    · exact ⟨rfl, hdown, h.quiet, h.connects, by simp, by simp⟩
    · exact ⟨h.state, hdown, h.quiet, h.connects, by simp, by simp⟩
    · exact h
  | monitor i outcome now =>
    cases hi : s.monitors[i]? with
    | none => rw [serviceStep_none hi]; exact h
    | some m =>
      rw [serviceStep_some hi, monitorStep_ended hi (h.quiet m (List.mem_of_getElem? hi))]
      exact h
  | event now => exact ⟨h.state, h.down, h.quiet, h.connects, h.connecting, h.subscribing⟩
  | lost => exact ⟨h.state, rfl, h.quiet, h.connects, h.connecting, h.subscribing⟩

theorem run (cfg : ConnectionConfig) (h : s.Closed n) {l : List ServiceAction} (hl : ServiceAction.start ∉ l) :
    (Runs.run (serviceStep cfg) s l).Closed n := by
  induction l generalizing s with
  | nil => exact h
  | cons a l ih =>
    rw [List.mem_cons, not_or] at hl
    exact ih (h.step fun ha => hl.1 ha.symm) hl.2

end Service.Closed

/-- **After a `stop`** that returned, in an orderly run and up to the next `start`: the connection is closed, no task is
alive and no `connect` is called, whatever the tasks and the provider do. -/
theorem stopped_stays_closed {l l' : List ServiceAction} (hl : Along (serviceStep cfg) Orderly {} l)
    (hclosing : (serviceRun cfg l).owner = .closing) (hreturns : outcome.returns = true)
    (hstart : ServiceAction.start ∉ l') :
    (serviceRun cfg (l ++ .closeEnds outcome :: l')).state = .closed ∧
      (serviceRun cfg (l ++ .closeEnds outcome :: l')).provider.up = false ∧
      (serviceRun cfg (l ++ .closeEnds outcome :: l')).Quiet ∧
      (serviceRun cfg (l ++ .closeEnds outcome :: l')).provider.connects = (serviceRun cfg l).provider.connects := by
  have hclosed : (serviceStep cfg (serviceRun cfg l) (.closeEnds outcome)).Closed
      (serviceRun cfg l).provider.connects := by
    unfold serviceStep
    dsimp only
    rw [if_pos hclosing, if_pos hreturns]
    have hdown : ((serviceRun cfg l).provider.disconnected outcome).up = false := by
      simp [MarketDataProvider.disconnected, hreturns]
    exact ⟨rfl, hdown, (kept_run hl).closing hclosing, rfl, by simp, by simp⟩
  have hafter := hclosed.run cfg hstart
  rw [serviceRun, run_append, run_cons]
  exact ⟨hafter.state, hafter.down, hafter.quiet, hafter.connects⟩

/-- A call of the provider that returns. -/
def answered : ProviderOutcome := ⟨true, false⟩

/-- A call of the provider that raises. -/
def refused : ProviderOutcome := ⟨false, false⟩

/-- A service that is stopped within a reconnect. -/
def sampleStop : List ServiceAction :=
  [.start, .connectEnds answered 0, .monitor 0 answered 0, .monitor 0 answered 50000000, .stop,
    .monitor 0 answered 50000001, .gatherEnds]

/-- The reconnect is cut off, and the task is not heard of again. -/
theorem stopped_stays_closed_sample :
    (serviceRun {} (sampleStop ++ .closeEnds answered :: [.monitor 0 answered 60000000, .event 60000001])).state =
      .closed := by
  have h := @stopped_stays_closed {} answered sampleStop [.monitor 0 answered 60000000, .event 60000001]
    (by decide) (by decide) rfl (by decide)
  exact h.1

/-- A service that is started twice forgets its first task, which connects again after the `stop`. -/
example : (serviceRun {} [.start, .connectEnds answered 0, .start, .connectEnds answered 0, .monitor 0 answered 0,
    .monitor 0 answered 50000000, .stop, .monitor 1 answered 50000001, .gatherEnds, .closeEnds answered,
    .monitor 0 answered 50000002, .monitor 0 answered 50000003]).state = .connected := by decide

/-! ### The attempts of a reconnect -/

/-- The attempts that a reconnect has left. -/
def MonitorPoint.credit (cfg : ConnectionConfig) : MonitorPoint → ℕ
  | .tearingDown => cfg.maxAttempts
  | .connecting attempt | .backingOff attempt => cfg.maxAttempts - attempt
  | .created | .sleeping | .ended => 0

/-- A task that waits for its next attempt has one left. -/
def MonitorPoint.Within (cfg : ConnectionConfig) (p : MonitorPoint) : Prop :=
  ∀ attempt, p = .backingOff attempt → attempt < cfg.maxAttempts

/-- The calls of `connect`, and those that the reconnects under way may still make. -/
def Service.due (cfg : ConnectionConfig) (s : Service) : ℕ :=
  s.provider.connects + (s.monitors.map fun m => m.point.credit cfg).sum

theorem maxAttempts_pos (cfg : ConnectionConfig) : 1 ≤ cfg.maxAttempts := by
  unfold ConnectionConfig.maxAttempts
  omega

theorem credit_loopPoint : (loopPoint s).credit cfg = 0 := by
  unfold loopPoint
  split_ifs <;> rfl

theorem within_loopPoint : (loopPoint s).Within cfg := by
  unfold loopPoint
  split_ifs <;> simp [MonitorPoint.Within]

/-- A reconnect brings the attempts it may make; a step makes one that it has. -/
theorem monitorNext_due (s : Service) (outcome : ProviderOutcome) (now : ℤ) {p : MonitorPoint} (h : p.Within cfg) :
    (monitorNext cfg s outcome now p).2.Within cfg ∧
      (monitorNext cfg s outcome now p).1.provider.connects + (monitorNext cfg s outcome now p).2.credit cfg +
          cfg.maxAttempts * s.metrics.reconnects ≤
        s.provider.connects + p.credit cfg +
          cfg.maxAttempts * (monitorNext cfg s outcome now p).1.metrics.reconnects := by
  have hpos := maxAttempts_pos cfg
  cases p with
  | created => simp [monitorNext, MonitorPoint.Within, MonitorPoint.credit]
  | sleeping =>
    unfold monitorNext
    dsimp only
    split_ifs
    · refine ⟨by simp [MonitorPoint.Within], ?_⟩
      simp only [MonitorPoint.credit]
      ring_nf
      omega
    · exact ⟨within_loopPoint, by simp [credit_loopPoint]⟩
  | tearingDown =>
    refine ⟨by simp [monitorNext, MonitorPoint.Within], ?_⟩
    simp only [monitorNext, MonitorPoint.credit, MarketDataProvider.call, MarketDataProvider.disconnected]
    omega
  | connecting attempt =>
    unfold monitorNext
    dsimp only
    split_ifs with hreturns hlt
    · refine ⟨within_loopPoint, ?_⟩
      simp only [credit_loopPoint, MarketDataProvider.connected]
      omega
    · split
      · refine ⟨by simp [MonitorPoint.Within], ?_⟩
        simp only [MonitorPoint.credit, MarketDataProvider.connected]
        omega
      · refine ⟨fun n hn => by cases hn; exact hlt, ?_⟩
        simp [MonitorPoint.credit, MarketDataProvider.connected]
    · refine ⟨within_loopPoint, ?_⟩
      simp only [credit_loopPoint, MarketDataProvider.connected]
      omega
  | backingOff attempt =>
    have hlt := h attempt rfl
    refine ⟨by simp [monitorNext, MonitorPoint.Within], ?_⟩
    simp only [monitorNext, MonitorPoint.credit, MarketDataProvider.call]
    omega
  | ended => simp [monitorNext, MonitorPoint.Within, MonitorPoint.credit]

/-- What a cancelled task has left goes with it. -/
theorem monitorStep_due (outcome : ProviderOutcome) (now : ℤ) {i : ℕ} {m : Monitor} (hi : s.monitors[i]? = some m)
    (h : ∀ d ∈ s.monitors, d.point.Within cfg) :
    (∀ d ∈ (monitorStep cfg s i m outcome now).monitors, d.point.Within cfg) ∧
      (monitorStep cfg s i m outcome now).due cfg + cfg.maxAttempts * s.metrics.reconnects ≤
        s.due cfg + cfg.maxAttempts * (monitorStep cfg s i m outcome now).metrics.reconnects := by
  have hm := h m (List.mem_of_getElem? hi)
  have hset (d : Monitor) : ((s.monitors.set i d).map fun m => m.point.credit cfg).sum + m.point.credit cfg =
      (s.monitors.map fun m => m.point.credit cfg).sum + d.point.credit cfg := by
    have hbefore := Pool.sum_eq_add_others (fun m : Monitor => m.point.credit cfg) hi
    have hself : (s.monitors.set i d)[i]? = some d := Pool.get_set_self hi
    have hafter := Pool.sum_eq_add_others (fun m : Monitor => m.point.credit cfg) hself
    rw [List.eraseIdx_set_eq] at hafter
    omega
  unfold monitorStep
  split_ifs
  · refine ⟨fun d hd => ?_, ?_⟩
    · rcases List.mem_or_eq_of_mem_set hd with hd | rfl
      · exact h d hd
      · simp [MonitorPoint.Within]
    · have hconnects : (monitorCancelled s outcome m.point).provider.connects = s.provider.connects ∧
          (monitorCancelled s outcome m.point).metrics = s.metrics := by
        unfold monitorCancelled
        split <;> exact ⟨rfl, rfl⟩
      have hsum := hset { m with point := .ended }
      simp only [Service.due, hconnects, MonitorPoint.credit] at hsum ⊢
      omega
  · obtain ⟨hwithin, hdue⟩ := monitorNext_due s outcome now hm
    refine ⟨fun d hd => ?_, ?_⟩
    · rcases List.mem_or_eq_of_mem_set hd with hd | rfl
      · exact h d hd
      · exact hwithin
    · have hsum := hset { m with point := (monitorNext cfg s outcome now m.point).2 }
      simp only [Service.due] at hsum ⊢
      omega

/-- Only `start` and the reconnects call `connect`. -/
theorem serviceStep_due (a : ServiceAction) (h : ∀ d ∈ s.monitors, d.point.Within cfg) :
    (∀ d ∈ (serviceStep cfg s a).monitors, d.point.Within cfg) ∧
      (serviceStep cfg s a).due cfg + cfg.maxAttempts * s.metrics.reconnects ≤
        s.due cfg + [a].count .start + cfg.maxAttempts * (serviceStep cfg s a).metrics.reconnects := by
  have hsame : (∀ d ∈ s.monitors, d.point.Within cfg) ∧ s.due cfg + cfg.maxAttempts * s.metrics.reconnects ≤
      s.due cfg + [a].count .start + cfg.maxAttempts * s.metrics.reconnects := ⟨h, by omega⟩
  have htask (t : Service) (ht : t.monitors = s.monitors ++ [({} : Monitor)]) :
      ∀ d ∈ t.monitors, d.point.Within cfg := by
    intro d hd
    rw [ht] at hd
    rcases List.mem_append.mp hd with hd | hd
    · exact h d hd
    · rw [List.mem_singleton.mp hd]
      simp [MonitorPoint.Within]
  cases a with
  | start =>
    unfold serviceStep
    dsimp only
    split_ifs
    · refine ⟨h, ?_⟩
      simp only [Service.due, MarketDataProvider.call, List.count_singleton_self]
      omega
    · exact hsame
  | connectEnds outcome now =>
    unfold serviceStep
    dsimp only
    split_ifs
    · refine ⟨htask _ rfl, ?_⟩
      simp [Service.due, Service.withTask, MarketDataProvider.connected, MonitorPoint.credit]
    · exact hsame
    · exact hsame
    · exact hsame
  | subscribeEnds returns =>
    unfold serviceStep
    dsimp only
    split_ifs
    · refine ⟨htask _ rfl, ?_⟩
      simp [Service.due, Service.withTask, MonitorPoint.credit]
    · exact hsame
    · exact hsame
  | stop =>
    unfold serviceStep
    dsimp only
    split_ifs
    · obtain ⟨-, hprovider, hmetrics, -, -, -⟩ := beginStop_frame s
      constructor
      · intro d hd
        obtain ⟨j, hj⟩ := List.mem_iff_getElem?.mp hd
        obtain ⟨d', hd', hpoint⟩ := getElem?_beginStop hj
        exact hpoint ▸ h d' (List.mem_of_getElem? hd')
      · have hcredit (t : Service) : (t.monitors.map fun m => m.point.credit cfg) =
            (t.monitors.map Monitor.point).map (MonitorPoint.credit cfg) := by simp
        rw [Service.due, Service.due, hcredit, hcredit, map_point_beginStop, hprovider, hmetrics]
        omega
    · exact hsame
  | gatherEnds =>
    unfold serviceStep
    dsimp only
    split_ifs <;> exact hsame
  | closeEnds outcome =>
    unfold serviceStep
    dsimp only
    split_ifs <;> exact hsame
  | monitor i outcome now =>
    cases hi : s.monitors[i]? with
    | none => rw [serviceStep_none hi]; exact hsame
    | some m =>
      rw [serviceStep_some hi]
      obtain ⟨hwithin, hdue⟩ := monitorStep_due outcome now hi h
      exact ⟨hwithin, by omega⟩
  | event now => exact hsame
  | lost => exact hsame

theorem due_run (cfg : ConnectionConfig) : ∀ (l : List ServiceAction) {s : Service},
    (∀ d ∈ s.monitors, d.point.Within cfg) →
    (run (serviceStep cfg) s l).due cfg + cfg.maxAttempts * s.metrics.reconnects ≤
      s.due cfg + l.count .start + cfg.maxAttempts * (run (serviceStep cfg) s l).metrics.reconnects
  | [], s, _ => by simp
  | a :: l, s, h => by
    obtain ⟨hwithin, hdue⟩ := serviceStep_due a h
    have ih := due_run cfg l hwithin
    rw [run_cons, show a :: l = [a] ++ l from rfl, List.count_append]
    omega

/-- **The calls of `connect`** in any run: at most one for each `start`, and for each reconnect no more than the configured
number of attempts.  A `start` while the owner awaits an earlier call does nothing. -/
theorem connects_le (cfg : ConnectionConfig) (l : List ServiceAction) :
    (serviceRun cfg l).provider.connects ≤
      l.count .start + cfg.maxAttempts * (serviceRun cfg l).metrics.reconnects := by
  have h := due_run cfg l (s := {}) (by simp)
  simp only [Service.due] at h
  rw [serviceRun]
  simp only [List.map_nil, List.sum_nil] at h
  omega

/-! ### After a reconnect that failed -/

/-- The state is one that the watchdog does not leave, and no reconnect is under way. -/
structure Service.Dormant (n : ℕ) (s : Service) : Prop where
  state : s.state = .failed ∨ s.state = .closed
  calm : ∀ m ∈ s.monitors, m.point.busy = false
  connects : s.provider.connects = n
  connecting : s.owner ≠ .connecting
  subscribing : s.owner ≠ .subscribing

namespace Service.Dormant

variable {n : ℕ}

theorem monitorStep (h : s.Dormant n) {i : ℕ} {m : Monitor} (hi : s.monitors[i]? = some m) :
    (monitorStep cfg s i m outcome now).Dormant n := by
  have hcalm := h.calm m (List.mem_of_getElem? hi)
  have hstate : s.state ≠ .connected := by
    rcases h.state with hs | hs <;> simp [hs]
  have hloop : (loopPoint s).busy = false := by
    unfold loopPoint
    split_ifs <;> rfl
  have hset (d : Monitor) (hd : d.point.busy = false) : ∀ e ∈ s.monitors.set i d, e.point.busy = false := by
    intro e he
    rcases List.mem_or_eq_of_mem_set he with he | rfl
    · exact h.calm e he
    · exact hd
  obtain ⟨point, cancelled⟩ := m
  unfold Market.monitorStep
  cases point with
  | created =>
    split_ifs
    · exact ⟨h.state, hset _ rfl, h.connects, h.connecting, h.subscribing⟩
    · exact ⟨h.state, hset _ rfl, h.connects, h.connecting, h.subscribing⟩
  | sleeping =>
    split_ifs
    · exact ⟨h.state, hset _ rfl, h.connects, h.connecting, h.subscribing⟩
    · simp only [monitorNext, hstate, false_and, if_false]
      exact ⟨h.state, hset _ hloop, h.connects, h.connecting, h.subscribing⟩
  | ended =>
    split_ifs
    · exact ⟨h.state, hset _ rfl, h.connects, h.connecting, h.subscribing⟩
    · exact ⟨h.state, hset _ rfl, h.connects, h.connecting, h.subscribing⟩
  | tearingDown => cases hcalm
  | connecting attempt => cases hcalm
  | backingOff attempt => cases hcalm

theorem step (h : s.Dormant n) {a : ServiceAction} (ha : a ≠ .start) : (serviceStep cfg s a).Dormant n := by
  cases a with
  | start => exact absurd rfl ha
  | connectEnds outcome now =>
    rw [show serviceStep cfg s (.connectEnds outcome now) = s by simp [serviceStep, h.connecting]]
    exact h
  | subscribeEnds returns =>
    rw [show serviceStep cfg s (.subscribeEnds returns) = s by simp [serviceStep, h.subscribing]]
    exact h
  | stop =>
    unfold serviceStep
    dsimp only
    split_ifs
    · obtain ⟨hstate, hprovider, -, -, hconnecting, hsubscribing⟩ := beginStop_frame s
      refine ⟨hstate ▸ h.state, fun d hd => ?_, hprovider ▸ h.connects, hconnecting, hsubscribing⟩
      obtain ⟨j, hj⟩ := List.mem_iff_getElem?.mp hd
      obtain ⟨d', hd', hpoint⟩ := getElem?_beginStop hj
      exact hpoint ▸ h.calm d' (List.mem_of_getElem? hd')
    · exact h
  | gatherEnds =>
    unfold serviceStep
    dsimp only
    split_ifs
    · exact ⟨h.state, h.calm, h.connects, by simp, by simp⟩
    · exact h
  | closeEnds outcome =>
    unfold serviceStep
    dsimp only
    split_ifs
    · exact ⟨.inr rfl, h.calm, h.connects, by simp, by simp⟩
    · exact ⟨h.state, h.calm, h.connects, by simp, by simp⟩
    · exact h
  | monitor i outcome now =>
    cases hi : s.monitors[i]? with
    | none => rw [serviceStep_none hi]; exact h
    | some m => rw [serviceStep_some hi]; exact h.monitorStep hi
  | event now => exact ⟨h.state, h.calm, h.connects, h.connecting, h.subscribing⟩
  | lost => exact ⟨h.state, h.calm, h.connects, h.connecting, h.subscribing⟩

end Service.Dormant

/-- **After a reconnect that failed**, in an orderly run and up to the next `start`, the watchdog makes no other
attempt: the state stays `failed`, or is `closed` by a `stop`. -/
theorem failed_stays_failed {l l' : List ServiceAction} (hl : Along (serviceStep cfg) Orderly {} l)
    (hfailed : (serviceRun cfg l).state = .failed) (hstart : ServiceAction.start ∉ l') :
    ((serviceRun cfg (l ++ l')).state = .failed ∨ (serviceRun cfg (l ++ l')).state = .closed) ∧
      (serviceRun cfg (l ++ l')).provider.connects = (serviceRun cfg l).provider.connects := by
  have hkept := kept_run hl
  have hdormant : (serviceRun cfg l).Dormant (serviceRun cfg l).provider.connects := by
    refine ⟨.inl hfailed, fun m hm => ?_, rfl, fun ho => ?_, fun ho => ?_⟩
    · by_contra hbusy
      have hstate := hkept.busy m hm (by simpa using hbusy)
      rw [hfailed] at hstate
      cases hstate
    · have hstate := (hkept.connecting ho).2
      rw [hfailed] at hstate
      cases hstate
    · have hstate := (hkept.subscribing ho).2
      rw [hfailed] at hstate
      cases hstate
  have hrun : ∀ (l' : List ServiceAction) {s : Service} {n : ℕ}, s.Dormant n → ServiceAction.start ∉ l' →
      (run (serviceStep cfg) s l').Dormant n := by
    intro l'
    induction l' with
    | nil => exact fun h _ => h
    | cons a l' ih =>
      intro s n h hl'
      rw [List.mem_cons, not_or] at hl'
      exact ih (h.step fun ha => hl'.1 ha.symm) hl'.2
  have hafter := hrun l' hdormant hstart
  rw [serviceRun, run_append]
  exact ⟨hafter.state, hafter.connects⟩

/-- One attempt at most, which fails. -/
def sampleFailure : List ServiceAction :=
  [.start, .connectEnds answered 0, .monitor 0 answered 0, .monitor 0 answered 50000000, .monitor 0 answered 50000001,
    .monitor 0 refused 50000002]

/-- The watchdog looks at a silent connection again and does nothing. -/
theorem failed_stays_failed_sample :
    (serviceRun { reconnectMaxAttempts := 1 } (sampleFailure ++ [.monitor 0 answered 99000000])).provider.connects =
      (serviceRun { reconnectMaxAttempts := 1 } sampleFailure).provider.connects := by
  have h := @failed_stays_failed { reconnectMaxAttempts := 1 } sampleFailure [.monitor 0 answered 99000000]
    (by decide) (by decide) (by decide)
  exact h.2

end Steps

end AlphaAlgo.Market
