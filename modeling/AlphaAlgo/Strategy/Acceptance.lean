import AlphaAlgo.Lib.Firsts
import AlphaAlgo.Lib.Runs
import AlphaAlgo.Signal.Identity
import AlphaAlgo.Strategy.Copies
import AlphaAlgo.Strategy.Dispatch
import AlphaAlgo.Strategy.Duplicates

/-!
# Acceptance — what becomes of the signals of an instance

A callback appends its signals to the buffer of the context.  `_dispatch_locked` goes through the buffer from the length
it had before the callback, validates, drops the duplicates and then deletes what was there before.  The key of a signal
holds its instrument, its action and the time of its event; the documentation says that a distinct reason makes two
signals distinct, but the key holds no reason.  Where the callback raises, nothing is looked at or deleted.

* `dispatchLocked_of_next`: `_dispatch_locked` in one step and in the steps of a dispatch.
* `signalDedupKey_reason`: the key does not depend on the reason.
* `tellable_of_oneReason`: keys tell signals apart where each instrument and action has one reason.
* `acceptSignals_eq`: what is accepted of an event whose keys tell its signals apart.
* `accounted_of_told`: the accepted signals of every event of a run whose keys tell its signals apart, and in which what
  is emitted outside an event, or by a callback that raises, is nothing.
-/

namespace AlphaAlgo.Strategy

open Firsts Runs
open Market (Stamp)
open Signal (StrategySignal)

/-! ### Calls -/

/-- `_dispatch_locked`, for what the callback emits and raises. -/
def StrategyInstance.dispatchLocked (inst : StrategyInstance) (m : StrategyMetrics) (outcome : CallbackOutcome)
    (eventTimestamp : Stamp) : Except StrategyError (List StrategySignal) × StrategyInstance × StrategyMetrics :=
  if inst.state ≠ .running then
    (.error (.lifecycle ("callback not allowed in state " ++ inst.state.value)), inst, m)
  else
    let before := inst.emitted.length
    let inst := inst.emit outcome.emits
    let m := { m with callbackCount := m.callbackCount + 1 }
    match outcome.raises with
    | some exc =>
      match inst.fail m exc with
      | (.error e, rest) => (.error e, rest)
      | (.ok _, rest) => (.ok [], rest)
    | none =>
      let (accepted, rest) := inst.acceptSignals m before eventTimestamp
      (.ok accepted, rest)

/-- An instance that runs fails where its callback raises. -/
theorem fail_of_running {inst : StrategyInstance} (h : inst.state = .running) (m : StrategyMetrics) (reason : String) :
    inst.fail m reason = (.ok (), { inst with state := .failed, failReason := some reason },
      { m with strategiesFailed := m.strategiesFailed + 1 }) := by
  unfold StrategyInstance.fail
  rw [h, if_neg (by decide), moveTo_of_mem (by rw [h]; decide)]

/-- A future that holds the lock of a running instance, stepped alone, does what `_dispatch_locked` does. -/
theorem dispatchLocked_of_next (fut : StrategyFuture) (free : Bool) (h : Hosted) (m : StrategyMetrics)
    (outcome : CallbackOutcome) (hpc : fut.pc = .entered) (hrunning : h.inst.state = .running) :
    ∃ n fut' h' m' accepted,
      (fun p => StrategyFuture.next p.1 free p.2.1 p.2.2 outcome)^[n] (fut, h, m) = (fut', h', m') ∧
      fut'.pc = .returning (.signals accepted) ∧
      h.inst.dispatchLocked m outcome fut.timestamp = (.ok accepted, h'.inst, m') := by
  obtain ⟨owner, target, timestamp, pc, begun, counted⟩ := fut
  obtain ⟨⟨identity, allowedInstruments, state, initialized, failReason, emitted, seen⟩, definition, record, locked,
    raised, overran, starved⟩ := h
  obtain ⟨emits, raises⟩ := outcome
  cases hpc
  cases hrunning
  cases raises with
  | none => exact ⟨3, _, _, _, _, rfl, rfl, rfl⟩
  | some exc => exact ⟨4, _, _, _, _, rfl, rfl, rfl⟩

/-- A call of an instance; an event comes by `on_tick`, `on_candle`, `on_order_update` or `on_position_update`. -/
inductive InstanceCall where
  | initializeOnce (outcome : CallbackOutcome)
  | start (outcome : CallbackOutcome)
  | event (timestamp : Stamp) (outcome : CallbackOutcome)
  | pause
  | resume
  | stop (outcome : CallbackOutcome)
  | markFailed (reason : String)

/-- An instance and its metrics.  The last three are for the statements: what its callbacks have emitted, what
`_dispatch_locked` has looked at and what it has accepted, with the time of the event. -/
structure InstanceRun where
  inst : StrategyInstance
  metrics : StrategyMetrics := {}
  emitted : List StrategySignal := []
  considered : List (StrategySignal × Stamp) := []
  accepted : List (StrategySignal × Stamp) := []

namespace InstanceRun

/-- What a callback that emits `signals` appends to the buffer. -/
def appended (r : InstanceRun) (signals : List StrategySignal) : List StrategySignal :=
  (r.inst.emit signals).emitted.drop r.inst.emitted.length

/-- An operation of the lifecycle, with the callback that it runs where it is `reached`. -/
def operate (r : InstanceRun) (reached : Bool) (outcome : CallbackOutcome)
    (operation : StrategyInstance → StrategyMetrics → Option String → Effect) : InstanceRun :=
  if reached then
    let (_, inst, metrics) := operation (r.inst.emit outcome.emits) r.metrics outcome.raises
    { r with inst := inst, metrics := metrics, emitted := r.emitted ++ r.appended outcome.emits }
  else
    let (_, inst, metrics) := operation r.inst r.metrics outcome.raises
    { r with inst := inst, metrics := metrics }

/-- An event; where the callback returns, the buffer is looked at from its length before the callback on. -/
def dispatch (r : InstanceRun) (eventTimestamp : Stamp) (outcome : CallbackOutcome) : InstanceRun :=
  if r.inst.state ≠ .running then r
  else
    let (result, inst, metrics) := r.inst.dispatchLocked r.metrics outcome eventTimestamp
    let appended := r.appended outcome.emits
    let looked := if outcome.raises.isNone then appended else []
    { inst := inst
      metrics := metrics
      emitted := r.emitted ++ appended
      considered := r.considered ++ looked.map fun signal => (signal, eventTimestamp)
      accepted := r.accepted ++ (result.toOption.getD []).map fun signal => (signal, eventTimestamp) }

/-- Whether a call runs a callback of the lifecycle. -/
def reaches (r : InstanceRun) : InstanceCall → Bool
  | .initializeOnce _ => !r.inst.initialized && r.inst.state = .created
  | .start _ => r.inst.initialized && r.inst.state = .created
  | .stop _ => r.inst.state.Live
  | _ => false

def next (r : InstanceRun) (call : InstanceCall) : InstanceRun :=
  match call with
  | .initializeOnce outcome => r.operate (r.reaches call) outcome StrategyInstance.initializeOnce
  | .start outcome => r.operate (r.reaches call) outcome StrategyInstance.start
  | .event t outcome => r.dispatch t outcome
  | .pause => r.operate false {} fun inst m _ => inst.pause m
  | .resume => r.operate false {} fun inst m _ => inst.resume m
  | .stop outcome => r.operate (r.reaches call) outcome StrategyInstance.stop
  | .markFailed reason => r.operate false {} fun inst m _ => inst.fail m reason

end InstanceRun

/-! ### The same signal -/

/-- Two signals that an instance shall accept once: the event timestamps, the instruments, the actions and the reasons
agree. -/
def SameSignal (p q : StrategySignal × Stamp) : Prop :=
  p.2.instant = q.2.instant ∧ p.1.instrumentId = q.1.instrumentId ∧ p.1.action = q.1.action ∧ p.1.reason = q.1.reason

instance : DecidableRel SameSignal := fun p q => by unfold SameSignal; infer_instance

instance : IsTrans (StrategySignal × Stamp) SameSignal where
  trans := by
    rintro a b c ⟨ht, hi, ha, hr⟩ ⟨ht', hi', ha', hr'⟩
    exact ⟨ht.trans ht', hi.trans hi', ha.trans ha', hr.trans hr'⟩

/-- The key of a signal that was offered. -/
def offeredKey (p : StrategySignal × Stamp) : String := signalDedupKey p.1 p.2

/-- **The key holds no reason.** -/
theorem signalDedupKey_reason (signal : StrategySignal) (reason : String) (t : Stamp) :
    signalDedupKey { signal with reason := reason } t = signalDedupKey signal t := rfl

/-- The keys tell `p` from what was offered before: its key is remembered exactly where the same signal was offered. -/
structure Tellable (history : List (StrategySignal × Stamp)) (p : StrategySignal × Stamp) : Prop where
  fresh : Lru.Recalled 100000 (history.map offeredKey) (offeredKey p) → ∃ q ∈ history, SameSignal q p
  kept : (∃ q ∈ history, SameSignal q p) → Lru.Recalled 100000 (history.map offeredKey) (offeredKey p)

/-- The signals offered before are of the strategy of `p`; those with its instrument, its action and its instant have its
reason and the very time of its event; and none of them has another hashed text with the same hash. -/
structure OneReason (history : List (StrategySignal × Stamp)) (p : StrategySignal × Stamp) : Prop where
  strategyId : ∀ q ∈ history, q.1.strategyId = p.1.strategyId
  strategyVersion : ∀ q ∈ history, q.1.strategyVersion = p.1.strategyVersion
  strategyConfigHash : ∀ q ∈ history, q.1.strategyConfigHash = p.1.strategyConfigHash
  reason : ∀ q ∈ history, q.2.instant = p.2.instant → q.1.instrumentId = p.1.instrumentId → q.1.action = p.1.action →
    q.1.reason = p.1.reason ∧ q.2 = p.2
  collision : ∀ q ∈ history, offeredKey q = offeredKey p → q.1.identityText q.2.val = p.1.identityText p.2.val

/-- **One reason for each instrument and action**, and no more keys than are remembered. -/
theorem tellable_of_oneReason {history : List (StrategySignal × Stamp)} {p : StrategySignal × Stamp}
    (h : OneReason history p) (hcard : (history.map offeredKey).toFinset.card ≤ 100000) : Tellable history p := by
  have hrecalled := Lru.recalled_iff_mem (a := offeredKey p) hcard
  constructor
  · intro hkey
    obtain ⟨q, hq, hsame⟩ := List.mem_map.mp (hrecalled.mp hkey)
    obtain ⟨hinstrument, haction, htime⟩ := Signal.identityText_inj (h.strategyId q hq) (h.strategyVersion q hq)
      (h.strategyConfigHash q hq) (h.collision q hq hsame)
    have hinstant : q.2.instant = p.2.instant := congrArg DateTime.instant htime
    exact ⟨q, hq, hinstant, hinstrument, haction, (h.reason q hq hinstant hinstrument haction).1⟩
  · rintro ⟨q, hq, hinstant, hinstrument, haction, -⟩
    have htime := (h.reason q hq hinstant hinstrument haction).2
    refine hrecalled.mpr (List.mem_map.mpr ⟨q, hq, ?_⟩)
    rw [offeredKey, offeredKey, htime, signalDedupKey, signalDedupKey, StrategySignal.identityKey,
      StrategySignal.identityKey, h.strategyId q hq, h.strategyVersion q hq, h.strategyConfigHash q hq, hinstrument,
      haction]

/-! ### The signals of an event -/

theorem acceptSignal_of_valid {identity : StrategyIdentity} {allowedInstruments : Option (List UUID)} {t : Stamp}
    {signal : StrategySignal} (hvalid : (validateSignal signal identity allowedInstruments t).valid = true)
    (a : Acceptance) :
    (acceptSignal identity allowedInstruments t a signal).seen =
        Lru.use (some 100000) a.seen (signalDedupKey signal t) ∧
      (acceptSignal identity allowedInstruments t a signal).accepted =
        a.accepted ++ if signalDedupKey signal t ∈ a.seen then [] else [signal] := by
  have hnot : ¬(validateSignal signal identity allowedInstruments t).valid = false := by
    rw [hvalid]
    exact Bool.noConfusion
  constructor
  · rw [acceptSignal_seen, if_neg hnot]
    rfl
  · unfold acceptSignal
    dsimp only
    rw [if_neg hnot]
    by_cases hseen : signalDedupKey signal t ∈ a.seen
    · rw [if_pos hseen, if_pos hseen, List.append_nil]
    · rw [if_neg hseen, if_neg hseen]

/-- A signal that follows one with its key is dropped. -/
theorem acceptSignal_of_key {identity : StrategyIdentity} {allowedInstruments : Option (List UUID)} {t : Stamp}
    {first second : StrategySignal} (hfirst : (validateSignal first identity allowedInstruments t).valid = true)
    (hsecond : (validateSignal second identity allowedInstruments t).valid = true)
    (hkey : signalDedupKey second t = signalDedupKey first t) (a : Acceptance) :
    (acceptSignal identity allowedInstruments t (acceptSignal identity allowedInstruments t a first) second).accepted =
      (acceptSignal identity allowedInstruments t a first).accepted := by
  obtain ⟨hseen, -⟩ := acceptSignal_of_valid hfirst a
  obtain ⟨-, haccepted⟩ := acceptSignal_of_valid hsecond (acceptSignal identity allowedInstruments t a first)
  rw [haccepted, hseen, hkey, if_pos (Lru.mem_use_self (by decide)), List.append_nil]

section Event

variable {identity : StrategyIdentity} {allowedInstruments : Option (List UUID)} {t : Stamp}
  {history accepted : List (StrategySignal × Stamp)} {seen : List String} {m : StrategyMetrics}

/-- **What is accepted of an event** whose keys tell its signals apart. -/
theorem acceptSignals_eq (hseen : seen = (history.map offeredKey).foldl (Lru.use (some 100000)) [])
    (hsame : ∀ q, (∃ p ∈ accepted, SameSignal p q) ↔ ∃ p ∈ history, SameSignal p q) (emits : List StrategySignal)
    (hvalid : ∀ signal ∈ emits, (validateSignal signal identity allowedInstruments t).valid = true)
    (htell : ∀ before signal after, emits = before ++ signal :: after →
      Tellable (history ++ before.map fun s => (s, t)) (signal, t)) :
    (emits.foldl (acceptSignal identity allowedInstruments t) ⟨[], seen, m⟩).seen =
        ((history ++ emits.map fun s => (s, t)).map offeredKey).foldl (Lru.use (some 100000)) [] ∧
      (emits.foldl (acceptSignal identity allowedInstruments t) ⟨[], seen, m⟩).accepted.map (fun s => (s, t)) =
        firsts SameSignal accepted (emits.map fun s => (s, t)) := by
  induction emits using List.reverseRecOn with
  | nil =>
    refine ⟨?_, rfl⟩
    rw [List.map_nil, List.append_nil]
    exact hseen
  | append_singleton emits signal ih =>
    have hbefore : ∀ s ∈ emits, (validateSignal s identity allowedInstruments t).valid = true := by
      intro s hs
      exact hvalid s (List.mem_append_left _ hs)
    obtain ⟨hseen', haccepted⟩ := ih hbefore fun before s after hemits =>
      htell before s (after ++ [signal]) (by rw [hemits, List.append_assoc, List.cons_append])
    obtain ⟨huse, haccept⟩ := acceptSignal_of_valid (hvalid signal (List.mem_append_right _ List.mem_cons_self))
      (emits.foldl (acceptSignal identity allowedInstruments t) ⟨[], seen, m⟩)
    have hknown : signalDedupKey signal t ∈
          (emits.foldl (acceptSignal identity allowedInstruments t) ⟨[], seen, m⟩).seen ↔
        ∃ p ∈ accepted ++ emits.map fun s => (s, t), SameSignal p (signal, t) := by
      rw [hseen', Lru.mem_foldl_use_iff (by decide)]
      have htold := htell emits signal [] rfl
      have hrecalled : Lru.Recalled 100000 _ (offeredKey (signal, t)) ↔ _ := ⟨htold.fresh, htold.kept⟩
      rw [offeredKey] at hrecalled
      rw [hrecalled]
      simp only [List.mem_append, or_and_right, exists_or, hsame]
    have hemits : ((emits ++ [signal]).map fun s => (s, t)) = (emits.map fun s => (s, t)) ++ [(signal, t)] := by
      rw [List.map_append, List.map_singleton]
    rw [List.foldl_append, List.foldl_cons, List.foldl_nil, hemits]
    constructor
    · rw [huse, hseen', ← List.append_assoc]
      generalize (history ++ emits.map fun s => (s, t)) = offered
      rw [List.map_append, List.foldl_append]
      rfl
    · rw [haccept, List.map_append, haccepted, firsts_concat, if_congr hknown rfl rfl]
      split_ifs <;> rfl

end Event

/-! ### What the operations keep -/

section Operations

variable (inst : StrategyInstance) (m : StrategyMetrics)

theorem moveTo_cases (target : StrategyRunState) :
    (∃ e, inst.moveTo target = .error e) ∨ ∃ state, inst.moveTo target = .ok { inst with state := state } := by
  unfold StrategyInstance.moveTo
  cases inst.state.transition target with
  | error e => exact .inl ⟨e, rfl⟩
  | ok state => exact .inr ⟨state, rfl⟩

theorem seen_fail (reason : String) : (inst.fail m reason).2.1.seen = inst.seen := by
  unfold StrategyInstance.fail
  split_ifs
  · rfl
  · obtain ⟨e, hmove⟩ | ⟨state, hmove⟩ := moveTo_cases inst .failed <;> rw [hmove]

theorem seen_failAndRaise (reason text : String) : (inst.failAndRaise m reason text).2.1.seen = inst.seen := by
  have hfail := seen_fail inst m reason
  unfold StrategyInstance.failAndRaise
  split <;> next h => rw [h] at hfail; exact hfail

theorem seen_pause : (inst.pause m).2.1.seen = inst.seen := by
  obtain ⟨-, m', h⟩ | ⟨-, e, h⟩ := pause_cases inst m <;> rw [h]

theorem seen_resume : (inst.resume m).2.1.seen = inst.seen := by
  obtain ⟨-, m', h⟩ | ⟨-, e, h⟩ := resume_cases inst m <;> rw [h]

theorem seen_stop (raises : Option String) : (inst.stop m raises).2.1.seen = inst.seen := by
  obtain ⟨-, -, m', h⟩ | ⟨-, -, e, reason, m', h⟩ | ⟨-, e, h⟩ := stop_cases inst m raises <;> rw [h]

theorem seen_start (raises : Option String) : (inst.start m raises).2.1.seen = inst.seen := by
  unfold StrategyInstance.start
  split_ifs
  · rfl
  · rfl
  · obtain ⟨e, hmove⟩ | ⟨state, hmove⟩ := moveTo_cases inst .running <;> rw [hmove]
    cases raises with
    | none => rfl
    | some exc => exact seen_failAndRaise { inst with state := state } m exc ("on_start failed: " ++ exc)

theorem seen_initializeOnce (raises : Option String) : (inst.initializeOnce m raises).2.1.seen = inst.seen := by
  unfold StrategyInstance.initializeOnce
  split_ifs
  · rfl
  · rfl
  · obtain ⟨e, hmove⟩ | ⟨state, hmove⟩ := moveTo_cases inst .initializing <;> rw [hmove]
    cases raises with
    | none =>
      obtain ⟨e, hcreated⟩ | ⟨state', hcreated⟩ := moveTo_cases { inst with state := state } .created <;>
        simp only [hcreated]
    | some exc => exact seen_failAndRaise { inst with state := state } m exc ("initialize failed: " ++ exc)

/-- The signals of an event that are valid are all appended. -/
theorem emit_of_valid {inst : StrategyInstance} {emits : List StrategySignal} {t : Stamp}
    (hvalid : ∀ signal ∈ emits, (validateSignal signal inst.identity inst.allowedInstruments t).valid = true) :
    (inst.emit emits).emitted = inst.emitted ++ emits := by
  have hkept : ∀ signal ∈ emits, (signal.strategyId = inst.identity.strategyId &&
      signal.strategyVersion = inst.identity.version && signal.strategyConfigHash = inst.identity.configHash) = true := by
    intro signal hsignal
    have hv := hvalid signal hsignal
    unfold validateSignal at hv
    by_cases hid : signal.strategyId = inst.identity.strategyId
    · by_cases hversion : signal.strategyVersion = inst.identity.version
      · by_cases hhash : signal.strategyConfigHash = inst.identity.configHash
        · simp [hid, hversion, hhash]
        · rw [if_neg (not_not.mpr hid), if_neg (not_not.mpr hversion), if_pos hhash] at hv
          cases hv
      · rw [if_neg (not_not.mpr hid), if_pos hversion] at hv
        cases hv
    · rw [if_pos hid] at hv
      cases hv
  show inst.emitted ++ emits.filter _ = inst.emitted ++ emits
  rw [List.filter_eq_self.mpr hkept]

end Operations

/-! ### Runs -/

namespace InstanceRun

/-- The signals that the callback of an event emits are valid. -/
def Valid (r : InstanceRun) : InstanceCall → Prop
  | .event t outcome => ∀ signal ∈ outcome.emits,
      (validateSignal signal r.inst.identity r.inst.allowedInstruments t).valid = true
  | _ => True

/-- A callback of the lifecycle emits nothing; a callback of an event that raises has emitted nothing, and no signal of
an earlier event is in the buffer; the keys tell the signals of any other event apart. -/
def Told (r : InstanceRun) (call : InstanceCall) : Prop :=
  match call with
  | .initializeOnce outcome => r.reaches call = true → r.appended outcome.emits = []
  | .start outcome => r.reaches call = true → r.appended outcome.emits = []
  | .stop outcome => r.reaches call = true → r.appended outcome.emits = []
  | .event t outcome => r.inst.state = .running →
      (outcome.raises ≠ none → outcome.emits = [] ∧ r.inst.emitted = []) ∧
      (outcome.raises = none → ∀ before signal after, outcome.emits = before ++ signal :: after →
        Tellable (r.considered ++ before.map fun s => (s, t)) (signal, t))
  | _ => True

/-- What a call owes: of an event the first of each signal not accepted before, in order, and a buffer that holds what
the event emitted; every signal that was emitted has been looked at once. -/
structure Accounted (r : InstanceRun) (call : InstanceCall) : Prop where
  accepted : ∀ t outcome, call = .event t outcome → r.inst.state = .running →
    (r.inst.dispatchLocked r.metrics outcome t).1 =
      .ok ((firsts SameSignal r.accepted (outcome.emits.map fun s => (s, t))).map Prod.fst)
  buffer : ∀ t outcome, call = .event t outcome → r.inst.state = .running → (r.next call).inst.emitted = outcome.emits
  considered : (r.next call).considered.map Prod.fst = (r.next call).emitted

/-- What a run keeps: the keys are those of the signals that were looked at, these are the ones that were emitted, and
each is the same signal as one that was accepted. -/
structure Tracked (r : InstanceRun) : Prop where
  seen : r.inst.seen = (r.considered.map offeredKey).foldl (Lru.use (some 100000)) []
  looked : r.considered.map Prod.fst = r.emitted
  same : ∀ q, (∃ p ∈ r.accepted, SameSignal p q) ↔ ∃ p ∈ r.considered, SameSignal p q

variable {r : InstanceRun} {outcome : CallbackOutcome}

/-- A call of the lifecycle whose callback emits nothing. -/
theorem operate_spec {reached : Bool} {operation : StrategyInstance → StrategyMetrics → Option String → Effect}
    (hseen : ∀ inst m raises, (operation inst m raises).2.1.seen = inst.seen)
    (hnothing : reached = true → r.appended outcome.emits = []) :
    (r.operate reached outcome operation).inst.seen = r.inst.seen ∧
      (r.operate reached outcome operation).emitted = r.emitted ∧
      (r.operate reached outcome operation).considered = r.considered ∧
      (r.operate reached outcome operation).accepted = r.accepted := by
  cases reached with
  | false => exact ⟨hseen _ _ _, rfl, rfl, rfl⟩
  | true =>
    refine ⟨hseen _ _ _, ?_, rfl, rfl⟩
    show r.emitted ++ r.appended outcome.emits = r.emitted
    rw [hnothing rfl, List.append_nil]

theorem Tracked.operate (h : Tracked r) {reached : Bool}
    {operation : StrategyInstance → StrategyMetrics → Option String → Effect}
    (hseen : ∀ inst m raises, (operation inst m raises).2.1.seen = inst.seen)
    (hnothing : reached = true → r.appended outcome.emits = []) : Tracked (r.operate reached outcome operation) := by
  obtain ⟨hs, he, hc, ha⟩ := operate_spec hseen hnothing
  constructor
  · rw [hs, hc]
    exact h.seen
  · rw [hc, he]
    exact h.looked
  · intro q
    rw [ha, hc]
    exact h.same q

variable {t : Stamp}

/-- An event of which the callback raises, having emitted nothing, on an empty buffer. -/
theorem dispatch_of_raises {exc : String} (hrunning : r.inst.state = .running) (hraises : outcome.raises = some exc)
    (hemits : outcome.emits = []) (hbuffer : r.inst.emitted = []) :
    (r.inst.dispatchLocked r.metrics outcome t).1 = .ok [] ∧
      (r.dispatch t outcome).inst.emitted = [] ∧ (r.dispatch t outcome).inst.seen = r.inst.seen ∧
      (r.dispatch t outcome).emitted = r.emitted ∧ (r.dispatch t outcome).considered = r.considered ∧
      (r.dispatch t outcome).accepted = r.accepted := by
  have hnothing : r.inst.emit outcome.emits = r.inst := by
    rw [hemits, StrategyInstance.emit, List.filter_nil, List.append_nil]
  have hlocked : r.inst.dispatchLocked r.metrics outcome t =
      (.ok [], { r.inst with state := .failed, failReason := some exc },
        { r.metrics with
          callbackCount := r.metrics.callbackCount + 1
          strategiesFailed := r.metrics.strategiesFailed + 1 }) := by
    unfold StrategyInstance.dispatchLocked
    rw [if_neg (not_not.mpr hrunning), hraises]
    dsimp only
    rw [hnothing, fail_of_running hrunning]
  have happended : r.appended outcome.emits = [] := by
    rw [appended, hnothing, List.drop_length]
  rw [dispatch, if_neg (not_not.mpr hrunning), hlocked, happended, hraises]
  simp [hbuffer, Except.toOption]

/-- An event of which the callback returns, with valid signals. -/
theorem dispatch_of_returns (hrunning : r.inst.state = .running) (hraises : outcome.raises = none)
    (hvalid : r.Valid (.event t outcome)) :
    ∃ a : Acceptance,
      a = outcome.emits.foldl (acceptSignal r.inst.identity r.inst.allowedInstruments t)
        ⟨[], r.inst.seen, { r.metrics with callbackCount := r.metrics.callbackCount + 1 }⟩ ∧
      (r.inst.dispatchLocked r.metrics outcome t).1 = .ok a.accepted ∧
      (r.dispatch t outcome).inst.emitted = outcome.emits ∧ (r.dispatch t outcome).inst.seen = a.seen ∧
      (r.dispatch t outcome).emitted = r.emitted ++ outcome.emits ∧
      (r.dispatch t outcome).considered = r.considered ++ outcome.emits.map (fun s => (s, t)) ∧
      (r.dispatch t outcome).accepted = r.accepted ++ a.accepted.map (fun s => (s, t)) := by
  have hdrop : (r.inst.emit outcome.emits).emitted.drop r.inst.emitted.length = outcome.emits := by
    rw [emit_of_valid hvalid, List.drop_left]
  refine ⟨_, rfl, ?_⟩
  rw [dispatch, if_neg (not_not.mpr hrunning), appended, hdrop, hraises]
  unfold StrategyInstance.dispatchLocked
  rw [if_neg (not_not.mpr hrunning), hraises]
  dsimp only
  unfold StrategyInstance.acceptSignals
  rw [hdrop]
  exact ⟨rfl, rfl, rfl, rfl, rfl, rfl⟩

/-- **One event.** -/
theorem Tracked.dispatch (h : Tracked r) (hvalid : r.Valid (.event t outcome)) (htold : r.Told (.event t outcome)) :
    Tracked (r.next (.event t outcome)) ∧ r.Accounted (.event t outcome) := by
  by_cases hrunning : r.inst.state = .running
  · obtain ⟨hraised, hreturned⟩ := htold hrunning
    cases hraises : outcome.raises with
    | some exc =>
      obtain ⟨hemits, hbuffer⟩ := hraised (by rw [hraises]; exact Option.some_ne_none exc)
      obtain ⟨hresult, hempty, hs, he, hc, ha⟩ := dispatch_of_raises (t := t) hrunning hraises hemits hbuffer
      refine ⟨⟨?_, ?_, ?_⟩, ⟨?_, ?_, ?_⟩⟩
      · show (r.dispatch t outcome).inst.seen = _
        rw [hs, h.seen, next, hc]
      · rw [next, hc, he]
        exact h.looked
      · intro q
        rw [next, ha, hc]
        exact h.same q
      · rintro t outcome ⟨rfl, rfl⟩ -
        rw [hresult, hemits]
        rfl
      · rintro t outcome ⟨rfl, rfl⟩ -
        rw [next, hempty, hemits]
      · rw [next, hc, he]
        exact h.looked
    | none =>
      obtain ⟨a, hfold, hresult, hbuffer, hs, he, hc, ha⟩ := dispatch_of_returns hrunning hraises hvalid
      obtain ⟨hseen, haccepted⟩ := acceptSignals_eq
        (m := { r.metrics with callbackCount := r.metrics.callbackCount + 1 }) h.seen h.same outcome.emits hvalid
        (hreturned hraises)
      rw [← hfold] at hseen haccepted
      have hlooked : (r.next (.event t outcome)).considered.map Prod.fst = (r.next (.event t outcome)).emitted := by
        rw [next, hc, he, List.map_append, h.looked, List.map_map]
        congr 1
        exact List.map_id _
      refine ⟨⟨?_, hlooked, ?_⟩, ⟨?_, ?_, hlooked⟩⟩
      · rw [next, hs, hc, hseen]
      · intro q
        rw [next, ha, hc, haccepted, exists_firsts_iff]
        simp only [List.mem_append, or_and_right, exists_or, h.same]
      · rintro t outcome ⟨rfl, rfl⟩ -
        rw [hresult, ← haccepted, List.map_map]
        exact congrArg Except.ok (List.map_id _).symm
      · rintro t outcome ⟨rfl, rfl⟩ -
        rw [next, hbuffer]
  · have hstays : r.next (.event t outcome) = r := by
      rw [next, InstanceRun.dispatch, if_pos hrunning]
    refine ⟨by rw [hstays]; exact h, ⟨?_, ?_, ?_⟩⟩
    · rintro t outcome - hr
      exact absurd hr hrunning
    · rintro t outcome - hr
      exact absurd hr hrunning
    · rw [hstays]
      exact h.looked

/-- **One call.** -/
theorem Tracked.step (h : Tracked r) (call : InstanceCall) (hvalid : r.Valid call) (htold : r.Told call) :
    Tracked (r.next call) ∧ r.Accounted call := by
  have hlifecycle : (∀ t outcome, call ≠ .event t outcome) → Tracked (r.next call) →
      Tracked (r.next call) ∧ r.Accounted call := by
    intro hcall hnext
    exact ⟨hnext, fun t outcome heq => absurd heq (hcall t outcome), fun t outcome heq => absurd heq (hcall t outcome),
      hnext.looked⟩
  cases call with
  | event t outcome => exact h.dispatch hvalid htold
  | initializeOnce outcome => exact hlifecycle (by simp) (h.operate seen_initializeOnce htold)
  | start outcome => exact hlifecycle (by simp) (h.operate seen_start htold)
  | stop outcome => exact hlifecycle (by simp) (h.operate seen_stop htold)
  | pause => exact hlifecycle (by simp) (h.operate (fun inst m _ => seen_pause inst m) Bool.noConfusion)
  | resume => exact hlifecycle (by simp) (h.operate (fun inst m _ => seen_resume inst m) Bool.noConfusion)
  | markFailed reason =>
    exact hlifecycle (by simp) (h.operate (fun inst m _ => seen_fail inst m reason) Bool.noConfusion)

/-- A new instance. -/
theorem tracked_new {definition : StrategyDefinition} {configValues : Option StrategyConfig} {inst : StrategyInstance}
    (hnew : StrategyInstance.new definition configValues = .ok inst) : Tracked { inst := inst } := by
  unfold StrategyInstance.new at hnew
  dsimp only at hnew
  by_cases hhash : computeConfigHash (configValues.getD definition.config) ≠ definition.identity.configHash
  · rw [if_pos hhash] at hnew
    cases hnew
  · rw [if_neg hhash] at hnew
    cases hnew
    exact ⟨rfl, rfl, fun q => Iff.rfl⟩

/-- **The signals of a run.**  Where the keys tell the signals apart and no callback emits outside an event or before it
raises, each event accepts the first of each signal, in order, and leaves its own signals in the buffer, and every signal
is looked at once. -/
theorem accounted_of_told {definition : StrategyDefinition} {configValues : Option StrategyConfig}
    {inst : StrategyInstance} (hnew : StrategyInstance.new definition configValues = .ok inst) {calls : List InstanceCall}
    (hrun : Along next (fun r call => r.Valid call ∧ r.Told call) { inst := inst } calls) :
    Along next Accounted { inst := inst } calls :=
  hrun.steps (fun _ call h hG => (h.step call hG.1 hG.2).1) (fun _ call h hG => (h.step call hG.1 hG.2).2)
    (tracked_new hnew)

/-- Two signals of an event that differ in their reasons are not told apart. -/
theorem not_accounted_of_reason {first : StrategySignal} {reason : String} (hrunning : r.inst.state = .running)
    (hvalid : r.Valid (.event t { emits := [first, { first with reason := reason }] })) (hnone : r.accepted = [])
    (hreason : first.reason ≠ reason) : ¬r.Accounted (.event t { emits := [first, { first with reason := reason }] }) := by
  intro h
  obtain ⟨a, hfold, hresult, -⟩ := dispatch_of_returns hrunning rfl hvalid
  have hone : a.accepted.length ≤ 1 := by
    have hfirst := hvalid first List.mem_cons_self
    have hsecond := hvalid { first with reason := reason } (List.mem_cons_of_mem _ List.mem_cons_self)
    rw [hfold, List.foldl_cons, List.foldl_cons, List.foldl_nil,
      acceptSignal_of_key hfirst hsecond (signalDedupKey_reason first reason t), (acceptSignal_of_valid hfirst _).2]
    split_ifs <;> simp
  have htwo : (firsts SameSignal r.accepted [(first, t), ({ first with reason := reason }, t)]).length = 2 := by
    rw [hnone]
    simp [firsts, SameSignal, hreason]
  have haccepted := hresult.symm.trans (h.accepted t _ rfl hrunning)
  have hlength := congrArg List.length (Except.ok.inj haccepted)
  rw [List.length_map, List.map_cons, List.map_cons, List.map_nil, htwo] at hlength
  omega

/-- A signal of the sample strategy, with its reason. -/
def signalFor (reason : String) : StrategySignal where
  signalId := ⟨3⟩
  strategyId := sampleDefinition.identity.strategyId
  strategyVersion := sampleDefinition.identity.version
  strategyConfigHash := sampleDefinition.identity.configHash
  instrumentId := ⟨7⟩
  action := .buy
  timestamp := sampleNow
  confidence := ⟨false, 9, -1⟩
  reason := reason
  metadata := []
  confidence_range := nine_tenths_range
  timestamp_aware := sampleNow_aware

def eventTime : Stamp := ⟨sampleNow, sampleNow_aware⟩

theorem valid_signalFor {reason : String} (h : blank reason = false) :
    (validateSignal (signalFor reason) sampleDefinition.identity none eventTime).valid = true := by
  have hskew : ¬(5000000 : ℤ) < (signalFor reason).timestamp.instant - eventTime.instant := by
    show ¬(5000000 : ℤ) < sampleNow.instant - sampleNow.instant
    omega
  have hage : ¬(5000000 : ℤ) < eventTime.instant - (signalFor reason).timestamp.instant := by
    show ¬(5000000 : ℤ) < sampleNow.instant - sampleNow.instant
    omega
  have hid : ¬(signalFor reason).strategyId ≠ sampleDefinition.identity.strategyId := not_not.mpr rfl
  have hversion : ¬(signalFor reason).strategyVersion ≠ sampleDefinition.identity.version := not_not.mpr rfl
  have hhash : ¬(signalFor reason).strategyConfigHash ≠ sampleDefinition.identity.configHash := not_not.mpr rfl
  have hreason : ¬blank (signalFor reason).reason = true := by
    show ¬blank reason = true
    rw [h]
    exact Bool.noConfusion
  unfold validateSignal
  rw [if_neg hid, if_neg hversion, if_neg hhash, if_neg (not_not.mpr (signalFor reason).confidence_range),
    if_neg hreason, if_neg (by exact Bool.noConfusion), if_neg hskew, if_neg hage]

/-- The instance of the sample strategy. -/
def sampleInstance : StrategyInstance := { identity := sampleDefinition.identity, allowedInstruments := none }

theorem new_sampleDefinition : StrategyInstance.new sampleDefinition none = .ok sampleInstance := by
  have hhash : ¬computeConfigHash (none.getD sampleDefinition.config) ≠ sampleDefinition.identity.configHash :=
    not_not.mpr rfl
  unfold StrategyInstance.new
  dsimp only
  rw [if_neg hhash]
  rfl

/-- The signal for an instrument. -/
def signalOn (instrumentId : UUID) : StrategySignal := { signalFor "crossover" with instrumentId := instrumentId }

/-- It is started, and its callback emits two signals; a second event of that time brings one of them again. -/
def overlapping : List InstanceCall :=
  [.initializeOnce {}, .start {}, .event eventTime { emits := [signalOn ⟨7⟩, signalOn ⟨8⟩] },
    .event eventTime { emits := [signalOn ⟨8⟩, signalOn ⟨9⟩] }]

theorem valid_signalOn (instrumentId : UUID) :
    (validateSignal (signalOn instrumentId) sampleDefinition.identity none eventTime).valid = true :=
  @valid_signalFor "crossover" (by decide)

/-- The keys of the three instruments differ. -/
theorem offeredKey_signalOn : ∀ i ∈ ([⟨7⟩, ⟨8⟩, ⟨9⟩] : List UUID), ∀ j ∈ ([⟨7⟩, ⟨8⟩, ⟨9⟩] : List UUID),
    offeredKey (signalOn i, eventTime) = offeredKey (signalOn j, eventTime) → i = j := by
  decide +kernel

/-- The events of a run over some instruments whose keys differ. -/
theorem told_signalOn {looked ids : List UUID}
    (hconsidered : r.considered = looked.map fun i => (signalOn i, eventTime)) (hlength : looked.length + ids.length ≤ 100000)
    (hkeys : ∀ i ∈ looked ++ ids, ∀ j ∈ looked ++ ids,
      offeredKey (signalOn i, eventTime) = offeredKey (signalOn j, eventTime) → i = j) :
    r.Told (.event eventTime { emits := ids.map signalOn }) := by
  intro _
  refine ⟨fun hraises => absurd rfl hraises, fun _ before signal after hemits => ?_⟩
  obtain ⟨front, rest, rfl, rfl, hrest⟩ := List.map_eq_append_iff.mp hemits
  obtain ⟨j, back, rfl, rfl, -⟩ := List.map_eq_cons_iff.mp hrest
  have hhistory : r.considered ++ (front.map signalOn).map (fun s => (s, eventTime)) =
      (looked ++ front).map fun i => (signalOn i, eventTime) := by
    rw [hconsidered, List.map_append, List.map_map]
    rfl
  rw [hhistory]
  refine tellable_of_oneReason ⟨?_, ?_, ?_, ?_, ?_⟩ ?_
  · exact List.forall_mem_map.mpr fun i _ => rfl
  · exact List.forall_mem_map.mpr fun i _ => rfl
  · exact List.forall_mem_map.mpr fun i _ => rfl
  · exact List.forall_mem_map.mpr fun i _ _ _ _ => ⟨rfl, rfl⟩
  · refine List.forall_mem_map.mpr fun i hi hkey => ?_
    have hmem : i ∈ looked ++ (front ++ j :: back) := by
      rw [← List.append_assoc]
      exact List.mem_append_left _ hi
    rw [hkeys i hmem j (by simp) hkey]
  · refine (List.toFinset_card_le _).trans ?_
    simp only [List.length_map, List.length_append, List.length_cons] at hlength ⊢
    omega

theorem accounted_of_told_overlapping : Along next Accounted { inst := sampleInstance } overlapping := by
  have hvalid : ∀ {r : InstanceRun} (ids : List UUID), r.inst.identity = sampleDefinition.identity →
      r.inst.allowedInstruments = none → r.Valid (.event eventTime { emits := ids.map signalOn }) := by
    intro r ids hidentity hallowed signal hsignal
    obtain ⟨i, -, rfl⟩ := List.mem_map.mp hsignal
    rw [hidentity, hallowed]
    exact valid_signalOn i
  have hkeys : ∀ ids : List UUID, ids ⊆ [⟨7⟩, ⟨8⟩, ⟨9⟩] → ∀ i ∈ ids, ∀ j ∈ ids,
      offeredKey (signalOn i, eventTime) = offeredKey (signalOn j, eventTime) → i = j :=
    fun ids h i hi j hj => offeredKey_signalOn i (h hi) j (h hj)
  have hfirst : (next (next { inst := sampleInstance } (.initializeOnce {})) (.start {})).Valid
      (.event eventTime { emits := [signalOn ⟨7⟩, signalOn ⟨8⟩] }) := hvalid [⟨7⟩, ⟨8⟩] rfl rfl
  obtain ⟨-, -, -, -, -, -, hconsidered, -⟩ := dispatch_of_returns rfl rfl hfirst
  refine accounted_of_told new_sampleDefinition ⟨⟨trivial, fun _ => rfl⟩, ⟨trivial, fun _ => rfl⟩,
    ⟨hfirst, @told_signalOn _ [] [⟨7⟩, ⟨8⟩] rfl (by decide) (hkeys _ (by decide))⟩,
    ⟨hvalid [⟨8⟩, ⟨9⟩] rfl rfl, @told_signalOn _ [⟨7⟩, ⟨8⟩] [⟨8⟩, ⟨9⟩] hconsidered (by decide)
      (hkeys _ (by decide))⟩, trivial⟩

/-- It is started, and its callback emits two signals with distinct reasons. -/
def twoReasons : List InstanceCall :=
  [.initializeOnce {}, .start {}, .event eventTime { emits := [signalFor "crossover", signalFor "momentum"] }]

/-- The second signal has the key of the first and is dropped. -/
theorem not_accounted : ¬∀ (definition : StrategyDefinition) (configValues : Option StrategyConfig)
    (inst : StrategyInstance), StrategyInstance.new definition configValues = .ok inst → ∀ calls : List InstanceCall,
    Along next Valid { inst := inst } calls → Along next Accounted { inst := inst } calls := by
  intro hall
  have hvalid : (run next { inst := sampleInstance } [.initializeOnce {}, .start {}]).Valid
      (.event eventTime { emits := [signalFor "crossover", signalFor "momentum"] }) := by
    intro signal hsignal
    obtain rfl | hsignal := List.mem_cons.mp hsignal
    · exact valid_signalFor (by decide)
    · rw [List.mem_singleton.mp hsignal]
      exact valid_signalFor (by decide)
  obtain ⟨-, -, hevent, -⟩ := hall _ _ _ new_sampleDefinition twoReasons ⟨trivial, trivial, hvalid, trivial⟩
  exact not_accounted_of_reason rfl hvalid rfl (by decide) hevent

end InstanceRun

end AlphaAlgo.Strategy
