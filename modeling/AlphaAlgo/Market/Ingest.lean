import Mathlib.Data.PNat.Basic
import AlphaAlgo.Lib.Lru
import AlphaAlgo.Market.Normalize
import AlphaAlgo.Market.Queue

/-!
# Ingest — the pipeline for one raw event

`ingest_raw` validates and normalizes an event, checks its symbol, and answers a tick by its key and then by its age; an
accepted tick or candle is handed to the consumers and persisted.  The key of a tick enters the table of the duplicate
detector before its age is looked at.

* `ingestRaw_step`: everything that a call can do, as one relation.
-/

namespace AlphaAlgo.Market

open Loop

/-! ### Freshness and duplicates -/

structure StaleDataDecision where
  isStale : Bool
  age : ℤ
  reason : String
  deriving DecidableEq, Repr

/-- `evaluate_staleness`, or the text of its `ValueError`. -/
def evaluateStaleness (tick : MarketTick) (now : DateTime) (maxAge : ℤ) : Except String StaleDataDecision := do
  raiseIf (now.aware = false) "now must be timezone-aware"
  raiseIf (maxAge ≤ 0) "max_age must be positive"
  let age := now.instant - tick.timestamp.instant
  if age < 0 then return ⟨true, age, "tick_timestamp_in_future"⟩
  else if maxAge < age then return ⟨true, age, "tick_timestamp_stale"⟩
  else return ⟨false, age, "tick_timestamp_fresh"⟩

abbrev TickKey := String × String

def MarketTick.key (tick : MarketTick) : TickKey := (tick.sourceBroker.val, tick.sourceSequence.val)

/-- The keys in the order of their last use. -/
structure DuplicateTickDetector where
  maxsize : Option ℕ+
  seenSequences : List TickKey
  nodup : seenSequences.Nodup
  bounded : ∀ n, maxsize = some n → seenSequences.length ≤ n

theorem toNat_pos_of_not_lt {n : ℤ} (h : ¬n < 1) : 0 < n.toNat := by omega

namespace DuplicateTickDetector

def new (maxsize : Option ℤ) : Except String DuplicateTickDetector :=
  match maxsize with
  | none => .ok ⟨none, [], List.nodup_nil, fun _ _ => Nat.zero_le _⟩
  | some n =>
    if h : n < 1 then .error "maxsize must be >= 1 or None"
    else .ok ⟨some ⟨n.toNat, toNat_pos_of_not_lt h⟩, [], List.nodup_nil, fun _ _ => Nat.zero_le _⟩

def capacity (d : DuplicateTickDetector) : Option ℕ := d.maxsize.map PNat.val

/-- The table after a use of a key. -/
def track (d : DuplicateTickDetector) (key : TickKey) : DuplicateTickDetector where
  maxsize := d.maxsize
  seenSequences := Lru.use d.capacity d.seenSequences key
  nodup := Lru.nodup_use d.nodup
  bounded n hn := by
    rw [capacity, hn]
    exact Lru.length_use_le (d.bounded n hn)

def isDuplicate (d : DuplicateTickDetector) (tick : MarketTick) : Bool × DuplicateTickDetector :=
  (decide (tick.key ∈ d.seenSequences), d.track tick.key)

theorem mem_of_track {d : DuplicateTickDetector} {key k : TickKey} (h : k ∈ (d.track key).seenSequences) :
    k = key ∨ k ∈ d.seenSequences := Lru.mem_of_use h

end DuplicateTickDetector

/-! ### The engine -/

inductive IngestStatus where
  | accepted
  | duplicate
  | stale
  | future
  | rejected
  deriving DecidableEq, Repr

structure IngestResult where
  status : IngestStatus
  reason : String
  tick : Option MarketTick := none
  candle : Option MarketCandle := none

variable {γ : Type}

/-- `hasRepository` is whether there is one; the consumers are called in order. -/
structure MarketDataEngine (γ : Type) where
  hasRepository : Bool
  allowedSymbols : Option (List String)
  maxAge : ℤ
  persistEnabled : Bool
  tickConsumers : List γ
  candleConsumers : List γ

/-- What the calls of `ingest_raw` change; `handed` is what the consumers were called with. -/
structure IngestState (γ : Type) where
  detector : DuplicateTickDetector
  metrics : MarketDataMetrics := {}
  handed : List (γ × MarketEvent) := []

/-- A call with what it meets: the reading of the clock, which consumers raise (by position) and whether persisting
does. -/
structure IngestCall where
  event : RawMarketEvent
  now : DateTime
  consumerRaises : ℕ → Bool
  persistRaises : Bool

namespace MarketDataEngine

variable (engine : MarketDataEngine γ) (call : IngestCall) (s : IngestState γ)

/-- `_safe_dispatch`: a consumer that raises does not keep the value from the others. -/
def safeDispatch (value : MarketEvent) (s : IngestState γ) (consumer : γ × ℕ) : IngestState γ :=
  { s with
    handed := s.handed ++ [(consumer.1, value)]
    metrics :=
      if call.consumerRaises consumer.2 then { s.metrics with consumerFailures := s.metrics.consumerFailures + 1 }
      else s.metrics }

def fanOut (consumers : List γ) (value : MarketEvent) : IngestState γ :=
  consumers.zipIdx.foldl (safeDispatch call value) s

def fanOutTick (tick : MarketTick) : IngestState γ := fanOut call s engine.tickConsumers (.tick tick)

def fanOutCandle (candle : MarketCandle) : IngestState γ := fanOut call s engine.candleConsumers (.candle candle)

/-- Persisting a value that `persisted` counts. -/
def persist (persisted : MarketDataMetrics → MarketDataMetrics) : IngestState γ :=
  if engine.hasRepository = false ∨ engine.persistEnabled = false then s
  else if call.persistRaises then
    { s with metrics := { s.metrics with persistenceFailures := s.metrics.persistenceFailures + 1 } }
  else { s with metrics := persisted s.metrics }

def persistTick : IngestState γ :=
  engine.persist call s fun m => { m with persistedTicks := m.persistedTicks + 1 }

def persistCandle : IngestState γ :=
  engine.persist call s fun m => { m with persistedCandles := m.persistedCandles + 1 }

/-- The outcome of a call: its answer, or what it raises, and the state after it. -/
abbrev Outcome (γ : Type) := Except String IngestResult × IngestState γ

def ingestTick (tick : MarketTick) : Outcome γ :=
  let (duplicate, detector) := s.detector.isDuplicate tick
  let s := { s with detector := detector }
  if duplicate then
    (.ok ⟨.duplicate, "duplicate", none, none⟩,
      { s with metrics := { s.metrics with duplicates := s.metrics.duplicates + 1 } })
  else
    match evaluateStaleness tick call.now engine.maxAge with
    | .error error => (.error error, s)
    | .ok decision =>
      if decision.isStale then
        if decision.reason = "tick_timestamp_in_future" then
          (.ok ⟨.future, "future_timestamp", none, none⟩,
            { s with metrics := { s.metrics with futureTimestamps := s.metrics.futureTimestamps + 1 } })
        else
          (.ok ⟨.stale, "stale", none, none⟩,
            { s with metrics := { s.metrics with staleEvents := s.metrics.staleEvents + 1 } })
      else
        (.ok ⟨.accepted, "accepted", some tick, none⟩, engine.persistTick call (engine.fanOutTick call s tick))

def ingestCandle (candle : MarketCandle) : Outcome γ :=
  (.ok ⟨.accepted, "accepted", none, some candle⟩, engine.persistCandle call (engine.fanOutCandle call s candle))

/-- An answer without a tick or a candle; `failures` of normalization are counted on top. -/
def reject (reason : String) (failures : ℕ) : Outcome γ :=
  (.ok ⟨.rejected, reason, none, none⟩,
    { s with
      metrics :=
        { s.metrics with
          normalizationFailures := s.metrics.normalizationFailures + failures
          rejectedEvents := s.metrics.rejectedEvents + 1 } })

def ingestRaw (reading : Reading) : Outcome γ :=
  match validateRawEvent call.event [] with
  | .error error => reject s ("malformed: " ++ error) 0
  | .ok _ =>
    match normalize reading call.event with
    | .error error => reject s ("normalization: " ++ error) 1
    | .ok normalized =>
      match checkSupportedSymbol normalized.symbol engine.allowedSymbols with
      | .error reason => reject s reason 0
      | .ok _ =>
        match normalized with
        | .tick tick =>
          engine.ingestTick call
            { s with metrics := { s.metrics with ticksReceived := s.metrics.ticksReceived + 1 } } tick
        | .candle candle =>
          engine.ingestCandle call
            { s with metrics := { s.metrics with candlesReceived := s.metrics.candlesReceived + 1 } } candle

end MarketDataEngine

/-! ### What a call does -/

/-- The counter of a status; an accepted event has none. -/
def MarketDataMetrics.counted (m : MarketDataMetrics) : IngestStatus → ℕ
  | .accepted => 0
  | .duplicate => m.duplicates
  | .stale => m.staleEvents
  | .future => m.futureTimestamps
  | .rejected => m.rejectedEvents

/-- The status in a call's answer, `none` for a call that raises. -/
def statusOf : Except String IngestResult → Option IngestStatus
  | .ok result => some result.status
  | .error _ => none

/-- The counters of the statuses go up by the status of an answer, if that is not `accepted`. -/
def Counted (m m' : MarketDataMetrics) (status : Option IngestStatus) : Prop :=
  ∀ other, other ≠ .accepted → m'.counted other = m.counted other + if status = some other then 1 else 0

/-- The tick that a call's event is normalized to, where its symbol is allowed. -/
def MarketDataEngine.tickOf (engine : MarketDataEngine γ) (reading : Reading) (event : RawMarketEvent) :
    Option MarketTick :=
  match validateRawEvent event [], normalize reading event with
  | .ok _, .ok (.tick tick) =>
    match checkSupportedSymbol tick.symbol.val engine.allowedSymbols with
    | .ok _ => some tick
    | .error _ => none
  | _, _ => none

/-- `evaluate_staleness` raises. -/
def Unjudged (engine : MarketDataEngine γ) (call : IngestCall) (error : String) : Prop :=
  (call.now.aware = false ∧ error = "now must be timezone-aware") ∨
    (engine.maxAge ≤ 0 ∧ error = "max_age must be positive")

/-- What a call can do. -/
inductive IngestStep (engine : MarketDataEngine γ) (reading : Reading) (call : IngestCall) (s : IngestState γ) :
    Except String IngestResult → IngestState γ → Prop
  | rejected (reason : String) (m : MarketDataMetrics) (hnone : engine.tickOf reading call.event = none)
      (hm : Counted s.metrics m (some .rejected)) :
      IngestStep engine reading call s (.ok ⟨.rejected, reason, none, none⟩) { s with metrics := m }
  | candle (candle : MarketCandle) (m : MarketDataMetrics) (hnone : engine.tickOf reading call.event = none)
      (hm : Counted s.metrics m (some .accepted)) :
      IngestStep engine reading call s (.ok ⟨.accepted, "accepted", none, some candle⟩)
        { s with metrics := m, handed := s.handed ++ engine.candleConsumers.map (·, .candle candle) }
  | duplicate (tick : MarketTick) (m : MarketDataMetrics) (htick : engine.tickOf reading call.event = some tick)
      (hseen : tick.key ∈ s.detector.seenSequences) (hm : Counted s.metrics m (some .duplicate)) :
      IngestStep engine reading call s (.ok ⟨.duplicate, "duplicate", none, none⟩)
        { s with detector := s.detector.track tick.key, metrics := m }
  | refused (tick : MarketTick) (answer : Except String IngestResult) (m : MarketDataMetrics)
      (htick : engine.tickOf reading call.event = some tick) (hnew : tick.key ∉ s.detector.seenSequences)
      (hanswer : statusOf answer = some .future ∨ statusOf answer = some .stale ∨
        ∃ error, answer = .error error ∧ Unjudged engine call error)
      (hm : Counted s.metrics m (statusOf answer)) :
      IngestStep engine reading call s answer { s with detector := s.detector.track tick.key, metrics := m }
  | tick (tick : MarketTick) (m : MarketDataMetrics) (htick : engine.tickOf reading call.event = some tick)
      (hnew : tick.key ∉ s.detector.seenSequences) (hm : Counted s.metrics m (some .accepted)) :
      IngestStep engine reading call s (.ok ⟨.accepted, "accepted", some tick, none⟩)
        { s with
          detector := s.detector.track tick.key
          metrics := m
          handed := s.handed ++ engine.tickConsumers.map (·, .tick tick) }

section Step

variable {engine : MarketDataEngine γ} {call : IngestCall}

/-- The counters of the statuses are the same. -/
def SameCounts (m m' : MarketDataMetrics) : Prop := ∀ status, m'.counted status = m.counted status

theorem SameCounts.accepted {m m' : MarketDataMetrics} (h : SameCounts m m') : Counted m m' (some .accepted) := by
  intro other hother
  rw [h other, if_neg fun heq => hother (Option.some.inj heq).symm, Nat.add_zero]

theorem SameCounts.trans {m m' m'' : MarketDataMetrics} (h : SameCounts m m') (h' : SameCounts m' m'') :
    SameCounts m m'' := fun status => (h' status).trans (h status)

theorem fanOut_eq (consumers : List γ) (value : MarketEvent) (s : IngestState γ) :
    ∃ m, SameCounts s.metrics m ∧ MarketDataEngine.fanOut call s consumers value =
      { s with metrics := m, handed := s.handed ++ consumers.map (·, value) } := by
  have hloop : ∀ (l : List (γ × ℕ)) (s : IngestState γ), ∃ m, SameCounts s.metrics m ∧
      l.foldl (MarketDataEngine.safeDispatch call value) s =
        { s with metrics := m, handed := s.handed ++ (l.map Prod.fst).map (·, value) } := by
    intro l
    induction l with
    | nil => exact fun s => ⟨s.metrics, fun _ => rfl, by simp⟩
    | cons consumer l ih =>
      intro s
      obtain ⟨m, hm, hrest⟩ := ih (MarketDataEngine.safeDispatch call value s consumer)
      refine ⟨m, SameCounts.trans ?_ hm, ?_⟩
      · intro status
        unfold MarketDataEngine.safeDispatch
        cases call.consumerRaises consumer.2 <;> cases status <;> rfl
      · rw [List.foldl_cons, hrest, MarketDataEngine.safeDispatch]
        simp
  obtain ⟨m, hm, h⟩ := hloop consumers.zipIdx s
  rw [List.zipIdx_map_fst] at h
  exact ⟨m, hm, h⟩

theorem persist_eq (persisted : MarketDataMetrics → MarketDataMetrics) (hkeep : ∀ m, SameCounts m (persisted m))
    (s : IngestState γ) : ∃ m, SameCounts s.metrics m ∧ engine.persist call s persisted = { s with metrics := m } := by
  unfold MarketDataEngine.persist
  split_ifs
  · exact ⟨s.metrics, fun _ => rfl, rfl⟩
  · exact ⟨_, fun status => by cases status <;> rfl, rfl⟩
  · exact ⟨_, hkeep s.metrics, rfl⟩

/-- How `evaluate_staleness` judges a tick. -/
theorem evaluateStaleness_cases (tick : MarketTick) :
    (∃ error, evaluateStaleness tick call.now engine.maxAge = .error error ∧ Unjudged engine call error) ∨
      (∃ age, evaluateStaleness tick call.now engine.maxAge = .ok ⟨true, age, "tick_timestamp_in_future"⟩) ∨
      (∃ age, evaluateStaleness tick call.now engine.maxAge = .ok ⟨true, age, "tick_timestamp_stale"⟩) ∨
      ∃ age, evaluateStaleness tick call.now engine.maxAge = .ok ⟨false, age, "tick_timestamp_fresh"⟩ := by
  unfold evaluateStaleness raiseIf
  by_cases haware : call.now.aware = false
  · exact .inl ⟨_, by rw [if_pos haware]; rfl, .inl ⟨haware, rfl⟩⟩
  · by_cases hmax : engine.maxAge ≤ 0
    · exact .inl ⟨_, by rw [if_neg haware, if_pos hmax]; rfl, .inr ⟨hmax, rfl⟩⟩
    · rw [if_neg haware, if_neg hmax]
      simp only [bind, Except.bind, pure, Except.pure]
      split_ifs
      · exact .inr (.inl ⟨_, rfl⟩)
      · exact .inr (.inr (.inl ⟨_, rfl⟩))
      · exact .inr (.inr (.inr ⟨_, rfl⟩))

variable {reading : Reading}

theorem ingestTick_step {s t : IngestState γ} (hs : ∃ m, SameCounts s.metrics m ∧ t = { s with metrics := m })
    {tick : MarketTick} (htick : engine.tickOf reading call.event = some tick) :
    IngestStep engine reading call s (engine.ingestTick call t tick).1 (engine.ingestTick call t tick).2 := by
  obtain ⟨m, hm, rfl⟩ := hs
  -- one more for a status, where the counters were the same before
  have hcount : ∀ {m' : MarketDataMetrics} {status : Option IngestStatus}, Counted m m' status →
      Counted s.metrics m' status := fun h other hother => by rw [h other hother, hm other]
  unfold MarketDataEngine.ingestTick DuplicateTickDetector.isDuplicate
  dsimp only
  by_cases hseen : tick.key ∈ s.detector.seenSequences
  · rw [if_pos (decide_eq_true hseen)]
    exact .duplicate tick _ htick hseen (hcount fun other _ => by cases other <;> rfl)
  · rw [if_neg (by simpa using hseen)]
    rcases @evaluateStaleness_cases γ engine call tick with ⟨error, h, herror⟩ | ⟨age, h⟩ | ⟨age, h⟩ | ⟨age, h⟩
    · rw [h]
      exact .refused tick (.error error) m htick hseen (.inr (.inr ⟨error, rfl, herror⟩))
        (hcount fun other _ => by cases other <;> rfl)
    · rw [h]
      exact .refused tick _ _ htick hseen (.inl rfl) (hcount fun other _ => by cases other <;> rfl)
    · rw [h]
      exact .refused tick _ _ htick hseen (.inr (.inl rfl)) (hcount fun other _ => by cases other <;> rfl)
    · rw [h]
      obtain ⟨m₁, hm₁, hfan⟩ := @fanOut_eq γ call engine.tickConsumers (.tick tick)
        { s with detector := s.detector.track tick.key, metrics := m }
      obtain ⟨m₂, hm₂, hpersist⟩ := @persist_eq γ engine call
        (fun m => { m with persistedTicks := m.persistedTicks + 1 }) (fun m status => by cases status <;> rfl)
        (MarketDataEngine.fanOut call { s with detector := s.detector.track tick.key, metrics := m }
          engine.tickConsumers (.tick tick))
      simp only [Bool.false_eq_true, if_false, MarketDataEngine.persistTick, MarketDataEngine.fanOutTick, hpersist]
      rw [hfan] at hm₂ ⊢
      exact .tick tick m₂ htick hseen ((hm.trans hm₁).trans hm₂).accepted

theorem ingestCandle_step {s t : IngestState γ} (hs : ∃ m, SameCounts s.metrics m ∧ t = { s with metrics := m })
    (candle : MarketCandle) (hnone : engine.tickOf reading call.event = none) :
    IngestStep engine reading call s (engine.ingestCandle call t candle).1 (engine.ingestCandle call t candle).2 := by
  obtain ⟨m, hm, rfl⟩ := hs
  obtain ⟨m₁, hm₁, hfan⟩ := @fanOut_eq γ call engine.candleConsumers (.candle candle) { s with metrics := m }
  obtain ⟨m₂, hm₂, hpersist⟩ := @persist_eq γ engine call
    (fun m => { m with persistedCandles := m.persistedCandles + 1 }) (fun m status => by cases status <;> rfl)
    (MarketDataEngine.fanOut call { s with metrics := m } engine.candleConsumers (.candle candle))
  simp only [MarketDataEngine.ingestCandle, MarketDataEngine.persistCandle, MarketDataEngine.fanOutCandle, hpersist]
  rw [hfan] at hm₂ ⊢
  exact .candle candle m₂ hnone ((hm.trans hm₁).trans hm₂).accepted

/-- **Everything that a call can do.** -/
theorem ingestRaw_step (s : IngestState γ) :
    IngestStep engine reading call s (engine.ingestRaw call s reading).1 (engine.ingestRaw call s reading).2 := by
  have hreject : ∀ (reason : String) (n : ℕ), engine.tickOf reading call.event = none →
      IngestStep engine reading call s (MarketDataEngine.reject s reason n).1 (MarketDataEngine.reject s reason n).2 :=
    fun reason n hnone => .rejected reason _ hnone fun other _ => by cases other <;> rfl
  unfold MarketDataEngine.ingestRaw
  cases hvalid : validateRawEvent call.event [] with
  | error error => exact hreject _ 0 (by rw [MarketDataEngine.tickOf, hvalid])
  | ok u =>
    cases hnormal : normalize reading call.event with
    | error error => exact hreject _ 1 (by rw [MarketDataEngine.tickOf, hvalid, hnormal])
    | ok normalized =>
      cases hsymbol : checkSupportedSymbol normalized.symbol engine.allowedSymbols with
      | error reason =>
        dsimp only
        rw [hsymbol]
        refine hreject reason 0 ?_
        rw [MarketDataEngine.tickOf, hvalid, hnormal]
        cases normalized with
        | tick tick => simp only [show checkSupportedSymbol tick.symbol.val _ = _ from hsymbol]
        | candle candle => rfl
      | ok u =>
        dsimp only
        rw [hsymbol]
        cases normalized with
        | tick tick =>
          refine ingestTick_step ⟨_, fun status => by cases status <;> rfl, rfl⟩ ?_
          simp only [MarketDataEngine.tickOf, hvalid, hnormal,
            show checkSupportedSymbol tick.symbol.val _ = _ from hsymbol]
        | candle candle =>
          refine ingestCandle_step ⟨_, fun status => by cases status <;> rfl, rfl⟩ candle ?_
          simp only [MarketDataEngine.tickOf, hvalid, hnormal]

end Step

end AlphaAlgo.Market
