import AlphaAlgo.Lib.Runs
import AlphaAlgo.Market.Ingest

/-!
# IngestRuns — statuses, counters and fan-out over sequences of raw events

* `ingest_statuses`: one status for each event, the counters partition the events, a key is fanned out once while it is
  tracked, and a duplicate repeats an earlier tick that was new to the detector.
-/

namespace AlphaAlgo.Market

open Runs

variable {γ : Type} (engine : MarketDataEngine γ) (reading : Reading)

/-- A new engine. -/
def IngestState.new (maxsize : Option ℕ+) : IngestState γ := ⟨⟨maxsize, [], List.nodup_nil, fun _ _ => Nat.zero_le _⟩, {}, []⟩

/-- The engine after a call. -/
def ingestNext (s : IngestState γ) (call : IngestCall) : IngestState γ := (engine.ingestRaw call s reading).2

/-- What a call answers. -/
def answer (s : IngestState γ) (call : IngestCall) : Except String IngestResult := (engine.ingestRaw call s reading).1

/-- A new engine after some calls. -/
abbrev ingestRun (maxsize : Option ℕ+) (l : List IngestCall) : IngestState γ :=
  run (ingestNext engine reading) (.new maxsize) l

/-- The answers to the calls, in order. -/
abbrev answers (maxsize : Option ℕ+) (l : List IngestCall) : List (Except String IngestResult) :=
  outputs (ingestNext engine reading) (answer engine reading) (.new maxsize) l

/-- The key of the tick of a call. -/
def keyOf (call : IngestCall) : Option TickKey := (engine.tickOf reading call.event).map MarketTick.key

/-- How many ticks with a key a consumer was given. -/
def handedTo [DecidableEq γ] (consumer : γ) (key : TickKey) (s : IngestState γ) : ℕ :=
  s.handed.countP fun given => decide (given.1 = consumer) && match given.2 with
    | .tick tick => decide (tick.key = key)
    | .candle _ => false

/-- How many answers have a status, `none` for the calls that raised. -/
def countOf (answers : List (Except String IngestResult)) (status : Option IngestStatus) : ℕ :=
  answers.countP fun a => statusOf a = status

/-- A status, or the `ValueError` of `evaluate_staleness`. -/
def Answered (call : IngestCall) (a : Except String IngestResult) : Prop :=
  (∃ result, a = .ok result) ∨ ∃ error, a = .error error ∧ Unjudged engine call error

variable {engine reading} {maxsize : Option ℕ+} {s : IngestState γ} {call : IngestCall}

/-! ### One call -/

theorem ingest_step (s : IngestState γ) (call : IngestCall) :
    IngestStep engine reading call s (answer engine reading s call) (ingestNext engine reading s call) :=
  ingestRaw_step s

theorem answered_step {a : Except String IngestResult} {t : IngestState γ}
    (h : IngestStep engine reading call s a t) : Answered engine call a := by
  cases h with
  | refused tick a m htick hnew hanswer hm =>
    cases a with
    | ok result => exact .inl ⟨result, rfl⟩
    | error error =>
      rcases hanswer with h | h | h
      · cases h
      · cases h
      · exact .inr h
  | _ => exact .inl ⟨_, rfl⟩

theorem counted_step {a : Except String IngestResult} {t : IngestState γ}
    (h : IngestStep engine reading call s a t) : Counted s.metrics t.metrics (statusOf a) := by
  cases h <;> assumption

/-- The table sees the keys of the ticks, whatever becomes of them. -/
theorem detector_step {a : Except String IngestResult} {t : IngestState γ}
    (h : IngestStep engine reading call s a t) :
    t.detector = (keyOf engine reading call).elim s.detector s.detector.track := by
  cases h with
  | rejected reason m hnone hm => rw [keyOf, hnone]; rfl
  | candle c m hnone hm => rw [keyOf, hnone]; rfl
  | duplicate tick m htick hseen hm => rw [keyOf, htick]; rfl
  | refused tick a m htick hnew hanswer hm => rw [keyOf, htick]; rfl
  | tick tick m htick hnew hm => rw [keyOf, htick]; rfl

/-- **A tick is a duplicate when its key is tracked.** -/
theorem duplicate_iff {a : Except String IngestResult} {t : IngestState γ}
    (h : IngestStep engine reading call s a t) :
    statusOf a = some .duplicate ↔ ∃ key, keyOf engine reading call = some key ∧ key ∈ s.detector.seenSequences := by
  cases h with
  | rejected reason m hnone hm => simp [statusOf, keyOf, hnone]
  | candle c m hnone hm => simp [statusOf, keyOf, hnone]
  | duplicate tick m htick hseen hm => simp [statusOf, keyOf, htick, hseen]
  | refused tick a m htick hnew hanswer hm =>
    have hother : statusOf a ≠ some .duplicate := by
      rcases hanswer with h | h | ⟨error, rfl, -⟩
      · simp [h]
      · simp [h]
      · simp [statusOf]
    simp [hother, keyOf, htick, hnew]
  | tick tick m htick hnew hm => simp [statusOf, keyOf, htick, hnew]

section Handed

variable [DecidableEq γ] {consumer : γ} {key : TickKey}

theorem handedTo_append (s : IngestState γ) (consumers : List γ) (value : MarketEvent) :
    handedTo consumer key { s with handed := s.handed ++ consumers.map (·, value) } =
      handedTo consumer key s + match value with
        | .tick tick => if tick.key = key then consumers.count consumer else 0
        | .candle _ => 0 := by
  unfold handedTo
  rw [List.countP_append, List.countP_map]
  congr 1
  cases value with
  | candle c => simp
  | tick tick =>
    by_cases hkey : tick.key = key
    · simp only [hkey, Function.comp_def, decide_true, Bool.and_true, if_true, List.count]
      rfl
    · simp [hkey, Function.comp_def]

/-- A tick is fanned out when its key is new to the table, once to each consumer. -/
theorem handed_step {a : Except String IngestResult} {t : IngestState γ}
    (h : IngestStep engine reading call s a t) :
    (key ∈ s.detector.seenSequences → handedTo consumer key t = handedTo consumer key s) ∧
      handedTo consumer key t ≤ handedTo consumer key s + engine.tickConsumers.count consumer := by
  cases h with
  | candle c m hnone hm =>
    have hsame := @handedTo_append γ _ consumer key { s with metrics := m } engine.candleConsumers (.candle c)
    exact ⟨fun _ => hsame, hsame.le.trans (Nat.le_add_right _ _)⟩
  | tick tick m htick hnew hm =>
    have hmore := @handedTo_append γ _ consumer key
      { s with detector := s.detector.track tick.key, metrics := m } engine.tickConsumers (.tick tick)
    dsimp only at hmore
    refine ⟨fun hseen => ?_, ?_⟩
    · have hne : tick.key ≠ key := fun h => hnew (h ▸ hseen)
      rw [if_neg hne] at hmore
      exact hmore
    · by_cases hkey : tick.key = key
      · rw [if_pos hkey] at hmore
        exact hmore.le
      · rw [if_neg hkey] at hmore
        exact hmore.le.trans (Nat.le_add_right _ _)
  | _ => exact ⟨fun _ => rfl, Nat.le_add_right _ _⟩

end Handed

/-! ### Runs -/

theorem counted_run (l : List IngestCall) : ∀ status, status ≠ .accepted →
    (ingestRun engine reading maxsize l).metrics.counted status =
      countOf (answers engine reading maxsize l) (some status) := by
  intro status hstatus
  induction l using List.reverseRecOn with
  | nil => cases status <;> rfl
  | append_singleton l call ih =>
    rw [ingestRun, run_concat, counted_step (ingest_step _ call) status hstatus, ih]
    simp only [countOf, answers, outputs_concat, List.countP_append, List.countP_singleton, decide_eq_true_eq]

theorem answered_run (l : List IngestCall) :
    List.Forall₂ (Answered engine) l (answers engine reading maxsize l) := by
  have hrun : ∀ (l : List IngestCall) (s : IngestState γ),
      List.Forall₂ (Answered engine) l (outputs (ingestNext engine reading) (answer engine reading) s l) := by
    intro l
    induction l with
    | nil => exact fun s => .nil
    | cons call l ih => exact fun s => .cons (answered_step (ingest_step s call)) (ih _)
  exact hrun l _

/-- Each answer has one status, or none. -/
theorem count_partition (l : List (Except String IngestResult)) :
    countOf l (some .rejected) + countOf l (some .accepted) + countOf l (some .duplicate) + countOf l (some .future) +
      countOf l (some .stale) + countOf l none = l.length := by
  induction l with
  | nil => rfl
  | cons a l ih =>
    simp only [countOf, List.countP_cons, List.length_cons] at ih ⊢
    rcases hstatus : statusOf a with _ | status
    · simp; omega
    · cases status <;> simp <;> omega

/-- A tracked key came with a tick that was new to the table then. -/
theorem tracked_source {key : TickKey} (l : List IngestCall)
    (h : key ∈ (ingestRun engine reading maxsize l).detector.seenSequences) :
    ∃ p call q, l = p ++ call :: q ∧ keyOf engine reading call = some key ∧
      key ∉ (ingestRun engine reading maxsize p).detector.seenSequences := by
  induction l using List.reverseRecOn with
  | nil => cases h
  | append_singleton l call ih =>
    by_cases hbefore : key ∈ (ingestRun engine reading maxsize l).detector.seenSequences
    · obtain ⟨p, c, q, rfl, hc⟩ := ih hbefore
      exact ⟨p, c, q ++ [call], by simp, hc⟩
    · refine ⟨l, call, [], rfl, ?_, hbefore⟩
      rw [ingestRun, run_concat, detector_step (ingest_step _ call)] at h
      cases hkey : keyOf engine reading call with
      | none =>
        rw [hkey] at h
        exact absurd h hbefore
      | some k =>
        rw [hkey] at h
        rw [(DuplicateTickDetector.mem_of_track h).resolve_right hbefore]

/-- A tick that is new to the table is accepted, or refused by its age, or the call raises. -/
theorem status_of_new {a : Except String IngestResult} {t : IngestState γ} {key : TickKey}
    (h : IngestStep engine reading call s a t) (hkey : keyOf engine reading call = some key)
    (hnew : key ∉ s.detector.seenSequences) :
    statusOf a ∈ [some IngestStatus.accepted, some .future, some .stale, none] := by
  cases h with
  | rejected reason m hnone hm => simp [keyOf, hnone] at hkey
  | candle c m hnone hm => simp [keyOf, hnone] at hkey
  | duplicate tick m htick hseen hm =>
    rw [keyOf, htick] at hkey
    exact absurd (Option.some.inj hkey ▸ hseen) hnew
  | refused tick a m htick hnew hanswer hm =>
    rcases hanswer with h | h | ⟨error, rfl, -⟩
    · simp [h]
    · simp [h]
    · simp [statusOf]
  | tick tick m htick hnew hm => simp [statusOf]

/-- While a key is tracked it is not fanned out. -/
theorem handed_run [DecidableEq γ] {consumer : γ} {key : TickKey} (q : List IngestCall) {s : IngestState γ}
    (h : ∀ q', q' <+: q → key ∈ (run (ingestNext engine reading) s q').detector.seenSequences) :
    handedTo consumer key (run (ingestNext engine reading) s q) = handedTo consumer key s := by
  induction q generalizing s with
  | nil => rfl
  | cons call q ih =>
    have hnow := (@handed_step γ engine reading s call _ consumer key _ _ (ingest_step s call)).1 (h [] List.nil_prefix)
    rw [run_cons, ih fun q' hq' => h (call :: q') (List.cons_prefix_cons.mpr ⟨rfl, hq'⟩), hnow]

/-- What holds of the answers to some calls, and of the engine after them. -/
structure IngestLaw [DecidableEq γ] (engine : MarketDataEngine γ) (reading : Reading) (maxsize : Option ℕ+)
    (l : List IngestCall) : Prop where
  /-- Each call is answered with one status, unless `evaluate_staleness` raises. -/
  answered : List.Forall₂ (Answered engine) l (answers engine reading maxsize l)
  counted : ∀ status, status ≠ .accepted → (ingestRun engine reading maxsize l).metrics.counted status =
    countOf (answers engine reading maxsize l) (some status)
  partition : let m := (ingestRun engine reading maxsize l).metrics
    m.rejectedEvents + countOf (answers engine reading maxsize l) (some .accepted) + m.duplicates +
      m.futureTimestamps + m.staleEvents + countOf (answers engine reading maxsize l) none = l.length
  /-- Where a key stays tracked from a call on, the consumers get one tick with it from there on. -/
  once : ∀ p call q key consumer, l = p ++ call :: q →
    (∀ q', q' <+: q → key ∈ (ingestRun engine reading maxsize (p ++ call :: q')).detector.seenSequences) →
    handedTo consumer key (ingestRun engine reading maxsize l) ≤
      handedTo consumer key (ingestRun engine reading maxsize p) + engine.tickConsumers.count consumer
  duplicate : ∀ p call q, l = p ++ call :: q →
    (statusOf (answer engine reading (ingestRun engine reading maxsize p) call) = some .duplicate ↔
      ∃ key, keyOf engine reading call = some key ∧
        key ∈ (ingestRun engine reading maxsize p).detector.seenSequences)
  /-- A duplicate repeats the key of an earlier tick that was accepted, or refused by its age. -/
  repeats : ∀ p call q, l = p ++ call :: q →
    statusOf (answer engine reading (ingestRun engine reading maxsize p) call) = some .duplicate →
    ∃ p' earlier q', p = p' ++ earlier :: q' ∧ keyOf engine reading earlier = keyOf engine reading call ∧
      statusOf (answer engine reading (ingestRun engine reading maxsize p') earlier) ∈
        [some IngestStatus.accepted, some .future, some .stale, none]

/-- **Over any sequence of events, for any clock.** -/
theorem ingest_statuses [DecidableEq γ] (engine : MarketDataEngine γ) (reading : Reading) (maxsize : Option ℕ+)
    (l : List IngestCall) : IngestLaw engine reading maxsize l where
  answered := answered_run l
  counted := counted_run l
  partition := by
    have hpartition := count_partition (answers engine reading maxsize l)
    have hlength : (answers engine reading maxsize l).length = l.length := (answered_run l).length_eq.symm
    rw [← counted_run l .rejected (by simp), ← counted_run l .duplicate (by simp), ← counted_run l .future (by simp),
      ← counted_run l .stale (by simp), hlength] at hpartition
    exact hpartition
  once := by
    rintro p call q key consumer rfl htracked
    rw [ingestRun, run_append, run_cons, handed_run q fun q' hq' => ?_]
    · exact (handed_step (ingest_step _ call)).2
    · rw [← run_cons, ← run_append]
      exact htracked q' hq'
  duplicate := fun p call _ _ => duplicate_iff (ingest_step _ call)
  repeats := by
    rintro p call q rfl hduplicate
    obtain ⟨key, hkey, hseen⟩ := (duplicate_iff (ingest_step _ call)).mp hduplicate
    obtain ⟨p', earlier, q', rfl, hearlier, hnew⟩ := tracked_source p hseen
    exact ⟨p', earlier, q', rfl, hearlier.trans hkey.symm, status_of_new (ingest_step _ earlier) hearlier hnew⟩

/-! ### A tick ahead of the clock -/

/-- A payload whose values are what the contracts ask for is taken as it is. -/
def plainReading : Reading where
  fromisoformat _ := none
  uuid _ := none
  decimal _ := none
  repr _ := ""
  text := RawValue.str?
  int _ := none
  refusal _ := ""

def plainEngine : MarketDataEngine ℕ := ⟨false, none, 5000000, true, [0], []⟩

/-- A tick of 09:30. -/
def rawTick : RawMarketEvent where
  provider := "fake"
  kind := .tick
  payload := some [("instrument_id", .uuid ⟨1⟩), ("exchange", .str "NSE"), ("symbol", .str "RELIANCE"),
    ("timestamp", .datetime ⟨2026, 8, 12, 9, 30, 0, 0, some 0⟩), ("ltp", .decimal (.finite ⟨false, 245025, -2⟩)),
    ("source_broker", .str "fake"), ("source_sequence", .str "seq-1")]
  receivedAt := ⟨2026, 8, 12, 9, 30, 0, 0, some 0⟩

/-- The tick given at a minute past nine. -/
def rawCall (minute : ℕ) (utcoffset : Option ℤ) : IngestCall :=
  ⟨rawTick, ⟨2026, 8, 12, 9, minute, 0, 0, utcoffset⟩, fun _ => false, false⟩

/-- Given a minute early the tick is refused as future, and given again in time it is a duplicate, although no earlier
one was accepted; under a clock without a timezone a call has no status. -/
theorem not_redelivered_accepted :
    (¬∀ p call q, p ++ call :: q = [rawCall 29 (some 0), rawCall 30 (some 0)] →
      statusOf (answer plainEngine plainReading (ingestRun plainEngine plainReading none p) call) = some .duplicate →
      ∃ p' earlier q', p = p' ++ earlier :: q' ∧
        keyOf plainEngine plainReading earlier = keyOf plainEngine plainReading call ∧
        statusOf (answer plainEngine plainReading (ingestRun plainEngine plainReading none p') earlier) =
          some .accepted) ∧
    statusOf (answer plainEngine plainReading (.new none) (rawCall 30 none)) = none := by
  have hstatuses : (answers plainEngine plainReading none [rawCall 29 (some 0), rawCall 30 (some 0)]).map
      statusOf = [some .future, some .duplicate] := by decide +kernel
  simp only [answers, outputs, List.map_cons, List.map_nil, List.cons.injEq, and_true] at hstatuses
  refine ⟨fun h => ?_, by decide +kernel⟩
  obtain ⟨p', earlier, q', hp, -, haccepted⟩ := h [rawCall 29 (some 0)] _ [] rfl hstatuses.2
  -- the first call is the only earlier one
  cases p' with
  | nil =>
    rw [List.nil_append, List.cons.injEq] at hp
    rw [← hp.1, ingestRun, run_nil, hstatuses.1] at haccepted
    cases haccepted
  | cons c p' => simp at hp

end AlphaAlgo.Market
