import AlphaAlgo.Lib.Recency
import AlphaAlgo.Market.Ingest
import AlphaAlgo.Strategy.Instance

/-!
# Duplicates — what the two duplicate detectors remember

`DuplicateTickDetector` knows ticks by broker and sequence, `SignalDeduplicator` signals by a hash; both keep the keys in
an ordered dictionary of bounded size, move a key that is found to its end and drop the first one over the bound.

* `seen_run_tracked`, `seen_run_offered`: the keys that are remembered after a history.
* `isDuplicate_iff`: a key is a duplicate exactly when it was offered before and fewer than the capacity of other keys
  since.
-/

namespace AlphaAlgo.Strategy

open Market (DuplicateTickDetector MarketTick Stamp TickKey)
open Signal (StrategySignal)

/-! ### Signals -/

/-- The keys in the order of their last use. -/
structure SignalDeduplicator where
  maxsize : ℕ+
  seen : List String := []

namespace SignalDeduplicator

def new (maxsize : ℤ) : Except String SignalDeduplicator :=
  if h : maxsize < 1 then .error "maxsize must be >= 1"
  else .ok { maxsize := ⟨maxsize.toNat, Market.toNat_pos_of_not_lt h⟩ }

/-- `is_duplicate`, under the lock. -/
def isDuplicate (d : SignalDeduplicator) (signal : StrategySignal) (eventTimestamp : Stamp) : Bool × SignalDeduplicator :=
  let key := signalDedupKey signal eventTimestamp
  (decide (key ∈ d.seen), { d with seen := Lru.use (some d.maxsize) d.seen key })

/-- The deduplicator after a signal has been offered. -/
def offered (d : SignalDeduplicator) (p : StrategySignal × Stamp) : SignalDeduplicator := (d.isDuplicate p.1 p.2).2

end SignalDeduplicator

/-- An instance accepts its signals with a deduplicator of the default size. -/
theorem acceptSignal_seen (identity : StrategyIdentity) (allowedInstruments : Option (List UUID)) (t : Stamp)
    (a : Acceptance) (signal : StrategySignal) :
    (acceptSignal identity allowedInstruments t a signal).seen =
      if (validateSignal signal identity allowedInstruments t).valid = false then a.seen
      else (SignalDeduplicator.isDuplicate ⟨100000, a.seen⟩ signal t).2.seen := by
  unfold acceptSignal
  dsimp only
  split_ifs <;> rfl

/-! ### Histories -/

/-- The detector after a tick has been offered. -/
def tracked (d : DuplicateTickDetector) (tick : MarketTick) : DuplicateTickDetector := (d.isDuplicate tick).2

theorem seen_run_tracked {m : ℕ} (hm : 1 ≤ m) {d : DuplicateTickDetector}
    (hd : DuplicateTickDetector.new (some m) = .ok d) (history : List MarketTick) :
    (history.foldl tracked d).seenSequences = (history.map MarketTick.key).foldl (Lru.use (some m)) [] ∧
      (history.foldl tracked d).capacity = some m := by
  have hnew : ¬(m : ℤ) < 1 := by omega
  simp only [DuplicateTickDetector.new, hnew, dif_neg, not_false_eq_true] at hd
  cases hd
  induction history using List.reverseRecOn with
  | nil => exact ⟨rfl, rfl⟩
  | append_singleton history tick ih =>
    obtain ⟨hseen, hcapacity⟩ := ih
    rw [List.foldl_append, List.map_append, List.foldl_append]
    constructor
    · show Lru.use (DuplicateTickDetector.capacity _) _ tick.key = Lru.use (some m) _ tick.key
      rw [hcapacity, hseen]
    · exact hcapacity

theorem seen_run_offered {m : ℕ} (hm : 1 ≤ m) {d : SignalDeduplicator} (hd : SignalDeduplicator.new m = .ok d)
    (history : List (StrategySignal × Stamp)) :
    (history.foldl SignalDeduplicator.offered d).seen =
        (history.map fun p => signalDedupKey p.1 p.2).foldl (Lru.use (some m)) [] ∧
      ((history.foldl SignalDeduplicator.offered d).maxsize : ℕ) = m := by
  have hnew : ¬(m : ℤ) < 1 := by omega
  simp only [SignalDeduplicator.new, hnew, dif_neg, not_false_eq_true] at hd
  cases hd
  induction history using List.reverseRecOn with
  | nil => exact ⟨rfl, rfl⟩
  | append_singleton history p ih =>
    obtain ⟨hseen, hsize⟩ := ih
    rw [List.foldl_append, List.map_append, List.foldl_append]
    constructor
    · show Lru.use (some _) _ (signalDedupKey p.1 p.2) = Lru.use (some m) _ (signalDedupKey p.1 p.2)
      rw [hsize, hseen]
    · exact hsize

/-- **A key is a duplicate** exactly when it was offered before and fewer than `m` distinct others have been offered since
its last occurrence, and at most `m` keys are remembered. -/
theorem isDuplicate_iff {m : ℕ} (hm : 1 ≤ m) :
    (∀ d, DuplicateTickDetector.new (some m) = .ok d → ∀ history : List MarketTick,
      (∀ tick, ((history.foldl tracked d).isDuplicate tick).1 = true ↔
        Lru.Recalled m (history.map MarketTick.key) tick.key) ∧
      (history.foldl tracked d).seenSequences.length ≤ m) ∧
    (∀ d, SignalDeduplicator.new m = .ok d → ∀ history : List (StrategySignal × Stamp),
      (∀ signal t, ((history.foldl SignalDeduplicator.offered d).isDuplicate signal t).1 = true ↔
        Lru.Recalled m (history.map fun p => signalDedupKey p.1 p.2) (signalDedupKey signal t)) ∧
      (history.foldl SignalDeduplicator.offered d).seen.length ≤ m) := by
  constructor
  · intro d hd history
    obtain ⟨hseen, -⟩ := seen_run_tracked hm hd history
    refine ⟨fun tick => ?_, ?_⟩
    · rw [DuplicateTickDetector.isDuplicate, decide_eq_true_eq, hseen, Lru.mem_foldl_use_iff hm]
    · rw [hseen]
      exact Lru.length_foldl_use_le _
  · intro d hd history
    obtain ⟨hseen, -⟩ := seen_run_offered hm hd history
    refine ⟨fun signal t => ?_, ?_⟩
    · show decide (signalDedupKey signal t ∈ _) = true ↔ _
      rw [decide_eq_true_eq, hseen, Lru.mem_foldl_use_iff hm]
    · rw [hseen]
      exact Lru.length_foldl_use_le _

/-- A tick with a sequence. -/
def tickOf (sequence : Market.Text 150) : MarketTick where
  instrumentId := ⟨1⟩
  exchange := ⟨"NSE", Market.nse_within⟩
  symbol := ⟨"INFY", Market.infy_within⟩
  timestamp := ⟨⟨2026, 9, 1, 10, 0, 0, 0, some 0⟩, rfl⟩
  ltp := ⟨.ofNat 100, Market.hundred_pos⟩
  sourceBroker := ⟨"kite", Market.kite_within⟩
  sourceSequence := sequence
  receivedAt := ⟨⟨2026, 9, 1, 10, 0, 0, 0, some 0⟩, rfl⟩

/-- With room for two, a key is known after one other and forgotten after two. -/
theorem isDuplicate_iff_two : ∃ d, DuplicateTickDetector.new (some 2) = .ok d ∧
    (([tickOf ⟨"1", by decide⟩, tickOf ⟨"2", by decide⟩].foldl tracked d).isDuplicate (tickOf ⟨"1", by decide⟩)).1 =
      true := by
  refine ⟨_, rfl, ?_⟩
  refine (((isDuplicate_iff (m := 2) (by decide)).1 _ rfl _).1 _).mpr ?_
  exact ⟨[], [("kite", "2")], rfl, by decide, by decide⟩

end AlphaAlgo.Strategy
