import Mathlib.Tactic
import AlphaAlgo.Lib.Runs

/-!
# Queue — the bounded queue of the market-data engine

`BoundedQueue` keeps at most `maxsize` events; a full queue drops the incoming event (`drop_newest`) or the oldest one
(`drop_oldest`).  `enqueue` counts the drops that `put_nowait` reports, and the consumer loop takes events out one at a
time.

* `conserved_run`: no event is invented, repeated or lost beyond those counted in `dropped_count`.
* `accounted_iff`: the metrics count every drop exactly in the runs that never drop the oldest event.
-/

namespace AlphaAlgo.Market

open Runs

variable {ε : Type*}

/-! ### The queue -/

inductive DropPolicy where
  | dropNewest
  | dropOldest
  deriving DecidableEq, Repr

def DropPolicy.ofString? : String → Option DropPolicy
  | "drop_newest" => some .dropNewest
  | "drop_oldest" => some .dropOldest
  | _ => none

/-- The queue; `unfinished` are the events that were put and not yet reported done. -/
structure BoundedQueue (ε : Type*) where
  items : List ε
  maxsize : ℕ
  dropPolicy : DropPolicy
  droppedCount : ℕ
  unfinished : ℕ
  pos : 1 ≤ maxsize
  bounded : items.length ≤ maxsize

namespace BoundedQueue

def new (maxsize : ℤ) (dropPolicy : String) : Except String (BoundedQueue ε) :=
  if h : maxsize < 1 then .error "maxsize must be >= 1"
  else match DropPolicy.ofString? dropPolicy with
    | none => .error "drop_policy must be 'drop_newest' or 'drop_oldest'"
    | some policy => .ok ⟨[], maxsize.toNat, policy, 0, 0, by omega, Nat.zero_le _⟩

def qsize (q : BoundedQueue ε) : ℕ := q.items.length

def full (q : BoundedQueue ε) : Bool := q.maxsize ≤ q.qsize

/-- `get_nowait`, `none` for `QueueEmpty`. -/
def getNowait (q : BoundedQueue ε) : Option (ε × BoundedQueue ε) :=
  match h : q.items with
  | [] => none
  | e :: rest => some (e, { q with items := rest, bounded := by have := h ▸ q.bounded; simp at this; omega })

def taskDone (q : BoundedQueue ε) : Except String (BoundedQueue ε) :=
  if q.unfinished = 0 then .error "task_done() called too many times"
  else .ok { q with unfinished := q.unfinished - 1 }

/-- The `put_nowait` of the queue inside. -/
def push (q : BoundedQueue ε) (e : ε) : Except String (BoundedQueue ε) :=
  if h : q.items.length < q.maxsize then
    .ok { q with items := q.items ++ [e], unfinished := q.unfinished + 1, bounded := by simpa using h }
  else .error "QueueFull"

/-- `put_nowait`, and whether it reports the event as accepted. -/
def putNowait (q : BoundedQueue ε) (e : ε) : Except String (BoundedQueue ε × Bool) :=
  if q.full then
    match q.dropPolicy with
    | .dropOldest => do
      let counted := { q with droppedCount := q.droppedCount + 1 }
      let room ← match counted.getNowait with
        | some (_, rest) => rest.taskDone
        | none => pure counted
      return (← room.push e, true)
    | .dropNewest => return ({ q with droppedCount := q.droppedCount + 1 }, false)
  else return (← q.push e, true)

end BoundedQueue

/-! ### Producers and the consumer -/

/-- The counters of the engine. -/
structure MarketDataMetrics where
  ticksReceived : ℕ := 0
  candlesReceived : ℕ := 0
  duplicates : ℕ := 0
  staleEvents : ℕ := 0
  futureTimestamps : ℕ := 0
  rejectedEvents : ℕ := 0
  normalizationFailures : ℕ := 0
  droppedEvents : ℕ := 0
  persistedTicks : ℕ := 0
  persistedCandles : ℕ := 0
  persistenceFailures : ℕ := 0
  consumerFailures : ℕ := 0
  deriving DecidableEq, Repr

/-- The queue and the metrics, the event that the consumer has in hand, and for the statements what was offered and
consumed so far and what escaped from a call. -/
structure Feed (ε : Type*) where
  queue : BoundedQueue ε
  metrics : MarketDataMetrics := {}
  inHand : Option ε := none
  offered : List ε := []
  consumed : List ε := []
  raised : List String := []

/-- A producer enqueues an event; the loop of `run` takes one, or has processed the one it took. -/
inductive FeedAction (ε : Type*) where
  | enqueue (event : ε)
  | get
  | taskDone

namespace Feed

def enqueue (s : Feed ε) (e : ε) : Feed ε :=
  match s.queue.putNowait e with
  | .error error => { s with offered := s.offered ++ [e], raised := s.raised ++ [error] }
  | .ok (queue, true) => { s with queue := queue, offered := s.offered ++ [e] }
  | .ok (queue, false) =>
    { s with
      queue := queue
      metrics := { s.metrics with droppedEvents := s.metrics.droppedEvents + 1 }
      offered := s.offered ++ [e] }

/-- The loop waits while the queue is empty. -/
def get (s : Feed ε) : Feed ε :=
  match s.inHand, s.queue.getNowait with
  | none, some (e, queue) => { s with queue := queue, inHand := some e, consumed := s.consumed ++ [e] }
  | _, _ => s

def taskDone (s : Feed ε) : Feed ε :=
  match s.inHand with
  | none => s
  | some _ =>
    match s.queue.taskDone with
    | .error error => { s with raised := s.raised ++ [error] }
    | .ok queue => { s with queue := queue, inHand := none }

def step (s : Feed ε) : FeedAction ε → Feed ε
  | .enqueue e => s.enqueue e
  | .get => s.get
  | .taskDone => s.taskDone

end Feed

abbrev feedRun (q : BoundedQueue ε) (l : List (FeedAction ε)) : Feed ε := run Feed.step { queue := q } l

/-! ### What a step does -/

/-- Every queued event and the one in hand are unfinished. -/
def Feed.Balanced (s : Feed ε) : Prop := s.queue.unfinished = s.queue.qsize + s.inHand.toList.length

/-- What a step does: `rest` is the queue after it. -/
inductive FeedStep (s : Feed ε) : FeedAction ε → Feed ε → Prop
  | queued (e : ε) (rest : BoundedQueue ε) (hfull : s.queue.full = false)
      (hitems : rest.items = s.queue.items ++ [e]) (hdropped : rest.droppedCount = s.queue.droppedCount)
      (hunfinished : rest.unfinished = s.queue.unfinished + 1) :
      FeedStep s (.enqueue e) { s with queue := rest, offered := s.offered ++ [e] }
  | droppedOldest (e oldest : ε) (kept : List ε) (rest : BoundedQueue ε) (hfull : s.queue.full = true)
      (hpolicy : s.queue.dropPolicy = .dropOldest) (hqueue : s.queue.items = oldest :: kept)
      (hitems : rest.items = kept ++ [e]) (hdropped : rest.droppedCount = s.queue.droppedCount + 1)
      (hunfinished : rest.unfinished = s.queue.unfinished) :
      FeedStep s (.enqueue e) { s with queue := rest, offered := s.offered ++ [e] }
  | droppedNewest (e : ε) (hfull : s.queue.full = true) (hpolicy : s.queue.dropPolicy = .dropNewest) :
      FeedStep s (.enqueue e)
        { s with
          queue := { s.queue with droppedCount := s.queue.droppedCount + 1 }
          metrics := { s.metrics with droppedEvents := s.metrics.droppedEvents + 1 }
          offered := s.offered ++ [e] }
  | taken (e : ε) (rest : BoundedQueue ε) (hhand : s.inHand = none) (hqueue : s.queue.items = e :: rest.items)
      (hdropped : rest.droppedCount = s.queue.droppedCount) (hunfinished : rest.unfinished = s.queue.unfinished) :
      FeedStep s .get { s with queue := rest, inHand := some e, consumed := s.consumed ++ [e] }
  | done (e : ε) (hhand : s.inHand = some e) :
      FeedStep s .taskDone
        { s with queue := { s.queue with unfinished := s.queue.unfinished - 1 }, inHand := none }
  | idle (a : FeedAction ε) (ha : ∀ e, a ≠ .enqueue e) : FeedStep s a s

theorem getNowait_of_cons {q : BoundedQueue ε} {e : ε} {kept : List ε} (h : q.items = e :: kept) :
    ∃ rest, q.getNowait = some (e, rest) ∧ rest.items = kept ∧ rest.droppedCount = q.droppedCount ∧
      rest.unfinished = q.unfinished ∧ rest.maxsize = q.maxsize := by
  unfold BoundedQueue.getNowait
  split
  · next hnil => rw [hnil] at h; cases h
  · next e' kept' hcons =>
    rw [hcons] at h
    cases h
    exact ⟨_, rfl, rfl, rfl, rfl, rfl⟩

theorem full_iff {q : BoundedQueue ε} : q.full = true ↔ q.maxsize ≤ q.items.length :=
  decide_eq_true_iff

theorem putNowait_room {q : BoundedQueue ε} (e : ε) (hfull : q.full = false) :
    ∃ rest, q.putNowait e = .ok (rest, true) ∧ rest.items = q.items ++ [e] ∧ rest.droppedCount = q.droppedCount ∧
      rest.unfinished = q.unfinished + 1 := by
  have hroom : q.items.length < q.maxsize := by
    rw [← not_le, ← full_iff, hfull]
    exact Bool.false_ne_true
  rw [BoundedQueue.putNowait, hfull, if_neg Bool.false_ne_true, BoundedQueue.push, dif_pos hroom]
  exact ⟨_, rfl, rfl, rfl, rfl⟩

theorem putNowait_newest {q : BoundedQueue ε} (e : ε) (hfull : q.full = true) (hpolicy : q.dropPolicy = .dropNewest) :
    q.putNowait e = .ok ({ q with droppedCount := q.droppedCount + 1 }, false) := by
  rw [BoundedQueue.putNowait, if_pos hfull, hpolicy]
  rfl

/-- The oldest event makes room: neither `task_done` nor the second `put_nowait` raises. -/
theorem putNowait_oldest {q : BoundedQueue ε} (e : ε) (hfull : q.full = true) (hpolicy : q.dropPolicy = .dropOldest)
    (hunfinished : q.qsize ≤ q.unfinished) :
    ∃ oldest kept rest, q.items = oldest :: kept ∧ q.putNowait e = .ok (rest, true) ∧ rest.items = kept ++ [e] ∧
      rest.droppedCount = q.droppedCount + 1 ∧ rest.unfinished = q.unfinished := by
  obtain ⟨oldest, kept, hqueue⟩ := List.exists_cons_of_length_pos (q.pos.trans (full_iff.mp hfull))
  obtain ⟨rest, hrest, rfl, hdropped, hsame, hmaxsize⟩ :=
    @getNowait_of_cons _ { q with droppedCount := q.droppedCount + 1 } _ _ hqueue
  change rest.unfinished = q.unfinished at hsame
  rw [BoundedQueue.qsize, hqueue, List.length_cons, ← hsame] at hunfinished
  have hroom : rest.items.length < rest.maxsize := by
    have hbounded := q.bounded
    rw [hqueue, List.length_cons] at hbounded
    exact hbounded.trans_eq hmaxsize.symm
  refine ⟨oldest, rest.items, { rest with items := rest.items ++ [e], bounded := by simpa using hroom }, hqueue, ?_, rfl,
    hdropped, hsame⟩
  unfold BoundedQueue.putNowait
  rw [if_pos hfull]
  split
  · have hone : rest.unfinished - 1 + 1 = rest.unfinished := by omega
    have hpending : rest.unfinished ≠ 0 := by omega
    simp only [hrest, BoundedQueue.taskDone, if_neg hpending, BoundedQueue.push, bind, Except.bind, pure, Except.pure,
      dif_pos hroom, hone]
  · next hother => rw [hpolicy] at hother; cases hother

theorem step_enqueue {s : Feed ε} (h : s.Balanced) (e : ε) : FeedStep s (.enqueue e) (s.enqueue e) := by
  unfold Feed.enqueue
  cases hfull : s.queue.full with
  | false =>
    obtain ⟨rest, hput, hitems, hdropped, hunfinished⟩ := putNowait_room e hfull
    rw [hput]
    exact .queued e rest hfull hitems hdropped hunfinished
  | true =>
    cases hpolicy : s.queue.dropPolicy with
    | dropNewest =>
      rw [putNowait_newest e hfull hpolicy]
      exact .droppedNewest e hfull hpolicy
    | dropOldest =>
      obtain ⟨oldest, kept, rest, hqueue, hput, hitems, hdropped, hunfinished⟩ :=
        putNowait_oldest e hfull hpolicy (Nat.le_of_add_right_le h.ge)
      rw [hput]
      exact .droppedOldest e oldest kept rest hfull hpolicy hqueue hitems hdropped hunfinished

theorem step_get (s : Feed ε) : FeedStep s .get s.get := by
  unfold Feed.get
  cases hhand : s.inHand with
  | some e => exact .idle _ (by simp)
  | none =>
    cases hqueue : s.queue.items with
    | nil =>
      have hempty : s.queue.getNowait = none := by
        unfold BoundedQueue.getNowait
        split
        · rfl
        · next hcons => rw [hqueue] at hcons; cases hcons
      rw [hempty]
      exact .idle _ (by simp)
    | cons e kept =>
      obtain ⟨rest, hrest, rfl, hdropped, hunfinished, -⟩ := getNowait_of_cons hqueue
      rw [hrest]
      exact .taken e rest hhand hqueue hdropped hunfinished

theorem step_taskDone {s : Feed ε} (h : s.Balanced) : FeedStep s .taskDone s.taskDone := by
  unfold Feed.taskDone
  cases hhand : s.inHand with
  | none => exact .idle _ (by simp)
  | some e =>
    have hpending : s.queue.unfinished ≠ 0 := by
      rw [Feed.Balanced, hhand] at h
      simp at h
      omega
    simp only [BoundedQueue.taskDone, if_neg hpending]
    exact .done e hhand

/-- **Inversion of a step.** -/
theorem feedStep {s : Feed ε} (h : s.Balanced) (a : FeedAction ε) : FeedStep s a (s.step a) := by
  cases a with
  | enqueue e => exact step_enqueue h e
  | get => exact step_get s
  | taskDone => exact step_taskDone h

/-! ### Conservation -/

/-- Every offered event is consumed, queued or counted as dropped, those not dropped are in order, and nothing
escapes. -/
structure Feed.Conserved (s : Feed ε) : Prop where
  balanced : s.Balanced
  counts : s.offered.length = s.consumed.length + s.queue.qsize + s.queue.droppedCount
  ordered : List.Sublist (s.consumed ++ s.queue.items) s.offered
  raised : s.raised = []

theorem conserved_step {s s' : Feed ε} {a : FeedAction ε} (h : s.Conserved) (hstep : FeedStep s a s') :
    s'.Conserved := by
  obtain ⟨hbalanced, hcounts, hordered, hraised⟩ := h
  rw [Feed.Balanced, BoundedQueue.qsize] at hbalanced
  rw [BoundedQueue.qsize] at hcounts
  cases hstep with
  | queued e rest hfull hitems hdropped hunfinished =>
    refine ⟨?_, ?_, ?_, hraised⟩
    · simp only [Feed.Balanced, BoundedQueue.qsize, hitems, hunfinished, List.length_append, List.length_singleton]
      omega
    · simp only [BoundedQueue.qsize, hitems, hdropped, List.length_append, List.length_singleton]
      omega
    · rw [hitems, ← List.append_assoc]
      exact hordered.append (List.Sublist.refl _)
  | droppedOldest e oldest kept rest hfull hpolicy hqueue hitems hdropped hunfinished =>
    rw [hqueue, List.length_cons] at hbalanced hcounts
    refine ⟨?_, ?_, ?_, hraised⟩
    · simp only [Feed.Balanced, BoundedQueue.qsize, hitems, hunfinished, List.length_append, List.length_singleton]
      exact hbalanced
    · simp only [BoundedQueue.qsize, hitems, hdropped, List.length_append, List.length_singleton]
      omega
    · have hkept : List.Sublist (s.consumed ++ kept) s.offered := by
        rw [hqueue] at hordered
        exact ((List.sublist_cons_self oldest kept).append_left s.consumed).trans hordered
      rw [hitems, ← List.append_assoc]
      exact hkept.append (List.Sublist.refl _)
  | droppedNewest e hfull hpolicy =>
    refine ⟨hbalanced, ?_, hordered.trans (List.sublist_append_left _ _), hraised⟩
    simp only [BoundedQueue.qsize, List.length_append, List.length_singleton]
    omega
  | taken e rest hhand hqueue hdropped hunfinished =>
    rw [hqueue, List.length_cons] at hbalanced hcounts
    rw [hhand] at hbalanced
    refine ⟨?_, ?_, ?_, hraised⟩
    · simpa [Feed.Balanced, BoundedQueue.qsize, hunfinished] using hbalanced
    · simp only [BoundedQueue.qsize, hdropped, List.length_append, List.length_singleton]
      omega
    · rw [hqueue] at hordered
      simpa using hordered
  | done e hhand =>
    rw [hhand] at hbalanced
    refine ⟨?_, hcounts, hordered, hraised⟩
    simp only [Feed.Balanced, BoundedQueue.qsize, Option.toList_none, List.length_nil]
    simp at hbalanced
    omega
  | idle a ha => exact ⟨hbalanced, hcounts, hordered, hraised⟩

/-- The queue as it is made is empty. -/
theorem conserved_new {maxsize : ℤ} {dropPolicy : String} {q : BoundedQueue ε}
    (h : BoundedQueue.new maxsize dropPolicy = .ok q) : ({ queue := q } : Feed ε).Conserved := by
  unfold BoundedQueue.new at h
  split at h
  · cases h
  · split at h
    · cases h
    · cases h
      exact ⟨rfl, rfl, List.Sublist.refl _, rfl⟩

/-- What the queue promises: `Conserved` and its bound, and that the metrics count the drops. -/
structure Feed.Accounted (s : Feed ε) : Prop where
  counts : s.offered.length = s.consumed.length + s.queue.qsize + s.queue.droppedCount
  bounded : s.queue.qsize ≤ s.queue.maxsize
  ordered : List.Sublist (s.consumed ++ s.queue.items) s.offered
  reported : s.metrics.droppedEvents = s.queue.droppedCount

/-- The condition on a step: an event that meets a full queue is dropped itself. -/
def ReportsDrop (s : Feed ε) (a : FeedAction ε) : Prop :=
  ∀ e, a = .enqueue e → s.queue.full = true → s.queue.dropPolicy = .dropNewest

/-- The drops that the metrics do not count, as an integer. -/
def Feed.silent (s : Feed ε) : ℤ := s.queue.droppedCount - s.metrics.droppedEvents

/-- A step adds a silent drop, or it meets the condition. -/
theorem silent_step {s s' : Feed ε} {a : FeedAction ε} (hstep : FeedStep s a s') :
    (s'.silent = s.silent ∧ ReportsDrop s a) ∨ (s'.silent = s.silent + 1 ∧ ¬ ReportsDrop s a) := by
  cases hstep with
  | queued e rest hfull hitems hdropped hunfinished =>
    refine .inl ⟨by simp [Feed.silent, hdropped], fun e' _ h => ?_⟩
    rw [hfull] at h
    cases h
  | droppedOldest e oldest kept rest hfull hpolicy hqueue hitems hdropped hunfinished =>
    refine .inr ⟨by simp only [Feed.silent, hdropped]; push_cast; ring, fun h => ?_⟩
    have hnewest := h e rfl hfull
    rw [hpolicy] at hnewest
    cases hnewest
  | droppedNewest e hfull hpolicy =>
    exact .inl ⟨by simp only [Feed.silent]; push_cast; ring, fun _ _ _ => hpolicy⟩
  | taken e rest hhand hqueue hdropped hunfinished =>
    exact .inl ⟨by simp [Feed.silent, hdropped], fun e' h => by cases h⟩
  | done e hhand => exact .inl ⟨rfl, fun e' h => by cases h⟩
  | idle a ha => exact .inl ⟨rfl, fun e' h => absurd h (ha e')⟩

theorem conserved_run {s : Feed ε} (h : s.Conserved) (l : List (FeedAction ε)) : (run Feed.step s l).Conserved :=
  run_invariant Feed.step Feed.Conserved (fun _ a hs => conserved_step hs (feedStep hs.balanced a)) h l

/-- **No drop is silent** in exactly the runs in which no full queue drops its oldest event; everything else that the
queue promises holds in all runs. -/
theorem accounted_iff {maxsize : ℤ} {dropPolicy : String} {q : BoundedQueue ε}
    (hnew : BoundedQueue.new maxsize dropPolicy = .ok q) (l : List (FeedAction ε)) :
    (feedRun q l).Accounted ↔ Along Feed.step ReportsDrop { queue := q } l := by
  have hstart := conserved_new hnew
  have hnone : ({ queue := q } : Feed ε).silent = 0 := by
    have hcounts := hstart.counts
    simp only [List.length_nil, zero_add] at hcounts
    simp only [Feed.silent]
    omega
  have hsilent : (feedRun q l).silent = ({ queue := q } : Feed ε).silent ↔ Along Feed.step ReportsDrop { queue := q } l := by
    refine counter_iff_along (J := Feed.Conserved) (fun s a hs => conserved_step hs (feedStep hs.balanced a)) ?_ ?_ hstart l
    · intro s a hs
      rcases silent_step (feedStep hs.balanced a) with ⟨h, -⟩ | ⟨h, -⟩ <;> omega
    · intro s a hs
      rcases silent_step (feedStep hs.balanced a) with ⟨h, hG⟩ | ⟨h, hG⟩
      · exact iff_of_true h hG
      · exact iff_of_false (by omega) hG
  rw [← hsilent, hnone]
  obtain ⟨-, hcounts, hordered, -⟩ := conserved_run hstart l
  constructor
  · rintro ⟨-, -, -, hreported⟩
    rw [Feed.silent, hreported, sub_self]
  · intro h
    refine ⟨hcounts, (feedRun q l).queue.bounded, hordered, ?_⟩
    rw [Feed.silent] at h
    omega

/-- A queue for one event. -/
def oneSlot (policy : DropPolicy) : BoundedQueue ℕ := ⟨[], 1, policy, 0, 0, le_rfl, Nat.zero_le _⟩

theorem accounted_iff_sample :
    (feedRun (oneSlot .dropNewest) [.enqueue 1, .enqueue 2]).Accounted ↔
      Along Feed.step ReportsDrop { queue := oneSlot .dropNewest } [.enqueue 1, .enqueue 2] :=
  @accounted_iff _ 1 "drop_newest" _ rfl _

/-- The second event pushes the first out, and the metrics count nothing. -/
theorem not_accounted_drop_oldest :
    BoundedQueue.new 1 "drop_oldest" = .ok (oneSlot .dropOldest) ∧
      ¬ (feedRun (oneSlot .dropOldest) [.enqueue 1, .enqueue 2]).Accounted := by
  refine ⟨rfl, fun h => ?_⟩
  have hreported := h.reported
  revert hreported
  decide

end AlphaAlgo.Market
