import AlphaAlgo.Lib.Runs
import Mathlib

/-!
# Breaker — the circuit breaker of the risk engine

`CircuitBreaker` with its lazily pruned list of failures, its timer and its probe counter.  Instants and durations are
in microseconds, and unbounded: where the window reaches back before year 1, `now - window` raises `OverflowError`, which is
outside the model.

* `Phase` is what the breaker is for: all failures since the last reset while it is closed, the instant it opened
  while it is open, the successes since it became half-open.  `breaker_refines_phase`: with non-decreasing times the
  breaker and its phase give the same answers and the same states, call by call.
* `probes_bounded_iff`: a half-open breaker turns no call away, so the admitted probes are bounded exactly when its
  callers bound their own calls.
-/

namespace AlphaAlgo.Risk

open Runs

inductive CircuitState where
  | closed
  | open
  | halfOpen
deriving DecidableEq, Repr

def CircuitState.value : CircuitState → String
  | closed => "closed"
  | «open» => "open"
  | halfOpen => "half_open"

/-- The last four fields are the checks of `__post_init__`. -/
structure CircuitBreakerConfig where
  failureThreshold : ℤ := 5
  window : ℤ := 60000000
  resetAfter : ℤ := 30000000
  halfOpenProbeLimit : ℤ := 1
  threshold_pos : 0 < failureThreshold := by decide
  window_pos : 0 < window := by decide
  reset_pos : 0 < resetAfter := by decide
  limit_pos : 0 < halfOpenProbeLimit := by decide

theorem default_threshold_pos : (0 : ℤ) < 5 := by decide

theorem default_window_pos : (0 : ℤ) < 60000000 := by decide

theorem default_reset_pos : (0 : ℤ) < 30000000 := by decide

theorem default_limit_pos : (0 : ℤ) < 1 := by decide

/-- The configuration with the default values. -/
def defaultConfig : CircuitBreakerConfig where
  threshold_pos := default_threshold_pos
  window_pos := default_window_pos
  reset_pos := default_reset_pos
  limit_pos := default_limit_pos

structure CircuitBreaker where
  config : CircuitBreakerConfig := {}
  state : CircuitState := .closed
  failures : List ℤ := []
  openedAt : Option ℤ := none
  halfOpenProbes : ℤ := 0

namespace CircuitBreaker

/-- The failures of the window that ends now. -/
def prune (b : CircuitBreaker) (now : ℤ) : CircuitBreaker :=
  { b with failures := b.failures.filter fun t => now - b.config.window < t }

/-- The timer of an open breaker has run off. -/
def resetElapsed (b : CircuitBreaker) (now : ℤ) : Bool := b.openedAt.any fun t => b.config.resetAfter ≤ now - t

def allows (b : CircuitBreaker) (now : ℤ) : CircuitBreaker × Bool :=
  let b := b.prune now
  match b.state with
  | .closed => (b, true)
  | .open =>
    if b.resetElapsed now then
      ({ b with state := .halfOpen, halfOpenProbes := 0 }, true)
    else (b, false)
  | .halfOpen => (b, b.halfOpenProbes < b.config.halfOpenProbeLimit)

def recordFailure (b : CircuitBreaker) (now : ℤ) : CircuitBreaker :=
  let b := b.prune now
  let b := { b with failures := b.failures ++ [now] }
  match b.state with
  | .halfOpen => { b with state := .open, openedAt := some now, halfOpenProbes := 0 }
  | .closed =>
    if b.config.failureThreshold ≤ b.failures.length then { b with state := .open, openedAt := some now } else b
  | .open => b

def recordSuccess (b : CircuitBreaker) (now : ℤ) : CircuitBreaker :=
  let b := b.prune now
  match b.state with
  | .halfOpen =>
    let b := { b with halfOpenProbes := b.halfOpenProbes + 1 }
    if b.config.halfOpenProbeLimit ≤ b.halfOpenProbes then
      { b with state := .closed, failures := [], openedAt := none }
    else b
  | .closed => { b with failures := [] }
  | .open => b

end CircuitBreaker

/-! ### Calls -/

inductive BreakerCall where
  | allows (now : ℤ)
  | recordSuccess (now : ℤ)
  | recordFailure (now : ℤ)
deriving DecidableEq, Repr

namespace BreakerCall

def time : BreakerCall → ℤ
  | allows now => now
  | recordSuccess now => now
  | recordFailure now => now

def isAllows : BreakerCall → Bool
  | allows _ => true
  | _ => false

end BreakerCall

namespace CircuitBreaker

/-- The breaker after a call. -/
def call (b : CircuitBreaker) : BreakerCall → CircuitBreaker
  | .allows now => (b.allows now).1
  | .recordSuccess now => b.recordSuccess now
  | .recordFailure now => b.recordFailure now

/-- What a call returns; the recording calls return nothing. -/
def answer (b : CircuitBreaker) : BreakerCall → Option Bool
  | .allows now => some (b.allows now).2
  | _ => none

/-- The answers of the calls, each with the state after it. -/
def trace : CircuitBreaker → List BreakerCall → List (Option Bool × CircuitState)
  | _, [] => []
  | b, c :: l => (b.answer c, (b.call c).state) :: trace (b.call c) l

end CircuitBreaker

/-! ### What the breaker is for -/

/-- A closed breaker knows its failures since the last reset, an open one when it opened, a half-open one the
successes since it became half-open. -/
inductive Phase where
  | closed (failures : List ℤ)
  | open (since : ℤ)
  | halfOpen (successes : ℤ)

namespace Phase

variable (config : CircuitBreakerConfig)

def state : Phase → CircuitState
  | closed _ => .closed
  | «open» _ => .open
  | halfOpen _ => .halfOpen

/-- The failures in the sliding window that ends now. -/
def inWindow (failures : List ℤ) (now : ℤ) : List ℤ := failures.filter fun t => now - config.window < t

/-- The phase after a call. -/
def call : Phase → BreakerCall → Phase
  | closed failures, .recordFailure now =>
    if (inWindow config (failures ++ [now]) now).length = config.failureThreshold then .open now
    else .closed (failures ++ [now])
  | closed _, .recordSuccess _ => .closed []
  | closed failures, .allows _ => .closed failures
  | «open» since, .allows now => if config.resetAfter ≤ now - since then .halfOpen 0 else .open since
  | «open» since, _ => .open since
  | halfOpen _, .recordFailure now => .open now
  | halfOpen successes, .recordSuccess _ =>
    if successes + 1 = config.halfOpenProbeLimit then .closed [] else .halfOpen (successes + 1)
  | halfOpen successes, .allows _ => .halfOpen successes

/-- An open breaker denies until `resetAfter` has elapsed; otherwise calls are let through. -/
def answer : Phase → BreakerCall → Option Bool
  | «open» since, .allows now => some (decide (config.resetAfter ≤ now - since))
  | _, .allows _ => some true
  | _, _ => none

def trace : Phase → List BreakerCall → List (Option Bool × CircuitState)
  | _, [] => []
  | p, c :: l => (p.answer config c, (p.call config c).state) :: trace (p.call config c) l

end Phase

/-! ### Refinement -/

section Refinement

variable {config : CircuitBreakerConfig}

theorem inWindow_append (failures : List ℤ) (now : ℤ) :
    Phase.inWindow config (failures ++ [now]) now = Phase.inWindow config failures now ++ [now] := by
  have hnow : now - config.window < now := by have := config.window_pos; omega
  simp [Phase.inWindow, hnow]

/-- A later window of a pruned list is the later window of the list. -/
theorem inWindow_inWindow (failures : List ℤ) {t now : ℤ} (h : t ≤ now) :
    Phase.inWindow config (Phase.inWindow config failures t) now = Phase.inWindow config failures now := by
  unfold Phase.inWindow
  rw [List.filter_filter]
  apply List.filter_congr
  intro x _
  have hcut : now - config.window < x → t - config.window < x := by omega
  rw [← Bool.decide_and]
  exact decide_eq_decide.mpr ⟨fun hx => hx.1, fun hx => ⟨hx, hcut hx⟩⟩

/-- Failures only leave the window. -/
theorem length_inWindow_le (failures : List ℤ) {t now : ℤ} (h : t ≤ now) :
    (Phase.inWindow config failures now).length ≤ (Phase.inWindow config failures t).length := by
  rw [← inWindow_inWindow failures h]
  exact List.length_filter_le _ _

/-- The breaker is in a phase at the time `last`: the windows that are still to come see the same failures, fewer than
the threshold. -/
inductive InPhase (last : ℤ) (b : CircuitBreaker) : Phase → Prop
  | closed {failures : List ℤ} (hs : b.state = .closed)
      (hw : ∀ now, last ≤ now →
        Phase.inWindow b.config b.failures now = Phase.inWindow b.config failures now)
      (hlt : (Phase.inWindow b.config failures last).length < b.config.failureThreshold) :
      InPhase last b (.closed failures)
  | open {since : ℤ} (hs : b.state = .open) (ho : b.openedAt = some since) : InPhase last b (.open since)
  | halfOpen {successes : ℤ} (hs : b.state = .halfOpen) (hp : b.halfOpenProbes = successes)
      (hlt : successes < b.config.halfOpenProbeLimit) : InPhase last b (.halfOpen successes)

theorem InPhase.state_eq {last : ℤ} {b : CircuitBreaker} {p : Phase} (h : InPhase last b p) : b.state = p.state := by
  cases h with
  | closed hs => exact hs
  | «open» hs => exact hs
  | halfOpen hs => exact hs

theorem CircuitBreaker.config_call (b : CircuitBreaker) (c : BreakerCall) : (b.call c).config = b.config := by
  cases c with
  | allows now =>
    simp only [call, allows]
    cases (b.prune now).state with
    | closed => rfl
    | «open» => dsimp only; split_ifs <;> rfl
    | halfOpen => rfl
  | recordSuccess now =>
    simp only [call, recordSuccess]
    cases (b.prune now).state with
    | closed => rfl
    | «open» => rfl
    | halfOpen => dsimp only; split_ifs <;> rfl
  | recordFailure now =>
    simp only [call, recordFailure]
    cases (b.prune now).state with
    | closed => dsimp only; split_ifs <;> rfl
    | «open» => rfl
    | halfOpen => rfl

/-- The answers and the phases after a call on a closed breaker. -/
theorem InPhase.call_closed {last : ℤ} {b : CircuitBreaker} {failures : List ℤ} {c : BreakerCall}
    (hs : b.state = .closed)
    (hw : ∀ now, last ≤ now → Phase.inWindow b.config b.failures now = Phase.inWindow b.config failures now)
    (hlt : (Phase.inWindow b.config failures last).length < b.config.failureThreshold) (ht : last ≤ c.time) :
    b.answer c = Phase.answer b.config (.closed failures) c ∧
      InPhase c.time (b.call c) (Phase.call b.config (.closed failures) c) := by
  have hpruned : (b.prune c.time).failures = Phase.inWindow b.config failures c.time := hw _ ht
  have hlater : ∀ now, c.time ≤ now →
      Phase.inWindow b.config (b.prune c.time).failures now = Phase.inWindow b.config failures now := by
    intro now hnow
    rw [hpruned, inWindow_inWindow failures hnow]
  have hfewer : (Phase.inWindow b.config failures c.time).length < b.config.failureThreshold := by
    have hle : (Phase.inWindow b.config failures c.time).length ≤ (Phase.inWindow b.config failures last).length :=
      length_inWindow_le failures ht
    omega
  have hstate : (b.prune c.time).state = .closed := hs
  cases c with
  | allows now =>
    simp only [BreakerCall.time] at hpruned hlater hfewer hstate
    have hall : b.allows now = (b.prune now, true) := by simp only [CircuitBreaker.allows, hstate]
    refine ⟨by simp only [CircuitBreaker.answer, hall, Phase.answer], ?_⟩
    simp only [CircuitBreaker.call, hall, Phase.call]
    exact .closed hstate hlater hfewer
  | recordSuccess now =>
    simp only [BreakerCall.time] at hstate
    have hrec : b.recordSuccess now = { b.prune now with failures := [] } := by
      simp only [CircuitBreaker.recordSuccess, hstate]
    refine ⟨rfl, ?_⟩
    simp only [CircuitBreaker.call, hrec, Phase.call]
    exact .closed hstate (fun _ _ => rfl) b.config.threshold_pos
  | recordFailure now =>
    simp only [BreakerCall.time] at hpruned hlater hfewer hstate
    have hcount : (Phase.inWindow b.config (failures ++ [now]) now).length =
        (Phase.inWindow b.config failures now).length + 1 := by
      rw [inWindow_append, List.length_append, List.length_singleton]
    refine ⟨rfl, ?_⟩
    simp only [CircuitBreaker.call, CircuitBreaker.recordFailure, hstate, Phase.call, hpruned, List.length_append,
      List.length_singleton, hcount, Nat.cast_add, Nat.cast_one]
    by_cases hreach : ((Phase.inWindow b.config failures now).length : ℤ) + 1 = b.config.failureThreshold
    · rw [if_pos hreach, if_pos (show (b.prune now).config.failureThreshold ≤ _ from hreach.ge)]
      exact .open rfl rfl
    · have hless : ¬ (b.prune now).config.failureThreshold ≤
          ((Phase.inWindow b.config failures now).length : ℤ) + 1 := by
        intro hle
        have hle' : b.config.failureThreshold ≤ ((Phase.inWindow b.config failures now).length : ℤ) + 1 := hle
        omega
      rw [if_neg hreach, if_neg hless]
      refine .closed rfl (fun t htn => ?_) ?_
      · change now ≤ t at htn
        show Phase.inWindow b.config (Phase.inWindow b.config failures now ++ [now]) t = _
        rw [← inWindow_append, inWindow_inWindow _ htn]
        rfl
      · show ((Phase.inWindow b.config (failures ++ [now]) now).length : ℤ) < b.config.failureThreshold
        rw [hcount]
        push_cast
        omega

theorem InPhase.call_open {last : ℤ} {b : CircuitBreaker} {since : ℤ} {c : BreakerCall}
    (hs : b.state = .open) (ho : b.openedAt = some since) :
    b.answer c = Phase.answer b.config (.open since) c ∧
      InPhase last (b.call c) (Phase.call b.config (.open since) c) := by
  cases c with
  | allows now =>
    have hstate : (b.prune now).state = .open := hs
    have hreset : (b.prune now).resetElapsed now = decide (b.config.resetAfter ≤ now - since) := by
      show b.resetElapsed now = _
      rw [CircuitBreaker.resetElapsed, ho, Option.any_some]
    simp only [CircuitBreaker.answer, CircuitBreaker.call, CircuitBreaker.allows, hstate, hreset, Phase.answer,
      Phase.call]
    by_cases helapsed : b.config.resetAfter ≤ now - since
    · simp only [helapsed, decide_true, if_true, true_and]
      exact .halfOpen rfl rfl b.config.limit_pos
    · simp only [helapsed, decide_false, Bool.false_eq_true, if_false, true_and]
      exact .open hstate ho
  | recordSuccess now =>
    have hstate : (b.prune now).state = .open := hs
    simp only [CircuitBreaker.answer, Phase.answer, CircuitBreaker.call, CircuitBreaker.recordSuccess, hstate,
      Phase.call, true_and]
    exact .open hstate ho
  | recordFailure now =>
    have hstate : (b.prune now).state = .open := hs
    simp only [CircuitBreaker.answer, Phase.answer, CircuitBreaker.call, CircuitBreaker.recordFailure, hstate,
      Phase.call, true_and]
    exact .open rfl ho

theorem InPhase.call_halfOpen {last : ℤ} {b : CircuitBreaker} {c : BreakerCall} (hs : b.state = .halfOpen)
    (hlt : b.halfOpenProbes < b.config.halfOpenProbeLimit) :
    b.answer c = Phase.answer b.config (.halfOpen b.halfOpenProbes) c ∧
      InPhase last (b.call c) (Phase.call b.config (.halfOpen b.halfOpenProbes) c) := by
  cases c with
  | allows now =>
    have hstate : (b.prune now).state = .halfOpen := hs
    have hprobes : (b.prune now).halfOpenProbes < (b.prune now).config.halfOpenProbeLimit := hlt
    simp only [CircuitBreaker.answer, CircuitBreaker.call, CircuitBreaker.allows, hstate, hprobes, decide_true,
      Phase.answer, Phase.call, true_and]
    exact .halfOpen hstate rfl hlt
  | recordSuccess now =>
    have hstate : (b.prune now).state = .halfOpen := hs
    have hprobes : (b.prune now).halfOpenProbes = b.halfOpenProbes := rfl
    have hlimit : (b.prune now).config.halfOpenProbeLimit = b.config.halfOpenProbeLimit := rfl
    simp only [CircuitBreaker.answer, Phase.answer, CircuitBreaker.call, CircuitBreaker.recordSuccess, hstate,
      hprobes, hlimit, Phase.call, true_and]
    by_cases hlast : b.halfOpenProbes + 1 = b.config.halfOpenProbeLimit
    · rw [if_pos hlast, if_pos hlast.ge]
      exact .closed rfl (fun _ _ => rfl) b.config.threshold_pos
    · have hmore : b.halfOpenProbes + 1 < b.config.halfOpenProbeLimit := by omega
      rw [if_neg hlast, if_neg (not_le.mpr hmore)]
      exact .halfOpen rfl rfl hmore
  | recordFailure now =>
    have hstate : (b.prune now).state = .halfOpen := hs
    simp only [CircuitBreaker.answer, Phase.answer, CircuitBreaker.call, CircuitBreaker.recordFailure, hstate,
      Phase.call, true_and]
    exact .open rfl rfl

/-- **One call**: the answers agree, and the breaker is in the next phase. -/
theorem InPhase.call {last : ℤ} {b : CircuitBreaker} {p : Phase} (h : InPhase last b p) {c : BreakerCall}
    (ht : last ≤ c.time) :
    b.answer c = p.answer b.config c ∧ InPhase c.time (b.call c) (p.call b.config c) := by
  cases h with
  | closed hs hw hlt => exact InPhase.call_closed hs hw hlt ht
  | «open» hs ho => exact InPhase.call_open hs ho
  | halfOpen hs hp hlt =>
    subst hp
    exact InPhase.call_halfOpen hs hlt

theorem InPhase.trace_eq {last : ℤ} {b : CircuitBreaker} {p : Phase} (h : InPhase last b p) {calls : List BreakerCall}
    (hle : ∀ c ∈ calls, last ≤ c.time) (hmono : (calls.map BreakerCall.time).Pairwise (· ≤ ·)) :
    b.trace calls = p.trace b.config calls := by
  induction calls generalizing last b p with
  | nil => rfl
  | cons c l ih =>
    obtain ⟨hanswer, hnext⟩ := h.call (hle c List.mem_cons_self)
    rw [List.map_cons, List.pairwise_cons] at hmono
    have hlater : ∀ d ∈ l, c.time ≤ d.time := fun d hd => hmono.1 _ (List.mem_map_of_mem hd)
    rw [CircuitBreaker.trace, Phase.trace, hanswer, hnext.state_eq, ih hnext hlater hmono.2, b.config_call]

end Refinement

/-- **The breaker refines its phases**: calls in non-decreasing times are answered as the phase answers them, and lead
through the same states. -/
theorem breaker_refines_phase (config : CircuitBreakerConfig) (calls : List BreakerCall)
    (hmono : (calls.map BreakerCall.time).Pairwise (· ≤ ·)) :
    CircuitBreaker.trace { config := config } calls = Phase.trace config (.closed []) calls := by
  cases calls with
  | nil => rfl
  | cons c l =>
    have hstart : InPhase c.time { config := config } (.closed []) :=
      .closed rfl (fun _ _ => rfl) config.threshold_pos
    refine hstart.trace_eq (fun d hd => ?_) hmono
    rw [List.map_cons, List.pairwise_cons] at hmono
    rcases List.mem_cons.mp hd with rfl | hd
    · exact le_rfl
    · exact hmono.1 _ (List.mem_map_of_mem hd)

/-- Two failures in a window of ten, a reset after twenty, two probes. -/
def smallConfig : CircuitBreakerConfig where
  failureThreshold := 2
  window := 10
  resetAfter := 20
  halfOpenProbeLimit := 2

/-- An opening, a denied call, two probes, and a failure after the return to closed. -/
def recovery : List BreakerCall :=
  [.recordFailure 0, .recordFailure 9, .allows 28, .allows 29, .recordSuccess 30, .recordSuccess 31, .recordFailure 31]

theorem breaker_refines_phase_recovery :
    CircuitBreaker.trace { config := smallConfig } recovery = Phase.trace smallConfig (.closed []) recovery ∧
      Phase.trace smallConfig (.closed []) recovery =
        [(none, .closed), (none, .open), (some false, .open), (some true, .halfOpen), (none, .halfOpen),
          (none, .closed), (none, .closed)] :=
  ⟨breaker_refines_phase smallConfig recovery (by decide), by decide⟩

/-! ### Probes -/

namespace CircuitBreaker

/-- How many of the calls are let through. -/
def admitted (b : CircuitBreaker) (calls : List BreakerCall) : ℕ := (b.trace calls).countP fun a => a.1 = some true

/-- The breaker is open and its timer has run off: the next `allows` makes it half-open. -/
def Due (b : CircuitBreaker) (c : BreakerCall) : Prop :=
  c.isAllows = true ∧ b.state = .open ∧ b.resetElapsed c.time = true

instance (b : CircuitBreaker) (c : BreakerCall) : Decidable (b.Due c) := inferInstanceAs (Decidable (_ ∧ _))

/-- From the call that makes the breaker half-open to the next recorded outcome, at most `half_open_probe_limit` calls
are let through. -/
def ProbesBounded (b : CircuitBreaker) (calls : List BreakerCall) : Prop :=
  ∀ l c m r, calls = l ++ c :: m ++ r → (run call b l).state ≠ .halfOpen →
    ((run call b l).call c).state = .halfOpen → (∀ d ∈ m, d.isAllows = true) →
      (admitted (run call b l) (c :: m) : ℤ) ≤ b.config.halfOpenProbeLimit

/-- From an `allows` that is due to the next recorded outcome, the callers make at most `half_open_probe_limit` calls. -/
def CallersBounded (b : CircuitBreaker) (calls : List BreakerCall) : Prop :=
  ∀ l c m r, calls = l ++ c :: m ++ r → (run call b l).Due c → (∀ d ∈ m, d.isAllows = true) →
    (m.length + 1 : ℤ) ≤ b.config.halfOpenProbeLimit

/-- A call makes the breaker half-open exactly when it is due. -/
theorem enters_iff_due (b : CircuitBreaker) (c : BreakerCall) :
    b.state ≠ .halfOpen ∧ (b.call c).state = .halfOpen ↔ b.Due c := by
  cases c with
  | allows now =>
    have hstate : (b.prune now).state = b.state := rfl
    have helapsed : (b.prune now).resetElapsed now = b.resetElapsed now := rfl
    cases hs : b.state with
    | closed => simp [Due, call, allows, hstate, hs]
    | halfOpen => simp [Due, hs]
    | «open» =>
      simp only [Due, call, allows, hstate, helapsed, hs, BreakerCall.isAllows, BreakerCall.time]
      cases b.resetElapsed now with
      | true => simp
      | false => simp [hstate, hs]
  | recordSuccess now =>
    have hstate : (b.prune now).state = b.state := rfl
    cases hs : b.state with
    | halfOpen => simp [Due, hs]
    | closed => simp [Due, call, recordSuccess, hstate, hs, BreakerCall.isAllows]
    | «open» => simp [Due, call, recordSuccess, hstate, hs, BreakerCall.isAllows]
  | recordFailure now =>
    have hstate : (b.prune now).state = b.state := rfl
    cases hs : b.state with
    | halfOpen => simp [Due, hs]
    | closed =>
      simp only [Due, call, recordFailure, hstate, hs, BreakerCall.isAllows]
      split_ifs <;> simp
    | «open» => simp [Due, call, recordFailure, hstate, hs, BreakerCall.isAllows]

/-- A half-open breaker lets every call through, as long as no outcome is recorded. -/
theorem admitted_halfOpen {b : CircuitBreaker} {m : List BreakerCall} (hs : b.state = .halfOpen)
    (hlt : b.halfOpenProbes < b.config.halfOpenProbeLimit) (hm : ∀ d ∈ m, d.isAllows = true) :
    b.admitted m = m.length := by
  induction m generalizing b with
  | nil => rfl
  | cons d m ih =>
    cases d with
    | allows now =>
      have hall : b.allows now = (b.prune now, true) := by
        have hstate : (b.prune now).state = .halfOpen := hs
        have hprobes : (b.prune now).halfOpenProbes < (b.prune now).config.halfOpenProbeLimit := hlt
        simp only [allows, hstate, hprobes, decide_true]
      have hrest : (b.prune now).admitted m = m.length :=
        ih hs hlt fun e he => hm e (List.mem_cons_of_mem _ he)
      unfold admitted at hrest ⊢
      simp only [trace, answer, call, hall, List.countP_cons, hrest, decide_true, if_true, List.length_cons]
    | recordSuccess now => cases hm _ List.mem_cons_self
    | recordFailure now => cases hm _ List.mem_cons_self

/-- A due call and the `allows` calls after it are all let through. -/
theorem admitted_of_due {b : CircuitBreaker} {c : BreakerCall} {m : List BreakerCall} (h : b.Due c)
    (hm : ∀ d ∈ m, d.isAllows = true) : b.admitted (c :: m) = m.length + 1 := by
  obtain ⟨hc, hs, helapsed⟩ := h
  cases c with
  | allows now =>
    have hall : b.allows now = ({ b.prune now with state := .halfOpen, halfOpenProbes := 0 }, true) := by
      have hstate : (b.prune now).state = .open := hs
      have hreset : (b.prune now).resetElapsed now = true := helapsed
      simp only [allows, hstate, hreset, if_true]
    have hrest := admitted_halfOpen (b := { b.prune now with state := .halfOpen, halfOpenProbes := 0 }) rfl
      b.config.limit_pos hm
    unfold admitted at hrest ⊢
    simp only [trace, answer, call, hall, List.countP_cons, hrest, decide_true, if_true]
  | recordSuccess now => cases hc
  | recordFailure now => cases hc

/-- **The code bounds no probes**: the admitted probes stay within the limit exactly when the callers make no more
calls than that. -/
theorem probes_bounded_iff (config : CircuitBreakerConfig) (calls : List BreakerCall) :
    ProbesBounded { config := config } calls ↔ CallersBounded { config := config } calls := by
  constructor
  · intro h l c m r hcalls hdue hm
    obtain ⟨hbefore, hafter⟩ := (enters_iff_due _ c).mpr hdue
    have hle := h l c m r hcalls hbefore hafter hm
    rw [admitted_of_due hdue hm] at hle
    exact_mod_cast hle
  · intro h l c m r hcalls hbefore hafter hm
    have hdue := (enters_iff_due _ c).mp ⟨hbefore, hafter⟩
    rw [admitted_of_due hdue hm]
    exact_mod_cast h l c m r hcalls hdue hm

/-- With the default limit of one probe, two calls in a row are let through after five failures. -/
theorem not_probesBounded_unrecorded : ¬ ProbesBounded {}
    [.recordFailure 0, .recordFailure 1, .recordFailure 2, .recordFailure 3, .recordFailure 4, .allows 30000004,
      .allows 30000005] := by
  intro h
  have hle := h [.recordFailure 0, .recordFailure 1, .recordFailure 2, .recordFailure 3, .recordFailure 4]
    (.allows 30000004) [.allows 30000005] [] rfl (by decide) (by decide) (by decide)
  exact absurd hle (by decide)

end CircuitBreaker

/-! ### Breakers by scope -/

/-- The breakers of the scopes used so far; a scope that is not listed has a new breaker. -/
structure CircuitBreakerRegistry where
  config : CircuitBreakerConfig := {}
  breakers : List (String × CircuitBreaker) := []

namespace CircuitBreakerRegistry

def breaker (r : CircuitBreakerRegistry) (scopeKey : String) : CircuitBreaker :=
  (r.breakers.lookup scopeKey).getD { config := r.config }

def call (r : CircuitBreakerRegistry) (scopeKey : String) (c : BreakerCall) : CircuitBreakerRegistry :=
  { r with breakers := (scopeKey, (r.breaker scopeKey).call c) :: r.breakers.filter fun e => e.1 ≠ scopeKey }

def allows (r : CircuitBreakerRegistry) (scopeKey : String) (now : ℤ) : CircuitBreakerRegistry × Bool :=
  (r.call scopeKey (.allows now), ((r.breaker scopeKey).allows now).2)

def recordSuccess (r : CircuitBreakerRegistry) (scopeKey : String) (now : ℤ) : CircuitBreakerRegistry :=
  r.call scopeKey (.recordSuccess now)

def recordFailure (r : CircuitBreakerRegistry) (scopeKey : String) (now : ℤ) : CircuitBreakerRegistry :=
  r.call scopeKey (.recordFailure now)

end CircuitBreakerRegistry

end AlphaAlgo.Risk
