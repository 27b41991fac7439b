import AlphaAlgo.Lib.Binary
import AlphaAlgo.Lib.Dict
import AlphaAlgo.Lib.Sliding

/-!
# RateLimit — the limiter of the API

`SlidingWindowRateLimiter.allow` keeps a window of times for each key; every 1024th call first sweeps the empty windows
out.  Times are rational numbers, every float among them; the difference of two times is rounded as the code's is.

* `windowAt_run`, `answersAt_eq`: under each key the limiter is the sliding window of the calls of that key alone, whatever
  is swept.
* `allow_limited`: the bound of every window, the calls that are denied, and the independence of the keys, with ages as
  the code measures them; with exact ages where no difference of two calls is rounded.
* `keys_run`: with a limit of one or more no window is ever empty, so nothing is ever swept out.
* `swept_iff`: the sweep leaves active keys alone exactly when no key has gone quiet.
-/

namespace AlphaAlgo.Api

open Runs

structure SlidingWindowRateLimiter where
  limit : ℤ
  windowSeconds : ℚ
  hits : Dict String (List ℚ)
  calls : ℕ

/-- A call of `allow`, with the time it reads. -/
structure AllowCall where
  key : String
  time : ℚ
deriving DecidableEq

namespace SlidingWindowRateLimiter

def new (limit : ℤ) (windowSeconds : ℚ) : SlidingWindowRateLimiter := ⟨limit, windowSeconds, Dict.empty, 0⟩

/-- The window under a key; an absent key has an empty one. -/
def windowAt (s : SlidingWindowRateLimiter) (key : String) : List ℚ := (s.hits.get? key).getD []

/-- `_sweep`. -/
def sweep (s : SlidingWindowRateLimiter) : SlidingWindowRateLimiter :=
  let empty := (s.hits.items.filter fun p => p.2 = []).map Prod.fst
  { s with hits := empty.foldl Dict.erase s.hits }

/-- What `allow` does before it looks at the window. -/
def counted (s : SlidingWindowRateLimiter) : SlidingWindowRateLimiter :=
  let s := { s with calls := s.calls + 1 }
  if s.calls % 1024 = 0 then s.sweep else s

/-- `now - t` of two floats. -/
def elapsed (now t : ℚ) : ℚ := Binary.round 53 (now - t)

def allow (s : SlidingWindowRateLimiter) (key : String) (now : ℚ) : SlidingWindowRateLimiter × Bool :=
  let s := s.counted
  let window := (s.windowAt key).dropWhile fun t => s.windowSeconds ≤ elapsed now t
  if s.limit ≤ window.length then ({ s with hits := s.hits.set key window }, false)
  else ({ s with hits := s.hits.set key (window ++ [now]) }, true)

/-- The limiter after a call. -/
def step (s : SlidingWindowRateLimiter) (call : AllowCall) : SlidingWindowRateLimiter := (s.allow call.key call.time).1

/-- The calls with their answers. -/
def answers (s : SlidingWindowRateLimiter) (calls : List AllowCall) : List (AllowCall × Bool) :=
  outputs step (fun s call => (call, (s.allow call.key call.time).2)) s calls

end SlidingWindowRateLimiter

open SlidingWindowRateLimiter

/-! ### The limiter under one key -/

/-- The times of the calls of a key. -/
def timesAt (calls : List AllowCall) (key : String) : List ℚ :=
  (calls.filter fun call => call.key = key).map AllowCall.time

section Keys

variable {s : SlidingWindowRateLimiter} {key key' : String} {limit : ℤ} {w : ℚ}

theorem get?_foldl_erase {V : Type*} : ∀ {keys : List String} {d : Dict String V},
    (keys.foldl Dict.erase d).get? key = if key ∈ keys then none else d.get? key
  | [], d => by simp
  | k :: keys, d => by
    rw [List.foldl_cons, get?_foldl_erase, Dict.get?_erase]
    by_cases hk : key = k <;> by_cases hkeys : key ∈ keys <;> simp [hk, hkeys]

/-- A sweep takes away what an absent key has anyway. -/
@[simp] theorem windowAt_sweep (s : SlidingWindowRateLimiter) (key : String) : s.sweep.windowAt key = s.windowAt key := by
  rw [windowAt, sweep]
  dsimp only
  rw [get?_foldl_erase]
  split_ifs with h
  · obtain ⟨p, hp, rfl⟩ := List.mem_map.mp h
    obtain ⟨hitem, hnil⟩ := List.mem_filter.mp hp
    have hget : s.hits.get? p.1 = some p.2 := Dict.get?_eq_some.mpr hitem
    rw [windowAt, hget, of_decide_eq_true hnil]
    rfl
  · rfl

@[simp] theorem windowAt_counted (s : SlidingWindowRateLimiter) (key : String) : s.counted.windowAt key = s.windowAt key := by
  unfold counted
  dsimp only
  split_ifs
  · rw [windowAt_sweep]
    rfl
  · rfl

@[simp] theorem limit_counted (s : SlidingWindowRateLimiter) : s.counted.limit = s.limit := by
  unfold counted
  dsimp only
  split_ifs <;> rfl

@[simp] theorem windowSeconds_counted (s : SlidingWindowRateLimiter) : s.counted.windowSeconds = s.windowSeconds := by
  unfold counted
  dsimp only
  split_ifs <;> rfl

/-- **A call**, by the sliding window of its key. -/
theorem allow_eq (s : SlidingWindowRateLimiter) (key : String) (now : ℚ) :
    s.allow key now =
      ({ s.counted with hits := s.counted.hits.set key (Sliding.slide elapsed s.limit s.windowSeconds (s.windowAt key) now) },
        Sliding.admits elapsed s.limit s.windowSeconds (s.windowAt key) now) := by
  rw [allow]
  simp only [windowAt_counted, limit_counted, windowSeconds_counted]
  rw [← Sliding.prune, Sliding.slide, Sliding.admits]
  split_ifs with hfull hadmit hadmit
  · exact absurd (of_decide_eq_true hadmit) (not_lt.mpr hfull)
  · simp [hfull]
  · simp [not_le.mp hfull]
  · exact absurd (decide_eq_true (not_le.mp hfull)) hadmit

theorem step_eq (s : SlidingWindowRateLimiter) (call : AllowCall) :
    step s call = { s.counted with
      hits := s.counted.hits.set call.key
        (Sliding.slide elapsed s.limit s.windowSeconds (s.windowAt call.key) call.time) } := by
  rw [step, allow_eq]

/-- A call slides the window of its key and leaves the others alone. -/
theorem windowAt_step (s : SlidingWindowRateLimiter) (call : AllowCall) (key : String) :
    (step s call).windowAt key =
      if key = call.key then Sliding.slide elapsed s.limit s.windowSeconds (s.windowAt key) call.time else s.windowAt key := by
  rw [step_eq, windowAt]
  dsimp only
  rw [Dict.get?_set]
  split_ifs with h
  · rw [h]
    rfl
  · exact windowAt_counted s key

theorem config_run (limit : ℤ) (w : ℚ) (calls : List AllowCall) :
    (run step (new limit w) calls).limit = limit ∧ (run step (new limit w) calls).windowSeconds = w := by
  refine run_invariant step (fun s => s.limit = limit ∧ s.windowSeconds = w) (fun s call h => ?_) ⟨rfl, rfl⟩ calls
  rw [step_eq]
  exact ⟨(limit_counted s).trans h.1, (windowSeconds_counted s).trans h.2⟩

theorem timesAt_concat (calls : List AllowCall) (call : AllowCall) (key : String) :
    timesAt (calls ++ [call]) key = timesAt calls key ++ if call.key = key then [call.time] else [] := by
  rw [timesAt, List.filter_append, List.map_append, List.filter_singleton]
  split_ifs with h
  · simp [timesAt, h]
  · simp [timesAt, h]

/-- **Under each key** the limiter holds the sliding window of the calls of that key. -/
theorem windowAt_run (limit : ℤ) (w : ℚ) (calls : List AllowCall) (key : String) :
    (run step (new limit w) calls).windowAt key = Sliding.window elapsed limit w (timesAt calls key) := by
  induction calls using List.reverseRecOn with
  | nil => rfl
  | append_singleton calls call ih =>
    rw [run_concat, windowAt_step, (config_run limit w calls).1, (config_run limit w calls).2, ih, timesAt_concat]
    by_cases h : key = call.key
    · rw [if_pos h, if_pos h.symm, Sliding.window, Sliding.window, run_concat]
    · rw [if_neg h, if_neg (Ne.symm h), List.append_nil]

/-- **The answers to a key** are those of the sliding window of its calls. -/
theorem answersAt_eq (limit : ℤ) (w : ℚ) (calls : List AllowCall) (key : String) :
    ((answers (new limit w) calls).filter fun p => p.1.key = key).map (fun p => (p.1.time, p.2)) =
      Sliding.answers elapsed limit w (timesAt calls key) := by
  induction calls using List.reverseRecOn with
  | nil => rfl
  | append_singleton calls call ih =>
    rw [answers, outputs_concat, ← answers, List.filter_append, List.map_append, ih, timesAt_concat, allow_eq,
      windowAt_run, (config_run limit w calls).1, (config_run limit w calls).2, List.filter_singleton]
    by_cases h : call.key = key
    · subst h
      rw [if_pos rfl, Sliding.answers, Sliding.answers, outputs_concat]
      simp [Sliding.window]
    · rw [if_neg h]
      simp [h]

end Keys

/-! ### The limit -/

section Limit

variable {limit : ℤ} {w : ℚ} {calls : List AllowCall} {key : String}

/-- The answers to the calls of a key. -/
def answersAt (limit : ℤ) (w : ℚ) (calls : List AllowCall) (key : String) : List Bool :=
  ((answers (new limit w) calls).filter fun p => p.1.key = key).map Prod.snd

/-- The times of the calls of a key that are allowed. -/
def allowedAt (limit : ℤ) (w : ℚ) (calls : List AllowCall) (key : String) : List ℚ :=
  ((answers (new limit w) calls).filter fun p => p.1.key = key && p.2).map fun p => p.1.time

theorem answersAt_eq_map (limit : ℤ) (w : ℚ) (calls : List AllowCall) (key : String) :
    answersAt limit w calls key = (Sliding.answers elapsed limit w (timesAt calls key)).map Prod.snd := by
  rw [← answersAt_eq, List.map_map]
  rfl

theorem allowedAt_eq (limit : ℤ) (w : ℚ) (calls : List AllowCall) (key : String) :
    allowedAt limit w calls key = Sliding.admitted elapsed limit w (timesAt calls key) := by
  rw [Sliding.admitted, ← answersAt_eq, List.filter_map, List.map_map, List.filter_filter, allowedAt]
  simp only [Function.comp_def, Bool.and_comm]

theorem sorted_timesAt (hsorted : (calls.map AllowCall.time).Pairwise (· ≤ ·)) (key : String) :
    (timesAt calls key).Pairwise (· ≤ ·) := hsorted.sublist (List.filter_sublist.map AllowCall.time)

theorem ageing_elapsed : Sliding.Ageing elapsed :=
  ⟨fun t _ _ h => Binary.round_mono (by norm_num) (sub_le_sub_right h t),
    fun now _ _ h => Binary.round_mono (by norm_num) (sub_le_sub_left h now)⟩

/-- What the limiter promises, with the age of a time as `age` measures it. -/
structure Limited (age : ℚ → ℚ → ℚ) (limit : ℤ) (w : ℚ) (calls : List AllowCall) : Prop where
  onward : ∀ key start,
    ((allowedAt limit w calls key).countP (fun t => start ≤ t ∧ age t start < w) : ℤ) ≤ max limit 0
  backward : ∀ key finish,
    ((allowedAt limit w calls key).countP (fun t => t ≤ finish ∧ age finish t < w) : ℤ) ≤ max limit 0
  denied : ∀ before call, before ++ [call] <+: calls →
    ((run step (new limit w) before).allow call.key call.time).2 = false →
    limit ≤ (allowedAt limit w before call.key).countP fun t => age call.time t < w
  apart : ∀ key others, (others.filter fun call => call.key = key) = (calls.filter fun call => call.key = key) →
    answersAt limit w others key = answersAt limit w calls key

theorem allowedAt_subset {t : ℚ} (h : t ∈ allowedAt limit w calls key) : t ∈ timesAt calls key := by
  rw [allowedAt_eq] at h
  exact (Sliding.admitted_sublist elapsed limit w _).subset h

theorem mem_times {t : ℚ} (h : t ∈ timesAt calls key) : t ∈ calls.map AllowCall.time :=
  (List.filter_sublist.map AllowCall.time).subset h

/-- A call that is denied comes after `limit` allowed ones of its key that are less than `w` old. -/
theorem le_of_denied {call : AllowCall} (hsorted : ((calls ++ [call]).map AllowCall.time).Pairwise (· ≤ ·))
    (hdenied : ((run step (new limit w) calls).allow call.key call.time).2 = false) :
    limit ≤ (allowedAt limit w calls call.key).countP fun t => elapsed call.time t < w := by
  rw [List.map_append, List.pairwise_append] at hsorted
  obtain ⟨hcalls, -, hle⟩ := hsorted
  have hnow : ∀ t ∈ timesAt calls call.key, t ≤ call.time := fun t ht =>
    hle t (mem_times ht) call.time (List.mem_singleton_self _)
  rw [allow_eq, (config_run limit w calls).1, (config_run limit w calls).2, windowAt_run] at hdenied
  rw [allowedAt_eq]
  by_contra hlt
  rw [(Sliding.admits_iff ageing_elapsed (sorted_timesAt hcalls call.key) hnow).mpr (not_le.mp hlt)] at hdenied
  exact Bool.noConfusion hdenied

/-- The promise for every age that grows and is, between two calls, the one that the code measures. -/
theorem limited_of_agrees {age : ℚ → ℚ → ℚ} (hage : Sliding.Ageing age)
    (hagrees : ∀ t ∈ calls.map AllowCall.time, ∀ u ∈ calls.map AllowCall.time, t ≤ u → elapsed u t = age u t)
    (hsorted : (calls.map AllowCall.time).Pairwise (· ≤ ·)) : Limited age limit w calls := by
  refine ⟨fun key start => ?_, fun key finish => ?_, fun before call hbefore hdenied => ?_, fun key others heq => ?_⟩
  · rw [allowedAt_eq]
    refine Sliding.admitted_bounded ageing_elapsed (sorted_timesAt hsorted key) fun t ht u hu htu hpt hpu => ?_
    rw [hagrees t (mem_times ht) u (mem_times hu) htu]
    exact (hage.earlier u (of_decide_eq_true hpt).1).trans_lt (of_decide_eq_true hpu).2
  · rw [allowedAt_eq]
    refine Sliding.admitted_bounded ageing_elapsed (sorted_timesAt hsorted key) fun t ht u hu htu hpt hpu => ?_
    rw [hagrees t (mem_times ht) u (mem_times hu) htu]
    exact (hage.later t (of_decide_eq_true hpu).1).trans_lt (of_decide_eq_true hpt).2
  · have hcalls := hsorted.sublist (hbefore.sublist.map AllowCall.time)
    have hcount := le_of_denied hcalls hdenied
    have hcall : call.time ∈ calls.map AllowCall.time :=
      List.mem_map_of_mem (hbefore.subset (List.mem_append_right _ (List.mem_singleton_self call)))
    rw [List.map_append, List.pairwise_append] at hcalls
    have hmono : (allowedAt limit w before call.key).countP (fun t => elapsed call.time t < w) ≤
        (allowedAt limit w before call.key).countP fun t => age call.time t < w := by
      refine List.countP_mono_left fun t ht hyoung => ?_
      have hmem := mem_times (allowedAt_subset ht)
      have htime : t ∈ calls.map AllowCall.time :=
        (((List.prefix_append before [call]).trans hbefore).sublist.map AllowCall.time).subset hmem
      rw [← hagrees t htime call.time hcall (hcalls.2.2 t hmem call.time (List.mem_singleton_self _))]
      exact hyoung
    omega
  · rw [answersAt_eq_map, answersAt_eq_map, timesAt, heq, timesAt]

/-- **The limiter**: what a window lets through, which calls are denied, and that the keys do not meet.  Windows and ages
are measured as the code measures them, and exactly where no difference of two calls is rounded. -/
theorem allow_limited (limit : ℤ) (w : ℚ) (calls : List AllowCall)
    (hsorted : (calls.map AllowCall.time).Pairwise (· ≤ ·)) :
    Limited elapsed limit w calls ∧
    ((∀ t ∈ calls.map AllowCall.time, ∀ u ∈ calls.map AllowCall.time, t ≤ u → elapsed u t = u - t) →
      Limited (fun now t => now - t) limit w calls) :=
  ⟨limited_of_agrees ageing_elapsed (fun _ _ _ _ _ => rfl) hsorted,
    fun hexact => limited_of_agrees ⟨fun t _ _ h => sub_le_sub_right h t, fun now _ _ h => sub_le_sub_left h now⟩
      hexact hsorted⟩

/-- Three calls of one key and one of another, with a limit of two. -/
def sampleCalls : List AllowCall := [⟨"ip:1", 0⟩, ⟨"ip:1", 10⟩, ⟨"ip:2", 10⟩, ⟨"ip:1", 50⟩]

theorem sampleCalls_sorted : (sampleCalls.map AllowCall.time).Pairwise (· ≤ ·) := by decide +kernel

theorem allow_limited_four :
    ((allowedAt 2 60 sampleCalls "ip:1").countP (fun t => 0 ≤ t ∧ t - 0 < 60) : ℤ) ≤ max 2 0 ∧
    (2 : ℤ) ≤ (allowedAt 2 60 (sampleCalls.take 3) "ip:1").countP fun t => 50 - t < 60 := by
  obtain ⟨-, hexact⟩ := allow_limited 2 60 sampleCalls sampleCalls_sorted
  have hlimited := hexact (by decide +kernel)
  exact ⟨hlimited.onward "ip:1" 0,
    hlimited.denied (sampleCalls.take 3) ⟨"ip:1", 50⟩ (List.prefix_refl _) (by decide +kernel)⟩

/-- Two calls whose difference is less than 60 and is rounded to 60. -/
def roundedCalls : List AllowCall :=
  [⟨"ip:1", 3070935527718425 / 562949953421312⟩, ⟨"ip:1", 4605991591624643 / 70368744177664⟩]

/-- Both are let through although a window of 60 seconds holds them. -/
theorem not_limited :
    (roundedCalls.map AllowCall.time).Pairwise (· ≤ ·) ∧ ¬ Limited (fun now t => now - t) 1 60 roundedCalls := by
  refine ⟨by decide +kernel, fun h => ?_⟩
  have htwo : (allowedAt 1 60 roundedCalls "ip:1").countP (fun t =>
      (3070935527718425 / 562949953421312 : ℚ) ≤ t ∧ t - 3070935527718425 / 562949953421312 < 60) = 2 := by
    decide +kernel
  have hone := h.onward "ip:1" (3070935527718425 / 562949953421312)
  rw [htwo] at hone
  omega

end Limit

/-! ### The sweep -/

/-- The keys that are stored. -/
def SlidingWindowRateLimiter.keys (s : SlidingWindowRateLimiter) : List String := s.hits.items.map Prod.fst

/-- No stored window is empty. -/
def Filled (s : SlidingWindowRateLimiter) : Prop := ∀ p ∈ s.hits.items, p.2 ≠ []

section Sweep

variable {s : SlidingWindowRateLimiter} {limit : ℤ} {w : ℚ} {calls before : List AllowCall} {call : AllowCall} {key : String}

/-- A sweep finds nothing to drop where no window is empty. -/
theorem hits_counted (h : Filled s) : s.counted.hits = s.hits := by
  have hnone : (s.hits.items.filter fun p => p.2 = []) = [] := by
    rw [List.filter_eq_nil_iff]
    intro p hp
    simpa using h p hp
  unfold counted
  dsimp only
  split_ifs
  · rw [sweep]
    dsimp only
    rw [hnone]
    rfl
  · rfl

/-- **No window is ever empty**: a call leaves at least one time in the window of its key. -/
theorem filled_run (hlimit : 1 ≤ limit) (w : ℚ) (calls : List AllowCall) : Filled (run step (new limit w) calls) := by
  have hstep : ∀ s call, Filled s ∧ s.limit = limit → Filled (step s call) ∧ (step s call).limit = limit := by
    rintro s call ⟨hfilled, hs⟩
    rw [step_eq]
    refine ⟨?_, (limit_counted s).trans hs⟩
    rintro ⟨key, window⟩ hitem
    dsimp only at hitem ⊢
    rw [hits_counted hfilled, Dict.mem_set] at hitem
    obtain ⟨rfl, rfl⟩ | ⟨-, hitem⟩ := hitem
    · exact Sliding.slide_ne_nil elapsed (hs ▸ hlimit) _ _ _
    · exact hfilled _ hitem
  exact (run_invariant step _ hstep (s := new limit w) ⟨fun p hp => absurd hp List.not_mem_nil, rfl⟩ calls).1

theorem mem_keys {p : String} : p ∈ s.keys ↔ ∃ window, (p, window) ∈ s.hits.items := by
  rw [SlidingWindowRateLimiter.keys, List.mem_map]
  constructor
  · rintro ⟨⟨p, window⟩, hitem, rfl⟩
    exact ⟨window, hitem⟩
  · rintro ⟨window, hitem⟩
    exact ⟨_, hitem, rfl⟩

/-- **Nothing is ever swept out**: every key that has called is stored. -/
theorem mem_keys_run (hlimit : 1 ≤ limit) (w : ℚ) (calls : List AllowCall) (key : String) :
    key ∈ (run step (new limit w) calls).keys ↔ key ∈ calls.map AllowCall.key := by
  induction calls using List.reverseRecOn with
  | nil => exact Iff.rfl
  | append_singleton calls call ih =>
    have hfilled := filled_run hlimit w calls
    rw [run_concat, mem_keys, step_eq]
    dsimp only
    simp only [hits_counted hfilled, Dict.mem_set]
    rw [List.map_append, List.mem_append, ← ih, mem_keys]
    by_cases hkey : key = call.key
    · simp [hkey]
    · simp [hkey]

theorem keys_counted_run (hlimit : 1 ≤ limit) (w : ℚ) (calls : List AllowCall) :
    (run step (new limit w) calls).counted.keys = (run step (new limit w) calls).keys := by
  rw [SlidingWindowRateLimiter.keys, hits_counted (filled_run hlimit w calls)]
  rfl

/-- The calls before the last one that swept. -/
def beforeSweep (calls : List AllowCall) : List AllowCall := calls.take (calls.length / 1024 * 1024 - 1)

/-- The calls from the last one that swept on; all of them where none has. -/
def sinceSweep (calls : List AllowCall) : List AllowCall := calls.drop (calls.length / 1024 * 1024 - 1)

/-- The keys with an allowed call less than `w` before the last sweep. -/
def activeKeys (limit : ℤ) (w : ℚ) (calls : List AllowCall) : Finset String :=
  ((beforeSweep calls).map AllowCall.key).toFinset.filter fun key =>
    ∃ sweeping ∈ (sinceSweep calls).head?, ∃ t ∈ allowedAt limit w (beforeSweep calls) key, sweeping.time - t < w

/-- What the sweep is for: it leaves only active keys, and that bounds the keys that are stored. -/
structure Swept (limit : ℤ) (w : ℚ) (calls : List AllowCall) : Prop where
  active : ∀ before call, before ++ [call] <+: calls → (before.length + 1) % 1024 = 0 →
    ∀ key ∈ (run step (new limit w) before).counted.keys, ∃ t ∈ allowedAt limit w before key, call.time - t < w
  bounded : ∀ before, before <+: calls → (run step (new limit w) before).keys.length ≤
    (activeKeys limit w before).card + ((sinceSweep before).map AllowCall.key).toFinset.card

/-- At each sweep every key of an earlier call had a call less than `w` before that its own calls let through. -/
def NoneQuiet (limit : ℤ) (w : ℚ) (calls : List AllowCall) : Prop :=
  ∀ before call, before ++ [call] <+: calls → (before.length + 1) % 1024 = 0 →
    ∀ earlier ∈ before, ∃ t ∈ Sliding.admitted elapsed limit w (timesAt before earlier.key), call.time - t < w

/-- The calls that a state has seen, split at the last sweep. -/
theorem beforeSweep_prefix (h : beforeSweep before ≠ []) :
    ∃ sweeping, (sinceSweep before).head? = some sweeping ∧ beforeSweep before ++ [sweeping] <+: before ∧
      ((beforeSweep before).length + 1) % 1024 = 0 := by
  have hpos : before.length / 1024 * 1024 - 1 ≠ 0 := by
    intro hzero
    rw [beforeSweep, hzero] at h
    exact h rfl
  have hlt : before.length / 1024 * 1024 - 1 < before.length := by omega
  have hdrop := List.drop_eq_getElem_cons hlt
  refine ⟨before[before.length / 1024 * 1024 - 1], ?_, ?_, ?_⟩
  · rw [sinceSweep, hdrop, List.head?_cons]
  · refine ⟨before.drop (before.length / 1024 * 1024 - 1 + 1), ?_⟩
    rw [List.append_assoc, List.singleton_append, ← hdrop, beforeSweep, List.take_append_drop]
  · rw [beforeSweep, List.length_take, min_eq_left hlt.le]
    omega

/-- Where the keys of the calls before the last sweep are active, the stored keys are bounded. -/
theorem length_keys_le (hlimit : 1 ≤ limit)
    (hactive : ∀ key ∈ (beforeSweep calls).map AllowCall.key, key ∈ activeKeys limit w calls) :
    (run step (new limit w) calls).keys.length ≤
      (activeKeys limit w calls).card + ((sinceSweep calls).map AllowCall.key).toFinset.card := by
  have hnodup : (run step (new limit w) calls).keys.Nodup := (run step (new limit w) calls).hits.nodup
  have hsplit : beforeSweep calls ++ sinceSweep calls = calls := List.take_append_drop _ calls
  have hsubset : (run step (new limit w) calls).keys.toFinset ⊆
      activeKeys limit w calls ∪ ((sinceSweep calls).map AllowCall.key).toFinset := by
    intro key hkey
    rw [List.mem_toFinset, mem_keys_run hlimit, ← hsplit, List.map_append, List.mem_append] at hkey
    rw [Finset.mem_union]
    rcases hkey with hkey | hkey
    · exact .inl (hactive key hkey)
    · exact .inr (List.mem_toFinset.mpr hkey)
  calc (run step (new limit w) calls).keys.length
      = (run step (new limit w) calls).keys.toFinset.card := (List.toFinset_card_of_nodup hnodup).symm
    _ ≤ (activeKeys limit w calls ∪ ((sinceSweep calls).map AllowCall.key).toFinset).card := Finset.card_le_card hsubset
    _ ≤ _ := Finset.card_union_le _ _

/-- **The sweep does what it is for** exactly when no key has gone quiet. -/
theorem swept_iff (limit : ℤ) (hlimit : 1 ≤ limit) (w : ℚ) (calls : List AllowCall) :
    Swept limit w calls ↔ NoneQuiet limit w calls := by
  constructor
  · intro h before call hprefix hsweep earlier hmem
    rw [← allowedAt_eq]
    refine h.active before call hprefix hsweep earlier.key ?_
    rw [keys_counted_run hlimit, mem_keys_run hlimit]
    exact List.mem_map_of_mem hmem
  · intro h
    have hactive : ∀ before call, before ++ [call] <+: calls → (before.length + 1) % 1024 = 0 →
        ∀ key ∈ before.map AllowCall.key, ∃ t ∈ allowedAt limit w before key, call.time - t < w := by
      intro before call hprefix hsweep key hkey
      obtain ⟨earlier, hmem, rfl⟩ := List.mem_map.mp hkey
      rw [allowedAt_eq]
      exact h before call hprefix hsweep earlier hmem
    refine ⟨fun before call hprefix hsweep key hkey => ?_, fun before hprefix => ?_⟩
    · rw [keys_counted_run hlimit, mem_keys_run hlimit] at hkey
      exact hactive before call hprefix hsweep key hkey
    · refine length_keys_le hlimit fun key hkey => ?_
      have hne : beforeSweep before ≠ [] := fun hnil => by simp [hnil] at hkey
      obtain ⟨sweeping, hhead, hsweeping, hlength⟩ := beforeSweep_prefix hne
      rw [activeKeys, Finset.mem_filter, List.mem_toFinset]
      exact ⟨hkey, sweeping, hhead, hactive _ sweeping (hsweeping.trans hprefix) hlength key hkey⟩

/-- Two keys at a time; the last call sweeps. -/
def steadyCalls : List AllowCall := ⟨"ip:1", 0⟩ :: List.replicate 1023 ⟨"ip:2", 30⟩

/-- The keys that are swept past have called 30 seconds before. -/
theorem swept_iff_steady : Swept 2 60 steadyCalls := by
  refine (swept_iff 2 (by decide) 60 steadyCalls).mpr fun before call hprefix hsweep earlier hmem => ?_
  have hlength := hprefix.length_le
  simp only [steadyCalls, List.length_append, List.length_cons, List.length_nil, List.length_replicate] at hlength
  obtain ⟨rest, hrest⟩ := hprefix
  have hshort : before.length = 1023 := by omega
  have hbefore : before = ⟨"ip:1", 0⟩ :: List.replicate 1022 ⟨"ip:2", 30⟩ := by
    have htake := congrArg (List.take 1023) hrest
    rw [List.append_assoc, List.take_append_of_le_length hshort.ge, List.take_of_length_le hshort.le] at htake
    rw [htake, steadyCalls, List.take_succ_cons, List.take_replicate]
    rfl
  have hcall : call = ⟨"ip:2", 30⟩ := by
    have hsteady : call ∈ steadyCalls.drop 1023 := by
      rw [← hrest, List.append_assoc, ← hshort, List.drop_left]
      exact List.mem_cons_self
    rw [steadyCalls, List.drop_succ_cons, List.drop_replicate] at hsteady
    exact (List.mem_replicate.mp hsteady).2
  subst hcall hbefore
  rcases List.mem_cons.mp hmem with rfl | hmem
  · refine ⟨0, ?_, by norm_num⟩
    rw [timesAt, List.filter_cons_of_pos rfl, List.filter_replicate]
    exact Sliding.head_mem_admitted elapsed (by decide) 60 0 _
  · obtain ⟨-, rfl⟩ := List.mem_replicate.mp hmem
    refine ⟨30, ?_, by norm_num⟩
    have htimes : timesAt (⟨"ip:1", 0⟩ :: List.replicate 1022 ⟨"ip:2", 30⟩) "ip:2" = List.replicate 1022 30 := by
      rw [timesAt, List.filter_cons_of_neg (by decide), List.filter_replicate, if_pos (by decide), List.map_replicate]
    rw [htimes]
    exact Sliding.head_mem_admitted elapsed (by decide) 60 30 _

/-- A key calls once, another one 1023 times long after it. -/
def quietCalls : List AllowCall := ⟨"ip:1", 0⟩ :: List.replicate 1023 ⟨"ip:2", 100⟩

/-- The key that has gone quiet is still stored. -/
theorem not_swept : ¬ Swept 1 60 quietCalls := by
  intro h
  set before : List AllowCall := ⟨"ip:1", 0⟩ :: List.replicate 1022 ⟨"ip:2", 100⟩ with hbefore
  have hcalls : before ++ [⟨"ip:2", 100⟩] = quietCalls := by
    rw [hbefore, List.cons_append, ← List.replicate_succ', quietCalls]
  have hstored : "ip:1" ∈ (run step (new 1 60) before).counted.keys := by
    rw [keys_counted_run le_rfl, mem_keys_run le_rfl]
    exact List.mem_cons_self
  have htimes : timesAt before "ip:1" = [0] := by
    rw [timesAt, hbefore, List.filter_cons_of_pos rfl, List.filter_replicate]
    rfl
  have hlength : (before.length + 1) % 1024 = 0 := by rw [hbefore, List.length_cons, List.length_replicate]
  obtain ⟨t, ht, hage⟩ := h.active before ⟨"ip:2", 100⟩ ⟨[], by rw [List.append_nil, hcalls]⟩ hlength "ip:1" hstored
  rw [allowedAt_eq, htimes] at ht
  have hzero : t = 0 := List.mem_singleton.mp ((Sliding.admitted_sublist elapsed 1 60 [0]).subset ht)
  rw [hzero] at hage
  norm_num at hage

end Sweep

end AlphaAlgo.Api
