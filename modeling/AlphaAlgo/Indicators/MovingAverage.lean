import AlphaAlgo.Backtest.Metrics
import AlphaAlgo.Lib.Causal

/-!
# MovingAverage — simple and exponential moving averages

Both loops go through a series and append `None` until the first window is full.  The simple average is the mean of each
window; the exponential one begins with the mean of the first window and then moves towards each value by the share
`2 / (period + 1)` of the distance.  The series holds the values of finite decimals; `c` is the arithmetic.

* `causal_simple`, `causal_exponential`: neither loop looks ahead.
* `windowMean_within`, `pull_within`: a mean of seen values, and a value moved towards a seen one, stay within what was
  seen.
* `movingAverages`: both are moving averages.
-/

namespace AlphaAlgo.Indicators

open Backtest (contextTotal contextTotal_exact)

/-! ### The loops -/

def validatePeriod (period : ℤ) : Except String Unit :=
  if period ≤ 0 then .error "period must be positive" else .ok ()

/-- `sum(series[index + 1 - period : index + 1]) / Decimal(period)`. -/
def windowMean (c : Ctx) (series : List ℚ) (period index : ℕ) : ℚ :=
  c.fix (contextTotal c ((series.take (index + 1)).drop (index + 1 - period)) / period)

/-- The results of `simple_moving_average`. -/
def simpleAverages (c : Ctx) (period : ℕ) (series : List ℚ) : List (Option ℚ) :=
  (List.range series.length).map fun index =>
    if index + 1 < period then none else some (windowMean c series period index)

def simpleMovingAverage (c : Ctx) (values : List ℚ) (period : ℤ) : Except String (List (Option ℚ)) := do
  validatePeriod period
  return simpleAverages c period.toNat values

/-- `(value - previous) * multiplier + previous`. -/
def pull (c : Ctx) (period : ℕ) (previous value : ℚ) : ℚ :=
  c.fix (c.fix (c.fix (value - previous) * c.fix (2 / (period + 1))) + previous)

/-- The results so far and the previous average. -/
abbrev Progress := List (Option ℚ) × Option ℚ

/-- One round of `exponential_moving_average`. -/
def exponentialStep (c : Ctx) (period : ℕ) (series : List ℚ) (s : Progress) (entry : ℚ × ℕ) : Progress :=
  if entry.2 + 1 < period then (s.1 ++ [none], s.2)
  else
    let next := match s.2 with
      | none => windowMean c series period entry.2
      | some previous => pull c period previous entry.1
    (s.1 ++ [some next], some next)

def exponentialProgress (c : Ctx) (period : ℕ) (series : List ℚ) : Progress :=
  series.zipIdx.foldl (exponentialStep c period series) ([], none)

def exponentialMovingAverage (c : Ctx) (values : List ℚ) (period : ℤ) : Except String (List (Option ℚ)) := do
  validatePeriod period
  return (exponentialProgress c period.toNat values).1

/-! ### No look-ahead -/

section Causal

variable (c : Ctx) (period : ℕ)

/-- A window does not reach beyond its index. -/
theorem windowMean_append {l : List ℚ} {index : ℕ} (h : index < l.length) (later : List ℚ) :
    windowMean c (l ++ later) period index = windowMean c l period index := by
  unfold windowMean
  rw [List.take_append_of_le_length h]

theorem causal_simple : Causal (simpleAverages c period) fun l a =>
    if l.length + 1 < period then none else some (windowMean c (l ++ [a]) period l.length) where
  nil := rfl
  concat l a := by
    unfold simpleAverages
    rw [List.length_append, List.length_singleton, List.range_succ, List.map_append, List.map_singleton]
    congr 1
    refine List.map_congr_left fun index hindex => ?_
    rw [windowMean_append c period (List.mem_range.mp hindex)]

/-- One more value is one more round. -/
theorem exponentialProgress_concat (l : List ℚ) (a : ℚ) :
    exponentialProgress c period (l ++ [a]) =
      exponentialStep c period (l ++ [a]) (exponentialProgress c period l) (a, l.length) := by
  have hrounds : l.zipIdx.foldl (exponentialStep c period (l ++ [a])) ([], none) = exponentialProgress c period l := by
    refine List.foldl_ext _ _ _ fun s entry hentry => ?_
    have hindex : entry.2 < l.length := by simpa using (List.mem_zipIdx hentry).2.1
    unfold exponentialStep
    rw [windowMean_append c period hindex]
  rw [exponentialProgress, List.zipIdx_append, List.foldl_append, hrounds, Nat.zero_add]
  rfl

/-- The average after one more value, of what the loop has before it. -/
def exponentialNext (l : List ℚ) (a : ℚ) : Option ℚ :=
  if l.length + 1 < period then none
  else some (match (exponentialProgress c period l).2 with
    | none => windowMean c (l ++ [a]) period l.length
    | some previous => pull c period previous a)

/-- The loop appends it. -/
theorem exponentialProgress_fst_concat (l : List ℚ) (a : ℚ) :
    (exponentialProgress c period (l ++ [a])).1 =
      (exponentialProgress c period l).1 ++ [exponentialNext c period l a] := by
  rw [exponentialProgress_concat]
  unfold exponentialStep exponentialNext
  split_ifs <;> rfl

theorem causal_exponential : Causal (fun l => (exponentialProgress c period l).1) (exponentialNext c period) where
  nil := rfl
  concat := exponentialProgress_fst_concat c period

end Causal

/-! ### Bounds -/

/-- What bounds the values that were seen bounds `v`. -/
def Within (seen : List ℚ) (v : ℚ) : Prop := ∀ lo hi, (∀ x ∈ seen, lo ≤ x ∧ x ≤ hi) → lo ≤ v ∧ v ≤ hi

theorem Within.extremes {seen : List ℚ} {v : ℚ} (h : Within seen v) (hseen : seen ≠ []) :
    ∃ lo hi, IsLeast {x | x ∈ seen} lo ∧ IsGreatest {x | x ∈ seen} hi ∧ lo ≤ v ∧ v ≤ hi := by
  have hne : seen.toFinset.Nonempty := by simpa [List.toFinset_nonempty_iff] using hseen
  have hleast := seen.toFinset.isLeast_min' hne
  have hgreatest := seen.toFinset.isGreatest_max' hne
  rw [List.coe_toFinset] at hleast hgreatest
  obtain ⟨hlo, hhi⟩ := h _ _ fun x hx => ⟨hleast.2 hx, hgreatest.2 hx⟩
  exact ⟨_, _, hleast, hgreatest, hlo, hhi⟩

/-- The mean of a full window. -/
theorem windowMean_within {period index : ℕ} {series : List ℚ} (hperiod : 1 ≤ period) (hfull : period ≤ index + 1)
    (hindex : index < series.length) : Within (series.take (index + 1)) (windowMean .exact series period index) := by
  intro lo hi hbounds
  let window := (series.take (index + 1)).drop (index + 1 - period)
  have hmem : ∀ x ∈ window, lo ≤ x ∧ x ≤ hi := fun x hx => hbounds x (List.mem_of_mem_drop hx)
  have hlength : (window.length : ℚ) = period := by
    rw [List.length_drop, List.length_take]
    exact_mod_cast (by omega : min (index + 1) series.length - (index + 1 - period) = period)
  have hpos : (0 : ℚ) < period := by exact_mod_cast hperiod
  have hmean : windowMean .exact series period index = window.sum / period := by
    rw [windowMean, Ctx.fix_exact, contextTotal_exact]
  rw [hmean, le_div_iff₀ hpos, div_le_iff₀ hpos, ← hlength, mul_comm lo, mul_comm hi, ← nsmul_eq_mul, ← nsmul_eq_mul]
  exact ⟨List.card_nsmul_le_sum _ _ fun x hx => (hmem x hx).1, List.sum_le_card_nsmul _ _ fun x hx => (hmem x hx).2⟩

/-- The window that ends with the last value. -/
theorem lastWindow_within {period : ℕ} (hperiod : 1 ≤ period) {l : List ℚ} (hfull : ¬l.length + 1 < period) (a : ℚ) :
    Within (l ++ [a]) (windowMean .exact (l ++ [a]) period l.length) := by
  have hindex : l.length < (l ++ [a]).length := by simp
  have hwindow := windowMean_within hperiod (not_lt.mp hfull) hindex
  rwa [List.take_of_length_le (by simp)] at hwindow

/-- A value moved towards the next one by a share of the distance. -/
theorem pull_within {period : ℕ} {seen : List ℚ} {previous a : ℚ} (hperiod : 1 ≤ period) (h : Within seen previous) :
    Within (seen ++ [a]) (pull .exact period previous a) := by
  intro lo hi hbounds
  obtain ⟨hlo, hhi⟩ := h lo hi fun x hx => hbounds x (List.mem_append_left _ hx)
  obtain ⟨halo, hahi⟩ := hbounds a (List.mem_append_right _ List.mem_cons_self)
  have hone : (1 : ℚ) ≤ period := by exact_mod_cast hperiod
  let share : ℚ := 2 / (period + 1)
  have hshare : 0 ≤ share := by positivity
  have hrest : 0 ≤ 1 - share := by
    rw [sub_nonneg, div_le_one (by positivity)]
    linarith
  have hpull : pull .exact period previous a = a * share + previous * (1 - share) := by
    simp only [pull, Ctx.fix_exact]
    ring
  rw [hpull]
  constructor
  · calc lo = lo * share + lo * (1 - share) := by ring
      _ ≤ a * share + previous * (1 - share) := by gcongr
  · calc a * share + previous * (1 - share) ≤ hi * share + hi * (1 - share) := by gcongr
      _ = hi := by ring

theorem Within.append {seen later : List ℚ} {v : ℚ} (h : Within seen v) : Within (seen ++ later) v :=
  fun lo hi hbounds => h lo hi fun x hx => hbounds x (List.mem_append_left _ hx)

theorem exponentialNext_within {period : ℕ} (hperiod : 1 ≤ period) {l : List ℚ} {a v : ℚ}
    (hprevious : ∀ previous, (exponentialProgress .exact period l).2 = some previous → Within l previous)
    (h : exponentialNext .exact period l a = some v) : Within (l ++ [a]) v := by
  unfold exponentialNext at h
  split_ifs at h with hfull
  cases hbefore : (exponentialProgress .exact period l).2 with
  | none =>
    rw [hbefore] at h
    rw [← Option.some.inj h]
    exact lastWindow_within hperiod hfull a
  | some previous =>
    rw [hbefore] at h
    rw [← Option.some.inj h]
    exact pull_within hperiod (hprevious previous hbefore)

/-- The average that the loop has is within what it has seen. -/
theorem exponentialProgress_within {period : ℕ} (hperiod : 1 ≤ period) {l : List ℚ} {v : ℚ}
    (h : (exponentialProgress .exact period l).2 = some v) : Within l v := by
  induction l using List.reverseRecOn generalizing v with
  | nil => cases h
  | append_singleton l a ih =>
    by_cases hfull : l.length + 1 < period
    · rw [exponentialProgress_concat, exponentialStep, if_pos hfull] at h
      exact (ih h).append
    · refine exponentialNext_within hperiod (fun _ hprevious => ih hprevious) (a := a) ?_
      rw [exponentialProgress_concat, exponentialStep, if_neg hfull] at h
      rw [exponentialNext, if_neg hfull]
      exact h

/-! ### Moving averages -/

/-- One result for each value, none exactly before the first full window, none that later values change, and each within
the extremes of what was seen up to it. -/
structure MovingAverage (period : ℕ) (average : List ℚ → List (Option ℚ)) : Prop where
  length : ∀ values, (average values).length = values.length
  absent : ∀ values i, i < values.length → ((average values)[i]? = some none ↔ i < period - 1)
  stable : ∀ values n, average (values.take n) = (average values).take n
  within : ∀ values i v, (average values)[i]? = some (some v) →
    ∃ lo hi, IsLeast {x | x ∈ values.take (i + 1)} lo ∧ IsGreatest {x | x ∈ values.take (i + 1)} hi ∧ lo ≤ v ∧ v ≤ hi

/-- A causal function whose results are absent before the first full window and else within what was seen. -/
theorem movingAverage_of_causal {period : ℕ} {average : List ℚ → List (Option ℚ)} {g : List ℚ → ℚ → Option ℚ}
    (hcausal : Causal average g) (hnone : ∀ l a, g l a = none ↔ l.length < period - 1)
    (hwithin : ∀ l a v, g l a = some v → Within (l ++ [a]) v) : MovingAverage period average where
  length := hcausal.length_eq
  absent values i hi := by
    have hlength : (values.take i).length = i := by
      rw [List.length_take]
      omega
    rw [hcausal.getElem?_eq (List.getElem?_eq_getElem hi), Option.some.injEq, hnone, hlength]
  stable := hcausal.take_eq
  within values i v hv := by
    have hi : i < values.length := by
      rw [← hcausal.length_eq]
      exact (List.getElem?_eq_some_iff.mp hv).1
    have hseen : values.take (i + 1) = values.take i ++ [values[i]] := by
      rw [List.take_add_one, List.getElem?_eq_getElem hi]
      rfl
    rw [hcausal.getElem?_eq (List.getElem?_eq_getElem hi), Option.some.injEq] at hv
    rw [hseen]
    exact (hwithin _ _ v hv).extremes (List.append_ne_nil_of_right_ne_nil _ (List.cons_ne_nil _ _))

/-- **Both averages are moving averages**, in exact arithmetic. -/
theorem movingAverages {period : ℤ} (hperiod : 1 ≤ period) :
    (∃ average, (∀ values, simpleMovingAverage .exact values period = .ok (average values)) ∧
      MovingAverage period.toNat average) ∧
    ∃ average, (∀ values, exponentialMovingAverage .exact values period = .ok (average values)) ∧
      MovingAverage period.toNat average := by
  have hvalid : validatePeriod period = .ok () := if_neg (by omega)
  have hpos : 1 ≤ period.toNat := by omega
  constructor
  · refine ⟨simpleAverages .exact period.toNat, fun values => ?_, ?_⟩
    · rw [simpleMovingAverage, hvalid]
      rfl
    · refine movingAverage_of_causal (causal_simple _ _) (fun l a => ?_) fun l a v hv => ?_
      · split_ifs with hfull
        · simp only [true_iff]
          omega
        · simp only [false_iff]
          omega
      · split_ifs at hv with hfull
        rw [← Option.some.inj hv]
        exact lastWindow_within hpos hfull a
  · refine ⟨fun values => (exponentialProgress .exact period.toNat values).1, fun values => ?_, ?_⟩
    · rw [exponentialMovingAverage, hvalid]
      rfl
    · refine movingAverage_of_causal (causal_exponential _ _) (fun l a => ?_) fun l a v hv => ?_
      · unfold exponentialNext
        split_ifs with hfull
        · simp only [true_iff]
          omega
        · simp only [false_iff]
          omega
      · exact exponentialNext_within hpos (fun _ hprevious => exponentialProgress_within hpos hprevious) hv

theorem movingAverages_three : exponentialMovingAverage .exact [1, 2, 3, 4] 3 = .ok [none, none, some 2, some 3] ∧
    ∃ average, (∀ values, exponentialMovingAverage .exact values 3 = .ok (average values)) ∧ MovingAverage 3 average :=
  ⟨by decide +kernel, (movingAverages (by decide)).2⟩

end AlphaAlgo.Indicators
