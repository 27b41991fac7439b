import AlphaAlgo.Backtest.Metrics
import AlphaAlgo.Lib.Sha256

/-!
# MonteCarlo — shuffles and bootstraps from a seed

The numbers are drawn from the digest of the seed and a counter.  A path of a bootstrap draws with counters of its own.

* `deterministicShuffle_perm`: a shuffle is a permutation; no index of its loop is out of range.
* `bootstrapPaths_take`: fewer paths are the first ones of more.
* `percentileIndex_bounds`, `percentileIndex_mono`: the indices of the percentiles.
* `monteCarlo_spec`: all of it, with the percentiles between the extremes.
-/

namespace AlphaAlgo.Backtest.MonteCarlo

open Loop

/-- `OptimizationError`, what an index out of range raises, and what a statistic raises. -/
inductive MonteCarloError where
  | optimization (text : String)
  | indexError
  | statistic (text : String)
deriving DecidableEq

/-- `DECIMAL_PRECISION`. -/
def context : Ctx := ⟨some 28⟩

/-! ### Draws -/

/-- The first eight bytes of the digest of `seed:counter`, as a number. -/
@[irreducible] def randValue (seed : String) (counter : ℕ) : ℕ :=
  let bytes := ((seed ++ ":" ++ toString counter).toList.flatMap String.utf8EncodeChar).map UInt8.toNat
  ((Sha256.digest bytes).toList.take 2).foldl (fun a w => 4294967296 * a + w.toNat) 0

/-- `_rand_index`. -/
def randIndex (seed : String) (counter bound : ℕ) : ℕ := randValue seed counter % bound

/-- `_validate_values` and `_validate_seed`. -/
def validate (values : List ℚ) (seed : String) : Except MonteCarloError Unit := do
  raiseIf (values = []) (.optimization "values must be a non-empty tuple of Decimal")
  raiseIf (seed = "") (.optimization "seed must be a non-empty string")

/-- `items[i]`. -/
def item (items : List ℚ) (i : ℕ) : Except MonteCarloError ℚ :=
  match items[i]? with
  | some x => .ok x
  | none => .error .indexError

/-! ### Shuffles -/

/-- `items[i], items[j] = items[j], items[i]`. -/
def swap (items : List ℚ) (i j : ℕ) : Except MonteCarloError (List ℚ) := do
  let y ← item items j
  let x ← item items i
  return (items.set i y).set j x

/-- `deterministic_shuffle`: the loop runs from the last index down to 1. -/
def deterministicShuffle (values : List ℚ) (seed : String) : Except MonteCarloError (List ℚ) := do
  validate values seed
  run (fun items i => swap items i (randIndex seed i (i + 1))) values ((List.range' 1 (values.length - 1)).reverse)

/-! ### Bootstraps -/

/-- A statistic of a sample; `none` is a value that is no finite `Decimal`. -/
abbrev Statistic := List ℚ → Except MonteCarloError (Option ℚ)

/-- `sum(xs, Decimal("0"))`. -/
def sumStatistic : Statistic := fun xs => .ok (some (contextTotal context xs))

/-- A path: as many draws with replacement as there are values. -/
def bootstrapPath (values : List ℚ) (seed : String) (statistic : Statistic) (path : ℕ) : Except MonteCarloError ℚ := do
  let sample ← (List.range values.length).mapM fun draw =>
    item values (randIndex seed (path * values.length + draw) values.length)
  match ← statistic sample with
  | some x => .ok x
  | none => .error (.optimization "statistic must return a finite Decimal")

/-- `bootstrap_paths`. -/
def bootstrapPaths (values : List ℚ) (nPaths : ℕ) (seed : String) (statistic : Option Statistic) :
    Except MonteCarloError (List ℚ) := do
  validate values seed
  raiseIf (nPaths < 1) (.optimization "n_paths must be a positive int")
  (List.range nPaths).mapM (bootstrapPath values seed (statistic.getD sumStatistic))

/-! ### Percentiles -/

/-- `(quantile * Decimal(n - 1)).to_integral_value()`. -/
def percentileIndex (n : ℕ) (quantile : ℚ) : ℤ := halfEven (context.fix (quantile * (n - 1 : ℕ)))

/-- `_percentile`; a negative index counts from the end. -/
def percentile (sorted : List ℚ) (quantile : ℚ) : Except MonteCarloError ℚ :=
  if sorted.length = 1 then item sorted 0
  else
    let position := percentileIndex sorted.length quantile
    if 0 ≤ position then item sorted position.toNat
    else if 0 ≤ position + sorted.length then item sorted (position + sorted.length).toNat
    else .error .indexError

structure MonteCarloSummary where
  seed : String
  nPaths : ℕ
  statisticName : String
  mean : ℚ
  minimum : ℚ
  maximum : ℚ
  p5 : ℚ
  p50 : ℚ
  p95 : ℚ

/-- `bootstrap_summary`. -/
def bootstrapSummary (values : List ℚ) (nPaths : ℕ) (seed : String) (statistic : Option Statistic)
    (statisticName : String) : Except MonteCarloError MonteCarloSummary := do
  raiseIf (seed = "") (.optimization "seed must be a non-empty string")
  raiseIf (statisticName = "") (.optimization "statistic_name must be a non-empty string")
  let paths ← bootstrapPaths values nPaths seed statistic
  let sortedPaths := paths.mergeSort (· ≤ ·)
  let mean := context.fix (contextTotal context paths / sortedPaths.length)
  let minimum ← item sortedPaths 0
  let maximum ← item sortedPaths (sortedPaths.length - 1)
  let p5 ← percentile sortedPaths (5 / 100)
  let p50 ← percentile sortedPaths (50 / 100)
  let p95 ← percentile sortedPaths (95 / 100)
  return ⟨seed, nPaths, statisticName, mean, minimum, maximum, p5, p50, p95⟩

/-! ### What a shuffle returns -/

theorem validate_eq_ok {values : List ℚ} {seed : String} : validate values seed = .ok () ↔ values ≠ [] ∧ seed ≠ "" := by
  simp [validate, bind_eq_ok]

theorem item_eq_ok {items : List ℚ} {i : ℕ} {x : ℚ} : item items i = .ok x ↔ items[i]? = some x := by
  unfold item
  cases items[i]? with
  | none => simp
  | some y => simp

theorem item_of_lt {items : List ℚ} {i : ℕ} (h : i < items.length) : item items i = .ok items[i] :=
  item_eq_ok.mpr (List.getElem?_eq_getElem h)

theorem randIndex_lt {seed : String} {counter bound : ℕ} (h : 0 < bound) : randIndex seed counter bound < bound :=
  Nat.mod_lt _ h

/-- A swap of two items is a permutation. -/
theorem swap_perm {items : List ℚ} {i j : ℕ} (hi : i < items.length) (hj : j < items.length) :
    ∃ items', swap items i j = .ok items' ∧ items'.Perm items := by
  refine ⟨(items.set i items[j]).set j items[i], ?_, List.set_set_perm hi hj⟩
  rw [swap, item_of_lt hj, item_of_lt hi]
  rfl

/-- The swaps of a shuffle. -/
theorem run_swap_perm {seed : String} : ∀ {l : List ℕ} {items : List ℚ}, (∀ i ∈ l, i < items.length) →
    ∃ items', run (fun items i => swap items i (randIndex seed i (i + 1))) items l = .ok items' ∧ items'.Perm items
  | [], items, _ => ⟨items, rfl, List.Perm.refl items⟩
  | i :: l, items, h => by
    have hi := h i List.mem_cons_self
    have hj : randIndex seed i (i + 1) < items.length := by
      have hlt : randIndex seed i (i + 1) < i + 1 := randIndex_lt i.succ_pos
      omega
    obtain ⟨items₁, hswap, hperm₁⟩ := swap_perm hi hj
    have hrest : ∀ k ∈ l, k < items₁.length := fun k hk => by
      rw [hperm₁.length_eq]
      exact h k (List.mem_cons_of_mem i hk)
    obtain ⟨items₂, hrun, hperm₂⟩ := run_swap_perm hrest
    exact ⟨items₂, run_cons_ok.mpr ⟨items₁, hswap, hrun⟩, hperm₂.trans hperm₁⟩

/-- **A shuffle is a permutation.** -/
theorem deterministicShuffle_perm {values : List ℚ} {seed : String} (hvalues : values ≠ []) (hseed : seed ≠ "") :
    ∃ items, deterministicShuffle values seed = .ok items ∧ items.Perm values := by
  have hlength := List.length_pos_iff.mpr hvalues
  obtain ⟨items, hrun, hperm⟩ := @run_swap_perm seed (List.range' 1 (values.length - 1)).reverse values (by
    intro i hi
    rw [List.mem_reverse, List.mem_range'_1] at hi
    omega)
  refine ⟨items, ?_, hperm⟩
  rw [deterministicShuffle, validate_eq_ok.mpr ⟨hvalues, hseed⟩]
  exact hrun

/-! ### What a bootstrap returns -/

/-- What a bootstrap that is accepted returns. -/
theorem bootstrapPaths_eq_ok {values paths : List ℚ} {nPaths : ℕ} {seed : String} {statistic : Option Statistic} :
    bootstrapPaths values nPaths seed statistic = .ok paths ↔ values ≠ [] ∧ seed ≠ "" ∧ 1 ≤ nPaths ∧
      List.Forall₂ (fun path x => bootstrapPath values seed (statistic.getD sumStatistic) path = .ok x)
        (List.range nPaths) paths := by
  rw [bootstrapPaths, bind_eq_ok, ← mapM_eq_ok_iff]
  constructor
  · rintro ⟨u, hvalid, h⟩
    obtain ⟨u', hpositive, h⟩ := bind_eq_ok.mp h
    obtain ⟨hvalues, hseed⟩ := validate_eq_ok.mp hvalid
    exact ⟨hvalues, hseed, not_lt.mp (raiseIf_eq_ok.mp hpositive), h⟩
  · rintro ⟨hvalues, hseed, hpositive, h⟩
    exact ⟨(), validate_eq_ok.mpr ⟨hvalues, hseed⟩, bind_eq_ok.mpr ⟨(), raiseIf_eq_ok.mpr (not_lt.mpr hpositive), h⟩⟩

/-- **Fewer paths are the first ones.** -/
theorem bootstrapPaths_take {values paths : List ℚ} {nPaths k : ℕ} {seed : String} {statistic : Option Statistic}
    (h : bootstrapPaths values nPaths seed statistic = .ok paths) (hk : 1 ≤ k) (hle : k ≤ nPaths) :
    bootstrapPaths values k seed statistic = .ok (paths.take k) := by
  obtain ⟨hvalues, hseed, -, hall⟩ := bootstrapPaths_eq_ok.mp h
  have hrange : (List.range nPaths).take k = List.range k := by
    rw [List.take_range, min_eq_left hle]
  exact bootstrapPaths_eq_ok.mpr ⟨hvalues, hseed, hk, hrange ▸ List.forall₂_take k hall⟩

/-- Paths of sums are always returned. -/
theorem exists_bootstrapPaths {values : List ℚ} {nPaths : ℕ} {seed : String} (hvalues : values ≠ []) (hseed : seed ≠ "")
    (h : 1 ≤ nPaths) : ∃ paths, bootstrapPaths values nPaths seed none = .ok paths := by
  have hpath : ∀ path ∈ List.range nPaths, ∃ x, bootstrapPath values seed sumStatistic path = .ok x := by
    intro path _
    obtain ⟨sample, hsample⟩ : ∃ sample, (List.range values.length).mapM (fun draw =>
        item values (randIndex seed (path * values.length + draw) values.length)) = .ok sample :=
      exists_mapM fun draw _ => ⟨_, item_of_lt (randIndex_lt (List.length_pos_iff.mpr hvalues))⟩
    exact ⟨_, bind_eq_ok.mpr ⟨sample, hsample, rfl⟩⟩
  obtain ⟨paths, hpaths⟩ := exists_mapM hpath
  exact ⟨paths, bootstrapPaths_eq_ok.mpr ⟨hvalues, hseed, h, mapM_eq_ok_iff.mp hpaths⟩⟩

/-! ### Percentiles of a sorted list -/

theorem percentileIndex_mono (n : ℕ) {q q' : ℚ} (h : q ≤ q') : percentileIndex n q ≤ percentileIndex n q' := by
  refine halfEven_mono (Ctx.fix_mono (p := 28) (by norm_num) ?_)
  exact mul_le_mul_of_nonneg_right h (Nat.cast_nonneg _)

/-- **The indices are in range**, as long as a quantile is at most 95 percent. -/
theorem percentileIndex_bounds {n : ℕ} (hn : 1 ≤ n) {q : ℚ} (h0 : 0 ≤ q) (h95 : q ≤ 95 / 100) :
    0 ≤ percentileIndex n q ∧ percentileIndex n q < n := by
  have hm : (0 : ℚ) ≤ (n - 1 : ℕ) := Nat.cast_nonneg _
  constructor
  · have hfix : (0 : ℚ) ≤ context.fix (q * (n - 1 : ℕ)) := by
      have hle := Ctx.fix_mono (p := 28) (by norm_num) (mul_nonneg h0 hm)
      rwa [Ctx.fix_zero] at hle
    exact le_halfEven (n := 0) (by exact_mod_cast hfix)
  · have hfix : context.fix (q * (n - 1 : ℕ)) ≤ (n - 1 : ℕ) := by
      by_cases hzero : q * (n - 1 : ℕ) = 0
      · rw [hzero, Ctx.fix_zero]
        exact hm
      · have hpos : 0 < q * (n - 1 : ℕ) := lt_of_le_of_ne (mul_nonneg h0 hm) (Ne.symm hzero)
        have hmpos : (0 : ℚ) < (n - 1 : ℕ) := lt_of_le_of_ne hm fun he => hzero (by rw [← he, mul_zero])
        refine Ctx.fix_le_of_loss (p := 28) hpos ?_
        have hquantum := zpow_lastDigit_le (p := 28) hmpos
        have hsmall : ((n - 1 : ℕ) : ℚ) * 10 ^ (1 - ((28 : ℕ) : ℤ)) ≤ (n - 1 : ℕ) * (1 / 100) := by
          refine mul_le_mul_of_nonneg_left ?_ hm
          norm_num
        have hshare : q * (n - 1 : ℕ) ≤ 95 / 100 * (n - 1 : ℕ) := mul_le_mul_of_nonneg_right h95 hm
        have hloss : (10 : ℚ) ^ lastDigit 28 ((n - 1 : ℕ) : ℚ) ≤ (n - 1 : ℕ) * (1 / 100) := hquantum.trans hsmall
        linarith
    have hle := halfEven_le (n := ((n - 1 : ℕ) : ℤ)) (by exact_mod_cast hfix)
    unfold percentileIndex
    omega

/-- A percentile is an item of the list, at its index. -/
theorem percentile_eq {sorted : List ℚ} (hne : sorted ≠ []) {q : ℚ} (h0 : 0 ≤ q) (h95 : q ≤ 95 / 100) :
    ∃ (i : ℕ) (x : ℚ), (i : ℤ) = percentileIndex sorted.length q ∧ sorted[i]? = some x ∧ percentile sorted q = .ok x := by
  have hlength := List.length_pos_iff.mpr hne
  obtain ⟨hlow, hhigh⟩ := percentileIndex_bounds hlength h0 h95
  have hi : (percentileIndex sorted.length q).toNat < sorted.length := by omega
  refine ⟨(percentileIndex sorted.length q).toNat, sorted[(percentileIndex sorted.length q).toNat], by omega,
    List.getElem?_eq_getElem hi, ?_⟩
  unfold percentile
  by_cases hone : sorted.length = 1
  · rw [if_pos hone]
    have hzero : (percentileIndex sorted.length q).toNat = 0 := by omega
    simp only [hzero]
    exact item_of_lt hlength
  · rw [if_neg hone]
    show (if 0 ≤ percentileIndex sorted.length q then _ else _) = _
    rw [if_pos hlow]
    exact item_of_lt hi

/-- An earlier item of a sorted list is not above a later one. -/
theorem le_of_sorted {sorted : List ℚ} (h : sorted.Pairwise (· ≤ ·)) {i j : ℕ} {x y : ℚ} (hij : i ≤ j)
    (hi : sorted[i]? = some x) (hj : sorted[j]? = some y) : x ≤ y := by
  obtain ⟨hi', rfl⟩ := List.getElem?_eq_some_iff.mp hi
  obtain ⟨hj', rfl⟩ := List.getElem?_eq_some_iff.mp hj
  exact h.rel_get_of_le (a := ⟨i, hi'⟩) (b := ⟨j, hj'⟩) hij

/-- The summary of a bootstrap. -/
theorem bootstrapSummary_eq {values paths : List ℚ} {nPaths : ℕ} {seed name : String} {statistic : Option Statistic}
    (hname : name ≠ "") (h : bootstrapPaths values nPaths seed statistic = .ok paths) :
    ∃ s, bootstrapSummary values nPaths seed statistic name = .ok s ∧ s.minimum ≤ s.p5 ∧ s.p5 ≤ s.p50 ∧ s.p50 ≤ s.p95 ∧
      s.p95 ≤ s.maximum := by
  obtain ⟨-, hseed, hpositive, hall⟩ := bootstrapPaths_eq_ok.mp h
  have hlength : 0 < (paths.mergeSort (· ≤ ·)).length := by
    rw [List.length_mergeSort, ← hall.length_eq, List.length_range]
    exact hpositive
  have hsorted : (paths.mergeSort (· ≤ ·)).Pairwise (· ≤ ·) := List.pairwise_mergeSort' _ paths
  generalize hs : paths.mergeSort (· ≤ ·) = sorted at hlength hsorted
  have hne := List.ne_nil_of_length_pos hlength
  obtain ⟨i, x, hi, hx, hp5⟩ := percentile_eq hne (q := 5 / 100) (by norm_num) (by norm_num)
  obtain ⟨j, y, hj, hy, hp50⟩ := percentile_eq hne (q := 50 / 100) (by norm_num) (by norm_num)
  obtain ⟨k, z, hk, hz, hp95⟩ := percentile_eq hne (q := 95 / 100) (by norm_num) (by norm_num)
  have hij := percentileIndex_mono sorted.length (show (5 / 100 : ℚ) ≤ 50 / 100 by norm_num)
  have hjk := percentileIndex_mono sorted.length (show (50 / 100 : ℚ) ≤ 95 / 100 by norm_num)
  obtain ⟨hk', -⟩ := List.getElem?_eq_some_iff.mp hz
  have hfirst : sorted[0]? = some sorted[0] := List.getElem?_eq_getElem hlength
  have hlast : sorted[sorted.length - 1]? = some sorted[sorted.length - 1] := List.getElem?_eq_getElem (by omega)
  refine ⟨⟨seed, nPaths, name, context.fix (contextTotal context paths / sorted.length), sorted[0],
    sorted[sorted.length - 1], x, y, z⟩, ?_, ?_, ?_, ?_, ?_⟩
  · rw [bootstrapSummary, raiseIf_eq_ok (u := ()).mpr hseed, raiseIf_eq_ok (u := ()).mpr hname, h]
    simp only [hs, item_eq_ok.mpr hfirst, item_eq_ok.mpr hlast, hp5, hp50, hp95, bind, Except.bind]
    rfl
  · exact le_of_sorted hsorted (Nat.zero_le i) hfirst hx
  · exact le_of_sorted hsorted (by omega) hx hy
  · exact le_of_sorted hsorted (by omega) hy hz
  · exact le_of_sorted hsorted (by omega) hz hlast

/-- **Shuffles and bootstraps** of accepted arguments. -/
theorem monteCarlo_spec {values : List ℚ} {seed : String} (hvalues : values ≠ []) (hseed : seed ≠ "") :
    (∃ items, deterministicShuffle values seed = .ok items ∧ items.Perm values) ∧
    (∀ (nPaths k : ℕ) (statistic : Option Statistic) (paths : List ℚ),
      bootstrapPaths values nPaths seed statistic = .ok paths → 1 ≤ k → k ≤ nPaths →
        bootstrapPaths values k seed statistic = .ok (paths.take k)) ∧
    (∀ (n : ℕ) (q : ℚ), 1 ≤ n → q ∈ [(5 / 100 : ℚ), 50 / 100, 95 / 100] →
      0 ≤ percentileIndex n q ∧ percentileIndex n q < n) ∧
    (∀ (nPaths : ℕ) (statistic : Option Statistic) (name : String) (paths : List ℚ), name ≠ "" →
      bootstrapPaths values nPaths seed statistic = .ok paths →
        ∃ s, bootstrapSummary values nPaths seed statistic name = .ok s ∧ s.minimum ≤ s.p5 ∧ s.p5 ≤ s.p50 ∧
          s.p50 ≤ s.p95 ∧ s.p95 ≤ s.maximum) := by
  refine ⟨deterministicShuffle_perm hvalues hseed, fun nPaths k statistic paths h => bootstrapPaths_take h,
    fun n q hn hq => ?_, fun nPaths statistic name paths => bootstrapSummary_eq⟩
  simp only [List.mem_cons, List.not_mem_nil, or_false] at hq
  rcases hq with rfl | rfl | rfl
  · exact percentileIndex_bounds hn (by norm_num) (by norm_num)
  · exact percentileIndex_bounds hn (by norm_num) (by norm_num)
  · exact percentileIndex_bounds hn (by norm_num) (by norm_num)

theorem monteCarlo_spec_three : (∃ items, deterministicShuffle [3, 1, 2] "run" = .ok items ∧ items.Perm [3, 1, 2]) ∧
    ∃ paths, bootstrapPaths [3, 1, 2] 5 "run" none = .ok paths ∧
      bootstrapPaths [3, 1, 2] 2 "run" none = .ok (paths.take 2) ∧
      ∃ s, bootstrapSummary [3, 1, 2] 5 "run" none "sum" = .ok s ∧ s.minimum ≤ s.p5 ∧ s.p5 ≤ s.p50 ∧ s.p50 ≤ s.p95 ∧
        s.p95 ≤ s.maximum := by
  obtain ⟨hshuffle, hshort, -, hsummary⟩ := @monteCarlo_spec [3, 1, 2] "run" (by simp) (by decide)
  obtain ⟨paths, hpaths⟩ := @exists_bootstrapPaths [3, 1, 2] 5 "run" (by simp) (by decide) (by decide)
  exact ⟨hshuffle, paths, hpaths, hshort 5 2 none paths hpaths (by decide) (by decide),
    hsummary 5 none "sum" paths (by decide) hpaths⟩

end AlphaAlgo.Backtest.MonteCarlo
