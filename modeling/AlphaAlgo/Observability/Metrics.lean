import AlphaAlgo.Lib.Bisect
import AlphaAlgo.Lib.Dict
import AlphaAlgo.Lib.Loop
import AlphaAlgo.Lib.Runs
import AlphaAlgo.Market.Normalize

/-!
# Metrics — the histogram

A histogram keeps one series for each tuple of label values.  A series counts an observation in the bin that
`bisect_right` finds for it in the sorted bounds; the bins are documented as `<=b0, (b0,b1], ..., >b[-1]`.

* `HistogramSeries`: the counts have one more entry than the bounds and sum to the number of observations.
* `series_run`: what a run leaves under a key is the series of the values observed under it.
* `documented_iff`: the counts are the documented ones exactly where something was observed and no observation is a bound.
-/

namespace AlphaAlgo.Observability

open Bisect Runs
open Loop (raiseIf)
open Market (reprTexts)
open Risk (reprText)

/-! ### Labels -/

/-- The value of a label: a text, or anything else. -/
inductive Label where
  | text (s : String)
  | other

abbrev Labels : Type := Option (Dict String Label)

def maxLabelValueLength : ℕ := 128

/-- A tuple of texts as a formatted string shows it. -/
def reprTuple : List String → String
  | [] => "()"
  | [s] => "(" ++ reprText s ++ ",)"
  | l => "(" ++ ", ".intercalate (l.map reprText) ++ ")"

/-- The checks of the value of a label that is there. -/
def labelValue (labels : Dict String Label) (key : String) : Except String String :=
  match labels.get? key with
  | some (.text value) =>
    if maxLabelValueLength < value.length then
      .error ("label " ++ reprText key ++ " value exceeds " ++ toString maxLabelValueLength ++ " chars")
    else .ok value
  | _ => .error ("label " ++ reprText key ++ " must be a string")

/-- `_resolve_labels`. -/
def resolveLabels (spec : List String) (labels : Labels) : Except String (List String) := do
  let labels := labels.getD Dict.empty
  let unknown := (labels.items.map Prod.fst).filter (· ∉ spec)
  raiseIf (unknown ≠ []) ("unknown label(s) " ++ reprTexts (unknown.insertionSort (· ≤ ·)) ++ " for labels=" ++
    reprTuple spec)
  let missing := spec.filter fun key => (labels.get? key).isNone
  raiseIf (missing ≠ []) ("missing label(s) " ++ reprTexts (missing.insertionSort (· ≤ ·)) ++ " for labels=" ++
    reprTuple spec)
  spec.mapM (labelValue labels)

/-! ### A series -/

theorem sum_modify_succ : ∀ {l : List ℕ} {i : ℕ}, i < l.length → (l.modify i (· + 1)).sum = l.sum + 1
  | a :: l, 0, _ => by
    rw [List.modify_zero_cons, List.sum_cons, List.sum_cons]
    omega
  | a :: l, i + 1, h => by
    rw [List.modify_succ_cons, List.sum_cons, List.sum_cons, sum_modify_succ (Nat.lt_of_succ_lt_succ h)]
    omega

/-- `_HistogramSeries`; the values are exact. -/
structure HistogramSeries where
  buckets : List ℚ
  counts : List ℕ
  total : ℚ
  count : ℕ
  sorted : buckets.Pairwise (· ≤ ·)
  length_counts : counts.length = buckets.length + 1
  sum_counts : counts.sum = count

/-- What `snapshot` returns. -/
structure HistogramSnapshot where
  count : ℕ
  total : ℚ
  buckets : List ℚ
  counts : List ℕ
deriving DecidableEq

namespace HistogramSeries

/-- A series that has observed nothing. -/
def fresh (buckets : List ℚ) (sorted : buckets.Pairwise (· ≤ ·)) : HistogramSeries where
  buckets := buckets
  counts := List.replicate (buckets.length + 1) 0
  total := 0
  count := 0
  sorted := sorted
  length_counts := List.length_replicate
  sum_counts := by rw [List.sum_replicate, smul_zero]

def observe (s : HistogramSeries) (value : ℚ) : HistogramSeries where
  buckets := s.buckets
  counts := s.counts.modify (bisectRight s.buckets value) (· + 1)
  total := s.total + value
  count := s.count + 1
  sorted := s.sorted
  length_counts := (List.length_modify _ _ _).trans s.length_counts
  sum_counts := by
    rw [sum_modify_succ, s.sum_counts]
    rw [s.length_counts]
    exact Nat.lt_succ_of_le (bisectRight_le s.sorted value)

def snapshot (s : HistogramSeries) : HistogramSnapshot := ⟨s.count, s.total, s.buckets, s.counts⟩

end HistogramSeries

/-! ### The histogram -/

structure Histogram where
  name : String
  description : String
  labels : List String
  buckets : List ℚ
  series : Dict (List String) HistogramSeries
  sorted : buckets.Pairwise (· ≤ ·)

namespace Histogram

/-- `Histogram(name, description, labels, buckets)`. -/
def new (name description : String) (labels : List String) (buckets : List ℚ) : Histogram where
  name := name
  description := description
  labels := labels
  buckets := buckets.insertionSort (· ≤ ·)
  series := Dict.empty
  sorted := List.pairwise_insertionSort (· ≤ ·) buckets

/-- The series under a key, a new one where there is none. -/
def seriesAt (h : Histogram) (key : List String) : HistogramSeries :=
  (h.series.get? key).getD (HistogramSeries.fresh h.buckets h.sorted)

def observe (h : Histogram) (value : ℚ) (labels : Labels) : Except String Histogram := do
  let key ← resolveLabels h.labels labels
  return { h with series := h.series.set key ((h.seriesAt key).observe value) }

def snapshot (h : Histogram) (labels : Labels) : Except String HistogramSnapshot := do
  let key ← resolveLabels h.labels labels
  match h.series.get? key with
  | none => return ⟨0, 0, h.buckets, []⟩
  | some series => return series.snapshot

end Histogram

/-- A call of `observe`. -/
structure Observation where
  value : ℚ
  labels : Labels

/-- One call; one that raises leaves the histogram as it is. -/
def record (h : Histogram) (call : Observation) : Histogram :=
  match h.observe call.value call.labels with
  | .ok h' => h'
  | .error _ => h

/-- The values observed under a key. -/
def valuesAt (spec key : List String) (calls : List Observation) : List ℚ :=
  (calls.filter fun call => (resolveLabels spec call.labels).toOption = some key).map Observation.value

/-! ### Runs of a series -/

section Series

variable {s : HistogramSeries}

/-- The series after the values, observed in order. -/
def HistogramSeries.observeAll (s : HistogramSeries) (values : List ℚ) : HistogramSeries :=
  values.foldl HistogramSeries.observe s

theorem observeAll_concat (s : HistogramSeries) (values : List ℚ) (v : ℚ) :
    s.observeAll (values ++ [v]) = (s.observeAll values).observe v := by
  rw [HistogramSeries.observeAll, List.foldl_append]
  rfl

@[simp] theorem buckets_observeAll (values : List ℚ) : (s.observeAll values).buckets = s.buckets := by
  induction values using List.reverseRecOn with
  | nil => rfl
  | append_singleton values v ih =>
    rw [observeAll_concat]
    exact ih

/-- An observation adds one to the count of its bin. -/
theorem counts_observe {i c : ℕ} (h : s.counts[i]? = some c) (v : ℚ) :
    (s.observe v).counts[i]? = some (c + if bisectRight s.buckets v = i then 1 else 0) := by
  rw [HistogramSeries.observe, List.getElem?_modify, h]
  split_ifs <;> rfl

/-- **The counts** are those of the places that the search finds. -/
theorem counts_observeAll {buckets : List ℚ} (sorted : buckets.Pairwise (· ≤ ·)) {i : ℕ} (hi : i ≤ buckets.length)
    (values : List ℚ) : ((HistogramSeries.fresh buckets sorted).observeAll values).counts[i]? =
      some (values.countP fun v => bisectRight buckets v = i) := by
  induction values using List.reverseRecOn with
  | nil => simp [HistogramSeries.observeAll, HistogramSeries.fresh, hi]
  | append_singleton values v ih =>
    rw [observeAll_concat, counts_observe ih, buckets_observeAll, List.countP_append, List.countP_singleton]
    by_cases hbin : bisectRight buckets v = i
    · simp [HistogramSeries.fresh, hbin]
    · simp [HistogramSeries.fresh, hbin]

end Series

/-! ### Runs of the histogram -/

section Histogram

variable {h : Histogram} {key : List String}

/-- A call changes the series alone, and only the one of its key. -/
theorem record_cases (h : Histogram) (call : Observation) :
    (∃ e, resolveLabels h.labels call.labels = .error e ∧ record h call = h) ∨
    ∃ key, resolveLabels h.labels call.labels = .ok key ∧
      record h call = { h with series := h.series.set key ((h.seriesAt key).observe call.value) } := by
  cases hkey : resolveLabels h.labels call.labels with
  | error e =>
    refine .inl ⟨e, rfl, ?_⟩
    simp [record, Histogram.observe, hkey, bind, Except.bind]
  | ok key =>
    refine .inr ⟨key, rfl, ?_⟩
    simp [record, Histogram.observe, hkey, bind, Except.bind, pure, Except.pure]

theorem run_kept (h : Histogram) (calls : List Observation) :
    ∃ series, run record h calls = { h with series := series } := by
  induction calls using List.reverseRecOn with
  | nil => exact ⟨h.series, rfl⟩
  | append_singleton calls call ih =>
    obtain ⟨series, hrun⟩ := ih
    rw [run_concat, hrun]
    obtain ⟨e, -, heq⟩ | ⟨key, -, heq⟩ := record_cases { h with series := series } call
    · exact ⟨_, heq⟩
    · exact ⟨_, heq⟩

theorem valuesAt_concat (spec key : List String) (calls : List Observation) (call : Observation) :
    valuesAt spec key (calls ++ [call]) =
      valuesAt spec key calls ++ if (resolveLabels spec call.labels).toOption = some key then [call.value] else [] := by
  rw [valuesAt, List.filter_append, List.map_append, List.filter_singleton]
  split_ifs with h
  · simp [valuesAt, h]
  · simp [valuesAt, h]

/-- **What a run leaves under a key**: the series of the values observed under it, none where there are none. -/
theorem series_run (hempty : h.series = Dict.empty) (calls : List Observation) :
    (run record h calls).series.get? key =
      if valuesAt h.labels key calls = [] then none
      else some ((HistogramSeries.fresh h.buckets h.sorted).observeAll (valuesAt h.labels key calls)) := by
  induction calls using List.reverseRecOn with
  | nil =>
    rw [run_nil, hempty]
    rfl
  | append_singleton calls call ih =>
    obtain ⟨series, hrun⟩ := run_kept h calls
    rw [hrun] at ih
    rw [run_concat, hrun, valuesAt_concat]
    obtain ⟨e, hkey, heq⟩ | ⟨key', hkey, heq⟩ := record_cases { h with series := series } call
    · have hnone : (resolveLabels h.labels call.labels).toOption ≠ some key := by
        rw [hkey]
        simp [Except.toOption]
      rw [heq, if_neg hnone, List.append_nil]
      exact ih
    · rw [heq]
      have hkey' : (resolveLabels h.labels call.labels).toOption = some key' := by
        rw [hkey]
        rfl
      by_cases hsame : key = key'
      · subst hsame
        have hat : Histogram.seriesAt { h with series := series } key =
            (HistogramSeries.fresh h.buckets h.sorted).observeAll (valuesAt h.labels key calls) := by
          rw [Histogram.seriesAt, ih]
          split_ifs with hnil
          · rw [hnil]
            rfl
          · rfl
        rw [if_pos hkey', if_neg (by simp), observeAll_concat, ← hat]
        exact Dict.get?_set_self
      · have hne : (resolveLabels h.labels call.labels).toOption ≠ some key := by
          rw [hkey']
          exact fun heq => hsame (Option.some.inj heq).symm
        rw [if_neg hne, List.append_nil, ← ih]
        exact Dict.get?_set_of_ne hsame

end Histogram

/-! ### The documented bins -/

/-- A value is in the documented bin `i`: above the bound before the bin, at most the bound of the bin. -/
def InBin (bounds : List ℚ) (i : ℕ) (v : ℚ) : Prop := (∀ b ∈ before bounds i, b < v) ∧ ∀ b ∈ bounds[i]?, v ≤ b

instance instDecidableInBin (bounds : List ℚ) (i : ℕ) (v : ℚ) : Decidable (InBin bounds i v) :=
  inferInstanceAs (Decidable (_ ∧ _))

/-- The snapshot that the documentation promises for the values. -/
structure Documented (bounds values : List ℚ) (snap : HistogramSnapshot) : Prop where
  length : snap.counts.length = bounds.length + 1
  bins : ∀ i ≤ bounds.length, snap.counts[i]? = some (values.countP (InBin bounds i))
  sum : snap.counts.sum = snap.count

/-- The documented bin of a value is the number of the bounds below it. -/
theorem inBin_iff {bounds : List ℚ} (sorted : bounds.Pairwise (· ≤ ·)) {i : ℕ} (hi : i ≤ bounds.length) {v : ℚ} :
    InBin bounds i v ↔ bounds.countP (· < v) = i := by
  rw [countP_eq_iff (fun a b hab hb => by simpa using hab.trans_lt (by simpa using hb)) sorted hi, InBin]
  simp only [decide_eq_true_eq, not_lt]

/-- **The bins of the search are the documented ones** exactly for values that are no bound. -/
theorem bins_iff {bounds : List ℚ} (sorted : bounds.Pairwise (· ≤ ·)) (values : List ℚ) :
    (∀ i ≤ bounds.length, (values.countP fun v => bisectRight bounds v = i) = values.countP (InBin bounds i)) ↔
      ∀ v ∈ values, v ∉ bounds := by
  have hbin : ∀ i ≤ bounds.length, values.countP (InBin bounds i) = values.countP fun v => bounds.countP (· < v) = i :=
    fun i hi => List.countP_congr fun v _ => by simp only [inBin_iff sorted hi]
  simp only [bisectRight_eq sorted]
  constructor
  · intro h v hv
    rw [← countP_lt_eq_iff]
    refine eq_of_counts_eq (f := fun v => bounds.countP (· < v)) (g := fun v => bounds.countP (· ≤ v))
      (fun v _ => List.countP_mono_left fun b _ hb => ?_) (fun i => ?_) v hv
    · exact decide_eq_true (of_decide_eq_true hb).le
    · by_cases hi : i ≤ bounds.length
      · rw [h i hi, hbin i hi]
      · -- a place beyond the last bin is the place of no value
        have hnone : ∀ p : ℚ → ℚ → Bool, (values.countP fun v => bounds.countP (p v) = i) = 0 := by
          intro p
          rw [List.countP_eq_zero]
          intro v _ heq
          have hle : bounds.countP (p v) ≤ bounds.length := List.countP_le_length
          exact hi ((of_decide_eq_true heq) ▸ hle)
        rw [hnone fun v b => b < v, hnone fun v b => b ≤ v]
  · intro h i hi
    rw [hbin i hi]
    refine List.countP_congr fun v hv => ?_
    rw [countP_lt_eq_iff.mpr (h v hv)]

theorem snapshot_run {h : Histogram} {key : List String} (hempty : h.series = Dict.empty) (calls : List Observation)
    {labels : Labels} (hkey : resolveLabels h.labels labels = .ok key) :
    (run record h calls).snapshot labels = .ok
      (if valuesAt h.labels key calls = [] then ⟨0, 0, h.buckets, []⟩
      else ((HistogramSeries.fresh h.buckets h.sorted).observeAll (valuesAt h.labels key calls)).snapshot) := by
  have hseries := @series_run h key hempty calls
  obtain ⟨series, hrun⟩ := run_kept h calls
  rw [hrun] at hseries ⊢
  have hsnapshot : Histogram.snapshot { h with series := series } labels =
      .ok ((series.get? key).elim ⟨0, 0, h.buckets, []⟩ HistogramSeries.snapshot) := by
    rw [Histogram.snapshot, hkey]
    simp only [bind, Except.bind]
    cases series.get? key with
    | none => rfl
    | some s => rfl
  rw [hsnapshot, hseries]
  split_ifs <;> rfl

/-- The snapshot of a series is the documented one exactly where no observation is a bound. -/
theorem documented_observeAll {bounds : List ℚ} (sorted : bounds.Pairwise (· ≤ ·)) (values : List ℚ) :
    Documented bounds values ((HistogramSeries.fresh bounds sorted).observeAll values).snapshot ↔
      ∀ v ∈ values, v ∉ bounds := by
  set s := (HistogramSeries.fresh bounds sorted).observeAll values with hs
  have hbuckets : s.buckets = bounds := buckets_observeAll values
  rw [← bins_iff sorted values]
  constructor
  · intro h i hi
    have hbin := h.bins i hi
    rw [HistogramSeries.snapshot, hs, counts_observeAll sorted hi] at hbin
    exact Option.some.inj hbin
  · intro h
    refine ⟨?_, fun i hi => ?_, s.sum_counts⟩
    · rw [HistogramSeries.snapshot, s.length_counts, hbuckets]
    · rw [HistogramSeries.snapshot, hs, counts_observeAll sorted hi, h i hi]

/-- **The counts are the documented ones** exactly where something was observed and no observation is a bound. -/
theorem documented_iff (name description : String) (spec : List String) (buckets : List ℚ) (calls : List Observation)
    (labels : Labels) (key : List String) (hkey : resolveLabels spec labels = .ok key) :
    (∃ snap, (run record (Histogram.new name description spec buckets) calls).snapshot labels = .ok snap ∧
      Documented (buckets.insertionSort (· ≤ ·)) (valuesAt spec key calls) snap) ↔
    valuesAt spec key calls ≠ [] ∧ ∀ v ∈ valuesAt spec key calls, v ∉ buckets := by
  rw [snapshot_run (h := Histogram.new name description spec buckets) rfl calls hkey]
  simp only [Except.ok.injEq, exists_eq_left']
  by_cases hnil : valuesAt spec key calls = []
  · -- a key that was never observed has the empty counts
    have hlength : ¬ Documented (buckets.insertionSort (· ≤ ·)) (valuesAt spec key calls)
        ⟨0, 0, buckets.insertionSort (· ≤ ·), []⟩ := by
      intro h
      simpa using h.length
    rw [if_pos (show valuesAt (Histogram.new name description spec buckets).labels key calls = [] from hnil)]
    exact iff_of_false hlength fun h => h.1 hnil
  · rw [if_neg (show ¬ valuesAt (Histogram.new name description spec buckets).labels key calls = [] from hnil)]
    have hmem : ∀ v, v ∈ buckets.insertionSort (· ≤ ·) ↔ v ∈ buckets :=
      fun v => (List.perm_insertionSort (· ≤ ·) buckets).mem_iff
    have hiff := documented_observeAll (List.pairwise_insertionSort (· ≤ ·) buckets) (valuesAt spec key calls)
    simp only [hmem] at hiff
    exact hiff.trans (iff_and_self.mpr fun _ => hnil)

/-- Without labels there is one series. -/
theorem resolveLabels_none : resolveLabels [] none = .ok [] := rfl

theorem documented_iff_three :
    (∃ snap, (run record (Histogram.new "latency" "" [] [1 / 10, 1 / 100, 1])
      [⟨1 / 200, none⟩, ⟨1 / 20, none⟩, ⟨2, none⟩]).snapshot none = .ok snap ∧
      Documented [1 / 100, 1 / 10, 1] [1 / 200, 1 / 20, 2] snap) := by
  have hiff := documented_iff "latency" "" [] [1 / 10, 1 / 100, 1] [⟨1 / 200, none⟩, ⟨1 / 20, none⟩, ⟨2, none⟩] none []
    resolveLabels_none
  have hsorted : [(1 : ℚ) / 10, 1 / 100, 1].insertionSort (· ≤ ·) = [1 / 100, 1 / 10, 1] := by decide +kernel
  have hvalues : valuesAt [] [] [⟨1 / 200, none⟩, ⟨1 / 20, none⟩, ⟨2, none⟩] = [1 / 200, 1 / 20, 2] := rfl
  rw [hsorted, hvalues] at hiff
  exact hiff.mpr ⟨by simp, by norm_num⟩

/-- An observation that is a bound is counted above it. -/
theorem not_documented : ¬ ∃ snap, (run record (Histogram.new "latency" "" [] [1 / 100, 1 / 10, 1])
    [⟨1 / 10, none⟩]).snapshot none = .ok snap ∧ Documented [1 / 100, 1 / 10, 1] [1 / 10] snap := by
  rintro ⟨snap, hsnap, hdoc⟩
  have hrun : (run record (Histogram.new "latency" "" [] [1 / 100, 1 / 10, 1]) [⟨1 / 10, none⟩]).snapshot none =
      .ok ⟨1, 1 / 10, [1 / 100, 1 / 10, 1], [0, 0, 1, 0]⟩ := by decide +kernel
  have hcounts : snap = ⟨1, 1 / 10, [1 / 100, 1 / 10, 1], [0, 0, 1, 0]⟩ := Except.ok.inj (hsnap.symm.trans hrun)
  have hbin := hdoc.bins 1 (by simp)
  rw [hcounts] at hbin
  have hone : [(1 : ℚ) / 10].countP (InBin [1 / 100, 1 / 10, 1] 1) = 1 := by decide +kernel
  rw [hone] at hbin
  simp at hbin

end AlphaAlgo.Observability
