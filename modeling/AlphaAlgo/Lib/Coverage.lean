import Mathlib.Data.Finset.Card
import Mathlib.Order.Interval.Finset.Nat
import Mathlib.Data.Set.Card
import Mathlib.Algebra.BigOperators.Group.Finset.Basic

/-!
# Coverage — counting what a list of intervals covers

A list of `n` flags is cleared; each interval sets the flags of its range; their sum counts the positions that some
interval covers, however the intervals overlap or leave gaps.

* `mark_flags`, `foldl_mark`: marking intervals is the union of sets of positions.
* `sum_flags`: the sum of the flags is the size of the set.
* `sum_foldl_mark`, `ncard_union_add`: the sum after all intervals, and what is left.
-/

namespace AlphaAlgo.Coverage

/-- `flags[a:b] = 1, 1, …`: the range of an interval is overwritten. -/
def mark (flags : List ℕ) (r : ℕ × ℕ) : List ℕ := flags.take r.1 ++ List.replicate (r.2 - r.1) 1 ++ flags.drop r.2

/-- The flags of a set of positions below `n`. -/
def flags (n : ℕ) (s : Finset ℕ) : List ℕ := (List.range n).map fun i => if i ∈ s then 1 else 0

variable {n : ℕ} {s : Finset ℕ}

@[simp] theorem length_flags : (flags n s).length = n := by simp [flags]

theorem getElem?_flags {i : ℕ} (h : i < n) : (flags n s)[i]? = some (if i ∈ s then 1 else 0) := by
  rw [flags, List.getElem?_map, List.getElem?_range h]
  rfl

theorem flags_empty (n : ℕ) : flags n ∅ = List.replicate n 0 := by
  rw [flags, List.eq_replicate_iff]
  simp

/-- Marking an interval adds its positions. -/
theorem mark_flags {r : ℕ × ℕ} (hle : r.1 ≤ r.2) (hn : r.2 ≤ n) :
    mark (flags n s) r = flags n (s ∪ Finset.Ico r.1 r.2) := by
  have htake : ((flags n s).take r.1).length = r.1 := by
    rw [List.length_take, length_flags]
    omega
  refine List.ext_getElem? fun i => ?_
  rw [mark, List.append_assoc]
  by_cases hi : i < n
  · rw [getElem?_flags hi]
    by_cases hbefore : i < r.1
    · rw [List.getElem?_append_left (by omega), List.getElem?_take_of_lt hbefore, getElem?_flags hi]
      have hout : ¬r.1 ≤ i := not_le.mpr hbefore
      simp [hout]
    · rw [List.getElem?_append_right (by omega), htake]
      by_cases hin : i < r.2
      · rw [List.getElem?_append_left (by simp; omega), List.getElem?_replicate_of_lt (by omega)]
        simp [hin, not_lt.mp hbefore]
      · rw [List.getElem?_append_right (by simp; omega), List.length_replicate, List.getElem?_drop,
          show r.2 + (i - r.1 - (r.2 - r.1)) = i by omega, getElem?_flags hi]
        simp [hin]
  · have hlength : ((flags n s).take r.1 ++ (List.replicate (r.2 - r.1) 1 ++ (flags n s).drop r.2)).length = n := by
      simp only [List.length_append, htake, List.length_replicate, List.length_drop, length_flags]
      omega
    rw [List.getElem?_eq_none (by omega), List.getElem?_eq_none (by simp; omega)]

/-- The positions that the intervals cover. -/
def union (intervals : List (ℕ × ℕ)) : Set ℕ := {i | ∃ r ∈ intervals, r.1 ≤ i ∧ i < r.2}

/-- Marking intervals one after the other. -/
theorem foldl_mark : ∀ {intervals : List (ℕ × ℕ)} {s : Finset ℕ}, (∀ r ∈ intervals, r.1 ≤ r.2 ∧ r.2 ≤ n) →
    ∃ t : Finset ℕ, intervals.foldl mark (flags n s) = flags n t ∧ (t : Set ℕ) = (s : Set ℕ) ∪ union intervals
  | [], s, _ => ⟨s, rfl, by simp [union]⟩
  | r :: rest, s, h => by
    obtain ⟨hle, hn⟩ := h r List.mem_cons_self
    obtain ⟨t, hfold, ht⟩ := foldl_mark (s := s ∪ Finset.Ico r.1 r.2) fun x hx => h x (List.mem_cons_of_mem r hx)
    refine ⟨t, ?_, ?_⟩
    · rw [List.foldl_cons, mark_flags hle hn, hfold]
    · rw [ht, Finset.coe_union, Set.union_assoc]
      congr 1
      ext i
      simp [union]

/-- The flags add up to the size of the set. -/
theorem sum_flags (h : ∀ i ∈ s, i < n) : (flags n s).sum = s.card := by
  have hset : s = (Finset.range n).filter (· ∈ s) := by
    ext i
    simp only [Finset.mem_filter, Finset.mem_range]
    exact ⟨fun hi => ⟨h i hi, hi⟩, And.right⟩
  conv_rhs => rw [hset]
  rw [flags, Finset.card_filter]
  rfl

/-- The positions that intervals below `n` cover are below `n`. -/
theorem lt_of_mem_union {intervals : List (ℕ × ℕ)} (h : ∀ r ∈ intervals, r.2 ≤ n) {i : ℕ} (hi : i ∈ union intervals) :
    i < n := by
  obtain ⟨r, hr, -, hlt⟩ := hi
  exact lt_of_lt_of_le hlt (h r hr)

/-- **What the flags count**: after all intervals, they add up to the size of the union. -/
theorem sum_foldl_mark {intervals : List (ℕ × ℕ)} (h : ∀ r ∈ intervals, r.1 ≤ r.2 ∧ r.2 ≤ n) :
    (intervals.foldl mark (List.replicate n 0)).sum = (union intervals).ncard := by
  obtain ⟨t, hfold, ht⟩ := foldl_mark (s := ∅) h
  have hunion : (t : Set ℕ) = union intervals := by simpa using ht
  have hbelow : ∀ i ∈ t, i < n := by
    intro i hi
    refine lt_of_mem_union (fun r hr => (h r hr).2) ?_
    rw [← hunion]
    exact hi
  rw [← flags_empty, hfold, sum_flags hbelow, ← hunion, Set.ncard_coe_finset]

/-- The positions below `n` are those that are covered and the rest. -/
theorem ncard_union_add {intervals : List (ℕ × ℕ)} (h : ∀ r ∈ intervals, r.2 ≤ n) :
    (union intervals).ncard + {i | i < n ∧ i ∉ union intervals}.ncard = n := by
  have hsub : union intervals ⊆ Set.Iio n := fun i hi => lt_of_mem_union h hi
  have hrest : {i | i < n ∧ i ∉ union intervals} = Set.Iio n \ union intervals := rfl
  rw [hrest, add_comm, Set.ncard_sdiff_add_ncard_of_subset hsub (Set.finite_Iio n), ← Finset.coe_Iio,
    Set.ncard_coe_finset, Nat.card_Iio]

end AlphaAlgo.Coverage
