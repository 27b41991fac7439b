import Mathlib.Algebra.BigOperators.Group.List.Basic
import Mathlib.Algebra.Order.Field.Basic
import Mathlib.Data.List.Sort
import Mathlib.Tactic

/-!
# Tails — the smallest values of a list and their mean

`smallest k l` are the `k` smallest values of `l`, in order.

* `smallest_perm`: they do not depend on the order of the list.
* `worst_mono`: the `k`-th smallest value grows with `k`.
* `mean_mono`: so does the mean of the `k` smallest.
* `sum_eq_sub_spread`: a sum is a multiple of a value less what the values are below it.
-/

namespace AlphaAlgo.Tails

variable {α : Type*} [LinearOrder α]

/-- The list in order. -/
def sorted (l : List α) : List α := l.insertionSort (· ≤ ·)

def smallest (k : ℕ) (l : List α) : List α := (sorted l).take k

theorem pairwise_sorted (l : List α) : (sorted l).Pairwise (· ≤ ·) := List.pairwise_insertionSort _ l

theorem length_sorted (l : List α) : (sorted l).length = l.length := List.length_insertionSort _ l

/-- The order of the list does not matter. -/
theorem sorted_perm {l l' : List α} (h : l.Perm l') : sorted l = sorted l' := by
  have hperm : (sorted l).Perm (sorted l') :=
    (List.perm_insertionSort _ l).trans (h.trans (List.perm_insertionSort _ l').symm)
  exact hperm.eq_of_pairwise' (pairwise_sorted l) (pairwise_sorted l')

theorem smallest_perm {l l' : List α} (h : l.Perm l') (k : ℕ) : smallest k l = smallest k l' := by
  rw [smallest, smallest, sorted_perm h]

theorem length_smallest {k : ℕ} {l : List α} (h : k ≤ l.length) : (smallest k l).length = k := by
  rw [smallest, List.length_take, length_sorted, min_eq_left h]

/-- The `k`-th smallest value grows with `k`. -/
theorem worst_mono {l : List α} {i j : ℕ} (hij : i ≤ j) (hi : i < (sorted l).length) (hj : j < (sorted l).length) :
    (sorted l)[i] ≤ (sorted l)[j] := by
  rcases hij.eq_or_lt with rfl | hlt
  · exact le_rfl
  · exact List.pairwise_iff_getElem.mp (pairwise_sorted l) i j _ hj hlt

/-- The last of the smallest is the greatest of them. -/
theorem le_worst {l : List α} {k : ℕ} (hk : 0 < k) (hi : k - 1 < (sorted l).length) {x : α} (hx : x ∈ smallest k l) :
    x ≤ (sorted l)[k - 1] := by
  obtain ⟨j, hj, rfl⟩ := List.mem_take_iff_getElem.mp hx
  exact worst_mono (by omega) _ hi

/-! ### Means -/

variable [Field α] [IsStrictOrderedRing α]

theorem sum_take_le {l : List α} {m : ℕ} (hm : m < (sorted l).length) :
    ((sorted l).take m).sum ≤ m * (sorted l)[m] := by
  have hle : ∀ x ∈ (sorted l).take m, x ≤ (sorted l)[m] := by
    intro x hx
    obtain ⟨i, hi, rfl⟩ := List.mem_take_iff_getElem.mp hx
    exact worst_mono (by omega) _ hm
  have hsum := List.sum_le_card_nsmul _ _ hle
  rwa [List.length_take, min_eq_left hm.le, nsmul_eq_mul] at hsum

/-- **The mean of the smallest values** grows with their number. -/
theorem mean_mono {l : List α} {k m : ℕ} (hk : 0 < k) (hkm : k ≤ m) (hm : m ≤ l.length) :
    (smallest k l).sum / k ≤ (smallest m l).sum / m := by
  induction m, hkm using Nat.le_induction with
  | base => exact le_rfl
  | succ m hkm ih =>
    have hlt : m < (sorted l).length := by
      rw [length_sorted]
      omega
    have hpos : (0 : α) < m := by exact_mod_cast hk.trans_le hkm
    refine (ih (by omega)).trans ?_
    rw [smallest, smallest, List.sum_take_succ _ _ hlt, div_le_div_iff₀ hpos (by positivity)]
    have := sum_take_le hlt
    push_cast
    linarith

/-- The mean of the smallest values is not above the last of them. -/
theorem mean_le_worst {l : List α} {m : ℕ} (hm : m < (sorted l).length) :
    (smallest (m + 1) l).sum / (m + 1 : ℕ) ≤ (sorted l)[m] := by
  have hpos : (0 : α) < (m + 1 : ℕ) := by positivity
  rw [div_le_iff₀ hpos, smallest, List.sum_take_succ _ _ hm]
  have := sum_take_le hm
  push_cast
  linarith

/-- What the values of a list are below `v`, together. -/
def spread (v : α) (l : List α) : α := (l.map fun x => v - x).sum

theorem sum_eq_sub_spread (v : α) (l : List α) : l.sum = l.length * v - spread v l := by
  induction l with
  | nil => simp [spread]
  | cons x l ih =>
    rw [spread, List.map_cons, List.sum_cons, List.sum_cons, ih, spread, List.length_cons]
    push_cast
    ring

theorem spread_nonneg {v : α} {l : List α} (h : ∀ x ∈ l, x ≤ v) : 0 ≤ spread v l := by
  refine List.sum_nonneg fun y hy => ?_
  obtain ⟨x, hx, rfl⟩ := List.mem_map.mp hy
  exact sub_nonneg.mpr (h x hx)

end AlphaAlgo.Tails
