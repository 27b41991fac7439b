import Mathlib.Data.List.Induction
import Mathlib.Order.Lattice

/-!
# Causal — functions of a series that do not look ahead

`Causal F g` says that `F` answers a series entry by entry: one more entry `a` after `l` appends the one result `g l a`.

* `Causal.length_eq`, `Causal.getElem?_eq`: there is one result for each entry, computed from what was seen up to it.
* `Causal.take_eq`: the results of a prefix are the prefix of the results.
-/

namespace AlphaAlgo

variable {α β : Type*}

structure Causal (F : List α → List β) (g : List α → α → β) : Prop where
  nil : F [] = []
  concat : ∀ l a, F (l ++ [a]) = F l ++ [g l a]

namespace Causal

variable {F : List α → List β} {g : List α → α → β}

theorem length_eq (h : Causal F g) (l : List α) : (F l).length = l.length := by
  induction l using List.reverseRecOn with
  | nil => rw [h.nil]; rfl
  | append_singleton l a ih => rw [h.concat, List.length_append, List.length_append, ih]; rfl

/-- **No look-ahead.** -/
theorem take_eq (h : Causal F g) (l : List α) (n : ℕ) : F (l.take n) = (F l).take n := by
  induction l using List.reverseRecOn with
  | nil => rw [List.take_nil, h.nil, List.take_nil]
  | append_singleton l a ih =>
    by_cases hn : n ≤ l.length
    · rw [List.take_append_of_le_length hn, ih, h.concat, List.take_append_of_le_length (by rwa [h.length_eq])]
    · have hlong : (l ++ [a]).length ≤ n := by
        rw [List.length_append, List.length_singleton]
        omega
      rw [List.take_of_length_le hlong, List.take_of_length_le (by rwa [h.length_eq])]

theorem getElem?_eq (h : Causal F g) {l : List α} {i : ℕ} {a : α} (ha : l[i]? = some a) :
    (F l)[i]? = some (g (l.take i) a) := by
  have hprefix : F (l.take (i + 1)) = F (l.take i) ++ [g (l.take i) a] := by
    rw [List.take_add_one, ha, Option.toList_some, h.concat]
  have hlength : (F (l.take i)).length = i := by
    rw [h.length_eq, List.length_take]
    exact min_eq_left (List.getElem?_eq_some_iff.mp ha).1.le
  calc (F l)[i]? = ((F l).take (i + 1))[i]? := (List.getElem?_take_of_lt (Nat.lt_succ_self i)).symm
    _ = (F (l.take i) ++ [g (l.take i) a])[i]? := by rw [← h.take_eq, hprefix]
    _ = some (g (l.take i) a) := by
      rw [List.getElem?_append_right hlength.le, hlength, Nat.sub_self]
      rfl

end Causal

end AlphaAlgo
