import Mathlib.Algebra.Order.BigOperators.Group.List
import Mathlib.Data.List.Pairwise
import Mathlib.Data.List.Sort
import Mathlib.Tactic

/-!
# Bisect — where a value belongs in a sorted list

`bisectRight l x` halves an interval of positions until it is empty.

* `holds_iff`, `countP_eq_iff`: a predicate that holds below wherever it holds picks the first entries of a sorted list.
* `bisectRight_eq`: the search returns the number of the entries that are at most the value.
* `eq_of_counts_eq`: two placements of the same values, one never after the other, that fill the bins alike are the same.
-/

namespace AlphaAlgo.Bisect

/-! ### The first entries of a sorted list -/

section Firsts

variable {α : Type*} {l : List α} {i : ℕ}

/-- The entry before the place `i`. -/
def before (l : List α) : ℕ → Option α
  | 0 => none
  | i + 1 => l[i]?

variable [Preorder α] {p : α → Bool}

/-- **The entries a downward predicate picks** are the first ones. -/
theorem holds_iff (hp : ∀ a b, a ≤ b → p b → p a) (h : l.Pairwise (· ≤ ·)) (hi : i < l.length) :
    p l[i] ↔ i < l.countP p := by
  induction l generalizing i with
  | nil => exact absurd hi (Nat.not_lt_zero i)
  | cons a l ih =>
    obtain ⟨ha, hl⟩ := List.pairwise_cons.mp h
    by_cases hpa : p a
    · rw [List.countP_cons_of_pos hpa]
      cases i with
      | zero => simp [hpa]
      | succ i => rw [List.getElem_cons_succ, ih hl (Nat.lt_of_succ_lt_succ hi), Nat.succ_lt_succ_iff]
    · have hnone : l.countP p = 0 := by
        rw [List.countP_eq_zero]
        intro b hb hpb
        exact hpa (hp a b (ha b hb) hpb)
      rw [List.countP_cons_of_neg hpa, hnone]
      have hle : a ≤ (a :: l)[i] := by
        rcases List.mem_cons.mp (List.getElem_mem hi) with heq | hb
        · exact heq.ge
        · exact ha _ hb
      simpa using fun hpi => hpa (hp a _ hle hpi)

/-- **Their number** is told by the entries around the place. -/
theorem countP_eq_iff (hp : ∀ a b, a ≤ b → p b → p a) (h : l.Pairwise (· ≤ ·)) (hi : i ≤ l.length) :
    l.countP p = i ↔ (∀ b ∈ before l i, p b) ∧ ∀ b ∈ l[i]?, ¬p b := by
  have hle : l.countP p ≤ l.length := List.countP_le_length
  have hnext : (∀ b ∈ l[i]?, ¬p b) ↔ l.countP p ≤ i := by
    by_cases hlt : i < l.length
    · simp only [List.getElem?_eq_getElem hlt, Option.mem_some_iff, forall_eq']
      rw [holds_iff hp h hlt, not_lt]
    · simp only [List.getElem?_eq_none_iff.mpr (not_lt.mp hlt), Option.mem_def, reduceCtorEq, false_implies,
        implies_true, true_iff]
      omega
  have hlast : (∀ b ∈ before l i, p b) ↔ i ≤ l.countP p := by
    cases i with
    | zero => simp [before]
    | succ i =>
      simp only [before, List.getElem?_eq_getElem hi, Option.mem_some_iff, forall_eq']
      rw [holds_iff hp h hi, Nat.succ_le_iff]
  rw [hlast, hnext]
  omega

end Firsts

/-! ### The search -/

section Search

variable {α : Type*} [LinearOrder α]

/-- The loop, from the positions `lo` and `hi`. -/
def search (l : List α) (x : α) : ℕ → ℕ → ℕ → ℕ
  | 0, lo, _ => lo
  | fuel + 1, lo, hi =>
    if lo < hi then
      let mid := (lo + hi) / 2
      if (l[mid]?).any (x < ·) then search l x fuel lo mid else search l x fuel (mid + 1) hi
    else lo

/-- `bisect.bisect_right`. -/
def bisectRight (l : List α) (x : α) : ℕ := search l x l.length 0 l.length

variable {l : List α} {x : α}

theorem getElem_le_iff (h : l.Pairwise (· ≤ ·)) {i : ℕ} (hi : i < l.length) : l[i] ≤ x ↔ i < l.countP (· ≤ x) := by
  have hiff := holds_iff (p := (· ≤ x)) (fun a b hab hb => by simpa using hab.trans (by simpa using hb)) h hi
  simpa only [decide_eq_true_eq] using hiff

/-- The search keeps the number of the entries that are at most `x` between its positions. -/
theorem search_eq (h : l.Pairwise (· ≤ ·)) : ∀ {fuel lo hi : ℕ}, hi - lo ≤ fuel → lo ≤ l.countP (· ≤ x) →
    l.countP (· ≤ x) ≤ hi → hi ≤ l.length → search l x fuel lo hi = l.countP (· ≤ x)
  | 0, lo, hi, hfuel, hlo, hhi, _ => by
    rw [search]
    omega
  | fuel + 1, lo, hi, hfuel, hlo, hhi, hlength => by
    rw [search]
    by_cases hlt : lo < hi
    · have hmid : (lo + hi) / 2 < l.length := by omega
      rw [if_pos hlt]
      dsimp only
      rw [List.getElem?_eq_getElem hmid, Option.any_some]
      by_cases hx : x < l[(lo + hi) / 2]
      · have hle : l.countP (· ≤ x) ≤ (lo + hi) / 2 :=
          not_lt.mp fun hc => absurd ((getElem_le_iff h hmid).mpr hc) (not_le.mpr hx)
        rw [if_pos (decide_eq_true hx)]
        exact search_eq h (by omega) hlo hle hmid.le
      · have hc : (lo + hi) / 2 < l.countP (· ≤ x) := (getElem_le_iff h hmid).mp (not_lt.mp hx)
        rw [if_neg (by simpa using hx)]
        exact search_eq h (by omega) hc hhi hlength
    · rw [if_neg hlt]
      omega

/-- **The place of a value** is the number of entries that are at most the value. -/
theorem bisectRight_eq (h : l.Pairwise (· ≤ ·)) (x : α) : bisectRight l x = l.countP (· ≤ x) :=
  search_eq h (by omega) (Nat.zero_le _) List.countP_le_length le_rfl

theorem bisectRight_le (h : l.Pairwise (· ≤ ·)) (x : α) : bisectRight l x ≤ l.length := by
  rw [bisectRight_eq h]
  exact List.countP_le_length

/-- The entries below a value are as many as the entries that are at most the value exactly where it is no entry. -/
theorem countP_lt_eq_iff : l.countP (· < x) = l.countP (· ≤ x) ↔ x ∉ l := by
  induction l with
  | nil => simp
  | cons a l ih =>
    have hle : l.countP (· < x) ≤ l.countP (· ≤ x) := List.countP_mono_left fun b _ hb => by
      simpa using (show b < x by simpa using hb).le
    simp only [List.countP_cons, List.mem_cons, not_or, ← ih]
    rcases lt_trichotomy a x with hax | rfl | hax
    · simp [hax, hax.le, hax.ne']
    · simp
      omega
    · simp [hax.not_gt, hax.not_ge, hax.ne]

end Search

/-! ### Bins -/

section Bins

variable {β : Type*} {values : List β} {f g : β → ℕ}

/-- **Bins that are filled alike** by two placements, one never after the other, are filled by the same values. -/
theorem eq_of_counts_eq (hle : ∀ v ∈ values, f v ≤ g v)
    (hcounts : ∀ i, values.countP (fun v => f v = i) = values.countP (fun v => g v = i)) : ∀ v ∈ values, f v = g v := by
  have hperm : (values.map f).Perm (values.map g) := by
    rw [List.perm_iff_count]
    intro i
    rw [List.count_eq_countP, List.count_eq_countP, List.countP_map, List.countP_map]
    simpa [Function.comp_def, beq_eq_decide] using hcounts i
  intro v hv
  refine (hle v hv).eq_of_not_lt fun hlt => ?_
  exact (List.sum_lt_sum f g hle ⟨v, hv, hlt⟩).ne hperm.sum_eq

end Bins

end AlphaAlgo.Bisect
