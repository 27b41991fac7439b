import Mathlib.Algebra.BigOperators.Group.List.Basic
import Mathlib.Algebra.BigOperators.Ring.List
import Mathlib.Algebra.Order.BigOperators.Group.List
import Mathlib.Algebra.Order.Ring.Defs
import Mathlib.Tactic.Linarith
import Mathlib.Tactic.Ring

/-!
# Fifo — lots that are used up in their order

A quantity is taken out of a list of lots, the oldest first: from each lot what is still wanted, or all that the lot
has left.  `Fifo` says what a lot has left, what a lot is after an amount was taken out of it, and how amounts are
subtracted (an arithmetic may round).

* `taken`, `sum_taken`: what is taken out of which lots.
* `exists_of_mem_consume`: each lot is used once at most.
* `sum_consume_taken`, `sum_consume`: what a weight of the lots changes by in total.
* `left_consume`: nothing stays wanted when the lots have enough.
* `forall_consume`, `sum_consume_le`: what every use of a lot keeps, and what none increases.
-/

namespace AlphaAlgo

/-- Lots, and what happens to one when an amount is taken out of it. -/
structure Fifo (L K : Type*) where
  remaining : L → K
  exit : K → L → L
  sub : K → K → K

namespace Fifo

variable {L K : Type*} [CommRing K] [LinearOrder K] (f : Fifo L K)

/-- The lots after `q` was wanted, and what is still wanted then. -/
def consume : K → List L → List L × K
  | q, [] => ([], q)
  | q, l :: ls =>
    if q ≤ 0 then (l :: ls, q)
    else if f.remaining l ≤ 0 then (l :: (consume q ls).1, (consume q ls).2)
    else
      let m := min q (f.remaining l)
      (f.exit m l :: (consume (f.sub q m) ls).1, (consume (f.sub q m) ls).2)

variable {f} {q : K} {l : L} {ls : List L}

theorem consume_of_nonpos (hq : q ≤ 0) : f.consume q ls = (ls, q) := by
  cases ls with
  | nil => rfl
  | cons l ls => rw [consume, if_pos hq]

theorem consume_of_empty (hq : 0 < q) (hl : f.remaining l ≤ 0) :
    f.consume q (l :: ls) = (l :: (f.consume q ls).1, (f.consume q ls).2) := by
  rw [consume, if_neg (not_le.mpr hq), if_pos hl]

theorem consume_of_pos (hq : 0 < q) (hl : 0 < f.remaining l) :
    f.consume q (l :: ls) = (f.exit (min q (f.remaining l)) l :: (f.consume (f.sub q (min q (f.remaining l))) ls).1,
      (f.consume (f.sub q (min q (f.remaining l))) ls).2) := by
  rw [consume, if_neg (not_le.mpr hq), if_neg (not_le.mpr hl)]

/-- What every use of a lot keeps holds of all lots. -/
theorem forall_consume {P : L → Prop} (hP : ∀ m l, 0 < m → m ≤ f.remaining l → P l → P (f.exit m l)) :
    ∀ (ls : List L) (q : K), (∀ l ∈ ls, P l) → ∀ l ∈ (f.consume q ls).1, P l
  | [], _, _ => by simp [consume]
  | l :: ls, q, h => by
    have hl : P l := h l List.mem_cons_self
    have hls : ∀ k ∈ ls, P k := fun k hk => h k (List.mem_cons_of_mem _ hk)
    rcases le_or_gt q 0 with hq | hq
    · rw [consume_of_nonpos hq]
      exact h
    rcases le_or_gt (f.remaining l) 0 with hr | hr
    · rw [consume_of_empty hq hr]
      exact List.forall_mem_cons.mpr ⟨hl, forall_consume hP ls q hls⟩
    · rw [consume_of_pos hq hr]
      have hm : P (f.exit (min q (f.remaining l)) l) := hP _ l (lt_min hq hr) (min_le_right _ _) hl
      exact List.forall_mem_cons.mpr ⟨hm, forall_consume hP ls _ hls⟩

/-- The lots keep what no use of a lot changes. -/
theorem map_consume {β : Type*} {g : L → β} (hg : ∀ m l, g (f.exit m l) = g l) :
    ∀ (ls : List L) (q : K), (f.consume q ls).1.map g = ls.map g
  | [], _ => rfl
  | l :: ls, q => by
    rcases le_or_gt q 0 with hq | hq
    · rw [consume_of_nonpos hq]
    rcases le_or_gt (f.remaining l) 0 with hr | hr
    · rw [consume_of_empty hq hr, List.map_cons, List.map_cons, map_consume hg ls q]
    · rw [consume_of_pos hq hr, List.map_cons, List.map_cons, map_consume hg ls _, hg]

/-- The lots that are used, each with the amount taken out of it. -/
def taken (f : Fifo L K) : K → List L → List (K × L)
  | _, [] => []
  | q, l :: ls =>
    if q ≤ 0 then []
    else if f.remaining l ≤ 0 then taken f q ls
    else (min q (f.remaining l), l) :: taken f (f.sub q (min q (f.remaining l))) ls

theorem taken_of_nonpos (hq : q ≤ 0) : f.taken q ls = [] := by
  cases ls with
  | nil => rfl
  | cons l ls => rw [taken, if_pos hq]

theorem taken_of_empty (hq : 0 < q) (hl : f.remaining l ≤ 0) : f.taken q (l :: ls) = f.taken q ls := by
  rw [taken, if_neg (not_le.mpr hq), if_pos hl]

theorem taken_of_pos (hq : 0 < q) (hl : 0 < f.remaining l) : f.taken q (l :: ls) =
    (min q (f.remaining l), l) :: f.taken (f.sub q (min q (f.remaining l))) ls := by
  rw [taken, if_neg (not_le.mpr hq), if_neg (not_le.mpr hl)]

/-- A lot that is used is there before and, less the amount, afterwards. -/
theorem mem_taken {p : K × L} : ∀ {ls : List L} {q : K}, p ∈ f.taken q ls →
    0 < p.1 ∧ p.1 ≤ f.remaining p.2 ∧ p.2 ∈ ls ∧ f.exit p.1 p.2 ∈ (f.consume q ls).1
  | [], _, h => by simp [taken] at h
  | l :: ls, q, h => by
    rcases le_or_gt q 0 with hq | hq
    · rw [taken_of_nonpos hq] at h
      exact absurd h List.not_mem_nil
    rcases le_or_gt (f.remaining l) 0 with hr | hr
    · rw [taken_of_empty hq hr] at h
      rw [consume_of_empty hq hr]
      obtain ⟨hpos, hle, hmem, hexit⟩ := mem_taken h
      exact ⟨hpos, hle, List.mem_cons_of_mem _ hmem, List.mem_cons_of_mem _ hexit⟩
    · rw [taken_of_pos hq hr] at h
      rw [consume_of_pos hq hr]
      rcases List.mem_cons.mp h with rfl | h
      · exact ⟨lt_min hq hr, min_le_right _ _, List.mem_cons_self, List.mem_cons_self⟩
      · obtain ⟨hpos, hle, hmem, hexit⟩ := mem_taken h
        exact ⟨hpos, hle, List.mem_cons_of_mem _ hmem, List.mem_cons_of_mem _ hexit⟩

/-- Each lot is there afterwards, as it was or less an amount. -/
theorem exists_consume {k : L} : ∀ {ls : List L} {q : K}, k ∈ ls →
    ∃ k' ∈ (f.consume q ls).1, k' = k ∨ ∃ m, k' = f.exit m k
  | [], _, h => absurd h List.not_mem_nil
  | l :: ls, q, h => by
    rcases le_or_gt q 0 with hq | hq
    · rw [consume_of_nonpos hq]
      exact ⟨k, h, .inl rfl⟩
    rcases le_or_gt (f.remaining l) 0 with hr | hr
    · rw [consume_of_empty hq hr]
      rcases List.mem_cons.mp h with rfl | h
      · exact ⟨k, List.mem_cons_self, .inl rfl⟩
      · obtain ⟨k', hk', hcases⟩ := exists_consume (q := q) h
        exact ⟨k', List.mem_cons_of_mem _ hk', hcases⟩
    · rw [consume_of_pos hq hr]
      rcases List.mem_cons.mp h with rfl | h
      · exact ⟨_, List.mem_cons_self, .inr ⟨_, rfl⟩⟩
      · obtain ⟨k', hk', hcases⟩ := exists_consume (q := f.sub q (min q (f.remaining l))) h
        exact ⟨k', List.mem_cons_of_mem _ hk', hcases⟩

/-- **A lot is used once**: a lot afterwards was there before, and is as it was or less the one amount taken out of it. -/
theorem exists_of_mem_consume {κ : Type*} [DecidableEq κ] {key : L → κ} {k' : L} : ∀ {ls : List L} {q : K},
    (ls.map key).Nodup → k' ∈ (f.consume q ls).1 → ∃ k ∈ ls,
      (k' = k ∧ (f.taken q ls).filter (fun p => key p.2 = key k) = []) ∨
        ∃ m, k' = f.exit m k ∧ (f.taken q ls).filter (fun p => key p.2 = key k) = [(m, k)]
  | [], q, _, h => by simp [consume] at h
  | l :: ls, q, hnodup, h => by
    obtain ⟨hnew, hnodup⟩ := List.nodup_cons.mp hnodup
    have hother : ∀ q, (f.taken q ls).filter (fun p => key p.2 = key l) = [] := by
      intro q
      refine List.filter_eq_nil_iff.mpr fun p hp => ?_
      have hmem : key p.2 ∈ ls.map key := List.mem_map_of_mem (mem_taken hp).2.2.1
      intro hkey
      exact hnew (of_decide_eq_true hkey ▸ hmem)
    rcases le_or_gt q 0 with hq | hq
    · rw [consume_of_nonpos hq] at h
      exact ⟨k', h, .inl ⟨rfl, by rw [taken_of_nonpos hq]; rfl⟩⟩
    rcases le_or_gt (f.remaining l) 0 with hr | hr
    · rw [consume_of_empty hq hr] at h
      rw [taken_of_empty hq hr]
      rcases List.mem_cons.mp h with rfl | h
      · exact ⟨k', List.mem_cons_self, .inl ⟨rfl, hother q⟩⟩
      · obtain ⟨k, hk, hcases⟩ := exists_of_mem_consume hnodup h
        exact ⟨k, List.mem_cons_of_mem _ hk, hcases⟩
    · rw [consume_of_pos hq hr] at h
      rw [taken_of_pos hq hr]
      rcases List.mem_cons.mp h with rfl | h
      · refine ⟨l, List.mem_cons_self, .inr ⟨_, rfl, ?_⟩⟩
        rw [List.filter_cons_of_pos (by simp), hother]
      · obtain ⟨k, hk, hcases⟩ := exists_of_mem_consume hnodup h
        refine ⟨k, List.mem_cons_of_mem _ hk, ?_⟩
        have hne : key l ≠ key k := fun hkey => hnew (hkey ▸ List.mem_map_of_mem hk)
        rwa [List.filter_cons_of_neg (by simpa using hne)]

/-- **A weight changes in total by what it changes for each lot that is used.** -/
theorem sum_consume_taken {w : L → K} {v : K → L → K} (hw : ∀ m l, w (f.exit m l) = w l + v m l) :
    ∀ (ls : List L) (q : K),
      ((f.consume q ls).1.map w).sum = (ls.map w).sum + ((f.taken q ls).map fun p => v p.1 p.2).sum
  | [], q => by simp [consume, taken]
  | l :: ls, q => by
    rcases le_or_gt q 0 with hq | hq
    · rw [consume_of_nonpos hq, taken_of_nonpos hq, List.map_nil, List.sum_nil, add_zero]
    rcases le_or_gt (f.remaining l) 0 with hr | hr
    · rw [consume_of_empty hq hr, taken_of_empty hq hr, List.map_cons, List.sum_cons, sum_consume_taken hw ls q,
        List.map_cons, List.sum_cons, add_assoc]
    · rw [consume_of_pos hq hr, taken_of_pos hq hr, List.map_cons, List.sum_cons, sum_consume_taken hw ls _, hw,
        List.map_cons, List.map_cons, List.sum_cons, List.sum_cons]
      ring

/-- What is taken in all. -/
theorem sum_taken (hsub : ∀ a b, f.sub a b = a - b) : ∀ (ls : List L) (q : K),
    ((f.taken q ls).map Prod.fst).sum = q - (f.consume q ls).2
  | [], q => by simp [consume, taken]
  | l :: ls, q => by
    rcases le_or_gt q 0 with hq | hq
    · rw [consume_of_nonpos hq, taken_of_nonpos hq, List.map_nil, List.sum_nil, sub_self]
    rcases le_or_gt (f.remaining l) 0 with hr | hr
    · rw [consume_of_empty hq hr, taken_of_empty hq hr, sum_taken hsub ls q]
    · rw [consume_of_pos hq hr, taken_of_pos hq hr, List.map_cons, List.sum_cons, sum_taken hsub ls _, hsub]
      ring

/-- **A weight that changes by `k` for each unit** changes by `k` times what was taken. -/
theorem sum_consume (hsub : ∀ a b, f.sub a b = a - b) {w : L → K} {k : K}
    (hw : ∀ m l, w (f.exit m l) = w l + k * m) (ls : List L) (q : K) :
    ((f.consume q ls).1.map w).sum = (ls.map w).sum + k * (q - (f.consume q ls).2) := by
  rw [sum_consume_taken (v := fun m _ => k * m) hw, List.sum_map_mul_left, sum_taken hsub]

/-- No more than what is wanted is taken out of a lot. -/
theorem taken_le (hsub : ∀ a b, 0 < b → f.sub a b ≤ a) {p : K × L} : ∀ {ls : List L} {q : K}, p ∈ f.taken q ls → p.1 ≤ q
  | [], _, h => by simp [taken] at h
  | l :: ls, q, h => by
    rcases le_or_gt q 0 with hq | hq
    · rw [taken_of_nonpos hq] at h
      exact absurd h List.not_mem_nil
    rcases le_or_gt (f.remaining l) 0 with hr | hr
    · rw [taken_of_empty hq hr] at h
      exact taken_le hsub h
    · rw [taken_of_pos hq hr] at h
      rcases List.mem_cons.mp h with rfl | h
      · exact min_le_left _ _
      · exact (taken_le hsub h).trans (hsub _ _ (lt_min hq hr))

variable [IsStrictOrderedRing K]

/-- A weight that no use of a good lot increases. -/
theorem sum_consume_le {P : L → Prop} {w : L → K} (hw : ∀ m l, 0 < m → m ≤ f.remaining l → P l → w (f.exit m l) ≤ w l) :
    ∀ (ls : List L) (q : K), (∀ l ∈ ls, P l) → ((f.consume q ls).1.map w).sum ≤ (ls.map w).sum
  | [], _, _ => by simp [consume]
  | l :: ls, q, h => by
    obtain ⟨hl, hls⟩ := List.forall_mem_cons.mp h
    rcases le_or_gt q 0 with hq | hq
    · rw [consume_of_nonpos hq]
    rcases le_or_gt (f.remaining l) 0 with hr | hr
    · rw [consume_of_empty hq hr, List.map_cons, List.map_cons, List.sum_cons, List.sum_cons]
      exact add_le_add_right (sum_consume_le hw ls q hls) _
    · rw [consume_of_pos hq hr, List.map_cons, List.map_cons, List.sum_cons, List.sum_cons]
      exact add_le_add (hw _ l (lt_min hq hr) (min_le_right _ _) hl) (sum_consume_le hw ls _ hls)

/-- **Nothing stays wanted** when the lots have enough left. -/
theorem left_consume (hsub : ∀ a b, f.sub a b = a - b) : ∀ (ls : List L) (q : K), 0 ≤ q →
    q ≤ (ls.map f.remaining).sum → (f.consume q ls).2 = 0
  | [], q, h0, h => by
    rw [List.map_nil, List.sum_nil] at h
    exact le_antisymm h h0
  | l :: ls, q, h0, h => by
    rw [List.map_cons, List.sum_cons] at h
    rcases le_or_gt q 0 with hq | hq
    · rw [consume_of_nonpos hq]
      exact le_antisymm hq h0
    rcases le_or_gt (f.remaining l) 0 with hr | hr
    · rw [consume_of_empty hq hr]
      exact left_consume hsub ls q h0 (by linarith)
    · rw [consume_of_pos hq hr, hsub]
      rcases le_total q (f.remaining l) with hm | hm
      · rw [min_eq_left hm, sub_self, consume_of_nonpos le_rfl]
      · rw [min_eq_right hm]
        exact left_consume hsub ls _ (sub_nonneg.mpr hm) (by linarith)

end Fifo

end AlphaAlgo
