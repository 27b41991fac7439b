import Mathlib.Data.Finset.Card
import AlphaAlgo.Lib.Lru

/-!
# Recency — what a bounded set remembers, by its history

A value is among the `m` that were used last exactly when it has been used and fewer than `m` distinct others have been
used since.

* `foldl_recent`: the recent values after the last use of a value.
* `mem_newest_iff`: the values among the last `m`.
* `mem_foldl_use_iff`: what a bounded set holds after any uses.
-/

namespace AlphaAlgo.Lru

variable {α : Type*} [DecidableEq α] {a b : α} {m : ℕ}

/-- The value has been used, and fewer than `m` distinct others since its last use. -/
def Recalled (m : ℕ) (h : List α) (a : α) : Prop :=
  ∃ before since, h = before ++ a :: since ∧ a ∉ since ∧ since.toFinset.card < m

omit [DecidableEq α] in
theorem mem_take_append_cons {front back : List α} (ha : a ∉ front) :
    a ∈ (front ++ a :: back).take m ↔ front.length < m := by
  constructor
  · intro h
    by_contra hle
    rw [List.take_append_of_le_length (not_lt.mp hle)] at h
    exact ha (List.mem_of_mem_take h)
  · intro h
    obtain ⟨k, rfl⟩ := Nat.exists_eq_add_of_lt h
    rw [List.take_append, show front.length + k + 1 - front.length = k + 1 by omega, List.take_succ_cons]
    exact List.mem_append_right _ List.mem_cons_self

theorem mem_foldl_recent : ∀ {h r : List α}, b ∈ h.foldl recent r ↔ b ∈ h ∨ b ∈ r
  | [], r => by simp
  | c :: h, r => by
    rw [List.foldl_cons, mem_foldl_recent]
    by_cases hb : b = c <;> simp [recent, hb]

/-- **Since its last use** a value stands behind the distinct values that were used, each once. -/
theorem foldl_recent {since : List α} (ha : a ∉ since) (rest : List α) :
    ∃ front back, since.foldl recent (a :: rest) = front ++ a :: back ∧ front.Nodup ∧ front.toFinset = since.toFinset := by
  induction since using List.reverseRecOn with
  | nil => exact ⟨[], rest, rfl, List.nodup_nil, rfl⟩
  | append_singleton since b ih =>
    rw [List.mem_append, not_or, List.mem_singleton] at ha
    obtain ⟨front, back, hfold, hnodup, hset⟩ := ih ha.1
    refine ⟨recent front b, back.filter (· ≠ b), ?_, nodup_recent hnodup, ?_⟩
    · rw [List.foldl_append, List.foldl_cons, List.foldl_nil, hfold, recent, List.filter_append,
        List.filter_cons_of_pos (by simpa using ha.2), recent, List.cons_append]
    · ext c
      have hmem : c ∈ front ↔ c ∈ since := by rw [← List.mem_toFinset, hset, List.mem_toFinset]
      by_cases hc : c = b <;> simp [recent, hc, hmem]

/-- **The values among the last `m`.** -/
theorem mem_newest_iff {h : List α} : a ∈ (h.foldl recent []).take m ↔ Recalled m h a := by
  have hsplit : ∀ {before since : List α}, a ∉ since →
      (a ∈ ((before ++ a :: since).foldl recent []).take m ↔ since.toFinset.card < m) := by
    intro before since ha
    rw [List.foldl_append, List.foldl_cons, recent]
    obtain ⟨front, back, hfold, hnodup, hset⟩ := foldl_recent ha ((before.foldl recent []).filter (· ≠ a))
    have hfront : a ∉ front := by
      rw [← List.mem_toFinset, hset, List.mem_toFinset]
      exact ha
    rw [hfold, mem_take_append_cons hfront, ← List.toFinset_card_of_nodup hnodup, hset]
  constructor
  · intro hmem
    have hused : a ∈ h := by simpa using mem_foldl_recent.mp (List.mem_of_mem_take hmem)
    obtain ⟨since, before, hreverse, hsince⟩ := List.eq_append_cons_of_mem (List.mem_reverse.mpr hused)
    have hh : h = before.reverse ++ a :: since.reverse := by
      rw [← List.reverse_reverse h, hreverse]
      simp
    have hsince' : a ∉ since.reverse := fun h => hsince (List.mem_reverse.mp h)
    rw [hh] at hmem
    exact ⟨_, _, hh, hsince', (hsplit hsince').mp hmem⟩
  · rintro ⟨before, since, rfl, hsince, hcard⟩
    exact (hsplit hsince).mpr hcard

/-- **What a bounded set holds** after the uses of a history. -/
theorem mem_foldl_use_iff (hm : 1 ≤ m) {h : List α} : a ∈ h.foldl (use (some m)) [] ↔ Recalled m h a := by
  have hcapacity : some m ≠ some 0 := by
    simp only [ne_eq, Option.some.injEq]
    omega
  rw [foldl_use hcapacity, List.mem_reverse]
  exact mem_newest_iff

/-- Of at most `m` distinct values none is forgotten. -/
theorem recalled_iff_mem {h : List α} (hcard : h.toFinset.card ≤ m) : Recalled m h a ↔ a ∈ h := by
  constructor
  · rintro ⟨before, since, rfl, -⟩
    exact List.mem_append_right _ List.mem_cons_self
  · intro ha
    obtain ⟨since, before, hreverse, hsince⟩ := List.eq_append_cons_of_mem (List.mem_reverse.mpr ha)
    have hh : h = before.reverse ++ a :: since.reverse := by
      rw [← List.reverse_reverse h, hreverse]
      simp
    have hsince' : a ∉ since.reverse := by rwa [List.mem_reverse]
    refine ⟨_, _, hh, hsince', lt_of_lt_of_le (Finset.card_lt_card ?_) hcard⟩
    refine (Finset.ssubset_iff_of_subset fun b hb => ?_).mpr ⟨a, List.mem_toFinset.mpr ha, ?_⟩
    · rw [hh, List.mem_toFinset]
      exact List.mem_append_right _ (List.mem_cons_of_mem _ (List.mem_toFinset.mp hb))
    · rwa [List.mem_toFinset]

/-- It never holds more than its capacity. -/
theorem length_foldl_use_le (h : List α) : (h.foldl (use (some m)) []).length ≤ m := by
  induction h using List.reverseRecOn with
  | nil => exact Nat.zero_le m
  | append_singleton h a ih =>
    rw [List.foldl_append, List.foldl_cons, List.foldl_nil]
    exact length_use_le ih

end AlphaAlgo.Lru
