import Mathlib.Data.List.Infix
import Mathlib.Order.Bounds.Basic
import Mathlib.Order.MinMax

/-!
# Streaks — the longest stretch of consecutive entries with a property

One pass over a list counts the entries since the last one without the property, and keeps the largest count.

* `maxStreak`: the pass.
* `isGreatest_maxStreak`: it is the greatest length of a stretch of consecutive entries that all have the property.
-/

namespace AlphaAlgo

variable {α : Type*} (p : α → Prop) [DecidablePred p]

/-- The variables of the pass. -/
structure Streak where
  best : ℕ := 0
  current : ℕ := 0

def Streak.step (s : Streak) (x : α) : Streak :=
  if p x then
    let current := s.current + 1
    ⟨if s.best < current then current else s.best, current⟩
  else ⟨s.best, 0⟩

def streakOf (l : List α) : Streak := l.foldl (Streak.step p) {}

def maxStreak (l : List α) : ℕ := (streakOf p l).best

variable {p} {l : List α} {x : α}

theorem streakOf_concat_pos (hx : p x) : (streakOf p (l ++ [x])).current = (streakOf p l).current + 1 ∧
    maxStreak p (l ++ [x]) = max (maxStreak p l) ((streakOf p l).current + 1) := by
  have hstep : streakOf p (l ++ [x]) = (streakOf p l).step p x := by
    rw [streakOf, List.foldl_append]
    rfl
  unfold maxStreak
  rw [hstep, Streak.step, if_pos hx]
  refine ⟨rfl, ?_⟩
  by_cases h : (streakOf p l).best < (streakOf p l).current + 1
  · show (if _ then _ else _) = _
    rw [if_pos h, max_eq_right h.le]
  · show (if _ then _ else _) = _
    rw [if_neg h, max_eq_left (not_lt.mp h)]

theorem streakOf_concat_neg (hx : ¬p x) :
    (streakOf p (l ++ [x])).current = 0 ∧ maxStreak p (l ++ [x]) = maxStreak p l := by
  have hstep : streakOf p (l ++ [x]) = (streakOf p l).step p x := by
    rw [streakOf, List.foldl_append]
    rfl
  unfold maxStreak
  rw [hstep, Streak.step, if_neg hx]
  exact ⟨rfl, rfl⟩

theorem maxStreak_map {β : Type*} {f : β → α} (l : List β) : maxStreak p (l.map f) = maxStreak (fun b => p (f b)) l := by
  unfold maxStreak streakOf
  rw [List.foldl_map]
  rfl

/-- The entries with the property at the end of a list. -/
theorem isGreatest_current (l : List α) :
    IsGreatest {n | ∃ s, s <:+ l ∧ (∀ x ∈ s, p x) ∧ s.length = n} (streakOf p l).current := by
  induction l using List.reverseRecOn with
  | nil =>
    refine ⟨⟨[], List.suffix_rfl, by simp, rfl⟩, ?_⟩
    rintro n ⟨s, hs, -, rfl⟩
    rw [List.suffix_nil.mp hs]
    exact Nat.zero_le _
  | append_singleton l x ih =>
    obtain ⟨⟨s, hs, hall, hlength⟩, hgreatest⟩ := ih
    by_cases hx : p x
    · rw [(streakOf_concat_pos hx).1]
      refine ⟨⟨s ++ [x], List.suffix_concat_iff.mpr (.inr ⟨s, rfl, hs⟩), ?_, by simp [hlength]⟩, ?_⟩
      · exact List.forall_mem_append.mpr ⟨hall, List.forall_mem_singleton.mpr hx⟩
      · rintro n ⟨t, ht, htall, rfl⟩
        rcases List.suffix_concat_iff.mp ht with rfl | ⟨t, rfl, hsuffix⟩
        · exact Nat.zero_le _
        · have hle := hgreatest ⟨t, hsuffix, fun y hy => htall y (List.mem_append_left _ hy), rfl⟩
          rw [List.length_append, List.length_singleton]
          omega
    · rw [(streakOf_concat_neg hx).1]
      refine ⟨⟨[], List.nil_suffix, by simp, rfl⟩, ?_⟩
      rintro n ⟨t, ht, htall, rfl⟩
      rcases List.suffix_concat_iff.mp ht with rfl | ⟨t, rfl, -⟩
      · exact Nat.zero_le _
      · exact absurd (htall x (by simp)) hx

/-- **The longest stretch.** -/
theorem isGreatest_maxStreak (l : List α) :
    IsGreatest {n | ∃ s, s <:+: l ∧ (∀ x ∈ s, p x) ∧ s.length = n} (maxStreak p l) := by
  induction l using List.reverseRecOn with
  | nil =>
    refine ⟨⟨[], List.infix_rfl, by simp, rfl⟩, ?_⟩
    rintro n ⟨s, hs, -, rfl⟩
    rw [List.infix_nil.mp hs]
    exact Nat.zero_le _
  | append_singleton l x ih =>
    obtain ⟨⟨s, hs, hall, hlength⟩, hgreatest⟩ := ih
    have hold : s <:+: l ++ [x] := hs.trans (List.prefix_append l [x]).isInfix
    obtain ⟨⟨t, ht, htall, htlength⟩, hlast⟩ := isGreatest_current (p := p) (l ++ [x])
    -- a stretch of the longer list is one of the shorter list, or it ends with `x`
    by_cases hx : p x
    · obtain ⟨hcurrent, hbest⟩ := streakOf_concat_pos (l := l) hx
      rw [hbest, ← hcurrent]
      constructor
      · rcases max_choice (maxStreak p l) (streakOf p (l ++ [x])).current with h | h
        · rw [h]
          exact ⟨s, hold, hall, hlength⟩
        · rw [h]
          exact ⟨t, ht.isInfix, htall, htlength⟩
      · rintro n ⟨u, hu, huall, rfl⟩
        rcases List.infix_concat_iff.mp hu with hsuffix | hinfix
        · exact (hlast ⟨u, hsuffix, huall, rfl⟩).trans (le_max_right _ _)
        · exact (hgreatest ⟨u, hinfix, huall, rfl⟩).trans (le_max_left _ _)
    · obtain ⟨hcurrent, hbest⟩ := streakOf_concat_neg (l := l) hx
      rw [hbest]
      refine ⟨⟨s, hold, hall, hlength⟩, ?_⟩
      rintro n ⟨u, hu, huall, rfl⟩
      rcases List.infix_concat_iff.mp hu with hsuffix | hinfix
      · have hzero := hlast ⟨u, hsuffix, huall, rfl⟩
        rw [hcurrent] at hzero
        exact hzero.trans (Nat.zero_le _)
      · exact hgreatest ⟨u, hinfix, huall, rfl⟩

end AlphaAlgo
