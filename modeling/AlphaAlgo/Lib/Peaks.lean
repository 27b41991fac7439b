import Mathlib.Algebra.Order.Group.Abs
import Mathlib.Order.Bounds.Basic
import Mathlib.Tactic.Linarith

/-!
# Peaks — all pairs of a list in one pass

A quantity `f x y` of an entry `x` and an entry `y` at or after it, which grows with `x`, is greatest for a given `y` at
the running maximum.  So one pass finds its greatest value over all pairs.

* `marked`: each entry, with the greatest of the entries up to it.
* `isGreatest_marked`: the greatest value of the pass is the greatest over all pairs.
* `isGreatest_foldl_max`: the greatest value as a loop finds it.
* `abs_sub_le_of_isGreatest`: functions that are close have close greatest values.
-/

namespace AlphaAlgo

section Order

variable {α β : Type*} [LinearOrder α] {f : α → α → β} {p q x y : α} {l : List α}

/-- The values of `f` at an entry and one at or after it. -/
def pairValues (f : α → α → β) (l : List α) : Set β :=
  {b | ∃ (i j : ℕ) (x y : α), i ≤ j ∧ l[i]? = some x ∧ l[j]? = some y ∧ f x y = b}

/-- Each entry of `l` with the greatest of `p` and the entries up to it. -/
def marked : α → List α → List (α × α)
  | _, [] => []
  | p, x :: l => (max p x, x) :: marked (max p x) l

/-- The peak at an entry is at least every entry up to it. -/
theorem exists_marked : ∀ {l : List α} {p : α} {j : ℕ}, l[j]? = some y →
    ∃ q, (q, y) ∈ marked p l ∧ p ≤ q ∧ ∀ i ≤ j, ∀ x, l[i]? = some x → x ≤ q
  | [], _, _, h => by simp at h
  | x :: l, p, 0, h => by
    have hxy : x = y := by simpa using h
    refine ⟨max p x, by rw [← hxy]; exact List.mem_cons_self, le_max_left p x, fun i hi z hz => ?_⟩
    obtain rfl : i = 0 := by omega
    have hxz : x = z := by simpa using hz
    rw [← hxz]
    exact le_max_right p x
  | x :: l, p, j + 1, h => by
    obtain ⟨q, hq, hpq, hle⟩ := exists_marked (l := l) (p := max p x) (j := j) (by simpa using h)
    refine ⟨q, List.mem_cons_of_mem _ hq, (le_max_left p x).trans hpq, fun i hi z hz => ?_⟩
    cases i with
    | zero =>
      have hxz : x = z := by simpa using hz
      rw [← hxz]
      exact (le_max_right p x).trans hpq
    | succ i => exact hle i (by omega) z (by simpa using hz)

/-- The peak at an entry is the start or an entry up to it. -/
theorem mem_marked : ∀ {l : List α} {p : α}, (q, y) ∈ marked p l →
    ∃ j : ℕ, l[j]? = some y ∧ (q = p ∨ ∃ i ≤ j, l[i]? = some q)
  | [], _, h => by simp [marked] at h
  | x :: l, p, h => by
    rcases List.mem_cons.mp h with h | h
    · obtain ⟨rfl, rfl⟩ := Prod.mk.injEq _ _ _ _ ▸ h
      refine ⟨0, rfl, ?_⟩
      rcases max_choice p y with hp | hy
      · exact .inl hp
      · exact .inr ⟨0, le_rfl, by rw [hy]; rfl⟩
    · obtain ⟨j, hj, hq⟩ := mem_marked h
      refine ⟨j + 1, by simpa using hj, ?_⟩
      rcases hq with rfl | ⟨i, hi, hq⟩
      · rcases max_choice p x with hp | hx
        · exact .inl hp
        · exact .inr ⟨0, by omega, by rw [hx]; rfl⟩
      · exact .inr ⟨i + 1, by omega, by simpa using hq⟩

theorem le_of_mem_marked : ∀ {l : List α} {p : α}, (q, y) ∈ marked p l → y ≤ q
  | [], _, h => by simp [marked] at h
  | x :: l, p, h => by
    rcases List.mem_cons.mp h with h | h
    · obtain ⟨rfl, rfl⟩ := Prod.mk.injEq _ _ _ _ ▸ h
      exact le_max_right p y
    · exact le_of_mem_marked h

/-- A peak is an entry. -/
theorem peak_mem (h : (q, y) ∈ marked x (x :: l)) : q ∈ x :: l ∧ y ∈ x :: l := by
  obtain ⟨j, hj, rfl | ⟨i, -, hq⟩⟩ := mem_marked h
  · exact ⟨List.mem_cons_self, List.mem_of_getElem? hj⟩
  · exact ⟨List.mem_of_getElem? hq, List.mem_of_getElem? hj⟩

theorem mem_pairValues_of_marked (h : (q, y) ∈ marked x (x :: l)) : f q y ∈ pairValues f (x :: l) := by
  obtain ⟨j, hj, rfl | ⟨i, hi, hq⟩⟩ := mem_marked h
  · exact ⟨0, j, q, y, Nat.zero_le j, rfl, hj, rfl⟩
  · exact ⟨i, j, q, y, hi, hq, hj, rfl⟩

variable [LinearOrder β]

/-- **One pass finds the greatest value over all pairs.** -/
theorem isGreatest_marked {m : β} (hf : ∀ a ∈ x :: l, ∀ b ∈ x :: l, ∀ y ∈ x :: l, a ≤ b → f a y ≤ f b y)
    (h : IsGreatest {b | ∃ q ∈ marked x (x :: l), f q.1 q.2 = b} m) : IsGreatest (pairValues f (x :: l)) m := by
  obtain ⟨⟨q, hq, hm⟩, hgreatest⟩ := h
  refine ⟨hm ▸ mem_pairValues_of_marked hq, ?_⟩
  rintro b ⟨i, j, a, y, hij, ha, hy, rfl⟩
  obtain ⟨q', hq', -, hle⟩ := exists_marked (p := x) hy
  have hgrows : f a y ≤ f q' y :=
    hf a (List.mem_of_getElem? ha) q' (peak_mem hq').1 y (List.mem_of_getElem? hy) (hle i hij a ha)
  exact hgrows.trans (hgreatest ⟨(q', y), hq', rfl⟩)

/-- **The greatest value** as a loop finds it. -/
theorem isGreatest_foldl_max : ∀ (bs : List β) (b : β), IsGreatest {c | c = b ∨ c ∈ bs} (bs.foldl max b)
  | [], b => by simp [isGreatest_singleton]
  | c :: bs, b => by
    obtain ⟨hmem, hgreatest⟩ := isGreatest_foldl_max bs (max b c)
    refine ⟨?_, ?_⟩
    · rcases hmem with hstart | hmem
      · rcases max_choice b c with hb | hc
        · exact .inl (hstart.trans hb)
        · exact .inr (by rw [List.foldl_cons, hstart, hc]; exact List.mem_cons_self)
      · exact .inr (List.mem_cons_of_mem _ hmem)
    · rintro d (rfl | hd)
      · exact (le_max_left d c).trans (hgreatest (.inl rfl))
      · rcases List.mem_cons.mp hd with rfl | hd
        · exact (le_max_right b d).trans (hgreatest (.inl rfl))
        · exact hgreatest (.inr hd)

theorem isGreatest_map_foldl_max {ι : Type*} {l : List ι} {g : ι → β} {b : β} (h : ∃ i ∈ l, g i = b) :
    IsGreatest {c | ∃ i ∈ l, g i = c} ((l.map g).foldl max b) := by
  have hsame : {c | c = b ∨ c ∈ l.map g} = {c | ∃ i ∈ l, g i = c} := by
    ext c
    simp only [Set.mem_ofPred_eq, List.mem_map]
    constructor
    · rintro (rfl | hc)
      · exact h
      · exact hc
    · exact .inr
  rw [← hsame]
  exact isGreatest_foldl_max _ _

end Order

section Close

variable {ι α : Type*} [AddCommGroup α] [LinearOrder α] [IsOrderedAddMonoid α] {S : Set ι} {f g : ι → α} {ε m n : α}

/-- **Functions that are close** have close greatest values. -/
theorem abs_sub_le_of_isGreatest (h : ∀ i ∈ S, |f i - g i| ≤ ε) (hm : IsGreatest {a | ∃ i ∈ S, f i = a} m)
    (hn : IsGreatest {a | ∃ i ∈ S, g i = a} n) : |m - n| ≤ ε := by
  obtain ⟨⟨i, hi, rfl⟩, hf⟩ := hm
  obtain ⟨⟨j, hj, rfl⟩, hg⟩ := hn
  have hij : g i ≤ g j := hg ⟨i, hi, rfl⟩
  have hji : f j ≤ f i := hf ⟨j, hj, rfl⟩
  rw [abs_sub_le_iff]
  constructor
  · exact (sub_le_sub_left hij _).trans ((le_abs_self _).trans (h i hi))
  · refine (sub_le_sub_left hji _).trans ((le_abs_self _).trans ?_)
    rw [abs_sub_comm]
    exact h j hj

end Close

end AlphaAlgo
