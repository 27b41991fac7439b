import Mathlib.Algebra.BigOperators.Group.List.Basic
import Mathlib.Data.List.Perm.Basic
import Mathlib.Tactic.Abel
import AlphaAlgo.Lib.Runs

/-!
# Pool — calls that interleave over a shared state

A call is its program counter with what it has read so far.  `next s c` is the next step of call `c` over the
shared state `s`; a call that has ended steps to itself.  `Pool.step next p i` lets call `i` take a step, so that a
list of indices is a schedule and `Runs.run` runs it.

* `exists_set`, `get_set_cases`: a list of which one entry changes.
* `OnCall G`: a condition on the call that is about to step, as a guard for `Runs.Along`.
* `sum_step`, `sum_step_eq_add_others`, `perm_filterMap_step`: how a sum over the calls and the list of what they
  report show in a step.
-/

namespace AlphaAlgo

/-- A shared state and the calls that work on it. -/
structure Pool (σ γ : Type*) where
  shared : σ
  calls : List γ

namespace Pool

/-! ### One entry of a list changes -/

section Entries

variable {γ : Type*} {l : List γ} {i j : ℕ} {c c' d : γ}

/-- What relates an entry to its next value relates all entries to theirs. -/
theorem exists_set {R : γ → γ → Prop} (hrefl : ∀ c, R c c) (h : l[i]? = some c) (hR : R c c') (j : ℕ) (d : γ)
    (hd : l[j]? = some d) : ∃ d', (l.set i c')[j]? = some d' ∧ R d d' := by
  by_cases hij : i = j
  · subst hij
    obtain ⟨hi, -⟩ := List.getElem?_eq_some_iff.mp h
    cases h.symm.trans hd
    exact ⟨c', List.getElem?_set_self hi, hR⟩
  · exact ⟨d, (List.getElem?_set_ne hij).trans hd, hrefl d⟩

/-- An entry is the new one or an old one at another place. -/
theorem get_set_cases (h : (l.set i c')[j]? = some d) : (j = i ∧ d = c') ∨ (j ≠ i ∧ l[j]? = some d) := by
  by_cases hij : i = j
  · subst hij
    obtain ⟨hi, -⟩ := List.getElem?_eq_some_iff.mp h
    rw [List.getElem?_set_self (by simpa using hi)] at h
    exact .inl ⟨rfl, (Option.some.inj h).symm⟩
  · exact .inr ⟨Ne.symm hij, (List.getElem?_set_ne hij).symm.trans h⟩

theorem get_set_self (h : l[i]? = some c) : (l.set i c')[i]? = some c' :=
  List.getElem?_set_self (List.getElem?_eq_some_iff.mp h).1

/-- Setting an entry to what it is changes nothing. -/
theorem set_of_get (h : l[i]? = some c) : l.set i c = l := by
  obtain ⟨hi, rfl⟩ := List.getElem?_eq_some_iff.mp h
  exact List.set_getElem_self hi

end Entries

variable {σ γ : Type*} (next : σ → γ → σ × γ)

/-- Call `i` takes its next step. -/
def step (p : Pool σ γ) (i : ℕ) : Pool σ γ :=
  match p.calls[i]? with
  | none => p
  | some c => ⟨(next p.shared c).1, p.calls.set i (next p.shared c).2⟩

/-- The call that is about to step meets `G`. -/
def OnCall (G : σ → γ → Prop) (p : Pool σ γ) (i : ℕ) : Prop := ∀ c ∈ p.calls[i]?, G p.shared c

instance (G : σ → γ → Prop) [∀ s c, Decidable (G s c)] (p : Pool σ γ) (i : ℕ) : Decidable (OnCall G p i) :=
  match h : p.calls[i]? with
  | none => isTrue fun c hc => by rw [h] at hc; cases hc
  | some c => decidable_of_iff (G p.shared c)
      ⟨fun hG d hd => by rw [h] at hd; cases hd; exact hG, fun hG => hG c h⟩

variable {next}

theorem step_of_none {p : Pool σ γ} {i : ℕ} (h : p.calls[i]? = none) : p.step next i = p := by
  simp [step, h]

theorem step_of_some {p : Pool σ γ} {i : ℕ} {c : γ} (h : p.calls[i]? = some c) :
    p.step next i = ⟨(next p.shared c).1, p.calls.set i (next p.shared c).2⟩ := by
  simp [step, h]

/-- A property that a stepping call keeps holds of all calls. -/
theorem forall_step {p : Pool σ γ} {i : ℕ} {c : γ} {P : γ → Prop} (h : p.calls[i]? = some c)
    (hP : ∀ d ∈ p.calls, P d) (hc : P (next p.shared c).2) : ∀ d ∈ (p.step next i).calls, P d := by
  rw [step_of_some h]
  intro d hd
  rcases List.mem_or_eq_of_mem_set hd with hd | rfl
  · exact hP d hd
  · exact hc

/-- The call after its step is one of the calls. -/
theorem next_mem_step (next : σ → γ → σ × γ) {p : Pool σ γ} {i : ℕ} {c : γ} (h : p.calls[i]? = some c) :
    (next p.shared c).2 ∈ (p.step next i).calls := by
  obtain ⟨hi, -⟩ := List.getElem?_eq_some_iff.mp h
  rw [step_of_some h]
  exact List.mem_iff_getElem.mpr ⟨i, by simpa using hi, by simp⟩

/-- The other calls stay. -/
theorem mem_step (next : σ → γ → σ × γ) {p : Pool σ γ} {i : ℕ} {c d : γ} (h : p.calls[i]? = some c) (hd : d ∈ p.calls) :
    d = c ∨ d ∈ (p.step next i).calls := by
  obtain ⟨j, hj, rfl⟩ := List.mem_iff_getElem.mp hd
  by_cases hij : j = i
  · left
    subst hij
    rw [List.getElem?_eq_getElem hj] at h
    exact Option.some.inj h
  · right
    rw [step_of_some h]
    exact List.mem_iff_getElem.mpr ⟨j, by simpa using hj, by simp [List.getElem_set_ne (Ne.symm hij)]⟩

/-- A sum over the calls is the part of call `i` and the part of the others. -/
theorem sum_eq_add_others {M : Type*} [AddCommMonoid M] {l : List γ} {i : ℕ} {c : γ} (f : γ → M) (h : l[i]? = some c) :
    (l.map f).sum = f c + ((l.eraseIdx i).map f).sum := by
  obtain ⟨hi, rfl⟩ := List.getElem?_eq_some_iff.mp h
  rw [← List.sum_cons, ← List.map_cons]
  exact ((List.getElem_cons_eraseIdx_perm hi).map f).sum_eq.symm

/-- A step leaves the part of the others. -/
theorem sum_step_eq_add_others (next : σ → γ → σ × γ) {M : Type*} [AddCommMonoid M] {p : Pool σ γ} {i : ℕ} {c : γ}
    (f : γ → M) (h : p.calls[i]? = some c) :
    ((p.step next i).calls.map f).sum = f (next p.shared c).2 + ((p.calls.eraseIdx i).map f).sum := by
  obtain ⟨hi, -⟩ := List.getElem?_eq_some_iff.mp h
  rw [step_of_some h]
  have hset : (p.calls.set i (next p.shared c).2)[i]? = some (next p.shared c).2 := by
    rw [List.getElem?_set_self hi]
  rw [sum_eq_add_others f hset, List.eraseIdx_set_eq]

/-- A sum over the calls changes by what the stepping call contributes. -/
theorem sum_step (next : σ → γ → σ × γ) {M : Type*} [AddCommGroup M] {p : Pool σ γ} {i : ℕ} {c : γ} (f : γ → M)
    (h : p.calls[i]? = some c) :
    ((p.step next i).calls.map f).sum = (p.calls.map f).sum + (f (next p.shared c).2 - f c) := by
  obtain ⟨hi, hc⟩ := List.getElem?_eq_some_iff.mp h
  rw [step_of_some h, List.map_set, List.sum_set', dif_pos (by simpa using hi), List.getElem_map, hc]
  abel

theorem perm_filterMap_set {κ : Type*} (g : γ → Option κ) (c' : γ) : ∀ (l : List γ) (i : ℕ) {c : γ},
    l[i]? = some c → g c = none → ((l.set i c').filterMap g).Perm (l.filterMap g ++ (g c').toList)
  | [], _, _, h, _ => by simp at h
  | d :: l, 0, c, h, hc => by
    simp only [List.getElem?_cons_zero, Option.some.injEq] at h
    subst h
    rw [List.set_cons_zero, List.filterMap_cons_none hc]
    cases hg : g c' with
    | none => rw [List.filterMap_cons_none hg]; simp
    | some k => rw [List.filterMap_cons_some hg]; exact @List.perm_append_comm _ [k] _
  | d :: l, i + 1, c, h, hc => by
    have ih := perm_filterMap_set g c' l i (by simpa using h) hc
    rw [List.set_cons_succ]
    cases hg : g d with
    | none => rw [List.filterMap_cons_none hg, List.filterMap_cons_none hg]; exact ih
    | some k => rw [List.filterMap_cons_some hg, List.filterMap_cons_some hg]; exact ih.cons k

theorem filterMap_set_of_eq {κ : Type*} (g : γ → Option κ) (c' : γ) : ∀ (l : List γ) (i : ℕ) {c : γ},
    l[i]? = some c → g c' = g c → (l.set i c').filterMap g = l.filterMap g
  | [], _, _, h, _ => by simp at h
  | d :: l, 0, c, h, hc => by
    simp only [List.getElem?_cons_zero, Option.some.injEq] at h
    subst h
    rw [List.set_cons_zero, List.filterMap_cons, List.filterMap_cons, hc]
  | d :: l, i + 1, c, h, hc => by
    rw [List.set_cons_succ, List.filterMap_cons, List.filterMap_cons,
      filterMap_set_of_eq g c' l i (by simpa using h) hc]

/-- A call that reports what it reported before changes nothing. -/
theorem filterMap_step_of_eq {κ : Type*} {p : Pool σ γ} {i : ℕ} {c : γ} (g : γ → Option κ)
    (h : p.calls[i]? = some c) (hc : g (next p.shared c).2 = g c) :
    (p.step next i).calls.filterMap g = p.calls.filterMap g := by
  rw [step_of_some h]
  exact filterMap_set_of_eq g _ p.calls i h hc

/-- A call that had nothing to report adds its report. -/
theorem perm_filterMap_step (next : σ → γ → σ × γ) {κ : Type*} {p : Pool σ γ} {i : ℕ} {c : γ} (g : γ → Option κ)
    (h : p.calls[i]? = some c) (hc : g c = none) :
    ((p.step next i).calls.filterMap g).Perm (p.calls.filterMap g ++ (g (next p.shared c).2).toList) := by
  rw [step_of_some h]
  exact perm_filterMap_set g _ p.calls i h hc

/-- **Own steps bring a call down in rank**, whatever the others do in between: `Good` is kept by the steps of all calls. -/
theorem rank_run (next : σ → γ → σ × γ) (rank : γ → ℕ) (Good : σ → γ → Prop)
    (hothers : ∀ s c d, Good s c → Good (next s d).1 c)
    (hown : ∀ s c, Good s c → Good (next s c).1 (next s c).2 ∧ rank (next s c).2 ≤ rank c - 1) (l : List ℕ) {i : ℕ} :
    ∀ {p : Pool σ γ} {c : γ}, p.calls[i]? = some c → Good p.shared c →
      ∃ c', (Runs.run (step next) p l).calls[i]? = some c' ∧ Good (Runs.run (step next) p l).shared c' ∧
        rank c' ≤ rank c - l.count i := by
  induction l with
  | nil => exact fun {p c} hc hgood => ⟨c, hc, hgood, le_refl _⟩
  | cons j l ih =>
    intro p c hc hgood
    rw [Runs.run_cons]
    by_cases hij : j = i
    · subst hij
      obtain ⟨hgood', hrank⟩ := hown p.shared c hgood
      have hshared : (p.step next j).shared = (next p.shared c).1 := by rw [step_of_some hc]
      have hnext : (p.step next j).calls[j]? = some (next p.shared c).2 := by
        obtain ⟨hj, -⟩ := List.getElem?_eq_some_iff.mp hc
        rw [step_of_some hc, List.getElem?_set_self hj]
      obtain ⟨c', hc', hgood', hle⟩ := ih hnext (by rw [hshared]; exact hgood')
      refine ⟨c', hc', hgood', ?_⟩
      rw [List.count_cons_self]
      omega
    · cases hd : p.calls[j]? with
      | none =>
        rw [step_of_none hd, List.count_cons_of_ne hij]
        exact ih hc hgood
      | some d =>
        have hshared : (p.step next j).shared = (next p.shared d).1 := by rw [step_of_some hd]
        have hsame : (p.step next j).calls[i]? = some c := by
          rw [step_of_some hd, List.getElem?_set_ne hij, hc]
        rw [List.count_cons_of_ne hij]
        exact ih hsame (by rw [hshared]; exact hothers _ c d hgood)

end Pool

end AlphaAlgo
