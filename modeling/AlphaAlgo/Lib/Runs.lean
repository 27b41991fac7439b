import Mathlib.Data.List.Basic
import Mathlib.Order.Basic

/-!
# Runs — runs of a deterministic machine, conditions along a run

A machine is a total step function `step : σ → α → σ`; an action that is not enabled leaves the state as it is.
`run step s l` takes the actions of `l` in order.  `Along step G s l` says that every step of that run meets `G`,
where `G` sees the state before the step and the action.  It serves on both sides of an implication: as the
condition that a run keeps (a guard), and as the property that its steps are shown to have.
-/

namespace AlphaAlgo.Runs

variable {σ α : Type*} (step : σ → α → σ)

/-- The state after the actions of `l`, taken in order. -/
def run (s : σ) (l : List α) : σ := l.foldl step s

@[simp] theorem run_nil (s : σ) : run step s [] = s := rfl

@[simp] theorem run_cons (s : σ) (a : α) (l : List α) : run step s (a :: l) = run step (step s a) l := rfl

theorem run_append (s : σ) (l l' : List α) : run step s (l ++ l') = run step (run step s l) l' := by
  simp [run, List.foldl_append]

theorem run_concat (s : σ) (l : List α) (a : α) : run step s (l ++ [a]) = step (run step s l) a := by
  rw [run_append]; rfl

/-- What the actions of `l` give, in order, when action `a` gives `out s a` in state `s`. -/
def outputs {β : Type*} (out : σ → α → β) : σ → List α → List β
  | _, [] => []
  | s, a :: l => out s a :: outputs out (step s a) l

theorem outputs_concat {β : Type*} (out : σ → α → β) (s : σ) (l : List α) (a : α) :
    outputs step out s (l ++ [a]) = outputs step out s l ++ [out (run step s l) a] := by
  induction l generalizing s with
  | nil => rfl
  | cons b l ih => rw [List.cons_append, outputs, ih, outputs, run_cons, List.cons_append]

/-- Every step of the run meets `G` (state before the step, action). -/
def Along (G : σ → α → Prop) : σ → List α → Prop
  | _, [] => True
  | s, a :: l => G s a ∧ Along G (step s a) l

@[simp] theorem along_nil (G : σ → α → Prop) (s : σ) : Along step G s [] := trivial

@[simp] theorem along_cons (G : σ → α → Prop) (s : σ) (a : α) (l : List α) :
    Along step G s (a :: l) ↔ G s a ∧ Along step G (step s a) l := Iff.rfl

theorem along_append (G : σ → α → Prop) (s : σ) (l l' : List α) :
    Along step G s (l ++ l') ↔ Along step G s l ∧ Along step G (run step s l) l' := by
  induction l generalizing s with
  | nil => simp
  | cons a l ih => simp only [List.cons_append, along_cons, ih, run_cons, and_assoc]

instance decidableAlong (G : σ → α → Prop) [∀ s a, Decidable (G s a)] :
    ∀ (s : σ) (l : List α), Decidable (Along step G s l)
  | _, [] => isTrue trivial
  | s, a :: l => @instDecidableAnd _ _ _ (decidableAlong G (step s a) l)

variable {step}

/-- **Invariant rule**: an invariant kept by the steps that meet the guard holds at the end of every guarded
run. -/
theorem Along.invariant {G : σ → α → Prop} {I : σ → Prop} (hstep : ∀ s a, I s → G s a → I (step s a))
    {s : σ} {l : List α} (hG : Along step G s l) (hI : I s) : I (run step s l) := by
  induction l generalizing s with
  | nil => exact hI
  | cons a l ih => exact ih hG.2 (hstep s a hI hG.1)

/-- **Step rule**: under the same hypotheses, what every guarded step from an invariant state does is done by
every step of the run. -/
theorem Along.steps {G R : σ → α → Prop} {I : σ → Prop} (hstep : ∀ s a, I s → G s a → I (step s a))
    (hR : ∀ s a, I s → G s a → R s a) {s : σ} {l : List α} (hG : Along step G s l) (hI : I s) :
    Along step R s l := by
  induction l generalizing s with
  | nil => trivial
  | cons a l ih => exact ⟨hR s a hI hG.1, ih hG.2 (hstep s a hI hG.1)⟩

variable (step)

/-- The invariant rule without a guard. -/
theorem run_invariant (I : σ → Prop) (hstep : ∀ s a, I s → I (step s a)) {s : σ} (hI : I s)
    (l : List α) : I (run step s l) := by
  induction l generalizing s with
  | nil => exact hI
  | cons a l ih => exact ih (hstep s a hI)

/-- The step rule without a guard. -/
theorem along_of_invariant {R : σ → α → Prop} (I : σ → Prop) (hstep : ∀ s a, I s → I (step s a))
    (hR : ∀ s a, I s → R s a) {s : σ} (hI : I s) (l : List α) : Along step R s l := by
  induction l generalizing s with
  | nil => trivial
  | cons a l ih => exact ⟨hR s a hI, ih (hstep s a hI)⟩

variable {step}

/-- A guarded run meets its guard at each of its steps. -/
theorem Along.at_step {G : σ → α → Prop} {s : σ} (l : List α) {l' : List α} {a : α}
    (h : Along step G s (l ++ a :: l')) : G (run step s l) a :=
  ((along_append step G s l (a :: l')).mp h).2.1

/-- A property of every step, from the property of the last step of every prefix. -/
theorem along_of_prefix {R : σ → α → Prop} {s : σ} {l : List α}
    (h : ∀ l' a, l' ++ [a] <+: l → R (run step s l') a) : Along step R s l := by
  induction l generalizing s with
  | nil => trivial
  | cons a l ih =>
    refine ⟨h [] a ⟨l, rfl⟩, ih fun l' b hl => ?_⟩
    exact h (a :: l') b (List.cons_prefix_cons.mpr ⟨rfl, hl⟩)

/-- Two properties of steps that agree on every guarded step from an invariant state agree along the guarded runs. -/
theorem along_congr {G R R' : σ → α → Prop} {I : σ → Prop} (hkeep : ∀ s a, I s → I (step s a))
    (hiff : ∀ s a, I s → G s a → (R s a ↔ R' s a)) {s : σ} {l : List α} (hI : I s) (hG : Along step G s l) :
    Along step R s l ↔ Along step R' s l := by
  induction l generalizing s with
  | nil => rfl
  | cons a l ih => rw [along_cons, along_cons, hiff s a hI hG.1, ih (hkeep s a hI) hG.2]

/-- **Exact guard**: where the guarded steps keep `I`, which gives `P`, and no other step from `I` gives `P`, the runs
that have `P` all along are exactly the guarded ones. -/
theorem prefixes_iff_along {G : σ → α → Prop} {I P : σ → Prop} (hkeep : ∀ s a, I s → G s a → I (step s a))
    (hP : ∀ s, I s → P s) (hexact : ∀ s a, I s → P (step s a) → G s a) {s : σ} (hI : I s) (l : List α) :
    (∀ l', l' <+: l → P (run step s l')) ↔ Along step G s l := by
  constructor
  · intro h
    induction l generalizing s with
    | nil => trivial
    | cons a l ih =>
      have hG : G s a := hexact s a hI (h [a] ⟨l, rfl⟩)
      exact ⟨hG, ih (hkeep s a hI hG) fun l' hl => h (a :: l') (List.cons_prefix_cons.mpr ⟨rfl, hl⟩)⟩
  · rintro h l' ⟨rest, rfl⟩
    exact hP _ (((along_append step G s l' rest).mp h).1.invariant hkeep hI)

/-- **Exact guard for a counter** that never falls: it stands where it started after exactly the runs whose steps
leave it. -/
theorem counter_iff_along {β : Type*} [PartialOrder β] {G : σ → α → Prop} {J : σ → Prop} {g : σ → β}
    (hJ : ∀ s a, J s → J (step s a)) (hle : ∀ s a, J s → g s ≤ g (step s a))
    (hstep : ∀ s a, J s → (g (step s a) = g s ↔ G s a)) {s : σ} (hs : J s) (l : List α) :
    g (run step s l) = g s ↔ Along step G s l := by
  have hmono : ∀ (l : List α) {s : σ}, J s → g s ≤ g (run step s l) := by
    intro l
    induction l with
    | nil => exact fun _ => le_rfl
    | cons a l ih => exact fun hs => (hle _ a hs).trans (ih (hJ _ a hs))
  induction l generalizing s with
  | nil => simp
  | cons a l ih =>
    have hafter := hJ s a hs
    have hrest := ih hafter
    rw [run_cons, along_cons, ← hstep s a hs]
    constructor
    · intro h
      have hfirst : g (step s a) = g s := le_antisymm (h ▸ hmono l hafter) (hle s a hs)
      exact ⟨hfirst, hrest.mp (h.trans hfirst.symm)⟩
    · exact fun h => (hrest.mpr h.2).trans h.1

end AlphaAlgo.Runs
