import Mathlib.Algebra.Order.BigOperators.Group.List
import Mathlib.Algebra.Ring.Basic
import AlphaAlgo.Lib.Runs

/-!
# Potential — bounds on what a run gives, by a potential

When what each step gives is paid for by the fall of a potential, a run gives at most as much as the potential falls.

* `Along.sum_outputs_le`: the rule for guarded runs.
* `countP_zip_outputs`: the number of steps of a kind as the sum of what the steps give.
-/

namespace AlphaAlgo.Runs

variable {σ α K : Type*} {step : σ → α → σ}

/-- **Potential rule**: what the steps give is paid for by the potential. -/
theorem Along.sum_outputs_le [AddCommMonoid K] [PartialOrder K] [IsOrderedAddMonoid K] {G : σ → α → Prop} {I : σ → Prop}
    {gives : σ → α → K} {potential : σ → K} (hkeep : ∀ s a, I s → G s a → I (step s a))
    (hpay : ∀ s a, I s → G s a → gives s a + potential (step s a) ≤ potential s) :
    ∀ {l : List α} {s : σ}, Along step G s l → I s →
      (outputs step gives s l).sum + potential (run step s l) ≤ potential s
  | [], s, _, _ => by simp [outputs]
  | a :: l, s, h, hI => by
    obtain ⟨ha, hl⟩ := h
    have ih := hl.sum_outputs_le hkeep hpay (hkeep s a hI ha)
    calc (gives s a + (outputs step gives (step s a) l).sum) + potential (run step (step s a) l)
        = gives s a + ((outputs step gives (step s a) l).sum + potential (run step (step s a) l)) := add_assoc _ _ _
      _ ≤ gives s a + potential (step s a) := by gcongr
      _ ≤ potential s := hpay s a hI ha

/-- The steps whose action and output are of a kind, counted. -/
theorem countP_zip_outputs [AddCommMonoidWithOne K] {β : Type*} (out : σ → α → β) (p : α × β → Bool) :
    ∀ (s : σ) (l : List α), (((l.zip (outputs step out s l)).countP p : ℕ) : K) =
      (outputs step (fun s a => if p (a, out s a) = true then (1 : K) else 0) s l).sum
  | s, [] => by simp [outputs]
  | s, a :: l => by
    rw [outputs, outputs, List.zip_cons_cons, List.countP_cons, List.sum_cons, ← countP_zip_outputs out p (step s a) l]
    split_ifs <;> simp [add_comm]

end AlphaAlgo.Runs
