import Mathlib.Data.List.Basic
import Mathlib.Order.Defs.Unbundled

/-!
# Firsts — the first entry of each kind

`firsts r known l` keeps, in order, the entries of `l` to which none before is related, in `known` or in `l`.

* `exists_firsts_iff`: what was kept is related to the same entries as what was offered.
* `firsts_concat`: one more entry.
-/

namespace AlphaAlgo.Firsts

variable {α : Type*} (r : α → α → Prop) [DecidableRel r]

def firsts (known : List α) : List α → List α
  | [] => []
  | a :: l => if ∃ p ∈ known, r p a then firsts known l else a :: firsts (known ++ [a]) l

variable {r}

/-- **What was kept stands for what was offered.** -/
theorem exists_firsts_iff [IsTrans α r] {q : α} :
    ∀ {known l : List α}, (∃ p ∈ known ++ firsts r known l, r p q) ↔ ∃ p ∈ known ++ l, r p q
  | known, [] => by rw [firsts]
  | known, a :: l => by
    by_cases hknown : ∃ p ∈ known, r p a
    · rw [firsts, if_pos hknown, exists_firsts_iff]
      constructor
      · rintro ⟨p, hp, hpq⟩
        refine ⟨p, ?_, hpq⟩
        rw [List.mem_append, List.mem_cons] at *
        tauto
      · rintro ⟨p, hp, hpq⟩
        rw [List.mem_append, List.mem_cons] at hp
        obtain hp | rfl | hp := hp
        · exact ⟨p, List.mem_append_left l hp, hpq⟩
        · obtain ⟨p', hp', hpp⟩ := hknown
          exact ⟨p', List.mem_append_left l hp', trans_of r hpp hpq⟩
        · exact ⟨p, List.mem_append_right known hp, hpq⟩
    · rw [firsts, if_neg hknown, List.append_cons known a (firsts r _ l), exists_firsts_iff,
        ← List.append_cons known a l]

/-- One more entry is kept where none before it is related to it. -/
theorem firsts_concat [IsTrans α r] {a : α} {known l : List α} :
    firsts r known (l ++ [a]) = firsts r known l ++ if ∃ p ∈ known ++ l, r p a then [] else [a] := by
  induction l generalizing known with
  | nil => simp [firsts]
  | cons b l ih =>
    by_cases hknown : ∃ p ∈ known, r p b
    · have hsame : (∃ p ∈ known ++ b :: l, r p a) ↔ ∃ p ∈ known ++ l, r p a := by
        have hkept : (∃ p ∈ known ++ firsts r known (b :: l), r p a) ↔ ∃ p ∈ known ++ b :: l, r p a :=
          exists_firsts_iff
        rw [firsts, if_pos hknown, exists_firsts_iff] at hkept
        exact hkept.symm
      rw [List.cons_append, firsts, if_pos hknown, firsts, if_pos hknown, ih, if_congr hsame rfl rfl]
    · rw [List.cons_append, firsts, if_neg hknown, firsts, if_neg hknown, ih, List.cons_append,
        ← List.append_cons known b l]

end AlphaAlgo.Firsts
