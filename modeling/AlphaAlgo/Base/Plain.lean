import AlphaAlgo.Base.Instants

/-!
# Plain — the characters of the texts with a format

The texts of identifiers, instants, numbers and decimals are letters, digits and a few signs; no separator is among them.

* `UUID.plain_str`, `DateTime.plain_isoformat`, `Dec.plain_str`: the texts are plain.
* `Plain.count_eq_zero`: a plain text has no other character.
-/

namespace AlphaAlgo

def plainChar (c : Char) : Bool := c.isAlphanum || c == '-' || c == '+' || c == ':' || c == '.'

/-- A text of letters, digits and the signs of numbers and instants. -/
def Plain (l : List Char) : Prop := ∀ c ∈ l, plainChar c = true

theorem plainChar_of_isDigit {c : Char} (h : c.isDigit = true) : plainChar c = true := by
  simp [plainChar, Char.isAlphanum, h]

namespace Plain

variable {l l' : List Char} {c : Char}

theorem nil : Plain [] := fun c h => by cases h

theorem cons (hc : plainChar c = true) (h : Plain l) : Plain (c :: l) := List.forall_mem_cons.mpr ⟨hc, h⟩

theorem append (h : Plain l) (h' : Plain l') : Plain (l ++ l') := List.forall_mem_append.mpr ⟨h, h'⟩

theorem of_digits (h : ∀ c ∈ l, c.isDigit = true) : Plain l := fun c hc => plainChar_of_isDigit (h c hc)

theorem not_mem (h : Plain l) (hc : plainChar c = false) : c ∉ l := by
  intro hmem
  rw [h c hmem] at hc
  cases hc

/-- A plain text has none of the other characters. -/
theorem count_eq_zero (h : Plain l) (hc : plainChar c = false) : l.count c = 0 :=
  List.count_eq_zero.mpr (h.not_mem hc)

end Plain

theorem plain_digits (n : ℕ) : Plain (Dec.digits n) := Plain.of_digits fun _ => isDigit_of_mem_digits

theorem plainChar_hexDigit (d : ℕ) : plainChar (hexDigit d) = true := by
  have key : ∀ a < 16, plainChar (Nat.digitChar a) = true := by decide
  exact key _ (Nat.mod_lt _ (by omega))

theorem UUID.plain_str (u : UUID) : Plain u.str.toList := by
  intro c hc
  by_cases hdash : c = '-'
  · rw [hdash]
    rfl
  · have hmem : c ∈ u.str.toList.filter (· ≠ '-') := List.mem_filter.mpr ⟨hc, decide_eq_true hdash⟩
    rw [UUID.filter_str] at hmem
    obtain ⟨i, -, rfl⟩ := List.mem_map.mp hmem
    exact plainChar_hexDigit _

namespace DateTime

theorem plain_padded (w n : ℕ) : Plain (padded w n).toList := Plain.of_digits fun _ => isDigit_of_mem_padded

theorem plain_optional {absent : Bool} {sep : Char} (hsep : plainChar sep = true) (w n : ℕ) :
    Plain (optional absent sep w n) := by
  cases absent with
  | true => exact Plain.nil
  | false => exact (plain_padded w n).cons hsep

theorem plain_offsetText (o : ℤ) : Plain (offsetText o).toList := by
  rw [toList_offsetText]
  refine Plain.cons (by split_ifs <;> rfl) ((plain_padded _ _).append (Plain.cons rfl ?_))
  exact (plain_padded _ _).append ((plain_optional rfl _ _).append (plain_optional rfl _ _))

theorem plain_isoformat (t : DateTime) : Plain t.isoformat.toList := by
  rw [toList_isoformat]
  refine (plain_padded _ _).append (Plain.cons rfl ((plain_padded _ _).append (Plain.cons rfl ?_)))
  refine (plain_padded _ _).append (Plain.cons rfl ((plain_padded _ _).append (Plain.cons rfl ?_)))
  refine (plain_padded _ _).append (Plain.cons rfl ((plain_padded _ _).append ((plain_optional rfl _ _).append ?_)))
  cases t.utcoffset with
  | none => exact Plain.nil
  | some o => exact plain_offsetText o

end DateTime

theorem Dec.plain_str (d : Dec) : Plain d.str.toList := by
  rw [toList_str]
  refine (Plain.append ?_ ?_).append ?_
  · split_ifs
    · exact Plain.cons rfl Plain.nil
    · exact Plain.nil
  · intro c hc
    rcases body_char hc with hd | rfl
    · exact plainChar_of_isDigit hd
    · rfl
  · split_ifs
    · exact Plain.nil
    · exact Plain.cons rfl (Plain.cons (by split_ifs <;> rfl) (plain_digits _))

end AlphaAlgo
