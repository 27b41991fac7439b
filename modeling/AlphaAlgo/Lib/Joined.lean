import Mathlib.Algebra.Ring.Nat
import Mathlib.Data.List.Basic

/-!
# Joined — texts that are joined with a separator

`[c].intercalate l` is the text of the fields `l` with the separator `c` between them.  The fields may contain the
separator; the text then determines less than the fields.

* `first_inj`, `clean_inj`, `last_inj`, `intercalate_inj`: it determines fields whose numbers of separators are known.
* `append_cons_eq_iff`: two ways to read one text as two fields differ by a part that moves with a separator.
* `splitOnP_intercalate`, `filter_intercalate`, `eq_of_pieces`: a text is its pieces and its separators, in order.
-/

namespace AlphaAlgo.Joining

variable {α : Type*} {c : α}

/-! ### Fields with known numbers of separators -/

section Counts

variable [DecidableEq α]

/-- A first field with a known number of separators. -/
theorem first_inj : ∀ {a a' r r' : List α}, a.count c = a'.count c → a ++ c :: r = a' ++ c :: r' →
    a = a' ∧ r = r'
  | [], [], _, _, _, h => ⟨rfl, (List.cons.inj h).2⟩
  | [], x :: a', _, _, hcount, h => by
    obtain ⟨rfl, -⟩ := List.cons.inj h
    simp at hcount
  | x :: a, [], _, _, hcount, h => by
    obtain ⟨rfl, -⟩ := List.cons.inj h
    simp at hcount
  | x :: a, y :: a', r, r', hcount, h => by
    obtain ⟨rfl, hrest⟩ := List.cons.inj h
    rw [List.count_cons, List.count_cons, Nat.add_right_cancel_iff] at hcount
    obtain ⟨rfl, hr⟩ := first_inj hcount hrest
    exact ⟨rfl, hr⟩

/-- A first field without separators. -/
theorem clean_inj {a a' r r' : List α} (ha : c ∉ a) (ha' : c ∉ a') (h : a ++ c :: r = a' ++ c :: r') :
    a = a' ∧ r = r' := by
  refine first_inj ?_ h
  rw [List.count_eq_zero.mpr ha, List.count_eq_zero.mpr ha']

/-- A last field with a known number of separators. -/
theorem last_inj {a a' r r' : List α} (hcount : r.count c = r'.count c)
    (h : a ++ c :: r = a' ++ c :: r') : a = a' ∧ r = r' := by
  have htotal := congrArg (List.count c) h
  rw [List.count_append, List.count_append, List.count_cons, List.count_cons] at htotal
  exact first_inj (by omega) h

/-- **Fields with known numbers of separators** can be read off their text. -/
theorem intercalate_inj : ∀ {l l' : List (List α)}, l.map (List.count c) = l'.map (List.count c) →
    [c].intercalate l = [c].intercalate l' → l = l'
  | [], [], _, _ => rfl
  | [], _ :: _, hcount, _ => by cases hcount
  | _ :: _, [], hcount, _ => by cases hcount
  | [a], [a'], _, h => by simpa using h
  | [a], _ :: _ :: _, hcount, _ => by simp at hcount
  | _ :: _ :: _, [a'], hcount, _ => by simp at hcount
  | a :: b :: l, a' :: b' :: l', hcount, h => by
    rw [List.intercalate_cons_cons, List.intercalate_cons_cons, List.append_assoc, List.append_assoc] at h
    obtain ⟨hfirst, htail⟩ := List.cons.inj hcount
    obtain ⟨rfl, hrest⟩ := first_inj hfirst h
    rw [intercalate_inj htail hrest]

/-- The number of another character in a joined text. -/
theorem count_intercalate {d : α} (hd : d ≠ c) : ∀ l : List (List α),
    ([c].intercalate l).count d = (l.map (List.count d)).sum
  | [] => rfl
  | [a] => by simp
  | a :: b :: l => by
    rw [List.intercalate_cons_cons, List.count_append, List.count_append, count_intercalate hd (b :: l),
      List.count_singleton, if_neg (by simpa using hd.symm), Nat.add_zero]
    simp only [List.map_cons, List.sum_cons]

/-- The number of separators in a joined text: those of the fields and those between them. -/
theorem count_sep_intercalate : ∀ {l : List (List α)}, l ≠ [] →
    ([c].intercalate l).count c + 1 = (l.map (List.count c)).sum + l.length
  | [], h => absurd rfl h
  | [a], _ => by simp
  | a :: b :: l, _ => by
    have ih := count_sep_intercalate (List.cons_ne_nil b l)
    rw [List.intercalate_cons_cons, List.count_append, List.count_append, List.count_singleton_self]
    simp only [List.map_cons, List.sum_cons, List.length_cons] at ih ⊢
    omega

end Counts

/-! ### Two fields -/

/-- `(a', b')` is `(a, b)` with a part moved from the second field to the first, and a separator with it. -/
def Moved (c : α) (a b a' b' : List α) : Prop := ∃ m, a' = a ++ c :: m ∧ b = m ++ c :: b'

theorem Moved.text {a b a' b' : List α} (h : Moved c a b a' b') : a ++ c :: b = a' ++ c :: b' := by
  obtain ⟨m, rfl, rfl⟩ := h
  simp

theorem Moved.ne {a b a' b' : List α} (h : Moved c a b a' b') : a ≠ a' := by
  obtain ⟨m, rfl, -⟩ := h
  simp

/-- **Two readings** of one text as two fields. -/
theorem append_cons_eq_iff {a b a' b' : List α} :
    a ++ c :: b = a' ++ c :: b' ↔ (a = a' ∧ b = b') ∨ Moved c a b a' b' ∨ Moved c a' b' a b := by
  constructor
  · intro h
    rcases List.append_eq_append_iff.mp h with ⟨m, hfirst, hrest⟩ | ⟨m, hfirst, hrest⟩
    · cases m with
      | nil =>
        rw [List.append_nil] at hfirst
        exact .inl ⟨hfirst.symm, (List.cons.inj hrest).2⟩
      | cons x m =>
        obtain ⟨rfl, hb⟩ := List.cons.inj hrest
        exact .inr (.inl ⟨m, hfirst, hb⟩)
    · cases m with
      | nil =>
        rw [List.append_nil] at hfirst
        exact .inl ⟨hfirst, (List.cons.inj hrest).2.symm⟩
      | cons x m =>
        obtain ⟨rfl, hb⟩ := List.cons.inj hrest
        exact .inr (.inr ⟨m, hfirst, hb⟩)
  · rintro (⟨rfl, rfl⟩ | h | h)
    · rfl
    · exact h.text
    · exact h.text.symm

/-! ### Pieces -/

variable {p : α → Bool}

theorem splitOnP_intercalate (hc : p c = true) : ∀ {l : List (List α)}, l ≠ [] →
    ([c].intercalate l).splitOnP p = l.flatMap (List.splitOnP p)
  | [], h => absurd rfl h
  | [a], _ => by simp
  | a :: b :: l, _ => by
    rw [List.intercalate_cons_cons, List.append_assoc, List.singleton_append, List.splitOnP_append_cons _ _ hc,
      splitOnP_intercalate hc (List.cons_ne_nil b l)]
    simp only [List.flatMap_cons]

theorem filter_intercalate (hc : p c = true) : ∀ l : List (List α),
    ([c].intercalate l).filter p = [c].intercalate (l.map (List.filter p))
  | [] => rfl
  | [a] => by simp
  | a :: b :: l => by
    rw [List.map_cons, List.map_cons, List.intercalate_cons_cons, List.intercalate_cons_cons, List.filter_append,
      List.filter_append, filter_intercalate hc (b :: l), List.map_cons, List.filter_cons_of_pos hc, List.filter_nil]

/-- **A text is its pieces and its separators.** -/
theorem eq_of_pieces {a b : List α} (hpieces : a.splitOnP p = b.splitOnP p) (hseparators : a.filter p = b.filter p) :
    a = b := by
  rw [← List.splitOnP_spec (p := p) a, hpieces, hseparators, List.splitOnP_spec b]

end AlphaAlgo.Joining
