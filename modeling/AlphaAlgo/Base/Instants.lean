import AlphaAlgo.Base.Values
import AlphaAlgo.Lib.Texts

/-!
# Instants — the text of an instant

`isoformat` writes every field of a `DateTime`, each followed by a character that is not a digit, so the text determines
the fields (`isoformat_inj`).
-/

namespace AlphaAlgo.DateTime

/-- A part that is written only when it is not zero. -/
def optional (absent : Bool) (sep : Char) (w n : ℕ) : List Char := if absent then [] else sep :: (padded w n).toList

theorem isDigit_of_mem_padded {w n : ℕ} {c : Char} (h : c ∈ (padded w n).toList) : c.isDigit = true := by
  rw [padded, String.toList_append, String.toList_ofList, List.mem_append] at h
  rcases h with h | h
  · rw [List.eq_of_mem_replicate h]
    rfl
  · exact isDigit_of_mem_digits h

theorem ofDigitChars_padded (w n : ℕ) : Nat.ofDigitChars 10 (padded w n).toList 0 = n := by
  rw [padded, String.toList_append, String.toList_ofList, Nat.ofDigitChars_append, Nat.ofDigitChars_replicate_zero]
  exact ofDigitChars_digits n

theorem padded_append_inj {w n n' : ℕ} {r r' : List Char} (hr : Ends Char.isDigit r) (hr' : Ends Char.isDigit r')
    (h : (padded w n).toList ++ r = (padded w n').toList ++ r') : n = n' ∧ r = r' := by
  obtain ⟨hd, hrest⟩ := append_inj (fun _ => isDigit_of_mem_padded) (fun _ => isDigit_of_mem_padded) hr hr' h
  refine ⟨?_, hrest⟩
  rw [← ofDigitChars_padded w n, hd, ofDigitChars_padded]

/-- A part in the middle, before a character that is not a digit. -/
theorem padded_cons_inj {w n n' : ℕ} {c : Char} {r r' : List Char} (hc : c.isDigit = false)
    (h : (padded w n).toList ++ c :: r = (padded w n').toList ++ c :: r') : n = n' ∧ r = r' := by
  obtain ⟨hn, hrest⟩ := padded_append_inj (ends_cons.mpr hc) (ends_cons.mpr hc) h
  exact ⟨hn, (List.cons.injEq _ _ _ _ ▸ hrest).2⟩

theorem optional_ends {absent : Bool} {sep : Char} {w n : ℕ} {r : List Char} (hsep : sep.isDigit = false)
    (hr : Ends Char.isDigit r) : Ends Char.isDigit (optional absent sep w n ++ r) := by
  cases absent with
  | true => exact hr
  | false => exact ends_cons.mpr hsep

theorem optional_append_inj {absent absent' : Bool} {sep : Char} {w n n' : ℕ} {r r' : List Char}
    (hr : Ends (fun c => c.isDigit || c == sep) r) (hr' : Ends (fun c => c.isDigit || c == sep) r')
    (h : optional absent sep w n ++ r = optional absent' sep w n' ++ r') :
    absent = absent' ∧ (absent = false → n = n') ∧ r = r' := by
  have hdigit : ∀ {l : List Char}, Ends (fun c => c.isDigit || c == sep) l → Ends Char.isDigit l := by
    intro l hl c hc
    exact (Bool.or_eq_false_iff.mp (hl c hc)).1
  have hsep : ∀ {l l' : List Char}, Ends (fun c => c.isDigit || c == sep) l → l ≠ sep :: l' := by
    rintro l l' hl rfl
    have := ends_cons.mp hl
    simp at this
  cases absent with
  | true =>
    cases absent' with
    | true => exact ⟨rfl, nofun, h⟩
    | false => exact absurd h (hsep hr)
  | false =>
    cases absent' with
    | true => exact absurd h.symm (hsep hr')
    | false =>
      simp only [optional, Bool.false_eq_true, if_false, List.cons_append, List.cons.injEq, true_and] at h
      obtain ⟨hn, hrest⟩ := padded_append_inj (hdigit hr) (hdigit hr') h
      exact ⟨rfl, fun _ => hn, hrest⟩

/-! ### Offsets -/

theorem toList_offsetText (o : ℤ) : (offsetText o).toList = (if o < 0 then '-' else '+') ::
    ((padded 2 (o.natAbs / 1000000 / 3600)).toList ++ ':' :: ((padded 2 (o.natAbs / 1000000 / 60 % 60)).toList ++
      (optional (o.natAbs % 60000000 = 0) ':' 2 (o.natAbs / 1000000 % 60) ++
        optional (o.natAbs % 1000000 = 0) '.' 6 (o.natAbs % 1000000)))) := by
  unfold offsetText optional
  simp only [String.toList_append, decide_eq_true_eq]
  split_ifs <;> simp

theorem offsetText_inj {o o' : ℤ} (h : offsetText o = offsetText o') : o = o' := by
  have hlist := congrArg String.toList h
  rw [toList_offsetText, toList_offsetText, List.cons.injEq] at hlist
  obtain ⟨hsign, hrest⟩ := hlist
  obtain ⟨hhours, hrest⟩ := padded_cons_inj (by decide) hrest
  have hend : ∀ {b : Bool} {w n : ℕ}, Ends Char.isDigit (optional b '.' w n) := by
    intro b w n
    cases b with
    | true => exact ends_nil _
    | false => exact ends_cons.mpr rfl
  have hpoint : ∀ {b : Bool} {w n : ℕ}, Ends (fun c => c.isDigit || c == ':') (optional b '.' w n) := by
    intro b w n
    cases b with
    | true => exact ends_nil _
    | false => exact ends_cons.mpr rfl
  obtain ⟨hminutes, hrest⟩ := padded_append_inj (optional_ends rfl hend) (optional_ends rfl hend) hrest
  obtain ⟨hwhole, hseconds, hrest⟩ := optional_append_inj hpoint hpoint hrest
  rw [← List.append_nil (optional _ '.' _ _), ← List.append_nil (optional (decide (o'.natAbs % _ = 0)) '.' _ _)] at hrest
  obtain ⟨hexact, hmicros, -⟩ := optional_append_inj (ends_nil _) (ends_nil _) hrest
  simp only [decide_eq_decide, decide_eq_false_iff_not] at hwhole hseconds hexact hmicros
  have habs : o.natAbs = o'.natAbs := by omega
  have hneg : o < 0 ↔ o' < 0 := by
    by_cases hn : o < 0 <;> by_cases hn' : o' < 0 <;> simp [hn, hn'] at hsign ⊢
  omega

/-! ### Instants -/

theorem toList_isoformat (t : DateTime) : t.isoformat.toList = (padded 4 t.year).toList ++ '-' ::
    ((padded 2 t.month).toList ++ '-' :: ((padded 2 t.day).toList ++ 'T' :: ((padded 2 t.hour).toList ++ ':' ::
      ((padded 2 t.minute).toList ++ ':' :: ((padded 2 t.second).toList ++
        (optional (t.microsecond = 0) '.' 6 t.microsecond ++ (t.utcoffset.elim "" offsetText).toList)))))) := by
  unfold isoformat optional
  simp only [String.toList_append, decide_eq_true_eq]
  cases t.utcoffset <;> split_ifs <;> simp

/-- **The text of an instant determines its fields.** -/
theorem isoformat_inj {t u : DateTime} (h : t.isoformat = u.isoformat) : t = u := by
  have hoffset : ∀ {p : Char → Bool} (o : Option ℤ), p '+' = false → p '-' = false →
      Ends p (o.elim "" offsetText).toList := by
    intro p o hplus hminus
    cases o with
    | none => exact ends_nil _
    | some o =>
      rw [Option.elim_some, toList_offsetText, ends_cons]
      split_ifs
      · exact hminus
      · exact hplus
  have hlist := congrArg String.toList h
  rw [toList_isoformat, toList_isoformat] at hlist
  obtain ⟨hyear, hlist⟩ := padded_cons_inj rfl hlist
  obtain ⟨hmonth, hlist⟩ := padded_cons_inj rfl hlist
  obtain ⟨hday, hlist⟩ := padded_cons_inj rfl hlist
  obtain ⟨hhour, hlist⟩ := padded_cons_inj rfl hlist
  obtain ⟨hminute, hlist⟩ := padded_cons_inj rfl hlist
  obtain ⟨hsecond, hlist⟩ := padded_append_inj (optional_ends rfl (hoffset _ rfl rfl))
    (optional_ends rfl (hoffset _ rfl rfl)) hlist
  obtain ⟨hzero, hmicro, hlist⟩ := optional_append_inj (hoffset _ rfl rfl) (hoffset _ rfl rfl) hlist
  have hmicrosecond : t.microsecond = u.microsecond := by
    simp only [decide_eq_decide, decide_eq_false_iff_not] at hzero hmicro
    omega
  have hutcoffset : t.utcoffset = u.utcoffset := by
    cases ht : t.utcoffset with
    | none =>
      cases hu : u.utcoffset with
      | none => rfl
      | some o' =>
        rw [ht, hu, Option.elim_some, toList_offsetText] at hlist
        cases hlist
    | some o =>
      cases hu : u.utcoffset with
      | none =>
        rw [ht, hu, Option.elim_some, toList_offsetText] at hlist
        cases hlist
      | some o' =>
        rw [ht, hu] at hlist
        exact congrArg some (offsetText_inj (String.toList_inj.mp hlist))
  cases t
  cases u
  simp_all

end AlphaAlgo.DateTime
