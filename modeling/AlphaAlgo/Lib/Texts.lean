import AlphaAlgo.Lib.Decimal

/-!
# Texts — what can be read back from a text

A text that is put together from pieces can be taken apart again where a piece ends at a character that is not in it.

* `append_inj`: the first pieces of two equal texts are equal, and the rests are.
* `digits_append_inj`: a numeral that is not followed by a digit.
* `Dec.val_of_str`: decimals with one text have one value.
-/

namespace AlphaAlgo

/-! ### Pieces -/

/-- The text does not start with a character of the piece before it. -/
def Ends (p : Char → Bool) (rest : List Char) : Prop := ∀ c ∈ rest.head?, p c = false

theorem ends_nil (p : Char → Bool) : Ends p [] := fun c h => by cases h

theorem ends_cons {p : Char → Bool} {c : Char} {rest : List Char} : Ends p (c :: rest) ↔ p c = false := by
  simp [Ends]

theorem Ends.append {p : Char → Bool} {a rest : List Char} (ha : ∀ c ∈ a, p c = false) (h : Ends p rest) :
    Ends p (a ++ rest) := by
  cases a with
  | nil => exact h
  | cons c a => exact ends_cons.mpr (ha c List.mem_cons_self)

theorem takeWhile_append_ends {p : Char → Bool} {a r : List Char} (ha : ∀ c ∈ a, p c = true) (hr : Ends p r) :
    (a ++ r).takeWhile p = a := by
  rw [List.takeWhile_append_of_pos ha]
  cases r with
  | nil => simp
  | cons c r => rw [List.takeWhile_cons_of_neg (by rw [ends_cons.mp hr]; decide), List.append_nil]

/-- **Two pieces** of one kind, each as long as it can be. -/
theorem append_inj {p : Char → Bool} {a a' r r' : List Char} (ha : ∀ c ∈ a, p c = true) (ha' : ∀ c ∈ a', p c = true)
    (hr : Ends p r) (hr' : Ends p r') (h : a ++ r = a' ++ r') : a = a' ∧ r = r' := by
  have hfirst : a = a' := by rw [← takeWhile_append_ends ha hr, h, takeWhile_append_ends ha' hr']
  rw [hfirst] at h
  exact ⟨hfirst, List.append_cancel_left h⟩

/-! ### Numerals -/

theorem isDigit_of_mem_digits {n : ℕ} {c : Char} (h : c ∈ Dec.digits n) : c.isDigit = true := by
  rw [Dec.digits, Nat.toString_eq_ofList_toDigits, String.toList_ofList] at h
  exact Nat.isDigit_of_mem_toDigits (by decide) (by decide) h

theorem ofDigitChars_digits (n : ℕ) : Nat.ofDigitChars 10 (Dec.digits n) 0 = n := by
  rw [Dec.digits, Nat.toString_eq_ofList_toDigits, String.toList_ofList]
  exact Nat.ofDigitChars_ten_toDigits

theorem digits_inj {n n' : ℕ} (h : Dec.digits n = Dec.digits n') : n = n' := by
  rw [← ofDigitChars_digits n, h, ofDigitChars_digits]

/-! ### Decimals -/

namespace Dec

/-- Where `str` puts the point. -/
def dotplace (d : Dec) : ℤ :=
  if d.exp ≤ 0 ∧ d.exp + (digits d.coeff).length > -6 then d.exp + (digits d.coeff).length else 1

/-- The digits with their point. -/
def body (d : Dec) : List Char :=
  let ds := digits d.coeff
  if d.dotplace ≤ 0 then '0' :: '.' :: List.replicate (-d.dotplace).toNat '0' ++ ds
  else if ds.length ≤ d.dotplace then ds ++ List.replicate (d.dotplace - ds.length).toNat '0'
  else ds.take d.dotplace.toNat ++ '.' :: ds.drop d.dotplace.toNat

/-- The exponent that `str` writes when it is not zero. -/
def written (d : Dec) : ℤ := d.exp + (digits d.coeff).length - d.dotplace

theorem toList_str (d : Dec) : d.str.toList = (if d.neg then ['-'] else []) ++ d.body ++
    if d.written = 0 then [] else expPart d.written := by
  have hzero : d.exp + (digits d.coeff).length = d.dotplace ↔ d.written = 0 := sub_eq_zero.symm
  simp only [← hzero]
  unfold str
  rw [String.toList_ofList]
  rfl

/-- The number that a body writes. -/
def readBody (cs : List Char) : ℚ :=
  Nat.ofDigitChars 10 (cs.filter (· ≠ '.')) 0 * 10 ^ (-((cs.dropWhile (· ≠ '.')).drop 1).length : ℤ)

theorem ne_of_isDigit {c e : Char} (h : c.isDigit = true) (he : e.isDigit = false) : c ≠ e := by
  rintro rfl
  rw [h] at he
  cases he

theorem filter_point {l : List Char} (hl : ∀ c ∈ l, c.isDigit = true) : l.filter (· ≠ '.') = l :=
  List.filter_eq_self.mpr fun c hc => decide_eq_true (ne_of_isDigit (hl c hc) (by decide))

theorem readBody_whole {l : List Char} (hl : ∀ c ∈ l, c.isDigit = true) : readBody l = Nat.ofDigitChars 10 l 0 := by
  have hdrop : l.dropWhile (· ≠ '.') = [] :=
    List.dropWhile_eq_nil_iff.mpr fun c hc => decide_eq_true (ne_of_isDigit (hl c hc) (by decide))
  rw [readBody, filter_point hl, hdrop]
  simp

theorem readBody_point {l r : List Char} (hl : ∀ c ∈ l, c.isDigit = true) (hr : ∀ c ∈ r, c.isDigit = true) :
    readBody (l ++ '.' :: r) = Nat.ofDigitChars 10 (l ++ r) 0 * 10 ^ (-(r.length : ℤ)) := by
  have hdrop : (l ++ '.' :: r).dropWhile (· ≠ '.') = '.' :: r := by
    rw [List.dropWhile_append_of_pos fun c hc => decide_eq_true (ne_of_isDigit (hl c hc) (by decide))]
    rfl
  have hfilter : (l ++ '.' :: r).filter (· ≠ '.') = l ++ r := by
    rw [List.filter_append, filter_point hl, List.filter_cons_of_neg (by decide), filter_point hr]
  rw [readBody, hfilter, hdrop]
  rfl

/-- A body writes the digits with a part of the exponent. -/
theorem readBody_body (d : Dec) : readBody d.body = d.coeff * 10 ^ (d.dotplace - (digits d.coeff).length) := by
  have hdigits : ∀ c ∈ digits d.coeff, c.isDigit = true := fun _ => isDigit_of_mem_digits
  have hzeros : ∀ n : ℕ, ∀ c ∈ List.replicate n '0', c.isDigit = true := by
    intro n c hc
    rw [List.eq_of_mem_replicate hc]
    rfl
  have hcoeff : Nat.ofDigitChars 10 (digits d.coeff) 0 = d.coeff := ofDigitChars_digits d.coeff
  have happend : ∀ {l r : List Char}, (∀ c ∈ l, c.isDigit = true) → (∀ c ∈ r, c.isDigit = true) →
      ∀ c ∈ l ++ r, c.isDigit = true := by
    intro l r hl hr c hc
    exact (List.mem_append.mp hc).elim (hl c) (hr c)
  unfold body
  dsimp only
  split_ifs with hsmall hwhole
  · -- a zero, the point, and zeros before the digits
    have hread := readBody_point (l := ['0']) (r := List.replicate (-d.dotplace).toNat '0' ++ digits d.coeff)
      (hzeros 1) (happend (hzeros _) hdigits)
    have hvalue : Nat.ofDigitChars 10 (['0'] ++ (List.replicate (-d.dotplace).toNat '0' ++ digits d.coeff)) 0 =
        d.coeff := by
      rw [Nat.ofDigitChars_append, Nat.ofDigitChars_append, Nat.ofDigitChars_replicate_zero]
      exact hcoeff
    have hexp : (-((List.replicate (-d.dotplace).toNat '0' ++ digits d.coeff).length : ℤ)) =
        d.dotplace - (digits d.coeff).length := by
      rw [List.length_append, List.length_replicate]
      omega
    rw [hvalue, hexp] at hread
    exact hread
  · -- the digits, with zeros after them
    rw [readBody_whole (happend hdigits (hzeros _)), Nat.ofDigitChars_append, hcoeff, Nat.ofDigitChars_replicate_zero]
    obtain ⟨k, hk⟩ : ∃ k : ℕ, d.dotplace - (digits d.coeff).length = k := ⟨_, (Int.toNat_of_nonneg (by omega)).symm⟩
    rw [hk, Int.toNat_natCast, zpow_natCast]
    push_cast
    ring
  · -- the point between the digits
    have htake : ∀ c ∈ (digits d.coeff).take d.dotplace.toNat, c.isDigit = true := fun c hc =>
      hdigits c (List.mem_of_mem_take hc)
    have hdrop : ∀ c ∈ (digits d.coeff).drop d.dotplace.toNat, c.isDigit = true := fun c hc =>
      hdigits c (List.mem_of_mem_drop hc)
    rw [readBody_point htake hdrop, List.take_append_drop, hcoeff, List.length_drop]
    congr 2
    omega

theorem expPart_inj {n n' : ℤ} (h : expPart n = expPart n') : n = n' := by
  unfold expPart at h
  simp only [List.cons.injEq, true_and] at h
  obtain ⟨hsign, hdigits⟩ := h
  have habs := digits_inj hdigits
  by_cases hn : n < 0 <;> by_cases hn' : n' < 0 <;> simp [hn, hn'] at hsign <;> omega

/-- Neither a sign nor an exponent begins in the body. -/
theorem body_char {d : Dec} {c : Char} (h : c ∈ d.body) : c.isDigit = true ∨ c = '.' := by
  have hdigits : ∀ c ∈ digits d.coeff, c.isDigit = true := fun _ => isDigit_of_mem_digits
  have hzero : ∀ {n : ℕ} {c : Char}, c ∈ List.replicate n '0' → c.isDigit = true := by
    intro n c hc
    rw [List.eq_of_mem_replicate hc]
    rfl
  unfold body at h
  dsimp only at h
  split_ifs at h
  · simp only [List.cons_append, List.mem_cons, List.mem_append] at h
    rcases h with rfl | rfl | h | h
    · exact .inl rfl
    · exact .inr rfl
    · exact .inl (hzero h)
    · exact .inl (hdigits c h)
  · rcases List.mem_append.mp h with h | h
    · exact .inl (hdigits c h)
    · exact .inl (hzero h)
  · rcases List.mem_append.mp h with h | h
    · exact .inl (hdigits c (List.mem_of_mem_take h))
    · rcases List.mem_cons.mp h with rfl | h
      · exact .inr rfl
      · exact .inl (hdigits c (List.mem_of_mem_drop h))

theorem val_eq (d : Dec) : d.val = (if d.neg then -1 else 1) * (readBody d.body * 10 ^ d.written) := by
  have hexp : d.exp = d.dotplace - (digits d.coeff).length + d.written := by
    unfold written
    omega
  rw [readBody_body, val, mul_assoc, mul_assoc, ← zpow_add₀ (by norm_num), ← hexp]

/-- **Decimals with one text** have one value. -/
theorem val_of_str {d d' : Dec} (h : d.str = d'.str) : d.val = d'.val := by
  have hbody : ∀ e : Dec, ∀ c ∈ e.body, (c.isDigit || c == '.') = true := by
    intro e c hc
    rcases body_char hc with hd | rfl
    · simp [hd]
    · rfl
  have hends : ∀ e : Dec, Ends (fun c => c.isDigit || c == '.') (if e.written = 0 then [] else expPart e.written) := by
    intro e
    split_ifs
    · exact ends_nil _
    · exact ends_cons.mpr rfl
  have hminus : ∀ e : Dec, Ends (· == '-') (e.body ++ if e.written = 0 then [] else expPart e.written) := by
    intro e
    refine Ends.append (fun c hc => ?_) ?_
    · rcases body_char hc with hd | rfl
      · exact beq_eq_false_iff_ne.mpr (ne_of_isDigit hd (by decide))
      · rfl
    · split_ifs
      · exact ends_nil _
      · exact ends_cons.mpr rfl
  have hsign : ∀ e : Dec, ∀ c ∈ (if e.neg then ['-'] else []), (c == '-') = true := by
    intro e c hc
    split_ifs at hc
    · rw [List.mem_singleton.mp hc]
      rfl
    · cases hc
  have hlist := congrArg String.toList h
  rw [toList_str, toList_str, List.append_assoc, List.append_assoc] at hlist
  obtain ⟨hfirst, hrest⟩ := append_inj (hsign d) (hsign d') (hminus d) (hminus d') hlist
  have hneg : d.neg = d'.neg := by
    cases hn : d.neg <;> cases hn' : d'.neg <;> simp [hn, hn'] at hfirst ⊢
  obtain ⟨hsame, htail⟩ := append_inj (hbody d) (hbody d') (hends d) (hends d') hrest
  have hwritten : d.written = d'.written := by
    by_cases hz : d.written = 0 <;> by_cases hz' : d'.written = 0
    · rw [hz, hz']
    · rw [if_pos hz, if_neg hz'] at htail
      cases htail
    · rw [if_neg hz, if_pos hz'] at htail
      cases htail
    · rw [if_neg hz, if_neg hz'] at htail
      exact expPart_inj htail
  rw [val_eq, val_eq, hneg, hsame, hwritten]

end Dec

end AlphaAlgo
