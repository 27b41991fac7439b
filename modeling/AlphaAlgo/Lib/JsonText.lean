import AlphaAlgo.Lib.Json

/-!
# JsonText — JSON texts with bare tokens

`Json` has no fractions.  `JsonText` is what a text of `json.dumps` says with any token that stands bare in it: a number
of any kind, `true`, `false`, `null`, `NaN` or an infinity.

* `chars_append_inj`: a text followed by what can follow a value determines the value and the rest.
* `chars_inj`: a text determines its value.
-/

namespace AlphaAlgo

/-- The characters that end a bare token, or begin something else. -/
def isBreak (c : Char) : Bool := c == ',' || c == ']' || c == '\x7d' || c == '"' || c == '[' || c == '\x7b'

/-- A text that stands bare. -/
structure Token where
  text : String
  nonempty : text.toList ≠ []
  bare : ∀ c ∈ text.toList, isBreak c = false

theorem Token.ext_text {t t' : Token} (h : t.text.toList = t'.text.toList) : t = t' := by
  cases t
  cases t'
  cases String.toList_inj.mp h
  rfl

theorem bare_of_all {s : String} (h : (s.toList.all fun c => !isBreak c) = true) : ∀ c ∈ s.toList, isBreak c = false := by
  intro c hc
  simpa using List.all_eq_true.mp h c hc

theorem null_nonempty : "null".toList ≠ [] := by decide

theorem null_bare : ∀ c ∈ "null".toList, isBreak c = false := bare_of_all (by decide)

def Token.null : Token := ⟨"null", null_nonempty, null_bare⟩

theorem boolText_nonempty (b : Bool) : (if b then "true" else "false").toList ≠ [] := by
  cases b <;> decide

theorem boolText_bare (b : Bool) : ∀ c ∈ (if b then "true" else "false").toList, isBreak c = false := by
  cases b
  · exact bare_of_all (by decide)
  · exact bare_of_all (by decide)

def Token.bool (b : Bool) : Token := ⟨if b then "true" else "false", boolText_nonempty b, boolText_bare b⟩

theorem isBreak_of_isDigit {c : Char} (h : c.isDigit = true) : isBreak c = false := by
  have hne : ∀ d : Char, d.isDigit = false → c ≠ d := by
    rintro d hd rfl
    rw [h] at hd
    cases hd
  simp only [isBreak, Bool.or_eq_false_iff, beq_eq_false_iff_ne]
  exact ⟨⟨⟨⟨⟨hne _ (by decide), hne _ (by decide)⟩, hne _ (by decide)⟩, hne _ (by decide)⟩, hne _ (by decide)⟩,
    hne _ (by decide)⟩

theorem toString_int_bare (n : ℤ) : ∀ c ∈ (toString n).toList, isBreak c = false := by
  intro c hc
  rcases toString_int n with ⟨m, -, e⟩ | ⟨m, -, e⟩
  · rw [e] at hc
    exact isBreak_of_isDigit (isDigit_of_mem_repr hc)
  · rw [e] at hc
    rcases List.mem_cons.mp hc with rfl | hc
    · decide
    · exact isBreak_of_isDigit (isDigit_of_mem_repr hc)

theorem toString_int_ne_nil (n : ℤ) : (toString n).toList ≠ [] := by
  rcases toString_int n with ⟨m, -, e⟩ | ⟨m, -, e⟩
  · rw [e]
    intro h
    simp at h
  · rw [e]
    exact List.cons_ne_nil _ _

def Token.int (n : ℤ) : Token := ⟨toString n, toString_int_ne_nil n, toString_int_bare n⟩

inductive JsonText where
  | token (t : Token)
  | str (s : String)
  | arr (l : List JsonText)
  | obj (l : List (String × JsonText))

namespace JsonText

/-- A string or `None`. -/
def ofOption : Option String → JsonText
  | none => .token .null
  | some s => .str s

mutual

def chars (sep : Separators) : JsonText → List Char
  | .token t => t.text.toList
  | .str s => quote s
  | .arr l => '[' :: items sep true l ++ [']']
  | .obj l => '\x7b' :: fields sep true l ++ ['\x7d']

def items (sep : Separators) : Bool → List JsonText → List Char
  | _, [] => []
  | first, w :: l => (if first then [] else sep.item.toList) ++ chars sep w ++ items sep false l

def fields (sep : Separators) : Bool → List (String × JsonText) → List Char
  | _, [] => []
  | first, (k, w) :: l => (if first then [] else sep.item.toList) ++ quote k ++ sep.key.toList ++ chars sep w ++
      fields sep false l

end

/-! ### Unique readability -/

/-- What can follow a value. -/
def Ended (r : List Char) : Prop := ∀ c ∈ r.head?, isBreak c = true

theorem ended_cons {c : Char} {r : List Char} (h : isBreak c = true) : Ended (c :: r) := by
  intro d hd
  cases hd
  exact h

theorem bare_append_inj : ∀ {a b r r' : List Char}, (∀ c ∈ a, isBreak c = false) → (∀ c ∈ b, isBreak c = false) →
    Ended r → Ended r' → a ++ r = b ++ r' → a = b ∧ r = r'
  | [], [], _, _, _, _, _, _, h => ⟨rfl, h⟩
  | [], c :: b, r, _, _, hb, hr, _, h => by
    have hbreak := hr c (by rw [List.nil_append] at h; rw [h]; rfl)
    rw [hb c List.mem_cons_self] at hbreak
    cases hbreak
  | c :: a, [], _, r', ha, _, _, hr', h => by
    have hbreak := hr' c (by rw [List.nil_append] at h; rw [← h]; rfl)
    rw [ha c List.mem_cons_self] at hbreak
    cases hbreak
  | c :: a, d :: b, _, _, ha, hb, hr, hr', h => by
    simp only [List.cons_append, List.cons.injEq] at h
    obtain ⟨rfl, h⟩ := h
    obtain ⟨rfl, hrest⟩ := bare_append_inj (fun x hx => ha x (List.mem_cons_of_mem _ hx))
      (fun x hx => hb x (List.mem_cons_of_mem _ hx)) hr hr' h
    exact ⟨rfl, hrest⟩

variable {sep : Separators}

/-- The kind of a value, and what its first character says of it. -/
def kind : JsonText → ℕ
  | .token _ => 0
  | .str _ => 1
  | .arr _ => 2
  | .obj _ => 3

def leading (c : Char) : ℕ := if c = '"' then 1 else if c = '[' then 2 else if c = '\x7b' then 3 else 0

/-- The first character of a value tells its kind, and is none of those that end one. -/
theorem chars_cons (w : JsonText) : ∃ c l, w.chars sep = c :: l ∧ leading c = kind w ∧ c ≠ ',' ∧ c ≠ ']' ∧ c ≠ '\x7d' := by
  cases w with
  | token t =>
    obtain ⟨c, l, hl⟩ := List.exists_cons_of_ne_nil t.nonempty
    have hbare := t.bare c (by rw [hl]; exact List.mem_cons_self)
    simp only [isBreak, Bool.or_eq_false_iff, beq_eq_false_iff_ne] at hbare
    obtain ⟨⟨⟨⟨⟨hcomma, hbracket⟩, hbrace⟩, hquote⟩, harr⟩, hobj⟩ := hbare
    exact ⟨c, l, by rw [chars, hl], by simp [leading, kind, hquote, harr, hobj], hcomma, hbracket, hbrace⟩
  | str s => exact ⟨'"', _, by rw [chars, quote, List.cons_append], rfl, by decide, by decide, by decide⟩
  | arr l => exact ⟨'[', _, by rw [chars, List.cons_append], rfl, by decide, by decide, by decide⟩
  | obj l => exact ⟨'\x7b', _, by rw [chars, List.cons_append], rfl, by decide, by decide, by decide⟩

theorem kind_eq {w w' : JsonText} {r r' : List Char} (h : w.chars sep ++ r = w'.chars sep ++ r') : kind w = kind w' := by
  obtain ⟨c, l, hl, hkind, -⟩ := @chars_cons sep w
  obtain ⟨c', l', hl', hkind', -⟩ := @chars_cons sep w'
  rw [hl, hl', List.cons_append, List.cons_append, List.cons.injEq] at h
  rw [← hkind, ← hkind', h.1]

/-- A value does not begin with what ends one. -/
theorem chars_append_ne (w : JsonText) {c : Char} {r r' : List Char} (hc : c = ',' ∨ c = ']' ∨ c = '\x7d') :
    w.chars sep ++ r ≠ c :: r' := by
  intro h
  obtain ⟨d, l, hl, -, hcomma, hbracket, hbrace⟩ := @chars_cons sep w
  rw [hl, List.cons_append, List.cons.injEq] at h
  obtain ⟨rfl, -⟩ := h
  rcases hc with hc | hc | hc
  · exact hcomma hc
  · exact hbracket hc
  · exact hbrace hc

/-- What follows the items of an array ends a value. -/
theorem ended_items {close : Char} (hclose : isBreak close = true) (l : List JsonText) (r : List Char) :
    Ended (items .default false l ++ close :: r) := by
  cases l with
  | nil =>
    rw [items]
    exact ended_cons hclose
  | cons w l =>
    rw [items]
    exact ended_cons rfl

theorem ended_fields {close : Char} (hclose : isBreak close = true) (l : List (String × JsonText)) (r : List Char) :
    Ended (fields .default false l ++ close :: r) := by
  cases l with
  | nil =>
    rw [fields]
    exact ended_cons hclose
  | cons w l =>
    rw [fields]
    exact ended_cons rfl

/-- An array that has items does not end where an empty one does. -/
theorem items_cons_ne (first : Bool) (w : JsonText) (l : List JsonText) {r r' : List Char} :
    items .default first (w :: l) ++ ']' :: r ≠ items .default first [] ++ ']' :: r' := by
  cases first with
  | true =>
    simp only [items, if_true, List.nil_append, List.append_assoc]
    exact chars_append_ne w (.inr (.inl rfl))
  | false =>
    intro h
    simp only [items, Bool.false_eq_true, if_false, List.nil_append, List.append_assoc] at h
    cases (List.cons.inj h).1

theorem fields_cons_ne (first : Bool) (f : String × JsonText) (l : List (String × JsonText)) {r r' : List Char} :
    fields .default first (f :: l) ++ '\x7d' :: r ≠ fields .default first [] ++ '\x7d' :: r' := by
  obtain ⟨k, w⟩ := f
  cases first with
  | true =>
    intro h
    simp only [fields, if_true, List.nil_append, List.append_assoc] at h
    cases (List.cons.inj h).1
  | false =>
    intro h
    simp only [fields, Bool.false_eq_true, if_false, List.nil_append, List.append_assoc] at h
    cases (List.cons.inj h).1

mutual

/-- **A value is uniquely readable** before what can follow it. -/
theorem chars_append_inj : ∀ (w w' : JsonText) {r r' : List Char}, Ended r → Ended r' →
    w.chars .default ++ r = w'.chars .default ++ r' → w = w' ∧ r = r'
  | .token t, w', r, r', hr, hr', h => by
    have hkind := kind_eq h
    cases w' with
    | token t' =>
      simp only [chars] at h
      obtain ⟨htext, hrest⟩ := bare_append_inj t.bare t'.bare hr hr' h
      rw [Token.ext_text htext]
      exact ⟨rfl, hrest⟩
    | str s => cases hkind
    | arr l => cases hkind
    | obj l => cases hkind
  | .str s, w', r, r', hr, hr', h => by
    have hkind := kind_eq h
    cases w' with
    | str s' =>
      simp only [chars] at h
      obtain ⟨rfl, hrest⟩ := quote_append_inj h
      exact ⟨rfl, hrest⟩
    | token t => cases hkind
    | arr l => cases hkind
    | obj l => cases hkind
  | .arr l, w', r, r', hr, hr', h => by
    have hkind := kind_eq h
    cases w' with
    | arr l' =>
      simp only [chars, List.cons_append, List.append_assoc, List.cons.injEq, true_and, List.nil_append] at h
      obtain ⟨rfl, hrest⟩ := items_append_inj true l l' h
      exact ⟨rfl, hrest⟩
    | token t => cases hkind
    | str s => cases hkind
    | obj l => cases hkind
  | .obj l, w', r, r', hr, hr', h => by
    have hkind := kind_eq h
    cases w' with
    | obj l' =>
      simp only [chars, List.cons_append, List.append_assoc, List.cons.injEq, true_and, List.nil_append] at h
      obtain ⟨rfl, hrest⟩ := fields_append_inj true l l' h
      exact ⟨rfl, hrest⟩
    | token t => cases hkind
    | str s => cases hkind
    | arr l => cases hkind

theorem items_append_inj : ∀ (first : Bool) (l l' : List JsonText) {r r' : List Char},
    items .default first l ++ ']' :: r = items .default first l' ++ ']' :: r' → l = l' ∧ r = r'
  | first, [], [], r, r', h => by
    simpa [items] using h
  | first, [], w :: l, r, r', h => by
    exact absurd h.symm (items_cons_ne first w l)
  | first, w :: l, [], r, r', h => by
    exact absurd h (items_cons_ne first w l)
  | first, w :: l, w' :: l', r, r', h => by
    simp only [items, List.append_assoc] at h
    obtain ⟨rfl, hl⟩ := chars_append_inj w w' (ended_items rfl l r) (ended_items rfl l' r') (List.append_cancel_left h)
    obtain ⟨rfl, hrest⟩ := items_append_inj false l l' hl
    exact ⟨rfl, hrest⟩

theorem fields_append_inj : ∀ (first : Bool) (l l' : List (String × JsonText)) {r r' : List Char},
    fields .default first l ++ '\x7d' :: r = fields .default first l' ++ '\x7d' :: r' → l = l' ∧ r = r'
  | first, [], [], r, r', h => by
    simpa [fields] using h
  | first, [], f :: l, r, r', h => by
    exact absurd h.symm (fields_cons_ne first f l)
  | first, f :: l, [], r, r', h => by
    exact absurd h (fields_cons_ne first f l)
  | first, (k, w) :: l, (k', w') :: l', r, r', h => by
    simp only [fields, List.append_assoc] at h
    obtain ⟨rfl, hw⟩ := quote_append_inj (List.append_cancel_left h)
    obtain ⟨rfl, hl⟩ := chars_append_inj w w' (ended_fields rfl l r) (ended_fields rfl l' r') (List.append_cancel_left hw)
    obtain ⟨rfl, hrest⟩ := fields_append_inj false l l' hl
    exact ⟨rfl, hrest⟩

end

/-- **A text determines its value.** -/
theorem chars_inj {w w' : JsonText} (h : w.chars .default = w'.chars .default) : w = w' := by
  have hended : Ended [] := fun c hc => by cases hc
  exact (chars_append_inj w w' hended hended (by rw [h])).1

end JsonText

end AlphaAlgo
