import AlphaAlgo.Broker.Updates
import AlphaAlgo.Lib.Loop
import AlphaAlgo.Risk.Context

/-!
# Secrets — sensitive keys in the payload of an event

`validate_no_secrets` walks the dictionaries of a payload: the values that are dictionaries, and the dictionaries that
stand in a list that is a value.  It enters no tuple, and no list that stands in a list.

* `Within`, `Secretless`: what the check is for, every dictionary at any depth.
* `Visited`, `validateNoSecrets_ok_iff`: the check passes exactly when the dictionaries it visits have no sensitive key.
* `validateNoSecrets_error`: the key in the text of the error is one of theirs.
-/

namespace AlphaAlgo.Events

open Broker (lower)
open Loop (bind_eq_error bind_eq_ok raiseIf raiseIf_eq_ok)
open Risk (reprText)

/-- A payload or a value in one; scalars other than texts are of any type.  A dictionary has its items in order. -/
inductive Payload (σ : Type*) where
  | text (s : String)
  | scalar (a : σ)
  | dict (items : List (String × Payload σ))
  | list (values : List (Payload σ))
  | tuple (values : List (Payload σ))

abbrev Items (σ : Type*) : Type _ := List (String × Payload σ)

/-! ### The check -/

/-- `any(part in key.lower() for part in parts)`. -/
def holdsPart (parts : List String) (key : String) : Bool :=
  parts.any fun part => decide (part.toList <:+: (lower key).toList)

/-- `_SENSITIVE_KEY_PARTS` of the events. -/
def sensitiveKeyParts : List String :=
  ["password", "passwd", "token", "secret", "api_key", "apikey", "authorization", "credential", "private_key", "refresh",
    "cookie", "session_id"]

def isSensitive (key : String) : Bool := holdsPart sensitiveKeyParts key

example : isSensitive "X-API_Key" = true ∧ isSensitive "price" = false := by decide +kernel

/-- The text of the error about a key. -/
def sensitiveText (key : String) : String := "payload key " ++ reprText key ++ " is sensitive and not allowed in events"

variable {σ : Type*}

mutual

def validateNoSecrets : Items σ → Except String Unit
  | [] => .ok ()
  | (key, value) :: items => do
    raiseIf (isSensitive key = true) (sensitiveText key)
    validateValue value
    validateNoSecrets items

/-- The value of a key. -/
def validateValue : Payload σ → Except String Unit
  | .dict items => validateNoSecrets items
  | .list values => validateListed values
  | _ => .ok ()

/-- The dictionaries of a list that is a value. -/
def validateListed : List (Payload σ) → Except String Unit
  | [] => .ok ()
  | .dict items :: values => do
    validateNoSecrets items
    validateListed values
  | _ :: values => validateListed values

end

/-! ### Depth -/

/-- A value inside a value, at any depth. -/
inductive Within : Payload σ → Payload σ → Prop where
  | refl (p : Payload σ) : Within p p
  | item {p v : Payload σ} {key : String} {items : Items σ} : (key, v) ∈ items → Within p v → Within p (.dict items)
  | listed {p v : Payload σ} {values : List (Payload σ)} : v ∈ values → Within p v → Within p (.list values)
  | tupled {p v : Payload σ} {values : List (Payload σ)} : v ∈ values → Within p v → Within p (.tuple values)

/-- No key of the dictionary is sensitive. -/
def Clean (items : Items σ) : Prop := ∀ item ∈ items, isSensitive item.1 = false

instance instDecidableClean (items : Items σ) : Decidable (Clean items) := inferInstanceAs (Decidable (∀ item ∈ items, _))

/-- No dictionary at any depth has a sensitive key. -/
def Secretless (p : Payload σ) : Prop := ∀ items, Within (.dict items) p → Clean items

/-- The dictionaries that the check visits. -/
inductive Visited : Items σ → Items σ → Prop where
  | refl (items : Items σ) : Visited items items
  | item {d inner items : Items σ} {key : String} : (key, .dict inner) ∈ items → Visited d inner → Visited d items
  | listed {d inner items : Items σ} {key : String} {values : List (Payload σ)} :
    (key, .list values) ∈ items → .dict inner ∈ values → Visited d inner → Visited d items

/-- The dictionaries that the check visits from some items are clean. -/
def Passes (items : Items σ) : Prop := ∀ d, Visited d items → Clean d

theorem Visited.within {d items : Items σ} (h : Visited d items) : Within (.dict d) (.dict items) := by
  induction h with
  | refl => exact .refl _
  | item hmem _ ih => exact .item hmem ih
  | listed hmem hinner _ ih => exact .item hmem (.listed hinner ih)

/-! ### What the check visits -/

/-- A dictionary that is visited from the value of a key. -/
def Enters (d : Items σ) : Payload σ → Prop
  | .dict inner => Visited d inner
  | .list values => ∃ inner, .dict inner ∈ values ∧ Visited d inner
  | .text _ => False
  | .scalar _ => False
  | .tuple _ => False

theorem visited_iff {d items : Items σ} : Visited d items ↔ d = items ∨ ∃ item ∈ items, Enters d item.2 := by
  constructor
  · intro h
    cases h with
    | refl => exact .inl rfl
    | item hmem hd => exact .inr ⟨_, hmem, hd⟩
    | listed hmem hinner hd => exact .inr ⟨_, hmem, _, hinner, hd⟩
  · rintro (rfl | ⟨⟨key, v⟩, hmem, hd⟩)
    · exact .refl _
    · cases v with
      | dict inner => exact .item hmem hd
      | list values =>
        obtain ⟨inner, hinner, hd⟩ := hd
        exact .listed hmem hinner hd
      | text s => exact False.elim hd
      | scalar a => exact False.elim hd
      | tuple values => exact False.elim hd

/-- What the check has to find in the value of a key. -/
def ValuePasses (v : Payload σ) : Prop := ∀ d, Enters d v → Clean d

theorem passes_iff {items : Items σ} : Passes items ↔ Clean items ∧ ∀ item ∈ items, ValuePasses item.2 := by
  constructor
  · intro h
    exact ⟨h items (.refl items), fun item hitem d hd => h d (visited_iff.mpr (.inr ⟨item, hitem, hd⟩))⟩
  · rintro ⟨hclean, hvalues⟩ d hd
    obtain rfl | ⟨item, hitem, hd⟩ := visited_iff.mp hd
    · exact hclean
    · exact hvalues item hitem d hd

/-- One more item. -/
theorem passes_cons {item : String × Payload σ} {items : Items σ} :
    Passes (item :: items) ↔ isSensitive item.1 = false ∧ ValuePasses item.2 ∧ Passes items := by
  simp only [passes_iff, Clean, List.forall_mem_cons]
  tauto

/-- One more value of a list. -/
theorem listed_cons {v : Payload σ} {values : List (Payload σ)} :
    ValuePasses (.list (v :: values)) ↔ (∀ inner, v = .dict inner → Passes inner) ∧ ValuePasses (.list values) := by
  simp only [ValuePasses, Enters, List.mem_cons, Passes]
  constructor
  · intro h
    refine ⟨fun inner hv d hd => h d ⟨inner, .inl hv.symm, hd⟩, ?_⟩
    rintro d ⟨inner, hmem, hd⟩
    exact h d ⟨inner, .inr hmem, hd⟩
  · rintro ⟨hhead, htail⟩ d ⟨inner, hinner | hinner, hd⟩
    · exact hhead inner hinner.symm d hd
    · exact htail d ⟨inner, hinner, hd⟩

mutual

/-- **The check passes** exactly when the dictionaries it visits have no sensitive key. -/
theorem validateNoSecrets_ok_iff : ∀ items : Items σ, validateNoSecrets items = .ok () ↔ Passes items
  | [] => by
    rw [validateNoSecrets, passes_iff]
    simp [Clean]
  | item :: items => by
    rw [validateNoSecrets, passes_cons, bind_eq_ok]
    simp only [raiseIf_eq_ok, bind_eq_ok, exists_const, Bool.not_eq_true, validateValue_ok_iff item.2,
      validateNoSecrets_ok_iff items]

theorem validateValue_ok_iff : ∀ v : Payload σ, validateValue v = .ok () ↔ ValuePasses v
  | .dict items => by
    simp only [validateValue, validateNoSecrets_ok_iff items]
    exact Iff.rfl
  | .list values => by
    simp only [validateValue]
    exact validateListed_ok_iff values
  | .text s => by simp [validateValue, ValuePasses, Enters]
  | .scalar a => by simp [validateValue, ValuePasses, Enters]
  | .tuple values => by simp [validateValue, ValuePasses, Enters]

theorem validateListed_ok_iff : ∀ values : List (Payload σ), validateListed values = .ok () ↔ ValuePasses (.list values)
  | [] => by simp [validateListed, ValuePasses, Enters]
  | .dict items :: values => by
    rw [validateListed, listed_cons, bind_eq_ok]
    simp only [exists_const, validateNoSecrets_ok_iff items, validateListed_ok_iff values, Payload.dict.injEq,
      forall_eq']
  | .list inner :: values => by
    rw [listed_cons]
    simp [validateListed, validateListed_ok_iff values]
  | .text s :: values => by
    rw [listed_cons]
    simp [validateListed, validateListed_ok_iff values]
  | .scalar a :: values => by
    rw [listed_cons]
    simp [validateListed, validateListed_ok_iff values]
  | .tuple inner :: values => by
    rw [listed_cons]
    simp [validateListed, validateListed_ok_iff values]

end

theorem of_raiseIf_error {p : Prop} [Decidable p] {e e' : String} (h : raiseIf p e = .error e') : p ∧ e' = e := by
  unfold raiseIf at h
  split_ifs at h with hp
  exact ⟨hp, (Except.error.inj h).symm⟩

/-- The dictionary of the sensitive key that an error is about. -/
def Names (e : String) (d : Items σ) : Prop := ∃ item ∈ d, isSensitive item.1 = true ∧ e = sensitiveText item.1

theorem enters_cons {e : String} {v : Payload σ} {values : List (Payload σ)}
    (h : ∃ d, Enters d (.list values) ∧ Names e d) : ∃ d, Enters d (.list (v :: values)) ∧ Names e d := by
  obtain ⟨d, ⟨inner, hinner, hd⟩, hnames⟩ := h
  exact ⟨d, ⟨inner, List.mem_cons_of_mem _ hinner, hd⟩, hnames⟩

mutual

/-- **An error** is about a sensitive key of a dictionary that the check visits. -/
theorem validateNoSecrets_error : ∀ {items : Items σ} {e : String}, validateNoSecrets items = .error e →
    ∃ d, Visited d items ∧ Names e d
  | [], e, h => by
    rw [validateNoSecrets] at h
    cases h
  | item :: items, e, h => by
    rw [validateNoSecrets] at h
    obtain h | ⟨u, -, h⟩ := bind_eq_error.mp h
    · obtain ⟨hkey, rfl⟩ := of_raiseIf_error h
      exact ⟨_, .refl _, item, List.mem_cons_self, hkey, rfl⟩
    obtain h | ⟨u, -, h⟩ := bind_eq_error.mp h
    · obtain ⟨d, hd, hnames⟩ := validateValue_error h
      exact ⟨d, visited_iff.mpr (.inr ⟨item, List.mem_cons_self, hd⟩), hnames⟩
    · obtain ⟨d, hd, hnames⟩ := validateNoSecrets_error h
      obtain rfl | ⟨item', hitem, hd⟩ := visited_iff.mp hd
      · obtain ⟨item', hitem, hnames⟩ := hnames
        exact ⟨_, .refl _, item', List.mem_cons_of_mem _ hitem, hnames⟩
      · exact ⟨d, visited_iff.mpr (.inr ⟨item', List.mem_cons_of_mem _ hitem, hd⟩), hnames⟩

theorem validateValue_error : ∀ {v : Payload σ} {e : String}, validateValue v = .error e → ∃ d, Enters d v ∧ Names e d
  | .dict items, e, h => by
    simp only [validateValue] at h
    exact validateNoSecrets_error h
  | .list values, e, h => by
    simp only [validateValue] at h
    exact validateListed_error h
  | .text s, e, h => by
    simp only [validateValue] at h
    cases h
  | .scalar a, e, h => by
    simp only [validateValue] at h
    cases h
  | .tuple values, e, h => by
    simp only [validateValue] at h
    cases h

theorem validateListed_error : ∀ {values : List (Payload σ)} {e : String}, validateListed values = .error e →
    ∃ d, Enters d (.list values) ∧ Names e d
  | [], e, h => by
    rw [validateListed] at h
    cases h
  | .dict items :: values, e, h => by
    rw [validateListed] at h
    obtain h | ⟨u, -, h⟩ := bind_eq_error.mp h
    · obtain ⟨d, hd, hnames⟩ := validateNoSecrets_error h
      exact ⟨d, ⟨items, List.mem_cons_self, hd⟩, hnames⟩
    · exact enters_cons (validateListed_error h)
  | .list inner :: values, e, h => by
    simp only [validateListed] at h
    exact enters_cons (validateListed_error h)
  | .text s :: values, e, h => by
    simp only [validateListed] at h
    exact enters_cons (validateListed_error h)
  | .scalar a :: values, e, h => by
    simp only [validateListed] at h
    exact enters_cons (validateListed_error h)
  | .tuple inner :: values, e, h => by
    simp only [validateListed] at h
    exact enters_cons (validateListed_error h)

end

/-! ### The check and its purpose -/

/-- **The check is right** unless every sensitive key is out of its sight. -/
theorem accepts_iff (items : Items σ) :
    (validateNoSecrets items = .ok () ↔ Secretless (.dict items)) ↔
      (Secretless (.dict items) ∨ ∃ d, Visited d items ∧ ¬ Clean d) := by
  rw [validateNoSecrets_ok_iff, Passes]
  have hsound : Secretless (.dict items) → ∀ d, Visited d items → Clean d := fun h d hd => h d hd.within
  constructor
  · intro h
    by_cases hsecretless : Secretless (.dict items)
    · exact .inl hsecretless
    · refine .inr ?_
      have hnot := mt h.mp hsecretless
      push Not at hnot
      exact hnot
  · rintro (h | ⟨d, hd, hclean⟩)
    · exact iff_of_true (hsound h) h
    · exact iff_of_false (fun h => hclean (h d hd)) fun h => hclean (hsound h d hd)

end AlphaAlgo.Events
