import AlphaAlgo.Events.Secrets

/-!
# Redaction — the payloads of the structured log

`redact` walks dictionaries, lists and tuples; the value under a sensitive key becomes the mark.

* `get_redact`: what stands on a path without sensitive keys, before and after.
* `redacts`: the result has the structure of the value, tuples as lists, with a mark under every sensitive key.
* `guarded_iff`: both walkers do what they are for exactly where no sensitive key stands only out of the check's sight.
-/

namespace AlphaAlgo.Observability

open Events

/-- `SENSITIVE_KEY_PARTS` of the log. -/
def sensitiveKeyParts : List String :=
  ["password", "passwd", "secret", "token", "api_key", "apikey", "authorization", "credential", "private_key", "refresh",
    "cookie", "session_id"]

def isSensitiveKey (key : String) : Bool := holdsPart sensitiveKeyParts key

def redacted : String := "[REDACTED]"

variable {σ : Type*}

mutual

def redact : Payload σ → Option String → Payload σ
  | .dict items, key => if key.any isSensitiveKey then .text redacted else .dict (redactItems items)
  | .list values, key => if key.any isSensitiveKey then .text redacted else .list (redactAll values)
  | .tuple values, key => if key.any isSensitiveKey then .text redacted else .list (redactAll values)
  | .text s, key => if key.any isSensitiveKey then .text redacted else .text s
  | .scalar a, key => if key.any isSensitiveKey then .text redacted else .scalar a

def redactItems : Items σ → Items σ
  | [] => []
  | (key, value) :: items => (key, redact value (some key)) :: redactItems items

def redactAll : List (Payload σ) → List (Payload σ)
  | [] => []
  | value :: values => redact value none :: redactAll values

end

/-- The two packages look for the same words. -/
theorem isSensitiveKey_eq (key : String) : isSensitiveKey key = isSensitive key := by
  have hperm : sensitiveKeyParts.Perm Events.sensitiveKeyParts := by decide +kernel
  rw [isSensitiveKey, isSensitive, holdsPart, holdsPart, Bool.eq_iff_iff, List.any_eq_true, List.any_eq_true]
  simp only [hperm.mem_iff]

/-! ### Paths -/

/-- A step into a dictionary or into a list or tuple. -/
inductive Step where
  | key (k : String)
  | index (i : ℕ)
deriving DecidableEq

def Step.key? : Step → Option String
  | .key k => some k
  | .index _ => none

def child : Payload σ → Step → Option (Payload σ)
  | .dict items, .key k => (items.find? fun item => item.1 = k).map Prod.snd
  | .list values, .index i => values[i]?
  | .tuple values, .index i => values[i]?
  | _, _ => none

/-- What stands at a path. -/
def get (p : Payload σ) (path : List Step) : Option (Payload σ) :=
  path.foldl (fun found step => found.bind fun q => child q step) (some p)

/-- What a value is, without what stands in it. -/
inductive Node (σ : Type*) where
  | text (s : String)
  | scalar (a : σ)
  | dict (keys : List String)
  | list (length : ℕ)
  | tuple (length : ℕ)

def node : Payload σ → Node σ
  | .text s => .text s
  | .scalar a => .scalar a
  | .dict items => .dict (items.map Prod.fst)
  | .list values => .list values.length
  | .tuple values => .tuple values.length

/-- A tuple as a list. -/
def Node.listed : Node σ → Node σ
  | .tuple n => .list n
  | n => n

/-- A path through keys that are not sensitive. -/
def Open (path : List Step) : Prop := ∀ k, Step.key k ∈ path → isSensitiveKey k = false

/-- What redaction is for. -/
structure Redacts (p r : Payload σ) : Prop where
  kept : ∀ path, Open path → (get r path).map node = (get p path).map fun q => (node q).listed
  marked : ∀ path k, Open path → isSensitiveKey k = true →
    get r (path ++ [.key k]) = (get p (path ++ [.key k])).map fun _ => .text redacted

theorem get_concat (p : Payload σ) (path : List Step) (step : Step) :
    get p (path ++ [step]) = (get p path).bind fun q => child q step := by
  rw [get, List.foldl_append]
  rfl

/-! ### The result -/

theorem redactItems_eq_map : ∀ items : Items σ,
    redactItems items = items.map fun item => (item.1, redact item.2 (some item.1))
  | [] => by rw [redactItems, List.map_nil]
  | (key, value) :: items => by rw [redactItems, redactItems_eq_map items, List.map_cons]

theorem redactAll_eq_map : ∀ values : List (Payload σ), redactAll values = values.map fun value => redact value none
  | [] => by rw [redactAll, List.map_nil]
  | value :: values => by rw [redactAll, redactAll_eq_map values, List.map_cons]

/-- Under a key that is not sensitive a value is redacted as it is without a key. -/
theorem redact_of_open {key : Option String} (h : key.any isSensitiveKey = false) (p : Payload σ) :
    redact p key = redact p none := by
  cases p <;> simp [redact, h]

theorem redact_of_sensitive {key : Option String} (h : key.any isSensitiveKey = true) (p : Payload σ) :
    redact p key = .text redacted := by
  cases p <;> simp [redact, h]

/-- **A step** into the result leads to the redacted value. -/
theorem child_redact (p : Payload σ) (step : Step) :
    child (redact p none) step = (child p step).map fun q => redact q step.key? := by
  cases p with
  | text s => simp [redact, child]
  | scalar a => simp [redact, child]
  | dict items =>
    cases step with
    | index i => simp [redact, child]
    | key k =>
      simp only [redact, Option.any_none, Bool.false_eq_true, if_false, redactItems_eq_map, child, List.find?_map,
        Option.map_map, Function.comp_def, Step.key?]
      cases hfind : items.find? fun item => decide (item.1 = k) with
      | none => rfl
      | some item =>
        have hkey : item.1 = k := by simpa using List.find?_some hfind
        simp [hkey]
  | list values =>
    cases step with
    | key k => simp [redact, child]
    | index i => simp [redact, child, redactAll_eq_map, Step.key?]
  | tuple values =>
    cases step with
    | key k => simp [redact, child]
    | index i => simp [redact, child, redactAll_eq_map, Step.key?]

/-- **What stands on an open path** is redacted where it stands. -/
theorem get_redact {path : List Step} (hopen : Open path) (p : Payload σ) :
    get (redact p none) path = (get p path).map fun q => redact q none := by
  induction path using List.reverseRecOn with
  | nil => rfl
  | append_singleton path step ih =>
    have hbefore : Open path := fun k hk => hopen k (List.mem_append_left _ hk)
    have hstep : step.key?.any isSensitiveKey = false := by
      cases step with
      | index i => rfl
      | key k =>
        rw [Step.key?, Option.any_some]
        exact hopen k (List.mem_append_right _ (List.mem_singleton_self _))
    rw [get_concat, get_concat, ih hbefore]
    cases get p path with
    | none => rfl
    | some q => simp only [Option.map_some, Option.bind_some, child_redact, redact_of_open hstep]

/-- A tuple becomes a list, everything else stays what it is. -/
theorem node_redact (p : Payload σ) : node (redact p none) = (node p).listed := by
  cases p with
  | text s => simp [redact, node, Node.listed]
  | scalar a => simp [redact, node, Node.listed]
  | dict items => simp [redact, node, Node.listed, redactItems_eq_map, Function.comp_def]
  | list values => simp [redact, node, Node.listed, redactAll_eq_map]
  | tuple values => simp [redact, node, Node.listed, redactAll_eq_map]

/-- **Redaction** keeps the structure and marks what stands under a sensitive key. -/
theorem redacts (p : Payload σ) : Redacts p (redact p none) where
  kept path hopen := by
    rw [get_redact hopen, Option.map_map]
    simp only [Function.comp_def, node_redact]
  marked path k hopen hk := by
    rw [get_concat, get_concat, get_redact hopen]
    cases get p path with
    | none => rfl
    | some q =>
      have hkey : (Step.key k).key?.any isSensitiveKey = true := by rw [Step.key?, Option.any_some, hk]
      simp only [Option.map_some, Option.bind_some, child_redact, redact_of_sensitive hkey]

/-- **Both walkers** do what they are for exactly where no sensitive key stands only out of the check's sight. -/
theorem guarded_iff (items : Items σ) :
    ((validateNoSecrets items = .ok () ↔ Secretless (.dict items)) ∧ Redacts (.dict items) (redact (.dict items) none)) ↔
      (Secretless (.dict items) ∨ ∃ d, Visited d items ∧ ¬ Clean d) := by
  rw [and_iff_left (redacts _)]
  exact accepts_iff items

/-- A key in a dictionary in a tuple. -/
def sampleItems : Items ℤ := [("legs", .tuple [.dict [("api_key", .text "k")]])]

/-- The check does not see into a tuple. -/
theorem not_guarded : ¬ ((validateNoSecrets sampleItems = .ok () ↔ Secretless (.dict sampleItems)) ∧
    Redacts (.dict sampleItems) (redact (.dict sampleItems) none)) := by
  rintro ⟨hiff, -⟩
  have hsecretless : Secretless (.dict sampleItems) := by
    refine hiff.mp ?_
    rw [sampleItems, validateNoSecrets]
    simp only [validateValue, validateNoSecrets]
    decide +kernel
  have hclean := hsecretless [("api_key", .text "k")] (.item List.mem_cons_self (.tupled List.mem_cons_self (.refl _)))
  have hkey : isSensitive "api_key" = true := by decide +kernel
  rw [hclean _ List.mem_cons_self] at hkey
  exact Bool.noConfusion hkey

end AlphaAlgo.Observability
