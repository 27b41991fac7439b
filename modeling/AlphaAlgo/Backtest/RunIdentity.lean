import AlphaAlgo.Backtest.Hashing

/-!
# RunIdentity — the identity of a run that is stored

`canonicalString` writes the fields of an identity as `name=value` between `|`, the universe sorted.  A field may be
absent, which is written as `None`.

* `canonical_inj`: two values of one field with one text are the same value, where an absent text is told from `None`.
* `universe_perm`: one text of two universes, whose items have no unit separator.
* `canonicalString_inj`: the identities that share their string, with as many `|` in each field.
-/

namespace AlphaAlgo.Persistence

open Hashing Joining Loop

/-! ### Identities -/

/-- What the package raises, and what `astimezone` raises for an instant out of range in UTC. -/
inductive IdentityError where
  | persistence (text : String)
  | overflowError
deriving DecidableEq

/-- The arguments of the constructor, decimals finite. -/
structure IdentityFields where
  datasetId : String
  source : String
  inputSha256 : String
  simulatorVersion : String := "P16-1"
  strategyIdentity : Option String := none
  strategyVersion : Option String := none
  configurationHash : Option String := none
  initialCapital : Option Dec := none
  commissionPerFill : Option Dec := none
  slippageBps : Option Dec := none
  riskFreeRatePerPeriod : Option Dec := none
  periodsPerYear : Option ℕ := none
  seed : Option String := none
  startAt : Option DateTime := none
  endAt : Option DateTime := none
  instrumentUniverse : List String := []

/-- `value is not None and value < 0`. -/
def checkNonNegative (name : String) (value : Option Dec) : Except IdentityError Unit :=
  raiseIf (∃ d ∈ value, d.val < 0) (.persistence (name ++ " must be a non-negative finite Decimal or None"))

def checkAware (name : String) (value : Option DateTime) : Except IdentityError Unit :=
  raiseIf (∃ t ∈ value, t.aware = false) (.persistence (name ++ " must be a timezone-aware datetime or None"))

/-- `__post_init__`. -/
def checkIdentity (f : IdentityFields) : Except IdentityError Unit := do
  raiseIf (f.datasetId = "") (.persistence "dataset_id must be a non-empty string")
  raiseIf (f.source = "") (.persistence "source must be a non-empty string")
  raiseIf (f.inputSha256.length ≠ 64) (.persistence "input_sha256 must be a 64-char hex string")
  raiseIf (f.simulatorVersion = "") (.persistence "simulator_version must be a non-empty string")
  raiseIf (∃ d ∈ f.initialCapital, d.val ≤ 0) (.persistence "initial_capital must be a positive finite Decimal or None")
  checkNonNegative "commission_per_fill" f.commissionPerFill
  checkNonNegative "slippage_bps" f.slippageBps
  checkNonNegative "risk_free_rate_per_period" f.riskFreeRatePerPeriod
  raiseIf (∃ n ∈ f.periodsPerYear, n < 1) (.persistence "periods_per_year must be a positive int or None")
  checkAware "start_at" f.startAt
  checkAware "end_at" f.endAt

/-- An identity that the constructor accepts. -/
structure BacktestRunIdentity extends IdentityFields where
  accepted : checkIdentity toIdentityFields = .ok ()

/-! ### The canonical string -/

/-- `_canonical`. -/
def canonical : Value → Except IdentityError String
  | .none => .ok "None"
  | .decimal d => .ok d.str
  | .datetime t =>
    match t.utcText with
    | some s => .ok s
    | Option.none => .error .overflowError
  | .int n => .ok (String.ofList (Dec.digits n))
  | .str s => .ok s
  | .uuid _ => .error (.persistence "unsupported identity value type: UUID")
  | .timeframe _ => .error (.persistence "unsupported identity value type: CandleTimeframe")

/-- `"\x1f".join(sorted(self.instrument_universe))`. -/
def universeText (items : List String) : String := "\x1f".intercalate (items.mergeSort (· ≤ ·))

def named (name text : String) : String := name ++ "=" ++ text

/-- The names of the fields, in order. -/
def identityNames : List String :=
  ["dataset_id", "source", "input_sha256", "simulator_version", "strategy_identity", "strategy_version",
    "configuration_hash", "initial_capital", "commission_per_fill", "slippage_bps", "risk_free_rate_per_period",
    "periods_per_year", "seed", "start_at", "end_at", "instrument_universe"]

namespace IdentityFields

/-- The values of the fields, in order. -/
def values (f : IdentityFields) : List Value :=
  [.str f.datasetId, .str f.source, .str f.inputSha256, .str f.simulatorVersion, Record.optional .str f.strategyIdentity,
    Record.optional .str f.strategyVersion, Record.optional .str f.configurationHash,
    Record.optional .decimal f.initialCapital, Record.optional .decimal f.commissionPerFill,
    Record.optional .decimal f.slippageBps, Record.optional .decimal f.riskFreeRatePerPeriod,
    Record.optional .int f.periodsPerYear, Record.optional .str f.seed, Record.optional .datetime f.startAt,
    Record.optional .datetime f.endAt, .str (universeText f.instrumentUniverse)]

/-- `canonical_string`. -/
def canonicalString (f : IdentityFields) : Except IdentityError String := do
  let texts ← f.values.mapM canonical
  return "|".intercalate (List.zipWith named identityNames texts)

end IdentityFields

/-! ### What the string determines -/

theorem canonical_datetime {t : DateTime} {s : String} (h : canonical (.datetime t) = .ok s) : t.utcText = some s := by
  cases htext : t.utcText with
  | none => simp [canonical, htext] at h
  | some s' =>
    simp only [canonical, htext] at h
    rw [Except.ok.inj h]

theorem canonical_count {v : Value} {s : String} (h : canonical v = .ok s) : s.toList.count '|' = v.count '|' := by
  refine canonicalValue_count (by decide) (v := v) ?_
  cases v with
  | datetime t =>
    rw [canonicalValue, canonical_datetime h]
  | uuid u => cases h
  | timeframe t => cases h
  | _ =>
    cases h
    rfl

/-- Two values have one text. -/
def OneText (v v' : Value) : Prop := ∃ s, canonical v = .ok s ∧ canonical v' = .ok s

section Fields

variable {n n' : Option ℕ} {d d' : Option Dec} {t t' : Option DateTime} {a a' : Option String}

/-- An absent text is told from the text `None`. -/
def ToldApart (a a' : Option String) : Prop := (a = some "None" → a' ≠ none) ∧ (a' = some "None" → a ≠ none)

theorem text_inj (h : OneText (Record.optional .str a) (Record.optional .str a')) (hnone : ToldApart a a') : a = a' := by
  obtain ⟨s, hs, hs'⟩ := h
  cases a with
  | none =>
    cases a' with
    | none => rfl
    | some x' =>
      have hx : x' = "None" := Except.ok.inj (hs'.trans hs.symm)
      exact absurd rfl (hnone.2 (congrArg some hx))
  | some x =>
    cases a' with
    | none =>
      have hx : x = "None" := Except.ok.inj (hs.trans hs'.symm)
      exact absurd rfl (hnone.1 (congrArg some hx))
    | some x' => exact congrArg some (Except.ok.inj (hs.trans hs'.symm))

theorem decimal_inj (h : OneText (Record.optional .decimal d) (Record.optional .decimal d')) :
    d.map Dec.val = d'.map Dec.val := by
  obtain ⟨s, hs, hs'⟩ := h
  cases d with
  | none =>
    cases d' with
    | none => rfl
    | some x' => exact absurd (Except.ok.inj (hs'.trans hs.symm)) (str_ne_none x')
  | some x =>
    cases d' with
    | none => exact absurd (Except.ok.inj (hs.trans hs'.symm)) (str_ne_none x)
    | some x' => exact congrArg some (Dec.val_of_str (Except.ok.inj (hs.trans hs'.symm)))

theorem int_inj (h : OneText (Record.optional .int n) (Record.optional .int n')) : n = n' := by
  obtain ⟨s, hs, hs'⟩ := h
  cases n with
  | none =>
    cases n' with
    | none => rfl
    | some x' => exact absurd (Except.ok.inj (hs'.trans hs.symm)) (digits_ne_none x')
  | some x =>
    cases n' with
    | none => exact absurd (Except.ok.inj (hs.trans hs'.symm)) (digits_ne_none x)
    | some x' => exact congrArg some (digits_inj (String.ofList_inj.mp (Except.ok.inj (hs.trans hs'.symm))))

theorem utcText_ne_none (u : DateTime) : u.utcText ≠ some "None" := by
  intro h
  obtain ⟨w, -, hw⟩ := Option.map_eq_some_iff.mp h
  have hdash : '-' ∈ w.isoMicros.toList := by
    rw [DateTime.toList_isoMicros]
    simp
  rw [hw] at hdash
  exact absurd hdash (by decide)

theorem instant_inj (h : OneText (Record.optional .datetime t) (Record.optional .datetime t')) :
    t.map DateTime.instant = t'.map DateTime.instant := by
  obtain ⟨s, hs, hs'⟩ := h
  cases t with
  | none =>
    cases t' with
    | none => rfl
    | some x' =>
      cases hs
      exact absurd (canonical_datetime hs') (utcText_ne_none x')
  | some x =>
    cases t' with
    | none =>
      cases hs'
      exact absurd (canonical_datetime hs) (utcText_ne_none x)
    | some x' => exact congrArg some (DateTime.utcText_inj (canonical_datetime hs) (canonical_datetime hs'))

end Fields

/-! ### Universes -/

section Universe

variable {u u' : List String}

/-- The items of a text with one unit separator fewer. -/
theorem splitOn_universeText (hitems : ∀ x ∈ u, '\x1f' ∉ x.toList) (hne : u ≠ []) :
    (universeText u).toList.splitOn '\x1f' = (u.mergeSort (· ≤ ·)).map String.toList := by
  rw [universeText, String.toList_intercalate]
  refine List.splitOn_intercalate '\x1f' (fun l hl => ?_) ?_
  · obtain ⟨x, hx, rfl⟩ := List.mem_map.mp hl
    exact hitems x (List.mem_mergeSort.mp hx)
  · rw [ne_eq, List.map_eq_nil_iff]
    intro hnil
    exact hne (List.perm_nil.mp (hnil ▸ (List.mergeSort_perm u _).symm))

theorem universeText_ne_empty (hitems : ∀ x ∈ u, '\x1f' ∉ x.toList) (hne : u ≠ []) (hblank : u ≠ [""]) :
    universeText u ≠ "" := by
  intro h
  have hsplit := splitOn_universeText hitems hne
  rw [h] at hsplit
  have hone : u.mergeSort (· ≤ ·) = [""] := by
    refine List.map_injective_iff.mpr (fun _ _ => String.toList_inj.mp) ?_
    rw [← hsplit]
    rfl
  exact hblank (List.perm_singleton.mp (hone ▸ (List.mergeSort_perm u _).symm))

/-- **One text of two universes**: the same items. -/
theorem universe_perm (hitems : ∀ x ∈ u, '\x1f' ∉ x.toList) (hitems' : ∀ x ∈ u', '\x1f' ∉ x.toList)
    (hblank : u = [""] → u' ≠ []) (hblank' : u' = [""] → u ≠ []) (h : universeText u = universeText u') :
    u.Perm u' := by
  by_cases hne : u = []
  · by_cases hne' : u' = []
    · rw [hne, hne']
    · have hempty : universeText u' = "" := by
        rw [← h, hne]
        simp [universeText]
      exact absurd hempty (universeText_ne_empty hitems' hne' fun hone => hblank' hone hne)
  · by_cases hne' : u' = []
    · have hempty : universeText u = "" := by
        rw [h, hne']
        simp [universeText]
      exact absurd hempty (universeText_ne_empty hitems hne fun hone => hblank hone hne')
    · have hsplit := splitOn_universeText hitems hne
      rw [h, splitOn_universeText hitems' hne'] at hsplit
      have hsorted := List.map_injective_iff.mpr (fun _ _ => String.toList_inj.mp) hsplit
      exact (List.mergeSort_perm u _).symm.trans (hsorted ▸ List.mergeSort_perm u' _)

end Universe

/-! ### Identities that share their string -/

/-- The fields are the same, decimals by their value, instants by their point of time, the universe up to its order. -/
structure SameIdentity (f g : IdentityFields) : Prop where
  datasetId : f.datasetId = g.datasetId
  source : f.source = g.source
  inputSha256 : f.inputSha256 = g.inputSha256
  simulatorVersion : f.simulatorVersion = g.simulatorVersion
  strategyIdentity : f.strategyIdentity = g.strategyIdentity
  strategyVersion : f.strategyVersion = g.strategyVersion
  configurationHash : f.configurationHash = g.configurationHash
  initialCapital : f.initialCapital.map Dec.val = g.initialCapital.map Dec.val
  commissionPerFill : f.commissionPerFill.map Dec.val = g.commissionPerFill.map Dec.val
  slippageBps : f.slippageBps.map Dec.val = g.slippageBps.map Dec.val
  riskFreeRatePerPeriod : f.riskFreeRatePerPeriod.map Dec.val = g.riskFreeRatePerPeriod.map Dec.val
  periodsPerYear : f.periodsPerYear = g.periodsPerYear
  seed : f.seed = g.seed
  startAt : f.startAt.map DateTime.instant = g.startAt.map DateTime.instant
  endAt : f.endAt.map DateTime.instant = g.endAt.map DateTime.instant
  instrumentUniverse : f.instrumentUniverse.Perm g.instrumentUniverse

/-- The two identities have as many `|` in each field, no absent text against the text `None`, no unit separator in an
item of a universe and no empty universe against one of an empty text. -/
structure Unambiguous (f g : IdentityFields) : Prop where
  bars : f.values.map (Value.count '|') = g.values.map (Value.count '|')
  strategyIdentity : ToldApart f.strategyIdentity g.strategyIdentity
  strategyVersion : ToldApart f.strategyVersion g.strategyVersion
  configurationHash : ToldApart f.configurationHash g.configurationHash
  seed : ToldApart f.seed g.seed
  items : ∀ x ∈ f.instrumentUniverse ++ g.instrumentUniverse, '\x1f' ∉ x.toList
  empty : (f.instrumentUniverse = [""] → g.instrumentUniverse ≠ []) ∧
    (g.instrumentUniverse = [""] → f.instrumentUniverse ≠ [])

theorem canonicalString_eq {f : IdentityFields} {s : String} (h : f.canonicalString = .ok s) :
    ∃ ts, List.Forall₂ (fun v s => canonical v = .ok s) f.values ts ∧
      s = "|".intercalate (List.zipWith named identityNames ts) := by
  obtain ⟨ts, hts, h⟩ := bind_eq_ok.mp h
  exact ⟨ts, mapM_eq_ok_iff.mp hts, (Except.ok.inj h).symm⟩

theorem counts_of_values {vs : List Value} {ts : List String} (h : List.Forall₂ (fun v s => canonical v = .ok s) vs ts) :
    ts.map (fun s => s.toList.count '|') = vs.map (Value.count '|') := by
  induction h with
  | nil => rfl
  | cons hv _ ih => rw [List.map_cons, List.map_cons, ih, canonical_count hv]

/-- The number of `|` in a field of a known name. -/
theorem counts_named : ∀ {names ts ts' : List String},
    ts.map (fun s => s.toList.count '|') = ts'.map (fun s => s.toList.count '|') →
      ((List.zipWith named names ts).map String.toList).map (List.count '|') =
        ((List.zipWith named names ts').map String.toList).map (List.count '|')
  | [], _, _, _ => by simp
  | _ :: _, [], [], _ => rfl
  | _ :: _, [], _ :: _, h => by cases h
  | _ :: _, _ :: _, [], h => by cases h
  | name :: names, s :: ts, s' :: ts', h => by
    obtain ⟨hfirst, hrest⟩ := List.cons.inj h
    have hcount : (named name s).toList.count '|' = (named name s').toList.count '|' := by
      simp only [named, String.toList_append, List.count_append]
      exact congrArg _ hfirst
    have ih := @counts_named names ts ts' hrest
    simp only [List.zipWith_cons_cons, List.map_cons] at ih ⊢
    rw [hcount, ih]

/-- The texts of fields with known names. -/
theorem named_inj : ∀ {names ts ts' : List String}, ts.length = names.length → ts'.length = names.length →
    List.zipWith named names ts =
      List.zipWith named names ts' → ts = ts'
  | [], ts, ts', h, h', _ => by rw [List.length_eq_zero_iff.mp h, List.length_eq_zero_iff.mp h']
  | name :: names, s :: ts, s' :: ts', h, h', heq => by
    obtain ⟨hfirst, hrest⟩ := List.cons.inj heq
    have hlist := congrArg String.toList hfirst
    simp only [named, String.toList_append] at hlist
    have hs : s = s' := String.toList_inj.mp (List.append_cancel_left hlist)
    rw [hs, named_inj (by simpa using h) (by simpa using h') hrest]

theorem oneText_of_texts {vs : List Value} : ∀ {vs' : List Value} {ts : List String},
    List.Forall₂ (fun v s => canonical v = .ok s) vs ts → List.Forall₂ (fun v s => canonical v = .ok s) vs' ts →
      List.Forall₂ OneText vs vs' := by
  induction vs with
  | nil =>
    intro vs' ts h h'
    cases h
    cases h'
    exact .nil
  | cons v vs ih =>
    intro vs' ts h h'
    cases h with
    | cons hv h =>
      cases h' with
      | cons hv' h' => exact .cons ⟨_, hv, hv'⟩ (ih h h')

theorem str_inj {x x' : String} (h : OneText (.str x) (.str x')) : x = x' := by
  obtain ⟨s, hs, hs'⟩ := h
  exact Except.ok.inj (hs.trans hs'.symm)

/-- **Identities that share their string** are the same, where the string is unambiguous. -/
theorem canonicalString_inj {i j : BacktestRunIdentity} {s : String} (hi : i.canonicalString = .ok s)
    (hj : j.canonicalString = .ok s) (h : Unambiguous i.toIdentityFields j.toIdentityFields) :
    SameIdentity i.toIdentityFields j.toIdentityFields := by
  obtain ⟨ts, hts, rfl⟩ := canonicalString_eq hi
  obtain ⟨ts', hts', htext⟩ := canonicalString_eq hj
  have hcounts : ts.map (fun s => s.toList.count '|') = ts'.map fun s => s.toList.count '|' := by
    rw [counts_of_values hts, counts_of_values hts', h.bars]
  have hlist := congrArg String.toList htext
  rw [String.toList_intercalate, String.toList_intercalate] at hlist
  have hnamed := List.map_injective_iff.mpr (fun _ _ => String.toList_inj.mp)
    (intercalate_inj (c := '|') (counts_named hcounts) hlist)
  obtain rfl : ts = ts' := named_inj hts.length_eq.symm hts'.length_eq.symm hnamed
  have hall := oneText_of_texts hts hts'
  simp only [IdentityFields.values, List.forall₂_cons] at hall
  obtain ⟨h₁, h₂, h₃, h₄, h₅, h₆, h₇, h₈, h₉, h₁₀, h₁₁, h₁₂, h₁₃, h₁₄, h₁₅, h₁₆, -⟩ := hall
  have hperm := universe_perm (fun x hx => h.items x (List.mem_append_left _ hx))
    (fun x hx => h.items x (List.mem_append_right _ hx)) h.empty.1 h.empty.2 (str_inj h₁₆)
  exact ⟨str_inj h₁, str_inj h₂, str_inj h₃, str_inj h₄, text_inj h₅ h.strategyIdentity, text_inj h₆ h.strategyVersion,
    text_inj h₇ h.configurationHash, decimal_inj h₈, decimal_inj h₉, decimal_inj h₁₀, decimal_inj h₁₁, int_inj h₁₂,
    text_inj h₁₃ h.seed, instant_inj h₁₄, instant_inj h₁₅, hperm⟩

/-! ### Two universes -/

/-- The identity of a run over a universe. -/
def identityOf (items : List String) : BacktestRunIdentity where
  datasetId := "infy"
  source := "csv"
  inputSha256 := String.ofList (List.replicate 64 '0')
  instrumentUniverse := items
  accepted := by
    simp only [checkIdentity, checkNonNegative, checkAware, bind_eq_ok, raiseIf_eq_ok, exists_const]
    simp
    rfl

/-- The order of the universe is not in the string. -/
theorem canonicalString_swapped : ∃ s, (identityOf ["A", "B"]).canonicalString = .ok s ∧
    (identityOf ["B", "A"]).canonicalString = .ok s := by
  have hsorted : universeText ["B", "A"] = universeText ["A", "B"] := by
    simp [universeText, List.mergeSort]
  have hvalues : (identityOf ["B", "A"]).values = (identityOf ["A", "B"]).values := by
    simp only [IdentityFields.values, identityOf, hsorted]
  obtain ⟨s, hs⟩ : ∃ s, (identityOf ["A", "B"]).canonicalString = .ok s := ⟨_, rfl⟩
  exact ⟨s, hs, by rw [IdentityFields.canonicalString, hvalues]; exact hs⟩

theorem canonicalString_inj_swapped : ∃ s, (identityOf ["A", "B"]).canonicalString = .ok s ∧
    (identityOf ["B", "A"]).canonicalString = .ok s ∧
      SameIdentity (identityOf ["A", "B"]).toIdentityFields (identityOf ["B", "A"]).toIdentityFields := by
  obtain ⟨s, hs, hs'⟩ := canonicalString_swapped
  refine ⟨s, hs, hs', canonicalString_inj hs hs' ⟨?_, ?_, ?_, ?_, ?_, ?_, ?_⟩⟩
  · simp only [IdentityFields.values, identityOf, universeText]
    simp [List.mergeSort]
  · exact ⟨nofun, nofun⟩
  · exact ⟨nofun, nofun⟩
  · exact ⟨nofun, nofun⟩
  · exact ⟨nofun, nofun⟩
  · decide
  · exact ⟨nofun, nofun⟩

theorem not_canonicalString_injective : ¬ ∀ (i j : BacktestRunIdentity) (s : String), i.canonicalString = .ok s →
    j.canonicalString = .ok s → i.toIdentityFields = j.toIdentityFields := by
  intro h
  obtain ⟨s, hs, hs'⟩ := canonicalString_swapped
  have hsame := h (identityOf ["B", "A"]) (identityOf ["A", "B"]) s hs' hs
  exact absurd (congrArg IdentityFields.instrumentUniverse hsame) (by decide)

end AlphaAlgo.Persistence
