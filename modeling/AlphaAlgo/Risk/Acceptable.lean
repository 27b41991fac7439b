import AlphaAlgo.Risk.Rules

/-!
# Acceptable — what the rules ask of a context

A rule passes when none of its tests answers yes or raises; the default rules pass in exactly the contexts that are
`Acceptable`.  The reasons of the default rules fit the columns of a decision, so a refusal is never an exception.

* `passes_iff_acceptable`: the default rules pass exactly in an acceptable context.
* `evaluate_approved`, `evaluate_rejected`: what a decision of the engine says about its rules.
-/

namespace AlphaAlgo.Risk

/-! ### Tests that answer no -/

/-- No test of the list rejects or raises. -/
def Clear (tests : List Test) : Prop := ∀ t ∈ tests, t.holds = .ok false

@[simp] theorem clear_nil : Clear [] ↔ True := by simp [Clear]

@[simp] theorem clear_cons (t : Test) (l : List Test) : Clear (t :: l) ↔ t.holds = .ok false ∧ Clear l := by
  simp [Clear]

@[simp] theorem clear_append (l l' : List Test) : Clear (l ++ l') ↔ Clear l ∧ Clear l' := by
  simp [Clear, or_imp, forall_and]

theorem firstFailing_none_iff (l : List Test) : firstFailing l = .ok none ↔ Clear l := by
  induction l with
  | nil => simp [firstFailing]
  | cons t l ih =>
    rw [clear_cons, ← ih, firstFailing]
    cases t.holds with
    | error e => simp
    | ok b => cases b <;> simp

theorem mem_of_firstFailing {l : List Test} {t : Test} (h : firstFailing l = .ok (some t)) : t ∈ l := by
  induction l with
  | nil => cases h
  | cons u l ih =>
    rw [firstFailing] at h
    cases hu : u.holds with
    | error e => rw [hu] at h; cases h
    | ok b =>
      rw [hu] at h
      cases b with
      | true => cases h; exact List.mem_cons_self
      | false => exact List.mem_cons_of_mem _ (ih h)

/-- The rule passes. -/
def RiskRule.Passes (r : RiskRule) (request : RiskAssessmentRequest) (c : RiskEvaluationContext) : Prop :=
  ∃ e, r.evaluate request c = .ok e ∧ e.passed = true

theorem passes_testRule {ruleId : String} {tests : RiskEvaluationContext → List Test}
    {request : RiskAssessmentRequest} {c : RiskEvaluationContext} :
    (testRule ruleId tests).Passes request c ↔ Clear (tests c) := by
  rw [← firstFailing_none_iff]
  simp only [RiskRule.Passes, testRule]
  cases firstFailing (tests c) with
  | error e => simp
  | ok o => cases o <;> simp [pass, reject]

@[simp] theorem either_eq_false {x y : Except Raised Bool} : either x y = .ok false ↔ x = .ok false ∧ y = .ok false := by
  unfold either
  split
  · simp
  · rename_i h
    exact ⟨fun hx => absurd hx h, fun hx => absurd hx.1 h⟩

@[simp] theorem less_eq_false {a b : Option Num} :
    less a b = .ok false ↔ ∃ x y, a = some x ∧ b = some y ∧ y ≤ x := by
  unfold less compare
  cases a <;> cases b <;> simp
  rename_i x y
  constructor
  · intro h
    cases hlt : x.lt? y with
    | error e => rw [hlt] at h; cases h
    | ok r =>
      rw [hlt] at h
      cases h
      exact Num.le_of_lt?_false hlt
  · intro h
    rw [Num.lt?_false_of_le h]
    rfl

@[simp] theorem atMost_eq_false {a b : Option Num} :
    atMost a b = .ok false ↔ ∃ x y, a = some x ∧ b = some y ∧ y < x := by
  unfold atMost compare
  cases a <;> cases b <;> simp
  rename_i x y
  constructor
  · intro h
    cases hle : x.le? y with
    | error e => rw [hle] at h; cases h
    | ok r =>
      rw [hle] at h
      cases h
      exact Num.lt_of_le?_false hle
  · intro h
    rw [Num.le?_false_of_lt h]
    rfl

@[simp] theorem compareCounts_eq_false {test : ℤ → ℤ → Bool} {a b : Option ℤ} :
    compareCounts test a b = .ok false ↔ ∃ n m, a = some n ∧ b = some m ∧ test n m = false := by
  unfold compareCounts
  cases a <;> cases b <;> simp

theorem anyNegative_eq_false {a b : Option ℤ} :
    anyNegative a b = .ok false ↔ ∃ n m, a = some n ∧ b = some m ∧ 0 ≤ n ∧ 0 ≤ m := by
  unfold anyNegative
  cases a <;> cases b <;> simp

theorem clear_ifSet {α : Type} {limit : Option α} {tests : List Test} :
    Clear (ifSet limit tests) ↔ ∀ x, limit = some x → Clear tests := by
  cases limit <;> simp [ifSet]

/-! ### What the rules ask for -/

theorem clear_requirePositivePair {x l : Option Num} {name limit : String} :
    Clear (requirePositivePair x l name limit) ↔
      ∃ a b, x = some a ∧ l = some b ∧ .fin 0 ≤ a ∧ .fin 0 < b := by
  unfold requirePositivePair
  cases x <;> cases l <;> simp [zero]

theorem clear_limitTests {x l : Option Num} {name limit code reason : String} :
    Clear (limitTests x l name limit code reason) ↔
      ∃ a b, x = some a ∧ l = some b ∧ .fin 0 ≤ a ∧ .fin 0 < b ∧ a ≤ b := by
  rw [limitTests, clear_append, clear_requirePositivePair]
  cases x <;> cases l <;> simp
  exact and_assoc

theorem clear_lossTests {x l : Option Num} {name limit code reason : String} :
    Clear (lossTests x l name limit code reason) ↔
      ∃ a b, x = some a ∧ l = some b ∧ .fin 0 < b ∧ b.neg .default < a := by
  unfold lossTests
  cases x <;> cases l <;> simp [zero]

theorem clear_countTests {n m : Option ℤ} {reached : ℤ → ℤ → Bool} {missing negative code reason : String} :
    Clear (countTests n m reached missing negative code reason) ↔
      ∀ b, m = some b → ∃ a, n = some a ∧ 0 ≤ a ∧ 0 ≤ b ∧ reached a b = false := by
  unfold countTests
  rw [clear_ifSet]
  cases n <;> cases m <;> simp [anyNegative_eq_false]
  exact and_assoc

theorem clear_accountTests {α : Type} {limit current : Option α} {exceeded : Except Raised Bool}
    {missing code reason : String} :
    Clear (accountTests limit current missing exceeded code reason) ↔
      ∀ x, limit = some x → (∃ a, current = some a) ∧ exceeded = .ok false := by
  unfold accountTests
  rw [clear_ifSet]
  cases current <;> simp

theorem pos_of_nonneg {a : Num} (h : Num.fin 0 ≤ a) (hne : a ≠ .fin 0) : Num.fin 0 < a := by
  obtain ⟨x, y, hx, hy, hle⟩ := Num.le_iff.mp h
  refine Num.lt_iff.mpr ⟨x, y, hx, hy, lt_of_le_of_ne hle ?_⟩
  rintro rfl
  cases hx
  cases a with
  | fin q =>
    refine hne ?_
    have : ((q : WithTop ℚ) : WithBot (WithTop ℚ)) = ((0 : ℚ) : WithTop ℚ) := Option.some.inj hy
    rw [WithTop.coe_eq_coe.mp (WithBot.coe_eq_coe.mp this)]
  | inf s => cases s <;> cases hy
  | nan => cases hy

theorem ne_zero_of_pos {a : Num} (h : Num.fin 0 < a) : a ≠ .fin 0 := by
  rintro rfl
  exact absurd (Num.fin_lt_fin.mp h) (lt_irrefl _)

theorem nonneg_of_pos {a : Num} (h : Num.fin 0 < a) : Num.fin 0 ≤ a := by
  obtain ⟨x, y, hx, hy, hlt⟩ := Num.lt_iff.mp h
  exact Num.le_iff.mpr ⟨x, y, hx, hy, hlt.le⟩

theorem clear_quantityLimit {c : RiskEvaluationContext} :
    Clear (quantityLimitTests c) ↔ ∃ a b, c.orderQuantity = some a ∧ c.maxOrderQuantity = some b ∧
      .fin 0 < a ∧ .fin 0 < b ∧ a ≤ b := by
  rw [quantityLimitTests, clear_append, clear_requirePositivePair]
  cases c.orderQuantity <;> cases c.maxOrderQuantity <;> simp [zero]
  rename_i a b
  constructor
  · rintro ⟨⟨ha, hb⟩, hne, hle⟩
    exact ⟨pos_of_nonneg ha hne, hb, hle⟩
  · rintro ⟨ha, hb, hle⟩
    exact ⟨⟨nonneg_of_pos ha, hb⟩, ne_zero_of_pos ha, hle⟩

theorem clear_maximumOpenPositions {c : RiskEvaluationContext} :
    Clear (maximumOpenPositionsTests c) ↔ ∃ n m, c.openPositionsCount = some n ∧ c.maxOpenPositions = some m ∧
      0 ≤ n ∧ 0 ≤ m ∧ n < m := by
  unfold maximumOpenPositionsTests
  cases c.openPositionsCount <;> cases c.maxOpenPositions <;> simp [anyNegative_eq_false]
  exact and_assoc

theorem clear_maximumDrawdown {c : RiskEvaluationContext} :
    Clear (maximumDrawdownTests c) ↔ ∀ b, c.maxDrawdown = some b → ∃ a, c.currentDrawdown = some a ∧
      .fin 0 ≤ b ∧ .fin 0 ≤ a ∧ a ≤ b := by
  unfold maximumDrawdownTests
  rw [clear_ifSet]
  cases c.maxDrawdown <;> cases c.currentDrawdown <;> simp [zero]
  exact and_assoc

theorem deviates_eq_false {current reference limit : Option Num} :
    deviates current reference limit = .ok false ↔ ∃ x y z b, current = some x ∧ reference = some y ∧
      limit = some b ∧ priceDeviation .default x y = .ok z ∧ z ≤ b := by
  unfold deviates
  cases current with
  | none => simp
  | some x =>
    cases reference with
    | none => simp
    | some y =>
      cases hd : priceDeviation .default x y with
      | error e => simp [hd]
      | ok z => simp [hd, less_eq_false]

theorem clear_priceDeviation {c : RiskEvaluationContext} :
    Clear (priceDeviationTests c) ↔ ∀ b, c.maxPriceDeviation = some b → ∃ current reference deviation,
      c.currentPrice = some current ∧ c.referencePrice = some reference ∧ .fin 0 < reference ∧ .fin 0 < current ∧
      .fin 0 ≤ b ∧ priceDeviation .default current reference = .ok deviation ∧ deviation ≤ b := by
  unfold priceDeviationTests
  rw [clear_ifSet]
  cases c.maxPriceDeviation with
  | none => simp
  | some b =>
    cases hr : c.referencePrice with
    | none => simp
    | some y =>
      cases hp : c.currentPrice with
      | none => simp
      | some x =>
        simp only [clear_cons, clear_nil, and_true, deviates_eq_false, atMost_eq_false, less_eq_false, zero,
          Option.some.injEq, forall_eq', Option.isNone_some, Bool.or_self, true_and]
        constructor
        · rintro ⟨⟨_, _, rfl, rfl, h1⟩, ⟨_, _, rfl, rfl, h2⟩, ⟨_, _, rfl, rfl, h3⟩, _, _, z, _, rfl, rfl, rfl, hd, hle⟩
          exact ⟨_, _, z, rfl, rfl, h1, h2, h3, hd, hle⟩
        · rintro ⟨_, _, z, rfl, rfl, h1, h2, h3, hd, hle⟩
          exact ⟨⟨_, _, rfl, rfl, h1⟩, ⟨_, _, rfl, rfl, h2⟩, ⟨_, _, rfl, rfl, h3⟩, _, _, z, _, rfl, rfl, rfl, hd, hle⟩

/-- What the default rules ask of a context, one field for each rule and five for the limits of the account. -/
structure Acceptable (c : RiskEvaluationContext) : Prop where
  halt : c.globalHaltActive = false
  liveMode : c.tradingMode = .live → c.liveTradingEnabled = true
  broker : c.brokerConnected = true
  marketData : c.marketDataFresh = true
  session : c.marketSessionOpen = true
  instrument : c.instrumentAllowed = true
  accountQuantity : ∀ b, c.accountMaxOrderQuantity = some b → ∃ a, c.orderQuantity = some a ∧ a ≤ b
  accountPositions : ∀ m, c.accountMaxPositions = some m → ∃ n, c.openPositionsCount = some n ∧ n < m
  accountExposure : ∀ b, c.accountMaxExposure = some b → ∃ a, c.projectedExposure = some a ∧ a ≤ b
  accountLoss : ∀ b, c.accountMaxLoss = some b → ∃ a, c.accountDailyRealizedPnl = some a ∧ b.neg .default < a
  accountRate : ∀ m, c.accountMaxOrderRate = some m → ∃ n, c.recentOrderCount = some n ∧ n < m
  quantity : ∃ a b, c.orderQuantity = some a ∧ c.maxOrderQuantity = some b ∧ .fin 0 < a ∧ .fin 0 < b ∧ a ≤ b
  position : ∃ a b, c.projectedPositionQuantity.map (Num.abs .default) = some a ∧ c.maxPositionQuantity = some b ∧
    .fin 0 ≤ a ∧ .fin 0 < b ∧ a ≤ b
  exposure : ∃ a b, c.projectedExposure = some a ∧ c.maxExposure = some b ∧ .fin 0 ≤ a ∧ .fin 0 < b ∧ a ≤ b
  dailyLoss : ∃ a b, c.dailyRealizedPnl = some a ∧ c.maxDailyLoss = some b ∧ .fin 0 < b ∧ b.neg .default < a
  strategyLoss : ∃ a b, c.strategyRealizedPnl = some a ∧ c.maxStrategyLoss = some b ∧ .fin 0 < b ∧
    b.neg .default < a
  margin : ∃ a b, c.requiredMargin = some a ∧ c.availableMargin = some b ∧ .fin 0 ≤ a ∧ .fin 0 < b ∧ a ≤ b
  drawdown : ∀ b, c.maxDrawdown = some b → ∃ a, c.currentDrawdown = some a ∧ .fin 0 ≤ b ∧ .fin 0 ≤ a ∧ a ≤ b
  deviation : ∀ b, c.maxPriceDeviation = some b → ∃ current reference deviation, c.currentPrice = some current ∧
    c.referencePrice = some reference ∧ .fin 0 < reference ∧ .fin 0 < current ∧ .fin 0 ≤ b ∧
    priceDeviation .default current reference = .ok deviation ∧ deviation ≤ b
  frequency : ∀ m, c.maxOrdersPerWindow = some m → ∃ n, c.recentOrderCount = some n ∧ 0 ≤ n ∧ 0 ≤ m ∧ n < m
  duplicate : c.duplicateSignal = false
  openPositions : ∃ n m, c.openPositionsCount = some n ∧ c.maxOpenPositions = some m ∧ 0 ≤ n ∧ 0 ≤ m ∧ n < m
  unresolved : ∀ m, c.maxUnresolvedExecutions = some m → ∃ n, c.pendingExecutionCount = some n ∧ 0 ≤ n ∧ 0 ≤ m ∧
    n < m
  retries : ∀ m, c.maxRetriesPerSignal = some m → ∃ n, c.retryCount = some n ∧ 0 ≤ n ∧ 0 ≤ m ∧ n ≤ m

theorem clear_accountLess {l x : Option Num} {missing code reason : String} :
    Clear (accountTests l x missing (less l x) code reason) ↔ ∀ b, l = some b → ∃ a, x = some a ∧ a ≤ b := by
  rw [clear_accountTests]
  cases l <;> cases x <;> simp

theorem clear_accountCount {l x : Option ℤ} {missing code reason : String} :
    Clear (accountTests l x missing (compareCounts (fun n m => n ≥ m) x l) code reason) ↔
      ∀ m, l = some m → ∃ n, x = some n ∧ n < m := by
  rw [clear_accountTests]
  cases l <;> cases x <;> simp

theorem clear_accountLoss {l x : Option Num} {missing code reason : String} :
    Clear (accountTests l x missing (atMost x (l.map (Num.neg .default))) code reason) ↔
      ∀ b, l = some b → ∃ a, x = some a ∧ b.neg .default < a := by
  rw [clear_accountTests]
  cases l <;> cases x <;> simp

theorem passes_globalHaltRule {request : RiskAssessmentRequest} {c : RiskEvaluationContext} :
    globalHaltRule.Passes request c ↔ c.globalHaltActive = false := by
  show (testRule _ _).Passes request c ↔ _
  rw [passes_testRule]
  simp [globalHaltTests]

/-- All default rules pass exactly on an acceptable context. -/
theorem passes_iff_acceptable {request : RiskAssessmentRequest} {c : RiskEvaluationContext} :
    (∀ r ∈ defaultRiskRules, r.Passes request c) ↔ Acceptable c := by
  simp only [defaultRiskRules, List.forall_mem_cons, List.not_mem_nil, false_imp_iff, imp_true_iff, and_true,
    passes_globalHaltRule, liveModeRule, brokerHealthRule, marketDataFreshnessRule, marketSessionRule,
    instrumentRestrictionRule, accountLimitRule, quantityLimitRule, positionLimitRule, exposureLimitRule,
    dailyLossLimitRule, strategyLossLimitRule, marginAvailabilityRule, maximumDrawdownRule, priceDeviationRule,
    orderFrequencyRule, duplicateOrderProtectionRule, maximumOpenPositionsRule, executionTimeoutRule, retrySafetyRule,
    passes_testRule, clear_quantityLimit, clear_maximumDrawdown, clear_priceDeviation, clear_maximumOpenPositions,
    positionLimitTests, exposureLimitTests, marginAvailabilityTests, clear_limitTests, dailyLossLimitTests,
    strategyLossLimitTests, clear_lossTests, orderFrequencyTests, executionTimeoutTests, retrySafetyTests,
    clear_countTests, accountLimitTests, clear_append, clear_accountLess, clear_accountCount, clear_accountLoss,
    liveModeTests, brokerHealthTests, marketDataFreshnessTests, marketSessionTests, instrumentRestrictionTests,
    duplicateOrderProtectionTests, clear_cons, clear_nil]
  constructor
  · rintro ⟨h1, h2, h3, h4, h5, h6, ⟨⟨⟨⟨h7, h8⟩, h9⟩, h10⟩, h11⟩, h12, h13, h14, h15, h16, h17, h18, h19, h20, h21, h22,
      h23, h24⟩
    exact ⟨h1, by simpa using h2, by simpa using h3, by simpa using h4, by simpa using h5, by simpa using h6, h7, h8,
      h9, h10, h11, h12, h13, h14, h15, h16, h17, h18, h19, by simpa using h20, by simpa using h21, h22,
      by simpa using h23, by simpa using h24⟩
  · rintro ⟨h1, h2, h3, h4, h5, h6, h7, h8, h9, h10, h11, h12, h13, h14, h15, h16, h17, h18, h19, h20, h21, h22, h23,
      h24⟩
    exact ⟨h1, by simpa using h2, by simpa using h3, by simpa using h4, by simpa using h5, by simpa using h6,
      ⟨⟨⟨⟨h7, h8⟩, h9⟩, h10⟩, h11⟩, h12, h13, h14, h15, h16, h17, h18, h19, by simpa using h20, by simpa using h21, h22,
      by simpa using h23, by simpa using h24⟩

/-! ### Texts of the rules -/

/-- A text, character by character. -/
def validChars (n : ℕ) (l : List Char) : Bool := !l.all isSpace && decide (l.length ≤ n)

theorem validText_of_chars {n : ℕ} {s : String} {l : List Char} (hs : s = String.ofList l)
    (h : validChars n l = true) : validText n s = true := by
  subst hs
  simpa [validText, blank, fits, validChars] using h

theorem eq_ofList_append {s t : String} {l m : List Char} (hs : s = String.ofList l) (ht : t = String.ofList m) :
    s ++ t = String.ofList (l ++ m) := by
  rw [hs, ht, String.ofList_append]

/-- The texts of the tests fit a decision. -/
def Readable (l : List Test) : Prop := ∀ t ∈ l, validText 100 t.reasonCode = true ∧ validText 500 t.reason = true

@[simp] theorem readable_nil : Readable [] ↔ True := by simp [Readable]

@[simp] theorem readable_cons (t : Test) (l : List Test) : Readable (t :: l) ↔
    (validText 100 t.reasonCode = true ∧ validText 500 t.reason = true) ∧ Readable l := by
  simp [Readable]

@[simp] theorem readable_append (l l' : List Test) : Readable (l ++ l') ↔ Readable l ∧ Readable l' :=
  List.forall_mem_append

theorem Readable.ifSet {α : Type} {limit : Option α} {l : List Test} (h : Readable l) :
    Readable (Risk.ifSet limit l) := by
  cases limit with
  | none => simp [Risk.ifSet]
  | some x => simpa [Risk.ifSet] using h

/-- The rule rejects with texts that fit a decision. -/
def RiskRule.Readable (r : RiskRule) : Prop :=
  validText 100 r.ruleId = true ∧ ∀ request c e, r.evaluate request c = .ok e → e.passed = false →
    validText 100 e.ruleId = true ∧ validText 100 e.reasonCode = true ∧ validText 500 e.reason = true

theorem readable_testRule {ruleId : String} {tests : RiskEvaluationContext → List Test}
    (hid : validText 100 ruleId = true) (h : ∀ c, Readable (tests c)) : (testRule ruleId tests).Readable := by
  refine ⟨hid, fun request c e he hp => ?_⟩
  simp only [testRule] at he
  cases hf : firstFailing (tests c) with
  | error err => rw [hf] at he; cases he
  | ok o =>
    rw [hf] at he
    cases o with
    | none =>
      cases he
      cases hp
    | some t =>
      cases he
      exact ⟨hid, h c t (mem_of_firstFailing hf)⟩

theorem readable_limitTests {x l : Option Num} {name limit code reason : String}
    (hm : validText 500 (name ++ " and " ++ limit ++ " are required") = true)
    (hi : validText 500 (name ++ " must be non-negative and " ++ limit ++ " must be positive") = true)
    (hc : validText 100 code = true) (hr : validText 500 reason = true) :
    Readable (limitTests x l name limit code reason) := by
  simp only [limitTests, requirePositivePair, readable_append, readable_cons, readable_nil, and_true]
  have hmissing : validText 100 "RISK_CONTEXT_MISSING" = true := validText_of_chars rfl (by decide)
  have hinvalid : validText 100 "RISK_CONTEXT_INVALID" = true := validText_of_chars rfl (by decide)
  exact ⟨⟨⟨hmissing, hm⟩, hinvalid, hi⟩, hc, hr⟩

theorem readable_lossTests {x l : Option Num} {name limit code reason : String}
    (hm : validText 500 (name ++ " and " ++ limit ++ " are required") = true)
    (hi : validText 500 (limit ++ " must be positive") = true) (hc : validText 100 code = true)
    (hr : validText 500 reason = true) : Readable (lossTests x l name limit code reason) := by
  simp only [lossTests, readable_cons, readable_nil, and_true]
  have hmissing : validText 100 "RISK_CONTEXT_MISSING" = true := validText_of_chars rfl (by decide)
  have hinvalid : validText 100 "RISK_CONTEXT_INVALID" = true := validText_of_chars rfl (by decide)
  exact ⟨⟨hmissing, hm⟩, ⟨hinvalid, hi⟩, hc, hr⟩

theorem readable_countTests {n m : Option ℤ} {reached : ℤ → ℤ → Bool} {missing negative code reason : String}
    (hm : validText 500 missing = true) (hn : validText 500 negative = true) (hc : validText 100 code = true)
    (hr : validText 500 reason = true) : Readable (countTests n m reached missing negative code reason) := by
  refine Readable.ifSet ?_
  simp only [readable_cons, readable_nil, and_true]
  have hmissing : validText 100 "RISK_CONTEXT_MISSING" = true := validText_of_chars rfl (by decide)
  have hinvalid : validText 100 "RISK_CONTEXT_INVALID" = true := validText_of_chars rfl (by decide)
  exact ⟨⟨hmissing, hm⟩, ⟨hinvalid, hn⟩, hc, hr⟩

theorem readable_accountTests {α : Type} {l x : Option α} {exceeded : Except Raised Bool} {missing code reason : String}
    (hm : validText 500 missing = true) (hc : validText 100 code = true) (hr : validText 500 reason = true) :
    Readable (accountTests l x missing exceeded code reason) := by
  refine Readable.ifSet ?_
  simp only [readable_cons, readable_nil, and_true]
  exact ⟨⟨validText_of_chars rfl (by decide), hm⟩, hc, hr⟩

theorem readable_accountLimit (c : RiskEvaluationContext) : Readable (accountLimitTests c) := by
  simp only [accountLimitTests, readable_append]
  refine ⟨⟨⟨⟨?_, ?_⟩, ?_⟩, ?_⟩, ?_⟩ <;>
    exact readable_accountTests (validText_of_chars rfl (by decide)) (validText_of_chars rfl (by decide))
      (validText_of_chars rfl (by decide))

theorem readable_quantityLimit (c : RiskEvaluationContext) : Readable (quantityLimitTests c) := by
  simp only [quantityLimitTests, requirePositivePair, readable_append, readable_cons, readable_nil, and_true]
  refine ⟨⟨⟨?_, ?_⟩, ?_, ?_⟩, ⟨?_, ?_⟩, ?_, ?_⟩
  all_goals first
    | exact validText_of_chars rfl (by decide)
    | exact validText_of_chars (eq_ofList_append (eq_ofList_append (eq_ofList_append rfl rfl) rfl) rfl) (by decide)

/-- A rule of one test. -/
theorem readable_single {ruleId : String} {tests : RiskEvaluationContext → List Test} {code reason : String}
    (hid : validText 100 ruleId = true) (hc : validText 100 code = true) (hr : validText 500 reason = true)
    (h : ∀ c, ∃ b, tests c = [⟨b, code, reason⟩]) : (testRule ruleId tests).Readable := by
  refine readable_testRule hid fun c => ?_
  obtain ⟨b, hb⟩ := h c
  rw [hb]
  simp [hc, hr]

theorem readable_maximumOpenPositions (c : RiskEvaluationContext) : Readable (maximumOpenPositionsTests c) := by
  simp only [maximumOpenPositionsTests, readable_cons, readable_nil, and_true]
  refine ⟨⟨?_, ?_⟩, ⟨?_, ?_⟩, ?_, ?_⟩ <;> exact validText_of_chars rfl (by decide)

theorem readable_maximumDrawdown (c : RiskEvaluationContext) : Readable (maximumDrawdownTests c) := by
  refine Readable.ifSet ?_
  simp only [readable_cons, readable_nil, and_true]
  refine ⟨⟨?_, ?_⟩, ⟨?_, ?_⟩, ?_, ?_⟩ <;> exact validText_of_chars rfl (by decide)

theorem readable_priceDeviation (c : RiskEvaluationContext) : Readable (priceDeviationTests c) := by
  refine Readable.ifSet ?_
  simp only [readable_cons, readable_nil, and_true]
  refine ⟨⟨?_, ?_⟩, ⟨?_, ?_⟩, ⟨?_, ?_⟩, ⟨?_, ?_⟩, ?_, ?_⟩ <;> exact validText_of_chars rfl (by decide)

/-- Every default rule rejects with texts that fit a decision. -/
theorem readable_default : ∀ r ∈ defaultRiskRules, r.Readable := by
  simp only [defaultRiskRules, List.forall_mem_cons, List.not_mem_nil, false_imp_iff, imp_true_iff, and_true]
  refine ⟨readable_single ?_ ?_ ?_ fun c => ⟨_, rfl⟩, readable_single ?_ ?_ ?_ fun c => ⟨_, rfl⟩,
    readable_single ?_ ?_ ?_ fun c => ⟨_, rfl⟩, readable_single ?_ ?_ ?_ fun c => ⟨_, rfl⟩,
    readable_single ?_ ?_ ?_ fun c => ⟨_, rfl⟩, readable_single ?_ ?_ ?_ fun c => ⟨_, rfl⟩,
    readable_testRule ?_ readable_accountLimit, readable_testRule ?_ readable_quantityLimit,
    readable_testRule ?_ fun c => readable_limitTests ?_ ?_ ?_ ?_,
    readable_testRule ?_ fun c => readable_limitTests ?_ ?_ ?_ ?_,
    readable_testRule ?_ fun c => readable_lossTests ?_ ?_ ?_ ?_,
    readable_testRule ?_ fun c => readable_lossTests ?_ ?_ ?_ ?_,
    readable_testRule ?_ fun c => readable_limitTests ?_ ?_ ?_ ?_,
    readable_testRule ?_ readable_maximumDrawdown, readable_testRule ?_ readable_priceDeviation,
    readable_testRule ?_ fun c => readable_countTests ?_ ?_ ?_ ?_, readable_single ?_ ?_ ?_ fun c => ⟨_, rfl⟩,
    readable_testRule ?_ readable_maximumOpenPositions,
    readable_testRule ?_ fun c => readable_countTests ?_ ?_ ?_ ?_,
    readable_testRule ?_ fun c => readable_countTests ?_ ?_ ?_ ?_⟩
  all_goals first
    | exact validText_of_chars rfl (by decide)
    | exact validText_of_chars (eq_ofList_append (eq_ofList_append (eq_ofList_append rfl rfl) rfl) rfl) (by decide)
    | exact validText_of_chars (eq_ofList_append rfl rfl) (by decide)

/-! ### Decisions of the engine -/

namespace RiskRuleEngine

variable {e : RiskRuleEngine} {request : RiskAssessmentRequest} {c : RiskEvaluationContext} {env : EngineEnv}
  {d : RiskDecision}

theorem fields_of_make {f : DecisionFields} (h : f.make = .ok d) : d.toDecisionFields = f := by
  unfold DecisionFields.make at h
  split at h
  · cases h
    rfl
  · cases h

theorem make_of_valid {f : DecisionFields} (h : f.Valid) : f.make = .ok ⟨f, h⟩ := dif_pos h

theorem rejection_rejected {ruleId code reason : String} {passed : List String} {errorType : Option String}
    (h : rejection request env ruleId code reason passed errorType = .ok d) : d.isApproved = false := by
  have hv : d.verdict = .rejected := congrArg DecisionFields.verdict (fields_of_make h)
  simp only [RiskDecision.isApproved, hv]

theorem approval_approved {passed : List String} (h : e.approval request env passed = .ok d) :
    d.isApproved = true := by
  unfold approval at h
  split at h
  · cases h
  · rename_i expiresAt _
    have hv : d.verdict = .approved env.approvalId expiresAt := congrArg DecisionFields.verdict (fields_of_make h)
    simp only [RiskDecision.isApproved, hv]

/-- A rejection with readable texts is a decision. -/
theorem rejection_ok {ruleId code reason : String} {passed : List String} {errorType : Option String}
    (haware : env.evaluatedAt.aware = true) (hid : validText 100 ruleId = true) (hc : validText 100 code = true)
    (hr : validText 500 reason = true) :
    ∃ d, rejection request env ruleId code reason passed errorType = .ok d ∧ d.isApproved = false := by
  have hd : ∃ d, rejection request env ruleId code reason passed errorType = .ok d := by
    refine ⟨_, make_of_valid ?_⟩
    exact ⟨hc, hr, hid, haware, rfl⟩
  obtain ⟨d, hd⟩ := hd
  exact ⟨d, hd, rejection_rejected hd⟩

/-- The rules all pass when the loop ends with an approval. -/
theorem passes_of_runRules {rules : List RiskRule} {passed : List String}
    (h : e.runRules request c env rules passed = .ok d) (hd : d.isApproved = true) :
    ∀ r ∈ rules, r.Passes request c := by
  induction rules generalizing passed with
  | nil => simp
  | cons r l ih =>
    rw [runRules] at h
    cases hr : r.evaluate request c with
    | error err =>
      rw [hr] at h
      rw [rejection_rejected h] at hd
      cases hd
    | ok result =>
      simp only [hr] at h
      split at h
      · rename_i hp
        exact List.forall_mem_cons.mpr ⟨⟨result, hr, hp⟩, ih h⟩
      · rw [rejection_rejected h] at hd
        cases hd

/-- The loop over passing rules ends with the approval. -/
theorem runRules_of_passes (e : RiskRuleEngine) (env : EngineEnv) {rules : List RiskRule}
    (hall : ∀ r ∈ rules, r.Passes request c) (passed : List String) :
    ∃ passed', e.runRules request c env rules passed = e.approval request env passed' := by
  induction rules generalizing passed with
  | nil => exact ⟨passed, rfl⟩
  | cons r l ih =>
    obtain ⟨⟨result, hr, hp⟩, hl⟩ := List.forall_mem_cons.mp hall
    obtain ⟨passed', h'⟩ := ih hl (passed ++ [result.ruleId])
    refine ⟨passed', ?_⟩
    rw [runRules, hr]
    simpa only [hp, if_true] using h'

/-- The loop over readable rules, not all of which pass, ends with a rejection. -/
theorem runRules_of_not_passes {rules : List RiskRule} {passed : List String} (haware : env.evaluatedAt.aware = true)
    (hread : ∀ r ∈ rules, r.Readable) (hnot : ¬∀ r ∈ rules, r.Passes request c) :
    ∃ d, e.runRules request c env rules passed = .ok d ∧ d.isApproved = false := by
  induction rules generalizing passed with
  | nil => exact absurd (by simp) hnot
  | cons r l ih =>
    obtain ⟨⟨hid, htexts⟩, hl⟩ := List.forall_mem_cons.mp hread
    rw [runRules]
    cases hr : r.evaluate request c with
    | error err => exact rejection_ok haware hid (by decide) (by decide)
    | ok result =>
      cases hp : result.passed with
      | true =>
        simp only [hp, if_true]
        refine ih hl fun hall => hnot ?_
        exact List.forall_mem_cons.mpr ⟨⟨result, hr, hp⟩, hall⟩
      | false =>
        obtain ⟨hi, hcode, hreason⟩ := htexts request c result hr hp
        simpa only [hp, Bool.false_eq_true, if_false] using rejection_ok haware hi hcode hreason

theorem aware_of_evaluate (h : e.evaluate request c env = .ok d) : env.evaluatedAt.aware = true := by
  unfold evaluate at h
  cases ha : env.evaluatedAt.aware with
  | true => rfl
  | false => simp [ha] at h

/-- **An approval means that there are rules and that all of them pass.** -/
theorem evaluate_approved (h : e.evaluate request c env = .ok d) (hd : d.isApproved = true) :
    e.rules ≠ [] ∧ ∀ r ∈ e.rules, r.Passes request c := by
  have haware := aware_of_evaluate h
  unfold evaluate at h
  simp only [haware, Bool.not_true, Bool.false_eq_true, if_false] at h
  split at h
  · rw [rejection_rejected h] at hd
    cases hd
  · rename_i hne
    exact ⟨fun hnil => hne (by rw [hnil]; rfl), passes_of_runRules h hd⟩

/-- A rejection means that there are no rules or that one of them does not pass. -/
theorem not_passes_of_rejected (h : e.evaluate request c env = .ok d) (hd : d.isApproved = false)
    (hne : e.rules ≠ []) : ¬∀ r ∈ e.rules, r.Passes request c := by
  intro hall
  have haware := aware_of_evaluate h
  obtain ⟨passed', hrun⟩ := runRules_of_passes e env hall []
  unfold evaluate at h
  simp only [haware, Bool.not_true, Bool.false_eq_true, if_false, List.isEmpty_iff, hne, hrun] at h
  rw [approval_approved h] at hd
  cases hd

/-- Readable rules that do not all pass give a rejection. -/
theorem evaluate_rejected (haware : env.evaluatedAt.aware = true) (hne : e.rules ≠ [])
    (hread : ∀ r ∈ e.rules, r.Readable) (hnot : ¬∀ r ∈ e.rules, r.Passes request c) :
    ∃ d, e.evaluate request c env = .ok d ∧ d.isApproved = false := by
  unfold evaluate
  simp only [haware, Bool.not_true, Bool.false_eq_true, if_false, List.isEmpty_iff, hne]
  exact runRules_of_not_passes haware hread hnot

end RiskRuleEngine

end AlphaAlgo.Risk
