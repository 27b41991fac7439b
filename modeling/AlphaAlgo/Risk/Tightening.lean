import AlphaAlgo.Risk.Acceptable

/-!
# Tightening — tighter limits keep a rejection

One context is tighter than another when it measures the same, its limits are at most those of the other and its flags
are at least as bad.  What is acceptable in the tighter one is acceptable in the other, rule by rule.

* `tightening_keeps_rejections`: with tighter limits and worse health a rejected request stays rejected.
-/

namespace AlphaAlgo.Risk

/-! ### Tighter limits -/

/-- A required limit that is given in both contexts, the second at most the first; a limit that is the same in both is
covered too. -/
def Tightened {α : Type} [LE α] (a b : Option α) : Prop := a = b ∨ ∃ x y, a = some x ∧ b = some y ∧ y ≤ x

/-- An optional limit may also be set where it was absent. -/
def TightenedOptional {α : Type} [LE α] (a b : Option α) : Prop := a = none ∨ Tightened a b

/-- The second context measures the same, its limits are at least as tight and its flags at least as bad. -/
structure Tighter (c c' : RiskEvaluationContext) : Prop where
  tradingMode : c.tradingMode = c'.tradingMode
  orderQuantity : c.orderQuantity = c'.orderQuantity
  projectedPositionQuantity : c.projectedPositionQuantity = c'.projectedPositionQuantity
  projectedExposure : c.projectedExposure = c'.projectedExposure
  dailyRealizedPnl : c.dailyRealizedPnl = c'.dailyRealizedPnl
  strategyRealizedPnl : c.strategyRealizedPnl = c'.strategyRealizedPnl
  requiredMargin : c.requiredMargin = c'.requiredMargin
  openPositionsCount : c.openPositionsCount = c'.openPositionsCount
  currentDrawdown : c.currentDrawdown = c'.currentDrawdown
  referencePrice : c.referencePrice = c'.referencePrice
  currentPrice : c.currentPrice = c'.currentPrice
  recentOrderCount : c.recentOrderCount = c'.recentOrderCount
  accountDailyRealizedPnl : c.accountDailyRealizedPnl = c'.accountDailyRealizedPnl
  pendingExecutionCount : c.pendingExecutionCount = c'.pendingExecutionCount
  retryCount : c.retryCount = c'.retryCount
  liveTradingEnabled : c'.liveTradingEnabled = true → c.liveTradingEnabled = true
  globalHaltActive : c.globalHaltActive = true → c'.globalHaltActive = true
  brokerConnected : c'.brokerConnected = true → c.brokerConnected = true
  marketDataFresh : c'.marketDataFresh = true → c.marketDataFresh = true
  marketSessionOpen : c'.marketSessionOpen = true → c.marketSessionOpen = true
  instrumentAllowed : c'.instrumentAllowed = true → c.instrumentAllowed = true
  duplicateSignal : c.duplicateSignal = true → c'.duplicateSignal = true
  maxOrderQuantity : Tightened c.maxOrderQuantity c'.maxOrderQuantity
  maxPositionQuantity : Tightened c.maxPositionQuantity c'.maxPositionQuantity
  maxExposure : Tightened c.maxExposure c'.maxExposure
  maxDailyLoss : Tightened c.maxDailyLoss c'.maxDailyLoss
  maxStrategyLoss : Tightened c.maxStrategyLoss c'.maxStrategyLoss
  availableMargin : Tightened c.availableMargin c'.availableMargin
  maxOpenPositions : Tightened c.maxOpenPositions c'.maxOpenPositions
  maxDrawdown : TightenedOptional c.maxDrawdown c'.maxDrawdown
  maxPriceDeviation : TightenedOptional c.maxPriceDeviation c'.maxPriceDeviation
  maxOrdersPerWindow : TightenedOptional c.maxOrdersPerWindow c'.maxOrdersPerWindow
  accountMaxOrderQuantity : TightenedOptional c.accountMaxOrderQuantity c'.accountMaxOrderQuantity
  accountMaxPositions : TightenedOptional c.accountMaxPositions c'.accountMaxPositions
  accountMaxExposure : TightenedOptional c.accountMaxExposure c'.accountMaxExposure
  accountMaxLoss : TightenedOptional c.accountMaxLoss c'.accountMaxLoss
  accountMaxOrderRate : TightenedOptional c.accountMaxOrderRate c'.accountMaxOrderRate
  maxUnresolvedExecutions : TightenedOptional c.maxUnresolvedExecutions c'.maxUnresolvedExecutions
  maxRetriesPerSignal : TightenedOptional c.maxRetriesPerSignal c'.maxRetriesPerSignal

/-- A property of a required limit that is kept when the limit grows. -/
theorem Tightened.mono {α : Type} [LE α] {a b : Option α} {P : α → Prop} (h : Tightened a b)
    (hmono : ∀ x y, y ≤ x → P y → P x) (hb : ∃ y, b = some y ∧ P y) : ∃ x, a = some x ∧ P x := by
  obtain ⟨y, hy, hp⟩ := hb
  obtain rfl | ⟨x, y', hx, hy', hle⟩ := h
  · exact ⟨y, hy, hp⟩
  · rw [hy] at hy'
    cases hy'
    exact ⟨x, hx, hmono x y hle hp⟩

/-- The same of an optional limit. -/
theorem TightenedOptional.mono {α : Type} [LE α] {a b : Option α} {P : α → Prop} (h : TightenedOptional a b)
    (hmono : ∀ x y, y ≤ x → P y → P x) (hb : ∀ y, b = some y → P y) : ∀ x, a = some x → P x := by
  intro x hx
  obtain hnone | rfl | ⟨x', y, hx', hy, hle⟩ := h
  · rw [hnone] at hx
    cases hx
  · exact hb x hx
  · rw [hx] at hx'
    cases hx'
    exact hmono x y hle (hb y hy)

section Tightening

variable {x : Option Num} {n : Option ℤ}

/-- An amount within a required limit is within a larger one; `P` is what the rule asks of the amount alone. -/
theorem within_mono {a b : Option Num} {P : Num → Prop} (h : Tightened a b)
    (hb : ∃ v w, x = some v ∧ b = some w ∧ P v ∧ .fin 0 < w ∧ v ≤ w) :
    ∃ v w, x = some v ∧ a = some w ∧ P v ∧ .fin 0 < w ∧ v ≤ w := by
  obtain ⟨v, w, hv, hw, hp, hpos, hle⟩ := hb
  obtain ⟨w', hw', hpos', hle'⟩ := h.mono (P := fun w => .fin 0 < w ∧ v ≤ w)
    (fun _ _ hyx hy => ⟨Num.lt_of_lt_of_le hy.1 hyx, Num.le_trans hy.2 hyx⟩) ⟨w, hw, hpos, hle⟩
  exact ⟨v, w', hv, hw', hp, hpos', hle'⟩

/-- A larger loss limit is farther away. -/
theorem neg_lt_mono {v w w' : Num} (hle : w ≤ w') (h : w.neg .default < v) : w'.neg .default < v :=
  Num.lt_of_le_of_lt (Num.neg_le_neg (by decide) hle) h

theorem loss_mono {a b : Option Num} (h : Tightened a b)
    (hb : ∃ v w, x = some v ∧ b = some w ∧ .fin 0 < w ∧ w.neg .default < v) :
    ∃ v w, x = some v ∧ a = some w ∧ .fin 0 < w ∧ w.neg .default < v := by
  obtain ⟨v, w, hv, hw, hpos, hlt⟩ := hb
  obtain ⟨w', hw', hpos', hlt'⟩ := h.mono (P := fun w => .fin 0 < w ∧ w.neg .default < v)
    (fun _ _ hyx hy => ⟨Num.lt_of_lt_of_le hy.1 hyx, neg_lt_mono hyx hy.2⟩) ⟨w, hw, hpos, hlt⟩
  exact ⟨v, w', hv, hw', hpos', hlt'⟩

theorem count_mono {a b : Option ℤ} (h : TightenedOptional a b) {R : ℤ → ℤ → Prop}
    (hR : ∀ v w w', w ≤ w' → R v w → R v w')
    (hb : ∀ m, b = some m → ∃ v, n = some v ∧ 0 ≤ v ∧ 0 ≤ m ∧ R v m) :
    ∀ m, a = some m → ∃ v, n = some v ∧ 0 ≤ v ∧ 0 ≤ m ∧ R v m := by
  refine h.mono (fun m' m hle hm => ?_) hb
  obtain ⟨v, hv, hv0, hm0, hr⟩ := hm
  exact ⟨v, hv, hv0, hm0.trans hle, hR v m m' hle hr⟩

/-- An optional limit that the measured value `x` is compared with. -/
theorem optional_mono {α β : Type} [LE α] {a b : Option α} {x : Option β} (h : TightenedOptional a b)
    {R : β → α → Prop} (hR : ∀ v w w', w ≤ w' → R v w → R v w')
    (hb : ∀ w, b = some w → ∃ v, x = some v ∧ R v w) : ∀ w, a = some w → ∃ v, x = some v ∧ R v w := by
  refine h.mono (fun w' w hle hw => ?_) hb
  obtain ⟨v, hv, hr⟩ := hw
  exact ⟨v, hv, hR v w w' hle hr⟩

end Tightening

theorem eq_false_of_imp {a b : Bool} (h : a = true → b = true) (hb : b = false) : a = false := by
  cases a with
  | false => rfl
  | true => rw [h rfl] at hb; cases hb

/-- What is acceptable under tighter limits is acceptable. -/
theorem Acceptable.of_tighter {c c' : RiskEvaluationContext} (h : Tighter c c') (ha : Acceptable c') :
    Acceptable c where
  halt := eq_false_of_imp h.globalHaltActive ha.halt
  liveMode := fun hl => h.liveTradingEnabled (ha.liveMode (h.tradingMode ▸ hl))
  broker := h.brokerConnected ha.broker
  marketData := h.marketDataFresh ha.marketData
  session := h.marketSessionOpen ha.session
  instrument := h.instrumentAllowed ha.instrument
  duplicate := eq_false_of_imp h.duplicateSignal ha.duplicate
  accountQuantity := by
    rw [h.orderQuantity]
    exact optional_mono h.accountMaxOrderQuantity (fun _ _ _ hle hr => Num.le_trans hr hle) ha.accountQuantity
  accountPositions := by
    rw [h.openPositionsCount]
    exact optional_mono h.accountMaxPositions (fun _ _ _ hle hr => lt_of_lt_of_le hr hle) ha.accountPositions
  accountExposure := by
    rw [h.projectedExposure]
    exact optional_mono h.accountMaxExposure (fun _ _ _ hle hr => Num.le_trans hr hle) ha.accountExposure
  accountLoss := by
    rw [h.accountDailyRealizedPnl]
    exact optional_mono h.accountMaxLoss (fun _ _ _ hle hr => neg_lt_mono hle hr) ha.accountLoss
  accountRate := by
    rw [h.recentOrderCount]
    exact optional_mono h.accountMaxOrderRate (fun _ _ _ hle hr => lt_of_lt_of_le hr hle) ha.accountRate
  quantity := by
    rw [h.orderQuantity]
    exact within_mono h.maxOrderQuantity ha.quantity
  position := by
    rw [h.projectedPositionQuantity]
    exact within_mono h.maxPositionQuantity ha.position
  exposure := by
    rw [h.projectedExposure]
    exact within_mono h.maxExposure ha.exposure
  margin := by
    rw [h.requiredMargin]
    exact within_mono h.availableMargin ha.margin
  dailyLoss := by
    rw [h.dailyRealizedPnl]
    exact loss_mono h.maxDailyLoss ha.dailyLoss
  strategyLoss := by
    rw [h.strategyRealizedPnl]
    exact loss_mono h.maxStrategyLoss ha.strategyLoss
  drawdown := by
    rw [h.currentDrawdown]
    exact optional_mono h.maxDrawdown
      (fun _ _ _ hle hr => ⟨Num.le_trans hr.1 hle, hr.2.1, Num.le_trans hr.2.2 hle⟩) ha.drawdown
  deviation := by
    rw [h.currentPrice, h.referencePrice]
    refine h.maxPriceDeviation.mono (fun b b' hle hb => ?_) ha.deviation
    obtain ⟨current, reference, deviation, hc, hr, hr0, hc0, hb0, hd, hdb⟩ := hb
    exact ⟨current, reference, deviation, hc, hr, hr0, hc0, Num.le_trans hb0 hle, hd, Num.le_trans hdb hle⟩
  frequency := by
    rw [h.recentOrderCount]
    exact count_mono h.maxOrdersPerWindow (fun _ _ _ hle hr => lt_of_lt_of_le hr hle) ha.frequency
  openPositions := by
    rw [h.openPositionsCount]
    obtain ⟨v, m, hv, hm, hv0, hm0, hlt⟩ := ha.openPositions
    obtain ⟨m', hm', hm0', hlt'⟩ := h.maxOpenPositions.mono (P := fun m => 0 ≤ m ∧ v < m)
      (fun _ _ hle hy => ⟨hy.1.trans hle, lt_of_lt_of_le hy.2 hle⟩) ⟨m, hm, hm0, hlt⟩
    exact ⟨v, m', hv, hm', hv0, hm0', hlt'⟩
  unresolved := by
    rw [h.pendingExecutionCount]
    exact count_mono h.maxUnresolvedExecutions (fun _ _ _ hle hr => lt_of_lt_of_le hr hle) ha.unresolved
  retries := by
    rw [h.retryCount]
    exact count_mono h.maxRetriesPerSignal (fun _ _ _ hle hr => le_trans hr hle) ha.retries

/-- **Tighter limits and worse health keep a rejection**, whatever the second evaluation reads from its clock and
draws as identifiers. -/
theorem tightening_keeps_rejections {ttl : ℤ} {e : RiskRuleEngine} (he : RiskRuleEngine.new none ttl = .ok e)
    {request : RiskAssessmentRequest} {c c' : RiskEvaluationContext} (htight : Tighter c c') {env env' : EngineEnv}
    {d : RiskDecision} (h : e.evaluate request c env = .ok d) (hd : d.isApproved = false)
    (haware : env'.evaluatedAt.aware = true) :
    ∃ d', e.evaluate request c' env' = .ok d' ∧ d'.isApproved = false := by
  have hrules := rules_of_new he
  have hne : e.rules ≠ [] := hrules ▸ defaultRiskRules_ne_nil
  refine RiskRuleEngine.evaluate_rejected haware hne (hrules ▸ readable_default) fun hall => ?_
  refine RiskRuleEngine.not_passes_of_rejected h hd hne ?_
  rw [hrules] at hall ⊢
  exact passes_iff_acceptable.mpr ((passes_iff_acceptable.mp hall).of_tighter htight)

/-- A healthy context with room under every required limit. -/
def sampleContext (quantity limit : ℚ) : RiskEvaluationContext where
  tradingMode := .paper
  globalHaltActive := false
  brokerConnected := true
  marketDataFresh := true
  marketSessionOpen := true
  instrumentAllowed := true
  duplicateSignal := false
  orderQuantity := some (.fin quantity)
  maxOrderQuantity := some (.fin limit)
  projectedPositionQuantity := some (.fin quantity)
  maxPositionQuantity := some (.fin 100)
  projectedExposure := some (.fin 500)
  maxExposure := some (.fin 1000)
  dailyRealizedPnl := some (.fin 0)
  maxDailyLoss := some (.fin 50)
  strategyRealizedPnl := some (.fin 0)
  maxStrategyLoss := some (.fin 50)
  requiredMargin := some (.fin 500)
  availableMargin := some (.fin 800)
  openPositionsCount := some 0
  maxOpenPositions := some 5

/-- Twenty shares are refused with a limit of ten, and with a limit of five. -/
theorem tightening_keeps_rejections_quantity : ∃ d d',
    defaultEngine.evaluate sampleRequest (sampleContext 20 10) sampleEnv = .ok d ∧ d.isApproved = false ∧
    defaultEngine.evaluate sampleRequest (sampleContext 20 5) sampleEnv = .ok d' ∧ d'.isApproved = false := by
  have hfirst : ∃ d, defaultEngine.evaluate sampleRequest (sampleContext 20 10) sampleEnv = .ok d ∧
      d.isApproved = false := by
    refine RiskRuleEngine.evaluate_rejected rfl defaultRiskRules_ne_nil readable_default fun hall => ?_
    obtain ⟨a, b, ha, hb, -, -, hle⟩ := (passes_iff_acceptable.mp hall).quantity
    cases ha
    cases hb
    exact absurd (Num.fin_le_fin.mp hle) (by norm_num)
  have htight : Tighter (sampleContext 20 10) (sampleContext 20 5) := by
    have hlimit : Tightened (sampleContext 20 10).maxOrderQuantity (sampleContext 20 5).maxOrderQuantity :=
      .inr ⟨_, _, rfl, rfl, Num.fin_le_fin.mpr (by norm_num)⟩
    constructor
    case maxOrderQuantity => exact hlimit
    all_goals first | exact id | exact rfl | exact .inl rfl
  obtain ⟨d, h, hd⟩ := hfirst
  have haware : sampleEnv.evaluatedAt.aware = true := rfl
  obtain ⟨d', h', hd'⟩ := tightening_keeps_rejections new_default htight h hd haware
  exact ⟨d, d', h, hd, h', hd'⟩

end AlphaAlgo.Risk
