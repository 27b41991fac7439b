import AlphaAlgo.Portfolio.Aggregation

/-!
# Consistency — the parts of a portfolio against the whole

* `aggregatePositions_eq_ok`: the totals are sums over the exposures of the open positions.
* `strategyBreakdown_eq_ok`: the gross exposures of the strategies add up to that of the portfolio.
* `parts_agree_iff`: the portfolios whose parts agree with the whole.
* `priced_totals`: what missing and stale prices do to the totals.
-/

namespace AlphaAlgo.Portfolio

open Loop

/-! ### The totals -/

/-- The totals are those of the exposures. -/
structure Aggregates (es : List PositionExposure) (a : Aggregate) : Prop where
  exposures : a.exposures = es
  units : ∀ x ∈ values es, Units (-4) x
  bounded : grossOf (values es) < limit
  gross : a.gross = grossOf (values es)
  net : a.net = (values es).sum
  long : a.long = longOf (values es)
  short : a.short = shortOf (values es)
  marketValue : a.marketValue = if es = [] then some 0 else if values es = [] then none else some (values es).sum
  missingIds : a.missingIds = (es.filter fun e => e.marketValue.isNone).map PositionExposure.instrumentId
  staleIds : a.staleIds =
    (es.filter fun e => e.marketValue.isSome && e.priceState = .stale).map PositionExposure.instrumentId

/-- What the loop keeps of the exposures. -/
theorem fields_foldl (es : List PositionExposure) : (es.foldl Totals.add {}).exposures = es ∧
    (es.foldl Totals.add {}).openCount = es.length ∧
    (es.foldl Totals.add {}).missingIds = (es.filter fun e => e.marketValue.isNone).map PositionExposure.instrumentId ∧
    (es.foldl Totals.add {}).staleIds =
      (es.filter fun e => e.marketValue.isSome && e.priceState = .stale).map PositionExposure.instrumentId ∧
    ((es.foldl Totals.add {}).anyPriced = true ↔ values es ≠ []) := by
  induction es using List.reverseRecOn with
  | nil => exact ⟨rfl, rfl, rfl, rfl, by simp [values]⟩
  | append_singleton es e ih =>
    obtain ⟨hexposures, hcount, hmissing, hstale, hpriced⟩ := ih
    rw [List.foldl_append]
    show ((es.foldl Totals.add {}).add e).exposures = _ ∧ ((es.foldl Totals.add {}).add e).openCount = _ ∧
      ((es.foldl Totals.add {}).add e).missingIds = _ ∧ ((es.foldl Totals.add {}).add e).staleIds = _ ∧
        (((es.foldl Totals.add {}).add e).anyPriced = true ↔ _)
    have hvalues : values (es ++ [e]) = values es ++ values [e] := List.filterMap_append
    cases hx : e.marketValue with
    | none =>
      have hnone : values [e] = [] := by simp [values, hx]
      simp only [Totals.add, hx, hexposures, hcount, hmissing, hstale, hpriced, hvalues, hnone]
      simp [List.filter_append, hx]
    | some x =>
      have hsome : values [e] = [x] := by simp [values, hx]
      simp only [Totals.add, hx, hexposures, hcount, hmissing, hstale, hvalues, hsome]
      refine ⟨trivial, by simp, by simp [List.filter_append, hx], ?_, by simp⟩
      by_cases hs : e.priceState = .stale
      · simp [List.filter_append, hx, hs]
      · simp [List.filter_append, hx, hs]

theorem exposureOf_units {prices : UUID → Option ReferencePrice} {now : DateTime} {maxAgeSeconds : Option ℤ}
    {pos : PositionInput} {e : PositionExposure} (h : exposureOf prices now maxAgeSeconds pos = .ok e) :
    ∀ x ∈ e.marketValue, Units (-4) x := by
  obtain ⟨⟨price, state⟩, -, h⟩ := bind_eq_ok.mp h
  cases price with
  | none =>
    cases h
    exact nofun
  | some price =>
    obtain ⟨x, hx, h⟩ := bind_eq_ok.mp h
    cases h
    rintro y ⟨⟩
    exact (roundMoney_units hx).1

/-- **The totals** of what is aggregated. -/
theorem aggregatePositions_eq_ok {prices : UUID → Option ReferencePrice} {now : DateTime} {maxAgeSeconds : Option ℤ}
    {positions : List PositionInput} {a : Aggregate} (h : aggregatePositions prices now maxAgeSeconds positions = .ok a) :
    ∃ es, List.Forall₂ (fun pos e => exposureOf prices now maxAgeSeconds pos = .ok e)
      (positions.filter PositionInput.isOpen) es ∧ Aggregates es a := by
  obtain ⟨s, hrun, hfinish⟩ := bind_eq_ok.mp h
  rw [run_step] at hrun
  obtain ⟨es, hes, rfl⟩ := map_eq_ok.mp hrun
  have hall := mapM_eq_ok_iff.mp hes
  have hunits : ∀ x ∈ values es, Units (-4) x := by
    intro x hx
    obtain ⟨e, he, hxe⟩ := List.mem_filterMap.mp hx
    obtain ⟨i, hi, rfl⟩ := List.getElem_of_mem he
    exact exposureOf_units (hall.get (by rw [hall.length_eq]; exact hi) hi) x hxe
  obtain ⟨hexposures, hcount, hmissing, hstale, hpriced⟩ := fields_foldl es
  obtain ⟨marketValue, hmarket, hrest⟩ := bind_eq_ok.mp hfinish
  obtain ⟨gross, hgross, hrest⟩ := bind_eq_ok.mp hrest
  obtain ⟨net, hnet, hrest⟩ := bind_eq_ok.mp hrest
  obtain ⟨long, hlong, hrest⟩ := bind_eq_ok.mp hrest
  obtain ⟨short, hshort, hrest⟩ := bind_eq_ok.mp hrest
  cases hrest
  rcases counted_foldl hunits with hc | hlimit
  · obtain ⟨hgu, hnu, hlu, hsu⟩ := units_sums hunits
    obtain ⟨hn, hl, hlle, hs, hsle⟩ := abs_sums_le (values es)
    have hg := grossOf_nonneg (values es)
    have hb := hc.bounded
    have hround : ∀ {x y z : ℚ}, x = y → Units (-4) y → |y| < limit → roundMoney x = .ok z → z = y := by
      intro x y z hxy hy hlt hz
      rw [hxy, roundMoney_of_units hy hlt] at hz
      exact (Except.ok.inj hz).symm
    refine ⟨es, hall, hexposures, hunits, hb, ?_, ?_, ?_, ?_, ?_, hmissing, hstale⟩
    · exact hround hc.gross hgu (by rwa [abs_of_nonneg hg]) hgross
    · exact hround hc.net hnu (lt_of_le_of_lt hn hb) hnet
    · exact hround hc.long hlu (by rw [abs_of_nonneg hl]; linarith) hlong
    · exact hround hc.short hsu (by rw [abs_of_nonneg hs]; linarith) hshort
    · show marketValue = _
      unfold Totals.marketValue at hmarket
      rw [hcount] at hmarket
      by_cases hnil : es = []
      · subst hnil
        cases hmarket
        rfl
      · rw [if_neg hnil]
        rw [if_neg (fun h0 => hnil (List.length_eq_zero_iff.mp h0))] at hmarket
        by_cases hvalues : values es = []
        · rw [if_pos hvalues]
          rw [if_neg (fun hp => hpriced.mp hp hvalues)] at hmarket
          exact (Except.ok.inj hmarket).symm
        · rw [if_neg hvalues]
          rw [if_pos (hpriced.mpr hvalues)] at hmarket
          obtain ⟨y, hy, rfl⟩ := map_eq_ok.mp hmarket
          rw [hround hc.net hnu (lt_of_le_of_lt hn hb) hy]
  · exact absurd hgross (roundMoney_refused hlimit)

/-! ### The breakdown by strategy -/

/-- Every position that is shown has a price. -/
def Priced (es : List PositionExposure) : Prop := ∀ e ∈ es, e.marketValue.isSome = true

def grossTotal (buckets : List (UUID × Bucket)) : ℚ := (buckets.map fun p => p.2.gross).sum

/-- What the buckets add up. -/
structure Bucketed (es : List PositionExposure) (buckets : List (UUID × Bucket)) : Prop where
  nodup : (buckets.map Prod.fst).Nodup
  units : ∀ p ∈ buckets, Units (-4) p.2.gross
  nonneg : ∀ p ∈ buckets, 0 ≤ p.2.gross
  total : grossTotal buckets = grossOf (values es)
  priced : Priced es → ∀ p ∈ buckets, p.2.priced = true

/-- The bucket of a key that is there. -/
theorem exists_bucket {buckets : List (UUID × Bucket)} (hn : (buckets.map Prod.fst).Nodup) {e : PositionExposure}
    (h : e.strategyRunId ∈ buckets.map Prod.fst) : ∃ l b l', buckets = l ++ (e.strategyRunId, b) :: l' ∧
      addToBucket buckets e = l ++ (e.strategyRunId, b.add e) :: l' := by
  obtain ⟨⟨k, b⟩, hmem, hk⟩ := List.mem_map.mp h
  dsimp only at hk
  subst hk
  obtain ⟨l, l', rfl⟩ := List.append_of_mem hmem
  refine ⟨l, b, l', rfl, ?_⟩
  rw [List.map_append, List.map_cons, List.nodup_append] at hn
  obtain ⟨-, hn', hdisjoint⟩ := hn
  obtain ⟨hnot', -⟩ := List.nodup_cons.mp hn'
  have hkeep : ∀ ps : List (UUID × Bucket), (∀ p ∈ ps, p.1 ≠ e.strategyRunId) →
      ps.map (fun p => if p.1 = e.strategyRunId then (p.1, p.2.add e) else p) = ps := fun ps hps =>
    (List.map_congr_left fun p hp => if_neg (hps p hp)).trans (List.map_id ps)
  rw [addToBucket, if_pos h, List.map_append, List.map_cons, if_pos rfl]
  rw [hkeep l fun p hp => hdisjoint _ (List.mem_map_of_mem hp) _ List.mem_cons_self,
    hkeep l' fun p hp hk => hnot' (List.mem_map.mpr ⟨p, hp, hk⟩)]

/-- The amount that an exposure adds to its bucket. -/
def amount (e : PositionExposure) : ℚ := |e.marketValue.getD 0|

theorem grossOf_values_concat (es : List PositionExposure) (e : PositionExposure) :
    grossOf (values (es ++ [e])) = grossOf (values es) + amount e := by
  have hvalues : values (es ++ [e]) = values es ++ values [e] := List.filterMap_append
  rw [hvalues]
  cases hx : e.marketValue with
  | none => simp [values, hx, amount]
  | some x => simp [values, hx, amount, grossOf]

/-- A bucket with one exposure more, as long as its sum is not refused. -/
theorem bucket_add {b : Bucket} {e : PositionExposure} (hb : Units (-4) b.gross) (h0 : 0 ≤ b.gross)
    (he : ∀ x ∈ e.marketValue, Units (-4) x) (hlt : b.gross + amount e < limit) :
    (b.add e).gross = b.gross + amount e := by
  cases hx : e.marketValue with
  | none => simp [Bucket.add, hx, amount]
  | some x =>
    have hux := he x hx
    have habs : Units (-4) |x| := units_abs hux
    have hamount : amount e = |x| := by simp [amount, hx]
    rw [hamount] at hlt ⊢
    simp only [Bucket.add, hx]
    refine fix_add_of_lt hb habs ?_
    rwa [abs_of_nonneg (add_nonneg h0 (abs_nonneg x))]

theorem units_amount {e : PositionExposure} (he : ∀ x ∈ e.marketValue, Units (-4) x) : Units (-4) (amount e) := by
  unfold amount
  cases hx : e.marketValue with
  | none =>
    rw [Option.getD_none, abs_zero]
    exact units_zero (-4)
  | some x =>
    rw [Option.getD_some]
    exact units_abs (he x hx)

/-- **One exposure more.** -/
theorem bucketed_add {es : List PositionExposure} {buckets : List (UUID × Bucket)} {e : PositionExposure}
    (h : Bucketed es buckets) (he : ∀ x ∈ e.marketValue, Units (-4) x) (hlt : grossOf (values (es ++ [e])) < limit) :
    Bucketed (es ++ [e]) (addToBucket buckets e) := by
  have hgross := grossOf_values_concat es e
  have hpriced : Priced (es ++ [e]) → Priced es ∧ e.marketValue.isSome = true := fun hp =>
    ⟨fun i hi => hp i (List.mem_append_left _ hi), hp e (by simp)⟩
  by_cases hmem : e.strategyRunId ∈ buckets.map Prod.fst
  · obtain ⟨l, b, l', rfl, hadd⟩ := exists_bucket h.nodup hmem
    have hb : (e.strategyRunId, b) ∈ l ++ (e.strategyRunId, b) :: l' := by simp
    have hsum := h.total
    simp only [grossTotal, List.map_append, List.map_cons, List.sum_append, List.sum_cons] at hsum
    have hl : 0 ≤ (l.map fun p => p.2.gross).sum := List.sum_nonneg fun x hx => by
      obtain ⟨p, hp, rfl⟩ := List.mem_map.mp hx
      exact h.nonneg p (List.mem_append_left _ hp)
    have hl' : 0 ≤ (l'.map fun p => p.2.gross).sum := List.sum_nonneg fun x hx => by
      obtain ⟨p, hp, rfl⟩ := List.mem_map.mp hx
      exact h.nonneg p (List.mem_append_right _ (List.mem_cons_of_mem _ hp))
    have hnew : (b.add e).gross = b.gross + amount e :=
      bucket_add (h.units _ hb) (h.nonneg _ hb) he (by linarith)
    have hrest : ∀ p ∈ l ++ (e.strategyRunId, b.add e) :: l', p = (e.strategyRunId, b.add e) ∨
        p ∈ l ++ (e.strategyRunId, b) :: l' := by
      intro p hp
      simp only [List.mem_append, List.mem_cons] at hp ⊢
      tauto
    rw [hadd]
    constructor
    · have hkeys := h.nodup
      simpa using hkeys
    · intro p hp
      rcases hrest p hp with rfl | hp
      · rw [hnew]
        exact (h.units _ hb).add (units_amount he)
      · exact h.units p hp
    · intro p hp
      rcases hrest p hp with rfl | hp
      · rw [hnew]
        exact add_nonneg (h.nonneg _ hb) (abs_nonneg _)
      · exact h.nonneg p hp
    · simp only [grossTotal, List.map_append, List.map_cons, List.sum_append, List.sum_cons, hnew]
      linarith
    · intro hp p hpmem
      obtain ⟨hes, hsome⟩ := hpriced hp
      rcases hrest p hpmem with rfl | hpmem
      · obtain ⟨x, hx⟩ := Option.isSome_iff_exists.mp hsome
        simp only [Bucket.add, hx]
        exact h.priced hes _ hb
      · exact h.priced hes p hpmem
  · have hnew : (Bucket.add {} e).gross = amount e := by
      have hempty := bucket_add (b := {}) (units_zero (-4)) le_rfl he (by
        have h0 := grossOf_nonneg (values es)
        show 0 + amount e < limit
        linarith)
      rw [hempty]
      exact zero_add _
    rw [addToBucket, if_neg hmem]
    constructor
    · rw [List.map_append, List.map_singleton]
      refine List.nodup_append.mpr ⟨h.nodup, List.nodup_singleton _, fun a ha b hb hab => ?_⟩
      have hkey : a = e.strategyRunId := hab.trans (List.mem_singleton.mp hb)
      exact hmem (hkey ▸ ha)
    · refine List.forall_mem_append.mpr ⟨h.units, ?_⟩
      rw [List.forall_mem_singleton, hnew]
      exact units_amount he
    · refine List.forall_mem_append.mpr ⟨h.nonneg, ?_⟩
      rw [List.forall_mem_singleton, hnew]
      exact abs_nonneg _
    · have hsum := h.total
      simp only [grossTotal, List.map_append, List.sum_append, List.map_singleton, List.sum_singleton, hnew] at hsum ⊢
      linarith
    · intro hp
      obtain ⟨hes, hsome⟩ := hpriced hp
      refine List.forall_mem_append.mpr ⟨h.priced hes, ?_⟩
      obtain ⟨x, hx⟩ := Option.isSome_iff_exists.mp hsome
      rw [List.forall_mem_singleton]
      simp only [Bucket.add, hx]

theorem bucketed_foldl {es : List PositionExposure} (hunits : ∀ x ∈ values es, Units (-4) x)
    (hlt : grossOf (values es) < limit) : Bucketed es (es.foldl addToBucket []) := by
  induction es using List.reverseRecOn with
  | nil => exact ⟨List.nodup_nil, nofun, nofun, rfl, fun _ => nofun⟩
  | append_singleton es e ih =>
    have hvalues : values (es ++ [e]) = values es ++ values [e] := List.filterMap_append
    have hamount : 0 ≤ amount e := abs_nonneg _
    have hgross := grossOf_values_concat es e
    have hold := ih (fun x hx => hunits x (hvalues ▸ List.mem_append_left _ hx)) (by linarith)
    rw [List.foldl_append]
    refine bucketed_add hold (fun x hx => hunits x ?_) hlt
    rw [hvalues]
    refine List.mem_append_right _ ?_
    simpa [values] using hx

/-- **The lines of the breakdown** add up to the gross exposure; without a missing price each line has its own as its
market value. -/
theorem strategyBreakdown_eq_ok {es : List PositionExposure} (hunits : ∀ x ∈ values es, Units (-4) x)
    (hlt : grossOf (values es) < limit) {lines : List StrategyBreakdown} (h : strategyBreakdown es = .ok lines) :
    (lines.map StrategyBreakdown.grossExposure).sum = grossOf (values es) ∧
      (Priced es → ∀ line ∈ lines, line.marketValue = some line.grossExposure) := by
  have hb := bucketed_foldl hunits hlt
  have hall := mapM_eq_ok_iff.mp h
  have hperm := List.mergeSort_perm (es.foldl addToBucket []) fun p q => p.1.str ≤ q.1.str
  generalize (es.foldl addToBucket []).mergeSort (fun p q => decide (p.1.str ≤ q.1.str)) = sorted at hall hperm
  have hline : ∀ p line, p ∈ es.foldl addToBucket [] → breakdownOf p = .ok line → line.grossExposure = p.2.gross ∧
      (p.2.priced = true → line.marketValue = some line.grossExposure) := by
    intro p line hp hline
    have hle : p.2.gross ≤ grossOf (values es) := by
      rw [← hb.total]
      refine List.single_le_sum (fun x hx => ?_) _ (List.mem_map_of_mem hp)
      obtain ⟨q, hq, rfl⟩ := List.mem_map.mp hx
      exact hb.nonneg q hq
    have hround : roundMoney p.2.gross = .ok p.2.gross :=
      roundMoney_of_units (hb.units p hp) (by rw [abs_of_nonneg (hb.nonneg p hp)]; linarith)
    obtain ⟨value, hvalue, hline⟩ := bind_eq_ok.mp hline
    rw [hround] at hline
    cases hline
    refine ⟨rfl, fun hpriced => ?_⟩
    rw [Bucket.marketValue, if_pos hpriced, hround] at hvalue
    exact (Except.ok.inj hvalue).symm
  constructor
  · rw [← hb.total, grossTotal, ← (hperm.map fun p => p.2.gross).sum_eq]
    have hmem : ∀ p ∈ sorted, p ∈ es.foldl addToBucket [] := fun p hp => hperm.mem_iff.mp hp
    clear hperm h
    induction hall with
    | nil => rfl
    | cons hp _ ih =>
      rw [List.map_cons, List.map_cons, List.sum_cons, List.sum_cons, ih fun q hq => hmem q (List.mem_cons_of_mem _ hq),
        (hline _ _ (hmem _ List.mem_cons_self) hp).1]
  · intro hpriced line hmem
    obtain ⟨i, hi, rfl⟩ := List.getElem_of_mem hmem
    have hp := hall.get (by rw [hall.length_eq]; exact hi) hi
    have hin := hperm.mem_iff.mp (List.getElem_mem (by rw [hall.length_eq]; exact hi))
    exact (hline _ _ hin hp).2 (hb.priced hpriced _ hin)

/-! ### The contributions of the positions -/

/-- What an open position adds to the totals: its quantity at the price of the quote, however old. -/
def contribution (prices : UUID → Option ReferencePrice) (pos : PositionInput) : Option ℚ :=
  (prices pos.instrumentId).map fun price => quantize (-4) (Ctx.default.fix (pos.quantity * price.price))

namespace PortfolioInputs

variable (inputs : PortfolioInputs)

def openPositions : List PositionInput := inputs.positions.filter PositionInput.isOpen

def contributions : List ℚ := inputs.openPositions.filterMap (contribution inputs.prices)

/-- `funds.available_cash`. -/
def cash : Option ℚ := inputs.funds.bind FundsState.availableCash

/-- Every open position has a quote. -/
def AllPriced : Prop := ∀ pos ∈ inputs.openPositions, (inputs.prices pos.instrumentId).isSome = true

end PortfolioInputs

theorem roundMoney_eq {x y : ℚ} (h : roundMoney x = .ok y) : y = quantize (-4) x := by
  unfold roundMoney Ctx.quantize? at h
  dsimp only [Ctx.default] at h
  split_ifs at h
  exact (Except.ok.inj h).symm

/-- The exposure of a position. -/
theorem exposureOf_eq_ok {prices : UUID → Option ReferencePrice} {now : DateTime} {maxAgeSeconds : Option ℤ}
    {pos : PositionInput} {e : PositionExposure} (h : exposureOf prices now maxAgeSeconds pos = .ok e) :
    e.instrumentId = pos.instrumentId ∧ e.marketValue = contribution prices pos ∧
      ∃ price, classifyPrice prices now maxAgeSeconds pos.instrumentId = .ok (price, e.priceState) ∧
        price = prices pos.instrumentId := by
  obtain ⟨⟨price, state⟩, hclass, h⟩ := bind_eq_ok.mp h
  have hprice : price = prices pos.instrumentId := by
    unfold classifyPrice at hclass
    cases hp : prices pos.instrumentId with
    | none =>
      rw [hp] at hclass
      cases hclass
      rfl
    | some quote =>
      rw [hp] at hclass
      cases maxAgeSeconds with
      | none =>
        cases hclass
        rfl
      | some maxAge =>
        cases hage : now.sub? quote.observedAt with
        | none =>
          simp only [hage] at hclass
          cases hclass
        | some age =>
          simp only [hage] at hclass
          cases hclass
          rfl
  cases price with
  | none =>
    cases h
    exact ⟨rfl, by rw [contribution, ← hprice]; rfl, none, hclass, hprice⟩
  | some price =>
    obtain ⟨x, hx, h⟩ := bind_eq_ok.mp h
    cases h
    exact ⟨rfl, by rw [contribution, ← hprice, roundMoney_eq hx]; rfl, some price, hclass, hprice⟩

theorem values_eq {prices : UUID → Option ReferencePrice} {now : DateTime} {maxAgeSeconds : Option ℤ}
    {positions : List PositionInput} {es : List PositionExposure}
    (h : List.Forall₂ (fun pos e => exposureOf prices now maxAgeSeconds pos = .ok e) positions es) :
    values es = positions.filterMap (contribution prices) := by
  induction h with
  | nil => rfl
  | cons he _ ih =>
    rw [values, List.filterMap_cons, List.filterMap_cons, (exposureOf_eq_ok he).2.1, ← ih]
    rfl

theorem priced_iff_allPriced {prices : UUID → Option ReferencePrice} {now : DateTime} {maxAgeSeconds : Option ℤ}
    {positions : List PositionInput} {es : List PositionExposure}
    (h : List.Forall₂ (fun pos e => exposureOf prices now maxAgeSeconds pos = .ok e) positions es) :
    Priced es ↔ ∀ pos ∈ positions, (prices pos.instrumentId).isSome = true := by
  induction h with
  | nil => exact ⟨fun _ => nofun, fun _ => nofun⟩
  | cons he _ ih =>
    unfold Priced at ih ⊢
    rw [List.forall_mem_cons, List.forall_mem_cons, ih, (exposureOf_eq_ok he).2.1, contribution, Option.isSome_map]

/-- **What is computed.** -/
structure Computed (inputs : PortfolioInputs) (p : PortfolioComputation) : Prop where
  count : p.positions.length = inputs.openPositions.length
  units : ∀ x ∈ inputs.contributions, Units (-4) x
  bounded : grossOf inputs.contributions < limit
  gross : p.grossExposure = grossOf inputs.contributions
  net : p.netExposure = inputs.contributions.sum
  long : p.longExposure = longOf inputs.contributions
  short : p.shortExposure = shortOf inputs.contributions
  marketValue : ∀ v ∈ p.marketValue, v = inputs.contributions.sum
  known : inputs.AllPriced → p.marketValue.isSome = true
  cash : p.cashBalance = inputs.cash
  complete : p.completeness = .complete ↔ inputs.AllPriced ∧ inputs.cash.isSome = true
  equity : equityOf p.completeness p.cashBalance p.marketValue = .ok p.equityValue
  strategies : (p.strategyBreakdown.map StrategyBreakdown.grossExposure).sum = p.grossExposure
  lines : inputs.AllPriced → ∀ line ∈ p.strategyBreakdown, line.marketValue = some line.grossExposure

theorem computePortfolio_eq_ok {inputs : PortfolioInputs} {now : DateTime} {maxAgeSeconds : Option ℤ}
    {p : PortfolioComputation} (h : computePortfolio inputs now maxAgeSeconds = .ok p) : Computed inputs p := by
  obtain ⟨a, ha, h⟩ := bind_eq_ok.mp h
  obtain ⟨equity, hequity, h⟩ := bind_eq_ok.mp h
  obtain ⟨lines, hlines, h⟩ := bind_eq_ok.mp h
  cases h
  obtain ⟨es, hall, hagg⟩ := aggregatePositions_eq_ok ha
  have hvalues : values es = inputs.contributions := values_eq hall
  have hpriced : Priced es ↔ inputs.AllPriced := priced_iff_allPriced hall
  have hmissing : a.missingIds = [] ↔ inputs.AllPriced := by
    rw [hagg.missingIds, List.map_eq_nil_iff, List.filter_eq_nil_iff, ← hpriced]
    simp [Priced, Option.isSome_iff_ne_none]
  rw [hagg.exposures] at hlines
  obtain ⟨hsum, hline⟩ := strategyBreakdown_eq_ok hagg.units hagg.bounded hlines
  have hcomplete : (if a.missingIds = [] ∧ (inputs.funds.bind FundsState.availableCash).isSome = true then
      Completeness.complete else .partially) = .complete ↔ inputs.AllPriced ∧ inputs.cash.isSome = true := by
    rw [← hmissing]
    split_ifs with hc
    · exact ⟨fun _ => hc, fun _ => rfl⟩
    · exact ⟨nofun, fun h => absurd h hc⟩
  refine ⟨?_, hvalues ▸ hagg.units, hvalues ▸ hagg.bounded, ?_, ?_, ?_, ?_, ?_, ?_, rfl, hcomplete, hequity, ?_, ?_⟩
  · rw [PortfolioInputs.openPositions, hall.length_eq, hagg.exposures]
  · rw [hagg.gross, hvalues]
  · rw [hagg.net, hvalues]
  · rw [hagg.long, hvalues]
  · rw [hagg.short, hvalues]
  · intro v hv
    rw [← hvalues]
    show v = _
    have hmarket := hagg.marketValue
    split_ifs at hmarket with hnil hnone
    · rw [hmarket] at hv
      cases hv
      rw [hnil]
      rfl
    · rw [hmarket] at hv
      cases hv
    · rw [hmarket] at hv
      cases hv
      rfl
  · intro hprices
    show a.marketValue.isSome = true
    have hmarket := hagg.marketValue
    split_ifs at hmarket with hnil hnone
    · rw [hmarket]
      rfl
    · obtain ⟨e, es', rfl⟩ := List.exists_cons_of_ne_nil hnil
      have he := hpriced.mpr hprices e List.mem_cons_self
      obtain ⟨x, hx⟩ := Option.isSome_iff_exists.mp he
      simp [values, hx] at hnone
    · rw [hmarket]
      rfl
  · rw [hsum, hagg.gross]
  · exact fun hprices => hline (hpriced.mpr hprices)

/-! ### The parts and the whole -/

/-- The parts of a portfolio agree with the whole. -/
structure Consistent (inputs : PortfolioInputs) (p : PortfolioComputation) : Prop where
  gross : p.grossExposure = p.longExposure + p.shortExposure
  net : p.netExposure = p.longExposure - p.shortExposure
  strategies : (p.strategyBreakdown.map StrategyBreakdown.grossExposure).sum = p.grossExposure
  values : inputs.AllPriced → ∃ vs : List ℚ, p.strategyBreakdown.map StrategyBreakdown.marketValue = vs.map some ∧
    p.marketValue = some vs.sum
  count : p.positions.length = inputs.openPositions.length
  equity_iff : p.equityValue.isSome = true ↔ p.completeness = .complete
  equity : ∀ e ∈ p.equityValue, ∃ cash value, p.cashBalance = some cash ∧ p.marketValue = some value ∧ e = cash + value

/-- No open position with a quote is worth less than nothing. -/
def PortfolioInputs.NoShort (inputs : PortfolioInputs) : Prop := ∀ x ∈ inputs.contributions, 0 ≤ x

theorem grossOf_eq_sum_iff {xs : List ℚ} : grossOf xs = xs.sum ↔ ∀ x ∈ xs, 0 ≤ x := by
  induction xs with
  | nil => simp [grossOf]
  | cons x xs ih =>
    have hcons : grossOf (x :: xs) = |x| + grossOf xs := by simp [grossOf]
    have hx := le_abs_self x
    have hxs := (le_abs_self _).trans (abs_sum_le xs)
    rw [hcons, List.sum_cons, List.forall_mem_cons, ← ih]
    constructor
    · intro h
      have habs : |x| = x := by
        unfold grossOf at h
        linarith
      exact ⟨abs_eq_self.mp habs, by linarith⟩
    · rintro ⟨h0, h⟩
      rw [abs_of_nonneg h0, h]

/-- A sum with four places is not rounded, or refused. -/
theorem roundMoney_fix {z y : ℚ} (hz : Units (-4) z) (h : roundMoney (Ctx.default.fix z) = .ok y) : y = z := by
  have hlimit : limit = ((10 ^ 28 : ℤ) : ℚ) * 10 ^ (-4 : ℤ) := by norm_num [limit]
  by_cases hlt : |z| < limit
  · have hfix : Ctx.default.fix z = z := Ctx.fix_of_digits (p := 28) (digits_of_units hz hlt)
    rw [hfix, roundMoney_of_units hz hlt] at h
    exact (Except.ok.inj h).symm
  · exfalso
    have hy := (roundMoney_units h).2
    rcases le_abs.mp (not_lt.mp hlt) with hpos | hneg
    · exact roundMoney_refused (limit_le_fix hpos) h
    · have hfix : Ctx.default.fix z ≤ Ctx.default.fix (-limit) := Ctx.fix_mono (p := 28) (by norm_num) (by linarith)
      have hsame : Ctx.default.fix (-limit) = -limit := by
        refine Ctx.fix_of_digits (p := 28) ⟨-1, ((28 : ℕ) : ℤ) + -4, ?_, by norm_num⟩
        rw [limit, Int.cast_neg, Int.cast_one, neg_one_mul]
      rw [hsame] at hfix
      have hquantum := quantize_mono (-4) hfix
      have hnegative : -limit = ((-10 ^ 28 : ℤ) : ℚ) * 10 ^ (-4 : ℤ) := by
        rw [hlimit]
        push_cast
        ring
      rw [hnegative, quantize_of_mul, ← hnegative, ← roundMoney_eq h] at hquantum
      linarith [neg_le_abs y]

/-- **The portfolios whose parts agree with the whole**: with a quote for every open position none is short, and the cash
of a complete portfolio has four places. -/
theorem parts_agree_iff {inputs : PortfolioInputs} {now : DateTime} {maxAgeSeconds : Option ℤ} {p : PortfolioComputation}
    (h : computePortfolio inputs now maxAgeSeconds = .ok p) :
    Consistent inputs p ↔ (inputs.AllPriced → inputs.NoShort ∧ ∀ cash ∈ inputs.cash, Units (-4) cash) := by
  have hp := computePortfolio_eq_ok h
  obtain ⟨hgross, hnet⟩ := gross_net inputs.contributions
  have hmarket : inputs.AllPriced → p.marketValue = some inputs.contributions.sum := by
    intro hall
    obtain ⟨v, hv⟩ := Option.isSome_iff_exists.mp (hp.known hall)
    rw [hv, hp.marketValue v hv]
  have hunits := units_sum hp.units
  constructor
  · intro hc hall
    constructor
    · obtain ⟨vs, hvs, hsum⟩ := hc.values hall
      have hlines : p.strategyBreakdown.map StrategyBreakdown.marketValue =
          (p.strategyBreakdown.map StrategyBreakdown.grossExposure).map some := by
        rw [List.map_map]
        exact List.map_congr_left (hp.lines hall)
      have hsame := List.map_injective_iff.mpr (Option.some_injective ℚ) (hvs.symm.trans hlines)
      rw [hmarket hall, hsame, hc.strategies, hp.gross] at hsum
      exact grossOf_eq_sum_iff.mp (Option.some.inj hsum).symm
    · intro cash hcash
      have hcomplete := hp.complete.mpr ⟨hall, Option.isSome_iff_exists.mpr ⟨cash, hcash⟩⟩
      obtain ⟨e, he⟩ := Option.isSome_iff_exists.mp (hc.equity_iff.mpr hcomplete)
      obtain ⟨cash', value, hcash', hvalue, hsum⟩ := hc.equity e he
      have hequity := hp.equity
      rw [hp.cash] at hcash'
      rw [hmarket hall] at hvalue
      cases hcash.symm.trans hcash'
      cases hvalue
      rw [hcomplete, hp.cash, hcash, hmarket hall, he] at hequity
      obtain ⟨y, hy, hye⟩ := map_eq_ok.mp hequity
      rw [← Option.some.inj hye] at hsum
      have hdifference : cash = y - inputs.contributions.sum := by linarith
      rw [hdifference]
      exact (roundMoney_units hy).1.sub hunits
  · intro hcond
    refine ⟨?_, ?_, hp.strategies, ?_, hp.count, ?_, ?_⟩
    · rw [hp.gross, hp.long, hp.short, hgross]
    · rw [hp.net, hp.long, hp.short, hnet]
    · intro hall
      refine ⟨p.strategyBreakdown.map StrategyBreakdown.grossExposure, ?_, ?_⟩
      · rw [List.map_map]
        exact List.map_congr_left (hp.lines hall)
      · rw [hp.strategies, hp.gross, hmarket hall, grossOf_eq_sum_iff.mpr (hcond hall).1]
    · have hequity := hp.equity
      constructor
      · intro hsome
        unfold equityOf at hequity
        split at hequity
        · assumption
        · rw [← Except.ok.inj hequity] at hsome
          cases hsome
      · intro hcomplete
        obtain ⟨hall, hcash⟩ := hp.complete.mp hcomplete
        obtain ⟨cash, hcash⟩ := Option.isSome_iff_exists.mp hcash
        rw [hcomplete, hp.cash, hcash, hmarket hall] at hequity
        obtain ⟨y, -, hye⟩ := map_eq_ok.mp hequity
        rw [← hye]
        rfl
    · intro e he
      have hequity := hp.equity
      unfold equityOf at hequity
      split at hequity
      · next cash value hcomplete hcash hvalue =>
        obtain ⟨hall, -⟩ := hp.complete.mp hcomplete
        obtain ⟨y, hy, hye⟩ := map_eq_ok.mp hequity
        rw [he] at hye
        rw [hp.cash] at hcash
        have hsum := hp.marketValue value hvalue
        have hround := roundMoney_fix (((hcond hall).2 cash hcash).add (hsum ▸ hunits)) hy
        exact ⟨cash, value, hp.cash.trans hcash, hvalue, (Option.some.inj hye).symm.trans hround⟩
      · rw [← Except.ok.inj hequity] at he
        cases he

/-! ### A short position -/

/-- A portfolio of one position, with a quote of nine in the morning. -/
def heldInputs (quantity : ℤ) (price : ℚ) (h : 0 < price) : PortfolioInputs where
  accountId := ⟨0⟩
  tradingMode := "paper"
  positions := [⟨none, ⟨1⟩, ⟨2⟩, quantity⟩]
  funds := some ⟨some 1000, none, none⟩
  prices := fun _ => some ⟨price, ⟨2026, 1, 1, 9, 0, 0, 0, some 0⟩, h, rfl⟩

def noon : DateTime := ⟨2026, 1, 1, 12, 0, 0, 0, some 0⟩

/-- A long share at 100, and a short one. -/
theorem held_shares : (computePortfolio (heldInputs 1 100 (by norm_num)) noon (some 60)).toOption.map
      (fun p => (p.completeness, p.status, p.grossExposure)) = some (.complete, .degraded, 100) ∧
    (computePortfolio (heldInputs (-1) 100 (by norm_num)) noon none).toOption.map
      (fun p => (p.marketValue, p.strategyBreakdown.map StrategyBreakdown.marketValue)) = some (some (-100), [some 100]) := by
  decide +kernel

theorem exists_of_toOption {ε α β : Type} {x : Except ε α} {f : α → β} {b : β} (h : x.toOption.map f = some b) :
    ∃ a, x = .ok a ∧ f a = b := by
  cases x with
  | error e => cases h
  | ok a => exact ⟨a, rfl, Option.some.inj h⟩

theorem contributions_held : (heldInputs 1 100 (by norm_num)).contributions = [100] ∧
    (heldInputs (-1) 100 (by norm_num)).contributions = [-100] := by
  decide +kernel

theorem quotePrice_pos : (0 : ℚ) < 100 := by norm_num

/-- A quote of 100 at an hour of the day. -/
def quoteAt (hour : ℕ) : ReferencePrice := ⟨100, ⟨2026, 1, 1, hour, 0, 0, 0, some 0⟩, quotePrice_pos, rfl⟩

/-- Three positions of a strategy: an old quote, one of noon, and a third one that may be missing. -/
def mixedInputs (third : Option ReferencePrice) : PortfolioInputs where
  accountId := ⟨0⟩
  tradingMode := "paper"
  positions := [⟨none, ⟨1⟩, ⟨2⟩, 1⟩, ⟨none, ⟨3⟩, ⟨2⟩, 2⟩, ⟨none, ⟨4⟩, ⟨2⟩, 4⟩]
  funds := some ⟨some 1000, none, none⟩
  prices := fun id => if id = ⟨1⟩ then some (quoteAt 9) else if id = ⟨3⟩ then some (quoteAt 12) else third

theorem contributions_mixed : (mixedInputs (some (quoteAt 12))).contributions = [100, 200, 400] ∧
    (mixedInputs none).contributions = [100, 200] := by
  decide +kernel

theorem computed_mixed (third : Option ReferencePrice) (h : third = some (quoteAt 12) ∨ third = none) :
    ∃ p, computePortfolio (mixedInputs third) noon (some 60) = .ok p := by
  have hcomputed : ∀ x : Except PortfolioError PortfolioComputation, x.toOption.isSome = true → ∃ p, x = .ok p := by
    rintro (e | p) hx
    · cases hx
    · exact ⟨p, rfl⟩
  rcases h with rfl | rfl
  · exact hcomputed _ (by decide +kernel)
  · exact hcomputed _ (by decide +kernel)

theorem parts_agree_iff_mixed :
    (∃ p, computePortfolio (mixedInputs (some (quoteAt 12))) noon (some 60) = .ok p ∧
      Consistent (mixedInputs (some (quoteAt 12))) p) ∧
    ∃ p, computePortfolio (mixedInputs none) noon (some 60) = .ok p ∧ Consistent (mixedInputs none) p := by
  constructor
  · obtain ⟨p, hp⟩ := computed_mixed _ (.inl rfl)
    refine ⟨p, hp, (parts_agree_iff hp).mpr fun _ => ⟨?_, ?_⟩⟩
    · unfold PortfolioInputs.NoShort
      rw [contributions_mixed.1]
      norm_num
    · rintro cash ⟨⟩
      exact ⟨10000000, by norm_num⟩
  · obtain ⟨p, hp⟩ := computed_mixed _ (.inr rfl)
    refine ⟨p, hp, (parts_agree_iff hp).mpr fun hall => ?_⟩
    have hquote := hall ⟨none, ⟨4⟩, ⟨2⟩, 4⟩ (List.mem_filter.mpr ⟨by simp [mixedInputs], rfl⟩)
    exact absurd hquote (by decide)

/-- The market value of a short share is that of its strategy with the sign lost. -/
theorem not_parts_agree : ¬ ∀ (inputs : PortfolioInputs) (now : DateTime) (maxAgeSeconds : Option ℤ)
    (p : PortfolioComputation), computePortfolio inputs now maxAgeSeconds = .ok p → Consistent inputs p := by
  intro h
  obtain ⟨p, hp, -⟩ := exists_of_toOption held_shares.2
  have hall : (heldInputs (-1) 100 (by norm_num)).AllPriced := fun pos hpos => rfl
  obtain ⟨hshort, -⟩ := (parts_agree_iff hp).mp (h _ _ _ _ hp) hall
  have hnegative := hshort (-100) (by rw [contributions_held.2]; simp)
  norm_num at hnegative

/-! ### Missing and stale quotes -/

/-- The flags of what is computed. -/
theorem computePortfolio_flags {inputs : PortfolioInputs} {now : DateTime} {maxAgeSeconds : Option ℤ}
    {p : PortfolioComputation} (h : computePortfolio inputs now maxAgeSeconds = .ok p) :
    ∀ pos ∈ inputs.openPositions,
      (inputs.prices pos.instrumentId = none → pos.instrumentId ∈ p.missingInstrumentIds ∧ p.status = .degraded) ∧
      (∀ price, classifyPrice inputs.prices now maxAgeSeconds pos.instrumentId = .ok (some price, .stale) →
        pos.instrumentId ∈ p.staleInstrumentIds ∧ p.status = .degraded) := by
  obtain ⟨a, ha, h⟩ := bind_eq_ok.mp h
  obtain ⟨equity, -, h⟩ := bind_eq_ok.mp h
  obtain ⟨lines, -, h⟩ := bind_eq_ok.mp h
  cases h
  obtain ⟨es, hall, hagg⟩ := aggregatePositions_eq_ok ha
  intro pos hpos
  obtain ⟨i, hi, rfl⟩ := List.getElem_of_mem hpos
  have hi' : i < es.length := by
    rw [← hall.length_eq]
    exact hi
  obtain ⟨hid, hvalue, price', hclass', -⟩ := exposureOf_eq_ok (hall.get hi hi')
  have hmem : es[i] ∈ es := List.getElem_mem hi'
  constructor
  · intro hnone
    have hmissing : inputs.openPositions[i].instrumentId ∈ a.missingIds := by
      rw [hagg.missingIds]
      refine List.mem_map.mpr ⟨es[i], List.mem_filter.mpr ⟨hmem, ?_⟩, hid⟩
      show es[i].marketValue.isNone = true
      have hlost : es[i].marketValue = none := by
        refine hvalue.trans ?_
        rw [contribution]
        exact congrArg _ hnone
      rw [hlost]
      rfl
    exact ⟨hmissing, if_neg fun hc => List.ne_nil_of_mem hmissing hc.1⟩
  · intro price hclass
    obtain ⟨-, hstate⟩ := Prod.mk.inj (Except.ok.inj (hclass'.symm.trans hclass))
    have hquote : (inputs.prices inputs.openPositions[i].instrumentId).isSome = true := by
      cases hp : inputs.prices inputs.openPositions[i].instrumentId with
      | none =>
        rw [classifyPrice, hp] at hclass
        cases hclass
      | some quote => rfl
    have hstale : inputs.openPositions[i].instrumentId ∈ a.staleIds := by
      rw [hagg.staleIds]
      refine List.mem_map.mpr ⟨es[i], List.mem_filter.mpr ⟨hmem, ?_⟩, hid⟩
      have hsome : es[i].marketValue.isSome = true := by
        have hcontribution : es[i].marketValue = contribution inputs.prices inputs.openPositions[i] := hvalue
        rw [hcontribution, contribution, Option.isSome_map]
        exact hquote
      have hstale : es[i].priceState = .stale := hstate
      simp only [hsome, hstale, decide_true, Bool.and_self]
    exact ⟨hstale, if_neg fun hc => List.ne_nil_of_mem hstale hc.2.1⟩

/-- **What missing and stale quotes do to the totals**: a position without a quote adds nothing and makes the portfolio
incomplete; a stale quote counts, and is flagged. -/
theorem priced_totals {inputs : PortfolioInputs} {now : DateTime} {maxAgeSeconds : Option ℤ} {p : PortfolioComputation}
    (h : computePortfolio inputs now maxAgeSeconds = .ok p) :
    (p.grossExposure = grossOf inputs.contributions ∧ p.netExposure = inputs.contributions.sum ∧
      (∀ v ∈ p.marketValue, v = inputs.contributions.sum) ∧
      ∀ e ∈ p.equityValue, ∃ cash ∈ inputs.cash, e = quantize (-4) (Ctx.default.fix (cash + inputs.contributions.sum))) ∧
    (∀ pos ∈ inputs.openPositions, inputs.prices pos.instrumentId = none → contribution inputs.prices pos = none ∧
      p.completeness ≠ .complete ∧ p.status = .degraded ∧ pos.instrumentId ∈ p.missingInstrumentIds) ∧
    (∀ pos ∈ inputs.openPositions, ∀ price,
      classifyPrice inputs.prices now maxAgeSeconds pos.instrumentId = .ok (some price, .stale) →
        (contribution inputs.prices pos).isSome = true ∧ p.status = .degraded ∧
          pos.instrumentId ∈ p.staleInstrumentIds) := by
  have hp := computePortfolio_eq_ok h
  have hflags := computePortfolio_flags h
  refine ⟨⟨hp.gross, hp.net, hp.marketValue, ?_⟩, ?_, ?_⟩
  · intro e he
    have hequity := hp.equity
    unfold equityOf at hequity
    split at hequity
    · next cash value hcomplete hcash hvalue =>
      obtain ⟨y, hy, hye⟩ := map_eq_ok.mp hequity
      rw [he] at hye
      refine ⟨cash, hp.cash.symm.trans hcash, ?_⟩
      rw [← Option.some.inj hye, roundMoney_eq hy, hp.marketValue value hvalue]
    · rw [← Except.ok.inj hequity] at he
      cases he
  · intro pos hpos hnone
    obtain ⟨hmissing, hstatus⟩ := (hflags pos hpos).1 hnone
    refine ⟨by rw [contribution, hnone]; rfl, fun hcomplete => ?_, hstatus, hmissing⟩
    have hsome := (hp.complete.mp hcomplete).1 pos hpos
    rw [hnone] at hsome
    cases hsome
  · intro pos hpos price hclass
    obtain ⟨hstale, hstatus⟩ := (hflags pos hpos).2 price hclass
    refine ⟨?_, hstatus, hstale⟩
    rw [contribution, Option.isSome_map]
    cases hquote : inputs.prices pos.instrumentId with
    | none =>
      rw [classifyPrice, hquote] at hclass
      cases hclass
    | some quote => rfl

theorem priced_totals_mixed : ∃ p, computePortfolio (mixedInputs none) noon (some 60) = .ok p ∧
    p.netExposure = 300 ∧ p.completeness ≠ .complete ∧ ⟨4⟩ ∈ p.missingInstrumentIds ∧ ⟨1⟩ ∈ p.staleInstrumentIds := by
  obtain ⟨p, hp⟩ := computed_mixed _ (.inr rfl)
  obtain ⟨⟨-, hnet, -⟩, hmissing, hstale⟩ := priced_totals hp
  have hage : noon.sub? ⟨2026, 1, 1, 9, 0, 0, 0, some 0⟩ = some 10800000000 := by decide
  have hold : classifyPrice (mixedInputs none).prices noon (some 60) ⟨1⟩ = .ok (some (quoteAt 9), .stale) := by
    simp only [classifyPrice, mixedInputs, if_pos, quoteAt, hage]
    rfl
  obtain ⟨-, hpart, -, hflag⟩ := hmissing ⟨none, ⟨4⟩, ⟨2⟩, 4⟩
    (List.mem_filter.mpr ⟨by simp [mixedInputs], rfl⟩) rfl
  obtain ⟨-, -, hflag'⟩ := hstale ⟨none, ⟨1⟩, ⟨2⟩, 1⟩
    (List.mem_filter.mpr ⟨by simp [mixedInputs], rfl⟩) _ hold
  refine ⟨p, hp, ?_, hpart, hflag, hflag'⟩
  rw [hnet, contributions_mixed.2]
  norm_num

/-- A stale quote is in the totals of a portfolio that is complete. -/
theorem not_stale_excluded : ¬ ∀ (inputs : PortfolioInputs) (now : DateTime) (maxAgeSeconds : Option ℤ)
    (p : PortfolioComputation), computePortfolio inputs now maxAgeSeconds = .ok p → ∀ pos ∈ inputs.openPositions, ∀ price,
      classifyPrice inputs.prices now maxAgeSeconds pos.instrumentId = .ok (some price, .stale) →
        p.completeness ≠ .complete ∧ ∀ (inputs' : PortfolioInputs) (p' : PortfolioComputation),
          { inputs' with prices := inputs.prices } = inputs →
          (∀ id, id ≠ pos.instrumentId → inputs'.prices id = inputs.prices id) →
          computePortfolio inputs' now maxAgeSeconds = .ok p' → p'.grossExposure = p.grossExposure := by
  intro h
  obtain ⟨p, hp, hfields⟩ := exists_of_toOption held_shares.1
  have hage : noon.sub? ⟨2026, 1, 1, 9, 0, 0, 0, some 0⟩ = some 10800000000 := by decide
  have hstale : ∃ price, classifyPrice (heldInputs 1 100 (by norm_num)).prices noon (some 60) ⟨1⟩ =
      .ok (some price, .stale) := by
    refine ⟨⟨100, ⟨2026, 1, 1, 9, 0, 0, 0, some 0⟩, by norm_num, rfl⟩, ?_⟩
    simp only [classifyPrice, heldInputs, hage]
    rfl
  obtain ⟨price, hprice⟩ := hstale
  have hpos : (⟨none, ⟨1⟩, ⟨2⟩, 1⟩ : PositionInput) ∈ (heldInputs 1 100 (by norm_num)).openPositions :=
    List.mem_filter.mpr ⟨List.mem_singleton.mpr rfl, rfl⟩
  exact (h _ _ _ p hp _ hpos price hprice).1 (Prod.mk.inj hfields).1

end AlphaAlgo.Portfolio
