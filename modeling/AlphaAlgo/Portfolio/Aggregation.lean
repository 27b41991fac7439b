import AlphaAlgo.Base.Values
import AlphaAlgo.Lib.Loop
import AlphaAlgo.Lib.Sums

/-!
# Aggregation — positions, reference prices and the state of a portfolio

`computePortfolio` adds up the exposures of the open positions at their reference prices.  A price may be missing or stale;
a stale one counts and is flagged.  Amounts are computed in the default context and rounded to four places, which is
refused beyond 28 digits; ages are compared exactly, where the source compares `total_seconds()` as a floating point
number.

* `run_step`: the loop adds one exposure for each open position.
* `counted_foldl`: what is added up is not rounded, or the gross total is refused.
-/

namespace AlphaAlgo.Portfolio

open Loop

/-! ### Contracts -/

/-- `InvalidOperation`, and what the difference of a naive and an aware timestamp raises. -/
inductive PortfolioError where
  | invalidOperation
  | typeError
deriving DecidableEq

structure PositionInput where
  positionId : Option UUID
  instrumentId : UUID
  strategyRunId : UUID
  quantity : ℤ

def PositionInput.isOpen (pos : PositionInput) : Bool := pos.quantity ≠ 0

/-- The last two fields are the checks of `__post_init__`. -/
structure ReferencePrice where
  price : ℚ
  observedAt : DateTime
  price_pos : 0 < price
  observed_aware : observedAt.aware = true

structure FundsState where
  availableCash : Option ℚ
  availableMargin : Option ℚ
  usedMargin : Option ℚ

inductive PriceState where
  | fresh
  | stale
  | missing
deriving DecidableEq

structure PositionExposure where
  positionId : Option UUID
  instrumentId : UUID
  strategyRunId : UUID
  quantity : ℤ
  referencePrice : Option ℚ
  marketValue : Option ℚ
  priceState : PriceState

structure StrategyBreakdown where
  strategyRunId : UUID
  positionCount : ℕ
  marketValue : Option ℚ
  grossExposure : ℚ

structure PortfolioInputs where
  accountId : UUID
  tradingMode : String
  positions : List PositionInput
  funds : Option FundsState
  prices : UUID → Option ReferencePrice

inductive Completeness where
  | complete
  | partially
deriving DecidableEq

inductive Status where
  | ready
  | degraded
deriving DecidableEq

structure PortfolioComputation where
  accountId : UUID
  tradingMode : String
  status : Status
  completeness : Completeness
  positionCount : ℕ
  grossExposure : ℚ
  netExposure : ℚ
  longExposure : ℚ
  shortExposure : ℚ
  marketValue : Option ℚ
  cashBalance : Option ℚ
  equityValue : Option ℚ
  availableMargin : Option ℚ
  usedMargin : Option ℚ
  fundsAvailable : Bool
  missingInstrumentIds : List UUID
  staleInstrumentIds : List UUID
  positions : List PositionExposure
  strategyBreakdown : List StrategyBreakdown
  snapshotAt : DateTime

/-! ### Prices -/

def roundMoney (x : ℚ) : Except PortfolioError ℚ :=
  match Ctx.default.quantize? (-4) x with
  | some y => .ok y
  | none => .error .invalidOperation

section Aggregate

variable (prices : UUID → Option ReferencePrice) (now : DateTime) (maxAgeSeconds : Option ℤ)

/-- `classify_price`. -/
def classifyPrice (instrumentId : UUID) : Except PortfolioError (Option ReferencePrice × PriceState) :=
  match prices instrumentId with
  | none => .ok (none, .missing)
  | some price =>
    match maxAgeSeconds with
    | none => .ok (some price, .fresh)
    | some maxAge =>
      match now.sub? price.observedAt with
      | none => .error .typeError
      | some age => .ok (some price, if maxAge * 1000000 < age ∨ age < 0 then .stale else .fresh)

/-- `_signed_exposure`. -/
def signedExposure (quantity : ℤ) (price : ℚ) : Except PortfolioError ℚ := roundMoney (Ctx.default.fix (quantity * price))

/-- The exposure of an open position. -/
def exposureOf (pos : PositionInput) : Except PortfolioError PositionExposure := do
  match ← classifyPrice prices now maxAgeSeconds pos.instrumentId with
  | (none, state) => return ⟨pos.positionId, pos.instrumentId, pos.strategyRunId, pos.quantity, none, none, state⟩
  | (some price, state) =>
    let exposure ← signedExposure pos.quantity price.price
    return ⟨pos.positionId, pos.instrumentId, pos.strategyRunId, pos.quantity, some price.price, some exposure, state⟩

/-! ### The loop over the positions -/

/-- The variables of `aggregate_positions`. -/
structure Totals where
  exposures : List PositionExposure := []
  gross : ℚ := 0
  net : ℚ := 0
  long : ℚ := 0
  short : ℚ := 0
  missingIds : List UUID := []
  staleIds : List UUID := []
  anyPriced : Bool := false
  openCount : ℕ := 0

/-- What the loop does with the exposure of an open position. -/
def Totals.add (s : Totals) (e : PositionExposure) : Totals :=
  match e.marketValue with
  | none =>
    { s with
      openCount := s.openCount + 1
      missingIds := s.missingIds ++ [e.instrumentId]
      exposures := s.exposures ++ [e] }
  | some exposure =>
    { openCount := s.openCount + 1
      missingIds := s.missingIds
      staleIds := if e.priceState = .stale then s.staleIds ++ [e.instrumentId] else s.staleIds
      anyPriced := true
      gross := Ctx.default.fix (s.gross + |exposure|)
      net := Ctx.default.fix (s.net + exposure)
      long := if 0 < exposure then Ctx.default.fix (s.long + exposure) else s.long
      short := if 0 < exposure then s.short else Ctx.default.fix (s.short + -exposure)
      exposures := s.exposures ++ [e] }

def step (s : Totals) (pos : PositionInput) : Except PortfolioError Totals :=
  if pos.isOpen = false then .ok s
  else do
    let e ← exposureOf prices now maxAgeSeconds pos
    return s.add e

/-- What `aggregate_positions` returns. -/
structure Aggregate where
  exposures : List PositionExposure
  gross : ℚ
  net : ℚ
  long : ℚ
  short : ℚ
  marketValue : Option ℚ
  missingIds : List UUID
  staleIds : List UUID

/-- The market value: that of no positions is known, that of positions without a price is not. -/
def Totals.marketValue (s : Totals) : Except PortfolioError (Option ℚ) :=
  if s.openCount = 0 then .ok (some 0) else if s.anyPriced then (roundMoney s.net).map some else .ok none

/-- The end of `aggregate_positions`. -/
def Totals.finish (s : Totals) : Except PortfolioError Aggregate := do
  let marketValue ← s.marketValue
  let gross ← roundMoney s.gross
  let net ← roundMoney s.net
  let long ← roundMoney s.long
  let short ← roundMoney s.short
  return ⟨s.exposures, gross, net, long, short, marketValue, s.missingIds, s.staleIds⟩

def aggregatePositions (positions : List PositionInput) : Except PortfolioError Aggregate := do
  let s ← run (step prices now maxAgeSeconds) {} positions
  s.finish

end Aggregate

/-! ### Strategies -/

structure Bucket where
  count : ℕ := 0
  gross : ℚ := 0
  priced : Bool := true

/-- A bucket with one exposure more. -/
def Bucket.add (b : Bucket) (e : PositionExposure) : Bucket :=
  match e.marketValue with
  | some x => { b with count := b.count + 1, gross := Ctx.default.fix (b.gross + |x|) }
  | none => { b with count := b.count + 1, priced := false }

/-- `setdefault` and the updates of the bucket. -/
def addToBucket (buckets : List (UUID × Bucket)) (e : PositionExposure) : List (UUID × Bucket) :=
  if e.strategyRunId ∈ buckets.map Prod.fst then
    buckets.map fun p => if p.1 = e.strategyRunId then (p.1, p.2.add e) else p
  else buckets ++ [(e.strategyRunId, Bucket.add {} e)]

def Bucket.marketValue (b : Bucket) : Except PortfolioError (Option ℚ) :=
  if b.priced then (roundMoney b.gross).map some else .ok none

/-- A line of the breakdown. -/
def breakdownOf (p : UUID × Bucket) : Except PortfolioError StrategyBreakdown := do
  let marketValue ← p.2.marketValue
  let gross ← roundMoney p.2.gross
  return ⟨p.1, p.2.count, marketValue, gross⟩

def strategyBreakdown (exposures : List PositionExposure) : Except PortfolioError (List StrategyBreakdown) :=
  ((exposures.foldl addToBucket []).mergeSort fun p q => p.1.str ≤ q.1.str).mapM breakdownOf

/-! ### The portfolio -/

/-- The equity of a complete portfolio. -/
def equityOf (completeness : Completeness) (cashBalance marketValue : Option ℚ) : Except PortfolioError (Option ℚ) :=
  match completeness, cashBalance, marketValue with
  | .complete, some cash, some value => (roundMoney (Ctx.default.fix (cash + value))).map some
  | _, _, _ => .ok none

def computePortfolio (inputs : PortfolioInputs) (now : DateTime) (maxAgeSeconds : Option ℤ) :
    Except PortfolioError PortfolioComputation := do
  let a ← aggregatePositions inputs.prices now maxAgeSeconds inputs.positions
  let cashBalance := inputs.funds.bind FundsState.availableCash
  let fundsAvailable := cashBalance.isSome
  let completeness := if a.missingIds = [] ∧ fundsAvailable = true then Completeness.complete else .partially
  let status := if a.missingIds = [] ∧ a.staleIds = [] ∧ fundsAvailable = true then Status.ready else .degraded
  let equityValue ← equityOf completeness cashBalance a.marketValue
  let breakdown ← strategyBreakdown a.exposures
  return {
    accountId := inputs.accountId
    tradingMode := upper inputs.tradingMode
    status := status
    completeness := completeness
    positionCount := (inputs.positions.filter PositionInput.isOpen).length
    grossExposure := a.gross
    netExposure := a.net
    longExposure := a.long
    shortExposure := a.short
    marketValue := a.marketValue
    cashBalance := cashBalance
    equityValue := equityValue
    availableMargin := inputs.funds.bind FundsState.availableMargin
    usedMargin := inputs.funds.bind FundsState.usedMargin
    fundsAvailable := fundsAvailable
    missingInstrumentIds := a.missingIds
    staleInstrumentIds := a.staleIds
    positions := a.exposures
    strategyBreakdown := breakdown
    snapshotAt := now }

/-! ### Amounts that are added up -/

/-- The amounts from which a total is refused: more than 28 digits with four places. -/
def limit : ℚ := 10 ^ (((28 : ℕ) : ℤ) + -4)

theorem roundMoney_units {x y : ℚ} (h : roundMoney x = .ok y) : Units (-4) y ∧ |y| < limit := by
  unfold roundMoney Ctx.quantize? at h
  dsimp only [Ctx.default] at h
  split_ifs at h with hlimit
  cases h
  exact ⟨units_quantize _ _, hlimit⟩

theorem roundMoney_of_units {x : ℚ} (h : Units (-4) x) (hx : |x| < limit) : roundMoney x = .ok x := by
  have hround : Ctx.default.quantize? (-4) x = some x := Ctx.quantize?_of_units h hx
  unfold roundMoney
  rw [hround]

/-- From the limit on, a total is refused. -/
theorem roundMoney_refused {x : ℚ} (h : limit ≤ x) {y : ℚ} : roundMoney x ≠ .ok y := by
  have hunits : limit = ((10 ^ 28 : ℤ) : ℚ) * 10 ^ (-4 : ℤ) := by norm_num [limit]
  have hle : limit ≤ quantize (-4) x := by
    rw [hunits] at h ⊢
    exact le_quantize h
  unfold roundMoney Ctx.quantize?
  dsimp only [Ctx.default]
  rw [if_neg]
  · nofun
  · intro hlt
    exact absurd (hle.trans (le_abs_self _)) (not_le.mpr hlt)

theorem fix_add_of_lt {x y : ℚ} (hx : Units (-4) x) (hy : Units (-4) y) (h : |x + y| < limit) :
    Ctx.default.fix (x + y) = x + y := Ctx.fix_of_digits (p := 28) (digits_of_units (hx.add hy) h)

theorem limit_le_fix {x : ℚ} (h : limit ≤ x) : limit ≤ Ctx.default.fix x := by
  refine Ctx.le_fix (p := 28) (by norm_num) ⟨1, ((28 : ℕ) : ℤ) + -4, by rw [limit, Int.cast_one, one_mul], by norm_num⟩ ?_ h
  exact (ten_zpow_pos _).le

/-! ### The sums of a list of exposures -/

def grossOf (xs : List ℚ) : ℚ := (xs.map fun x => |x|).sum

def longOf (xs : List ℚ) : ℚ := (xs.map fun x => max x 0).sum

def shortOf (xs : List ℚ) : ℚ := (xs.map fun x => max (-x) 0).sum

/-- **Gross and net** are the sum and the difference of what is long and what is short. -/
theorem gross_net (xs : List ℚ) : grossOf xs = longOf xs + shortOf xs ∧ xs.sum = longOf xs - shortOf xs := by
  induction xs with
  | nil => simp [grossOf, longOf, shortOf]
  | cons x xs ih =>
    obtain ⟨hgross, hnet⟩ := ih
    simp only [grossOf, longOf, shortOf, List.map_cons, List.sum_cons] at hgross hnet ⊢
    rcases le_total 0 x with hx | hx
    · rw [abs_of_nonneg hx, max_eq_left hx, max_eq_right (neg_nonpos.mpr hx)]
      constructor <;> linarith
    · rw [abs_of_nonpos hx, max_eq_right hx, max_eq_left (neg_nonneg.mpr hx)]
      constructor <;> linarith

theorem grossOf_concat (xs : List ℚ) (x : ℚ) : grossOf (xs ++ [x]) = grossOf xs + |x| := by
  simp [grossOf]

theorem grossOf_nonneg (xs : List ℚ) : 0 ≤ grossOf xs := List.sum_nonneg fun y hy => by
  obtain ⟨x, -, rfl⟩ := List.mem_map.mp hy
  exact abs_nonneg x

/-- Each of the sums is between the gross total and its negative. -/
theorem abs_sums_le (xs : List ℚ) : |xs.sum| ≤ grossOf xs ∧ 0 ≤ longOf xs ∧ longOf xs ≤ grossOf xs ∧ 0 ≤ shortOf xs ∧
    shortOf xs ≤ grossOf xs := by
  obtain ⟨hgross, -⟩ := gross_net xs
  have hlong : 0 ≤ longOf xs := List.sum_nonneg fun y hy => by
    obtain ⟨x, -, rfl⟩ := List.mem_map.mp hy
    exact le_max_right _ _
  have hshort : 0 ≤ shortOf xs := List.sum_nonneg fun y hy => by
    obtain ⟨x, -, rfl⟩ := List.mem_map.mp hy
    exact le_max_right _ _
  exact ⟨abs_sum_le xs, hlong, by linarith, hshort, by linarith⟩

theorem units_abs {x : ℚ} (h : Units (-4) x) : Units (-4) |x| := by
  rcases abs_choice x with he | he
  · rw [he]
    exact h
  · rw [he]
    exact h.neg

theorem units_sums {xs : List ℚ} (h : ∀ x ∈ xs, Units (-4) x) :
    Units (-4) (grossOf xs) ∧ Units (-4) xs.sum ∧ Units (-4) (longOf xs) ∧ Units (-4) (shortOf xs) := by
  have hpart : ∀ f : ℚ → ℚ, (∀ x, f x = x ∨ f x = -x ∨ f x = 0) → Units (-4) (xs.map f).sum := by
    intro f hf
    refine units_sum fun y hy => ?_
    obtain ⟨x, hx, rfl⟩ := List.mem_map.mp hy
    rcases hf x with he | he | he
    · rw [he]
      exact h x hx
    · rw [he]
      exact (h x hx).neg
    · rw [he]
      exact units_zero (-4)
  refine ⟨hpart _ fun x => ?_, units_sum h, hpart _ fun x => ?_, hpart _ fun x => ?_⟩
  · rcases abs_choice x with he | he
    · exact Or.inl he
    · exact Or.inr (Or.inl he)
  · rcases max_choice x 0 with he | he
    · exact Or.inl he
    · exact Or.inr (Or.inr he)
  · rcases max_choice (-x) 0 with he | he
    · exact Or.inr (Or.inl he)
    · exact Or.inr (Or.inr he)

/-! ### What the loop adds up -/

/-- The market values of the priced positions. -/
def values (es : List PositionExposure) : List ℚ := es.filterMap PositionExposure.marketValue

/-- The loop adds one exposure for each open position. -/
theorem run_step {prices : UUID → Option ReferencePrice} {now : DateTime} {maxAgeSeconds : Option ℤ} (s : Totals)
    (l : List PositionInput) : run (step prices now maxAgeSeconds) s l =
      ((l.filter PositionInput.isOpen).mapM (exposureOf prices now maxAgeSeconds)).map (·.foldl Totals.add s) := by
  induction l generalizing s with
  | nil => rfl
  | cons pos l ih =>
    rw [run_cons, step]
    by_cases hopen : pos.isOpen = true
    · rw [List.filter_cons_of_pos hopen, List.mapM_cons, if_neg (by simp [hopen])]
      cases he : exposureOf prices now maxAgeSeconds pos with
      | error e => rfl
      | ok e =>
        show run (step prices now maxAgeSeconds) (s.add e) l = _
        rw [ih]
        show _ = Except.map _ ((List.mapM _ _) >>= _)
        cases (l.filter PositionInput.isOpen).mapM (exposureOf prices now maxAgeSeconds) with
        | error e' => rfl
        | ok es => rfl
    · rw [List.filter_cons_of_neg hopen, if_pos (by simpa using hopen)]
      exact ih s

/-- The totals are the sums, and the gross one is not refused. -/
structure Counted (xs : List ℚ) (s : Totals) : Prop where
  gross : s.gross = grossOf xs
  net : s.net = xs.sum
  long : s.long = longOf xs
  short : s.short = shortOf xs
  bounded : grossOf xs < limit

/-- What one more amount makes of the totals. -/
theorem counted_add {xs : List ℚ} {s : Totals} {e : PositionExposure} {x : ℚ} (hx : e.marketValue = some x)
    (hs : Counted xs s) (hunits : ∀ y ∈ xs ++ [x], Units (-4) y) (hlt : grossOf (xs ++ [x]) < limit) :
    Counted (xs ++ [x]) (s.add e) := by
  have hold := units_sums fun y hy => hunits y (List.mem_append_left _ hy)
  have hux : Units (-4) x := hunits x (by simp)
  obtain ⟨hnet, hlong, hlongle, hshort, hshortle⟩ := abs_sums_le (xs ++ [x])
  have hsums : (xs ++ [x]).sum = xs.sum + x ∧ longOf (xs ++ [x]) = longOf xs + max x 0 ∧
      shortOf (xs ++ [x]) = shortOf xs + max (-x) 0 := by
    simp [longOf, shortOf]
  have hgross := grossOf_concat xs x
  have hpositive := grossOf_nonneg (xs ++ [x])
  rw [hsums.1] at hnet
  rw [hsums.2.1] at hlong hlongle
  rw [hsums.2.2] at hshort hshortle
  rw [hgross] at hnet hlongle hshortle hpositive hlt
  have habs : Units (-4) |x| := units_abs hux
  constructor
  · simp only [Totals.add, hx]
    rw [hgross, hs.gross]
    exact fix_add_of_lt hold.1 habs (by rwa [abs_of_nonneg hpositive])
  · simp only [Totals.add, hx]
    rw [hsums.1, hs.net]
    exact fix_add_of_lt hold.2.1 hux (lt_of_le_of_lt hnet hlt)
  · simp only [Totals.add, hx]
    rw [hsums.2.1]
    by_cases hpos : 0 < x
    · rw [max_eq_left hpos.le] at hlong hlongle ⊢
      rw [if_pos hpos, hs.long]
      exact fix_add_of_lt hold.2.2.1 hux (by rw [abs_of_nonneg hlong]; linarith)
    · rw [if_neg hpos, hs.long, max_eq_right (not_lt.mp hpos), add_zero]
  · simp only [Totals.add, hx]
    rw [hsums.2.2]
    by_cases hpos : 0 < x
    · rw [if_pos hpos, hs.short, max_eq_right (by linarith), add_zero]
    · rw [max_eq_left (by linarith)] at hshort hshortle ⊢
      rw [if_neg hpos, hs.short]
      exact fix_add_of_lt hold.2.2.2 hux.neg (by rw [abs_of_nonneg hshort]; linarith)
  · rwa [hgross]

/-- **What is added up is not rounded**, or the gross total is refused. -/
theorem counted_foldl {es : List PositionExposure} (hunits : ∀ x ∈ values es, Units (-4) x) :
    Counted (values es) (es.foldl Totals.add {}) ∨ limit ≤ (es.foldl Totals.add {}).gross := by
  induction es using List.reverseRecOn with
  | nil =>
    refine Or.inl ⟨rfl, rfl, rfl, rfl, ?_⟩
    exact ten_zpow_pos _
  | append_singleton es e ih =>
    rw [List.foldl_append]
    show Counted _ ((es.foldl Totals.add {}).add e) ∨ limit ≤ ((es.foldl Totals.add {}).add e).gross
    have hvalues : values (es ++ [e]) = values es ++ values [e] := List.filterMap_append
    rw [hvalues] at hunits ⊢
    have ih' := ih fun x hx => hunits x (List.mem_append_left _ hx)
    cases hx : e.marketValue with
    | none =>
      have hnone : values [e] = [] := by simp [values, hx]
      rw [hnone, List.append_nil]
      simp only [Totals.add, hx]
      rcases ih' with h | h
      · exact Or.inl ⟨h.gross, h.net, h.long, h.short, h.bounded⟩
      · exact Or.inr h
    | some x =>
      have hsome : values [e] = [x] := by simp [values, hx]
      rw [hsome] at hunits ⊢
      have hgross : ((es.foldl Totals.add {}).add e).gross = Ctx.default.fix ((es.foldl Totals.add {}).gross + |x|) := by
        rw [Totals.add, hx]
      rcases ih' with h | h
      · by_cases hlt : grossOf (values es ++ [x]) < limit
        · exact Or.inl (counted_add hx h hunits hlt)
        · refine Or.inr ?_
          rw [hgross, h.gross, ← grossOf_concat]
          exact limit_le_fix (not_lt.mp hlt)
      · refine Or.inr ?_
        rw [hgross]
        exact limit_le_fix (h.trans (le_add_of_nonneg_right (abs_nonneg x)))

end AlphaAlgo.Portfolio
