import AlphaAlgo.Pnl.Aggregation

/-!
# Valuation — positions at a reference price

`markToMarket` values an open position at a reference price; `positionPnl` adds what the stored events of the position
realised.  A price that is missing or not positive gives no value, a stale one a value that is flagged.  Ages are compared
exactly, where the source compares `total_seconds()` as a floating point number.

* `classifyPrice_eq_ok`: the usable prices.
* `realized_close`: the stored events of a position against the gross profit and the costs of its sales.
* `valued`: realised and unrealised profit together are the money received less the money paid and the costs, plus the
  value of what is held, up to the rounding.
-/

namespace AlphaAlgo.Pnl

open Position

/-! ### Prices -/

inductive PnlStatus where
  | ready
  | degraded
  | unavailable
  | conflict
  deriving DecidableEq

def PnlStatus.value : PnlStatus → String
  | ready => "READY"
  | degraded => "DEGRADED"
  | unavailable => "UNAVAILABLE"
  | conflict => "CONFLICT"

inductive PriceState where
  | fresh
  | stale
  | missing
  deriving DecidableEq

/-- What is read of a reference price. -/
structure MarketPrice where
  price : ℚ
  observedAt : DateTime

inductive ValuationError where
  | notPositive
  | incomparable
  | accounting (error : AccountingError)
  deriving DecidableEq

def ValuationError.text : ValuationError → String
  | notPositive => "open_quantity must be positive"
  | incomparable => "can't compare offset-naive and offset-aware datetimes"
  | accounting error => error.text

section Prices

variable (price : Option MarketPrice) (now : DateTime) (maxAgeSeconds : Option ℤ)

def classifyPrice : Except ValuationError (Option ℚ × PriceState) :=
  match price with
  | none => .ok (none, .missing)
  | some p =>
    if p.price ≤ 0 then .ok (none, .missing)
    else match maxAgeSeconds with
      | none => .ok (some p.price, .fresh)
      | some maxAge =>
        match now.sub? p.observedAt with
        | none => .error .incomparable
        | some age => .ok (some p.price, if age < 0 ∨ maxAge * 1000000 < age then .stale else .fresh)

/-- The price is positive, not later than `now`, and no older than allowed. -/
def Current (p : MarketPrice) : Prop :=
  0 < p.price ∧ ∀ maxAge ∈ maxAgeSeconds, ∃ age, now.sub? p.observedAt = some age ∧ 0 ≤ age ∧ age ≤ maxAge * 1000000

/-! ### Marking to market -/

structure UnrealizedPnl where
  positionId : Option UUID
  instrumentId : UUID
  quantity : ℤ
  averageCost : Option ℚ
  referencePrice : Option ℚ
  unrealizedPnl : Option ℚ
  priceState : PriceState
  status : PnlStatus

structure PositionPnl where
  positionId : Option UUID
  accountId : Option UUID
  strategyRunId : UUID
  instrumentId : UUID
  tradingMode : String
  quantity : ℤ
  averageCost : Option ℚ
  referencePrice : Option ℚ
  marketValue : Option ℚ
  unrealizedPnl : Option ℚ
  realizedPnl : ℚ
  status : PnlStatus

variable (ctx : Ctx)

def unrealizedPnlLong (referencePrice averageCost : ℚ) (openQuantity : ℤ) : Except ValuationError ℚ :=
  if openQuantity ≤ 0 then .error .notPositive
  else (roundMoney ctx (ctx.fix (ctx.fix (referencePrice - averageCost) * openQuantity))).mapError .accounting

/-- The status of a value at a price. -/
def PriceState.status : PriceState → PnlStatus
  | .fresh => .ready
  | _ => .degraded

def markToMarket (quantity : ℤ) (averageCost : Option ℚ) (positionId : Option UUID) (instrumentId : UUID) :
    Except ValuationError UnrealizedPnl :=
  if quantity = 0 then .ok ⟨positionId, instrumentId, 0, averageCost, none, some 0, .fresh, .ready⟩
  else match averageCost with
    | none => .ok ⟨positionId, instrumentId, quantity, none, none, none, .missing, .unavailable⟩
    | some cost => do
      match ← classifyPrice price now maxAgeSeconds with
      | (none, _) => return ⟨positionId, instrumentId, quantity, some cost, none, none, .missing, .unavailable⟩
      | (some reference, state) =>
        let u ← unrealizedPnlLong ctx reference cost quantity
        return ⟨positionId, instrumentId, quantity, some cost, some reference, some u, state, state.status⟩

def positionPnl (position : PositionState) (realizedPnl : ℚ) : Except ValuationError PositionPnl := do
  let u ← markToMarket price now maxAgeSeconds ctx position.quantity position.averagePrice position.positionId
    position.identity.instrumentId
  return {
    positionId := position.positionId
    accountId := position.accountId
    strategyRunId := position.identity.strategyRunId
    instrumentId := position.identity.instrumentId
    tradingMode := position.identity.tradingMode
    quantity := position.quantity
    averageCost := position.averagePrice
    referencePrice := u.referencePrice
    marketValue := if 0 < u.quantity then u.referencePrice.map fun r => ctx.fix (r * u.quantity) else none
    unrealizedPnl := u.unrealizedPnl
    realizedPnl := realizedPnl
    status := u.status }

end Prices

/-- The net amounts of the events of a position. -/
def realizedPnlForPosition (db : PnlDb) (positionId : UUID) : ℚ :=
  ((db.events.rows.filter fun e => e.positionId = some positionId && e.eventType = .realizedPnl).map PnlEvent.netPnl).sum

/-! ### What a valuation is -/

section Marked

variable {price : Option MarketPrice} {now : DateTime} {maxAgeSeconds : Option ℤ} {ctx : Ctx}

/-- The usable prices. -/
theorem classifyPrice_eq_ok {r : Option ℚ × PriceState} (h : classifyPrice price now maxAgeSeconds = .ok r) :
    (r.1 = none ∧ ∀ p ∈ price, p.price ≤ 0) ∨
      ∃ p ∈ price, 0 < p.price ∧ r.1 = some p.price ∧ (r.2.status = .ready ↔ Current now maxAgeSeconds p) ∧
        r.2.status ≠ .unavailable := by
  cases price with
  | none =>
    cases h
    exact .inl ⟨rfl, by simp⟩
  | some p =>
    unfold classifyPrice at h
    simp only at h
    split_ifs at h with hpos
    · cases h
      exact .inl ⟨rfl, by simpa using hpos⟩
    · refine .inr ⟨p, rfl, not_le.mp hpos, ?_⟩
      cases maxAgeSeconds with
      | none =>
        cases h
        simp [Current, PriceState.status, not_le.mp hpos]
      | some maxAge =>
        simp only at h
        cases hage : now.sub? p.observedAt with
        | none => rw [hage] at h; cases h
        | some age =>
          rw [hage] at h
          cases h
          by_cases hold : age < 0 ∨ maxAge * 1000000 < age
          · refine ⟨rfl, ?_, by simp [hold, PriceState.status]⟩
            simp only [hold, if_true, PriceState.status, Current, hage]
            simp only [reduceCtorEq, false_iff]
            rintro ⟨-, hcur⟩
            obtain ⟨age', hsame, h0, h1⟩ := hcur maxAge rfl
            cases hsame
            omega
          · refine ⟨rfl, ?_, by simp [hold, PriceState.status]⟩
            simp only [hold, if_false, PriceState.status, Current, hage, true_iff]
            refine ⟨not_le.mp hpos, ?_⟩
            rintro maxAge' ⟨⟩
            exact ⟨age, rfl, by omega, by omega⟩

/-- The value of a quantity at a price. -/
inductive Marked (price : Option MarketPrice) (now : DateTime) (maxAgeSeconds : Option ℤ) (ctx : Ctx) (quantity : ℤ)
    (averageCost : Option ℚ) (u : UnrealizedPnl) : Prop
  /-- Nothing is held. -/
  | flat (hflat : quantity = 0) (hquantity : u.quantity = 0) (hreference : u.referencePrice = none)
      (hvalue : u.unrealizedPnl = some 0) (hstatus : u.status = .ready)
  /-- There is no price, or no cost to compare it with. -/
  | unpriced (hheld : quantity ≠ 0) (hprice : averageCost = none ∨ ∀ p ∈ price, p.price ≤ 0)
      (hreference : u.referencePrice = none) (hvalue : u.unrealizedPnl = none) (hstatus : u.status = .unavailable)
  /-- The value at a price. -/
  | priced {cost v : ℚ} {p : MarketPrice} (hheld : 0 < quantity) (hcost : averageCost = some cost) (hprice : p ∈ price)
      (hpos : 0 < p.price) (hquantity : u.quantity = quantity) (hreference : u.referencePrice = some p.price)
      (hv : roundMoney ctx (ctx.fix (ctx.fix (p.price - cost) * quantity)) = .ok v) (hvalue : u.unrealizedPnl = some v)
      (hready : u.status = .ready ↔ Current now maxAgeSeconds p) (havailable : u.status ≠ .unavailable)

theorem marked {quantity : ℤ} {averageCost : Option ℚ} {positionId : Option UUID} {instrumentId : UUID}
    {u : UnrealizedPnl}
    (h : markToMarket price now maxAgeSeconds ctx quantity averageCost positionId instrumentId = .ok u) :
    Marked price now maxAgeSeconds ctx quantity averageCost u := by
  unfold markToMarket at h
  split_ifs at h with hflat
  · cases h
    exact .flat hflat rfl rfl rfl rfl
  · cases averageCost with
    | none =>
      cases h
      exact .unpriced hflat (.inl rfl) rfl rfl rfl
    | some cost =>
      obtain ⟨⟨reference, state⟩, hclass, h⟩ := Loop.bind_eq_ok.mp h
      rcases classifyPrice_eq_ok hclass with ⟨hnone, hbad⟩ | ⟨p, hp, hpos, hsome, hready, havailable⟩
      · simp only at hnone
        subst hnone
        cases h
        exact .unpriced hflat (.inr hbad) rfl rfl rfl
      · simp only at hsome
        subst hsome
        obtain ⟨v, hv, h⟩ := Loop.bind_eq_ok.mp h
        cases h
        unfold unrealizedPnlLong at hv
        split_ifs at hv with hneg
        cases hround : roundMoney ctx (ctx.fix (ctx.fix (p.price - cost) * quantity)) with
        | error e => rw [hround] at hv; cases hv
        | ok w =>
          rw [hround] at hv
          cases hv
          exact .priced (not_le.mp hneg) rfl hp hpos rfl rfl hround rfl hready havailable

end Marked

/-! ### What the stored events realised -/

/-- The costs of the sales. -/
def costsPaid (fills : List (PositionFill × List CostComponent)) : ℚ :=
  ((fills.filter fun fc => fc.1.side = .sell).map fun fc => (fc.2.map fun c => c.amount.val).sum).sum

theorem costsTotal_exact {costs : List CostComponent} {total : ℚ} (h : costsTotal .exact costs = .ok total) :
    total = quantize (-4) (costs.map fun c => c.amount.val).sum := by
  have hsum : ∀ (costs : List CostComponent) (x : ℚ), costs.foldl (fun a c => Ctx.exact.fix (a + c.amount.val)) x =
      x + (costs.map fun c => c.amount.val).sum := by
    intro costs
    induction costs with
    | nil => simp
    | cons c costs ih =>
      intro x
      rw [List.foldl_cons, ih]
      simp [add_assoc]
  have hround := roundMoney_ok h
  rw [hsum, zero_add] at hround
  exact hround

/-- What a booked fill does to the stored events of the position. -/
theorem book_realized {a a' : Account} {fc : PositionFill × List CostComponent} {id : UUID}
    (hid : a.position.positionId = some id) (h : book a fc = some a') :
    a'.position.positionId = some id ∧
      ((fc.1.side = .buy ∧ a'.db = a.db ∧ a'.realized = a.realized) ∨
        (fc.1.side = .sell ∧ ∃ gross, a'.realized = a.realized + gross ∧
          realizedPnlForPosition a'.db id = realizedPnlForPosition a.db id +
            (gross - quantize (-4) (fc.2.map fun c => c.amount.val).sum))) := by
  unfold book at h
  split at h
  · next d db' hd hr =>
    cases h
    rcases recordFill_ok hr with ⟨hs, -, -⟩ | ⟨-, event, -, ⟨_, -, hr⟩ | ⟨-, _, -, hr | hr⟩⟩
    · exact ⟨hid, .inl ⟨hs, rfl, rfl⟩⟩
    all_goals cases hr
  · next d e db' hd hr =>
    cases h
    rcases recordFill_ok hr with ⟨-, hr, -⟩ | ⟨hs, event, he, ⟨p, hsave, hr⟩ | ⟨-, _, -, hr | hr⟩⟩
    · cases hr
    · cases hr
      refine ⟨hid, .inr ⟨hs, e.grossPnl, rfl, ?_⟩⟩
      obtain ⟨am, ham, rfl⟩ := realize_iff.mp he
      obtain ⟨rfl, hinsert⟩ := saveEvent_ok hsave
      have hgross := ham.gross
      unfold realizedPnlLong at hgross
      split_ifs at hgross
      have hgross := roundMoney_ok hgross
      have hcosts := costsTotal_exact ham.costs
      have hnet := roundMoney_ok ham.net
      have hunits : Units (-4) (am.gross - am.costs) := by
        rw [hgross, hcosts]
        exact (units_quantize _ _).sub (units_quantize _ _)
      -- the net has four places already, so it is stored as it is
      have hkeep : numeric4 am.net = am.gross - am.costs := by
        rw [hnet, numeric4_quantize, Ctx.fix_exact, quantize_of_units hunits]
      have hgkeep : numeric4 am.gross = am.gross := by rw [hgross, numeric4_quantize]
      show realizedPnlForPosition db' id = realizedPnlForPosition a.db id + (numeric4 am.gross - _)
      unfold realizedPnlForPosition
      rw [(Table.insert?_eq_some hinsert).2, List.filter_append, List.map_append, List.sum_append, hgkeep, ← hcosts,
        ← hkeep]
      have hmine : (storedEvent (saleEvent fc.1 a.position am)).positionId = some id := hid
      simp only [List.filter_cons, hmine, decide_true, Bool.and_self, if_true, List.filter_nil, List.map_cons,
        List.map_nil, List.sum_cons, List.sum_nil, add_zero]
      rfl
    all_goals cases hr
  · cases h

/-- **The stored events of a position** add up to the gross profit less the costs, up to half a unit of the fourth place
for each sale. -/
theorem realized_close : ∀ (fills : List (PositionFill × List CostComponent)) {a a' : Account} {id : UUID},
    a.position.positionId = some id → fills.foldlM book a = some a' → a'.position.positionId = some id ∧
      |realizedPnlForPosition a'.db id - (realizedPnlForPosition a.db id + (a'.realized - a.realized) - costsPaid fills)| ≤
        (ofSide .sell fills).length / 20000
  | [], a, a', id, hid, h => by
    cases h
    simp [hid, costsPaid, ofSide]
  | fc :: fills, a, a', id, hid, h => by
    rw [List.foldlM_cons] at h
    cases hb : book a fc with
    | none => rw [hb] at h; cases h
    | some b =>
      rw [hb] at h
      obtain ⟨hidb, hcase⟩ := book_realized hid hb
      obtain ⟨hida, hle⟩ := realized_close fills hidb h
      refine ⟨hida, ?_⟩
      rcases hcase with ⟨hs, hdb, hreal⟩ | ⟨hs, gross, hreal, hsum⟩
      · rw [hdb, hreal] at hle
        simpa [costsPaid, ofSide, hs] using hle
      · have hround := abs_quantize4_sub_le (fc.2.map fun c => c.amount.val).sum
        have hcosts : costsPaid (fc :: fills) = (fc.2.map fun c => c.amount.val).sum + costsPaid fills := by
          simp [costsPaid, hs]
        have hlength : (ofSide .sell (fc :: fills)).length = (ofSide .sell fills).length + 1 := by
          simp [ofSide, hs]
        rw [hsum, hreal] at hle
        rw [hcosts, hlength]
        push_cast
        rw [abs_le] at hle hround ⊢
        constructor <;> linarith [hle.1, hle.2, hround.1, hround.2]

/-! ### Positions at a price -/

/-- The profit of a position against the money of its fills. -/
structure Valued (fills : List (PositionFill × List CostComponent)) (a : Account) (price : Option MarketPrice)
    (now : DateTime) (maxAgeSeconds : Option ℤ) (p : PositionPnl) : Prop where
  /-- Realised and unrealised profit are the money received less the money paid and the costs, plus the value of what is
  held. -/
  close : ∀ u ∈ p.unrealizedPnl, |p.realizedPnl + u - (((ofSide .sell fills).map notional).sum -
    ((ofSide .buy fills).map notional).sum - costsPaid fills + p.marketValue.getD 0)| ≤
      (a.heldAfterBuys + 2 * (ofSide .sell fills).length + 1) / 20000
  /-- What is held is valued at its price. -/
  marketValue : ∀ v ∈ p.marketValue, ∃ q ∈ price, 0 < q.price ∧ v = q.price * a.position.quantity
  /-- There is no value for what is held without a price. -/
  unpriced : p.unrealizedPnl = none ↔ a.position.quantity ≠ 0 ∧ ∀ q ∈ price, q.price ≤ 0
  /-- The value is only current for nothing, or at a current price. -/
  ready : p.status = .ready ↔ a.position.quantity = 0 ∨ ∃ q ∈ price, Current now maxAgeSeconds q

/-- **Profit and money**: over every sequence of booked fills of a new position, at every price. -/
theorem valued {positionId : UUID} {k : PositionIdentity} {db : PnlDb} {a : Account} {price : Option MarketPrice}
    {now : DateTime} {maxAgeSeconds : Option ℤ} {p : PositionPnl} (fills : List (PositionFill × List CostComponent))
    (hnew : ∀ e ∈ db.events.rows, e.positionId ≠ some positionId)
    (h : fills.foldlM book (Account.flat positionId k db) = some a)
    (hp : positionPnl price now maxAgeSeconds .exact a.position (realizedPnlForPosition a.db positionId) = .ok p) :
    Valued fills a price now maxAgeSeconds p := by
  obtain ⟨hb, hbought, hsold, hsells⟩ := balanced_of_foldlM fills (Account.flat_balanced positionId k db) h
  obtain ⟨-, hevents⟩ := @realized_close fills (Account.flat positionId k db) a positionId rfl h
  have hnone : realizedPnlForPosition db positionId = 0 := by
    have hempty : (db.events.rows.filter fun e => e.positionId = some positionId && e.eventType = .realizedPnl) = [] := by
      rw [List.filter_eq_nil_iff]
      intro e he
      simp [hnew e he]
    rw [realizedPnlForPosition, hempty]
    rfl
  have hbound := hb.bound
  unfold Account.imbalance Account.inventory Account.allowance at hbound
  rw [hbought, hsold, hsells] at hbound
  simp only [Account.flat, zero_add, sub_zero, hnone] at hbound hevents
  obtain ⟨u, hu, hp⟩ := Loop.bind_eq_ok.mp hp
  cases hp
  rw [abs_le] at hbound hevents
  cases marked hu with
  | flat hflat hquantity hreference hvalue hstatus =>
    refine ⟨?_, ?_, ?_, ?_⟩
    · intro v hv
      simp only [hvalue, Option.mem_some] at hv
      rw [hflat] at hbound
      simp only [hquantity, lt_irrefl, if_false, Option.getD_none, ← hv]
      rw [abs_le]
      constructor <;> linarith [hbound.1, hbound.2, hevents.1, hevents.2]
    · intro v hv
      simp [hquantity] at hv
    · simp [hvalue, hflat]
    · simp [hstatus, hflat]
  | unpriced hheld hprice hreference hvalue hstatus =>
    have hbad : ∀ q ∈ price, q.price ≤ 0 := by
      rcases hprice with haverage | hbad
      · exact absurd (hb.average haverage) hheld
      · exact hbad
    refine ⟨?_, ?_, ?_, ?_⟩
    · intro v hv
      simp [hvalue] at hv
    · intro v hv
      simp [hreference] at hv
    · simp only [hvalue, true_iff]
      exact ⟨hheld, hbad⟩
    · simp only [hstatus, reduceCtorEq, false_iff, not_or]
      refine ⟨hheld, ?_⟩
      rintro ⟨q, hq, hcur, -⟩
      exact absurd (hbad q hq) (not_le.mpr hcur)
  | @priced cost v q hheld hcost hprice hpos hquantity hreference hv hvalue hready havailable =>
    have hround := abs_quantize4_sub_le ((q.price - cost) * a.position.quantity)
    have hveq : v = quantize (-4) ((q.price - cost) * a.position.quantity) := roundMoney_ok hv
    have hmarket : (if 0 < u.quantity then u.referencePrice.map fun r => Ctx.exact.fix (r * u.quantity) else none) =
        some (q.price * a.position.quantity) := by
      rw [hquantity, if_pos hheld, hreference]
      rfl
    refine ⟨?_, ?_, ?_, ?_⟩
    · intro w hw
      simp only [hvalue, Option.mem_some] at hw
      rw [← hw]
      simp only [hmarket, Option.getD_some]
      rw [hcost, Option.getD_some] at hbound
      rw [← hveq, abs_le] at hround
      rw [abs_le]
      constructor <;> linarith [hbound.1, hbound.2, hevents.1, hevents.2, hround.1, hround.2]
    · intro w hw
      simp only [hmarket, Option.mem_some] at hw
      exact ⟨q, hprice, hpos, hw.symm⟩
    · simp only [hvalue, reduceCtorEq, false_iff, not_and]
      intro _ hbad
      exact absurd (hbad q hprice) (not_le.mpr hpos)
    · show u.status = .ready ↔ _
      rw [hready]
      constructor
      · intro hcur
        exact .inr ⟨q, hprice, hcur⟩
      · rintro (hzero | ⟨q', hq', hcur⟩)
        · omega
        · rw [Option.mem_def.mp hprice, Option.mem_some] at hq'
          rwa [← hq'] at hcur

/-- A price of 11.5 for what is left of the trades. -/
def lastPrice : MarketPrice := ⟨23 / 2, ⟨2026, 8, 12, 9, 30, 0, 0, some 0⟩⟩

theorem valued_rounded : ∃ a p, Valued roundedTrades a (some lastPrice) ⟨2026, 8, 12, 9, 31, 0, 0, some 0⟩ (some 60) p := by
  have hsome : ((roundedTrades.foldlM book (Account.flat ⟨4⟩ ⟨⟨3⟩, ⟨2⟩, "PAPER"⟩ ⟨Table.empty, [⟨4⟩]⟩)).bind fun a =>
      (positionPnl (some lastPrice) ⟨2026, 8, 12, 9, 31, 0, 0, some 0⟩ (some 60) .exact a.position
        (realizedPnlForPosition a.db ⟨4⟩)).toOption).isSome = true := by decide +kernel
  obtain ⟨p, hp⟩ := Option.isSome_iff_exists.mp hsome
  obtain ⟨a, ha, hp⟩ := Option.bind_eq_some_iff.mp hp
  cases hok : positionPnl (some lastPrice) ⟨2026, 8, 12, 9, 31, 0, 0, some 0⟩ (some 60) .exact a.position
      (realizedPnlForPosition a.db ⟨4⟩) with
  | error e => rw [hok] at hp; cases hp
  | ok q => exact ⟨a, q, valued roundedTrades (by simp [Table.empty]) ha hok⟩

end AlphaAlgo.Pnl
