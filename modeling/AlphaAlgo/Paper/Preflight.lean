import AlphaAlgo.Paper.Runs

/-!
# Preflight — the funds check before a buy predicts its settlement

The service decides the fill of a buy and its costs before the broker does.  With shared reference prices both decisions
are one, also when events of other orders are pending in the book.

* `submit_of_fill`: a call in which the broker fills settles that fill.
* `preflight_iff`: reserving and settling succeed with the predicted cost exactly when this cost is not rounded to zero.
-/

namespace AlphaAlgo.Paper

/-! ### Funds with a reserve -/

namespace PaperFunds

variable {f g : PaperFunds} {amount : ℚ}

/-- **Settlement of a buy** beside other reserves. -/
theorem reserve_settleBuy_of_pos (hd : Digits 28 amount) (hpos : 0 < amount) (hle : amount ≤ f.availableCash) :
    ∃ g, (f.reserve amount >>= fun g => g.settleBuy amount) = .ok g ∧
      g.availableCash = Ctx.default.fix (f.availableCash - amount) ∧
      g.reservedCash = Ctx.default.fix (Ctx.default.fix (f.reservedCash + amount) - amount) := by
  -- the reserve is rounded, but not below the amount
  have hreserved : amount ≤ Ctx.default.fix (f.reservedCash + amount) := by
    have := Ctx.fix_mono (p := 28) (by norm_num) (le_add_of_nonneg_left f.reserved_nonneg : amount ≤ f.reservedCash + amount)
    rwa [Ctx.fix_of_digits hd] at this
  have havailable : 0 ≤ Ctx.default.fix (f.availableCash - amount) := fix_nonneg (sub_nonneg.mpr hle)
  have hreserve : f.reserve amount = .ok ⟨f.accountId, Ctx.default.fix (f.availableCash - amount),
      Ctx.default.fix (f.reservedCash + amount), f.currency, havailable, hpos.le.trans hreserved⟩ := by
    unfold reserve
    rw [if_neg (not_le.mpr hpos), if_neg (not_lt.mpr hle)]
    exact withCash_of_nonneg f havailable _
  rw [hreserve]
  show ∃ g, settleBuy _ amount = .ok g ∧ _
  unfold settleBuy
  rw [if_neg (not_le.mpr hpos), if_neg (not_lt.mpr hreserved), withCash_of_nonneg _ havailable
    (fix_nonneg (sub_nonneg.mpr hreserved))]
  exact ⟨_, rfl, rfl, rfl⟩

end PaperFunds

/-! ### The cost of a buy -/

/-- A buy costs something: its effective price or its commission is not rounded to zero. -/
def CostsSomething (model : PaperCostModel) (price : ℚ) : Prop :=
  ∃ effective commission, applySlippage price .buy model = some effective ∧ commissionAmount model = some commission ∧
    (0 < effective ∨ 0 < commission)

theorem quantize_nonneg {e : ℤ} {x y : ℚ} (hx : 0 ≤ x) (h : Ctx.default.quantize? e x = some y) : 0 ≤ y := by
  simp only [Ctx.quantize?, Ctx.default] at h
  split_ifs at h
  cases h
  have := le_quantize (e := e) (n := 0) (x := x) (by simpa using hx)
  simpa using this

theorem applySlippage_nonneg {model : PaperCostModel} {price effective : ℚ} (hp : 0 < price)
    (h : applySlippage price .buy model = some effective) : 0 ≤ effective := by
  unfold applySlippage at h
  cases hm : model.slippage with
  | zero => rw [hm] at h; cases h; exact hp.le
  | fixedBps =>
    rw [hm] at h
    refine quantize_nonneg (fix_nonneg (mul_nonneg hp.le (fix_nonneg (add_nonneg zero_le_one (fix_nonneg ?_))))) h
    exact div_nonneg model.bps_nonneg (by norm_num)

theorem commissionAmount_nonneg {model : PaperCostModel} {commission : ℚ} (h : commissionAmount model = some commission) :
    0 ≤ commission := by
  unfold commissionAmount at h
  cases hm : model.commission with
  | zero => rw [hm] at h; cases h; exact le_rfl
  | fixedPerTrade => rw [hm] at h; exact quantize_nonneg model.fee_nonneg h

/-- The amount of a buy is positive when it costs something. -/
theorem amount_pos_iff {model : PaperCostModel} {price : ℚ} {quantity : ℤ} {c : FillCosts} (hp : 0 < price)
    (hq : 0 < quantity) (h : fillCosts model .buy price quantity = some c) : 0 < c.amount ↔ CostsSomething model price := by
  simp only [fillCosts, Option.bind_eq_bind, Option.bind_eq_some_iff, Option.pure_def, Option.some.injEq] at h
  obtain ⟨effective, he, commission, hc, rfl⟩ := h
  have he0 := applySlippage_nonneg hp he
  have hc0 := commissionAmount_nonneg hc
  have hq0 : (0 : ℚ) < quantity := by exact_mod_cast hq
  have hsomething : CostsSomething model price ↔ 0 < effective ∨ 0 < commission := by
    constructor
    · rintro ⟨effective', commission', he', hc', hpos⟩
      obtain rfl := Option.some.inj (he.symm.trans he')
      obtain rfl := Option.some.inj (hc.symm.trans hc')
      exact hpos
    · exact fun hpos => ⟨effective, commission, he, hc, hpos⟩
  rw [hsomething]
  show 0 < Ctx.default.fix (Ctx.default.fix (effective * quantity) + commission) ↔ _
  have hnotional : 0 ≤ Ctx.default.fix (effective * quantity) := fix_nonneg (mul_nonneg he0 hq0.le)
  constructor
  · intro hpos
    by_contra hzero
    rw [not_or, not_lt, not_lt] at hzero
    rw [le_antisymm hzero.1 he0, le_antisymm hzero.2 hc0, zero_mul, Ctx.fix_zero, add_zero, Ctx.fix_zero] at hpos
    exact lt_irrefl _ hpos
  · rintro (hpos | hpos)
    · have : 0 < Ctx.default.fix (effective * quantity) := Ctx.fix_pos (by norm_num) (mul_pos hpos hq0)
      exact Ctx.fix_pos (by norm_num) (by linarith)
    · exact Ctx.fix_pos (by norm_num) (by linarith)

namespace PaperTradingService

open Runs

/-! ### A call in which the broker fills -/

/-- Service and broker have the same reference prices; the drain cursor of the book is within its log. -/
structure Shares (s : PaperTradingService) : Prop where
  prices : s.referencePrices = s.broker.referencePrices
  cursor : s.broker.book.pendingIndex ≤ s.broker.book.events.length

theorem Inv.shares {s : PaperTradingService} (h : Inv s) : Shares s := ⟨h.shared, h.drained.le⟩

variable {s : PaperTradingService} {a : SubmitArgs} {env : CallEnv} {price : ℚ}

/-- The broker's part of a call that fills: the last event collected is the fill. -/
theorem submitAndCollect_of_fill (hs : Shares s) (hf : Fills s a env price) (n : ℕ) : ∃ s' c,
    submitAndCollect { s with sequence := n } (s.callRequest a) env = .ok (s', c) ∧ Kept s s' ∧
      c.fillPrice = some price := by
  obtain ⟨ref, quantity, hp, hd, href, hi, hdec⟩ := hf.decision
  have hsubmit : s.broker.book.submit (s.callRequest a) (s.broker.referencePrices a.instrumentId) env.brokerNow =
      .ok (s.broker.book.acceptAndFill (s.callRequest a) (paperOrderId s.account.accountId (s.callId a))
        ⟨env.brokerNow, hf.aware⟩ price hp hf.quantity) := by
    rw [href]
    exact PaperOrderBook.submit_fill rfl hf.notBlank hf.quantity rfl hf.new hf.aware hi hdec
  have hinstrument : (s.callRequest a).instrumentId = a.instrumentId := rfl
  unfold submitAndCollect PaperBroker.submitOrder
  simp only [hf.connected, Bool.not_true, Bool.false_eq_true, if_false, hinstrument, hsubmit,
    PaperOrderBook.pendingEvents, PaperOrderBook.acceptAndFill, PaperOrderBook.record,
    List.drop_append_of_le_length hs.cursor, List.foldl_append]
  refine ⟨_, _, rfl, ⟨rfl, rfl, ?_⟩, ?_⟩
  · simp only [config, hf.connected]
  · rfl

/-- **A call in which the broker fills** settles the fill at its price. -/
theorem submit_of_fill (hs : Shares s) (hf : Fills s a env price) : ∃ s' t, Kept s s' ∧
    s.submit a env = s'.settle a (s.callId a) price t env := by
  obtain ⟨n, hn⟩ := s.resolveClientOrderId_eq a.clientOrderId
  obtain ⟨s', c, hcollect, hk, hprice⟩ := submitAndCollect_of_fill hs hf n
  refine ⟨s', c.occurredAt, hk, ?_⟩
  have hid : (s.resolveClientOrderId a.clientOrderId).2 = s.callId a := rfl
  have hrequest : requestOf { s with sequence := n } a (s.callId a) = s.callRequest a := rfl
  have hcheck : fundsCheck { s with sequence := n } (s.callRequest a) = .ok true := hf.affordable
  unfold submit
  rw [if_neg (not_not.mpr hf.active), if_neg (not_le.mpr hf.quantity)]
  dsimp only
  rw [hn, hid, submitChecked, hrequest, hcheck]
  dsimp only
  rw [hcollect]
  dsimp only
  rw [conclude, hprice]

/-! ### The prediction -/

/-- **The check has predicted the fill**: it decided the broker's price, its cost can be reserved and settled, and the
call leaves these funds; an outcome that it returns is accepted at this price and cost. -/
structure Predicted (s : PaperTradingService) (a : SubmitArgs) (env : CallEnv) (price : ℚ) (c : FillCosts)
    (g : PaperFunds) : Prop where
  decision : ∃ reference quantity hp hq, s.referencePrices a.instrumentId = some reference ∧
    decideFill (s.callRequest a) reference = .ok (.fills price quantity hp hq)
  cost : fillCosts s.costModel .buy price a.quantity = some c
  affordable : c.amount ≤ s.funds.availableCash
  settled : (s.funds.reserve c.amount >>= fun f => f.settleBuy c.amount) = .ok g
  cash : g.availableCash = Ctx.default.fix (s.funds.availableCash - c.amount)
  funds : (s.submit a env).1.funds = g
  outcome : ∀ o, (s.submit a env).2 = .ok o → o.accepted = true ∧ o.fillPrice = some price ∧
    o.effectivePrice = some c.effective ∧ o.commission = c.commission ∧ o.netCash = -c.amount

/-- What the check has decided when the broker fills a buy. -/
theorem checked_of_fill (hs : Shares s) (hside : a.side = .buy) (hf : Fills s a env price) :
    (∃ reference quantity hp hq, s.referencePrices a.instrumentId = some reference ∧
      decideFill (s.callRequest a) reference = .ok (.fills price quantity hp hq)) ∧
    ∃ c, fillCosts s.costModel .buy price a.quantity = some c ∧ c.amount ≤ s.funds.availableCash := by
  obtain ⟨ref, quantity, hp, hq, href, -, hdec⟩ := hf.decision
  have hprices : s.referencePrices (s.callRequest a).instrumentId = some ref := by
    rw [hs.prices]
    exact href
  refine ⟨⟨ref, quantity, hp, hq, hprices, hdec⟩, ?_⟩
  have hcheck := hf.affordable
  have hbuy : (s.callRequest a).side = .buy := hside
  unfold fundsCheck canAfford at hcheck
  have hquantity : (s.callRequest a).quantity = a.quantity := rfl
  simp only [hbuy, hprices, hdec] at hcheck
  rw [hquantity] at hcheck
  cases hc : fillCosts s.costModel .buy price a.quantity with
  | none => rw [hc] at hcheck; cases hcheck
  | some c =>
    rw [hc] at hcheck
    exact ⟨c, rfl, of_decide_eq_true (Except.ok.inj hcheck)⟩

/-- The settlement of a buy whose cost can be reserved and settled. -/
theorem settle_buy {s' : PaperTradingService} {id : String} {t : DateTime} {c : FillCosts} {g : PaperFunds}
    (hk : Kept s s') (hside : a.side = .buy) (hc : fillCosts s.costModel .buy price a.quantity = some c)
    (hg : (s.funds.reserve c.amount >>= fun f => f.settleBuy c.amount) = .ok g) :
    (s'.settle a id price t env).1.funds = g ∧ ∀ o, (s'.settle a id price t env).2 = .ok o → o.accepted = true ∧
      o.fillPrice = some price ∧ o.effectivePrice = some c.effective ∧ o.commission = c.commission ∧
      o.netCash = -c.amount := by
  have hmodel : s'.costModel = s.costModel := congrArg (fun x => x.2.1) hk.config
  have hcost : fillCosts s'.costModel a.side price a.quantity = some c := by
    rw [hmodel, hside]
    exact hc
  have hledger : (s'.funds.reserve c.amount >>= fun f => f.settleBuy c.amount) = .ok g := by
    rw [hk.funds]
    exact hg
  have hfinish : ∀ o : PaperFillOutcome, ({ s' with funds := g }.finish o env).1.funds = g ∧
      ∀ o', ({ s' with funds := g }.finish o env).2 = .ok o' → o' = o := by
    intro o
    unfold finish
    split_ifs
    · exact ⟨rfl, fun _ h => nomatch h⟩
    · rcases report_cases { s' with funds := g } o with h | ⟨err, h⟩
      · rw [h]
        exact ⟨rfl, fun _ ho => (Except.ok.inj ho).symm⟩
      · rw [h]
        exact ⟨rfl, fun _ ho => nomatch ho⟩
  unfold settle
  rw [hcost, hside]
  dsimp only
  rw [hledger]
  dsimp only
  refine ⟨(hfinish _).1, fun o ho => ?_⟩
  rw [(hfinish _).2 o ho]
  exact ⟨rfl, rfl, rfl, rfl, rfl⟩

/-- **The check predicts the fill of a buy** exactly when the buy costs something: its effective price or its commission
is not rounded to zero.  Available cash is never negative. -/
theorem preflight_iff (hs : Shares s) (hside : a.side = .buy) (hf : Fills s a env price) :
    ((∃ c g, Predicted s a env price c g) ↔ CostsSomething s.costModel price) ∧
      ∀ account costModel referencePrices connected restored l,
        0 ≤ (run step (init account costModel referencePrices connected restored) l).funds.availableCash := by
  refine ⟨?_, fun account costModel referencePrices connected restored l => PaperFunds.available_nonneg _⟩
  obtain ⟨hdecision, c, hc, hle⟩ := checked_of_fill hs hside hf
  have hp : 0 < price := by
    obtain ⟨_, _, hp, _⟩ := hf.decision
    exact hp
  rw [← amount_pos_iff hp hf.quantity hc]
  constructor
  · rintro ⟨c', g, hpredicted⟩
    obtain rfl := Option.some.inj (hc.symm.trans hpredicted.cost)
    exact (PaperFunds.bounds_of_reserve_settleBuy hpredicted.settled).1
  · intro hpos
    obtain ⟨g, hg, hcash, -⟩ := PaperFunds.reserve_settleBuy_of_pos (digits_amount hc) hpos hle
    obtain ⟨s', t, hk, hsubmit⟩ := submit_of_fill hs hf
    have hsettle := @settle_buy s a env price s' (s.callId a) t c g hk hside hc hg
    rw [← hsubmit] at hsettle
    exact ⟨c, g, hdecision, hc, hle, hg, hcash, hsettle.1, hsettle.2⟩

theorem preflight_iff_sample : ∃ c g, Predicted (sampleService {}) (sampleOrder .buy) sampleEnv 100 c g :=
  (preflight_iff (inv_init _ _ _ _ _).shares rfl settles_sampleBuy.1).1.mpr
    ⟨100, 0, rfl, rfl, Or.inl (by norm_num)⟩

/-- Prices are rounded to four places, without slippage. -/
def roundingModel : PaperCostModel where
  slippage := .fixedBps
  bps_nonneg := no_slippage_nonneg
  fee_nonneg := no_slippage_nonneg

/-- A service with one instrument at 0.00004. -/
def cheapService : PaperTradingService :=
  init sampleAccount roundingModel (fun i => if i = ⟨5⟩ then some (quoted (1 / 25000) (by norm_num)) else none) true none

/-- The broker fills at 0.00004; the cost is rounded to zero, and a reserve of zero is refused after the fill. -/
theorem not_predicted_cheap : ¬ ∀ (s : PaperTradingService) (a : SubmitArgs) (env : CallEnv) (price : ℚ), Shares s →
    a.side = .buy → Fills s a env price → ∃ c g, Predicted s a env price c g := by
  have hcost : fillCosts roundingModel .buy (1 / 25000) 1 = some ⟨0, 0, 0⟩ := by decide +kernel
  have hcheck : cheapService.fundsCheck (cheapService.callRequest (sampleOrder .buy)) = .ok true := by decide +kernel
  have hid : cheapService.callId (sampleOrder .buy) = "ORD-1" :=
    congrArg Prod.snd (resolveClientOrderId_some _ (by decide))
  have hfills : Fills cheapService (sampleOrder .buy) sampleEnv (1 / 25000) :=
    ⟨rfl, show (0 : ℤ) < 1 by decide, hcheck, rfl, hid ▸ by decide, rfl, rfl, quoted (1 / 25000) (by norm_num), 1,
      by norm_num, by norm_num, rfl, rfl, rfl⟩
  intro h
  obtain ⟨c, g, hpredicted⟩ := h _ _ _ _ (inv_init _ _ _ _ _).shares rfl hfills
  obtain rfl := Option.some.inj (hcost.symm.trans hpredicted.cost)
  exact lt_irrefl _ (PaperFunds.bounds_of_reserve_settleBuy hpredicted.settled).1

end PaperTradingService

end AlphaAlgo.Paper
