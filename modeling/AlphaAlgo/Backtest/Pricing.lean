import AlphaAlgo.Backtest.Lookahead

/-!
# Pricing — the price of a fill against its limit and its anchor

A limit fill is at the anchor, which the limit reaches; a market fill is at the anchor times a factor that the rounding
to 28 digits may make 1, or 0.

* `slippageFactor_buy`, `slippageFactor_sell`: how far from 1 the factor is when the slippage is resolved.
* `evaluation_priced`: with such a slippage every evaluation prices its fill right.
* `priced_iff`: these are the cost models whose runs all price their fills right.
-/

namespace AlphaAlgo.Backtest

open Loop

/-- The price of a fill is positive, within the limit of a limit intent, and not better than the anchor of a market
intent. -/
structure Priced (intent : OrderIntent) (fill : FillRecord) : Prop where
  pos : 0 < fill.fillPrice
  limit_buy : intent.orderType = .limit → intent.side = .buy → ∀ limit, intent.limitPrice = some limit →
    fill.fillPrice ≤ limit
  limit_sell : intent.orderType = .limit → intent.side = .sell → ∀ limit, intent.limitPrice = some limit →
    limit ≤ fill.fillPrice
  market_buy : intent.orderType = .market → intent.side = .buy → fill.anchorPrice ≤ fill.fillPrice
  market_sell : intent.orderType = .market → intent.side = .sell → fill.fillPrice ≤ fill.anchorPrice

/-- Every fill of the run is priced right. -/
def BacktestRun.Priced (r : BacktestRun) : Prop :=
  ∀ (i : ℕ) intent (o : FillOutcome) fill, r.intents[i]? = some intent → r.outcomes[i]? = some o → o.fill = some fill →
    Backtest.Priced intent fill

/-! ### The factor -/

/-- Up to here the factor of a buy is rounded to 1. -/
def finestBps : ℚ := 5 / 10 ^ 24 + 5 / 10 ^ 52

/-- From here on the share `bps / 10000` is rounded to 1. -/
def wholeBps : ℚ := 10000 - 5 / 10 ^ 25

/-- No slippage, or one that 28 digits tell from none and from the whole price. -/
def CostModel.Resolved (costModel : CostModel) : Prop :=
  costModel.slippageBps = 0 ∨ (finestBps < costModel.slippageBps ∧ costModel.slippageBps < wholeBps)

/-- The `factor` of `apply_slippage`. -/
def slippageFactor (side : IntentSide) (bps : ℚ) : ℚ :=
  match side with
  | .buy => Ctx.default.fix (1 + Ctx.default.fix (bps / 10000))
  | .sell => Ctx.default.fix (1 - Ctx.default.fix (bps / 10000))

section Factor

variable {anchor bps factor : ℚ} {side : IntentSide}

theorem applySlippage_zero (hanchor : 0 < anchor) : applySlippage .default anchor side 0 = .ok anchor := by
  have hrange : ¬((0 : ℚ) < 0 ∨ (10000 : ℚ) ≤ 0) := by norm_num
  unfold applySlippage
  rw [raiseIf, if_neg (not_le.mpr hanchor), raiseIf, if_neg hrange]
  rfl

theorem applySlippage_eq (hanchor : 0 < anchor) (hbps : 0 < bps) (hlt : bps < 10000) :
    applySlippage .default anchor side bps = .ok (Ctx.default.fix (anchor * slippageFactor side bps)) := by
  have hrange : ¬(bps < 0 ∨ 10000 ≤ bps) := not_or.mpr ⟨not_lt.mpr hbps.le, not_le.mpr hlt⟩
  unfold applySlippage
  rw [raiseIf, if_neg (not_le.mpr hanchor), raiseIf, if_neg hrange]
  show (if bps = 0 then _ else _) = _
  rw [if_neg hbps.ne']
  cases side with
  | buy => rfl
  | sell => rfl

/-- The roundings at the two ends of the range; the first three are ties. -/
theorem roundings : Ctx.default.fix (5 / 10 ^ 28 + 5 / 10 ^ 56) = 5 / 10 ^ 28 ∧ Ctx.default.fix (1 + 5 / 10 ^ 28) = 1 ∧
    Ctx.default.fix (1 - 5 / 10 ^ 29) = 1 ∧ Ctx.default.fix (1 + 4 / 10 ^ 28) = 1 ∧
    Ctx.default.fix (1 - 5 / 10 ^ 28) = 1 - 5 / 10 ^ 28 ∧ lastDigit 28 (((5 * 10 ^ 27 : ℤ) : ℚ) * 10 ^ (-55 : ℤ)) = -55 ∧
    lastDigit 28 (((10 ^ 27 : ℤ) : ℚ) * 10 ^ (-27 : ℤ)) = -27 := by
  decide +kernel

theorem fix_natCast {n : ℕ} (h : n < 10 ^ 28) : Ctx.default.fix n = n := Ctx.fix_of_digits (p := 28) (digits_natCast h)

/-- The share is not rounded to what the factor of a buy loses. -/
theorem share_fine (h : finestBps < bps) : 5 / 10 ^ 28 < Ctx.default.fix (bps / 10000) := by
  unfold finestBps at h
  obtain ⟨-, -, -, -, -, hdigit, -⟩ := roundings
  have hnext := @Ctx.next_le_fix 28 (by norm_num) (5 * 10 ^ 27) (-55) (bps / 10000) (by norm_num) hdigit
    (by rw [zpow_neg]; push_cast; linarith)
  refine lt_of_lt_of_le ?_ hnext
  norm_num

theorem share_lt_one (hbps : 0 < bps) (h : bps < wholeBps) : Ctx.default.fix (bps / 10000) < 1 := by
  unfold wholeBps at h
  have hx : 0 < bps / 10000 := by positivity
  have hlt : bps / 10000 + 10 ^ (-28 : ℤ) / 2 < 1 := by
    rw [zpow_neg]
    linarith
  have hpos : (0 : ℚ) < bps / 10000 + 10 ^ (-28 : ℤ) / 2 := by positivity
  have hdigit : lastDigit 28 (bps / 10000 + 10 ^ (-28 : ℤ) / 2) ≤ -28 := by
    have hlog : Int.log 10 |bps / 10000 + 10 ^ (-28 : ℤ) / 2| < 0 := by
      rw [abs_of_pos hpos]
      exact (Int.lt_zpow_iff_log_lt (by norm_num) hpos).mp (by simpa using hlt)
    unfold lastDigit
    omega
  refine lt_of_le_of_lt (Ctx.fix_le_of_loss hx ?_) hlt
  have hquantum : (10 : ℚ) ^ lastDigit 28 (bps / 10000 + 10 ^ (-28 : ℤ) / 2) ≤ 10 ^ (-28 : ℤ) :=
    zpow_le_zpow_right₀ (by norm_num) hdigit
  linarith

/-- **The factor of a buy** is above 1. -/
theorem slippageFactor_buy (h : finestBps < bps) : 1 + 1 / 10 ^ 27 ≤ slippageFactor .buy bps := by
  have hshare := share_fine h
  obtain ⟨-, -, -, -, -, -, hdigit⟩ := roundings
  have hnext := @Ctx.next_le_fix 28 (by norm_num) (10 ^ 27) (-27) (1 + Ctx.default.fix (bps / 10000)) (by norm_num)
    hdigit (by rw [zpow_neg]; push_cast; linarith)
  refine le_trans ?_ hnext
  norm_num

/-- **The factor of a sale** is between 0 and 1. -/
theorem slippageFactor_sell (hbps : 0 < bps) (h : finestBps < bps) (h' : bps < wholeBps) :
    0 < slippageFactor .sell bps ∧ slippageFactor .sell bps ≤ 1 - 5 / 10 ^ 28 := by
  have hshare := share_fine h
  have hone := share_lt_one hbps h'
  constructor
  · exact Ctx.fix_pos (p := 28) (by norm_num) (sub_pos.mpr hone)
  · obtain ⟨-, -, -, -, hexact, -, -⟩ := roundings
    rw [← hexact]
    exact fix_le_fix (by linarith)

theorem le_price_of_factor (hanchor : 0 < anchor) (h : 1 + 1 / 10 ^ 27 ≤ factor) :
    anchor ≤ Ctx.default.fix (anchor * factor) := by
  refine Ctx.le_fix_of_gain (p := 28) (by norm_num) hanchor ?_
  have hquantum := @zpow_lastDigit_le 28 anchor hanchor
  have hgain : anchor * (1 + 1 / 10 ^ 27) ≤ anchor * factor := mul_le_mul_of_nonneg_left h hanchor.le
  norm_num at hquantum hgain ⊢
  linarith

theorem price_le_of_factor (hanchor : 0 < anchor) (hpos : 0 < factor) (h : factor ≤ 1 - 5 / 10 ^ 28) :
    Ctx.default.fix (anchor * factor) ≤ anchor := by
  refine Ctx.fix_le_of_loss (mul_pos hanchor hpos) ?_
  have hquantum := @zpow_lastDigit_le 28 anchor hanchor
  have hloss : anchor * factor ≤ anchor * (1 - 5 / 10 ^ 28) := mul_le_mul_of_nonneg_left h hanchor.le
  norm_num at hquantum hloss ⊢
  linarith

end Factor

/-! ### Evaluations with a resolved slippage -/

section Resolved

variable {intent : OrderIntent} {record : MarketRecord} {costModel : CostModel}

theorem priceAt_limit {anchor : ℚ} (h : intent.orderType = .limit) :
    priceAt .default intent costModel anchor = .ok anchor := by
  rw [priceAt, h]

theorem priceAt_market {anchor : ℚ} (h : intent.orderType = .market) :
    priceAt .default intent costModel anchor = applySlippage .default anchor intent.side costModel.slippageBps := by
  rw [priceAt, h]

/-- A market price is positive and not better than the anchor. -/
theorem applySlippage_resolved {anchor price : ℚ} {side : IntentSide} (h : costModel.Resolved) (hanchor : 0 < anchor)
    (hprice : applySlippage .default anchor side costModel.slippageBps = .ok price) :
    0 < price ∧ (side = .buy → anchor ≤ price) ∧ (side = .sell → price ≤ anchor) := by
  rcases costModel.bps_nonneg.eq_or_lt with hzero | hbps
  · rw [← hzero, applySlippage_zero hanchor] at hprice
    cases hprice
    exact ⟨hanchor, fun _ => le_rfl, fun _ => le_rfl⟩
  · obtain ⟨hfine, hwhole⟩ := h.resolve_left hbps.ne'
    rw [applySlippage_eq hanchor hbps costModel.bps_lt] at hprice
    cases hprice
    cases side with
    | buy =>
      have hle := le_price_of_factor hanchor (slippageFactor_buy hfine)
      exact ⟨hanchor.trans_le hle, fun _ => hle, fun hside => absurd hside (by decide)⟩
    | sell =>
      obtain ⟨hpos, hle⟩ := slippageFactor_sell hbps hfine hwhole
      have hprice : 0 < Ctx.default.fix (anchor * slippageFactor .sell costModel.slippageBps) :=
        Ctx.fix_pos (p := 28) (by norm_num) (mul_pos hanchor hpos)
      exact ⟨hprice, fun hside => absurd hside (by decide), fun _ => price_le_of_factor hanchor hpos hle⟩

theorem limitOf_eq_ok {limit : ℚ} : intent.limitOf = .ok limit ↔ intent.limitPrice = some limit := by
  unfold OrderIntent.limitOf
  cases intent.limitPrice with
  | none => simp
  | some l => simp

theorem limitOnLeg_anchored {leg : Option Decimal} {name : String} {missing : UnfilledReason} {anchor : Dec}
    (h : limitOnLeg intent leg name missing = .ok (.anchored anchor)) :
    ∃ limit, intent.limitPrice = some limit ∧ intent.beyond limit anchor.val = false := by
  cases leg with
  | none => cases h
  | some value =>
    simp only [limitOnLeg, bind_eq_ok, limitOf_eq_ok] at h
    obtain ⟨d, -, limit, hlimit, h⟩ := h
    split_ifs at h with hbeyond
    · cases h
    · cases h
      exact ⟨limit, hlimit, Bool.not_eq_true _ ▸ hbeyond⟩

/-- A limit intent is executed at an anchor that its limit reaches. -/
theorem executable_limit {anchor : Dec} (hlimit : intent.orderType = .limit)
    (h : executable intent record = .ok (.anchored anchor)) :
    ∃ limit, intent.limitPrice = some limit ∧ intent.beyond limit anchor.val = false := by
  cases record with
  | candle k =>
    simp only [executable, hlimit, bind_eq_ok, limitOf_eq_ok] at h
    obtain ⟨d, -, limit, hlimit, h⟩ := h
    split_ifs at h with hbeyond
    · cases h
    · cases h
      exact ⟨limit, hlimit, Bool.not_eq_true _ ▸ hbeyond⟩
  | tick t =>
    unfold executable at h
    rw [hlimit] at h
    cases hside : intent.side with
    | buy =>
      rw [hside] at h
      exact limitOnLeg_anchored h
    | sell =>
      rw [hside] at h
      exact limitOnLeg_anchored h

/-- **Every evaluation prices its fill right.** -/
theorem Admitted.priced {recordIndex : ℕ} {cash position : ℚ} {sequence intentIndex : ℕ} {fill : FillRecord}
    (h : Admitted .default intent record recordIndex cash position costModel sequence intentIndex fill)
    (hresolved : costModel.Resolved) : Priced intent fill := by
  obtain ⟨anchor, fillPrice, hexecutable, hanchor, hprice, rfl⟩ := h.made
  cases htype : intent.orderType with
  | limit =>
    obtain ⟨limit, hlimit, hreached⟩ := executable_limit htype hexecutable
    rw [priceAt_limit htype] at hprice
    cases hprice
    refine ⟨hanchor, fun _ hside l hl => ?_, fun _ hside l hl => ?_, fun hmarket => ?_, fun hmarket => ?_⟩
    · rw [hlimit] at hl
      cases hl
      rw [OrderIntent.beyond, hside] at hreached
      exact not_lt.mp (of_decide_eq_false hreached)
    · rw [hlimit] at hl
      cases hl
      rw [OrderIntent.beyond, hside] at hreached
      exact not_lt.mp (of_decide_eq_false hreached)
    · cases htype.symm.trans hmarket
    · cases htype.symm.trans hmarket
  | market =>
    rw [priceAt_market htype] at hprice
    obtain ⟨hpos, hbuy, hsell⟩ := applySlippage_resolved hresolved hanchor hprice
    refine ⟨hpos, fun hlimit => ?_, fun hlimit => ?_, fun _ hside => hbuy hside, fun _ hside => hsell hside⟩
    · cases htype.symm.trans hlimit
    · cases htype.symm.trans hlimit

theorem evaluation_priced {recordIndex : ℕ} {cash position : ℚ} {sequence intentIndex : ℕ} {e : FillEvaluation}
    {fill : FillRecord} (hresolved : costModel.Resolved)
    (h : evaluateFill .default intent record recordIndex cash position costModel sequence intentIndex = .ok e)
    (hfill : e.fill = some fill) : Priced intent fill := by
  cases evaluated h with
  | unfilled reason => cases hfill
  | filled hadmitted =>
    cases hfill
    exact hadmitted.priced hresolved

/-- **Every fill of a run is priced right.** -/
theorem run_priced {inputs : BacktestInput} {intents : List OrderIntent} {initialCapital : ℚ} {r : BacktestRun}
    (hresolved : costModel.Resolved) (h : runBacktest .default inputs intents costModel initialCapital = .ok r) :
    r.Priced := by
  obtain ⟨s, hran⟩ := ran h
  intro i intent o fill hintent ho hfill
  obtain ⟨intent', record, hintent', -, -, -, cash, position, sequence, e, heval, he⟩ :=
    (explained hran ho).filledAtFirst hfill
  rw [hran.intents, hintent'] at hintent
  cases hintent
  exact evaluation_priced hresolved heval he

end Resolved

/-! ### Runs with a slippage that is not resolved -/

/-- A fill that is admitted is the evaluation. -/
theorem Admitted.evaluateFill_eq {c : Ctx} {intent : OrderIntent} {record : MarketRecord} {recordIndex : ℕ}
    {cash position : ℚ} {costModel : CostModel} {sequence intentIndex : ℕ} {fill : FillRecord}
    (h : Admitted c intent record recordIndex cash position costModel sequence intentIndex fill)
    (hposition : 0 ≤ position) :
    evaluateFill c intent record recordIndex cash position costModel sequence intentIndex =
      .ok ⟨⟨intentIndex, .filled fill⟩, some fill, c.fix (cash + fill.cashFlow),
        newPosition c intent.side position intent.quantity⟩ := by
  obtain ⟨anchor, fillPrice, hexecutable, hanchor, hprice, hfill⟩ := h.made
  have henough : ¬(intent.side = .sell ∧ position < intent.quantity) :=
    fun hshort => not_lt.mpr (h.position_le hshort.1) hshort.2
  have hcash := not_lt.mpr h.cash_nonneg
  simp only [evaluateFill, bind_eq_ok, raiseIf_eq_ok, not_lt]
  refine ⟨(), hposition, .anchored anchor, hexecutable, ?_⟩
  simp only [bind_eq_ok, raiseIf_eq_ok, not_le]
  refine ⟨(), hanchor, fillPrice, hprice, costModel.commissionPerFill, commissionFor_model costModel, ?_⟩
  rw [← hfill, settle, if_neg henough, if_neg hcash, hfill]
  rfl

theorem simStep_filled {c : Ctx} {costModel : CostModel} {s : SimState} {k : ℕ} {record : MarketRecord}
    {e : IndexedIntent} {fill : FillRecord} {ledger : FifoLedger} {completed : List TradeRecord}
    (hfill : Admitted c e.intent record k s.cash s.position costModel s.sequence e.index fill)
    (hposition : 0 ≤ s.position) (hbook : bookFill c e.intent.side s.ledger fill = .ok (ledger, completed)) :
    simStep c costModel s (.intent k record e) = .ok
      { cash := c.fix (s.cash + fill.cashFlow)
        position := newPosition c e.intent.side s.position e.intent.quantity
        sequence := s.sequence + 1
        trades := s.trades ++ completed
        equityPoints := s.equityPoints
        ledger := ledger
        outcomes := s.outcomes.set e.index (some ⟨e.index, .filled fill⟩) } := by
  rw [simStep, hfill.evaluateFill_eq hposition]
  show ((bookFill c e.intent.side s.ledger fill).map _) = _
  rw [hbook]
  rfl

theorem simStep_mark {c : Ctx} {costModel : CostModel} {s : SimState} {minute : ℕ} {d : Dec} (h : 0 < d.val) :
    simStep c costModel s (.mark (sampleTick minute (.finite d))) = .ok
      { s with equityPoints := s.equityPoints ++
          [⟨(sampleTick minute (.finite d)).timestamp, c.fix (s.cash + c.fix (s.position * d.val))⟩] } := by
  have hmark : markPrice .engine (sampleTick minute (.finite d)) = .ok d.val := if_neg (not_le.mpr h)
  rw [simStep, hmark]
  rfl

theorem fix_neg_fix (x : ℚ) : Ctx.default.fix (-Ctx.default.fix x) = -Ctx.default.fix x := by
  have hfix : Ctx.default.fix (Ctx.default.fix x) = Ctx.default.fix x :=
    Ctx.fix_of_digits (Ctx.digits_fix (by norm_num) x)
  rw [Ctx.fix_neg, hfix]

/-- A price with more than 28 digits, which is rounded down. -/
def fineTick : Dec := ⟨false, 10 ^ 28 + 4, -28⟩

theorem fineTick_accepted : checkInput "infy" "csv" [sampleTick 1 (.finite fineTick)] = .ok () := by decide

def fineInput : BacktestInput := ⟨"infy", "csv", [sampleTick 1 (.finite fineTick)], fineTick_accepted⟩

theorem fineTick_val : fineTick.val = 1 + 4 / 10 ^ 28 := by
  rw [Dec.val, fineTick, zpow_neg]
  norm_num

/-- The factor of a buy with too fine a slippage. -/
theorem slippageFactor_fine {bps : ℚ} (hbps : 0 < bps) (h : bps ≤ finestBps) : slippageFactor .buy bps = 1 := by
  obtain ⟨htie, hvalue, -⟩ := roundings
  have hle : Ctx.default.fix (bps / 10000) ≤ 5 / 10 ^ 28 := by
    have hshare : bps / 10000 ≤ 5 / 10 ^ 28 + 5 / 10 ^ 56 := by
      unfold finestBps at h
      linarith
    exact (fix_le_fix hshare).trans htie.le
  have hnonneg : 0 ≤ Ctx.default.fix (bps / 10000) := fix_nonneg (by positivity)
  have hone : Ctx.default.fix 1 = 1 := by exact_mod_cast @fix_natCast 1 (by norm_num)
  refine le_antisymm ?_ ?_
  · calc slippageFactor .buy bps ≤ Ctx.default.fix (1 + 5 / 10 ^ 28) := fix_le_fix (by linarith)
      _ = 1 := hvalue
  · calc 1 = Ctx.default.fix 1 := hone.symm
      _ ≤ slippageFactor .buy bps := fix_le_fix (by linarith)

/-- The factor of a sale with too large a slippage. -/
theorem slippageFactor_whole {bps : ℚ} (h : wholeBps ≤ bps) (hlt : bps < 10000) :
    slippageFactor .buy bps = 2 ∧ slippageFactor .sell bps = 0 := by
  have hshare : Ctx.default.fix (bps / 10000) = 1 := by
    obtain ⟨-, -, hvalue, -⟩ := roundings
    have hone : Ctx.default.fix 1 = 1 := by exact_mod_cast @fix_natCast 1 (by norm_num)
    refine le_antisymm ?_ ?_
    · calc Ctx.default.fix (bps / 10000) ≤ Ctx.default.fix 1 := fix_le_fix (by linarith)
        _ = 1 := hone
    · unfold wholeBps at h
      calc 1 = Ctx.default.fix (1 - 5 / 10 ^ 29) := hvalue.symm
        _ ≤ Ctx.default.fix (bps / 10000) := fix_le_fix (by linarith)
  unfold slippageFactor
  rw [hshare]
  have htwo : Ctx.default.fix (1 + 1) = 2 := by
    rw [one_add_one_eq_two]
    exact_mod_cast @fix_natCast 2 (by norm_num)
  exact ⟨htwo, by rw [sub_self, Ctx.fix_zero]⟩

section Unresolved

variable {costModel : CostModel} {capital : ℚ}

theorem fineInput_steps : stepsOf fineInput.records [sampleIntent .buy 0 0] =
    [.intent 0 (sampleTick 1 (.finite fineTick)) ⟨0, sampleIntent .buy 0 0⟩,
      .mark (sampleTick 1 (.finite fineTick))] := rfl

/-- One buy at the tick. -/
theorem buy_run {fill : FillRecord} (hcapital : 0 < capital)
    (hfill : Admitted .default (sampleIntent .buy 0 0) (sampleTick 1 (.finite fineTick)) 0 capital 0 costModel 0 0
      fill) :
    ∃ r, runBacktest .default fineInput [sampleIntent .buy 0 0] costModel capital = .ok r ∧
      r.intents = [sampleIntent .buy 0 0] ∧ r.outcomes = [⟨0, .filled fill⟩] := by
  have hpos : 0 < fineTick.val := by
    rw [fineTick_val]
    norm_num
  have hopen : ∃ ledger, bookFill .default .buy {} fill = .ok (ledger, []) := by
    rw [bookFill, openLot_eq hfill.side]
    exact ⟨_, rfl⟩
  obtain ⟨ledger, hbook⟩ := hopen
  have hfirst := @simStep_filled _ costModel { cash := capital, outcomes := [none] } 0 _ ⟨0, sampleIntent .buy 0 0⟩
    _ _ _ hfill le_rfl hbook
  have hrun : ∃ s, run (simStep .default costModel) (startOf fineInput.records [sampleIntent .buy 0 0] capital)
      (stepsOf fineInput.records [sampleIntent .buy 0 0]) = .ok s ∧ s.outcomes = [some ⟨0, .filled fill⟩] ∧
      s.equityPoints ≠ [] := by
    rw [fineInput_steps]
    exact ⟨_, run_cons_ok.mpr ⟨_, hfirst, run_cons_ok.mpr ⟨_, simStep_mark hpos, rfl⟩⟩, rfl, List.cons_ne_nil _ _⟩
  obtain ⟨s, hended, houtcomes, hequity⟩ := hrun
  obtain ⟨r, hr, hran, hos⟩ := @exists_ran _ fineInput [sampleIntent .buy 0 0] _ _ s [⟨0, .filled fill⟩] hcapital
    (List.isChain_singleton _) hended houtcomes rfl hequity
  exact ⟨r, hr, hran.intents, hos⟩

theorem sampleInput_steps : stepsOf sampleInput.records [sampleIntent .buy 0 0, sampleIntent .sell 0 1] =
    [.intent 0 (sampleTick 1 (.finite (.ofNat 100))) ⟨0, sampleIntent .buy 0 0⟩,
      .mark (sampleTick 1 (.finite (.ofNat 100))),
      .intent 1 (sampleTick 2 (.finite (.ofNat 110))) ⟨1, sampleIntent .sell 0 1⟩,
      .mark (sampleTick 2 (.finite (.ofNat 110))), .mark (sampleTick 3 (.finite (.ofNat 120)))] := rfl

/-- A sale of all that one buy bought. -/
theorem closeLots_all {fill fill' : FillRecord} {quantity : ℚ} (hq : 0 < quantity) (hfill : fill.quantity = quantity)
    (hside : fill'.side = .sell) (hfill' : fill'.quantity = quantity) :
    ∃ booked, FifoLedger.closeLots .default { lots := [lotOf fill] } fill' = .ok booked := by
  have hremaining : (lotOf fill).remainingQuantity = quantity := hfill
  have hcloses : ((lotOf fill).exit .default fill' (min quantity (lotOf fill).remainingQuantity)).remainingQuantity =
      0 := by
    show Ctx.default.fix ((lotOf fill).remainingQuantity - min quantity (lotOf fill).remainingQuantity) = 0
    rw [hremaining, min_self, sub_self, Ctx.fix_zero]
  have hleft : (matchLots .default fill' quantity 0 [lotOf fill]).remaining = 0 := by
    rw [matchLots_of_closes hq (hremaining ▸ hq) hcloses, hremaining, min_self, sub_self, Ctx.fix_zero]
    rfl
  simp only [FifoLedger.closeLots, bind_eq_ok, raiseIf_eq_ok, not_not, not_lt]
  exact ⟨_, (), hside, (), by rw [hfill', hleft], rfl⟩

/-- A buy at the first of three ticks, and the sale of it at the second. -/
theorem sale_run {fill fill' : FillRecord} (hcapital : 0 < capital)
    (hfill : Admitted .default (sampleIntent .buy 0 0) (sampleTick 1 (.finite (.ofNat 100))) 0 capital 0 costModel 0 0
      fill)
    (hfill' : Admitted .default (sampleIntent .sell 0 1) (sampleTick 2 (.finite (.ofNat 110))) 1
      (Ctx.default.fix (capital + fill.cashFlow)) 1 costModel 1 1 fill') :
    ∃ r, runBacktest .default sampleInput [sampleIntent .buy 0 0, sampleIntent .sell 0 1] costModel capital = .ok r ∧
      r.intents = [sampleIntent .buy 0 0, sampleIntent .sell 0 1] ∧
      r.outcomes = [⟨0, .filled fill⟩, ⟨1, .filled fill'⟩] := by
  have hpos : ∀ n : ℕ, 0 < n → 0 < (Dec.ofNat n).val := fun n hn => by
    rw [Dec.val_ofNat]
    exact_mod_cast hn
  have hone : ((0 + 1 : ℕ) : ℚ) = 1 := by norm_num
  have hbought : fill.quantity = 1 := hfill.quantity.trans hone
  have hsold : fill'.quantity = 1 := hfill'.quantity.trans hone
  have hbook : bookFill .default .buy {} fill = .ok ({ lots := [lotOf fill] }, []) := by
    rw [bookFill, openLot_eq hfill.side]
    rfl
  obtain ⟨booked, hbook'⟩ := closeLots_all zero_lt_one hbought hfill'.side hsold
  have hposition : newPosition .default (sampleIntent .buy 0 0).side 0 (sampleIntent .buy 0 0).quantity = 1 := by
    show Ctx.default.fix (0 + ((0 + 1 : ℕ) : ℚ)) = 1
    rw [zero_add, fix_natCast (by norm_num), hone]
  have hfirst := @simStep_filled _ costModel { cash := capital, outcomes := [none, none] } 0 _
    ⟨0, sampleIntent .buy 0 0⟩ _ _ _ hfill le_rfl hbook
  dsimp only at hfirst
  rw [hposition] at hfirst
  have hrun : ∃ s, run (simStep .default costModel)
      (startOf sampleInput.records [sampleIntent .buy 0 0, sampleIntent .sell 0 1] capital)
      (stepsOf sampleInput.records [sampleIntent .buy 0 0, sampleIntent .sell 0 1]) = .ok s ∧
      s.outcomes = [some ⟨0, .filled fill⟩, some ⟨1, .filled fill'⟩] ∧ s.equityPoints ≠ [] := by
    rw [sampleInput_steps]
    refine ⟨_, run_cons_ok.mpr ⟨_, hfirst, run_cons_ok.mpr ⟨_, simStep_mark (hpos 100 (by norm_num)),
      run_cons_ok.mpr ⟨_, simStep_filled hfill' zero_le_one hbook', run_cons_ok.mpr
        ⟨_, simStep_mark (hpos 110 (by norm_num)), run_cons_ok.mpr ⟨_, simStep_mark (hpos 120 (by norm_num)),
          rfl⟩⟩⟩⟩⟩, rfl, List.cons_ne_nil _ _⟩
  obtain ⟨s, hended, houtcomes, hequity⟩ := hrun
  obtain ⟨r, hr, hran, hos⟩ := @exists_ran _ sampleInput [sampleIntent .buy 0 0, sampleIntent .sell 0 1] _ _ s
    [⟨0, .filled fill⟩, ⟨1, .filled fill'⟩] hcapital (by decide) hended houtcomes rfl hequity
  exact ⟨r, hr, hran.intents, hos⟩

/-- What a sample fill at a price does to the cash. -/
theorem sampleFlow_buy {record : MarketRecord} {k sequence i minute : ℕ} {anchor price commission : ℚ}
    (hprice : 0 < price) (hcommission : 0 ≤ commission) :
    (makeFill .default (sampleIntent .buy 0 minute) record k sequence i anchor price commission).cashFlow < 0 := by
  have hgross : 0 < Ctx.default.fix ((sampleIntent .buy 0 minute).quantity * price) :=
    Ctx.fix_pos (p := 28) (by norm_num) (mul_pos (sampleIntent .buy 0 minute).quantity_pos hprice)
  have hspent : 0 < Ctx.default.fix (Ctx.default.fix ((sampleIntent .buy 0 minute).quantity * price) + commission) :=
    Ctx.fix_pos (p := 28) (by norm_num) (add_pos_of_pos_of_nonneg hgross hcommission)
  show cashFlow .default .buy _ _ < 0
  rw [cashFlow, fix_neg_fix]
  exact neg_lt_zero.mpr hspent

theorem sampleFlow_worthless {record : MarketRecord} {k sequence i minute : ℕ} {anchor commission : ℚ} :
    (makeFill .default (sampleIntent .sell 0 minute) record k sequence i anchor 0 commission).cashFlow =
      Ctx.default.fix (-commission) := by
  show cashFlow .default .sell (Ctx.default.fix ((sampleIntent .sell 0 minute).quantity * 0)) commission = _
  rw [cashFlow, mul_zero, Ctx.fix_zero, zero_sub]

/-- **A buy below its anchor**, with too fine a slippage. -/
theorem fine_not_priced (hbps : 0 < costModel.slippageBps) (h : costModel.slippageBps ≤ finestBps) :
    ∃ capital r, runBacktest .default fineInput [sampleIntent .buy 0 0] costModel capital = .ok r ∧ ¬r.Priced := by
  have hpos : 0 < fineTick.val := by
    rw [fineTick_val]
    norm_num
  have hprice : priceAt .default (sampleIntent .buy 0 0) costModel fineTick.val = .ok 1 := by
    obtain ⟨-, -, -, hround, -⟩ := roundings
    have hfactor : slippageFactor (sampleIntent .buy 0 0).side costModel.slippageBps = 1 := slippageFactor_fine hbps h
    rw [priceAt_market rfl, applySlippage_eq hpos hbps costModel.bps_lt, hfactor, mul_one, fineTick_val, hround]
  obtain ⟨fill, hmade⟩ : ∃ fill, fill = makeFill .default (sampleIntent .buy 0 0) (sampleTick 1 (.finite fineTick)) 0 0 0
    fineTick.val 1 costModel.commissionPerFill := ⟨_, rfl⟩
  have hflow : fill.cashFlow < 0 := hmade ▸ sampleFlow_buy zero_lt_one costModel.commission_nonneg
  have hcash : 0 ≤ Ctx.default.fix (-fill.cashFlow + fill.cashFlow) := by rw [neg_add_cancel, Ctx.fix_zero]
  obtain ⟨r, hr, hintents, houtcomes⟩ := @buy_run costModel (-fill.cashFlow) fill (neg_pos.mpr hflow)
    ⟨⟨fineTick, 1, rfl, hpos, hprice, hmade⟩, fun hside => by (cases hside), hcash⟩
  refine ⟨-fill.cashFlow, r, hr, fun hpriced => ?_⟩
  have hanchor := (hpriced 0 (sampleIntent .buy 0 0) ⟨0, .filled fill⟩ fill (by rw [hintents]; rfl)
    (by rw [houtcomes]; rfl) rfl).market_buy rfl rfl
  rw [hmade] at hanchor
  change fineTick.val ≤ 1 at hanchor
  rw [fineTick_val] at hanchor
  norm_num at hanchor

/-- **A sale for nothing**, with too large a slippage. -/
theorem whole_not_priced (h : wholeBps ≤ costModel.slippageBps) :
    ∃ capital r, runBacktest .default sampleInput [sampleIntent .buy 0 0, sampleIntent .sell 0 1] costModel capital =
      .ok r ∧ ¬r.Priced := by
  have hbps : 0 < costModel.slippageBps := lt_of_lt_of_le (by norm_num [wholeBps]) h
  obtain ⟨hbuy, hsell⟩ := slippageFactor_whole h costModel.bps_lt
  have hprice : priceAt .default (sampleIntent .buy 0 0) costModel (Dec.ofNat 100).val = .ok 200 := by
    have hround : Ctx.default.fix (100 * 2) = 200 := by
      norm_num
      exact_mod_cast @fix_natCast 200 (by norm_num)
    rw [Dec.val_ofNat, priceAt_market rfl, applySlippage_eq (by norm_num) hbps costModel.bps_lt]
    show Except.ok (Ctx.default.fix (100 * slippageFactor .buy costModel.slippageBps)) = _
    rw [hbuy, hround]
  have hprice' : priceAt .default (sampleIntent .sell 0 1) costModel (Dec.ofNat 110).val = .ok 0 := by
    rw [Dec.val_ofNat, priceAt_market rfl, applySlippage_eq (by norm_num) hbps costModel.bps_lt]
    show Except.ok (Ctx.default.fix (110 * slippageFactor .sell costModel.slippageBps)) = _
    rw [hsell, mul_zero, Ctx.fix_zero]
  obtain ⟨fill, hmade⟩ : ∃ fill, fill = makeFill .default (sampleIntent .buy 0 0)
    (sampleTick 1 (.finite (.ofNat 100))) 0 0 0 (Dec.ofNat 100).val 200 costModel.commissionPerFill := ⟨_, rfl⟩
  obtain ⟨fill', hmade'⟩ : ∃ fill', fill' = makeFill .default (sampleIntent .sell 0 1)
    (sampleTick 2 (.finite (.ofNat 110))) 1 1 1 (Dec.ofNat 110).val 0 costModel.commissionPerFill := ⟨_, rfl⟩
  have hflow : fill.cashFlow < 0 := hmade ▸ sampleFlow_buy (by norm_num) costModel.commission_nonneg
  have hflow' : fill'.cashFlow = Ctx.default.fix (-costModel.commissionPerFill) := hmade' ▸ sampleFlow_worthless
  have hcost : fill'.cashFlow ≤ 0 := by
    have hle := fix_le_fix (neg_nonpos.mpr costModel.commission_nonneg)
    rwa [Ctx.fix_zero, ← hflow'] at hle
  -- the capital pays for the buy and for the commission of the sale
  have hcapital : 0 < -fill.cashFlow - fill'.cashFlow := by linarith
  have hrest : Ctx.default.fix (-fill.cashFlow - fill'.cashFlow + fill.cashFlow) = -fill'.cashFlow := by
    rw [neg_sub_left, neg_add, add_assoc, neg_add_cancel, add_zero, hflow', fix_neg_fix]
  have hadmitted : Admitted .default (sampleIntent .buy 0 0) (sampleTick 1 (.finite (.ofNat 100))) 0
      (-fill.cashFlow - fill'.cashFlow) 0 costModel 0 0 fill :=
    ⟨⟨.ofNat 100, 200, rfl, by rw [Dec.val_ofNat]; norm_num, hprice, hmade⟩, fun hside => by (cases hside),
      by rw [hrest]; linarith⟩
  have hadmitted' : Admitted .default (sampleIntent .sell 0 1) (sampleTick 2 (.finite (.ofNat 110))) 1
      (Ctx.default.fix (-fill.cashFlow - fill'.cashFlow + fill.cashFlow)) 1 costModel 1 1 fill' := by
    refine ⟨⟨.ofNat 110, 0, rfl, by rw [Dec.val_ofNat]; norm_num, hprice', hmade'⟩, fun _ => ?_, ?_⟩
    · show ((0 + 1 : ℕ) : ℚ) ≤ 1
      norm_num
    · rw [hrest, neg_add_cancel, Ctx.fix_zero]
  obtain ⟨r, hr, hintents, houtcomes⟩ := sale_run hcapital hadmitted hadmitted'
  refine ⟨_, r, hr, fun hpriced => ?_⟩
  have hpos := (hpriced 1 (sampleIntent .sell 0 1) ⟨1, .filled fill'⟩ fill' (by rw [hintents]; rfl)
    (by rw [houtcomes]; rfl) rfl).pos
  rw [hmade'] at hpos
  exact lt_irrefl _ hpos

end Unresolved

/-- **The cost models whose runs price every fill right** are those with a resolved slippage. -/
theorem priced_iff (costModel : CostModel) :
    (∀ inputs intents initialCapital r, runBacktest .default inputs intents costModel initialCapital = .ok r →
      r.Priced) ↔ costModel.Resolved := by
  constructor
  · intro hpriced
    by_contra hunresolved
    obtain ⟨hzero, hrange⟩ := not_or.mp hunresolved
    have hbps : 0 < costModel.slippageBps := lt_of_le_of_ne costModel.bps_nonneg (Ne.symm hzero)
    rcases le_or_gt costModel.slippageBps finestBps with hfine | hfine
    · obtain ⟨capital, r, hr, hwrong⟩ := fine_not_priced hbps hfine
      exact hwrong (hpriced _ _ _ r hr)
    · have hwhole : wholeBps ≤ costModel.slippageBps := not_lt.mp fun hlt => hrange ⟨hfine, hlt⟩
      obtain ⟨capital, r, hr, hwrong⟩ := whole_not_priced hwhole
      exact hwrong (hpriced _ _ _ r hr)
  · exact fun hresolved inputs intents initialCapital r hr => run_priced hresolved hr

/-- A slippage of 9999 and 25 nines basis points. -/
def nines : CostModel := ⟨0, 10000 - 1 / 10 ^ 25, free_nonneg, by norm_num, by norm_num⟩

theorem not_priced_nines : ¬∀ (costModel : CostModel) inputs intents initialCapital r,
    runBacktest .default inputs intents costModel initialCapital = .ok r → r.Priced := by
  intro hpriced
  have hwhole : wholeBps ≤ nines.slippageBps := by norm_num [wholeBps, nines]
  obtain ⟨capital, r, hr, hwrong⟩ := whole_not_priced hwhole
  exact hwrong (hpriced nines _ _ _ r hr)

end AlphaAlgo.Backtest
