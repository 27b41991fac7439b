import AlphaAlgo.Backtest.PortfolioRuns

/-!
# Budget — what a symbol carries against its budget

The simulation compares the gross value of each buy with the budget of its symbol, not what the open lots of the symbol
carry together with it.

* `carried_le_budget`: what runs keep the carried entry notional within the budget.
* `budget_exceeded`: two buys that the simulation lets through carry more.
-/

namespace AlphaAlgo.Backtest

open Loop

/-! ### What the lots carry -/

/-- The price of a buy is not negative. -/
theorem priceAt_nonneg {intent : OrderIntent} {costModel : CostModel} {anchor price : ℚ} (hside : intent.side = .buy)
    (hanchor : 0 < anchor) (h : priceAt .default intent costModel anchor = .ok price) : 0 ≤ price := by
  unfold priceAt at h
  cases htype : intent.orderType with
  | limit =>
    rw [htype] at h
    cases h
    exact hanchor.le
  | market =>
    rw [htype, hside] at h
    simp only [applySlippage, bind_eq_ok] at h
    obtain ⟨-, -, -, -, h⟩ := h
    split_ifs at h
    · cases h
      exact hanchor.le
    · cases h
      have hrate : 0 ≤ Ctx.default.fix (costModel.slippageBps / 10000) :=
        fix_nonneg (div_nonneg costModel.bps_nonneg (by norm_num))
      exact fix_nonneg (mul_nonneg hanchor.le (fix_nonneg (add_nonneg zero_le_one hrate)))

/-- The entry notional that a lot carries. -/
def Lot.carried (l : Lot) : ℚ := l.remainingQuantity * l.entryPrice

/-- What a sale keeps of a lot: it carries no negative amounts, and what it has left has at most 28 digits. -/
structure Lot.Carries (l : Lot) : Prop where
  price_nonneg : 0 ≤ l.entryPrice
  remaining_nonneg : 0 ≤ l.remainingQuantity
  digits : Ctx.default.fix l.remainingQuantity = l.remainingQuantity

section Sale

variable {fill : FillRecord} {l : Lot} {m : ℚ}

theorem Lot.Carries.exit (h : l.Carries) (hm : m ≤ l.remainingQuantity) : (l.exit .default fill m).Carries where
  price_nonneg := h.price_nonneg
  remaining_nonneg := fix_nonneg (sub_nonneg.mpr hm)
  digits := fix_fix _

/-- A lot carries no more after a sale, since a difference is not rounded above what it was. -/
theorem Lot.Carries.exit_le (h : l.Carries) (hm : 0 < m) : (l.exit .default fill m).carried ≤ l.carried := by
  have hle : Ctx.default.fix (l.remainingQuantity - m) ≤ l.remainingQuantity := by
    calc Ctx.default.fix (l.remainingQuantity - m) ≤ Ctx.default.fix l.remainingQuantity :=
          fix_le_fix (sub_le_self _ hm.le)
      _ = l.remainingQuantity := h.digits
  exact mul_le_mul_of_nonneg_right hle h.price_nonneg

/-- **A sale** leaves lots that carry no more. -/
theorem closeLots_carried {ledger ledger' : FifoLedger} {completed : List TradeRecord}
    (h : ∀ l ∈ ledger.lots, l.Carries) (hclose : ledger.closeLots .default fill = .ok (ledger', completed)) :
    (∀ l ∈ ledger'.lots, l.Carries) ∧ ledger'.carriedNotional ≤ ledger.carriedNotional := by
  simp only [FifoLedger.closeLots, bind_eq_ok] at hclose
  obtain ⟨-, -, -, -, hclose⟩ := hclose
  cases hclose
  have hlots := (@matchLots_consume .default fill ledger.lots fill.quantity ledger.tradeSequence).1
  have hall : ∀ l ∈ ((lotFifo .default fill).consume fill.quantity ledger.lots).1, l.Carries :=
    Fifo.forall_consume (fun m l _ hm hl => hl.exit hm) ledger.lots fill.quantity h
  rw [← hlots] at hall
  refine ⟨fun l hl => hall l (List.mem_of_mem_filter hl), ?_⟩
  have hfilter : (((matchLots .default fill fill.quantity ledger.tradeSequence ledger.lots).lots.filter
      (0 < ·.remainingQuantity)).map Lot.carried).sum ≤
      ((matchLots .default fill fill.quantity ledger.tradeSequence ledger.lots).lots.map Lot.carried).sum :=
    (List.filter_sublist.map _).sum_le_sum fun x hx => by
      obtain ⟨l, hl, rfl⟩ := List.mem_map.mp hx
      exact mul_nonneg (hall l hl).remaining_nonneg (hall l hl).price_nonneg
  refine hfilter.trans ?_
  rw [hlots]
  exact Fifo.sum_consume_le (f := lotFifo .default fill) (P := Lot.Carries) (w := Lot.carried)
    (fun m l hm _ hl => hl.exit_le hm) ledger.lots fill.quantity h

end Sale

theorem carriedNotional_openLot (ledger : FifoLedger) (fill : FillRecord) :
    ({ ledger with lots := ledger.lots ++ [lotOf fill] } : FifoLedger).carriedNotional =
      ledger.carriedNotional + fill.quantity * fill.fillPrice := by
  simp [FifoLedger.carriedNotional, lotOf]

/-! ### Steps and runs -/

/-- The checks of the simulation on a buy at a price: its gross value is within the budget, and the cash that it leaves
is not below the reserve. -/
def LetThrough (costModel : CostModel) (allocation : CapitalAllocation) (s : PortfolioState) (intent : OrderIntent)
    (budget price : ℚ) : Prop :=
  Ctx.default.fix (intent.quantity * price) ≤ budget ∧ allocation.reservedCash ≤ Ctx.default.fix (s.cash +
    cashFlow .default .buy (Ctx.default.fix (intent.quantity * price)) costModel.commissionPerFill)

/-- Before a step: a buy that the simulation lets through has a quantity of at most 28 digits and is, with what the open
lots of its symbol carry, within the budget. -/
def WithinBudget (costModel : CostModel) (allocation : CapitalAllocation) (s : PortfolioState) : PortfolioStep → Prop
  | .intent _ symbol record e => ∀ budget anchor price, allocation.budgetFor symbol = some budget →
      e.intent.side = .buy → executable e.intent record = .ok (.anchored anchor) →
      priceAt .default e.intent costModel anchor.val = .ok price →
      LetThrough costModel allocation s e.intent budget price →
      Ctx.default.fix e.intent.quantity = e.intent.quantity ∧
        (s.ledgers symbol).carriedNotional + e.intent.quantity * price ≤ budget
  | _ => True

/-- Every symbol with a budget carries at most that. -/
def PortfolioState.Capped (allocation : CapitalAllocation) (s : PortfolioState) : Prop :=
  ∀ symbol budget, allocation.budgetFor symbol = some budget →
    (∀ l ∈ (s.ledgers symbol).lots, l.Carries) ∧ (s.ledgers symbol).carriedNotional ≤ budget

/-- **A step within the budget.** -/
theorem PortfolioState.Capped.step {costModel : CostModel} {allocation : CapitalAllocation} {symbols : List String}
    {s s' : PortfolioState} {a : PortfolioStep} (h : s.Capped allocation) (hwithin : WithinBudget costModel allocation s a)
    (hstep : PortfolioStepped .default costModel allocation symbols s a s') : s'.Capped allocation := by
  cases hstep with
  | observed hmark => exact h
  | unfilled reason => exact h
  | equity hvalue => exact h
  | @filled k symbol record e fill ledger completed hfill hreserved hbudget hbook =>
    intro other budget hother
    by_cases hsymbol : other = symbol
    · subst hsymbol
      dsimp only
      rw [Function.update_self]
      obtain ⟨hlots, hcarried⟩ := h other budget hother
      cases hside : e.intent.side with
      | sell =>
        rw [hside] at hbook
        obtain ⟨hlots', hcarried'⟩ := closeLots_carried hlots hbook
        exact ⟨hlots', hcarried'.trans hcarried⟩
      | buy =>
        have hbuy : fill.side = .buy := hfill.side.trans hside
        rw [hside, bookFill, openLot_eq hbuy] at hbook
        cases hbook
        obtain ⟨anchor, price, hexecutable, hanchor, hprice, rfl⟩ := hfill.made
        have hgross : Ctx.default.fix (e.intent.quantity * price) ≤ budget := by
          rw [aboveBudget, hother] at hbudget
          simpa [makeFill, hside] using hbudget
        have hthrough : LetThrough costModel allocation s e.intent budget price := by
          refine ⟨hgross, ?_⟩
          rw [makeFill, hside] at hreserved
          exact hreserved
        obtain ⟨hdigits, hsum⟩ := hwithin budget anchor price hother hside hexecutable hprice hthrough
        rw [carriedNotional_openLot]
        refine ⟨List.forall_mem_append.mpr ⟨hlots, List.forall_mem_singleton.mpr ?_⟩, hsum⟩
        exact ⟨priceAt_nonneg hside hanchor hprice, e.intent.quantity_pos.le, hdigits⟩
    · dsimp only
      rw [Function.update_of_ne hsymbol]
      exact h other budget hother

theorem CapitalAllocation.budget_pos (allocation : CapitalAllocation) {symbol : String} {budget : ℚ}
    (h : allocation.budgetFor symbol = some budget) : 0 < budget := by
  obtain ⟨pair, hpair, rfl⟩ := Option.map_eq_some_iff.mp h
  exact allocation.budgets_pos pair (List.mem_of_find?_eq_some hpair)

/-- **Runs within the budget**: when, before every buy that the simulation lets through, the open lots of its symbol
carry at most the budget together with it, they carry at most the budget after every step. -/
theorem carried_le_budget (p : PortfolioInput) (intents : List PortfolioIntent) (costModel : CostModel)
    (allocation : CapitalAllocation)
    (hwithin : ∀ l a t, l ++ [a] <+: portfolioSteps p intents →
      run (portfolioStep .default costModel allocation p.symbols)
        (portfolioStart p intents allocation.initialCapital) l = .ok t → WithinBudget costModel allocation t a) :
    ∀ l s, l <+: portfolioSteps p intents →
      run (portfolioStep .default costModel allocation p.symbols)
        (portfolioStart p intents allocation.initialCapital) l = .ok s →
      ∀ symbol budget, allocation.budgetFor symbol = some budget → (s.ledgers symbol).carriedNotional ≤ budget := by
  intro l s hl h symbol budget hbudget
  have hstart : (portfolioStart p intents allocation.initialCapital).Capped allocation := fun other b hb =>
    ⟨List.forall_mem_nil _, (allocation.budget_pos hb).le⟩
  have hcapped : s.Capped allocation :=
    invariant_guarded (I := PortfolioState.Capped allocation) (G := WithinBudget costModel allocation)
      (fun s a s' hs hwithin hstep => hs.step hwithin (portfolioStepped hstep))
      (fun l' a t hl' ht => hwithin l' a t (hl'.trans hl) ht) hstart h
  exact (hcapped symbol budget hbudget).2

/-! ### Two buys -/

theorem budget_symbols (budget : ℚ) : ∀ pair ∈ [("INFY", budget)], pair.1 ≠ "" :=
  List.forall_mem_singleton.mpr infy_nonempty

theorem budget_unique (budget : ℚ) : ([("INFY", budget)].map Prod.fst).Nodup := List.nodup_singleton _

theorem budget_pos (budget : ℕ) : ∀ pair ∈ [("INFY", (budget + 1 : ℚ))], 0 < pair.2 :=
  List.forall_mem_singleton.mpr (Nat.cast_add_one_pos budget)

/-- 1000 of capital, and a budget for the symbol. -/
def budgetAllocation (budget : ℕ) : CapitalAllocation :=
  allocationOf 1000 0 [("INFY", budget + 1)] sample_capital_pos no_reserve_le (budget_symbols _) (budget_unique _)
    (budget_pos budget)

/-- One is bought at 100 and another at 110. -/
def twoBuys : List PortfolioIntent :=
  [⟨"INFY", sampleIntent .buy 0 0, infy_nonempty⟩, ⟨"INFY", sampleIntent .buy 0 1, infy_nonempty⟩]

/-- One is bought at 100. -/
def oneBuy : List PortfolioIntent := [⟨"INFY", sampleIntent .buy 0 0, infy_nonempty⟩]

theorem exists_ok_of_any {ε α : Type} {x : Except ε α} {q : α → Bool} (h : x.toOption.any q = true) :
    ∃ a, x = .ok a ∧ q a = true := by
  cases x with
  | error e => cases h
  | ok a => exact ⟨a, rfl, h⟩

/-- A budget of 150: both buys are let through, and the open lots carry 210. -/
theorem budget_exceeded :
    (∃ r, runPortfolioBacktest .default singlePortfolio twoBuys sampleCosts (budgetAllocation 149) = .ok r) ∧
    (budgetAllocation 149).budgetFor "INFY" = some 150 ∧
    ∃ s, run (portfolioStep .default sampleCosts (budgetAllocation 149) singlePortfolio.symbols)
      (portfolioStart singlePortfolio twoBuys (budgetAllocation 149).initialCapital)
      (portfolioSteps singlePortfolio twoBuys) = .ok s ∧ 150 < (s.ledgers "INFY").carriedNotional := by
  refine ⟨exists_ok (by decide +kernel), by decide +kernel, ?_⟩
  obtain ⟨s, hs, hcarried⟩ := exists_ok_of_any (q := fun s => decide (150 < (s.ledgers "INFY").carriedNotional))
    (x := run (portfolioStep .default sampleCosts (budgetAllocation 149) singlePortfolio.symbols)
      (portfolioStart singlePortfolio twoBuys (budgetAllocation 149).initialCapital)
      (portfolioSteps singlePortfolio twoBuys)) (by decide +kernel)
  exact ⟨s, hs, of_decide_eq_true hcarried⟩

/-! ### One buy -/

/-- A price without slippage. -/
theorem priceAt_of_bps_zero {c : Ctx} {intent : OrderIntent} {costModel : CostModel} {anchor : ℚ}
    (hbps : costModel.slippageBps = 0) (hanchor : 0 < anchor) : priceAt c intent costModel anchor = .ok anchor := by
  unfold priceAt
  cases intent.orderType with
  | limit => rfl
  | market =>
    have hlt : ¬(10000 : ℚ) ≤ 0 := by norm_num
    simp [applySlippage, hbps, raiseIf, not_le.mpr hanchor, hlt, bind, Except.bind, pure, Except.pure]

theorem steps_oneBuy : portfolioSteps singlePortfolio oneBuy =
    [.observe "INFY" (sampleTick 1 (.finite (.ofNat 100))),
      .intent 0 "INFY" (sampleTick 1 (.finite (.ofNat 100))) ⟨0, sampleIntent .buy 0 0⟩,
      .equity (sampleTick 1 (.finite (.ofNat 100))).timestamp,
      .observe "INFY" (sampleTick 2 (.finite (.ofNat 110))),
      .equity (sampleTick 2 (.finite (.ofNat 110))).timestamp,
      .observe "INFY" (sampleTick 3 (.finite (.ofNat 120))),
      .equity (sampleTick 3 (.finite (.ofNat 120))).timestamp] := rfl

/-- Where a step of a list stands. -/
theorem concat_prefix_cons {α : Type} {l xs : List α} {a x : α} (h : l ++ [a] <+: x :: xs) :
    (l = [] ∧ a = x) ∨ ∃ l', l = x :: l' ∧ l' ++ [a] <+: xs := by
  cases l with
  | nil => exact .inl ⟨rfl, (List.cons_prefix_cons.mp h).1⟩
  | cons b l' =>
    obtain ⟨rfl, hrest⟩ := List.cons_prefix_cons.mp h
    exact .inr ⟨l', rfl, hrest⟩

/-- The only buy of the run is within the budget of 150. -/
theorem oneBuy_within (l : List PortfolioStep) (a : PortfolioStep) (t : PortfolioState)
    (hl : l ++ [a] <+: portfolioSteps singlePortfolio oneBuy)
    (ht : run (portfolioStep .default sampleCosts (budgetAllocation 149) singlePortfolio.symbols)
      (portfolioStart singlePortfolio oneBuy (budgetAllocation 149).initialCapital) l = .ok t) :
    WithinBudget sampleCosts (budgetAllocation 149) t a := by
  rw [steps_oneBuy] at hl
  rcases concat_prefix_cons hl with ⟨rfl, rfl⟩ | ⟨l₁, rfl, hl₁⟩
  · trivial
  rcases concat_prefix_cons hl₁ with ⟨rfl, rfl⟩ | ⟨l₂, rfl, hl₂⟩
  · intro budget anchor price hbudget _ hexecutable hprice _
    have hledger : t.ledgers "INFY" = {} := by
      obtain ⟨s, hs, hnil⟩ := run_cons_ok.mp ht
      cases hnil
      obtain ⟨mark, -, rfl⟩ := map_eq_ok.mp hs
      rfl
    have hexecution : executable (sampleIntent .buy 0 0) (sampleTick 1 (.finite (.ofNat 100))) =
        .ok (.anchored (.ofNat 100)) := rfl
    have hfound : (budgetAllocation 149).budgetFor "INFY" = some 150 := by decide +kernel
    rw [hfound] at hbudget
    cases hbudget
    dsimp only at hexecutable hprice
    rw [hexecution] at hexecutable
    cases hexecutable
    rw [priceAt_of_bps_zero rfl (by rw [Dec.val_ofNat]; norm_num), Dec.val_ofNat] at hprice
    cases hprice
    rw [hledger]
    decide +kernel
  -- no intent is evaluated afterwards
  · have hrest : ∀ b ∈ [PortfolioStep.equity (sampleTick 1 (.finite (.ofNat 100))).timestamp,
        .observe "INFY" (sampleTick 2 (.finite (.ofNat 110))),
        .equity (sampleTick 2 (.finite (.ofNat 110))).timestamp,
        .observe "INFY" (sampleTick 3 (.finite (.ofNat 120))),
        .equity (sampleTick 3 (.finite (.ofNat 120))).timestamp],
        WithinBudget sampleCosts (budgetAllocation 149) t b := by
      simp [WithinBudget]
    exact hrest a (hl₂.subset (List.mem_append_right _ (List.mem_singleton_self a)))

theorem oneBuy_ends : ∃ s, run (portfolioStep .default sampleCosts (budgetAllocation 149) singlePortfolio.symbols)
    (portfolioStart singlePortfolio oneBuy (budgetAllocation 149).initialCapital)
    (portfolioSteps singlePortfolio oneBuy) = .ok s :=
  exists_ok (by decide +kernel)

theorem carried_le_budget_oneBuy :
    ∃ s, run (portfolioStep .default sampleCosts (budgetAllocation 149) singlePortfolio.symbols)
      (portfolioStart singlePortfolio oneBuy (budgetAllocation 149).initialCapital)
      (portfolioSteps singlePortfolio oneBuy) = .ok s ∧ (s.ledgers "INFY").carriedNotional ≤ 150 := by
  obtain ⟨s, hs⟩ := oneBuy_ends
  exact ⟨s, hs, carried_le_budget singlePortfolio oneBuy sampleCosts (budgetAllocation 149) oneBuy_within _ s
    (List.prefix_refl _) hs "INFY" 150 (by decide +kernel)⟩

end AlphaAlgo.Backtest
