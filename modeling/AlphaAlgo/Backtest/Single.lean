import AlphaAlgo.Backtest.PortfolioRuns

/-!
# Single — a portfolio of one symbol is a backtest

With one symbol, no reserve and no budget the portfolio simulation takes the steps of the backtest.  The two states are
related by `Same`; at each record the two engines agree (`agree_record`), and so do the runs.

* `single_agrees`: the same outcomes, trades and equity, or both raise.
-/

namespace AlphaAlgo.Backtest

open Loop

/-- The state of the portfolio is that of the backtest of its symbol; the mark is that of the last record. -/
structure Same (symbol : String) (mark : Option ℚ) (s : SimState) (t : PortfolioState) : Prop where
  cash : t.cash = s.cash
  position : t.position symbol = s.position
  lastMark : t.lastMark symbol = mark
  sequence : t.sequence = s.sequence
  trades : t.trades = s.trades.map (⟨symbol, ·⟩)
  equityPoints : t.equityPoints = s.equityPoints
  ledger : t.ledgers symbol = s.ledger
  outcomes : t.outcomes = s.outcomes

section Agree

variable {c : Ctx} {costModel : CostModel} {allocation : CapitalAllocation} {symbols : List String} {symbol : String}
  {mark : Option ℚ} {s : SimState} {t : PortfolioState} {record : MarketRecord} {k : ℕ} {e : IndexedIntent}

/-- **An intent** is evaluated alike: with no reserve and no budget nothing else is refused. -/
theorem agree_intent (hreserved : allocation.reservedCash = 0) (hbudget : allocation.budgetFor symbol = none)
    (h : Same symbol mark s t) : Agree (Same symbol mark) (simStep c costModel s (.intent k record e))
      (portfolioStep c costModel allocation symbols t (.intent k symbol record e)) := by
  rw [simStep, portfolioStep, h.cash, h.position, h.sequence]
  cases heval : evaluateFill c e.intent record k s.cash s.position costModel s.sequence e.index with
  | error err => trivial
  | ok evaluation =>
    cases evaluated heval with
    | unfilled reason =>
      exact ⟨h.cash, h.position, h.lastMark, h.sequence, h.trades, h.equityPoints, h.ledger,
        congrArg (List.set · _ _) h.outcomes⟩
    | @filled fill hfill =>
      have hcash : ¬c.fix (s.cash + fill.cashFlow) < allocation.reservedCash := by
        rw [hreserved]
        exact not_lt.mpr hfill.cash_nonneg
      have hfree : aboveBudget allocation symbol fill = false := by
        rw [aboveBudget, hbudget]
      simp only [bind, Except.bind, reservedFloor, hcash, and_false, if_false, budgetCap, hfree, Bool.false_eq_true,
        SimState.settle, PortfolioState.settle, h.ledger, hfill.side]
      cases bookFill c e.intent.side s.ledger fill with
      | error err => trivial
      | ok booked =>
        refine ⟨rfl, Function.update_self .., h.lastMark, congrArg (· + 1) h.sequence, ?_, h.equityPoints,
          Function.update_self .., congrArg (List.set · _ _) h.outcomes⟩
        simp only [h.trades, List.map_append]

/-- **The mark of a record**: the market value of the one position. -/
theorem agree_mark {price : ℚ} (hprice : markPrice .engine record = .ok price)
    (h : Same symbol (some price) s t) : Agree (Same symbol (some price)) (simStep .default costModel s (.mark record))
      (portfolioStep .default costModel allocation [symbol] t (.equity record.timestamp)) := by
  have hvalue : marketValue .default t 0 [symbol] = .ok (Ctx.default.fix (s.position * price)) := by
    rw [marketValue, h.position]
    by_cases hzero : s.position = 0
    · rw [if_pos hzero, hzero, zero_mul, Ctx.fix_zero]
      rfl
    · rw [if_neg hzero, h.lastMark]
      dsimp only
      rw [zero_add, fix_fix]
      rfl
  rw [simStep, portfolioStep, hprice, hvalue]
  refine ⟨h.cash, h.position, h.lastMark, h.sequence, h.trades, ?_, h.ledger, h.outcomes⟩
  simp only [h.equityPoints, h.cash]

/-- The two engines read the same mark. -/
theorem markPrice_portfolio (record : MarketRecord) :
    (∃ price, markPrice .engine record = .ok price ∧ markPrice .portfolio record = .ok price) ∨
      ∃ e e', markPrice .engine record = .error e ∧ markPrice .portfolio record = .error e' := by
  unfold markPrice
  cases record.mark with
  | finite d =>
    dsimp only
    split_ifs
    · exact .inr ⟨_, _, rfl, rfl⟩
    · exact .inl ⟨_, rfl, rfl⟩
  | infinity neg => exact .inr ⟨_, _, rfl, rfl⟩
  | nan => exact .inr ⟨_, _, rfl, rfl⟩

/-- **At each record the engines agree.** -/
theorem agree_record (hreserved : allocation.reservedCash = 0) (hbudget : allocation.budgetFor symbol = none)
    (entries : List IndexedIntent) (h : Same symbol mark s t) : Agree (fun s t => ∃ mark, Same symbol mark s t)
      (run (simStep .default costModel) s (recordSteps record k entries))
      (run (portfolioStep .default costModel allocation [symbol]) t (entrySteps k ⟨symbol, k, record⟩ entries)) := by
  rw [recordSteps, entrySteps, run_append, run_cons]
  rcases markPrice_portfolio record with ⟨price, hengine, hportfolio⟩ | ⟨err, err', hengine, hportfolio⟩
  · have hobserved : portfolioStep .default costModel allocation [symbol] t (.observe symbol record) =
        .ok { t with lastMark := Function.update t.lastMark symbol (some price) } := by
      rw [portfolioStep, hportfolio]
      rfl
    have hsame : Same symbol (some price) s { t with lastMark := Function.update t.lastMark symbol (some price) } :=
      ⟨h.cash, h.position, Function.update_self .., h.sequence, h.trades, h.equityPoints, h.ledger, h.outcomes⟩
    dsimp only
    rw [hobserved]
    dsimp only [bind, Except.bind]
    rw [run_append]
    have hintents : Agree (Same symbol (some price)) (run (simStep .default costModel) s (entries.map (.intent k record)))
        (run (portfolioStep .default costModel allocation [symbol])
          { t with lastMark := Function.update t.lastMark symbol (some price) }
          (entries.map (.intent k symbol record))) := by
      refine run_agree (Q := fun a b => ∃ e, a = .intent k record e ∧ b = .intent k symbol record e) ?_ ?_ hsame
      · rintro s t _ _ hst ⟨e, rfl, rfl⟩
        exact agree_intent hreserved hbudget hst
      · rw [List.forall₂_map_left_iff, List.forall₂_map_right_iff, List.forall₂_same]
        exact fun e _ => ⟨e, rfl, rfl⟩
    refine Agree.bind hintents fun s' t' hst' => ?_
    rw [run_cons, run_cons]
    refine Agree.bind (agree_mark hengine hst') fun s'' t'' hst'' => ⟨_, hst''⟩
  · -- the mark raises in both: here at once, in the backtest after the intents
    have hobserved : portfolioStep .default costModel allocation [symbol] t (.observe symbol record) = .error err' := by
      rw [portfolioStep, hportfolio]
      rfl
    have hmark : ∀ s, run (simStep .default costModel) s [.mark record] = .error err := fun s => by
      rw [run_cons, simStep, hengine]
      rfl
    dsimp only
    rw [hobserved]
    cases run (simStep .default costModel) s (entries.map (.intent k record)) with
    | error e => trivial
    | ok s' =>
      dsimp only [bind, Except.bind]
      rw [hmark s']
      trivial

end Agree

/-! ### The steps of one symbol -/

section OneSymbol

variable {inputs : BacktestInput} {p : PortfolioInput} {intents : List PortfolioIntent}

theorem symbols_single (hp : p.inputs = [inputs]) : p.symbols = [inputs.symbol] := by
  rw [PortfolioInput.symbols, hp]
  rfl

theorem records_single (hp : p.inputs = [inputs]) : p.records inputs.symbol = inputs.records := by
  rw [PortfolioInput.records, PortfolioInput.symbolInput, hp]
  simp

/-- The only group has all intents, in their order. -/
theorem sortedGroup_single (hsymbols : ∀ item ∈ intents, item.symbol = inputs.symbol)
    (hascending : Ascending (intents.map PortfolioIntent.intent)) :
    sortedGroup intents inputs.symbol = indexed (intents.map PortfolioIntent.intent) := by
  have hgroup : groupOf intents inputs.symbol = indexed (intents.map PortfolioIntent.intent) := by
    have hall : intents.zipIdx.filter (·.1.symbol = inputs.symbol) = intents.zipIdx :=
      List.filter_eq_self.mpr fun q hq =>
        decide_eq_true (hsymbols q.1 (List.mem_of_getElem? (List.mk_mem_zipIdx_iff_getElem?.mp hq)))
    rw [groupOf, hall, indexed, List.zipIdx_map, List.map_map]
    rfl
  rw [sortedGroup, hgroup]
  exact (pairwise_indexed hascending).insertionSort_eq

theorem anchoredIn_single (hp : p.inputs = [inputs]) (hsymbols : ∀ item ∈ intents, item.symbol = inputs.symbol)
    (hascending : Ascending (intents.map PortfolioIntent.intent)) {k : ℕ} (hk : k < inputs.records.length) :
    anchoredIn p intents inputs.symbol k =
      (anchorRun inputs.records (intents.map PortfolioIntent.intent)).anchoredAt k := by
  rw [anchoredIn_eq (by rwa [records_single hp]), records_single hp, anchoredAt_anchorRun hascending hk,
    sortedGroup_single hsymbols hascending]

theorem timeline_single (hp : p.inputs = [inputs]) :
    timeline p = inputs.records.zipIdx.map fun q => ⟨inputs.symbol, q.2, q.1⟩ := by
  have hentries : p.symbols.flatMap (symbolEntries p) =
      inputs.records.zipIdx.map fun q => ⟨inputs.symbol, q.2, q.1⟩ := by
    rw [symbols_single hp, List.flatMap_singleton, symbolEntries, records_single hp]
  have hfirst : (inputs.records.zipIdx.map Prod.fst).Pairwise
      fun a b => a.timestamp.instant < b.timestamp.instant := by
    rw [List.zipIdx_map_fst]
    exact inputs.ascending
  rw [timeline, hentries]
  refine List.Pairwise.insertionSort_eq (List.pairwise_map.mpr ?_)
  exact (List.pairwise_map.mp hfirst).imp fun hlt => .inl hlt

/-- The steps of the portfolio, record after record. -/
theorem portfolioSteps_single (hp : p.inputs = [inputs]) (hsymbols : ∀ item ∈ intents, item.symbol = inputs.symbol)
    (hascending : Ascending (intents.map PortfolioIntent.intent)) :
    portfolioSteps p intents = inputs.records.zipIdx.flatMap fun q => entrySteps q.2 ⟨inputs.symbol, q.2, q.1⟩
      ((anchorRun inputs.records (intents.map PortfolioIntent.intent)).anchoredAt q.2) := by
  have hzip : (timeline p).zipIdx = inputs.records.zipIdx.map fun q => (⟨inputs.symbol, q.2, q.1⟩, q.2) := by
    rw [timeline_single hp, List.zipIdx_map]
    refine List.ext_getElem? fun i => ?_
    simp only [List.getElem?_map, List.getElem?_zipIdx, Option.map_map]
    rfl
  rw [portfolioSteps, hzip, List.flatMap_map, List.flatMap_def, List.flatMap_def]
  congr 1
  refine List.map_congr_left fun q hq => ?_
  have hk : q.2 < inputs.records.length := (List.getElem?_eq_some_iff.mp (List.mk_mem_zipIdx_iff_getElem?.mp hq)).1
  rw [anchoredIn_single hp hsymbols hascending hk]

theorem startOutcomes_single (hp : p.inputs = [inputs]) (hsymbols : ∀ item ∈ intents, item.symbol = inputs.symbol)
    (hascending : Ascending (intents.map PortfolioIntent.intent)) :
    startOutcomes p intents = (anchorRun inputs.records (intents.map PortfolioIntent.intent)).outcomes := by
  rw [startOutcomes, symbols_single hp, List.foldl_cons, List.foldl_nil, anchorSymbol, records_single hp,
    sortedGroup_single hsymbols hascending, anchorRun, List.length_map]

/-- **The runs agree.** -/
theorem agree_run {costModel : CostModel} {allocation : CapitalAllocation} (hp : p.inputs = [inputs])
    (hsymbols : ∀ item ∈ intents, item.symbol = inputs.symbol)
    (hascending : Ascending (intents.map PortfolioIntent.intent)) (hreserved : allocation.reservedCash = 0)
    (hbudget : allocation.budgetFor inputs.symbol = none) :
    Agree (fun s t => ∃ mark, Same inputs.symbol mark s t)
      (run (simStep .default costModel)
        (startOf inputs.records (intents.map PortfolioIntent.intent) allocation.initialCapital)
        (stepsOf inputs.records (intents.map PortfolioIntent.intent)))
      (run (portfolioStep .default costModel allocation p.symbols)
        (portfolioStart p intents allocation.initialCapital) (portfolioSteps p intents)) := by
  rw [portfolioSteps_single hp hsymbols hascending, symbols_single hp, stepsOf, simSteps, run_flatMap, run_flatMap]
  have hstart : Same inputs.symbol none
      (startOf inputs.records (intents.map PortfolioIntent.intent) allocation.initialCapital)
      (portfolioStart p intents allocation.initialCapital) :=
    ⟨rfl, rfl, rfl, rfl, rfl, rfl, rfl, startOutcomes_single hp hsymbols hascending⟩
  refine run_agree (Q := Eq) ?_ (List.forall₂_same.mpr fun q _ => rfl) ⟨none, hstart⟩
  rintro s t q _ ⟨mark, hst⟩ rfl
  exact agree_record hreserved hbudget _ hst

end OneSymbol

/-- **The portfolio of one symbol**, with no reserve and no budget, gives the outcomes, the trades and the equity of the
backtest of that symbol, or both raise. -/
theorem single_agrees (inputs : BacktestInput) (p : PortfolioInput) (hp : p.inputs = [inputs])
    (intents : List PortfolioIntent) (hsymbols : ∀ item ∈ intents, item.symbol = inputs.symbol)
    (hascending : Ascending (intents.map PortfolioIntent.intent)) (costModel : CostModel)
    (allocation : CapitalAllocation) (hreserved : allocation.reservedCash = 0)
    (hbudget : allocation.perSymbolBudget = []) :
    (runPortfolioBacktest .default p intents costModel allocation).toOption.map
        (fun r => (r.outcomes, r.trades, r.equityCurve)) =
      (runBacktest .default inputs (intents.map PortfolioIntent.intent) costModel
        allocation.initialCapital).toOption.map
          fun r => (r.outcomes, r.trades.map (⟨inputs.symbol, ·⟩), r.equityCurve) := by
  have hfree : allocation.budgetFor inputs.symbol = none := by
    rw [CapitalAllocation.budgetFor, hbudget]
    rfl
  have hknown : checkKnown p intents = .ok () := checkKnown_eq_ok.mpr fun item hitem => by
    rw [symbols_single hp, hsymbols item hitem]
    exact List.mem_singleton_self _
  have hgroups : checkGroups intents p.symbols = .ok () := checkGroups_eq_ok.mpr fun symbol hsymbol => by
    rw [symbols_single hp, List.mem_singleton] at hsymbol
    rw [hsymbol, sortedGroup_single hsymbols hascending, map_intent_indexed]
    exact hascending
  have hagree := @agree_run _ _ _ costModel _ hp hsymbols hascending hreserved hfree
  have hcapital : ¬allocation.initialCapital ≤ 0 := not_le.mpr allocation.capital_pos
  rw [runPortfolioBacktest, hknown, hgroups, runBacktest, raiseIf, if_neg hcapital, raiseIf, if_neg (not_not.mpr hascending)]
  dsimp only [bind, Except.bind]
  cases hsingle : run (simStep .default costModel)
      (startOf inputs.records (intents.map PortfolioIntent.intent) allocation.initialCapital)
      (stepsOf inputs.records (intents.map PortfolioIntent.intent)) with
  | error e =>
    rw [hsingle] at hagree
    cases hportfolio : run (portfolioStep .default costModel allocation p.symbols)
        (portfolioStart p intents allocation.initialCapital) (portfolioSteps p intents) with
    | error e' => rfl
    | ok t =>
      rw [hportfolio] at hagree
      exact hagree.elim
  | ok s =>
    obtain ⟨t, hportfolio, mark, hsame⟩ := hagree.of_ok hsingle
    rw [hportfolio]
    dsimp only
    rw [hsame.outcomes]
    cases allOutcomes s.outcomes with
    | error e => rfl
    | ok outcomes =>
      dsimp only [Except.mapError]
      rw [makeResult, makeRun, dif_pos allocation.capital_pos]
      by_cases hlength : outcomes.length = intents.length
      · have hlength' : outcomes.length = (intents.map PortfolioIntent.intent).length :=
          hlength.trans (List.length_map _).symm
        rw [dif_pos hlength, dif_pos hlength']
        by_cases hequity : s.equityPoints = []
        · have hequity' : t.equityPoints = [] := hsame.equityPoints.trans hequity
          rw [dif_neg (not_not.mpr hequity'), dif_neg (not_not.mpr hequity)]
          rfl
        · have hequity' : t.equityPoints ≠ [] := fun h => hequity (hsame.equityPoints.symm.trans h)
          rw [dif_pos hequity', dif_pos hequity]
          simp only [Except.toOption, Option.map_some, hsame.trades, hsame.equityPoints]
      · have hlength' : outcomes.length ≠ (intents.map PortfolioIntent.intent).length := fun h =>
          hlength (h.trans (List.length_map _))
        rw [dif_neg hlength, dif_neg hlength']
        rfl

/-- The sample as a portfolio of one symbol. -/
theorem single_agrees_sample :
    (runPortfolioBacktest .default singlePortfolio
        [⟨"INFY", sampleIntent .buy 1 0, infy_nonempty⟩, ⟨"INFY", sampleIntent .sell 0 1, infy_nonempty⟩] sampleCosts
        freeAllocation).toOption.map (fun r => (r.outcomes, r.trades, r.equityCurve)) =
      (runBacktest .default sampleInput sampleIntents sampleCosts 1000).toOption.map
        fun r => (r.outcomes, r.trades.map (⟨"INFY", ·⟩), r.equityCurve) :=
  single_agrees sampleInput singlePortfolio rfl
    [⟨"INFY", sampleIntent .buy 1 0, infy_nonempty⟩, ⟨"INFY", sampleIntent .sell 0 1, infy_nonempty⟩]
    (by decide) (by decide) sampleCosts freeAllocation rfl rfl

end AlphaAlgo.Backtest
