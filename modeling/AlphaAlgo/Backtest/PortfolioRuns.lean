import AlphaAlgo.Backtest.Portfolio

/-!
# PortfolioRuns — what holds at every step of a portfolio simulation

* `portfolioStepped`: what one step can do.
* `mem_indices`, `nodup_indices`: which intents a simulation evaluates, each once.
* `portfolio_sound`: without rounding, the cash stays above the reserve and is the capital plus all cash flows, and the
  position of each symbol is what its open lots have left.
-/

namespace AlphaAlgo.Backtest

open Loop

/-! ### What one step can do -/

inductive PortfolioStepped (c : Ctx) (costModel : CostModel) (allocation : CapitalAllocation) (symbols : List String)
    (s : PortfolioState) : PortfolioStep → PortfolioState → Prop
  | observed {symbol : String} {record : MarketRecord} {mark : ℚ} (hmark : markPrice .portfolio record = .ok mark) :
    PortfolioStepped c costModel allocation symbols s (.observe symbol record)
      { s with lastMark := Function.update s.lastMark symbol (some mark) }
  | unfilled {k : ℕ} {symbol : String} {record : MarketRecord} {e : IndexedIntent} (reason : UnfilledReason) :
    PortfolioStepped c costModel allocation symbols s (.intent k symbol record e)
      { s with outcomes := s.outcomes.set e.index (some ⟨e.index, .unfilled reason⟩) }
  | filled {k : ℕ} {symbol : String} {record : MarketRecord} {e : IndexedIntent} {fill : FillRecord}
      {ledger : FifoLedger} {completed : List TradeRecord}
      (hfill : Admitted c e.intent record k s.cash (s.position symbol) costModel s.sequence e.index fill)
      (hreserved : allocation.reservedCash ≤ c.fix (s.cash + fill.cashFlow))
      (hbudget : aboveBudget allocation symbol fill = false)
      (hbook : bookFill c e.intent.side (s.ledgers symbol) fill = .ok (ledger, completed)) :
    PortfolioStepped c costModel allocation symbols s (.intent k symbol record e)
      { cash := c.fix (s.cash + fill.cashFlow)
        position := Function.update s.position symbol (newPosition c e.intent.side (s.position symbol) e.intent.quantity)
        lastMark := s.lastMark
        sequence := s.sequence + 1
        trades := s.trades ++ completed.map fun trade => ⟨symbol, trade⟩
        equityPoints := s.equityPoints
        ledgers := Function.update s.ledgers symbol ledger
        outcomes := s.outcomes.set e.index (some ⟨e.index, .filled fill⟩) }
  | equity {timestamp : DateTime} {value : ℚ} (hvalue : marketValue c s 0 symbols = .ok value) :
    PortfolioStepped c costModel allocation symbols s (.equity timestamp)
      { s with equityPoints := s.equityPoints ++ [⟨timestamp, c.fix (s.cash + value)⟩] }

/-- **What one step can do.** -/
theorem portfolioStepped {c : Ctx} {costModel : CostModel} {allocation : CapitalAllocation} {symbols : List String}
    {s s' : PortfolioState} {a : PortfolioStep} (h : portfolioStep c costModel allocation symbols s a = .ok s') :
    PortfolioStepped c costModel allocation symbols s a s' := by
  cases a with
  | observe symbol record =>
    obtain ⟨mark, hmark, rfl⟩ := map_eq_ok.mp h
    exact .observed hmark
  | equity timestamp =>
    obtain ⟨value, hvalue, rfl⟩ := map_eq_ok.mp h
    exact .equity hvalue
  | intent k symbol record e =>
    obtain ⟨evaluation, heval, hsettle⟩ := bind_eq_ok.mp h
    cases evaluated heval with
    | unfilled reason =>
      cases hsettle
      exact .unfilled reason
    | @filled fill hfill =>
      by_cases hreserved : c.fix (s.cash + fill.cashFlow) < allocation.reservedCash
      · rw [reservedFloor, if_pos ⟨rfl, hreserved⟩] at hsettle
        cases hsettle
        exact .unfilled .insufficientCash
      · rw [reservedFloor, if_neg (fun hboth => hreserved hboth.2)] at hsettle
        dsimp only [budgetCap] at hsettle
        by_cases hbudget : aboveBudget allocation symbol fill = true
        · rw [if_pos hbudget] at hsettle
          cases hsettle
          exact .unfilled .insufficientCash
        · rw [if_neg hbudget] at hsettle
          obtain ⟨⟨ledger, completed⟩, hbook, rfl⟩ := map_eq_ok.mp hsettle
          rw [hfill.side] at hbook
          exact .filled hfill (not_lt.mp hreserved) (Bool.not_eq_true _ ▸ hbudget) hbook

/-! ### The intents of a symbol -/

section Groups

variable {p : PortfolioInput} {intents : List PortfolioIntent} {symbol : String}

theorem mem_groupOf {e : IndexedIntent} : e ∈ groupOf intents symbol ↔
    ∃ item, intents[e.index]? = some item ∧ item.symbol = symbol ∧ item.intent = e.intent := by
  simp only [groupOf, List.mem_map, List.mem_filter, decide_eq_true_eq]
  constructor
  · rintro ⟨⟨item, i⟩, ⟨hmem, hsymbol⟩, rfl⟩
    exact ⟨item, List.mk_mem_zipIdx_iff_getElem?.mp hmem, hsymbol, rfl⟩
  · rintro ⟨item, hitem, hsymbol, hintent⟩
    refine ⟨(item, e.index), ⟨List.mk_mem_zipIdx_iff_getElem?.mpr hitem, hsymbol⟩, ?_⟩
    rw [hintent]

theorem nodup_groupOf (intents : List PortfolioIntent) (symbol : String) :
    ((groupOf intents symbol).map IndexedIntent.index).Nodup := by
  have hindices : (intents.zipIdx.map Prod.snd).Nodup := by
    rw [List.zipIdx_map_snd]
    exact List.nodup_range'
  rw [groupOf, List.map_map]
  exact hindices.sublist (List.filter_sublist.map _)

theorem perm_sortedGroup (intents : List PortfolioIntent) (symbol : String) :
    (sortedGroup intents symbol).Perm (groupOf intents symbol) := List.perm_insertionSort _ _

theorem mem_sortedGroup {e : IndexedIntent} : e ∈ sortedGroup intents symbol ↔
    ∃ item, intents[e.index]? = some item ∧ item.symbol = symbol ∧ item.intent = e.intent :=
  (perm_sortedGroup intents symbol).mem_iff.trans mem_groupOf

theorem nodup_sortedGroup (intents : List PortfolioIntent) (symbol : String) :
    ((sortedGroup intents symbol).map IndexedIntent.index).Nodup :=
  ((perm_sortedGroup intents symbol).map _).nodup_iff.mpr (nodup_groupOf intents symbol)

/-- A group is sorted by the times of decision. -/
theorem pairwise_sortedGroup (intents : List PortfolioIntent) (symbol : String) :
    (sortedGroup intents symbol).Pairwise fun e e' => e.intent.decidedAt.instant ≤ e'.intent.decidedAt.instant := by
  have : Std.Total fun e e' : IndexedIntent => e.intent.decidedAt.instant ≤ e'.intent.decidedAt.instant :=
    ⟨fun e e' => le_total _ _⟩
  have : IsTrans IndexedIntent fun e e' => e.intent.decidedAt.instant ≤ e'.intent.decidedAt.instant :=
    ⟨fun _ _ _ => le_trans⟩
  exact List.pairwise_insertionSort _ _

/-- The intents anchored at a record of a symbol. -/
theorem anchoredIn_eq {k : ℕ} (hk : k < (p.records symbol).length) : anchoredIn p intents symbol k =
    (sortedGroup intents symbol).filter fun e => anchorOf (p.records symbol) e.intent.decidedAt = k :=
  anchoredAt_anchorIntents (pairwise_sortedGroup intents symbol) hk

theorem mem_anchoredIn {k : ℕ} (hk : k < (p.records symbol).length) {e : IndexedIntent} :
    e ∈ anchoredIn p intents symbol k ↔ (∃ item, intents[e.index]? = some item ∧ item.symbol = symbol ∧
      item.intent = e.intent) ∧ anchorOf (p.records symbol) e.intent.decidedAt = k := by
  rw [anchoredIn_eq hk, List.mem_filter, mem_sortedGroup, decide_eq_true_eq]

end Groups

/-! ### Symbols and the timeline -/

section Timeline

variable {p : PortfolioInput} {intents : List PortfolioIntent}

theorem perm_symbols (p : PortfolioInput) : p.symbols.Perm (p.inputs.map BacktestInput.symbol) :=
  List.perm_insertionSort _ _

theorem nodup_symbols (p : PortfolioInput) : p.symbols.Nodup := (perm_symbols p).nodup_iff.mpr p.symbols_unique

theorem mem_symbolEntries {symbol : String} {t : TimelineEntry} : t ∈ symbolEntries p symbol ↔
    t.symbol = symbol ∧ (p.records symbol)[t.localIndex]? = some t.record := by
  rw [symbolEntries, List.mem_map]
  constructor
  · rintro ⟨⟨r, k⟩, hmem, rfl⟩
    exact ⟨rfl, List.mk_mem_zipIdx_iff_getElem?.mp hmem⟩
  · rintro ⟨rfl, hrecord⟩
    exact ⟨(t.record, t.localIndex), List.mk_mem_zipIdx_iff_getElem?.mpr hrecord, rfl⟩

/-- The entries of the timeline are the records of the symbols. -/
theorem mem_timeline {t : TimelineEntry} : t ∈ timeline p ↔
    t.symbol ∈ p.symbols ∧ (p.records t.symbol)[t.localIndex]? = some t.record := by
  rw [timeline, (List.perm_insertionSort _ _).mem_iff, List.mem_flatMap]
  simp only [mem_symbolEntries]
  constructor
  · rintro ⟨symbol, hsymbol, rfl, hrecord⟩
    exact ⟨hsymbol, hrecord⟩
  · exact fun h => ⟨t.symbol, h.1, rfl, h.2⟩

theorem nodup_timeline (p : PortfolioInput) : (timeline p).Nodup := by
  rw [timeline, (List.perm_insertionSort _ _).nodup_iff, List.nodup_flatMap]
  refine ⟨fun symbol _ => ?_, (nodup_symbols p).imp fun {symbol symbol'} hne t ht ht' => hne ?_⟩
  · refine List.Nodup.of_map TimelineEntry.localIndex ?_
    rw [symbolEntries, List.map_map]
    have hindices : ((p.records symbol).zipIdx.map Prod.snd).Nodup := by
      rw [List.zipIdx_map_snd]
      exact List.nodup_range'
    exact hindices
  · rw [← (mem_symbolEntries.mp ht).1, (mem_symbolEntries.mp ht').1]

/-- The index of the intent that a step evaluates. -/
def PortfolioStep.index : PortfolioStep → Option ℕ
  | .intent _ _ _ e => some e.index
  | _ => none

/-- The intents that a simulation evaluates, in their order. -/
theorem indices_portfolioSteps (p : PortfolioInput) (intents : List PortfolioIntent) :
    (portfolioSteps p intents).filterMap PortfolioStep.index =
      (timeline p).flatMap fun t => (anchoredIn p intents t.symbol t.localIndex).map IndexedIntent.index := by
  have hentry : ∀ (k : ℕ) (t : TimelineEntry) (entries : List IndexedIntent),
      (entrySteps k t entries).filterMap PortfolioStep.index = entries.map IndexedIntent.index := by
    intro k t entries
    have hindex : PortfolioStep.index ∘ PortfolioStep.intent k t.symbol t.record = some ∘ IndexedIntent.index := rfl
    rw [entrySteps, List.filterMap_cons_none rfl, List.filterMap_append, List.filterMap_map, hindex,
      List.filterMap_eq_map]
    exact List.append_nil _
  rw [portfolioSteps, List.filterMap_flatMap]
  simp only [hentry]
  rw [← List.zipIdx_map_fst 0 (timeline p), List.flatMap_map, List.zipIdx_map_fst]

/-- An intent that is evaluated. -/
theorem mem_indices (hknown : ∀ item ∈ intents, item.symbol ∈ p.symbols) {i : ℕ} :
    i ∈ (portfolioSteps p intents).filterMap PortfolioStep.index ↔ ∃ item, intents[i]? = some item ∧
      anchorOf (p.records item.symbol) item.intent.decidedAt < (p.records item.symbol).length := by
  rw [indices_portfolioSteps, List.mem_flatMap]
  constructor
  · rintro ⟨t, ht, hi⟩
    have hk : t.localIndex < (p.records t.symbol).length := (List.getElem?_eq_some_iff.mp (mem_timeline.mp ht).2).1
    obtain ⟨e, he, rfl⟩ := List.mem_map.mp hi
    obtain ⟨⟨item, hitem, hsymbol, hintent⟩, hanchor⟩ := (mem_anchoredIn hk).mp he
    refine ⟨item, hitem, ?_⟩
    rw [hsymbol, hintent, hanchor]
    exact hk
  · rintro ⟨item, hitem, hanchor⟩
    have hentry : (⟨item.symbol, anchorOf (p.records item.symbol) item.intent.decidedAt,
        (p.records item.symbol)[anchorOf (p.records item.symbol) item.intent.decidedAt]⟩ : TimelineEntry) ∈ timeline p :=
      mem_timeline.mpr ⟨hknown item (List.mem_of_getElem? hitem), List.getElem?_eq_getElem hanchor⟩
    refine ⟨_, hentry, List.mem_map.mpr ⟨⟨i, item.intent⟩, (mem_anchoredIn hanchor).mpr ?_, rfl⟩⟩
    exact ⟨⟨item, hitem, rfl, rfl⟩, rfl⟩

/-- **Each intent is evaluated once.** -/
theorem nodup_indices (p : PortfolioInput) (intents : List PortfolioIntent) :
    ((portfolioSteps p intents).filterMap PortfolioStep.index).Nodup := by
  have hlocal : ∀ t ∈ timeline p, t.localIndex < (p.records t.symbol).length := fun t ht =>
    (List.getElem?_eq_some_iff.mp (mem_timeline.mp ht).2).1
  rw [indices_portfolioSteps, List.nodup_flatMap]
  refine ⟨fun t ht => ?_, List.Pairwise.imp_of_mem ?_ (nodup_timeline p)⟩
  · rw [anchoredIn_eq (hlocal t ht)]
    exact (nodup_sortedGroup intents t.symbol).sublist (List.filter_sublist.map _)
  · intro t t' ht ht' hne i hi hi'
    obtain ⟨e, he, rfl⟩ := List.mem_map.mp hi
    obtain ⟨e', he', hindex⟩ := List.mem_map.mp hi'
    obtain ⟨⟨item, hitem, hsymbol, hintent⟩, hanchor⟩ := (mem_anchoredIn (hlocal t ht)).mp he
    obtain ⟨⟨item', hitem', hsymbol', hintent'⟩, hanchor'⟩ := (mem_anchoredIn (hlocal t' ht')).mp he'
    rw [hindex, hitem] at hitem'
    cases hitem'
    -- the same intent: the same symbol, record and entry
    have hsame : t.symbol = t'.symbol := hsymbol.symm.trans hsymbol'
    have hk : t.localIndex = t'.localIndex := by
      rw [← hanchor, ← hanchor', ← hintent, ← hintent', hsame]
    have hrecord : some t.record = some t'.record := by
      rw [← (mem_timeline.mp ht).2, ← (mem_timeline.mp ht').2, hsame, hk]
    refine hne ?_
    cases t
    cases t'
    cases hsame
    cases hk
    cases hrecord
    rfl

end Timeline

/-! ### The outcomes before the first step -/

section Start

variable {p : PortfolioInput} {intents : List PortfolioIntent}

/-- The loop over the symbols. -/
theorem foldl_anchorSymbol (i : ℕ) : ∀ (symbols : List String) (outcomes : List (Option FillOutcome)),
    i < outcomes.length →
      i < (symbols.foldl (fun outcomes symbol => (anchorSymbol p intents symbol outcomes).outcomes) outcomes).length ∧
      (symbols.foldl (fun outcomes symbol => (anchorSymbol p intents symbol outcomes).outcomes) outcomes)[i]? =
        if ∃ item, intents[i]? = some item ∧ item.symbol ∈ symbols ∧
          anchorOf (p.records item.symbol) item.intent.decidedAt = (p.records item.symbol).length
        then some (some (noRecord i)) else outcomes[i]?
  | [], outcomes, hi => by simp [hi]
  | symbol :: symbols, outcomes, hi => by
    have hfirst : (anchorSymbol p intents symbol outcomes).outcomes =
        (sortedGroup intents symbol).foldl (setMissing (p.records symbol)) outcomes :=
      outcomes_anchorIntents (pairwise_sortedGroup intents symbol)
    have hlength : i < (anchorSymbol p intents symbol outcomes).outcomes.length := by
      rw [hfirst, length_foldl_setMissing]
      exact hi
    have hhere : (∃ e ∈ sortedGroup intents symbol, e.index = i ∧
          anchorOf (p.records symbol) e.intent.decidedAt = (p.records symbol).length) ↔
        ∃ item, intents[i]? = some item ∧ item.symbol = symbol ∧
          anchorOf (p.records item.symbol) item.intent.decidedAt = (p.records item.symbol).length := by
      constructor
      · rintro ⟨e, he, rfl, hanchor⟩
        obtain ⟨item, hitem, hsymbol, hintent⟩ := mem_sortedGroup.mp he
        refine ⟨item, hitem, hsymbol, ?_⟩
        rw [hsymbol, hintent]
        exact hanchor
      · rintro ⟨item, hitem, rfl, hanchor⟩
        exact ⟨⟨i, item.intent⟩, mem_sortedGroup.mpr ⟨item, hitem, rfl, rfl⟩, rfl, hanchor⟩
    obtain ⟨hrest, hvalue⟩ := foldl_anchorSymbol i symbols _ hlength
    refine ⟨hrest, ?_⟩
    rw [List.foldl_cons, hvalue, hfirst, getElem?_foldl_setMissing _ _ _ hi]
    simp only [hhere]
    by_cases hlater : ∃ item, intents[i]? = some item ∧ item.symbol ∈ symbols ∧
        anchorOf (p.records item.symbol) item.intent.decidedAt = (p.records item.symbol).length
    · obtain ⟨item, hitem, hsymbol, hanchor⟩ := hlater
      rw [if_pos ⟨item, hitem, hsymbol, hanchor⟩, if_pos ⟨item, hitem, List.mem_cons_of_mem _ hsymbol, hanchor⟩]
    · rw [if_neg hlater]
      by_cases hnow : ∃ item, intents[i]? = some item ∧ item.symbol = symbol ∧
          anchorOf (p.records item.symbol) item.intent.decidedAt = (p.records item.symbol).length
      · obtain ⟨item, hitem, rfl, hanchor⟩ := hnow
        rw [if_pos ⟨item, hitem, rfl, hanchor⟩, if_pos ⟨item, hitem, List.mem_cons_self, hanchor⟩]
      · rw [if_neg hnow, if_neg]
        rintro ⟨item, hitem, hsymbol, hanchor⟩
        rcases List.mem_cons.mp hsymbol with hsymbol | hsymbol
        · exact hnow ⟨item, hitem, hsymbol, hanchor⟩
        · exact hlater ⟨item, hitem, hsymbol, hanchor⟩

/-- The outcome of an intent before the first step. -/
theorem getElem?_startOutcomes (hknown : ∀ item ∈ intents, item.symbol ∈ p.symbols) {i : ℕ} {item : PortfolioIntent}
    (hitem : intents[i]? = some item) : (startOutcomes p intents)[i]? =
      if anchorOf (p.records item.symbol) item.intent.decidedAt = (p.records item.symbol).length then
        some (some (noRecord i))
      else some none := by
  have hi : i < intents.length := (List.getElem?_eq_some_iff.mp hitem).1
  have hreplicate : (List.replicate intents.length (none : Option FillOutcome))[i]? = some none := by
    rw [List.getElem?_replicate, if_pos hi]
  rw [startOutcomes, (foldl_anchorSymbol i p.symbols _ (by simpa using hi)).2, hreplicate]
  simp only [hitem, Option.some.injEq, exists_eq_left', hknown item (List.mem_of_getElem? hitem), true_and]

theorem length_startOutcomes (p : PortfolioInput) (intents : List PortfolioIntent) :
    (startOutcomes p intents).length = intents.length := by
  have hloop : ∀ (symbols : List String) (outcomes : List (Option FillOutcome)),
      (symbols.foldl (fun outcomes symbol => (anchorSymbol p intents symbol outcomes).outcomes) outcomes).length =
        outcomes.length := by
    intro symbols
    induction symbols with
    | nil => exact fun _ => rfl
    | cons symbol symbols ih =>
      intro outcomes
      rw [List.foldl_cons, ih, anchorSymbol, outcomes_anchorIntents (pairwise_sortedGroup intents symbol),
        length_foldl_setMissing]
  rw [startOutcomes, hloop, List.length_replicate]

/-- Before the first step an intent has no outcome, or that of an intent with no record after its decision. -/
theorem startOutcomes_cases (hknown : ∀ item ∈ intents, item.symbol ∈ p.symbols) {i : ℕ} {o : Option FillOutcome}
    (ho : (startOutcomes p intents)[i]? = some o) : o = none ∨ o = some (noRecord i) := by
  have hi : i < intents.length := by
    rw [← length_startOutcomes p intents]
    exact (List.getElem?_eq_some_iff.mp ho).1
  rw [getElem?_startOutcomes hknown (List.getElem?_eq_getElem hi)] at ho
  split_ifs at ho
  · exact .inr (Option.some.inj ho).symm
  · exact .inl (Option.some.inj ho).symm

/-- **Before the first step** the intents without an outcome are those that will be evaluated. -/
theorem accounted_startOutcomes (hknown : ∀ item ∈ intents, item.symbol ∈ p.symbols) (capital : ℚ) :
    Accounted capital capital intents.length (startOutcomes p intents)
      ((portfolioSteps p intents).filterMap PortfolioStep.index) where
  cash_eq := by
    have hfills : fillsOf (startOutcomes p intents) = [] := by
      refine List.filterMap_eq_nil_iff.mpr fun o ho => ?_
      obtain ⟨i, hi⟩ := List.mem_iff_getElem?.mp ho
      rcases startOutcomes_cases hknown hi with rfl | rfl
      · rfl
      · rfl
    rw [hfills]
    simp
  length := length_startOutcomes p intents
  pending i := by
    rw [mem_indices hknown]
    constructor
    · intro hnone
      have hi : i < intents.length := by
        rw [← length_startOutcomes p intents]
        exact (List.getElem?_eq_some_iff.mp hnone).1
      rw [getElem?_startOutcomes hknown (List.getElem?_eq_getElem hi)] at hnone
      split_ifs at hnone with hanchor
      · cases hnone
      · exact ⟨_, List.getElem?_eq_getElem hi, lt_of_le_of_ne (anchorOf_le _ _) hanchor⟩
    · rintro ⟨item, hitem, hanchor⟩
      rw [getElem?_startOutcomes hknown hitem, if_neg hanchor.ne]
  nodup := nodup_indices p intents
  index i o ho := by
    rcases startOutcomes_cases hknown ho with hnone | hsome
    · cases hnone
    · cases hsome
      rfl

/-- What the first check says. -/
theorem checkKnown_eq_ok {u : Unit} : ∀ {items : List PortfolioIntent},
    checkKnown p items = .ok u ↔ ∀ item ∈ items, item.symbol ∈ p.symbols
  | [] => by simp [checkKnown]
  | item :: rest => by
    have hitem : ¬(p.symbolInput item.symbol).isNone = true ↔ item.symbol ∈ p.symbols := by
      rw [(perm_symbols p).mem_iff, Option.isNone_iff_eq_none, PortfolioInput.symbolInput, List.find?_eq_none,
        List.mem_map]
      simp
    rw [checkKnown, bind_eq_ok, List.forall_mem_cons]
    simp only [raiseIf_eq_ok, checkKnown_eq_ok, hitem, exists_const]

/-- What the second check says. -/
theorem checkGroups_eq_ok {u : Unit} : ∀ {symbols : List String}, checkGroups intents symbols = .ok u ↔
    ∀ symbol ∈ symbols, Ascending ((sortedGroup intents symbol).map IndexedIntent.intent)
  | [] => by simp [checkGroups]
  | symbol :: rest => by
    rw [checkGroups, bind_eq_ok, List.forall_mem_cons]
    simp only [raiseIf_eq_ok, checkGroups_eq_ok, not_not, exists_const]

end Start

/-! ### Cash and positions -/

/-- Cash above the reserve; position and ledger of each symbol agree. -/
structure PortfolioState.Balanced (allocation : CapitalAllocation) (s : PortfolioState) : Prop where
  reserved : allocation.reservedCash ≤ s.cash
  ledger : ∀ symbol, (s.ledgers symbol).Sound
  position_eq : ∀ symbol, s.position symbol = (s.ledgers symbol).openQuantity

theorem PortfolioState.Balanced.step {costModel : CostModel} {allocation : CapitalAllocation} {symbols : List String}
    {s s' : PortfolioState} {a : PortfolioStep} (h : s.Balanced allocation)
    (hstep : PortfolioStepped .exact costModel allocation symbols s a s') : s'.Balanced allocation := by
  cases hstep with
  | observed hmark => exact ⟨h.reserved, h.ledger, h.position_eq⟩
  | unfilled reason => exact ⟨h.reserved, h.ledger, h.position_eq⟩
  | equity hvalue => exact ⟨h.reserved, h.ledger, h.position_eq⟩
  | @filled k symbol record e fill ledger completed hfill hreserved hbudget hbook =>
    have hq : fill.quantity = e.intent.quantity := hfill.quantity
    obtain ⟨hledger, hposition⟩ := bookFill_exact (h.ledger symbol) (h.position_eq symbol) hfill.side
      (hq ▸ e.intent.quantity_pos) (hq ▸ hfill.position_le) hbook
    rw [hq] at hposition
    have hledgers : ∀ other, (Function.update s.ledgers symbol ledger other).Sound :=
      (Function.forall_update_iff s.ledgers fun _ l => l.Sound).mpr ⟨hledger, fun x _ => h.ledger x⟩
    refine ⟨hreserved, hledgers, fun other => ?_⟩
    dsimp only
    by_cases hother : other = symbol
    · subst hother
      rw [Function.update_self, Function.update_self]
      exact hposition
    · rw [Function.update_of_ne hother, Function.update_of_ne hother]
      exact h.position_eq other

/-- A step accounts for its intent. -/
theorem accounted_portfolioStep {capital : ℚ} {n : ℕ} {costModel : CostModel} {allocation : CapitalAllocation}
    {symbols : List String} {s s' : PortfolioState} {a : PortfolioStep} {rest : List PortfolioStep}
    (h : Accounted capital s.cash n s.outcomes ((a :: rest).filterMap PortfolioStep.index))
    (hstep : PortfolioStepped .exact costModel allocation symbols s a s') :
    Accounted capital s'.cash n s'.outcomes (rest.filterMap PortfolioStep.index) := by
  cases hstep with
  | observed hmark => exact h
  | unfilled reason => exact Accounted.unfilled h reason
  | filled hfill hreserved hbudget hbook => exact Accounted.filled h _
  | equity hvalue => exact h

/-- What holds after every step. -/
structure PortfolioState.Sound (allocation : CapitalAllocation) (s : PortfolioState) : Prop where
  reserved_nonneg : 0 ≤ allocation.reservedCash
  reserved_le : allocation.reservedCash ≤ s.cash
  position_nonneg : ∀ symbol, 0 ≤ s.position symbol
  position_eq : ∀ symbol, s.position symbol = ((s.ledgers symbol).lots.map Lot.remainingQuantity).sum
  cash_eq : s.cash = allocation.initialCapital + ((fillsOf s.outcomes).map FillRecord.cashFlow).sum

/-- **The shared cash and the position of each symbol** after any number of steps of a simulation without rounding, of
one that ends or raises later. -/
theorem portfolio_sound (p : PortfolioInput) (intents : List PortfolioIntent) (costModel : CostModel)
    (allocation : CapitalAllocation) (hknown : checkKnown p intents = .ok ()) (l : List PortfolioStep)
    (hl : l <+: portfolioSteps p intents) (s : PortfolioState)
    (h : run (portfolioStep .exact costModel allocation p.symbols)
      (portfolioStart p intents allocation.initialCapital) l = .ok s) : s.Sound allocation := by
  obtain ⟨rest, hrest⟩ := hl
  have hstart : (portfolioStart p intents allocation.initialCapital).Balanced allocation :=
    ⟨allocation.reserved_le, fun _ => FifoLedger.sound_empty, fun _ => rfl⟩
  have haccounted := accounted_startOutcomes (checkKnown_eq_ok.mp hknown) allocation.initialCapital
  rw [← hrest] at haccounted
  obtain ⟨hbalanced, hcash⟩ := invariant_rest (I := fun (s : PortfolioState) rest => s.Balanced allocation ∧
    Accounted allocation.initialCapital s.cash intents.length s.outcomes (rest.filterMap PortfolioStep.index))
    (fun s a rest s' hs hstep =>
      ⟨hs.1.step (portfolioStepped hstep), accounted_portfolioStep hs.2 (portfolioStepped hstep)⟩)
    ⟨hstart, haccounted⟩ h
  exact ⟨allocation.reserved_nonneg, hbalanced.reserved,
    fun symbol => hbalanced.position_eq symbol ▸ (hbalanced.ledger symbol).openQuantity_nonneg, hbalanced.position_eq,
    hcash.cash_eq⟩

/-! ### A sample simulation -/

/-- The tick of another symbol. -/
def otherTick (minute : ℕ) (ltp : Decimal) : MarketRecord :=
  .tick ⟨⟨2⟩, "NSE", "TCS", ⟨2026, 1, 1, 9, minute, 0, 0, some 0⟩, ltp, none, none⟩

theorem otherRecords_accepted : checkInput "tcs" "csv" [otherTick 1 (.finite (.ofNat 50))] = .ok () := by decide

def otherInput : BacktestInput := ⟨"tcs", "csv", [otherTick 1 (.finite (.ofNat 50))], otherRecords_accepted⟩

theorem sample_symbols_unique : ([otherInput, sampleInput].map BacktestInput.symbol).Nodup := by decide

theorem sample_instruments_unique : ([otherInput, sampleInput].map BacktestInput.instrumentId).Nodup := by decide

def samplePortfolio : PortfolioInput :=
  ⟨[otherInput, sampleInput], List.cons_ne_nil _ _, sample_symbols_unique, sample_instruments_unique⟩

theorem infy_nonempty : "INFY" ≠ "" := by decide

theorem tcs_nonempty : "TCS" ≠ "" := by decide

/-- Two symbols are bought at the same time, one of them is sold later. -/
def samplePortfolioIntents : List PortfolioIntent :=
  [⟨"TCS", sampleIntent .buy 0 0, tcs_nonempty⟩, ⟨"INFY", sampleIntent .buy 1 0, infy_nonempty⟩,
    ⟨"INFY", sampleIntent .sell 0 1, infy_nonempty⟩]

theorem reserve_nonneg (reserved : ℕ) : (0 : ℚ) ≤ reserved := Nat.cast_nonneg reserved

/-- Capital with a reserve and budgets. -/
def allocationOf (capital reserved : ℕ) (budgets : List (String × ℚ)) (hcapital : 0 < capital)
    (hreserved : reserved ≤ capital) (hsymbols : ∀ pair ∈ budgets, pair.1 ≠ "")
    (hunique : (budgets.map Prod.fst).Nodup) (hpos : ∀ pair ∈ budgets, 0 < pair.2) : CapitalAllocation where
  initialCapital := capital
  reservedCash := reserved
  perSymbolBudget := budgets
  capital_pos := Nat.cast_pos.mpr hcapital
  reserved_nonneg := reserve_nonneg reserved
  reserved_le := Nat.cast_le.mpr hreserved
  budget_symbols := hsymbols
  budgets_unique := hunique
  budgets_pos := hpos

theorem sample_capital_pos : 0 < 1000 := by decide

theorem sample_reserved_le : 700 ≤ 1000 := by decide

theorem no_reserve_le : 0 ≤ 1000 := Nat.zero_le _

def sampleAllocation : CapitalAllocation :=
  allocationOf 1000 700 [] sample_capital_pos sample_reserved_le (List.forall_mem_nil _) List.nodup_nil
    (List.forall_mem_nil _)

theorem single_symbols_unique : ([sampleInput].map BacktestInput.symbol).Nodup := by decide

theorem single_instruments_unique : ([sampleInput].map BacktestInput.instrumentId).Nodup := by decide

def singlePortfolio : PortfolioInput :=
  ⟨[sampleInput], List.cons_ne_nil _ _, single_symbols_unique, single_instruments_unique⟩

/-- 1000 of capital without a reserve and budgets. -/
def freeAllocation : CapitalAllocation :=
  allocationOf 1000 0 [] sample_capital_pos no_reserve_le (List.forall_mem_nil _) List.nodup_nil
    (List.forall_mem_nil _)

theorem sample_known : checkKnown samplePortfolio samplePortfolioIntents = .ok () := by decide

theorem sample_ends : ∃ s, run (portfolioStep .exact sampleCosts sampleAllocation samplePortfolio.symbols)
    (portfolioStart samplePortfolio samplePortfolioIntents sampleAllocation.initialCapital)
    (portfolioSteps samplePortfolio samplePortfolioIntents) = .ok s :=
  exists_ok (by decide +kernel)

theorem portfolio_sound_sample : ∃ s, run (portfolioStep .exact sampleCosts sampleAllocation samplePortfolio.symbols)
    (portfolioStart samplePortfolio samplePortfolioIntents sampleAllocation.initialCapital)
    (portfolioSteps samplePortfolio samplePortfolioIntents) = .ok s ∧ s.Sound sampleAllocation := by
  obtain ⟨s, hs⟩ := sample_ends
  exact ⟨s, hs, portfolio_sound samplePortfolio samplePortfolioIntents sampleCosts sampleAllocation sample_known _
    (List.prefix_refl _) s hs⟩

end AlphaAlgo.Backtest
