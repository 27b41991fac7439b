import AlphaAlgo.Backtest.PortfolioRuns

/-!
# Order — the order of the inputs does not matter

Two portfolios with the same inputs in another order, and intents of which each symbol has the same in the same order:
the simulations take the same steps, up to the indices of the intents.  `Paired` says which intents correspond,
`Relabelled` that two states are the same up to their outcomes.

* `timeline_perm`: the timeline does not depend on the order of the inputs.
* `steps_paired`: the steps correspond.
* `order_independent`: the same equity, cash, positions and trades, and the same outcomes for each symbol.
-/

namespace AlphaAlgo.Backtest

open Loop

/-! ### Symbols, records and the timeline -/

section Inputs

variable {p p' : PortfolioInput}

theorem symbols_perm (h : p.inputs.Perm p'.inputs) : p'.symbols = p.symbols :=
  ((perm_symbols p').trans ((h.map BacktestInput.symbol).symm.trans (perm_symbols p).symm)).eq_of_pairwise'
    (List.pairwise_insertionSort _ _) (List.pairwise_insertionSort _ _)

/-- The input of a symbol is the one with that symbol. -/
theorem symbolInput_eq_some {symbol : String} {inputs : BacktestInput} :
    p.symbolInput symbol = some inputs ↔ inputs ∈ p.inputs ∧ inputs.symbol = symbol := by
  constructor
  · intro h
    have hfound := List.find?_some (p := fun i : BacktestInput => decide (i.symbol = symbol)) h
    exact ⟨List.mem_of_find?_eq_some h, of_decide_eq_true hfound⟩
  · rintro ⟨hmem, rfl⟩
    cases hfound : p.symbolInput inputs.symbol with
    | none =>
      rw [PortfolioInput.symbolInput, List.find?_eq_none] at hfound
      exact absurd (decide_eq_true rfl) (hfound inputs hmem)
    | some other =>
      have hother : other.symbol = inputs.symbol := of_decide_eq_true
        (List.find?_some (p := fun i : BacktestInput => decide (i.symbol = inputs.symbol)) hfound)
      rw [List.inj_on_of_nodup_map p.symbols_unique (List.mem_of_find?_eq_some hfound) hmem hother]

theorem records_perm (h : p.inputs.Perm p'.inputs) (symbol : String) : p'.records symbol = p.records symbol := by
  have hinput : p'.symbolInput symbol = p.symbolInput symbol := Option.ext fun inputs => by
    rw [symbolInput_eq_some, symbolInput_eq_some, h.mem_iff]
  rw [PortfolioInput.records, PortfolioInput.records, hinput]

/-- **The timeline** does not depend on the order of the inputs. -/
theorem timeline_perm (h : p.inputs.Perm p'.inputs) : timeline p' = timeline p := by
  have hentries : symbolEntries p' = symbolEntries p := funext fun symbol => by
    rw [symbolEntries, symbolEntries, records_perm h]
  rw [timeline, timeline, symbols_perm h, hentries]

end Inputs

/-! ### Corresponding intents -/

/-- Each symbol has the same intents in the same order. -/
def SameGroups (intents intents' : List PortfolioIntent) : Prop :=
  ∀ symbol, intents.filter (·.symbol = symbol) = intents'.filter (·.symbol = symbol)

/-- The intents of a symbol, each with the one that corresponds to it. -/
def pairsOf (intents intents' : List PortfolioIntent) (symbol : String) : List (IndexedIntent × IndexedIntent) :=
  (groupOf intents symbol).zip (groupOf intents' symbol)

/-- Intents that correspond. -/
def Paired (intents intents' : List PortfolioIntent) (e e' : IndexedIntent) : Prop :=
  ∃ symbol, (e, e') ∈ pairsOf intents intents' symbol

section Pairs

variable {p p' : PortfolioInput} {intents intents' : List PortfolioIntent} {symbol : String}

theorem map_intent_groupOf (intents : List PortfolioIntent) (symbol : String) :
    (groupOf intents symbol).map IndexedIntent.intent =
      (intents.filter (·.symbol = symbol)).map PortfolioIntent.intent := by
  have hfilter : (intents.zipIdx.filter fun q => decide (q.1.symbol = symbol)).map Prod.fst =
      intents.filter (·.symbol = symbol) := by
    rw [← List.zipIdx_map_fst 0 intents, List.filter_map, List.zipIdx_map_fst]
    rfl
  rw [groupOf, List.map_map, ← hfilter, List.map_map]
  rfl

theorem length_groups (h : SameGroups intents intents') :
    (groupOf intents symbol).length = (groupOf intents' symbol).length := by
  have hmap := congrArg List.length ((map_intent_groupOf intents symbol).trans
    ((congrArg (List.map _) (h symbol)).trans (map_intent_groupOf intents' symbol).symm))
  rwa [List.length_map, List.length_map] at hmap

theorem map_fst_pairsOf (h : SameGroups intents intents') :
    (pairsOf intents intents' symbol).map Prod.fst = groupOf intents symbol :=
  List.map_fst_zip (length_groups h).le

theorem map_snd_pairsOf (h : SameGroups intents intents') :
    (pairsOf intents intents' symbol).map Prod.snd = groupOf intents' symbol :=
  List.map_snd_zip (length_groups h).ge

/-- Intents that correspond are the same. -/
theorem Paired.intent (h : SameGroups intents intents') {e e' : IndexedIntent} (hpair : Paired intents intents' e e') :
    e.intent = e'.intent := by
  obtain ⟨symbol, hmem⟩ := hpair
  have hmaps : (pairsOf intents intents' symbol).map (fun q => q.1.intent) =
      (pairsOf intents intents' symbol).map fun q => q.2.intent := by
    have hfst := congrArg (List.map IndexedIntent.intent) (@map_fst_pairsOf _ _ symbol h)
    have hsnd := congrArg (List.map IndexedIntent.intent) (@map_snd_pairsOf _ _ symbol h)
    rw [List.map_map, map_intent_groupOf] at hfst hsnd
    exact hfst.trans ((congrArg (List.map _) (h symbol)).trans hsnd.symm)
  exact List.map_inj_left.mp hmaps (e, e') hmem

theorem Paired.mem_left {e e' : IndexedIntent} (hmem : (e, e') ∈ pairsOf intents intents' symbol) :
    ∃ item, intents[e.index]? = some item ∧ item.symbol = symbol ∧ item.intent = e.intent :=
  mem_groupOf.mp (List.of_mem_zip hmem).1

theorem Paired.mem_right {e e' : IndexedIntent} (hmem : (e, e') ∈ pairsOf intents intents' symbol) :
    ∃ item, intents'[e'.index]? = some item ∧ item.symbol = symbol ∧ item.intent = e'.intent :=
  mem_groupOf.mp (List.of_mem_zip hmem).2

/-- **Indices correspond one to one.** -/
theorem Paired.index_iff (h : SameGroups intents intents') {e e' f f' : IndexedIntent}
    (he : Paired intents intents' e e') (hf : Paired intents intents' f f') : e.index = f.index ↔ e'.index = f'.index := by
  obtain ⟨symbol, he⟩ := he
  obtain ⟨other, hf⟩ := hf
  have hleft : ((pairsOf intents intents' symbol).map fun q => q.1.index).Nodup := by
    have hnodup := nodup_groupOf intents symbol
    rwa [← map_fst_pairsOf h, List.map_map] at hnodup
  have hright : ((pairsOf intents intents' symbol).map fun q => q.2.index).Nodup := by
    have hnodup := nodup_groupOf intents' symbol
    rwa [← map_snd_pairsOf h, List.map_map] at hnodup
  constructor
  · intro hindex
    obtain ⟨item, hitem, hsymbol, -⟩ := mem_left he
    obtain ⟨item', hitem', hsymbol', -⟩ := mem_left hf
    rw [hindex, hitem'] at hitem
    cases hitem
    rw [← hsymbol, hsymbol'] at he hleft
    have hsame := List.inj_on_of_nodup_map hleft he hf hindex
    exact congrArg IndexedIntent.index (congrArg Prod.snd hsame)
  · intro hindex
    obtain ⟨item, hitem, hsymbol, -⟩ := mem_right he
    obtain ⟨item', hitem', hsymbol', -⟩ := mem_right hf
    rw [hindex, hitem'] at hitem
    cases hitem
    rw [← hsymbol, hsymbol'] at he hright
    have hsame := List.inj_on_of_nodup_map hright he hf hindex
    exact congrArg IndexedIntent.index (congrArg Prod.fst hsame)

/-- Every intent has one that corresponds to it. -/
theorem exists_paired (h : SameGroups intents intents') {i : ℕ} (hi : i < intents'.length) :
    ∃ e e', Paired intents intents' e e' ∧ e'.index = i := by
  have hmem : (⟨i, intents'[i].intent⟩ : IndexedIntent) ∈ groupOf intents' intents'[i].symbol :=
    mem_groupOf.mpr ⟨intents'[i], List.getElem?_eq_getElem hi, rfl, rfl⟩
  rw [← map_snd_pairsOf h] at hmem
  obtain ⟨⟨e, e'⟩, hpair, heq⟩ := List.mem_map.mp hmem
  exact ⟨e, e', ⟨_, hpair⟩, congrArg IndexedIntent.index heq⟩

/-! ### Corresponding steps -/

/-- The sorted groups correspond. -/
theorem sortedGroup_paired (h : SameGroups intents intents') (symbol : String) :
    List.Forall₂ (Paired intents intents') (sortedGroup intents symbol) (sortedGroup intents' symbol) := by
  let r : IndexedIntent × IndexedIntent → IndexedIntent × IndexedIntent → Prop :=
    fun q q' => q.1.intent.decidedAt.instant ≤ q'.1.intent.decidedAt.instant
  have hfst : sortedGroup intents symbol = ((pairsOf intents intents' symbol).insertionSort r).map Prod.fst := by
    rw [sortedGroup, ← map_fst_pairsOf h]
    exact (List.map_insertionSort r _ Prod.fst _ fun _ _ _ _ => Iff.rfl).symm
  have hsnd : sortedGroup intents' symbol = ((pairsOf intents intents' symbol).insertionSort r).map Prod.snd := by
    rw [sortedGroup, ← map_snd_pairsOf h]
    refine (List.map_insertionSort r _ Prod.snd _ fun q hq q' hq' => ?_).symm
    have heq : q.1.intent = q.2.intent := Paired.intent h ⟨symbol, hq⟩
    have heq' : q'.1.intent = q'.2.intent := Paired.intent h ⟨symbol, hq'⟩
    dsimp only [r]
    rw [heq, heq']
  rw [hfst, hsnd, List.forall₂_map_left_iff, List.forall₂_map_right_iff, List.forall₂_same]
  exact fun q hq => ⟨symbol, (List.mem_insertionSort _).mp hq⟩

/-- The intents anchored at a record correspond. -/
theorem anchoredIn_paired (hinputs : p.inputs.Perm p'.inputs) (h : SameGroups intents intents') {k : ℕ}
    (hk : k < (p.records symbol).length) : List.Forall₂ (Paired intents intents') (anchoredIn p intents symbol k)
      (anchoredIn p' intents' symbol k) := by
  rw [anchoredIn_eq hk, anchoredIn_eq (by rwa [records_perm hinputs]), records_perm hinputs]
  refine List.rel_filter (fun {e e'} hpair => ?_) (sortedGroup_paired h symbol)
  dsimp only
  rw [hpair.intent h]

/-- Steps that correspond. -/
inductive StepPaired (intents intents' : List PortfolioIntent) : PortfolioStep → PortfolioStep → Prop
  | observe (symbol : String) (record : MarketRecord) :
    StepPaired intents intents' (.observe symbol record) (.observe symbol record)
  | intent (k : ℕ) (symbol : String) (record : MarketRecord) {e e' : IndexedIntent}
      (hpair : Paired intents intents' e e') :
    StepPaired intents intents' (.intent k symbol record e) (.intent k symbol record e')
  | equity (timestamp : DateTime) : StepPaired intents intents' (.equity timestamp) (.equity timestamp)

theorem entrySteps_paired {k : ℕ} {t : TimelineEntry} {es es' : List IndexedIntent}
    (h : List.Forall₂ (Paired intents intents') es es') :
    List.Forall₂ (StepPaired intents intents') (entrySteps k t es) (entrySteps k t es') := by
  refine .cons (.observe _ _) (List.rel_append ?_ (.cons (.equity _) .nil))
  rw [List.forall₂_map_left_iff, List.forall₂_map_right_iff]
  exact h.imp fun e e' hpair => .intent k t.symbol t.record hpair

/-- **The steps correspond.** -/
theorem steps_paired (hinputs : p.inputs.Perm p'.inputs) (h : SameGroups intents intents') :
    List.Forall₂ (StepPaired intents intents') (portfolioSteps p intents) (portfolioSteps p' intents') := by
  have hentries : ∀ l : List (TimelineEntry × ℕ), (∀ q ∈ l, q.1 ∈ timeline p) →
      List.Forall₂ (StepPaired intents intents')
        (l.flatMap fun q => entrySteps q.2 q.1 (anchoredIn p intents q.1.symbol q.1.localIndex))
        (l.flatMap fun q => entrySteps q.2 q.1 (anchoredIn p' intents' q.1.symbol q.1.localIndex)) := by
    intro l
    induction l with
    | nil => exact fun _ => .nil
    | cons q l ih =>
      intro hmem
      obtain ⟨hq, hl⟩ := List.forall_mem_cons.mp hmem
      have hk : q.1.localIndex < (p.records q.1.symbol).length :=
        (List.getElem?_eq_some_iff.mp (mem_timeline.mp hq).2).1
      rw [List.flatMap_cons, List.flatMap_cons]
      exact List.rel_append (entrySteps_paired (anchoredIn_paired hinputs h hk)) (ih hl)
  rw [portfolioSteps, portfolioSteps, timeline_perm hinputs]
  exact hentries _ fun q hq => List.mem_of_getElem? (List.mk_mem_zipIdx_iff_getElem?.mp hq)

end Pairs

/-! ### The index of the intent in what a fill does -/

section Relabel

variable {c : Ctx} {allocation : CapitalAllocation} {symbol : String} {cash position : ℚ} {fill : FillRecord}

theorem matchLots_relabel (i : ℕ) (lots : List Lot) : ∀ (remaining : ℚ) (sequence : ℕ),
    matchLots c { fill with intentIndex := i } remaining sequence lots = matchLots c fill remaining sequence lots := by
  induction lots with
  | nil => exact fun _ _ => rfl
  | cons lot lots ih =>
    intro remaining sequence
    have hexit : ∀ m, lot.exit c { fill with intentIndex := i } m = lot.exit c fill m := fun _ => rfl
    simp only [matchLots, ih, hexit]

theorem bookFill_relabel (i : ℕ) (side : IntentSide) (ledger : FifoLedger) :
    bookFill c side ledger { fill with intentIndex := i } = bookFill c side ledger fill := by
  cases side with
  | buy => rfl
  | sell =>
    rw [bookFill, bookFill, FifoLedger.closeLots, FifoLedger.closeLots]
    dsimp only
    rw [matchLots_relabel]

theorem reservedFloor_relabel (i j : ℕ) (evaluation : FillEvaluation) :
    reservedFloor allocation i cash position (evaluation.relabel i) =
      (reservedFloor allocation j cash position evaluation).relabel i := by
  have hsome : (evaluation.relabel i).fill.isSome = evaluation.fill.isSome := Option.isSome_map ..
  have hcash : (evaluation.relabel i).cash = evaluation.cash := rfl
  rw [reservedFloor, reservedFloor, hsome, hcash]
  by_cases h : evaluation.fill.isSome = true ∧ evaluation.cash < allocation.reservedCash
  · rw [if_pos h, if_pos h]
    rfl
  · rw [if_neg h, if_neg h]

theorem budgetCap_relabel (i j : ℕ) (evaluation : FillEvaluation) :
    budgetCap allocation symbol i cash position (evaluation.relabel i) =
      (budgetCap allocation symbol j cash position evaluation).relabel i := by
  obtain ⟨outcome, fill, cash', position'⟩ := evaluation
  cases fill with
  | none => rfl
  | some fill =>
    have habove : aboveBudget allocation symbol { fill with intentIndex := i } = aboveBudget allocation symbol fill := rfl
    dsimp only [budgetCap, FillEvaluation.relabel, Option.map_some]
    rw [habove]
    split_ifs
    · rfl
    · rfl

/-- The same state with other outcomes. -/
def PortfolioState.withOutcomes (s : PortfolioState) (outcomes : List (Option FillOutcome)) : PortfolioState :=
  { s with outcomes := outcomes }

theorem settle_withOutcomes (s : PortfolioState) (outcomes : List (Option FillOutcome)) (i j : ℕ)
    (evaluation : FillEvaluation) :
    (s.withOutcomes outcomes).settle c symbol i (evaluation.relabel i) =
      (s.settle c symbol j evaluation).map
        (·.withOutcomes (outcomes.set i (some (evaluation.outcome.relabel i)))) := by
  obtain ⟨outcome, fill, cash', position'⟩ := evaluation
  cases fill with
  | none => rfl
  | some fill =>
    dsimp only [PortfolioState.settle, FillEvaluation.relabel, Option.map_some, PortfolioState.withOutcomes]
    rw [bookFill_relabel]
    cases bookFill c fill.side (s.ledgers symbol) fill with
    | error e => rfl
    | ok booked => rfl

/-- The market value does not read the outcomes. -/
theorem marketValue_withOutcomes (s : PortfolioState) (outcomes : List (Option FillOutcome)) (symbols : List String) :
    ∀ value, marketValue c (s.withOutcomes outcomes) value symbols = marketValue c s value symbols := by
  induction symbols with
  | nil => exact fun _ => rfl
  | cons symbol rest ih =>
    intro value
    have hposition : (s.withOutcomes outcomes).position = s.position := rfl
    have hmark : (s.withOutcomes outcomes).lastMark = s.lastMark := rfl
    rw [marketValue, marketValue, ih, hposition, hmark]
    by_cases hzero : s.position symbol = 0
    · rw [if_pos hzero, if_pos hzero]
    · rw [if_neg hzero, if_neg hzero]
      cases s.lastMark symbol with
      | none => rfl
      | some mark => exact ih _

/-- Whatever an evaluation is, its outcome is recorded. -/
theorem outcomes_settle {s s' : PortfolioState} {i : ℕ} {evaluation : FillEvaluation}
    (h : s.settle c symbol i evaluation = .ok s') : s'.outcomes = s.outcomes.set i (some evaluation.outcome) := by
  unfold PortfolioState.settle at h
  cases hfill : evaluation.fill with
  | none =>
    rw [hfill] at h
    cases h
    rfl
  | some fill =>
    rw [hfill] at h
    obtain ⟨booked, -, rfl⟩ := map_eq_ok.mp h
    rfl

end Relabel

/-! ### Corresponding states -/

/-- The outcomes of intents that correspond are the same up to their indices. -/
structure RelabelledOutcomes (intents intents' : List PortfolioIntent) (os os' : List (Option FillOutcome)) :
    Prop where
  length_left : os.length = intents.length
  length_right : os'.length = intents'.length
  outcome : ∀ {e e' : IndexedIntent}, Paired intents intents' e e' →
    os'[e'.index]? = os[e.index]?.map (Option.map (FillOutcome.relabel e'.index))

/-- The states are the same up to the indices in their outcomes. -/
def Relabelled (intents intents' : List PortfolioIntent) (s t : PortfolioState) : Prop :=
  ∃ outcomes, t = s.withOutcomes outcomes ∧ RelabelledOutcomes intents intents' s.outcomes outcomes

section Relabelled

variable {c : Ctx} {costModel : CostModel} {allocation : CapitalAllocation} {symbols : List String}
  {p p' : PortfolioInput} {intents intents' : List PortfolioIntent} {s t : PortfolioState}

theorem RelabelledOutcomes.set (h : SameGroups intents intents') {os os' : List (Option FillOutcome)}
    (hos : RelabelledOutcomes intents intents' os os') {e e' : IndexedIntent} (hpair : Paired intents intents' e e')
    (o : FillOutcome) :
    RelabelledOutcomes intents intents' (os.set e.index (some o)) (os'.set e'.index (some (o.relabel e'.index))) where
  length_left := by rw [List.length_set, hos.length_left]
  length_right := by rw [List.length_set, hos.length_right]
  outcome {f f'} hf := by
    by_cases hindex : e.index = f.index
    · have hindex' : e'.index = f'.index := (hpair.index_iff h hf).mp hindex
      obtain ⟨symbol, hmem⟩ := hf
      obtain ⟨item, hitem, -⟩ := Paired.mem_left hmem
      obtain ⟨item', hitem', -⟩ := Paired.mem_right hmem
      have hlt : f.index < os.length := hos.length_left ▸ (List.getElem?_eq_some_iff.mp hitem).1
      have hlt' : f'.index < os'.length := hos.length_right ▸ (List.getElem?_eq_some_iff.mp hitem').1
      rw [hindex, hindex', List.getElem?_set_self hlt, List.getElem?_set_self hlt']
      rfl
    · have hindex' : e'.index ≠ f'.index := fun heq => hindex ((hpair.index_iff h hf).mpr heq)
      rw [List.getElem?_set_ne hindex, List.getElem?_set_ne hindex', hos.outcome hf]

/-- The evaluation of an intent, with what the portfolio refuses. -/
theorem portfolioStep_intent (k : ℕ) (symbol : String) (record : MarketRecord) (e : IndexedIntent) :
    portfolioStep c costModel allocation symbols s (.intent k symbol record e) =
      evaluateFill c e.intent record k s.cash (s.position symbol) costModel s.sequence e.index >>= fun evaluation =>
        s.settle c symbol e.index (budgetCap allocation symbol e.index s.cash (s.position symbol)
          (reservedFloor allocation e.index s.cash (s.position symbol) evaluation)) := rfl

/-- **Steps that correspond keep the relation.** -/
theorem agree_step (h : SameGroups intents intents') {a b : PortfolioStep} (hst : Relabelled intents intents' s t)
    (hab : StepPaired intents intents' a b) : Agree (Relabelled intents intents')
      (portfolioStep c costModel allocation symbols s a) (portfolioStep c costModel allocation symbols t b) := by
  obtain ⟨outcomes, rfl, hos⟩ := hst
  cases hab with
  | observe symbol record =>
    rw [portfolioStep, portfolioStep]
    cases markPrice .portfolio record with
    | error e => trivial
    | ok mark => exact ⟨outcomes, rfl, hos⟩
  | equity timestamp =>
    have hvalue : marketValue c (s.withOutcomes outcomes) 0 symbols = marketValue c s 0 symbols :=
      marketValue_withOutcomes s outcomes symbols 0
    rw [portfolioStep, portfolioStep, hvalue]
    cases marketValue c s 0 symbols with
    | error e => trivial
    | ok value => exact ⟨outcomes, rfl, hos⟩
  | @intent k symbol record e e' hpair =>
    have hcash : (s.withOutcomes outcomes).cash = s.cash := rfl
    have hposition : (s.withOutcomes outcomes).position = s.position := rfl
    have hsequence : (s.withOutcomes outcomes).sequence = s.sequence := rfl
    rw [portfolioStep_intent, portfolioStep_intent, hcash, hposition, hsequence, ← hpair.intent h,
      @evaluateFill_relabel _ _ _ _ _ _ _ _ e.index e'.index]
    cases evaluateFill c e.intent record k s.cash (s.position symbol) costModel s.sequence e.index with
    | error err => trivial
    | ok evaluation =>
      dsimp only [bind, Except.bind, Except.map]
      rw [reservedFloor_relabel e'.index e.index, budgetCap_relabel e'.index e.index, settle_withOutcomes (j := e.index)]
      cases hsettle : s.settle c symbol e.index (budgetCap allocation symbol e.index s.cash (s.position symbol)
          (reservedFloor allocation e.index s.cash (s.position symbol) evaluation)) with
      | error err => trivial
      | ok s' =>
        refine ⟨_, rfl, ?_⟩
        rw [outcomes_settle hsettle]
        exact hos.set h hpair _

/-- The states before the first step. -/
theorem relabelled_start (hinputs : p.inputs.Perm p'.inputs) (h : SameGroups intents intents')
    (hknown : ∀ item ∈ intents, item.symbol ∈ p.symbols) (hknown' : ∀ item ∈ intents', item.symbol ∈ p'.symbols)
    (capital : ℚ) : Relabelled intents intents' (portfolioStart p intents capital)
      (portfolioStart p' intents' capital) := by
  refine ⟨startOutcomes p' intents', rfl, length_startOutcomes p intents, length_startOutcomes p' intents', ?_⟩
  intro e e' hpair
  have hintent : e.intent = e'.intent := hpair.intent h
  obtain ⟨symbol, hmem⟩ := hpair
  obtain ⟨item, hitem, hsymbol, hleft⟩ := Paired.mem_left hmem
  obtain ⟨item', hitem', hsymbol', hright⟩ := Paired.mem_right hmem
  rw [portfolioStart, getElem?_startOutcomes hknown hitem, getElem?_startOutcomes hknown' hitem', hsymbol, hsymbol',
    hleft, hright, hintent, records_perm hinputs]
  split_ifs
  · rfl
  · rfl

end Relabelled

/-! ### Accepted runs -/

/-- The result `r` of a simulation that ended in the state `s`. -/
structure PortfolioRan (c : Ctx) (p : PortfolioInput) (intents : List PortfolioIntent) (costModel : CostModel)
    (allocation : CapitalAllocation) (r : PortfolioResult) (s : PortfolioState) : Prop where
  known : ∀ item ∈ intents, item.symbol ∈ p.symbols
  ascending : ∀ symbol ∈ p.symbols, Ascending ((sortedGroup intents symbol).map IndexedIntent.intent)
  ended : run (portfolioStep c costModel allocation p.symbols)
    (portfolioStart p intents allocation.initialCapital) (portfolioSteps p intents) = .ok s
  outcomes : s.outcomes = r.outcomes.map some
  length : r.outcomes.length = intents.length
  trades : r.trades = s.trades
  equityCurve : r.equityCurve = s.equityPoints
  equity_nonempty : s.equityPoints ≠ []

section Accepted

variable {c : Ctx} {costModel : CostModel} {allocation : CapitalAllocation} {p p' : PortfolioInput}
  {intents intents' : List PortfolioIntent}

/-- What an accepted simulation was. -/
theorem portfolioRan {r : PortfolioResult} (h : runPortfolioBacktest c p intents costModel allocation = .ok r) :
    ∃ s, PortfolioRan c p intents costModel allocation r s := by
  simp only [runPortfolioBacktest, bind_eq_ok, checkKnown_eq_ok, checkGroups_eq_ok, mapError_eq_ok,
    allOutcomes_eq_ok] at h
  obtain ⟨-, hknown, -, hgroups, s, hrun, outcomes, houtcomes, h⟩ := h
  rw [makeResult] at h
  split_ifs at h with hlength hequity
  cases h
  exact ⟨s, hknown, hgroups, hrun, houtcomes, hlength, rfl, rfl, hequity⟩

/-- A simulation is accepted when its steps end with all outcomes and some equity. -/
theorem exists_portfolioRan {s : PortfolioState} {outcomes : List FillOutcome}
    (hknown : ∀ item ∈ intents, item.symbol ∈ p.symbols)
    (hgroups : ∀ symbol ∈ p.symbols, Ascending ((sortedGroup intents symbol).map IndexedIntent.intent))
    (hrun : run (portfolioStep c costModel allocation p.symbols)
      (portfolioStart p intents allocation.initialCapital) (portfolioSteps p intents) = .ok s)
    (houtcomes : s.outcomes = outcomes.map some) (hlength : outcomes.length = intents.length)
    (hequity : s.equityPoints ≠ []) :
    ∃ r, runPortfolioBacktest c p intents costModel allocation = .ok r ∧ r.outcomes = outcomes ∧
      r.trades = s.trades ∧ r.equityCurve = s.equityPoints := by
  refine ⟨⟨p.datasetId, p.source, allocation.initialCapital, allocation.reservedCash, costModel, p.symbols, intents,
    outcomes, s.trades, s.equityPoints, allocation.capital_pos, allocation.reserved_nonneg, hlength, hequity⟩, ?_, rfl,
    rfl, rfl⟩
  simp only [runPortfolioBacktest, bind_eq_ok, checkKnown_eq_ok, checkGroups_eq_ok, mapError_eq_ok, allOutcomes_eq_ok]
  refine ⟨(), hknown, (), hgroups, s, hrun, outcomes, houtcomes, ?_⟩
  rw [makeResult, dif_pos hlength, dif_pos hequity]

theorem SameGroups.known (h : SameGroups intents intents') (hinputs : p.inputs.Perm p'.inputs)
    (hknown : ∀ item ∈ intents, item.symbol ∈ p.symbols) : ∀ item ∈ intents', item.symbol ∈ p'.symbols := by
  intro item hitem
  have hmem : item ∈ intents'.filter (·.symbol = item.symbol) := List.mem_filter.mpr ⟨hitem, decide_eq_true rfl⟩
  rw [← h item.symbol] at hmem
  rw [symbols_perm hinputs]
  exact hknown item (List.mem_of_mem_filter hmem)

theorem SameGroups.ascending (h : SameGroups intents intents') (hinputs : p.inputs.Perm p'.inputs)
    (hgroups : ∀ symbol ∈ p.symbols, Ascending ((sortedGroup intents symbol).map IndexedIntent.intent)) :
    ∀ symbol ∈ p'.symbols, Ascending ((sortedGroup intents' symbol).map IndexedIntent.intent) := by
  intro symbol hsymbol
  have hsame : (sortedGroup intents symbol).map IndexedIntent.intent =
      (sortedGroup intents' symbol).map IndexedIntent.intent := by
    rw [← List.forall₂_eq_eq_eq, List.forall₂_map_left_iff, List.forall₂_map_right_iff]
    exact (sortedGroup_paired h symbol).imp fun e e' hpair => hpair.intent h
  rw [← hsame]
  exact hgroups symbol (symbols_perm hinputs ▸ hsymbol)

/-- The outcomes of the other state are all there. -/
theorem RelabelledOutcomes.exists_map_some (h : SameGroups intents intents') {outcomes : List FillOutcome}
    {os' : List (Option FillOutcome)} (hos : RelabelledOutcomes intents intents' (outcomes.map some) os') :
    ∃ outcomes' : List FillOutcome, os' = outcomes'.map some := by
  have hrange : os' ∈ Set.range (List.map some) := by
    rw [Set.range_list_map]
    intro o ho
    obtain ⟨i, hi⟩ := List.mem_iff_getElem?.mp ho
    have hlt : i < intents'.length := hos.length_right ▸ (List.getElem?_eq_some_iff.mp hi).1
    obtain ⟨e, e', hpair, rfl⟩ := exists_paired h hlt
    obtain ⟨symbol, hmem⟩ := id hpair
    obtain ⟨item, hitem, -⟩ := Paired.mem_left hmem
    have hleft : e.index < outcomes.length := by
      rw [← List.length_map (f := some), hos.length_left]
      exact (List.getElem?_eq_some_iff.mp hitem).1
    rw [hos.outcome hpair, List.getElem?_map, List.getElem?_eq_getElem hleft] at hi
    exact ⟨_, Option.some.inj hi⟩
  obtain ⟨outcomes', houtcomes⟩ := hrange
  exact ⟨outcomes', houtcomes.symm⟩

/-- The outcomes of the intents of a symbol, in the order of these, without the index. -/
def outcomesOf (intents : List PortfolioIntent) (outcomes : List FillOutcome) (symbol : String) :
    List (Option FillOutcome) :=
  (groupOf intents symbol).map fun e => outcomes[e.index]?.map (FillOutcome.relabel 0)

theorem relabel_relabel (i j : ℕ) (o : FillOutcome) : (o.relabel i).relabel j = o.relabel j := by
  obtain ⟨index, result⟩ := o
  cases result with
  | filled fill => rfl
  | unfilled reason => rfl

/-- The outcomes of each symbol are the same. -/
theorem outcomesOf_eq (h : SameGroups intents intents') {outcomes outcomes' : List FillOutcome}
    (hos : RelabelledOutcomes intents intents' (outcomes.map some) (outcomes'.map some)) (symbol : String) :
    outcomesOf intents' outcomes' symbol = outcomesOf intents outcomes symbol := by
  rw [outcomesOf, outcomesOf, ← map_fst_pairsOf h, ← map_snd_pairsOf h, List.map_map, List.map_map]
  refine List.map_congr_left fun ⟨e, e'⟩ hmem => ?_
  have houtcome := hos.outcome ⟨symbol, hmem⟩
  rw [List.getElem?_map, List.getElem?_map, Option.map_map] at houtcome
  dsimp only [Function.comp_apply]
  cases hleft : outcomes[e.index]? with
  | none =>
    rw [hleft] at houtcome
    rw [Option.map_eq_none_iff.mp houtcome]
  | some o =>
    rw [hleft] at houtcome
    obtain ⟨o', ho', heq⟩ := Option.map_eq_some_iff.mp houtcome
    rw [ho', Option.some.inj heq]
    exact congrArg some (relabel_relabel _ _ _)

end Accepted

/-- **The order of the inputs does not matter**, nor how the intents of different symbols are interleaved: an accepted
simulation of one order is accepted in any other, with the same equity, cash, positions and trades, and the same
outcomes for each symbol. -/
theorem order_independent (c : Ctx) (p p' : PortfolioInput) (hinputs : p.inputs.Perm p'.inputs)
    (intents intents' : List PortfolioIntent) (hgroups : SameGroups intents intents') (costModel : CostModel)
    (allocation : CapitalAllocation) (r : PortfolioResult)
    (h : runPortfolioBacktest c p intents costModel allocation = .ok r) : ∃ r' s s',
      runPortfolioBacktest c p' intents' costModel allocation = .ok r' ∧
      run (portfolioStep c costModel allocation p.symbols)
        (portfolioStart p intents allocation.initialCapital) (portfolioSteps p intents) = .ok s ∧
      run (portfolioStep c costModel allocation p'.symbols)
        (portfolioStart p' intents' allocation.initialCapital) (portfolioSteps p' intents') = .ok s' ∧
      r'.equityCurve = r.equityCurve ∧ s'.cash = s.cash ∧ s'.position = s.position ∧ r'.trades = r.trades ∧
      ∀ symbol, outcomesOf intents' r'.outcomes symbol = outcomesOf intents r.outcomes symbol := by
  obtain ⟨s, hran⟩ := portfolioRan h
  have hknown' := hgroups.known hinputs hran.known
  have hascending' := hgroups.ascending hinputs hran.ascending
  have hagree : Agree (Relabelled intents intents')
      (run (portfolioStep c costModel allocation p.symbols)
        (portfolioStart p intents allocation.initialCapital) (portfolioSteps p intents))
      (run (portfolioStep c costModel allocation p.symbols)
        (portfolioStart p' intents' allocation.initialCapital) (portfolioSteps p' intents')) := by
    refine run_agree ?_ (steps_paired hinputs hgroups) (relabelled_start hinputs hgroups hran.known hknown' _)
    exact fun s t a b hst hab => agree_step hgroups hst hab
  obtain ⟨s', hrun', os', rfl, hos⟩ := hagree.of_ok hran.ended
  rw [hran.outcomes] at hos
  obtain ⟨outcomes', rfl⟩ := hos.exists_map_some hgroups
  have hlength : outcomes'.length = intents'.length := by
    rw [← hos.length_right, List.length_map]
  rw [← symbols_perm hinputs] at hrun'
  obtain ⟨r', hr', houtcomes, htrades, hequity⟩ := exists_portfolioRan hknown' hascending' hrun' rfl hlength
    hran.equity_nonempty
  refine ⟨r', s, _, hr', hran.ended, hrun', hequity.trans hran.equityCurve.symm, rfl, rfl,
    htrades.trans hran.trades.symm, fun symbol => ?_⟩
  rw [houtcomes]
  exact outcomesOf_eq hgroups hos symbol

/-- The sample with its inputs in the other order. -/
theorem swapped_symbols_unique : ([sampleInput, otherInput].map BacktestInput.symbol).Nodup := by decide

theorem swapped_instruments_unique : ([sampleInput, otherInput].map BacktestInput.instrumentId).Nodup := by decide

def swappedPortfolio : PortfolioInput :=
  ⟨[sampleInput, otherInput], List.cons_ne_nil _ _, swapped_symbols_unique, swapped_instruments_unique⟩

/-- The intents of the sample with those of the first symbol last. -/
def swappedIntents : List PortfolioIntent :=
  [⟨"INFY", sampleIntent .buy 1 0, infy_nonempty⟩, ⟨"INFY", sampleIntent .sell 0 1, infy_nonempty⟩,
    ⟨"TCS", sampleIntent .buy 0 0, tcs_nonempty⟩]

theorem sample_groups : SameGroups samplePortfolioIntents swappedIntents := by
  intro symbol
  by_cases htcs : "TCS" = symbol
  · subst htcs
    rfl
  by_cases hinfy : "INFY" = symbol
  · subst hinfy
    rfl
  · simp [samplePortfolioIntents, swappedIntents, htcs, hinfy]

theorem samplePortfolio_accepted : ∃ r,
    runPortfolioBacktest .exact samplePortfolio samplePortfolioIntents sampleCosts sampleAllocation = .ok r :=
  exists_ok (by decide +kernel)

theorem order_independent_sample : ∃ r r',
    runPortfolioBacktest .exact samplePortfolio samplePortfolioIntents sampleCosts sampleAllocation = .ok r ∧
      runPortfolioBacktest .exact swappedPortfolio swappedIntents sampleCosts sampleAllocation = .ok r' ∧
      r'.equityCurve = r.equityCurve ∧ r'.trades = r.trades ∧
      ∀ symbol, outcomesOf swappedIntents r'.outcomes symbol = outcomesOf samplePortfolioIntents r.outcomes symbol := by
  obtain ⟨r, hr⟩ := samplePortfolio_accepted
  obtain ⟨r', s, s', hr', -, -, hequity, -, -, htrades, houtcomes⟩ := order_independent .exact samplePortfolio
    swappedPortfolio (List.Perm.swap _ _ _) samplePortfolioIntents swappedIntents sample_groups sampleCosts
    sampleAllocation r hr
  exact ⟨r, r', hr, hr', hequity, htrades, houtcomes⟩

end AlphaAlgo.Backtest
