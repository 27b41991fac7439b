import AlphaAlgo.Backtest.Lookahead
import AlphaAlgo.Backtest.Realized

/-!
# Matchings — which part of a sale goes to which buy

The ledger and the trades of a run are those that its fills book, one after the other (`replay`); the amounts that the
sales take out of the lots are the matchings.

* `Linked`: the exits of a trade or an open lot are the sales that are matched to its buy, in their order.
* `linked_replay`: so it is after any list of fills.
* `exists_replay`: the fills of a run book its trades.
-/

namespace AlphaAlgo.Backtest

open Loop

/-- What a sale takes out of the lot of a buy. -/
structure Matching where
  exit : ℕ
  entry : ℕ
  quantity : ℚ

/-- The ledger, the trades and the matchings after some fills. -/
structure Books where
  ledger : FifoLedger := {}
  trades : List TradeRecord := []
  matchings : List Matching := []

/-- The matchings of one fill. -/
def matchingsOf (c : Ctx) (ledger : FifoLedger) (fill : FillRecord) : List Matching :=
  match fill.side with
  | .buy => []
  | .sell => ((lotFifo c fill).taken fill.quantity ledger.lots).map fun p => ⟨fill.sequence, p.2.entryFillSequence, p.1⟩

def Books.next (c : Ctx) (b : Books) (fill : FillRecord) : Except BacktestError Books :=
  (bookFill c fill.side b.ledger fill).map fun booked =>
    ⟨booked.1, b.trades ++ booked.2, b.matchings ++ matchingsOf c b.ledger fill⟩

/-- The books of a list of fills. -/
def replay (c : Ctx) (fills : List FillRecord) : Except BacktestError Books := run (Books.next c) {} fills

/-! ### The exits of trades and lots -/

/-- The buy of a trade or a lot, its exits and its quantity. -/
structure Link where
  entry : ℕ
  exits : List ℕ
  quantity : ℚ

def TradeRecord.link (t : TradeRecord) : Link := ⟨t.entryFillSequence, t.exitFillSequences, t.quantity⟩

def Lot.link (l : Lot) : Link := ⟨l.entryFillSequence, l.exitFillSequences, l.totalQuantity⟩

def Books.links (b : Books) : List Link := b.trades.map TradeRecord.link ++ b.ledger.lots.map Lot.link

/-- The sales that are matched to a buy. -/
def exitsOf (matchings : List Matching) (entry : ℕ) : List Matching := matchings.filter (·.entry = entry)

theorem exitsOf_append (ms ms' : List Matching) (entry : ℕ) :
    exitsOf (ms ++ ms') entry = exitsOf ms entry ++ exitsOf ms' entry := List.filter_append ..

/-- What the books of `fills` are: each buy has one lot at most, and the exits of a lot or trade are the sales matched to
its buy. -/
structure Linked (fills : List FillRecord) (b : Books) : Prop where
  open_pos : ∀ l ∈ b.ledger.lots, 0 < l.remainingQuantity
  entries : (b.links.map Link.entry).Nodup
  bought : ∀ k ∈ b.links, ∃ f ∈ fills, f.side = .buy ∧ f.sequence = k.entry ∧ f.quantity = k.quantity
  exits : ∀ k ∈ b.links, k.exits = (exitsOf b.matchings k.entry).map Matching.exit
  sold : ∀ m ∈ b.matchings, ∃ f ∈ fills, f.side = .sell ∧ f.sequence = m.exit
  matched : ∀ m ∈ b.matchings, m.entry ∈ fills.map FillRecord.sequence

section Close

variable {c : Ctx} {ledger ledger' : FifoLedger} {fill : FillRecord} {completed : List TradeRecord}

/-- The lots after a sale, with those that it emptied. -/
def lotsAfter (c : Ctx) (ledger : FifoLedger) (fill : FillRecord) : List Lot :=
  ((lotFifo c fill).consume fill.quantity ledger.lots).1

/-- The lots that stay open, and the trades. -/
theorem closeLots_ok (hpos : ∀ l ∈ ledger.lots, 0 < l.remainingQuantity)
    (h : ledger.closeLots c fill = .ok (ledger', completed)) :
    ledger'.lots = (lotsAfter c ledger fill).filter (0 < ·.remainingQuantity) ∧
      completed = tradesOf c ledger.tradeSequence ((lotsAfter c ledger fill).filter (·.remainingQuantity = 0)) := by
  simp only [FifoLedger.closeLots, bind_eq_ok, raiseIf_eq_ok] at h
  obtain ⟨-, -, -, -, h⟩ := h
  cases h
  obtain ⟨hlots, -⟩ := @matchLots_consume c fill ledger.lots fill.quantity ledger.tradeSequence
  obtain ⟨hcompleted, -⟩ := @completed_matchLots c fill ledger.lots fill.quantity ledger.tradeSequence hpos
  rw [hlots] at hcompleted
  exact ⟨by rw [hlots]; rfl, hcompleted⟩

/-- The lots with nothing left and those with something left are different lots. -/
theorem split_subperm (lots : List Lot) :
    (lots.filter (·.remainingQuantity = 0) ++ lots.filter (0 < ·.remainingQuantity)).Subperm lots := by
  have hopen : (lots.filter (0 < ·.remainingQuantity)).Sublist (lots.filter fun l => !decide (l.remainingQuantity = 0)) := by
    refine List.monotone_filter_right lots fun l hl => ?_
    have hpos : 0 < l.remainingQuantity := of_decide_eq_true hl
    simpa using hpos.ne'
  exact ((hopen.append_left _).subperm).trans (List.filter_append_perm _ lots).subperm

/-- A lot after a sale was open before, and its exits are those before and the sale, if it is matched to it. -/
theorem exists_of_mem_lotsAfter (hentries : (ledger.lots.map Lot.entryFillSequence).Nodup) (hside : fill.side = .sell)
    {l' : Lot} (h : l' ∈ lotsAfter c ledger fill) : ∃ l ∈ ledger.lots, l'.entryFillSequence = l.entryFillSequence ∧
      l'.totalQuantity = l.totalQuantity ∧ l'.exitFillSequences = l.exitFillSequences ++
        (exitsOf (matchingsOf c ledger fill) l.entryFillSequence).map Matching.exit := by
  have hmatchings : ∀ e, exitsOf (matchingsOf c ledger fill) e = (((lotFifo c fill).taken fill.quantity
      ledger.lots).filter fun p => p.2.entryFillSequence = e).map fun p => ⟨fill.sequence, p.2.entryFillSequence, p.1⟩ := by
    intro e
    rw [exitsOf, matchingsOf, hside]
    exact List.filter_map
  obtain ⟨l, hl, ⟨rfl, hunused⟩ | ⟨m, rfl, hused⟩⟩ := Fifo.exists_of_mem_consume hentries h
  · exact ⟨l', hl, rfl, rfl, by rw [hmatchings, hunused, List.map_nil, List.map_nil, List.append_nil]⟩
  · exact ⟨l, hl, rfl, rfl, by rw [hmatchings, hused]; rfl⟩

end Close

namespace Linked

variable {c : Ctx} {fills : List FillRecord} {b b' : Books} {fill : FillRecord}

theorem empty : Linked [] {} where
  open_pos := by simp
  entries := by simp [Books.links]
  bought := by simp [Books.links]
  exits := by simp [Books.links]
  sold := by simp
  matched := by simp

/-- The buys of the lots are among the fills. -/
theorem entry_mem (h : Linked fills b) {k : Link} (hk : k ∈ b.links) : k.entry ∈ fills.map FillRecord.sequence := by
  obtain ⟨f, hf, -, hsequence, -⟩ := h.bought k hk
  exact List.mem_map.mpr ⟨f, hf, hsequence⟩

/-- Nothing is matched to a buy that is still to come. -/
theorem exitsOf_eq_nil (h : Linked fills b) (hnew : fill.sequence ∉ fills.map FillRecord.sequence) :
    exitsOf b.matchings fill.sequence = [] := by
  refine List.filter_eq_nil_iff.mpr fun m hm hentry => hnew ?_
  have hsequence : m.entry = fill.sequence := of_decide_eq_true hentry
  exact hsequence ▸ h.matched m hm

theorem next_buy (hside : fill.side = .buy) :
    b.next c fill = .ok { b with ledger := { b.ledger with lots := b.ledger.lots ++ [lotOf fill] } } := by
  rw [Books.next, hside, bookFill, openLot_eq hside, matchingsOf, hside]
  show Except.ok (Books.mk _ (b.trades ++ []) (b.matchings ++ [])) = _
  rw [List.append_nil, List.append_nil]

/-- **A buy** opens a lot that nothing is matched to. -/
theorem buy (h : Linked fills b) (hside : fill.side = .buy) (hq : 0 < fill.quantity)
    (hnew : fill.sequence ∉ fills.map FillRecord.sequence) (hnext : b.next c fill = .ok b') :
    Linked (fills ++ [fill]) b' := by
  rw [next_buy hside] at hnext
  cases hnext
  have hlinks : Books.links { b with ledger := { b.ledger with lots := b.ledger.lots ++ [lotOf fill] } } =
      b.links ++ [(lotOf fill).link] := by
    simp [Books.links]
  refine ⟨?_, ?_, ?_, ?_, fun m hm => ?_, fun m hm => ?_⟩
  · exact List.forall_mem_append.mpr ⟨h.open_pos, List.forall_mem_singleton.mpr hq⟩
  · rw [hlinks, List.map_append]
    refine List.nodup_append.mpr ⟨h.entries, List.nodup_singleton _, ?_⟩
    rintro e he e' he' rfl
    obtain rfl := List.mem_singleton.mp he'
    obtain ⟨k, hk, hentry⟩ := List.mem_map.mp he
    have hmem := h.entry_mem hk
    rw [hentry] at hmem
    exact hnew hmem
  · rw [hlinks]
    refine List.forall_mem_append.mpr ⟨fun k hk => ?_, List.forall_mem_singleton.mpr ?_⟩
    · obtain ⟨f, hf, hk⟩ := h.bought k hk
      exact ⟨f, List.mem_append_left _ hf, hk⟩
    · exact ⟨fill, by simp, hside, rfl, rfl⟩
  · rw [hlinks]
    refine List.forall_mem_append.mpr ⟨h.exits, List.forall_mem_singleton.mpr ?_⟩
    show [] = (exitsOf b.matchings fill.sequence).map Matching.exit
    rw [h.exitsOf_eq_nil hnew, List.map_nil]
  · obtain ⟨f, hf, hm⟩ := h.sold m hm
    exact ⟨f, List.mem_append_left _ hf, hm⟩
  · rw [List.map_append]
    exact List.mem_append_left _ (h.matched m hm)

/-- **A sale** is matched to open lots. -/
theorem sell (h : Linked fills b) (hside : fill.side = .sell) (hnext : b.next c fill = .ok b') :
    Linked (fills ++ [fill]) b' := by
  obtain ⟨⟨ledger, completed⟩, hbook, rfl⟩ := map_eq_ok.mp hnext
  rw [hside] at hbook
  obtain ⟨hopen, hcompleted⟩ := closeLots_ok h.open_pos hbook
  have hentries := h.entries
  rw [Books.links, List.map_append, List.map_map, List.map_map] at hentries
  obtain ⟨htrades, hlots, hdisjoint⟩ := List.nodup_append.mp hentries
  have hafter : (lotsAfter c b.ledger fill).map Lot.entryFillSequence = b.ledger.lots.map Lot.entryFillSequence :=
    Fifo.map_consume (fun _ _ => rfl) _ _
  have hlinks : Books.links ⟨ledger, b.trades ++ completed, b.matchings ++ matchingsOf c b.ledger fill⟩ =
      b.trades.map TradeRecord.link ++ ((lotsAfter c b.ledger fill).filter (·.remainingQuantity = 0) ++
        (lotsAfter c b.ledger fill).filter (0 < ·.remainingQuantity)).map Lot.link := by
    have htraded : completed.map TradeRecord.link =
        ((lotsAfter c b.ledger fill).filter (·.remainingQuantity = 0)).map Lot.link := by
      rw [hcompleted]
      exact map_tradesOf (fun l _ n => rfl) _
    rw [Books.links, List.map_append, htraded, hopen, List.map_append, List.append_assoc]
  -- a link of a lot after the sale goes back to a lot before it
  have hback : ∀ l' ∈ (lotsAfter c b.ledger fill).filter (·.remainingQuantity = 0) ++
      (lotsAfter c b.ledger fill).filter (0 < ·.remainingQuantity), l' ∈ lotsAfter c b.ledger fill := by
    intro l' hl'
    rcases List.mem_append.mp hl' with hl' | hl'
    · exact List.mem_of_mem_filter hl'
    · exact List.mem_of_mem_filter hl'
  have hlot : ∀ l ∈ b.ledger.lots, l.link ∈ b.links := fun l hl =>
    List.mem_append_right _ (List.mem_map_of_mem hl)
  have hmatched : ∀ m ∈ matchingsOf c b.ledger fill, m.exit = fill.sequence ∧
      m.entry ∈ b.ledger.lots.map Lot.entryFillSequence := by
    intro m hm
    rw [matchingsOf, hside] at hm
    obtain ⟨p, hp, rfl⟩ := List.mem_map.mp hm
    exact ⟨rfl, List.mem_map_of_mem (Fifo.mem_taken hp).2.2.1⟩
  have hbought : ∀ {k : Link}, (∃ f ∈ fills, f.side = .buy ∧ f.sequence = k.entry ∧ f.quantity = k.quantity) →
      ∃ f ∈ fills ++ [fill], f.side = .buy ∧ f.sequence = k.entry ∧ f.quantity = k.quantity := by
    rintro k ⟨f, hf, hk⟩
    exact ⟨f, List.mem_append_left _ hf, hk⟩
  refine ⟨?_, ?_, ?_, ?_, ?_, ?_⟩
  · rw [hopen]
    exact fun l hl => of_decide_eq_true (List.mem_filter.mp hl).2
  · rw [hlinks, List.map_append, List.map_map, List.map_map]
    obtain ⟨lots, hperm, hsublist⟩ := split_subperm (lotsAfter c b.ledger fill)
    have hsub : (lots.map Lot.entryFillSequence).Sublist (b.ledger.lots.map Lot.entryFillSequence) :=
      hafter ▸ hsublist.map _
    refine ((hperm.map Lot.entryFillSequence).append_left _).nodup_iff.mp ?_
    exact hentries.sublist (hsub.append_left _)
  · rw [hlinks]
    refine List.forall_mem_append.mpr ⟨fun k hk => hbought (h.bought k (List.mem_append_left _ hk)), fun k hk => ?_⟩
    obtain ⟨l', hl', rfl⟩ := List.mem_map.mp hk
    obtain ⟨l, hl, hentry, hquantity, -⟩ := exists_of_mem_lotsAfter hlots hside (hback l' hl')
    obtain ⟨f, hf, hbuy, hsequence, hq⟩ := h.bought l.link (hlot l hl)
    exact hbought ⟨f, hf, hbuy, hsequence.trans hentry.symm, hq.trans hquantity.symm⟩
  · rw [hlinks]
    refine List.forall_mem_append.mpr ⟨fun k hk => ?_, fun k hk => ?_⟩
    · -- the buy of a trade has no open lot
      have hnone : exitsOf (matchingsOf c b.ledger fill) k.entry = [] := by
        refine List.filter_eq_nil_iff.mpr fun m hm hentry => ?_
        obtain ⟨t, ht, rfl⟩ := List.mem_map.mp hk
        exact hdisjoint _ (List.mem_map_of_mem ht) _ (hmatched m hm).2 (of_decide_eq_true hentry).symm
      rw [h.exits k (List.mem_append_left _ hk)]
      show _ = (exitsOf (b.matchings ++ matchingsOf c b.ledger fill) k.entry).map Matching.exit
      rw [exitsOf_append, hnone, List.append_nil]
    · obtain ⟨l', hl', rfl⟩ := List.mem_map.mp hk
      obtain ⟨l, hl, hentry, -, hexits⟩ := exists_of_mem_lotsAfter hlots hside (hback l' hl')
      show l'.exitFillSequences = (exitsOf (b.matchings ++ matchingsOf c b.ledger fill) l'.entryFillSequence).map
        Matching.exit
      have hold : l.exitFillSequences = (exitsOf b.matchings l.entryFillSequence).map Matching.exit :=
        h.exits l.link (hlot l hl)
      rw [hexits, hold, hentry, ← List.map_append, exitsOf_append]
  · refine List.forall_mem_append.mpr ⟨fun m hm => ?_, fun m hm => ?_⟩
    · obtain ⟨f, hf, hm⟩ := h.sold m hm
      exact ⟨f, List.mem_append_left _ hf, hm⟩
    · exact ⟨fill, by simp, hside, (hmatched m hm).1.symm⟩
  · rw [List.map_append]
    refine List.forall_mem_append.mpr ⟨fun m hm => List.mem_append_left _ (h.matched m hm), fun m hm => ?_⟩
    obtain ⟨l, hl, hentry⟩ := List.mem_map.mp (hmatched m hm).2
    exact List.mem_append_left _ (hentry ▸ h.entry_mem (hlot l hl))

end Linked

/-! ### After any list of fills -/

/-- The fills of a run: positive quantities, each with a sequence of its own. -/
structure Numbered (fills : List FillRecord) : Prop where
  pos : ∀ f ∈ fills, 0 < f.quantity
  sequences : (fills.map FillRecord.sequence).Nodup

theorem Linked.next {c : Ctx} {fills : List FillRecord} {b b' : Books} {fill : FillRecord} (h : Linked fills b)
    (hq : 0 < fill.quantity) (hnew : fill.sequence ∉ fills.map FillRecord.sequence) (hnext : b.next c fill = .ok b') :
    Linked (fills ++ [fill]) b' := by
  cases hside : fill.side with
  | buy => exact h.buy hside hq hnew hnext
  | sell => exact h.sell hside hnext

/-- **The books are linked** after any list of fills. -/
theorem linked_replay {c : Ctx} {fills : List FillRecord} {b : Books} (hnumbered : Numbered fills)
    (h : replay c fills = .ok b) : Linked fills b := by
  induction fills using List.reverseRecOn generalizing b with
  | nil =>
    cases h
    exact Linked.empty
  | append_singleton fills fill ih =>
    obtain ⟨b₁, hb₁, hlast⟩ := run_append_ok.mp h
    obtain ⟨b₂, hnext, hnil⟩ := run_cons_ok.mp hlast
    cases hnil
    have hsequences := hnumbered.sequences
    rw [List.map_append, List.map_singleton] at hsequences
    have hnew : fill.sequence ∉ fills.map FillRecord.sequence := fun hmem =>
      List.disjoint_of_nodup_append hsequences hmem (List.mem_singleton_self _)
    have hold : Numbered fills :=
      ⟨fun f hf => hnumbered.pos f (List.mem_append_left _ hf), hsequences.of_append_left⟩
    exact (ih hold hb₁).next (hnumbered.pos fill (by simp)) hnew hnext

/-! ### The fills of a run -/

section Order

variable {records : List MarketRecord} {intents : List OrderIntent}

/-- The intents are evaluated in their order. -/
theorem sorted_index_stepsOf (h : Ascending intents) :
    ((stepsOf records intents).filterMap SimStep.index).Pairwise (· < ·) := by
  rw [index_stepsOf h]
  refine List.pairwise_flatMap.mpr ⟨fun k _ => ?_, ?_⟩
  · have hrange : ((indexed intents).map IndexedIntent.index).Pairwise (· < ·) := by
      rw [map_index_indexed]
      exact List.pairwise_lt_range
    exact hrange.sublist (List.filter_sublist.map _)
  · refine List.pairwise_lt_range.imp fun {k k'} hlt i hi i' hi' => ?_
    obtain ⟨e, he, rfl⟩ := List.mem_map.mp hi
    obtain ⟨e', he', rfl⟩ := List.mem_map.mp hi'
    obtain ⟨he, hk⟩ := List.mem_filter.mp he
    obtain ⟨he', hk'⟩ := List.mem_filter.mp he'
    have hk := of_decide_eq_true hk
    have hk' := of_decide_eq_true hk'
    by_contra hle
    have hdecided : e'.intent.decidedAt.instant ≤ e.intent.decidedAt.instant := by
      rcases (not_lt.mp hle).eq_or_lt with heq | hlt'
      · rw [List.inj_on_of_nodup_map (nodup_indexed intents) he' he heq]
      · obtain ⟨hi', hget'⟩ := List.getElem?_eq_some_iff.mp (mem_indexed.mp he')
        obtain ⟨hi, hget⟩ := List.getElem?_eq_some_iff.mp (mem_indexed.mp he)
        have hpairwise := List.pairwise_iff_getElem.mp (ascending_iff_pairwise.mp h) _ _ hi' hi hlt'
        rw [hget, hget'] at hpairwise
        exact hpairwise.le
    have hanchor := anchorOf_mono records hdecided
    rw [hk, hk'] at hanchor
    exact not_lt.mpr hanchor hlt

end Order

/-- A new outcome after all fills adds its fill at the end. -/
theorem fillsOf_set_last {outcomes : List (Option FillOutcome)} {i : ℕ} (hi : i < outcomes.length)
    (hlater : ∀ j ≥ i, ∀ o : FillOutcome, outcomes[j]? = some (some o) → o.fill = none) (o : FillOutcome) :
    fillsOf (outcomes.set i (some o)) = fillsOf outcomes ++ o.fill.toList := by
  have hdrop : ∀ n ≥ i, fillsOf (outcomes.drop n) = [] := by
    intro n hn
    refine List.filterMap_eq_nil_iff.mpr fun o' ho' => ?_
    obtain ⟨j, hj⟩ := List.mem_iff_getElem?.mp ho'
    rw [List.getElem?_drop] at hj
    cases o' with
    | none => rfl
    | some o' => exact hlater (n + j) (by omega) o' hj
  have hold : fillsOf outcomes = fillsOf (outcomes.take i) := by
    nth_rewrite 1 [← List.take_append_drop i outcomes]
    rw [fillsOf, List.filterMap_append]
    have hrest := hdrop i le_rfl
    rw [fillsOf] at hrest
    rw [hrest, List.append_nil, fillsOf]
  rw [List.set_eq_take_append_cons_drop, if_pos hi, hold]
  have hrest := hdrop (i + 1) (by omega)
  rw [fillsOf] at hrest
  rw [fillsOf, List.filterMap_append, List.filterMap_cons, hrest, fillsOf]
  cases hfill : o.fill with
  | none => simp [hfill]
  | some fill => simp [hfill]

/-- What a simulation keeps when `rest` is still to come: the intents to come are after all fills, and the fills book the
ledger and the trades. -/
structure InOrder (c : Ctx) (s : SimState) (rest : List SimStep) : Prop where
  sorted : (rest.filterMap SimStep.index).Pairwise (· < ·)
  length : ∀ i ∈ rest.filterMap SimStep.index, i < s.outcomes.length
  later : ∀ i ∈ rest.filterMap SimStep.index, ∀ j ≥ i, ∀ o : FillOutcome, s.outcomes[j]? = some (some o) → o.fill = none
  booked : ∃ b, replay c (fillsOf s.outcomes) = .ok b ∧ b.ledger = s.ledger ∧ b.trades = s.trades
  numbered : Numbered (fillsOf s.outcomes)
  sequences : ∀ f ∈ fillsOf s.outcomes, f.sequence < s.sequence

namespace InOrder

variable {c : Ctx} {costModel : CostModel} {s s' : SimState} {a : SimStep} {rest : List SimStep}

/-- The intents to come stay after all fills. -/
theorem later_set {outcomes : List (Option FillOutcome)} {i : ℕ} {is : List ℕ} (o : FillOutcome)
    (hsorted : (i :: is).Pairwise (· < ·))
    (hlater : ∀ k ∈ i :: is, ∀ j ≥ k, ∀ o : FillOutcome, outcomes[j]? = some (some o) → o.fill = none) :
    ∀ k ∈ is, ∀ j ≥ k, ∀ o' : FillOutcome, (outcomes.set i (some o))[j]? = some (some o') → o'.fill = none := by
  intro k hk j hj o' ho'
  have hlt : i < k := (List.pairwise_cons.mp hsorted).1 k hk
  rw [List.getElem?_set_ne (by omega)] at ho'
  exact hlater k (List.mem_cons_of_mem _ hk) j hj o' ho'

/-- **A step books its fill**, if it has one. -/
theorem step (h : InOrder c s (a :: rest)) (hstep : Stepped c costModel s a s') : InOrder c s' rest := by
  cases hstep with
  | @unfilled k record e reason =>
    have hlast := fillsOf_set_last (h.length e.index List.mem_cons_self) (h.later e.index List.mem_cons_self)
      ⟨e.index, .unfilled reason⟩
    rw [show (FillOutcome.mk e.index (.unfilled reason)).fill = none from rfl, Option.toList_none, List.append_nil] at hlast
    refine ⟨(List.pairwise_cons.mp h.sorted).2, fun i hi => ?_, later_set _ h.sorted h.later, ?_, ?_, ?_⟩
    · show i < (s.outcomes.set e.index _).length
      rw [List.length_set]
      exact h.length i (List.mem_cons_of_mem _ hi)
    · show ∃ b, replay c (fillsOf (s.outcomes.set e.index _)) = .ok b ∧ _
      rw [hlast]
      exact h.booked
    · show Numbered (fillsOf (s.outcomes.set e.index _))
      rw [hlast]
      exact h.numbered
    · show ∀ f ∈ fillsOf (s.outcomes.set e.index _), _
      rw [hlast]
      exact h.sequences
  | @filled k record e fill ledger completed hfill hbook =>
    have hlast := fillsOf_set_last (h.length e.index List.mem_cons_self) (h.later e.index List.mem_cons_self)
      ⟨e.index, .filled fill⟩
    rw [show (FillOutcome.mk e.index (.filled fill)).fill = some fill from rfl, Option.toList_some] at hlast
    refine ⟨(List.pairwise_cons.mp h.sorted).2, fun i hi => ?_, later_set _ h.sorted h.later, ?_, ?_, ?_⟩
    · show i < (s.outcomes.set e.index _).length
      rw [List.length_set]
      exact h.length i (List.mem_cons_of_mem _ hi)
    · obtain ⟨b, hb, hledger, htrades⟩ := h.booked
      show ∃ b, replay c (fillsOf (s.outcomes.set e.index _)) = .ok b ∧ _
      rw [hlast]
      refine ⟨⟨ledger, b.trades ++ completed, b.matchings ++ matchingsOf c b.ledger fill⟩, ?_, rfl, ?_⟩
      · refine run_append_ok.mpr ⟨b, hb, run_cons_ok.mpr ⟨_, ?_, rfl⟩⟩
        rw [Books.next, hfill.side, hledger, hbook]
        rfl
      · show b.trades ++ completed = s.trades ++ completed
        rw [htrades]
    · show Numbered (fillsOf (s.outcomes.set e.index _))
      rw [hlast]
      constructor
      · refine List.forall_mem_append.mpr ⟨h.numbered.pos, List.forall_mem_singleton.mpr ?_⟩
        rw [hfill.quantity]
        exact e.intent.quantity_pos
      · rw [List.map_append]
        refine List.nodup_append.mpr ⟨h.numbered.sequences, List.nodup_singleton _, ?_⟩
        intro n hn m hm hnm
        obtain ⟨f, hf, hsequence⟩ := List.mem_map.mp hn
        have hlt := h.sequences f hf
        rw [List.mem_singleton.mp hm, hfill.sequence_eq] at hnm
        omega
    · show ∀ f ∈ fillsOf (s.outcomes.set e.index _), f.sequence < s.sequence + 1
      rw [hlast]
      refine List.forall_mem_append.mpr ⟨fun f hf => ?_, List.forall_mem_singleton.mpr ?_⟩
      · exact (h.sequences f hf).trans (Nat.lt_succ_self _)
      · rw [hfill.sequence_eq]
        exact Nat.lt_succ_self _
  | marked hprice => exact ⟨h.sorted, h.length, h.later, h.booked, h.numbered, h.sequences⟩

end InOrder

theorem inOrder_start {c : Ctx} {records : List MarketRecord} {intents : List OrderIntent} (h : Ascending intents)
    (capital : ℚ) : InOrder c (startOf records intents capital) (stepsOf records intents) where
  sorted := sorted_index_stepsOf h
  length i hi := by
    obtain ⟨e, he, rfl, -⟩ := (mem_index_stepsOf h).mp hi
    rw [length_start h]
    exact (List.getElem?_eq_some_iff.mp (mem_indexed.mp he)).1
  later _ _ j _ o ho := by
    rcases start_cases h ho with hnone | hsome
    · cases hnone
    · cases hsome
      rfl
  booked := ⟨{}, by rw [fillsOf_start h]; rfl, rfl, rfl⟩
  numbered := by
    rw [fillsOf_start h]
    exact ⟨by simp, List.nodup_nil⟩
  sequences := by
    rw [fillsOf_start h]
    simp

/-- **The fills of a run book its trades.** -/
theorem exists_replay {c : Ctx} {inputs : BacktestInput} {intents : List OrderIntent} {costModel : CostModel}
    {initialCapital : ℚ} {r : BacktestRun} (h : runBacktest c inputs intents costModel initialCapital = .ok r) :
    Numbered r.fills ∧ ∃ b, replay c r.fills = .ok b ∧ b.trades = r.trades := by
  obtain ⟨s, hran⟩ := ran h
  have hend : InOrder c s [] := by
    refine invariant_rest (fun s a rest s' hs hstep => hs.step (stepped hstep)) ?_ hran.ended
    rw [List.append_nil]
    exact inOrder_start hran.ascending initialCapital
  have hfills : fillsOf s.outcomes = r.fills := by
    rw [hran.outcomes, fillsOf, List.filterMap_map]
    rfl
  obtain ⟨b, hb, -, htrades⟩ := hend.booked
  have hnumbered := hend.numbered
  rw [hfills] at hb hnumbered
  exact ⟨hnumbered, b, hb, htrades.trans hran.trades.symm⟩

end AlphaAlgo.Backtest
