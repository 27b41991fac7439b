import AlphaAlgo.Backtest.Runs

/-!
# Realized — what the equity of a backtest is made of

In arithmetic without rounding the equity is the capital, what the trades and the open lots have realized, and what the
open lots are worth beyond their entry; and the trades and lots carry the commissions of the fills.

* `Booked`: the equation for the equity at any mark price, and the attribution of the commissions.
* `Booked.buy`, `Booked.sell`: a fill keeps it.
* `equity_realized`: at the end of a run, and of one that ends flat.
-/

namespace AlphaAlgo.Backtest

open Loop

/-! ### Trades and lots -/

/-- What is booked on the lot of a buy, while it is open and afterwards. -/
structure Booking where
  entry : ℕ
  exits : List ℕ
  entryCost : ℚ
  exitCost : ℚ

def TradeRecord.booking (t : TradeRecord) : Booking := ⟨t.entryFillSequence, t.exitFillSequences, t.entryCost, t.exitCost⟩

def Lot.booking (l : Lot) : Booking := ⟨l.entryFillSequence, l.exitFillSequences, l.entryCost, l.exitCostUsed⟩

def bookings (trades : List TradeRecord) (lots : List Lot) : List Booking :=
  trades.map TradeRecord.booking ++ lots.map Lot.booking

theorem bookings_append_lot (trades : List TradeRecord) (lots : List Lot) (l : Lot) :
    bookings trades (lots ++ [l]) = bookings trades lots ++ [l.booking] := by
  rw [bookings, bookings, List.map_append, List.append_assoc]
  rfl

/-- What a lot has realized, the mark-to-market of what it has left against its entry price, less the entry commission
that is not yet attributed. -/
def Lot.worth (mark : ℚ) (l : Lot) : ℚ :=
  l.realizedTotal + l.remainingQuantity * (mark - l.entryPrice) - (l.entryCost - l.entryCostUsed)

/-- A part of the commission of a sale, and the buy whose lot carries it. -/
structure Attribution where
  exit : ℕ
  entry : ℕ
  amount : ℚ

/-- The attributions of the commission of a sale. -/
def commissionParts (fill : FillRecord) (lots : List Lot) : List Attribution :=
  ((lotFifo .exact fill).taken fill.quantity lots).map fun p =>
    ⟨fill.sequence, p.2.entryFillSequence, exitShare .exact fill p.1⟩

theorem map_tradesOf {β : Type} {c : Ctx} {g : TradeRecord → β} {g' : Lot → β} {lots : List Lot}
    (h : ∀ l ∈ lots, ∀ n, g (l.trade c n) = g' l) (sequence : ℕ) : (tradesOf c sequence lots).map g = lots.map g' := by
  induction lots generalizing sequence with
  | nil => rfl
  | cons l ls ih =>
    obtain ⟨hl, hls⟩ := List.forall_mem_cons.mp h
    have htrades : tradesOf c sequence (l :: ls) = l.trade c sequence :: tradesOf c (sequence + 1) ls := rfl
    rw [htrades, List.map_cons, List.map_cons, hl sequence, ih hls]

section Closed

variable {fill : FillRecord} {ledger ledger' : FifoLedger} {completed : List TradeRecord} {lots : List Lot}

theorem Closed.empty (h : Closed ledger fill ledger' completed lots) {l : Lot}
    (hl : l ∈ lots.filter (·.remainingQuantity = 0)) : l.Sound ∧ l.remainingQuantity = 0 :=
  ⟨h.sound l (List.mem_of_mem_filter hl), of_decide_eq_true (List.mem_filter.mp hl).2⟩

/-- The trades realize what their lots did. -/
theorem Closed.realized (h : Closed ledger fill ledger' completed lots) (mark : ℚ) :
    (completed.map TradeRecord.realizedPnl).sum = ((lots.filter (·.remainingQuantity = 0)).map (Lot.worth mark)).sum := by
  rw [h.trades]
  refine congrArg List.sum (map_tradesOf (fun l hl n => ?_) _)
  obtain ⟨hsound, hzero⟩ := h.empty hl
  rw [Lot.worth, hzero, hsound.entryCostUsed_eq hzero]
  simp [Lot.trade]

/-- **The equity equation of a sale**: what the trades realize and the lots are worth, before and after. -/
theorem Closed.worth (h : Closed ledger fill ledger' completed lots) (hq : fill.quantity ≠ 0) (mark : ℚ) :
    (completed.map TradeRecord.realizedPnl).sum + (ledger'.lots.map (Lot.worth mark)).sum =
      (ledger.lots.map (Lot.worth mark)).sum +
        (fill.quantity * fill.fillPrice - fill.commissionAmount - fill.quantity * mark) := by
  have hexit : ∀ m l, Lot.worth mark (Lot.exit .exact fill m l) = Lot.worth mark l +
      (fill.fillPrice - fill.commissionAmount / fill.quantity - mark) * m := by
    intro m l
    simp only [Lot.worth, Lot.exit, Lot.realizedShare, Lot.entryShare, exitShare, Ctx.fix_exact]
    ring
  have hsum := h.sum hexit
  rw [h.realized mark, add_comm, hsum]
  congr 1
  field_simp

/-- The bookings after a sale are those of the lots after the loop. -/
theorem Closed.bookings_perm (h : Closed ledger fill ledger' completed lots) (trades : List TradeRecord) :
    (bookings (trades ++ completed) ledger'.lots).Perm (bookings trades lots) := by
  have hcompleted : completed.map TradeRecord.booking = (lots.filter (·.remainingQuantity = 0)).map Lot.booking := by
    rw [h.trades]
    refine map_tradesOf (fun l hl n => ?_) _
    obtain ⟨hsound, hzero⟩ := h.empty hl
    rw [TradeRecord.booking, Lot.booking, ← hsound.entryCostUsed_eq hzero]
    rfl
  have hopen : lots.filter (0 < ·.remainingQuantity) = lots.filter fun l => !decide (l.remainingQuantity = 0) := by
    refine List.filter_congr fun l hl => ?_
    have hnonneg : 0 ≤ l.remainingQuantity := (h.sound l hl).remaining_nonneg
    rw [← decide_not, decide_eq_decide]
    exact ⟨fun hpos => hpos.ne', fun hne => lt_of_le_of_ne hnonneg (Ne.symm hne)⟩
  rw [bookings, bookings, List.map_append, hcompleted, h.still_open, hopen, List.append_assoc, ← List.map_append]
  exact ((List.filter_append_perm _ lots).map Lot.booking).append_left _

/-- A sale does not change from which buys the bookings are, and what those paid. -/
theorem Closed.map_entry (h : Closed ledger fill ledger' completed lots) :
    (lots.map Lot.booking).map (fun b => (b.entry, b.entryCost)) =
      (ledger.lots.map Lot.booking).map fun b => (b.entry, b.entryCost) := by
  rw [h.loop, List.map_map, List.map_map]
  exact Fifo.map_consume (fun _ _ => rfl) _ _

/-- The whole commission of a sale is attributed. -/
theorem Closed.sum_commissionParts (h : Closed ledger fill ledger' completed lots) (hq : fill.quantity ≠ 0) :
    ((commissionParts fill ledger.lots).map Attribution.amount).sum = fill.commissionAmount := by
  have hamount : (commissionParts fill ledger.lots).map Attribution.amount =
      ((lotFifo .exact fill).taken fill.quantity ledger.lots).map fun p =>
        fill.commissionAmount / fill.quantity * p.1 := by
    rw [commissionParts, List.map_map]
    refine List.map_congr_left fun p _ => ?_
    simp only [Function.comp, exitShare, Ctx.fix_exact]
    ring
  rw [hamount, List.sum_map_mul_left, Fifo.sum_taken sub_lotFifo, h.left, sub_zero, div_mul_cancel₀ _ hq]

/-- What a sale adds to the exit costs booked on a buy. -/
theorem Closed.sum_exitCost (h : Closed ledger fill ledger' completed lots) (e : ℕ) :
    ((lots.map Lot.booking).map fun b => if b.entry = e then b.exitCost else 0).sum =
      ((ledger.lots.map Lot.booking).map fun b => if b.entry = e then b.exitCost else 0).sum +
        ((commissionParts fill ledger.lots).map fun a => if a.entry = e then a.amount else 0).sum := by
  have hexit : ∀ m (l : Lot), (if (Lot.exit .exact fill m l).entryFillSequence = e then
      (Lot.exit .exact fill m l).exitCostUsed else 0) = (if l.entryFillSequence = e then l.exitCostUsed else 0) +
        if l.entryFillSequence = e then exitShare .exact fill m else 0 := by
    intro m l
    by_cases he : l.entryFillSequence = e
    · simp only [Lot.exit, he, if_true, Ctx.fix_exact]
    · simp only [Lot.exit, he, if_false, add_zero]
  rw [h.loop, commissionParts, List.map_map, List.map_map, List.map_map]
  exact Fifo.sum_consume_taken (f := lotFifo .exact fill) (w := fun l => if l.entryFillSequence = e then l.exitCostUsed else 0)
    (v := fun m l => if l.entryFillSequence = e then exitShare .exact fill m else 0) hexit _ _

end Closed

/-! ### The books -/

/-- The books after the fills `fills`: the equity at any mark price, the entry commissions of the buys, and the
attribution of the commissions of the sales. -/
structure Booked (capital cash position : ℚ) (fills : List FillRecord) (trades : List TradeRecord) (lots : List Lot)
    (attributions : List Attribution) : Prop where
  value : ∀ mark, cash + position * mark =
    capital + (trades.map TradeRecord.realizedPnl).sum + (lots.map (Lot.worth mark)).sum
  sequences : (fills.map FillRecord.sequence).Nodup
  entries : ((bookings trades lots).map fun b => (b.entry, b.entryCost)).Perm
    ((fills.filter (·.side = .buy)).map fun f => (f.sequence, f.commissionAmount))
  paid : ∀ f ∈ fills, f.side = .sell →
    (attributions.map fun a => if a.exit = f.sequence then a.amount else 0).sum = f.commissionAmount
  costs : ∀ e, ((bookings trades lots).map fun b => if b.entry = e then b.exitCost else 0).sum =
    (attributions.map fun a => if a.entry = e then a.amount else 0).sum
  matched : ∀ a ∈ attributions, 0 ≤ a.amount ∧ (∃ f ∈ fills, f.side = .sell ∧ f.sequence = a.exit) ∧
    ∃ b ∈ bookings trades lots, b.entry = a.entry ∧ a.exit ∈ b.exits

namespace Booked

variable {capital cash position : ℚ} {fills : List FillRecord} {trades : List TradeRecord} {lots : List Lot}
  {attributions : List Attribution}

theorem empty (capital : ℚ) : Booked capital capital 0 [] [] [] [] where
  value mark := by simp
  sequences := List.nodup_nil
  entries := List.Perm.refl _
  paid := by simp
  costs e := by simp [bookings]
  matched := by simp

/-- The order of the fills does not matter. -/
theorem perm {fills' : List FillRecord} (h : Booked capital cash position fills trades lots attributions)
    (hp : fills.Perm fills') : Booked capital cash position fills' trades lots attributions where
  value := h.value
  sequences := (hp.map _).nodup_iff.mp h.sequences
  entries := h.entries.trans ((hp.filter _).map _)
  paid f hf := h.paid f (hp.mem_iff.mpr hf)
  costs := h.costs
  matched a ha := by
    obtain ⟨hnonneg, ⟨f, hf, hside⟩, hbooking⟩ := h.matched a ha
    exact ⟨hnonneg, ⟨f, hp.mem_iff.mp hf, hside⟩, hbooking⟩

/-- A fill with a later sequence. -/
theorem nodup_fresh {fill : FillRecord} (h : Booked capital cash position fills trades lots attributions)
    (hfresh : ∀ f ∈ fills, f.sequence < fill.sequence) : ((fills ++ [fill]).map FillRecord.sequence).Nodup := by
  rw [List.map_append, List.map_singleton]
  refine h.sequences.append (List.nodup_singleton _) fun n hn hn' => ?_
  obtain ⟨f, hf, rfl⟩ := List.mem_map.mp hn
  exact (hfresh f hf).ne (List.mem_singleton.mp hn')

/-- **A buy** opens a lot that carries its commission. -/
theorem buy {fill : FillRecord} (h : Booked capital cash position fills trades lots attributions)
    (hside : fill.side = .buy) (hflow : fill.cashFlow = -(fill.quantity * fill.fillPrice + fill.commissionAmount))
    (hfresh : ∀ f ∈ fills, f.sequence < fill.sequence) :
    Booked capital (cash + fill.cashFlow) (position + fill.quantity) (fills ++ [fill]) trades (lots ++ [lotOf fill])
      attributions where
  value mark := by
    have hworth : Lot.worth mark (lotOf fill) = fill.quantity * (mark - fill.fillPrice) - fill.commissionAmount := by
      simp [Lot.worth, lotOf]
    have hvalue := h.value mark
    rw [List.map_append, List.sum_append, List.map_singleton, List.sum_singleton, hworth, hflow]
    linarith
  sequences := h.nodup_fresh hfresh
  entries := by
    rw [bookings_append_lot, List.map_append, List.filter_append, List.map_append,
      List.filter_cons_of_pos (by simpa using hside), List.filter_nil]
    exact h.entries.append_right _
  paid f hf hsell := by
    rcases List.mem_append.mp hf with hf | hf
    · exact h.paid f hf hsell
    · rw [List.mem_singleton.mp hf, hside] at hsell
      cases hsell
  costs e := by
    rw [bookings_append_lot, List.map_append, List.sum_append, h.costs e]
    simp [Lot.booking, lotOf]
  matched a ha := by
    obtain ⟨hnonneg, ⟨f, hf, hfill⟩, b, hb, hbooking⟩ := h.matched a ha
    refine ⟨hnonneg, ⟨f, List.mem_append_left _ hf, hfill⟩, b, ?_, hbooking⟩
    rw [bookings_append_lot]
    exact List.mem_append_left _ hb

/-- What was matched stays matched: the lots keep their buys and what they were sold in. -/
theorem exists_booking {fill : FillRecord} {ledger : FifoLedger} {ledger' : FifoLedger} {completed : List TradeRecord}
    (hclosed : Closed ledger fill ledger' completed lots) {b : Booking} (hb : b ∈ bookings trades ledger.lots) :
    ∃ b' ∈ bookings trades lots, b'.entry = b.entry ∧ b.exits ⊆ b'.exits := by
  rcases List.mem_append.mp hb with htrade | hlot
  · exact ⟨b, List.mem_append_left _ htrade, rfl, List.Subset.refl _⟩
  · obtain ⟨l, hl, rfl⟩ := List.mem_map.mp hlot
    obtain ⟨l', hl', hcases⟩ := Fifo.exists_consume (f := lotFifo .exact fill) (q := fill.quantity) hl
    rw [← hclosed.loop] at hl'
    refine ⟨l'.booking, List.mem_append_right _ (List.mem_map_of_mem hl'), ?_⟩
    rcases hcases with rfl | ⟨m, rfl⟩
    · exact ⟨rfl, List.Subset.refl _⟩
    · exact ⟨rfl, List.subset_append_left _ _⟩

/-- A part of the commission of a sale belongs to a lot that it was matched with. -/
theorem exists_part {fill : FillRecord} {ledger : FifoLedger} {ledger' : FifoLedger} {completed : List TradeRecord}
    (hclosed : Closed ledger fill ledger' completed lots) (hq : 0 < fill.quantity) (hcost : 0 ≤ fill.commissionAmount)
    {a : Attribution} (ha : a ∈ commissionParts fill ledger.lots) : 0 ≤ a.amount ∧ a.exit = fill.sequence ∧
      ∃ b ∈ bookings trades lots, b.entry = a.entry ∧ a.exit ∈ b.exits := by
  obtain ⟨⟨m, l⟩, hp, rfl⟩ := List.mem_map.mp ha
  obtain ⟨hpos, -, -, hexit⟩ := Fifo.mem_taken hp
  rw [← hclosed.loop] at hexit
  refine ⟨div_nonneg (mul_nonneg hcost hpos.le) hq.le, rfl, (Lot.exit .exact fill m l).booking, ?_, rfl, ?_⟩
  · exact List.mem_append_right _ (List.mem_map_of_mem hexit)
  · exact List.mem_append_right _ (List.mem_singleton_self _)

/-- **A sale** realizes what its lots give, and its commission is carried by them. -/
theorem sell {fill : FillRecord} {ledger ledger' : FifoLedger} {completed : List TradeRecord}
    (h : Booked capital cash position fills trades ledger.lots attributions)
    (hclosed : Closed ledger fill ledger' completed lots) (hside : fill.side = .sell) (hq : 0 < fill.quantity)
    (hcost : 0 ≤ fill.commissionAmount) (hflow : fill.cashFlow = fill.quantity * fill.fillPrice - fill.commissionAmount)
    (hfresh : ∀ f ∈ fills, f.sequence < fill.sequence) :
    Booked capital (cash + fill.cashFlow) (position - fill.quantity) (fills ++ [fill]) (trades ++ completed)
      ledger'.lots (attributions ++ commissionParts fill ledger.lots) where
  value mark := by
    have hvalue := h.value mark
    have hworth := hclosed.worth hq.ne' mark
    rw [List.map_append, List.sum_append, hflow]
    linarith
  sequences := h.nodup_fresh hfresh
  entries := by
    have hbuys : (fills ++ [fill]).filter (·.side = .buy) = fills.filter (·.side = .buy) := by
      rw [List.filter_append, List.filter_cons_of_neg (by simp [hside]), List.filter_nil, List.append_nil]
    have hsame : (bookings trades lots).map (fun b => (b.entry, b.entryCost)) =
        (bookings trades ledger.lots).map fun b => (b.entry, b.entryCost) := by
      rw [bookings, bookings, List.map_append, List.map_append, hclosed.map_entry]
    rw [hbuys]
    exact ((hclosed.bookings_perm trades).map _).trans (hsame ▸ h.entries)
  paid f hf hsell := by
    rw [List.map_append, List.sum_append]
    rcases List.mem_append.mp hf with hf | hf
    · have hother : ((commissionParts fill ledger.lots).map
          fun a => if a.exit = f.sequence then a.amount else 0).sum = 0 := by
        refine List.sum_eq_zero fun x hx => ?_
        obtain ⟨a, ha, rfl⟩ := List.mem_map.mp hx
        obtain ⟨-, hexit, -⟩ := @exists_part trades _ _ _ _ _ hclosed hq hcost _ ha
        rw [hexit, if_neg (hfresh f hf).ne']
      rw [hother, add_zero, h.paid f hf hsell]
    · obtain rfl := List.mem_singleton.mp hf
      have hearlier : (attributions.map fun a => if a.exit = f.sequence then a.amount else 0).sum = 0 := by
        refine List.sum_eq_zero fun x hx => ?_
        obtain ⟨a, ha, rfl⟩ := List.mem_map.mp hx
        obtain ⟨-, ⟨f', hf', -, hexit⟩, -⟩ := h.matched a ha
        rw [← hexit, if_neg (hfresh f' hf').ne]
      have hparts : ((commissionParts f ledger.lots).map fun a => if a.exit = f.sequence then a.amount else 0) =
          (commissionParts f ledger.lots).map Attribution.amount := by
        refine List.map_congr_left fun a ha => ?_
        obtain ⟨-, hexit, -⟩ := @exists_part trades _ _ _ _ _ hclosed hq hcost _ ha
        rw [if_pos hexit]
      rw [hearlier, zero_add, hparts, hclosed.sum_commissionParts hq.ne']
  costs e := by
    have hbookings := ((hclosed.bookings_perm trades).map fun b => if b.entry = e then b.exitCost else 0).sum_eq
    have hcosts := h.costs e
    rw [bookings, List.map_append, List.sum_append] at hcosts
    rw [hbookings, bookings, List.map_append, List.sum_append, hclosed.sum_exitCost e, List.map_append, List.sum_append,
      ← hcosts, add_assoc]
  matched a ha := by
    rcases List.mem_append.mp ha with ha | ha
    · obtain ⟨hnonneg, ⟨f, hf, hfill⟩, b, hb, hentry, hexit⟩ := h.matched a ha
      obtain ⟨b', hb', hentry', hexits⟩ := exists_booking hclosed hb
      refine ⟨hnonneg, ⟨f, List.mem_append_left _ hf, hfill⟩, b', ?_, hentry'.trans hentry, hexits hexit⟩
      exact (hclosed.bookings_perm trades).mem_iff.mpr hb'
    · obtain ⟨hnonneg, hexit, b, hb, hbooking⟩ := @exists_part trades _ _ _ _ _ hclosed hq hcost _ ha
      refine ⟨hnonneg, ⟨fill, List.mem_append_right _ (List.mem_singleton_self _), hside, hexit.symm⟩, b, ?_, hbooking⟩
      exact (hclosed.bookings_perm trades).mem_iff.mpr hb

/-- **A fill** that the ledger books is in the books. -/
theorem fill {fill : FillRecord} {ledger ledger' : FifoLedger} {completed : List TradeRecord} {side : IntentSide}
    (h : Booked capital cash position fills trades ledger.lots attributions) (hledger : ledger.Sound)
    (hposition : position = ledger.openQuantity) (hside : fill.side = side) (hq : 0 < fill.quantity)
    (hle : side = .sell → fill.quantity ≤ position) (hcost : 0 ≤ fill.commissionAmount)
    (hflow : fill.cashFlow = cashFlow .exact side (fill.quantity * fill.fillPrice) fill.commissionAmount)
    (hfresh : ∀ f ∈ fills, f.sequence < fill.sequence)
    (hbook : bookFill .exact side ledger fill = .ok (ledger', completed)) :
    ∃ attributions', Booked capital (cash + fill.cashFlow) (newPosition .exact side position fill.quantity)
      (fills ++ [fill]) (trades ++ completed) ledger'.lots attributions' := by
  cases side with
  | buy =>
    rw [bookFill, openLot_eq hside] at hbook
    cases hbook
    rw [List.append_nil]
    exact ⟨attributions, h.buy hside hflow hfresh⟩
  | sell =>
    obtain ⟨ledger'', completed', lots, hclose, hclosed⟩ := closed_exact hledger hside hq (hposition ▸ hle rfl)
    rw [bookFill, hclose] at hbook
    cases hbook
    exact ⟨_, h.sell hclosed hside hq hcost hflow hfresh⟩

end Booked

/-! ### The books of a run -/

/-- The books of a state; the fills to come have later sequences. -/
structure SimState.Kept (capital : ℚ) (s : SimState) (attributions : List Attribution) : Prop where
  books : Booked capital s.cash s.position (fillsOf s.outcomes) s.trades s.ledger.lots attributions
  fresh : ∀ f ∈ fillsOf s.outcomes, f.sequence < s.sequence

/-- **A step keeps the books.** -/
theorem SimState.Kept.step {capital : ℚ} {n : ℕ} {costModel : CostModel} {s s' : SimState} {a : SimStep}
    {rest : List SimStep} {attributions : List Attribution} (h : s.Kept capital attributions) (hb : s.Balanced)
    (ha : s.Accounted capital n (a :: rest)) (hstep : Stepped .exact costModel s a s') :
    ∃ attributions', s'.Kept capital attributions' := by
  have hnone : ∀ i, a.index = some i → s.outcomes[i]? = some none := fun i hi =>
    (ha.pending i).mpr (List.mem_filterMap.mpr ⟨a, List.mem_cons_self, hi⟩)
  cases hstep with
  | @unfilled k record e reason =>
    have hfills := fillsOf_set (hnone e.index rfl) ⟨e.index, .unfilled reason⟩
    rw [FillOutcome.fill, Option.toList_none, List.append_nil] at hfills
    exact ⟨attributions, h.books.perm hfills.symm, fun f hf => h.fresh f (hfills.mem_iff.mp hf)⟩
  | @filled k record e fill ledger completed hfill hbook =>
    have hfills := fillsOf_set (hnone e.index rfl) ⟨e.index, .filled fill⟩
    have hsequence : fill.sequence = s.sequence := hfill.sequence_eq
    have hq : fill.quantity = e.intent.quantity := hfill.quantity
    have hflow : fill.cashFlow = cashFlow .exact e.intent.side (fill.quantity * fill.fillPrice) fill.commissionAmount := by
      rw [hfill.flow, hfill.grossValue, hfill.side, Ctx.fix_exact]
    have hcost : 0 ≤ fill.commissionAmount := hfill.commission ▸ costModel.commission_nonneg
    obtain ⟨attributions', hbooks⟩ := h.books.fill hb.ledger hb.position_eq hfill.side (hq ▸ e.intent.quantity_pos)
      (hq ▸ hfill.position_le) hcost hflow (hsequence ▸ h.fresh) hbook
    rw [hq] at hbooks
    refine ⟨attributions', hbooks.perm hfills.symm, fun f hf => ?_⟩
    rcases List.mem_append.mp (hfills.mem_iff.mp hf) with hf | hf
    · exact (h.fresh f hf).trans (Nat.lt_succ_self _)
    · rw [List.mem_singleton.mp hf, hsequence]
      exact Nat.lt_succ_self _
  | marked hprice => exact ⟨attributions, h.books, h.fresh⟩

section Run

variable {inputs : BacktestInput} {intents : List OrderIntent} {costModel : CostModel} {initialCapital : ℚ}

theorem kept_start (h : Ascending intents) :
    ∃ attributions, (startOf inputs.records intents initialCapital).Kept initialCapital attributions := by
  have hfills : fillsOf (startOf inputs.records intents initialCapital).outcomes = [] := fillsOf_start h initialCapital
  refine ⟨[], ?_, ?_⟩
  · rw [hfills]
    exact Booked.empty initialCapital
  · rw [hfills]
    simp

/-- The books at the end of a run. -/
theorem kept_run {r : BacktestRun} {s : SimState} (h : Ran .exact inputs intents costModel initialCapital r s) :
    s.Balanced ∧ ∃ attributions, s.Kept initialCapital attributions := by
  have hinvariant : ∀ (s : SimState) (a : SimStep) (rest : List SimStep) (s' : SimState),
      (Holds initialCapital intents.length s (a :: rest) ∧ ∃ attributions, s.Kept initialCapital attributions) →
      simStep .exact costModel s a = .ok s' →
      Holds initialCapital intents.length s' rest ∧ ∃ attributions, s'.Kept initialCapital attributions := by
    rintro s a rest s' ⟨hs, attributions, hkept⟩ hstep
    exact ⟨hs.step hstep, hkept.step hs.1 hs.2 (stepped hstep)⟩
  have hstart := @holds_start _ _ inputs.records h.capital_pos h.ascending
  rw [← List.append_nil (stepsOf inputs.records intents)] at hstart
  obtain ⟨hholds, hkept⟩ := invariant_rest (I := fun s rest =>
    Holds initialCapital intents.length s rest ∧ ∃ attributions, s.Kept initialCapital attributions) hinvariant
    ⟨hstart, kept_start h.ascending⟩ h.ended
  exact ⟨hholds.1, hkept⟩

end Run

/-! ### The result -/

/-- The fills of a run. -/
def BacktestRun.fills (r : BacktestRun) : List FillRecord := r.outcomes.filterMap FillOutcome.fill

/-- Every commission is attributed to the trades exactly once: that of a buy to its one trade, that of a sale in parts to
the trades that it was matched with. -/
structure Attributed (fills : List FillRecord) (trades : List TradeRecord) (attributions : List Attribution) : Prop where
  sequences : (fills.map FillRecord.sequence).Nodup
  buys : (trades.map fun t => (t.entryFillSequence, t.entryCost)).Perm
    ((fills.filter (·.side = .buy)).map fun f => (f.sequence, f.commissionAmount))
  sales : ∀ f ∈ fills, f.side = .sell →
    ((attributions.filter (·.exit = f.sequence)).map Attribution.amount).sum = f.commissionAmount
  exitCosts : ∀ t ∈ trades,
    ((attributions.filter (·.entry = t.entryFillSequence)).map Attribution.amount).sum = t.exitCost
  matched : ∀ a ∈ attributions, 0 ≤ a.amount ∧ (∃ f ∈ fills, f.side = .sell ∧ f.sequence = a.exit) ∧
    ∃ t ∈ trades, t.entryFillSequence = a.entry ∧ a.exit ∈ t.exitFillSequences

theorem sum_filter {α : Type} (p : α → Prop) [DecidablePred p] (f : α → ℚ) (l : List α) :
    ((l.filter p).map f).sum = (l.map fun a => if p a then f a else 0).sum := by
  rw [List.sum_map_ite]
  simp

/-- The books when no lot is open. -/
theorem Booked.attributed {capital cash position : ℚ} {fills : List FillRecord} {trades : List TradeRecord}
    {attributions : List Attribution} (h : Booked capital cash position fills trades [] attributions) :
    Attributed fills trades attributions := by
  have hbookings : bookings trades [] = trades.map TradeRecord.booking := List.append_nil _
  have hentries : (trades.map fun t => (t.entryFillSequence, t.entryCost)).Perm
      ((fills.filter (·.side = .buy)).map fun f => (f.sequence, f.commissionAmount)) := by
    have hperm := h.entries
    rw [hbookings, List.map_map] at hperm
    exact hperm
  refine ⟨h.sequences, hentries, fun f hf hside => ?_, fun t ht => ?_, fun a ha => ?_⟩
  · rw [sum_filter]
    exact h.paid f hf hside
  · have hnodup : (trades.map TradeRecord.entryFillSequence).Nodup := by
      have hfirst := (hentries.map Prod.fst).nodup_iff
      rw [List.map_map, List.map_map] at hfirst
      exact hfirst.mpr (h.sequences.sublist (List.filter_sublist.map _))
    have hsingle : (trades.map fun t' =>
        if t'.entryFillSequence = t.entryFillSequence then t'.exitCost else 0).sum = t.exitCost := by
      rw [List.sum_map_eq_nsmul_single t _ fun t' hne ht' =>
          if_neg fun heq => hne (List.inj_on_of_nodup_map hnodup ht' ht heq),
        List.count_eq_one_of_mem hnodup.of_map ht, if_pos rfl, one_nsmul]
    have hcosts := h.costs t.entryFillSequence
    rw [hbookings, List.map_map] at hcosts
    rw [sum_filter, ← hcosts]
    exact hsingle
  · obtain ⟨hnonneg, hfill, b, hb, hbooking⟩ := h.matched a ha
    rw [hbookings] at hb
    obtain ⟨t, ht, rfl⟩ := List.mem_map.mp hb
    exact ⟨hnonneg, hfill, t, ht, hbooking⟩

/-- A sound ledger with nothing left has no lots. -/
theorem FifoLedger.Sound.lots_eq_nil {ledger : FifoLedger} (h : ledger.Sound) (hzero : ledger.openQuantity = 0) :
    ledger.lots = [] := by
  cases hlots : ledger.lots with
  | nil => rfl
  | cons l ls =>
    have hpos : ∀ k ∈ l :: ls, 0 < k.remainingQuantity := hlots ▸ h.pos
    have hrest : 0 ≤ (ls.map Lot.remainingQuantity).sum := List.sum_nonneg fun x hx => by
      obtain ⟨k, hk, rfl⟩ := List.mem_map.mp hx
      exact (hpos k (List.mem_cons_of_mem _ hk)).le
    have hfirst : 0 < l.remainingQuantity := hpos l List.mem_cons_self
    rw [FifoLedger.openQuantity, hlots, List.map_cons, List.sum_cons] at hzero
    linarith

/-- The worth of lots in its three parts. -/
theorem sum_worth (mark : ℚ) (lots : List Lot) : (lots.map (Lot.worth mark)).sum =
    (lots.map Lot.realizedTotal).sum + (lots.map fun l => l.remainingQuantity * (mark - l.entryPrice)).sum -
      (lots.map fun l => l.entryCost - l.entryCostUsed).sum := by
  induction lots with
  | nil => simp
  | cons l ls ih =>
    simp only [List.map_cons, List.sum_cons, ih, Lot.worth]
    ring

/-- **What the final equity is made of.**  When the run ends flat it is the capital and what the trades realized, and
every commission is attributed to the trades. -/
theorem equity_realized (inputs : BacktestInput) (intents : List OrderIntent) (costModel : CostModel)
    (initialCapital : ℚ) (r : BacktestRun) (h : runBacktest .exact inputs intents costModel initialCapital = .ok r) :
    ∃ s record mark,
      run (simStep .exact costModel) (startOf inputs.records intents initialCapital) (stepsOf inputs.records intents) =
        .ok s ∧
      inputs.records.getLast? = some record ∧ markPrice .engine record = .ok mark ∧
      r.finalEquity - initialCapital = (r.trades.map TradeRecord.realizedPnl).sum +
        (s.ledger.lots.map Lot.realizedTotal).sum +
        (s.ledger.lots.map fun l => l.remainingQuantity * (mark - l.entryPrice)).sum -
        (s.ledger.lots.map fun l => l.entryCost - l.entryCostUsed).sum ∧
      (s.position = 0 → (r.trades.map TradeRecord.realizedPnl).sum = r.finalEquity - initialCapital ∧
        ∃ attributions, Attributed r.fills r.trades attributions) := by
  obtain ⟨s, hran⟩ := ran h
  obtain ⟨record, mark, hlast, hmark, hfinal⟩ := hran.finalEquity
  obtain ⟨hbalanced, attributions, hkept⟩ := kept_run hran
  have hvalue := hkept.books.value mark
  have hequity : r.finalEquity = s.cash + s.position * mark := by
    rw [hfinal, Ctx.fix_exact, Ctx.fix_exact]
  rw [← hequity, ← hran.trades, sum_worth] at hvalue
  refine ⟨s, record, mark, hran.ended, hlast, hmark, by linarith, fun hflat => ?_⟩
  have hlots : s.ledger.lots = [] := hbalanced.ledger.lots_eq_nil (hbalanced.position_eq ▸ hflat)
  have hfills : fillsOf s.outcomes = r.fills := by
    rw [hran.outcomes, fillsOf, List.filterMap_map]
    rfl
  have hbooks := hkept.books
  rw [hlots, hfills, ← hran.trades] at hbooks
  refine ⟨?_, attributions, hbooks.attributed⟩
  rw [hlots] at hvalue
  simp only [List.map_nil, List.sum_nil] at hvalue
  linarith

/-- Two are bought and sold again. -/
def flatIntents : List OrderIntent := [sampleIntent .buy 1 0, sampleIntent .sell 1 1]

theorem flat_accepted : ∃ r, runBacktest .exact sampleInput flatIntents sampleCosts 1000 = .ok r :=
  exists_ok (by decide +kernel)

theorem equity_realized_flat : ∃ r, runBacktest .exact sampleInput flatIntents sampleCosts 1000 = .ok r ∧
    ∃ s record mark,
      run (simStep .exact sampleCosts) (startOf sampleRecords flatIntents 1000) (stepsOf sampleRecords flatIntents) =
        .ok s ∧
      sampleRecords.getLast? = some record ∧ markPrice .engine record = .ok mark ∧
      r.finalEquity - 1000 = (r.trades.map TradeRecord.realizedPnl).sum +
        (s.ledger.lots.map Lot.realizedTotal).sum +
        (s.ledger.lots.map fun l => l.remainingQuantity * (mark - l.entryPrice)).sum -
        (s.ledger.lots.map fun l => l.entryCost - l.entryCostUsed).sum ∧
      (s.position = 0 → (r.trades.map TradeRecord.realizedPnl).sum = r.finalEquity - 1000 ∧
        ∃ attributions, Attributed r.fills r.trades attributions) := by
  obtain ⟨r, hr⟩ := flat_accepted
  exact ⟨r, hr, equity_realized sampleInput flatIntents sampleCosts 1000 r hr⟩

end AlphaAlgo.Backtest
