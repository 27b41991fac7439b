import AlphaAlgo.Backtest.Matchings
import AlphaAlgo.Backtest.Pricing

/-!
# RoundTrips — what every fill and every completed trade of a run is

The run computes with 28 digits, so the sale price of a market intent can be rounded to 0; all other prices of a run are
positive.

* `sound_of_run`, `sorted_fills`: the fills, in the order of their records.
* `Lot.Kept.exit`, `kept_replay`: what the lots and the trades keep, over any list of such fills.
* `trades_kept`: the trades of a run.
-/

namespace AlphaAlgo.Backtest

open Loop

/-! ### The fills of a run -/

/-- What holds of every fill. -/
structure FillRecord.Sound (f : FillRecord) : Prop where
  quantity_pos : 0 < f.quantity
  price_nonneg : 0 ≤ f.fillPrice
  buy_pos : f.side = .buy → 0 < f.fillPrice
  commission_nonneg : 0 ≤ f.commissionAmount
  slippage_nonneg : 0 ≤ f.slippagePerShare
  aware : f.filledAt.aware = true

/-- The share of the slippage is not rounded to the whole price. -/
def CostModel.Partial (costModel : CostModel) : Prop := Ctx.default.fix (costModel.slippageBps / 10000) < 1

theorem fix_pos {x : ℚ} (h : 0 < x) : 0 < Ctx.default.fix x := Ctx.fix_pos (p := 28) (by norm_num) h

theorem fix_one : Ctx.default.fix 1 = 1 := by
  have hfix := @fix_natCast 1 (by norm_num)
  rwa [Nat.cast_one] at hfix

/-- The price of a market intent. -/
theorem applySlippage_signs {costModel : CostModel} {anchor price : ℚ} {side : IntentSide} (hanchor : 0 < anchor)
    (h : applySlippage .default anchor side costModel.slippageBps = .ok price) :
    0 ≤ price ∧ (side = .buy → 0 < price) ∧ (costModel.Partial → 0 < price) := by
  rcases costModel.bps_nonneg.eq_or_lt with hzero | hbps
  · rw [← hzero, applySlippage_zero hanchor] at h
    cases h
    exact ⟨hanchor.le, fun _ => hanchor, fun _ => hanchor⟩
  · have hlt := costModel.bps_lt
    rw [applySlippage_eq hanchor hbps hlt] at h
    cases h
    have hshare : 0 ≤ Ctx.default.fix (costModel.slippageBps / 10000) := fix_nonneg (by positivity)
    cases side with
    | buy =>
      have hfactor : 0 < slippageFactor .buy costModel.slippageBps := fix_pos (by linarith)
      have hprice := fix_pos (mul_pos hanchor hfactor)
      exact ⟨hprice.le, fun _ => hprice, fun _ => hprice⟩
    | sell =>
      have hwhole : Ctx.default.fix (costModel.slippageBps / 10000) ≤ 1 := by
        have hle := fix_le_fix (show costModel.slippageBps / 10000 ≤ 1 by linarith)
        rwa [fix_one] at hle
      have hfactor : 0 ≤ slippageFactor .sell costModel.slippageBps := fix_nonneg (sub_nonneg.mpr hwhole)
      refine ⟨fix_nonneg (mul_nonneg hanchor.le hfactor), fun hside => absurd hside (by decide), fun hpartial => ?_⟩
      exact fix_pos (mul_pos hanchor (fix_pos (sub_pos.mpr hpartial)))

theorem priceAt_signs {intent : OrderIntent} {costModel : CostModel} {anchor price : ℚ} (hanchor : 0 < anchor)
    (h : priceAt .default intent costModel anchor = .ok price) :
    0 ≤ price ∧ (intent.side = .buy → 0 < price) ∧ (costModel.Partial → 0 < price) := by
  cases htype : intent.orderType with
  | market =>
    rw [priceAt_market htype] at h
    exact applySlippage_signs hanchor h
  | limit =>
    rw [priceAt_limit htype] at h
    cases h
    exact ⟨hanchor.le, fun _ => hanchor, fun _ => hanchor⟩

section Run

variable {inputs : BacktestInput} {intents : List OrderIntent} {costModel : CostModel} {initialCapital : ℚ}
  {r : BacktestRun}

/-- The intent and the record of a fill. -/
theorem exists_admitted {s : SimState} (hran : Ran .default inputs intents costModel initialCapital r s) {i : ℕ}
    {o : FillOutcome} {f : FillRecord} (ho : r.outcomes[i]? = some o) (hfill : o.fill = some f) :
    ∃ intent record cash position sequence, intents[i]? = some intent ∧
      inputs.records[anchorOf inputs.records intent.decidedAt]? = some record ∧
      Admitted .default intent record (anchorOf inputs.records intent.decidedAt) cash position costModel sequence i f := by
  rcases explained hran ho with rfl | ⟨intent, k, record, cash, position, sequence, e, hintent, hrecord, rfl, heval, rfl⟩
  · cases hfill
  · refine ⟨intent, record, cash, position, sequence, hintent, hrecord, ?_⟩
    cases evaluated heval with
    | unfilled reason => cases hfill
    | filled hadmitted =>
      cases hfill
      exact hadmitted

/-- **Every fill of a run.** -/
theorem sound_of_run (h : runBacktest .default inputs intents costModel initialCapital = .ok r) {f : FillRecord}
    (hf : f ∈ r.fills) : f.Sound ∧ (costModel.Partial → 0 < f.fillPrice) := by
  obtain ⟨s, hran⟩ := ran h
  obtain ⟨o, ho, hfill⟩ := List.mem_filterMap.mp hf
  obtain ⟨i, hi⟩ := List.mem_iff_getElem?.mp ho
  obtain ⟨intent, record, cash, position, sequence, -, hrecord, hadmitted⟩ := exists_admitted hran hi hfill
  obtain ⟨first, rest, -, hfits⟩ := inputs.exists_first
  obtain ⟨previous, hfit⟩ := FitsFrom.fits hfits record (List.mem_of_getElem? hrecord)
  obtain ⟨anchor, price, -, hanchor, hprice, rfl⟩ := hadmitted.made
  obtain ⟨hnonneg, hbuy, hpartial⟩ := priceAt_signs hanchor hprice
  exact ⟨⟨intent.quantity_pos, hnonneg, hbuy, costModel.commission_nonneg, fix_nonneg (abs_nonneg _), hfit.aware⟩,
    hpartial⟩

/-- **The fills are in the order of their records.** -/
theorem sorted_fills (h : runBacktest .default inputs intents costModel initialCapital = .ok r) :
    r.fills.Pairwise fun f g => f.filledAt.instant ≤ g.filledAt.instant := by
  obtain ⟨s, hran⟩ := ran h
  show (r.outcomes.filterMap FillOutcome.fill).Pairwise _
  rw [List.pairwise_filterMap, List.pairwise_iff_getElem]
  intro i j hi hj hij f hf g hg
  obtain ⟨intent, record, _, _, _, hintent, hrecord, hadmitted⟩ :=
    exists_admitted hran (List.getElem?_eq_getElem hi) hf
  obtain ⟨intent', record', _, _, _, hintent', hrecord', hadmitted'⟩ :=
    exists_admitted hran (List.getElem?_eq_getElem hj) hg
  obtain ⟨hi', hget⟩ := List.getElem?_eq_some_iff.mp hintent
  obtain ⟨hj', hget'⟩ := List.getElem?_eq_some_iff.mp hintent'
  have hdecided := List.pairwise_iff_getElem.mp (ascending_iff_pairwise.mp hran.ascending) i j hi' hj' hij
  rw [hget, hget'] at hdecided
  have hanchor := anchorOf_mono inputs.records hdecided.le
  obtain ⟨hk, hat⟩ := List.getElem?_eq_some_iff.mp hrecord
  obtain ⟨hk', hat'⟩ := List.getElem?_eq_some_iff.mp hrecord'
  obtain ⟨_, _, -, -, -, rfl⟩ := hadmitted.made
  obtain ⟨_, _, -, -, -, rfl⟩ := hadmitted'.made
  show record.timestamp.instant ≤ record'.timestamp.instant
  rcases hanchor.eq_or_lt with heq | hlt
  · rw [← hat, ← hat']
    simp only [heq, le_refl]
  · have hrecords := List.pairwise_iff_getElem.mp inputs.ascending _ _ hk hk' hlt
    rw [hat, hat'] at hrecords
    exact hrecords.le

end Run

/-! ### The lots and the trades -/

/-- A buy, and sales after it. -/
def RoundTrip (fills : List FillRecord) (entry : ℕ) (exits : List ℕ) : Prop :=
  ∃ buy ∈ fills, buy.sequence = entry ∧ buy.side = .buy ∧ ∀ n ∈ exits,
    ∃ sale ∈ fills, sale.sequence = n ∧ sale.side = .sell ∧ buy.filledAt.instant ≤ sale.filledAt.instant

theorem RoundTrip.mono {fills fills' : List FillRecord} {entry : ℕ} {exits : List ℕ} (hsub : fills ⊆ fills')
    (h : RoundTrip fills entry exits) : RoundTrip fills' entry exits := by
  obtain ⟨buy, hbuy, hentry, hside, hexits⟩ := h
  refine ⟨buy, hsub hbuy, hentry, hside, fun n hn => ?_⟩
  obtain ⟨sale, hsale, hrest⟩ := hexits n hn
  exact ⟨sale, hsub hsale, hrest⟩

/-- What a lot keeps while the fills are booked. -/
structure Lot.Kept (fills : List FillRecord) (l : Lot) : Prop where
  entry_pos : 0 < l.entryPrice
  total_pos : 0 < l.totalQuantity
  unsold : l.exitFillSequences = [] → 0 < l.remainingQuantity
  entryCost_nonneg : 0 ≤ l.entryCost
  entryUsed_nonneg : 0 ≤ l.entryCostUsed
  exitUsed_nonneg : 0 ≤ l.exitCostUsed
  sum_nonneg : 0 ≤ l.weightedExitSum
  sum_pos : (∀ f ∈ fills, 0 < f.fillPrice) → l.exitFillSequences ≠ [] → 0 < l.weightedExitSum
  roundTrip : RoundTrip fills l.entryFillSequence l.exitFillSequences

/-- What a completed trade is. -/
structure TradeRecord.Kept (fills : List FillRecord) (t : TradeRecord) : Prop where
  entry_pos : 0 < t.entryPrice
  quantity_pos : 0 < t.quantity
  exit_nonneg : 0 ≤ t.exitPrice
  exit_pos : (∀ f ∈ fills, 0 < f.fillPrice) → 0 < t.exitPrice
  entryCost_nonneg : 0 ≤ t.entryCost
  exitCost_nonneg : 0 ≤ t.exitCost
  exits_ne_nil : t.exitFillSequences ≠ []
  roundTrip : RoundTrip fills t.entryFillSequence t.exitFillSequences

section Replay

variable {fills fills' : List FillRecord} {fill : FillRecord} {l : Lot} {b b' : Books}

theorem Lot.Kept.mono (hsub : fills ⊆ fills') (h : l.Kept fills) : l.Kept fills' :=
  { h with
    sum_pos := fun hpos => h.sum_pos fun f hf => hpos f (hsub hf)
    roundTrip := h.roundTrip.mono hsub }

theorem TradeRecord.Kept.mono {t : TradeRecord} (hsub : fills ⊆ fills') (h : t.Kept fills) : t.Kept fills' :=
  { h with
    exit_pos := fun hpos => h.exit_pos fun f hf => hpos f (hsub hf)
    roundTrip := h.roundTrip.mono hsub }

theorem kept_lotOf (hfill : fill ∈ fills) (hsound : fill.Sound) (hside : fill.side = .buy) : (lotOf fill).Kept fills where
  entry_pos := hsound.buy_pos hside
  total_pos := hsound.quantity_pos
  unsold _ := hsound.quantity_pos
  entryCost_nonneg := hsound.commission_nonneg
  entryUsed_nonneg := le_rfl
  exitUsed_nonneg := le_rfl
  sum_nonneg := le_rfl
  sum_pos _ h := absurd rfl h
  roundTrip := ⟨fill, hfill, rfl, hside, fun _ hn => absurd hn List.not_mem_nil⟩

/-- **A sale out of a lot**, after all other fills. -/
theorem Lot.Kept.exit (h : l.Kept fills) (hfill : fill ∈ fills) (hsound : fill.Sound) (hside : fill.side = .sell)
    (hlast : ∀ f ∈ fills, f.filledAt.instant ≤ fill.filledAt.instant) {m : ℚ} (hm : 0 < m) :
    (l.exit .default fill m).Kept fills where
  entry_pos := h.entry_pos
  total_pos := h.total_pos
  unsold hnil := absurd hnil (List.append_ne_nil_of_right_ne_nil _ (List.cons_ne_nil _ _))
  entryCost_nonneg := h.entryCost_nonneg
  entryUsed_nonneg := by
    have hshare : 0 ≤ l.entryShare .default m :=
      fix_nonneg (div_nonneg (fix_nonneg (mul_nonneg h.entryCost_nonneg hm.le)) h.total_pos.le)
    exact fix_nonneg (add_nonneg h.entryUsed_nonneg hshare)
  exitUsed_nonneg := by
    have hshare : 0 ≤ exitShare .default fill m :=
      fix_nonneg (div_nonneg (fix_nonneg (mul_nonneg hsound.commission_nonneg hm.le)) hsound.quantity_pos.le)
    exact fix_nonneg (add_nonneg h.exitUsed_nonneg hshare)
  sum_nonneg := fix_nonneg (add_nonneg h.sum_nonneg (fix_nonneg (mul_nonneg hsound.price_nonneg hm.le)))
  sum_pos hpos _ := fix_pos (add_pos_of_nonneg_of_pos h.sum_nonneg (fix_pos (mul_pos (hpos fill hfill) hm)))
  roundTrip := by
    obtain ⟨buy, hbuy, hentry, hbuys, hexits⟩ := h.roundTrip
    refine ⟨buy, hbuy, hentry, hbuys, List.forall_mem_append.mpr ⟨hexits, List.forall_mem_singleton.mpr ?_⟩⟩
    exact ⟨fill, hfill, rfl, hside, hlast buy hbuy⟩

/-- A lot with nothing left. -/
theorem Lot.Kept.trade (h : l.Kept fills) (hempty : l.remainingQuantity = 0) (n : ℕ) :
    (l.trade .default n).Kept fills := by
  have hexits : l.exitFillSequences ≠ [] := fun hnil => (h.unsold hnil).ne' hempty
  exact
    { entry_pos := h.entry_pos
      quantity_pos := h.total_pos
      exit_nonneg := fix_nonneg (div_nonneg h.sum_nonneg h.total_pos.le)
      exit_pos := fun hpos => fix_pos (div_pos (h.sum_pos hpos hexits) h.total_pos)
      entryCost_nonneg := h.entryUsed_nonneg
      exitCost_nonneg := h.exitUsed_nonneg
      exits_ne_nil := hexits
      roundTrip := h.roundTrip }

/-- What the books keep. -/
structure Books.Kept (fills : List FillRecord) (b : Books) : Prop where
  open_pos : ∀ l ∈ b.ledger.lots, 0 < l.remainingQuantity
  lots : ∀ l ∈ b.ledger.lots, l.Kept fills
  trades : ∀ t ∈ b.trades, t.Kept fills

theorem Books.Kept.next (h : b.Kept fills) (hsound : fill.Sound)
    (hlast : ∀ f ∈ fills, f.filledAt.instant ≤ fill.filledAt.instant) (hnext : b.next .default fill = .ok b') :
    b'.Kept (fills ++ [fill]) := by
  have hsub : fills ⊆ fills ++ [fill] := List.subset_append_left _ _
  have hmem : fill ∈ fills ++ [fill] := by simp
  have hold : ∀ l ∈ b.ledger.lots, l.Kept (fills ++ [fill]) := fun l hl => (h.lots l hl).mono hsub
  have htrades : ∀ t ∈ b.trades, t.Kept (fills ++ [fill]) := fun t ht => (h.trades t ht).mono hsub
  cases hside : fill.side with
  | buy =>
    rw [Linked.next_buy hside] at hnext
    cases hnext
    refine ⟨?_, ?_, htrades⟩
    · exact List.forall_mem_append.mpr ⟨h.open_pos, List.forall_mem_singleton.mpr hsound.quantity_pos⟩
    · exact List.forall_mem_append.mpr ⟨hold, List.forall_mem_singleton.mpr (kept_lotOf hmem hsound hside)⟩
  | sell =>
    obtain ⟨⟨ledger, completed⟩, hbook, rfl⟩ := map_eq_ok.mp hnext
    rw [hside] at hbook
    obtain ⟨hopen, hcompleted⟩ := closeLots_ok h.open_pos hbook
    have hlast' : ∀ f ∈ fills ++ [fill], f.filledAt.instant ≤ fill.filledAt.instant :=
      List.forall_mem_append.mpr ⟨hlast, List.forall_mem_singleton.mpr le_rfl⟩
    have hafter : ∀ l ∈ lotsAfter .default b.ledger fill, l.Kept (fills ++ [fill]) :=
      Fifo.forall_consume (fun m l hm _ hl => Lot.Kept.exit hl hmem hsound hside hlast' hm) _ _ hold
    refine ⟨?_, ?_, ?_⟩
    · show ∀ l ∈ ledger.lots, _
      rw [hopen]
      exact fun l hl => of_decide_eq_true (List.mem_filter.mp hl).2
    · show ∀ l ∈ ledger.lots, _
      rw [hopen]
      exact fun l hl => hafter l (List.mem_of_mem_filter hl)
    · refine List.forall_mem_append.mpr ⟨htrades, fun t ht => ?_⟩
      rw [hcompleted] at ht
      obtain ⟨p, hp, rfl⟩ := List.mem_map.mp ht
      obtain ⟨hl, hempty⟩ := List.mem_filter.mp (List.fst_mem_of_mem_zipIdx hp)
      exact (hafter p.1 hl).trade (of_decide_eq_true hempty) p.2

/-- **Lots and trades** after any list of sound fills in the order of time. -/
theorem kept_replay (hsound : ∀ f ∈ fills, f.Sound)
    (hsorted : fills.Pairwise fun f g => f.filledAt.instant ≤ g.filledAt.instant) (h : replay .default fills = .ok b) :
    b.Kept fills := by
  induction fills using List.reverseRecOn generalizing b with
  | nil =>
    cases h
    exact ⟨by simp, by simp, by simp⟩
  | append_singleton fills fill ih =>
    obtain ⟨b₁, hb₁, hlast⟩ := run_append_ok.mp h
    obtain ⟨b₂, hnext, hnil⟩ := run_cons_ok.mp hlast
    cases hnil
    obtain ⟨hfills, -, hbefore⟩ := List.pairwise_append.mp hsorted
    have hold := ih (fun f hf => hsound f (List.mem_append_left _ hf)) hfills hb₁
    exact hold.next (hsound fill (by simp)) (fun f hf => hbefore f hf fill (by simp)) hnext

end Replay

/-- **The trades of a run**; with a slippage below the whole price their exit prices are positive. -/
theorem trades_kept {inputs : BacktestInput} {intents : List OrderIntent} {costModel : CostModel} {initialCapital : ℚ}
    {r : BacktestRun} (h : runBacktest .default inputs intents costModel initialCapital = .ok r) {t : TradeRecord}
    (ht : t ∈ r.trades) : t.Kept r.fills ∧ (costModel.Partial → 0 < t.exitPrice) := by
  obtain ⟨-, b, hb, htrades⟩ := exists_replay h
  have hkept := (kept_replay (fun f hf => (sound_of_run h hf).1) (sorted_fills h) hb).trades t (htrades ▸ ht)
  exact ⟨hkept, fun hpartial => hkept.exit_pos fun f hf => (sound_of_run h hf).2 hpartial⟩

end AlphaAlgo.Backtest
