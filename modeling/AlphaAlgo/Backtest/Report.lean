import AlphaAlgo.Backtest.Drawdown
import AlphaAlgo.Backtest.Matchings

/-!
# Report — the reconstructed trades and their slippage

`buildTradeReconstructions` joins the completed trades of a run with its fills.  The exit slippage of a trade is taken
from the whole exit fills, unless another completed trade shares one of them.

* `exitSlippage_eq`: it is that of the matched quantities when the exit fills are matched to the trade in full.
* `attributed_le`: without rounding the trades are never attributed more than the run's slippage.
* `exitSlippage_iff`: without rounding these are the runs whose exit slippage is that of the matched quantities.
-/

namespace AlphaAlgo.Backtest

open Loop

/-! ### The reconstruction -/

/-- The fields of a reconstructed trade; the fields that are always `None` are left out. -/
structure TradeRow where
  tradeId : ℕ
  side : String
  symbol : Option String
  timeframe : Option String
  entryTimestamp : DateTime
  entryPrice : ℚ
  exitTimestamp : DateTime
  exitPrice : ℚ
  quantity : ℚ
  entryLabel : Option String
  exitLabel : Option String
  grossPnl : ℚ
  netPnl : ℚ
  fees : ℚ
  entrySlippage : ℚ
  exitSlippage : Option ℚ
  slippage : Option ℚ

/-- The check of a field that must be positive. -/
def requirePositive (name : String) (value : ℚ) : Except ReportError Unit :=
  raiseIf (value ≤ 0) (.report ("TradeReconstruction." ++ name ++ " must be a positive finite Decimal"))

def requireNonneg (name : String) (value : ℚ) : Except ReportError Unit :=
  raiseIf (value < 0) (.report ("TradeReconstruction." ++ name ++ " must be a non-negative finite Decimal"))

def requireOptional (name : String) (value : Option ℚ) : Except ReportError Unit :=
  raiseIf (∃ x ∈ value, x < 0)
    (.report ("TradeReconstruction." ++ name ++ " must be a non-negative finite Decimal or None"))

def requireAware (name : String) (value : DateTime) : Except ReportError Unit :=
  raiseIf (value.aware = false) (.report ("TradeReconstruction." ++ name ++ " must be timezone-aware"))

/-- `TradeReconstruction.__post_init__`. -/
def TradeRow.check (t : TradeRow) : Except ReportError Unit := do
  raiseIf (t.side = "") (.report "TradeReconstruction.side must be a non-empty string")
  requireAware "entry_timestamp" t.entryTimestamp
  requireAware "exit_timestamp" t.exitTimestamp
  raiseIf (t.exitTimestamp.instant < t.entryTimestamp.instant)
    (.report "TradeReconstruction entry must not follow exit")
  requirePositive "entry_price" t.entryPrice
  requirePositive "exit_price" t.exitPrice
  requirePositive "quantity" t.quantity
  requireNonneg "fees" t.fees
  requireNonneg "entry_slippage" t.entrySlippage
  requireOptional "exit_slippage" t.exitSlippage
  requireOptional "slippage" t.slippage
  raiseIf (t.exitSlippage.isNone ≠ t.slippage.isNone)
    (.report "TradeReconstruction exit_slippage and slippage must be None together")

/-- A reconstructed trade that the constructor accepts. -/
structure TradeReconstruction extends TradeRow where
  accepted : toTradeRow.check = .ok ()

def TradeRow.make (t : TradeRow) : Except ReportError TradeReconstruction :=
  match h : t.check with
  | .ok () => .ok ⟨t, h⟩
  | .error e => .error e

/-- How many exits of the completed trades are the fill with a sequence: `exit_usage`. -/
def exitUsage (trades : List TradeRecord) (sequence : ℕ) : ℕ :=
  (trades.flatMap TradeRecord.exitFillSequences).count sequence

/-- `by_sequence`. -/
def bySequence (fills : List FillRecord) (sequence : ℕ) : Option FillRecord := fills.find? (·.sequence = sequence)

/-- The exit fills of a trade. -/
def exitFills (fills : List FillRecord) : List ℕ → Except ReportError (List FillRecord)
  | [] => .ok []
  | sequence :: rest =>
    match bySequence fills sequence with
    | none => .error (.report "trade references an unknown exit fill sequence")
    | some fill => (exitFills fills rest).map (fill :: ·)

/-- The first of the latest fills: `max(exit_fills, key=...)`. -/
def latest (first : FillRecord) (rest : List FillRecord) : FillRecord :=
  rest.foldl (fun l f => if l.filledAt.instant < f.filledAt.instant then f else l) first

/-- A trade is shared when one of its exits is that of another completed trade too. -/
def Shared (trades : List TradeRecord) (t : TradeRecord) : Prop :=
  ∃ sequence ∈ t.exitFillSequences, 1 < exitUsage trades sequence

instance (trades : List TradeRecord) (t : TradeRecord) : Decidable (Shared trades t) :=
  inferInstanceAs (Decidable (∃ sequence ∈ t.exitFillSequences, 1 < exitUsage trades sequence))

/-- The slippage of a fill. -/
def FillRecord.slippage (c : Ctx) (fill : FillRecord) : ℚ := c.fix (fill.slippagePerShare * fill.quantity)

/-- One trade; `labels` are the labels of the intents. -/
def reconstructTrade (c : Ctx) (fills : List FillRecord) (trades : List TradeRecord) (labels : List (Option String))
    (symbol timeframe : Option String) (t : TradeRecord) : Except ReportError TradeReconstruction :=
  match bySequence fills t.entryFillSequence with
  | none => .error (.report "trade references an unknown entry fill sequence")
  | some entryFill => do
    match ← exitFills fills t.exitFillSequences with
    | [] => .error (.report "trade must have at least one exit fill sequence")
    | exit :: exits =>
      let fees := c.fix (t.entryCost + t.exitCost)
      let entrySlippage := c.fix (entryFill.slippagePerShare * t.quantity)
      let exitSlippage :=
        if Shared trades t then none else some (contextTotal c ((exit :: exits).map (FillRecord.slippage c)))
      TradeRow.make
        { tradeId := t.sequence
          side := "long"
          symbol := symbol
          timeframe := timeframe
          entryTimestamp := entryFill.filledAt
          entryPrice := t.entryPrice
          exitTimestamp := (latest exit exits).filledAt
          exitPrice := t.exitPrice
          quantity := t.quantity
          entryLabel := (labels[entryFill.intentIndex]?).join
          exitLabel := (labels[(latest exit exits).intentIndex]?).join
          grossPnl := c.fix (t.realizedPnl + fees)
          netPnl := t.realizedPnl
          fees := fees
          entrySlippage := entrySlippage
          exitSlippage := exitSlippage
          slippage := exitSlippage.map fun x => c.fix (entrySlippage + x) }

def buildTradeReconstructions (c : Ctx) (r : BacktestRun) (labels : List (Option String))
    (symbol timeframe : Option String) : Except ReportError (List TradeReconstruction) := do
  raiseIf (¬(r.fills.map FillRecord.sequence).Nodup) (.report "fill sequences must be unique")
  r.trades.mapM (reconstructTrade c r.fills r.trades labels symbol timeframe)

/-- `BacktestRun.total_slippage_cost`. -/
def BacktestRun.totalSlippageCost (c : Ctx) (r : BacktestRun) : ℚ := contextTotal c (r.fills.map (FillRecord.slippage c))

/-! ### The rows and the matchings -/

/-- What the fill with a sequence says. -/
def slippageOf (fills : List FillRecord) (sequence : ℕ) : ℚ :=
  ((bySequence fills sequence).map FillRecord.slippagePerShare).getD 0

def quantityOf (fills : List FillRecord) (sequence : ℕ) : ℚ :=
  ((bySequence fills sequence).map FillRecord.quantity).getD 0

/-- The exit slippage of the quantities that are matched to a buy. -/
def matchedSlippage (c : Ctx) (fills : List FillRecord) (matchings : List Matching) : ℚ :=
  contextTotal c (matchings.map fun m => c.fix (slippageOf fills m.exit * m.quantity))

section Rows

variable {c : Ctx} {fills : List FillRecord} {trades : List TradeRecord} {labels : List (Option String)}
  {symbol timeframe : Option String}

theorem bySequence_of_mem (h : (fills.map FillRecord.sequence).Nodup) {f : FillRecord} (hf : f ∈ fills) :
    bySequence fills f.sequence = some f := by
  have hsome : (bySequence fills f.sequence).isSome = true :=
    List.find?_isSome.mpr ⟨f, hf, decide_eq_true rfl⟩
  obtain ⟨g, hg⟩ := Option.isSome_iff_exists.mp hsome
  have hsequence : g.sequence = f.sequence := by simpa using List.find?_some hg
  rw [hg, List.inj_on_of_nodup_map h (List.mem_of_find?_eq_some hg) hf hsequence]

/-- The slippage of the exit fills. -/
theorem exitFills_slippage : ∀ {sequences : List ℕ} {exits : List FillRecord}, exitFills fills sequences = .ok exits →
    exits.map (FillRecord.slippage c) = sequences.map fun n => c.fix (slippageOf fills n * quantityOf fills n)
  | [], exits, h => by
    cases h
    rfl
  | n :: sequences, exits, h => by
    rw [exitFills] at h
    cases hfill : bySequence fills n with
    | none =>
      rw [hfill] at h
      cases h
    | some fill =>
      rw [hfill] at h
      obtain ⟨rest, hrest, rfl⟩ := map_eq_ok.mp h
      rw [List.map_cons, List.map_cons, exitFills_slippage hrest, slippageOf, quantityOf, hfill]
      rfl

theorem make_row {t : TradeRow} {row : TradeReconstruction} (h : t.make = .ok row) : row.toTradeRow = t := by
  unfold TradeRow.make at h
  split at h
  · cases h
    rfl
  · cases h

/-- **The slippage of a row.** -/
theorem reconstructTrade_slippage {t : TradeRecord} {row : TradeReconstruction}
    (h : reconstructTrade c fills trades labels symbol timeframe t = .ok row) :
    row.entrySlippage = c.fix (slippageOf fills t.entryFillSequence * t.quantity) ∧
      row.exitSlippage = if Shared trades t then none else
        some (contextTotal c (t.exitFillSequences.map fun n => c.fix (slippageOf fills n * quantityOf fills n))) := by
  unfold reconstructTrade at h
  cases hentry : bySequence fills t.entryFillSequence with
  | none =>
    rw [hentry] at h
    cases h
  | some entryFill =>
    rw [hentry] at h
    obtain ⟨exits, hexits, h⟩ := bind_eq_ok.mp h
    cases exits with
    | nil => cases h
    | cons exit exits =>
      have hrow := make_row h
      rw [hrow, slippageOf, hentry, ← exitFills_slippage hexits]
      exact ⟨rfl, rfl⟩

/-- What an accepted reconstruction is: a row for each trade. -/
theorem reconstructions_ok {r : BacktestRun} {rows : List TradeReconstruction}
    (h : buildTradeReconstructions c r labels symbol timeframe = .ok rows) :
    (r.fills.map FillRecord.sequence).Nodup ∧ rows.length = r.trades.length ∧ ∀ (i : ℕ) t row, r.trades[i]? = some t →
      rows[i]? = some row → reconstructTrade c r.fills r.trades labels symbol timeframe t = .ok row := by
  simp only [buildTradeReconstructions, bind_eq_ok, raiseIf_eq_ok, not_not] at h
  obtain ⟨-, hnodup, h⟩ := h
  obtain ⟨hlength, hrows⟩ := mapM_eq_ok h
  exact ⟨hnodup, hlength, hrows⟩

end Rows

/-! ### Slippage of the matched quantities -/

/-- Each exit slippage of the report is that of the quantities matched to the trade. -/
def AttributedExactly (c : Ctx) (r : BacktestRun) (b : Books) (rows : List TradeReconstruction) : Prop :=
  ∀ (i : ℕ) t row x, r.trades[i]? = some t → rows[i]? = some row → row.exitSlippage = some x →
    x = matchedSlippage c r.fills (exitsOf b.matchings t.entryFillSequence)

/-- The slippage that the report attributes to the trades. -/
def attributed (rows : List TradeReconstruction) : ℚ :=
  (rows.map fun row => row.entrySlippage + row.exitSlippage.getD 0).sum

/-- The exit fills of a trade that is not shared, when they have any slippage, are matched to the trade in full. -/
def MatchedInFull (r : BacktestRun) (b : Books) : Prop :=
  ∀ t ∈ r.trades, ¬Shared r.trades t → ∀ m ∈ exitsOf b.matchings t.entryFillSequence,
    slippageOf r.fills m.exit = 0 ∨ m.quantity = quantityOf r.fills m.exit

section Law

variable {c : Ctx} {r : BacktestRun} {b : Books} {rows : List TradeReconstruction} {labels : List (Option String)}
  {symbol timeframe : Option String}

/-- The exit slippage of a row is that of the whole fills that are matched to the trade. -/
theorem exitSlippage_row (hlinked : Linked r.fills b) (htrades : b.trades = r.trades)
    (h : buildTradeReconstructions c r labels symbol timeframe = .ok rows) {i : ℕ} {t : TradeRecord}
    {row : TradeReconstruction} (ht : r.trades[i]? = some t) (hrow : rows[i]? = some row) :
    row.exitSlippage = if Shared r.trades t then none else
      some (contextTotal c ((exitsOf b.matchings t.entryFillSequence).map fun m =>
        c.fix (slippageOf r.fills m.exit * quantityOf r.fills m.exit))) := by
  obtain ⟨-, -, hrows⟩ := reconstructions_ok h
  have hlink : t.link ∈ b.links := by
    refine List.mem_append_left _ (List.mem_map_of_mem ?_)
    rw [htrades]
    exact List.mem_of_getElem? ht
  have hexits : t.exitFillSequences = (exitsOf b.matchings t.entryFillSequence).map Matching.exit :=
    hlinked.exits t.link hlink
  rw [(reconstructTrade_slippage (hrows i t row ht hrow)).2, hexits, List.map_map]
  rfl

/-- **Fills that are matched in full** give the slippage of the matched quantities. -/
theorem exitSlippage_eq (hlinked : Linked r.fills b) (htrades : b.trades = r.trades)
    (h : buildTradeReconstructions c r labels symbol timeframe = .ok rows) (hfull : MatchedInFull r b) :
    AttributedExactly c r b rows := by
  intro i t row x ht hrow hx
  rw [exitSlippage_row hlinked htrades h ht hrow] at hx
  split_ifs at hx with hshared
  obtain rfl := Option.some.inj hx
  rw [matchedSlippage]
  congr 1
  refine List.map_congr_left fun m hm => ?_
  rcases hfull t (List.mem_of_getElem? ht) hshared m hm with hzero | hquantity
  · rw [hzero, zero_mul, zero_mul]
  · rw [hquantity]

end Law

/-! ### Without rounding -/

/-- Nonnegative weights of some of the entries, each taken once, add up to no more than those of all. -/
theorem sum_map_le_of_subset {s t : List ℕ} {w : ℕ → ℚ} (hs : s.Nodup) (hsub : s ⊆ t) (hw : ∀ n, 0 ≤ w n) :
    (s.map w).sum ≤ (t.map w).sum := by
  obtain ⟨l, hperm, hsublist⟩ := hs.subperm hsub
  rw [← (hperm.map w).sum_eq]
  refine (hsublist.map w).sum_le_sum fun x hx => ?_
  obtain ⟨n, -, rfl⟩ := List.mem_map.mp hx
  exact hw n

theorem eq_of_sum_map_eq {α : Type} {f g : α → ℚ} : ∀ {l : List α}, (∀ x ∈ l, f x ≤ g x) →
    (l.map f).sum = (l.map g).sum → ∀ x ∈ l, f x = g x
  | [], _, _ => by simp
  | a :: l, hle, hsum => by
    obtain ⟨ha, hl⟩ := List.forall_mem_cons.mp hle
    have hrest : (l.map f).sum ≤ (l.map g).sum := List.sum_le_sum hl
    rw [List.map_cons, List.map_cons, List.sum_cons, List.sum_cons] at hsum
    refine List.forall_mem_cons.mpr ⟨by linarith, eq_of_sum_map_eq hl ?_⟩
    linarith

section Exact

variable {inputs : BacktestInput} {intents : List OrderIntent} {costModel : CostModel} {initialCapital : ℚ}
  {r : BacktestRun} {b : Books} {rows : List TradeReconstruction} {labels : List (Option String)}
  {symbol timeframe : Option String}

/-- A sale is matched for no more than its quantity. -/
theorem matching_le {fills : List FillRecord} (h : replay .exact fills = .ok b) :
    ∀ m ∈ b.matchings, ∃ f ∈ fills, f.sequence = m.exit ∧ m.quantity ≤ f.quantity := by
  induction fills using List.reverseRecOn generalizing b with
  | nil =>
    cases h
    simp
  | append_singleton fills fill ih =>
    obtain ⟨b₁, hb₁, hlast⟩ := run_append_ok.mp h
    obtain ⟨b₂, hnext, hnil⟩ := run_cons_ok.mp hlast
    cases hnil
    obtain ⟨booked, -, rfl⟩ := map_eq_ok.mp hnext
    refine List.forall_mem_append.mpr ⟨fun m hm => ?_, fun m hm => ?_⟩
    · obtain ⟨f, hf, hm⟩ := ih hb₁ m hm
      exact ⟨f, List.mem_append_left _ hf, hm⟩
    · cases hside : fill.side with
      | buy =>
        rw [matchingsOf, hside] at hm
        cases hm
      | sell =>
        rw [matchingsOf, hside] at hm
        obtain ⟨p, hp, rfl⟩ := List.mem_map.mp hm
        refine ⟨fill, by simp, rfl, Fifo.taken_le (fun x y hy => ?_) hp⟩
        rw [sub_lotFifo]
        linarith

theorem slippagePerShare_nonneg (h : runBacktest .exact inputs intents costModel initialCapital = .ok r)
    {f : FillRecord} (hf : f ∈ r.fills) : 0 ≤ f.slippagePerShare := by
  obtain ⟨s, hran⟩ := ran h
  obtain ⟨o, ho, hfill⟩ := List.mem_filterMap.mp hf
  obtain ⟨i, hi⟩ := List.mem_iff_getElem?.mp ho
  obtain ⟨intent, record, -, -, -, -, cash, position, sequence, e, heval, he⟩ :=
    (explained hran hi).filledAtFirst hfill
  cases evaluated heval with
  | unfilled reason => cases he
  | filled hadmitted =>
    cases he
    obtain ⟨anchor, fillPrice, -, -, -, hmade⟩ := hadmitted.made
    rw [hmade]
    exact abs_nonneg _

theorem slippageOf_nonneg (hpos : ∀ f ∈ r.fills, 0 ≤ f.slippagePerShare) (n : ℕ) : 0 ≤ slippageOf r.fills n := by
  unfold slippageOf
  cases hfill : bySequence r.fills n with
  | none => exact le_rfl
  | some f => exact hpos f (List.mem_of_find?_eq_some hfill)

/-- The fills that are attributed to the trades are different fills. -/
theorem nodup_attributed (hlinked : Linked r.fills b) (htrades : b.trades = r.trades)
    (hnodup : (r.fills.map FillRecord.sequence).Nodup) :
    (r.trades.map TradeRecord.entryFillSequence ++
      (r.trades.filter fun t => ¬Shared r.trades t).flatMap TradeRecord.exitFillSequences).Nodup ∧
    r.trades.map TradeRecord.entryFillSequence ++
      (r.trades.filter fun t => ¬Shared r.trades t).flatMap TradeRecord.exitFillSequences ⊆
        r.fills.map FillRecord.sequence := by
  have hlink : ∀ t ∈ r.trades, t.link ∈ b.links := fun t ht =>
    List.mem_append_left _ (List.mem_map_of_mem (htrades ▸ ht))
  have hbought : ∀ n ∈ r.trades.map TradeRecord.entryFillSequence, ∃ f ∈ r.fills, f.side = .buy ∧ f.sequence = n := by
    intro n hn
    obtain ⟨t, ht, rfl⟩ := List.mem_map.mp hn
    obtain ⟨f, hf, hside, hsequence, -⟩ := hlinked.bought t.link (hlink t ht)
    exact ⟨f, hf, hside, hsequence⟩
  have hsold : ∀ n ∈ (r.trades.filter fun t => ¬Shared r.trades t).flatMap TradeRecord.exitFillSequences,
      ∃ f ∈ r.fills, f.side = .sell ∧ f.sequence = n := by
    intro n hn
    obtain ⟨t, ht, hn⟩ := List.mem_flatMap.mp hn
    have hexits : t.exitFillSequences = (exitsOf b.matchings t.entryFillSequence).map Matching.exit :=
      hlinked.exits t.link (hlink t (List.mem_of_mem_filter ht))
    rw [hexits] at hn
    obtain ⟨m, hm, rfl⟩ := List.mem_map.mp hn
    exact hlinked.sold m (List.mem_of_mem_filter hm)
  have hentries : (r.trades.map TradeRecord.entryFillSequence).Nodup := by
    have hall := hlinked.entries
    rw [Books.links, List.map_append, List.map_map, htrades] at hall
    exact hall.of_append_left
  have hexits : ((r.trades.filter fun t => ¬Shared r.trades t).flatMap TradeRecord.exitFillSequences).Nodup := by
    refine List.nodup_iff_count_le_one.mpr fun n => ?_
    by_cases hn : n ∈ (r.trades.filter fun t => ¬Shared r.trades t).flatMap TradeRecord.exitFillSequences
    · obtain ⟨t, ht, hmem⟩ := List.mem_flatMap.mp hn
      have hunshared : ¬Shared r.trades t := of_decide_eq_true (List.mem_filter.mp ht).2
      have husage : exitUsage r.trades n ≤ 1 := not_lt.mp fun hlt => hunshared ⟨n, hmem, hlt⟩
      exact ((List.filter_sublist.flatMap _).count_le n).trans husage
    · rw [List.count_eq_zero_of_not_mem hn]
      exact Nat.zero_le _
  refine ⟨List.nodup_append.mpr ⟨hentries, hexits, fun n hn n' hn' heq => ?_⟩, ?_⟩
  · obtain ⟨f, hf, hbuy, hsequence⟩ := hbought n hn
    obtain ⟨f', hf', hsell, hsequence'⟩ := hsold n' hn'
    have hsame : f = f' := List.inj_on_of_nodup_map hnodup hf hf' (by rw [hsequence, hsequence', heq])
    rw [hsame, hsell] at hbuy
    cases hbuy
  · intro n hn
    rcases List.mem_append.mp hn with hn | hn
    · obtain ⟨f, hf, -, hsequence⟩ := hbought n hn
      exact List.mem_map.mpr ⟨f, hf, hsequence⟩
    · obtain ⟨f, hf, -, hsequence⟩ := hsold n hn
      exact List.mem_map.mpr ⟨f, hf, hsequence⟩

/-- The rows attribute to each trade the slippage of its buy and, unless it is shared, of its exits. -/
theorem attributed_eq (hlinked : Linked r.fills b) (htrades : b.trades = r.trades)
    (h : buildTradeReconstructions .exact r labels symbol timeframe = .ok rows) :
    attributed rows = ((r.trades.map TradeRecord.entryFillSequence ++
      (r.trades.filter fun t => ¬Shared r.trades t).flatMap TradeRecord.exitFillSequences).map fun n =>
        slippageOf r.fills n * quantityOf r.fills n).sum := by
  obtain ⟨hnodup, hlength, hrows⟩ := reconstructions_ok h
  set w := fun n => slippageOf r.fills n * quantityOf r.fills n with hw
  have hrow : rows.map (fun row => row.entrySlippage + row.exitSlippage.getD 0) = r.trades.map fun t =>
      w t.entryFillSequence + if ¬Shared r.trades t then (t.exitFillSequences.map w).sum else 0 := by
    refine List.ext_getElem? fun i => ?_
    rw [List.getElem?_map, List.getElem?_map]
    rcases hi : r.trades[i]? with - | t
    · rw [List.getElem?_eq_none (hlength ▸ List.getElem?_eq_none_iff.mp hi)]
      rfl
    · obtain ⟨hlt, -⟩ := List.getElem?_eq_some_iff.mp hi
      have hget : rows[i]? = some (rows.get ⟨i, hlength ▸ hlt⟩) := List.getElem?_eq_getElem _
      obtain ⟨hentry, hexit⟩ := reconstructTrade_slippage (hrows i t _ hi hget)
      have hlink : t.link ∈ b.links :=
        List.mem_append_left _ (List.mem_map_of_mem (htrades ▸ List.mem_of_getElem? hi))
      obtain ⟨f, hf, -, hsequence, hquantity⟩ := hlinked.bought t.link hlink
      have hbought : quantityOf r.fills t.entryFillSequence = t.quantity := by
        have hfind := bySequence_of_mem hnodup hf
        rw [quantityOf, show t.entryFillSequence = f.sequence from hsequence.symm, hfind]
        exact hquantity
      rw [hget, Option.map_some, Option.map_some, hentry, hexit, ← hbought]
      congr 2
      by_cases hshared : Shared r.trades t
      · rw [if_pos hshared, if_neg (not_not.mpr hshared)]
        rfl
      · rw [if_neg hshared, if_pos hshared]
        exact contextTotal_exact _
  have hexits : (((r.trades.filter fun t => ¬Shared r.trades t).flatMap TradeRecord.exitFillSequences).map w).sum =
      (r.trades.map fun t => if ¬Shared r.trades t then (t.exitFillSequences.map w).sum else 0).sum := by
    rw [List.map_flatMap, List.flatMap_def, List.sum_flatten, List.map_map]
    exact sum_filter (fun t => ¬Shared r.trades t) (fun t => (t.exitFillSequences.map w).sum) r.trades
  rw [attributed, hrow, List.sum_map_add, List.map_append, List.sum_append, List.map_map, hexits]
  rfl

/-- **The trades are not attributed more than the slippage of all fills.** -/
theorem attributed_le (hlinked : Linked r.fills b) (htrades : b.trades = r.trades)
    (hnumbered : Numbered r.fills) (hslippage : ∀ f ∈ r.fills, 0 ≤ f.slippagePerShare)
    (h : buildTradeReconstructions .exact r labels symbol timeframe = .ok rows) :
    attributed rows ≤ r.totalSlippageCost .exact := by
  obtain ⟨hnodup, hsub⟩ := nodup_attributed hlinked htrades hnumbered.sequences
  have htotal : r.totalSlippageCost .exact =
      ((r.fills.map FillRecord.sequence).map fun n => slippageOf r.fills n * quantityOf r.fills n).sum := by
    rw [BacktestRun.totalSlippageCost, contextTotal_exact, List.map_map]
    congr 1
    refine List.map_congr_left fun f hf => ?_
    show f.slippagePerShare * f.quantity = slippageOf r.fills f.sequence * quantityOf r.fills f.sequence
    rw [slippageOf, quantityOf, bySequence_of_mem hnumbered.sequences hf]
    rfl
  rw [attributed_eq hlinked htrades h, htotal]
  refine sum_map_le_of_subset hnodup hsub fun n => mul_nonneg (slippageOf_nonneg hslippage n) ?_
  unfold quantityOf
  cases hfill : bySequence r.fills n with
  | none => exact le_rfl
  | some f => exact (hnumbered.pos f (List.mem_of_find?_eq_some hfill)).le

/-- A trade whose exit slippage is that of the matched quantities has its exit fills in full. -/
theorem matchedInFull_of_attributed (hlinked : Linked r.fills b) (htrades : b.trades = r.trades)
    (hnumbered : Numbered r.fills) (hslippage : ∀ f ∈ r.fills, 0 ≤ f.slippagePerShare)
    (hreplay : replay .exact r.fills = .ok b)
    (h : buildTradeReconstructions .exact r labels symbol timeframe = .ok rows)
    (hattributed : AttributedExactly .exact r b rows) : MatchedInFull r b := by
  intro t ht hshared m hm
  obtain ⟨-, hlength, -⟩ := reconstructions_ok h
  obtain ⟨i, hi⟩ := List.mem_iff_getElem?.mp ht
  obtain ⟨hlt, -⟩ := List.getElem?_eq_some_iff.mp hi
  have hget : rows[i]? = some (rows.get ⟨i, hlength ▸ hlt⟩) := List.getElem?_eq_getElem _
  have hrow := exitSlippage_row hlinked htrades h hi hget
  rw [if_neg hshared] at hrow
  have hsum := hattributed i t _ _ hi hget hrow
  rw [matchedSlippage, contextTotal_exact, contextTotal_exact] at hsum
  have hle : ∀ m ∈ exitsOf b.matchings t.entryFillSequence,
      slippageOf r.fills m.exit * m.quantity ≤ slippageOf r.fills m.exit * quantityOf r.fills m.exit := by
    intro m hm
    obtain ⟨f, hf, hsequence, hquantity⟩ := matching_le hreplay m (List.mem_of_mem_filter hm)
    refine mul_le_mul_of_nonneg_left ?_ (slippageOf_nonneg hslippage _)
    rw [quantityOf, ← hsequence, bySequence_of_mem hnumbered.sequences hf]
    exact hquantity
  have hterm := eq_of_sum_map_eq hle hsum.symm m hm
  exact (mul_eq_mul_left_iff.mp hterm).symm

end Exact

/-- **When the exit slippage of the report is that of the matched quantities.**  The code computes in `Ctx.default`; there
it is so when the exit fills of the trades that are not shared are matched in full.  Without rounding it is so, and the
trades are attributed no more than the slippage of the run, exactly then. -/
theorem exitSlippage_iff (c : Ctx) (inputs : BacktestInput) (intents : List OrderIntent) (costModel : CostModel)
    (initialCapital : ℚ) (labels : List (Option String)) (symbol timeframe : Option String) (r : BacktestRun)
    (rows : List TradeReconstruction) (h : runBacktest c inputs intents costModel initialCapital = .ok r)
    (hrows : buildTradeReconstructions c r labels symbol timeframe = .ok rows) :
    ∃ b, replay c r.fills = .ok b ∧ b.trades = r.trades ∧ (MatchedInFull r b → AttributedExactly c r b rows) ∧
      (c = .exact →
        (AttributedExactly c r b rows ∧ attributed rows ≤ r.totalSlippageCost c ↔ MatchedInFull r b)) := by
  obtain ⟨hnumbered, b, hreplay, htrades⟩ := exists_replay h
  have hlinked := linked_replay hnumbered hreplay
  refine ⟨b, hreplay, htrades, exitSlippage_eq hlinked htrades hrows, ?_⟩
  rintro rfl
  have hslippage : ∀ f ∈ r.fills, 0 ≤ f.slippagePerShare := fun f hf => slippagePerShare_nonneg h hf
  constructor
  · rintro ⟨hattributed, -⟩
    exact matchedInFull_of_attributed hlinked htrades hnumbered hslippage hreplay hrows hattributed
  · intro hfull
    exact ⟨exitSlippage_eq hlinked htrades hrows hfull, attributed_le hlinked htrades hnumbered hslippage hrows⟩

/-- One percent of slippage. -/
def slippingCosts : CostModel := ⟨0, 100, free_nonneg, by norm_num, by norm_num⟩

/-- Two buys, of 1 and of 2, and a sale of 2. -/
def splitIntents : List OrderIntent := [sampleIntent .buy 0 0, sampleIntent .buy 1 1, sampleIntent .sell 1 2]

/-- The exit slippage of the rows, and what the matched quantities give. -/
def slippages (intents : List OrderIntent) (costModel : CostModel) : Option (List (Option ℚ) × List ℚ) :=
  (runBacktest .default sampleInput intents costModel 1000).toOption.bind fun r =>
    (buildTradeReconstructions .default r [] none none).toOption.bind fun rows =>
      (replay .default r.fills).toOption.map fun b => (rows.map (·.exitSlippage), r.trades.map fun t =>
        matchedSlippage .default r.fills (exitsOf b.matchings t.entryFillSequence))

theorem slippages_sample : slippages splitIntents slippingCosts = some ([some (12 / 5)], [6 / 5]) ∧
    slippages flatIntents slippingCosts = some ([some (11 / 5)], [11 / 5]) := by decide +kernel

theorem exists_of_slippages {intents : List OrderIntent} {costModel : CostModel} {xs : List (Option ℚ) × List ℚ}
    (h : slippages intents costModel = some xs) : ∃ r rows b,
      runBacktest .default sampleInput intents costModel 1000 = .ok r ∧
      buildTradeReconstructions .default r [] none none = .ok rows ∧ replay .default r.fills = .ok b ∧
      rows.map (·.exitSlippage) = xs.1 ∧
      (r.trades.map fun t => matchedSlippage .default r.fills (exitsOf b.matchings t.entryFillSequence)) = xs.2 := by
  have hok : ∀ {ε α : Type} {x : Except ε α} {a : α}, x.toOption = some a → x = .ok a := by
    intro ε α x a hx
    cases x with
    | error e => cases hx
    | ok a' => exact congrArg Except.ok (Option.some.inj hx)
  obtain ⟨r, hr, h⟩ := Option.bind_eq_some_iff.mp h
  obtain ⟨rows, hrows, h⟩ := Option.bind_eq_some_iff.mp h
  obtain ⟨b, hb, h⟩ := Option.map_eq_some_iff.mp h
  exact ⟨r, rows, b, hok hr, hok hrows, hok hb, congrArg Prod.fst h, congrArg Prod.snd h⟩

theorem exitSlippage_iff_flat : ∃ r rows, runBacktest .default sampleInput flatIntents slippingCosts 1000 = .ok r ∧
    buildTradeReconstructions .default r [] none none = .ok rows ∧
    ∃ b, replay .default r.fills = .ok b ∧ b.trades = r.trades ∧
      (MatchedInFull r b → AttributedExactly .default r b rows) ∧
      (Ctx.default = .exact →
        (AttributedExactly .default r b rows ∧ attributed rows ≤ r.totalSlippageCost .default ↔ MatchedInFull r b)) := by
  obtain ⟨r, rows, -, hr, hrows, -⟩ := exists_of_slippages slippages_sample.2
  exact ⟨r, rows, hr, hrows,
    exitSlippage_iff .default sampleInput flatIntents slippingCosts 1000 [] none none r rows hr hrows⟩

/-- The sale closes the first lot and half of the second: its whole slippage is attributed to the first trade. -/
theorem not_attributedExactly_split : ∃ r rows b,
    runBacktest .default sampleInput splitIntents slippingCosts 1000 = .ok r ∧
    buildTradeReconstructions .default r [] none none = .ok rows ∧ replay .default r.fills = .ok b ∧
    ¬AttributedExactly .default r b rows := by
  obtain ⟨r, rows, b, hr, hrows, hb, hexit, hmatched⟩ := exists_of_slippages slippages_sample.1
  refine ⟨r, rows, b, hr, hrows, hb, fun h => ?_⟩
  obtain ⟨row, hrow, hx⟩ : ∃ row, rows[0]? = some row ∧ row.exitSlippage = some (12 / 5) := by
    have hget := congrArg (·[0]?) hexit
    simpa [List.getElem?_map] using hget
  obtain ⟨t, ht, hm⟩ : ∃ t, r.trades[0]? = some t ∧
      matchedSlippage .default r.fills (exitsOf b.matchings t.entryFillSequence) = 6 / 5 := by
    have hget := congrArg (·[0]?) hmatched
    simpa [List.getElem?_map] using hget
  have heq := h 0 t row _ ht hrow hx
  rw [hm] at heq
  norm_num at heq

end AlphaAlgo.Backtest
