import AlphaAlgo.Pnl.Engine
import AlphaAlgo.Position.Replay

/-!
# Replay — a recorded sale that is delivered again

`recordFill` checks the sale against the position before it looks for a stored event.  When the sale comes again the
position has been reduced by it, so the check can fail before the event is found.

* `recordFill_stored`: a sale that passes the checks, and whose event is stored, compares the two hashes.
* `replayed_iff`: the second delivery is a duplicate when the remaining position still covers the sale.
-/

namespace AlphaAlgo.Pnl

open Position

/-! ### Deliveries -/

/-- The same execution with the same economics, perhaps written otherwise. -/
structure Redelivered (f g : PositionFill) : Prop extends EconomicallyEqual f g where
  executionId : f.executionId = g.executionId
  tradingMode : upper f.tradingMode = upper g.tradingMode

/-- The position after a sale. -/
def positionAfter (p : PositionState) (f : PositionFill) : Except ArithmeticError PositionState :=
  (applySell p.quantity p.averagePrice p.openedAt f.shares f.occurredAt).map fun d =>
    nextState p.positionId p.identity p.accountId d f.executionId

/-- The text that is hashed. -/
def eventText (f : PositionFill) (eventType : PnlEventType) (quantity : ℤ) (averageCost gross costs net : ℚ) : String :=
  (Json.obj [("account_id", .str f.accountId.str), ("average_cost", .str (moneyText averageCost)),
    ("costs", .str (moneyText costs)), ("event_type", .str eventType.value),
    ("execution_id", .str f.executionId), ("gross_pnl", .str (moneyText gross)),
    ("instrument_id", .str f.instrumentId.str), ("net_pnl", .str (moneyText net)),
    ("occurred_at", .str f.occurredAt.isoformat), ("price", .str f.price.str), ("quantity", .int quantity),
    ("side", .str f.side.value), ("strategy_run_id", .str f.strategyRunId.str),
    ("trading_mode", .str (upper f.tradingMode))]).dumps .compact

section

variable {f g : PositionFill}

theorem Redelivered.shares (h : Redelivered f g) : g.shares = f.shares := by
  rw [PositionFill.shares, PositionFill.shares, h.quantity]

/-- The texts of two deliveries of one execution. -/
theorem eventText_inj (h : Redelivered f g) (eventType : PnlEventType) (quantity : ℤ) (averageCost gross costs net : ℚ) :
    eventText f eventType quantity averageCost gross costs net = eventText g eventType quantity averageCost gross costs net ↔
      f.price.str = g.price.str ∧ f.occurredAt.isoformat = g.occurredAt.isoformat := by
  unfold eventText
  rw [h.account, h.executionId, h.instrument, h.side, h.strategyRun, h.tradingMode]
  constructor
  · intro htext
    unfold Json.dumps at htext
    rw [String.ofList_inj] at htext
    simp only [Json.chars, Json.fields, if_true, List.nil_append, List.append_assoc, Bool.false_eq_true, if_false,
      List.cons_append, List.append_cancel_left_eq, List.cons.injEq, true_and] at htext
    obtain ⟨hat, htext⟩ := quote_append_inj htext
    simp only [List.append_cancel_left_eq] at htext
    obtain ⟨hprice, -⟩ := quote_append_inj htext
    exact ⟨hprice, hat⟩
  · rintro ⟨hprice, hat⟩
    rw [hprice, hat]

/-! ### Recording a sale -/

/-- The amounts of a sale. -/
structure Amounts where
  averageCost : ℚ
  gross : ℚ
  costs : ℚ
  net : ℚ

/-- The event of a sale of `f` with these amounts. -/
def saleEvent (f : PositionFill) (p : PositionState) (a : Amounts) : PnlEvent :=
  buildEvent f p.positionId .realizedPnl f.shares a.averageCost a.gross a.costs a.net

/-- What the accounting makes of a sale. -/
structure Realizes (ctx : Ctx) (f : PositionFill) (p : PositionState) (costs : List CostComponent) (a : Amounts) :
    Prop where
  covered : f.shares ≤ p.quantity
  average : p.averagePrice = some a.averageCost
  gross : realizedPnlLong ctx f.price.val a.averageCost f.shares = .ok a.gross
  costs : costsTotal ctx costs = .ok a.costs
  net : netPnl ctx a.gross a.costs = .ok a.net

variable {ctx : Ctx} {p : PositionState} {costs : List CostComponent} {event : PnlEvent}

theorem Realizes.shares_pos {a : Amounts} (h : Realizes ctx f p costs a) : 0 < f.shares := by
  have hgross := h.gross
  unfold realizedPnlLong at hgross
  split_ifs at hgross with hq
  exact not_le.mp hq

theorem realize_iff : realize ctx f (some p) costs = .ok event ↔ ∃ a, Realizes ctx f p costs a ∧ event = saleEvent f p a := by
  constructor
  · intro h
    unfold realize at h
    dsimp only at h
    split_ifs at h with hflat hover
    cases havg : p.averagePrice with
    | none => rw [havg] at h; cases h
    | some avg =>
      rw [havg] at h
      dsimp only at h
      cases hgross : realizedPnlLong ctx f.price.val avg f.shares with
      | error err => rw [hgross] at h; cases h
      | ok gross =>
        rw [hgross] at h
        dsimp only at h
        cases hcosts : costsTotal ctx costs with
        | error err => rw [hcosts] at h; cases h
        | ok total =>
          rw [hcosts] at h
          dsimp only at h
          cases hnet : netPnl ctx gross total with
          | error err => rw [hnet] at h; cases h
          | ok net =>
            rw [hnet] at h
            cases h
            exact ⟨⟨avg, gross, total, net⟩, ⟨not_lt.mp hover, havg, hgross, hcosts, hnet⟩, rfl⟩
  · rintro ⟨a, h, rfl⟩
    have hpos := h.shares_pos
    have hcovered := h.covered
    rw [realize, if_neg (by omega), if_neg (by omega), h.average]
    dsimp only
    rw [h.gross]
    dsimp only
    rw [h.costs]
    dsimp only
    rw [h.net]
    rfl

theorem validate_halt {halt : Bool} (h : validate halt f = .ok ()) : halt = false := by
  cases halt with
  | false => rfl
  | true =>
    unfold validate at h
    cases hmode : guardMode f.tradingMode <;> rw [hmode] at h <;> cases h

/-- A sale that a call has recorded. -/
theorem recordFill_applied {halt : Bool} {db db' : PnlDb} {e : PnlEvent} (hs : f.side = .sell)
    (h : recordFill ctx halt db f (some p) costs = .ok (.applied e, db')) :
    validate halt f = .ok () ∧ ∃ a, Realizes ctx f p costs a ∧ eventFits (saleEvent f p a) = true ∧
      e = storedEvent (saleEvent f p a) ∧ loadEvent db' f.executionId = some e := by
  have hvalid : validate halt f = .ok () := by
    unfold recordFill at h
    cases hv : validate halt f with
    | error err => rw [hv] at h; cases h
    | ok u => rfl
  rcases recordFill_ok h with ⟨hbuy, -, -⟩ | ⟨-, event, hrealize, ⟨persisted, hsave, hr⟩ | ⟨-, _, -, hr | hr⟩⟩
  · rw [hs] at hbuy
    cases hbuy
  · cases hr
    obtain ⟨a, ha, rfl⟩ := realize_iff.mp hrealize
    obtain ⟨rfl, hinsert⟩ := saveEvent_ok hsave
    have hfits : eventFits (saleEvent f p a) = true := by
      unfold saveEvent at hsave
      split_ifs at hsave with hfits
      · simpa using hfits
    refine ⟨hvalid, a, ha, hfits, rfl, ?_⟩
    rw [loadEvent, Table.get_of_insert hinsert]
    exact if_pos rfl
  · cases hr
  · cases hr

/-- **A sale whose event is stored**: the stored hash decides. -/
theorem recordFill_stored {halt : Bool} {db : PnlDb} {e : PnlEvent} (hs : f.side = .sell) (hv : validate halt f = .ok ())
    (hr : realize ctx f (some p) costs = .ok event) (hfits : eventFits event = true) (hid : event.executionId = f.executionId)
    (hstored : loadEvent db f.executionId = some e) : recordFill ctx halt db f (some p) costs =
      if e.contentHash ≠ event.contentHash then .ok (.conflict e, db) else .ok (.duplicate e, db) := by
  have hsave : saveEvent db event = .error .duplicateExecution := by
    rw [saveEvent, hfits]
    have hkey : (storedEvent event).executionId = f.executionId := hid
    cases hinsert : db.events.insert? (storedEvent event) with
    | none => simp
    | some events =>
      have hnone := (Table.insert?_eq_some hinsert).1
      rw [hkey, show db.events.get f.executionId = some e from hstored] at hnone
      cases hnone
  rw [recordFill, hv]
  dsimp only
  rw [hs]
  dsimp only
  rw [hr]
  dsimp only
  rw [hsave]
  dsimp only
  rw [hstored]

/-! ### The second delivery -/

variable {costs' : List CostComponent}

/-- The second delivery is let through unless the halt is active. -/
theorem validate_redelivered {halt halt' : Bool} (hg : Redelivered f g) (h : validate halt f = .ok ()) :
    validate halt' g = .ok () ↔ halt' = false := by
  refine ⟨validate_halt, ?_⟩
  rintro rfl
  have hhalt := validate_halt h
  subst hhalt
  unfold validate guardMode at h ⊢
  rw [← hg.tradingMode]
  dsimp only at h ⊢
  split_ifs at h ⊢ <;> first | exact h | cases h

/-- The costs enter by their amounts. -/
theorem costsTotal_congr (h : costs.map (fun c => c.amount.val) = costs'.map fun c => c.amount.val) :
    costsTotal ctx costs = costsTotal ctx costs' := by
  have hfold : ∀ l : List CostComponent, l.foldl (fun a c => ctx.fix (a + c.amount.val)) 0 =
      (l.map fun c => c.amount.val).foldl (fun a x => ctx.fix (a + x)) 0 := by
    intro l
    rw [List.foldl_map]
  rw [costsTotal, costsTotal, hfold, hfold, h]

/-- The event of the second delivery: that of the first, up to the texts of price and instant. -/
theorem Realizes.redelivered {q : PositionState} {a : Amounts} (h : Realizes ctx f p costs a) (hg : Redelivered f g)
    (hcosts : costs.map (fun c => c.amount.val) = costs'.map fun c => c.amount.val) (hcovered : f.shares ≤ q.quantity)
    (haverage : q.averagePrice = p.averagePrice) : Realizes ctx g q costs' a where
  covered := by rw [hg.shares]; exact hcovered
  average := haverage.trans h.average
  gross := by rw [← hg.price, hg.shares]; exact h.gross
  costs := by rw [← costsTotal_congr hcosts]; exact h.costs
  net := h.net

/-- The amounts of a sale are determined by the position and the costs. -/
theorem Realizes.unique {q : PositionState} {a b : Amounts} (h : Realizes ctx f p costs a) (hg : Redelivered f g)
    (hcosts : costs.map (fun c => c.amount.val) = costs'.map fun c => c.amount.val) (haverage : q.averagePrice = p.averagePrice)
    (h' : Realizes ctx g q costs' b) : a = b := by
  have havg := h.average.symm.trans (haverage.symm.trans h'.average)
  have hgross := h'.gross
  rw [← hg.price, hg.shares, ← Option.some.inj havg, h.gross] at hgross
  have htotal := h'.costs
  rw [← costsTotal_congr hcosts, h.costs] at htotal
  have hnet := h'.net
  rw [← Except.ok.inj hgross, ← Except.ok.inj htotal, h.net] at hnet
  cases a
  cases b
  simp_all

/-- The position after a recorded sale: reduced, or closed. -/
theorem positionAfter_of_realizes {a : Amounts} (h : Realizes ctx f p costs a) :
    ∃ q, positionAfter p f = .ok q ∧ q.quantity = p.quantity - f.shares ∧
      (q.quantity ≠ 0 → q.averagePrice = p.averagePrice) := by
  have hpos := h.shares_pos
  have hcovered := h.covered
  cases hsell : applySell p.quantity p.averagePrice p.openedAt f.shares f.occurredAt with
  | error err =>
    unfold applySell at hsell
    split_ifs at hsell <;> omega
  | ok d =>
    obtain ⟨-, -, hquantity, -, -, hopen⟩ := applySell_ok hsell
    exact ⟨_, by rw [positionAfter, hsell]; rfl, hquantity, fun hne => (hopen hne).1⟩

/-- **A recorded sale that is delivered again** is a duplicate exactly when the halt is off, the remaining position still
covers it, and price and instant are written as before. -/
theorem replayed_iff {halt : Bool} (halt' : Bool) {db db₁ db₂ : PnlDb} {e : PnlEvent} (hs : f.side = .sell)
    (hrecorded : recordFill ctx halt db f (some p) costs = .ok (.applied e, db₁)) (hg : Redelivered f g)
    (hcosts : costs.map (fun c => c.amount.val) = costs'.map fun c => c.amount.val)
    (hstored : loadEvent db₂ f.executionId = some e)
    (hcol : ∀ quantity averageCost gross costs net,
      eventContentHash f .realizedPnl quantity averageCost gross costs net =
        eventContentHash g .realizedPnl quantity averageCost gross costs net →
      eventText f .realizedPnl quantity averageCost gross costs net =
        eventText g .realizedPnl quantity averageCost gross costs net) :
    ∃ q, positionAfter p f = .ok q ∧ (recordFill ctx halt' db₂ g (some q) costs' = .ok (.duplicate e, db₂) ↔
      halt' = false ∧ f.shares ≤ p.quantity - f.shares ∧ f.price.str = g.price.str ∧
        f.occurredAt.isoformat = g.occurredAt.isoformat) := by
  obtain ⟨hvalid, a, ha, hfits, rfl, -⟩ := recordFill_applied hs hrecorded
  obtain ⟨q, hq, hquantity, haverage⟩ := positionAfter_of_realizes ha
  have hpos := ha.shares_pos
  have hg_side : g.side = .sell := by rw [← hg.side]; exact hs
  refine ⟨q, hq, ?_⟩
  -- the second event, when the sale passes the checks, and what the stored hash says of it
  have hsecond : validate halt' g = .ok () → f.shares ≤ p.quantity - f.shares →
      recordFill ctx halt' db₂ g (some q) costs' =
        if (saleEvent f p a).contentHash ≠ (saleEvent g q a).contentHash then
          .ok (.conflict (storedEvent (saleEvent f p a)), db₂)
        else .ok (.duplicate (storedEvent (saleEvent f p a)), db₂) := by
    intro hvalid' hcovered
    have hrealizes := ha.redelivered (q := q) hg hcosts (by omega) (haverage (by omega))
    have hsame : eventFits (saleEvent g q a) = eventFits (saleEvent f p a) := by
      simp only [eventFits, saleEvent, buildEvent, hg.executionId, hg.tradingMode, hg.shares, hg.price]
    exact recordFill_stored hg_side hvalid' (realize_iff.mpr ⟨a, hrealizes, rfl⟩) (hsame.trans hfits) rfl
      (by rw [← hg.executionId]; exact hstored)
  have htexts : (saleEvent f p a).contentHash = (saleEvent g q a).contentHash ↔
      f.price.str = g.price.str ∧ f.occurredAt.isoformat = g.occurredAt.isoformat := by
    rw [← eventText_inj hg .realizedPnl f.shares a.averageCost a.gross a.costs a.net]
    show eventContentHash f .realizedPnl f.shares _ _ _ _ = eventContentHash g .realizedPnl g.shares _ _ _ _ ↔ _
    rw [hg.shares]
    exact ⟨hcol _ _ _ _ _, fun h => congrArg sha256 h⟩
  constructor
  · intro h
    have hvalid' : validate halt' g = .ok () := by
      unfold recordFill at h
      cases hv : validate halt' g with
      | error err => rw [hv] at h; cases h
      | ok u => rfl
    rcases recordFill_ok h with ⟨hbuy, -, -⟩ | ⟨-, event, hrealize, -⟩
    · rw [hg_side] at hbuy
      cases hbuy
    · obtain ⟨b, hb, -⟩ := realize_iff.mp hrealize
      have hcovered := hb.covered
      rw [hg.shares, hquantity] at hcovered
      rw [hsecond hvalid' hcovered] at h
      by_cases hhash : (saleEvent f p a).contentHash = (saleEvent g q a).contentHash
      · exact ⟨(validate_redelivered hg hvalid).mp hvalid', hcovered, htexts.mp hhash⟩
      · rw [if_pos hhash] at h
        cases h
  · rintro ⟨hhalt, hcovered, hsame⟩
    rw [hsecond ((validate_redelivered hg hvalid).mpr hhalt) hcovered, if_neg (not_not.mpr (htexts.mpr hsame))]

end

/-! ### A sale of a position of ten -/

def sampleDb : PnlDb := ⟨Table.empty, [⟨4⟩]⟩

def samplePosition : PositionState :=
  ⟨some ⟨4⟩, ⟨⟨3⟩, ⟨2⟩, "PAPER"⟩, some ⟨1⟩, 10, some 100, .open, none, none, none⟩

def sampleSale (quantity : ℕ) (h : 0 < quantity) : PositionFill :=
  paperFill "e1" .sell (Dec.ofNat quantity) (Dec.ofNat 110)
    ⟨by decide +kernel, by rw [Dec.val_ofNat]; exact_mod_cast h, by rw [Dec.val_ofNat]; norm_num⟩

/-- What a call has recorded. -/
def appliedOf : Except PnlError (PnlResult × PnlDb) → Option (PnlEvent × PnlDb)
  | .ok (.applied e, db) => some (e, db)
  | _ => none

theorem appliedOf_some {r : Except PnlError (PnlResult × PnlDb)} (h : (appliedOf r).isSome = true) :
    ∃ e db, r = .ok (.applied e, db) := by
  cases r with
  | error err => exact absurd h (by simp [appliedOf])
  | ok p =>
    obtain ⟨result, db⟩ := p
    cases result with
    | applied e => exact ⟨e, db, rfl⟩
    | opened | duplicate | conflict => exact absurd h (by simp [appliedOf])

theorem redelivered_refl (f : PositionFill) : Redelivered f f := by
  refine ⟨⟨⟨rfl, rfl, rfl, ?_⟩, rfl, rfl, rfl⟩, rfl, rfl⟩
  obtain ⟨o, ho⟩ := Option.isSome_iff_exists.mp f.occurredAt_aware
  rw [DateTime.sub?, ho]
  simp

/-- A sale of four comes again. -/
theorem replayed_iff_reduced : ∃ e db q,
    recordFill .default false sampleDb (sampleSale 4 (by decide)) (some samplePosition) [] = .ok (.applied e, db) ∧
      positionAfter samplePosition (sampleSale 4 (by decide)) = .ok q ∧
      recordFill .default false db (sampleSale 4 (by decide)) (some q) [] = .ok (.duplicate e, db) := by
  obtain ⟨e, db, hrecorded⟩ := @appliedOf_some
    (recordFill .default false sampleDb (sampleSale 4 (by decide)) (some samplePosition) []) (by decide +kernel)
  obtain ⟨-, -, -, -, -, hstored⟩ := recordFill_applied rfl hrecorded
  have hcovered : (sampleSale 4 (by decide)).shares ≤ samplePosition.quantity - (sampleSale 4 (by decide)).shares := by
    decide +kernel
  obtain ⟨q, hq, hiff⟩ := replayed_iff false rfl hrecorded (redelivered_refl _) rfl hstored fun _ _ _ _ _ h => by
    rw [eventText_inj (redelivered_refl _)]
    exact ⟨rfl, rfl⟩
  exact ⟨e, db, q, hrecorded, hq, hiff.mpr ⟨rfl, hcovered, rfl, rfl⟩⟩

/-- The whole position is sold: the sale that comes again finds no position. -/
theorem not_replayed_closed : ¬ ∀ (f : PositionFill) (p : PositionState) (costs : List CostComponent) (db db' : PnlDb)
    (e : PnlEvent) (q : PositionState), f.side = .sell →
    recordFill .default false db f (some p) costs = .ok (.applied e, db') → positionAfter p f = .ok q →
      recordFill .default false db' f (some q) costs = .ok (.duplicate e, db') := by
  intro h
  obtain ⟨e, db, hrecorded⟩ := @appliedOf_some
    (recordFill .default false sampleDb (sampleSale 10 (by decide)) (some samplePosition) []) (by decide +kernel)
  obtain ⟨-, a, ha, -, -, -⟩ := recordFill_applied rfl hrecorded
  obtain ⟨q, hq, hquantity, -⟩ := positionAfter_of_realizes ha
  have hzero : q.quantity = 0 := by
    rw [hquantity]
    decide +kernel
  rcases recordFill_ok (h _ _ _ _ _ _ _ rfl hrecorded hq) with ⟨hbuy, -, -⟩ | ⟨-, event, hrealize, -⟩
  · cases hbuy
  · obtain ⟨b, hb, -⟩ := realize_iff.mp hrealize
    have hcovered := hb.covered
    have hpos := hb.shares_pos
    omega

end AlphaAlgo.Pnl
