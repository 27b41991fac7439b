import AlphaAlgo.Pnl.Engine

/-!
# Balance — realised profit against the money that changed hands

An `Account` runs the position arithmetic and the P&L engine side by side: a fill that the arithmetic accepts is
recorded with the position before it.  Arithmetic is exact apart from the rounding to four places.

* `imbalance`: realised gross P&L minus (sales - purchases + remaining quantity at its average price).
* `imbalance_le`: over every sequence of booked fills it stays within half a unit of the fourth place for every
  share held after a purchase, and for every sale.
-/

namespace AlphaAlgo.Pnl

open Position

/-! ### Accounts -/

/-- A position, the booked events, and the sums over the fills so far. -/
structure Account where
  position : PositionState
  db : PnlDb
  realized : ℚ := 0
  bought : ℚ := 0
  sold : ℚ := 0
  heldAfterBuys : ℤ := 0
  sells : ℕ := 0

/-- The delta of the position arithmetic. -/
def delta (p : PositionState) (f : PositionFill) : Except ArithmeticError PositionDelta :=
  match f.side with
  | .buy => applyBuy .exact p.quantity p.averagePrice p.openedAt f.shares f.price.val f.occurredAt
  | .sell => applySell p.quantity p.averagePrice p.openedAt f.shares f.occurredAt

/-- The money of a fill. -/
def notional (f : PositionFill) : ℚ := f.shares * f.price.val

/-- One fill, with its costs: `none` when the arithmetic does not accept it or the engine does not book it. -/
def book (a : Account) (fc : PositionFill × List CostComponent) : Option Account :=
  match delta a.position fc.1, recordFill .exact false a.db fc.1 (some a.position) fc.2 with
  | .ok d, .ok (.opened, _) => some
      { a with
        position := nextState a.position.positionId a.position.identity a.position.accountId d fc.1.executionId
        bought := a.bought + notional fc.1
        heldAfterBuys := a.heldAfterBuys + d.quantity }
  | .ok d, .ok (.applied event, db) => some
      { a with
        position := nextState a.position.positionId a.position.identity a.position.accountId d fc.1.executionId
        db := db
        realized := a.realized + event.grossPnl
        sold := a.sold + notional fc.1
        sells := a.sells + 1 }
  | _, _ => none

/-- An account without fills. -/
def Account.flat (positionId : UUID) (k : PositionIdentity) (db : PnlDb) : Account where
  position := ⟨some positionId, k, none, 0, none, .flat, none, none, none⟩
  db := db

/-- The remaining quantity at its average price. -/
def Account.inventory (a : Account) : ℚ := a.position.quantity * a.position.averagePrice.getD 0

/-- The P&L that no money stands for. -/
def Account.imbalance (a : Account) : ℚ := a.realized - (a.sold - a.bought + a.inventory)

/-! ### One fill -/

/-- A number of four places is stored as it is. -/
theorem numeric4_quantize (x : ℚ) : numeric4 (quantize (-4) x) = quantize (-4) x := by
  have hq : quantize (-4) x * 10 ^ 4 = (halfEven (x / 10 ^ (-4 : ℤ)) : ℤ) := by
    unfold quantize
    rw [mul_assoc, zpow_neg]
    norm_num
  have hfloor : ∀ n : ℤ, ⌊(n : ℚ) + 1 / 2⌋ = n := fun n => by
    rw [Int.floor_eq_iff]; constructor <;> linarith
  have hceil : ∀ n : ℤ, ⌈(n : ℚ) - 1 / 2⌉ = n := fun n => by
    rw [Int.ceil_eq_iff]; constructor <;> linarith
  have hdiv : (halfEven (x / 10 ^ (-4 : ℤ)) : ℚ) / 10 ^ 4 = quantize (-4) x := by
    rw [← hq]; ring
  unfold numeric4
  rw [hq, hfloor, hceil, ite_self, hdiv]

/-- Rounding moves a number by at most half a unit of the fourth place. -/
theorem abs_quantize4_sub_le (x : ℚ) : |quantize (-4) x - x| ≤ 1 / 20000 := by
  have := abs_quantize_sub_le (-4) x
  norm_num at this ⊢
  exact this

/-- What a booked sale realises. -/
theorem realize_ok {f : PositionFill} {p : PositionState} {costs : List CostComponent} {event : PnlEvent}
    (h : realize .exact f (some p) costs = .ok event) :
    ∃ avg, p.averagePrice = some avg ∧ event.grossPnl = quantize (-4) ((f.price.val - avg) * f.shares) := by
  unfold realize at h
  simp only at h
  split_ifs at h
  cases ha : p.averagePrice with
  | none => rw [ha] at h; cases h
  | some avg =>
    rw [ha] at h
    simp only at h
    cases hg : realizedPnlLong .exact f.price.val avg f.shares with
    | error err => rw [hg] at h; cases h
    | ok gross =>
      rw [hg] at h
      simp only at h
      cases hc : costsTotal .exact costs with
      | error err => rw [hc] at h; cases h
      | ok total =>
        rw [hc] at h
        simp only at h
        cases hn : netPnl .exact gross total with
        | error err => rw [hn] at h; cases h
        | ok net =>
          rw [hn] at h
          cases h
          unfold realizedPnlLong at hg
          split_ifs at hg
          cases hg
          exact ⟨avg, rfl, rfl⟩

/-- A booked fill: what the position arithmetic and the engine did. -/
theorem book_some {a a' : Account} {fc : PositionFill × List CostComponent} (h : book a fc = some a') :
    ∃ d, delta a.position fc.1 = .ok d ∧ a'.position.quantity = d.quantity ∧
      a'.position.averagePrice = d.averagePrice ∧
      ((fc.1.side = .buy ∧ a'.realized = a.realized ∧ a'.bought = a.bought + notional fc.1 ∧ a'.sold = a.sold ∧
          a'.heldAfterBuys = a.heldAfterBuys + d.quantity ∧ a'.sells = a.sells) ∨
        (fc.1.side = .sell ∧ ∃ avg, a.position.averagePrice = some avg ∧
          a'.realized = a.realized + quantize (-4) ((fc.1.price.val - avg) * fc.1.shares) ∧
          a'.bought = a.bought ∧ a'.sold = a.sold + notional fc.1 ∧ a'.heldAfterBuys = a.heldAfterBuys ∧
          a'.sells = a.sells + 1)) := by
  unfold book at h
  split at h
  · next d db' hd hr =>
    cases h
    rcases recordFill_ok hr with ⟨hs, -, -⟩ | ⟨-, event, -, ⟨_, -, hr⟩ | ⟨-, _, -, hr | hr⟩⟩
    · exact ⟨d, hd, rfl, rfl, Or.inl ⟨hs, rfl, rfl, rfl, rfl, rfl⟩⟩
    all_goals cases hr
  · next d e db' hd hr =>
    cases h
    rcases recordFill_ok hr with ⟨-, hr, -⟩ | ⟨hs, event, he, ⟨p, hsave, hr⟩ | ⟨-, _, -, hr | hr⟩⟩
    · cases hr
    · cases hr
      obtain ⟨avg, havg, hg⟩ := realize_ok he
      refine ⟨d, hd, rfl, rfl, Or.inr ⟨hs, avg, havg, ?_, rfl, rfl, rfl, rfl⟩⟩
      show a.realized + e.grossPnl = _
      rw [(saveEvent_ok hsave).1, ← hg]
      show a.realized + numeric4 event.grossPnl = _
      rw [hg, numeric4_quantize]
    all_goals cases hr
  · cases h

/-- The average price of a purchase, times the quantity after it, is the money paid up to half a unit a share. -/
theorem abs_weightedAverage_sub_le {q n : ℤ} {avg : Option ℚ} {price avg' : ℚ} (h0 : 0 ≤ q) (hn : 0 < n)
    (havg : avg = none → q = 0) (h : weightedAverage .exact q avg n price = .ok avg') :
    |(q + n : ℤ) * avg' - (q * avg.getD 0 + n * price)| ≤ (q + n : ℤ) / 20000 := by
  -- in either branch the average is the rounded quotient
  have hround : avg' = quantize (-4) ((q * avg.getD 0 + n * price) / (q + n : ℤ)) := by
    unfold weightedAverage at h
    rw [if_neg (not_le.mpr hn)] at h
    have hflat : q = 0 → (q * avg.getD 0 + n * price) / ((q + n : ℤ) : ℚ) = price := by
      rintro rfl
      have : (n : ℚ) ≠ 0 := by exact_mod_cast hn.ne'
      field_simp
      push_cast
      ring
    cases avg with
    | none => cases h; rw [hflat (havg rfl)]
    | some x =>
      simp only at h
      split_ifs at h with hq
      · cases h; rw [hflat hq]
      · cases h; rfl
  have hpos : (0 : ℚ) < (q + n : ℤ) := by exact_mod_cast (by omega : 0 < q + n)
  have hle := abs_quantize4_sub_le ((q * avg.getD 0 + n * price) / (q + n : ℤ))
  rw [← hround] at hle
  have hsplit : (q + n : ℤ) * avg' - (q * avg.getD 0 + n * price) =
      (q + n : ℤ) * (avg' - (q * avg.getD 0 + n * price) / (q + n : ℤ)) := by
    field_simp
  rw [hsplit, abs_mul, abs_of_pos hpos]
  calc ((q + n : ℤ) : ℚ) * |avg' - (q * avg.getD 0 + n * price) / (q + n : ℤ)|
      ≤ (q + n : ℤ) * (1 / 20000) := mul_le_mul_of_nonneg_left hle hpos.le
    _ = (q + n : ℤ) / 20000 := by ring

/-! ### Sequences of fills -/

/-- The bound on the imbalance. -/
def Account.allowance (a : Account) : ℚ := (a.heldAfterBuys + a.sells) / 20000

/-- What a sequence of booked fills keeps. -/
structure Account.Balanced (a : Account) : Prop where
  nonneg : 0 ≤ a.position.quantity
  average : a.position.averagePrice = none → a.position.quantity = 0
  bound : |a.imbalance| ≤ a.allowance

theorem Account.Balanced.buy {a a' : Account} {f : PositionFill} {d : PositionDelta} (hI : a.Balanced)
    (hs : f.side = .buy) (hd : delta a.position f = .ok d) (hq : a'.position.quantity = d.quantity)
    (ha : a'.position.averagePrice = d.averagePrice) (hr : a'.realized = a.realized)
    (hb : a'.bought = a.bought + notional f) (hsold : a'.sold = a.sold)
    (hheld : a'.heldAfterBuys = a.heldAfterBuys + d.quantity) (hsells : a'.sells = a.sells) : a'.Balanced := by
  rw [delta, hs] at hd
  obtain ⟨hn, hdq, -, -, avg, hw, hda⟩ := applyBuy_ok hd
  have hbound := abs_weightedAverage_sub_le hI.nonneg hn hI.average hw
  refine ⟨by rw [hq, hdq]; have := hI.nonneg; omega, fun h => (by rw [ha, hda] at h; cases h), ?_⟩
  have hstep : a'.imbalance = a.imbalance - ((a.position.quantity + f.shares : ℤ) * avg -
      (a.position.quantity * a.position.averagePrice.getD 0 + f.shares * f.price.val)) := by
    unfold Account.imbalance Account.inventory
    rw [hr, hsold, hb, hq, ha, hda, hdq, notional]
    simp only [Option.getD_some]
    ring
  have hallow : a'.allowance = a.allowance + (a.position.quantity + f.shares : ℤ) / 20000 := by
    unfold Account.allowance
    rw [hheld, hsells, hdq]
    push_cast
    ring
  rw [hstep, hallow]
  exact (abs_sub _ _).trans (add_le_add hI.bound hbound)

theorem Account.Balanced.sell {a a' : Account} {f : PositionFill} {d : PositionDelta} {avg : ℚ} (hI : a.Balanced)
    (hs : f.side = .sell) (hd : delta a.position f = .ok d) (hq : a'.position.quantity = d.quantity)
    (ha : a'.position.averagePrice = d.averagePrice) (havg : a.position.averagePrice = some avg)
    (hr : a'.realized = a.realized + quantize (-4) ((f.price.val - avg) * f.shares))
    (hb : a'.bought = a.bought) (hsold : a'.sold = a.sold + notional f)
    (hheld : a'.heldAfterBuys = a.heldAfterBuys) (hsells : a'.sells = a.sells + 1) : a'.Balanced := by
  rw [delta, hs] at hd
  obtain ⟨hn, hle, hdq, -, hzero, hpos⟩ := applySell_ok hd
  -- what is left is valued at the old average, also when nothing is left
  have hinv : a'.inventory = (a.position.quantity - f.shares : ℤ) * avg := by
    unfold Account.inventory
    rw [hq, ha]
    by_cases hz : d.quantity = 0
    · rw [hz, ← hdq, hz]; simp
    · rw [(hpos hz).1, havg, hdq]; rfl
  refine ⟨by rw [hq, hdq]; omega, fun h => ?_, ?_⟩
  · by_contra hne
    rw [hq] at hne
    rw [ha, (hpos hne).1, havg] at h
    cases h
  · have hstep : a'.imbalance = a.imbalance + (quantize (-4) ((f.price.val - avg) * f.shares) -
        (f.price.val - avg) * f.shares) := by
      unfold Account.imbalance
      rw [hinv, hr, hsold, hb, Account.inventory, havg, notional]
      simp only [Option.getD_some]
      push_cast
      ring
    have hallow : a'.allowance = a.allowance + 1 / 20000 := by
      unfold Account.allowance
      rw [hheld, hsells]
      push_cast
      ring
    rw [hstep, hallow]
    exact (abs_add_le _ _).trans (add_le_add hI.bound (abs_quantize4_sub_le _))

theorem Account.Balanced.book {a a' : Account} {fc : PositionFill × List CostComponent} (hI : a.Balanced)
    (h : book a fc = some a') : a'.Balanced := by
  obtain ⟨d, hd, hq, ha, ⟨hs, h1, h2, h3, h4, h5⟩ | ⟨hs, avg, havg, h1, h2, h3, h4, h5⟩⟩ := book_some h
  · exact hI.buy hs hd hq ha h1 h2 h3 h4 h5
  · exact hI.sell hs hd hq ha havg h1 h2 h3 h4 h5

theorem Account.flat_balanced (positionId : UUID) (k : PositionIdentity) (db : PnlDb) :
    (Account.flat positionId k db).Balanced := by
  refine ⟨le_rfl, fun _ => rfl, ?_⟩
  simp [Account.imbalance, Account.inventory, Account.allowance, Account.flat]

/-- The fills of one side. -/
def ofSide (side : Side) (fills : List (PositionFill × List CostComponent)) : List PositionFill :=
  (fills.map Prod.fst).filter fun f => f.side = side

/-- Along a sequence of booked fills the account stays balanced, and its sums are those of the fills. -/
theorem balanced_of_foldlM : ∀ (fills : List (PositionFill × List CostComponent)) {a a' : Account}, a.Balanced →
    fills.foldlM book a = some a' →
    a'.Balanced ∧ a'.bought = a.bought + ((ofSide .buy fills).map notional).sum ∧
      a'.sold = a.sold + ((ofSide .sell fills).map notional).sum ∧
      a'.sells = a.sells + (ofSide .sell fills).length
  | [], _, _, hI, h => by cases h; simpa [ofSide] using hI
  | fc :: fills, a, a', hI, h => by
    rw [List.foldlM_cons] at h
    cases hb : book a fc with
    | none => rw [hb] at h; cases h
    | some b =>
      rw [hb] at h
      obtain ⟨hbal, h1, h2, h3⟩ := balanced_of_foldlM fills (hI.book hb) h
      refine ⟨hbal, ?_⟩
      rw [h1, h2, h3]
      obtain ⟨d, -, -, -, ⟨hs, -, e1, e2, -, e3⟩ | ⟨hs, _, -, -, e1, e2, -, e3⟩⟩ := book_some hb
      · rw [e1, e2, e3]
        simp [ofSide, hs, add_assoc]
      · rw [e1, e2, e3]
        simp [ofSide, hs, add_assoc, add_comm]

/-- **No money appears or disappears beyond rounding**: over every sequence of booked fills from a flat position,
realised gross P&L differs from sales minus purchases plus the remaining quantity at its average price by at most
0.00005 for every share held after a purchase and 0.00005 for every sale. -/
theorem imbalance_le {positionId : UUID} {k : PositionIdentity} {db : PnlDb} {a : Account}
    (fills : List (PositionFill × List CostComponent))
    (h : fills.foldlM book (Account.flat positionId k db) = some a) :
    |a.realized - (((ofSide .sell fills).map notional).sum - ((ofSide .buy fills).map notional).sum +
        a.position.quantity * a.position.averagePrice.getD 0)| ≤
      0.00005 * a.heldAfterBuys + 0.00005 * (ofSide .sell fills).length := by
  obtain ⟨hb, h1, h2, h3⟩ := balanced_of_foldlM fills (Account.flat_balanced positionId k db) h
  have hbound := hb.bound
  unfold Account.imbalance Account.inventory Account.allowance at hbound
  rw [h1, h2, h3] at hbound
  simp only [Account.flat, zero_add] at hbound
  refine hbound.trans (le_of_eq ?_)
  ring

/-- Purchases of 1 at 10 and of 2 at 10.0001, a sale of 2 at 11. -/
def roundedTrades : List (PositionFill × List CostComponent) :=
  [(paperFill "e1" .buy (Dec.ofNat 1) (Dec.ofNat 10) (by decide +kernel), []),
    (paperFill "e2" .buy (Dec.ofNat 2) ⟨false, 100001, -4⟩ (by decide +kernel), []),
    (paperFill "e3" .sell (Dec.ofNat 2) (Dec.ofNat 11) (by decide +kernel), [])]

theorem imbalance_le_rounded : ∃ a, roundedTrades.foldlM book
      (Account.flat ⟨4⟩ ⟨⟨3⟩, ⟨2⟩, "PAPER"⟩ ⟨Table.empty, [⟨4⟩]⟩) = some a ∧
    |a.realized - (((ofSide .sell roundedTrades).map notional).sum - ((ofSide .buy roundedTrades).map notional).sum +
        a.position.quantity * a.position.averagePrice.getD 0)| ≤
      0.00005 * a.heldAfterBuys + 0.00005 * (ofSide .sell roundedTrades).length := by
  have hsome : (roundedTrades.foldlM book
      (Account.flat ⟨4⟩ ⟨⟨3⟩, ⟨2⟩, "PAPER"⟩ ⟨Table.empty, [⟨4⟩]⟩)).isSome = true := by decide +kernel
  obtain ⟨a, ha⟩ := Option.isSome_iff_exists.mp hsome
  exact ⟨a, ha, imbalance_le roundedTrades ha⟩

end AlphaAlgo.Pnl
