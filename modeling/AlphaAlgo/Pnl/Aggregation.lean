import AlphaAlgo.Pnl.Balance
import AlphaAlgo.Pnl.Replay
import AlphaAlgo.Lib.GroupBy
import AlphaAlgo.Lib.Loop
import AlphaAlgo.Lib.Sums

/-!
# Aggregation — realised profit and loss by strategy, account and day

`aggregateRealized` puts the events into buckets by a key and sums every bucket.  The sums are those of a decimal context,
rounded to four places.

* `Recorded.net_eq`: a recorded event has its net as the difference of gross and costs, with nothing lost.
* `aggregate_adds_up`: the buckets partition the events and their sums add up to the totals, as long as no running total
  is rounded and every event has a day in the zone.
* `exact_of_length_le`: no running total of ten thousand million recorded events is rounded.
-/

namespace AlphaAlgo.Pnl

open Position

/-! ### The aggregation -/

/-- A bucket; `combine_unrealized` fills the last three fields. -/
structure AggregatedPnl where
  key : String
  realizedGross : ℚ
  realizedCosts : ℚ
  realizedNet : ℚ
  unrealizedPnl : Option ℚ := none
  grossPnl : ℚ := 0
  netPnl : ℚ := 0
  tradeCount : ℕ := 0
deriving DecidableEq

/-- The running sums of `_sum_realized`. -/
structure Running where
  gross : ℚ := 0
  costs : ℚ := 0
  net : ℚ := 0
  count : ℕ := 0

/-- What an aggregation raises. -/
inductive AggregationError where
  /-- `OverflowError`: the day is not between the years 1 and 9999. -/
  | dateRange
  | accounting (err : AccountingError)
deriving DecidableEq, Repr

section

variable (ctx : Ctx)

def Running.add (s : Running) (e : PnlEvent) : Running :=
  if e.eventType ≠ .realizedPnl then s
  else ⟨ctx.fix (s.gross + e.grossPnl), ctx.fix (s.costs + e.costs), ctx.fix (s.net + e.netPnl), s.count + 1⟩

def sumRealized (events : List PnlEvent) : Except AccountingError AggregatedPnl := do
  let s := events.foldl (Running.add ctx) {}
  let gross ← roundMoney ctx s.gross
  let costs ← roundMoney ctx s.costs
  let net ← roundMoney ctx s.net
  return { key := "", realizedGross := gross, realizedCosts := costs, realizedNet := net, tradeCount := s.count }

/-- `buckets.setdefault(key_fn(e), []).append(e)` -/
def addToBucket (keyFn : PnlEvent → Except AggregationError String) (buckets : List (String × List PnlEvent))
    (e : PnlEvent) : Except AggregationError (List (String × List PnlEvent)) :=
  (keyFn e).map fun key => addToGroup (fun _ => some key) buckets e

/-- The sums of a bucket, under its key. -/
def sumBucket (p : String × List PnlEvent) : Except AggregationError AggregatedPnl :=
  match sumRealized ctx p.2 with
  | .error err => .error (.accounting err)
  | .ok agg => .ok
      { key := p.1, realizedGross := agg.realizedGross, realizedCosts := agg.realizedCosts,
        realizedNet := agg.realizedNet, tradeCount := agg.tradeCount }

def aggregateRealized (events : List PnlEvent) (keyFn : PnlEvent → Except AggregationError String) :
    Except AggregationError (List AggregatedPnl) := do
  let buckets ← events.foldlM (addToBucket keyFn) []
  (buckets.mergeSort fun p q => p.1 ≤ q.1).mapM (sumBucket ctx)

def strategyAggregation (events : List PnlEvent) : Except AggregationError (List AggregatedPnl) :=
  aggregateRealized ctx events fun e => .ok e.strategyRunId.str

def accountAggregation (events : List PnlEvent) : Except AggregationError (List AggregatedPnl) :=
  aggregateRealized ctx events fun e => .ok e.accountId.str

/-- `t.astimezone(tz)` for a zone with a fixed offset, by way of UTC. -/
def astimezone (t : DateTime) (tz : ℤ) : Option DateTime :=
  (t.add? (-(t.utcoffset.getD 0))).bind fun utc => (utc.add? tz).map fun u => { u with utcoffset := some tz }

/-- `local.date().isoformat()` -/
def dayKey (tz : ℤ) (e : PnlEvent) : Except AggregationError String :=
  match astimezone e.occurredAt tz with
  | none => .error .dateRange
  | some t => .ok (DateTime.padded 4 t.year ++ "-" ++ DateTime.padded 2 t.month ++ "-" ++ DateTime.padded 2 t.day)

def dailyAggregation (events : List PnlEvent) (tz : ℤ) : Except AggregationError (List AggregatedPnl) :=
  aggregateRealized ctx events (dayKey tz)

end

/-- The groupings on offer; a trading day is that of a zone. -/
inductive Grouping where
  | strategy
  | account
  | day (tz : ℤ)

def Grouping.aggregate (ctx : Ctx) (events : List PnlEvent) : Grouping → Except AggregationError (List AggregatedPnl)
  | strategy => strategyAggregation ctx events
  | account => accountAggregation ctx events
  | day tz => dailyAggregation ctx events tz

/-- The key of an event; an event may have no day. -/
def Grouping.key (g : Grouping) (e : PnlEvent) : Option String :=
  match g with
  | strategy => some e.strategyRunId.str
  | account => some e.accountId.str
  | day tz => (dayKey tz e).toOption

/-! ### Recorded events -/

/-- An event that a call of `record_fill` has stored. -/
def Recorded (e : PnlEvent) : Prop :=
  ∃ halt db f p costs db', recordFill .default halt db f p costs = .ok (.applied e, db')

theorem roundMoney_ok {ctx : Ctx} {x y : ℚ} (h : roundMoney ctx x = .ok y) : y = quantize (-4) x := by
  unfold roundMoney Ctx.quantize? at h
  cases hp : ctx.prec with
  | none => rw [hp] at h; cases h; rfl
  | some p =>
    rw [hp] at h
    dsimp only at h
    split_ifs at h
    cases h
    rfl

/-- The amounts of a recorded event: four places and fourteen digits before the point. -/
structure Amounts.Stored (a : Amounts) : Prop where
  gross : Units (-4) a.gross ∧ |a.gross| < 10 ^ 14
  costs : Units (-4) a.costs ∧ |a.costs| < 10 ^ 14
  net : Units (-4) a.net ∧ |a.net| < 10 ^ 14

theorem Recorded.amounts {e : PnlEvent} (h : Recorded e) : ∃ a : Amounts, a.Stored ∧
    netPnl .default a.gross a.costs = .ok a.net ∧ e.grossPnl = a.gross ∧ e.costs = a.costs ∧ e.netPnl = a.net := by
  obtain ⟨halt, db, f, p, costs, db', h⟩ := h
  rcases recordFill_ok h with ⟨-, hr, -⟩ | ⟨-, event, hrealize, ⟨persisted, hsave, hr⟩ | ⟨-, _, -, hr | hr⟩⟩
  · cases hr
  · cases hr
    cases p with
    | none => cases hrealize
    | some p =>
      obtain ⟨a, ha, rfl⟩ := realize_iff.mp hrealize
      have hgross := ha.gross
      unfold realizedPnlLong at hgross
      split_ifs at hgross
      have hgross := roundMoney_ok hgross
      have hcosts := roundMoney_ok ha.costs
      have hnet := roundMoney_ok ha.net
      have hfits : eventFits (saleEvent f p a) = true := by
        unfold saveEvent at hsave
        split_ifs at hsave with hfits
        simpa using hfits
      obtain ⟨rfl, -⟩ := saveEvent_ok hsave
      have hkeep : ∀ {x y : ℚ}, x = quantize (-4) y → numeric4 x = x := by
        rintro x y rfl
        exact numeric4_quantize y
      unfold eventFits at hfits
      simp only [Bool.and_eq_true, List.all_cons, List.all_nil, decide_eq_true_eq, Bool.and_true] at hfits
      obtain ⟨-, -, -, hg, hc, hn⟩ := hfits
      refine ⟨a, ⟨⟨?_, ?_⟩, ⟨?_, ?_⟩, ?_, ?_⟩, ha.net, hkeep hgross, hkeep hcosts, hkeep hnet⟩
      · rw [hgross]; exact units_quantize _ _
      · rw [← hkeep hgross]; exact hg
      · rw [hcosts]; exact units_quantize _ _
      · rw [← hkeep hcosts]; exact hc
      · rw [hnet]; exact units_quantize _ _
      · rw [← hkeep hnet]; exact hn
  · cases hr
  · cases hr

/-- **The net of a recorded event** is exactly gross less costs. -/
theorem Recorded.net_eq {e : PnlEvent} (h : Recorded e) : e.netPnl = e.grossPnl - e.costs := by
  obtain ⟨a, ⟨hgross, hcosts, -⟩, hnet, heg, hec, hen⟩ := h.amounts
  rw [heg, hec, hen, roundMoney_ok hnet]
  have hunits := hgross.1.sub hcosts.1
  have habs : |a.gross - a.costs| < 10 ^ ((28 : ℕ) + (-4) : ℤ) := by
    calc |a.gross - a.costs| ≤ |a.gross| + |a.costs| := abs_sub _ _
      _ < 10 ^ 14 + 10 ^ 14 := add_lt_add hgross.2 hcosts.2
      _ < 10 ^ ((28 : ℕ) + (-4) : ℤ) := by norm_num
  have hfix : Ctx.default.fix (a.gross - a.costs) = a.gross - a.costs :=
    Ctx.fix_of_digits (digits_of_units hunits habs)
  rw [hfix, quantize_of_units hunits]

/-! ### Sums -/

/-- No running total of a column is rounded, and its total has at most 24 digits before the point. -/
def Fits (column : List ℚ) : Prop := Exact 28 column ∧ |column.sum| < 10 ^ 24

structure FitEvents (events : List PnlEvent) : Prop where
  gross : Fits (events.map PnlEvent.grossPnl)
  costs : Fits (events.map PnlEvent.costs)
  net : Fits (events.map PnlEvent.netPnl)

/-- The exact sums. -/
def exactSums (events : List PnlEvent) : AggregatedPnl where
  key := ""
  realizedGross := (events.map PnlEvent.grossPnl).sum
  realizedCosts := (events.map PnlEvent.costs).sum
  realizedNet := (events.map PnlEvent.netPnl).sum
  tradeCount := events.length

theorem foldl_add (ctx : Ctx) (events : List PnlEvent) (s : Running) : events.foldl (Running.add ctx) s =
    ⟨(events.map PnlEvent.grossPnl).foldl (fun a x => ctx.fix (a + x)) s.gross,
      (events.map PnlEvent.costs).foldl (fun a x => ctx.fix (a + x)) s.costs,
      (events.map PnlEvent.netPnl).foldl (fun a x => ctx.fix (a + x)) s.net, s.count + events.length⟩ := by
  induction events generalizing s with
  | nil => rfl
  | cons e events ih =>
    have hstep : Running.add ctx s e =
        ⟨ctx.fix (s.gross + e.grossPnl), ctx.fix (s.costs + e.costs), ctx.fix (s.net + e.netPnl), s.count + 1⟩ := by
      unfold Running.add
      cases e.eventType
      exact if_neg (not_not.mpr rfl)
    rw [List.foldl_cons, ih, hstep, List.length_cons]
    simp only [List.map_cons, List.foldl_cons, Nat.add_assoc, Nat.add_comm 1]

theorem roundMoney_sum {column : List ℚ} (hu : ∀ x ∈ column, Units (-4) x) (hfit : Fits column) :
    roundMoney .default (column.foldl (fun a x => Ctx.default.fix (a + x)) 0) = .ok column.sum := by
  have hsum : column.foldl (fun a x => Ctx.default.fix (a + x)) 0 = column.sum := foldl_fix_eq_sum hfit.1
  have hround : Ctx.default.quantize? (-4) column.sum = some column.sum :=
    Ctx.quantize?_of_units (units_sum hu) (hfit.2.trans_eq (by norm_num))
  rw [hsum, roundMoney, hround]

theorem sumRealized_eq {events : List PnlEvent} (hrec : ∀ e ∈ events, Recorded e) (hfit : FitEvents events) :
    sumRealized .default events = .ok (exactSums events) := by
  have hunits : ∀ {column : PnlEvent → ℚ}, (∀ e, Recorded e → Units (-4) (column e)) →
      ∀ x ∈ events.map column, Units (-4) x := by
    intro column hcolumn x hx
    obtain ⟨e, he, rfl⟩ := List.mem_map.mp hx
    exact hcolumn e (hrec e he)
  have hgross := roundMoney_sum (hunits fun e he => by
    obtain ⟨a, ha, -, heq, -⟩ := he.amounts; exact heq ▸ ha.gross.1) hfit.gross
  have hcosts := roundMoney_sum (hunits fun e he => by
    obtain ⟨a, ha, -, -, heq, -⟩ := he.amounts; exact heq ▸ ha.costs.1) hfit.costs
  have hnet := roundMoney_sum (hunits fun e he => by
    obtain ⟨a, ha, -, -, -, heq⟩ := he.amounts; exact heq ▸ ha.net.1) hfit.net
  rw [sumRealized, foldl_add]
  dsimp only
  rw [hgross, hcosts, hnet, Nat.zero_add]
  rfl

/-! ### Buckets -/

/-- The parts hold every event once, each under its key. -/
structure Partitions (key : PnlEvent → Option String) (events : List PnlEvent)
    (parts : List (String × List PnlEvent)) : Prop where
  nodup : (parts.map Prod.fst).Nodup
  all : (parts.flatMap Prod.snd).Perm events
  group : ∀ p ∈ parts, p.2 = events.filter fun e => key e = some p.1

/-- The buckets add up to the totals, and each balances. -/
structure AddsUp (totals : AggregatedPnl) (buckets : List AggregatedPnl) : Prop where
  gross : (buckets.map AggregatedPnl.realizedGross).sum = totals.realizedGross
  costs : (buckets.map AggregatedPnl.realizedCosts).sum = totals.realizedCosts
  net : (buckets.map AggregatedPnl.realizedNet).sum = totals.realizedNet
  count : (buckets.map AggregatedPnl.tradeCount).sum = totals.tradeCount
  balanced : ∀ b ∈ buckets, b.realizedNet = b.realizedGross - b.realizedCosts

theorem foldlM_addToBucket {keyFn : PnlEvent → Except AggregationError String} : ∀ {events : List PnlEvent},
    (∀ e ∈ events, ((keyFn e).toOption).isSome) → ∀ buckets, events.foldlM (addToBucket keyFn) buckets =
      .ok (events.foldl (addToGroup fun e => (keyFn e).toOption) buckets)
  | [], _, _ => rfl
  | e :: events, h, buckets => by
    have he := h e List.mem_cons_self
    rw [List.foldlM_cons, List.foldl_cons]
    cases hkey : keyFn e with
    | error err => rw [hkey] at he; cases he
    | ok key =>
      have hadd : addToBucket keyFn buckets e = .ok (addToGroup (fun e => (keyFn e).toOption) buckets e) := by
        simp only [addToBucket, addToGroup, hkey, Except.map, Except.toOption]
      rw [hadd]
      exact foldlM_addToBucket (fun e' he' => h e' (List.mem_cons_of_mem _ he')) _

theorem partitions_groupBy {key : PnlEvent → Option String} {events : List PnlEvent} (h : ∀ e ∈ events, (key e).isSome) :
    Partitions key events ((groupBy key events).mergeSort fun p q => p.1 ≤ q.1) := by
  have hperm := List.mergeSort_perm (groupBy key events) fun p q => p.1 ≤ q.1
  refine ⟨?_, ?_, fun p hp => group_eq_filter (hperm.mem_iff.mp hp)⟩
  · exact (hperm.map Prod.fst).nodup_iff.mpr (nodup_keys_groupBy events)
  · refine (hperm.flatMap_right Prod.snd).trans ((perm_flatMap_groupBy events).trans ?_)
    rw [List.filter_eq_self.mpr h]

/-- The sum of a bucket's column, over all buckets. -/
theorem Partitions.sum_eq {M : Type*} [AddCommMonoid M] {key : PnlEvent → Option String} {events : List PnlEvent}
    {parts : List (String × List PnlEvent)} (h : Partitions key events parts) (f : PnlEvent → M) :
    (parts.map fun p => (p.2.map f).sum).sum = (events.map f).sum := by
  rw [← (h.all.map f).sum_eq, List.map_flatMap, List.flatMap, List.sum_flatten, List.map_map]
  rfl

/-- What an aggregation with the given keys returns: buckets that partition the events and add up to the totals. -/
def Aggregates (key : PnlEvent → Option String) (events : List PnlEvent)
    (result : Except AggregationError (List AggregatedPnl)) : Prop :=
  ∃ totals buckets parts, sumRealized .default events = .ok totals ∧ result = .ok buckets ∧
    Partitions key events parts ∧ parts.mapM (sumBucket .default) = .ok buckets ∧ AddsUp totals buckets ∧
    totals.tradeCount = events.length

theorem aggregates {keyFn : PnlEvent → Except AggregationError String} {events : List PnlEvent}
    (hrec : ∀ e ∈ events, Recorded e) (hkey : ∀ e ∈ events, ((keyFn e).toOption).isSome) (hfit : FitEvents events)
    (hparts : ∀ k, FitEvents (events.filter fun e => (keyFn e).toOption = some k)) :
    Aggregates (fun e => (keyFn e).toOption) events (aggregateRealized .default events keyFn) := by
  have hpart := partitions_groupBy hkey
  set parts := (groupBy (fun e => (keyFn e).toOption) events).mergeSort fun p q => p.1 ≤ q.1 with hparts_eq
  have hmem : ∀ p ∈ parts, ∀ e ∈ p.2, Recorded e := by
    intro p hp e he
    rw [hpart.group p hp] at he
    exact hrec e (List.mem_of_mem_filter he)
  have hsums : parts.mapM (sumBucket .default) = .ok (parts.map fun p => { exactSums p.2 with key := p.1 }) := by
    refine Loop.mapM_ok fun p hp => ?_
    have hp2 := hparts p.1
    rw [← hpart.group p hp] at hp2
    rw [sumBucket, sumRealized_eq (hmem p hp) hp2]
    rfl
  refine ⟨exactSums events, _, parts, sumRealized_eq hrec hfit, ?_, hpart, hsums, ?_, rfl⟩
  · rw [aggregateRealized, foldlM_addToBucket hkey]
    exact hsums
  · refine ⟨?_, ?_, ?_, ?_, ?_⟩
    · rw [List.map_map]; exact hpart.sum_eq PnlEvent.grossPnl
    · rw [List.map_map]; exact hpart.sum_eq PnlEvent.costs
    · rw [List.map_map]; exact hpart.sum_eq PnlEvent.netPnl
    · rw [List.map_map]
      have := hpart.sum_eq fun _ => 1
      simpa [exactSums, Function.comp_def] using this
    · intro b hb
      obtain ⟨p, hp, rfl⟩ := List.mem_map.mp hb
      show (p.2.map PnlEvent.netPnl).sum = (p.2.map PnlEvent.grossPnl).sum - (p.2.map PnlEvent.costs).sum
      rw [eq_sub_iff_add_eq, ← List.sum_map_add]
      refine congrArg List.sum (List.map_congr_left fun e he => ?_)
      rw [(hmem p hp e he).net_eq, sub_add_cancel]

/-- **Every grouping adds up**: the buckets partition the recorded events, their sums and counts add up to the totals,
and each has its net as gross less costs, when every event has a key and no running total is rounded. -/
theorem aggregate_adds_up (g : Grouping) {events : List PnlEvent} (hrec : ∀ e ∈ events, Recorded e)
    (hkey : ∀ e ∈ events, (g.key e).isSome) (hfit : FitEvents events)
    (hparts : ∀ k, FitEvents (events.filter fun e => g.key e = some k)) :
    Aggregates g.key events (g.aggregate .default events) := by
  cases g with
  | strategy => exact @aggregates (fun e => .ok e.strategyRunId.str) events hrec hkey hfit hparts
  | account => exact @aggregates (fun e => .ok e.accountId.str) events hrec hkey hfit hparts
  | day tz => exact aggregates hrec hkey hfit hparts

/-! ### Lists that fit -/

theorem fits_of_length {column : PnlEvent → ℚ} {events part : List PnlEvent}
    (hcolumn : ∀ e ∈ events, Units (-4) (column e) ∧ |column e| < 10 ^ 14) (hlength : events.length < 10 ^ 10)
    (hpart : part.Sublist events) : Fits (part.map column) := by
  have hsum : ((events.map column).map fun x => |x|).sum < 10 ^ 24 := by
    have hle : ∀ x ∈ (events.map column).map fun x => |x|, x ≤ (10 : ℚ) ^ 14 := by
      intro x hx
      obtain ⟨y, hy, rfl⟩ := List.mem_map.mp hx
      obtain ⟨e, he, rfl⟩ := List.mem_map.mp hy
      exact (hcolumn e he).2.le
    have hcard := List.sum_le_card_nsmul _ _ hle
    rw [List.length_map, List.length_map, nsmul_eq_mul] at hcard
    have hlength : (events.length : ℚ) < 10 ^ 10 := by exact_mod_cast hlength
    calc ((events.map column).map fun x => |x|).sum ≤ events.length * 10 ^ 14 := hcard
      _ < 10 ^ 10 * 10 ^ 14 := mul_lt_mul_of_pos_right hlength (by norm_num)
      _ = 10 ^ 24 := by norm_num
  have hsub := hpart.map column
  have hunits : ∀ x ∈ events.map column, Units (-4) x := by
    intro x hx
    obtain ⟨e, he, rfl⟩ := List.mem_map.mp hx
    exact (hcolumn e he).1
  refine ⟨exact_of_units hunits (hsum.trans_eq (by norm_num)) hsub, ?_⟩
  exact ((abs_sum_le _).trans (sum_abs_le_of_sublist hsub)).trans_lt hsum

/-- **Fewer than ten thousand million recorded events** are never rounded, whatever the grouping. -/
theorem fitEvents_of_length {events part : List PnlEvent} (hrec : ∀ e ∈ events, Recorded e)
    (hlength : events.length < 10 ^ 10) (hpart : part.Sublist events) : FitEvents part where
  gross := fits_of_length (fun e he => by
    obtain ⟨a, ha, -, heq, -⟩ := (hrec e he).amounts; exact heq ▸ ha.gross) hlength hpart
  costs := fits_of_length (fun e he => by
    obtain ⟨a, ha, -, -, heq, -⟩ := (hrec e he).amounts; exact heq ▸ ha.costs) hlength hpart
  net := fits_of_length (fun e he => by
    obtain ⟨a, ha, -, -, -, heq⟩ := (hrec e he).amounts; exact heq ▸ ha.net) hlength hpart

/-! ### Sales of one share, above the average of 100 -/

theorem sale_valid (gain : ℕ) : blank "e1" = false ∧ 0 < (Dec.ofNat 1).val ∧ 0 < (Dec.ofNat (100 + gain)).val :=
  ⟨by decide +kernel, by rw [Dec.val_ofNat]; norm_num, by rw [Dec.val_ofNat]; positivity⟩

/-- A sale at a given gain and instant. -/
def saleAt (gain : ℕ) (t : DateTime) (ht : t.aware = true) : PositionFill :=
  { paperFill "e1" .sell (Dec.ofNat 1) (Dec.ofNat (100 + gain)) (sale_valid gain) with
    occurredAt := t
    occurredAt_aware := ht }

/-- What recording the sale stores, when its call succeeds. -/
theorem recorded_saleAt {gain : ℕ} {t : DateTime} (ht : t.aware = true) {x : ℚ}
    (h : (appliedOf (recordFill .default false sampleDb (saleAt gain t ht) (some samplePosition) [])).map
      (fun r => r.1.grossPnl) = some x) : ∃ e, Recorded e ∧ e.occurredAt = t ∧ e.grossPnl = x := by
  obtain ⟨e, db, hrecorded⟩ := appliedOf_some (Option.isSome_map ▸ Option.isSome_of_eq_some h)
  obtain ⟨-, a, -, -, rfl, -⟩ := recordFill_applied rfl hrecorded
  rw [hrecorded] at h
  exact ⟨_, ⟨_, _, _, _, _, _, hrecorded⟩, rfl, Option.some.inj h⟩

/-- Two sales of one day in UTC fall on two days of a zone. -/
theorem aggregate_adds_up_days : ∃ e e', Recorded e ∧ Recorded e' ∧
    Aggregates (Grouping.day 19800000000).key [e, e']
      (Grouping.aggregate .default [e, e'] (.day 19800000000)) := by
  obtain ⟨e, he, ht, -⟩ := @recorded_saleAt 10 ⟨2026, 8, 12, 9, 30, 0, 0, some 0⟩ rfl 10 (by decide +kernel)
  obtain ⟨e', he', ht', -⟩ := @recorded_saleAt 20 ⟨2026, 8, 12, 20, 0, 0, 0, some 0⟩ rfl 20 (by decide +kernel)
  have hrec : ∀ x ∈ [e, e'], Recorded x := by simp [he, he']
  have hlength : [e, e'].length < 10 ^ 10 := by simp
  refine ⟨e, e', he, he', aggregate_adds_up (.day 19800000000) hrec ?_ (fitEvents_of_length hrec hlength (.refl _))
    fun k => fitEvents_of_length hrec hlength List.filter_sublist⟩
  simp only [List.mem_cons, List.not_mem_nil, or_false, forall_eq_or_imp, forall_eq, Grouping.key, dayKey, ht, ht']
  decide +kernel

/-- The computed total of a number that is repeated. -/
theorem foldl_fix_replicate {n m : ℕ} (h : n * m < 10 ^ 28) :
    (List.replicate n (m : ℚ)).foldl (fun a x => Ctx.default.fix (a + x)) 0 = ((n * m : ℕ) : ℚ) := by
  have hexact : Exact 28 (List.replicate n (m : ℚ)) := by
    intro k
    rw [List.take_replicate, List.sum_replicate, nsmul_eq_mul, ← Nat.cast_mul]
    exact digits_natCast ((Nat.mul_le_mul_right m (Nat.min_le_right k n)).trans_lt h)
  have hsum := foldl_fix_eq_sum hexact
  rw [List.sum_replicate, nsmul_eq_mul, ← Nat.cast_mul] at hsum
  exact hsum

/-- A sale in the last hour of the year 9999 has no day in a zone east of Greenwich, and the total of enough large sales
has too many digits. -/
theorem not_aggregate_adds_up :
    (¬ ∀ events, (∀ e ∈ events, Recorded e) → Aggregates (Grouping.day 19800000000).key events
      (Grouping.aggregate .default events (.day 19800000000))) ∧
    ¬ ∀ events, (∀ e ∈ events, Recorded e) → Aggregates Grouping.strategy.key events
      (Grouping.aggregate .default events .strategy) := by
  constructor
  · obtain ⟨e, he, ht, -⟩ := @recorded_saleAt 10 ⟨9999, 12, 31, 23, 30, 0, 0, some 0⟩ rfl 10 (by decide +kernel)
    intro h
    obtain ⟨totals, buckets, parts, -, hresult, -⟩ := h [e] (by simpa using he)
    have hkey : dayKey 19800000000 e = .error .dateRange := by
      rw [dayKey, ht]
      rfl
    simp only [Grouping.aggregate, dailyAggregation, aggregateRealized, List.foldlM_cons, addToBucket, hkey,
      Except.map] at hresult
    cases hresult
  · obtain ⟨e, he, -, hgross⟩ := @recorded_saleAt (10 ^ 13) ⟨2026, 8, 12, 9, 30, 0, 0, some 0⟩ rfl (10 ^ 13)
      (by decide +kernel)
    intro h
    obtain ⟨totals, buckets, parts, htotals, -⟩ := h (List.replicate (10 ^ 11) e) fun x hx => by
      rw [List.eq_of_mem_replicate hx]
      exact he
    rw [sumRealized, foldl_add] at htotals
    dsimp only at htotals
    have hsum := @foldl_fix_replicate (10 ^ 11) (10 ^ 13) (by norm_num)
    rw [Nat.cast_pow, Nat.cast_ofNat] at hsum
    rw [List.map_replicate, hgross, hsum] at htotals
    have hround : roundMoney .default (((10 ^ 11 * 10 ^ 13 : ℕ)) : ℚ) = .error .invalidOperation := by
      have hunits : Units (-4) (((10 ^ 11 * 10 ^ 13 : ℕ)) : ℚ) := ⟨10 ^ 28, by norm_num⟩
      rw [roundMoney, Ctx.quantize?, Ctx.default, quantize_of_units hunits]
      norm_num
    rw [hround] at htotals
    cases htotals

end AlphaAlgo.Pnl
