import AlphaAlgo.Lib.Loop
import AlphaAlgo.Lib.Sums
import AlphaAlgo.Paper.BookRuns

/-!
# Positions — the positions that the paper broker reports

`positions` folds the fills of an account, instrument by instrument.  Sums and mean are those of the 28-digit context,
the mean is rounded to eight places, and a position without a positive price is refused.

* `positionOf_eq`: the position of an instrument whose fills fit the context and are priced at a quantum or more.
* `positions_listed`: the report lists the instruments that are not flat, with the signed sum of their fills and a price
  between the lowest and the highest.
-/

namespace AlphaAlgo.Paper.PaperOrderBook

/-! ### Fills of an instrument -/

/-- The fills of an instrument for an account, in order. -/
def fillsOf (book : PaperOrderBook) (brokerAccountId instrumentId : UUID) : List PaperFillRecord :=
  (book.fills.filter fun f => f.brokerAccountId = brokerAccountId).filter fun f => f.instrumentId = instrumentId

/-- Purchases count, sales count against. -/
def signed (f : PaperFillRecord) : ℤ :=
  match f.side with
  | .buy => f.fillQuantity
  | .sell => -f.fillQuantity

def net (fills : List PaperFillRecord) : ℤ := (fills.map signed).sum

def traded (fills : List PaperFillRecord) : ℤ := (fills.map PaperFillRecord.fillQuantity).sum

/-- Quantities fit the context; prices of an instrument that is not flat are at least a quantum, and the traded quantity
at any of them, rounded up to eight places, has at most 28 digits. -/
structure Fits (fills : List PaperFillRecord) : Prop where
  quantity : traded fills < 10 ^ 28
  prices : net fills ≠ 0 → ∀ f ∈ fills, (10 : ℚ) ^ (-8 : ℤ) ≤ f.fillPrice ∧
    ⌈f.fillPrice / 10 ^ (-8 : ℤ)⌉ * traded fills < 10 ^ 28

/-- A price from the lowest to the highest fill price, up to a quantum. -/
def Between (fills : List PaperFillRecord) (price : ℚ) : Prop :=
  ∃ low ∈ fills, ∃ high ∈ fills, (∀ f ∈ fills, low.fillPrice ≤ f.fillPrice ∧ f.fillPrice ≤ high.fillPrice) ∧
    low.fillPrice - 10 ^ (-8 : ℤ) ≤ price ∧ price ≤ high.fillPrice + 10 ^ (-8 : ℤ)

/-! ### Sums of quantities -/

section

variable {fills : List PaperFillRecord}

theorem quantity_le_traded {f : PaperFillRecord} (hf : f ∈ fills) : f.fillQuantity ≤ traded fills := by
  refine List.single_le_sum (fun x hx => ?_) _ (List.mem_map_of_mem hf)
  obtain ⟨g, -, rfl⟩ := List.mem_map.mp hx
  exact g.quantity_pos.le

theorem abs_signed (f : PaperFillRecord) : |signed f| = f.fillQuantity := by
  unfold signed
  cases f.side with
  | buy => exact abs_of_pos f.quantity_pos
  | sell => rw [abs_neg, abs_of_pos f.quantity_pos]

/-- A computed sum of integers whose amounts are the quantities. -/
theorem sumFixed_eq {g : PaperFillRecord → ℤ} (hg : ∀ f ∈ fills, |g f| = f.fillQuantity) (h : traded fills < 10 ^ 28) :
    sumFixed (fills.map fun f => (g f : ℚ)) = (fills.map g).sum := by
  have hunits : ∀ x ∈ fills.map fun f => (g f : ℚ), Units 0 x := by
    intro x hx
    obtain ⟨f, -, rfl⟩ := List.mem_map.mp hx
    exact ⟨g f, by simp⟩
  have habs : ((fills.map fun f => (g f : ℚ)).map fun x => |x|).sum < 10 ^ (((28 : ℕ) : ℤ) + 0) := by
    have hterm : ∀ f ∈ fills, ((fun x => |x|) ∘ fun f => (g f : ℚ)) f = ((f.fillQuantity : ℤ) : ℚ) := by
      intro f hf
      rw [Function.comp_apply, ← Int.cast_abs, hg f hf]
    have hcast : (fills.map fun f => ((f.fillQuantity : ℤ) : ℚ)).sum = (traded fills : ℚ) := by
      rw [traded, Int.cast_list_sum, List.map_map]
      rfl
    rw [List.map_map, List.map_congr_left hterm, hcast]
    exact_mod_cast h
  have hsum : sumFixed (fills.map fun f => (g f : ℚ)) = (fills.map fun f => (g f : ℚ)).sum :=
    foldl_fix_eq_sum (exact_of_units hunits habs (.refl _))
  rw [hsum, Int.cast_list_sum, List.map_map]
  rfl

theorem sumFixed_signedQuantity (h : traded fills < 10 ^ 28) : sumFixed (fills.map signedQuantity) = net fills := by
  have hsigned : ∀ f ∈ fills, signedQuantity f = signed f := by
    intro f hf
    unfold signedQuantity signed
    cases f.side with
    | buy => rfl
    | sell =>
      have hdigits : Digits 28 (-f.fillQuantity : ℚ) := by
        refine ⟨-f.fillQuantity, 0, by simp, ?_⟩
        rw [abs_neg, abs_of_pos f.quantity_pos]
        exact (quantity_le_traded hf).trans_lt h
      show Ctx.default.fix (-f.fillQuantity) = _
      rw [Ctx.default, Ctx.fix_of_digits hdigits]
      simp
  rw [List.map_congr_left hsigned]
  exact sumFixed_eq (fun f _ => abs_signed f) h

/-! ### The position of an instrument -/

/-- The mean that is computed, before it is rounded to eight places. -/
def mean (fills : List PaperFillRecord) : ℚ :=
  Ctx.default.fix (weightedSum .default PaperFillRecord.fillPrice PaperFillRecord.fillQuantity fills / traded fills)

theorem exists_low_high (hne : fills ≠ []) : ∃ low ∈ fills, ∃ high ∈ fills,
    ∀ f ∈ fills, low.fillPrice ≤ f.fillPrice ∧ f.fillPrice ≤ high.fillPrice := by
  obtain ⟨g, hg⟩ := List.exists_mem_of_ne_nil fills hne
  have hprices : (fills.map PaperFillRecord.fillPrice).toFinset.Nonempty :=
    ⟨g.fillPrice, List.mem_toFinset.mpr (List.mem_map_of_mem hg)⟩
  obtain ⟨x, hx, hmin⟩ := Finset.exists_min_image _ id hprices
  obtain ⟨y, hy, hmax⟩ := Finset.exists_max_image _ id hprices
  obtain ⟨low, hlow, rfl⟩ := List.mem_map.mp (List.mem_toFinset.mp hx)
  obtain ⟨high, hhigh, rfl⟩ := List.mem_map.mp (List.mem_toFinset.mp hy)
  refine ⟨low, hlow, high, hhigh, fun f hf => ?_⟩
  have hmem : f.fillPrice ∈ (fills.map PaperFillRecord.fillPrice).toFinset :=
    List.mem_toFinset.mpr (List.mem_map_of_mem hf)
  exact ⟨hmin _ hmem, hmax _ hmem⟩

/-- **The mean, rounded to eight places**, is a positive price between the lowest and the highest. -/
theorem quantize_mean (hne : fills ≠ []) (hprices : ∀ f ∈ fills, (10 : ℚ) ^ (-8 : ℤ) ≤ f.fillPrice ∧
    ⌈f.fillPrice / 10 ^ (-8 : ℤ)⌉ * traded fills < 10 ^ 28) : ∃ price, Ctx.default.quantize? (-8) (mean fills) = some price ∧
      0 < price ∧ Between fills price := by
  obtain ⟨low, hlow, high, hhigh, hrange⟩ := exists_low_high hne
  have hunit : (0 : ℚ) < 10 ^ (-8 : ℤ) := by norm_num
  -- the prices lie between two multiples of the quantum
  set k := ⌊low.fillPrice / 10 ^ (-8 : ℤ)⌋
  set k' := ⌈high.fillPrice / 10 ^ (-8 : ℤ)⌉
  have hk : 1 ≤ k := Int.le_floor.mpr ((le_div_iff₀ hunit).mpr (by simpa using (hprices low hlow).1))
  have hlow_ge : (k : ℚ) * 10 ^ (-8 : ℤ) ≤ low.fillPrice := (le_div_iff₀ hunit).mp (Int.floor_le _)
  have hlow_lt : low.fillPrice < (k + 1) * 10 ^ (-8 : ℤ) := (div_lt_iff₀ hunit).mp (Int.lt_floor_add_one _)
  have hhigh_le : high.fillPrice ≤ k' * 10 ^ (-8 : ℤ) := (div_le_iff₀ hunit).mp (Int.le_ceil _)
  have hhigh_gt : (k' - 1) * 10 ^ (-8 : ℤ) < high.fillPrice := by
    refine (lt_div_iff₀ hunit).mp ?_
    have : (k' : ℚ) < high.fillPrice / 10 ^ (-8 : ℤ) + 1 := Int.ceil_lt_add_one _
    linarith
  obtain ⟨hge, hle⟩ := mean_between (p := 28) (e := -8) (x := PaperFillRecord.fillPrice) (by norm_num) (by omega)
    (fun f _ => f.quantity_pos) hne (fun f hf => ⟨hlow_ge.trans (hrange f hf).1, (hrange f hf).2.trans hhigh_le⟩)
    (hprices high hhigh).2
  change _ ≤ mean fills at hge
  change mean fills ≤ _ at hle
  have hqge : (k : ℚ) * 10 ^ (-8 : ℤ) ≤ quantize (-8) (mean fills) := le_quantize hge
  have hqle : quantize (-8) (mean fills) ≤ k' * 10 ^ (-8 : ℤ) := quantize_le hle
  have hpos : 0 < quantize (-8) (mean fills) := by
    have : (1 : ℚ) ≤ k := by exact_mod_cast hk
    exact (mul_pos (by linarith) hunit).trans_le hqge
  have hsmall : |quantize (-8) (mean fills)| < 10 ^ ((28 : ℕ) + (-8) : ℤ) := by
    have hone : 1 ≤ traded fills := (Int.add_one_le_iff.mpr low.quantity_pos).trans (quantity_le_traded hlow)
    have hk'28 : k' < 10 ^ 28 := by
      have hk'0 : 0 ≤ k' := Int.ceil_nonneg (div_nonneg high.price_pos.le hunit.le)
      exact (le_mul_of_one_le_right hk'0 hone).trans_lt (hprices high hhigh).2
    have hk'28 : (k' : ℚ) < 10 ^ 28 := by exact_mod_cast hk'28
    rw [abs_of_pos hpos]
    calc quantize (-8) (mean fills) ≤ k' * 10 ^ (-8 : ℤ) := hqle
      _ < 10 ^ 28 * 10 ^ (-8 : ℤ) := mul_lt_mul_of_pos_right hk'28 hunit
      _ = 10 ^ ((28 : ℕ) + (-8) : ℤ) := by norm_num
  refine ⟨quantize (-8) (mean fills), if_pos hsmall, hpos, low, hlow, high, hhigh, hrange, ?_, ?_⟩
  · linarith
  · linarith

/-- What is reported of an instrument. -/
def reported (brokerAccountId : UUID) (now : DateTime) (group : UUID × List PaperFillRecord) : Option PaperPosition :=
  if net group.2 = 0 then none
  else some ⟨brokerAccountId, group.1, net group.2, Ctx.default.quantize? (-8) (mean group.2), now⟩

/-- **The position of an instrument** whose fills fit the context. -/
theorem positionOf_eq (brokerAccountId instrumentId : UUID) (now : DateTime) (hne : fills ≠ []) (hfit : Fits fills) :
    positionOf brokerAccountId now (instrumentId, fills) = .ok (reported brokerAccountId now (instrumentId, fills)) := by
  obtain ⟨f, hf⟩ := List.exists_mem_of_ne_nil fills hne
  have htotal : sumFixed (fills.map fun f => (f.fillQuantity : ℚ)) = traded fills :=
    sumFixed_eq (fun f _ => abs_of_pos f.quantity_pos) hfit.quantity
  have hpos : (0 : ℚ) < traded fills := by exact_mod_cast f.quantity_pos.trans_le (quantity_le_traded hf)
  unfold positionOf reported
  dsimp only
  rw [htotal, sumFixed_signedQuantity hfit.quantity]
  by_cases hnet : net fills = 0
  · rw [if_pos hnet, if_pos (by exact_mod_cast hnet)]
  · obtain ⟨price, hprice, hprice_pos, -⟩ := quantize_mean hne (hfit.prices hnet)
    rw [if_neg hnet, if_neg (by exact_mod_cast hnet), if_pos hpos]
    have hquote : Ctx.default.quantize? (-8) (Ctx.default.fix
        (sumFixed (fills.map fun f => Ctx.default.fix (f.fillPrice * f.fillQuantity)) / traded fills)) = some price :=
      hprice
    rw [hprice, hquote]
    exact if_neg (not_le.mpr hprice_pos)

end

/-! ### The report -/

/-- What is reported for an account: the instruments that are not flat, in order, each once. -/
structure Reports (book : PaperOrderBook) (brokerAccountId : UUID) (now : DateTime) (ps : List PaperPosition) : Prop where
  sorted : (ps.map PaperPosition.instrumentId).Pairwise fun i j => i.bits.toNat < j.bits.toNat
  instruments : ∀ i, i ∈ ps.map PaperPosition.instrumentId ↔ net (book.fillsOf brokerAccountId i) ≠ 0
  position : ∀ p ∈ ps, p.brokerAccountId = brokerAccountId ∧
    p.quantity = net (book.fillsOf brokerAccountId p.instrumentId) ∧ p.capturedAt = now ∧
    ∃ price, p.averagePrice = some price ∧ Between (book.fillsOf brokerAccountId p.instrumentId) price

section

variable {book : PaperOrderBook} {account : UUID} {now : DateTime}

/-- The fills of an account by instrument, in the order of the report. -/
def sortedGroups (book : PaperOrderBook) (account : UUID) : List (UUID × List PaperFillRecord) :=
  (groupBy (fun f : PaperFillRecord => some f.instrumentId)
    (book.fills.filter fun f => f.brokerAccountId = account)).mergeSort fun a b => a.1.bits.toNat ≤ b.1.bits.toNat

theorem perm_sortedGroups : (book.sortedGroups account).Perm (groupBy (fun f : PaperFillRecord => some f.instrumentId)
    (book.fills.filter fun f => f.brokerAccountId = account)) := List.mergeSort_perm _ _

theorem group_eq_fillsOf {group : UUID × List PaperFillRecord} (h : group ∈ book.sortedGroups account) :
    group.2 = book.fillsOf account group.1 := by
  rw [group_eq_filter (perm_sortedGroups.mem_iff.mp h), fillsOf]
  simp only [Option.some.injEq]

theorem mem_sortedGroups {group : UUID × List PaperFillRecord} :
    group ∈ book.sortedGroups account ↔ group.2 = book.fillsOf account group.1 ∧ group.2 ≠ [] := by
  constructor
  · intro h
    refine ⟨group_eq_fillsOf h, ?_⟩
    obtain ⟨f, hf, hkey⟩ := mem_keys_groupBy.mp (List.mem_map_of_mem (perm_sortedGroups.mem_iff.mp h))
    rw [group_eq_fillsOf h]
    exact List.ne_nil_of_mem (List.mem_filter.mpr ⟨hf, by simpa using hkey⟩)
  · rintro ⟨heq, hne⟩
    obtain ⟨f, hf⟩ := List.exists_mem_of_ne_nil _ hne
    rw [heq] at hf
    obtain ⟨hmem, hkey⟩ := List.mem_filter.mp hf
    obtain ⟨g, hg, hfst⟩ := @exists_group _ _ _ (fun f : PaperFillRecord => some f.instrumentId) _ _ f.instrumentId
      hmem rfl
    have hg := perm_sortedGroups.mem_iff.mpr hg
    have hkey : f.instrumentId = group.1 := by simpa using hkey
    have hsame : g = group := Prod.ext (hfst.trans hkey) (by
      rw [group_eq_fillsOf hg, heq, hfst, hkey])
    exact hsame ▸ hg

theorem sortedGroups_sorted :
    ((book.sortedGroups account).map Prod.fst).Pairwise fun i j => i.bits.toNat < j.bits.toNat := by
  have hle : ((book.sortedGroups account).map Prod.fst).Pairwise fun i j => i.bits.toNat ≤ j.bits.toNat := by
    rw [List.pairwise_map]
    have hsorted := @List.pairwise_mergeSort _ (fun a b : UUID × List PaperFillRecord => a.1.bits.toNat ≤ b.1.bits.toNat)
      (fun a b c hab hbc => by simp only [decide_eq_true_eq] at hab hbc ⊢; omega)
      (fun a b => by simp only [Bool.or_eq_true, decide_eq_true_eq]; omega)
      (groupBy (fun f : PaperFillRecord => some f.instrumentId)
        (book.fills.filter fun f => f.brokerAccountId = account))
    exact hsorted.imp fun h => of_decide_eq_true h
  have hnodup : ((book.sortedGroups account).map Prod.fst).Nodup :=
    (perm_sortedGroups.map Prod.fst).nodup_iff.mpr (nodup_keys_groupBy _)
  refine (hle.and hnodup).imp fun {i j} h => lt_of_le_of_ne h.1 fun heq => h.2 ?_
  cases i
  cases j
  exact congrArg UUID.mk (BitVec.eq_of_toNat_eq heq)

/-- A reported position is that of an instrument with fills. -/
theorem mem_reported {p : PaperPosition} :
    p ∈ ((book.sortedGroups account).map (reported account now)).reduceOption ↔
      ∃ i, book.fillsOf account i ≠ [] ∧ reported account now (i, book.fillsOf account i) = some p := by
  rw [List.reduceOption_mem_iff, List.mem_map]
  constructor
  · rintro ⟨group, hgroup, hp⟩
    obtain ⟨heq, hne⟩ := mem_sortedGroups.mp hgroup
    rw [heq] at hne
    refine ⟨group.1, hne, ?_⟩
    rw [← heq]
    exact hp
  · rintro ⟨i, hne, hp⟩
    exact ⟨_, mem_sortedGroups.mpr ⟨rfl, hne⟩, hp⟩

theorem instrumentId_reported {i : UUID} {fills : List PaperFillRecord} {p : PaperPosition}
    (h : reported account now (i, fills) = some p) : p.instrumentId = i ∧ net fills ≠ 0 := by
  unfold reported at h
  split_ifs at h with hnet
  cases h
  exact ⟨rfl, hnet⟩

theorem instruments_sublist : ∀ groups : List (UUID × List PaperFillRecord),
    ((groups.map (reported account now)).reduceOption.map PaperPosition.instrumentId).Sublist (groups.map Prod.fst)
  | [] => .slnil
  | group :: groups => by
    rw [List.map_cons, List.map_cons]
    cases h : reported account now group with
    | none =>
      rw [List.reduceOption_cons_of_none]
      exact (instruments_sublist groups).cons _
    | some p =>
      rw [List.reduceOption_cons_of_some, List.map_cons, (instrumentId_reported h).1]
      exact (instruments_sublist groups).cons_cons _

theorem reports_reported (hfit : ∀ i, Fits (book.fillsOf account i)) :
    Reports book account now ((book.sortedGroups account).map (reported account now)).reduceOption := by
  refine ⟨sortedGroups_sorted.sublist (instruments_sublist _), fun i => ?_, fun p hp => ?_⟩
  · rw [List.mem_map]
    constructor
    · rintro ⟨p, hp, rfl⟩
      obtain ⟨i, -, hp⟩ := mem_reported.mp hp
      obtain ⟨rfl, hnet⟩ := instrumentId_reported hp
      exact hnet
    · intro hnet
      have hne : book.fillsOf account i ≠ [] := fun hnil => hnet (by rw [hnil]; rfl)
      exact ⟨_, mem_reported.mpr ⟨i, hne, if_neg hnet⟩, rfl⟩
  · obtain ⟨i, hne, hp⟩ := mem_reported.mp hp
    obtain ⟨rfl, hnet⟩ := instrumentId_reported hp
    obtain ⟨price, hprice, -, hbetween⟩ := quantize_mean hne ((hfit _).prices hnet)
    rw [reported, if_neg hnet, hprice] at hp
    have hp := (Option.some.inj hp).symm
    exact ⟨congrArg PaperPosition.brokerAccountId hp, congrArg PaperPosition.quantity hp,
      congrArg PaperPosition.capturedAt hp, price, congrArg PaperPosition.averagePrice hp, hbetween⟩

end

/-- **After every sequence of calls the positions are listed**: at an aware reading of the clock, for an account whose
fills fit the context. -/
theorem positions_listed (l : List BookCall) (brokerAccountId : UUID) {now : DateTime} (ha : now.aware = true)
    (hfit : ∀ i, Fits ((after l).fillsOf brokerAccountId i)) :
    ∃ ps, (after l).positions brokerAccountId now = .ok ps ∧ Reports (after l) brokerAccountId now ps := by
  have hgroups : (sortedGroups (after l) brokerAccountId).mapM (positionOf brokerAccountId now) =
      .ok ((sortedGroups (after l) brokerAccountId).map (reported brokerAccountId now)) := by
    refine Loop.mapM_ok fun group hgroup => ?_
    obtain ⟨heq, hne⟩ := mem_sortedGroups.mp hgroup
    exact positionOf_eq _ _ _ hne (heq ▸ hfit group.1)
  refine ⟨_, ?_, reports_reported hfit⟩
  rw [positions, ha]
  show ((sortedGroups (after l) brokerAccountId).mapM (positionOf brokerAccountId now)).map _ = _
  rw [hgroups]
  rfl

/-! ### One order -/

/-- The submission of a market order at a given price. -/
def submitAt (quantity : ℤ) (price : ℚ) (hp : 0 < price) : BookCall :=
  .submit (sampleOrder quantity none)
    (some { sampleReference with
      last := price
      last_pos := hp
      last_within := fun _ _ h => nomatch h })
    sampleTime

/-- Its fill. -/
def fillAt (quantity : ℤ) (price : ℚ) (hq : 0 < quantity) (hp : 0 < price) : PaperFillRecord :=
  (sampleOrder quantity none).fillRecord sampleStamp 0 price hq hp

theorem fills_submitAt {quantity : ℤ} {price : ℚ} (hq : 0 < quantity) (hp : 0 < price) :
    (after [submitAt quantity price hp]).fills = [fillAt quantity price hq hp] := by
  have hblank : blank (sampleOrder quantity none).clientOrderId = false := by
    show blank "ORD-1" = false
    decide +kernel
  obtain ⟨-, hstep⟩ := perform_submit {} (sampleOrder quantity none)
    (some { sampleReference with
      last := price
      last_pos := hp
      last_within := fun _ _ h => nomatch h }) sampleTime
  rw [submit_fill rfl hblank hq rfl rfl aware_sampleTime rfl (dif_pos hq)] at hstep
  show (step {} (submitAt quantity price hp)).fills = _
  rw [submitAt, hstep]
  rfl

theorem fillsOf_single {book : PaperOrderBook} {f : PaperFillRecord} (hf : book.fills = [f]) (i : UUID) :
    book.fillsOf f.brokerAccountId i = if f.instrumentId = i then [f] else [] := by
  by_cases hi : f.instrumentId = i
  · simp [fillsOf, hf, hi]
  · simp [fillsOf, hf, hi]

/-- The positions of an account with one fill. -/
theorem positions_single {book : PaperOrderBook} {f : PaperFillRecord} {now : DateTime} (hf : book.fills = [f])
    (ha : now.aware = true) : book.positions f.brokerAccountId now =
      (positionOf f.brokerAccountId now (f.instrumentId, [f])).map Option.toList := by
  rw [positions, hf, ha, List.filter_cons_of_pos (by simp), List.filter_nil]
  have hgroup : groupBy (fun f : PaperFillRecord => some f.instrumentId) [f] = [(f.instrumentId, [f])] := rfl
  rw [hgroup]
  simp only [Bool.not_true, Bool.false_eq_true, if_false, List.mergeSort_singleton, List.mapM_cons, List.mapM_nil]
  cases positionOf f.brokerAccountId now (f.instrumentId, [f]) with
  | error err => rfl
  | ok p => cases p <;> rfl

/-- Ten shares at 100. -/
theorem positions_listed_ten : ∃ ps, (after [submitAt 10 100 (by norm_num)]).positions ⟨1⟩ sampleTime = .ok ps ∧
    Reports (after [submitAt 10 100 (by norm_num)]) ⟨1⟩ sampleTime ps := by
  refine positions_listed _ ⟨1⟩ aware_sampleTime fun i => ?_
  have hfills := fillsOf_single (@fills_submitAt 10 100 (by norm_num) (by norm_num)) i
  change fillsOf _ ⟨1⟩ i = _ at hfills
  rw [hfills]
  split_ifs
  · refine ⟨by decide, fun _ f hf => ?_⟩
    rw [List.mem_singleton.mp hf]
    decide +kernel
  · exact ⟨by decide, fun _ f hf => nomatch hf⟩

/-- The mean of a small price is rounded to zero and refused, a large one has too many digits, and so has a large
quantity. -/
theorem not_positions_listed :
    (¬ ∃ ps, (after [submitAt 1 (1 / 10 ^ 9) (by norm_num)]).positions ⟨1⟩ sampleTime = .ok ps ∧
      Reports (after [submitAt 1 (1 / 10 ^ 9) (by norm_num)]) ⟨1⟩ sampleTime ps) ∧
    (¬ ∃ ps, (after [submitAt 1 (10 ^ 20) (by norm_num)]).positions ⟨1⟩ sampleTime = .ok ps ∧
      Reports (after [submitAt 1 (10 ^ 20) (by norm_num)]) ⟨1⟩ sampleTime ps) ∧
    ¬ ∃ ps, (after [submitAt (10 ^ 28 + 1) 1 (by norm_num)]).positions ⟨1⟩ sampleTime = .ok ps ∧
      Reports (after [submitAt (10 ^ 28 + 1) 1 (by norm_num)]) ⟨1⟩ sampleTime ps := by
  refine ⟨?_, ?_, ?_⟩
  · rintro ⟨ps, hps, -⟩
    have hsingle := positions_single (@fills_submitAt 1 (1 / 10 ^ 9) (by norm_num) (by norm_num))
      aware_sampleTime
    have hraises : positionOf ⟨1⟩ sampleTime (⟨2⟩, [fillAt 1 (1 / 10 ^ 9) (by norm_num) (by norm_num)]) =
        .error (.valueError "average_price must be positive when present") := by decide +kernel
    change positions _ ⟨1⟩ sampleTime = (positionOf ⟨1⟩ sampleTime (⟨2⟩, [fillAt 1 (1 / 10 ^ 9) _ _])).map _ at hsingle
    rw [hraises, hps] at hsingle
    cases hsingle
  · rintro ⟨ps, hps, -⟩
    have hsingle := positions_single (@fills_submitAt 1 (10 ^ 20) (by norm_num) (by norm_num))
      aware_sampleTime
    have hraises : positionOf ⟨1⟩ sampleTime (⟨2⟩, [fillAt 1 (10 ^ 20) (by norm_num) (by norm_num)]) =
        .error .invalidOperation := by decide +kernel
    change positions _ ⟨1⟩ sampleTime = (positionOf ⟨1⟩ sampleTime (⟨2⟩, [fillAt 1 (10 ^ 20) _ _])).map _ at hsingle
    rw [hraises, hps] at hsingle
    cases hsingle
  · rintro ⟨ps, hps, hreports⟩
    have hfills := @fills_submitAt (10 ^ 28 + 1) 1 (by norm_num) (by norm_num)
    have hsingle := positions_single hfills aware_sampleTime
    have hrounded : positionOf ⟨1⟩ sampleTime (⟨2⟩, [fillAt (10 ^ 28 + 1) 1 (by norm_num) (by norm_num)]) =
        .ok (some ⟨⟨1⟩, ⟨2⟩, 10 ^ 28, some 1, sampleTime⟩) := by decide +kernel
    change positions _ ⟨1⟩ sampleTime = (positionOf ⟨1⟩ sampleTime (⟨2⟩, [fillAt (10 ^ 28 + 1) 1 _ _])).map _ at hsingle
    rw [hrounded, hps] at hsingle
    cases hsingle
    obtain ⟨-, hquantity, -⟩ := hreports.position _ (List.mem_singleton_self _)
    have hsum := fillsOf_single hfills ⟨2⟩
    change fillsOf _ ⟨1⟩ ⟨2⟩ = _ at hsum
    rw [hsum] at hquantity
    revert hquantity
    decide +kernel

end AlphaAlgo.Paper.PaperOrderBook
