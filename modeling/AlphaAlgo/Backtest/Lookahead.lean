import AlphaAlgo.Backtest.Runs

/-!
# Lookahead — no result of a backtest depends on later records

The run on a prefix of the records takes the first steps of the run on all of them; only the intents whose record comes
after the prefix have another outcome from the start.  The times of the records and the intents have fixed offsets from
UTC, so that their order is one of instants.

* `stepsOf_prefix`: the steps of the prefix are the first steps.
* `masked_start`, `simStep_masked`: the two runs go through the same states, up to those outcomes.
* `run_prefix_records`: equity and outcomes of the run on the prefix, and the record of every fill.
-/

namespace AlphaAlgo.Backtest

open Loop

variable {c : Ctx} {costModel : CostModel} {records : List MarketRecord} {intents : List OrderIntent}

/-! ### The steps of a prefix -/

/-- The anchor among more records. -/
theorem anchorOf_append (rs rs' : List MarketRecord) (t : DateTime) : anchorOf (rs ++ rs') t =
    if anchorOf rs t = rs.length then rs.length + anchorOf rs' t else anchorOf rs t := by
  unfold anchorOf
  rw [List.takeWhile_append]
  split_ifs
  · exact List.length_append
  · rfl

/-- The first record after a decision is the same among more records. -/
theorem anchorOf_append_eq_iff {rs rs' : List MarketRecord} {t : DateTime} {k : ℕ} (hk : k < rs.length) :
    anchorOf (rs ++ rs') t = k ↔ anchorOf rs t = k := by
  rw [anchorOf_append]
  split_ifs with h
  · omega
  · rfl

/-- The decisions with no record after them in a prefix. -/
theorem anchorOf_eq_length_iff {rs rs' : List MarketRecord} {t : DateTime} :
    anchorOf rs t = rs.length ↔ rs.length ≤ anchorOf (rs ++ rs') t := by
  have hle := anchorOf_le rs t
  rw [anchorOf_append]
  split_ifs with h
  · omega
  · omega

theorem mem_indexed {e : IndexedIntent} : e ∈ indexed intents ↔ intents[e.index]? = some e.intent := by
  rw [indexed, List.mem_map]
  constructor
  · rintro ⟨⟨x, i⟩, hp, rfl⟩
    exact List.mk_mem_zipIdx_iff_getElem?.mp hp
  · exact fun h => ⟨(e.intent, e.index), List.mk_mem_zipIdx_iff_getElem?.mpr h, rfl⟩

/-- The steps of records from number `n` on. -/
theorem mem_steps {n : ℕ} {rs : List MarketRecord} {anchored : ℕ → List IndexedIntent} {k : ℕ} {record : MarketRecord}
    {e : IndexedIntent}
    (h : SimStep.intent k record e ∈ (rs.zipIdx n).flatMap fun p => recordSteps p.1 p.2 (anchored p.2)) :
    n ≤ k ∧ rs[k - n]? = some record ∧ e ∈ anchored k := by
  obtain ⟨⟨r, j⟩, hp, hstep⟩ := List.mem_flatMap.mp h
  rcases List.mem_append.mp hstep with hstep | hstep
  · obtain ⟨e', he', heq⟩ := List.mem_map.mp hstep
    cases heq
    obtain ⟨hle, hget⟩ := List.mk_mem_zipIdx_iff_le_and_getElem?_sub.mp hp
    exact ⟨hle, hget, he'⟩
  · cases List.mem_singleton.mp hstep

/-- **What a run evaluates**: each intent at the first record after its decision. -/
theorem mem_stepsOf (hascending : Ascending intents) {k : ℕ} {record : MarketRecord} {e : IndexedIntent}
    (h : SimStep.intent k record e ∈ stepsOf records intents) :
    records[k]? = some record ∧ intents[e.index]? = some e.intent ∧ anchorOf records e.intent.decidedAt = k := by
  obtain ⟨-, hrecord, he⟩ := mem_steps h
  have hk : k < records.length := (List.getElem?_eq_some_iff.mp hrecord).1
  rw [anchoredAt_anchorRun hascending hk, List.mem_filter] at he
  exact ⟨hrecord, mem_indexed.mp he.1, of_decide_eq_true he.2⟩

theorem simSteps_congr {rs : List MarketRecord} {anchored anchored' : ℕ → List IndexedIntent}
    (h : ∀ k < rs.length, anchored k = anchored' k) : simSteps rs anchored = simSteps rs anchored' := by
  rw [simSteps, simSteps, List.flatMap_def, List.flatMap_def]
  congr 1
  refine List.map_congr_left fun p hp => ?_
  have hlt : p.2 < rs.length := (List.getElem?_eq_some_iff.mp (List.mk_mem_zipIdx_iff_getElem?.mp hp)).1
  rw [h p.2 hlt]

/-- The intent with this index has its record at `n` or later, or none. -/
def lateAt (records : List MarketRecord) (intents : List OrderIntent) (n i : ℕ) : Bool :=
  match intents[i]? with
  | none => false
  | some intent => n ≤ anchorOf records intent.decidedAt

theorem lateAt_of_mem {n : ℕ} {e : IndexedIntent} (he : e ∈ indexed intents) :
    lateAt records intents n e.index = decide (n ≤ anchorOf records e.intent.decidedAt) := by
  rw [lateAt, mem_indexed.mp he]

/-- **The steps of a prefix of the records are the first steps**, and the others evaluate later intents. -/
theorem stepsOf_prefix (hascending : Ascending intents) (rs rs' : List MarketRecord) :
    ∃ rest, stepsOf (rs ++ rs') intents = stepsOf rs intents ++ rest ∧
      ∀ i ∈ rest.filterMap SimStep.index, lateAt (rs ++ rs') intents rs.length i = true := by
  have hsame : simSteps rs (anchorRun (rs ++ rs') intents).anchoredAt = stepsOf rs intents := by
    refine simSteps_congr fun k hk => ?_
    have hk' : k < (rs ++ rs').length := List.length_append ▸ Nat.lt_add_right _ hk
    rw [anchoredAt_anchorRun hascending hk', anchoredAt_anchorRun hascending hk]
    simp only [anchorOf_append_eq_iff hk]
  refine ⟨_, (simSteps_append rs rs' _).trans (congrArg (· ++ _) hsame), fun i hi => ?_⟩
  obtain ⟨a, ha, hindex⟩ := List.mem_filterMap.mp hi
  cases a with
  | mark record => cases hindex
  | intent k record e =>
    cases hindex
    obtain ⟨hle, -, -⟩ := mem_steps ha
    have hmem : SimStep.intent k record e ∈ stepsOf (rs ++ rs') intents := by
      rw [stepsOf, simSteps_append]
      exact List.mem_append_right _ ha
    obtain ⟨-, hintent, hanchor⟩ := mem_stepsOf hascending hmem
    rw [lateAt_of_mem (mem_indexed.mpr hintent), hanchor]
    exact decide_eq_true hle

/-- The steps of a prefix evaluate no later intent. -/
theorem not_late_of_mem (hascending : Ascending intents) {rs rs' : List MarketRecord} {i : ℕ}
    (hi : i ∈ (stepsOf rs intents).filterMap SimStep.index) : lateAt (rs ++ rs') intents rs.length i = false := by
  obtain ⟨e, he, rfl, hanchor⟩ := (mem_index_stepsOf hascending).mp hi
  rw [lateAt_of_mem he, decide_eq_false_iff_not, ← anchorOf_eq_length_iff]
  exact hanchor.ne

/-! ### The two runs -/

/-- The outcomes, with the later intents as intents with no record after their decision. -/
def masked (late : ℕ → Bool) (outcomes : List (Option FillOutcome)) : List (Option FillOutcome) :=
  outcomes.mapIdx fun i o => if late i then some (noRecord i) else o

def SimState.masked (late : ℕ → Bool) (s : SimState) : SimState := { s with outcomes := Backtest.masked late s.outcomes }

theorem masked_set {late : ℕ → Bool} {i : ℕ} (hi : late i = false) (outcomes : List (Option FillOutcome))
    (o : Option FillOutcome) : masked late (outcomes.set i o) = (masked late outcomes).set i o := by
  rw [masked, masked, List.mapIdx_set, if_neg (by simp [hi])]

/-- A step on an intent that is not late. -/
theorem simStep_masked {late : ℕ → Bool} {a : SimStep} (ha : ∀ i, a.index = some i → late i = false) (s : SimState) :
    simStep c costModel (s.masked late) a = (simStep c costModel s a).map (SimState.masked late) := by
  cases a with
  | mark record =>
    simp only [simStep, SimState.masked]
    cases markPrice .engine record with
    | error e => rfl
    | ok price => rfl
  | intent k record e =>
    have hlate : late e.index = false := ha e.index rfl
    simp only [simStep, SimState.masked]
    cases evaluateFill c e.intent record k s.cash s.position costModel s.sequence e.index with
    | error err => rfl
    | ok evaluation =>
      simp only [bind, Except.bind, SimState.settle]
      cases evaluation.fill with
      | none => simp only [Except.map, SimState.masked, masked_set hlate]
      | some fill =>
        dsimp only
        cases bookFill c e.intent.side s.ledger fill with
        | error err => rfl
        | ok booked => simp only [Except.map, SimState.masked, masked_set hlate]

/-- An outcome of a late intent does not show. -/
theorem masked_set_late {late : ℕ → Bool} {i : ℕ} (hi : late i = true) (outcomes : List (Option FillOutcome))
    (o : Option FillOutcome) : masked late (outcomes.set i o) = masked late outcomes := by
  refine List.ext_getElem? fun j => ?_
  rw [masked, masked, List.getElem?_mapIdx, List.getElem?_mapIdx, List.getElem?_set]
  by_cases hj : i = j
  · subst hj
    by_cases hlt : i < outcomes.length
    · simp [hlt, hi]
    · simp [hlt]
  · rw [if_neg hj]

/-- **Before the first step** the late intents of the run on the prefix have their outcome. -/
theorem masked_start (hascending : Ascending intents) (rs rs' : List MarketRecord) (capital : ℚ) :
    startOf rs intents capital = (startOf (rs ++ rs') intents capital).masked (lateAt (rs ++ rs') intents rs.length) := by
  have houtcomes : (startOf rs intents capital).outcomes =
      masked (lateAt (rs ++ rs') intents rs.length) (startOf (rs ++ rs') intents capital).outcomes := by
    refine List.ext_getElem? fun i => ?_
    rw [masked, List.getElem?_mapIdx]
    by_cases hi : i < intents.length
    · obtain ⟨e, he, rfl⟩ := exists_indexed hi
      rw [getElem?_start hascending he, getElem?_start hascending he, lateAt_of_mem he]
      by_cases hlate : rs.length ≤ anchorOf (rs ++ rs') e.intent.decidedAt
      · rw [if_pos (anchorOf_eq_length_iff.mpr hlate), decide_eq_true hlate]
        by_cases hend : anchorOf (rs ++ rs') e.intent.decidedAt = (rs ++ rs').length
        · rw [if_pos hend]
          rfl
        · rw [if_neg hend]
          rfl
      · have hanchor : anchorOf (rs ++ rs') e.intent.decidedAt ≠ (rs ++ rs').length := by
          rw [List.length_append]
          omega
        rw [if_neg (fun h => hlate (anchorOf_eq_length_iff.mp h)), if_neg hanchor, decide_eq_false hlate]
        rfl
    · have hnone : ∀ records : List MarketRecord, (startOf records intents capital).outcomes[i]? = none := fun records =>
        List.getElem?_eq_none ((length_start hascending).le.trans (not_lt.mp hi))
      rw [hnone, hnone]
      rfl
  exact congrArg (fun outcomes => ({ cash := capital, outcomes := outcomes } : SimState)) houtcomes

/-- What the later steps leave: the outcomes of intents that are not late, and the points of the equity so far. -/
theorem rest_masked {late : ℕ → Bool} {rest : List SimStep} {s t : SimState}
    (hlate : ∀ i ∈ rest.filterMap SimStep.index, late i = true) (h : run (simStep c costModel) t rest = .ok s) :
    masked late s.outcomes = masked late t.outcomes ∧ t.equityPoints <+: s.equityPoints := by
  refine invariant (I := fun u => masked late u.outcomes = masked late t.outcomes ∧ t.equityPoints <+: u.equityPoints)
    (fun u a u' ha hu hstep => ?_) ⟨rfl, List.prefix_refl _⟩ h
  have hindex : ∀ i, a.index = some i → late i = true := fun i hi => hlate i (List.mem_filterMap.mpr ⟨a, ha, hi⟩)
  cases stepped hstep with
  | unfilled reason => exact ⟨(masked_set_late (hindex _ rfl) _ _).trans hu.1, hu.2⟩
  | filled hfill hbook => exact ⟨(masked_set_late (hindex _ rfl) _ _).trans hu.1, hu.2⟩
  | marked hprice => exact ⟨hu.1, hu.2.trans (List.prefix_append _ _)⟩

/-! ### The points of the equity -/

/-- The time of a step that marks. -/
def SimStep.time : SimStep → Option DateTime
  | .intent _ _ _ => none
  | .mark record => some record.timestamp

theorem time_stepsOf : (stepsOf records intents).filterMap SimStep.time = records.map MarketRecord.timestamp := by
  have hrecord : ∀ (r : MarketRecord) (k : ℕ) (entries : List IndexedIntent),
      (recordSteps r k entries).filterMap SimStep.time = [r.timestamp] := by
    intro r k entries
    rw [recordSteps, List.filterMap_append, List.filterMap_map]
    simp [Function.comp_def, SimStep.time]
  rw [stepsOf, simSteps, List.filterMap_flatMap]
  simp only [hrecord]
  have hfst : records.zipIdx.map (fun p => p.1.timestamp) = (records.zipIdx.map Prod.fst).map MarketRecord.timestamp := by
    rw [List.map_map]
    rfl
  rw [← List.map_eq_flatMap, hfst, List.zipIdx_map_fst]

/-- **The equity has one point for each record.** -/
theorem map_timestamp_equityPoints {s t : SimState} {l : List SimStep} (h : run (simStep c costModel) t l = .ok s) :
    s.equityPoints.map EquityPoint.timestamp = t.equityPoints.map EquityPoint.timestamp ++ l.filterMap SimStep.time := by
  have hend := @invariant_rest _ _ _ (simStep c costModel) (fun u rest =>
    u.equityPoints.map EquityPoint.timestamp ++ rest.filterMap SimStep.time =
      t.equityPoints.map EquityPoint.timestamp ++ l.filterMap SimStep.time) (fun u a rest u' hu hstep => ?_)
    l [] t s (by rw [List.append_nil]) h
  · simpa using hend
  · cases stepped hstep with
    | unfilled reason => exact hu
    | filled hfill hbook => exact hu
    | marked hprice =>
      rw [← hu, List.map_append, List.append_assoc]
      rfl

/-! ### The record of a fill -/

/-- An outcome is that of an intent with no record after its decision, or the evaluation at the first one. -/
def Explained (c : Ctx) (costModel : CostModel) (records : List MarketRecord) (intents : List OrderIntent) (i : ℕ)
    (o : FillOutcome) : Prop :=
  o = noRecord i ∨ ∃ intent k record cash position sequence evaluation,
    intents[i]? = some intent ∧ records[k]? = some record ∧ anchorOf records intent.decidedAt = k ∧
      evaluateFill c intent record k cash position costModel sequence i = .ok evaluation ∧ evaluation.outcome = o

/-- **Every outcome is explained.** -/
theorem explained {inputs : BacktestInput} {initialCapital : ℚ} {r : BacktestRun} {s : SimState}
    (h : Ran c inputs intents costModel initialCapital r s) {i : ℕ} {o : FillOutcome} (ho : r.outcomes[i]? = some o) :
    Explained c costModel inputs.records intents i o := by
  have hstart : ∀ i o, (startOf inputs.records intents initialCapital).outcomes[i]? = some (some o) →
      Explained c costModel inputs.records intents i o := fun i o ho => by
    rcases start_cases h.ascending ho with hnone | hsome
    · cases hnone
    · exact .inl (Option.some.inj hsome)
  refine invariant (I := fun (u : SimState) => ∀ i o, u.outcomes[i]? = some (some o) →
    Explained c costModel inputs.records intents i o) (fun u a u' ha hu hstep => ?_) hstart h.ended i o
    (by rw [h.outcomes, List.getElem?_map, ho]; rfl)
  cases a with
  | mark record =>
    obtain ⟨price, -, rfl⟩ := map_eq_ok.mp hstep
    exact hu
  | intent k record e =>
    obtain ⟨evaluation, heval, hsettle⟩ := bind_eq_ok.mp hstep
    obtain ⟨hrecord, hintent, hanchor⟩ := mem_stepsOf h.ascending ha
    intro j o' ho'
    rw [settle_outcomes hsettle] at ho'
    by_cases hj : e.index = j
    · subst hj
      rw [List.getElem?_set_self (by simpa using (List.getElem?_eq_some_iff.mp ho').1)] at ho'
      cases ho'
      exact .inr ⟨e.intent, k, record, _, _, _, evaluation, hintent, hrecord, hanchor, heval, rfl⟩
    · rw [List.getElem?_set_ne hj] at ho'
      exact hu j o' ho'

/-- A fill is evaluated at the first record strictly after the decision. -/
def FilledAtFirst (c : Ctx) (costModel : CostModel) (records : List MarketRecord) (intents : List OrderIntent)
    (i : ℕ) (fill : FillRecord) : Prop :=
  ∃ intent record, intents[i]? = some intent ∧ records[fill.recordIndex]? = some record ∧
    intent.decidedAt.instant < record.timestamp.instant ∧
    (∀ r ∈ records.take fill.recordIndex, r.timestamp.instant ≤ intent.decidedAt.instant) ∧
    ∃ cash position sequence evaluation,
      evaluateFill c intent record fill.recordIndex cash position costModel sequence i = .ok evaluation ∧
        evaluation.fill = some fill

theorem Explained.filledAtFirst {i : ℕ} {o : FillOutcome} {fill : FillRecord}
    (h : Explained c costModel records intents i o) (hfill : o.fill = some fill) :
    FilledAtFirst c costModel records intents i fill := by
  rcases h with rfl | ⟨intent, k, record, cash, position, sequence, evaluation, hintent, hrecord, hanchor, heval, rfl⟩
  · cases hfill
  · obtain ⟨hsame, hindex⟩ := (evaluated heval).fill_eq
    rw [hsame] at hfill
    obtain rfl := hindex fill hfill
    obtain ⟨hlt, hget⟩ := List.getElem?_eq_some_iff.mp hrecord
    obtain ⟨hafter, hbefore⟩ := (anchorOf_eq_iff hlt).mp hanchor
    rw [hget] at hafter
    exact ⟨intent, record, hintent, hrecord, hafter, hbefore, cash, position, sequence, evaluation, heval, hfill⟩

/-! ### Two runs -/

/-- **The run on a prefix of the records** has the first points of the equity and the outcomes of the intents that the
prefix decides, and every fill is at the first record strictly after its decision. -/
theorem run_prefix_records (c : Ctx) (inputs inputs' : BacktestInput) (intents : List OrderIntent)
    (costModel : CostModel) (initialCapital : ℚ) (r : BacktestRun)
    (h : runBacktest c inputs intents costModel initialCapital = .ok r) (hrecords : inputs'.records <+: inputs.records) :
    (∃ r', runBacktest c inputs' intents costModel initialCapital = .ok r' ∧
      r'.equityCurve = r.equityCurve.take inputs'.records.length ∧
      ∀ i intent, intents[i]? = some intent → r'.outcomes[i]? =
        if anchorOf inputs.records intent.decidedAt < inputs'.records.length then r.outcomes[i]?
        else some (noRecord i)) ∧
    ∀ i o fill, r.outcomes[i]? = some o → o.fill = some fill →
      FilledAtFirst c costModel inputs.records intents i fill := by
  obtain ⟨s, hran⟩ := ran h
  refine ⟨?_, fun i o fill ho hfill => (explained hran ho).filledAtFirst hfill⟩
  obtain ⟨rs', hrecords⟩ := hrecords
  have hended := hran.ended
  rw [← hrecords] at hended ⊢
  set rs := inputs'.records with hrs
  set late := lateAt (rs ++ rs') intents rs.length with hlate
  obtain ⟨rest, hsteps, hrest⟩ := stepsOf_prefix hran.ascending rs rs'
  rw [hsteps] at hended
  obtain ⟨t, hfirst, hlast⟩ := run_append_ok.mp hended
  obtain ⟨hmasked, hpoints⟩ := rest_masked hrest hlast
  -- the run on the prefix is the first part of the run, masked
  have hrun : run (simStep c costModel) (startOf rs intents initialCapital) (stepsOf rs intents) =
      .ok (t.masked late) := by
    rw [masked_start hran.ascending rs rs', @run_map _ _ _ _ (simStep c costModel) _ (SimState.masked late) _
      (fun s a ha => simStep_masked (fun i hi => not_late_of_mem hran.ascending
        (List.mem_filterMap.mpr ⟨a, ha, hi⟩)) s), hfirst]
    rfl
  have houtcomes : masked late t.outcomes =
      (r.outcomes.mapIdx fun i o => if late i then noRecord i else o).map some := by
    rw [← hmasked, hran.outcomes]
    refine List.ext_getElem? fun i => ?_
    simp only [masked, List.getElem?_mapIdx, List.getElem?_map, Option.map_map]
    cases r.outcomes[i]? with
    | none => rfl
    | some o =>
      simp only [Option.map_some, Function.comp]
      split_ifs
      · rfl
      · rfl
  have hlength : t.equityPoints.length = rs.length := by
    have htimes := congrArg List.length (map_timestamp_equityPoints hfirst)
    rw [time_stepsOf] at htimes
    simpa [startOf] using htimes
  have hnonempty : (t.masked late).equityPoints ≠ [] := by
    refine List.ne_nil_of_length_pos ?_
    have hpos : 0 < rs.length := List.length_pos_iff.mpr inputs'.records_ne_nil
    exact hlength ▸ hpos
  have hsize : (r.outcomes.mapIdx fun i o => if late i then noRecord i else o).length = intents.length := by
    rw [List.length_mapIdx, r.outcomes_length, hran.intents]
  obtain ⟨r', hr', hran', hos⟩ := @exists_ran _ inputs' _ _ _ _ _ hran.capital_pos hran.ascending hrun houtcomes hsize
    hnonempty
  refine ⟨r', hr', ?_, fun i intent hintent => ?_⟩
  · rw [hran'.equityCurve, hran.equityCurve, ← hlength]
    exact List.prefix_iff_eq_take.mp hpoints
  · have hi : i < r.outcomes.length := by
      rw [r.outcomes_length, hran.intents]
      exact (List.getElem?_eq_some_iff.mp hintent).1
    have hlatei : late i = decide (rs.length ≤ anchorOf (rs ++ rs') intent.decidedAt) := by
      rw [hlate, lateAt, hintent]
    rw [hos, List.getElem?_mapIdx, List.getElem?_eq_getElem hi, Option.map_some, hlatei]
    by_cases hcases : anchorOf (rs ++ rs') intent.decidedAt < rs.length
    · rw [if_pos hcases, decide_eq_false (not_le.mpr hcases)]
      rfl
    · rw [if_neg hcases, decide_eq_true (not_lt.mp hcases)]
      rfl

/-- The run on the first two of three ticks. -/
theorem run_prefix_records_sample : ∃ r, runBacktest .exact sampleInput sampleIntents sampleCosts 1000 = .ok r ∧
    (∃ r', runBacktest .exact (sampleInput.take 1) sampleIntents sampleCosts 1000 = .ok r' ∧
      r'.equityCurve = r.equityCurve.take (sampleInput.take 1).records.length ∧
      ∀ i intent, sampleIntents[i]? = some intent → r'.outcomes[i]? =
        if anchorOf sampleInput.records intent.decidedAt < (sampleInput.take 1).records.length then r.outcomes[i]?
        else some (noRecord i)) ∧
    ∀ i o fill, r.outcomes[i]? = some o → o.fill = some fill →
      FilledAtFirst .exact sampleCosts sampleInput.records sampleIntents i fill := by
  obtain ⟨r, hr⟩ := sample_accepted
  exact ⟨r, hr, run_prefix_records .exact sampleInput (sampleInput.take 1) sampleIntents sampleCosts 1000 r hr
    (List.take_prefix _ _)⟩

end AlphaAlgo.Backtest
