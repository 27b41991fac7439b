import AlphaAlgo.Backtest.Lookahead
import AlphaAlgo.Base.Calendar

/-!
# Latency — decisions that take effect later

`applyLatency` moves the decision of every intent by the latencies of a model; the engine then anchors the intents later.
Durations are in microseconds, and the times have fixed offsets from UTC, which an addition keeps.

* `applyLatency_add`: latencies one after the other are one latency.
* `anchorOf_delayed`: an intent anchors at the first record after its decision and the latency, and not before its anchor
  without latency.
* `runs_delayed`: the fills of the delayed run; and a latency in which no record falls, such as none at all
  (`unseen_of_isZero`), changes nothing.
-/

namespace AlphaAlgo.Backtest

open Loop

/-! ### The model -/

/-- The last four fields are the checks of `__post_init__`. -/
structure LatencyModel where
  signalLatency : ℤ := 0
  decisionLatency : ℤ := 0
  submissionLatency : ℤ := 0
  fillLatency : ℤ := 0
  signal_nonneg : 0 ≤ signalLatency
  decision_nonneg : 0 ≤ decisionLatency
  submission_nonneg : 0 ≤ submissionLatency
  fill_nonneg : 0 ≤ fillLatency

def LatencyModel.totalLatency (m : LatencyModel) : ℤ :=
  m.signalLatency + m.decisionLatency + m.submissionLatency + m.fillLatency

def LatencyModel.isZero (m : LatencyModel) : Bool := m.totalLatency = 0

/-- An intent that is decided at another instant. -/
def OrderIntent.retimed (intent : OrderIntent) (t : DateTime) (h : t.aware = true) : OrderIntent :=
  { intent with decidedAt := t, decided_aware := h }

theorem aware_add? {t u : DateTime} {d : ℤ} (h : t.add? d = some u) : u.aware = t.aware := by
  unfold DateTime.add? at h
  dsimp only at h
  split_ifs at h
  cases h
  rfl

theorem aware_delayed {intent : OrderIntent} {u : DateTime} {d : ℤ} (h : intent.decidedAt.add? d = some u) :
    u.aware = true := by
  rw [aware_add? h]
  exact intent.decided_aware

/-- An instant out of the years 1 to 9999 is refused (`OverflowError`). -/
def applyLatencyToIntent (model : LatencyModel) (intent : OrderIntent) : Option OrderIntent :=
  match h : intent.decidedAt.add? model.totalLatency with
  | none => none
  | some t => some (intent.retimed t (aware_delayed h))

def applyLatency (intents : List OrderIntent) (model : LatencyModel) : Option (List OrderIntent) :=
  intents.mapM (applyLatencyToIntent model)

/-! ### Delayed intents -/

/-- `intent'` is `intent`, decided later by `d`. -/
def DelayedBy (d : ℤ) (intent intent' : OrderIntent) : Prop :=
  ∃ t h, intent.decidedAt.add? d = some t ∧ intent' = intent.retimed t h

theorem applyLatencyToIntent_eq_some {model : LatencyModel} {intent intent' : OrderIntent} :
    applyLatencyToIntent model intent = some intent' ↔ DelayedBy model.totalLatency intent intent' := by
  unfold applyLatencyToIntent
  constructor
  · intro h
    split at h
    · cases h
    · next t ht =>
      cases h
      exact ⟨t, aware_delayed ht, ht, rfl⟩
  · rintro ⟨t, h, ht, rfl⟩
    split
    · next hnone => rw [hnone] at ht; cases ht
    · next u hu =>
      rw [hu] at ht
      cases ht
      rfl

/-- Moving an instant moves its point of time. -/
theorem instant_add? {t u : DateTime} {d : ℤ} (h : t.add? d = some u) : u.instant = t.instant + d := by
  have hoffset : u.utcoffset = t.utcoffset := by
    unfold DateTime.add? at h
    dsimp only at h
    split_ifs at h
    cases h
    rfl
  have hwall := DateTime.wallClock_add? h
  unfold DateTime.instant
  rw [hoffset, hwall]
  omega

theorem DelayedBy.instant {d : ℤ} {intent intent' : OrderIntent} (h : DelayedBy d intent intent') :
    intent'.decidedAt.instant = intent.decidedAt.instant + d := by
  obtain ⟨t, -, ht, rfl⟩ := h
  exact instant_add? ht

theorem mapM_eq_some {α β : Type*} {f : α → Option β} : ∀ {l : List α} {l' : List β},
    l.mapM f = some l' ↔ List.Forall₂ (fun a b => f a = some b) l l'
  | [], l' => by
    rw [List.forall₂_nil_left_iff]
    simp [eq_comm]
  | a :: l, l' => by
    rw [List.forall₂_cons_left_iff]
    simp only [List.mapM_cons, bind, Option.bind_eq_some_iff, pure, Option.some.injEq, mapM_eq_some]
    constructor
    · rintro ⟨b, hb, r, hr, rfl⟩
      exact ⟨b, r, hb, hr, rfl⟩
    · rintro ⟨b, r, hb, hr, rfl⟩
      exact ⟨b, hb, r, hr, rfl⟩

/-- What `applyLatency` makes of the intents. -/
theorem applyLatency_eq_some {intents delayed : List OrderIntent} {model : LatencyModel} :
    applyLatency intents model = some delayed ↔ List.Forall₂ (DelayedBy model.totalLatency) intents delayed := by
  rw [applyLatency, mapM_eq_some]
  simp only [applyLatencyToIntent_eq_some]

/-- A latency after another one. -/
def LatencyModel.add (m m' : LatencyModel) : LatencyModel where
  signalLatency := m.signalLatency + m'.signalLatency
  decisionLatency := m.decisionLatency + m'.decisionLatency
  submissionLatency := m.submissionLatency + m'.submissionLatency
  fillLatency := m.fillLatency + m'.fillLatency
  signal_nonneg := add_nonneg m.signal_nonneg m'.signal_nonneg
  decision_nonneg := add_nonneg m.decision_nonneg m'.decision_nonneg
  submission_nonneg := add_nonneg m.submission_nonneg m'.submission_nonneg
  fill_nonneg := add_nonneg m.fill_nonneg m'.fill_nonneg

theorem LatencyModel.totalLatency_nonneg (m : LatencyModel) : 0 ≤ m.totalLatency := by
  have h1 := m.signal_nonneg
  have h2 := m.decision_nonneg
  have h3 := m.submission_nonneg
  have h4 := m.fill_nonneg
  unfold totalLatency
  omega

/-- A moved instant moves on as the instant does. -/
theorem add?_add? {t u : DateTime} {d : ℤ} (h : t.add? d = some u) (d' : ℤ) : u.add? d' = t.add? (d + d') := by
  have hwall := DateTime.wallClock_add? h
  have hoffset : u.utcoffset = t.utcoffset := by
    unfold DateTime.add? at h
    dsimp only at h
    split_ifs at h
    cases h
    rfl
  unfold DateTime.add?
  rw [hwall, hoffset, add_assoc]

/-- **Latencies one after the other** are one latency. -/
theorem applyLatency_add {intents mid : List OrderIntent} {m m' : LatencyModel} (h : applyLatency intents m = some mid) :
    applyLatency mid m' = applyLatency intents (m.add m') := by
  have htotal : (m.add m').totalLatency = m.totalLatency + m'.totalLatency := by
    simp only [LatencyModel.totalLatency, LatencyModel.add]
    omega
  have hone {intent intent' : OrderIntent} (hdelayed : DelayedBy m.totalLatency intent intent') :
      applyLatencyToIntent m' intent' = applyLatencyToIntent (m.add m') intent := by
    obtain ⟨t, haware, ht, rfl⟩ := hdelayed
    refine Option.ext fun intent'' => ?_
    simp only [applyLatencyToIntent_eq_some, htotal]
    constructor
    · rintro ⟨u, h', hu, rfl⟩
      exact ⟨u, h', by rw [← add?_add? ht]; exact hu, rfl⟩
    · rintro ⟨u, h', hu, rfl⟩
      exact ⟨u, h', by rw [← add?_add? ht] at hu; exact hu, rfl⟩
  have hall := applyLatency_eq_some.mp h
  unfold applyLatency
  clear h
  induction hall with
  | nil => rfl
  | cons hfirst _ ih => rw [List.mapM_cons, List.mapM_cons, hone hfirst, ih]

/-! ### Anchors -/

/-- No record falls into the latency of an intent. -/
def Unseen (records : List MarketRecord) (d : ℤ) (intent : OrderIntent) : Prop :=
  ∀ r ∈ records, r.timestamp.instant ≤ intent.decidedAt.instant ∨ intent.decidedAt.instant + d < r.timestamp.instant

theorem unseen_of_isZero {m : LatencyModel} (h : m.isZero = true) (records : List MarketRecord) (intent : OrderIntent) :
    Unseen records m.totalLatency intent := by
  intro r _
  have hzero : m.totalLatency = 0 := of_decide_eq_true h
  omega

theorem anchorOf_unseen {records : List MarketRecord} {d : ℤ} {intent intent' : OrderIntent} (hd : 0 ≤ d)
    (h : DelayedBy d intent intent') (hunseen : Unseen records d intent) :
    anchorOf records intent'.decidedAt = anchorOf records intent.decidedAt := by
  have hsame : ∀ r ∈ records, notAfter intent'.decidedAt r = notAfter intent.decidedAt r := by
    intro r hr
    have hinstant := h.instant
    rcases hunseen r hr with hle | hlt
    · simp only [notAfter, hle, decide_true, decide_eq_true_eq]
      omega
    · have hnot : ¬r.timestamp.instant ≤ intent.decidedAt.instant := by omega
      simp only [notAfter, hnot, decide_false, decide_eq_false_iff_not]
      omega
  unfold anchorOf
  induction records with
  | nil => simp only [List.takeWhile_nil]
  | cons r rs ih =>
    have hfirst := hsame r List.mem_cons_self
    have hrest := ih (fun r' hr' => hunseen r' (List.mem_cons_of_mem _ hr')) fun r' hr' =>
      hsame r' (List.mem_cons_of_mem _ hr')
    rw [List.takeWhile_cons, List.takeWhile_cons, hfirst]
    cases notAfter intent.decidedAt r with
    | true =>
      simp only [if_true, List.length_cons]
      omega
    | false => simp only [Bool.false_eq_true, if_false]

theorem ascending_delayed {intents delayed : List OrderIntent} {d : ℤ}
    (h : List.Forall₂ (DelayedBy d) intents delayed) : Ascending delayed ↔ Ascending intents := by
  unfold Ascending
  induction h with
  | nil => exact Iff.rfl
  | cons hfirst hrest ih =>
    cases hrest with
    | nil => exact ⟨fun _ => .singleton _, fun _ => .singleton _⟩
    | cons hnext _ =>
      rw [List.isChain_cons_cons, List.isChain_cons_cons, ih, hfirst.instant, hnext.instant]
      refine and_congr ?_ Iff.rfl
      omega

/-! ### The two runs -/

/-- An indexed intent, decided at another instant but with the same anchor. -/
def SameAnchor (records : List MarketRecord) (e e' : IndexedIntent) : Prop :=
  e'.index = e.index ∧ (∃ t h, e'.intent = e.intent.retimed t h) ∧
    anchorOf records e'.intent.decidedAt = anchorOf records e.intent.decidedAt

/-- Steps that do the same. -/
inductive SameStep (records : List MarketRecord) : SimStep → SimStep → Prop
  | intent (k : ℕ) (record : MarketRecord) {e e' : IndexedIntent} (h : SameAnchor records e e') :
    SameStep records (.intent k record e) (.intent k record e')
  | mark (record : MarketRecord) : SameStep records (.mark record) (.mark record)

section Runs

variable {c : Ctx} {costModel : CostModel} {records : List MarketRecord}

/-- **An evaluation does not read when the intent was decided.** -/
theorem evaluateFill_retimed (intent : OrderIntent) (t : DateTime) (h : t.aware = true) (record : MarketRecord)
    (k : ℕ) (cash position : ℚ) (sequence i : ℕ) :
    evaluateFill c (intent.retimed t h) record k cash position costModel sequence i =
      evaluateFill c intent record k cash position costModel sequence i := rfl

theorem simStep_same {a a' : SimStep} (h : SameStep records a a') (s : SimState) :
    simStep c costModel s a' = simStep c costModel s a := by
  cases h with
  | mark record => rfl
  | intent k record h =>
    obtain ⟨hindex, ⟨t, haware, hintent⟩, -⟩ := h
    simp only [simStep, hindex, hintent, evaluateFill_retimed]
    congr 1
    funext evaluation
    simp only [SimState.settle, hindex, hintent]
    rfl

theorem run_same {l l' : List SimStep} (h : List.Forall₂ (SameStep records) l l') (s : SimState) :
    run (simStep c costModel) s l' = run (simStep c costModel) s l := by
  induction h generalizing s with
  | nil => rfl
  | cons hstep _ ih =>
    rw [run_cons, run_cons, simStep_same hstep]
    cases simStep c costModel s _ with
    | error e => rfl
    | ok s' => exact ih s'

variable {intents delayed : List OrderIntent} {d : ℤ}

theorem sameAnchor_indexed (hd : 0 ≤ d) (h : List.Forall₂ (DelayedBy d) intents delayed)
    (hunseen : ∀ intent ∈ intents, Unseen records d intent) :
    List.Forall₂ (SameAnchor records) (indexed intents) (indexed delayed) := by
  unfold indexed
  generalize 0 = n
  induction h generalizing n with
  | nil => exact .nil
  | cons hfirst _ ih =>
    obtain ⟨t, haware, ht, hretimed⟩ := hfirst
    refine .cons ⟨rfl, ⟨t, haware, hretimed⟩, ?_⟩ (ih (fun i hi => hunseen i (List.mem_cons_of_mem _ hi)) _)
    exact anchorOf_unseen hd ⟨t, haware, ht, hretimed⟩ (hunseen _ List.mem_cons_self)

/-- The runs start alike. -/
theorem startOf_same (hascending : Ascending intents) (hascending' : Ascending delayed)
    (h : List.Forall₂ (SameAnchor records) (indexed intents) (indexed delayed)) (hlength : delayed.length = intents.length)
    (capital : ℚ) : startOf records delayed capital = startOf records intents capital := by
  unfold startOf anchorRun
  rw [outcomes_anchorIntents (pairwise_indexed hascending), outcomes_anchorIntents (pairwise_indexed hascending'), hlength]
  generalize List.replicate intents.length (none : Option FillOutcome) = outcomes
  generalize indexed intents = l at h
  generalize indexed delayed = l' at h
  congr 1
  induction h generalizing outcomes with
  | nil => rfl
  | @cons e e' _ _ hfirst _ ih =>
    have hset : setMissing records outcomes e' = setMissing records outcomes e := by
      unfold setMissing
      rw [hfirst.2.2, hfirst.1]
    rw [List.foldl_cons, List.foldl_cons, hset, ih]

/-- The runs take the same steps. -/
theorem stepsOf_same (hascending : Ascending intents) (hascending' : Ascending delayed)
    (h : List.Forall₂ (SameAnchor records) (indexed intents) (indexed delayed)) :
    List.Forall₂ (SameStep records) (stepsOf records intents) (stepsOf records delayed) := by
  unfold stepsOf simSteps
  have hall : ∀ p ∈ records.zipIdx, List.Forall₂ (SameStep records)
      (recordSteps p.1 p.2 ((anchorRun records intents).anchoredAt p.2))
      (recordSteps p.1 p.2 ((anchorRun records delayed).anchoredAt p.2)) := by
    rintro ⟨record, k⟩ hp
    have hk : k < records.length := (List.getElem?_eq_some_iff.mp (List.mk_mem_zipIdx_iff_getElem?.mp hp)).1
    rw [anchoredAt_anchorRun hascending hk, anchoredAt_anchorRun hascending' hk]
    refine List.rel_append ?_ (.cons (.mark record) .nil)
    rw [List.forall₂_map_left_iff, List.forall₂_map_right_iff]
    have hfilter : List.Forall₂ (SameAnchor records)
        ((indexed intents).filter fun e => anchorOf records e.intent.decidedAt = k)
        ((indexed delayed).filter fun e => anchorOf records e.intent.decidedAt = k) := by
      refine List.rel_filter (fun e e' he => ?_) h
      simp only [decide_eq_true_eq]
      rw [he.2.2]
    exact hfilter.imp fun e e' he => .intent k record he
  generalize records.zipIdx = l at hall
  induction l with
  | nil => exact .nil
  | cons p l ih =>
    rw [List.flatMap_cons, List.flatMap_cons]
    exact List.rel_append (hall p List.mem_cons_self) (ih fun q hq => hall q (List.mem_cons_of_mem _ hq))

end Runs

/-- What a run shows, its intents apart. -/
def BacktestRun.results (r : BacktestRun) : List FillOutcome × List TradeRecord × List EquityPoint :=
  (r.outcomes, r.trades, r.equityCurve)

/-- A result does not depend on the intents it was computed for. -/
theorem results_makeRun {inputs : BacktestInput} {intents delayed : List OrderIntent} {costModel : CostModel}
    {initialCapital : ℚ} (hlength : delayed.length = intents.length) (s : SimState) (outcomes : List FillOutcome) :
    (makeRun inputs delayed costModel initialCapital s outcomes).map BacktestRun.results =
      (makeRun inputs intents costModel initialCapital s outcomes).map BacktestRun.results := by
  simp only [makeRun, hlength]
  split_ifs
  all_goals rfl

/-- The run of delayed intents. -/
structure RunsDelayed (c : Ctx) (inputs : BacktestInput) (intents delayed : List OrderIntent) (costModel : CostModel)
    (initialCapital : ℚ) (d : ℤ) : Prop where
  /-- A fill is at the first record strictly after the decision and the latency, and no fill is before the anchor of its
  intent without latency. -/
  fills : ∀ r, runBacktest c inputs delayed costModel initialCapital = .ok r →
    ∀ (i : ℕ) (o : FillOutcome) (fill : FillRecord) (intent : OrderIntent), r.outcomes[i]? = some o → o.fill = some fill → intents[i]? = some intent →
      anchorOf inputs.records intent.decidedAt ≤ fill.recordIndex ∧
        (∃ record, inputs.records[fill.recordIndex]? = some record ∧
          intent.decidedAt.instant + d < record.timestamp.instant) ∧
        ∀ r ∈ inputs.records.take fill.recordIndex, r.timestamp.instant ≤ intent.decidedAt.instant + d
  /-- When no record falls into a latency, the run is the run without latency, also when it raises. -/
  unseen : (∀ intent ∈ intents, Unseen inputs.records d intent) →
    (runBacktest c inputs delayed costModel initialCapital).map BacktestRun.results =
      (runBacktest c inputs intents costModel initialCapital).map BacktestRun.results

/-- **Latency**: over every input, for all intents and under every model that does not leave the calendar. -/
theorem runs_delayed (c : Ctx) (inputs : BacktestInput) {intents delayed : List OrderIntent} (costModel : CostModel)
    (initialCapital : ℚ) {model : LatencyModel} (h : applyLatency intents model = some delayed) :
    RunsDelayed c inputs intents delayed costModel initialCapital model.totalLatency := by
  have hall := applyLatency_eq_some.mp h
  have hlength : delayed.length = intents.length := hall.length_eq.symm
  constructor
  · intro r hr i o fill intent ho hfill hintent
    obtain ⟨s, hran⟩ := ran hr
    obtain ⟨intent', record, hintent', hrecord, hafter, hbefore, -⟩ := (explained hran ho).filledAtFirst hfill
    have hdelayed : DelayedBy model.totalLatency intent intent' := by
      obtain ⟨hlt, rfl⟩ := List.getElem?_eq_some_iff.mp hintent
      obtain ⟨hlt', rfl⟩ := List.getElem?_eq_some_iff.mp hintent'
      exact (List.forall₂_iff_get.mp hall).2 i hlt hlt'
    have hinstant := hdelayed.instant
    obtain ⟨hk, rfl⟩ := List.getElem?_eq_some_iff.mp hrecord
    have hanchor : anchorOf inputs.records intent'.decidedAt = fill.recordIndex :=
      (anchorOf_eq_iff hk).mpr ⟨hafter, hbefore⟩
    refine ⟨?_, ⟨_, hrecord, by rw [← hinstant]; exact hafter⟩, fun r' hr' => by rw [← hinstant]; exact hbefore r' hr'⟩
    rw [← hanchor]
    apply anchorOf_mono
    have hpos := model.totalLatency_nonneg
    omega
  · intro hunseen
    have hasc := ascending_delayed hall
    by_cases hascending : Ascending intents
    · have hascending' := hasc.mpr hascending
      have hsame := sameAnchor_indexed model.totalLatency_nonneg hall hunseen
      have hrun : run (simStep c costModel) (startOf inputs.records delayed initialCapital)
          (stepsOf inputs.records delayed) =
            run (simStep c costModel) (startOf inputs.records intents initialCapital) (stepsOf inputs.records intents) := by
        rw [startOf_same hascending hascending' hsame hlength, run_same (stepsOf_same hascending hascending' hsame)]
      unfold runBacktest
      by_cases hcapital : initialCapital ≤ 0
      · simp only [raiseIf, if_pos hcapital, bind, Except.bind, Except.map]
      · simp only [raiseIf, if_neg hcapital, hascending, hascending', not_true_eq_false, if_false, bind, Except.bind, hrun]
        cases run (simStep c costModel) (startOf inputs.records intents initialCapital)
            (stepsOf inputs.records intents) with
        | error e => rfl
        | ok s =>
          dsimp only
          cases allOutcomes s.outcomes with
          | error e => rfl
          | ok outcomes => exact results_makeRun hlength s outcomes
    · have hascending' : ¬Ascending delayed := fun h' => hascending (hasc.mp h')
      unfold runBacktest
      by_cases hcapital : initialCapital ≤ 0
      · simp only [raiseIf, if_pos hcapital, bind, Except.bind, Except.map]
      · simp only [raiseIf, if_neg hcapital, hascending, hascending', not_false_eq_true, if_true, bind, Except.bind,
          Except.map]

theorem oneSecond_nonneg : (0 : ℤ) ≤ 1000000 := by norm_num

/-- A second between submission and fill. -/
def oneSecond : LatencyModel := ⟨0, 0, 1000000, 0, le_rfl, le_rfl, oneSecond_nonneg, le_rfl⟩

theorem runs_delayed_second : ∃ delayed, RunsDelayed .exact sampleInput sampleIntents delayed sampleCosts 1000
    oneSecond.totalLatency := by
  have hsome : (applyLatency sampleIntents oneSecond).isSome = true := by decide +kernel
  obtain ⟨delayed, hdelayed⟩ := Option.isSome_iff_exists.mp hsome
  exact ⟨delayed, runs_delayed .exact sampleInput sampleCosts 1000 hdelayed⟩

end AlphaAlgo.Backtest
