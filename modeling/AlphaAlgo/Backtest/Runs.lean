import AlphaAlgo.Backtest.Engine

/-!
# Runs — what holds at every bar of a backtest

`Ran` is what the engine hands back for the state after the last step.

* `run_sound`: without rounding, cash, position, lots and cash flows agree after every step, the ledger never raises, and
  every intent has exactly one outcome.
-/

namespace AlphaAlgo.Backtest

open Loop

/-- The result `r` of a run that ended in the state `s`. -/
structure Ran (c : Ctx) (inputs : BacktestInput) (intents : List OrderIntent) (costModel : CostModel)
    (initialCapital : ℚ) (r : BacktestRun) (s : SimState) : Prop where
  capital_pos : 0 < initialCapital
  ascending : Ascending intents
  ended : run (simStep c costModel) (startOf inputs.records intents initialCapital)
    (stepsOf inputs.records intents) = .ok s
  outcomes : s.outcomes = r.outcomes.map some
  capital : r.initialCapital = initialCapital
  intents : r.intents = intents
  trades : r.trades = s.trades
  equityCurve : r.equityCurve = s.equityPoints

section Ran

variable {c : Ctx} {inputs : BacktestInput} {intents : List OrderIntent} {costModel : CostModel} {initialCapital : ℚ}

theorem allOutcomes_eq_ok : ∀ {os : List (Option FillOutcome)} {l : List FillOutcome},
    allOutcomes os = .ok l ↔ os = l.map some
  | [], l => by
    rw [allOutcomes, Except.ok.injEq]
    cases l with
    | nil => simp
    | cons o l => simp
  | none :: os, l => by
    cases l with
    | nil => simp [allOutcomes]
    | cons o l => simp [allOutcomes]
  | some o :: os, l => by
    rw [allOutcomes, map_eq_ok]
    simp only [allOutcomes_eq_ok]
    cases l with
    | nil => simp
    | cons o' l =>
      simp only [List.cons.injEq, List.map_cons, Option.some.injEq]
      constructor
      · rintro ⟨l', rfl, rfl, rfl⟩
        exact ⟨rfl, rfl⟩
      · rintro ⟨rfl, rfl⟩
        exact ⟨l, rfl, rfl, rfl⟩

/-- What an accepted run was. -/
theorem ran {r : BacktestRun} (h : runBacktest c inputs intents costModel initialCapital = .ok r) :
    ∃ s, Ran c inputs intents costModel initialCapital r s := by
  simp only [runBacktest, bind_eq_ok, raiseIf_eq_ok, allOutcomes_eq_ok, not_le, not_not] at h
  obtain ⟨-, hcapital, -, hascending, s, hrun, outcomes, houtcomes, h⟩ := h
  rw [makeRun, dif_pos hcapital] at h
  split_ifs at h
  cases h
  exact ⟨s, hcapital, hascending, hrun, houtcomes, rfl, rfl, rfl, rfl⟩

/-- A run is accepted when its steps end with all outcomes and some equity. -/
theorem exists_ran {s : SimState} {outcomes : List FillOutcome} (hcapital : 0 < initialCapital)
    (hascending : Ascending intents)
    (hrun : run (simStep c costModel) (startOf inputs.records intents initialCapital)
      (stepsOf inputs.records intents) = .ok s)
    (houtcomes : s.outcomes = outcomes.map some) (hlength : outcomes.length = intents.length)
    (hequity : s.equityPoints ≠ []) :
    ∃ r, runBacktest c inputs intents costModel initialCapital = .ok r ∧
      Ran c inputs intents costModel initialCapital r s ∧ r.outcomes = outcomes := by
  refine ⟨⟨inputs.datasetId, inputs.source, initialCapital, costModel, intents, outcomes, s.trades, s.equityPoints,
    hcapital, hlength, hequity⟩, ?_, ⟨hcapital, hascending, hrun, houtcomes, rfl, rfl, rfl, rfl⟩, rfl⟩
  simp only [runBacktest, bind_eq_ok, raiseIf_eq_ok, allOutcomes_eq_ok, not_le, not_not]
  refine ⟨(), hcapital, (), hascending, s, hrun, outcomes, houtcomes, ?_⟩
  rw [makeRun, dif_pos hcapital, dif_pos hlength, dif_pos hequity]

end Ran

theorem simSteps_append (rs rs' : List MarketRecord) (anchored : ℕ → List IndexedIntent) :
    simSteps (rs ++ rs') anchored =
      simSteps rs anchored ++ (rs'.zipIdx rs.length).flatMap fun p => recordSteps p.1 p.2 (anchored p.2) := by
  rw [simSteps, List.zipIdx_append, List.flatMap_append, zero_add]
  rfl

/-- The steps of one more record. -/
theorem simSteps_concat (rs : List MarketRecord) (record : MarketRecord) (anchored : ℕ → List IndexedIntent) :
    simSteps (rs ++ [record]) anchored =
      (simSteps rs anchored ++ (anchored rs.length).map (.intent rs.length record)) ++ [.mark record] := by
  rw [simSteps_append, List.zipIdx_singleton, List.flatMap_singleton, recordSteps, List.append_assoc]

/-- A run ends with the mark of the last record. -/
theorem exists_last_mark {records : List MarketRecord} (h : records ≠ []) (intents : List OrderIntent) :
    ∃ record l, records.getLast? = some record ∧ stepsOf records intents = l ++ [.mark record] := by
  obtain ⟨rs, record, rfl⟩ := (List.eq_nil_or_concat' records).resolve_left h
  exact ⟨record, _, List.getLast?_concat, simSteps_concat rs record _⟩

def BacktestRun.finalEquity (r : BacktestRun) : ℚ := (r.equityCurve.getLast r.equity_nonempty).equity

/-- The final equity is the equity of the last state at the last mark. -/
theorem Ran.finalEquity {c : Ctx} {inputs : BacktestInput} {intents : List OrderIntent} {costModel : CostModel}
    {initialCapital : ℚ} {r : BacktestRun} {s : SimState} (h : Ran c inputs intents costModel initialCapital r s) :
    ∃ record mark, inputs.records.getLast? = some record ∧ markPrice .engine record = .ok mark ∧
      r.finalEquity = c.fix (s.cash + c.fix (s.position * mark)) := by
  obtain ⟨record, l, hlast, hsteps⟩ := exists_last_mark inputs.records_ne_nil intents
  have hended := h.ended
  rw [hsteps] at hended
  obtain ⟨t, -, hmark⟩ := run_append_ok.mp hended
  obtain ⟨s', hstep, hnil⟩ := run_cons_ok.mp hmark
  cases hnil
  obtain ⟨price, hprice, rfl⟩ := map_eq_ok.mp hstep
  refine ⟨record, price, hlast, hprice, ?_⟩
  simp only [BacktestRun.finalEquity, h.equityCurve, List.getLast_append_singleton]

/-! ### Every bar -/

/-- What holds after every step: cash and position are not negative, the position is what the open lots have left, and
the cash is the capital plus the cash flows of the fills so far. -/
structure SimState.Sound (capital : ℚ) (s : SimState) : Prop where
  cash_nonneg : 0 ≤ s.cash
  position_nonneg : 0 ≤ s.position
  position_eq : s.position = (s.ledger.lots.map Lot.remainingQuantity).sum
  cash_eq : s.cash = capital + ((fillsOf s.outcomes).map FillRecord.cashFlow).sum

section Exact

variable {inputs : BacktestInput} {intents : List OrderIntent} {costModel : CostModel} {initialCapital : ℚ}

theorem balanced_start {records : List MarketRecord} (h : 0 < initialCapital) :
    (startOf records intents initialCapital).Balanced :=
  ⟨h.le, FifoLedger.sound_empty, rfl⟩

/-- Both invariants hold together, with the steps to come. -/
def Holds (capital : ℚ) (n : ℕ) (s : SimState) (rest : List SimStep) : Prop :=
  s.Balanced ∧ s.Accounted capital n rest

theorem holds_start {records : List MarketRecord} (hcapital : 0 < initialCapital) (hascending : Ascending intents) :
    Holds initialCapital intents.length (startOf records intents initialCapital) (stepsOf records intents) :=
  ⟨balanced_start hcapital, accounted_start hascending initialCapital⟩

theorem Holds.step {capital : ℚ} {n : ℕ} {s s' : SimState} {a : SimStep} {rest : List SimStep}
    (h : Holds capital n s (a :: rest)) (hstep : simStep .exact costModel s a = .ok s') : Holds capital n s' rest :=
  ⟨h.1.step (stepped hstep), h.2.step (stepped hstep)⟩

theorem holds_run {l rest : List SimStep} {s : SimState} (hcapital : 0 < initialCapital) (hascending : Ascending intents)
    (hsteps : l ++ rest = stepsOf inputs.records intents)
    (h : run (simStep .exact costModel) (startOf inputs.records intents initialCapital) l = .ok s) :
    Holds initialCapital intents.length s rest := by
  have hstart := @holds_start _ _ inputs.records hcapital hascending
  rw [← hsteps] at hstart
  exact invariant_rest (fun _ _ _ _ hs hstep => hs.step hstep) hstart h

theorem Holds.sound {capital : ℚ} {n : ℕ} {s : SimState} {rest : List SimStep} (h : Holds capital n s rest) :
    s.Sound capital where
  cash_nonneg := h.1.cash_nonneg
  position_nonneg := h.1.position_eq ▸ h.1.ledger.openQuantity_nonneg
  position_eq := h.1.position_eq
  cash_eq := h.2.cash_eq

/-- The outcomes of an accepted run are those of the intents, in their order. -/
theorem map_intentIndex_outcomes {r : BacktestRun} {s : SimState}
    (h : Ran .exact inputs intents costModel initialCapital r s) :
    r.outcomes.map FillOutcome.intentIndex = List.range intents.length := by
  have hholds := @holds_run _ _ _ _ _ [] _ h.capital_pos h.ascending (List.append_nil _) h.ended
  have hlength : r.outcomes.length = intents.length := by
    rw [← hholds.2.length, h.outcomes, List.length_map]
  refine List.ext_getElem (by simp [hlength]) fun i hi _ => ?_
  rw [List.getElem_map, List.getElem_range]
  refine hholds.2.index i _ ?_
  rw [h.outcomes, List.getElem?_map, List.getElem?_eq_getElem (by simpa using hi)]
  rfl

/-- No step of a run raises the error of the ledger. -/
theorem run_ne {s : SimState} (h : s.Balanced) (l : List SimStep) :
    run (simStep .exact costModel) s l ≠ .error ledgerViolated :=
  never_raises (I := SimState.Balanced) (fun _ _ _ hs hstep => hs.step (stepped hstep)) (fun _ _ hs => simStep_ne hs) h

theorem allOutcomes_ne : ∀ os : List (Option FillOutcome), allOutcomes os ≠ .error ledgerViolated
  | [] => fun heq => by cases heq
  | none :: _ => fun heq => ne_ledgerViolated (by decide) (Except.error.inj heq)
  | some _ :: os => map_ne_error (allOutcomes_ne os)

theorem makeRun_ne {s : SimState} {outcomes : List FillOutcome} :
    makeRun inputs intents costModel initialCapital s outcomes ≠ .error ledgerViolated := by
  unfold makeRun
  split_ifs
  · exact fun heq => by cases heq
  · exact fun heq => ne_ledgerViolated (by decide) (Except.error.inj heq)
  · exact fun heq => ne_ledgerViolated (by decide) (Except.error.inj heq)
  · exact fun heq => ne_ledgerViolated (by decide) (Except.error.inj heq)

/-- The ledger never raises. -/
theorem runBacktest_ne : runBacktest .exact inputs intents costModel initialCapital ≠ .error ledgerViolated := by
  refine bind_ne_error (raiseIf_ne_error (ne_ledgerViolated (by decide))) fun _ hcapital => ?_
  refine bind_ne_error (raiseIf_ne_error (ne_ledgerViolated (by decide))) fun _ _ => ?_
  have hpos : 0 < initialCapital := not_le.mp (raiseIf_eq_ok.mp hcapital)
  exact bind_ne_error (run_ne (balanced_start hpos) _) fun s _ =>
    bind_ne_error (allOutcomes_ne s.outcomes) fun _ _ => makeRun_ne

/-- **Cash, position, lots and cash flows agree at every bar** of a backtest without rounding. -/
theorem run_sound (inputs : BacktestInput) (intents : List OrderIntent) (costModel : CostModel) (initialCapital : ℚ) :
    runBacktest .exact inputs intents costModel initialCapital ≠ .error ledgerViolated ∧
    ∀ r, runBacktest .exact inputs intents costModel initialCapital = .ok r →
      (∀ l, l <+: stepsOf inputs.records intents → ∃ s,
        run (simStep .exact costModel) (startOf inputs.records intents initialCapital) l = .ok s ∧
          s.Sound initialCapital) ∧
      r.outcomes.map FillOutcome.intentIndex = List.range intents.length := by
  refine ⟨runBacktest_ne, fun r hr => ?_⟩
  obtain ⟨t, hran⟩ := ran hr
  refine ⟨fun l hl => ?_, map_intentIndex_outcomes hran⟩
  obtain ⟨s, hs⟩ := run_prefix hran.ended hl
  obtain ⟨rest, hrest⟩ := hl
  exact ⟨s, hs, (holds_run hran.capital_pos hran.ascending hrest hs).sound⟩

end Exact

/-! ### A sample run -/

/-- Three ticks at 100, 110 and 120. -/
def sampleRecords : List MarketRecord :=
  [sampleTick 1 (.finite (.ofNat 100)), sampleTick 2 (.finite (.ofNat 110)), sampleTick 3 (.finite (.ofNat 120))]

theorem sampleRecords_accepted : checkInput "infy" "csv" sampleRecords = .ok () := by decide

def sampleInput : BacktestInput := ⟨"infy", "csv", sampleRecords, sampleRecords_accepted⟩

/-- A market intent for a number of units. -/
def sampleIntent (side : IntentSide) (units minute : ℕ) : OrderIntent where
  side := side
  orderType := .market
  quantity := (units + 1 : ℕ)
  decidedAt := ⟨2026, 1, 1, 9, minute, 0, 0, some 0⟩
  quantity_pos := Nat.cast_pos.mpr units.succ_pos
  decided_aware := rfl
  limit_pos h := nomatch h
  market_none _ := rfl

/-- Two are bought and one of them is sold. -/
def sampleIntents : List OrderIntent := [sampleIntent .buy 1 0, sampleIntent .sell 0 1]

theorem free_nonneg : (0 : ℚ) ≤ 0 := le_rfl

def sampleCosts : CostModel := ⟨1, 0, zero_le_one, free_nonneg, by norm_num⟩

theorem exists_ok {ε α : Type} {x : Except ε α} (h : x.toOption.isSome = true) : ∃ a, x = .ok a := by
  cases x with
  | error e => cases h
  | ok a => exact ⟨a, rfl⟩

theorem sample_accepted : ∃ r, runBacktest .exact sampleInput sampleIntents sampleCosts 1000 = .ok r :=
  exists_ok (by decide +kernel)

theorem run_sound_sample : ∃ r, runBacktest .exact sampleInput sampleIntents sampleCosts 1000 = .ok r ∧
    (∀ l, l <+: stepsOf sampleRecords sampleIntents → ∃ s,
      run (simStep .exact sampleCosts) (startOf sampleRecords sampleIntents 1000) l = .ok s ∧ s.Sound 1000) ∧
    r.outcomes.map FillOutcome.intentIndex = List.range 2 := by
  obtain ⟨r, hr⟩ := sample_accepted
  exact ⟨r, hr, (run_sound sampleInput sampleIntents sampleCosts 1000).2 r hr⟩

end AlphaAlgo.Backtest
