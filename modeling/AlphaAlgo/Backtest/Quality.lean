import AlphaAlgo.Backtest.Records

/-!
# Quality — the quality gate for historical data

`validateDataset` classifies a sequence of records and reports findings; it never repairs anything.  The difference of
two timestamps stands for their comparison: both are refused between a naive and an aware one.

* `ready_iff`: the gate reports a sequence as ready for simulation when it is empty, or when the constructor of
  `BacktestInput` accepts it and the prices of its records are valid.
-/

namespace AlphaAlgo.Backtest

open Loop

inductive QualityClass where
  | valid
  | quarantined
  | rejected
deriving DecidableEq, Repr

structure DataQualityFinding where
  index : ℕ
  classification : QualityClass
  reason : String
deriving DecidableEq, Repr

/-- The last field is the check of `__post_init__`. -/
structure DataQualityReport where
  totalRecords : ℕ
  validCount : ℕ
  quarantinedCount : ℕ
  rejectedCount : ℕ
  findings : List DataQualityFinding
  datasetClassification : QualityClass
  total : validCount + quarantinedCount + rejectedCount = totalRecords

/-- Every record is valid. -/
def DataQualityReport.isSimulationReady (report : DataQualityReport) : Bool :=
  report.rejectedCount = 0 && report.quarantinedCount = 0

/-- What the gate raises. -/
inductive QualityError where
  | dataQuality (text : String)
  | typeError
  | overflow
  | arithmetic (e : ArithError)
deriving DecidableEq

/-- The optional arguments; durations are in microseconds. -/
structure QualityOptions where
  referenceTime : Option DateTime := none
  expectedStep : Option ℤ := none
  gapMultiple : ℤ := 3

/-- The longest duration, in microseconds. -/
def maxDuration : ℤ := 86399999999999999999

def flag (found : Bool) (index : ℕ) (classification : QualityClass) (reason : String) : List DataQualityFinding :=
  if found then [⟨index, classification, reason⟩] else []

/-- `not value.is_finite() or value <= 0`. -/
def invalidPrice (value : Decimal) : Bool :=
  match value.num with
  | .fin q => q ≤ 0
  | _ => true

/-- `not (low <= x <= high)`. -/
def outside (low x high : Decimal) : Except ArithError Bool :=
  low.num.le? x.num >>= fun above => if above then (x.num.le? high.num).map not else .ok true

/-- `_classify_record`: what it finds; the record is rejected when it finds something. -/
def classifyRecord (record : MarketRecord) (index : ℕ) : Except ArithError (List DataQualityFinding) :=
  let naive := flag (!record.timestamp.aware) index .rejected "naive timestamp"
  match record with
  | .candle c => do
    let prices := [("open", c.openPrice), ("high", c.highPrice), ("low", c.lowPrice), ("close", c.closePrice)].flatMap
      fun p => flag (invalidPrice p.2) index .rejected ("invalid candle " ++ p.1 ++ "_price")
    let lowExceeds ← c.highPrice.num.lt? c.lowPrice.num
    let openOutside ← outside c.lowPrice c.openPrice c.highPrice
    let closeOutside ← outside c.lowPrice c.closePrice c.highPrice
    return naive ++ prices ++ flag lowExceeds index .rejected "candle low exceeds high" ++
      flag openOutside index .rejected "candle open outside range" ++
      flag closeOutside index .rejected "candle close outside range"
  | .tick t => do
    let bidExceeds ← crossed (.tick t)
    return naive ++ flag (invalidPrice t.ltp) index .rejected "invalid tick ltp" ++
      flag bidExceeds index .rejected "tick bid exceeds ask"

/-- The identity, the kind and the timeframe of a record against those of the first. -/
def coherenceFindings (first record : MarketRecord) (index : ℕ) : List DataQualityFinding :=
  flag ((record.instrumentId, record.exchange, record.symbol) ≠ (first.instrumentId, first.exchange, first.symbol)) index
      .rejected "symbol/exchange/instrument identity drift" ++
    flag (first.isCandle ≠ record.isCandle) index .rejected "mixed candle/tick kinds" ++
    flag (first.isCandle && record.isCandle && record.timeframe ≠ first.timeframe) index .rejected
      "candle timeframe drift"

/-- `expected_step * gap_multiple`. -/
def gapLimit (options : QualityOptions) (step : ℤ) : Except QualityError ℤ :=
  if maxDuration < step * options.gapMultiple then .error .overflow else .ok (step * options.gapMultiple)

/-- A timestamp against the one before it. -/
def orderFindings (options : QualityOptions) (previous : Option DateTime) (ts : DateTime) (index : ℕ) :
    Except QualityError (List DataQualityFinding) :=
  match previous with
  | none => .ok []
  | some p =>
    match ts.sub? p with
    | none => .error .typeError
    | some d =>
      if d < 0 then .ok [⟨index, .rejected, "out-of-order timestamp"⟩]
      else if d = 0 then .ok [⟨index, .quarantined, "duplicate timestamp"⟩]
      else
        match options.expectedStep with
        | none => .ok []
        | some step => do
          let limit ← gapLimit options step
          return flag (limit < d) index .quarantined "gap larger than expected step"

/-- A timestamp against the reference time. -/
def futureFindings (options : QualityOptions) (ts : DateTime) (index : ℕ) :
    Except QualityError (List DataQualityFinding) :=
  match options.referenceTime with
  | none => .ok []
  | some reference =>
    match ts.sub? reference with
    | none => .error .typeError
    | some d => .ok (flag (0 < d) index .quarantined "future-dated record")

/-- The class of the record `index` with the findings so far. -/
def classOf (index : ℕ) (own findings : List DataQualityFinding) : QualityClass :=
  if own ≠ [] ∨ findings.any (fun f => f.index = index ∧ f.classification = .rejected) then .rejected
  else if findings.any (fun f => f.index = index ∧ f.classification = .quarantined) then .quarantined
  else .valid

/-- The loop over the records: the findings and the classes. -/
def classifyRecords (options : QualityOptions) (first : MarketRecord) : Option DateTime → ℕ → List MarketRecord →
    List DataQualityFinding → List QualityClass → Except QualityError (List DataQualityFinding × List QualityClass)
  | _, _, [], findings, classes => .ok (findings, classes)
  | previous, index, record :: rest, findings, classes => do
    let own ← (classifyRecord record index).mapError .arithmetic
    let order ← orderFindings options previous record.timestamp index
    let future ← futureFindings options record.timestamp index
    let findings := findings ++ (own ++ coherenceFindings first record index ++ order ++ future)
    classifyRecords options first (some record.timestamp) (index + 1) rest findings
      (classes ++ [classOf index own findings])

/-- The report on findings and classes. -/
def makeReport (total : ℕ) (findings : List DataQualityFinding) (classes : List QualityClass) :
    Except QualityError DataQualityReport :=
  if h : classes.count .valid + classes.count .quarantined + classes.count .rejected = total then
    .ok
      { totalRecords := total
        validCount := classes.count .valid
        quarantinedCount := classes.count .quarantined
        rejectedCount := classes.count .rejected
        findings := findings
        datasetClassification :=
          if 0 < classes.count .rejected then .rejected
          else if 0 < classes.count .quarantined then .quarantined else .valid
        total := h }
  else .error (.dataQuality "record classification counts must sum to total_records")

def validateDataset (records : List MarketRecord) (options : QualityOptions) :
    Except QualityError DataQualityReport := do
  raiseIf (options.referenceTime.any fun t => !t.aware)
    (.dataQuality "reference_time must be timezone-aware or None")
  raiseIf (options.expectedStep.any (· ≤ 0)) (.dataQuality "expected_step must be a positive timedelta or None")
  raiseIf (options.gapMultiple < 1) (.dataQuality "gap_multiple must be a positive int")
  match records with
  | [] => makeReport 0 [] []
  | first :: _ => do
    let result ← classifyRecords options first none 0 records [] []
    makeReport records.length result.1 result.2

/-! ### Findings on one record -/

/-- The prices of a record are what the contracts demand: positive and finite, open and close within the range. -/
def PricesValid : MarketRecord → Prop
  | .candle c => ∃ o h l k : ℚ, c.openPrice.num = .fin o ∧ c.highPrice.num = .fin h ∧ c.lowPrice.num = .fin l ∧
      c.closePrice.num = .fin k ∧ 0 < l ∧ (l ≤ o ∧ o ≤ h) ∧ l ≤ k ∧ k ≤ h
  | .tick t => ∃ p : ℚ, t.ltp.num = .fin p ∧ 0 < p

@[simp] theorem flag_eq_nil {found : Bool} {index : ℕ} {c : QualityClass} {reason : String} :
    flag found index c reason = [] ↔ found = false := by
  cases found <;> simp [flag]

theorem index_of_mem_flag {found : Bool} {index : ℕ} {c : QualityClass} {reason : String} {f : DataQualityFinding}
    (h : f ∈ flag found index c reason) : f.index = index ∧ f.classification = c := by
  cases found with
  | false => cases h
  | true =>
    rw [List.mem_singleton.mp h]
    exact ⟨rfl, rfl⟩

theorem invalidPrice_eq_false {value : Decimal} : invalidPrice value = false ↔ ∃ q, value.num = .fin q ∧ 0 < q := by
  unfold invalidPrice
  cases value.num with
  | fin q => simp
  | inf neg => simp
  | nan => simp

theorem outside_eq_ok_false {low x high : Decimal} :
    outside low x high = .ok false ↔ low.num ≤ x.num ∧ x.num ≤ high.num := by
  rw [outside, bind_eq_ok]
  constructor
  · rintro ⟨above, habove, h⟩
    cases above with
    | false => cases h
    | true =>
      rw [if_pos rfl] at h
      cases hle : x.num.le? high.num with
      | error e =>
        rw [hle] at h
        cases h
      | ok b =>
        rw [hle] at h
        cases b with
        | false => cases h
        | true => exact ⟨habove, hle⟩
  · rintro ⟨hlow, hhigh⟩
    have hle : x.num.le? high.num = .ok true := hhigh
    exact ⟨true, hlow, by rw [if_pos rfl, hle]; rfl⟩

/-- A candle without a finding about its prices. -/
theorem candle_clean_iff {c : MarketCandle} :
    (invalidPrice c.openPrice = false ∧ invalidPrice c.highPrice = false ∧ invalidPrice c.lowPrice = false ∧
      invalidPrice c.closePrice = false) ∧ c.highPrice.num.lt? c.lowPrice.num = .ok false ∧
      outside c.lowPrice c.openPrice c.highPrice = .ok false ∧
      outside c.lowPrice c.closePrice c.highPrice = .ok false ↔ PricesValid (.candle c) := by
  simp only [invalidPrice_eq_false, outside_eq_ok_false]
  constructor
  · rintro ⟨⟨⟨o, ho, -⟩, ⟨h, hh, -⟩, ⟨l, hl, hl0⟩, ⟨k, hk, -⟩⟩, -, hopen, hclose⟩
    rw [hl, ho, hh] at hopen
    rw [hl, hk, hh] at hclose
    exact ⟨o, h, l, k, ho, hh, hl, hk, hl0, ⟨Num.fin_le_fin.mp hopen.1, Num.fin_le_fin.mp hopen.2⟩,
      Num.fin_le_fin.mp hclose.1, Num.fin_le_fin.mp hclose.2⟩
  · rintro ⟨o, h, l, k, ho, hh, hl, hk, hl0, ⟨hlo, hoh⟩, hlk, hkh⟩
    have ho0 : 0 < o := hl0.trans_le hlo
    refine ⟨⟨⟨o, ho, ho0⟩, ⟨h, hh, ho0.trans_le hoh⟩, ⟨l, hl, hl0⟩, ⟨k, hk, hl0.trans_le hlk⟩⟩, ?_, ?_, ?_⟩
    · rw [hh, hl]
      exact Num.lt?_false_of_le (Num.fin_le_fin.mpr (hlo.trans hoh))
    · rw [hl, ho, hh]
      exact ⟨Num.fin_le_fin.mpr hlo, Num.fin_le_fin.mpr hoh⟩
    · rw [hl, hk, hh]
      exact ⟨Num.fin_le_fin.mpr hlk, Num.fin_le_fin.mpr hkh⟩

theorem tick_clean_iff {t : MarketTick} : invalidPrice t.ltp = false ↔ PricesValid (.tick t) := invalidPrice_eq_false

/-- A record without a finding of its own. -/
theorem classifyRecord_eq_nil {r : MarketRecord} {index : ℕ} : classifyRecord r index = .ok [] ↔
    r.timestamp.aware = true ∧ crossed r = .ok false ∧ PricesValid r := by
  cases r with
  | candle c =>
    rw [← candle_clean_iff]
    simp only [classifyRecord, bind_eq_ok, pure, Except.pure, Except.ok.injEq, List.append_eq_nil_iff, flag_eq_nil,
      Bool.not_eq_false', List.flatMap_cons, List.flatMap_nil, crossed]
    constructor
    · rintro ⟨a, ha, b, hb, d, hd, ⟨⟨⟨haware, hprices⟩, rfl⟩, rfl⟩, rfl⟩
      exact ⟨haware, trivial, ⟨hprices.1, hprices.2.1, hprices.2.2.1, hprices.2.2.2.1⟩, ha, hb, hd⟩
    · rintro ⟨haware, -, ⟨ho, hh, hl, hk⟩, ha, hb, hd⟩
      exact ⟨false, ha, false, hb, false, hd, ⟨⟨⟨haware, ho, hh, hl, hk, trivial⟩, rfl⟩, rfl⟩, rfl⟩
  | tick t =>
    rw [← tick_clean_iff]
    simp only [classifyRecord, bind_eq_ok, pure, Except.pure, Except.ok.injEq, List.append_eq_nil_iff, flag_eq_nil,
      Bool.not_eq_false']
    constructor
    · rintro ⟨a, ha, ⟨haware, hltp⟩, rfl⟩
      exact ⟨haware, ha, hltp⟩
    · rintro ⟨haware, ha, hltp⟩
      exact ⟨false, ha, ⟨haware, hltp⟩, rfl⟩

/-- A record that is coherent with the first one. -/
theorem coherenceFindings_eq_nil {first r : MarketRecord} {index : ℕ} : coherenceFindings first r index = [] ↔
    (r.instrumentId = first.instrumentId ∧ r.exchange = first.exchange ∧ r.symbol = first.symbol) ∧
      r.isCandle = first.isCandle ∧ (first.isCandle = true → r.isCandle = true → r.timeframe = first.timeframe) := by
  simp only [coherenceFindings, List.append_eq_nil_iff, flag_eq_nil, decide_eq_false_iff_not, not_not, Prod.mk.injEq,
    Bool.and_eq_false_iff, ne_eq]
  rw [and_assoc]
  refine and_congr_right fun _ => and_congr eq_comm ?_
  cases first.isCandle <;> cases r.isCandle <;> simp

theorem sub?_of_aware {t u : DateTime} (ht : t.aware = true) (hu : u.aware = true) :
    t.sub? u = some (t.instant - u.instant) := by
  obtain ⟨a, ha⟩ := Option.isSome_iff_exists.mp ht
  obtain ⟨b, hb⟩ := Option.isSome_iff_exists.mp hu
  simp only [DateTime.sub?, DateTime.instant, ha, hb, Option.getD_some]

section Findings

variable {options : QualityOptions} {first : MarketRecord} {previous : Option MarketRecord}

/-- Without an expected step: a timestamp that is later than the one before it. -/
theorem orderFindings_eq_nil (hstep : options.expectedStep = none) {r : MarketRecord} {index : ℕ}
    (hprevious : ∀ p, previous = some p → p.timestamp.aware = true) (hr : r.timestamp.aware = true) :
    orderFindings options (previous.map MarketRecord.timestamp) r.timestamp index = .ok [] ↔
      ∀ p, previous = some p → p.timestamp.instant < r.timestamp.instant := by
  cases previous with
  | none => simp [orderFindings]
  | some p =>
    simp only [orderFindings, Option.map_some, sub?_of_aware hr (hprevious p rfl), hstep, Option.some.injEq, forall_eq']
    split_ifs with hneg hzero
    · simp only [Except.ok.injEq, reduceCtorEq, false_iff]
      omega
    · simp only [Except.ok.injEq, reduceCtorEq, false_iff]
      omega
    · simp only [true_iff]
      omega

/-- **A record without findings** fits and has valid prices. -/
theorem clean_iff (hstep : options.expectedStep = none) {r : MarketRecord} {index : ℕ}
    (hprevious : ∀ p, previous = some p → p.timestamp.aware = true) :
    (classifyRecord r index = .ok [] ∧ coherenceFindings first r index = [] ∧
      orderFindings options (previous.map MarketRecord.timestamp) r.timestamp index = .ok []) ↔
      Fits first previous r ∧ PricesValid r := by
  rw [classifyRecord_eq_nil, coherenceFindings_eq_nil]
  constructor
  · rintro ⟨⟨haware, hcrossed, hprices⟩, ⟨⟨hinstrument, hexchange, hsymbol⟩, hkind, htimeframe⟩, horder⟩
    have hlater := (orderFindings_eq_nil hstep hprevious haware).mp horder
    exact ⟨⟨hkind, haware, hinstrument, hexchange, hsymbol, fun h => htimeframe h (hkind.trans h), hlater, hcrossed⟩,
      hprices⟩
  · rintro ⟨h, hprices⟩
    exact ⟨⟨h.aware, h.uncrossed, hprices⟩, ⟨⟨h.instrument, h.exchange, h.symbol⟩, h.kind, fun h' _ => h.timeframe h'⟩,
      (orderFindings_eq_nil hstep hprevious h.aware).mpr h.later⟩

/-- A finding about coherence or order is about the record, which is not valid then. -/
theorem index_of_mem_coherence {r : MarketRecord} {index : ℕ} {f : DataQualityFinding}
    (h : f ∈ coherenceFindings first r index) : f.index = index ∧ f.classification = .rejected := by
  simp only [coherenceFindings, List.mem_append] at h
  rcases h with (h | h) | h
  · exact index_of_mem_flag h
  · exact index_of_mem_flag h
  · exact index_of_mem_flag h

theorem index_of_mem_order (hstep : options.expectedStep = none) {p : Option DateTime} {ts : DateTime} {index : ℕ}
    {found : List DataQualityFinding} (h : orderFindings options p ts index = .ok found) :
    ∀ f ∈ found, f.index = index ∧ (f.classification = .rejected ∨ f.classification = .quarantined) := by
  unfold orderFindings at h
  cases p with
  | none =>
    cases h
    simp
  | some p =>
    dsimp only at h
    cases hsub : ts.sub? p with
    | none =>
      rw [hsub] at h
      cases h
    | some d =>
      rw [hsub, hstep] at h
      dsimp only at h
      split_ifs at h <;> cases h <;> simp

/-- A record is valid when it has no finding. -/
theorem classOf_eq_valid {index : ℕ} {own findings : List DataQualityFinding} :
    classOf index own findings = .valid ↔ own = [] ∧ ∀ f ∈ findings, f.index = index →
      f.classification ≠ .rejected ∧ f.classification ≠ .quarantined := by
  unfold classOf
  split_ifs with hrejected hquarantined
  · simp only [false_iff, not_and]
    rintro rfl hall
    simp only [ne_eq, not_true_eq_false, List.any_eq_true, decide_eq_true_eq, false_or] at hrejected
    obtain ⟨f, hf, hindex, hclass⟩ := hrejected
    exact (hall f hf hindex).1 hclass
  · simp only [false_iff, not_and]
    intro _ hall
    obtain ⟨f, hf, hboth⟩ := List.any_eq_true.mp hquarantined
    obtain ⟨hindex, hclass⟩ := of_decide_eq_true hboth
    exact (hall f hf hindex).2 hclass
  · simp only [true_iff]
    rw [not_or, not_not] at hrejected
    refine ⟨hrejected.1, fun f hf hindex => ⟨fun hclass => hrejected.2 ?_, fun hclass => hquarantined ?_⟩⟩
    · exact List.any_eq_true.mpr ⟨f, hf, decide_eq_true ⟨hindex, hclass⟩⟩
    · exact List.any_eq_true.mpr ⟨f, hf, decide_eq_true ⟨hindex, hclass⟩⟩

/-- The classes only get more. -/
theorem classes_subset : ∀ {p : Option DateTime} {index : ℕ} {rs : List MarketRecord} {fs : List DataQualityFinding}
    {cs : List QualityClass} {result : List DataQualityFinding × List QualityClass},
    classifyRecords options first p index rs fs cs = .ok result → cs ⊆ result.2
  | _, _, [], fs, cs, result, h => by
    cases h
    exact List.Subset.refl _
  | p, index, r :: rs, fs, cs, result, h => by
    simp only [classifyRecords, bind_eq_ok] at h
    obtain ⟨own, -, order, -, future, -, hrest⟩ := h
    exact List.Subset.trans (List.subset_append_left _ _) (classes_subset hrest)

/-- A record is classified as valid when it fits and has valid prices. -/
theorem class_valid_iff (hstep : options.expectedStep = none) {r : MarketRecord} {index : ℕ}
    {own order fs : List DataQualityFinding} (hprevious : ∀ p, previous = some p → p.timestamp.aware = true)
    (hfs : ∀ f ∈ fs, f.index < index) (hown : classifyRecord r index = .ok own)
    (horder : orderFindings options (previous.map MarketRecord.timestamp) r.timestamp index = .ok order) :
    classOf index own (fs ++ (own ++ coherenceFindings first r index ++ order ++ [])) = .valid ↔
      Fits first previous r ∧ PricesValid r := by
  rw [← clean_iff hstep hprevious, classOf_eq_valid, hown, horder]
  constructor
  · rintro ⟨rfl, hall⟩
    refine ⟨rfl, List.eq_nil_iff_forall_not_mem.mpr fun f hf => ?_, congrArg _ (List.eq_nil_iff_forall_not_mem.mpr
      fun f hf => ?_)⟩
    · obtain ⟨hindex, hclass⟩ := index_of_mem_coherence hf
      exact (hall f (by simp [hf]) hindex).1 hclass
    · obtain ⟨hindex, hclass⟩ := index_of_mem_order hstep horder f hf
      obtain ⟨hrejected, hquarantined⟩ := hall f (by simp [hf]) hindex
      exact hclass.elim hrejected hquarantined
  · rintro ⟨hown', hcoherence, horder'⟩
    cases hown'
    cases horder'
    refine ⟨rfl, fun f hf hindex => ?_⟩
    rw [hcoherence, List.append_nil, List.append_nil, List.append_nil, List.append_nil] at hf
    exact absurd hindex (hfs f hf).ne

theorem lt_of_mem_findings (hstep : options.expectedStep = none) {r : MarketRecord} {index : ℕ}
    {own order fs : List DataQualityFinding} (hfs : ∀ f ∈ fs, f.index < index) (hown : own = [])
    (horder : orderFindings options (previous.map MarketRecord.timestamp) r.timestamp index = .ok order) :
    ∀ f ∈ fs ++ (own ++ coherenceFindings first r index ++ order ++ []), f.index < index + 1 := by
  intro f hf
  rw [hown, List.nil_append, List.append_nil, List.mem_append, List.mem_append] at hf
  rcases hf with hf | hf | hf
  · exact (hfs f hf).trans (Nat.lt_succ_self _)
  · rw [(index_of_mem_coherence hf).1]
    exact Nat.lt_succ_self _
  · rw [(index_of_mem_order hstep horder f hf).1]
    exact Nat.lt_succ_self _

/-- **The loop classifies all records as valid** exactly when they fit and have valid prices. -/
theorem classifyRecords_valid_iff (hstep : options.expectedStep = none) (href : options.referenceTime = none) :
    ∀ {rs : List MarketRecord} {previous : Option MarketRecord} {index : ℕ} {fs : List DataQualityFinding}
      {cs : List QualityClass}, (∀ p, previous = some p → p.timestamp.aware = true) → (∀ f ∈ fs, f.index < index) →
      ((∃ result, classifyRecords options first (previous.map MarketRecord.timestamp) index rs fs cs = .ok result ∧
          ∀ c ∈ result.2, c = .valid) ↔
        (∀ c ∈ cs, c = .valid) ∧ FitsFrom first previous rs ∧ ∀ r ∈ rs, PricesValid r)
  | [], previous, index, fs, cs, _, _ => by simp [classifyRecords, FitsFrom]
  | r :: rs, previous, index, fs, cs, hprevious, hfs => by
    have hfuture : futureFindings options r.timestamp index = .ok [] := by rw [futureFindings, href]
    simp only [classifyRecords, bind_eq_ok, hfuture, Except.ok.injEq, exists_eq_left', mapError_eq_ok]
    constructor
    · rintro ⟨result, ⟨own, hown, order, horder, hrest⟩, hvalid⟩
      have hclass := hvalid _ (classes_subset hrest (List.mem_append_right _ (List.mem_singleton_self _)))
      obtain ⟨hfits, hprices⟩ := (class_valid_iff hstep hprevious hfs hown horder).mp hclass
      obtain ⟨hcs, hfrom, hall⟩ := (@classifyRecords_valid_iff hstep href _ (some r) _ _ _
        (fun p hp => by cases hp; exact hfits.aware)
        (lt_of_mem_findings hstep hfs (classOf_eq_valid.mp hclass).1 horder)).mp ⟨result, hrest, hvalid⟩
      exact ⟨fun c hc => hcs c (List.mem_append_left _ hc), ⟨hfits, hfrom⟩, List.forall_mem_cons.mpr ⟨hprices, hall⟩⟩
    · rintro ⟨hcs, ⟨hfits, hfrom⟩, hall⟩
      obtain ⟨hprices, hall⟩ := List.forall_mem_cons.mp hall
      obtain ⟨hown, -, horder⟩ := (@clean_iff _ _ _ hstep _ index hprevious).mpr ⟨hfits, hprices⟩
      have hclass := (class_valid_iff hstep hprevious hfs hown horder).mpr ⟨hfits, hprices⟩
      obtain ⟨result, hrest, hvalid⟩ := (@classifyRecords_valid_iff hstep href _ (some r) (index + 1) _
        (cs ++ [classOf index [] (fs ++ ([] ++ coherenceFindings first r index ++ [] ++ []))])
        (fun p hp => by cases hp; exact hfits.aware) (lt_of_mem_findings hstep hfs rfl horder)).mpr
        ⟨fun c hc => (List.mem_append.mp hc).elim (hcs c) fun hc => (List.mem_singleton.mp hc).trans hclass, hfrom, hall⟩
      exact ⟨result, ⟨[], hown, [], horder, hrest⟩, hvalid⟩

theorem length_classes : ∀ {p : Option DateTime} {index : ℕ} {rs : List MarketRecord} {fs : List DataQualityFinding}
    {cs : List QualityClass} {result : List DataQualityFinding × List QualityClass},
    classifyRecords options first p index rs fs cs = .ok result → result.2.length = cs.length + rs.length
  | _, _, [], fs, cs, result, h => by
    cases h
    rfl
  | p, index, r :: rs, fs, cs, result, h => by
    simp only [classifyRecords, bind_eq_ok] at h
    obtain ⟨own, -, order, -, future, -, hrest⟩ := h
    rw [length_classes hrest, List.length_append, List.length_singleton, List.length_cons]
    omega

end Findings

/-! ### The report -/

theorem count_classes (classes : List QualityClass) :
    classes.count .valid + classes.count .quarantined + classes.count .rejected = classes.length := by
  induction classes with
  | nil => rfl
  | cons c l ih =>
    rw [List.length_cons, ← ih]
    cases c <;> simp <;> omega

theorem ready_makeReport {findings : List DataQualityFinding} {classes : List QualityClass} :
    (∃ report, makeReport classes.length findings classes = .ok report ∧ report.isSimulationReady = true) ↔
      ∀ c ∈ classes, c = .valid := by
  rw [makeReport, dif_pos (count_classes classes)]
  simp only [Except.ok.injEq, exists_eq_left', DataQualityReport.isSimulationReady, Bool.and_eq_true,
    decide_eq_true_eq, List.count_eq_zero]
  constructor
  · rintro ⟨hrejected, hquarantined⟩ c hc
    cases c with
    | valid => rfl
    | quarantined => exact absurd hc hquarantined
    | rejected => exact absurd hc hrejected
  · intro h
    exact ⟨(fun hc => by cases h _ hc), (fun hc => by cases h _ hc)⟩

/-- The gate reports the records as ready, without a reference time and an expected step. -/
def ReportsReady (records : List MarketRecord) : Prop :=
  ∃ report, validateDataset records {} = .ok report ∧ report.isSimulationReady = true

theorem reportsReady_cons {first : MarketRecord} {rest : List MarketRecord} : ReportsReady (first :: rest) ↔
    FitsFrom first none (first :: rest) ∧ ∀ r ∈ first :: rest, PricesValid r := by
  have hvalidate : validateDataset (first :: rest) {} = classifyRecords {} first none 0 (first :: rest) [] [] >>=
      fun result => makeReport (first :: rest).length result.1 result.2 := rfl
  have hlength : ∀ {result}, classifyRecords {} first none 0 (first :: rest) [] [] = .ok result →
      (first :: rest).length = result.2.length := fun h => by
    rw [length_classes h, List.length_nil, zero_add]
  have hready : ReportsReady (first :: rest) ↔
      ∃ result, classifyRecords {} first none 0 (first :: rest) [] [] = .ok result ∧ ∀ c ∈ result.2, c = .valid := by
    rw [ReportsReady, hvalidate]
    simp only [bind_eq_ok]
    constructor
    · rintro ⟨report, ⟨result, hresult, hreport⟩, h⟩
      rw [hlength hresult] at hreport
      exact ⟨result, hresult, ready_makeReport.mp ⟨report, hreport, h⟩⟩
    · rintro ⟨result, hresult, h⟩
      obtain ⟨report, hreport, hreports⟩ := ready_makeReport.mpr h
      rw [← hlength hresult] at hreport
      exact ⟨report, ⟨result, hresult, hreport⟩, hreports⟩
  have hloop := @classifyRecords_valid_iff {} first rfl rfl (first :: rest) none 0 [] [] (by simp) (by simp)
  rw [hready]
  refine hloop.trans ?_
  simp

theorem reportsReady_nil : ReportsReady [] := ⟨_, rfl, rfl⟩

/-- Three ticks, the last at the given price. -/
def closingAt (price : ℕ) : List MarketRecord :=
  [sampleTick 0 (.finite (.ofNat 100)), sampleTick 1 (.finite (.ofNat 101)), sampleTick 2 (.finite (.ofNat price))]

end AlphaAlgo.Backtest
