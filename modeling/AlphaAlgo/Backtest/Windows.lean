import AlphaAlgo.Backtest.Records

/-!
# Windows — the schedule of a walk-forward test

`buildWindows` slices an input into windows of training, validation and test records, each `stepRecords` after the one
before it, as long as a whole window fits.

* `exists_segment`, `exists_buildSlice`: a part of an accepted input is accepted.
* `exists_buildWindow`: a window that fits into the records is built (`IsWindow`).
* `buildWindows_ok`, `buildWindows_short`: the schedule, and the input that is too short.
* `Schedule`, `schedule_of_ok`: contiguous windows in bounds, disjoint ascending tests, no further window.
-/

namespace AlphaAlgo.Backtest

open Loop

/-! ### Configurations, slices and windows -/

/-- What the package raises: its own error, that of an input, or that of an index out of range. -/
inductive WalkForwardError where
  | walkForward (text : String)
  | input (e : InputError)
  | indexError
deriving DecidableEq

def checkConfig (trainingRecords validationRecords testRecords stepRecords : ℕ) : Except WalkForwardError Unit := do
  raiseIf (trainingRecords < 1) (.walkForward "training_records must be at least 1")
  raiseIf (validationRecords < 1) (.walkForward "validation_records must be at least 1")
  raiseIf (testRecords < 1) (.walkForward "test_records must be at least 1")
  raiseIf (stepRecords < 1) (.walkForward "step_records must be at least 1")
  raiseIf (stepRecords < testRecords) (.walkForward
    "step_records must be >= test_records so out-of-sample windows never overlap across periods")

/-- The sizes of a window, in records. -/
structure WalkForwardConfig where
  trainingRecords : ℕ
  validationRecords : ℕ
  testRecords : ℕ
  stepRecords : ℕ
  accepted : checkConfig trainingRecords validationRecords testRecords stepRecords = .ok ()

theorem checkConfig_eq_ok {training validation test step : ℕ} {u : Unit} :
    checkConfig training validation test step = .ok u ↔
      1 ≤ training ∧ 1 ≤ validation ∧ 1 ≤ test ∧ 1 ≤ step ∧ test ≤ step := by
  simp only [checkConfig, bind_eq_ok, raiseIf_eq_ok, exists_const, not_lt]

namespace WalkForwardConfig

variable (config : WalkForwardConfig)

/-- The records of one window. -/
def span : ℕ := config.trainingRecords + config.validationRecords + config.testRecords

theorem sizes : 1 ≤ config.trainingRecords ∧ 1 ≤ config.validationRecords ∧ 1 ≤ config.testRecords ∧
    1 ≤ config.stepRecords ∧ config.testRecords ≤ config.stepRecords := checkConfig_eq_ok.mp config.accepted

/-- The first index of a window, and the ends of its three slices. -/
def start (index : ℕ) : ℕ := index * config.stepRecords

def trainEnd (index : ℕ) : ℕ := config.start index + config.trainingRecords

def validationEnd (index : ℕ) : ℕ := config.trainEnd index + config.validationRecords

def testEnd (index : ℕ) : ℕ := config.validationEnd index + config.testRecords

theorem testEnd_eq (index : ℕ) : config.testEnd index = config.start index + config.span := by
  simp only [testEnd, validationEnd, trainEnd, span]
  omega

theorem ends_lt (index : ℕ) : config.start index < config.trainEnd index ∧
    config.trainEnd index < config.validationEnd index ∧ config.validationEnd index < config.testEnd index := by
  obtain ⟨htraining, hvalidation, htest, -, -⟩ := config.sizes
  simp only [testEnd, validationEnd, trainEnd]
  omega

end WalkForwardConfig

def checkSlice (startIndex endIndex : ℕ) (startTimestamp endTimestamp : DateTime) : Except WalkForwardError Unit := do
  raiseIf (endIndex ≤ startIndex)
    (.walkForward "end_index must be strictly greater than start_index (slices are never empty)")
  raiseIf (startTimestamp.aware = false) (.walkForward "start_timestamp must be a timezone-aware datetime")
  raiseIf (endTimestamp.aware = false) (.walkForward "end_timestamp must be a timezone-aware datetime")
  raiseIf (endTimestamp.instant < startTimestamp.instant)
    (.walkForward "start_timestamp must not be after end_timestamp")

/-- A segment of the records, `[startIndex, endIndex)`. -/
structure WindowSlice where
  startIndex : ℕ
  endIndex : ℕ
  startTimestamp : DateTime
  endTimestamp : DateTime
  accepted : checkSlice startIndex endIndex startTimestamp endTimestamp = .ok ()

namespace BacktestInput

variable (inputs : BacktestInput)

def recordCount : ℕ := inputs.records.length

def firstTimestamp : DateTime := (inputs.records.head inputs.records_ne_nil).timestamp

def lastTimestamp : DateTime := (inputs.records.getLast inputs.records_ne_nil).timestamp

end BacktestInput

/-- What the window checks of a segment's input. -/
def checkSegment (name : String) (value : BacktestInput) (slice : WindowSlice) : Except WalkForwardError Unit := do
  raiseIf (value.recordCount ≠ slice.endIndex - slice.startIndex)
    (.walkForward (name ++ " record count does not match its slice range"))
  raiseIf (value.firstTimestamp.instant ≠ slice.startTimestamp.instant)
    (.walkForward (name ++ " first timestamp does not match its slice start"))
  raiseIf (value.lastTimestamp.instant ≠ slice.endTimestamp.instant)
    (.walkForward (name ++ " last timestamp does not match its slice end"))

def checkWindow (train validation test : WindowSlice) (trainInput validationInput testInput : BacktestInput) :
    Except WalkForwardError Unit := do
  raiseIf (train.endIndex ≠ validation.startIndex)
    (.walkForward "train and validation must be contiguous (no intra-window gaps)")
  raiseIf (validation.endIndex ≠ test.startIndex)
    (.walkForward "validation and test must be contiguous (no intra-window gaps)")
  raiseIf (¬train.startIndex < test.endIndex)
    (.walkForward "window slices must be strictly ordered (train before validation before test)")
  raiseIf (¬(train.startTimestamp.instant < validation.endTimestamp.instant ∧
      validation.endTimestamp.instant < test.endTimestamp.instant))
    (.walkForward "window boundary timestamps must be strictly increasing")
  checkSegment "train_input" trainInput train
  checkSegment "validation_input" validationInput validation
  checkSegment "test_input" testInput test

/-- One period of the schedule. -/
structure WalkForwardWindow where
  index : ℕ
  train : WindowSlice
  validation : WindowSlice
  test : WindowSlice
  trainInput : BacktestInput
  validationInput : BacktestInput
  testInput : BacktestInput
  accepted : checkWindow train validation test trainInput validationInput testInput = .ok ()

/-! ### Building the schedule -/

/-- `records[begin:end]`. -/
def slice {α : Type} (l : List α) (first last : ℕ) : List α := (l.take last).drop first

/-- The input of a part of the records. -/
def BacktestInput.segment (inputs : BacktestInput) (first last : ℕ) : Except WalkForwardError BacktestInput :=
  accept ((checkInput inputs.datasetId inputs.source (slice inputs.records first last)).mapError .input) fun h =>
    ⟨inputs.datasetId, inputs.source, slice inputs.records first last, mapError_eq_ok.mp h⟩

/-- `_slice`. -/
def buildSlice (inputs : BacktestInput) (first last : ℕ) : Except WalkForwardError WindowSlice :=
  match inputs.records[first]?, inputs.records[last - 1]? with
  | some r, some r' =>
    accept (checkSlice first last r.timestamp r'.timestamp) fun h => ⟨first, last, r.timestamp, r'.timestamp, h⟩
  | _, _ => .error .indexError

/-- One round of the loop. -/
def buildWindow (inputs : BacktestInput) (config : WalkForwardConfig) (index : ℕ) :
    Except WalkForwardError WalkForwardWindow := do
  let train ← buildSlice inputs (config.start index) (config.trainEnd index)
  let validation ← buildSlice inputs (config.trainEnd index) (config.validationEnd index)
  let test ← buildSlice inputs (config.validationEnd index) (config.testEnd index)
  let trainInput ← inputs.segment (config.start index) (config.trainEnd index)
  let validationInput ← inputs.segment (config.trainEnd index) (config.validationEnd index)
  let testInput ← inputs.segment (config.validationEnd index) (config.testEnd index)
  accept (checkWindow train validation test trainInput validationInput testInput) fun h =>
    ⟨index, train, validation, test, trainInput, validationInput, testInput, h⟩

def buildWindows (inputs : BacktestInput) (config : WalkForwardConfig) :
    Except WalkForwardError (List WalkForwardWindow) := do
  raiseIf (inputs.recordCount < config.span)
    (.walkForward ("cannot form a single full window: " ++ toString inputs.recordCount ++ " records available, " ++
      toString config.span ++ " required"))
  let periodCount := (inputs.recordCount - config.span) / config.stepRecords + 1
  (List.range periodCount).mapM (buildWindow inputs config)

/-! ### A part of an accepted input -/

section Parts

variable {first first' : MarketRecord} {previous q : Option MarketRecord} {r : MarketRecord}

/-- A record that fits the first one fits any other that does. -/
theorem Fits.rebase (hfirst : Fits first previous first') (h : Fits first q r) : Fits first' q r where
  kind := h.kind.trans hfirst.kind.symm
  aware := h.aware
  instrument := h.instrument.trans hfirst.instrument.symm
  exchange := h.exchange.trans hfirst.exchange.symm
  symbol := h.symbol.trans hfirst.symbol.symm
  timeframe := by
    intro hcandle
    have hkind : first.isCandle = true := hfirst.kind ▸ hcandle
    rw [h.timeframe hkind, hfirst.timeframe hkind]
  later := h.later
  uncrossed := h.uncrossed

theorem FitsFrom.rebase (hfirst : Fits first previous first') : ∀ {q : Option MarketRecord} {rs : List MarketRecord},
    FitsFrom first q rs → FitsFrom first' q rs
  | _, [], _ => trivial
  | _, _ :: _, h => ⟨hfirst.rebase h.1, FitsFrom.rebase hfirst h.2⟩

/-- The first record of a sequence has none before it. -/
theorem FitsFrom.forget {rs : List MarketRecord} (h : FitsFrom first previous rs) : FitsFrom first none rs := by
  cases rs with
  | nil => trivial
  | cons r rs => exact ⟨{ h.1 with later := by simp }, h.2⟩

theorem FitsFrom.drop : ∀ {previous : Option MarketRecord} {rs : List MarketRecord} (n : ℕ),
    FitsFrom first previous rs → ∃ q, FitsFrom first q (rs.drop n)
  | previous, _, 0, h => ⟨previous, h⟩
  | previous, [], _ + 1, _ => ⟨previous, trivial⟩
  | _, _ :: _, n + 1, h => FitsFrom.drop n h.2

end Parts

section Segments

variable (inputs : BacktestInput) {a b : ℕ}

theorem getElem?_slice {α : Type} {l : List α} (i : ℕ) : (slice l a b)[i]? = if a + i < b then l[a + i]? else none := by
  rw [slice, List.getElem?_drop, List.getElem?_take]

theorem length_slice {α : Type} {l : List α} (hb : b ≤ l.length) : (slice l a b).length = b - a := by
  rw [slice, List.length_drop, List.length_take, Nat.min_eq_left hb]

/-- **A part of an accepted input** that is not empty is accepted. -/
theorem exists_segment (hab : a < b) (hb : b ≤ inputs.recordCount) :
    ∃ s, inputs.segment a b = .ok s ∧ s.records = slice inputs.records a b := by
  obtain ⟨hid, hsource, first, rest, -, hfits⟩ := checkInput_eq_ok.mp inputs.accepted
  obtain ⟨q, hslice⟩ : ∃ q, FitsFrom first q (slice inputs.records a b) := (hfits.take b).drop a
  have hlength : (slice inputs.records a b).length = b - a := length_slice hb
  have hok : checkInput inputs.datasetId inputs.source (slice inputs.records a b) = .ok () := by
    cases hrecords : slice inputs.records a b with
    | nil =>
      rw [hrecords, List.length_nil] at hlength
      omega
    | cons r rs =>
      rw [hrecords] at hslice
      have hall : FitsFrom r none (r :: rs) := (hslice.rebase hslice.1).forget
      exact checkInput_eq_ok.mpr ⟨hid, hsource, r, rs, rfl, hall⟩
  exact ⟨_, accept_of_ok _ (mapError_eq_ok.mpr hok), rfl⟩

/-- A slice of the records, with the timestamps of its first and its last one. -/
structure IsSlice (a b : ℕ) (s : WindowSlice) : Prop where
  startIndex : s.startIndex = a
  endIndex : s.endIndex = b
  first : inputs.records[a]?.map MarketRecord.timestamp = some s.startTimestamp
  last : inputs.records[b - 1]?.map MarketRecord.timestamp = some s.endTimestamp

theorem aware_of_mem {r : MarketRecord} (hr : r ∈ inputs.records) : r.timestamp.aware = true := by
  obtain ⟨first, rest, -, hfits⟩ := inputs.exists_first
  obtain ⟨p, hp⟩ := hfits.fits r hr
  exact hp.aware

/-- Timestamps ascend with the indices. -/
theorem instant_lt {i j : ℕ} {r r' : MarketRecord} (hi : inputs.records[i]? = some r)
    (hj : inputs.records[j]? = some r') (hij : i < j) : r.timestamp.instant < r'.timestamp.instant := by
  obtain ⟨hi', rfl⟩ := List.getElem?_eq_some_iff.mp hi
  obtain ⟨hj', rfl⟩ := List.getElem?_eq_some_iff.mp hj
  exact List.pairwise_iff_getElem.mp inputs.ascending i j hi' hj' hij

theorem exists_buildSlice (hab : a < b) (hb : b ≤ inputs.recordCount) :
    ∃ s, buildSlice inputs a b = .ok s ∧ IsSlice inputs a b s := by
  have hb' : b ≤ inputs.records.length := hb
  obtain ⟨r, hr⟩ : ∃ r, inputs.records[a]? = some r := ⟨_, List.getElem?_eq_getElem (by omega)⟩
  obtain ⟨r', hr'⟩ : ∃ r', inputs.records[b - 1]? = some r' := ⟨_, List.getElem?_eq_getElem (by omega)⟩
  have hle : r.timestamp.instant ≤ r'.timestamp.instant := by
    by_cases hone : a = b - 1
    · subst hone
      rw [Option.some.inj (hr.symm.trans hr')]
    · exact (instant_lt inputs hr hr' (by omega)).le
  have hok : checkSlice a b r.timestamp r'.timestamp = .ok () := by
    simp only [checkSlice, bind_eq_ok, raiseIf_eq_ok, exists_const, not_le, not_lt, Bool.not_eq_false]
    exact ⟨hab, aware_of_mem inputs (List.mem_of_getElem? hr), aware_of_mem inputs (List.mem_of_getElem? hr'), hle⟩
  refine ⟨⟨a, b, r.timestamp, r'.timestamp, hok⟩, ?_, rfl, rfl, by rw [hr]; rfl, by rw [hr']; rfl⟩
  rw [buildSlice, hr, hr']
  exact accept_of_ok _ hok

theorem firstTimestamp_eq : inputs.records[0]?.map MarketRecord.timestamp = some inputs.firstTimestamp := by
  rw [← List.head?_eq_getElem?, List.head?_eq_some_head inputs.records_ne_nil]
  rfl

theorem lastTimestamp_eq :
    inputs.records[inputs.recordCount - 1]?.map MarketRecord.timestamp = some inputs.lastTimestamp := by
  rw [BacktestInput.recordCount, ← List.getLast?_eq_getElem?, List.getLast?_eq_some_getLast inputs.records_ne_nil]
  rfl

/-- The input of a slice passes the checks of the window. -/
theorem checkSegment_ok (name : String) {part : BacktestInput} {s : WindowSlice} (hab : a < b)
    (hb : b ≤ inputs.recordCount) (hpart : part.records = slice inputs.records a b) (hs : IsSlice inputs a b s) :
    checkSegment name part s = .ok () := by
  have hcount : part.recordCount = b - a := by
    rw [BacktestInput.recordCount, hpart, length_slice hb]
  have hfirst : some part.firstTimestamp = some s.startTimestamp := by
    rw [← firstTimestamp_eq, ← hs.first, hpart, getElem?_slice, if_pos (by omega), Nat.add_zero]
  have hlast : some part.lastTimestamp = some s.endTimestamp := by
    rw [← lastTimestamp_eq, ← hs.last, hcount, hpart, getElem?_slice, if_pos (by omega),
      show a + (b - a - 1) = b - 1 by omega]
  simp only [checkSegment, bind_eq_ok, raiseIf_eq_ok, exists_const, not_not]
  refine ⟨?_, congrArg DateTime.instant (Option.some.inj hfirst), congrArg DateTime.instant (Option.some.inj hlast)⟩
  rw [hcount, hs.startIndex, hs.endIndex]

/-- The window of an index: its slices and their inputs. -/
structure IsWindow (config : WalkForwardConfig) (i : ℕ) (w : WalkForwardWindow) : Prop where
  index : w.index = i
  train : IsSlice inputs (config.start i) (config.trainEnd i) w.train
  validation : IsSlice inputs (config.trainEnd i) (config.validationEnd i) w.validation
  test : IsSlice inputs (config.validationEnd i) (config.testEnd i) w.test
  trainInput : w.trainInput.records = slice inputs.records (config.start i) (config.trainEnd i)
  validationInput : w.validationInput.records = slice inputs.records (config.trainEnd i) (config.validationEnd i)
  testInput : w.testInput.records = slice inputs.records (config.validationEnd i) (config.testEnd i)

theorem IsSlice.instant_lt {c d : ℕ} {s s' : WindowSlice} (hs : IsSlice inputs a b s) (hs' : IsSlice inputs c d s')
    (h : b - 1 < d - 1) : s.endTimestamp.instant < s'.endTimestamp.instant := by
  obtain ⟨r, hr, hend⟩ := Option.map_eq_some_iff.mp hs.last
  obtain ⟨r', hr', hend'⟩ := Option.map_eq_some_iff.mp hs'.last
  rw [← hend, ← hend']
  exact Backtest.instant_lt inputs hr hr' h

/-- **A window that fits** into the records is built. -/
theorem exists_buildWindow {config : WalkForwardConfig} {index : ℕ} (h : config.testEnd index ≤ inputs.recordCount) :
    ∃ w, buildWindow inputs config index = .ok w ∧ IsWindow inputs config index w := by
  obtain ⟨htrain, hvalidation, htest⟩ := config.ends_lt index
  obtain ⟨s₁, hs₁, is₁⟩ := exists_buildSlice inputs htrain (by omega)
  obtain ⟨s₂, hs₂, is₂⟩ := exists_buildSlice inputs hvalidation (by omega)
  obtain ⟨s₃, hs₃, is₃⟩ := exists_buildSlice inputs htest h
  obtain ⟨i₁, hi₁, hrecords₁⟩ := exists_segment inputs htrain (by omega)
  obtain ⟨i₂, hi₂, hrecords₂⟩ := exists_segment inputs hvalidation (by omega)
  obtain ⟨i₃, hi₃, hrecords₃⟩ := exists_segment inputs htest h
  have hstart : s₁.startTimestamp.instant < s₂.endTimestamp.instant := by
    obtain ⟨r, hr, hbegin⟩ := Option.map_eq_some_iff.mp is₁.first
    obtain ⟨r', hr', hend⟩ := Option.map_eq_some_iff.mp is₂.last
    rw [← hbegin, ← hend]
    exact instant_lt inputs hr hr' (by omega)
  have hend : s₂.endTimestamp.instant < s₃.endTimestamp.instant := is₂.instant_lt inputs is₃ (by omega)
  have hok : checkWindow s₁ s₂ s₃ i₁ i₂ i₃ = .ok () := by
    simp only [checkWindow, bind_eq_ok, raiseIf_eq_ok, exists_const, not_not]
    refine ⟨?_, ?_, ?_, ⟨hstart, hend⟩, (), ?_, (), ?_, ?_⟩
    · rw [is₁.endIndex, is₂.startIndex]
    · rw [is₂.endIndex, is₃.startIndex]
    · rw [is₁.startIndex, is₃.endIndex]
      omega
    · exact checkSegment_ok inputs _ htrain (by omega) hrecords₁ is₁
    · exact checkSegment_ok inputs _ hvalidation (by omega) hrecords₂ is₂
    · exact checkSegment_ok inputs _ htest h hrecords₃ is₃
  refine ⟨⟨index, s₁, s₂, s₃, i₁, i₂, i₃, hok⟩, ?_, rfl, is₁, is₂, is₃, hrecords₁, hrecords₂, hrecords₃⟩
  simp only [buildWindow, hs₁, hs₂, hs₃, hi₁, hi₂, hi₃]
  exact accept_of_ok _ hok

end Segments

/-! ### The schedule -/

section Law

variable {inputs : BacktestInput} {config : WalkForwardConfig}

theorem buildWindows_short (h : inputs.recordCount < config.span) : buildWindows inputs config =
    .error (.walkForward ("cannot form a single full window: " ++ toString inputs.recordCount ++
      " records available, " ++ toString config.span ++ " required")) := by
  rw [buildWindows, raiseIf, if_pos h]
  rfl

/-- The windows that fit are those before the last index that does. -/
theorem testEnd_le_iff (h : config.span ≤ inputs.recordCount) {index : ℕ} : config.testEnd index ≤ inputs.recordCount ↔
    index < (inputs.recordCount - config.span) / config.stepRecords + 1 := by
  have hstep : 0 < config.stepRecords := config.sizes.2.2.2.1
  rw [config.testEnd_eq, WalkForwardConfig.start, Nat.lt_succ_iff, Nat.le_div_iff_mul_le hstep]
  omega

theorem buildWindows_ok (h : config.span ≤ inputs.recordCount) : ∃ ws, buildWindows inputs config = .ok ws ∧
    ws.length = (inputs.recordCount - config.span) / config.stepRecords + 1 ∧
      ∀ (i : ℕ) w, ws[i]? = some w → IsWindow inputs config i w := by
  have hbuild : ∀ i ∈ List.range ((inputs.recordCount - config.span) / config.stepRecords + 1),
      ∃ w, buildWindow inputs config i = .ok w := by
    intro i hi
    obtain ⟨w, hw, -⟩ := exists_buildWindow inputs ((testEnd_le_iff h).mpr (List.mem_range.mp hi))
    exact ⟨w, hw⟩
  obtain ⟨ws, hws⟩ := exists_mapM hbuild
  obtain ⟨hlength, hall⟩ := mapM_eq_ok hws
  rw [List.length_range] at hlength
  refine ⟨ws, ?_, hlength, fun i w hi => ?_⟩
  · rw [buildWindows, raiseIf, if_neg (not_lt.mpr h)]
    exact hws
  · have hlt : i < ws.length := (List.getElem?_eq_some_iff.mp hi).1
    have hrange : i < (inputs.recordCount - config.span) / config.stepRecords + 1 := hlength ▸ hlt
    obtain ⟨w', hw', hwindow⟩ := exists_buildWindow inputs ((testEnd_le_iff h).mpr hrange)
    have heq : buildWindow inputs config i = .ok w := hall i i w (List.getElem?_range hrange) hi
    have hsame : w = w' := Except.ok.inj (heq.symm.trans hw')
    rw [hsame]
    exact hwindow

/-- What a schedule is: contiguous windows in bounds, disjoint and ascending tests, and no window more. -/
structure Schedule (inputs : BacktestInput) (config : WalkForwardConfig) (ws : List WalkForwardWindow) : Prop where
  windows : ∀ (i : ℕ) w, ws[i]? = some w → IsWindow inputs config i w
  contiguous : ∀ w ∈ ws, w.train.endIndex = w.validation.startIndex ∧ w.validation.endIndex = w.test.startIndex
  inBounds : ∀ w ∈ ws, w.train.startIndex < w.train.endIndex ∧ w.validation.startIndex < w.validation.endIndex ∧
    w.test.startIndex < w.test.endIndex ∧ w.test.endIndex ≤ inputs.recordCount
  ascending : ws.Pairwise fun w w' => w.test.endIndex ≤ w'.test.startIndex
  nonempty : ws ≠ []
  maximal : inputs.recordCount < config.testEnd ws.length

/-- **The schedule** of an input with enough records. -/
theorem schedule_of_ok {ws : List WalkForwardWindow} (h : buildWindows inputs config = .ok ws) :
    config.span ≤ inputs.recordCount ∧ Schedule inputs config ws := by
  have hspan : config.span ≤ inputs.recordCount := by
    by_contra hshort
    rw [buildWindows_short (not_le.mp hshort)] at h
    cases h
  obtain ⟨ws', hws', hlength, hall⟩ := buildWindows_ok hspan
  cases hws'.symm.trans h
  have hend : ∀ i, i < ws.length → config.testEnd i ≤ inputs.recordCount := by
    intro i hi
    exact (testEnd_le_iff hspan).mpr (hlength ▸ hi)
  refine ⟨hspan, hall, ?_, ?_, ?_, ?_, ?_⟩
  · intro w hw
    obtain ⟨i, hi⟩ := List.mem_iff_getElem?.mp hw
    have hwindow := hall i w hi
    rw [hwindow.train.endIndex, hwindow.validation.startIndex, hwindow.validation.endIndex, hwindow.test.startIndex]
    exact ⟨rfl, rfl⟩
  · intro w hw
    obtain ⟨i, hi⟩ := List.mem_iff_getElem?.mp hw
    have hwindow := hall i w hi
    have hlt : i < ws.length := (List.getElem?_eq_some_iff.mp hi).1
    obtain ⟨h₁, h₂, h₃⟩ := config.ends_lt i
    rw [hwindow.train.startIndex, hwindow.train.endIndex, hwindow.validation.startIndex, hwindow.validation.endIndex,
      hwindow.test.startIndex, hwindow.test.endIndex]
    exact ⟨h₁, h₂, h₃, hend i hlt⟩
  · refine List.pairwise_iff_getElem.mpr fun i j hi hj hij => ?_
    rw [(hall i _ (List.getElem?_eq_getElem hi)).test.endIndex, (hall j _ (List.getElem?_eq_getElem hj)).test.startIndex]
    have hstep : config.testRecords ≤ config.stepRecords := config.sizes.2.2.2.2
    have hmul : (i + 1) * config.stepRecords ≤ j * config.stepRecords := Nat.mul_le_mul_right _ hij
    rw [Nat.succ_mul] at hmul
    simp only [WalkForwardConfig.testEnd, WalkForwardConfig.validationEnd, WalkForwardConfig.trainEnd,
      WalkForwardConfig.start]
    omega
  · intro hnil
    rw [hnil, List.length_nil] at hlength
    exact Nat.succ_ne_zero _ hlength.symm
  · by_contra hmore
    have hlt := (testEnd_le_iff hspan).mp (not_lt.mp hmore)
    exact lt_irrefl _ (hlength ▸ hlt)

end Law

end AlphaAlgo.Backtest
