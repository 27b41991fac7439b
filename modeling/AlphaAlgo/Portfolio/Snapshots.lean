import AlphaAlgo.Backtest.Records
import AlphaAlgo.Lib.Columns
import AlphaAlgo.Lib.FirstWins
import AlphaAlgo.Portfolio.Consistency

/-!
# Snapshots — the stored snapshots of portfolios

`PortfolioEngine.snapshot` computes a portfolio and inserts it; where the unique constraint on account, mode and instant
refuses the row, it answers with the stored one.  Any refused constraint is taken for that one.  The columns round to
four places; a session reads instants back as instants.

* `fromOrm_toOrm`: what is read back of a row is what was stored.
* `snapshots_agree`: whatever the calls compute, those for one account, mode and instant answer with one snapshot, which
  is the computation of the one that is not a duplicate.
* `listed`: the queries show what the calls answered.
-/

namespace AlphaAlgo.Portfolio

open FirstWins Loop Runs

/-! ### Contracts -/

inductive PortfolioStatus where
  | uninitialized
  | ready
  | degraded
  | error
  deriving DecidableEq

def PortfolioStatus.value : PortfolioStatus → String
  | uninitialized => "UNINITIALIZED"
  | ready => "READY"
  | degraded => "DEGRADED"
  | error => "ERROR"

/-- The status of a computation. -/
def Status.toPortfolio : Status → PortfolioStatus
  | .ready => .ready
  | .degraded => .degraded

def Completeness.value : Completeness → String
  | .complete => "COMPLETE"
  | .partially => "PARTIAL"

/-- `PortfolioStatus(text)`. -/
def PortfolioStatus.of? (text : String) : Except String PortfolioStatus :=
  match [uninitialized, ready, degraded, error].find? fun s => s.value = text with
  | some s => .ok s
  | none => .error ("'" ++ text ++ "' is not a valid PortfolioStatus")

/-- `PortfolioCompleteness(text)`. -/
def Completeness.of? (text : String) : Except String Completeness :=
  match [Completeness.complete, .partially].find? fun c => c.value = text with
  | some c => .ok c
  | none => .error ("'" ++ text ++ "' is not a valid PortfolioCompleteness")

structure PortfolioSnapshot where
  snapshotId : Option UUID
  accountId : UUID
  tradingMode : String
  status : PortfolioStatus
  completeness : Completeness
  positionCount : ℕ
  grossExposure : ℚ
  netExposure : ℚ
  longExposure : ℚ
  shortExposure : ℚ
  marketValue : Option ℚ
  cashBalance : Option ℚ
  equityValue : Option ℚ
  availableMargin : Option ℚ
  usedMargin : Option ℚ
  snapshotAt : DateTime
  deriving DecidableEq

/-- The columns of `portfolio_snapshots` that are written or read; of the payload only the completeness is read. -/
structure SnapshotRow where
  id : UUID
  brokerAccountId : UUID
  tradingMode : String
  snapshotAt : DateTime
  equityValue : Option ℚ
  cashBalance : Option ℚ
  marketValue : Option ℚ
  grossExposure : Option ℚ
  netExposure : Option ℚ
  longExposure : Option ℚ
  shortExposure : Option ℚ
  positionCount : Option ℕ
  availableMargin : Option ℚ
  usedMargin : Option ℚ
  status : Option String
  payloadCompleteness : Option String
  deriving DecidableEq

/-- The unique constraint. -/
def SnapshotRow.key (r : SnapshotRow) : UUID × String × ℤ := (r.brokerAccountId, r.tradingMode, r.snapshotAt.instant)

abbrev SnapshotTable := Table SnapshotRow (UUID × String × ℤ) SnapshotRow.key

/-! ### The repository -/

/-- `to_orm`, with the amounts as the columns store them. -/
def toOrm (id : UUID) (snapshot : PortfolioSnapshot) : SnapshotRow where
  id := id
  brokerAccountId := snapshot.accountId
  tradingMode := snapshot.tradingMode
  snapshotAt := snapshot.snapshotAt
  equityValue := snapshot.equityValue.map numeric4
  cashBalance := snapshot.cashBalance.map numeric4
  marketValue := snapshot.marketValue.map numeric4
  grossExposure := some (numeric4 snapshot.grossExposure)
  netExposure := some (numeric4 snapshot.netExposure)
  longExposure := some (numeric4 snapshot.longExposure)
  shortExposure := some (numeric4 snapshot.shortExposure)
  positionCount := some snapshot.positionCount
  availableMargin := snapshot.availableMargin.map numeric4
  usedMargin := snapshot.usedMargin.map numeric4
  status := some snapshot.status.value
  payloadCompleteness := some snapshot.completeness.value

def fromOrm (rec : SnapshotRow) : Except String PortfolioSnapshot := do
  let status ← PortfolioStatus.of? (upper ((orElse rec.status (some PortfolioStatus.uninitialized.value)).getD ""))
  let completeness ← Completeness.of? (rec.payloadCompleteness.getD Completeness.complete.value)
  return {
    snapshotId := some rec.id
    accountId := rec.brokerAccountId
    tradingMode := rec.tradingMode
    status := status
    completeness := completeness
    positionCount := rec.positionCount.getD 0
    grossExposure := rec.grossExposure.getD 0
    netExposure := rec.netExposure.getD 0
    longExposure := rec.longExposure.getD 0
    shortExposure := rec.shortExposure.getD 0
    marketValue := rec.marketValue
    cashBalance := rec.cashBalance
    equityValue := rec.equityValue
    availableMargin := rec.availableMargin
    usedMargin := rec.usedMargin
    snapshotAt := rec.snapshotAt }

/-- The amounts of a row fit their columns, and the count fits an `INTEGER`. -/
def SnapshotRow.storable (r : SnapshotRow) : Bool :=
  [r.equityValue, r.cashBalance, r.marketValue, r.grossExposure, r.netExposure, r.longExposure, r.shortExposure,
    r.availableMargin, r.usedMargin].all (fun x => x.all holds) && r.positionCount.all (· < 2 ^ 31)

/-- The rows of a portfolio, whose mode is given in any case. -/
def SnapshotRow.isOf (accountId : UUID) (tradingMode : String) (r : SnapshotRow) : Bool :=
  r.brokerAccountId = accountId && r.tradingMode = upper tradingMode

/-- The instant of a row. -/
def SnapshotRow.time (r : SnapshotRow) : ℤ := r.snapshotAt.instant

def listSnapshots (t : SnapshotTable) (accountId : UUID) (tradingMode : String) (limit : ℕ) :
    Except String (List PortfolioSnapshot) :=
  (newest SnapshotRow.time (SnapshotRow.isOf accountId tradingMode) limit t.rows).mapM fromOrm

def loadLatest (t : SnapshotTable) (accountId : UUID) (tradingMode : String) : Except String (Option PortfolioSnapshot) :=
  (newest SnapshotRow.time (SnapshotRow.isOf accountId tradingMode) 1 t.rows).head?.mapM fromOrm

/-! ### The engine -/

inductive SnapshotError where
  | mode (text : String)
  | validation (text : String)
  | computation (error : PortfolioError)
  deriving DecidableEq

/-- `_validate`. -/
def validateInputs (inputs : PortfolioInputs) (halted : Bool) : Except SnapshotError Unit :=
  if upper inputs.tradingMode = "LIVE" then .error (.mode "LIVE trading is disabled (fail-closed)")
  else if upper inputs.tradingMode ∉ allowedModes then .error (.mode ("unknown trading mode: " ++ inputs.tradingMode))
  else if halted then .error (.validation "global trading halt is active; portfolio computation refused")
  else .ok ()

/-- `_to_snapshot`. -/
def toSnapshot (c : PortfolioComputation) : PortfolioSnapshot where
  snapshotId := none
  accountId := c.accountId
  tradingMode := c.tradingMode
  status := c.status.toPortfolio
  completeness := c.completeness
  positionCount := c.positionCount
  grossExposure := c.grossExposure
  netExposure := c.netExposure
  longExposure := c.longExposure
  shortExposure := c.shortExposure
  marketValue := c.marketValue
  cashBalance := c.cashBalance
  equityValue := c.equityValue
  availableMargin := c.availableMargin
  usedMargin := c.usedMargin
  snapshotAt := c.snapshotAt

/-- A call of `snapshot`, with what its process and the database bring: the halt, the identifier of the row, whether the
account is known, and how its transactions end. -/
structure SnapshotCall where
  inputs : PortfolioInputs
  snapshotAt : DateTime
  maxAgeSeconds : Option ℤ := none
  halted : Bool := false
  id : UUID
  accountKnown : Bool := true
  commit : FirstWins.Commit := .answered
  readFails : Bool := false

def SnapshotCall.compute (call : SnapshotCall) : Except SnapshotError PortfolioComputation := do
  validateInputs call.inputs call.halted
  (computePortfolio call.inputs call.snapshotAt call.maxAgeSeconds).mapError .computation

/-- The call up to its write; amounts that do not fit fail it, and an unknown account violates the foreign key. -/
def SnapshotCall.begin (call : SnapshotCall) : Except SnapshotError (Write SnapshotRow) := do
  let computation ← call.compute
  let row := toOrm call.id (toSnapshot computation)
  let commit := if row.storable = false then .failed else if call.accountKnown = false then .refused else call.commit
  return .inserting row commit call.readFails

/-- The snapshot that a call returns, and whether it is flagged as a duplicate. -/
def replyOf (w : Write SnapshotRow) : Option (Except String PortfolioSnapshot × Bool) :=
  w.answer.map fun a => (fromOrm a.row, a.duplicate)

/-! ### What is read back -/

/-- The snapshot as it is stored under an identifier. -/
def PortfolioSnapshot.stored (id : UUID) (s : PortfolioSnapshot) : PortfolioSnapshot :=
  { s with
    snapshotId := some id
    grossExposure := numeric4 s.grossExposure
    netExposure := numeric4 s.netExposure
    longExposure := numeric4 s.longExposure
    shortExposure := numeric4 s.shortExposure
    marketValue := s.marketValue.map numeric4
    cashBalance := s.cashBalance.map numeric4
    equityValue := s.equityValue.map numeric4
    availableMargin := s.availableMargin.map numeric4
    usedMargin := s.usedMargin.map numeric4 }

theorem PortfolioStatus.of_value (s : PortfolioStatus) : PortfolioStatus.of? (upper s.value) = .ok s := by
  cases s <;> decide +kernel

theorem Completeness.of_value (c : Completeness) : Completeness.of? c.value = .ok c := by
  cases c <;> decide

theorem fromOrm_toOrm (id : UUID) (s : PortfolioSnapshot) : fromOrm (toOrm id s) = .ok (s.stored id) := by
  have hstatus : (orElse (some s.status.value) (some PortfolioStatus.uninitialized.value)).getD "" = s.status.value := by
    cases s.status <;> rfl
  unfold fromOrm
  simp only [toOrm, hstatus, Option.getD_some, PortfolioStatus.of_value, Completeness.of_value]
  rfl

/-- A computation with the amounts of the account rounded: the other amounts have four places already. -/
def PortfolioComputation.recorded (id : UUID) (c : PortfolioComputation) : PortfolioSnapshot :=
  { toSnapshot c with
    snapshotId := some id
    cashBalance := c.cashBalance.map numeric4
    availableMargin := c.availableMargin.map numeric4
    usedMargin := c.usedMargin.map numeric4 }

theorem map_numeric4_of_units {x : Option ℚ} (h : ∀ y ∈ x, Units (-4) y) : x.map numeric4 = x := by
  cases x with
  | none => rfl
  | some y => rw [Option.map_some, numeric4_of_units (h y rfl)]

/-- The stored snapshot of a computation. -/
theorem stored_toSnapshot {call : SnapshotCall} {c : PortfolioComputation} (h : call.compute = .ok c) (id : UUID) :
    (toSnapshot c).stored id = c.recorded id := by
  obtain ⟨-, -, h⟩ := bind_eq_ok.mp h
  have hc : Computed call.inputs c := by
    cases hp : computePortfolio call.inputs call.snapshotAt call.maxAgeSeconds with
    | error e => rw [hp] at h; cases h
    | ok p =>
      rw [hp] at h
      cases h
      exact computePortfolio_eq_ok hp
  obtain ⟨hgross, hsum, hlong, hshort⟩ := units_sums hc.units
  have hmarket : ∀ v ∈ c.marketValue, Units (-4) v := fun v hv => by rw [hc.marketValue v hv]; exact hsum
  have hequity : ∀ v ∈ c.equityValue, Units (-4) v := by
    intro v hv
    have he := hc.equity
    unfold equityOf at he
    split at he
    · rw [Option.mem_def.mp hv] at he
      cases hround : roundMoney (Ctx.default.fix _) with
      | error e => rw [hround] at he; cases he
      | ok x =>
        rw [hround] at he
        cases he
        exact (roundMoney_units hround).1
    · rw [← Except.ok.inj he] at hv
      cases hv
  unfold PortfolioSnapshot.stored PortfolioComputation.recorded
  simp only [toSnapshot, hc.gross, hc.net, hc.long, hc.short, numeric4_of_units hgross, numeric4_of_units hsum,
    numeric4_of_units hlong, numeric4_of_units hshort, map_numeric4_of_units hmarket, map_numeric4_of_units hequity]

/-! ### Every order of the calls -/

/-- The writes after some of their steps. -/
def snapshotRun (t : SnapshotTable) (calls : List SnapshotCall) (l : List ℕ) : Pool SnapshotTable (Write SnapshotRow) :=
  callRun (fun call => call.begin.toOption) t calls l

theorem begin_eq_some {call : SnapshotCall} {w : Write SnapshotRow} (h : call.begin.toOption = some w) :
    w.answer = none ∧ ∃ c, call.compute = .ok c ∧ w.row = toOrm call.id (toSnapshot c) := by
  cases hbegin : call.begin with
  | error e => rw [hbegin] at h; cases h
  | ok w' =>
    rw [hbegin] at h
    cases h
    obtain ⟨c, hc, hbegin⟩ := bind_eq_ok.mp hbegin
    cases hbegin
    exact ⟨rfl, c, hc, rfl⟩

theorem kept_snapshotRun (t : SnapshotTable) (calls : List SnapshotCall) (l : List ℕ) :
    Kept t.rows (snapshotRun t calls l) := kept_callRun fun _ _ hbegin => (begin_eq_some hbegin).1

/-- Each write is that of a call, which computed its row. -/
theorem snapshotCall_of_mem {t : SnapshotTable} {calls : List SnapshotCall} {l : List ℕ} {w : Write SnapshotRow}
    (hw : w ∈ (snapshotRun t calls l).calls) :
    ∃ call ∈ calls, ∃ c, call.compute = .ok c ∧ w.row = toOrm call.id (toSnapshot c) := by
  obtain ⟨call, hcall, w', hbegin, hrow⟩ := call_of_mem hw
  obtain ⟨-, c, hcompute, hmade⟩ := begin_eq_some hbegin
  exact ⟨call, hcall, c, hcompute, by rw [hrow, hmade]⟩

/-- What a call is for. -/
def SnapshotCall.key (call : SnapshotCall) : UUID × String × ℤ :=
  (call.inputs.accountId, upper call.inputs.tradingMode, call.snapshotAt.instant)

theorem key_toOrm {call : SnapshotCall} {c : PortfolioComputation} (h : call.compute = .ok c) (id : UUID) :
    (toOrm id (toSnapshot c)).key = call.key := by
  obtain ⟨-, -, h⟩ := bind_eq_ok.mp h
  cases hp : computePortfolio call.inputs call.snapshotAt call.maxAgeSeconds with
  | error e => rw [hp] at h; cases h
  | ok p =>
    rw [hp] at h
    cases h
    obtain ⟨a, -, hp⟩ := bind_eq_ok.mp hp
    obtain ⟨equity, -, hp⟩ := bind_eq_ok.mp hp
    obtain ⟨lines, -, hp⟩ := bind_eq_ok.mp hp
    cases hp
    rfl

/-- What the writes of some calls answered. -/
structure FirstSnapshot (calls : List SnapshotCall) (q : Pool SnapshotTable (Write SnapshotRow)) : Prop where
  /-- A write has the row of its call, and a snapshot that is not a duplicate is the computation of that call. -/
  own : ∀ w ∈ q.calls, ∃ call ∈ calls, ∃ c, call.compute = .ok c ∧ w.row = toOrm call.id (toSnapshot c) ∧
    w.row.key = call.key ∧ ∀ r ∈ replyOf w, r.2 = false → r.1 = .ok (c.recorded call.id)
  /-- The calls for one account, mode and instant answer with one snapshot. -/
  agree : ∀ w ∈ q.calls, ∀ w' ∈ q.calls, ∀ r ∈ replyOf w, ∀ r' ∈ replyOf w', w.row.key = w'.row.key → r.1 = r'.1
  /-- At most one of them is not a duplicate. -/
  once : ∀ (i j : ℕ) (w w' : Write SnapshotRow), q.calls[i]? = some w → q.calls[j]? = some w' →
    (∃ r ∈ replyOf w, r.2 = false) → (∃ r ∈ replyOf w', r.2 = false) → w.row.key = w'.row.key → i = j

theorem replyOf_eq_some {w : Write SnapshotRow} {r : Except String PortfolioSnapshot × Bool} (h : r ∈ replyOf w) :
    ∃ a ∈ w.answer, r = (fromOrm a.row, a.duplicate) := by
  obtain ⟨a, ha, rfl⟩ := Option.map_eq_some_iff.mp h
  exact ⟨a, ha, rfl⟩

/-- **The first snapshot wins**: over any table, for all calls, and in every order of their steps. -/
theorem snapshots_agree (t : SnapshotTable) (calls : List SnapshotCall) (l : List ℕ) :
    FirstSnapshot calls (snapshotRun t calls l) := by
  have hkept := kept_snapshotRun t calls l
  constructor
  · intro w hw
    obtain ⟨call, hcall, c, hcompute, hrow⟩ := snapshotCall_of_mem hw
    refine ⟨call, hcall, c, hcompute, hrow, by rw [hrow, key_toOrm hcompute], fun r hr hfresh => ?_⟩
    obtain ⟨a, ha, rfl⟩ := replyOf_eq_some hr
    obtain ⟨-, hown⟩ := hkept.backed w hw a ha
    rw [hown hfresh, hrow, fromOrm_toOrm, stored_toSnapshot hcompute]
  · intro w hw w' hw' r hr r' hr' hkey
    obtain ⟨a, ha, rfl⟩ := replyOf_eq_some hr
    obtain ⟨a', ha', rfl⟩ := replyOf_eq_some hr'
    rw [(hkept.agree hw hw' ha ha' hkey).1]
  · rintro i j w w' hi hj ⟨r, hr, hfresh⟩ ⟨r', hr', hfresh'⟩ hkey
    obtain ⟨a, ha, rfl⟩ := replyOf_eq_some hr
    obtain ⟨a', ha', rfl⟩ := replyOf_eq_some hr'
    exact hkept.fresh i j w w' hi hj ⟨a, ha, hfresh⟩ ⟨a', ha', hfresh'⟩ hkey

/-! ### What is listed -/

theorem fromOrm_eq_ok {r : SnapshotRow} {s : PortfolioSnapshot} (h : fromOrm r = .ok s) :
    s.accountId = r.brokerAccountId ∧ s.tradingMode = r.tradingMode ∧ s.snapshotAt = r.snapshotAt := by
  obtain ⟨status, -, h⟩ := bind_eq_ok.mp h
  obtain ⟨completeness, -, h⟩ := bind_eq_ok.mp h
  cases h
  exact ⟨rfl, rfl, rfl⟩

/-- Every row can be read. -/
def Readable (t : SnapshotTable) : Prop := ∀ r ∈ t.rows, ∃ s, fromOrm r = .ok s

theorem readable_run {t : SnapshotTable} (h : Readable t) (calls : List SnapshotCall) (l : List ℕ) :
    Readable (snapshotRun t calls l).shared := by
  apply rows_callRun h
  intro call w _ hbegin _
  obtain ⟨-, c, -, hrow⟩ := begin_eq_some hbegin
  exact ⟨_, by rw [hrow]; exact fromOrm_toOrm call.id (toSnapshot c)⟩

/-- A listing of a portfolio after some calls. -/
structure Listing (q : Pool SnapshotTable (Write SnapshotRow)) (accountId : UUID) (tradingMode : String) (limit : ℕ)
    (list : List PortfolioSnapshot) : Prop where
  newestFirst : list.Pairwise fun a b => b.snapshotAt.instant ≤ a.snapshotAt.instant
  ofPortfolio : ∀ s ∈ list, s.accountId = accountId ∧ s.tradingMode = upper tradingMode
  length : list.length ≤ limit
  /-- What was answered is listed, unless the listing is full of snapshots that are not older. -/
  answered : ∀ w ∈ q.calls, ∀ r ∈ replyOf w, ∀ s, r.1 = .ok s → s.accountId = accountId →
    s.tradingMode = upper tradingMode →
    s ∈ list ∨ list.length = limit ∧ ∀ s' ∈ list, s.snapshotAt.instant ≤ s'.snapshotAt.instant

/-- **A listing shows what the calls answered**, in every state of every run. -/
theorem listed {t : SnapshotTable} (h : Readable t) (calls : List SnapshotCall) (l : List ℕ) (accountId : UUID)
    (tradingMode : String) (limit : ℕ) :
    ∃ list, listSnapshots (snapshotRun t calls l).shared accountId tradingMode limit = .ok list ∧
      Listing (snapshotRun t calls l) accountId tradingMode limit list := by
  have hkept := kept_snapshotRun t calls l
  have hread := readable_run h calls l
  generalize snapshotRun t calls l = q at hkept hread ⊢
  have hrows := fun r hr => mem_of_mem_newest SnapshotRow.time (SnapshotRow.isOf accountId tradingMode) limit
    q.shared.rows (r := r) hr
  obtain ⟨list, hlist⟩ := exists_mapM (f := fromOrm) fun r hr => hread r (hrows r hr).1
  have hall := mapM_eq_ok_iff.mp hlist
  have hof {s : PortfolioSnapshot} (hs : s ∈ list) : ∃ r ∈ newest SnapshotRow.time
      (SnapshotRow.isOf accountId tradingMode) limit q.shared.rows, fromOrm r = .ok s := by
    obtain ⟨n, hn, rfl⟩ := List.mem_iff_getElem.mp hs
    have hn' := hall.length_eq ▸ hn
    exact ⟨_, List.getElem_mem hn', (List.forall₂_iff_get.mp hall).2 n hn' hn⟩
  refine ⟨list, hlist, ?_, ?_, ?_, ?_⟩
  · have hsorted := pairwise_newest SnapshotRow.time (SnapshotRow.isOf accountId tradingMode) limit q.shared.rows
    rw [List.pairwise_iff_getElem] at hsorted ⊢
    intro i j hi hj hij
    have hget := (List.forall₂_iff_get.mp hall).2
    have hi' := hall.length_eq ▸ hi
    have hj' := hall.length_eq ▸ hj
    have htime := hsorted i j hi' hj' hij
    have hsi := (fromOrm_eq_ok (hget i hi' hi)).2.2
    have hsj := (fromOrm_eq_ok (hget j hj' hj)).2.2
    simp only [List.get_eq_getElem] at hsi hsj
    rw [hsi, hsj]
    exact htime
  · intro s hs
    obtain ⟨r, hr, hfrom⟩ := hof hs
    obtain ⟨haccount, hmode, -⟩ := fromOrm_eq_ok hfrom
    have his := (hrows r hr).2
    simp only [SnapshotRow.isOf, Bool.and_eq_true, decide_eq_true_eq] at his
    exact ⟨haccount.trans his.1, hmode.trans his.2⟩
  · rw [← hall.length_eq, length_newest]
    exact min_le_left _ _
  · intro w hw r hr s hs haccount hmode
    obtain ⟨a, ha, rfl⟩ := replyOf_eq_some hr
    obtain ⟨hget, -⟩ := hkept.backed w hw a ha
    have hmem : a.row ∈ q.shared.rows := (Table.get_eq_some_iff.mp hget).1
    obtain ⟨ha1, ha2, ha3⟩ := fromOrm_eq_ok hs
    have his : SnapshotRow.isOf accountId tradingMode a.row = true := by
      simp [SnapshotRow.isOf, ← ha1, ← ha2, haccount, hmode]
    by_cases hin : a.row ∈ newest SnapshotRow.time (SnapshotRow.isOf accountId tradingMode) limit q.shared.rows
    · left
      obtain ⟨n, hn, hrow⟩ := List.mem_iff_getElem.mp hin
      have hn' := hall.length_eq ▸ hn
      have hfrom := (List.forall₂_iff_get.mp hall).2 n hn hn'
      simp only [List.get_eq_getElem, hrow] at hfrom
      rw [hfrom] at hs
      rw [← Except.ok.inj hs]
      exact List.getElem_mem hn'
    · right
      constructor
      · rw [← hall.length_eq]
        exact length_newest_of_not_mem SnapshotRow.time (SnapshotRow.isOf accountId tradingMode) limit q.shared.rows
          hmem his hin
      · intro s' hs'
        obtain ⟨r', hr', hfrom⟩ := hof hs'
        have hle := le_of_not_mem_newest SnapshotRow.time (SnapshotRow.isOf accountId tradingMode) limit q.shared.rows
          hmem his hin r' hr'
        rw [ha3, (fromOrm_eq_ok hfrom).2.2]
        exact hle

/-- `loadLatest` is the listing of one. -/
theorem loadLatest_eq (t : SnapshotTable) (accountId : UUID) (tradingMode : String) :
    loadLatest t accountId tradingMode = (listSnapshots t accountId tradingMode 1).map List.head? := by
  have hlength := length_newest SnapshotRow.time (SnapshotRow.isOf accountId tradingMode) 1 t.rows
  unfold loadLatest listSnapshots
  cases hnew : newest SnapshotRow.time (SnapshotRow.isOf accountId tradingMode) 1 t.rows with
  | nil => rfl
  | cons r rest =>
    rw [hnew, List.length_cons] at hlength
    have hnil : rest = [] := List.length_eq_zero_iff.mp (by omega)
    rw [hnil, List.head?_cons, List.mapM_cons]
    cases h : fromOrm r with
    | error e => simp [h, Except.map]
    | ok s => simp [h, Except.map]

/-- A portfolio without positions. -/
def emptyCall : SnapshotCall where
  inputs := ⟨⟨1⟩, "paper", [], none, fun _ => none⟩
  snapshotAt := ⟨2026, 8, 12, 9, 30, 0, 0, some 0⟩
  id := ⟨7⟩

/-- The table that an earlier call has left. -/
def earlierTable : SnapshotTable :=
  (snapshotRun Table.empty [{ emptyCall with snapshotAt := ⟨2026, 8, 12, 9, 15, 0, 0, some 0⟩, id := ⟨6⟩ }] [0, 0]).shared

theorem listed_earlier : earlierTable.rows.length = 1 ∧
    ∃ list, listSnapshots (snapshotRun earlierTable [emptyCall, emptyCall] [0, 1, 1]).shared ⟨1⟩ "paper" 5 = .ok list ∧
      Listing (snapshotRun earlierTable [emptyCall, emptyCall] [0, 1, 1]) ⟨1⟩ "paper" 5 list := by
  have hreadable : Readable earlierTable := readable_run (by simp [Readable, Table.empty]) _ _
  exact ⟨by decide +kernel, listed hreadable [emptyCall, emptyCall] [0, 1, 1] ⟨1⟩ "paper" 5⟩

end AlphaAlgo.Portfolio
