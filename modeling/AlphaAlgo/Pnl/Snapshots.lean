import AlphaAlgo.Backtest.Records
import AlphaAlgo.Lib.Columns
import AlphaAlgo.Lib.FirstWins
import AlphaAlgo.Pnl.Valuation

/-!
# Snapshots — the stored snapshots of profit and loss

`PnlEngine.snapshot` adds up the amounts it is given and inserts them; where the unique constraint on account, mode and
instant refuses the row, it answers with the stored one.

* `pnl_snapshots_kept`: in every order of the calls, those for one account, mode and instant answer with one snapshot; its gross
  and net amounts are those of its parts; and the latest snapshot is not older than any that was answered.
-/

namespace AlphaAlgo.Pnl

open FirstWins Loop Runs

/-! ### The repository -/

/-- `PnlStatus(text)`. -/
def PnlStatus.of? (text : String) : Except String PnlStatus :=
  match [ready, degraded, unavailable, conflict].find? fun s => s.value = text with
  | some s => .ok s
  | none => .error ("'" ++ text ++ "' is not a valid PnlStatus")

structure PnlSnapshot where
  snapshotId : Option UUID
  accountId : UUID
  tradingMode : String
  snapshotAt : DateTime
  realizedPnl : ℚ
  unrealizedPnl : Option ℚ
  grossPnl : ℚ
  costs : ℚ
  netPnl : ℚ
  positionCount : ℤ
  status : PnlStatus
  deriving DecidableEq

/-- The columns of `pnl_snapshots` that are written and read. -/
structure PnlRow where
  id : UUID
  accountId : UUID
  tradingMode : String
  snapshotAt : DateTime
  realizedPnl : ℚ
  unrealizedPnl : Option ℚ
  grossPnl : ℚ
  costs : ℚ
  netPnl : ℚ
  positionCount : ℤ
  status : String
  deriving DecidableEq

/-- The unique constraint. -/
def PnlRow.key (r : PnlRow) : UUID × String × ℤ := (r.accountId, r.tradingMode, r.snapshotAt.instant)

abbrev PnlSnapshots := Table PnlRow (UUID × String × ℤ) PnlRow.key

/-- `to_orm_snapshot`, with the amounts as the columns store them. -/
def toOrmSnapshot (id : UUID) (snap : PnlSnapshot) : PnlRow where
  id := id
  accountId := snap.accountId
  tradingMode := snap.tradingMode
  snapshotAt := snap.snapshotAt
  realizedPnl := numeric4 snap.realizedPnl
  unrealizedPnl := snap.unrealizedPnl.map numeric4
  grossPnl := numeric4 snap.grossPnl
  costs := numeric4 snap.costs
  netPnl := numeric4 snap.netPnl
  positionCount := snap.positionCount
  status := snap.status.value

def fromOrmSnapshot (rec : PnlRow) : Except String PnlSnapshot := do
  let status ← PnlStatus.of? rec.status
  return {
    snapshotId := some rec.id
    accountId := rec.accountId
    tradingMode := rec.tradingMode
    snapshotAt := rec.snapshotAt
    realizedPnl := rec.realizedPnl
    unrealizedPnl := rec.unrealizedPnl
    grossPnl := rec.grossPnl
    costs := rec.costs
    netPnl := rec.netPnl
    positionCount := rec.positionCount
    status := status }

/-- The amounts fit their columns, and the count fits an `INTEGER`. -/
def PnlRow.storable (r : PnlRow) : Bool :=
  [r.realizedPnl, r.grossPnl, r.costs, r.netPnl].all holds && r.unrealizedPnl.all holds &&
    (Int4.of? r.positionCount).isSome

/-- The rows of an account, whose mode is given in any case. -/
def PnlRow.isOf (accountId : UUID) (tradingMode : String) (r : PnlRow) : Bool :=
  r.accountId = accountId && r.tradingMode = upper tradingMode

def PnlRow.time (r : PnlRow) : ℤ := r.snapshotAt.instant

def loadLatestSnapshot (t : PnlSnapshots) (accountId : UUID) (tradingMode : String) : Except String (Option PnlSnapshot) :=
  (newest PnlRow.time (PnlRow.isOf accountId tradingMode) 1 t.rows).head?.mapM fromOrmSnapshot

/-! ### The engine -/

/-- A call of `snapshot`, with what the database brings: the identifier of the row, and how its transactions end. -/
structure SnapshotCall where
  accountId : UUID
  tradingMode : String
  snapshotAt : DateTime
  realizedPnl : ℚ
  unrealizedPnl : Option ℚ
  costs : ℚ
  positionCount : ℤ
  status : PnlStatus
  id : UUID
  commit : FirstWins.Commit := .answered
  readFails : Bool := false

/-- The snapshot that a call computes. -/
def SnapshotCall.snap (call : SnapshotCall) : PnlSnapshot where
  snapshotId := none
  accountId := call.accountId
  tradingMode := upper call.tradingMode
  snapshotAt := call.snapshotAt
  realizedPnl := call.realizedPnl
  unrealizedPnl := call.unrealizedPnl
  grossPnl := Ctx.default.fix (call.realizedPnl + call.unrealizedPnl.getD 0)
  costs := call.costs
  netPnl := Ctx.default.fix (Ctx.default.fix (call.realizedPnl - call.costs) + call.unrealizedPnl.getD 0)
  positionCount := call.positionCount
  status := call.status

/-- The call up to its write; amounts that do not fit fail it. -/
def SnapshotCall.begin (call : SnapshotCall) : Except PnlError (Write PnlRow) := do
  guardMode call.tradingMode
  let row := toOrmSnapshot call.id call.snap
  return .inserting row (if row.storable then call.commit else .failed) call.readFails

/-- The writes of the calls after some of their steps. -/
def snapshotRun (t : PnlSnapshots) (calls : List SnapshotCall) (l : List ℕ) : Pool PnlSnapshots (Write PnlRow) :=
  callRun (fun call => call.begin.toOption) t calls l

/-- The snapshot that a call returns. -/
def replyOf (w : Write PnlRow) : Option (Except String PnlSnapshot) := w.answer.map fun a => fromOrmSnapshot a.row

/-! ### What is stored -/

/-- The amounts of a row that add up. -/
structure PnlRow.Balanced (r : PnlRow) : Prop where
  gross : r.grossPnl = r.realizedPnl + r.unrealizedPnl.getD 0
  net : r.netPnl = r.grossPnl - r.costs

/-- The amounts of a call have four places, as those of events and valuations have. -/
structure SnapshotCall.FourPlaces (call : SnapshotCall) : Prop where
  realized : Units (-4) call.realizedPnl
  unrealized : ∀ u ∈ call.unrealizedPnl, Units (-4) u
  costs : Units (-4) call.costs

theorem SnapshotCall.FourPlaces.balanced {call : SnapshotCall} (h : call.FourPlaces)
    (hfits : (toOrmSnapshot call.id call.snap).storable = true) : (toOrmSnapshot call.id call.snap).Balanced := by
  have hu : Units (-4) (call.unrealizedPnl.getD 0) := by
    cases hnone : call.unrealizedPnl with
    | none => exact units_zero _
    | some u => exact h.unrealized u hnone
  have hkeep : (call.unrealizedPnl.map numeric4).getD 0 = call.unrealizedPnl.getD 0 := by
    cases hnone : call.unrealizedPnl with
    | none => rfl
    | some u =>
      rw [Option.map_some, Option.getD_some, Option.getD_some]
      exact numeric4_of_units (h.unrealized u hnone)
  have hbound (x : ℚ) (hx : Units (-4) x) (hheld : holds (numeric4 x) = true) : |x| < 10 ^ 14 := by
    simpa [holds, numeric4_of_units hx] using hheld
  simp only [PnlRow.storable, toOrmSnapshot, SnapshotCall.snap, Bool.and_eq_true, List.all_cons, List.all_nil] at hfits
  obtain ⟨⟨⟨hreal, -, hcosts, -⟩, hunreal⟩, -⟩ := hfits
  have hreal := hbound _ h.realized hreal
  have hcosts := hbound _ h.costs hcosts
  have hunreal : |call.unrealizedPnl.getD 0| < 10 ^ 14 := by
    cases hnone : call.unrealizedPnl with
    | none => norm_num
    | some u =>
      rw [hnone] at hunreal
      exact hbound u (h.unrealized u hnone) (by simpa using hunreal)
  rw [abs_lt] at hreal hcosts hunreal
  -- none of the sums is rounded
  have hgross : Ctx.default.fix (call.realizedPnl + call.unrealizedPnl.getD 0) =
      call.realizedPnl + call.unrealizedPnl.getD 0 := by
    apply fix_of_units (h.realized.add hu)
    rw [abs_lt]
    constructor <;> linarith [hreal.1, hreal.2, hunreal.1, hunreal.2]
  have hless : Ctx.default.fix (call.realizedPnl - call.costs) = call.realizedPnl - call.costs := by
    apply fix_of_units (h.realized.sub h.costs)
    rw [abs_lt]
    constructor <;> linarith [hreal.1, hreal.2, hcosts.1, hcosts.2]
  have hnet : Ctx.default.fix (call.realizedPnl - call.costs + call.unrealizedPnl.getD 0) =
      call.realizedPnl - call.costs + call.unrealizedPnl.getD 0 := by
    apply fix_of_units ((h.realized.sub h.costs).add hu)
    rw [abs_lt]
    constructor <;> linarith [hreal.1, hreal.2, hcosts.1, hcosts.2, hunreal.1, hunreal.2]
  constructor
  · simp only [toOrmSnapshot, SnapshotCall.snap, hgross, hkeep, numeric4_of_units h.realized,
      numeric4_of_units (h.realized.add hu)]
  · simp only [toOrmSnapshot, SnapshotCall.snap, hgross, hless, hnet, numeric4_of_units (h.realized.add hu),
      numeric4_of_units h.costs, numeric4_of_units ((h.realized.sub h.costs).add hu)]
    ring

theorem PnlStatus.of_value (s : PnlStatus) : PnlStatus.of? s.value = .ok s := by
  cases s <;> decide

/-- **What is read back** of a stored snapshot is the snapshot, with the amounts rounded. -/
theorem fromOrmSnapshot_toOrmSnapshot (id : UUID) (s : PnlSnapshot) : fromOrmSnapshot (toOrmSnapshot id s) = .ok { s with
    snapshotId := some id
    realizedPnl := numeric4 s.realizedPnl
    unrealizedPnl := s.unrealizedPnl.map numeric4
    grossPnl := numeric4 s.grossPnl
    costs := numeric4 s.costs
    netPnl := numeric4 s.netPnl } := by
  unfold fromOrmSnapshot
  simp only [toOrmSnapshot, PnlStatus.of_value]
  rfl

theorem fromOrmSnapshot_eq_ok {r : PnlRow} {s : PnlSnapshot} (h : fromOrmSnapshot r = .ok s) :
    s.accountId = r.accountId ∧ s.tradingMode = r.tradingMode ∧ s.snapshotAt = r.snapshotAt ∧
      s.realizedPnl = r.realizedPnl ∧ s.unrealizedPnl = r.unrealizedPnl ∧ s.grossPnl = r.grossPnl ∧ s.costs = r.costs ∧
      s.netPnl = r.netPnl := by
  obtain ⟨status, -, h⟩ := bind_eq_ok.mp h
  cases h
  exact ⟨rfl, rfl, rfl, rfl, rfl, rfl, rfl, rfl⟩

/-! ### Every order of the calls -/

theorem begin_eq_some {call : SnapshotCall} {w : Write PnlRow} (h : call.begin.toOption = some w) :
    w.answer = none ∧ w.row = toOrmSnapshot call.id call.snap ∧ (w.Stores → w.row.storable = true) := by
  cases hbegin : call.begin with
  | error e => rw [hbegin] at h; cases h
  | ok w' =>
    rw [hbegin] at h
    cases h
    obtain ⟨-, -, hbegin⟩ := bind_eq_ok.mp hbegin
    cases hbegin
    refine ⟨rfl, rfl, fun hstores => ?_⟩
    by_contra hfits
    simp only [Write.row] at hfits
    rw [if_neg hfits] at hstores
    exact hstores

/-- A row that is read back, with amounts that add up. -/
def PnlRow.Sound (r : PnlRow) : Prop := r.Balanced ∧ ∃ s, fromOrmSnapshot r = .ok s

/-- The state of the snapshots after some calls. -/
structure SnapshotsKept (q : Pool PnlSnapshots (Write PnlRow)) : Prop where
  /-- The calls for one account, mode and instant answer with one snapshot. -/
  agree : ∀ w ∈ q.calls, ∀ w' ∈ q.calls, ∀ r ∈ replyOf w, ∀ r' ∈ replyOf w', w.row.key = w'.row.key → r = r'
  /-- Every answer is a snapshot whose amounts add up. -/
  balanced : ∀ w ∈ q.calls, ∀ r ∈ replyOf w, ∃ s, r = .ok s ∧ s.grossPnl = s.realizedPnl + s.unrealizedPnl.getD 0 ∧
    s.netPnl = s.grossPnl - s.costs
  /-- The latest snapshot of an account is not older than an answer for it. -/
  latest : ∀ (accountId : UUID) (tradingMode : String),
    ∃ o, loadLatestSnapshot q.shared accountId tradingMode = .ok o ∧ ∀ w ∈ q.calls, ∀ s, .ok s ∈ replyOf w →
      s.accountId = accountId → s.tradingMode = upper tradingMode →
        ∃ s' ∈ o, s'.accountId = accountId ∧ s'.tradingMode = upper tradingMode ∧
          s.snapshotAt.instant ≤ s'.snapshotAt.instant

/-- **Snapshots of profit and loss**, for all calls and in every order of their steps, over a table whose rows are sound at
the start. -/
theorem pnl_snapshots_kept {t : PnlSnapshots} {calls : List SnapshotCall} (hrows : ∀ r ∈ t.rows, r.Sound)
    (hcalls : ∀ call ∈ calls, call.FourPlaces) (l : List ℕ) : SnapshotsKept (snapshotRun t calls l) := by
  have hkept : Kept t.rows (snapshotRun t calls l) := kept_callRun fun _ _ hbegin => (begin_eq_some hbegin).1
  have hsound : ∀ r ∈ (snapshotRun t calls l).shared.rows, r.Sound := by
    apply rows_callRun hrows
    intro call w hcall hbegin hstores
    obtain ⟨-, hrow, hfits⟩ := begin_eq_some hbegin
    have hfits := hfits hstores
    rw [hrow] at hfits ⊢
    exact ⟨(hcalls call hcall).balanced hfits, _, fromOrmSnapshot_toOrmSnapshot call.id call.snap⟩
  generalize snapshotRun t calls l = q at hkept hsound ⊢
  have hstored {w : Write PnlRow} {r : Except String PnlSnapshot} (hw : w ∈ q.calls) (hr : r ∈ replyOf w) :
      ∃ a ∈ w.answer, r = fromOrmSnapshot a.row ∧ a.row ∈ q.shared.rows := by
    obtain ⟨a, ha, rfl⟩ := Option.map_eq_some_iff.mp hr
    exact ⟨a, ha, rfl, (Table.get_eq_some_iff.mp (hkept.backed w hw a ha).1).1⟩
  constructor
  · intro w hw w' hw' r hr r' hr' hkey
    obtain ⟨a, ha, rfl, -⟩ := hstored hw hr
    obtain ⟨a', ha', rfl, -⟩ := hstored hw' hr'
    rw [(hkept.agree hw hw' ha ha' hkey).1]
  · intro w hw r hr
    obtain ⟨a, ha, rfl, hmem⟩ := hstored hw hr
    obtain ⟨⟨hgross, hnet⟩, s, hs⟩ := hsound a.row hmem
    obtain ⟨-, -, -, hreal, hunreal, hg, hc, hn⟩ := fromOrmSnapshot_eq_ok hs
    exact ⟨s, hs, by rw [hg, hreal, hunreal, hgross], by rw [hn, hg, hc, hnet]⟩
  · intro accountId tradingMode
    unfold loadLatestSnapshot
    have hisOf {s : PnlSnapshot} {r : PnlRow} (hs : fromOrmSnapshot r = .ok s) :
        PnlRow.isOf accountId tradingMode r = true ↔ s.accountId = accountId ∧ s.tradingMode = upper tradingMode := by
      obtain ⟨haccount, hmode, -⟩ := fromOrmSnapshot_eq_ok hs
      rw [haccount, hmode]
      simp [PnlRow.isOf]
    cases hnewest : (newest PnlRow.time (PnlRow.isOf accountId tradingMode) 1 q.shared.rows).head? with
    | none =>
      refine ⟨none, rfl, fun w hw s hs haccount hmode => ?_⟩
      obtain ⟨a, -, hfrom, hmem⟩ := hstored hw hs
      have hkind := (hisOf hfrom.symm).mpr ⟨haccount, hmode⟩
      rw [newest_one_eq_none _ _ _ hnewest a.row hmem] at hkind
      cases hkind
    | some r =>
      obtain ⟨⟨hr, hkind⟩, hle⟩ := newest_one_eq_some _ _ _ hnewest
      obtain ⟨-, s', hs'⟩ := hsound r hr
      refine ⟨some s', by simp [hs'], fun w hw s hs haccount hmode => ?_⟩
      obtain ⟨a, -, hfrom, hmem⟩ := hstored hw hs
      have hold := hle a.row hmem ((hisOf hfrom.symm).mpr ⟨haccount, hmode⟩)
      obtain ⟨haccount', hmode'⟩ := (hisOf hs').mp hkind
      refine ⟨s', rfl, haccount', hmode', ?_⟩
      rw [(fromOrmSnapshot_eq_ok hfrom.symm).2.2.1, (fromOrmSnapshot_eq_ok hs').2.2.1]
      exact hold

/-- A snapshot of an account that realised 10, with costs of 1 and unrealised 2.5. -/
def sampleSnapshot : SnapshotCall where
  accountId := ⟨1⟩
  tradingMode := "paper"
  snapshotAt := ⟨2026, 8, 12, 9, 30, 0, 0, some 0⟩
  realizedPnl := 10
  unrealizedPnl := some (5 / 2)
  costs := 1
  positionCount := 1
  status := .ready
  id := ⟨7⟩

theorem pnl_snapshots_kept_sample : SnapshotsKept
    (snapshotRun Table.empty [sampleSnapshot, { sampleSnapshot with id := ⟨8⟩, realizedPnl := 11 }] [1, 0, 0]) := by
  refine pnl_snapshots_kept (by simp [Table.empty]) ?_ _
  intro call hcall
  simp only [List.mem_cons, List.not_mem_nil, or_false] at hcall
  have hunrealized : ∀ u ∈ some (5 / 2 : ℚ), Units (-4) u := by
    rintro u ⟨⟩
    exact ⟨25000, by norm_num⟩
  rcases hcall with rfl | rfl
  · exact ⟨⟨100000, by norm_num [sampleSnapshot]⟩, hunrealized, ⟨10000, by norm_num [sampleSnapshot]⟩⟩
  · exact ⟨⟨110000, by norm_num⟩, hunrealized, ⟨10000, by norm_num [sampleSnapshot]⟩⟩

end AlphaAlgo.Pnl
