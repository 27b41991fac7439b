import AlphaAlgo.Base.Instants
import AlphaAlgo.Position.Runs

/-!
# Replay — a second call for a stored fill

A call with the execution id of an applied fill compares the hash of its fill with the stored one.  The hash is over the
texts of side, quantity, price and instant; account, strategy run, instrument and mode say which event it is and are not
hashed.

* `stored_hash`: in every reachable store an applied fill has its hash under its execution id.
* `replay_decided`: the second call reports a duplicate when the texts agree and a conflict when the economics differ.
-/

namespace AlphaAlgo.Position

open Runs Ledger

/-! ### What the hash knows of a fill -/

/-- The text that is hashed. -/
def fillText (f : PositionFill) : String :=
  (Json.obj [("occurred_at", .str f.occurredAt.isoformat), ("price", .str f.price.str), ("quantity", .str f.quantity.str),
    ("side", .str (upper f.side.value))]).dumps .compact

theorem fillContentHash_eq (f : PositionFill) : fillContentHash f = sha256 (fillText f) := rfl

/-- The economics of two fills are written alike. -/
structure SameTexts (f g : PositionFill) : Prop where
  side : f.side = g.side
  quantity : f.quantity.str = g.quantity.str
  price : f.price.str = g.price.str
  occurredAt : f.occurredAt.isoformat = g.occurredAt.isoformat

/-- The economics of two fills are equal: side, quantity, price and instant. -/
structure SameEconomics (f g : PositionFill) : Prop where
  side : f.side = g.side
  quantity : f.quantity.val = g.quantity.val
  price : f.price.val = g.price.val
  instant : f.occurredAt.sub? g.occurredAt = some 0

/-- Economically equal, for one account, strategy run and instrument. -/
structure EconomicallyEqual (f g : PositionFill) : Prop extends SameEconomics f g where
  account : f.accountId = g.accountId
  strategyRun : f.strategyRunId = g.strategyRunId
  instrument : f.instrumentId = g.instrumentId

theorem upper_side_inj {s s' : Side} (h : upper s.value = upper s'.value) : s = s' := by
  revert h
  cases s <;> cases s' <;> decide +kernel

theorem fillText_inj {f g : PositionFill} : fillText f = fillText g ↔ SameTexts f g := by
  constructor
  · intro h
    unfold fillText Json.dumps at h
    rw [String.ofList_inj] at h
    simp only [Json.chars, Json.fields, if_true, List.nil_append, List.append_assoc, Bool.false_eq_true, if_false,
      List.cons_append, List.cons.injEq, true_and] at h
    obtain ⟨hat, h⟩ := quote_append_inj (List.append_cancel_left (List.append_cancel_left h))
    have h := List.append_cancel_left (List.append_cancel_left (List.append_cancel_left h))
    obtain ⟨hprice, h⟩ := quote_append_inj h
    have h := List.append_cancel_left (List.append_cancel_left (List.append_cancel_left h))
    obtain ⟨hquantity, h⟩ := quote_append_inj h
    have h := List.append_cancel_left (List.append_cancel_left (List.append_cancel_left h))
    obtain ⟨hside, -⟩ := quote_append_inj h
    exact ⟨upper_side_inj hside, hquantity, hprice, hat⟩
  · intro h
    rw [fillText, fillText, h.side, h.quantity, h.price, h.occurredAt]

/-- **Fills that are written alike have the same economics.** -/
theorem SameTexts.economics {f g : PositionFill} (h : SameTexts f g) : SameEconomics f g := by
  refine ⟨h.side, Dec.val_of_str h.quantity, Dec.val_of_str h.price, ?_⟩
  have hat := DateTime.isoformat_inj h.occurredAt
  obtain ⟨o, ho⟩ := Option.isSome_iff_exists.mp g.occurredAt_aware
  rw [hat, DateTime.sub?, ho]
  simp

/-! ### The stored hash -/

/-- Every applied fill is stored with its hash. -/
def Hashed (l : Ledger) : Prop :=
  ∀ f ∈ l.applied, ∃ e ∈ l.db.events.rows, e.sourceEventId = f.executionId ∧
    e.eventPayload = [("_content_hash", .str (fillContentHash f))]

theorem computePlan_contentHash {current : Option PositionState} {f : PositionFill} {plan : PositionApplyPlan}
    (h : computePlan current f = .ok plan) : plan.event.executionId = f.executionId ∧
      plan.event.contentHash = fillContentHash f := by
  unfold computePlan at h
  cases hs : planState current f with
  | error err => rw [hs] at h; cases h
  | ok p => rw [hs] at h; cases h; exact ⟨rfl, rfl⟩

/-- The row of a fill that a call applies. -/
theorem step_applied_row {l : Ledger} {c : FillCall} (hr : Reports (l.result c) = true) :
    ∃ e, (l.step c).db.events.rows = l.db.events.rows ++ [e] ∧ e.sourceEventId = c.fill.executionId ∧
      e.eventPayload = [("_content_hash", .str (fillContentHash c.fill))] := by
  have hout := applyFill_cases c.globalHaltActive c.newId l.db c.fill
  unfold Ledger.result at hr
  unfold Ledger.step
  revert hr hout
  generalize applyFill c.globalHaltActive c.newId l.db c.fill = out
  obtain ⟨db', r⟩ := out
  intro hr hout
  cases hout with
  | @applied plan _ hplan hpersist =>
    have hp := computePlan_ok hplan identity_of_loadPosition
    obtain ⟨row, hrow⟩ := persistApply_ok hp.identity hpersist
    obtain ⟨hid, hhash⟩ := computePlan_contentHash hplan
    exact ⟨_, hrow.events, hid, by rw [newEventRow, hhash]⟩
  | duplicate => simp [Reports, duplicateResult] at hr
  | raised herr => simp [Reports] at hr
  | conflict hash => simp [Reports] at hr

theorem Hashed.step {l : Ledger} (h : Hashed l) (c : FillCall) : Hashed (l.step c) := by
  cases hr : Reports (l.result c) with
  | true =>
    obtain ⟨e, hrows, hid, hhash⟩ := step_applied_row hr
    intro f hf
    have happ : (l.step c).applied = l.applied ++ [c.fill] := by simp [Ledger.step, hr]
    rw [happ, List.mem_append, List.mem_singleton] at hf
    rw [hrows]
    rcases hf with hf | rfl
    · obtain ⟨e', he', hid', hhash'⟩ := h f hf
      exact ⟨e', List.mem_append_left _ he', hid', hhash'⟩
    · exact ⟨e, List.mem_append_right _ (List.mem_singleton_self e), hid, hhash⟩
  | false =>
    obtain ⟨-, happ, -, hrows⟩ := keepsLedger l c hr
    intro f hf
    rw [happ] at hf
    obtain ⟨e, he, hid, hhash⟩ := h f hf
    refine ⟨e, ?_, hid, hhash⟩
    -- the events stay, with at most the evidence of a conflict after them
    rcases hrows with hsame | ⟨-, e', -, -, hmore⟩
    · rw [hsame]; exact he
    · rw [hmore]; exact List.mem_append_left _ he

theorem hashed_run (references : References) (calls : List FillCall) : Hashed (run Ledger.step (.empty references) calls) :=
  run_invariant Ledger.step Hashed (fun _ c h => h.step c) (fun f hf => absurd hf (by simp [Ledger.empty])) calls

/-- **The stored hash** of an applied fill. -/
theorem stored_hash {l : Ledger} (h : Hashed l) {f : PositionFill} (hf : f ∈ l.applied) :
    findFillHash l.db f.executionId = some (.str (fillContentHash f)) := by
  obtain ⟨e, he, hid, hhash⟩ := h f hf
  have hget : l.db.events.get f.executionId = some e := Table.get_eq_some_iff.mpr ⟨he, hid⟩
  rw [findFillHash, hget, Option.bind_some, hhash]
  rfl

/-! ### The second call -/

/-- The call reports a duplicate. -/
def IsDuplicate (r : Except PositionError PositionResult) : Prop := ∃ result, r = .ok result ∧ result.status = .duplicate

/-- **What the second call reports**, as far as it is let through: it compares the two hashes. -/
theorem replay_cases {l : Ledger} (h : Hashed l) {f : PositionFill} {c : FillCall} (hf : f ∈ l.applied)
    (hid : c.fill.executionId = f.executionId) (hvalid : validate c.globalHaltActive c.fill = .ok ()) :
    (fillContentHash f = fillContentHash c.fill ∧ IsDuplicate (l.result c)) ∨
    (fillContentHash f ≠ fillContentHash c.fill ∧ l.result c = .error (.conflict c.fill.executionId)) := by
  have hstored := stored_hash h hf
  rw [← hid] at hstored
  have hresult : l.result c = (resolveReplay l.db c.fill (some (.str (fillContentHash f)))).2 := by
    rw [Ledger.result, applyFill, hvalid]
    dsimp only
    rw [hstored]
    rfl
  rw [hresult, resolveReplay]
  by_cases hhash : fillContentHash f = fillContentHash c.fill
  · rw [if_pos (by rw [hhash])]
    exact .inl ⟨hhash, _, rfl, rfl⟩
  · rw [if_neg fun heq => hhash (Scalar.str.inj (Option.some.inj heq))]
    exact .inr ⟨hhash, rfl⟩

/-- What a call for an applied fill `f` reports of its own fill. -/
structure ReplayDecided (r : Except PositionError PositionResult) (f g : PositionFill) : Prop where
  decided : IsDuplicate r ∨ r = .error (.conflict g.executionId)
  duplicate : SameTexts f g → IsDuplicate r
  conflict : ¬ SameEconomics f g → r = .error (.conflict g.executionId)

/-- **A second call for an applied fill** that is let through reports a duplicate of a fill that is written alike and a
conflict when the economics differ. -/
theorem replay_decided (references : References) (calls : List FillCall) (f : PositionFill) (c : FillCall)
    (hf : f ∈ (run Ledger.step (.empty references) calls).applied) (hid : c.fill.executionId = f.executionId)
    (hvalid : validate c.globalHaltActive c.fill = .ok ())
    (hcol : fillContentHash f = fillContentHash c.fill → fillText f = fillText c.fill) :
    ReplayDecided ((run Ledger.step (.empty references) calls).result c) f c.fill := by
  rcases replay_cases (hashed_run references calls) hf hid hvalid with ⟨hhash, hdup⟩ | ⟨hhash, hconflict⟩
  · refine ⟨.inl hdup, fun _ => hdup, fun hne => absurd ?_ hne⟩
    exact (fillText_inj.mp (hcol hhash)).economics
  · refine ⟨.inr hconflict, fun htexts => absurd ?_ hhash, fun _ => hconflict⟩
    rw [fillContentHash_eq, fillContentHash_eq, fillText_inj.mpr htexts]

/-! ### One purchase, twice -/

def sampleReferences : References := ⟨[⟨3⟩], [⟨2⟩], [⟨1⟩]⟩

theorem samplePurchase_valid : blank "e1" = false ∧ 0 < (Dec.ofNat 5).val ∧ 0 < (Dec.ofNat 100).val := by decide +kernel

def samplePurchase : PositionFill := paperFill "e1" .buy (Dec.ofNat 5) (Dec.ofNat 100) samplePurchase_valid

/-- The same execution id and economics for another account. -/
def otherAccount : PositionFill := { samplePurchase with accountId := ⟨9⟩ }

theorem samplePurchase_applied :
    (run Ledger.step (.empty sampleReferences) [⟨false, ⟨10⟩, samplePurchase⟩]).applied = [samplePurchase] := by
  have hr : Reports ((Ledger.empty sampleReferences).result ⟨false, ⟨10⟩, samplePurchase⟩) = true := by decide +kernel
  rw [run_cons, run_nil, Ledger.step, hr]
  rfl

theorem replay_decided_again : ReplayDecided
    ((run Ledger.step (.empty sampleReferences) [⟨false, ⟨10⟩, samplePurchase⟩]).result ⟨false, ⟨11⟩, samplePurchase⟩)
    samplePurchase samplePurchase :=
  replay_decided sampleReferences [⟨false, ⟨10⟩, samplePurchase⟩] samplePurchase ⟨false, ⟨11⟩, samplePurchase⟩
    (by rw [samplePurchase_applied]; exact List.mem_singleton_self _) rfl (by decide +kernel) fun _ => rfl

/-- A fill of another account is reported as a duplicate. -/
theorem not_replay_other_account : ¬ ∀ (references : References) (calls : List FillCall) (f : PositionFill) (c : FillCall),
    f ∈ (run Ledger.step (.empty references) calls).applied → c.fill.executionId = f.executionId →
    (fillContentHash f = fillContentHash c.fill → fillText f = fillText c.fill) →
      (IsDuplicate ((run Ledger.step (.empty references) calls).result c) ↔ EconomicallyEqual f c.fill) ∧
      (¬ EconomicallyEqual f c.fill →
        (run Ledger.step (.empty references) calls).result c = .error (.conflict c.fill.executionId)) := by
  intro h
  have hf : samplePurchase ∈ (run Ledger.step (.empty sampleReferences) [⟨false, ⟨10⟩, samplePurchase⟩]).applied := by
    rw [samplePurchase_applied]
    exact List.mem_singleton_self _
  have hclaim := h sampleReferences [⟨false, ⟨10⟩, samplePurchase⟩] samplePurchase ⟨false, ⟨11⟩, otherAccount⟩ hf rfl
    fun _ => rfl
  rcases replay_cases (c := ⟨false, ⟨11⟩, otherAccount⟩) (hashed_run _ _) hf rfl (by decide +kernel) with
    ⟨-, hdup⟩ | ⟨hhash, -⟩
  · have haccount := (hclaim.1.mp hdup).account
    exact absurd haccount (by decide)
  · exact hhash rfl

end AlphaAlgo.Position
