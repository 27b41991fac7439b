import AlphaAlgo.Signal.Engine

/-!
# Runs — ingestions of several engines over one table

Calls of `ingest` interleave in any order.  What a step does to the table, to the caches, to the fan-outs and to the call
is derived from `IngestStep`.

* `IngestStep.rows`: rows stay.
* `IngestStep.backed`: caches and outcomes agree with the table.
* `IngestStep.move`: a step commits or fans out at most one row.
-/

namespace AlphaAlgo.Signal

open Runs

/-- The engines with their table, and the calls on them. -/
abbrev SignalSystem := Pool SignalShared IngestCall

/-- The schedule `l` of calls. -/
abbrev ingestSchedule (p : SignalSystem) (l : List ℕ) : SignalSystem := run (Pool.step IngestCall.next) p l

/-! ### Rows -/

/-- The identity is stored with this content hash. -/
def StoredAs (signals : Signals) (identityKey contentHash : String) : Prop :=
  ∃ row ∈ signals.rows, row.identityKey = identityKey ∧ row.contentHash = contentHash

/-- The identity is stored with another content hash. -/
def StoredOther (signals : Signals) (w : Work) : Prop :=
  ∃ existing ≠ w.contentHash, StoredAs signals w.identityKey existing

section Rows

variable {s s' : SignalShared} {c : IngestCall} {pc : IngestPc} {signals signals' : Signals}

/-- **Rows stay**, in their order. -/
theorem IngestStep.rows (h : IngestStep s c s' pc) : s.signals.rows <+: s'.signals.rows := by
  cases h with
  | inserted hpc hinsert | unanswered hpc hinsert how =>
    dsimp only
    rw [(insertSignal_eq_some hinsert).2]
    exact List.prefix_append _ _
  | _ => exact List.prefix_refl _

theorem StoredAs.mono (hrows : signals.rows ⊆ signals'.rows) {key hash : String} (h : StoredAs signals key hash) :
    StoredAs signals' key hash := by
  obtain ⟨row, hrow, hkey⟩ := h
  exact ⟨row, hrows hrow, hkey⟩

theorem StoredOther.mono (hrows : signals.rows ⊆ signals'.rows) {w : Work} (h : StoredOther signals w) :
    StoredOther signals' w := by
  obtain ⟨existing, hne, hstored⟩ := h
  exact ⟨existing, hne, hstored.mono hrows⟩

/-- The row that a successful insertion adds. -/
theorem storedAs_inserted {w : Work} (hinsert : insertSignal signals (c.row w) = some signals') :
    c.row w ∈ signals'.rows ∧ StoredAs signals' w.identityKey w.contentHash := by
  have hmem : c.row w ∈ signals'.rows := by
    rw [(insertSignal_eq_some hinsert).2]
    exact List.mem_append_right _ (List.mem_singleton_self _)
  exact ⟨hmem, c.row w, hmem, rfl, rfl⟩

/-- The row that a read finds. -/
theorem compareRow_cases {row : SignalRow} {w : Work} (hrow : signals.get w.identityKey = some row) :
    (compareRow row w = .duplicate ∧ StoredAs signals w.identityKey w.contentHash) ∨
      (compareRow row w = .conflict ∧ StoredOther signals w) := by
  obtain ⟨hmem, hkey⟩ := Table.get_eq_some_iff.mp hrow
  by_cases hsame : row.contentHash = w.contentHash
  · exact .inl ⟨if_pos hsame, row, hmem, hkey, hsame⟩
  · exact .inr ⟨if_neg hsame, row.contentHash, hsame, row, hmem, hkey, rfl⟩

end Rows

/-! ### Caches -/

/-- The entries of the caches are stored. -/
def CachesAgree (s : SignalShared) : Prop :=
  ∀ engine ∈ s.engines, ∀ e ∈ engine.idempotency.seen, StoredAs s.signals e.1 e.2

section Calls

variable {s s' : SignalShared} {c : IngestCall} {pc : IngestPc}

theorem CachesAgree.mono (h : CachesAgree s) {signals : Signals} (hrows : s.signals.rows ⊆ signals.rows) :
    CachesAgree { s with signals := signals } :=
  fun engine hengine e he => (h engine hengine e he).mono hrows

theorem CachesAgree.setCache (h : CachesAgree s) {i : ℕ} {engine : SignalEngine} {cache : SignalIdempotency}
    (hcache : ∀ e ∈ cache.seen, StoredAs s.signals e.1 e.2) : CachesAgree (s.setCache i engine cache) := by
  intro x hx
  rcases List.mem_or_eq_of_mem_set hx with hx | rfl
  · exact h x hx
  · exact hcache

/-- What a call holds are the hashes of its signal, and what it knows of the table is so. -/
def IngestCall.Backed (signals : Signals) (c : IngestCall) : Prop :=
  match c.pc with
  | .find w | .insert w | .refetch w => c.signal.work = .ok w
  | .decide w .conflict => c.signal.work = .ok w ∧ StoredOther signals w
  | .decide w _ | .fanOut w => c.signal.work = .ok w ∧ StoredAs signals w.identityKey w.contentHash
  | .returned r =>
    (r.state = .duplicate → ∃ w, c.signal.work = .ok w ∧ StoredAs signals w.identityKey w.contentHash) ∧
      (r.state = .conflict → ∃ w, c.signal.work = .ok w ∧ StoredOther signals w)
  | _ => True

theorem IngestCall.Backed.mono {signals signals' : Signals} (hrows : signals.rows ⊆ signals'.rows)
    (h : c.Backed signals) : c.Backed signals' := by
  unfold IngestCall.Backed at h ⊢
  cases hpc : c.pc with
  | start | raised e => trivial
  | find w | insert w | refetch w => rw [hpc] at h; exact h
  | fanOut w => rw [hpc] at h; exact ⟨h.1, h.2.mono hrows⟩
  | decide w outcome =>
    rw [hpc] at h
    cases outcome with
    | inserted | duplicate => exact ⟨h.1, h.2.mono hrows⟩
    | conflict => exact ⟨h.1, h.2.mono hrows⟩
  | returned r =>
    rw [hpc] at h
    refine ⟨fun hstate => ?_, fun hstate => ?_⟩
    · obtain ⟨w, hwork, hstored⟩ := h.1 hstate
      exact ⟨w, hwork, hstored.mono hrows⟩
    · obtain ⟨w, hwork, hstored⟩ := h.2 hstate
      exact ⟨w, hwork, hstored.mono hrows⟩

@[simp] theorem state_result (w : Work) (state : SignalState) (reason : String) :
    (c.result w state reason).state = state := rfl

@[simp] theorem state_failure (w : Work) : (c.failure w).state = .accepted := rfl

@[simp] theorem state_stored (w : Work) : (c.stored w).state = .persisted := rfl

/-- A call that returns neither a duplicate nor a conflict. -/
theorem backed_returned {signals : Signals} {r : SignalIngestResult} (hduplicate : r.state ≠ .duplicate)
    (hconflict : r.state ≠ .conflict) : IngestCall.Backed signals { c with pc := .returned r } :=
  ⟨fun h => absurd h hduplicate, fun h => absurd h hconflict⟩

theorem backed_duplicate {signals : Signals} {w : Work} (hwork : c.signal.work = .ok w)
    (hstored : StoredAs signals w.identityKey w.contentHash) :
    IngestCall.Backed signals { c with pc := .returned (c.result w .duplicate "duplicate") } :=
  ⟨fun _ => ⟨w, hwork, hstored⟩, fun h => absurd h (by simp)⟩

theorem backed_conflict {signals : Signals} {w : Work} (hwork : c.signal.work = .ok w) (hstored : StoredOther signals w) :
    IngestCall.Backed signals { c with pc := .returned (c.result w .conflict "conflict") } :=
  ⟨fun h => absurd h (by simp), fun _ => ⟨w, hwork, hstored⟩⟩

theorem backed_failure {signals : Signals} (w : Work) :
    IngestCall.Backed signals { c with pc := .returned (c.failure w) } :=
  backed_returned (by simp) (by simp)

/-- **A step keeps caches and call in agreement with the table.** -/
theorem IngestStep.backed (h : IngestStep s c s' pc) (hs : CachesAgree s) (hc : c.Backed s.signals) :
    CachesAgree s' ∧ IngestCall.Backed s'.signals { c with pc := pc } := by
  have hbacked := hc
  unfold IngestCall.Backed at hc
  cases h with
  | idle hended => exact ⟨hs, hbacked⟩
  | raised hengine hpc hadmission => exact ⟨hs, trivial⟩
  | turnedAway hengine hpc hadmission hstate =>
    refine ⟨hs, backed_returned ?_ ?_⟩
    · rcases hstate with hstate | hstate <;> rw [hstate] <;> decide
    · rcases hstate with hstate | hstate <;> rw [hstate] <;> decide
  | @checked engine w pc hengine hpc hadmission hanswer =>
    have hcache : ∀ e ∈ engine.idempotency.seen, StoredAs s.signals e.1 e.2 := hs engine (List.mem_of_getElem? hengine)
    have hwork : c.signal.work = .ok w := admission_proceed hadmission
    refine ⟨hs.setCache (SignalIdempotency.forall_check hcache), ?_⟩
    rcases hanswer with rfl | ⟨rfl, hmem⟩ | ⟨rfl, existing, hne, hmem⟩
    · exact hwork
    · exact backed_duplicate hwork (hcache _ hmem)
    · exact backed_conflict hwork ⟨existing, hne, hcache _ hmem⟩
  | readFailed hpc => exact ⟨hs, backed_failure _⟩
  | vanished hpc hnone => exact ⟨hs, backed_failure _⟩
  | lost hpc how => exact ⟨hs, backed_failure _⟩
  | @found w row hpc hrow =>
    have hwork : c.signal.work = .ok w := by
      rcases hpc with hpc | hpc <;> rw [hpc] at hc <;> exact hc
    refine ⟨hs, ?_⟩
    rcases compareRow_cases hrow with ⟨houtcome, hstored⟩ | ⟨houtcome, hstored⟩
    · rw [houtcome]
      exact ⟨hwork, hstored⟩
    · rw [houtcome]
      exact ⟨hwork, hstored⟩
  | missing hpc => rw [hpc] at hc; exact ⟨hs, hc⟩
  | refused hpc how hrefused => rw [hpc] at hc; exact ⟨hs, hc⟩
  | inserted hpc hinsert =>
    rw [hpc] at hc
    have hrows := List.IsPrefix.subset (IngestStep.inserted hpc hinsert).rows
    exact ⟨hs.mono hrows, hc, (storedAs_inserted hinsert).2⟩
  | unanswered hpc hinsert how =>
    have hrows := List.IsPrefix.subset (IngestStep.unanswered hpc hinsert how).rows
    exact ⟨hs.mono hrows, backed_failure _⟩
  | remembered hengine hpc =>
    rw [hpc] at hc
    exact ⟨hs.setCache (SignalIdempotency.forall_record (hs _ (List.mem_of_getElem? hengine)) hc.2), hc⟩
  | duplicate hengine hpc =>
    rw [hpc] at hc
    exact ⟨hs.setCache (SignalIdempotency.forall_record (hs _ (List.mem_of_getElem? hengine)) hc.2),
      backed_duplicate hc.1 hc.2⟩
  | conflict hpc =>
    rw [hpc] at hc
    exact ⟨hs, backed_conflict hc.1 hc.2⟩
  | told hpc => exact ⟨hs, backed_returned (by simp) (by simp)⟩

end Calls

/-! ### Fan-outs -/

/-- What a row and its fan-out have in common. -/
structure RowRef where
  identityKey : String
  recordId : UUID

def SignalRow.ref (row : SignalRow) : RowRef := ⟨row.identityKey, row.id⟩

def SignalRecord.ref (r : SignalRecord) : RowRef := ⟨r.identityKey, r.recordId⟩

/-- The committed row that its call has not fanned out yet. -/
def IngestCall.pending (c : IngestCall) : Option RowRef :=
  match c.pc with
  | .decide w .inserted | .fanOut w => some (c.row w).ref
  | _ => none

def signalOutbox : Outbox SignalShared IngestCall RowRef String where
  committed s := s.signals.rows.map SignalRow.ref
  announced s := s.fannedOut.map SignalRecord.ref
  pending := IngestCall.pending
  key := RowRef.identityKey

section FanOut

variable {s s' : SignalShared} {c : IngestCall} {pc : IngestPc}

theorem pending_compareRow (c : IngestCall) (row : SignalRow) (w : Work) :
    IngestCall.pending { c with pc := .decide w (compareRow row w) } = none := by
  unfold compareRow
  split_ifs <;> rfl

/-- **A step commits or fans out at most one row**, and fans out what it committed. -/
theorem IngestStep.move (h : IngestStep s c s' pc) : signalOutbox.Move s s' c { c with pc := pc } := by
  have hrows : signalOutbox.committed s ⊆ signalOutbox.committed s' := List.map_subset _ h.rows.subset
  cases h with
  | idle hended => exact .quiet hrows rfl rfl
  | raised | turnedAway | readFailed | missing | vanished | unanswered | refused | lost | duplicate | conflict =>
    exact .drop hrows rfl rfl
  | checked hengine hpc hadmission hanswer =>
    refine .drop hrows rfl ?_
    rcases hanswer with rfl | ⟨rfl, -⟩ | ⟨rfl, -⟩ <;> rfl
  | found hpc hrow => exact .drop hrows rfl (pending_compareRow c _ _)
  | @inserted w signals hpc hinsert =>
    obtain ⟨hnone, hnew⟩ := insertSignal_eq_some hinsert
    refine .commit (c.row w).ref hrows ?_ ?_ rfl ?_ rfl
    · show (c.row w).identityKey ∉ _
      rw [signalOutbox, List.map_map]
      exact Table.get_eq_none_iff.mp hnone
    · exact List.mem_map_of_mem (storedAs_inserted hinsert).1
    · show c.pending = none
      rw [IngestCall.pending, hpc]
  | @remembered engine w hengine hpc =>
    refine .quiet hrows rfl ?_
    show some _ = c.pending
    rw [IngestCall.pending, hpc]
    rfl
  | @told w hpc =>
    refine .announce (c.row w).ref hrows ?_ List.map_append rfl
    show c.pending = _
    rw [IngestCall.pending, hpc]

theorem pending_eq_some {r : RowRef} (h : c.pending = some r) :
    ∃ w, (c.pc = .decide w .inserted ∨ c.pc = .fanOut w) ∧ r = (c.row w).ref := by
  unfold IngestCall.pending at h
  split at h
  · rename_i w hpc
    exact ⟨w, .inl hpc, (Option.some.inj h).symm⟩
  · rename_i w hpc
    exact ⟨w, .inr hpc, (Option.some.inj h).symm⟩
  · cases h

theorem IngestStep.fannedOut (h : IngestStep s c s' pc) : s.fannedOut ⊆ s'.fannedOut := by
  cases h with
  | told hpc => exact List.subset_append_left _ _
  | _ => exact List.Subset.refl _

/-- A committed row is kept in mind until it is fanned out. -/
theorem pending_next {r : RowRef} (h : c.pending = some r) :
    r ∈ signalOutbox.announced (c.next s).1 ∨ (c.next s).2.pending = some r := by
  obtain ⟨w, hpc, rfl⟩ := pending_eq_some h
  unfold IngestCall.next
  cases s.engines[c.engine]? with
  | none => exact .inr h
  | some engine =>
    rcases hpc with hpc | hpc
    · dsimp only
      rw [hpc]
      exact .inr rfl
    · dsimp only
      rw [hpc]
      have hmem : c.record w ∈ s.fannedOut ++ [c.record w] := List.mem_append_right _ (List.mem_singleton_self _)
      exact .inl (List.mem_map.mpr ⟨_, hmem, rfl⟩)

end FanOut

end AlphaAlgo.Signal
