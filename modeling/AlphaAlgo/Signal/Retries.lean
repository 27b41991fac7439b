import AlphaAlgo.Signal.Runs

/-!
# Retries — what becomes of a signal that the engine admits and the database answers

The failures of other calls leave nothing behind that could keep a later call from storing and fanning out its signal,
except a row that was stored without an answer: its call reports a failure, and a later call reports a duplicate.

* `IngestStep.answered`: a call that the database answers finds its identity stored.
* `ingest_sound`: one row and at most one fan-out for each identity, caches and outcomes that agree with the table, and
  what becomes of a signal whatever failed before.
-/

namespace AlphaAlgo.Signal

open Runs

/-! ### Answered calls -/

/-- The configurations of the engines. -/
def SignalShared.configs (s : SignalShared) : List EngineConfig := s.engines.map SignalEngine.config

/-- The engine admits the signal of the call, and the database answers. -/
structure IngestCall.Served (configs : List EngineConfig) (c : IngestCall) (w : Work) : Prop where
  admitted : ∃ config, configs[c.engine]? = some config ∧ admission config c.signal c.tradingMode c.env = .ok (.proceed w)
  reads : c.env.readFails = false
  commits : c.env.insertion = .answered
  integrity : c.env.integrityFails = false
  rereads : c.env.rereadFails = false

/-- A row of another identity has one of the ids of the row that the call stores. -/
def IngestCall.Obstructed (signals : Signals) (c : IngestCall) (w : Work) : Prop :=
  ∃ row ∈ signals.rows, row.identityKey ≠ w.identityKey ∧ (row.id = c.env.recordId ∨ row.signalId = c.signal.signalId)

/-- The identity is stored, unless the call is obstructed. -/
def IngestCall.Settled (signals : Signals) (c : IngestCall) (w : Work) : Prop :=
  (∃ row ∈ signals.rows, row.identityKey = w.identityKey) ∨ c.Obstructed signals w

/-- A call that the database answers finds its identity when it is refused, and has found it when it ends. -/
def IngestCall.Answered (configs : List EngineConfig) (signals : Signals) (c : IngestCall) : Prop :=
  ∀ w, c.Served configs w →
    match c.pc with
    | .refetch _ | .returned _ => c.Settled signals w
    | .raised _ => False
    | _ => True

section Answered

variable {s s' : SignalShared} {c : IngestCall} {pc : IngestPc} {signals signals' : Signals} {w : Work}
  {cs : List EngineConfig}

theorem configs_setCache {engine : SignalEngine} (hengine : s.engines[c.engine]? = some engine)
    (cache : SignalIdempotency) : (s.setCache c.engine engine cache).configs = s.configs := by
  obtain ⟨hi, rfl⟩ := List.getElem?_eq_some_iff.mp hengine
  unfold SignalShared.configs SignalShared.setCache
  rw [List.map_set]
  show (s.engines.map SignalEngine.config).set c.engine (SignalEngine.config s.engines[c.engine]) = _
  rw [← List.map_set, List.set_getElem_self]

/-- Configurations stay. -/
theorem IngestStep.configs (h : IngestStep s c s' pc) : s'.configs = s.configs := by
  cases h with
  | checked hengine | remembered hengine | duplicate hengine => exact configs_setCache hengine _
  | _ => rfl

theorem IngestCall.Served.work (h : c.Served cs w) : c.signal.work = .ok w := by
  obtain ⟨config, -, hadmission⟩ := h.admitted
  exact admission_proceed hadmission

theorem IngestCall.Served.of_pc (h : IngestCall.Served cs { c with pc := pc } w) : c.Served cs w :=
  ⟨h.admitted, h.reads, h.commits, h.integrity, h.rereads⟩

/-- The admission by the engine of the call. -/
theorem IngestCall.Served.admission_eq (h : c.Served s.configs w) {engine : SignalEngine}
    (hengine : s.engines[c.engine]? = some engine) :
    admission engine.config c.signal c.tradingMode c.env = .ok (.proceed w) := by
  obtain ⟨config, hconfig, hadmission⟩ := h.admitted
  unfold SignalShared.configs at hconfig
  rw [List.getElem?_map, hengine] at hconfig
  cases hconfig
  exact hadmission

theorem IngestCall.Settled.mono (hrows : signals.rows ⊆ signals'.rows) (h : c.Settled signals w) :
    c.Settled signals' w := by
  rcases h with ⟨row, hrow, hkey⟩ | ⟨row, hrow, hother⟩
  · exact .inl ⟨row, hrows hrow, hkey⟩
  · exact .inr ⟨row, hrows hrow, hother⟩

theorem IngestCall.Answered.mono (hrows : signals.rows ⊆ signals'.rows) (h : c.Answered cs signals) :
    c.Answered cs signals' := by
  intro w hw
  have hc := h w hw
  cases hpc : c.pc with
  | start | find w' | insert w' | decide w' outcome | fanOut w' => trivial
  | raised e => rw [hpc] at hc; exact hc
  | refetch w' | returned r => rw [hpc] at hc; exact hc.mono hrows

theorem StoredAs.settled {hash : String} (h : StoredAs signals w.identityKey hash) : c.Settled signals w := by
  obtain ⟨row, hrow, hkey, -⟩ := h
  exact .inl ⟨row, hrow, hkey⟩

theorem StoredOther.settled (h : StoredOther signals w) : c.Settled signals w := by
  obtain ⟨existing, -, hstored⟩ := h
  exact hstored.settled

/-- A unique column refuses a row. -/
theorem settled_refused (h : insertSignal signals (c.row w) = none) : c.Settled signals w := by
  unfold insertSignal at h
  split_ifs at h with haccepts
  · obtain ⟨row, hget⟩ := Option.isSome_iff_exists.mp (Table.insert?_eq_none h)
    obtain ⟨hrow, hkey⟩ := Table.get_eq_some_iff.mp hget
    exact .inl ⟨row, hrow, hkey⟩
  · unfold accepts at haccepts
    rw [List.all_eq_true] at haccepts
    push Not at haccepts
    obtain ⟨row, hrow, hsame⟩ := haccepts
    by_cases hkey : row.identityKey = w.identityKey
    · exact .inl ⟨row, hrow, hkey⟩
    · refine .inr ⟨row, hrow, hkey, ?_⟩
      by_contra hne
      rw [not_or] at hne
      exact hsame (by simp [IngestCall.row, toOrmSignal, hne.1, hne.2])

/-- **A step of a call that the database answers.** -/
theorem IngestStep.answered (h : IngestStep s c s' pc) (hs : CachesAgree s) (hbacked : c.Backed s.signals)
    (hc : c.Answered s.configs s.signals) : IngestCall.Answered s'.configs s'.signals { c with pc := pc } := by
  rw [h.configs]
  intro w hserved
  have hw : c.Served s.configs w := hserved.of_pc
  have hbefore := hc w hw
  unfold IngestCall.Backed at hbacked
  cases h with
  | idle hended => exact hbefore
  | raised hengine hpc hadmission =>
    rw [hw.admission_eq hengine] at hadmission
    cases hadmission
  | turnedAway hengine hpc hadmission hstate => exact absurd (hw.admission_eq hengine) (hadmission w)
  | @checked engine w' pc hengine hpc hadmission hanswer =>
    rw [hw.admission_eq hengine] at hadmission
    cases hadmission
    have hcache := hs engine (List.mem_of_getElem? hengine)
    rcases hanswer with rfl | ⟨rfl, hmem⟩ | ⟨rfl, existing, -, hmem⟩
    · trivial
    · exact (hcache _ hmem).settled
    · exact (hcache _ hmem).settled
  | readFailed hpc =>
    rcases hpc with ⟨-, hfails⟩ | ⟨-, hfails⟩
    · rw [hw.reads] at hfails
      cases hfails
    · rw [hw.rereads] at hfails
      cases hfails
  | found | missing | inserted | remembered => trivial
  | vanished hpc hnone => rw [hpc] at hbefore; exact hbefore
  | unanswered hpc hinsert how =>
    rw [hw.commits] at how
    cases how
  | @refused w' hpc how hrefused =>
    rw [hpc] at hbacked
    have hsame : w' = w := Except.ok.inj (hbacked.symm.trans hw.work)
    subst hsame
    rcases hrefused with hfails | hrefused
    · rw [hw.integrity] at hfails
      cases hfails
    · exact settled_refused hrefused
  | lost hpc how => exact absurd hw.commits how
  | @duplicate engine w' hengine hpc =>
    rw [hpc] at hbacked
    have hsame : w' = w := Except.ok.inj (hbacked.1.symm.trans hw.work)
    subst hsame
    exact hbacked.2.settled
  | @conflict w' hpc =>
    rw [hpc] at hbacked
    have hsame : w' = w := Except.ok.inj (hbacked.1.symm.trans hw.work)
    subst hsame
    exact hbacked.2.settled
  | @told w' hpc =>
    rw [hpc] at hbacked
    have hsame : w' = w := Except.ok.inj (hbacked.1.symm.trans hw.work)
    subst hsame
    exact hbacked.2.settled

end Answered

/-! ### Rows and their fan-outs -/

/-- The row was stored by a commit that gave no answer. -/
def IngestCall.Unseen (c : IngestCall) (row : SignalRow) : Prop :=
  c.env.insertion = .unanswered ∧ ∃ w, c.pc = .returned (c.failure w) ∧ row = c.row w

/-- The row is fanned out, or its call is about to fan it out. -/
def SignalRow.OnItsWay (p : SignalSystem) (row : SignalRow) : Prop :=
  (∃ r ∈ p.shared.fannedOut, r.ref = row.ref) ∨ ∃ c ∈ p.calls, c.pending = some row.ref

/-- The row was there at first, is on its way, or was stored without an answer. -/
def SignalRow.Traced (p₀ p : SignalSystem) (row : SignalRow) : Prop :=
  row ∈ p₀.shared.signals.rows ∨ row.OnItsWay p ∨ ∃ c ∈ p.calls, c.Unseen row

section Traced

variable {p₀ p : SignalSystem} {s s' : SignalShared} {c : IngestCall} {pc : IngestPc} {row : SignalRow} {i : ℕ}

theorem onItsWay_iff : row.OnItsWay p ↔ row.ref ∈ signalOutbox.records p := by
  unfold SignalRow.OnItsWay Outbox.records
  rw [List.mem_append, List.mem_filterMap]
  exact or_congr_left List.mem_map.symm

/-- A row that a step adds. -/
theorem IngestStep.row_cases (h : IngestStep s c s' pc) (hrow : row ∈ s'.signals.rows) : row ∈ s.signals.rows ∨
    IngestCall.pending { c with pc := pc } = some row.ref ∨ IngestCall.Unseen { c with pc := pc } row := by
  cases h with
  | inserted hpc hinsert =>
    rw [(insertSignal_eq_some hinsert).2] at hrow
    rcases List.mem_append.mp hrow with hrow | hrow
    · exact .inl hrow
    · rw [List.mem_singleton.mp hrow]
      exact .inr (.inl rfl)
  | @unanswered w signals hpc hinsert how =>
    rw [(insertSignal_eq_some hinsert).2] at hrow
    rcases List.mem_append.mp hrow with hrow | hrow
    · exact .inl hrow
    · exact .inr (.inr ⟨how, w, rfl, List.mem_singleton.mp hrow⟩)
  | _ => exact .inl hrow

/-- A call that has returned takes no more steps. -/
theorem next_returned (h : ∃ r, c.pc = .returned r) : c.next s = (s, c) := by
  obtain ⟨r, hpc⟩ := h
  unfold IngestCall.next
  cases s.engines[c.engine]? with
  | none => rfl
  | some engine =>
    dsimp only
    rw [hpc]

theorem IngestCall.Unseen.next (h : c.Unseen row) : (c.next s).2 = c := by
  obtain ⟨-, w, hpc, -⟩ := h
  rw [next_returned ⟨_, hpc⟩]

theorem SignalRow.OnItsWay.step (h : row.OnItsWay p) : row.OnItsWay (p.step IngestCall.next i) := by
  rw [onItsWay_iff] at h ⊢
  refine Outbox.mem_records_step (fun c _ => ?_) (fun c _ r hr => pending_next hr) h
  exact List.map_subset _ (ingestStep_next p.shared c).fannedOut

theorem SignalRow.Traced.step (h : row.Traced p₀ p) : row.Traced p₀ (p.step IngestCall.next i) := by
  rcases h with h | h | ⟨d, hd, hunseen⟩
  · exact .inl h
  · exact .inr (.inl h.step)
  · refine .inr (.inr ⟨d, ?_, hunseen⟩)
    cases hc : p.calls[i]? with
    | none => rwa [Pool.step_of_none hc]
    | some c =>
      rcases Pool.mem_step IngestCall.next hc hd with rfl | hd
      · have hmem := Pool.next_mem_step IngestCall.next hc
        rwa [hunseen.next] at hmem
      · exact hd

end Traced

/-! ### All calls -/

/-- What holds of the engines, the table and the calls. -/
structure IngestInv (p₀ p : SignalSystem) : Prop where
  configs : p.shared.configs = p₀.shared.configs
  caches : CachesAgree p.shared
  backed : ∀ c ∈ p.calls, c.Backed p.shared.signals
  answered : ∀ c ∈ p.calls, c.Answered p.shared.configs p.shared.signals
  outbox : signalOutbox.Inv p
  traced : ∀ row ∈ p.shared.signals.rows, row.Traced p₀ p

theorem IngestInv.step {p₀ p : SignalSystem} (h : IngestInv p₀ p) (i : ℕ) :
    IngestInv p₀ (p.step IngestCall.next i) := by
  have houtbox : signalOutbox.Inv (p.step IngestCall.next i) := h.outbox.step fun c _ => by
    have hstep := ingestStep_next p.shared c
    rw [next_eq]
    exact hstep.move
  cases hc : p.calls[i]? with
  | none => rw [Pool.step_of_none hc]; exact h
  | some c =>
    have hstep := ingestStep_next p.shared c
    have hmem : c ∈ p.calls := List.mem_of_getElem? hc
    have hshared : (p.step IngestCall.next i).shared = (c.next p.shared).1 := by rw [Pool.step_of_some hc]
    have hrows := hstep.rows.subset
    obtain ⟨hcaches, hbacked⟩ := hstep.backed h.caches (h.backed c hmem)
    have hanswered := hstep.answered h.caches (h.backed c hmem) (h.answered c hmem)
    rw [← next_eq] at hbacked hanswered
    refine ⟨?_, ?_, ?_, ?_, houtbox, fun row hrow => ?_⟩
    · rw [hshared, hstep.configs, h.configs]
    · rw [hshared]
      exact hcaches
    · rw [hshared]
      exact Pool.forall_step hc (fun d hd => (h.backed d hd).mono hrows) hbacked
    · rw [hshared]
      refine Pool.forall_step hc (fun d hd => ?_) hanswered
      rw [hstep.configs]
      exact (h.answered d hd).mono hrows
    · rw [hshared] at hrow
      have hnext := Pool.next_mem_step IngestCall.next hc
      rw [next_eq] at hnext
      rcases hstep.row_cases hrow with hold | hpending | hunseen
      · exact (h.traced row hold).step
      · exact .inr (.inl (.inr ⟨_, hnext, hpending⟩))
      · exact .inr (.inr ⟨_, hnext, hunseen⟩)

/-- The engines have empty caches and nothing is fanned out; every call is still to be made. -/
structure Started (p : SignalSystem) : Prop where
  caches : ∀ engine ∈ p.shared.engines, engine.idempotency.seen = []
  silent : p.shared.fannedOut = []
  start : ∀ c ∈ p.calls, c.pc = .start

theorem ingestInv_started {p : SignalSystem} (h : Started p) : IngestInv p p := by
  refine ⟨rfl, fun engine hengine e he => ?_, fun c hc => ?_, fun c hc w _ => ?_, Outbox.inv_start ?_ fun c hc => ?_,
    fun row hrow => .inl hrow⟩
  · rw [h.caches engine hengine] at he
    cases he
  · unfold IngestCall.Backed
    rw [h.start c hc]
    trivial
  · rw [h.start c hc]
    trivial
  · show p.shared.fannedOut.map _ = []
    rw [h.silent, List.map_nil]
  · show c.pending = none
    rw [IngestCall.pending, h.start c hc]

/-- **The engines in every run.** -/
theorem ingestInv_run {p : SignalSystem} (h : Started p) (l : List ℕ) : IngestInv p (ingestSchedule p l) :=
  run_invariant _ (IngestInv p) (fun _ i hq => hq.step i) (ingestInv_started h) l

/-! ### Steps of one call -/

/-- The steps that a call has at most. -/
def IngestPc.rank : IngestPc → ℕ
  | .start => 6
  | .find _ => 5
  | .insert _ => 4
  | .refetch _ => 3
  | .decide _ _ => 2
  | .fanOut _ => 1
  | .returned _ => 0
  | .raised _ => 0

section Rank

variable {s s' : SignalShared} {c : IngestCall} {pc : IngestPc}

/-- Every step of a call brings it closer to its end. -/
theorem IngestStep.rank (h : IngestStep s c s' pc) (hengine : s.engines[c.engine]? ≠ none) :
    pc.rank ≤ c.pc.rank - 1 := by
  cases h with
  | idle hended =>
    rcases hended with hnone | ⟨r, hpc⟩ | ⟨e, hpc⟩
    · exact absurd hnone hengine
    · rw [hpc]
      exact le_refl _
    · rw [hpc]
      exact le_refl _
  | checked _ hpc _ hanswer =>
    rw [hpc]
    rcases hanswer with rfl | ⟨rfl, -⟩ | ⟨rfl, -⟩
    · exact le_refl _
    · exact Nat.zero_le _
    · exact Nat.zero_le _
  | readFailed hpc =>
    rcases hpc with ⟨hpc, -⟩ | ⟨hpc, -⟩ <;> rw [hpc] <;> exact Nat.zero_le _
  | found hpc =>
    rcases hpc with hpc | hpc
    · rw [hpc]
      exact (by decide : 2 ≤ 5 - 1)
    · rw [hpc]
      exact le_refl _
  | raised | turnedAway | vanished | unanswered | lost | duplicate | conflict | told => exact Nat.zero_le _
  | missing hpc | refused hpc | remembered _ hpc => rw [hpc]; exact le_refl _
  | inserted hpc => rw [hpc]; exact (by decide : 2 ≤ 4 - 1)

/-- A call with no step left has ended. -/
theorem rank_eq_zero (h : pc.rank = 0) : (∃ r, pc = .returned r) ∨ ∃ e, pc = .raised e := by
  cases pc with
  | returned r => exact .inl ⟨r, rfl⟩
  | raised e => exact .inr ⟨e, rfl⟩
  | _ => cases h

end Rank

/-- A call has at most six steps, whatever the others do. -/
theorem call_ends {p : SignalSystem} {i : ℕ} {c : IngestCall} (hc : p.calls[i]? = some c)
    (hengine : c.engine < p.shared.engines.length) {l : List ℕ} (hl : 6 ≤ l.count i) (hpc : c.pc = .start) :
    ∃ pc : IngestPc, (ingestSchedule p l).calls[i]? = some { c with pc := pc } ∧ pc.rank = 0 := by
  -- the call differs from `c` in its program counter only
  let Good : SignalShared → IngestCall → Prop :=
    fun s d => s.configs = p.shared.configs ∧ d = { c with pc := d.pc }
  have hothers : ∀ s d e, Good s d → Good (IngestCall.next s e).1 d := by
    rintro s d e ⟨hconfigs, hsame⟩
    exact ⟨(ingestStep_next s e).configs.trans hconfigs, hsame⟩
  have hown : ∀ s d, Good s d → Good (IngestCall.next s d).1 (IngestCall.next s d).2 ∧
      (IngestCall.next s d).2.pc.rank ≤ d.pc.rank - 1 := by
    rintro s d ⟨hconfigs, hsame⟩
    have hstep := ingestStep_next s d
    have hlength : s.engines.length = p.shared.engines.length := by
      simpa [SignalShared.configs] using congrArg List.length hconfigs
    refine ⟨⟨hstep.configs.trans hconfigs, ?_⟩, hstep.rank ?_⟩
    · rw [next_eq, hsame]
    · rw [hsame]
      simp [hlength, hengine]
  obtain ⟨d, hd, ⟨-, hsame⟩, hrank⟩ := Pool.rank_run IngestCall.next (fun d => d.pc.rank) Good hothers hown l hc ⟨rfl, rfl⟩
  refine ⟨d.pc, hsame ▸ hd, ?_⟩
  have hstart : c.pc.rank = 6 := by rw [hpc]; rfl
  omega

/-- Calls that have all returned take no more steps. -/
theorem run_of_ended {p : SignalSystem} (h : ∀ c ∈ p.calls, ∃ r, c.pc = .returned r) (l : List ℕ) :
    ingestSchedule p l = p := by
  have hstep : ∀ i, p.step IngestCall.next i = p := by
    intro i
    cases hc : p.calls[i]? with
    | none => exact Pool.step_of_none hc
    | some c =>
      obtain ⟨hi, rfl⟩ := List.getElem?_eq_some_iff.mp hc
      rw [Pool.step_of_some hc, next_returned (h _ (List.getElem_mem hi)), List.set_getElem_self]
  induction l with
  | nil => rfl
  | cons i l ih =>
    rw [ingestSchedule, run_cons, hstep]
    exact ih

/-! ### The ingestion -/

/-- What holds of the engines at every moment. -/
structure IngestSound (p : SignalSystem) : Prop where
  stored_once : (p.shared.signals.rows.map SignalRow.identityKey).Nodup
  fanned_out_once : (p.shared.fannedOut.map SignalRecord.identityKey).Nodup
  fanned_out_stored : ∀ r ∈ p.shared.fannedOut,
    ∃ row ∈ p.shared.signals.rows, row.identityKey = r.identityKey ∧ row.id = r.recordId
  cache_agrees : CachesAgree p.shared
  duplicate_stored : ∀ c ∈ p.calls, ∀ r, c.pc = .returned r → r.state = .duplicate →
    ∃ w, c.signal.work = .ok w ∧ StoredAs p.shared.signals w.identityKey w.contentHash
  conflict_stored : ∀ c ∈ p.calls, ∀ r, c.pc = .returned r → r.state = .conflict →
    ∃ w, c.signal.work = .ok w ∧ StoredOther p.shared.signals w

/-- What becomes of the signal of call `i`: it is stored, and fanned out by the call that stored it; or another row has
one of its ids, or its identity is stored with other content. -/
def Delivered (p₀ p : SignalSystem) (i : ℕ) (c : IngestCall) (w : Work) : Prop :=
  ∃ r, p.calls[i]? = some { c with pc := .returned r } ∧
    (c.Obstructed p.shared.signals w ∨ StoredOther p.shared.signals w ∨
      ∃ row ∈ p.shared.signals.rows, row.identityKey = w.identityKey ∧ row.contentHash = w.contentHash ∧
        row.Traced p₀ p)

theorem IngestInv.sound {p₀ p : SignalSystem} (h : IngestInv p₀ p) : IngestSound p := by
  refine ⟨p.shared.signals.unique, ?_, fun r hr => ?_, h.caches, fun c hc r hpc => ?_, fun c hc r hpc => ?_⟩
  · have honce := h.outbox.announced_once
    have hmap : signalOutbox.announced p.shared = p.shared.fannedOut.map SignalRecord.ref := rfl
    rw [hmap, List.map_map] at honce
    exact honce
  · obtain ⟨row, hrow, href⟩ := List.mem_map.mp
      (h.outbox.announced_stored _ (List.mem_map_of_mem hr : r.ref ∈ p.shared.fannedOut.map SignalRecord.ref))
    exact ⟨row, hrow, congrArg RowRef.identityKey href, congrArg RowRef.recordId href⟩
  · have hbacked := h.backed c hc
    unfold IngestCall.Backed at hbacked
    rw [hpc] at hbacked
    exact hbacked.1
  · have hbacked := h.backed c hc
    unfold IngestCall.Backed at hbacked
    rw [hpc] at hbacked
    exact hbacked.2

/-- The rows of a run stay. -/
theorem rows_run (p : SignalSystem) (l : List ℕ) :
    p.shared.signals.rows ⊆ (ingestSchedule p l).shared.signals.rows := by
  refine run_invariant _ (fun q : SignalSystem => p.shared.signals.rows ⊆ q.shared.signals.rows) (fun q i hq => ?_)
    (List.Subset.refl _) l
  cases hc : q.calls[i]? with
  | none => rwa [Pool.step_of_none hc]
  | some c =>
    rw [Pool.step_of_some hc]
    exact List.Subset.trans hq (ingestStep_next q.shared c).rows.subset

/-- A call that the database answers has found its identity when it has ended. -/
theorem delivered_run {p : SignalSystem} (h : Started p) {l : List ℕ} {i : ℕ} {c : IngestCall} {w : Work}
    (hc : p.calls[i]? = some c) (hw : c.Served p.shared.configs w) (hl : 6 ≤ l.count i) :
    Delivered p (ingestSchedule p l) i c w := by
  have hinv := ingestInv_run h l
  have hengine : c.engine < p.shared.engines.length := by
    obtain ⟨config, hconfig, -⟩ := hw.admitted
    obtain ⟨hlt, -⟩ := List.getElem?_eq_some_iff.mp hconfig
    simpa [SignalShared.configs] using hlt
  obtain ⟨pc, hend, hrank⟩ := call_ends hc hengine hl (h.start c (List.mem_of_getElem? hc))
  have hanswered := hinv.answered _ (List.mem_of_getElem? hend) w
    (by rw [hinv.configs]; exact ⟨hw.admitted, hw.reads, hw.commits, hw.integrity, hw.rereads⟩)
  rcases rank_eq_zero hrank with ⟨r, rfl⟩ | ⟨e, rfl⟩
  · refine ⟨r, hend, ?_⟩
    rcases hanswered with ⟨row, hrow, hkey⟩ | hobstructed
    · by_cases hsame : row.contentHash = w.contentHash
      · exact .inr (.inr ⟨row, hrow, hkey, hsame, hinv.traced row hrow⟩)
      · exact .inr (.inl ⟨row.contentHash, hsame, row, hrow, hkey, rfl⟩)
    · exact .inl hobstructed
  · exact hanswered.elim

/-- **The ingestion is sound on every schedule**: one row and at most one fan-out for each identity, content that stays,
caches and outcomes that agree with it; and a signal that is admitted while the database answers is delivered, whatever
failed before. -/
theorem ingest_sound {p : SignalSystem} (h : Started p) (l : List ℕ) :
    IngestSound (ingestSchedule p l) ∧
      (∀ l' key row, (ingestSchedule p l).shared.signals.get key = some row →
        (ingestSchedule p (l ++ l')).shared.signals.get key = some row) ∧
      ∀ i c w, p.calls[i]? = some c → c.Served p.shared.configs w → 6 ≤ l.count i →
        Delivered p (ingestSchedule p l) i c w := by
  refine ⟨(ingestInv_run h l).sound, fun l' key row hrow => ?_, fun i c w hc hw hl => delivered_run h hc hw hl⟩
  obtain ⟨hmem, hkey⟩ := Table.get_eq_some_iff.mp hrow
  rw [ingestSchedule, run_append]
  exact Table.get_eq_some_iff.mpr ⟨rows_run _ l' hmem, hkey⟩

/-! A signal whose first commit fails, and its retry. -/

def sampleTime : DateTime := ⟨2026, 8, 12, 9, 30, 0, 0, some 0⟩

theorem sample_confidence : 0 ≤ (⟨false, 8, -1⟩ : Dec).val ∧ (⟨false, 8, -1⟩ : Dec).val ≤ 1 := by decide +kernel

def sampleSignal : StrategySignal where
  signalId := ⟨1⟩
  strategyId := ⟨2⟩
  strategyVersion := "1.0.0"
  strategyConfigHash := "c0ffee"
  instrumentId := ⟨3⟩
  action := .buy
  timestamp := sampleTime
  confidence := ⟨false, 8, -1⟩
  reason := "breakout"
  metadata := [("event_timestamp", .datetime sampleTime)]
  confidence_range := sample_confidence
  timestamp_aware := rfl

/-- A call with the record id `n`. -/
def sampleCall (n : BitVec 128) (insertion : Commit) : IngestCall where
  engine := 0
  signal := sampleSignal
  tradingMode := "PAPER"
  env := {
    directory := fun _ => some ⟨"1.0.0", "c0ffee", none, true, none⟩
    validatedAt := sampleTime
    eventValidatedAt := sampleTime
    agedAt := sampleTime
    processedAt := sampleTime
    recordId := ⟨n⟩
    insertion := insertion }

/-- Call 0 commits as `insertion` says, call 1 is the retry. -/
def samplePool (insertion : Commit) : SignalSystem :=
  ⟨⟨[{ idempotency := ⟨100000, [], Nat.succ_le_succ (Nat.zero_le _)⟩ }], Table.empty, []⟩,
    [sampleCall 4 insertion, sampleCall 5 .answered]⟩

theorem started_samplePool (insertion : Commit) : Started (samplePool insertion) where
  caches := by simp [samplePool]
  silent := rfl
  start := by simp [samplePool, sampleCall]

/-- The identity and the content of the signal. -/
def sampleWork : Work := ⟨sampleSignal.identityKey sampleTime, sampleSignal.contentHash sampleTime⟩

theorem admission_sample (insertion : Commit) :
    admission {} sampleSignal "PAPER" (sampleCall 5 insertion).env = .ok (.proceed sampleWork) := by
  have hvalidate : validate {} sampleSignal "PAPER" (sampleCall 5 .answered).env = .ok () := by decide +kernel
  have htime : sampleSignal.eventTimestamp = .ok sampleTime := by decide +kernel
  have hsame : validate {} sampleSignal "PAPER" (sampleCall 5 insertion).env = .ok () := hvalidate
  unfold admission StrategySignal.work
  rw [hsame, htime]
  rfl

/-- The database answers the retry. -/
theorem served_sample (insertion : Commit) :
    (sampleCall 5 .answered).Served (samplePool insertion).shared.configs sampleWork where
  admitted := ⟨{}, rfl, admission_sample .answered⟩
  reads := rfl
  commits := rfl
  integrity := rfl
  rereads := rfl

/-- What a call has returned, with its reason. -/
def IngestCall.outcome (c : IngestCall) : Option (SignalState × String) :=
  match c.pc with
  | .returned r => some (r.state, r.reason)
  | _ => none

theorem returned_of_outcome {c : IngestCall} {o : SignalState × String} (h : c.outcome = some o) :
    ∃ r, c.pc = .returned r := by
  unfold IngestCall.outcome at h
  split at h
  · rename_i r hpc
    exact ⟨r, hpc⟩
  · cases h

/-- The call that fails, then the retry. -/
def sampleDay : List ℕ := [0, 0, 0, 1, 1, 1, 1, 1, 1]

/-- After a commit that stored nothing the retry stores and fans out the signal. -/
theorem ingest_sound_sample :
    (ingestSchedule (samplePool .lost) sampleDay).calls.map IngestCall.outcome =
        [some (.accepted, "persistence_failure"), some (.persisted, "")] ∧
      (ingestSchedule (samplePool .lost) sampleDay).shared.fannedOut.map SignalRecord.recordId = [⟨5⟩] ∧
      IngestSound (ingestSchedule (samplePool .lost) sampleDay) ∧
      Delivered (samplePool .lost) (ingestSchedule (samplePool .lost) sampleDay) 1 (sampleCall 5 .answered)
        sampleWork := by
  have hday : (ingestSchedule (samplePool .lost) sampleDay).calls.map IngestCall.outcome =
        [some (.accepted, "persistence_failure"), some (.persisted, "")] ∧
      (ingestSchedule (samplePool .lost) sampleDay).shared.fannedOut.map SignalRecord.recordId = [⟨5⟩] := by decide +kernel
  obtain ⟨hsound, -, hdelivered⟩ := ingest_sound (started_samplePool .lost) sampleDay
  refine ⟨hday.1, hday.2, hsound, ?_⟩
  exact hdelivered 1 _ _ rfl (served_sample .lost) (by decide)

/-- After a commit that stored the row without an answer the retry is a duplicate, and nothing is ever fanned out. -/
theorem not_fanned_out_unanswered : Started (samplePool .unanswered) ∧
    (sampleCall 5 .answered).Served (samplePool .unanswered).shared.configs sampleWork ∧
      (ingestSchedule (samplePool .unanswered) sampleDay).calls.map IngestCall.outcome =
        [some (.accepted, "persistence_failure"), some (.duplicate, "duplicate")] ∧
      ∀ l, (ingestSchedule (samplePool .unanswered) (sampleDay ++ l)).shared.fannedOut = [] := by
  have hday : (ingestSchedule (samplePool .unanswered) sampleDay).calls.map IngestCall.outcome =
        [some (.accepted, "persistence_failure"), some (.duplicate, "duplicate")] ∧
      (ingestSchedule (samplePool .unanswered) sampleDay).shared.fannedOut.length = 0 := by decide +kernel
  have hended : ∀ c ∈ (ingestSchedule (samplePool .unanswered) sampleDay).calls, ∃ r, c.pc = .returned r := by
    intro c hc
    have hmem : c.outcome ∈ _ := List.mem_map.mpr ⟨c, hc, rfl⟩
    rw [hday.1] at hmem
    rcases List.mem_pair.mp hmem with houtcome | houtcome <;> exact returned_of_outcome houtcome
  refine ⟨started_samplePool _, served_sample _, hday.1, fun l => ?_⟩
  have hrun := run_of_ended hended l
  rw [ingestSchedule] at hrun
  rw [ingestSchedule, run_append, hrun]
  exact List.length_eq_zero_iff.mp hday.2

end AlphaAlgo.Signal
