import AlphaAlgo.Lib.Table
import AlphaAlgo.Signal.Signals

/-!
# Engine — the ingestion of signals

`SignalEngine.ingest` validates a signal, looks its identity up in a bounded cache, stores it in `signals` and hands it to
the consumers.  A call is a program that stops before each access to the cache, to the database and to the consumers, so
that calls of one engine and of several engines over one table interleave.  An engine that was restarted is another engine,
with an empty cache, over the same table.

* `ingestStep_next`: what one step of a call can do.
-/

namespace AlphaAlgo.Signal

/-! ### The cache -/

inductive CacheOutcome where
  | new
  | duplicate
  | conflict
deriving DecidableEq

/-- The content hashes of the identities seen, the oldest first. -/
structure SignalIdempotency where
  maxsize : ℕ
  seen : List (String × String) := []
  maxsize_pos : 1 ≤ maxsize

namespace SignalIdempotency

/-- `move_to_end` of an entry. -/
def touch (cache : SignalIdempotency) (key hash : String) : SignalIdempotency :=
  { cache with seen := cache.seen.filter (·.1 ≠ key) ++ [(key, hash)] }

/-- `check`: a lookup that makes the entry the newest. -/
def check (cache : SignalIdempotency) (key hash : String) : SignalIdempotency × CacheOutcome :=
  match cache.seen.lookup key with
  | none => (cache, .new)
  | some existing => (cache.touch key existing, if existing = hash then .duplicate else .conflict)

/-- `record`: the entry becomes the newest, and the oldest goes when there are too many. -/
def record (cache : SignalIdempotency) (key hash : String) : SignalIdempotency :=
  let cache := cache.touch key hash
  { cache with seen := if cache.maxsize < cache.seen.length then cache.seen.drop 1 else cache.seen }

variable {cache : SignalIdempotency} {key hash : String} {P : String × String → Prop}

theorem forall_touch (h : ∀ e ∈ cache.seen, P e) (hnew : P (key, hash)) : ∀ e ∈ (cache.touch key hash).seen, P e :=
  List.forall_mem_append.mpr ⟨fun e he => h e (List.mem_of_mem_filter he), List.forall_mem_singleton.mpr hnew⟩

/-- A lookup finds an entry of the cache. -/
theorem mem_of_lookup {seen : List (String × String)} {existing : String} (h : seen.lookup key = some existing) :
    (key, existing) ∈ seen := by
  obtain ⟨l, l', rfl, -⟩ := List.lookup_eq_some_iff.mp h
  exact List.mem_append_right _ List.mem_cons_self

theorem forall_check (h : ∀ e ∈ cache.seen, P e) : ∀ e ∈ (cache.check key hash).1.seen, P e := by
  unfold check
  cases hlookup : cache.seen.lookup key with
  | none => exact h
  | some existing => exact forall_touch h (h _ (mem_of_lookup hlookup))

theorem forall_record (h : ∀ e ∈ cache.seen, P e) (hnew : P (key, hash)) : ∀ e ∈ (cache.record key hash).seen, P e := by
  have htouched := forall_touch h hnew
  unfold record
  dsimp only
  split_ifs
  · exact fun e he => htouched e (List.mem_of_mem_drop he)
  · exact htouched

/-- What the cache answers is what it holds. -/
theorem check_cases (cache : SignalIdempotency) (key hash : String) : (cache.check key hash).2 = .new ∨
    ((cache.check key hash).2 = .duplicate ∧ (key, hash) ∈ cache.seen) ∨
      ((cache.check key hash).2 = .conflict ∧ ∃ existing ≠ hash, (key, existing) ∈ cache.seen) := by
  unfold check
  cases hlookup : cache.seen.lookup key with
  | none => exact .inl rfl
  | some existing =>
    have hmem := mem_of_lookup hlookup
    by_cases hsame : existing = hash
    · subst hsame
      exact .inr (.inl ⟨if_pos rfl, hmem⟩)
    · exact .inr (.inr ⟨if_neg hsame, existing, hsame, hmem⟩)

end SignalIdempotency

/-! ### The table `signals` -/

inductive SignalState where
  | received
  | validated
  | accepted
  | persisted
  | rejected
  | duplicate
  | conflict
  | expired
deriving DecidableEq

/-- A row of `signals`; the run id is stored as a `UUID` where its text is one. -/
structure SignalRow where
  id : UUID
  signalId : UUID
  identityKey : String
  contentHash : String
  strategyId : UUID
  strategyVersion : String
  configHash : String
  codeHash : Option String
  runId : Option String
  instrumentId : UUID
  signalTimestamp : DateTime
  action : Risk.SignalAction
  confidence : Dec
  reason : String
  metadata : List (String × MetaValue)
  state : SignalState
  processedAt : DateTime

/-- `to_orm_signal`. -/
def toOrmSignal (id : UUID) (signal : StrategySignal) (w : Work) (state : SignalState) (processedAt : DateTime) :
    SignalRow where
  id := id
  signalId := signal.signalId
  identityKey := w.identityKey
  contentHash := w.contentHash
  strategyId := signal.strategyId
  strategyVersion := signal.strategyVersion
  configHash := signal.strategyConfigHash
  codeHash := signal.codeHash
  runId := signal.runId
  instrumentId := signal.instrumentId
  signalTimestamp := signal.timestamp
  action := signal.action
  confidence := signal.confidence
  reason := signal.reason
  metadata := signal.metadata
  state := state
  processedAt := processedAt

/-- The rows, unique by identity key. -/
abbrev Signals := Table SignalRow String SignalRow.identityKey

/-- The other unique columns. -/
def accepts (signals : Signals) (row : SignalRow) : Bool :=
  signals.rows.all fun r => r.id ≠ row.id && r.signalId ≠ row.signalId

/-- The insertion of a row; `none` when a unique column has its value already. -/
def insertSignal (signals : Signals) (row : SignalRow) : Option Signals :=
  if accepts signals row then signals.insert? row else none

theorem insertSignal_eq_some {signals signals' : Signals} {row : SignalRow} (h : insertSignal signals row = some signals') :
    signals.get row.identityKey = none ∧ signals'.rows = signals.rows ++ [row] := by
  unfold insertSignal at h
  split_ifs at h
  exact Table.insert?_eq_some h

/-- `inserted`, `duplicate` or `conflict`. -/
inductive PersistOutcome where
  | inserted
  | duplicate
  | conflict
deriving DecidableEq

/-- A row with the identity of the signal is compared with it. -/
def compareRow (row : SignalRow) (w : Work) : PersistOutcome :=
  if row.contentHash = w.contentHash then .duplicate else .conflict

/-! ### Calls -/

structure SignalIngestResult where
  state : SignalState
  persisted : Bool := false
  reason : String := ""
  signalId : Option UUID := none
  identityKey : Option String := none
  recordId : Option UUID := none
deriving DecidableEq

structure SignalEngine where
  config : EngineConfig := {}
  idempotency : SignalIdempotency

/-- The next access of a call to what it shares with others. -/
inductive IngestPc where
  | start
  | find (w : Work)
  | insert (w : Work)
  | refetch (w : Work)
  | decide (w : Work) (outcome : PersistOutcome)
  | fanOut (w : Work)
  | returned (result : SignalIngestResult)
  | raised (e : IngestError)

/-- A call of `ingest` on engine number `engine`. -/
structure IngestCall where
  engine : ℕ
  signal : StrategySignal
  tradingMode : String
  env : IngestEnv
  pc : IngestPc := .start

/-- A fan-out: the consumers of an engine get a record. -/
structure SignalRecord where
  engine : ℕ
  signal : StrategySignal
  recordId : UUID
  identityKey : String
  state : SignalState

/-- The engines, the table they share, and the fan-outs so far. -/
structure SignalShared where
  engines : List SignalEngine
  signals : Signals
  fannedOut : List SignalRecord

namespace IngestCall

/-- The row that the call stores. -/
def row (c : IngestCall) (w : Work) : SignalRow := toOrmSignal c.env.recordId c.signal w .persisted c.env.processedAt

/-- A result with the identity of the signal. -/
def result (c : IngestCall) (w : Work) (state : SignalState) (reason : String) : SignalIngestResult where
  state := state
  reason := reason
  signalId := some c.signal.signalId
  identityKey := some w.identityKey

/-- The result when the database fails. -/
def failure (c : IngestCall) (w : Work) : SignalIngestResult := c.result w .accepted "persistence_failure"

/-- The result when the row is stored. -/
def stored (c : IngestCall) (w : Work) : SignalIngestResult :=
  { c.result w .persisted "" with persisted := true, recordId := some c.env.recordId }

/-- The record for the consumers. -/
def record (c : IngestCall) (w : Work) : SignalRecord :=
  ⟨c.engine, c.signal, c.env.recordId, w.identityKey, .persisted⟩

/-- The call up to the database: admission and the lookup in the cache. -/
def begin (c : IngestCall) (engine : SignalEngine) : SignalEngine × IngestPc :=
  match admission engine.config c.signal c.tradingMode c.env with
  | .error e => (engine, .raised e)
  | .ok (.rejected reason) =>
    (engine, .returned { state := .rejected, reason := reason, signalId := some c.signal.signalId })
  | .ok (.expired identityKey) => (engine, .returned
      { state := .expired, reason := "expired", signalId := some c.signal.signalId, identityKey := some identityKey })
  | .ok (.proceed w) =>
    let checked := engine.idempotency.check w.identityKey w.contentHash
    ({ engine with idempotency := checked.1 },
      match checked.2 with
      | .new => .find w
      | .duplicate => .returned (c.result w .duplicate "duplicate")
      | .conflict => .returned (c.result w .conflict "conflict"))

/-- The call after the database: what is remembered, and whether the consumers are told. -/
def conclude (c : IngestCall) (engine : SignalEngine) (w : Work) : PersistOutcome → SignalEngine × IngestPc
  | .inserted => ({ engine with idempotency := engine.idempotency.record w.identityKey w.contentHash }, .fanOut w)
  | .duplicate => ({ engine with idempotency := engine.idempotency.record w.identityKey w.contentHash },
      .returned (c.result w .duplicate "duplicate"))
  | .conflict => (engine, .returned (c.result w .conflict "conflict"))

/-- The commit: stored, refused with an `IntegrityError`, or failed. -/
def commit (c : IngestCall) (signals : Signals) (w : Work) : Signals × IngestPc :=
  match c.env.insertion, if c.env.integrityFails = true then none else insertSignal signals (c.row w) with
  | .answered, some signals' => (signals', .decide w .inserted)
  | .answered, none => (signals, .refetch w)
  | .unanswered, some signals' => (signals', .returned (c.failure w))
  | _, _ => (signals, .returned (c.failure w))

/-- The read of the row with the identity of the signal, and where the call goes when there is none. -/
def look (c : IngestCall) (signals : Signals) (w : Work) (fails : Bool) (missing : IngestPc) : IngestPc :=
  if fails = true then .returned (c.failure w)
  else
    match signals.get w.identityKey with
    | some row => .decide w (compareRow row w)
    | none => missing

/-- The next step of the call. -/
def next (s : SignalShared) (c : IngestCall) : SignalShared × IngestCall :=
  match s.engines[c.engine]? with
  | none => (s, c)
  | some engine =>
    match c.pc with
    | .start => ({ s with engines := s.engines.set c.engine (c.begin engine).1 }, { c with pc := (c.begin engine).2 })
    | .find w => (s, { c with pc := c.look s.signals w c.env.readFails (.insert w) })
    | .insert w => ({ s with signals := (c.commit s.signals w).1 }, { c with pc := (c.commit s.signals w).2 })
    | .refetch w => (s, { c with pc := c.look s.signals w c.env.rereadFails (.returned (c.failure w)) })
    | .decide w outcome => ({ s with engines := s.engines.set c.engine (c.conclude engine w outcome).1 },
        { c with pc := (c.conclude engine w outcome).2 })
    | .fanOut w => ({ s with fannedOut := s.fannedOut ++ [c.record w] }, { c with pc := .returned (c.stored w) })
    | .returned _ => (s, c)
    | .raised _ => (s, c)

end IngestCall

/-! ### What one step can do -/

/-- An engine with another cache. -/
def SignalShared.setCache (s : SignalShared) (i : ℕ) (engine : SignalEngine) (cache : SignalIdempotency) :
    SignalShared :=
  { s with engines := s.engines.set i { engine with idempotency := cache } }

/-- A step of the call `c` over `s`, to `s'` and the program counter `pc`. -/
inductive IngestStep (s : SignalShared) (c : IngestCall) : SignalShared → IngestPc → Prop
  | idle (hended : s.engines[c.engine]? = none ∨ (∃ r, c.pc = .returned r) ∨ ∃ e, c.pc = .raised e) :
    IngestStep s c s c.pc
  | raised {engine : SignalEngine} {e : IngestError} (hengine : s.engines[c.engine]? = some engine)
      (hpc : c.pc = .start) (hadmission : admission engine.config c.signal c.tradingMode c.env = .error e) :
    IngestStep s c s (.raised e)
  | turnedAway {engine : SignalEngine} {r : SignalIngestResult} (hengine : s.engines[c.engine]? = some engine)
      (hpc : c.pc = .start) (hadmission : ∀ w, admission engine.config c.signal c.tradingMode c.env ≠ .ok (.proceed w))
      (hstate : r.state = .rejected ∨ r.state = .expired) :
    IngestStep s c s (.returned r)
  | checked {engine : SignalEngine} {w : Work} {pc : IngestPc} (hengine : s.engines[c.engine]? = some engine)
      (hpc : c.pc = .start) (hadmission : admission engine.config c.signal c.tradingMode c.env = .ok (.proceed w))
      (hanswer : pc = .find w ∨
        (pc = .returned (c.result w .duplicate "duplicate") ∧
          (w.identityKey, w.contentHash) ∈ engine.idempotency.seen) ∨
        (pc = .returned (c.result w .conflict "conflict") ∧
          ∃ existing ≠ w.contentHash, (w.identityKey, existing) ∈ engine.idempotency.seen)) :
    IngestStep s c (s.setCache c.engine engine (engine.idempotency.check w.identityKey w.contentHash).1) pc
  | readFailed {w : Work} (hpc : (c.pc = .find w ∧ c.env.readFails = true) ∨
      (c.pc = .refetch w ∧ c.env.rereadFails = true)) :
    IngestStep s c s (.returned (c.failure w))
  | found {w : Work} {row : SignalRow} (hpc : c.pc = .find w ∨ c.pc = .refetch w)
      (hrow : s.signals.get w.identityKey = some row) :
    IngestStep s c s (.decide w (compareRow row w))
  | missing {w : Work} (hpc : c.pc = .find w) : IngestStep s c s (.insert w)
  | vanished {w : Work} (hpc : c.pc = .refetch w) (hnone : s.signals.get w.identityKey = none) :
    IngestStep s c s (.returned (c.failure w))
  | inserted {w : Work} {signals : Signals} (hpc : c.pc = .insert w)
      (hinsert : insertSignal s.signals (c.row w) = some signals) :
    IngestStep s c { s with signals := signals } (.decide w .inserted)
  | unanswered {w : Work} {signals : Signals} (hpc : c.pc = .insert w)
      (hinsert : insertSignal s.signals (c.row w) = some signals) (how : c.env.insertion = .unanswered) :
    IngestStep s c { s with signals := signals } (.returned (c.failure w))
  | refused {w : Work} (hpc : c.pc = .insert w) (how : c.env.insertion = .answered)
      (hrefused : c.env.integrityFails = true ∨ insertSignal s.signals (c.row w) = none) :
    IngestStep s c s (.refetch w)
  | lost {w : Work} (hpc : c.pc = .insert w) (how : c.env.insertion ≠ .answered) :
    IngestStep s c s (.returned (c.failure w))
  | remembered {engine : SignalEngine} {w : Work} (hengine : s.engines[c.engine]? = some engine)
      (hpc : c.pc = .decide w .inserted) :
    IngestStep s c (s.setCache c.engine engine (engine.idempotency.record w.identityKey w.contentHash)) (.fanOut w)
  | duplicate {engine : SignalEngine} {w : Work} (hengine : s.engines[c.engine]? = some engine)
      (hpc : c.pc = .decide w .duplicate) :
    IngestStep s c (s.setCache c.engine engine (engine.idempotency.record w.identityKey w.contentHash))
      (.returned (c.result w .duplicate "duplicate"))
  | conflict {w : Work} (hpc : c.pc = .decide w .conflict) :
    IngestStep s c s (.returned (c.result w .conflict "conflict"))
  | told {w : Work} (hpc : c.pc = .fanOut w) :
    IngestStep s c { s with fannedOut := s.fannedOut ++ [c.record w] } (.returned (c.stored w))

section Next

variable {s : SignalShared} {c : IngestCall} {engine : SignalEngine} {w : Work}

/-- Setting an engine to itself changes nothing. -/
theorem set_same (hengine : s.engines[c.engine]? = some engine) :
    { s with engines := s.engines.set c.engine engine } = s := by
  obtain ⟨hi, rfl⟩ := List.getElem?_eq_some_iff.mp hengine
  rw [List.set_getElem_self]

theorem ingestStep_begin (hengine : s.engines[c.engine]? = some engine) (hpc : c.pc = .start) :
    IngestStep s c { s with engines := s.engines.set c.engine (c.begin engine).1 } (c.begin engine).2 := by
  unfold IngestCall.begin
  cases hadmission : admission engine.config c.signal c.tradingMode c.env with
  | error e =>
    dsimp only
    rw [set_same hengine]
    exact .raised hengine hpc hadmission
  | ok admission =>
    cases admission with
    | rejected reason =>
      dsimp only
      rw [set_same hengine]
      exact .turnedAway hengine hpc (fun w => by rw [hadmission]; simp) (.inl rfl)
    | expired identityKey =>
      dsimp only
      rw [set_same hengine]
      exact .turnedAway hengine hpc (fun w => by rw [hadmission]; simp) (.inr rfl)
    | proceed w =>
      refine .checked hengine hpc hadmission ?_
      rcases SignalIdempotency.check_cases engine.idempotency w.identityKey w.contentHash with
        hnew | ⟨hduplicate, hmem⟩ | ⟨hconflict, hmem⟩
      · dsimp only
        rw [hnew]
        exact .inl rfl
      · dsimp only
        rw [hduplicate]
        exact .inr (.inl ⟨rfl, hmem⟩)
      · dsimp only
        rw [hconflict]
        exact .inr (.inr ⟨rfl, hmem⟩)

theorem ingestStep_commit (hpc : c.pc = .insert w) :
    IngestStep s c { s with signals := (c.commit s.signals w).1 } (c.commit s.signals w).2 := by
  unfold IngestCall.commit
  by_cases hintegrity : c.env.integrityFails = true
  · rw [if_pos hintegrity]
    cases how : c.env.insertion with
    | answered => exact .refused hpc how (.inl hintegrity)
    | lost => exact .lost hpc (by rw [how]; decide)
    | unanswered => exact .lost hpc (by rw [how]; decide)
  · rw [if_neg hintegrity]
    cases hinsert : insertSignal s.signals (c.row w) with
    | none =>
      cases how : c.env.insertion with
      | answered => exact .refused hpc how (.inr hinsert)
      | lost => exact .lost hpc (by rw [how]; decide)
      | unanswered => exact .lost hpc (by rw [how]; decide)
    | some signals =>
      cases how : c.env.insertion with
      | answered => exact .inserted hpc hinsert
      | lost => exact .lost hpc (by rw [how]; decide)
      | unanswered => exact .unanswered hpc hinsert how

/-- **What one step can do.** -/
theorem ingestStep_next (s : SignalShared) (c : IngestCall) : IngestStep s c (c.next s).1 (c.next s).2.pc := by
  unfold IngestCall.next
  cases hengine : s.engines[c.engine]? with
  | none => exact .idle (.inl hengine)
  | some engine =>
    dsimp only
    cases hpc : c.pc with
    | start => exact ingestStep_begin hengine hpc
    | find w =>
      dsimp only [IngestCall.look]
      split_ifs with hfails
      · exact .readFailed (.inl ⟨hpc, hfails⟩)
      · cases hrow : s.signals.get w.identityKey with
        | some row => exact .found (.inl hpc) hrow
        | none => exact .missing hpc
    | insert w => exact ingestStep_commit hpc
    | refetch w =>
      dsimp only [IngestCall.look]
      split_ifs with hfails
      · exact .readFailed (.inr ⟨hpc, hfails⟩)
      · cases hrow : s.signals.get w.identityKey with
        | some row => exact .found (.inr hpc) hrow
        | none => exact .vanished hpc hrow
    | decide w outcome =>
      cases outcome with
      | inserted => exact .remembered hengine hpc
      | duplicate => exact .duplicate hengine hpc
      | conflict =>
        dsimp only [IngestCall.conclude]
        rw [set_same hengine]
        exact .conflict hpc
    | fanOut w => exact .told hpc
    | returned r => exact .idle (.inr (.inl ⟨r, hpc⟩))
    | raised e => exact .idle (.inr (.inr ⟨e, hpc⟩))

/-- A step changes the program counter only. -/
theorem next_eq (s : SignalShared) (c : IngestCall) : (c.next s).2 = { c with pc := (c.next s).2.pc } := by
  unfold IngestCall.next
  cases s.engines[c.engine]? with
  | none => rfl
  | some engine =>
    obtain ⟨engine, signal, tradingMode, env, pc⟩ := c
    cases pc <;> rfl

end Next

end AlphaAlgo.Signal
