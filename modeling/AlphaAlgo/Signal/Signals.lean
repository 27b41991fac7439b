import AlphaAlgo.Lib.Json
import AlphaAlgo.Lib.Loop
import AlphaAlgo.Lib.Outbox
import AlphaAlgo.Lib.Sha256
import AlphaAlgo.Risk.Rules

/-!
# Signals — a signal, its identity and its validation

The identity of a signal is a hash over its strategy, instrument, action and event timestamp; a second hash is over its
content.  `admission` is the part of the ingestion that reads nothing shared: validation, the two hashes and the age.

* `admission_proceed`: what an admitted signal goes on with.
* `contentText_inj`: the hashed text determines the content.
-/

namespace AlphaAlgo.Signal

open Loop

open Risk (SignalAction)

/-! ### Signals -/

/-- A value of the metadata: `None`, a `datetime`, or another value with its `str`, its canonical JSON and the instant that
`datetime.fromisoformat` reads in its `str`. -/
inductive MetaValue where
  | none
  | datetime (t : DateTime)
  | other (text json : String) (instant : Option DateTime)
deriving DecidableEq

/-- `str(value)`; that of a `datetime` has a blank in place of the `T`. -/
def MetaValue.text : MetaValue → String
  | none => "None"
  | datetime t => String.ofList (t.isoformat.toList.map fun c => if c = 'T' then ' ' else c)
  | other text _ _ => text

/-- `canonical_json(value)`, where a `datetime` is written as its `str`. -/
def MetaValue.json : MetaValue → String
  | none => "null"
  | datetime t => String.ofList (quote (datetime t).text)
  | other _ json _ => json

/-- The last two fields are checks of the contract. -/
structure StrategySignal where
  signalId : UUID
  strategyId : UUID
  strategyVersion : String
  strategyConfigHash : String
  instrumentId : UUID
  action : SignalAction
  timestamp : DateTime
  confidence : Dec
  reason : String
  metadata : List (String × MetaValue)
  confidence_range : 0 ≤ confidence.val ∧ confidence.val ≤ 1
  timestamp_aware : timestamp.aware = true

/-- What the ingestion can raise: a mode that is not allowed, a text that is no timestamp, instants that do not compare, a
date out of range. -/
inductive IngestError where
  | tradingModeError (mode : String)
  | valueError
  | typeError
  | overflowError
deriving DecidableEq

/-- `canonical_json(metadata)`: the keys are sorted. -/
def canonicalJson (metadata : List (String × MetaValue)) : String :=
  let entries := metadata.insertionSort fun e e' => e.1 ≤ e'.1
  "\x7b" ++ ",".intercalate (entries.map fun e => String.ofList (quote e.1) ++ ":" ++ e.2.json) ++ "\x7d"

namespace StrategySignal

/-- `event_timestamp`. -/
def eventTimestamp (signal : StrategySignal) : Except IngestError DateTime :=
  match signal.metadata.lookup "event_timestamp" with
  | none => .ok signal.timestamp
  | some .none => .ok signal.timestamp
  | some (.datetime t) => .ok t
  | some (.other _ _ (some t)) => .ok t
  | some (.other _ _ none) => .error .valueError

/-- The text of an entry of the metadata, unless it is `None`. -/
def entryText (signal : StrategySignal) (key : String) : Option String :=
  match signal.metadata.lookup key with
  | none => none
  | some .none => none
  | some value => some value.text

/-- `code_hash_from`. -/
def codeHash (signal : StrategySignal) : Option String := signal.entryText "strategy_code_hash"

/-- `run_id_from`. -/
def runId (signal : StrategySignal) : Option String := signal.entryText "strategy_run_id"

/-- `compute_signal_identity_key`, with the event timestamp. -/
def identityKey (signal : StrategySignal) (t : DateTime) : String :=
  sha256 ("|".intercalate [signal.strategyId.str, signal.strategyVersion, signal.strategyConfigHash,
    signal.instrumentId.str, signal.action.value, t.isoformat])

/-- The hashed content, keys sorted. -/
def contentJson (signal : StrategySignal) (t : DateTime) : Json :=
  .obj [("confidence", .str signal.confidence.str), ("metadata", .str (canonicalJson signal.metadata)),
    ("reason", .str signal.reason), ("timestamp", .str t.isoformat)]

def contentText (signal : StrategySignal) (t : DateTime) : String := (signal.contentJson t).dumps .compact

/-- `compute_signal_content_hash`, with the event timestamp. -/
def contentHash (signal : StrategySignal) (t : DateTime) : String := sha256 (signal.contentText t)

end StrategySignal

/-- The hashed text determines the content. -/
theorem contentText_inj {signal signal' : StrategySignal} {t t' : DateTime}
    (h : signal.contentText t = signal'.contentText t') :
    signal.confidence.str = signal'.confidence.str ∧ canonicalJson signal.metadata = canonicalJson signal'.metadata ∧
      signal.reason = signal'.reason := by
  unfold StrategySignal.contentText Json.dumps at h
  rw [String.ofList_inj] at h
  simp only [StrategySignal.contentJson, Json.chars, Json.fields, if_true, List.nil_append, List.append_assoc,
    Bool.false_eq_true, if_false, List.cons_append, List.cons.injEq, true_and] at h
  obtain ⟨hconfidence, h1⟩ := quote_append_inj (List.append_cancel_left (List.append_cancel_left h))
  have h2 := List.append_cancel_left (List.append_cancel_left (List.append_cancel_left h1))
  obtain ⟨hmetadata, h3⟩ := quote_append_inj h2
  have h4 := List.append_cancel_left (List.append_cancel_left (List.append_cancel_left h3))
  exact ⟨hconfidence, hmetadata, (quote_append_inj h4).1⟩

/-! ### Validation -/

/-- What the directory says of a strategy; no instruments means all. -/
structure StrategyRecord where
  version : String
  configHash : String
  codeHash : Option String
  enabled : Bool
  instruments : Option (List UUID) := none

/-- The configuration of an engine, durations in microseconds. -/
structure EngineConfig where
  futureSkew : ℤ := 5000000
  maxSignalAge : Option ℤ := none

/-- Why a signal goes no further: an error, or a rejection with its reason. -/
inductive Refusal where
  | raised (e : IngestError)
  | rejected (reason : String)
deriving DecidableEq

/-- `t > now + skew` rejects. -/
def checkFuture (t now : DateTime) (skew : ℤ) : Except Refusal Unit :=
  match now.add? skew with
  | none => .error (.raised .overflowError)
  | some limit =>
    match t.le? limit with
    | none => .error (.raised .typeError)
    | some true => .ok ()
    | some false => .error (.rejected "future_timestamp")

/-- What an ingestion gets from outside: the directory, the four readings of the clock, the identifier of the row, and
the answers of the database.  A commit that is refused before anything is stored, by a lost connection or a value that the
columns do not take, is `Commit.lost`; `integrityFails` is a constraint of another table. -/
structure IngestEnv where
  directory : UUID → Option StrategyRecord
  validatedAt : DateTime
  eventValidatedAt : DateTime
  agedAt : DateTime
  processedAt : DateTime
  recordId : UUID
  readFails : Bool := false
  insertion : Commit := .answered
  integrityFails : Bool := false
  rereadFails : Bool := false

/-- The validator; an action is always one of the four. -/
def validate (config : EngineConfig) (signal : StrategySignal) (tradingMode : String) (env : IngestEnv) :
    Except Refusal Unit := do
  raiseIf (upper tradingMode ∉ allowedModes) (.raised (.tradingModeError (upper tradingMode)))
  match env.directory signal.strategyId with
  | none => .error (.rejected "unknown_strategy")
  | some record =>
    raiseIf (record.enabled = false) (.rejected "disabled_strategy")
    raiseIf (signal.strategyVersion ≠ record.version) (.rejected "strategy_version_mismatch")
    raiseIf (signal.strategyConfigHash ≠ record.configHash) (.rejected "config_hash_mismatch")
    raiseIf (signal.metadata.lookup "event_timestamp" = none) (.rejected "missing_traceability")
    raiseIf (record.codeHash ≠ none ∧ signal.codeHash ≠ record.codeHash) (.rejected "code_hash_mismatch")
    raiseIf (∃ l ∈ record.instruments, signal.instrumentId ∉ l) (.rejected "invalid_instrument")
    raiseIf (¬(0 ≤ signal.confidence.val ∧ signal.confidence.val ≤ 1)) (.rejected "invalid_confidence")
    raiseIf (signal.timestamp.aware = false) (.rejected "invalid_timestamp")
    checkFuture signal.timestamp env.validatedAt config.futureSkew
    match signal.eventTimestamp with
    | .error e => .error (.raised e)
    | .ok t => checkFuture t env.eventValidatedAt config.futureSkew

/-- What an admitted signal goes on with: its identity and its content. -/
structure Work where
  identityKey : String
  contentHash : String
deriving DecidableEq

/-- The two hashes of a signal. -/
def StrategySignal.work (signal : StrategySignal) : Except IngestError Work :=
  signal.eventTimestamp.map fun t => ⟨signal.identityKey t, signal.contentHash t⟩

/-- The outcome of the steps before the cache. -/
inductive Admission where
  | rejected (reason : String)
  | expired (identityKey : String)
  | proceed (w : Work)
deriving DecidableEq

/-- Validation, the two hashes and the age. -/
def admission (config : EngineConfig) (signal : StrategySignal) (tradingMode : String) (env : IngestEnv) :
    Except IngestError Admission :=
  match validate config signal tradingMode env with
  | .error (.raised e) => .error e
  | .error (.rejected reason) => .ok (.rejected reason)
  | .ok () => do
    let t ← signal.eventTimestamp
    let w ← signal.work
    match config.maxSignalAge with
    | none => .ok (.proceed w)
    | some age =>
      match env.agedAt.sub? t with
      | none => .error .typeError
      | some d => if age < d then .ok (.expired w.identityKey) else .ok (.proceed w)

/-- An admitted signal goes on with its own hashes. -/
theorem admission_proceed {config : EngineConfig} {signal : StrategySignal} {tradingMode : String} {env : IngestEnv}
    {w : Work} (h : admission config signal tradingMode env = .ok (.proceed w)) : signal.work = .ok w := by
  unfold admission at h
  cases hvalidate : validate config signal tradingMode env with
  | error refusal =>
    rw [hvalidate] at h
    cases refusal <;> cases h
  | ok u =>
    rw [hvalidate] at h
    obtain ⟨t, -, h⟩ := bind_eq_ok.mp h
    obtain ⟨w', hwork, h⟩ := bind_eq_ok.mp h
    rw [hwork]
    cases hage : config.maxSignalAge with
    | none =>
      rw [hage] at h
      cases h
      rfl
    | some age =>
      rw [hage] at h
      cases hsub : env.agedAt.sub? t with
      | none => simp [hsub] at h
      | some d =>
        simp only [hsub] at h
        split_ifs at h <;> cases h
        rfl

end AlphaAlgo.Signal
