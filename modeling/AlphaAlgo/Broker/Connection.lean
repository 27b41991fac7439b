import Mathlib.Tactic
import AlphaAlgo.Base.Values
import AlphaAlgo.Lib.Runs

/-!
# Connection — the connection of a broker adapter

An adapter keeps the state of its state machine, the session of the last successful `authenticate` and the credentials
of the last `connect`.  `authenticate` is the provider's: each attempt gives a session, raises a `BrokerError` or raises
something else, which neither `connect` nor the retry loop catches.  Nor does the loop catch the `OverflowError` of
`delay_for`, which no float holds from attempt 1025 on.

* `reconnectLoop_eq`: what the loop does, by the first attempt that does not raise a `BrokerError`.
* `agreed_iff`: state and replies agree in exactly the runs in which nothing but `BrokerError` is raised and no reconnect
  is exhausted over a session that was connected or has more than 1025 attempts to make.
-/

namespace AlphaAlgo.Broker

open Runs

/-! ### Sessions and errors -/

inductive BrokerName where
  | zerodha
  | upstox
  | angelOne
  deriving DecidableEq, Repr

inductive ConnectionState where
  | disconnected
  | connecting
  | connected
  | degraded
  | reconnecting
  deriving DecidableEq, Repr

inductive BrokerErrorClass where
  | authentication
  | authorization
  | rateLimit
  | validation
  | orderRejected
  | timeout
  | network
  | providerUnavailable
  | notFound
  | unsupported
  | duplicate
  | unknown
  deriving DecidableEq, Repr

/-- What is not text is kept as its text. -/
structure BrokerError where
  errorClass : BrokerErrorClass
  message : String
  providerCode : Option String := none
  providerMessage : Option String := none
  deriving DecidableEq, Repr

/-- What is raised: a `BrokerError`, or an exception of another kind. -/
inductive Failure where
  | broker (error : BrokerError)
  | other (error : String)
  deriving DecidableEq, Repr

structure BrokerCredentialsRef where
  brokerName : BrokerName
  accountIdentifier : String
  secretRef : String
  deriving DecidableEq

structure BrokerSessionState where
  brokerName : BrokerName
  accountIdentifier : String
  connected : Bool
  authenticated : Bool
  checkedAt : DateTime
  expiresAt : Option DateTime := none
  state : ConnectionState := .disconnected
  deriving DecidableEq

/-- How an `authenticate` ends. -/
inductive AuthOutcome where
  | session (session : BrokerSessionState)
  | brokerError (error : BrokerError)
  | other (error : String)
  deriving DecidableEq

/-- The attempt ends the retry loop: it does not raise a `BrokerError`. -/
def AuthOutcome.decisive : AuthOutcome → Bool
  | .brokerError _ => false
  | _ => true

/-! ### The adapter -/

/-- The parts of the configuration that a connection reads. -/
structure ConnectionConfig where
  brokerName : BrokerName
  accountReference : String
  maxAttempts : ℤ := 3
  baseBackoffSeconds : ℚ := 1
  maxBackoffSeconds : ℚ := 30

structure BrokerConnection where
  state : ConnectionState := .disconnected
  session : Option BrokerSessionState := none
  credentialsRef : Option BrokerCredentialsRef := none
  reconnects : ℕ := 0
  deriving DecidableEq

inductive ConnectionReply where
  | session (session : BrokerSessionState)
  | done
  | raised (error : Failure)
  deriving DecidableEq

namespace BrokerConnection

/-- `connect` up to its `authenticate`. -/
def beginConnect (c : BrokerConnection) (creds : BrokerCredentialsRef) : BrokerConnection :=
  { c with state := .connecting, credentialsRef := some creds }

/-- `connect` from there on: only a `BrokerError` is caught. -/
def endConnect (c : BrokerConnection) : AuthOutcome → BrokerConnection × ConnectionReply
  | .session session => ({ c with session := some session, state := .connected }, .session session)
  | .brokerError error => ({ c with state := .disconnected }, .raised (.broker error))
  | .other error => (c, .raised (.other error))

def connect (c : BrokerConnection) (creds : BrokerCredentialsRef) (outcome : AuthOutcome) :
    BrokerConnection × ConnectionReply :=
  (c.beginConnect creds).endConnect outcome

/-- `disconnect`, with the `logout` of the base class. -/
def disconnect (c : BrokerConnection) : BrokerConnection := { c with state := .disconnected, session := none }

def beginReconnect (c : BrokerConnection) : BrokerConnection := { c with state := .reconnecting }

/-- A successful attempt of the retry loop. -/
def reconnected (c : BrokerConnection) (session : BrokerSessionState) : BrokerConnection :=
  { c with session := some session, reconnects := c.reconnects + 1, state := .connected }

def degrade (c : BrokerConnection) : BrokerConnection := { c with state := .degraded }

/-- The text of the `OverflowError`. -/
def tooLarge : String := "int too large to convert to float"

/-- `delay_for`, before the jitter: the power of two is an integer that is converted to a float. -/
def delayFor (cfg : ConnectionConfig) (attemptNumber : ℕ) : Except String ℚ :=
  if 1024 ≤ attemptNumber - 1 then .error tooLarge
  else .ok (min (cfg.baseBackoffSeconds * 2 ^ (attemptNumber - 1)) cfg.maxBackoffSeconds)

/-- The retry loop over the attempts that are left, with what escapes from it. -/
def reconnectLoop (cfg : ConnectionConfig) (outcomes : ℕ → AuthOutcome) :
    List ℕ → BrokerConnection → BrokerConnection × Option String
  | [], c => (c.degrade, none)
  | attempt :: rest, c =>
    match outcomes attempt with
    | .session session => (c.reconnected session, none)
    | .other error => (c, some error)
    | .brokerError _ =>
      if cfg.maxAttempts ≤ attempt then (c.degrade, none)
      else
        match delayFor cfg attempt with
        | .error error => (c, some error)
        | .ok _ => reconnectLoop cfg outcomes rest c

/-- `range(1, max_attempts + 1)`. -/
def attempts (maxAttempts : ℤ) : List ℕ := List.range' 1 maxAttempts.toNat

/-- What `reconnect` returns without a session. -/
def noSession (cfg : ConnectionConfig) (c : BrokerConnection) (now : DateTime) : BrokerSessionState where
  brokerName := cfg.brokerName
  accountIdentifier := cfg.accountReference
  connected := false
  authenticated := false
  checkedAt := now
  state := c.state

def reconnect (cfg : ConnectionConfig) (c : BrokerConnection) (outcomes : ℕ → AuthOutcome) (now : DateTime) :
    BrokerConnection × ConnectionReply :=
  match c.credentialsRef with
  | none => (c, .raised (.broker { errorClass := .authentication, message := "no credentials to reconnect with" }))
  | some _ =>
    match reconnectLoop cfg outcomes (attempts cfg.maxAttempts) c.beginReconnect with
    | (c', some error) => (c', .raised (.other error))
    | (c', none) => (c', .session (c'.session.getD (noSession cfg c' now)))

end BrokerConnection

/-! ### Calls -/

/-- A call, with the outcomes of its attempts to authenticate. -/
inductive ConnectionCall where
  | connect (creds : BrokerCredentialsRef) (outcome : AuthOutcome)
  | disconnect
  | reconnect (outcomes : ℕ → AuthOutcome) (now : DateTime)

def connectionCall (cfg : ConnectionConfig) (c : BrokerConnection) :
    ConnectionCall → BrokerConnection × ConnectionReply
  | .connect creds outcome => c.connect creds outcome
  | .disconnect => (c.disconnect, .done)
  | .reconnect outcomes now => c.reconnect cfg outcomes now

abbrev connectionStep (cfg : ConnectionConfig) (c : BrokerConnection) (call : ConnectionCall) : BrokerConnection :=
  (connectionCall cfg c call).1

/-! ### The retry loop -/

/-- The last attempt that can be made: its delay is too large. -/
def lastAttempt : ℕ := 1025

/-- The first attempt that decides the loop. -/
def decision (maxAttempts : ℤ) (outcomes : ℕ → AuthOutcome) : Option AuthOutcome :=
  ((BrokerConnection.attempts (min maxAttempts lastAttempt)).map outcomes).find? AuthOutcome.decisive

theorem delayFor_isOk_iff (cfg : ConnectionConfig) (attempt : ℕ) :
    (∃ delay, BrokerConnection.delayFor cfg attempt = .ok delay) ↔ attempt < lastAttempt := by
  unfold BrokerConnection.delayFor lastAttempt
  split_ifs with h
  · simp
    omega
  · simp
    omega

/-- What the loop leaves when no attempt decides it. -/
def undecided (cfg : ConnectionConfig) (c : BrokerConnection) : BrokerConnection × Option String :=
  if cfg.maxAttempts ≤ lastAttempt then (c.degrade, none) else (c, some BrokerConnection.tooLarge)

/-- A loop of attempts up to the last one ends as its first decisive attempt does. -/
theorem reconnectLoop_range {cfg : ConnectionConfig} (outcomes : ℕ → AuthOutcome) (c : BrokerConnection)
    (n attempt : ℕ) (hfirst : attempt ≤ lastAttempt) (hnone : n = 0 → cfg.maxAttempts ≤ lastAttempt)
    (hlast : n ≠ 0 → (attempt + n : ℤ) = cfg.maxAttempts + 1) :
    c.reconnectLoop cfg outcomes (List.range' attempt n) =
      match ((List.range' attempt (min n (lastAttempt + 1 - attempt))).map outcomes).find? AuthOutcome.decisive with
      | some (.session session) => (c.reconnected session, none)
      | some (.other error) => (c, some error)
      | _ => undecided cfg c := by
  induction n generalizing attempt with
  | zero => simp [BrokerConnection.reconnectLoop, undecided, hnone rfl]
  | succ n ih =>
    have hmin : min (n + 1) (lastAttempt + 1 - attempt) = min n (lastAttempt + 1 - (attempt + 1)) + 1 := by omega
    rw [hmin, List.range'_succ, List.range'_succ, List.map_cons, BrokerConnection.reconnectLoop]
    cases hout : outcomes attempt with
    | session session => rfl
    | other error => rfl
    | brokerError error =>
      rw [List.find?_cons_of_neg (by simp [AuthOutcome.decisive])]
      have hlast' := hlast (Nat.succ_ne_zero n)
      push_cast at hlast'
      dsimp only
      by_cases hn : n = 0
      · subst hn
        have hmax : cfg.maxAttempts ≤ attempt := by omega
        have hwithin : cfg.maxAttempts ≤ lastAttempt := by omega
        rw [if_pos hmax, Nat.zero_min]
        simp [undecided, hwithin]
      · have hmax : ¬ cfg.maxAttempts ≤ attempt := by omega
        rw [if_neg hmax]
        rcases hfirst.lt_or_eq with hlt | heq
        · obtain ⟨delay, hdelay⟩ := (delayFor_isOk_iff cfg attempt).mpr hlt
          rw [hdelay]
          exact ih (attempt + 1) hlt (fun h => absurd h hn) fun _ => by push_cast; omega
        · -- the delay after the last attempt is too large
          subst heq
          have hdelay : BrokerConnection.delayFor cfg lastAttempt = .error BrokerConnection.tooLarge := if_pos (by decide)
          have hbeyond : ¬ cfg.maxAttempts ≤ lastAttempt := hmax
          rw [hdelay, Nat.sub_self, Nat.min_zero]
          simp [undecided, hbeyond]

/-- **The retry loop**, by its first decisive attempt. -/
theorem reconnectLoop_eq (cfg : ConnectionConfig) (outcomes : ℕ → AuthOutcome) (c : BrokerConnection) :
    c.reconnectLoop cfg outcomes (BrokerConnection.attempts cfg.maxAttempts) =
      match decision cfg.maxAttempts outcomes with
      | some (.session session) => (c.reconnected session, none)
      | some (.other error) => (c, some error)
      | _ => undecided cfg c := by
  have hcount : (min cfg.maxAttempts lastAttempt).toNat = min cfg.maxAttempts.toNat (lastAttempt + 1 - 1) := by omega
  rw [decision, BrokerConnection.attempts, BrokerConnection.attempts, hcount]
  refine reconnectLoop_range outcomes c cfg.maxAttempts.toNat 1 (by decide) (fun hn => ?_) fun hn => ?_
  · omega
  · omega

/-! ### Agreement -/

/-- What a call promises: a session that is connected goes with CONNECTED, a failed connect leaves DISCONNECTED, and a
reconnect that has credentials raises nothing and ends in CONNECTED or DEGRADED. -/
def Agreed (cfg : ConnectionConfig) (c : BrokerConnection) (call : ConnectionCall) : Prop :=
  let (c', reply) := connectionCall cfg c call
  match call with
  | .connect _ _ =>
    (∀ session, reply = .session session → session.connected = true → c'.state = .connected) ∧
      ∀ error, reply = .raised error → c'.state = .disconnected
  | .disconnect => True
  | .reconnect _ _ =>
    (∀ session, reply = .session session → session.connected = true → c'.state = .connected) ∧
      (c.credentialsRef ≠ none →
        (∀ error, reply ≠ .raised error) ∧ (c'.state = .connected ∨ c'.state = .degraded))

/-- The condition on a call: no attempt that decides it raises anything but a `BrokerError`, and a reconnect all of whose
attempts fail has at most 1025 to make and does not find a connected session. -/
def Expected (cfg : ConnectionConfig) (c : BrokerConnection) : ConnectionCall → Prop
  | .connect _ outcome => ∀ error, outcome ≠ .other error
  | .disconnect => True
  | .reconnect outcomes _ =>
    c.credentialsRef ≠ none →
      (∀ error, decision cfg.maxAttempts outcomes ≠ some (.other error)) ∧
        (decision cfg.maxAttempts outcomes = none →
          cfg.maxAttempts ≤ lastAttempt ∧ ∀ session ∈ c.session, session.connected = false)

theorem agreed_connect (cfg : ConnectionConfig) (c : BrokerConnection) (creds : BrokerCredentialsRef)
    (outcome : AuthOutcome) :
    Agreed cfg c (.connect creds outcome) ↔ Expected cfg c (.connect creds outcome) := by
  cases outcome with
  | session session => simp [Agreed, Expected, connectionCall, BrokerConnection.connect, BrokerConnection.endConnect]
  | brokerError error => simp [Agreed, Expected, connectionCall, BrokerConnection.connect, BrokerConnection.endConnect]
  | other error =>
    simp [Agreed, Expected, connectionCall, BrokerConnection.connect, BrokerConnection.endConnect,
      BrokerConnection.beginConnect]

/-- A reconnect that has credentials, by the first decisive attempt. -/
theorem agreed_reconnect (cfg : ConnectionConfig) (c : BrokerConnection) (outcomes : ℕ → AuthOutcome) (now : DateTime) :
    Agreed cfg c (.reconnect outcomes now) ↔ Expected cfg c (.reconnect outcomes now) := by
  unfold Agreed Expected connectionCall BrokerConnection.reconnect
  cases hcreds : c.credentialsRef with
  | none => simp
  | some creds =>
    simp only [reconnectLoop_eq]
    have hdecisive : ∀ error, decision cfg.maxAttempts outcomes ≠ some (.brokerError error) := by
      intro error h
      cases List.find?_some h
    cases hdecision : decision cfg.maxAttempts outcomes with
    | none =>
      simp only [undecided]
      by_cases hmax : cfg.maxAttempts ≤ lastAttempt
      · -- every attempt fails: the stored session is returned from a degraded connection
        simp only [hmax, if_true]
        cases hsession : c.session with
        | none => simp [BrokerConnection.degrade, BrokerConnection.beginReconnect, BrokerConnection.noSession, hsession]
        | some session => simp [BrokerConnection.degrade, BrokerConnection.beginReconnect, hsession]
      · simp [hmax]
    | some outcome =>
      cases outcome with
      | session session => simp [BrokerConnection.reconnected]
      | other error => simp
      | brokerError error => exact absurd hdecision (hdecisive error)

theorem agreed_call (cfg : ConnectionConfig) (c : BrokerConnection) (call : ConnectionCall) :
    Agreed cfg c call ↔ Expected cfg c call := by
  cases call with
  | connect creds outcome => exact agreed_connect cfg c creds outcome
  | disconnect => exact Iff.rfl
  | reconnect outcomes now => exact agreed_reconnect cfg c outcomes now

/-- **Connection state and replies agree** in every call of exactly the runs in which every call is as expected. -/
theorem agreed_iff (cfg : ConnectionConfig) (l : List ConnectionCall) :
    Along (connectionStep cfg) (Agreed cfg) {} l ↔ Along (connectionStep cfg) (Expected cfg) {} l := by
  rw [show Agreed cfg = Expected cfg from funext fun c => funext fun call => propext (agreed_call cfg c call)]

def sampleInstant : DateTime := ⟨2026, 8, 12, 9, 15, 0, 0, some 0⟩

/-- A session as a provider returns it. -/
def sampleSession : BrokerSessionState where
  brokerName := .upstox
  accountIdentifier := "A1"
  connected := true
  authenticated := true
  checkedAt := sampleInstant

def sampleCreds : BrokerCredentialsRef := ⟨.upstox, "A1", "ref"⟩

def sampleConfig : ConnectionConfig := { brokerName := .upstox, accountReference := "A1" }

/-- Every attempt fails on the network. -/
def failing : ℕ → AuthOutcome := fun _ => .brokerError { errorClass := .network, message := "connection refused" }

/-- A reconnect is exhausted after an earlier success: it returns the connected session of then, DEGRADED. -/
theorem not_agreed_exhausted :
    ¬ Along (connectionStep sampleConfig) (Agreed sampleConfig) {}
      [.connect sampleCreds (.session sampleSession), .reconnect failing sampleInstant] := by
  rintro ⟨-, ⟨hsession, -⟩, -⟩
  have hstate := hsession sampleSession rfl rfl
  revert hstate
  decide

end AlphaAlgo.Broker
