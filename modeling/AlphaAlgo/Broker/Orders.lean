import AlphaAlgo.Broker.Connection
import AlphaAlgo.Broker.Values
import AlphaAlgo.Lib.Loop

/-!
# Orders — order calls of a broker adapter among halts and disconnects

`submit_order`, `modify_order` and `cancel_order` check the halt and the connection, wait for a token of the rate
limiter and hand the request to the transport.  Each `await` is a point where other calls, an activation of the halt and
the calls of the connection take their steps.

* `orderStep`: what a step of a call does.
* `handovers_open`: a request is handed over through an open gate as long as the gate has not been closed since the
  call's guards.
-/

namespace AlphaAlgo.Broker

open Runs
open Loop (bind_eq_ok raiseIf raiseIf_eq_ok)

/-! ### Requests and capabilities -/

inductive TradingMode where
  | backtest
  | paper
  | live
  deriving DecidableEq, Repr

inductive UniversalOrderType where
  | market
  | limit
  | stop
  | stopLimit
  deriving DecidableEq, Repr

def UniversalOrderType.value : UniversalOrderType → String
  | market => "MARKET"
  | limit => "LIMIT"
  | stop => "STOP"
  | stopLimit => "STOP_LIMIT"

inductive UniversalProductType where
  | cnc
  | mis
  | nrml
  deriving DecidableEq, Repr

def UniversalProductType.value : UniversalProductType → String
  | cnc => "CNC"
  | mis => "MIS"
  | nrml => "NRML"

/-- The parts of a request that the guards read, and the order it is for. -/
structure BrokerOrderRequest where
  clientOrderId : String
  orderType : UniversalOrderType
  productType : UniversalProductType
  tradingMode : TradingMode
  deriving DecidableEq

structure BrokerCapabilities where
  supportsOrderSubmission : Bool := true
  supportsModify : Bool := true
  supportsCancel : Bool := true
  supportedOrderTypes : List String := ["MARKET", "LIMIT", "STOP", "STOP_LIMIT"]
  supportedProducts : List String := ["CNC", "MIS", "NRML"]

structure TransportResponse where
  statusCode : ℤ
  body : Value
  text : Option String := none

def TransportResponse.ok (resp : TransportResponse) : Bool := 200 ≤ resp.statusCode && resp.statusCode < 300

/-- What a provider's adapter adds: payloads `π`, its parsers (of responses `ρ`) and the error it makes of a response. -/
structure ProviderHooks (π ρ : Type) where
  buildOrderPayload : BrokerOrderRequest → Except Failure π
  buildModifyPayload : BrokerOrderRequest → String → Except Failure π
  parseOrderResponse : TransportResponse → BrokerOrderRequest → Except Failure ρ
  parseCancelResponse : TransportResponse → String → Except Failure ρ
  mapError : TransportResponse → Failure

/-! ### The rate limiter -/

/-- A token bucket; rates and times are rational numbers. -/
structure TokenBucket where
  rate : ℚ
  burst : ℤ
  tokens : ℚ
  last : ℚ

def TokenBucket.new (ratePerSecond : ℚ) (burst : ℤ) (now : ℚ) : TokenBucket :=
  ⟨ratePerSecond, max 1 burst, max 1 burst, now⟩

/-- `acquire`, under its lock. -/
def TokenBucket.acquire (b : TokenBucket) (now : ℚ) : TokenBucket × Bool :=
  let tokens := min (b.burst : ℚ) (b.tokens + (now - b.last) * b.rate)
  if 1 ≤ tokens then ({ b with tokens := tokens - 1, last := now }, true)
  else ({ b with tokens := tokens, last := now }, false)

/-- One turn of `throttle`; without a policy for orders there is no limit. -/
def throttle (bucket : Option TokenBucket) (now : ℚ) : Option TokenBucket × Bool :=
  match bucket with
  | none => (none, true)
  | some b => (some (b.acquire now).1, (b.acquire now).2)

/-! ### Calls -/

inductive OrderKind where
  | submit (request : BrokerOrderRequest)
  | modify (request : BrokerOrderRequest) (brokerOrderId : String)
  | cancel (brokerOrderId : String)

/-- Where a call is; `throttling` carries how often the gate had been closed when the guards passed. -/
inductive OrderPc (ρ : Type) where
  | start
  | throttling (closures : ℕ)
  | awaiting
  | returned (response : ρ)
  | raised (error : Failure)

structure OrderCall (ρ : Type) where
  kind : OrderKind
  pc : OrderPc ρ := .start

/-- A request handed to the transport, with the halt and the connection of that moment. -/
structure Handover where
  kind : OrderKind
  haltActive : Bool
  state : ConnectionState

/-- The adapter, its calls and, for the statements, how often the gate has been closed and what was handed over. -/
structure OrderSystem (ρ : Type) where
  connection : BrokerConnection
  haltActive : Bool
  bucket : Option TokenBucket
  calls : List (OrderCall ρ)
  closures : ℕ := 0
  sent : List Handover := []

section Adapter

variable {π ρ : Type} (caps : BrokerCapabilities) (hooks : ProviderHooks π ρ)

def guardLive (mode : TradingMode) : Except Failure Unit :=
  raiseIf (mode = .live) (.broker { errorClass := .unsupported, message := "LIVE trading is disabled (fail-closed)" })

def guardHalt (haltActive : Bool) : Except Failure Unit :=
  raiseIf (haltActive = true)
    (.broker { errorClass := .orderRejected, message := "global trading halt is active; submission refused" })

def requireSupported (value : String) (supported : List String) (what : String) : Except Failure Unit :=
  raiseIf (value ∉ supported)
    (.broker { errorClass := .unsupported, message := "unsupported " ++ what ++ ": " ++ value })

def guardSupported (request : BrokerOrderRequest) : Except Failure Unit := do
  requireSupported request.orderType.value caps.supportedOrderTypes "order type"
  requireSupported request.productType.value caps.supportedProducts "product type"

def guardConnection (state : ConnectionState) : Except Failure Unit :=
  raiseIf (state ≠ .connected) (.broker { errorClass := .network, message := "broker not connected" })

def guardCapability (supported : Bool) (message : String) : Except Failure Unit :=
  raiseIf (supported = false) (.broker { errorClass := .unsupported, message := message })

/-- The guards of a call, in their order. -/
def OrderKind.guards (haltActive : Bool) (state : ConnectionState) : OrderKind → Except Failure Unit
  | .submit request => do
    guardLive request.tradingMode
    guardHalt haltActive
    guardSupported caps request
    guardConnection state
    guardCapability caps.supportsOrderSubmission "order submission not supported"
  | .modify request _ => do
    guardLive request.tradingMode
    guardHalt haltActive
    guardSupported caps request
    guardConnection state
    guardCapability caps.supportsModify "modify not supported"
  | .cancel _ => do
    guardHalt haltActive
    guardConnection state
    guardCapability caps.supportsCancel "cancel not supported"

/-- The payload that is built after the wait; a cancellation has none. -/
def OrderKind.payload : OrderKind → Except Failure (Option π)
  | .submit request => some <$> hooks.buildOrderPayload request
  | .modify request brokerOrderId => some <$> hooks.buildModifyPayload request brokerOrderId
  | .cancel _ => .ok none

/-- What a call makes of the response. -/
def OrderKind.parse (resp : TransportResponse) (kind : OrderKind) : OrderPc ρ :=
  if resp.ok then
    let parsed := match kind with
      | .submit request => hooks.parseOrderResponse resp request
      | .modify request _ => hooks.parseOrderResponse resp request
      | .cancel brokerOrderId => hooks.parseCancelResponse resp brokerOrderId
    match parsed with
    | .ok response => .returned response
    | .error error => .raised error
  else .raised (hooks.mapError resp)

/-- How a transport call ends, for the step in which a call finds it ended. -/
abbrev TransportOutcome := Except Failure TransportResponse

/-- A step of the connection: the parts of `connect`, `disconnect` and `reconnect` between their awaits. -/
inductive ConnectionSegment where
  | beginConnect (creds : BrokerCredentialsRef)
  | endConnect (outcome : AuthOutcome)
  | disconnect
  | beginReconnect
  | reconnected (session : BrokerSessionState)
  | degrade

def BrokerConnection.segment (c : BrokerConnection) : ConnectionSegment → BrokerConnection
  | .beginConnect creds => c.beginConnect creds
  | .endConnect outcome => (c.endConnect outcome).1
  | .disconnect => c.disconnect
  | .beginReconnect => c.beginReconnect
  | .reconnected session => c.reconnected session
  | .degrade => c.degrade

/-- A step: call `i` goes on at a time, the halt is switched, or the connection takes a step. -/
inductive OrderAction where
  | call (i : ℕ) (now : ℚ) (outcome : TransportOutcome)
  | halt (active : Bool)
  | connection (segment : ConnectionSegment)

namespace OrderSystem

/-- No halt, and the connection is up. -/
def Open (s : OrderSystem ρ) : Prop := s.haltActive = false ∧ s.connection.state = .connected

instance (s : OrderSystem ρ) : Decidable s.Open := by unfold Open; infer_instance

def setPc (s : OrderSystem ρ) (i : ℕ) (c : OrderCall ρ) (pc : OrderPc ρ) : OrderSystem ρ :=
  { s with calls := s.calls.set i { c with pc := pc } }

/-- A change of the halt or the connection, counted when it closes the gate. -/
def change (s : OrderSystem ρ) (haltActive : Bool) (connection : BrokerConnection) : OrderSystem ρ :=
  let s' := { s with haltActive := haltActive, connection := connection }
  if s.Open ∧ ¬ s'.Open then { s' with closures := s.closures + 1 } else s'

/-- The request is handed over. -/
def handover (s : OrderSystem ρ) (c : OrderCall ρ) : OrderSystem ρ :=
  { s with sent := s.sent ++ [⟨c.kind, s.haltActive, s.connection.state⟩] }

/-- One step of a call. -/
def stepCall (s : OrderSystem ρ) (i : ℕ) (c : OrderCall ρ) (now : ℚ) (outcome : TransportOutcome) : OrderSystem ρ :=
  match c.pc with
  | .start =>
    match c.kind.guards caps s.haltActive s.connection.state with
    | .error error => s.setPc i c (.raised error)
    | .ok () => s.setPc i c (.throttling s.closures)
  | .throttling _ =>
    let s' := { s with bucket := (throttle s.bucket now).1 }
    if (throttle s.bucket now).2 then
      match c.kind.payload hooks with
      | .error error => s'.setPc i c (.raised error)
      | .ok _ => (s'.handover c).setPc i c .awaiting
    else s'
  | .awaiting =>
    match outcome with
    | .error error => s.setPc i c (.raised error)
    | .ok resp => s.setPc i c (c.kind.parse hooks resp)
  | .returned _ => s
  | .raised _ => s

def step (s : OrderSystem ρ) : OrderAction → OrderSystem ρ
  | .call i now outcome =>
    match s.calls[i]? with
    | none => s
    | some c => s.stepCall caps hooks i c now outcome
  | .halt active => s.change active s.connection
  | .connection segment => s.change s.haltActive (s.connection.segment segment)

end OrderSystem

/-! ### What a step does -/

/-- A call that passes its guards finds the gate open. -/
theorem open_of_guards {caps : BrokerCapabilities} {haltActive : Bool} {state : ConnectionState} {kind : OrderKind}
    (h : kind.guards caps haltActive state = .ok ()) : haltActive = false ∧ state = .connected := by
  have hgate : ∀ {u v}, guardHalt haltActive = .ok u → guardConnection state = .ok v →
      haltActive = false ∧ state = .connected := by
    intro u v hhalt hstate
    simp only [guardHalt, guardConnection, raiseIf_eq_ok] at hhalt hstate
    exact ⟨by simpa using hhalt, not_not.mp hstate⟩
  cases kind with
  | submit request =>
    simp only [OrderKind.guards, bind_eq_ok] at h
    obtain ⟨_, _, _, hhalt, _, _, _, hstate, _⟩ := h
    exact hgate hhalt hstate
  | modify request brokerOrderId =>
    simp only [OrderKind.guards, bind_eq_ok] at h
    obtain ⟨_, _, _, hhalt, _, _, _, hstate, _⟩ := h
    exact hgate hhalt hstate
  | cancel brokerOrderId =>
    simp only [OrderKind.guards, bind_eq_ok] at h
    obtain ⟨_, hhalt, _, hstate, _⟩ := h
    exact hgate hhalt hstate

/-- The call that hands a request over in this step, by how often the gate had been closed at its guards. -/
def OrderSystem.handing (s : OrderSystem ρ) : OrderAction → Option ℕ
  | .call i now _ =>
    match s.calls[i]? with
    | some ⟨kind, .throttling n⟩ => if (throttle s.bucket now).2 && (kind.payload hooks).toBool then some n else none
    | _ => none
  | _ => none

/-- The condition on a step: a call hands a request over only if the gate has not been closed since its guards. -/
def Unclosed (s : OrderSystem ρ) (a : OrderAction) : Prop := ∀ n ∈ s.handing hooks a, n = s.closures

instance (s : OrderSystem ρ) (a : OrderAction) : Decidable (Unclosed hooks s a) := by unfold Unclosed; infer_instance

/-- What a step does. -/
inductive OrderStep (s : OrderSystem ρ) (a : OrderAction) : OrderSystem ρ → Prop
  | checked (i : ℕ) (c : OrderCall ρ) (hc : s.calls[i]? = some c) (hopen : s.Open) :
      OrderStep s a (s.setPc i c (.throttling s.closures))
  | handedOver (i n : ℕ) (c : OrderCall ρ) (hc : s.calls[i]? = some c) (hpc : c.pc = .throttling n)
      (hhanding : s.handing hooks a = some n) (bucket : Option TokenBucket) :
      OrderStep s a ((OrderSystem.handover { s with bucket := bucket } c).setPc i c .awaiting)
  | moved (i : ℕ) (c : OrderCall ρ) (hc : s.calls[i]? = some c) (pc : OrderPc ρ) (hpc : ∀ n, pc ≠ .throttling n)
      (bucket : Option TokenBucket) : OrderStep s a (OrderSystem.setPc { s with bucket := bucket } i c pc)
  | waited (bucket : Option TokenBucket) : OrderStep s a { s with bucket := bucket }
  | changed (haltActive : Bool) (connection : BrokerConnection) : OrderStep s a (s.change haltActive connection)

theorem orderStep (s : OrderSystem ρ) (a : OrderAction) : OrderStep hooks s a (s.step caps hooks a) := by
  cases a with
  | halt active => exact .changed active s.connection
  | connection segment => exact .changed s.haltActive (s.connection.segment segment)
  | call i now outcome =>
    cases hc : s.calls[i]? with
    | none =>
      rw [show s.step caps hooks (.call i now outcome) = s by simp [OrderSystem.step, hc]]
      exact .waited s.bucket
    | some c =>
      rw [show s.step caps hooks (.call i now outcome) = s.stepCall caps hooks i c now outcome by
        simp [OrderSystem.step, hc]]
      unfold OrderSystem.stepCall
      cases hpc : c.pc with
      | start =>
        dsimp only
        cases hguards : c.kind.guards caps s.haltActive s.connection.state with
        | error error => exact .moved i c hc (.raised error) (by simp) s.bucket
        | ok u => exact .checked i c hc (open_of_guards hguards)
      | throttling n =>
        dsimp only
        split_ifs with htoken
        · cases hpayload : c.kind.payload hooks with
          | error error => exact .moved i c hc (.raised error) (by simp) _
          | ok payload =>
            refine .handedOver i n c hc hpc ?_ _
            obtain ⟨kind, pc⟩ := c
            cases hpc
            simp [OrderSystem.handing, hc, htoken, hpayload, Except.toBool]
        · exact .waited _
      | awaiting =>
        cases outcome with
        | error error => exact .moved i c hc (.raised error) (by simp) s.bucket
        | ok resp =>
          refine .moved i c hc (c.kind.parse hooks resp) (fun n => ?_) s.bucket
          unfold OrderKind.parse
          dsimp only
          split_ifs
          · split <;> simp
          · simp
      | returned response => exact .waited s.bucket
      | raised error => exact .waited s.bucket

/-! ### The gate -/

/-- A call that waits has passed its guards, and the gate is open unless it has been closed since. -/
def Guarded (s : OrderSystem ρ) : Prop :=
  ∀ c ∈ s.calls, ∀ n, c.pc = .throttling n → n ≤ s.closures ∧ (n = s.closures → s.Open)

/-- The calls after call `i` has moved. -/
theorem guarded_setPc {s : OrderSystem ρ} (h : Guarded s) (i : ℕ) (c : OrderCall ρ) {pc : OrderPc ρ}
    (hpc : ∀ n, pc = .throttling n → n ≤ s.closures ∧ (n = s.closures → s.Open)) : Guarded (s.setPc i c pc) := by
  intro d hd n hn
  rcases List.mem_or_eq_of_mem_set hd with hd | rfl
  · exact h d hd n hn
  · exact hpc n hn

theorem guarded_change {s : OrderSystem ρ} (h : Guarded s) (haltActive : Bool) (connection : BrokerConnection) :
    Guarded (s.change haltActive connection) := by
  intro c hc n hn
  unfold OrderSystem.change at hc ⊢
  dsimp only at hc ⊢
  split_ifs at hc ⊢ with hclosed
  · obtain ⟨hle, -⟩ := h c hc n hn
    exact ⟨hle.trans (Nat.le_succ _), fun heq => absurd heq (Nat.lt_succ_of_le hle).ne⟩
  · obtain ⟨hle, hopen⟩ := h c hc n hn
    refine ⟨hle, fun heq => ?_⟩
    by_contra hnot
    exact hclosed ⟨hopen heq, hnot⟩

theorem guarded_step {s s' : OrderSystem ρ} {a : OrderAction} (h : Guarded s) (hstep : OrderStep hooks s a s') :
    Guarded s' := by
  cases hstep with
  | checked i c hc hopen =>
    refine guarded_setPc h i c fun n hn => ?_
    cases hn
    exact ⟨le_rfl, fun _ => hopen⟩
  | handedOver i n c hc hpc hhanding bucket =>
    exact guarded_setPc (s := OrderSystem.handover { s with bucket := bucket } c) h i c fun n hn => by cases hn
  | moved i c hc pc hpc bucket =>
    exact guarded_setPc (s := { s with bucket := bucket }) h i c fun n hn => absurd hn (hpc n)
  | waited bucket => exact h
  | changed haltActive connection => exact guarded_change h haltActive connection

/-- What was handed over went through an open gate. -/
def SentOpen (s : OrderSystem ρ) : Prop := ∀ r ∈ s.sent, r.haltActive = false ∧ r.state = .connected

instance (s : OrderSystem ρ) : Decidable (SentOpen s) := by unfold SentOpen; infer_instance

theorem sentOpen_step {s s' : OrderSystem ρ} {a : OrderAction} (h : Guarded s) (hsent : SentOpen s)
    (hG : Unclosed hooks s a) (hstep : OrderStep hooks s a s') : SentOpen s' := by
  cases hstep with
  | handedOver i n c hc hpc hhanding bucket =>
    intro r hr
    rcases List.mem_append.mp hr with hr | hr
    · exact hsent r hr
    · obtain rfl := List.mem_singleton.mp hr
      exact (h c (List.mem_of_getElem? hc) n hpc).2 (hG n hhanding)
  | changed haltActive connection =>
    have hsame : (s.change haltActive connection).sent = s.sent := by
      unfold OrderSystem.change
      dsimp only
      split_ifs <;> rfl
    rw [SentOpen, hsame]
    exact hsent
  | checked i c hc hopen => exact hsent
  | moved i c hc pc hpc bucket => exact hsent
  | waited bucket => exact hsent

/-- **Every request is handed over through an open gate**, in the runs in which the gate is not closed between the
guards of a call and its hand-over. -/
theorem handovers_open {s : OrderSystem ρ} (hstart : ∀ c ∈ s.calls, c.pc = .start) (hsent : s.sent = [])
    (l : List OrderAction) (h : Along (OrderSystem.step caps hooks) (Unclosed hooks) s l) :
    ∀ l', l' <+: l → SentOpen (run (OrderSystem.step caps hooks) s l') := by
  rintro l' ⟨rest, rfl⟩
  have hguarded : Guarded s := by
    intro c hc n hn
    rw [hstart c hc] at hn
    cases hn
  have hnothing : SentOpen s := by
    intro r hr
    rw [hsent] at hr
    cases hr
  have hkept : Guarded (run _ s l') ∧ SentOpen (run _ s l') :=
    ((along_append _ _ s l' rest).mp h).1.invariant (I := fun s => Guarded s ∧ SentOpen s)
      (fun s a hs hG => ⟨guarded_step hooks hs.1 (orderStep caps hooks s a),
        sentOpen_step hooks hs.1 hs.2 hG (orderStep caps hooks s a)⟩) ⟨hguarded, hnothing⟩
  exact hkept.2

end Adapter

/-! ### Samples -/

/-- A provider without payloads that accepts every response. -/
def sampleHooks : ProviderHooks Unit Unit where
  buildOrderPayload _ := .ok ()
  buildModifyPayload _ _ := .ok ()
  parseOrderResponse _ _ := .ok ()
  parseCancelResponse _ _ := .ok ()
  mapError _ := .broker { errorClass := .unknown, message := "error" }

/-- Two submissions on a connected adapter that allows one order a second. -/
def sampleOrders : OrderSystem Unit where
  connection := { state := .connected, session := some sampleSession, credentialsRef := some sampleCreds }
  haltActive := false
  bucket := some (.new 1 1 0)
  calls := [⟨.submit ⟨"c1", .market, .cnc, .paper⟩, .start⟩, ⟨.submit ⟨"c2", .market, .cnc, .paper⟩, .start⟩]

def accepted : TransportOutcome := .ok { statusCode := 200, body := .none }

/-- The second submission waits for its token while the halt is activated. -/
def haltWhileWaiting : List OrderAction :=
  [.call 0 0 accepted, .call 0 0 accepted, .call 1 0 accepted, .call 1 0 accepted, .halt true, .call 1 1 accepted]

theorem handovers_open_sample :
    SentOpen (run (OrderSystem.step {} sampleHooks) sampleOrders (haltWhileWaiting.take 4)) := by
  have hstart : ∀ c ∈ sampleOrders.calls, c.pc = .start := by simp [sampleOrders]
  exact handovers_open {} sampleHooks hstart rfl (haltWhileWaiting.take 4) (by decide +kernel) _ List.prefix_rfl

/-- It is sent all the same. -/
theorem not_handovers_open_halt :
    ¬ SentOpen (run (OrderSystem.step {} sampleHooks) sampleOrders haltWhileWaiting) := by
  decide +kernel

end AlphaAlgo.Broker
