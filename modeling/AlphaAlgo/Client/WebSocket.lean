import Mathlib.Tactic
import AlphaAlgo.Lib.JsonRead
import AlphaAlgo.Lib.Runs

/-!
# WebSocket — the trading socket of the web client

`createTradingWebSocket` among the events of a browser: user calls, timers that fire and what happens to a socket come
in any order.  A socket reports each state once and in order; it opens only while it is connecting, gets messages only
while it is open, and reports its end once, some time after it was closed from either side.  `JSON.parse` is applied
to a message before it is given here.  The callbacks of the user do not call `connect` or `close` again.

What the client does is kept in a log: the statuses and events it reports, the sockets it opens, the waits it schedules.

* `Sound`: the invariant of every run.
* `webSocket_runs`: one socket and one timer at most, and something still to happen until the client is closed.
* `webSocket_waits`: the waits since the last opening double up to 15 seconds.
* `webSocket_closed`: a closed client stays closed.
-/

namespace AlphaAlgo.Client

open Runs

/-! ### Messages -/

structure HealthUpdateEvent where
  service : String
  status : String
  liveTrading : String
deriving DecidableEq

/-- What a socket delivers: a text, with the value that it parses to, or something else than a text. -/
inductive RawMessage where
  | text (parsed : Option JsonValue)
  | binary

/-- A property of an object; `undefined` is none. -/
def property (v : JsonValue) (key : String) : Option JsonValue :=
  match v with
  | .obj l => l.lookup key
  | _ => none

def textOf : JsonValue → Option String
  | .str s => some s
  | _ => none

/-- `normalizeWsEvent`. -/
def normalizeWsEvent (raw : RawMessage) : Option HealthUpdateEvent :=
  match raw with
  | .binary => none
  | .text none => none
  | .text (some candidate) =>
    if (property candidate "type").bind textOf ≠ some "HEALTH_UPDATE" then none
    else do
      let payload ← property candidate "payload"
      let service ← (property payload "service").bind textOf
      let status ← (property payload "status").bind textOf
      let liveTrading ← (property payload "live_trading").bind textOf
      return ⟨service, status, liveTrading⟩

/-! ### The client -/

inductive WsStatus where
  | connecting
  | opened
  | closed
  | reconnecting
deriving DecidableEq, Repr

/-- What the client does: it reports, opens a socket or schedules a wait, in milliseconds. -/
inductive Effect where
  | status (s : WsStatus)
  | event (e : HealthUpdateEvent)
  | dial
  | wait (delay : ℕ)
deriving DecidableEq

/-- The waits of a log since its last opening. -/
def waitsSince (log : List Effect) : List ℕ :=
  log.foldl (fun waits e => match e with
    | .status .opened => []
    | .wait d => waits ++ [d]
    | _ => waits) []

/-- The effect is neither an opening nor a wait. -/
def Effect.quiet : Effect → Bool
  | .status .opened => false
  | .wait _ => false
  | _ => true

theorem waitsSince_quiet (log : List Effect) {e : Effect} (he : e.quiet = true) :
    waitsSince (log ++ [e]) = waitsSince log := by
  unfold waitsSince
  rw [List.foldl_append]
  cases e with
  | status st => cases st <;> simp_all [Effect.quiet]
  | event e => rfl
  | dial => rfl
  | wait d => simp [Effect.quiet] at he

inductive ReadyState where
  | connecting
  | opened
  | closing
  | closed
deriving DecidableEq, Repr

/-- The socket can still be used. -/
def ReadyState.live : ReadyState → Bool
  | connecting => true
  | opened => true
  | closing => false
  | closed => false

/-- A socket of the browser: its state, and whether `onclose` is set. -/
structure Socket where
  state : ReadyState := .connecting
  onclose : Bool := true
deriving DecidableEq, Repr

/-- A socket after `onclose = null` and `close()`. -/
def Socket.shut (k : Socket) : Socket := ⟨if k.state.live then .closing else k.state, false⟩

/-- The variables of the client, and of the browser: the sockets in the order of their creation, the timers that were
set and those that have neither fired nor been cleared. -/
structure TradingWebSocket where
  socket : Option ℕ := none
  closed : Bool := false
  attempt : ℕ := 0
  timer : Option ℕ := none
  sockets : List Socket := []
  timers : ℕ := 0
  pending : List ℕ := []
  log : List Effect := []
deriving DecidableEq

namespace TradingWebSocket

def emit (s : TradingWebSocket) (e : Effect) : TradingWebSocket := { s with log := s.log ++ [e] }

/-- The socket is `OPEN` or `CONNECTING`. -/
def isLive (s : TradingWebSocket) (i : ℕ) : Bool := s.sockets[i]?.any fun k => k.state.live

def clearTimer (s : TradingWebSocket) : TradingWebSocket :=
  match s.timer with
  | none => s
  | some id => { s with timer := none, pending := s.pending.filter fun p => p ≠ id }

/-- The wait after `attempt` failures. -/
def delay (attempt : ℕ) : ℕ := min (1000 * 2 ^ attempt) 15000

/-- The timer of a wait. -/
def setTimeout (s : TradingWebSocket) (d : ℕ) : TradingWebSocket :=
  { s.emit (.wait d) with timer := some s.timers, timers := s.timers + 1, pending := s.pending ++ [s.timers] }

def scheduleReconnect (s : TradingWebSocket) : TradingWebSocket :=
  if s.closed then s else { s.clearTimer.setTimeout (delay s.attempt) with attempt := s.attempt + 1 }

/-- `callbacks.onStatus` of `connect`. -/
def announce (s : TradingWebSocket) : TradingWebSocket :=
  s.emit (.status (if s.attempt = 0 then .connecting else .reconnecting))

/-- `socket = new WebSocket(url)`. -/
def newSocket (s : TradingWebSocket) : TradingWebSocket :=
  { s.emit .dial with socket := some s.sockets.length, sockets := s.sockets ++ [{}] }

/-- `connect`; `created` tells whether the constructor of the socket returns. -/
def connect (s : TradingWebSocket) (created : Bool) : TradingWebSocket :=
  if s.closed then s
  else if s.socket.any s.isLive then s
  else if created then s.announce.newSocket
  else s.announce.scheduleReconnect

def close (s : TradingWebSocket) : TradingWebSocket :=
  let s := { s with closed := true }.clearTimer
  let s := match s.socket with
    | none => s
    | some i => { s with sockets := s.sockets.modify i Socket.shut, socket := none }
  s.emit (.status .closed)

def onopen (s : TradingWebSocket) : TradingWebSocket := { s with attempt := 0 }.emit (.status .opened)

def onmessage (s : TradingWebSocket) (raw : RawMessage) : TradingWebSocket :=
  match normalizeWsEvent raw with
  | some e => s.emit (.event e)
  | none => s

def onclose (s : TradingWebSocket) : TradingWebSocket := (s.emit (.status .closed)).scheduleReconnect

/-! ### The browser -/

inductive BrowserAction where
  | connect (created : Bool)
  | close
  | fires (timer : ℕ) (created : Bool)
  | opens (i : ℕ)
  | message (i : ℕ) (raw : RawMessage)
  | closes (i : ℕ)
  | ends (i : ℕ)

def setState (s : TradingWebSocket) (i : ℕ) (state : ReadyState) : TradingWebSocket :=
  { s with sockets := s.sockets.modify i fun k => { k with state := state } }

/-- One action; what cannot happen leaves everything as it is. -/
def step (s : TradingWebSocket) : BrowserAction → TradingWebSocket
  | .connect created => s.connect created
  | .close => s.close
  | .fires timer created =>
    if timer ∈ s.pending then
      { s with pending := s.pending.filter fun p => p ≠ timer }.connect created
    else s
  | .opens i =>
    match s.sockets[i]? with
    | some ⟨.connecting, _⟩ => (s.setState i .opened).onopen
    | _ => s
  | .message i raw =>
    match s.sockets[i]? with
    | some ⟨.opened, _⟩ => s.onmessage raw
    | _ => s
  | .closes i => if s.isLive i then s.setState i .closing else s
  | .ends i =>
    match s.sockets[i]? with
    | some ⟨.closed, _⟩ => s
    | some ⟨_, true⟩ => (s.setState i .closed).onclose
    | some ⟨_, false⟩ => s.setState i .closed
    | none => s

/-! ### The invariant -/

/-- Between two actions: what can be used or fires is what the client knows of. -/
structure Sound (s : TradingWebSocket) : Prop where
  alone : ∀ i, s.isLive i = true → s.socket = some i
  timed : ∀ id ∈ s.pending, s.timer = some id
  one : s.pending.length ≤ 1
  heard : s.closed = false → ∀ (i : ℕ) (k : Socket), s.sockets[i]? = some k → k.onclose = true
  shut : s.closed = true → s.socket = none ∧ s.pending = []
  waits : waitsSince s.log = (List.range s.attempt).map delay

/-- A socket is still to report its end, or a timer to fire. -/
def Going (s : TradingWebSocket) : Prop :=
  s.pending ≠ [] ∨ ∃ (i : ℕ) (k : Socket), s.sockets[i]? = some k ∧ k.state ≠ .closed

theorem Sound.emit {s : TradingWebSocket} (h : s.Sound) {e : Effect} (he : e.quiet = true) : (s.emit e).Sound :=
  ⟨h.alone, h.timed, h.one, h.heard, h.shut, (waitsSince_quiet s.log he).trans h.waits⟩

/-- Clearing the timer leaves none to fire. -/
theorem Sound.clearTimer_pending {s : TradingWebSocket} (h : s.Sound) : s.clearTimer.pending = [] := by
  unfold clearTimer
  cases ht : s.timer with
  | none =>
    rw [List.eq_nil_iff_forall_not_mem]
    intro id hid
    have := h.timed id hid
    rw [ht] at this
    cases this
  | some t =>
    show s.pending.filter _ = []
    rw [List.filter_eq_nil_iff]
    intro id hid
    have := h.timed id hid
    rw [ht] at this
    cases this
    simp

/-- Clearing the timer changes nothing but the timers. -/
theorem clearTimer_eq (s : TradingWebSocket) :
    s.clearTimer = { s with timer := s.clearTimer.timer, pending := s.clearTimer.pending } := by
  unfold clearTimer
  cases s.timer <;> rfl

/-- A closed client schedules nothing. -/
theorem scheduleReconnect_closed {s : TradingWebSocket} (hc : s.closed = true) : s.scheduleReconnect = s := if_pos hc

/-- A wait that is scheduled replaces the one before. -/
theorem scheduleReconnect_eq {s : TradingWebSocket} (h : s.Sound) (hc : s.closed = false) :
    s.scheduleReconnect =
      { s with
        attempt := s.attempt + 1, timer := some s.timers, timers := s.timers + 1, pending := [s.timers]
        log := s.log ++ [.wait (delay s.attempt)] } := by
  unfold scheduleReconnect setTimeout emit
  rw [clearTimer_eq, h.clearTimer_pending, if_neg (by rw [hc]; exact Bool.false_ne_true)]
  rfl

theorem Sound.scheduleReconnect {s : TradingWebSocket} (h : s.Sound) : s.scheduleReconnect.Sound := by
  cases hc : s.closed with
  | true =>
    rw [scheduleReconnect_closed hc]
    exact h
  | false =>
    rw [scheduleReconnect_eq h hc]
    refine ⟨h.alone, ?_, by simp, fun _ => h.heard hc, ?_, ?_⟩
    · intro id hid
      rw [List.mem_singleton.mp hid]
    · intro hclosed
      rw [hc] at hclosed
      cases hclosed
    · show waitsSince (s.log ++ [.wait (delay s.attempt)]) = (List.range (s.attempt + 1)).map delay
      have hw := h.waits
      unfold waitsSince at hw ⊢
      rw [List.foldl_append, hw, List.range_succ, List.map_append]
      rfl

theorem going_scheduleReconnect {s : TradingWebSocket} (h : s.Sound) (hc : s.closed = false) :
    s.scheduleReconnect.Going := by
  rw [scheduleReconnect_eq h hc]
  exact Or.inl (List.cons_ne_nil _ _)

/-! ### Connecting -/

theorem going_of_isLive {s : TradingWebSocket} {i : ℕ} (h : s.isLive i = true) : s.Going := by
  unfold isLive at h
  cases hk : s.sockets[i]? with
  | none =>
    rw [hk] at h
    cases h
  | some k =>
    rw [hk] at h
    refine Or.inr ⟨i, k, hk, fun hclosed => ?_⟩
    have hlive : k.state.live = true := h
    rw [hclosed] at hlive
    cases hlive

theorem isLive_append (l : List Socket) (k : Socket) (i : ℕ) (h : (l ++ [k])[i]?.any (fun x => x.state.live) = true) :
    i = l.length ∨ l[i]?.any (fun x => x.state.live) = true := by
  rcases lt_trichotomy i l.length with hi | hi | hi
  · rw [List.getElem?_append_left hi] at h
    exact Or.inr h
  · exact Or.inl hi
  · rw [List.getElem?_eq_none (by simp; omega)] at h
    simp at h

theorem Sound.announce {s : TradingWebSocket} (h : s.Sound) : s.announce.Sound := by
  refine h.emit ?_
  split_ifs <;> rfl

/-- A new socket is alone where none is live. -/
theorem Sound.newSocket {s : TradingWebSocket} (h : s.Sound) (hc : s.closed = false)
    (hnone : ∀ i, s.isLive i = false) : s.newSocket.Sound := by
  have hdial := h.emit (e := .dial) rfl
  refine ⟨?_, hdial.timed, hdial.one, ?_, ?_, hdial.waits⟩
  · intro i hi
    rcases isLive_append s.sockets {} i hi with rfl | hold
    · rfl
    · have := hnone i
      rw [isLive, hold] at this
      cases this
  · intro _ i k hk
    rcases List.mem_append.mp (List.mem_of_getElem? hk) with hmem | hmem
    · obtain ⟨j, hj⟩ := List.getElem?_of_mem hmem
      exact h.heard hc j k hj
    · rw [List.mem_singleton.mp hmem]
  · intro hclosed
    have : s.closed = true := hclosed
    rw [hc] at this
    cases this

/-- Where the socket of the client is not live, none is. -/
theorem Sound.none_live {s : TradingWebSocket} (h : s.Sound) (hs : ¬ s.socket.any s.isLive = true) (i : ℕ) :
    s.isLive i = false := by
  by_contra hne
  have hi : s.isLive i = true := by simpa using hne
  rw [h.alone i hi] at hs
  exact hs hi

theorem Sound.connect {s : TradingWebSocket} (h : s.Sound) (created : Bool) : (s.connect created).Sound := by
  unfold TradingWebSocket.connect
  split_ifs with hc hlive hcreated
  · exact h
  · exact h
  · exact h.announce.newSocket (Bool.eq_false_iff.mpr hc) fun i => h.none_live hlive i
  · exact h.announce.scheduleReconnect

theorem closed_scheduleReconnect (s : TradingWebSocket) : s.scheduleReconnect.closed = s.closed := by
  unfold TradingWebSocket.scheduleReconnect
  split_ifs with hc
  · rfl
  · show s.clearTimer.closed = s.closed
    rw [clearTimer_eq]

theorem closed_connect (s : TradingWebSocket) (created : Bool) : (s.connect created).closed = s.closed := by
  unfold TradingWebSocket.connect
  split_ifs with hc hlive hcreated
  · rfl
  · rfl
  · rfl
  · exact closed_scheduleReconnect s.announce

/-- After a connect something is still to happen. -/
theorem going_connect {s : TradingWebSocket} (h : s.Sound) (hc : s.closed = false) (created : Bool) :
    (s.connect created).Going := by
  unfold TradingWebSocket.connect
  rw [if_neg (by rw [hc]; exact Bool.false_ne_true)]
  split_ifs with hlive hcreated
  · cases hs : s.socket with
    | none =>
      rw [hs] at hlive
      cases hlive
    | some i =>
      rw [hs] at hlive
      exact going_of_isLive (i := i) hlive
  · refine Or.inr ⟨s.sockets.length, {}, ?_, by decide⟩
    show (s.sockets ++ [({} : Socket)])[s.sockets.length]? = some {}
    simp
  · exact going_scheduleReconnect h.announce hc

/-! ### The events of a socket -/

theorem getElem?_setState (s : TradingWebSocket) (i j : ℕ) (state : ReadyState) :
    (s.setState i state).sockets[j]? =
      if i = j then s.sockets[j]?.map (fun k => { k with state := state }) else s.sockets[j]? := by
  show (s.sockets.modify i _)[j]? = _
  rw [List.getElem?_modify]
  by_cases hij : i = j
  · simp only [hij, if_true]
    rfl
  · simp only [hij, if_false]
    cases s.sockets[j]? <;> rfl

/-- A socket becomes live only where it was. -/
theorem isLive_of_setState {s : TradingWebSocket} {i j : ℕ} {state : ReadyState}
    (hi : state.live = true → s.isLive i = true) (h : (s.setState i state).isLive j = true) : s.isLive j = true := by
  unfold isLive at h
  rw [getElem?_setState] at h
  split_ifs at h with hij
  · subst hij
    refine hi ?_
    cases hk : s.sockets[i]? with
    | none =>
      rw [hk] at h
      cases h
    | some k =>
      rw [hk] at h
      exact h
  · exact h

theorem Sound.setState {s : TradingWebSocket} (h : s.Sound) {i : ℕ} {state : ReadyState}
    (hi : state.live = true → s.isLive i = true) : (s.setState i state).Sound := by
  refine ⟨fun j hj => h.alone j (isLive_of_setState hi hj), h.timed, h.one, ?_, h.shut, h.waits⟩
  intro hc j k hk
  rw [getElem?_setState] at hk
  split_ifs at hk with hij
  · obtain ⟨k', hk', rfl⟩ := Option.map_eq_some_iff.mp hk
    exact h.heard hc j k' hk'
  · exact h.heard hc j k hk

/-- A socket that has not ended is still to report its end. -/
theorem going_setState {s : TradingWebSocket} {i : ℕ} {k : Socket} {state : ReadyState} (hk : s.sockets[i]? = some k)
    (hstate : state ≠ .closed) : (s.setState i state).Going := by
  refine Or.inr ⟨i, { k with state := state }, ?_, hstate⟩
  rw [getElem?_setState, if_pos rfl, hk]
  rfl

theorem Sound.onopen {s : TradingWebSocket} (h : s.Sound) : s.onopen.Sound := by
  refine ⟨h.alone, h.timed, h.one, h.heard, h.shut, ?_⟩
  show waitsSince (s.log ++ [.status .opened]) = []
  unfold waitsSince
  rw [List.foldl_append]
  rfl

theorem Sound.onclose {s : TradingWebSocket} (h : s.Sound) : s.onclose.Sound :=
  (h.emit (e := .status .closed) rfl).scheduleReconnect

theorem Sound.onmessage {s : TradingWebSocket} (h : s.Sound) (raw : RawMessage) : (s.onmessage raw).Sound := by
  unfold TradingWebSocket.onmessage
  cases normalizeWsEvent raw with
  | none => exact h
  | some e => exact h.emit (e := .event e) rfl

/-! ### Closing -/

theorem getElem?_shut (l : List Socket) (i j : ℕ) :
    (l.modify i Socket.shut)[j]? = if i = j then l[j]?.map Socket.shut else l[j]? := by
  rw [List.getElem?_modify]
  by_cases hij : i = j
  · simp only [hij, if_true]
    rfl
  · simp only [hij, if_false]
    cases l[j]? <;> rfl

/-- A socket that was closed is not live. -/
theorem live_shut (k : Socket) : k.shut.state.live = false := by
  unfold Socket.shut
  cases h : k.state <;> simp [ReadyState.live]

theorem clearTimer_closed (s : TradingWebSocket) :
    ({ s with closed := true } : TradingWebSocket).clearTimer = { s.clearTimer with closed := true } := by
  obtain ⟨socket, closed, attempt, timer, sockets, timers, pending, log⟩ := s
  cases timer <;> rfl

/-- What `close` leaves: the socket of the client is shut, and no timer is pending. -/
theorem close_eq {s : TradingWebSocket} (h : s.Sound) :
    s.close =
      { s with
        socket := none, closed := true, timer := s.clearTimer.timer, pending := []
        sockets := match s.socket with
          | none => s.sockets
          | some i => s.sockets.modify i Socket.shut
        log := s.log ++ [.status .closed] } := by
  unfold TradingWebSocket.close
  rw [clearTimer_closed, clearTimer_eq s, h.clearTimer_pending]
  cases s.socket <;> rfl

theorem none_live_close {s : TradingWebSocket} (h : s.Sound) (j : ℕ) : s.close.isLive j = false := by
  by_contra hne
  have hj : s.close.isLive j = true := by simpa using hne
  rw [close_eq h] at hj
  unfold isLive at hj
  cases hs : s.socket with
  | none =>
    simp only [hs] at hj
    have := h.alone j hj
    rw [hs] at this
    cases this
  | some i =>
    simp only [hs] at hj
    rw [getElem?_shut] at hj
    split_ifs at hj with hij
    · cases hk : s.sockets[j]? with
      | none =>
        rw [hk] at hj
        cases hj
      | some k =>
        rw [hk] at hj
        have hlive : k.shut.state.live = true := hj
        rw [live_shut] at hlive
        cases hlive
    · have := h.alone j hj
      rw [hs] at this
      exact hij (Option.some.inj this)

theorem Sound.close {s : TradingWebSocket} (h : s.Sound) : s.close.Sound := by
  have hnone := none_live_close h
  have heq := close_eq h
  refine ⟨fun i hi => ?_, ?_, ?_, ?_, ?_, ?_⟩
  · rw [hnone i] at hi
    cases hi
  · rw [heq]
    intro id hid
    cases hid
  · rw [heq]
    exact Nat.zero_le _
  · rw [heq]
    intro hc
    cases hc
  · rw [heq]
    exact fun _ => ⟨rfl, rfl⟩
  · rw [heq]
    exact (waitsSince_quiet s.log rfl).trans h.waits

/-! ### Runs -/

theorem live_of_state {s : TradingWebSocket} {i : ℕ} {k : Socket} (hk : s.sockets[i]? = some k)
    (hlive : k.state.live = true) : s.isLive i = true := by
  unfold isLive
  rw [hk]
  exact hlive

theorem Sound.fired {s : TradingWebSocket} (h : s.Sound) (timer : ℕ) :
    ({ s with pending := s.pending.filter fun p => p ≠ timer } : TradingWebSocket).Sound := by
  refine ⟨h.alone, fun id hid => h.timed id (List.mem_of_mem_filter hid), ?_, h.heard, fun hc => ?_, h.waits⟩
  · exact (List.length_filter_le _ _).trans h.one
  · refine ⟨(h.shut hc).1, ?_⟩
    show s.pending.filter _ = []
    rw [(h.shut hc).2]
    rfl

/-- **Every action keeps the invariant.** -/
theorem Sound.step {s : TradingWebSocket} (h : s.Sound) (a : BrowserAction) : (s.step a).Sound := by
  have hended (i : ℕ) : (s.setState i .closed).Sound := h.setState fun hc => by cases hc
  cases a with
  | connect created => exact h.connect created
  | close => exact h.close
  | fires timer created =>
    simp only [TradingWebSocket.step]
    split_ifs with hmem
    · exact (h.fired timer).connect created
    · exact h
  | opens i =>
    simp only [TradingWebSocket.step]
    split
    · rename_i b hk
      exact (h.setState fun _ => live_of_state hk rfl).onopen
    · exact h
  | message i raw =>
    simp only [TradingWebSocket.step]
    split
    · exact h.onmessage raw
    · exact h
  | closes i =>
    simp only [TradingWebSocket.step]
    split_ifs with hlive
    · exact h.setState fun _ => hlive
    · exact h
  | ends i =>
    simp only [TradingWebSocket.step]
    split
    · exact h
    · exact (hended i).onclose
    · exact hended i
    · exact h

/-- Until it is closed a client that is going stays so. -/
theorem Going.step {s : TradingWebSocket} (hs : s.Sound) (h : s.Going) (a : BrowserAction)
    (hc : (s.step a).closed = false) : (s.step a).Going := by
  cases a with
  | connect created => exact going_connect hs ((closed_connect s created).symm.trans hc) created
  | close =>
    rw [TradingWebSocket.step, close_eq hs] at hc
    cases hc
  | fires timer created =>
    simp only [TradingWebSocket.step] at hc ⊢
    split_ifs at hc ⊢ with hmem
    · exact going_connect (hs.fired timer) ((closed_connect _ created).symm.trans hc) created
    · exact h
  | opens i =>
    simp only [TradingWebSocket.step]
    split
    · rename_i b hk
      exact going_setState hk (by decide)
    · exact h
  | message i raw =>
    simp only [TradingWebSocket.step]
    split
    · unfold onmessage
      cases normalizeWsEvent raw <;> exact h
    · exact h
  | closes i =>
    simp only [TradingWebSocket.step]
    split_ifs with hlive
    · cases hk : s.sockets[i]? with
      | none =>
        unfold isLive at hlive
        rw [hk] at hlive
        cases hlive
      | some k => exact going_setState hk (by decide)
    · exact h
  | ends i =>
    simp only [TradingWebSocket.step] at hc ⊢
    split at hc
    · exact h
    · have hended : (s.setState i .closed).Sound := hs.setState fun hclosed => by cases hclosed
      exact going_scheduleReconnect (hended.emit rfl) ((closed_scheduleReconnect _).symm.trans hc)
    · rename_i state _ hk
      have := hs.heard hc i _ hk
      cases this
    · exact h

theorem sound_initial : ({} : TradingWebSocket).Sound where
  alone i hi := by simp [isLive] at hi
  timed id hid := by cases hid
  one := Nat.zero_le _
  heard _ i k hk := by simp at hk
  shut hc := by cases hc
  waits := rfl

theorem sound_run (l : List BrowserAction) : (run step ({} : TradingWebSocket) l).Sound :=
  run_invariant step Sound (fun _ a h => h.step a) sound_initial l

/-- Only `close` closes a client. -/
theorem closed_step {s : TradingWebSocket} {a : BrowserAction} (hc : s.closed = false) (ha : a ≠ .close) :
    (s.step a).closed = false := by
  cases a with
  | connect created => exact (closed_connect s created).trans hc
  | close => exact absurd rfl ha
  | fires timer created =>
    simp only [TradingWebSocket.step]
    split_ifs
    · exact (closed_connect _ created).trans hc
    · exact hc
  | opens i =>
    simp only [TradingWebSocket.step]
    split <;> exact hc
  | message i raw =>
    simp only [TradingWebSocket.step, onmessage]
    split
    · cases normalizeWsEvent raw <;> exact hc
    · exact hc
  | closes i =>
    simp only [TradingWebSocket.step]
    split_ifs <;> exact hc
  | ends i =>
    simp only [TradingWebSocket.step]
    split
    · exact hc
    · exact (closed_scheduleReconnect _).trans hc
    · exact hc
    · exact hc

theorem closed_run {s : TradingWebSocket} {l : List BrowserAction} (hc : s.closed = false) (hl : .close ∉ l) :
    (run step s l).closed = false := by
  induction l generalizing s with
  | nil => exact hc
  | cons a l ih =>
    rw [List.mem_cons, not_or] at hl
    exact ih (closed_step hc fun ha => hl.1 ha.symm) hl.2

theorem going_run {s : TradingWebSocket} {l : List BrowserAction} (hs : s.Sound) (hc : s.closed = false)
    (hgoing : s.Going) (hl : .close ∉ l) : (run step s l).Going := by
  induction l generalizing s with
  | nil => exact hgoing
  | cons a l ih =>
    rw [List.mem_cons, not_or] at hl
    have hnext := closed_step hc fun ha => hl.1 ha.symm
    exact ih (hs.step a) hnext (hgoing.step hs a hnext) hl.2

/-- **One connection, for as long as it is wanted.**  However user calls, timers and sockets interleave, at most one
socket can be used and at most one timer is pending; and from its first connect on, a client that was not closed has a
socket that is still to report its end or a timer that is still to fire. -/
theorem webSocket_runs (l : List BrowserAction) :
    (∀ i j, (run step {} l).isLive i = true → (run step {} l).isLive j = true → i = j) ∧
      (run step ({} : TradingWebSocket) l).pending.length ≤ 1 ∧
      ∀ l₁ created l₂, l = l₁ ++ .connect created :: l₂ → .close ∉ l → (run step {} l).Going := by
  have hs := sound_run l
  refine ⟨fun i j hi hj => ?_, hs.one, ?_⟩
  · have := (hs.alone i hi).symm.trans (hs.alone j hj)
    exact Option.some.inj this
  · rintro l₁ created l₂ rfl hclose
    rw [List.mem_append, not_or, List.mem_cons, not_or] at hclose
    have h₁ := sound_run l₁
    have hc₁ : (run step ({} : TradingWebSocket) l₁).closed = false := closed_run rfl hclose.1
    rw [run_append, run_cons]
    exact going_run (h₁.connect created) ((closed_connect _ created).trans hc₁) (going_connect h₁ hc₁ created)
      hclose.2.2

theorem webSocket_runs_sample :
    (run step ({} : TradingWebSocket) [.connect true, .opens 0, .ends 0, .fires 0 false]).Going :=
  (webSocket_runs [.connect true, .opens 0, .ends 0, .fires 0 false]).2.2 [] true _ rfl (by simp)

/-- **The waits double.**  The waits since the last opening are those of the first, second, third and so on failure,
from one second up to fifteen. -/
theorem webSocket_waits (l : List BrowserAction) :
    waitsSince (run step ({} : TradingWebSocket) l).log =
        (List.range (run step ({} : TradingWebSocket) l).attempt).map delay ∧
      ∀ n, delay n ≤ delay (n + 1) ∧ 1000 ≤ delay n ∧ delay n ≤ 15000 := by
  refine ⟨(sound_run l).waits, fun n => ?_⟩
  have hpow : 1 ≤ 2 ^ n := Nat.one_le_two_pow
  unfold delay
  rw [pow_succ]
  omega

/-- A closed client opens nothing and waits for nothing; all it reports is that it is closed. -/
theorem closed_adds {s : TradingWebSocket} (h : s.Sound) (hc : s.closed = true) (a : BrowserAction) :
    (s.step a).closed = true ∧ (s.step a).sockets.length = s.sockets.length ∧
      ∃ n, (s.step a).log = s.log ++ List.replicate n (.status .closed) := by
  have hquiet : s.log = s.log ++ List.replicate 0 (.status .closed) := by simp
  have hnone (i : ℕ) : s.isLive i = false := h.none_live (by rw [(h.shut hc).1]; simp) i
  have hset (i : ℕ) (state : ReadyState) : (s.setState i state).sockets.length = s.sockets.length :=
    List.length_modify ..
  cases a with
  | connect created =>
    rw [TradingWebSocket.step, TradingWebSocket.connect, if_pos hc]
    exact ⟨hc, rfl, 0, hquiet⟩
  | close =>
    rw [TradingWebSocket.step, close_eq h, (h.shut hc).1]
    exact ⟨rfl, rfl, 1, rfl⟩
  | fires timer created =>
    rw [TradingWebSocket.step, if_neg (by rw [(h.shut hc).2]; exact List.not_mem_nil)]
    exact ⟨hc, rfl, 0, hquiet⟩
  | opens i =>
    simp only [TradingWebSocket.step]
    split
    · rename_i b hk
      have := hnone i
      rw [live_of_state hk rfl] at this
      cases this
    · exact ⟨hc, rfl, 0, hquiet⟩
  | message i raw =>
    simp only [TradingWebSocket.step]
    split
    · rename_i b hk
      have := hnone i
      rw [live_of_state hk rfl] at this
      cases this
    · exact ⟨hc, rfl, 0, hquiet⟩
  | closes i =>
    rw [TradingWebSocket.step, if_neg (by rw [hnone i]; exact Bool.false_ne_true)]
    exact ⟨hc, rfl, 0, hquiet⟩
  | ends i =>
    simp only [TradingWebSocket.step]
    split
    · exact ⟨hc, rfl, 0, hquiet⟩
    · rw [TradingWebSocket.onclose, scheduleReconnect_closed (s := (s.setState i .closed).emit (.status .closed)) hc]
      exact ⟨hc, hset i _, 1, rfl⟩
    · exact ⟨hc, hset i _, 0, hquiet⟩
    · exact ⟨hc, rfl, 0, hquiet⟩

/-- **A closed client stays closed.**  Whatever sockets and timers there were, after `close` no socket can be used and
no timer is pending; whatever comes then, no socket is opened, no event is reported and nothing is waited for. -/
theorem webSocket_closed (l l' : List BrowserAction) :
    (∀ i, (run step {} (l ++ .close :: l')).isLive i = false) ∧
      (run step ({} : TradingWebSocket) (l ++ .close :: l')).pending = [] ∧
      (run step ({} : TradingWebSocket) (l ++ .close :: l')).sockets.length =
        (run step ({} : TradingWebSocket) l).sockets.length ∧
      ∃ n, (run step ({} : TradingWebSocket) (l ++ .close :: l')).log =
        (run step ({} : TradingWebSocket) l).log ++ List.replicate n (.status .closed) := by
  have hstart := sound_run l
  have hend := sound_run (l ++ .close :: l')
  rw [run_append, run_cons] at hend ⊢
  generalize hs : run step ({} : TradingWebSocket) l = s at hstart hend ⊢
  -- what holds right after `close` and is kept by every action
  have hafter : ∀ (l' : List BrowserAction) (t : TradingWebSocket), t.Sound → t.closed = true →
      (run step t l').closed = true ∧ (run step t l').sockets.length = t.sockets.length ∧
        ∃ n, (run step t l').log = t.log ++ List.replicate n (.status .closed) := by
    intro l'
    induction l' with
    | nil => exact fun t _ hc => ⟨hc, rfl, 0, by simp⟩
    | cons a l' ih =>
      intro t ht hc
      obtain ⟨hc', hlen, n, hlog⟩ := closed_adds ht hc a
      obtain ⟨hc'', hlen', m, hlog'⟩ := ih (t.step a) (ht.step a) hc'
      refine ⟨hc'', hlen'.trans hlen, n + m, ?_⟩
      rw [run_cons, hlog', hlog, List.append_assoc, List.replicate_append_replicate]
  have hclose : (s.step .close).closed = true ∧ (s.step .close).sockets.length = s.sockets.length ∧
      (s.step .close).log = s.log ++ List.replicate 1 (.status .closed) := by
    rw [TradingWebSocket.step, close_eq hstart]
    refine ⟨rfl, ?_, rfl⟩
    cases s.socket with
    | none => rfl
    | some i => exact List.length_modify ..
  obtain ⟨hc, hlen, n, hlog⟩ := hafter l' _ (hstart.step .close) hclose.1
  refine ⟨fun i => hend.none_live (by rw [(hend.shut hc).1]; simp) i, (hend.shut hc).2, hlen.trans hclose.2.1,
    1 + n, ?_⟩
  rw [hlog, hclose.2.2, List.append_assoc, List.replicate_append_replicate]

end TradingWebSocket

end AlphaAlgo.Client
