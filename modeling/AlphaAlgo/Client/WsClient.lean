import AlphaAlgo.Client.WebSocket

/-!
# WsClient — the socket of the mobile and the desktop client

`WsClient` and the `WsController` that holds one, the same in both apps.  A channel is there as soon as it was asked
for; whether it could be opened shows in its end alone.  Its stream delivers to a listener until this is cancelled.  Each
function is given with what it reports and schedules.

* `Sound`: the invariant of a client; a client that was closed is `Silent`.
* `Held`: only the client of the last start is not silent.
* `wsController_runs`: the channel and the timers of every run belong to the token of the last start.
* `wsController_lost`: a channel that is lost is asked for again after one second, however often that failed.
-/

namespace AlphaAlgo.Client

open Runs

/-! ### The client -/

/-- A channel and the token that it was opened with. -/
structure WebSocketChannel where
  id : ℕ
  token : String
deriving DecidableEq, Repr

/-- The variables of the client, and its timers: those that were set and those that have neither fired nor been
cancelled, with the token that they connect with. -/
structure WsClient where
  channel : Option WebSocketChannel := none
  subscription : Option WebSocketChannel := none
  timer : Option ℕ := none
  closed : Bool := false
  attempt : ℕ := 0
  channels : ℕ := 0
  timers : ℕ := 0
  pending : List (ℕ × String) := []
deriving DecidableEq

namespace WsClient

/-- `_timer?.cancel()`. -/
def cancelTimer (c : WsClient) : List (ℕ × String) := c.pending.filter fun p => some p.1 ≠ c.timer

/-- The wait after `attempt` failures. -/
def delay (attempt : ℕ) : ℕ := 1000 * 2 ^ min attempt 8

def scheduleReconnect (c : WsClient) (token : String) : WsClient × List Effect :=
  if c.closed then (c, [])
  else
    ({ c with
        attempt := c.attempt + 1, timer := some c.timers, timers := c.timers + 1
        pending := c.cancelTimer ++ [(c.timers, token)] },
      [.wait (delay c.attempt)])

/-- The first `onStatus` of `connect`. -/
def announced (c : WsClient) : WsStatus := if c.attempt = 0 then .connecting else .reconnecting

/-- `connect`; `created` tells whether the constructor of the channel returns. -/
def connect (c : WsClient) (token : String) (created : Bool) : WsClient × List Effect :=
  if c.closed || c.channel.isSome then (c, [])
  else if created then
    ({ c with
        channel := some ⟨c.channels, token⟩, subscription := some ⟨c.channels, token⟩, channels := c.channels + 1
        attempt := 0 },
      [.status c.announced, .dial, .status .opened])
  else ((c.scheduleReconnect token).1, .status c.announced :: (c.scheduleReconnect token).2)

def reset (c : WsClient) : WsClient := { c with subscription := none, channel := none }

def handleDone (c : WsClient) (token : String) : WsClient × List Effect :=
  ((c.reset.scheduleReconnect token).1, .status .closed :: (c.reset.scheduleReconnect token).2)

def close (c : WsClient) : WsClient × List Effect :=
  ({ c with closed := true, timer := none, pending := c.cancelTimer, subscription := none, channel := none },
    [.status .closed])

/-- What happens to a client: a timer fires, a channel delivers or ends. -/
inductive ClientEvent where
  | fires (timer : ℕ) (created : Bool)
  | message (channel : ℕ) (raw : RawMessage)
  | done (channel : ℕ)

/-- One event; what cannot happen, and what nobody listens to, leaves everything as it is. -/
def react (c : WsClient) : ClientEvent → WsClient × List Effect
  | .fires timer created =>
    match c.pending.lookup timer with
    | some token => { c with pending := c.pending.filter fun p => p.1 ≠ timer }.connect token created
    | none => (c, [])
  | .message channel raw =>
    if c.subscription.any fun k => k.id = channel then
      match normalizeWsEvent raw with
      | some e => (c, [.event e])
      | none => (c, [])
    else (c, [])
  | .done channel =>
    match c.subscription with
    | some k => if k.id = channel then c.handleDone k.token else (c, [])
    | none => (c, [])

/-- The status that is shown after effects. -/
def lastStatus (status : WsStatus) (effects : List Effect) : WsStatus :=
  effects.foldl (fun st e => match e with
    | .status s => s
    | _ => st) status

/-- A client that was not closed and connects with one token: it listens to its channel, and at most its timer is
pending. -/
structure Sound (token : String) (c : WsClient) : Prop where
  heard : c.subscription = c.channel
  timed : ∀ p ∈ c.pending, c.timer = some p.1 ∧ p.2 = token
  one : c.pending.length ≤ 1
  ready : c.channel.isSome = true → c.attempt = 0
  token_eq : ∀ k, c.channel = some k → k.token = token
  kept : c.closed = false

/-- There is a channel, or a timer that is still to fire. -/
def Going (c : WsClient) : Prop := c.channel.isSome = true ∨ c.pending ≠ []

/-- Nothing happens to the client any more. -/
structure Silent (c : WsClient) : Prop where
  closed : c.closed = true
  channel : c.channel = none
  subscription : c.subscription = none
  pending : c.pending = []

theorem Sound.cancelTimer {token : String} {c : WsClient} (h : c.Sound token) : c.cancelTimer = [] := by
  unfold WsClient.cancelTimer
  rw [List.filter_eq_nil_iff]
  intro p hp
  rw [(h.timed p hp).1]
  simp

theorem scheduleReconnect_eq {token : String} {c : WsClient} (h : c.Sound token) :
    c.scheduleReconnect token =
      ({ c with
          attempt := c.attempt + 1, timer := some c.timers, timers := c.timers + 1, pending := [(c.timers, token)] },
        [.wait (delay c.attempt)]) := by
  unfold scheduleReconnect
  rw [if_neg (by rw [h.kept]; exact Bool.false_ne_true), h.cancelTimer, List.nil_append]

/-- A client without a channel waits. -/
theorem Sound.scheduleReconnect {token : String} {c : WsClient} (h : c.Sound token) (hnone : c.channel = none) :
    (c.scheduleReconnect token).1.Sound token ∧ (c.scheduleReconnect token).1.Going ∧
      (c.scheduleReconnect token).1.channel = none := by
  rw [scheduleReconnect_eq h]
  refine ⟨⟨h.heard, ?_, Nat.le_refl 1, fun hsome => ?_, h.token_eq, h.kept⟩, Or.inr (List.cons_ne_nil _ _), hnone⟩
  · intro p hp
    rw [List.mem_singleton.mp hp]
    exact ⟨rfl, rfl⟩
  · have : c.channel.isSome = true := hsome
    rw [hnone] at this
    cases this

theorem Sound.reset {token : String} {c : WsClient} (h : c.Sound token) : c.reset.Sound token :=
  ⟨rfl, h.timed, h.one, fun hsome => (by cases hsome), fun _ hk => (by cases hk), h.kept⟩

/-- The status shows whether there is a channel. -/
def Shows (status : WsStatus) (c : WsClient) : Prop := status = .opened ↔ c.channel.isSome = true

/-- What a function keeps: the invariant, and that the status shows whether there is a channel. -/
structure Keeps (token : String) (status : WsStatus) (r : WsClient × List Effect) : Prop where
  sound : r.1.Sound token
  going : r.1.Going
  shows : Shows (lastStatus status r.2) r.1

theorem Sound.connect {token : String} {c : WsClient} (h : c.Sound token) {status : WsStatus} (hs : Shows status c)
    (created : Bool) : Keeps token status (c.connect token created) := by
  unfold WsClient.connect
  rw [h.kept, Bool.false_or]
  split_ifs with hsome hcreated
  · exact ⟨h, Or.inl hsome, hs⟩
  · refine ⟨⟨rfl, h.timed, h.one, fun _ => rfl, fun k hk => ?_, rfl⟩, Or.inl rfl, ?_⟩
    · rw [← Option.some.inj hk]
    · exact ⟨fun _ => rfl, fun _ => rfl⟩
  · have hnone : c.channel = none := by simpa using hsome
    obtain ⟨h₁, h₂, h₃⟩ := h.scheduleReconnect hnone
    refine ⟨h₁, h₂, ?_⟩
    rw [scheduleReconnect_eq h]
    show c.announced = .opened ↔ c.channel.isSome = true
    unfold announced
    rw [hnone]
    split_ifs <;> simp

theorem Sound.handleDone {token : String} {c : WsClient} (h : c.Sound token) (status : WsStatus) :
    Keeps token status (c.handleDone token) := by
  obtain ⟨h₁, h₂, h₃⟩ := h.reset.scheduleReconnect rfl
  refine ⟨h₁, h₂, ?_⟩
  unfold WsClient.handleDone
  rw [scheduleReconnect_eq h.reset]
  exact ⟨fun hclosed => (by cases hclosed), fun hsome => (by cases hsome)⟩

theorem Sound.fired {token : String} {c : WsClient} (h : c.Sound token) (timer : ℕ) :
    ({ c with pending := c.pending.filter fun p => p.1 ≠ timer } : WsClient).Sound token :=
  ⟨h.heard, fun p hp => h.timed p (List.mem_of_mem_filter hp), (List.length_filter_le _ _).trans h.one, h.ready,
    h.token_eq, h.kept⟩

/-- **Every event keeps the invariant.** -/
theorem Sound.react {token : String} {c : WsClient} (h : c.Sound token) (hgoing : c.Going) {status : WsStatus}
    (hs : Shows status c) (e : ClientEvent) : Keeps token status (c.react e) := by
  have hstays : Keeps token status (c, []) := ⟨h, hgoing, hs⟩
  cases e with
  | fires timer created =>
    cases hp : c.pending.lookup timer with
    | none =>
      simp only [WsClient.react, hp]
      exact hstays
    | some token' =>
      obtain ⟨l₁, l₂, hl, -⟩ := List.lookup_eq_some_iff.mp hp
      have hmem : (timer, token') ∈ c.pending := by
        rw [hl]
        exact List.mem_append_right _ List.mem_cons_self
      have htoken : token' = token := (h.timed _ hmem).2
      simp only [WsClient.react, hp, htoken]
      exact (h.fired timer).connect hs created
  | message channel raw =>
    simp only [WsClient.react]
    split_ifs
    · cases normalizeWsEvent raw with
      | none => exact hstays
      | some e => exact ⟨h, hgoing, hs⟩
    · exact hstays
  | done channel =>
    cases hk : c.subscription with
    | none =>
      simp only [WsClient.react, hk]
      exact hstays
    | some k =>
      have htoken : k.token = token := h.token_eq k (h.heard.symm.trans hk)
      simp only [WsClient.react, hk, htoken]
      split_ifs
      · exact h.handleDone status
      · exact hstays

theorem Sound.close {token : String} {c : WsClient} (h : c.Sound token) : c.close.1.Silent :=
  ⟨rfl, rfl, rfl, h.cancelTimer⟩

/-- Nothing happens to a silent client. -/
theorem Silent.react {c : WsClient} (h : c.Silent) (e : ClientEvent) : c.react e = (c, []) := by
  cases e with
  | fires timer created => simp only [WsClient.react, h.pending, List.lookup_nil]
  | message channel raw => simp only [WsClient.react, h.subscription, Option.any_none, Bool.false_eq_true, if_false]
  | done channel => simp only [WsClient.react, h.subscription]

end WsClient

/-! ### The controller -/

/-- `WsController`, with every client that it has made. -/
structure WsController where
  client : Option ℕ := none
  status : WsStatus := .closed
  lastEvent : Option HealthUpdateEvent := none
  clients : List WsClient := []
deriving DecidableEq

namespace WsController

/-- The callbacks that the controller gives to its clients. -/
def report (w : WsController) : Effect → WsController
  | .status s => { w with status := s }
  | .event e => { w with lastEvent := some e }
  | .dial => w
  | .wait _ => w

/-- A client after a call or an event, with what it reported. -/
def update (w : WsController) (i : ℕ) (r : WsClient × List Effect) : WsController :=
  r.2.foldl report { w with clients := w.clients.set i r.1 }

def stop (w : WsController) : WsController :=
  let w := match w.client with
    | none => w
    | some i =>
      match w.clients[i]? with
      | none => w
      | some c => w.update i c.close
  { w with client := none, status := .closed }

def start (w : WsController) (token : String) (created : Bool) : WsController :=
  let w := w.stop
  let w := { w with client := some w.clients.length, clients := w.clients ++ [({} : WsClient)] }
  w.update (w.clients.length - 1) (({} : WsClient).connect token created)

inductive ControllerAction where
  | start (token : String) (created : Bool)
  | stop
  | event (i : ℕ) (e : WsClient.ClientEvent)

def step (w : WsController) : ControllerAction → WsController
  | .start token created => w.start token created
  | .stop => w.stop
  | .event i e =>
    match w.clients[i]? with
    | some c => w.update i (c.react e)
    | none => w

/-! ### Runs -/

theorem foldl_report (effects : List Effect) (w : WsController) :
    (effects.foldl report w).clients = w.clients ∧ (effects.foldl report w).client = w.client ∧
      (effects.foldl report w).status = WsClient.lastStatus w.status effects := by
  induction effects generalizing w with
  | nil => exact ⟨rfl, rfl, rfl⟩
  | cons e effects ih =>
    obtain ⟨h₁, h₂, h₃⟩ := ih (w.report e)
    have hclients : (w.report e).clients = w.clients := by cases e <;> rfl
    have hclient : (w.report e).client = w.client := by cases e <;> rfl
    refine ⟨h₁.trans hclients, h₂.trans hclient, h₃.trans ?_⟩
    cases e <;> rfl

@[simp] theorem update_clients (w : WsController) (i : ℕ) (r : WsClient × List Effect) :
    (w.update i r).clients = w.clients.set i r.1 := (foldl_report r.2 _).1

@[simp] theorem update_client (w : WsController) (i : ℕ) (r : WsClient × List Effect) :
    (w.update i r).client = w.client := (foldl_report r.2 _).2.1

@[simp] theorem update_status (w : WsController) (i : ℕ) (r : WsClient × List Effect) :
    (w.update i r).status = WsClient.lastStatus w.status r.2 := (foldl_report r.2 _).2.2

/-- The client of a controller, in the list of its clients. -/
def Current (w : WsController) (i : ℕ) (c : WsClient) : Prop := w.client = some i ∧ w.clients[i]? = some c

/-- The token of the last start that no stop followed. -/
def wanted (token : Option String) : ControllerAction → Option String
  | .start token _ => some token
  | .stop => none
  | .event _ _ => token

/-- Only the client of the last start is not silent; the status shows whether it has a channel. -/
structure Held (w : WsController) (token : Option String) : Prop where
  silent : ∀ (i : ℕ) (c : WsClient), w.clients[i]? = some c → w.client ≠ some i → c.Silent
  stopped : token = none → w.client = none ∧ w.status = .closed
  current : ∀ t, token = some t →
    ∃ (i : ℕ) (c : WsClient), w.Current i c ∧ c.Sound t ∧ c.Going ∧ WsClient.Shows w.status c

theorem getElem?_set_self {l : List WsClient} {i : ℕ} {c c' : WsClient} (h : l[i]? = some c) :
    (l.set i c')[i]? = some c' := by
  obtain ⟨hi, -⟩ := List.getElem?_eq_some_iff.mp h
  rw [List.getElem?_set_self hi]

theorem Held.stop {w : WsController} {token : Option String} (h : w.Held token) : w.stop.Held none := by
  have hclient : w.stop.client = none ∧ w.stop.status = .closed := ⟨rfl, rfl⟩
  refine ⟨fun i c hc _ => ?_, fun _ => hclient, fun t ht => (by cases ht)⟩
  cases token with
  | none =>
    have hnone := (h.stopped rfl).1
    have hsame : w.stop.clients = w.clients := by
      unfold WsController.stop
      rw [hnone]
    rw [hsame] at hc
    exact h.silent i c hc (by rw [hnone]; exact fun hi => by cases hi)
  | some t =>
    obtain ⟨j, d, ⟨hj, hd⟩, hsound, -, -⟩ := h.current t rfl
    have hset : w.stop.clients = w.clients.set j d.close.1 := by
      unfold WsController.stop
      simp only [hj, hd]
      exact update_clients w j d.close
    rw [hset] at hc
    by_cases hij : j = i
    · subst hij
      rw [getElem?_set_self hd] at hc
      rw [← Option.some.inj hc]
      exact hsound.close
    · rw [List.getElem?_set_ne hij] at hc
      exact h.silent i c hc (by rw [hj]; exact fun hi => hij (Option.some.inj hi))

theorem Held.start {w : WsController} {token : Option String} (h : w.Held token) (t : String) (created : Bool) :
    (w.start t created).Held (some t) := by
  have hstop := h.stop
  have hclient : (w.start t created).client = some w.stop.clients.length := by
    unfold WsController.start
    rw [update_client]
  have hclients : (w.start t created).clients = w.stop.clients ++ [(({} : WsClient).connect t created).1] := by
    unfold WsController.start
    rw [update_clients]
    simp
  have hnew : (w.start t created).clients[w.stop.clients.length]? = some (({} : WsClient).connect t created).1 := by
    rw [hclients]
    simp
  have hempty : ({} : WsClient).Sound t :=
    ⟨rfl, fun p hp => (by cases hp), Nat.zero_le _, fun _ => rfl, fun k hk => (by cases hk), rfl⟩
  have hshows : WsClient.Shows w.stop.status {} := by
    rw [(hstop.stopped rfl).2]
    exact ⟨fun hopen => (by cases hopen), fun hsome => (by cases hsome)⟩
  have hkeeps : WsClient.Keeps t w.stop.status (({} : WsClient).connect t created) := hempty.connect hshows created
  refine ⟨fun i c hc hi => ?_, fun ht => (by cases ht), fun t' ht => ?_⟩
  · rw [hclient] at hi
    rw [hclients] at hc
    rcases lt_or_ge i w.stop.clients.length with hlt | hge
    · rw [List.getElem?_append_left hlt] at hc
      exact hstop.silent i c hc (by rw [(hstop.stopped rfl).1]; exact fun hn => by cases hn)
    · have hlen := (List.getElem?_eq_some_iff.mp hc).1
      rw [List.length_append, List.length_singleton] at hlen
      exact absurd (congrArg some (by omega : w.stop.clients.length = i)) hi
  · cases ht
    refine ⟨_, _, ⟨hclient, hnew⟩, hkeeps.sound, hkeeps.going, ?_⟩
    have hstatus : (w.start t created).status =
        WsClient.lastStatus w.stop.status (({} : WsClient).connect t created).2 := by
      unfold WsController.start
      rw [update_status]
    rw [hstatus]
    exact hkeeps.shows

theorem Held.event {w : WsController} {token : Option String} (h : w.Held token) (i : ℕ)
    (e : WsClient.ClientEvent) : (w.step (.event i e)).Held token := by
  cases hc : w.clients[i]? with
  | none =>
    simp only [WsController.step, hc]
    exact h
  | some c =>
    simp only [WsController.step, hc]
    by_cases hi : w.client = some i
    · cases token with
      | none =>
        rw [(h.stopped rfl).1] at hi
        cases hi
      | some t =>
        obtain ⟨j, d, ⟨hj, hd⟩, hsound, hgoing, hshows⟩ := h.current t rfl
        have hij : j = i := Option.some.inj (hj.symm.trans hi)
        subst hij
        rw [hd] at hc
        cases hc
        have hkeeps := hsound.react hgoing hshows e
        refine ⟨fun k c' hk hne => ?_, fun ht => (by cases ht), fun t' ht => ?_⟩
        · rw [update_client] at hne
          rw [update_clients, List.getElem?_set_ne (fun hjk => hne (by rw [hj, hjk]))] at hk
          exact h.silent k c' hk hne
        · cases ht
          refine ⟨j, _, ⟨(update_client ..).trans hj, ?_⟩, hkeeps.sound, hkeeps.going, ?_⟩
          · rw [update_clients, getElem?_set_self hd]
          · rw [update_status]
            exact hkeeps.shows
    · -- a client that is not the current one is silent
      rw [(h.silent i c hc hi).react e]
      have hsame : w.update i (c, []) = w := by
        show ({ w with clients := w.clients.set i c } : WsController) = w
        obtain ⟨hlt, hget⟩ := List.getElem?_eq_some_iff.mp hc
        rw [← hget, List.set_getElem_self hlt]
      rw [hsame]
      exact h

/-- **Every action keeps the invariant.** -/
theorem Held.step {w : WsController} {token : Option String} (h : w.Held token) (a : ControllerAction) :
    (w.step a).Held (wanted token a) := by
  cases a with
  | start t created => exact h.start t created
  | stop => exact h.stop
  | event i e => exact h.event i e

theorem held_run (l : List ControllerAction) {w : WsController} {token : Option String} (h : w.Held token) :
    (run step w l).Held (l.foldl wanted token) := by
  induction l generalizing w token with
  | nil => exact h
  | cons a l ih => exact ih (h.step a)

theorem held_initial : ({} : WsController).Held none :=
  ⟨fun i c hc => (by simp at hc), fun _ => ⟨rfl, rfl⟩, fun t ht => (by cases ht)⟩

/-- A client that is not silent is the current one. -/
theorem Held.sound_of {w : WsController} {token : Option String} (h : w.Held token) {i : ℕ} {c : WsClient}
    (hc : w.clients[i]? = some c) (hne : ¬ c.Silent) : w.client = some i ∧ ∃ t, token = some t ∧ c.Sound t := by
  have hi : w.client = some i := by
    by_contra hi
    exact hne (h.silent i c hc hi)
  refine ⟨hi, ?_⟩
  cases token with
  | none =>
    rw [(h.stopped rfl).1] at hi
    cases hi
  | some t =>
    obtain ⟨j, d, ⟨hj, hd⟩, hsound, -, -⟩ := h.current t rfl
    rw [hj] at hi
    cases hi
    rw [hd] at hc
    cases hc
    exact ⟨t, rfl, hsound⟩

/-- **One connection, of the last start.**  However starts, stops, timers and channels interleave: a channel or a
pending timer of any client ever made belongs to the token of the last start, and there is none after a stop; at most
one client has a channel; and the status is `open` exactly while one has. -/
theorem wsController_runs (l : List ControllerAction) :
    (∀ c ∈ (run step {} l).clients, (∀ k, c.channel = some k → l.foldl wanted none = some k.token) ∧
        ∀ p ∈ c.pending, l.foldl wanted none = some p.2) ∧
      (∀ (i j : ℕ) (c d : WsClient), (run step {} l).clients[i]? = some c → (run step {} l).clients[j]? = some d →
        c.channel.isSome = true → d.channel.isSome = true → i = j) ∧
      ((run step {} l).status = .opened ↔ ∃ c ∈ (run step {} l).clients, c.channel.isSome = true) := by
  have h := held_run l held_initial
  refine ⟨fun c hmem => ⟨fun k hk => ?_, fun p hp => ?_⟩, fun i j c d hc hd hci hdj => ?_, ?_⟩
  · obtain ⟨i, hi⟩ := List.getElem?_of_mem hmem
    obtain ⟨-, t, ht, hsound⟩ := h.sound_of hi fun hs => by rw [hs.channel] at hk; cases hk
    rw [ht, hsound.token_eq k hk]
  · obtain ⟨i, hi⟩ := List.getElem?_of_mem hmem
    obtain ⟨-, t, ht, hsound⟩ := h.sound_of hi fun hs => by rw [hs.pending] at hp; cases hp
    rw [ht, (hsound.timed p hp).2]
  · have h₁ := (h.sound_of hc fun hs => by rw [hs.channel] at hci; cases hci).1
    have h₂ := (h.sound_of hd fun hs => by rw [hs.channel] at hdj; cases hdj).1
    exact Option.some.inj (h₁.symm.trans h₂)
  · cases ht : l.foldl wanted none with
    | none =>
      constructor
      · intro hopen
        rw [(h.stopped ht).2] at hopen
        cases hopen
      · rintro ⟨c, hmem, hsome⟩
        obtain ⟨i, hi⟩ := List.getElem?_of_mem hmem
        have hcurrent := (h.sound_of hi fun hs => by rw [hs.channel] at hsome; cases hsome).1
        rw [(h.stopped ht).1] at hcurrent
        cases hcurrent
    | some t =>
      obtain ⟨j, d, ⟨hj, hd⟩, -, -, hshows⟩ := h.current t ht
      constructor
      · exact fun hopen => ⟨d, List.mem_of_getElem? hd, hshows.mp hopen⟩
      · rintro ⟨c, hmem, hsome⟩
        obtain ⟨i, hi⟩ := List.getElem?_of_mem hmem
        have hcurrent := (h.sound_of hi fun hs => by rw [hs.channel] at hsome; cases hsome).1
        rw [hj] at hcurrent
        cases hcurrent
        rw [hd] at hi
        cases hi
        exact hshows.mpr hsome

/-- Two starts, between them a channel that is lost and asked for again. -/
def sampleActions : List ControllerAction :=
  [.start "first" true, .event 0 (.done 0), .event 0 (.fires 0 true), .start "second" true, .event 0 (.done 1)]

theorem wsController_runs_sample : (run step {} sampleActions).status = .opened :=
  (wsController_runs sampleActions).2.2.mpr (by decide)

/-- **A lost channel is asked for again after one second.**  In every run, the end of a channel is reported and
followed by the shortest wait, however many of its predecessors were lost; and from a start to the next stop the client
has a channel or a timer that is still to fire. -/
theorem wsController_lost (l : List ControllerAction) :
    (∀ c ∈ (run step {} l).clients, ∀ k, c.channel = some k →
        (c.react (.done k.id)).2 = [.status .closed, .wait 1000]) ∧
      ((l.foldl wanted none).isSome = true → ∃ c ∈ (run step {} l).clients, c.Going) := by
  have h := held_run l held_initial
  refine ⟨fun c hmem k hk => ?_, fun hsome => ?_⟩
  · obtain ⟨i, hi⟩ := List.getElem?_of_mem hmem
    obtain ⟨-, t, -, hsound⟩ := h.sound_of hi fun hs => by rw [hs.channel] at hk; cases hk
    have hattempt : c.attempt = 0 := hsound.ready (by rw [hk]; rfl)
    simp only [WsClient.react, hsound.heard, hk, if_true, hsound.token_eq k hk, WsClient.handleDone,
      WsClient.scheduleReconnect_eq hsound.reset]
    show [Effect.status .closed, .wait (WsClient.delay c.attempt)] = _
    rw [hattempt]
    rfl
  · obtain ⟨t, ht⟩ := Option.isSome_iff_exists.mp hsome
    obtain ⟨i, c, ⟨-, hc⟩, -, hgoing, -⟩ := h.current t ht
    exact ⟨c, List.mem_of_getElem? hc, hgoing⟩

theorem wsController_lost_sample : ∃ c ∈ (run step {} sampleActions).clients, c.Going :=
  (wsController_lost sampleActions).2 rfl

end WsController

end AlphaAlgo.Client
