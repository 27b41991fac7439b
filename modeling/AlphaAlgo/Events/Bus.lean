import Mathlib.Tactic
import AlphaAlgo.Base.Values
import AlphaAlgo.Lib.Runs

/-!
# Bus — the in-process event bus and the ledger of its subscriptions

The bus keeps the subscriptions of a topic in a list.  `cancel` removes from that list the first subscription that is
equal to the cancelled one by value (same topic, same handler, same flag) and flags the cancelled one.

The ledger is what the bus is for: every subscription with a flag of its own, and a published event is due to those
that match its type and are not cancelled.

* `delivers_iff`: every event is delivered as the ledger says exactly in the runs in which no subscription is cancelled
  while an older one with the same topic and handler is live (topics that no event matches apart).
-/

namespace AlphaAlgo.Events

open Runs

/-! ### Events -/

/-- `_SAFE_EVENT_TYPE.match`: `$` also matches before a final newline. -/
def safeEventType (s : String) : Bool :=
  match s.toList with
  | [] => false
  | c :: cs =>
    let body := if cs.getLast? = some '\n' then cs.dropLast else cs
    ('a' ≤ c && c ≤ 'z') && body.length ≤ 127 &&
      body.all fun c => ('a' ≤ c && c ≤ 'z') || ('0' ≤ c && c ≤ '9') || c = '_' || c = '.'

/-- The parts of a domain event that the bus reads. -/
structure DomainEvent where
  eventId : UUID
  eventType : String
  safe : safeEventType eventType = true

def wildcard : String := "*"

theorem DomainEvent.ne_wildcard (e : DomainEvent) : e.eventType ≠ wildcard := by
  intro h
  have hsafe := e.safe
  rw [h] at hsafe
  revert hsafe
  decide

/-! ### The bus -/

variable {η : Type*}

/-- A subscription, compared by value; the bus is the same for all. -/
structure Subscription (η : Type*) where
  topic : String
  handler : η
  cancelled : Bool := false
  deriving DecidableEq

structure HandlerFailure where
  topic : String
  eventId : String
  eventType : String
  error : String
  deriving DecidableEq

/-- The bus with the subscription objects in the order in which they were made: an object is its index. -/
structure EventBus (η : Type*) where
  subs : List (Subscription η) := []
  handlers : String → List ℕ := fun _ => []
  published : ℕ := 0
  failures : List HandlerFailure := []

/-- What the loop of a `publish` has done so far. -/
structure Dispatch where
  attempted : List ℕ := []
  invoked : ℕ := 0
  failures : List HandlerFailure := []

namespace EventBus

def subscribe (b : EventBus η) (topic : String) (handler : η) : Except String (EventBus η × ℕ) :=
  if blank topic then .error "topic must be a non-empty string"
  else
    let sub := b.subs.length
    .ok ({ b with
      subs := b.subs ++ [{ topic := topic, handler := handler }]
      handlers := Function.update b.handlers topic (b.handlers topic ++ [sub]) }, sub)

/-- `subscription in subs` and `subs.remove(subscription)` compare by value. -/
def unsubscribe [DecidableEq η] (b : EventBus η) (i : ℕ) : EventBus η :=
  match b.subs[i]? with
  | none => b
  | some sub =>
    if (b.handlers sub.topic).any fun j => b.subs[j]? = some sub then
      { b with
        handlers := Function.update b.handlers sub.topic ((b.handlers sub.topic).eraseP fun j => b.subs[j]? = some sub)
        subs := b.subs.set i { sub with cancelled := true } }
    else b

def matchingSubs (b : EventBus η) (e : DomainEvent) : List ℕ := b.handlers e.eventType ++ b.handlers wildcard

/-- The body of the loop: `raises i` is what the handler of subscription `i` raises for the event. -/
def attempt (b : EventBus η) (e : DomainEvent) (raises : ℕ → Option String) (d : Dispatch) (i : ℕ) : Dispatch :=
  match b.subs[i]? with
  | none => d
  | some sub =>
    if sub.cancelled then d
    else
      { attempted := d.attempted ++ [i]
        invoked := d.invoked + 1
        failures := d.failures ++ (raises i).toList.map fun error => ⟨sub.topic, e.eventId.str, e.eventType, error⟩ }

/-- `publish`: what it attempts and returns. -/
def dispatch (b : EventBus η) (e : DomainEvent) (raises : ℕ → Option String) : Dispatch :=
  (b.matchingSubs e).foldl (b.attempt e raises) {}

def publish (b : EventBus η) (e : DomainEvent) (raises : ℕ → Option String) : EventBus η :=
  { b with published := b.published + 1, failures := b.failures ++ (b.dispatch e raises).failures }

/-- The subscription has not been flagged. -/
def unflagged (b : EventBus η) (i : ℕ) : Bool := (b.subs[i]?).any fun sub => !sub.cancelled

theorem foldl_attempt (b : EventBus η) (e : DomainEvent) (raises : ℕ → Option String) (l : List ℕ) (d : Dispatch) :
    (l.foldl (b.attempt e raises) d).attempted = d.attempted ++ l.filter b.unflagged ∧
      (l.foldl (b.attempt e raises) d).invoked = d.invoked + (l.filter b.unflagged).length := by
  induction l generalizing d with
  | nil => simp
  | cons i l ih =>
    obtain ⟨hattempted, hinvoked⟩ := ih (b.attempt e raises d i)
    rw [List.foldl_cons, hattempted, hinvoked]
    have hcases : (b.attempt e raises d i = d ∧ b.unflagged i = false) ∨
        ((b.attempt e raises d i).attempted = d.attempted ++ [i] ∧ (b.attempt e raises d i).invoked = d.invoked + 1 ∧
          b.unflagged i = true) := by
      unfold attempt unflagged
      cases b.subs[i]? with
      | none => exact .inl ⟨rfl, rfl⟩
      | some sub => cases hflag : sub.cancelled <;> simp [hflag]
    rcases hcases with ⟨h, hflag⟩ | ⟨hone, hcount, hflag⟩
    · rw [h, List.filter_cons_of_neg (by simp [hflag])]
      exact ⟨rfl, rfl⟩
    · rw [hone, hcount, List.filter_cons_of_pos hflag, List.length_cons]
      exact ⟨by simp, by omega⟩

/-- Whatever the handlers raise, the unflagged subscriptions in the lists are attempted. -/
theorem attempted_dispatch (b : EventBus η) (e : DomainEvent) (raises : ℕ → Option String) :
    (b.dispatch e raises).attempted = (b.matchingSubs e).filter b.unflagged := by
  simpa [dispatch] using (b.foldl_attempt e raises (b.matchingSubs e) {}).1

theorem invoked_dispatch (b : EventBus η) (e : DomainEvent) (raises : ℕ → Option String) :
    (b.dispatch e raises).invoked = (b.dispatch e raises).attempted.length := by
  rw [attempted_dispatch]
  simpa [dispatch] using (b.foldl_attempt e raises (b.matchingSubs e) {}).2

end EventBus

/-! ### The ledger -/

/-- The subscriptions in the order in which they were made, each with its own flag. -/
structure Ledger (η : Type*) where
  subs : List (Subscription η) := []

namespace Ledger

def subscribe (L : Ledger η) (topic : String) (handler : η) : Ledger η :=
  ⟨L.subs ++ [{ topic := topic, handler := handler }]⟩

def cancel (L : Ledger η) (i : ℕ) : Ledger η :=
  match L.subs[i]? with
  | none => L
  | some sub => ⟨L.subs.set i { sub with cancelled := true }⟩

/-- Subscription `i` is to the topic and not cancelled. -/
def live (L : Ledger η) (topic : String) (i : ℕ) : Bool :=
  (L.subs[i]?).any fun sub => sub.topic = topic && !sub.cancelled

def liveSubs (L : Ledger η) (topic : String) : List ℕ := (List.range L.subs.length).filter (L.live topic)

/-- The subscriptions that an event is due to. -/
def due (L : Ledger η) (e : DomainEvent) : List ℕ := L.liveSubs e.eventType ++ L.liveSubs wildcard

theorem live_iff {L : Ledger η} {topic : String} {i : ℕ} :
    L.live topic i = true ↔ ∃ sub, L.subs[i]? = some sub ∧ sub.topic = topic ∧ sub.cancelled = false := by
  simp [live, Option.any_eq_true]

theorem mem_liveSubs {L : Ledger η} {topic : String} {i : ℕ} : i ∈ L.liveSubs topic ↔ L.live topic i = true := by
  rw [liveSubs, List.mem_filter, List.mem_range]
  refine ⟨fun h => h.2, fun h => ⟨?_, h⟩⟩
  obtain ⟨sub, hsub, -⟩ := live_iff.mp h
  exact (List.getElem?_eq_some_iff.mp hsub).1

theorem liveSubs_pairwise (L : Ledger η) (topic : String) : (L.liveSubs topic).Pairwise (· < ·) :=
  List.pairwise_lt_range.filter _

theorem live_topic {L : Ledger η} {topic topic' : String} {i : ℕ} (h : L.live topic i = true)
    (h' : L.live topic' i = true) : topic = topic' := by
  obtain ⟨sub, hsub, rfl, -⟩ := live_iff.mp h
  obtain ⟨sub', hsub', rfl, -⟩ := live_iff.mp h'
  rw [hsub] at hsub'
  rw [Option.some.inj hsub']

/-- An event is due to a subscription once. -/
theorem due_nodup (L : Ledger η) (e : DomainEvent) : (L.due e).Nodup := by
  refine List.Nodup.append ((L.liveSubs_pairwise _).imp ne_of_lt) ((L.liveSubs_pairwise _).imp ne_of_lt) ?_
  intro i hi hi'
  exact e.ne_wildcard (live_topic (mem_liveSubs.mp hi) (mem_liveSubs.mp hi'))

theorem liveSubs_subscribe (L : Ledger η) (topic topic' : String) (handler : η) :
    (L.subscribe topic handler).liveSubs topic' =
      if topic = topic' then L.liveSubs topic' ++ [L.subs.length] else L.liveSubs topic' := by
  have hold : ∀ i ∈ List.range L.subs.length, (L.subscribe topic handler).live topic' i = L.live topic' i := by
    intro i hi
    rw [live, subscribe, List.getElem?_append_left (List.mem_range.mp hi), live]
  have hnew : (L.subscribe topic handler).live topic' L.subs.length = decide (topic = topic') := by
    simp [live, subscribe]
  have hlength : (L.subscribe topic handler).subs.length = L.subs.length + 1 := by simp [subscribe]
  rw [liveSubs, hlength, List.range_succ, List.filter_append, List.filter_congr hold, ← liveSubs]
  split_ifs with h
  · rw [List.filter_cons_of_pos (hnew.trans (decide_eq_true h)), List.filter_nil]
  · rw [List.filter_cons_of_neg (by simp [hnew, h]), List.filter_nil, List.append_nil]

theorem liveSubs_cancel (L : Ledger η) (i : ℕ) (topic : String) :
    (L.cancel i).liveSubs topic = (L.liveSubs topic).filter (· ≠ i) := by
  unfold cancel
  cases hi : L.subs[i]? with
  | none =>
    refine (List.filter_eq_self.mpr fun j hj => ?_).symm
    obtain ⟨sub, hsub, -⟩ := live_iff.mp (mem_liveSubs.mp hj)
    refine decide_eq_true fun hji => ?_
    rw [hji, hi] at hsub
    cases hsub
  | some sub =>
    obtain ⟨hlt, -⟩ := List.getElem?_eq_some_iff.mp hi
    rw [liveSubs, liveSubs, List.filter_filter, List.length_set]
    refine List.filter_congr fun j hj => ?_
    by_cases hji : j = i
    · subst hji
      simp [live, hlt]
    · simp [live, List.getElem?_set_ne (Ne.symm hji), hji]

/-- Cancelling changes nothing for the topics to which the subscription is not live. -/
theorem liveSubs_cancel_of_dead {L : Ledger η} {i : ℕ} {topic : String} (h : ¬ L.live topic i = true) :
    (L.cancel i).liveSubs topic = L.liveSubs topic := by
  rw [liveSubs_cancel, List.filter_eq_self]
  refine fun j hj => decide_eq_true fun hji => h ?_
  rw [← hji]
  exact mem_liveSubs.mp hj

theorem getElem?_cancel_of_ne {L : Ledger η} {i k : ℕ} (hk : k ≠ i) : (L.cancel i).subs[k]? = L.subs[k]? := by
  unfold cancel
  split
  · rfl
  · rw [List.getElem?_set_ne hk.symm]

theorem getElem?_cancel_self {L : Ledger η} {i : ℕ} {sub : Subscription η} (h : L.subs[i]? = some sub) :
    (L.cancel i).subs[i]? = some { sub with cancelled := true } := by
  obtain ⟨hlt, -⟩ := List.getElem?_eq_some_iff.mp h
  simp only [cancel, h, List.getElem?_set_self hlt]

end Ledger

/-! ### Runs -/

inductive BusAction (η : Type*) where
  | subscribe (topic : String) (handler : η)
  | cancel (sub : ℕ)
  | publish (e : DomainEvent) (raises : ℕ → Option String)

/-- The bus with the ledger of what was asked of it. -/
structure BusSystem (η : Type*) where
  bus : EventBus η := {}
  ledger : Ledger η := {}

def BusSystem.step [DecidableEq η] (s : BusSystem η) : BusAction η → BusSystem η
  | .subscribe topic handler =>
    match s.bus.subscribe topic handler with
    | .error _ => s
    | .ok (bus, _) => ⟨bus, s.ledger.subscribe topic handler⟩
  | .cancel i => ⟨s.bus.unsubscribe i, s.ledger.cancel i⟩
  | .publish e raises => ⟨s.bus.publish e raises, s.ledger⟩

abbrev busRun [DecidableEq η] (l : List (BusAction η)) : BusSystem η := run BusSystem.step {} l

/-- Every event that may be published now is attempted exactly at the subscriptions that it is due to, each once and in
their order, whatever the handlers raise, and their number is returned. -/
def BusSystem.Delivers (s : BusSystem η) : Prop :=
  ∀ e raises, (s.bus.dispatch e raises).attempted = s.ledger.due e ∧ (s.ledger.due e).Nodup ∧
    (s.bus.dispatch e raises).invoked = (s.ledger.due e).length

/-- Some event matches the topic. -/
def Deliverable (topic : String) : Prop := topic = wildcard ∨ safeEventType topic = true

/-- The condition on a step: of the live subscriptions with its topic and handler, the cancelled one is the oldest. -/
def CancelsOldest (s : BusSystem η) (a : BusAction η) : Prop :=
  ∀ i sub, a = .cancel i → s.ledger.subs[i]? = some sub → sub.cancelled = false → Deliverable sub.topic →
    ∀ j < i, s.ledger.subs[j]? ≠ some sub

/-- The bus and its ledger, on the topics that events match: the lists hold the live subscriptions and the flags are
those of the ledger. -/
structure Tight (s : BusSystem η) : Prop where
  topics : s.bus.subs.map Subscription.topic = s.ledger.subs.map Subscription.topic
  flags : ∀ (i : ℕ) (sub : Subscription η), s.ledger.subs[i]? = some sub → Deliverable sub.topic →
    s.bus.subs[i]? = some sub
  handlers : ∀ topic, Deliverable topic → s.bus.handlers topic = s.ledger.liveSubs topic

/-- Removing the first element of an increasing list that meets a condition, when that is `i`. -/
theorem eraseP_eq_filter {l : List ℕ} {p : ℕ → Bool} {i : ℕ} (hl : l.Pairwise (· < ·)) (hi : i ∈ l) (hp : p i = true)
    (hfirst : ∀ j ∈ l, j < i → p j = false) : l.eraseP p = l.filter (· ≠ i) := by
  obtain ⟨l₁, l₂, rfl⟩ := List.append_of_mem hi
  obtain ⟨-, h₂, hbefore⟩ := List.pairwise_append.mp hl
  have hlt : ∀ j ∈ l₁, j < i := fun j hj => hbefore j hj i List.mem_cons_self
  have hgt : ∀ j ∈ l₂, i < j := (List.pairwise_cons.mp h₂).1
  have hskip : ∀ j ∈ l₁, ¬ p j = true := by
    intro j hj
    rw [hfirst j (List.mem_append_left _ hj) (hlt j hj)]
    exact Bool.false_ne_true
  rw [List.eraseP_append_right _ hskip, List.eraseP_cons_of_pos hp, List.filter_append,
    List.filter_cons_of_neg (by simp), List.filter_eq_self.mpr fun j hj => decide_eq_true (hlt j hj).ne,
    List.filter_eq_self.mpr fun j hj => decide_eq_true (hgt j hj).ne']

/-- Removing the first element that meets a condition, when that is before `i`. -/
theorem exists_not_mem_eraseP {l : List ℕ} {p : ℕ → Bool} {i j : ℕ} (hl : l.Pairwise (· < ·)) (hj : j ∈ l)
    (hp : p j = true) (hji : j < i) : ∃ k ∈ l, k ≠ i ∧ k ∉ l.eraseP p := by
  obtain ⟨k, l₁, l₂, hskip, hk, rfl, hrest⟩ := List.exists_of_eraseP hj hp
  have hnodup := List.nodup_middle.mp (hl.imp ne_of_lt)
  refine ⟨k, List.mem_append_right _ List.mem_cons_self, ?_, hrest ▸ (List.nodup_cons.mp hnodup).1⟩
  rintro rfl
  obtain ⟨-, hafter, -⟩ := List.pairwise_append.mp hl
  rcases List.mem_append.mp hj with hj₁ | hj₂
  · exact hskip j hj₁ hp
  · rcases List.mem_cons.mp hj₂ with rfl | hj₂
    · exact lt_irrefl _ hji
    · exact lt_asymm hji ((List.pairwise_cons.mp hafter).1 j hj₂)

/-- Flagging a subscription keeps the topics. -/
theorem map_topic_set {l : List (Subscription η)} {i : ℕ} {sub : Subscription η} (h : l[i]? = some sub) :
    (l.set i { sub with cancelled := true }).map Subscription.topic = l.map Subscription.topic := by
  obtain ⟨hlt, rfl⟩ := List.getElem?_eq_some_iff.mp h
  rw [List.map_set]
  exact List.ext_getElem (by simp) fun j _ _ => by
    by_cases hj : i = j
    · subst hj
      simp
    · simp [List.getElem_set_ne hj]

namespace Tight

variable {s : BusSystem η}

theorem bus_topic (h : Tight s) {i : ℕ} {sub : Subscription η} (hsub : s.bus.subs[i]? = some sub) :
    ∃ sub', s.ledger.subs[i]? = some sub' ∧ sub'.topic = sub.topic := by
  have hmap := congrArg (fun l : List String => l[i]?) h.topics
  simp only [List.getElem?_map, hsub, Option.map_some] at hmap
  exact Option.map_eq_some_iff.mp hmap.symm

/-- A subscription that is live to a topic which events match. -/
theorem of_live (h : Tight s) {topic : String} (htopic : Deliverable topic) {i : ℕ} (hi : i ∈ s.ledger.liveSubs topic) :
    s.bus.subs[i]? = s.ledger.subs[i]? := by
  obtain ⟨sub, hsub, rfl, -⟩ := Ledger.live_iff.mp (Ledger.mem_liveSubs.mp hi)
  rw [hsub, h.flags i sub hsub htopic]

/-- **What the ledger says is delivered.** -/
theorem delivers (h : Tight s) : s.Delivers := by
  intro e raises
  have hlive : ∀ topic, Deliverable topic → (s.bus.handlers topic).filter s.bus.unflagged = s.ledger.liveSubs topic := by
    intro topic htopic
    rw [h.handlers topic htopic, List.filter_eq_self]
    intro i hi
    obtain ⟨sub, hsub, -, hflag⟩ := Ledger.live_iff.mp (Ledger.mem_liveSubs.mp hi)
    simp [EventBus.unflagged, h.of_live htopic hi, hsub, hflag]
  have hattempted : (s.bus.dispatch e raises).attempted = s.ledger.due e := by
    rw [EventBus.attempted_dispatch, EventBus.matchingSubs, List.filter_append, hlive _ (.inr e.safe), hlive _ (.inl rfl),
      Ledger.due]
  exact ⟨hattempted, s.ledger.due_nodup e, by rw [EventBus.invoked_dispatch, hattempted]⟩

variable [DecidableEq η]

theorem subscribe (h : Tight s) (topic : String) (handler : η) : Tight (s.step (.subscribe topic handler)) := by
  rw [BusSystem.step, EventBus.subscribe]
  have hlength : s.bus.subs.length = s.ledger.subs.length := by simpa using congrArg List.length h.topics
  by_cases hblank : blank topic = true
  · rw [if_pos hblank]
    exact h
  · rw [if_neg hblank]
    refine ⟨by simp [Ledger.subscribe, h.topics], fun i sub hsub htopic => ?_, fun topic' htopic' => ?_⟩
    · dsimp only [Ledger.subscribe] at hsub ⊢
      by_cases hi : i < s.ledger.subs.length
      · rw [List.getElem?_append_left hi] at hsub
        rw [List.getElem?_append_left (hlength ▸ hi)]
        exact h.flags i sub hsub htopic
      · rw [List.getElem?_append_right (not_lt.mp hi)] at hsub
        rw [List.getElem?_append_right (hlength ▸ not_lt.mp hi), hlength]
        exact hsub
    · rw [Ledger.liveSubs_subscribe]
      split_ifs with heq
      · subst heq
        simp only [Function.update_self, h.handlers topic htopic', hlength]
      · simp only [Function.update_of_ne (Ne.symm heq), h.handlers topic' htopic']

/-- What `unsubscribe` does with a subscription that it knows. -/
theorem unsubscribe_cases (b : EventBus η) {i : ℕ} {sub : Subscription η} (hsub : b.subs[i]? = some sub) :
    (b.unsubscribe i = b ∧ ∀ j ∈ b.handlers sub.topic, b.subs[j]? ≠ some sub) ∨
    ((b.unsubscribe i).subs = b.subs.set i { sub with cancelled := true } ∧
      (b.unsubscribe i).handlers =
        Function.update b.handlers sub.topic ((b.handlers sub.topic).eraseP fun j => b.subs[j]? = some sub) ∧
      ∃ j ∈ b.handlers sub.topic, b.subs[j]? = some sub) := by
  unfold EventBus.unsubscribe
  rw [hsub]
  dsimp only
  split_ifs with hany
  · obtain ⟨j, hj, heq⟩ := List.any_eq_true.mp hany
    exact .inr ⟨rfl, rfl, j, hj, of_decide_eq_true heq⟩
  · refine .inl ⟨rfl, fun j hj heq => hany (List.any_eq_true.mpr ⟨j, hj, decide_eq_true heq⟩)⟩

omit [DecidableEq η] in
/-- Where the bus does nothing, the subscription was cancelled before, or no event matches its topic. -/
theorem cancel_nothing (h : Tight s) {i : ℕ} {sub : Subscription η} (hsub : s.ledger.subs[i]? = some sub)
    (hdead : Deliverable sub.topic → sub.cancelled = true) : Tight ⟨s.bus, s.ledger.cancel i⟩ := by
  refine ⟨?_, fun k subk hk htopic => ?_, fun topic htopic => ?_⟩
  · have hmap := map_topic_set hsub
    simp only [Ledger.cancel, hsub, hmap, h.topics]
  · by_cases hki : k = i
    · subst hki
      rw [Ledger.getElem?_cancel_self hsub] at hk
      cases hk
      rw [h.flags k sub hsub htopic, Option.some_inj]
      exact congrArg (fun c => { sub with cancelled := c }) (hdead htopic)
    · rw [Ledger.getElem?_cancel_of_ne hki] at hk
      exact h.flags k subk hk htopic
  · rw [Ledger.liveSubs_cancel_of_dead, h.handlers topic htopic]
    intro hlive
    obtain ⟨sub', hsub', rfl, hflag⟩ := Ledger.live_iff.mp hlive
    rw [hsub] at hsub'
    cases hsub'
    rw [hdead htopic] at hflag
    cases hflag

omit [DecidableEq η] in
/-- Where the bus flags the subscription and its list becomes that of the ledger. -/
theorem cancel_removes (h : Tight s) {i : ℕ} {sub : Subscription η} {b : EventBus η}
    (hsub : s.ledger.subs[i]? = some sub) {bsub : Subscription η} (hbus : s.bus.subs[i]? = some bsub)
    (hset : b.subs = s.bus.subs.set i { bsub with cancelled := true }) {list : List ℕ}
    (hhandlers : b.handlers = Function.update s.bus.handlers bsub.topic list)
    (hlist : Deliverable bsub.topic → list = (s.ledger.cancel i).liveSubs bsub.topic) :
    Tight ⟨b, s.ledger.cancel i⟩ := by
  obtain ⟨sub', hsub', htopics⟩ := h.bus_topic hbus
  rw [hsub] at hsub'
  cases hsub'
  obtain ⟨hlt, -⟩ := List.getElem?_eq_some_iff.mp hbus
  refine ⟨?_, fun k subk hk htopic => ?_, fun topic htopic => ?_⟩
  · have hmap := map_topic_set hsub
    have hmap' := map_topic_set hbus
    simp only [Ledger.cancel, hsub, hmap, hset, hmap', h.topics]
  · dsimp only
    rw [hset]
    by_cases hki : k = i
    · subst hki
      rw [Ledger.getElem?_cancel_self hsub] at hk
      cases hk
      rw [h.flags k sub hsub htopic] at hbus
      cases hbus
      rw [List.getElem?_set_self hlt]
    · rw [Ledger.getElem?_cancel_of_ne hki] at hk
      rw [List.getElem?_set_ne (Ne.symm hki)]
      exact h.flags k subk hk htopic
  · dsimp only
    rw [hhandlers]
    by_cases heq : topic = bsub.topic
    · subst heq
      rw [Function.update_self, hlist htopic]
    · rw [Function.update_of_ne heq, h.handlers topic htopic, Ledger.liveSubs_cancel_of_dead]
      intro hlive
      obtain ⟨sub', hsub', rfl, -⟩ := Ledger.live_iff.mp hlive
      rw [hsub] at hsub'
      cases hsub'
      exact heq htopics

/-- **Cancelling the oldest** of the live subscriptions with its topic and handler. -/
theorem cancel (h : Tight s) {i : ℕ} (hG : CancelsOldest s (.cancel i)) : Tight (s.step (.cancel i)) := by
  cases hbus : s.bus.subs[i]? with
  | none =>
    have hledger : s.ledger.subs[i]? = none := by
      have hmap := congrArg (fun l : List String => l[i]?) h.topics
      simpa [hbus] using hmap.symm
    have hsame : s.step (.cancel i) = s := by simp [BusSystem.step, EventBus.unsubscribe, Ledger.cancel, hbus, hledger]
    rw [hsame]
    exact h
  | some bsub =>
    obtain ⟨sub, hsub, htopic⟩ := h.bus_topic hbus
    rcases unsubscribe_cases s.bus hbus with ⟨hsame, habsent⟩ | ⟨hset, hhandlers, j, hj, hjsub⟩
    · rw [BusSystem.step, hsame]
      refine h.cancel_nothing hsub fun hdeliverable => ?_
      have hboth := h.flags i sub hsub hdeliverable
      by_contra hflag
      have hlive := Ledger.mem_liveSubs.mpr (Ledger.live_iff.mpr ⟨sub, hsub, rfl, by simpa using hflag⟩)
      rw [← h.handlers _ hdeliverable, htopic] at hlive
      exact habsent i hlive hbus
    · refine h.cancel_removes hsub hbus hset hhandlers fun hdeliverable => ?_
      have hboth := h.flags i sub hsub (htopic ▸ hdeliverable)
      rw [hbus] at hboth
      cases hboth
      rw [h.handlers _ hdeliverable] at hj ⊢
      -- the lists hold live subscriptions, so the cancelled one is live too, and the first that equals it
      have hflag : bsub.cancelled = false := by
        obtain ⟨sub', hsub', -, hflag⟩ := Ledger.live_iff.mp (Ledger.mem_liveSubs.mp hj)
        rw [h.of_live hdeliverable hj, hsub'] at hjsub
        cases hjsub
        exact hflag
      have hlive := Ledger.mem_liveSubs.mpr (Ledger.live_iff.mpr ⟨bsub, hsub, rfl, hflag⟩)
      rw [Ledger.liveSubs_cancel]
      refine eraseP_eq_filter (s.ledger.liveSubs_pairwise _) hlive (decide_eq_true hbus) fun k hk hki => ?_
      rw [h.of_live hdeliverable hk]
      exact decide_eq_false (hG i bsub rfl hsub hflag hdeliverable k hki)

theorem step (h : Tight s) {a : BusAction η} (hG : CancelsOldest s a) : Tight (s.step a) := by
  cases a with
  | subscribe topic handler => exact h.subscribe topic handler
  | cancel i => exact h.cancel hG
  | publish e raises => exact ⟨h.topics, h.flags, h.handlers⟩

/-- **Cancelling another** leaves an older subscription that no event reaches any more. -/
theorem cancelsOldest_of_delivers (h : Tight s) {a : BusAction η} (hafter : (s.step a).Delivers) : CancelsOldest s a := by
  rintro i sub rfl hsub hflag htopic j hji hj
  have hmem : ∀ k, s.ledger.subs[k]? = some sub → k ∈ s.ledger.liveSubs sub.topic := fun k hk =>
    Ledger.mem_liveSubs.mpr (Ledger.live_iff.mpr ⟨sub, hk, rfl, hflag⟩)
  have hbus := h.flags i sub hsub htopic
  rcases unsubscribe_cases s.bus hbus with ⟨-, habsent⟩ | ⟨-, hhandlers, -⟩
  · rw [h.handlers _ htopic] at habsent
    exact habsent i (hmem i hsub) hbus
  · rw [h.handlers _ htopic] at hhandlers
    -- the list loses an older subscription that the ledger keeps
    obtain ⟨k, hkmem, hki, hremoved⟩ := exists_not_mem_eraseP (s.ledger.liveSubs_pairwise sub.topic) (hmem j hj)
      (p := fun k => s.bus.subs[k]? = some sub) (decide_eq_true (h.flags j sub hj htopic)) hji
    have hlost : ∀ topic, Deliverable topic → k ∉ (s.bus.unsubscribe i).handlers topic := by
      intro topic htopic' hin
      rw [hhandlers] at hin
      by_cases heq : topic = sub.topic
      · subst heq
        rw [Function.update_self] at hin
        exact hremoved hin
      · rw [Function.update_of_ne heq, h.handlers topic htopic'] at hin
        exact heq (Ledger.live_topic (Ledger.mem_liveSubs.mp hin) (Ledger.mem_liveSubs.mp hkmem))
    have hkept : k ∈ (s.ledger.cancel i).liveSubs sub.topic := by
      rw [Ledger.liveSubs_cancel]
      exact List.mem_filter.mpr ⟨hkmem, decide_eq_true hki⟩
    obtain ⟨e, he⟩ : ∃ e : DomainEvent, sub.topic = e.eventType ∨ sub.topic = wildcard := by
      rcases htopic with hwild | hsafe
      · exact ⟨⟨⟨0⟩, "a", by decide⟩, .inr hwild⟩
      · exact ⟨⟨⟨0⟩, sub.topic, hsafe⟩, .inl rfl⟩
    have hdue : k ∈ (s.ledger.cancel i).due e := by
      rcases he with he | he <;> rw [he] at hkept
      · exact List.mem_append_left _ hkept
      · exact List.mem_append_right _ hkept
    have hattempted := (hafter e fun _ => none).1
    rw [BusSystem.step] at hattempted
    rw [← hattempted, EventBus.attempted_dispatch] at hdue
    rcases List.mem_append.mp (List.mem_of_mem_filter hdue) with hin | hin
    · exact hlost _ (.inr e.safe) hin
    · exact hlost _ (.inl rfl) hin

end Tight

/-- **The bus delivers as its ledger says** after every prefix of exactly the runs that cancel, of the live
subscriptions with one topic and handler, the oldest first. -/
theorem delivers_iff [DecidableEq η] (l : List (BusAction η)) :
    (∀ l', l' <+: l → (busRun l').Delivers) ↔ Along BusSystem.step CancelsOldest {} l := by
  refine prefixes_iff_along (I := Tight) (P := BusSystem.Delivers) (fun s a h hG => h.step hG) (fun s h => h.delivers)
    (fun s a h hafter => h.cancelsOldest_of_delivers hafter) ⟨rfl, by simp, fun topic _ => rfl⟩ l

/-- A handler is subscribed twice and the second subscription is cancelled: the first is not delivered to any more. -/
theorem not_delivers_same_handler :
    ¬ (busRun [BusAction.subscribe "order.created" 0, .subscribe "order.created" 0, .cancel 1]).Delivers := by
  intro h
  have hattempted := (h ⟨⟨0⟩, "order.created", by decide⟩ fun _ => none).1
  revert hattempted
  decide

end AlphaAlgo.Events
