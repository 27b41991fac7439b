import AlphaAlgo.Paper.BookRuns
import AlphaAlgo.Paper.Service

/-!
# Adapter — calls on the paper broker

The adapter keeps the book by account and client order id, and a map from client order id to the account that used it
last.  `eventsFor` reads the book through that map.

* `eventsFor_eq`: what is read back under a client order id is the history of the last account that used it.
* `eventsFor_complete`: this is the whole history of the client order id exactly when one account used it.
-/

namespace AlphaAlgo.Paper

open Runs

/-! ### Calls -/

structure BrokerSessionState where
  brokerName : String
  accountIdentifier : String
  connected : Bool
  authenticated : Bool
  checkedAt : DateTime
  expiresAt : Option DateTime

namespace PaperBroker

/-- `connect`, at the reading `now` of the clock; the flag is set before the clock is read.  A name without quotes is
shown between quotes. -/
def connect (b : PaperBroker) (brokerName accountIdentifier : String) (now : DateTime) :
    PaperBroker × Except PaperError BrokerSessionState :=
  if brokerName ≠ "paper" then
    (b, .error (.adapter ("paper broker accepts only broker_name='paper', got '" ++ brokerName ++ "'")))
  else if blank accountIdentifier then (b, .error (.adapter "account_identifier is required"))
  else ({ b with connected := true },
    if now.aware then .ok ⟨"paper", accountIdentifier, true, false, now, none⟩
    else .error (.adapter "clock output must be timezone-aware"))

def disconnect (b : PaperBroker) : PaperBroker := { b with connected := false }

/-- `events_for` of the adapter. -/
def eventsFor (b : PaperBroker) (clientOrderId : String) : List PaperEvent :=
  match b.accountByClient.lookup clientOrderId with
  | none => []
  | some brokerAccountId => b.book.eventsFor brokerAccountId clientOrderId

end PaperBroker

/-- A call that changes the adapter or the book. -/
inductive AdapterCall where
  | connect (brokerName accountIdentifier : String) (now : DateTime)
  | disconnect
  | setReferencePrice (instrumentId : UUID) (reference : PaperReferencePrice)
  | submitOrder (request : BrokerOrderRequest) (now : DateTime)
  | pendingEvents

namespace PaperBroker

/-- The adapter after a call; a submission that raises leaves it as it is. -/
def step (b : PaperBroker) : AdapterCall → PaperBroker
  | .connect brokerName accountIdentifier now => (b.connect brokerName accountIdentifier now).1
  | .disconnect => b.disconnect
  | .setReferencePrice instrumentId reference => b.setReferencePrice instrumentId reference
  | .submitOrder request now =>
    match b.submitOrder request now with
    | .ok (b', _) => b'
    | .error _ => b
  | .pendingEvents => { b with book := b.book.pendingEvents.2 }

/-- An answered submission, with the events that it emits. -/
structure Answered where
  request : BrokerOrderRequest
  events : List PaperEvent

/-- What a call answers and emits, if it is a submission that does not raise. -/
def answered (b : PaperBroker) : AdapterCall → Option Answered
  | .submitOrder request now =>
    match b.submitOrder request now with
    | .ok (b', _) => some ⟨request, b'.book.events.drop b.book.events.length⟩
    | .error _ => none
  | _ => none

/-- A new adapter. -/
def fresh (referencePrices : UUID → Option PaperReferencePrice) : PaperBroker := { referencePrices := referencePrices }

section

variable (referencePrices : UUID → Option PaperReferencePrice)

def after (l : List AdapterCall) : PaperBroker := run step (fresh referencePrices) l

/-- The answered submissions, in order. -/
def answers (l : List AdapterCall) : List Answered := (outputs step answered (fresh referencePrices) l).reduceOption

/-- The answered submissions under a client order id. -/
def answersFor (l : List AdapterCall) (clientOrderId : String) : List Answered :=
  (answers referencePrices l).filter fun a => a.request.clientOrderId = clientOrderId

/-- Everything that was emitted under a client order id, in order. -/
def history (l : List AdapterCall) (clientOrderId : String) : List PaperEvent :=
  (answersFor referencePrices l clientOrderId).flatMap Answered.events

/-- The account of the last answered submission under a client order id. -/
def lastAccount (l : List AdapterCall) (clientOrderId : String) : Option UUID :=
  (answersFor referencePrices l clientOrderId).getLast?.map fun a => a.request.brokerAccountId

end

/-! ### One submission -/

/-- **What an answered submission does to the book**: nothing when its key is recorded, else its record is added. -/
theorem book_submit_ok {book book' : PaperOrderBook} {request : BrokerOrderRequest}
    {reference : Option PaperReferencePrice} {now : DateTime} {response : BrokerOrderResponse}
    (h : book.submit request reference now = .ok (book', response)) :
    (book' = book ∧ (book.recorded request.brokerAccountId request.clientOrderId).isSome) ∨
      ∃ r fills, book.recorded request.brokerAccountId request.clientOrderId = none ∧ book' = book.add r fills ∧
        r.request = request ∧ r.events ≠ [] ∧ ∀ e ∈ r.events, e.clientOrderId = request.clientOrderId := by
  have hstep := PaperOrderBook.stepped_submit book request reference now
  obtain ⟨hanswer, hbook⟩ := PaperOrderBook.perform_submit book request reference now
  rw [hanswer, hbook, h] at hstep
  change PaperOrderBook.Stepped book _ (.ok (.response response)) book' at hstep
  cases hstep with
  | read _ hsubmit _ => exact absurd rfl (hsubmit _ _ _)
  | replayed _ hr _ => exact Or.inl ⟨rfl, by rw [hr]; rfl⟩
  | @added _ _ _ r fills _ hr houtcome =>
    refine Or.inr ⟨r, fills, hr, rfl, houtcome.request_eq, ?_⟩
    cases houtcome <;> simp [BrokerOrderRequest.rejectedEvent, BrokerOrderRequest.ackEvent, BrokerOrderRequest.fillEvent]

theorem submitOrder_ok {b b' : PaperBroker} {request : BrokerOrderRequest} {now : DateTime} {response : BrokerOrderResponse}
    (h : b.submitOrder request now = .ok (b', response)) : ∃ book',
      b.book.submit request (b.referencePrices request.instrumentId) now = .ok (book', response) ∧
      b' = { b with
        book := book'
        accountByClient := (request.clientOrderId, request.brokerAccountId) :: b.accountByClient } := by
  unfold submitOrder at h
  split_ifs at h
  cases hs : b.book.submit request (b.referencePrices request.instrumentId) now with
  | error err => rw [hs] at h; cases h
  | ok x => rw [hs] at h; cases h; exact ⟨_, rfl, rfl⟩

/-! ### What the adapter holds after its calls -/

/-- The adapter holds what the answered submissions emitted. -/
structure Holds (b : PaperBroker) (as : List Answered) : Prop where
  account : ∀ c, b.accountByClient.lookup c =
    (as.filter fun a => a.request.clientOrderId = c).getLast?.map fun a => a.request.brokerAccountId
  eventsFor : ∀ k : UUID × String, b.book.eventsFor k.1 k.2 =
    (as.filter fun a => a.request.key = k).flatMap Answered.events
  emitted : ∀ a ∈ as, b.book.eventsFor a.request.brokerAccountId a.request.clientOrderId ≠ []
  nonempty : ∀ k : UUID × String, ∀ r, b.book.recorded k.1 k.2 = some r → r.events ≠ []
  log : b.book.events = as.flatMap Answered.events
  named : ∀ a ∈ as, ∀ e ∈ a.events, e.clientOrderId = a.request.clientOrderId

theorem holds_fresh (referencePrices : UUID → Option PaperReferencePrice) : Holds (fresh referencePrices) [] where
  account _ := rfl
  eventsFor _ := rfl
  emitted _ h := nomatch h
  nonempty _ _ h := nomatch h
  log := rfl
  named _ h := nomatch h

/-- The last answer decides the account of its client order id. -/
theorem Holds.account_concat {b : PaperBroker} {as : List Answered} (h : Holds b as) (a : Answered) (c : String) :
    ((a.request.clientOrderId, a.request.brokerAccountId) :: b.accountByClient).lookup c =
      ((as ++ [a]).filter fun a => a.request.clientOrderId = c).getLast?.map fun a => a.request.brokerAccountId := by
  rw [List.filter_append]
  by_cases hc : c = a.request.clientOrderId
  · subst hc
    rw [List.lookup_cons_self, List.filter_cons_of_pos (by simp), List.filter_nil, List.getLast?_concat]
    rfl
  · have hne : (c == a.request.clientOrderId) = false := by simpa using hc
    rw [List.lookup_cons, hne, List.filter_cons_of_neg (by simpa using Ne.symm hc), List.filter_nil, List.append_nil]
    exact h.account c

/-- A submission answered from the record. -/
theorem Holds.replayed {b : PaperBroker} {as : List Answered} (h : Holds b as) {request : BrokerOrderRequest}
    (hr : (b.book.recorded request.brokerAccountId request.clientOrderId).isSome) :
    Holds { b with accountByClient := (request.clientOrderId, request.brokerAccountId) :: b.accountByClient }
      (as ++ [⟨request, []⟩]) where
  account c := h.account_concat ⟨request, []⟩ c
  eventsFor k := by
    rw [List.filter_append, List.flatMap_append, ← h.eventsFor]
    by_cases hk : request.key = k <;> simp [hk]
  emitted a ha := by
    rcases List.mem_append.mp ha with ha | ha
    · exact h.emitted a ha
    · rw [List.mem_singleton.mp ha]
      obtain ⟨r, hr⟩ := Option.isSome_iff_exists.mp hr
      show (b.book.eventsFor request.brokerAccountId request.clientOrderId) ≠ []
      rw [PaperOrderBook.eventsFor, hr]
      exact h.nonempty request.key r hr
  nonempty := h.nonempty
  log := by
    rw [List.flatMap_append, ← h.log, List.flatMap_singleton, List.append_nil]
  named a ha := by
    rcases List.mem_append.mp ha with ha | ha
    · exact h.named a ha
    · rw [List.mem_singleton.mp ha]
      exact fun e he => absurd he List.not_mem_nil

theorem recorded_add (book : PaperOrderBook) (r : SubmissionRecord) (fills : List PaperFillRecord) (k : UUID × String) :
    (book.add r fills).recorded k.1 k.2 = if k = r.request.key then some r else book.recorded k.1 k.2 := by
  show ((r.request.key, r) :: book.submissions).lookup k = _
  rw [List.lookup_cons]
  by_cases hk : k = r.request.key
  · rw [if_pos hk, hk, beq_self_eq_true]
  · rw [if_neg hk, beq_false_of_ne hk]
    rfl

/-- A submission that is added. -/
theorem Holds.added {b : PaperBroker} {as : List Answered} (h : Holds b as) {r : SubmissionRecord}
    {fills : List PaperFillRecord} (hr : b.book.recorded r.request.brokerAccountId r.request.clientOrderId = none)
    (hne : r.events ≠ []) (hnamed : ∀ e ∈ r.events, e.clientOrderId = r.request.clientOrderId) :
    Holds { b with
        book := b.book.add r fills
        accountByClient := (r.request.clientOrderId, r.request.brokerAccountId) :: b.accountByClient }
      (as ++ [⟨r.request, r.events⟩]) where
  account c := h.account_concat ⟨r.request, r.events⟩ c
  eventsFor k := by
    have hold := h.eventsFor k
    rw [List.filter_append, List.flatMap_append, ← hold, PaperOrderBook.eventsFor, recorded_add]
    by_cases hk : k = r.request.key
    · subst hk
      have hnone : b.book.recorded r.request.key.1 r.request.key.2 = none := hr
      rw [PaperOrderBook.eventsFor, hnone]
      simp
    · simp [hk, Ne.symm hk, PaperOrderBook.eventsFor]
  emitted a ha := by
    show (b.book.add r fills).eventsFor a.request.key.1 a.request.key.2 ≠ []
    rw [PaperOrderBook.eventsFor, recorded_add]
    split_ifs with hk
    · exact hne
    · rcases List.mem_append.mp ha with ha | ha
      · exact h.emitted a ha
      · rw [List.mem_singleton.mp ha] at hk
        exact absurd rfl hk
  nonempty k r' hr' := by
    rw [recorded_add] at hr'
    split_ifs at hr' with hk
    · cases hr'
      exact hne
    · exact h.nonempty k r' hr'
  log := by
    rw [List.flatMap_append, ← h.log, List.flatMap_singleton]
    rfl
  named a ha := by
    rcases List.mem_append.mp ha with ha | ha
    · exact h.named a ha
    · rw [List.mem_singleton.mp ha]
      exact hnamed

theorem Holds.step {b : PaperBroker} {as : List Answered} (h : Holds b as) (c : AdapterCall) :
    Holds (b.step c) (as ++ (b.answered c).toList) := by
  cases c with
  | connect brokerName accountIdentifier now =>
    have hsame : (b.connect brokerName accountIdentifier now).1.book = b.book ∧
        (b.connect brokerName accountIdentifier now).1.accountByClient = b.accountByClient := by
      unfold PaperBroker.connect
      split_ifs <;> exact ⟨rfl, rfl⟩
    show Holds (b.connect brokerName accountIdentifier now).1 (as ++ [])
    rw [List.append_nil]
    exact ⟨hsame.2 ▸ h.account, hsame.1 ▸ h.eventsFor, hsame.1 ▸ h.emitted, hsame.1 ▸ h.nonempty, hsame.1 ▸ h.log, h.named⟩
  | disconnect | setReferencePrice _ _ | pendingEvents =>
    show Holds _ (as ++ [])
    rw [List.append_nil]
    exact ⟨h.account, h.eventsFor, h.emitted, h.nonempty, h.log, h.named⟩
  | submitOrder request now =>
    cases hs : b.submitOrder request now with
    | error err =>
      simp only [PaperBroker.step, answered, hs, Option.toList_none, List.append_nil]
      exact h
    | ok x =>
      obtain ⟨b', response⟩ := x
      simp only [PaperBroker.step, answered, hs, Option.toList_some]
      obtain ⟨book', hsubmit, rfl⟩ := submitOrder_ok hs
      rcases book_submit_ok hsubmit with ⟨rfl, hr⟩ | ⟨r, fills, hr, rfl, rfl, hne, hnamed⟩
      · rw [List.drop_length]
        exact h.replayed hr
      · have hdrop : (b.book.add r fills).events.drop b.book.events.length = r.events := List.drop_left
        rw [hdrop]
        exact h.added hr hne hnamed

/-! ### What is read back -/

section

variable (referencePrices : UUID → Option PaperReferencePrice) (l : List AdapterCall) (clientOrderId : String)

theorem answers_concat (c : AdapterCall) : answers referencePrices (l ++ [c]) =
    answers referencePrices l ++ ((after referencePrices l).answered c).toList := by
  rw [answers, outputs_concat, List.reduceOption_append, List.reduceOption_singleton]
  rfl

/-- **The adapter holds what its calls emitted.** -/
theorem holds_after : Holds (after referencePrices l) (answers referencePrices l) := by
  induction l using List.reverseRecOn with
  | nil => exact holds_fresh referencePrices
  | append_singleton l c ih =>
    rw [after, run_concat, answers_concat]
    exact ih.step c

/-- What was emitted under a client order id for one account, in order. -/
def historyOf (brokerAccountId : UUID) : List PaperEvent :=
  ((answersFor referencePrices l clientOrderId).filter fun a => a.request.brokerAccountId = brokerAccountId).flatMap
    Answered.events

theorem historyOf_eq (brokerAccountId : UUID) : historyOf referencePrices l clientOrderId brokerAccountId =
    (after referencePrices l).book.eventsFor brokerAccountId clientOrderId := by
  rw [(holds_after referencePrices l).eventsFor (brokerAccountId, clientOrderId), historyOf, answersFor, List.filter_filter]
  refine congrArg (List.flatMap Answered.events) (List.filter_congr fun a _ => ?_)
  simp only [BrokerOrderRequest.key, Prod.mk.injEq, Bool.decide_and]

/-- The history is the part of the log that names the client order id. -/
theorem history_eq_filter : history referencePrices l clientOrderId =
    (after referencePrices l).book.events.filter fun e => e.clientOrderId = clientOrderId := by
  have h := holds_after referencePrices l
  rw [h.log, history, answersFor, List.filter_flatMap]
  have hnamed := h.named
  generalize answers referencePrices l = as at hnamed
  induction as with
  | nil => rfl
  | cons a as ih =>
    have ih := ih fun x hx => hnamed x (List.mem_cons_of_mem _ hx)
    have ha := hnamed a List.mem_cons_self
    rw [List.flatMap_cons]
    by_cases hc : a.request.clientOrderId = clientOrderId
    · rw [List.filter_cons_of_pos (by simpa using hc), List.flatMap_cons, ih,
        List.filter_eq_self.mpr fun e he => by simpa using (ha e he).trans hc]
    · rw [List.filter_cons_of_neg (by simpa using hc), ih,
        List.filter_eq_nil_iff.mpr fun e he => by simpa [ha e he] using hc]
      rfl

/-- **What is read back** is the history of the last account. -/
theorem eventsFor_eq : (after referencePrices l).eventsFor clientOrderId =
    ((lastAccount referencePrices l clientOrderId).map (historyOf referencePrices l clientOrderId)).getD [] := by
  rw [PaperBroker.eventsFor, (holds_after referencePrices l).account clientOrderId]
  show (match lastAccount referencePrices l clientOrderId with | none => _ | some a => _) = _
  cases lastAccount referencePrices l clientOrderId with
  | none => rfl
  | some a => exact (historyOf_eq referencePrices l clientOrderId a).symm

/-- One account used the client order id. -/
def OneAccount : Prop :=
  ∀ a ∈ answersFor referencePrices l clientOrderId, ∀ a' ∈ answersFor referencePrices l clientOrderId,
    a.request.brokerAccountId = a'.request.brokerAccountId

variable {referencePrices l clientOrderId}

/-- If one account's history is the whole, no other account used the client order id: its events would be missing. -/
theorem no_other_account {brokerAccountId : UUID}
    (h : historyOf referencePrices l clientOrderId brokerAccountId = history referencePrices l clientOrderId) :
    ∀ a ∈ answersFor referencePrices l clientOrderId, a.request.brokerAccountId = brokerAccountId := by
  set p : Answered → Bool := fun a => a.request.brokerAccountId = brokerAccountId with hp
  have hsplit := ((List.filter_append_perm p (answersFor referencePrices l clientOrderId)).flatMap_right
    Answered.events).length_eq
  have hothers : ((answersFor referencePrices l clientOrderId).filter fun a => !p a).flatMap Answered.events = [] := by
    have hlength : (((answersFor referencePrices l clientOrderId).filter p).flatMap Answered.events).length =
        ((answersFor referencePrices l clientOrderId).flatMap Answered.events).length := congrArg List.length h
    rw [List.flatMap_append, List.length_append] at hsplit
    exact List.eq_nil_of_length_eq_zero (by omega)
  intro a ha
  by_contra hne
  -- the account of `a` has events, and they are among those of the others
  have hclient : a.request.clientOrderId = clientOrderId := by simpa using (List.mem_filter.mp ha).2
  have hemitted := (holds_after referencePrices l).emitted a (List.mem_of_mem_filter ha)
  rw [hclient, ← historyOf_eq] at hemitted
  obtain ⟨e, he⟩ := List.exists_mem_of_ne_nil _ hemitted
  obtain ⟨x, hx, hex⟩ := List.mem_flatMap.mp he
  obtain ⟨hx, haccount⟩ := List.mem_filter.mp hx
  have hother : (!p x) = true := by
    have haccount : x.request.brokerAccountId = a.request.brokerAccountId := by simpa using haccount
    simpa [hp, haccount] using hne
  have : e ∈ ((answersFor referencePrices l clientOrderId).filter fun a => !p a).flatMap Answered.events :=
    List.mem_flatMap.mpr ⟨x, List.mem_filter.mpr ⟨hx, hother⟩, hex⟩
  rw [hothers] at this
  cases this

variable (referencePrices l clientOrderId)

/-- **The whole history is read back** exactly when one account used the client order id. -/
theorem eventsFor_eq_history_iff : (after referencePrices l).eventsFor clientOrderId =
    history referencePrices l clientOrderId ↔ OneAccount referencePrices l clientOrderId := by
  rw [eventsFor_eq]
  rcases List.eq_nil_or_concat (answersFor referencePrices l clientOrderId) with hnil | ⟨as, last, hconcat⟩
  · simp [lastAccount, history, OneAccount, hnil]
  · rw [List.concat_eq_append] at hconcat
    have hlast : lastAccount referencePrices l clientOrderId = some last.request.brokerAccountId := by
      rw [lastAccount, hconcat, List.getLast?_concat]
      rfl
    have hmem : last ∈ answersFor referencePrices l clientOrderId := by
      rw [hconcat]
      exact List.mem_append_right _ (List.mem_singleton_self last)
    rw [hlast]
    show historyOf referencePrices l clientOrderId last.request.brokerAccountId = _ ↔ _
    constructor
    · intro h a ha a' ha'
      have hsame := no_other_account h
      exact (hsame a ha).trans (hsame a' ha').symm
    · intro hone
      rw [historyOf, history, List.filter_eq_self.mpr fun a ha => by simpa using hone a ha last hmem]

/-- **After every sequence of calls**, what is read back under a client order id is the history of the account whose
submission was answered last; it is everything that the book's log has under the client order id exactly when one account
used it. -/
theorem eventsFor_last : (after referencePrices l).eventsFor clientOrderId =
      ((lastAccount referencePrices l clientOrderId).map (historyOf referencePrices l clientOrderId)).getD [] ∧
    history referencePrices l clientOrderId =
      (after referencePrices l).book.events.filter (fun e => e.clientOrderId = clientOrderId) ∧
    ((after referencePrices l).eventsFor clientOrderId = history referencePrices l clientOrderId ↔
      OneAccount referencePrices l clientOrderId) :=
  ⟨eventsFor_eq referencePrices l clientOrderId, history_eq_filter referencePrices l clientOrderId,
    eventsFor_eq_history_iff referencePrices l clientOrderId⟩

end

/-! ### Two accounts with one client order id -/

/-- The sample order of an account. -/
def orderOf (brokerAccountId : UUID) : BrokerOrderRequest :=
  { PaperOrderBook.sampleOrder 1 none with
    brokerAccountId := brokerAccountId
    orderIdEntry := .id (paperOrderId brokerAccountId "ORD-1") }

/-- Both accounts submit; without a reference price both orders are rejected, each with its event. -/
def twoAccounts : List AdapterCall :=
  [.connect "paper" "session" PaperOrderBook.sampleTime, .submitOrder (orderOf ⟨1⟩) PaperOrderBook.sampleTime,
    .submitOrder (orderOf ⟨5⟩) PaperOrderBook.sampleTime]

/-- The event of the first account is not read back. -/
theorem not_eventsFor_complete : ¬ ∀ referencePrices l clientOrderId,
    (after referencePrices l).eventsFor clientOrderId = history referencePrices l clientOrderId := by
  intro h
  have hread : ((after (fun _ => none) twoAccounts).eventsFor "ORD-1").length = 1 := by decide +kernel
  have hall : (history (fun _ => none) twoAccounts "ORD-1").length = 2 := by decide +kernel
  rw [h, hall] at hread
  cases hread

end PaperBroker

end AlphaAlgo.Paper
