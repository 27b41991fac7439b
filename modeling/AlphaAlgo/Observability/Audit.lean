import Mathlib.Data.List.Chain
import AlphaAlgo.Lib.Json
import AlphaAlgo.Lib.Pool
import AlphaAlgo.Lib.Sha256

/-!
# Audit — the in-memory audit recorder

`InMemoryAuditRecorder.record` hashes an event together with the hash of the event before it, builds the event and
appends it under a lock.  The hash before is read outside the lock, once for the hash and once for the event, and other
calls come in between.

* `record_alone`: the three steps of a call that is not interrupted are `record`.
* `hashChain_iff_upToDate`: the stored events are one hash chain exactly while every append still finds the hash that its
  call has read.
* `hashChain_undisturbed`: so they are in every schedule in which no call appends between the second and the third step of
  another, and in no other while their hashes differ.
-/

namespace AlphaAlgo.Observability

open Runs

/-! ### Events -/

/-- The timestamp, a float, is kept as its text. -/
structure AuditEvent where
  id : String
  eventType : String
  actor : Option String
  source : String
  status : String
  eventHash : String
  previousEventHash : Option String
  timestamp : String
  reason : Option String
  correlationId : Option String
  traceId : Option String
  requestId : Option String
  fields : Json

/-- The JSON that is hashed, keys sorted. -/
def canonicalEvent (previous : Option String) (eventType timestamp : String) (fields : Json) : String :=
  "\x7b\"event_type\": " ++ (Json.str eventType).dumps .default ++ ", \"fields\": " ++
    fields.sortKeys.dumps .default ++ ", \"previous\": " ++ (Json.ofOption previous).dumps .default ++
    ", \"timestamp\": " ++ timestamp ++ "\x7d"

/-- `_hash_event`. -/
def hashEvent (previous : Option String) (eventType timestamp : String) (fields : Json) : String :=
  sha256 (canonicalEvent previous eventType timestamp fields)

/-- The event type and the keyword arguments that `record` reads. -/
structure RecordArgs where
  eventType : String
  actor : Option String := none
  source : String := "system"
  status : String := "ok"
  reason : Option String := none
  correlationId : Option String := none
  traceId : Option String := none
  requestId : Option String := none
  fields : Json := .obj []

/-- The event of a call: `previous` is the hash it refers to. -/
def RecordArgs.event (args : RecordArgs) (id timestamp eventHash : String) (previous : Option String) : AuditEvent where
  id := id
  eventType := args.eventType
  actor := args.actor
  source := args.source
  status := args.status
  eventHash := eventHash
  previousEventHash := previous
  timestamp := timestamp
  reason := args.reason
  correlationId := args.correlationId
  traceId := args.traceId
  requestId := args.requestId
  fields := args.fields

/-! ### The recorder -/

/-- The hash of the event stored last. -/
def tip (events : List AuditEvent) : Option String := events.getLast?.map AuditEvent.eventHash

/-- `_last_hash` is the hash of the event stored last. -/
structure AuditRecorder where
  events : List AuditEvent := []
  lastHash : Option String := none
  last : lastHash = tip events := by rfl

/-- The locked append. -/
def AuditRecorder.append (r : AuditRecorder) (e : AuditEvent) : AuditRecorder where
  events := r.events ++ [e]
  lastHash := some e.eventHash
  last := by simp [tip]

/-- Where a call of `record` is. -/
inductive RecordPc where
  | start
  | hashed (eventHash : String)
  | built (event : AuditEvent)
  | returned (event : AuditEvent)

/-- A call of `record` with its reading of the clock and its `uuid4().hex`. -/
structure RecordCall where
  args : RecordArgs
  timestamp : String
  id : String
  pc : RecordPc := .start

namespace RecordCall

/-- The hash of the event, over the last hash as it is read first. -/
def hash (c : RecordCall) (r : AuditRecorder) : String :=
  hashEvent r.lastHash c.args.eventType c.timestamp c.args.fields

/-- One step of a call. -/
def nextPc (r : AuditRecorder) (c : RecordCall) : AuditRecorder × RecordPc :=
  match c.pc with
  | .start => (r, .hashed (c.hash r))
  | .hashed eventHash => (r, .built (c.args.event c.id c.timestamp eventHash r.lastHash))
  | .built event => (r.append event, .returned event)
  | .returned event => (r, .returned event)

def next (r : AuditRecorder) (c : RecordCall) : AuditRecorder × RecordCall :=
  ((c.nextPc r).1, { c with pc := (c.nextPc r).2 })

end RecordCall

/-- `record`, not interrupted. -/
def AuditRecorder.record (r : AuditRecorder) (c : RecordCall) : AuditRecorder × AuditEvent :=
  let event := c.args.event c.id c.timestamp (c.hash r) r.lastHash
  (r.append event, event)

/-- The recorder and the calls on it. -/
abbrev AuditSystem := Pool AuditRecorder RecordCall

abbrev auditSchedule (p : AuditSystem) (l : List ℕ) : AuditSystem := run (Pool.step RecordCall.next) p l

/-- A call that takes its three steps at a stretch records its event. -/
theorem record_alone {p : AuditSystem} {i : ℕ} {c : RecordCall} (h : p.calls[i]? = some c) (hstart : c.pc = .start) :
    auditSchedule p [i, i, i] = ⟨(p.shared.record c).1, p.calls.set i { c with pc := .returned (p.shared.record c).2 }⟩ := by
  obtain ⟨hi, -⟩ := List.getElem?_eq_some_iff.mp h
  have hself : ∀ d : RecordCall, (p.calls.set i d)[i]? = some d := fun d => List.getElem?_set_self hi
  have hfirst : p.step RecordCall.next i = ⟨p.shared, p.calls.set i { c with pc := .hashed (c.hash p.shared) }⟩ := by
    rw [Pool.step_of_some h, RecordCall.next, RecordCall.nextPc, hstart]
  rw [auditSchedule, run_cons, hfirst, run_cons, Pool.step_of_some (hself _), run_cons,
    Pool.step_of_some (by simpa [List.set_set] using hself _)]
  simp only [RecordCall.next, RecordCall.nextPc, List.set_set]
  rfl

/-! ### The chain -/

/-- Every event refers to the one before it, and the first to none. -/
structure HashChain (events : List AuditEvent) : Prop where
  first : ∀ e ∈ events.head?, e.previousEventHash = none
  later : events.IsChain fun e e' => e'.previousEventHash = some e.eventHash

theorem hashChain_nil : HashChain [] := ⟨by simp, .nil⟩

/-- An event is added to a chain when it refers to the last event. -/
theorem hashChain_concat {events : List AuditEvent} {e : AuditEvent} :
    HashChain (events ++ [e]) ↔ HashChain events ∧ e.previousEventHash = tip events := by
  cases hlast : events.getLast? with
  | none =>
    rw [List.getLast?_eq_none_iff] at hlast
    subst hlast
    constructor
    · exact fun h => ⟨hashChain_nil, h.first e rfl⟩
    · exact fun h => ⟨by simpa [tip] using h.2, .singleton _⟩
  | some last =>
    have hne : events ≠ [] := by
      rintro rfl
      cases hlast
    have htip : tip events = some last.eventHash := by rw [tip, hlast]; rfl
    have hhead : (events ++ [e]).head? = events.head? := List.head?_append_of_ne_nil events hne
    rw [htip]
    constructor
    · intro h
      obtain ⟨hchain, -, hlink⟩ := List.isChain_append.mp h.later
      exact ⟨⟨fun a ha => h.first a (hhead ▸ ha), hchain⟩, hlink last hlast e rfl⟩
    · rintro ⟨h, hlink⟩
      refine ⟨fun a ha => h.first a (hhead ▸ ha), List.isChain_append.mpr ⟨h.later, .singleton _, ?_⟩⟩
      intro a ha b hb
      rw [hlast] at ha
      cases ha
      cases hb
      exact hlink

/-- The condition on a step: an append finds the last hash that its call has read for the event. -/
def UpToDate (p : AuditSystem) (i : ℕ) : Prop :=
  Pool.OnCall (fun r c => ∀ e, c.pc = .built e → e.previousEventHash = r.lastHash) p i

/-- What a step does to the stored events. -/
theorem events_step (p : AuditSystem) (i : ℕ) :
    (∃ e c, p.calls[i]? = some c ∧ c.pc = .built e ∧
      (p.step RecordCall.next i).shared.events = p.shared.events ++ [e]) ∨
    ((p.step RecordCall.next i).shared.events = p.shared.events ∧ UpToDate p i) := by
  cases hc : p.calls[i]? with
  | none => exact .inr ⟨by rw [Pool.step_of_none hc], fun c h => by rw [hc] at h; cases h⟩
  | some c =>
    have hquiet : (∀ e, c.pc ≠ .built e) → UpToDate p i := by
      intro hpc d hd e he
      rw [hc] at hd
      cases hd
      exact absurd he (hpc e)
    rw [Pool.step_of_some hc]
    cases hpc : c.pc with
    | start => exact .inr ⟨by simp [RecordCall.next, RecordCall.nextPc, hpc], hquiet (by simp [hpc])⟩
    | hashed eventHash => exact .inr ⟨by simp [RecordCall.next, RecordCall.nextPc, hpc], hquiet (by simp [hpc])⟩
    | built e => exact .inl ⟨e, c, rfl, hpc, by simp [RecordCall.next, RecordCall.nextPc, hpc, AuditRecorder.append]⟩
    | returned e => exact .inr ⟨by simp [RecordCall.next, RecordCall.nextPc, hpc], hquiet (by simp [hpc])⟩

/-- **A step keeps the chain** exactly when it meets the condition. -/
theorem hashChain_step {p : AuditSystem} (h : HashChain p.shared.events) (i : ℕ) :
    HashChain (p.step RecordCall.next i).shared.events ↔ UpToDate p i := by
  rcases events_step p i with ⟨e, c, hc, hpc, hevents⟩ | ⟨hevents, hok⟩
  · rw [hevents, hashChain_concat, ← p.shared.last]
    constructor
    · rintro ⟨-, hprev⟩ d hd e' he'
      rw [hc] at hd
      cases hd
      rw [hpc] at he'
      cases he'
      exact hprev
    · exact fun hok => ⟨h, hok c hc e hpc⟩
  · rw [hevents]
    exact ⟨fun _ => hok, fun _ => h⟩

/-- The stored events are one hash chain at every moment of exactly the schedules whose appends are up to date. -/
theorem hashChain_iff_upToDate (calls : List RecordCall) (l : List ℕ) :
    (∀ l', l' <+: l → HashChain (auditSchedule ⟨{}, calls⟩ l').shared.events) ↔
      Along (Pool.step RecordCall.next) UpToDate ⟨{}, calls⟩ l := by
  exact prefixes_iff_along (I := fun p : AuditSystem => HashChain p.shared.events) (P := fun p => HashChain p.shared.events)
    (s := ⟨{}, calls⟩) (fun p i h => (hashChain_step h i).mpr) (fun _ h => h) (fun p i h => (hashChain_step h i).mp)
    hashChain_nil l

/-! ### Schedules -/

/-- How many steps a call has taken. -/
def RecordPc.steps : RecordPc → ℕ
  | .start => 0
  | .hashed _ => 1
  | .built _ => 2
  | .returned _ => 3

/-- The calls among the first `n` that have taken their third step. -/
def appended (n : ℕ) (l : List ℕ) : Finset ℕ := (Finset.range n).filter fun i => 3 ≤ l.count i

/-- Call `i` takes its second step at place `a` of the schedule and its third at place `b`. -/
def Spans (l : List ℕ) (i a b : ℕ) : Prop :=
  l[a]? = some i ∧ l[b]? = some i ∧ (l.take a).count i = 1 ∧ (l.take b).count i = 2

instance (l : List ℕ) (i a b : ℕ) : Decidable (Spans l i a b) := inferInstanceAs (Decidable (_ ∧ _ ∧ _ ∧ _))

/-- Between the second step of a call, where it reads the last hash, and the third, where it appends, no call appends. -/
def Undisturbed (n : ℕ) (l : List ℕ) : Prop :=
  ∀ i < n, ∀ b < l.length, ∀ a < b, Spans l i a b → (appended n (l.take b)).card = (appended n (l.take a)).card

instance (n : ℕ) (l : List ℕ) : Decidable (Undisturbed n l) := by
  unfold Undisturbed
  infer_instance

theorem card_appended_concat (n : ℕ) (l : List ℕ) (i : ℕ) :
    (appended n (l ++ [i])).card = (appended n l).card + if i < n ∧ l.count i = 2 then 1 else 0 := by
  have hself : (l ++ [i]).count i = l.count i + 1 := by rw [List.count_append, List.count_singleton_self]
  have hmem : ∀ j, j ∈ appended n (l ++ [i]) ↔ j ∈ appended n l ∨ (j = i ∧ i < n ∧ l.count i = 2) := by
    intro j
    simp only [appended, Finset.mem_filter, Finset.mem_range]
    by_cases hj : j = i
    · subst hj
      rw [hself]
      omega
    · rw [List.count_append, List.count_singleton, if_neg (by simpa using Ne.symm hj)]
      simp [hj]
  split_ifs with happend
  · have hnot : i ∉ appended n l := by simp [appended, happend.2]
    have hnew : appended n (l ++ [i]) = insert i (appended n l) := by
      ext j
      rw [hmem, Finset.mem_insert]
      tauto
    rw [hnew, Finset.card_insert_of_notMem hnot]
  · have hsame : appended n (l ++ [i]) = appended n l := by
      ext j
      rw [hmem]
      tauto
    rw [hsame, add_zero]

theorem count_take_succ (l : List ℕ) (b i : ℕ) :
    (l.take (b + 1)).count i = (l.take b).count i + if l[b]? = some i then 1 else 0 := by
  rw [List.take_add_one, List.count_append]
  cases l[b]? with
  | none => rfl
  | some j =>
    rw [Option.toList_some, List.count_singleton]
    by_cases hji : j = i <;> simp [hji]

/-- A place before which an index has occurred `k + 1` times has the last of these before it. -/
theorem exists_last_place {l : List ℕ} {i k : ℕ} : ∀ {b : ℕ}, (l.take b).count i = k + 1 →
    ∃ a < b, l[a]? = some i ∧ (l.take a).count i = k
  | 0, h => by simp at h
  | b + 1, h => by
    rw [count_take_succ] at h
    by_cases hb : l[b]? = some i
    · rw [if_pos hb] at h
      exact ⟨b, b.lt_succ_self, hb, by omega⟩
    · rw [if_neg hb] at h
      obtain ⟨a, hlt, ha, hcount⟩ := exists_last_place h
      exact ⟨a, hlt.trans b.lt_succ_self, ha, hcount⟩

section Schedules

variable {calls : List RecordCall} {l : List ℕ} {i : ℕ}

theorem auditSchedule_concat (p : AuditSystem) (l : List ℕ) (i : ℕ) :
    auditSchedule p (l ++ [i]) = (auditSchedule p l).step RecordCall.next i := run_concat _ p l i

/-- A step of a call is the next one of its three. -/
theorem steps_next (r : AuditRecorder) (c : RecordCall) : (c.next r).2.pc.steps = min (c.pc.steps + 1) 3 := by
  unfold RecordCall.next RecordCall.nextPc
  cases hpc : c.pc <;> rfl

/-- **Where a call is**, by how often it has been scheduled. -/
theorem steps_of_call (hstart : ∀ c ∈ calls, c.pc = .start) (l : List ℕ) (hi : i < calls.length) :
    ∃ c, (auditSchedule ⟨{}, calls⟩ l).calls[i]? = some c ∧ c.pc.steps = min (l.count i) 3 := by
  induction l using List.reverseRecOn with
  | nil => exact ⟨calls[i], List.getElem?_eq_getElem hi, by rw [hstart _ (List.getElem_mem hi)]; rfl⟩
  | append_singleton l j ih =>
    obtain ⟨c, hc, hsteps⟩ := ih
    rw [auditSchedule_concat, List.count_append, List.count_singleton]
    by_cases hji : j = i
    · subst hji
      rw [Pool.step_of_some hc]
      refine ⟨_, Pool.get_set_self hc, ?_⟩
      have hnext := steps_next (auditSchedule ⟨{}, calls⟩ l).shared c
      rw [hsteps] at hnext
      simp only [beq_self_eq_true, if_true]
      omega
    · refine ⟨c, ?_, by simpa [hji] using hsteps⟩
      unfold Pool.step
      split
      · exact hc
      · rw [List.getElem?_set_ne hji]
        exact hc

theorem length_calls (calls : List RecordCall) (l : List ℕ) :
    (auditSchedule ⟨{}, calls⟩ l).calls.length = calls.length := by
  refine run_invariant _ (fun p : AuditSystem => p.calls.length = calls.length) (fun p i h => ?_) rfl l
  unfold Pool.step
  split
  · exact h
  · rw [← h]
    exact List.length_set

/-- Each third step stores an event, and no other step does. -/
theorem length_events (hstart : ∀ c ∈ calls, c.pc = .start) (l : List ℕ) :
    (auditSchedule ⟨{}, calls⟩ l).shared.events.length = (appended calls.length l).card := by
  induction l using List.reverseRecOn with
  | nil => simp [auditSchedule, appended]
  | append_singleton l i ih =>
    rw [card_appended_concat, ← ih, auditSchedule_concat]
    by_cases hi : i < calls.length
    · obtain ⟨c, hc, hsteps⟩ := steps_of_call hstart l hi
      rw [Pool.step_of_some hc]
      cases hpc : c.pc with
      | built e =>
        have hcount : l.count i = 2 := by
          rw [hpc, RecordPc.steps] at hsteps
          omega
        simp [RecordCall.next, RecordCall.nextPc, hpc, AuditRecorder.append, hi, hcount]
      | start | hashed _ | returned _ =>
        have hcount : l.count i ≠ 2 := by
          intro h
          rw [hpc, h] at hsteps
          cases hsteps
        simp [RecordCall.next, RecordCall.nextPc, hpc, hcount]
    · rw [Pool.step_of_none (List.getElem?_eq_none (by rw [length_calls]; omega))]
      simp [hi]

/-- The stored events are those of any earlier moment and more. -/
theorem events_mono (calls : List RecordCall) {l' : List ℕ} (h : l' <+: l) :
    (auditSchedule ⟨{}, calls⟩ l').shared.events <+: (auditSchedule ⟨{}, calls⟩ l).shared.events := by
  obtain ⟨rest, rfl⟩ := h
  induction rest using List.reverseRecOn with
  | nil => rw [List.append_nil]
  | append_singleton rest i ih =>
    rw [← List.append_assoc, auditSchedule_concat]
    refine ih.trans ?_
    rcases events_step (auditSchedule ⟨{}, calls⟩ (l' ++ rest)) i with ⟨e, c, -, -, hevents⟩ | ⟨hevents, -⟩
    · rw [hevents]
      exact List.prefix_append _ _
    · rw [hevents]

/-- **What a call holds before its third step**: an event that refers to the last hash before its second one. -/
theorem built_of_call (hstart : ∀ c ∈ calls, c.pc = .start) (hi : i < calls.length) {a : ℕ} (ha : l[a]? = some i)
    (hfirst : (l.take a).count i = 1) {b : ℕ} (hab : a < b) (hsecond : (l.take b).count i = 2) :
    ∃ c e, (auditSchedule ⟨{}, calls⟩ (l.take b)).calls[i]? = some c ∧ c.pc = .built e ∧
      e.previousEventHash = (auditSchedule ⟨{}, calls⟩ (l.take a)).shared.lastHash := by
  induction b, hab using Nat.le_induction with
  | base =>
    obtain ⟨c, hc, hsteps⟩ := steps_of_call hstart (l.take a) hi
    have htake : l.take (a + 1) = l.take a ++ [i] := by rw [List.take_add_one, ha, Option.toList_some]
    rw [htake, auditSchedule_concat, Pool.step_of_some hc]
    cases hpc : c.pc with
    | hashed eventHash =>
      refine ⟨_, c.args.event c.id c.timestamp eventHash (auditSchedule ⟨{}, calls⟩ (l.take a)).shared.lastHash,
        Pool.get_set_self hc, ?_, rfl⟩
      simp [RecordCall.next, RecordCall.nextPc, hpc]
    | start | built _ | returned _ =>
      rw [hpc, hfirst] at hsteps
      cases hsteps
  | succ b hab ih =>
    have hle : (l.take (a + 1)).count i ≤ (l.take b).count i :=
      (List.take_prefix_take_left hab).sublist.count_le i
    have hbefore : (l.take (a + 1)).count i = 2 := by rw [count_take_succ, if_pos ha, hfirst]
    rw [count_take_succ] at hsecond
    have hother : l[b]? ≠ some i := by
      intro h
      rw [if_pos h] at hsecond
      omega
    rw [if_neg hother, add_zero] at hsecond
    obtain ⟨c, e, hc, hpc, hlast⟩ := ih hsecond
    refine ⟨c, e, ?_, hpc, hlast⟩
    rw [List.take_add_one]
    cases hj : l[b]? with
    | none => rwa [Option.toList_none, List.append_nil]
    | some j =>
      have hji : j ≠ i := fun h => hother (by rw [hj, h])
      rw [Option.toList_some, auditSchedule_concat]
      unfold Pool.step
      split
      · exact hc
      · rw [List.getElem?_set_ne hji]
        exact hc

/-- An undisturbed schedule is up to date at every append. -/
theorem upToDate_of_undisturbed (hstart : ∀ c ∈ calls, c.pc = .start) (h : Undisturbed calls.length l) :
    Along (Pool.step RecordCall.next) UpToDate ⟨{}, calls⟩ l := by
  refine along_of_prefix fun l' i hprefix c hc e hpc => ?_
  have hi : i < calls.length := by
    rw [← length_calls calls l']
    exact (List.getElem?_eq_some_iff.mp hc).1
  have hplace : l[l'.length]? = some i ∧ l.take l'.length = l' ∧ l'.length < l.length := by
    obtain ⟨rest, rfl⟩ := hprefix
    simp
  obtain ⟨hb, htake, hlt⟩ := hplace
  have hsecond : (l.take l'.length).count i = 2 := by
    obtain ⟨d, hd, hsteps⟩ := steps_of_call hstart l' hi
    cases hc.symm.trans hd
    rw [hpc, RecordPc.steps] at hsteps
    rw [htake]
    omega
  obtain ⟨a, hab, ha, hfirst⟩ := exists_last_place hsecond
  obtain ⟨d, e', hd, hpc', hlast⟩ := built_of_call hstart hi ha hfirst hab hsecond
  rw [htake] at hd
  cases hc.symm.trans hd
  cases hpc.symm.trans hpc'
  have hcard := h i hi l'.length hlt a hab ⟨ha, hb, hfirst, hsecond⟩
  rw [← length_events hstart, ← length_events hstart, htake] at hcard
  have hevents := (events_mono calls (htake ▸ List.take_prefix_take_left hab.le)).eq_of_length hcard.symm
  rw [hlast, AuditRecorder.last, AuditRecorder.last]
  exact congrArg tip hevents

/-- Events with different hashes that are not the same as before have another last hash. -/
theorem eq_of_tip_eq {before after : List AuditEvent} (hle : before <+: after)
    (hnodup : (after.map AuditEvent.eventHash).Nodup) (h : tip before = tip after) : before = after := by
  obtain ⟨new, rfl⟩ := hle
  rcases List.eq_nil_or_concat new with rfl | ⟨new, e, rfl⟩
  · rw [List.append_nil]
  · exfalso
    rw [List.concat_eq_append] at h hnodup
    have hafter : tip (before ++ (new ++ [e])) = some e.eventHash := by
      rw [← List.append_assoc, tip, List.getLast?_concat]
      rfl
    rw [hafter] at h
    obtain ⟨last, hlast, heq⟩ := Option.map_eq_some_iff.mp h
    rw [List.map_append, List.nodup_append] at hnodup
    refine hnodup.2.2 last.eventHash (List.mem_map_of_mem (List.mem_of_getLast? hlast)) e.eventHash ?_ heq
    simp

/-- **The stored events are one hash chain at every moment** of every schedule in which no call appends between the second
and the third step of another; where no two stored events have one hash, of no other. -/
theorem hashChain_undisturbed (hstart : ∀ c ∈ calls, c.pc = .start) (l : List ℕ) :
    (Undisturbed calls.length l → ∀ l', l' <+: l → HashChain (auditSchedule ⟨{}, calls⟩ l').shared.events) ∧
      (((auditSchedule ⟨{}, calls⟩ l).shared.events.map AuditEvent.eventHash).Nodup →
        (∀ l', l' <+: l → HashChain (auditSchedule ⟨{}, calls⟩ l').shared.events) → Undisturbed calls.length l) := by
  refine ⟨fun h => (hashChain_iff_upToDate calls l).mpr (upToDate_of_undisturbed hstart h), fun hnodup hchain => ?_⟩
  have hdates := (hashChain_iff_upToDate calls l).mp hchain
  rintro i hi b hlt a hab ⟨ha, hb, hfirst, hsecond⟩
  obtain ⟨c, e, hc, hpc, hlast⟩ := built_of_call hstart hi ha hfirst hab hsecond
  have hsplit : l.take b ++ i :: l.drop (b + 1) = l := by
    obtain ⟨hb', hget⟩ := List.getElem?_eq_some_iff.mp hb
    rw [← hget, ← List.drop_eq_getElem_cons hb', List.take_append_drop]
  rw [← hsplit] at hdates
  have hdate := hdates.at_step (l.take b) c hc e hpc
  rw [hlast, AuditRecorder.last, AuditRecorder.last] at hdate
  have hnodup' := hnodup.sublist ((events_mono calls (List.take_prefix b l)).sublist.map AuditEvent.eventHash)
  rw [← length_events hstart, ← length_events hstart,
    eq_of_tip_eq (events_mono calls (List.take_prefix_take_left hab.le)) hnodup' hdate]

end Schedules

/-- Two calls of different threads. -/
def auditCalls : List RecordCall :=
  [⟨⟨"login", some "u1", "api", "ok", none, none, none, none, .obj []⟩, "1.5", "a", .start⟩,
    ⟨⟨"logout", some "u1", "api", "ok", none, none, none, none, .obj []⟩, "1.5", "b", .start⟩]

/-- The first step of the second call comes before the first call has appended, and its second step after. -/
theorem hashChain_interleaved : HashChain (auditSchedule ⟨{}, auditCalls⟩ [0, 0, 1, 0, 1, 1]).shared.events :=
  (hashChain_undisturbed (by simp [auditCalls]) [0, 0, 1, 0, 1, 1]).1 (by decide +kernel) _ List.prefix_rfl

/-- Both calls read the last hash before either appends. -/
theorem not_hashChain_fork : ¬ HashChain (auditSchedule ⟨{}, auditCalls⟩ [0, 0, 1, 1, 0, 1]).shared.events := by
  intro h
  have hlink := List.isChain_cons_cons.mp h.later
  cases hlink.1

end AlphaAlgo.Observability
