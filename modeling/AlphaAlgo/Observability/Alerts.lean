import Mathlib.Data.List.Chain
import AlphaAlgo.Lib.Dict
import AlphaAlgo.Lib.Joined
import AlphaAlgo.Lib.Runs
import AlphaAlgo.Lib.Sha256

/-!
# Alerts — the alert manager

`trigger` looks at the latest alert of its identity and makes a new one only when there is none that is open;
`acknowledge`, `escalate` and `resolve` set the state of any alert, whatever it is, and record the transition.

* `Indexed`: what the manager keeps in every run: an open alert is the latest of its identity.
* `lifecycle_iff`: the runs that meet the lifecycle are those in which no resolved alert is acknowledged or escalated and
  no two triggers share the text that is hashed.
-/

namespace AlphaAlgo.Observability

open Runs

/-! ### Alerts -/

inductive AlertSeverity where
  | critical | high | warning | info
deriving DecidableEq

inductive AlertState where
  | detected | active | acknowledged | resolved | escalated
deriving DecidableEq

/-- The text that is hashed. -/
def identityText (alertType source scope condition : String) : String :=
  alertType ++ "|" ++ source ++ "|" ++ scope ++ "|" ++ condition

def alertIdentity (alertType source scope condition : String) : String :=
  sha256 (identityText alertType source scope condition)

/-- An entry of `transitions`, the time as its text. -/
structure Transition where
  fromState : Option AlertState
  toState : AlertState
  atTime : String

/-- The readings of the clock, floats, are kept as their texts. -/
structure Alert where
  id : String
  identity : String
  alertType : String
  severity : AlertSeverity
  source : String
  scope : String
  condition : String
  title : String
  message : String
  state : AlertState := .detected
  incidentId : Option String := none
  correlationId : Option String := none
  traceId : Option String := none
  createdAt : String
  updatedAt : String
  transitions : List Transition := []

/-- The keyword arguments of `trigger`. -/
structure TriggerArgs where
  alertType : String
  severity : AlertSeverity
  source : String
  scope : String
  condition : String
  title : String
  message : String
  incidentId : Option String := none
  correlationId : Option String := none
  traceId : Option String := none

namespace TriggerArgs

/-- What the alert is about. -/
def subject (args : TriggerArgs) : String × String × String × String :=
  (args.alertType, args.source, args.scope, args.condition)

def text (args : TriggerArgs) : String := identityText args.alertType args.source args.scope args.condition

def identity (args : TriggerArgs) : String := alertIdentity args.alertType args.source args.scope args.condition

end TriggerArgs

/-- What a call takes from `uuid4().hex` and from the clock: an alert reads the clock twice, so does a transition. -/
structure Reading where
  id : String
  first : String
  second : String

/-- The alert that `trigger` makes. -/
def TriggerArgs.alert (args : TriggerArgs) (reading : Reading) : Alert where
  id := reading.id
  identity := args.identity
  alertType := args.alertType
  severity := args.severity
  source := args.source
  scope := args.scope
  condition := args.condition
  title := args.title
  message := args.message
  incidentId := args.incidentId
  correlationId := args.correlationId
  traceId := args.traceId
  createdAt := reading.first
  updatedAt := reading.second
  transitions := [⟨none, .detected, reading.first⟩]

/-- An alert after a transition. -/
def Alert.moved (alert : Alert) (state : AlertState) (reading : Reading) : Alert :=
  { alert with
    transitions := alert.transitions ++ [⟨some alert.state, state, reading.first⟩]
    state := state
    updatedAt := reading.second }

/-! ### The manager -/

/-- `_by_identity` leads to alerts that are there: the lookup of `trigger` has no `KeyError`. -/
structure AlertManager where
  alerts : Dict String Alert
  byIdentity : Dict String String
  there : ∀ (identity id : String), byIdentity.get? identity = some id → (alerts.get? id).isSome

namespace AlertManager

def empty : AlertManager := ⟨Dict.empty, Dict.empty, fun _ _ h => absurd h (by simp [Dict.get?, Dict.empty])⟩

/-- The latest alert of an identity. -/
def latest (m : AlertManager) (identity : String) : Option Alert :=
  (m.byIdentity.get? identity).bind m.alerts.get?

/-- A new alert, the latest of its identity. -/
def add (m : AlertManager) (alert : Alert) : AlertManager where
  alerts := m.alerts.set alert.id alert
  byIdentity := m.byIdentity.set alert.identity alert.id
  there := by
    intro identity id h
    by_cases hid : id = alert.id
    · rw [hid, Dict.get?_set_self]
      rfl
    · rw [Dict.get?_set] at h
      rw [Dict.get?_set_of_ne hid]
      split_ifs at h with hidentity
      · exact absurd (Option.some.inj h).symm hid
      · exact m.there identity id h

/-- Create an alert or return the existing open one. -/
def trigger (m : AlertManager) (args : TriggerArgs) (reading : Reading) : Alert × AlertManager :=
  let alert := args.alert reading
  match m.latest args.identity with
  | some existing => if existing.state ≠ .resolved then (existing, m) else (alert, m.add alert)
  | none => (alert, m.add alert)

/-- An alert that is there, changed in place. -/
def put (m : AlertManager) (alertId : String) (alert : Alert) : AlertManager where
  alerts := m.alerts.set alertId alert
  byIdentity := m.byIdentity
  there := by
    intro identity id h
    rw [Dict.get?_set]
    split_ifs with hid
    · rfl
    · exact m.there identity id h

/-- `_transition`. -/
def transition (m : AlertManager) (alertId : String) (state : AlertState) (reading : Reading) :
    Option Alert × AlertManager :=
  match m.alerts.get? alertId with
  | none => (none, m)
  | some alert =>
    let moved := alert.moved state reading
    (some moved, m.put alertId moved)

def acknowledge (m : AlertManager) (alertId : String) (reading : Reading) : Option Alert × AlertManager :=
  m.transition alertId .acknowledged reading

def escalate (m : AlertManager) (alertId : String) (reading : Reading) : Option Alert × AlertManager :=
  m.transition alertId .escalated reading

def resolve (m : AlertManager) (alertId : String) (reading : Reading) : Option Alert × AlertManager :=
  m.transition alertId .resolved reading

end AlertManager

/-! ### Runs -/

inductive AlertOp where
  | trigger (args : TriggerArgs) (reading : Reading)
  | acknowledge (alertId : String) (reading : Reading)
  | escalate (alertId : String) (reading : Reading)
  | resolve (alertId : String) (reading : Reading)

def AlertOp.apply (m : AlertManager) : AlertOp → AlertManager
  | .trigger args reading => (m.trigger args reading).2
  | .acknowledge id reading => (m.acknowledge id reading).2
  | .escalate id reading => (m.escalate id reading).2
  | .resolve id reading => (m.resolve id reading).2

/-- A transition and the state that it leads to. -/
def AlertOp.move : AlertOp → Option (String × AlertState)
  | .trigger _ _ => none
  | .acknowledge id _ => some (id, .acknowledged)
  | .escalate id _ => some (id, .escalated)
  | .resolve id _ => some (id, .resolved)

/-- The calls of `trigger` in a run, with the ids of the alerts that they would make. -/
def triggers (ops : List AlertOp) : List (TriggerArgs × Reading) :=
  ops.filterMap fun
    | .trigger args reading => some (args, reading)
    | _ => none

/-- `uuid4` never gives an id twice. -/
def FreshIds (ops : List AlertOp) : Prop := ((triggers ops).map fun p => p.2.id).Nodup

/-- No collision of the hash among the texts of the run. -/
def CollisionFree (ops : List AlertOp) : Prop :=
  ∀ p ∈ triggers ops, ∀ q ∈ triggers ops, p.1.identity = q.1.identity → p.1.text = q.1.text

/-! ### The lifecycle -/

/-- At most one alert of an identity is open. -/
def OneOpen (m : AlertManager) : Prop :=
  ∀ (id id' : String) (a a' : Alert), m.alerts.get? id = some a → m.alerts.get? id' = some a' →
    a.identity = a'.identity → a.state ≠ .resolved → a'.state ≠ .resolved → id = id'

/-- The recorded transitions lead from no state to the state of the alert. -/
structure Alert.Chained (a : Alert) : Prop where
  first : ∀ t ∈ a.transitions.head?, t.fromState = none
  links : a.transitions.IsChain fun t t' => t'.fromState = some t.toState
  last : a.transitions.getLast?.map Transition.toState = some a.state

def AllChained (m : AlertManager) : Prop := ∀ (id : String) (a : Alert), m.alerts.get? id = some a → a.Chained

/-- A resolved alert stays resolved in the step. -/
def ResolvedStays (m : AlertManager) (op : AlertOp) : Prop :=
  ∀ (id : String) (a : Alert), m.alerts.get? id = some a → a.state = .resolved →
    ∃ a', (op.apply m).alerts.get? id = some a' ∧ a'.state = .resolved

/-- What should hold of a run. -/
structure Lifecycle (ops : List AlertOp) : Prop where
  oneOpen : ∀ l, l <+: ops → OneOpen (run AlertOp.apply .empty l)
  terminal : Along AlertOp.apply ResolvedStays .empty ops
  chained : ∀ l, l <+: ops → AllChained (run AlertOp.apply .empty l)
  distinct : ∀ p ∈ triggers ops, ∀ q ∈ triggers ops, p.1.subject ≠ q.1.subject → p.1.identity ≠ q.1.identity

/-- The condition on a step: a resolved alert is not acknowledged and not escalated. -/
def NotReopened (m : AlertManager) (op : AlertOp) : Prop :=
  ∀ id state, op.move = some (id, state) → ∀ a, m.alerts.get? id = some a → a.state = .resolved → state = .resolved

/-- Two triggers with the same text are about the same. -/
def Unambiguous (ops : List AlertOp) : Prop :=
  ∀ p ∈ triggers ops, ∀ q ∈ triggers ops, p.1.text = q.1.text → p.1.subject = q.1.subject

/-! ### One step -/

@[simp] theorem TriggerArgs.alert_id (args : TriggerArgs) (reading : Reading) : (args.alert reading).id = reading.id := rfl

@[simp] theorem TriggerArgs.alert_state (args : TriggerArgs) (reading : Reading) :
    (args.alert reading).state = .detected := rfl

@[simp] theorem Alert.moved_state (a : Alert) (state : AlertState) (reading : Reading) :
    (a.moved state reading).state = state := rfl

@[simp] theorem Alert.moved_identity (a : Alert) (state : AlertState) (reading : Reading) :
    (a.moved state reading).identity = a.identity := rfl

theorem apply_trigger (m : AlertManager) (args : TriggerArgs) (reading : Reading) :
    (∃ a, m.latest args.identity = some a ∧ a.state ≠ .resolved ∧ (AlertOp.trigger args reading).apply m = m) ∨
    ((∀ a, m.latest args.identity = some a → a.state = .resolved) ∧
      (AlertOp.trigger args reading).apply m = m.add (args.alert reading)) := by
  show (∃ a, _ ∧ _ ∧ (m.trigger args reading).2 = m) ∨ (_ ∧ (m.trigger args reading).2 = _)
  rw [AlertManager.trigger]
  cases hlatest : m.latest args.identity with
  | none => exact .inr ⟨fun a h => (by cases h), rfl⟩
  | some existing =>
    by_cases hopen : existing.state ≠ .resolved
    · exact .inl ⟨existing, rfl, hopen, by dsimp only; rw [if_pos hopen]⟩
    · refine .inr ⟨fun a h => ?_, by dsimp only; rw [if_neg hopen]⟩
      cases h
      exact not_not.mp hopen

theorem apply_move {m : AlertManager} {op : AlertOp} {id : String} {state : AlertState}
    (h : op.move = some (id, state)) :
    (m.alerts.get? id = none ∧ op.apply m = m) ∨
    (∃ a reading, m.alerts.get? id = some a ∧ op.apply m = m.put id (a.moved state reading)) := by
  have key : ∀ reading : Reading, (m.alerts.get? id = none ∧ (m.transition id state reading).2 = m) ∨
      (∃ a reading', m.alerts.get? id = some a ∧
        (m.transition id state reading).2 = m.put id (a.moved state reading')) := by
    intro reading
    unfold AlertManager.transition
    cases hget : m.alerts.get? id with
    | none => exact .inl ⟨rfl, rfl⟩
    | some a => exact .inr ⟨a, reading, rfl, rfl⟩
  cases op with
  | trigger args reading => cases h
  | acknowledge id' reading => cases h; exact key reading
  | escalate id' reading => cases h; exact key reading
  | resolve id' reading => cases h; exact key reading

/-- What a step can do: nothing, a new alert of an identity without an open one, or a transition. -/
inductive AlertStep (m : AlertManager) (op : AlertOp) : AlertManager → Prop where
  | same : AlertStep m op m
  | created {args : TriggerArgs} {reading : Reading} (hop : op = .trigger args reading)
      (hlatest : ∀ a, m.latest args.identity = some a → a.state = .resolved) : AlertStep m op (m.add (args.alert reading))
  | moved {id : String} {state : AlertState} {a : Alert} (reading : Reading) (hop : op.move = some (id, state))
      (hget : m.alerts.get? id = some a) : AlertStep m op (m.put id (a.moved state reading))

theorem alertStep (m : AlertManager) (op : AlertOp) : AlertStep m op (op.apply m) := by
  cases hmove : op.move with
  | none =>
    cases op with
    | trigger args reading =>
      rcases apply_trigger m args reading with ⟨a, -, -, h⟩ | ⟨hlatest, h⟩
      · rw [h]; exact .same
      · rw [h]; exact .created rfl hlatest
    | acknowledge | escalate | resolve => cases hmove
  | some p =>
    rcases apply_move (m := m) hmove with ⟨-, h⟩ | ⟨a, reading, hget, h⟩
    · rw [h]; exact .same
    · rw [h]; exact .moved reading hmove hget

theorem get?_add (m : AlertManager) (a : Alert) (id : String) :
    (m.add a).alerts.get? id = if id = a.id then some a else m.alerts.get? id := Dict.get?_set

theorem get?_put (m : AlertManager) (id' : String) (a : Alert) (id : String) :
    (m.put id' a).alerts.get? id = if id = id' then some a else m.alerts.get? id := Dict.get?_set

/-! ### Chains -/

theorem TriggerArgs.alert_chained (args : TriggerArgs) (reading : Reading) : (args.alert reading).Chained where
  first := by simp [TriggerArgs.alert]
  links := .singleton _
  last := rfl

theorem Alert.Chained.moved {a : Alert} (h : a.Chained) (state : AlertState) (reading : Reading) :
    (a.moved state reading).Chained := by
  obtain ⟨t, hlast, hto⟩ := Option.map_eq_some_iff.mp h.last
  have hne : a.transitions ≠ [] := by
    intro hnil
    rw [hnil] at hlast
    cases hlast
  refine ⟨fun t' ht' => ?_, ?_, ?_⟩
  · rw [Alert.moved, List.head?_append_of_ne_nil _ hne] at ht'
    exact h.first t' ht'
  · refine List.isChain_append.mpr ⟨h.links, .singleton _, ?_⟩
    intro t' ht' t'' ht''
    rw [hlast] at ht'
    cases ht'
    cases ht''
    rw [hto]
  · simp [Alert.moved]

theorem AllChained.step {m : AlertManager} (h : AllChained m) (op : AlertOp) : AllChained (op.apply m) := by
  intro id a hget
  have hstep := alertStep m op
  generalize op.apply m = m' at hstep hget
  cases hstep with
  | same => exact h id a hget
  | @created args reading hop hlatest =>
    rw [get?_add] at hget
    split_ifs at hget with hid
    · cases hget; exact args.alert_chained reading
    · exact h id a hget
  | @moved id' state a' reading hop hget' =>
    rw [get?_put] at hget
    split_ifs at hget with hid
    · cases hget; exact (h id' a' hget').moved state reading
    · exact h id a hget

/-! ### Open alerts -/

/-- An open alert is the latest of its identity. -/
def Indexed (m : AlertManager) : Prop :=
  ∀ (id : String) (a : Alert), m.alerts.get? id = some a → a.state ≠ .resolved → m.byIdentity.get? a.identity = some id

theorem Indexed.oneOpen {m : AlertManager} (h : Indexed m) : OneOpen m := by
  intro id id' a a' hget hget' hidentity hopen hopen'
  have hlatest := h id a hget hopen
  rw [hidentity, h id' a' hget' hopen'] at hlatest
  exact (Option.some.inj hlatest).symm

/-- The id of a new alert is not in use. -/
def NewId (m : AlertManager) (op : AlertOp) : Prop :=
  ∀ args reading, op = .trigger args reading → m.alerts.get? reading.id = none

/-- **An open alert stays the latest of its identity** in a step that does not reopen one. -/
theorem Indexed.step {m : AlertManager} {op : AlertOp} (h : Indexed m) (hop : NotReopened m op) :
    Indexed (op.apply m) := by
  intro id a hget hopen
  have hstep := alertStep m op
  generalize op.apply m = m' at hstep hget ⊢
  cases hstep with
  | same => exact h id a hget hopen
  | @created args reading hop hlatest =>
    rw [get?_add] at hget
    show (m.byIdentity.set args.identity reading.id).get? a.identity = some id
    rw [Dict.get?_set]
    split_ifs at hget with hid
    · cases hget
      rw [if_pos (show (args.alert reading).identity = args.identity from rfl), hid]
      rfl
    · by_cases hidentity : a.identity = args.identity
      · -- an open alert of the identity would be the latest, which is resolved
        have hlast := h id a hget hopen
        have : m.latest args.identity = some a := by rw [AlertManager.latest, ← hidentity, hlast]; exact hget
        exact absurd (hlatest a this) hopen
      · rw [if_neg hidentity]
        exact h id a hget hopen
  | @moved id' state a' reading hmove hget' =>
    rw [get?_put] at hget
    show m.byIdentity.get? a.identity = some id
    split_ifs at hget with hid
    · cases hget
      rw [hid]
      exact h id' a' hget' fun hres => hopen (hop id' state hmove a' hget' hres)
    · exact h id a hget hopen

/-- **A resolved alert stays resolved** in exactly the steps that do not reopen one. -/
theorem resolvedStays_iff {m : AlertManager} {op : AlertOp} (hnew : NewId m op) :
    ResolvedStays m op ↔ NotReopened m op := by
  constructor
  · intro h id state hmove a hget hres
    obtain ⟨a', hget', hres'⟩ := h id a hget hres
    rcases apply_move (m := m) hmove with ⟨hnone, -⟩ | ⟨b, reading, -, happly⟩
    · rw [hnone] at hget
      cases hget
    · rw [happly, get?_put, if_pos rfl] at hget'
      cases hget'
      exact hres'
  · intro h id a hget hres
    have hstep := alertStep m op
    generalize op.apply m = m' at hstep ⊢
    cases hstep with
    | same => exact ⟨a, hget, hres⟩
    | @created args reading hop hlatest =>
      refine ⟨a, ?_, hres⟩
      rw [get?_add, if_neg, hget]
      intro hid
      rw [hid, TriggerArgs.alert_id, hnew args reading hop] at hget
      cases hget
    | @moved id' state a' reading hmove hget' =>
      rw [get?_put]
      by_cases hid : id = id'
      · subst hid
        rw [hget] at hget'
        cases hget'
        rw [if_pos rfl]
        exact ⟨_, rfl, h id state hmove a hget hres⟩
      · rw [if_neg hid]
        exact ⟨a, hget, hres⟩

/-! ### Ids -/

/-- A step adds no alert but the one of its trigger. -/
theorem get?_apply_none {m : AlertManager} {op : AlertOp} {id : String} (h : m.alerts.get? id = none)
    (hne : ∀ args reading, op = .trigger args reading → reading.id ≠ id) : (op.apply m).alerts.get? id = none := by
  have hstep := alertStep m op
  generalize op.apply m = m' at hstep ⊢
  cases hstep with
  | same => exact h
  | @created args reading hop hlatest => rw [get?_add, if_neg fun hid => hne args reading hop hid.symm, h]
  | @moved id' state a' reading hmove hget' =>
    rw [get?_put, if_neg, h]
    rintro rfl
    rw [h] at hget'
    cases hget'

theorem FreshIds.along {ops : List AlertOp} : ∀ {m : AlertManager}, FreshIds ops →
    (∀ p ∈ triggers ops, m.alerts.get? p.2.id = none) → Along AlertOp.apply NewId m ops := by
  induction ops with
  | nil => exact fun _ _ => trivial
  | cons op ops ih =>
    intro m hfresh hnone
    have hsub : ∀ p ∈ triggers ops, p ∈ triggers (op :: ops) := by
      intro p hp
      exact (List.Sublist.filterMap _ (List.sublist_cons_self op ops)).subset hp
    have hmem : ∀ args reading, op = .trigger args reading → triggers (op :: ops) = (args, reading) :: triggers ops := by
      rintro args reading rfl
      rfl
    refine ⟨fun args reading hop => hnone (args, reading) (by rw [hmem args reading hop]; exact List.mem_cons_self), ?_⟩
    refine ih (hfresh.sublist ((List.Sublist.filterMap _ (List.sublist_cons_self op ops)).map _)) fun p hp => ?_
    refine get?_apply_none (hnone p (hsub p hp)) fun args reading hop hid => ?_
    rw [FreshIds, hmem args reading hop, List.map_cons, List.nodup_cons] at hfresh
    exact hfresh.1 (hid ▸ List.mem_map_of_mem hp)

/-! ### Texts -/

/-- Up to the last field the fields of two triggers can be read off the text when they have no separator in them. -/
theorem identityText_inj {alertType source scope condition alertType' source' scope' condition' : String}
    (hclean : ∀ s ∈ [alertType, source, scope, alertType', source', scope'], '|' ∉ s.toList)
    (h : identityText alertType source scope condition = identityText alertType' source' scope' condition') :
    alertType = alertType' ∧ source = source' ∧ scope = scope' ∧ condition = condition' := by
  have hlist := congrArg String.toList h
  simp only [identityText, String.toList_append, List.append_assoc] at hlist
  obtain ⟨htype, hrest⟩ := Joining.clean_inj (hclean alertType (by simp)) (hclean alertType' (by simp)) hlist
  obtain ⟨hsource, hrest⟩ := Joining.clean_inj (hclean source (by simp)) (hclean source' (by simp)) hrest
  obtain ⟨hscope, hcondition⟩ := Joining.clean_inj (hclean scope (by simp)) (hclean scope' (by simp)) hrest
  exact ⟨String.toList_inj.mp htype, String.toList_inj.mp hsource, String.toList_inj.mp hscope,
    String.toList_inj.mp hcondition⟩

theorem distinct_iff {ops : List AlertOp} (hcol : CollisionFree ops) :
    (∀ p ∈ triggers ops, ∀ q ∈ triggers ops, p.1.subject ≠ q.1.subject → p.1.identity ≠ q.1.identity) ↔
      Unambiguous ops := by
  constructor
  · intro h p hp q hq htext
    by_contra hne
    exact h p hp q hq hne (congrArg sha256 htext)
  · exact fun h p hp q hq hne hid => hne (h p hp q hq (hcol p hp q hq hid))

/-! ### The lifecycle along a run -/

theorem indexed_empty : Indexed .empty := fun id a h => absurd h (by simp [AlertManager.empty, Dict.empty, Dict.get?])

theorem allChained_empty : AllChained .empty := fun id a h =>
  absurd h (by simp [AlertManager.empty, Dict.empty, Dict.get?])

/-- **The lifecycle holds in exactly the runs** that do not acknowledge or escalate a resolved alert and whose triggers
are told apart by the text that is hashed. -/
theorem lifecycle_iff {ops : List AlertOp} (hfresh : FreshIds ops) (hcol : CollisionFree ops) :
    Lifecycle ops ↔ Along AlertOp.apply NotReopened .empty ops ∧ Unambiguous ops := by
  have hnew : Along AlertOp.apply NewId .empty ops :=
    hfresh.along fun p _ => by simp [AlertManager.empty, Dict.empty, Dict.get?]
  have hterminal : Along AlertOp.apply ResolvedStays .empty ops ↔ Along AlertOp.apply NotReopened .empty ops :=
    along_congr (I := fun _ => True) (fun _ _ _ => trivial) (fun _ _ _ h => resolvedStays_iff h) trivial hnew
  constructor
  · exact fun h => ⟨hterminal.mp h.terminal, (distinct_iff hcol).mp h.distinct⟩
  · rintro ⟨hop, htext⟩
    refine ⟨?_, hterminal.mpr hop, fun l _ => ?_, (distinct_iff hcol).mpr htext⟩
    · rintro l ⟨rest, rfl⟩
      have hbefore := ((along_append _ _ _ l rest).mp hop).1
      exact (hbefore.invariant (I := Indexed) (fun _ _ h hop => h.step hop) indexed_empty).oneOpen
    · exact run_invariant AlertOp.apply AllChained (fun _ op h => h.step op) allChained_empty l

def feedStale : TriggerArgs := ⟨"feed_stale", .high, "market_data", "NIFTY", "no_tick", "Feed stale", "", none, none, none⟩

theorem lifecycle_iff_resolved : Lifecycle [.trigger feedStale ⟨"a", "1", "1"⟩, .acknowledge "a" ⟨"", "2", "2"⟩,
    .resolve "a" ⟨"", "3", "3"⟩] := by
  refine (lifecycle_iff (by simp [FreshIds, triggers]) (by simp [CollisionFree, triggers])).mpr ⟨?_, ?_⟩
  · refine ⟨?_, ?_, ?_, trivial⟩
    · intro id state h
      cases h
    · intro id state h a hget hres
      cases h
      cases hget
      cases hres
    · intro id state h a hget hres
      cases h
      rfl
  · simp [Unambiguous, triggers]

/-- An alert is acknowledged after it was resolved. -/
theorem not_lifecycle_reopened : ¬ ∀ ops : List AlertOp, FreshIds ops → CollisionFree ops → Lifecycle ops := by
  intro h
  have hrun := (h [.trigger feedStale ⟨"a", "1", "1"⟩, .resolve "a" ⟨"", "2", "2"⟩, .acknowledge "a" ⟨"", "3", "3"⟩]
    (by simp [FreshIds, triggers]) (by simp [CollisionFree, triggers])).terminal
  obtain ⟨a, hget, hres⟩ := hrun.2.2.1 "a" _ rfl rfl
  cases hget
  cases hres

end AlphaAlgo.Observability
