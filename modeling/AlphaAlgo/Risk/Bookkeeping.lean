import AlphaAlgo.Lib.Tally
import AlphaAlgo.Risk.ServiceRuns

/-!
# Bookkeeping — the decision cache and the retry counters

A service counts an evaluation that came to a decision of the rules before the decision is stored, and remembers the
decision afterwards.  A counter goes when its decision is evicted; an approval that the repository did not insert is not
remembered, so that its counter never goes.  Calls are taken under the locks of their services, whatever the calls of
other services do meanwhile.

* `bookStep_next`: what a step does to the cache and the counters.
* `bookkept_iff`: the runs in which the counted keys are the remembered ones whenever no evaluation is under way.
* `recorded_of_persists`: the answers of the database under which they are.
-/

namespace AlphaAlgo.Risk

open Runs

variable {key : String}

/-! ### The books of a service -/

/-- The decision cache with the retry counters. -/
def RiskService.books (s : RiskService) : Tally String RiskDecision := ⟨s.capacity, s.decisions, s.retries⟩

theorem books_recordSeen (s : RiskService) (d : RiskDecision) :
    (s.recordSeen key d).1.books = s.books.record key d := rfl

theorem books_recordOutcome (s : RiskService) (signal : StrategySignal) (now : ℤ) (approved : Bool) :
    (s.recordOutcome signal now key approved).books = s.books.count key := rfl

/-- What a judgement does to the books: a decision of the rules is counted, and no decision is remembered for its key. -/
inductive Entered (s : RiskService) (key : String) : RiskService × Except RiskError Judgement → Prop
  | kept {s' : RiskService} {j : Except RiskError Judgement} (hbooks : s'.books = s.books)
      (hearly : ∀ d i, j ≠ .ok (.final d i)) : Entered s key (s', j)
  | counted {s' : RiskService} {d : RiskDecision} {i : UUID} (hbooks : s'.books = s.books.count key)
      (hnew : key ∉ s.decisions.map Prod.fst) : Entered s key (s', .ok (.final d i))

section Judgement

variable {s : RiskService} {request : RiskAssessmentRequest} {intent : Option RiskOrderIntent} {mode : String}
  {env : EvalEnv}

theorem entered_early {s' : RiskService} {x : Except RiskError RiskDecision} (hbooks : s'.books = s.books) :
    Entered s key (s', x.map .early) :=
  .kept hbooks fun d i h => by cases x <;> cases h

theorem entered_context {s' : RiskService} (hbooks : s'.books = s.books) (hnew : key ∉ s.decisions.map Prod.fst)
    (snapshot : RiskSnapshot) (context : RiskEvaluationContext) :
    Entered s key (s'.judgeContext request key env snapshot context) := by
  unfold RiskService.judgeContext
  cases validate context with
  | error e => exact .kept hbooks fun d i h => by cases h
  | ok problems =>
    cases problems with
    | cons problem problems => exact entered_early hbooks
    | nil =>
      dsimp only
      cases s'.engine.evaluate request context env.engine with
      | error e => exact .kept hbooks fun d i h => by cases h
      | ok d => exact .counted ((books_recordOutcome s' _ _ _).trans (by rw [hbooks])) hnew

theorem entered_new (hnew : key ∉ s.decisions.map Prod.fst) :
    Entered s key (s.judgeNew request intent mode key env) := by
  unfold RiskService.judgeNew
  dsimp only
  cases (RiskService.checkScopes (instant env.now) (RiskService.scopes request.signal) s.breaker).2 with
  | some scope => exact entered_early rfl
  | none =>
    dsimp only
    split
    · exact entered_early rfl
    · exact entered_early rfl
    · refine entered_context ?_ hnew _ _
      rfl

theorem judgePrior_ne_final {prior : RiskDecision} {d : RiskDecision} {i : UUID} :
    RiskService.judgePrior request key env prior ≠ .ok (.final d i) := by
  intro h
  unfold RiskService.judgePrior at h
  split at h
  · obtain ⟨usable, -, h⟩ := Loop.bind_eq_ok.mp h
    cases usable with
    | true => cases h
    | false =>
      obtain ⟨d, -, h⟩ := Loop.bind_eq_ok.mp h
      cases h
  · cases h

/-- **Only a decision of the rules is counted**, and it is one for a key that is not remembered. -/
theorem entered (s : RiskService) (request : RiskAssessmentRequest) (intent : Option RiskOrderIntent)
    (mode key : String) (env : EvalEnv) : Entered s key (s.judge request intent mode key env) := by
  unfold RiskService.judge
  by_cases hmode : mode ∉ allowedModes
  · rw [if_pos hmode]
    exact entered_early rfl
  · rw [if_neg hmode]
    cases hl : s.decisions.lookup key with
    | none =>
      refine entered_new fun hmem => ?_
      obtain ⟨e, he, hkey⟩ := List.mem_map.mp hmem
      exact absurd hkey.symm (bne_iff_ne.mp (List.lookup_eq_none_iff.mp hl e he))
    | some prior => exact .kept rfl fun d i => judgePrior_ne_final

end Judgement

/-! ### Steps -/

/-- What a call under way takes to the database and back. -/
def RiskPc.way : RiskPc → Option Pending
  | .find w | .insert w | .finish w _ _ => some w
  | .start | .fanOut _ _ _ | .returned _ | .raised _ => none

/-- The key that a call has counted, as long as it has not come to remember the decision. -/
def RiskPc.counting (pc : RiskPc) : Option String :=
  pc.way.bind fun w => if w.early then none else some w.identityKey

theorem RiskPc.counting_eq_some {pc : RiskPc} :
    pc.counting = some key ↔ ∃ w, pc.way = some w ∧ w.early = false ∧ w.identityKey = key := by
  rw [counting, Option.bind_eq_some_iff]
  refine exists_congr fun w => and_congr_right fun _ => ?_
  cases w.early <;> simp

theorem way_persist (service : RiskService) (w : Pending) : (RiskCall.persist service w).way = some w := by
  unfold RiskCall.persist
  split <;> rfl

/-- The books after the first step of a call: an early decision is remembered at once, a decision of the rules is
counted. -/
inductive Opened (service : RiskService) : RiskService × RiskPc → Prop
  | quiet {service' : RiskService} {pc : RiskPc} (hbooks : service'.books = service.books) (hway : pc.way = none) :
      Opened service (service', pc)
  | seen {service' : RiskService} {pc : RiskPc} {key : String} {d : RiskDecision}
      (hbooks : service'.books = service.books.record key d)
      (hearly : ∀ w, pc.way = some w → w.early = true ∧ w.decision.isApproved = false) : Opened service (service', pc)
  | counted {service' : RiskService} {pc : RiskPc} {w : Pending}
      (hbooks : service'.books = service.books.count w.identityKey)
      (hnew : w.identityKey ∉ service.decisions.map Prod.fst) (hway : pc.way = some w) (hearly : w.early = false) :
      Opened service (service', pc)

theorem opened_proceed {service : RiskService} {result : RiskService × Except RiskError Judgement}
    (h : Entered service key result) (hjudged : Judged service key result) :
    Opened service (RiskCall.proceed key result) := by
  cases h with
  | @kept service' j hbooks hearly =>
    cases j with
    | error e => exact .quiet hbooks rfl
    | ok j =>
      cases j with
      | replay prior => exact .quiet hbooks rfl
      | final d i => exact absurd rfl (hearly d i)
      | early d =>
        have hseen : (service'.recordSeen key d).1.books = service.books.record key d := by
          rw [books_recordSeen, hbooks]
        simp only [RiskCall.proceed]
        split
        · refine .seen hseen fun w hw => ?_
          rw [way_persist] at hw
          cases hw
          exact ⟨rfl, hjudged.sound _ rfl⟩
        · exact .seen hseen fun w hw => by cases hw
  | counted hbooks hnew => exact .counted (w := ⟨key, _, false, some _⟩) hbooks hnew (way_persist _ _) rfl

theorem opened_begin (c : RiskCall) (service : RiskService) : Opened service (c.begin service) := by
  unfold RiskCall.begin
  cases c.key with
  | error e => exact .quiet rfl rfl
  | ok key =>
    cases c.request with
    | error e => exact .quiet rfl rfl
    | ok request => exact opened_proceed (entered _ _ _ _ _ _) (judged _ _ _ _ _ _)

/-- The branch that neither remembers the decision of the rules nor takes its counter back: an approval that the
repository did not insert. -/
def Unrecorded (service : RiskService) (w : Pending) (persisted : Bool) : Prop :=
  w.decision.isApproved = true ∧ persisted = false ∧ service.hasRepository = true

/-- The books after a call has heard of the database. -/
inductive Closed (service : RiskService) (w : Pending) (persisted : Bool) : RiskService × RiskPc → Prop
  | unrecorded {pc : RiskPc} (hway : pc.way = none) (h : w.early = true ∨ Unrecorded service w persisted) :
      Closed service w persisted (service, pc)
  | recorded {service' : RiskService} {pc : RiskPc} (hway : pc.way = none)
      (hbooks : service'.books = service.books.record w.identityKey w.decision) :
      Closed service w persisted (service', pc)

theorem closed_conclude (service : RiskService) (w : Pending) (persisted : Bool) (recordId : Option UUID) :
    Closed service w persisted (RiskCall.conclude service w persisted recordId) := by
  unfold RiskCall.conclude
  split_ifs with hskip hseen happroved
  · refine .unrecorded rfl ?_
    simpa [Unrecorded, and_assoc] using hskip
  · exact .recorded rfl (books_recordSeen service _)
  · exact .recorded rfl (books_recordSeen service _)
  · exact .recorded rfl (books_recordSeen service _)

/-- The step of a call, by what it does to the books of the services. -/
inductive BookStep (s : RiskShared) (c : RiskCall) : RiskShared → RiskPc → Prop
  | quiet {s' : RiskShared} {pc : RiskPc} (hservices : s'.services = s.services) (hway : pc.way = c.pc.way) :
      BookStep s c s' pc
  | opened {service service' : RiskService} {pc : RiskPc} (hs : s.services[c.service]? = some service)
      (hpc : c.pc = .start) (h : Opened service (service', pc)) :
      BookStep s c { s with services := s.services.set c.service service' } pc
  | closed {service service' : RiskService} {w : Pending} {persisted : Bool} {recordId : Option UUID} {pc : RiskPc}
      (hs : s.services[c.service]? = some service) (hpc : c.pc = .finish w persisted recordId)
      (h : Closed service w persisted (service', pc)) :
      BookStep s c { s with services := s.services.set c.service service' } pc

/-- **Every step opens or closes an evaluation, or leaves all books as they are.** -/
theorem bookStep_next (s : RiskShared) (c : RiskCall) : BookStep s c (c.next s).1 (c.next s).2.pc := by
  unfold RiskCall.next
  cases hs : s.services[c.service]? with
  | none => exact .quiet rfl rfl
  | some service =>
    cases hpc : c.pc with
    | start => exact .opened hs hpc (opened_begin c service)
    | find w =>
      refine .quiet ?_ ?_
      · dsimp only
        split
        · rfl
        · split <;> rfl
      · rw [hpc]
        dsimp only
        split
        · rfl
        · split <;> rfl
    | insert w =>
      refine .quiet rfl ?_
      rw [hpc]
      dsimp only
      split <;> rfl
    | finish w persisted recordId => exact .closed hs hpc (closed_conclude service w persisted recordId)
    | fanOut w persisted recordId =>
      refine .quiet rfl ?_
      rw [hpc]
      rfl
    | returned _ | raised _ => exact .quiet rfl rfl

/-! ### The lock -/

def RiskPc.isStart : RiskPc → Bool
  | .start => true
  | _ => false

theorem RiskPc.isStart_iff {pc : RiskPc} : pc.isStart = true ↔ pc = .start := by
  cases pc <;> simp [isStart]

/-- An evaluation on service `i` is under way.  The lock is held up to the end of the fan-out, but it is reentrant: a
consumer may evaluate again. -/
def held (p : RiskSystem) (i : ℕ) : Bool := p.calls.any fun c => c.service == i && c.pc.way.isSome

/-- Call `j` is to begin and waits for the lock of its service. -/
def blocked (p : RiskSystem) (j : ℕ) : Bool := p.calls[j]?.any fun c => c.pc.isStart && held p c.service

/-- The calls under the locks: one that waits stays where it is. -/
def lockStep (p : RiskSystem) (j : ℕ) : RiskSystem := if blocked p j then p else p.step RiskCall.next j

theorem held_iff {p : RiskSystem} {i : ℕ} :
    held p i = true ↔ ∃ c ∈ p.calls, c.service = i ∧ ∃ w, c.pc.way = some w := by
  simp [held, Option.isSome_iff_exists]

theorem lockStep_of_not_blocked {p : RiskSystem} {j : ℕ} (h : blocked p j = false) :
    lockStep p j = p.step RiskCall.next j := by
  rw [lockStep, h]
  rfl

/-- A call that does not begin now does not wait. -/
theorem blocked_of_ne_start {p : RiskSystem} {j : ℕ} {c : RiskCall} (hc : p.calls[j]? = some c) (hpc : c.pc ≠ .start) :
    blocked p j = false := by
  have hstart : c.pc.isStart = false := Bool.eq_false_iff.mpr fun h => hpc (RiskPc.isStart_iff.mp h)
  simp [blocked, hc, hstart]

/-- The lock is free for a call that begins. -/
theorem held_of_not_blocked {p : RiskSystem} {j : ℕ} {c : RiskCall} (h : blocked p j = false)
    (hc : p.calls[j]? = some c) (hpc : c.pc = .start) : held p c.service = false := by
  simpa [blocked, hc, hpc, RiskPc.isStart] using h

/-- A key that an evaluation on service `i` has counted and not come to remember. -/
def Counting (p : RiskSystem) (i : ℕ) (key : String) : Prop :=
  ∃ c ∈ p.calls, c.service = i ∧ c.pc.counting = some key

theorem Counting.held {p : RiskSystem} {i : ℕ} (h : Counting p i key) : held p i = true := by
  obtain ⟨c, hc, hservice, hcounting⟩ := h
  obtain ⟨w, hw, -, -⟩ := RiskPc.counting_eq_some.mp hcounting
  exact held_iff.mpr ⟨c, hc, hservice, w, hw⟩

/-! ### What holds of the books -/

/-- The books of a service in a state: the cache is within its capacity; while no evaluation is under way each key of
the retry counters is a key of the cache; the counters are never more than the cache may hold and one. -/
structure BooksKept (p : RiskSystem) (i : ℕ) (service : RiskService) : Prop where
  within : (service.decisions.length : ℤ) ≤ service.capacity
  cached : held p i = false → ∀ key ∈ service.retries.map Prod.fst, key ∈ service.decisions.map Prod.fst
  bounded : (service.retries.length : ℤ) ≤ service.capacity + 1

/-- The books of all services. -/
def Bookkept (p : RiskSystem) : Prop :=
  ∀ i service, p.shared.services[i]? = some service → BooksKept p i service

/-- The condition on a step: no call leaves a decision of the rules unrecorded, an approval that the repository of its
service did not insert. -/
def Recorded (s : RiskShared) (c : RiskCall) : Prop :=
  match c.pc with
  | .finish w persisted _ => w.early = false → ∀ service ∈ s.services[c.service]?, ¬Unrecorded service w persisted
  | _ => True

/-- What holds in the runs of the condition.  One evaluation is under way on a service at most; the key it has counted is
not remembered. -/
structure BookInv (p : RiskSystem) : Prop where
  kept : ∀ (i : ℕ) (service : RiskService), p.shared.services[i]? = some service → service.books.Kept (Counting p i)
  alone : ∀ (j j' : ℕ) (c c' : RiskCall), p.calls[j]? = some c → p.calls[j']? = some c' → c.service = c'.service →
    (∃ w, c.pc.way = some w) → (∃ w, c'.pc.way = some w) → j = j'
  waiting : ∀ (j : ℕ) (c : RiskCall), p.calls[j]? = some c → ∀ key, c.pc.counting = some key →
    ∀ service : RiskService, p.shared.services[c.service]? = some service →
      key ∈ service.retries.map Prod.fst ∧ key ∉ service.decisions.map Prod.fst

/-- **The books are as they should be** where the invariant holds. -/
theorem BookInv.bookkept {p : RiskSystem} (h : BookInv p) : Bookkept p := by
  intro i service hs
  have hkept := h.kept i service hs
  refine ⟨hkept.within, fun hfree key hkey => ?_, ?_⟩
  · refine (hkept.counted key hkey).resolve_right fun hcounting => ?_
    rw [hcounting.held] at hfree
    cases hfree
  · by_cases hcounting : ∃ key, Counting p i key
    · obtain ⟨key, c, hc, hservice, hkey⟩ := hcounting
      refine hkept.length_counts_le [key] fun key' hkey' => ?_
      obtain ⟨c', hc', hservice', hkey'⟩ := hkey'
      obtain ⟨j, hj⟩ := List.mem_iff_getElem?.mp hc
      obtain ⟨j', hj'⟩ := List.mem_iff_getElem?.mp hc'
      obtain ⟨w, hw, -⟩ := RiskPc.counting_eq_some.mp hkey
      obtain ⟨w', hw', -⟩ := RiskPc.counting_eq_some.mp hkey'
      have hjj := h.alone j j' c c' hj hj' (hservice.trans hservice'.symm) ⟨w, hw⟩ ⟨w', hw'⟩
      subst hjj
      cases hj.symm.trans hj'
      rw [hkey] at hkey'
      cases hkey'
      exact List.mem_singleton_self key
    · have hlength := hkept.length_counts_le [] fun key hkey => absurd ⟨key, hkey⟩ hcounting
      have hretries : (service.retries.length : ℤ) ≤ service.capacity + 0 := hlength
      omega

/-! ### What a step keeps -/

section Step

variable {s s' : RiskShared} {c : RiskCall} {pc : RiskPc} {p : RiskSystem} {j : ℕ}

/-- The books of a step that meets the condition, whatever counts as pending before it (`pending`) and after it. -/
theorem BookStep.kept (h : BookStep s c s' pc) (hG : Recorded s c) {pending pending' : ℕ → String → Prop}
    (hkept : ∀ (i : ℕ) (service : RiskService), s.services[i]? = some service → service.books.Kept (pending i))
    (hothers : ∀ i k, pending i k → i ≠ c.service ∨ c.pc.counting ≠ some k → pending' i k)
    (hown : ∀ k, pc.counting = some k → pending' c.service k) :
    ∀ (i : ℕ) (service : RiskService), s'.services[i]? = some service → service.books.Kept (pending' i) := by
  intro i service hi
  cases h with
  | quiet hservices hway =>
    rw [hservices] at hi
    refine (hkept i service hi).mono fun k hk => ?_
    by_cases hi : i = c.service
    · subst hi
      by_cases hcounting : c.pc.counting = some k
      · exact hown k (by rw [← hcounting, RiskPc.counting, RiskPc.counting, hway])
      · exact hothers _ k hk (.inr hcounting)
    · exact hothers i k hk (.inl hi)
  | @opened service₀ service₁ _ hs hpc h =>
    rcases Pool.get_set_cases hi with ⟨rfl, rfl⟩ | ⟨hne, hi⟩
    · have hstart : ∀ k, c.pc.counting ≠ some k := fun k hk => by rw [hpc] at hk; cases hk
      have hbefore := hkept _ _ hs
      cases h with
      | quiet hbooks hway =>
        rw [hbooks]
        exact hbefore.mono fun k hk => hothers _ k hk (.inr (hstart k))
      | seen hbooks hearly =>
        rw [hbooks]
        exact (hbefore.record _ _).mono fun k hk => hothers _ k hk.1 (.inr (hstart k))
      | @counted _ _ w hbooks hnew hway hearly =>
        rw [hbooks]
        refine (hbefore.count _).mono fun k hk => ?_
        rcases hk with hk | rfl
        · exact hothers _ k hk (.inr (hstart k))
        · exact hown _ (RiskPc.counting_eq_some.mpr ⟨w, hway, hearly, rfl⟩)
    · exact (hkept i service hi).mono fun k hk => hothers i k hk (.inl hne)
  | @closed service₀ service₁ w persisted recordId _ hs hpc h =>
    rcases Pool.get_set_cases hi with ⟨rfl, rfl⟩ | ⟨hne, hi⟩
    · have hbefore := hkept _ _ hs
      cases h with
      | unrecorded hway hskip =>
        refine hbefore.mono fun k hk => hothers _ k hk (.inr fun hcounting => ?_)
        -- a decision of the rules that is not recorded is what the condition rules out
        obtain ⟨w', hw', hearly, -⟩ := RiskPc.counting_eq_some.mp hcounting
        rw [hpc] at hw'
        cases hw'
        unfold Recorded at hG
        rw [hpc] at hG
        exact hG hearly service hs (hskip.resolve_left (by simp [hearly]))
      | recorded hway hbooks =>
        rw [hbooks]
        refine (hbefore.record _ _).mono fun k hk => hothers _ k hk.1 (.inr fun hcounting => ?_)
        obtain ⟨w', hw', -, hkey⟩ := RiskPc.counting_eq_some.mp hcounting
        rw [hpc] at hw'
        cases hw'
        exact hk.2 hkey.symm
    · exact (hkept i service hi).mono fun k hk => hothers i k hk (.inl hne)

/-- The calls after a step. -/
theorem calls_step (hc : p.calls[j]? = some c) {j' : ℕ} {d : RiskCall} (hd : (p.step RiskCall.next j).calls[j']? = some d) :
    (j' = j ∧ d = { c with pc := (c.next p.shared).2.pc }) ∨ (j' ≠ j ∧ p.calls[j']? = some d) := by
  rw [Pool.step_of_some hc, RiskCall.next_eq] at hd
  exact Pool.get_set_cases hd

/-- A call is on its way after a step when it was before, or it began and the lock was free. -/
theorem BookStep.way (h : BookStep s c s' pc) : (∃ w, c.pc.way = some w) ∨ c.pc = .start ∨ pc.way = none := by
  cases h with
  | quiet hservices hway =>
    rw [hway]
    cases c.pc.way with
    | none => exact .inr (.inr rfl)
    | some w => exact .inl ⟨w, rfl⟩
  | opened hs hpc h => exact .inr (.inl hpc)
  | closed hs hpc h => exact .inl ⟨_, by rw [hpc]; rfl⟩

theorem shared_step (hc : p.calls[j]? = some c) : (p.step RiskCall.next j).shared = (c.next p.shared).1 := by
  rw [Pool.step_of_some hc]

/-- At most one evaluation is under way on a service after a step, if the lock was free for one that began. -/
theorem BookInv.alone_step (h : BookInv p) (hc : p.calls[j]? = some c) (hfree : blocked p j = false) {j₁ j₂ : ℕ}
    {c₁ c₂ : RiskCall} (h₁ : (p.step RiskCall.next j).calls[j₁]? = some c₁)
    (h₂ : (p.step RiskCall.next j).calls[j₂]? = some c₂) (hservice : c₁.service = c₂.service)
    (hway₁ : ∃ w, c₁.pc.way = some w) (hway₂ : ∃ w, c₂.pc.way = some w) : j₁ = j₂ := by
  -- another call under way on the service of the stepping one
  have hother : ∀ {j' : ℕ} {d : RiskCall}, j' ≠ j → p.calls[j']? = some d → d.service = c.service →
      (∃ w, d.pc.way = some w) → (c.next p.shared).2.pc.way = none := by
    intro j' d hne hd hservice hway
    rcases (bookStep_next p.shared c).way with hbefore | hstart | hnone
    · exact absurd (h.alone j' j d c hd hc hservice hway hbefore) hne
    · have hheld : held p c.service = true := by
        obtain ⟨w, hw⟩ := hway
        exact held_iff.mpr ⟨d, List.mem_of_getElem? hd, hservice, w, hw⟩
      rw [held_of_not_blocked hfree hc hstart] at hheld
      cases hheld
    · exact hnone
  rcases calls_step hc h₁ with ⟨rfl, rfl⟩ | ⟨hne₁, h₁⟩ <;> rcases calls_step hc h₂ with ⟨hj, rfl⟩ | ⟨hne₂, h₂⟩
  · exact hj.symm
  · obtain ⟨w, hw⟩ := hway₁
    exact absurd (hother hne₂ h₂ hservice.symm hway₂) (by simp [hw])
  · obtain ⟨w, hw⟩ := hway₂
    exact absurd (hother hne₁ h₁ hservice hway₁) (by simp [hw])
  · exact h.alone j₁ j₂ c₁ c₂ h₁ h₂ hservice hway₁ hway₂

/-- The services that a step does not leave alone are that of a call which holds its lock, or takes it. -/
theorem BookInv.waiting_step (h : BookInv p) (hc : p.calls[j]? = some c) (hfree : blocked p j = false) {j' : ℕ}
    {d : RiskCall} (hd : (p.step RiskCall.next j).calls[j']? = some d) (hkey : d.pc.counting = some key)
    {service : RiskService} (hs : (c.next p.shared).1.services[d.service]? = some service) :
    key ∈ service.retries.map Prod.fst ∧ key ∉ service.decisions.map Prod.fst := by
  obtain ⟨w, hw, hearly, hwkey⟩ := RiskPc.counting_eq_some.mp hkey
  have hstep := bookStep_next p.shared c
  rcases calls_step hc hd with ⟨rfl, rfl⟩ | ⟨hne, hd'⟩
  · -- the stepping call
    generalize (c.next p.shared).1 = s' at hs hstep
    generalize (c.next p.shared).2.pc = pc at hw hkey hstep
    cases hstep with
    | quiet hservices hway =>
      rw [hservices] at hs
      refine h.waiting j' c hc key ?_ service hs
      rw [RiskPc.counting, ← hway]
      exact hkey
    | closed hs' hpc h' =>
      cases h' with
      | unrecorded hway _ | recorded hway _ => rw [hway] at hw; cases hw
    | opened hs' hpc h' =>
      rw [Pool.get_set_self hs'] at hs
      cases hs
      cases h' with
      | quiet hbooks hway => rw [hway] at hw; cases hw
      | seen hbooks hearly' => rw [(hearly' w hw).1] at hearly; cases hearly
      | counted hbooks hnew hway hearly' =>
        rw [hway] at hw
        cases hw
        subst hwkey
        have hretries : service.retries = _ := congrArg Tally.counts hbooks
        have hdecisions : service.decisions = _ := congrArg Tally.cached hbooks
        rw [hretries, hdecisions]
        exact ⟨Tally.mem_counts_count, hnew⟩
  · -- another call: its service is not the one that changes
    refine h.waiting j' d hd' key hkey service ?_
    have hother : d.service = c.service → (∃ w, c.pc.way = some w) → False := fun hservice hway =>
      hne (h.alone j' j d c hd' hc hservice ⟨w, hw⟩ hway)
    generalize (c.next p.shared).1 = s' at hs hstep
    generalize (c.next p.shared).2.pc = pc at hstep
    cases hstep with
    | quiet hservices _ => rw [hservices] at hs; exact hs
    | opened hs' hpc _ =>
      rcases Pool.get_set_cases hs with ⟨hservice, -⟩ | ⟨-, hs⟩
      · have hheld : held p c.service = true :=
          held_iff.mpr ⟨d, List.mem_of_getElem? hd', hservice, w, hw⟩
        rw [held_of_not_blocked hfree hc hpc] at hheld
        cases hheld
      · exact hs
    | closed hs' hpc _ =>
      rcases Pool.get_set_cases hs with ⟨hservice, -⟩ | ⟨-, hs⟩
      · exact (hother hservice ⟨_, by rw [hpc]; rfl⟩).elim
      · exact hs

/-- **A step that meets the condition keeps the invariant.** -/
theorem BookInv.step (h : BookInv p) (hG : Pool.OnCall Recorded p j) : BookInv (lockStep p j) := by
  cases hblocked : blocked p j with
  | true =>
    rw [lockStep, hblocked]
    exact h
  | false =>
    rw [lockStep_of_not_blocked hblocked]
    cases hc : p.calls[j]? with
    | none => rw [Pool.step_of_none hc]; exact h
    | some c =>
      have hshared := shared_step hc
      have hnext : { c with pc := (c.next p.shared).2.pc } ∈ (p.step RiskCall.next j).calls := by
        rw [← RiskCall.next_eq]
        exact Pool.next_mem_step RiskCall.next hc
      refine ⟨?_, fun _ _ _ _ h₁ h₂ => h.alone_step hc hblocked h₁ h₂, ?_⟩
      · rw [hshared]
        refine (bookStep_next p.shared c).kept (hG c hc) h.kept ?_ fun k hk => ⟨_, hnext, rfl, hk⟩
        rintro i k ⟨d, hd, hservice, hk⟩ hother
        rcases Pool.mem_step RiskCall.next hc hd with rfl | hd
        · rcases hother with hne | hne
          · exact absurd hservice.symm hne
          · exact absurd hk hne
        · exact ⟨d, hd, hservice, hk⟩
      · rw [hshared]
        exact fun j' d hd key hkey service hs => h.waiting_step hc hblocked hd hkey hs

/-- **No other step leaves the books as they should be**: the counter of an approval that is not recorded has no
decision beside it when the evaluation is over. -/
theorem BookInv.recorded_of_bookkept (h : BookInv p) (hbooks : Bookkept (lockStep p j)) :
    Pool.OnCall Recorded p j := by
  intro c hc
  unfold Recorded
  cases hpc : c.pc with
  | start | find _ | insert _ | fanOut _ _ _ | returned _ | raised _ => trivial
  | finish w persisted recordId =>
    intro hearly service hs hunrecorded
    have hcall : p.calls[j]? = some c := hc
    have hservice : p.shared.services[c.service]? = some service := hs
    have hway : c.pc.way = some w := by rw [hpc]; rfl
    have hconclude : RiskCall.conclude service w persisted recordId =
        (service, .returned (RiskCall.outcome w persisted recordId)) := by
      obtain ⟨happroved, hpersisted, hrepository⟩ := hunrecorded
      simp [RiskCall.conclude, happroved, hpersisted, hrepository]
    have hnext := next_finish hservice hpc hconclude
    rw [lockStep_of_not_blocked (blocked_of_ne_start hcall (by simp [hpc]))] at hbooks
    have hafter : (p.step RiskCall.next j).shared.services[c.service]? = some service := by
      rw [shared_step hcall, hnext]
      exact Pool.get_set_self hservice
    have hfree : held (p.step RiskCall.next j) c.service = false := by
      refine Bool.eq_false_iff.mpr fun hheld => ?_
      obtain ⟨d, hd, hdservice, w', hw'⟩ := held_iff.mp hheld
      obtain ⟨j', hj'⟩ := List.mem_iff_getElem?.mp hd
      rcases calls_step hcall hj' with ⟨-, rfl⟩ | ⟨hne, hj'⟩
      · rw [hnext] at hw'
        cases hw'
      · exact hne (h.alone j' j d c hj' hcall hdservice ⟨w', hw'⟩ ⟨w, hway⟩)
    have hcounting : c.pc.counting = some w.identityKey := RiskPc.counting_eq_some.mpr ⟨w, hway, hearly, rfl⟩
    obtain ⟨hcounted, hnew⟩ := h.waiting j c hcall _ hcounting service hservice
    exact hnew ((hbooks _ _ hafter).cached hfree _ hcounted)

end Step

/-! ### Runs -/

/-- Services that have not evaluated anything, and calls that are still to be made; the table and the repositories may be
what they like. -/
structure Unused (p : RiskSystem) : Prop where
  decisions : ∀ service ∈ p.shared.services, service.decisions = []
  retries : ∀ service ∈ p.shared.services, service.retries = []
  start : ∀ c ∈ p.calls, c.pc = .start

/-- The evaluations of a schedule, under the locks of their services. -/
abbrev lockedSchedule (p : RiskSystem) (l : List ℕ) : RiskSystem := run lockStep p l

theorem bookInv_unused {p : RiskSystem} (h : Unused p) (hcapacity : ∀ service ∈ p.shared.services, 0 ≤ service.capacity) :
    BookInv p := by
  have hway : ∀ {j : ℕ} {c : RiskCall}, p.calls[j]? = some c → c.pc.way = none := fun hc => by
    rw [h.start _ (List.mem_of_getElem? hc)]
    rfl
  refine ⟨fun i service hs => ?_, ?_, ?_⟩
  · have hmem := List.mem_of_getElem? hs
    rw [RiskService.books, h.decisions service hmem, h.retries service hmem]
    exact Tally.kept_empty (hcapacity service hmem)
  · rintro j j' c c' hj - - ⟨w, hw⟩
    rw [hway hj] at hw
    cases hw
  · intro j c hj key hkey
    obtain ⟨w, hw, -⟩ := RiskPc.counting_eq_some.mp hkey
    rw [hway hj] at hw
    cases hw

/-! ### The answers of the database -/

section Answers

variable {s s' : RiskShared} {c d : RiskCall} {pc : RiskPc}

/-- Which services have a repository. -/
def RiskShared.repositories (s : RiskShared) : List Bool := s.services.map RiskService.hasRepository

theorem repositories_get {i : ℕ} {service : RiskService} (hs : s.services[i]? = some service) :
    s.repositories[i]? = some service.hasRepository := by
  rw [RiskShared.repositories, List.getElem?_map, hs]
  rfl

/-- A service keeps its repository. -/
theorem RiskStep.repositories (h : RiskStep s c s' pc) : s'.repositories = s.repositories := by
  have hset : ∀ {service service' : RiskService}, s.services[c.service]? = some service →
      service'.hasRepository = service.hasRepository →
        RiskShared.repositories { s with services := s.services.set c.service service' } = s.repositories := by
    intro service service' hs hrepository
    rw [RiskShared.repositories, List.map_set, hrepository]
    exact Pool.set_of_get (repositories_get hs)
  cases h with
  | began hs _ hspec => exact hset hs hspec.hasRepository
  | concluded hs _ hspec => exact hset hs hspec.hasRepository
  | idle _ | readFailed _ _ | found _ _ | missing _ | inserted _ _ | unanswered _ _ _ | refused _ _ | told _ => rfl

/-- The condition on a step, by what the call has heard of the database. -/
theorem recorded_iff {w : Pending} {persisted : Bool} {recordId : Option UUID} (hpc : c.pc = .finish w persisted recordId) :
    Recorded s c ↔ (w.early = false → w.decision.isApproved = true → s.repositories[c.service]? = some true →
      persisted = true) := by
  unfold Recorded
  rw [hpc]
  refine imp_congr_right fun _ => ?_
  rw [RiskShared.repositories, List.getElem?_map]
  cases s.services[c.service]? with
  | none => simp
  | some service => cases persisted <;> simp [Unrecorded]

theorem recorded_of_ne_finish (h : ∀ w persisted recordId, c.pc ≠ .finish w persisted recordId) : Recorded s c := by
  unfold Recorded
  cases hpc : c.pc with
  | start | find _ | insert _ | fanOut _ _ _ | returned _ | raised _ => trivial
  | finish w persisted recordId => exact absurd hpc (h w persisted recordId)

/-- The other calls. -/
theorem RiskStep.recorded_other (h : RiskStep s c s' pc) : Recorded s' d ↔ Recorded s d := by
  by_cases hfinish : ∃ w persisted recordId, d.pc = .finish w persisted recordId
  · obtain ⟨w, persisted, recordId, hpc⟩ := hfinish
    rw [recorded_iff hpc, recorded_iff hpc, h.repositories]
  · have hne : ∀ w persisted recordId, d.pc ≠ .finish w persisted recordId := fun w persisted recordId hpc =>
      hfinish ⟨w, persisted, recordId, hpc⟩
    exact iff_of_true (recorded_of_ne_finish hne) (recorded_of_ne_finish hne)

/-- Without a repository nothing is to be inserted. -/
theorem recorded_persist {service : RiskService} {w : Pending}
    (hrepository : s.repositories[c.service]? = some service.hasRepository) :
    Recorded s { c with pc := RiskCall.persist service w } := by
  unfold RiskCall.persist
  split_ifs with h
  · trivial
  · refine (recorded_iff rfl).mpr fun _ _ htrue => ?_
    rw [hrepository] at htrue
    exact absurd (Option.some.inj htrue) h

/-- The stepping call: what the database answers for an approval is its insertion. -/
theorem RiskStep.recorded (h : RiskStep s c s' pc) (hG : ApprovalPersists s c) (hc : Recorded s c) :
    Recorded s' { c with pc := pc } := by
  unfold ApprovalPersists at hG
  cases h with
  | idle _ => exact hc
  | @began service service' _ hs hpc hspec =>
    cases hspec.pc with
    | raised _ | replayed _ _ => trivial
    | judged hkey hbound =>
      refine recorded_persist ?_
      rw [(RiskStep.began hs hpc hspec).repositories]
      exact repositories_get hs
  | readFailed hpc hread =>
    rw [hpc] at hG
    refine (recorded_iff rfl).mpr fun _ happroved _ => ?_
    rw [(hG happroved).1] at hread
    cases hread
  | found hpc hfound =>
    rw [hpc] at hG
    refine (recorded_iff rfl).mpr fun _ happroved _ => ?_
    rw [(hG happroved).2] at hfound
    cases hfound
  | missing hpc => trivial
  | inserted hpc hinsert => exact (recorded_iff rfl).mpr fun _ _ _ => rfl
  | unanswered hpc hinsert hlost =>
    rw [hpc] at hG
    exact (recorded_iff rfl).mpr fun _ happroved _ => absurd (hG happroved).1 hlost
  | refused hpc hlost =>
    rw [hpc] at hG
    refine (recorded_iff rfl).mpr fun _ happroved _ => ?_
    obtain ⟨hanswered, hinserted⟩ := hG happroved
    exact hlost.elim (absurd hanswered) (absurd · hinserted)
  | concluded hs hpc hspec => cases hspec.pc <;> trivial
  | told hpc => trivial

end Answers

/-- **Where the database inserts every approval that it is given**, no evaluation ends with one that it did not. -/
theorem recorded_of_persists {p : RiskSystem} (h : Unused p) {l : List ℕ}
    (hG : Along lockStep (Pool.OnCall ApprovalPersists) p l) : Along lockStep (Pool.OnCall Recorded) p l := by
  refine Along.steps (I := fun p => ∀ c ∈ p.calls, Recorded p.shared c) (fun q j hq hGj => ?_)
    (fun q j hq _ c hc => hq c (List.mem_of_getElem? hc)) hG fun c hc => ?_
  · unfold lockStep
    split_ifs
    · exact hq
    · cases hc : q.calls[j]? with
      | none => rw [Pool.step_of_none hc]; exact hq
      | some c =>
        have hstep := riskStep_next q.shared c
        rw [shared_step hc]
        refine Pool.forall_step hc (fun d hd => hstep.recorded_other.mpr (hq d hd)) ?_
        rw [RiskCall.next_eq]
        exact hstep.recorded (hGj c hc) (hq c (List.mem_of_getElem? hc))
  · unfold Recorded
    rw [h.start c hc]
    trivial

section Ends

variable {s s' : RiskShared} {c : RiskCall} {pc : RiskPc} {p : RiskSystem} {j : ℕ}

/-- An approval on its way is a decision of the rules. -/
def FromRules (pc : RiskPc) : Prop := ∀ w, pc.way = some w → w.decision.isApproved = true → w.early = false

/-- What is at the database comes from a service that has a repository. -/
def FromRepository (s : RiskShared) (c : RiskCall) : Prop :=
  match c.pc with
  | .find _ | .insert _ => s.repositories[c.service]? = some true
  | _ => True

theorem BookStep.fromRules (h : BookStep s c s' pc) (hc : FromRules c.pc) : FromRules pc := by
  intro w hw happroved
  cases h with
  | quiet hservices hway => exact hc w (hway ▸ hw) happroved
  | opened hs hpc h =>
    cases h with
    | quiet hbooks hway => rw [hway] at hw; cases hw
    | seen hbooks hearly =>
      rw [(hearly w hw).2] at happroved
      cases happroved
    | counted hbooks hnew hway hearly =>
      rw [hway] at hw
      cases hw
      exact hearly
  | closed hs hpc h =>
    cases h with
    | unrecorded hway _ | recorded hway _ => rw [hway] at hw; cases hw

theorem fromRepository_persist {service : RiskService} {w : Pending}
    (hrepository : s.repositories[c.service]? = some service.hasRepository) :
    FromRepository s { c with pc := RiskCall.persist service w } := by
  unfold RiskCall.persist
  split_ifs with h
  · exact hrepository.trans (congrArg some h)
  · trivial

theorem RiskStep.fromRepository (h : RiskStep s c s' pc) (hc : FromRepository s c) :
    FromRepository s' { c with pc := pc } := by
  unfold FromRepository at hc
  cases h with
  | idle _ => exact hc
  | began hs hpc hspec =>
    cases hspec.pc with
    | raised _ | replayed _ _ => trivial
    | judged hkey hbound =>
      refine fromRepository_persist ?_
      rw [(RiskStep.began hs hpc hspec).repositories]
      exact repositories_get hs
  | missing hpc =>
    rw [hpc] at hc
    exact hc
  | readFailed _ _ | found _ _ | inserted _ _ | unanswered _ _ _ | refused _ _ | told _ => trivial
  | concluded hs hpc hspec => cases hspec.pc <;> trivial

/-- What both say of a system. -/
structure Sourced (p : RiskSystem) : Prop where
  rules : ∀ c ∈ p.calls, FromRules c.pc
  repository : ∀ c ∈ p.calls, FromRepository p.shared c

theorem Sourced.step (h : Sourced p) (j : ℕ) : Sourced (lockStep p j) := by
  unfold lockStep
  split_ifs
  · exact h
  · cases hc : p.calls[j]? with
    | none => rw [Pool.step_of_none hc]; exact h
    | some c =>
      have hstep := riskStep_next p.shared c
      have hmem := List.mem_of_getElem? hc
      refine ⟨Pool.forall_step hc h.rules ((bookStep_next p.shared c).fromRules (h.rules c hmem)), ?_⟩
      rw [shared_step hc]
      refine Pool.forall_step hc (fun d hd => ?_) ?_
      · have hbefore := h.repository d hd
        unfold FromRepository at hbefore ⊢
        rw [hstep.repositories]
        exact hbefore
      · rw [RiskCall.next_eq]
        exact hstep.fromRepository (h.repository c hmem)

/-- The last access of an approval that is not inserted. -/
theorem finish_of_not_persists {service : RiskService} (hs : s.services[c.service]? = some service)
    (hG : ¬ApprovalPersists s c) : ∃ w recordId, c.pc.way = some w ∧ w.decision.isApproved = true ∧
      (c.next s).2.pc = .finish w false recordId := by
  unfold ApprovalPersists at hG
  unfold RiskCall.next
  rw [hs]
  cases hpc : c.pc with
  | start | finish _ _ _ | fanOut _ _ _ | returned _ | raised _ =>
    rw [hpc] at hG
    exact absurd trivial hG
  | find w =>
    rw [hpc] at hG
    obtain ⟨happroved, hanswer⟩ := Classical.not_imp.mp hG
    dsimp only
    split
    · exact ⟨w, none, rfl, happroved, rfl⟩
    · rename_i hread
      split
      · exact ⟨w, _, rfl, happroved, rfl⟩
      · rename_i hnone
        exact absurd ⟨Bool.eq_false_iff.mpr hread, hnone⟩ hanswer
  | insert w =>
    rw [hpc] at hG
    obtain ⟨happroved, hanswer⟩ := Classical.not_imp.mp hG
    refine ⟨w, none, rfl, happroved, ?_⟩
    dsimp only
    rcases Commit.apply_cases c.env.insertion s.events (insertEvent s.events (c.event w)) with
      ⟨hanswered, events, hinsert, -⟩ | heq | ⟨events, -, heq⟩
    · exact absurd ⟨hanswered, by rw [hinsert]; exact Option.some_ne_none _⟩ hanswer
    · rw [heq]
      rfl
    · rw [heq]
      rfl

/-- A step at which an approval is not inserted leaves its call to end with it. -/
theorem Sourced.not_recorded (h : Sourced p) {c : RiskCall} (hc : p.calls[j]? = some c)
    (hG : ¬ApprovalPersists p.shared c) : ∃ c', (lockStep p j).calls[j]? = some c' ∧
      ¬Recorded (lockStep p j).shared c' ∧ ∃ w, c'.pc.way = some w := by
  have hmem := List.mem_of_getElem? hc
  have hrepository : p.shared.repositories[c.service]? = some true := by
    have hfrom := h.repository c hmem
    unfold FromRepository at hfrom
    unfold ApprovalPersists at hG
    cases hpc : c.pc with
    | find w | insert w => rw [hpc] at hfrom; exact hfrom
    | start | finish _ _ _ | fanOut _ _ _ | returned _ | raised _ =>
      rw [hpc] at hG
      exact absurd trivial hG
  obtain ⟨service, hs⟩ : ∃ service, p.shared.services[c.service]? = some service := by
    rw [RiskShared.repositories, List.getElem?_map, Option.map_eq_some_iff] at hrepository
    obtain ⟨service, hs, -⟩ := hrepository
    exact ⟨service, hs⟩
  obtain ⟨w, recordId, hway, happroved, hpc⟩ := finish_of_not_persists hs hG
  have hne : c.pc ≠ .start := fun hstart => by rw [hstart] at hway; cases hway
  rw [lockStep_of_not_blocked (blocked_of_ne_start hc hne)]
  refine ⟨(c.next p.shared).2, ?_, fun hrecorded => ?_, w, by rw [hpc]; rfl⟩
  · rw [Pool.step_of_some hc]
    exact Pool.get_set_self hc
  · have hearly : w.early = false := h.rules c hmem w hway happroved
    have hrepository' : (p.step RiskCall.next j).shared.repositories[(c.next p.shared).2.service]? = some true := by
      rw [shared_step hc, (riskStep_next p.shared c).repositories, RiskCall.next_eq]
      exact hrepository
    cases (recorded_iff hpc).mp hrecorded hearly happroved hrepository'

/-- A call that would end so stays where it is in a run that meets the condition. -/
theorem stays_of_not_recorded {l : List ℕ} : ∀ {p : RiskSystem}, Along lockStep (Pool.OnCall Recorded) p l →
    p.calls[j]? = some c → ¬Recorded p.shared c → (lockedSchedule p l).calls[j]? = some c := by
  induction l with
  | nil => exact fun _ hc _ => hc
  | cons i l ih =>
    rintro p ⟨hi, hl⟩ hc hnot
    have hij : i ≠ j := fun hij => hnot (hi c (hij ▸ hc))
    have hkept : (lockStep p i).calls[j]? = some c ∧ ¬Recorded (lockStep p i).shared c := by
      unfold lockStep
      split_ifs
      · exact ⟨hc, hnot⟩
      · cases hd : p.calls[i]? with
        | none => rw [Pool.step_of_none hd]; exact ⟨hc, hnot⟩
        | some d =>
          rw [shared_step hd, (riskStep_next p.shared d).recorded_other, Pool.step_of_some hd]
          exact ⟨(List.getElem?_set_ne hij).trans hc, hnot⟩
    exact ih hl hkept.1 hkept.2

end Ends

/-- **In a run that comes to its end these are the answers of the database**: no evaluation ends with an approval that
was not inserted only where the database inserts every approval that it is given. -/
theorem persists_of_recorded {p : RiskSystem} (h : Unused p) {l : List ℕ}
    (hend : ∀ c ∈ (lockedSchedule p l).calls, c.pc.way = none)
    (hG : Along lockStep (Pool.OnCall Recorded) p l) : Along lockStep (Pool.OnCall ApprovalPersists) p l := by
  have hstart : Sourced p := by
    refine ⟨fun c hc w hw => ?_, fun c hc => ?_⟩
    · rw [h.start c hc] at hw
      cases hw
    · unfold FromRepository
      rw [h.start c hc]
      trivial
  refine along_of_prefix fun l' j hl c hc => ?_
  by_contra hnot
  obtain ⟨rest, rfl⟩ := hl
  have hsourced : Sourced (lockedSchedule p l') := run_invariant lockStep Sourced (fun _ j hq => hq.step j) hstart l'
  obtain ⟨c', hc', hnot', w, hw⟩ := hsourced.not_recorded hc hnot
  have hrest := ((along_append lockStep _ p (l' ++ [j]) rest).mp hG).2
  rw [run_concat] at hrest
  have hstays := stays_of_not_recorded hrest hc' hnot'
  have hfinal : lockedSchedule (lockStep (lockedSchedule p l') j) rest = lockedSchedule p (l' ++ [j] ++ rest) := by
    rw [lockedSchedule, lockedSchedule, lockedSchedule, run_append, run_concat]
  rw [hfinal] at hstays
  rw [hend c' (List.mem_of_getElem? hstays)] at hw
  cases hw

/-! ### Calls that do not wait -/

/-- With one call for each service the locks rule nothing out. -/
theorem not_blocked_of_nodup {p : RiskSystem} (h : (p.calls.map RiskCall.service).Nodup) (j : ℕ) :
    blocked p j = false := by
  refine Bool.eq_false_iff.mpr fun hblocked => ?_
  cases hc : p.calls[j]? with
  | none => simp [blocked, hc] at hblocked
  | some c =>
    have hstart : c.pc = .start := by
      by_contra hne
      rw [blocked_of_ne_start hc hne] at hblocked
      cases hblocked
    have hheld : held p c.service = true := by
      simpa [blocked, hc, hstart, RiskPc.isStart] using hblocked
    obtain ⟨d, hd, hservice, w, hw⟩ := held_iff.mp hheld
    have hsame : d = c := List.inj_on_of_nodup_map h hd (List.mem_of_getElem? hc) hservice
    rw [hsame, hstart] at hw
    cases hw

theorem services_step (p : RiskSystem) (j : ℕ) :
    (p.step RiskCall.next j).calls.map RiskCall.service = p.calls.map RiskCall.service := by
  cases hc : p.calls[j]? with
  | none => rw [Pool.step_of_none hc]
  | some c =>
    rw [Pool.step_of_some hc, RiskCall.next_eq, List.map_set]
    exact Pool.set_of_get (by rw [List.getElem?_map, hc]; rfl)

theorem along_lockStep {G : RiskSystem → ℕ → Prop} {l : List ℕ} : ∀ {p : RiskSystem},
    (p.calls.map RiskCall.service).Nodup → Along (Pool.step RiskCall.next) G p l → Along lockStep G p l := by
  induction l with
  | nil => exact fun _ _ => trivial
  | cons j l ih =>
    rintro p hp ⟨hj, hl⟩
    have hsame := lockStep_of_not_blocked (not_blocked_of_nodup hp j)
    refine ⟨hj, ?_⟩
    rw [hsame]
    exact ih (by rw [services_step]; exact hp) hl

theorem lockStep_single {s s' : RiskShared} {c c' : RiskCall} (h : c.next s = (s', c')) :
    lockStep ⟨s, [c]⟩ 0 = ⟨s', [c']⟩ := by
  have hservices : (Pool.calls (⟨s, [c]⟩ : RiskSystem)).map RiskCall.service = [c.service] := rfl
  have hnodup : ((Pool.calls (⟨s, [c]⟩ : RiskSystem)).map RiskCall.service).Nodup := by
    rw [hservices]
    exact List.nodup_singleton _
  rw [lockStep_of_not_blocked (not_blocked_of_nodup hnodup 0), Pool.step_of_some (c := c) rfl, h]
  rfl

/-! ### The books -/

/-- **The books are as they should be in every state of a run** exactly when no capacity is negative and no evaluation
ends with an approval that the repository of its service did not insert. -/
theorem bookkept_iff {p : RiskSystem} (h : Unused p) (l : List ℕ) :
    (∀ l', l' <+: l → Bookkept (lockedSchedule p l')) ↔
      (∀ service ∈ p.shared.services, 0 ≤ service.capacity) ∧ Along lockStep (Pool.OnCall Recorded) p l := by
  have hexact (hcapacity : ∀ service ∈ p.shared.services, 0 ≤ service.capacity) :
      (∀ l', l' <+: l → Bookkept (lockedSchedule p l')) ↔ Along lockStep (Pool.OnCall Recorded) p l :=
    prefixes_iff_along (fun _ _ hq hG => hq.step hG) (fun _ hq => hq.bookkept) (fun _ _ hq => hq.recorded_of_bookkept)
      (bookInv_unused h hcapacity) l
  constructor
  · intro hbooks
    have hcapacity : ∀ service ∈ p.shared.services, 0 ≤ service.capacity := by
      intro service hmem
      obtain ⟨i, hi⟩ := List.mem_iff_getElem?.mp hmem
      have hwithin := (hbooks [] (List.nil_prefix) i service hi).within
      rw [h.decisions service hmem] at hwithin
      exact hwithin
    exact ⟨hcapacity, (hexact hcapacity).mp hbooks⟩
  · rintro ⟨hcapacity, hG⟩
    exact (hexact hcapacity).mpr hG

theorem unused_sample : Unused samplePair where
  decisions := by simp [samplePair, sampleShared, sampleService]
  retries := by simp [samplePair, sampleShared, sampleService]
  start := fresh_sample.start

/-- An evaluation whose approval is inserted, up to its end. -/
theorem bookkept_iff_sample :
    Unused samplePair ∧ ∀ l', l' <+: [0, 0, 0, 0, 0] → Bookkept (lockedSchedule samplePair l') := by
  obtain ⟨d, service, events, -, -, -, hguard, -⟩ := run_sample [sampleCall 1 10]
  have hcapacity : ∀ service ∈ samplePair.shared.services, 0 ≤ service.capacity := by
    simp [samplePair, sampleShared, sampleService]
  have hservices : (samplePair.calls.map RiskCall.service).Nodup := by
    simp [samplePair, sampleCall]
  exact ⟨unused_sample, (bookkept_iff unused_sample _).mpr ⟨hcapacity,
    recorded_of_persists unused_sample (along_lockStep hservices hguard)⟩⟩

/-- The evaluation of the sample on a day on which the database cannot be read. -/
def sampleUnread : RiskCall := { sampleCall 0 0 with env := { sampleEval 0 with readFails := true } }

def sampleUnreadDay : RiskSystem := ⟨⟨[sampleService], Table.empty, []⟩, [sampleUnread]⟩

/-- An approval that cannot be stored leaves its counter behind. -/
theorem not_bookkept_unread : ¬∀ p, Unused p → (∀ service ∈ p.shared.services, 0 ≤ service.capacity) →
    ∀ l, Bookkept (lockedSchedule p l) := by
  intro h
  obtain ⟨service, d, hbegin, -, -, hrepository, hd⟩ := begin_sampleCall 0 0
  have hunused : Unused sampleUnreadDay := by
    constructor <;> simp [sampleUnreadDay, sampleService, sampleUnread, sampleCall]
  have hcapacity : ∀ service ∈ sampleUnreadDay.shared.services, 0 ≤ service.capacity := by
    simp [sampleUnreadDay, sampleService]
  have h1 : lockStep sampleUnreadDay 0 =
      ⟨⟨[service], Table.empty, []⟩, [{ sampleUnread with pc := .find (sampleWay d) }]⟩ :=
    lockStep_single (next_start rfl rfl hbegin)
  have h2 : lockStep ⟨⟨[service], Table.empty, []⟩, [{ sampleUnread with pc := .find (sampleWay d) }]⟩ 0 =
      ⟨⟨[service], Table.empty, []⟩, [{ sampleUnread with pc := .finish (sampleWay d) false none }]⟩ :=
    lockStep_single rfl
  -- up to the answer of the database nothing is amiss
  have hstart := (bookInv_unused hunused hcapacity).step (j := 0) fun c hc => by cases hc; trivial
  rw [h1] at hstart
  have hread := hstart.step (j := 0) fun c hc => by cases hc; trivial
  rw [h2] at hread
  have hbooks := h sampleUnreadDay hunused hcapacity [0, 0, 0]
  rw [lockedSchedule, run_cons, h1, run_cons, h2, run_cons, run_nil] at hbooks
  exact hread.recorded_of_bookkept hbooks _ rfl rfl service rfl ⟨hd.isApproved, rfl, hrepository⟩

/-- In the middle of an evaluation too: a key of the retry counters is remembered, or it is the key of the evaluation. -/
theorem retries_remembered {p : RiskSystem} (h : Unused p)
    (hcapacity : ∀ service ∈ p.shared.services, 0 ≤ service.capacity) {l : List ℕ}
    (hG : Along lockStep (Pool.OnCall Recorded) p l) {i : ℕ} {service : RiskService}
    (hs : (lockedSchedule p l).shared.services[i]? = some service) (hkey : key ∈ service.retries.map Prod.fst) :
    key ∈ service.decisions.map Prod.fst ∨ Counting (lockedSchedule p l) i key :=
  ((Along.invariant (fun _ _ hq hGj => BookInv.step hq hGj) hG (bookInv_unused h hcapacity)).kept i service hs).counted
    key hkey

end AlphaAlgo.Risk
