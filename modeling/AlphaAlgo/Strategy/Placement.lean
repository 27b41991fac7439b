import AlphaAlgo.Strategy.Dispatch

/-!
# Placement — where a dispatch stands

The place of a dispatch fixes what it holds: nothing before the submission, then futures of its own, of which the loop
has yielded some, and after the loop a rest that is still to be looked at.

* `Placed`, `Orderly`: where a dispatch stands, whose its futures are, what is counted; kept by every step.
-/

namespace AlphaAlgo.Strategy

/-! ### Where a dispatch stands -/

def Resume.ready : Resume → List ℕ
  | collect ready => ready
  | sweep _ => []

def Resume.left : Resume → Option (List ℕ)
  | collect _ => none
  | sweep rest => some rest

namespace DispatchPc

/-- The futures are not submitted. -/
def early : DispatchPc → Bool
  | matching _ => true
  | submitting => true
  | _ => false

/-- The future that is looked at. -/
def current : DispatchPc → Option ℕ
  | checking f _ _ => some f
  | failing f _ _ => some f
  | recording f _ => some f
  | cancelling f _ => some f
  | _ => none

/-- The futures that `as_completed` has ready. -/
def ready : DispatchPc → List ℕ
  | collecting ready => ready
  | checking _ _ resume => resume.ready
  | failing _ _ resume => resume.ready
  | recording _ resume => resume.ready
  | _ => []

/-- The futures to be looked at after the loop, once it has ended. -/
def left : DispatchPc → Option (List ℕ)
  | checking _ _ resume => resume.left
  | failing _ _ resume => resume.left
  | recording _ resume => resume.left
  | sweeping rest => some rest
  | cancelling _ rest => some rest
  | returned => some []
  | raised _ => some []
  | _ => none

end DispatchPc

/-- A callback counts its event where it fails the instance. -/
theorem StrategyFuture.counted_next {fut : StrategyFuture} {free : Bool} {h : Hosted} {m : StrategyMetrics}
    {outcome : CallbackOutcome} (hcounted : (fut.next free h m outcome).1.counted = true) :
    fut.counted = true ∨ (fut.next free h m outcome).2.1.inst.state.terminal = true := by
  obtain ⟨owner, target, timestamp, pc, begun, counted⟩ := fut
  revert hcounted
  cases pc with
  | pending => unfold next; dsimp only; split_ifs <;> exact .inl
  | waiting => unfold next; dsimp only; split_ifs <;> exact .inl
  | entered => unfold next; dsimp only; split_ifs <;> exact .inl
  | calling before => unfold next; cases outcome.raises <;> exact .inl
  | raisedIn reason => unfold next; dsimp only; split_ifs <;> exact .inl
  | failing reason =>
    unfold next
    cases ht : h.inst.state.terminal with
    | true =>
      obtain ⟨e, he⟩ := Hosted.failNow_of_terminal ht m reason
      simp only [he]
      exact .inl
    | false =>
      simp only [Hosted.failNow_of_not_terminal ht]
      exact fun _ => .inr rfl
  | accepting before => exact .inl
  | returning result => exact .inl
  | cancelled => exact .inl
  | done result => exact .inl

namespace DispatchSystem

/-! ### What every step keeps -/

section Invariants

variable (s : DispatchSystem)

def TerminalAt (i : ℕ) : Prop := ∃ h, s.hosted[i]? = some h ∧ h.inst.state.terminal = true

/-- The instances of a dispatch exist, and its futures are its own. -/
structure Placed (d : ℕ) (disp : EventDispatch) : Prop where
  found : ∀ i ∈ disp.found, ∃ h, s.hosted[i]? = some h
  early : disp.pc.early = true → disp.futures = [] ∧ disp.accepted = []
  owned : ∀ f ∈ disp.futures, ∃ fut h, s.futures[f]? = some fut ∧ fut.owner = d ∧ s.hosted[fut.target]? = some h
  nodup : disp.futures.Nodup
  accepted : ∀ p ∈ disp.accepted, p.1 ∈ disp.futures
  unyielded : ∀ f ∈ disp.unyielded, f ∈ disp.futures
  current : ∀ f, disp.pc.current = some f → f ∈ disp.futures
  ready : ∀ f ∈ disp.pc.ready, f ∈ disp.unyielded
  left : ∀ rest, disp.pc.left = some rest → ∀ f ∈ rest, f ∈ disp.futures
  recorded : ∀ f resume, disp.pc = .recording f resume → ∃ fut, s.futures[f]? = some fut ∧ s.TerminalAt fut.target

structure Orderly : Prop where
  placed : ∀ (d : ℕ) (disp : EventDispatch), s.dispatches[d]? = some disp → s.Placed d disp
  counted : ∀ (f : ℕ) (fut : StrategyFuture), s.futures[f]? = some fut → fut.counted = true → s.TerminalAt fut.target
  handed : ∀ δ ∈ s.handed, δ.future < s.futures.length

end Invariants

variable {s s' : DispatchSystem} {d : ℕ} {disp : EventDispatch} {now : DateTime}

theorem Later.terminalAt (h : s.Later s') {i : ℕ} : s.TerminalAt i → s'.TerminalAt i := by
  rintro ⟨host, hget, ht⟩
  obtain ⟨host', hget', hlater⟩ := h.hosted i host hget
  exact ⟨host', hget', hlater.terminal ht⟩

/-- Steps of others leave a dispatch in its place. -/
theorem Placed.later (hp : s.Placed d disp) (h : s.Later s') : s'.Placed d disp := by
  refine { hp with found := ?_, owned := ?_, recorded := ?_ }
  · intro i hi
    obtain ⟨host, hget⟩ := hp.found i hi
    obtain ⟨host', hget', -⟩ := h.hosted i host hget
    exact ⟨host', hget'⟩
  · intro f hf
    obtain ⟨fut, host, hfut, howner, hhost⟩ := hp.owned f hf
    obtain ⟨fut', hfut', hlater⟩ := h.futures f fut hfut
    obtain ⟨host', hhost', -⟩ := h.hosted _ host hhost
    exact ⟨fut', host', hfut', hlater.owner.trans howner, hlater.target ▸ hhost'⟩
  · intro f resume hpc
    obtain ⟨fut, hfut, ht⟩ := hp.recorded f resume hpc
    obtain ⟨fut', hfut', hlater⟩ := h.futures f fut hfut
    exact ⟨fut', hfut', hlater.target ▸ h.terminalAt ht⟩

/-- A dispatch goes to another place. -/
theorem Placed.goto (hp : s.Placed d disp) (pc : DispatchPc)
    (hdispatches : s'.dispatches = s.dispatches.set d { disp with pc := pc }) (hlater : s.Later s')
    (hearly : pc.early = true → disp.pc.early = true)
    (hcurrent : ∀ f, pc.current = some f → f ∈ disp.futures) (hready : ∀ f ∈ pc.ready, f ∈ disp.unyielded)
    (hleft : ∀ rest, pc.left = some rest → ∀ f ∈ rest, f ∈ disp.futures)
    (hrecorded : ∀ f resume, pc = .recording f resume → ∃ fut, s'.futures[f]? = some fut ∧ s'.TerminalAt fut.target) :
    s' = s ∨ ∃ disp', s'.dispatches = s.dispatches.set d disp' ∧ s'.Placed d disp' :=
  have hp' := hp.later hlater
  .inr ⟨_, hdispatches, { hp' with
    early := fun h => hp.early (hearly h)
    current := hcurrent
    ready := hready
    left := hleft
    recorded := hrecorded }⟩

/-- A dispatch that has submitted nothing. -/
theorem Placed.of_empty (hfound : ∀ i ∈ disp.found, ∃ h, s.hosted[i]? = some h) (hfutures : disp.futures = [])
    (haccepted : disp.accepted = []) (hunyielded : disp.unyielded = []) (hcurrent : disp.pc.current = none)
    (hready : disp.pc.ready = []) (hleft : ∀ rest, disp.pc.left = some rest → rest = [])
    (hrecorded : ∀ f resume, disp.pc ≠ .recording f resume) : s.Placed d disp where
  found := hfound
  early := fun _ => ⟨hfutures, haccepted⟩
  owned := by simp [hfutures]
  nodup := by simp [hfutures]
  accepted := by simp [haccepted]
  unyielded := by simp [hunyielded]
  current := by simp [hcurrent]
  ready := by simp [hready]
  left := by
    intro rest hrest
    rw [hleft rest hrest]
    simp
  recorded := fun f resume hpc => absurd hpc (hrecorded f resume)

theorem Placed.unyielded_of_early (hp : s.Placed d disp) (hearly : disp.pc.early = true) : disp.unyielded = [] := by
  refine List.eq_nil_iff_forall_not_mem.mpr fun f hf => ?_
  have hmem := hp.unyielded f hf
  rw [(hp.early hearly).1] at hmem
  cases hmem

/-- The futures that a dispatch submits, one for each instance that it found. -/
def submitted (s : DispatchSystem) (d : ℕ) (disp : EventDispatch) : List StrategyFuture :=
  s.futures ++ disp.found.map fun i => { owner := d, target := i, timestamp := disp.event.timestamp }

theorem paired_submitted (s : DispatchSystem) (d : ℕ) (disp : EventDispatch) :
    List.Forall₂ (fun i f => (s.submitted d disp)[f]? =
      some { owner := d, target := i, timestamp := disp.event.timestamp })
      disp.found (List.range' s.futures.length disp.found.length) := by
  rw [List.forall₂_iff_get]
  refine ⟨by simp, fun j hj _ => ?_⟩
  simp only [List.get_eq_getElem, List.getElem_range', one_mul]
  rw [submitted, List.getElem?_append_right (Nat.le_add_right _ _), Nat.add_sub_cancel_left, List.getElem?_map,
    List.getElem?_eq_getElem hj]
  rfl

/-- A submitted future, with the instance that it is for. -/
theorem exists_submitted {f : ℕ} (hf : f ∈ List.range' s.futures.length disp.found.length) :
    ∃ i ∈ disp.found, (s.submitted d disp)[f]? =
      some { owner := d, target := i, timestamp := disp.event.timestamp } := by
  obtain ⟨hlength, hget⟩ := List.forall₂_iff_get.mp (s.paired_submitted d disp)
  obtain ⟨j, hj, rfl⟩ := List.mem_iff_getElem.mp hf
  exact ⟨disp.found.get ⟨j, hlength ▸ hj⟩, List.getElem_mem _, hget j (hlength ▸ hj) hj⟩

/-- A step before the futures are submitted. -/
theorem Placed.looks (hp : s.Placed d disp) (hearly : disp.pc.early = true) {found : List ℕ}
    (hfound : ∀ i ∈ found, ∃ h, s.hosted[i]? = some h) (pc : DispatchPc)
    (hdispatches : s'.dispatches = s.dispatches.set d { disp with pc := pc, found := found })
    (hhosted : s'.hosted = s.hosted) (hcurrent : pc.current = none) (hready : pc.ready = [])
    (hleft : ∀ rest, pc.left = some rest → rest = []) (hrecorded : ∀ f resume, pc ≠ .recording f resume) :
    s' = s ∨ ∃ disp', s'.dispatches = s.dispatches.set d disp' ∧ s'.Placed d disp' :=
  .inr ⟨_, hdispatches, .of_empty (hhosted ▸ hfound) (hp.early hearly).1 (hp.early hearly).2
    (hp.unyielded_of_early hearly) hcurrent hready hleft hrecorded⟩

/-- The instances that are found exist, with the one that is looked at. -/
theorem Placed.found_looks (hp : s.Placed d disp) {i : ℕ} (hi : i < s.hosted.length) :
    ∀ j ∈ (if s.matchesAt disp.event i then disp.found ++ [i] else disp.found), ∃ h, s.hosted[j]? = some h := by
  intro j hj
  split_ifs at hj
  · obtain hj | hj := List.mem_append.mp hj
    · exact hp.found j hj
    · cases List.mem_singleton.mp hj
      exact ⟨_, List.getElem?_eq_getElem hi⟩
  · exact hp.found j hj

/-- The submission of the futures. -/
theorem Placed.submits (hp : s.Placed d disp) (hearly : disp.pc.early = true) (hhosted : s'.hosted = s.hosted)
    (hfutures : s'.futures = s.submitted d disp) :
    s'.Placed d { disp with
      pc := .opening
      futures := List.range' s.futures.length disp.found.length
      unyielded := List.range' s.futures.length disp.found.length } where
  found := by
    rw [hhosted]
    exact hp.found
  early := nofun
  owned := by
    intro f hf
    obtain ⟨i, hi, hget⟩ := exists_submitted (d := d) hf
    obtain ⟨h, hh⟩ := hp.found i hi
    exact ⟨_, h, hfutures ▸ hget, rfl, hhosted ▸ hh⟩
  nodup := List.nodup_range'
  accepted := by simp [(hp.early hearly).2]
  unyielded := fun _ hf => hf
  current := nofun
  ready := nofun
  left := nofun
  recorded := nofun

section Collecting

variable {ready : List ℕ} {f : ℕ}

theorem Placed.mem_unyielded (hp : s.Placed d disp) (hpc : disp.pc = .collecting ready) {g : ℕ} (hg : g ∈ ready) :
    g ∈ disp.unyielded :=
  hp.ready g (by rw [hpc]; exact hg)

/-- What is ready is not yielded, also after `f` is. -/
theorem Placed.ready_yields (hp : s.Placed d disp) (hpc : disp.pc = .collecting ready) :
    ∀ g ∈ ready.filter (· ≠ f), g ∈ disp.unyielded.filter (· ≠ f) := by
  intro g hg
  obtain ⟨hg, hne⟩ := List.mem_filter.mp hg
  exact List.mem_filter.mpr ⟨hp.mem_unyielded hpc hg, hne⟩

/-- The loop takes the signals of a future. -/
theorem Placed.collects (hp : s.Placed d disp) (hlater : s.Later s') (hpc : disp.pc = .collecting ready)
    (hf : f ∈ ready) (signals : List EnrichedSignal) :
    s'.Placed d { disp with
      pc := .collecting (ready.filter (· ≠ f))
      unyielded := disp.unyielded.filter (· ≠ f)
      accepted := disp.accepted ++ signals.map (f, ·) } :=
  { hp.later hlater with
    early := nofun
    accepted := by
      intro p hmem
      obtain hmem | hmem := List.mem_append.mp hmem
      · exact hp.accepted p hmem
      · obtain ⟨signal, -, rfl⟩ := List.mem_map.mp hmem
        exact hp.unyielded f (hp.mem_unyielded hpc hf)
    unyielded := fun g hg => hp.unyielded g (List.mem_of_mem_filter hg)
    current := nofun
    ready := hp.ready_yields hpc
    left := nofun
    recorded := nofun }

/-- The loop takes a future that was refused. -/
theorem Placed.takes (hp : s.Placed d disp) (hlater : s.Later s') (hpc : disp.pc = .collecting ready)
    (hf : f ∈ ready) (text : String) :
    s'.Placed d { disp with
      pc := .checking f text (.collect (ready.filter (· ≠ f)))
      unyielded := disp.unyielded.filter (· ≠ f) } :=
  { hp.later hlater with
    early := nofun
    unyielded := fun g hg => hp.unyielded g (List.mem_of_mem_filter hg)
    current := by
      intro g hg
      cases hg
      exact hp.unyielded f (hp.mem_unyielded hpc hf)
    ready := hp.ready_yields hpc
    left := nofun
    recorded := nofun }

end Collecting

/-- A step on one future: what is ready and what is left stay. -/
theorem Placed.deals (hp : s.Placed d disp) (pc : DispatchPc)
    (hdispatches : s'.dispatches = s.dispatches.set d { disp with pc := pc }) (hlater : s.Later s')
    (hearly : pc.early = false) (hcurrent : ∀ f, pc.current = some f → disp.pc.current = some f)
    (hready : pc.ready = disp.pc.ready) (hleft : pc.left = disp.pc.left)
    (hrecorded : ∀ f resume, pc = .recording f resume → ∃ fut, s'.futures[f]? = some fut ∧ s'.TerminalAt fut.target) :
    s' = s ∨ ∃ disp', s'.dispatches = s.dispatches.set d disp' ∧ s'.Placed d disp' :=
  hp.goto pc hdispatches hlater (fun h => absurd h (by simp [hearly])) (fun f h => hp.current f (hcurrent f h))
    (fun f h => hp.ready f (hready ▸ h)) (fun rest h => hp.left rest (hleft ▸ h)) hrecorded

/-- A step of the sweep. -/
theorem Placed.sweeps (hp : s.Placed d disp) {l : List ℕ} (hpc : disp.pc = .sweeping l) (pc : DispatchPc)
    (hdispatches : s'.dispatches = s.dispatches.set d { disp with pc := pc }) (hlater : s.Later s')
    (hearly : pc.early = false) (hcurrent : ∀ f, pc.current = some f → f ∈ l) (hready : pc.ready = [])
    (hleft : ∀ rest, pc.left = some rest → ∀ f ∈ rest, f ∈ l) (hrecorded : ∀ f resume, pc ≠ .recording f resume) :
    s' = s ∨ ∃ disp', s'.dispatches = s.dispatches.set d disp' ∧ s'.Placed d disp' := by
  have hl : ∀ f ∈ l, f ∈ disp.futures := hp.left l (by rw [hpc]; rfl)
  refine hp.goto pc hdispatches hlater (fun h => absurd h (by simp [hearly])) (fun f h => hl f (hcurrent f h)) ?_
    (fun rest h f hf => hl f (hleft rest h f hf)) fun f resume h => absurd h (hrecorded f resume)
  simp [hready]

/-- The dispatch after its own step, in its place. -/
theorem Placed.dispatch (hp : s.Placed d disp) (hlater : s.Later s') (hstep : DispatchStep s d disp now s') :
    s' = s ∨ ∃ disp', s'.dispatches = s.dispatches.set d disp' ∧ s'.Placed d disp' := by
  cases hstep with
  | stays => exact .inl rfl
  | looks hpc hi => exact hp.looks (by rw [hpc]; rfl) (hp.found_looks hi) (.matching _) rfl rfl rfl rfl nofun nofun
  | looked hpc => exact hp.looks (by rw [hpc]; rfl) hp.found .submitting rfl rfl rfl rfl nofun nofun
  | nothing hpc =>
    exact hp.looks (by rw [hpc]; rfl) hp.found .returned rfl rfl rfl rfl (fun _ h => (Option.some.inj h).symm) nofun
  | naive hpc =>
    exact hp.looks (by rw [hpc]; rfl) hp.found (.raised _) rfl rfl rfl rfl (fun _ h => (Option.some.inj h).symm) nofun
  | submits hpc => exact .inr ⟨_, rfl, hp.submits (by rw [hpc]; rfl) rfl rfl⟩
  | waits =>
    exact hp.goto (.collecting (s.completed disp.unyielded)) rfl hlater nofun nofun
      (fun f hf => List.mem_of_mem_filter hf) nofun nofun
  | collects hpc hf => exact .inr ⟨_, rfl, hp.collects hlater hpc hf _⟩
  | takes hpc hf => exact .inr ⟨_, rfl, hp.takes hlater hpc hf _⟩
  | leaves =>
    refine hp.goto (.sweeping disp.futures) rfl hlater nofun nofun nofun ?_ nofun
    intro rest hrest f hf
    cases hrest
    exact hf
  | excuses hpc hfut hh hterminal =>
    refine hp.deals (.recording _ _) rfl hlater rfl (by rw [hpc]; exact fun _ h => h) (by rw [hpc]; rfl)
      (by rw [hpc]; rfl) ?_
    intro g resume heq
    cases heq
    exact ⟨_, hfut, _, hh, hterminal⟩
  | accuses hpc =>
    exact hp.deals (.failing _ _ _) rfl hlater rfl (by rw [hpc]; exact fun _ h => h) (by rw [hpc]; rfl)
      (by rw [hpc]; rfl) nofun
  | raises hpc hfut hh hterminal text =>
    refine hp.goto (.raised text) rfl hlater nofun nofun nofun ?_ nofun
    intro rest hrest f hf
    cases hrest
    cases hf
  | fails hpc hfut hh =>
    refine hp.deals (.recording _ _) rfl hlater rfl (by rw [hpc]; exact fun _ h => h) (by rw [hpc]; rfl)
      (by rw [hpc]; rfl) ?_
    intro g resume heq
    cases heq
    exact ⟨_, hfut, _, Pool.get_set_self hh, rfl⟩
  | @records f resume fut h hpc =>
    refine hp.deals resume.pc rfl hlater ?_ ?_ ?_ ?_ ?_
    · cases resume <;> rfl
    · cases resume <;> nofun
    · rw [hpc]
      cases resume <;> rfl
    · rw [hpc]
      cases resume <;> rfl
    · cases resume <;> nofun
  | returns hpc =>
    refine hp.sweeps hpc .returned rfl hlater rfl nofun rfl ?_ nofun
    rintro _ ⟨⟩ f hf
    exact hf
  | skips hpc =>
    refine hp.sweeps hpc (.sweeping _) rfl hlater rfl nofun rfl ?_ nofun
    rintro _ ⟨⟩ g hg
    exact List.mem_cons_of_mem _ hg
  | passes hpc =>
    refine hp.sweeps hpc (.sweeping _) rfl hlater rfl nofun rfl ?_ nofun
    rintro _ ⟨⟩ g hg
    exact List.mem_cons_of_mem _ hg
  | expires hpc =>
    refine hp.sweeps hpc (.cancelling _ _) rfl hlater rfl ?_ rfl ?_ nofun
    · rintro g ⟨⟩
      exact List.mem_cons_self
    · rintro _ ⟨⟩ g hg
      exact List.mem_cons_of_mem _ hg
  | cancels hpc =>
    exact hp.deals (.checking _ "callback_timeout" (.sweep _)) rfl hlater rfl (by rw [hpc]; exact fun _ h => h)
      (by rw [hpc]; rfl) (by rw [hpc]; rfl) nofun

theorem Orderly.counted_dispatch (ho : s.Orderly) (hp : s.Placed d disp) (hlater : s.Later s')
    (hstep : DispatchStep s d disp now s') (f : ℕ) (fut : StrategyFuture) (hget : s'.futures[f]? = some fut)
    (hcounted : fut.counted = true) : s'.TerminalAt fut.target := by
  refine hlater.terminalAt ?_
  cases hstep with
  | submits =>
    obtain hlt | hle := Nat.lt_or_ge f s.futures.length
    · exact ho.counted f fut ((List.getElem?_append_left hlt).symm.trans hget) hcounted
    · rw [List.getElem?_append_right hle, List.getElem?_map, Option.map_eq_some_iff] at hget
      obtain ⟨i, -, rfl⟩ := hget
      cases hcounted
  | records hpc hfut =>
    obtain ⟨rfl, rfl⟩ | ⟨-, hget⟩ := Pool.get_set_cases hget
    · obtain ⟨fut', hfut', ht⟩ := hp.recorded _ _ hpc
      cases hfut.symm.trans hfut'
      exact ht
    · exact ho.counted f fut hget hcounted
  | @cancels g rest fut₀ hpc hfut =>
    obtain ⟨rfl, rfl⟩ | ⟨-, hget⟩ := Pool.get_set_cases hget
    · rw [fut₀.later_cancel.target]
      exact ho.counted _ _ hfut (fut₀.counted_cancel ▸ hcounted)
    · exact ho.counted f fut hget hcounted
  | _ => exact ho.counted f fut hget hcounted

theorem Orderly.handed_dispatch (ho : s.Orderly) (hstep : DispatchStep s d disp now s') :
    ∀ δ ∈ s'.handed, δ.future < s'.futures.length := by
  cases hstep with
  | submits =>
    intro δ hδ
    exact (ho.handed δ hδ).trans_le (by simp)
  | collects hpc hf hfut =>
    intro δ hδ
    obtain hδ | hδ := List.mem_append.mp hδ
    · exact ho.handed δ hδ
    · obtain ⟨signal, -, hδ⟩ := List.mem_flatMap.mp hδ
      obtain ⟨c, -, rfl⟩ := List.mem_map.mp hδ
      exact (List.getElem?_eq_some_iff.mp hfut).1
  | records => simpa using ho.handed
  | cancels => simpa using ho.handed
  | _ => exact ho.handed

theorem Orderly.step (ho : s.Orderly) (a : DispatchAction) : (s.step a).Orderly := by
  have hlater := s.later_step a
  obtain heq | ⟨d, choice, now, disp, -, hdisp, hstep⟩ | ⟨f, outcome, fut, h, -, hfut, hh, heq⟩ |
    ⟨c, outcome, now, call, h, -, hc, hh, heq⟩ := s.step_cases a
  · rwa [heq]
  · have hp := ho.placed d disp hdisp
    refine ⟨?_, ho.counted_dispatch hp hlater hstep, ho.handed_dispatch hstep⟩
    intro d' disp' hget
    obtain heq | ⟨new, heq, hnew⟩ := hp.dispatch hlater hstep
    · rw [heq] at hget ⊢
      exact ho.placed d' disp' hget
    · rw [heq] at hget
      obtain ⟨rfl, rfl⟩ | ⟨-, hget⟩ := Pool.get_set_cases hget
      · exact hnew
      · exact (ho.placed d' disp' hget).later hlater
  · refine ⟨?_, ?_, ?_⟩
    · intro d' disp' hget
      rw [heq] at hget
      exact (ho.placed d' disp' hget).later hlater
    · intro g fut' hget hcounted
      rw [heq] at hget
      obtain ⟨rfl, rfl⟩ | ⟨-, hget⟩ := Pool.get_set_cases hget
      · rw [(fut.later_next _ h _ outcome).target]
        obtain hold | ht := StrategyFuture.counted_next hcounted
        · exact hlater.terminalAt (ho.counted _ _ hfut hold)
        · rw [heq]
          exact ⟨_, Pool.get_set_self hh, ht⟩
      · exact hlater.terminalAt (ho.counted g fut' hget hcounted)
    · rw [heq]
      simpa using ho.handed
  · refine ⟨?_, ?_, ?_⟩
    · intro d' disp' hget
      rw [heq] at hget
      exact (ho.placed d' disp' hget).later hlater
    · intro g fut' hget hcounted
      rw [heq] at hget
      exact hlater.terminalAt (ho.counted g fut' hget hcounted)
    · rw [heq]
      exact ho.handed

end DispatchSystem

end AlphaAlgo.Strategy
