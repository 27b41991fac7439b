import AlphaAlgo.Strategy.Placement

/-!
# Outcomes — what becomes of the instances of a dispatch

Each instance that a dispatch has matched is to end in one of two ways: its accepted signals are returned and handed to
each consumer once, or it is terminal and its event is counted.  A future that completes between the timeout and the
look at it is in neither; and `mark_failed` raises where the instance becomes terminal between its two steps.

* `Sound`: what is known of each future of a dispatch; kept by the steps that meet `Untroubled`.
* `concluded_of_untroubled`: the outcome of a dispatch whose own steps meet `Untroubled`.
-/

namespace AlphaAlgo.Strategy

open Runs
open Signal (StrategySignal)

/-! ### Futures -/

/-- Future `f` is still to be dealt with. -/
def DispatchPc.Open (pc : DispatchPc) (unyielded : List ℕ) (f : ℕ) : Prop :=
  pc.current = some f ∨ (f ∈ unyielded ∧ ∀ rest, pc.left = some rest → f ∈ rest)

/-- The signals of a future that the dispatch returns. -/
def EventDispatch.returned (disp : EventDispatch) (f : ℕ) : List EnrichedSignal :=
  (disp.accepted.filter fun p => p.1 = f).map Prod.snd

/-- The event was counted only by the callback, which has no signals then. -/
def StrategyFuture.Clean (fut : StrategyFuture) : Prop :=
  fut.counted = true → fut.pc = .returning (.signals []) ∨ fut.pc = .done (.signals [])

def FuturePc.silent : FuturePc → Bool
  | done (.signals []) => true
  | _ => false

/-- What only the callback has counted stays so, and without signals. -/
theorem StrategyFuture.Clean.next {fut : StrategyFuture} (hclean : fut.Clean) (free : Bool) (h : Hosted)
    (m : StrategyMetrics) (outcome : CallbackOutcome) : (fut.next free h m outcome).1.Clean := by
  obtain ⟨owner, target, timestamp, pc, begun, counted⟩ := fut
  cases counted with
  | true =>
    obtain hpc | hpc := hclean rfl
    · cases hpc
      exact fun _ => .inr rfl
    · cases hpc
      exact fun _ => .inr rfl
  | false =>
    cases pc with
    | pending => unfold StrategyFuture.next; dsimp only; split_ifs <;> nofun
    | waiting => unfold StrategyFuture.next; dsimp only; split_ifs <;> nofun
    | entered => unfold StrategyFuture.next; dsimp only; split_ifs <;> nofun
    | calling before => unfold StrategyFuture.next; cases outcome.raises <;> nofun
    | raisedIn reason => unfold StrategyFuture.next; dsimp only; split_ifs <;> nofun
    | failing reason =>
      unfold StrategyFuture.next
      dsimp only
      cases h.failNow m reason with
      | error e => nofun
      | ok r => exact fun _ => .inl rfl
    | accepting before => nofun
    | returning result => nofun
    | cancelled => nofun
    | done result => nofun

theorem StrategyFuture.next_of_done {fut : StrategyFuture} (hdone : fut.pc.isDone = true) {free : Bool} {h : Hosted}
    {m : StrategyMetrics} {outcome : CallbackOutcome} : (fut.next free h m outcome).1 = fut := by
  obtain ⟨owner, target, timestamp, pc, begun, counted⟩ := fut
  cases pc with
  | cancelled => rfl
  | done result => rfl
  | _ => cases hdone

namespace DispatchSystem

section Statement

variable (s : DispatchSystem)

/-- The signals of a future that were handed to a consumer. -/
def handedTo (c f : ℕ) : List EnrichedSignal :=
  (s.handed.filter fun δ => δ.consumer = c && δ.future = f).map Delivery.signal

/-- What becomes of a future whose signals are returned: its event is counted for a terminal instance and nothing is
returned or handed over, or its accepted signals are returned and handed to each consumer once. -/
def Settled (returned : List EnrichedSignal) (f : ℕ) : Prop :=
  ∃ fut h, s.futures[f]? = some fut ∧ s.hosted[fut.target]? = some h ∧
    ((fut.counted = true ∧ h.inst.state.terminal = true ∧ returned = [] ∧ ∀ c, s.handedTo c f = []) ∨
      (fut.counted = false ∧ ∃ signals, fut.pc = .done (.signals signals) ∧
        returned.map EnrichedSignal.signal = signals ∧ ∀ c < s.consumers, s.handedTo c f = returned))

/-- The outcome of dispatch `d`: it does not raise, and where it has returned there is one future of its own for each
instance that it had matched, each of them settled, and it returns nothing else. -/
structure Concluded (d : ℕ) (disp : EventDispatch) : Prop where
  calm : ∀ text, disp.pc ≠ .raised text
  nodup : disp.futures.Nodup
  accepted : ∀ p ∈ disp.accepted, p.1 ∈ disp.futures
  settled : disp.pc = .returned → List.Forall₂ (fun i f =>
    (∃ fut, s.futures[f]? = some fut ∧ fut.owner = d ∧ fut.target = i) ∧ s.Settled (disp.returned f) f)
    disp.found disp.futures

/-- What goes wrong at no step of dispatch `d`: the clock is naive at a submission; the instance becomes terminal inside
`mark_failed`; a future completes with something to collect between the timeout and the look at it. -/
def Untroubled (d : ℕ) (s : DispatchSystem) : DispatchAction → Bool
  | .dispatch d' _ now =>
    d' ≠ d || (s.dispatches[d]?).all fun disp => match disp.pc with
      | .submitting => disp.found = [] || now.aware
      | .failing f _ _ => (s.targetOf f).all fun (_, h) => !h.inst.state.terminal
      | .sweeping (f :: _) =>
        (s.futures[f]?).all fun fut => f ∉ disp.unyielded || !fut.pc.isDone || fut.pc.silent
      | _ => true
  | _ => true

end Statement

variable {s s' : DispatchSystem} {d : ℕ} {disp : EventDispatch} {now : DateTime}

/-! ### What others leave of a dispatch -/

/-- A step that leaves the futures of `P`: one that is done stays, and none of their signals are handed over. -/
structure Quiet (P : ℕ → Prop) (s s' : DispatchSystem) : Prop where
  later : s.Later s'
  consumers : s'.consumers = s.consumers
  futures : ∀ f, P f → ∀ fut, s.futures[f]? = some fut →
    ∃ fut', s'.futures[f]? = some fut' ∧ (fut.pc.isDone = true → fut' = fut) ∧ (fut.Clean → fut'.Clean)
  handed : ∀ f, P f → ∀ c, s'.handedTo c f = s.handedTo c f

theorem handedTo_fanOut_of_ne (s : DispatchSystem) {f g : ℕ} (hne : f ≠ g) (signals : List EnrichedSignal) (c : ℕ) :
    ((s.fanOut f signals).filter fun δ => δ.consumer = c && δ.future = g).map Delivery.signal = [] := by
  rw [List.filter_eq_nil_iff.mpr, List.map_nil]
  intro δ hδ
  obtain ⟨signal, -, hδ⟩ := List.mem_flatMap.mp hδ
  obtain ⟨c', -, rfl⟩ := List.mem_map.mp hδ
  simp [hne]

/-- Each consumer is handed the signals of a future once. -/
theorem handedTo_fanOut_self (s : DispatchSystem) (f : ℕ) {c : ℕ} (hc : c < s.consumers) :
    ∀ signals : List EnrichedSignal,
      ((s.fanOut f signals).filter fun δ => δ.consumer = c && δ.future = f).map Delivery.signal = signals
  | [] => rfl
  | signal :: signals => by
    have hfilter : (List.range s.consumers).filter (· = c) = [c] := by
      rw [List.filter_eq, List.nodup_range.count, if_pos (List.mem_range.mpr hc)]
      rfl
    have hone : ((List.range s.consumers).map fun c' => (⟨c', f, signal⟩ : Delivery)).filter
        (fun δ => δ.consumer = c && δ.future = f) = [⟨c, f, signal⟩] := by
      rw [List.filter_map]
      simp [Function.comp_def, hfilter]
    rw [fanOut, List.flatMap_cons, List.filter_append, List.map_append, hone]
    exact congrArg (signal :: ·) (s.handedTo_fanOut_self f hc signals)

section Quiet

variable {P Q : ℕ → Prop}

theorem Quiet.mono (hq : Quiet P s s') (hPQ : ∀ f, Q f → P f) : Quiet Q s s' :=
  { hq with
    futures := fun f hf => hq.futures f (hPQ f hf)
    handed := fun f hf => hq.handed f (hPQ f hf) }

theorem handedTo_eq (hh : s'.handed = s.handed) (c f : ℕ) : s'.handedTo c f = s.handedTo c f := by
  rw [handedTo, handedTo, hh]

theorem quiet_of_eq (hlater : s.Later s') (hf : s'.futures = s.futures) (hh : s'.handed = s.handed)
    (hc : s'.consumers = s.consumers) : Quiet P s s' :=
  ⟨hlater, hc, fun _ _ fut hget => ⟨fut, hf ▸ hget, fun _ => rfl, id⟩, fun f _ c => handedTo_eq hh c f⟩

/-- One future changes. -/
theorem quiet_of_set {g : ℕ} {fut fut' : StrategyFuture} (hlater : s.Later s') (hfut : s.futures[g]? = some fut)
    (hf : s'.futures = s.futures.set g fut') (hkeep : P g → (fut.pc.isDone = true → fut' = fut) ∧ (fut.Clean → fut'.Clean))
    (hh : s'.handed = s.handed) (hc : s'.consumers = s.consumers) : Quiet P s s' := by
  refine ⟨hlater, hc, ?_, fun f _ c => handedTo_eq hh c f⟩
  intro f hP fut₀ hget
  rw [hf]
  by_cases hfg : f = g
  · subst hfg
    cases hfut.symm.trans hget
    exact ⟨fut', Pool.get_set_self hfut, hkeep hP⟩
  · exact ⟨fut₀, (List.getElem?_set_ne (Ne.symm hfg)).trans hget, fun _ => rfl, id⟩

/-- A worker leaves the futures that are done. -/
theorem quiet_work {f : ℕ} {fut : StrategyFuture} {h : Hosted} {outcome : CallbackOutcome}
    (hlater : s.Later s') (hfut : s.futures[f]? = some fut) (heq : s' = { s with
      metrics := (fut.next (s.freeFor f) h s.metrics outcome).2.2
      futures := s.futures.set f (fut.next (s.freeFor f) h s.metrics outcome).1
      hosted := s.hosted.set fut.target (fut.next (s.freeFor f) h s.metrics outcome).2.1 }) : Quiet P s s' := by
  refine quiet_of_set hlater hfut (by rw [heq]) (fun _ => ⟨fun hdone => ?_, fun hclean => hclean.next _ _ _ _⟩)
    (by rw [heq]) (by rw [heq])
  exact StrategyFuture.next_of_done hdone

theorem quiet_cancel {g : ℕ} {fut : StrategyFuture} (hlater : s.Later s') (hfut : s.futures[g]? = some fut)
    (hf : s'.futures = s.futures.set g fut.cancel) (hh : s'.handed = s.handed) (hc : s'.consumers = s.consumers) :
    Quiet P s s' := by
  refine quiet_of_set hlater hfut hf (fun _ => ?_) hh hc
  cases hpc : fut.pc with
  | pending =>
    refine ⟨nofun, fun hclean hcounted => ?_⟩
    rw [fut.counted_cancel] at hcounted
    have hold := hclean hcounted
    rw [hpc] at hold
    obtain hold | hold := hold <;> cases hold
  | _ =>
    have hsame : fut.cancel = fut := by rw [StrategyFuture.cancel, hpc]
    exact ⟨fun _ => hsame, fun hclean => hsame.symm ▸ hclean⟩

/-- The futures of other dispatches, in a step of a dispatch. -/
theorem quiet_dispatch (hp : s.Placed d disp) (hlater : s.Later s') (hstep : DispatchStep s d disp now s') :
    Quiet (fun f => f ∉ disp.futures) s s' := by
  cases hstep with
  | submits =>
    refine ⟨hlater, rfl, fun f _ fut hget => ⟨fut, ?_, fun _ => rfl, id⟩, fun _ _ _ => rfl⟩
    exact (List.getElem?_append_left (List.getElem?_eq_some_iff.mp hget).1).trans hget
  | @collects ready f fut h signals hpc hf hfut hdone hh =>
    refine ⟨hlater, rfl, fun _ _ fut hget => ⟨fut, hget, fun _ => rfl, id⟩, fun g hg c => ?_⟩
    have hmem : f ∈ disp.futures := hp.unyielded f (hp.ready f (by rw [hpc]; exact hf))
    have hne : f ≠ g := fun heq => hg (heq ▸ hmem)
    rw [handedTo, collect, List.filter_append, List.map_append, s.handedTo_fanOut_of_ne hne, List.append_nil]
    rfl
  | @records f resume fut h hpc hfut hh =>
    exact quiet_of_set hlater hfut rfl (fun hf => absurd (hp.current f (by rw [hpc]; rfl)) hf) rfl rfl
  | cancels hpc hfut => exact quiet_cancel hlater hfut rfl rfl rfl
  | _ => exact quiet_of_eq hlater rfl rfl rfl

end Quiet

/-! ### What is known of the futures of a dispatch -/

/-- Nothing of the future is returned or handed over. -/
def Untouched (s : DispatchSystem) (disp : EventDispatch) (f : ℕ) : Prop :=
  disp.returned f = [] ∧ ∀ c, s.handedTo c f = []

/-- Each future of a dispatch is settled or still to be dealt with. -/
structure Sound (s : DispatchSystem) (disp : EventDispatch) : Prop where
  calm : ∀ text, disp.pc ≠ .raised text
  paired : disp.pc.early = false →
    List.Forall₂ (fun i f => ∃ fut, s.futures[f]? = some fut ∧ fut.target = i) disp.found disp.futures
  untouched : ∀ f, f ∈ disp.unyielded ∨ disp.pc.current = some f → s.Untouched disp f
  clean : disp.pc.left = none → ∀ f ∈ disp.unyielded,
    disp.pc.current ≠ some f ∧ ∀ fut, s.futures[f]? = some fut → fut.Clean
  settled : ∀ f ∈ disp.futures, disp.pc.Open disp.unyielded f ∨ s.Settled (disp.returned f) f

theorem Settled.quiet {P : ℕ → Prop} (hq : Quiet P s s') {f : ℕ} (hf : P f) {returned : List EnrichedSignal} :
    s.Settled returned f → s'.Settled returned f := by
  rintro ⟨fut, h, hfut, hh, hway⟩
  obtain ⟨h', hh', hlater⟩ := hq.later.hosted _ h hh
  obtain ⟨fut', hfut', hdone, -⟩ := hq.futures f hf fut hfut
  obtain ⟨fut₀, hfut₀, hflater⟩ := hq.later.futures f fut hfut
  cases hfut'.symm.trans hfut₀
  refine ⟨fut', h', hfut', hflater.target ▸ hh', ?_⟩
  obtain ⟨hcounted, ht, hreturned, hhanded⟩ | ⟨hcounted, signals, hpc, hreturned, hhanded⟩ := hway
  · refine .inl ⟨hflater.counted hcounted, hlater.terminal ht, hreturned, fun c => ?_⟩
    rw [hq.handed f hf, hhanded c]
  · have hsame : fut' = fut := hdone (by rw [hpc]; rfl)
    refine .inr ⟨hsame ▸ hcounted, signals, hsame ▸ hpc, hreturned, fun c hc => ?_⟩
    rw [hq.handed f hf]
    exact hhanded c (hq.consumers ▸ hc)

/-- Steps of others change nothing of what is known. -/
theorem Sound.quiet (hs : s.Sound disp) (hp : s.Placed d disp) (hq : Quiet (fun f => f ∈ disp.futures) s s') :
    s'.Sound disp where
  calm := hs.calm
  paired := fun hearly => (hs.paired hearly).imp fun i f ⟨fut, hfut, htarget⟩ =>
    have ⟨fut', hfut', hlater⟩ := hq.later.futures f fut hfut
    ⟨fut', hfut', hlater.target.trans htarget⟩
  untouched := by
    intro f hf
    have hmem : f ∈ disp.futures := hf.elim (hp.unyielded f) (hp.current f)
    obtain ⟨hreturned, hhanded⟩ := hs.untouched f hf
    exact ⟨hreturned, fun c => (hq.handed f hmem c).trans (hhanded c)⟩
  clean := by
    intro hleft f hf
    obtain ⟨hcurrent, hclean⟩ := hs.clean hleft f hf
    refine ⟨hcurrent, fun fut' hfut' => ?_⟩
    obtain ⟨fut, -, hfut, -, -⟩ := hp.owned f (hp.unyielded f hf)
    obtain ⟨fut₀, hfut₀, -, hkeep⟩ := hq.futures f (hp.unyielded f hf) fut hfut
    cases hfut'.symm.trans hfut₀
    exact hkeep (hclean fut hfut)
  settled := fun f hf => (hs.settled f hf).imp_right (Settled.quiet hq hf)

/-- A dispatch goes to another place. -/
theorem Sound.goto (hs : s.Sound disp) (pc : DispatchPc) (hold : disp.pc.early = false) (hcalm : ∀ text, pc ≠ .raised text)
    (hcurrent : ∀ f, pc.current = some f → s.Untouched disp f)
    (hleft : pc.left = none → disp.pc.left = none ∧ ∀ f ∈ disp.unyielded, pc.current ≠ some f)
    (hsettled : ∀ f ∈ disp.futures, disp.pc.Open disp.unyielded f →
      pc.Open disp.unyielded f ∨ s.Settled (disp.returned f) f) : s.Sound { disp with pc := pc } where
  calm := hcalm
  paired := fun _ => hs.paired hold
  untouched := fun f hf => hf.elim (fun hf => hs.untouched f (.inl hf)) (hcurrent f)
  clean := fun hnone f hf => ⟨(hleft hnone).2 f hf, (hs.clean (hleft hnone).1 f hf).2⟩
  settled := fun f hf => (hs.settled f hf).elim (hsettled f hf) .inr

/-- A dispatch goes on with the future that it looks at. -/
theorem Sound.goOn (hs : s.Sound disp) (pc : DispatchPc) (hold : disp.pc.early = false)
    (hcalm : ∀ text, pc ≠ .raised text) (hcurrent : pc.current = disp.pc.current) (hleft : pc.left = disp.pc.left) :
    s.Sound { disp with pc := pc } := by
  refine hs.goto pc hold hcalm ?_ ?_ ?_
  · intro f hf
    exact hs.untouched f (.inr (hcurrent ▸ hf))
  · intro hnone
    exact ⟨hleft ▸ hnone, fun f hf => hcurrent ▸ (hs.clean (hleft ▸ hnone) f hf).1⟩
  · intro f _ hopen
    refine .inl ?_
    rwa [DispatchPc.Open, hcurrent, hleft]

/-- A dispatch without futures. -/
theorem Sound.of_empty (hcalm : ∀ text, disp.pc ≠ .raised text) (hpaired : disp.pc.early = false → disp.found = [])
    (hfutures : disp.futures = []) (hunyielded : disp.unyielded = []) (hcurrent : disp.pc.current = none) :
    s.Sound disp where
  calm := hcalm
  paired := by
    intro hearly
    rw [hpaired hearly, hfutures]
    exact .nil
  untouched := by simp [hunyielded, hcurrent]
  clean := by simp [hunyielded]
  settled := by simp [hfutures]

/-! ### The steps of the dispatch itself -/

theorem Sound.submits (hp : s.Placed d disp) (hpc : disp.pc = .submitting) (hhanded : ∀ δ ∈ s.handed, δ.future < s.futures.length)
    (hfutures : s'.futures = s.submitted d disp) (hsame : s'.handed = s.handed) :
    s'.Sound { disp with
      pc := .opening
      futures := List.range' s.futures.length disp.found.length
      unyielded := List.range' s.futures.length disp.found.length } := by
  have haccepted : disp.accepted = [] := (hp.early (by rw [hpc]; rfl)).2
  refine ⟨nofun, fun _ => ?_, ?_, ?_, fun f hf => .inl (.inr ⟨hf, nofun⟩)⟩
  · exact (s.paired_submitted d disp).imp fun i f hget => ⟨_, hfutures ▸ hget, rfl⟩
  · rintro f (hf | hf)
    · refine ⟨by simp [EventDispatch.returned, haccepted], fun c => ?_⟩
      rw [handedTo_eq hsame, handedTo, List.filter_eq_nil_iff.mpr, List.map_nil]
      intro δ hδ
      have hlt := hhanded δ hδ
      have hle := (List.mem_range'_1.mp hf).1
      simp only [Bool.and_eq_true, decide_eq_true_eq, not_and]
      omega
    · cases hf
  · intro _ f hf
    refine ⟨nofun, fun fut hget => ?_⟩
    obtain ⟨i, -, hget'⟩ := exists_submitted (d := d) hf
    rw [hfutures, hget'] at hget
    cases hget
    nofun

/-- What is returned of a future after the signals of `f` were taken. -/
theorem returned_append (disp : EventDispatch) (f g : ℕ) (signals : List EnrichedSignal) {pc : DispatchPc}
    {unyielded : List ℕ} :
    EventDispatch.returned { disp with
      pc := pc, unyielded := unyielded, accepted := disp.accepted ++ signals.map fun signal => (f, signal) } g =
      disp.returned g ++ if f = g then signals else [] := by
  rw [EventDispatch.returned, List.filter_append, List.map_append, EventDispatch.returned]
  congr 1
  rw [List.filter_map, List.map_map]
  by_cases h : f = g
  · simp [Function.comp_def, h]
  · simp [Function.comp_def, h]

theorem Sound.collects (hs : s.Sound disp) (ho : s.Orderly) (hp : s.Placed d disp) {ready : List ℕ} {f : ℕ}
    {fut : StrategyFuture} {h : Hosted} {signals : List StrategySignal} (hpc : disp.pc = .collecting ready) (hf : f ∈ ready)
    (hfut : s.futures[f]? = some fut) (hdone : fut.pc = .done (.signals signals))
    (hh : s.hosted[fut.target]? = some h) (hlater : s.Later (s.collect d disp f fut.target h ready signals now)) :
    (s.collect d disp f fut.target h ready signals now).Sound { disp with
      pc := .collecting (ready.filter (· ≠ f))
      unyielded := disp.unyielded.filter (· ≠ f)
      accepted := disp.accepted ++ (signals.map (h.enrich disp.event.timestamp)).map fun signal => (f, signal) } := by
  have hmem : f ∈ disp.unyielded := hp.ready f (by rw [hpc]; exact hf)
  have hleft : disp.pc.left = none := by rw [hpc]; rfl
  obtain ⟨hreturned, hhanded⟩ := hs.untouched f (.inl hmem)
  have hothers : ∀ g, f ≠ g → ∀ c,
      (s.collect d disp f fut.target h ready signals now).handedTo c g = s.handedTo c g := by
    intro g hne c
    rw [handedTo, collect, List.filter_append, List.map_append, s.handedTo_fanOut_of_ne hne, List.append_nil]
    rfl
  have hquiet : Quiet (fun g => f ≠ g) s (s.collect d disp f fut.target h ready signals now) :=
    ⟨hlater, rfl, fun _ _ fut hget => ⟨fut, hget, fun _ => rfl, id⟩, hothers⟩
  refine ⟨nofun, fun _ => ?_, ?_, ?_, ?_⟩
  · exact hs.paired (by rw [hpc]; rfl)
  · rintro g (hg | hg)
    · obtain ⟨hg, hne⟩ := List.mem_filter.mp hg
      have hne : f ≠ g := fun heq => by simp [heq] at hne
      obtain ⟨hreturned, hhanded⟩ := hs.untouched g (.inl hg)
      refine ⟨?_, fun c => (hothers g hne c).trans (hhanded c)⟩
      rw [returned_append, if_neg hne, List.append_nil, hreturned]
    · cases hg
  · intro _ g hg
    exact ⟨nofun, (hs.clean hleft g (List.mem_of_mem_filter hg)).2⟩
  · intro g hg
    rw [returned_append]
    by_cases hfg : f = g
    · subst hfg
      rw [if_pos rfl, hreturned, List.nil_append]
      obtain ⟨h', hh', -⟩ := hlater.hosted _ h hh
      refine .inr ⟨fut, h', hfut, hh', ?_⟩
      cases hcounted : fut.counted with
      | true =>
        -- The callback raised: it has accepted nothing, and the instance is terminal.
        have hempty : signals = [] := by
          obtain hret | hret := (hs.clean hleft f hmem).2 fut hfut hcounted
          · rw [hdone] at hret
            cases hret
          · rw [hdone] at hret
            cases hret
            rfl
        subst hempty
        obtain ⟨h₀, hh₀, ht⟩ := hlater.terminalAt (ho.counted f fut hfut hcounted)
        cases hh'.symm.trans hh₀
        refine .inl ⟨rfl, ht, rfl, fun c => ?_⟩
        rw [handedTo, collect]
        exact (List.append_nil s.handed).symm ▸ hhanded c
      | false =>
        refine .inr ⟨rfl, signals, hdone, ?_, fun c hc => ?_⟩
        · rw [List.map_map]
          exact List.map_id signals
        · rw [handedTo, collect, List.filter_append, List.map_append, s.handedTo_fanOut_self f hc]
          exact congrArg (· ++ _) (hhanded c)
    · rw [if_neg hfg, List.append_nil]
      refine (hs.settled g hg).imp ?_ (Settled.quiet hquiet hfg)
      rintro (hcurrent | ⟨hmem, -⟩)
      · rw [hpc] at hcurrent
        cases hcurrent
      · exact .inr ⟨List.mem_filter.mpr ⟨hmem, by simpa using Ne.symm hfg⟩, nofun⟩

theorem Sound.takes (hs : s.Sound disp) (hp : s.Placed d disp) {ready : List ℕ} {f : ℕ} (text : String)
    (hpc : disp.pc = .collecting ready) (hf : f ∈ ready) : s.Sound { disp with
      pc := .checking f text (.collect (ready.filter (· ≠ f)))
      unyielded := disp.unyielded.filter (· ≠ f) } := by
  have hmem : f ∈ disp.unyielded := hp.ready f (by rw [hpc]; exact hf)
  refine ⟨nofun, fun _ => hs.paired (by rw [hpc]; rfl), ?_, ?_, ?_⟩
  · rintro g (hg | hg)
    · exact hs.untouched g (.inl (List.mem_of_mem_filter hg))
    · cases hg
      exact hs.untouched f (.inl hmem)
  · intro _ g hg
    obtain ⟨hg, hne⟩ := List.mem_filter.mp hg
    refine ⟨fun hcurrent => ?_, (hs.clean (by rw [hpc]; rfl) g hg).2⟩
    cases hcurrent
    simp at hne
  · intro g hg
    refine (hs.settled g hg).imp_left ?_
    rintro (hcurrent | ⟨hg, -⟩)
    · rw [hpc] at hcurrent
      cases hcurrent
    · by_cases hfg : g = f
      · exact .inl (by rw [hfg]; rfl)
      · exact .inr ⟨List.mem_filter.mpr ⟨hg, by simpa using hfg⟩, nofun⟩

theorem Sound.records (hs : s.Sound disp) (hp : s.Placed d disp) {f : ℕ} {resume : Resume} {fut : StrategyFuture}
    (hpc : disp.pc = .recording f resume) (hfut : s.futures[f]? = some fut) (hlater : s.Later s')
    (hfutures : s'.futures = s.futures.set f { fut with counted := true }) (hhanded : s'.handed = s.handed)
    (hconsumers : s'.consumers = s.consumers) : s'.Sound { disp with pc := resume.pc } := by
  have hold : disp.pc.current = some f := by rw [hpc]; rfl
  have hcurrent : resume.pc.current = none := by cases resume <;> rfl
  have hleft : resume.pc.left = disp.pc.left := by rw [hpc]; cases resume <;> rfl
  have hquiet : Quiet (fun g => g ≠ f) s s' :=
    quiet_of_set hlater hfut hfutures (fun hne => absurd rfl hne) hhanded hconsumers
  obtain ⟨hreturned, hgiven⟩ := hs.untouched f (.inr hold)
  refine ⟨?_, fun _ => ?_, ?_, ?_, ?_⟩
  · cases resume <;> nofun
  · refine (hs.paired (by rw [hpc]; rfl)).imp fun i g hget => ?_
    obtain ⟨fut₀, hfut₀, htarget⟩ := hget
    obtain ⟨fut', hfut', hflater⟩ := hlater.futures g fut₀ hfut₀
    exact ⟨fut', hfut', hflater.target.trans htarget⟩
  · rintro g (hg | hg)
    · obtain ⟨hreturned, hgiven⟩ := hs.untouched g (.inl hg)
      exact ⟨hreturned, fun c => (handedTo_eq hhanded c g).trans (hgiven c)⟩
    · rw [hcurrent] at hg
      cases hg
  · intro hnone g hg
    obtain ⟨hne, hclean⟩ := hs.clean (hleft ▸ hnone) g hg
    refine ⟨fun h => ?_, fun fut' hget => hclean fut' ?_⟩
    · rw [hcurrent] at h
      cases h
    · rw [hfutures, List.getElem?_set_ne fun heq : f = g => hne (heq ▸ hold)] at hget
      exact hget
  · intro g hg
    by_cases hgf : g = f
    · subst hgf
      obtain ⟨fut₀, hfut₀, hterminal⟩ := hp.recorded g resume hpc
      cases hfut.symm.trans hfut₀
      obtain ⟨h', hh', ht⟩ := hlater.terminalAt hterminal
      refine .inr ⟨{ fut with counted := true }, h', ?_, hh', .inl ⟨rfl, ht, hreturned, fun c => ?_⟩⟩
      · rw [hfutures]
        exact Pool.get_set_self hfut
      · exact (handedTo_eq hhanded c g).trans (hgiven c)
    · refine (hs.settled g hg).imp ?_ (Settled.quiet hquiet hgf)
      rintro (h | ⟨hmem, hrest⟩)
      · exact absurd (Option.some.inj (h.symm.trans hold)) hgf
      · exact .inr ⟨hmem, fun rest h => hrest rest (hleft ▸ h)⟩

/-- A future that is not done at the look after the loop is untouched. -/
theorem Sound.untouched_of_not_done (hs : s.Sound disp) {f : ℕ} {fut : StrategyFuture} (hf : f ∈ disp.futures)
    (hcurrent : disp.pc.current = none) (hfut : s.futures[f]? = some fut) (hdone : fut.pc.isDone = false) :
    s.Untouched disp f := by
  obtain (h | ⟨hmem, -⟩) | ⟨fut₀, h, hfut₀, -, hway⟩ := hs.settled f hf
  · rw [hcurrent] at h
    cases h
  · exact hs.untouched f (.inl hmem)
  · cases hfut.symm.trans hfut₀
    obtain ⟨-, -, hreturned, hhanded⟩ | ⟨-, signals, hpc, -⟩ := hway
    · exact ⟨hreturned, hhanded⟩
    · rw [hpc] at hdone
      cases hdone

/-- A future that is done at the look after the loop: it was given before, or it has no signals. -/
theorem Sound.settled_of_done (hs : s.Sound disp) (ho : s.Orderly) (hp : s.Placed d disp) {f : ℕ} {fut : StrategyFuture}
    (hf : f ∈ disp.futures) (hcurrent : disp.pc.current = none) (hfut : s.futures[f]? = some fut)
    (hsilent : f ∈ disp.unyielded → fut.pc = .done (.signals [])) : s.Settled (disp.returned f) f := by
  obtain (h | ⟨hmem, -⟩) | hsettled := hs.settled f hf
  · rw [hcurrent] at h
    cases h
  · obtain ⟨hreturned, hhanded⟩ := hs.untouched f (.inl hmem)
    obtain ⟨fut₀, h, hfut₀, -, hh⟩ := hp.owned f hf
    cases hfut.symm.trans hfut₀
    refine ⟨fut, h, hfut, hh, ?_⟩
    cases hcounted : fut.counted with
    | true =>
      obtain ⟨h', hh', ht⟩ := ho.counted f fut hfut hcounted
      cases hh.symm.trans hh'
      exact .inl ⟨rfl, ht, hreturned, hhanded⟩
    | false =>
      refine .inr ⟨rfl, [], hsilent hmem, by rw [hreturned]; rfl, fun c _ => ?_⟩
      rw [hreturned]
      exact hhanded c
  · exact hsettled

theorem Untroubled.dispatch {choice : Collecting} (hguard : s.Untroubled d (.dispatch d choice now) = true)
    (hdisp : s.dispatches[d]? = some disp) :
    (disp.pc = .submitting → disp.found ≠ [] → now.aware = true) ∧
    (∀ f reason resume fut h, disp.pc = .failing f reason resume → s.futures[f]? = some fut →
      s.hosted[fut.target]? = some h → h.inst.state.terminal = false) ∧
    (∀ f rest fut, disp.pc = .sweeping (f :: rest) → s.futures[f]? = some fut → fut.pc.isDone = true →
      f ∈ disp.unyielded → fut.pc = .done (.signals [])) := by
  simp only [Untroubled, ne_eq, not_true_eq_false, decide_false, Bool.false_or, hdisp, Option.all_some] at hguard
  refine ⟨?_, ?_, ?_⟩
  · intro hpc hfound
    simpa [hpc, hfound] using hguard
  · intro f reason resume fut h hpc hfut hh
    simpa [hpc, targetOf_eq_some.mpr ⟨hfut, hh⟩] using hguard
  · intro f rest fut hpc hfut hdone hmem
    have hsilent : fut.pc.silent = true := by simpa [hpc, hfut, hdone, hmem] using hguard
    revert hsilent
    cases fut.pc with
    | done result =>
      cases result with
      | signals l =>
        cases l with
        | nil => exact fun _ => rfl
        | cons signal l => nofun
      | _ => nofun
    | _ => nofun

/-- A step after which the dispatch is still at the same future. -/
theorem Sound.deals (hs : s.Sound disp) (hp : s.Placed d disp) (hq : Quiet (fun f => f ∈ disp.futures) s s')
    (pc : DispatchPc) (hdispatches : s'.dispatches = s.dispatches.set d { disp with pc := pc })
    (hold : disp.pc.early = false) (hcalm : ∀ text, pc ≠ .raised text) (hcurrent : pc.current = disp.pc.current)
    (hleft : pc.left = disp.pc.left) :
    s' = s ∨ ∃ disp', s'.dispatches = s.dispatches.set d disp' ∧ s'.Sound disp' :=
  .inr ⟨_, hdispatches, (hs.quiet hp hq).goOn pc hold hcalm hcurrent hleft⟩

section Sweep

variable {f : ℕ} {rest : List ℕ} {fut : StrategyFuture}

/-- What a sweep has still to deal with: its next future, or one of the rest. -/
theorem cases_of_sweeping (hpc : disp.pc = .sweeping (f :: rest)) {g : ℕ} (hopen : disp.pc.Open disp.unyielded g) :
    g = f ∨ (g ∈ disp.unyielded ∧ g ∈ rest) := by
  obtain hcurrent | ⟨hunyielded, hleft⟩ := hopen
  · rw [hpc] at hcurrent
    cases hcurrent
  · exact (List.mem_cons.mp (hleft (f :: rest) (by rw [hpc]; rfl))).imp_right fun hrest => ⟨hunyielded, hrest⟩

theorem Placed.mem_of_sweeping (hp : s.Placed d disp) (hpc : disp.pc = .sweeping (f :: rest)) : f ∈ disp.futures :=
  hp.left _ (by rw [hpc]; rfl) f List.mem_cons_self

/-- The sweep passes a future that is settled. -/
theorem Sound.passes (hs : s.Sound disp) (hp : s.Placed d disp) (hq : Quiet (fun f => f ∈ disp.futures) s s')
    (hpc : disp.pc = .sweeping (f :: rest)) (hsettled : s.Settled (disp.returned f) f) :
    s'.Sound { disp with pc := .sweeping rest } := by
  refine (hs.quiet hp hq).goto (.sweeping rest) (by rw [hpc]; rfl) nofun nofun nofun fun g hg hopen => ?_
  obtain rfl | ⟨hunyielded, hrest⟩ := cases_of_sweeping hpc hopen
  · exact .inr (hsettled.quiet hq hg)
  · exact .inl (.inr ⟨hunyielded, fun _ h => Option.some.inj h ▸ hrest⟩)

/-- The sweep begins to cancel a future that is not done. -/
theorem Sound.expires (hs : s.Sound disp) (hp : s.Placed d disp) (hq : Quiet (fun f => f ∈ disp.futures) s s')
    (hpc : disp.pc = .sweeping (f :: rest)) (huntouched : s'.Untouched disp f) :
    s'.Sound { disp with pc := .cancelling f rest } := by
  refine (hs.quiet hp hq).goto (.cancelling f rest) (by rw [hpc]; rfl) nofun ?_ nofun fun g _ hopen => ?_
  · rintro g ⟨⟩
    exact huntouched
  · obtain rfl | ⟨hunyielded, hrest⟩ := cases_of_sweeping hpc hopen
    · exact .inl (.inl rfl)
    · exact .inl (.inr ⟨hunyielded, fun _ h => Option.some.inj h ▸ hrest⟩)

end Sweep

/-- **Own step**: a dispatch whose step meets `Untroubled` knows of each of its futures. -/
theorem Sound.dispatch {choice : Collecting} (hs : s.Sound disp) (ho : s.Orderly) (hdisp : s.dispatches[d]? = some disp)
    (hguard : s.Untroubled d (.dispatch d choice now) = true) (hlater : s.Later s')
    (hstep : DispatchStep s d disp now s') :
    s' = s ∨ ∃ disp', s'.dispatches = s.dispatches.set d disp' ∧ s'.Sound disp' := by
  have hp := ho.placed d disp hdisp
  obtain ⟨haware, hlive, hsilent⟩ := Untroubled.dispatch hguard hdisp
  cases hstep with
  | stays => exact .inl rfl
  | looks hpc =>
    have hearly : disp.pc.early = true := by rw [hpc]; rfl
    exact .inr ⟨_, rfl, .of_empty nofun nofun (hp.early hearly).1 (hp.unyielded_of_early hearly) rfl⟩
  | looked hpc =>
    have hearly : disp.pc.early = true := by rw [hpc]; rfl
    exact .inr ⟨_, rfl, .of_empty nofun nofun (hp.early hearly).1 (hp.unyielded_of_early hearly) rfl⟩
  | nothing hpc hfound =>
    have hearly : disp.pc.early = true := by rw [hpc]; rfl
    exact .inr ⟨_, rfl, .of_empty nofun (fun _ => hfound) (hp.early hearly).1 (hp.unyielded_of_early hearly) rfl⟩
  | naive hpc hfound hnaive => exact absurd (hnaive.symm.trans (haware hpc hfound)) Bool.false_ne_true
  | submits hpc => exact .inr ⟨_, rfl, .submits hp hpc ho.handed rfl rfl⟩
  | waits hpc =>
    have hplace : disp.pc.early = false ∧ disp.pc.current = none ∧ disp.pc.left = none := by
      obtain hpc | ⟨ready, hpc⟩ := hpc
      · rw [hpc]
        exact ⟨rfl, rfl, rfl⟩
      · rw [hpc]
        exact ⟨rfl, rfl, rfl⟩
    exact hs.deals hp (quiet_of_eq hlater rfl rfl rfl) (.collecting (s.completed disp.unyielded)) rfl hplace.1 nofun
      hplace.2.1.symm hplace.2.2.symm
  | collects hpc hf hfut hdone hh => exact .inr ⟨_, rfl, hs.collects ho hp hpc hf hfut hdone hh hlater⟩
  | takes hpc hf =>
    have hs' := hs.quiet hp (quiet_of_eq hlater rfl rfl rfl)
    exact .inr ⟨_, rfl, hs'.takes (hp.later hlater) _ hpc hf⟩
  | leaves hpc =>
    have hs' := hs.quiet hp (quiet_of_eq hlater rfl rfl rfl)
    refine .inr ⟨_, rfl, hs'.goto (.sweeping disp.futures) (by rw [hpc]; rfl) nofun nofun nofun ?_⟩
    rintro f hf (h | ⟨hmem, -⟩)
    · rw [hpc] at h
      cases h
    · exact .inl (.inr ⟨hmem, fun rest h => Option.some.inj h ▸ hf⟩)
  | excuses hpc =>
    exact hs.deals hp (quiet_of_eq hlater rfl rfl rfl) (.recording _ _) rfl (by rw [hpc]; rfl) nofun (by rw [hpc]; rfl)
      (by rw [hpc]; rfl)
  | accuses hpc =>
    exact hs.deals hp (quiet_of_eq hlater rfl rfl rfl) (.failing _ _ _) rfl (by rw [hpc]; rfl) nofun (by rw [hpc]; rfl)
      (by rw [hpc]; rfl)
  | raises hpc hfut hh hterminal =>
    exact absurd ((hlive _ _ _ _ _ hpc hfut hh).symm.trans hterminal) Bool.false_ne_true
  | fails hpc =>
    exact hs.deals hp (quiet_of_eq hlater rfl rfl rfl) (.recording _ _) rfl (by rw [hpc]; rfl) nofun (by rw [hpc]; rfl)
      (by rw [hpc]; rfl)
  | records hpc hfut => exact .inr ⟨_, rfl, hs.records hp hpc hfut hlater rfl rfl rfl⟩
  | returns hpc =>
    exact hs.deals hp (quiet_of_eq hlater rfl rfl rfl) .returned rfl (by rw [hpc]; rfl) nofun (by rw [hpc]; rfl)
      (by rw [hpc]; rfl)
  | skips hpc hnone =>
    obtain ⟨fut, h, hfut, -, hh⟩ := hp.owned _ (hp.mem_of_sweeping hpc)
    rw [targetOf_eq_some.mpr ⟨hfut, hh⟩] at hnone
    cases hnone
  | passes hpc hfut hdone =>
    have hcurrent : disp.pc.current = none := by rw [hpc]; rfl
    have hsettled := hs.settled_of_done ho hp (hp.mem_of_sweeping hpc) hcurrent hfut (hsilent _ _ _ hpc hfut hdone)
    exact .inr ⟨_, rfl, hs.passes hp (quiet_of_eq hlater rfl rfl rfl) hpc hsettled⟩
  | expires hpc hfut hh hdone =>
    have hcurrent : disp.pc.current = none := by rw [hpc]; rfl
    have huntouched := hs.untouched_of_not_done (hp.mem_of_sweeping hpc) hcurrent hfut hdone
    exact .inr ⟨_, rfl, hs.expires hp (quiet_of_eq hlater rfl rfl rfl) hpc huntouched⟩
  | cancels hpc hfut =>
    exact hs.deals hp (quiet_cancel hlater hfut rfl rfl rfl) (.checking _ "callback_timeout" (.sweep _)) rfl
      (by rw [hpc]; rfl) nofun (by rw [hpc]; rfl) (by rw [hpc]; rfl)

/-! ### Runs -/

/-- Two dispatches have no future in common. -/
theorem Placed.disjoint {d' : ℕ} {disp' : EventDispatch} (hp : s.Placed d disp) (hp' : s.Placed d' disp') (hne : d' ≠ d)
    {f : ℕ} (hf : f ∈ disp.futures) : f ∉ disp'.futures := by
  intro hf'
  obtain ⟨fut, -, hfut, howner, -⟩ := hp.owned f hf
  obtain ⟨fut', -, hfut', howner', -⟩ := hp'.owned f hf'
  cases hfut.symm.trans hfut'
  exact hne (howner'.symm.trans howner)

/-- What is known of a dispatch, among others. -/
structure Known (d : ℕ) (s : DispatchSystem) : Prop where
  orderly : s.Orderly
  sound : ∀ disp, s.dispatches[d]? = some disp → s.Sound disp

/-- **Step lemma**: any party takes a step, and dispatch `d` only such as meet `Untroubled`. -/
theorem Known.step (hk : Known d s) (a : DispatchAction) (hguard : s.Untroubled d a = true) : Known d (s.step a) := by
  refine ⟨hk.orderly.step a, ?_⟩
  have hlater := s.later_step a
  have hkeep : ∀ {s'}, s'.dispatches = s.dispatches → (∀ P, Quiet P s s') → ∀ disp, s'.dispatches[d]? = some disp →
      s'.Sound disp := by
    intro s' heq hq disp hdisp
    rw [heq] at hdisp
    exact (hk.sound disp hdisp).quiet (hk.orderly.placed d disp hdisp) (hq _)
  obtain heq | ⟨d', choice, now, disp', rfl, hdisp', hstep⟩ | ⟨f, outcome, fut, h, -, hfut, hh, heq⟩ |
    ⟨c, outcome, now, call, h, -, hc, hh, heq⟩ := s.step_cases a
  · rw [heq]
    exact hk.sound
  · by_cases hd : d' = d
    · subst hd
      obtain heq | ⟨new, heq, hnew⟩ := (hk.sound disp' hdisp').dispatch hk.orderly hdisp' hguard hlater hstep
      · rw [heq]
        exact hk.sound
      · intro disp hdisp
        rw [heq] at hdisp
        obtain ⟨-, rfl⟩ | ⟨hne, -⟩ := Pool.get_set_cases hdisp
        · exact hnew
        · exact absurd rfl hne
    · have hp' := hk.orderly.placed d' disp' hdisp'
      intro disp hdisp
      have hsame : s.dispatches[d]? = some disp := by
        obtain heq | ⟨new, heq, -⟩ := hp'.dispatch hlater hstep
        · rwa [heq] at hdisp
        · rwa [heq, List.getElem?_set_ne hd] at hdisp
      have hp := hk.orderly.placed d disp hsame
      exact (hk.sound disp hsame).quiet hp ((quiet_dispatch hp' hlater hstep).mono fun f => hp.disjoint hp' hd)
  · exact hkeep (by rw [heq]) fun P => quiet_work hlater hfut heq
  · refine hkeep (by rw [heq]) fun P => ?_
    exact quiet_of_eq hlater (by rw [heq]) (by rw [heq]) (by rw [heq])

theorem Initial.known (hs : s.Initial) (d : ℕ) : Known d s := by
  refine ⟨⟨?_, ?_, ?_⟩, ?_⟩
  · intro d' disp hdisp
    obtain ⟨event, rfl⟩ := hs.dispatches disp (List.mem_of_getElem? hdisp)
    exact .of_empty nofun rfl rfl rfl rfl rfl nofun nofun
  · intro f fut hget
    rw [hs.futures] at hget
    cases hget
  · rw [hs.handed]
    exact List.forall_mem_nil _
  · intro disp hdisp
    obtain ⟨event, rfl⟩ := hs.dispatches disp (List.mem_of_getElem? hdisp)
    exact .of_empty nofun nofun rfl rfl rfl

theorem Known.concluded (hk : Known d s) (hdisp : s.dispatches[d]? = some disp) : s.Concluded d disp := by
  have hp := hk.orderly.placed d disp hdisp
  have hs := hk.sound disp hdisp
  refine ⟨hs.calm, hp.nodup, hp.accepted, fun hpc => ?_⟩
  have hsettled : ∀ f ∈ disp.futures, s.Settled (disp.returned f) f := by
    intro f hf
    obtain (h | ⟨-, hleft⟩) | hsettled := hs.settled f hf
    · rw [hpc] at h
      cases h
    · have hmem := hleft [] (by rw [hpc]; rfl)
      cases hmem
    · exact hsettled
  have hpaired := hs.paired (by rw [hpc]; rfl)
  have hmem : List.Forall₂ (fun f i => f ∈ disp.futures ∧ ∃ fut, s.futures[f]? = some fut ∧ fut.target = i)
      disp.futures disp.found := (List.forall₂_and_left _ _).mpr ⟨fun f hf => hf, hpaired.flip⟩
  refine hmem.flip.imp ?_
  rintro i f ⟨hf, fut, hfut, htarget⟩
  obtain ⟨fut', -, hfut', howner, -⟩ := hp.owned f hf
  cases hfut.symm.trans hfut'
  exact ⟨⟨fut, hfut, howner, htarget⟩, hsettled f hf⟩

/-- **The outcome of a dispatch**, in every state of every run in which its own steps meet `Untroubled`: it does not
raise, and each instance that it matched has its signals returned and handed over once or is terminal with its event
counted. -/
theorem concluded_of_untroubled (s : DispatchSystem) (hs : s.Initial) (d : ℕ) (l : List DispatchAction)
    (hguard : Along step (fun s a => s.Untroubled d a = true) s l) (l' : List DispatchAction) (hl : l' <+: l)
    (disp : EventDispatch) (hdisp : (run step s l').dispatches[d]? = some disp) : (run step s l').Concluded d disp := by
  obtain ⟨rest, rfl⟩ := hl
  have hk : Known d (run step s l') :=
    ((along_append step _ s l' rest).mp hguard).1.invariant (fun _ a hI hG => Known.step hI a hG) (hs.known d)
  exact hk.concluded hdisp

/-- A signal of the sample strategy. -/
def emittedSignal : StrategySignal where
  signalId := ⟨3⟩
  strategyId := sampleIdentity.strategyId
  strategyVersion := sampleIdentity.version
  strategyConfigHash := sampleIdentity.configHash
  instrumentId := ⟨7⟩
  action := .buy
  timestamp := sampleNow
  confidence := ⟨false, 9, -1⟩
  reason := "crossover"
  metadata := []
  confidence_range := nine_tenths_range
  timestamp_aware := sampleNow_aware

/-- The callback completes between the timeout and the look at its future. -/
def lateSignal : List DispatchAction :=
  let next : DispatchAction := .dispatch 0 .wait sampleNow
  let worker : DispatchAction := .work 0 {}
  [next, next, next, worker, worker, worker, next, .dispatch 0 .timeout sampleNow, .work 0 { emits := [emittedSignal] },
    worker, worker, next, next]

/-- One accepted signal is the result. -/
def oneSignal : FuturePc → Bool
  | .done (.signals [_]) => true
  | _ => false

/-- The accepted signal is not returned, and its instance is not failed. -/
theorem not_concluded :
    ¬∀ (s : DispatchSystem) (d : ℕ) (l : List DispatchAction) (disp : EventDispatch), s.Initial →
      (run step s l).dispatches[d]? = some disp → (run step s l).Concluded d disp := by
  intro hall
  have hdisp : ((run step sampleSystem lateSignal).dispatches[0]?).any (fun disp =>
      (disp.pc matches .returned) && disp.found = [0] && disp.futures = [0] && disp.accepted.isEmpty) = true := by
    decide +kernel
  have hlost : ((run step sampleSystem lateSignal).futures[0]?).any (fun fut =>
      !fut.counted && oneSignal fut.pc) = true := by
    decide +kernel
  generalize hget : (run step sampleSystem lateSignal).dispatches[0]? = found at hdisp
  cases found with
  | none => cases hdisp
  | some disp =>
    simp only [Option.any_some, Bool.and_eq_true, decide_eq_true_eq, List.isEmpty_iff] at hdisp
    obtain ⟨⟨⟨hpc, hfound⟩, hfutures⟩, haccepted⟩ := hdisp
    have hreturned : disp.pc = .returned := by
      cases h : disp.pc with
      | returned => rfl
      | _ => rw [h] at hpc; cases hpc
    have hsettled := (hall sampleSystem 0 lateSignal disp initial_sampleSystem hget).settled hreturned
    rw [hfound, hfutures, List.forall₂_cons] at hsettled
    obtain ⟨⟨-, fut, h, hfut, -, hway⟩, -⟩ := hsettled
    rw [hfut, Option.any_some, Bool.and_eq_true, Bool.not_eq_true'] at hlost
    obtain ⟨hcounted, -⟩ | ⟨-, signals, hdone, hsame, -⟩ := hway
    · exact absurd (hlost.1.symm.trans hcounted) Bool.false_ne_true
    · rw [EventDispatch.returned, haccepted] at hsame
      subst hsame
      rw [hdone] at hlost
      exact absurd hlost.2 Bool.false_ne_true

/-- The callback completes in time. -/
def timelySignal : List DispatchAction :=
  let next : DispatchAction := .dispatch 0 .wait sampleNow
  let worker : DispatchAction := .work 0 {}
  [next, next, next, worker, worker, worker, .work 0 { emits := [emittedSignal] }, worker, worker, next,
    .dispatch 0 (.give 0) sampleNow, next, next, next]

theorem concluded_of_timely : ∃ disp, (run step sampleSystem timelySignal).dispatches[0]? = some disp ∧
    (run step sampleSystem timelySignal).Concluded 0 disp ∧ disp.accepted.length = 1 := by
  have hrun : ((run step sampleSystem timelySignal).dispatches[0]?).any (fun disp => disp.accepted.length = 1) = true := by
    decide +kernel
  generalize hget : (run step sampleSystem timelySignal).dispatches[0]? = found at hrun
  cases found with
  | none => cases hrun
  | some disp =>
    exact ⟨disp, rfl, concluded_of_untroubled sampleSystem initial_sampleSystem 0 timelySignal (by decide +kernel)
      timelySignal (List.prefix_refl _) disp hget, of_decide_eq_true hrun⟩

end DispatchSystem

end AlphaAlgo.Strategy
