import AlphaAlgo.Strategy.Dispatch

/-!
# Failures — what an instance is failed for

An instance is to fail only for one of its own callbacks, that raised or was unfinished at the timeout.  The collector
takes each exception of a future for a fault of the strategy, also the `LifecycleError` of a worker that comes to an
instance that was paused or stopped after it had matched.

* `failed_of_fault`: where no refused future meets an instance that is not terminal, only the instance's own callbacks
  fail it.
-/

namespace AlphaAlgo.Strategy

open Runs

/-- A callback raised, or hit the timeout, begun or not. -/
def Hosted.Excused (h : Hosted) : Prop := h.raised = true ∨ h.overran = true ∨ h.starved = true

theorem Hosted.Later.excused {h h' : Hosted} (hlater : h.Later h') (he : h.Excused) : h'.Excused :=
  he.imp hlater.raised (Or.imp hlater.overran hlater.starved)

theorem Hosted.excused_expire (h : Hosted) (begun : Bool) : (h.expire begun).Excused := by
  cases begun with
  | true => exact .inr (.inl rfl)
  | false => exact .inr (.inr rfl)

theorem Hosted.state_expire (h : Hosted) (begun : Bool) : (h.expire begun).inst.state = h.inst.state := by
  cases begun <;> rfl

/-- After the callback has raised; the `RuntimeError` of an illegal transition comes only from there. -/
def FuturePc.Faulty : FuturePc → Prop
  | raisedIn _ => True
  | failing _ => True
  | returning (.illegal _) => True
  | done (.illegal _) => True
  | _ => False

def ControlPc.Faulty : ControlPc → Prop
  | raisedIn _ => True
  | failing _ => True
  | _ => False

def FuturePc.refused : FuturePc → Bool
  | done (.refused _) => true
  | _ => false

/-- A future that is faulty after its step was so before, or its callback has raised. -/
theorem StrategyFuture.faulty_next {fut : StrategyFuture} {free : Bool} {h : Hosted} {m : StrategyMetrics}
    {outcome : CallbackOutcome} (hf : (fut.next free h m outcome).1.pc.Faulty) :
    fut.pc.Faulty ∨ (fut.next free h m outcome).2.1.raised = true := by
  obtain ⟨owner, target, timestamp, pc, begun, counted⟩ := fut
  revert hf
  cases pc with
  | pending => unfold next; dsimp only; split_ifs <;> exact False.elim
  | waiting => unfold next; dsimp only; split_ifs <;> exact False.elim
  | entered => unfold next; dsimp only; split_ifs <;> exact False.elim
  | calling before =>
    unfold next
    cases outcome.raises with
    | none => exact False.elim
    | some reason => exact fun _ => .inr rfl
  | raisedIn reason => exact fun _ => .inl trivial
  | failing reason => exact fun _ => .inl trivial
  | accepting before => exact False.elim
  | returning result => exact fun hf => .inl (by cases result <;> exact hf)
  | cancelled => exact False.elim
  | done result => exact .inl

/-- A call that is faulty after its step was so before, or `on_stop` has raised. -/
theorem LifecycleCall.faulty_next {c : LifecycleCall} {h : Hosted} {m : StrategyMetrics} {outcome : CallbackOutcome}
    {now : DateTime} (hf : (c.next h m outcome now).1.pc.Faulty) :
    c.pc.Faulty ∨ (c.next h m outcome now).2.1.raised = true := by
  obtain ⟨kind, target, pc⟩ := c
  have hmove : ∀ {goal : StrategyRunState} {pc' : ControlPc} {counted : StrategyMetrics → StrategyMetrics},
      ¬pc'.Faulty → ¬(LifecycleCall.move ⟨kind, target, pc⟩ h m goal pc' counted).1.pc.Faulty := by
    intro goal pc' counted hpc'
    obtain ⟨-, heq⟩ | ⟨-, e, heq⟩ := LifecycleCall.move_cases ⟨kind, target, pc⟩ h m goal pc' counted
    · rw [heq]
      exact hpc'
    · rw [heq]
      exact id
  revert hf
  cases pc with
  | start => cases kind <;> (unfold next; dsimp only; split_ifs <;> exact False.elim)
  | checked =>
    cases kind with
    | pause => exact fun hf => absurd hf (hmove id)
    | resume => exact fun hf => absurd hf (hmove id)
    | stop => exact fun hf => absurd hf (hmove id)
  | onStop =>
    unfold next
    cases outcome.raises with
    | none => exact False.elim
    | some reason => exact fun _ => .inr rfl
  | raisedIn reason => exact fun _ => .inl trivial
  | failing reason => exact fun _ => .inl trivial
  | stopping => exact fun hf => absurd hf (hmove id)
  | stopped => exact False.elim
  | finished => exact False.elim
  | raised e => exact False.elim

namespace DispatchSystem

/-! ### The invariant of one instance -/

section Instance

variable (s : DispatchSystem) (i : ℕ)

/-- Instance `i` may fail. -/
def Justified : Prop := ∃ h, s.hosted[i]? = some h ∧ h.Excused

/-- Where future `f` is one of instance `i`, the instance may fail. -/
def Answerable (f : ℕ) : Prop := ∃ fut, s.futures[f]? = some fut ∧ (fut.target = i → s.Justified i)

/-- What a dispatch knows when it looks at a future to fail its instance. -/
def Fair : DispatchPc → Prop
  | .checking f _ (.collect _) => s.Answerable i f ∨ ∃ fut, s.futures[f]? = some fut ∧ fut.pc.refused = true
  | .checking f _ (.sweep _) => s.Answerable i f
  | .failing f _ _ => s.Answerable i f
  | .cancelling f _ => s.Answerable i f
  | _ => True

structure Blames : Prop where
  failed : ∀ h, s.hosted[i]? = some h → h.inst.state = .failed → h.Excused
  futures : ∀ (f : ℕ) (fut : StrategyFuture), s.futures[f]? = some fut → fut.target = i → fut.pc.Faulty → s.Justified i
  calls : ∀ (c : ℕ) (call : LifecycleCall), s.calls[c]? = some call → call.target = i → call.pc.Faulty → s.Justified i
  dispatches : ∀ (d : ℕ) (disp : EventDispatch), s.dispatches[d]? = some disp → s.Fair i disp.pc

end Instance

/-! ### What others do -/

variable {s s' : DispatchSystem} {i : ℕ}

theorem Later.justified (h : s.Later s') : s.Justified i → s'.Justified i := by
  rintro ⟨host, hget, he⟩
  obtain ⟨host', hget', hlater⟩ := h.hosted i host hget
  exact ⟨host', hget', hlater.excused he⟩

theorem Later.answerable (h : s.Later s') {f : ℕ} : s.Answerable i f → s'.Answerable i f := by
  rintro ⟨fut, hget, hj⟩
  obtain ⟨fut', hget', hlater⟩ := h.futures f fut hget
  exact ⟨fut', hget', fun htarget => h.justified (hj (hlater.target ▸ htarget))⟩

theorem FuturePc.isDone_of_refused {pc : FuturePc} (h : pc.refused = true) : pc.isDone = true := by
  cases pc with
  | done _ => rfl
  | _ => cases h

theorem Later.fair (h : s.Later s') {pc : DispatchPc} (hfair : s.Fair i pc) : s'.Fair i pc := by
  cases pc with
  | checking f reason resume =>
    cases resume with
    | collect ready =>
      refine hfair.imp h.answerable ?_
      rintro ⟨fut, hget, hrefused⟩
      obtain ⟨fut', hget', hlater⟩ := h.futures f fut hget
      exact ⟨fut', hget', hlater.done (FuturePc.isDone_of_refused hrefused) ▸ hrefused⟩
    | sweep rest => exact h.answerable hfair
  | failing f reason resume => exact h.answerable hfair
  | cancelling f rest => exact h.answerable hfair
  | _ => trivial

theorem Blames.excused (hb : s.Blames i) {h h' : Hosted} (hget : s.hosted[i]? = some h) (hlater : h.Later h')
    (hstate : h'.inst.state = .failed → h.inst.state = .failed ∨ s.Justified i) (hfailed : h'.inst.state = .failed) :
    h'.Excused := by
  refine hlater.excused ((hstate hfailed).elim (hb.failed h hget) ?_)
  rintro ⟨h₀, hget₀, he⟩
  cases hget.symm.trans hget₀
  exact he

/-- One instance takes a step, and the others stay. -/
theorem Blames.failed_set (hb : s.Blames i) {j : ℕ} {h h' : Hosted} (hget : s.hosted[j]? = some h) (hlater : h.Later h')
    (hstate : h'.inst.state = .failed → h.inst.state = .failed ∨ (j = i → s.Justified i)) :
    ∀ host, (s.hosted.set j h')[i]? = some host → host.inst.state = .failed → host.Excused := by
  intro host hhost hfailed
  obtain ⟨rfl, rfl⟩ | ⟨-, hhost⟩ := Pool.get_set_cases hhost
  · exact hb.excused hget hlater (fun hf => (hstate hf).imp_right fun hj => hj rfl) hfailed
  · exact hb.failed host hhost hfailed

/-! ### Workers and calls -/

theorem Blames.work (hb : s.Blames i) {f : ℕ} {fut : StrategyFuture} {h : Hosted} (hfut : s.futures[f]? = some fut)
    (hh : s.hosted[fut.target]? = some h) (outcome : CallbackOutcome) (hlater : s.Later (s.step (.work f outcome)))
    (heq : s.step (.work f outcome) = { s with
      metrics := (fut.next (s.freeFor f) h s.metrics outcome).2.2
      futures := s.futures.set f (fut.next (s.freeFor f) h s.metrics outcome).1
      hosted := s.hosted.set fut.target (fut.next (s.freeFor f) h s.metrics outcome).2.1 }) :
    (s.step (.work f outcome)).Blames i := by
  obtain ⟨hhlater, hstate, -⟩ := fut.next_hosted (s.freeFor f) h s.metrics outcome
  have hflater := fut.later_next (s.freeFor f) h s.metrics outcome
  have hfaulty : fut.target = i → fut.pc.Faulty → s.Justified i := hb.futures f fut hfut
  refine ⟨?_, ?_, ?_, ?_⟩
  · rw [heq]
    refine hb.failed_set hh hhlater fun hf => ?_
    obtain hsame | ⟨reason, hpc⟩ := hstate
    · exact .inl (hsame ▸ hf)
    · exact .inr fun htarget => hfaulty htarget (hpc ▸ trivial)
  · intro g fut' hget htarget hf
    rw [heq] at hget
    obtain ⟨rfl, rfl⟩ | ⟨-, hget⟩ := Pool.get_set_cases hget
    · rw [hflater.target] at htarget
      obtain hold | hraised := StrategyFuture.faulty_next hf
      · exact hlater.justified (hfaulty htarget hold)
      · refine ⟨_, ?_, .inl hraised⟩
        rw [heq]
        exact htarget ▸ Pool.get_set_self hh
    · exact hlater.justified (hb.futures g fut' hget htarget hf)
  · intro c call hget htarget hf
    rw [heq] at hget
    exact hlater.justified (hb.calls c call hget htarget hf)
  · intro d disp hget
    rw [heq] at hget
    exact hlater.fair (hb.dispatches d disp hget)

theorem Blames.call (hb : s.Blames i) {c : ℕ} {call : LifecycleCall} {h : Hosted} (hc : s.calls[c]? = some call)
    (hh : s.hosted[call.target]? = some h) (outcome : CallbackOutcome) (now : DateTime)
    (hlater : s.Later (s.step (.call c outcome now)))
    (heq : s.step (.call c outcome now) = { s with
      metrics := (call.next h s.metrics outcome now).2.2
      calls := s.calls.set c (call.next h s.metrics outcome now).1
      hosted := s.hosted.set call.target (call.next h s.metrics outcome now).2.1 }) :
    (s.step (.call c outcome now)).Blames i := by
  obtain ⟨hhlater, hstate, -⟩ := call.next_hosted h s.metrics outcome now
  have hfaulty : call.target = i → call.pc.Faulty → s.Justified i := hb.calls c call hc
  refine ⟨?_, ?_, ?_, ?_⟩
  · rw [heq]
    refine hb.failed_set hh hhlater fun hf => (hstate hf).imp_right ?_
    rintro ⟨reason, hpc⟩ htarget
    exact hfaulty htarget (hpc ▸ trivial)
  · intro f fut hget htarget hf
    rw [heq] at hget
    exact hlater.justified (hb.futures f fut hget htarget hf)
  · intro c' call' hget htarget hf
    rw [heq] at hget
    obtain ⟨rfl, rfl⟩ | ⟨-, hget⟩ := Pool.get_set_cases hget
    · rw [call.target_next h s.metrics outcome now] at htarget
      obtain hold | hraised := LifecycleCall.faulty_next hf
      · exact hlater.justified (hfaulty htarget hold)
      · refine ⟨_, ?_, .inl hraised⟩
        rw [heq]
        exact htarget ▸ Pool.get_set_self hh
    · exact hlater.justified (hb.calls c' call' hget htarget hf)
  · intro d disp hget
    rw [heq] at hget
    exact hlater.fair (hb.dispatches d disp hget)

/-! ### Dispatches -/

variable {d : ℕ} {disp : EventDispatch} {now : DateTime}

theorem Blames.failed_dispatch (hb : s.Blames i) (hfair : s.Fair i disp.pc) (hstep : DispatchStep s d disp now s') :
    ∀ host, s'.hosted[i]? = some host → host.inst.state = .failed → host.Excused := by
  cases hstep with
  | collects hpc hf hfut hdone hh =>
    refine hb.failed_set hh ?_ fun hf => .inl ?_
    · split_ifs
      · exact Hosted.later_recordFailure _ now
      · exact .refl _
    · split_ifs at hf <;> exact hf
  | fails hpc hfut hh hterminal =>
    refine hb.failed_set hh ?_ fun _ => .inr fun htarget => ?_
    · exact Hosted.later_of_not_terminal hterminal id rfl rfl
    · rw [hpc] at hfair
      obtain ⟨fut, hget, hj⟩ := hfair
      cases hfut.symm.trans hget
      exact hj htarget
  | records hpc hfut hh => exact hb.failed_set hh (Hosted.later_recordFailure _ now) .inl
  | expires hpc hfut hh =>
    refine hb.failed_set hh (Hosted.later_expire _ _) fun hf => .inl ?_
    rwa [Hosted.state_expire] at hf
  | _ => exact hb.failed

theorem Blames.futures_dispatch (hb : s.Blames i) (hlater : s.Later s') (hstep : DispatchStep s d disp now s') (f : ℕ)
    (fut : StrategyFuture) (hget : s'.futures[f]? = some fut) (htarget : fut.target = i) (hfaulty : fut.pc.Faulty) :
    s'.Justified i := by
  refine hlater.justified ?_
  cases hstep with
  | submits =>
    obtain hlt | hle := Nat.lt_or_ge f s.futures.length
    · exact hb.futures f fut ((List.getElem?_append_left hlt).symm.trans hget) htarget hfaulty
    · rw [List.getElem?_append_right hle, List.getElem?_map, Option.map_eq_some_iff] at hget
      obtain ⟨j, -, rfl⟩ := hget
      exact hfaulty.elim
  | records hpc hfut =>
    obtain ⟨rfl, rfl⟩ | ⟨-, hget⟩ := Pool.get_set_cases hget
    · exact hb.futures _ _ hfut htarget hfaulty
    · exact hb.futures f fut hget htarget hfaulty
  | @cancels g rest fut₀ hpc hfut =>
    obtain ⟨rfl, rfl⟩ | ⟨-, hget⟩ := Pool.get_set_cases hget
    · refine hb.futures _ _ hfut (fut₀.later_cancel.target ▸ htarget) ?_
      cases hpending : fut₀.pc with
      | pending => rw [StrategyFuture.cancel, hpending] at hfaulty; exact hfaulty.elim
      | _ => rw [StrategyFuture.cancel, hpending] at hfaulty; rwa [hpending] at hfaulty
    · exact hb.futures f fut hget htarget hfaulty
  | _ => exact hb.futures f fut hget htarget hfaulty

/-- When the collector looks at the instance of a future that was refused, and this is instance `i`, it is terminal
already, or one of its callbacks has raised or hit the timeout. -/
def RefusedTerminal (i : ℕ) (s : DispatchSystem) : DispatchAction → Bool
  | .dispatch d _ _ =>
    (s.dispatches[d]?).all fun disp => match disp.pc with
      | .checking f _ (.collect _) =>
        (s.targetOf f).all fun (fut, h) =>
          fut.target ≠ i || !fut.pc.refused || h.inst.state.terminal || h.raised || h.overran || h.starved
      | _ => true
  | _ => true

theorem answerable_of_refused {choice : Collecting} {f : ℕ} {reason : String} {ready : List ℕ} {fut : StrategyFuture}
    {h : Hosted} (hguard : s.RefusedTerminal i (.dispatch d choice now) = true) (hdisp : s.dispatches[d]? = some disp)
    (hpc : disp.pc = .checking f reason (.collect ready)) (hfut : s.futures[f]? = some fut)
    (hh : s.hosted[fut.target]? = some h) (hterminal : h.inst.state.terminal = false) (hrefused : fut.pc.refused = true) :
    s.Answerable i f := by
  refine ⟨fut, hfut, fun htarget => ⟨h, htarget ▸ hh, ?_⟩⟩
  simpa [RefusedTerminal, hdisp, hpc, targetOf_eq_some.mpr ⟨hfut, hh⟩, htarget, hrefused, hterminal, Hosted.Excused,
    or_assoc] using hguard

theorem fair_resume (resume : Resume) : s.Fair i resume.pc := by
  cases resume with
  | collect ready => trivial
  | sweep rest => trivial

/-- What the dispatch knows after its step. -/
theorem Blames.fair_dispatch {choice : Collecting} (hb : s.Blames i) (hlater : s.Later s')
    (hguard : s.RefusedTerminal i (.dispatch d choice now) = true) (hdisp : s.dispatches[d]? = some disp)
    (hstep : DispatchStep s d disp now s') (d' : ℕ) (disp' : EventDispatch) (hget : s'.dispatches[d']? = some disp') :
    s'.Fair i disp'.pc := by
  have hfair : s.Fair i disp.pc := hb.dispatches d disp hdisp
  have hset : ∀ {new : EventDispatch}, s'.dispatches = s.dispatches.set d new → s'.Fair i new.pc →
      s'.Fair i disp'.pc := by
    intro new heq hnew
    rw [heq] at hget
    obtain ⟨-, rfl⟩ | ⟨-, hold⟩ := Pool.get_set_cases hget
    · exact hnew
    · exact hlater.fair (hb.dispatches d' disp' hold)
  cases hstep with
  | stays => exact hb.dispatches d' disp' hget
  | takes hpc hf hfut hdone hresult =>
    refine hset rfl ?_
    obtain rfl | rfl := hresult
    · exact .inr ⟨_, hfut, by rw [hdone]; rfl⟩
    · exact .inl ⟨_, hfut, fun htarget => hb.futures _ _ hfut htarget (by rw [hdone]; trivial)⟩
  | @accuses f reason resume fut h hpc hfut hh hterminal =>
    refine hset rfl (hlater.answerable ?_)
    rw [hpc] at hfair
    cases resume with
    | sweep rest => exact hfair
    | collect ready =>
      obtain hj | ⟨fut', hget', hrefused⟩ := hfair
      · exact hj
      · cases hfut.symm.trans hget'
        exact answerable_of_refused hguard hdisp hpc hfut hh hterminal hrefused
  | @expires f rest fut h hpc hfut hh hdone =>
    refine hset rfl ⟨fut, hfut, fun htarget => ?_⟩
    exact ⟨_, htarget ▸ Pool.get_set_self hh, h.excused_expire fut.begun⟩
  | cancels hpc hfut =>
    refine hset rfl (hlater.answerable ?_)
    rwa [hpc] at hfair
  | records => exact hset rfl (fair_resume _)
  | _ => exact hset rfl trivial

/-! ### Runs -/

/-- **Step lemma**: the instance fails only for what its callbacks did. -/
theorem Blames.step (hb : s.Blames i) (a : DispatchAction) (hguard : s.RefusedTerminal i a = true) :
    (s.step a).Blames i := by
  have hlater := s.later_step a
  obtain heq | ⟨d, choice, now, disp, rfl, hdisp, hstep⟩ | ⟨f, outcome, fut, h, rfl, hfut, hh, heq⟩ |
    ⟨c, outcome, now, call, h, rfl, hc, hh, heq⟩ := s.step_cases a
  · rwa [heq]
  · refine ⟨hb.failed_dispatch (hb.dispatches d disp hdisp) hstep, hb.futures_dispatch hlater hstep, ?_,
      hb.fair_dispatch hlater hguard hdisp hstep⟩
    intro c call hget htarget hfaulty
    exact hlater.justified (hb.calls c call (calls_of_dispatchStep hstep ▸ hget) htarget hfaulty)
  · exact hb.work hfut hh outcome hlater heq
  · exact hb.call hc hh outcome now hlater heq

/-- When a future of instance `i` hits the timeout, its callback has begun. -/
def ExpiresBegun (i : ℕ) (s : DispatchSystem) : DispatchAction → Bool
  | .dispatch d _ _ =>
    (s.dispatches[d]?).all fun disp => match disp.pc with
      | .sweeping (f :: _) => (s.targetOf f).all fun (fut, _) => fut.target ≠ i || fut.pc.isDone || fut.begun
      | _ => true
  | _ => true

/-- No callback of the instance hit the timeout before it had begun. -/
def Unstarved (s : DispatchSystem) (i : ℕ) : Prop := ∀ h, s.hosted[i]? = some h → h.starved = false

theorem Unstarved.set (hs : s.Unstarved i) {j : ℕ} {h h' : Hosted} (hget : s.hosted[j]? = some h)
    (hstarved : j = i → h.starved = false → h'.starved = false) :
    ∀ host, (s.hosted.set j h')[i]? = some host → host.starved = false := by
  intro host hhost
  obtain ⟨rfl, rfl⟩ | ⟨-, hhost⟩ := Pool.get_set_cases hhost
  · exact hstarved rfl (hs h hget)
  · exact hs host hhost

theorem Unstarved.step (hs : s.Unstarved i) (a : DispatchAction) (hguard : s.ExpiresBegun i a = true) :
    (s.step a).Unstarved i := by
  obtain heq | ⟨d, choice, now, disp, rfl, hdisp, hstep⟩ | ⟨f, outcome, fut, h, rfl, hfut, hh, heq⟩ |
    ⟨c, outcome, now, call, h, rfl, hc, hh, heq⟩ := s.step_cases a
  · rwa [heq]
  · revert hstep
    generalize s.step (.dispatch d choice now) = s'
    intro hstep
    cases hstep with
    | collects hpc hf hfut hdone hh => exact hs.set hh fun _ hold => by split_ifs <;> exact hold
    | fails hpc hfut hh => exact hs.set hh fun _ => id
    | records hpc hfut hh => exact hs.set hh fun _ => id
    | @expires f rest fut h hpc hfut hh hdone =>
      refine hs.set hh fun htarget hold => ?_
      have hbegun : fut.begun = true := by
        simpa [ExpiresBegun, hdisp, hpc, targetOf_eq_some.mpr ⟨hfut, hh⟩, htarget, hdone] using hguard
      rw [hbegun]
      exact hold
    | _ => exact hs
  · rw [heq]
    exact hs.set hh fun _ hold => (fut.next_hosted _ h _ outcome).2.2.trans hold
  · rw [heq]
    exact hs.set hh fun _ hold => (call.next_hosted h _ outcome now).2.2.trans hold

theorem Initial.blames (hs : s.Initial) (hne : ∀ h, s.hosted[i]? = some h → h.inst.state ≠ .failed) : s.Blames i := by
  refine ⟨fun h hget hfailed => absurd hfailed (hne h hget), ?_, ?_, ?_⟩
  · intro f fut hget
    rw [hs.futures] at hget
    cases hget
  · intro c call hget _ hfaulty
    rw [hs.calls call (List.mem_of_getElem? hget)] at hfaulty
    exact hfaulty.elim
  · intro d disp hget
    obtain ⟨event, rfl⟩ := hs.dispatches disp (List.mem_of_getElem? hget)
    trivial

/-- **An instance fails only for its own callbacks**, in every run in which no refused future meets an instance that may
not fail: one of them raised or was unfinished at the timeout, and had begun where this is so of all that hit it. -/
theorem failed_of_fault (s : DispatchSystem) (hs : s.Initial) (i : ℕ)
    (hne : ∀ h, s.hosted[i]? = some h → h.inst.state ≠ .failed) (l : List DispatchAction)
    (hguard : Along step (fun s a => s.RefusedTerminal i a = true) s l) (l' : List DispatchAction) (hl : l' <+: l)
    (h : Hosted) (hget : (run step s l').hosted[i]? = some h) (hfailed : h.inst.state = .failed) :
    (h.raised = true ∨ h.overran = true ∨ h.starved = true) ∧
      (Along step (fun s a => s.ExpiresBegun i a = true) s l' → h.raised = true ∨ h.overran = true) := by
  obtain ⟨rest, rfl⟩ := hl
  have hb : (run step s l').Blames i :=
    ((along_append step _ s l' rest).mp hguard).1.invariant (fun _ a hI hG => Blames.step hI a hG) (hs.blames hne)
  have hexcused : h.Excused := hb.failed h hget hfailed
  refine ⟨hexcused, fun hbegun => ?_⟩
  have hstarved : (run step s l').Unstarved i :=
    hbegun.invariant (fun _ a hI hG => Unstarved.step hI a hG)
      fun h₀ hget₀ => (hs.hosted h₀ (List.mem_of_getElem? hget₀)).2.2.2
  obtain hraised | hoverran | hstarved' := hexcused
  · exact .inl hraised
  · exact .inr hoverran
  · exact absurd ((hstarved h hget).symm.trans hstarved') Bool.false_ne_true

/-- The strategy is paused between the match and the worker, and the collector fails it. -/
def pausedInFlight : List DispatchAction :=
  let next : DispatchAction := .dispatch 0 .wait sampleNow
  let worker : DispatchAction := .work 0 {}
  let pause : DispatchAction := .call 0 {} sampleNow
  [next, next, next, worker, worker, pause, pause, worker, worker, next, .dispatch 0 (.give 0) sampleNow, next, next]

theorem not_failed_of_fault :
    ¬∀ (s : DispatchSystem) (i : ℕ) (l : List DispatchAction) (h : Hosted), s.Initial →
      (∀ h, s.hosted[i]? = some h → h.inst.state ≠ .failed) → (run step s l).hosted[i]? = some h →
      h.inst.state = .failed → h.raised = true ∨ h.overran = true ∨ h.starved = true := by
  intro hall
  have hrun : ((run step sampleSystem pausedInFlight).hosted[0]?).any (fun h =>
      h.inst.state = .failed && !h.raised && !h.overran && !h.starved) = true := by decide +kernel
  generalize hget : (run step sampleSystem pausedInFlight).hosted[0]? = found at hrun
  cases found with
  | none => cases hrun
  | some h =>
    simp only [Option.any_some, Bool.and_eq_true, decide_eq_true_eq, Bool.not_eq_true'] at hrun
    obtain ⟨⟨⟨hfailed, hraised⟩, hoverran⟩, hstarved⟩ := hrun
    have hexcused := hall sampleSystem 0 pausedInFlight h initial_sampleSystem
      (by rintro h hh; cases hh; decide) hget hfailed
    simp [hraised, hoverran, hstarved] at hexcused

/-- The strategy is paused while its callback runs, which then raises. -/
def raisedInFlight : List DispatchAction :=
  let next : DispatchAction := .dispatch 0 .wait sampleNow
  let worker : DispatchAction := .work 0 {}
  let pause : DispatchAction := .call 0 {} sampleNow
  [next, next, next, worker, worker, worker, pause, pause, .work 0 { raises := some "boom" }, worker, worker, worker, next,
    .dispatch 0 (.give 0) sampleNow]

theorem failed_of_fault_raised : ∃ h, (run step sampleSystem raisedInFlight).hosted[0]? = some h ∧
    h.inst.state = .failed ∧ (h.raised = true ∨ h.overran = true ∨ h.starved = true) := by
  have hrun : ((run step sampleSystem raisedInFlight).hosted[0]?).any (fun h => h.inst.state = .failed) = true := by
    decide +kernel
  generalize hget : (run step sampleSystem raisedInFlight).hosted[0]? = found at hrun
  cases found with
  | none => cases hrun
  | some h =>
    have hfailed : h.inst.state = .failed := of_decide_eq_true hrun
    exact ⟨h, rfl, hfailed, (failed_of_fault sampleSystem initial_sampleSystem 0 (by rintro h hh; cases hh; decide)
      raisedInFlight (by decide +kernel) raisedInFlight (List.prefix_refl _) h hget hfailed).1⟩

end DispatchSystem

end AlphaAlgo.Strategy
