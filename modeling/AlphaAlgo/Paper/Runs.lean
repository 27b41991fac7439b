import AlphaAlgo.Lib.Runs
import AlphaAlgo.Paper.Service

/-!
# Runs — funds, fills and repeated orders of a paper account

Runs of a service and its broker: submissions, new reference prices, connects and disconnects of the broker, in any
order.

* `Inv`: what holds in every run.
* `funds_match_fills`: cash, reserve and fills while every fill can be settled (`Clean`).
* `resubmit_repeats_iff`: when a repeated submission returns the original outcome.
-/

namespace AlphaAlgo.Paper.PaperTradingService

open Runs

/-! ### Runs -/

inductive Action where
  | submit (a : SubmitArgs) (env : CallEnv)
  | setReferencePrice (instrumentId : UUID) (reference : PaperReferencePrice)
  | setConnected (connected : Bool)

def step (s : PaperTradingService) : Action → PaperTradingService
  | .submit a env => (s.submit a env).1
  | .setReferencePrice instrumentId reference => s.setReferencePrice instrumentId reference
  | .setConnected connected => { s with broker := { s.broker with connected := connected } }

/-- What holds in every run: no event is pending between two calls, service and broker have the same reference
prices, and no recorded client order id is blank. -/
structure Inv (s : PaperTradingService) : Prop where
  drained : s.broker.book.Drained
  shared : s.referencePrices = s.broker.referencePrices
  named : ∀ account id, (s.broker.book.recorded account id).isSome → blank id = false

theorem inv_init (account : PaperAccount) (costModel : PaperCostModel)
    (referencePrices : UUID → Option PaperReferencePrice) (connected : Bool) (restored : Option PaperFunds) :
    Inv (init account costModel referencePrices connected restored) :=
  ⟨rfl, rfl, fun _ _ h => by cases h⟩

/-- A report adds the outcome, or raises and changes nothing. -/
theorem report_cases (s : PaperTradingService) (o : PaperFillOutcome) :
    s.report o = ({ s with outcomes := s.outcomes ++ [o] }, .ok o) ∨ ∃ err, s.report o = (s, .error err) := by
  unfold report
  cases o.postInit with
  | error err => exact Or.inr ⟨err, rfl⟩
  | ok u => exact Or.inl rfl

/-- The settlement of a fill leaves the book alone, and an outcome it reports is accepted or a refusal. -/
theorem settle_keeps (s : PaperTradingService) (a : SubmitArgs) {id : String} (hid : id ≠ "") (price : ℚ)
    (t : DateTime) (env : CallEnv) :
    (s.settle a id price t env).1.broker.book = s.broker.book ∧ (s.settle a id price t env).1.config = s.config ∧
      ∀ o, (s.settle a id price t env).2 = .ok o → (s.settle a id price t env).1.outcomes = s.outcomes ++ [o] ∧
        o.clientOrderId ≠ "" ∧ (o.accepted = true ∨ Refusal o) := by
  have hfinish : ∀ (funds : PaperFunds) (o : PaperFillOutcome), o.clientOrderId = id → o.accepted = true →
      ({ s with funds := funds }.finish o env).1.broker.book = s.broker.book ∧
        ({ s with funds := funds }.finish o env).1.config = s.config ∧
        ∀ o', ({ s with funds := funds }.finish o env).2 = .ok o' →
          ({ s with funds := funds }.finish o env).1.outcomes = s.outcomes ++ [o'] ∧ o'.clientOrderId ≠ "" ∧ (o'.accepted = true ∨ Refusal o') := by
    intro funds o ho hacc
    unfold finish
    split_ifs
    · exact ⟨rfl, rfl, fun _ h => by cases h⟩
    · rcases report_cases { s with funds := funds } o with h | ⟨err, h⟩
      · rw [h]
        refine ⟨rfl, rfl, fun o' ho' => ?_⟩
        cases ho'
        exact ⟨rfl, ho ▸ hid, Or.inl hacc⟩
      · rw [h]
        exact ⟨rfl, rfl, fun _ h => by cases h⟩
  unfold settle
  cases hc : fillCosts s.costModel a.side price a.quantity with
  | none => exact ⟨rfl, rfl, fun _ h => by cases h⟩
  | some c =>
    simp only
    cases hside : a.side with
    | buy =>
      simp only
      cases s.funds.reserve c.amount >>= fun f => f.settleBuy c.amount with
      | ok funds => exact hfinish funds _ rfl rfl
      | error text =>
        have h := refuses_rejectWithoutFill s a (some id) text env.rejectNow
        refine ⟨h.book, h.config, fun o ho => ?_⟩
        rcases h.reported with ⟨-, o', ho', hout, hr⟩ | ⟨-, -, err, herr⟩
        · simp only at ho
          rw [ho'] at ho
          cases ho
          exact ⟨hout, hr.named, Or.inr hr⟩
        · simp only at ho
          rw [herr] at ho
          cases ho
    | sell =>
      simp only
      cases s.funds.creditSell c.amount with
      | ok funds => exact hfinish funds _ rfl rfl
      | error text => exact ⟨rfl, rfl, fun _ h => by cases h⟩

/-- An account has a record under the id of a submission that is recorded, besides those it had. -/
theorem recorded_record (book : PaperOrderBook) (request : BrokerOrderRequest) (response : BrokerOrderResponse)
    (events : List PaperEvent) (account : UUID) (id : String) :
    (book.record request response events).recorded account id =
      if (account, id) = (request.brokerAccountId, request.clientOrderId) then some ⟨request, response, events⟩
      else book.recorded account id := by
  unfold PaperOrderBook.recorded PaperOrderBook.record
  simp only [List.lookup_cons]
  by_cases h : (account, id) = (request.brokerAccountId, request.clientOrderId)
  · rw [if_pos h, beq_iff_eq.mpr h]
  · rw [if_neg h, beq_eq_false_iff_ne.mpr h]

/-- No call changes the configuration. -/
theorem config_submit {s : PaperTradingService} (hdr : s.broker.book.Drained) (a : SubmitArgs) (env : CallEnv) :
    (s.submit a env).1.config = s.config := by
  have hstep := submit_cases hdr a env
  generalize (s.submit a env).1 = s₁ at hstep
  generalize (s.submit a env).2 = res at hstep
  cases hstep with
  | raised _ hk _ => exact hk.config
  | refused _ h => exact h.config
  | replayed _ _ _ _ _ h => exact h.config
  | rejected _ _ _ _ _ _ hcfg _ _ _ => exact hcfg
  | @filled s₂ _ price t _ _ _ hk _ _ =>
    exact (settle_keeps s₂ a (s.resolveClientOrderId_ne a.clientOrderId) price t env).2.1.trans hk.config

theorem inv_submit {s : PaperTradingService} (hs : Inv s) (a : SubmitArgs) (env : CallEnv) :
    Inv (s.submit a env).1 := by
  have hshared : ∀ {s' : PaperTradingService}, s'.config = s.config → s'.referencePrices = s'.broker.referencePrices := by
    intro s' h
    have h1 : s'.referencePrices = s.referencePrices := congrArg (fun x => x.2.2.1) h
    have h2 : s'.broker.referencePrices = s.broker.referencePrices := congrArg (fun x => x.2.2.2.1) h
    rw [h1, h2, hs.shared]
  have hsame : ∀ {s' : PaperTradingService}, s'.config = s.config → s'.broker.book = s.broker.book → Inv s' := by
    intro s' hc hb
    exact ⟨hb ▸ hs.drained, hshared hc, hb ▸ hs.named⟩
  have hnew : ∀ {s' : PaperTradingService} {book : PaperOrderBook} {request : BrokerOrderRequest}
      {response : BrokerOrderResponse} {events : List PaperEvent}, s'.config = s.config →
      book.submissions = s.broker.book.submissions → blank request.clientOrderId = false →
      s'.broker.book = (book.record request response events).drain → Inv s' := by
    intro s' book request response events hc hsub hb hbook
    refine ⟨by rw [hbook]; rfl, hshared hc, fun account id h => ?_⟩
    rw [hbook] at h
    change ((book.record request response events).recorded account id).isSome at h
    rw [recorded_record] at h
    split_ifs at h with heq
    · rw [(Prod.mk.inj heq).2]
      exact hb
    · refine hs.named account id ?_
      unfold PaperOrderBook.recorded at h ⊢
      rwa [hsub] at h
  have hstep := submit_cases hs.drained a env
  generalize (s.submit a env).1 = s₁ at hstep
  generalize (s.submit a env).2 = res at hstep
  cases hstep with
  | raised _ hk hbook => exact hsame hk.config hbook
  | refused _ h => exact hsame h.config h.book
  | replayed _ _ _ _ _ h => exact hsame h.config h.book
  | rejected _ _ _ hb _ _ hcfg _ _ hbook => exact hnew hcfg rfl hb hbook
  | @filled s₂ _ price t _ _ hf hk hbook _ =>
    obtain ⟨h1, h2, -⟩ := settle_keeps s₂ a (s.resolveClientOrderId_ne a.clientOrderId) price t env
    refine hnew (h2.trans hk.config) ?_ ?_ (h1.trans hbook)
    · rfl
    · exact hf.notBlank

theorem inv_step {s : PaperTradingService} (hs : Inv s) (act : Action) : Inv (s.step act) := by
  cases act with
  | submit a env => exact inv_submit hs a env
  | setReferencePrice instrumentId reference =>
    refine ⟨hs.drained, ?_, hs.named⟩
    show Function.update s.referencePrices _ _ = Function.update s.broker.referencePrices _ _
    rw [hs.shared]
  | setConnected connected => exact ⟨hs.drained, hs.shared, hs.named⟩

/-! ### Cash and fills -/

/-- What a fill and an accepted outcome have in common. -/
structure Trade where
  clientOrderId : String
  orderId : UUID
  side : OrderSide
  instrumentId : UUID
  quantity : ℤ
  price : Option ℚ
deriving DecidableEq

def fillTrade (f : PaperFillRecord) : Trade :=
  ⟨f.clientOrderId, f.orderId, f.side, f.instrumentId, f.fillQuantity, some f.fillPrice⟩

def outcomeTrade (o : PaperFillOutcome) : Trade :=
  ⟨o.clientOrderId, o.orderId, o.side, o.instrumentId, o.quantity, o.fillPrice⟩

def acceptedOutcomes (s : PaperTradingService) : List PaperFillOutcome := s.outcomes.filter fun o => o.accepted

/-- The broker's fills for the account. -/
def accountFills (s : PaperTradingService) : List PaperFillRecord :=
  s.broker.book.fills.filter fun f => f.brokerAccountId = s.account.accountId

/-- Nothing is reserved, the cash is the starting cash and the net cash of the accepted outcomes, and the fills are
those of the accepted outcomes, one for each. -/
structure Balanced (start : ℚ) (s : PaperTradingService) : Prop where
  reserved : s.funds.reservedCash = 0
  cash : s.funds.availableCash = start + (s.acceptedOutcomes.map PaperFillOutcome.netCash).sum
  fills : s.accountFills.map fillTrade = s.acceptedOutcomes.map outcomeTrade

/-- A fill at this price can be settled: its costs can be computed, the effective price is positive, a sale brings
something after commission, the new balance is not rounded, and saving the funds does not raise. -/
structure Settles (s : PaperTradingService) (a : SubmitArgs) (env : CallEnv) (price : ℚ) (c : FillCosts) : Prop where
  costs : fillCosts s.costModel a.side price a.quantity = some c
  effective : 0 < c.effective
  proceeds : a.side = .sell → 0 < c.amount
  exact : Ctx.default.fix (s.funds.availableCash + netCash a.side c.amount) =
    s.funds.availableCash + netCash a.side c.amount
  saved : env.saveRaises = false

/-- Every fill that the broker makes in this step can be settled. -/
def Clean (s : PaperTradingService) : Action → Prop
  | .submit a env => ∀ price, Fills s a env price → ∃ c, Settles s a env price c
  | _ => True

/-- The check before a buy has seen the amount that is settled after it. -/
theorem amount_le_of_fills {s : PaperTradingService} (hs : Inv s) {a : SubmitArgs} {env : CallEnv} {price : ℚ}
    (hf : Fills s a env price) (hside : a.side = .buy) {c : FillCosts}
    (hc : fillCosts s.costModel .buy price a.quantity = some c) : c.amount ≤ s.funds.availableCash := by
  obtain ⟨ref, quantity, hp, hq, href, -, hdec⟩ := hf.decision
  have h := hf.affordable
  unfold fundsCheck canAfford at h
  have h1 : (s.callRequest a).side = .buy := hside
  have h2 : s.referencePrices (s.callRequest a).instrumentId = some ref := by rw [hs.shared]; exact href
  have h3 : fillCosts s.costModel .buy price (s.callRequest a).quantity = some c := hc
  simp only [h1, h2, hdec, h3, Except.ok.injEq, decide_eq_true_eq] at h
  exact h

/-- **A fill that can be settled is settled.** -/
theorem settle_of_settles {s s' : PaperTradingService} {a : SubmitArgs} (id : String) {env : CallEnv} {price : ℚ}
    {c : FillCosts} {t : DateTime} (hk : Kept s s') (hs : Settles s a env price c)
    (hres : s.funds.reservedCash = 0) (hle : a.side = .buy → c.amount ≤ s.funds.availableCash)
    (hq : 0 < a.quantity) (hp : 0 < price) (ht : t.aware = true) :
    ∃ g o, s'.settle a id price t env = ({ s' with funds := g, outcomes := s'.outcomes ++ [o] }, .ok o) ∧
      g.reservedCash = 0 ∧ g.availableCash = s.funds.availableCash + o.netCash ∧ o.accepted = true ∧
      outcomeTrade o = ⟨id, paperOrderId s.account.accountId id, a.side, a.instrumentId, a.quantity, some price⟩ := by
  have hmodel : s'.costModel = s.costModel := congrArg (fun x => x.2.1) hk.config
  have hacc : s'.account = s.account := congrArg (fun x => x.1) hk.config
  -- what follows the ledger is the same for both sides
  have hfinish : ∀ g : PaperFunds, ∀ o : PaperFillOutcome, o.accepted = true → o.occurredAt = t →
      o.fillPrice = some price → o.effectivePrice = some c.effective →
      { s' with funds := g }.finish o env = ({ s' with funds := g, outcomes := s'.outcomes ++ [o] }, .ok o) := by
    intro g o h1 h2 h3 h4
    have hpost : o.postInit = .ok () := by
      simp [PaperFillOutcome.postInit, isPositive, h1, h2, h3, h4, ht, hp, hs.effective]
    simp only [finish, hs.saved, Bool.false_eq_true, if_false, report, hpost]
  have hcost : fillCosts s'.costModel a.side price a.quantity = some c := by rw [hmodel]; exact hs.costs
  have hex := hs.exact
  unfold settle
  rw [hcost]
  simp only
  cases hside : a.side with
  | buy =>
    rw [hside] at hex hcost
    have hpos : 0 < c.amount := buy_amount_pos hcost hq hs.effective
    obtain ⟨g, hg, h1, h2⟩ := PaperFunds.reserve_settleBuy hres (digits_amount hs.costs) hpos (hle hside)
    simp only [hk.funds, hg]
    refine ⟨g, _, hfinish g _ rfl rfl rfl rfl, h2, ?_, rfl, ?_⟩
    · rw [h1, sub_eq_add_neg]
      exact hex
    · simp only [outcomeTrade, hacc]
  | sell =>
    rw [hside] at hex
    obtain ⟨g, hg, h1, h2⟩ := PaperFunds.creditSell_of_pos (f := s.funds) (hs.proceeds hside)
    simp only [hk.funds, hg]
    refine ⟨g, _, hfinish g _ rfl rfl rfl rfl, h2.trans hres, ?_, rfl, ?_⟩
    · rw [h1]
      exact hex
    · simp only [outcomeTrade, hacc]

/-- A call that reports at most a refusal and makes no fill keeps the balance. -/
theorem Balanced.of_refusal {start : ℚ} {s s' : PaperTradingService} (h : Balanced start s)
    (hfunds : s'.funds = s.funds) (hcfg : s'.config = s.config)
    (hfills : s'.broker.book.fills = s.broker.book.fills)
    (hout : s'.outcomes = s.outcomes ∨ ∃ o, s'.outcomes = s.outcomes ++ [o] ∧ Refusal o) : Balanced start s' := by
  have hacc : s'.account = s.account := congrArg (fun x => x.1) hcfg
  have hok : s'.acceptedOutcomes = s.acceptedOutcomes := by
    unfold acceptedOutcomes
    rcases hout with hout | ⟨o, hout, ho⟩
    · rw [hout]
    · rw [hout, List.filter_append, List.filter_singleton, ho.accepted]
      simp
  have hf : s'.accountFills = s.accountFills := by
    unfold accountFills
    rw [hfills, hacc]
  exact ⟨hfunds ▸ h.reserved, by rw [hfunds, hok]; exact h.cash, by rw [hf, hok]; exact h.fills⟩

theorem Balanced.of_refuses {start : ℚ} {s s' : PaperTradingService} {res : Except PaperError PaperFillOutcome}
    {now : DateTime} (h : Balanced start s) (hr : Refuses s s' res now) : Balanced start s' := by
  refine h.of_refusal hr.funds hr.config (congrArg _ hr.book) ?_
  rcases hr.reported with ⟨-, o, -, hout, ho⟩ | ⟨-, hout, -⟩
  · exact Or.inr ⟨o, hout, ho⟩
  · exact Or.inl hout

/-- The step keeps the balance, and a call that raises leaves funds and book as they are. -/
def KeepsBalance (start : ℚ) (s : PaperTradingService) (act : Action) : Prop :=
  Balanced start (s.step act) ∧
    match act with
    | .submit a env => ∀ err, (s.submit a env).2 = .error err →
        (s.submit a env).1.funds = s.funds ∧ (s.submit a env).1.broker.book = s.broker.book
    | _ => True

/-- **One call**: where the fill that it makes can be settled, it keeps the balance. -/
theorem keepsBalance_submit {start : ℚ} {s : PaperTradingService} (hs : Inv s) (hb : Balanced start s)
    (a : SubmitArgs) (env : CallEnv) (hc : Clean s (.submit a env)) : KeepsBalance start s (.submit a env) := by
  have hstep := submit_cases hs.drained a env
  unfold KeepsBalance
  show Balanced start (s.submit a env).1 ∧ ∀ err, (s.submit a env).2 = .error err →
    (s.submit a env).1.funds = s.funds ∧ (s.submit a env).1.broker.book = s.broker.book
  generalize (s.submit a env).1 = s₁ at hstep
  generalize (s.submit a env).2 = res at hstep
  cases hstep with
  | raised _ hk hbook =>
    exact ⟨hb.of_refusal hk.funds hk.config (congrArg _ hbook) (Or.inl hk.outcomes), fun _ _ => ⟨hk.funds, hbook⟩⟩
  | refused _ h => exact ⟨hb.of_refuses h, fun _ _ => ⟨h.funds, h.book⟩⟩
  | replayed _ _ _ _ _ h => exact ⟨hb.of_refuses h, fun _ _ => ⟨h.funds, h.book⟩⟩
  | @rejected _ o _ _ _ _ _ _ _ _ hfunds hcfg hout ho hbook =>
    exact ⟨hb.of_refusal hfunds hcfg (by rw [hbook]; rfl) (Or.inr ⟨o, hout, ho⟩), fun _ h => by cases h⟩
  | @filled s₂ stamp price t hp hq hf hk hbook ht =>
    obtain ⟨c, hset⟩ := hc price hf
    have hle : a.side = .buy → c.amount ≤ s.funds.availableCash := fun hside =>
      amount_le_of_fills hs hf hside (hside ▸ hset.costs)
    obtain ⟨g, o, hg, hres, hcash, hacc, htrade⟩ :=
      settle_of_settles (s.callId a) hk hset hb.reserved hle hf.quantity hp ht
    have haccount : s₂.account = s.account := congrArg (fun x => x.1) hk.config
    rw [hg]
    refine ⟨⟨hres, ?_, ?_⟩, fun _ h => by cases h⟩
    · simp only [acceptedOutcomes, hk.outcomes, List.filter_append, List.filter_singleton, hacc, cond_true,
        List.map_append, List.map_cons, List.map_nil, List.sum_append, List.sum_singleton]
      rw [hcash, hb.cash, acceptedOutcomes, add_assoc]
    · have hfills : s₂.broker.book.fills = s.broker.book.fills ++ [⟨s.broker.book.sequence, s.callId a,
          "paper-" ++ String.ofList (paperOrderId s.account.accountId (s.callId a)).hex,
          paperOrderId s.account.accountId (s.callId a), a.side, a.instrumentId, s.account.accountId, a.quantity, price,
          stamp, hq, hp⟩] := by
        rw [hbook]
        rfl
      have hold := hb.fills
      simp only [accountFills, acceptedOutcomes] at hold
      simp only [accountFills, acceptedOutcomes, haccount, hfills, hk.outcomes, List.filter_append,
        List.filter_singleton, hacc, cond_true, decide_true, List.map_append, List.map_cons, List.map_nil, hold, htrade,
        fillTrade]

/-- A new price or a new session of the broker changes neither cash nor fills. -/
theorem keepsBalance_step {start : ℚ} {s : PaperTradingService} (hs : Inv s) (hb : Balanced start s) (act : Action)
    (hc : Clean s act) : KeepsBalance start s act := by
  cases act with
  | submit a env => exact keepsBalance_submit hs hb a env hc
  | setReferencePrice instrumentId reference => exact ⟨⟨hb.reserved, hb.cash, hb.fills⟩, trivial⟩
  | setConnected connected => exact ⟨⟨hb.reserved, hb.cash, hb.fills⟩, trivial⟩

/-- What an accepted outcome of a settlement shows. -/
theorem of_settle_accepted {s s' s'' : PaperTradingService} {a : SubmitArgs} {id : String} {env : CallEnv} {price : ℚ}
    {t : DateTime} {o : PaperFillOutcome} (hk : Kept s s') (hres : s.funds.reservedCash = 0)
    (h : s'.settle a id price t env = (s'', .ok o)) (hacc : o.accepted = true) :
    ∃ c, fillCosts s.costModel a.side price a.quantity = some c ∧ 0 < c.effective ∧ (a.side = .sell → 0 < c.amount) ∧
      env.saveRaises = false ∧ s''.outcomes = s.outcomes ++ [o] ∧ o.netCash = netCash a.side c.amount ∧
      s''.funds.availableCash = Ctx.default.fix (s.funds.availableCash + netCash a.side c.amount) := by
  have hmodel : s'.costModel = s.costModel := congrArg (fun x => x.2.1) hk.config
  have hfinish : ∀ (g : PaperFunds) (o' : PaperFillOutcome) (effective : ℚ), o'.accepted = true →
      o'.effectivePrice = some effective → { s' with funds := g }.finish o' env = (s'', .ok o) →
      env.saveRaises = false ∧ 0 < effective ∧ o = o' ∧ s''.funds = g ∧ s''.outcomes = s.outcomes ++ [o] := by
    intro g o' effective h1 h2 h3
    unfold finish report at h3
    split_ifs at h3 with hsave
    · cases h3
    · cases hpost : o'.postInit with
      | error err => rw [hpost] at h3; cases h3
      | ok u =>
        rw [hpost] at h3
        cases h3
        refine ⟨Bool.eq_false_of_not_eq_true hsave, ?_, rfl, rfl, by simp only [hk.outcomes]⟩
        unfold PaperFillOutcome.postInit at hpost
        split_ifs at hpost with g1 g2 g3
        simpa [h1, h2, isPositive] using g3
  unfold settle at h
  rw [hk.funds] at h
  rw [← hmodel]
  cases hc : fillCosts s'.costModel a.side price a.quantity with
  | none => rw [hc] at h; cases h
  | some c =>
    rw [hc] at h
    simp only at h
    refine ⟨c, rfl, ?_⟩
    cases hside : a.side with
    | buy =>
      rw [hside] at h
      simp only at h
      cases hg : s.funds.reserve c.amount >>= fun f => f.settleBuy c.amount with
      | error text =>
        rw [hg] at h
        have hr := (refuses_rejectWithoutFill s' a (some id) text env.rejectNow).reported
        simp only at h
        rw [h] at hr
        rcases hr with ⟨-, o', ho', -, hr⟩ | ⟨-, -, err, herr⟩
        · cases ho'
          rw [hr.accepted] at hacc
          cases hacc
        · cases herr
      | ok g =>
        rw [hg] at h
        obtain ⟨hpos, hle⟩ := PaperFunds.bounds_of_reserve_settleBuy hg
        obtain ⟨g', hg', h1, -⟩ := PaperFunds.reserve_settleBuy hres (digits_amount hc) hpos hle
        cases hg.symm.trans hg'
        simp only at h
        obtain ⟨hsave, heff, rfl, hfunds, hout⟩ := hfinish g _ c.effective rfl rfl h
        refine ⟨heff, (fun h => by cases h), hsave, hout, rfl, ?_⟩
        rw [hfunds, h1, sub_eq_add_neg]
        rfl
    | sell =>
      rw [hside] at h
      simp only at h
      cases hg : s.funds.creditSell c.amount with
      | error text => rw [hg] at h; cases h
      | ok g =>
        rw [hg] at h
        have hpos := PaperFunds.pos_of_creditSell hg
        obtain ⟨g', hg', h1, -⟩ := PaperFunds.creditSell_of_pos (f := s.funds) hpos
        cases hg.symm.trans hg'
        simp only at h
        obtain ⟨hsave, heff, rfl, hfunds, hout⟩ := hfinish g _ c.effective rfl rfl h
        refine ⟨heff, fun _ => hpos, hsave, hout, rfl, ?_⟩
        rw [hfunds, h1]
        rfl

/-- A call that keeps the balance has settled the fill that it made. -/
theorem clean_of_keepsBalance {start : ℚ} {s : PaperTradingService} (hs : Inv s) (hb : Balanced start s)
    {a : SubmitArgs} {env : CallEnv} (h : KeepsBalance start s (.submit a env)) : Clean s (.submit a env) := by
  intro price hf
  obtain ⟨s', t, f, hk, hfills, hacct, -, hsub⟩ := submit_of_fills hs.drained hf
  obtain ⟨hbal, hraise⟩ := h
  have hid := s.resolveClientOrderId_ne a.clientOrderId
  obtain ⟨hbook, hcfg, hres⟩ := settle_keeps s' a hid price t env
  change Balanced start (s.submit a env).1 at hbal
  simp only at hraise
  rw [hsub] at hbal hraise
  generalize hx : s'.settle a (s.callId a) price t env = x at hbal hraise
  rw [show s'.settle a (s.resolveClientOrderId a.clientOrderId).2 price t env = x from hx] at hbook hcfg hres
  obtain ⟨s'', res⟩ := x
  simp only at hbal hraise hbook hcfg hres
  have haccount : s''.account = s.account := congrArg (fun x => x.1) (hcfg.trans hk.config)
  -- the book has one fill more than before
  have hmore : s''.accountFills = s.accountFills ++ [f] := by
    unfold accountFills
    rw [hbook, hfills, haccount, List.filter_append, List.filter_singleton]
    simp [hacct]
  cases res with
  | error err =>
    have hsame := congrArg PaperOrderBook.fills (hraise err rfl).2
    rw [hbook, hfills] at hsame
    simp at hsame
  | ok o =>
    have hout : s''.outcomes = s.outcomes ++ [o] := by
      rw [← hk.outcomes]
      exact (hres o rfl).1
    have hacc : o.accepted = true := by
      by_contra hacc
      have hno : o.accepted = false := Bool.eq_false_of_not_eq_true hacc
      have h1 := congrArg List.length hbal.fills
      have h2 := congrArg List.length hb.fills
      simp only [hmore, acceptedOutcomes, hout, List.filter_append, List.filter_singleton, hno, cond_false,
        List.length_map, List.length_append, List.length_nil, List.length_singleton] at h1 h2
      omega
    obtain ⟨c, hcost, heff, hpro, hsave, -, hnet, hcash⟩ := of_settle_accepted hk hb.reserved hx hacc
    refine ⟨c, hcost, heff, hpro, ?_, hsave⟩
    have h1 := hbal.cash
    simp only [acceptedOutcomes, hout, List.filter_append, List.filter_singleton, hacc, cond_true, List.map_append,
      List.map_cons, List.map_nil, List.sum_append, List.sum_singleton, hnet] at h1
    rw [← hcash, h1, hb.cash, acceptedOutcomes, add_assoc]

/-- **Cash and fills agree with the accepted outcomes after every call, and no call that raises has touched funds or
book, exactly in the runs in which each fill of the broker can be settled.** -/
theorem funds_match_fills_iff (account : PaperAccount) (costModel : PaperCostModel)
    (referencePrices : UUID → Option PaperReferencePrice) (connected : Bool) (restored : Option PaperFunds)
    (hrestored : ∀ f, restored = some f → f.reservedCash = 0) (l : List Action) :
    Along step (KeepsBalance (init account costModel referencePrices connected restored).funds.availableCash)
        (init account costModel referencePrices connected restored) l ↔
      Along step Clean (init account costModel referencePrices connected restored) l := by
  set s₀ := init account costModel referencePrices connected restored with hs₀
  have h0 : Inv s₀ ∧ Balanced s₀.funds.availableCash s₀ := by
    refine ⟨inv_init _ _ _ _ _, ?_, ?_, rfl⟩
    · cases restored with
      | none => rfl
      | some f => exact hrestored f rfl
    · simp [hs₀, acceptedOutcomes, init]
  constructor
  · intro hl
    refine Along.steps (I := fun s => Inv s ∧ Balanced s₀.funds.availableCash s) ?_ ?_ hl h0
    · exact fun s act hs h => ⟨inv_step hs.1 act, h.1⟩
    · intro s act hs h
      cases act with
      | submit a env => exact clean_of_keepsBalance hs.1 hs.2 h
      | setReferencePrice instrumentId reference => trivial
      | setConnected connected => trivial
  · intro hl
    refine Along.steps (I := fun s => Inv s ∧ Balanced s₀.funds.availableCash s) ?_ ?_ hl h0
    · exact fun s act hs hc => ⟨inv_step hs.1 act, (keepsBalance_step hs.1 hs.2 act hc).1⟩
    · exact fun s act hs hc => keepsBalance_step hs.1 hs.2 act hc

/-! ### A buy and a sale -/

/-- An instrument whose last price is `last`. -/
def quoted (last : ℚ) (h : 0 < last) : PaperReferencePrice where
  instrumentId := ⟨5⟩
  last := last
  last_pos := h
  bid_pos := fun _ h => by cases h
  ask_pos := fun _ h => by cases h
  bid_le_ask := fun _ _ h => by cases h
  last_within := fun _ _ h => by cases h

def sampleAccount : PaperAccount := ⟨⟨1⟩, ⟨2⟩, 1000, .active, by norm_num⟩

/-- A service with one instrument at 100. -/
def sampleService (costModel : PaperCostModel) : PaperTradingService :=
  init sampleAccount costModel (fun i => if i = ⟨5⟩ then some (quoted 100 (by norm_num)) else none) true none

/-- An order for one unit at the market. -/
def sampleOrder (side : OrderSide) : SubmitArgs where
  instrumentId := ⟨5⟩
  side := side
  quantity := 1
  clientOrderId := some "ORD-1"

def sampleEnv : CallEnv where
  brokerNow := ⟨2026, 3, 1, 9, 30, 0, 0, some 0⟩
  now := ⟨2026, 3, 1, 9, 30, 0, 0, some 0⟩
  rejectNow := ⟨2026, 3, 1, 9, 30, 0, 0, some 0⟩

/-- The order is filled at 100. -/
theorem fills_sampleOrder {costModel : PaperCostModel} (side : OrderSide)
    (h : (sampleService costModel).fundsCheck ((sampleService costModel).callRequest (sampleOrder side)) = .ok true) :
    Fills (sampleService costModel) (sampleOrder side) sampleEnv 100 := by
  have hid : (sampleService costModel).callId (sampleOrder side) = "ORD-1" :=
    congrArg Prod.snd (resolveClientOrderId_some _ (by decide))
  refine ⟨rfl, show (0 : ℤ) < 1 by decide, h, rfl, hid ▸ by decide, rfl, rfl, quoted 100 (by norm_num), 1,
    by norm_num, by norm_num, rfl, rfl, ?_⟩
  cases side <;> rfl

theorem fillCosts_sampleBuy : fillCosts {} .buy 100 1 = some ⟨100, 0, 100⟩ := by decide +kernel

/-- Without costs the buy is filled and can be settled. -/
theorem settles_sampleBuy : Fills (sampleService {}) (sampleOrder .buy) sampleEnv 100 ∧
    Settles (sampleService {}) (sampleOrder .buy) sampleEnv 100 ⟨100, 0, 100⟩ := by
  have hcheck : (sampleService {}).fundsCheck ((sampleService {}).callRequest (sampleOrder .buy)) = .ok true := by
    show (fillCosts {} .buy 100 1).elim (Except.error PaperError.invalidOperation)
      (fun c => .ok (decide (c.amount ≤ 1000))) = .ok true
    rw [fillCosts_sampleBuy]
    simp only [Option.elim_some, Except.ok.injEq, decide_eq_true_eq]
    norm_num
  have hexact : Ctx.default.fix (1000 + netCash .buy 100) = 1000 + netCash .buy 100 := by decide +kernel
  exact ⟨fills_sampleOrder .buy hcheck, fillCosts_sampleBuy, by norm_num, (fun h => by cases h), hexact, rfl⟩

theorem funds_match_fills_iff_buy :
    Fills (sampleService {}) (sampleOrder .buy) sampleEnv 100 ∧
      Along step (KeepsBalance 1000) (sampleService {}) [.submit (sampleOrder .buy) sampleEnv] := by
  obtain ⟨hf, hset⟩ := settles_sampleBuy
  refine ⟨hf, (funds_match_fills_iff sampleAccount {} _ true none (fun _ h => by cases h) _).mpr ⟨?_, trivial⟩⟩
  intro price hp
  obtain rfl := hf.price_eq hp
  exact ⟨_, hset⟩

/-- A fee of 500 for each trade. -/
def costlyModel : PaperCostModel where
  commission := .fixedPerTrade
  commissionPerTrade := 500
  bps_nonneg := no_slippage_nonneg

theorem not_balanced_sale :
    ∃ err, ((sampleService costlyModel).submit (sampleOrder .sell) sampleEnv).2 = .error err ∧
      ((sampleService costlyModel).submit (sampleOrder .sell) sampleEnv).1.accountFills.length = 1 ∧
      (sampleService costlyModel).accountFills = [] := by
  have hcost : fillCosts costlyModel .sell 100 1 = some ⟨100, 500, -400⟩ := by decide +kernel
  obtain ⟨s', t, f, hk, hfills, hacct, -, hsub⟩ :=
    submit_of_fills (s := sampleService costlyModel) rfl (fills_sampleOrder .sell rfl)
  have hmodel : s'.costModel = costlyModel := congrArg (fun x => x.2.1) hk.config
  have haccount : s'.account = sampleAccount := congrArg (fun x => x.1) hk.config
  have hset : s'.settle (sampleOrder .sell) ((sampleService costlyModel).callId (sampleOrder .sell)) 100 t sampleEnv =
      (s', .error (.valueError "sell proceeds must be positive")) := by
    unfold settle
    rw [hmodel, show fillCosts costlyModel (sampleOrder .sell).side 100 (sampleOrder .sell).quantity = _ from hcost]
    simp only [sampleOrder, PaperFunds.creditSell]
    rw [if_pos (by norm_num)]
  rw [hsub, hset]
  refine ⟨_, rfl, ?_, rfl⟩
  simp only [accountFills, hfills, haccount]
  simp [hacct, sampleService, init]

/-! ### The same order again -/

theorem inv_run (account : PaperAccount) (costModel : PaperCostModel)
    (referencePrices : UUID → Option PaperReferencePrice) (connected : Bool) (restored : Option PaperFunds)
    (l : List Action) : Inv (run step (init account costModel referencePrices connected restored) l) :=
  run_invariant step Inv (fun _ act hs => inv_step hs act) (inv_init account costModel referencePrices connected restored) l

/-- An outcome that is returned is accepted or a refusal. -/
theorem outcome_of_submit {s s' : PaperTradingService} (hs : Inv s) {a : SubmitArgs} {env : CallEnv}
    {o : PaperFillOutcome} (h : s.submit a env = (s', .ok o)) :
    o.clientOrderId ≠ "" ∧ (o.accepted = true ∨ Refusal o) := by
  have hrefuses : ∀ {s'' : PaperTradingService} {res : Except PaperError PaperFillOutcome},
      Refuses s s'' res env.now → res = .ok o → o.clientOrderId ≠ "" ∧ (o.accepted = true ∨ Refusal o) := by
    intro s'' res hr hres
    rcases hr.reported with ⟨-, o', ho', -, hr'⟩ | ⟨-, -, err, herr⟩
    · cases hres.symm.trans ho'
      exact ⟨hr'.named, Or.inr hr'⟩
    · cases hres.symm.trans herr
  have hstep := submit_cases hs.drained a env
  have hres : (s.submit a env).2 = .ok o := by rw [h]
  generalize (s.submit a env).1 = s₁ at hstep
  generalize (s.submit a env).2 = res at hstep hres
  cases hstep with
  | raised _ _ _ => cases hres
  | refused _ hr => exact hrefuses hr hres
  | replayed _ _ _ _ _ hr => exact hrefuses hr hres
  | rejected _ _ _ _ _ _ _ _ ho _ =>
    cases hres
    exact ⟨ho.named, Or.inr ho⟩
  | @filled s₂ _ price t _ _ _ _ _ _ =>
    obtain ⟨-, -, hset⟩ := settle_keeps s₂ a (s.resolveClientOrderId_ne a.clientOrderId) price t env
    exact (hset o hres).2

theorem active_of_submit {s s' : PaperTradingService} {a : SubmitArgs} {env : CallEnv} {o : PaperFillOutcome}
    (h : s.submit a env = (s', .ok o)) : s.account.status = .active := by
  by_contra hst
  unfold submit at h
  rw [if_pos hst] at h
  cases h

/-- No step changes the account. -/
theorem account_step {s : PaperTradingService} (hs : Inv s) (act : Action) : (s.step act).account = s.account := by
  cases act with
  | submit a env => exact congrArg (fun x => x.1) (config_submit hs.drained a env)
  | setReferencePrice instrumentId reference => rfl
  | setConnected connected => rfl

/-- The same order, under the client order id that it was given. -/
def again (a : SubmitArgs) (clientOrderId : String) : SubmitArgs := { a with clientOrderId := some clientOrderId }

/-- A repeated submission returns what the original one did and leaves funds, book and positions as they are. -/
structure Repeats (s s' : PaperTradingService) (o o' : PaperFillOutcome) : Prop where
  accepted : o'.accepted = o.accepted
  fillPrice : o'.fillPrice = o.fillPrice
  effectivePrice : o'.effectivePrice = o.effectivePrice
  commission : o'.commission = o.commission
  netCash : o'.netCash = o.netCash
  funds : s'.funds = s.funds
  book : s'.broker.book = s.broker.book
  positions : ∀ now, s'.broker.book.positions s'.account.accountId now =
    s.broker.book.positions s.account.accountId now

/-- The order is refused without touching the book: for its quantity, for lack of funds, or because the connected
broker has a record of it with the same payload. -/
def RefusedUntouched (s : PaperTradingService) (a : SubmitArgs) (clientOrderId : String) : Prop :=
  a.quantity ≤ 0 ∨ s.fundsCheck (s.requestOf a clientOrderId) = .ok false ∨
    (s.fundsCheck (s.requestOf a clientOrderId) = .ok true ∧ s.broker.connected = true ∧
      ∃ r, s.broker.book.recorded s.account.accountId clientOrderId = some r ∧
        PaperOrderBook.firstDifference r.request (s.requestOf a clientOrderId) = none)

/-- A call that returns and leaves the book as it is has refused the order without touching it. -/
theorem refused_of_submit {s s' : PaperTradingService} (hs : Inv s) {a : SubmitArgs} {env : CallEnv}
    {o : PaperFillOutcome} (h : s.submit a env = (s', .ok o)) (hbook : s'.broker.book = s.broker.book) :
    o.accepted = false ∧ env.now.aware = true ∧ RefusedUntouched s a (s.callId a) := by
  have hrefuses : ∀ {s'' : PaperTradingService} {res : Except PaperError PaperFillOutcome},
      Refuses s s'' res env.now → res = .ok o → o.accepted = false ∧ env.now.aware = true := by
    intro s'' res hr hres
    rcases hr.reported with ⟨hn, o', ho', -, hr'⟩ | ⟨-, -, err, herr⟩
    · cases hres.symm.trans ho'
      exact ⟨hr'.accepted, hn⟩
    · cases hres.symm.trans herr
  have hstep := submit_cases hs.drained a env
  have hres : (s.submit a env).2 = .ok o := by rw [h]
  have hsame : (s.submit a env).1.broker.book = s.broker.book := by rw [h]; exact hbook
  generalize (s.submit a env).1 = s₁ at hstep hsame
  generalize (s.submit a env).2 = res at hstep hres
  cases hstep with
  | raised _ _ _ => cases hres
  | refused why hr =>
    obtain ⟨h1, h2⟩ := hrefuses hr hres
    exact ⟨h1, h2, why.imp_right fun hc => Or.inl hc.2⟩
  | replayed _ hc hconn hr hd href =>
    obtain ⟨h1, h2⟩ := hrefuses href hres
    exact ⟨h1, h2, Or.inr (Or.inr ⟨hc, hconn, _, hr, hd⟩)⟩
  | rejected _ _ _ _ _ _ _ _ _ hb =>
    -- the rejection is recorded
    have := congrArg (fun b => b.submissions.length) (hb.symm.trans hsame)
    simp [PaperOrderBook.drain, PaperOrderBook.reject, PaperOrderBook.record] at this
  | @filled s₂ _ price t _ _ _ _ hb _ =>
    have hk := (settle_keeps s₂ a (s.resolveClientOrderId_ne a.clientOrderId) price t env).1
    have := congrArg (fun b => b.submissions.length) (hb.symm.trans (hk.symm.trans hsame))
    simp [PaperOrderBook.drain, PaperOrderBook.acceptAndFill, PaperOrderBook.record] at this

/-- An order that is refused without touching the book is refused by the call. -/
theorem submit_of_refused {s : PaperTradingService} (hs : Inv s) (hactive : s.account.status = .active)
    {a : SubmitArgs} {env : CallEnv} (hn : env.now.aware = true) (h : RefusedUntouched s a (s.callId a)) :
    ∃ s' o, s.submit a env = (s', .ok o) ∧ Refusal o ∧ s'.funds = s.funds ∧ s'.broker.book = s.broker.book := by
  have hrefuses : ∀ {s'' : PaperTradingService} {res : Except PaperError PaperFillOutcome},
      (s.submit a env).1 = s'' → (s.submit a env).2 = res → Refuses s s'' res env.now →
      ∃ s' o, s.submit a env = (s', .ok o) ∧ Refusal o ∧ s'.funds = s.funds ∧ s'.broker.book = s.broker.book := by
    intro s'' res h1 h2 hr
    rcases hr.reported with ⟨-, o, ho, -, hr'⟩ | ⟨hf, -⟩
    · exact ⟨s'', o, Prod.ext h1 (h2.trans ho), hr', hr.funds, hr.book⟩
    · rw [hn] at hf
      cases hf
  -- with a positive quantity and the funds there, the book has the record
  have hrecord : 0 < a.quantity → s.fundsCheck (s.callRequest a) = .ok true → s.broker.connected = true ∧
      ∃ r, s.broker.book.recorded s.account.accountId (s.callId a) = some r ∧
        PaperOrderBook.firstDifference r.request (s.callRequest a) = none := by
    intro hq hc
    rcases h with h | h | ⟨-, h⟩
    · exact absurd hq (not_lt.mpr h)
    · cases hc.symm.trans h
    · exact h
  have hstep := submit_cases hs.drained a env
  generalize h1 : (s.submit a env).1 = s₁ at hstep
  generalize h2 : (s.submit a env).2 = res at hstep
  cases hstep with
  | raised why _ _ =>
    rcases why with hst | ⟨hq, ⟨err, hc⟩ | ⟨hc, hb⟩⟩
    · exact absurd hactive hst
    · rcases h with h | h | ⟨h, -⟩
      · exact absurd hq (not_lt.mpr h)
      · cases hc.symm.trans h
      · cases hc.symm.trans h
    · obtain ⟨hconn, r, hr, hd⟩ := hrecord hq hc
      rcases hb with hb | ⟨err, hb⟩
      · cases hconn.symm.trans hb
      · have hname : blank (s.callId a) = false := hs.named s.account.accountId _ (by rw [hr]; rfl)
        cases (PaperOrderBook.submit_replay rfl hname hq rfl hr hd _ _).symm.trans hb
  | refused _ hr => exact hrefuses h1 h2 hr
  | replayed _ _ _ _ _ hr => exact hrefuses h1 h2 hr
  | rejected hq hc hr _ _ _ _ _ _ _ =>
    obtain ⟨-, r, hr', -⟩ := hrecord hq hc
    cases hr.symm.trans hr'
  | filled hf _ _ _ =>
    obtain ⟨-, r, hr', -⟩ := hrecord hf.quantity hf.affordable
    cases hf.new.symm.trans hr'

/-- **When an order that is submitted again has the original outcome and changes nothing**: the original was not
accepted, the clock is aware, and the order is refused without touching the book. -/
theorem resubmit_repeats_iff {account : PaperAccount} {costModel : PaperCostModel}
    {referencePrices : UUID → Option PaperReferencePrice} {connected : Bool} {restored : Option PaperFunds}
    {l₀ l : List Action} {a : SubmitArgs} {env₀ : CallEnv} {s₀ s₁ s : PaperTradingService} {o : PaperFillOutcome}
    (h₀ : s₀ = run step (init account costModel referencePrices connected restored) l₀)
    (h : s₀.submit a env₀ = (s₁, .ok o)) (hl : s = run step s₁ l) (env : CallEnv) :
    (∃ s' o', s.submit (again a o.clientOrderId) env = (s', .ok o') ∧ Repeats s s' o o') ↔
      o.accepted = false ∧ env.now.aware = true ∧ RefusedUntouched s a o.clientOrderId := by
  have hs₀ : Inv s₀ := h₀ ▸ inv_run _ _ _ _ _ _
  have hs₁ : Inv s₁ := by
    have := inv_submit hs₀ a env₀
    rwa [h] at this
  obtain ⟨hs, haccount⟩ : Inv s ∧ s.account = s₁.account := by
    rw [hl]
    refine run_invariant step (fun s => Inv s ∧ s.account = s₁.account) (fun s act hs => ?_) ⟨hs₁, rfl⟩ l
    exact ⟨inv_step hs.1 act, (account_step hs.1 act).trans hs.2⟩
  have hactive : s.account.status = .active := by
    have hacc : s₁.account = s₀.account := by
      have := congrArg (fun x => x.1) (config_submit hs₀.drained a env₀)
      rwa [h] at this
    rw [haccount, hacc]
    exact active_of_submit h
  obtain ⟨hid, ho⟩ := outcome_of_submit hs₀ h
  have hcall : s.callId (again a o.clientOrderId) = o.clientOrderId :=
    congrArg Prod.snd (s.resolveClientOrderId_some hid)
  constructor
  · rintro ⟨s', o', hsub, hrep⟩
    obtain ⟨h1, h2, h3⟩ := refused_of_submit hs hsub hrep.book
    rw [hcall] at h3
    exact ⟨hrep.accepted ▸ h1, h2, h3⟩
  · rintro ⟨hno, hn, href⟩
    obtain ⟨s', o', hsub, ho', hfunds, hbook⟩ :=
      submit_of_refused (a := again a o.clientOrderId) hs hactive hn (by rw [hcall]; exact href)
    have ho : Refusal o := ho.resolve_left fun hyes => by rw [hno] at hyes; cases hyes
    have hacc : s'.account = s.account := by
      have := congrArg (fun x => x.1) (config_submit hs.drained (again a o.clientOrderId) env)
      rwa [hsub] at this
    exact ⟨s', o', hsub, ho'.accepted.trans ho.accepted.symm, ho'.fillPrice.trans ho.fillPrice.symm,
      ho'.effectivePrice.trans ho.effectivePrice.symm, ho'.commission.trans ho.commission.symm,
      ho'.netCash.trans ho.netCash.symm, hfunds, hbook, fun now => by rw [hbook, hacc]⟩

/-- An order for more than the account can pay. -/
def largeOrder : SubmitArgs := { sampleOrder .buy with quantity := 11 }

/-- The order is refused for lack of funds where its costs exceed them. -/
theorem fundsCheck_largeOrder (s : PaperTradingService) {last : ℚ} (hlast : 0 < last) {costs : FillCosts}
    (hmodel : s.costModel = {}) (hprice : s.referencePrices ⟨5⟩ = some (quoted last hlast))
    (hcosts : fillCosts {} .buy last 11 = some costs) (hfunds : s.funds.availableCash < costs.amount)
    (clientOrderId : String) : s.fundsCheck (s.requestOf largeOrder clientOrderId) = .ok false := by
  have hfill : decideFill (s.requestOf largeOrder clientOrderId) (quoted last hlast) =
      .ok (.fills last 11 hlast (by norm_num)) := rfl
  have hcheck : s.fundsCheck (s.requestOf largeOrder clientOrderId) =
      s.canAfford (s.requestOf largeOrder clientOrderId) (quoted last hlast) := by
    unfold fundsCheck
    rw [show (s.requestOf largeOrder clientOrderId).instrumentId = ⟨5⟩ from rfl, hprice]
    rfl
  have hquantity : (s.requestOf largeOrder clientOrderId).quantity = 11 := rfl
  rw [hcheck, canAfford, hfill, hquantity, hmodel]
  dsimp only
  rw [hcosts]
  exact congrArg Except.ok (decide_eq_false (not_le.mpr hfunds))

theorem fillCosts_largeOrder : fillCosts {} .buy 100 11 = some ⟨100, 0, 1100⟩ ∧
    fillCosts {} .buy 150 11 = some ⟨150, 0, 1650⟩ := by decide +kernel

/-- The price rises between the two submissions. -/
def priceRise : List Action := [.setReferencePrice ⟨5⟩ (quoted 150 (by norm_num))]

theorem resubmit_repeats_iff_refused : ∃ s₁ o, (sampleService {}).submit largeOrder sampleEnv = (s₁, .ok o) ∧
    ∃ s' o', (run step s₁ priceRise).submit (again largeOrder o.clientOrderId) sampleEnv = (s', .ok o') ∧
      Repeats (run step s₁ priceRise) s' o o' := by
  have hinv : Inv (sampleService {}) := inv_init _ _ _ _ _
  have hshort : (sampleService {}).fundsCheck ((sampleService {}).requestOf largeOrder
      ((sampleService {}).callId largeOrder)) = .ok false :=
    fundsCheck_largeOrder _ _ rfl rfl fillCosts_largeOrder.1 (by decide +kernel) _
  obtain ⟨s₁, o, hsub, ho, hfunds, -⟩ := submit_of_refused (a := largeOrder) hinv rfl
    (show sampleEnv.now.aware = true from rfl) (Or.inr (Or.inl hshort))
  have hstart : sampleService {} =
    run step (init sampleAccount {} (sampleService {}).referencePrices true none) [] := rfl
  have hmodel : s₁.costModel = {} := by
    have := congrArg (fun x => x.2.1) (config_submit hinv.drained largeOrder sampleEnv)
    rwa [hsub] at this
  have hlater : (run step s₁ priceRise).fundsCheck ((run step s₁ priceRise).requestOf largeOrder o.clientOrderId) =
      .ok false := by
    have hprice : (run step s₁ priceRise).referencePrices ⟨5⟩ = some (quoted 150 (by norm_num)) := by
      show Function.update s₁.referencePrices ⟨5⟩ (some (quoted 150 (by norm_num))) ⟨5⟩ = _
      exact Function.update_self ..
    refine fundsCheck_largeOrder (run step s₁ priceRise) _ hmodel hprice fillCosts_largeOrder.2 ?_ _
    show s₁.funds.availableCash < 1650
    rw [hfunds]
    decide +kernel
  exact ⟨s₁, o, hsub, (resubmit_repeats_iff hstart hsub rfl sampleEnv).mpr
    ⟨ho.accepted, rfl, Or.inr (Or.inl hlater)⟩⟩

theorem not_repeats_accepted : ∃ s₁ o, (sampleService {}).submit (sampleOrder .buy) sampleEnv = (s₁, .ok o) ∧
    o.accepted = true ∧ ¬ ∃ s' o', s₁.submit (again (sampleOrder .buy) o.clientOrderId) sampleEnv = (s', .ok o') ∧
      Repeats s₁ s' o o' := by
  obtain ⟨hf, hset⟩ := settles_sampleBuy
  have hinv : Inv (sampleService {}) := inv_init _ _ _ _ _
  obtain ⟨s', t, f, hk, -, -, ht, hsub⟩ := submit_of_fills hinv.drained hf
  obtain ⟨g, o, hg, -, -, hacc, -⟩ := settle_of_settles ((sampleService {}).callId (sampleOrder .buy)) hk hset rfl
    (fun _ => amount_le_of_fills hinv hf rfl fillCosts_sampleBuy) hf.quantity (by norm_num) ht
  have hsub := hsub.trans hg
  refine ⟨_, o, hsub, hacc, ?_⟩
  rintro ⟨s'', o', hagain, hrep⟩
  have hinv₁ := inv_submit hinv (sampleOrder .buy) sampleEnv
  rw [hsub] at hinv₁
  have hno := (refused_of_submit hinv₁ hagain hrep.book).1
  rw [hrep.accepted, hacc] at hno
  cases hno

end AlphaAlgo.Paper.PaperTradingService
