import AlphaAlgo.Lib.Keyset
import AlphaAlgo.Market.Contracts

/-!
# Historical — paged retrieval of candles and ticks

`fetch_candles` and `fetch_ticks` ask a provider for one page after another: the start of a request is exclusive, its
end inclusive, and the next start is the time of the last item received.  A request that fails on the connection is
repeated.  Both functions are `fetch`, at the items and times of their own.

* `retryAwaitable_ok`: a request whose failures are transient is answered.
* `fetch_iff`: the first `max_candles` items in time order are returned exactly where no page boundary parts items of
  one time.
-/

namespace AlphaAlgo.Market

open Keyset
open Backtest (CandleTimeframe)

/-! ### Requests -/

/-- What an attempt of a request raises: an error worth another attempt, or any other. -/
inductive Fault where
  | retryable (error : String)
  | other (error : String)
  deriving DecidableEq

inductive HistoricalFailure where
  | valueError (error : String)
  | historicalData (error : String)
  | provider (error : String)
  deriving DecidableEq

/-- The series asked for; a request for ticks has no timeframe. -/
structure SeriesKey where
  instrumentId : UUID
  exchange : String
  symbol : String
  timeframe : Option CandleTimeframe

structure HistoricalRequest where
  series : SeriesKey
  start : Stamp
  stop : Stamp
  limit : ℕ

/-- `_retry_awaitable` from an attempt on. -/
def retryAwaitable {β : Type} (attempts : ℕ) (call : ℕ → Except Fault β) : List ℕ → Except HistoricalFailure β
  | [] => .error (.historicalData ("historical fetch failed after " ++ toString attempts ++ " attempts"))
  | attempt :: rest =>
    match call attempt with
    | .ok result => .ok result
    | .error (.retryable _) => retryAwaitable attempts call rest
    | .error (.other error) => .error (.provider error)

/-- A provider's answer to an attempt of the request for a page. -/
abbrev Provider (α : Type) := ℕ → ℕ → HistoricalRequest → Except Fault (List α)

structure HistoricalDataClient where
  maxCandles : ℕ := 10000
  pageSize : ℕ := 1000
  retryAttempts : ℤ := 3

/-- `range(1, attempts + 1)`, where at least one attempt is made. -/
def HistoricalDataClient.attempts (client : HistoricalDataClient) : List ℕ :=
  List.range' 1 (max 1 client.retryAttempts).toNat

section Fetch

variable {α : Type} (time : α → Stamp) (client : HistoricalDataClient) (provider : Provider α)

/-- The items compare by the instant of their time. -/
abbrev instantOf (a : α) : ℤ := (time a).instant

/-- A page, asked for until it is answered. -/
def fetchPage (series : SeriesKey) (stop : Stamp) (page : ℕ) (cursor : Stamp) : Except HistoricalFailure (List α) :=
  retryAwaitable (max 1 client.retryAttempts).toNat
    (fun attempt => provider page attempt ⟨series, cursor, stop, client.pageSize⟩) client.attempts

/-- The loop over the pages, with the items received so far. -/
def fetchLoop (series : SeriesKey) (stop : Stamp) (page : ℕ) (items : List α) (cursor : Stamp) :
    Except HistoricalFailure (List α) :=
  if items.length < client.maxCandles then
    match fetchPage client provider series stop page cursor with
    | .error error => .error error
    | .ok batch =>
      match _hlast : (sortBy (instantOf time) batch).getLast? with
      | none => .ok (items.take client.maxCandles)
      | some last =>
        if (time last).instant ≤ cursor.instant then
          .ok ((items ++ sortBy (instantOf time) batch).take client.maxCandles)
        else fetchLoop series stop (page + 1) (items ++ sortBy (instantOf time) batch) (time last)
  else .ok (items.take client.maxCandles)
termination_by client.maxCandles - items.length
decreasing_by
  have hpos : 0 < (sortBy (instantOf time) batch).length := List.length_pos_of_mem (List.mem_of_getLast? _hlast)
  rw [List.length_append]
  omega

def fetch (series : SeriesKey) (start stop : Stamp) : Except HistoricalFailure (List α) :=
  if stop.instant ≤ start.instant then .error (.valueError "end must be after start")
  else fetchLoop time client provider series stop 0 [] start

end Fetch

def fetchCandles (client : HistoricalDataClient) (provider : Provider MarketCandle) (instrumentId : UUID)
    (exchange symbol : String) (timeframe : CandleTimeframe) (start stop : Stamp) :
    Except HistoricalFailure (List MarketCandle) :=
  fetch MarketCandle.candleStart client provider ⟨instrumentId, exchange, symbol, some timeframe⟩ start stop

def fetchTicks (client : HistoricalDataClient) (provider : Provider MarketTick) (instrumentId : UUID)
    (exchange symbol : String) (start stop : Stamp) : Except HistoricalFailure (List MarketTick) :=
  fetch MarketTick.timestamp client provider ⟨instrumentId, exchange, symbol, none⟩ start stop

/-! ### The keyset contract -/

section Contract

variable {α : Type} (time : α → Stamp)

/-- The items of a history in `(start, stop]`, in time order. -/
def matching (history : List α) (start stop : Stamp) : List α :=
  sortBy (instantOf time)
    (history.filter fun a => start.instant < (time a).instant && (time a).instant ≤ stop.instant)

/-- A provider that holds a history: an attempt fails as `faults` says, or is answered with the first items. -/
def keysetProvider (history : List α) (faults : ℕ → ℕ → Option Fault) : Provider α := fun page attempt request =>
  match faults page attempt with
  | some fault => .error fault
  | none => .ok ((matching time history request.start request.stop).take request.limit)

/-- Every page is answered in time: after retryable failures only, and within the attempts of the client. -/
def Answering (client : HistoricalDataClient) (faults : ℕ → ℕ → Option Fault) : Prop :=
  ∀ page, ∃ attempt ∈ client.attempts, faults page attempt = none ∧
    ∀ earlier < attempt, ∀ fault, faults page earlier = some fault → ∃ error, fault = .retryable error

/-! ### Retries -/

variable (history : List α) {client : HistoricalDataClient} {faults : ℕ → ℕ → Option Fault}

theorem retryAwaitable_ok {β : Type} {attempts : ℕ} {call : ℕ → Except Fault β} {result : β} (n start : ℕ)
    {attempt : ℕ} (hattempt : attempt ∈ List.range' start n) (hok : call attempt = .ok result)
    (hbefore : ∀ earlier < attempt, ∀ fault, call earlier = .error fault → ∃ error, fault = .retryable error)
    (hsame : ∀ earlier, ∀ other, call earlier = .ok other → other = result) :
    retryAwaitable attempts call (List.range' start n) = .ok result := by
  induction n generalizing start with
  | zero => simp at hattempt
  | succ n ih =>
    rw [List.range'_succ] at hattempt ⊢
    rw [retryAwaitable]
    cases hcall : call start with
    | ok other => rw [hsame start other hcall]
    | error fault =>
      rcases List.mem_cons.mp hattempt with rfl | hlater
      · rw [hok] at hcall
        cases hcall
      · have hlt : start < attempt := by
          have hmem := List.mem_range'_1.mp hlater
          omega
        obtain ⟨error, rfl⟩ := hbefore start hlt fault hcall
        exact ih (start + 1) hlater

/-- A page of a provider that answers in time. -/
theorem fetchPage_eq (h : Answering client faults) (series : SeriesKey) (stop : Stamp) (page : ℕ) (cursor : Stamp) :
    fetchPage client (keysetProvider time history faults) series stop page cursor =
      .ok ((matching time history cursor stop).take client.pageSize) := by
  obtain ⟨attempt, hattempt, hnone, hbefore⟩ := h page
  refine retryAwaitable_ok _ _ hattempt (by simp [keysetProvider, hnone]) (fun earlier hlt fault hfault => ?_) ?_
  · unfold keysetProvider at hfault
    split at hfault
    · next f hf =>
      cases hfault
      exact hbefore earlier hlt fault hf
    · cases hfault
  · intro earlier other hother
    unfold keysetProvider at hother
    split at hother
    · cases hother
    · cases hother
      rfl

/-! ### The pages of a series -/

theorem sorted_matching (start stop : Stamp) :
    Sorted (instantOf time) (matching time history start stop) :=
  sorted_sortBy _ _

/-- What is held after a cursor within the period. -/
theorem matching_eq_after {start cursor : Stamp} (stop : Stamp) (h : start.instant ≤ cursor.instant) :
    matching time history cursor stop = after (instantOf time) cursor.instant (matching time history start stop) := by
  rw [after, matching, matching, filter_sortBy, List.filter_filter]
  refine congrArg (sortBy (instantOf time)) (List.filter_congr fun a _ => ?_)
  by_cases ha : cursor.instant < (time a).instant
  · simp [ha, h.trans_lt ha]
  · simp [ha]

/-- The loop after the page that follows a cursor. -/
theorem fetchLoop_eq (h : Answering client faults) (series : SeriesKey) {start cursor : Stamp} (stop : Stamp) (page : ℕ)
    (items : List α) (hcursor : start.instant ≤ cursor.instant) (hlen : items.length < client.maxCandles) :
    fetchLoop time client (keysetProvider time history faults) series stop page items cursor =
      match (((after (instantOf time) cursor.instant (matching time history start stop)).take client.pageSize).getLast?) with
      | none => .ok (items.take client.maxCandles)
      | some last =>
        fetchLoop time client (keysetProvider time history faults) series stop (page + 1)
          (items ++ (after (instantOf time) cursor.instant (matching time history start stop)).take client.pageSize)
          (time last) := by
  have hbatch := fetchPage_eq time history h series stop page cursor
  rw [matching_eq_after time history stop hcursor] at hbatch
  have hsorted : Sorted (instantOf time)
      ((after (instantOf time) cursor.instant (matching time history start stop)).take client.pageSize) :=
    (sorted_after (sorted_matching time history start stop)).sublist (List.take_sublist _ _)
  rw [fetchLoop, if_pos hlen, hbatch]
  dsimp only
  rw [sortBy_eq_self _ hsorted]
  split
  · next hlast => rw [hlast]
  · next last hlast =>
    have hmem := mem_after.mp (List.mem_of_mem_take (List.mem_of_getLast? hlast))
    rw [hlast, if_neg (not_le.mpr hmem.2)]

/-- Whatever the loop still adds comes after its cursor. -/
theorem fetchLoop_tail (h : Answering client faults) (series : SeriesKey) {start : Stamp} (stop : Stamp) (page : ℕ)
    (items : List α) {cursor : Stamp} (hcursor : start.instant ≤ cursor.instant) :
    ∃ more, fetchLoop time client (keysetProvider time history faults) series stop page items cursor =
        .ok ((items ++ more).take client.maxCandles) ∧ ∀ a ∈ more, cursor.instant < (time a).instant := by
  induction hn : client.maxCandles - items.length using Nat.strong_induction_on generalizing page items cursor with
  | _ n ih =>
    by_cases hlen : items.length < client.maxCandles
    · rw [fetchLoop_eq time history h series stop page items hcursor hlen]
      have hpage : ∀ a ∈ (after (instantOf time) cursor.instant (matching time history start stop)).take client.pageSize,
          cursor.instant < (time a).instant := fun a ha => (mem_after.mp (List.mem_of_mem_take ha)).2
      generalize (after (instantOf time) cursor.instant (matching time history start stop)).take client.pageSize = batch
        at hpage
      cases hlast : batch.getLast? with
      | none => exact ⟨[], by simp, by simp⟩
      | some last =>
        have hlt := hpage last (List.mem_of_getLast? hlast)
        have hpos : 0 < batch.length := List.length_pos_of_mem (List.mem_of_getLast? hlast)
        obtain ⟨more, hmore, hafter⟩ := ih (client.maxCandles - (items ++ batch).length)
          (by rw [List.length_append]; omega) (page + 1) (items ++ batch) (hcursor.trans hlt.le) rfl
        refine ⟨batch ++ more, by rw [← List.append_assoc]; exact hmore, fun a ha => ?_⟩
        rcases List.mem_append.mp ha with ha | ha
        · exact hpage a ha
        · exact hlt.trans (hafter a ha)
    · rw [fetchLoop, if_neg hlen]
      exact ⟨[], by simp, by simp⟩

/-- An item that is not after the cursor is passed over. -/
theorem fetchLoop_ne (h : Answering client faults) (series : SeriesKey) {start : Stamp} (stop : Stamp) (page : ℕ)
    {items l : List α} {cursor : Stamp} (hcursor : start.instant ≤ cursor.instant) {c : α}
    (hc : l[items.length]? = some c) (hmax : items.length < client.maxCandles)
    (hpassed : (time c).instant ≤ cursor.instant) :
    fetchLoop time client (keysetProvider time history faults) series stop page items cursor ≠
      .ok (l.take client.maxCandles) := by
  intro heq
  obtain ⟨more, hmore, hafter⟩ := fetchLoop_tail time history h series stop page items hcursor
  rw [hmore] at heq
  have hindex := congrArg (fun l : List α => l[items.length]?) (Except.ok.inj heq)
  simp only [List.getElem?_take, if_pos hmax] at hindex
  rw [List.getElem?_append_right le_rfl, Nat.sub_self, hc] at hindex
  exact (hafter c (List.mem_of_getElem? hindex)).not_ge hpassed

/-- **The loop from a cursor on** returns the first items exactly where the page boundaries after the cursor separate
times. -/
theorem fetchLoop_iff (h : Answering client faults) (hp : 0 < client.pageSize) (series : SeriesKey) {start : Stamp}
    (stop : Stamp) (page : ℕ) (items : List α) {cursor : Stamp} (hcursor : start.instant ≤ cursor.instant) :
    fetchLoop time client (keysetProvider time history faults) series stop page items cursor =
        .ok ((items ++ after (instantOf time) cursor.instant (matching time history start stop)).take client.maxCandles) ↔
      Separated (instantOf time) client.pageSize (client.maxCandles - items.length)
        (after (instantOf time) cursor.instant (matching time history start stop)) := by
  induction hn : client.maxCandles - items.length using Nat.strong_induction_on generalizing page items cursor with
  | _ n ih =>
    subst hn
    by_cases hlen : items.length < client.maxCandles
    swap
    · rw [fetchLoop, if_neg hlen, List.take_append_of_le_length (not_lt.mp hlen)]
      exact iff_of_true rfl (separated_of_le (by omega) _)
    have hsorted := sorted_after (c := cursor.instant) (sorted_matching time history start stop)
    have hlater : ∀ c, cursor.instant ≤ c →
        after (instantOf time) c (after (instantOf time) cursor.instant (matching time history start stop)) =
          after (instantOf time) c (matching time history start stop) := fun c hc => after_after hc _
    have hin : ∀ a ∈ after (instantOf time) cursor.instant (matching time history start stop),
        cursor.instant < (time a).instant := fun a ha => (mem_after.mp ha).2
    rw [fetchLoop_eq time history h series stop page items hcursor hlen]
    generalize after (instantOf time) cursor.instant (matching time history start stop) = rest at hsorted hlater hin
    cases hlast : (rest.take client.pageSize).getLast? with
    | none =>
      have hnil : rest = [] := by
        rcases List.take_eq_nil_iff.mp (List.getLast?_eq_none_iff.mp hlast) with hzero | hnil
        · omega
        · exact hnil
      subst hnil
      exact iff_of_true (by simp) (separated_of_length_le (Nat.zero_le _))
    | some last =>
      dsimp only
      have hlt := hin last (List.mem_of_mem_take (List.mem_of_getLast? hlast))
      have hpos : 0 < (rest.take client.pageSize).length := List.length_pos_of_mem (List.mem_of_getLast? hlast)
      have hnext := ih (client.maxCandles - (items ++ rest.take client.pageSize).length)
        (by rw [List.length_append]; omega) (page + 1) (items ++ rest.take client.pageSize) (hcursor.trans hlt.le) rfl
      rw [← hlater _ hlt.le] at hnext
      by_cases hshort : rest.length ≤ client.pageSize
      · -- the last page
        rw [List.take_of_length_le hshort] at hlast hnext ⊢
        rw [after_getLast hsorted hlast, List.append_nil] at hnext
        exact iff_of_true (hnext.mpr (separated_of_length_le (Nat.zero_le _))) (separated_of_length_le hshort)
      have hfull : (rest.take client.pageSize).length = client.pageSize := by
        rw [List.length_take]
        omega
      have hsplit : items ++ rest = items ++ rest.take client.pageSize ++ rest.drop client.pageSize := by
        rw [List.append_assoc, List.take_append_drop]
      by_cases hr : client.maxCandles - items.length ≤ client.pageSize
      · -- the page reaches the maximum
        have hreached : client.maxCandles ≤ (items ++ rest.take client.pageSize).length := by
          rw [List.length_append, hfull]
          omega
        rw [fetchLoop, if_neg (not_lt.mpr hreached), hsplit, List.take_append_of_le_length hreached]
        exact iff_of_true rfl (separated_of_le hr _)
      have hlast' : rest[client.pageSize - 1]? = some last := by
        have hget := hlast
        rw [List.getLast?_take, if_neg hp.ne', List.getElem?_eq_getElem (by omega), Option.some_or] at hget
        rw [List.getElem?_eq_getElem (by omega), hget]
      rw [separated_iff hp (by omega)]
      by_cases hboundary : ∀ c, rest[client.pageSize]? = some c → (time last).instant < (time c).instant
      · rw [after_take hsorted hlast hboundary, ← hsplit, List.length_append, hfull, ← Nat.sub_sub] at hnext
        rw [hnext]
        refine ⟨fun hrest => ⟨fun a b ha hb => ?_, hrest⟩, fun hboth => hboth.2⟩
        rw [hlast'] at ha
        cases ha
        exact hboundary b hb
      · obtain ⟨c, hc, hsame⟩ : ∃ c, rest[client.pageSize]? = some c ∧ (time c).instant ≤ (time last).instant := by
          by_contra hnone
          exact hboundary fun c hc => not_le.mp fun hle => hnone ⟨c, hc, hle⟩
        refine iff_of_false ?_ fun hboth => (hboth.1 last c hlast' hc).not_ge hsame
        have hindex : (items ++ rest)[(items ++ rest.take client.pageSize).length]? = some c := by
          rw [List.length_append, hfull, List.getElem?_append_right (Nat.le_add_right _ _), Nat.add_sub_cancel_left, hc]
        exact fetchLoop_ne time history h series stop (page + 1) (hcursor.trans hlt.le) hindex
          (by rw [List.length_append, hfull]; omega) hsame

/-- **A fetch** returns the first `max_candles` items of the period in time order exactly where no page boundary parts
items of one time. -/
theorem fetch_iff (h : Answering client faults) (hp : 0 < client.pageSize) (series : SeriesKey) {start stop : Stamp}
    (hperiod : start.instant < stop.instant) :
    fetch time client (keysetProvider time history faults) series start stop =
        .ok ((matching time history start stop).take client.maxCandles) ↔
      Separated (instantOf time) client.pageSize client.maxCandles (matching time history start stop) := by
  have hall : after (instantOf time) start.instant (matching time history start stop) =
      matching time history start stop := (matching_eq_after time history stop le_rfl).symm
  have hloop := fetchLoop_iff time history h hp series stop 0 [] (le_refl start.instant)
  rw [hall] at hloop
  rw [fetch, if_neg (not_le.mpr hperiod)]
  exact hloop

end Contract

/-- **`fetch_candles` and `fetch_ticks`** return the first `max_candles` items of `(start, end]` in time order, exactly
where no page boundary parts items of one time. -/
theorem fetchCandles_fetchTicks_iff {client : HistoricalDataClient} {faults : ℕ → ℕ → Option Fault}
    (h : Answering client faults) (hp : 0 < client.pageSize) {start stop : Stamp} (hperiod : start.instant < stop.instant)
    (candles : List MarketCandle) (ticks : List MarketTick) (instrumentId : UUID) (exchange symbol : String)
    (timeframe : CandleTimeframe) :
    (fetchCandles client (keysetProvider MarketCandle.candleStart candles faults) instrumentId exchange symbol timeframe
          start stop = .ok ((matching MarketCandle.candleStart candles start stop).take client.maxCandles) ↔
        Separated (instantOf MarketCandle.candleStart) client.pageSize client.maxCandles
          (matching MarketCandle.candleStart candles start stop)) ∧
      (fetchTicks client (keysetProvider MarketTick.timestamp ticks faults) instrumentId exchange symbol start stop =
          .ok ((matching MarketTick.timestamp ticks start stop).take client.maxCandles) ↔
        Separated (instantOf MarketTick.timestamp) client.pageSize client.maxCandles
          (matching MarketTick.timestamp ticks start stop)) :=
  ⟨fetch_iff MarketCandle.candleStart candles h hp _ hperiod, fetch_iff MarketTick.timestamp ticks h hp _ hperiod⟩

/-! ### Samples -/

/-- A second of the first minute of trading. -/
def sampleStamp (second : ℕ) : Stamp := ⟨⟨2026, 8, 12, 9, 15, second, 0, some 0⟩, rfl⟩

/-- A tick of a price, by its time and its number. -/
def sampleTick (second : ℕ) (sequence : Text 150) : MarketTick where
  instrumentId := ⟨7⟩
  exchange := ⟨"NSE", nse_within⟩
  symbol := ⟨"TCS", by decide⟩
  timestamp := sampleStamp second
  ltp := ⟨⟨false, 100, 0⟩, by norm_num [Dec.val]⟩
  sourceBroker := ⟨"UPSTOX", by decide⟩
  sourceSequence := sequence
  receivedAt := sampleStamp second

/-- Two ticks of one second. -/
def twoTicks : List MarketTick := [sampleTick 1 ⟨"1", one_within⟩, sampleTick 1 ⟨"2", by decide⟩]

theorem answering_at_once (client : HistoricalDataClient) : Answering client fun _ _ => none := by
  refine fun page => ⟨1, ?_, rfl, fun earlier _ fault h => by cases h⟩
  rw [HistoricalDataClient.attempts, List.mem_range'_1]
  omega

/-- They come after a later one in the history. -/
def threeTicks : List MarketTick := sampleTick 2 ⟨"3", by decide⟩ :: twoTicks

/-- The connection is lost at the first attempt of the second page. -/
def lostOnce (page attempt : ℕ) : Option Fault :=
  if page = 1 ∧ attempt = 1 then some (.retryable "connection reset") else none

theorem answering_lostOnce : Answering { pageSize := 2 } lostOnce := by
  intro page
  refine ⟨2, by decide, if_neg (fun h => absurd h.2 (by decide)), fun earlier _ fault h => ?_⟩
  unfold lostOnce at h
  split_ifs at h
  cases h
  exact ⟨_, rfl⟩

theorem fetchCandles_fetchTicks_pages :
    fetchTicks { pageSize := 2 } (keysetProvider MarketTick.timestamp threeTicks lostOnce) ⟨7⟩ "NSE" "TCS"
        (sampleStamp 0) (sampleStamp 2) =
      .ok ((matching MarketTick.timestamp threeTicks (sampleStamp 0) (sampleStamp 2)).take 10000) := by
  have hsorted : matching MarketTick.timestamp threeTicks (sampleStamp 0) (sampleStamp 2) =
      [sampleTick 1 ⟨"1", by decide⟩, sampleTick 1 ⟨"2", by decide⟩, sampleTick 2 ⟨"3", by decide⟩] := by decide +kernel
  refine (fetchCandles_fetchTicks_iff answering_lostOnce (by decide) (by decide) [] threeTicks ⟨7⟩ "NSE" "TCS"
    .oneMinute).2.mpr ?_
  rw [hsorted]
  refine (separated_iff (by decide) (by decide)).mpr ⟨fun a b ha hb => ?_, separated_of_length_le (by decide)⟩
  cases ha
  cases hb
  decide

/-- With pages of one item the second tick is missing. -/
theorem fetchTicks_passes_over :
    fetchTicks { pageSize := 1 } (keysetProvider MarketTick.timestamp twoTicks fun _ _ => none) ⟨7⟩ "NSE" "TCS"
        (sampleStamp 0) (sampleStamp 2) ≠
      .ok ((matching MarketTick.timestamp twoTicks (sampleStamp 0) (sampleStamp 2)).take 10000) := by
  intro hfetch
  have hanswer := answering_at_once { pageSize := 1 }
  have hseparated := (fetch_iff MarketTick.timestamp twoTicks hanswer (by decide) _ (by decide)).mp hfetch
  have hboundary := hseparated 1 (by decide) (by decide) (sampleTick 1 ⟨"1", by decide⟩) (sampleTick 1 ⟨"2", by decide⟩)
    (by decide) (by decide)
  exact lt_irrefl _ hboundary

end AlphaAlgo.Market
