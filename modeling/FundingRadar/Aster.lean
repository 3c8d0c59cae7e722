import FundingRadar.FundingData
import FundingRadar.Symbols

/-!
The Aster collector. Two REST endpoints and the WebSocket fill one cache of mark
prices, and every poll publishes that cache merged with the tickers it fetched. The
cache does not record who wrote an entry: the REST writers leave entries alone that
are there already, so an entry changes only when the stream reports its symbol.
Rates are taken to be for eight hours, while the interval may differ by symbol.
-/
namespace FundingRadar

/-- An entry of the cache of mark prices. -/
structure MarkSnapshot where
  markPrice : ℚ
  indexPrice : ℚ
  fundingRate : ℚ
  nextFundingTime : Json

/-- `int(t) if t else None`, for the next funding time of an entry. -/
def MarkSnapshot.nextFundingMs (py : Numerals) (snap : MarkSnapshot) : Except PyError (Option ℤ) :=
  if snap.nextFundingTime.truthy then (snap.nextFundingTime.int py).map some else .ok none

/-- The state of the collector. A set is a list of its members. -/
structure AsterCollector where
  config : CollectorConfig
  wsSnapshots : Dict Scalar MarkSnapshot
  tickerCache : Dict Scalar Json
  activeSymbols : List Scalar
  fundingIntervals : Dict Scalar ℤ

namespace AsterCollector
open BaseCollector NormalizedFundingData

def makerFee : ℚ := 1 / 100
def takerFee : ℚ := 35 / 1000
def fundingIntervalHours : ℤ := 8

def init (config : CollectorConfig) : AsterCollector := ⟨config,.empty,.empty,[],.empty⟩
/-- The interval of a symbol: eight hours unless one was loaded. -/
def interval (c : AsterCollector) (symbol : Scalar) : ℤ := (c.fundingIntervals.get? symbol).getD fundingIntervalHours

/-- The entry that a message makes, under the keys that name its fields. -/
def readMark (py : Numerals) (message : Json) (mark index rate next : String) : Except PyError MarkSnapshot := do
  return ⟨← message.number py mark,← message.number py index,← message.number py rate,← message.get next⟩
def readPremium (py : Numerals) (item : Json) : Except PyError MarkSnapshot :=
  readMark py item "markPrice" "indexPrice" "lastFundingRate" "nextFundingTime"

/-! ### The REST writers -/

/-- `{t["symbol"]: t for t in ticker_list}`. -/
def readTickers (tickers : Json) : Except PyError (Dict Scalar Json) := do
  (← tickers.iter).foldlM (fun cache t => do return cache.insert (← (← t.item "symbol").hash) t) .empty

/-- The cache with one item of `premiumIndex` merged in; an entry that is there stays. -/
def mergePremium (py : Numerals) (snapshots : Dict Scalar MarkSnapshot) (item : Json) :
    Except PyError (Dict Scalar MarkSnapshot) := do
  let sym ← item.get "symbol" (.str "")
  if !sym.truthy then return snapshots
  else
    let key ← sym.hash
    if (snapshots.get? key).isSome then return snapshots
    else return snapshots.insert key (← readPremium py item)

/-- The funding intervals with one item of `fundingInfo` read. -/
def mergeInterval (py : Numerals) (intervals : Dict Scalar ℤ) (item : Json) : Except PyError (Dict Scalar ℤ) := do
  let sym ← item.get "symbol" (.str "")
  let hours ← item.get "fundingIntervalHours" (.num 8)
  if !sym.truthy then return intervals
  else
    let hours ← hours.int py
    return intervals.insert (← sym.hash) hours

/-- A response is `none` where its request failed; what cannot be iterated is empty. -/
def items (response : Option Json) : List Json := ((response.getD (.arr [])).iter.toOption).getD []

/-- `_preload_ticker_cache`. Every part logs its own exception and goes on. -/
def preloadTickerCache (py : Numerals) (c : AsterCollector) (tickers premiums fundingInfo : Option Json) :
    AsterCollector :=
  { c with
    tickerCache := ((tickers.bind fun t => (readTickers t).toOption)).getD c.tickerCache
    wsSnapshots := (accumulate (mergePremium py) c.wsSnapshots (items premiums)).1
    fundingIntervals := (accumulate (mergeInterval py) c.fundingIntervals (items fundingInfo)).1 }

/-- The symbols of `exchangeInfo` that trade as perpetuals. -/
def readSymbols (data : Json) : Except PyError (List Scalar) := do
  (← (← data.get "symbols" (.arr [])).iter).foldlM (fun active s => do
    if !(← s.get "status").isStr "TRADING" then return active
    else if !(← s.get "contractType").isStr "PERPETUAL" then return active
    else return active ++ [← (← s.item "symbol").hash]) []
/-- `_load_exchange_info`. -/
def loadExchangeInfo (c : AsterCollector) (response : Option Json) : AsterCollector :=
  { c with activeSymbols := (response.bind fun data => (readSymbols data).toOption).getD c.activeSymbols }

/-! ### The WebSocket -/

/-- What an event writes into the cache: `none` where it is ignored. -/
def readEvent (py : Numerals) (c : AsterCollector) (event : Json) : Except PyError (Option (Scalar × MarkSnapshot)) := do
  if !(← event.get "e").isStr "markPriceUpdate" then return none
  else
    let symbol ← event.get "s" (.str "")
    if !symbol.truthy then return none
    else
      let known ← if c.activeSymbols = [] then pure true else symbol.hash.map (fun key => decide (key ∈ c.activeSymbols))
      if !known then return none
      else skipping [.typeError,.valueError] do
        let snapshot ← readMark py event "p" "i" "r" "T"
        return some (← symbol.hash,snapshot)

/-- `_process_mark_price_event`. -/
def processMarkPriceEvent (py : Numerals) (c : AsterCollector) (event : Json) : Except PyError AsterCollector := do
  match ← c.readEvent py event with
  | none => return c
  | some (symbol,snapshot) => return { c with wsSnapshots := c.wsSnapshots.insert symbol snapshot }

/-- The events of a message, out of its envelope. -/
def messageEvents (msg : Json) : Except PyError (List Json) := do
  match ← msg.get "data" msg with
  | .arr events => return events
  | .obj members => return [.obj members]
  | _ => return []
/-- `_handle_ws_message`; an exception leaves what the events before it wrote. -/
def handleWsMessage (py : Numerals) (c : AsterCollector) (msg : Json) : AsterCollector :=
  match messageEvents msg with
  | .error _ => c
  | .ok events => (accumulate (processMarkPriceEvent py) c events).1

/-! ### Records -/

/-- The record of one entry of the cache. -/
def snapshotRecord (py : Numerals) (nowMs : ℤ) (c : AsterCollector) (entry : Scalar × MarkSnapshot) :
    Except PyError (Option NormalizedFundingData) := do
  let (key,snap) := entry
  let symbol ← key.asStr
  let volume24hUsd ← ((c.tickerCache.get? key).getD (.obj [])).number py "quoteVolume"
  -- The volume stands in for the open interest, which the ticker does not have.
  let openInterestUsd := volume24hUsd
  if c.tickerCache.entries ≠ [] ∧ (openInterestUsd < c.config.minOpenInterestUsd ∨ volume24hUsd ≤ 0) then return none
  else
    let fundingApr ← computeFundingApr snap.fundingRate (c.interval key)
    let nextFundingTime ← snap.nextFundingMs py
    return some {
      exchange := "aster"
      token := stripQuote symbol
      symbol := symbol
      fundingRate := snap.fundingRate
      fundingRate8h := snap.fundingRate
      fundingApr := fundingApr
      fundingIntervalHours := c.interval key
      nextFundingTime := nextFundingTime
      predictedRate := none
      markPrice := snap.markPrice
      indexPrice := snap.indexPrice
      openInterestUsd := openInterestUsd
      volume24hUsd := volume24hUsd
      priceSpreadPct := priceSpreadPct snap.markPrice snap.indexPrice
      makerFee := makerFee
      takerFee := takerFee
      timestamp := nowMs
      isLive := true }

/-- `_build_normalized`. -/
def buildNormalized (py : Numerals) (nowMs : ℤ) (c : AsterCollector) : Except PyError (List NormalizedFundingData) :=
  collect (fun entry => skipping [.typeError,.valueError,.keyError] (c.snapshotRecord py nowMs entry))
    c.wsSnapshots.entries

/-- `_poll_rest`. Without tickers nothing is published; an item of `premiumIndex` that
    raises ends the poll with what was merged before it. -/
def pollRest (py : Numerals) (nowMs : ℤ) (c : AsterCollector) (tickers premiums : Option Json) :
    AsterCollector × Except PyError (List NormalizedFundingData) :=
  match tickers.bind fun t => (readTickers t).toOption with
  | none => (c,.ok [])
  | some cache =>
    match (premiums.getD (.arr [])).iter with
    | .error e => ({ c with tickerCache := cache },.error e)
    | .ok premiumList =>
      let (merged,raised) := accumulate (mergePremium py) c.wsSnapshots premiumList
      let polled := { c with tickerCache := cache,wsSnapshots := merged }
      (polled,match raised with
        | some e => .error e
        | none => polled.buildNormalized py nowMs)

/-! ### History -/

/-- The record of one settlement; one without a time is passed over. -/
def historyRecord (py : Numerals) (symbol : String) (interval : ℤ) (rec : Json) :
    Except PyError (Option NormalizedFundingData) := do
  let rate ← rec.number py "fundingRate"
  let ts ← rec.time py "fundingTime"
  if ts = 0 then return none
  else
    let apr ← computeFundingApr rate interval
    return some (historical "aster" (stripQuote symbol) symbol rate rate apr interval makerFee takerFee ts)

/-- `PAGE_SIZE`. -/
def pageSize : ℕ := 1000

/-- Where the next page starts, from the last record of this one. -/
def nextChunkStart (py : Numerals) (chunkStart : ℤ) (raw : Json) : Except PyError (Option ℤ) := do
  let lastTs ← (← raw.last).time py "fundingTime"
  if (← raw.len) < pageSize ∨ lastTs ≤ chunkStart then return none
  else return some (lastTs + 1)

/-- The records and the next position after one response; any exception leaves the
    loop with what was yielded before it. -/
def historyPage (py : Numerals) (symbol : String) (interval chunkStart : ℤ) (response : Option Json) :
    List NormalizedFundingData × Option ℤ :=
  match response with
  | none => ([],none)
  | some raw =>
    if !raw.truthy then ([],none)
    else
      match raw.iter with
      | .error _ => ([],none)
      | .ok records =>
        match yields (fun rec => skipping [.typeError,.valueError] (historyRecord py symbol interval rec)) records with
        | (yielded,some _) => (yielded,none)
        | (yielded,none) => (yielded,((nextChunkStart py chunkStart raw).toOption).join)

/-- What the first `requests` requests for one symbol yield. -/
def symbolHistory (py : Numerals) (symbol : String) (interval : ℤ) (server : ℕ → ℤ → ℤ → Option Json)
    (startMs endMs nowMs : ℤ) (requests : ℕ) : List NormalizedFundingData :=
  paged (fun chunkStart => chunkStart < min endMs nowMs)
    (fun i chunkStart => historyPage py symbol interval chunkStart (server i chunkStart (min endMs nowMs))) requests 0
    startMs

/-- `_fetch_history_range`, up to `requests` requests for every symbol. -/
def fetchHistoryRange (py : Numerals) (c : AsterCollector) (info : Option Json)
    (server : String → ℕ → ℤ → ℤ → Option Json) (startMs endMs nowMs : ℤ) (requests : ℕ) :
    List NormalizedFundingData × Option PyError :=
  let loaded := if c.activeSymbols = [] then c.loadExchangeInfo info else c
  accumulate (fun yielded key => do
    let symbol ← key.asStr
    return yielded ++ symbolHistory py symbol (c.interval key) (server symbol) startMs endMs nowMs requests) []
    loaded.activeSymbols

/-! ### What a record carries -/

/-- A record carries the prices, the rate and the next funding time of an entry. -/
structure Carries (py : Numerals) (r : NormalizedFundingData) (snap : MarkSnapshot) : Prop where
  markPrice : r.markPrice = snap.markPrice
  indexPrice : r.indexPrice = snap.indexPrice
  fundingRate : r.fundingRate = snap.fundingRate
  nextFundingTime : snap.nextFundingMs py = .ok r.nextFundingTime

/-- Where a record of a poll comes from. -/
structure MadeFrom (py : Numerals) (c : AsterCollector) (snap : MarkSnapshot) (r : NormalizedFundingData) : Prop where
  carries : Carries py r snap
  live : r.isLive = true
  rated : r.Rated 1
  interval : r.fundingIntervalHours = c.interval (.str r.symbol)

theorem snapshotRecord_spec {py : Numerals} {nowMs : ℤ} {c : AsterCollector} {key : Scalar} {snap : MarkSnapshot}
    {r : NormalizedFundingData} (made : c.snapshotRecord py nowMs (key,snap) = .ok (some r)) :
    key = .str r.symbol ∧ MadeFrom py c snap r := by
  simp only [snapshotRecord,bind_eq_ok] at made
  obtain ⟨symbol,named,volume,_,made⟩ := made
  cases key with
  | str s =>
    cases named
    split at made
    · cases made
    · simp only [bind_eq_ok] at made
      obtain ⟨apr,annual,next,nextFunding,made⟩ := made
      cases made
      exact ⟨rfl,⟨rfl,rfl,rfl,nextFunding⟩,rfl,⟨annual,(mul_one _).symm⟩,rfl⟩
  | null => cases named
  | num q => cases named

/-- Every record of a build is made from the entry of its symbol. -/
theorem buildNormalized_spec {py : Numerals} {nowMs : ℤ} {c : AsterCollector} {results : List NormalizedFundingData}
    (built : c.buildNormalized py nowMs = .ok results) {r : NormalizedFundingData} (member : r ∈ results) :
    ∃ snap, c.wsSnapshots.get? (.str r.symbol) = some snap ∧ MadeFrom py c snap r := by
  obtain ⟨⟨key,snap⟩,inside,attempt⟩ := collect_mem built member
  obtain ⟨rfl,made⟩ := snapshotRecord_spec ((skipping_eq_some _ _ _).mp attempt)
  exact ⟨snap,(Dict.mem_entries_iff _ _ _).mp inside,made⟩

/-- A poll that publishes anything builds its records after the merge. -/
theorem pollRest_spec {py : Numerals} {nowMs : ℤ} {c : AsterCollector} {tickers premiums : Option Json}
    {results : List NormalizedFundingData} (polled : (c.pollRest py nowMs tickers premiums).2 = .ok results)
    {r : NormalizedFundingData} (member : r ∈ results) :
    ∃ snap, (c.pollRest py nowMs tickers premiums).1.wsSnapshots.get? (.str r.symbol) = some snap ∧
      MadeFrom py c snap r := by
  unfold pollRest at polled ⊢
  split at polled
  · cases polled
    cases member
  · next cache read =>
    split at polled
    · cases polled
    · next premiumList listed =>
      dsimp only at polled ⊢
      split at polled
      · cases polled
      · obtain ⟨snap,found,made⟩ := buildNormalized_spec polled member
        exact ⟨snap,found,made.carries,made.live,made.rated,made.interval⟩

theorem historyRecord_rated {py : Numerals} {symbol : String} {interval : ℤ} {rec : Json} {r : NormalizedFundingData}
    (made : historyRecord py symbol interval rec = .ok (some r)) :
    r.symbol = symbol ∧ r.Rated 1 ∧ r.fundingIntervalHours = interval := by
  simp only [historyRecord,bind_eq_ok] at made
  obtain ⟨rate,_,ts,_,made⟩ := made
  split at made
  · cases made
  · obtain ⟨apr,annual,made⟩ := bind_eq_ok.mp made
    cases made
    exact ⟨rfl,⟨annual,(mul_one _).symm⟩,rfl⟩

theorem historyPage_rated {py : Numerals} {symbol : String} {interval chunkStart : ℤ} {response : Option Json}
    {r : NormalizedFundingData} (member : r ∈ (historyPage py symbol interval chunkStart response).1) :
    r.symbol = symbol ∧ r.Rated 1 ∧ r.fundingIntervalHours = interval := by
  have yielded : ∀ records : List Json,
      r ∈ (yields (fun rec => skipping [.typeError,.valueError] (historyRecord py symbol interval rec)) records).1 →
      r.symbol = symbol ∧ r.Rated 1 ∧ r.fundingIntervalHours = interval := by
    intro records inside
    obtain ⟨rec,-,attempt⟩ := yields_mem inside
    exact historyRecord_rated ((skipping_eq_some _ _ _).mp attempt)
  unfold historyPage at member
  split at member
  · cases member
  · split at member
    · cases member
    · split at member
      · cases member
      · split at member
        · next ran => exact yielded _ (by rw [ran]; exact member)
        · next ran => exact yielded _ (by rw [ran]; exact member)

/-- Every record of a history has the interval of its symbol. -/
theorem fetchHistoryRange_rated {py : Numerals} {c : AsterCollector} {info : Option Json}
    {server : String → ℕ → ℤ → ℤ → Option Json} {startMs endMs nowMs : ℤ} {requests : ℕ} {r : NormalizedFundingData}
    (member : r ∈ (c.fetchHistoryRange py info server startMs endMs nowMs requests).1) :
    r.Rated 1 ∧ r.fundingIntervalHours = c.interval (.str r.symbol) := by
  refine accumulate_keeps (fun yielded => ∀ r ∈ yielded, r.Rated 1 ∧ r.fundingIntervalHours = c.interval (.str r.symbol))
    ?_ ?_ r member
  · intro yielded key _ yielded' ran rated r inside
    obtain ⟨symbol,named,appended⟩ := bind_eq_ok.mp ran
    cases appended
    rcases List.mem_append.mp inside with before | new
    · exact rated r before
    · obtain ⟨i,chunkStart,onPage⟩ := paged_mem new
      obtain ⟨same,ratedHere,hours⟩ := historyPage_rated onPage
      cases key with
      | str s =>
        cases named
        rw [same]
        exact ⟨ratedHere,hours⟩
      | null => cases named
      | num q => cases named
  · intro r inside
    cases inside

end AsterCollector
end FundingRadar
