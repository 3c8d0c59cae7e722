import FundingRadar.FundingData
import FundingRadar.Symbols

/-!
The Extended collector: every active market of a response becomes a record, at the
mark price of the WebSocket where there is one, and the funding history of every
symbol is read backwards, newest page first. Rates are hourly.
-/
namespace FundingRadar

/-- The state of the collector. A set is a list of its members. -/
structure ExtendedCollector where
  config : CollectorConfig
  wsSnapshots : Dict Scalar ℚ
  activeSymbols : List Scalar

namespace ExtendedCollector
open BaseCollector NormalizedFundingData

def makerFee : ℚ := 0
def takerFee : ℚ := 5 / 100
def fundingIntervalHours : ℤ := 1

/-- The active symbols with one more market looked at. -/
def addMarket (active : List Scalar) (m : Json) : Except PyError (List Scalar) := do
  if !(← m.get "status").isStr "ACTIVE" then return active
  else if !(← (← m.get "name" (.str "")).contains "USD") then return active
  else return active ++ [← (← m.item "name").hash]

/-- `_load_exchange_info`. The set is emptied before the markets are looked at, and an
    exception leaves what was added so far. -/
def loadExchangeInfo (c : ExtendedCollector) (response : Option Json) : ExtendedCollector :=
  match response with
  | none => c
  | some data =>
    match data.get "data" (.arr []) with
    | .error _ => c
    | .ok markets =>
      match markets.iter with
      | .error _ => { c with activeSymbols := [] }
      | .ok ms => { c with activeSymbols := (accumulate addMarket [] ms).1 }

/-- The record of one active market, from its statistics. -/
def marketRecord (py : Numerals) (nowMs : ℤ) (c : ExtendedCollector) (key : Scalar) (stats : Json) :
    Except PyError (Option NormalizedFundingData) := do
  let symbol ← key.asStr
  let restPrice ← stats.number py "markPrice"
  let markPrice := (c.wsSnapshots.get? key).getD restPrice
  let indexPrice ← stats.number py "indexPrice"
  let fundingRate ← stats.number py "fundingRate"
  let nextFundingTime ← stats.time py "nextFundingRate"
  let dailyVolume ← stats.number py "dailyVolume"
  let openInterestBase ← stats.number py "openInterestBase"
  let openInterestUsd := openInterestBase * markPrice
  if openInterestUsd < c.config.minOpenInterestUsd ∨ dailyVolume ≤ 0 then return none
  else
    let fundingApr ← computeFundingApr fundingRate fundingIntervalHours
    return some {
      exchange := "extended"
      token := stripQuote symbol
      symbol := symbol
      fundingRate := fundingRate
      fundingRate8h := fundingRate * 8
      fundingApr := fundingApr
      fundingIntervalHours := fundingIntervalHours
      nextFundingTime := if nextFundingTime = 0 then none else some nextFundingTime
      predictedRate := none
      markPrice := markPrice
      indexPrice := indexPrice
      openInterestUsd := openInterestUsd
      volume24hUsd := dailyVolume
      priceSpreadPct := priceSpreadPct markPrice indexPrice
      makerFee := makerFee
      takerFee := takerFee
      timestamp := nowMs
      isLive := (c.wsSnapshots.get? key).isSome }

/-- The body of the loop of `_poll_rest`; only the record is made inside the `try`. -/
def pollMarket (py : Numerals) (nowMs : ℤ) (c : ExtendedCollector) (m : Json) :
    Except PyError (Option NormalizedFundingData) := do
  let key ← (← m.get "name" (.str "")).hash
  if key ∉ c.activeSymbols then return none
  else
    let stats ← m.get "marketStats" (.obj [])
    skipping [.typeError,.valueError,.keyError] (c.marketRecord py nowMs key stats)

/-- `_poll_rest`; the response is `none` where the request failed. -/
def pollRest (py : Numerals) (nowMs : ℤ) (c : ExtendedCollector) (response : Option Json) :
    Except PyError (List NormalizedFundingData) :=
  match response with
  | none => .ok []
  | some data =>
    match data.get "data" (.arr []) with
    | .error _ => .ok []
    | .ok markets => do collect (c.pollMarket py nowMs) (← markets.iter)

/-- What one message of the WebSocket stores. -/
def handleWsMessage (py : Numerals) (c : ExtendedCollector) (msg : Json) : Except PyError ExtendedCollector := do
  if !(← msg.get "type").isStr "MP" then return c
  else
    let data ← msg.get "data" (.obj [])
    let symbol ← data.get "m"
    let price ← data.number py "p"
    if symbol.truthy then return { c with wsSnapshots := c.wsSnapshots.insert (← symbol.hash) price }
    else return c

/-! ### History -/

/-- The record of one settlement; one without a time is passed over. -/
def historyRecord (py : Numerals) (symbol : String) (rec : Json) : Except PyError (Option NormalizedFundingData) := do
  let rate ← rec.number py "f"
  let ts ← rec.time py "T"
  if ts = 0 then return none
  else
    let apr ← computeFundingApr rate fundingIntervalHours
    return some (historical "extended" (stripQuote symbol) symbol rate (rate * 8) apr fundingIntervalHours makerFee
      takerFee ts)

/-- `PAGE_SIZE`. -/
def pageSize : ℕ := 10000

/-- Where the next page ends, from the last record of this one. -/
def nextChunkEnd (py : Numerals) (startMs : ℤ) (rawData : Json) : Except PyError (Option ℤ) := do
  let lastTs ← (← rawData.last).time py "T"
  if (← rawData.len) < pageSize ∨ lastTs ≤ startMs then return none
  else return some (lastTs - 1)

/-- The records and the next position after one response; any exception leaves the
    loop with what was yielded before it. -/
def historyPage (py : Numerals) (symbol : String) (startMs : ℤ) (response : Option Json) :
    List NormalizedFundingData × Option ℤ :=
  match response with
  | none => ([],none)
  | some response =>
    if !response.truthy then ([],none)
    else
      match (do let rawData ← response.get "data" (.arr []); return (rawData,← rawData.iter) : Except PyError _) with
      | .error _ => ([],none)
      | .ok (rawData,records) =>
        if !rawData.truthy then ([],none)
        else
          match yields (fun rec => skipping [.typeError,.valueError] (historyRecord py symbol rec)) records with
          | (yielded,some _) => (yielded,none)
          | (yielded,none) => (yielded,((nextChunkEnd py startMs rawData).toOption).join)

/-- What the first `requests` requests for one symbol yield. -/
def symbolHistory (py : Numerals) (symbol : String) (server : ℕ → ℤ → ℤ → Option Json) (startMs endMs nowMs : ℤ)
    (requests : ℕ) : List NormalizedFundingData :=
  paged (fun chunkEnd => chunkEnd > startMs)
    (fun i chunkEnd => historyPage py symbol startMs (server i startMs chunkEnd)) requests 0 (min endMs nowMs)

/-- `_fetch_history_range`, up to `requests` requests for every symbol. -/
def fetchHistoryRange (py : Numerals) (c : ExtendedCollector) (info : Option Json)
    (server : String → ℕ → ℤ → ℤ → Option Json) (startMs endMs nowMs : ℤ) (requests : ℕ) :
    List NormalizedFundingData × Option PyError :=
  let loaded := if c.activeSymbols = [] then c.loadExchangeInfo info else c
  accumulate (fun yielded key => do
    let symbol ← key.asStr
    return yielded ++ symbolHistory py symbol (server symbol) startMs endMs nowMs requests) [] loaded.activeSymbols

/-! ### Rates -/

theorem marketRecord_rated {py : Numerals} {nowMs : ℤ} {c : ExtendedCollector} {key : Scalar} {stats : Json}
    {r : NormalizedFundingData} (made : c.marketRecord py nowMs key stats = .ok (some r)) :
    r.Rated 8 ∧ r.fundingIntervalHours = 1 := by
  simp only [marketRecord,bind_eq_ok] at made
  obtain ⟨symbol,_,restPrice,_,indexPrice,_,rate,_,next,_,volume,_,openInterest,_,made⟩ := made
  split at made
  · cases made
  · simp only [bind_eq_ok] at made
    obtain ⟨apr,annual,made⟩ := made
    cases made
    exact ⟨⟨annual,rfl⟩,rfl⟩

theorem pollMarket_rated {py : Numerals} {nowMs : ℤ} {c : ExtendedCollector} {m : Json} {r : NormalizedFundingData}
    (polled : c.pollMarket py nowMs m = .ok (some r)) : r.Rated 8 ∧ r.fundingIntervalHours = 1 := by
  simp only [pollMarket,bind_eq_ok] at polled
  obtain ⟨name,-,key,-,polled⟩ := polled
  split at polled
  · cases polled
  · obtain ⟨stats,-,attempt⟩ := bind_eq_ok.mp polled
    exact marketRecord_rated ((skipping_eq_some _ _ _).mp attempt)

theorem historyRecord_rated {py : Numerals} {symbol : String} {rec : Json} {r : NormalizedFundingData}
    (made : historyRecord py symbol rec = .ok (some r)) : r.Rated 8 ∧ r.fundingIntervalHours = 1 := by
  simp only [historyRecord,bind_eq_ok] at made
  obtain ⟨rate,_,ts,_,made⟩ := made
  split at made
  · cases made
  · simp only [bind_eq_ok] at made
    obtain ⟨apr,annual,made⟩ := made
    cases made
    exact ⟨⟨annual,rfl⟩,rfl⟩

/-- Every live record converts an hourly rate. -/
theorem pollRest_rated {py : Numerals} {nowMs : ℤ} {c : ExtendedCollector} {response : Option Json}
    {results : List NormalizedFundingData} (ran : c.pollRest py nowMs response = .ok results) {r : NormalizedFundingData}
    (member : r ∈ results) : r.Rated 8 ∧ r.fundingIntervalHours = 1 := by
  unfold pollRest at ran
  split at ran
  · cases ran
    cases member
  · split at ran
    · cases ran
      cases member
    · obtain ⟨ms,-,collected⟩ := bind_eq_ok.mp ran
      obtain ⟨m,-,polled⟩ := collect_mem collected member
      exact pollMarket_rated polled

theorem historyPage_rated {py : Numerals} {symbol : String} {startMs : ℤ} {response : Option Json}
    {r : NormalizedFundingData} (member : r ∈ (historyPage py symbol startMs response).1) :
    r.Rated 8 ∧ r.fundingIntervalHours = 1 := by
  unfold historyPage at member
  split at member
  · cases member
  · split at member
    · cases member
    · split at member
      · cases member
      · split at member
        · cases member
        · have yielded : ∀ records : List Json,
              r ∈ (yields (fun rec => skipping [.typeError,.valueError] (historyRecord py symbol rec)) records).1 →
              r.Rated 8 ∧ r.fundingIntervalHours = 1 := by
            intro records inside
            obtain ⟨rec,-,attempt⟩ := yields_mem inside
            exact historyRecord_rated ((skipping_eq_some _ _ _).mp attempt)
          split at member
          · next ran => exact yielded _ (by rw [ran]; exact member)
          · next ran => exact yielded _ (by rw [ran]; exact member)

/-- So does every record of its history. -/
theorem fetchHistoryRange_rated {py : Numerals} {c : ExtendedCollector} {info : Option Json}
    {server : String → ℕ → ℤ → ℤ → Option Json} {startMs endMs nowMs : ℤ} {requests : ℕ} {r : NormalizedFundingData}
    (member : r ∈ (c.fetchHistoryRange py info server startMs endMs nowMs requests).1) :
    r.Rated 8 ∧ r.fundingIntervalHours = 1 := by
  refine accumulate_keeps (fun yielded => ∀ r ∈ yielded, r.Rated 8 ∧ r.fundingIntervalHours = 1) ?_ ?_ r member
  · intro yielded key _ yielded' ran rated r inside
    obtain ⟨symbol,-,appended⟩ := bind_eq_ok.mp ran
    cases appended
    rcases List.mem_append.mp inside with before | new
    · exact rated r before
    · obtain ⟨i,chunkEnd,onPage⟩ := paged_mem new
      exact historyPage_rated onPage
  · intro r inside
    cases inside

end ExtendedCollector
end FundingRadar
