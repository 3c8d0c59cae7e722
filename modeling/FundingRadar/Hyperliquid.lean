import FundingRadar.FundingData

/-!
The Hyperliquid collector: the universe and its asset contexts become records, and
the funding history of every asset is read in windows of seven days. Rates are
hourly. An asset is named by whatever the universe names it, so a name is a scalar.
-/
namespace FundingRadar

structure HyperliquidCollector where
  config : CollectorConfig
  midPrices : Dict String ℚ
  assetMeta : Dict Scalar Json

namespace HyperliquidCollector
open BaseCollector NormalizedFundingData

def makerFee : ℚ := 1 / 100
def takerFee : ℚ := 35 / 1000
def fundingIntervalHours : ℤ := 1

/-- The mid price that the WebSocket reported for an asset. -/
def midPrice (c : HyperliquidCollector) : Scalar → Option ℚ
  | .str name => c.midPrices.get? name
  | _ => none

/-- The name under which an asset is filed; `none` where it has none. -/
def assetName (entry : Json) : Except PyError (Option Scalar) := do
  let name ← entry.get "name" (.str "")
  if name.truthy then return some (← name.hash) else return none

/-- The record of one asset, from its context. -/
def assetRecord (py : Numerals) (nowMs : ℤ) (c : HyperliquidCollector) (name : Scalar) (ctx : Json) :
    Except PyError (Option (NormalizedFundingData Scalar)) := do
  let fundingRate ← ctx.number py "funding"
  let restPrice ← (((← ctx.get "markPx").orElse (← ctx.get "prevDayPx")).orElse (.num 0)).float py
  let indexPrice ← ctx.number py "oraclePx" (.num restPrice)
  let openInterestRaw ← ctx.number py "openInterest"
  let volume24h ← ctx.number py "dayNtlVlm"
  let openInterestUsd := openInterestRaw * restPrice
  let markPrice := (c.midPrice name).getD restPrice
  if openInterestUsd < c.config.minOpenInterestUsd ∨ volume24h ≤ 0 then return none
  else
    let fundingRate8h ← compute8hRate fundingRate fundingIntervalHours
    let fundingApr ← computeFundingApr fundingRate fundingIntervalHours
    return some {
      exchange := "hyperliquid"
      token := name
      symbol := name
      fundingRate := fundingRate
      fundingRate8h := fundingRate8h
      fundingApr := fundingApr
      fundingIntervalHours := fundingIntervalHours
      nextFundingTime := none
      predictedRate := none
      markPrice := markPrice
      indexPrice := indexPrice
      openInterestUsd := openInterestUsd
      volume24hUsd := volume24h
      priceSpreadPct := priceSpreadPct markPrice indexPrice
      makerFee := makerFee
      takerFee := takerFee
      timestamp := nowMs
      isLive := (c.midPrice name).isSome }

def normalizeHandles : List PyError := [.typeError,.valueError,.keyError]

/-- The body of the loop of `_normalize`. The asset is filed before its context is
    read, so it stays filed when the context is malformed. -/
def normalizeAsset (py : Numerals) (nowMs : ℤ) (c : HyperliquidCollector) (pair : Json × Json) :
    HyperliquidCollector × Except PyError (Option (NormalizedFundingData Scalar)) :=
  match assetName pair.1 with
  | .error e => (c,skipping normalizeHandles (.error e))
  | .ok none => (c,.ok none)
  | .ok (some name) =>
    let filed := { c with assetMeta := c.assetMeta.insert name pair.1 }
    (filed,skipping normalizeHandles (filed.assetRecord py nowMs name pair.2))

/-- The universe and the contexts, paired up to the shorter one. -/
def assetPairs (head assetCtxs : Json) : Except PyError (List (Json × Json)) := do
  let assets ← head.get "universe" (.arr [])
  let _ ← assets.len
  let _ ← assetCtxs.len
  return (← assets.iter).zip (← assetCtxs.iter)

/-- `_normalize`. -/
def normalize (py : Numerals) (nowMs : ℤ) (c : HyperliquidCollector) (rawData : Json) :
    HyperliquidCollector × Except PyError (List (NormalizedFundingData Scalar)) :=
  match rawData with
  | .arr (head :: assetCtxs :: _) =>
    match assetPairs head assetCtxs with
    | .error e => (c,.error e)
    | .ok pairs =>
      match loop (normalizeAsset py nowMs) c pairs with
      | (last,normalized,none) => (last,.ok normalized)
      | (last,_,some e) => (last,.error e)
  | _ => (c,.ok [])

/-- `_poll_rest`; the response is `none` where the request failed. -/
def pollRest (py : Numerals) (nowMs : ℤ) (c : HyperliquidCollector) (response : Option Json) :
    HyperliquidCollector × List (NormalizedFundingData Scalar) :=
  match response with
  | none => (c,[])
  | some rawData =>
    match c.normalize py nowMs rawData with
    | (last,.ok normalized) => (last,normalized)
    | (last,.error _) => (last,[])

/-- `_handle_ws_message`; a price that is not a number is passed over. -/
def handleWsMessage (py : Numerals) (c : HyperliquidCollector) (msg : Json) : Except PyError HyperliquidCollector := do
  let channel ← msg.get "channel"
  let data ← msg.get "data"
  match channel.isStr "allMids",data with
  | true,.obj _ =>
    match ← data.get "mids" (.obj []) with
    | .obj mids =>
      let store := fun (prices : Dict String ℚ) (mid : String × Json) =>
        match mid.2.float py with
        | .ok price => prices.insert mid.1 price
        | .error _ => prices
      return { c with midPrices := mids.foldl store c.midPrices }
    | _ => .error .attributeError
  | _,_ => return c

/-! ### History -/

/-- The record of one settlement; one without a time is passed over. -/
def historyRecord (py : Numerals) (name : Scalar) (rec : Json) :
    Except PyError (Option (NormalizedFundingData Scalar)) := do
  let rate ← rec.number py "fundingRate"
  let ts ← rec.time py "time"
  if ts = 0 then return none
  else
    let rate8h ← compute8hRate rate fundingIntervalHours
    let apr ← computeFundingApr rate fundingIntervalHours
    return some (historical "hyperliquid" name name rate rate8h apr fundingIntervalHours makerFee takerFee ts)

/-- What one response yields. An exception that no record handles ends the page, but
    not the asset. -/
def historyPage (py : Numerals) (name : Scalar) (response : Option Json) : List (NormalizedFundingData Scalar) :=
  match response with
  | none => []
  | some raw =>
    match (raw.orElse (.arr [])).iter with
    | .error _ => []
    | .ok records => (yields (fun rec => skipping [.typeError,.valueError] (historyRecord py name rec)) records).1

/-- `CHUNK_MS`, seven days. -/
def chunkMs : ℤ := 7 * 24 * 3600000

/-- What the first `requests` requests for one asset yield. A request names the
    window from `chunkStart` to its end. -/
def assetHistory (py : Numerals) (name : Scalar) (server : ℕ → ℤ → ℤ → Option Json) (startMs endMs nowMs : ℤ)
    (requests : ℕ) : List (NormalizedFundingData Scalar) :=
  paged (fun chunkStart => chunkStart < min endMs nowMs)
    (fun i chunkStart =>
      let chunkEnd := min (chunkStart + chunkMs) (min endMs nowMs)
      (historyPage py name (server i chunkStart chunkEnd),some (chunkEnd + 1)))
    requests 0 startMs

/-- The collector with its universe loaded, if it can be. -/
def warmed (py : Numerals) (nowMs : ℤ) (c : HyperliquidCollector) (response : Option Json) : Option HyperliquidCollector :=
  if c.assetMeta.entries = [] then
    match response with
    | none => none
    | some raw =>
      match c.normalize py nowMs raw with
      | (last,.ok _) => some last
      | (_,.error _) => none
  else some c

/-- `_fetch_history_range`, up to `requests` requests for every asset. -/
def fetchHistoryRange (py : Numerals) (c : HyperliquidCollector) (warmUp : Option Json)
    (server : Scalar → ℕ → ℤ → ℤ → Option Json) (startMs endMs nowMs : ℤ) (requests : ℕ) :
    List (NormalizedFundingData Scalar) :=
  match c.warmed py nowMs warmUp with
  | none => []
  | some warm => warm.assetMeta.keys.flatMap fun name => assetHistory py name (server name) startMs endMs nowMs requests

/-! ### Rates -/

theorem rated_of_helpers {r : NormalizedFundingData Scalar} (hourly : r.fundingIntervalHours = 1)
    (eightHour : compute8hRate r.fundingRate 1 = .ok r.fundingRate8h)
    (apr : computeFundingApr r.fundingRate 1 = .ok r.fundingApr) : r.Rated 8 ∧ r.fundingIntervalHours = 1 := by
  refine ⟨⟨hourly ▸ apr,?_⟩,hourly⟩
  rw [compute8hRate,if_neg one_ne_zero] at eightHour
  rw [← Except.ok.inj eightHour]
  norm_num

theorem assetRecord_rated {py : Numerals} {nowMs : ℤ} {c : HyperliquidCollector} {name : Scalar} {ctx : Json}
    {r : NormalizedFundingData Scalar} (made : c.assetRecord py nowMs name ctx = .ok (some r)) :
    r.Rated 8 ∧ r.fundingIntervalHours = 1 := by
  simp only [assetRecord,bind_eq_ok] at made
  obtain ⟨rate,_,markPx,_,prevDayPx,_,restPrice,_,indexPrice,_,openInterest,_,volume,_,made⟩ := made
  split at made
  · cases made
  · simp only [bind_eq_ok] at made
    obtain ⟨rate8h,eightHour,apr,annual,made⟩ := made
    cases made
    exact rated_of_helpers rfl eightHour annual

theorem historyRecord_rated {py : Numerals} {name : Scalar} {rec : Json} {r : NormalizedFundingData Scalar}
    (made : historyRecord py name rec = .ok (some r)) : r.Rated 8 ∧ r.fundingIntervalHours = 1 := by
  simp only [historyRecord,bind_eq_ok] at made
  obtain ⟨rate,-,ts,-,made⟩ := made
  split at made
  · cases made
  · simp only [bind_eq_ok] at made
    obtain ⟨rate8h,eightHour,apr,annual,made⟩ := made
    cases made
    exact rated_of_helpers rfl eightHour annual

/-- Every live record converts an hourly rate. -/
theorem normalize_rated {py : Numerals} {nowMs : ℤ} {c last : HyperliquidCollector} {rawData : Json}
    {normalized : List (NormalizedFundingData Scalar)} (ran : c.normalize py nowMs rawData = (last,.ok normalized))
    {r : NormalizedFundingData Scalar} (member : r ∈ normalized) : r.Rated 8 ∧ r.fundingIntervalHours = 1 := by
  unfold normalize at ran
  split at ran
  · split at ran
    · cases ran
    · next pairs paired =>
      split at ran
      · next last' normalized' looped =>
        cases ran
        obtain ⟨c',pair,-,made⟩ := loop_mem (by rw [looped]; exact member)
        rw [normalizeAsset] at made
        split at made
        · simp at made
        · cases made
        · exact assetRecord_rated ((skipping_eq_some _ _ _).mp made)
      · cases ran
  · cases ran
    cases member

/-- So does every record of its history. -/
theorem fetchHistoryRange_rated {py : Numerals} {c : HyperliquidCollector} {warmUp : Option Json}
    {server : Scalar → ℕ → ℤ → ℤ → Option Json} {startMs endMs nowMs : ℤ} {requests : ℕ} {r : NormalizedFundingData Scalar}
    (member : r ∈ c.fetchHistoryRange py warmUp server startMs endMs nowMs requests) :
    r.Rated 8 ∧ r.fundingIntervalHours = 1 := by
  rw [fetchHistoryRange] at member
  split at member
  · cases member
  · obtain ⟨name,-,inside⟩ := List.mem_flatMap.mp member
    obtain ⟨i,chunkStart,onPage⟩ := paged_mem inside
    simp only [historyPage] at onPage
    split at onPage
    · cases onPage
    · split at onPage
      · cases onPage
      · obtain ⟨rec,-,made⟩ := yields_mem onPage
        exact historyRecord_rated ((skipping_eq_some _ _ _).mp made)

end HyperliquidCollector
end FundingRadar
