import FundingRadar.JsonOperators
import FundingRadar.FundingAggregator

/-!
The pipeline as it runs, without types. A record is whatever a message puts into the fields of
the data class, and the normalizer and the calculators apply the operators of the language to
it, each of which may raise. Over records whose fields have their declared types it is the
typed pipeline (`UntypedService.run_ofTyped`), which never raises.
-/
namespace FundingRadar

/-- `NormalizedFundingData`, whose declared types nothing checks. -/
structure UntypedFundingData where
  exchange : Json
  token : Json
  symbol : Json
  fundingRate : Json
  fundingRate8h : Json
  fundingApr : Json
  fundingIntervalHours : Json
  nextFundingTime : Json
  predictedRate : Json
  markPrice : Json
  indexPrice : Json
  openInterestUsd : Json
  volume24hUsd : Json
  priceSpreadPct : Json
  makerFee : Json
  takerFee : Json
  timestamp : Json
  isLive : Json

namespace UntypedFundingData

def fieldNames : List String :=
  ["exchange","token","symbol","funding_rate","funding_rate_8h","funding_apr","funding_interval_hours","next_funding_time",
    "predicted_rate","mark_price","index_price","open_interest_usd","volume_24h_usd","price_spread_pct","maker_fee","taker_fee",
    "timestamp","is_live"]
/-- An argument that a call has to pass. -/
def argument (members : List (String × Json)) (field : String) : Except PyError Json :=
  match Dict.lookup field members with
  | some v => .ok v
  | none => .error .typeError
/-- `NormalizedFundingData(**v)`. -/
def ofDict (v : Json) : Except PyError UntypedFundingData :=
  match v with
  | .obj members => do
    if members.any (fun m => m.1 ∉ fieldNames) then .error .typeError
    else return {
      exchange := ← argument members "exchange"
      token := ← argument members "token"
      symbol := ← argument members "symbol"
      fundingRate := ← argument members "funding_rate"
      fundingRate8h := ← argument members "funding_rate_8h"
      fundingApr := ← argument members "funding_apr"
      fundingIntervalHours := ← argument members "funding_interval_hours"
      nextFundingTime := ← argument members "next_funding_time"
      predictedRate := ← argument members "predicted_rate"
      markPrice := ← argument members "mark_price"
      indexPrice := ← argument members "index_price"
      openInterestUsd := ← argument members "open_interest_usd"
      volume24hUsd := ← argument members "volume_24h_usd"
      priceSpreadPct := ← argument members "price_spread_pct"
      makerFee := ← argument members "maker_fee"
      takerFee := ← argument members "taker_fee"
      timestamp := ← argument members "timestamp"
      isLive := ← argument members "is_live" }
  | _ => .error .typeError

/-- A record whose fields have their declared types. -/
def ofTyped (r : NormalizedFundingData) : UntypedFundingData where
  exchange := .str r.exchange
  token := .str r.token
  symbol := .str r.symbol
  fundingRate := .num r.fundingRate
  fundingRate8h := .num r.fundingRate8h
  fundingApr := .num r.fundingApr
  fundingIntervalHours := .num r.fundingIntervalHours
  nextFundingTime := (r.nextFundingTime.map fun t : ℤ => Json.num t).getD .null
  predictedRate := (r.predictedRate.map Json.num).getD .null
  markPrice := .num r.markPrice
  indexPrice := .num r.indexPrice
  openInterestUsd := .num r.openInterestUsd
  volume24hUsd := .num r.volume24hUsd
  priceSpreadPct := .num r.priceSpreadPct
  makerFee := .num r.makerFee
  takerFee := .num r.takerFee
  timestamp := .num r.timestamp
  isLive := .bool r.isLive

/-- `to_dict`, with the values that `json.dumps` writes for the fields. -/
def toDict (r : NormalizedFundingData) : Json :=
  .obj [("exchange",.str r.exchange),("token",.str r.token),("symbol",.str r.symbol),("funding_rate",.num r.fundingRate),
    ("funding_rate_8h",.num r.fundingRate8h),("funding_apr",.num r.fundingApr),
    ("funding_interval_hours",.num r.fundingIntervalHours),
    ("next_funding_time",(r.nextFundingTime.map fun t : ℤ => Json.num t).getD .null),
    ("predicted_rate",(r.predictedRate.map Json.num).getD .null),("mark_price",.num r.markPrice),("index_price",.num r.indexPrice),
    ("open_interest_usd",.num r.openInterestUsd),("volume_24h_usd",.num r.volume24hUsd),
    ("price_spread_pct",.num r.priceSpreadPct),("maker_fee",.num r.makerFee),("taker_fee",.num r.takerFee),
    ("timestamp",.num r.timestamp),("is_live",.bool r.isLive)]
/-- What a collector publishes is built again from its dictionary. -/
theorem ofDict_toDict (r : NormalizedFundingData) : ofDict (toDict r) = .ok (ofTyped r) := rfl

end UntypedFundingData

/-! ### The normalizer -/

structure UntypedSnapshot where
  data : UntypedFundingData
  receivedAt : ℚ

/-- `is_stale`, asked at `now`. -/
def UntypedSnapshot.isStale (s : UntypedSnapshot) (staleAfter now : ℚ) : Bool := decide (now - s.receivedAt > staleAfter)
def UntypedSnapshot.apr (s : UntypedSnapshot) : Json := s.data.fundingApr
def UntypedSnapshot.ofTyped (s : ExchangeSnapshot) : UntypedSnapshot := ⟨.ofTyped s.data,s.receivedAt⟩

structure UntypedView where
  token : Json
  snapshots : Dict Scalar UntypedSnapshot

theorem Scalar.str_injective : Function.Injective Scalar.str := by
  intro a b same
  cases same
  rfl

namespace UntypedView

def ofTyped (tv : TokenView) : UntypedView := ⟨.str tv.token,tv.snapshots.rename .str .ofTyped Scalar.str_injective⟩

/-- `live_snapshots`, where the clock is read for every snapshot. -/
def liveSnapshots (tv : UntypedView) (staleAfter : ℚ) (readings : Scalar → ℚ) : Except PyError (List UntypedSnapshot) :=
  Json.sortedDesc UntypedSnapshot.apr
    ((tv.snapshots.entries.filter (fun e => !e.2.isStale staleAfter (readings e.1))).map Prod.snd)
/-- `all_snapshots`. -/
def allSnapshots (tv : UntypedView) : Except PyError (List UntypedSnapshot) := Json.sortedDesc UntypedSnapshot.apr tv.snapshots.values
/-- `max_apr`, and `min_apr`. -/
def maxApr (tv : UntypedView) (staleAfter : ℚ) (readings : Scalar → ℚ) : Except PyError Json := do
  Json.greatest (.num 0) ((← tv.liveSnapshots staleAfter readings).map UntypedSnapshot.apr)
def minApr (tv : UntypedView) (staleAfter : ℚ) (readings : Scalar → ℚ) : Except PyError Json := do
  Json.least (.num 0) ((← tv.liveSnapshots staleAfter readings).map UntypedSnapshot.apr)
/-- `spread_apr`: the first live APR less the last one. -/
def spreadApr (tv : UntypedView) (staleAfter : ℚ) (readings : Scalar → ℚ) : Except PyError ℚ := do
  match ← tv.liveSnapshots staleAfter readings with
  | [] => return 0
  | [_] => return 0
  | first :: second :: rest => first.apr.minus ((second :: rest).getLast (List.cons_ne_nil _ _)).apr
/-- `exchange_count`. -/
def exchangeCount (tv : UntypedView) (staleAfter : ℚ) (readings : Scalar → ℚ) : Except PyError ℕ := do
  return (← tv.liveSnapshots staleAfter readings).length

end UntypedView

structure UntypedNormalizer where
  staleAfter : ℚ
  snapshots : Dict (Scalar × Scalar) UntypedSnapshot
  tokenViews : Dict Scalar UntypedView
  updateCount : ℕ
  lastUpdateAt : ℚ

namespace UntypedNormalizer

def init (staleAfter : ℚ) : UntypedNormalizer := ⟨staleAfter,.empty,.empty,0,0⟩
/-- A record stored under the keys of its exchange and its token. -/
def store (n : UntypedNormalizer) (now : ℚ) (exchange token : Scalar) (data : UntypedFundingData) : UntypedNormalizer :=
  let snapshot : UntypedSnapshot := ⟨data,now⟩
  let tv := (n.tokenViews.get? token).getD ⟨data.token,.empty⟩
  { n with
    snapshots := n.snapshots.insert (exchange,token) snapshot
    tokenViews := n.tokenViews.insert token { tv with snapshots := tv.snapshots.insert exchange snapshot }
    updateCount := n.updateCount + 1
    lastUpdateAt := now }
/-- `update`, at `now`. A pair that cannot be hashed raises before anything is stored. -/
def update (n : UntypedNormalizer) (now : ℚ) (data : UntypedFundingData) : Except PyError UntypedNormalizer := do
  let exchange ← data.exchange.hash
  let token ← data.token.hash
  return n.store now exchange token data
/-- `arbitrage_candidates`, widest spread first. -/
def arbitrageCandidates (n : UntypedNormalizer) (now : ℚ) : Except PyError (List UntypedView) := do
  let candidates ← collect (fun tv => do
    return if (← tv.exchangeCount n.staleAfter fun _ => now) ≥ 2 then some tv else none) n.tokenViews.values
  let spreads ← candidates.mapM fun tv => do return (tv,Json.num (← tv.spreadApr n.staleAfter fun _ => now))
  return (← Json.sortedDesc Prod.snd spreads).map Prod.fst

/-- The body of the loop of `purge_stale`, for one stale key. -/
def purgeKey (n : UntypedNormalizer) (key : Scalar × Scalar) : UntypedNormalizer :=
  { n with
    snapshots := n.snapshots.erase key
    tokenViews :=
      match n.tokenViews.get? key.2 with
      | none => n.tokenViews
      | some tv =>
        let left := tv.snapshots.erase key.1
        if left.entries = [] then n.tokenViews.erase key.2
        else n.tokenViews.insert key.2 { tv with snapshots := left } }
/-- `purge_stale` at `now`. -/
def purgeStale (n : UntypedNormalizer) (now : ℚ) : UntypedNormalizer :=
  ((n.snapshots.filter (fun e => e.2.isStale n.staleAfter now)).keys).foldl purgeKey n

end UntypedNormalizer

/-! ### The calculators -/

/-- One leg of an opportunity. -/
structure UntypedLeg where
  exchange : Json
  token : Json
  side : Side
  fundingRate : Json
  fundingRate8h : Json
  fundingApr : Json
  markPrice : Json
  indexPrice : Json
  openInterestUsd : Json
  makerFee : Json
  takerFee : Json
  isStale : Bool

/-- One opportunity. What is computed is a number. -/
structure UntypedResult where
  token : Json
  longLeg : UntypedLeg
  shortLeg : UntypedLeg
  fundingDeltaApr : ℚ
  priceSpreadPct : ℚ
  netAprMaker : ℚ
  netAprTaker : ℚ
  entryFeePctTaker : ℚ
  breakevenHoursTaker : Option ℚ
  detectedAt : ℤ

def UntypedLeg.of (side : Side) (s : UntypedSnapshot) (now : ℚ) : UntypedLeg where
  exchange := s.data.exchange
  token := s.data.token
  side := side
  fundingRate := s.data.fundingRate
  fundingRate8h := s.data.fundingRate8h
  fundingApr := s.data.fundingApr
  markPrice := s.data.markPrice
  indexPrice := s.data.indexPrice
  openInterestUsd := s.data.openInterestUsd
  makerFee := s.data.makerFee
  takerFee := s.data.takerFee
  isStale := s.isStale defaultStaleAfter now

/-- A row of the funding table. -/
structure UntypedRateRow where
  exchange : Json
  token : Json
  fundingRate : Json
  fundingRate8h : Json
  fundingApr : Json
  markPrice : Json
  openInterestUsd : Json
  volume24hUsd : Json
  priceSpreadPct : Json
  makerFee : Json
  takerFee : Json
  isLive : Json
  isStale : Bool
  ageSeconds : ℚ
  timestamp : Json

/-- The summary of a token. -/
structure UntypedRankRow where
  token : Json
  maxApr : Json
  minApr : Json
  spreadApr : ℚ
  exchangeCount : ℕ
  rows : List UntypedRateRow

namespace UntypedNormalizer
open AprCalculator FundingAggregator
variable (rnd : ℕ → ℚ → ℚ) (minNetAprTaker : ℚ) (n : UntypedNormalizer) (now : ℚ) (nowMs : ℤ)

/-- `_compute_pair`, whose `except` clause makes a pair without numbers none. -/
def computePair (longSnap shortSnap : UntypedSnapshot) : Except PyError (Option UntypedResult) :=
  let ld := longSnap.data
  let sd := shortSnap.data
  skipping [.typeError,.valueError,.zeroDivisionError] do
    if ld.exchange.key = sd.exchange.key then return none
    else
      let fundingDeltaApr := |← sd.fundingApr.minus ld.fundingApr|
      let avgPrice ← (← ld.markPrice.plus sd.markPrice).dividedBy 2
      let priceGap ← ld.markPrice.minus sd.markPrice
      let priceSpreadPct := if avgPrice > 0 then |priceGap| / avgPrice * 100 else 0
      let makerFeePct ← (← ld.makerFee.plus sd.makerFee).twice
      let takerFeePct ← (← ld.takerFee.plus sd.takerFee).twice
      let netAprMaker ← (Json.num fundingDeltaApr).minus makerFeePct
      let netAprTaker ← (Json.num fundingDeltaApr).minus takerFeePct
      let oneWayEntryPct ← (← ld.takerFee.plus sd.takerFee).toNum
      let breakevenHours := calculateBreakevenHours fundingDeltaApr (oneWayEntryPct * 2)
      return some {
        token := ld.token
        longLeg := .of .long longSnap now
        shortLeg := .of .short shortSnap now
        fundingDeltaApr := rnd 6 fundingDeltaApr
        priceSpreadPct := rnd 6 priceSpreadPct
        netAprMaker := rnd 6 netAprMaker
        netAprTaker := rnd 6 netAprTaker
        entryFeePctTaker := rnd 6 oneWayEntryPct
        breakevenHoursTaker := (breakevenHours.filter (fun hours => hours ≠ 0)).map (rnd 2)
        detectedAt := nowMs }

/-- What the loop of `calculate` appends for one view. -/
def opportunity (tv : UntypedView) : Except PyError (Option UntypedResult) := do
  match ← Json.sorted UntypedSnapshot.apr (← tv.allSnapshots) with
  | longSnap :: second :: rest =>
    let result ← computePair rnd now nowMs longSnap ((second :: rest).getLast (List.cons_ne_nil _ _))
    return result.filter (fun result => result.netAprTaker ≥ minNetAprTaker)
  | _ => return none
/-- `calculate`, at `now`. -/
def calculate : Except PyError (List UntypedResult) := do
  return sortedByDesc (fun r => r.netAprTaker) (← collect (opportunity rnd minNetAprTaker now nowMs) (← n.arbitrageCandidates now))

/-- What the clock reads for a token and exchange in every pass; it never goes back. -/
structure Clock where
  reading : Scalar → Pass → Scalar → ℚ
  forward : ∀ token p q exchange, p.order ≤ q.order → reading token p exchange ≤ reading token q exchange

/-- `_snap_to_row`. -/
def snapToRow (s : UntypedSnapshot) (staleReading ageReading : ℚ) : UntypedRateRow where
  exchange := s.data.exchange
  token := s.data.token
  fundingRate := s.data.fundingRate
  fundingRate8h := s.data.fundingRate8h
  fundingApr := s.data.fundingApr
  markPrice := s.data.markPrice
  openInterestUsd := s.data.openInterestUsd
  volume24hUsd := s.data.volume24hUsd
  priceSpreadPct := s.data.priceSpreadPct
  makerFee := s.data.makerFee
  takerFee := s.data.takerFee
  isLive := s.data.isLive
  isStale := s.isStale defaultStaleAfter staleReading
  ageSeconds := rnd 1 (ageReading - s.receivedAt)
  timestamp := s.data.timestamp

/-- The body of the loop of `build_ranked`, for one view. -/
def rankRow (clock : Clock) (tv : UntypedView) : Except PyError (Option UntypedRankRow) := do
  let read := clock.reading tv.token.key
  if (← tv.liveSnapshots defaultStaleAfter (read .live)).isEmpty then return none
  else
    let rows := (← tv.allSnapshots).map fun s =>
      snapToRow rnd s (read .rowStale s.data.exchange.key) (read .rowAge s.data.exchange.key)
    return some {
      token := tv.token
      maxApr := ← tv.maxApr defaultStaleAfter (read .maxApr)
      minApr := ← tv.minApr defaultStaleAfter (read .minApr)
      spreadApr := ← tv.spreadApr defaultStaleAfter (read .spreadApr)
      exchangeCount := ← tv.exchangeCount defaultStaleAfter (read .exchangeCount)
      rows := rows }
/-- `build_ranked`. -/
def buildRanked (clock : Clock) : Except PyError (List UntypedRankRow) := do
  Json.sortedDesc (fun r => r.maxApr) (← collect (rankRow rnd clock) n.tokenViews.values)

end UntypedNormalizer

end FundingRadar
