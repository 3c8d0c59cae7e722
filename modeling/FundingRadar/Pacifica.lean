import FundingRadar.FundingData
import FundingRadar.Symbols

/-!
The Pacifica collector: every listed market of a response becomes a record, at the
mark price of the WebSocket where there is one. Rates are taken to be for eight
hours, and there is no history.
-/
namespace FundingRadar

/-- The state of the collector. A set is a list of its members. -/
structure PacificaCollector where
  config : CollectorConfig
  wsSnapshots : Dict Scalar ℚ
  activeSymbols : List Scalar

namespace PacificaCollector
open BaseCollector NormalizedFundingData

def makerFee : ℚ := 0
def takerFee : ℚ := 5 / 100
def fundingIntervalHours : ℤ := 8

def addMarket (active : List Scalar) (m : Json) : Except PyError (List Scalar) := do
  let sym ← m.get "symbol"
  if sym.truthy then return active ++ [← sym.hash] else return active

/-- `_load_exchange_info`; an exception leaves what was added so far. -/
def loadExchangeInfo (c : PacificaCollector) (response : Option Json) : PacificaCollector :=
  match response with
  | none => c
  | some data =>
    match data.get "data" (.arr []) with
    | .error _ => c
    | .ok markets =>
      match markets.iter with
      | .error _ => { c with activeSymbols := [] }
      | .ok ms => { c with activeSymbols := (accumulate addMarket [] ms).1 }

/-- The record of one listed market. Volume and open interest are in units of the
    asset; a missing index price is the mark price. -/
def marketRecord (py : Numerals) (nowMs : ℤ) (c : PacificaCollector) (key : Scalar) (m : Json) :
    Except PyError (Option NormalizedFundingData) := do
  let symbol ← key.asStr
  let restPrice ← m.number py "mark"
  let markPrice := (c.wsSnapshots.get? key).getD restPrice
  let indexPrice ← m.number py "oracle" (.num markPrice)
  let fundingRate ← m.number py "funding"
  let fundingApr ← computeFundingApr fundingRate fundingIntervalHours
  let volume24h ← m.number py "volume_24h"
  let dailyVolume := volume24h * markPrice
  let openInterest ← m.number py "open_interest"
  let openInterestUsd := openInterest * markPrice
  if openInterestUsd < c.config.minOpenInterestUsd ∨ dailyVolume ≤ 0 then return none
  else
    let predictedRate ← m.number py "next_funding"
    return some {
      exchange := "pacifica"
      token := stripQuote symbol
      symbol := symbol
      fundingRate := fundingRate
      fundingRate8h := fundingRate
      fundingApr := fundingApr
      fundingIntervalHours := fundingIntervalHours
      nextFundingTime := none
      predictedRate := some predictedRate
      markPrice := markPrice
      indexPrice := indexPrice
      openInterestUsd := openInterestUsd
      volume24hUsd := dailyVolume
      priceSpreadPct := priceSpreadPct markPrice indexPrice
      makerFee := makerFee
      takerFee := takerFee
      timestamp := nowMs
      isLive := (c.wsSnapshots.get? key).isSome }

/-- The body of the loop of `_poll_rest`; only the record is made inside the `try`. -/
def pollMarket (py : Numerals) (nowMs : ℤ) (c : PacificaCollector) (m : Json) :
    Except PyError (Option NormalizedFundingData) := do
  let key ← (← m.get "symbol" (.str "")).hash
  if key ∉ c.activeSymbols then return none
  else skipping [.typeError,.valueError,.keyError] (c.marketRecord py nowMs key m)

/-- `_poll_rest`, which loads the symbols when it has none; a response is `none` where
    its request failed. -/
def pollRest (py : Numerals) (nowMs : ℤ) (c : PacificaCollector) (info response : Option Json) :
    PacificaCollector × Except PyError (List NormalizedFundingData) :=
  let loaded := if c.activeSymbols = [] then c.loadExchangeInfo info else c
  (loaded,
    match response with
    | none => .ok []
    | some data =>
      match data.get "data" (.arr []) with
      | .error _ => .ok []
      | .ok markets => do collect (loaded.pollMarket py nowMs) (← markets.iter))

theorem marketRecord_rated {py : Numerals} {nowMs : ℤ} {c : PacificaCollector} {key : Scalar} {m : Json}
    {r : NormalizedFundingData} (made : c.marketRecord py nowMs key m = .ok (some r)) :
    r.Rated 1 ∧ r.fundingIntervalHours = 8 := by
  simp only [marketRecord,bind_eq_ok] at made
  obtain ⟨symbol,_,restPrice,_,indexPrice,_,rate,_,apr,annual,volume,_,openInterest,_,made⟩ := made
  split at made
  · cases made
  · obtain ⟨predicted,-,made⟩ := bind_eq_ok.mp made
    cases made
    exact ⟨⟨annual,(mul_one _).symm⟩,rfl⟩

theorem pollMarket_rated {py : Numerals} {nowMs : ℤ} {c : PacificaCollector} {m : Json} {r : NormalizedFundingData}
    (polled : c.pollMarket py nowMs m = .ok (some r)) : r.Rated 1 ∧ r.fundingIntervalHours = 8 := by
  simp only [pollMarket,bind_eq_ok] at polled
  obtain ⟨name,-,key,-,polled⟩ := polled
  split at polled
  · cases polled
  · exact marketRecord_rated ((skipping_eq_some _ _ _).mp polled)

/-- Every record takes the reported rate for an 8 hour rate. -/
theorem pollRest_rated {py : Numerals} {nowMs : ℤ} {c : PacificaCollector} {info response : Option Json}
    {results : List NormalizedFundingData} (ran : (c.pollRest py nowMs info response).2 = .ok results)
    {r : NormalizedFundingData} (member : r ∈ results) : r.Rated 1 ∧ r.fundingIntervalHours = 8 := by
  unfold pollRest at ran
  dsimp only at ran
  split at ran
  · cases ran
    cases member
  · split at ran
    · cases ran
      cases member
    · obtain ⟨ms,-,collected⟩ := bind_eq_ok.mp ran
      obtain ⟨m,-,polled⟩ := collect_mem collected member
      exact pollMarket_rated polled

end PacificaCollector
end FundingRadar
