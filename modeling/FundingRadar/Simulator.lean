import Mathlib.Tactic.FieldSimp
import FundingRadar.TokenKeys

/-!
The simulator of a carry trade, `POST /simulator/calculate`, and `calculate_pnl`. The
pair calculator, `calculate_pnl` and the simulator each group entry, exit, legs and
annualisation in their own way; before rounding they compute the same numbers.
-/
namespace FundingRadar

namespace AprCalculator

/-- What `calculate_pnl` returns. -/
structure Pnl where
  grossPnlUsd : ℚ
  entryFeeUsd : ℚ
  exitFeeUsd : ℚ
  netPnlUsd : ℚ
  netApr : ℚ
  breakevenDays : Option ℚ
deriving DecidableEq

variable (rnd : ℕ → ℚ → ℚ) in
/-- `calculate_pnl`, with `rnd` for `round`. -/
def calculatePnl (fundingApr capitalUsd days entryFeePct exitFeePct : ℚ) : Except PyError Pnl :=
  let grossPnlUsd := fundingApr / 100 * capitalUsd * (days / 365)
  let entryFeeUsd := entryFeePct / 100 * capitalUsd
  let exitFeeUsd := exitFeePct / 100 * capitalUsd
  let netPnlUsd := grossPnlUsd - entryFeeUsd - exitFeeUsd
  let totalFeesUsd := entryFeeUsd + exitFeeUsd
  let dailyYieldUsd := fundingApr / 100 * capitalUsd / 365
  let breakevenDays := if dailyYieldUsd > 0 then some (totalFeesUsd / dailyYieldUsd) else none
  if days > 0 ∧ capitalUsd = 0 then .error .zeroDivisionError
  else
    let netApr := if days > 0 then netPnlUsd / capitalUsd * (365 / days) * 100 else 0
    .ok {
      grossPnlUsd := rnd 4 grossPnlUsd
      entryFeeUsd := rnd 4 entryFeeUsd
      exitFeeUsd := rnd 4 exitFeeUsd
      netPnlUsd := rnd 4 netPnlUsd
      netApr := rnd 4 netApr
      -- Zero days are falsy and reported as none.
      breakevenDays := (breakevenDays.filter (fun days => days ≠ 0)).map (rnd 2) }

/-- In place of `round`, to compare what the computations round. -/
def unrounded (_ : ℕ) (x : ℚ) : ℚ := x

end AprCalculator

namespace Simulator
open AprCalculator TokenKeys

inductive FeeType
  | maker
  | taker
deriving DecidableEq

structure SimulateRequest where
  token : String
  longExchange : String
  shortExchange : String
  capitalUsd : ℚ
  days : ℚ
  feeType : FeeType := .taker
  slippagePct : ℚ := 0
deriving DecidableEq

/-- The bounds of the fields and `legs_differ`. -/
structure SimulateRequest.Accepted (lower : String → String) (body : SimulateRequest) : Prop where
  capital : 0 < body.capitalUsd ∧ body.capitalUsd ≤ 100000000
  days : 0 < body.days ∧ body.days ≤ 365
  slippage : 0 ≤ body.slippagePct ∧ body.slippagePct ≤ 5
  legsDiffer : lower body.longExchange ≠ lower body.shortExchange

/-- The keys of a leg's document that the simulator reads. -/
structure LegDocument where
  fundingApr : Option ℚ
  makerFee : Option ℚ
  takerFee : Option ℚ
  markPrice : Option ℚ
  fundingRate8h : Option ℚ
  isStale : Option Bool
deriving DecidableEq

/-- The document under `funding:latest:…`, which says nothing about staleness. -/
def LegDocument.ofLatest (d : NormalizedFundingData) : LegDocument :=
  ⟨some d.fundingApr,some d.makerFee,some d.takerFee,some d.markPrice,some d.fundingRate8h,none⟩
/-- A row of the ranking. -/
def LegDocument.ofRow (row : ExchangeRateRow) : LegDocument :=
  ⟨some row.fundingApr,some row.makerFee,some row.takerFee,some row.markPrice,some row.fundingRate8h,some row.isStale⟩

/-- The latest record of a token on an exchange, or else its row of the ranking. -/
def legDocument (pub : Published) (exchange token : String) : Option LegDocument :=
  ((pub.latest.get? (latestKey exchange token)).map LegDocument.ofLatest).or
    ((rankOf pub token).bind fun item => (item.rows.find? (fun row => row.exchange = exchange)).map LegDocument.ofRow)

/-- The fee of the chosen type, the taker fee where it is missing. -/
def feePct (feeType : FeeType) (leg : LegDocument) : ℚ :=
  let takerFee := leg.takerFee.getD (35 / 1000)
  match feeType with
  | .taker => takerFee
  | .maker => leg.makerFee.getD takerFee
/-- `float(document.get("funding_apr", 0))`. -/
def aprOf (leg : LegDocument) : ℚ := leg.fundingApr.getD 0
/-- `float(document.get(key) or 0) or None`. -/
def present (x : Option ℚ) : Option ℚ := x.filter (fun v => v ≠ 0)

structure LegResult where
  exchange : String
  side : Side
  fundingApr : ℚ
  fundingIncomeUsd : ℚ
  feeUsd : ℚ
  slippageUsd : ℚ
deriving DecidableEq

structure SimulateResponse where
  token : String
  longExchange : String
  shortExchange : String
  capitalUsd : ℚ
  days : ℚ
  feeType : FeeType
  longLeg : LegResult
  shortLeg : LegResult
  grossFundingDeltaApr : ℚ
  grossFundingPnlUsd : ℚ
  totalFeesUsd : ℚ
  totalSlippageUsd : ℚ
  netPnlUsd : ℚ
  netApr : ℚ
  breakevenDays : Option ℚ
  breakevenHours : Option ℚ
  longMarkPrice : Option ℚ
  shortMarkPrice : Option ℚ
  longFundingRate8h : Option ℚ
  shortFundingRate8h : Option ℚ
  longDataStale : Bool
  shortDataStale : Bool
deriving DecidableEq

/-- A 404 with its detail, or an exception. -/
inductive SimulatorError
  | notFound (detail : String)
  | raised (e : PyError)
deriving DecidableEq

variable (rnd : ℕ → ℚ → ℚ) (upper lower : String → String) (pub : Published)

def legResult (exchange : String) (side : Side) (body : SimulateRequest) (apr feePct : ℚ) : LegResult where
  exchange := exchange
  side := side
  fundingApr := rnd 4 apr
  fundingIncomeUsd := rnd 4 (apr / 100 * body.capitalUsd * (body.days / 365))
  feeUsd := rnd 4 (feePct / 100 * body.capitalUsd * 2)
  slippageUsd := rnd 4 (body.slippagePct / 100 * body.capitalUsd * 2)

/-- The computation of `calculate_simulation` on the two documents. -/
def simulate (body : SimulateRequest) (long short : LegDocument) : Except PyError SimulateResponse :=
  let longFeePct := feePct body.feeType long
  let shortFeePct := feePct body.feeType short
  let fundingDeltaApr := aprOf short - aprOf long
  let entryFeePct := longFeePct + shortFeePct + body.slippagePct * 2
  let exitFeePct := longFeePct + shortFeePct + body.slippagePct * 2
  let breakevenTotalFeePct := (longFeePct + shortFeePct) * 2 + body.slippagePct * 4
  let breakevenHours := present (calculateBreakevenHours |fundingDeltaApr| breakevenTotalFeePct)
  let breakevenDays := breakevenHours.map (· / 24)
  match calculatePnl rnd fundingDeltaApr body.capitalUsd body.days entryFeePct exitFeePct with
  | .error e => .error e
  | .ok pnl => .ok {
      token := upper body.token
      longExchange := lower body.longExchange
      shortExchange := lower body.shortExchange
      capitalUsd := body.capitalUsd
      days := body.days
      feeType := body.feeType
      longLeg := legResult rnd (lower body.longExchange) .long body (aprOf long) longFeePct
      shortLeg := legResult rnd (lower body.shortExchange) .short body (aprOf short) shortFeePct
      grossFundingDeltaApr := rnd 4 fundingDeltaApr
      grossFundingPnlUsd := rnd 4 pnl.grossPnlUsd
      totalFeesUsd := rnd 4 ((longFeePct + shortFeePct) * 2 / 100 * body.capitalUsd)
      totalSlippageUsd := rnd 4 (body.slippagePct / 100 * body.capitalUsd * 4)
      netPnlUsd := rnd 4 pnl.netPnlUsd
      netApr := rnd 4 pnl.netApr
      breakevenDays := (present breakevenDays).map (rnd 2)
      breakevenHours := breakevenHours.map (rnd 1)
      longMarkPrice := present long.markPrice
      shortMarkPrice := present short.markPrice
      longFundingRate8h := present long.fundingRate8h
      shortFundingRate8h := present short.fundingRate8h
      longDataStale := long.isStale.getD false
      shortDataStale := short.isStale.getD false }

/-- `calculate_simulation`. -/
def calculateSimulation (body : SimulateRequest) : Except SimulatorError SimulateResponse :=
  let missing := fun exchange => SimulatorError.notFound ("No live data for " ++ upper body.token ++ " on " ++ exchange ++ ".")
  match legDocument pub (lower body.longExchange) (upper body.token) with
  | none => .error (missing body.longExchange)
  | some long =>
    match legDocument pub (lower body.shortExchange) (upper body.token) with
    | none => .error (missing body.shortExchange)
    | some short => (simulate rnd upper lower body long short).mapError SimulatorError.raised

/-! ### The agreement of the computations -/

/-- The documents carry the data that the lookups find. -/
theorem legData_eq (exchange token : String) :
    legData pub exchange token =
      (legDocument pub exchange token).map (fun leg => ⟨aprOf leg,feePct .maker leg,feePct .taker leg⟩) := by
  unfold legData legDocument
  cases pub.latest.get? (latestKey exchange token) with
  | some d => rfl
  | none =>
    cases rankOf pub token with
    | none => rfl
    | some item =>
      show (item.rows.find? _).map LegData.ofRow = ((item.rows.find? _).map LegDocument.ofRow).map _
      cases item.rows.find? (fun row => row.exchange = exchange) with
      | none => rfl
      | some row => rfl

/-- The fee of a record that a simulation uses. -/
def feeOf : FeeType → NormalizedFundingData → ℚ
  | .maker,d => d.makerFee
  | .taker,d => d.takerFee

/-- The endpoint computes with the data of the two records that its lookups find. -/
theorem calculateSimulation_of_legs {body : SimulateRequest} {ld sd : NormalizedFundingData}
    (long : legData pub (lower body.longExchange) (upper body.token) = some (.ofLatest ld))
    (short : legData pub (lower body.shortExchange) (upper body.token) = some (.ofLatest sd)) :
    ∃ ll sl, calculateSimulation rnd upper lower pub body = (simulate rnd upper lower body ll sl).mapError .raised ∧
      aprOf ll = ld.fundingApr ∧ aprOf sl = sd.fundingApr ∧
      (∀ t, feePct t ll = feeOf t ld) ∧ ∀ t, feePct t sl = feeOf t sd := by
  have reads : ∀ {exchange : String} {d : NormalizedFundingData},
      legData pub exchange (upper body.token) = some (.ofLatest d) →
      ∃ leg, legDocument pub exchange (upper body.token) = some leg ∧ aprOf leg = d.fundingApr ∧
        ∀ t, feePct t leg = feeOf t d := by
    intro exchange d found
    rw [legData_eq,Option.map_eq_some_iff] at found
    obtain ⟨leg,document,same⟩ := found
    obtain ⟨apr,maker,taker⟩ : aprOf leg = d.fundingApr ∧ feePct .maker leg = d.makerFee ∧ feePct .taker leg = d.takerFee := by
      simpa [LegData.ofLatest] using same
    refine ⟨leg,document,apr,?_⟩
    intro t
    cases t with
    | maker => exact maker
    | taker => exact taker
  obtain ⟨ll,longDocument,longApr,longFee⟩ := reads long
  obtain ⟨sl,shortDocument,shortApr,shortFee⟩ := reads short
  refine ⟨ll,sl,?_,longApr,shortApr,longFee,shortFee⟩
  rw [calculateSimulation,longDocument,shortDocument]

/-- On positive capital `calculate_pnl` returns, with the yield of the holding period and
    the fees spread over it. -/
theorem calculatePnl_unrounded (fundingApr capitalUsd days entryFeePct exitFeePct : ℚ) (capital : 0 < capitalUsd) :
    ∃ pnl, calculatePnl unrounded fundingApr capitalUsd days entryFeePct exitFeePct = .ok pnl ∧
      (0 < days → pnl.netApr = fundingApr - (entryFeePct + exitFeePct) * 365 / days) ∧
      (0 < fundingApr → 0 < entryFeePct + exitFeePct →
        pnl.breakevenDays.map (· * 24) = calculateBreakevenHours fundingApr (entryFeePct + exitFeePct)) := by
  have nonzero : ¬ (days > 0 ∧ capitalUsd = 0) := fun impossible => capital.ne' impossible.2
  unfold calculatePnl
  rw [if_neg nonzero]
  refine ⟨_,rfl,?_,?_⟩
  · intro positive
    have capitalNonzero : capitalUsd ≠ 0 := capital.ne'
    have daysNonzero : days ≠ 0 := positive.ne'
    simp only [unrounded,gt_iff_lt,positive,if_true]
    field_simp
    ring
  · intro yield fees
    have daily : 0 < fundingApr / 100 * capitalUsd / 365 := by positivity
    have cost : 0 < entryFeePct / 100 * capitalUsd + exitFeePct / 100 * capitalUsd := by
      have both : 0 < (entryFeePct + exitFeePct) * capitalUsd / 100 := by positivity
      linarith
    have breakeven : (entryFeePct / 100 * capitalUsd + exitFeePct / 100 * capitalUsd) / (fundingApr / 100 * capitalUsd / 365) ≠ 0 :=
      (div_pos cost daily).ne'
    have capitalNonzero : capitalUsd ≠ 0 := capital.ne'
    have yieldNonzero : fundingApr ≠ 0 := yield.ne'
    simp only [calculateBreakevenHours,not_le.mpr yield,if_false,gt_iff_lt,daily,if_true,Option.filter,breakeven,ne_eq,
      not_false_eq_true,decide_true,Option.map_some,unrounded]
    congr 1
    field_simp

/-- What a pair and a simulation of its legs have in common. -/
structure PathsAgree (ld sd : NormalizedFundingData) (body : SimulateRequest) (pair : ArbitrageResult)
    (response : SimulateResponse) : Prop where
  delta : response.grossFundingDeltaApr = pair.fundingDeltaApr
  netApr : response.netApr =
    pair.fundingDeltaApr - 2 * (feeOf body.feeType ld + feeOf body.feeType sd) * 365 / body.days
  maker : body.days = 365 → body.feeType = .maker → response.netApr = pair.netAprMaker
  taker : body.days = 365 → body.feeType = .taker → response.netApr = pair.netAprTaker
  breakeven : body.feeType = .taker → response.breakevenHours = pair.breakevenHoursTaker

theorem pathsAgree_of_netApr {ld sd : NormalizedFundingData} {body : SimulateRequest} {pair : ArbitrageResult}
    {response : SimulateResponse} (delta : response.grossFundingDeltaApr = pair.fundingDeltaApr)
    (netApr : response.netApr =
      pair.fundingDeltaApr - 2 * (feeOf body.feeType ld + feeOf body.feeType sd) * 365 / body.days)
    (makerNet : pair.netAprMaker = pair.fundingDeltaApr - (ld.makerFee + sd.makerFee) * 2)
    (takerNet : pair.netAprTaker = pair.fundingDeltaApr - (ld.takerFee + sd.takerFee) * 2)
    (breakeven : body.feeType = .taker → response.breakevenHours = pair.breakevenHoursTaker) :
    PathsAgree ld sd body pair response := by
  refine ⟨delta,netApr,?_,?_,breakeven⟩
  · intro year maker
    rw [netApr,year,maker,makerNet,feeOf,feeOf]
    ring
  · intro year taker
    rw [netApr,year,taker,takerNet,feeOf,feeOf]
    ring

variable {upper lower pub}

/-- The pair calculator, the simulator and `calculate_pnl` agree on every pair of
    snapshots, all fees, every capital and every duration. -/
theorem profitability_paths_agree {ls ss : ExchangeSnapshot} {body : SimulateRequest} (now : ℚ) (nowMs : ℤ)
    (exchanges : ls.data.exchange ≠ ss.data.exchange) (ordered : apr ls ≤ apr ss)
    (long : legData pub (lower body.longExchange) (upper body.token) = some (.ofLatest ls.data))
    (short : legData pub (lower body.shortExchange) (upper body.token) = some (.ofLatest ss.data))
    (capital : 0 < body.capitalUsd) (days : 0 < body.days) (slippage : body.slippagePct = 0) :
    (∃ pair response, ArbitrageCalculator.computePair unrounded now nowMs ls ss = some pair ∧
      calculateSimulation unrounded upper lower pub body = .ok response ∧ PathsAgree ls.data ss.data body pair response) ∧
    ∀ fundingApr capitalUsd days entryFeePct exitFeePct : ℚ, 0 < capitalUsd → 0 < fundingApr → 0 < entryFeePct + exitFeePct →
      ∃ pnl, calculatePnl unrounded fundingApr capitalUsd days entryFeePct exitFeePct = .ok pnl ∧
        pnl.breakevenDays.map (· * 24) = calculateBreakevenHours fundingApr (entryFeePct + exitFeePct) := by
  constructor
  · obtain ⟨ll,sl,called,longApr,shortApr,longFee,shortFee⟩ := calculateSimulation_of_legs unrounded upper lower pub long short
    obtain ⟨pnl,computed,netApr,-⟩ := calculatePnl_unrounded (ss.data.fundingApr - ls.data.fundingApr) body.capitalUsd
      body.days (feeOf body.feeType ls.data + feeOf body.feeType ss.data + body.slippagePct * 2)
      (feeOf body.feeType ls.data + feeOf body.feeType ss.data + body.slippagePct * 2) capital
    have spread : |ss.data.fundingApr - ls.data.fundingApr| = ss.data.fundingApr - ls.data.fundingApr :=
      abs_of_nonneg (sub_nonneg.mpr ordered)
    unfold ArbitrageCalculator.computePair
    rw [if_neg exchanges]
    unfold simulate at called
    simp only [longApr,shortApr,longFee,shortFee,computed] at called
    refine ⟨_,_,rfl,called,pathsAgree_of_netApr ?_ ?_ rfl rfl ?_⟩
    · exact spread.symm
    · show pnl.netApr = |ss.data.fundingApr - ls.data.fundingApr| - _
      rw [spread,netApr days,slippage]
      ring
    · intro taker
      show (present _).map (unrounded 1) = (Option.filter _ _).map (unrounded 2)
      rw [taker,feeOf,feeOf,slippage,zero_mul,add_zero]
      rfl
  · intro fundingApr capitalUsd days entryFeePct exitFeePct capital yield fees
    obtain ⟨pnl,computed,-,breakeven⟩ := calculatePnl_unrounded fundingApr _ days _ _ capital
    exact ⟨pnl,computed,breakeven yield fees⟩

def hyperliquidLeg : ExchangeSnapshot := ⟨ArbitrageCalculator.btcRecord "hyperliquid" 1 (35 / 1000),0⟩
def asterLeg : ExchangeSnapshot := ⟨ArbitrageCalculator.btcRecord "aster" 10 (50 / 1000),0⟩
def btcRequest : SimulateRequest := { token := "btc", longExchange := "Hyperliquid", shortExchange := "aster", capitalUsd := 1000, days := 365 }
def btcPublished : Published := publishBatch ⟨.empty,[],[]⟩ [hyperliquidLeg.data,asterLeg.data]

theorem btc_paths_agree :
    ∃ pair response, ArbitrageCalculator.computePair unrounded 0 0 hyperliquidLeg asterLeg = some pair ∧
      calculateSimulation unrounded asciiUpper asciiLower btcPublished btcRequest = .ok response ∧
      PathsAgree hyperliquidLeg.data asterLeg.data btcRequest pair response := by
  have exchanges : hyperliquidLeg.data.exchange ≠ asterLeg.data.exchange := by decide
  have ordered : apr hyperliquidLeg ≤ apr asterLeg := by decide +kernel
  have long : legData btcPublished (asciiLower btcRequest.longExchange) (asciiUpper btcRequest.token) =
      some (.ofLatest hyperliquidLeg.data) := by decide +kernel
  have short : legData btcPublished (asciiLower btcRequest.shortExchange) (asciiUpper btcRequest.token) =
      some (.ofLatest asterLeg.data) := by decide +kernel
  have capital : 0 < btcRequest.capitalUsd := by decide +kernel
  have days : 0 < btcRequest.days := by decide +kernel
  exact (profitability_paths_agree 0 0 exchanges ordered long short capital days rfl).1

end Simulator
end FundingRadar
