import Mathlib.Data.Rat.Floor
import Mathlib.Tactic.Ring
import Mathlib.Tactic.FieldSimp
import Mathlib.Tactic.Positivity
import FundingRadar.Json

/-!
The record that every collector publishes, the configuration that collectors share,
and the two places that convert a funding rate: the helpers of the base collector
and `apr_calculator`. Floats are exact rationals; both places agree wherever the
interval is positive.
-/
namespace FundingRadar

/-- One normalised snapshot of one asset on one exchange. The token and the symbol
    are strings except where a collector passes on a name it never inspects. -/
structure NormalizedFundingData (τ : Type := String) where
  exchange : String
  token : τ
  symbol : τ
  fundingRate : ℚ
  fundingRate8h : ℚ
  fundingApr : ℚ
  fundingIntervalHours : ℤ
  nextFundingTime : Option ℤ
  predictedRate : Option ℚ
  markPrice : ℚ
  indexPrice : ℚ
  openInterestUsd : ℚ
  volume24hUsd : ℚ
  priceSpreadPct : ℚ
  makerFee : ℚ
  takerFee : ℚ
  timestamp : ℤ
  isLive : Bool
deriving DecidableEq

/-- What the modelled parts of a collector read of its configuration. -/
structure CollectorConfig where
  minOpenInterestUsd : ℚ := 1000
deriving DecidableEq

namespace BaseCollector

/-- `_compute_funding_apr`. -/
def computeFundingApr (ratePerInterval : ℚ) (intervalHours : ℤ) : Except PyError ℚ :=
  if intervalHours = 0 then .error .zeroDivisionError
  else .ok (ratePerInterval * (24 / intervalHours * 365) * 100)
/-- `_compute_8h_rate`. -/
def compute8hRate (ratePerInterval : ℚ) (intervalHours : ℤ) : Except PyError ℚ :=
  if intervalHours = 0 then .error .zeroDivisionError else .ok (ratePerInterval * (8 / intervalHours))
/-- The spread every collector reports between its mark and its index price. -/
def priceSpreadPct (markPrice indexPrice : ℚ) : ℚ :=
  if indexPrice > 0 then (markPrice - indexPrice) / indexPrice * 100 else 0
/-- A record of a past settlement: only its rates and its time are known. -/
def historical {τ : Type} (exchange : String) (token symbol : τ) (fundingRate fundingRate8h fundingApr : ℚ)
    (fundingIntervalHours : ℤ) (makerFee takerFee : ℚ) (timestamp : ℤ) : NormalizedFundingData τ where
  exchange := exchange
  token := token
  symbol := symbol
  fundingRate := fundingRate
  fundingRate8h := fundingRate8h
  fundingApr := fundingApr
  fundingIntervalHours := fundingIntervalHours
  nextFundingTime := none
  predictedRate := none
  markPrice := 0
  indexPrice := 0
  openInterestUsd := 0
  volume24hUsd := 0
  priceSpreadPct := 0
  makerFee := makerFee
  takerFee := takerFee
  timestamp := timestamp
  isLive := false

end BaseCollector

namespace AprCalculator

/-- `funding_to_8h`. -/
def fundingTo8h (rate : ℚ) (intervalHours : ℤ) : Except PyError ℚ :=
  if intervalHours ≤ 0 then .error .valueError else .ok (rate * (8 / intervalHours))
/-- `funding_to_apr`. -/
def fundingToApr (rate8h : ℚ) : ℚ := rate8h * 3 * 365 * 100
/-- `annualise`. -/
def annualise (rate : ℚ) (intervalHours : ℤ) : Except PyError ℚ := (fundingTo8h rate intervalHours).map fundingToApr
/-- `entry_exit_fee_pct`. -/
def entryExitFeePct (takerFeePctA takerFeePctB : ℚ) : ℚ := takerFeePctA + takerFeePctB
/-- `calculate_breakeven_hours`. -/
def calculateBreakevenHours (fundingApr totalFeePct : ℚ) : Option ℚ :=
  if fundingApr ≤ 0 then none else some (totalFeePct / (fundingApr / (365 * 24)))

end AprCalculator

open BaseCollector AprCalculator

/-- The two annualisations agree on every positive interval. -/
theorem computeFundingApr_eq_annualise (rate : ℚ) {hours : ℤ} (positive : 0 < hours) :
    computeFundingApr rate hours = annualise rate hours := by
  have nonzero : (hours : ℚ) ≠ 0 := by exact_mod_cast positive.ne'
  simp only [computeFundingApr,annualise,fundingTo8h,fundingToApr,positive.ne',not_le.mpr positive,if_false,Except.map]
  congr 1
  ring

/-- The two conversions to an 8 hour rate agree on every positive interval. -/
theorem compute8hRate_eq_fundingTo8h (rate : ℚ) {hours : ℤ} (positive : 0 < hours) :
    compute8hRate rate hours = fundingTo8h rate hours := by
  simp [compute8hRate,fundingTo8h,positive.ne',not_le.mpr positive]

namespace NormalizedFundingData

/-- The three rates of a record belong together. -/
structure RateCoherent {τ : Type} (r : NormalizedFundingData τ) : Prop where
  eightHour : r.fundingRate8h = r.fundingRate * 8 / r.fundingIntervalHours
  apr : r.fundingApr = r.fundingRate8h * 3 * 365 * 100
  annualised : annualise r.fundingRate r.fundingIntervalHours = .ok r.fundingApr

/-- How a collector fills in the rates: the APR with the shared helper, and the
    8 hour rate as `factor` times the rate it reports. -/
structure Rated {τ : Type} (factor : ℚ) (r : NormalizedFundingData τ) : Prop where
  apr : computeFundingApr r.fundingRate r.fundingIntervalHours = .ok r.fundingApr
  eightHour : r.fundingRate8h = r.fundingRate * factor

/-- With the APR from the helper, the rates belong together exactly when the factor
    fits the interval, or nothing is paid. -/
theorem Rated.coherent_iff {τ : Type} {factor : ℚ} {r : NormalizedFundingData τ} (rated : r.Rated factor)
    (positive : 0 < r.fundingIntervalHours) :
    r.RateCoherent ↔ factor * r.fundingIntervalHours = 8 ∨ r.fundingRate = 0 := by
  have nonzero : (r.fundingIntervalHours : ℚ) ≠ 0 := by exact_mod_cast positive.ne'
  have annual : r.fundingApr = r.fundingRate * (24 / r.fundingIntervalHours * 365) * 100 := by
    have computed := rated.apr
    rw [computeFundingApr,if_neg positive.ne'] at computed
    exact (Except.ok.inj computed).symm
  have factored : r.fundingRate8h = r.fundingRate * 8 / r.fundingIntervalHours ↔
      factor * r.fundingIntervalHours = 8 ∨ r.fundingRate = 0 := by
    rw [rated.eightHour,eq_div_iff nonzero,mul_assoc]
    exact mul_eq_mul_left_iff
  rw [← factored]
  constructor
  · exact RateCoherent.eightHour
  · intro eightHour
    refine ⟨eightHour,?_,?_⟩
    · rw [eightHour,annual]; ring
    · rw [← computeFundingApr_eq_annualise _ positive]; exact rated.apr

end NormalizedFundingData

end FundingRadar
