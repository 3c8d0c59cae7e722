import FundingRadar.Simulator

/-!
The simulator against its own figures. The totals come from the APR difference of the
legs, the lines of the legs from each APR with its own sign, so the ledger balances where
nothing is paid on the long leg. The break-even is computed from the absolute difference,
and is the zero of the P&L where the difference is not negative.
-/
namespace FundingRadar
namespace Simulator
open AprCalculator

/-- `funding_delta_apr`, and the fee of one way with its slippage on both legs. -/
def deltaApr (long short : LegDocument) : ℚ := aprOf short - aprOf long
def oneWayPct (body : SimulateRequest) (long short : LegDocument) : ℚ :=
  feePct body.feeType long + feePct body.feeType short + body.slippagePct * 2

/-- What a leg leaves. -/
def LegResult.balance (leg : LegResult) : ℚ := leg.fundingIncomeUsd - leg.feeUsd - leg.slippageUsd

/-- The lines of the legs add up to the totals, and a long leg pays a positive APR. -/
structure Balances (response : SimulateResponse) : Prop where
  net : response.longLeg.balance + response.shortLeg.balance = response.netPnlUsd
  gross : response.longLeg.fundingIncomeUsd + response.shortLeg.fundingIncomeUsd = response.grossFundingPnlUsd
  pays : 0 < response.longLeg.fundingApr → response.longLeg.fundingIncomeUsd < 0

/-- The net P&L that `calculate_pnl` gives the pair after a number of days. -/
def netAfter (body : SimulateRequest) (long short : LegDocument) (days : ℚ) : Except PyError ℚ :=
  (calculatePnl unrounded (deltaApr long short) body.capitalUsd days (oneWayPct body long short)
    (oneWayPct body long short)).map Pnl.netPnlUsd

/-- A break-even is reported exactly where the P&L has a positive zero. It is that zero, with a
    loss before and a profit after it, and there is none without a positive yield. -/
structure BreakEvenTruthful (body : SimulateRequest) (long short : LegDocument) (response : SimulateResponse) : Prop where
  reported : response.breakevenDays ≠ none ↔ ∃ d, 0 < d ∧ netAfter body long short d = .ok 0
  zero : ∀ d, response.breakevenDays = some d → 0 < d ∧ netAfter body long short d = .ok 0
  later : ∀ d, response.breakevenDays = some d → ∀ d' > d, ∃ net, netAfter body long short d' = .ok net ∧ 0 < net
  earlier : ∀ d, response.breakevenDays = some d → ∀ d' < d, ∃ net, netAfter body long short d' = .ok net ∧ net < 0
  hours : response.breakevenHours.map (· / 24) = response.breakevenDays
  noYield : deltaApr long short ≤ 0 → response.breakevenDays = none

/-- What the fees and the slippage of a round trip cost. -/
def totalCostUsd (body : SimulateRequest) (long short : LegDocument) : ℚ :=
  oneWayPct body long short * 2 / 100 * body.capitalUsd

/-! ### One response -/

theorem calculatePnl_net (fundingApr capitalUsd days entryFeePct exitFeePct : ℚ) (capital : 0 < capitalUsd) :
    ∃ pnl, calculatePnl unrounded fundingApr capitalUsd days entryFeePct exitFeePct = .ok pnl ∧
      pnl.grossPnlUsd = fundingApr / 100 * capitalUsd * (days / 365) ∧
      pnl.netPnlUsd = pnl.grossPnlUsd - (entryFeePct + exitFeePct) / 100 * capitalUsd := by
  have nonzero : ¬ (days > 0 ∧ capitalUsd = 0) := fun impossible => capital.ne' impossible.2
  unfold calculatePnl
  rw [if_neg nonzero]
  refine ⟨_,rfl,rfl,?_⟩
  simp only [unrounded]
  ring

/-- A request that is accepted is answered, with the figures of its legs. -/
theorem exists_simulate (upper lower : String → String) {body : SimulateRequest} (capital : 0 < body.capitalUsd)
    (long short : LegDocument) :
    ∃ response, simulate unrounded upper lower body long short = .ok response ∧
      response.longLeg = legResult unrounded (lower body.longExchange) .long body (aprOf long) (feePct body.feeType long) ∧
      response.shortLeg = legResult unrounded (lower body.shortExchange) .short body (aprOf short) (feePct body.feeType short) ∧
      response.grossFundingPnlUsd = deltaApr long short / 100 * body.capitalUsd * (body.days / 365) ∧
      response.netPnlUsd = response.grossFundingPnlUsd - totalCostUsd body long short ∧
      response.breakevenHours = present (calculateBreakevenHours |deltaApr long short| (oneWayPct body long short * 2)) ∧
      response.breakevenDays = present (response.breakevenHours.map (· / 24)) := by
  obtain ⟨pnl,computed,gross,net⟩ := calculatePnl_net (aprOf short - aprOf long) body.capitalUsd body.days
    (oneWayPct body long short) (oneWayPct body long short) capital
  have roundTrip : (feePct body.feeType long + feePct body.feeType short) * 2 + body.slippagePct * 4 =
      oneWayPct body long short * 2 := by
    rw [oneWayPct]
    ring
  have cost : (oneWayPct body long short + oneWayPct body long short) / 100 * body.capitalUsd = totalCostUsd body long short := by
    rw [totalCostUsd]
    ring
  have same : ∀ (digits : ℕ) (x : Option ℚ), x.map (unrounded digits) = x := by
    intro digits x
    cases x with
    | none => rfl
    | some x => rfl
  unfold simulate
  unfold oneWayPct at computed
  simp only [computed]
  refine ⟨_,rfl,rfl,rfl,gross,?_,?_,?_⟩
  · show pnl.netPnlUsd = pnl.grossPnlUsd - _
    rw [net,cost]
  · show (present (calculateBreakevenHours _ ((feePct body.feeType long + feePct body.feeType short) * 2 +
      body.slippagePct * 4))).map (unrounded 1) = _
    rw [same,roundTrip]
    rfl
  · show (present _).map (unrounded 2) = present (((present _).map (unrounded 1)).map (· / 24))
    rw [same,same]

/-! ### The ledger -/

/-- An accepted request is answered, by the endpoint as well, and the ledger of the answer
    balances exactly when the long leg has no APR. -/
theorem balances_iff (upper lower : String → String) {body : SimulateRequest} (accepted : body.Accepted lower)
    (long short : LegDocument) :
    ∃ response, simulate unrounded upper lower body long short = .ok response ∧
      (∀ pub, legDocument pub (lower body.longExchange) (upper body.token) = some long →
        legDocument pub (lower body.shortExchange) (upper body.token) = some short →
        calculateSimulation unrounded upper lower pub body = .ok response) ∧
      (Balances response ↔ aprOf long = 0) := by
  obtain ⟨response,answered,longLeg,shortLeg,gross,net,-,-⟩ := exists_simulate upper lower accepted.capital.1 long short
  refine ⟨response,answered,?_,?_⟩
  · intro pub foundLong foundShort
    rw [calculateSimulation,foundLong,foundShort]
    exact congrArg (Except.mapError SimulatorError.raised) answered
  · have volume : 0 < body.capitalUsd * body.days := mul_pos accepted.capital.1 accepted.days.1
    have incomes : response.longLeg.fundingIncomeUsd + response.shortLeg.fundingIncomeUsd =
        response.grossFundingPnlUsd + aprOf long * (body.capitalUsd * body.days) / 18250 := by
      rw [longLeg,shortLeg,gross,deltaApr]
      simp only [legResult,unrounded]
      ring
    have costs : response.longLeg.balance + response.shortLeg.balance =
        response.longLeg.fundingIncomeUsd + response.shortLeg.fundingIncomeUsd - totalCostUsd body long short := by
      rw [longLeg,shortLeg,totalCostUsd,oneWayPct]
      simp only [LegResult.balance,legResult,unrounded]
      ring
    constructor
    · intro balances
      have excess : aprOf long * (body.capitalUsd * body.days) / 18250 = 0 := by
        linarith [balances.gross]
      rw [div_eq_zero_iff,mul_eq_zero] at excess
      exact (excess.resolve_right (by norm_num)).resolve_right volume.ne'
    · intro nothing
      rw [nothing,zero_mul,zero_div,add_zero] at incomes
      refine ⟨?_,incomes,?_⟩
      · rw [costs,incomes,net]
      · intro positive
        rw [longLeg] at positive
        exact absurd positive (by rw [legResult,unrounded,nothing]; exact lt_irrefl 0)

/-- A document of a leg with an APR and a fee. -/
def legAt (fundingApr fee : ℚ) : LegDocument := ⟨some fundingApr,some fee,some fee,some 100,some 0,none⟩

theorem btcRequest_accepted : btcRequest.Accepted asciiLower :=
  ⟨by decide +kernel,by decide +kernel,by decide +kernel,by decide +kernel⟩

/-- A long leg that pays 10 % is booked as income. -/
theorem paying_long_not_balanced : btcRequest.Accepted asciiLower ∧ ∃ response,
    simulate unrounded asciiUpper asciiLower btcRequest (legAt 10 0) (legAt 30 0) = .ok response ∧ ¬ Balances response := by
  have accepted := btcRequest_accepted
  obtain ⟨response,answered,longLeg,-⟩ := exists_simulate asciiUpper asciiLower accepted.capital.1 (legAt 10 0) (legAt 30 0)
  refine ⟨accepted,response,answered,?_⟩
  intro balances
  have paid := balances.pays (by rw [longLeg]; decide +kernel)
  rw [longLeg] at paid
  exact absurd paid (by decide +kernel)

/-- A long leg without funding balances. -/
theorem free_long_balanced : ∃ response,
    simulate unrounded asciiUpper asciiLower btcRequest (legAt 0 0) (legAt 30 0) = .ok response ∧ Balances response := by
  have accepted := btcRequest_accepted
  obtain ⟨response,answered,-,balances⟩ := balances_iff asciiUpper asciiLower accepted (legAt 0 0) (legAt 30 0)
  exact ⟨response,answered,balances.mpr rfl⟩

/-! ### The break-even -/

/-- The P&L of a holding period is a line through the loss of the costs. -/
theorem netAfter_eq {body : SimulateRequest} (capital : 0 < body.capitalUsd) (long short : LegDocument) (days : ℚ) :
    netAfter body long short days =
      .ok (deltaApr long short / 100 * body.capitalUsd * (days / 365) - totalCostUsd body long short) := by
  obtain ⟨pnl,computed,gross,net⟩ := calculatePnl_net (deltaApr long short) body.capitalUsd days
    (oneWayPct body long short) (oneWayPct body long short) capital
  rw [netAfter,computed,Except.map,net,gross,totalCostUsd]
  congr 2
  ring

/-- The same line from its zero on. -/
theorem netAfter_of_zero {body : SimulateRequest} (capital : 0 < body.capitalUsd) {long short : LegDocument} {d : ℚ}
    (zero : netAfter body long short d = .ok 0) (days : ℚ) :
    netAfter body long short days = .ok (deltaApr long short / 100 * body.capitalUsd / 365 * (days - d)) := by
  rw [netAfter_eq capital,Except.ok.injEq] at zero ⊢
  linarith

theorem present_some {x : ℚ} (nonzero : x ≠ 0) : present (some x) = some x := by
  rw [present,Option.filter,if_pos (decide_eq_true nonzero)]

/-- Without a yield the costs are never earned. -/
theorem breakEvenTruthful_of_none {body : SimulateRequest} (capital : 0 < body.capitalUsd) {long short : LegDocument}
    (cost : 0 < totalCostUsd body long short) (nothing : deltaApr long short = 0) {response : SimulateResponse}
    (days : response.breakevenDays = none) (hours : response.breakevenHours = none) :
    BreakEvenTruthful body long short response := by
  have losing : ∀ d, netAfter body long short d ≠ .ok 0 := by
    intro d zero
    rw [netAfter_eq capital,nothing,Except.ok.injEq,zero_div,zero_mul,zero_mul,zero_sub,neg_eq_zero] at zero
    exact cost.ne' zero
  have unreported : ∀ d, response.breakevenDays ≠ some d := by
    intro d reported
    rw [days] at reported
    cases reported
  refine ⟨?_,?_,?_,?_,?_,fun _ => days⟩
  · refine ⟨fun reported => absurd days reported,?_⟩
    rintro ⟨d,-,zero⟩
    exact absurd zero (losing d)
  · exact fun d reported => absurd reported (unreported d)
  · exact fun d reported => absurd reported (unreported d)
  · exact fun d reported => absurd reported (unreported d)
  · rw [hours,days]
    rfl

/-- With a yield they are earned at the zero of the P&L. -/
theorem breakEvenTruthful_of_zero {body : SimulateRequest} (capital : 0 < body.capitalUsd) {long short : LegDocument}
    (yield : 0 < deltaApr long short) {zero : ℚ} (positive : 0 < zero) (broke : netAfter body long short zero = .ok 0)
    {response : SimulateResponse} (days : response.breakevenDays = some zero)
    (hours : response.breakevenHours.map (· / 24) = some zero) : BreakEvenTruthful body long short response := by
  have slope : 0 < deltaApr long short / 100 * body.capitalUsd / 365 := by positivity
  have only : ∀ d, response.breakevenDays = some d → d = zero :=
    fun d reported => Option.some.inj (reported.symm.trans days)
  refine ⟨?_,?_,?_,?_,hours.trans days.symm,fun none => absurd yield (not_lt.mpr none)⟩
  · exact ⟨fun _ => ⟨zero,positive,broke⟩,fun _ => by rw [days]; exact Option.some_ne_none _⟩
  · intro d reported
    rw [only d reported]
    exact ⟨positive,broke⟩
  · intro d reported d' later
    rw [only d reported] at later
    exact ⟨_,netAfter_of_zero capital broke d',mul_pos slope (sub_pos.mpr later)⟩
  · intro d reported d' earlier
    rw [only d reported] at earlier
    exact ⟨_,netAfter_of_zero capital broke d',mul_neg_of_pos_of_neg slope (sub_neg.mpr earlier)⟩

/-- For an accepted request whose costs are positive the break-even tells the truth exactly when
    the yield of the pair is not negative. -/
theorem breakEvenTruthful_iff (upper lower : String → String) {body : SimulateRequest} (accepted : body.Accepted lower)
    (long short : LegDocument) (cost : 0 < totalCostUsd body long short) :
    ∃ response, simulate unrounded upper lower body long short = .ok response ∧
      (BreakEvenTruthful body long short response ↔ 0 ≤ deltaApr long short) := by
  have capital := accepted.capital.1
  obtain ⟨response,answered,-,-,-,-,hours,days⟩ := exists_simulate upper lower capital long short
  refine ⟨response,answered,?_⟩
  have fees : 0 < oneWayPct body long short * 2 := by
    by_contra none
    have small : oneWayPct body long short * 2 / 100 * body.capitalUsd ≤ 0 :=
      mul_nonpos_of_nonpos_of_nonneg (div_nonpos_of_nonpos_of_nonneg (not_lt.mp none) (by norm_num)) capital.le
    exact absurd cost (not_lt.mpr small)
  have reported : deltaApr long short ≠ 0 →
      response.breakevenHours = some (oneWayPct body long short * 2 / (|deltaApr long short| / (365 * 24))) ∧
      response.breakevenDays = some (oneWayPct body long short * 2 / (|deltaApr long short| / (365 * 24)) / 24) := by
    intro nonzero
    have size : 0 < |deltaApr long short| := abs_pos.mpr nonzero
    have hoursNonzero : oneWayPct body long short * 2 / (|deltaApr long short| / (365 * 24)) ≠ 0 := by positivity
    have daysNonzero : oneWayPct body long short * 2 / (|deltaApr long short| / (365 * 24)) / 24 ≠ 0 := by positivity
    rw [calculateBreakevenHours,if_neg (not_le.mpr size),present_some hoursNonzero] at hours
    rw [hours,Option.map_some,present_some daysNonzero] at days
    exact ⟨hours,days⟩
  constructor
  · intro truthful
    by_contra negative
    -- the absolute value turns a loss into a yield
    have loss := not_le.mp negative
    obtain ⟨-,some⟩ := reported loss.ne
    rw [truthful.noYield loss.le] at some
    cases some
  · intro notNegative
    rcases notNegative.eq_or_lt with nothing | yield
    · have unreported : response.breakevenHours = none := by
        rw [hours,← nothing]
        rfl
      exact breakEvenTruthful_of_none capital cost nothing.symm (by rw [days,unreported]; rfl) unreported
    · obtain ⟨hoursEq,daysEq⟩ := reported yield.ne'
      rw [abs_of_pos yield] at hoursEq daysEq
      refine breakEvenTruthful_of_zero capital yield (by positivity) ?_ daysEq (by rw [hoursEq,Option.map_some])
      have nonzero : deltaApr long short ≠ 0 := yield.ne'
      rw [netAfter_eq capital,totalCostUsd]
      congr 1
      field_simp
      ring

/-- A pair that loses 20 % a year is said to break even. -/
theorem losing_not_truthful :
    btcRequest.Accepted asciiLower ∧ 0 < totalCostUsd btcRequest (legAt 30 (5 / 100)) (legAt 10 (5 / 100)) ∧
    ∃ response, simulate unrounded asciiUpper asciiLower btcRequest (legAt 30 (5 / 100)) (legAt 10 (5 / 100)) = .ok response ∧
      ¬ BreakEvenTruthful btcRequest (legAt 30 (5 / 100)) (legAt 10 (5 / 100)) response := by
  have accepted := btcRequest_accepted
  refine ⟨accepted,by decide +kernel,?_⟩
  obtain ⟨response,answered,-,-,-,-,hours,days⟩ := exists_simulate asciiUpper asciiLower accepted.capital.1
    (legAt 30 (5 / 100)) (legAt 10 (5 / 100))
  refine ⟨response,answered,?_⟩
  intro truthful
  have never := truthful.noYield (by decide +kernel)
  rw [days,hours] at never
  exact absurd never (by decide +kernel)

/-- A pair that gains 20 % a year is right about it. -/
theorem gaining_truthful :
    ∃ response, simulate unrounded asciiUpper asciiLower btcRequest (legAt 10 (5 / 100)) (legAt 30 (5 / 100)) = .ok response ∧
      BreakEvenTruthful btcRequest (legAt 10 (5 / 100)) (legAt 30 (5 / 100)) response := by
  have accepted := btcRequest_accepted
  obtain ⟨response,answered,truthful⟩ := breakEvenTruthful_iff asciiUpper asciiLower accepted (legAt 10 (5 / 100))
    (legAt 30 (5 / 100)) (by decide +kernel)
  exact ⟨response,answered,truthful.mpr (by decide +kernel)⟩

end Simulator
end FundingRadar
