import FundingRadar.FundingAggregator

/-!
The list of `calculate` as a whole, where nothing is stale: one entry for a token, made of
the pair with its extreme APRs, for every token whose pair reaches the minimum, largest
net APR first.
-/
namespace FundingRadar
namespace ArbitrageCalculator
open DataNormalizer (run run_refines)

/-- A fee schedule on which makers pay less than takers. -/
def UsualFees (s : ExchangeSnapshot) : Prop := 0 ≤ s.data.makerFee ∧ s.data.makerFee ≤ s.data.takerFee

/-- `r` is computed from the snapshots of a view with the lowest and the highest APR. -/
structure ChosenPair (tv : TokenView) (now : ℚ) (low high : ExchangeSnapshot) (r : ArbitrageResult) : Prop where
  legs : low ∈ tv.snapshots.values ∧ high ∈ tv.snapshots.values
  filled : r.longLeg = .of .long low now ∧ r.shortLeg = .of .short high now
  differ : low.data.exchange ≠ high.data.exchange
  lowest : ∀ s ∈ tv.snapshots.values, apr low ≤ apr s
  highest : ∀ s ∈ tv.snapshots.values, apr s ≤ apr high
  widest : ∀ a ∈ tv.snapshots.values, ∀ b ∈ tv.snapshots.values, |apr b - apr a| ≤ apr high - apr low
  delta : r.fundingDeltaApr = roundTo 6 (apr high - apr low)
  taker : |r.netAprTaker - (apr high - apr low - 2 * (low.data.takerFee + high.data.takerFee))| ≤ 1 / 2 / 10 ^ 6
  maker : |r.netAprMaker - (apr high - apr low - 2 * (low.data.makerFee + high.data.makerFee))| ≤ 1 / 2 / 10 ^ 6
  ordered : UsualFees low → UsualFees high → r.netAprTaker ≤ r.netAprMaker ∧ r.netAprMaker ≤ r.fundingDeltaApr
  priceSpread : 0 ≤ r.priceSpreadPct ∧ r.priceSpreadPct ≤ 200

/-- A token with two exchanges has a chosen pair, and that pair is all the list has of it when it
    reaches the minimum; the others have nothing. -/
structure Listing (n : DataNormalizer) (minNetAprTaker now : ℚ) (results : List ArbitrageResult) : Prop where
  distinct : (results.map ArbitrageResult.token).Nodup
  sorted : results.Pairwise (fun a b => b.netAprTaker ≤ a.netAprTaker)
  entries : ∀ r ∈ results, ∃ tv, n.getTokenView r.token = some tv ∧ 2 ≤ tv.snapshots.values.length
  chosen : ∀ token tv, n.getTokenView token = some tv → 2 ≤ tv.snapshots.values.length →
    ∃ low high pair, ChosenPair tv now low high pair ∧
      ∀ r, (r ∈ results ∧ r.token = token) ↔ r = pair ∧ minNetAprTaker ≤ pair.netAprTaker

variable {n : DataNormalizer} {minNetAprTaker now : ℚ} {nowMs : ℤ} {rnd : ℕ → ℚ → ℚ}

/-- The spread of two prices never exceeds twice their mean. -/
theorem priceSpread_bounds {a b : ℚ} (notNegativeA : 0 ≤ a) (notNegativeB : 0 ≤ b) :
    0 ≤ (if (a + b) / 2 > 0 then |a - b| / ((a + b) / 2) * 100 else 0) ∧
      (if (a + b) / 2 > 0 then |a - b| / ((a + b) / 2) * 100 else 0) ≤ 200 := by
  split
  · next positive =>
    have distance : |a - b| ≤ a + b := abs_sub_le_iff.mpr ⟨by linarith,by linarith⟩
    have ratio : |a - b| / ((a + b) / 2) ≤ 2 := by
      rw [div_le_iff₀ positive]
      linarith
    have notNegative : 0 ≤ |a - b| / ((a + b) / 2) := div_nonneg (abs_nonneg _) positive.le
    constructor <;> linarith
  · norm_num

/-- The pair of the ends of a view is the chosen one. -/
theorem Ends.chosenPair {tv : TokenView} {low high : ExchangeSnapshot} (ends : Ends tv low high) {r : ArbitrageResult}
    (computed : computePair roundTo now nowMs low high = some r) (prices : 0 ≤ low.data.markPrice ∧ 0 ≤ high.data.markPrice) :
    ChosenPair tv now low high r := by
  have ordered : 0 ≤ apr high - apr low := sub_nonneg.mpr ends.le
  have wide : |high.data.fundingApr - low.data.fundingApr| = apr high - apr low := abs_of_nonneg ordered
  rw [computePair] at computed
  split at computed
  · cases computed
  · next differ =>
    cases computed
    refine ⟨⟨ends.lowest.1,ends.highest.1⟩,⟨rfl,rfl⟩,differ,fun s => ends.lowest.le,fun s => ends.highest.le,?_,?_,?_,?_,?_,?_⟩
    · intro a inA b inB
      have lowA := ends.lowest.le inA
      have lowB := ends.lowest.le inB
      have highA := ends.highest.le inA
      have highB := ends.highest.le inB
      exact abs_sub_le_iff.mpr ⟨by linarith,by linarith⟩
    · rw [← wide]
    · rw [← wide,mul_comm 2]
      exact abs_roundTo_sub_le 6 _
    · rw [← wide,mul_comm 2]
      exact abs_roundTo_sub_le 6 _
    · rintro ⟨makerLow,takerLow⟩ ⟨makerHigh,takerHigh⟩
      exact ⟨roundTo_mono 6 (by linarith),roundTo_mono 6 (by linarith)⟩
    · obtain ⟨notNegative,small⟩ := priceSpread_bounds prices.1 prices.2
      have zero := roundTo_natCast 6 0
      have twoHundred := roundTo_natCast 6 200
      rw [Nat.cast_zero] at zero
      exact ⟨zero.ge.trans (roundTo_mono 6 notNegative),(roundTo_mono 6 small).trans twoHundred.le⟩

variable (rnd minNetAprTaker now nowMs) in
/-- A token is in the list once. -/
theorem calculate_tokens_nodup (coherent : n.Coherent) :
    ((calculate rnd minNetAprTaker n now nowMs).map ArbitrageResult.token).Nodup := by
  have labels : n.tokenViews.values.map TokenView.token = n.tokenViews.keys :=
    Dict.values_map_eq_keys _ fun token tv view => coherent.named token tv view
  have candidates : ((n.arbitrageCandidates now).map TokenView.token).Nodup := by
    rw [DataNormalizer.arbitrageCandidates,((sortedByDesc_perm _ _).map TokenView.token).nodup_iff]
    exact (labels ▸ List.filter_sublist.map TokenView.token).nodup n.tokenViews.nodupKeys
  have labelled : ∀ tv ∈ n.arbitrageCandidates now, ∀ r, opportunity rnd minNetAprTaker now nowMs tv = some r →
      r.token = tv.token := by
    intro tv candidate r appended
    obtain ⟨token,view,enough⟩ := (mem_arbitrageCandidates_iff tv).mp candidate
    have two := two_le_of_exchangeCount enough
    obtain ⟨low,high,-,-,ends,-⟩ := exists_ends coherent view two
    rw [ends.opportunity_eq coherent view two,Option.filter_eq_some_iff] at appended
    rw [ends.token_eq coherent view appended.1,coherent.named token tv view]
  rw [calculate,((sortedByDesc_perm _ _).map ArbitrageResult.token).nodup_iff]
  exact (FundingAggregator.filterMap_labels _ _ _ labelled).nodup candidates

/-- In every run after which nothing is stale and no price is negative, the list is as specified. -/
theorem calculate_listing (minNetAprTaker staleAfter : ℚ) (ops : List DataNormalizer.Op) (now : ℚ) (nowMs : ℤ)
    (live : ∀ exchange token s, (run staleAfter ops).getSnapshot exchange token = some s → s.isStale staleAfter now = false)
    (prices : ∀ exchange token s, (run staleAfter ops).getSnapshot exchange token = some s → 0 ≤ s.data.markPrice) :
    Listing (run staleAfter ops) minNetAprTaker now (calculate roundTo minNetAprTaker (run staleAfter ops) now nowMs) := by
  obtain ⟨coherent,limit,-⟩ := run_refines staleAfter ops
  generalize run staleAfter ops = n at live prices coherent limit
  subst limit
  refine ⟨calculate_tokens_nodup _ _ _ _ coherent,pairwise_sortedByDesc _ _,?_,?_⟩
  · intro r returned
    obtain ⟨token,tv,low,high,view,enough,ends,computed,-⟩ := (mem_calculate_iff coherent r).mp returned
    rw [ends.token_eq coherent view computed]
    exact ⟨tv,view,two_le_of_exchangeCount enough⟩
  · intro token tv view two
    have held : ∀ s ∈ tv.snapshots.values, ∃ exchange, n.getSnapshot exchange token = some s :=
      fun s member => (mem_values_iff_getSnapshot coherent view s).mp member
    have candidate : 2 ≤ tv.exchangeCount n.staleAfter now := by
      rw [exchangeCount_of_all_live]
      · exact two
      · intro s member
        obtain ⟨exchange,found⟩ := held s member
        exact live exchange token s found
    obtain ⟨low,high,-,-,ends,-⟩ := exists_ends coherent view two
    obtain ⟨pair,computed⟩ := ends.computed roundTo now nowMs coherent view two
    obtain ⟨lowExchange,foundLow⟩ := held low ends.lowest.1
    obtain ⟨highExchange,foundHigh⟩ := held high ends.highest.1
    refine ⟨low,high,pair,ends.chosenPair computed ⟨prices _ _ _ foundLow,prices _ _ _ foundHigh⟩,?_⟩
    intro r
    rw [← coherent.named token tv view,mem_calculate_token_iff coherent view candidate ends,← ends.netAprTaker computed,
      computed,Option.some.injEq,eq_comm]

/-- Three exchanges at the instant at which they were heard of. -/
theorem feeRun_listing : Listing (run defaultStaleAfter feeRun) 0 0 (calculate roundTo 0 (run defaultStaleAfter feeRun) 0 0) := by
  have each : ∀ s ∈ (run defaultStaleAfter feeRun).snapshots.values,
      s.isStale defaultStaleAfter 0 = false ∧ 0 ≤ s.data.markPrice := by decide +kernel
  have held : ∀ exchange token s, (run defaultStaleAfter feeRun).getSnapshot exchange token = some s →
      s ∈ (run defaultStaleAfter feeRun).snapshots.values :=
    fun exchange token s found => (Dict.mem_values_iff ..).mpr ⟨(exchange,token),found⟩
  exact calculate_listing 0 defaultStaleAfter feeRun 0 0
    (fun exchange token s found => (each s (held exchange token s found)).1)
    (fun exchange token s found => (each s (held exchange token s found)).2)

end ArbitrageCalculator
end FundingRadar
