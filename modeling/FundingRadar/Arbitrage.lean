import Mathlib.Tactic.Linarith
import Mathlib.Tactic.NormNum
import FundingRadar.Normalizer
import FundingRadar.Rounding

/-!
`ArbitrageCalculator`: for every candidate of the normalizer the pair with the
widest funding spread, with its fees taken off afterwards. A candidate needs two
live snapshots, but its legs are taken from all snapshots of the view. What
`calculate` returns is described without its two sorts (`mem_calculate_iff`); the
liveness of the legs and the optimality of the pair are read off that description.
-/
namespace FundingRadar

inductive Side
  | long
  | short
deriving DecidableEq

/-- One leg of an opportunity. -/
structure ArbitrageLeg where
  exchange : String
  token : String
  side : Side
  fundingRate : ℚ
  fundingRate8h : ℚ
  fundingApr : ℚ
  markPrice : ℚ
  indexPrice : ℚ
  openInterestUsd : ℚ
  makerFee : ℚ
  takerFee : ℚ
  isStale : Bool
deriving DecidableEq

/-- One opportunity. -/
structure ArbitrageResult where
  token : String
  longLeg : ArbitrageLeg
  shortLeg : ArbitrageLeg
  fundingDeltaApr : ℚ
  priceSpreadPct : ℚ
  netAprMaker : ℚ
  netAprTaker : ℚ
  entryFeePctTaker : ℚ
  breakevenHoursTaker : Option ℚ
  detectedAt : ℤ
deriving DecidableEq

/-- A leg filled from a snapshot; its own staleness flag uses the default limit. -/
def ArbitrageLeg.of (side : Side) (s : ExchangeSnapshot) (now : ℚ) : ArbitrageLeg where
  exchange := s.data.exchange
  token := s.data.token
  side := side
  fundingRate := s.data.fundingRate
  fundingRate8h := s.data.fundingRate8h
  fundingApr := s.data.fundingApr
  markPrice := s.data.markPrice
  indexPrice := s.data.indexPrice
  openInterestUsd := s.data.openInterestUsd
  makerFee := s.data.makerFee
  takerFee := s.data.takerFee
  isStale := s.isStale defaultStaleAfter now

/-- The key by which the legs are ranked. -/
def apr (s : ExchangeSnapshot) : ℚ := s.data.fundingApr

namespace ArbitrageCalculator
open AprCalculator
variable (rnd : ℕ → ℚ → ℚ) (minNetAprTaker : ℚ) (n : DataNormalizer) (now : ℚ) (nowMs : ℤ)

/-- `_compute_pair`, with `rnd` for `round`. -/
def computePair (longSnap shortSnap : ExchangeSnapshot) : Option ArbitrageResult :=
  let ld := longSnap.data
  let sd := shortSnap.data
  if ld.exchange = sd.exchange then none
  else
    let fundingDeltaApr := |sd.fundingApr - ld.fundingApr|
    let avgPrice := (ld.markPrice + sd.markPrice) / 2
    let priceSpreadPct := if avgPrice > 0 then |ld.markPrice - sd.markPrice| / avgPrice * 100 else 0
    let makerFeePct := (ld.makerFee + sd.makerFee) * 2
    let takerFeePct := (ld.takerFee + sd.takerFee) * 2
    let oneWayEntryPct := entryExitFeePct ld.takerFee sd.takerFee
    let breakevenHours := calculateBreakevenHours fundingDeltaApr (oneWayEntryPct * 2)
    some {
      token := ld.token
      longLeg := .of .long longSnap now
      shortLeg := .of .short shortSnap now
      fundingDeltaApr := rnd 6 fundingDeltaApr
      priceSpreadPct := rnd 6 priceSpreadPct
      netAprMaker := rnd 6 (fundingDeltaApr - makerFeePct)
      netAprTaker := rnd 6 (fundingDeltaApr - takerFeePct)
      entryFeePctTaker := rnd 6 oneWayEntryPct
      -- A break-even of zero hours is falsy and reported as none.
      breakevenHoursTaker := (breakevenHours.filter (fun hours => hours ≠ 0)).map (rnd 2)
      detectedAt := nowMs }

/-- What the loop of `calculate` appends for one view. -/
def opportunity (tv : TokenView) : Option ArbitrageResult :=
  match sortedBy apr tv.allSnapshots with
  | longSnap :: second :: rest =>
    (computePair rnd now nowMs longSnap ((second :: rest).getLast (List.cons_ne_nil _ _))).filter
      (fun result => result.netAprTaker ≥ minNetAprTaker)
  | _ => none

/-- `calculate`, at `now`. -/
def calculate : List ArbitrageResult :=
  sortedByDesc (fun r => r.netAprTaker)
    ((n.arbitrageCandidates now).filterMap (opportunity rnd minNetAprTaker now nowMs))

/-! ### What is returned -/

/-- The annual spread of a pair less the taker fees of a round trip on both legs. -/
def netSpread (longSnap shortSnap : ExchangeSnapshot) : ℚ :=
  (apr shortSnap - apr longSnap) - 2 * (longSnap.data.takerFee + shortSnap.data.takerFee)

/-- `low` and `high` are the snapshots that the view of a token offers as legs. -/
structure Ends (tv : TokenView) (low high : ExchangeSnapshot) : Prop where
  lowest : IsLowest apr tv.snapshots.values low
  highest : IsHighest apr tv.snapshots.values high

variable {n rnd minNetAprTaker now nowMs}

theorem Ends.le {tv : TokenView} {low high : ExchangeSnapshot} (ends : Ends tv low high) : apr low ≤ apr high :=
  ends.lowest.le ends.highest.1

theorem mem_values_iff_getSnapshot (coherent : n.Coherent) {token : String} {tv : TokenView}
    (view : n.getTokenView token = some tv) (s : ExchangeSnapshot) :
    s ∈ tv.snapshots.values ↔ ∃ exchange, n.getSnapshot exchange token = some s := by
  rw [Dict.mem_values_iff]
  refine exists_congr fun exchange => ?_
  rw [← coherent.views,DataNormalizer.viewed,view,Option.bind_some]

theorem eq_of_exchange_eq (coherent : n.Coherent) {token : String} {tv : TokenView}
    (view : n.getTokenView token = some tv) {a b : ExchangeSnapshot} (inA : a ∈ tv.snapshots.values)
    (inB : b ∈ tv.snapshots.values) (same : a.data.exchange = b.data.exchange) : a = b := by
  obtain ⟨ea,foundA⟩ := (mem_values_iff_getSnapshot coherent view a).mp inA
  obtain ⟨eb,foundB⟩ := (mem_values_iff_getSnapshot coherent view b).mp inB
  rw [(coherent.labelled ea token a foundA).1,(coherent.labelled eb token b foundB).1] at same
  rw [same,foundB] at foundA
  exact (Option.some.inj foundA).symm

/-- A view never holds one snapshot twice: its snapshots carry the exchanges under
    which they are filed. -/
theorem nodup_values (coherent : n.Coherent) {token : String} {tv : TokenView} (view : n.getTokenView token = some tv) :
    tv.snapshots.values.Nodup := by
  have labels : tv.snapshots.values.map (fun s => s.data.exchange) = tv.snapshots.keys := by
    refine Dict.values_map_eq_keys _ fun exchange s inView => ?_
    have found : n.getSnapshot exchange token = some s := by
      rw [← coherent.views,DataNormalizer.viewed,view,Option.bind_some]
      exact inView
    exact (coherent.labelled exchange token s found).1
  refine List.Nodup.of_map (fun s => s.data.exchange) ?_
  rw [labels]
  exact tv.snapshots.nodupKeys

theorem computePair_eq_some {low high : ExchangeSnapshot} {r : ArbitrageResult}
    (computed : computePair rnd now nowMs low high = some r) :
    r.token = low.data.token ∧ r.longLeg = .of .long low now ∧ r.shortLeg = .of .short high now ∧
      r.netAprTaker = rnd 6 (|apr high - apr low| - (low.data.takerFee + high.data.takerFee) * 2) := by
  rw [computePair] at computed
  split at computed
  · cases computed
  · cases computed
    exact ⟨rfl,rfl,rfl,rfl⟩

theorem Ends.netAprTaker {tv : TokenView} {low high : ExchangeSnapshot} (ends : Ends tv low high) {r : ArbitrageResult}
    (computed : computePair rnd now nowMs low high = some r) : r.netAprTaker = rnd 6 (netSpread low high) := by
  have ordered : 0 ≤ apr high - apr low := sub_nonneg.mpr ends.le
  rw [(computePair_eq_some computed).2.2.2,abs_of_nonneg ordered,netSpread]
  congr 1
  ring

/-- Two snapshots in a view give it two different ends, first and last in its order. -/
theorem exists_ends (coherent : n.Coherent) {token : String} {tv : TokenView} (view : n.getTokenView token = some tv)
    (two : 2 ≤ tv.snapshots.values.length) : ∃ low high second rest, Ends tv low high ∧ low ≠ high ∧
      sortedBy apr tv.allSnapshots = low :: second :: rest ∧ (second :: rest).getLast (by simp) = high := by
  have nodup := nodup_values coherent view
  have size : (sortedBy apr tv.allSnapshots).length = tv.snapshots.values.length := by
    rw [length_sortedBy,TokenView.allSnapshots,length_sortedByDesc]
  cases sorted : sortedBy apr tv.allSnapshots with
  | nil => rw [sorted] at size; simp only [List.length_nil] at size; omega
  | cons low tail =>
    cases tail with
    | nil => rw [sorted] at size; simp only [List.length_cons,List.length_nil] at size; omega
    | cons second rest =>
      have split : sortedBy apr tv.allSnapshots =
          (low :: (second :: rest).dropLast) ++ [(second :: rest).getLast (by simp)] := by
        rw [List.cons_append,List.dropLast_append_getLast,sorted]
      have distinct : (low :: second :: rest).Nodup :=
        sorted ▸ ((sortedBy_perm apr _).trans (sortedByDesc_perm apr _)).nodup_iff.mpr nodup
      refine ⟨low,_,second,rest,⟨isLowest_head nodup sorted,isHighest_getLast nodup split⟩,?_,rfl,rfl⟩
      intro same
      exact (List.nodup_cons.mp distinct).1 (same ▸ List.getLast_mem _)

theorem Ends.unique (coherent : n.Coherent) {token : String} {tv : TokenView} (view : n.getTokenView token = some tv)
    {low high low' high' : ExchangeSnapshot} (ends : Ends tv low high) (ends' : Ends tv low' high') :
    low = low' ∧ high = high' :=
  ⟨ends.lowest.unique (nodup_values coherent view) ends'.lowest,ends.highest.unique (nodup_values coherent view) ends'.highest⟩

theorem Ends.opportunity_eq {tv : TokenView} {low high : ExchangeSnapshot} (ends : Ends tv low high)
    (coherent : n.Coherent) {token : String} (view : n.getTokenView token = some tv)
    (two : 2 ≤ tv.snapshots.values.length) : opportunity rnd minNetAprTaker now nowMs tv =
      (computePair rnd now nowMs low high).filter (fun result => result.netAprTaker ≥ minNetAprTaker) := by
  obtain ⟨low',high',second,rest,ends',-,sorted,last⟩ := exists_ends coherent view two
  obtain ⟨rfl,rfl⟩ := ends.unique coherent view ends'
  rw [opportunity,sorted]
  simp only [last]

variable (rnd now nowMs) in
/-- The ends of a view with two snapshots are on different exchanges, so they make
    a result. -/
theorem Ends.computed {tv : TokenView} {low high : ExchangeSnapshot} (ends : Ends tv low high)
    (coherent : n.Coherent) {token : String} (view : n.getTokenView token = some tv)
    (two : 2 ≤ tv.snapshots.values.length) : ∃ r, computePair rnd now nowMs low high = some r := by
  obtain ⟨low',high',-,-,ends',differ,-⟩ := exists_ends coherent view two
  obtain ⟨rfl,rfl⟩ := ends.unique coherent view ends'
  rw [computePair,if_neg (mt (eq_of_exchange_eq coherent view ends.lowest.1 ends.highest.1) differ)]
  exact ⟨_,rfl⟩

theorem two_le_of_exchangeCount {tv : TokenView} {staleAfter : ℚ} (candidate : 2 ≤ tv.exchangeCount staleAfter now) :
    2 ≤ tv.snapshots.values.length := by
  rw [TokenView.exchangeCount,TokenView.liveSnapshots,length_sortedByDesc] at candidate
  exact candidate.trans (List.length_filter_le _ _)

theorem mem_arbitrageCandidates_iff (tv : TokenView) :
    tv ∈ n.arbitrageCandidates now ↔
      ∃ token, n.getTokenView token = some tv ∧ 2 ≤ tv.exchangeCount n.staleAfter now := by
  rw [DataNormalizer.arbitrageCandidates,mem_sortedByDesc,List.mem_filter,Dict.mem_values_iff]
  simp only [ge_iff_le,decide_eq_true_eq,DataNormalizer.getTokenView,exists_and_right]

/-- What `calculate` returns: for every token with two live snapshots the pair of
    its ends, when its net APR reaches the minimum. -/
theorem mem_calculate_iff (coherent : n.Coherent) (r : ArbitrageResult) :
    r ∈ calculate rnd minNetAprTaker n now nowMs ↔
      ∃ token tv low high, n.getTokenView token = some tv ∧ 2 ≤ tv.exchangeCount n.staleAfter now ∧ Ends tv low high ∧
        computePair rnd now nowMs low high = some r ∧ minNetAprTaker ≤ r.netAprTaker := by
  rw [calculate,mem_sortedByDesc,List.mem_filterMap]
  constructor
  · rintro ⟨tv,candidate,appended⟩
    obtain ⟨token,view,live⟩ := (mem_arbitrageCandidates_iff tv).mp candidate
    have two := two_le_of_exchangeCount live
    obtain ⟨low,high,-,-,ends,-⟩ := exists_ends coherent view two
    rw [ends.opportunity_eq coherent view two,Option.filter_eq_some_iff] at appended
    exact ⟨token,tv,low,high,view,live,ends,appended.1,of_decide_eq_true appended.2⟩
  · rintro ⟨token,tv,low,high,view,live,ends,computed,enough⟩
    refine ⟨tv,(mem_arbitrageCandidates_iff tv).mpr ⟨token,view,live⟩,?_⟩
    rw [ends.opportunity_eq coherent view (two_le_of_exchangeCount live),Option.filter_eq_some_iff]
    exact ⟨computed,decide_eq_true enough⟩

/-- The net APR of a result is the net spread of the ends of a view, up to the
    rounding. -/
theorem netAprTaker_near (coherent : n.Coherent) {r : ArbitrageResult}
    (returned : r ∈ calculate roundTo minNetAprTaker n now nowMs) :
    ∃ token tv low high, n.getTokenView token = some tv ∧ Ends tv low high ∧
      |r.netAprTaker - netSpread low high| ≤ 1 / 2 / 10 ^ 6 := by
  obtain ⟨token,tv,low,high,view,-,ends,computed,-⟩ := (mem_calculate_iff coherent r).mp returned
  refine ⟨token,tv,low,high,view,ends,?_⟩
  rw [ends.netAprTaker computed]
  exact abs_roundTo_sub_le 6 _

/-! ### Liveness of the legs -/

/-- A leg is filled from a snapshot that the normalizer holds and finds live. -/
def Supplied (n : DataNormalizer) (now : ℚ) (leg : ArbitrageLeg) : Prop :=
  ∃ s, n.getSnapshot leg.exchange leg.token = some s ∧ leg = .of leg.side s now ∧ s.isStale n.staleAfter now = false
/-- Both legs are. -/
def LegsLive (n : DataNormalizer) (now : ℚ) (r : ArbitrageResult) : Prop :=
  Supplied n now r.longLeg ∧ Supplied n now r.shortLeg

theorem supplied_of_iff (coherent : n.Coherent) {token : String} {tv : TokenView}
    (view : n.getTokenView token = some tv) {s : ExchangeSnapshot} (member : s ∈ tv.snapshots.values) (side : Side) :
    Supplied n now (.of side s now) ↔ s.isStale n.staleAfter now = false := by
  obtain ⟨exchange,found⟩ := (mem_values_iff_getSnapshot coherent view s).mp member
  obtain ⟨sameExchange,sameToken⟩ := coherent.labelled exchange token s found
  have filed : n.getSnapshot s.data.exchange s.data.token = some s := by rw [sameExchange,sameToken,found]
  constructor
  · rintro ⟨other,held,-,live⟩
    have same : some s = some other := filed.symm.trans held
    rw [Option.some.inj same]
    exact live
  · intro live
    exact ⟨s,filed,rfl,live⟩

/-- In every run the legs are live exactly when no token with two live snapshots and
    a net spread that reaches the minimum has a stale snapshot at one of its ends. -/
theorem legsLive_iff_ends_live (rnd : ℕ → ℚ → ℚ) (minNetAprTaker staleAfter : ℚ) (ops : List DataNormalizer.Op)
    (now : ℚ) (nowMs : ℤ) :
    (∀ r ∈ calculate rnd minNetAprTaker (.run staleAfter ops) now nowMs, LegsLive (.run staleAfter ops) now r) ↔
      ∀ token tv low high, (DataNormalizer.run staleAfter ops).getTokenView token = some tv →
        2 ≤ tv.exchangeCount staleAfter now → Ends tv low high → minNetAprTaker ≤ rnd 6 (netSpread low high) →
          low.isStale staleAfter now = false ∧ high.isStale staleAfter now = false := by
  obtain ⟨coherent,limit,-⟩ := DataNormalizer.run_refines staleAfter ops
  generalize DataNormalizer.run staleAfter ops = n at coherent limit
  subst limit
  have legs : ∀ {token tv low high} {r : ArbitrageResult}, n.getTokenView token = some tv → Ends tv low high →
      computePair rnd now nowMs low high = some r →
      (LegsLive n now r ↔ low.isStale n.staleAfter now = false ∧ high.isStale n.staleAfter now = false) := by
    intro token tv low high r view ends computed
    obtain ⟨-,long,short,-⟩ := computePair_eq_some computed
    rw [LegsLive,long,short,supplied_of_iff coherent view ends.lowest.1,supplied_of_iff coherent view ends.highest.1]
  constructor
  · intro live token tv low high view candidate ends enough
    obtain ⟨r,computed⟩ := ends.computed rnd now nowMs coherent view (two_le_of_exchangeCount candidate)
    have reaches : minNetAprTaker ≤ r.netAprTaker := by rw [ends.netAprTaker computed]; exact enough
    have returned := (mem_calculate_iff coherent r).mpr ⟨token,tv,low,high,view,candidate,ends,computed,reaches⟩
    exact (legs view ends computed).mp (live r returned)
  · intro live r returned
    obtain ⟨token,tv,low,high,view,candidate,ends,computed,reaches⟩ := (mem_calculate_iff coherent r).mp returned
    rw [ends.netAprTaker computed] at reaches
    exact (legs view ends computed).mpr (live token tv low high view candidate ends reaches)

/-- A record of BTC with a funding APR and a taker fee. -/
def btcRecord (exchange : String) (fundingApr takerFee : ℚ) : NormalizedFundingData where
  exchange := exchange
  token := "BTC"
  symbol := "BTC"
  fundingRate := fundingApr / 109500
  fundingRate8h := fundingApr / 109500
  fundingApr := fundingApr
  fundingIntervalHours := 8
  nextFundingTime := none
  predictedRate := none
  markPrice := 100
  indexPrice := 100
  openInterestUsd := 5000
  volume24hUsd := 5000
  priceSpreadPct := 0
  makerFee := 0
  takerFee := takerFee
  timestamp := 0
  isLive := true

/-- One exchange goes silent with the lowest APR while two others stay live. -/
def silentRun : List DataNormalizer.Op :=
  [.update 0 (btcRecord "hyperliquid" 1 (35 / 1000)),
   .updateBatch [(200,btcRecord "aster" 10 (35 / 1000)),(200,btcRecord "extended" 20 (50 / 1000))]]

/-- Two hundred seconds after its last update the silent exchange still supplies the
    long leg. -/
theorem silentRun_not_legsLive :
    ¬ ∀ r ∈ calculate roundTo 0 (.run defaultStaleAfter silentRun) 200 200000,
      LegsLive (.run defaultStaleAfter silentRun) 200 r := by
  have stale : ∃ r ∈ calculate roundTo 0 (.run defaultStaleAfter silentRun) 200 200000, r.longLeg.isStale = true := by
    decide +kernel
  obtain ⟨r,returned,flag⟩ := stale
  intro live
  obtain ⟨s,-,filled,fresh⟩ := (live r returned).1
  have same : r.longLeg.isStale = s.isStale defaultStaleAfter 200 := by rw [filled]; rfl
  rw [(DataNormalizer.run_refines defaultStaleAfter silentRun).2.1] at fresh
  rw [same,fresh] at flag
  cases flag

/-! ### The best pair -/

/-- The opportunity returned for a token has the largest net spread of all ordered
    pairs of its exchanges; without one, no pair reaches the minimum. -/
structure BestReturned (minNetAprTaker : ℚ) (results : List ArbitrageResult) (tv : TokenView) : Prop where
  best : ∀ r ∈ results, r.token = tv.token → ∀ a ∈ tv.snapshots.values, ∀ b ∈ tv.snapshots.values,
    a.data.exchange ≠ b.data.exchange → netSpread a b ≤ r.netAprTaker
  leftOut : (∀ r ∈ results, r.token ≠ tv.token) → ∀ a ∈ tv.snapshots.values, ∀ b ∈ tv.snapshots.values,
    a.data.exchange ≠ b.data.exchange → netSpread a b < minNetAprTaker

/-- No pair that reaches the minimum saves more fees over the widest pair than it
    gives up in spread. -/
def FeesFollowSpread (minNetAprTaker : ℚ) (tv : TokenView) : Prop :=
  ∀ low high, Ends tv low high → ∀ a ∈ tv.snapshots.values, ∀ b ∈ tv.snapshots.values,
    a.data.exchange ≠ b.data.exchange → minNetAprTaker ≤ netSpread a b →
      2 * ((low.data.takerFee + high.data.takerFee) - (a.data.takerFee + b.data.takerFee)) ≤
        (apr high - apr low) - (apr b - apr a)

theorem fees_le_iff (low high a b : ExchangeSnapshot) :
    2 * ((low.data.takerFee + high.data.takerFee) - (a.data.takerFee + b.data.takerFee)) ≤
      (apr high - apr low) - (apr b - apr a) ↔ netSpread a b ≤ netSpread low high := by
  rw [netSpread,netSpread]
  constructor <;> intro le <;> linarith

/-- With one fee on all exchanges of a token, fees never decide between its pairs. -/
theorem feesFollowSpread_of_equal_fees {minNetAprTaker fee : ℚ} {tv : TokenView}
    (equal : ∀ s ∈ tv.snapshots.values, s.data.takerFee = fee) : FeesFollowSpread minNetAprTaker tv := by
  intro low high ends a inA b inB _ _
  rw [equal low ends.lowest.1,equal high ends.highest.1,equal a inA,equal b inB]
  have lowest := ends.lowest.le inA
  have highest := ends.highest.le inB
  linarith

/-- A result carries the token of its view. -/
theorem Ends.token_eq {tv : TokenView} {low high : ExchangeSnapshot} (ends : Ends tv low high) (coherent : n.Coherent)
    {token : String} (view : n.getTokenView token = some tv) {r : ArbitrageResult}
    (computed : computePair rnd now nowMs low high = some r) : r.token = token := by
  obtain ⟨exchange,found⟩ := (mem_values_iff_getSnapshot coherent view low).mp ends.lowest.1
  rw [(computePair_eq_some computed).1,(coherent.labelled exchange token low found).2]

/-- The result for a token is the one that its own view makes. -/
theorem mem_calculate_token_iff (coherent : n.Coherent) {token : String} {tv : TokenView}
    (view : n.getTokenView token = some tv) (candidate : 2 ≤ tv.exchangeCount n.staleAfter now)
    {low high : ExchangeSnapshot} (ends : Ends tv low high) (r : ArbitrageResult) :
    (r ∈ calculate rnd minNetAprTaker n now nowMs ∧ r.token = tv.token) ↔
      computePair rnd now nowMs low high = some r ∧ minNetAprTaker ≤ rnd 6 (netSpread low high) := by
  rw [mem_calculate_iff coherent,coherent.named token tv view]
  constructor
  · rintro ⟨⟨token',tv',low',high',view',-,ends',computed,reaches⟩,same⟩
    obtain rfl : token' = token := (ends'.token_eq coherent view' computed).symm.trans same
    obtain rfl : tv' = tv := Option.some.inj (view'.symm.trans view)
    obtain ⟨rfl,rfl⟩ := ends.unique coherent view ends'
    rw [ends.netAprTaker computed] at reaches
    exact ⟨computed,reaches⟩
  · rintro ⟨computed,reaches⟩
    rw [← ends.netAprTaker computed] at reaches
    exact ⟨⟨token,tv,low,high,view,candidate,ends,computed,reaches⟩,ends.token_eq coherent view computed⟩

theorem exchangeCount_of_all_live {tv : TokenView} {staleAfter : ℚ}
    (live : ∀ s ∈ tv.snapshots.values, s.isStale staleAfter now = false) :
    tv.exchangeCount staleAfter now = tv.snapshots.values.length := by
  rw [TokenView.exchangeCount,TokenView.liveSnapshots,length_sortedByDesc,List.filter_eq_self.mpr]
  intro s member
  rw [live s member]
  rfl

/-- In every run, for a token with two or more snapshots that are all live, the best
    pair is returned exactly when fees follow the spread. -/
theorem bestReturned_iff_feesFollowSpread (minNetAprTaker staleAfter : ℚ) (ops : List DataNormalizer.Op) (now : ℚ)
    (nowMs : ℤ) {token : String} {tv : TokenView}
    (view : (DataNormalizer.run staleAfter ops).getTokenView token = some tv) (two : 2 ≤ tv.snapshots.values.length)
    (live : ∀ s ∈ tv.snapshots.values, s.isStale staleAfter now = false) :
    BestReturned minNetAprTaker (calculate (fun _ x => x) minNetAprTaker (.run staleAfter ops) now nowMs) tv ↔
      FeesFollowSpread minNetAprTaker tv := by
  obtain ⟨coherent,limit,-⟩ := DataNormalizer.run_refines staleAfter ops
  generalize DataNormalizer.run staleAfter ops = n at view coherent limit
  subst limit
  have candidate : 2 ≤ tv.exchangeCount n.staleAfter now := by rw [exchangeCount_of_all_live live]; exact two
  have result : ∀ {low high : ExchangeSnapshot}, Ends tv low high → ∀ r,
      (r ∈ calculate (fun _ x => x) minNetAprTaker n now nowMs ∧ r.token = tv.token) ↔
        computePair (fun _ x => x) now nowMs low high = some r ∧ minNetAprTaker ≤ netSpread low high :=
    fun ends r => mem_calculate_token_iff coherent view candidate ends r
  constructor
  · intro returned low high ends a inA b inB differ enough
    obtain ⟨r,computed⟩ := ends.computed (fun _ x => x) now nowMs coherent view two
    rw [fees_le_iff]
    by_cases reaches : minNetAprTaker ≤ netSpread low high
    · obtain ⟨member,same⟩ := (result ends r).mpr ⟨computed,reaches⟩
      rw [← ends.netAprTaker computed]
      exact returned.best r member same a inA b inB differ
    · have none : ∀ r ∈ calculate (fun _ x => x) minNetAprTaker n now nowMs, r.token ≠ tv.token :=
        fun r member same => reaches ((result ends r).mp ⟨member,same⟩).2
      exact absurd enough (not_le.mpr (returned.leftOut none a inA b inB differ))
  · intro follow
    obtain ⟨low,high,-,-,ends,-⟩ := exists_ends coherent view two
    constructor
    · intro r member same a inA b inB differ
      obtain ⟨computed,reaches⟩ := (result ends r).mp ⟨member,same⟩
      rw [ends.netAprTaker computed]
      by_cases enough : minNetAprTaker ≤ netSpread a b
      · exact (fees_le_iff low high a b).mp (follow low high ends a inA b inB differ enough)
      · exact (not_le.mp enough).le.trans reaches
    · intro none a inA b inB differ
      by_contra enough
      have best := (fees_le_iff low high a b).mp (follow low high ends a inA b inB differ (not_lt.mp enough))
      obtain ⟨r,computed⟩ := ends.computed (fun _ x => x) now nowMs coherent view two
      obtain ⟨member,same⟩ := (result ends r).mpr ⟨computed,(not_lt.mp enough).trans best⟩
      exact none r member same

/-- Three exchanges; the widest spread ends on the one with the dearer fee. -/
def feeRun : List DataNormalizer.Op :=
  [.updateBatch [(0,btcRecord "hyperliquid" 10 (35 / 1000)),(0,btcRecord "aster" 20 (35 / 1000)),
    (0,btcRecord "extended" (2001 / 100) (50 / 1000))]]
/-- What the normalizer then holds for the token. -/
def feeView : TokenView := ((DataNormalizer.run defaultStaleAfter feeRun).getTokenView "BTC").getD ⟨"BTC",.empty⟩

/-- The result nets 9.84 % although hyperliquid and aster net 9.86 %. -/
theorem feeRun_not_best :
    (DataNormalizer.run defaultStaleAfter feeRun).getTokenView "BTC" = some feeView ∧
      2 ≤ feeView.snapshots.values.length ∧ (∀ s ∈ feeView.snapshots.values, s.isStale defaultStaleAfter 0 = false) ∧
      ¬ BestReturned 0 (calculate (fun _ x => x) 0 (.run defaultStaleAfter feeRun) 0 0) feeView := by
  refine ⟨by decide +kernel,by decide +kernel,by decide +kernel,?_⟩
  have better : ∃ r ∈ calculate (fun _ x => x) 0 (.run defaultStaleAfter feeRun) 0 0, r.token = feeView.token ∧
      ∃ a ∈ feeView.snapshots.values, ∃ b ∈ feeView.snapshots.values,
        a.data.exchange ≠ b.data.exchange ∧ r.netAprTaker < netSpread a b := by decide +kernel
  obtain ⟨r,returned,same,a,inA,b,inB,differ,lt⟩ := better
  intro best
  exact absurd (best.best r returned same a inA b inB differ) (not_le.mpr lt)

/-- The fee condition decides that run. -/
theorem feeRun_bestReturned_iff :
    (DataNormalizer.run defaultStaleAfter feeRun).getTokenView "BTC" = some feeView ∧
      (BestReturned 0 (calculate (fun _ x => x) 0 (.run defaultStaleAfter feeRun) 0 0) feeView ↔
        FeesFollowSpread 0 feeView) :=
  have view : (DataNormalizer.run defaultStaleAfter feeRun).getTokenView "BTC" = some feeView := by decide +kernel
  ⟨view,bestReturned_iff_feesFollowSpread 0 defaultStaleAfter feeRun 0 0 view (by decide +kernel) (by decide +kernel)⟩

end ArbitrageCalculator
end FundingRadar
