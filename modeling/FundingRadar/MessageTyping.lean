import FundingRadar.UntypedPipeline

/-!
Over records whose fields have their declared types the untyped pipeline is the typed one, step
by step, and so never raises. `_handle_message` checks only that a message is an object with
the fields of a record, so the pipeline is as safe as its messages are typed.
-/
namespace FundingRadar
open FundingAggregator (Pass)

namespace UntypedNormalizer

theorem pair_injective : Function.Injective (Prod.map Scalar.str Scalar.str) :=
  Scalar.str_injective.prodMap Scalar.str_injective

/-- A normalizer of records whose fields have their declared types. -/
def ofTyped (n : DataNormalizer) : UntypedNormalizer where
  staleAfter := n.staleAfter
  snapshots := n.snapshots.rename (Prod.map .str .str) .ofTyped pair_injective
  tokenViews := n.tokenViews.rename .str .ofTyped Scalar.str_injective
  updateCount := n.updateCount
  lastUpdateAt := n.lastUpdateAt

/-- A view with other snapshots. -/
theorem view_ofTyped (tv : TokenView) (snapshots : Dict String ExchangeSnapshot) :
    UntypedView.ofTyped { tv with snapshots := snapshots } =
      { UntypedView.ofTyped tv with snapshots := snapshots.rename .str .ofTyped Scalar.str_injective } :=
  rfl

theorem store_ofTyped (n : DataNormalizer) (now : ℚ) (data : NormalizedFundingData) :
    (ofTyped n).store now (.str data.exchange) (.str data.token) (.ofTyped data) = ofTyped (n.update now data) := by
  have found : ((ofTyped n).tokenViews.get? (.str data.token)).getD ⟨.str data.token,.empty⟩ =
      UntypedView.ofTyped ((n.tokenViews.get? data.token).getD ⟨data.token,.empty⟩) := by
    rw [ofTyped,Dict.get?_rename]
    cases n.tokenViews.get? data.token with
    | none => rfl
    | some tv => rfl
  have snapshot : (⟨.ofTyped data,now⟩ : UntypedSnapshot) = .ofTyped ⟨data,now⟩ := rfl
  have pair : (Scalar.str data.exchange,Scalar.str data.token) = Prod.map .str .str (data.exchange,data.token) := rfl
  have token : (UntypedFundingData.ofTyped data).token = .str data.token := rfl
  unfold store DataNormalizer.update
  rw [token,found,snapshot,pair]
  generalize (n.tokenViews.get? data.token).getD ⟨data.token,.empty⟩ = tv
  unfold ofTyped
  dsimp only
  have inner : (UntypedView.ofTyped tv).snapshots.insert (.str data.exchange) (.ofTyped ⟨data,now⟩) =
      (tv.snapshots.insert data.exchange ⟨data,now⟩).rename .str .ofTyped Scalar.str_injective :=
    Dict.insert_rename UntypedSnapshot.ofTyped Scalar.str_injective tv.snapshots data.exchange ⟨data,now⟩
  rw [Dict.insert_rename,inner,← view_ofTyped,Dict.insert_rename]

theorem update_ofTyped (n : DataNormalizer) (now : ℚ) (data : NormalizedFundingData) :
    (ofTyped n).update now (.ofTyped data) = .ok (ofTyped (n.update now data)) :=
  congrArg Except.ok (store_ofTyped n now data)

theorem purgeKey_ofTyped (n : DataNormalizer) (exchange token : String) :
    (ofTyped n).purgeKey (.str exchange,.str token) = ofTyped (n.purgeKey (exchange,token)) := by
  have snapshots := Dict.erase_rename UntypedSnapshot.ofTyped pair_injective n.snapshots (exchange,token)
  have held := Dict.get?_rename UntypedView.ofTyped Scalar.str_injective n.tokenViews token
  unfold purgeKey ofTyped DataNormalizer.purgeKey
  dsimp only
  rw [held,← snapshots]
  cases n.tokenViews.get? token with
  | none => rfl
  | some tv =>
    have left : (UntypedView.ofTyped tv).snapshots.erase (.str exchange) =
        (tv.snapshots.erase exchange).rename .str .ofTyped Scalar.str_injective :=
      Dict.erase_rename UntypedSnapshot.ofTyped Scalar.str_injective tv.snapshots exchange
    have empty : ((tv.snapshots.erase exchange).rename Scalar.str UntypedSnapshot.ofTyped Scalar.str_injective).entries = [] ↔
        (tv.snapshots.erase exchange).entries = [] := List.map_eq_nil_iff
    dsimp only [Option.map_some]
    rw [left]
    simp only [empty]
    split
    · rw [Dict.erase_rename]
      rfl
    · rw [← view_ofTyped,Dict.insert_rename]
      rfl

theorem purgeStale_ofTyped (n : DataNormalizer) (now : ℚ) : (ofTyped n).purgeStale now = ofTyped (n.purgeStale now).1 := by
  have stale : ((ofTyped n).snapshots.filter (fun e => e.2.isStale (ofTyped n).staleAfter now)).keys =
      (n.staleKeys now).map (Prod.map .str .str) := by
    rw [ofTyped,Dict.filter_rename UntypedSnapshot.ofTyped pair_injective n.snapshots (p := fun e => e.2.isStale n.staleAfter now),
      Dict.keys_rename]
    · rfl
    · exact fun e => rfl
  rw [purgeStale,stale,DataNormalizer.purgeStale]
  dsimp only
  generalize n.staleKeys now = keys
  clear stale
  induction keys generalizing n with
  | nil => rfl
  | cons key rest ih =>
    obtain ⟨exchange,token⟩ := key
    rw [List.map_cons,List.foldl_cons,List.foldl_cons,← ih]
    exact congrArg (fun n => (rest.map (Prod.map .str .str)).foldl purgeKey n) (purgeKey_ofTyped n exchange token)

end UntypedNormalizer

namespace UntypedView

theorem apr_ofTyped (s : ExchangeSnapshot) : (UntypedSnapshot.ofTyped s).apr = .num (FundingRadar.apr s) := rfl

variable (tv : TokenView) (staleAfter : ℚ) (readings : Scalar → ℚ)

theorem liveSnapshots_ofTyped : (ofTyped tv).liveSnapshots staleAfter readings =
    .ok ((tv.liveSnapshotsAt staleAfter fun exchange => readings (.str exchange)).map .ofTyped) := by
  have live : (((ofTyped tv).snapshots.entries.filter (fun e => !e.2.isStale staleAfter (readings e.1))).map Prod.snd) =
      ((tv.snapshots.entries.filter (fun e => !e.2.isStale staleAfter (readings (.str e.1)))).map Prod.snd).map .ofTyped := by
    show ((tv.snapshots.entries.map (Prod.map Scalar.str UntypedSnapshot.ofTyped)).filter _).map Prod.snd = _
    rw [List.filter_map,List.map_map,List.map_map]
    rfl
  rw [liveSnapshots,live]
  exact Json.sortedDesc_map apr_ofTyped _

theorem allSnapshots_ofTyped : (ofTyped tv).allSnapshots = .ok (tv.allSnapshots.map .ofTyped) := by
  have values : (ofTyped tv).snapshots.values = tv.snapshots.values.map .ofTyped :=
    Dict.values_rename UntypedSnapshot.ofTyped Scalar.str_injective tv.snapshots
  rw [allSnapshots,values]
  exact Json.sortedDesc_map apr_ofTyped _

theorem aprs_ofTyped (snaps : List ExchangeSnapshot) :
    (snaps.map UntypedSnapshot.ofTyped).map UntypedSnapshot.apr = (snaps.map FundingRadar.apr).map .num := by
  rw [List.map_map,List.map_map]
  rfl

theorem maxApr_ofTyped : (ofTyped tv).maxApr staleAfter readings =
    .ok (.num (tv.maxAprAt staleAfter fun exchange => readings (.str exchange))) := by
  rw [maxApr,liveSnapshots_ofTyped]
  show Json.greatest _ _ = _
  rw [aprs_ofTyped,Json.greatest_num]
  rfl
theorem minApr_ofTyped : (ofTyped tv).minApr staleAfter readings =
    .ok (.num (tv.minAprAt staleAfter fun exchange => readings (.str exchange))) := by
  rw [minApr,liveSnapshots_ofTyped]
  show Json.least _ _ = _
  rw [aprs_ofTyped,Json.least_num]
  rfl
theorem getLast_ofTyped (first : ExchangeSnapshot) (rest : List ExchangeSnapshot) :
    (UntypedSnapshot.ofTyped first :: rest.map .ofTyped).getLast (List.cons_ne_nil _ _) =
      .ofTyped ((first :: rest).getLast (List.cons_ne_nil _ _)) :=
  @List.getLast_map _ _ UntypedSnapshot.ofTyped (first :: rest) (List.cons_ne_nil _ _)

theorem spreadApr_ofTyped : (ofTyped tv).spreadApr staleAfter readings =
    .ok (tv.spreadAprAt staleAfter fun exchange => readings (.str exchange)) := by
  rw [spreadApr,liveSnapshots_ofTyped,TokenView.spreadAprAt]
  generalize (tv.liveSnapshotsAt staleAfter fun exchange => readings (.str exchange)) = live
  cases live with
  | nil => rfl
  | cons first rest =>
    cases rest with
    | nil => rfl
    | cons second rest =>
      show (UntypedSnapshot.ofTyped first).apr.minus
        ((UntypedSnapshot.ofTyped second :: rest.map .ofTyped).getLast (List.cons_ne_nil _ _)).apr = _
      rw [getLast_ofTyped,apr_ofTyped,apr_ofTyped,Json.minus_num,if_neg (by simp),List.getLast?_cons_cons,
        List.getLast?_eq_some_getLast (List.cons_ne_nil second rest)]
      rfl
theorem exchangeCount_ofTyped : (ofTyped tv).exchangeCount staleAfter readings =
    .ok (tv.exchangeCountAt staleAfter fun exchange => readings (.str exchange)) := by
  rw [exchangeCount,liveSnapshots_ofTyped,TokenView.exchangeCountAt]
  exact congrArg Except.ok (List.length_map ..)

/-- The two readings of a view agree where the clock stands still. -/
theorem liveSnapshots_eq (now : ℚ) : tv.liveSnapshots staleAfter now = tv.liveSnapshotsAt staleAfter fun _ => now := by
  rw [TokenView.liveSnapshots,TokenView.liveSnapshotsAt,Dict.values,List.filter_map]
  rfl
theorem spreadApr_eq (now : ℚ) : tv.spreadApr staleAfter now = tv.spreadAprAt staleAfter fun _ => now := by
  rw [TokenView.spreadApr,TokenView.spreadAprAt,liveSnapshots_eq]
  generalize (tv.liveSnapshotsAt staleAfter fun _ => now) = live
  cases live with
  | nil => rfl
  | cons first rest =>
    cases rest with
    | nil => rfl
    | cons second rest =>
      rw [if_neg (by simp),List.getLast?_cons_cons,List.getLast?_eq_some_getLast (List.cons_ne_nil second rest)]
      rfl
theorem exchangeCount_eq (now : ℚ) : tv.exchangeCount staleAfter now = tv.exchangeCountAt staleAfter fun _ => now := by
  rw [TokenView.exchangeCount,TokenView.exchangeCountAt,liveSnapshots_eq]

end UntypedView

namespace UntypedNormalizer

theorem arbitrageCandidates_ofTyped (n : DataNormalizer) (now : ℚ) :
    (ofTyped n).arbitrageCandidates now = .ok ((n.arbitrageCandidates now).map .ofTyped) := by
  have values : (ofTyped n).tokenViews.values = n.tokenViews.values.map .ofTyped :=
    Dict.values_rename UntypedView.ofTyped Scalar.str_injective n.tokenViews
  have candidates : collect (fun tv => do
        return if (← tv.exchangeCount (ofTyped n).staleAfter fun _ => now) ≥ 2 then some tv else none)
      (n.tokenViews.values.map UntypedView.ofTyped) =
      .ok ((n.tokenViews.values.filter (fun tv => tv.exchangeCount n.staleAfter now ≥ 2)).map .ofTyped) := by
    rw [← List.filterMap_eq_filter]
    refine collect_map (fun tv => ?_) _
    rw [UntypedView.exchangeCount_ofTyped,Option.guard,UntypedView.exchangeCount_eq]
    by_cases several : (tv.exchangeCountAt n.staleAfter fun _ => now) ≥ 2
    · simp [several,bind,Except.bind,pure,Except.pure,ofTyped]
    · simp [several,bind,Except.bind,pure,Except.pure,ofTyped]
  have spreads : ∀ views : List TokenView,
      (views.map UntypedView.ofTyped).mapM (fun tv => do
        return (tv,Json.num (← tv.spreadApr (ofTyped n).staleAfter fun _ => now))) =
      (.ok (views.map fun tv => (.ofTyped tv,.num (tv.spreadApr n.staleAfter now))) : Except PyError _) := by
    intro views
    rw [List.mapM_map]
    refine Eq.trans (congrArg (fun f => views.mapM f) (funext fun tv => ?_)) List.mapM_pure
    simp only [Function.comp,UntypedView.spreadApr_ofTyped,UntypedView.spreadApr_eq]
    rfl
  have sorted := @Json.sortedDesc_map _ _ Prod.snd (fun tv => (UntypedView.ofTyped tv,Json.num (tv.spreadApr n.staleAfter now)))
    (fun tv => tv.spreadApr n.staleAfter now) (fun tv => rfl) (n.tokenViews.values.filter (fun tv => tv.exchangeCount n.staleAfter now ≥ 2))
  rw [← values] at candidates
  refine bind_eq_ok.mpr ⟨_,candidates,bind_eq_ok.mpr ⟨_,spreads _,bind_eq_ok.mpr ⟨_,sorted,?_⟩⟩⟩
  refine congrArg Except.ok ?_
  rw [List.map_map]
  rfl

/-- A result of the typed calculator. -/
def legOfTyped (leg : ArbitrageLeg) : UntypedLeg where
  exchange := .str leg.exchange
  token := .str leg.token
  side := leg.side
  fundingRate := .num leg.fundingRate
  fundingRate8h := .num leg.fundingRate8h
  fundingApr := .num leg.fundingApr
  markPrice := .num leg.markPrice
  indexPrice := .num leg.indexPrice
  openInterestUsd := .num leg.openInterestUsd
  makerFee := .num leg.makerFee
  takerFee := .num leg.takerFee
  isStale := leg.isStale
def resultOfTyped (r : ArbitrageResult) : UntypedResult where
  token := .str r.token
  longLeg := legOfTyped r.longLeg
  shortLeg := legOfTyped r.shortLeg
  fundingDeltaApr := r.fundingDeltaApr
  priceSpreadPct := r.priceSpreadPct
  netAprMaker := r.netAprMaker
  netAprTaker := r.netAprTaker
  entryFeePctTaker := r.entryFeePctTaker
  breakevenHoursTaker := r.breakevenHoursTaker
  detectedAt := r.detectedAt

variable (rnd : ℕ → ℚ → ℚ) (minNetAprTaker : ℚ) (n : DataNormalizer) (now : ℚ) (nowMs : ℤ)

theorem computePair_ofTyped (longSnap shortSnap : ExchangeSnapshot) :
    computePair rnd now nowMs (.ofTyped longSnap) (.ofTyped shortSnap) =
      .ok ((ArbitrageCalculator.computePair rnd now nowMs longSnap shortSnap).map resultOfTyped) := by
  have key : ∀ s : ExchangeSnapshot, (UntypedSnapshot.ofTyped s).data.exchange.key = .str s.data.exchange := fun _ => rfl
  unfold computePair ArbitrageCalculator.computePair
  dsimp only
  rw [key,key]
  by_cases same : longSnap.data.exchange = shortSnap.data.exchange
  · rw [if_pos (congrArg Scalar.str same),if_pos same]
    rfl
  · rw [if_neg (fun equal => same (Scalar.str_injective equal)),if_neg same]
    rfl

theorem opportunity_ofTyped (tv : TokenView) :
    opportunity rnd minNetAprTaker now nowMs (.ofTyped tv) =
      .ok ((ArbitrageCalculator.opportunity rnd minNetAprTaker now nowMs tv).map resultOfTyped) := by
  have sorted := Json.sorted_map UntypedView.apr_ofTyped tv.allSnapshots
  refine bind_eq_ok.mpr ⟨_,UntypedView.allSnapshots_ofTyped tv,bind_eq_ok.mpr ⟨_,sorted,?_⟩⟩
  rw [ArbitrageCalculator.opportunity]
  cases sortedBy FundingRadar.apr tv.allSnapshots with
  | nil => rfl
  | cons longSnap rest =>
    cases rest with
    | nil => rfl
    | cons second rest =>
      rw [List.map_cons,List.map_cons]
      dsimp only
      rw [UntypedView.getLast_ofTyped,computePair_ofTyped]
      dsimp only [bind,Except.bind,pure,Except.pure]
      rw [Option.filter_map]
      rfl

theorem calculate_ofTyped :
    calculate rnd minNetAprTaker (ofTyped n) now nowMs =
      .ok ((ArbitrageCalculator.calculate rnd minNetAprTaker n now nowMs).map resultOfTyped) := by
  have results := collect_map (opportunity_ofTyped rnd minNetAprTaker now nowMs) (n.arbitrageCandidates now)
  refine bind_eq_ok.mpr ⟨_,arbitrageCandidates_ofTyped n now,bind_eq_ok.mpr ⟨_,results,?_⟩⟩
  exact congrArg Except.ok (List.map_insertionSort _ _ resultOfTyped _ fun _ _ _ _ => Iff.rfl).symm

/-- A row of the typed table, and a summary of the typed ranking. -/
def rateRowOfTyped (row : ExchangeRateRow) : UntypedRateRow where
  exchange := .str row.exchange
  token := .str row.token
  fundingRate := .num row.fundingRate
  fundingRate8h := .num row.fundingRate8h
  fundingApr := .num row.fundingApr
  markPrice := .num row.markPrice
  openInterestUsd := .num row.openInterestUsd
  volume24hUsd := .num row.volume24hUsd
  priceSpreadPct := .num row.priceSpreadPct
  makerFee := .num row.makerFee
  takerFee := .num row.takerFee
  isLive := .bool row.isLive
  isStale := row.isStale
  ageSeconds := row.ageSeconds
  timestamp := .num row.timestamp
def rankRowOfTyped (r : TokenRankRow) : UntypedRankRow where
  token := .str r.token
  maxApr := .num r.maxApr
  minApr := .num r.minApr
  spreadApr := r.spreadApr
  exchangeCount := r.exchangeCount
  rows := r.rows.map rateRowOfTyped

/-- The readings of a clock for the keys that are strings. -/
def Clock.typed (clock : Clock) : FundingAggregator.Clock where
  reading token p exchange := clock.reading (.str token) p (.str exchange)
  forward token p q exchange earlier := clock.forward (.str token) p q (.str exchange) earlier

theorem rankRow_ofTyped (clock : Clock) (tv : TokenView) :
    rankRow rnd clock (.ofTyped tv) = .ok ((FundingAggregator.rankRow rnd clock.typed tv).map rankRowOfTyped) := by
  refine bind_eq_ok.mpr ⟨_,UntypedView.liveSnapshots_ofTyped tv _ _,?_⟩
  unfold FundingAggregator.rankRow
  dsimp only
  by_cases nothing : tv.liveSnapshotsAt defaultStaleAfter (clock.typed.reading tv.token .live) = []
  · have empty : ((tv.liveSnapshotsAt defaultStaleAfter (clock.typed.reading tv.token .live)).map UntypedSnapshot.ofTyped).isEmpty = true := by
      rw [nothing]
      rfl
    rw [if_pos nothing]
    exact if_pos empty
  · have some : ¬ ((tv.liveSnapshotsAt defaultStaleAfter (clock.typed.reading tv.token .live)).map UntypedSnapshot.ofTyped).isEmpty = true := by
      rwa [List.isEmpty_iff,List.map_eq_nil_iff]
    rw [if_neg nothing]
    refine (if_neg some).trans ?_
    refine bind_eq_ok.mpr ⟨_,UntypedView.allSnapshots_ofTyped tv,bind_eq_ok.mpr ⟨_,UntypedView.maxApr_ofTyped tv _ _,
      bind_eq_ok.mpr ⟨_,UntypedView.minApr_ofTyped tv _ _,bind_eq_ok.mpr ⟨_,UntypedView.spreadApr_ofTyped tv _ _,
        bind_eq_ok.mpr ⟨_,UntypedView.exchangeCount_ofTyped tv _ _,?_⟩⟩⟩⟩⟩
    refine congrArg (fun rows => Except.ok (Option.some (UntypedRankRow.mk _ _ _ _ _ rows))) ?_
    rw [List.map_map,List.map_map]
    rfl

theorem buildRanked_ofTyped (clock : Clock) :
    buildRanked rnd (ofTyped n) clock = .ok ((FundingAggregator.buildRanked rnd n clock.typed).map rankRowOfTyped) := by
  have values : (ofTyped n).tokenViews.values = n.tokenViews.values.map .ofTyped :=
    Dict.values_rename UntypedView.ofTyped Scalar.str_injective n.tokenViews
  have rows := collect_map (rankRow_ofTyped rnd clock) n.tokenViews.values
  rw [← values] at rows
  exact bind_eq_ok.mpr ⟨_,rows,@Json.sortedDesc_map _ _ UntypedRankRow.maxApr rankRowOfTyped TokenRankRow.maxApr (fun _ => rfl) _⟩

end UntypedNormalizer

end FundingRadar
