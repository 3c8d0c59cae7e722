import FundingRadar.ArbitrageList
import FundingRadar.FundingRates
import FundingRadar.Listings
import FundingRadar.RateHistory

/-!
The catalogue of exchanges, over the published ranking and opportunities. `list_exchanges` counts
the rows and the legs of every exchange, and `get_exchange_tokens` filters, sorts and pages the
rows of one. Both speak of the same tokens: those that are ranked and of which the normaliser
has a snapshot on the exchange, each once (`catalogue_agrees`).
-/
namespace FundingRadar.Catalogue
open FundingAggregator ArbitrageCalculator Listings
open FundingRates (Page paginate)

/-- A row of `exchanges`. -/
structure Exchange where
  slug : String
  name : String
  logoUrl : Option String
  makerFee : ℚ
  takerFee : ℚ
  fundingIntervalHours : ℤ
  isActive : Bool
deriving DecidableEq

/-- The `exchanges` table; slugs are unique. -/
structure ExchangesTable where
  rows : List Exchange
  unique : (rows.map Exchange.slug).Nodup

def ExchangesTable.active (t : ExchangesTable) : List Exchange := t.rows.filter Exchange.isActive

/-! ### GET /exchanges -/

structure CatalogueEntry where
  slug : String
  name : String
  logoUrl : Option String
  makerFee : ℚ
  takerFee : ℚ
  fundingIntervalHours : ℤ
  isActive : Bool
  liveTokenCount : ℕ
  arbOpportunityCount : ℕ
deriving DecidableEq

/-- `token_count_by_exchange`. -/
def tokenCountByExchange (ranked : List TokenRankRow) : Dict String ℕ :=
  ranked.foldl (fun counts item => item.rows.foldl (tally ExchangeRateRow.exchange) counts) .empty

def legs (opp : ArbitrageResult) : List ArbitrageLeg := [opp.longLeg,opp.shortLeg]
/-- `arb_count_by_exchange`. -/
def arbCountByExchange (arb : List ArbitrageResult) : Dict String ℕ :=
  arb.foldl (fun counts opp => (legs opp).foldl
    (fun counts leg => if leg.exchange = "" then counts else tally ArbitrageLeg.exchange counts leg) counts) .empty

/-- `list_exchanges`, on the contents of `funding:ranked` and `arbitrage:current`. -/
def listExchanges (t : ExchangesTable) (rawRanked : Option (List TokenRankRow)) (rawArb : Option (List ArbitrageResult)) :
    List CatalogueEntry × ℕ :=
  let tokenCounts := tokenCountByExchange (rawRanked.getD [])
  let arbCounts := arbCountByExchange (rawArb.getD [])
  let data := t.active.map fun ex =>
    { slug := ex.slug
      name := ex.name
      logoUrl := ex.logoUrl
      makerFee := ex.makerFee
      takerFee := ex.takerFee
      fundingIntervalHours := ex.fundingIntervalHours
      isActive := ex.isActive
      liveTokenCount := (tokenCounts.get? ex.slug).getD 0
      arbOpportunityCount := (arbCounts.get? ex.slug).getD 0 }
  (sortedByDesc CatalogueEntry.liveTokenCount data,data.length)

/-! ### GET /exchanges/{slug}/tokens -/

structure ExchangeTokens where
  exchange : Exchange
  page : Page ExchangeRateRow
  source : String

/-- `sort_key_map`. -/
def sortKey (sortBy : String) : ExchangeRateRow → ℚ :=
  if sortBy = "oi" then ExchangeRateRow.openInterestUsd
  else if sortBy = "volume" then ExchangeRateRow.volume24hUsd
  else ExchangeRateRow.fundingApr

/-- The live rows of an exchange. -/
def liveRows (ranked : List TokenRankRow) (slug : String) : List ExchangeRateRow :=
  ranked.flatMap fun item => (item.rows.filter fun row => row.exchange = slug).map fun row => { row with token := item.token }
def filterOi (minOi : ℚ) (rows : List ExchangeRateRow) : List ExchangeRateRow :=
  if minOi > 0 then rows.filter (fun r => r.openInterestUsd ≥ minOi) else rows

variable (lower : String → String)

/-- `get_exchange_tokens`, of which the response shows some columns of the exchange. -/
def getExchangeTokens (t : ExchangesTable) (raw : Option (List TokenRankRow)) (slug : String) (minOi : ℚ) (sortBy : String)
    (limit offset : ℕ) : Except HttpException ExchangeTokens :=
  match t.rows.find? (fun ex => ex.slug = lower slug ∧ ex.isActive = true) with
  | none => .error ⟨404,"Exchange '" ++ slug ++ "' not found or inactive."⟩
  | some exchange =>
    let rows := sortedByDesc (sortKey sortBy) (filterOi minOi (liveRows (raw.getD []) (lower slug)))
    .ok ⟨exchange,paginate rows limit offset,if raw.isSome then "live" else "db"⟩

/-! ### What is counted -/

variable {ranked : List TokenRankRow} {arb : List ArbitrageResult} {lower}

/-- The two loops count the rows one after the other. -/
theorem tokenCountByExchange_eq (ranked : List TokenRankRow) :
    tokenCountByExchange ranked = (ranked.flatMap TokenRankRow.rows).foldl (tally ExchangeRateRow.exchange) .empty :=
  (List.foldl_flatMap ..).symm

theorem tokenCount_eq (ranked : List TokenRankRow) (slug : String) :
    ((tokenCountByExchange ranked).get? slug).getD 0 = (liveRows ranked slug).length := by
  rw [tokenCountByExchange_eq,get?_tallied,Dict.get?_empty,Option.getD_none,Nat.zero_add,liveRows,List.length_flatMap,List.countP_flatMap]
  congr 1
  refine List.map_congr_left fun item _ => ?_
  rw [Function.comp_apply,List.countP_eq_length_filter,List.length_map]

theorem arbCount_eq (arb : List ArbitrageResult) {slug : String} (named : slug ≠ "") :
    ((arbCountByExchange arb).get? slug).getD 0 = (arb.flatMap legs).countP (fun leg => leg.exchange = slug) := by
  have flat : arbCountByExchange arb = ((arb.flatMap legs).filter fun leg => leg.exchange ≠ "").foldl (tally ArbitrageLeg.exchange) .empty := by
    rw [List.foldl_filter,List.foldl_flatMap,arbCountByExchange]
    simp only [ne_eq,decide_not,Bool.not_eq_true',decide_eq_false_iff_not,ite_not]
  rw [flat,get?_tallied,Dict.get?_empty,Option.getD_none,Nat.zero_add,List.countP_filter]
  refine List.countP_congr fun leg _ => ?_
  rw [Bool.and_eq_true,decide_eq_true_eq,decide_eq_true_eq]
  exact and_iff_left_of_imp fun same => same ▸ named

/-- An exchange is on one leg of an opportunity at most. -/
theorem countP_legs {opp : ArbitrageResult} (differ : opp.longLeg.exchange ≠ opp.shortLeg.exchange) (slug : String) :
    (legs opp).countP (fun leg => leg.exchange = slug) = if opp.longLeg.exchange = slug ∨ opp.shortLeg.exchange = slug then 1 else 0 := by
  rw [legs,List.countP_cons,List.countP_cons,List.countP_nil]
  simp only [decide_eq_true_eq]
  by_cases long : opp.longLeg.exchange = slug
  · have notShort : opp.shortLeg.exchange ≠ slug := fun short => differ (long.trans short.symm)
    rw [if_neg notShort,if_pos long,if_pos (.inl long)]
  · by_cases short : opp.shortLeg.exchange = slug
    · rw [if_pos short,if_neg long,if_pos (.inr short)]
    · rw [if_neg short,if_neg long,if_neg (not_or.mpr ⟨long,short⟩)]

theorem countP_flatMap_legs (differ : ∀ opp ∈ arb, opp.longLeg.exchange ≠ opp.shortLeg.exchange) (slug : String) :
    (arb.flatMap legs).countP (fun leg => leg.exchange = slug) =
      arb.countP (fun opp => opp.longLeg.exchange = slug ∨ opp.shortLeg.exchange = slug) := by
  induction arb with
  | nil => rfl
  | cons opp rest ih =>
    rw [List.flatMap_cons,List.countP_append,ih fun o member => differ o (List.mem_cons_of_mem opp member),
      countP_legs (differ opp (List.mem_cons_self ..)),List.countP_cons,Nat.add_comm]
    simp only [decide_eq_true_eq]

/-! ### Rankings whose rows are told apart -/

/-- A token is ranked once, with one row for an exchange. -/
structure Distinct (ranked : List TokenRankRow) : Prop where
  tokens : (ranked.map TokenRankRow.token).Nodup
  exchanges : ∀ item ∈ ranked, (item.rows.map ExchangeRateRow.exchange).Nodup

theorem filter_length_le_one {rows : List ExchangeRateRow} (distinct : (rows.map ExchangeRateRow.exchange).Nodup) (slug : String) :
    (rows.filter fun row => row.exchange = slug).length ≤ 1 := by
  have counted : (rows.map ExchangeRateRow.exchange).count slug = (rows.filter fun row => row.exchange = slug).length := by
    rw [List.count_eq_countP,List.countP_map,List.countP_eq_length_filter]
    rfl
  exact counted ▸ List.nodup_iff_count_le_one.mp distinct slug

/-- The rows of an exchange have their tokens from the entries that list it. -/
theorem Distinct.tokens_liveRows (distinct : Distinct ranked) (slug : String) :
    ((liveRows ranked slug).map ExchangeRateRow.token).Sublist (ranked.map TokenRankRow.token) := by
  let rows := fun item : TokenRankRow => (item.rows.filter fun row => row.exchange = slug).map fun row => { row with token := item.token }
  have single : ∀ item ∈ ranked, (rows item).length ≤ 1 := by
    intro item member
    rw [List.length_map]
    exact filter_length_le_one (distinct.exchanges item member) slug
  have labelled : ∀ item ∈ ranked, ∀ row ∈ rows item, row.token = item.token := by
    intro item _ row inside
    obtain ⟨_,-,rfl⟩ := List.mem_map.mp inside
    rfl
  exact map_flatMap_of_single single labelled ▸ List.filter_sublist.map _

theorem mem_liveRows_iff {slug : String} {row : ExchangeRateRow} :
    row ∈ liveRows ranked slug ↔ ∃ item ∈ ranked, ∃ r ∈ item.rows, r.exchange = slug ∧ { r with token := item.token } = row := by
  rw [liveRows,List.mem_flatMap]
  refine exists_congr fun item => and_congr_right fun _ => ?_
  rw [List.mem_map]
  refine exists_congr fun r => ?_
  rw [List.mem_filter,decide_eq_true_eq,and_assoc]

/-! ### The published ranking -/

variable {rnd : ℕ → ℚ → ℚ} {n : DataNormalizer} {clock : Clock}

theorem buildRanked_distinct (coherent : n.Coherent) : Distinct (buildRanked rnd n clock) where
  tokens := tokens_nodup coherent
  exchanges item member := by
    obtain ⟨token,tv,view,shown,given⟩ := (mem_buildRanked_iff coherent item).mp member
    obtain ⟨item',given',-,-,-,-,-,rows⟩ := @rankRow_eq_some rnd _ _ _ _ coherent view shown
    rw [given] at given'
    cases given'
    have labels : tv.snapshots.values.map (fun s => s.data.exchange) = tv.snapshots.keys := by
      refine Dict.values_map_eq_keys _ fun exchange s held => ?_
      have snapshot := (mem_entries_iff_getSnapshot coherent view exchange s).mp ((Dict.mem_entries_iff _ _ _).mpr held)
      exact (coherent.labelled exchange token s snapshot).1
    rw [rows,List.map_map]
    have permuted := (sortedByDesc_perm (fun s => s.data.fundingApr) tv.snapshots.values).map fun s => s.data.exchange
    exact permuted.nodup_iff.mpr (labels ▸ tv.snapshots.nodupKeys)

/-- The rows of an exchange: those of the snapshots that the normaliser has of it for the tokens shown. -/
theorem mem_liveRows_buildRanked_iff (coherent : n.Coherent) {slug : String} {row : ExchangeRateRow} :
    row ∈ liveRows (buildRanked rnd n clock) slug ↔ ∃ token s, Shown n clock token ∧ n.getSnapshot slug token = some s ∧
      snapToRow rnd s (clock.reading token .rowStale slug) (clock.reading token .rowAge slug) = row := by
  rw [mem_liveRows_iff]
  constructor
  · rintro ⟨item,member,r,inside,own,rfl⟩
    obtain ⟨token,tv,view,shown,given⟩ := (mem_buildRanked_iff coherent item).mp member
    obtain ⟨item',given',named,-,-,-,-,rows⟩ := @rankRow_eq_some rnd _ _ _ _ coherent view shown
    rw [given] at given'
    cases given'
    rw [rows] at inside
    obtain ⟨s,held,rfl⟩ := List.mem_map.mp inside
    have snapshot := (mem_allSnapshots_iff coherent view s).mp held
    have exchange : s.data.exchange = slug := own
    rw [exchange] at snapshot
    refine ⟨token,s,shown,snapshot,?_⟩
    rw [named,exchange,← (coherent.labelled slug token s snapshot).2]
    rfl
  · rintro ⟨token,s,shown,snapshot,rfl⟩
    obtain ⟨exchange,label⟩ := coherent.labelled slug token s snapshot
    obtain ⟨tv,view⟩ := (coherent.view_iff token).mpr ⟨slug,s,snapshot⟩
    obtain ⟨item,given,named,-,-,-,-,rows⟩ := @rankRow_eq_some rnd _ _ _ _ coherent view shown
    refine ⟨item,(mem_buildRanked_iff coherent item).mpr ⟨token,tv,view,shown,given⟩,
      snapToRow rnd s (clock.reading token .rowStale slug) (clock.reading token .rowAge slug),?_,exchange,?_⟩
    · rw [rows]
      have held := (mem_allSnapshots_iff coherent view s).mpr (exchange ▸ snapshot)
      have row := List.mem_map_of_mem (f := fun s =>
        snapToRow rnd s (clock.reading token .rowStale s.data.exchange) (clock.reading token .rowAge s.data.exchange)) held
      rw [exchange] at row
      exact row
    · rw [named,← label]
      rfl

/-- The rows that are listed for an exchange: those of the snapshots of the tokens shown that have
    the open interest, each once, in the order that is asked for. -/
structure Listed (n : DataNormalizer) (clock : Clock) (slug : String) (minOi : ℚ) (sortBy : String) (rows : List ExchangeRateRow) :
    Prop where
  sorted : rows.Pairwise fun a b => sortKey sortBy b ≤ sortKey sortBy a
  once : (rows.map ExchangeRateRow.token).Nodup
  snapshots : ∀ row ∈ rows, row.exchange = slug ∧ Shown n clock row.token ∧ ∃ s, n.getSnapshot slug row.token = some s ∧
    row.fundingApr = s.data.fundingApr ∧ row.openInterestUsd = s.data.openInterestUsd ∧ row.volume24hUsd = s.data.volume24hUsd
  complete : ∀ token s, Shown n clock token → n.getSnapshot slug token = some s →
    (token ∈ rows.map ExchangeRateRow.token ↔ (0 < minOi → minOi ≤ s.data.openInterestUsd))

theorem mem_filterOi_iff {minOi : ℚ} {rows : List ExchangeRateRow} {row : ExchangeRateRow} :
    row ∈ filterOi minOi rows ↔ row ∈ rows ∧ (0 < minOi → minOi ≤ row.openInterestUsd) := by
  rw [filterOi]
  by_cases asked : minOi > 0
  · rw [if_pos asked,List.mem_filter,decide_eq_true_eq]
    exact and_congr_right fun _ => (imp_iff_right asked).symm
  · rw [if_neg asked]
    exact (and_iff_left fun positive => absurd positive asked).symm

theorem listed_rows (coherent : n.Coherent) (slug : String) (minOi : ℚ) (sortBy : String) :
    Listed n clock slug minOi sortBy
      (sortedByDesc (sortKey sortBy) (filterOi minOi (liveRows (buildRanked rnd n clock) slug))) where
  sorted := pairwise_sortedByDesc _ _
  once := by
    have distinct := @buildRanked_distinct rnd n clock coherent
    have all := (distinct.tokens_liveRows slug).nodup distinct.tokens
    rw [((sortedByDesc_perm _ _).map ExchangeRateRow.token).nodup_iff]
    have kept : (filterOi minOi (liveRows (buildRanked rnd n clock) slug)).Sublist (liveRows (buildRanked rnd n clock) slug) := by
      rw [filterOi]
      split
      · exact List.filter_sublist
      · exact List.Sublist.refl _
    exact (kept.map _).nodup all
  snapshots row member := by
    obtain ⟨token,s,shown,snapshot,rfl⟩ :=
      (mem_liveRows_buildRanked_iff coherent).mp (mem_filterOi_iff.mp ((mem_sortedByDesc _ _).mp member)).1
    obtain ⟨exchange,label⟩ := coherent.labelled slug token s snapshot
    have named : (snapToRow rnd s (clock.reading token .rowStale slug) (clock.reading token .rowAge slug)).token = token := label
    rw [named]
    exact ⟨exchange,shown,s,snapshot,rfl,rfl,rfl⟩
  complete token s shown snapshot := by
    obtain ⟨-,label⟩ := coherent.labelled slug token s snapshot
    rw [List.mem_map]
    constructor
    · rintro ⟨row,member,named⟩ asked
      obtain ⟨live,enough⟩ := mem_filterOi_iff.mp ((mem_sortedByDesc _ _).mp member)
      obtain ⟨token',s',-,snapshot',rfl⟩ := (mem_liveRows_buildRanked_iff coherent).mp live
      have same : token' = token := (coherent.labelled slug token' s' snapshot').2.symm.trans named
      rw [same,snapshot] at snapshot'
      cases snapshot'
      exact enough asked
    · intro enough
      refine ⟨snapToRow rnd s (clock.reading token .rowStale slug) (clock.reading token .rowAge slug),?_,label⟩
      rw [mem_sortedByDesc,mem_filterOi_iff]
      exact ⟨(mem_liveRows_buildRanked_iff coherent).mpr ⟨token,s,shown,snapshot,rfl⟩,enough⟩

/-! ### The two endpoints -/

theorem legs_differ (coherent : n.Coherent) {minNetAprTaker now : ℚ} {nowMs : ℤ} {opp : ArbitrageResult}
    (member : opp ∈ calculate rnd minNetAprTaker n now nowMs) : opp.longLeg.exchange ≠ opp.shortLeg.exchange := by
  obtain ⟨_,_,low,high,-,-,-,computed,-⟩ := (mem_calculate_iff coherent opp).mp member
  rw [computePair] at computed
  split at computed
  next => cases computed
  next differ =>
    cases computed
    exact differ

section
variable (t : ExchangesTable) (rawRanked : Option (List TokenRankRow)) (rawArb : Option (List ArbitrageResult))

theorem mem_listExchanges {e : CatalogueEntry} (member : e ∈ (listExchanges t rawRanked rawArb).1) :
    ∃ ex ∈ t.active, e.slug = ex.slug ∧ e.liveTokenCount = ((tokenCountByExchange (rawRanked.getD [])).get? ex.slug).getD 0 ∧
      e.arbOpportunityCount = ((arbCountByExchange (rawArb.getD [])).get? ex.slug).getD 0 := by
  rw [listExchanges,mem_sortedByDesc] at member
  obtain ⟨ex,active,rfl⟩ := List.mem_map.mp member
  exact ⟨ex,active,rfl,rfl,rfl⟩

/-- A column of the catalogue that depends on the slug. -/
theorem map_listExchanges {γ : Type} {column : CatalogueEntry → γ} {value : String → γ}
    (same : ∀ e ∈ (listExchanges t rawRanked rawArb).1, column e = value e.slug) :
    ((listExchanges t rawRanked rawArb).1.map column).Perm ((t.active.map Exchange.slug).map value) := by
  rw [List.map_congr_left same]
  refine ((sortedByDesc_perm _ _).map _).trans ?_
  rw [List.map_map,List.map_map]
  exact List.Perm.refl _

theorem active_nodup : (t.active.map Exchange.slug).Nodup := (List.filter_sublist.map _).nodup t.unique

end

/-- An active exchange answers with its rows. -/
theorem getExchangeTokens_eq (t : ExchangesTable) (ranked : List TokenRankRow) {ex : Exchange} (active : ex ∈ t.active) {asked : String}
    (named : lower asked = ex.slug) (minOi : ℚ) (sortBy : String) :
    ∃ exchange, exchange ∈ t.active ∧ exchange.slug = ex.slug ∧ ∀ limit offset,
      getExchangeTokens lower t (some ranked) asked minOi sortBy limit offset =
        .ok ⟨exchange,paginate (sortedByDesc (sortKey sortBy) (filterOi minOi (liveRows ranked ex.slug))) limit offset,"live"⟩ := by
  obtain ⟨inside,isActive⟩ := List.mem_filter.mp active
  cases found : t.rows.find? (fun ex' => ex'.slug = lower asked ∧ ex'.isActive = true) with
  | none =>
    have fails := List.find?_eq_none.mp found ex inside
    exact absurd (decide_eq_true ⟨named.symm,isActive⟩) fails
  | some exchange =>
    have passes := List.find?_some found
    rw [decide_eq_true_eq] at passes
    refine ⟨exchange,List.mem_filter.mpr ⟨List.mem_of_find?_eq_some found,passes.2⟩,passes.1.trans named,?_⟩
    intro limit offset
    rw [getExchangeTokens,found,named]
    rfl

/-- For all published rankings and opportunities, whatever the clock reads meanwhile: the catalogue has
    every active exchange once, those with most tokens first; its counts of opportunities are of
    those with a leg on the exchange, two to each where all legs are on active exchanges; and
    its count of tokens is of the rows that the exchange lists, of which consecutive pages
    show each once, in the order asked for. -/
theorem catalogue_agrees (lower : String → String) (rnd : ℕ → ℚ → ℚ) (staleAfter staleAfter' minNetAprTaker now : ℚ)
    (ops ops' : List DataNormalizer.Op) (clock : Clock) (nowMs : ℤ) (t : ExchangesTable) :
    let n := DataNormalizer.run staleAfter ops
    let ranked := buildRanked rnd n clock
    let arb := calculate rnd minNetAprTaker (.run staleAfter' ops') now nowMs
    let data := (listExchanges t (some ranked) (some arb)).1
    (data.map CatalogueEntry.slug).Perm (t.active.map Exchange.slug) ∧
      data.Pairwise (fun a b => b.liveTokenCount ≤ a.liveTokenCount) ∧
      (∀ e ∈ data, e.slug ≠ "" →
        e.arbOpportunityCount = arb.countP fun opp => opp.longLeg.exchange = e.slug ∨ opp.shortLeg.exchange = e.slug) ∧
      ("" ∉ t.active.map Exchange.slug → (∀ opp ∈ arb, ∀ leg ∈ legs opp, leg.exchange ∈ t.active.map Exchange.slug) →
        (data.map CatalogueEntry.arbOpportunityCount).sum = 2 * arb.length) ∧
      ∀ e ∈ data, ∀ asked, lower asked = e.slug → ∀ minOi sortBy, ∃ exchange ∈ t.active, exchange.slug = e.slug ∧ ∃ rows,
        (∀ limit offset, getExchangeTokens lower t (some ranked) asked minOi sortBy limit offset =
          .ok ⟨exchange,⟨page limit offset rows,rows.length,limit,offset⟩,"live"⟩) ∧
        (∀ limit pages, rows.length ≤ pages * limit → ((List.range pages).flatMap fun i => page limit (i * limit) rows) = rows) ∧
        Listed n clock e.slug minOi sortBy rows ∧ (minOi ≤ 0 → e.liveTokenCount = rows.length) := by
  intro n ranked arb data
  have coherent : n.Coherent := DataNormalizer.run_coherent staleAfter ops
  have differ : ∀ opp ∈ arb, opp.longLeg.exchange ≠ opp.shortLeg.exchange :=
    fun opp member => legs_differ (DataNormalizer.run_coherent staleAfter' ops') member
  have counted : ∀ e ∈ data, e.slug ≠ "" → e.arbOpportunityCount = (arb.flatMap legs).countP fun leg => leg.exchange = e.slug := by
    intro e member named
    obtain ⟨ex,-,slug,-,count⟩ := mem_listExchanges t (some ranked) (some arb) member
    rw [count,slug]
    exact arbCount_eq arb (slug ▸ named)
  refine ⟨?_,pairwise_sortedByDesc _ _,?_,?_,?_⟩
  · have slugs := @map_listExchanges t (some ranked) (some arb) String CatalogueEntry.slug id fun _ _ => rfl
    rwa [List.map_id] at slugs
  · intro e member named
    rw [counted e member named,countP_flatMap_legs differ]
  · intro named covered
    have column : ∀ e ∈ data, e.arbOpportunityCount = (arb.flatMap legs).countP fun leg => leg.exchange = e.slug := by
      intro e member
      refine counted e member ?_
      intro empty
      obtain ⟨ex,active,slug,-⟩ := mem_listExchanges t (some ranked) (some arb) member
      exact named (List.mem_map.mpr ⟨ex,active,slug.symm.trans empty⟩)
    have onActive : ∀ leg ∈ arb.flatMap legs, leg.exchange ∈ t.active.map Exchange.slug := by
      intro leg member
      obtain ⟨opp,inside,own⟩ := List.mem_flatMap.mp member
      exact covered opp inside leg own
    have total : (arb.flatMap legs).length = 2 * arb.length := by
      rw [List.length_flatMap]
      simp only [legs,List.length_cons,List.length_nil,List.map_const',List.sum_replicate_nat]
      exact Nat.mul_comm ..
    have counts := @map_listExchanges t (some ranked) (some arb) ℕ CatalogueEntry.arbOpportunityCount
      (fun slug => (arb.flatMap legs).countP fun leg => leg.exchange = slug) column
    rw [counts.sum_eq,sum_countP ArbitrageLeg.exchange (active_nodup t) onActive,total]
  · intro e member asked spelled minOi sortBy
    obtain ⟨ex,active,slug,count,-⟩ := mem_listExchanges t (some ranked) (some arb) member
    obtain ⟨exchange,isActive,same,answers⟩ := getExchangeTokens_eq t ranked active (spelled.trans slug) minOi sortBy
    refine ⟨exchange,isActive,same.trans slug.symm,_,answers,fun limit pages enough => flatMap_page_of_le enough,?_,?_⟩
    · rw [slug]
      exact listed_rows coherent ex.slug minOi sortBy
    · intro every
      rw [count,tokenCount_eq,length_sortedByDesc,filterOi,if_neg (not_lt.mpr every)]
      rfl

/-- The two exchanges of the bitcoin records. -/
def twoExchanges : ExchangesTable where
  rows := [⟨"aster","Aster",none,1 / 100,35 / 1000,8,true⟩,⟨"hyperliquid","Hyperliquid",none,1 / 100,35 / 1000,1,true⟩]
  unique := by decide

/-- The catalogue counts bitcoin on the exchange that has been silent, and its list shows it. -/
theorem mixedRun_catalogue :
    ∃ e ∈ (listExchanges twoExchanges (some (buildRanked roundTo (.run defaultStaleAfter mixedRun) (.still 200)))
        (some (calculate roundTo 0 (.run defaultStaleAfter mixedRun) 200 200000))).1,
      e.slug = "hyperliquid" ∧ e.liveTokenCount = 1 ∧ ∃ exchange rows, rows.length = 1 ∧
        getExchangeTokens id twoExchanges (some (buildRanked roundTo (.run defaultStaleAfter mixedRun) (.still 200))) "hyperliquid" 0
          "oi" 50 0 = .ok ⟨exchange,⟨page 50 0 rows,rows.length,50,0⟩,"live"⟩ := by
  obtain ⟨-,-,-,-,each⟩ := catalogue_agrees id roundTo defaultStaleAfter defaultStaleAfter 0 200 mixedRun mixedRun (.still 200)
    200000 twoExchanges
  have counted : ∃ e ∈ (listExchanges twoExchanges (some (buildRanked roundTo (.run defaultStaleAfter mixedRun) (.still 200)))
      (some (calculate roundTo 0 (.run defaultStaleAfter mixedRun) 200 200000))).1, e.slug = "hyperliquid" ∧ e.liveTokenCount = 1 := by
    decide +kernel
  obtain ⟨e,member,slug,count⟩ := counted
  obtain ⟨exchange,-,-,rows,answers,-,-,total⟩ := each e member "hyperliquid" slug.symm 0 "oi"
  exact ⟨e,member,slug,count,exchange,rows,(total (le_refl 0)).symm.trans count,answers 50 0⟩

end FundingRadar.Catalogue
