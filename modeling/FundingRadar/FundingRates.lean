import FundingRadar.FundingAggregator

/-!
The two sources of `/funding/rates`. `_live_rates` filters the rows of the published entries
and hands out their summaries as they were stored; `_historical_rates` filters first and
summarises what is left. For published entries that agree with their rows the live path
returns a summary of the rows it shows exactly when the filter drops no row of an entry that
it lists. The APR windows that are added to the rows of a page decide nothing.
-/
namespace FundingRadar
namespace FundingRates

variable (upper lower : String → String) (rnd : ℕ → ℚ → ℚ)

/-- What both endpoints return. -/
structure Page (α : Type) where
  data : List α
  total : ℕ
  limit : ℕ
  offset : ℕ

def paginate {α : Type} (ranked : List α) (limit offset : ℕ) : Page α :=
  ⟨(ranked.drop offset).take limit,ranked.length,limit,offset⟩

/-- The filters that are not empty. -/
def tokenSelects (token : Option String) (candidate : String) : Bool :=
  match token with
  | none => true
  | some t => t = "" || decide (candidate = upper t)
def exchangeSelects (exchanges : List String) (candidate : String) : Bool :=
  exchanges = [] || decide (candidate ∈ exchanges.map lower)

/-! ### The live path -/

/-- An entry with the rows that the filter keeps. -/
def keepRows (exchanges : List String) (r : TokenRankRow) : TokenRankRow :=
  { r with rows := r.rows.filter (fun row => row.exchange ∈ exchanges.map lower) }
def filterToken (token : Option String) (ranked : List TokenRankRow) : List TokenRankRow :=
  ranked.filter (fun r => tokenSelects upper token (upper r.token))
def filterExchanges (exchanges : List String) (ranked : List TokenRankRow) : List TokenRankRow :=
  if exchanges = [] then ranked else (ranked.map (keepRows lower exchanges)).filter (fun r => r.rows ≠ [])

/-- `_live_rates`, on the content of `funding:ranked`. -/
def liveRates (raw : Option (List TokenRankRow)) (exchanges : List String) (token : Option String) (limit offset : ℕ) :
    Page TokenRankRow :=
  match raw with
  | none => ⟨[],0,limit,offset⟩
  | some ranked => paginate (filterExchanges lower exchanges (filterToken upper token ranked)) limit offset

/-! ### The historical path -/

/-- What the query yields of one token on one exchange. -/
structure RateAggregate where
  symbol : String
  slug : String
  name : String
  avgApr : Option ℚ
  maxApr : Option ℚ
  minApr : Option ℚ
  avgOi : Option ℚ
  avgVol : Option ℚ
  latestTime : Option ℤ

structure HistoricalRow where
  exchange : String
  exchangeName : String
  avgApr : ℚ
  maxApr : ℚ
  minApr : ℚ
  avgOi : ℚ
  avgVol : ℚ
  latestTime : Option ℤ

/-- An entry of `token_map`; the smallest APR starts at infinity. -/
structure HistoricalEntry where
  token : String
  maxApr : ℚ
  minApr : WithTop ℚ
  spreadApr : ℚ
  exchangeCount : ℕ
  rows : List HistoricalRow

def blank (symbol : String) : HistoricalEntry := ⟨symbol,0,⊤,0,0,[]⟩
/-- `float(row.avg_apr or 0)`. -/
def RateAggregate.apr (row : RateAggregate) : ℚ := row.avgApr.getD 0
def historicalRow (row : RateAggregate) : HistoricalRow where
  exchange := row.slug
  exchangeName := row.name
  avgApr := rnd 4 row.apr
  maxApr := rnd 4 (row.maxApr.getD 0)
  minApr := rnd 4 (row.minApr.getD 0)
  avgOi := rnd 2 (row.avgOi.getD 0)
  avgVol := rnd 2 (row.avgVol.getD 0)
  latestTime := row.latestTime

/-- One round of the loop that groups by token. -/
def addRow (entry : HistoricalEntry) (row : RateAggregate) : HistoricalEntry :=
  { entry with
    rows := entry.rows ++ [historicalRow rnd row]
    maxApr := max entry.maxApr row.apr
    minApr := min entry.minApr row.apr
    exchangeCount := entry.exchangeCount + 1 }
def groupByToken (rows : List RateAggregate) : Dict String HistoricalEntry :=
  rows.foldl (fun tokenMap row =>
    tokenMap.insert row.symbol (addRow rnd ((tokenMap.get? row.symbol).getD (blank row.symbol)) row)) .empty
/-- The last touch: the spread, and zero for an infinite minimum. -/
def finish (entry : HistoricalEntry) : HistoricalEntry :=
  { entry with
    spreadApr := rnd 4 (entry.maxApr - entry.minApr.untopD 0)
    minApr := if entry.minApr = ⊤ then 0 else entry.minApr }

/-- The part of the query that filters. -/
def selectRows (db : List RateAggregate) (exchanges : List String) (token : Option String) : List RateAggregate :=
  db.filter (fun row => tokenSelects upper token row.symbol && exchangeSelects lower exchanges row.slug)
/-- `_historical_rates`, on what the query yields without filters for a timeframe. -/
def historicalRates (db : List RateAggregate) (exchanges : List String) (token : Option String) (limit offset : ℕ) :
    Page HistoricalEntry :=
  paginate ((sortedByDesc HistoricalEntry.maxApr (groupByToken rnd (selectRows upper lower db exchanges token)).values).map
    (finish rnd)) limit offset

/-! ### What an entry should say -/

/-- The summary of an entry is the one of its rows. -/
structure Summarised (r : TokenRankRow) : Prop where
  count : r.exchangeCount = r.rows.length
  max : IsGreatest { x | ∃ row ∈ r.rows, row.fundingApr = x } r.maxApr
  min : IsLeast { x | ∃ row ∈ r.rows, row.fundingApr = x } r.minApr
  spread : r.spreadApr = r.maxApr - r.minApr

/-- Every entry is summarised, and they stand in the order of their maxima. -/
structure Consistent (entries : List TokenRankRow) : Prop where
  summarised : ∀ r ∈ entries, Summarised r
  sorted : entries.Pairwise (fun a b => b.maxApr ≤ a.maxApr)

/-- An entry with the summary of its rows. -/
def summarise (r : TokenRankRow) : TokenRankRow :=
  let aprs := r.rows.map ExchangeRateRow.fundingApr
  { r with
    maxApr := aprs.max?.getD 0
    minApr := aprs.min?.getD 0
    spreadApr := aprs.max?.getD 0 - aprs.min?.getD 0
    exchangeCount := r.rows.length }
/-- The live entries where the filter comes first and the summary after it. -/
def filteredThenSummarised (ranked : List TokenRankRow) (exchanges : List String) (token : Option String) : List TokenRankRow :=
  sortedByDesc TokenRankRow.maxApr ((filterExchanges lower exchanges (filterToken upper token ranked)).map summarise)

/-- The filter keeps all rows of an entry. -/
def Whole (exchanges : List String) (r : TokenRankRow) : Prop := ∀ row ∈ r.rows, row.exchange ∈ exchanges.map lower
instance (exchanges : List String) (r : TokenRankRow) : Decidable (Whole lower exchanges r) :=
  inferInstanceAs (Decidable (∀ row ∈ r.rows, _))
/-- The published entries of which the page shows rows. -/
def listed (ranked : List TokenRankRow) (exchanges : List String) (token : Option String) (limit offset : ℕ) : List TokenRankRow :=
  (((filterToken upper token ranked).filter (fun r => (keepRows lower exchanges r).rows ≠ [])).drop offset).take limit

variable {upper lower}

theorem filterExchanges_eq_map {exchanges : List String} (asked : exchanges ≠ []) (ranked : List TokenRankRow) :
    filterExchanges lower exchanges ranked =
      (ranked.filter (fun r => (keepRows lower exchanges r).rows ≠ [])).map (keepRows lower exchanges) := by
  rw [filterExchanges,if_neg asked,List.filter_map]
  rfl

/-- The page shows the kept rows of the listed entries. -/
theorem liveRates_data {exchanges : List String} (asked : exchanges ≠ []) (ranked : List TokenRankRow) (token : Option String)
    (limit offset : ℕ) : (liveRates upper lower (some ranked) exchanges token limit offset).data =
      (listed upper lower ranked exchanges token limit offset).map (keepRows lower exchanges) := by
  show ((filterExchanges lower exchanges (filterToken upper token ranked)).drop offset).take limit = _
  rw [filterExchanges_eq_map asked,listed,List.map_take,List.map_drop]

theorem keepRows_of_whole {exchanges : List String} {r : TokenRankRow} (whole : Whole lower exchanges r) :
    keepRows lower exchanges r = r := by
  have all : r.rows.filter (fun row => row.exchange ∈ exchanges.map lower) = r.rows :=
    List.filter_eq_self.mpr fun row member => decide_eq_true (whole row member)
  rw [keepRows,all]

/-- A stored summary is that of the kept rows only where all rows are kept. -/
theorem Summarised.keepRows_iff {exchanges : List String} {r : TokenRankRow} (agrees : Summarised r) :
    Summarised (keepRows lower exchanges r) ↔ Whole lower exchanges r := by
  constructor
  · intro kept row member
    have size : (r.rows.filter (fun row => row.exchange ∈ exchanges.map lower)).length = r.rows.length :=
      kept.count.symm.trans agrees.count
    exact of_decide_eq_true (List.length_filter_eq_length_iff.mp size row member)
  · intro whole
    rw [keepRows_of_whole whole]
    exact agrees

theorem mem_of_listed {ranked : List TokenRankRow} {exchanges : List String} {token : Option String} {limit offset : ℕ}
    {r : TokenRankRow} (member : r ∈ listed upper lower ranked exchanges token limit offset) : r ∈ ranked :=
  List.mem_of_mem_filter (List.mem_of_mem_filter (List.mem_of_mem_drop (List.mem_of_mem_take member)))

/-- What is listed stands in the order in which it was published. -/
theorem listed_sublist (ranked : List TokenRankRow) (exchanges : List String) (token : Option String) (limit offset : ℕ) :
    (listed upper lower ranked exchanges token limit offset).Sublist ranked :=
  (((List.take_sublist ..).trans (List.drop_sublist ..)).trans List.filter_sublist).trans List.filter_sublist

/-- The page says of the entries that it lists what was stored. -/
theorem consistent_page_iff {exchanges : List String} (asked : exchanges ≠ []) (ranked : List TokenRankRow) (token : Option String)
    (limit offset : ℕ) : Consistent (liveRates upper lower (some ranked) exchanges token limit offset).data ↔
      (∀ r ∈ listed upper lower ranked exchanges token limit offset, Summarised (keepRows lower exchanges r)) ∧
        (listed upper lower ranked exchanges token limit offset).Pairwise (fun a b => b.maxApr ≤ a.maxApr) := by
  rw [liveRates_data asked]
  constructor
  · rintro ⟨summarised,sorted⟩
    exact ⟨fun r member => summarised _ (List.mem_map_of_mem member),List.pairwise_map.mp sorted⟩
  · rintro ⟨summarised,sorted⟩
    refine ⟨?_,List.pairwise_map.mpr sorted⟩
    intro r member
    obtain ⟨stored,inListed,rfl⟩ := List.mem_map.mp member
    exact summarised stored inListed

theorem consistent_page_iff_whole {exchanges : List String} (asked : exchanges ≠ []) {ranked : List TokenRankRow}
    (published : Consistent ranked) (token : Option String) (limit offset : ℕ) :
    Consistent (liveRates upper lower (some ranked) exchanges token limit offset).data ↔
      ∀ r ∈ listed upper lower ranked exchanges token limit offset, Whole lower exchanges r := by
  rw [consistent_page_iff asked,and_iff_left (published.sorted.sublist (listed_sublist ..))]
  exact forall₂_congr fun r member => (published.summarised r (mem_of_listed member)).keepRows_iff

/-! ### Filter and summary -/

/-- A summary is determined by the rows. -/
theorem Summarised.summarise_eq {r : TokenRankRow} (agrees : Summarised r) : summarise r = r := by
  have values : { x | ∃ row ∈ r.rows, row.fundingApr = x } = { x | x ∈ r.rows.map ExchangeRateRow.fundingApr } := by
    ext x
    exact List.mem_map.symm
  have some : r.rows.map ExchangeRateRow.fundingApr ≠ [] := by
    obtain ⟨row,member,-⟩ := agrees.max.1
    exact List.ne_nil_of_mem (List.mem_map_of_mem member)
  have greatest := agrees.max.unique (values ▸ FundingAggregator.isGreatest_max? some)
  have least := agrees.min.unique (values ▸ FundingAggregator.isLeast_min? some)
  have count := agrees.count
  have spread := agrees.spread
  obtain ⟨token,maxApr,minApr,spreadApr,exchangeCount,rows⟩ := r
  dsimp only at greatest least count spread some
  rw [summarise]
  dsimp only
  rw [← greatest,← least,← count,← spread]

/-- What `summarise` writes is the summary of the rows, where there are any. -/
theorem summarised_summarise {r : TokenRankRow} (some : r.rows ≠ []) : Summarised (summarise r) := by
  have values : { x | ∃ row ∈ r.rows, row.fundingApr = x } = { x | x ∈ r.rows.map ExchangeRateRow.fundingApr } := by
    ext x
    exact List.mem_map.symm
  have aprs : r.rows.map ExchangeRateRow.fundingApr ≠ [] := mt List.map_eq_nil_iff.mp some
  refine ⟨rfl,?_,?_,rfl⟩
  · show IsGreatest { x | ∃ row ∈ r.rows, row.fundingApr = x } _
    rw [values]
    exact FundingAggregator.isGreatest_max? aprs
  · show IsLeast { x | ∃ row ∈ r.rows, row.fundingApr = x } _
    rw [values]
    exact FundingAggregator.isLeast_min? aprs

/-- The live path commutes with the summary, on all pages, exactly where the filter keeps all rows of
    every entry of which it keeps any. -/
theorem commutes_iff_whole {exchanges : List String} (asked : exchanges ≠ []) {ranked : List TokenRankRow}
    (published : Consistent ranked) (token : Option String) :
    (∀ limit offset, (liveRates upper lower (some ranked) exchanges token limit offset).data =
        ((filteredThenSummarised upper lower ranked exchanges token).drop offset).take limit) ↔
      ∀ r ∈ filterToken upper token ranked, (keepRows lower exchanges r).rows ≠ [] → Whole lower exchanges r := by
  constructor
  · intro commutes r member some
    -- a page that is long enough is everything
    have page := commutes ((filterExchanges lower exchanges (filterToken upper token ranked)).length +
      (filteredThenSummarised upper lower ranked exchanges token).length) 0
    change ((filterExchanges lower exchanges (filterToken upper token ranked)).drop 0).take _ = _ at page
    rw [List.drop_zero,List.drop_zero,List.take_of_length_le (Nat.le_add_right ..),
      List.take_of_length_le (Nat.le_add_left ..)] at page
    have shown : keepRows lower exchanges r ∈ filterExchanges lower exchanges (filterToken upper token ranked) := by
      rw [filterExchanges_eq_map asked]
      exact List.mem_map_of_mem (List.mem_filter.mpr ⟨member,decide_eq_true some⟩)
    rw [page,filteredThenSummarised,mem_sortedByDesc] at shown
    obtain ⟨kept,inKept,same⟩ := List.mem_map.mp shown
    have rows : kept.rows ≠ [] := by
      intro empty
      refine some ?_
      rw [← same]
      exact empty
    have agrees := summarised_summarise rows
    rw [same] at agrees
    exact (published.summarised r (List.mem_of_mem_filter member)).keepRows_iff.mp agrees
  · intro whole limit offset
    have unchanged : filterExchanges lower exchanges (filterToken upper token ranked) =
        (filterToken upper token ranked).filter (fun r => (keepRows lower exchanges r).rows ≠ []) := by
      rw [filterExchanges_eq_map asked]
      refine (List.map_congr_left fun r member => ?_).trans (List.map_id _)
      obtain ⟨selected,some⟩ := List.mem_filter.mp member
      exact keepRows_of_whole (whole r selected (of_decide_eq_true some))
    have sublist : ((filterToken upper token ranked).filter (fun r => (keepRows lower exchanges r).rows ≠ [])).Sublist ranked :=
      List.filter_sublist.trans List.filter_sublist
    have summaries : ((filterToken upper token ranked).filter (fun r => (keepRows lower exchanges r).rows ≠ [])).map summarise =
        (filterToken upper token ranked).filter (fun r => (keepRows lower exchanges r).rows ≠ []) :=
      (List.map_congr_left fun r member => (published.summarised r (sublist.subset member)).summarise_eq).trans (List.map_id _)
    have sorted : sortedByDesc TokenRankRow.maxApr
        ((filterToken upper token ranked).filter (fun r => (keepRows lower exchanges r).rows ≠ [])) =
        (filterToken upper token ranked).filter (fun r => (keepRows lower exchanges r).rows ≠ []) :=
      (published.sorted.sublist sublist).insertionSort_eq
    show ((filterExchanges lower exchanges (filterToken upper token ranked)).drop offset).take limit = _
    rw [filteredThenSummarised,unchanged,summaries,sorted]

/-- For every payload the page is consistent exactly when the stored summaries of what it lists are
    those of the rows it shows, and in order. For a payload that is consistent itself: exactly when
    the filter keeps all rows of what is listed; and the live path is filter, summary and order, on
    all pages, exactly when it keeps all rows of every entry that it does not drop. -/
theorem live_agrees_iff (upper lower : String → String) (ranked : List TokenRankRow) {exchanges : List String}
    (asked : exchanges ≠ []) (token : Option String) :
    (∀ limit offset, Consistent (liveRates upper lower (some ranked) exchanges token limit offset).data ↔
      (∀ r ∈ listed upper lower ranked exchanges token limit offset, Summarised (keepRows lower exchanges r)) ∧
        (listed upper lower ranked exchanges token limit offset).Pairwise (fun a b => b.maxApr ≤ a.maxApr)) ∧
    (Consistent ranked →
      (∀ limit offset, Consistent (liveRates upper lower (some ranked) exchanges token limit offset).data ↔
        ∀ r ∈ listed upper lower ranked exchanges token limit offset, Whole lower exchanges r) ∧
      ((∀ limit offset, (liveRates upper lower (some ranked) exchanges token limit offset).data =
          ((filteredThenSummarised upper lower ranked exchanges token).drop offset).take limit) ↔
        ∀ r ∈ filterToken upper token ranked, (keepRows lower exchanges r).rows ≠ [] → Whole lower exchanges r)) :=
  ⟨consistent_page_iff asked ranked token,
    fun published => ⟨consistent_page_iff_whole asked published token,commutes_iff_whole asked published token⟩⟩

/-! ### The summary of the historical path -/

/-- The summary of an entry is that of its rows, except that the maximum is never below zero and the
    spread is rounded. -/
structure HistoricalSummary (rows : List RateAggregate) (entry : HistoricalEntry) : Prop where
  shown : entry.rows = rows.map (historicalRow rnd)
  count : entry.exchangeCount = rows.length
  max : IsGreatest { x | x = 0 ∨ ∃ row ∈ rows, row.apr = x } entry.maxApr
  min : ∃ least : ℚ, IsLeast { x | ∃ row ∈ rows, row.apr = x } least ∧ entry.minApr = least ∧
    entry.spreadApr = rnd 4 (entry.maxApr - least)

/-- What the rounds of the grouping leave of an entry. -/
structure Grouped (rows : List RateAggregate) (entry : HistoricalEntry) : Prop where
  shown : entry.rows = rows.map (historicalRow rnd)
  count : entry.exchangeCount = rows.length
  max : IsGreatest { x | x = 0 ∨ ∃ row ∈ rows, row.apr = x } entry.maxApr
  min : IsLeast { x : WithTop ℚ | x = ⊤ ∨ ∃ row ∈ rows, (row.apr : WithTop ℚ) = x } entry.minApr

theorem grouped_blank (symbol : String) : Grouped rnd [] (blank symbol) where
  shown := rfl
  count := rfl
  max := by simp [blank]
  min := by simp [blank]

/-- One more value among the candidates of a maximum, and of a minimum. -/
theorem isGreatest_insert {β : Type*} [LinearOrder β] {s : Set β} {m : β} (greatest : IsGreatest s m) (x : β) :
    IsGreatest { y | y ∈ s ∨ y = x } (max m x) := by
  refine ⟨?_,?_⟩
  · rcases max_choice m x with same | same
    · rw [same]
      exact .inl greatest.1
    · rw [same]
      exact .inr rfl
  · rintro y (member | rfl)
    · exact (greatest.2 member).trans (le_max_left ..)
    · exact le_max_right ..
theorem isLeast_insert {β : Type*} [LinearOrder β] {s : Set β} {m : β} (least : IsLeast s m) (x : β) :
    IsLeast { y | y ∈ s ∨ y = x } (min m x) :=
  @isGreatest_insert βᵒᵈ _ s m least x

theorem Grouped.add {rows : List RateAggregate} {entry : HistoricalEntry} (grouped : Grouped rnd rows entry) (row : RateAggregate) :
    Grouped rnd (rows ++ [row]) (addRow rnd entry row) where
  shown := by
    rw [List.map_append,← grouped.shown]
    rfl
  count := by
    rw [List.length_append,← grouped.count]
    rfl
  max := by
    have more := isGreatest_insert grouped.max row.apr
    refine cast (congrArg (fun s => IsGreatest s _) ?_) more
    ext x
    simp [or_assoc,eq_comm,or_and_right,exists_or]
  min := by
    have more := isLeast_insert grouped.min (row.apr : WithTop ℚ)
    refine cast (congrArg (fun s => IsLeast s _) ?_) more
    ext x
    simp [or_assoc,eq_comm,or_and_right,exists_or]

/-- The entry of a token is made of the rows of the token, in their order. -/
theorem groupByToken_grouped {rows : List RateAggregate} {symbol : String} {entry : HistoricalEntry}
    (found : (groupByToken rnd rows).get? symbol = some entry) :
    entry.token = symbol ∧ rows.filter (fun row => row.symbol = symbol) ≠ [] ∧
      Grouped rnd (rows.filter (fun row => row.symbol = symbol)) entry := by
  have looped := Dict.get?_foldl_update RateAggregate.symbol
    (fun value row => addRow rnd (value.getD (blank row.symbol)) row) rows .empty symbol
  rw [groupByToken,looped] at found
  have own : ∀ row ∈ rows.filter (fun row => row.symbol = symbol), row.symbol = symbol :=
    fun row member => of_decide_eq_true (List.mem_filter.mp member).2
  have grown : ∀ (l before : List RateAggregate) (start : HistoricalEntry), start.token = symbol → Grouped rnd before start →
      l.foldl (fun value row => some (addRow rnd (value.getD (blank row.symbol)) row)) (some start) = some entry →
      entry.token = symbol ∧ Grouped rnd (before ++ l) entry := by
    intro l
    induction l with
    | nil =>
      intro before start named grouped result
      cases result
      rw [List.append_nil]
      exact ⟨named,grouped⟩
    | cons row rest ih =>
      intro before start named grouped result
      obtain ⟨label,whole⟩ := ih (before ++ [row]) (addRow rnd start row) named (grouped.add rnd row) result
      rw [List.append_assoc] at whole
      exact ⟨label,whole⟩
  cases rowsOf : rows.filter (fun row => row.symbol = symbol) with
  | nil =>
    rw [rowsOf] at found
    cases found
  | cons row rest =>
    rw [rowsOf] at found own
    have first := own row (List.mem_cons_self ..)
    obtain ⟨label,grouped⟩ := grown rest [row] (addRow rnd (blank row.symbol) row) first
      (@Grouped.add rnd [] _ (grouped_blank rnd row.symbol) row) found
    exact ⟨label,List.cons_ne_nil _ _,grouped⟩

/-- An entry is touched last once it is grouped, and is the summary of the rows of its token then. -/
theorem historicalSummary_of_found {rows : List RateAggregate} {symbol : String} {grouped : HistoricalEntry}
    (found : (groupByToken rnd rows).get? symbol = some grouped) : grouped.token = symbol ∧
      HistoricalSummary rnd (rows.filter (fun row => row.symbol = grouped.token)) (finish rnd grouped) := by
  obtain ⟨named,some,whole⟩ := groupByToken_grouped rnd found
  subst named
  obtain ⟨first,rest,split⟩ := List.exists_cons_of_ne_nil some
  have finite : grouped.minApr ≠ ⊤ := by
    intro infinite
    have below := whole.min.2 (.inr ⟨first,split ▸ List.mem_cons_self ..,rfl⟩)
    rw [infinite,top_le_iff] at below
    exact WithTop.coe_ne_top below
  obtain ⟨row,inRows,value⟩ := whole.min.1.resolve_left finite
  have least : IsLeast { x | ∃ row ∈ rows.filter (fun row => row.symbol = grouped.token), row.apr = x } row.apr := by
    refine ⟨⟨row,inRows,rfl⟩,?_⟩
    rintro x ⟨other,member,rfl⟩
    have below := whole.min.2 (.inr ⟨other,member,rfl⟩)
    rw [← value] at below
    exact WithTop.coe_le_coe.mp below
  refine ⟨rfl,whole.shown,whole.count,whole.max,row.apr,least,?_,?_⟩
  · show (if grouped.minApr = ⊤ then 0 else grouped.minApr) = _
    rw [if_neg finite,value]
  · show rnd 4 (grouped.maxApr - grouped.minApr.untopD 0) = _
    rw [← value]
    rfl

/-- The historical path filters first: every entry that it shows is the summary of the rows of
    its token that the filters select. -/
theorem historicalRates_summary (upper lower : String → String) (db : List RateAggregate) (exchanges : List String)
    (token : Option String) (limit offset : ℕ) {entry : HistoricalEntry}
    (shown : entry ∈ (historicalRates upper lower rnd db exchanges token limit offset).data) :
    HistoricalSummary rnd ((selectRows upper lower db exchanges token).filter (fun row => row.symbol = entry.token)) entry := by
  obtain ⟨grouped,member,rfl⟩ := List.mem_map.mp (List.mem_of_mem_drop (List.mem_of_mem_take shown))
  obtain ⟨symbol,found⟩ := (Dict.mem_values_iff ..).mp ((mem_sortedByDesc ..).mp member)
  exact (historicalSummary_of_found rnd found).2

/-! ### A filter that drops a row -/

def btcRow (exchange : String) (apr : ℚ) : ExchangeRateRow :=
  ⟨exchange,"BTC",apr / 1095,apr / 1095,apr,60000,0,0,0,0,0,true,false,0,1700000000⟩
/-- One token on two exchanges. -/
def twoExchanges : List TokenRankRow := [⟨"BTC",30,10,20,2,[btcRow "hyperliquid" 30,btcRow "aster" 10]⟩]

/-- With one of them the entry still counts two, and claims the maximum of the other. -/
theorem aster_not_consistent : ¬ Consistent (liveRates id id (some twoExchanges) ["aster"] none 50 0).data := by
  intro consistent
  have counted : ∀ r ∈ (liveRates id id (some twoExchanges) ["aster"] none 50 0).data, r.exchangeCount = r.rows.length :=
    fun r member => (consistent.summarised r member).count
  exact absurd counted (by decide +kernel)

theorem twoExchanges_consistent : Consistent twoExchanges where
  summarised r member := by
    rw [List.mem_singleton.mp member]
    refine ⟨rfl,⟨⟨btcRow "hyperliquid" 30,.head _,rfl⟩,?_⟩,⟨⟨btcRow "aster" 10,.tail _ (.head _),rfl⟩,?_⟩,by norm_num⟩
    · rintro x ⟨row,inRows,rfl⟩
      rcases List.mem_pair.mp inRows with rfl | rfl
      · exact le_refl _
      · show (10 : ℚ) ≤ 30
        norm_num
    · rintro x ⟨row,inRows,rfl⟩
      rcases List.mem_pair.mp inRows with rfl | rfl
      · show (10 : ℚ) ≤ 30
        norm_num
      · exact le_refl _
  sorted := List.pairwise_singleton ..

/-- With both of them the page is consistent. -/
theorem twoExchanges_page_consistent : ["aster","hyperliquid"] ≠ [] ∧ Consistent twoExchanges ∧
    Consistent (liveRates id id (some twoExchanges) ["aster","hyperliquid"] none 50 0).data := by
  have asked : ["aster","hyperliquid"] ≠ [] := by decide
  have settled := (live_agrees_iff id id twoExchanges asked none).2 twoExchanges_consistent
  exact ⟨asked,twoExchanges_consistent,(settled.1 50 0).mpr (by decide +kernel)⟩

end FundingRates
end FundingRadar
