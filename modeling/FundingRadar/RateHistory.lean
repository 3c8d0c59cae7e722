import Mathlib.Data.List.ReduceOption
import Mathlib.Data.Prod.Lex
import Mathlib.Data.String.Basic
import FundingRadar.AlertDelivery
import FundingRadar.BackfillBatches
import FundingRadar.FundingRates
import FundingRadar.Grouping
import FundingRadar.RateTables

/-!
The queries that average `funding_rates`: the windows of an alert, the ranking of a timeframe,
the history of a token on an exchange in buckets, and the last day of a token on all exchanges.
Over one stretch of time they are four views of the same rows (`averages_agree`,
`detail_agrees`): the history parts the rows, and its averages, each weighted with its samples,
come to the average that the others show, up to what they round.
-/
namespace FundingRadar
open APRWindowHelper FundingRates Grouping TokenKeys

namespace RateHistory

/-- `_TIMEFRAME_DELTA`, in milliseconds. -/
def timeframeDelta : List (String × ℤ) :=
  [("live",300000),("1h",3600000),("8h",28800000),("24h",86400000),("3d",259200000),("7d",604800000),("15d",1296000000),
    ("31d",2678400000)]
/-- `_interval_map`, in milliseconds. -/
def intervalMap : List (String × ℤ) := [("1h",3600000),("4h",14400000),("8h",28800000),("1d",86400000)]
def hours (n : ℤ) : ℤ := n * 3600000

/-! ### The queries -/

section
variable (upper lower : String → String)

/-- A rate and when it is from. -/
abbrev Sample := ℤ × RateColumns

/-- The rows of a token on an exchange from some time on. -/
def pairRates (t : RateTables) (exchangeId tokenId : ℤ) (since : ℚ) : List Sample :=
  t.rates.entries.filterMap fun e => if e.1.2.1 = exchangeId ∧ e.1.2.2 = tokenId ∧ since ≤ e.1.1 then some (e.1.1,e.2) else none

/-- `AVG`: nulls do not count. -/
def avg (values : List (Option ℚ)) : Option ℚ :=
  if values.reduceOption = [] then none else some (average values.reduceOption)
def avgApr (rows : List Sample) : Option ℚ := avg (rows.map fun r => r.2.fundingApr)
/-- `time_bucket`; the intervals divide a day, which their origin is a multiple of. -/
def timeBucket (interval time : ℤ) : ℤ := time / interval * interval

/-- `_query_windows`; an aggregate without groups always has its row. -/
def windowQuery (t : RateTables) (now : ℚ) (exchangeSlug tokenSymbol : String) : WindowRow :=
  let rows := match t.exchanges.get? exchangeSlug,t.tokens.get? (upper tokenSymbol) with
    | some e,some k => pairRates t e k (now - hours 720)
    | _,_ => []
  let window := fun n => avgApr (rows.filter fun r => now - hours n ≤ r.1)
  ⟨window 1,window 8,window 24,window 168,window 720,some rows.length⟩

/-- A row of the query of `_historical_rates`. -/
def rateAggregate (symbol slug name : String) (rows : List Sample) : RateAggregate where
  symbol := symbol
  slug := slug
  name := name
  avgApr := avgApr rows
  maxApr := (rows.map fun r => r.2.fundingApr).reduceOption.max?
  minApr := (rows.map fun r => r.2.fundingApr).reduceOption.min?
  avgOi := avg (rows.map fun r => r.2.openInterestUsd)
  avgVol := avg (rows.map fun r => r.2.volume24hUsd)
  latestTime := (rows.map Prod.fst).max?
/-- The query of `_historical_rates` without filters; a null comes first where the order descends. -/
def historicalQuery (t : RateTables) (names : String → String) (since : ℚ) : List RateAggregate :=
  sortedByDesc (fun r => r.avgApr.elim (⊤ : WithTop ℚ) fun apr => apr)
    (t.tokens.entries.flatMap fun token => t.exchanges.entries.filterMap fun exchange =>
      if pairRates t exchange.2 token.2 since = [] then none
      else some (rateAggregate token.1 exchange.1 (names exchange.1) (pairRates t exchange.2 token.2 since)))

/-! ### `get_funding_history` -/

structure HistoryPoint where
  time : ℤ
  avgApr : ℚ
  avgRate8h : ℚ
  avgMarkPrice : ℚ
  avgOi : ℚ
  sampleCount : ℕ
structure FundingHistory where
  token : String
  exchange : String
  timeframe : String
  interval : String
  data : List HistoryPoint
  count : ℕ

def historyPoint (bucket : ℤ × List Sample) : HistoryPoint where
  time := bucket.1
  avgApr := roundTo 6 ((RateHistory.avgApr bucket.2).getD 0)
  avgRate8h := roundTo 8 ((avg (bucket.2.map fun r => r.2.fundingRate8h)).getD 0)
  avgMarkPrice := roundTo 4 ((avg (bucket.2.map fun r => r.2.markPrice)).getD 0)
  avgOi := roundTo 2 ((avg (bucket.2.map fun r => r.2.openInterestUsd)).getD 0)
  sampleCount := bucket.2.length

/-- `list` of the keys of a dictionary, in a text. -/
def listed (names : List (String × ℤ)) : String := "[" ++ ", ".intercalate (names.map fun e => "'" ++ e.1 ++ "'") ++ "]"

def getFundingHistory (t : RateTables) (now : ℚ) (token exchange timeframe interval : String) : Except HttpException FundingHistory :=
  match Dict.lookup timeframe timeframeDelta with
  | none => .error ⟨422,"Invalid timeframe '" ++ timeframe ++ "'. Valid: " ++ listed timeframeDelta⟩
  | some delta =>
    match Dict.lookup interval intervalMap with
    | none => .error ⟨422,"Invalid interval '" ++ interval ++ "'. Valid: " ++ listed intervalMap⟩
    | some width =>
      match t.tokens.get? (upper token) with
      | none => .error ⟨404,"Token '" ++ token ++ "' not found."⟩
      | some k =>
        match t.exchanges.get? (lower exchange) with
        | none => .error ⟨404,"Exchange '" ++ exchange ++ "' not found."⟩
        | some e =>
          let data := (groupBy (fun r => timeBucket width r.1) (pairRates t e k (now - delta))).map historyPoint
          .ok ⟨upper token,lower exchange,timeframe,interval,data,data.length⟩

/-! ### `get_token_detail` -/

/-- The rows of a token from some time on, each with the slug of its exchange. -/
def tokenRates (t : RateTables) (tokenId : ℤ) (since : ℚ) : List (String × Sample) :=
  t.exchanges.entries.flatMap fun exchange => (pairRates t exchange.2 tokenId since).map fun r => (exchange.1,r)
def detailPoint (group : (ℤ ×ₗ String) × List (String × Sample)) : DetailPoint where
  time := (ofLex group.1).1
  exchange := (ofLex group.1).2
  avgApr := roundTo 6 ((RateHistory.avgApr (group.2.map Prod.snd)).getD 0)
  avgPrice := roundTo 4 ((avg (group.2.map fun r => r.2.2.markPrice)).getD 0)
def detailHistory (t : RateTables) (now : ℚ) (symbol : String) : List DetailPoint :=
  match t.tokens.get? symbol with
  | none => []
  | some k =>
    if k = 0 then []
    else
      (groupBy (fun r : String × Sample => toLex (timeBucket (hours 1) r.2.1,r.1)) (tokenRates t k (now - hours 24))).map
        detailPoint

/-- `get_token_detail` on the tables at a time. -/
def tokenDetail (t : RateTables) (now : ℚ) (ranked : Option (List TokenRankRow)) (current : Option (List ArbitrageResult))
    (token : String) : Except HttpException TokenDetail :=
  getTokenDetail upper (detailHistory t now) ranked current token

end

variable {upper lower : String → String} {t : RateTables} {e k : ℤ}

/-! ### The rows -/

theorem mem_pairRates_iff {since : ℚ} {r : Sample} :
    r ∈ pairRates t e k since ↔ t.rates.get? (r.1,e,k) = some r.2 ∧ since ≤ r.1 := by
  rw [pairRates,List.mem_filterMap,← Dict.mem_entries_iff]
  constructor
  · rintro ⟨⟨⟨time,e',k'⟩,v⟩,member,found⟩
    dsimp only at found
    split at found
    next own =>
      obtain ⟨rfl,rfl,late⟩ := own
      cases found
      exact ⟨member,late⟩
    next => cases found
  · rintro ⟨member,late⟩
    exact ⟨((r.1,e,k),r.2),member,if_pos ⟨rfl,rfl,late⟩⟩

/-- A later start leaves out the earlier rows. -/
theorem pairRates_later {since later : ℚ} (order : since ≤ later) :
    (pairRates t e k since).filter (fun r => later ≤ r.1) = pairRates t e k later := by
  rw [pairRates,pairRates,List.filter_filterMap]
  refine List.filterMap_congr fun entry _ => ?_
  by_cases own : entry.1.2.1 = e ∧ entry.1.2.2 = k ∧ later ≤ entry.1.1
  · rw [if_pos ⟨own.1,own.2.1,order.trans own.2.2⟩,if_pos own]
    exact Option.filter_some_pos (decide_eq_true own.2.2)
  · rw [if_neg own]
    split
    next outside => exact Option.filter_some_neg (decide_eq_false fun late => own ⟨outside.1,outside.2.1,late⟩)
    next => rfl

/-- The rate of a row that has one. -/
def apr (r : Sample) : ℚ := r.2.fundingApr.getD 0

theorem avgApr_of_filled {rows : List Sample} (filled : ∀ r ∈ rows, r.2.fundingApr ≠ none) (nonempty : rows ≠ []) :
    avgApr rows = some (average (rows.map apr)) := by
  have present : (rows.map fun r => r.2.fundingApr).reduceOption = rows.map apr := by
    clear nonempty
    induction rows with
    | nil => rfl
    | cons r rest ih =>
      obtain ⟨x,found⟩ := Option.ne_none_iff_exists'.mp (filled r (List.mem_cons_self ..))
      rw [List.map_cons,found,List.reduceOption_cons_of_some,ih fun r' member => filled r' (List.mem_cons_of_mem r member),
        List.map_cons,apr,found]
      rfl
  rw [avgApr,avg,present,if_neg fun empty => nonempty (List.map_eq_nil_iff.mp empty)]

/-! ### The views -/

theorem timeBucket_spec {width : ℤ} (positive : 0 < width) (time : ℤ) :
    width ∣ timeBucket width time ∧ timeBucket width time ≤ time ∧ time < timeBucket width time + width := by
  have split := Int.mul_ediv_add_emod time width
  have low := Int.emod_nonneg time positive.ne'
  have high := Int.emod_lt_of_pos time positive
  have scaled : timeBucket width time = width * (time / width) := Int.mul_comm _ _
  exact ⟨⟨time / width,scaled⟩,by omega,by omega⟩

theorem interval_pos {interval : String} {width : ℤ} (buckets : Dict.lookup interval intervalMap = some width) : 0 < width := by
  have member := (Dict.lookup_eq_some_iff (by decide) interval width).mp buckets
  have all : ∀ e ∈ intervalMap, 0 < e.2 := by decide
  exact all _ member

/-- The history of a token on an exchange that are both known. -/
theorem getFundingHistory_ok {now : ℚ} {token exchange timeframe interval : String} {delta width : ℤ}
    (spans : Dict.lookup timeframe timeframeDelta = some delta) (buckets : Dict.lookup interval intervalMap = some width)
    (hasToken : t.tokens.get? (upper token) = some k) (hasExchange : t.exchanges.get? (lower exchange) = some e) :
    let data := (groupBy (fun r => timeBucket width r.1) (pairRates t e k (now - delta))).map historyPoint
    getFundingHistory upper lower t now token exchange timeframe interval =
      .ok ⟨upper token,lower exchange,timeframe,interval,data,data.length⟩ := by
  simp only [getFundingHistory,spans,buckets,hasToken,hasExchange]

/-- The samples of the buckets, each bucket with its average, come to the average of all rows. -/
theorem history_average {rows : List Sample} (filled : ∀ r ∈ rows, r.2.fundingApr ≠ none) (width : ℤ) :
    |(((groupBy (fun r => timeBucket width r.1) rows).map historyPoint).map fun p => (p.sampleCount : ℚ) * p.avgApr).sum -
        rows.length * average (rows.map apr)| ≤ rows.length * (1 / 2 / 10 ^ 6) := by
  have off : ∀ g ∈ groupBy (fun r => timeBucket width r.1) rows,
      |(historyPoint g).avgApr - average (g.2.map apr)| ≤ 1 / 2 / 10 ^ 6 := by
    rintro ⟨bucket,group⟩ member
    obtain ⟨own,nonempty⟩ := mem_groupBy_iff.mp member
    have all : ∀ r ∈ group, r.2.fundingApr ≠ none := fun r inside => filled r (List.mem_of_mem_filter (own ▸ inside))
    rw [historyPoint,avgApr_of_filled all nonempty,Option.getD_some]
    exact abs_roundTo_sub_le 6 _
  have near := weighted_error (fun g : ℤ × List Sample => g.2.length) (fun g => average (g.2.map apr)) (fun g => (historyPoint g).avgApr) off
  rw [weighted_average,length_groupBy] at near
  rw [List.map_map]
  exact near

/-- The timeframes that `_WINDOWS` has too, with their labels and hours. -/
def sharedWindows : List (String × String × ℤ) := [("1h","apr_1h",1),("8h","apr_8h",8),("24h","apr_24h",24),("7d","apr_7d",168)]

theorem window_get {now : ℚ} {token exchangeSlug timeframe label : String} {n : ℤ} (shared : (timeframe,label,n) ∈ sharedWindows)
    (hasToken : t.tokens.get? (upper token) = some k) (hasExchange : t.exchanges.get? exchangeSlug = some e) :
    Dict.lookup timeframe timeframeDelta = some (hours n) ∧
      (queryWindows (some (windowQuery upper t now exchangeSlug token))).get label =
        .ok (roundWindow (avgApr (pairRates t e k (now - hours n)))) := by
  have window : ∀ m ≤ (720 : ℤ), avgApr ((pairRates t e k (now - hours 720)).filter fun r => now - hours m ≤ r.1) =
      avgApr (pairRates t e k (now - hours m)) := by
    intro m le
    have order : now - hours 720 ≤ now - hours m := by
      have longer : hours m ≤ hours 720 := mul_le_mul_of_nonneg_right le (by decide)
      exact sub_le_sub_left (by exact_mod_cast longer) now
    rw [pairRates_later order]
  simp only [windowQuery,hasToken,hasExchange]
  simp only [sharedWindows,List.mem_cons,Prod.mk.injEq,List.not_mem_nil,or_false] at shared
  rcases shared with ⟨rfl,rfl,rfl⟩ | ⟨rfl,rfl,rfl⟩ | ⟨rfl,rfl,rfl⟩ | ⟨rfl,rfl,rfl⟩
  · exact ⟨by decide,congrArg (fun x => Except.ok (roundWindow x)) (window 1 (by decide))⟩
  · exact ⟨by decide,congrArg (fun x => Except.ok (roundWindow x)) (window 8 (by decide))⟩
  · exact ⟨by decide,congrArg (fun x => Except.ok (roundWindow x)) (window 24 (by decide))⟩
  · exact ⟨by decide,congrArg (fun x => Except.ok (roundWindow x)) (window 168 (by decide))⟩

theorem mem_historicalQuery {names : String → String} {since : ℚ} {symbol slug : String} (hasToken : t.tokens.get? symbol = some k)
    (hasExchange : t.exchanges.get? slug = some e) (nonempty : pairRates t e k since ≠ []) :
    rateAggregate symbol slug (names slug) (pairRates t e k since) ∈ historicalQuery t names since := by
  rw [historicalQuery,mem_sortedByDesc,List.mem_flatMap]
  refine ⟨(symbol,k),(Dict.mem_entries_iff _ _ _).mpr hasToken,List.mem_filterMap.mpr ⟨(slug,e),?_,if_neg nonempty⟩⟩
  exact (Dict.mem_entries_iff _ _ _).mpr hasExchange

/-- For every content of the tables, every time, token, exchange, timeframe and interval, where the
    rows have their rate: the points of the history ascend, stand at multiples of the interval, have
    every row as a sample once, and come, weighted, to the average of the rows, up to half of the
    sixth decimal; the ranking of the timeframe has that average to four decimals, and so has the
    window of an alert, where it has one of that length. -/
theorem averages_agree (upper lower names : String → String) (t : RateTables) (now : ℚ) (token exchange timeframe interval : String)
    (delta width e k : ℤ) (spans : Dict.lookup timeframe timeframeDelta = some delta)
    (buckets : Dict.lookup interval intervalMap = some width) (hasToken : t.tokens.get? (upper token) = some k)
    (hasExchange : t.exchanges.get? (lower exchange) = some e)
    (filled : ∀ r ∈ pairRates t e k (now - delta), r.2.fundingApr ≠ none) (nonempty : pairRates t e k (now - delta) ≠ []) :
    ∃ history mean, getFundingHistory upper lower t now token exchange timeframe interval = .ok history ∧
      (history.data.map HistoryPoint.time).Pairwise (· < ·) ∧
      (∀ p ∈ history.data, width ∣ p.time ∧ now - delta < p.time + width) ∧
      (history.data.map HistoryPoint.sampleCount).sum = (pairRates t e k (now - delta)).length ∧
      |(history.data.map fun p => (p.sampleCount : ℚ) * p.avgApr).sum / (history.data.map HistoryPoint.sampleCount).sum - mean| ≤
        1 / 2 / 10 ^ 6 ∧
      (∃ row ∈ historicalQuery t names (now - delta), row.symbol = upper token ∧ row.slug = lower exchange ∧
        (historicalRow roundTo row).avgApr = roundTo 4 mean) ∧
      ∀ label n, (timeframe,label,n) ∈ sharedWindows →
        (queryWindows (some (windowQuery upper t now (lower exchange) token))).get label = .ok (.num (roundTo 4 mean)) := by
  have counted : (((groupBy (fun r => timeBucket width r.1) (pairRates t e k (now - delta))).map historyPoint).map
      HistoryPoint.sampleCount).sum = (pairRates t e k (now - delta)).length := by
    rw [List.map_map]
    exact length_groupBy _ _
  have mean := avgApr_of_filled filled nonempty
  refine ⟨_,average ((pairRates t e k (now - delta)).map apr),getFundingHistory_ok spans buckets hasToken hasExchange,?_,?_,counted,?_,
    ⟨_,mem_historicalQuery hasToken hasExchange nonempty,rfl,rfl,?_⟩,fun label n shared => ?_⟩
  · have ascends := groupBy_sorted (fun r : Sample => timeBucket width r.1) (pairRates t e k (now - delta))
    rw [List.map_map]
    exact ascends
  · intro p member
    obtain ⟨⟨bucket,group⟩,inside,rfl⟩ := List.mem_map.mp member
    obtain ⟨own,some⟩ := mem_groupBy_iff.mp inside
    obtain ⟨r,there⟩ := List.exists_mem_of_ne_nil _ some
    rw [own] at there
    obtain ⟨row,same⟩ := List.mem_filter.mp there
    obtain rfl : timeBucket width r.1 = bucket := of_decide_eq_true same
    obtain ⟨divides,-,below⟩ := timeBucket_spec (interval_pos buckets) r.1
    have late := (mem_pairRates_iff.mp row).2
    have later : (r.1 : ℚ) < timeBucket width r.1 + width := by exact_mod_cast below
    exact ⟨divides,late.trans_lt later⟩
  · have near := history_average filled width
    have positive : (0 : ℚ) < (pairRates t e k (now - delta)).length :=
      Nat.cast_pos.mpr (List.length_pos_iff.mpr nonempty)
    rw [counted]
    have scaled : ∀ sum mean : ℚ, sum / (pairRates t e k (now - delta)).length - mean =
        (sum - (pairRates t e k (now - delta)).length * mean) / (pairRates t e k (now - delta)).length := by
      intro sum mean
      field_simp
    rw [scaled,abs_div,abs_of_pos positive,div_le_iff₀ positive]
    exact near.trans_eq (mul_comm _ _)
  · rw [historicalRow,RateAggregate.apr,rateAggregate,mean]
    rfl
  · obtain ⟨same,window⟩ := @window_get upper t e k now token (lower exchange) timeframe label n shared hasToken hasExchange
    rw [spans] at same
    obtain rfl := Option.some.inj same
    rw [window,mean]
    rfl

/-- What a first backfill has stored. -/
def backfilled : RateTables := (BackfillService.firstRun 2 BackfillService.twoSpellings).1.db.tables

theorem backfilled_averages : (∀ r ∈ pairRates backfilled 1 4 (5 - (86400000 : ℤ)), r.2.fundingApr ≠ none) ∧
    pairRates backfilled 1 4 (5 - (86400000 : ℤ)) ≠ [] ∧
    ∃ history mean, getFundingHistory BackfillService.upperOne id backfilled 5 "btc" "aster" "24h" "1h" = .ok history ∧
      |(history.data.map fun p => (p.sampleCount : ℚ) * p.avgApr).sum / (history.data.map HistoryPoint.sampleCount).sum - mean| ≤
        1 / 2 / 10 ^ 6 ∧
      (queryWindows (some (windowQuery BackfillService.upperOne backfilled 5 "aster" "btc"))).get "apr_24h" =
        .ok (.num (roundTo 4 mean)) := by
  have filled : ∀ r ∈ pairRates backfilled 1 4 (5 - (86400000 : ℤ)), r.2.fundingApr ≠ none := by decide +kernel
  have nonempty : pairRates backfilled 1 4 (5 - (86400000 : ℤ)) ≠ [] := by decide +kernel
  obtain ⟨history,mean,returned,-,-,-,near,-,windows⟩ := averages_agree BackfillService.upperOne id id backfilled 5 "btc" "aster" "24h" "1h"
    86400000 3600000 1 4 (by decide) (by decide) (by decide +kernel) (by decide +kernel) filled nonempty
  exact ⟨filled,nonempty,history,mean,returned,near,windows "apr_24h" 24 (by decide)⟩

/-- The rows of a token with one slug are those of its exchange. -/
theorem tokenRates_slug {slug : String} {since : ℚ} (hasExchange : t.exchanges.get? slug = some e) :
    (tokenRates t k since).filter (fun r => r.1 = slug) = (pairRates t e k since).map fun r => (slug,r) := by
  have member := (Dict.mem_entries_iff t.exchanges slug e).mpr hasExchange
  have once := t.exchanges.nodupKeys
  rw [tokenRates]
  generalize t.exchanges.entries = entries at member once
  induction entries with
  | nil => cases member
  | cons entry rest ih =>
    obtain ⟨fresh,later⟩ := List.nodup_cons.mp once
    rw [List.flatMap_cons,List.filter_append]
    by_cases own : entry.1 = slug
    · have others : (rest.flatMap fun exchange => (pairRates t exchange.2 k since).map fun r => (exchange.1,r)).filter
          (fun r => r.1 = slug) = [] := by
        refine List.filter_eq_nil_iff.mpr fun r inside => ?_
        obtain ⟨exchange,there,listed⟩ := List.mem_flatMap.mp inside
        obtain ⟨r',-,rfl⟩ := List.mem_map.mp listed
        refine fun same => fresh ?_
        rw [own,← of_decide_eq_true same]
        exact List.mem_map_of_mem there
      have same : entry = (slug,e) := by
        rcases List.mem_cons.mp member with here | there
        · exact here.symm
        · exact absurd (own ▸ List.mem_map_of_mem there) fresh
      rw [others,List.append_nil,same]
      exact List.filter_eq_self.mpr fun r inside => by
        obtain ⟨r',-,rfl⟩ := List.mem_map.mp inside
        exact decide_eq_true rfl
    · have none : ((pairRates t entry.2 k since).map fun r => (entry.1,r)).filter (fun r => r.1 = slug) = [] := by
        refine List.filter_eq_nil_iff.mpr fun r inside => ?_
        obtain ⟨r',-,rfl⟩ := List.mem_map.mp inside
        exact fun same => own (of_decide_eq_true same)
      rw [none,List.nil_append]
      refine ih ((List.mem_cons.mp member).resolve_left ?_) later
      rintro rfl
      exact own rfl

/-- What the detail of a token shows of an exchange are the points of its history of a day in
    hours: the same times, the same averages and the same prices, in the same order. -/
theorem detail_agrees (upper lower : String → String) (t : RateTables) (now : ℚ) (token exchange : String) (e k : ℤ)
    (hasToken : t.tokens.get? (upper token) = some k) (serial : k ≠ 0) (hasExchange : t.exchanges.get? (lower exchange) = some e) :
    ∃ history, getFundingHistory upper lower t now token exchange "24h" "1h" = .ok history ∧
      ((detailHistory t now (upper token)).filter fun p => p.exchange = lower exchange).map
          (fun p => (p.time,p.avgApr,p.avgPrice)) =
        history.data.map fun p => (p.time,p.avgApr,p.avgMarkPrice) := by
  refine ⟨_,@getFundingHistory_ok upper lower t e k now token exchange "24h" "1h" (hours 24) (hours 1) (by decide) (by decide)
    hasToken hasExchange,?_⟩
  -- What is shown of a group is what is shown of its bucket and its rows.
  let shown : ℤ × List (String × Sample) → ℤ × ℚ × ℚ := fun g =>
    (g.1,roundTo 6 ((avgApr (g.2.map Prod.snd)).getD 0),roundTo 4 ((avg (g.2.map fun r => r.2.2.markPrice)).getD 0))
  have detail : detailHistory t now (upper token) =
      (groupBy (fun r : String × Sample => toLex (timeBucket (hours 1) r.2.1,r.1)) (tokenRates t k (now - hours 24))).map detailPoint := by
    simp only [detailHistory,hasToken,if_neg serial]
  have tagged := groupBy_tagged (fun r : String × Sample => timeBucket (hours 1) r.2.1) Prod.fst (tokenRates t k (now - hours 24))
    (lower exchange)
  rw [tokenRates_slug hasExchange,groupBy_map] at tagged
  calc ((detailHistory t now (upper token)).filter fun p => p.exchange = lower exchange).map (fun p => (p.time,p.avgApr,p.avgPrice))
      = (((groupBy (fun r : String × Sample => toLex (timeBucket (hours 1) r.2.1,r.1)) (tokenRates t k (now - hours 24))).filter
          fun g => (ofLex g.1).2 = lower exchange).map fun g => ((ofLex g.1).1,g.2)).map shown := by
        rw [detail,List.filter_map,List.map_map,List.map_map]
        rfl
    _ = ((groupBy (fun r : Sample => timeBucket (hours 1) r.1) (pairRates t e k (now - hours 24))).map
          fun g => (g.1,g.2.map fun r => (lower exchange,r))).map shown := by rw [tagged]
    _ = _ := by
        rw [List.map_map,List.map_map]
        refine List.map_congr_left fun g _ => ?_
        have own : (Prod.snd ∘ fun r : Sample => (lower exchange,r)) = id := rfl
        simp only [shown,historyPoint,Function.comp_apply,List.map_map,own,List.map_id]
        rfl

theorem backfilled_detail : ∃ history, getFundingHistory BackfillService.upperOne id backfilled 5 "btc" "aster" "24h" "1h" = .ok history ∧
    ((detailHistory backfilled 5 (BackfillService.upperOne "btc")).filter fun p => p.exchange = "aster").map
        (fun p => (p.time,p.avgApr,p.avgPrice)) =
      history.data.map fun p => (p.time,p.avgApr,p.avgMarkPrice) :=
  detail_agrees BackfillService.upperOne id backfilled 5 "btc" "aster" 1 4 (by decide +kernel) (by decide) (by decide +kernel)

end RateHistory
end FundingRadar
