import FundingRadar.FundingRates

/-!
The ranking of `_historical_rates`. The largest APR of an entry starts at zero and the
smallest at infinity, so an entry is the aggregate of its rows where one of them is not
negative. The order, the rows and their counts are right in any case.
-/
namespace FundingRadar
namespace FundingRates

variable (rnd : ℕ → ℚ → ℚ)

/-- What `_historical_rates` takes its page from. -/
def historicalRanking (rows : List RateAggregate) : List HistoricalEntry :=
  (sortedByDesc HistoricalEntry.maxApr (groupByToken rnd rows).values).map (finish rnd)

/-- An entry is the aggregate of its rows. -/
structure Aggregate (rows : List RateAggregate) (entry : HistoricalEntry) : Prop where
  shown : entry.rows = rows.map (historicalRow rnd)
  count : entry.exchangeCount = rows.length
  max : IsGreatest { x | ∃ row ∈ rows, row.apr = x } entry.maxApr
  min : ∃ least : ℚ, IsLeast { x | ∃ row ∈ rows, row.apr = x } least ∧ entry.minApr = least ∧
    entry.spreadApr = rnd 4 (entry.maxApr - least)

/-- The entries are the tokens of the rows, each once and with its rows in their order, and the
    largest maximum comes first. -/
structure Aggregated (rows : List RateAggregate) (ranked : List HistoricalEntry) : Prop where
  distinct : (ranked.map HistoricalEntry.token).Nodup
  tokens : ∀ symbol, (∃ entry ∈ ranked, entry.token = symbol) ↔ ∃ row ∈ rows, row.symbol = symbol
  entries : ∀ entry ∈ ranked, Aggregate rnd (rows.filter (fun row => row.symbol = entry.token)) entry
  sorted : ranked.Pairwise (fun a b => b.maxApr ≤ a.maxApr)

variable {rnd}

/-- A summary that starts its maximum at zero is the aggregate of rows that reach zero. -/
theorem HistoricalSummary.aggregate_iff {rows : List RateAggregate} {entry : HistoricalEntry}
    (summary : HistoricalSummary rnd rows entry) : Aggregate rnd rows entry ↔ ∃ row ∈ rows, 0 ≤ row.apr := by
  constructor
  · rintro ⟨-,-,max,-⟩
    obtain ⟨row,member,value⟩ := max.1
    exact ⟨row,member,value ▸ summary.max.2 (.inl rfl)⟩
  · rintro ⟨row,member,notNegative⟩
    refine ⟨summary.shown,summary.count,⟨?_,?_⟩,summary.min⟩
    · rcases summary.max.1 with zero | attained
      · have below := summary.max.2 (.inr ⟨row,member,rfl⟩)
        exact ⟨row,member,le_antisymm below (zero ▸ notNegative)⟩
      · exact attained
    · rintro x ⟨other,inRows,rfl⟩
      exact summary.max.2 (.inr ⟨other,inRows,rfl⟩)

/-- A token has an entry when it has a row. -/
theorem groupByToken_isSome_iff (rows : List RateAggregate) (symbol : String) :
    (∃ entry, (groupByToken rnd rows).get? symbol = some entry) ↔ ∃ row ∈ rows, row.symbol = symbol := by
  have looped := Dict.get?_foldl_update RateAggregate.symbol
    (fun value row => addRow rnd (value.getD (blank row.symbol)) row) rows .empty symbol
  have kept : ∀ (own : List RateAggregate) (start : HistoricalEntry), ∃ entry,
      own.foldl (fun value row => some (addRow rnd (value.getD (blank row.symbol)) row)) (some start) = some entry := by
    intro own
    induction own with
    | nil => exact fun start => ⟨start,rfl⟩
    | cons row rest ih => exact fun start => ih _
  rw [groupByToken,looped]
  constructor
  · rintro ⟨entry,found⟩
    cases own : rows.filter (fun row => row.symbol = symbol) with
    | nil =>
      rw [own] at found
      cases found
    | cons row rest =>
      have member : row ∈ rows.filter (fun row => row.symbol = symbol) := own ▸ List.mem_cons_self ..
      exact ⟨row,List.mem_of_mem_filter member,of_decide_eq_true (List.mem_filter.mp member).2⟩
  · rintro ⟨row,member,same⟩
    have own : row ∈ rows.filter (fun row => row.symbol = symbol) := List.mem_filter.mpr ⟨member,decide_eq_true same⟩
    obtain ⟨first,rest,split⟩ := List.exists_cons_of_ne_nil (List.ne_nil_of_mem own)
    rw [split]
    exact kept rest _

theorem mem_historicalRanking_iff (rows : List RateAggregate) (entry : HistoricalEntry) :
    entry ∈ historicalRanking rnd rows ↔
      ∃ symbol grouped, (groupByToken rnd rows).get? symbol = some grouped ∧ finish rnd grouped = entry := by
  rw [historicalRanking,List.mem_map]
  constructor
  · rintro ⟨grouped,member,touched⟩
    obtain ⟨symbol,found⟩ := (Dict.mem_values_iff ..).mp ((mem_sortedByDesc ..).mp member)
    exact ⟨symbol,grouped,found,touched⟩
  · rintro ⟨symbol,grouped,found,touched⟩
    exact ⟨grouped,(mem_sortedByDesc ..).mpr ((Dict.mem_values_iff ..).mpr ⟨symbol,found⟩),touched⟩

/-- For any rows that the query yields, the pages are cut from a ranking that aggregates them exactly
    when every token among them has a row whose average is not negative. -/
theorem aggregated_iff (upper lower : String → String) (rnd : ℕ → ℚ → ℚ) (db : List RateAggregate) (exchanges : List String)
    (token : Option String) :
    (∀ limit offset, historicalRates upper lower rnd db exchanges token limit offset =
      paginate (historicalRanking rnd (selectRows upper lower db exchanges token)) limit offset) ∧
    (Aggregated rnd (selectRows upper lower db exchanges token)
        (historicalRanking rnd (selectRows upper lower db exchanges token)) ↔
      ∀ row ∈ selectRows upper lower db exchanges token, ∃ other ∈ selectRows upper lower db exchanges token,
        other.symbol = row.symbol ∧ 0 ≤ other.apr) := by
  refine ⟨fun _ _ => rfl,?_⟩
  generalize selectRows upper lower db exchanges token = rows
  have tokens : ∀ symbol, (∃ entry ∈ historicalRanking rnd rows, entry.token = symbol) ↔ ∃ row ∈ rows, row.symbol = symbol := by
    intro symbol
    rw [← @groupByToken_isSome_iff rnd]
    constructor
    · rintro ⟨entry,member,rfl⟩
      obtain ⟨other,grouped,found,rfl⟩ := (mem_historicalRanking_iff rows entry).mp member
      obtain ⟨named,-⟩ := historicalSummary_of_found rnd found
      exact ⟨grouped,named ▸ found⟩
    · rintro ⟨grouped,found⟩
      exact ⟨finish rnd grouped,(mem_historicalRanking_iff ..).mpr ⟨symbol,grouped,found,rfl⟩,
        (historicalSummary_of_found rnd found).1⟩
  have summaries : ∀ entry ∈ historicalRanking rnd rows,
      HistoricalSummary rnd (rows.filter (fun row => row.symbol = entry.token)) entry := by
    intro entry member
    obtain ⟨symbol,grouped,found,rfl⟩ := (mem_historicalRanking_iff rows entry).mp member
    exact (historicalSummary_of_found rnd found).2
  constructor
  · intro aggregated row member
    obtain ⟨entry,inRanking,same⟩ := (tokens row.symbol).mpr ⟨row,member,rfl⟩
    obtain ⟨other,own,notNegative⟩ := (summaries entry inRanking).aggregate_iff.mp (aggregated.entries entry inRanking)
    obtain ⟨inRows,named⟩ := List.mem_filter.mp own
    exact ⟨other,inRows,(of_decide_eq_true named).trans same,notNegative⟩
  · intro reaches
    refine ⟨?_,tokens,?_,?_⟩
    · have labels : (groupByToken rnd rows).values.map HistoricalEntry.token = (groupByToken rnd rows).keys :=
        Dict.values_map_eq_keys _ (fun symbol grouped found => (historicalSummary_of_found rnd found).1)
      have permuted := (sortedByDesc_perm HistoricalEntry.maxApr (groupByToken rnd rows).values).map HistoricalEntry.token
      rw [historicalRanking,List.map_map]
      exact permuted.nodup_iff.mpr (labels ▸ (groupByToken rnd rows).nodupKeys)
    · intro entry member
      obtain ⟨row,inRows,same⟩ := (tokens entry.token).mp ⟨entry,member,rfl⟩
      obtain ⟨other,inOther,named,notNegative⟩ := reaches row inRows
      exact (summaries entry member).aggregate_iff.mpr
        ⟨other,List.mem_filter.mpr ⟨inOther,decide_eq_true (named.trans same)⟩,notNegative⟩
    · exact List.pairwise_map.mpr (pairwise_sortedByDesc HistoricalEntry.maxApr (groupByToken rnd rows).values)

/-- One token whose averages are negative on both of its exchanges. -/
def fallingRows : List RateAggregate :=
  [⟨"BTC","aster","Aster",some (-2),some 1,some (-5),none,none,none⟩,
    ⟨"BTC","hyperliquid","Hyperliquid",some (-4),some 0,some (-9),none,none,none⟩]

/-- Its maximum is zero, which none of its rows has. -/
theorem falling_not_aggregated : ¬ Aggregated roundTo (selectRows id id fallingRows [] none)
    (historicalRanking roundTo (selectRows id id fallingRows [] none)) := by
  intro aggregated
  have negative : ∀ row ∈ selectRows id id fallingRows [] none, row.apr ≠ 0 := by decide +kernel
  have zero : ∀ entry ∈ historicalRanking roundTo (selectRows id id fallingRows [] none), entry.maxApr = 0 := by
    decide +kernel
  obtain ⟨entry,member,-⟩ := (aggregated.tokens "BTC").mpr (by decide +kernel)
  obtain ⟨row,own,value⟩ := (aggregated.entries entry member).max.1
  exact negative row (List.mem_of_mem_filter own) (value.trans (zero entry member))

end FundingRates
end FundingRadar
