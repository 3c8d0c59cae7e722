import FundingRadar.Catalogue
import FundingRadar.Paywall

/-!
The commands of the Telegram bot that report what is published. `/status` counts the tokens of
every exchange from the ranking as the catalogue does, `/top` shows the page that a caller without
a paid tier gets, and `/detail` finds the opportunity of a token that the endpoint finds
(`reports_agree`).
-/
namespace FundingRadar

namespace Listings
variable {α κ : Type*} [DecidableEq κ]

theorem tallied_pos (key : α → κ) (items : List α) {counts : Dict κ ℕ} (pos : ∀ k c, counts.get? k = some c → 0 < c)
    (k : κ) (c : ℕ) (found : (items.foldl (tally key) counts).get? k = some c) : 0 < c := by
  induction items generalizing counts with
  | nil => exact pos k c found
  | cons a rest ih =>
    refine ih (fun j d => ?_) found
    rw [tally,Dict.get?_insert]
    split
    · intro same
      have := Option.some.inj same
      omega
    · exact pos j d

/-- The entries of a count. -/
theorem get?_tallied_eq_some_iff (key : α → κ) (items : List α) (k : κ) (c : ℕ) :
    (items.foldl (tally key) .empty).get? k = some c ↔ c = items.countP (fun a => key a = k) ∧ 0 < c := by
  have count := get?_tallied key items .empty k
  rw [Dict.get?_empty,Option.getD_none,Nat.zero_add] at count
  have pos := @tallied_pos α κ _ key items .empty (fun _ _ impossible => by cases impossible) k
  cases found : (items.foldl (tally key) .empty).get? k with
  | none =>
    rw [found,Option.getD_none] at count
    constructor
    · intro impossible
      cases impossible
    · omega
  | some d =>
    rw [found,Option.getD_some] at count
    have := pos d found
    rw [Option.some.injEq]
    omega

end Listings

namespace BotReports
open FundingAggregator ArbitrageCalculator Listings Paywall Catalogue

/-- What a command answers: a text of its own, or a report. -/
inductive Answer (α : Type)
  | text (message : String)
  | report (a : α)
deriving DecidableEq

/-! ### /status -/

structure Status where
  tokenCount : ℕ
  arbCount : ℕ
  exchanges : List (String × ℕ)
  best : Option (String × ℚ)

/-- `cmd_status`, on the contents of `funding:ranked` and `arbitrage:current`. -/
def cmdStatus (rawRanked : Option (List TokenRankRow)) (rawArb : Option (List ArbitrageResult)) : Status where
  tokenCount := (rawRanked.getD []).length
  arbCount := (rawArb.getD []).length
  exchanges := sortedBy (fun e => -(e.2 : ℤ)) (tokenCountByExchange (rawRanked.getD [])).entries
  best := (rawArb.getD []).head?.map fun best => (best.token,best.netAprTaker)

/-! ### /top -/

/-- The windows of a pair, as far as the bot shows them. -/
structure NetWindows where
  netApr1h : Option ℚ
  netApr8h : Option ℚ
  netApr24h : Option ℚ
  netApr7d : Option ℚ
  netApr30d : Option ℚ

structure TopEntry where
  position : ℕ
  token : String
  netAprTaker : ℚ
  /-- Whether the last hour is above the last day, and both. -/
  trend : Option (Bool × ℚ × ℚ)
  longExchange : String
  shortExchange : String

def trendOf (win : NetWindows) : Option (Bool × ℚ × ℚ) :=
  match win.netApr1h,win.netApr24h with
  | some apr1h,some apr24h => some (decide (apr1h > apr24h),apr1h,apr24h)
  | _,_ => none

/-- What `cmd_top` shows of an opportunity. -/
def topEntry (windows : String → String → String → NetWindows) (position : ℕ) (opp : ArbitrageResult) : TopEntry where
  position := position
  token := opp.token
  netAprTaker := opp.netAprTaker
  trend := trendOf (windows opp.longLeg.exchange opp.shortLeg.exchange opp.token)
  longExchange := opp.longLeg.exchange
  shortExchange := opp.shortLeg.exchange

/-- `cmd_top`, given the windows of a pair on a token. -/
def cmdTop (windows : String → String → String → NetWindows) (rawArb : Option (List ArbitrageResult)) : Answer (List TopEntry) :=
  if rawArb.getD [] = [] then .text "📉 No arbitrage opportunities found currently."
  else .report ((((rawArb.getD []).take 10).zipIdx 1).map fun e => topEntry windows e.2 e.1)

/-! ### /detail -/

structure Detail where
  token : String
  longExchange : String
  shortExchange : String
  windows : List (String × Option ℚ)
  netAprTaker : ℚ

/-- What `cmd_detail` shows of an opportunity. -/
def detailOf (windows : String → String → String → NetWindows) (token : String) (opp : ArbitrageResult) : Detail :=
  let win := windows opp.longLeg.exchange opp.shortLeg.exchange token
  { token := token
    longExchange := opp.longLeg.exchange
    shortExchange := opp.shortLeg.exchange
    windows := [("1 Hour",win.netApr1h),("8 Hours",win.netApr8h),("24 Hours",win.netApr24h),("7 Days",win.netApr7d),
      ("30 Days",win.netApr30d)]
    netAprTaker := opp.netAprTaker }

/-- `cmd_detail`, given the windows of a pair on a token. -/
def cmdDetail (upper : String → String) (windows : String → String → String → NetWindows) (args : List String)
    (rawArb : Option (List ArbitrageResult)) : Answer Detail :=
  match args with
  | [] => .text "Usage: `/detail TOKEN` (e.g. `/detail BTC`)"
  | arg :: _ =>
    match (rawArb.getD []).find? (fun o => o.token = upper arg) with
    | none => .text ("❌ No active arbitrage found for " ++ upper arg ++ ".")
    | some opp => .report (detailOf windows (upper arg) opp)

/-! ### What the reports say -/

variable {ranked : List TokenRankRow} {arb : List ArbitrageResult}

/-- The exchanges of `/status`. -/
structure Counted (ranked : List TokenRankRow) (exchanges : List (String × ℕ)) : Prop where
  once : (exchanges.map Prod.fst).Nodup
  sorted : exchanges.Pairwise fun a b => b.2 ≤ a.2
  count : ∀ slug c, (slug,c) ∈ exchanges ↔ c = (liveRows ranked slug).length ∧ 0 < c
  total : (exchanges.map Prod.snd).sum = (ranked.flatMap TokenRankRow.rows).length

theorem status_counted (ranked : List TokenRankRow) (rawArb : Option (List ArbitrageResult)) :
    Counted ranked (cmdStatus (some ranked) rawArb).exchanges := by
  have rows : ∀ slug,
      (liveRows ranked slug).length = (ranked.flatMap TokenRankRow.rows).countP fun row => row.exchange = slug := by
    intro slug
    rw [← tokenCount_eq,tokenCountByExchange_eq,get?_tallied,Dict.get?_empty,Option.getD_none,Nat.zero_add]
  have count : ∀ slug c, (slug,c) ∈ (cmdStatus (some ranked) rawArb).exchanges ↔ c = (liveRows ranked slug).length ∧ 0 < c := by
    intro slug c
    rw [cmdStatus,mem_sortedBy,Dict.mem_entries_iff,Option.getD_some,tokenCountByExchange_eq,get?_tallied_eq_some_iff,rows]
  have once : ((cmdStatus (some ranked) rawArb).exchanges.map Prod.fst).Nodup := by
    rw [cmdStatus,((sortedBy_perm _ _).map Prod.fst).nodup_iff]
    exact (tokenCountByExchange ranked).nodupKeys
  refine ⟨once,?_,count,?_⟩
  · refine (pairwise_sortedBy _ _).imp fun le => ?_
    omega
  · have counts : (cmdStatus (some ranked) rawArb).exchanges.map Prod.snd =
        ((cmdStatus (some ranked) rawArb).exchanges.map Prod.fst).map fun slug =>
          (ranked.flatMap TokenRankRow.rows).countP fun row => row.exchange = slug := by
      rw [List.map_map]
      refine List.map_congr_left ?_
      rintro ⟨slug,c⟩ member
      exact ((count slug c).mp member).1.trans (rows slug)
    rw [counts]
    refine sum_countP ExchangeRateRow.exchange once fun row member => ?_
    have some : 0 < (ranked.flatMap TokenRankRow.rows).countP fun other => other.exchange = row.exchange := by
      rw [List.countP_pos_iff]
      exact ⟨row,member,by simp⟩
    rw [← rows] at some
    exact List.mem_map.mpr ⟨_,(count row.exchange _).mpr ⟨rfl,some⟩,rfl⟩

/-- The opportunity that `/status` calls best. -/
def IsBest (arb : List ArbitrageResult) : Option (String × ℚ) → Prop
  | none => arb = []
  | some best => ∃ opp ∈ arb, opp.token = best.1 ∧ opp.netAprTaker = best.2 ∧ ∀ o ∈ arb, o.netAprTaker ≤ best.2

theorem status_best (sorted : arb.Pairwise fun a b => b.netAprTaker ≤ a.netAprTaker) (rawRanked : Option (List TokenRankRow)) :
    IsBest arb (cmdStatus rawRanked (some arb)).best := by
  cases arb with
  | nil => rfl
  | cons opp rest =>
    refine ⟨opp,List.mem_cons_self ..,rfl,rfl,fun o member => ?_⟩
    obtain rfl | later := List.mem_cons.mp member
    · exact le_refl _
    · exact List.rel_of_pairwise_cons sorted later

/-- The opportunity of a token. -/
theorem find?_token (unique : (arb.map ArbitrageResult.token).Nodup) {opp : ArbitrageResult} (member : opp ∈ arb) {token : String}
    (named : opp.token = token) : arb.find? (fun o => o.token = token) = some opp := by
  cases found : arb.find? (fun o => o.token = token) with
  | none => exact absurd (decide_eq_true named) (List.find?_eq_none.mp found opp member)
  | some o =>
    have passes := List.find?_some found
    have same : o.token = token := of_decide_eq_true passes
    exact congrArg some (List.inj_on_of_nodup_map unique (List.mem_of_find?_eq_some found) member (same.trans named.symm))

section
variable {upper lower : String → String}

/-- A query that does not filter. -/
structure Plain (q : OpportunitiesQuery) : Prop where
  apr : q.minApr ≤ 0
  oi : q.minOi ≤ 0
  exchanges : q.exchanges = []
  token : q.token = none

open Classical in
theorem Plain.filtered {q : OpportunitiesQuery} (plain : Plain q) (arb : List ArbitrageResult) :
    TokenKeys.filterOpportunities upper lower arb q.minApr q.token q.exchanges q.minOi = arb := by
  rw [filterOpportunities_eq,List.filter_eq_self]
  intro o _
  refine decide_eq_true ⟨fun asked => absurd plain.apr (not_le.mpr asked),?_,fun asked => absurd plain.exchanges asked,
    fun asked => absurd plain.oi (not_le.mpr asked)⟩
  rw [plain.token]
  intro t impossible
  cases impossible

/-- The first page of a caller without a paid tier. -/
theorem Plain.firstTen {q : OpportunitiesQuery} (plain : Plain q) (first : q.offset = 0) (enough : 10 ≤ q.limit)
    {caller : TierCache.Caller} (isUnpaid : unpaid caller = true) (arb : List ArbitrageResult) :
    (getOpportunities upper lower caller (some arb) q).data = arb.take 10 := by
  simp only [getOpportunities,plain.filtered,first,isUnpaid,Nat.zero_add,Nat.sub_zero,List.drop_zero,true_and]
  by_cases capped : q.limit > 10
  · simp [capped]
  · have ten : q.limit = 10 := by omega
    simp [ten]

end

/-- For all published rankings and opportunities and whatever windows are read: `/status` counts what is
    published, the tokens of each exchange as the catalogue does, and calls best an opportunity
    that nets most; `/top` shows the page of a caller without a paid tier, numbered from one;
    `/detail` shows the opportunity that the endpoint for one token returns, and so each published
    opportunity whose token is the upper case of what is asked for. -/
theorem reports_agree (upper lower : String → String) (windows : String → String → String → NetWindows) (rnd : ℕ → ℚ → ℚ)
    (staleAfter staleAfter' minNetAprTaker now : ℚ) (ops ops' : List DataNormalizer.Op) (clock : Clock) (nowMs : ℤ)
    (t : ExchangesTable) :
    let ranked := buildRanked rnd (.run staleAfter ops) clock
    let arb := calculate rnd minNetAprTaker (.run staleAfter' ops') now nowMs
    let status := cmdStatus (some ranked) (some arb)
    Counted ranked status.exchanges ∧
      (∀ e ∈ (listExchanges t (some ranked) (some arb)).1, ∀ c, (e.slug,c) ∈ status.exchanges ↔ c = e.liveTokenCount ∧ 0 < c) ∧
      (∀ limit offset, status.tokenCount = (FundingRates.liveRates upper lower (some ranked) [] none limit offset).total) ∧
      (∀ caller q, Plain q → status.arbCount = (getOpportunities upper lower caller (some arb) q).total) ∧
      IsBest arb status.best ∧
      (∀ caller, unpaid caller = true → ∀ q, Plain q → q.offset = 0 → 10 ≤ q.limit →
        cmdTop windows (some arb) =
          match (getOpportunities upper lower caller (some arb) q).data with
          | [] => .text "📉 No arbitrage opportunities found currently."
          | shown => .report ((shown.zipIdx 1).map fun e => topEntry windows e.2 e.1)) ∧
      (∀ (path : TokenPath) rest, cmdDetail upper windows (path.token :: rest) (some arb) =
          match TokenKeys.getOpportunityForToken upper (some arb) path.token with
          | .error _ => .text ("❌ No active arbitrage found for " ++ upper path.token ++ ".")
          | .ok opp => .report (detailOf windows opp.token opp)) ∧
      ∀ opp ∈ arb, ∀ asked rest, upper asked = opp.token →
        cmdDetail upper windows (asked :: rest) (some arb) = .report (detailOf windows opp.token opp) := by
  intro ranked arb status
  have unique : (arb.map ArbitrageResult.token).Nodup :=
    calculate_tokens_nodup _ _ _ _ (DataNormalizer.run_coherent staleAfter' ops')
  have sorted : arb.Pairwise fun a b => b.netAprTaker ≤ a.netAprTaker := pairwise_sortedByDesc _ _
  refine ⟨status_counted ranked (some arb),?_,?_,?_,status_best sorted (some ranked),?_,?_,?_⟩
  · intro e member c
    obtain ⟨ex,-,slug,count,-⟩ := mem_listExchanges t (some ranked) (some arb) member
    rw [count,Option.getD_some,tokenCount_eq,slug]
    exact (status_counted ranked (some arb)).count ex.slug c
  · intro limit offset
    have kept : FundingRates.filterToken upper none ranked = ranked := List.filter_eq_self.mpr fun _ _ => rfl
    rw [FundingRates.liveRates,kept,FundingRates.filterExchanges,if_pos rfl]
    rfl
  · intro caller q plain
    simp only [getOpportunities,plain.filtered]
    rw [apply_ite OpportunitiesPage.total,ite_self]
    rfl
  · intro caller isUnpaid q plain first enough
    rw [plain.firstTen first enough isUnpaid,cmdTop,Option.getD_some]
    cases arb with
    | nil => rfl
    | cons opp rest => rfl
  · intro path rest
    rw [cmdDetail,TokenKeys.getOpportunityForToken,Option.getD_some]
    cases found : arb.find? (fun o => o.token = upper path.token) with
    | none => rfl
    | some opp =>
      have passes := List.find?_some found
      have named : opp.token = upper path.token := of_decide_eq_true passes
      exact congrArg Answer.report (congrArg (detailOf windows · opp) named.symm)
  · intro opp member asked rest named
    rw [cmdDetail,Option.getD_some,find?_token unique member named.symm,named]

/-- Nothing is known of any pair's past. -/
def noHistory : String → String → String → NetWindows := fun _ _ _ => ⟨none,none,none,none,none⟩
/-- The one symbol that is typed in lower case. -/
def upperBtc : String → String := fun s => if s = "btc" then "BTC" else s

/-- Of the three exchanges' records of bitcoin, `/detail btc` shows what is published. -/
theorem feeRun_reports :
    ∃ opp, opp.netAprTaker = 984 / 100 ∧
      cmdDetail upperBtc noHistory ["btc"] (some (calculate roundTo 0 (.run defaultStaleAfter feeRun) 0 0)) =
        .report (detailOf noHistory "BTC" opp) := by
  obtain ⟨-,-,-,-,-,-,-,shows⟩ := reports_agree upperBtc id noHistory roundTo defaultStaleAfter defaultStaleAfter 0 0 feeRun
    feeRun (.still 0) 0 twoExchanges
  have published : ∃ opp ∈ calculate roundTo 0 (.run defaultStaleAfter feeRun) 0 0,
      opp.token = "BTC" ∧ opp.netAprTaker = 984 / 100 := by decide +kernel
  obtain ⟨opp,member,named,apr⟩ := published
  exact ⟨opp,apr,named ▸ shows opp member "btc" [] named.symm⟩

end BotReports
end FundingRadar
