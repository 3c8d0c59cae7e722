import FundingRadar.Arbitrage
import FundingRadar.Symbols

/-!
The published data of a token and the ways to ask for it. The writers store a token as
its collector spells it; the readers upper-case what they are asked for, and all but
one compare that with the spelling stored. `upper` and `lower` stand for the string
methods of those names.
-/
namespace FundingRadar

/-- One token on one exchange in the published ranking. -/
structure ExchangeRateRow where
  exchange : String
  token : String
  fundingRate : ℚ
  fundingRate8h : ℚ
  fundingApr : ℚ
  markPrice : ℚ
  openInterestUsd : ℚ
  volume24hUsd : ℚ
  priceSpreadPct : ℚ
  makerFee : ℚ
  takerFee : ℚ
  isLive : Bool
  isStale : Bool
  ageSeconds : ℚ
  timestamp : ℤ
deriving DecidableEq

structure TokenRankRow where
  token : String
  maxApr : ℚ
  minApr : ℚ
  spreadApr : ℚ
  exchangeCount : ℕ
  rows : List ExchangeRateRow
deriving DecidableEq

/-- What Redis holds: `funding:latest:…`, `funding:ranked` and `arbitrage:current`. -/
structure Published where
  latest : Dict String NormalizedFundingData
  ranked : List TokenRankRow
  arbitrage : List ArbitrageResult

/-- What an endpoint answers in place of its result. -/
structure HttpException where
  statusCode : ℕ
  detail : String
deriving DecidableEq

namespace TokenKeys
variable (upper lower : String → String)

/-- `funding:latest:{exchange}:{token}`. -/
def latestKey (exchange token : String) : String := "funding:latest:" ++ exchange ++ ":" ++ token
/-- `_publish_batch`. -/
def publishBatch (pub : Published) (items : List NormalizedFundingData) : Published :=
  { pub with latest := items.foldl (fun latest d => latest.insert (latestKey d.exchange d.token) d) pub.latest }

/-- The entry of a token in the ranking, and its first opportunity. -/
def rankOf (pub : Published) (token : String) : Option TokenRankRow := pub.ranked.find? (fun item => item.token = token)
def opportunityOf (pub : Published) (token : String) : Option ArbitrageResult :=
  pub.arbitrage.find? (fun opp => opp.token = token)

structure DetailPoint where
  time : ℤ
  exchange : String
  avgApr : ℚ
  avgPrice : ℚ
deriving DecidableEq
structure TokenDetail where
  token : String
  liveSnapshot : Option TokenRankRow
  arbSummary : Option ArbitrageResult
  history24h : List DetailPoint

/-- `get_token_detail`, on what Redis has under `funding:ranked` and `arbitrage:current` and given
    the last day of a symbol in the database. -/
def getTokenDetail (history : String → List DetailPoint) (ranked : Option (List TokenRankRow))
    (current : Option (List ArbitrageResult)) (token : String) : Except HttpException TokenDetail :=
  let snapshot := (ranked.getD []).find? fun item => item.token = upper token
  let arbMatch := (current.getD []).find? fun opp => opp.token = upper token
  if snapshot = none ∧ history (upper token) = [] then .error ⟨404,"No data found for token '" ++ upper token ++ "'."⟩
  else .ok ⟨upper token,snapshot,arbMatch,history (upper token)⟩

/-- The filters of `get_opportunities`. An empty token or list filters nothing. -/
def filterOpportunities (opportunities : List ArbitrageResult) (minApr : ℚ) (token : Option String)
    (exchanges : List String) (minOi : ℚ) : List ArbitrageResult :=
  let byApr := if minApr > 0 then opportunities.filter (fun o => o.netAprTaker ≥ minApr) else opportunities
  let byToken := match token with
    | none => byApr
    | some t => if t = "" then byApr else byApr.filter (fun o => o.token = upper t)
  let byExchange := if exchanges = [] then byToken
    else byToken.filter (fun o => o.longLeg.exchange ∈ exchanges.map lower ∨ o.shortLeg.exchange ∈ exchanges.map lower)
  if minOi > 0 then
    byExchange.filter (fun o => o.longLeg.openInterestUsd ≥ minOi ∧ o.shortLeg.openInterestUsd ≥ minOi)
  else byExchange

/-- `get_opportunity_for_token`, on what Redis has under `arbitrage:current`. -/
def getOpportunityForToken (raw : Option (List ArbitrageResult)) (token : String) : Except HttpException ArbitrageResult :=
  match raw with
  | none => .error ⟨503,"Arbitrage data not yet available."⟩
  | some opportunities =>
    match opportunities.find? (fun o => o.token = upper token) with
    | none => .error ⟨404,"No arbitrage opportunity found for token '" ++ upper token ++ "'."⟩
    | some opp => .ok opp

/-- What the simulator reads of a leg. -/
structure LegData where
  fundingApr : ℚ
  makerFee : ℚ
  takerFee : ℚ
deriving DecidableEq

def LegData.ofLatest (d : NormalizedFundingData) : LegData := ⟨d.fundingApr,d.makerFee,d.takerFee⟩
def LegData.ofRow (row : ExchangeRateRow) : LegData := ⟨row.fundingApr,row.makerFee,row.takerFee⟩

/-- The data of a token on an exchange: the latest record, or its row of the ranking. -/
def legData (pub : Published) (exchange token : String) : Option LegData :=
  match pub.latest.get? (latestKey exchange token) with
  | some d => some (.ofLatest d)
  | none => (rankOf pub token).bind fun item =>
      (item.rows.find? (fun row => row.exchange = exchange)).map LegData.ofRow
/-- The two lookups of `calculate_simulation`. -/
def simulatorLegs (pub : Published) (token longExchange shortExchange : String) : Option LegData × Option LegData :=
  (legData pub (lower longExchange) (upper token),legData pub (lower shortExchange) (upper token))

/-- The token of the rule that `/setalert` creates for its first argument. -/
def setAlertToken (token : String) : String := upper token
/-- `opp_by_token.get(token)`: the index holds the last opportunity of a token. -/
def matchRule (opportunities : List ArbitrageResult) (token : String) : Option ArbitrageResult :=
  (opportunities.foldl (fun byToken o => byToken.insert o.token o) (Dict.empty : Dict String ArbitrageResult)).get? token

/-- The token filter of `_live_rates`, which upper-cases both sides. -/
def liveRates (pub : Published) (token : String) : List TokenRankRow :=
  if token = "" then pub.ranked else pub.ranked.filter (fun r => upper r.token = upper token)

/-! ### Asking for a token -/

/-- Every read that is asked for `asked` finds what is published for `token`, where the detail
    of a token also reads its past in the database. -/
structure Finds (history : String → List DetailPoint) (pub : Published) (token asked : String) : Prop where
  snapshot : ∀ item, rankOf pub token = some item →
    ∃ detail, getTokenDetail upper history (some pub.ranked) (some pub.arbitrage) asked = .ok detail ∧ detail.liveSnapshot = some item
  summary : ∀ item opp, rankOf pub token = some item → opportunityOf pub token = some opp →
    ∃ detail, getTokenDetail upper history (some pub.ranked) (some pub.arbitrage) asked = .ok detail ∧ detail.arbSummary = some opp
  filtered : ∀ opp ∈ pub.arbitrage, opp.token = token →
    opp ∈ filterOpportunities upper lower pub.arbitrage 0 (some asked) [] 0
  single : ∀ opp, opportunityOf pub token = some opp → getOpportunityForToken upper (some pub.arbitrage) asked = .ok opp
  long : ∀ longExchange shortExchange leg, legData pub (lower longExchange) token = some leg →
    (simulatorLegs upper lower pub asked longExchange shortExchange).1 = some leg
  short : ∀ longExchange shortExchange leg, legData pub (lower shortExchange) token = some leg →
    (simulatorLegs upper lower pub asked longExchange shortExchange).2 = some leg
  alert : ∀ opp, matchRule pub.arbitrage token = some opp →
    matchRule pub.arbitrage (setAlertToken upper asked) = some opp

/-- The data of a token is found under every spelling of it, whatever its past. -/
def FoundUnderEverySpelling (token : String) : Prop :=
  ∀ asked, upper asked = upper token → ∀ history pub, Finds upper lower history pub token asked

variable {upper lower}

/-- A ranked token has a detail, with its opportunity. -/
theorem getTokenDetail_ranked (history : String → List DetailPoint) {pub : Published} {token asked : String}
    (canonical : upper asked = token) {item : TokenRankRow} (found : rankOf pub token = some item) :
    getTokenDetail upper history (some pub.ranked) (some pub.arbitrage) asked =
      .ok ⟨token,some item,opportunityOf pub token,history token⟩ := by
  rw [rankOf] at found
  simp only [getTokenDetail,Option.getD_some,canonical,found,reduceCtorEq,false_and,if_false]
  rfl

theorem getOpportunityForToken_found {opportunities : List ArbitrageResult} {asked : String} {opp : ArbitrageResult}
    (found : opportunities.find? (fun o => o.token = upper asked) = some opp) :
    getOpportunityForToken upper (some opportunities) asked = .ok opp := by
  simp only [getOpportunityForToken,found]

theorem getOpportunityForToken_absent {opportunities : List ArbitrageResult} {asked : String}
    (absent : opportunities.find? (fun o => o.token = upper asked) = none) (opp : ArbitrageResult) :
    getOpportunityForToken upper (some opportunities) asked ≠ .ok opp := by
  simp [getOpportunityForToken,absent]

theorem finds_of_canonical {token asked : String} (canonical : upper asked = token) (history : String → List DetailPoint)
    (pub : Published) : Finds upper lower history pub token asked where
  snapshot item found := ⟨_,getTokenDetail_ranked history canonical found,rfl⟩
  summary item opp ranked found := ⟨_,getTokenDetail_ranked history canonical ranked,found⟩
  filtered opp member same := by
    simp only [filterOpportunities,gt_iff_lt,lt_self_iff_false,if_false,if_true]
    split
    · exact member
    · exact List.mem_filter.mpr ⟨member,by simp [same,canonical]⟩
  single opp found := getOpportunityForToken_found (by rw [canonical]; exact found)
  long _ _ leg found := by rw [simulatorLegs,canonical]; exact found
  short _ _ leg found := by rw [simulatorLegs,canonical]; exact found
  alert opp found := by rw [setAlertToken,canonical]; exact found

/-- The writers keep the spelling: a record is found under its own token. -/
theorem publishBatch_stores (pub : Published) (items : List NormalizedFundingData) (d : NormalizedFundingData) :
    (publishBatch pub (items ++ [d])).latest.get? (latestKey d.exchange d.token) = some d := by
  simp [publishBatch]

/-- The one reader that upper-cases both sides finds a token under every spelling. -/
theorem liveRates_finds (pub : Published) {token asked : String} (spelling : upper asked = upper token)
    {r : TokenRankRow} (member : r ∈ pub.ranked) (same : r.token = token) : r ∈ liveRates upper pub asked := by
  rw [liveRates]
  split
  · exact member
  · exact List.mem_filter.mpr ⟨member,by simp [same,spelling]⟩

/-- An opportunity between two exchanges that both quote a token at a price. -/
def oneOpportunity (token : String) : ArbitrageResult :=
  let leg := fun exchange side => (⟨exchange,token,side,0,0,0,100,100,5000,0,0,false⟩ : ArbitrageLeg)
  ⟨token,leg "hyperliquid" .long,leg "aster" .short,0,0,0,0,0,none,0⟩

/-- Every read finds a token under every spelling exactly when the token is its own
    upper-case form. -/
theorem foundUnderEverySpelling_iff_upper (upper lower : String → String) (token : String) :
    FoundUnderEverySpelling upper lower token ↔ upper token = token := by
  constructor
  · intro found
    have finds := found token rfl (fun _ => []) ⟨.empty,[],[oneOpportunity token]⟩
    have present : opportunityOf ⟨.empty,[],[oneOpportunity token]⟩ token = some (oneOpportunity token) := by
      simp [opportunityOf,oneOpportunity]
    have read := finds.single _ present
    by_contra differs
    exact getOpportunityForToken_absent (by simp [oneOpportunity,Ne.symm differs]) _ read
  · intro canonical asked spelling history pub
    exact finds_of_canonical (spelling.trans canonical) history pub

/-- The token that Hyperliquid calls kPEPE, quoted by two exchanges. -/
def kPepeRun : List DataNormalizer.Op :=
  [.updateBatch [(0,{ ArbitrageCalculator.btcRecord "hyperliquid" 10 0 with token := "kPEPE" }),
    (0,{ ArbitrageCalculator.btcRecord "extended" 20 0 with token := "kPEPE" })]]

/-- Its opportunity is published, but no spelling of the request finds it. -/
theorem kPepe_not_found : ¬ FoundUnderEverySpelling asciiUpper asciiLower "kPEPE" := by
  intro found
  have finds := found "kPEPE" rfl (fun _ => [])
    ⟨.empty,[],ArbitrageCalculator.calculate roundTo 0 (.run defaultStaleAfter kPepeRun) 0 0⟩
  have published : ∃ opp ∈ ArbitrageCalculator.calculate roundTo 0 (.run defaultStaleAfter kPepeRun) 0 0,
      opp.token = "kPEPE" := by decide +kernel
  obtain ⟨opp,member,same⟩ := published
  have listed := finds.filtered opp member same
  have empty : filterOpportunities asciiUpper asciiLower
      (ArbitrageCalculator.calculate roundTo 0 (.run defaultStaleAfter kPepeRun) 0 0) 0 (some "kPEPE") [] 0 = [] := by
    decide +kernel
  rw [empty] at listed
  cases listed

end TokenKeys
end FundingRadar
