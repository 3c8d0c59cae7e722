import FundingRadar.TierCache
import FundingRadar.TokenKeys

/-!
The two endpoints that read `arbitrage:current`, and what callers without a paid tier get
from them. The cap of ten applies to the list that the filters leave, and the endpoint for
one token has no cap, so an entry beyond the tenth is out of reach only where no filter
passes it and leaves out enough of the entries before it (`returnsTopTen_iff`).
-/
namespace FundingRadar.Paywall
open TierCache (Caller)

variable (upper lower : String → String)

/-- The parameters of `get_opportunities`, within the bounds that are checked for them. -/
structure OpportunitiesQuery where
  minApr : ℚ
  minOi : ℚ
  exchanges : List String
  token : Option String
  limit : ℕ
  offset : ℕ
  limit_pos : 1 ≤ limit
  limit_le : limit ≤ 200

/-- The token that a path names is not empty. -/
structure TokenPath where
  token : String
  nonempty : token ≠ ""

structure OpportunitiesPage where
  data : List ArbitrageResult
  total : ℕ
  limit : Option ℕ
  offset : Option ℕ
  tierNote : Option String
  message : Option String
deriving DecidableEq

def tierNote : String := "Free tier is limited to the top 10 opportunities. Upgrade to Pro for full access."
def warmingUp : String := "No arbitrage data available yet — collectors may still be warming up."

/-- `tier in ("anonymous", "free")`. -/
def unpaid : Caller → Bool
  | .anonymous => true
  | .tier .free => true
  | .tier _ => false

/-- `get_opportunities`. -/
def getOpportunities (caller : Caller) (raw : Option (List ArbitrageResult)) (q : OpportunitiesQuery) : OpportunitiesPage :=
  match raw with
  | none => ⟨[],0,none,none,none,some warmingUp⟩
  | some opportunities =>
    let filtered := TokenKeys.filterOpportunities upper lower opportunities q.minApr q.token q.exchanges q.minOi
    let capped := unpaid caller = true ∧ q.offset + q.limit > 10
    let limit := if capped then 10 - q.offset else q.limit
    if capped ∧ limit = 0 then ⟨[],filtered.length,some limit,some q.offset,some tierNote,none⟩
    else
      ⟨(filtered.drop q.offset).take limit,filtered.length,some limit,some q.offset,
        if unpaid caller = true ∧ filtered.length > 10 then some tierNote else none,none⟩

inductive Request
  | opportunities (q : OpportunitiesQuery)
  | token (path : TokenPath)

/-- The opportunities that a caller is returned. -/
def returned (caller : Caller) (raw : Option (List ArbitrageResult)) : Request → List ArbitrageResult
  | .opportunities q => (getOpportunities upper lower caller raw q).data
  | .token path =>
    match TokenKeys.getOpportunityForToken upper raw path.token with
    | .ok opp => [opp]
    | .error _ => []

/-- Whatever sequence of requests an unpaid caller sends, all it gets is among the first
    ten published. -/
def ReturnsTopTen (opportunities : List ArbitrageResult) : Prop :=
  ∀ caller, unpaid caller = true → ∀ requests : List Request,
    ∀ o ∈ requests.flatMap (returned upper lower caller (some opportunities)), o ∈ opportunities.take 10

/-! ### What filters cannot separate -/

def leastOi (o : ArbitrageResult) : ℚ := min o.longLeg.openInterestUsd o.shortLeg.openInterestUsd
def On (exchange : String) (o : ArbitrageResult) : Prop := o.longLeg.exchange = exchange ∨ o.shortLeg.exchange = exchange
instance (exchange : String) (o : ArbitrageResult) : Decidable (On exchange o) := inferInstanceAs (Decidable (_ ∨ _))

/-- `b` passes every filter by which `o` can be asked for on one of its exchanges: tokens
    are asked for in upper case, exchanges in lower case. -/
structure Follows (exchange : String) (o b : ArbitrageResult) : Prop where
  apr : 0 < o.netAprTaker → o.netAprTaker ≤ b.netAprTaker
  token : (∃ asked, asked ≠ "" ∧ upper asked = o.token) → b.token = o.token
  exchange : (∃ asked, lower asked = exchange) → On exchange b
  oi : 0 < leastOi o → leastOi o ≤ leastOi b

open Classical in
/-- Every entry beyond the tenth has ten entries before it that follow it, on either of its
    exchanges. -/
def Inseparable (opportunities : List ArbitrageResult) : Prop :=
  ∀ i o, opportunities[i]? = some o → o ∉ opportunities.take 10 → ∀ exchange, On exchange o →
    10 ≤ ((opportunities.take i).filter (fun b => Follows upper lower exchange o b)).length

/-! ### The filters -/

/-- What the filters let pass. -/
structure Passes (minApr : ℚ) (token : Option String) (exchanges : List String) (minOi : ℚ) (o : ArbitrageResult) : Prop where
  apr : 0 < minApr → minApr ≤ o.netAprTaker
  token : ∀ t ∈ token, t ≠ "" → o.token = upper t
  exchange : exchanges ≠ [] → ∃ e ∈ exchanges, On (lower e) o
  oi : 0 < minOi → minOi ≤ leastOi o

variable {upper lower}

theorem filter_if {α : Type} (active : Prop) [Decidable active] (p : α → Bool) (l : List α) :
    (if active then l.filter p else l) = l.filter (fun a => decide (active → p a = true)) := by
  split
  · rename_i on
    refine List.filter_congr ?_
    intro a _
    simp [on]
  · rename_i off
    refine (List.filter_eq_self.mpr ?_).symm
    intro a _
    exact decide_eq_true (fun on => absurd on off)

theorem filter_token (token : Option String) (l : List ArbitrageResult) :
    (match token with
      | none => l
      | some t => if t = "" then l else l.filter (fun o => o.token = upper t)) =
      l.filter (fun o => decide (∀ t ∈ token, t ≠ "" → o.token = upper t)) := by
  cases token with
  | none =>
    refine (List.filter_eq_self.mpr ?_).symm
    intro o _
    simp
  | some t =>
    by_cases empty : t = ""
    · refine ((if_pos empty).trans ?_)
      refine (List.filter_eq_self.mpr ?_).symm
      intro o _
      simp [empty]
    · refine ((if_neg empty).trans ?_)
      refine List.filter_congr ?_
      intro o _
      simp [empty]

theorem on_some_iff (exchanges : List String) (o : ArbitrageResult) :
    (o.longLeg.exchange ∈ exchanges.map lower ∨ o.shortLeg.exchange ∈ exchanges.map lower) ↔
      ∃ e ∈ exchanges, On (lower e) o := by
  rw [List.mem_map,List.mem_map]
  constructor
  · rintro (⟨e,member,long⟩ | ⟨e,member,short⟩)
    · exact ⟨e,member,.inl long.symm⟩
    · exact ⟨e,member,.inr short.symm⟩
  · rintro ⟨e,member,long | short⟩
    · exact .inl ⟨e,member,long.symm⟩
    · exact .inr ⟨e,member,short.symm⟩

open Classical in
/-- The filters one after the other are one filter. -/
theorem filterOpportunities_eq (opportunities : List ArbitrageResult) (minApr : ℚ) (token : Option String)
    (exchanges : List String) (minOi : ℚ) :
    TokenKeys.filterOpportunities upper lower opportunities minApr token exchanges minOi =
      opportunities.filter (fun o => Passes upper lower minApr token exchanges minOi o) := by
  unfold TokenKeys.filterOpportunities
  extract_lets byApr byToken byExchange
  have first : byApr = opportunities.filter (fun o => decide (minApr > 0 → decide (o.netAprTaker ≥ minApr) = true)) :=
    filter_if _ _ _
  have second : byToken = byApr.filter (fun o => decide (∀ t ∈ token, t ≠ "" → o.token = upper t)) :=
    filter_token token byApr
  have third : byExchange = byToken.filter (fun o => decide (exchanges ≠ [] →
      decide (o.longLeg.exchange ∈ exchanges.map lower ∨ o.shortLeg.exchange ∈ exchanges.map lower) = true)) :=
    (ite_not _ _ _).symm.trans (filter_if _ _ _)
  rw [filter_if,third,second,first,List.filter_filter,List.filter_filter,List.filter_filter]
  refine List.filter_congr ?_
  intro o _
  rw [Bool.eq_iff_iff]
  simp only [Bool.and_eq_true,decide_eq_true_eq,on_some_iff]
  constructor
  · rintro ⟨⟨⟨oi,exchange⟩,token⟩,apr⟩
    exact ⟨apr,token,exchange,fun active => le_min (oi active).1 (oi active).2⟩
  · rintro ⟨apr,token,exchange,oi⟩
    exact ⟨⟨⟨fun active => le_min_iff.mp (oi active),exchange⟩,token⟩,apr⟩

/-- An element of a list is among the first `n` that pass a test exactly when it stands
    somewhere behind fewer than `n` others that pass. -/
theorem mem_take_filter_iff {α : Type} (p : α → Bool) (l : List α) (n : ℕ) (a : α) :
    a ∈ (l.filter p).take n ↔ ∃ i, l[i]? = some a ∧ p a = true ∧ ((l.take i).filter p).length < n := by
  induction l generalizing n with
  | nil => simp
  | cons b rest ih =>
    by_cases passes : p b = true
    · rw [List.filter_cons_of_pos passes]
      cases n with
      | zero => simp
      | succ n =>
        rw [List.take_succ_cons,List.mem_cons,ih]
        constructor
        · rintro (rfl | ⟨i,found,good,few⟩)
          · exact ⟨0,rfl,passes,by simp⟩
          · refine ⟨i + 1,by simpa using found,good,?_⟩
            rw [List.take_succ_cons,List.filter_cons_of_pos passes,List.length_cons]
            omega
        · rintro ⟨i,found,good,few⟩
          cases i with
          | zero => exact .inl (Option.some.inj found).symm
          | succ i =>
            rw [List.take_succ_cons,List.filter_cons_of_pos passes,List.length_cons] at few
            exact .inr ⟨i,by simpa using found,good,by omega⟩
    · rw [List.filter_cons_of_neg passes,ih]
      constructor
      · rintro ⟨i,found,good,few⟩
        refine ⟨i + 1,by simpa using found,good,?_⟩
        rwa [List.take_succ_cons,List.filter_cons_of_neg passes]
      · rintro ⟨i,found,good,few⟩
        cases i with
        | zero =>
          rw [← Option.some.inj found] at good
          exact absurd good passes
        | succ i =>
          rw [List.take_succ_cons,List.filter_cons_of_neg passes] at few
          exact ⟨i,by simpa using found,good,few⟩

/-! ### What unpaid callers get -/

/-- A page that ends within the first `n` shows nothing else. -/
theorem mem_take_of_mem_page {α : Type} {l : List α} {offset limit n : ℕ} {a : α} (within : offset + limit ≤ n)
    (member : a ∈ (l.drop offset).take limit) : a ∈ l.take n := by
  have page : (l.take (offset + limit)).drop offset = (l.drop offset).take limit := by
    rw [List.drop_take,Nat.add_sub_cancel_left]
  rw [← page] at member
  exact (List.take_prefix_take_left within).subset (List.mem_of_mem_drop member)

open Classical in
/-- An unpaid caller gets nothing but the first ten that its filters pass. -/
theorem mem_of_returned {caller : Caller} (isUnpaid : unpaid caller = true) {opportunities : List ArbitrageResult}
    (q : OpportunitiesQuery) {o : ArbitrageResult}
    (member : o ∈ returned upper lower caller (some opportunities) (.opportunities q)) :
    o ∈ (opportunities.filter (fun b => Passes upper lower q.minApr q.token q.exchanges q.minOi b)).take 10 := by
  rw [returned,getOpportunities,filterOpportunities_eq] at member
  simp only [isUnpaid,true_and] at member
  by_cases capped : q.offset + q.limit > 10
  · simp only [capped,if_true,true_and] at member
    split at member
    · cases member
    · rename_i some_left
      exact mem_take_of_mem_page (by omega) member
  · simp only [capped,if_false,false_and] at member
    exact mem_take_of_mem_page (by omega) member

open Classical in
/-- The first ten that a filter passes are what a caller with no tier gets for it. -/
theorem returned_of_mem {opportunities : List ArbitrageResult} {minApr minOi : ℚ} {exchanges : List String}
    {token : Option String} {o : ArbitrageResult}
    (member : o ∈ (opportunities.filter (fun b => Passes upper lower minApr token exchanges minOi b)).take 10) :
    o ∈ returned upper lower .anonymous (some opportunities)
      (.opportunities ⟨minApr,minOi,exchanges,token,10,0,by decide,by decide⟩) := by
  rw [returned,getOpportunities,filterOpportunities_eq]
  simpa using member

open Classical in
/-- What the endpoint for one token returns, the other one returns for that token as well. -/
theorem mem_of_token_returned {caller : Caller} {opportunities : List ArbitrageResult} {path : TokenPath} {o : ArbitrageResult}
    (member : o ∈ returned upper lower caller (some opportunities) (.token path)) :
    o ∈ (opportunities.filter (fun b => Passes upper lower 0 (some path.token) [] 0 b)).take 10 := by
  rw [returned,TokenKeys.getOpportunityForToken] at member
  cases found : opportunities.find? (fun b => b.token = upper path.token) with
  | none =>
    rw [found] at member
    cases member
  | some opp =>
    rw [found] at member
    obtain rfl := List.mem_singleton.mp member
    obtain ⟨named,before,after,rfl,others⟩ := List.find?_eq_some_iff_append.mp found
    have passes : Passes upper lower 0 (some path.token) [] 0 o := by
      refine ⟨fun active => absurd active (lt_irrefl 0),?_,fun some => absurd rfl some,fun active => absurd active (lt_irrefl 0)⟩
      rintro t ⟨⟩ -
      exact of_decide_eq_true named
    refine (mem_take_filter_iff _ _ _ _).mpr ⟨before.length,by simp,decide_eq_true passes,?_⟩
    have none : before.filter (fun b => decide (Passes upper lower 0 (some path.token) [] 0 b)) = [] := by
      rw [List.filter_eq_nil_iff]
      intro b member passesB
      have same := (of_decide_eq_true passesB).token path.token rfl path.nonempty
      have other := others b member
      rw [same] at other
      simp at other
    rw [List.take_left,none]
    decide

/-- An entry that follows `o` passes the filters that `o` passes, whichever of its
    exchanges they name. -/
theorem Passes.follows {minApr minOi : ℚ} {exchanges : List String} {token : Option String} {o : ArbitrageResult}
    (passes : Passes upper lower minApr token exchanges minOi o) :
    ∃ exchange, On exchange o ∧ ∀ b, Follows upper lower exchange o b → Passes upper lower minApr token exchanges minOi b := by
  have rest : ∀ exchange b, Follows upper lower exchange o b → (exchanges ≠ [] → ∃ e ∈ exchanges, On (lower e) b) →
      Passes upper lower minApr token exchanges minOi b := by
    intro exchange b follows named
    refine ⟨?_,?_,named,?_⟩
    · intro active
      exact (passes.apr active).trans (follows.apr (active.trans_le (passes.apr active)))
    · intro t asked nonempty
      have same := passes.token t asked nonempty
      rw [follows.token ⟨t,nonempty,same.symm⟩]
      exact same
    · intro active
      exact (passes.oi active).trans (follows.oi (active.trans_le (passes.oi active)))
  by_cases some : exchanges = []
  · exact ⟨o.longLeg.exchange,.inl rfl,fun b follows => rest _ b follows (fun filtered => absurd some filtered)⟩
  · obtain ⟨e,member,on⟩ := passes.exchange some
    exact ⟨lower e,on,fun b follows => rest _ b follows (fun _ => ⟨e,member,follows.exchange ⟨e,rfl⟩⟩)⟩

/-- The token to ask for, if there is one. -/
theorem exists_token (o : ArbitrageResult) :
    ∃ token : Option String, (∀ t ∈ token, t ≠ "" → o.token = upper t) ∧
      ∀ b : ArbitrageResult, (∀ t ∈ token, t ≠ "" → b.token = upper t) →
        (∃ asked, asked ≠ "" ∧ upper asked = o.token) → b.token = o.token := by
  by_cases askable : ∃ asked, asked ≠ "" ∧ upper asked = o.token
  · obtain ⟨asked,nonempty,same⟩ := askable
    refine ⟨some asked,?_,?_⟩
    · rintro t ⟨⟩ -
      exact same.symm
    · rintro b named -
      rw [named asked rfl nonempty,same]
  · exact ⟨none,fun t impossible => (Option.not_mem_none t impossible).elim,fun b _ asked => absurd asked askable⟩

/-- The exchanges to ask for, if there are any. -/
theorem exists_exchanges {exchange : String} {o : ArbitrageResult} (on : On exchange o) :
    ∃ exchanges : List String, (exchanges ≠ [] → ∃ e ∈ exchanges, On (lower e) o) ∧
      ∀ b : ArbitrageResult, (exchanges ≠ [] → ∃ e ∈ exchanges, On (lower e) b) →
        (∃ asked, lower asked = exchange) → On exchange b := by
  by_cases askable : ∃ asked, lower asked = exchange
  · obtain ⟨asked,rfl⟩ := askable
    refine ⟨[asked],fun _ => ⟨asked,List.mem_singleton_self asked,on⟩,?_⟩
    intro b named _
    obtain ⟨e,member,onB⟩ := named (List.cons_ne_nil asked [])
    rw [List.mem_singleton.mp member] at onB
    exact onB
  · exact ⟨[],fun some => absurd rfl some,fun b _ asked => absurd asked askable⟩

/-- There are filters that pass `o` and nothing but what follows it. -/
theorem exists_passes {exchange : String} {o : ArbitrageResult} (on : On exchange o) :
    ∃ minApr token exchanges minOi, Passes upper lower minApr token exchanges minOi o ∧
      ∀ b, Passes upper lower minApr token exchanges minOi b → Follows upper lower exchange o b := by
  obtain ⟨token,ownToken,sameToken⟩ := @exists_token upper o
  obtain ⟨exchanges,ownExchange,sameExchange⟩ := @exists_exchanges lower exchange o on
  refine ⟨o.netAprTaker,token,exchanges,leastOi o,⟨fun _ => le_rfl,ownToken,ownExchange,fun _ => le_rfl⟩,?_⟩
  intro b passes
  exact ⟨passes.apr,sameToken b passes.token,sameExchange b passes.exchange,passes.oi⟩

/-- Unpaid callers get nothing but the first ten published exactly when no entry beyond
    them can be separated from the entries before it. -/
theorem returnsTopTen_iff (upper lower : String → String) (opportunities : List ArbitrageResult) :
    ReturnsTopTen upper lower opportunities ↔ Inseparable upper lower opportunities := by
  classical
  constructor
  · intro returnsTopTen i o at_i beyond exchange on
    by_contra few
    obtain ⟨minApr,token,exchanges,minOi,passes,follows⟩ := @exists_passes upper lower exchange o on
    have fewer : ((opportunities.take i).filter (fun b => Passes upper lower minApr token exchanges minOi b)).length < 10 := by
      refine Nat.lt_of_le_of_lt (List.Sublist.length_le ?_) (Nat.lt_of_not_le few)
      refine List.monotone_filter_right _ ?_
      intro b passesB
      exact decide_eq_true (follows b (of_decide_eq_true passesB))
    have got := returned_of_mem ((mem_take_filter_iff _ _ _ _).mpr ⟨i,at_i,decide_eq_true passes,fewer⟩)
    exact beyond (returnsTopTen .anonymous rfl [_] o (by simpa using got))
  · intro inseparable caller isUnpaid requests o member
    obtain ⟨request,-,got⟩ := List.mem_flatMap.mp member
    have filtered : ∃ minApr token exchanges minOi,
        o ∈ (opportunities.filter (fun b => Passes upper lower minApr token exchanges minOi b)).take 10 := by
      cases request with
      | opportunities q => exact ⟨_,_,_,_,mem_of_returned isUnpaid q got⟩
      | token path => exact ⟨_,_,_,_,mem_of_token_returned got⟩
    obtain ⟨minApr,token,exchanges,minOi,inTen⟩ := filtered
    obtain ⟨i,at_i,passes,few⟩ := (mem_take_filter_iff _ _ _ _).mp inTen
    by_contra beyond
    obtain ⟨exchange,on,followers⟩ := (of_decide_eq_true passes).follows
    have many := inseparable i o at_i beyond exchange on
    have more : ((opportunities.take i).filter (fun b => Follows upper lower exchange o b)).length ≤
        ((opportunities.take i).filter (fun b => Passes upper lower minApr token exchanges minOi b)).length := by
      refine List.Sublist.length_le (List.monotone_filter_right _ ?_)
      intro b follows
      exact decide_eq_true (followers b (of_decide_eq_true follows))
    omega

/-- Where every entry has a token of its own that can be asked for, the cap holds for lists
    of at most ten. -/
theorem returnsTopTen_iff_of_tokens {opportunities : List ArbitrageResult} (distinct : (opportunities.map (·.token)).Nodup)
    (askable : ∀ o ∈ opportunities, ∃ asked, asked ≠ "" ∧ upper asked = o.token) :
    ReturnsTopTen upper lower opportunities ↔ opportunities.length ≤ 10 := by
  classical
  rw [returnsTopTen_iff]
  constructor
  · intro inseparable
    by_contra long
    have lt : 10 < opportunities.length := Nat.lt_of_not_le long
    have member : opportunities[10] ∈ opportunities := List.getElem_mem lt
    -- an entry before the eleventh has another token
    have other : ∀ b ∈ opportunities.take 10, b.token ≠ opportunities[10].token := by
      intro b before same
      obtain ⟨j,jLt,rfl⟩ := List.mem_take_iff_getElem.mp before
      have jBound : j < (opportunities.map (·.token)).length := by
        rw [List.length_map]
        omega
      have tenBound : 10 < (opportunities.map (·.token)).length := by
        rw [List.length_map]
        exact lt
      have names : (opportunities.map (·.token))[j] = (opportunities.map (·.token))[10] := by
        rw [List.getElem_map,List.getElem_map]
        exact same
      have index := distinct.getElem_inj_iff.mp names
      omega
    have many := inseparable 10 opportunities[10] (List.getElem?_eq_getElem lt) (fun before => other _ before rfl) _ (.inl rfl)
    have none : (opportunities.take 10).filter (fun b => Follows upper lower opportunities[10].longLeg.exchange opportunities[10] b) =
        [] := by
      rw [List.filter_eq_nil_iff]
      intro b before follows
      exact other b before ((of_decide_eq_true follows).token (askable _ member))
    rw [none] at many
    exact absurd many (by decide)
  · intro short i o at_i beyond
    rw [List.take_of_length_le short] at beyond
    exact absurd (List.mem_of_getElem? at_i) beyond

/-! ### The eleventh opportunity -/

/-- Eleven opportunities, in the order of their net APR. -/
def eleven : List ArbitrageResult :=
  ["A","B","C","D","E","F","G","H","I","J","K"].zipIdx.map fun e => { TokenKeys.oneOpportunity e.1 with netAprTaker := 20 - e.2 }

/-- A caller without a key gets the last one by its token. -/
theorem eleven_not_topTen :
    eleven.Pairwise (fun a b => b.netAprTaker ≤ a.netAprTaker) ∧ ¬ ReturnsTopTen id id eleven := by
  refine ⟨by decide +kernel,?_⟩
  intro returnsTopTen
  have got := returnsTopTen .anonymous rfl [.token ⟨"K",by decide⟩] { TokenKeys.oneOpportunity "K" with netAprTaker := 10 }
    (by decide +kernel)
  exact absurd got (by decide +kernel)

end FundingRadar.Paywall
