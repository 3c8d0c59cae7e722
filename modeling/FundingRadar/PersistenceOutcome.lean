import FundingRadar.Normalizer
import FundingRadar.Persistence

/-!
What becomes of a persist run. As long as every round is undisturbed, the session would
commit every snapshot seen so far. The first disturbed round either skips its snapshot,
which the counter never catches up with, or leaves a snapshot whose row no later round
can write.
-/
namespace FundingRadar.FundingService
variable {upper : String → String} {prior t : Tables} {s s' : Persisting} {done : List NormalizedFundingData}
  {d : NormalizedFundingData}

/-! ### Every state of a run -/

variable (upper) in
/-- What the cached ids and the sequences are to some tables. -/
structure Knows (prior : Tables) (s : Persisting) (t : Tables) : Prop where
  exchanges : Means id s.exchanges t.exchanges
  tokens : Means (symbolOf upper prior) s.tokens t.tokens
  exchangesAhead : Ahead t.exchanges s.nextExchange
  tokensAhead : Ahead t.tokens s.nextToken

variable (upper) in
/-- A state that a run over the tables `prior` can reach. -/
structure Tracks (prior : Tables) (s : Persisting) : Prop where
  base : s.session.base = prior
  before : Knows upper prior s prior
  current : ∀ t, s.session.outcome Tables.write = some t → Knows upper prior s t
  exchangesAhead : Ahead s.exchanges s.nextExchange
  tokensAhead : Ahead s.tokens s.nextToken
  known : ∀ k i, prior.tokens.get? k = some i → s.tokens.get? k = some i

variable (upper) in
theorem start_tracks (db : Database) : Tracks upper db.tables (start db) := by
  have knows : Knows upper db.tables (start db) db.tables := by
    refine ⟨fun k other i cached found => db.tables.exchangeIds other k i found cached,?_,db.exchangesAhead,db.tokensAhead⟩
    intro k other i cached found
    rw [symbolOf_of_prior cached]
    exact db.tables.tokenIds other k i found cached
  refine ⟨rfl,knows,?_,db.exchangesAhead,db.tokensAhead,fun _ _ found => found⟩
  rintro _ ⟨⟩
  exact knows

/-- An unknown token is created under the symbol it stands for. -/
theorem Tracks.symbolOf_unknown (tracks : Tracks upper prior s) {k : String} (unknown : s.tokens.get? k = none) :
    symbolOf upper prior k = upper k := by
  cases found : prior.tokens.get? k with
  | none => exact symbolOf_of_new found
  | some i =>
    rw [tracks.known k i found] at unknown
    cases unknown

/-- Caching an unknown token leaves what was known. -/
theorem Tracks.known_insert (tracks : Tracks upper prior s) {k : String} (unknown : s.tokens.get? k = none) (i : ℤ)
    (k' : String) (j : ℤ) (found : prior.tokens.get? k' = some j) : (s.tokens.insert k i).get? k' = some j :=
  Dict.get?_insert_of_absent unknown (tracks.known k' j found) i

theorem Tracks.exchangeStep (tracks : Tracks upper prior s) {e : String} {i : ℤ} (step : ExchangeStep s e s' i) :
    Tracks upper prior s' := by
  cases step with
  | cached => exact tracks
  | @created session t t' unknown base before added after =>
    obtain ⟨-,rows,tokens,-⟩ := Tables.addExchange_eq_some added
    have knows := tracks.current t before
    refine ⟨base.trans tracks.base,?_,?_,tracks.exchangesAhead.insert e,tracks.tokensAhead,tracks.known⟩
    · exact ⟨tracks.before.exchanges.cacheFresh tracks.before.exchangesAhead e,tracks.before.tokens,
        tracks.before.exchangesAhead.next,tracks.before.tokensAhead⟩
    · intro t'' also
      obtain rfl : t' = t'' := Option.some.inj (after.symm.trans also)
      refine ⟨?_,?_,?_,?_⟩
      · rw [rows]
        exact knows.exchanges.create tracks.exchangesAhead knows.exchangesAhead e
      · rw [tokens]
        exact knows.tokens
      · rw [rows]
        exact knows.exchangesAhead.insert e
      · rw [tokens]
        exact knows.tokensAhead

theorem Tracks.tokenStep (tracks : Tracks upper prior s) {k : String} {o : Option ℤ} (step : TokenStep upper s k s' o) :
    Tracks upper prior s' := by
  cases step with
  | cached => exact tracks
  | @created session t t' unknown base before added after =>
    obtain ⟨-,-,rows,exchanges,-⟩ := Tables.addToken_eq_some added
    have knows := tracks.current t before
    refine ⟨base.trans tracks.base,?_,?_,tracks.exchangesAhead,tracks.tokensAhead.insert k,tracks.known_insert unknown _⟩
    · exact ⟨tracks.before.exchanges,tracks.before.tokens.cacheFresh tracks.before.tokensAhead k,
        tracks.before.exchangesAhead,tracks.before.tokensAhead.next⟩
    · intro t'' also
      obtain rfl : t' = t'' := Option.some.inj (after.symm.trans also)
      refine ⟨?_,?_,?_,?_⟩
      · rw [exchanges]
        exact knows.exchanges
      · rw [rows,← tracks.symbolOf_unknown unknown]
        exact knows.tokens.create tracks.tokensAhead knows.tokensAhead k
      · rw [exchanges]
        exact knows.exchangesAhead
      · rw [rows]
        exact knows.tokensAhead.insert (upper k)
  | @found i unknown refused row =>
    rw [tracks.base] at row
    have means : Means (symbolOf upper prior) (s.tokens.insert k i) prior.tokens := by
      refine tracks.before.tokens.cacheFound prior.tokenIds ?_
      rw [tracks.symbolOf_unknown unknown]
      exact row
    have below := tracks.before.tokensAhead (upper k) i row
    have knows : Knows upper prior { s with
        session := s.session.rollback
        nextToken := s.nextToken + 1
        tokens := s.tokens.insert k i } prior :=
      ⟨tracks.before.exchanges,means,tracks.before.exchangesAhead,tracks.before.tokensAhead.next⟩
    refine ⟨tracks.base,knows,?_,tracks.exchangesAhead,?_,tracks.known_insert unknown i⟩
    · intro t also
      obtain rfl : prior = t := tracks.base.symm.trans (Option.some.inj also)
      exact knows
    · exact tracks.tokensAhead.next.insertOld k (below.trans (lt_add_one _))
  | missing unknown refused noRow =>
    have knows : Knows upper prior { s with session := s.session.rollback,nextToken := s.nextToken + 1 } prior :=
      ⟨tracks.before.exchanges,tracks.before.tokens,tracks.before.exchangesAhead,tracks.before.tokensAhead.next⟩
    refine ⟨tracks.base,knows,?_,tracks.exchangesAhead,tracks.tokensAhead.next,tracks.known⟩
    intro t also
    obtain rfl : prior = t := tracks.base.symm.trans (Option.some.inj also)
    exact knows

theorem merge_outcome {time i k : ℤ} {v : RateValues} (merged : (merge s time i k v).session.outcome Tables.write = some t) :
    ∃ t', s.session.outcome Tables.write = some t' ∧ t'.putRate time i k v = some t := by
  rw [merge,Session.outcome_stage,Option.bind_eq_some_iff] at merged
  exact merged

theorem Tracks.merge (tracks : Tracks upper prior s) (time i k : ℤ) (v : RateValues) :
    Tracks upper prior (merge s time i k v) := by
  have before := tracks.before
  refine ⟨tracks.base,⟨before.exchanges,before.tokens,before.exchangesAhead,before.tokensAhead⟩,?_,tracks.exchangesAhead,
    tracks.tokensAhead,tracks.known⟩
  intro t merged
  obtain ⟨t',before,put⟩ := merge_outcome merged
  obtain ⟨-,exchanges,tokens⟩ := Tables.putRate_eq_some put
  have knows := tracks.current t' before
  exact ⟨exchanges ▸ knows.exchanges,tokens ▸ knows.tokens,exchanges ▸ knows.exchangesAhead,tokens ▸ knows.tokensAhead⟩

theorem ExchangeStep.known {e : String} {i : ℤ} (step : ExchangeStep s e s' i) : s'.exchanges.get? e = some i := by
  cases step with
  | cached known => exact known
  | created => exact Dict.get?_insert_self ..
theorem ExchangeStep.inserted {e : String} {i : ℤ} (step : ExchangeStep s e s' i) : s'.inserted = s.inserted := by
  cases step <;> rfl
theorem TokenStep.known {k : String} {i : ℤ} (step : TokenStep upper s k s' (some i)) : s'.tokens.get? k = some i := by
  cases step with
  | cached known => exact known
  | created => exact Dict.get?_insert_self ..
  | found => exact Dict.get?_insert_self ..
theorem TokenStep.exchanges {k : String} {o : Option ℤ} (step : TokenStep upper s k s' o) : s'.exchanges = s.exchanges := by
  cases step <;> rfl
theorem TokenStep.inserted {k : String} {o : Option ℤ} (step : TokenStep upper s k s' o) : s'.inserted = s.inserted := by
  cases step <;> rfl

/-! ### Lost snapshots -/

variable (upper) in
/-- A snapshot that the session has dropped and that the tables did not have. -/
structure Doomed (prior : Tables) (s : Persisting) (d : NormalizedFundingData) : Prop where
  unstored : ¬ Stored upper prior prior d
  seen : ∃ i, s.exchanges.get? d.exchange = some i
  dropped : ∀ t, s.session.outcome Tables.write = some t → ¬ Stored upper prior t d

theorem Doomed.exchangeStep (doomed : Doomed upper prior s d) {e : String} {i : ℤ} (step : ExchangeStep s e s' i) :
    Doomed upper prior s' d := by
  cases step with
  | cached => exact doomed
  | @created session t t' unknown base before added after =>
    obtain ⟨j,seen⟩ := doomed.seen
    have other : d.exchange ≠ e := by
      rintro rfl
      rw [seen] at unknown
      cases unknown
    refine ⟨doomed.unstored,⟨j,?_⟩,?_⟩
    · rw [Dict.get?_insert,if_neg other]
      exact seen
    · intro t'' also
      obtain rfl : t' = t'' := Option.some.inj (after.symm.trans also)
      obtain ⟨-,rows,tokens,rates⟩ := Tables.addExchange_eq_some added
      have dropped := doomed.dropped t before
      rw [stored_iff] at dropped ⊢
      rw [rows,tokens,rates,Dict.get?_insert,if_neg other]
      exact dropped

/-- A token created later is too new for the rows that are there. -/
theorem Doomed.tokenStep (tracks : Tracks upper prior s) (doomed : Doomed upper prior s d) {k : String} {o : Option ℤ}
    (step : TokenStep upper s k s' o) : Doomed upper prior s' d := by
  have rolledBack : ∀ t, some s.session.base = some t → ¬ Stored upper prior t d := by
    rintro t same
    obtain rfl : prior = t := tracks.base.symm.trans (Option.some.inj same)
    exact doomed.unstored
  cases step with
  | cached => exact doomed
  | @created session t t' unknown base before added after =>
    refine ⟨doomed.unstored,doomed.seen,?_⟩
    intro t'' also
    obtain rfl : t' = t'' := Option.some.inj (after.symm.trans also)
    obtain ⟨-,-,rows,exchanges,rates⟩ := Tables.addToken_eq_some added
    have dropped := doomed.dropped t before
    rw [stored_iff] at dropped ⊢
    rintro ⟨i,j,exchange,token,rate⟩
    rw [exchanges] at exchange
    rw [rates] at rate
    rw [rows,Dict.get?_insert] at token
    split at token
    · -- no row can refer to the id that has only now been drawn
      cases token
      obtain ⟨symbol,found⟩ := (t.references _ _ _ _ rate).2
      exact lt_irrefl _ ((tracks.current t before).tokensAhead symbol _ found)
    · exact dropped ⟨i,j,exchange,token,rate⟩
  | found => exact ⟨doomed.unstored,doomed.seen,rolledBack⟩
  | missing => exact ⟨doomed.unstored,doomed.seen,rolledBack⟩

/-- The row of another snapshot is not the row of the lost one. -/
theorem Doomed.merge (tracks : Tracks upper prior s) (doomed : Doomed upper prior s d) {other : NormalizedFundingData}
    {i k : ℤ} (exchange : s.exchanges.get? other.exchange = some i) (token : s.tokens.get? other.token = some k)
    (apart : ¬ SameRow upper prior d other) (v : RateValues) : Doomed upper prior (merge s other.timestamp i k v) d := by
  refine ⟨doomed.unstored,doomed.seen,?_⟩
  intro t merged
  obtain ⟨t',before,put⟩ := merge_outcome merged
  obtain ⟨rates,exchanges,tokens⟩ := Tables.putRate_eq_some put
  have knows := tracks.current t' before
  have dropped := doomed.dropped t' before
  rw [stored_iff] at dropped ⊢
  rintro ⟨i',k',ownExchange,ownToken,rate⟩
  rw [exchanges] at ownExchange
  rw [tokens] at ownToken
  rw [rates,Dict.get?_insert] at rate
  split at rate
  · next same =>
    obtain ⟨time,rfl,rfl⟩ : d.timestamp = other.timestamp ∧ i' = i ∧ k' = k := by simpa using same
    exact apart ⟨time,knows.exchanges _ _ _ exchange ownExchange,knows.tokens _ _ _ token ownToken⟩
  · exact dropped ⟨i',k',ownExchange,ownToken,rate⟩

/-! ### Undisturbed rounds -/

variable (upper) in
/-- The session would commit the tables `t`, with every snapshot seen so far. -/
structure Benign (prior : Tables) (s : Persisting) (t : Tables) (done : List NormalizedFundingData)
    (exchanges tokens : List String) : Prop where
  outcome : s.session.outcome Tables.write = some t
  cachedExchanges : ∀ e, s.exchanges.get? e = t.exchanges.get? e
  oldExchanges : ∀ e i, prior.exchanges.get? e = some i → t.exchanges.get? e = some i
  newExchanges : ∀ e i, t.exchanges.get? e = some i → (∃ j, prior.exchanges.get? e = some j) ∨ e ∈ exchanges
  cachedTokens : ∀ k i, s.tokens.get? k = some i → t.tokens.get? (symbolOf upper prior k) = some i
  seenTokens : ∀ k, (∃ i, s.tokens.get? k = some i) ↔ (∃ i, prior.tokens.get? k = some i) ∨ k ∈ tokens
  newTokens : ∀ symbol i, t.tokens.get? symbol = some i →
    prior.tokens.get? symbol = some i ∨ ∃ k ∈ tokens, prior.tokens.get? k = none ∧ symbol = upper k
  stored : ∀ j ∈ done, Stored upper prior t j
  counted : s.inserted = done.length

variable {exchanges tokens : List String}

variable (upper) in
theorem start_benign (db : Database) : Benign upper db.tables (start db) db.tables [] [] [] where
  outcome := Session.outcome_start ..
  cachedExchanges _ := rfl
  oldExchanges _ _ found := found
  newExchanges _ i found := .inl ⟨i,found⟩
  cachedTokens k i found := by
    rw [symbolOf_of_prior found]
    exact found
  seenTokens k := by simp [start]
  newTokens _ _ found := .inl found
  stored _ member := by cases member
  counted := rfl

theorem Benign.exchangeStep (benign : Benign upper prior s t done exchanges tokens) {e : String} {i : ℤ}
    (step : ExchangeStep s e s' i) : ∃ t', Benign upper prior s' t' done (exchanges ++ [e]) tokens := by
  cases step with
  | cached =>
    refine ⟨t,{ benign with newExchanges := fun e' i found => ?_ }⟩
    exact (benign.newExchanges e' i found).imp_right (List.mem_append_left _)
  | @created session t₁ t' unknown base before added after =>
    obtain rfl : t = t₁ := Option.some.inj (benign.outcome.symm.trans before)
    obtain ⟨absent,rows,tokens,rates⟩ := Tables.addExchange_eq_some added
    have kept : ∀ e' j, t.exchanges.get? e' = some j → t'.exchanges.get? e' = some j := by
      intro e' j found
      rw [rows]
      exact Dict.get?_insert_of_absent absent found _
    refine ⟨t',after,?_,fun e' j found => kept e' j (benign.oldExchanges e' j found),?_,?_,benign.seenTokens,?_,?_,
      benign.counted⟩
    · intro e'
      rw [rows,Dict.get?_insert,Dict.get?_insert,benign.cachedExchanges]
    · intro e' j found
      rw [rows,Dict.get?_insert] at found
      by_cases same : e' = e
      · exact .inr (same ▸ List.mem_append_right _ (List.mem_singleton_self _))
      · rw [if_neg same] at found
        exact (benign.newExchanges e' j found).imp_right (List.mem_append_left _)
    · rw [tokens]
      exact benign.cachedTokens
    · rw [tokens]
      exact benign.newTokens
    · intro j member
      obtain ⟨i,k,exchange,token,rate⟩ := stored_iff.mp (benign.stored j member)
      exact stored_iff.mpr ⟨i,k,kept _ _ exchange,tokens ▸ token,rates ▸ rate⟩

theorem Benign.newTokens_append (benign : Benign upper prior s t done exchanges tokens) (k symbol : String) (i : ℤ)
    (found : t.tokens.get? symbol = some i) :
    prior.tokens.get? symbol = some i ∨ ∃ k' ∈ tokens ++ [k], prior.tokens.get? k' = none ∧ symbol = upper k' := by
  refine (benign.newTokens symbol i found).imp_right ?_
  rintro ⟨k',seen,new⟩
  exact ⟨k',List.mem_append_left _ seen,new⟩

theorem Benign.cached (benign : Benign upper prior s t done exchanges tokens) {k : String} {i : ℤ}
    (known : s.tokens.get? k = some i) : Benign upper prior s t done exchanges (tokens ++ [k]) := by
  refine { benign with seenTokens := fun k' => ?_,newTokens := benign.newTokens_append k }
  rw [benign.seenTokens,List.mem_append,List.mem_singleton]
  constructor
  · exact Or.imp_right .inl
  · rintro (old | seen | rfl)
    · exact .inl old
    · exact .inr seen
    · exact (benign.seenTokens k').mp ⟨i,known⟩

/-- The tokens that are cached after one more is. -/
theorem Benign.seenTokens_insert (benign : Benign upper prior s t done exchanges tokens) (k : String) (i : ℤ) (k' : String) :
    (∃ j, (s.tokens.insert k i).get? k' = some j) ↔ (∃ j, prior.tokens.get? k' = some j) ∨ k' ∈ tokens ++ [k] := by
  rw [Dict.get?_insert,List.mem_append,List.mem_singleton]
  by_cases same : k' = k
  · simp [same]
  · rw [if_neg same,benign.seenTokens]
    simp [same]

theorem Benign.created (benign : Benign upper prior s t done exchanges tokens) {k : String} (new : prior.tokens.get? k = none)
    {session : Session Tables Tables.Write} {t' : Tables} (added : t.addToken (upper k) s.nextToken = some t')
    (after : session.outcome Tables.write = some t') :
    Benign upper prior { s with
      session := session
      nextToken := s.nextToken + 1
      tokens := s.tokens.insert k s.nextToken } t' done exchanges (tokens ++ [k]) := by
  obtain ⟨-,absent,rows,sameExchanges,rates⟩ := Tables.addToken_eq_some added
  have kept : ∀ symbol j, t.tokens.get? symbol = some j → t'.tokens.get? symbol = some j := by
    intro symbol j found
    rw [rows]
    exact Dict.get?_insert_of_absent absent found _
  refine ⟨after,?_,?_,?_,?_,benign.seenTokens_insert k _,?_,?_,benign.counted⟩
  · rw [sameExchanges]
    exact benign.cachedExchanges
  · rw [sameExchanges]
    exact benign.oldExchanges
  · rw [sameExchanges]
    exact benign.newExchanges
  · intro k' j cached
    rw [Dict.get?_insert] at cached
    by_cases same : k' = k
    · rw [if_pos same] at cached
      rw [same,symbolOf_of_new new,rows,Dict.get?_insert,if_pos rfl]
      exact cached
    · rw [if_neg same] at cached
      exact kept _ _ (benign.cachedTokens k' j cached)
  · intro symbol j found
    rw [rows,Dict.get?_insert] at found
    by_cases same : symbol = upper k
    · exact .inr ⟨k,List.mem_append_right _ (List.mem_singleton_self _),new,same⟩
    · rw [if_neg same] at found
      exact benign.newTokens_append k symbol j found
  · intro j member
    obtain ⟨i,k',exchange,token,rate⟩ := stored_iff.mp (benign.stored j member)
    exact stored_iff.mpr ⟨i,k',sameExchanges ▸ exchange,kept _ _ token,rates ▸ rate⟩

/-- A rollback that loses nothing leaves the session at the prior tables. -/
theorem Benign.rolledBack (tracks : Tracks upper prior s) (benign : Benign upper prior s t done exchanges tokens)
    {k : String} {i : ℤ} (new : prior.tokens.get? k = none) (row : prior.tokens.get? (upper k) = some i)
    (oldExchanges : ∀ e ∈ exchanges, ∃ j, prior.exchanges.get? e = some j)
    (oldTokens : ∀ k' ∈ tokens, ∃ j, prior.tokens.get? (symbolOf upper prior k') = some j)
    (storedBefore : ∀ j ∈ done, Stored upper prior prior j) :
    Benign upper prior { s with
      session := s.session.rollback
      nextToken := s.nextToken + 1
      tokens := s.tokens.insert k i } prior done exchanges (tokens ++ [k]) := by
  have keptTokens : ∀ k' j, prior.tokens.get? k' = some j → t.tokens.get? k' = some j := by
    intro k' j found
    have cached := benign.cachedTokens k' j (tracks.known k' j found)
    rwa [symbolOf_of_prior found] at cached
  have outcome : s.session.rollback.outcome Tables.write = some prior := by
    rw [Session.outcome_rollback,tracks.base]
  refine ⟨outcome,?_,fun _ _ found => found,fun e j found => .inl ⟨j,found⟩,?_,
    benign.seenTokens_insert k i,fun _ _ found => .inl found,storedBefore,benign.counted⟩
  · intro e
    refine (benign.cachedExchanges e).trans ?_
    cases before : prior.exchanges.get? e with
    | some j => exact benign.oldExchanges e j before
    | none =>
      rw [Option.eq_none_iff_forall_ne_some]
      intro j found
      have old := (benign.newExchanges e j found).elim (fun has => has) (oldExchanges e)
      rw [before] at old
      obtain ⟨_,impossible⟩ := old
      cases impossible
  · intro k' j cached
    rw [Dict.get?_insert] at cached
    by_cases same : k' = k
    · rw [if_pos same] at cached
      cases cached
      rw [same,symbolOf_of_new new]
      exact row
    · -- the symbol is one of the prior tables, so the id cached for it is still its id
      rw [if_neg same] at cached
      obtain ⟨j',found⟩ : ∃ j', prior.tokens.get? (symbolOf upper prior k') = some j' := by
        rcases (benign.seenTokens k').mp ⟨j,cached⟩ with ⟨j',old⟩ | seen
        · rw [symbolOf_of_prior old]
          exact ⟨j',old⟩
        · exact oldTokens k' seen
      have current := benign.cachedTokens k' j cached
      rw [keptTokens _ _ found] at current
      rw [found]
      exact current

theorem Benign.merge (benign : Benign upper prior s t done exchanges tokens) {i k : ℤ}
    (exchange : s.exchanges.get? d.exchange = some i) (token : s.tokens.get? d.token = some k) (fits : (rateValues d).Fits)
    (apart : ∀ j ∈ done, ¬ SameRow upper prior j d) :
    ∃ t', Benign upper prior (merge s d.timestamp i k (rateValues d)) t' (done ++ [d]) exchanges tokens := by
  rw [benign.cachedExchanges] at exchange
  have symbol := benign.cachedTokens _ _ token
  obtain ⟨t',put⟩ := Tables.exists_putRate d.timestamp exchange symbol fits
  obtain ⟨rates,sameExchanges,sameTokens⟩ := Tables.putRate_eq_some put
  refine ⟨t',?_,?_,?_,?_,?_,benign.seenTokens,?_,?_,?_⟩
  · rw [FundingService.merge,Session.outcome_stage,benign.outcome]
    exact put
  · rw [sameExchanges]
    exact benign.cachedExchanges
  · rw [sameExchanges]
    exact benign.oldExchanges
  · rw [sameExchanges]
    exact benign.newExchanges
  · rw [sameTokens]
    exact benign.cachedTokens
  · rw [sameTokens]
    exact benign.newTokens
  · intro j member
    rw [stored_iff,sameExchanges,sameTokens,rates]
    rcases List.mem_append.mp member with earlier | last
    · obtain ⟨i',k',ownExchange,ownToken,rate⟩ := stored_iff.mp (benign.stored j earlier)
      refine ⟨i',k',ownExchange,ownToken,?_⟩
      rw [Dict.get?_insert,if_neg]
      · exact rate
      · intro same
        obtain ⟨time,rfl,rfl⟩ : j.timestamp = d.timestamp ∧ i' = i ∧ k' = k := by simpa using same
        exact apart j earlier ⟨time,t.exchangeIds _ _ _ ownExchange exchange,t.tokenIds _ _ _ ownToken symbol⟩
    · obtain rfl : j = d := by simpa using last
      exact ⟨i,k,exchange,symbol,Dict.get?_insert_self ..⟩
  · rw [List.length_append,FundingService.merge]
    exact congrArg (· + 1) benign.counted

/-! ### Rounds -/

variable (upper) in
/-- Something seen so far is lost, or was skipped. -/
def Lost (prior : Tables) (s : Persisting) (done : List NormalizedFundingData) : Prop :=
  (∃ j ∈ done, Doomed upper prior s j) ∨ s.inserted < done.length

theorem round_tracks (tracks : Tracks upper prior s) (round : persistSnapshot upper s d = some s') : Tracks upper prior s' := by
  obtain ⟨s₁,i,exchange,missing | ⟨s₂,k,token,rfl⟩⟩ := persistSnapshot_eq_some round
  · exact (tracks.exchangeStep exchange).tokenStep missing
  · exact ((tracks.exchangeStep exchange).tokenStep token).merge _ _ _ _

theorem Lost.round (tracks : Tracks upper prior s) (lost : Lost upper prior s done)
    (apart : ∀ j ∈ done, ¬ SameRow upper prior j d) (round : persistSnapshot upper s d = some s') :
    Lost upper prior s' (done ++ [d]) := by
  obtain ⟨s₁,i,exchange,rest⟩ := persistSnapshot_eq_some round
  have tracks₁ := tracks.exchangeStep exchange
  rcases lost with ⟨j,member,doomed⟩ | short
  · refine .inl ⟨j,List.mem_append_left _ member,?_⟩
    have doomed₁ := doomed.exchangeStep exchange
    rcases rest with missing | ⟨s₂,k,token,rfl⟩
    · exact doomed₁.tokenStep tracks₁ missing
    · have seen : s₂.exchanges.get? d.exchange = some i := token.exchanges ▸ exchange.known
      exact (doomed₁.tokenStep tracks₁ token).merge (tracks₁.tokenStep token) seen token.known (apart j member) _
  · refine .inr ?_
    rw [List.length_append,List.length_singleton]
    rcases rest with missing | ⟨s₂,k,token,rfl⟩
    · rw [missing.inserted,exchange.inserted]
      exact short.trans (Nat.lt_succ_self _)
    · rw [merge,token.inserted,exchange.inserted]
      exact Nat.succ_lt_succ short

/-- In a benign state an unknown token is neither in the tables nor seen before. -/
theorem Benign.unseen (benign : Benign upper prior s t done exchanges (done.map (·.token))) {k : String}
    (unknown : s.tokens.get? k = none) : prior.tokens.get? k = none ∧ ∀ j ∈ done, j.token ≠ k := by
  have never := (benign.seenTokens k).not.mp (by rw [unknown]; simp)
  obtain ⟨new,unseen⟩ := not_or.mp never
  refine ⟨Option.eq_none_iff_forall_ne_some.mpr fun i found => new ⟨i,found⟩,fun j member same => ?_⟩
  exact unseen (List.mem_map.mpr ⟨j,member,same⟩)

/-- An undisturbed token keeps the state benign. -/
theorem Benign.tokenStep (tracks : Tracks upper prior s)
    (benign : Benign upper prior s t done (done.map (·.exchange) ++ [d.exchange]) (done.map (·.token))) {o : Option ℤ}
    (step : TokenStep upper s d.token s' o) (undisturbed : Undisturbed upper prior done d) :
    ∃ t', Benign upper prior s' t' done (done.map (·.exchange) ++ [d.exchange]) (done.map (·.token) ++ [d.token]) ∧
      o.isSome := by
  cases step with
  | cached known => exact ⟨t,benign.cached known,rfl⟩
  | @created session t₁ t' unknown base before added after =>
    obtain rfl : t = t₁ := Option.some.inj (benign.outcome.symm.trans before)
    exact ⟨t',benign.created (benign.unseen unknown).1 added after,rfl⟩
  | @found i unknown refused row =>
    obtain ⟨new,unseen⟩ := benign.unseen unknown
    rw [tracks.base] at row
    obtain ⟨_,old⟩ | ⟨j,member,same⟩ | ⟨-,oldExchange,stored⟩ | ⟨absent,-⟩ := undisturbed
    · rw [new] at old
      cases old
    · exact absurd same (unseen j member)
    · refine ⟨prior,benign.rolledBack tracks new row ?_ ?_ stored,rfl⟩
      · intro e member
        rcases List.mem_append.mp member with earlier | last
        · obtain ⟨j,seen,rfl⟩ := List.mem_map.mp earlier
          obtain ⟨i,-,exchange,-⟩ := stored_iff.mp (stored j seen)
          exact ⟨i,exchange⟩
        · rw [List.mem_singleton.mp last]
          exact oldExchange
      · intro k member
        obtain ⟨j,seen,rfl⟩ := List.mem_map.mp member
        obtain ⟨-,k,-,token,-⟩ := stored_iff.mp (stored j seen)
        exact ⟨k,token⟩
    · rw [row] at absent
      cases absent
  | missing unknown refused noRow =>
    obtain ⟨new,unseen⟩ := benign.unseen unknown
    rw [tracks.base] at noRow
    obtain ⟨_,old⟩ | ⟨j,member,same⟩ | ⟨⟨_,row⟩,-⟩ | ⟨-,short,apart⟩ := undisturbed
    · rw [new] at old
      cases old
    · exact absurd same (unseen j member)
    · rw [noRow] at row
      cases row
    · have fresh : ∀ other i, t.tokens.get? other = some i → i ≠ s.nextToken :=
        fun other i found => ((tracks.current t benign.outcome).tokensAhead other i found).ne
      rcases Tables.addToken_eq_none (refused t benign.outcome) fresh with long | ⟨i,taken⟩
      · exact absurd short (Nat.not_le_of_lt long)
      · rcases benign.newTokens _ i taken with old | ⟨k,seen,newToo,same⟩
        · rw [noRow] at old
          cases old
        · obtain ⟨j,member,rfl⟩ := List.mem_map.mp seen
          exact absurd same.symm (apart j member newToo)

/-- A disturbed token leaves the snapshot without an id, or loses the exchange of the
    snapshot or an earlier snapshot. -/
theorem Benign.disturbed (tracks : Tracks upper prior s)
    (benign : Benign upper prior s t done (done.map (·.exchange) ++ [d.exchange]) (done.map (·.token))) {o : Option ℤ}
    (step : TokenStep upper s d.token s' o) (disturbed : ¬ Undisturbed upper prior done d) :
    o = none ∨ s'.session.outcome Tables.write = some prior ∧
      (prior.exchanges.get? d.exchange = none ∨ ∃ j ∈ done, Doomed upper prior s' j) := by
  cases step with
  | cached known =>
    rcases (benign.seenTokens d.token).mp ⟨_,known⟩ with old | seen
    · exact absurd (.inl old) disturbed
    · obtain ⟨j,member,same⟩ := List.mem_map.mp seen
      exact absurd (.inr (.inl ⟨j,member,same⟩)) disturbed
  | @created session t₁ t' unknown base before added after =>
    obtain rfl : t = t₁ := Option.some.inj (benign.outcome.symm.trans before)
    obtain ⟨short,absent,-⟩ := Tables.addToken_eq_some added
    refine absurd (.inr (.inr (.inr ⟨?_,short,?_⟩))) disturbed
    · cases old : prior.tokens.get? (upper d.token) with
      | none => rfl
      | some i =>
        have kept := benign.cachedTokens _ i (tracks.known _ i old)
        rw [symbolOf_of_prior old,absent] at kept
        cases kept
    · intro j member new same
      obtain ⟨i,known⟩ := (benign.seenTokens j.token).mpr (.inr (List.mem_map_of_mem member))
      have kept := benign.cachedTokens _ i known
      rw [symbolOf_of_new new,same,absent] at kept
      cases kept
  | @found i unknown refused row =>
    rw [tracks.base] at row
    refine .inr ⟨congrArg some tracks.base,?_⟩
    cases old : prior.exchanges.get? d.exchange with
    | none => exact .inl rfl
    | some e =>
      refine .inr ?_
      by_contra none
      refine disturbed (.inr (.inr (.inl ⟨⟨i,row⟩,⟨e,old⟩,fun j member => ?_⟩)))
      by_contra unstored
      refine none ⟨j,member,unstored,?_,?_⟩
      · obtain ⟨e',-,exchange,-⟩ := stored_iff.mp (benign.stored j member)
        exact ⟨e',(benign.cachedExchanges _).trans exchange⟩
      · intro t' also
        obtain rfl : prior = t' := tracks.base.symm.trans (Option.some.inj also)
        exact unstored
  | missing => exact .inl rfl

/-- A round from a benign state stays benign when it is undisturbed, and loses something
    when it is not. -/
theorem Benign.round (tracks : Tracks upper prior s)
    (benign : Benign upper prior s t done (done.map (·.exchange)) (done.map (·.token))) (fits : (rateValues d).Fits)
    (apart : ∀ j ∈ done, ¬ SameRow upper prior j d) (round : persistSnapshot upper s d = some s') :
    (Undisturbed upper prior done d ∧
      ∃ t', Benign upper prior s' t' (done ++ [d]) ((done ++ [d]).map (·.exchange)) ((done ++ [d]).map (·.token))) ∨
    (¬ Undisturbed upper prior done d ∧ Lost upper prior s' (done ++ [d])) := by
  obtain ⟨s₁,i,exchange,rest⟩ := persistSnapshot_eq_some round
  have tracks₁ := tracks.exchangeStep exchange
  obtain ⟨t₁,benign₁⟩ := benign.exchangeStep exchange
  rw [List.map_append,List.map_append]
  by_cases undisturbed : Undisturbed upper prior done d
  · refine .inl ⟨undisturbed,?_⟩
    rcases rest with missing | ⟨s₂,k,token,rfl⟩
    · obtain ⟨_,-,impossible⟩ := benign₁.tokenStep tracks₁ missing undisturbed
      cases impossible
    · obtain ⟨t₂,benign₂,-⟩ := benign₁.tokenStep tracks₁ token undisturbed
      have seen : s₂.exchanges.get? d.exchange = some i := token.exchanges ▸ exchange.known
      exact benign₂.merge seen token.known fits apart
  · refine .inr ⟨undisturbed,?_⟩
    rcases rest with missing | ⟨s₂,k,token,rfl⟩
    · refine .inr ?_
      rw [missing.inserted,benign₁.counted,List.length_append]
      exact Nat.lt_succ_self _
    · have seen : s₂.exchanges.get? d.exchange = some i := token.exchanges ▸ exchange.known
      rcases benign₁.disturbed tracks₁ token undisturbed with impossible | ⟨outcome,noExchange | ⟨j,member,doomed⟩⟩
      · cases impossible
      · -- the id of the exchange was rolled back but stays cached, so nobody creates it again
        refine .inl ⟨d,List.mem_append_right _ (List.mem_singleton_self d),?_,⟨i,seen⟩,?_⟩
        · rw [stored_iff,noExchange]
          rintro ⟨_,_,impossible,-⟩
          cases impossible
        · intro t merged
          obtain ⟨t',before,put⟩ := merge_outcome merged
          obtain rfl : prior = t' := Option.some.inj (outcome.symm.trans before)
          rw [stored_iff,(Tables.putRate_eq_some put).2.1,noExchange]
          rintro ⟨_,_,impossible,-⟩
          cases impossible
      · refine .inl ⟨j,List.mem_append_left _ member,?_⟩
        exact doomed.merge (tracks₁.tokenStep token) seen token.known (apart j member) _

/-! ### Runs -/

/-- No snapshot shares its row with an earlier one. -/
theorem apart_of_pairwise {rest : List NormalizedFundingData}
    (rows : (done ++ d :: rest).Pairwise fun a b => ¬ SameRow upper prior a b) : ∀ j ∈ done, ¬ SameRow upper prior j d :=
  fun j member => (List.pairwise_append.mp rows).2.2 j member d (List.mem_cons_self ..)

theorem Lost.run {rest : List NormalizedFundingData} (tracks : Tracks upper prior s) (lost : Lost upper prior s done)
    (rows : (done ++ rest).Pairwise fun a b => ¬ SameRow upper prior a b)
    (ran : rest.foldlM (persistSnapshot upper) s = some s') : Lost upper prior s' (done ++ rest) := by
  induction rest generalizing s done with
  | nil =>
    cases ran
    rw [List.append_nil]
    exact lost
  | cons d rest ih =>
    rw [List.foldlM_cons] at ran
    obtain ⟨s₁,round,later⟩ := Option.bind_eq_some_iff.mp ran
    rw [List.append_cons]
    exact ih (round_tracks tracks round) (lost.round tracks (apart_of_pairwise rows) round) (List.append_cons .. ▸ rows) later

/-- A run from a benign state ends benign when all its rounds are undisturbed, and loses
    something otherwise. -/
theorem Benign.run {rest : List NormalizedFundingData} (tracks : Tracks upper prior s)
    (benign : Benign upper prior s t done (done.map (·.exchange)) (done.map (·.token)))
    (fits : ∀ d ∈ rest, (rateValues d).Fits) (rows : (done ++ rest).Pairwise fun a b => ¬ SameRow upper prior a b)
    (ran : rest.foldlM (persistSnapshot upper) s = some s') :
    ((∀ before d after, rest = before ++ d :: after → Undisturbed upper prior (done ++ before) d) ∧
      ∃ t', Benign upper prior s' t' (done ++ rest) ((done ++ rest).map (·.exchange)) ((done ++ rest).map (·.token))) ∨
    ((¬ ∀ before d after, rest = before ++ d :: after → Undisturbed upper prior (done ++ before) d) ∧
      Lost upper prior s' (done ++ rest)) := by
  induction rest generalizing s t done with
  | nil =>
    cases ran
    rw [List.append_nil]
    refine .inl ⟨fun before d after impossible => ?_,t,benign⟩
    simp at impossible
  | cons d rest ih =>
    rw [List.foldlM_cons] at ran
    obtain ⟨s₁,round,later⟩ := Option.bind_eq_some_iff.mp ran
    have splits : (∀ before d' after, d :: rest = before ++ d' :: after → Undisturbed upper prior (done ++ before) d') ↔
        Undisturbed upper prior done d ∧
        ∀ before d' after, rest = before ++ d' :: after → Undisturbed upper prior (done ++ [d] ++ before) d' := by
      constructor
      · intro all
        refine ⟨by simpa using all [] d rest rfl,?_⟩
        rintro before d' after rfl
        rw [← List.append_cons]
        exact all (d :: before) d' after rfl
      · rintro ⟨first,others⟩ before d' after split
        cases before with
        | nil =>
          cases split
          rw [List.append_nil]
          exact first
        | cons b before =>
          cases split
          rw [List.append_cons]
          exact others before d' after rfl
    have tracks₁ := round_tracks tracks round
    have rows₁ : (done ++ [d] ++ rest).Pairwise fun a b => ¬ SameRow upper prior a b := List.append_cons .. ▸ rows
    have regroup : done ++ d :: rest = done ++ [d] ++ rest := List.append_cons ..
    rw [splits,regroup]
    rcases benign.round tracks (fits d (List.mem_cons_self ..)) (apart_of_pairwise rows) round with
      ⟨undisturbed,t',after⟩ | ⟨disturbed,lost⟩
    · rcases ih tracks₁ after (fun d' member => fits d' (List.mem_cons_of_mem _ member)) rows₁ later with
        ⟨others,final⟩ | ⟨others,lost⟩
      · exact .inl ⟨⟨undisturbed,others⟩,final⟩
      · exact .inr ⟨fun all => others all.2,lost⟩
    · exact .inr ⟨fun all => disturbed all.1,lost.run tracks₁ rows₁ later⟩

variable (upper) in
/-- Whatever carries its values in the tables fits their columns. -/
theorem fits_of_stored (stored : Stored upper prior t d) : (rateValues d).Fits := by
  obtain ⟨i,k,-,-,rate⟩ := stored_iff.mp stored
  exact t.fits _ _ rate

variable (upper) in
/-- Two snapshots of one row are stored only when their values agree. -/
theorem values_of_sameRow {a b : NormalizedFundingData} (same : SameRow upper prior a b) (storedA : Stored upper prior t a)
    (storedB : Stored upper prior t b) : rateValues a = rateValues b := by
  obtain ⟨time,exchange,symbol⟩ := same
  rw [Stored,storedValues,time,exchange,symbol] at storedA
  exact Option.some.inj (storedA.symm.trans storedB)

theorem Benign.persisted {tokens exchanges : List String} {snapshots : List NormalizedFundingData}
    (benign : Benign upper prior s t snapshots exchanges tokens) : Persisted upper prior snapshots t s.inserted := by
  refine ⟨benign.stored,?_⟩
  rw [benign.counted,eq_comm,List.countP_eq_length]
  exact fun d member => decide_eq_true (benign.stored d member)

theorem Lost.not_persisted {snapshots : List NormalizedFundingData} (lost : Lost upper prior s snapshots)
    (outcome : s.session.outcome Tables.write = some t) : ¬ Persisted upper prior snapshots t s.inserted := by
  intro persisted
  rcases lost with ⟨j,member,doomed⟩ | short
  · exact doomed.dropped t outcome (persisted.stored j member)
  · have all := List.countP_eq_length.mpr fun d member => decide_eq_true (persisted.stored d member)
    rw [persisted.counted,all] at short
    exact lt_irrefl _ short

/-- Whenever a run returns: a list that is persistable is persisted, and where no two of
    its snapshots are the same row with the same values, only such a list is. -/
theorem persistToDb_persisted (upper : String → String) {db : Database} {snapshots : List NormalizedFundingData}
    {tables : Tables} {logged : ℕ} (returned : persistToDb upper db snapshots = some (tables,logged)) :
    (Persistable upper db.tables snapshots → Persisted upper db.tables snapshots tables logged) ∧
    ((snapshots.Pairwise fun a b => SameRow upper db.tables a b → rateValues a ≠ rateValues b) →
      Persisted upper db.tables snapshots tables logged → Persistable upper db.tables snapshots) := by
  rw [persistToDb] at returned
  split at returned
  · next empty =>
    subst empty
    cases returned
    refine ⟨fun _ => ⟨?_,rfl⟩,fun _ _ => ⟨?_,List.Pairwise.nil,?_⟩⟩
    · intro d impossible
      cases impossible
    · intro d impossible
      cases impossible
    · intro done d rest impossible
      simp at impossible
  · obtain ⟨s,ran,committed⟩ := Option.bind_eq_some_iff.mp returned
    obtain ⟨t,outcome,result⟩ := Option.bind_eq_some_iff.mp committed
    cases result
    rw [Session.commit_eq_outcome] at outcome
    have run := fun fits rows => (start_benign upper db).run (start_tracks upper db) fits rows ran
    constructor
    · intro persistable
      rcases run persistable.fits persistable.rows with ⟨-,t',benign⟩ | ⟨disturbed,-⟩
      · obtain rfl : tables = t' := Option.some.inj (outcome.symm.trans benign.outcome)
        exact benign.persisted
      · exact absurd persistable.undisturbed disturbed
    · intro distinguished persisted
      have fits : ∀ d ∈ snapshots, (rateValues d).Fits := fun d member => fits_of_stored upper (persisted.stored d member)
      have rows : snapshots.Pairwise fun a b => ¬ SameRow upper db.tables a b := by
        refine distinguished.imp_of_mem ?_
        intro a b memberA memberB differ same
        exact differ same (values_of_sameRow upper same (persisted.stored a memberA) (persisted.stored b memberB))
      rcases run fits rows with ⟨undisturbed,-⟩ | ⟨-,lost⟩
      · exact ⟨fits,rows,undisturbed⟩
      · exact absurd persisted (lost.not_persisted outcome)

/-- Tokens that are their own upper case are persisted whatever the tables hold. -/
theorem persistable_of_upper (prior : Tables) {snapshots : List NormalizedFundingData}
    (canonical : ∀ d ∈ snapshots, upper d.token = d.token) (short : ∀ d ∈ snapshots, d.token.length ≤ 32)
    (fits : ∀ d ∈ snapshots, (rateValues d).Fits)
    (keys : snapshots.Pairwise fun a b => ¬ (a.exchange = b.exchange ∧ a.token = b.token)) :
    Persistable upper prior snapshots := by
  have symbol : ∀ d ∈ snapshots, symbolOf upper prior d.token = d.token := by
    intro d member
    rw [symbolOf,canonical d member,ite_self]
  refine ⟨fits,keys.imp_of_mem ?_,?_⟩
  · rintro a b memberA memberB differ ⟨-,exchange,token⟩
    rw [symbol a memberA,symbol b memberB] at token
    exact differ ⟨exchange,token⟩
  · rintro done d rest rfl
    have own := canonical d (by simp)
    by_cases seen : ∃ j ∈ done, j.token = d.token
    · exact .inr (.inl seen)
    · cases known : prior.tokens.get? d.token with
      | some i => exact .inl ⟨i,known⟩
      | none =>
        refine .inr (.inr (.inr ⟨own.symm ▸ known,own.symm ▸ short d (by simp),fun j member _ same => seen ⟨j,member,?_⟩⟩))
        rw [canonical j (List.mem_append_left _ member),own] at same
        exact same

/-- So are the latest snapshots of every run of the normalizer. -/
theorem latest_persistable (prior : Tables) (staleAfter : ℚ) (ops : List DataNormalizer.Op)
    (canonical : ∀ d ∈ (DataNormalizer.run staleAfter ops).getAllLatest, upper d.token = d.token)
    (short : ∀ d ∈ (DataNormalizer.run staleAfter ops).getAllLatest, d.token.length ≤ 32)
    (fits : ∀ d ∈ (DataNormalizer.run staleAfter ops).getAllLatest, (rateValues d).Fits) :
    Persistable upper prior (DataNormalizer.run staleAfter ops).getAllLatest := by
  have nodup := (DataNormalizer.run_coherent staleAfter ops).latest_nodup
  refine persistable_of_upper prior canonical short fits ((List.pairwise_map.mp nodup).imp ?_)
  rintro a b differ ⟨exchange,token⟩
  exact differ (by rw [exchange,token])

/-- Hyperliquid is known, and an earlier run has created its token kPEPE. -/
def pepeTables : Tables := ((Tables.empty.addExchange "hyperliquid" 1).bind fun t => t.addToken "KPEPE" 1).getD .empty
def pepeDatabase : Database where
  tables := pepeTables
  nextExchange := 2
  nextToken := 2
  exchangesAhead := by
    have below : ∀ e ∈ pepeTables.exchanges.entries, e.2 < 2 := by decide +kernel
    exact fun slug i found => below (slug,i) ((Dict.mem_entries_iff _ _ _).mpr found)
  tokensAhead := by
    have below : ∀ e ∈ pepeTables.tokens.entries, e.2 < 2 := by decide +kernel
    exact fun symbol i found => below (symbol,i) ((Dict.mem_entries_iff _ _ _).mpr found)

def hyperliquidRecord (token : String) : NormalizedFundingData where
  exchange := "hyperliquid"
  token := token
  symbol := token
  fundingRate := 1 / 80000
  fundingRate8h := 1 / 10000
  fundingApr := 1095 / 100
  fundingIntervalHours := 1
  nextFundingTime := some 1700002800000
  predictedRate := none
  markPrice := 100
  indexPrice := 100
  openInterestUsd := 5000
  volume24hUsd := 1000
  priceSpreadPct := 0
  makerFee := 1 / 100
  takerFee := 35 / 1000
  timestamp := 1700000000000
  isLive := true

/-- The token kPEPE is created again, in vain, and the rollback takes BTC with it. The run
    still logs two snapshots. -/
theorem kPepeLast_not_persisted : ∃ tables,
    persistToDb asciiUpper pepeDatabase [hyperliquidRecord "BTC",hyperliquidRecord "kPEPE"] = some (tables,2) ∧
    ¬ Persisted asciiUpper pepeTables [hyperliquidRecord "BTC",hyperliquidRecord "kPEPE"] tables 2 := by
  have result : (persistToDb asciiUpper pepeDatabase [hyperliquidRecord "BTC",hyperliquidRecord "kPEPE"]).map
      (fun r => (r.2,decide (Stored asciiUpper pepeTables r.1 (hyperliquidRecord "BTC")))) = some (2,false) := by
    decide +kernel
  obtain ⟨⟨tables,logged⟩,returned,same⟩ := Option.map_eq_some_iff.mp result
  obtain ⟨rfl,lost⟩ := Prod.mk.inj same
  refine ⟨tables,returned,fun persisted => ?_⟩
  exact of_decide_eq_false lost (persisted.stored _ (List.mem_cons_self ..))

/-- With kPEPE first the rollback has nothing to lose. -/
theorem kPepeFirst_persisted : ∃ tables logged,
    persistToDb asciiUpper pepeDatabase [hyperliquidRecord "kPEPE",hyperliquidRecord "BTC"] = some (tables,logged) ∧
    Persisted asciiUpper pepeTables [hyperliquidRecord "kPEPE",hyperliquidRecord "BTC"] tables logged := by
  have returns : (persistToDb asciiUpper pepeDatabase [hyperliquidRecord "kPEPE",hyperliquidRecord "BTC"]).isSome = true := by
    decide +kernel
  obtain ⟨⟨tables,logged⟩,returned⟩ := Option.isSome_iff_exists.mp returns
  refine ⟨tables,logged,returned,(persistToDb_persisted asciiUpper returned).1 ⟨by decide +kernel,by decide +kernel,?_⟩⟩
  intro done d rest split
  obtain _ | ⟨a,_ | ⟨b,done⟩⟩ := done
  · cases split
    refine .inr (.inr (.inl ⟨⟨1,by decide +kernel⟩,⟨1,by decide +kernel⟩,fun j member => ?_⟩))
    cases member
  · cases split
    exact .inr (.inr (.inr ⟨by decide +kernel,by decide +kernel,by decide +kernel⟩))
  · simp at split

end FundingRadar.FundingService
