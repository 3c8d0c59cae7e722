import FundingRadar.FundingData
import FundingRadar.Symbols
import FundingRadar.Tables

/-!
`_persist_to_db`: one session writes every latest snapshot and creates exchanges and
tokens on the way. A token is looked up as it is spelled and created in upper case;
a creation that fails rolls the whole session back, while the ids that the run has
looked up or created so far stay cached. `upper` stands for the string method.
-/
namespace FundingRadar

/-- The tables with the sequences of their ids, which are ahead of every id. -/
structure Database where
  tables : Tables
  nextExchange : ℤ
  nextToken : ℤ
  exchangesAhead : ∀ slug i, tables.exchanges.get? slug = some i → i < nextExchange
  tokensAhead : ∀ symbol i, tables.tokens.get? symbol = some i → i < nextToken

namespace FundingService
variable (upper : String → String)

/-- The numbers of the row of a snapshot. -/
def rateValues (d : NormalizedFundingData) : RateValues where
  fundingRate := d.fundingRate
  fundingRate8h := d.fundingRate8h
  fundingApr := d.fundingApr
  markPrice := d.markPrice
  indexPrice := d.indexPrice
  openInterestUsd := d.openInterestUsd
  volume24hUsd := d.volume24hUsd
  priceSpreadPct := d.priceSpreadPct

/-- `datetime.fromtimestamp`, for the years 1 to 9999; times are milliseconds. -/
def fromTimestamp (ms : ℤ) : Option ℤ := if -62135596800000 ≤ ms ∧ ms ≤ 253402300799999 then some ms else none

/-- The state of the loop: the session, the sequences of the database, the ids that the
    run knows, and the counter. -/
structure Persisting where
  session : Session Tables Tables.Write
  nextExchange : ℤ
  nextToken : ℤ
  exchanges : Dict String ℤ
  tokens : Dict String ℤ
  inserted : ℕ

def start (db : Database) : Persisting :=
  ⟨.start db.tables,db.nextExchange,db.nextToken,db.tables.exchanges,db.tables.tokens,0⟩

/-- "Auto-create exchange if missing"; `none` is an exception. -/
def autoCreateExchange (s : Persisting) (exchange : String) : Option (Persisting × ℤ) :=
  match s.exchanges.get? exchange with
  | some id => some (s,id)
  | none =>
    match (s.session.stage (.exchange exchange s.nextExchange)).flush Tables.write with
    | none => none
    | some session =>
      some ({ s with
        session := session
        nextExchange := s.nextExchange + 1
        exchanges := s.exchanges.insert exchange s.nextExchange },s.nextExchange)

/-- "Auto-create token if missing". Any exception of the flush is taken for a race; without
    an id the snapshot is skipped. -/
def autoCreateToken (s : Persisting) (token : String) : Persisting × Option ℤ :=
  match s.tokens.get? token with
  | some id => (s,some id)
  | none =>
    match (s.session.stage (.token (upper token) s.nextToken)).flush Tables.write with
    | some session =>
      ({ s with
        session := session
        nextToken := s.nextToken + 1
        tokens := s.tokens.insert token s.nextToken },some s.nextToken)
    | none =>
      let rolledBack := { s with session := s.session.rollback,nextToken := s.nextToken + 1 }
      match rolledBack.session.view.tokens.get? (upper token) with
      | some id => ({ rolledBack with tokens := rolledBack.tokens.insert token id },some id)
      | none => (rolledBack,none)

/-- `session.merge(record)`, counted. -/
def merge (s : Persisting) (time exchangeId tokenId : ℤ) (values : RateValues) : Persisting :=
  { s with session := s.session.stage (.rate time exchangeId tokenId values),inserted := s.inserted + 1 }

/-- One round of the loop. -/
def persistSnapshot (s : Persisting) (d : NormalizedFundingData) : Option Persisting :=
  match autoCreateExchange s d.exchange with
  | none => none
  | some (s,exchangeId) =>
    match autoCreateToken upper s d.token with
    | (s,none) => some s
    | (s,some tokenId) => (fromTimestamp d.timestamp).map fun time => merge s time exchangeId tokenId (rateValues d)

/-- `_persist_to_db`: the tables it leaves and the number it logs, or `none` where it raises. -/
def persistToDb (db : Database) (snapshots : List NormalizedFundingData) : Option (Tables × ℕ) :=
  if snapshots = [] then some (db.tables,0)
  else do
    let s ← snapshots.foldlM (persistSnapshot upper) (start db)
    let tables ← s.session.commit Tables.write
    return (tables,s.inserted)

/-! ### What a run should leave -/

/-- The symbol of a token: its own spelling where the tables had it, else the upper case. -/
def symbolOf (prior : Tables) (token : String) : String :=
  if (prior.tokens.get? token).isSome then token else upper token

/-- What `funding_rates` holds for a snapshot. -/
def storedValues (prior t : Tables) (d : NormalizedFundingData) : Option RateValues := do
  let exchangeId ← t.exchanges.get? d.exchange
  let tokenId ← t.tokens.get? (symbolOf upper prior d.token)
  t.rates.get? (d.timestamp,exchangeId,tokenId)
/-- The row of a snapshot is there and carries its values. -/
def Stored (prior t : Tables) (d : NormalizedFundingData) : Prop := storedValues upper prior t d = some (rateValues d)
instance (prior t : Tables) (d : NormalizedFundingData) : Decidable (Stored upper prior t d) :=
  inferInstanceAs (Decidable (_ = _))

/-- Every snapshot is stored, and the logged number counts those that are. -/
structure Persisted (prior : Tables) (snapshots : List NormalizedFundingData) (t : Tables) (logged : ℕ) : Prop where
  stored : ∀ d ∈ snapshots, Stored upper prior t d
  counted : logged = snapshots.countP fun d => decide (Stored upper prior t d)

/-- Two snapshots share the key of a row. -/
def SameRow (prior : Tables) (a b : NormalizedFundingData) : Prop :=
  a.timestamp = b.timestamp ∧ a.exchange = b.exchange ∧ symbolOf upper prior a.token = symbolOf upper prior b.token

instance (prior : Tables) (a b : NormalizedFundingData) : Decidable (SameRow upper prior a b) :=
  inferInstanceAs (Decidable (_ ∧ _))

/-- After the snapshots `done`, the token of `d` gets its id without a loss: it is known;
    or its upper case is known, and the rollback loses nothing that the tables did not
    have before the run; or it is new in every spelling. -/
def Undisturbed (prior : Tables) (done : List NormalizedFundingData) (d : NormalizedFundingData) : Prop :=
  (∃ i, prior.tokens.get? d.token = some i) ∨ (∃ j ∈ done, j.token = d.token) ∨
  (∃ i, prior.tokens.get? (upper d.token) = some i) ∧ (∃ i, prior.exchanges.get? d.exchange = some i) ∧
    (∀ j ∈ done, Stored upper prior prior j) ∨
  prior.tokens.get? (upper d.token) = none ∧ (upper d.token).length ≤ 32 ∧
    ∀ j ∈ done, prior.tokens.get? j.token = none → upper j.token ≠ upper d.token

/-- The lists that a run persists. -/
structure Persistable (prior : Tables) (snapshots : List NormalizedFundingData) : Prop where
  fits : ∀ d ∈ snapshots, (rateValues d).Fits
  rows : snapshots.Pairwise fun a b => ¬ SameRow upper prior a b
  undisturbed : ∀ done d rest, snapshots = done ++ d :: rest → Undisturbed upper prior done d

variable {upper} {prior t : Tables} {s s' : Persisting} {done : List NormalizedFundingData} {d : NormalizedFundingData}

theorem stored_iff : Stored upper prior t d ↔ ∃ i k, t.exchanges.get? d.exchange = some i ∧
    t.tokens.get? (symbolOf upper prior d.token) = some k ∧ t.rates.get? (d.timestamp,i,k) = some (rateValues d) := by
  simp only [Stored,storedValues,bind,Option.bind_eq_some_iff]
  constructor
  · rintro ⟨i,exchange,k,token,rate⟩
    exact ⟨i,k,exchange,token,rate⟩
  · rintro ⟨i,k,exchange,token,rate⟩
    exact ⟨i,exchange,k,token,rate⟩

theorem symbolOf_of_prior {k : String} {i : ℤ} (known : prior.tokens.get? k = some i) : symbolOf upper prior k = k := by
  rw [symbolOf,known]
  rfl
theorem symbolOf_of_new {k : String} (new : prior.tokens.get? k = none) : symbolOf upper prior k = upper k := by
  rw [symbolOf,new]
  rfl

/-! ### Cached ids -/

/-- Every id lies below the sequence. -/
def Ahead (rows : Dict String ℤ) (limit : ℤ) : Prop := ∀ name i, rows.get? name = some i → i < limit
/-- A cached id stands in the rows for no other name than the one it was cached for. -/
def Means (name : String → String) (cache rows : Dict String ℤ) : Prop :=
  ∀ k other i, cache.get? k = some i → rows.get? other = some i → other = name k

section
variable {name : String → String} {cache rows : Dict String ℤ} {limit i : ℤ}

theorem Ahead.next (ahead : Ahead rows limit) : Ahead rows (limit + 1) :=
  fun k i found => lt_trans (ahead k i found) (lt_add_one limit)
theorem Ahead.insert (ahead : Ahead rows limit) (k : String) : Ahead (rows.insert k limit) (limit + 1) := by
  intro other i found
  rw [Dict.get?_insert] at found
  by_cases same : other = k
  · rw [if_pos same] at found
    cases found
    exact lt_add_one limit
  · rw [if_neg same] at found
    exact ahead.next other i found
theorem Ahead.insertOld (ahead : Ahead rows limit) (k : String) (below : i < limit) : Ahead (rows.insert k i) limit := by
  intro other j found
  rw [Dict.get?_insert] at found
  by_cases same : other = k
  · rw [if_pos same] at found
    cases found
    exact below
  · rw [if_neg same] at found
    exact ahead other j found

/-- The next id of the sequence stands for nothing yet. -/
theorem Means.cacheFresh (means : Means name cache rows) (ahead : Ahead rows limit) (k : String) :
    Means name (cache.insert k limit) rows := by
  intro k' other i cached found
  rw [Dict.get?_insert] at cached
  by_cases same : k' = k
  · rw [if_pos same] at cached
    cases cached
    exact absurd (ahead other limit found) (lt_irrefl limit)
  · rw [if_neg same] at cached
    exact means k' other i cached found
theorem Means.create (means : Means name cache rows) (cached : Ahead cache limit) (ahead : Ahead rows limit) (k : String) :
    Means name (cache.insert k limit) (rows.insert (name k) limit) := by
  intro k' other i inCache found
  rw [Dict.get?_insert] at inCache found
  by_cases same : k' = k
  · subst same
    rw [if_pos rfl] at inCache
    cases inCache
    by_cases named : other = name k'
    · exact named
    · rw [if_neg named] at found
      exact absurd (ahead other limit found) (lt_irrefl limit)
  · rw [if_neg same] at inCache
    by_cases named : other = name k
    · rw [if_pos named] at found
      cases found
      exact absurd (cached k' limit inCache) (lt_irrefl limit)
    · rw [if_neg named] at found
      exact means k' other i inCache found
theorem Means.cacheFound (means : Means name cache rows)
    (ids : ∀ a b i, rows.get? a = some i → rows.get? b = some i → a = b) {k : String} (found : rows.get? (name k) = some i) :
    Means name (cache.insert k i) rows := by
  intro k' other j cached also
  rw [Dict.get?_insert] at cached
  by_cases same : k' = k
  · subst same
    rw [if_pos rfl] at cached
    cases cached
    exact ids other (name k') i also found
  · rw [if_neg same] at cached
    exact means k' other j cached also
end

/-! ### The steps of a round -/

inductive ExchangeStep (s : Persisting) (e : String) : Persisting → ℤ → Prop
  | cached {i : ℤ} (known : s.exchanges.get? e = some i) : ExchangeStep s e s i
  | created {session : Session Tables Tables.Write} {t t' : Tables} (unknown : s.exchanges.get? e = none)
      (base : session.base = s.session.base) (before : s.session.outcome Tables.write = some t)
      (added : t.addExchange e s.nextExchange = some t') (after : session.outcome Tables.write = some t') :
      ExchangeStep s e { s with
        session := session
        nextExchange := s.nextExchange + 1
        exchanges := s.exchanges.insert e s.nextExchange } s.nextExchange

variable (upper) in
inductive TokenStep (s : Persisting) (k : String) : Persisting → Option ℤ → Prop
  | cached {i : ℤ} (known : s.tokens.get? k = some i) : TokenStep s k s (some i)
  | created {session : Session Tables Tables.Write} {t t' : Tables} (unknown : s.tokens.get? k = none)
      (base : session.base = s.session.base) (before : s.session.outcome Tables.write = some t)
      (added : t.addToken (upper k) s.nextToken = some t') (after : session.outcome Tables.write = some t') :
      TokenStep s k { s with
        session := session
        nextToken := s.nextToken + 1
        tokens := s.tokens.insert k s.nextToken } (some s.nextToken)
  | found {i : ℤ} (unknown : s.tokens.get? k = none)
      (refused : ∀ t, s.session.outcome Tables.write = some t → t.addToken (upper k) s.nextToken = none)
      (row : s.session.base.tokens.get? (upper k) = some i) :
      TokenStep s k { s with
        session := s.session.rollback
        nextToken := s.nextToken + 1
        tokens := s.tokens.insert k i } (some i)
  | missing (unknown : s.tokens.get? k = none)
      (refused : ∀ t, s.session.outcome Tables.write = some t → t.addToken (upper k) s.nextToken = none)
      (noRow : s.session.base.tokens.get? (upper k) = none) :
      TokenStep s k { s with session := s.session.rollback,nextToken := s.nextToken + 1 } none

theorem autoCreateExchange_step {e : String} {i : ℤ} (done : autoCreateExchange s e = some (s',i)) : ExchangeStep s e s' i := by
  rw [autoCreateExchange] at done
  split at done
  · next known =>
    cases done
    exact .cached known
  · next unknown =>
    split at done
    · cases done
    · next session flushed =>
      cases done
      obtain ⟨base,t',staged,after⟩ := Session.flush_eq_some flushed
      rw [Session.outcome_stage,Option.bind_eq_some_iff] at staged
      obtain ⟨t,before,added⟩ := staged
      exact .created unknown base before added after

variable (upper) in
theorem autoCreateToken_step (s : Persisting) (k : String) :
    TokenStep upper s k (autoCreateToken upper s k).1 (autoCreateToken upper s k).2 := by
  rw [autoCreateToken]
  split
  · next known => exact .cached known
  · next unknown =>
    split
    · next session flushed =>
      obtain ⟨base,t',staged,after⟩ := Session.flush_eq_some flushed
      rw [Session.outcome_stage,Option.bind_eq_some_iff] at staged
      obtain ⟨t,before,added⟩ := staged
      exact .created unknown base before added after
    · next failed =>
      have refused : ∀ t, s.session.outcome Tables.write = some t → t.addToken (upper k) s.nextToken = none := by
        intro t before
        rw [Session.flush_eq_none_iff,Session.outcome_stage,before] at failed
        exact failed
      simp only [Session.view_rollback]
      split
      · next row => exact .found unknown refused row
      · next noRow => exact .missing unknown refused noRow

/-- A round that goes on: the exchange, the token and, where it has an id, the row. -/
theorem persistSnapshot_eq_some (round : persistSnapshot upper s d = some s') :
    ∃ s₁ i, ExchangeStep s d.exchange s₁ i ∧
      (TokenStep upper s₁ d.token s' none ∨
        ∃ s₂ k, TokenStep upper s₁ d.token s₂ (some k) ∧ s' = merge s₂ d.timestamp i k (rateValues d)) := by
  rw [persistSnapshot] at round
  split at round
  · cases round
  · next s₁ i created =>
    refine ⟨s₁,i,autoCreateExchange_step created,?_⟩
    have step := autoCreateToken_step upper s₁ d.token
    split at round
    · next s₂ result =>
      cases round
      rw [result] at step
      exact .inl step
    · next s₂ k result =>
      rw [result] at step
      obtain ⟨time,converted,rfl⟩ := Option.map_eq_some_iff.mp round
      rw [fromTimestamp] at converted
      split at converted
      · cases converted
        exact .inr ⟨s₂,k,step,rfl⟩
      · cases converted

end FundingService
end FundingRadar
