import FundingRadar.RateTables
import FundingRadar.WriteBuffer

/-!
`BackfillService` with the database it writes to and its two memo tables, which are keyed by
the name as it is spelled while the tables are keyed by it in upper case. A run that meets no
error and can read its records stores them as if there were no batches, and every run is one
that the replies of a database allow (`backfill_replies`). `upper` stands for the string
method.
-/
namespace FundingRadar
open Backfill

/-- The database, `_exchange_cache`, and `_token_cache`. -/
structure BackfillService where
  db : Postgres
  exchangeCache : Dict String ℤ
  tokenCache : Dict String ℤ

namespace BackfillService
variable (upper : String → String) (server : Server) (size : ℕ)

/-- `_ensure_exchange`, which gives what `Backfill.ensureExchange` makes of the reply. -/
def ensureExchange (s : BackfillService) (slug : String) : BackfillService × ExchangeReply :=
  match s.exchangeCache.get? slug with
  | some id => (s,.cached id)
  | none =>
    match s.db.selectExchange server slug with
    | (db,none) => ({ s with db := db },.raised)
    | (db,some (some id)) => ({ s with db := db, exchangeCache := s.exchangeCache.insert slug id },.selected id)
    | (db,some none) =>
      match db.createExchange server slug with
      | (db,none) => ({ s with db := db },.raised)
      | (db,some id) => ({ s with db := db, exchangeCache := s.exchangeCache.insert slug id },.inserted id)
/-- `_ensure_token`, which gives what `Backfill.ensureToken` makes of the reply. The symbol
    is cached as it is spelled. -/
def ensureToken (s : BackfillService) (symbol : String) : BackfillService × TokenReply :=
  match s.tokenCache.get? symbol with
  | some id => (s,.cached id)
  | none =>
    match s.db.selectToken server (upper symbol) with
    | (db,none) => ({ s with db := db },.raised)
    | (db,some (some id)) => ({ s with db := db, tokenCache := s.tokenCache.insert symbol id },.selected id)
    | (db,some none) =>
      match db.createToken server (upper symbol) with
      | (db,some id) => ({ s with db := db, tokenCache := s.tokenCache.insert symbol id },.inserted id)
      | (db,none) =>
        match db.selectToken server (upper symbol) with
        | (db,none) => ({ s with db := db },.raised)
        | (db,some none) => ({ s with db := db },.conflict none)
        | (db,some (some id)) => ({ s with db := db, tokenCache := s.tokenCache.insert symbol id },.conflict (some id))

/-- The service in the loop over the records. -/
structure Intake where
  service : BackfillService
  progress : Progress

/-- `_upsert_batch`, and the batch cleared. -/
def upsertBatch (st : Intake) : Intake × Option BackfillError :=
  let passed := st.progress.passed ++ [st.progress.batch]
  match st.service.db.execute server (fun t => t.insertRates st.progress.batch) with
  | (db,none) => (⟨{ st.service with db := db },{ st.progress with passed := passed }⟩,some .database)
  | (db,some n) =>
    (⟨{ st.service with db := db },{ st.progress with batch := [], passed := passed, inserted := st.progress.inserted + n }⟩,none)

/-- The body of the loop over the records. -/
def takeRecord (exchangeId : ℤ) (st : Intake) (r : NormalizedFundingData Scalar) : Intake × Option BackfillError :=
  match r.token.asStr with
  | .error e => (st,some (.py e))
  | .ok symbol =>
    let (service,reply) := st.service.ensureToken upper server symbol
    match Backfill.ensureToken reply with
    | .error e => (⟨service,st.progress⟩,some e)
    | .ok none => (⟨service,{ st.progress with seen := st.progress.seen + 1 }⟩,none)
    | .ok (some tokenId) =>
      if inRange r.timestamp then
        let added : Intake := ⟨service,{ st.progress with
          seen := st.progress.seen + 1
          batch := st.progress.batch ++ [rowOf exchangeId tokenId r] }⟩
        if added.progress.batch.length ≥ size then upsertBatch server added else (added,none)
      else (⟨service,st.progress⟩,some (.py .valueError))

/-- The last batch, if it is not empty. -/
def finish (st : Intake) : Intake × Option BackfillError := if st.progress.batch = [] then (st,none) else upsertBatch server st

/-- The loop over the records of the collector, and what follows it. -/
def store (exchangeId : ℤ) (accepted : Bool) (s : BackfillService) (records : List (NormalizedFundingData Scalar))
    (ending : Ending) : BackfillService × Outcome :=
  match forEach (takeRecord upper server size exchangeId) ⟨s,⟨0,[],[],0⟩⟩ records with
  | (st,some e) => (st.service,⟨false,st.progress.passed,some (.error e)⟩)
  | (st,none) =>
    match ending with
    | .running => (st.service,⟨false,st.progress.passed,none⟩)
    | .raised e => (st.service,⟨false,st.progress.passed,some (.error (.py e))⟩)
    | .finished =>
      match finish server st with
      | (last,some e) => (last.service,⟨false,last.progress.passed,some (.error e)⟩)
      | (last,none) =>
        (last.service,
          if accepted then ⟨true,last.progress.passed,some (.ok last.progress.inserted)⟩
          else ⟨false,last.progress.passed,some (.error .redis)⟩)

/-- `backfill`, of a collector that yields records and ends for every range. -/
def backfill (s : BackfillService) (guards : Guards) (slug : String) (days : ℤ) (now : ℚ)
    (history : ℤ → ℤ → List (NormalizedFundingData Scalar) × Ending) : BackfillService × Outcome :=
  match (guards.get (guardKey slug days)).error with
  | some e => (s,⟨false,[],some (.error e)⟩)
  | none =>
    if Guarded guards slug days now then (s,⟨false,[],some (.ok 0)⟩)
    else if ¬ inRange (startMs now days) then (s,⟨false,[],some (.error (.py .valueError))⟩)
    else
      let (s,reply) := s.ensureExchange server slug
      match Backfill.ensureExchange reply with
      | .error e => (s,⟨false,[],some (.error e)⟩)
      | .ok none => (s,⟨false,[],some (.ok 0)⟩)
      | .ok (some id) =>
        let (records,ending) := history (startMs now days) (endMs now)
        store upper server size id (guards.set (guardKey slug days)) s records ending

/-! ### What a run is for -/

/-- The memo tables agree with the tables. -/
structure Agrees (s : BackfillService) : Prop where
  exchanges : ∀ slug id, s.exchangeCache.get? slug = some id → s.db.tables.exchanges.get? slug = some id
  tokens : ∀ symbol id, s.tokenCache.get? symbol = some id → s.db.tables.tokens.get? (upper symbol) = some id

/-- The token is a string, as the record declares, and there is a datetime for the time. -/
def Readable (r : NormalizedFundingData Scalar) : Prop := (∃ name, r.token = .str name) ∧ inRange r.timestamp
/-- The symbol under which the token of a record is kept. -/
def symbolOf (r : NormalizedFundingData Scalar) : Option String :=
  match r.token with
  | .str name => some (upper name)
  | _ => none
/-- The row of a record, with the ids that the tables have for its exchange and its token. -/
def rowIn (t : RateTables) (slug : String) (r : NormalizedFundingData Scalar) : Option Row := do
  let exchangeId ← t.exchanges.get? slug
  let symbol ← symbolOf upper r
  let tokenId ← t.tokens.get? symbol
  some (rowOf exchangeId tokenId r)

/-- Records stored one by one, without batches: the rows that were there stay, every other
    key gets the row of its first record, and the count is that of the new rows. -/
structure Stores (before after : RateTables) (slug : String) (records : List (NormalizedFundingData Scalar)) (n : ℕ) : Prop where
  known : ∀ r ∈ records, ∃ row, rowIn upper after slug r = some row
  rates : ∀ key, after.rates.get? key = (before.rates.get? key).or
    ((records.findSome? fun r => (rowIn upper after slug r).filter fun row => row.key = key).map Row.columns)
  counted : after.rates.entries.length = before.rates.entries.length + n
  tokensKept : ∀ symbol id, before.tokens.get? symbol = some id → after.tokens.get? symbol = some id
  tokensNew : ∀ symbol, before.tokens.get? symbol = none →
    ((∃ id, after.tokens.get? symbol = some id) ↔ ∃ r ∈ records, symbolOf upper r = some symbol)
  exchangesKept : ∀ other id, before.exchanges.get? other = some id → after.exchanges.get? other = some id
  exchangesNew : ∀ other, before.exchanges.get? other = none → ((∃ id, after.exchanges.get? other = some id) ↔ other = slug)

variable {upper server size} {s s' : BackfillService}

/-! ### The lookups -/

theorem Agrees.later (agrees : s.Agrees upper) {db : Postgres} (later : s.db.Later db) : Agrees upper { s with db := db } where
  exchanges slug id cached := later.tables.exchanges slug id (agrees.exchanges slug id cached)
  tokens symbol id cached := later.tables.tokens _ id (agrees.tokens symbol id cached)
theorem Agrees.cacheExchange (agrees : s.Agrees upper) {slug : String} {id : ℤ}
    (found : s.db.tables.exchanges.get? slug = some id) :
    Agrees upper { s with exchangeCache := s.exchangeCache.insert slug id } where
  exchanges other i cached := by
    rw [Dict.get?_insert] at cached
    split at cached
    · next same =>
      cases cached
      rw [same]
      exact found
    · exact agrees.exchanges other i cached
  tokens := agrees.tokens
theorem Agrees.cacheToken (agrees : s.Agrees upper) {symbol : String} {id : ℤ}
    (found : s.db.tables.tokens.get? (upper symbol) = some id) :
    Agrees upper { s with tokenCache := s.tokenCache.insert symbol id } where
  exchanges := agrees.exchanges
  tokens other i cached := by
    rw [Dict.get?_insert] at cached
    split at cached
    · next same =>
      cases cached
      rw [same]
      exact found
    · exact agrees.tokens other i cached

/-- A name that has the id now, and had it or was not there before; nothing else changed. -/
structure Ensured (before after : Dict String ℤ) (name : String) (id : ℤ) : Prop where
  found : after.get? name = some id
  others : after = before.setDefault name id

theorem ensured_of_found {names : Dict String ℤ} {name : String} {id : ℤ} (found : names.get? name = some id) :
    Ensured names names name id := by
  refine ⟨found,?_⟩
  rw [Dict.setDefault,found]
  rfl
theorem ensured_of_inserted {before after : Dict String ℤ} {name : String} {id fresh : ℤ} (absent : before.get? name = none)
    (inserted : after = before.insert name fresh) (found : after.get? name = some id) : Ensured before after name id := by
  refine ⟨found,?_⟩
  rw [inserted,Dict.get?_insert_self] at found
  cases found
  rw [inserted,Dict.setDefault,absent]
  rfl

theorem ensured_of_selected {names : RateTables → Dict String ℤ} {db db' : Postgres} {name : String} {id : ℤ}
    (selecting : db.execute server (fun t => some (t,(names t).get? name)) = (db',some (some id))) :
    Ensured (names db.tables) (names db'.tables) name id := by
  obtain ⟨tables,-,found⟩ := Postgres.execute_select selecting
  rw [tables]
  exact ensured_of_found found

/-- `_ensure_token`, whatever the database does; without an error it finds or creates the row. -/
theorem ensureToken_spec (agrees : s.Agrees upper) {symbol : String} {reply : TokenReply}
    (ran : s.ensureToken upper server symbol = (s',reply)) :
    s.db.Later s'.db ∧ s'.Agrees upper ∧
    (s'.db.errors = s.db.errors → ∃ id, Backfill.ensureToken reply = .ok (some id) ∧
      Ensured s.db.tables.tokens s'.db.tables.tokens (upper symbol) id ∧
      s'.db.tables.exchanges = s.db.tables.exchanges ∧ s'.db.tables.rates = s.db.tables.rates) := by
  have inserts : ∀ id (t t' : RateTables), t.insertToken (upper symbol) id = some t' → t.Extends t' :=
    fun id t t' inserted => RateTables.insertToken_extends inserted
  rw [ensureToken] at ran
  split at ran
  · next id cached =>
    cases ran
    exact ⟨.refl _,agrees,fun _ => ⟨id,rfl,ensured_of_found (agrees.tokens symbol id cached),rfl,rfl⟩⟩
  · split at ran
    · next db selecting =>
      cases ran
      have later := Postgres.select_later selecting
      have errors := (Postgres.execute_none selecting).2
      exact ⟨later,agrees.later later,fun same => by change db.errors = _ at same; omega⟩
    · next db id selecting =>
      cases ran
      have later := Postgres.select_later selecting
      obtain ⟨tables,-,-⟩ := Postgres.execute_select selecting
      have ensured := @ensured_of_selected server RateTables.tokens _ _ _ _ selecting
      exact ⟨later,(agrees.later later).cacheToken ensured.found,fun _ => ⟨id,rfl,ensured,congrArg _ tables,congrArg _ tables⟩⟩
    · next db selecting =>
      have laterSelect := Postgres.select_later selecting
      obtain ⟨tables,errors,absent⟩ := Postgres.execute_select selecting
      split at ran
      · next db' id creating =>
        cases ran
        have later := laterSelect.trans (Postgres.create_later inserts creating)
        obtain ⟨⟨fresh,inserted⟩,found,-⟩ := Postgres.create_some creating
        obtain ⟨-,tokens,exchanges,rates⟩ := RateTables.insertToken_eq_some inserted
        refine ⟨later,(agrees.later later).cacheToken found,fun _ => ⟨id,rfl,?_,?_,?_⟩⟩
        · exact ensured_of_inserted absent (by rw [tokens,tables]) found
        · exact exchanges.trans (congrArg _ tables)
        · exact rates.trans (congrArg _ tables)
      · next db' creating =>
        have laterCreate := laterSelect.trans (Postgres.create_later inserts creating)
        have more := (Postgres.create_none creating).2
        split at ran
        · next db'' again =>
          cases ran
          have later := laterCreate.trans (Postgres.select_later again)
          have errors' := (Postgres.select_later again).errors
          exact ⟨later,agrees.later later,fun same => by change db''.errors = _ at same; omega⟩
        · next db'' again =>
          cases ran
          have later := laterCreate.trans (Postgres.select_later again)
          have errors' := (Postgres.select_later again).errors
          exact ⟨later,agrees.later later,fun same => by change db''.errors = _ at same; omega⟩
        · next db'' id again =>
          cases ran
          have later := laterCreate.trans (Postgres.select_later again)
          have errors' := (Postgres.select_later again).errors
          have ensured := @ensured_of_selected server RateTables.tokens _ _ _ _ again
          exact ⟨later,(agrees.later later).cacheToken ensured.found,fun same => by change db''.errors = _ at same; omega⟩

/-- `_ensure_exchange`, whatever the database does. -/
theorem ensureExchange_spec (agrees : s.Agrees upper) {slug : String} {reply : ExchangeReply}
    (ran : s.ensureExchange server slug = (s',reply)) :
    s.db.Later s'.db ∧ s'.Agrees upper ∧
    (s'.db.errors = s.db.errors → ∃ id, Backfill.ensureExchange reply = .ok (some id) ∧
      Ensured s.db.tables.exchanges s'.db.tables.exchanges slug id ∧
      s'.db.tables.tokens = s.db.tables.tokens ∧ s'.db.tables.rates = s.db.tables.rates) := by
  have inserts : ∀ id (t t' : RateTables), t.insertExchange slug id = some t' → t.Extends t' :=
    fun id t t' inserted => RateTables.insertExchange_extends inserted
  rw [ensureExchange] at ran
  split at ran
  · next id cached =>
    cases ran
    exact ⟨.refl _,agrees,fun _ => ⟨id,rfl,ensured_of_found (agrees.exchanges slug id cached),rfl,rfl⟩⟩
  · split at ran
    · next db selecting =>
      cases ran
      have later := Postgres.select_later selecting
      have errors := (Postgres.execute_none selecting).2
      exact ⟨later,agrees.later later,fun same => by change db.errors = _ at same; omega⟩
    · next db id selecting =>
      cases ran
      have later := Postgres.select_later selecting
      obtain ⟨tables,-,-⟩ := Postgres.execute_select selecting
      have ensured := @ensured_of_selected server RateTables.exchanges _ _ _ _ selecting
      exact ⟨later,(agrees.later later).cacheExchange ensured.found,fun _ => ⟨id,rfl,ensured,congrArg _ tables,congrArg _ tables⟩⟩
    · next db selecting =>
      have laterSelect := Postgres.select_later selecting
      obtain ⟨tables,errors,absent⟩ := Postgres.execute_select selecting
      split at ran
      · next db' creating =>
        cases ran
        have later := laterSelect.trans (Postgres.create_later inserts creating)
        have more := (Postgres.create_none creating).2
        exact ⟨later,agrees.later later,fun same => by change db'.errors = _ at same; omega⟩
      · next db' id creating =>
        cases ran
        have later := laterSelect.trans (Postgres.create_later inserts creating)
        obtain ⟨⟨fresh,inserted⟩,found,-⟩ := Postgres.create_some creating
        obtain ⟨-,exchanges,tokens,rates⟩ := RateTables.insertExchange_eq_some inserted
        refine ⟨later,(agrees.later later).cacheExchange found,fun _ => ⟨id,rfl,?_,?_,?_⟩⟩
        · exact ensured_of_inserted absent (by rw [exchanges,tables]) found
        · exact tokens.trans (congrArg _ tables)
        · exact rates.trans (congrArg _ tables)

/-! ### The batches -/

/-- The part of the service that a batch is in front of. -/
def Intake.buffer (st : Intake) : WriteBuffer (Dict (ℤ × ℤ × ℤ) RateColumns) ((ℤ × ℤ × ℤ) × RateColumns) :=
  ⟨st.service.db.tables.rates,st.progress.batch.map fun row => (row.key,row.columns),st.progress.inserted⟩

/-- `_upsert_batch`, whatever the database does; without an error it flushes the buffer. -/
theorem upsertBatch_spec {st st' : Intake} {raised : Option BackfillError} (agrees : st.service.Agrees upper)
    (ran : upsertBatch server st = (st',raised)) :
    st.service.db.Later st'.service.db ∧ st'.service.Agrees upper ∧
    (st'.service.db.errors = st.service.db.errors → raised = none ∧ st'.buffer = st.buffer.flush .firstWins ∧
      st'.service.db.tables.exchanges = st.service.db.tables.exchanges ∧
      st'.service.db.tables.tokens = st.service.db.tables.tokens) := by
  rw [upsertBatch] at ran
  split at ran
  · next db inserting =>
    cases ran
    obtain ⟨tables,errors⟩ := Postgres.execute_none inserting
    have later : st.service.db.Later db := ⟨by rw [tables]; exact .refl _,by omega⟩
    exact ⟨later,agrees.later later,fun same => by change db.errors = _ at same; omega⟩
  · next db n inserting =>
    cases ran
    obtain ⟨inserted,errors⟩ := Postgres.execute_some inserting
    obtain ⟨rates,count,exchanges,tokens⟩ := RateTables.insertRates_eq_some inserted
    have later : st.service.db.Later db := ⟨RateTables.extends_of_eq exchanges tokens,errors.ge⟩
    refine ⟨later,agrees.later later,fun _ => ⟨rfl,?_,exchanges,tokens⟩⟩
    rw [Intake.buffer,count]
    dsimp only
    rw [rates]
    rfl

/-! ### The loop over the records -/

theorem rowIn_eq_some {t : RateTables} {slug : String} {r : NormalizedFundingData Scalar} {row : Row} :
    rowIn upper t slug r = some row ↔ ∃ e symbol k, t.exchanges.get? slug = some e ∧ symbolOf upper r = some symbol ∧
      t.tokens.get? symbol = some k ∧ row = rowOf e k r := by
  unfold rowIn
  simp only [bind,Option.bind_eq_some_iff,Option.some.injEq]
  constructor
  · rintro ⟨e,exchange,symbol,named,k,token,rfl⟩
    exact ⟨e,symbol,k,exchange,named,token,rfl⟩
  · rintro ⟨e,symbol,k,exchange,named,token,rfl⟩
    exact ⟨e,exchange,symbol,named,k,token,rfl⟩
/-- A row keeps its ids. -/
theorem rowIn_extends {t t' : RateTables} (grows : t.Extends t') {slug : String} {r : NormalizedFundingData Scalar} {row : Row}
    (found : rowIn upper t slug r = some row) : rowIn upper t' slug r = some row := by
  obtain ⟨e,symbol,k,exchange,named,token,rfl⟩ := rowIn_eq_some.mp found
  exact rowIn_eq_some.mpr ⟨e,symbol,k,grows.exchanges _ _ exchange,named,grows.tokens _ _ token,rfl⟩

/-- What the loop has done when it has taken some records. -/
structure Taken (upper : String → String) (first : RateTables) (slug : String) (records : List (NormalizedFundingData Scalar))
    (st : Intake) : Prop where
  exchanges : st.service.db.tables.exchanges = first.exchanges
  tokensKept : ∀ symbol id, first.tokens.get? symbol = some id → st.service.db.tables.tokens.get? symbol = some id
  tokensNew : ∀ symbol, first.tokens.get? symbol = none →
    ((∃ id, st.service.db.tables.tokens.get? symbol = some id) ↔ ∃ r ∈ records, symbolOf upper r = some symbol)
  rows : ∃ rows, List.Forall₂ (fun r row => rowIn upper st.service.db.tables slug r = some row) records rows ∧
    WriteBuffer.Since .firstWins first.rates (rows.map fun row => (row.key,row.columns)) st.buffer

variable {first : RateTables} {slug : String} {records : List (NormalizedFundingData Scalar)} {st st' : Intake}

theorem taken_nothing (s : BackfillService) : Taken upper s.db.tables slug [] ⟨s,⟨0,[],[],0⟩⟩ where
  exchanges := rfl
  tokensKept _ _ found := found
  tokensNew symbol absent := by
    refine iff_of_false ?_ ?_
    · rintro ⟨id,found⟩
      rw [absent] at found
      cases found
    · rintro ⟨r,impossible,-⟩
      cases impossible
  rows := ⟨[],.nil,WriteBuffer.since_start _⟩

/-- A batch that is written leaves what has been taken. -/
theorem Taken.flush (taken : Taken upper first slug records st)
    (exchanges : st'.service.db.tables.exchanges = st.service.db.tables.exchanges)
    (tokens : st'.service.db.tables.tokens = st.service.db.tables.tokens) (buffer : st'.buffer = st.buffer.flush .firstWins) :
    Taken upper first slug records st' where
  exchanges := exchanges.trans taken.exchanges
  tokensKept symbol id found := by
    rw [tokens]
    exact taken.tokensKept symbol id found
  tokensNew symbol absent := by
    rw [tokens]
    exact taken.tokensNew symbol absent
  rows := by
    obtain ⟨rows,found,since⟩ := taken.rows
    refine ⟨rows,found.imp ?_,by rw [buffer]; exact since.flush⟩
    exact fun r row => rowIn_extends (RateTables.extends_of_eq exchanges tokens)

/-- A record whose token is there goes to the batch. -/
theorem Taken.push (taken : Taken upper first slug records st) {r : NormalizedFundingData Scalar} {symbol : String} {e k : ℤ}
    (named : symbolOf upper r = some symbol) (exchange : first.exchanges.get? slug = some e)
    (ensured : Ensured st.service.db.tables.tokens st'.service.db.tables.tokens symbol k)
    (exchanges : st'.service.db.tables.exchanges = st.service.db.tables.exchanges)
    (buffer : st'.buffer = st.buffer.push ((rowOf e k r).key,(rowOf e k r).columns)) :
    Taken upper first slug (records ++ [r]) st' := by
  have after : ∀ other, st'.service.db.tables.tokens.get? other =
      (st.service.db.tables.tokens.get? other).or (if other = symbol then some k else none) := by
    intro other
    rw [ensured.others,Dict.get?_setDefault]
  have kept : st.service.db.tables.Extends st'.service.db.tables := by
    refine ⟨fun other id found => by rw [exchanges]; exact found,?_⟩
    intro other id found
    rw [after,found]
    rfl
  refine ⟨exchanges.trans taken.exchanges,?_,?_,?_⟩
  · intro other id found
    exact kept.tokens other id (taken.tokensKept other id found)
  · intro other absent
    have before := taken.tokensNew other absent
    simp only [List.mem_append,List.mem_singleton,or_and_right,exists_or,exists_eq_left,named,Option.some.injEq]
    rw [← before]
    constructor
    · rintro ⟨id,found⟩
      rw [after,Option.or_eq_some_iff] at found
      rcases found with old | ⟨-,added⟩
      · exact .inl ⟨id,old⟩
      · split at added
        · next same => exact .inr same.symm
        · cases added
    · rintro (⟨id,old⟩ | rfl)
      · exact ⟨id,kept.tokens other id old⟩
      · exact ⟨k,ensured.found⟩
  · obtain ⟨rows,found,since⟩ := taken.rows
    have row : rowIn upper st'.service.db.tables slug r = some (rowOf e k r) :=
      rowIn_eq_some.mpr ⟨e,symbol,k,by rw [exchanges,taken.exchanges]; exact exchange,named,ensured.found,rfl⟩
    refine ⟨rows ++ [rowOf e k r],?_,?_⟩
    · exact List.rel_append (found.imp fun r row => rowIn_extends kept) (.cons row .nil)
    · rw [buffer,List.map_append]
      exact since.push _

theorem takeRecord_spec (agrees : st.service.Agrees upper) {e : ℤ} {r : NormalizedFundingData Scalar}
    {raised : Option BackfillError} (ran : takeRecord upper server size e st r = (st',raised)) :
    st.service.db.Later st'.service.db ∧ st'.service.Agrees upper ∧
    (st'.service.db.errors = st.service.db.errors → Readable r → ∀ first slug records, first.exchanges.get? slug = some e →
      Taken upper first slug records st → raised = none ∧ Taken upper first slug (records ++ [r]) st') := by
  unfold takeRecord at ran
  cases token : r.token with
  | null =>
    rw [token] at ran
    cases ran
    refine ⟨.refl _,agrees,?_⟩
    rintro - ⟨⟨name,impossible⟩,-⟩
    rw [token] at impossible
    cases impossible
  | num q =>
    rw [token] at ran
    cases ran
    refine ⟨.refl _,agrees,?_⟩
    rintro - ⟨⟨name,impossible⟩,-⟩
    rw [token] at impossible
    cases impossible
  | str name =>
    have named : symbolOf upper r = some (upper name) := by rw [symbolOf,token]
    rw [token] at ran
    simp only [Scalar.asStr] at ran
    cases looking : st.service.ensureToken upper server name with
    | mk service reply =>
      obtain ⟨later,agreesNow,quiet⟩ := ensureToken_spec agrees looking
      rw [looking] at ran
      dsimp only at ran
      cases looked : Backfill.ensureToken reply with
      | error err =>
        rw [looked] at ran
        cases ran
        refine ⟨later,agreesNow,fun same => ?_⟩
        obtain ⟨id,found,-⟩ := quiet same
        rw [looked] at found
        cases found
      | ok found =>
        rw [looked] at ran
        cases found with
        | none =>
          cases ran
          refine ⟨later,agreesNow,fun same => ?_⟩
          obtain ⟨id,found,-⟩ := quiet same
          rw [looked] at found
          cases found
        | some k =>
          dsimp only at ran
          split at ran
          · let added : Intake := ⟨service,{ st.progress with
              seen := st.progress.seen + 1
              batch := st.progress.batch ++ [rowOf e k r] }⟩
            have push : service.db.errors = st.service.db.errors → ∀ first slug records, first.exchanges.get? slug = some e →
                Taken upper first slug records st → Taken upper first slug (records ++ [r]) added := by
              intro same first slug records exchange taken
              obtain ⟨id,found,ensured,exchanges,rates⟩ := quiet same
              rw [looked] at found
              cases found
              refine taken.push named exchange ensured exchanges ?_
              show (⟨service.db.tables.rates,_,_⟩ : WriteBuffer _ _) = _
              rw [rates,List.map_append]
              rfl
            split at ran
            · obtain ⟨laterFlush,agreesFlush,flushes⟩ := @upsertBatch_spec upper server added _ _ agreesNow ran
              refine ⟨later.trans laterFlush,agreesFlush,fun same _ first slug records exchange taken => ?_⟩
              have errors := later.errors
              have errorsFlush := laterFlush.errors
              change service.db.errors ≤ _ at errorsFlush
              obtain ⟨done,buffer,exchanges,tokens⟩ := flushes (by change _ = service.db.errors; omega)
              exact ⟨done,(push (by omega) first slug records exchange taken).flush exchanges tokens buffer⟩
            · cases ran
              exact ⟨later,agreesNow,fun same _ first slug records exchange taken => ⟨rfl,push same first slug records exchange taken⟩⟩
          · next undated =>
            cases ran
            exact ⟨later,agreesNow,fun _ readable => absurd readable.2 undated⟩

theorem takeRecords_spec (agrees : st.service.Agrees upper) {e : ℤ} {more : List (NormalizedFundingData Scalar)}
    {raised : Option BackfillError} (ran : forEach (takeRecord upper server size e) st more = (st',raised)) :
    st.service.db.Later st'.service.db ∧ st'.service.Agrees upper ∧
    (st'.service.db.errors = st.service.db.errors → (∀ r ∈ more, Readable r) → ∀ first slug records,
      first.exchanges.get? slug = some e → Taken upper first slug records st →
      raised = none ∧ Taken upper first slug (records ++ more) st') := by
  induction more generalizing st with
  | nil =>
    cases ran
    refine ⟨.refl _,agrees,fun _ _ first slug records _ taken => ⟨rfl,?_⟩⟩
    rw [List.append_nil]
    exact taken
  | cons r rest ih =>
    rw [forEach] at ran
    cases one : takeRecord upper server size e st r with
    | mk next raisedOne =>
      obtain ⟨later,agreesNext,takes⟩ := takeRecord_spec agrees one
      rw [one] at ran
      cases raisedOne with
      | some err =>
        cases ran
        refine ⟨later,agreesNext,fun same readable first slug records exchange taken => ?_⟩
        obtain ⟨impossible,-⟩ := takes same (readable r (List.mem_cons_self ..)) first slug records exchange taken
        cases impossible
      | none =>
        obtain ⟨laterRest,agreesRest,takesRest⟩ := ih agreesNext ran
        refine ⟨later.trans laterRest,agreesRest,fun same readable first slug records exchange taken => ?_⟩
        have errors := later.errors
        have errorsRest := laterRest.errors
        obtain ⟨-,takenNext⟩ := takes (by omega) (readable r (List.mem_cons_self ..)) first slug records exchange taken
        obtain ⟨done,takenAll⟩ := takesRest (by omega) (fun x member => readable x (List.mem_cons_of_mem _ member)) first slug
          (records ++ [r]) exchange takenNext
        rw [List.append_assoc,List.singleton_append] at takenAll
        exact ⟨done,takenAll⟩

/-- After the last batch nothing waits. -/
theorem finish_spec (agrees : st.service.Agrees upper) {raised : Option BackfillError} (ran : finish server st = (st',raised)) :
    st.service.db.Later st'.service.db ∧ st'.service.Agrees upper ∧
    (st'.service.db.errors = st.service.db.errors → ∀ first slug records, Taken upper first slug records st →
      raised = none ∧ Taken upper first slug records st' ∧ st'.buffer.batch = []) := by
  rw [finish] at ran
  split at ran
  · next empty =>
    cases ran
    refine ⟨.refl _,agrees,fun _ first slug records taken => ⟨rfl,taken,?_⟩⟩
    rw [Intake.buffer,empty]
    rfl
  · obtain ⟨later,agreesLast,flushes⟩ := upsertBatch_spec agrees ran
    refine ⟨later,agreesLast,fun same first slug records taken => ?_⟩
    obtain ⟨done,buffer,exchanges,tokens⟩ := flushes same
    exact ⟨done,taken.flush exchanges tokens buffer,by rw [buffer]; rfl⟩

/-! ### Whole runs -/

theorem rows_known {t : RateTables} {records : List (NormalizedFundingData Scalar)} {rows : List Row}
    (found : List.Forall₂ (fun r row => rowIn upper t slug r = some row) records rows) :
    ∀ r ∈ records, ∃ row, rowIn upper t slug r = some row := by
  induction found with
  | nil =>
    intro r impossible
    cases impossible
  | cons one _ ih => exact List.forall_mem_cons.mpr ⟨⟨_,one⟩,ih⟩
/-- The first row under a key is that of the first record under it. -/
theorem find_rows {t : RateTables} {records : List (NormalizedFundingData Scalar)} {rows : List Row}
    (found : List.Forall₂ (fun r row => rowIn upper t slug r = some row) records rows) (key : ℤ × ℤ × ℤ) :
    ((rows.map fun row => (row.key,row.columns)).find? fun e => e.1 = key).map Prod.snd =
      (records.findSome? fun r => (rowIn upper t slug r).filter fun row => row.key = key).map Row.columns := by
  induction found with
  | nil => rfl
  | @cons r row records rows one _ ih =>
    rw [List.map_cons,List.find?_cons,List.findSome?_cons,one]
    by_cases same : row.key = key
    · simp [same,Option.filter]
    · simp only [same,decide_false,Option.filter]
      exact ih

/-- With nothing left to write, the records are stored. -/
theorem Taken.stores (taken : Taken upper first slug records st) (done : st.buffer.batch = []) {before : RateTables} {e : ℤ}
    (exchanges : Ensured before.exchanges first.exchanges slug e) (tokens : first.tokens = before.tokens)
    (rates : first.rates = before.rates) :
    Stores upper before st.service.db.tables slug records st.progress.inserted := by
  obtain ⟨rows,found,since⟩ := taken.rows
  obtain ⟨written,counted⟩ := since.settled done
  have ratesAfter : st.service.db.tables.rates = before.rates.setDefaults (rows.map fun row => (row.key,row.columns)) := by
    rw [← rates]
    exact written
  have exchangesAfter : ∀ other, st.service.db.tables.exchanges.get? other =
      (before.exchanges.get? other).or (if other = slug then some e else none) := by
    intro other
    rw [taken.exchanges,exchanges.others,Dict.get?_setDefault]
  refine ⟨rows_known found,?_,?_,?_,?_,?_,?_⟩
  · intro key
    rw [ratesAfter,Dict.get?_setDefaults,find_rows found]
  · rw [ratesAfter,← rates]
    exact counted
  · intro symbol id old
    exact taken.tokensKept symbol id (by rw [tokens]; exact old)
  · intro symbol absent
    exact taken.tokensNew symbol (by rw [tokens]; exact absent)
  · intro other id old
    rw [exchangesAfter,old]
    rfl
  · intro other absent
    rw [exchangesAfter,absent]
    simp

theorem store_spec (agrees : s.Agrees upper) {e : ℤ} {accepted : Bool} {ending : Ending} {outcome : Outcome}
    (ran : store upper server size e accepted s records ending = (s',outcome)) :
    s.db.Later s'.db ∧ s'.Agrees upper ∧
    (s'.db.errors = s.db.errors → accepted = true → ending = .finished → (∀ r ∈ records, Readable r) →
      ∀ slug, s.db.tables.exchanges.get? slug = some e → ∃ st,
        s' = st.service ∧ outcome.returned = some (.ok st.progress.inserted) ∧ Taken upper s.db.tables slug records st ∧
        st.buffer.batch = []) := by
  rw [store] at ran
  cases loop : forEach (takeRecord upper server size e) ⟨s,⟨0,[],[],0⟩⟩ records with
  | mk st raised =>
    obtain ⟨later,agreesLoop,takes⟩ := @takeRecords_spec upper server size ⟨s,⟨0,[],[],0⟩⟩ st agrees e records raised loop
    rw [loop] at ran
    cases raised with
    | some err =>
      cases ran
      refine ⟨later,agreesLoop,fun same _ _ readable slug exchange => ?_⟩
      obtain ⟨impossible,-⟩ := takes same readable s.db.tables slug [] exchange (taken_nothing s)
      cases impossible
    | none =>
      cases ending with
      | running =>
        cases ran
        exact ⟨later,agreesLoop,fun _ _ impossible => nomatch impossible⟩
      | raised err =>
        cases ran
        exact ⟨later,agreesLoop,fun _ _ impossible => nomatch impossible⟩
      | finished =>
        cases finishing : finish server st with
        | mk last raised =>
          obtain ⟨laterLast,agreesLast,finishes⟩ := finish_spec agreesLoop finishing
          have errors := later.errors
          have errorsLast := laterLast.errors
          dsimp only at ran errors
          rw [finishing] at ran
          have quiet : last.service.db.errors = s.db.errors → (∀ r ∈ records, Readable r) → ∀ slug,
              s.db.tables.exchanges.get? slug = some e →
              raised = none ∧ Taken upper s.db.tables slug records last ∧ last.buffer.batch = [] := by
            intro same readable slug exchange
            obtain ⟨-,taken⟩ := takes (by dsimp only; omega) readable s.db.tables slug [] exchange (taken_nothing s)
            exact finishes (by omega) _ _ _ taken
          cases raised with
          | some err =>
            cases ran
            refine ⟨later.trans laterLast,agreesLast,fun same accepting _ readable slug exchange => ?_⟩
            obtain ⟨impossible,-⟩ := quiet same readable slug exchange
            cases impossible
          | none =>
            cases ran
            refine ⟨later.trans laterLast,agreesLast,fun same accepting _ readable slug exchange => ?_⟩
            obtain ⟨-,taken,empty⟩ := quiet same readable slug exchange
            exact ⟨last,rfl,by rw [if_pos accepting],taken,empty⟩

theorem backfill_spec (agrees : s.Agrees upper) {guards : Guards} {days : ℤ} {now : ℚ}
    {history : ℤ → ℤ → List (NormalizedFundingData Scalar) × Ending} {outcome : Outcome}
    (ran : s.backfill upper server size guards slug days now history = (s',outcome)) :
    s.db.Later s'.db ∧ s'.Agrees upper ∧
    (s'.db.errors = s.db.errors → (guards.get (guardKey slug days)).error = none → guards.set (guardKey slug days) = true →
      ¬ Guarded guards slug days now → inRange (startMs now days) →
      (history (startMs now days) (endMs now)).2 = .finished →
      (∀ r ∈ (history (startMs now days) (endMs now)).1, Readable r) →
      ∃ n, outcome.returned = some (.ok n) ∧
        Stores upper s.db.tables s'.db.tables slug (history (startMs now days) (endMs now)).1 n) := by
  unfold backfill at ran
  cases reading : (guards.get (guardKey slug days)).error with
  | some err =>
    rw [reading] at ran
    cases ran
    exact ⟨.refl _,agrees,fun _ impossible => nomatch impossible⟩
  | none =>
    rw [reading] at ran
    dsimp only at ran
    split at ran
    · next guarded =>
      cases ran
      exact ⟨.refl _,agrees,fun _ _ _ unguarded => absurd guarded unguarded⟩
    · split at ran
      · next undated =>
        cases ran
        exact ⟨.refl _,agrees,fun _ _ _ _ dated => absurd dated undated⟩
      · cases looking : s.ensureExchange server slug with
        | mk middle reply =>
          obtain ⟨later,agreesMiddle,quiet⟩ := ensureExchange_spec agrees looking
          rw [looking] at ran
          dsimp only at ran
          cases looked : Backfill.ensureExchange reply with
          | error err =>
            rw [looked] at ran
            cases ran
            refine ⟨later,agreesMiddle,fun same => ?_⟩
            obtain ⟨id,found,-⟩ := quiet same
            rw [looked] at found
            cases found
          | ok found =>
            rw [looked] at ran
            cases found with
            | none =>
              cases ran
              refine ⟨later,agreesMiddle,fun same => ?_⟩
              obtain ⟨id,found,-⟩ := quiet same
              rw [looked] at found
              cases found
            | some e =>
              obtain ⟨laterStore,agreesStore,stores⟩ := store_spec agreesMiddle ran
              refine ⟨later.trans laterStore,agreesStore,fun same _ accepted _ _ finished readable => ?_⟩
              have errors := later.errors
              have errorsStore := laterStore.errors
              obtain ⟨id,found,ensured,tokens,rates⟩ := quiet (by omega)
              rw [looked] at found
              cases found
              obtain ⟨st,rfl,returned,taken,empty⟩ := stores (by omega) accepted finished readable slug ensured.found
              exact ⟨_,returned,taken.stores empty ensured tokens rates⟩

/-- The memo tables agree with the database after every run, whatever fails in it. -/
theorem agrees_backfill (agrees : s.Agrees upper) (guards : Guards) (slug : String) (days : ℤ) (now : ℚ)
    (history : ℤ → ℤ → List (NormalizedFundingData Scalar) × Ending) :
    (s.backfill upper server size guards slug days now history).1.Agrees upper :=
  (backfill_spec agrees rfl).2.1

/-- A backfill that is not skipped, meets no error of the database, finds no guard that it cannot
    read, has its own guard accepted and can read the time of every record stores the records as
    if there were no batches. -/
theorem backfill_stores (upper : String → String) (server : Server) (size : ℕ) (s : BackfillService)
    (agrees : s.Agrees upper) (guards : Guards) (slug : String) (days : ℤ) (now : ℚ)
    (history : ℤ → ℤ → List (NormalizedFundingData Scalar) × Ending)
    (read : (guards.get (guardKey slug days)).error = none) (accepted : guards.set (guardKey slug days) = true)
    (unguarded : ¬ Guarded guards slug days now) (dated : inRange (startMs now days)) (finished : (history (startMs now days) (endMs now)).2 = .finished)
    (readable : ∀ r ∈ (history (startMs now days) (endMs now)).1, Readable r)
    (noError : (s.backfill upper server size guards slug days now history).1.db.errors = s.db.errors) :
    ∃ n, (s.backfill upper server size guards slug days now history).2.returned = some (.ok n) ∧
      Stores upper s.db.tables (s.backfill upper server size guards slug days now history).1.db.tables slug
        (history (startMs now days) (endMs now)).1 n :=
  (backfill_spec agrees rfl).2.2 noError read accepted unguarded dated finished readable

/-- A service that has not seen anything, and a database that never fails. -/
def fresh : BackfillService := ⟨⟨.empty,0,0⟩,.empty,.empty⟩
def willing : Server := ⟨fun _ => false,fun n => n⟩
def upperOne (symbol : String) : String := if symbol = "btc" then "BTC" else symbol
/-- A settlement of a token. -/
def settlement (token : String) (rate : ℚ) (timestamp : ℤ) : NormalizedFundingData Scalar :=
  BaseCollector.historical "aster" (.str token) (.str token) rate rate rate 8 0 0 timestamp

def firstRun (size : ℕ) (records : List (NormalizedFundingData Scalar)) : BackfillService × Outcome :=
  fresh.backfill upperOne willing size noGuards "aster" 30 1700000000 fun _ _ => (records,.finished)

theorem agrees_fresh : fresh.Agrees upper where
  exchanges _ _ cached := by cases cached
  tokens _ _ cached := by cases cached

/-- Two spellings of a token at one time, and the token at another time. -/
def twoSpellings : List (NormalizedFundingData Scalar) := [settlement "btc" 1 0,settlement "BTC" 2 0,settlement "BTC" 3 1]
/-- The last record is of the year 10000, for which there is no datetime. -/
def undated : List (NormalizedFundingData Scalar) := [settlement "BTC" 1 0,settlement "BTC" 2 253402300800000]

theorem two_spellings_stored :
    ∃ n, (firstRun 2 twoSpellings).2.returned = some (.ok n) ∧
      Stores upperOne fresh.db.tables (firstRun 2 twoSpellings).1.db.tables "aster" twoSpellings n := by
  refine backfill_stores upperOne willing 2 fresh agrees_fresh noGuards "aster" 30 1700000000 _ rfl rfl (by decide +kernel)
    (by decide +kernel) rfl ?_ (by decide +kernel)
  intro r member
  rcases List.mem_cons.mp member with rfl | member
  · exact ⟨⟨_,rfl⟩,by decide⟩
  · rcases List.mem_cons.mp member with rfl | member
    · exact ⟨⟨_,rfl⟩,by decide⟩
    · rw [List.mem_singleton.mp member]
      exact ⟨⟨_,rfl⟩,by decide⟩

/-- A time that no datetime has ends the run without an error of the database, and what is
    stored then depends on the size of the batches. -/
theorem undated_record_not_stored :
    fresh.Agrees upperOne ∧ ¬ Guarded noGuards "aster" 30 1700000000 ∧
    (firstRun 2 undated).1.db.errors = fresh.db.errors ∧ (¬ ∃ n, (firstRun 2 undated).2.returned = some (.ok n)) ∧
    (firstRun 2 undated).1.db.tables.rates.entries.length = 0 ∧
    (firstRun 1 undated).1.db.tables.rates.entries.length = 1 := by
  refine ⟨agrees_fresh,by decide +kernel,by decide +kernel,?_,by decide +kernel,by decide +kernel⟩
  rintro ⟨n,returned⟩
  have raised : (firstRun 2 undated).2.returned = some (.error (.py .valueError)) := by decide +kernel
  rw [raised] at returned
  cases returned

/-! ### The replies of the database -/

/-- The part of a state that does not name the database, with what was raised. -/
def seenBy (outcome : Intake × Option BackfillError) : Progress × Option BackfillError := (outcome.1.progress,outcome.2)

theorem upsertBatch_replies {replies : Replies}
    (same : replies.upsert st.progress.passed.length = (st.service.db.execute server fun t => t.insertRates st.progress.batch).2) :
    Backfill.upsertBatch replies st.progress = seenBy (upsertBatch server st) := by
  rw [Backfill.upsertBatch,same,upsertBatch]
  cases st.service.db.execute server fun t => t.insertRates st.progress.batch with
  | mk db count =>
    cases count with
    | none => rfl
    | some n => rfl

/-- A record is taken as it is where the database only replies: the replies are those to
    its token and, where a batch is written, to the batch. -/
theorem takeRecord_replies (server : Server) (st : Intake) (e : ℤ) (r : NormalizedFundingData Scalar) :
    ∃ token count, ∀ replies : Replies, replies.token st.progress.seen = token →
      ((takeRecord upper server batchSize e st r).1.progress.passed.length ≠ st.progress.passed.length →
        replies.upsert st.progress.passed.length = count) →
      Backfill.takeRecord replies e st.progress r = seenBy (takeRecord upper server batchSize e st r) := by
  cases token : r.token with
  | null => exact ⟨.raised,none,fun _ _ _ => by rw [Backfill.takeRecord,takeRecord,token]; rfl⟩
  | num q => exact ⟨.raised,none,fun _ _ _ => by rw [Backfill.takeRecord,takeRecord,token]; rfl⟩
  | str name =>
    cases looking : st.service.ensureToken upper server name with
    | mk service reply =>
      let added : ℤ → Intake := fun k => ⟨service,{ st.progress with
        seen := st.progress.seen + 1
        batch := st.progress.batch ++ [rowOf e k r] }⟩
      refine ⟨reply,((Backfill.ensureToken reply).toOption.join.map fun k =>
        (service.db.execute server fun t => t.insertRates (added k).progress.batch).2).join,?_⟩
      intro replies isReply isCount
      unfold Backfill.takeRecord
      unfold takeRecord at isCount ⊢
      rw [token] at isCount ⊢
      simp only [Scalar.asStr] at isCount ⊢
      rw [looking] at isCount ⊢
      rw [isReply]
      dsimp only at isCount ⊢
      cases looked : Backfill.ensureToken reply with
      | error err => rfl
      | ok found =>
        rw [looked] at isCount
        cases found with
        | none => rfl
        | some k =>
          dsimp only at isCount ⊢
          split
          · next dated =>
            rw [if_pos dated] at isCount
            split
            · next full =>
              rw [if_pos full] at isCount
              refine @upsertBatch_replies server (added k) replies (isCount ?_)
              rw [upsertBatch]
              split
              · simp
              · simp
            · rfl
          · rfl

theorem upsertBatch_moves {raised : Option BackfillError} (ran : upsertBatch server st = (st',raised)) :
    st'.progress.seen = st.progress.seen ∧ st'.progress.passed.length = st.progress.passed.length + 1 := by
  rw [upsertBatch] at ran
  split at ran
  · cases ran
    exact ⟨rfl,by simp⟩
  · cases ran
    exact ⟨rfl,by simp⟩
theorem takeRecord_moves {e : ℤ} {r : NormalizedFundingData Scalar} {size : ℕ}
    (ran : takeRecord upper server size e st r = (st',none)) :
    st'.progress.seen = st.progress.seen + 1 ∧ (st'.progress.passed.length = st.progress.passed.length ∨
      st'.progress.passed.length = st.progress.passed.length + 1) := by
  unfold takeRecord at ran
  split at ran
  · cases ran
  · dsimp only at ran
    split at ran
    · cases ran
    · cases ran
      exact ⟨rfl,.inl rfl⟩
    · split at ran
      · split at ran
        · obtain ⟨seen,passed⟩ := upsertBatch_moves ran
          exact ⟨seen,.inr passed⟩
        · cases ran
          exact ⟨rfl,.inl rfl⟩
      · cases ran

/-- The loop, and the last batch where nothing is raised before. The replies that matter are
    those from the state on. -/
theorem loop_replies (server : Server) (st : Intake) (e : ℤ) (records : List (NormalizedFundingData Scalar)) :
    ∃ (tokens : ℕ → TokenReply) (counts : ℕ → Option ℕ), ∀ replies : Replies,
      (∀ i, st.progress.seen ≤ i → replies.token i = tokens i) →
      (∀ i, st.progress.passed.length ≤ i → replies.upsert i = counts i) →
      forEach (Backfill.takeRecord replies e) st.progress records = seenBy (forEach (takeRecord upper server batchSize e) st records) ∧
      ((forEach (takeRecord upper server batchSize e) st records).2 = none →
        Backfill.finish replies (forEach (takeRecord upper server batchSize e) st records).1.progress =
          seenBy (finish server (forEach (takeRecord upper server batchSize e) st records).1)) := by
  induction records generalizing st with
  | nil =>
    refine ⟨fun _ => .raised,fun _ => (st.service.db.execute server fun t => t.insertRates st.progress.batch).2,?_⟩
    intro replies _ isCount
    refine ⟨rfl,fun _ => ?_⟩
    rw [forEach,finish,Backfill.finish]
    split
    · rfl
    · exact upsertBatch_replies (isCount _ (Nat.le_refl _))
  | cons r rest ih =>
    obtain ⟨token,count,one⟩ := @takeRecord_replies upper server st e r
    rw [forEach]
    cases took : takeRecord upper server batchSize e st r with
    | mk next raised =>
      rw [took] at one
      cases raised with
      | some err =>
        refine ⟨fun _ => token,fun _ => count,?_⟩
        intro replies isToken isCount
        refine ⟨?_,fun impossible => absurd impossible (Option.some_ne_none err)⟩
        rw [forEach,one replies (isToken _ (Nat.le_refl _)) (fun _ => isCount _ (Nat.le_refl _))]
        rfl
      | none =>
        obtain ⟨tokens,counts,later⟩ := ih next
        obtain ⟨seen,passed⟩ := takeRecord_moves took
        -- A batch that is written uses up a reply of its own; otherwise the next one stays.
        refine ⟨Function.update tokens st.progress.seen token,
          if next.progress.passed.length = st.progress.passed.length then counts
          else Function.update counts st.progress.passed.length count,?_⟩
        intro replies isToken isCount
        have first : Backfill.takeRecord replies e st.progress r = (next.progress,none) := by
          refine one replies ?_ ?_
          · rw [isToken _ (Nat.le_refl _),Function.update_self]
          · intro flushed
            rw [isCount _ (Nat.le_refl _),if_neg flushed,Function.update_self]
        rw [forEach,first]
        refine later replies ?_ ?_
        · intro i le
          rw [isToken i (by omega),Function.update_of_ne (by omega)]
        · intro i le
          rw [isCount i (by omega)]
          split
          · rfl
          · exact Function.update_of_ne (by omega) ..

theorem store_replies (server : Server) (s : BackfillService) (e : ℤ) (accepted : Bool)
    (h : Harvest (NormalizedFundingData Scalar)) :
    ∃ tokens counts, ∀ exchange, Backfill.store ⟨exchange,tokens,counts⟩ e accepted h =
      (store upper server batchSize e accepted s h.yielded h.ending).2 := by
  obtain ⟨tokens,counts,run⟩ := @loop_replies upper server ⟨s,⟨0,[],[],0⟩⟩ e h.yielded
  refine ⟨tokens,counts,fun exchange => ?_⟩
  obtain ⟨loop,last⟩ := run ⟨exchange,tokens,counts⟩ (fun _ _ => rfl) (fun _ _ => rfl)
  rw [Backfill.store,store,loop]
  cases ran : forEach (takeRecord upper server batchSize e) ⟨s,⟨0,[],[],0⟩⟩ h.yielded with
  | mk st raised =>
    cases raised with
    | some err => rfl
    | none =>
      rw [ran] at last
      have finishing := last rfl
      dsimp only [seenBy] at finishing ⊢
      cases h.ending with
      | running => rfl
      | raised err => rfl
      | finished =>
        dsimp only
        rw [finishing]
        cases finish server st with
        | mk final raised =>
          cases raised with
          | some err => rfl
          | none => rfl

/-- What the service does with its database is a run of the service that knows only what
    the database replies. -/
theorem backfill_replies (upper : String → String) (server : Server) (s : BackfillService) (guards : Guards)
    (slug : String) (days : ℤ) (now : ℚ) (history : ℤ → ℤ → Harvest (NormalizedFundingData Scalar)) :
    ∃ replies, Backfill.backfill replies guards slug days now history =
      (s.backfill upper server batchSize guards slug days now fun a b => ((history a b).yielded,(history a b).ending)).2 := by
  cases looking : s.ensureExchange server slug with
  | mk middle reply =>
    obtain ⟨tokens,counts,run⟩ := @store_replies upper server middle ((Backfill.ensureExchange reply).toOption.join.getD 0)
      (guards.set (guardKey slug days)) (history (startMs now days) (endMs now))
    refine ⟨⟨reply,tokens,counts⟩,?_⟩
    unfold Backfill.backfill backfill
    rw [looking]
    cases (guards.get (guardKey slug days)).error with
    | some err => rfl
    | none =>
      dsimp only
      split
      · rfl
      · split
        · rfl
        · cases looked : Backfill.ensureExchange reply with
          | error err => rfl
          | ok found =>
            rw [looked] at run
            cases found with
            | none => rfl
            | some e => exact run reply

end BackfillService
end FundingRadar
