import FundingRadar.Backfill
import FundingRadar.Tables

/-!
The tables that a backfill writes, behind a database that may fail any statement and counts
those that do. A batch is one `INSERT ... ON CONFLICT DO NOTHING`: keys that are present keep
their rows, the first row of a new key is inserted, and the row count is that of the new
rows. Columns that no part of the service reads are left out, and numbers are kept as they
are written. Times are milliseconds, which datetimes tell apart.
-/
namespace FundingRadar
open Backfill

/-- The columns of a row of `funding_rates` besides its key. -/
structure RateColumns where
  fundingRate : ℚ
  fundingRate8h : Option ℚ
  fundingApr : Option ℚ
  markPrice : Option ℚ
  indexPrice : Option ℚ
  openInterestUsd : Option ℚ
  volume24hUsd : Option ℚ
  priceSpreadPct : Option ℚ
deriving DecidableEq

namespace RateColumns

/-- The numbers, each with the precision and the scale of its column. -/
def numerics (v : RateColumns) : List (ℕ × ℕ × Option ℚ) :=
  [(20,10,some v.fundingRate),(20,10,v.fundingRate8h),(20,6,v.fundingApr),(24,8,v.markPrice),(24,8,v.indexPrice),
    (28,4,v.openInterestUsd),(28,4,v.volume24hUsd),(12,6,v.priceSpreadPct)]
def Fits (v : RateColumns) : Prop := ∀ c ∈ v.numerics, ∀ x ∈ c.2.2, FitsNumeric c.1 c.2.1 x
instance (v : RateColumns) : Decidable v.Fits := inferInstanceAs (Decidable (∀ c ∈ v.numerics, ∀ x ∈ c.2.2, FitsNumeric c.1 c.2.1 x))

end RateColumns

namespace Backfill.Row

/-- `(time, exchange_id, token_id)`. -/
def key (row : Row) : ℤ × ℤ × ℤ := (row.time,row.exchangeId,row.tokenId)
def columns (row : Row) : RateColumns where
  fundingRate := row.fundingRate
  fundingRate8h := row.fundingRate8h
  fundingApr := row.fundingApr
  markPrice := row.markPrice
  indexPrice := row.indexPrice
  openInterestUsd := row.openInterestUsd
  volume24hUsd := row.volume24hUsd
  priceSpreadPct := row.priceSpreadPct

end Backfill.Row

/-- `exchanges` and `tokens`, with the id of each name, and `funding_rates`. The constraints
    of the schema are fields. -/
structure RateTables where
  exchanges : Dict String ℤ
  tokens : Dict String ℤ
  rates : Dict (ℤ × ℤ × ℤ) RateColumns
  exchangeIds : ∀ a b i, exchanges.get? a = some i → exchanges.get? b = some i → a = b
  tokenIds : ∀ a b i, tokens.get? a = some i → tokens.get? b = some i → a = b
  references : ∀ time e k v, rates.get? (time,e,k) = some v →
    (∃ slug, exchanges.get? slug = some e) ∧ ∃ symbol, tokens.get? symbol = some k
  fits : ∀ key v, rates.get? key = some v → v.Fits

namespace RateTables

def empty : RateTables where
  exchanges := .empty
  tokens := .empty
  rates := .empty
  exchangeIds := Tables.empty.exchangeIds
  tokenIds := Tables.empty.tokenIds
  references _ _ _ _ found := by cases found
  fits _ _ found := by cases found

/-- `INSERT INTO exchanges`; the slug is a `String(64)`. -/
def insertExchange (t : RateTables) (slug : String) (id : ℤ) : Option RateTables :=
  if free : slug.length ≤ 64 ∧ Tables.Free t.exchanges slug id then
    some { t with
      exchanges := t.exchanges.insert slug id
      exchangeIds := Tables.ids_insert free.2 t.exchangeIds
      references := fun time e k v found =>
        ⟨Tables.kept_insert free.2 (t.references time e k v found).1,(t.references time e k v found).2⟩ }
  else none
/-- `INSERT INTO tokens`; the symbol is a `String(32)`. -/
def insertToken (t : RateTables) (symbol : String) (id : ℤ) : Option RateTables :=
  if free : symbol.length ≤ 32 ∧ Tables.Free t.tokens symbol id then
    some { t with
      tokens := t.tokens.insert symbol id
      tokenIds := Tables.ids_insert free.2 t.tokenIds
      references := fun time e k v found =>
        ⟨(t.references time e k v found).1,Tables.kept_insert free.2 (t.references time e k v found).2⟩ }
  else none

theorem fits_setDefault {t : RateTables} {row : Row} (fits : row.columns.Fits) (key : ℤ × ℤ × ℤ) (v : RateColumns)
    (found : (t.rates.setDefault row.key row.columns).get? key = some v) : v.Fits := by
  rw [Dict.get?_setDefault,Option.or_eq_some_iff] at found
  rcases found with old | ⟨-,added⟩
  · exact t.fits key v old
  · split at added
    · cases added
      exact fits
    · cases added

theorem references_setDefault {t : RateTables} {row : Row}
    (exchange : Tables.HasId t.exchanges row.exchangeId) (token : Tables.HasId t.tokens row.tokenId) (time e k : ℤ)
    (v : RateColumns) (found : (t.rates.setDefault row.key row.columns).get? (time,e,k) = some v) :
    (∃ slug, t.exchanges.get? slug = some e) ∧ ∃ symbol, t.tokens.get? symbol = some k := by
  rw [Dict.get?_setDefault,Option.or_eq_some_iff] at found
  rcases found with old | ⟨-,added⟩
  · exact t.references time e k v old
  · split at added
    · next same =>
      obtain ⟨-,rfl,rfl⟩ : time = row.time ∧ e = row.exchangeId ∧ k = row.tokenId := by
        simpa [Row.key] using same
      exact ⟨(Tables.hasId_iff _ _).mp exchange,(Tables.hasId_iff _ _).mp token⟩
    · cases added

/-- A row of an insert with `ON CONFLICT DO NOTHING`. -/
def insertRate (t : RateTables) (row : Row) : Option RateTables :=
  if ok : row.columns.Fits ∧ Tables.HasId t.exchanges row.exchangeId ∧ Tables.HasId t.tokens row.tokenId then
    some { t with
      rates := t.rates.setDefault row.key row.columns
      references := references_setDefault ok.2.1 ok.2.2
      fits := fits_setDefault ok.1 }
  else none
/-- The whole statement, and its row count: a row that is refused refuses all. -/
def insertRates (t : RateTables) (rows : List Row) : Option (RateTables × ℕ) :=
  (rows.foldlM insertRate t).map fun after => (after,after.rates.entries.length - t.rates.entries.length)

/-! ### The tables of a persist run

They are these, with a number in every column. -/

/-- The numbers of a persisted row, in the columns. -/
def columnsOf (v : RateValues) : RateColumns where
  fundingRate := v.fundingRate
  fundingRate8h := some v.fundingRate8h
  fundingApr := some v.fundingApr
  markPrice := some v.markPrice
  indexPrice := some v.indexPrice
  openInterestUsd := some v.openInterestUsd
  volume24hUsd := some v.volume24hUsd
  priceSpreadPct := some v.priceSpreadPct
theorem get?_columnsOf (rates : Dict (ℤ × ℤ × ℤ) RateValues) (key : ℤ × ℤ × ℤ) :
    (rates.rename id columnsOf Function.injective_id).get? key = (rates.get? key).map columnsOf :=
  Dict.get?_rename columnsOf Function.injective_id rates key
theorem columnsOf_fits_iff (v : RateValues) : (columnsOf v).Fits ↔ v.Fits := by
  constructor
  · intro fits
    refine ⟨fits (20,10,_) ?_ _ rfl,fits (20,10,some v.fundingRate8h) ?_ _ rfl,fits (20,6,_) ?_ _ rfl,fits (24,8,some v.markPrice) ?_ _ rfl,
      fits (24,8,some v.indexPrice) ?_ _ rfl,fits (28,4,some v.openInterestUsd) ?_ _ rfl,fits (28,4,some v.volume24hUsd) ?_ _ rfl,
      fits (12,6,_) ?_ _ rfl⟩
    all_goals simp [RateColumns.numerics,columnsOf]
  · rintro ⟨rate,rate8h,apr,mark,index,interest,volume,spread⟩
    simp [RateColumns.Fits,RateColumns.numerics,columnsOf,rate,rate8h,apr,mark,index,interest,volume,spread]

def ofTables (t : Tables) : RateTables where
  exchanges := t.exchanges
  tokens := t.tokens
  rates := t.rates.rename id columnsOf Function.injective_id
  exchangeIds := t.exchangeIds
  tokenIds := t.tokenIds
  references time e k v found := by
    rw [get?_columnsOf] at found
    obtain ⟨values,held,-⟩ := Option.map_eq_some_iff.mp found
    exact t.references time e k values held
  fits key v found := by
    rw [get?_columnsOf] at found
    obtain ⟨values,held,rfl⟩ := Option.map_eq_some_iff.mp found
    exact (columnsOf_fits_iff values).mpr (t.fits key values held)

theorem insertExchange_ofTables (t : Tables) (slug : String) (id : ℤ) :
    (ofTables t).insertExchange slug id = (t.addExchange slug id).map ofTables := by
  unfold insertExchange Tables.addExchange
  by_cases free : slug.length ≤ 64 ∧ Tables.Free t.exchanges slug id
  · rw [dif_pos free,dif_pos (by exact free)]
    rfl
  · rw [dif_neg free,dif_neg (by exact free)]
    rfl
theorem insertToken_ofTables (t : Tables) (symbol : String) (id : ℤ) :
    (ofTables t).insertToken symbol id = (t.addToken symbol id).map ofTables := by
  unfold insertToken Tables.addToken
  by_cases free : symbol.length ≤ 32 ∧ Tables.Free t.tokens symbol id
  · rw [dif_pos free,dif_pos (by exact free)]
    rfl
  · rw [dif_neg free,dif_neg (by exact free)]
    rfl

/-- Where the row is new, a backfill inserts what a persist run does. -/
theorem insertRate_ofTables {t : Tables} {row : Row} {v : RateValues} (absent : t.rates.get? row.key = none)
    (same : row.columns = columnsOf v) :
    (ofTables t).insertRate row = (t.putRate row.time row.exchangeId row.tokenId v).map ofTables := by
  have new : (ofTables t).rates.get? row.key = none := by
    refine (get?_columnsOf t.rates row.key).trans ?_
    rw [absent]
    rfl
  have rates : (ofTables t).rates.setDefault row.key row.columns =
      (t.rates.insert row.key v).rename id columnsOf Function.injective_id := by
    rw [Dict.setDefault,if_neg (by simp [new]),same]
    exact Dict.insert_rename columnsOf Function.injective_id t.rates row.key v
  have fits : row.columns.Fits ↔ v.Fits := same ▸ columnsOf_fits_iff v
  unfold insertRate Tables.putRate
  by_cases ok : Tables.HasId t.exchanges row.exchangeId ∧ Tables.HasId t.tokens row.tokenId ∧ v.Fits
  · rw [dif_pos ⟨fits.mpr ok.2.2,ok.1,ok.2.1⟩,dif_pos ok,Option.map_some]
    refine congrArg some ?_
    rw [RateTables.mk.injEq]
    exact ⟨rfl,rfl,rates⟩
  · rw [dif_neg (fun both => ok ⟨both.2.1,both.2.2,fits.mp both.1⟩),dif_neg ok]
    rfl

/-! ### Writes -/

/-- Names keep their ids. -/
structure Extends (before after : RateTables) : Prop where
  exchanges : ∀ slug id, before.exchanges.get? slug = some id → after.exchanges.get? slug = some id
  tokens : ∀ symbol id, before.tokens.get? symbol = some id → after.tokens.get? symbol = some id

variable {t t' t'' : RateTables}

theorem Extends.refl (t : RateTables) : Extends t t := ⟨fun _ _ found => found,fun _ _ found => found⟩
theorem Extends.trans (first : Extends t t') (second : Extends t' t'') : Extends t t'' where
  exchanges slug id found := second.exchanges slug id (first.exchanges slug id found)
  tokens symbol id found := second.tokens symbol id (first.tokens symbol id found)
theorem extends_of_eq (exchanges : t'.exchanges = t.exchanges) (tokens : t'.tokens = t.tokens) : Extends t t' where
  exchanges slug id found := by rw [exchanges]; exact found
  tokens symbol id found := by rw [tokens]; exact found

theorem insertExchange_eq_some {slug : String} {id : ℤ} (inserted : t.insertExchange slug id = some t') :
    t.exchanges.get? slug = none ∧ t'.exchanges = t.exchanges.insert slug id ∧ t'.tokens = t.tokens ∧ t'.rates = t.rates := by
  rw [insertExchange] at inserted
  split at inserted
  · next free =>
    cases inserted
    exact ⟨((Tables.free_iff _ _ _).mp free.2).1,rfl,rfl,rfl⟩
  · cases inserted
theorem insertToken_eq_some {symbol : String} {id : ℤ} (inserted : t.insertToken symbol id = some t') :
    t.tokens.get? symbol = none ∧ t'.tokens = t.tokens.insert symbol id ∧ t'.exchanges = t.exchanges ∧ t'.rates = t.rates := by
  rw [insertToken] at inserted
  split at inserted
  · next free =>
    cases inserted
    exact ⟨((Tables.free_iff _ _ _).mp free.2).1,rfl,rfl,rfl⟩
  · cases inserted
theorem insertExchange_extends {slug : String} {id : ℤ} (inserted : t.insertExchange slug id = some t') : Extends t t' := by
  obtain ⟨absent,exchanges,tokens,-⟩ := insertExchange_eq_some inserted
  refine ⟨?_,fun symbol id found => by rw [tokens]; exact found⟩
  intro other id found
  rw [exchanges]
  exact Dict.get?_insert_of_absent absent found _
theorem insertToken_extends {symbol : String} {id : ℤ} (inserted : t.insertToken symbol id = some t') : Extends t t' := by
  obtain ⟨absent,tokens,exchanges,-⟩ := insertToken_eq_some inserted
  refine ⟨fun slug id found => by rw [exchanges]; exact found,?_⟩
  intro other id found
  rw [tokens]
  exact Dict.get?_insert_of_absent absent found _
theorem insertRate_eq_some {row : Row} (inserted : t.insertRate row = some t') :
    t'.rates = t.rates.setDefault row.key row.columns ∧ t'.exchanges = t.exchanges ∧ t'.tokens = t.tokens := by
  rw [insertRate] at inserted
  split at inserted
  · cases inserted
    exact ⟨rfl,rfl,rfl⟩
  · cases inserted
theorem insertRates_eq_some {rows : List Row} {n : ℕ} (inserted : t.insertRates rows = some (t',n)) :
    t'.rates = t.rates.setDefaults (rows.map fun row => (row.key,row.columns)) ∧
    n = t'.rates.entries.length - t.rates.entries.length ∧ t'.exchanges = t.exchanges ∧ t'.tokens = t.tokens := by
  rw [insertRates,Option.map_eq_some_iff] at inserted
  obtain ⟨after,all,same⟩ := inserted
  cases same
  suffices written : t'.rates = t.rates.setDefaults (rows.map fun row => (row.key,row.columns)) ∧
      t'.exchanges = t.exchanges ∧ t'.tokens = t.tokens from ⟨written.1,rfl,written.2⟩
  induction rows generalizing t with
  | nil =>
    cases all
    exact ⟨rfl,rfl,rfl⟩
  | cons row rest ih =>
    rw [List.foldlM_cons] at all
    obtain ⟨next,one,later⟩ := Option.bind_eq_some_iff.mp all
    obtain ⟨rates,exchanges,tokens⟩ := insertRate_eq_some one
    obtain ⟨ratesLater,exchangesLater,tokensLater⟩ := ih later
    refine ⟨?_,exchangesLater.trans exchanges,tokensLater.trans tokens⟩
    rw [ratesLater,rates]
    rfl

end RateTables

/-- What the database does of its own: which statements fail, and the ids its sequences are
    at when a statement runs. -/
structure Server where
  fails : ℕ → Bool
  ids : ℕ → ℤ

/-- The tables, with the statements sent and the errors met so far. -/
structure Postgres where
  tables : RateTables
  sent : ℕ
  errors : ℕ

namespace Postgres
variable {α : Type} (server : Server) (db : Postgres)

/-- A statement leaves the tables where it fails or they refuse it. -/
def execute (statement : RateTables → Option (RateTables × α)) : Postgres × Option α :=
  match if server.fails db.sent then none else statement db.tables with
  | none => (⟨db.tables,db.sent + 1,db.errors + 1⟩,none)
  | some (tables,result) => (⟨tables,db.sent + 1,db.errors⟩,some result)

def selectExchange (slug : String) : Postgres × Option (Option ℤ) := db.execute server fun t => some (t,t.exchanges.get? slug)
def selectToken (symbol : String) : Postgres × Option (Option ℤ) := db.execute server fun t => some (t,t.tokens.get? symbol)
/-- A row inserted with the next id and committed, and its id by the refresh. -/
def create (insert : ℤ → RateTables → Option RateTables) (refresh : RateTables → Option ℤ) : Postgres × Option ℤ :=
  match db.execute server (fun t => (insert (server.ids db.sent) t).map fun after => (after,())) with
  | (db,none) => (db,none)
  | (db,some ()) => db.execute server fun t => (refresh t).map fun id => (t,id)
def createExchange (slug : String) : Postgres × Option ℤ :=
  db.create server (fun id t => t.insertExchange slug id) (fun t => t.exchanges.get? slug)
def createToken (symbol : String) : Postgres × Option ℤ :=
  db.create server (fun id t => t.insertToken symbol id) (fun t => t.tokens.get? symbol)

/-- What any statements leave: names keep their ids, and errors stay counted. -/
structure Later (before after : Postgres) : Prop where
  tables : before.tables.Extends after.tables
  errors : before.errors ≤ after.errors

variable {server db} {db' db'' : Postgres}

theorem Later.refl (db : Postgres) : Later db db := ⟨.refl _,Nat.le_refl _⟩
theorem Later.trans (first : Later db db') (second : Later db' db'') : Later db db'' :=
  ⟨first.tables.trans second.tables,first.errors.trans second.errors⟩

theorem execute_none {statement : RateTables → Option (RateTables × α)} (ran : db.execute server statement = (db',none)) :
    db'.tables = db.tables ∧ db'.errors = db.errors + 1 := by
  rw [execute] at ran
  split at ran
  · cases ran
    exact ⟨rfl,rfl⟩
  · cases ran
theorem execute_some {statement : RateTables → Option (RateTables × α)} {result : α}
    (ran : db.execute server statement = (db',some result)) :
    statement db.tables = some (db'.tables,result) ∧ db'.errors = db.errors := by
  rw [execute] at ran
  split at ran
  · cases ran
  · next done =>
    cases ran
    split at done
    · cases done
    · exact ⟨done,rfl⟩
/-- A select that succeeds. -/
theorem execute_select {f : RateTables → α} {result : α} (ran : db.execute server (fun t => some (t,f t)) = (db',some result)) :
    db'.tables = db.tables ∧ db'.errors = db.errors ∧ f db.tables = result := by
  obtain ⟨done,errors⟩ := execute_some ran
  obtain ⟨tables,same⟩ := Prod.mk.inj (Option.some.inj done)
  exact ⟨tables.symm,errors,same⟩

theorem create_none {insert : ℤ → RateTables → Option RateTables} {refresh : RateTables → Option ℤ}
    (ran : db.create server insert refresh = (db',none)) :
    (db'.tables = db.tables ∨ ∃ id, insert id db.tables = some db'.tables) ∧ db.errors < db'.errors := by
  rw [create] at ran
  split at ran
  · next middle inserting =>
    cases ran
    obtain ⟨tables,errors⟩ := execute_none inserting
    exact ⟨.inl tables,by omega⟩
  · next middle inserting =>
    obtain ⟨done,errors⟩ := execute_some inserting
    obtain ⟨after,inserted,same⟩ := Option.map_eq_some_iff.mp done
    obtain ⟨tables,-⟩ := Prod.mk.inj same
    obtain ⟨tables',errors'⟩ := execute_none ran
    exact ⟨.inr ⟨_,by rw [tables',← tables]; exact inserted⟩,by omega⟩
theorem create_some {insert : ℤ → RateTables → Option RateTables} {refresh : RateTables → Option ℤ} {id : ℤ}
    (ran : db.create server insert refresh = (db',some id)) :
    (∃ fresh, insert fresh db.tables = some db'.tables) ∧ refresh db'.tables = some id ∧ db'.errors = db.errors := by
  rw [create] at ran
  split at ran
  · cases ran
  · next middle inserting =>
    obtain ⟨done,errors⟩ := execute_some inserting
    obtain ⟨after,inserted,same⟩ := Option.map_eq_some_iff.mp done
    obtain ⟨tables,-⟩ := Prod.mk.inj same
    obtain ⟨refreshed,errors'⟩ := execute_some ran
    obtain ⟨i,found,both⟩ := Option.map_eq_some_iff.mp refreshed
    obtain ⟨tables',rfl⟩ := Prod.mk.inj both
    rw [← tables',← tables]
    exact ⟨⟨_,inserted⟩,by rw [tables]; exact found,by omega⟩

theorem execute_later {statement : RateTables → Option (RateTables × α)} {result : Option α}
    (grows : ∀ t t' a, statement t = some (t',a) → t.Extends t') (ran : db.execute server statement = (db',result)) :
    Later db db' := by
  cases result with
  | none =>
    obtain ⟨tables,errors⟩ := execute_none ran
    exact ⟨by rw [tables]; exact .refl _,by omega⟩
  | some a =>
    obtain ⟨done,errors⟩ := execute_some ran
    exact ⟨grows _ _ _ done,errors.ge⟩
theorem select_later {f : RateTables → α} {result : Option α} (ran : db.execute server (fun t => some (t,f t)) = (db',result)) :
    Later db db' := by
  refine execute_later ?_ ran
  intro t t' a same
  cases same
  exact .refl _
theorem create_later {insert : ℤ → RateTables → Option RateTables} {refresh : RateTables → Option ℤ} {result : Option ℤ}
    (grows : ∀ id t t', insert id t = some t' → t.Extends t') (ran : db.create server insert refresh = (db',result)) :
    Later db db' := by
  cases result with
  | none =>
    obtain ⟨same | ⟨id,inserted⟩,errors⟩ := create_none ran
    · exact ⟨by rw [same]; exact .refl _,errors.le⟩
    · exact ⟨grows id _ _ inserted,errors.le⟩
  | some id =>
    obtain ⟨⟨fresh,inserted⟩,-,errors⟩ := create_some ran
    exact ⟨grows fresh _ _ inserted,errors.ge⟩

end Postgres
end FundingRadar
