import Mathlib.Data.Rat.Floor
import FundingRadar.Dict
import FundingRadar.UnitOfWork

/-!
The tables `exchanges`, `tokens` and `funding_rates`, as far as a persist run writes
them. The constraints of the schema are fields: ids and names are unique, a rate
refers to an exchange and a token that exist, and its numbers fit their columns. A
write that would break one of them is refused. Numbers are kept as they are written;
what a column rounds away is left to the column.
-/
namespace FundingRadar

/-- The numbers of a row of `funding_rates`. -/
structure RateValues where
  fundingRate : ℚ
  fundingRate8h : ℚ
  fundingApr : ℚ
  markPrice : ℚ
  indexPrice : ℚ
  openInterestUsd : ℚ
  volume24hUsd : ℚ
  priceSpreadPct : ℚ
deriving DecidableEq

/-- `Numeric(precision, scale)` holds a number that stays below its bound when it is
    rounded to the scale. -/
def FitsNumeric (precision scale : ℕ) (x : ℚ) : Prop := |x| + 1 / (2 * 10 ^ scale) < 10 ^ (precision - scale)
instance (precision scale : ℕ) (x : ℚ) : Decidable (FitsNumeric precision scale x) := inferInstanceAs (Decidable (_ < _))

structure RateValues.Fits (v : RateValues) : Prop where
  fundingRate : FitsNumeric 20 10 v.fundingRate
  fundingRate8h : FitsNumeric 20 10 v.fundingRate8h
  fundingApr : FitsNumeric 20 6 v.fundingApr
  markPrice : FitsNumeric 24 8 v.markPrice
  indexPrice : FitsNumeric 24 8 v.indexPrice
  openInterestUsd : FitsNumeric 28 4 v.openInterestUsd
  volume24hUsd : FitsNumeric 28 4 v.volume24hUsd
  priceSpreadPct : FitsNumeric 12 6 v.priceSpreadPct
instance (v : RateValues) : Decidable v.Fits :=
  decidable_of_iff (FitsNumeric 20 10 v.fundingRate ∧ FitsNumeric 20 10 v.fundingRate8h ∧ FitsNumeric 20 6 v.fundingApr ∧
      FitsNumeric 24 8 v.markPrice ∧ FitsNumeric 24 8 v.indexPrice ∧ FitsNumeric 28 4 v.openInterestUsd ∧
      FitsNumeric 28 4 v.volume24hUsd ∧ FitsNumeric 12 6 v.priceSpreadPct)
    ⟨fun ⟨a,b,c,d,e,f,g,h⟩ => ⟨a,b,c,d,e,f,g,h⟩,fun ⟨a,b,c,d,e,f,g,h⟩ => ⟨a,b,c,d,e,f,g,h⟩⟩

/-- The id of each name, and the rates by `(time, exchange_id, token_id)`. -/
structure Tables where
  exchanges : Dict String ℤ
  tokens : Dict String ℤ
  rates : Dict (ℤ × ℤ × ℤ) RateValues
  exchangeIds : ∀ a b i, exchanges.get? a = some i → exchanges.get? b = some i → a = b
  tokenIds : ∀ a b i, tokens.get? a = some i → tokens.get? b = some i → a = b
  references : ∀ time e k v, rates.get? (time,e,k) = some v →
    (∃ slug, exchanges.get? slug = some e) ∧ ∃ symbol, tokens.get? symbol = some k
  fits : ∀ key v, rates.get? key = some v → v.Fits

namespace Tables

def empty : Tables where
  exchanges := .empty
  tokens := .empty
  rates := .empty
  exchangeIds _ _ _ found := by cases found
  tokenIds _ _ _ found := by cases found
  references _ _ _ _ found := by cases found
  fits _ _ found := by cases found

/-- Neither the name nor the id is taken. -/
def Free (rows : Dict String ℤ) (name : String) (id : ℤ) : Prop := ∀ e ∈ rows.entries, e.1 ≠ name ∧ e.2 ≠ id
instance (rows : Dict String ℤ) (name : String) (id : ℤ) : Decidable (Free rows name id) :=
  inferInstanceAs (Decidable (∀ e ∈ rows.entries, _))
def HasId (rows : Dict String ℤ) (id : ℤ) : Prop := ∃ e ∈ rows.entries, e.2 = id
instance (rows : Dict String ℤ) (id : ℤ) : Decidable (HasId rows id) :=
  inferInstanceAs (Decidable (∃ e ∈ rows.entries, _))

theorem free_iff (rows : Dict String ℤ) (name : String) (id : ℤ) :
    Free rows name id ↔ rows.get? name = none ∧ ∀ other i, rows.get? other = some i → i ≠ id := by
  constructor
  · intro free
    constructor
    · rw [Option.eq_none_iff_forall_ne_some]
      intro i found
      exact (free (name,i) ((Dict.mem_entries_iff _ _ _).mpr found)).1 rfl
    · intro other i found
      exact (free (other,i) ((Dict.mem_entries_iff _ _ _).mpr found)).2
  · rintro ⟨absent,fresh⟩ ⟨other,i⟩ member
    have found := (Dict.mem_entries_iff _ _ _).mp member
    refine ⟨?_,fresh other i found⟩
    rintro rfl
    rw [absent] at found
    cases found

theorem hasId_iff (rows : Dict String ℤ) (id : ℤ) : HasId rows id ↔ ∃ name, rows.get? name = some id := by
  constructor
  · rintro ⟨⟨name,i⟩,member,rfl⟩
    exact ⟨name,(Dict.mem_entries_iff _ _ _).mp member⟩
  · rintro ⟨name,found⟩
    exact ⟨(name,id),(Dict.mem_entries_iff _ _ _).mpr found,rfl⟩

theorem ids_insert {rows : Dict String ℤ} {name : String} {id : ℤ} (free : Free rows name id)
    (ids : ∀ a b i, rows.get? a = some i → rows.get? b = some i → a = b) (a b : String) (i : ℤ)
    (foundA : (rows.insert name id).get? a = some i) (foundB : (rows.insert name id).get? b = some i) : a = b := by
  obtain ⟨-,fresh⟩ := (free_iff _ _ _).mp free
  rw [Dict.get?_insert] at foundA foundB
  by_cases isA : a = name
  · by_cases isB : b = name
    · rw [isA,isB]
    · rw [if_pos isA] at foundA
      rw [if_neg isB] at foundB
      cases foundA
      exact absurd rfl (fresh b _ foundB)
  · rw [if_neg isA] at foundA
    by_cases isB : b = name
    · rw [if_pos isB] at foundB
      cases foundB
      exact absurd rfl (fresh a _ foundA)
    · rw [if_neg isB] at foundB
      exact ids a b i foundA foundB

theorem kept_insert {rows : Dict String ℤ} {name : String} {id : ℤ} (free : Free rows name id) {i : ℤ}
    (has : ∃ other, rows.get? other = some i) : ∃ other, (rows.insert name id).get? other = some i := by
  obtain ⟨other,found⟩ := has
  obtain ⟨absent,-⟩ := (free_iff _ _ _).mp free
  exact ⟨other,Dict.get?_insert_of_absent absent found id⟩

/-- `INSERT INTO exchanges`; the slug is a `String(64)`. -/
def addExchange (t : Tables) (slug : String) (id : ℤ) : Option Tables :=
  if free : slug.length ≤ 64 ∧ Free t.exchanges slug id then
    some { t with
      exchanges := t.exchanges.insert slug id
      exchangeIds := ids_insert free.2 t.exchangeIds
      references := fun time e k v found =>
        ⟨kept_insert free.2 (t.references time e k v found).1,(t.references time e k v found).2⟩ }
  else none
/-- `INSERT INTO tokens`; the symbol is a `String(32)`. -/
def addToken (t : Tables) (symbol : String) (id : ℤ) : Option Tables :=
  if free : symbol.length ≤ 32 ∧ Free t.tokens symbol id then
    some { t with
      tokens := t.tokens.insert symbol id
      tokenIds := ids_insert free.2 t.tokenIds
      references := fun time e k v found =>
        ⟨(t.references time e k v found).1,kept_insert free.2 (t.references time e k v found).2⟩ }
  else none

theorem fits_insert {t : Tables} {key : ℤ × ℤ × ℤ} {v : RateValues} (fits : v.Fits) (other : ℤ × ℤ × ℤ) (w : RateValues)
    (found : (t.rates.insert key v).get? other = some w) : w.Fits := by
  rw [Dict.get?_insert] at found
  by_cases same : other = key
  · rw [if_pos same] at found
    cases found
    exact fits
  · rw [if_neg same] at found
    exact t.fits other w found

theorem references_insert {t : Tables} {time e k : ℤ} {v : RateValues} (exchange : HasId t.exchanges e) (token : HasId t.tokens k)
    (time' e' k' : ℤ) (w : RateValues) (found : (t.rates.insert (time,e,k) v).get? (time',e',k') = some w) :
    (∃ slug, t.exchanges.get? slug = some e') ∧ ∃ symbol, t.tokens.get? symbol = some k' := by
  rw [Dict.get?_insert] at found
  by_cases same : (time',e',k') = (time,e,k)
  · cases same
    exact ⟨(hasId_iff _ _).mp exchange,(hasId_iff _ _).mp token⟩
  · rw [if_neg same] at found
    exact t.references time' e' k' w found

/-- The upsert of a row of `funding_rates`. -/
def putRate (t : Tables) (time e k : ℤ) (v : RateValues) : Option Tables :=
  if ok : HasId t.exchanges e ∧ HasId t.tokens k ∧ v.Fits then
    some { t with
      rates := t.rates.insert (time,e,k) v
      references := references_insert ok.1 ok.2.1
      fits := fits_insert ok.2.2 }
  else none

inductive Write
  | exchange (slug : String) (id : ℤ)
  | token (symbol : String) (id : ℤ)
  | rate (time exchangeId tokenId : ℤ) (values : RateValues)

def write (t : Tables) : Write → Option Tables
  | .exchange slug id => t.addExchange slug id
  | .token symbol id => t.addToken symbol id
  | .rate time e k v => t.putRate time e k v

variable {t t' : Tables}

theorem addExchange_eq_some {slug : String} {id : ℤ} (added : t.addExchange slug id = some t') :
    t.exchanges.get? slug = none ∧ t'.exchanges = t.exchanges.insert slug id ∧ t'.tokens = t.tokens ∧
    t'.rates = t.rates := by
  rw [addExchange] at added
  split at added
  · next free =>
    cases added
    exact ⟨((free_iff _ _ _).mp free.2).1,rfl,rfl,rfl⟩
  · cases added

theorem addToken_eq_some {symbol : String} {id : ℤ} (added : t.addToken symbol id = some t') :
    symbol.length ≤ 32 ∧ t.tokens.get? symbol = none ∧ t'.tokens = t.tokens.insert symbol id ∧
    t'.exchanges = t.exchanges ∧ t'.rates = t.rates := by
  rw [addToken] at added
  split at added
  · next free =>
    cases added
    exact ⟨free.1,((free_iff _ _ _).mp free.2).1,rfl,rfl,rfl⟩
  · cases added

/-- A symbol is refused for its length, or because it or the id is taken. -/
theorem addToken_eq_none {symbol : String} {id : ℤ} (refused : t.addToken symbol id = none)
    (fresh : ∀ other i, t.tokens.get? other = some i → i ≠ id) :
    32 < symbol.length ∨ ∃ i, t.tokens.get? symbol = some i := by
  rw [addToken] at refused
  split at refused
  · cases refused
  · next taken =>
    by_contra free
    obtain ⟨short,absent⟩ := not_or.mp free
    refine taken ⟨Nat.le_of_not_lt short,(free_iff _ _ _).mpr ⟨?_,fresh⟩⟩
    exact Option.eq_none_iff_forall_ne_some.mpr fun i found => absent ⟨i,found⟩

theorem putRate_eq_some {time e k : ℤ} {v : RateValues} (put : t.putRate time e k v = some t') :
    t'.rates = t.rates.insert (time,e,k) v ∧ t'.exchanges = t.exchanges ∧ t'.tokens = t.tokens := by
  rw [putRate] at put
  split at put
  · cases put
    exact ⟨rfl,rfl,rfl⟩
  · cases put

theorem exists_putRate (time : ℤ) {e k : ℤ} {v : RateValues} {slug symbol : String} (exchange : t.exchanges.get? slug = some e)
    (token : t.tokens.get? symbol = some k) (fits : v.Fits) : ∃ t', t.putRate time e k v = some t' := by
  have ok : HasId t.exchanges e ∧ HasId t.tokens k ∧ v.Fits :=
    ⟨(hasId_iff _ _).mpr ⟨slug,exchange⟩,(hasId_iff _ _).mpr ⟨symbol,token⟩,fits⟩
  rw [putRate,dif_pos ok]
  exact ⟨_,rfl⟩

end Tables
end FundingRadar
