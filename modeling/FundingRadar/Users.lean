import Mathlib.Data.Int.Notation
import FundingRadar.Dict

/-!
The `users` table, as far as tiers and payments use it. API keys and Stripe customers
are unique, which the table carries as a field; a write that breaks it is refused as
the database refuses it.
-/
namespace FundingRadar

inductive UserTier
  | free
  | pro
  | custom
deriving DecidableEq

structure User where
  apiKey : String
  tier : UserTier
  isActive : Bool
  stripeCustomerId : Option String
deriving DecidableEq

/-- Two users share a value of a unique column; NULL is never shared. -/
def User.Clashes (a b : User) : Prop :=
  a.apiKey = b.apiKey ∨ a.stripeCustomerId.isSome ∧ a.stripeCustomerId = b.stripeCustomerId
instance (a b : User) : Decidable (a.Clashes b) := inferInstanceAs (Decidable (_ ∨ _))

theorem User.Clashes.symm {a b : User} (clash : a.Clashes b) : b.Clashes a := by
  rcases clash with key | ⟨some,customer⟩
  · exact .inl key.symm
  · exact .inr ⟨customer ▸ some,customer.symm⟩

/-- The rows by primary key. -/
structure UsersTable where
  rows : Dict ℤ User
  unique : ∀ i j a b, rows.get? i = some a → rows.get? j = some b → a.Clashes b → i = j

namespace UsersTable
variable {t t' : UsersTable}

def empty : UsersTable := ⟨.empty,fun _ _ _ _ found => by cases found⟩

/-- No other row clashes with a new row under `id`. -/
def Fits (t : UsersTable) (id : ℤ) (u : User) : Prop := ∀ e ∈ t.rows.entries, e.2.Clashes u → e.1 = id
instance (t : UsersTable) (id : ℤ) (u : User) : Decidable (t.Fits id u) :=
  inferInstanceAs (Decidable (∀ e ∈ t.rows.entries, _))

theorem fits_iff (id : ℤ) (u : User) : t.Fits id u ↔ ∀ j other, t.rows.get? j = some other → other.Clashes u → j = id := by
  constructor
  · intro fits j other found
    exact fits (j,other) ((Dict.mem_entries_iff _ _ _).mpr found)
  · rintro fits ⟨j,other⟩ member
    exact fits j other ((Dict.mem_entries_iff _ _ _).mp member)

theorem unique_insert {id : ℤ} {u : User} (fits : t.Fits id u) (i j : ℤ) (a b : User)
    (foundA : (t.rows.insert id u).get? i = some a) (foundB : (t.rows.insert id u).get? j = some b)
    (clash : a.Clashes b) : i = j := by
  rw [fits_iff] at fits
  rw [Dict.get?_insert] at foundA foundB
  by_cases isI : i = id
  · by_cases isJ : j = id
    · rw [isI,isJ]
    · rw [if_pos isI] at foundA
      rw [if_neg isJ] at foundB
      cases foundA
      rw [isI,fits j b foundB clash.symm]
  · rw [if_neg isI] at foundA
    by_cases isJ : j = id
    · rw [if_pos isJ] at foundB
      cases foundB
      rw [isJ,fits i a foundA clash]
    · rw [if_neg isJ] at foundB
      exact t.unique i j a b foundA foundB clash

/-- Write a row; `none` is an `IntegrityError`. -/
def set (t : UsersTable) (id : ℤ) (u : User) : Option UsersTable :=
  if fits : t.Fits id u then some ⟨t.rows.insert id u,unique_insert fits⟩ else none
/-- `UPDATE users SET … WHERE id = …`, which changes nothing where there is no such row. -/
def update (t : UsersTable) (id : ℤ) (change : User → User) : Option UsersTable :=
  match t.rows.get? id with
  | none => some t
  | some u => t.set id (change u)

/-- The first row that passes a test, with its id. -/
def find (t : UsersTable) (test : User → Bool) : Option (ℤ × User) := t.rows.entries.find? (fun e => test e.2)
/-- The active user with a key, and the user of a customer. -/
def findByKey (t : UsersTable) (key : String) : Option (ℤ × User) := t.find (fun u => u.apiKey = key ∧ u.isActive = true)
def findByCustomer (t : UsersTable) (customer : String) : Option (ℤ × User) :=
  t.find (fun u => u.stripeCustomerId = some customer)

theorem get?_update {id : ℤ} {change : User → User} (updated : t.update id change = some t') (j : ℤ) :
    t'.rows.get? j = if j = id then (t.rows.get? id).map change else t.rows.get? j := by
  rw [update] at updated
  split at updated
  · next missing =>
    cases updated
    by_cases same : j = id
    · rw [if_pos same,same,missing,Option.map_none]
    · rw [if_neg same]
  · next u found =>
    rw [set] at updated
    split at updated
    · cases updated
      rw [Dict.get?_insert,found,Option.map_some]
    · cases updated

theorem update_isSome_iff {id : ℤ} {change : User → User} {u : User} (found : t.rows.get? id = some u) :
    (∃ t', t.update id change = some t') ↔ t.Fits id (change u) := by
  simp only [update,found,set]
  by_cases fits : t.Fits id (change u) <;> simp [fits]

/-- A change that leaves the unique columns alone is never refused. -/
theorem update_of_same_columns {id : ℤ} {change : User → User} (key : ∀ u, (change u).apiKey = u.apiKey)
    (customer : ∀ u, (change u).stripeCustomerId = u.stripeCustomerId) : ∃ t', t.update id change = some t' := by
  cases found : t.rows.get? id with
  | none => exact ⟨t,by simp only [update,found]⟩
  | some u =>
    rw [update_isSome_iff found,fits_iff]
    intro j other foundOther clash
    refine t.unique j id other u foundOther found ?_
    rw [User.Clashes,key,customer] at clash
    exact clash

/-- A test that only clashing users pass finds the one row that passes it. -/
theorem find_eq_some_iff {test : User → Bool} (clash : ∀ a b, test a = true → test b = true → a.Clashes b) (id : ℤ) (u : User) :
    t.find test = some (id,u) ↔ t.rows.get? id = some u ∧ test u = true := by
  constructor
  · intro found
    rw [find] at found
    have passes := List.find?_some found
    exact ⟨(Dict.mem_entries_iff _ _ _).mp (List.mem_of_find?_eq_some found),passes⟩
  · rintro ⟨row,passes⟩
    cases found : t.find test with
    | none =>
      have absent := List.find?_eq_none.mp found (id,u) ((Dict.mem_entries_iff _ _ _).mpr row)
      exact absurd passes absent
    | some e =>
      obtain ⟨j,other⟩ := e
      rw [find] at found
      have otherPasses := List.find?_some found
      have otherRow := (Dict.mem_entries_iff _ _ _).mp (List.mem_of_find?_eq_some found)
      obtain rfl := t.unique j id other u otherRow row (clash other u otherPasses passes)
      rw [row] at otherRow
      cases otherRow
      rfl

theorem findByKey_eq_some_iff (key : String) (id : ℤ) (u : User) :
    t.findByKey key = some (id,u) ↔ t.rows.get? id = some u ∧ u.apiKey = key ∧ u.isActive = true := by
  rw [findByKey,find_eq_some_iff,decide_eq_true_eq]
  intro a b testA testB
  exact .inl ((of_decide_eq_true testA).1.trans (of_decide_eq_true testB).1.symm)

theorem findByCustomer_eq_some_iff (customer : String) (id : ℤ) (u : User) :
    t.findByCustomer customer = some (id,u) ↔ t.rows.get? id = some u ∧ u.stripeCustomerId = some customer := by
  rw [findByCustomer,find_eq_some_iff,decide_eq_true_eq]
  intro a b testA testB
  have hasA := of_decide_eq_true testA
  have hasB := of_decide_eq_true testB
  exact .inr ⟨by rw [hasA]; rfl,hasA.trans hasB.symm⟩

end UsersTable
end FundingRadar
