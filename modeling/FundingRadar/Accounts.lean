import FundingRadar.ClientIsolation
import FundingRadar.RateHistory
import FundingRadar.Runs
import FundingRadar.TokenKinds

/-!
Accounts: `register` looks an email up, hashes the password and inserts, with an await between;
`login` compares a password with the hash, and `/auth/me` shows whom a token names. Requests run
interleaved, together with whatever else changes users. No email is registered twice, a
registration is never undone or given to another, and the credentials of a registration, and
no others, lead to its account for as long as that is active (`accounts_hold`).

Emails are as `EmailStr` leaves them; the limiter and a database that fails are left out.
-/
namespace FundingRadar
open Runs TokenKinds RateHistory

/-- `bcrypt`. -/
structure BcryptLibrary where
  /-- `hashpw` of a password and a salt, or the text of its `ValueError`. -/
  hashpw : String → String → Except String String
  /-- `none` where it raises. -/
  checkpw : String → String → Option Bool
  accepts : ∀ plain salt hash, plain.utf8ByteSize ≤ 72 → hashpw plain salt = .ok hash → checkpw plain hash = some true
  hashed : ∀ plain salt hash, hashpw plain salt = .ok hash → hash ≠ ""

/-- The columns of a user that the tiers do not use. -/
structure Profile where
  email : String
  hashedPassword : Option String
  telegramChatId : Option String
deriving DecidableEq

/-- The `users` table with these columns; emails are unique. -/
structure AccountsTable where
  users : UsersTable
  profiles : Dict ℤ Profile
  emails : ∀ i j a b, profiles.get? i = some a → profiles.get? j = some b → a.email = b.email → i = j
  owners : ∀ i, (profiles.get? i).isSome = (users.rows.get? i).isSome

namespace AccountsTable

def empty : AccountsTable := ⟨.empty,.empty,(fun _ _ _ _ found => by cases found),fun _ => rfl⟩

/-- The row breaks no constraint. -/
def Admits (t : AccountsTable) (id : ℤ) (u : User) (p : Profile) : Prop :=
  t.users.Fits id u ∧ t.profiles.get? id = none ∧ ∀ e ∈ t.profiles.entries, e.2.email ≠ p.email
instance (t : AccountsTable) (id : ℤ) (u : User) (p : Profile) : Decidable (t.Admits id u p) :=
  inferInstanceAs (Decidable (_ ∧ _ ∧ ∀ e ∈ t.profiles.entries, _))

theorem emails_insert {t : AccountsTable} {id : ℤ} {p : Profile} (fresh : ∀ e ∈ t.profiles.entries, e.2.email ≠ p.email)
    (i j : ℤ) (a b : Profile) (foundA : (t.profiles.insert id p).get? i = some a) (foundB : (t.profiles.insert id p).get? j = some b)
    (same : a.email = b.email) : i = j := by
  have others : ∀ k q, t.profiles.get? k = some q → q.email ≠ p.email :=
    fun k q found => fresh (k,q) ((Dict.mem_entries_iff _ _ _).mpr found)
  rw [Dict.get?_insert] at foundA foundB
  by_cases isI : i = id
  · by_cases isJ : j = id
    · rw [isI,isJ]
    · rw [if_pos isI] at foundA
      rw [if_neg isJ] at foundB
      cases foundA
      exact absurd same.symm (others j b foundB)
  · rw [if_neg isI] at foundA
    by_cases isJ : j = id
    · rw [if_pos isJ] at foundB
      cases foundB
      exact absurd same (others i a foundA)
    · rw [if_neg isJ] at foundB
      exact t.emails i j a b foundA foundB same

/-- `INSERT INTO users`; `none` is an `IntegrityError`. -/
def insert (t : AccountsTable) (id : ℤ) (u : User) (p : Profile) : Option AccountsTable :=
  if admits : t.Admits id u p then
    some ⟨⟨t.users.rows.insert id u,UsersTable.unique_insert admits.1⟩,t.profiles.insert id p,emails_insert admits.2.2,fun i => by
      rw [Dict.get?_insert,Dict.get?_insert]
      split
      · rfl
      · exact t.owners i⟩
  else none

/-- A write of the tiers, the payments or the keys to one user, or its `IntegrityError`. -/
def update (t : AccountsTable) (id : ℤ) (change : User → User) : AccountsTable :=
  match updated : t.users.update id change with
  | none => t
  | some users =>
    { t with
      users := users
      owners := fun i => by
        rw [UsersTable.get?_update updated,t.owners i]
        split
        next same => rw [same,Option.isSome_map]
        next => rfl }
/-- A chat is linked to a user, or unlinked. -/
def link (t : AccountsTable) (id : ℤ) (chat : Option String) : AccountsTable :=
  match found : t.profiles.get? id with
  | none => t
  | some p =>
    { t with
      profiles := t.profiles.insert id { p with telegramChatId := chat }
      emails := fun i j a b foundA foundB same => by
        have email : ∀ k q, (t.profiles.insert id { p with telegramChatId := chat }).get? k = some q →
            ∃ q', t.profiles.get? k = some q' ∧ q'.email = q.email := by
          intro k q there
          rw [Dict.get?_insert] at there
          split at there
          next isId =>
            cases there
            exact ⟨p,isId ▸ found,rfl⟩
          next => exact ⟨q,there,rfl⟩
        obtain ⟨a',oldA,sameA⟩ := email i a foundA
        obtain ⟨b',oldB,sameB⟩ := email j b foundB
        exact t.emails i j a' b' oldA oldB (sameA.trans (same.trans sameB.symm))
      owners := fun i => by
        rw [Dict.get?_insert,← t.owners i]
        split
        next same => rw [same,found]; rfl
        next => rfl }

variable {t t' : AccountsTable} {id : ℤ}

theorem insert_eq_some {u : User} {p : Profile} (inserted : t.insert id u p = some t') :
    t.profiles.get? id = none ∧ (∀ e ∈ t.profiles.entries, e.2.email ≠ p.email) ∧ t'.profiles = t.profiles.insert id p := by
  rw [insert] at inserted
  split at inserted
  next admits =>
    cases inserted
    exact ⟨admits.2.1,admits.2.2,rfl⟩
  next => cases inserted

theorem insert_isSome_iff {u : User} {p : Profile} : (t.insert id u p).isSome = true ↔ t.Admits id u p := by
  rw [insert]
  split
  next admits => exact iff_of_true rfl admits
  next refused => exact iff_of_false Bool.false_ne_true refused

theorem profiles_update (change : User → User) : (t.update id change).profiles = t.profiles := by
  rw [update]
  split
  · rfl
  · rfl

theorem get?_link (chat : Option String) (j : ℤ) :
    (t.link id chat).profiles.get? j = (t.profiles.get? j).map fun p => if j = id then { p with telegramChatId := chat } else p := by
  rw [link]
  split
  next missing =>
    by_cases same : j = id
    · rw [same,missing,Option.map_none]
    · simp only [if_neg same,Option.map_id']
  next p found =>
    dsimp only
    rw [Dict.get?_insert]
    by_cases same : j = id
    · rw [if_pos same,same,found,Option.map_some,if_pos rfl]
    · simp only [if_neg same,Option.map_id']

/-- The email and the hash of a row. -/
def credentials (t : AccountsTable) (id : ℤ) : Option (String × Option String) :=
  (t.profiles.get? id).map fun p => (p.email,p.hashedPassword)

theorem credentials_link (chat : Option String) : (t.link id chat).credentials = t.credentials := by
  funext j
  rw [credentials,credentials,get?_link,Option.map_map]
  congr 1
  funext p
  dsimp only [Function.comp_apply]
  split
  · rfl
  · rfl

end AccountsTable

namespace Accounts
section
variable (bcrypt : BcryptLibrary)

/-- `hash_password`, with the salt that it draws; an error is a `ValueError`. -/
def hashPassword (plain salt : String) : Except String String :=
  if 72 < plain.utf8ByteSize then .error "Password is too long. Must be at most 72 bytes in UTF-8." else bcrypt.hashpw plain salt
def verifyPassword (plain hashed : String) : Bool := (bcrypt.checkpw plain hashed).getD false

/-- A registration between its lookup and its insert. -/
structure Registration where
  email : String
  password : String
  salt : String
  hashed : String
  apiKey : String
  hashes : hashPassword bcrypt password salt = .ok hashed

/-- The table, the sequence of its ids, and the registrations under way. -/
structure State where
  table : AccountsTable
  lastId : ℤ
  pending : Dict ℕ (Registration bcrypt)

/-- How a request ends. -/
inductive Response
  | registered (id : ℤ) (q : Registration bcrypt)
  | signedIn (id : ℤ)
  | refused (e : HttpException)
  /-- A 422 of the validation. -/
  | invalidBody
  | integrityError

inductive Action
  /-- `register` up to the answer to its lookup, with the salt and the key that it draws. -/
  | register (r : ℕ) (email password salt apiKey : String)
  /-- The insert of a registration. -/
  | commit (r : ℕ)
  | login (email password : String)
  | update (id : ℤ) (change : User → User)
  | link (id : ℤ) (chat : Option String)

def init : State bcrypt := ⟨.empty,0,.empty⟩

/-- The lookup of `register`. -/
def existing (t : AccountsTable) (email : String) : Option ℤ := (t.profiles.entries.find? fun e => e.2.email = email).map Prod.fst
/-- `register` before its insert. -/
def register (t : AccountsTable) (email password salt apiKey : String) : Except (Response bcrypt) (Registration bcrypt) :=
  if password.length < 8 ∨ 72 < password.length then .error .invalidBody
  else if ∃ id ∈ existing t email, id ≠ 0 then .error (.refused ⟨409,"An account with this email already exists."⟩)
  else
    match hashes : hashPassword bcrypt password salt with
    | .error text => .error (.refused ⟨422,text⟩)
    | .ok hashed => .ok ⟨email,password,salt,hashed,apiKey,hashes⟩

/-- The row of a registration. -/
def newUser (q : Registration bcrypt) : User := ⟨q.apiKey,.free,true,none⟩
def newProfile (q : Registration bcrypt) : Profile := ⟨q.email,some q.hashed,none⟩

/-- The row that `login` goes by: an active user with the email. -/
def candidate (t : AccountsTable) (email : String) : Option (ℤ × Profile) :=
  t.profiles.entries.find? fun e => e.2.email = email ∧ ((t.users.rows.get? e.1).elim false User.isActive) = true
/-- `login`; `none` is its 401. -/
def login (t : AccountsTable) (email password : String) : Option ℤ :=
  match candidate t email with
  | none => none
  | some (id,p) =>
    match p.hashedPassword with
    | none => none
    | some hash => if hash = "" then none else if verifyPassword bcrypt password hash then some id else none

def step (s : State bcrypt) : Action → State bcrypt
  | .register r email password salt apiKey =>
    match s.pending.get? r with
    | some _ => s
    | none =>
      match register bcrypt s.table email password salt apiKey with
      | .error _ => s
      | .ok q => { s with pending := s.pending.insert r q }
  | .commit r =>
    match s.pending.get? r with
    | none => s
    | some q =>
      ⟨(s.table.insert (s.lastId + 1) (newUser bcrypt q) (newProfile bcrypt q)).getD s.table,s.lastId + 1,s.pending.erase r⟩
  | .login _ _ => s
  | .update id change => { s with table := s.table.update id change }
  | .link id chat => { s with table := s.table.link id chat }

def respond (s : State bcrypt) : Action → List (Response bcrypt)
  | .register r email password salt apiKey =>
    match s.pending.get? r with
    | some _ => []
    | none =>
      match register bcrypt s.table email password salt apiKey with
      | .error answer => [answer]
      | .ok _ => []
  | .commit r =>
    match s.pending.get? r with
    | none => []
    | some q =>
      match s.table.insert (s.lastId + 1) (newUser bcrypt q) (newProfile bcrypt q) with
      | none => [.integrityError]
      | some _ => [.registered (s.lastId + 1) q]
  | .login email password =>
    match login bcrypt s.table email password with
    | none => [.refused ⟨401,"Invalid email or password."⟩]
    | some id => [.signedIn id]
  | .update _ _ => []
  | .link _ _ => []

def run (actions : List Action) : State bcrypt := actions.foldl (step bcrypt) (init bcrypt)
def responses (actions : List Action) : List (Response bcrypt) := outputs (step bcrypt) (respond bcrypt) (init bcrypt) actions

variable {bcrypt}

/-! ### Registrations -/

/-- The registrations among the answers, with their ids. -/
def Response.registration : Response bcrypt → Option (ℤ × Registration bcrypt)
  | .registered id q => some (id,q)
  | .signedIn _ => none
  | .refused _ => none
  | .invalidBody => none
  | .integrityError => none
def registrations (out : List (Response bcrypt)) : List (ℤ × Registration bcrypt) := out.filterMap Response.registration

theorem registrations_append (out answers : List (Response bcrypt)) :
    registrations (out ++ answers) = registrations out ++ registrations answers := List.filterMap_append ..

/-- The table has the email and the hash of every registration and no others, and no two
    registrations share an email. -/
structure Inv (out : List (Response bcrypt)) (t : AccountsTable) : Prop where
  recorded : ∀ id c, t.credentials id = some c ↔ ∃ q, (id,q) ∈ registrations out ∧ (q.email,some q.hashed) = c
  once : ((registrations out).map fun m => m.2.email).Nodup

variable {out answers : List (Response bcrypt)} {t t' : AccountsTable}

theorem Inv.empty : Inv ([] : List (Response bcrypt)) .empty where
  recorded id c := by
    refine iff_of_false (fun impossible => by cases impossible) ?_
    rintro ⟨q,impossible,-⟩
    cases impossible
  once := List.nodup_nil

/-- Nothing is registered, and the credentials stay. -/
theorem Inv.quiet (inv : Inv out t) (same : t'.credentials = t.credentials) (none_ : registrations answers = []) :
    Inv (out ++ answers) t' where
  recorded id c := by rw [registrations_append,none_,List.append_nil,same,inv.recorded]
  once := by
    rw [registrations_append,none_,List.append_nil]
    exact inv.once

/-- The insert of a registration. -/
theorem Inv.inserted (inv : Inv out t) {id : ℤ} {q : Registration bcrypt}
    (inserted : t.insert id (newUser bcrypt q) (newProfile bcrypt q) = some t') : Inv (out ++ [.registered id q]) t' := by
  obtain ⟨absent,unused,profiles⟩ := AccountsTable.insert_eq_some inserted
  have made : registrations (out ++ [.registered id q]) = registrations out ++ [(id,q)] := registrations_append out [.registered id q]
  constructor
  · intro j c
    rw [AccountsTable.credentials,profiles,Dict.get?_insert,made]
    by_cases same : j = id
    · rw [if_pos same,same]
      constructor
      · intro found
        exact ⟨q,List.mem_append_right _ (List.mem_singleton_self _),Option.some.inj found⟩
      · rintro ⟨q',member,rfl⟩
        rcases List.mem_append.mp member with earlier | last
        · have recorded := (inv.recorded id _).mpr ⟨q',earlier,rfl⟩
          rw [AccountsTable.credentials,absent] at recorded
          cases recorded
        · cases List.mem_singleton.mp last
          rfl
    · rw [if_neg same]
      refine (inv.recorded j c).trans ⟨?_,?_⟩
      · rintro ⟨q',member,equal⟩
        exact ⟨q',List.mem_append_left _ member,equal⟩
      · rintro ⟨q',member,equal⟩
        rcases List.mem_append.mp member with earlier | last
        · exact ⟨q',earlier,equal⟩
        · cases List.mem_singleton.mp last
          exact absurd rfl same
  · rw [made,List.map_append,List.nodup_append]
    refine ⟨inv.once,List.nodup_singleton _,?_⟩
    intro email earlier other last clash
    obtain ⟨⟨j,q'⟩,member,rfl⟩ := List.mem_map.mp earlier
    cases List.mem_singleton.mp last
    have recorded := (inv.recorded j _).mpr ⟨q',member,rfl⟩
    rw [AccountsTable.credentials,Option.map_eq_some_iff] at recorded
    obtain ⟨p,found,columns⟩ := recorded
    exact unused (j,p) ((Dict.mem_entries_iff _ _ _).mpr found) ((congrArg Prod.fst columns).trans clash)

theorem register_error {email password salt apiKey : String} {answer : Response bcrypt}
    (refused : register bcrypt t email password salt apiKey = .error answer) : registrations [answer] = [] := by
  rw [register] at refused
  split at refused
  · cases refused
    rfl
  · split at refused
    · cases refused
      rfl
    · split at refused
      · cases refused
        rfl
      · cases refused

theorem Inv.step {s : State bcrypt} (a : Action) (inv : Inv out s.table) : Inv (out ++ respond bcrypt s a) (step bcrypt s a).table := by
  cases a with
  | register r email password salt apiKey =>
    rw [respond,Accounts.step]
    cases s.pending.get? r with
    | some _ => exact inv.quiet rfl rfl
    | none =>
      dsimp only
      cases lookup : register bcrypt s.table email password salt apiKey with
      | error answer => exact inv.quiet rfl (register_error lookup)
      | ok q => exact inv.quiet rfl rfl
  | commit r =>
    rw [respond,Accounts.step]
    cases s.pending.get? r with
    | none => exact inv.quiet rfl rfl
    | some q =>
      dsimp only
      cases inserted : s.table.insert (s.lastId + 1) (newUser bcrypt q) (newProfile bcrypt q) with
      | none => exact inv.quiet rfl rfl
      | some t' => exact inv.inserted inserted
  | login email password =>
    rw [respond,Accounts.step]
    cases login bcrypt s.table email password with
    | none => exact inv.quiet rfl rfl
    | some id => exact inv.quiet rfl rfl
  | update id change =>
    refine inv.quiet ?_ rfl
    funext j
    rw [AccountsTable.credentials,Accounts.step,AccountsTable.profiles_update]
    rfl
  | link id chat => exact inv.quiet (AccountsTable.credentials_link chat) rfl

theorem run_inv (actions : List Action) : Inv (responses bcrypt actions) (run bcrypt actions).table := by
  let inv := fun (out : List (Response bcrypt)) (s : State bcrypt) => Inv out s.table
  have keeps : ∀ out s a, inv out s → inv (out ++ respond bcrypt s a) (step bcrypt s a) := fun _ _ a holds => holds.step a
  exact outputs_kept keeps Inv.empty actions

/-- A registered row is there, with its email. -/
theorem Inv.profile (inv : Inv out t) {id : ℤ} {q : Registration bcrypt} (made : (id,q) ∈ registrations out) :
    ∃ p u, t.profiles.get? id = some p ∧ p.email = q.email ∧ t.users.rows.get? id = some u := by
  have columns := (inv.recorded id _).mpr ⟨q,made,rfl⟩
  rw [AccountsTable.credentials,Option.map_eq_some_iff] at columns
  obtain ⟨p,found,equal⟩ := columns
  have owned := t.owners id
  rw [found] at owned
  obtain ⟨u,row⟩ := Option.isSome_iff_exists.mp owned.symm
  exact ⟨p,u,found,congrArg Prod.fst equal,row⟩

/-- No id beyond the sequence is taken. -/
def Numbered (s : State bcrypt) : Prop := ∀ id, s.lastId < id → s.table.profiles.get? id = none

theorem Numbered.step {s : State bcrypt} (numbered : Numbered s) (a : Action) : Numbered (step bcrypt s a) := by
  cases a with
  | register r email password salt apiKey =>
    rw [Accounts.step]
    split
    · exact numbered
    · split
      · exact numbered
      · exact numbered
  | commit r =>
    rw [Accounts.step]
    split
    next => exact numbered
    next q _ =>
      intro id beyond
      dsimp only at beyond ⊢
      have absent := numbered id (by omega)
      cases inserted : s.table.insert (s.lastId + 1) (newUser bcrypt q) (newProfile bcrypt q) with
      | none => exact absent
      | some t' =>
        rw [Option.getD_some,(AccountsTable.insert_eq_some inserted).2.2,Dict.get?_insert,if_neg (by omega)]
        exact absent
  | login email password => exact numbered
  | update id change =>
    intro j beyond
    rw [Accounts.step,AccountsTable.profiles_update]
    exact numbered j beyond
  | link id chat =>
    intro j beyond
    rw [Accounts.step,AccountsTable.get?_link,numbered j beyond,Option.map_none]

theorem run_numbered (actions : List Action) : Numbered (run bcrypt actions) :=
  kept_run (fun _ a numbered => numbered.step a) (fun _ _ => rfl) actions

/-- An insert ends in the account, unless its email or its key is there. -/
theorem Inv.commit_iff {s : State bcrypt} (inv : Inv out s.table) (numbered : Numbered s) {r : ℕ} {q : Registration bcrypt}
    (pending : s.pending.get? r = some q) :
    respond bcrypt s (.commit r) = [.registered (s.lastId + 1) q] ↔
      (∀ m ∈ registrations out, m.2.email ≠ q.email) ∧ ∀ id u, s.table.users.rows.get? id = some u → u.apiKey ≠ q.apiKey := by
  have fresh := numbered (s.lastId + 1) (by omega)
  have admits : s.table.Admits (s.lastId + 1) (newUser bcrypt q) (newProfile bcrypt q) ↔
      (∀ m ∈ registrations out, m.2.email ≠ q.email) ∧ ∀ id u, s.table.users.rows.get? id = some u → u.apiKey ≠ q.apiKey := by
    constructor
    · rintro ⟨fits,-,unused⟩
      constructor
      · rintro ⟨id,q'⟩ made clash
        obtain ⟨p,u,profile,email,-⟩ := inv.profile made
        exact unused (id,p) ((Dict.mem_entries_iff _ _ _).mpr profile) (email.trans clash)
      · intro id u row clash
        have isNew := fits (id,u) ((Dict.mem_entries_iff _ _ _).mpr row) (.inl clash)
        have owned := s.table.owners id
        rw [row,show id = s.lastId + 1 from isNew,fresh] at owned
        cases owned
    · rintro ⟨emails,keys⟩
      refine ⟨?_,fresh,?_⟩
      · rintro ⟨id,u⟩ member clash
        rcases clash with key | ⟨present,customer⟩
        · exact absurd key (keys id u ((Dict.mem_entries_iff _ _ _).mp member))
        · rw [customer] at present
          cases present
      · rintro ⟨id,p⟩ member clash
        have columns : s.table.credentials id = some (p.email,p.hashedPassword) := by
          rw [AccountsTable.credentials,(Dict.mem_entries_iff _ _ _).mp member,Option.map_some]
        obtain ⟨q',made,equal⟩ := (inv.recorded id _).mp columns
        exact emails (id,q') made ((congrArg Prod.fst equal).trans clash)
  rw [← admits,← AccountsTable.insert_isSome_iff,respond,pending]
  dsimp only
  cases s.table.insert (s.lastId + 1) (newUser bcrypt q) (newProfile bcrypt q) with
  | none => exact iff_of_false (fun impossible => by cases impossible) Bool.false_ne_true
  | some t' => exact iff_of_true rfl rfl

/-! ### Credentials -/

/-- The active row of an id. -/
def IsActive (t : AccountsTable) (id : ℤ) : Prop := ∃ u, t.users.rows.get? id = some u ∧ u.isActive = true

theorem elim_isActive_iff (id : ℤ) : (t.users.rows.get? id).elim false User.isActive = true ↔ IsActive t id := by
  cases found : t.users.rows.get? id with
  | none =>
    refine iff_of_false Bool.false_ne_true ?_
    rintro ⟨u,row,-⟩
    rw [found] at row
    cases row
  | some u =>
    constructor
    · exact fun active => ⟨u,found,active⟩
    · rintro ⟨v,row,active⟩
      rw [found] at row
      cases row
      exact active

theorem candidate_eq_some_iff (email : String) (id : ℤ) (p : Profile) :
    candidate t email = some (id,p) ↔ t.profiles.get? id = some p ∧ p.email = email ∧ IsActive t id := by
  constructor
  · intro found
    rw [candidate] at found
    have passes := List.find?_some found
    rw [decide_eq_true_eq] at passes
    exact ⟨(Dict.mem_entries_iff _ _ _).mp (List.mem_of_find?_eq_some found),passes.1,(elim_isActive_iff id).mp passes.2⟩
  · rintro ⟨row,email_,active⟩
    have passes := decide_eq_true (And.intro email_ ((elim_isActive_iff id).mpr active))
    cases found : candidate t email with
    | none => exact absurd passes (List.find?_eq_none.mp found (id,p) ((Dict.mem_entries_iff _ _ _).mpr row))
    | some e =>
      obtain ⟨j,other⟩ := e
      rw [candidate] at found
      have otherPasses := List.find?_some found
      rw [decide_eq_true_eq] at otherPasses
      have otherRow := (Dict.mem_entries_iff _ _ _).mp (List.mem_of_find?_eq_some found)
      obtain rfl := t.emails j id other p otherRow row (otherPasses.1.trans email_.symm)
      rw [row] at otherRow
      cases otherRow
      rfl

theorem verifyPassword_iff (plain hashed : String) : verifyPassword bcrypt plain hashed = true ↔ bcrypt.checkpw plain hashed = some true := by
  rw [verifyPassword]
  cases bcrypt.checkpw plain hashed with
  | none => exact iff_of_false Bool.false_ne_true (fun impossible => by cases impossible)
  | some answer => exact (Option.some.injEq ..).symm.to_iff

/-- What a login goes by. -/
theorem login_eq_some_iff (email password : String) (id : ℤ) :
    login bcrypt t email password = some id ↔
      ∃ hash, t.credentials id = some (email,some hash) ∧ IsActive t id ∧ hash ≠ "" ∧ bcrypt.checkpw password hash = some true := by
  have row : ∀ hash, t.credentials id = some (email,some hash) ∧ IsActive t id ↔
      ∃ p, candidate t email = some (id,p) ∧ p.hashedPassword = some hash := by
    intro hash
    rw [AccountsTable.credentials,Option.map_eq_some_iff]
    constructor
    · rintro ⟨⟨p,found,columns⟩,active⟩
      obtain ⟨email_,hashed⟩ := Prod.mk.inj columns
      exact ⟨p,(candidate_eq_some_iff email id p).mpr ⟨found,email_,active⟩,hashed⟩
    · rintro ⟨p,found,hashed⟩
      obtain ⟨there,email_,active⟩ := (candidate_eq_some_iff email id p).mp found
      exact ⟨⟨p,there,Prod.ext email_ hashed⟩,active⟩
  rw [login]
  constructor
  · intro signedIn
    split at signedIn
    next => cases signedIn
    next j p found =>
      split at signedIn
      next => cases signedIn
      next hash hashed =>
        split at signedIn
        next => cases signedIn
        next nonempty =>
          split at signedIn
          next verified =>
            cases signedIn
            obtain ⟨columns,active⟩ := (row hash).mpr ⟨p,found,hashed⟩
            exact ⟨hash,columns,active,nonempty,(verifyPassword_iff password hash).mp verified⟩
          next => cases signedIn
  · rintro ⟨hash,columns,active,nonempty,checked⟩
    obtain ⟨p,found,hashed⟩ := (row hash).mp ⟨columns,active⟩
    simp only [found,hashed]
    rw [if_neg nonempty,if_pos ((verifyPassword_iff password hash).mpr checked)]

/-- The hash of a registration. -/
theorem Registration.hashpw_eq (q : Registration bcrypt) : q.password.utf8ByteSize ≤ 72 ∧ bcrypt.hashpw q.password q.salt = .ok q.hashed := by
  have hashes := q.hashes
  rw [hashPassword] at hashes
  split at hashes
  next => cases hashes
  next fits => exact ⟨Nat.le_of_not_lt fits,hashes⟩
theorem Registration.accepts (q : Registration bcrypt) : bcrypt.checkpw q.password q.hashed = some true :=
  bcrypt.accepts _ _ _ q.hashpw_eq.1 q.hashpw_eq.2
theorem Registration.hashed_ne (q : Registration bcrypt) : q.hashed ≠ "" := bcrypt.hashed _ _ _ q.hashpw_eq.2

/-- Exactly the credentials that fit a registration sign in. -/
theorem Inv.login_iff (inv : Inv out t) (email password : String) (id : ℤ) :
    login bcrypt t email password = some id ↔
      ∃ q, (id,q) ∈ registrations out ∧ q.email = email ∧ IsActive t id ∧ bcrypt.checkpw password q.hashed = some true := by
  rw [login_eq_some_iff]
  constructor
  · rintro ⟨hash,columns,active,-,checked⟩
    obtain ⟨q,made,equal⟩ := (inv.recorded id _).mp columns
    obtain ⟨email_,hashed⟩ := Prod.mk.inj equal
    cases hashed
    exact ⟨q,made,email_,active,checked⟩
  · rintro ⟨q,made,rfl,active,checked⟩
    exact ⟨q.hashed,(inv.recorded id _).mpr ⟨q,made,rfl⟩,active,q.hashed_ne,checked⟩

end

/-! ### Tokens -/

structure TokenResponse where
  accessToken : String
  refreshToken : String
  tokenType : String
  tier : String
structure UserResponse where
  id : ℤ
  email : String
  tier : String
  apiKey : String
  hasTelegram : Bool
  hasStripe : Bool
deriving DecidableEq

section
variable (jwt : JwtLibrary) (settings : JwtSettings)

/-- What `register` and `login` return. -/
def tokenResponse (id : ℤ) (tier : UserTier) (now : ℤ) : TokenResponse where
  accessToken := createAccessToken jwt settings id tier.value now none .empty
  refreshToken := createRefreshToken jwt settings id now
  tokenType := "bearer"
  tier := tier.value
/-- `get_me`, with what Redis caches. -/
def getMe (t : AccountsTable) (tierOf : Dict String UserTier) (apiKeyOf : Dict ℤ String) (token : String) (now : ℤ) :
    Except AuthException UserResponse :=
  (getCurrentUser jwt ⟨t.users,tierOf,apiKeyOf⟩ (some token) none now).2.map fun found =>
    let profile := t.profiles.get? found.1
    ⟨found.1,profile.elim "" Profile.email,found.2.tier.value,found.2.apiKey,(profile.bind Profile.telegramChatId).isSome,
      found.2.stripeCustomerId.isSome⟩

/-- A token that the user `id` got with a response, before it expires, from a library that decodes
    what it encodes and reads the id back. -/
inductive Valid (id now : ℤ) : String → Prop
  | access (tier : UserTier) (issued : ℤ) (parses : jwt.parseInt (toString id) = some id)
      (returns : jwt.Returns (accessClaims settings id tier.value issued none .empty)) (fresh : now < accessExpiry settings issued none) :
      Valid id now (tokenResponse jwt settings id tier issued).accessToken
  | refresh (tier : UserTier) (issued : ℤ) (parses : jwt.parseInt (toString id) = some id)
      (returns : jwt.Returns (refreshClaims settings id issued)) (fresh : now < refreshExpiry settings issued) :
      Valid id now (tokenResponse jwt settings id tier issued).refreshToken

variable {jwt settings}

theorem Valid.authenticates {id now : ℤ} {token : String} (valid : Valid jwt settings id now token) (s : TierCache) :
    Authenticates jwt s token id now := by
  cases valid with
  | access tier issued parses returns fresh =>
    exact authenticates_of_decoded (returns now _ (accessClaims_exp settings id issued tier.value none) fresh)
      (accessClaims_sub settings id issued tier.value none) parses
  | refresh tier issued parses returns fresh =>
    exact authenticates_of_decoded (returns now _ (refreshClaims_exp settings id issued) fresh)
      (refreshClaims_sub settings id issued) parses

/-- A valid token shows the row of its user. -/
theorem Valid.getMe_eq {id now : ℤ} {token : String} (valid : Valid jwt settings id now token) {t : AccountsTable} {u : User} {p : Profile}
    (row : t.users.rows.get? id = some u) (active : u.isActive = true) (profile : t.profiles.get? id = some p)
    (tierOf : Dict String UserTier) (apiKeyOf : Dict ℤ String) :
    getMe jwt t tierOf apiKeyOf token now =
      .ok ⟨id,p.email,u.tier.value,u.apiKey,p.telegramChatId.isSome,u.stripeCustomerId.isSome⟩ := by
  have found : activeUser t.users id = some (id,u) := by
    rw [activeUser,row,Option.filter_some,if_pos active,Option.map_some]
  rw [getMe,(valid.authenticates ⟨t.users,tierOf,apiKeyOf⟩ (id,u)).mpr found]
  dsimp only [Except.map]
  rw [profile]
  rfl

end

/-- Over every run: no email is registered twice; a login succeeds exactly with the email of a
    registration whose user is active and a password that its hash accepts; a registration keeps its
    row, signs in while that is active, and its tokens show its id and email; and the insert of one
    under way succeeds exactly where its email is not registered and its key not taken. -/
theorem accounts_hold (bcrypt : BcryptLibrary) (jwt : JwtLibrary) (settings : JwtSettings) (actions : List Action) :
    let made := registrations (responses bcrypt actions)
    let t := (run bcrypt actions).table
    (made.map fun m => m.2.email).Nodup ∧
      (∀ email password id, login bcrypt t email password = some id ↔
        ∃ q, (id,q) ∈ made ∧ q.email = email ∧ IsActive t id ∧ bcrypt.checkpw password q.hashed = some true) ∧
      (∀ id q, (id,q) ∈ made → ∃ u, t.users.rows.get? id = some u ∧ (u.isActive = true →
        login bcrypt t q.email q.password = some id ∧
          ∀ now token, Valid jwt settings id now token → ∀ tierOf apiKeyOf, ∃ me, getMe jwt t tierOf apiKeyOf token now = .ok me ∧
            me.id = id ∧ me.email = q.email ∧ me.tier = u.tier.value ∧ me.apiKey = u.apiKey)) ∧
      ∀ r q, (run bcrypt actions).pending.get? r = some q →
        (respond bcrypt (run bcrypt actions) (.commit r) = [.registered ((run bcrypt actions).lastId + 1) q] ↔
          (∀ m ∈ made, m.2.email ≠ q.email) ∧ ∀ id u, t.users.rows.get? id = some u → u.apiKey ≠ q.apiKey) := by
  intro made t
  have inv : Inv (responses bcrypt actions) t := run_inv actions
  refine ⟨inv.once,inv.login_iff,?_,fun r q pending => inv.commit_iff (run_numbered actions) pending⟩
  intro id q member
  obtain ⟨p,u,profile,email,row⟩ := inv.profile member
  refine ⟨u,row,?_⟩
  intro active
  refine ⟨(inv.login_iff q.email q.password id).mpr ⟨q,member,rfl,⟨u,row,active⟩,q.accepts⟩,?_⟩
  intro now token valid tierOf apiKeyOf
  exact ⟨_,valid.getMe_eq row active profile tierOf apiKeyOf,rfl,email,rfl,rfl⟩

/-- Salts have 29 characters and stand in front of what is hashed. -/
def saltInFront : BcryptLibrary where
  hashpw plain salt := if salt.length = 29 then .ok (salt ++ plain) else .error "Invalid salt"
  checkpw plain hash := some (hash.toList.drop 29 = plain.toList)
  accepts plain salt hash _ hashes := by
    split at hashes
    next long =>
      cases hashes
      rw [String.toList_append,List.drop_left' (String.length_toList ▸ long)]
      exact congrArg some (decide_eq_true rfl)
    next => cases hashes
  hashed plain salt hash hashes := by
    split at hashes
    next long =>
      cases hashes
      intro nothing
      have length := congrArg String.length nothing
      rw [String.length_append,long,String.length_empty] at length
      omega
    next => cases hashes

/-- Two registrations of one email look it up before either is inserted. -/
def bothLookUp : List Action :=
  [.register 1 "a@example.org" "correct horse" "$2b$12$abcdefghijklmnopqrstuv" "key-1",
    .register 2 "a@example.org" "battery staple" "$2b$12$vutsrqponmlkjihgfedcba" "key-2",.commit 1,.commit 2]

/-- The first is registered and the second fails; its password does not sign in, and that of the
    first does, with a token that shows the account. -/
theorem bothLookUp_hold :
    ((registrations (responses saltInFront bothLookUp)).map fun m => m.2.password) = ["correct horse"] ∧
      login saltInFront (run saltInFront bothLookUp).table "a@example.org" "battery staple" = none ∧
      login saltInFront (run saltInFront bothLookUp).table "a@example.org" "correct horse" = some 1 ∧
      ∃ me, getMe issuedToOne (run saltInFront bothLookUp).table .empty .empty
        (tokenResponse issuedToOne hourAndMonth 1 .free 1700000000).accessToken 1700003599 = .ok me ∧ me.email = "a@example.org" := by
  obtain ⟨-,-,each,-⟩ := accounts_hold saltInFront issuedToOne hourAndMonth bothLookUp
  have made : ((registrations (responses saltInFront bothLookUp)).map fun m => (m.1,m.2.email,m.2.password)) =
      [(1,"a@example.org","correct horse")] := by decide +kernel
  have first : (1,"a@example.org","correct horse") ∈
      (registrations (responses saltInFront bothLookUp)).map fun m => (m.1,m.2.email,m.2.password) := by
    rw [made]
    exact List.mem_singleton_self _
  obtain ⟨⟨id,q⟩,member,columns⟩ := List.mem_map.mp first
  obtain ⟨rfl,columns⟩ := Prod.mk.inj columns
  obtain ⟨email,password⟩ := Prod.mk.inj columns
  obtain ⟨u,row,owner⟩ := each 1 q member
  have active : u.isActive = true := by
    have there : ((run saltInFront bothLookUp).table.users.rows.get? 1).map User.isActive = some true := by decide +kernel
    rw [row,Option.map_some] at there
    exact Option.some.inj there
  obtain ⟨own,shows⟩ := owner active
  rw [email,password] at own
  have valid : Valid issuedToOne hourAndMonth 1 1700003599 (tokenResponse issuedToOne hourAndMonth 1 .free 1700000000).accessToken :=
    .access .free 1700000000 (by decide) issuedToOne_access (by decide)
  obtain ⟨me,shown,-,named,-⟩ := shows 1700003599 _ valid .empty .empty
  refine ⟨by decide +kernel,by decide +kernel,own,me,shown,named.trans email⟩

end Accounts
end FundingRadar
