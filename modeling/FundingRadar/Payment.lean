import FundingRadar.Users

/-!
The Stripe webhook: the route, the dispatcher and the two handlers that move a user
between tiers. Any step of a database session can fail, and a commit can also be
durable without being reported. The handlers log every exception and return, so the
route answers 200 whatever became of the write.
-/
namespace FundingRadar

/-- How a commit ends: done, rolled back with an exception, or durable although an
    exception is raised. -/
inductive CommitOutcome
  | done
  | lost
  | unreported
deriving DecidableEq

/-- Which steps of a session succeed. -/
structure DbOutcome where
  opens : Bool
  selects : Bool
  executes : Bool
  commit : CommitOutcome
  closes : Bool

def DbOutcome.success : DbOutcome := ⟨true,true,true,.done,true⟩

namespace Payment

/-- What is left of a database helper: the table, whether a write was committed, and
    whether the helper reached its end or raised. -/
structure Write where
  users : UsersTable
  committed : Bool
  returned : Bool

/-- The end of a session that has executed an update of `t` to `t'`. -/
def finish (db : DbOutcome) (t t' : UsersTable) : Write :=
  match db.commit with
  | .done => ⟨t',true,db.closes⟩
  | .lost => ⟨t,false,false⟩
  | .unreported => ⟨t',true,false⟩

/-- The values that `_upgrade_user` sets; an empty customer is no customer. -/
def upgraded (customer : Option String) (u : User) : User :=
  match customer with
  | none => { u with tier := .pro }
  | some c => if c = "" then { u with tier := .pro } else { u with tier := .pro,stripeCustomerId := some c }
def downgraded (u : User) : User := { u with tier := .free }

/-- A session that executes an `UPDATE` and commits. -/
def updateAndCommit (db : DbOutcome) (t : UsersTable) (id : ℤ) (change : User → User) : Write :=
  if !db.opens then ⟨t,false,false⟩
  else if !db.executes then ⟨t,false,false⟩
  else
    match t.update id change with
    | none => ⟨t,false,false⟩
    | some t' => finish db t t'

/-- The session of `_upgrade_user`. -/
def upgradeUser (db : DbOutcome) (t : UsersTable) (id : ℤ) (customer : Option String) : Write :=
  updateAndCommit db t id (upgraded customer)

/-- The session of `_downgrade_user_by_customer`, and the user that it found. -/
def downgradeUserByCustomer (db : DbOutcome) (t : UsersTable) (customer : String) : Write × Option ℤ :=
  if !db.opens then (⟨t,false,false⟩,none)
  else if !db.selects then (⟨t,false,false⟩,none)
  else
    match t.findByCustomer customer with
    | none => (⟨t,false,db.closes⟩,none)
    | some (id,_) => (updateAndCommit db t id downgraded,some id)

structure CheckoutSession where
  userId : Option String
  customer : Option String

inductive StripeEvent
  | checkoutCompleted (session : CheckoutSession)
  | subscriptionDeleted (customer : Option String)
  | subscriptionUpdated
  | other (type : String)

variable (parseInt : String → Option ℤ) (db : DbOutcome)

/-- `_handle_checkout_completed`. What `int` or the helper raises is logged. -/
def handleCheckoutCompleted (t : UsersTable) (session : CheckoutSession) : UsersTable × Bool :=
  match session.userId with
  | none => (t,false)
  | some text =>
    if text = "" then (t,false)
    else
      match parseInt text with
      | none => (t,false)
      | some id => ((upgradeUser db t id session.customer).users,(upgradeUser db t id session.customer).committed)

/-- `_handle_subscription_deleted`. What the helper raises is logged. -/
def handleSubscriptionDeleted (t : UsersTable) (customer : Option String) : UsersTable × Bool :=
  match customer with
  | none => (t,false)
  | some c =>
    if c = "" then (t,false)
    else ((downgradeUserByCustomer db t c).1.users,(downgradeUserByCustomer db t c).1.committed)

inductive StripeError
  | notConfigured
  | signatureVerification
deriving DecidableEq

/-- `handle_stripe_webhook`: the table and whether a write was committed. -/
def handleStripeWebhook (configured verified : Bool) (t : UsersTable) (event : StripeEvent) :
    Except StripeError (UsersTable × Bool) :=
  if !configured then .error .notConfigured
  else if !verified then .error .signatureVerification
  else
    match event with
    | .checkoutCompleted session => .ok (handleCheckoutCompleted parseInt db t session)
    | .subscriptionDeleted customer => .ok (handleSubscriptionDeleted db t customer)
    | .subscriptionUpdated => .ok (t,false)
    | .other _ => .ok (t,false)

/-- What a request leaves behind, and the status it is answered with. -/
structure Reply where
  users : UsersTable
  committed : Bool
  status : ℕ

/-- `stripe_webhook`. -/
def stripeWebhook (configured verified : Bool) (t : UsersTable) (event : StripeEvent) : Reply :=
  match handleStripeWebhook parseInt db configured verified t event with
  | .ok (users,committed) => ⟨users,committed,200⟩
  | .error .signatureVerification => ⟨t,false,400⟩
  | .error .notConfigured => ⟨t,false,503⟩

/-! ### Acknowledged writes -/

/-- The event is about an existing user. -/
def NamesUser (t : UsersTable) (id : ℤ) : StripeEvent → Prop
  | .checkoutCompleted session => (∃ text, session.userId = some text ∧ text ≠ "" ∧ parseInt text = some id) ∧
      ∃ u, t.rows.get? id = some u
  | .subscriptionDeleted customer => ∃ c u, customer = some c ∧ c ≠ "" ∧ t.rows.get? id = some u ∧
      u.stripeCustomerId = some c
  | .subscriptionUpdated => False
  | .other _ => False

/-- The tier that an event asks for. -/
def StripeEvent.tier : StripeEvent → UserTier
  | .checkoutCompleted _ => .pro
  | _ => .free

/-- A verified event is answered with 200 only when its tier is in the database, and
    with an error when its write did not commit. -/
structure Acknowledged (t : UsersTable) (id : ℤ) (event : StripeEvent) : Prop where
  durable : (stripeWebhook parseInt db true true t event).status = 200 →
    ∃ u, (stripeWebhook parseInt db true true t event).users.rows.get? id = some u ∧ u.tier = event.tier
  redelivered : (stripeWebhook parseInt db true true t event).committed = false →
    (stripeWebhook parseInt db true true t event).status ≠ 200

/-- Every step up to the commit succeeds, and the customer of a checkout is not
    another user's. -/
def Commits (t : UsersTable) (id : ℤ) : StripeEvent → Prop
  | .checkoutCompleted session => db.opens ∧ db.executes ∧ db.commit ≠ .lost ∧
      ∀ c, session.customer = some c → c ≠ "" → ∀ j other, t.rows.get? j = some other →
        other.stripeCustomerId = some c → j = id
  | .subscriptionDeleted _ => db.opens ∧ db.selects ∧ db.executes ∧ db.commit ≠ .lost
  | .subscriptionUpdated => False
  | .other _ => False

variable {parseInt} {t : UsersTable} {id : ℤ}

variable {db} in
theorem stripeWebhook_status (event : StripeEvent) : (stripeWebhook parseInt db true true t event).status = 200 := by
  cases event <;> rfl

/-- The customer of a checkout fits exactly when no other user has it. -/
theorem fits_upgraded_iff {u : User} (row : t.rows.get? id = some u) (customer : Option String) :
    t.Fits id (upgraded customer u) ↔ ∀ c, customer = some c → c ≠ "" → ∀ j other, t.rows.get? j = some other →
      other.stripeCustomerId = some c → j = id := by
  have unchanged : t.Fits id u := by
    rw [UsersTable.fits_iff]
    intro j other found clash
    exact t.unique j id other u found row clash
  rw [UsersTable.fits_iff] at unchanged ⊢
  cases customer with
  | none =>
    constructor
    · intro _ c impossible
      cases impossible
    · intro _ j other found clash
      exact unchanged j other found clash
  | some c =>
    by_cases empty : c = ""
    · simp only [upgraded,if_pos empty,Option.some.injEq]
      constructor
      · rintro _ _ rfl nonempty
        exact absurd empty nonempty
      · intro _ j other found clash
        exact unchanged j other found clash
    · simp only [upgraded,if_neg empty,Option.some.injEq]
      constructor
      · rintro fits _ rfl _ j other found has
        exact fits j other found (.inr ⟨by rw [has]; rfl,has⟩)
      · intro free j other found clash
        rcases clash with key | ⟨-,has⟩
        · exact unchanged j other found (.inl key)
        · exact free c rfl empty j other found has

variable {db} in
theorem finish_committed {t t' : UsersTable} : (finish db t t').committed = true ↔ db.commit ≠ .lost := by
  rw [finish]
  cases db.commit <;> simp
variable {db} in
theorem finish_users {t t' : UsersTable} (committed : (finish db t t').committed = true) : (finish db t t').users = t' := by
  rw [finish] at committed ⊢
  cases outcome : db.commit with
  | done => rfl
  | unreported => rfl
  | lost => rw [outcome] at committed; cases committed

theorem upgraded_tier (customer : Option String) (u : User) : (upgraded customer u).tier = .pro := by
  cases customer with
  | none => rfl
  | some c =>
    simp only [upgraded]
    split <;> rfl

/-- The update of an existing row commits exactly when the steps succeed and the new
    row fits, and then the row is the new one. -/
theorem updateAndCommit_committed {u : User} (row : t.rows.get? id = some u) (change : User → User) :
    ((updateAndCommit db t id change).committed = true ↔
      db.opens = true ∧ db.executes = true ∧ db.commit ≠ .lost ∧ t.Fits id (change u)) ∧
    ((updateAndCommit db t id change).committed = true →
      (updateAndCommit db t id change).users.rows.get? id = some (change u)) := by
  unfold updateAndCommit
  cases db.opens with
  | false => simp
  | true =>
    cases db.executes with
    | false => simp
    | true =>
      simp only [Bool.not_true,if_false,Bool.false_eq_true]
      cases updated : t.update id change with
      | none =>
        have refused : ¬ t.Fits id (change u) := by
          rw [← UsersTable.update_isSome_iff row,updated]
          simp
        simp [refused]
      | some t' =>
        have fits : t.Fits id (change u) := (UsersTable.update_isSome_iff row).mp ⟨t',updated⟩
        refine ⟨by simp [finish_committed,fits],fun committed => ?_⟩
        rw [finish_users committed,UsersTable.get?_update updated,if_pos rfl,row,Option.map_some]

/-- A write leaves the table as it was or updates one row, and it does update it when
    the session returns. -/
theorem updateAndCommit_users (t : UsersTable) (id : ℤ) (change : User → User) :
    ((updateAndCommit db t id change).returned = false ∧ (updateAndCommit db t id change).users = t) ∨
    t.update id change = some (updateAndCommit db t id change).users := by
  rw [updateAndCommit]
  split
  · exact .inl ⟨rfl,rfl⟩
  · split
    · exact .inl ⟨rfl,rfl⟩
    · split
      · exact .inl ⟨rfl,rfl⟩
      · next t' updated =>
        rw [finish]
        cases db.commit with
        | done => exact .inr updated
        | lost => exact .inl ⟨rfl,rfl⟩
        | unreported => exact .inr updated

variable {db} in
theorem updateAndCommit_returned {change : User → User} (returned : (updateAndCommit db t id change).returned = true) :
    t.update id change = some (updateAndCommit db t id change).users := by
  rcases updateAndCommit_users db t id change with ⟨raised,-⟩ | updated
  · rw [returned] at raised
    cases raised
  · exact updated

variable {db} in
/-- A session that raises has written nothing, unless it is the commit that goes
    unreported or the close that raises. -/
theorem updateAndCommit_raised {change : User → User} (raised : (updateAndCommit db t id change).returned = false)
    (reported : db.commit ≠ .unreported) (closes : db.closes = true) : (updateAndCommit db t id change).users = t := by
  rw [updateAndCommit] at raised ⊢
  split at raised
  · next opens => rw [if_pos opens]
  · next opens =>
    rw [if_neg opens]
    split at raised
    · next executes => rw [if_pos executes]
    · next executes =>
      rw [if_neg executes]
      cases updated : t.update id change with
      | none => rfl
      | some t' =>
        rw [updated] at raised
        simp only [finish] at raised ⊢
        cases outcome : db.commit with
        | done => simp [outcome,closes] at raised
        | lost => rfl
        | unreported => exact absurd outcome reported

theorem updateAndCommit_row (t : UsersTable) (id : ℤ) (change : User → User) (j : ℤ) :
    (updateAndCommit db t id change).users.rows.get? j = t.rows.get? j ∨
    j = id ∧ (updateAndCommit db t id change).users.rows.get? j = (t.rows.get? id).map change := by
  rcases updateAndCommit_users db t id change with ⟨-,same⟩ | updated
  · rw [same]
    exact .inl rfl
  · rw [UsersTable.get?_update updated]
    by_cases same : j = id
    · exact .inr ⟨same,if_pos same⟩
    · exact .inl (if_neg same)

theorem upgraded_keeps (customer : Option String) (u : User) :
    (upgraded customer u).apiKey = u.apiKey ∧ (upgraded customer u).isActive = u.isActive := by
  cases customer with
  | none => exact ⟨rfl,rfl⟩
  | some c =>
    simp only [upgraded]
    split <;> exact ⟨rfl,rfl⟩

/-- A downgrade finds nobody and leaves the table, or updates the row that it found. -/
theorem downgradeUserByCustomer_cases (t : UsersTable) (c : String) :
    (∃ returned, (returned = true → t.findByCustomer c = none) ∧
      downgradeUserByCustomer db t c = (⟨t,false,returned⟩,none)) ∨
    ∃ id u, t.findByCustomer c = some (id,u) ∧
      downgradeUserByCustomer db t c = (updateAndCommit db t id downgraded,some id) := by
  rw [downgradeUserByCustomer]
  split
  · exact .inl ⟨false,Bool.noConfusion,rfl⟩
  · split
    · exact .inl ⟨false,Bool.noConfusion,rfl⟩
    · split
      · next nobody => exact .inl ⟨db.closes,fun _ => nobody,rfl⟩
      · next id u found => exact .inr ⟨id,u,found,rfl⟩

/-- The downgrade of the user of a customer is the update of its row. -/
theorem downgradeUserByCustomer_of_row {u : User} {c : String} (row : t.rows.get? id = some u)
    (has : u.stripeCustomerId = some c) (selects : db.opens = true ∧ db.selects = true) :
    downgradeUserByCustomer db t c = (updateAndCommit db t id downgraded,some id) := by
  have found := (UsersTable.findByCustomer_eq_some_iff c id u).mpr ⟨row,has⟩
  simp only [downgradeUserByCustomer,selects,found,Bool.not_true,Bool.false_eq_true,if_false]

/-- It commits exactly when the steps succeed, and then its tier is FREE. -/
theorem downgradeUser_committed {u : User} {c : String} (row : t.rows.get? id = some u)
    (has : u.stripeCustomerId = some c) :
    ((downgradeUserByCustomer db t c).1.committed = true ↔
      db.opens = true ∧ db.selects = true ∧ db.executes = true ∧ db.commit ≠ .lost) ∧
    ((downgradeUserByCustomer db t c).1.committed = true →
      (downgradeUserByCustomer db t c).1.users.rows.get? id = some (downgraded u)) := by
  by_cases selects : db.opens = true ∧ db.selects = true
  · have fits : t.Fits id (downgraded u) := by
      rw [← UsersTable.update_isSome_iff row]
      exact UsersTable.update_of_same_columns (fun _ => rfl) (fun _ => rfl)
    obtain ⟨committed,written⟩ := updateAndCommit_committed db row downgraded
    rw [downgradeUserByCustomer_of_row db row has selects]
    refine ⟨committed.trans ?_,written⟩
    simp [selects,fits]
  · have nothing : (downgradeUserByCustomer db t c).1.committed = false := by
      rw [downgradeUserByCustomer]
      cases opens : db.opens with
      | false => rfl
      | true =>
        cases reads : db.selects with
        | false => rfl
        | true => exact absurd ⟨opens,reads⟩ selects
    constructor
    · constructor
      · intro committed
        rw [nothing] at committed
        cases committed
      · rintro ⟨opens,reads,-⟩
        exact absurd ⟨opens,reads⟩ selects
    · intro committed
      rw [nothing] at committed
      cases committed

/-- The write of an event about an existing user. -/
theorem stripeWebhook_committed {event : StripeEvent} (named : NamesUser parseInt t id event) :
    ((stripeWebhook parseInt db true true t event).committed = true ↔ Commits db t id event) ∧
    ((stripeWebhook parseInt db true true t event).committed = true →
      ∃ u, (stripeWebhook parseInt db true true t event).users.rows.get? id = some u ∧ u.tier = event.tier) := by
  cases event with
  | checkoutCompleted session =>
    obtain ⟨⟨text,has,nonempty,parsed⟩,u,row⟩ := named
    obtain ⟨committed,written⟩ := updateAndCommit_committed db row (upgraded session.customer)
    rw [fits_upgraded_iff row] at committed
    simp only [stripeWebhook,handleStripeWebhook,handleCheckoutCompleted,upgradeUser,has,nonempty,parsed,Bool.not_true,
      Bool.false_eq_true,if_false]
    exact ⟨committed,fun done => ⟨_,written done,upgraded_tier _ _⟩⟩
  | subscriptionDeleted customer =>
    obtain ⟨c,u,rfl,nonempty,row,has⟩ := named
    obtain ⟨committed,written⟩ := downgradeUser_committed db row has
    simp only [stripeWebhook,handleStripeWebhook,handleSubscriptionDeleted,nonempty,Bool.not_true,Bool.false_eq_true,
      if_false]
    exact ⟨committed,fun done => ⟨_,written done,rfl⟩⟩
  | subscriptionUpdated => exact named.elim
  | other type => exact named.elim

/-- A verified event about an existing user is acknowledged only for a durable write
    exactly when its write commits. -/
theorem acknowledged_iff_commits (parseInt : String → Option ℤ) (db : DbOutcome) {t : UsersTable} {id : ℤ}
    {event : StripeEvent} (named : NamesUser parseInt t id event) :
    Acknowledged parseInt db t id event ↔ Commits db t id event := by
  obtain ⟨committed,durable⟩ := stripeWebhook_committed db named
  have status : (stripeWebhook parseInt db true true t event).status = 200 := stripeWebhook_status event
  rw [← committed]
  constructor
  · intro acknowledged
    by_contra failed
    exact acknowledged.redelivered (Bool.eq_false_iff.mpr failed) status
  · intro done
    exact ⟨fun _ => durable done,fun failed => by rw [done] at failed; cases failed⟩

/-- Two users, the first of whom is a Stripe customer. -/
def twoUsers : UsersTable :=
  ((UsersTable.empty.set 1 ⟨"key-1",.pro,true,some "cus_1"⟩).bind fun t => t.set 2 ⟨"key-2",.free,true,none⟩).getD .empty
/-- The second user pays as the same customer. -/
def sharedCheckout : StripeEvent := .checkoutCompleted ⟨some "2",some "cus_1"⟩
def parseTwo (text : String) : Option ℤ := if text = "2" then some 2 else none

theorem sharedCheckout_not_acknowledged :
    NamesUser parseTwo twoUsers 2 sharedCheckout ∧ ¬ Acknowledged parseTwo .success twoUsers 2 sharedCheckout := by
  refine ⟨⟨⟨"2",rfl,by decide,by decide⟩,⟨"key-2",.free,true,none⟩,by decide +kernel⟩,?_⟩
  intro acknowledged
  have uncommitted : (stripeWebhook parseTwo .success true true twoUsers sharedCheckout).committed = false := by
    decide +kernel
  exact acknowledged.redelivered uncommitted rfl

/-- As a customer of its own the second user is upgraded. -/
theorem ownCheckout_acknowledged :
    Acknowledged parseTwo .success twoUsers 2 (.checkoutCompleted ⟨some "2",some "cus_2"⟩) := by
  have named : NamesUser parseTwo twoUsers 2 (.checkoutCompleted ⟨some "2",some "cus_2"⟩) :=
    ⟨⟨"2",rfl,by decide,by decide⟩,⟨"key-2",.free,true,none⟩,by decide +kernel⟩
  refine (acknowledged_iff_commits parseTwo .success named).mpr ⟨rfl,rfl,by decide,?_⟩
  rintro _ ⟨⟩ - j other found has
  have unshared : ∀ e ∈ twoUsers.rows.entries, e.2.stripeCustomerId ≠ some "cus_2" := by decide +kernel
  exact absurd has (unshared (j,other) ((Dict.mem_entries_iff _ _ _).mpr found))

end Payment
end FundingRadar
