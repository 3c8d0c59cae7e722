import FundingRadar.Payment

/-!
Stripe events that are delivered more than once. Nothing records which events were seen,
so a delivery is processed by what it says, whenever it comes. The row of every user after
a delivery is described once (`deliver_row`). An event that is delivered again changes
nothing exactly when what it sets still stands, or when its write does not commit
(`redelivery_harmless_iff`); events about other users in between do not matter
(`run_row`).
-/
namespace FundingRadar.Payment

/-- One delivery of a verified event, with what the database makes of it. -/
structure Delivery where
  db : DbOutcome
  event : StripeEvent

variable (parseInt : String → Option ℤ)

def deliver (t : UsersTable) (d : Delivery) : UsersTable := (stripeWebhook parseInt d.db true true t d.event).users
def run (t : UsersTable) (deliveries : List Delivery) : UsersTable := deliveries.foldl (deliver parseInt) t

/-- A delivery leaves the tier and the customer of every user. -/
def Harmless (t : UsersTable) (d : Delivery) : Prop :=
  ∀ id, ((deliver parseInt t d).rows.get? id).map (fun u => (u.tier,u.stripeCustomerId)) =
    (t.rows.get? id).map (fun u => (u.tier,u.stripeCustomerId))

/-- What an event makes of the user that it names. -/
def StripeEvent.effect : StripeEvent → User → User
  | .checkoutCompleted session => upgraded session.customer
  | .subscriptionDeleted _ => downgraded
  | .subscriptionUpdated => fun u => u
  | .other _ => fun u => u
/-- The user is as the event makes it. -/
def StripeEvent.Stands (u : User) : StripeEvent → Prop
  | .checkoutCompleted session => u.tier = .pro ∧ ∀ c ∈ session.customer, c ≠ "" → u.stripeCustomerId = some c
  | .subscriptionDeleted _ => u.tier = .free
  | .subscriptionUpdated => True
  | .other _ => True

variable {parseInt} {t : UsersTable}

/-! ### One delivery -/

/-- A write that does not commit leaves the table. -/
theorem updateAndCommit_uncommitted {db : DbOutcome} {id : ℤ} {change : User → User}
    (uncommitted : (updateAndCommit db t id change).committed = false) : (updateAndCommit db t id change).users = t := by
  unfold updateAndCommit at uncommitted ⊢
  cases opens : db.opens with
  | false => rfl
  | true =>
    cases executes : db.executes with
    | false => rfl
    | true =>
      simp only [opens,executes,Bool.not_true,Bool.false_eq_true,if_false] at uncommitted ⊢
      cases updated : t.update id change with
      | none => rfl
      | some t' =>
        rw [updated] at uncommitted
        simp only [finish] at uncommitted ⊢
        cases outcome : db.commit with
        | done => simp [outcome] at uncommitted
        | lost => rfl
        | unreported => simp [outcome] at uncommitted

/-- A row stays, or it is the one whose write commits. -/
theorem updateAndCommit_or_same (db : DbOutcome) (t : UsersTable) (i : ℤ) (change : User → User) (id : ℤ) :
    (updateAndCommit db t i change).users.rows.get? id = t.rows.get? id ∨
      id = i ∧ (updateAndCommit db t i change).committed = true := by
  cases committed : (updateAndCommit db t i change).committed with
  | false =>
    rw [updateAndCommit_uncommitted committed]
    exact .inl rfl
  | true => exact (updateAndCommit_row db t i change id).imp_right fun written => ⟨written.1,rfl⟩

theorem updateAndCommit_missing {db : DbOutcome} {id : ℤ} {change : User → User} (missing : t.rows.get? id = none) :
    (updateAndCommit db t id change).users.rows.get? id = none := by
  rcases updateAndCommit_row db t id change id with same | ⟨-,written⟩
  · rw [same,missing]
  · rw [written,missing]
    rfl

/-- The user that a delivery names, once its write commits. -/
theorem deliver_row {d : Delivery} {id : ℤ} (named : NamesUser parseInt t id d.event) (commits : Commits d.db t id d.event) :
    (deliver parseInt t d).rows.get? id = (t.rows.get? id).map d.event.effect := by
  obtain ⟨db,event⟩ := d
  cases event with
  | checkoutCompleted session =>
    obtain ⟨⟨text,has,nonempty,parsed⟩,u,row⟩ := named
    obtain ⟨committed,written⟩ := updateAndCommit_committed db row (upgraded session.customer)
    rw [fits_upgraded_iff row] at committed
    rw [row]
    simp only [deliver,stripeWebhook,handleStripeWebhook,handleCheckoutCompleted,upgradeUser,has,nonempty,parsed,Bool.not_true,
      Bool.false_eq_true,if_false]
    exact written (committed.mpr commits)
  | subscriptionDeleted customer =>
    obtain ⟨c,u,rfl,nonempty,row,has⟩ := named
    obtain ⟨committed,written⟩ := downgradeUser_committed db row has
    rw [row]
    simp only [deliver,stripeWebhook,handleStripeWebhook,handleSubscriptionDeleted,nonempty,Bool.not_true,Bool.false_eq_true,
      if_false]
    exact written (committed.mpr commits)
  | subscriptionUpdated => exact named.elim
  | other type => exact named.elim

/-- Everybody else. -/
theorem deliver_row_other {d : Delivery} {id : ℤ}
    (spared : ¬ (NamesUser parseInt t id d.event ∧ Commits d.db t id d.event)) :
    (deliver parseInt t d).rows.get? id = t.rows.get? id := by
  obtain ⟨db,event⟩ := d
  cases event with
  | checkoutCompleted session =>
    simp only [deliver,stripeWebhook,handleStripeWebhook,handleCheckoutCompleted,upgradeUser,Bool.not_true,Bool.false_eq_true,
      if_false]
    cases has : session.userId with
    | none => rfl
    | some text =>
      by_cases nonempty : text = ""
      · simp only [nonempty,if_true]
      · simp only [nonempty,if_false]
        cases parsed : parseInt text with
        | none => rfl
        | some i =>
          dsimp only
          rcases updateAndCommit_or_same db t i (upgraded session.customer) id with same | ⟨rfl,committed⟩
          · exact same
          · cases row : t.rows.get? id with
            | none => exact updateAndCommit_missing row
            | some u =>
              have commits := (updateAndCommit_committed db row (upgraded session.customer)).1.mp committed
              rw [fits_upgraded_iff row] at commits
              exact absurd ⟨⟨⟨text,has,nonempty,parsed⟩,u,row⟩,commits⟩ spared
  | subscriptionDeleted customer =>
    simp only [deliver,stripeWebhook,handleStripeWebhook,handleSubscriptionDeleted,Bool.not_true,Bool.false_eq_true,if_false]
    cases customer with
    | none => rfl
    | some c =>
      by_cases nonempty : c = ""
      · simp only [nonempty,if_true]
      · simp only [nonempty,if_false]
        rcases downgradeUserByCustomer_cases db t c with ⟨returned,-,nobody⟩ | ⟨i,u,found,downgrade⟩
        · rw [nobody]
        · obtain ⟨row,has⟩ := (UsersTable.findByCustomer_eq_some_iff c i u).mp found
          rw [downgrade]
          rcases updateAndCommit_or_same db t i downgraded id with same | ⟨rfl,committed⟩
          · exact same
          · have commits := (downgradeUser_committed db row has).1
            rw [downgrade] at commits
            exact absurd ⟨⟨c,u,rfl,nonempty,row,has⟩,commits.mp committed⟩ spared
  | subscriptionUpdated => rfl
  | other type => rfl

theorem effect_eq_iff (event : StripeEvent) (u : User) :
    ((event.effect u).tier,(event.effect u).stripeCustomerId) = (u.tier,u.stripeCustomerId) ↔ event.Stands u := by
  cases event with
  | checkoutCompleted session =>
    obtain ⟨userId,customer⟩ := session
    cases customer with
    | none => simp [StripeEvent.effect,StripeEvent.Stands,upgraded,eq_comm]
    | some c =>
      by_cases empty : c = ""
      · simp [StripeEvent.effect,StripeEvent.Stands,upgraded,empty,eq_comm]
      · simp [StripeEvent.effect,StripeEvent.Stands,upgraded,empty,eq_comm]
  | subscriptionDeleted customer => simp [StripeEvent.effect,StripeEvent.Stands,downgraded,eq_comm]
  | subscriptionUpdated => exact iff_of_true rfl trivial
  | other type => exact iff_of_true rfl trivial

/-- A delivery is harmless exactly when whoever it writes to is already as it makes them. -/
theorem harmless_iff (t : UsersTable) (d : Delivery) :
    Harmless parseInt t d ↔ ∀ id u, t.rows.get? id = some u → NamesUser parseInt t id d.event → Commits d.db t id d.event →
      d.event.Stands u := by
  constructor
  · intro harmless id u row named commits
    have same := harmless id
    rw [deliver_row named commits,row] at same
    exact (effect_eq_iff d.event u).mp (Option.some.inj same)
  · intro stands id
    by_cases written : NamesUser parseInt t id d.event ∧ Commits d.db t id d.event
    · rw [deliver_row written.1 written.2]
      cases row : t.rows.get? id with
      | none => rfl
      | some u => exact congrArg some ((effect_eq_iff d.event u).mpr (stands id u row written.1 written.2))
    · rw [deliver_row_other written]

/-! ### Runs -/

/-- A write that commits makes its event stand. -/
theorem stands_effect (event : StripeEvent) (u : User) : event.Stands (event.effect u) := by
  rw [← effect_eq_iff]
  cases event with
  | checkoutCompleted session =>
    obtain ⟨userId,customer⟩ := session
    cases customer with
    | none => rfl
    | some c =>
      by_cases empty : c = ""
      · simp [StripeEvent.effect,upgraded,empty]
      · simp [StripeEvent.effect,upgraded,empty]
  | subscriptionDeleted customer => rfl
  | subscriptionUpdated => rfl
  | other type => rfl

/-- No delivery of a run writes to the user. -/
def Spares (parseInt : String → Option ℤ) (id : ℤ) : UsersTable → List Delivery → Prop
  | _,[] => True
  | t,d :: rest => ¬ (NamesUser parseInt t id d.event ∧ Commits d.db t id d.event) ∧ Spares parseInt id (deliver parseInt t d) rest

theorem run_append (t : UsersTable) (before after : List Delivery) :
    run parseInt t (before ++ after) = run parseInt (run parseInt t before) after :=
  List.foldl_append

theorem run_row {deliveries : List Delivery} {id : ℤ} (spares : Spares parseInt id t deliveries) :
    (run parseInt t deliveries).rows.get? id = t.rows.get? id := by
  induction deliveries generalizing t with
  | nil => rfl
  | cons d rest ih =>
    have later := ih spares.2
    rw [deliver_row_other spares.1] at later
    exact later

/-- An event is harmless again as long as nobody else has written to those it names. -/
theorem harmless_of_spares {first again : DbOutcome} {event : StripeEvent} {between : List Delivery}
    (quiet : ∀ id, NamesUser parseInt (run parseInt t (⟨first,event⟩ :: between)) id event →
      NamesUser parseInt t id event ∧ Commits first t id event ∧ Spares parseInt id (deliver parseInt t ⟨first,event⟩) between) :
    Harmless parseInt (run parseInt t (⟨first,event⟩ :: between)) ⟨again,event⟩ := by
  rw [harmless_iff]
  intro id u row named _
  obtain ⟨before,commits,spares⟩ := quiet id named
  change (run parseInt (deliver parseInt t ⟨first,event⟩) between).rows.get? id = some u at row
  rw [run_row spares,deliver_row before commits] at row
  obtain ⟨v,-,rfl⟩ := Option.map_eq_some_iff.mp row
  exact stands_effect event v

/-- In every sequence of deliveries, an event that is delivered again leaves every user's
    tier and customer exactly when every user that it names then, and whose write commits,
    is still as it makes them. So it does where the first delivery wrote to all of them
    and no delivery in between has. -/
theorem redelivery_harmless_iff (parseInt : String → Option ℤ) (t : UsersTable) (before between : List Delivery)
    (event : StripeEvent) (first again : DbOutcome) :
    (Harmless parseInt (run parseInt t (before ++ ⟨first,event⟩ :: between)) ⟨again,event⟩ ↔
      ∀ id u, (run parseInt t (before ++ ⟨first,event⟩ :: between)).rows.get? id = some u →
        NamesUser parseInt (run parseInt t (before ++ ⟨first,event⟩ :: between)) id event →
        Commits again (run parseInt t (before ++ ⟨first,event⟩ :: between)) id event → event.Stands u) ∧
    ((∀ id, NamesUser parseInt (run parseInt t (before ++ ⟨first,event⟩ :: between)) id event →
        NamesUser parseInt (run parseInt t before) id event ∧ Commits first (run parseInt t before) id event ∧
          Spares parseInt id (deliver parseInt (run parseInt t before) ⟨first,event⟩) between) →
      Harmless parseInt (run parseInt t (before ++ ⟨first,event⟩ :: between)) ⟨again,event⟩) := by
  refine ⟨harmless_iff _ _,?_⟩
  rw [run_append]
  exact harmless_of_spares

/-! ### A checkout after the cancellation -/

/-- One free user without a customer. -/
def newUser : UsersTable := (UsersTable.empty.set 1 ⟨"key-1",.free,true,none⟩).getD .empty
def checkout : StripeEvent := .checkoutCompleted ⟨some "1",some "cus_1"⟩
def cancellation : StripeEvent := .subscriptionDeleted (some "cus_1")
def parseOne (text : String) : Option ℤ := if text = "1" then some 1 else none

/-- The checkout comes again after the cancellation and makes the user PRO once more. -/
theorem lateCheckout_not_harmless :
    ¬ Harmless parseOne (run parseOne newUser [⟨.success,checkout⟩,⟨.success,cancellation⟩]) ⟨.success,checkout⟩ := by
  intro harmless
  exact absurd (harmless 1) (by decide +kernel)

end FundingRadar.Payment
