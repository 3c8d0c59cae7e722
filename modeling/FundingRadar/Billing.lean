import Mathlib
import FundingRadar.Followers
import FundingRadar.Redelivery
import FundingRadar.Runs
import FundingRadar.TokenKinds

/-!
Paying for the Pro tier, from `/auth/checkout` to the webhook. The service opens a session at
Stripe, Stripe makes a customer for it unless the session has one, and its events come back later,
in any order and any number of times, while users register and renew their keys. A session names
its user only by the text in its metadata, and a cancellation names nobody but the customer.
Every event reaches the user whose session made its customer, no row of a customer ever clashes
with another, and a user's tier is what the last event that was written for it says
(`billing_follows_events`).
-/
namespace FundingRadar
open Runs Followers

namespace Payment

/-! ### Checkout -/

structure StripeSettings where
  stripePriceIdPro : Option String
  stripeSecretKey : Option String

/-- `session_params` of `create_checkout_session`, with the `user_id` of its metadata. -/
structure SessionParams where
  mode : String
  price : String
  quantity : ℕ
  successUrl : String
  cancelUrl : String
  userId : String
  allowPromotionCodes : Bool
  customer : Option String
  customerEmail : Option String

inductive CheckoutError
  /-- With status 400. -/
  | badRequest (detail : String)
  | runtimeError (message : String)
deriving DecidableEq

/-- A text of the settings or of a column that is not falsy. -/
def truthy (text : Option String) : Option String := text.filter (· ≠ "")

/-- `create_checkout_session`, up to the call of Stripe. -/
def createCheckoutSession (settings : StripeSettings) (userId : ℤ) (userEmail : String) (stripeCustomerId : Option String)
    (successUrl cancelUrl : String) : Except CheckoutError SessionParams :=
  match truthy settings.stripePriceIdPro with
  | none => .error (.runtimeError "STRIPE_PRICE_ID_PRO is not configured.")
  | some price =>
    match truthy settings.stripeSecretKey with
    | none => .error (.runtimeError "STRIPE_SECRET_KEY is not configured.")
    | some _ => .ok {
        mode := "subscription"
        price := price
        quantity := 1
        successUrl := successUrl
        cancelUrl := cancelUrl
        userId := toString userId
        allowPromotionCodes := true
        customer := truthy stripeCustomerId
        customerEmail := if truthy stripeCustomerId = none then some userEmail else none }

/-- `create_checkout`, for the row of the current user. -/
def createCheckout (settings : StripeSettings) (id : ℤ) (email : String) (u : User) (successUrl cancelUrl : String) :
    Except CheckoutError SessionParams :=
  if u.tier = .pro ∨ u.tier = .custom then .error (.badRequest "You are already on a Pro or Custom plan.")
  else createCheckoutSession settings id email u.stripeCustomerId successUrl cancelUrl

end Payment
open Payment

/-- The table, and what Stripe has: the sessions that were opened, every customer with the user of
    the session that made it, and the events, each of which it may deliver at any time. -/
structure Billing where
  users : UsersTable
  sessions : List SessionParams
  customers : List (String × String)
  events : List StripeEvent

namespace Billing

inductive Action
  /-- A new row, with a new id. -/
  | register (id : ℤ) (apiKey : String)
  /-- The write of `regenerate_api_key`. -/
  | regenerate (id : ℤ) (apiKey : String)
  /-- From the read of the row to the session, between which no event comes. -/
  | checkout (id : ℤ) (email successUrl cancelUrl : String)
  /-- A session is paid; `fresh` is the customer that Stripe makes where the session has none. -/
  | complete (n : ℕ) (fresh : String)
  /-- A subscription of the customer ends. -/
  | cancel (customer : String)
  /-- An event of another type happens. -/
  | happen (type : String)
  /-- The webhook gets an event. -/
  | deliver (n : ℕ) (db : DbOutcome)

/-- An event that was written for a user. -/
structure Written where
  user : ℤ
  event : StripeEvent

section
variable (parseInt : String → Option ℤ) (settings : StripeSettings)

/-- Nobody has registered. -/
def init : Billing := ⟨.empty,[],[],[]⟩

def step (s : Billing) : Action → Billing
  | .register id apiKey =>
    if (s.users.rows.get? id).isSome then s else { s with users := (s.users.set id ⟨apiKey,.free,true,none⟩).getD s.users }
  | .regenerate id apiKey => { s with users := (s.users.update id fun u => { u with apiKey := apiKey }).getD s.users }
  | .checkout id email successUrl cancelUrl =>
    match s.users.rows.get? id with
    | none => s
    | some u =>
      match createCheckout settings id email u successUrl cancelUrl with
      | .error _ => s
      | .ok params => { s with sessions := s.sessions ++ [params] }
  | .complete n fresh =>
    match s.sessions[n]? with
    | none => s
    | some params =>
      match params.customer with
      | some customer => { s with events := s.events ++ [.checkoutCompleted ⟨some params.userId,some customer⟩] }
      | none =>
        { s with
          customers := s.customers ++ [(fresh,params.userId)]
          events := s.events ++ [.checkoutCompleted ⟨some params.userId,some fresh⟩] }
  | .cancel customer =>
    if customer ∈ s.customers.map Prod.fst then { s with events := s.events ++ [.subscriptionDeleted (some customer)] } else s
  | .happen type =>
    { s with events := s.events ++ [if type = "customer.subscription.updated" then .subscriptionUpdated else .other type] }
  | .deliver n db =>
    match s.events[n]? with
    | none => s
    | some event => { s with users := Payment.deliver parseInt s.users ⟨db,event⟩ }

/-- The user that the handler of an event finds. -/
def addressee (t : UsersTable) : StripeEvent → Option ℤ
  | .checkoutCompleted session => (truthy session.userId).bind fun text => (parseInt text).filter fun id => (t.rows.get? id).isSome
  | .subscriptionDeleted customer => (truthy customer).bind fun c => (t.findByCustomer c).map Prod.fst
  | _ => none

/-- What a step leaves a trace of. -/
def record (s : Billing) : Action → List Written
  | .deliver n db =>
    match s.events[n]? with
    | none => []
    | some event =>
      if (stripeWebhook parseInt db true true s.users event).committed then
        (addressee parseInt s.users event).toList.map (⟨·,event⟩) else []
  | _ => []

def run (actions : List Action) : Billing := actions.foldl (step parseInt settings) init
def writes (actions : List Action) : List Written := outputs (step parseInt settings) (record parseInt) init actions

/-- Stripe gives a new customer a name, and a new one. -/
def Lawful (s : Billing) : Action → Prop
  | .complete n fresh => ∀ params, s.sessions[n]? = some params → params.customer = none →
    fresh ≠ "" ∧ fresh ∉ s.customers.map Prod.fst
  | _ => True

/-- The event is about a session of the user, or about a customer that such a session made. -/
def Concerns (s : Billing) (id : ℤ) : StripeEvent → Prop
  | .checkoutCompleted session => session.userId = some (toString id)
  | .subscriptionDeleted customer => ∃ c, customer = some c ∧ (c,toString id) ∈ s.customers
  | _ => False

/-- What holds after a run. -/
structure Billed (s : Billing) (out : List Written) : Prop where
  /-- The customer of a row was made by a session of its user, and by nobody else's. -/
  own : ∀ id u c, s.users.rows.get? id = some u → u.stripeCustomerId = some c → ∀ text, (c,text) ∈ s.customers ↔ text = toString id
  /-- A delivery changes nobody whom its event does not concern. -/
  alone : ∀ event ∈ s.events, ∀ db id, ¬ s.Concerns id event →
    (Payment.deliver parseInt s.users ⟨db,event⟩).rows.get? id = s.users.rows.get? id
  /-- With a database that works, a session makes whoever paid PRO, as the customer of the session. -/
  upgrades : ∀ session, .checkoutCompleted session ∈ s.events → ∃ id u c, session = ⟨some (toString id),some c⟩ ∧
    s.users.rows.get? id = some u ∧ (Payment.deliver parseInt s.users ⟨.success,.checkoutCompleted session⟩).rows.get? id =
      some { u with tier := .pro,stripeCustomerId := some c }
  /-- And the end of a subscription makes the user of its customer FREE, if the user still has that customer. -/
  downgrades : ∀ customer, .subscriptionDeleted customer ∈ s.events → ∃ id u c, customer = some c ∧ (c,toString id) ∈ s.customers ∧
    s.users.rows.get? id = some u ∧ (Payment.deliver parseInt s.users ⟨.success,.subscriptionDeleted customer⟩).rows.get? id =
      some (if u.stripeCustomerId = some c then { u with tier := .free } else u)
  /-- A session is opened for a FREE user only, as the customer that the user has. -/
  offered : ∀ id u email successUrl cancelUrl params, s.users.rows.get? id = some u →
    createCheckout settings id email u successUrl cancelUrl = .ok params →
      u.tier = .free ∧ params.customer = u.stripeCustomerId ∧ params.userId = toString id
  /-- A tier is what the last event written for the user says, and such an event concerns the user. -/
  tier : ∀ id u, s.users.rows.get? id = some u → u.tier = ((lastOf Written.user out id).map (·.event.tier)).getD .free
  written : ∀ w ∈ out, w.event ∈ s.events ∧ s.Concerns w.user w.event

end

variable {parseInt : String → Option ℤ} {settings : StripeSettings} {s : Billing} {out : List Written} {id : ℤ}
  {event : StripeEvent}

/-! ### One delivery -/

theorem truthy_eq_some_iff {text : Option String} {value : String} : truthy text = some value ↔ text = some value ∧ value ≠ "" := by
  simp [truthy,Option.filter_eq_some_iff]

theorem addressee_eq_some_iff (t : UsersTable) : addressee parseInt t event = some id ↔ NamesUser parseInt t id event := by
  cases event with
  | checkoutCompleted session =>
    simp only [addressee,NamesUser,Option.bind_eq_some_iff,truthy_eq_some_iff,Option.filter_eq_some_iff,Option.isSome_iff_exists]
    constructor
    · rintro ⟨text,⟨has,nonempty⟩,parsed,row⟩
      exact ⟨⟨text,has,nonempty,parsed⟩,row⟩
    · rintro ⟨⟨text,has,nonempty,parsed⟩,row⟩
      exact ⟨text,⟨has,nonempty⟩,parsed,row⟩
  | subscriptionDeleted customer =>
    simp only [addressee,NamesUser,Option.bind_eq_some_iff,truthy_eq_some_iff,Option.map_eq_some_iff,Prod.exists,
      UsersTable.findByCustomer_eq_some_iff]
    constructor
    · rintro ⟨c,⟨rfl,nonempty⟩,j,u,⟨row,has⟩,rfl⟩
      exact ⟨c,u,rfl,nonempty,row,has⟩
    · rintro ⟨c,u,rfl,nonempty,row,has⟩
      exact ⟨c,⟨rfl,nonempty⟩,id,u,⟨row,has⟩,rfl⟩
  | subscriptionUpdated => simp [addressee,NamesUser]
  | other type => simp [addressee,NamesUser]

/-- A delivery is written for one user, whose row becomes what the event says, or for nobody. -/
theorem deliver_cases (parseInt : String → Option ℤ) (s : Billing) {n : ℕ} (found : s.events[n]? = some event) (db : DbOutcome) :
    (∃ id, NamesUser parseInt s.users id event ∧ Commits db s.users id event ∧ record parseInt s (.deliver n db) = [⟨id,event⟩] ∧
      ∀ j, (Payment.deliver parseInt s.users ⟨db,event⟩).rows.get? j =
        if j = id then (s.users.rows.get? id).map event.effect else s.users.rows.get? j) ∨
    record parseInt s (.deliver n db) = [] ∧
      ∀ j, (Payment.deliver parseInt s.users ⟨db,event⟩).rows.get? j = s.users.rows.get? j := by
  rw [record,found]
  dsimp only
  by_cases some : ∃ id, NamesUser parseInt s.users id event ∧ Commits db s.users id event
  · obtain ⟨id,named,commits⟩ := some
    have addressed := (addressee_eq_some_iff s.users).mpr named
    refine .inl ⟨id,named,commits,?_,fun j => ?_⟩
    · rw [if_pos ((stripeWebhook_committed db named).1.mpr commits),addressed]
      rfl
    · split
      · next same =>
        rw [same]
        exact deliver_row named commits
      · next differ =>
        refine deliver_row_other ?_
        rintro ⟨other,-⟩
        rw [← addressee_eq_some_iff,addressed] at other
        exact differ (Option.some.inj other).symm
  · refine .inr ⟨?_,fun j => deliver_row_other fun both => some ⟨j,both⟩⟩
    split
    · next committed =>
      cases addressed : addressee parseInt s.users event with
      | none => rfl
      | some id =>
        have named := (addressee_eq_some_iff s.users).mp addressed
        exact absurd ⟨id,named,(stripeWebhook_committed db named).1.mp committed⟩ some
    · rfl

/-! ### Customers and their users -/

/-- What the steps keep. -/
structure Inv (s : Billing) (out : List Written) : Prop where
  sessions : ∀ params ∈ s.sessions, ∃ id u, params.userId = toString id ∧ s.users.rows.get? id = some u ∧
    ∀ c, params.customer = some c → (c,params.userId) ∈ s.customers
  made : ∀ c text, (c,text) ∈ s.customers → c ≠ "" ∧ (∀ other, (c,other) ∈ s.customers → other = text) ∧
    ∃ id u, text = toString id ∧ s.users.rows.get? id = some u
  completed : ∀ session, .checkoutCompleted session ∈ s.events → ∃ (id : ℤ) (c : String), session = ⟨some (toString id),some c⟩ ∧
    (c,toString id) ∈ s.customers
  cancelled : ∀ customer, .subscriptionDeleted customer ∈ s.events → ∃ c text, customer = some c ∧ (c,text) ∈ s.customers
  linked : ∀ id u c, s.users.rows.get? id = some u → u.stripeCustomerId = some c → (c,toString id) ∈ s.customers
  tier : ∀ id u, s.users.rows.get? id = some u → u.tier = ((lastOf Written.user out id).map (·.event.tier)).getD .free
  written : ∀ w ∈ out, w.event ∈ s.events ∧ s.Concerns w.user w.event

theorem toString_injective {a b : ℤ} (same : toString a = toString b) : a = b := Int.repr_injective same

theorem Inv.init : Inv init [] where
  sessions _ impossible := by cases impossible
  made _ _ impossible := by cases impossible
  completed _ impossible := by cases impossible
  cancelled _ impossible := by cases impossible
  linked _ _ _ impossible := by cases impossible
  tier _ _ impossible := by cases impossible
  written _ impossible := by cases impossible

/-- Who is concerned by an event has registered. -/
theorem Inv.registered (inv : Inv s out) (happened : event ∈ s.events) (concerned : s.Concerns id event) :
    ∃ u, s.users.rows.get? id = some u := by
  have made : ∀ c, (c,toString id) ∈ s.customers → ∃ u, s.users.rows.get? id = some u := by
    intro c has
    obtain ⟨-,-,j,u,same,row⟩ := inv.made c _ has
    obtain rfl := toString_injective same
    exact ⟨u,row⟩
  cases event with
  | checkoutCompleted session =>
    obtain ⟨j,c,rfl,has⟩ := inv.completed session happened
    have same : toString j = toString id := Option.some.inj concerned
    exact made c (same ▸ has)
  | subscriptionDeleted customer =>
    obtain ⟨c,-,has⟩ := concerned
    exact made c has
  | subscriptionUpdated => exact concerned.elim
  | other type => exact concerned.elim

/-- The handlers find whom an event concerns. -/
theorem Inv.concerns (inv : Inv s out) (reads : ∀ id : ℤ, parseInt (toString id) = some id) (happened : event ∈ s.events)
    (named : NamesUser parseInt s.users id event) : s.Concerns id event := by
  cases event with
  | checkoutCompleted session =>
    obtain ⟨⟨text,has,-,parsed⟩,-⟩ := named
    obtain ⟨j,c,rfl,-⟩ := inv.completed session happened
    obtain rfl := Option.some.inj has
    rw [reads] at parsed
    obtain rfl := Option.some.inj parsed
    rfl
  | subscriptionDeleted customer =>
    obtain ⟨c,u,rfl,-,row,has⟩ := named
    exact ⟨c,rfl,inv.linked id u c row has⟩
  | subscriptionUpdated => exact named.elim
  | other type => exact named.elim

/-- No row that an event writes clashes with another. -/
theorem Inv.commits (inv : Inv s out) (reads : ∀ id : ℤ, parseInt (toString id) = some id) (happened : event ∈ s.events)
    (named : NamesUser parseInt s.users id event) : Commits .success s.users id event := by
  have concerned := inv.concerns reads happened named
  cases event with
  | checkoutCompleted session =>
    obtain ⟨j,c,rfl,made⟩ := inv.completed session happened
    have same : toString j = toString id := Option.some.inj concerned
    refine ⟨rfl,rfl,by decide,fun customer is _ i other row has => ?_⟩
    obtain rfl := Option.some.inj is
    have linked := inv.linked i other c row has
    exact toString_injective (((inv.made c _ made).2.1 _ linked).trans same)
  | subscriptionDeleted customer => exact ⟨rfl,rfl,rfl,by decide⟩
  | subscriptionUpdated => exact named.elim
  | other type => exact named.elim

/-! ### Steps -/

/-- Rows keep their tiers and customers, and new ones have neither. -/
theorem Inv.accounts (inv : Inv s out) {users : UsersTable}
    (stay : ∀ id u, s.users.rows.get? id = some u → ∃ u', users.rows.get? id = some u')
    (came : ∀ id u', users.rows.get? id = some u' →
      (∃ u, s.users.rows.get? id = some u ∧ u'.tier = u.tier ∧ u'.stripeCustomerId = u.stripeCustomerId) ∨
        s.users.rows.get? id = none ∧ u'.tier = .free ∧ u'.stripeCustomerId = none) :
    Inv { s with users := users } out where
  sessions params opened := by
    obtain ⟨id,u,named,row,customer⟩ := inv.sessions params opened
    obtain ⟨u',row'⟩ := stay id u row
    exact ⟨id,u',named,row',customer⟩
  made c text has := by
    obtain ⟨nonempty,unique,id,u,named,row⟩ := inv.made c text has
    obtain ⟨u',row'⟩ := stay id u row
    exact ⟨nonempty,unique,id,u',named,row'⟩
  completed := inv.completed
  cancelled := inv.cancelled
  linked id u' c row' has := by
    rcases came id u' row' with ⟨u,row,-,customer⟩ | ⟨-,-,none⟩
    · exact inv.linked id u c row (customer.symm.trans has)
    · rw [none] at has
      cases has
  tier id u' row' := by
    rcases came id u' row' with ⟨u,row,tier,-⟩ | ⟨new,free,-⟩
    · exact tier.trans (inv.tier id u row)
    · cases last : lastOf Written.user out id with
      | none => exact free
      | some w =>
        obtain ⟨inside,same⟩ := lastOf_mem last
        obtain ⟨happened,concerned⟩ := inv.written w inside
        obtain ⟨u,row⟩ := inv.registered happened concerned
        rw [same,new] at row
        cases row
  written := inv.written

/-- Stripe makes an event, and perhaps a customer. -/
theorem Inv.happened (inv : Inv s out) {customers more : List (String × String)} (grown : customers = s.customers ++ more)
    (new : ∀ c text, (c,text) ∈ more → c ≠ "" ∧ c ∉ s.customers.map Prod.fst ∧ (∀ other, (c,other) ∈ more → other = text) ∧
      ∃ id u, text = toString id ∧ s.users.rows.get? id = some u)
    (completed : ∀ session, event = .checkoutCompleted session → ∃ (id : ℤ) (c : String), session = ⟨some (toString id),some c⟩ ∧
      (c,toString id) ∈ customers)
    (cancelled : ∀ customer, event = .subscriptionDeleted customer → ∃ c text, customer = some c ∧ (c,text) ∈ customers) :
    Inv { s with customers := customers, events := s.events ++ [event] } out := by
  subst grown
  have stay : ∀ e ∈ s.customers, e ∈ s.customers ++ more := fun e => List.mem_append_left more
  have concerns : ∀ w ∈ out,
      Concerns { s with customers := s.customers ++ more, events := s.events ++ [event] } w.user w.event := by
    intro w member
    have before := (inv.written w member).2
    cases is : w.event with
    | checkoutCompleted session =>
      rw [is] at before
      exact before
    | subscriptionDeleted customer =>
      rw [is] at before
      obtain ⟨c,same,has⟩ := before
      exact ⟨c,same,stay _ has⟩
    | subscriptionUpdated =>
      rw [is] at before
      exact before
    | other type =>
      rw [is] at before
      exact before
  refine ⟨fun params opened => ?_,fun c text has => ?_,fun session happened => ?_,fun customer happened => ?_,
    fun i u c row has => stay _ (inv.linked i u c row has),inv.tier,fun w member => ?_⟩
  · obtain ⟨i,u,named,row,customer⟩ := inv.sessions params opened
    exact ⟨i,u,named,row,fun c is => stay _ (customer c is)⟩
  · rcases List.mem_append.mp has with before | now
    · obtain ⟨nonempty,unique,registered⟩ := inv.made c text before
      refine ⟨nonempty,fun other both => ?_,registered⟩
      rcases List.mem_append.mp both with old | fresh
      · exact unique other old
      · exact absurd (List.mem_map_of_mem before) (new c other fresh).2.1
    · obtain ⟨nonempty,fresh,unique,registered⟩ := new c text now
      refine ⟨nonempty,fun other both => ?_,registered⟩
      rcases List.mem_append.mp both with old | also
      · exact absurd (List.mem_map_of_mem old) fresh
      · exact unique other also
  · rcases List.mem_append.mp happened with before | now
    · obtain ⟨i,c,same,has⟩ := inv.completed session before
      exact ⟨i,c,same,stay _ has⟩
    · exact completed session (List.mem_singleton.mp now).symm
  · rcases List.mem_append.mp happened with before | now
    · obtain ⟨c,text,same,has⟩ := inv.cancelled customer before
      exact ⟨c,text,same,stay _ has⟩
    · exact cancelled customer (List.mem_singleton.mp now).symm
  · exact ⟨List.mem_append_left _ (inv.written w member).1,concerns w member⟩

/-- A session that the service opens. -/
theorem createCheckout_ok {email successUrl cancelUrl : String} {u : User} {params : SessionParams}
    (opened : createCheckout settings id email u successUrl cancelUrl = .ok params) :
    u.tier = .free ∧ params.userId = toString id ∧ params.customer = truthy u.stripeCustomerId := by
  unfold createCheckout createCheckoutSession at opened
  split at opened
  · cases opened
  · next unpaid =>
    split at opened
    · cases opened
    · split at opened
      · cases opened
      · cases opened
        refine ⟨?_,rfl,rfl⟩
        cases tier : u.tier with
        | free => rfl
        | pro => exact absurd (.inl tier) unpaid
        | custom => exact absurd (.inr tier) unpaid

theorem effect_tier (concerned : s.Concerns id event) (u : User) : (event.effect u).tier = event.tier := by
  cases event with
  | checkoutCompleted session => exact upgraded_tier ..
  | subscriptionDeleted customer => rfl
  | subscriptionUpdated => exact concerned.elim
  | other type => exact concerned.elim

/-- An event is written for a user whom it concerns. -/
theorem Inv.delivered (inv : Inv s out) (happened : event ∈ s.events) (concerned : s.Concerns id event) {users : UsersTable}
    (rows : ∀ j, users.rows.get? j = if j = id then (s.users.rows.get? id).map event.effect else s.users.rows.get? j) :
    Inv { s with users := users } (out ++ [⟨id,event⟩]) := by
  obtain ⟨v,before⟩ := inv.registered happened concerned
  have own : users.rows.get? id = some (event.effect v) := by
    rw [rows,if_pos rfl,before]
    rfl
  have stay : ∀ j u, s.users.rows.get? j = some u → ∃ u', users.rows.get? j = some u' := by
    intro j u row
    by_cases same : j = id
    · exact ⟨_,same ▸ own⟩
    · exact ⟨u,(rows j).trans ((if_neg same).trans row)⟩
  have customer : ∀ c, (event.effect v).stripeCustomerId = some c → (c,toString id) ∈ s.customers := by
    intro c has
    cases event with
    | checkoutCompleted session =>
      obtain ⟨j,made,rfl,among⟩ := inv.completed session happened
      have same : toString j = toString id := Option.some.inj concerned
      have nonempty := (inv.made made _ among).1
      simp only [StripeEvent.effect,upgraded,if_neg nonempty,Option.some.injEq] at has
      exact has ▸ same ▸ among
    | subscriptionDeleted other => exact inv.linked id v c before has
    | subscriptionUpdated => exact concerned.elim
    | other type => exact concerned.elim
  refine ⟨fun params opened => ?_,fun c text has => ?_,inv.completed,inv.cancelled,fun j u c row has => ?_,fun j u row => ?_,
    fun w member => ?_⟩
  · obtain ⟨j,u,named,row,reused⟩ := inv.sessions params opened
    obtain ⟨u',row'⟩ := stay j u row
    exact ⟨j,u',named,row',reused⟩
  · obtain ⟨nonempty,unique,j,u,named,row⟩ := inv.made c text has
    obtain ⟨u',row'⟩ := stay j u row
    exact ⟨nonempty,unique,j,u',named,row'⟩
  · by_cases same : j = id
    · subst same
      obtain rfl := Option.some.inj (own.symm.trans row)
      exact customer c has
    · exact inv.linked j u c ((if_neg same).symm.trans ((rows j).symm.trans row)) has
  · rw [lastOf_append,lastOf_singleton]
    by_cases same : j = id
    · subst same
      obtain rfl := Option.some.inj (own.symm.trans row)
      rw [if_pos rfl,effect_tier concerned]
      rfl
    · rw [if_neg fun equal => same equal.symm]
      exact inv.tier j u ((if_neg same).symm.trans ((rows j).symm.trans row))
  · rcases List.mem_append.mp member with earlier | now
    · exact inv.written w earlier
    · obtain rfl := List.mem_singleton.mp now
      exact ⟨happened,concerned⟩

theorem Inv.step (inv : Inv s out) (reads : ∀ id : ℤ, parseInt (toString id) = some id) {a : Action} (lawful : Lawful s a) :
    Inv (s.step parseInt settings a) (out ++ record parseInt s a) := by
  have quiet : record parseInt s a = [] → out ++ record parseInt s a = out := by
    intro silent
    rw [silent,List.append_nil]
  cases a with
  | register i apiKey =>
    rw [quiet rfl,Billing.step]
    split
    · exact inv
    · next absent =>
      have new : s.users.rows.get? i = none := by simpa using absent
      unfold UsersTable.set
      split
      · have rows : ∀ j, (s.users.rows.insert i ⟨apiKey,.free,true,none⟩).get? j =
            if j = i then some ⟨apiKey,.free,true,none⟩ else s.users.rows.get? j := fun j => Dict.get?_insert ..
        refine inv.accounts (fun j u row => ?_) (fun j u row => ?_)
        · by_cases same : j = i
          · rw [same,new] at row
            cases row
          · exact ⟨u,(rows j).trans ((if_neg same).trans row)⟩
        · by_cases same : j = i
          · subst same
            have is := (rows j).symm.trans row
            rw [if_pos rfl] at is
            obtain rfl := Option.some.inj is
            exact .inr ⟨new,rfl,rfl⟩
          · have is := (rows j).symm.trans row
            rw [if_neg same] at is
            exact .inl ⟨u,is,rfl,rfl⟩
      · exact inv
  | regenerate i apiKey =>
    rw [quiet rfl,Billing.step]
    cases updated : s.users.update i (fun u => { u with apiKey := apiKey }) with
    | none => exact inv
    | some users =>
      have rows := UsersTable.get?_update updated
      refine inv.accounts (fun j u row => ?_) (fun j u row => ?_)
      · rw [Option.getD_some,rows]
        by_cases same : j = i
        · subst same
          exact ⟨_,by rw [if_pos rfl,row]; rfl⟩
        · exact ⟨u,(if_neg same).trans row⟩
      · rw [Option.getD_some,rows] at row
        by_cases same : j = i
        · subst same
          rw [if_pos rfl] at row
          obtain ⟨v,before,rfl⟩ := Option.map_eq_some_iff.mp row
          exact .inl ⟨v,before,rfl,rfl⟩
        · rw [if_neg same] at row
          exact .inl ⟨u,row,rfl,rfl⟩
  | checkout i email successUrl cancelUrl =>
    rw [quiet rfl,Billing.step]
    split
    · exact inv
    · next u row =>
      split
      · exact inv
      · next params opened =>
        obtain ⟨-,named,customer⟩ := createCheckout_ok opened
        refine ⟨fun other among => ?_,inv.made,inv.completed,inv.cancelled,inv.linked,inv.tier,inv.written⟩
        rcases List.mem_append.mp among with before | now
        · exact inv.sessions other before
        · obtain rfl := List.mem_singleton.mp now
          refine ⟨i,u,named,row,fun c is => ?_⟩
          rw [customer,truthy_eq_some_iff] at is
          rw [named]
          exact inv.linked i u c row is.1
  | complete n fresh =>
    rw [quiet rfl,Billing.step]
    split
    · exact inv
    · next params found =>
      obtain ⟨i,u,named,row,reused⟩ := inv.sessions params (List.mem_of_getElem? found)
      split
      · next customer has =>
        refine inv.happened (List.append_nil _).symm (fun _ _ impossible => by cases impossible) (fun session is => ?_)
          (fun _ impossible => by cases impossible)
        cases is
        rw [named]
        exact ⟨i,customer,rfl,named ▸ reused customer has⟩
      · next none =>
        obtain ⟨nonempty,new⟩ := lawful params found none
        refine inv.happened rfl (fun c text among => ?_) (fun session is => ?_) (fun _ impossible => by cases impossible)
        · obtain ⟨rfl,rfl⟩ := Prod.mk.inj (List.mem_singleton.mp among)
          refine ⟨nonempty,new,fun other also => ?_,i,u,named,row⟩
          exact (Prod.mk.inj (List.mem_singleton.mp also)).2
        · cases is
          rw [named]
          exact ⟨i,fresh,rfl,List.mem_append_right _ (List.mem_singleton_self _)⟩
  | cancel customer =>
    rw [quiet rfl,Billing.step]
    split
    · next known =>
      refine inv.happened (List.append_nil _).symm (fun _ _ impossible => by cases impossible)
        (fun _ impossible => by cases impossible) (fun other is => ?_)
      cases is
      obtain ⟨⟨c,text⟩,has,rfl⟩ := List.mem_map.mp known
      exact ⟨c,text,rfl,has⟩
    · exact inv
  | happen type =>
    rw [quiet rfl,Billing.step]
    refine inv.happened (List.append_nil _).symm (fun _ _ impossible => by cases impossible) (fun session is => ?_)
      (fun customer is => ?_)
    · split at is
      · cases is
      · cases is
    · split at is
      · cases is
      · cases is
  | deliver n db =>
    cases found : s.events[n]? with
    | none =>
      have silent : record parseInt s (.deliver n db) = [] := by rw [record,found]
      rw [quiet silent,Billing.step,found]
      exact inv
    | some event =>
      have happened := List.mem_of_getElem? found
      rw [Billing.step,found]
      rcases deliver_cases parseInt s found db with ⟨i,named,-,recorded,rows⟩ | ⟨recorded,rows⟩
      · rw [recorded]
        exact inv.delivered happened (inv.concerns reads happened named) rows
      · rw [quiet recorded]
        exact inv.accounts (fun j u row => ⟨u,(rows j).trans row⟩) (fun j u row => .inl ⟨u,(rows j).symm.trans row,rfl,rfl⟩)

/-! ### Runs -/

theorem Inv.billed (inv : Inv s out) (reads : ∀ id : ℤ, parseInt (toString id) = some id) : Billed parseInt settings s out where
  own id u c row has text := by
    have linked := inv.linked id u c row has
    constructor
    · exact (inv.made c _ linked).2.1 text
    · rintro rfl
      exact linked
  alone event happened db id spared := by
    refine deliver_row_other ?_
    rintro ⟨named,-⟩
    exact spared (inv.concerns reads happened named)
  upgrades session happened := by
    obtain ⟨id,c,rfl,among⟩ := inv.completed session happened
    obtain ⟨nonempty,-,j,u,same,row⟩ := inv.made c _ among
    obtain rfl := toString_injective same
    have named : NamesUser parseInt s.users id (.checkoutCompleted ⟨some (toString id),some c⟩) :=
      ⟨⟨toString id,rfl,TokenKinds.toString_ne_empty id,reads id⟩,u,row⟩
    refine ⟨id,u,c,rfl,row,?_⟩
    rw [deliver_row named (inv.commits reads happened named),row]
    simp only [Option.map_some,StripeEvent.effect,upgraded,if_neg nonempty]
  downgrades customer happened := by
    obtain ⟨c,text,rfl,among⟩ := inv.cancelled customer happened
    obtain ⟨nonempty,-,id,u,rfl,row⟩ := inv.made c _ among
    refine ⟨id,u,c,rfl,among,row,?_⟩
    by_cases has : u.stripeCustomerId = some c
    · have named : NamesUser parseInt s.users id (.subscriptionDeleted (some c)) := ⟨c,u,rfl,nonempty,row,has⟩
      rw [deliver_row named (inv.commits reads happened named),row,if_pos has]
      rfl
    · rw [if_neg has,← row]
      refine deliver_row_other ?_
      rintro ⟨⟨c',u',is,-,row',has'⟩,-⟩
      obtain rfl := Option.some.inj is
      obtain rfl := Option.some.inj (row.symm.trans row')
      exact has has'
  offered id u email successUrl cancelUrl params row opened := by
    obtain ⟨free,named,customer⟩ := createCheckout_ok opened
    refine ⟨free,?_,named⟩
    cases has : u.stripeCustomerId with
    | none => rw [customer,has]; rfl
    | some c =>
      rw [customer,has,truthy_eq_some_iff]
      exact ⟨rfl,(inv.made c _ (inv.linked id u c row has)).1⟩
  tier := inv.tier
  written := inv.written

/-- However the events are delivered, and whatever the database makes of them. -/
theorem billing_follows_events (parseInt : String → Option ℤ) (settings : StripeSettings)
    (reads : ∀ id : ℤ, parseInt (toString id) = some id) {actions : List Action}
    (lawful : Each (step parseInt settings) Lawful init actions) :
    Billed parseInt settings (run parseInt settings actions) (writes parseInt settings actions) := by
  have inv : Inv (run parseInt settings actions) (writes parseInt settings actions) :=
    @outputs_kept_of_each _ _ (step parseInt settings) init Lawful _ (record parseInt) (fun out s => Inv s out)
      (fun _ _ _ inv meets => inv.step reads meets) .init _ lawful
  exact inv.billed reads

/-- A user pays twice before the first event arrives, and ends the first subscription. -/
def paidTwice : List Action :=
  [.register 1 "key-1",.register 2 "key-2",.checkout 1 "a@example.com" "/ok" "/back",.checkout 1 "a@example.com" "/ok" "/back",
    .checkout 2 "b@example.com" "/ok" "/back",.complete 0 "cus_1",.complete 1 "cus_2",.complete 2 "cus_3",.deliver 1 .success,
    .deliver 0 .success,.deliver 1 .success,.cancel "cus_1",.deliver 3 .success,.deliver 2 .success]

def configured : StripeSettings := ⟨some "price_pro",some "sk_test"⟩

theorem paidTwice_billed :
    Billed String.toInt? configured (run String.toInt? configured paidTwice) (writes String.toInt? configured paidTwice) := by
  refine billing_follows_events String.toInt? configured Int.toInt?_repr ?_
  simp only [paidTwice,each_cons,Lawful,true_and]
  refine ⟨fun _ _ _ => ?_,fun _ _ _ => ?_,fun _ _ _ => ?_,each_nil⟩
  · decide +kernel
  · decide +kernel
  · decide +kernel

end Billing
end FundingRadar
