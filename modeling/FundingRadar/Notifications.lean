import FundingRadar.CacheAside
import FundingRadar.Payment
import FundingRadar.TokenKeys

/-!
`NotificationService` and those that change what it reads: the handlers of the Telegram
bot and the Stripe webhook. The rules are cached in Redis; the bot deletes the cached
rules after each of its writes, the webhook does not. Everything is cut at its awaits, so
that cycles and writers interleave in any way.
-/
namespace FundingRadar

/-- A row of `notification_rules`. -/
structure NotificationRule where
  userId : ℤ
  tokenSymbol : String
  minApr : ℚ
  exchanges : List String
  isActive : Bool
deriving DecidableEq

/-- The tables that alerts depend on. `telegramChatIds` is the column of `users` that the
    other parts of the program do not read. -/
structure AlertTables where
  users : UsersTable
  telegramChatIds : Dict ℤ String
  rules : Dict ℤ NotificationRule
  nextRuleId : ℤ

/-- A rule as it is cached. -/
structure LoadedRule where
  ruleId : ℤ
  userId : ℤ
  token : String
  minApr : ℚ
  exchanges : List String
  chatId : String
deriving DecidableEq

namespace NotificationService

/-- A row of the query for active rules of paying users. -/
def loadRule (t : AlertTables) (id : ℤ) (rule : NotificationRule) : Option LoadedRule :=
  match t.users.rows.get? rule.userId,t.telegramChatIds.get? rule.userId with
  | some u,some chatId =>
    if rule.isActive = true ∧ u.isActive = true ∧ u.tier ∈ [.pro,.custom] then
      some ⟨id,rule.userId,rule.tokenSymbol,rule.minApr,rule.exchanges,chatId⟩
    else none
  | _,_ => none
/-- `_load_rules_from_db`. -/
def loadRulesFromDb (t : AlertTables) : List LoadedRule := t.rules.entries.filterMap (fun e => loadRule t e.1 e.2)

/-! ### The writers -/

/-- What `/setalert` is asked for, once its arguments are read. -/
structure AlertRequest where
  token : String
  minApr : ℚ
  exchanges : List String

/-- Where a handler or a tier change stands: before which of its statements. -/
inductive Writer
  | starting (chatId apiKey : String)
  | linking (userId : ℤ) (chatId : String)
  | setting (chatId : String) (request : AlertRequest)
  | counting (userId : ℤ) (request : AlertRequest)
  | inserting (userId : ℤ) (request : AlertRequest)
  | removing (chatId : String) (ruleId : ℤ)
  | deactivating (ruleId : ℤ)
  /-- Before the deletion of the cached rules. -/
  | invalidating
  | upgrading (userId : ℤ) (customer : Option String)
  | cancelling (customer : String)
  | downgrading (customer : String)
  | finished

inductive Request
  | start (chatId : String) (args : List String)
  | setalert (chatId : String) (args : List String)
  | removealert (chatId : String) (args : List String)
  | webhook (event : Payment.StripeEvent)

/-- `NUMERIC(12,4)` of a number that is not negative. -/
def numeric4 (x : ℚ) : ℚ := ⌊x * 10 ^ 4 + 1 / 2⌋ / 10 ^ 4
/-- `lstrip("#")`. -/
def lstripHash (s : String) : String := String.ofList (s.toList.dropWhile (· = '#'))

section
variable (py : Numerals) (upper lower : String → String)

/-- What `cmd_setalert` reads in its arguments; without it the handler only replies. -/
def readAlert : List String → Option AlertRequest
  | token :: minApr :: exchanges =>
    match py.parseFloat minApr with
    | none => none
    | some apr => if 0 ≤ apr ∧ apr ≤ 1000 then some ⟨TokenKeys.setAlertToken upper token,apr,exchanges.map lower⟩ else none
  | _ => none

/-- `cmd_start`, `cmd_setalert`, `cmd_removealert` and `handle_stripe_webhook` up to their
    first await. -/
def Request.launch : Request → Writer
  | .start chatId args =>
    match args with
    | [] => .finished
    | apiKey :: _ => if apiKey = "" then .finished else .starting chatId apiKey
  | .setalert chatId args =>
    match readAlert py upper lower args with
    | none => .finished
    | some request => .setting chatId request
  | .removealert chatId args =>
    match args with
    | [] => .finished
    | ruleId :: _ =>
      match py.parseInt (lstripHash ruleId) with
      | none => .finished
      | some id => .removing chatId id
  | .webhook (.checkoutCompleted session) =>
    match session.userId with
    | none => .finished
    | some text =>
      match (if text = "" then none else py.parseInt text) with
      | none => .finished
      | some id => .upgrading id session.customer
  | .webhook (.subscriptionDeleted customer) =>
    match customer with
    | none => .finished
    | some c => if c = "" then .finished else .cancelling c
  | .webhook .subscriptionUpdated => .finished
  | .webhook (.other _) => .finished

end

/-- The first active user of a chat. -/
def userOfChat (t : AlertTables) (chatId : String) : Option (ℤ × User) :=
  t.users.rows.entries.find? (fun e => t.telegramChatIds.get? e.1 = some chatId ∧ e.2.isActive = true)
/-- `_MAX` active rules of an account. -/
def maxActiveRules : ℕ := 20
def activeRules (t : AlertTables) (userId : ℤ) : ℕ :=
  (t.rules.entries.filter (fun e => e.2.userId = userId ∧ e.2.isActive = true)).length
/-- The rule that a chat may remove. -/
def ownsRule (t : AlertTables) (chatId : String) (ruleId : ℤ) : Bool :=
  (t.rules.get? ruleId).any (fun rule => rule.isActive ∧ (t.users.rows.get? rule.userId).isSome ∧
    t.telegramChatIds.get? rule.userId = some chatId)

/-- One statement of a writer, with its commit. -/
def Writer.advance (t : AlertTables) : Writer → AlertTables × Writer
  | .starting chatId apiKey =>
    match t.users.findByKey apiKey with
    | none => (t,.finished)
    | some (id,_) => (t,.linking id chatId)
  | .linking userId chatId =>
    if (t.users.rows.get? userId).isSome then
      ({ t with telegramChatIds := t.telegramChatIds.insert userId chatId },.invalidating)
    else (t,.invalidating)
  | .setting chatId request =>
    match userOfChat t chatId with
    | none => (t,.finished)
    | some (id,u) => if u.tier ∈ [.pro,.custom] then (t,.counting id request) else (t,.finished)
  | .counting userId request =>
    if activeRules t userId ≥ maxActiveRules then (t,.finished) else (t,.inserting userId request)
  | .inserting userId request =>
    ({ t with
        rules := t.rules.insert t.nextRuleId ⟨userId,request.token,numeric4 request.minApr,request.exchanges,true⟩
        nextRuleId := t.nextRuleId + 1 },.invalidating)
  | .removing chatId ruleId => if ownsRule t chatId ruleId then (t,.deactivating ruleId) else (t,.finished)
  | .deactivating ruleId =>
    match t.rules.get? ruleId with
    | none => (t,.invalidating)
    | some rule => ({ t with rules := t.rules.insert ruleId { rule with isActive := false } },.invalidating)
  | .invalidating => (t,.finished)
  | .upgrading userId customer => ({ t with users := (Payment.upgradeUser .success t.users userId customer).users },.finished)
  | .cancelling customer =>
    match t.users.findByCustomer customer with
    | none => (t,.finished)
    | some _ => (t,.downgrading customer)
  | .downgrading customer =>
    ({ t with users := (Payment.downgradeUserByCustomer .success t.users customer).1.users },.finished)
  | .finished => (t,.finished)

/-! ### The cycles -/

/-- The rules of `_process_rules` that match, with their opportunities. -/
def matchRules (lower : String → String) (rules : List LoadedRule) (opportunities : List ArbitrageResult) :
    List (LoadedRule × ArbitrageResult) :=
  rules.filterMap fun rule =>
    match TokenKeys.matchRule opportunities rule.token with
    | none => none
    | some opp =>
      if opp.netAprTaker < rule.minApr then none
      else if rule.exchanges ≠ [] ∧ opp.longLeg.exchange ∉ rule.exchanges.map lower ∧
          opp.shortLeg.exchange ∉ rule.exchanges.map lower then none
      else some (rule,opp)

/-- Where a `_maybe_alert` stands. -/
inductive Delivery
  | waiting
  | acquired
  | failed
  | ended
deriving DecidableEq

/-- An alert of a cycle. -/
structure Alert where
  rule : LoadedRule
  opportunity : ArbitrageResult
  delivery : Delivery
deriving DecidableEq

/-- `notif:throttle:{user_id}:{token}`. -/
def Alert.throttleKey (a : Alert) : ℤ × String := (a.rule.userId,a.rule.token)

/-- Where a `check_and_notify` stands. `start` is what the tables held when it began; the
    code does not keep it. -/
inductive Cycle
  | begun (start : AlertTables)
  | listed (start : AlertTables) (opportunities : List ArbitrageResult)
  | missed (start : AlertTables) (opportunities : List ArbitrageResult)
  | loaded (start : AlertTables) (opportunities : List ArbitrageResult) (rules : List LoadedRule)
  | alerting (start : AlertTables) (rules : List LoadedRule) (alerts : List Alert)
  | skipped (start : AlertTables)

def Cycle.start : Cycle → AlertTables
  | .begun start => start
  | .listed start _ => start
  | .missed start _ => start
  | .loaded start _ _ => start
  | .alerting start _ _ => start
  | .skipped start => start

/-- The rules that the cycle has taken. -/
def Cycle.taken : Cycle → Option (List LoadedRule)
  | .loaded _ _ rules => some rules
  | .alerting _ rules _ => some rules
  | _ => none
/-- The cycle has begun and has yet to take its rules. -/
def Cycle.waits : Cycle → Bool
  | .begun _ => true
  | .listed _ _ => true
  | .missed _ _ => true
  | _ => false

/-- A message handed to Telegram, and the cycle that sent it. -/
structure Sent where
  cycle : ℕ
  rule : LoadedRule
  opportunity : ArbitrageResult

end NotificationService
open NotificationService

/-- The tables, what Redis holds for the notifications, the cycles and writers so far, and
    the messages sent. -/
structure NotificationService where
  tables : AlertTables
  rulesCache : Option (List LoadedRule)
  throttles : List (ℤ × String)
  opportunities : List ArbitrageResult
  cycles : Dict ℕ Cycle
  writers : Dict ℕ Writer
  sent : List Sent

namespace NotificationService

inductive Action
  | begin (cycle : ℕ)
  | check (cycle : ℕ)
  | alert (cycle i : ℕ) (delivered : Bool)
  | launch (writer : ℕ) (request : Request)
  | write (writer : ℕ)
  | publish (opportunities : List ArbitrageResult)
  | expireRules
  | expireThrottle (key : ℤ × String)

section
variable (py : Numerals) (upper lower : String → String) (s : NotificationService)

def process (start : AlertTables) (rules : List LoadedRule) (opportunities : List ArbitrageResult) : Cycle :=
  .alerting start rules ((matchRules lower rules opportunities).map fun m => ⟨m.1,m.2,.waiting⟩)

/-- `check_and_notify` to its next await; a list that is empty is not cached. -/
def checkAndNotify (c : ℕ) (cycle : Cycle) : NotificationService :=
  match cycle with
  | .begun start =>
    { s with cycles := s.cycles.insert c (if s.opportunities = [] then .skipped start else .listed start s.opportunities) }
  | .listed start opportunities =>
    match s.rulesCache with
    | some rules => { s with cycles := s.cycles.insert c (process lower start rules opportunities) }
    | none => { s with cycles := s.cycles.insert c (.missed start opportunities) }
  | .missed start opportunities =>
    if loadRulesFromDb s.tables = [] then { s with cycles := s.cycles.insert c (.alerting start [] []) }
    else { s with cycles := s.cycles.insert c (.loaded start opportunities (loadRulesFromDb s.tables)) }
  | .loaded start opportunities rules =>
    { s with rulesCache := some rules, cycles := s.cycles.insert c (process lower start rules opportunities) }
  | .alerting _ _ _ => s
  | .skipped _ => s

/-- `_maybe_alert` to its next await. -/
def maybeAlert (c i : ℕ) (delivered : Bool) (start : AlertTables) (rules : List LoadedRule) (alerts : List Alert) (a : Alert) :
    NotificationService :=
  let moved := fun delivery => s.cycles.insert c (.alerting start rules (alerts.set i { a with delivery := delivery }))
  match a.delivery with
  | .waiting =>
    if a.throttleKey ∈ s.throttles then { s with cycles := moved .ended }
    else { s with throttles := a.throttleKey :: s.throttles, cycles := moved .acquired }
  | .acquired =>
    { s with cycles := moved (if delivered then .ended else .failed), sent := s.sent ++ [⟨c,a.rule,a.opportunity⟩] }
  | .failed => { s with throttles := s.throttles.filter (· ≠ a.throttleKey), cycles := moved .ended }
  | .ended => s

/-- A writer to its next await. -/
def write (w : ℕ) (writer : Writer) : NotificationService :=
  { s with
    tables := (writer.advance s.tables).1
    rulesCache := match writer with
      | .invalidating => none
      | _ => s.rulesCache
    writers := s.writers.insert w (writer.advance s.tables).2 }

def step : Action → NotificationService
  | .begin c =>
    match s.cycles.get? c with
    | some _ => s
    | none => { s with cycles := s.cycles.insert c (.begun s.tables) }
  | .check c =>
    match s.cycles.get? c with
    | none => s
    | some cycle => s.checkAndNotify lower c cycle
  | .alert c i delivered =>
    match s.cycles.get? c with
    | some (.alerting start rules alerts) =>
      match alerts[i]? with
      | none => s
      | some a => s.maybeAlert c i delivered start rules alerts a
    | _ => s
  | .launch w request =>
    match s.writers.get? w with
    | some _ => s
    | none => { s with writers := s.writers.insert w (request.launch py upper lower) }
  | .write w =>
    match s.writers.get? w with
    | none => s
    | some writer => s.write w writer
  | .publish opportunities => { s with opportunities := opportunities }
  | .expireRules => { s with rulesCache := none }
  | .expireThrottle key => { s with throttles := s.throttles.filter (· ≠ key) }

def run (actions : List Action) : NotificationService := actions.foldl (step py upper lower) s

end
end NotificationService
end FundingRadar
