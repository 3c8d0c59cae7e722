import FundingRadar.Notifications
import FundingRadar.Runs

/-!
The commands of the Telegram bot, one after another. A user has one chat, the one that linked
it last, so a chat whose user went to another chat stands for nobody. The schema does not keep
a chat from standing for two users at once, though. In runs without such a link every command
acts on the user for whom its chat stands, and nobody ever has more than the allowed number of
active rules (`acts_on_linked_user`).
-/
namespace FundingRadar
open NotificationService Runs

namespace TelegramBot

inductive Command
  | start
  | setalert
  | removealert
  | alerts
deriving DecidableEq

structure Message where
  chatId : String
  command : Command
  args : List String
deriving DecidableEq

/-- A handler from the statement it stands before to its end; none has more than five. -/
def finish (t : AlertTables) (w : Writer) : AlertTables :=
  ((fun at_ : AlertTables × Writer => at_.2.advance at_.1)^[5] (t,w)).1

section
variable (py : Numerals) (upper lower : String → String)

/-- What a handler leaves in the tables. -/
def handle (t : AlertTables) (m : Message) : AlertTables :=
  match m.command with
  | .start => finish t ((Request.start m.chatId m.args).launch py upper lower)
  | .setalert => finish t ((Request.setalert m.chatId m.args).launch py upper lower)
  | .removealert => finish t ((Request.removealert m.chatId m.args).launch py upper lower)
  | .alerts => t
end

/-- `cmd_alerts`: the rules that the reply lists. -/
def listAlerts (t : AlertTables) (chatId : String) : List (ℤ × NotificationRule) :=
  sortedBy Prod.fst (t.rules.entries.filter (fun e => ownsRule t chatId e.1))

/-- The user whom a `/start` links. -/
def startTarget (users : UsersTable) (args : List String) : Option ℤ :=
  match args with
  | [] => none
  | apiKey :: _ => if apiKey = "" then none else (users.findByKey apiKey).map Prod.fst

/-- The rule that a `/removealert` names. -/
def removeTarget (py : Numerals) (args : List String) : Option ℤ :=
  args.head?.bind (fun arg => py.parseInt (lstripHash arg))

end TelegramBot
open TelegramBot

/-- The tables, and the links so far, the last one first, which the bot does not keep. -/
structure TelegramBot where
  tables : AlertTables
  links : List (String × ℤ)

namespace TelegramBot
variable (py : Numerals) (upper lower : String → String) (s : TelegramBot)

def step (m : Message) : TelegramBot where
  tables := handle py upper lower s.tables m
  links :=
    if m.command = .start then ((startTarget s.tables.users m.args).map (m.chatId,·)).toList ++ s.links
    else s.links
/-- A bot that nobody has linked, over some users. -/
def new (users : UsersTable) : TelegramBot := ⟨⟨users,.empty,.empty,1⟩,[]⟩

/-- The user whom the chat linked last. -/
def LinkedLast (chatId : String) (userId : ℤ) : Prop :=
  (s.links.find? (fun link => link.1 = chatId)).map Prod.snd = some userId
instance (chatId : String) (userId : ℤ) : Decidable (s.LinkedLast chatId userId) := inferInstanceAs (Decidable (_ = _))
/-- The chat that linked the user last. -/
def HeldBy (userId : ℤ) (chatId : String) : Prop :=
  (s.links.find? (fun link => link.2 = userId)).map Prod.fst = some chatId
/-- The chat linked this user last, and no other chat has linked it since. -/
def StandsFor (chatId : String) (userId : ℤ) : Prop := s.LinkedLast chatId userId ∧ s.HeldBy userId chatId

/-- A link of a chat that does not stand for another user. -/
def Unshared (m : Message) : Prop :=
  m.command = .start → ∀ id, startTarget s.tables.users m.args = some id →
    ∀ other, s.HeldBy other m.chatId → other = id

/-- An active rule of a user on whom the chat acts. -/
def OwnActive (acts : String → ℤ → Prop) (chatId : String) (id : ℤ) (rule : NotificationRule) : Prop :=
  s.tables.rules.get? id = some rule ∧ rule.isActive = true ∧ acts chatId rule.userId

/-- What a command should do, given the users on whom a chat acts. -/
structure Lawful (acts : String → ℤ → Prop) (m : Message) : Prop where
  /-- The rules of all other users stay as they are. -/
  others : ∀ userId, ¬acts m.chatId userId → ∀ id rule, rule.userId = userId →
    ((s.step py upper lower m).tables.rules.get? id = some rule ↔ s.tables.rules.get? id = some rule)
  /-- A rule appears by `/setalert` only, for a user on whom the chat acts. -/
  created : ∀ id rule, (s.step py upper lower m).tables.rules.get? id = some rule → s.tables.rules.get? id = none →
    m.command = .setalert ∧ acts m.chatId rule.userId
  /-- `/removealert` ends an active rule of that user. -/
  removed : ∀ id rule, m.command = .removealert → removeTarget py m.args = some id → s.OwnActive acts m.chatId id rule →
    (s.step py upper lower m).tables.rules.get? id = some { rule with isActive := false }
  /-- No other rule changes. -/
  kept : ∀ id rule, s.tables.rules.get? id = some rule →
    ¬(m.command = .removealert ∧ removeTarget py m.args = some id ∧ s.OwnActive acts m.chatId id rule) →
      (s.step py upper lower m).tables.rules.get? id = some rule
  /-- `/alerts` lists the active rules of that user. -/
  listed : ∀ id rule, (id,rule) ∈ listAlerts s.tables m.chatId ↔ s.OwnActive acts m.chatId id rule

/-! ### The handlers -/

variable {py upper lower} {t : AlertTables}

theorem active_of_startTarget {users : UsersTable} {args : List String} {id : ℤ} (target : startTarget users args = some id) :
    ∃ u, users.rows.get? id = some u ∧ u.isActive = true := by
  unfold startTarget at target
  split at target
  · cases target
  · next key rest =>
    split at target
    · cases target
    · obtain ⟨⟨_,u⟩,found,rfl⟩ := Option.map_eq_some_iff.mp target
      rw [UsersTable.findByKey,UsersTable.find] at found
      have passes := List.find?_some found
      exact ⟨u,(Dict.mem_entries_iff _ _ _).mp (List.mem_of_find?_eq_some found),(of_decide_eq_true passes).2⟩

theorem handle_start_of_none {m : Message} (command : m.command = .start) (target : startTarget t.users m.args = none) :
    handle py upper lower t m = t := by
  simp only [handle,command,Request.launch]
  cases args : m.args with
  | nil => rfl
  | cons apiKey rest =>
    by_cases given : apiKey = ""
    · simp only [given,if_true]
      rfl
    · simp only [startTarget,args,given,if_false,Option.map_eq_none_iff] at target
      simp only [given,if_false,finish,Function.iterate_succ_apply,Writer.advance,target,Function.iterate_zero_apply]

theorem handle_start_of_some {m : Message} (command : m.command = .start) {id : ℤ}
    (target : startTarget t.users m.args = some id) :
    handle py upper lower t m = { t with telegramChatIds := t.telegramChatIds.insert id m.chatId } := by
  obtain ⟨u,present,-⟩ := active_of_startTarget target
  simp only [handle,command,Request.launch]
  cases args : m.args with
  | nil =>
    simp only [startTarget,args] at target
    cases target
  | cons apiKey rest =>
    by_cases given : apiKey = ""
    · simp only [startTarget,args,given,if_true] at target
      cases target
    · simp only [startTarget,args,given,if_false] at target
      obtain ⟨⟨_,v⟩,found,rfl⟩ := Option.map_eq_some_iff.mp target
      simp only [given,if_false,finish,Function.iterate_succ_apply,Writer.advance,found,present,Option.isSome_some,
        if_true,Function.iterate_zero_apply]

variable (py upper lower t) in
theorem handle_setalert {m : Message} (command : m.command = .setalert) :
    handle py upper lower t m = t ∨
      ∃ id u rule, userOfChat t m.chatId = some (id,u) ∧ activeRules t id < maxActiveRules ∧ rule.userId = id ∧
        handle py upper lower t m = { t with rules := t.rules.insert t.nextRuleId rule, nextRuleId := t.nextRuleId + 1 } := by
  simp only [handle,command,Request.launch]
  split
  · exact .inl rfl
  · next request _ =>
    simp only [finish,Function.iterate_succ_apply,Function.iterate_zero_apply]
    cases found : userOfChat t m.chatId with
    | none =>
      left
      simp only [Writer.advance,found]
    | some e =>
      obtain ⟨id,u⟩ := e
      by_cases pays : u.tier ∈ [.pro,.custom]
      · by_cases full : activeRules t id ≥ maxActiveRules
        · left
          simp only [Writer.advance,found,pays,full,if_true]
        · right
          refine ⟨id,u,⟨id,request.token,numeric4 request.minApr,request.exchanges,true⟩,rfl,not_le.mp full,rfl,?_⟩
          simp only [Writer.advance,found,pays,full,if_true,if_false]
      · left
        simp only [Writer.advance,found,pays,if_false]

theorem handle_removealert {m : Message} (command : m.command = .removealert) :
    handle py upper lower t m = (removeTarget py m.args).elim t (fun id => finish t (.removing m.chatId id)) := by
  simp only [handle,command,Request.launch,removeTarget]
  cases m.args with
  | nil => rfl
  | cons arg rest =>
    rw [List.head?_cons,Option.bind_some]
    cases parsed : py.parseInt (lstripHash arg) with
    | none => simp only [parsed]; rfl
    | some id => simp only [parsed,Option.elim_some]

theorem finish_removing_of_other {chatId : String} {id : ℤ} (other : ownsRule t chatId id = false) :
    finish t (.removing chatId id) = t := by
  simp only [finish,Function.iterate_succ_apply,Writer.advance,other,Bool.false_eq_true,if_false,
    Function.iterate_zero_apply]

theorem finish_removing_of_owns {chatId : String} {id : ℤ} (owns : ownsRule t chatId id = true) {rule : NotificationRule}
    (found : t.rules.get? id = some rule) :
    finish t (.removing chatId id) = { t with rules := t.rules.insert id { rule with isActive := false } } := by
  simp only [finish,Function.iterate_succ_apply,Writer.advance,owns,if_true,found,Function.iterate_zero_apply]

theorem ownsRule_iff (chatId : String) (id : ℤ) :
    ownsRule t chatId id = true ↔ ∃ rule, t.rules.get? id = some rule ∧ rule.isActive = true ∧
      (t.users.rows.get? rule.userId).isSome ∧ t.telegramChatIds.get? rule.userId = some chatId := by
  simp only [ownsRule,Option.any_eq_true,decide_eq_true_eq]

variable (py upper lower t) in
/-- What a command does to the rules: nothing, or one new rule at the end, or one rule ended. -/
theorem rules_cases (m : Message) :
    ((handle py upper lower t m).rules = t.rules ∧ (handle py upper lower t m).nextRuleId = t.nextRuleId) ∨
    (∃ id u rule, m.command = .setalert ∧ userOfChat t m.chatId = some (id,u) ∧ activeRules t id < maxActiveRules ∧
      rule.userId = id ∧ (handle py upper lower t m).rules = t.rules.insert t.nextRuleId rule ∧
        (handle py upper lower t m).nextRuleId = t.nextRuleId + 1) ∨
    (∃ id rule, m.command = .removealert ∧ removeTarget py m.args = some id ∧
      ownsRule t m.chatId id = true ∧ t.rules.get? id = some rule ∧
        (handle py upper lower t m).rules = t.rules.insert id { rule with isActive := false } ∧
          (handle py upper lower t m).nextRuleId = t.nextRuleId) := by
  cases command : m.command with
  | start =>
    left
    cases target : startTarget t.users m.args with
    | none => rw [handle_start_of_none command target]; exact ⟨rfl,rfl⟩
    | some id => rw [handle_start_of_some command target]; exact ⟨rfl,rfl⟩
  | setalert =>
    rcases handle_setalert py upper lower t command with same | ⟨id,u,rule,chat,few,owner,created⟩
    · exact .inl (by rw [same]; exact ⟨rfl,rfl⟩)
    · exact .inr (.inl ⟨id,u,rule,rfl,chat,few,owner,by rw [created],by rw [created]⟩)
  | removealert =>
    rw [handle_removealert command]
    cases target : removeTarget py m.args with
    | none => exact .inl ⟨rfl,rfl⟩
    | some id =>
      cases owns : ownsRule t m.chatId id with
      | false =>
        left
        rw [Option.elim_some,finish_removing_of_other owns]
        exact ⟨rfl,rfl⟩
      | true =>
        obtain ⟨rule,found,-⟩ := (ownsRule_iff _ _).mp owns
        right; right
        rw [Option.elim_some,finish_removing_of_owns owns found]
        exact ⟨id,rule,rfl,rfl,owns,found,rfl,rfl⟩
  | alerts =>
    left
    simp only [handle,command,and_self]

/-! ### What every run keeps -/

/-- New rules get new ids, and nobody has too many. -/
structure Sound (t : AlertTables) : Prop where
  fresh : ∀ id, t.nextRuleId ≤ id → t.rules.get? id = none
  few : ∀ userId, activeRules t userId ≤ maxActiveRules

theorem activeRules_of_rules {t' : AlertTables} (same : t'.rules = t.rules) (userId : ℤ) :
    activeRules t' userId = activeRules t userId := by
  rw [activeRules,activeRules,same]

theorem activeRules_insert_absent {t' : AlertTables} {id : ℤ} {rule : NotificationRule} (absent : t.rules.get? id = none)
    (inserted : t'.rules = t.rules.insert id rule) (userId : ℤ) :
    activeRules t' userId ≤ activeRules t userId + if rule.userId = userId then 1 else 0 := by
  rw [activeRules,inserted,Dict.entries_insert_of_absent absent,List.filter_append,List.length_append]
  apply Nat.add_le_add_left
  by_cases own : rule.userId = userId
  · rw [if_pos own]
    exact List.length_filter_le _ _
  · simp [own]

theorem activeRules_insert_ended {t' : AlertTables} {id : ℤ} {rule : NotificationRule} (ended : rule.isActive = false)
    (inserted : t'.rules = t.rules.insert id rule) (userId : ℤ) : activeRules t' userId ≤ activeRules t userId := by
  rw [activeRules,inserted]
  exact Dict.length_filter_insert_le _ (by simp [ended])

theorem sound_handle (sound : Sound t) (m : Message) : Sound (handle py upper lower t m) := by
  rcases rules_cases py upper lower t m with
    ⟨rules,next⟩ | ⟨id,u,rule,-,-,room,owner,rules,next⟩ | ⟨id,rule,-,-,-,found,rules,next⟩
  · refine ⟨?_,?_⟩
    · rw [rules,next]
      exact sound.fresh
    · intro userId
      rw [activeRules_of_rules rules]
      exact sound.few userId
  · have absent := sound.fresh _ (le_refl t.nextRuleId)
    refine ⟨?_,?_⟩
    · intro j high
      rw [next] at high
      rw [rules,Dict.get?_insert,if_neg (by omega)]
      exact sound.fresh j (by omega)
    · intro userId
      have bound := activeRules_insert_absent absent rules userId
      by_cases own : rule.userId = userId
      · subst own owner
        rw [if_pos rfl] at bound
        omega
      · rw [if_neg own] at bound
        exact bound.trans (sound.few userId)
  · refine ⟨?_,?_⟩
    · intro j high
      rw [next] at high
      have apart : j ≠ id := by
        rintro rfl
        rw [sound.fresh j high] at found
        cases found
      rw [rules,Dict.get?_insert,if_neg apart]
      exact sound.fresh j high
    · intro userId
      exact (activeRules_insert_ended rfl rules userId).trans (sound.few userId)

theorem sound_new (users : UsersTable) : Sound (new users).tables where
  fresh := fun _ _ => rfl
  few := fun _ => Nat.zero_le _

/-! ### What links of chats that are free keep -/

/-- The tables hold the last chat of every user, all of them active. -/
structure Recorded (s : TelegramBot) : Prop where
  held : ∀ id chat, s.tables.telegramChatIds.get? id = some chat ↔ s.HeldBy id chat
  active : ∀ id chat, s.tables.telegramChatIds.get? id = some chat →
    ∃ u, s.tables.users.rows.get? id = some u ∧ u.isActive = true

variable (py upper lower t) in
theorem handle_of_not_start {m : Message} (other : m.command ≠ .start) :
    (handle py upper lower t m).users = t.users ∧ (handle py upper lower t m).telegramChatIds = t.telegramChatIds := by
  cases command : m.command with
  | start => exact absurd command other
  | setalert =>
    rcases handle_setalert py upper lower t command with same | ⟨id,u,rule,-,-,-,created⟩
    · rw [same]; exact ⟨rfl,rfl⟩
    · rw [created]; exact ⟨rfl,rfl⟩
  | removealert =>
    rw [handle_removealert command]
    cases target : removeTarget py m.args with
    | none => exact ⟨rfl,rfl⟩
    | some id =>
      cases owns : ownsRule t m.chatId id with
      | false => rw [Option.elim_some,finish_removing_of_other owns]; exact ⟨rfl,rfl⟩
      | true =>
        obtain ⟨rule,found,-⟩ := (ownsRule_iff _ _).mp owns
        rw [Option.elim_some,finish_removing_of_owns owns found]
        exact ⟨rfl,rfl⟩
  | alerts => simp only [handle,command,and_self]

variable {s : TelegramBot}

variable (py upper lower s) in
theorem step_cases (m : Message) :
    (∃ id, m.command = .start ∧ startTarget s.tables.users m.args = some id ∧
      s.step py upper lower m =
        { s with tables.telegramChatIds := s.tables.telegramChatIds.insert id m.chatId, links := (m.chatId,id) :: s.links }) ∨
    ((s.step py upper lower m).links = s.links ∧ (s.step py upper lower m).tables.users = s.tables.users ∧
      (s.step py upper lower m).tables.telegramChatIds = s.tables.telegramChatIds) := by
  by_cases command : m.command = .start
  · cases target : startTarget s.tables.users m.args with
    | none =>
      right
      simp only [step,handle_start_of_none command target,command,if_true,target,Option.map_none,Option.toList_none,
        List.nil_append,and_self]
    | some id =>
      left
      refine ⟨id,command,rfl,?_⟩
      simp only [step,handle_start_of_some command target,command,if_true,target,Option.map_some,Option.toList_some,
        List.singleton_append]
  · right
    obtain ⟨users,chats⟩ := handle_of_not_start py upper lower s.tables command
    simp only [step,users,chats,command,if_false,and_self]

theorem recorded_step (recorded : Recorded s) (m : Message) : Recorded (s.step py upper lower m) := by
  rcases step_cases py upper lower s m with ⟨id,-,target,linked⟩ | ⟨links,users,chats⟩
  · rw [linked]
    refine ⟨?_,?_⟩
    · intro j chat
      rw [HeldBy,Dict.get?_insert,List.find?_cons]
      by_cases same : j = id
      · subst same
        simp
      · simp only [same,Ne.symm same,if_false,decide_false]
        exact recorded.held j chat
    · intro j chat found
      rw [Dict.get?_insert] at found
      split at found
      · next user =>
        subst user
        exact active_of_startTarget target
      · exact recorded.active j chat found
  · refine ⟨?_,?_⟩
    · intro j chat
      rw [HeldBy,chats,links]
      exact recorded.held j chat
    · rw [users,chats]
      exact recorded.active

/-- A chat that holds a user linked nobody else since. -/
def Faithful (s : TelegramBot) : Prop := ∀ id chat, s.HeldBy id chat → s.LinkedLast chat id

theorem faithful_step (faithful : Faithful s) {m : Message} (unshared : s.Unshared m) :
    Faithful (s.step py upper lower m) := by
  intro j chat held
  rcases step_cases py upper lower s m with ⟨id,command,target,linked⟩ | ⟨links,-,-⟩
  · rw [linked] at held ⊢
    rw [HeldBy,List.find?_cons] at held
    rw [LinkedLast,List.find?_cons]
    by_cases user : id = j
    · subst user
      simp only [decide_true] at held
      cases held
      simp
    · simp only [user,decide_false] at held
      by_cases same : m.chatId = chat
      · subst same
        exact absurd (unshared command id target j held).symm user
      · simp only [same,decide_false]
        exact faithful j chat held
  · rw [HeldBy,links] at held
    rw [LinkedLast,links]
    exact faithful j chat held

/-- The tables find the users for whom a chat stands. -/
theorem standsFor_iff (recorded : Recorded s) (faithful : Faithful s) (chatId : String) (userId : ℤ) :
    s.tables.telegramChatIds.get? userId = some chatId ↔ s.StandsFor chatId userId := by
  rw [recorded.held]
  exact ⟨fun held => ⟨faithful _ _ held,held⟩,And.right⟩

/-- The rules of a chat are the active rules of the user for whom it stands. -/
theorem ownsRule_iff_ownActive (recorded : Recorded s) (faithful : Faithful s) (chatId : String) (id : ℤ) :
    ownsRule s.tables chatId id = true ↔ ∃ rule, s.OwnActive s.StandsFor chatId id rule := by
  rw [ownsRule_iff]
  apply exists_congr
  intro rule
  rw [OwnActive,← standsFor_iff recorded faithful]
  constructor
  · rintro ⟨found,active,-,chat⟩
    exact ⟨found,active,chat⟩
  · rintro ⟨found,active,chat⟩
    obtain ⟨u,present,-⟩ := recorded.active _ _ chat
    exact ⟨found,active,by rw [present]; rfl,chat⟩

theorem chat_of_userOfChat {t : AlertTables} {chatId : String} {id : ℤ} {u : User}
    (found : userOfChat t chatId = some (id,u)) : t.telegramChatIds.get? id = some chatId := by
  rw [userOfChat] at found
  have passes := List.find?_some found
  exact (of_decide_eq_true passes).1

/-! ### What a command does to the rules -/

section
variable (sound : Sound s.tables) (recorded : Recorded s) (faithful : Faithful s) {m : Message}
include recorded faithful

theorem rule_created {id : ℤ} {rule : NotificationRule}
    (appears : (s.step py upper lower m).tables.rules.get? id = some rule) (absent : s.tables.rules.get? id = none) :
    m.command = .setalert ∧ s.StandsFor m.chatId rule.userId := by
  simp only [step] at appears
  rcases rules_cases py upper lower s.tables m with
    ⟨rules,-⟩ | ⟨linked,u,created,command,chat,-,creator,rules,-⟩ | ⟨target,ended,-,-,-,found,rules,-⟩
  · rw [rules,absent] at appears
    cases appears
  · rw [rules,Dict.get?_insert] at appears
    split at appears
    · cases appears
      exact ⟨command,creator ▸ (standsFor_iff recorded faithful _ _).mp (chat_of_userOfChat chat)⟩
    · rw [absent] at appears
      cases appears
  · rw [rules,Dict.get?_insert] at appears
    split at appears
    · next same =>
      rw [same,found] at absent
      cases absent
    · rw [absent] at appears
      cases appears

theorem rule_removed {id : ℤ} {rule : NotificationRule} (command : m.command = .removealert)
    (target : removeTarget py m.args = some id) (own : s.OwnActive s.StandsFor m.chatId id rule) :
    (s.step py upper lower m).tables.rules.get? id = some { rule with isActive := false } := by
  have owns := (ownsRule_iff_ownActive recorded faithful m.chatId id).mpr ⟨rule,own⟩
  simp only [step]
  rw [handle_removealert command,target,Option.elim_some,finish_removing_of_owns owns own.1,Dict.get?_insert_self]

include sound in
theorem rule_kept {id : ℤ} {rule : NotificationRule} (found : s.tables.rules.get? id = some rule)
    (other : ¬(m.command = .removealert ∧ removeTarget py m.args = some id ∧ s.OwnActive s.StandsFor m.chatId id rule)) :
    (s.step py upper lower m).tables.rules.get? id = some rule := by
  simp only [step]
  rcases rules_cases py upper lower s.tables m with
    ⟨rules,-⟩ | ⟨_,_,_,-,-,-,-,rules,-⟩ | ⟨target,ended,command,named,owns,found',rules,-⟩
  · rw [rules,found]
  · rw [rules,Dict.get?_insert_of_absent (sound.fresh _ (le_refl _)) found]
  · rw [rules,Dict.get?_insert]
    split
    · next same =>
      subst same
      obtain ⟨rule',own⟩ := (ownsRule_iff_ownActive recorded faithful _ _).mp owns
      cases found.symm.trans own.1
      exact absurd ⟨command,named,own⟩ other
    · exact found

include sound in
/-- A rule of another user is neither ended nor made. -/
theorem rules_of_others {userId : ℤ} (not : ¬s.StandsFor m.chatId userId) (id : ℤ) {rule : NotificationRule}
    (owner : rule.userId = userId) :
    (s.step py upper lower m).tables.rules.get? id = some rule ↔ s.tables.rules.get? id = some rule := by
  subst owner
  constructor
  · intro found
    cases before : s.tables.rules.get? id with
    | none => exact absurd (rule_created recorded faithful found before).2 not
    | some rule' =>
      by_cases removed : m.command = .removealert ∧ removeTarget py m.args = some id ∧ s.OwnActive s.StandsFor m.chatId id rule'
      · obtain ⟨command,target,own⟩ := removed
        cases found.symm.trans (rule_removed recorded faithful command target own)
        exact absurd own.2.2 not
      · exact (rule_kept sound recorded faithful before removed).symm.trans found
  · intro found
    exact rule_kept sound recorded faithful found (fun removed => not removed.2.2.2.2)

theorem mem_listAlerts_iff (chatId : String) (id : ℤ) (rule : NotificationRule) :
    (id,rule) ∈ listAlerts s.tables chatId ↔ s.OwnActive s.StandsFor chatId id rule := by
  rw [listAlerts,mem_sortedBy,List.mem_filter,Dict.mem_entries_iff,ownsRule_iff_ownActive recorded faithful]
  constructor
  · rintro ⟨found,rule',own⟩
    cases found.symm.trans own.1
    exact own
  · intro own
    exact ⟨own.1,rule,own⟩

end

/-- The bot stands where links of free chats have led it. -/
structure Inv (s : TelegramBot) : Prop where
  sound : Sound s.tables
  recorded : Recorded s
  faithful : Faithful s

theorem inv_new (users : UsersTable) : Inv (new users) where
  sound := sound_new users
  recorded := ⟨fun _ _ => ⟨(fun found => by cases found),(fun held => by cases held)⟩,fun _ _ found => by cases found⟩
  faithful := fun _ _ held => by cases held

theorem inv_step (inv : Inv s) {m : Message} (unshared : s.Unshared m) : Inv (s.step py upper lower m) where
  sound := sound_handle inv.sound m
  recorded := recorded_step inv.recorded m
  faithful := faithful_step inv.faithful unshared

theorem lawful_of_inv (inv : Inv s) (m : Message) : s.Lawful py upper lower s.StandsFor m where
  others := fun _ not id _ owner => rules_of_others inv.sound inv.recorded inv.faithful not id owner
  created := fun _ _ => rule_created inv.recorded inv.faithful
  removed := fun _ _ => rule_removed inv.recorded inv.faithful
  kept := fun _ _ => rule_kept inv.sound inv.recorded inv.faithful
  listed := mem_listAlerts_iff inv.recorded inv.faithful m.chatId

/-- Nobody ever has more than the allowed number of active rules, and in a run in which no chat
    links a user while it stands for another, every command acts on the user for whom its chat
    stands. -/
theorem acts_on_linked_user (py : Numerals) (upper lower : String → String) (users : UsersTable) (messages : List Message) :
    Throughout (step py upper lower) (fun s : TelegramBot => ∀ userId, activeRules s.tables userId ≤ maxActiveRules) (new users) messages ∧
      (Each (step py upper lower) Unshared (new users) messages →
        Each (step py upper lower) (fun (s : TelegramBot) m => s.Lawful py upper lower s.StandsFor m) (new users) messages) := by
  constructor
  · intro before _
    have keeps : ∀ s m, Sound s.tables → Sound (step py upper lower s m).tables := fun _ m sound => sound_handle sound m
    exact (kept_run keeps (sound_new users) before).few
  · intro unshared before m after split
    have inv := kept_of_conditions (fun s m => inv_step (s := s) (m := m)) (inv_new users) unshared before ⟨m :: after,split.symm⟩
    exact lawful_of_inv inv m

/-- A chat that links again the user of all its links. -/
theorem unshared_of_links {m : Message}
    (same : m.command = .start → ∀ link ∈ s.links, link.1 = m.chatId → startTarget s.tables.users m.args = some link.2) :
    s.Unshared m := by
  intro command id target other held
  obtain ⟨link,found,chat⟩ := Option.map_eq_some_iff.mp held
  have own := same command link (List.mem_of_find?_eq_some found) chat
  have passes := List.find?_some found
  have holder : link.2 = other := of_decide_eq_true passes
  exact holder.symm.trans (Option.some.inj (own.symm.trans target))

/-- Two paying users, with the keys `a` and `b`. -/
def twoUsers : UsersTable :=
  ((UsersTable.empty.set 1 ⟨"a",.pro,true,none⟩).bind (fun t => t.set 2 ⟨"b",.pro,true,none⟩)).getD .empty
/-- The only numeral of the runs. -/
def one : Numerals := ⟨fun s => if s = "1" then some 1 else none,fun s => if s = "1" then some 1 else none⟩

def linkedRun : List Message :=
  [⟨"8",.start,["a"]⟩,⟨"8",.setalert,["BTC","1"]⟩,⟨"9",.start,["b"]⟩,⟨"9",.removealert,["1"]⟩,⟨"8",.removealert,["#1"]⟩]
theorem linkedRun_lawful :
    Each (step one id id) (fun (s : TelegramBot) m => s.Lawful one id id s.StandsFor m) (new twoUsers) linkedRun := by
  refine (acts_on_linked_user one id id twoUsers linkedRun).2 ?_
  simp only [linkedRun,each_cons]
  refine ⟨?_,?_,?_,?_,?_,each_nil⟩ <;> exact unshared_of_links (by decide +kernel)

/-- The user of chat `8` links chat `9`, and sets an alert there. -/
def movedRun : List Message := [⟨"8",.start,["a"]⟩,⟨"9",.start,["a"]⟩,⟨"9",.setalert,["BTC","1"]⟩,⟨"8",.alerts,[]⟩]
/-- Chat `8` sets an alert for one user and links another. -/
def sharedRun : List Message := [⟨"8",.start,["a"]⟩,⟨"8",.setalert,["BTC","1"]⟩,⟨"8",.start,["b"]⟩,⟨"8",.alerts,[]⟩]

/-- Neither run acts on the user whom the chat linked last, whatever has become of the links. -/
theorem not_linked_last :
    ¬Each (step one id id) (fun (s : TelegramBot) m => s.Lawful one id id s.LinkedLast m) (new twoUsers) movedRun ∧
      ¬Each (step one id id) (fun (s : TelegramBot) m => s.Lawful one id id s.LinkedLast m) (new twoUsers) sharedRun := by
  constructor
  · intro each
    have last := each [⟨"8",.start,["a"]⟩,⟨"9",.start,["a"]⟩,⟨"9",.setalert,["BTC","1"]⟩] ⟨"8",.alerts,[]⟩ [] rfl
    have listed := (last.listed 1 ⟨1,"BTC",1,[],true⟩).mpr ⟨by decide +kernel,rfl,by decide +kernel⟩
    exact absurd listed (by decide +kernel)
  · intro each
    have last := each [⟨"8",.start,["a"]⟩,⟨"8",.setalert,["BTC","1"]⟩,⟨"8",.start,["b"]⟩] ⟨"8",.alerts,[]⟩ [] rfl
    have own := (last.listed 1 ⟨1,"BTC",1,[],true⟩).mp (by decide +kernel)
    exact absurd own.2.2 (by decide +kernel)

end TelegramBot
end FundingRadar
