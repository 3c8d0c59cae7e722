import FundingRadar.Notifications

/-!
Which rules the alerts of a cycle come from. A cycle should send exactly what the tables
at its start allow. The cached rules can be out of date for three reasons: a writer is
between its commit and its deletion, a change of tier deletes nothing, or a cycle caches
what it read before the last deletion. In runs without these overlaps every cycle takes
the rules that the tables held when it began (`orderlyRun_current`).
-/
namespace FundingRadar.NotificationService
open CacheAside (Aside)

variable (py : Numerals) (upper lower : String → String)

/-- The rule is active, its owner is active and pays, and the owner's chat is `chatId`. -/
def Entitled (t : AlertTables) (ruleId : ℤ) (chatId : String) : Prop :=
  ∃ rule u, t.rules.get? ruleId = some rule ∧ rule.isActive = true ∧ t.users.rows.get? rule.userId = some u ∧
    u.isActive = true ∧ (u.tier = .pro ∨ u.tier = .custom) ∧ t.telegramChatIds.get? rule.userId = some chatId

/-- Whatever has been sent was due when its cycle began, and every rule that was due then
    takes part in the cycle. -/
structure Current (s : NotificationService) : Prop where
  sound : ∀ m ∈ s.sent, ∃ cycle ∈ s.cycles.get? m.cycle, Entitled cycle.start m.rule.ruleId m.rule.chatId
  complete : ∀ c cycle rules, s.cycles.get? c = some cycle → cycle.taken = some rules →
    ∀ ruleId chatId, Entitled cycle.start ruleId chatId → ∃ rule ∈ rules, rule.ruleId = ruleId ∧ rule.chatId = chatId

/-- A new service over any tables; what is cached, if anything, is what they hold. -/
structure Initial (s : NotificationService) : Prop where
  cycles : s.cycles = .empty
  writers : s.writers = .empty
  sent : s.sent = []
  cached : ∀ rules ∈ s.rulesCache, rules = loadRulesFromDb s.tables

/-! ### Orderly runs -/

/-- The key that a writer has yet to delete; there is only one. -/
def Writer.owes : Writer → Option Unit
  | .invalidating => some ()
  | _ => none
/-- The rules that a cycle is about to cache. -/
def Cycle.fills : Cycle → Option (List LoadedRule)
  | .loaded _ _ rules => some rules
  | _ => none

variable (s : NotificationService)

/-- Some writer has committed and has yet to delete the cached rules. -/
def Pending : Prop := ∃ e ∈ s.writers.entries, e.2.owes = some ()
instance : Decidable s.Pending := inferInstanceAs (Decidable (∃ e ∈ s.writers.entries, e.2.owes = some ()))
/-- The cached rules are not those of the tables. -/
def Stale : Prop := ∃ rules ∈ s.rulesCache, rules ≠ loadRulesFromDb s.tables
instance : Decidable s.Stale := inferInstanceAs (Decidable (∃ rules ∈ s.rulesCache, rules ≠ loadRulesFromDb s.tables))
/-- Every cycle that has begun has taken its rules. -/
def NoneWaits : Prop := ∀ e ∈ s.cycles.entries, e.2.waits = false
instance : Decidable s.NoneWaits := inferInstanceAs (Decidable (∀ e ∈ s.cycles.entries, e.2.waits = false))

/-- A cycle that caches rules: they are current, or some writer still deletes them and no
    other cycle waits. -/
def OrderlyFill (cycle : Cycle) : Prop :=
  ∀ rules ∈ cycle.fills, rules ≠ loadRulesFromDb s.tables → s.NoneWaits ∧ s.Pending
instance (cycle : Cycle) : Decidable (s.OrderlyFill cycle) :=
  inferInstanceAs (Decidable (∀ rules ∈ cycle.fills, rules ≠ loadRulesFromDb s.tables → s.NoneWaits ∧ s.Pending))
/-- A writer that changes the rules that are due: no cycle waits, and nothing is cached or
    some writer still deletes it. -/
def OrderlyWrite (writer : Writer) : Prop :=
  loadRulesFromDb (writer.advance s.tables).1 ≠ loadRulesFromDb s.tables →
    s.NoneWaits ∧ (s.rulesCache = none ∨ (writer.advance s.tables).2.owes = some () ∨ s.Pending)
instance (writer : Writer) : Decidable (s.OrderlyWrite writer) :=
  inferInstanceAs (Decidable (loadRulesFromDb (writer.advance s.tables).1 ≠ loadRulesFromDb s.tables →
    s.NoneWaits ∧ (s.rulesCache = none ∨ (writer.advance s.tables).2.owes = some () ∨ s.Pending)))

/-- No overlap of a reader with a writer goes wrong. A cycle begins between a commit and its
    deletion only where the cached rules are current anyway. -/
def Orderly : Action → Prop
  | .begin _ => s.Pending → ¬ s.Stale
  | .check c => ∀ cycle ∈ s.cycles.get? c, s.OrderlyFill cycle
  | .write w => ∀ writer ∈ s.writers.get? w, s.OrderlyWrite writer
  | _ => True
instance : (a : Action) → Decidable (s.Orderly a)
  | .begin _ => inferInstanceAs (Decidable (s.Pending → ¬ s.Stale))
  | .check c => inferInstanceAs (Decidable (∀ cycle ∈ s.cycles.get? c, s.OrderlyFill cycle))
  | .write w => inferInstanceAs (Decidable (∀ writer ∈ s.writers.get? w, s.OrderlyWrite writer))
  | .alert _ _ _ => isTrue trivial
  | .launch _ _ => isTrue trivial
  | .publish _ => isTrue trivial
  | .expireRules => isTrue trivial
  | .expireThrottle _ => isTrue trivial
/-- Every action of a sequence is, at its own state. -/
def OrderlyRun : NotificationService → List Action → Prop
  | _,[] => True
  | s,a :: rest => s.Orderly a ∧ OrderlyRun (s.step py upper lower a) rest
instance decidableOrderlyRun : (s : NotificationService) → (actions : List Action) → Decidable (OrderlyRun py upper lower s actions)
  | _,[] => isTrue trivial
  | s,a :: rest =>
    have := decidableOrderlyRun (s.step py upper lower a) rest
    inferInstanceAs (Decidable (s.Orderly a ∧ OrderlyRun py upper lower (s.step py upper lower a) rest))

variable {py upper lower s}

/-! ### The rules that are due -/

theorem loadRule_eq_some_iff {t : AlertTables} {id : ℤ} {rule : NotificationRule} {loaded : LoadedRule} :
    loadRule t id rule = some loaded ↔ ∃ u chatId, t.users.rows.get? rule.userId = some u ∧
      t.telegramChatIds.get? rule.userId = some chatId ∧ (rule.isActive = true ∧ u.isActive = true ∧ u.tier ∈ [.pro,.custom]) ∧
      loaded = ⟨id,rule.userId,rule.tokenSymbol,rule.minApr,rule.exchanges,chatId⟩ := by
  unfold loadRule
  cases t.users.rows.get? rule.userId with
  | none => simp
  | some u =>
    cases t.telegramChatIds.get? rule.userId with
    | none => simp
    | some chatId =>
      dsimp only
      split
      · rename_i active
        constructor
        · rintro ⟨⟩
          exact ⟨u,chatId,rfl,rfl,active,rfl⟩
        · rintro ⟨u',chatId',foundUser,foundChat,-,rfl⟩
          cases foundUser
          cases foundChat
          rfl
      · rename_i inactive
        refine iff_of_false (Option.some_ne_none loaded).symm ?_
        rintro ⟨u',chatId',foundUser,-,active,-⟩
        cases foundUser
        exact inactive active

theorem mem_loadRulesFromDb_iff {t : AlertTables} {loaded : LoadedRule} :
    loaded ∈ loadRulesFromDb t ↔ ∃ id rule, t.rules.get? id = some rule ∧ loadRule t id rule = some loaded := by
  rw [loadRulesFromDb,List.mem_filterMap]
  constructor
  · rintro ⟨⟨id,rule⟩,member,loads⟩
    exact ⟨id,rule,(Dict.mem_entries_iff _ _ _).mp member,loads⟩
  · rintro ⟨id,rule,found,loads⟩
    exact ⟨(id,rule),(Dict.mem_entries_iff _ _ _).mpr found,loads⟩

/-- What is due is what the query returns. -/
theorem entitled_iff (t : AlertTables) (ruleId : ℤ) (chatId : String) :
    Entitled t ruleId chatId ↔ ∃ rule ∈ loadRulesFromDb t, rule.ruleId = ruleId ∧ rule.chatId = chatId := by
  constructor
  · rintro ⟨rule,u,found,active,owner,ownerActive,pays,chat⟩
    have paid : u.tier ∈ [UserTier.pro,.custom] := by simpa using pays
    refine ⟨⟨ruleId,rule.userId,rule.tokenSymbol,rule.minApr,rule.exchanges,chatId⟩,?_,rfl,rfl⟩
    exact mem_loadRulesFromDb_iff.mpr ⟨ruleId,rule,found,
      loadRule_eq_some_iff.mpr ⟨u,chatId,owner,chat,⟨active,ownerActive,paid⟩,rfl⟩⟩
  · rintro ⟨loaded,member,rfl,rfl⟩
    obtain ⟨id,rule,found,loads⟩ := mem_loadRulesFromDb_iff.mp member
    obtain ⟨u,chatId,owner,chat,⟨active,ownerActive,paid⟩,rfl⟩ := loadRule_eq_some_iff.mp loads
    exact ⟨rule,u,found,active,owner,ownerActive,by simpa using paid,chat⟩

instance (t : AlertTables) (ruleId : ℤ) (chatId : String) : Decidable (Entitled t ruleId chatId) :=
  decidable_of_iff _ (entitled_iff t ruleId chatId).symm

theorem matchRules_mem {rules : List LoadedRule} {opportunities : List ArbitrageResult} {m : LoadedRule × ArbitrageResult}
    (member : m ∈ matchRules lower rules opportunities) : m.1 ∈ rules := by
  obtain ⟨rule,inRules,matched⟩ := List.mem_filterMap.mp member
  cases found : TokenKeys.matchRule opportunities rule.token with
  | none =>
    rw [found] at matched
    cases matched
  | some opp =>
    rw [found] at matched
    dsimp only at matched
    split at matched
    · cases matched
    · split at matched
      · cases matched
      · cases matched
        exact inRules

/-! ### What orderly runs keep -/

/-- The cached rules, as a cache beside the tables. -/
def aside (s : NotificationService) : Aside Unit (List LoadedRule) ℕ where
  valid _ rules := rules = loadRulesFromDb s.tables
  cached _ := s.rulesCache
  owed w := (s.writers.get? w).bind Writer.owes

theorem aside_owed (w : ℕ) : s.aside.owed w = (s.writers.get? w).bind Writer.owes := rfl
theorem owed_iff_pending : s.aside.Owed () ↔ s.Pending := Dict.exists_bind_get?_iff s.writers Writer.owes ()

def Cycle.alerts : Cycle → List Alert
  | .alerting _ _ alerts => alerts
  | _ => []

/-- A cycle has taken the rules that were due when it began, and its alerts come from
    them. -/
structure Cycle.Faithful (cycle : Cycle) : Prop where
  taken : ∀ rules ∈ cycle.taken, rules = loadRulesFromDb cycle.start
  alerts : ∀ a ∈ cycle.alerts, ∃ rules ∈ cycle.taken, a.rule ∈ rules

/-- What every orderly action keeps. -/
structure Inv (s : NotificationService) : Prop where
  covered : s.aside.Covered
  fresh : s.NoneWaits ∨ ¬ s.Stale
  unchanged : ∀ c cycle, s.cycles.get? c = some cycle → cycle.waits = true →
    loadRulesFromDb cycle.start = loadRulesFromDb s.tables
  faithful : ∀ c cycle, s.cycles.get? c = some cycle → cycle.Faithful
  sent : ∀ m ∈ s.sent, ∃ cycle, s.cycles.get? m.cycle = some cycle ∧ ∃ rules ∈ cycle.taken, m.rule ∈ rules

theorem Inv.current (inv : s.Inv) : s.Current := by
  constructor
  · intro m member
    obtain ⟨cycle,found,rules,taken,inRules⟩ := inv.sent m member
    rw [(inv.faithful _ cycle found).taken rules taken] at inRules
    exact ⟨cycle,found,(entitled_iff _ _ _).mpr ⟨m.rule,inRules,rfl,rfl⟩⟩
  · intro c cycle rules found taken ruleId chatId entitled
    rw [(inv.faithful c cycle found).taken rules taken]
    exact (entitled_iff _ _ _).mp entitled

theorem Initial.inv (initial : s.Initial) : s.Inv where
  covered := fun _ rules held => .inl (initial.cached rules held)
  fresh := .inr (fun ⟨rules,held,other⟩ => other (initial.cached rules held))
  unchanged := by
    intro c cycle found
    rw [initial.cycles] at found
    cases found
  faithful := by
    intro c cycle found
    rw [initial.cycles] at found
    cases found
  sent := by
    intro m member
    rw [initial.sent] at member
    cases member

section
variable {s' : NotificationService} {c : ℕ} {cycle : Cycle}

/-- A cycle begins or moves on, and nothing that it reads changes. -/
theorem Inv.move (inv : s.Inv) (tables : s'.tables = s.tables) (cache : s'.rulesCache = s.rulesCache)
    (writers : s'.writers = s.writers) (cycles : s'.cycles = s.cycles.insert c cycle)
    (sent : ∀ m ∈ s'.sent, m ∈ s.sent ∨ m.cycle = c ∧ ∃ rules ∈ cycle.taken, m.rule ∈ rules)
    (waits : cycle.waits = true → loadRulesFromDb cycle.start = loadRulesFromDb s.tables ∧ ¬ s.Stale)
    (faithful : cycle.Faithful) (kept : ∀ old, s.cycles.get? c = some old → ∀ rules ∈ old.taken, cycle.taken = some rules) :
    s'.Inv where
  covered := by
    have same : s'.aside = s.aside := by rw [aside,aside,tables,cache,writers]
    rw [same]
    exact inv.covered
  fresh := by
    have stale : s'.Stale = s.Stale := by rw [Stale,Stale,tables,cache]
    rw [stale]
    by_cases waiting : cycle.waits = true
    · exact .inr (waits waiting).2
    · refine inv.fresh.imp_left ?_
      rintro none ⟨c',other⟩ member
      have found := (Dict.mem_entries_iff _ _ _).mp member
      rw [cycles,Dict.get?_insert] at found
      split at found
      · cases found
        exact Bool.eq_false_iff.mpr waiting
      · exact none (c',other) ((Dict.mem_entries_iff _ _ _).mpr found)
  unchanged := by
    intro c' other found
    rw [cycles,Dict.get?_insert] at found
    rw [tables]
    split at found
    · cases found
      exact fun waiting => (waits waiting).1
    · exact inv.unchanged c' other found
  faithful := by
    intro c' other found
    rw [cycles,Dict.get?_insert] at found
    split at found
    · cases found
      exact faithful
    · exact inv.faithful c' other found
  sent := by
    intro m member
    rw [cycles]
    rcases sent m member with old | ⟨rfl,rules,taken,inRules⟩
    · obtain ⟨old,found,rules,taken,inRules⟩ := inv.sent m old
      rw [Dict.get?_insert]
      split
      · rename_i same
        rw [same] at found
        exact ⟨cycle,rfl,rules,kept old found rules taken,inRules⟩
      · exact ⟨old,found,rules,taken,inRules⟩
    · exact ⟨cycle,Dict.get?_insert_self _ _ _,rules,taken,inRules⟩
end

/-- Only the cached rules change. -/
theorem Inv.filled (inv : s.Inv) {rules : List LoadedRule}
    (orderly : rules ≠ loadRulesFromDb s.tables → s.NoneWaits ∧ s.Pending) : Inv { s with rulesCache := some rules } where
  covered := by
    have filled : aside { s with rulesCache := some rules } = s.aside.fill () rules := by
      unfold aside Aside.fill
      congr 1
    rw [filled,Aside.covered_fill_iff inv.covered,owed_iff_pending]
    by_cases current : rules = loadRulesFromDb s.tables
    · exact .inl current
    · exact .inr (orderly current).2
  fresh := by
    by_cases current : rules = loadRulesFromDb s.tables
    · right
      rintro ⟨_,⟨⟩,other⟩
      exact other current
    · exact .inl (orderly current).1
  unchanged := inv.unchanged
  faithful := inv.faithful
  sent := inv.sent

/-- With nothing cached the writers owe nothing. -/
theorem Inv.emptied (inv : s.Inv) (writers : Dict ℕ Writer) : Inv { s with rulesCache := none, writers := writers } where
  covered := Aside.covered_of_empty (fun _ => rfl)
  fresh := by
    right
    rintro ⟨rules,⟨⟩,-⟩
  unchanged := inv.unchanged
  faithful := inv.faithful
  sent := inv.sent
theorem Inv.expired (inv : s.Inv) : Inv { s with rulesCache := none } := inv.emptied s.writers

/-! ### The writers -/

theorem launch_owes (request : Request) : (request.launch py upper lower).owes = none := by
  cases request with
  | start chatId args =>
    cases args with
    | nil => rfl
    | cons apiKey rest =>
      simp only [Request.launch]
      split
      · rfl
      · rfl
  | setalert chatId args =>
    simp only [Request.launch]
    split
    · rfl
    · rfl
  | removealert chatId args =>
    cases args with
    | nil => rfl
    | cons ruleId rest =>
      simp only [Request.launch]
      split
      · rfl
      · rfl
  | webhook event =>
    cases event with
    | checkoutCompleted session =>
      simp only [Request.launch]
      split
      · rfl
      · split
        · rfl
        · rfl
    | subscriptionDeleted customer =>
      cases customer with
      | none => rfl
      | some customer =>
        simp only [Request.launch]
        split
        · rfl
        · rfl
    | subscriptionUpdated => rfl
    | other type => rfl

theorem Inv.launched (inv : s.Inv) {w : ℕ} (free : s.writers.get? w = none) (request : Request) :
    Inv { s with writers := s.writers.insert w (request.launch py upper lower) } where
  covered := by
    have same : aside { s with writers := s.writers.insert w (request.launch py upper lower) } = s.aside := by
      have nothing : s.aside.owed w = none := by rw [aside_owed,free]; rfl
      unfold aside
      rw [Dict.bind_get?_insert,launch_owes,← nothing]
      exact congrArg _ (Function.update_eq_self w s.aside.owed)
    rw [same]
    exact inv.covered
  fresh := inv.fresh
  unchanged := inv.unchanged
  faithful := inv.faithful
  sent := inv.sent

/-- A writer that deletes the cached rules leaves nothing cached. -/
theorem Inv.invalidated (inv : s.Inv) (w : ℕ) : (s.write w .invalidating).Inv := inv.emptied (s.writers.insert w .finished)

/-- The cached rules beside the tables that any other statement of a writer leaves. -/
theorem aside_write {w : ℕ} {writer : Writer} (free : writer.owes = none) :
    (s.write w writer).aside = ⟨fun _ rules => rules = loadRulesFromDb (writer.advance s.tables).1,s.aside.cached,
      Function.update s.aside.owed w (writer.advance s.tables).2.owes⟩ := by
  have owed := Dict.bind_get?_insert s.writers Writer.owes w (writer.advance s.tables).2
  unfold aside write
  rw [← owed]
  cases writer with
  | invalidating => cases free
  | _ => rfl

theorem cache_write {w : ℕ} {writer : Writer} (free : writer.owes = none) : (s.write w writer).rulesCache = s.rulesCache := by
  unfold write
  cases writer with
  | invalidating => cases free
  | _ => rfl

theorem covered_write (inv : s.Inv) {w : ℕ} {writer : Writer} (found : s.writers.get? w = some writer)
    (free : writer.owes = none) (orderly : s.OrderlyWrite writer) : (s.write w writer).aside.Covered := by
  have owesNothing : s.aside.owed w = none := by
    rw [aside_owed,found]
    exact free
  rw [aside_write free]
  cases next : (writer.advance s.tables).2.owes with
  | some k =>
    -- the writer itself will delete whatever is cached
    have owed := inv.covered.owe owesNothing ()
    exact Aside.Covered.become owed (fun _ _ _ _ => .inr (s.aside.owed_owe w ()))
  | none =>
    rw [← owesNothing,Function.update_eq_self]
    refine Aside.Covered.become inv.covered ?_
    intro k rules held stood
    by_cases same : loadRulesFromDb (writer.advance s.tables).1 = loadRulesFromDb s.tables
    · exact .inl (stood.trans same.symm)
    · rcases (orderly same).2 with empty | owes | pending
      · rw [show s.aside.cached k = s.rulesCache from rfl,empty] at held
        cases held
      · rw [next] at owes
        cases owes
      · exact .inr (owed_iff_pending.mpr pending)

/-- Any other statement of a writer. -/
theorem Inv.written (inv : s.Inv) {w : ℕ} {writer : Writer} (found : s.writers.get? w = some writer)
    (free : writer.owes = none) (orderly : s.OrderlyWrite writer) : (s.write w writer).Inv where
  covered := covered_write inv found free orderly
  fresh := by
    by_cases same : loadRulesFromDb (writer.advance s.tables).1 = loadRulesFromDb s.tables
    · refine inv.fresh.imp_right ?_
      rintro fresh ⟨rules,held,other⟩
      rw [cache_write free] at held
      exact fresh ⟨rules,held,fun current => other (current.trans same.symm)⟩
    · exact .inl (orderly same).1
  unchanged := by
    intro c cycle foundCycle waiting
    by_cases same : loadRulesFromDb (writer.advance s.tables).1 = loadRulesFromDb s.tables
    · exact (inv.unchanged c cycle foundCycle waiting).trans same.symm
    · have waitsNot := (orderly same).1 (c,cycle) ((Dict.mem_entries_iff _ _ _).mpr foundCycle)
      rw [waiting] at waitsNot
      cases waitsNot
  faithful := inv.faithful
  sent := inv.sent

/-! ### The cycles -/

/-- What a cycle that waits knows of the tables and the cached rules. -/
theorem Inv.waiting (inv : s.Inv) {c : ℕ} {cycle : Cycle} (found : s.cycles.get? c = some cycle) (waits : cycle.waits = true) :
    loadRulesFromDb cycle.start = loadRulesFromDb s.tables ∧ ¬ s.Stale := by
  refine ⟨inv.unchanged c cycle found waits,inv.fresh.resolve_left ?_⟩
  intro none
  have waitsNot := none (c,cycle) ((Dict.mem_entries_iff _ _ _).mpr found)
  rw [waits] at waitsNot
  cases waitsNot

theorem faithful_of_taken_none {cycle : Cycle} (taken : cycle.taken = none) (alerts : cycle.alerts = []) : cycle.Faithful := by
  constructor
  · intro rules impossible
    rw [taken] at impossible
    cases impossible
  · intro a impossible
    rw [alerts] at impossible
    cases impossible

/-- A cycle that processes the rules that were due when it began. -/
theorem faithful_process {start : AlertTables} {rules : List LoadedRule} (due : rules = loadRulesFromDb start)
    (opportunities : List ArbitrageResult) : (process lower start rules opportunities).Faithful := by
  constructor
  · rintro _ ⟨⟩
    exact due
  · intro a member
    obtain ⟨m,matched,rfl⟩ := List.mem_map.mp member
    exact ⟨rules,rfl,matchRules_mem matched⟩

theorem Inv.begun (inv : s.Inv) {c : ℕ} (free : s.cycles.get? c = none) (orderly : s.Pending → ¬ s.Stale) :
    Inv { s with cycles := s.cycles.insert c (.begun s.tables) } := by
  have fresh : ¬ s.Stale := by
    rintro stale
    obtain ⟨rules,held,other⟩ := stale
    by_cases pending : s.Pending
    · exact orderly pending ⟨rules,held,other⟩
    · exact other (inv.covered.valid (k := ()) (fun owed => pending (owed_iff_pending.mp owed)) held)
  refine inv.move rfl rfl rfl rfl (fun m member => .inl member) (fun _ => ⟨rfl,fresh⟩) (faithful_of_taken_none rfl rfl) ?_
  intro old found
  rw [free] at found
  cases found

theorem Inv.checked (inv : s.Inv) {c : ℕ} {cycle : Cycle} (found : s.cycles.get? c = some cycle)
    (orderly : s.OrderlyFill cycle) : (s.checkAndNotify lower c cycle).Inv := by
  -- a cycle that has taken nothing yet keeps what has been sent
  have nothing : cycle.taken = none → ∀ next : Cycle, ∀ old, s.cycles.get? c = some old → ∀ rules ∈ old.taken,
      next.taken = some rules := by
    intro taken next old found' rules held
    rw [found] at found'
    cases found'
    rw [taken] at held
    cases held
  cases cycle with
  | begun start =>
    have waiting := inv.waiting found rfl
    rw [checkAndNotify]
    split
    · exact inv.move rfl rfl rfl rfl (fun m member => .inl member) (fun impossible => Bool.noConfusion impossible)
        (faithful_of_taken_none rfl rfl) (nothing rfl _)
    · exact inv.move rfl rfl rfl rfl (fun m member => .inl member) (fun _ => waiting)
        (faithful_of_taken_none rfl rfl) (nothing rfl _)
  | listed start opportunities =>
    obtain ⟨unchanged,fresh⟩ := inv.waiting found rfl
    rw [checkAndNotify]
    cases cached : s.rulesCache with
    | none =>
      exact inv.move rfl cached.symm rfl rfl (fun m member => .inl member) (fun _ => ⟨unchanged,fresh⟩)
        (faithful_of_taken_none rfl rfl) (nothing rfl _)
    | some rules =>
      have current : rules = loadRulesFromDb s.tables := by
        by_contra other
        exact fresh ⟨rules,cached,other⟩
      exact inv.move rfl cached.symm rfl rfl (fun m member => .inl member) (fun impossible => Bool.noConfusion impossible)
        (faithful_process (current.trans unchanged.symm) opportunities) (nothing rfl _)
  | missed start opportunities =>
    obtain ⟨unchanged,fresh⟩ := inv.waiting found rfl
    rw [checkAndNotify]
    split
    · rename_i empty
      refine inv.move rfl rfl rfl rfl (fun m member => .inl member) (fun impossible => Bool.noConfusion impossible) ?_
        (nothing rfl _)
      constructor
      · rintro _ ⟨⟩
        exact empty.symm.trans unchanged.symm
      · intro a impossible
        cases impossible
    · refine inv.move rfl rfl rfl rfl (fun m member => .inl member) (fun impossible => Bool.noConfusion impossible) ?_
        (nothing rfl _)
      constructor
      · rintro _ ⟨⟩
        exact unchanged.symm
      · intro a impossible
        cases impossible
  | loaded start opportunities rules =>
    have due := (inv.faithful c _ found).taken rules rfl
    refine (inv.filled (orderly rules rfl)).move rfl rfl rfl rfl (fun m member => .inl member)
      (fun impossible => Bool.noConfusion impossible) (faithful_process due opportunities) ?_
    rintro old found' taken held
    change s.cycles.get? c = some old at found'
    rw [found] at found'
    cases found'
    exact held
  | alerting start rules alerts => exact inv
  | skipped start => exact inv

/-- An alert moves on; what it sends comes from the rules of its cycle. -/
theorem Inv.alerted (inv : s.Inv) {c i : ℕ} {start : AlertTables} {rules : List LoadedRule} {alerts : List Alert} {a : Alert}
    (found : s.cycles.get? c = some (.alerting start rules alerts)) (at_i : alerts[i]? = some a) (delivered : Bool) :
    (s.maybeAlert c i delivered start rules alerts a).Inv := by
  have faithful := inv.faithful c _ found
  obtain ⟨_,⟨⟩,inRules⟩ := faithful.alerts a (List.mem_of_getElem? at_i)
  have still : ∀ delivery, (Cycle.alerting start rules (alerts.set i { a with delivery := delivery })).Faithful := by
    intro delivery
    refine ⟨faithful.taken,?_⟩
    intro b member
    rcases List.mem_or_eq_of_mem_set member with old | rfl
    · exact faithful.alerts b old
    · exact ⟨rules,rfl,inRules⟩
  have kept : ∀ delivery, ∀ old, s.cycles.get? c = some old → ∀ taken ∈ old.taken,
      (Cycle.alerting start rules (alerts.set i { a with delivery := delivery })).taken = some taken := by
    intro delivery old found' taken held
    rw [found] at found'
    cases found'
    exact held
  unfold maybeAlert
  cases a.delivery with
  | waiting =>
    dsimp only
    split
    · exact inv.move rfl rfl rfl rfl (fun m member => .inl member) (fun impossible => Bool.noConfusion impossible)
        (still _) (kept _)
    · exact inv.move rfl rfl rfl rfl (fun m member => .inl member) (fun impossible => Bool.noConfusion impossible)
        (still _) (kept _)
  | acquired =>
    refine inv.move rfl rfl rfl rfl ?_ (fun impossible => Bool.noConfusion impossible) (still _) (kept _)
    intro m member
    rcases List.mem_append.mp member with old | new
    · exact .inl old
    · rw [List.mem_singleton.mp new]
      exact .inr ⟨rfl,rules,rfl,inRules⟩
  | failed =>
    exact inv.move rfl rfl rfl rfl (fun m member => .inl member) (fun impossible => Bool.noConfusion impossible)
      (still _) (kept _)
  | ended => exact inv

/-! ### Runs -/

theorem Inv.step (inv : s.Inv) {a : Action} (orderly : s.Orderly a) : (s.step py upper lower a).Inv := by
  cases a with
  | begin c =>
    rw [NotificationService.step]
    cases found : s.cycles.get? c with
    | none => exact inv.begun found orderly
    | some cycle => exact inv
  | check c =>
    rw [NotificationService.step]
    cases found : s.cycles.get? c with
    | none => exact inv
    | some cycle => exact inv.checked found (orderly cycle found)
  | alert c i delivered =>
    rw [NotificationService.step]
    split
    · rename_i start rules alerts found
      split
      · exact inv
      · rename_i a at_i
        exact inv.alerted found at_i delivered
    · exact inv
  | launch w request =>
    rw [NotificationService.step]
    cases found : s.writers.get? w with
    | none => exact inv.launched found request
    | some writer => exact inv
  | write w =>
    rw [NotificationService.step]
    cases found : s.writers.get? w with
    | none => exact inv
    | some writer =>
      cases owes : writer.owes with
      | none => exact inv.written found owes (orderly writer found)
      | some k =>
        cases writer with
        | invalidating => exact inv.invalidated w
        | _ => cases owes
  | publish opportunities => exact ⟨inv.covered,inv.fresh,inv.unchanged,inv.faithful,inv.sent⟩
  | expireRules => exact inv.expired
  | expireThrottle key => exact ⟨inv.covered,inv.fresh,inv.unchanged,inv.faithful,inv.sent⟩

theorem Inv.run {actions : List Action} (inv : s.Inv) (orderly : OrderlyRun py upper lower s actions) :
    (s.run py upper lower actions).Inv := by
  induction actions generalizing s with
  | nil => exact inv
  | cons a rest ih => exact ih (inv.step orderly.1) orderly.2

/-- In every orderly run every alert is due when its cycle begins, and every rule that is
    due then takes part. -/
theorem orderlyRun_current (py : Numerals) (upper lower : String → String) (s : NotificationService) (actions : List Action)
    (initial : s.Initial) (orderly : OrderlyRun py upper lower s actions) : (s.run py upper lower actions).Current :=
  (initial.inv.run orderly).current

/-! ### A cancelled subscription -/

/-- One paying user with a linked chat. -/
def payingTables (rules : Dict ℤ NotificationRule) : AlertTables where
  users := (UsersTable.empty.set 1 ⟨"key-1",.pro,true,some "cus_1"⟩).getD .empty
  telegramChatIds := Dict.empty.insert 1 "42"
  rules := rules
  nextRuleId := 2
def serviceOver (tables : AlertTables) (opportunities : List ArbitrageResult) : NotificationService :=
  ⟨tables,none,[],opportunities,.empty,.empty,[]⟩

/-- An opportunity of 20 percent. -/
def twentyPercent (token : String) : ArbitrageResult := { TokenKeys.oneOpportunity token with netAprTaker := 20 }
/-- The only numeral of the runs. -/
def ten : Numerals := ⟨fun s => if s = "10" then some 10 else none,fun s => if s = "10" then some 10 else none⟩
/-- The awaits of a cycle that reads its rules from the tables. -/
def loadingCycle (c : ℕ) : List Action := [.begin c,.check c,.check c,.check c,.check c]

/-- `/setalert BTC 10`, and a cycle that sends the alert. -/
def alertRun : List Action :=
  [.launch 0 (.setalert "42" ["BTC","10"]),.write 0,.write 0,.write 0,.write 0] ++ loadingCycle 0 ++
    [.alert 0 0 true,.alert 0 0 true]

theorem alertRun_current :
    ((serviceOver (payingTables .empty) [twentyPercent "BTC"]).run ten id id alertRun).sent.map (·.rule.chatId) =
      ["42"] ∧
    ((serviceOver (payingTables .empty) [twentyPercent "BTC"]).run ten id id alertRun).Current :=
  ⟨by decide +kernel,orderlyRun_current ten id id _ alertRun ⟨rfl,rfl,rfl,fun _ impossible => by cases impossible⟩ (by decide +kernel)⟩

/-- A cycle caches the rules, the subscription is cancelled, and the next cycle finds an
    opportunity. -/
def cancelledRun : List Action :=
  loadingCycle 0 ++ [.launch 0 (.webhook (.subscriptionDeleted (some "cus_1"))),.write 0,.write 0] ++
    [.publish [twentyPercent "BTC"],.begin 1,.check 1,.check 1,.alert 1 0 true,.alert 1 0 true]
def btcRule : Dict ℤ NotificationRule := Dict.empty.insert 1 ⟨1,"BTC",10,[],true⟩

/-- The alert of a user whose subscription was cancelled before the cycle began. -/
theorem cancelledRun_not_current :
    (serviceOver (payingTables btcRule) [twentyPercent "ETH"]).Initial ∧
    ¬ ((serviceOver (payingTables btcRule) [twentyPercent "ETH"]).run ten id id cancelledRun).Current := by
  refine ⟨⟨rfl,rfl,rfl,fun _ impossible => by cases impossible⟩,?_⟩
  rintro ⟨sound,-⟩
  exact absurd sound (by decide +kernel)

end FundingRadar.NotificationService
