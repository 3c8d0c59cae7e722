import FundingRadar.Payment

/-!
The tiers that Redis caches under `auth:tier:{api_key}`, and the reverse lookup
`auth:user_api_key:{user_id}` through which a change of tier finds the entry to drop.
Every call says how many of its Redis commands succeed before Redis becomes
unreachable; the keys expire independently of each other.
-/
namespace FundingRadar

/-- The users with the two families of Redis keys. -/
structure TierCache where
  users : UsersTable
  tierOf : Dict String UserTier
  apiKeyOf : Dict ℤ String

namespace TierCache

inductive Command
  | setTier (key : String) (tier : UserTier)
  | deleteTier (key : String)
  | setApiKey (id : ℤ) (key : String)
  | deleteApiKey (id : ℤ)

def execute (s : TierCache) : Command → TierCache
  | .setTier key tier => { s with tierOf := s.tierOf.insert key tier }
  | .deleteTier key => { s with tierOf := s.tierOf.erase key }
  | .setApiKey id key => { s with apiKeyOf := s.apiKeyOf.insert id key }
  | .deleteApiKey id => { s with apiKeyOf := s.apiKeyOf.erase id }
/-- The first `n` of a sequence of commands. -/
def commands (n : ℕ) (cs : List Command) (s : TierCache) : TierCache := (cs.take n).foldl execute s

/-- As many commands as no call exceeds. -/
def reachable : ℕ := 4

inductive Caller
  | anonymous
  | tier (tier : UserTier)
deriving DecidableEq

inductive AuthError
  | unauthorized
  | redis
deriving DecidableEq

/-- `get_current_user_tier`. -/
def getCurrentUserTier (redis : ℕ) (s : TierCache) (xApiKey : Option String) : TierCache × Except AuthError Caller :=
  match xApiKey with
  | none => (s,.ok .anonymous)
  | some key =>
    if redis = 0 then (s,.error .redis)
    else
      match s.tierOf.get? key with
      | some cached => (s,.ok (.tier cached))
      | none =>
        match s.users.findByKey key with
        | none => (s,.error .unauthorized)
        | some (_,u) =>
          if redis = 1 then (s,.error .redis) else (s.execute (.setTier key u.tier),.ok (.tier u.tier))

/-- `_resolve_user_from_api_key`. -/
def resolveUserFromApiKey (redis : ℕ) (s : TierCache) (key : String) : TierCache × Except AuthError (Option (ℤ × User)) :=
  if redis = 0 then (s,.error .redis)
  else
    match s.users.findByKey key with
    | none => (s,.ok none)
    | some (id,u) =>
      if (s.tierOf.get? key).isSome then (s,.ok (some (id,u)))
      else
        (commands (redis - 1) [.setTier key u.tier,.setApiKey id key] s,
          if redis < 3 then .error .redis else .ok (some (id,u)))

/-- `regenerate_api_key` for the authenticated user `id`, and whether it returns. -/
def regenerateApiKey (redis : ℕ) (db : DbOutcome) (s : TierCache) (id : ℤ) (newKey : String) : TierCache × Bool :=
  match s.users.rows.get? id with
  | none => (s,false)
  | some u =>
    if u.isActive = false then (s,false)
    else
      let w := Payment.updateAndCommit db s.users id (fun u => { u with apiKey := newKey })
      if w.returned then
        (commands redis [.deleteTier u.apiKey,.setApiKey id newKey,.setTier newKey u.tier] { s with users := w.users },
          decide (3 ≤ redis))
      else ({ s with users := w.users },false)

/-- `_bust_user_tier_cache`, which swallows what Redis raises. -/
def bustUserTierCache (redis : ℕ) (s : TierCache) (id : ℤ) : TierCache :=
  if redis = 0 then s
  else
    match s.apiKeyOf.get? id with
    | none => s
    | some key => if key = "" then s else commands (redis - 1) [.deleteTier key] s

/-- `_upgrade_user`, and whether it returns. -/
def upgradeUser (redis : ℕ) (db : DbOutcome) (s : TierCache) (id : ℤ) (customer : Option String) : TierCache × Bool :=
  let w := Payment.upgradeUser db s.users id customer
  if w.returned then (bustUserTierCache redis { s with users := w.users } id,true) else ({ s with users := w.users },false)

/-- `_downgrade_user_by_customer`, and whether it returns. -/
def downgradeUserByCustomer (redis : ℕ) (db : DbOutcome) (s : TierCache) (customer : String) : TierCache × Bool :=
  match Payment.downgradeUserByCustomer db s.users customer with
  | (w,none) => ({ s with users := w.users },w.returned)
  | (w,some id) =>
    if w.returned then (bustUserTierCache redis { s with users := w.users } id,true)
    else ({ s with users := w.users },false)

/-! ### Runs -/

inductive TierChange
  | upgrade (id : ℤ) (customer : Option String)
  | downgrade (customer : String)

def TierChange.tier : TierChange → UserTier
  | .upgrade _ _ => .pro
  | .downgrade _ => .free

def change (redis : ℕ) (db : DbOutcome) (s : TierCache) : TierChange → TierCache × Bool
  | .upgrade id customer => s.upgradeUser redis db id customer
  | .downgrade customer => s.downgradeUserByCustomer redis db customer

/-- The change is one of an existing user. -/
def TierChange.About (s : TierCache) (id : ℤ) : TierChange → Prop
  | .upgrade i _ => i = id ∧ ∃ u, s.users.rows.get? id = some u
  | .downgrade c => ∃ u, s.users.rows.get? id = some u ∧ u.stripeCustomerId = some c

inductive Call
  | lookup (redis : ℕ) (xApiKey : Option String)
  | resolve (redis : ℕ) (key : String)
  | regenerate (redis : ℕ) (db : DbOutcome) (id : ℤ) (newKey : String)
  | change (redis : ℕ) (db : DbOutcome) (c : TierChange)
  | expireTier (key : String)
  | expireApiKey (id : ℤ)

/-- What a call leaves behind. -/
def call (s : TierCache) : Call → TierCache
  | .lookup redis xApiKey => (s.getCurrentUserTier redis xApiKey).1
  | .resolve redis key => (s.resolveUserFromApiKey redis key).1
  | .regenerate redis db id newKey => (s.regenerateApiKey redis db id newKey).1
  | .change redis db c => (s.change redis db c).1
  | .expireTier key => s.execute (.deleteTier key)
  | .expireApiKey id => s.execute (.deleteApiKey id)

/-- A run over some users starts with no key in Redis. -/
def run (users : UsersTable) (calls : List Call) : TierCache := calls.foldl call ⟨users,.empty,.empty⟩

/-- The user's own key is answered with the tier of the database. -/
def Reflects (s : TierCache) (id : ℤ) : Prop :=
  ∃ u, s.users.rows.get? id = some u ∧ (s.getCurrentUserTier reachable (some u.apiKey)).2 = .ok (.tier u.tier)

/-- A call that changes no tier of the user, and that ends the change of key that it begins. -/
def Call.Spares (s : TierCache) (id : ℤ) : Call → Prop
  | .change _ _ c => ¬ c.About s id
  | .regenerate redis db i _ => i = id → 3 ≤ redis ∧ db.commit ≠ .unreported ∧ db.closes = true
  | _ => True
/-- Every call of a sequence does, at its own state. -/
def Spared (id : ℤ) : TierCache → List Call → Prop
  | _,[] => True
  | s,c :: rest => c.Spares s id ∧ Spared id (s.call c) rest

/-- After a change every later lookup with the user's key, up to the next change,
    answers as the database does. -/
def ReflectsAfter (db : DbOutcome) (s : TierCache) (c : TierChange) (id : ℤ) : Prop :=
  ∀ between, Spared id (s.change reachable db c).1 between → (between.foldl call (s.change reachable db c).1).Reflects id

/-- The reverse lookup leads to the user's key, or no other tier is cached under it. -/
def Busts (s : TierCache) (id : ℤ) (tier : UserTier) : Prop :=
  ∃ u, s.users.rows.get? id = some u ∧ u.isActive = true ∧
    (s.apiKeyOf.get? id = some u.apiKey ∧ u.apiKey ≠ "" ∨ ∀ cached, s.tierOf.get? u.apiKey = some cached → cached = tier)

variable {s s' : TierCache} {id : ℤ} {u : User} {redis : ℕ} {db : DbOutcome}

/-! ### The effect of a call -/

theorem commands_keeps {P : TierCache → Prop} {cs : List Command} (n : ℕ)
    (kept : ∀ s, ∀ c ∈ cs, P s → P (s.execute c)) (start : P s) : P (commands n cs s) := by
  induction cs generalizing n s with
  | nil => simpa [commands] using start
  | cons c rest ih =>
    cases n with
    | zero => exact start
    | succ n =>
      have first := kept s c (List.mem_cons_self ..) start
      exact ih n (fun s d member => kept s d (List.mem_cons_of_mem _ member)) first

theorem execute_users (c : Command) : (s.execute c).users = s.users := by
  cases c <;> rfl
theorem commands_users (n : ℕ) (cs : List Command) : (commands n cs s).users = s.users := by
  have kept : ∀ (t : TierCache), ∀ c ∈ cs, t.users = s.users → (t.execute c).users = s.users :=
    fun t c _ same => (execute_users c).trans same
  exact commands_keeps n kept rfl

/-- Every tier that the commands cache is the tier of an active user with that key. -/
def Sound (t : UsersTable) (cs : List Command) : Prop :=
  ∀ key tier, .setTier key tier ∈ cs → ∃ i u, t.rows.get? i = some u ∧ u.apiKey = key ∧ u.isActive = true ∧ u.tier = tier

/-- All that a call can do: leave other users, without touching the rows that it does not
    write, and then execute commands that are sound for them. -/
inductive Effect (s : TierCache) (writes : ℤ → Prop) : TierCache → Prop
  | of {t : UsersTable} (n : ℕ) {cs : List Command} (sound : Sound t cs)
      (others : ∀ j, ¬ writes j → t.rows.get? j = s.users.rows.get? j)
      (rows : ∀ j u, t.rows.get? j = some u → u.isActive = true ∨
        ∃ before, s.users.rows.get? j = some before ∧ before.apiKey = u.apiKey ∧ before.isActive = u.isActive) :
      Effect s writes (commands n cs { s with users := t })

section
variable {writes : ℤ → Prop}

theorem Effect.ofCommands (n : ℕ) {cs : List Command} (sound : Sound s.users cs) : Effect s writes (commands n cs s) :=
  .of n sound (fun _ _ => rfl) fun _ u row => .inr ⟨u,row,rfl,rfl⟩
theorem sound_nil (t : UsersTable) : Sound t [] := fun _ _ impossible => by cases impossible
theorem Effect.nothing : Effect s writes s := .ofCommands 0 (sound_nil s.users)
/-- The tier of the user who is found under a key may be cached under it. -/
theorem sound_of_found {t : UsersTable} {key : String} {id : ℤ} {u : User} (found : t.findByKey key = some (id,u))
    {cs : List Command} (only : ∀ k tier, .setTier k tier ∈ cs → k = key ∧ tier = u.tier) : Sound t cs := by
  intro k tier member
  obtain ⟨rfl,rfl⟩ := only k tier member
  obtain ⟨row,own,isActive⟩ := (UsersTable.findByKey_eq_some_iff k id u).mp found
  exact ⟨id,u,row,own,isActive,rfl⟩

theorem lookup_effect (xApiKey : Option String) : Effect s writes (s.getCurrentUserTier redis xApiKey).1 := by
  cases xApiKey with
  | none => exact .nothing
  | some key =>
    rw [getCurrentUserTier]
    split
    · exact .nothing
    · split
      · exact .nothing
      · split
        · exact .nothing
        · next i u found =>
          split
          · exact .nothing
          · have sound : Sound s.users [.setTier key u.tier] := sound_of_found found (by simp)
            exact .ofCommands 1 sound

theorem resolve_effect (key : String) : Effect s writes (s.resolveUserFromApiKey redis key).1 := by
  rw [resolveUserFromApiKey]
  split
  · exact .nothing
  · split
    · exact .nothing
    · next i u found =>
      split
      · exact .nothing
      · exact .ofCommands _ (sound_of_found found (by simp))

theorem regenerate_effect (id : ℤ) (newKey : String) : Effect s (fun j => id = j) (s.regenerateApiKey redis db id newKey).1 := by
  rw [regenerateApiKey]
  split
  · exact .nothing
  · next u row =>
    split
    · exact .nothing
    · next isActive =>
      rw [Bool.not_eq_false] at isActive
      have written := Payment.updateAndCommit_row db s.users id (fun u => { u with apiKey := newKey })
      have others : ∀ j, ¬ id = j →
          (Payment.updateAndCommit db s.users id (fun u => { u with apiKey := newKey })).users.rows.get? j =
            s.users.rows.get? j :=
        fun j other => (written j).resolve_right fun changed => other changed.1.symm
      have rows : ∀ j after,
          (Payment.updateAndCommit db s.users id (fun u => { u with apiKey := newKey })).users.rows.get? j = some after →
          after.isActive = true ∨ ∃ before, s.users.rows.get? j = some before ∧ before.apiKey = after.apiKey ∧
            before.isActive = after.isActive := by
        intro j after rowAfter
        rcases written j with same | ⟨rfl,changed⟩
        · rw [same] at rowAfter
          exact .inr ⟨after,rowAfter,rfl,rfl⟩
        · rw [changed,row] at rowAfter
          cases rowAfter
          exact .inl isActive
      simp only []
      split
      · next returned =>
        refine .of redis ?_ others rows
        intro k tier member
        obtain ⟨rfl,rfl⟩ : k = newKey ∧ tier = u.tier := by simpa using member
        have rowAfter := UsersTable.get?_update (Payment.updateAndCommit_returned returned) id
        rw [if_pos rfl,row,Option.map_some] at rowAfter
        exact ⟨id,_,rowAfter,rfl,isActive,rfl⟩
      · exact .of 0 (sound_nil _) others rows

theorem Effect.bust {t : UsersTable} (others : ∀ j, ¬ writes j → t.rows.get? j = s.users.rows.get? j)
    (rows : ∀ j u, t.rows.get? j = some u → u.isActive = true ∨
      ∃ before, s.users.rows.get? j = some before ∧ before.apiKey = u.apiKey ∧ before.isActive = u.isActive) (id : ℤ) :
    Effect s writes (bustUserTierCache redis { s with users := t } id) := by
  rw [bustUserTierCache]
  split
  · exact .of 0 (sound_nil t) others rows
  · split
    · exact .of 0 (sound_nil t) others rows
    · split
      · exact .of 0 (sound_nil t) others rows
      · refine .of (redis - 1) ?_ others rows
        intro key tier impossible
        simp at impossible

variable (db writes) in
/-- A write that keeps keys and activity, of a row that may be written. -/
theorem written_keeps {id : ℤ} (change : User → User)
    (keeps : ∀ u, (change u).apiKey = u.apiKey ∧ (change u).isActive = u.isActive)
    (target : ∀ u, s.users.rows.get? id = some u → writes id) :
    (∀ j, ¬ writes j → (Payment.updateAndCommit db s.users id change).users.rows.get? j = s.users.rows.get? j) ∧
    ∀ j u, (Payment.updateAndCommit db s.users id change).users.rows.get? j = some u → u.isActive = true ∨
      ∃ before, s.users.rows.get? j = some before ∧ before.apiKey = u.apiKey ∧ before.isActive = u.isActive := by
  have written := Payment.updateAndCommit_row db s.users id change
  constructor
  · intro j other
    rcases written j with same | ⟨rfl,changed⟩
    · exact same
    · cases row : s.users.rows.get? j with
      | none => rw [changed,row,Option.map_none]
      | some u => exact absurd (target u row) other
  · intro j after rowAfter
    rcases written j with same | ⟨rfl,changed⟩
    · rw [same] at rowAfter
      exact .inr ⟨after,rowAfter,rfl,rfl⟩
    · rw [changed] at rowAfter
      obtain ⟨u,row,rfl⟩ := Option.map_eq_some_iff.mp rowAfter
      exact .inr ⟨u,row,(keeps u).1.symm,(keeps u).2.symm⟩

theorem change_effect (c : TierChange) : Effect s (fun j => c.About s j) (s.change redis db c).1 := by
  cases c with
  | upgrade id customer =>
    have target : ∀ u, s.users.rows.get? id = some u → TierChange.About s id (.upgrade id customer) := fun u row => ⟨rfl,u,row⟩
    obtain ⟨others,rows⟩ := written_keeps db (fun j => TierChange.About s j (.upgrade id customer))
      (Payment.upgraded customer) (Payment.upgraded_keeps customer) target
    simp only [TierCache.change,upgradeUser]
    split
    · exact .bust others rows id
    · exact .of 0 (sound_nil _) others rows
  | downgrade customer =>
    simp only [TierCache.change,downgradeUserByCustomer]
    rcases Payment.downgradeUserByCustomer_cases db s.users customer with ⟨_,-,nothing⟩ | ⟨id,u,found,updates⟩
    · rw [nothing]
      exact .nothing
    · obtain ⟨row,has⟩ := (UsersTable.findByCustomer_eq_some_iff customer id u).mp found
      have target : ∀ u', s.users.rows.get? id = some u' → TierChange.About s id (.downgrade customer) := fun _ _ => ⟨u,row,has⟩
      obtain ⟨others,rows⟩ := written_keeps db (fun j => TierChange.About s j (.downgrade customer))
        Payment.downgraded (fun _ => ⟨rfl,rfl⟩) target
      rw [updates]
      simp only []
      split
      · exact .bust others rows id
      · exact .of 0 (sound_nil _) others rows

/-- The rows that a call may write. -/
def Call.Writes (s : TierCache) (j : ℤ) : Call → Prop
  | .regenerate _ _ i _ => i = j
  | .change _ _ c => c.About s j
  | _ => False

theorem call_effect (c : Call) : Effect s (fun j => c.Writes s j) (s.call c) := by
  cases c with
  | lookup redis xApiKey => exact lookup_effect xApiKey
  | resolve redis key => exact resolve_effect key
  | regenerate redis db id newKey => exact regenerate_effect id newKey
  | change redis db c => exact change_effect c
  | expireTier key =>
    have sound : Sound s.users [.deleteTier key] := fun _ _ impossible => by simp at impossible
    exact .ofCommands 1 sound
  | expireApiKey id =>
    have sound : Sound s.users [.deleteApiKey id] := fun _ _ impossible => by simp at impossible
    exact .ofCommands 1 sound
end

/-! ### Inactive users -/

/-- No tier is cached under the key of an inactive user. -/
def CachesActive (s : TierCache) : Prop :=
  ∀ key tier, s.tierOf.get? key = some tier → ∀ id u, s.users.rows.get? id = some u → u.apiKey = key → u.isActive = true

theorem CachesActive.execute (active : s.CachesActive) (c : Command)
    (held : ∀ key tier, c = .setTier key tier → ∀ id u, s.users.rows.get? id = some u → u.apiKey = key → u.isActive = true) :
    (s.execute c).CachesActive := by
  intro key tier cached id u row own
  rw [execute_users] at row
  cases c with
  | setTier k t =>
    rw [TierCache.execute,Dict.get?_insert] at cached
    by_cases same : key = k
    · exact held k t rfl id u row (own.trans same)
    · rw [if_neg same] at cached
      exact active key tier cached id u row own
  | deleteTier k =>
    rw [TierCache.execute,Dict.get?_erase] at cached
    by_cases same : key = k
    · rw [if_pos same] at cached
      cases cached
    · rw [if_neg same] at cached
      exact active key tier cached id u row own
  | setApiKey i k => exact active key tier cached id u row own
  | deleteApiKey i => exact active key tier cached id u row own

/-- Keys move to active users only, and only tiers of active users are cached. -/
theorem CachesActive.effect (active : s.CachesActive) {writes : ℤ → Prop} (effect : Effect s writes s') : s'.CachesActive := by
  obtain @⟨t,n,cs,sound,-,rows⟩ := effect
  have start : CachesActive { s with users := t } := by
    intro key tier cached id u row own
    rcases rows id u row with isActive | ⟨before,rowBefore,sameKey,sameActive⟩
    · exact isActive
    · rw [← sameActive]
      exact active key tier cached id before rowBefore (sameKey.trans own)
  have kept : ∀ (r : TierCache), ∀ c ∈ cs, r.users = t ∧ r.CachesActive → (r.execute c).users = t ∧ (r.execute c).CachesActive := by
    rintro r c member ⟨same,active⟩
    refine ⟨(execute_users c).trans same,active.execute c ?_⟩
    rintro key tier rfl id u row own
    rw [same] at row
    obtain ⟨i,holder,rowHolder,ownHolder,isActive,-⟩ := sound key tier member
    obtain rfl := t.unique id i u holder row rowHolder (.inl (own.trans ownHolder.symm))
    rw [rowHolder] at row
    cases row
    exact isActive
  exact (commands_keeps n kept ⟨rfl,start⟩).2

theorem CachesActive.calls (active : s.CachesActive) (calls : List Call) : (calls.foldl TierCache.call s).CachesActive := by
  induction calls generalizing s with
  | nil => exact active
  | cons c rest ih => exact ih (active.effect (call_effect c))

theorem run_cachesActive (users : UsersTable) (calls : List Call) : (run users calls).CachesActive := by
  have start : CachesActive ⟨users,.empty,.empty⟩ := by
    intro key tier cached
    cases cached
  exact start.calls calls

/-! ### Lookups that agree with the database -/

/-- The user is active, and what is cached under its key is its tier. -/
structure Agrees (s : TierCache) (id : ℤ) (u : User) : Prop where
  row : s.users.rows.get? id = some u
  isActive : u.isActive = true
  cached : ∀ tier, s.tierOf.get? u.apiKey = some tier → tier = u.tier

theorem reflects_iff (active : s.CachesActive) (id : ℤ) : s.Reflects id ↔ ∃ u, s.Agrees id u := by
  constructor
  · rintro ⟨u,row,answer⟩
    cases cached : s.tierOf.get? u.apiKey with
    | some tier =>
      have isActive := active u.apiKey tier cached id u row rfl
      refine ⟨u,row,isActive,fun other also => ?_⟩
      rw [cached] at also
      cases also
      simpa [getCurrentUserTier,reachable,cached] using answer
    | none =>
      cases found : s.users.findByKey u.apiKey with
      | none => simp [getCurrentUserTier,reachable,cached,found] at answer
      | some e =>
        obtain ⟨i,other⟩ := e
        obtain ⟨rowFound,ownFound,isActive⟩ := (UsersTable.findByKey_eq_some_iff u.apiKey i other).mp found
        obtain rfl := s.users.unique i id other u rowFound row (.inl ownFound)
        rw [row] at rowFound
        cases rowFound
        refine ⟨u,row,isActive,fun tier impossible => ?_⟩
        rw [cached] at impossible
        cases impossible
  · rintro ⟨u,agrees⟩
    refine ⟨u,agrees.row,?_⟩
    cases cached : s.tierOf.get? u.apiKey with
    | some tier => simp [getCurrentUserTier,reachable,cached,agrees.cached tier cached]
    | none =>
      have found := (UsersTable.findByKey_eq_some_iff u.apiKey id u).mpr ⟨agrees.row,rfl,agrees.isActive⟩
      simp [getCurrentUserTier,reachable,cached,found]

theorem Agrees.execute (agrees : s.Agrees id u) (c : Command) (own : ∀ tier, c = .setTier u.apiKey tier → tier = u.tier) :
    (s.execute c).Agrees id u := by
  refine ⟨(execute_users c).symm ▸ agrees.row,agrees.isActive,fun tier cached => ?_⟩
  cases c with
  | setTier key t =>
    rw [TierCache.execute,Dict.get?_insert] at cached
    by_cases same : u.apiKey = key
    · rw [if_pos same] at cached
      cases cached
      exact own tier (by rw [same])
    · rw [if_neg same] at cached
      exact agrees.cached tier cached
  | deleteTier key =>
    rw [TierCache.execute,Dict.get?_erase] at cached
    by_cases same : u.apiKey = key
    · rw [if_pos same] at cached
      cases cached
    · rw [if_neg same] at cached
      exact agrees.cached tier cached
  | setApiKey i key => exact agrees.cached tier cached
  | deleteApiKey i => exact agrees.cached tier cached

/-- A call that does not write the user's row caches nothing else under its key. -/
theorem Agrees.effect (agrees : s.Agrees id u) {writes : ℤ → Prop} (effect : Effect s writes s') (other : ¬ writes id) :
    s'.Agrees id u := by
  obtain @⟨t,n,cs,sound,others,-⟩ := effect
  have row : t.rows.get? id = some u := (others id other).trans agrees.row
  have kept : ∀ (r : TierCache), ∀ c ∈ cs, r.Agrees id u → (r.execute c).Agrees id u := by
    intro r c member agrees
    refine agrees.execute c ?_
    rintro tier rfl
    obtain ⟨i,holder,rowHolder,ownHolder,-,rfl⟩ := sound u.apiKey tier member
    obtain rfl := t.unique i id holder u rowHolder row (.inl ownHolder)
    rw [row] at rowHolder
    cases rowHolder
    rfl
  have start : Agrees { s with users := t } id u := ⟨row,agrees.isActive,agrees.cached⟩
  exact commands_keeps n kept start

/-- A change of the user's own key that runs to its end caches the tier anew. -/
theorem Agrees.regenerate_self (agrees : s.Agrees id u) (newKey : String) (ends : 3 ≤ redis)
    (reported : db.commit ≠ .unreported) (closes : db.closes = true) :
    ∃ v, (s.regenerateApiKey redis db id newKey).1.Agrees id v := by
  simp only [regenerateApiKey,agrees.row,agrees.isActive,Bool.true_eq_false,if_false]
  split
  · next returned =>
    have rowAfter := UsersTable.get?_update (Payment.updateAndCommit_returned returned) id
    rw [if_pos rfl,agrees.row,Option.map_some] at rowAfter
    refine ⟨{ u with apiKey := newKey },?_,agrees.isActive,fun tier cached => ?_⟩
    · rw [commands_users]
      exact rowAfter
    · rw [TierCache.commands,List.take_of_length_le ends] at cached
      simp only [List.foldl_cons,List.foldl_nil,TierCache.execute,Dict.get?_insert_self,Option.some.injEq] at cached
      exact cached.symm
  · next raised =>
    have unchanged := Payment.updateAndCommit_raised (Bool.eq_false_iff.mpr raised) reported closes
    refine ⟨u,?_,agrees.isActive,agrees.cached⟩
    rw [unchanged]
    exact agrees.row

theorem Agrees.call (agrees : s.Agrees id u) {c : Call} (spares : c.Spares s id) : ∃ v, (s.call c).Agrees id v := by
  by_cases writes : c.Writes s id
  · cases c with
    | regenerate redis db i newKey =>
      obtain rfl : i = id := writes
      obtain ⟨ends,reported,closes⟩ := spares rfl
      exact agrees.regenerate_self newKey ends reported closes
    | change redis db c => exact absurd writes spares
    | lookup => exact writes.elim
    | resolve => exact writes.elim
    | expireTier => exact writes.elim
    | expireApiKey => exact writes.elim
  · exact ⟨u,agrees.effect (call_effect c) writes⟩

theorem Agrees.calls {between : List Call} (agrees : s.Agrees id u) (spared : Spared id s between) :
    ∃ v, (between.foldl TierCache.call s).Agrees id v := by
  induction between generalizing s u with
  | nil => exact ⟨u,agrees⟩
  | cons c rest ih =>
    obtain ⟨v,after⟩ := agrees.call spared.1
    exact ih after spared.2

/-! ### A change of tier -/

/-- Busting drops the entry that the reverse lookup leads to. -/
theorem bust_tierOf (id : ℤ) (key : String) :
    (s.bustUserTierCache reachable id).tierOf.get? key =
      if s.apiKeyOf.get? id = some key ∧ key ≠ "" then none else s.tierOf.get? key := by
  rw [bustUserTierCache,if_neg (by decide)]
  cases reverse : s.apiKeyOf.get? id with
  | none => simp
  | some k =>
    by_cases empty : k = ""
    · simp only [empty,if_true,Option.some.injEq]
      rw [if_neg]
      rintro ⟨rfl,nonempty⟩
      exact nonempty rfl
    · simp only [empty,if_false,commands,reachable,List.take_succ_cons,List.take_nil,List.foldl_cons,List.foldl_nil,
        TierCache.execute,Dict.get?_erase,Option.some.injEq]
      by_cases same : key = k
      · subst same
        simp [empty]
      · rw [if_neg same,if_neg fun both => same both.1.symm]

theorem bust_users : (s.bustUserTierCache redis id).users = s.users := by
  rw [bustUserTierCache]
  split
  · rfl
  · split
    · rfl
    · split
      · rfl
      · exact commands_users ..

/-- What a change that returns leaves of its user. -/
theorem change_returned {c : TierChange} (about : c.About s id) (returned : (s.change reachable db c).2 = true) :
    ∃ u v, s.users.rows.get? id = some u ∧ (s.change reachable db c).1.users.rows.get? id = some v ∧
      v.apiKey = u.apiKey ∧ v.isActive = u.isActive ∧ v.tier = c.tier ∧
      ∀ key, (s.change reachable db c).1.tierOf.get? key = (s.bustUserTierCache reachable id).tierOf.get? key := by
  cases c with
  | upgrade i customer =>
    obtain ⟨rfl,u,row⟩ := about
    simp only [TierCache.change,upgradeUser] at returned ⊢
    split at returned
    · next done =>
      have rowAfter := UsersTable.get?_update (Payment.updateAndCommit_returned done) i
      rw [if_pos rfl,row,Option.map_some] at rowAfter
      obtain ⟨sameKey,sameActive⟩ := Payment.upgraded_keeps customer u
      refine ⟨u,_,row,?_,sameKey,sameActive,Payment.upgraded_tier customer u,fun key => ?_⟩
      · rw [if_pos done,bust_users]
        exact rowAfter
      · rw [if_pos done,bust_tierOf,bust_tierOf]
    · cases returned
  | downgrade customer =>
    obtain ⟨u,row,has⟩ := about
    have found := (UsersTable.findByCustomer_eq_some_iff customer id u).mpr ⟨row,has⟩
    simp only [TierCache.change,downgradeUserByCustomer] at returned ⊢
    rcases Payment.downgradeUserByCustomer_cases db s.users customer with ⟨end',ends,nothing⟩ | ⟨i,v,foundToo,updates⟩
    · rw [nothing] at returned
      rw [ends returned] at found
      cases found
    · rw [found] at foundToo
      cases foundToo
      rw [updates] at returned ⊢
      simp only [] at returned ⊢
      split at returned
      · next done =>
        have rowAfter := UsersTable.get?_update (Payment.updateAndCommit_returned done) id
        rw [if_pos rfl,row,Option.map_some] at rowAfter
        refine ⟨u,Payment.downgraded u,row,?_,rfl,rfl,rfl,fun key => ?_⟩
        · rw [if_pos done,bust_users]
          exact rowAfter
        · rw [if_pos done,bust_tierOf,bust_tierOf]
      · cases returned

/-- In every run, for every change of an existing user's tier that returns with Redis
    reachable: the lookups after it answer as the database does exactly when the
    change could find the entry to drop. -/
theorem reflectsAfter_iff_busts (users : UsersTable) (calls : List Call) (db : DbOutcome) {c : TierChange} {id : ℤ}
    (about : c.About (run users calls) id) (returned : ((run users calls).change reachable db c).2 = true) :
    ReflectsAfter db (run users calls) c id ↔ (run users calls).Busts id c.tier := by
  have active : ((run users calls).change reachable db c).1.CachesActive :=
    (run_cachesActive users calls).effect (change_effect c)
  obtain ⟨u,v,row,rowAfter,sameKey,sameActive,tier,tierOf⟩ := change_returned about returned
  have agrees_iff : (∃ w, ((run users calls).change reachable db c).1.Agrees id w) ↔ (run users calls).Busts id c.tier := by
    constructor
    · rintro ⟨w,agrees⟩
      obtain rfl : w = v := Option.some.inj (agrees.row.symm.trans rowAfter)
      refine ⟨u,row,sameActive ▸ agrees.isActive,?_⟩
      -- where the reverse lookup fails, the entry survives the change
      by_cases found : (run users calls).apiKeyOf.get? id = some u.apiKey ∧ u.apiKey ≠ ""
      · exact .inl found
      · refine .inr fun cached has => ?_
        rw [← tier]
        refine agrees.cached cached ?_
        rw [tierOf,bust_tierOf,sameKey,if_neg found]
        exact has
    · rintro ⟨w,rowBefore,isActive,busted⟩
      obtain rfl : w = u := Option.some.inj (rowBefore.symm.trans row)
      refine ⟨v,rowAfter,sameActive.trans isActive,fun cached has => ?_⟩
      rw [tierOf,bust_tierOf,sameKey] at has
      rw [tier]
      rcases busted with found | equal
      · rw [if_pos found] at has
        cases has
      · split at has
        · cases has
        · exact equal cached has
  rw [← agrees_iff]
  constructor
  · intro reflects
    exact (reflects_iff active id).mp (reflects [] trivial)
  · rintro ⟨w,agrees⟩ between spared
    obtain ⟨x,after⟩ := agrees.calls spared
    exact (reflects_iff (active.calls between) id).mpr ⟨x,after⟩

/-- The second user's tier is cached by a lookup, which leaves no reverse lookup. The
    upgrade does not find the entry, and the next lookup answers the old tier. -/
theorem lookedUp_not_reflectsAfter :
    TierChange.About (run Payment.twoUsers [.lookup reachable (some "key-2")]) 2 (.upgrade 2 none) ∧
    ((run Payment.twoUsers [.lookup reachable (some "key-2")]).change reachable .success (.upgrade 2 none)).2 = true ∧
    ¬ ReflectsAfter .success (run Payment.twoUsers [.lookup reachable (some "key-2")]) (.upgrade 2 none) 2 := by
  have row : (run Payment.twoUsers [.lookup reachable (some "key-2")]).users.rows.get? 2 =
      some ⟨"key-2",.free,true,none⟩ := by decide +kernel
  refine ⟨⟨rfl,_,row⟩,by decide +kernel,?_⟩
  intro reflects
  obtain ⟨u,rowAfter,answer⟩ := reflects [] trivial
  have upgraded : ((run Payment.twoUsers [.lookup reachable (some "key-2")]).change reachable .success
      (.upgrade 2 none)).1.users.rows.get? 2 = some ⟨"key-2",.pro,true,none⟩ := by decide +kernel
  obtain rfl : u = ⟨"key-2",.pro,true,none⟩ := Option.some.inj (rowAfter.symm.trans upgraded)
  have stale : (((run Payment.twoUsers [.lookup reachable (some "key-2")]).change reachable .success
      (.upgrade 2 none)).1.getCurrentUserTier reachable (some "key-2")).2 = .ok (.tier .free) := by decide +kernel
  rw [List.foldl_nil,stale] at answer
  cases answer

/-- After `_resolve_user_from_api_key` the upgrade finds the entry. -/
theorem resolved_reflectsAfter :
    ReflectsAfter .success (run Payment.twoUsers [.resolve reachable "key-2"]) (.upgrade 2 none) 2 := by
  have row : (run Payment.twoUsers [.resolve reachable "key-2"]).users.rows.get? 2 =
      some ⟨"key-2",.free,true,none⟩ := by decide +kernel
  have reverse : (run Payment.twoUsers [.resolve reachable "key-2"]).apiKeyOf.get? 2 = some "key-2" := by decide +kernel
  have about : TierChange.About (run Payment.twoUsers [.resolve reachable "key-2"]) 2 (.upgrade 2 none) := ⟨rfl,_,row⟩
  have returned : ((run Payment.twoUsers [.resolve reachable "key-2"]).change reachable .success
      (.upgrade 2 none)).2 = true := by decide +kernel
  exact (reflectsAfter_iff_busts Payment.twoUsers [.resolve reachable "key-2"] .success about returned).mpr
    ⟨_,row,rfl,.inl ⟨reverse,by decide⟩⟩

end TierCache
end FundingRadar
