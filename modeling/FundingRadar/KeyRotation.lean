import Mathlib.Logic.Function.Iterate
import FundingRadar.CacheAside
import FundingRadar.TierCache

/-!
The rotation of the API key of one user, cut at its awaits, among lookups that fill the
cached tiers. A rotation deletes the entry of the key that its user object had when it
was read. A key that was replaced stays accepted where its entry is filled after that
deletion, or where two rotations overlap. In runs without these orders every key but the
stored one is rejected once all calls have returned (`rotation_final`).
-/
namespace FundingRadar
open CacheAside (Aside)

namespace TierCache

/-! ### The calls between their awaits -/

/-- Where a `get_current_user_tier` stands that has missed the cache, or has returned. -/
inductive Lookup
  | selecting (key : String)
  | caching (key : String) (tier : UserTier)
  | returned (result : Except AuthError Caller)

def Lookup.begin (s : TierCache) (key : String) : Lookup :=
  match s.tierOf.get? key with
  | some cached => .returned (.ok (.tier cached))
  | none => .selecting key
def Lookup.advance (s : TierCache) : Lookup → TierCache × Lookup
  | .selecting key =>
    match s.users.findByKey key with
    | none => (s,.returned (.error .unauthorized))
    | some (_,u) => (s,.caching key u.tier)
  | .caching key tier => (s.execute (.setTier key tier),.returned (.ok (.tier tier)))
  | .returned result => (s,.returned result)

/-- Where a `_resolve_user_from_api_key` stands. -/
inductive Resolve
  | selecting (key : String) (cached : Bool)
  | cachingTier (key : String) (id : ℤ) (u : User)
  | cachingKey (key : String) (id : ℤ) (u : User)
  | returned (user : Option (ℤ × User))

def Resolve.begin (s : TierCache) (key : String) : Resolve := .selecting key (s.tierOf.get? key).isSome
def Resolve.advance (s : TierCache) : Resolve → TierCache × Resolve
  | .selecting key cached =>
    match s.users.findByKey key with
    | none => (s,.returned none)
    | some (id,u) => if cached = true then (s,.returned (some (id,u))) else (s,.cachingTier key id u)
  | .cachingTier key id u => (s.execute (.setTier key u.tier),.cachingKey key id u)
  | .cachingKey key id u => (s.execute (.setApiKey id key),.returned (some (id,u)))
  | .returned user => (s,.returned user)

/-- Where a `regenerate_api_key` stands, which is authenticated by a token or by a key. -/
inductive Rotation
  | authenticating (newKey : String)
  | resolving (r : Resolve) (newKey : String)
  | committing (u : User) (newKey : String)
  | deleting (u : User) (newKey : String)
  | settingKey (u : User) (newKey : String)
  | settingTier (u : User) (newKey : String)
  | returned

def Rotation.begin (s : TierCache) (key : Option String) (newKey : String) : Rotation :=
  match key with
  | none => .authenticating newKey
  | some key => .resolving (.begin s key) newKey

/-- The new key is committed, unless it is taken. -/
def commitKey (s : TierCache) (id : ℤ) (newKey : String) : Payment.Write :=
  Payment.updateAndCommit .success s.users id (fun u => { u with apiKey := newKey })

/-- A call for the user `id`; the key of another user is another user's call. -/
def Rotation.advance (id : ℤ) (s : TierCache) : Rotation → TierCache × Rotation
  | .authenticating newKey =>
    match s.users.rows.get? id with
    | none => (s,.returned)
    | some u => if u.isActive = true then (s,.committing u newKey) else (s,.returned)
  | .resolving (.returned none) _ => (s,.returned)
  | .resolving (.returned (some (j,u))) newKey => if j = id then (s,.committing u newKey) else (s,.returned)
  | .resolving r newKey => ((r.advance s).1,.resolving (r.advance s).2 newKey)
  | .committing u newKey =>
    if (s.commitKey id newKey).returned then ({ s with users := (s.commitKey id newKey).users },.deleting u newKey)
    else (s,.returned)
  | .deleting u newKey => (s.execute (.deleteTier u.apiKey),.settingKey u newKey)
  | .settingKey u newKey => (s.execute (.setApiKey id newKey),.settingTier u newKey)
  | .settingTier u newKey => (s.execute (.setTier newKey u.tier),.returned)
  | .returned => (s,.returned)

theorem commitKey_refused {s : TierCache} {id : ℤ} {newKey : String} (refused : (s.commitKey id newKey).returned = false) :
    (s.commitKey id newKey).users = s.users :=
  Payment.updateAndCommit_raised refused (by rintro ⟨⟩) rfl
/-- The rows once the new key is committed. -/
theorem commitKey_row {s : TierCache} {id : ℤ} {newKey : String} (returned : (s.commitKey id newKey).returned = true) (j : ℤ) :
    (s.commitKey id newKey).users.rows.get? j =
      if j = id then (s.users.rows.get? id).map (fun u => { u with apiKey := newKey }) else s.users.rows.get? j :=
  UsersTable.get?_update (Payment.updateAndCommit_returned returned) j

/-! ### Calls without interleaving -/

theorem lookup_alone (s : TierCache) (key : String) :
    (fun t : TierCache × Lookup => t.2.advance t.1)^[2] (s,.begin s key) =
      ((s.getCurrentUserTier reachable (some key)).1,.returned (s.getCurrentUserTier reachable (some key)).2) := by
  simp only [Function.iterate_succ_apply,Function.iterate_zero,id,Lookup.begin,getCurrentUserTier,reachable]
  cases s.tierOf.get? key with
  | some cached => rfl
  | none =>
    simp only [Lookup.advance]
    cases s.users.findByKey key with
    | none => rfl
    | some found => rfl

theorem resolve_alone (s : TierCache) (key : String) :
    ∃ user, (s.resolveUserFromApiKey reachable key).2 = .ok user ∧
      (fun t : TierCache × Resolve => t.2.advance t.1)^[3] (s,.begin s key) =
        ((s.resolveUserFromApiKey reachable key).1,.returned user) := by
  simp only [Function.iterate_succ_apply,Function.iterate_zero,id,Resolve.begin,resolveUserFromApiKey,reachable,Resolve.advance]
  cases s.users.findByKey key with
  | none => exact ⟨none,rfl,rfl⟩
  | some found =>
    obtain ⟨id,u⟩ := found
    cases s.tierOf.get? key with
    | some cached => exact ⟨some (id,u),rfl,rfl⟩
    | none => exact ⟨some (id,u),rfl,rfl⟩

def Rotation.turn (id : ℤ) (t : TierCache × Rotation) : TierCache × Rotation := t.2.advance id t.1

theorem rotation_alone (s : TierCache) (id : ℤ) (newKey : String) :
    (Rotation.turn id)^[5] (s,.begin s none newKey) = ((s.regenerateApiKey reachable .success id newKey).1,.returned) := by
  have stays : ∀ n t, (Rotation.turn id)^[n] (t,.returned) = (t,.returned) := fun n t => Function.iterate_fixed rfl n
  rw [Function.iterate_succ_apply,regenerateApiKey]
  cases found : s.users.rows.get? id with
  | none =>
    have first : Rotation.turn id (s,.begin s none newKey) = (s,.returned) := by
      simp only [Rotation.turn,Rotation.begin,Rotation.advance,found]
    rw [first,stays]
  | some u =>
    cases active : u.isActive with
    | false =>
      have first : Rotation.turn id (s,.begin s none newKey) = (s,.returned) := by
        simp only [Rotation.turn,Rotation.begin,Rotation.advance,found,active,Bool.false_eq_true,if_false]
      rw [first,stays]
      simp only [active,if_true]
    | true =>
      have first : Rotation.turn id (s,.begin s none newKey) = (s,.committing u newKey) := by
        simp only [Rotation.turn,Rotation.begin,Rotation.advance,found,active,if_true]
      rw [first,Function.iterate_succ_apply]
      have write : s.commitKey id newKey = Payment.updateAndCommit .success s.users id (fun u => { u with apiKey := newKey }) := rfl
      dsimp only
      rw [active,← write]
      simp only [Bool.true_eq_false,if_false,Rotation.turn,Rotation.advance]
      cases outcome : (s.commitKey id newKey).returned with
      | true => rfl
      | false =>
        rw [commitKey_refused outcome]
        rfl

end TierCache
open TierCache

/-- The calls in progress over what the tables and Redis hold. `keys` are the keys that the
    user has had, which the code does not keep. -/
structure KeyRotation where
  cache : TierCache
  lookups : Dict ℕ Lookup
  resolves : Dict ℕ Resolve
  rotations : Dict ℕ Rotation
  keys : List String

namespace KeyRotation

/-- The calls begin with their first await, and go on to the next one. -/
inductive Action
  | beginLookup (i : ℕ) (key : String)
  | lookup (i : ℕ)
  | beginResolve (i : ℕ) (key : String)
  | resolve (i : ℕ)
  | beginRotation (i : ℕ) (key : Option String) (newKey : String)
  | rotate (i : ℕ)
  | expireTier (key : String)
  | expireApiKey (id : ℤ)

variable (id : ℤ) (s : KeyRotation)

/-- The key that a rotation is about to commit. -/
def committed (r : Rotation) : Option String :=
  match r with
  | .committing _ newKey => if (s.cache.commitKey id newKey).returned then some newKey else none
  | _ => none

def step : Action → KeyRotation
  | .beginLookup i key =>
    match s.lookups.get? i with
    | some _ => s
    | none => { s with lookups := s.lookups.insert i (.begin s.cache key) }
  | .lookup i =>
    match s.lookups.get? i with
    | none => s
    | some l => { s with cache := (l.advance s.cache).1, lookups := s.lookups.insert i (l.advance s.cache).2 }
  | .beginResolve i key =>
    match s.resolves.get? i with
    | some _ => s
    | none => { s with resolves := s.resolves.insert i (.begin s.cache key) }
  | .resolve i =>
    match s.resolves.get? i with
    | none => s
    | some r => { s with cache := (r.advance s.cache).1, resolves := s.resolves.insert i (r.advance s.cache).2 }
  | .beginRotation i key newKey =>
    match s.rotations.get? i with
    | some _ => s
    | none => { s with rotations := s.rotations.insert i (.begin s.cache key newKey) }
  | .rotate i =>
    match s.rotations.get? i with
    | none => s
    | some r =>
      { s with
        cache := (r.advance id s.cache).1
        rotations := s.rotations.insert i (r.advance id s.cache).2
        keys := s.keys ++ (s.committed id r).toList }
  | .expireTier key => { s with cache := s.cache.execute (.deleteTier key) }
  | .expireApiKey id => { s with cache := s.cache.execute (.deleteApiKey id) }

def run (actions : List Action) : KeyRotation := actions.foldl (step id) s

def returnedLookup : Lookup → Bool
  | .returned _ => true
  | _ => false
def returnedResolve : Resolve → Bool
  | .returned _ => true
  | _ => false
def returnedRotation : Rotation → Bool
  | .returned => true
  | _ => false
/-- Every call has returned. -/
def Quiet : Prop :=
  (∀ e ∈ s.lookups.entries, returnedLookup e.2 = true) ∧ (∀ e ∈ s.resolves.entries, returnedResolve e.2 = true) ∧
    ∀ e ∈ s.rotations.entries, returnedRotation e.2 = true
instance : Decidable s.Quiet := inferInstanceAs (Decidable (_ ∧ _))

/-- What `get_current_user_tier` makes of a key. -/
def answer (key : String) : Except AuthError Caller := (s.cache.getCurrentUserTier reachable (some key)).2
def Accepted (key : String) : Prop := ∃ tier, s.answer key = .ok (.tier tier)
/-- Once every call has returned, the stored key is accepted and every other key that the
    user has had is rejected. -/
def Final : Prop :=
  s.Quiet → ∃ u ∈ s.cache.users.rows.get? id, s.Accepted u.apiKey ∧
    ∀ key ∈ s.keys, key ≠ u.apiKey → s.answer key = .error .unauthorized

/-- An active user before any call, over anything that Redis holds. -/
structure Initial : Prop where
  user : ∃ u ∈ s.cache.users.rows.get? id, u.isActive = true ∧ s.keys = [u.apiKey]
  lookups : s.lookups = .empty
  resolves : s.resolves = .empty
  rotations : s.rotations = .empty

/-! ### Orderly runs -/

/-- The key whose entry the next step of a call fills. -/
def lookupFills : Lookup → Option String
  | .caching key _ => some key
  | _ => none
def resolveFills : Resolve → Option String
  | .cachingTier key _ _ => some key
  | _ => none
def rotationFills : Rotation → Option String
  | .resolving r _ => resolveFills r
  | .settingTier _ newKey => some newKey
  | _ => none
/-- The key whose entry a rotation has yet to delete. -/
def owes : Rotation → Option String
  | .committing u _ => some u.apiKey
  | .deleting u _ => some u.apiKey
  | _ => none

/-- A key that the user has had and that is not stored any more. -/
def Revoked (key : String) : Prop := key ∈ s.keys ∧ ∀ u ∈ s.cache.users.rows.get? id, u.apiKey ≠ key
instance (key : String) : Decidable (s.Revoked id key) := inferInstanceAs (Decidable (_ ∧ _))
/-- Some rotation has yet to delete the entry of the key. -/
def Owed (key : String) : Prop := ∃ e ∈ s.rotations.entries, owes e.2 = some key
instance (key : String) : Decidable (s.Owed key) :=
  inferInstanceAs (Decidable (∃ e ∈ s.rotations.entries, owes e.2 = some key))

/-- An entry that is filled is of no revoked key, or some rotation still deletes it. -/
def OrderlyFill (fills : Option String) : Prop := ∀ key ∈ fills, s.Revoked id key → s.Owed key
instance (fills : Option String) : Decidable (s.OrderlyFill id fills) :=
  inferInstanceAs (Decidable (∀ key ∈ fills, s.Revoked id key → s.Owed key))
/-- A commit replaces a key that has no entry, or some rotation still deletes it. A commit
    that is refused leaves no entry of a revoked key that only this rotation would delete. -/
def OrderlyCommit (i : ℕ) (r : Rotation) : Prop :=
  match r with
  | .committing u newKey =>
    if (s.cache.commitKey id newKey).returned = true then
      ∀ stored ∈ s.cache.users.rows.get? id, stored.apiKey ≠ newKey → (s.cache.tierOf.get? stored.apiKey).isSome = true →
        s.Owed stored.apiKey
    else s.Revoked id u.apiKey → (s.cache.tierOf.get? u.apiKey).isSome = true →
      ∃ e ∈ s.rotations.entries, e.1 ≠ i ∧ owes e.2 = some u.apiKey
  | _ => True
instance (i : ℕ) : (r : Rotation) → Decidable (s.OrderlyCommit id i r)
  | .committing u newKey => inferInstanceAs (Decidable (if (s.cache.commitKey id newKey).returned = true then
      ∀ stored ∈ s.cache.users.rows.get? id, stored.apiKey ≠ newKey → (s.cache.tierOf.get? stored.apiKey).isSome = true →
        s.Owed stored.apiKey
    else s.Revoked id u.apiKey → (s.cache.tierOf.get? u.apiKey).isSome = true →
      ∃ e ∈ s.rotations.entries, e.1 ≠ i ∧ owes e.2 = some u.apiKey))
  | .authenticating _ => isTrue trivial
  | .resolving _ _ => isTrue trivial
  | .deleting _ _ => isTrue trivial
  | .settingKey _ _ => isTrue trivial
  | .settingTier _ _ => isTrue trivial
  | .returned => isTrue trivial

def Orderly : Action → Prop
  | .lookup i => ∀ l ∈ s.lookups.get? i, s.OrderlyFill id (lookupFills l)
  | .resolve i => ∀ r ∈ s.resolves.get? i, s.OrderlyFill id (resolveFills r)
  | .rotate i => ∀ r ∈ s.rotations.get? i, s.OrderlyFill id (rotationFills r) ∧ s.OrderlyCommit id i r
  | _ => True
instance : (a : Action) → Decidable (s.Orderly id a)
  | .lookup i => inferInstanceAs (Decidable (∀ l ∈ s.lookups.get? i, s.OrderlyFill id (lookupFills l)))
  | .resolve i => inferInstanceAs (Decidable (∀ r ∈ s.resolves.get? i, s.OrderlyFill id (resolveFills r)))
  | .rotate i =>
    inferInstanceAs (Decidable (∀ r ∈ s.rotations.get? i, s.OrderlyFill id (rotationFills r) ∧ s.OrderlyCommit id i r))
  | .beginLookup _ _ => isTrue trivial
  | .beginResolve _ _ => isTrue trivial
  | .beginRotation _ _ _ => isTrue trivial
  | .expireTier _ => isTrue trivial
  | .expireApiKey _ => isTrue trivial
/-- Every action of a sequence is, at its own state. -/
def OrderlyRun : KeyRotation → List Action → Prop
  | _,[] => True
  | s,a :: rest => s.Orderly id a ∧ OrderlyRun (s.step id a) rest
instance decidableOrderlyRun : (s : KeyRotation) → (actions : List Action) → Decidable (OrderlyRun id s actions)
  | _,[] => isTrue trivial
  | s,a :: rest =>
    have := decidableOrderlyRun (s.step id a) rest
    inferInstanceAs (Decidable (s.Orderly id a ∧ OrderlyRun id (s.step id a) rest))

variable {id s}

/-! ### What orderly runs keep -/

/-- The cached tiers, as a cache beside the stored key. -/
def aside (id : ℤ) (s : KeyRotation) : Aside String UserTier ℕ where
  valid key _ := ¬ s.Revoked id key
  cached key := s.cache.tierOf.get? key
  owed i := (s.rotations.get? i).bind owes

theorem aside_owed (i : ℕ) : (s.aside id).owed i = (s.rotations.get? i).bind owes := rfl
theorem owed_iff (key : String) : (s.aside id).Owed key ↔ s.Owed key := Dict.exists_bind_get?_iff s.rotations owes key

/-- What every orderly action keeps: cached keys are stored or will be deleted, the user is
    active, and nobody else has a key that the user has had. -/
structure Inv (id : ℤ) (s : KeyRotation) : Prop where
  covered : (s.aside id).Covered
  user : ∃ u, s.cache.users.rows.get? id = some u ∧ u.isActive = true
  own : ∀ key ∈ s.keys, ∀ j u, s.cache.users.rows.get? j = some u → u.apiKey = key → j = id

theorem Initial.inv (initial : s.Initial id) : s.Inv id := by
  obtain ⟨u,found,active,keys⟩ := initial.user
  refine ⟨?_,⟨u,found,active⟩,?_⟩
  · intro key tier held
    refine .inl ?_
    rintro ⟨member,other⟩
    rw [keys,List.mem_singleton] at member
    exact other u found member.symm
  · intro key member j v foundJ same
    rw [keys,List.mem_singleton] at member
    exact s.cache.users.unique j id v u foundJ found (.inl (same.trans member))

theorem Inv.final (inv : s.Inv id) : s.Final id := by
  intro quiet
  obtain ⟨u,found,active⟩ := inv.user
  have settled : ∀ key, ¬ (s.aside id).Owed key := by
    intro key owed
    obtain ⟨⟨i,r⟩,member,owes⟩ := (owed_iff key).mp owed
    have returned := quiet.2.2 (i,r) member
    cases r with
    | returned => cases owes
    | _ => cases returned
  refine ⟨u,found,?_,?_⟩
  · unfold Accepted answer getCurrentUserTier
    simp only [reachable]
    cases s.cache.tierOf.get? u.apiKey with
    | some tier => exact ⟨tier,rfl⟩
    | none =>
      have selected := (UsersTable.findByKey_eq_some_iff u.apiKey id u).mpr ⟨found,rfl,active⟩
      simp only [selected]
      exact ⟨u.tier,rfl⟩
  · intro key member other
    have revoked : s.Revoked id key := by
      refine ⟨member,?_⟩
      intro v foundV same
      rw [found] at foundV
      cases foundV
      exact other same.symm
    have missing : s.cache.tierOf.get? key = none := by
      cases held : s.cache.tierOf.get? key with
      | none => rfl
      | some tier => exact absurd revoked (inv.covered.valid (settled key) held)
    have unknown : s.cache.users.findByKey key = none := by
      cases selected : s.cache.users.findByKey key with
      | none => rfl
      | some e =>
        obtain ⟨foundJ,same,-⟩ := (UsersTable.findByKey_eq_some_iff key e.1 e.2).mp selected
        rw [inv.own key member e.1 e.2 foundJ same] at foundJ
        exact absurd same (revoked.2 e.2 foundJ)
    unfold answer getCurrentUserTier
    simp only [reachable,missing,unknown]
    rfl

/-- What a step of a call does to the tables and to the cached tiers: it fills one entry,
    or none. -/
def Fills (before after : TierCache) (fills : Option String) : Prop :=
  after.users = before.users ∧
    match fills with
    | none => after.tierOf = before.tierOf
    | some key => ∃ tier, after.tierOf = before.tierOf.insert key tier

theorem lookup_fills (c : TierCache) (l : Lookup) : Fills c (l.advance c).1 (lookupFills l) := by
  cases l with
  | selecting key =>
    simp only [Lookup.advance]
    split
    · exact ⟨rfl,rfl⟩
    · exact ⟨rfl,rfl⟩
  | caching key tier => exact ⟨rfl,tier,rfl⟩
  | returned result => exact ⟨rfl,rfl⟩

theorem resolve_fills (c : TierCache) (r : Resolve) : Fills c (r.advance c).1 (resolveFills r) := by
  cases r with
  | selecting key cached =>
    simp only [Resolve.advance]
    split
    · exact ⟨rfl,rfl⟩
    · split
      · exact ⟨rfl,rfl⟩
      · exact ⟨rfl,rfl⟩
  | cachingTier key id u => exact ⟨rfl,u.tier,rfl⟩
  | cachingKey key id u => exact ⟨rfl,rfl⟩
  | returned user => exact ⟨rfl,rfl⟩

/-- An orderly fill keeps the invariant, whatever else of the calls moves on with it. -/
theorem Inv.filled (inv : s.Inv id) {after : TierCache} {fills : Option String} (effect : Fills s.cache after fills)
    (orderly : s.OrderlyFill id fills) {s' : KeyRotation} (cache : s'.cache = after) (rotations : s'.rotations = s.rotations)
    (keys : s'.keys = s.keys) : s'.Inv id := by
  obtain ⟨users,tiers⟩ := effect
  refine ⟨?_,?_,?_⟩
  · have revoked : ∀ key, s'.Revoked id key = s.Revoked id key := by
      intro key
      rw [Revoked,Revoked,cache,users,keys]
    cases fills with
    | none =>
      have same : s'.aside id = s.aside id := by
        unfold aside
        rw [cache,tiers,rotations]
        simp only [revoked]
      rw [same]
      exact inv.covered
    | some key =>
      obtain ⟨tier,inserted⟩ := tiers
      have filled : s'.aside id = (s.aside id).fill key tier := by
        unfold aside Aside.fill
        rw [cache,inserted,rotations]
        simp only [revoked]
        congr 1
        funext j
        rw [Dict.get?_insert,Function.update_apply]
      rw [filled,Aside.covered_fill_iff inv.covered,owed_iff]
      by_cases gone : s.Revoked id key
      · exact .inr (orderly key rfl gone)
      · exact .inl gone
  · rw [cache,users]
    exact inv.user
  · rw [cache,users,keys]
    exact inv.own

theorem owed_insert (i : ℕ) (next : Rotation) :
    (fun j => ((s.rotations.insert i next).get? j).bind owes) = Function.update (s.aside id).owed i (owes next) :=
  Dict.bind_get?_insert s.rotations owes i next

/-- A rotation that owes nothing moves on. -/
theorem Inv.moved (inv : s.Inv id) {i : ℕ} (free : (s.rotations.get? i).bind owes = none) (next : Rotation) :
    Inv id { s with rotations := s.rotations.insert i next } := by
  refine ⟨?_,inv.user,inv.own⟩
  have moved : aside id { s with rotations := s.rotations.insert i next } =
      { s.aside id with owed := Function.update (s.aside id).owed i (owes next) } := by
    rw [← owed_insert]
    rfl
  rw [moved]
  cases owed : owes next with
  | some key => exact inv.covered.owe free key
  | none =>
    rw [← free,← @aside_owed id s i,Function.update_eq_self]
    exact inv.covered

theorem rotation_fills (c : TierCache) {r : Rotation} (free : owes r = none) :
    Fills c (r.advance id c).1 (rotationFills r) := by
  cases r with
  | authenticating newKey =>
    simp only [Rotation.advance]
    split
    · exact ⟨rfl,rfl⟩
    · split
      · exact ⟨rfl,rfl⟩
      · exact ⟨rfl,rfl⟩
  | resolving r newKey =>
    cases r with
    | returned user =>
      cases user with
      | none => exact ⟨rfl,rfl⟩
      | some e =>
        simp only [Rotation.advance]
        split
        · exact ⟨rfl,rfl⟩
        · exact ⟨rfl,rfl⟩
    | selecting key cached => exact resolve_fills c (.selecting key cached)
    | cachingTier key j u => exact resolve_fills c (.cachingTier key j u)
    | cachingKey key j u => exact resolve_fills c (.cachingKey key j u)
  | committing u newKey => cases free
  | deleting u newKey => cases free
  | settingKey u newKey => exact ⟨rfl,rfl⟩
  | settingTier u newKey => exact ⟨rfl,u.tier,rfl⟩
  | returned => exact ⟨rfl,rfl⟩

/-- The state after a step of a rotation. -/
def rotated (id : ℤ) (s : KeyRotation) (i : ℕ) (r : Rotation) : KeyRotation :=
  { s with
    cache := (r.advance id s.cache).1
    rotations := s.rotations.insert i (r.advance id s.cache).2
    keys := s.keys ++ (s.committed id r).toList }

theorem Inv.rotated_free (inv : s.Inv id) {i : ℕ} {r : Rotation} (found : s.rotations.get? i = some r) (free : owes r = none)
    (orderly : s.OrderlyFill id (rotationFills r)) : (s.rotated id i r).Inv id := by
  have filled : Inv id { s with cache := (r.advance id s.cache).1 } :=
    inv.filled (rotation_fills s.cache free) orderly rfl rfl rfl
  have moved := filled.moved (i := i) (by rw [found]; exact free) (r.advance id s.cache).2
  have nothing : s.committed id r = none := by
    cases r with
    | committing u newKey => cases free
    | _ => rfl
  rw [rotated,nothing,Option.toList_none,List.append_nil]
  exact moved

/-- A commit revokes the key that was stored. -/
theorem Inv.rotated_commit (inv : s.Inv id) {i : ℕ} {u : User} {newKey : String}
    (found : s.rotations.get? i = some (.committing u newKey)) (returned : (s.cache.commitKey id newKey).returned = true)
    (orderly : s.OrderlyCommit id i (.committing u newKey)) : (s.rotated id i (.committing u newKey)).Inv id := by
  obtain ⟨stored,row,active⟩ := inv.user
  have rows := commitKey_row returned
  have newRow : (s.cache.commitKey id newKey).users.rows.get? id = some { stored with apiKey := newKey } := by
    rw [rows,if_pos rfl,row]
    rfl
  have after : s.rotated id i (.committing u newKey) =
      { s with
        cache := { s.cache with users := (s.cache.commitKey id newKey).users }
        rotations := s.rotations.insert i (.deleting u newKey)
        keys := s.keys ++ [newKey] } := by
    simp only [rotated,Rotation.advance,committed,returned,if_true]
    rfl
  rw [after]
  refine ⟨?_,⟨_,newRow,active⟩,?_⟩
  · have owed : (s.aside id).owed i = some u.apiKey := by
      rw [aside_owed,found]
      rfl
    have become : aside id { s with
        cache := { s.cache with users := (s.cache.commitKey id newKey).users }
        rotations := s.rotations.insert i (.deleting u newKey)
        keys := s.keys ++ [newKey] } = (s.aside id).become (fun key _ =>
          ¬ (key ∈ s.keys ++ [newKey] ∧ ∀ v ∈ (s.cache.commitKey id newKey).users.rows.get? id, v.apiKey ≠ key)) := by
      unfold Aside.become
      conv_rhs => rw [← Function.update_eq_self i (s.aside id).owed,owed]
      rw [show some u.apiKey = owes (.deleting u newKey) from rfl,← owed_insert]
      rfl
    rw [become]
    refine inv.covered.become ?_
    intro key tier held stands
    by_cases gone : key ∈ s.keys ++ [newKey] ∧ ∀ v ∈ (s.cache.commitKey id newKey).users.rows.get? id, v.apiKey ≠ key
    · obtain ⟨member,other⟩ := gone
      have differs : newKey ≠ key := other _ newRow
      have old : key ∈ s.keys := by
        rcases List.mem_append.mp member with old | new
        · exact old
        · exact absurd (List.mem_singleton.mp new).symm differs
      have wasStored : stored.apiKey = key := by
        by_contra different
        refine stands ⟨old,?_⟩
        intro v rowV
        rw [row] at rowV
        cases rowV
        exact different
      simp only [OrderlyCommit,returned,if_true] at orderly
      have deletes := orderly stored row
      rw [wasStored] at deletes
      have owed := deletes differs.symm (Option.isSome_of_eq_some held)
      exact .inr ((owed_iff key).mpr owed)
    · exact .inl gone
  · intro key member j v foundJ same
    by_cases own : j = id
    · exact own
    · rcases List.mem_append.mp member with old | new
      · rw [rows,if_neg own] at foundJ
        exact inv.own key old j v foundJ same
      · rw [List.mem_singleton.mp new] at same
        exact (s.cache.commitKey id newKey).users.unique j id v _ foundJ newRow (.inl same)

/-- A commit that is refused changes nothing, and its rotation deletes nothing. -/
theorem Inv.rotated_refused (inv : s.Inv id) {i : ℕ} {u : User} {newKey : String}
    (found : s.rotations.get? i = some (.committing u newKey)) (refused : (s.cache.commitKey id newKey).returned = false)
    (orderly : s.OrderlyCommit id i (.committing u newKey)) : (s.rotated id i (.committing u newKey)).Inv id := by
  have after : s.rotated id i (.committing u newKey) = { s with rotations := s.rotations.insert i .returned } := by
    simp only [rotated,Rotation.advance,committed,refused,Bool.false_eq_true,if_false,Option.toList_none,List.append_nil]
  rw [after]
  refine ⟨?_,inv.user,inv.own⟩
  have released : aside id { s with rotations := s.rotations.insert i .returned } = (s.aside id).release i := by
    unfold Aside.release
    rw [show (none : Option String) = owes .returned from rfl,← owed_insert]
    rfl
  rw [released]
  refine inv.covered.release ?_
  intro key tier owed held
  rw [aside_owed,found] at owed
  obtain rfl : u.apiKey = key := Option.some.inj owed
  simp only [OrderlyCommit,refused,Bool.false_eq_true,if_false] at orderly
  by_cases gone : s.Revoked id u.apiKey
  · obtain ⟨⟨j,r⟩,member,other,deletes⟩ := orderly gone (Option.isSome_of_eq_some held)
    exact .inr ⟨j,other,Option.bind_eq_some_iff.mpr ⟨r,(Dict.mem_entries_iff _ _ _).mp member,deletes⟩⟩
  · exact .inl gone

theorem Inv.rotated_delete (inv : s.Inv id) {i : ℕ} {u : User} {newKey : String}
    (found : s.rotations.get? i = some (.deleting u newKey)) : (s.rotated id i (.deleting u newKey)).Inv id := by
  have after : s.rotated id i (.deleting u newKey) =
      { s with
        cache := s.cache.execute (.deleteTier u.apiKey)
        rotations := s.rotations.insert i (.settingKey u newKey) } := by
    simp only [rotated,Rotation.advance,committed,Option.toList_none,List.append_nil]
  rw [after]
  refine ⟨?_,inv.user,inv.own⟩
  have owed : (s.aside id).owed i = some u.apiKey := by
    rw [aside_owed,found]
    rfl
  have paid : aside id { s with
      cache := s.cache.execute (.deleteTier u.apiKey)
      rotations := s.rotations.insert i (.settingKey u newKey) } = (s.aside id).pay i := by
    unfold Aside.pay
    rw [owed]
    dsimp only
    rw [show (none : Option String) = owes (.settingKey u newKey) from rfl,← owed_insert]
    unfold aside Aside.expire
    congr 1
    exact Dict.get?_erase_eq_update _ _
  rw [paid]
  exact inv.covered.pay i

theorem Inv.rotated (inv : s.Inv id) {i : ℕ} {r : Rotation} (found : s.rotations.get? i = some r)
    (orderly : s.OrderlyFill id (rotationFills r) ∧ s.OrderlyCommit id i r) : (s.rotated id i r).Inv id := by
  cases free : owes r with
  | none => exact inv.rotated_free found free orderly.1
  | some key =>
    cases r with
    | committing u newKey =>
      cases outcome : (s.cache.commitKey id newKey).returned with
      | true => exact inv.rotated_commit found outcome orderly.2
      | false => exact inv.rotated_refused found outcome orderly.2
    | deleting u newKey => exact inv.rotated_delete found
    | _ => cases free

/-! ### Runs -/

theorem Inv.step (inv : s.Inv id) {a : Action} (orderly : s.Orderly id a) : (s.step id a).Inv id := by
  cases a with
  | beginLookup i key =>
    rw [KeyRotation.step]
    split
    · exact inv
    · exact ⟨inv.covered,inv.user,inv.own⟩
  | lookup i =>
    rw [KeyRotation.step]
    cases found : s.lookups.get? i with
    | none => exact inv
    | some l => exact inv.filled (lookup_fills s.cache l) (orderly l found) rfl rfl rfl
  | beginResolve i key =>
    rw [KeyRotation.step]
    split
    · exact inv
    · exact ⟨inv.covered,inv.user,inv.own⟩
  | resolve i =>
    rw [KeyRotation.step]
    cases found : s.resolves.get? i with
    | none => exact inv
    | some r => exact inv.filled (resolve_fills s.cache r) (orderly r found) rfl rfl rfl
  | beginRotation i key newKey =>
    rw [KeyRotation.step]
    cases found : s.rotations.get? i with
    | some r => exact inv
    | none => exact inv.moved (by rw [found]; rfl) _
  | rotate i =>
    rw [KeyRotation.step]
    cases found : s.rotations.get? i with
    | none => exact inv
    | some r => exact inv.rotated found (orderly r found)
  | expireTier key =>
    refine ⟨?_,inv.user,inv.own⟩
    have expired : (s.step id (.expireTier key)).aside id = (s.aside id).expire key := by
      unfold aside Aside.expire
      congr 1
      exact Dict.get?_erase_eq_update _ _
    rw [expired]
    exact inv.covered.expire key
  | expireApiKey j => exact ⟨inv.covered,inv.user,inv.own⟩

theorem Inv.run {actions : List Action} (inv : s.Inv id) (orderly : OrderlyRun id s actions) : (s.run id actions).Inv id := by
  induction actions generalizing s with
  | nil => exact inv
  | cons a rest ih => exact ih (inv.step orderly.1) orderly.2

/-- After an orderly run, once every call has returned, only the stored key is accepted. -/
theorem rotation_final (id : ℤ) (s : KeyRotation) (actions : List Action) (initial : s.Initial id)
    (orderly : OrderlyRun id s actions) : (s.run id actions).Final id :=
  (initial.inv.run orderly).final

/-! ### A lookup across a rotation -/

/-- One free user with the key `key-1`, and nothing in Redis. -/
def oneUser : KeyRotation where
  cache := ⟨(UsersTable.empty.set 1 ⟨"key-1",.free,true,none⟩).getD .empty,.empty,.empty⟩
  lookups := .empty
  resolves := .empty
  rotations := .empty
  keys := ["key-1"]
theorem oneUser_initial : oneUser.Initial 1 := ⟨⟨⟨"key-1",.free,true,none⟩,rfl,rfl,rfl⟩,rfl,rfl,rfl⟩

/-- A rotation to `key-2` that is authenticated by a token. -/
def rotation : List Action := .beginRotation 0 none "key-2" :: List.replicate 5 (.rotate 0)

/-- A lookup before a rotation, and another after it. -/
def rotationRun : List Action :=
  [.beginLookup 0 "key-1",.lookup 0,.lookup 0] ++ rotation ++ [.beginLookup 1 "key-2"]

theorem rotationRun_final :
    (oneUser.run 1 rotationRun).Quiet ∧ (oneUser.run 1 rotationRun).answer "key-1" = .error .unauthorized ∧
    (oneUser.run 1 rotationRun).Final 1 :=
  ⟨by decide +kernel,by decide +kernel,rotation_final 1 oneUser rotationRun oneUser_initial (by decide +kernel)⟩

/-- The lookup selects the user before the rotation and fills the entry after it. -/
def lateFillRun : List Action := [.beginLookup 0 "key-1",.lookup 0] ++ rotation ++ [.lookup 0]

/-- The replaced key is still accepted. -/
theorem lateFillRun_not_final : oneUser.Initial 1 ∧ ¬ (oneUser.run 1 lateFillRun).Final 1 := by
  refine ⟨oneUser_initial,?_⟩
  intro final
  obtain ⟨u,found,-,rejects⟩ := final (by decide +kernel)
  have stored : (oneUser.run 1 lateFillRun).cache.users.rows.get? 1 = some ⟨"key-2",.free,true,none⟩ := by decide +kernel
  have same := stored.symm.trans found
  cases same
  have rejected := rejects "key-1" (by decide +kernel) (by decide)
  exact absurd rejected (by decide +kernel)

end KeyRotation
end FundingRadar
