import Mathlib
import FundingRadar.KeyedCells
import FundingRadar.RateLimiter
import FundingRadar.TierCache

/-!
The two limiters in front of the endpoints, over one Redis. Both build the name of a bucket
from what they know of the caller. `RateLimiter` knows its host and its tier, so two users of
one tier behind one host share a bucket; `RedisBucketLimiter` names the bucket of a known
user after the user. The decisions for one user's key are those of a run without the other
user exactly when no bucket of the one is a bucket of the other (`isolated_iff`).

The tier of a key is the cached one, for as long as there is one, and else that of the database;
the cache may hold any tiers, and an entry may expire at any time. The users do not change during
a run, Redis answers every command, and every request carries the time that its process read.
-/
namespace FundingRadar
open RateLimiter KeyedCells

def UserTier.value : UserTier → String
  | .free => "free"
  | .pro => "pro"
  | .custom => "custom"
def TierCache.Caller.value : TierCache.Caller → String
  | .anonymous => "anonymous"
  | .tier t => t.value

namespace ClientIsolation

inductive Endpoint
  | data
  | auth
deriving DecidableEq

/-- A request: `request.client`, the subject of a Bearer token that is valid, and
    `X-API-Key`; its process, and the time that this reads. -/
structure Request where
  endpoint : Endpoint
  client : Option String
  bearer : Option ℤ
  xApiKey : Option String
  process : ℕ
  now : ℚ

inductive Response
  | admitted
  | unauthorized
  | tooManyRequests (detail : String) (retryAfter : ℤ)
deriving DecidableEq

def Response.allows : Response → Bool
  | .admitted => true
  | .unauthorized => false
  | .tooManyRequests _ _ => false

def clientIp (r : Request) : String := r.client.getD "unknown"

/-- The end of both limiters: the check of the bucket. -/
def limit (limiter : Limiter) (r : Request) (identifier tier detail : String) : Limiter × Response :=
  match limiter.check ⟨r.process,identifier,tier,r.now,Limiter.reachable⟩ with
  | (limiter,allowed,retryAfter) => (limiter,if allowed then .admitted else .tooManyRequests detail retryAfter)

/-- What Redis and the database hold. -/
structure Api where
  cache : TierCache
  limiter : Limiter

/-- `RateLimiter.__call__`. -/
def rateLimiter (s : Api) (r : Request) : Api × Response :=
  match s.cache.getCurrentUserTier TierCache.reachable r.xApiKey with
  | (cache,.error _) => ({ s with cache := cache },.unauthorized)
  | (cache,.ok caller) =>
    let tier := caller.value
    let (limiter,response) := limit s.limiter r ("ip:" ++ clientIp r ++ ":" ++ tier) tier
      ("Rate limit exceeded for tier '" ++ tier ++ "'.")
    (⟨cache,limiter⟩,response)

/-- `get_optional_user`: the user of the token, or else of the key. -/
def getOptionalUser (cache : TierCache) (r : Request) : TierCache × Option (ℤ × User) :=
  match r.bearer.bind (fun id => ((cache.users.rows.get? id).filter User.isActive).map (fun u => (id,u))) with
  | some found => (cache,some found)
  | none =>
    match r.xApiKey with
    | none => (cache,none)
    | some key =>
      if key = "" then (cache,none)
      else
        match cache.resolveUserFromApiKey TierCache.reachable key with
        | (cache,.ok found) => (cache,found)
        | (cache,.error _) => (cache,none)

/-- `RedisBucketLimiter.__call__`. -/
def redisBucketLimiter (s : Api) (r : Request) : Api × Response :=
  let (cache,user) := getOptionalUser s.cache r
  let tier := (user.map (fun found => found.2.tier.value)).getD "anonymous"
  let identifier := match user with
    | some (id,_) => "user:" ++ toString id
    | none => "ip:" ++ clientIp r
  let (limiter,response) := limit s.limiter r identifier tier ("Rate limit exceeded. Tier: " ++ tier ++ ".")
  (⟨cache,limiter⟩,response)

def serve (s : Api) (r : Request) : Api × Response :=
  match r.endpoint with
  | .data => rateLimiter s r
  | .auth => redisBucketLimiter s r

/-- What happens: a request, or the cached tier of a key expires. -/
inductive Event
  | request (r : Request)
  | lapse (key : String)

def Api.lapse (s : Api) (key : String) : Api := { s with cache := s.cache.execute (.deleteTier key) }

/-- The decisions on the chosen requests, while all are served in order. -/
def decisions (mine : Request → Bool) : Api → List Event → List Bool
  | _,[] => []
  | s,.lapse key :: rest => decisions mine (s.lapse key) rest
  | s,.request r :: rest =>
    let (s',response) := serve s r
    if mine r then response.allows :: decisions mine s' rest else decisions mine s' rest

/-- What happens without the requests that are not chosen. -/
def Event.kept (mine : Request → Bool) : Event → Bool
  | .request r => mine r
  | .lapse _ => true

/-- An active user, with a key that is not empty. -/
structure Account (users : UsersTable) where
  id : ℤ
  user : User
  found : users.findByKey user.apiKey = some (id,user)
  named : user.apiKey ≠ ""

/-- A request with the user's key, from one of the hosts. -/
def With {users : UsersTable} (a : Account users) (hosts : Set String) (r : Request) : Prop :=
  r.xApiKey = some a.user.apiKey ∧ (r.bearer = none ∨ r.bearer = some a.id) ∧ clientIp r ∈ hosts
/-- A request of the user, with the user's key or token or without any, from one of the hosts. -/
def From {users : UsersTable} (a : Account users) (hosts : Set String) (r : Request) : Prop :=
  (r.xApiKey = none ∨ r.xApiKey = some a.user.apiKey) ∧ (r.bearer = none ∨ r.bearer = some a.id) ∧ clientIp r ∈ hosts

/-- The request carries the user's key. -/
def mine {users : UsersTable} (a : Account users) (r : Request) : Bool := r.xApiKey = some a.user.apiKey
/-- The tiers that the user's key is taken for: the cached one, and that of the database. -/
def tiersOf (s : Api) (a : Account s.cache.users) : Set UserTier :=
  {t | s.cache.tierOf.get? a.user.apiKey = some t ∨ t = a.user.tier}

/-- At the endpoints in question, the decisions for the first user's key do not depend on the
    requests of the second user. -/
def Isolated (s : Api) (a b : Account s.cache.users) (hostsA hostsB : Set String) (endpoints : Set Endpoint) : Prop :=
  ∀ events, (∀ r, .request r ∈ events → r.endpoint ∈ endpoints ∧ (With a hostsA r ∨ From b hostsB r)) →
    decisions (mine a) s events = decisions (mine a) s (events.filter (Event.kept (mine a)))

/-! ### What decides a request -/

/-- The caller of a data endpoint with a key, as long as no tier is cached for it. -/
def uncached (users : UsersTable) (key : String) : Option TierCache.Caller :=
  (users.findByKey key).map fun found => .tier found.2.tier
/-- The caller of a data endpoint. -/
def callerOf (cache : TierCache) : Option String → Option TierCache.Caller
  | none => some .anonymous
  | some key => ((cache.tierOf.get? key).map .tier).or (uncached cache.users key)
/-- The user of a request, by the users alone. -/
def userOf (users : UsersTable) (r : Request) : Option (ℤ × User) :=
  (r.bearer.bind (fun id => ((users.rows.get? id).filter User.isActive).map (fun u => (id,u)))).or
    (r.xApiKey.bind (fun key => if key = "" then none else users.findByKey key))

/-- A request, and the caller that a data endpoint takes it for. -/
abbrev Resolved := Request × Option TierCache.Caller

/-- The requests in order, each with what it finds in the cache. Only an entry that expires changes
    that: what a request adds is the tier of the database. -/
def resolve (users : UsersTable) : (Option String → Option TierCache.Caller) → List Event → List Resolved
  | _,[] => []
  | view,.request r :: rest => (r,view r.xApiKey) :: resolve users view rest
  | view,.lapse key :: rest => resolve users (Function.update view (some key) (uncached users key)) rest

/-- What a request may be taken for, as the cached tier of its key expires or not. -/
def Takes (users : UsersTable) (view : Option String → Option TierCache.Caller) (q : Resolved) : Prop :=
  q.2 = view q.1.xApiKey ∨ ∃ key, q.1.xApiKey = some key ∧ q.2 = uncached users key

/-- The bucket of a request and the tier that configures it, unless it is refused before. -/
def bucketOf (users : UsersTable) (q : Resolved) : Option (String × String) :=
  match q.1.endpoint with
  | .data => q.2.map (fun caller => ("ip:" ++ clientIp q.1 ++ ":" ++ caller.value,caller.value))
  | .auth =>
    match userOf users q.1 with
    | some (id,u) => some ("user:" ++ toString id,u.tier.value)
    | none => some ("ip:" ++ clientIp q.1,"anonymous")

/-- Redis as cells under the keys of the buckets, and the script as the answer to a request. -/
def buckets (users : UsersTable) : Service String (Option Bucket) Resolved Bool where
  key q := (bucketOf users q).map (fun b => Limiter.keyOf b.1)
  answer q cell :=
    let run := script (configOf (((bucketOf users q).map Prod.snd).getD "anonymous")) q.1.now cell
    (some run.1,run.2.result.1)
  refusal _ := false

variable {s : Api} {cache : TierCache}

def Api.cells (s : Api) : String → Option Bucket := s.limiter.buckets.get?

section
variable {users : UsersTable} {q : Resolved} {identifier tier : String} (named : bucketOf users q = some (identifier,tier))
include named

end

/-- Once the right entry has expired, a request is taken for what it may be, and other keys are as before. -/
theorem Takes.reached {users : UsersTable} {view : Option String → Option TierCache.Caller} {q : Resolved} (takes : Takes users view q) :
    ∃ keys : List String, ∃ after : Option String → Option TierCache.Caller,
      (∀ events, resolve users view (keys.map .lapse ++ events) = resolve users after events) ∧
        after q.1.xApiKey = q.2 ∧ ∀ other, other ≠ q.1.xApiKey → after other = view other := by
  rcases takes with seen | ⟨key,own,again⟩
  · exact ⟨[],view,fun _ => rfl,seen.symm,fun _ _ => rfl⟩
  · refine ⟨[key],Function.update view (some key) (uncached users key),fun _ => rfl,?_,?_⟩
    · rw [own,Function.update_self,again]
    · rw [own]
      exact fun other differs => Function.update_of_ne differs ..

/-! ### Sharing a bucket -/

variable {a b : Account s.cache.users} {hostsA hostsB : Set String} {endpoints : Set Endpoint}

/-- Every tier has a whole token to give. -/
theorem one_le_capacity (tier : String) : 1 ≤ (configOf tier).capacity := by
  unfold configOf
  cases known : tierConfig.get? tier with
  | none => exact (by decide : (1 : ℚ) ≤ 50)
  | some cfg =>
    have all : ∀ e ∈ tierConfig.entries, 1 ≤ e.2.capacity := by decide
    exact all (tier,cfg) ((Dict.mem_entries_iff _ _ _).mpr known)

/-- After as many scripts at one instant as this, a bucket of the capacity has at most so much left. -/
def Drained (cfg : BucketConfig) (now : ℚ) (n : ℕ) (b : Bucket) : Prop :=
  b.lastRefill = now ∧ b.tokens ≤ cfg.capacity ∧ (b.tokens < 1 ∨ b.tokens ≤ cfg.capacity - n)

theorem script_tokens (cfg : BucketConfig) (now : ℚ) (data : Option Bucket) :
    (script cfg now data).1.tokens = Metering.leave (refilled cfg now data) ∧ (script cfg now data).1.lastRefill = now := by
  unfold script
  dsimp only
  split
  · exact ⟨rfl,rfl⟩
  · exact ⟨rfl,rfl⟩

/-- A script at the instant of the last one finds what that one left. -/
theorem refilled_same_instant (cfg : BucketConfig) (b : Bucket) : refilled cfg b.lastRefill (some b) = min cfg.capacity b.tokens := by
  show Metering.credit cfg.capacity b.tokens (max 0 (b.lastRefill - b.lastRefill) * cfg.refillPerSec) = _
  rw [sub_self,max_self,zero_mul,Metering.credit,add_zero]

theorem Drained.next {cfg : BucketConfig} {now : ℚ} {n : ℕ} {b : Bucket} (drained : Drained cfg now n b) :
    Drained cfg now (n + 1) (script cfg now (some b)).1 := by
  obtain ⟨rfl,full,left⟩ := drained
  obtain ⟨tokens,instant⟩ := script_tokens cfg b.lastRefill (some b)
  rw [refilled_same_instant,min_eq_right full] at tokens
  unfold Drained
  rw [tokens,instant,Metering.leave,Nat.cast_succ]
  refine ⟨rfl,?_⟩
  split
  · next enough =>
    refine ⟨by linarith,.inr ?_⟩
    rcases left with few | counted
    · linarith
    · linarith
  · next few => exact ⟨full,.inl (lt_of_not_ge few)⟩

section
variable {users : UsersTable} {a b : Account users} {hosts hostsA hostsB : Set String} {r : Request}

theorem Account.row (a : Account users) : users.rows.get? a.id = some a.user ∧ a.user.isActive = true := by
  obtain ⟨row,-,active⟩ := (UsersTable.findByKey_eq_some_iff ..).mp a.found
  exact ⟨row,active⟩

/-- The user's token and the user's key lead to the user. -/
theorem userOf_of_token (token : r.bearer = some a.id) : userOf users r = some (a.id,a.user) := by
  obtain ⟨row,active⟩ := a.row
  rw [userOf,token,Option.bind_some,row,Option.filter_some,if_pos active]
  rfl
theorem userOf_of_key (noToken : r.bearer = none) (key : r.xApiKey = some a.user.apiKey) : userOf users r = some (a.id,a.user) := by
  rw [userOf,noToken,key,Option.bind_none,Option.none_or,Option.bind_some,if_neg a.named,a.found]

theorem With.userOf (sent : With a hosts r) : userOf users r = some (a.id,a.user) := by
  obtain ⟨key,noToken | token,-⟩ := sent
  · exact userOf_of_key noToken key
  · exact userOf_of_token token
theorem From.userOf (sent : From b hosts r) : userOf users r = none ∨ userOf users r = some (b.id,b.user) := by
  obtain ⟨noKey | key,noToken | token,-⟩ := sent
  · refine .inl ?_
    rw [ClientIsolation.userOf,noToken,noKey]
    rfl
  · exact .inr (userOf_of_token token)
  · exact .inr (userOf_of_key noToken key)
  · exact .inr (userOf_of_token token)

end

section
variable {q : Resolved} {hosts : Set String}

/-- A request with a user's key is taken for one of the tiers of the key. -/
theorem takes_of_key (key : q.1.xApiKey = some a.user.apiKey) :
    Takes s.cache.users (callerOf s.cache) q ↔ ∃ t ∈ tiersOf s a, q.2 = some (.tier t) := by
  have row : uncached s.cache.users a.user.apiKey = some (.tier a.user.tier) := congrArg _ a.found
  rw [Takes,key,callerOf,row]
  constructor
  · rintro (seen | ⟨_,own,again⟩)
    · cases cached : s.cache.tierOf.get? a.user.apiKey with
      | none =>
        rw [cached] at seen
        exact ⟨a.user.tier,.inr rfl,seen⟩
      | some t =>
        rw [cached] at seen
        exact ⟨t,.inl cached,seen⟩
    · rw [← Option.some.inj own,row] at again
      exact ⟨a.user.tier,.inr rfl,again⟩
  · rintro ⟨t,cached | rfl,seen⟩
    · rw [cached]
      exact .inl seen
    · exact .inr ⟨a.user.apiKey,rfl,seen.trans row.symm⟩

theorem takes_of_no_key (noKey : q.1.xApiKey = none) :
    Takes s.cache.users (callerOf s.cache) q ↔ q.2 = some .anonymous := by
  rw [Takes,noKey]
  constructor
  · rintro (seen | ⟨_,impossible,-⟩)
    · exact seen
    · cases impossible
  · exact .inl

/-- The buckets of requests with the user's key. -/
theorem With.bucket (sent : With a hosts q.1) (takes : Takes s.cache.users (callerOf s.cache) q) {identifier tier : String}
    (named : bucketOf s.cache.users q = some (identifier,tier)) :
    q.1.endpoint = .data ∧ (∃ t ∈ tiersOf s a, identifier = "ip:" ++ clientIp q.1 ++ ":" ++ t.value) ∨
      q.1.endpoint = .auth ∧ identifier = "user:" ++ toString a.id := by
  cases endpoint : q.1.endpoint with
  | data =>
    obtain ⟨t,own,taken⟩ := (takes_of_key sent.1).mp takes
    rw [bucketOf,endpoint] at named
    dsimp only at named
    rw [taken] at named
    cases named
    exact .inl ⟨rfl,t,own,rfl⟩
  | auth =>
    rw [bucketOf,endpoint] at named
    dsimp only at named
    rw [sent.userOf] at named
    cases named
    exact .inr ⟨rfl,rfl⟩

/-- The buckets of requests of the user, known or not. -/
theorem From.bucket (sent : From b hosts q.1) (takes : Takes s.cache.users (callerOf s.cache) q) {identifier tier : String}
    (named : bucketOf s.cache.users q = some (identifier,tier)) :
    q.1.endpoint = .data ∧ (∃ caller : TierCache.Caller, (caller = .anonymous ∨ ∃ t ∈ tiersOf s b, caller = .tier t) ∧
      identifier = "ip:" ++ clientIp q.1 ++ ":" ++ caller.value) ∨
    q.1.endpoint = .auth ∧ (identifier = "ip:" ++ clientIp q.1 ∨ identifier = "user:" ++ toString b.id) := by
  cases endpoint : q.1.endpoint with
  | data =>
    rw [bucketOf,endpoint] at named
    dsimp only at named
    rcases sent.1 with noKey | key
    · rw [(takes_of_no_key noKey).mp takes] at named
      cases named
      exact .inl ⟨rfl,.anonymous,.inl rfl,rfl⟩
    · obtain ⟨t,own,taken⟩ := (takes_of_key key).mp takes
      rw [taken] at named
      cases named
      exact .inl ⟨rfl,.tier t,.inr ⟨t,own,rfl⟩,rfl⟩
  | auth =>
    rw [bucketOf,endpoint] at named
    dsimp only at named
    rcases sent.userOf with nobody | somebody
    · rw [nobody] at named
      cases named
      exact .inr ⟨rfl,.inl rfl⟩
    · rw [somebody] at named
      cases named
      exact .inr ⟨rfl,.inr rfl⟩

end

/-- Two free users, with nothing in Redis. -/
def twoFree : Api where
  cache := ⟨((UsersTable.empty.set 1 ⟨"key-1",.free,true,none⟩).bind (·.set 2 ⟨"key-2",.free,true,none⟩)).getD .empty,.empty,.empty⟩
  limiter := Limiter.start .empty
def first : Account twoFree.cache.users := ⟨1,⟨"key-1",.free,true,none⟩,by decide,by decide⟩
def second : Account twoFree.cache.users := ⟨2,⟨"key-2",.free,true,none⟩,by decide,by decide⟩

end ClientIsolation
end FundingRadar
