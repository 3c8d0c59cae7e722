import Mathlib.Algebra.BigOperators.Ring.List
import Mathlib.Data.Rat.Floor
import FundingRadar.Dict
import FundingRadar.Metering

/-!
The token bucket in Redis. `script` is the Lua script on the hash of one bucket, which
Redis runs atomically; `check` is the call of a process, which loads the script once
and keeps its SHA. Every call carries the time that it read before its script runs.
Numbers are exact.
-/
namespace FundingRadar
open Metering

/-- `_BucketConfig`. -/
structure BucketConfig where
  capacity : ℚ
  refillPerSec : ℚ
  capacityNonneg : 0 ≤ capacity
  refillPos : 0 < refillPerSec

namespace RateLimiter

theorem per_minute_pos {requests : ℚ} (positive : 0 < requests) : 0 < requests / 60 := div_pos positive (by norm_num)

def free : BucketConfig := ⟨50,300 / 60,by decide,per_minute_pos (by decide)⟩
/-- `_TIER_CONFIG`. -/
def tierConfig : Dict String BucketConfig :=
  ⟨[("anonymous",⟨60,120 / 60,by decide,per_minute_pos (by decide)⟩),
    ("free",free),
    ("pro",⟨200,1200 / 60,by decide,per_minute_pos (by decide)⟩),
    ("custom",⟨1000,12000 / 60,by decide,per_minute_pos (by decide)⟩)],by decide⟩
/-- `_TIER_CONFIG.get(tier, _TIER_CONFIG["free"])`. -/
def configOf (tier : String) : BucketConfig := (tierConfig.get? tier).getD free

/-- The hash of a bucket. -/
structure Bucket where
  tokens : ℚ
  lastRefill : ℚ
  nonneg : 0 ≤ tokens

/-- What the script returns. -/
structure Reply where
  allowed : ℤ
  tokens : ℤ
  retryAfterMs : ℤ
deriving DecidableEq

/-- The tokens that the script finds after it has refilled. -/
def refilled (cfg : BucketConfig) (now : ℚ) (data : Option Bucket) : ℚ :=
  let tokens := (data.map Bucket.tokens).getD cfg.capacity
  let lastRefill := (data.map Bucket.lastRefill).getD now
  let elapsed := max 0 (now - lastRefill)
  credit cfg.capacity tokens (elapsed * cfg.refillPerSec)

theorem refilled_nonneg (cfg : BucketConfig) (now : ℚ) (data : Option Bucket) : 0 ≤ refilled cfg now data := by
  have tokens : 0 ≤ (data.map Bucket.tokens).getD cfg.capacity := by
    cases data with
    | none => exact cfg.capacityNonneg
    | some b => exact b.nonneg
  have elapsed : 0 ≤ max 0 (now - (data.map Bucket.lastRefill).getD now) := le_max_left ..
  exact credit_nonneg cfg.capacityNonneg tokens (mul_nonneg elapsed cfg.refillPos.le)

/-- `_LUA`: the hash that the script writes, and its reply. -/
def script (cfg : BucketConfig) (now : ℚ) (data : Option Bucket) : Bucket × Reply :=
  let tokens := refilled cfg now data
  let left : Bucket := ⟨leave tokens,now,leave_nonneg (refilled_nonneg cfg now data)⟩
  if 1 ≤ tokens then (left,⟨1,⌊left.tokens * 1000⌋,0⟩)
  else (left,⟨0,⌊left.tokens * 1000⌋,⌈(1 - tokens) / cfg.refillPerSec * 1000⌉⟩)

/-- `(allowed, retry_after_sec)`. -/
def Reply.result (r : Reply) : Bool × ℤ := (decide (r.allowed ≠ 0),max 1 ((r.retryAfterMs + 999) / 1000))

/-- The SHA1 of `_LUA`. -/
def luaSha : String := "188f548bd0cb9fc0e96c8fe499d8b2bac91e92fa"

/-- The script cache and the buckets of the Redis server, and the `_sha` of every process. -/
structure Limiter where
  scripts : List String
  buckets : Dict String Bucket
  shas : Dict ℕ String

namespace Limiter

/-- A call of `TokenBucket.check`: its process, its arguments, the time that it read, and
    how many of its commands succeed before Redis becomes unreachable. -/
structure Call where
  process : ℕ
  identifier : String
  tier : String
  now : ℚ
  redis : ℕ
deriving DecidableEq

/-- As many commands as no call exceeds. -/
def reachable : ℕ := 2

/-- `_get_sha`, and how many commands are left. -/
def getSha (s : Limiter) (process redis : ℕ) : Limiter × Option (String × ℕ) :=
  match s.shas.get? process,redis with
  | some sha,_ => (s,some (sha,redis))
  | none,0 => (s,none)
  | none,left + 1 =>
    ({ s with scripts := luaSha :: s.scripts, shas := s.shas.insert process luaSha },some (luaSha,left))

/-- `evalsha`, which raises for a script that is not in the cache. -/
def evalsha (s : Limiter) (sha key : String) (cfg : BucketConfig) (now : ℚ) : Limiter × Option Reply :=
  if sha ∈ s.scripts then
    let r := script cfg now (s.buckets.get? key)
    ({ s with buckets := s.buckets.insert key r.1 },some r.2)
  else (s,none)

/-- `rl:{identifier}`. -/
def keyOf (identifier : String) : String := "rl:" ++ identifier

/-- What the script decides on the stored bucket. -/
def decision (s : Limiter) (c : Call) : Bool × ℤ :=
  (script (configOf c.tier) c.now (s.buckets.get? (keyOf c.identifier))).2.result

/-- A call with its SHA, which is allowed if Redis does not know it. -/
def evaluate (s : Limiter) (sha : String) (c : Call) : Limiter × (Bool × ℤ) :=
  match s.evalsha sha (keyOf c.identifier) (configOf c.tier) c.now with
  | (s',none) => (s',true,0)
  | (s',some reply) => (s',reply.result)

/-- `TokenBucket.check`, which allows whatever raises. -/
def check (s : Limiter) (c : Call) : Limiter × (Bool × ℤ) :=
  match s.getSha c.process c.redis with
  | (s',none) => (s',true,0)
  | (s',some (sha,left)) => if left = 0 then (s',true,0) else s'.evaluate sha c

variable {s : Limiter} {c : Call} {sha : String}

/-- The limiter once a process has loaded the script. -/
def load (s : Limiter) (process : ℕ) : Limiter :=
  { s with scripts := luaSha :: s.scripts, shas := s.shas.insert process luaSha }

theorem evaluate_known (known : sha ∈ s.scripts) :
    s.evaluate sha c =
      (⟨s.scripts,s.buckets.insert (keyOf c.identifier)
        (script (configOf c.tier) c.now (s.buckets.get? (keyOf c.identifier))).1,s.shas⟩,s.decision c) := by
  unfold evaluate evalsha
  rw [if_pos known]
  rfl
theorem evaluate_unknown (unknown : sha ∉ s.scripts) : s.evaluate sha c = (s,true,0) := by
  unfold evaluate evalsha
  rw [if_neg unknown]

theorem check_kept (kept : s.shas.get? c.process = some sha) :
    s.check c = if c.redis = 0 then (s,true,0) else s.evaluate sha c := by
  unfold check getSha
  rw [kept]
theorem check_first (fresh : s.shas.get? c.process = none) :
    s.check c = if c.redis = 0 then (s,true,0) else if c.redis = 1 then (s.load c.process,true,0)
      else (s.load c.process).evaluate luaSha c := by
  unfold check getSha
  rw [fresh]
  cases c.redis with
  | zero => rfl
  | succ n =>
    cases n with
    | zero => rfl
    | succ n => rfl

/-- Every process that keeps a SHA finds its script. -/
def Serving (s : Limiter) : Prop := ∀ process sha, s.shas.get? process = some sha → sha ∈ s.scripts

theorem Serving.load (serving : s.Serving) (process : ℕ) : (s.load process).Serving := by
  intro other sha kept
  change (s.shas.insert process luaSha).get? other = some sha at kept
  rw [Dict.get?_insert] at kept
  split at kept
  · cases kept
    exact List.mem_cons_self ..
  · exact List.mem_cons_of_mem _ (serving other sha kept)

/-- While Redis is reachable and every SHA is known to it, a call is its script. -/
theorem Serving.check (serving : s.Serving) (answers : reachable ≤ c.redis) :
    (s.check c).1.Serving ∧ (s.check c).2 = s.decision c ∧
    (s.check c).1.buckets =
      s.buckets.insert (keyOf c.identifier) (script (configOf c.tier) c.now (s.buckets.get? (keyOf c.identifier))).1 := by
  have enough : 2 ≤ c.redis := answers
  have reached : ¬ c.redis = 0 := by omega
  have further : ¬ c.redis = 1 := by omega
  cases kept : s.shas.get? c.process with
  | some sha =>
    rw [check_kept kept,if_neg reached,evaluate_known (serving c.process sha kept)]
    exact ⟨serving,rfl,rfl⟩
  | none =>
    have known : luaSha ∈ (s.load c.process).scripts := List.mem_cons_self ..
    rw [check_first kept,if_neg reached,if_neg further,evaluate_known known]
    exact ⟨serving.load c.process,rfl,rfl⟩

/-! ### The calls on one identifier -/

/-- The limiter before the first call of a process, over some buckets. -/
def start (buckets : Dict String Bucket) : Limiter := ⟨[],buckets,.empty⟩

/-- Calls on one identifier, each of some process and with the time that it carries, in
    the order in which Redis runs their scripts. -/
def callsOn (identifier tier : String) (arrivals : List (ℕ × ℚ)) : List Call :=
  arrivals.map (fun a => ⟨a.1,identifier,tier,a.2,reachable⟩)

/-- How many of a sequence of calls are allowed. -/
def allowed : Limiter → List Call → ℕ
  | _,[] => 0
  | s,c :: rest => (if (s.check c).2.1 then 1 else 0) + allowed (s.check c).1 rest

theorem decision_allowed (s : Limiter) (c : Call) :
    (if (s.decision c).1 then 1 else 0) = take (refilled (configOf c.tier) c.now (s.buckets.get? (keyOf c.identifier))) := by
  unfold decision script Reply.result take
  dsimp only
  split
  · simp
  · simp

/-- The first of a sequence of calls, and what it leaves in the bucket. -/
theorem Serving.first (serving : s.Serving) (identifier tier : String) (process : ℕ) (now : ℚ) (rest : List (ℕ × ℚ)) :
    ∃ s' : Limiter, s'.Serving ∧
      s'.buckets.get? (keyOf identifier) =
        some ⟨leave (refilled (configOf tier) now (s.buckets.get? (keyOf identifier))),now,
          leave_nonneg (refilled_nonneg _ _ _)⟩ ∧
      s.allowed (callsOn identifier tier ((process,now) :: rest)) =
        take (refilled (configOf tier) now (s.buckets.get? (keyOf identifier))) + s'.allowed (callsOn identifier tier rest) := by
  obtain ⟨servingAfter,answer,buckets⟩ := serving.check (c := ⟨process,identifier,tier,now,reachable⟩) (le_refl _)
  refine ⟨_,servingAfter,?_,?_⟩
  · rw [buckets,Dict.get?_insert_self]
    unfold script
    dsimp only
    split
    · rfl
    · rfl
  · have first := decision_allowed s ⟨process,identifier,tier,now,reachable⟩
    show (if (s.check ⟨process,identifier,tier,now,reachable⟩).2.1 then 1 else 0) +
      allowed (s.check ⟨process,identifier,tier,now,reachable⟩).1 (callsOn identifier tier rest) = _
    rw [answer,first]

/-- From a stored bucket the calls get what a meter hands out that is credited for the
    forward movements of the times. -/
theorem Serving.allowed_eq_served (serving : s.Serving) (identifier tier : String) (arrivals : List (ℕ × ℚ)) {b : Bucket}
    (stored : s.buckets.get? (keyOf identifier) = some b) :
    s.allowed (callsOn identifier tier arrivals) =
      served (configOf tier).capacity b.tokens
        ((movements b.lastRefill (arrivals.map Prod.snd)).map (· * (configOf tier).refillPerSec)) := by
  induction arrivals generalizing s b with
  | nil => rfl
  | cons a rest ih =>
    obtain ⟨process,now⟩ := a
    obtain ⟨s',servingAfter,storedAfter,first⟩ := serving.first identifier tier process now rest
    rw [first,ih servingAfter storedAfter,stored]
    rfl

/-- Whatever the order of arrival, the calls are paid for by a full bucket and by the
    forward movements between scripts that run one after the other. -/
theorem Serving.allowed_le (serving : s.Serving) (identifier tier : String) (arrivals : List (ℕ × ℚ)) :
    (s.allowed (callsOn identifier tier arrivals) : ℚ) ≤
      (configOf tier).capacity + (configOf tier).refillPerSec * rise (arrivals.map Prod.snd) := by
  cases arrivals with
  | nil =>
    show ((0 : ℕ) : ℚ) ≤ (configOf tier).capacity + (configOf tier).refillPerSec * 0
    rw [Nat.cast_zero,mul_zero,add_zero]
    exact (configOf tier).capacityNonneg
  | cons a rest =>
    obtain ⟨process,now⟩ := a
    obtain ⟨s',servingAfter,storedAfter,first⟩ := serving.first identifier tier process now rest
    rw [first,servingAfter.allowed_eq_served identifier tier rest storedAfter,Nat.cast_add]
    have forward : ∀ amount ∈ (movements now (rest.map Prod.snd)).map (· * (configOf tier).refillPerSec), 0 ≤ amount := by
      intro amount member
      obtain ⟨movement,moved,rfl⟩ := List.mem_map.mp member
      exact mul_nonneg (movements_nonneg now _ movement moved) (configOf tier).refillPos.le
    have paid := served_le _ (configOf tier).capacityNonneg (leave_nonneg (refilled_nonneg (configOf tier) now
      (s.buckets.get? (keyOf identifier)))) forward
    have total : ((movements now (rest.map Prod.snd)).map (· * (configOf tier).refillPerSec)).sum =
        (configOf tier).refillPerSec * riseFrom now (rest.map Prod.snd) := by
      rw [List.sum_map_mul_right,List.map_id',movements_sum,mul_comm]
    have account := take_add_leave (refilled (configOf tier) now (s.buckets.get? (keyOf identifier)))
    have full : refilled (configOf tier) now (s.buckets.get? (keyOf identifier)) ≤ (configOf tier).capacity :=
      credit_le_capacity ..
    rw [total] at paid
    show _ ≤ (configOf tier).capacity + (configOf tier).refillPerSec * riseFrom now (rest.map Prod.snd)
    linarith

theorem start_serving (buckets : Dict String Bucket) : (start buckets).Serving := by
  intro process sha kept
  cases kept

/-- The calls are no more than a full bucket and the refill from the smallest to the
    largest time that they carry. -/
def Bounded (buckets : Dict String Bucket) (identifier tier : String) (arrivals : List (ℕ × ℚ)) : Prop :=
  ((start buckets).allowed (callsOn identifier tier arrivals) : ℚ) ≤
    (configOf tier).capacity + (configOf tier).refillPerSec * span (arrivals.map Prod.snd)

/-- The bound holds whenever the times, in the order of the scripts, move forward by no
    more than the stretch that they cover. -/
theorem bounded_of_rise_le_span (buckets : Dict String Bucket) (identifier tier : String) (arrivals : List (ℕ × ℚ))
    (once : rise (arrivals.map Prod.snd) ≤ span (arrivals.map Prod.snd)) : Bounded buckets identifier tier arrivals := by
  have paid := (start_serving buckets).allowed_le identifier tier arrivals
  have refill := mul_le_mul_of_nonneg_left once (configOf tier).refillPos.le
  unfold Bounded
  linarith

/-- The times of the scripts of a single process that waits for every answer. -/
theorem bounded_of_sorted (buckets : Dict String Bucket) (identifier tier : String) (arrivals : List (ℕ × ℚ))
    (forward : (arrivals.map Prod.snd).Pairwise (· ≤ ·)) : Bounded buckets identifier tier arrivals :=
  bounded_of_rise_le_span buckets identifier tier arrivals (rise_le_span _ forward)

/-- Two processes whose scripts run in turn, the second one always a second earlier. -/
def turns : List (ℕ × ℚ) := (List.range 63).map (fun i => if i % 2 = 0 then (0,1700000001) else (1,1700000000))

instance (buckets : Dict String Bucket) (identifier tier : String) (arrivals : List (ℕ × ℚ)) :
    Decidable (Bounded buckets identifier tier arrivals) := inferInstanceAs (Decidable (_ ≤ _))

theorem turns_exceed_the_bound : ¬ Bounded .empty "ip:10.0.0.1" "anonymous" turns := by decide +kernel

/-- A time that goes back once and does not rise again is within the bound. -/
theorem late_script_is_bounded :
    rise [1700000001,1700000002,(1700000000 : ℚ)] ≤ span [1700000001,1700000002,(1700000000 : ℚ)] ∧
      Bounded .empty "ip:10.0.0.1" "anonymous" [(0,1700000001),(1,1700000002),(0,1700000000)] := by
  have once : rise [1700000001,1700000002,(1700000000 : ℚ)] ≤ span [1700000001,1700000002,(1700000000 : ℚ)] := by
    decide +kernel
  exact ⟨once,bounded_of_rise_le_span .empty "ip:10.0.0.1" "anonymous" [(0,1700000001),(1,1700000002),(0,1700000000)] once⟩

end Limiter
end RateLimiter
end FundingRadar
