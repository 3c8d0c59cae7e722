import FundingRadar.RateLimiter
import FundingRadar.Runs

/-!
The limiter with the lifetime of its keys. Every script renews the lifetime of its bucket,
and Redis deletes what has not been used for that long. A bucket whose key is gone is a
full one, and no call can tell it from the bucket that was deleted (`alike_idle`), since
every tier fills its bucket within the lifetime. A denied call names a time after which
its bucket has a token, deleted or not.
-/
namespace FundingRadar.RateLimiter
open Metering

/-- `_TTL_SECONDS`. -/
def ttlSeconds : ℚ := 120

variable {now : ℚ} {tier : String} {data : Option Bucket}

/-! ### What every tier has -/

theorem configOf_listed (tier : String) : configOf tier ∈ tierConfig.values := by
  unfold configOf
  cases found : tierConfig.get? tier with
  | none => exact (Dict.mem_values_iff _ _).mpr ⟨"free",rfl⟩
  | some cfg => exact (Dict.mem_values_iff _ _).mpr ⟨tier,found⟩

/-- Every tier fills its bucket within the lifetime of a key. -/
theorem capacity_le_refill (tier : String) : (configOf tier).capacity ≤ ttlSeconds * (configOf tier).refillPerSec := by
  have all : ∀ cfg ∈ tierConfig.values, cfg.capacity ≤ ttlSeconds * cfg.refillPerSec := by decide +kernel
  exact all _ (configOf_listed tier)
theorem one_le_capacity (tier : String) : 1 ≤ (configOf tier).capacity := by
  have all : ∀ cfg ∈ tierConfig.values, 1 ≤ cfg.capacity := by decide +kernel
  exact all _ (configOf_listed tier)

/-! ### Buckets that no call can tell apart -/

/-- Every call from some time on finds the same tokens in both. -/
def Alike (now : ℚ) (a b : Option Bucket) : Prop :=
  ∀ tier later, now ≤ later → refilled (configOf tier) later a = refilled (configOf tier) later b

theorem Alike.refl (now : ℚ) (data : Option Bucket) : Alike now data data := fun _ _ _ => rfl
theorem Alike.trans {a b c : Option Bucket} (first : Alike now a b) (second : Alike now b c) : Alike now a c :=
  fun tier later after => (first tier later after).trans (second tier later after)
theorem Alike.mono {before : ℚ} {a b : Option Bucket} (alike : Alike before a b) (le : before ≤ now) : Alike now a b :=
  fun tier later after => alike tier later (le.trans after)

theorem refilled_none (cfg : BucketConfig) (now : ℚ) : refilled cfg now none = cfg.capacity := by
  have idle : max 0 (now - now) * cfg.refillPerSec = 0 := by rw [sub_self,max_self,zero_mul]
  show credit cfg.capacity cfg.capacity (max 0 (now - now) * cfg.refillPerSec) = cfg.capacity
  rw [idle,credit,add_zero,min_self]

/-- What has been refilled beyond the capacity is full. -/
theorem refilled_full {cfg : BucketConfig} {b : Bucket}
    (enough : cfg.capacity ≤ b.tokens + max 0 (now - b.lastRefill) * cfg.refillPerSec) :
    refilled cfg now (some b) = cfg.capacity := min_eq_left enough

/-- A bucket that is about to be deleted is full for every tier. -/
theorem alike_idle {b : Bucket} (idle : b.lastRefill + ttlSeconds ≤ now) : Alike now none (some b) := by
  intro tier later after
  have waited : ttlSeconds ≤ max 0 (later - b.lastRefill) := le_max_of_le_right (by linarith)
  have refill := mul_le_mul_of_nonneg_right waited (configOf tier).refillPos.le
  have enough := capacity_le_refill tier
  have held := b.nonneg
  rw [refilled_none,refilled_full (by linarith)]

/-- A bucket that is full for every tier, whenever it was filled. -/
def fullBucket : Bucket := ⟨1000,0,Nat.ofNat_nonneg 1000⟩

theorem alike_fullBucket (now : ℚ) : Alike now none (some fullBucket) := by
  intro tier later _
  have all : ∀ cfg ∈ tierConfig.values, cfg.capacity ≤ fullBucket.tokens := by decide +kernel
  have full := all _ (configOf_listed tier)
  have refill := mul_nonneg (le_max_left 0 (later - fullBucket.lastRefill)) (configOf tier).refillPos.le
  rw [refilled_none,refilled_full (by linarith)]

/-- The script reads nothing of a bucket but its tokens after the refill. -/
theorem script_congr {cfg : BucketConfig} {a b : Option Bucket} (same : refilled cfg now a = refilled cfg now b) :
    script cfg now a = script cfg now b := by
  unfold script
  simp only [same]

theorem script_bounded (cfg : BucketConfig) (now : ℚ) (data : Option Bucket) : (script cfg now data).1.tokens ≤ cfg.capacity := by
  have full : refilled cfg now data ≤ cfg.capacity := credit_le_capacity ..
  have kept : leave (refilled cfg now data) ≤ refilled cfg now data := by
    unfold leave
    split
    · linarith
    · exact le_refl _
  unfold script
  dsimp only
  split
  · exact kept.trans full
  · exact kept.trans full

namespace Limiter

/-! ### The limiter with lifetimes -/

/-- The buckets whose lifetime is not over. -/
def expire (s : Limiter) (now : ℚ) : Limiter :=
  { s with buckets := s.buckets.filter (fun e => decide (now < e.2.lastRefill + ttlSeconds)) }
/-- `TokenBucket.check` on a Redis that has deleted what was not used for long enough. -/
def checkExpiring (s : Limiter) (c : Call) : Limiter × (Bool × ℤ) := (s.expire c.now).check c

/-- What a sequence of calls returns. -/
def decisions (check : Limiter → Call → Limiter × (Bool × ℤ)) : Limiter → List Call → List (Bool × ℤ)
  | _,[] => []
  | s,c :: rest => (check s c).2 :: decisions check (check s c).1 rest
/-- A run of new processes on an empty Redis. -/
def runExpiring (calls : List Call) : Limiter := calls.foldl (fun s c => (s.checkExpiring c).1) (start .empty)

/-- The call gets as far as its script. -/
def runsScript (s : Limiter) (c : Call) : Bool :=
  match (s.getSha c.process c.redis).2 with
  | none => false
  | some (_,left) => left ≠ 0

/-- The calls of a run that get as far as their scripts. -/
def used : Limiter → List Call → List Call
  | _,[] => []
  | s,c :: rest => (if s.runsScript c then [c] else []) ++ used (s.checkExpiring c).1 rest

variable {s : Limiter} {c : Call}

theorem getSha_serving (serving : s.Serving) (process redis : ℕ) : (s.getSha process redis).1.Serving := by
  unfold getSha
  cases kept : s.shas.get? process with
  | some sha => exact serving
  | none =>
    cases redis with
    | zero => exact serving
    | succ left => exact serving.load process

/-- The SHA that a call gets is known to Redis. -/
theorem getSha_known (serving : s.Serving) {process redis left : ℕ} {sha : String}
    (got : (s.getSha process redis).2 = some (sha,left)) : sha ∈ (s.getSha process redis).1.scripts := by
  unfold getSha at got ⊢
  cases kept : s.shas.get? process with
  | some known =>
    rw [kept] at got
    cases got
    exact serving process _ kept
  | none =>
    rw [kept] at got
    cases redis with
    | zero => cases got
    | succ left =>
      cases got
      exact List.mem_cons_self ..

/-- Loading the script neither reads nor writes the buckets. -/
theorem getSha_buckets (s : Limiter) (buckets : Dict String Bucket) (process redis : ℕ) :
    ({ s with buckets := buckets } : Limiter).getSha process redis =
      ({ (s.getSha process redis).1 with buckets := buckets },(s.getSha process redis).2) := by
  unfold getSha
  cases s.shas.get? process with
  | some sha => rfl
  | none =>
    cases redis with
    | zero => rfl
    | succ left => rfl

theorem getSha_keeps (s : Limiter) (process redis : ℕ) : (s.getSha process redis).1.buckets = s.buckets :=
  congrArg (fun p => p.1.buckets) (getSha_buckets s s.buckets process redis)

theorem runsScript_buckets (s : Limiter) (buckets : Dict String Bucket) (c : Call) :
    ({ s with buckets := buckets } : Limiter).runsScript c = s.runsScript c := by
  unfold runsScript
  rw [getSha_buckets]

/-- What a call does to the bucket and returns, where every SHA is known. -/
theorem Serving.check_eq (serving : s.Serving) (c : Call) :
    s.check c =
      if s.runsScript c then
        ({ (s.getSha c.process c.redis).1 with
            buckets := s.buckets.insert (keyOf c.identifier) (script (configOf c.tier) c.now (s.buckets.get? (keyOf c.identifier))).1 },
          s.decision c)
      else ((s.getSha c.process c.redis).1,true,0) := by
  have same := getSha_keeps s c.process c.redis
  have known := fun sha left => @getSha_known s serving c.process c.redis left sha
  unfold Limiter.check runsScript
  rcases front : s.getSha c.process c.redis with ⟨loaded,got⟩
  rw [front] at same known
  cases got with
  | none => rfl
  | some entry =>
    obtain ⟨sha,left⟩ := entry
    by_cases empty : left = 0
    · simp [empty]
    · have decided : loaded.decision c = s.decision c := by
        unfold decision
        rw [same]
      simp only [empty,ne_eq,not_false_eq_true,decide_true,if_false,if_true]
      rw [evaluate_known (known sha left rfl),same,decided]

theorem Serving.check_serving (serving : s.Serving) (c : Call) : (s.check c).1.Serving := by
  rw [serving.check_eq]
  split
  · exact getSha_serving serving c.process c.redis
  · exact getSha_serving serving c.process c.redis

/-! ### Deleted and remembered buckets -/

/-- No call from some time on tells two sets of buckets apart. -/
def Unnoticed (now : ℚ) (forgot kept : Dict String Bucket) : Prop := ∀ key, Alike now (forgot.get? key) (kept.get? key)

variable {before : ℚ} {forgot kept : Dict String Bucket}

theorem get?_expire (s : Limiter) (now : ℚ) (key : String) :
    (s.expire now).buckets.get? key = (s.buckets.get? key).filter (fun b => decide (now < b.lastRefill + ttlSeconds)) :=
  Dict.get?_filter ..

theorem expire_forgets (s : Limiter) (now : ℚ) (key : String) :
    (s.expire now).buckets.get? key = none ∨ (s.expire now).buckets.get? key = s.buckets.get? key := by
  rw [get?_expire]
  cases s.buckets.get? key with
  | none => exact .inl rfl
  | some b =>
    rw [Option.filter_some]
    split
    · exact .inr rfl
    · exact .inl rfl

theorem Unnoticed.expire (same : Unnoticed before s.buckets kept) (le : before ≤ now) :
    Unnoticed now (s.expire now).buckets kept := by
  intro key
  have earlier := (same key).mono le
  rw [get?_expire]
  cases found : s.buckets.get? key with
  | none =>
    rw [found] at earlier
    exact earlier
  | some b =>
    rw [found] at earlier
    rw [Option.filter_some]
    split
    · exact earlier
    · next expired =>
      have idle : b.lastRefill + ttlSeconds ≤ now := by simpa using expired
      exact (alike_idle idle).trans earlier

/-- A call on buckets that it cannot tell apart. -/
theorem Serving.check_unnoticed (serving : s.Serving) {c : Call} (same : Unnoticed c.now s.buckets kept) :
    (s.check c).2 = (({ s with buckets := kept } : Limiter).check c).2 ∧
    ∃ kept', (({ s with buckets := kept } : Limiter).check c).1 = { (s.check c).1 with buckets := kept' } ∧
      Unnoticed c.now (s.check c).1.buckets kept' := by
  have remembering : ({ s with buckets := kept } : Limiter).Serving := serving
  have found := script_congr (same (keyOf c.identifier) c.tier c.now (le_refl _))
  have front := getSha_buckets s kept c.process c.redis
  have unchanged := getSha_keeps s c.process c.redis
  rw [serving.check_eq,remembering.check_eq,runsScript_buckets s kept c,front]
  split
  · refine ⟨?_,_,rfl,?_⟩
    · unfold decision
      rw [found]
    · intro key
      dsimp only
      rw [Dict.get?_insert,Dict.get?_insert,found]
      split
      · exact Alike.refl c.now _
      · exact same key
  · refine ⟨rfl,kept,rfl,?_⟩
    rw [unchanged]
    exact same

/-- What Redis deletes changes no decision of a run. -/
theorem Serving.decisions_unnoticed (serving : s.Serving) {calls : List Call} (same : Unnoticed before s.buckets kept)
    (forward : (before :: calls.map Call.now).Pairwise (· ≤ ·)) :
    decisions checkExpiring s calls = decisions Limiter.check { s with buckets := kept } calls := by
  induction calls generalizing s kept before with
  | nil => rfl
  | cons c rest ih =>
    rw [List.map_cons,List.pairwise_cons] at forward
    obtain ⟨first,later⟩ := forward
    have expired := same.expire (first c.now (List.mem_cons_self ..))
    have servingExpired : (s.expire c.now).Serving := serving
    obtain ⟨answer,kept',remembered,sameAfter⟩ := servingExpired.check_unnoticed expired
    have remaining := ih (servingExpired.check_serving c) sameAfter later
    rw [decisions,decisions]
    refine List.cons_eq_cons.mpr ⟨answer,?_⟩
    exact remaining.trans (congrArg (fun r => decisions Limiter.check r rest) remembered.symm)

/-! ### What is stored -/

/-- Every bucket holds no more than the tier that was last used on it allows. -/
def WithinTiers (buckets : Dict String Bucket) (uses : List Call) : Prop :=
  ∀ identifier b, buckets.get? (keyOf identifier) = some b →
    ∃ c, (uses.filter (fun c => c.identifier = identifier)).getLast? = some c ∧ 0 ≤ b.tokens ∧
      b.tokens ≤ (configOf c.tier).capacity

theorem keyOf_injective {a b : String} (same : keyOf a = keyOf b) : a = b := (String.append_right_inj "rl:").mp same

theorem WithinTiers.expire {uses : List Call} (within : WithinTiers s.buckets uses) (now : ℚ) :
    WithinTiers (s.expire now).buckets uses := by
  intro identifier b stored
  rw [get?_expire,Option.filter_eq_some_iff] at stored
  exact within identifier b stored.1

theorem Serving.check_within (serving : s.Serving) {uses : List Call} (within : WithinTiers s.buckets uses) (c : Call) :
    WithinTiers (s.check c).1.buckets (uses ++ if s.runsScript c then [c] else []) := by
  have unchanged := getSha_keeps s c.process c.redis
  intro identifier b stored
  rw [serving.check_eq] at stored
  split at stored
  · next runs =>
    rw [if_pos runs,List.filter_append]
    dsimp only at stored
    rw [Dict.get?_insert] at stored
    by_cases own : c.identifier = identifier
    · rw [if_pos (by rw [own])] at stored
      cases stored
      refine ⟨c,?_,Bucket.nonneg _,script_bounded ..⟩
      simp [own]
    · rw [if_neg (fun same => own (keyOf_injective same).symm)] at stored
      obtain ⟨last,found,bounds⟩ := within identifier b stored
      refine ⟨last,?_,bounds⟩
      simpa [own] using found
  · next fails =>
    rw [if_neg fails,List.append_nil]
    rw [unchanged] at stored
    exact within identifier b stored

theorem Serving.run_within (serving : s.Serving) {uses : List Call} (within : WithinTiers s.buckets uses) (calls : List Call) :
    WithinTiers (calls.foldl (fun s c => (s.checkExpiring c).1) s).buckets (uses ++ used s calls) := by
  induction calls generalizing s uses with
  | nil => rwa [used,List.append_nil]
  | cons c rest ih =>
    have servingExpired : (s.expire c.now).Serving := serving
    have next := ih (servingExpired.check_serving c) (servingExpired.check_within (within.expire c.now) c)
    have runs : (s.expire c.now).runsScript c = s.runsScript c := runsScript_buckets s _ c
    rw [List.foldl_cons,used,← List.append_assoc,← runs]
    exact next

/-- A run decides as if the bucket of an identifier were full at first and were never
    deleted, and no bucket holds more than the tier that was last used on it allows. -/
theorem expiry_unnoticed (identifier : String) (calls : List Call) (forward : (calls.map Call.now).Pairwise (· ≤ ·)) :
    decisions checkExpiring (start .empty) calls =
      decisions Limiter.check (start (Dict.empty.insert (keyOf identifier) fullBucket)) calls ∧
    WithinTiers (runExpiring calls).buckets (used (start .empty) calls) := by
  have fresh : ∀ now, Unnoticed now (start .empty).buckets (Dict.empty.insert (keyOf identifier) fullBucket) := by
    intro now key
    rw [Dict.get?_insert]
    split
    · exact alike_fullBucket now
    · exact Alike.refl now none
  constructor
  · cases calls with
    | nil => rfl
    | cons c rest =>
      refine (start_serving .empty).decisions_unnoticed (fresh c.now) (List.pairwise_cons.mpr ⟨?_,forward⟩)
      intro later member
      rw [List.map_cons] at member forward
      rcases List.mem_cons.mp member with rfl | inRest
      · exact le_refl _
      · exact (List.pairwise_cons.mp forward).1 later inRest
  · have nothing : WithinTiers (start .empty).buckets [] := by
      intro identifier b stored
      cases stored
    exact (start_serving .empty).run_within nothing calls

/-- A tier that changes, an unknown tier, and a pause in which the bucket is deleted. -/
def pause : List Call :=
  [⟨0,"user:1","free",1700000000,reachable⟩,⟨1,"user:1","trial",1700000200,reachable⟩,
    ⟨0,"user:1","custom",1700000201,reachable⟩]

theorem pause_unnoticed :
    ((runExpiring (pause.take 1)).expire 1700000200).buckets.get? (keyOf "user:1") = none ∧
    decisions checkExpiring (start .empty) pause =
      decisions Limiter.check (start (Dict.empty.insert (keyOf "user:1") fullBucket)) pause ∧
    WithinTiers (runExpiring pause).buckets (used (start .empty) pause) := by
  refine ⟨?_,expiry_unnoticed "user:1" pause (by decide +kernel)⟩
  rw [← Option.isNone_iff_eq_none]
  decide +kernel

/-! ### Retrying after a denial -/

/-- The seconds of a denial cover the tokens that are missing. -/
theorem missing_le_retryAfter {cfg : BucketConfig} {data : Option Bucket} {retryAfter : ℤ}
    (denied : (script cfg now data).2.result = (false,retryAfter)) :
    1 - (script cfg now data).1.tokens ≤ retryAfter * cfg.refillPerSec := by
  unfold script at denied ⊢
  dsimp only at denied ⊢
  split at denied
  · cases congrArg Prod.fst denied
  · next short =>
    rw [if_neg short]
    dsimp only
    have left : leave (refilled cfg now data) = refilled cfg now data := if_neg short
    have seconds : max 1 ((⌈(1 - refilled cfg now data) / cfg.refillPerSec * 1000⌉ + 999) / 1000) = retryAfter :=
      congrArg Prod.snd denied
    have milliseconds := Int.le_ceil ((1 - refilled cfg now data) / cfg.refillPerSec * 1000)
    have whole : ⌈(1 - refilled cfg now data) / cfg.refillPerSec * 1000⌉ ≤ 1000 * retryAfter := by
      have larger := le_max_right 1 ((⌈(1 - refilled cfg now data) / cfg.refillPerSec * 1000⌉ + 999) / 1000)
      omega
    have exact : ((⌈(1 - refilled cfg now data) / cfg.refillPerSec * 1000⌉ : ℤ) : ℚ) ≤ 1000 * retryAfter := by
      exact_mod_cast whole
    have time : (1 - refilled cfg now data) / cfg.refillPerSec ≤ retryAfter := by linarith
    rw [left]
    exact (div_le_iff₀ cfg.refillPos).mp time

/-- What a denied call leaves in its bucket. -/
theorem Serving.denied (serving : s.Serving) {c : Call} {retryAfter : ℤ} (denied : (s.check c).2 = (false,retryAfter)) :
    ∃ b, (s.check c).1.buckets.get? (keyOf c.identifier) = some b ∧ b.lastRefill = c.now ∧
      1 - b.tokens ≤ retryAfter * (configOf c.tier).refillPerSec := by
  rw [serving.check_eq] at denied ⊢
  split at denied
  · next runs =>
    rw [if_pos runs]
    refine ⟨_,Dict.get?_insert_self ..,?_,missing_le_retryAfter denied⟩
    unfold script
    dsimp only
    split
    · rfl
    · rfl
  · cases congrArg Prod.fst denied

/-- A call on another identifier leaves a bucket as it is, unless it has been deleted. -/
theorem Serving.checkExpiring_other (serving : s.Serving) {d : Call} {identifier : String} (other : d.identifier ≠ identifier) :
    (s.checkExpiring d).1.buckets.get? (keyOf identifier) = none ∨
      (s.checkExpiring d).1.buckets.get? (keyOf identifier) = s.buckets.get? (keyOf identifier) := by
  have servingExpired : (s.expire d.now).Serving := serving
  have unchanged := getSha_keeps (s.expire d.now) d.process d.redis
  have apart : keyOf identifier ≠ keyOf d.identifier := fun same => other (keyOf_injective same).symm
  have found : (s.checkExpiring d).1.buckets.get? (keyOf identifier) = (s.expire d.now).buckets.get? (keyOf identifier) := by
    rw [checkExpiring,servingExpired.check_eq]
    split
    · exact (Dict.get?_insert ..).trans (if_neg apart)
    · rw [unchanged]
  rw [found]
  exact expire_forgets s d.now (keyOf identifier)

/-- A bucket that has been deleted or that has been refilled for long enough has a token. -/
theorem Serving.check_allowed (serving : s.Serving) {c : Call}
    (enough : 1 ≤ refilled (configOf c.tier) c.now (s.buckets.get? (keyOf c.identifier))) : (s.check c).2.1 = true := by
  rw [serving.check_eq]
  split
  · unfold decision script
    dsimp only
    rw [if_pos enough]
    rfl
  · rfl

theorem refilled_token {b : Bucket} {seconds : ℚ} (missing : 1 - b.tokens ≤ seconds * (configOf tier).refillPerSec)
    (waited : b.lastRefill + seconds ≤ now) : 1 ≤ refilled (configOf tier) now (some b) := by
  have elapsed : seconds ≤ max 0 (now - b.lastRefill) := le_max_of_le_right (by linarith)
  have refill := mul_le_mul_of_nonneg_right elapsed (configOf tier).refillPos.le
  have found : 1 ≤ b.tokens + max 0 (now - b.lastRefill) * (configOf tier).refillPerSec := by linarith
  exact le_min (one_le_capacity tier) found

theorem runExpiring_serving (calls : List Call) : (runExpiring calls).Serving :=
  Runs.kept_run (fun s c serving => Serving.check_serving (s := s.expire c.now) serving c) (start_serving .empty) calls

/-- A denied call of a run is allowed once the seconds that it was told have passed,
    whatever is called on other identifiers in the meantime. -/
theorem retry_after_sound (earlier : List Call) {c : Call} {retryAfter : ℤ}
    (denied : ((runExpiring earlier).checkExpiring c).2 = (false,retryAfter)) {between : List Call}
    (others : ∀ d ∈ between, d.identifier ≠ c.identifier) {again : Call} (sameIdentifier : again.identifier = c.identifier)
    (sameTier : again.tier = c.tier) (waited : c.now + retryAfter ≤ again.now) :
    ((runExpiring (earlier ++ c :: between)).checkExpiring again).2.1 = true := by
  have serving : ((runExpiring earlier).expire c.now).Serving := runExpiring_serving earlier
  obtain ⟨b,stored,used,missing⟩ := serving.denied denied
  have kept : (runExpiring (earlier ++ c :: between)).buckets.get? (keyOf c.identifier) = none ∨
      (runExpiring (earlier ++ c :: between)).buckets.get? (keyOf c.identifier) = some b := by
    induction between using List.reverseRecOn with
    | nil =>
      rw [runExpiring,List.foldl_append]
      exact .inr stored
    | append_singleton between d ih =>
      have before := ih (fun d member => others d (List.mem_append_left _ member))
      have one := (runExpiring_serving (earlier ++ c :: between)).checkExpiring_other (others d (by simp))
      have last : runExpiring (earlier ++ c :: (between ++ [d])) = ((runExpiring (earlier ++ c :: between)).checkExpiring d).1 := by
        simp only [runExpiring,List.foldl_append,List.foldl_cons,List.foldl_nil]
      rw [last]
      rcases one with gone | same
      · exact .inl gone
      · rwa [same]
  have servingAgain : ((runExpiring (earlier ++ c :: between)).expire again.now).Serving := runExpiring_serving _
  refine servingAgain.check_allowed ?_
  have full : 1 ≤ refilled (configOf again.tier) again.now none := by
    rw [refilled_none]
    exact one_le_capacity again.tier
  rw [sameIdentifier]
  rcases expire_forgets (runExpiring (earlier ++ c :: between)) again.now (keyOf c.identifier) with gone | same
  · rw [gone]
    exact full
  · rw [same]
    rcases kept with gone | left
    · rw [gone]
      exact full
    · rw [left,sameTier]
      exact refilled_token missing (by rwa [used])

/-- An anonymous client that uses up its bucket at once. -/
def burst : Call := ⟨0,"ip:10.0.0.1","anonymous",1700000000,reachable⟩

theorem burst_retries :
    ((runExpiring (List.replicate 60 burst)).checkExpiring burst).2 = (false,1) ∧
    ((runExpiring (List.replicate 60 burst ++ [burst])).checkExpiring { burst with now := 1700000001 }).2.1 = true := by
  have denied : ((runExpiring (List.replicate 60 burst)).checkExpiring burst).2 = (false,1) := by decide +kernel
  refine ⟨denied,?_⟩
  exact retry_after_sound (List.replicate 60 burst) denied (fun _ impossible => by cases impossible) rfl rfl
    (by decide +kernel)

end Limiter
end FundingRadar.RateLimiter
