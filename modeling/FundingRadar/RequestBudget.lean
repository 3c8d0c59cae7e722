import Mathlib.Algebra.Order.Ring.Rat
import FundingRadar.Dict
import FundingRadar.Runs
import FundingRadar.SlidingWindow

/-!
`_fetch_rest` of a collector, called by any number of tasks that share the list of
request times. A call that finds the window full sleeps and is recorded without looking
again; a retry is sent without being recorded; and a call that waits for the weight that
Aster reports is sent later than it was recorded. All other requests are admitted by the
check at the instant at which they are sent, and these keep the limit by themselves
(`budget_iff`). Time passes only between the steps.
-/
namespace FundingRadar
open SlidingWindow Runs

/-- What `_fetch_rest` reads of its collector. -/
structure FetchConfig where
  rateLimitPerMinute : ℕ
  httpMaxRetries : ℕ
  /-- The collector overrides `_fetch_rest` to look at the weight. -/
  weighs : Bool
  positive : 1 ≤ rateLimitPerMinute

namespace RequestBudget

/-- Where a call of `_fetch_rest` stands. -/
inductive Fetch
  | limited (wakes : ℚ)
  | weighing (wakes : ℚ)
  | requesting (attempt : ℕ)
  | backingOff (attempt : ℕ) (wakes : ℚ)
  | ended

/-- A request that was sent, and whether its time was recorded at that instant. -/
structure Start where
  time : ℚ
  recorded : Bool

inductive Outcome
  | succeeded
  | transient
  | failed

/-- How a request ends, and the weight that its response reports, if that is a number. -/
structure Reply where
  outcome : Outcome
  weight : Option ℤ

end RequestBudget
open RequestBudget

/-- The collector with its calls. `started` are the requests sent so far, which the code
    does not keep. -/
structure RequestBudget where
  now : ℚ
  requestTimes : List ℚ
  currentWeight : ℤ
  weightWindowStart : ℚ
  fetches : Dict ℕ Fetch
  started : List Start

namespace RequestBudget

inductive Action
  | elapse (seconds : ℚ)
  | call (i : ℕ)
  | wake (i : ℕ)
  | weighed (i : ℕ)
  | reply (i : ℕ) (r : Reply)
  | retry (i : ℕ)
  | cancel (i : ℕ)

def window : ℚ := 60
/-- `WEIGHT_LIMIT_PER_MIN`, and `WEIGHT_BACKOFF_THRESHOLD`. -/
def weightLimitPerMin : ℚ := 1200
def weightBackoffThreshold : ℚ := 80 / 100
/-- `wait_exponential(multiplier=1, min=1, max=30)`. -/
def retryWait (attempt : ℕ) : ℚ := max 1 (min (2 ^ (attempt - 1)) 30)

variable (cfg : FetchConfig) (s : RequestBudget)

def record : RequestBudget := { s with requestTimes := s.requestTimes ++ [s.now] }
/-- `_rate_limit`, up to its sleep. -/
def rateLimit : RequestBudget × Option ℚ :=
  let kept := { s with requestTimes := recent window s.now s.requestTimes }
  if kept.requestTimes.length ≥ cfg.rateLimitPerMinute then
    (kept,some (max 0 (window - (s.now - kept.requestTimes.headD s.now) + 5 / 100)))
  else (kept.record,none)

/-- `_mbx_weight_check`, up to its sleep. -/
def mbxWeightCheck : RequestBudget × Option ℚ :=
  if s.now - s.weightWindowStart ≥ 60 then ({ s with currentWeight := 0, weightWindowStart := s.now },none)
  else if s.currentWeight / weightLimitPerMin ≥ weightBackoffThreshold then
    (s,some (max 0 (60 - (s.now - s.weightWindowStart) + 1 / 2)))
  else (s,none)

def send (i attempt : ℕ) (recorded : Bool) : RequestBudget :=
  { s with
    fetches := s.fetches.insert i (.requesting attempt)
    started := s.started ++ [⟨s.now,recorded⟩] }

/-- A call once its time is recorded. -/
def proceed (i : ℕ) : RequestBudget :=
  if cfg.weighs then
    match s.mbxWeightCheck with
    | (s',none) => s'.send i 1 true
    | (s',some seconds) => { s' with fetches := s'.fetches.insert i (.weighing (s.now + seconds)) }
  else s.send i 1 true

def step : Action → RequestBudget
  | .elapse seconds => { s with now := s.now + max 0 seconds }
  | .call i =>
    match s.fetches.get? i with
    | some _ => s
    | none =>
      match s.rateLimit cfg with
      | (s',none) => s'.proceed cfg i
      | (s',some seconds) => { s' with fetches := s'.fetches.insert i (.limited (s.now + seconds)) }
  | .wake i =>
    match s.fetches.get? i with
    | some (.limited wakes) => if wakes ≤ s.now then s.record.proceed cfg i else s
    | _ => s
  | .weighed i =>
    match s.fetches.get? i with
    | some (.weighing wakes) =>
      if wakes ≤ s.now then { s with currentWeight := 0, weightWindowStart := s.now }.send i 1 false else s
    | _ => s
  | .reply i r =>
    match s.fetches.get? i with
    | some (.requesting attempt) =>
      { s with
        currentWeight := if cfg.weighs then r.weight.getD s.currentWeight else s.currentWeight
        fetches := s.fetches.insert i
          (match r.outcome with
            | .transient =>
              if attempt ≥ cfg.httpMaxRetries then .ended else .backingOff attempt (s.now + retryWait attempt)
            | .succeeded => .ended
            | .failed => .ended) }
    | _ => s
  | .retry i =>
    match s.fetches.get? i with
    | some (.backingOff attempt wakes) => if wakes ≤ s.now then s.send i (attempt + 1) false else s
    | _ => s
  | .cancel i =>
    match s.fetches.get? i with
    | some _ => { s with fetches := s.fetches.insert i .ended }
    | none => s

def new (now weightWindowStart : ℚ) : RequestBudget := ⟨now,[],0,weightWindowStart,.empty,[]⟩
/-- A run of a new collector. -/
def run (now weightWindowStart : ℚ) (actions : List Action) : RequestBudget := actions.foldl (step cfg) (new now weightWindowStart)

def startTimes : List ℚ := s.started.map Start.time
/-- No minute holds more requests than the limit. -/
def WithinBudget : Prop := Bounded window cfg.rateLimitPerMinute s.startTimes

/-- The weight holds a request back. -/
def Overweight : Prop := cfg.weighs = true ∧ s.mbxWeightCheck.2.isSome = true
/-- The action sends a request. -/
def Sends : Action → Prop
  | .call i => s.fetches.get? i = none ∧ (s.rateLimit cfg).2 = none ∧ ¬ s.Overweight cfg
  | .wake i => (∃ wakes, s.fetches.get? i = some (.limited wakes) ∧ wakes ≤ s.now) ∧ ¬ s.Overweight cfg
  | .weighed i => ∃ wakes, s.fetches.get? i = some (.weighing wakes) ∧ wakes ≤ s.now
  | .retry i => ∃ attempt wakes, s.fetches.get? i = some (.backingOff attempt wakes) ∧ wakes ≤ s.now
  | .elapse _ => False
  | .reply _ _ => False
  | .cancel _ => False
/-- The action is a call that the check lets pass, while every request of the last minute was
    recorded when it was sent. -/
def Checked (a : Action) : Prop :=
  (∃ i, a = .call i) ∧ ∀ r ∈ s.started, s.now - r.time < window → r.recorded = true
/-- Whatever the check does not let pass by itself is sent only while fewer requests than the
    limit are less than a minute old. -/
def Orderly (a : Action) : Prop :=
  s.Sends cfg a → ¬ s.Checked a → (recent window s.now s.startTimes).length < cfg.rateLimitPerMinute

/-! ### What a step does -/

variable {cfg s}

/-- The recorded requests of the last minute are among the recorded times. -/
structure Inv (s : RequestBudget) : Prop where
  past : ∀ r ∈ s.started, r.time ≤ s.now
  kept : (recent window s.now ((s.started.filter Start.recorded).map Start.time)).Sublist (recent window s.now s.requestTimes)

theorem Inv.elapse (inv : s.Inv) {seconds : ℚ} (forward : 0 ≤ seconds) : Inv { s with now := s.now + seconds } := by
  have le : s.now ≤ s.now + seconds := le_add_of_nonneg_right forward
  refine ⟨fun r member => (inv.past r member).trans le,?_⟩
  have later := recent_sublist window (s.now + seconds) inv.kept
  rw [recent_recent le,recent_recent le] at later
  exact later

theorem Inv.prune (inv : s.Inv) : Inv { s with requestTimes := recent window s.now s.requestTimes } := by
  refine ⟨inv.past,?_⟩
  have kept := inv.kept
  rw [← recent_recent (le_refl s.now) s.requestTimes] at kept
  exact kept

theorem Inv.record (inv : s.Inv) : s.record.Inv := by
  refine ⟨inv.past,?_⟩
  show (recent window s.now _).Sublist (recent window s.now (s.requestTimes ++ [s.now]))
  rw [recent_append]
  exact inv.kept.trans (List.sublist_append_left ..)

/-- Whatever leaves the clock, the recorded times and the requests. -/
theorem Inv.frame (inv : s.Inv) {s' : RequestBudget} (now : s'.now = s.now) (requestTimes : s'.requestTimes = s.requestTimes)
    (started : s'.started = s.started) : s'.Inv := by
  refine ⟨?_,?_⟩
  · rw [now,started]
    exact inv.past
  · rw [now,requestTimes,started]
    exact inv.kept

theorem past_append (inv : s.Inv) (recorded : Bool) : ∀ r ∈ s.started ++ [⟨s.now,recorded⟩], r.time ≤ s.now := by
  intro r member
  rcases List.mem_append.mp member with old | new
  · exact inv.past r old
  · rw [List.mem_singleton.mp new]

/-- A request whose time is not recorded. -/
theorem Inv.send_late (inv : s.Inv) (i attempt : ℕ) : (s.send i attempt false).Inv := by
  refine ⟨past_append inv false,?_⟩
  show (recent window s.now (((s.started ++ [(⟨s.now,false⟩ : Start)]).filter Start.recorded).map Start.time)).Sublist _
  rw [List.filter_append,List.filter_cons_of_neg (by exact Bool.false_ne_true),List.filter_nil,List.append_nil]
  exact inv.kept

/-- A request whose time is the last that was recorded. -/
theorem Inv.send_recorded (inv : s.Inv) {s' : RequestBudget} (now : s'.now = s.now)
    (requestTimes : s'.requestTimes = s.requestTimes ++ [s.now]) (started : s'.started = s.started) (i attempt : ℕ) :
    (s'.send i attempt true).Inv := by
  refine ⟨?_,?_⟩
  · show ∀ r ∈ s'.started ++ [⟨s'.now,true⟩], r.time ≤ s'.now
    rw [now,started]
    exact past_append inv true
  · show (recent window s'.now (((s'.started ++ [(⟨s'.now,true⟩ : Start)]).filter Start.recorded).map Start.time)).Sublist
      (recent window s'.now s'.requestTimes)
    rw [now,requestTimes,started,List.filter_append,List.map_append,recent_append,recent_append]
    exact inv.kept.append (List.Sublist.refl _)

theorem mbxWeightCheck_frame (s : RequestBudget) :
    s.mbxWeightCheck.1.now = s.now ∧ s.mbxWeightCheck.1.requestTimes = s.requestTimes ∧
      s.mbxWeightCheck.1.started = s.started := by
  unfold mbxWeightCheck
  split
  · exact ⟨rfl,rfl,rfl⟩
  · split
    · exact ⟨rfl,rfl,rfl⟩
    · exact ⟨rfl,rfl,rfl⟩

/-- The wait for the weight reads the clock and the two fields that track it. -/
theorem mbxWeightCheck_seconds {s' : RequestBudget} (now : s'.now = s.now) (weight : s'.currentWeight = s.currentWeight)
    (start : s'.weightWindowStart = s.weightWindowStart) : s'.mbxWeightCheck.2 = s.mbxWeightCheck.2 := by
  unfold mbxWeightCheck
  rw [now,weight,start]
  split
  · rfl
  · split
    · rfl
    · rfl

theorem overweight_frame {s' : RequestBudget} (now : s'.now = s.now) (weight : s'.currentWeight = s.currentWeight)
    (start : s'.weightWindowStart = s.weightWindowStart) : s'.Overweight cfg ↔ s.Overweight cfg := by
  unfold Overweight
  rw [mbxWeightCheck_seconds now weight start]

/-- A call whose time is recorded waits for the weight, or is sent at that instant. -/
theorem Inv.proceed (inv : s.Inv) (i : ℕ) :
    (s.record.proceed cfg i).Inv ∧
      (s.Overweight cfg ∧ (s.record.proceed cfg i).started = s.started ∨
        ¬ s.Overweight cfg ∧ (s.record.proceed cfg i).started = s.started ++ [⟨s.now,true⟩]) := by
  unfold RequestBudget.proceed
  split
  · next weighs =>
    have seconds : s.record.mbxWeightCheck.2 = s.mbxWeightCheck.2 := mbxWeightCheck_seconds rfl rfl rfl
    obtain ⟨now,requestTimes,started⟩ := mbxWeightCheck_frame s.record
    split
    · next s' checked =>
      rw [checked] at now requestTimes started seconds
      refine ⟨inv.send_recorded now requestTimes started i 1,.inr ⟨?_,?_⟩⟩
      · rintro ⟨-,held⟩
        rw [← seconds] at held
        cases held
      · show s'.started ++ [⟨s'.now,true⟩] = _
        rw [now,started]
        rfl
    · next s' wait checked =>
      rw [checked] at now requestTimes started seconds
      refine ⟨inv.record.frame now requestTimes started,.inl ⟨⟨weighs,?_⟩,started⟩⟩
      rw [← seconds]
      rfl
  · next light =>
    exact ⟨@Inv.send_recorded s inv s.record rfl rfl rfl i 1,.inr ⟨fun held => light held.1,rfl⟩⟩

/-- Every step keeps the invariant, and sends one request or none. -/
theorem Inv.step (inv : s.Inv) (a : Action) :
    (s.step cfg a).Inv ∧
      (¬ s.Sends cfg a ∧ (s.step cfg a).started = s.started ∨
        s.Sends cfg a ∧ ∃ recorded, (s.step cfg a).started = s.started ++ [⟨s.now,recorded⟩]) := by
  cases a with
  | elapse seconds => exact ⟨inv.elapse (le_max_left ..),.inl ⟨id,rfl⟩⟩
  | call i =>
    rw [RequestBudget.step]
    split
    · next fetch known => exact ⟨inv,.inl ⟨fun sends => Option.some_ne_none fetch (known.symm.trans sends.1),rfl⟩⟩
    · next fresh =>
      have pruned := inv.prune
      have weight : Overweight cfg { s with requestTimes := recent window s.now s.requestTimes } ↔ s.Overweight cfg :=
        overweight_frame rfl rfl rfl
      unfold Sends rateLimit
      dsimp only
      by_cases full : (recent window s.now s.requestTimes).length ≥ cfg.rateLimitPerMinute
      · rw [if_pos full]
        exact ⟨pruned.frame rfl rfl rfl,.inl ⟨fun sends => by simp at sends,rfl⟩⟩
      · rw [if_neg full]
        obtain ⟨after,⟨held,waits⟩ | ⟨light,sent⟩⟩ := @Inv.proceed cfg _ pruned i
        · exact ⟨after,.inl ⟨fun sends => sends.2.2 (weight.mp held),waits⟩⟩
        · exact ⟨after,.inr ⟨⟨fresh,rfl,fun held => light (weight.mpr held)⟩,true,sent⟩⟩
  | wake i =>
    rw [RequestBudget.step]
    split
    · next wakes asleep =>
      split
      · next due =>
        obtain ⟨after,⟨held,waits⟩ | ⟨light,sent⟩⟩ := @Inv.proceed cfg _ inv i
        · exact ⟨after,.inl ⟨fun sends => sends.2 held,waits⟩⟩
        · exact ⟨after,.inr ⟨⟨⟨wakes,asleep,due⟩,light⟩,true,sent⟩⟩
      · next early =>
        refine ⟨inv,.inl ⟨?_,rfl⟩⟩
        rintro ⟨⟨w,same,due⟩,-⟩
        exact early (by simp_all)
    · next other =>
      refine ⟨inv,.inl ⟨?_,rfl⟩⟩
      rintro ⟨⟨w,same,-⟩,-⟩
      exact other w same
  | weighed i =>
    rw [RequestBudget.step]
    split
    · next wakes asleep =>
      split
      · next due =>
        have reset : Inv { s with currentWeight := 0, weightWindowStart := s.now } := inv.frame rfl rfl rfl
        exact ⟨reset.send_late i 1,.inr ⟨⟨wakes,asleep,due⟩,false,rfl⟩⟩
      · next early =>
        refine ⟨inv,.inl ⟨?_,rfl⟩⟩
        rintro ⟨w,same,due⟩
        exact early (by simp_all)
    · next other =>
      refine ⟨inv,.inl ⟨?_,rfl⟩⟩
      rintro ⟨w,same,-⟩
      exact other w same
  | reply i r =>
    rw [RequestBudget.step]
    split
    · exact ⟨inv.frame rfl rfl rfl,.inl ⟨id,rfl⟩⟩
    · exact ⟨inv,.inl ⟨id,rfl⟩⟩
  | retry i =>
    rw [RequestBudget.step]
    split
    · next attempt wakes asleep =>
      split
      · next due => exact ⟨inv.send_late i _,.inr ⟨⟨attempt,wakes,asleep,due⟩,false,rfl⟩⟩
      · next early =>
        refine ⟨inv,.inl ⟨?_,rfl⟩⟩
        rintro ⟨n,w,same,due⟩
        exact early (by simp_all)
    · next other =>
      refine ⟨inv,.inl ⟨?_,rfl⟩⟩
      rintro ⟨n,w,same,-⟩
      exact other n w same
  | cancel i =>
    rw [RequestBudget.step]
    split
    · exact ⟨inv.frame rfl rfl rfl,.inl ⟨id,rfl⟩⟩
    · exact ⟨inv,.inl ⟨id,rfl⟩⟩

/-- A call is sent only if fewer times than the limit are recorded for the last minute. -/
theorem room_of_call {i : ℕ} (sends : s.Sends cfg (.call i)) : (recent window s.now s.requestTimes).length < cfg.rateLimitPerMinute := by
  have admitted := sends.2.1
  unfold rateLimit at admitted
  by_contra full
  rw [if_pos (Nat.le_of_not_lt full)] at admitted
  cases admitted

/-! ### Runs -/

/-- Where all requests of the last minute are recorded, the check finds room for them. -/
theorem room_of_recorded (inv : s.Inv) (all : ∀ r ∈ s.started, s.now - r.time < window → r.recorded = true)
    (room : (recent window s.now s.requestTimes).length < cfg.rateLimitPerMinute) :
    (recent window s.now s.startTimes).length < cfg.rateLimitPerMinute := by
  have same : recent window s.now s.startTimes = recent window s.now ((s.started.filter Start.recorded).map Start.time) := by
    unfold recent startTimes
    rw [List.filter_map,List.filter_map,List.filter_filter]
    refine congrArg (List.map Start.time) (List.filter_congr ?_)
    intro r member
    rw [Bool.eq_iff_iff,Bool.and_eq_true]
    constructor
    · intro young
      exact ⟨young,all r member (of_decide_eq_true young)⟩
    · exact fun both => both.1
  rw [same]
  exact lt_of_le_of_lt inv.kept.length_le room

/-- A step keeps the budget exactly when it is orderly. -/
theorem withinBudget_step_iff (inv : s.Inv) (a : Action) :
    (s.step cfg a).WithinBudget cfg ↔ s.WithinBudget cfg ∧ s.Orderly cfg a := by
  obtain ⟨-,⟨silent,same⟩ | ⟨sends,recorded,sent⟩⟩ := @Inv.step cfg s inv a
  · have idle : s.Orderly cfg a := fun sends => absurd sends silent
    rw [and_iff_left idle,WithinBudget,startTimes,same]
    rfl
  · have past : ∀ t ∈ s.startTimes, t ≤ s.now := by
      intro t member
      obtain ⟨r,started,rfl⟩ := List.mem_map.mp member
      exact inv.past r started
    have grown : (s.step cfg a).startTimes = s.startTimes ++ [s.now] := by
      rw [startTimes,sent,List.map_append]
      rfl
    have orderly : s.Orderly cfg a ↔ (recent window s.now s.startTimes).length < cfg.rateLimitPerMinute := by
      constructor
      · intro orderly
        by_cases checked : s.Checked a
        · obtain ⟨⟨i,rfl⟩,all⟩ := checked
          exact room_of_recorded inv all (room_of_call sends)
        · exact orderly sends checked
      · exact fun room _ _ => room
    rw [WithinBudget,grown,orderly]
    exact bounded_append_iff (by decide) past

variable (cfg)

theorem new_inv (now weightWindowStart : ℚ) : (new now weightWindowStart).Inv :=
  ⟨(fun _ impossible => by cases impossible),List.nil_sublist _⟩

/-- A run keeps the budget exactly when every request that the check does not let pass by
    itself finds room. -/
theorem budget_iff (now weightWindowStart : ℚ) (actions : List Action) :
    (run cfg now weightWindowStart actions).WithinBudget cfg ↔
      Each (step cfg) (Orderly cfg) (new now weightWindowStart) actions := by
  have start : (new now weightWindowStart).WithinBudget cfg := bounded_nil _ _
  rw [run,last_iff (fun s a inv => (inv.step a).1) (fun s a inv => withinBudget_step_iff inv a) (new_inv ..)]
  exact and_iff_right start

/-- One request a minute. Two calls that wait for the same minute to pass are both sent. -/
def onePerMinute : FetchConfig := ⟨1,5,false,by decide⟩
theorem sleepers_exceed_the_budget :
    ¬ (run onePerMinute 0 0 [.call 0,.call 1,.call 2,.elapse 61,.wake 1,.wake 2]).WithinBudget onePerMinute := by
  intro within
  exact absurd (within 61) (by decide +kernel)

end RequestBudget
end FundingRadar
