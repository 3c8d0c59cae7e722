import FundingRadar.Renewals
import FundingRadar.Runs
import FundingRadar.Recalculation
import FundingRadar.MessageHandling

/-!
`FundingService` against the clock. The timed loop sleeps, and skips its recalculation when the
subscriber has begun one since; both loops set `arbitrage:current` and `funding:ranked` for
`REDIS_KEY_TTL`. While no sleep and no recalculation takes much longer than it should, each key
is set again before it lapses, whatever the subscriber does (`keys_stay`).
-/
namespace FundingRadar
open Runs Renewals

namespace FundingService

/-! ### What a step does to the stages -/

/-- What a step other than the execution of a pipeline does to the loops and what they send. -/
inductive Moved (now : ℚ) (s s' : FundingService) : Prop
  | rests (stage : s'.stage = s.stage) (last : s'.lastRecalcAt = s.lastRecalcAt) (arbitrage : s'.arbitrage = s.arbitrage)
      (ranked : s'.ranked = s.ranked)
  | begins (l : TaskLoop) (idle : s.stage l = .idle) (stage : s'.stage = Function.update s.stage l .arbitrage)
      (last : s'.lastRecalcAt = now) (arbitrage : ∃ v, s'.arbitrage = s.arbitrage.send l v) (ranked : s'.ranked = s.ranked)
  | ranks (l : TaskLoop) (answered : s.Answered l) (computed : s.stage l = .arbitrage)
      (stage : s'.stage = Function.update s.stage l .ranking) (last : s'.lastRecalcAt = s.lastRecalcAt)
      (arbitrage : s'.arbitrage = s.arbitrage) (ranked : ∃ v, s'.ranked = s.ranked.send l v)
  | ends (l : TaskLoop) (answered : s.Answered l) (published : s.stage l = .ranking)
      (stage : s'.stage = Function.update s.stage l .idle) (last : s'.lastRecalcAt = s.lastRecalcAt)
      (arbitrage : s'.arbitrage = s.arbitrage) (ranked : s'.ranked = s.ranked)

variable {cfg : Settings}

theorem moved_message (s : FundingService) (m : Option NormalizedFundingData) (now : ℚ) (nowMs : ℤ) :
    Moved now s (s.step cfg (.message m now nowMs)) := by
  rw [step]
  split
  next idle =>
    cases m with
    | none => exact .rests rfl rfl rfl rfl
    | some data =>
      unfold handleMessage
      dsimp only
      split
      · exact .begins .subscriber idle rfl rfl ⟨_,rfl⟩ rfl
      · exact .rests rfl rfl rfl rfl
  next => exact .rests rfl rfl rfl rfl

/-- The timed loop recalculates, or the last recalculation began within the interval. -/
theorem moved_wake (s : FundingService) (now : ℚ) (nowMs : ℤ) (idle : s.stage .timed = .idle) :
    Moved now s (s.step cfg (.wake now nowMs)) ∧
      ((s.step cfg (.wake now nowMs)).stage .timed = .idle → now < s.lastRecalcAt + cfg.recalculateEverySeconds) := by
  rw [step,if_pos idle]
  unfold timedRecalc
  split
  next => exact ⟨.begins .timed idle rfl rfl ⟨_,rfl⟩ rfl,fun impossible => by simp [beginRecalculate] at impossible⟩
  next early => exact ⟨.rests rfl rfl rfl rfl,fun _ => sub_lt_iff_lt_add'.mp (not_le.mp early)⟩

theorem moved_returned (s : FundingService) (l : TaskLoop) (clock : FundingAggregator.Clock) (now : ℚ) :
    Moved now s (s.step cfg (.returned l clock)) := by
  rw [step]
  split
  next answered =>
    unfold resume
    split
    next => exact .rests rfl rfl rfl rfl
    next computed => exact .ranks l answered computed rfl rfl rfl ⟨_,rfl⟩
    next published => exact .ends l answered published rfl rfl rfl rfl
  next => exact .rests rfl rfl rfl rfl

end FundingService

open FundingService

/-- `REDIS_KEY_TTL`. -/
def redisKeyTtl : ℚ := 120

inductive PublishedKey
  | arbitrage
  | ranked

/-- The service, the clock, and when what the clock matters for has happened. -/
structure PacedService where
  now : ℚ
  service : FundingService
  /-- When the timed loop last began to sleep. -/
  asleep : ℚ
  /-- When a loop began the recalculation that it is in. -/
  begun : TaskLoop → ℚ
  /-- When Redis set a key, if the service has had it set. -/
  setAt : PublishedKey → Option ℚ

namespace PacedService

inductive Action
  /-- The clock moves on, never back. -/
  | elapse (later : ℚ)
  | message (m : Option NormalizedFundingData) (nowMs : ℤ)
  /-- The timed loop wakes. -/
  | wake (nowMs : ℤ)
  | apply (l : TaskLoop)
  | returned (l : TaskLoop) (clock : FundingAggregator.Clock)
  | purge

section
variable (cfg : Settings)

/-- The service as it starts, with both tasks. -/
def start (since staleAfter : ℚ) : PacedService := ⟨since,.init staleAfter none none,since,fun _ => since,fun _ => none⟩

/-- The service steps; a loop that begins a recalculation or begins to sleep does so now. -/
def follow (s : PacedService) (service : FundingService) : PacedService :=
  { s with
    service := service
    begun := fun l => if s.service.stage l = .idle ∧ service.stage l ≠ .idle then s.now else s.begun l
    asleep := if s.service.stage .timed ≠ .idle ∧ service.stage .timed = .idle then s.now else s.asleep }

/-- Whether the pipeline of a loop that sets the key is in flight. -/
def Sending (s : FundingService) (l : TaskLoop) : PublishedKey → Prop
  | .arbitrage => s.arbitrage.inFlight l ≠ none
  | .ranked => s.ranked.inFlight l ≠ none
instance (s : FundingService) (l : TaskLoop) (k : PublishedKey) : Decidable (Sending s l k) :=
  match k with
  | .arbitrage => inferInstanceAs (Decidable (s.arbitrage.inFlight l ≠ none))
  | .ranked => inferInstanceAs (Decidable (s.ranked.inFlight l ≠ none))

def step (s : PacedService) : Action → PacedService
  | .elapse later => { s with now := max s.now later }
  | .message m nowMs => s.follow (s.service.step cfg (.message m s.now nowMs))
  | .wake nowMs =>
    if s.service.stage .timed = .idle ∧ s.asleep + cfg.recalculateEverySeconds ≤ s.now then
      { s.follow (s.service.step cfg (.wake s.now nowMs)) with asleep := s.now }
    else s
  | .apply l =>
    { s with
      service := s.service.step cfg (.apply l)
      setAt := fun k => if Sending s.service l k then some s.now else s.setAt k }
  | .returned l clock => s.follow (s.service.step cfg (.returned l clock))
  | .purge => { s with service := s.service.step cfg (.purge s.now) }

def run (s : PacedService) (actions : List Action) : PacedService := actions.foldl (step cfg) s

/-- Redis has been given the key. -/
def Held (s : FundingService) : PublishedKey → Prop
  | .arbitrage => s.arbitrage.value ≠ none
  | .ranked => s.ranked.value ≠ none
/-- The key is there: it has been set, and has not lapsed. -/
def Live (s : PacedService) (k : PublishedKey) : Prop := Held s.service k ∧ ∃ t, s.setAt k = some t ∧ s.now < t + redisKeyTtl

/-- How late the event loop wakes a task, and how long Redis and the event loop let a
    recalculation take. -/
structure Delays where
  late : ℚ
  recalculation : ℚ
  late_nonneg : 0 ≤ late
  recalculation_nonneg : 0 ≤ recalculation

variable (delays : Delays)

/-- The clock does not pass what is due. -/
def Timely (s : PacedService) : Action → Prop
  | .elapse later => (∀ l, s.service.stage l ≠ .idle → later ≤ s.begun l + delays.recalculation) ∧
      (s.service.stage .timed = .idle → later ≤ s.asleep + (cfg.recalculateEverySeconds + delays.late))
  | _ => True

/-- How far apart two recalculations begin. -/
def gap : ℚ := cfg.recalculateEverySeconds + delays.late + max cfg.recalculateEverySeconds delays.recalculation

/-! ### The invariant -/

/-- The recalculations that have not set the key. -/
def owing (s : PacedService) : PublishedKey → TaskLoop → Option ℚ
  | .arbitrage,l => if s.service.arbitrage.inFlight l ≠ none then some (s.begun l) else none
  | .ranked,l => if s.service.stage l = .arbitrage ∨ s.service.ranked.inFlight l ≠ none then some (s.begun l) else none

structure Paced (since : ℚ) (s : PacedService) : Prop where
  started : since ≤ s.now
  last : s.service.lastRecalcAt ≤ s.now
  begun : ∀ l, s.service.stage l ≠ .idle → s.begun l ≤ s.service.lastRecalcAt ∧ s.now ≤ s.begun l + delays.recalculation
  asleep : s.service.stage .timed = .idle → s.now ≤ s.asleep + (cfg.recalculateEverySeconds + delays.late) ∧
    s.asleep ≤ max s.service.lastRecalcAt since + max cfg.recalculateEverySeconds delays.recalculation
  sending : ∀ l, (s.service.arbitrage.inFlight l ≠ none → s.service.stage l = .arbitrage) ∧
    (s.service.ranked.inFlight l ≠ none → s.service.stage l = .ranking)
  held : ∀ k t, s.setAt k = some t → Held s.service k
  keys : ∀ k, Covered (gap cfg delays) (max s.service.lastRecalcAt since) (s.owing k) ((s.setAt k).getD since)

end

variable {cfg : Settings} {delays : Delays} {since : ℚ} {s : PacedService}

/-- A recalculation begins within the gap of the last one, or of the start. -/
theorem Paced.inTime (paced : Paced cfg delays since s) (interval : 0 ≤ cfg.recalculateEverySeconds) :
    s.now ≤ max s.service.lastRecalcAt since + gap cfg delays := by
  have longer := le_max_right cfg.recalculateEverySeconds delays.recalculation
  have late := delays.late_nonneg
  rw [gap]
  by_cases idle : s.service.stage .timed = .idle
  · obtain ⟨due,slept⟩ := paced.asleep idle
    linarith
  · obtain ⟨began,ends⟩ := paced.begun .timed idle
    have recent := le_max_left s.service.lastRecalcAt since
    linarith

theorem owing_busy (paced : Paced cfg delays since s) {k : PublishedKey} {l : TaskLoop} {t : ℚ} (owes : s.owing k l = some t) :
    s.service.stage l ≠ .idle ∧ t = s.begun l := by
  cases k with
  | arbitrage =>
    simp only [owing] at owes
    split at owes
    next sends =>
      have computed := (paced.sending l).1 sends
      exact ⟨(fun idle => by rw [idle] at computed; cases computed),(Option.some.inj owes).symm⟩
    next => cases owes
  | ranked =>
    simp only [owing] at owes
    split at owes
    next sends =>
      refine ⟨fun idle => ?_,(Option.some.inj owes).symm⟩
      rcases sends with computed | sends
      · rw [idle] at computed
        cases computed
      · have published := (paced.sending l).2 sends
        rw [idle] at published
        cases published
    next => cases owes

/-! ### One step -/

theorem follow_begun_of_busy {l : TaskLoop} (busy : s.service.stage l ≠ .idle) (service : FundingService) :
    (s.follow service).begun l = s.begun l := if_neg fun both => busy both.1
theorem follow_begun_of_same {l : TaskLoop} {service : FundingService} (same : service.stage l = s.service.stage l) :
    (s.follow service).begun l = s.begun l := if_neg fun both => both.2 (same.trans both.1)
theorem follow_asleep_of_same {service : FundingService} (same : service.stage .timed = s.service.stage .timed) :
    (s.follow service).asleep = s.asleep := if_neg fun both => both.1 (same.symm.trans both.2)

/-- A loop that sends something leaves what Redis has. -/
theorem follow_held (paced : Paced cfg delays since s) {service : FundingService} (arbitrage : service.arbitrage.value = s.service.arbitrage.value)
    (ranked : service.ranked.value = s.service.ranked.value) (k : PublishedKey) (t : ℚ) (set : s.setAt k = some t) : Held service k := by
  have before := paced.held k t set
  cases k with
  | arbitrage => exact fun unset => before (arbitrage.symm.trans unset)
  | ranked => exact fun unset => before (ranked.symm.trans unset)

theorem Paced.follow_rests (paced : Paced cfg delays since s) {service : FundingService} (stage : service.stage = s.service.stage)
    (last : service.lastRecalcAt = s.service.lastRecalcAt) (arbitrage : service.arbitrage = s.service.arbitrage)
    (ranked : service.ranked = s.service.ranked) : Paced cfg delays since (s.follow service) := by
  have begun : ∀ l, (s.follow service).begun l = s.begun l := fun l => follow_begun_of_same (congrFun stage l)
  have owes : ∀ k, (s.follow service).owing k = s.owing k := by
    intro k
    funext l
    cases k with
    | arbitrage => simp only [owing,begun]; simp only [follow,arbitrage]
    | ranked => simp only [owing,begun]; simp only [follow,stage,ranked]
  refine ⟨paced.started,last ▸ paced.last,fun l busy => ?_,fun idle => ?_,fun l => ?_,follow_held paced ?_ ?_,fun k => ?_⟩
  · rw [begun]
    have before : s.service.stage l ≠ .idle := fun idle => busy ((congrFun stage l).trans idle)
    obtain ⟨began,ends⟩ := paced.begun l before
    exact ⟨began.trans_eq last.symm,ends⟩
  · rw [follow_asleep_of_same (congrFun stage .timed)]
    obtain ⟨due,slept⟩ := paced.asleep ((congrFun stage .timed).symm.trans idle)
    refine ⟨due,?_⟩
    show s.asleep ≤ max service.lastRecalcAt since + _
    rw [last]
    exact slept
  · show (service.arbitrage.inFlight l ≠ none → service.stage l = _) ∧ (service.ranked.inFlight l ≠ none → service.stage l = _)
    rw [arbitrage,ranked,stage]
    exact paced.sending l
  · exact congrArg LastWriter.Register.value arbitrage
  · exact congrArg LastWriter.Register.value ranked
  · rw [owes]
    show Covered _ (max service.lastRecalcAt since) _ _
    rw [last]
    exact paced.keys k

theorem Paced.follow_begins (paced : Paced cfg delays since s) (interval : 0 ≤ cfg.recalculateEverySeconds)
    {service : FundingService} {l : TaskLoop} (idle : s.service.stage l = .idle)
    (stage : service.stage = Function.update s.service.stage l .arbitrage) (last : service.lastRecalcAt = s.now)
    (arbitrage : ∃ v, service.arbitrage = s.service.arbitrage.send l v) (ranked : service.ranked = s.service.ranked) :
    Paced cfg delays since (s.follow service) := by
  obtain ⟨v,sent⟩ := arbitrage
  have own : service.stage l = .arbitrage := by rw [stage,Function.update_self]
  have other : ∀ l', l' ≠ l → service.stage l' = s.service.stage l' := fun l' differ => by rw [stage,Function.update_of_ne differ]
  have begunOwn : (s.follow service).begun l = s.now := if_pos ⟨idle,fun impossible => by rw [own] at impossible; cases impossible⟩
  have begunOther : ∀ l', l' ≠ l → (s.follow service).begun l' = s.begun l' := fun l' differ => follow_begun_of_same (other l' differ)
  have sends : service.arbitrage.inFlight l = some v := by rw [sent,LastWriter.Register.inFlight_send_self]
  refine ⟨paced.started,last.le,fun l' busy => ?_,fun rests => ?_,fun l' => ?_,follow_held paced ?_ ?_,fun k => ?_⟩
  · show _ ≤ service.lastRecalcAt ∧ _
    rw [last]
    by_cases mine : l' = l
    · subst mine
      rw [begunOwn]
      exact ⟨le_rfl,le_add_of_nonneg_right delays.recalculation_nonneg⟩
    · obtain ⟨began,ends⟩ := paced.begun l' fun before => busy ((other l' mine).trans before)
      rw [begunOther l' mine]
      exact ⟨began.trans paced.last,ends⟩
  · have differ : TaskLoop.timed ≠ l := by
      rintro rfl
      rw [show (s.follow service).service = service from rfl,own] at rests
      cases rests
    obtain ⟨due,slept⟩ := paced.asleep ((other .timed differ).symm.trans rests)
    rw [follow_asleep_of_same (other .timed differ)]
    refine ⟨due,slept.trans (add_le_add_left (max_le_max_right since ?_) _)⟩
    exact paced.last.trans_eq last.symm
  · show (service.arbitrage.inFlight l' ≠ none → service.stage l' = _) ∧ (service.ranked.inFlight l' ≠ none → service.stage l' = _)
    by_cases mine : l' = l
    · subst mine
      refine ⟨fun _ => own,fun inFlight => ?_⟩
      rw [ranked] at inFlight
      have published := (paced.sending l').2 inFlight
      rw [idle] at published
      cases published
    · rw [other l' mine,ranked,sent,LastWriter.Register.inFlight_send_of_ne _ mine]
      exact paced.sending l'
  · exact (congrArg LastWriter.Register.value sent).trans rfl
  · exact congrArg LastWriter.Register.value ranked
  · have now : max service.lastRecalcAt since = s.now := by rw [last]; exact max_eq_left paced.started
    show Covered _ (max service.lastRecalcAt since) _ _
    rw [now]
    refine (paced.keys k).begin (i := l) ?_ (fun l' t owes => ?_) (paced.inTime interval)
    · rw [← begunOwn]
      cases k with
      | arbitrage => exact if_pos fun impossible => by rw [show (s.follow service).service = service from rfl,sends] at impossible; cases impossible
      | ranked => exact if_pos (.inl own)
    · obtain ⟨busy,rfl⟩ := owing_busy paced owes
      have differ : l' ≠ l := by
        rintro rfl
        exact busy idle
      cases k with
      | arbitrage =>
        simp only [owing,begunOther l' differ] at owes ⊢
        simp only [follow,sent,LastWriter.Register.inFlight_send_of_ne _ differ]
        exact owes
      | ranked =>
        simp only [owing,begunOther l' differ] at owes ⊢
        simp only [follow,ranked,other l' differ]
        exact owes

theorem Paced.follow_ranks (paced : Paced cfg delays since s) {service : FundingService} {l : TaskLoop} (answered : s.service.Answered l)
    (computed : s.service.stage l = .arbitrage) (stage : service.stage = Function.update s.service.stage l .ranking)
    (last : service.lastRecalcAt = s.service.lastRecalcAt) (arbitrage : service.arbitrage = s.service.arbitrage)
    (ranked : ∃ v, service.ranked = s.service.ranked.send l v) : Paced cfg delays since (s.follow service) := by
  obtain ⟨v,sent⟩ := ranked
  have own : service.stage l = .ranking := by rw [stage,Function.update_self]
  have other : ∀ l', l' ≠ l → service.stage l' = s.service.stage l' := fun l' differ => by rw [stage,Function.update_of_ne differ]
  have wasBusy : s.service.stage l ≠ .idle := fun impossible => by rw [computed] at impossible; cases impossible
  have begun : ∀ l', (s.follow service).begun l' = s.begun l' := by
    intro l'
    by_cases mine : l' = l
    · subst mine
      exact follow_begun_of_busy wasBusy service
    · exact follow_begun_of_same (other l' mine)
  have sends : service.ranked.inFlight l = some v := by rw [sent,LastWriter.Register.inFlight_send_self]
  refine ⟨paced.started,last ▸ paced.last,fun l' busy => ?_,fun rests => ?_,fun l' => ?_,follow_held paced ?_ ?_,fun k => ?_⟩
  · show _ ≤ service.lastRecalcAt ∧ _
    rw [last,begun]
    by_cases mine : l' = l
    · subst mine
      exact paced.begun l' wasBusy
    · exact paced.begun l' fun before => busy ((other l' mine).trans before)
  · have differ : TaskLoop.timed ≠ l := by
      rintro rfl
      rw [show (s.follow service).service = service from rfl,own] at rests
      cases rests
    rw [follow_asleep_of_same (other .timed differ)]
    show _ ∧ _ ≤ max service.lastRecalcAt since + _
    rw [last]
    exact paced.asleep ((other .timed differ).symm.trans rests)
  · show (service.arbitrage.inFlight l' ≠ none → service.stage l' = _) ∧ (service.ranked.inFlight l' ≠ none → service.stage l' = _)
    by_cases mine : l' = l
    · subst mine
      refine ⟨fun inFlight => ?_,fun _ => own⟩
      rw [arbitrage] at inFlight
      exact absurd answered.1 inFlight
    · rw [other l' mine,arbitrage,sent,LastWriter.Register.inFlight_send_of_ne _ mine]
      exact paced.sending l'
  · exact congrArg LastWriter.Register.value arbitrage
  · exact (congrArg LastWriter.Register.value sent).trans rfl
  · show Covered _ (max service.lastRecalcAt since) _ _
    rw [last]
    refine (paced.keys k).keep fun l' t owes => ?_
    cases k with
    | arbitrage =>
      simp only [owing,begun] at owes ⊢
      simp only [follow,arbitrage]
      exact owes
    | ranked =>
      obtain ⟨-,rfl⟩ := owing_busy paced owes
      by_cases mine : l' = l
      · subst mine
        rw [← begun l']
        refine if_pos (.inr fun impossible => ?_)
        rw [show (s.follow service).service = service from rfl,sends] at impossible
        cases impossible
      · simp only [owing,begun] at owes ⊢
        simp only [follow,sent,LastWriter.Register.inFlight_send_of_ne _ mine,other l' mine]
        exact owes

/-- A recalculation ends; the timed loop goes to sleep after its own. -/
theorem Paced.follow_ends (paced : Paced cfg delays since s) (interval : 0 ≤ cfg.recalculateEverySeconds) {service : FundingService}
    {l : TaskLoop} (answered : s.service.Answered l) (published : s.service.stage l = .ranking)
    (stage : service.stage = Function.update s.service.stage l .idle) (last : service.lastRecalcAt = s.service.lastRecalcAt)
    (arbitrage : service.arbitrage = s.service.arbitrage) (ranked : service.ranked = s.service.ranked) :
    Paced cfg delays since (s.follow service) := by
  have own : service.stage l = .idle := by rw [stage,Function.update_self]
  have other : ∀ l', l' ≠ l → service.stage l' = s.service.stage l' := fun l' differ => by rw [stage,Function.update_of_ne differ]
  have wasBusy : s.service.stage l ≠ .idle := fun impossible => by rw [published] at impossible; cases impossible
  have begun : ∀ l', (s.follow service).begun l' = s.begun l' := by
    intro l'
    by_cases mine : l' = l
    · subst mine
      exact follow_begun_of_busy wasBusy service
    · exact follow_begun_of_same (other l' mine)
  refine ⟨paced.started,last ▸ paced.last,fun l' busy => ?_,fun rests => ?_,fun l' => ?_,follow_held paced ?_ ?_,fun k => ?_⟩
  · show _ ≤ service.lastRecalcAt ∧ _
    rw [last,begun]
    have differ : l' ≠ l := by
      rintro rfl
      exact busy own
    exact paced.begun l' fun before => busy ((other l' differ).trans before)
  · show _ ∧ _ ≤ max service.lastRecalcAt since + _
    rw [last]
    by_cases mine : TaskLoop.timed = l
    · subst mine
      have asleep : (s.follow service).asleep = s.now := if_pos ⟨wasBusy,own⟩
      obtain ⟨began,ends⟩ := paced.begun .timed wasBusy
      have late := delays.late_nonneg
      have recent := le_max_left s.service.lastRecalcAt since
      have longer := le_max_right cfg.recalculateEverySeconds delays.recalculation
      rw [asleep]
      exact ⟨le_add_of_nonneg_right (add_nonneg interval late),by linarith⟩
    · rw [follow_asleep_of_same (other .timed mine)]
      exact paced.asleep ((other .timed mine).symm.trans rests)
  · show (service.arbitrage.inFlight l' ≠ none → service.stage l' = _) ∧ (service.ranked.inFlight l' ≠ none → service.stage l' = _)
    rw [arbitrage,ranked]
    by_cases mine : l' = l
    · subst mine
      exact ⟨absurd answered.1,absurd answered.2⟩
    · rw [other l' mine]
      exact paced.sending l'
  · exact congrArg LastWriter.Register.value arbitrage
  · exact congrArg LastWriter.Register.value ranked
  · show Covered _ (max service.lastRecalcAt since) _ _
    rw [last]
    refine (paced.keys k).keep fun l' t owes => ?_
    cases k with
    | arbitrage =>
      simp only [owing,begun] at owes ⊢
      simp only [follow,arbitrage]
      exact owes
    | ranked =>
      have differ : l' ≠ l := by
        rintro rfl
        simp [owing,published,answered.2] at owes
      simp only [owing,begun] at owes ⊢
      simp only [follow,ranked,other l' differ]
      exact owes

theorem Paced.followed (paced : Paced cfg delays since s) (interval : 0 ≤ cfg.recalculateEverySeconds) {service : FundingService}
    (moved : Moved s.now s.service service) : Paced cfg delays since (s.follow service) := by
  cases moved with
  | rests stage last arbitrage ranked => exact paced.follow_rests stage last arbitrage ranked
  | begins l idle stage last arbitrage ranked => exact paced.follow_begins interval idle stage last arbitrage ranked
  | ranks l answered computed stage last arbitrage ranked =>
    exact paced.follow_ranks answered computed stage last arbitrage ranked
  | ends l answered published stage last arbitrage ranked =>
    exact paced.follow_ends interval answered published stage last arbitrage ranked

theorem Paced.waked (paced : Paced cfg delays since s) (interval : 0 ≤ cfg.recalculateEverySeconds) (nowMs : ℤ) :
    Paced cfg delays since (s.step cfg (.wake nowMs)) := by
  rw [step]
  split
  next due =>
    obtain ⟨moved,skips⟩ := @moved_wake cfg s.service s.now nowMs due.1
    have after := paced.followed interval moved
    refine ⟨after.started,after.last,after.begun,fun idle => ?_,after.sending,after.held,after.keys⟩
    have late := delays.late_nonneg
    refine ⟨le_add_of_nonneg_right (add_nonneg interval late),?_⟩
    show s.now ≤ max (s.service.step cfg (.wake s.now nowMs)).lastRecalcAt since + _
    -- The loop sleeps again, so nothing has begun.
    have last : (s.service.step cfg (.wake s.now nowMs)).lastRecalcAt = s.service.lastRecalcAt := by
      rw [FundingService.step,if_pos due.1] at idle ⊢
      unfold timedRecalc at idle ⊢
      split at idle
      next recalculates =>
        rw [if_pos recalculates]
        simp [follow,beginRecalculate] at idle
      next early => rw [if_neg early]
    rw [last]
    have early := skips idle
    have recent := le_max_left s.service.lastRecalcAt since
    have longer := le_max_left cfg.recalculateEverySeconds delays.recalculation
    linarith
  next => exact paced

/-- Redis executes the pipeline of a loop. -/
theorem Paced.applied (paced : Paced cfg delays since s) (l : TaskLoop) : Paced cfg delays since (s.step cfg (.apply l)) := by
  have past : max s.service.lastRecalcAt since ≤ s.now := max_le paced.last paced.started
  refine ⟨paced.started,paced.last,paced.begun,paced.asleep,fun l' => ?_,fun k t set => ?_,fun k => ?_⟩
  · show ((s.service.arbitrage.arrive l).inFlight l' ≠ none → s.service.stage l' = _) ∧
      ((s.service.ranked.arrive l).inFlight l' ≠ none → s.service.stage l' = _)
    by_cases mine : l' = l
    · subst mine
      rw [LastWriter.Register.inFlight_arrive_self,LastWriter.Register.inFlight_arrive_self]
      exact ⟨absurd rfl,absurd rfl⟩
    · rw [LastWriter.Register.inFlight_arrive_of_ne _ mine,LastWriter.Register.inFlight_arrive_of_ne _ mine]
      exact paced.sending l'
  · by_cases sends : Sending s.service l k
    · cases k with
      | arbitrage => exact LastWriter.Register.value_arrive_of_sent sends
      | ranked => exact LastWriter.Register.value_arrive_of_sent sends
    · have before := paced.held k t ((if_neg sends).symm.trans set)
      cases k with
      | arbitrage =>
        show (s.service.arbitrage.arrive l).value ≠ none
        rw [LastWriter.Register.arrive_of_none (not_not.mp sends)]
        exact before
      | ranked =>
        show (s.service.ranked.arrive l).value ≠ none
        rw [LastWriter.Register.arrive_of_none (not_not.mp sends)]
        exact before
  · by_cases sends : Sending s.service l k
    · have set : (s.step cfg (.apply l)).setAt k = some s.now := if_pos sends
      rw [set]
      exact .renew past _
    · have kept : (s.step cfg (.apply l)).setAt k = s.setAt k := if_neg sends
      rw [kept]
      refine (paced.keys k).keep fun l' t owes => ?_
      cases k with
      | arbitrage =>
        have same := LastWriter.Register.arrive_of_none (not_not.mp sends)
        simp only [owing,step,FundingService.step,same] at owes ⊢
        exact owes
      | ranked =>
        have same := LastWriter.Register.arrive_of_none (not_not.mp sends)
        simp only [owing,step,FundingService.step,same] at owes ⊢
        exact owes

theorem Paced.elapsed (paced : Paced cfg delays since s) {later : ℚ} (timely : Timely cfg delays s (.elapse later)) :
    Paced cfg delays since (s.step cfg (.elapse later)) := by
  obtain ⟨ends,wakes⟩ := timely
  have forth : s.now ≤ max s.now later := le_max_left ..
  refine ⟨paced.started.trans forth,paced.last.trans forth,fun l busy => ?_,fun idle => ?_,paced.sending,paced.held,paced.keys⟩
  · obtain ⟨began,before⟩ := paced.begun l busy
    exact ⟨began,max_le before (ends l busy)⟩
  · obtain ⟨before,slept⟩ := paced.asleep idle
    exact ⟨max_le before (wakes idle),slept⟩

theorem Paced.step (paced : Paced cfg delays since s) (interval : 0 ≤ cfg.recalculateEverySeconds) {a : Action}
    (timely : Timely cfg delays s a) : Paced cfg delays since (s.step cfg a) := by
  cases a with
  | elapse later => exact paced.elapsed timely
  | message m nowMs => exact paced.followed interval (moved_message s.service m s.now nowMs)
  | wake nowMs => exact paced.waked interval nowMs
  | apply l => exact paced.applied l
  | returned l clock => exact paced.followed interval (moved_returned s.service l clock s.now)
  | purge => exact ⟨paced.started,paced.last,paced.begun,paced.asleep,paced.sending,paced.held,paced.keys⟩

/-! ### Runs -/

theorem paced_start (interval : 0 ≤ cfg.recalculateEverySeconds) (monotonic : 0 ≤ since) (staleAfter : ℚ) :
    Paced cfg delays since (start since staleAfter) := by
  have latest : max (0 : ℚ) since = since := max_eq_right monotonic
  have late := delays.late_nonneg
  refine ⟨le_rfl,monotonic,fun _ impossible => absurd rfl impossible,fun _ => ⟨?_,?_⟩,
    fun _ => ⟨absurd rfl,absurd rfl⟩,(fun _ _ impossible => by cases impossible),fun k => .inl ?_⟩
  · exact le_add_of_nonneg_right (add_nonneg interval late)
  · show since ≤ max 0 since + _
    rw [latest]
    exact le_add_of_nonneg_right (interval.trans (le_max_left ..))
  · exact latest.le

/-- A key is there once the service has run for the gap of two recalculations and the time of one,
    if that is shorter than the keys live. -/
theorem Paced.live (paced : Paced cfg delays since s) (interval : 0 ≤ cfg.recalculateEverySeconds)
    (short : gap cfg delays + delays.recalculation < redisKeyTtl)
    (warm : since + (gap cfg delays + delays.recalculation) < s.now) (k : PublishedKey) : s.Live k := by
  have age := (paced.keys k).age (paced.inTime interval)
    (fun l t owes => by
      obtain ⟨busy,rfl⟩ := owing_busy paced owes
      exact (paced.begun l busy).2)
    delays.recalculation_nonneg
  cases set : s.setAt k with
  | none =>
    rw [set] at age
    exact absurd age (not_le.mpr warm)
  | some t =>
    rw [set] at age
    refine ⟨paced.held k t set,t,set,age.trans_lt ?_⟩
    have longer : t + (gap cfg delays + delays.recalculation) < t + redisKeyTtl := by linarith
    exact longer

/-- Where no sleep of the timed loop is late by more than `delays.late` and no recalculation takes
    longer than `delays.recalculation`, both keys are there in every state of every run, once the
    service has run for the gap of two recalculations and the time of one, which must be shorter
    than the keys live. -/
theorem keys_stay (cfg : Settings) (delays : Delays) (since staleAfter : ℚ) (interval : 0 ≤ cfg.recalculateEverySeconds)
    (monotonic : 0 ≤ since) (short : gap cfg delays + delays.recalculation < redisKeyTtl) (actions : List Action)
    (timely : Each (step cfg) (Timely cfg delays) (start since staleAfter) actions) :
    Throughout (step cfg) (fun s => since + (gap cfg delays + delays.recalculation) < s.now → ∀ k, s.Live k)
      (start since staleAfter) actions := by
  have paced := @kept_of_conditions _ _ (step cfg) _ (Timely cfg delays) (Paced cfg delays since)
    (fun _ _ holds meets => holds.step interval meets) (paced_start interval monotonic staleAfter) _ timely
  intro before within warm k
  exact (paced before within).live interval short warm k

/-- The interval of the lifespan, with five seconds for each delay. -/
def tenSeconds : Settings := ⟨roundTo,0,5,10⟩
def fiveLate : Delays := ⟨5,5,by norm_num,by norm_num⟩
def round (now : ℚ) : List Action :=
  [.elapse now,.wake 0,.apply .timed,.returned .timed (UntypedService.stillClock now).typed,.apply .timed,
    .returned .timed (UntypedService.stillClock now).typed]
def fourRounds : List Action := round 10 ++ round 20 ++ round 30 ++ round 40 ++ [.elapse 50]

theorem fourRounds_stay : Each (step tenSeconds) (Timely tenSeconds fiveLate) (start 0 120) fourRounds ∧
    ∀ k, ((start 0 120).run tenSeconds fourRounds).Live k := by
  have timely : Each (step tenSeconds) (Timely tenSeconds fiveLate) (start 0 120) fourRounds := by
    simp only [fourRounds,round,List.cons_append,List.nil_append,each_cons,Timely,true_and]
    refine ⟨⟨?_,?_⟩,⟨?_,?_⟩,⟨?_,?_⟩,⟨?_,?_⟩,⟨?_,?_⟩,each_nil⟩
    -- Both loops are idle whenever the clock moves on.
    any_goals exact fun l busy => by cases l <;> exact absurd (by decide +kernel) busy
    all_goals exact fun _ => by decide +kernel
  have short : gap tenSeconds fiveLate + fiveLate.recalculation < redisKeyTtl := by decide +kernel
  refine ⟨timely,?_⟩
  exact keys_stay tenSeconds fiveLate 0 120 (by decide +kernel) le_rfl short fourRounds timely fourRounds (List.prefix_refl _)
    (by decide +kernel)

end PacedService
end FundingRadar
