import FundingRadar.DatedWrites
import FundingRadar.RecalculationCadence

/-!
How old what `FundingService` publishes can be. The two keys hold what was computed a while ago,
from snapshots that the housekeeping task drops only once they are stale and it wakes; an
opportunity or a rank needs a live snapshot, but takes the others along. Where the service finds
both keys absent, Redis executes every pipeline and no task is late, whatever stands in a key was
received within a bound that these delays add up to, and what is reported is shown within another
(`served_recent`).
-/
namespace FundingRadar
open Runs Renewals DatedWrites FundingService

/-- The service with its housekeeping task. -/
structure HousekeptService where
  paced : PacedService
  /-- When the housekeeping task last began to sleep. -/
  purgedAt : ℚ

namespace HousekeptService
open PacedService (Action Delays gap)
open FundingAggregator (snapToRow buildRanked)
open ArbitrageCalculator (calculate)

/-- What the service is configured with, and how late its tasks are. -/
structure Pace where
  cfg : Settings
  staleAfter : ℚ
  purgeInterval : ℚ
  delays : Delays
  recalculates : 0 ≤ cfg.recalculateEverySeconds
  stales : 0 ≤ staleAfter
  purges : 0 ≤ purgeInterval

/-- A record, with when the service received it. -/
abbrev Received := ℚ × NormalizedFundingData

section
variable (p : Pace)

/-- The service as it starts, with its tasks. -/
def start (since : ℚ) : HousekeptService := ⟨.start since p.staleAfter,since⟩

/-- `_purge_loop` purges after its sleep. -/
def step (s : HousekeptService) : Action → HousekeptService
  | .purge => if s.purgedAt + p.purgeInterval ≤ s.paced.now then ⟨s.paced.step p.cfg .purge,s.paced.now⟩ else s
  | a => { s with paced := s.paced.step p.cfg a }

/-- What the subscriber receives in a step. -/
def receives (s : HousekeptService) : Action → List Received
  | .message (some d) _ => if s.paced.service.stage .subscriber = .idle then [(s.paced.now,d)] else []
  | _ => []

def run (s : HousekeptService) (actions : List Action) : HousekeptService := actions.foldl (step p) s
def received (s : HousekeptService) (actions : List Action) : List Received := outputs (step p) receives s actions

/-- The clock does not pass what is due, and stands still between two awaits. -/
def Timely (s : HousekeptService) (a : Action) : Prop :=
  PacedService.Timely p.cfg p.delays s.paced a ∧ match a with
    | .elapse later => later ≤ s.purgedAt + (p.purgeInterval + p.delays.late)
    | .returned _ clock => clock = .still s.paced.now
    | _ => True

/-- How long ago what a key holds was computed, and how long ago the service received what it
    computes from. -/
def lag : ℚ := gap p.cfg p.delays + p.delays.recalculation + p.delays.recalculation
def keeps : ℚ := p.staleAfter + (p.purgeInterval + p.delays.late)

variable (out : List Received)

/-- At `now` a key tells of the record as it was received and stood at `built`; newer ones of its
    exchange and token have come within the lag only. -/
structure Told (now received built : ℚ) (d : NormalizedFundingData) : Prop where
  reported : (received,d) ∈ out
  recent : now ≤ built + lag p
  kept : built ≤ received + keeps p
  newest : ∀ e ∈ out, e.2.exchange = d.exchange → e.2.token = d.token → e.1 + lag p < now → e.1 ≤ received

/-- What the two keys show of what has been received. -/
structure Served (now : ℚ) (ranked : Option (List TokenRankRow)) (opportunities : Option (List ArbitrageResult)) : Prop where
  rows : ∀ rs ∈ ranked, ∀ r ∈ rs, ∀ row ∈ r.rows, ∃ received built d, Told p out now received built d ∧
    d.token = r.token ∧ row = snapToRow p.cfg.rnd ⟨d,received⟩ built built
  /-- A token that is ranked has been reported. -/
  tokens : ∀ rs ∈ ranked, ∀ r ∈ rs, ∃ e ∈ out, e.2.token = r.token ∧ now ≤ e.1 + (defaultStaleAfter + lag p)
  legs : ∀ rs ∈ opportunities, ∀ r ∈ rs, ∀ leg ∈ [r.longLeg,r.shortLeg], ∃ received built d,
    Told p out now received built d ∧ d.token = r.token ∧ leg = .of leg.side ⟨d,received⟩ built
  /-- An opportunity is about a token that two exchanges have reported. -/
  pairs : ∀ rs ∈ opportunities, ∀ r ∈ rs, ∃ e ∈ out, ∃ e' ∈ out, e.2.exchange ≠ e'.2.exchange ∧
    (e.2.token = r.token ∧ now ≤ e.1 + (p.staleAfter + lag p)) ∧ e'.2.token = r.token ∧ now ≤ e'.1 + (p.staleAfter + lag p)
  /-- An exchange that has been silent for long is in neither key. -/
  silent : ∀ exchange, (∀ e ∈ out, e.2.exchange = exchange → e.1 + (keeps p + lag p) < now) →
    (∀ rs ∈ ranked, ∀ r ∈ rs, ∀ row ∈ r.rows, row.exchange ≠ exchange) ∧
      ∀ rs ∈ opportunities, ∀ r ∈ rs, r.longLeg.exchange ≠ exchange ∧ r.shortLeg.exchange ≠ exchange
  /-- What is reported is ranked, as it was reported then or later. -/
  reported : ∀ rs ∈ ranked, ∀ e ∈ out, e.1 + lag p < now → now ≤ e.1 + min p.staleAfter defaultStaleAfter →
    ∃ r ∈ rs, r.token = e.2.token ∧ ∃ row ∈ r.rows, ∃ received built d, Told p out now received built d ∧
      e.1 ≤ received ∧ d.exchange = e.2.exchange ∧ row = snapToRow p.cfg.rnd ⟨d,received⟩ built built

/-! ### The invariant -/

/-- The normalizer has what was received since it last purged, and what was not stale then. -/
structure Kept (purged now : ℚ) (n : DataNormalizer) : Prop where
  coherent : n.Coherent
  limit : n.staleAfter = p.staleAfter
  recorded : ∀ exchange token s, n.getSnapshot exchange token = some s →
    (s.receivedAt,s.data) ∈ out ∧ purged ≤ s.receivedAt + p.staleAfter ∧
      ∀ e ∈ out, e.2.exchange = exchange → e.2.token = token → e.1 ≤ s.receivedAt
  past : ∀ e ∈ out, e.1 ≤ now
  present : ∀ e ∈ out, now ≤ e.1 + p.staleAfter → ∃ s, n.getSnapshot e.2.exchange e.2.token = some s ∧ e.1 ≤ s.receivedAt

/-- What a calculation at `t` reads. -/
structure Read (t : ℚ) (n : DataNormalizer) : Prop where
  coherent : n.Coherent
  limit : n.staleAfter = p.staleAfter
  recorded : ∀ exchange token s, n.getSnapshot exchange token = some s →
    (s.receivedAt,s.data) ∈ out ∧ t ≤ s.receivedAt + keeps p ∧
      ∀ e ∈ out, e.2.exchange = exchange → e.2.token = token → e.1 < t → e.1 ≤ s.receivedAt
  present : ∀ e ∈ out, e.1 < t → t ≤ e.1 + p.staleAfter → ∃ s, n.getSnapshot e.2.exchange e.2.token = some s ∧ e.1 ≤ s.receivedAt

/-- A result that was made at `t`. -/
def Made {ν : Type} (now : ℚ) (build : DataNormalizer → ℚ → ν → Prop) (v : ν) (t : ℚ) : Prop :=
  t ≤ now ∧ ∃ n, Read p out t n ∧ build n t v
def Ranks (n : DataNormalizer) (t : ℚ) (v : List TokenRankRow) : Prop := v = buildRanked p.cfg.rnd n (.still t)
def Offers (n : DataNormalizer) (t : ℚ) (v : List ArbitrageResult) : Prop :=
  ∃ nowMs, v = calculate p.cfg.rnd p.cfg.minNetAprTaker n t nowMs

structure Inv (since : ℚ) (s : HousekeptService) : Prop where
  paced : PacedService.Paced p.cfg p.delays since s.paced
  kept : Kept p out s.purgedAt s.paced.now s.paced.service.normalizer
  purged : s.purgedAt ≤ s.paced.now
  due : s.paced.now ≤ s.purgedAt + (p.purgeInterval + p.delays.late)
  opportunities : Dated (Made p out s.paced.now (Offers p)) p.delays.recalculation s.paced.begun
    (s.paced.setAt .arbitrage) s.paced.service.arbitrage
  ranked : Dated (Made p out s.paced.now (Ranks p)) p.delays.recalculation s.paced.begun
    (s.paced.setAt .ranked) s.paced.service.ranked

end

variable {p : Pace} {out : List Received} {since now : ℚ} {n : DataNormalizer} {s : HousekeptService}

/-! ### The normalizer -/

theorem Kept.init (p : Pace) (since : ℚ) : Kept p [] since since (.init p.staleAfter) := by
  refine ⟨.init p.staleAfter,rfl,fun _ _ _ impossible => ?_,fun _ impossible => ?_,fun _ impossible => ?_⟩
  · cases impossible
  · cases impossible
  · cases impossible

theorem Kept.elapse {purged later : ℚ} (kept : Kept p out purged now n) (forth : now ≤ later) :
    Kept p out purged later n :=
  ⟨kept.coherent,kept.limit,kept.recorded,fun e member => (kept.past e member).trans forth,
    fun e member live => kept.present e member (forth.trans live)⟩

theorem Kept.update {purged : ℚ} (kept : Kept p out purged now n) (before : purged ≤ now) (d : NormalizedFundingData) :
    Kept p (out ++ [(now,d)]) purged now (n.update now d) where
  coherent := kept.coherent.update now d
  limit := kept.limit
  recorded exchange token s found := by
    rw [DataNormalizer.getSnapshot_update] at found
    split at found
    · cases found
      refine ⟨List.mem_append_right _ (List.mem_singleton_self _),?_,fun e member _ _ => ?_⟩
      · exact before.trans (le_add_of_nonneg_right p.stales)
      · rcases List.mem_append.mp member with old | new
        · exact kept.past e old
        · rw [List.mem_singleton.mp new]
    · next differ =>
      obtain ⟨member,live,newest⟩ := kept.recorded exchange token s found
      refine ⟨List.mem_append_left _ member,live,fun e among sameExchange sameToken => ?_⟩
      rcases List.mem_append.mp among with old | new
      · exact newest e old sameExchange sameToken
      · obtain rfl := List.mem_singleton.mp new
        exact absurd ⟨sameExchange.symm,sameToken.symm⟩ differ
  past e member := by
    rcases List.mem_append.mp member with old | new
    · exact kept.past e old
    · rw [List.mem_singleton.mp new]
  present e member live := by
    rw [DataNormalizer.getSnapshot_update]
    split
    · refine ⟨_,rfl,?_⟩
      rcases List.mem_append.mp member with old | new
      · exact kept.past e old
      · rw [List.mem_singleton.mp new]
    · next differ =>
      rcases List.mem_append.mp member with old | new
      · exact kept.present e old live
      · obtain rfl := List.mem_singleton.mp new
        exact absurd ⟨rfl,rfl⟩ differ

theorem not_stale_iff (s : ExchangeSnapshot) (limit now : ℚ) : s.isStale limit now = false ↔ now ≤ s.receivedAt + limit := by
  rw [ExchangeSnapshot.isStale,decide_eq_false_iff_not,gt_iff_lt,not_lt,sub_le_iff_le_add']

theorem Kept.purge {purged : ℚ} (kept : Kept p out purged now n) : Kept p out now now (n.purgeStale now).1 where
  coherent := (DataNormalizer.step_refines kept.coherent (.purgeStale now)).1
  limit := (DataNormalizer.staleAfter_purgeKeys n _).trans kept.limit
  recorded exchange token s found := by
    rw [DataNormalizer.getSnapshot_purgeStale,Option.filter_eq_some_iff,kept.limit] at found
    obtain ⟨held,live⟩ := found
    obtain ⟨member,-,newest⟩ := kept.recorded exchange token s held
    exact ⟨member,(not_stale_iff s p.staleAfter now).mp (by simpa using live),newest⟩
  past := kept.past
  present e member live := by
    obtain ⟨s,held,newer⟩ := kept.present e member live
    refine ⟨s,?_,newer⟩
    rw [DataNormalizer.getSnapshot_purgeStale,held,Option.filter_some,kept.limit]
    have fresh := (not_stale_iff s p.staleAfter now).mpr (live.trans (add_le_add_left newer p.staleAfter))
    rw [fresh]
    rfl

/-- What a calculation reads now. -/
theorem Kept.read {purged : ℚ} (kept : Kept p out purged now n) (due : now ≤ purged + (p.purgeInterval + p.delays.late)) :
    Read p out now n where
  coherent := kept.coherent
  limit := kept.limit
  recorded exchange token s found := by
    obtain ⟨member,live,newest⟩ := kept.recorded exchange token s found
    refine ⟨member,?_,fun e among sameExchange sameToken _ => newest e among sameExchange sameToken⟩
    unfold keeps
    linarith
  present e member _ live := kept.present e member live

theorem Made.later {ν : Type} {build : DataNormalizer → ℚ → ν → Prop} {v : ν} {t later : ℚ} {new : List Received}
    (made : Made p out now build v t) (forth : now ≤ later) (after : ∀ e ∈ new, now ≤ e.1) :
    Made p (out ++ new) later build v t := by
  obtain ⟨past,n,read,built⟩ := made
  have old : ∀ e ∈ out ++ new, e.1 < t → e ∈ out := by
    intro e member before
    rcases List.mem_append.mp member with old | late
    · exact old
    · exact absurd (past.trans (after e late)) (not_le.mpr before)
  refine ⟨past.trans forth,n,⟨read.coherent,read.limit,fun exchange token s found => ?_,fun e member before live => ?_⟩,built⟩
  · obtain ⟨member,live,newest⟩ := read.recorded exchange token s found
    refine ⟨List.mem_append_left _ member,live,fun e among sameExchange sameToken before => ?_⟩
    exact newest e (old e among before) sameExchange sameToken before
  · exact read.present e (old e member before) before live

/-! ### One step -/

/-- What a loop computes in a step, it computes from what the normalizer has afterwards. -/
structure Computes (p : Pace) (now : ℚ) (s s' : FundingService) : Prop where
  opportunities : s'.arbitrage = s.arbitrage ∨ ∃ l v, s.stage l = .idle ∧ s'.stage l ≠ .idle ∧
    Offers p s'.normalizer now v ∧ s'.arbitrage = s.arbitrage.send l v
  ranked : s'.ranked = s.ranked ∨ ∃ l v, s.stage l ≠ .idle ∧ Ranks p s'.normalizer now v ∧ s'.ranked = s.ranked.send l v

theorem computes_begin (s : FundingService) {l : TaskLoop} (idle : s.stage l = .idle) (now : ℚ) (nowMs : ℤ) :
    Computes p now s (s.beginRecalculate p.cfg l now nowMs) := by
  refine ⟨.inr ⟨l,_,idle,fun impossible => ?_,⟨nowMs,rfl⟩,rfl⟩,.inl rfl⟩
  simp [beginRecalculate] at impossible

theorem computes_message (s : FundingService) (m : Option NormalizedFundingData) (now : ℚ) (nowMs : ℤ) :
    Computes p now s (s.step p.cfg (.message m now nowMs)) := by
  rw [FundingService.step]
  split
  next idle =>
    cases m with
    | none => exact ⟨.inl rfl,.inl rfl⟩
    | some d =>
      unfold handleMessage
      dsimp only
      split
      · have begun := @computes_begin p { s with normalizer := s.normalizer.update now d, updateCounter := s.updateCounter + 1 }
          .subscriber idle now nowMs
        exact ⟨begun.opportunities,begun.ranked⟩
      · exact ⟨.inl rfl,.inl rfl⟩
  next => exact ⟨.inl rfl,.inl rfl⟩

theorem computes_wake (s : FundingService) (now : ℚ) (nowMs : ℤ) : Computes p now s (s.step p.cfg (.wake now nowMs)) := by
  rw [FundingService.step]
  split
  next idle =>
    unfold timedRecalc
    split
    · exact computes_begin s idle now nowMs
    · exact ⟨.inl rfl,.inl rfl⟩
  next => exact ⟨.inl rfl,.inl rfl⟩

theorem computes_returned (s : FundingService) (l : TaskLoop) (now : ℚ) :
    Computes p now s (s.step p.cfg (.returned l (.still now))) := by
  rw [FundingService.step]
  split
  · unfold resume
    split
    · exact ⟨.inl rfl,.inl rfl⟩
    · next computed =>
      refine ⟨.inl rfl,.inr ⟨l,_,fun impossible => ?_,rfl,rfl⟩⟩
      rw [computed] at impossible
      cases impossible
    · exact ⟨.inl rfl,.inl rfl⟩
  · exact ⟨.inl rfl,.inl rfl⟩

theorem normalizer_message (cfg : Settings) (s : FundingService) (m : Option NormalizedFundingData) (now : ℚ) (nowMs : ℤ) :
    (s.step cfg (.message m now nowMs)).normalizer =
      if s.stage .subscriber = .idle then (m.map (s.normalizer.update now)).getD s.normalizer else s.normalizer := by
  rw [FundingService.step]
  split
  · cases m with
    | none => rfl
    | some d =>
      unfold handleMessage
      dsimp only
      split <;> rfl
  · rfl

theorem normalizer_wake (cfg : Settings) (s : FundingService) (now : ℚ) (nowMs : ℤ) :
    (s.step cfg (.wake now nowMs)).normalizer = s.normalizer := by
  rw [FundingService.step]
  split
  · unfold timedRecalc
    split <;> rfl
  · rfl

theorem normalizer_returned (cfg : Settings) (s : FundingService) (l : TaskLoop) (clock : FundingAggregator.Clock) :
    (s.step cfg (.returned l clock)).normalizer = s.normalizer := by
  rw [FundingService.step]
  split
  · unfold resume
    split <;> rfl
  · rfl

/-- A loop that sends something is in a recalculation. -/
theorem Inv.busy (inv : Inv p out since s) (k : PublishedKey) {l : TaskLoop}
    (sends : PacedService.Sending s.paced.service l k) : s.paced.service.stage l ≠ .idle := by
  intro idle
  obtain ⟨computing,publishing⟩ := inv.paced.sending l
  cases k with
  | arbitrage =>
    have computed := computing sends
    rw [idle] at computed
    cases computed
  | ranked =>
    have published := publishing sends
    rw [idle] at published
    cases published

/-- What is received in a step, and what is computed from it. -/
theorem Inv.computed (inv : Inv p out since s) {service : FundingService} {new : List Received}
    (kept : Kept p (out ++ new) s.purgedAt s.paced.now service.normalizer) (after : ∀ e ∈ new, s.paced.now ≤ e.1)
    (computes : Computes p s.paced.now s.paced.service service) :
    Dated (Made p (out ++ new) s.paced.now (Offers p)) p.delays.recalculation (s.paced.follow service).begun
        (s.paced.setAt .arbitrage) service.arbitrage ∧
      Dated (Made p (out ++ new) s.paced.now (Ranks p)) p.delays.recalculation (s.paced.follow service).begun
        (s.paced.setAt .ranked) service.ranked := by
  have opportunities := inv.opportunities.keep (fun v t made => made.later le_rfl after)
    fun l sends => PacedService.follow_begun_of_busy (inv.busy .arbitrage sends) service
  have ranked := inv.ranked.keep (fun v t made => made.later le_rfl after)
    fun l sends => PacedService.follow_begun_of_busy (inv.busy .ranked sends) service
  have reads := kept.read inv.due
  refine ⟨?_,?_⟩
  · rcases computes.opportunities with same | ⟨l,v,idle,busy,offers,sent⟩
    · rw [same]
      exact opportunities
    · rw [sent]
      have begun : (s.paced.follow service).begun l = s.paced.now := if_pos ⟨idle,busy⟩
      exact opportunities.send ⟨le_rfl,_,reads,offers⟩ begun.le
  · rcases computes.ranked with same | ⟨l,v,busy,ranks,sent⟩
    · rw [same]
      exact ranked
    · rw [sent]
      have begun := PacedService.follow_begun_of_busy busy service
      exact ranked.send ⟨le_rfl,_,reads,ranks⟩ (begun.trans_le ((inv.paced.begun l busy).1.trans inv.paced.last))

theorem Inv.elapsed (inv : Inv p out since s) {later : ℚ}
    (timely : Timely p s (.elapse later)) (paced : PacedService.Paced p.cfg p.delays since (s.paced.step p.cfg (.elapse later))) :
    Inv p out since (s.step p (.elapse later)) := by
  have forth : s.paced.now ≤ max s.paced.now later := le_max_left ..
  have nothing : ∀ e ∈ ([] : List Received), s.paced.now ≤ e.1 := fun _ impossible => by cases impossible
  refine ⟨paced,inv.kept.elapse forth,inv.purged.trans forth,max_le inv.due timely.2,?_,?_⟩
  · exact inv.opportunities.keep (fun v t made => List.append_nil out ▸ made.later forth nothing) fun _ _ => rfl
  · exact inv.ranked.keep (fun v t made => List.append_nil out ▸ made.later forth nothing) fun _ _ => rfl

theorem Inv.messaged (inv : Inv p out since s)
    (m : Option NormalizedFundingData) (nowMs : ℤ)
    (paced : PacedService.Paced p.cfg p.delays since (s.paced.step p.cfg (.message m nowMs))) :
    Inv p (out ++ s.receives (.message m nowMs)) since (s.step p (.message m nowMs)) := by
  have normalizer := normalizer_message p.cfg s.paced.service m s.paced.now nowMs
  have kept : Kept p (out ++ s.receives (.message m nowMs)) s.purgedAt s.paced.now
      (s.paced.service.step p.cfg (.message m s.paced.now nowMs)).normalizer := by
    rw [normalizer]
    cases m with
    | none =>
      have nothing : s.receives (.message none nowMs) = [] := rfl
      rw [Option.map_none,Option.getD_none,ite_self,nothing,List.append_nil]
      exact inv.kept
    | some d =>
      rw [receives]
      split
      · exact inv.kept.update inv.purged d
      · rw [List.append_nil]
        exact inv.kept
  have after : ∀ e ∈ s.receives (.message m nowMs), s.paced.now ≤ e.1 := by
    intro e member
    cases m with
    | none => cases member
    | some d =>
      rw [receives] at member
      split at member
      · rw [List.mem_singleton.mp member]
      · cases member
  obtain ⟨opportunities,ranked⟩ := inv.computed kept after (computes_message s.paced.service m s.paced.now nowMs)
  exact ⟨paced,kept,inv.purged,inv.due,opportunities,ranked⟩

/-- A step of the loops in which nothing is received. -/
theorem Inv.followed (inv : Inv p out since s) {service : FundingService}
    (normalizer : service.normalizer = s.paced.service.normalizer) (computes : Computes p s.paced.now s.paced.service service) :
    Kept p out s.purgedAt s.paced.now service.normalizer ∧
      Dated (Made p out s.paced.now (Offers p)) p.delays.recalculation (s.paced.follow service).begun
        (s.paced.setAt .arbitrage) service.arbitrage ∧
      Dated (Made p out s.paced.now (Ranks p)) p.delays.recalculation (s.paced.follow service).begun
        (s.paced.setAt .ranked) service.ranked := by
  have kept : Kept p out s.purgedAt s.paced.now service.normalizer := normalizer ▸ inv.kept
  have computed := @Inv.computed p out since s inv service [] (by rwa [List.append_nil])
    (fun _ impossible => by cases impossible) computes
  rw [List.append_nil] at computed
  exact ⟨kept,computed⟩

theorem Inv.applied (inv : Inv p out since s) (l : TaskLoop)
    (paced : PacedService.Paced p.cfg p.delays since (s.paced.step p.cfg (.apply l))) :
    Inv p out since (s.step p (.apply l)) := by
  refine ⟨paced,inv.kept,inv.purged,inv.due,?_,?_⟩
  · exact inv.opportunities.arrive fun sends => (inv.paced.begun l (inv.busy .arbitrage sends)).2
  · exact inv.ranked.arrive fun sends => (inv.paced.begun l (inv.busy .ranked sends)).2

/-- The housekeeping task purges, and sleeps again. -/
theorem Inv.housekept (inv : Inv p out since s)
    (paced : PacedService.Paced p.cfg p.delays since (s.paced.step p.cfg .purge)) :
    Inv p out since (s.step p .purge) := by
  rw [step]
  split
  · refine ⟨paced,inv.kept.purge,le_rfl,?_,inv.opportunities,inv.ranked⟩
    exact le_add_of_nonneg_right (add_nonneg p.purges p.delays.late_nonneg)
  · exact inv

theorem Inv.step (inv : Inv p out since s) {a : Action} (timely : Timely p s a) :
    Inv p (out ++ s.receives a) since (s.step p a) := by
  have paced := inv.paced.step p.recalculates timely.1
  cases a with
  | elapse later => exact (List.append_nil out).symm ▸ inv.elapsed timely paced
  | message m nowMs => exact inv.messaged m nowMs paced
  | wake nowMs =>
    have nothing : s.receives (.wake nowMs) = [] := rfl
    rw [nothing,List.append_nil]
    obtain ⟨kept,opportunities,ranked⟩ := inv.followed (normalizer_wake p.cfg s.paced.service s.paced.now nowMs)
      (computes_wake s.paced.service s.paced.now nowMs)
    rw [HousekeptService.step]
    · rw [PacedService.step] at paced ⊢
      split
      next due =>
        rw [if_pos due] at paced
        exact ⟨paced,kept,inv.purged,inv.due,opportunities,ranked⟩
      next => exact inv
    · intro impossible
      cases impossible
  | apply l => exact (List.append_nil out).symm ▸ inv.applied l paced
  | returned l clock =>
    obtain rfl := timely.2
    have nothing : s.receives (.returned l (.still s.paced.now)) = [] := rfl
    rw [nothing,List.append_nil]
    obtain ⟨kept,opportunities,ranked⟩ := inv.followed (normalizer_returned p.cfg s.paced.service l (.still s.paced.now))
      (computes_returned s.paced.service l s.paced.now)
    exact ⟨paced,kept,inv.purged,inv.due,opportunities,ranked⟩
  | purge => exact (List.append_nil out).symm ▸ inv.housekept paced

/-! ### Runs -/

theorem run_inv (monotonic : 0 ≤ since)
    {actions : List Action} (timely : Each (step p) (Timely p) (start p since) actions) :
    Inv p (received p (start p since) actions) since
      (run p (start p since) actions) := by
  refine @outputs_kept_of_each _ _ (step p) (start p since) (Timely p) _ receives
    (fun out s => Inv p out since s)
    (fun out s a inv meets => inv.step meets) ?_ actions timely
  refine ⟨PacedService.paced_start p.recalculates monotonic p.staleAfter,.init p since,le_rfl,?_,dated_start ..,dated_start ..⟩
  exact le_add_of_nonneg_right (add_nonneg p.purges p.delays.late_nonneg)

/-- When what a key holds was computed. -/
theorem Inv.recent (inv : Inv p out since s) (k : PublishedKey) {ν : Type} {made : ν → ℚ → Prop}
    {r : LastWriter.Register TaskLoop ν} (dated : Dated made p.delays.recalculation s.paced.begun (s.paced.setAt k) r)
    {v : ν} (holds : r.value = some v) :
    ∃ t, made v t ∧ s.paced.now ≤ t + lag p := by
  obtain ⟨t,u,was,set,inTime⟩ := dated.value v holds
  have age := (inv.paced.keys k).age (inv.paced.inTime p.recalculates)
    (fun l t owes => by
      obtain ⟨busy,rfl⟩ := PacedService.owing_busy inv.paced owes
      exact (inv.paced.begun l busy).2)
    p.delays.recalculation_nonneg
  rw [set,Option.getD_some] at age
  refine ⟨t,was,?_⟩
  unfold lag
  linarith

/-! ### What the keys tell -/

variable {t : ℚ}

theorem Read.told (read : Read p out t n) (recent : now ≤ t + lag p) {exchange token : String}
    {snap : ExchangeSnapshot} (held : n.getSnapshot exchange token = some snap) :
    snap.data.exchange = exchange ∧ snap.data.token = token ∧ Told p out now snap.receivedAt t snap.data := by
  obtain ⟨rfl,rfl⟩ := read.coherent.labelled exchange token snap held
  obtain ⟨member,kept,newest⟩ := read.recorded _ _ snap held
  refine ⟨rfl,rfl,member,recent,kept,fun e among sameExchange sameToken old => newest e among sameExchange sameToken ?_⟩
  linarith

/-- An entry of a ranking. -/
theorem Read.entry (read : Read p out t n) {r : TokenRankRow} (member : r ∈ buildRanked p.cfg.rnd n (.still t)) :
    FundingAggregator.Shown n (.still t) r.token ∧
      ∀ row, row ∈ r.rows ↔ ∃ exchange snap, n.getSnapshot exchange r.token = some snap ∧ row = snapToRow p.cfg.rnd snap t t := by
  obtain ⟨token,tv,view,shown,given⟩ := (FundingAggregator.mem_buildRanked_iff read.coherent r).mp member
  obtain ⟨r',given',named,-,-,-,-,rows⟩ := @FundingAggregator.rankRow_eq_some p.cfg.rnd _ _ _ _ read.coherent view shown
  rw [given] at given'
  cases given'
  subst named
  refine ⟨shown,fun row => ?_⟩
  rw [rows,List.mem_map]
  constructor
  · rintro ⟨snap,among,rfl⟩
    exact ⟨_,snap,(FundingAggregator.mem_allSnapshots_iff read.coherent view snap).mp among,rfl⟩
  · rintro ⟨exchange,snap,held,rfl⟩
    obtain ⟨rfl,-⟩ := read.coherent.labelled exchange _ snap held
    exact ⟨snap,(FundingAggregator.mem_allSnapshots_iff read.coherent view snap).mpr held,rfl⟩

/-- A candidate has live snapshots of two exchanges. -/
theorem exists_two_live (coherent : n.Coherent) {token : String} {tv : TokenView} (view : n.getTokenView token = some tv)
    {staleAfter : ℚ}
    (candidate : 2 ≤ tv.exchangeCount staleAfter t) : ∃ a b, a.data.exchange ≠ b.data.exchange ∧
      (a ∈ tv.snapshots.values ∧ a.isStale staleAfter t = false) ∧ b ∈ tv.snapshots.values ∧ b.isStale staleAfter t = false := by
  rw [TokenView.exchangeCount,TokenView.liveSnapshots,length_sortedByDesc] at candidate
  have distinct := (ArbitrageCalculator.nodup_values coherent view).filter (fun s => !s.isStale staleAfter t)
  have live : ∀ a ∈ tv.snapshots.values.filter (fun s => !s.isStale staleAfter t),
      a ∈ tv.snapshots.values ∧ a.isStale staleAfter t = false := by
    intro a member
    simpa using member
  generalize tv.snapshots.values.filter (fun s => !s.isStale staleAfter t) = found at candidate distinct live
  cases found with
  | nil => cases candidate
  | cons a found =>
    cases found with
    | nil => exact absurd candidate (by simp)
    | cons b rest =>
      have inA := live a (List.mem_cons_self ..)
      have inB := live b (List.mem_cons_of_mem a (List.mem_cons_self ..))
      refine ⟨a,b,fun same => ?_,inA,inB⟩
      obtain rfl := ArbitrageCalculator.eq_of_exchange_eq coherent view inA.1 inB.1 same
      exact (List.nodup_cons.mp distinct).1 (List.mem_cons_self ..)

/-- The legs of an opportunity, and the two exchanges that make it one. -/
theorem Read.offer (read : Read p out t n) {nowMs : ℤ} {r : ArbitrageResult}
    (member : r ∈ calculate p.cfg.rnd p.cfg.minNetAprTaker n t nowMs) :
    (∀ leg ∈ [r.longLeg,r.shortLeg], ∃ exchange snap, n.getSnapshot exchange r.token = some snap ∧ leg = .of leg.side snap t) ∧
      ∃ exchange exchange' snap snap', exchange ≠ exchange' ∧
        (n.getSnapshot exchange r.token = some snap ∧ t ≤ snap.receivedAt + p.staleAfter) ∧
          n.getSnapshot exchange' r.token = some snap' ∧ t ≤ snap'.receivedAt + p.staleAfter := by
  obtain ⟨token,tv,low,high,view,candidate,ends,computed,-⟩ := (ArbitrageCalculator.mem_calculate_iff read.coherent r).mp member
  obtain ⟨named,long,short,-⟩ := ArbitrageCalculator.computePair_eq_some computed
  have filed : ∀ s, s ∈ tv.snapshots.values → s.data.token = token ∧ n.getSnapshot s.data.exchange token = some s := by
    intro s among
    obtain ⟨exchange,held⟩ := (ArbitrageCalculator.mem_values_iff_getSnapshot read.coherent view s).mp among
    obtain ⟨rfl,sameToken⟩ := read.coherent.labelled exchange token s held
    exact ⟨sameToken,held⟩
  obtain rfl : r.token = token := named.trans (filed low ends.lowest.1).1
  refine ⟨fun leg either => ?_,?_⟩
  · rcases List.mem_pair.mp either with rfl | rfl
    · exact ⟨_,low,(filed low ends.lowest.1).2,by rw [long]; rfl⟩
    · exact ⟨_,high,(filed high ends.highest.1).2,by rw [short]; rfl⟩
  · rw [read.limit] at candidate
    obtain ⟨a,b,differ,⟨inA,liveA⟩,inB,liveB⟩ := exists_two_live read.coherent view candidate
    exact ⟨_,_,a,b,differ,⟨(filed a inA).2,(not_stale_iff a p.staleAfter t).mp liveA⟩,(filed b inB).2,
      (not_stale_iff b p.staleAfter t).mp liveB⟩

theorem Told.inTime {received built : ℚ} {d : NormalizedFundingData} (told : Told p out now received built d) :
    now ≤ received + (keeps p + lag p) := by
  have recent := told.recent
  have kept := told.kept
  linarith

theorem Inv.ranking (inv : Inv p out since s) {rs : List TokenRankRow} (holds : rs ∈ s.paced.service.ranked.value) :
    ∃ t n, Read p out t n ∧ t ≤ s.paced.now ∧ s.paced.now ≤ t + lag p ∧ rs = buildRanked p.cfg.rnd n (.still t) := by
  obtain ⟨t,⟨past,n,read,built⟩,recent⟩ := inv.recent .ranked inv.ranked holds
  exact ⟨t,n,read,past,recent,built⟩
theorem Inv.offering (inv : Inv p out since s) {rs : List ArbitrageResult} (holds : rs ∈ s.paced.service.arbitrage.value) :
    ∃ t n nowMs, Read p out t n ∧ s.paced.now ≤ t + lag p ∧ rs = calculate p.cfg.rnd p.cfg.minNetAprTaker n t nowMs := by
  obtain ⟨t,⟨-,n,read,nowMs,built⟩,recent⟩ := inv.recent .arbitrage inv.opportunities holds
  exact ⟨t,n,nowMs,read,recent,built⟩

theorem Inv.row (inv : Inv p out since s) {rs : List TokenRankRow} (holds : rs ∈ s.paced.service.ranked.value) {r : TokenRankRow}
    (member : r ∈ rs) {row : ExchangeRateRow} (among : row ∈ r.rows) :
    ∃ received built d, Told p out s.paced.now received built d ∧ d.token = r.token ∧
      row = snapToRow p.cfg.rnd ⟨d,received⟩ built built := by
  obtain ⟨t,n,read,-,recent,rfl⟩ := inv.ranking holds
  obtain ⟨exchange,snap,held,rfl⟩ := ((read.entry member).2 row).mp among
  obtain ⟨-,token,told⟩ := read.told recent held
  exact ⟨_,t,snap.data,told,token,rfl⟩

theorem Inv.leg (inv : Inv p out since s) {rs : List ArbitrageResult} (holds : rs ∈ s.paced.service.arbitrage.value)
    {r : ArbitrageResult} (member : r ∈ rs) {leg : ArbitrageLeg} (among : leg ∈ [r.longLeg,r.shortLeg]) :
    ∃ received built d, Told p out s.paced.now received built d ∧ d.token = r.token ∧ leg = .of leg.side ⟨d,received⟩ built := by
  obtain ⟨t,n,nowMs,read,recent,rfl⟩ := inv.offering holds
  obtain ⟨exchange,snap,held,filled⟩ := (read.offer member).1 leg among
  obtain ⟨-,token,told⟩ := read.told recent held
  exact ⟨_,t,snap.data,told,token,filled⟩

/-- What is reported is in the ranking once that has been computed after it. -/
theorem Inv.reported (inv : Inv p out since s) {rs : List TokenRankRow} (holds : rs ∈ s.paced.service.ranked.value) {e : Received}
    (member : e ∈ out) (old : e.1 + lag p < s.paced.now) (live : s.paced.now ≤ e.1 + min p.staleAfter defaultStaleAfter) :
    ∃ r ∈ rs, r.token = e.2.token ∧ ∃ row ∈ r.rows, ∃ received built d, Told p out s.paced.now received built d ∧
      e.1 ≤ received ∧ d.exchange = e.2.exchange ∧ row = snapToRow p.cfg.rnd ⟨d,received⟩ built built := by
  obtain ⟨t,n,read,past,recent,rfl⟩ := inv.ranking holds
  have service := min_le_left p.staleAfter defaultStaleAfter
  have default := min_le_right p.staleAfter defaultStaleAfter
  obtain ⟨snap,held,newer⟩ := read.present e member (by linarith) (by linarith)
  have shown : FundingAggregator.Shown n (.still t) e.2.token := by
    refine ⟨_,snap,held,(not_stale_iff snap defaultStaleAfter t).mpr ?_⟩
    linarith
  have ranked := (@FundingAggregator.listed_iff p.cfg.rnd n (.still t) read.coherent e.2.token).mpr shown
  obtain ⟨r,listed,named⟩ := List.mem_map.mp ranked
  obtain ⟨sameExchange,-,told⟩ := read.told recent held
  have row := ((read.entry listed).2 _).mpr ⟨_,snap,named ▸ held,rfl⟩
  exact ⟨r,listed,named,_,row,_,t,snap.data,told,newer,sameExchange,rfl⟩

theorem Inv.served (inv : Inv p out since s) : Served p out s.paced.now s.paced.service.ranked.value s.paced.service.arbitrage.value := by
  refine ⟨fun _ holds _ member _ => inv.row holds member,?_,fun _ holds _ member _ => inv.leg holds member,?_,
    fun exchange quiet => ⟨?_,?_⟩,fun _ holds _ => inv.reported holds⟩
  · intro rs holds r member
    obtain ⟨t,n,read,-,recent,rfl⟩ := inv.ranking holds
    obtain ⟨exchange,snap,held,live⟩ := (read.entry member).1
    obtain ⟨-,token,told⟩ := read.told recent held
    have inTime : t ≤ snap.receivedAt + defaultStaleAfter := (not_stale_iff snap defaultStaleAfter t).mp live
    refine ⟨_,told.reported,token,?_⟩
    dsimp only
    linarith
  · intro rs holds r member
    obtain ⟨t,n,nowMs,read,recent,rfl⟩ := inv.offering holds
    obtain ⟨-,exchange,exchange',snap,snap',differ,⟨held,live⟩,held',live'⟩ := read.offer member
    obtain ⟨rfl,token,told⟩ := read.told recent held
    obtain ⟨rfl,token',told'⟩ := read.told recent held'
    refine ⟨_,told.reported,_,told'.reported,differ,⟨token,?_⟩,token',?_⟩
    · dsimp only
      linarith
    · dsimp only
      linarith
  · rintro rs holds r member row among rfl
    obtain ⟨received,built,d,told,-,rfl⟩ := inv.row holds member among
    exact absurd told.inTime (not_le.mpr (quiet _ told.reported rfl))
  · intro rs holds r member
    have gone : ∀ leg ∈ [r.longLeg,r.shortLeg], leg.exchange ≠ exchange := by
      intro leg among same
      obtain ⟨received,built,d,told,-,filled⟩ := inv.leg holds member among
      have own : d.exchange = exchange := by rw [← same,filled]; rfl
      exact absurd told.inTime (not_le.mpr (quiet _ told.reported own))
    exact ⟨gone _ (List.mem_cons_self ..),gone _ (List.mem_cons_of_mem _ (List.mem_singleton_self _))⟩

/-- While no task is late, what both keys hold was computed within the lag, from records that are
    not older than what is kept; of every exchange and token they tell the last record but for
    what came within the lag, exchanges that fall silent disappear, and what is reported is in
    whatever ranking is there. Where the recalculations follow each other before a key lapses, both
    keys are there once the first one is due. -/
theorem served_recent (p : Pace) {since : ℚ} (monotonic : 0 ≤ since) (actions : List Action)
    (timely : Each (step p) (Timely p) (start p since) actions) :
    Served p (received p (start p since) actions) (run p (start p since) actions).paced.now
      (run p (start p since) actions).paced.service.ranked.value (run p (start p since) actions).paced.service.arbitrage.value ∧
    (gap p.cfg p.delays + p.delays.recalculation < redisKeyTtl →
      since + (gap p.cfg p.delays + p.delays.recalculation) < (run p (start p since) actions).paced.now →
        ∀ k, (run p (start p since) actions).paced.Live k) := by
  have inv := run_inv monotonic timely
  exact ⟨inv.served,fun short warm k => inv.paced.live p.recalculates short warm k⟩

/-- The intervals of the lifespan, with five seconds for each delay. -/
def usual : Pace :=
  ⟨PacedService.tenSeconds,120,300,PacedService.fiveLate,by norm_num [PacedService.tenSeconds],by norm_num,by norm_num⟩
/-- Two exchanges report a token, and the timed loop recalculates. -/
def twoReported : List Action :=
  [.elapse 3,.message (some (ArbitrageCalculator.btcRecord "hyperliquid" 10 0)) 0,
    .message (some (ArbitrageCalculator.btcRecord "aster" 20 0)) 0,.elapse 10,.wake 0,.apply .timed,.returned .timed (.still 10),
    .apply .timed,.returned .timed (.still 10),.elapse 20]

theorem twoReported_recent :
    Served usual (received usual (start usual 0) twoReported) (run usual (start usual 0) twoReported).paced.now
      (run usual (start usual 0) twoReported).paced.service.ranked.value
      (run usual (start usual 0) twoReported).paced.service.arbitrage.value ∧
    (run usual (start usual 0) twoReported).paced.service.ranked.value.map (List.map TokenRankRow.token) = some ["BTC"] := by
  have timely : Each (step usual) (Timely usual) (start usual 0) twoReported := by
    simp only [twoReported,each_cons,Timely,PacedService.Timely,true_and,and_true]
    refine ⟨⟨⟨?_,?_⟩,?_⟩,⟨⟨?_,?_⟩,?_⟩,?_,?_,⟨⟨?_,?_⟩,?_⟩,each_nil⟩
    -- Both loops are idle whenever the clock moves on.
    any_goals exact fun l busy => by cases l <;> exact absurd (by decide +kernel) busy
    any_goals exact fun _ => by decide +kernel
    any_goals exact congrArg FundingAggregator.Clock.still (by decide +kernel)
    all_goals decide +kernel
  exact ⟨(served_recent usual le_rfl twoReported timely).1,by decide +kernel⟩

end HousekeptService
end FundingRadar
