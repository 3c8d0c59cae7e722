import FundingRadar.LastWriter
import FundingRadar.FundingAggregator

/-!
`FundingService`: the subscriber and the timed loop, each of which computes the
opportunities, waits for its pipeline, computes the ranking and waits for its pipeline
again. Only the timed loop looks at the time of the last recalculation. The two keys in
Redis are registers that the loops set through their pipelines.
-/
namespace FundingRadar
open LastWriter (Register)

namespace FundingService

inductive TaskLoop
  | subscriber
  | timed
deriving DecidableEq

/-- Where a loop is inside `_recalculate`. -/
inductive Stage
  | idle
  | arbitrage
  | ranking
deriving DecidableEq

/-- What the loops read of the service, its calculators and `round`. -/
structure Settings where
  rnd : ℕ → ℚ → ℚ
  minNetAprTaker : ℚ
  recalculateEveryN : ℕ
  recalculateEverySeconds : ℚ

end FundingService

structure FundingService where
  normalizer : DataNormalizer
  updateCounter : ℕ
  lastRecalcAt : ℚ
  stage : FundingService.TaskLoop → FundingService.Stage
  /-- `arbitrage:current`. -/
  arbitrage : Register FundingService.TaskLoop (List ArbitrageResult)
  /-- `funding:ranked`. -/
  ranked : Register FundingService.TaskLoop (List TokenRankRow)

namespace FundingService
open FundingAggregator

/-- `_recalculate` up to its first await: `calculate_and_publish` computes and issues its
    pipeline. -/
def beginRecalculate (cfg : Settings) (s : FundingService) (l : TaskLoop) (now : ℚ) (nowMs : ℤ) : FundingService :=
  { s with
    lastRecalcAt := now
    stage := Function.update s.stage l .arbitrage
    arbitrage := s.arbitrage.send l (ArbitrageCalculator.calculate cfg.rnd cfg.minNetAprTaker s.normalizer now nowMs) }

/-- `_handle_message`, where `none` is a message that cannot be parsed. -/
def handleMessage (cfg : Settings) (s : FundingService) (message : Option NormalizedFundingData) (now : ℚ) (nowMs : ℤ) :
    FundingService :=
  match message with
  | none => s
  | some data =>
    let updated := { s with normalizer := s.normalizer.update now data, updateCounter := s.updateCounter + 1 }
    if updated.updateCounter % cfg.recalculateEveryN = 0 then updated.beginRecalculate cfg .subscriber now nowMs else updated

/-- `_timed_recalc_loop`, after its sleep. -/
def timedRecalc (cfg : Settings) (s : FundingService) (now : ℚ) (nowMs : ℤ) : FundingService :=
  if now - s.lastRecalcAt ≥ cfg.recalculateEverySeconds then s.beginRecalculate cfg .timed now nowMs else s

/-- The pipeline of a loop returns: after the opportunities `build_and_publish` computes
    and issues its own, and after that `_recalculate` ends. -/
def resume (cfg : Settings) (s : FundingService) (l : TaskLoop) (clock : Clock) : FundingService :=
  match s.stage l with
  | .idle => s
  | .arbitrage =>
    { s with stage := Function.update s.stage l .ranking, ranked := s.ranked.send l (buildRanked cfg.rnd s.normalizer clock) }
  | .ranking => { s with stage := Function.update s.stage l .idle }

inductive Event
  | message (message : Option NormalizedFundingData) (now : ℚ) (nowMs : ℤ)
  | wake (now : ℚ) (nowMs : ℤ)
  | apply (l : TaskLoop)
  | returned (l : TaskLoop) (clock : Clock)
  | purge (now : ℚ)

/-- Nothing that a loop has sent is on its way. -/
def Answered (s : FundingService) (l : TaskLoop) : Prop := s.arbitrage.inFlight l = none ∧ s.ranked.inFlight l = none
instance (s : FundingService) (l : TaskLoop) : Decidable (s.Answered l) := inferInstanceAs (Decidable (_ ∧ _))

/-- One step between two awaits. A loop handles nothing while it waits, and a pipeline
    returns after Redis has applied it. -/
def step (cfg : Settings) (s : FundingService) : Event → FundingService
  | .message message now nowMs => if s.stage .subscriber = .idle then s.handleMessage cfg message now nowMs else s
  | .wake now nowMs => if s.stage .timed = .idle then s.timedRecalc cfg now nowMs else s
  | .apply l => { s with arbitrage := s.arbitrage.arrive l, ranked := s.ranked.arrive l }
  | .returned l clock => if s.Answered l then s.resume cfg l clock else s
  | .purge now => { s with normalizer := (s.normalizer.purgeStale now).1 }

/-- The service as it starts, over what Redis holds. -/
def init (staleAfter : ℚ) (current : Option (List ArbitrageResult)) (ranked : Option (List TokenRankRow)) : FundingService :=
  ⟨.init staleAfter,0,0,fun _ => .idle,.start current,.start ranked⟩

def run (cfg : Settings) (s : FundingService) (events : List Event) : FundingService := events.foldl (step cfg) s

/-- Once no pipeline is in flight, both keys hold the result that was computed last. -/
def Settles (s : FundingService) : Prop :=
  s.arbitrage.Quiet → s.ranked.Quiet → s.arbitrage.Latest ∧ s.ranked.Latest

/-- No pipeline is applied after the one of a later calculation, unless a later one is
    still in flight or the results are the same. -/
def InOrder (s : FundingService) : Event → Prop
  | .apply l => s.arbitrage.InOrder l ∧ s.ranked.InOrder l
  | _ => True
instance (s : FundingService) : (e : Event) → Decidable (s.InOrder e)
  | .message _ _ _ => isTrue trivial
  | .wake _ _ => isTrue trivial
  | .apply l => inferInstanceAs (Decidable (s.arbitrage.InOrder l ∧ s.ranked.InOrder l))
  | .returned _ _ => isTrue trivial
  | .purge _ => isTrue trivial
/-- Every event of a sequence is, at its own state. -/
def AllInOrder (cfg : Settings) : FundingService → List Event → Prop
  | _,[] => True
  | s,e :: rest => s.InOrder e ∧ AllInOrder cfg (s.step cfg e) rest

instance decidableAllInOrder (cfg : Settings) : (s : FundingService) → (events : List Event) → Decidable (AllInOrder cfg s events)
  | _,[] => isTrue trivial
  | s,e :: rest =>
    have := decidableAllInOrder cfg (s.step cfg e) rest
    inferInstanceAs (Decidable (s.InOrder e ∧ AllInOrder cfg (s.step cfg e) rest))

/-- What every step keeps. -/
structure Current (s : FundingService) : Prop where
  arbitrage : s.arbitrage.Current
  ranked : s.ranked.Current

variable {cfg : Settings} {s : FundingService}

theorem Current.begin (current : s.Current) (l : TaskLoop) (now : ℚ) (nowMs : ℤ) :
    (s.beginRecalculate cfg l now nowMs).Current :=
  ⟨Register.current_send _ _ _,current.ranked⟩

theorem Current.step (current : s.Current) {e : Event} (inOrder : s.InOrder e) : (s.step cfg e).Current := by
  cases e with
  | message message now nowMs =>
    rw [FundingService.step]
    split
    · cases message with
      | none => exact current
      | some data =>
        have updated : Current { s with normalizer := s.normalizer.update now data, updateCounter := s.updateCounter + 1 } :=
          ⟨current.arbitrage,current.ranked⟩
        unfold handleMessage
        dsimp only
        split
        · exact updated.begin .subscriber now nowMs
        · exact updated
    · exact current
  | wake now nowMs =>
    rw [FundingService.step]
    split
    · unfold timedRecalc
      split
      · exact current.begin .timed now nowMs
      · exact current
    · exact current
  | apply l =>
    exact ⟨(Register.current_arrive_iff current.arbitrage l).mpr inOrder.1,
      (Register.current_arrive_iff current.ranked l).mpr inOrder.2⟩
  | returned l clock =>
    rw [FundingService.step]
    split
    · unfold resume
      split
      · exact current
      · exact ⟨current.arbitrage,Register.current_send _ _ _⟩
      · exact ⟨current.arbitrage,current.ranked⟩
    · exact current
  | purge now => exact ⟨current.arbitrage,current.ranked⟩

theorem Current.run (current : s.Current) {events : List Event} (inOrder : AllInOrder cfg s events) :
    (s.run cfg events).Current := by
  induction events generalizing s with
  | nil => exact current
  | cons e rest ih => exact ih (current.step inOrder.1) inOrder.2

/-- In every run whose pipelines are applied in order, Redis settles on the results that
    were computed last. -/
theorem settles_of_inOrder (cfg : Settings) (staleAfter : ℚ) (heldCurrent : Option (List ArbitrageResult))
    (heldRanked : Option (List TokenRankRow)) (events : List Event)
    (inOrder : AllInOrder cfg (.init staleAfter heldCurrent heldRanked) events) :
    (run cfg (.init staleAfter heldCurrent heldRanked) events).Settles := by
  have start : (FundingService.init staleAfter heldCurrent heldRanked).Current :=
    ⟨Register.current_start _,Register.current_start _⟩
  have current := start.run inOrder
  exact fun quietArbitrage quietRanked => ⟨current.arbitrage.latest quietArbitrage,current.ranked.latest quietRanked⟩

def defaults : Settings := ⟨roundTo,0,5,5⟩

/-- Four updates of bitcoin, a recalculation of the timed loop, and a fifth update that
    starts one of the subscriber before the first has been applied. -/
def overlap (applied : List TaskLoop) : List Event :=
  let update := fun exchange fundingApr now =>
    Event.message (some (ArbitrageCalculator.btcRecord exchange fundingApr (35 / 1000))) now 0
  [update "hyperliquid" 10 1,update "aster" 20 2,update "hyperliquid" 10 3,update "aster" 20 4,.wake 6 0,
    update "aster" 40 7] ++ applied.map .apply

/-- The older pipeline is applied last: Redis keeps a spread of ten where it is thirty. -/
theorem overlap_not_settled :
    ¬ (run defaults (.init defaultStaleAfter none none) (overlap [.subscriber,.timed])).Settles := by
  intro settles
  have quietArbitrage : (run defaults (.init defaultStaleAfter none none) (overlap [.subscriber,.timed])).arbitrage.Quiet := by
    intro l
    cases l with
    | subscriber => decide +kernel
    | timed => decide +kernel
  have quietRanked : (run defaults (.init defaultStaleAfter none none) (overlap [.subscriber,.timed])).ranked.Quiet := by
    intro l
    cases l with
    | subscriber => decide +kernel
    | timed => decide +kernel
  have latest := (settles quietArbitrage quietRanked).1
  have outdated : ∃ last ∈ (run defaults (.init defaultStaleAfter none none) (overlap [.subscriber,.timed])).arbitrage.last,
      (run defaults (.init defaultStaleAfter none none) (overlap [.subscriber,.timed])).arbitrage.value ≠ some last.2 := by
    decide +kernel
  obtain ⟨⟨l,results⟩,last,differs⟩ := outdated
  exact differs (latest l results last)

/-- In the order of the calculations the same pipelines settle. -/
theorem overlap_settled : (run defaults (.init defaultStaleAfter none none) (overlap [.timed,.subscriber])).Settles := by
  have inOrder : AllInOrder defaults (.init defaultStaleAfter none none) (overlap [.timed,.subscriber]) := by
    decide +kernel
  exact settles_of_inOrder defaults defaultStaleAfter none none (overlap [.timed,.subscriber]) inOrder

end FundingService
end FundingRadar
