import FundingRadar.Recalculation
import FundingRadar.RedisBridge

/-!
`FundingService` on the channel of the updates. Its subscriber is a listener that hands every
text to `_handle_message`; the timed loop recalculates and the housekeeping task purges in
between. When what is published are the texts of records, the service goes through the states
of one that is handed the records themselves, and publishes what that one computes
(`bus_refines`): no text is rejected, no record stored twice or out of order, and no
recalculation raises. Here a recalculation is one step; where no other task comes in at its
awaits, the service cut there does the same (`unbroken_run`).
-/
namespace FundingRadar
open Runs Subscriptions

namespace FundingBus

/-- What a recalculation reads besides the records. -/
structure Reading where
  now : ℚ
  nowMs : ℤ
  clock : UntypedNormalizer.Clock

/-- What happens to the service. `μ` are the messages of its channel. -/
inductive Action (μ : Type)
  | bus (a : Subscriptions.Action μ Reading)
  /-- `_timed_recalc_loop` recalculates. -/
  | recalculate (reading : Reading)
  /-- A round of `_purge_loop`. -/
  | purge (now : ℚ)

section
variable (cfg : PipelineSettings) (loads : String → Except LoadsError Json)

/-! ### Texts -/

/-- What escapes from `_handle_message` depends on the text alone (`handleMessage_raised`). -/
def escapes (raw : String) : Option MessageError :=
  match loads raw with
  | .error e => if .loads e ∈ UntypedService.messageHandles then none else some (.loads e)
  | .ok _ => none
/-- A round of the loop of `_subscriber_loop`. -/
def onMessage (reading : Reading) (m : RedisMessage) : List UntypedService.Event × Option MessageError :=
  if m.type ≠ "message" then ([],none)
  else ([.message m.data reading.now reading.nowMs reading.clock],escapes loads m.data)

/-- The service with its subscriber. -/
structure Service where
  listener : Phase RedisMessage UntypedService.Event MessageError
  service : UntypedService

namespace Service
def init (staleAfter : ℚ) : Service := ⟨.stopped,.init staleAfter,0⟩

def step (s : Service) : Action RedisMessage → Service
  | .bus a => ⟨Subscriptions.step (onMessage loads) s.listener a,
      (put (record s.listener a)).foldl (UntypedService.step cfg loads) s.service⟩
  | .recalculate _ => s
  | .purge now => { s with service := s.service.step cfg loads (.purge now) }

def publicationOf (s : UntypedService) : UntypedService.Event → Option UntypedService.Publication
  | .message raw now nowMs clock => (s.handleMessage cfg loads raw now nowMs clock).published
  | .purge _ => none
/-- What a step publishes. -/
def publishes (s : Service) : Action RedisMessage → List UntypedService.Publication
  | .bus a => (put (record s.listener a)).filterMap (publicationOf cfg loads s.service)
  | .recalculate reading => [UntypedService.recalculate cfg s.service.normalizer reading.now reading.nowMs reading.clock]
  | .purge _ => []

def run (s : Service) (actions : List (Action RedisMessage)) : Service := actions.foldl (step cfg loads) s
def publications (s : Service) (actions : List (Action RedisMessage)) : List UntypedService.Publication :=
  outputs (step cfg loads) (publishes cfg loads) s actions
end Service

/-! ### Records -/

/-- What a recalculation of typed records publishes. -/
structure TypedPublication where
  arbitrage : List ArbitrageResult
  ranked : List TokenRankRow

def computed (n : DataNormalizer) (reading : Reading) : TypedPublication :=
  ⟨ArbitrageCalculator.calculate cfg.rnd cfg.minNetAprTaker n reading.now reading.nowMs,
    FundingAggregator.buildRanked cfg.rnd n reading.clock.typed⟩

/-- A service that is handed records. -/
structure TypedService where
  listener : Phase NormalizedFundingData (NormalizedFundingData × Reading) MessageError
  normalizer : DataNormalizer
  updateCounter : ℕ

namespace TypedService
def init (staleAfter : ℚ) : TypedService := ⟨.stopped,.init staleAfter,0⟩
def onRecord (reading : Reading) (d : NormalizedFundingData) : List (NormalizedFundingData × Reading) × Option MessageError :=
  ([(d,reading)],none)
def receive (s : TypedService) (e : NormalizedFundingData × Reading) : TypedService :=
  { s with normalizer := s.normalizer.update e.2.now e.1, updateCounter := s.updateCounter + 1 }

def step (s : TypedService) : Action NormalizedFundingData → TypedService
  | .bus a => { (put (record s.listener a)).foldl receive s with listener := Subscriptions.step onRecord s.listener a }
  | .recalculate _ => s
  | .purge now => { s with normalizer := (s.normalizer.purgeStale now).1 }

def publicationOf (s : TypedService) (e : NormalizedFundingData × Reading) : Option TypedPublication :=
  if (s.receive e).updateCounter % cfg.recalculateEveryN = 0 then some (computed cfg (s.receive e).normalizer e.2) else none
def publishes (s : TypedService) : Action NormalizedFundingData → List TypedPublication
  | .bus a => (put (record s.listener a)).filterMap (publicationOf cfg s)
  | .recalculate reading => [computed cfg s.normalizer reading]
  | .purge _ => []
/-- The calls that a step makes on the normalizer. -/
def calls (s : TypedService) : Action NormalizedFundingData → List DataNormalizer.Op
  | .bus a => (put (record s.listener a)).map (fun e => .update e.2.now e.1)
  | .recalculate _ => []
  | .purge now => [.purgeStale now]

def run (s : TypedService) (actions : List (Action NormalizedFundingData)) : TypedService := actions.foldl step s
def publications (s : TypedService) (actions : List (Action NormalizedFundingData)) : List TypedPublication :=
  outputs step (publishes cfg) s actions
end TypedService

/-! ### Records as texts -/

variable (toJson : NormalizedFundingData → String)

/-- The message that `_publish_batch` publishes for a record. -/
def message (d : NormalizedFundingData) : RedisMessage := ⟨"message","funding:updates",toJson d⟩
def event (e : NormalizedFundingData × Reading) : UntypedService.Event := .message (toJson e.1) e.2.now e.2.nowMs e.2.clock
def Action.encode : Action NormalizedFundingData → Action RedisMessage
  | .bus a => .bus (Subscriptions.Action.encode (message toJson) a)
  | .recalculate reading => .recalculate reading
  | .purge now => .purge now
def TypedPublication.erase (p : TypedPublication) : UntypedService.Publication :=
  ⟨some (p.arbitrage.map UntypedNormalizer.resultOfTyped),some (p.ranked.map UntypedNormalizer.rankRowOfTyped)⟩
def Service.ofTyped (s : TypedService) : Service :=
  ⟨s.listener.encode (message toJson) (event toJson) id,.ofTyped s.normalizer,s.updateCounter⟩

/-- The text of a record is read as the dictionary that was written. -/
def Readable (d : NormalizedFundingData) : Prop := loads (toJson d) = .ok (UntypedFundingData.toDict d)

/-- The records that have been published and not handled are readable. -/
structure Legible (s : TypedService) : Prop where
  waiting : ∀ d ∈ s.listener.waiting, Readable loads toJson d
  left : ∀ e ∈ s.listener.left, Readable loads toJson e.1

end

variable {cfg : PipelineSettings} {loads : String → Except LoadsError Json} {toJson : NormalizedFundingData → String}

/-! ### One step -/

/-- What escapes from `_handle_message`, whatever has been stored. -/
theorem handleMessage_raised (s : UntypedService) (raw : String) (now : ℚ) (nowMs : ℤ) (clock : UntypedNormalizer.Clock) :
    (s.handleMessage cfg loads raw now nowMs clock).raised = escapes loads raw := by
  have handled : ∀ e, e = PyError.typeError → (s.rejected (.python e)).raised = none := by
    rintro _ rfl
    rfl
  unfold UntypedService.handleMessage escapes
  cases loads raw with
  | error e => rfl
  | ok v =>
    dsimp only
    cases built : UntypedFundingData.ofDict v with
    | error e => exact handled e (List.mem_singleton.mp (UntypedService.ofDict_raisesOnly v e built))
    | ok data =>
      dsimp only
      cases updated : s.normalizer.update now data with
      | error e => exact handled e (List.mem_singleton.mp (UntypedService.update_raisesOnly _ now data e updated))
      | ok n => rfl

theorem recalculate_ofTyped (n : DataNormalizer) (reading : Reading) :
    UntypedService.recalculate cfg (.ofTyped n) reading.now reading.nowMs reading.clock = (computed cfg n reading).erase := by
  rw [UntypedService.recalculate,UntypedNormalizer.calculate_ofTyped,UntypedNormalizer.buildRanked_ofTyped]
  rfl

/-- The text of a record is stored as the record is. -/
theorem handleMessage_record (s : TypedService) {e : NormalizedFundingData × Reading} (readable : Readable loads toJson e.1) :
    UntypedService.step cfg loads ⟨.ofTyped s.normalizer,s.updateCounter⟩ (event toJson e) =
        ⟨.ofTyped (s.receive e).normalizer,(s.receive e).updateCounter⟩ ∧
      Service.publicationOf cfg loads ⟨.ofTyped s.normalizer,s.updateCounter⟩ (event toJson e) =
        (TypedService.publicationOf cfg s e).map TypedPublication.erase := by
  have handled : UntypedService.handleMessage cfg loads ⟨.ofTyped s.normalizer,s.updateCounter⟩ (toJson e.1) e.2.now e.2.nowMs e.2.clock =
      ⟨⟨.ofTyped (s.receive e).normalizer,(s.receive e).updateCounter⟩,some (.ofTyped e.1),none,
        (TypedService.publicationOf cfg s e).map TypedPublication.erase⟩ := by
    unfold UntypedService.handleMessage
    rw [readable]
    dsimp only
    rw [UntypedFundingData.ofDict_toDict]
    dsimp only
    rw [UntypedNormalizer.update_ofTyped]
    dsimp only
    refine congrArg _ ?_
    rw [TypedService.publicationOf]
    have counted : (s.receive e).updateCounter = s.updateCounter + 1 := rfl
    rw [counted]
    by_cases due : (s.updateCounter + 1) % cfg.recalculateEveryN = 0
    · rw [if_pos due,if_pos due]
      exact congrArg some (recalculate_ofTyped _ e.2)
    · rw [if_neg due,if_neg due]
      rfl
  exact ⟨congrArg UntypedService.Handled.service handled,congrArg UntypedService.Handled.published handled⟩

theorem onMessage_record {d : NormalizedFundingData} (readable : Readable loads toJson d) (reading : Reading) :
    onMessage loads reading (message toJson d) =
      ((TypedService.onRecord reading d).1.map (event toJson),(TypedService.onRecord reading d).2.map id) := by
  have isMessage : ¬ (message toJson d).type ≠ "message" := not_not.mpr rfl
  have returns : escapes loads (toJson d) = none := by rw [escapes,readable]
  rw [onMessage,if_neg isMessage]
  exact congrArg _ returns

/-- A step puts out one item at most. -/
theorem put_record_cases {μ κ ε ι : Type} (s : Phase μ κ ε) (a : Subscriptions.Action μ ι) :
    put (record s a) = [] ∨ ∃ k ∈ s.left, put (record s a) = [k] := by
  cases s with
  | listening waiting =>
    cases a with
    | take reading => cases waiting <;> exact .inl rfl
    | _ => exact .inl rfl
  | handling left raised waiting =>
    cases a with
    | advance =>
      cases left with
      | nil => exact .inl rfl
      | cons k left => exact .inr ⟨k,List.mem_cons_self ..,rfl⟩
    | _ => cases left <;> exact .inl rfl
  | _ => cases a <;> exact .inl rfl

theorem Legible.step {s : TypedService} (legible : Legible loads toJson s) {a : Action NormalizedFundingData}
    (readable : ∀ d, a = .bus (.publish d) → Readable loads toJson d) : Legible loads toJson (s.step a) := by
  cases a with
  | bus a =>
    refine ⟨fun d member => ?_,fun e member => ?_⟩
    · rcases mem_step_waiting member with old | new
      · exact legible.waiting d old
      · exact readable d (congrArg _ new)
    · rcases mem_step_left member with old | ⟨d,waits,reading,calls⟩
      · exact legible.left e old
      · obtain rfl := List.mem_singleton.mp calls
        exact legible.waiting d waits
  | recalculate reading => exact legible
  | purge now => exact ⟨legible.waiting,legible.left⟩

/-- One step on texts is one step on the records. -/
theorem step_ofTyped {s : TypedService} (legible : Legible loads toJson s) (a : Action NormalizedFundingData) :
    (Service.ofTyped toJson s).step cfg loads (a.encode toJson) = .ofTyped toJson (s.step a) ∧
      (Service.ofTyped toJson s).publishes cfg loads (a.encode toJson) = (s.publishes cfg a).map TypedPublication.erase := by
  cases a with
  | bus a =>
    obtain ⟨moved,out⟩ := @step_encode _ _ _ _ _ _ _ (message toJson) (event toJson) id TypedService.onRecord (onMessage loads) s.listener a
      (fun d member reading => onMessage_record (legible.waiting d member) reading)
    have stepped : (Service.ofTyped toJson s).step cfg loads (.encode toJson (.bus a)) =
        ⟨Subscriptions.step (onMessage loads) (s.listener.encode (message toJson) (event toJson) id) (a.encode (message toJson)),
          ((put (record s.listener a)).map (event toJson)).foldl (UntypedService.step cfg loads) ⟨.ofTyped s.normalizer,s.updateCounter⟩⟩ := by
      rw [← out]
      rfl
    have published : (Service.ofTyped toJson s).publishes cfg loads (.encode toJson (.bus a)) =
        ((put (record s.listener a)).map (event toJson)).filterMap (Service.publicationOf cfg loads ⟨.ofTyped s.normalizer,s.updateCounter⟩) := by
      rw [← out]
      rfl
    rw [stepped,published,moved]
    simp only [Service.ofTyped,TypedService.step,TypedService.publishes]
    rcases put_record_cases s.listener a with nothing | ⟨e,left,single⟩
    · rw [nothing]
      exact ⟨rfl,rfl⟩
    · obtain ⟨received,recalculated⟩ := @handleMessage_record cfg loads toJson s e (legible.left e left)
      rw [single]
      refine ⟨congrArg (Service.mk _) received,?_⟩
      simp only [List.map_cons,List.map_nil,List.filterMap_cons,List.filterMap_nil,recalculated]
      cases TypedService.publicationOf cfg s e <;> rfl
  | recalculate reading => exact ⟨rfl,congrArg (fun p => [p]) (recalculate_ofTyped s.normalizer reading)⟩
  | purge now =>
    refine ⟨?_,rfl⟩
    show (⟨_,⟨(UntypedNormalizer.ofTyped s.normalizer).purgeStale now,s.updateCounter⟩⟩ : Service) = _
    rw [UntypedNormalizer.purgeStale_ofTyped]
    rfl

/-- The normalizer of a run of the service on records is a run of the normalizer. -/
theorem normalizer_run (s : TypedService) (actions : List (Action NormalizedFundingData)) :
    (s.run actions).normalizer = (outputs TypedService.step TypedService.calls s actions).foldl DataNormalizer.step s.normalizer := by
  induction actions generalizing s with
  | nil => rfl
  | cons a rest ih =>
    have one : (s.step a).normalizer = (s.calls a).foldl DataNormalizer.step s.normalizer := by
      cases a with
      | bus a =>
        rcases put_record_cases s.listener a with nothing | ⟨e,-,single⟩
        · simp only [TypedService.step,TypedService.calls,nothing]
          rfl
        · simp only [TypedService.step,TypedService.calls,single]
          rfl
      | _ => rfl
    rw [outputs,List.foldl_append,← one]
    exact ih (s.step a)

/-! ### Runs -/

/-- The records that are published in a run. -/
def publishedIn (actions : List (Action NormalizedFundingData)) : List NormalizedFundingData :=
  actions.filterMap fun a => match a with
    | .bus (.publish d) => some d
    | _ => none
/-- The record that a call stores. -/
def recordOf : DataNormalizer.Op → Option NormalizedFundingData
  | .update _ data => some data
  | _ => none

/-- The records that have not been stored, in order. -/
def pending (s : TypedService) : List NormalizedFundingData := s.listener.left.map Prod.fst ++ s.listener.waiting

theorem step_pending (s : TypedService) (a : Action NormalizedFundingData) :
    ((s.calls a).filterMap recordOf ++ pending (s.step a)).Sublist (pending s ++ publishedIn [a]) := by
  obtain ⟨listener,normalizer,counter⟩ := s
  cases a with
  | bus a =>
    cases listener with
    | listening waiting =>
      cases a with
      | stop => exact List.nil_sublist _
      | failed => exact List.nil_sublist _
      | publish d => exact List.Sublist.refl _
      | take reading => cases waiting <;> exact List.sublist_append_left _ _
      | _ => exact List.sublist_append_left _ _
    | handling left raised waiting =>
      cases a with
      | stop => cases left <;> exact List.nil_sublist _
      | publish d =>
        cases left with
        | nil => exact List.Sublist.refl _
        | cons e left =>
          change ((e :: left).map Prod.fst ++ (waiting ++ [d])).Sublist ((e :: left).map Prod.fst ++ waiting ++ [d])
          rw [List.append_assoc]
      | advance =>
        cases left with
        | cons e left => exact List.sublist_append_left _ _
        | nil =>
          cases raised with
          | none => exact List.sublist_append_left _ _
          | some e => exact List.nil_sublist _
      | _ => cases left <;> exact List.sublist_append_left _ _
    | _ => cases a <;> exact List.nil_sublist _
  | _ => exact List.sublist_append_left _ _

theorem run_pending (s : TypedService) (actions : List (Action NormalizedFundingData)) :
    ((outputs TypedService.step TypedService.calls s actions).filterMap recordOf ++ pending (s.run actions)).Sublist
      (pending s ++ publishedIn actions) := by
  induction actions generalizing s with
  | nil => exact List.sublist_append_left _ _
  | cons a rest ih =>
    have split : publishedIn (a :: rest) = publishedIn [a] ++ publishedIn rest := @List.filterMap_append _ _ [a] rest _
    rw [outputs,List.filterMap_append,split,List.append_assoc,← List.append_assoc (pending s)]
    refine List.Sublist.trans ((ih (s.step a)).append_left _) ?_
    rw [← List.append_assoc]
    exact (step_pending s a).append_right _

theorem run_ofTyped {s : TypedService} (legible : Legible loads toJson s) {actions : List (Action NormalizedFundingData)}
    (readable : ∀ d, .bus (.publish d) ∈ actions → Readable loads toJson d) :
    (Service.ofTyped toJson s).run cfg loads (actions.map (.encode toJson)) = .ofTyped toJson (s.run actions) ∧
      (Service.ofTyped toJson s).publications cfg loads (actions.map (.encode toJson)) =
        (s.publications cfg actions).map TypedPublication.erase := by
  induction actions generalizing s with
  | nil => exact ⟨rfl,rfl⟩
  | cons a rest ih =>
    obtain ⟨stepped,published⟩ := @step_ofTyped cfg loads toJson s legible a
    have next := legible.step fun d same => readable d (same ▸ List.mem_cons_self ..)
    obtain ⟨ran,outs⟩ := ih next fun d member => readable d (List.mem_cons_of_mem a member)
    refine ⟨?_,?_⟩
    · rw [List.map_cons,Service.run,List.foldl_cons,stepped]
      exact ran
    · rw [List.map_cons,Service.publications,outputs,published,stepped,TypedService.publications,outputs,List.map_append]
      exact congrArg _ outs

/-- When what is published are the texts of records, the service on texts goes through the states
    of the service on records and publishes what that one computes, over every run. The records are
    stored in the order in which they are published, each at most once. -/
theorem bus_refines (cfg : PipelineSettings) (loads : String → Except LoadsError Json) (toJson : NormalizedFundingData → String)
    (staleAfter : ℚ) (actions : List (Action NormalizedFundingData))
    (readable : ∀ d, .bus (.publish d) ∈ actions → loads (toJson d) = .ok (UntypedFundingData.toDict d)) :
    (Service.init staleAfter).run cfg loads (actions.map (.encode toJson)) = .ofTyped toJson ((TypedService.init staleAfter).run actions) ∧
    (Service.init staleAfter).publications cfg loads (actions.map (.encode toJson)) =
      ((TypedService.init staleAfter).publications cfg actions).map TypedPublication.erase ∧
    ∃ ops, ((TypedService.init staleAfter).run actions).normalizer = .run staleAfter ops ∧
      (ops.filterMap recordOf).Sublist (publishedIn actions) := by
  have legible : Legible loads toJson (TypedService.init staleAfter) :=
    ⟨(fun _ impossible => by cases impossible),fun _ impossible => by cases impossible⟩
  obtain ⟨ran,published⟩ := @run_ofTyped cfg loads toJson _ legible actions readable
  refine ⟨ran,published,_,normalizer_run _ actions,?_⟩
  exact (List.sublist_append_left _ _).trans (run_pending (TypedService.init staleAfter) actions)

/-- Two rates, as the collectors write them. -/
def rateToJson (d : NormalizedFundingData) : String :=
  if d = UntypedService.rateRecord "aster" 20 then UntypedService.rateText "aster" "20" else UntypedService.rateText "hyperliquid" "10"
def readAt (now : ℚ) : Reading := ⟨now,0,UntypedService.stillClock now⟩
def twoRates : List (Action NormalizedFundingData) :=
  [.bus .start,.bus .subscribed,.bus (.publish (UntypedService.rateRecord "aster" 20)),
    .bus (.publish (UntypedService.rateRecord "hyperliquid" 10)),.bus (.take (readAt 1)),.bus .advance,.bus .advance,
    .bus (.take (readAt 2)),.bus .advance,.recalculate (readAt 3)]

theorem twoRates_refine : (∀ d, .bus (.publish d) ∈ twoRates → UntypedService.rateLoads (rateToJson d) = .ok (UntypedFundingData.toDict d)) ∧
    (Service.init 120).run UntypedService.defaultSettings UntypedService.rateLoads (twoRates.map (.encode rateToJson)) =
      .ofTyped rateToJson ((TypedService.init 120).run twoRates) ∧
    ((TypedService.init 120).run twoRates).updateCounter = 2 := by
  have aster : UntypedService.rateLoads (rateToJson (UntypedService.rateRecord "aster" 20)) =
      .ok (UntypedFundingData.toDict (UntypedService.rateRecord "aster" 20)) := by
    rw [rateToJson,if_pos rfl,UntypedService.rateLoads,if_neg (by decide),if_pos rfl]
    rfl
  have hyperliquid : UntypedService.rateLoads (rateToJson (UntypedService.rateRecord "hyperliquid" 10)) =
      .ok (UntypedFundingData.toDict (UntypedService.rateRecord "hyperliquid" 10)) := by
    rw [rateToJson,if_neg (by decide),UntypedService.rateLoads,if_neg (by decide),if_neg (by decide),if_pos rfl]
    rfl
  have readable : ∀ d, .bus (.publish d) ∈ twoRates → UntypedService.rateLoads (rateToJson d) = .ok (UntypedFundingData.toDict d) := by
    intro d member
    simp only [twoRates,List.mem_cons,Action.bus.injEq,Subscriptions.Action.publish.injEq,reduceCtorEq,false_or,or_false,
      List.not_mem_nil] at member
    rcases member with rfl | rfl
    · exact aster
    · exact hyperliquid
  exact ⟨readable,(bus_refines UntypedService.defaultSettings UntypedService.rateLoads rateToJson 120 twoRates readable).1,rfl⟩


/-! ### The service between its awaits -/

section
open FundingService (TaskLoop Answered resume beginRecalculate)

/-- The service with the seconds of its timed loop. -/
def paced (cfg : PipelineSettings) (seconds : ℚ) : FundingService.Settings :=
  ⟨cfg.rnd,cfg.minNetAprTaker,cfg.recalculateEveryN,seconds⟩

/-- What is left of a recalculation after its first pipeline is sent, with nothing in between. -/
def pipelines (l : TaskLoop) (clock : FundingAggregator.Clock) : List FundingService.Event :=
  [.apply l,.returned l clock,.apply l,.returned l clock]
/-- The stretches of an action, with nothing in between. -/
def unbroken (s : TypedService) : Action NormalizedFundingData → List FundingService.Event
  | .bus a => (put (record s.listener a)).flatMap fun e => .message (some e.1) e.2.now e.2.nowMs :: pipelines .subscriber e.2.clock.typed
  | .recalculate reading => .wake reading.now reading.nowMs :: pipelines .timed reading.clock.typed
  | .purge now => [.purge now]
/-- `FundingService` over a run of the service on records. -/
def unbrokenRun (cfg : PipelineSettings) (seconds staleAfter : ℚ) (actions : List (Action NormalizedFundingData)) : FundingService :=
  (FundingService.init staleAfter none none).run (paced cfg seconds)
    (outputs TypedService.step unbroken (TypedService.init staleAfter) actions)

/-- Both loops are outside of `_recalculate`, the records are those of `s`, and the keys hold a
    publication. -/
structure Rests (s : TypedService) (held : Option TypedPublication) (f : FundingService) : Prop where
  normalizer : f.normalizer = s.normalizer
  updateCounter : f.updateCounter = s.updateCounter
  idle : ∀ l, f.stage l = .idle
  answered : ∀ l, f.Answered l
  arbitrage : f.arbitrage.value = held.map TypedPublication.arbitrage
  ranked : f.ranked.value = held.map TypedPublication.ranked

variable {s : TypedService} {held : Option TypedPublication} {f : FundingService} {seconds : ℚ}

/-- A loop that does not recalculate has nothing to wait for. -/
theorem pipelines_idle (rests : Rests s held f) (l : TaskLoop) (clock : FundingAggregator.Clock) :
    f.run (paced cfg seconds) (pipelines l clock) = f := by
  have applied : f.step (paced cfg seconds) (.apply l) = f := by
    rw [FundingService.step,LastWriter.Register.arrive_of_none (rests.answered l).1,LastWriter.Register.arrive_of_none (rests.answered l).2]
  have returned : f.step (paced cfg seconds) (.returned l clock) = f := by
    rw [FundingService.step,if_pos (rests.answered l),resume,rests.idle l]
  simp only [FundingService.run,pipelines,List.foldl_cons,List.foldl_nil,applied,returned]

/-- A loop whose first pipeline is on its way sends the ranking and ends. -/
theorem pipelines_run {l : TaskLoop} (stage : f.stage l = .arbitrage) (unsent : f.ranked.inFlight l = none)
    (clock : FundingAggregator.Clock) :
    f.run (paced cfg seconds) (pipelines l clock) =
      { f with
        stage := Function.update f.stage l .idle
        arbitrage := f.arbitrage.arrive l
        ranked := (f.ranked.send l (FundingAggregator.buildRanked cfg.rnd f.normalizer clock)).arrive l } := by
  let applied : FundingService := { f with arbitrage := f.arbitrage.arrive l }
  let ranking : FundingService := { applied with
    stage := Function.update f.stage l .ranking
    ranked := f.ranked.send l (FundingAggregator.buildRanked cfg.rnd f.normalizer clock) }
  let published : FundingService := { ranking with ranked := ranking.ranked.arrive l }
  have first : f.step (paced cfg seconds) (.apply l) = applied := by
    rw [FundingService.step,LastWriter.Register.arrive_of_none unsent]
  have second : applied.step (paced cfg seconds) (.returned l clock) = ranking := by
    have answered : applied.Answered l := ⟨LastWriter.Register.inFlight_arrive_self _ _,unsent⟩
    have still : applied.stage l = .arbitrage := stage
    rw [FundingService.step,if_pos answered,resume,still]
    rfl
  have third : ranking.step (paced cfg seconds) (.apply l) = published := by
    have nothing : ranking.arbitrage.inFlight l = none := LastWriter.Register.inFlight_arrive_self _ _
    rw [FundingService.step,LastWriter.Register.arrive_of_none nothing]
  have fourth : published.step (paced cfg seconds) (.returned l clock) =
      { published with stage := Function.update published.stage l .idle } := by
    have answered : published.Answered l :=
      ⟨LastWriter.Register.inFlight_arrive_self _ _,LastWriter.Register.inFlight_arrive_self _ _⟩
    have still : published.stage l = .ranking := Function.update_self ..
    rw [FundingService.step,if_pos answered,resume,still]
  rw [FundingService.run,pipelines,List.foldl_cons,first,List.foldl_cons,second,List.foldl_cons,third,List.foldl_cons,fourth]
  simp only [published,ranking,applied,Function.update_idem,List.foldl_nil]

/-- A recalculation from where both loops rest leaves what is computed at once in the keys. -/
theorem Rests.recalculated (rests : Rests s held f) (l : TaskLoop) (reading : Reading) :
    Rests s (some (computed cfg s.normalizer reading))
      ((f.beginRecalculate (paced cfg seconds) l reading.now reading.nowMs).run (paced cfg seconds) (pipelines l reading.clock.typed)) := by
  let begun := f.beginRecalculate (paced cfg seconds) l reading.now reading.nowMs
  have stage : begun.stage l = .arbitrage := Function.update_self ..
  have sent : begun.arbitrage.inFlight l =
      some (ArbitrageCalculator.calculate cfg.rnd cfg.minNetAprTaker f.normalizer reading.now reading.nowMs) :=
    LastWriter.Register.inFlight_send_self _ _ _
  have unsent : begun.ranked.inFlight l = none := (rests.answered l).2
  rw [pipelines_run stage unsent]
  refine ⟨rests.normalizer,rests.updateCounter,fun l' => ?_,fun l' => ?_,?_,?_⟩
  · by_cases same : l' = l
    · rw [same]
      exact Function.update_self ..
    · show Function.update (Function.update f.stage l .arbitrage) l .idle l' = .idle
      rw [Function.update_of_ne same,Function.update_of_ne same]
      exact rests.idle l'
  · by_cases same : l' = l
    · rw [same]
      exact ⟨LastWriter.Register.inFlight_arrive_self _ _,LastWriter.Register.inFlight_arrive_self _ _⟩
    · refine ⟨?_,?_⟩
      · exact (LastWriter.Register.inFlight_arrive_of_ne _ same).trans
          ((LastWriter.Register.inFlight_send_of_ne _ same _).trans (rests.answered l').1)
      · exact (LastWriter.Register.inFlight_arrive_of_ne _ same).trans
          ((LastWriter.Register.inFlight_send_of_ne _ same _).trans (rests.answered l').2)
  · rw [← rests.normalizer]
    exact LastWriter.Register.value_arrive sent
  · rw [← rests.normalizer]
    exact LastWriter.Register.value_arrive (LastWriter.Register.inFlight_send_self _ _ _)

/-- The service cut at its awaits follows one step of the service on records, where the timed loop
    recalculates only once it is due. -/
theorem Rests.step (rests : Rests s held f) {a : Action NormalizedFundingData}
    (due : ∀ reading, a = .recalculate reading → seconds ≤ reading.now - f.lastRecalcAt) :
    Rests (s.step a) ((s.publishes cfg a).getLast?.or held) (f.run (paced cfg seconds) (unbroken s a)) := by
  cases a with
  | bus a =>
    simp only [TypedService.step,TypedService.publishes,unbroken]
    rcases put_record_cases s.listener a with nothing | ⟨e,-,single⟩
    · rw [nothing]
      exact ⟨rests.normalizer,rests.updateCounter,rests.idle,rests.answered,rests.arbitrage,rests.ranked⟩
    · -- The record is stored, and whether a recalculation is due depends on the counter alone.
      let updated : FundingService := { f with normalizer := f.normalizer.update e.2.now e.1, updateCounter := f.updateCounter + 1 }
      have received : Rests { s.receive e with listener := Subscriptions.step TypedService.onRecord s.listener a } held updated :=
        ⟨congrArg (fun n => n.update e.2.now e.1) rests.normalizer,congrArg (· + 1) rests.updateCounter,rests.idle,rests.answered,
          rests.arbitrage,rests.ranked⟩
      have published : TypedService.publicationOf cfg s e = if updated.updateCounter % cfg.recalculateEveryN = 0 then
          some (computed cfg (s.receive e).normalizer e.2) else none := by
        rw [TypedService.publicationOf,← received.updateCounter]
      have handled : f.step (paced cfg seconds) (.message (some e.1) e.2.now e.2.nowMs) =
          if updated.updateCounter % cfg.recalculateEveryN = 0 then
            updated.beginRecalculate (paced cfg seconds) .subscriber e.2.now e.2.nowMs
          else updated := if_pos (rests.idle .subscriber)
      rw [single,List.flatMap_singleton,List.foldl_cons,List.foldl_nil,FundingService.run,List.foldl_cons,handled,List.filterMap_cons,
        published]
      by_cases now : updated.updateCounter % cfg.recalculateEveryN = 0
      · rw [if_pos now,if_pos now]
        exact received.recalculated .subscriber e.2
      · rw [if_neg now,if_neg now]
        have still := @pipelines_idle cfg _ _ _ seconds received .subscriber e.2.clock.typed
        rw [FundingService.run] at still
        rw [still]
        exact received
  | recalculate reading =>
    have late : reading.now - f.lastRecalcAt ≥ (paced cfg seconds).recalculateEverySeconds := due reading rfl
    rw [unbroken,FundingService.run,List.foldl_cons,FundingService.step,if_pos (rests.idle .timed),FundingService.timedRecalc,if_pos late]
    exact rests.recalculated .timed reading
  | purge now =>
    exact ⟨congrArg (fun n => (n.purgeStale now).1) rests.normalizer,rests.updateCounter,rests.idle,rests.answered,
      rests.arbitrage,rests.ranked⟩

/-- Where no other task comes in at the awaits of a recalculation, and the timed loop recalculates
    only once it is due, `FundingService` goes through the states of the service on records and
    the keys have what that one published last, over every run. -/
theorem unbroken_run (cfg : PipelineSettings) (seconds staleAfter : ℚ) (actions : List (Action NormalizedFundingData))
    (due : ∀ before reading after, actions = before ++ .recalculate reading :: after →
      seconds ≤ reading.now - (unbrokenRun cfg seconds staleAfter before).lastRecalcAt) :
    Rests ((TypedService.init staleAfter).run actions) ((TypedService.init staleAfter).publications cfg actions).getLast?
      (unbrokenRun cfg seconds staleAfter actions) := by
  induction actions using List.reverseRecOn with
  | nil => exact ⟨rfl,rfl,fun _ => rfl,fun _ => ⟨rfl,rfl⟩,rfl,rfl⟩
  | append_singleton actions a ih =>
    have rests := ih fun before reading after split => due before reading (after ++ [a]) (by rw [split,List.append_assoc]; rfl)
    have stepped := @Rests.step cfg _ _ _ seconds rests a fun reading same => due actions reading [] (by rw [same])
    have ran : unbrokenRun cfg seconds staleAfter (actions ++ [a]) =
        (unbrokenRun cfg seconds staleAfter actions).run (paced cfg seconds) (unbroken ((TypedService.init staleAfter).run actions) a) := by
      rw [unbrokenRun,unbrokenRun,outputs_append,FundingService.run,List.foldl_append,outputs,outputs,List.append_nil]
      rfl
    have published : ((TypedService.init staleAfter).publications cfg (actions ++ [a])).getLast? =
        (((TypedService.init staleAfter).run actions).publishes cfg a).getLast?.or
          ((TypedService.init staleAfter).publications cfg actions).getLast? := by
      rw [TypedService.publications,outputs_append,outputs,outputs,List.append_nil,List.getLast?_append]
      rfl
    have moved : (TypedService.init staleAfter).run (actions ++ [a]) = ((TypedService.init staleAfter).run actions).step a :=
      List.foldl_append ..
    rw [ran,published,moved]
    exact stepped

end

end FundingBus
end FundingRadar
