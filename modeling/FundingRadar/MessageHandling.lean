import Mathlib.Data.PNat.Defs
import FundingRadar.MessageTyping

/-!
`_handle_message` of the funding service, on texts. It handles what a text that is not JSON, an
object without the fields of a record and a pair that cannot be hashed raise; the types of the
fields are not checked, so a record that a calculator cannot compare is stored, and every
recalculation raises until it is purged.
-/
namespace FundingRadar
open UntypedNormalizer

/-- What `json.loads` raises: besides `JSONDecodeError` the `RecursionError` of a text that is nested
    too deeply and the `ValueError` of an integer with too many digits. -/
inductive LoadsError
  | jsonDecodeError
  | recursionError
  | valueError
deriving DecidableEq

inductive MessageError
  | loads (e : LoadsError)
  | python (e : PyError)
deriving DecidableEq

/-- What the service and its calculators are configured with, and `round`. -/
structure PipelineSettings where
  rnd : ℕ → ℚ → ℚ
  minNetAprTaker : ℚ
  recalculateEveryN : ℕ+

structure UntypedService where
  normalizer : UntypedNormalizer
  updateCounter : ℕ

namespace UntypedService

/-- What a recalculation publishes under its two keys. -/
structure Publication where
  arbitrage : Option (List UntypedResult)
  ranked : Option (List UntypedRankRow)

/-- What the handling of a message leaves, stores, raises and publishes. -/
structure Handled where
  service : UntypedService
  stored : Option UntypedFundingData
  raised : Option MessageError
  published : Option Publication

variable (cfg : PipelineSettings) (loads : String → Except LoadsError Json)

/-- `_recalculate`. It logs what a calculator raises, and what comes after is not computed. -/
def recalculate (n : UntypedNormalizer) (now : ℚ) (nowMs : ℤ) (clock : Clock) : Publication :=
  match calculate cfg.rnd cfg.minNetAprTaker n now nowMs with
  | .error _ => ⟨none,none⟩
  | .ok results => ⟨some results,(buildRanked cfg.rnd n clock).toOption⟩

def messageHandles : List MessageError := [.loads .jsonDecodeError,.python .typeError,.python .keyError]
/-- A message that raises before anything is stored. -/
def rejected (s : UntypedService) (e : MessageError) : Handled := ⟨s,none,if e ∈ messageHandles then none else some e,none⟩
/-- `_handle_message`. -/
def handleMessage (s : UntypedService) (raw : String) (now : ℚ) (nowMs : ℤ) (clock : Clock) : Handled :=
  match loads raw with
  | .error e => s.rejected (.loads e)
  | .ok v =>
    match UntypedFundingData.ofDict v with
    | .error e => s.rejected (.python e)
    | .ok data =>
      match s.normalizer.update now data with
      | .error e => s.rejected (.python e)
      | .ok updated =>
        let counter := s.updateCounter + 1
        ⟨⟨updated,counter⟩,some data,none,
          if counter % cfg.recalculateEveryN = 0 then some (recalculate cfg updated now nowMs clock) else none⟩

/-- The fields declared `float`, and those declared `int`. -/
def floatFields (r : NormalizedFundingData) : List (String × ℚ) :=
  [("funding_rate",r.fundingRate),("funding_rate_8h",r.fundingRate8h),("funding_apr",r.fundingApr),("mark_price",r.markPrice),
    ("index_price",r.indexPrice),("open_interest_usd",r.openInterestUsd),("volume_24h_usd",r.volume24hUsd),
    ("price_spread_pct",r.priceSpreadPct),("maker_fee",r.makerFee),("taker_fee",r.takerFee)] ++
      r.predictedRate.toList.map (fun rate => ("predicted_rate",rate))
def intFields : List String := ["funding_interval_hours","next_funding_time","timestamp"]
/-- Integers up to here are added and doubled as the calculators do without leaving the range of a
    `float`. One beyond that range raises `OverflowError` next to a `float`. -/
def floatRange : ℚ := 2 ^ 1000
/-- The numbers of a record have their declared types: an integer in a `float` field is in range, and
    no `int` field is written as a `float`. -/
structure Declared (isFloat : String → String → Bool) (raw : String) (r : NormalizedFundingData) : Prop where
  floats : ∀ e ∈ floatFields r, isFloat raw e.1 = true ∨ |e.2| ≤ floatRange
  integers : ∀ field ∈ intFields, isFloat raw field = false

-- `isFloat raw field`: the numeral of a field has a fraction or an exponent, so that `json.loads` gives a `float`
variable (isFloat : String → String → Bool)

/-- Nothing escapes, and either nothing has changed or a record of the declared types has been
    stored. -/
def Safe (s : UntypedService) (raw : String) (now : ℚ) (h : Handled) : Prop :=
  h.raised = none ∧ (h.stored = none ∧ h.service = s ∨
    ∃ r : NormalizedFundingData, h.stored = some (.ofTyped r) ∧ Declared isFloat raw r ∧
      s.normalizer.update now (.ofTyped r) = .ok h.service.normalizer ∧ h.service.updateCounter = s.updateCounter + 1)
/-- The text is not JSON, or it is no record that can be stored, or its fields have their
    declared types. -/
def Harmless (raw : String) : Prop :=
  match loads raw with
  | .error e => e = .jsonDecodeError
  | .ok v => ∀ data, UntypedFundingData.ofDict v = .ok data → (∃ exchange, data.exchange.hash = .ok exchange) →
      (∃ token, data.token.hash = .ok token) → ∃ r, data = .ofTyped r ∧ Declared isFloat raw r

/-! ### One message -/

theorem ofDict_raisesOnly (v : Json) : RaisesOnly [.typeError] (UntypedFundingData.ofDict v) := by
  have argument : ∀ members field, RaisesOnly [.typeError] (UntypedFundingData.argument members field) := by
    intro members field
    rw [UntypedFundingData.argument]
    split
    · exact raisesOnly_ok _ _
    · rintro _ same
      cases same
      exact List.mem_singleton_self _
  cases v with
  | obj members =>
    unfold UntypedFundingData.ofDict
    dsimp only
    split
    · rintro _ same
      cases same
      exact List.mem_singleton_self _
    · -- one argument after the other
      repeat refine RaisesOnly.bind (argument _ _) fun _ _ => ?_
      exact raisesOnly_ok _ _
  | _ =>
    rintro _ same
    cases same
    exact List.mem_singleton_self _

theorem update_raisesOnly (n : UntypedNormalizer) (now : ℚ) (data : UntypedFundingData) : RaisesOnly [.typeError] (n.update now data) := by
  refine (Json.hash_raisesOnly data.exchange).bind fun exchange _ => ?_
  refine (Json.hash_raisesOnly data.token).bind fun token _ => ?_
  exact raisesOnly_ok _ _

theorem update_ok_iff (n : UntypedNormalizer) (now : ℚ) (data : UntypedFundingData) :
    (∃ updated, n.update now data = .ok updated) ↔
      (∃ exchange, data.exchange.hash = .ok exchange) ∧ ∃ token, data.token.hash = .ok token := by
  simp only [update,bind_eq_ok]
  constructor
  · rintro ⟨updated,exchange,hashed,token,hashed',-⟩
    exact ⟨⟨exchange,hashed⟩,token,hashed'⟩
  · rintro ⟨⟨exchange,hashed⟩,token,hashed'⟩
    exact ⟨_,exchange,hashed,token,hashed',rfl⟩

variable {cfg loads isFloat}

/-- A message is safe exactly when it is harmless, whatever has been stored before it. -/
theorem handleMessage_safe_iff (s : UntypedService) (raw : String) (now : ℚ) (nowMs : ℤ) (clock : Clock) :
    s.Safe isFloat raw now (s.handleMessage cfg loads raw now nowMs clock) ↔ Harmless loads isFloat raw := by
  unfold handleMessage Harmless
  have rejectedSafely : ∀ e, s.Safe isFloat raw now (s.rejected e) ↔ e ∈ messageHandles := by
    intro e
    unfold Safe rejected
    by_cases handled : e ∈ messageHandles
    · simp [handled]
    · simp [handled]
  cases loads raw with
  | error e =>
    dsimp only
    rw [rejectedSafely]
    cases e with
    | jsonDecodeError => decide
    | recursionError => decide
    | valueError => decide
  | ok v =>
    dsimp only
    cases built : UntypedFundingData.ofDict v with
    | error e =>
      dsimp only
      rw [rejectedSafely]
      obtain rfl := List.mem_singleton.mp (ofDict_raisesOnly v e built)
      refine iff_of_true (by decide) fun data impossible => ?_
      cases impossible
    | ok data =>
      dsimp only
      cases updated : s.normalizer.update now data with
      | error e =>
        dsimp only
        rw [rejectedSafely]
        obtain rfl := List.mem_singleton.mp (update_raisesOnly _ now data e updated)
        refine iff_of_true (by decide) fun data' built' exchange token => ?_
        cases built'
        obtain ⟨n,ran⟩ := (update_ok_iff s.normalizer now data).mpr ⟨exchange,token⟩
        rw [updated] at ran
        cases ran
      | ok n =>
        dsimp only
        constructor
        · rintro ⟨-,⟨nothing,-⟩ | ⟨r,stored,declared,-⟩⟩ data' built' - -
          · cases nothing
          · cases built'
            exact ⟨r,Option.some.inj stored,declared⟩
        · intro harmless
          obtain ⟨exchange,token⟩ := (update_ok_iff s.normalizer now data).mp ⟨n,updated⟩
          obtain ⟨r,rfl,declared⟩ := harmless data rfl exchange token
          exact ⟨rfl,.inr ⟨r,rfl,declared,updated,rfl⟩⟩

/-! ### Runs -/

/-- A message arrives, or the housekeeping task purges. -/
inductive Event
  | message (raw : String) (now : ℚ) (nowMs : ℤ) (clock : Clock)
  | purge (now : ℚ)

variable (cfg loads isFloat)

def step (s : UntypedService) : Event → UntypedService
  | .message raw now nowMs clock => (s.handleMessage cfg loads raw now nowMs clock).service
  | .purge now => { s with normalizer := s.normalizer.purgeStale now }
/-- The service after a sequence of events. -/
def run (staleAfter : ℚ) (events : List Event) : UntypedService := events.foldl (step cfg loads) ⟨.init staleAfter,0⟩
/-- A message is harmless, or the event is none. -/
def HarmlessEvent : Event → Prop
  | .message raw _ _ _ => Harmless loads isFloat raw
  | .purge _ => True

variable {cfg loads isFloat}

/-- What one harmless event does to a normalizer of typed records. -/
theorem step_ofTyped {s : UntypedService} {n : DataNormalizer} (typed : s.normalizer = .ofTyped n) (e : Event)
    (harmless : HarmlessEvent loads isFloat e) :
    ∃ ops : List DataNormalizer.Op, (s.step cfg loads e).normalizer = .ofTyped (ops.foldl DataNormalizer.step n) := by
  cases e with
  | message raw now nowMs clock =>
    have safe := (@handleMessage_safe_iff cfg loads isFloat s raw now nowMs clock).mpr harmless
    rcases safe.2 with ⟨-,unchanged⟩ | ⟨r,-,-,updated,-⟩
    · exact ⟨[],(congrArg UntypedService.normalizer unchanged).trans typed⟩
    · rw [typed,update_ofTyped] at updated
      exact ⟨[.update now r],(Except.ok.inj updated).symm⟩
  | purge now =>
    refine ⟨[.purgeStale now],?_⟩
    show s.normalizer.purgeStale now = _
    rw [typed,purgeStale_ofTyped]
    rfl

/-- After harmless messages the untyped normalizer is one of the typed pipeline. -/
theorem run_ofTyped (staleAfter : ℚ) (events : List Event) (harmless : ∀ e ∈ events, HarmlessEvent loads isFloat e) :
    ∃ ops, (run cfg loads staleAfter events).normalizer = .ofTyped (.run staleAfter ops) := by
  induction events using List.reverseRecOn with
  | nil => exact ⟨[],rfl⟩
  | append_singleton events e ih =>
    obtain ⟨ops,typed⟩ := ih fun e member => harmless e (List.mem_append_left _ member)
    obtain ⟨more,stepped⟩ := @step_ofTyped cfg loads isFloat _ _ typed e (harmless e (List.mem_append_right _ (List.mem_singleton_self e)))
    refine ⟨ops ++ more,?_⟩
    rw [run,List.foldl_append,DataNormalizer.run,List.foldl_append]
    exact stepped

variable (cfg loads isFloat)

/-- Every message is handled safely exactly if it is harmless, and after harmless messages the
    calculators compute what the typed ones do. -/
theorem messages_safe :
    (∀ s raw now nowMs clock, Safe isFloat s raw now (s.handleMessage cfg loads raw now nowMs clock) ↔ Harmless loads isFloat raw) ∧
    ∀ staleAfter events, (∀ e ∈ events, HarmlessEvent loads isFloat e) → ∃ ops,
      (∀ now nowMs, calculate cfg.rnd cfg.minNetAprTaker (run cfg loads staleAfter events).normalizer now nowMs =
        .ok ((ArbitrageCalculator.calculate cfg.rnd cfg.minNetAprTaker (.run staleAfter ops) now nowMs).map resultOfTyped)) ∧
      ∀ clock, buildRanked cfg.rnd (run cfg loads staleAfter events).normalizer clock =
        .ok ((FundingAggregator.buildRanked cfg.rnd (.run staleAfter ops) clock.typed).map rankRowOfTyped) := by
  refine ⟨handleMessage_safe_iff,fun staleAfter events harmless => ?_⟩
  obtain ⟨ops,typed⟩ := @run_ofTyped cfg loads isFloat staleAfter events harmless
  refine ⟨ops,fun now nowMs => ?_,fun clock => ?_⟩
  · rw [typed]
    exact calculate_ofTyped cfg.rnd cfg.minNetAprTaker _ now nowMs
  · rw [typed]
    exact buildRanked_ofTyped cfg.rnd _ clock

/-- A message about bitcoin, with the text of its APR. -/
def rateText (exchange apr : String) : String :=
  "\x7b\"exchange\": \"" ++ exchange ++ "\", \"token\": \"BTC\", \"symbol\": \"BTC\", \"funding_rate\": 0, \"funding_rate_8h\": 0, " ++
  "\"funding_apr\": " ++ apr ++ ", \"funding_interval_hours\": 8, \"next_funding_time\": null, \"predicted_rate\": null, " ++
  "\"mark_price\": 100, \"index_price\": 100, \"open_interest_usd\": 5000, \"volume_24h_usd\": 5000, " ++
  "\"price_spread_pct\": 0, \"maker_fee\": 0, \"taker_fee\": 0, \"timestamp\": 0, \"is_live\": true\x7d"
/-- The value of that text. -/
def rateJson (exchange : String) (apr : Json) : Json :=
  .obj [("exchange",.str exchange),("token",.str "BTC"),("symbol",.str "BTC"),("funding_rate",.num 0),("funding_rate_8h",.num 0),
    ("funding_apr",apr),("funding_interval_hours",.num 8),("next_funding_time",.null),("predicted_rate",.null),
    ("mark_price",.num 100),("index_price",.num 100),("open_interest_usd",.num 5000),("volume_24h_usd",.num 5000),
    ("price_spread_pct",.num 0),("maker_fee",.num 0),("taker_fee",.num 0),("timestamp",.num 0),("is_live",.bool true)]
/-- `json.loads`, of three of these texts. -/
@[irreducible] def rateLoads (raw : String) : Except LoadsError Json :=
  if raw = rateText "aster" "null" then .ok (rateJson "aster" .null)
  else if raw = rateText "aster" "20" then .ok (rateJson "aster" (.num 20))
  else if raw = rateText "hyperliquid" "10" then .ok (rateJson "hyperliquid" (.num 10))
  else .error .jsonDecodeError

/-- These texts have integers only. -/
def noFloats : String → String → Bool := fun _ _ => false

def defaultSettings : PipelineSettings := ⟨roundTo,0,5⟩
/-- A clock that stands still. -/
def stillClock (now : ℚ) : Clock := ⟨fun _ _ _ => now,fun _ _ _ _ _ => le_refl _⟩
def rateMessage (exchange apr : String) (now : ℚ) : Event := .message (rateText exchange apr) now 0 (stillClock now)

/-- An APR of null next to a number: both messages are accepted, and neither calculator returns. -/
theorem null_rate_not_safe :
    ¬ ((∀ s raw now nowMs clock, Safe noFloats s raw now (s.handleMessage defaultSettings rateLoads raw now nowMs clock)) ∧
      ∀ staleAfter events,
        (∀ now nowMs, ∃ results, calculate roundTo 0 (run defaultSettings rateLoads staleAfter events).normalizer now nowMs = .ok results) ∧
        ∀ clock, ∃ ranked, buildRanked roundTo (run defaultSettings rateLoads staleAfter events).normalizer clock = .ok ranked) := by
  rintro ⟨-,calculators⟩
  obtain ⟨results,returned⟩ := (calculators 120 [rateMessage "aster" "null" 0,rateMessage "hyperliquid" "10" 1]).1 2 2000
  have raises : (calculate roundTo 0
      (run defaultSettings rateLoads 120 [rateMessage "aster" "null" 0,rateMessage "hyperliquid" "10" 1]).normalizer 2 2000).isOk = false := by
    decide +kernel
  rw [returned] at raises
  cases raises

/-- The record of a rate that is a number. -/
def rateRecord (exchange : String) (apr : ℚ) : NormalizedFundingData where
  exchange := exchange
  token := "BTC"
  symbol := "BTC"
  fundingRate := 0
  fundingRate8h := 0
  fundingApr := apr
  fundingIntervalHours := 8
  nextFundingTime := none
  predictedRate := none
  markPrice := 100
  indexPrice := 100
  openInterestUsd := 5000
  volume24hUsd := 5000
  priceSpreadPct := 0
  makerFee := 0
  takerFee := 0
  timestamp := 0
  isLive := true

theorem harmless_rateMessage {exchange text : String} {apr : ℚ} (now : ℚ)
    (loaded : rateLoads (rateText exchange text) = .ok (rateJson exchange (.num apr)))
    (declared : Declared noFloats (rateText exchange text) (rateRecord exchange apr)) :
    HarmlessEvent rateLoads noFloats (rateMessage exchange text now) := by
  show Harmless rateLoads noFloats (rateText exchange text)
  rw [Harmless,loaded]
  intro data built _ _
  cases built
  exact ⟨rateRecord exchange apr,rfl,declared⟩

/-- Next to another number the same pair is computed. -/
theorem two_rates_safe :
    (calculate roundTo 0
      (run defaultSettings rateLoads 120 [rateMessage "aster" "20" 0,rateMessage "hyperliquid" "10" 1]).normalizer 2 2000).isOk = true := by
  have aster : rateLoads (rateText "aster" "20") = .ok (rateJson "aster" (.num 20)) := by
    rw [rateLoads,if_neg (by decide),if_pos rfl]
  have hyperliquid : rateLoads (rateText "hyperliquid" "10") = .ok (rateJson "hyperliquid" (.num 10)) := by
    rw [rateLoads,if_neg (by decide),if_neg (by decide),if_pos rfl]
  have declared : ∀ text exchange, Declared noFloats text (rateRecord exchange 20) ∧ Declared noFloats text (rateRecord exchange 10) := by
    refine fun text exchange => ⟨⟨fun e member => .inr ?_,fun _ _ => rfl⟩,⟨fun e member => .inr ?_,fun _ _ => rfl⟩⟩
    · have all : ∀ e ∈ floatFields (rateRecord "" 20), |e.2| ≤ floatRange := by decide +kernel
      exact all e member
    · have all : ∀ e ∈ floatFields (rateRecord "" 10), |e.2| ≤ floatRange := by decide +kernel
      exact all e member
  have harmless : ∀ e ∈ [rateMessage "aster" "20" 0,rateMessage "hyperliquid" "10" 1], HarmlessEvent rateLoads noFloats e :=
    List.forall_mem_cons.mpr ⟨harmless_rateMessage 0 aster (declared _ _).1,
      List.forall_mem_singleton.mpr (harmless_rateMessage 1 hyperliquid (declared _ _).2)⟩
  obtain ⟨ops,calculated,-⟩ := (messages_safe defaultSettings rateLoads noFloats).2 120 _ harmless
  exact congrArg Except.isOk (calculated 2 2000)

end UntypedService
end FundingRadar
