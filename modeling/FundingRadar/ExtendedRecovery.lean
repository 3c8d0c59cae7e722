import FundingRadar.EntryIsolation

/-!
What the polls of the Extended collector cover after a start that failed. The active set is
filled at the start-up and, while it is empty, by a backfill; a poll never fills it, where
the poll of the Pacifica collector does. So the first load that lists anything decides what
every later poll can report.
-/
namespace FundingRadar.ExtendedCollector

def init (config : CollectorConfig) : ExtendedCollector := ⟨config,.empty,[]⟩

/-- What the collector does once it is started. -/
inductive Op
  | pollRest (nowMs : ℤ) (response : Option Json)
  | message (msg : Json)
  | fetchHistoryRange (info : Option Json)

def step (py : Numerals) (c : ExtendedCollector) : Op → ExtendedCollector
  | .pollRest _ _ => c
  | .message msg =>
    match c.handleWsMessage py msg with
    | .ok after => after
    | .error _ => c
  | .fetchHistoryRange info => if c.activeSymbols = [] then c.loadExchangeInfo info else c
/-- A new collector that is started with a response to its first load, `none` where the
    exchange was not reached. -/
def run (py : Numerals) (config : CollectorConfig) (startup : Option Json) (ops : List Op) : ExtendedCollector :=
  ops.foldl (step py) ((init config).loadExchangeInfo startup)

/-- The responses that a run may load its markets from. -/
def loads (startup : Option Json) (ops : List Op) : List (Option Json) :=
  startup :: ops.filterMap fun op =>
    match op with
    | .fetchHistoryRange info => some info
    | _ => none
/-- The markets that a response lists as active and quoted in USD. -/
def listed (response : Option Json) : List Scalar := ((init {}).loadExchangeInfo response).activeSymbols
/-- The first of a list of lists that is not empty. -/
def firstListing (responses : List (Option Json)) : List Scalar := ((responses.map listed).find? (· ≠ [])).getD []

/-- The markets of a response, as `_poll_rest` runs through them. -/
def marketsOf (data : Json) : List Json := ((do (← data.get "data" (.arr [])).iter : Except PyError _).toOption).getD []

/-- A market that is active and quoted in USD, with the record that it makes: it passes the
    filters of open interest and volume. -/
structure Eligible (py : Numerals) (nowMs : ℤ) (c : ExtendedCollector) (m : Json) (r : NormalizedFundingData) : Prop where
  status : ∃ status, m.get "status" = .ok status ∧ status.isStr "ACTIVE" = true
  name : m.get "name" (.str "") = .ok (.str r.symbol)
  quoted : (Json.str r.symbol).contains "USD" = .ok true
  record : ∃ stats, m.get "marketStats" (.obj []) = .ok stats ∧ c.marketRecord py nowMs (.str r.symbol) stats = .ok (some r)

/-- What a poll publishes: nothing where it raises. -/
def published (py : Numerals) (nowMs : ℤ) (c : ExtendedCollector) (response : Option Json) : List NormalizedFundingData :=
  (c.pollRest py nowMs response).toOption.getD []
/-- A poll publishes the record of every eligible market of its response. -/
def Covers (py : Numerals) (nowMs : ℤ) (c : ExtendedCollector) (data : Json) : Prop :=
  ∀ m ∈ marketsOf data, ∀ r, Eligible py nowMs c m r → r ∈ c.published py nowMs (some data)

variable {py : Numerals} {nowMs : ℤ} {c : ExtendedCollector}

/-! ### The active set -/

theorem loadExchangeInfo_of_empty (empty : c.activeSymbols = []) (response : Option Json) :
    (c.loadExchangeInfo response).activeSymbols = listed response := by
  unfold listed loadExchangeInfo
  cases response with
  | none => exact empty
  | some data =>
    dsimp only
    cases data.get "data" (.arr []) with
    | error e => exact empty
    | ok markets =>
      dsimp only
      cases markets.iter with
      | error e => rfl
      | ok ms => rfl

theorem handleWsMessage_activeSymbols {msg : Json} {after : ExtendedCollector} (handled : c.handleWsMessage py msg = .ok after) :
    after.activeSymbols = c.activeSymbols := by
  simp only [handleWsMessage,bind_eq_ok] at handled
  obtain ⟨kind,-,handled⟩ := handled
  split at handled
  · cases handled
    rfl
  · obtain ⟨data,-,handled⟩ := bind_eq_ok.mp handled
    obtain ⟨symbol,-,handled⟩ := bind_eq_ok.mp handled
    obtain ⟨price,-,handled⟩ := bind_eq_ok.mp handled
    split at handled
    · obtain ⟨key,-,handled⟩ := bind_eq_ok.mp handled
      cases handled
      rfl
    · cases handled
      rfl

theorem firstListing_snoc (responses : List (Option Json)) (response : Option Json) :
    firstListing (responses ++ [response]) = if firstListing responses = [] then listed response else firstListing responses := by
  unfold firstListing
  rw [List.map_append,List.find?_append]
  cases found : (responses.map listed).find? (· ≠ []) with
  | none =>
    by_cases empty : listed response = []
    · simp [empty]
    · simp [empty]
  | some active =>
    have nonempty : active ≠ [] := by simpa using List.find?_some found
    simp [nonempty]

/-- The active set of a run is the first listing of its loads. -/
theorem run_activeSymbols (py : Numerals) (config : CollectorConfig) (startup : Option Json) (ops : List Op) :
    (run py config startup ops).activeSymbols = firstListing (loads startup ops) := by
  induction ops using List.reverseRecOn with
  | nil =>
    have first := firstListing_snoc [] startup
    rw [List.nil_append] at first
    exact (loadExchangeInfo_of_empty rfl startup).trans first.symm
  | append_singleton ops op ih =>
    have stepped : run py config startup (ops ++ [op]) = step py (run py config startup ops) op := List.foldl_append
    rw [stepped]
    cases op with
    | pollRest nowMs response =>
      rw [loads,List.filterMap_append,← List.cons_append,← loads]
      simpa [step] using ih
    | message msg =>
      rw [loads,List.filterMap_append,← List.cons_append,← loads]
      simp only [step]
      split
      · next handled =>
        rw [handleWsMessage_activeSymbols handled,ih]
        simp
      · rw [ih]
        simp
    | fetchHistoryRange info =>
      rw [loads,List.filterMap_append,← List.cons_append,← loads]
      have more := firstListing_snoc (loads startup ops) info
      rw [← ih] at more
      refine Eq.trans ?_ more.symm
      simp only [step]
      split
      · next empty => exact loadExchangeInfo_of_empty empty info
      · rfl

/-! ### A poll -/

theorem marketRecord_symbol {key : Scalar} {stats : Json} {r : NormalizedFundingData}
    (made : c.marketRecord py nowMs key stats = .ok (some r)) : key = .str r.symbol := by
  simp only [marketRecord,bind_eq_ok] at made
  obtain ⟨symbol,named,restPrice,_,indexPrice,_,rate,_,next,_,volume,_,openInterest,_,made⟩ := made
  split at made
  · cases made
  · obtain ⟨apr,-,made⟩ := bind_eq_ok.mp made
    cases made
    cases key with
    | str s =>
      cases named
      rfl
    | null => cases named
    | num q => cases named

/-- Only markets of the active set make records. -/
theorem pollMarket_active {m : Json} {r : NormalizedFundingData} (polled : c.pollMarket py nowMs m = .ok (some r)) :
    .str r.symbol ∈ c.activeSymbols := by
  simp only [pollMarket,bind_eq_ok] at polled
  obtain ⟨name,-,key,-,polled⟩ := polled
  split at polled
  · cases polled
  · next active =>
    obtain ⟨stats,-,attempt⟩ := bind_eq_ok.mp polled
    have named := marketRecord_symbol ((skipping_eq_some _ _ _).mp attempt)
    rw [named] at active
    exact not_not.mp active

/-- An eligible market of the active set makes its record. -/
theorem pollMarket_of_eligible {m : Json} {r : NormalizedFundingData} (eligible : Eligible py nowMs c m r)
    (active : .str r.symbol ∈ c.activeSymbols) : c.pollMarket py nowMs m = .ok (some r) := by
  obtain ⟨stats,found,made⟩ := eligible.record
  refine bind_eq_ok.mpr ⟨_,eligible.name,bind_eq_ok.mpr ⟨.str r.symbol,rfl,?_⟩⟩
  rw [if_neg (not_not.mpr active)]
  exact bind_eq_ok.mpr ⟨stats,found,(skipping_eq_some _ _ _).mpr made⟩

theorem published_eq (data : Json) :
    c.published py nowMs (some data) = (collect (c.pollMarket py nowMs) (marketsOf data)).toOption.getD [] := by
  unfold published pollRest marketsOf
  dsimp only
  cases data.get "data" (.arr []) with
  | error e => rfl
  | ok markets =>
    dsimp only [bind,Except.bind]
    cases markets.iter with
    | error e => rfl
    | ok ms => rfl

/-- A poll covers its response exactly when every eligible market is active and, if there is
    one, no market raises outside the `try`. -/
theorem covers_iff_active (data : Json) :
    Covers py nowMs c data ↔
      (∀ m ∈ marketsOf data, ∀ r, Eligible py nowMs c m r → .str r.symbol ∈ c.activeSymbols) ∧
      ((∃ m ∈ marketsOf data, ∃ r, Eligible py nowMs c m r) → ∀ m ∈ marketsOf data, c.Pollable m) := by
  unfold Covers
  rw [published_eq]
  constructor
  · intro covers
    have ran : ∀ m ∈ marketsOf data, ∀ r, Eligible py nowMs c m r →
        ∃ results, collect (c.pollMarket py nowMs) (marketsOf data) = .ok results ∧ r ∈ results := by
      intro m member r eligible
      have inside := covers m member r eligible
      cases polled : collect (c.pollMarket py nowMs) (marketsOf data) with
      | error e =>
        rw [polled] at inside
        cases inside
      | ok results =>
        rw [polled] at inside
        exact ⟨results,rfl,inside⟩
    constructor
    · intro m member r eligible
      obtain ⟨results,polled,inside⟩ := ran m member r eligible
      obtain ⟨m',-,made⟩ := collect_mem polled inside
      exact pollMarket_active made
    · rintro ⟨m,member,r,eligible⟩ other inList
      obtain ⟨results,polled,-⟩ := ran m member r eligible
      exact (pollMarket_ended_iff other).mp (collect_ended polled other inList)
  · rintro ⟨active,pollable⟩ m member r eligible
    have ended := fun other inList =>
      (@pollMarket_ended_iff py nowMs c other).mpr (pollable ⟨m,member,r,eligible⟩ other inList)
    have alone := (collect_eachAlone_iff (c.pollMarket py nowMs) (marketsOf data)).mpr ended
    have made := pollMarket_of_eligible eligible (active m member r eligible)
    rw [EachAlone] at alone
    rw [alone]
    refine List.mem_flatMap.mpr ⟨m,member,?_⟩
    rw [collect_singleton,made]
    exact List.mem_singleton_self r

/-- After any start and any run, what a poll covers is decided by the first load that lists
    anything. -/
theorem covers_iff (py : Numerals) (config : CollectorConfig) (startup : Option Json) (ops : List Op) (nowMs : ℤ) (data : Json) :
    Covers py nowMs (run py config startup ops) data ↔
      (∀ m ∈ marketsOf data, ∀ r, Eligible py nowMs (run py config startup ops) m r →
        .str r.symbol ∈ firstListing (loads startup ops)) ∧
      ((∃ m ∈ marketsOf data, ∃ r, Eligible py nowMs (run py config startup ops) m r) →
        ∀ m ∈ marketsOf data, (run py config startup ops).Pollable m) := by
  rw [covers_iff_active,run_activeSymbols]

/-- The statistics of a market that passes both filters. -/
def traded : Json := .obj [("markPrice",.num 1),("dailyVolume",.num 1),("openInterestBase",.num 1000)]
/-- A response with one active market. -/
def oneMarket : Json := marketsResponse [.obj [("name",.str "BTC-USD"),("status",.str "ACTIVE"),("marketStats",traded)]]

/-- An exchange that was not reached at the start-up stays away. -/
theorem unreachable_start_not_covered :
    ¬ Covers ⟨fun _ => none,fun _ => none⟩ 0 (run ⟨fun _ => none,fun _ => none⟩ {} none []) oneMarket := by
  intro covers
  have passes : ((run ⟨fun _ => none,fun _ => none⟩ {} none []).marketRecord ⟨fun _ => none,fun _ => none⟩ 0
      (.str "BTC-USD") traded).toOption.join.isSome = true := by decide +kernel
  obtain ⟨r,joined⟩ := Option.isSome_iff_exists.mp passes
  have made := toOption_join_iff.mp joined
  have symbol : r.symbol = "BTC-USD" := (Scalar.str.inj (marketRecord_symbol made)).symm
  have inside := covers _ (List.mem_singleton_self _) r
    ⟨⟨_,rfl,rfl⟩,by rw [symbol]; rfl,by rw [symbol]; rfl,_,rfl,by rw [symbol]; exact made⟩
  cases inside

end FundingRadar.ExtendedCollector
