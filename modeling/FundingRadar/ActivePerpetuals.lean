import FundingRadar.AsterFreshness
import FundingRadar.Runs

/-!
Which symbols the Aster collector publishes once it knows the active perpetuals. The stream
is held against the active set, but both REST writers of the cache file whatever
`premiumIndex` names, so the records stay within the set as long as that does
(`emitsActive`).
-/
namespace FundingRadar.AsterCollector
open Runs

/-- What comes after the exchange information has been loaded. -/
inductive Update
  | preloadTickerCache (tickers premiums fundingInfo : Option Json)
  | event (event : Json)
  | pollRest (nowMs : ℤ) (tickers premiums : Option Json)

def Update.op : Update → Op
  | .preloadTickerCache tickers premiums fundingInfo => .preloadTickerCache tickers premiums fundingInfo
  | .event e => .event e
  | .pollRest nowMs tickers premiums => .pollRest nowMs tickers premiums

def update (py : Numerals) (c : AsterCollector) (u : Update) : AsterCollector := c.step py u.op

/-- An item of `premiumIndex` has a symbol under which it can be cached. -/
def Files (item : Json) (key : Scalar) : Prop :=
  ∃ sym, item.get "symbol" (.str "") = .ok sym ∧ sym.truthy = true ∧ sym.hash = .ok key

/-- The items that a merge gets to, up to the first that raises, name only members of a set. -/
def MergesOnly (py : Numerals) (S : List Scalar) : Dict Scalar MarkSnapshot → List Json → Prop
  | _,[] => True
  | snapshots,item :: rest =>
    match mergePremium py snapshots item with
    | .error _ => True
    | .ok merged => (∀ key, Files item key → key ∈ S) ∧ MergesOnly py S merged rest

/-- What an update merges of `premiumIndex` names only members of a set. -/
def NamesOnly (py : Numerals) (S : List Scalar) (c : AsterCollector) : Update → Prop
  | .preloadTickerCache _ premiums _ => MergesOnly py S c.wsSnapshots (items premiums)
  | .event _ => True
  | .pollRest _ tickers premiums =>
    (tickers.bind fun t => (readTickers t).toOption).isSome = true → MergesOnly py S c.wsSnapshots (items premiums)

/-- Every cached symbol is in a set. -/
def CachesOnly (S : List Scalar) (c : AsterCollector) : Prop := ∀ key snap, c.wsSnapshots.get? key = some snap → key ∈ S
/-- Every record of a build has its symbol in a set. -/
def EmitsOnly (py : Numerals) (S : List Scalar) (c : AsterCollector) : Prop :=
  ∀ nowMs results, c.buildNormalized py nowMs = .ok results → ∀ r ∈ results, Scalar.str r.symbol ∈ S

variable {py : Numerals} {S : List Scalar} {c : AsterCollector}

theorem CachesOnly.emits (within : CachesOnly S c) : EmitsOnly py S c := by
  intro nowMs results built r member
  obtain ⟨snap,found,-⟩ := buildNormalized_spec built member
  exact within _ snap found

/-! ### Merging -/

/-- A merge adds the symbol that the item names, if it is not cached. -/
theorem mergePremium_cached {before after : Dict Scalar MarkSnapshot} {item : Json}
    (merged : mergePremium py before item = .ok after) (key : Scalar) :
    (after.get? key).isSome = true ↔ (before.get? key).isSome = true ∨ Files item key := by
  simp only [mergePremium,bind_eq_ok] at merged
  obtain ⟨sym,got,merged⟩ := merged
  split at merged
  · next falsy =>
    cases merged
    refine (or_iff_left ?_).symm
    rintro ⟨sym',got',truthy,-⟩
    cases got.symm.trans got'
    rw [truthy] at falsy
    cases falsy
  · next truthy =>
    have truthy' : sym.truthy = true := by simpa using truthy
    obtain ⟨named,hashed,merged⟩ := bind_eq_ok.mp merged
    have names : Files item key ↔ key = named := by
      constructor
      · rintro ⟨sym',got',-,hashed'⟩
        cases got.symm.trans got'
        exact Except.ok.inj (hashed'.symm.trans hashed)
      · rintro rfl
        exact ⟨sym,got,truthy',hashed⟩
    rw [names]
    split at merged
    · next cached =>
      cases merged
      refine (or_iff_left_of_imp ?_).symm
      rintro rfl
      exact cached
    · obtain ⟨entry,-,merged⟩ := bind_eq_ok.mp merged
      cases merged
      rw [Dict.get?_insert]
      by_cases same : key = named
      · simp [same]
      · simp [same]

theorem accumulate_cached (list : List Json) {before : Dict Scalar MarkSnapshot} {key : Scalar} {snap : MarkSnapshot}
    (found : before.get? key = some snap) : (accumulate (mergePremium py) before list).1.get? key = some snap :=
  accumulate_keeps (fun snapshots => snapshots.get? key = some snap)
    (fun _ _ _ _ merged kept => mergePremium_keeps merged kept) found

/-- A merge keeps the cache within a set exactly when the items that it gets to are. -/
theorem merges_iff {before : Dict Scalar MarkSnapshot} (within : ∀ key snap, before.get? key = some snap → key ∈ S)
    (list : List Json) :
    (∀ key snap, (accumulate (mergePremium py) before list).1.get? key = some snap → key ∈ S) ↔ MergesOnly py S before list := by
  induction list generalizing before with
  | nil => exact iff_of_true within trivial
  | cons item rest ih =>
    rw [accumulate,MergesOnly]
    cases merged : mergePremium py before item with
    | error e => exact iff_of_true within trivial
    | ok after =>
      dsimp only
      have cached := mergePremium_cached merged
      constructor
      · intro final
        have named : ∀ key, Files item key → key ∈ S := by
          intro key names
          obtain ⟨snap,found⟩ := Option.isSome_iff_exists.mp ((cached key).mpr (.inr names))
          exact final key snap (accumulate_cached rest found)
        refine ⟨named,(ih ?_).mp final⟩
        intro key snap found
        exact final key snap (accumulate_cached rest found)
      · rintro ⟨named,later⟩
        refine (ih ?_).mpr later
        intro key snap found
        rcases (cached key).mp (by rw [found]; rfl) with old | names
        · obtain ⟨snap,was⟩ := Option.isSome_iff_exists.mp old
          exact within key snap was
        · exact named key names

/-! ### Events -/

theorem readEvent_known {event : Json} {key : Scalar} {snap : MarkSnapshot} (active : c.activeSymbols ≠ [])
    (read : c.readEvent py event = .ok (some (key,snap))) : key ∈ c.activeSymbols := by
  simp only [readEvent,bind_eq_ok] at read
  obtain ⟨kind,_,read⟩ := read
  split at read
  · cases read
  · obtain ⟨symbol,_,read⟩ := bind_eq_ok.mp read
    split at read
    · cases read
    · obtain ⟨known,member,read⟩ := bind_eq_ok.mp read
      split at read
      · cases read
      · next accepted =>
        obtain ⟨mark,_,read⟩ := bind_eq_ok.mp ((skipping_eq_some _ _ _).mp read)
        obtain ⟨named,hashed,read⟩ := bind_eq_ok.mp read
        cases read
        rw [hashed] at member
        cases member
        simpa using accepted

/-! ### Runs -/

theorem update_activeSymbols (c : AsterCollector) (u : Update) : (update py c u).activeSymbols = c.activeSymbols := by
  cases u with
  | preloadTickerCache tickers premiums fundingInfo => rfl
  | event e =>
    simp only [update,Update.op,step,processMarkPriceEvent]
    cases c.readEvent py e with
    | error e => rfl
    | ok written =>
      cases written with
      | none => rfl
      | some entry => rfl
  | pollRest nowMs tickers premiums =>
    simp only [update,Update.op,step,pollRest]
    split
    · rfl
    · split
      · rfl
      · rfl

/-- An update keeps the cache within the active set exactly when what it merges is. -/
theorem update_cachesOnly_iff (active : S ≠ []) (loaded : c.activeSymbols = S) (within : CachesOnly S c) (u : Update) :
    CachesOnly S (update py c u) ↔ NamesOnly py S c u := by
  cases u with
  | preloadTickerCache tickers premiums fundingInfo => exact merges_iff within (items premiums)
  | event e =>
    refine iff_of_true ?_ trivial
    simp only [update,Update.op,step,processMarkPriceEvent]
    cases read : c.readEvent py e with
    | error e => exact within
    | ok written =>
      cases written with
      | none => exact within
      | some entry =>
        obtain ⟨named,written⟩ := entry
        have known := readEvent_known (by rw [loaded]; exact active) read
        rw [loaded] at known
        intro key snap found
        change (c.wsSnapshots.insert named written).get? key = some snap at found
        rw [Dict.get?_insert] at found
        split at found
        · next same =>
          rw [same]
          exact known
        · exact within key snap found
  | pollRest nowMs tickers premiums =>
    simp only [update,Update.op,step,pollRest,NamesOnly]
    cases tickers.bind fun t => (readTickers t).toOption with
    | none => exact iff_of_true within (fun impossible => by cases impossible)
    | some cache =>
      refine Iff.trans ?_ (forall_prop_of_true rfl).symm
      have listed := @merges_iff py S c.wsSnapshots within (items premiums)
      unfold items at listed ⊢
      cases iterated : (premiums.getD (.arr [])).iter with
      | error e =>
        rw [iterated] at listed
        exact listed
      | ok premiumList =>
        rw [iterated] at listed
        exact listed

/-- Once a set of active symbols has been loaded, the cache stays within it exactly when
    everything that is merged of `premiumIndex` does, and then so do the records. -/
theorem emitsActive (py : Numerals) (config : CollectorConfig) {info : Json} (loaded : readSymbols info = .ok S)
    (active : S ≠ []) (updates : List Update) :
    (Throughout (update py) (CachesOnly S) ((init config).loadExchangeInfo (some info)) updates ↔
      Each (update py) (NamesOnly py S) ((init config).loadExchangeInfo (some info)) updates) ∧
    (Each (update py) (NamesOnly py S) ((init config).loadExchangeInfo (some info)) updates →
      Throughout (update py) (EmitsOnly py S) ((init config).loadExchangeInfo (some info)) updates) := by
  have start : ((init config).loadExchangeInfo (some info)).activeSymbols = S := by
    rw [loadExchangeInfo,Option.bind_some,loaded]
    rfl
  have empty : CachesOnly S ((init config).loadExchangeInfo (some info)) := by
    intro key snap found
    cases found
  have caches : Throughout (update py) (CachesOnly S) ((init config).loadExchangeInfo (some info)) updates ↔
      Each (update py) (NamesOnly py S) ((init config).loadExchangeInfo (some info)) updates :=
    throughout_iff (fun c u holds => (update_activeSymbols c u).trans holds)
      (fun c u holds within => update_cachesOnly_iff active holds within u) start empty updates
  refine ⟨caches,?_⟩
  intro each before within
  exact CachesOnly.emits (caches.mpr each before within)

/-! ### A delisted symbol -/

/-- Exchange information with one active perpetual and one that is settled. -/
def listing : Json := .obj [("symbols",.arr [
  .obj [("symbol",.str "BTCUSDT"),("status",.str "TRADING"),("contractType",.str "PERPETUAL")],
  .obj [("symbol",.str "OLDUSDT"),("status",.str "SETTLING"),("contractType",.str "PERPETUAL")]])]
/-- The preload of a response of `premiumIndex` that quotes one symbol. -/
def quoting (symbol : String) : Update := .preloadTickerCache none (some (.arr [.obj [("symbol",.str symbol)]])) none

theorem delisted_symbol_emitted :
    ¬ ∀ (py : Numerals) (config : CollectorConfig) (info : Json) (S : List Scalar) (updates : List Update),
      readSymbols info = .ok S → S ≠ [] →
      Throughout (update py) (EmitsOnly py S) ((init config).loadExchangeInfo (some info)) updates := by
  intro always
  have emits := always ⟨fun _ => none,fun _ => none⟩ {} listing [.str "BTCUSDT"] [quoting "OLDUSDT"] rfl (by decide)
    [quoting "OLDUSDT"] (List.prefix_refl _)
  have inside := emits 0 _ rfl _ (List.mem_singleton_self _)
  exact absurd inside (by decide)

theorem active_symbol_emitted :
    Throughout (update ⟨fun _ => none,fun _ => none⟩) (EmitsOnly ⟨fun _ => none,fun _ => none⟩ [.str "BTCUSDT"])
      ((init {}).loadExchangeInfo (some listing)) [quoting "BTCUSDT"] := by
  refine (emitsActive ⟨fun _ => none,fun _ => none⟩ {} rfl (by decide) [quoting "BTCUSDT"]).2 ?_
  refine (each_cons _ _).mpr ⟨⟨?_,trivial⟩,each_nil⟩
  rintro key ⟨sym,got,-,hashed⟩
  cases got
  cases hashed
  exact List.mem_singleton_self _

end FundingRadar.AsterCollector
