import FundingRadar.Aster
import FundingRadar.Extended
import FundingRadar.Hyperliquid
import FundingRadar.Pacifica

/-!
Which market entries a poll survives. The `except` clause inside every loop skips wrong
types, wrong values and missing keys, but no call of a method that a value does not have, no
division by zero, and nothing that is raised before the `try`; an entry that raises so takes
the records of all the others with it.
-/
namespace FundingRadar

/-- What the `except` clauses of the loops handle. -/
def loopHandles : List PyError := [.typeError,.valueError,.keyError]

theorem isObj_of_get {v w default : Json} {k : String} (got : v.get k default = .ok w) : v.isObj = true := by
  by_contra notObj
  rw [Json.get_of_not_isObj (by simpa using notObj)] at got
  cases got

section
variable {py : Numerals} {v : Json} (isObj : v.isObj = true) (k : String)
include isObj

theorem get_handled (default : Json) : RaisesOnly loopHandles (v.get k default) := by
  obtain ⟨w,found⟩ := Json.get_of_isObj isObj k default
  rw [found]
  exact raisesOnly_ok _ w
theorem number_handled (default : Json) : RaisesOnly loopHandles (v.number py k default) :=
  (Json.number_raisesOnly isObj k default).mono (by decide)
theorem time_handled : RaisesOnly loopHandles (v.time py k) :=
  (Json.time_raisesOnly isObj k).mono (by decide)

end

namespace HyperliquidCollector

/-- `metaAndAssetCtxs`, of pairs of a universe entry and its context. -/
def rawAssets (entries : List (Json × Json)) : Json :=
  .arr [.obj [("universe",.arr (entries.map Prod.fst))],.arr (entries.map Prod.snd)]
/-- The universe entry is an object, and if the asset has a name to be filed under, so is the
    context. -/
def Normalisable (pair : Json × Json) : Prop :=
  pair.1.isObj = true ∧ ∀ name, assetName pair.1 = .ok (some name) → pair.2.isObj = true

variable {py : Numerals} {nowMs : ℤ} {c : HyperliquidCollector}

theorem assetName_handled {entry : Json} (isObj : entry.isObj = true) : RaisesOnly loopHandles (assetName entry) := by
  refine (get_handled isObj "name" (.str "")).bind fun name _ => ?_
  split
  · refine RaisesOnly.bind ?_ fun _ _ => raisesOnly_ok _ _
    exact (Json.hash_raisesOnly name).mono (by decide)
  · exact raisesOnly_ok _ _

theorem assetRecord_handled_iff {name : Scalar} {ctx : Json} :
    RaisesOnly loopHandles (c.assetRecord py nowMs name ctx) ↔ ctx.isObj = true := by
  cases isObj : ctx.isObj with
  | false =>
    have raised : c.assetRecord py nowMs name ctx = .error .attributeError := by
      rw [assetRecord,Json.number_of_not_isObj isObj]
      rfl
    exact iff_of_false (fun only => absurd (only _ raised) (by decide)) (by decide)
  | true =>
    refine iff_of_true ?_ rfl
    refine (number_handled isObj _ _).bind fun fundingRate _ => ?_
    refine (get_handled isObj _ _).bind fun markPx _ => ?_
    refine (get_handled isObj _ _).bind fun prevDayPx _ => ?_
    refine ((Json.float_raisesOnly _).mono (by decide)).bind fun restPrice _ => ?_
    refine (number_handled isObj _ _).bind fun indexPrice _ => ?_
    refine (number_handled isObj _ _).bind fun openInterestRaw _ => ?_
    refine (number_handled isObj _ _).bind fun volume24h _ => ?_
    dsimp only
    split
    · exact raisesOnly_ok _ _
    · exact raisesOnly_ok _ _

theorem normalizeAsset_ended_iff (pair : Json × Json) :
    (∃ result, (normalizeAsset py nowMs c pair).2 = .ok result) ↔ Normalisable pair := by
  unfold normalizeAsset Normalisable
  cases isObj : pair.1.isObj with
  | false =>
    have raised : assetName pair.1 = .error .attributeError := by
      rw [assetName,Json.get_of_not_isObj isObj]
      rfl
    rw [raised]
    refine iff_of_false ?_ (by simp)
    rw [skipping_ended_iff]
    exact fun only => absurd (only _ rfl) (by decide)
  | true =>
    cases named : assetName pair.1 with
    | error e =>
      refine iff_of_true ?_ ⟨rfl,fun name impossible => by cases impossible⟩
      rw [skipping_ended_iff]
      rintro _ same
      cases same
      exact assetName_handled isObj e named
    | ok name =>
      cases name with
      | none => exact iff_of_true ⟨none,rfl⟩ ⟨rfl,fun name impossible => by cases impossible⟩
      | some name =>
        dsimp only
        rw [skipping_ended_iff]
        refine assetRecord_handled_iff.trans ?_
        simp

/-- The records of a universe do not depend on the assets that are filed. -/
theorem normalize_eq_collect (entries : List (Json × Json)) :
    (c.normalize py nowMs (rawAssets entries)).2 = collect (fun pair => (normalizeAsset py nowMs c pair).2) entries := by
  have paired : assetPairs (.obj [("universe",.arr (entries.map Prod.fst))]) (.arr (entries.map Prod.snd)) = .ok entries :=
    congrArg Except.ok (List.zip_of_prod rfl rfl).symm
  have run : (loop (normalizeAsset py nowMs) c entries).2 = yields (fun pair => (normalizeAsset py nowMs c pair).2) entries := by
    refine loop_eq_yields (fun c' => ∃ filed, c' = { c with assetMeta := filed }) ?_ ?_ ⟨c.assetMeta,rfl⟩ entries
    · rintro _ pair ⟨filed,rfl⟩
      unfold normalizeAsset
      split
      · exact ⟨filed,rfl⟩
      · exact ⟨filed,rfl⟩
      · exact ⟨_,rfl⟩
    · rintro _ pair ⟨filed,rfl⟩
      unfold normalizeAsset
      split
      · rfl
      · rfl
      · rfl
  unfold normalize rawAssets
  dsimp only
  rw [paired,collect,← run]
  dsimp only
  cases loop (normalizeAsset py nowMs) c entries with
  | mk last outcome =>
    obtain ⟨normalized,raised⟩ := outcome
    cases raised with
    | none => rfl
    | some e => rfl

theorem normalize_eachAlone_iff (entries : List (Json × Json)) :
    EachAlone (fun entries => (c.normalize py nowMs (rawAssets entries)).2) entries ↔ ∀ pair ∈ entries, Normalisable pair := by
  simp only [normalize_eq_collect]
  rw [collect_eachAlone_iff]
  exact forall₂_congr fun pair _ => normalizeAsset_ended_iff pair

end HyperliquidCollector

/-- A market that is looked up by its name before it is read: only the reading can be inside a
    `try`. -/
theorem listed_ended_iff {β : Type} {m default : Json} {field : String} {active : List Scalar}
    {read : Scalar → Except PyError (Option β)} :
    (∃ result, (do
      let key ← (← m.get field default).hash
      if key ∉ active then return none else read key : Except PyError (Option β)) = .ok result) ↔
    ∃ name key, m.get field default = .ok name ∧ name.hash = .ok key ∧ (key ∈ active → ∃ result, read key = .ok result) := by
  constructor
  · rintro ⟨result,ran⟩
    obtain ⟨name,got,ran⟩ := bind_eq_ok.mp ran
    obtain ⟨key,hashed,ran⟩ := bind_eq_ok.mp ran
    refine ⟨name,key,got,hashed,fun listed => ⟨result,?_⟩⟩
    rwa [if_neg (not_not.mpr listed)] at ran
  · rintro ⟨name,key,got,hashed,readable⟩
    by_cases listed : key ∈ active
    · obtain ⟨result,ran⟩ := readable listed
      refine ⟨result,bind_eq_ok.mpr ⟨name,got,bind_eq_ok.mpr ⟨key,hashed,?_⟩⟩⟩
      rw [if_neg (not_not.mpr listed)]
      exact ran
    · refine ⟨none,bind_eq_ok.mpr ⟨name,got,bind_eq_ok.mpr ⟨key,hashed,?_⟩⟩⟩
      rw [if_pos listed]
      rfl

/-- A response of Extended or Pacifica. -/
def marketsResponse (entries : List Json) : Json := .obj [("success",.bool true),("data",.arr entries)]

namespace ExtendedCollector

/-- The market is an object with a name that a set can be asked for, and if it is active, its name
    is a string and its statistics are an object. -/
def Pollable (c : ExtendedCollector) (m : Json) : Prop :=
  ∃ name key, m.get "name" (.str "") = .ok name ∧ name.hash = .ok key ∧
    (key ∈ c.activeSymbols → (∃ symbol, key = .str symbol) ∧
      ∃ stats, m.get "marketStats" (.obj []) = .ok stats ∧ stats.isObj = true)

variable {py : Numerals} {nowMs : ℤ} {c : ExtendedCollector}

theorem marketRecord_handled_iff {key : Scalar} {stats : Json} :
    RaisesOnly loopHandles (c.marketRecord py nowMs key stats) ↔ (∃ symbol, key = .str symbol) ∧ stats.isObj = true := by
  cases key with
  | str symbol =>
    cases isObj : stats.isObj with
    | false =>
      have raised : c.marketRecord py nowMs (.str symbol) stats = .error .attributeError := by
        rw [marketRecord,Json.number_of_not_isObj isObj]
        rfl
      exact iff_of_false (fun only => absurd (only _ raised) (by decide)) (by simp)
    | true =>
      refine iff_of_true ?_ ⟨⟨symbol,rfl⟩,rfl⟩
      refine (raisesOnly_ok _ symbol).bind fun _ _ => ?_
      refine (number_handled isObj _ _).bind fun restPrice _ => ?_
      refine (number_handled isObj _ _).bind fun indexPrice _ => ?_
      refine (number_handled isObj _ _).bind fun fundingRate _ => ?_
      refine (time_handled isObj _).bind fun nextFundingTime _ => ?_
      refine (number_handled isObj _ _).bind fun dailyVolume _ => ?_
      refine (number_handled isObj _ _).bind fun openInterestBase _ => ?_
      dsimp only
      split
      · exact raisesOnly_ok _ _
      · exact raisesOnly_ok _ _
  | null => exact iff_of_false (fun only => absurd (only _ rfl) (by decide)) (by simp)
  | num q => exact iff_of_false (fun only => absurd (only _ rfl) (by decide)) (by simp)

theorem pollMarket_ended_iff (m : Json) : (∃ result, c.pollMarket py nowMs m = .ok result) ↔ c.Pollable m := by
  refine listed_ended_iff.trans ?_
  refine exists₂_congr fun name key => and_congr_right fun _ => and_congr_right fun _ => imp_congr_right fun _ => ?_
  constructor
  · rintro ⟨result,ran⟩
    obtain ⟨stats,found,ran⟩ := bind_eq_ok.mp ran
    obtain ⟨named,isObj⟩ := marketRecord_handled_iff.mp ((skipping_ended_iff _ _).mp ⟨result,ran⟩)
    exact ⟨named,stats,found,isObj⟩
  · rintro ⟨named,stats,found,isObj⟩
    obtain ⟨result,ran⟩ := (skipping_ended_iff _ _).mpr (@marketRecord_handled_iff py nowMs c key stats |>.mpr ⟨named,isObj⟩)
    exact ⟨result,bind_eq_ok.mpr ⟨stats,found,ran⟩⟩

theorem pollRest_eachAlone_iff (entries : List Json) :
    EachAlone (fun entries => c.pollRest py nowMs (some (marketsResponse entries))) entries ↔ ∀ m ∈ entries, c.Pollable m :=
  (collect_eachAlone_iff (c.pollMarket py nowMs) entries).trans (forall₂_congr fun m _ => pollMarket_ended_iff m)

end ExtendedCollector

namespace PacificaCollector

/-- The market is an object with a symbol that a set can be asked for, and if it is listed, its
    symbol is a string. -/
def Pollable (c : PacificaCollector) (m : Json) : Prop :=
  ∃ name key, m.get "symbol" (.str "") = .ok name ∧ name.hash = .ok key ∧
    (key ∈ c.activeSymbols → ∃ symbol, key = .str symbol)

variable {py : Numerals} {nowMs : ℤ} {c : PacificaCollector}

theorem marketRecord_handled_iff {key : Scalar} {m : Json} (isObj : m.isObj = true) :
    RaisesOnly loopHandles (c.marketRecord py nowMs key m) ↔ ∃ symbol, key = .str symbol := by
  cases key with
  | str symbol =>
    refine iff_of_true ?_ ⟨symbol,rfl⟩
    refine (raisesOnly_ok _ symbol).bind fun _ _ => ?_
    refine (number_handled isObj _ _).bind fun restPrice _ => ?_
    refine (number_handled isObj _ _).bind fun indexPrice _ => ?_
    refine (number_handled isObj _ _).bind fun fundingRate _ => ?_
    refine (raisesOnly_ok _ _).bind fun fundingApr _ => ?_
    refine (number_handled isObj _ _).bind fun volume24h _ => ?_
    refine (number_handled isObj _ _).bind fun openInterest _ => ?_
    dsimp only
    split
    · exact raisesOnly_ok _ _
    · refine (number_handled isObj _ _).bind fun predictedRate _ => ?_
      exact raisesOnly_ok _ _
  | null => exact iff_of_false (fun only => absurd (only _ rfl) (by decide)) (by simp)
  | num q => exact iff_of_false (fun only => absurd (only _ rfl) (by decide)) (by simp)

theorem pollMarket_ended_iff (m : Json) : (∃ result, c.pollMarket py nowMs m = .ok result) ↔ c.Pollable m := by
  refine listed_ended_iff.trans ?_
  refine exists₂_congr fun name key => and_congr_right fun got => and_congr_right fun _ => imp_congr_right fun _ => ?_
  rw [skipping_ended_iff]
  exact marketRecord_handled_iff (isObj_of_get got)

theorem pollRest_eachAlone_iff (info : Option Json) (entries : List Json) :
    EachAlone (fun entries => (c.pollRest py nowMs info (some (marketsResponse entries))).2) entries ↔
      ∀ m ∈ entries, (if c.activeSymbols = [] then c.loadExchangeInfo info else c).Pollable m :=
  (collect_eachAlone_iff _ entries).trans (forall₂_congr fun m _ => pollMarket_ended_iff m)

end PacificaCollector

namespace AsterCollector
open BaseCollector

/-- The symbol is a string and its ticker an object, and if it is not filtered out, its funding
    interval is not zero. -/
def Buildable (py : Numerals) (c : AsterCollector) (key : Scalar) : Prop :=
  (∃ symbol, key = .str symbol) ∧ ((c.tickerCache.get? key).getD (.obj [])).isObj = true ∧
    ∀ volume, ((c.tickerCache.get? key).getD (.obj [])).number py "quoteVolume" = .ok volume →
      (c.tickerCache.entries ≠ [] → c.config.minOpenInterestUsd ≤ volume ∧ 0 < volume) → c.interval key ≠ 0

variable {py : Numerals} {nowMs : ℤ} {c : AsterCollector}

theorem nextFundingMs_handled (snap : MarkSnapshot) : RaisesOnly loopHandles (snap.nextFundingMs py) := by
  rw [MarkSnapshot.nextFundingMs]
  split
  · intro e raised
    cases read : snap.nextFundingTime.int py with
    | ok t => rw [read] at raised; cases raised
    | error e' =>
      rw [read] at raised
      cases raised
      exact ((Json.int_raisesOnly _).mono (by decide)) e read
  · exact raisesOnly_ok _ _

theorem snapshotRecord_handled_iff (entry : Scalar × MarkSnapshot) :
    RaisesOnly loopHandles (c.snapshotRecord py nowMs entry) ↔ c.Buildable py entry.1 := by
  obtain ⟨key,snap⟩ := entry
  cases key with
  | null => exact iff_of_false (fun only => absurd (only _ rfl) (by decide)) (by simp [Buildable])
  | num q => exact iff_of_false (fun only => absurd (only _ rfl) (by decide)) (by simp [Buildable])
  | str symbol =>
    unfold snapshotRecord Buildable
    dsimp only
    generalize (c.tickerCache.get? (.str symbol)).getD (.obj []) = ticker
    cases isObj : ticker.isObj with
    | false =>
      rw [Json.number_of_not_isObj isObj]
      exact iff_of_false (fun only => absurd (only _ rfl) (by decide)) (by simp)
    | true =>
      cases read : ticker.number py "quoteVolume" with
      | error e =>
        refine iff_of_true ?_ ⟨⟨symbol,rfl⟩,rfl,fun volume impossible => by cases impossible⟩
        rintro _ same
        cases same
        exact number_handled isObj _ _ e read
      | ok volume =>
        simp only [Scalar.asStr,bind,Except.bind]
        by_cases filtered : c.tickerCache.entries ≠ [] ∧ (volume < c.config.minOpenInterestUsd ∨ volume ≤ 0)
        · rw [if_pos filtered]
          refine iff_of_true (raisesOnly_ok _ _) ⟨⟨symbol,rfl⟩,trivial,fun volume' same passes => ?_⟩
          cases same
          obtain ⟨enough,positive⟩ := passes filtered.1
          rcases filtered.2 with low | none
          · exact absurd low (not_lt.mpr enough)
          · exact absurd none (not_le.mpr positive)
        · rw [if_neg filtered]
          by_cases zero : c.interval (.str symbol) = 0
          · rw [computeFundingApr,if_pos zero]
            refine iff_of_false (fun only => absurd (only _ rfl) (by decide)) fun buildable => ?_
            refine buildable.2.2 volume rfl (fun loaded => ?_) zero
            rw [not_and_or,not_or,not_lt,not_le] at filtered
            exact filtered.resolve_left (not_not.mpr loaded)
          · rw [computeFundingApr,if_neg zero]
            refine iff_of_true ?_ ⟨⟨symbol,rfl⟩,trivial,fun _ _ _ => zero⟩
            exact (nextFundingMs_handled snap).bind fun _ _ => raisesOnly_ok _ _

theorem buildNormalized_eachAlone_iff :
    c.buildNormalized py nowMs = .ok (c.wsSnapshots.entries.flatMap fun entry =>
        (({ c with wsSnapshots := Dict.empty.insert entry.1 entry.2 } : AsterCollector).buildNormalized py nowMs).toOption.getD []) ↔
      ∀ key ∈ c.wsSnapshots.keys, c.Buildable py key := by
  refine (collect_eachAlone_iff _ c.wsSnapshots.entries).trans ?_
  rw [Dict.keys,List.forall_mem_map]
  refine forall₂_congr fun entry _ => ?_
  rw [skipping_ended_iff]
  exact snapshotRecord_handled_iff entry

end AsterCollector

/-- The polls that treat every entry alone, and do not raise. -/
theorem polls_eachAlone_iff (py : Numerals) (nowMs : ℤ) :
    (∀ (c : HyperliquidCollector) entries,
      EachAlone (fun entries => (c.normalize py nowMs (HyperliquidCollector.rawAssets entries)).2) entries ↔
        ∀ pair ∈ entries, HyperliquidCollector.Normalisable pair) ∧
    (∀ (c : ExtendedCollector) entries,
      EachAlone (fun entries => c.pollRest py nowMs (some (marketsResponse entries))) entries ↔ ∀ m ∈ entries, c.Pollable m) ∧
    (∀ (c : PacificaCollector) info entries,
      EachAlone (fun entries => (c.pollRest py nowMs info (some (marketsResponse entries))).2) entries ↔
        ∀ m ∈ entries, (if c.activeSymbols = [] then c.loadExchangeInfo info else c).Pollable m) ∧
    ∀ c : AsterCollector,
      c.buildNormalized py nowMs = .ok (c.wsSnapshots.entries.flatMap fun entry =>
          (({ c with wsSnapshots := Dict.empty.insert entry.1 entry.2 } : AsterCollector).buildNormalized py nowMs).toOption.getD []) ↔
        ∀ key ∈ c.wsSnapshots.keys, c.Buildable py key :=
  ⟨fun _ entries => HyperliquidCollector.normalize_eachAlone_iff entries,
    fun _ entries => ExtendedCollector.pollRest_eachAlone_iff entries,
    fun _ info entries => PacificaCollector.pollRest_eachAlone_iff info entries,
    fun _ => AsterCollector.buildNormalized_eachAlone_iff⟩

/-- Statistics that are null take the other markets with them. -/
theorem null_statistics_not_alone :
    ¬ EachAlone (fun entries => (⟨{},.empty,[.str "BTC-USD",.str "ETH-USD"]⟩ : ExtendedCollector).pollRest
        ⟨fun _ => none,fun _ => none⟩ 0 (some (marketsResponse entries)))
      [.obj [("name",.str "BTC-USD"),("marketStats",.null)],
        .obj [("name",.str "ETH-USD"),("marketStats",.obj [("markPrice",.num 1),("dailyVolume",.num 1),("openInterestBase",.num 1000)])]] := by
  rw [ExtendedCollector.pollRest_eachAlone_iff]
  intro all
  obtain ⟨name,key,got,hashed,readable⟩ := all _ (List.mem_cons_self ..)
  cases got
  cases hashed
  obtain ⟨-,stats,found,isObj⟩ := readable (by decide)
  cases found
  cases isObj

end FundingRadar
