import FundingRadar.Paging
import FundingRadar.BackfillHistory

/-!
The loop of `_fetch_history_range` for one symbol: which windows it asks for, when it is
left, and what it yields of a server that answers as documented. The contract names both
ends of the range inclusive, but every loop condition is strict.
-/
namespace FundingRadar
open Paging

/-! ### The windows of Hyperliquid -/

/-- Disjoint windows that together contain an interval, both ends included. -/
structure Tiles (windows : List (ℤ × ℤ)) (lo hi : ℤ) : Prop where
  disjoint : windows.Pairwise (fun a b => ∀ t, ¬ ((a.1 ≤ t ∧ t ≤ a.2) ∧ b.1 ≤ t ∧ t ≤ b.2))
  covers : ∀ t, lo ≤ t → t ≤ hi → ∃ w ∈ windows, w.1 ≤ t ∧ t ≤ w.2

namespace HyperliquidCollector

/-- The loop of `assetRequests`. -/
def assetLoop (py : Numerals) (name : Scalar) (server : ℕ → ℤ → ℤ → Option Json) (startMs endMs nowMs : ℤ) (requests : ℕ) :
    List (ℕ × ℤ) × Bool :=
  let chunkEnd := fun chunkStart => min (chunkStart + chunkMs) (min endMs nowMs)
  asked (fun chunkStart => chunkStart < min endMs nowMs)
    (fun i chunkStart => (historyPage py name (server i chunkStart (chunkEnd chunkStart)),some (chunkEnd chunkStart + 1)))
    requests 0 startMs
/-- The windows of the first requests for one asset, and whether the loop has been left. -/
def windows (py : Numerals) (name : Scalar) (server : ℕ → ℤ → ℤ → Option Json) (startMs endMs nowMs : ℤ) (requests : ℕ) :
    List (ℤ × ℤ) × Bool :=
  let run := assetLoop py name server startMs endMs nowMs requests
  (run.1.map (fun a => (a.2,min (a.2 + chunkMs) (min endMs nowMs))),run.2)

variable (py : Numerals) (name : Scalar) (server : ℕ → ℤ → ℤ → Option Json) (startMs endMs nowMs : ℤ) (requests : ℕ)

/-- Every request names one of the windows. -/
theorem assetRequests_eq :
    assetRequests py name server startMs endMs nowMs requests =
      ((assetLoop py name server startMs endMs nowMs requests).1.map fun a =>
        historyRequest py name (min endMs nowMs) a.2 (min (a.2 + chunkMs) (min endMs nowMs))
          (server a.1 a.2 (min (a.2 + chunkMs) (min endMs nowMs))),
      (windows py name server startMs endMs nowMs requests).2) :=
  rfl

theorem assetLoop_bounded :
    (assetLoop py name server startMs endMs nowMs requests).1.length ≤ (min endMs nowMs - startMs).toNat ∧
    ((min endMs nowMs - startMs).toNat ≤ requests → (assetLoop py name server startMs endMs nowMs requests).2 = true) := by
  refine asked_bounded (fun p => (min endMs nowMs - p).toNat) ?_ ?_ requests 0 startMs
  · intro p running
    have := of_decide_eq_true running
    omega
  · intro i p q running next
    have := of_decide_eq_true running
    cases next
    dsimp only [chunkMs]
    omega

/-- The windows tile the range unless a window would start at its last millisecond. -/
theorem windows_tile_iff :
    ∃ n, ∀ requests, n ≤ requests →
      (windows py name server startMs endMs nowMs requests).2 = true ∧
      (Tiles (windows py name server startMs endMs nowMs requests).1 startMs (min endMs nowMs) ↔
        ¬ (startMs ≤ min endMs nowMs ∧ chunkMs + 1 ∣ min endMs nowMs - startMs)) := by
  refine ⟨(min endMs nowMs - startMs).toNat,fun requests enough => ?_⟩
  refine ⟨(assetLoop_bounded py name server startMs endMs nowMs requests).2 enough,?_⟩
  obtain ⟨-,apart,covered⟩ := @asked_windows _ chunkMs (min endMs nowMs)
    (fun i chunkStart =>
      (historyPage py name (server i chunkStart (min (chunkStart + chunkMs) (min endMs nowMs))),
        some (min (chunkStart + chunkMs) (min endMs nowMs) + 1)))
    (by decide) (fun _ _ => rfl) requests 0 startMs enough
  have inWindow : ∀ t, (∃ w ∈ (windows py name server startMs endMs nowMs requests).1, w.1 ≤ t ∧ t ≤ w.2) ↔
      startMs ≤ t ∧ t ≤ min endMs nowMs ∧ ¬ (t = min endMs nowMs ∧ chunkMs + 1 ∣ min endMs nowMs - startMs) := by
    intro t
    rw [← covered t]
    simp only [windows,List.mem_map,exists_exists_and_eq_and]
    rfl
  constructor
  · rintro tiles ⟨nonempty,divides⟩
    exact ((inWindow _).mp (tiles.covers (min endMs nowMs) nonempty (le_refl _))).2.2 ⟨rfl,divides⟩
  · intro whole
    refine ⟨?_,fun t above below => (inWindow t).mpr ⟨above,below,?_⟩⟩
    · refine List.pairwise_map.mpr (apart.imp ?_)
      rintro a b before t ⟨⟨-,inside⟩,after,-⟩
      dsimp only at inside after
      omega
    · rintro ⟨rfl,divides⟩
      exact whole ⟨above,divides⟩

/-- One millisecond beyond a full window is in no window. -/
theorem last_instant_not_tiled :
    windows ⟨fun _ => none,fun _ => none⟩ (.str "BTC") (fun _ _ _ => none) 0 604800001 604800001 1 = ([(0,604800000)],true) ∧
      ¬ Tiles [(0,604800000)] 0 604800001 := by
  refine ⟨by decide,fun tiles => ?_⟩
  obtain ⟨w,member,-,below⟩ := tiles.covers 604800001 (by decide) (le_refl _)
  rw [List.mem_singleton.mp member] at below
  exact absurd below (by decide)

end HyperliquidCollector

/-! ### Runs that stop -/

/-- The paging of a symbol is left after no more requests than the range has milliseconds. -/
def StopsWithin {β : Type} (run : ℕ → List (HistoryRequest β) × Bool) (startMs endMs nowMs : ℤ) : Prop :=
  ∃ requests, (run requests).2 = true ∧ (run requests).1.length ≤ (min endMs nowMs - startMs + 1).toNat

namespace HyperliquidCollector

/-- The next window is chosen by the collector. -/
theorem assetRequests_stops (py : Numerals) (name : Scalar) (server : ℕ → ℤ → ℤ → Option Json) (startMs endMs nowMs : ℤ) :
    StopsWithin (assetRequests py name server startMs endMs nowMs) startMs endMs nowMs := by
  obtain ⟨length,left⟩ := assetLoop_bounded py name server startMs endMs nowMs (min endMs nowMs - startMs).toNat
  refine ⟨(min endMs nowMs - startMs).toNat,left (le_refl _),?_⟩
  rw [assetRequests_eq,List.length_map]
  exact length.trans (by omega)

end HyperliquidCollector

namespace AsterCollector

variable {py : Numerals} {symbol : String} {interval : ℤ}

/-- A response whose last record is not newer than the cursor is the last one. -/
theorem nextChunkStart_gt {chunkStart next : ℤ} {raw : Json} (follows : nextChunkStart py chunkStart raw = .ok (some next)) :
    chunkStart < next := by
  obtain ⟨last,-,follows⟩ := bind_eq_ok.mp follows
  obtain ⟨lastTs,-,follows⟩ := bind_eq_ok.mp follows
  obtain ⟨len,-,follows⟩ := bind_eq_ok.mp follows
  split at follows
  · cases follows
  · cases follows
    omega

theorem historyPage_next {chunkStart next : ℤ} {response : Option Json}
    (follows : (historyPage py symbol interval chunkStart response).2 = some next) : chunkStart < next := by
  unfold historyPage at follows
  split at follows
  · cases follows
  · next raw =>
    split at follows
    · cases follows
    · split at follows
      · cases follows
      · split at follows
        · cases follows
        · dsimp only at follows
          exact nextChunkStart_gt (toOption_join_iff.mp follows)

theorem symbolLoop_bounded (server : ℕ → ℤ → ℤ → Option Json) (startMs endMs nowMs : ℤ) (requests : ℕ) :
    (symbolRequests py symbol interval server startMs endMs nowMs requests).1.length ≤ (min endMs nowMs - startMs).toNat ∧
    ((min endMs nowMs - startMs).toNat ≤ requests →
      (symbolRequests py symbol interval server startMs endMs nowMs requests).2 = true) := by
  rw [symbolRequests,List.length_map]
  refine asked_bounded (fun p => (min endMs nowMs - p).toNat) ?_ ?_ requests 0 startMs
  · intro p running
    have := of_decide_eq_true running
    omega
  · intro i p q running next
    have := of_decide_eq_true running
    have := historyPage_next next
    omega

/-- The next page starts after this one did. -/
theorem symbolRequests_stops (server : ℕ → ℤ → ℤ → Option Json) (startMs endMs nowMs : ℤ) :
    StopsWithin (symbolRequests py symbol interval server startMs endMs nowMs) startMs endMs nowMs := by
  obtain ⟨length,left⟩ := @symbolLoop_bounded py symbol interval server startMs endMs nowMs (min endMs nowMs - startMs).toNat
  exact ⟨(min endMs nowMs - startMs).toNat,left (le_refl _),length.trans (by omega)⟩

end AsterCollector

namespace ExtendedCollector

/-- A full page of objects whose last one is so much later than the start that the next page is
    asked for. -/
def LaterPage (py : Numerals) (startMs : ℤ) (response : Option Json) : Prop :=
  ∃ members records last ts, response = some (.obj members) ∧ Dict.lookup "data" members = some (.arr records) ∧
    pageSize ≤ records.length ∧ (∀ rec ∈ records, rec.isObj = true) ∧ records.getLast? = some last ∧
    last.time py "T" = .ok ts ∧ startMs + 1 < ts

variable {py : Numerals} {symbol : String} {startMs : ℤ}

/-- Only what is not an object ends the reading of a page. -/
theorem reading_ends_iff (records : List Json) :
    (yields (fun rec => skipping historyHandles (historyRecord py symbol rec)) records).2 = none ↔ ∀ rec ∈ records, rec.isObj = true := by
  rw [yields_ended_iff]
  refine forall₂_congr fun rec _ => ?_
  rw [skipping_ended_iff]
  cases isObj : rec.isObj with
  | false =>
    have raised : historyRecord py symbol rec = .error .attributeError := by
      rw [historyRecord,Json.number_of_not_isObj isObj]
      rfl
    exact iff_of_false (fun only => absurd (only _ raised) (by decide)) (by decide)
  | true =>
    refine iff_of_true ?_ rfl
    refine (Json.number_raisesOnly isObj _ _).bind fun rate _ => ?_
    refine (Json.time_raisesOnly isObj _).bind fun ts _ => ?_
    split
    · exact raisesOnly_ok _ _
    · exact raisesOnly_ok _ _

theorem nextChunkEnd_iff (records : List Json) (q : ℤ) :
    ((nextChunkEnd py startMs (.arr records)).toOption).join = some q ↔
      ∃ last ts, records.getLast? = some last ∧ last.time py "T" = .ok ts ∧ pageSize ≤ records.length ∧ startMs < ts ∧
        q = ts - 1 := by
  rw [toOption_join_iff,nextChunkEnd]
  simp only [bind_eq_ok,Json.last_arr_iff]
  constructor
  · rintro ⟨last,ends,ts,timed,len,counted,follows⟩
    cases counted
    split at follows
    · cases follows
    · cases follows
      exact ⟨last,ts,ends,timed,by omega,by omega,rfl⟩
  · rintro ⟨last,ts,ends,timed,full,later,rfl⟩
    exact ⟨last,ends,ts,timed,records.length,rfl,by rw [if_neg (by omega)]; rfl⟩

theorem historyPage_of_records {members : List (String × Json)} {records : List Json}
    (found : Dict.lookup "data" members = some (.arr records)) :
    historyPage py symbol startMs (some (.obj members)) =
      if records = [] then ([],none)
      else
        match yields (fun rec => skipping historyHandles (historyRecord py symbol rec)) records with
        | (yielded,some _) => (yielded,none)
        | (yielded,none) => (yielded,((nextChunkEnd py startMs (.arr records)).toOption).join) := by
  have truthy : (Json.obj members).truthy = true := by
    cases members with
    | nil => cases found
    | cons m rest => rfl
  have read : (do let rawData ← (Json.obj members).get "data" (.arr []); return (rawData,← rawData.iter) : Except PyError _) =
      .ok (.arr records,records) := by
    simp only [Json.get,Json.get?,found]
    rfl
  unfold historyPage
  dsimp only
  rw [truthy,read]
  cases records with
  | nil => rfl
  | cons rec rest => rfl

/-- What makes a response lead on to another page. -/
theorem historyPage_next_iff (response : Option Json) (q : ℤ) :
    (historyPage py symbol startMs response).2 = some q ↔
      ∃ members records last ts, response = some (.obj members) ∧ Dict.lookup "data" members = some (.arr records) ∧
        pageSize ≤ records.length ∧ (∀ rec ∈ records, rec.isObj = true) ∧ records.getLast? = some last ∧
        last.time py "T" = .ok ts ∧ startMs < ts ∧ q = ts - 1 := by
  constructor
  · intro follows
    unfold historyPage at follows
    split at follows
    · cases follows
    · next raw =>
      split at follows
      · cases follows
      · split at follows
        · cases follows
        · next rawData records read =>
          obtain ⟨data,got,read⟩ := bind_eq_ok.mp read
          obtain ⟨items,iterated,both⟩ := bind_eq_ok.mp read
          cases both
          split at follows
          · cases follows
          · next truthy =>
            split at follows
            · cases follows
            · next yielded ended =>
              have objects := (@reading_ends_iff py symbol records).mp (by rw [historyHandles,ended])
              obtain rfl := Json.eq_arr_of_objects iterated (by simpa using truthy) objects
              obtain ⟨last,ts,ends,timed,full,later,rfl⟩ := (nextChunkEnd_iff records q).mp follows
              cases raw with
              | obj members =>
                refine ⟨members,records,last,ts,rfl,?_,full,objects,ends,timed,later,rfl⟩
                cases found : Dict.lookup "data" members with
                | none =>
                  rw [Json.get,Json.get?,found] at got
                  cases got
                  cases ends
                | some rawData =>
                  rw [Json.get,Json.get?,found] at got
                  cases got
                  rfl
              | _ => cases got
  · rintro ⟨members,records,last,ts,rfl,found,full,objects,ends,timed,later,rfl⟩
    have nonempty : records ≠ [] := by
      rintro rfl
      cases ends
    have ended := (@reading_ends_iff py symbol records).mpr objects
    rw [historyPage_of_records found,if_neg nonempty]
    generalize yields (fun rec => skipping historyHandles (historyRecord py symbol rec)) records = page at ended
    obtain ⟨yielded,raised⟩ := page
    cases ended
    exact (nextChunkEnd_iff records _).mpr ⟨last,ts,ends,timed,full,later,rfl⟩

/-- The next page does not depend on where this one ends, so the first response that leads on to
    none is the last one. -/
theorem symbolRequests_stops_iff (responses : ℕ → Option Json) (startMs endMs nowMs : ℤ) :
    StopsWithin (symbolRequests py symbol (fun i _ _ => responses i) startMs endMs nowMs) startMs endMs nowMs ↔
      min endMs nowMs ≤ startMs ∨
        ∃ i < (min endMs nowMs - startMs + 1).toNat, ¬ LaterPage py startMs (responses i) := by
  have leads : ∀ i, (historyPage py symbol startMs (responses i)).2.filter (fun q => q > startMs) = none ↔
      ¬ LaterPage py startMs (responses i) := by
    intro i
    rw [Option.filter_eq_none_iff]
    constructor
    · rintro ends ⟨members,records,last,ts,given,found,full,objects,last',timed,later⟩
      refine ends (ts - 1) ((historyPage_next_iff _ _).mpr ⟨members,records,last,ts,given,found,full,objects,last',timed,by omega,rfl⟩) ?_
      exact decide_eq_true (by omega)
    · rintro other q follows runs
      obtain ⟨members,records,last,ts,given,found,full,objects,last',timed,-,rfl⟩ := (historyPage_next_iff _ _).mp follows
      have := of_decide_eq_true runs
      exact other ⟨members,records,last,ts,given,found,full,objects,last',timed,by omega⟩
  unfold StopsWithin symbolRequests
  simp only [List.length_map]
  by_cases low : min endMs nowMs ≤ startMs
  · have inactive : (fun chunkEnd : ℤ => decide (chunkEnd > startMs)) (min endMs nowMs) = false := decide_eq_false (by omega)
    refine iff_of_true ⟨0,?_⟩ (.inl low)
    rw [@asked_of_inactive _ _ (fun chunkEnd : ℤ => decide (chunkEnd > startMs)) _ _ inactive]
    exact ⟨rfl,Nat.zero_le _⟩
  · have running : (fun chunkEnd : ℤ => decide (chunkEnd > startMs)) (min endMs nowMs) = true := decide_eq_true (by omega)
    have left := fun fuel => @asked_left_iff _ _ (fun chunkEnd : ℤ => decide (chunkEnd > startMs))
      (fun i _ => historyPage py symbol startMs (responses i)) _ (fun i _ _ => rfl) fuel 0 _ running
    simp only [Nat.zero_add,leads] at left
    rw [or_iff_right low]
    constructor
    · rintro ⟨requests,ended,few⟩
      rw [← left,asked_of_left ended few]
      exact ended
    · intro ends
      exact ⟨(min endMs nowMs - startMs + 1).toNat,(left _).mpr ends,asked_length_le ..⟩

end ExtendedCollector

/-- The windows of Hyperliquid and the cursor of Aster only move on. Extended goes on for as long
    as full pages end after the start, also where they end no earlier than the one before. -/
theorem fetchHistoryRange_stops_iff (py : Numerals) (startMs endMs nowMs : ℤ) :
    (∀ name server, StopsWithin (HyperliquidCollector.assetRequests py name server startMs endMs nowMs) startMs endMs nowMs) ∧
    (∀ symbol interval server,
      StopsWithin (AsterCollector.symbolRequests py symbol interval server startMs endMs nowMs) startMs endMs nowMs) ∧
    ∀ symbol (responses : ℕ → Option Json),
      StopsWithin (ExtendedCollector.symbolRequests py symbol (fun i _ _ => responses i) startMs endMs nowMs)
          startMs endMs nowMs ↔
        min endMs nowMs ≤ startMs ∨
          ∃ i < (min endMs nowMs - startMs + 1).toNat, ¬ ExtendedCollector.LaterPage py startMs (responses i) :=
  ⟨fun name server => HyperliquidCollector.assetRequests_stops py name server startMs endMs nowMs,
    fun _ _ server => AsterCollector.symbolRequests_stops server startMs endMs nowMs,
    fun _ responses => ExtendedCollector.symbolRequests_stops_iff responses startMs endMs nowMs⟩

/-- A server that repeats one full page is asked forever. -/
theorem repeated_page_not_stops :
    ¬ StopsWithin (ExtendedCollector.symbolRequests ⟨fun _ => none,fun _ => none⟩ "BTC-USD"
      (fun _ _ _ => some (.obj [("status",.str "OK"),
        ("data",.arr (List.replicate 10000 (.obj [("m",.str "BTC-USD"),("f",.num 0),("T",.num 5)])))])) 0 10 10) 0 10 10 := by
  rw [ExtendedCollector.symbolRequests_stops_iff (fun _ => some _)]
  rintro (empty | ⟨i,-,ends⟩)
  · exact absurd empty (by decide)
  · refine ends ⟨_,_,.obj [("m",.str "BTC-USD"),("f",.num 0),("T",.num 5)],5,rfl,rfl,?_,?_,?_,?_,by decide⟩
    · rw [List.length_replicate]
      exact le_refl _
    · intro rec member
      rw [List.eq_of_mem_replicate member]
      rfl
    · rw [List.getLast?_replicate]
      rfl
    · simp [Json.time,Json.get,Json.get?,Dict.lookup,Json.orElse,Json.truthy,Json.int,bind,Except.bind,pure,Except.pure]

/-! ### What a run yields of an honest server -/

/-- The settlement records of a symbol, oldest first, each with its timestamp. -/
structure Settlements (py : Numerals) (rateKey timeKey : String) where
  records : List (ℤ × Json)
  sorted : records.Pairwise (fun a b => a.1 < b.1)
  wellFormed : ∀ x ∈ records, (∃ rate, x.2.number py rateKey = .ok rate) ∧ x.2.time py timeKey = .ok x.1

/-- Every record has been yielded exactly once, in some order, and nothing else has been. -/
def YieldsEach {β : Type} (read : Json → Except PyError (Option β)) (records : List Json) (yielded : List β) : Prop :=
  ∃ order, order.Perm records ∧ List.Forall₂ (fun rec y => read rec = .ok (some y)) order yielded

section
variable {β : Type} {read : Json → Except PyError (Option β)}

theorem yields_of_readable {elements : List Json} (readable : ∀ rec ∈ elements, ∃ y, read rec = .ok (some y)) :
    yields (fun rec => skipping historyHandles (read rec)) elements = (elements.filterMap (fun rec => recordOf (read rec)),none) := by
  have ended : (yields (fun rec => skipping historyHandles (read rec)) elements).2 = none := by
    rw [yields_ended_iff]
    intro rec member
    obtain ⟨y,made⟩ := readable rec member
    exact ⟨some y,by rw [made]; rfl⟩
  refine Prod.ext ?_ ended
  rw [yields_map (skipping historyHandles) read,(HistoryRequest.yields_eq_iff _).mpr,List.filterMap_map]
  · rfl
  · intro before e after split
    obtain ⟨rec,member,raised⟩ := List.mem_map.mp (split ▸ List.mem_append_right before (List.mem_cons_self ..) : .error e ∈ elements.map read)
    obtain ⟨y,made⟩ := readable rec member
    rw [made] at raised
    cases raised

theorem forall₂_filterMap {records : List Json} (readable : ∀ rec ∈ records, ∃ y, read rec = .ok (some y)) :
    List.Forall₂ (fun rec y => read rec = .ok (some y)) records (records.filterMap (fun rec => recordOf (read rec))) := by
  induction records with
  | nil => exact .nil
  | cons rec rest ih =>
    obtain ⟨y,made⟩ := readable rec (List.mem_cons_self ..)
    rw [List.filterMap_cons_some (f := fun rec => recordOf (read rec)) (by rw [made]; rfl)]
    exact .cons made (ih fun rec member => readable rec (List.mem_cons_of_mem _ member))

/-- Where a run yields a part of the records, it yields each of them when the part is the whole. -/
theorem yieldsEach_iff_of_part {records part : List Json} (readable : ∀ rec ∈ records, ∃ y, read rec = .ok (some y))
    (sub : part.Subperm records) :
    YieldsEach read records (part.filterMap (fun rec => recordOf (read rec))) ↔ part.length = records.length := by
  have each := forall₂_filterMap fun rec member => readable rec (sub.subset member)
  constructor
  · rintro ⟨order,reordered,each'⟩
    rw [each.length_eq,← each'.length_eq,reordered.length_eq]
  · intro whole
    exact ⟨part,sub.perm_of_length_le whole.ge,each⟩

theorem YieldsEach.readable {records : List Json} {yielded : List β} (each : YieldsEach read records yielded)
    {rec : Json} (member : rec ∈ records) : ∃ y, read rec = .ok (some y) := by
  obtain ⟨order,reordered,made⟩ := each
  have inOrder : rec ∈ order := reordered.symm.subset member
  clear reordered member
  induction made with
  | nil => cases inOrder
  | cons first _ ih =>
    rcases List.mem_cons.mp inOrder with rfl | later
    · exact ⟨_,first⟩
    · exact ih later

/-- What can be yielded of the settlements in an interval, from what is read of them. -/
theorem yieldsEach_settlements_iff {settlements : List (ℤ × Json)} {yielded : List β} {readable : ℤ × Json → Prop} {whole : Prop}
    (reads : ∀ x ∈ settlements, (∃ y, read x.2 = .ok (some y)) ↔ readable x)
    (yields : (∀ rec ∈ settlements.map Prod.snd, ∃ y, read rec = .ok (some y)) →
      (YieldsEach read (settlements.map Prod.snd) yielded ↔ whole)) :
    YieldsEach read (settlements.map Prod.snd) yielded ↔ (∀ x ∈ settlements, readable x) ∧ whole := by
  have all : (∀ rec ∈ settlements.map Prod.snd, ∃ y, read rec = .ok (some y)) ↔ ∀ x ∈ settlements, readable x := by
    rw [List.forall_mem_map]
    exact forall₂_congr reads
  rw [← all]
  constructor
  · intro each
    have readable : ∀ rec ∈ settlements.map Prod.snd, ∃ y, read rec = .ok (some y) := fun _ member => each.readable member
    exact ⟨readable,(yields readable).mp each⟩
  · rintro ⟨readable,complete⟩
    exact (yields readable).mpr complete

end

namespace AsterCollector

variable {py : Numerals} {symbol : String} {interval : ℤ}

/-- The server answers with the oldest records of the requested interval. -/
def AnswersOldestFirst (records : List (ℤ × Json)) (server : ℕ → ℤ → ℤ → Option Json) : Prop :=
  ∀ i lo hi, server i lo hi = some (.arr (((within records lo hi).take pageSize).map Prod.snd))

theorem nextChunkStart_iff {chunkStart : ℤ} (elements : List Json) (q : ℤ) :
    ((nextChunkStart py chunkStart (.arr elements)).toOption).join = some q ↔
      ∃ last ts, elements.getLast? = some last ∧ last.time py "fundingTime" = .ok ts ∧ pageSize ≤ elements.length ∧
        chunkStart < ts ∧ q = ts + 1 := by
  rw [toOption_join_iff,nextChunkStart]
  simp only [bind_eq_ok,Json.last_arr_iff]
  constructor
  · rintro ⟨last,ends,ts,timed,len,counted,follows⟩
    cases counted
    split at follows
    · cases follows
    · cases follows
      exact ⟨last,ts,ends,timed,by omega,by omega,rfl⟩
  · rintro ⟨last,ts,ends,timed,full,later,rfl⟩
    exact ⟨last,ends,ts,timed,elements.length,rfl,by rw [if_neg (by omega)]; rfl⟩

theorem historyRecord_some_iff {rec : Json} {rate : ℚ} {ts : ℤ} (rated : rec.number py "fundingRate" = .ok rate)
    (timed : rec.time py "fundingTime" = .ok ts) :
    (∃ y, historyRecord py symbol interval rec = .ok (some y)) ↔ ts ≠ 0 ∧ interval ≠ 0 := by
  rw [historyRecord,rated,timed]
  simp only [bind,Except.bind,pure,Except.pure,BaseCollector.computeFundingApr]
  by_cases zero : ts = 0
  · simp [zero]
  · by_cases none : interval = 0
    · simp [zero,none]
    · simp [zero,none]

theorem historyPage_of_readable {chunkStart : ℤ} {elements : List Json}
    (readable : ∀ rec ∈ elements, ∃ y, historyRecord py symbol interval rec = .ok (some y)) :
    historyPage py symbol interval chunkStart (some (.arr elements)) =
      (elements.filterMap (fun rec => recordOf (historyRecord py symbol interval rec)),
        ((nextChunkStart py chunkStart (.arr elements)).toOption).join) := by
  cases elements with
  | nil => rfl
  | cons rec rest =>
    show (match yields (fun rec => skipping historyHandles (historyRecord py symbol interval rec)) (rec :: rest) with
      | (yielded,some _) => (yielded,none)
      | (yielded,none) => (yielded,((nextChunkStart py chunkStart (.arr (rec :: rest))).toOption).join)) = _
    rw [yields_of_readable readable]

section
variable {settlements : Settlements py "fundingRate" "fundingTime"}

theorem readable_iff {x : ℤ × Json} (member : x ∈ settlements.records) :
    (∃ y, historyRecord py symbol interval x.2 = .ok (some y)) ↔ x.1 ≠ 0 ∧ interval ≠ 0 := by
  obtain ⟨⟨rate,rated⟩,timed⟩ := settlements.wellFormed x member
  exact historyRecord_some_iff rated timed

/-- The next page starts one past the last record of a full one. -/
theorem nextChunkStart_eq (bound p : ℤ) :
    ((nextChunkStart py p (.arr (((within settlements.records p bound).take pageSize).map Prod.snd))).toOption).join =
      (cursorPage pageSize bound settlements.records p).2 := by
  refine Option.ext fun q => ?_
  rw [nextChunkStart_iff,List.length_map,List.getLast?_map,cursorPage]
  dsimp only
  split
  · next short =>
    refine iff_of_false ?_ (by simp)
    rintro ⟨-,-,-,-,full,-⟩
    exact absurd full (not_le.mpr short)
  · next full =>
    have full : ((within settlements.records p bound).take pageSize).length = pageSize :=
      Nat.le_antisymm (List.length_take_le ..) (not_lt.mp full)
    cases ends : ((within settlements.records p bound).take pageSize).getLast? with
    | none => simp
    | some last =>
      have timed := (settlements.wellFormed last (take_eq_within settlements.sorted ends).2.2.2).2
      have moves := lt_last_of_full settlements.sorted (by decide) full ends
      simp only [Option.map_some,Option.some.injEq]
      constructor
      · rintro ⟨rec,ts,rfl,read,-,-,rfl⟩
        rw [timed] at read
        cases read
        rfl
      · rintro rfl
        exact ⟨last.2,last.1,rfl,timed,full.ge,moves,rfl⟩

theorem symbolHistory_of_readable {server : ℕ → ℤ → ℤ → Option Json} (honest : AnswersOldestFirst settlements.records server)
    {startMs endMs nowMs : ℤ} (readable : ∀ rec ∈ (within settlements.records startMs (min endMs nowMs)).map Prod.snd,
      ∃ y, historyRecord py symbol interval rec = .ok (some y)) {requests : ℕ} (enough : (min endMs nowMs - startMs).toNat ≤ requests) :
    symbolHistory py symbol interval server startMs endMs nowMs requests =
      ((within settlements.records startMs (if CutOff pageSize (min endMs nowMs) settlements.records startMs then
        min endMs nowMs - 1 else min endMs nowMs)).map Prod.snd).filterMap (fun rec => recordOf (historyRecord py symbol interval rec)) := by
  have page : ∀ i p, startMs ≤ p → historyPage py symbol interval p (server i p (min endMs nowMs)) =
      ((cursorPage pageSize (min endMs nowMs) settlements.records p).1.filterMap (fun x => recordOf (historyRecord py symbol interval x.2)),
        (cursorPage pageSize (min endMs nowMs) settlements.records p).2) := by
    intro i p low
    rw [honest,historyPage_of_readable,nextChunkStart_eq,List.filterMap_map]
    · rfl
    · intro rec member
      obtain ⟨x,inPage,rfl⟩ := List.mem_map.mp member
      obtain ⟨inRecords,above,below⟩ := mem_within_iff.mp (List.mem_of_mem_take inPage)
      exact readable x.2 (List.mem_map_of_mem (mem_within_iff.mpr ⟨inRecords,by omega,below⟩))
  rw [symbolHistory,← paged_cursor settlements.sorted (by decide) requests 0 enough,List.filterMap_map]
  refine paged_simulates _ id (fun p => startMs ≤ p) ?_ (fun _ => rfl) ?_ ?_ requests 0 (le_refl startMs)
  · intro i p q low running next
    exact low.trans (cursorPage_moves settlements.sorted next).le
  · intro i p low running
    rw [id_eq,page i p low]
    rfl
  · intro i p low running
    rw [id_eq,page i p low,Option.map_id]
    rfl

/-- The run is left, and it is complete unless it is cut off at its bound. -/
theorem history_complete_iff {server : ℕ → ℤ → ℤ → Option Json} (honest : AnswersOldestFirst settlements.records server)
    (startMs endMs nowMs : ℤ) :
    ∃ n, ∀ requests, n ≤ requests →
      (symbolRequests py symbol interval server startMs endMs nowMs requests).2 = true ∧
      (YieldsEach (historyRecord py symbol interval) ((within settlements.records startMs (min endMs nowMs)).map Prod.snd)
          (symbolHistory py symbol interval server startMs endMs nowMs requests) ↔
        (∀ x ∈ within settlements.records startMs (min endMs nowMs), x.1 ≠ 0 ∧ interval ≠ 0) ∧
          ¬ CutOff pageSize (min endMs nowMs) settlements.records startMs) := by
  refine ⟨(min endMs nowMs - startMs).toNat,fun requests enough => ⟨(symbolLoop_bounded server startMs endMs nowMs requests).2 enough,?_⟩⟩
  refine yieldsEach_settlements_iff (fun x member => readable_iff (mem_within_iff.mp member).1) fun readable => ?_
  obtain ⟨part,whole⟩ := @read_part _ pageSize (min endMs nowMs) _ settlements.sorted startMs
  rw [symbolHistory_of_readable honest readable enough,yieldsEach_iff_of_part readable (part.map Prod.snd).subperm,
    List.length_map,List.length_map,whole]

end

end AsterCollector

namespace ExtendedCollector

/-- The server answers with the newest records of the requested interval. -/
def AnswersNewestFirst (records : List (ℤ × Json)) (server : ℕ → ℤ → ℤ → Option Json) : Prop :=
  ∀ i lo hi, ∃ members, server i lo hi = some (.obj members) ∧
    Dict.lookup "data" members = some (.arr (((within records lo hi).reverse.take pageSize).map Prod.snd))

variable {py : Numerals} {symbol : String} {settlements : Settlements py "f" "T"}

theorem historyRecord_some_iff {rec : Json} {rate : ℚ} {ts : ℤ} (rated : rec.number py "f" = .ok rate)
    (timed : rec.time py "T" = .ok ts) : (∃ y, historyRecord py symbol rec = .ok (some y)) ↔ ts ≠ 0 := by
  rw [historyRecord,rated,timed]
  simp only [bind,Except.bind,pure,Except.pure,BaseCollector.computeFundingApr,fundingIntervalHours]
  by_cases zero : ts = 0
  · simp [zero]
  · simp [zero]

theorem readable_iff {x : ℤ × Json} (member : x ∈ settlements.records) :
    (∃ y, historyRecord py symbol x.2 = .ok (some y)) ↔ x.1 ≠ 0 := by
  obtain ⟨⟨rate,rated⟩,timed⟩ := settlements.wellFormed x member
  exact historyRecord_some_iff rated timed

theorem historyPage_of_readable {startMs : ℤ} {members : List (String × Json)} {elements : List Json}
    (found : Dict.lookup "data" members = some (.arr elements))
    (readable : ∀ rec ∈ elements, ∃ y, historyRecord py symbol rec = .ok (some y)) :
    historyPage py symbol startMs (some (.obj members)) =
      (elements.filterMap (fun rec => recordOf (historyRecord py symbol rec)),
        ((nextChunkEnd py startMs (.arr elements)).toOption).join) := by
  rw [historyPage_of_records found]
  cases elements with
  | nil => rfl
  | cons rec rest => rw [if_neg (List.cons_ne_nil rec rest),yields_of_readable readable]

/-- The page that ends at a time is the page that starts there when time is reversed. -/
theorem page_mirror (startMs p : ℤ) :
    ((within settlements.records startMs (-p)).reverse.take pageSize).map Prod.snd =
      (cursorPage pageSize (-startMs) (mirror settlements.records) p).1.map Prod.snd := by
  obtain ⟨chunkEnd,rfl⟩ : ∃ chunkEnd, p = -chunkEnd := ⟨-p,(neg_neg p).symm⟩
  rw [cursorPage]
  dsimp only
  rw [neg_neg,within_mirror,mirror,← List.map_take,List.map_map]
  rfl

/-- The next page ends one before the last record of a full one. -/
theorem nextChunkEnd_eq (startMs p : ℤ) :
    (((nextChunkEnd py startMs (.arr ((cursorPage pageSize (-startMs) (mirror settlements.records) p).1.map Prod.snd))).toOption).join.filter
        (fun q => q > startMs)) =
      ((cursorPage pageSize (-startMs) (mirror settlements.records) p).2.filter (fun q => q < -startMs)).map (fun q => -q) := by
  refine Option.ext fun q => ?_
  simp only [Option.filter_eq_some_iff,Option.map_eq_some_iff,nextChunkEnd_iff,List.length_map,List.getLast?_map,cursorPage,
    decide_eq_true_eq]
  split
  · next short =>
    refine iff_of_false ?_ (by simp)
    rintro ⟨⟨-,-,-,-,full,-⟩,-⟩
    exact absurd full (not_le.mpr short)
  · next full =>
    have full := not_lt.mp full
    cases ends : ((within (mirror settlements.records) p (-startMs)).take pageSize).getLast? with
    | none => simp
    | some last =>
      obtain ⟨x,inRecords,rfl⟩ := List.mem_map.mp (take_eq_within (mirror_sorted settlements.sorted) ends).2.2.2
      have timed := (settlements.wellFormed x (List.mem_reverse.mp inRecords)).2
      simp only [Option.map_some,Option.some.injEq]
      constructor
      · rintro ⟨⟨rec,ts,⟨_,rfl,rfl⟩,read,-,-,rfl⟩,runs⟩
        rw [timed] at read
        cases read
        exact ⟨-x.1 + 1,⟨rfl,by omega⟩,by omega⟩
      · rintro ⟨q,⟨rfl,runs⟩,rfl⟩
        exact ⟨⟨x.2,x.1,⟨_,rfl,rfl⟩,timed,full,by omega,by omega⟩,by omega⟩

theorem symbolHistory_of_readable {server : ℕ → ℤ → ℤ → Option Json} (honest : AnswersNewestFirst settlements.records server)
    {startMs endMs nowMs : ℤ} (readable : ∀ rec ∈ (within settlements.records startMs (min endMs nowMs)).map Prod.snd,
      ∃ y, historyRecord py symbol rec = .ok (some y)) {requests : ℕ} (enough : (min endMs nowMs - startMs).toNat ≤ requests) :
    symbolHistory py symbol server startMs endMs nowMs requests =
      ((within (mirror settlements.records) (-min endMs nowMs)
        (if CutOff pageSize (-startMs) (mirror settlements.records) (-min endMs nowMs) then -startMs - 1 else -startMs)).map Prod.snd).filterMap
          (fun rec => recordOf (historyRecord py symbol rec)) := by
  have page : ∀ i p, -min endMs nowMs ≤ p → historyPage py symbol startMs (server i startMs (-p)) =
      ((cursorPage pageSize (-startMs) (mirror settlements.records) p).1.filterMap (fun x => recordOf (historyRecord py symbol x.2)),
        ((nextChunkEnd py startMs
          (.arr ((cursorPage pageSize (-startMs) (mirror settlements.records) p).1.map Prod.snd))).toOption).join) := by
    intro i p low
    obtain ⟨members,given,found⟩ := honest i startMs (-p)
    rw [given,historyPage_of_readable found,page_mirror,List.filterMap_map]
    · rfl
    · intro rec member
      obtain ⟨x,inPage,rfl⟩ := List.mem_map.mp member
      obtain ⟨inRecords,above,below⟩ := mem_within_iff.mp (List.mem_reverse.mp (List.mem_of_mem_take inPage))
      exact readable x.2 (List.mem_map_of_mem (mem_within_iff.mpr ⟨inRecords,above,by omega⟩))
  have run := @paged_simulates _ _ _ _ (fun q : ℤ => q < -startMs) (fun _ => cursorPage pageSize (-startMs) (mirror settlements.records))
    (fun chunkEnd => chunkEnd > startMs) (fun i chunkEnd => historyPage py symbol startMs (server i startMs chunkEnd))
    (fun x => recordOf (historyRecord py symbol x.2)) (fun q => -q) (fun p => -min endMs nowMs ≤ p)
    ?_ ?_ ?_ ?_ requests 0 (-min endMs nowMs) (le_refl _)
  · rw [neg_neg] at run
    rw [symbolHistory,run,paged_cursor (mirror_sorted settlements.sorted) (by decide) requests 0 (by omega),List.filterMap_map]
    rfl
  · intro i p q low running next
    exact low.trans (cursorPage_moves (mirror_sorted settlements.sorted) next).le
  · intro p
    rw [decide_eq_decide]
    omega
  · intro i p low running
    rw [page i p low]
  · intro i p low running
    rw [page i p low,nextChunkEnd_eq]

/-- The next page ends before the last one did. -/
theorem symbolLoop_bounded {server : ℕ → ℤ → ℤ → Option Json} (honest : AnswersNewestFirst settlements.records server)
    (startMs endMs nowMs : ℤ) {requests : ℕ} (enough : (min endMs nowMs - startMs).toNat ≤ requests) :
    (symbolRequests py symbol server startMs endMs nowMs requests).2 = true := by
  rw [symbolRequests]
  refine (asked_bounded (fun p => (p - startMs).toNat) ?_ ?_ requests 0 (min endMs nowMs)).2 enough
  · intro p running
    have := of_decide_eq_true running
    omega
  · intro i p q running next
    have := of_decide_eq_true running
    obtain ⟨members,given,found⟩ := honest i startMs p
    obtain ⟨members',elements,rec,ts,given',found',-,-,ends,timed,-,rfl⟩ := (historyPage_next_iff _ _).mp next
    rw [given] at given'
    cases given'
    rw [found] at found'
    cases found'
    rw [List.getLast?_map] at ends
    obtain ⟨last,lastOf,rfl⟩ := Option.map_eq_some_iff.mp ends
    obtain ⟨inRecords,above,below⟩ := mem_within_iff.mp (List.mem_reverse.mp (List.mem_of_mem_take (List.mem_of_getLast? lastOf)))
    rw [(settlements.wellFormed last inRecords).2] at timed
    cases timed
    omega

/-- The run is left, and it is complete unless it is cut off at the start of the range. -/
theorem history_complete_iff {server : ℕ → ℤ → ℤ → Option Json} (honest : AnswersNewestFirst settlements.records server)
    (startMs endMs nowMs : ℤ) :
    ∃ n, ∀ requests, n ≤ requests →
      (symbolRequests py symbol server startMs endMs nowMs requests).2 = true ∧
      (YieldsEach (historyRecord py symbol) ((within settlements.records startMs (min endMs nowMs)).map Prod.snd)
          (symbolHistory py symbol server startMs endMs nowMs requests) ↔
        (∀ x ∈ within settlements.records startMs (min endMs nowMs), x.1 ≠ 0) ∧
          ¬ CutOff pageSize (-startMs) (mirror settlements.records) (-min endMs nowMs)) := by
  refine ⟨(min endMs nowMs - startMs).toNat,fun requests enough => ⟨symbolLoop_bounded honest startMs endMs nowMs enough,?_⟩⟩
  refine yieldsEach_settlements_iff (fun x member => readable_iff (mem_within_iff.mp member).1) fun readable => ?_
  obtain ⟨part,whole⟩ := @read_part _ pageSize (-startMs) _ (mirror_sorted settlements.sorted) (-min endMs nowMs)
  have reversed : (within (mirror settlements.records) (-min endMs nowMs) (-startMs)).map Prod.snd =
      ((within settlements.records startMs (min endMs nowMs)).map Prod.snd).reverse := by
    rw [within_mirror,mirror,List.map_map,← List.map_reverse]
    rfl
  have sub := (part.map Prod.snd).subperm
  rw [reversed] at sub
  have length := congrArg List.length reversed
  rw [List.length_map,List.length_reverse] at length
  rw [symbolHistory_of_readable honest readable enough,yieldsEach_iff_of_part readable (sub.trans (List.reverse_perm _).subperm),
    List.length_map,← length,whole]

end ExtendedCollector

/-- Both runs are left, and both are complete except for what they read as no time, for what they
    cannot annualise, and for a record at the end of the range where a full page stops short of it. -/
theorem fetchHistoryRange_complete_iff {py : Numerals} {symbol : String} {interval : ℤ}
    {aster : Settlements py "fundingRate" "fundingTime"} {asterServer : ℕ → ℤ → ℤ → Option Json}
    (oldestFirst : AsterCollector.AnswersOldestFirst aster.records asterServer)
    {extended : Settlements py "f" "T"} {extendedServer : ℕ → ℤ → ℤ → Option Json}
    (newestFirst : ExtendedCollector.AnswersNewestFirst extended.records extendedServer) (startMs endMs nowMs : ℤ) :
    (∃ n, ∀ requests, n ≤ requests →
      (AsterCollector.symbolRequests py symbol interval asterServer startMs endMs nowMs requests).2 = true ∧
      (YieldsEach (AsterCollector.historyRecord py symbol interval) ((within aster.records startMs (min endMs nowMs)).map Prod.snd)
          (AsterCollector.symbolHistory py symbol interval asterServer startMs endMs nowMs requests) ↔
        (∀ x ∈ within aster.records startMs (min endMs nowMs), x.1 ≠ 0 ∧ interval ≠ 0) ∧
          ¬ ((∃ x ∈ aster.records, x.1 = min endMs nowMs) ∧ startMs ≤ min endMs nowMs ∧
            (startMs = min endMs nowMs ∨ (∃ x ∈ aster.records, x.1 = min endMs nowMs - 1) ∧
              AsterCollector.pageSize ∣ (within aster.records startMs (min endMs nowMs - 1)).length)))) ∧
    ∃ n, ∀ requests, n ≤ requests →
      (ExtendedCollector.symbolRequests py symbol extendedServer startMs endMs nowMs requests).2 = true ∧
      (YieldsEach (ExtendedCollector.historyRecord py symbol) ((within extended.records startMs (min endMs nowMs)).map Prod.snd)
          (ExtendedCollector.symbolHistory py symbol extendedServer startMs endMs nowMs requests) ↔
        (∀ x ∈ within extended.records startMs (min endMs nowMs), x.1 ≠ 0) ∧
          ¬ ((∃ x ∈ extended.records, x.1 = startMs) ∧ startMs ≤ min endMs nowMs ∧
            (min endMs nowMs = startMs ∨ (∃ x ∈ extended.records, x.1 = startMs + 1) ∧
              ExtendedCollector.pageSize ∣ (within extended.records (startMs + 1) (min endMs nowMs)).length))) := by
  refine ⟨AsterCollector.history_complete_iff oldestFirst startMs endMs nowMs,?_⟩
  simp only [← cutOff_mirror_iff]
  exact ExtendedCollector.history_complete_iff newestFirst startMs endMs nowMs

/-- One settlement, as Aster lists it. -/
def asterSettlement : Settlements ⟨fun _ => none,fun _ => none⟩ "fundingRate" "fundingTime" where
  records := [(5,.obj [("symbol",.str "BTCUSDT"),("fundingRate",.num 0),("fundingTime",.num 5)])]
  sorted := List.pairwise_singleton ..
  wellFormed := by
    intro x member
    rw [List.mem_singleton.mp member]
    exact ⟨⟨0,by decide⟩,by decide⟩

section
variable {py : Numerals} {rateKey timeKey : String}

theorem time_of_num {v : Json} {t : ℤ} (read : v.get timeKey = .ok (.num t)) : v.time py timeKey = .ok t := by
  rw [Json.time,read]
  show ((Json.num t).orElse (.num 0)).int py = .ok t
  by_cases zero : t = 0
  · rw [zero]
    rfl
  · simp [Json.orElse,Json.truthy,zero,Json.int]

/-- So many settlements one after another, as an exchange lists them. -/
def consecutive (n : ℕ) (rec : ℤ → Json)
    (wellFormed : ∀ t, (∃ rate, (rec t).number py rateKey = .ok rate) ∧ (rec t).time py timeKey = .ok t) :
    Settlements py rateKey timeKey where
  records := (List.range n).map fun i : ℕ => ((i : ℤ) + 1,rec (i + 1))
  sorted := by
    rw [List.pairwise_map]
    refine List.pairwise_lt_range.imp fun {i j} less => ?_
    show (i : ℤ) + 1 < j + 1
    omega
  wellFormed := by
    intro x member
    obtain ⟨i,-,rfl⟩ := List.mem_map.mp member
    exact wellFormed _
theorem consecutive_between {n : ℕ} {rec : ℤ → Json}
    {wellFormed : ∀ t, (∃ rate, (rec t).number py rateKey = .ok rate) ∧ (rec t).time py timeKey = .ok t} {x : ℤ × Json}
    (member : x ∈ (consecutive n rec wellFormed).records) : 1 ≤ x.1 ∧ x.1 ≤ n := by
  obtain ⟨i,inside,rfl⟩ := List.mem_map.mp member
  have below := List.mem_range.mp inside
  dsimp only
  omega
end

/-- As Aster lists a settlement, and one more of them than a page has. -/
def asterRecord (t : ℤ) : Json := .obj [("symbol",.str "BTCUSDT"),("fundingRate",.num 0),("fundingTime",.num t)]
def asterSettlements : Settlements ⟨fun _ => none,fun _ => none⟩ "fundingRate" "fundingTime" :=
  consecutive 1001 asterRecord fun _ => ⟨⟨0,rfl⟩,time_of_num rfl⟩
/-- The same at Extended. -/
def extendedRecord (t : ℤ) : Json := .obj [("m",.str "BTC-USD"),("f",.num 0),("T",.num t)]
def extendedSettlements : Settlements ⟨fun _ => none,fun _ => none⟩ "f" "T" :=
  consecutive 10001 extendedRecord fun _ => ⟨⟨0,rfl⟩,time_of_num rfl⟩

/-- Settlements inside the range are yielded by both, also those of a second page. -/
theorem inner_settlement_complete :
    (∃ n, ∀ requests, n ≤ requests →
      YieldsEach (AsterCollector.historyRecord ⟨fun _ => none,fun _ => none⟩ "BTC" 8) ((within asterSettlements.records 0 2000).map Prod.snd)
        (AsterCollector.symbolHistory ⟨fun _ => none,fun _ => none⟩ "BTC" 8
          (fun _ lo hi => some (.arr (((within asterSettlements.records lo hi).take 1000).map Prod.snd))) 0 2000 3000 requests)) ∧
    ∃ n, ∀ requests, n ≤ requests →
      YieldsEach (ExtendedCollector.historyRecord ⟨fun _ => none,fun _ => none⟩ "BTC")
        ((within extendedSettlements.records 0 20000).map Prod.snd)
        (ExtendedCollector.symbolHistory ⟨fun _ => none,fun _ => none⟩ "BTC"
          (fun _ lo hi => some (.obj [("status",.str "OK"),
            ("data",.arr (((within extendedSettlements.records lo hi).reverse.take 10000).map Prod.snd))])) 0 20000 30000 requests) := by
  obtain ⟨⟨n,aster⟩,-⟩ := @fetchHistoryRange_complete_iff ⟨fun _ => none,fun _ => none⟩ "BTC" 8 asterSettlements
    _ (fun _ _ _ => rfl) extendedSettlements _ (fun _ lo hi => ⟨[("status",.str "OK"),
      ("data",.arr (((within extendedSettlements.records lo hi).reverse.take 10000).map Prod.snd))],rfl,rfl⟩) 0 2000 3000
  obtain ⟨-,m,extended⟩ := @fetchHistoryRange_complete_iff ⟨fun _ => none,fun _ => none⟩ "BTC" 8 asterSettlements
    _ (fun _ _ _ => rfl) extendedSettlements _ (fun _ lo hi => ⟨[("status",.str "OK"),
      ("data",.arr (((within extendedSettlements.records lo hi).reverse.take 10000).map Prod.snd))],rfl,rfl⟩) 0 20000 30000
  refine ⟨⟨n,fun requests enough => (aster requests enough).2.mpr ⟨fun x member => ⟨?_,by decide⟩,?_⟩⟩,
    ⟨m,fun requests enough => (extended requests enough).2.mpr ⟨fun x member => ?_,?_⟩⟩⟩
  · have := (consecutive_between (mem_within_iff.mp member).1).1
    omega
  · rintro ⟨⟨x,member,atEnd⟩,-⟩
    have below := (consecutive_between member).2
    rw [atEnd] at below
    exact absurd below (by decide)
  · have := (consecutive_between (mem_within_iff.mp member).1).1
    omega
  · rintro ⟨⟨x,member,atStart⟩,-⟩
    have := (consecutive_between member).1
    omega

/-- A settlement at a range of one instant is not asked for. -/
theorem instant_not_complete :
    ¬ ∃ n, ∀ requests, n ≤ requests →
      YieldsEach (AsterCollector.historyRecord ⟨fun _ => none,fun _ => none⟩ "BTCUSDT" 8)
        ((within asterSettlement.records 5 5).map Prod.snd)
        (AsterCollector.symbolHistory ⟨fun _ => none,fun _ => none⟩ "BTCUSDT" 8
          (fun _ lo hi => some (.arr (((within asterSettlement.records lo hi).take 1000).map Prod.snd))) 5 5 20 requests) := by
  rintro ⟨n,each⟩
  obtain ⟨order,reordered,made⟩ := each n (le_refl n)
  have nothing : AsterCollector.symbolHistory ⟨fun _ => none,fun _ => none⟩ "BTCUSDT" 8
      (fun _ lo hi => some (.arr (((within asterSettlement.records lo hi).take 1000).map Prod.snd))) 5 5 20 n = [] :=
    @paged_of_inactive _ _ (fun q : ℤ => q < min 5 20) _ 5 (by decide) n 0
  have length := made.length_eq.symm.trans reordered.length_eq
  rw [nothing] at length
  exact absurd length (by decide)

end FundingRadar
