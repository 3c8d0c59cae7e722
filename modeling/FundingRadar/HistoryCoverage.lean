import FundingRadar.HistoryPaging

/-!
What the requests of `_fetch_history_range` cover. A list in response speaks for a part of the
range and leaves the rest, so the requests of a symbol cover the range exactly when each leaves
nothing of it or is followed by a request for what it leaves (`Harvest.each_covers_iff`). The
loops do not ask for a rest of one millisecond.
-/
namespace FundingRadar
open Paging

variable {β : Type}

namespace HistoryRequest

/-- The response lists the records of a time. -/
def Covers (q : HistoryRequest β) (t : ℤ) : Prop := q.covered.1 ≤ t ∧ t ≤ q.covered.2
/-- The response leaves nothing, or more than a millisecond that is asked for next. -/
def Pursued (q : HistoryRequest β) : Prop := q.rest.1 ≤ q.rest.2 → q.followed = true ∧ q.rest.1 < q.rest.2

instance (q : HistoryRequest β) (t : ℤ) : Decidable (q.Covers t) := inferInstanceAs (Decidable (_ ∧ _))

end HistoryRequest

/-- The requests cover a range exactly when it is longer than a millisecond and all of them are
    pursued. -/
def CoversIfPursued (requests : List (HistoryRequest β)) (lo hi : ℤ) : Prop :=
  (∀ t, lo ≤ t → t ≤ hi → ∃ q ∈ requests, q.Covers t) ↔ lo ≠ hi ∧ ∀ q ∈ requests, q.Pursued

/-! ### One symbol -/

/-- What a response leaves begins one after what it covers. -/
theorem rest_iff {last bound : ℤ} {next : Prop} :
    (last < bound → next ∧ last + 1 ≠ bound) ↔ (last + 1 ≤ bound → next ∧ last + 1 < bound) :=
  imp_congr_right fun low => and_congr_right fun _ => by omega

namespace AsterCollector
variable {py : Numerals} {symbol : String} {interval : ℤ}

theorem isObj_of_historyRecord {rec : Json} (read : RaisesOnly historyHandles (historyRecord py symbol interval rec)) :
    rec.isObj = true := by
  cases isObj : rec.isObj with
  | true => rfl
  | false =>
    have raised : historyRecord py symbol interval rec = .error .attributeError := by
      rw [historyRecord,Json.number_of_not_isObj isObj]
      rfl
    exact absurd (read _ raised) (by decide)

/-- The next page starts right after what this one reaches. -/
theorem historyPage_reached {chunkStart next : ℤ} {response : Option Json} (rangeEnd : ℤ)
    (follows : (historyPage py symbol interval chunkStart response).2 = some next) :
    next = reached py chunkStart rangeEnd response + 1 := by
  unfold historyPage at follows
  split at follows
  · cases follows
  · next raw =>
    split at follows
    · cases follows
    · next truthy =>
      split at follows
      · cases follows
      · next records iterated =>
        split at follows
        · cases follows
        · next yielded ended =>
          have each := (yields_ended_iff (fun rec => skipping historyHandles (historyRecord py symbol interval rec)) records).mp
            (by rw [historyHandles,ended])
          have read : ∀ rec ∈ records, rec.isObj = true := fun rec member =>
            isObj_of_historyRecord ((skipping_ended_iff historyHandles (historyRecord py symbol interval rec)).mp (each rec member))
          obtain rfl := Json.eq_arr_of_objects iterated (by simpa using truthy) read
          obtain ⟨last,ts,ends,timed,full,-,rfl⟩ := (nextChunkStart_iff records next).mp follows
          have lastTime : (do (← (Json.arr records).last).time py "fundingTime" : Except PyError ℤ) = .ok ts := by
            rw [Json.last_arr_iff.mpr ends]
            exact timed
          rw [reached,if_neg (by omega),lastTime]
          rfl

theorem symbolRequests_covers {server : ℕ → ℤ → ℤ → Option Json} {startMs endMs nowMs : ℤ} {requests : ℕ}
    (left : (symbolRequests py symbol interval server startMs endMs nowMs requests).2 = true) :
    CoversIfPursued (symbolRequests py symbol interval server startMs endMs nowMs requests).1 startMs (min endMs nowMs) := by
  have covers := asked_covers_iff id (fun i chunkStart => reached py chunkStart (min endMs nowMs) (server i chunkStart (min endMs nowMs)))
    (fun p => decide_eq_true_iff) (fun i p q _ follows => historyPage_reached (min endMs nowMs) follows) left
  simp only [CoversIfPursued,symbolRequests,List.mem_map,exists_exists_and_eq_and,forall_exists_index,and_imp,
    forall_apply_eq_imp_iff₂]
  refine covers.trans (and_congr_right fun _ => forall₂_congr fun a _ => ?_)
  exact rest_iff

end AsterCollector

namespace ExtendedCollector
variable {py : Numerals} {symbol : String}

/-- The next page ends right before what this one reaches. -/
theorem historyPage_reached {startMs next : ℤ} {response : Option Json} (chunkEnd : ℤ)
    (follows : (historyPage py symbol startMs response).2 = some next) :
    next = reached py startMs chunkEnd response - 1 := by
  obtain ⟨members,records,last,ts,rfl,found,full,-,ends,timed,later,rfl⟩ := (historyPage_next_iff response next).mp follows
  have lastTime : (do (← (Json.arr records).last).time py "T" : Except PyError ℤ) = .ok ts := by
    rw [Json.last_arr_iff.mpr ends]
    exact timed
  simp only [reached,Option.bind_some,listAt,found]
  rw [if_neg (by omega),lastTime]
  dsimp only
  rw [if_neg (by omega)]

theorem symbolRequests_covers {server : ℕ → ℤ → ℤ → Option Json} {startMs endMs nowMs : ℤ} {requests : ℕ}
    (left : (symbolRequests py symbol server startMs endMs nowMs requests).2 = true) :
    CoversIfPursued (symbolRequests py symbol server startMs endMs nowMs requests).1 startMs (min endMs nowMs) := by
  -- Time runs backwards: the positions are negated.
  have covers := @asked_covers_iff _ _ (fun chunkEnd => chunkEnd > startMs)
    (fun i chunkEnd => historyPage py symbol startMs (server i startMs chunkEnd)) (-startMs) (fun chunkEnd => -chunkEnd)
    (fun i chunkEnd => -reached py startMs chunkEnd (server i startMs chunkEnd)) requests 0 (min endMs nowMs)
    (fun p => by simp) (fun i p q _ follows => by have := historyPage_reached p follows; omega) left
  simp only [CoversIfPursued,symbolRequests,List.mem_map,exists_exists_and_eq_and,forall_exists_index,and_imp,
    forall_apply_eq_imp_iff₂]
  have mirrored : (∀ t, startMs ≤ t → t ≤ min endMs nowMs → ∃ a ∈ (asked (fun chunkEnd => chunkEnd > startMs)
        (fun i chunkEnd => historyPage py symbol startMs (server i startMs chunkEnd)) requests 0 (min endMs nowMs)).1,
          (historyRequest py symbol startMs a.2 (server a.1 startMs a.2)).Covers t) ↔
      ∀ t, -(min endMs nowMs) ≤ t → t ≤ -startMs → ∃ a ∈ (asked (fun chunkEnd => chunkEnd > startMs)
        (fun i chunkEnd => historyPage py symbol startMs (server i startMs chunkEnd)) requests 0 (min endMs nowMs)).1,
          -a.2 ≤ t ∧ t ≤ -reached py startMs a.2 (server a.1 startMs a.2) := by
    constructor
    · intro covered t low high
      obtain ⟨a,member,above,below⟩ := covered (-t) (by omega) (by omega)
      simp only [historyRequest] at above below
      exact ⟨a,member,by omega,by omega⟩
    · intro covered t low high
      obtain ⟨a,member,above,below⟩ := covered (-t) (by omega) (by omega)
      refine ⟨a,member,?_,?_⟩
      · simp only [historyRequest]
        omega
      · simp only [historyRequest]
        omega
  rw [mirrored]
  refine covers.trans (and_congr (by omega) (forall₂_congr fun a _ => ?_))
  refine rest_iff.trans (imp_congr ?_ (and_congr_right fun _ => ?_))
  · simp only [historyRequest]
    omega
  · simp only [historyRequest]
    omega

end ExtendedCollector

namespace HyperliquidCollector
variable {py : Numerals} {name : Scalar}

theorem assetRequests_covers {server : ℕ → ℤ → ℤ → Option Json} {startMs endMs nowMs : ℤ} {requests : ℕ}
    (left : (assetRequests py name server startMs endMs nowMs requests).2 = true) :
    CoversIfPursued (assetRequests py name server startMs endMs nowMs requests).1 startMs (min endMs nowMs) := by
  have covers := @asked_windows_covers_iff _ chunkMs (min endMs nowMs)
    (fun i chunkStart => (historyPage py name (server i chunkStart (min (chunkStart + chunkMs) (min endMs nowMs))),
      some (min (chunkStart + chunkMs) (min endMs nowMs) + 1)))
    (fun i chunkStart => isList (server i chunkStart (min (chunkStart + chunkMs) (min endMs nowMs))) = true)
    (by decide) (fun _ _ => rfl) requests 0 startMs left
  simp only [CoversIfPursued,assetRequests,List.mem_map,exists_exists_and_eq_and,forall_exists_index,and_imp,
    forall_apply_eq_imp_iff₂]
  refine Iff.trans (forall₃_congr fun t _ _ => exists_congr fun a => and_congr_right fun _ => ?_)
    (covers.trans (and_congr_right fun _ => forall₂_congr fun a member => ?_))
  · cases list : isList (server a.1 a.2 (min (a.2 + chunkMs) (min endMs nowMs))) with
    | true => simp only [HistoryRequest.Covers,historyRequest,list,if_true,true_and]
    | false =>
      simp only [HistoryRequest.Covers,historyRequest,list,Bool.false_eq_true,if_false,false_and,iff_false,not_and]
      intro low
      omega
  · have low := of_decide_eq_true (@asked_active _ _ (fun q : ℤ => decide (q < min endMs nowMs)) _ _ _ _ _ member)
    cases list : isList (server a.1 a.2 (min (a.2 + chunkMs) (min endMs nowMs))) with
    | true =>
      simp only [HistoryRequest.Pursued,historyRequest,list,if_true,true_and]
      omega
    | false =>
      simp only [HistoryRequest.Pursued,historyRequest,list,Bool.false_eq_true,if_false,false_and,imp_false,false_iff]
      omega

end HyperliquidCollector

/-! ### All symbols -/

/-- The symbols that are covered are those that are loaded and whose requests are pursued. -/
def Harvest.CoversLoaded (h : Harvest β) (loaded : List Scalar) (lo hi : ℤ) : Prop :=
  ∀ k, (∀ t, lo ≤ t → t ≤ hi → ∃ q ∈ h.requests, q.symbol = some k ∧ q.Covers t) ↔
    (lo ≤ hi → k ∈ loaded ∧ lo ≠ hi) ∧ ∀ q ∈ h.requests, q.symbol = some k → q.Pursued

namespace Harvest

theorem each_left {κ : Type} {one : κ → Except PyError (List (HistoryRequest β) × Bool)} {keys : List κ}
    (finished : (each one keys).ending = .finished) {k : κ} (member : k ∈ keys) : ∃ requests, one k = .ok (requests,true) := by
  induction keys with
  | nil => cases member
  | cons k' rest ih =>
    rw [each] at finished
    cases first : one k' with
    | error e =>
      rw [first] at finished
      cases finished
    | ok run =>
      obtain ⟨requests,left⟩ := run
      rw [first] at finished
      cases left with
      | false => cases finished
      | true =>
        obtain rfl | later := List.mem_cons.mp member
        · exact ⟨requests,first⟩
        · exact ih finished later

/-- A run that has ended has made the requests of every symbol. -/
theorem mem_each_iff {κ : Type} {one : κ → Except PyError (List (HistoryRequest β) × Bool)} {keys : List κ}
    (finished : (each one keys).ending = .finished) (q : HistoryRequest β) :
    q ∈ (each one keys).requests ↔ ∃ k ∈ keys, ∃ requests, one k = .ok (requests,true) ∧ q ∈ requests := by
  induction keys with
  | nil => simp [each]
  | cons k rest ih =>
    obtain ⟨requests,ran⟩ := each_left finished (List.mem_cons_self ..)
    rw [each,ran] at finished ⊢
    dsimp only at finished ⊢
    rw [List.mem_append,ih finished]
    simp only [List.mem_cons,exists_eq_or_imp,ran,Except.ok.injEq,Prod.mk.injEq,and_true]
    refine or_congr_left ⟨fun member => ⟨requests,rfl,member⟩,?_⟩
    rintro ⟨_,rfl,member⟩
    exact member

/-- The requests of a symbol are those of its own run. -/
theorem each_covers {one : Scalar → Except PyError (List (HistoryRequest β) × Bool)} {keys : List Scalar} {lo hi : ℤ}
    (finished : (each one keys).ending = .finished)
    (own : ∀ k requests, one k = .ok (requests,true) → (∀ q ∈ requests, q.symbol = some k) ∧ CoversIfPursued requests lo hi) :
    (each one keys).CoversLoaded keys lo hi := by
  intro k
  by_cases loaded : k ∈ keys
  · obtain ⟨requests,ran⟩ := each_left finished loaded
    obtain ⟨tagged,covers⟩ := own k requests ran
    have mine : ∀ q, q ∈ (each one keys).requests ∧ q.symbol = some k ↔ q ∈ requests := by
      intro q
      rw [mem_each_iff finished]
      constructor
      · rintro ⟨⟨k',-,requests',ran',member⟩,named⟩
        have same := (own k' requests' ran').1 q member
        rw [named] at same
        obtain rfl := Option.some.inj same
        rw [ran] at ran'
        cases ran'
        exact member
      · intro member
        exact ⟨⟨k,loaded,requests,ran,member⟩,tagged q member⟩
    rw [CoversIfPursued] at covers
    simp only [← and_assoc,mine,← and_imp] at covers ⊢
    rw [covers]
    refine and_congr ⟨fun other _ => ⟨loaded,other⟩,fun inside same => (inside same.le).2 same⟩ Iff.rfl
  · have nothing : ∀ q ∈ (each one keys).requests, q.symbol ≠ some k := by
      intro q member named
      obtain ⟨k',inside,requests,ran,listed⟩ := (mem_each_iff finished q).mp member
      have same := (own k' requests ran).1 q listed
      rw [named] at same
      exact loaded (Option.some.inj same ▸ inside)
    constructor
    · intro covered
      refine ⟨fun some => ?_,fun q member named => absurd named (nothing q member)⟩
      obtain ⟨q,member,named,-⟩ := covered lo (le_refl lo) some
      exact absurd named (nothing q member)
    · rintro ⟨inside,-⟩ t low high
      exact absurd (inside (low.trans high)).1 loaded

/-- The same for runs that want the symbol to be a text. -/
theorem each_named_covers {run : String → Scalar → List (HistoryRequest β) × Bool} {keys : List Scalar} {lo hi : ℤ}
    (finished : (each (fun key => do return run (← key.asStr) key) keys).ending = .finished)
    (tagged : ∀ s k, ∀ q ∈ (run s k).1, q.symbol = some (.str s))
    (covers : ∀ s k, (run s k).2 = true → CoversIfPursued (run s k).1 lo hi) :
    (each (fun key => do return run (← key.asStr) key) keys).CoversLoaded keys lo hi := by
  refine each_covers finished fun k requests ran => ?_
  obtain ⟨symbol,named,made⟩ := bind_eq_ok.mp ran
  cases k with
  | str s =>
    cases named
    obtain ⟨rfl,left⟩ := Prod.mk.inj (Except.ok.inj made)
    exact ⟨tagged _ _,covers _ _ left⟩
  | null => cases named
  | num q => cases named

/-- The request for the list covers nothing. -/
theorem CoversLoaded.withList {κ : Type} {h : Harvest β} {loaded : List Scalar} {lo hi : ℤ} (covers : h.CoversLoaded loaded lo hi)
    (known : List κ) (response : Option Json) :
    (⟨listRequest known response ++ h.requests,h.ending⟩ : Harvest β).CoversLoaded loaded lo hi := by
  have unnamed : ∀ q ∈ (listRequest known response : List (HistoryRequest β)), ∀ k, q.symbol ≠ some k := by
    intro q member k named
    rw [listRequest] at member
    split at member
    · rw [List.mem_singleton.mp member] at named
      cases named
    · cases member
  have mine : ∀ k q, q ∈ listRequest known response ++ h.requests ∧ q.symbol = some k ↔ q ∈ h.requests ∧ q.symbol = some k := by
    intro k q
    rw [List.mem_append]
    exact ⟨fun both => ⟨both.1.resolve_left fun member => unnamed q member k both.2,both.2⟩,fun both => ⟨.inr both.1,both.2⟩⟩
  intro k
  have own := covers k
  simp only [← and_assoc,← and_imp] at own ⊢
  simp only [mine]
  exact own

theorem CoversLoaded.map {γ : Type} {h : Harvest β} {loaded : List Scalar} {lo hi : ℤ} (covers : h.CoversLoaded loaded lo hi)
    (f : β → γ) : (h.map f).CoversLoaded loaded lo hi := by
  intro k
  have own := covers k
  simp only [Harvest.map,List.mem_map,exists_exists_and_eq_and,forall_exists_index,and_imp,forall_apply_eq_imp_iff₂]
  exact own

end Harvest

/-! ### What is listed -/

namespace AsterCollector

/-- The symbols of a list, each entry read on its own. -/
def listedSymbols (data : Json) : Option (List Scalar) :=
  (listAt "symbols" data).map fun entries => entries.flatMap fun s => (readSymbols (.obj [("symbols",.arr [s])])).toOption.getD []
/-- The symbols whose history there is: those that are known, or those of the list. -/
def historySymbols (c : AsterCollector) (info : Option Json) : Option (List Scalar) :=
  if c.activeSymbols = [] then info.bind listedSymbols else some c.activeSymbols
/-- The symbols that the run goes through. -/
def loaded (c : AsterCollector) (info : Option Json) : List Scalar :=
  (if c.activeSymbols = [] then c.loadExchangeInfo info else c).activeSymbols

theorem harvest_covers {py : Numerals} {c : AsterCollector} {info : Option Json} {server : String → ℕ → ℤ → ℤ → Option Json}
    {startMs endMs nowMs : ℤ} {requests : ℕ} (finished : (c.harvest py info server startMs endMs nowMs requests).ending = .finished) :
    (c.harvest py info server startMs endMs nowMs requests).CoversLoaded (c.loaded info) startMs (min endMs nowMs) := by
  refine (Harvest.each_named_covers finished (fun symbol key q member => ?_) fun symbol key left => symbolRequests_covers left).withList _ _
  obtain ⟨a,-,rfl⟩ := List.mem_map.mp member
  rfl

end AsterCollector

namespace ExtendedCollector

/-- The symbols of a list, each entry read on its own. -/
def listedMarkets (data : Json) : Option (List Scalar) :=
  (listAt "data" data).map fun entries => entries.flatMap fun m => (addMarket [] m).toOption.getD []
/-- The symbols whose history there is: those that are known, or those of the list. -/
def historySymbols (c : ExtendedCollector) (info : Option Json) : Option (List Scalar) :=
  if c.activeSymbols = [] then info.bind listedMarkets else some c.activeSymbols
/-- The symbols that the run goes through. -/
def loaded (c : ExtendedCollector) (info : Option Json) : List Scalar :=
  (if c.activeSymbols = [] then c.loadExchangeInfo info else c).activeSymbols

theorem harvest_covers {py : Numerals} {c : ExtendedCollector} {info : Option Json} {server : String → ℕ → ℤ → ℤ → Option Json}
    {startMs endMs nowMs : ℤ} {requests : ℕ} (finished : (c.harvest py info server startMs endMs nowMs requests).ending = .finished) :
    (c.harvest py info server startMs endMs nowMs requests).CoversLoaded (c.loaded info) startMs (min endMs nowMs) := by
  refine (Harvest.each_named_covers finished (fun symbol key q member => ?_) fun symbol key left => symbolRequests_covers left).withList _ _
  obtain ⟨a,-,rfl⟩ := List.mem_map.mp member
  rfl

end ExtendedCollector

namespace HyperliquidCollector

/-- The assets of a universe, each entry read on its own. -/
def listedAssets : Json → Option (List Scalar)
  | .arr (head :: _) => (listAt "universe" head).map fun assets => assets.filterMap fun asset => (assetName asset).toOption.join
  | _ => none
/-- The assets whose history there is: those that are known, or those of the universe. -/
def historySymbols (c : HyperliquidCollector) (warmUp : Option Json) : Option (List Scalar) :=
  if c.assetMeta.entries = [] then warmUp.bind listedAssets else some c.assetMeta.keys
/-- The assets that the run goes through. -/
def loaded (py : Numerals) (nowMs : ℤ) (c : HyperliquidCollector) (warmUp : Option Json) : List Scalar :=
  ((c.warmed py nowMs warmUp).map fun warm => warm.assetMeta.keys).getD []

theorem harvest_covers {py : Numerals} {c : HyperliquidCollector} {warmUp : Option Json}
    {server : Scalar → ℕ → ℤ → ℤ → Option Json} {startMs endMs nowMs : ℤ} {requests : ℕ}
    (finished : (c.harvest py warmUp server startMs endMs nowMs requests).ending = .finished) :
    (c.harvest py warmUp server startMs endMs nowMs requests).CoversLoaded (c.loaded py nowMs warmUp) startMs (min endMs nowMs) := by
  refine (Harvest.each_covers finished ?_).withList _ _
  intro k run ran
  obtain ⟨rfl,left⟩ := Prod.mk.inj (Except.ok.inj ran)
  refine ⟨fun q member => ?_,assetRequests_covers left⟩
  obtain ⟨a,-,rfl⟩ := List.mem_map.mp member
  rfl

end HyperliquidCollector

end FundingRadar
