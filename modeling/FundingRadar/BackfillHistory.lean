import FundingRadar.Aster
import FundingRadar.Extended
import FundingRadar.Hyperliquid

/-!
`_fetch_history_range` of every collector, request by request: which requests it sends,
what comes back, and what it yields of that. A collector logs a failed request and goes
on in its own way: Hyperliquid with the next window, Aster and Extended with the next
symbol, and with nothing at all where the list of symbols could not be loaded. Pacifica
has no history to ask for.
-/
namespace FundingRadar

/-- What the reading of one record skips. -/
def historyHandles : List PyError := [.typeError,.valueError]

/-- The record of an element, if it is well formed. -/
def recordOf {β : Type} : Except PyError (Option β) → Option β
  | .ok record => record
  | .error _ => none

/-- One request, for the history of a symbol or without one for the list of symbols. The
    response is `none` where the request raised after its retries; otherwise it is how the
    collector reads each of its elements. `covered` is the closed interval of which the response
    lists the records and `rest` what it leaves of the range, both empty where the second time
    is before the first; `followed` says that the collector goes on. -/
structure HistoryRequest (β : Type) where
  symbol : Option Scalar
  response : Option (List (Except PyError (Option β)))
  covered : ℤ × ℤ
  rest : ℤ × ℤ
  followed : Bool

namespace HistoryRequest
variable {β γ : Type}

def elements (q : HistoryRequest β) : List (Except PyError (Option β)) := q.response.getD []
/-- The records that the collector yields; an exception that it does not skip ends the
    page. -/
def yielded (q : HistoryRequest β) : List β := (yields (skipping historyHandles) q.elements).1
/-- The well-formed records of the response. -/
def wellFormed (q : HistoryRequest β) : List β := q.elements.filterMap recordOf

def map (f : β → γ) (q : HistoryRequest β) : HistoryRequest γ where
  symbol := q.symbol
  response := q.response.map fun elements => elements.map fun e => e.map fun record => record.map f
  covered := q.covered
  rest := q.rest
  followed := q.followed

end HistoryRequest

/-- How a generator ends, or that it has not ended yet. -/
inductive Ending
  | finished
  | raised (e : PyError)
  | running
deriving DecidableEq

def Ending.exception : Ending → Option PyError
  | .raised e => some e
  | _ => none

/-- A run of `_fetch_history_range`. -/
structure Harvest (β : Type) where
  requests : List (HistoryRequest β)
  ending : Ending

namespace Harvest
variable {β γ κ : Type}

def yielded (h : Harvest β) : List β := h.requests.flatMap HistoryRequest.yielded
def wellFormed (h : Harvest β) : List β := h.requests.flatMap HistoryRequest.wellFormed
def map (f : β → γ) (h : Harvest β) : Harvest γ := ⟨h.requests.map (HistoryRequest.map f),h.ending⟩

/-- The requests of one symbol after another; a symbol comes with whether its paging has
    been left. -/
def each (one : κ → Except PyError (List (HistoryRequest β) × Bool)) : List κ → Harvest β
  | [] => ⟨[],.finished⟩
  | k :: rest =>
    match one k with
    | .error e => ⟨[],.raised e⟩
    | .ok (requests,false) => ⟨requests,.running⟩
    | .ok (requests,true) => ⟨requests ++ (each one rest).requests,(each one rest).ending⟩

/-- A run that has ended has yielded what the loop over the symbols collects. -/
theorem each_yielded {one : κ → Except PyError (List (HistoryRequest β) × Bool)} {body : List β → κ → Except PyError (List β)}
    (agree : ∀ acc k, body acc k = (one k).map (fun t => acc ++ t.1.flatMap HistoryRequest.yielded)) (keys : List κ)
    (acc : List β) (ended : (each one keys).ending ≠ .running) :
    accumulate body acc keys = (acc ++ (each one keys).yielded,(each one keys).ending.exception) := by
  induction keys generalizing acc with
  | nil => simp [accumulate,each,yielded,Ending.exception]
  | cons k rest ih =>
    rw [accumulate,agree]
    rw [each] at ended ⊢
    cases first : one k with
    | error e => simp [Except.map,yielded,Ending.exception]
    | ok t =>
      obtain ⟨requests,left⟩ := t
      rw [first] at ended
      cases left with
      | false => exact absurd rfl ended
      | true =>
        have later := ih (acc ++ requests.flatMap HistoryRequest.yielded) ended
        simp only [Except.map]
        rw [later]
        simp [yielded,List.append_assoc]

/-- The same for a loop that nothing ends early. -/
theorem each_flatMap (one : κ → List (HistoryRequest β) × Bool) (keys : List κ)
    (ended : (each (fun k => .ok (one k)) keys).ending ≠ .running) :
    (each (fun k => .ok (one k)) keys).yielded = keys.flatMap (fun k => (one k).1.flatMap HistoryRequest.yielded) := by
  induction keys with
  | nil => rfl
  | cons k rest ih =>
    rw [each] at ended ⊢
    cases first : one k with
    | mk requests left =>
      rw [first] at ended
      cases left with
      | false => exact absurd rfl ended
      | true =>
        have later := ih ended
        simp only [yielded] at later
        simp only [yielded,List.flatMap_append,List.flatMap_cons,first,later]

end Harvest

/-! ### What a page loses -/

/-- No well-formed element stands behind one whose exception is not skipped. -/
def NoLoss {β : Type} (elements : List (Except PyError (Option β))) : Prop :=
  ∀ before e after, elements = before ++ .error e :: after → e ∉ historyHandles → ∀ r, .ok (some r) ∉ after

theorem noLoss_cons {β : Type} (a : Except PyError (Option β)) (rest : List (Except PyError (Option β))) :
    NoLoss (a :: rest) ↔ (∀ e, a = .error e → e ∉ historyHandles → ∀ r, .ok (some r) ∉ rest) ∧ NoLoss rest := by
  constructor
  · intro noLoss
    constructor
    · rintro e rfl
      exact noLoss [] e rest rfl
    · rintro before e after rfl
      exact noLoss (a :: before) e after rfl
  · rintro ⟨first,later⟩ before e after split
    cases before with
    | nil =>
      obtain ⟨rfl,rfl⟩ := List.cons.inj split
      exact first e rfl
    | cons b before =>
      obtain ⟨rfl,rfl⟩ := List.cons.inj split
      exact later before e after rfl

namespace HistoryRequest
variable {β : Type}

theorem yields_sublist (elements : List (Except PyError (Option β))) :
    (yields (skipping historyHandles) elements).1.Sublist (elements.filterMap recordOf) := by
  induction elements with
  | nil => exact List.Sublist.slnil
  | cons a rest ih =>
    rw [yields_cons]
    cases a with
    | ok result =>
      cases result with
      | none => exact ih
      | some r => exact ih.cons_cons r
    | error e =>
      by_cases handled : e ∈ historyHandles
      · simpa [skipping,handled,List.filterMap_cons,recordOf] using ih
      · simp [skipping,handled]

/-- A page yields all of its well-formed records exactly when none is lost. -/
theorem yields_eq_iff (elements : List (Except PyError (Option β))) :
    (yields (skipping historyHandles) elements).1 = elements.filterMap recordOf ↔ NoLoss elements := by
  induction elements with
  | nil =>
    refine iff_of_true rfl ?_
    intro before e after impossible
    simp at impossible
  | cons a rest ih =>
    rw [yields_cons,noLoss_cons]
    cases a with
    | ok result =>
      cases result with
      | none => simpa [skipping,List.filterMap_cons,recordOf] using ih
      | some r => simpa [skipping,List.filterMap_cons,recordOf] using ih
    | error e =>
      by_cases handled : e ∈ historyHandles
      · simpa [skipping,handled,List.filterMap_cons,recordOf] using ih
      · have lost : rest.filterMap recordOf = [] ↔ ∀ r, .ok (some r) ∉ rest := by
          rw [List.filterMap_eq_nil_iff]
          constructor
          · intro none r member
            simpa [recordOf] using none _ member
          · intro none b member
            cases b with
            | error e => rfl
            | ok result =>
              cases result with
              | none => rfl
              | some r => exact absurd member (none r)
        have noLoss : (∀ r, .ok (some r) ∉ rest) → NoLoss rest := by
          rintro none before e after rfl - r member
          exact none r (List.mem_append_right _ (List.mem_cons_of_mem _ member))
        simp only [skipping,handled,if_false,List.filterMap_cons,recordOf]
        rw [eq_comm,lost]
        constructor
        · intro none
          exact ⟨fun _ _ _ => none,noLoss none⟩
        · exact fun both => both.1 e rfl handled

end HistoryRequest

namespace Harvest
variable {β : Type}

theorem yielded_sublist (h : Harvest β) : h.yielded.Sublist h.wellFormed :=
  List.Sublist.flatMap_right h.requests (fun q _ => HistoryRequest.yields_sublist q.elements)

/-- A run yields all that is well formed exactly when no page loses any of it. -/
theorem yielded_eq_iff (h : Harvest β) : h.yielded = h.wellFormed ↔ ∀ q ∈ h.requests, NoLoss q.elements := by
  obtain ⟨requests,ending⟩ := h
  unfold yielded wellFormed
  dsimp only
  induction requests with
  | nil => exact iff_of_true rfl (fun _ impossible => absurd impossible List.not_mem_nil)
  | cons q rest ih =>
    rw [List.flatMap_cons,List.flatMap_cons,List.forall_mem_cons,← ih,← HistoryRequest.yields_eq_iff]
    constructor
    · intro same
      -- neither part can be longer than its counterpart, so neither is shorter
      have lengths := congrArg List.length same
      rw [List.length_append,List.length_append] at lengths
      have first := (HistoryRequest.yields_sublist q.elements).length_le
      have later := (yielded_sublist ⟨rest,ending⟩).length_le
      unfold HistoryRequest.yielded HistoryRequest.wellFormed at lengths
      unfold yielded wellFormed HistoryRequest.yielded HistoryRequest.wellFormed at later
      dsimp only at later
      have whole : (yields (skipping historyHandles) q.elements).1 = q.elements.filterMap recordOf :=
        (HistoryRequest.yields_sublist q.elements).eq_of_length (by omega)
      refine ⟨whole,?_⟩
      refine @List.append_cancel_left _ q.wellFormed _ _ ?_
      rw [← same]
      exact congrArg (· ++ rest.flatMap HistoryRequest.yielded) whole.symm
    · rintro ⟨whole,others⟩
      rw [others]
      exact congrArg (· ++ rest.flatMap HistoryRequest.wellFormed) whole

end Harvest

/-! ### The collectors -/

/-- The list under a key of an object. -/
def listAt (key : String) : Json → Option (List Json)
  | .obj members =>
    match Dict.lookup key members with
    | some (.arr entries) => some entries
    | _ => none
  | _ => none

/-- The request for the list of symbols, which is made where none is known. -/
def listRequest {β κ : Type} (known : List κ) (response : Option Json) : List (HistoryRequest β) :=
  if known.isEmpty then [⟨none,response.map fun _ => [],(1,0),(1,0),true⟩] else []

theorem yielded_of_elements_nil {β : Type} {q : HistoryRequest β} (empty : q.elements = []) : q.yielded = [] := by
  rw [HistoryRequest.yielded,empty]
  rfl
theorem listRequest_yielded {β κ : Type} (known : List κ) (response : Option Json) :
    (listRequest known response : List (HistoryRequest β)).flatMap HistoryRequest.yielded = [] := by
  unfold listRequest
  split
  · rw [List.flatMap_singleton]
    refine yielded_of_elements_nil ?_
    cases response with
    | none => rfl
    | some raw => rfl
  · rfl

namespace AsterCollector

def historyElements (py : Numerals) (symbol : String) (interval : ℤ) (raw : Json) :
    List (Except PyError (Option NormalizedFundingData)) :=
  if raw.truthy then (raw.iter.toOption.getD []).map (historyRecord py symbol interval) else []
/-- The last time up to which a response lists the records: a page that is not full has all that
    there are up to the end of the range, and what is no list has none. -/
def reached (py : Numerals) (chunkStart rangeEnd : ℤ) : Option Json → ℤ
  | some (.arr records) =>
    if records.length < pageSize then rangeEnd
    else (do (← (Json.arr records).last).time py "fundingTime" : Except PyError ℤ).toOption.getD (chunkStart - 1)
  | _ => chunkStart - 1

def historyRequest (py : Numerals) (symbol : String) (interval rangeEnd chunkStart : ℤ) (response : Option Json) :
    HistoryRequest NormalizedFundingData where
  symbol := some (.str symbol)
  response := response.map (historyElements py symbol interval)
  covered := (chunkStart,reached py chunkStart rangeEnd response)
  rest := (reached py chunkStart rangeEnd response + 1,rangeEnd)
  followed := (historyPage py symbol interval chunkStart response).2.isSome

theorem historyRequest_yielded (py : Numerals) (symbol : String) (interval rangeEnd chunkStart : ℤ) (response : Option Json) :
    (historyRequest py symbol interval rangeEnd chunkStart response).yielded =
      (historyPage py symbol interval chunkStart response).1 := by
  cases response with
  | none => rfl
  | some raw =>
    show (yields (skipping historyHandles) (historyElements py symbol interval raw)).1 = _
    unfold historyElements historyPage
    dsimp only
    cases raw.truthy with
    | false => rfl
    | true =>
      cases raw.iter with
      | error e => rfl
      | ok records =>
        simp only [if_true,Except.toOption,Option.getD_some,Bool.not_true,Bool.false_eq_true,if_false]
        rw [← yields_map]
        unfold historyHandles
        generalize yields (fun rec => skipping [.typeError,.valueError] (historyRecord py symbol interval rec)) records = page
        cases page with
        | mk yielded raised =>
          cases raised with
          | none => rfl
          | some e => rfl

/-- The requests for one symbol, and whether its paging has been left. -/
def symbolRequests (py : Numerals) (symbol : String) (interval : ℤ) (server : ℕ → ℤ → ℤ → Option Json)
    (startMs endMs nowMs : ℤ) (requests : ℕ) : List (HistoryRequest NormalizedFundingData) × Bool :=
  let run := asked (fun chunkStart => chunkStart < min endMs nowMs)
    (fun i chunkStart => historyPage py symbol interval chunkStart (server i chunkStart (min endMs nowMs))) requests 0 startMs
  (run.1.map (fun a => historyRequest py symbol interval (min endMs nowMs) a.2 (server a.1 a.2 (min endMs nowMs))),run.2)

theorem symbolRequests_yielded (py : Numerals) (symbol : String) (interval : ℤ) (server : ℕ → ℤ → ℤ → Option Json)
    (startMs endMs nowMs : ℤ) (requests : ℕ) :
    (symbolRequests py symbol interval server startMs endMs nowMs requests).1.flatMap HistoryRequest.yielded =
      symbolHistory py symbol interval server startMs endMs nowMs requests := by
  rw [symbolHistory,paged_eq_asked,symbolRequests,List.flatMap_map]
  simp only [historyRequest_yielded]

/-- `_fetch_history_range`, request by request. -/
def harvest (py : Numerals) (c : AsterCollector) (info : Option Json) (server : String → ℕ → ℤ → ℤ → Option Json)
    (startMs endMs nowMs : ℤ) (requests : ℕ) : Harvest NormalizedFundingData :=
  let loaded := if c.activeSymbols = [] then c.loadExchangeInfo info else c
  let symbols := Harvest.each (fun key => do
    let symbol ← key.asStr
    return symbolRequests py symbol (c.interval key) (server symbol) startMs endMs nowMs requests) loaded.activeSymbols
  ⟨listRequest c.activeSymbols info ++ symbols.requests,symbols.ending⟩

/-- A run that has ended yields what `fetchHistoryRange` does. -/
theorem fetchHistoryRange_eq_harvest (py : Numerals) (c : AsterCollector) (info : Option Json)
    (server : String → ℕ → ℤ → ℤ → Option Json) (startMs endMs nowMs : ℤ) (requests : ℕ)
    (ended : (c.harvest py info server startMs endMs nowMs requests).ending ≠ .running) :
    c.fetchHistoryRange py info server startMs endMs nowMs requests =
      ((c.harvest py info server startMs endMs nowMs requests).yielded,
        (c.harvest py info server startMs endMs nowMs requests).ending.exception) := by
  unfold fetchHistoryRange harvest Harvest.yielded
  dsimp only
  rw [List.flatMap_append,listRequest_yielded,List.nil_append]
  refine Harvest.each_yielded ?_ _ [] ended
  intro acc key
  cases key with
  | str symbol =>
    simp only [Scalar.asStr,bind,Except.bind,pure,Except.pure,Except.map,symbolRequests_yielded]
  | null => rfl
  | num q => rfl

end AsterCollector

namespace ExtendedCollector

/-- `response.get("data", [])`. -/
def pageData (response : Json) : Json := (response.get "data" (.arr [])).toOption.getD .null
def historyElements (py : Numerals) (symbol : String) (response : Json) : List (Except PyError (Option NormalizedFundingData)) :=
  if response.truthy && (pageData response).truthy then
    ((pageData response).iter.toOption.getD []).map (historyRecord py symbol)
  else []
/-- The first time from which on a response lists the records: a page that is not full has all
    that there are from the start of the range on, and what is no list has none. A last record
    without a time says nothing. -/
def reached (py : Numerals) (startMs chunkEnd : ℤ) (response : Option Json) : ℤ :=
  match response.bind (listAt "data") with
  | none => chunkEnd + 1
  | some records =>
    if records.length < pageSize then startMs
    else
      match (do (← (Json.arr records).last).time py "T" : Except PyError ℤ) with
      | .error _ => chunkEnd + 1
      | .ok ts => if ts = 0 ∧ ts ≤ startMs then chunkEnd + 1 else ts

def historyRequest (py : Numerals) (symbol : String) (startMs chunkEnd : ℤ) (response : Option Json) :
    HistoryRequest NormalizedFundingData where
  symbol := some (.str symbol)
  response := response.map (historyElements py symbol)
  covered := (reached py startMs chunkEnd response,chunkEnd)
  rest := (startMs,reached py startMs chunkEnd response - 1)
  followed := (historyPage py symbol startMs response).2.isSome

theorem historyRequest_yielded (py : Numerals) (symbol : String) (startMs chunkEnd : ℤ) (response : Option Json) :
    (historyRequest py symbol startMs chunkEnd response).yielded = (historyPage py symbol startMs response).1 := by
  cases response with
  | none => rfl
  | some response =>
    show (yields (skipping historyHandles) (historyElements py symbol response)).1 = _
    unfold historyElements historyPage pageData
    dsimp only
    cases response.truthy with
    | false => rfl
    | true =>
      cases response.get "data" (.arr []) with
      | error e => rfl
      | ok rawData =>
        show (yields (skipping historyHandles)
          (if true && rawData.truthy then (rawData.iter.toOption.getD []).map (historyRecord py symbol) else [])).1 = _
        cases iterated : rawData.iter with
        | error e =>
          have nothing : (if true && rawData.truthy then
              ((Except.error e : Except PyError (List Json)).toOption.getD []).map (historyRecord py symbol) else []) = [] := by
            split
            · rfl
            · rfl
          rw [nothing]
          simp only [bind,Except.bind,iterated,Bool.not_true,Bool.false_eq_true,if_false]
          rfl
        | ok records =>
          simp only [bind,Except.bind,pure,Except.pure,iterated,Bool.not_true,Bool.false_eq_true,if_false]
          cases rawData.truthy with
          | false => rfl
          | true =>
            simp only [Bool.and_self,if_true,Except.toOption,Option.getD_some,Bool.not_true,Bool.false_eq_true,if_false]
            rw [← yields_map]
            unfold historyHandles
            generalize yields (fun rec => skipping [.typeError,.valueError] (historyRecord py symbol rec)) records = page
            cases page with
            | mk yielded raised =>
              cases raised with
              | none => rfl
              | some e => rfl

/-- The requests for one symbol, and whether its paging has been left. -/
def symbolRequests (py : Numerals) (symbol : String) (server : ℕ → ℤ → ℤ → Option Json) (startMs endMs nowMs : ℤ)
    (requests : ℕ) : List (HistoryRequest NormalizedFundingData) × Bool :=
  let run := asked (fun chunkEnd => chunkEnd > startMs)
    (fun i chunkEnd => historyPage py symbol startMs (server i startMs chunkEnd)) requests 0 (min endMs nowMs)
  (run.1.map (fun a => historyRequest py symbol startMs a.2 (server a.1 startMs a.2)),run.2)

theorem symbolRequests_yielded (py : Numerals) (symbol : String) (server : ℕ → ℤ → ℤ → Option Json)
    (startMs endMs nowMs : ℤ) (requests : ℕ) :
    (symbolRequests py symbol server startMs endMs nowMs requests).1.flatMap HistoryRequest.yielded =
      symbolHistory py symbol server startMs endMs nowMs requests := by
  rw [symbolHistory,paged_eq_asked,symbolRequests,List.flatMap_map]
  simp only [historyRequest_yielded]

/-- `_fetch_history_range`, request by request. -/
def harvest (py : Numerals) (c : ExtendedCollector) (info : Option Json) (server : String → ℕ → ℤ → ℤ → Option Json)
    (startMs endMs nowMs : ℤ) (requests : ℕ) : Harvest NormalizedFundingData :=
  let loaded := if c.activeSymbols = [] then c.loadExchangeInfo info else c
  let symbols := Harvest.each (fun key => do
    let symbol ← key.asStr
    return symbolRequests py symbol (server symbol) startMs endMs nowMs requests) loaded.activeSymbols
  ⟨listRequest c.activeSymbols info ++ symbols.requests,symbols.ending⟩

/-- A run that has ended yields what `fetchHistoryRange` does. -/
theorem fetchHistoryRange_eq_harvest (py : Numerals) (c : ExtendedCollector) (info : Option Json)
    (server : String → ℕ → ℤ → ℤ → Option Json) (startMs endMs nowMs : ℤ) (requests : ℕ)
    (ended : (c.harvest py info server startMs endMs nowMs requests).ending ≠ .running) :
    c.fetchHistoryRange py info server startMs endMs nowMs requests =
      ((c.harvest py info server startMs endMs nowMs requests).yielded,
        (c.harvest py info server startMs endMs nowMs requests).ending.exception) := by
  unfold fetchHistoryRange harvest Harvest.yielded
  dsimp only
  rw [List.flatMap_append,listRequest_yielded,List.nil_append]
  refine Harvest.each_yielded ?_ _ [] ended
  intro acc key
  cases key with
  | str symbol =>
    simp only [Scalar.asStr,bind,Except.bind,pure,Except.pure,Except.map,symbolRequests_yielded]
  | null => rfl
  | num q => rfl

end ExtendedCollector

namespace HyperliquidCollector

def historyElements (py : Numerals) (name : Scalar) (raw : Json) :
    List (Except PyError (Option (NormalizedFundingData Scalar))) :=
  ((raw.orElse (.arr [])).iter.toOption.getD []).map (historyRecord py name)

/-- The response is a list. -/
def isList : Option Json → Bool
  | some (.arr _) => true
  | _ => false

/-- The request for one window. The next window follows it in any case, but does not make up for
    one that is not answered with a list. -/
def historyRequest (py : Numerals) (name : Scalar) (rangeEnd chunkStart chunkEnd : ℤ) (response : Option Json) :
    HistoryRequest (NormalizedFundingData Scalar) where
  symbol := some name
  response := response.map (historyElements py name)
  covered := (chunkStart,if isList response then chunkEnd else chunkStart - 1)
  rest := ((if isList response then chunkEnd else chunkStart - 1) + 1,rangeEnd)
  followed := isList response

theorem historyRequest_yielded (py : Numerals) (name : Scalar) (rangeEnd chunkStart chunkEnd : ℤ) (response : Option Json) :
    (historyRequest py name rangeEnd chunkStart chunkEnd response).yielded = historyPage py name response := by
  cases response with
  | none => rfl
  | some raw =>
    show (yields (skipping historyHandles) (historyElements py name raw)).1 = _
    unfold historyElements historyPage
    dsimp only
    cases (raw.orElse (.arr [])).iter with
    | error e => rfl
    | ok records => exact (congrArg Prod.fst rfl).trans (yields_map (skipping historyHandles) (historyRecord py name) records).symm

/-- The requests for one asset, and whether its last window has been reached. -/
def assetRequests (py : Numerals) (name : Scalar) (server : ℕ → ℤ → ℤ → Option Json) (startMs endMs nowMs : ℤ)
    (requests : ℕ) : List (HistoryRequest (NormalizedFundingData Scalar)) × Bool :=
  let chunkEnd := fun chunkStart => min (chunkStart + chunkMs) (min endMs nowMs)
  let run := asked (fun chunkStart => chunkStart < min endMs nowMs)
    (fun i chunkStart => (historyPage py name (server i chunkStart (chunkEnd chunkStart)),some (chunkEnd chunkStart + 1)))
    requests 0 startMs
  (run.1.map (fun a => historyRequest py name (min endMs nowMs) a.2 (chunkEnd a.2) (server a.1 a.2 (chunkEnd a.2))),run.2)

theorem assetRequests_yielded (py : Numerals) (name : Scalar) (server : ℕ → ℤ → ℤ → Option Json)
    (startMs endMs nowMs : ℤ) (requests : ℕ) :
    (assetRequests py name server startMs endMs nowMs requests).1.flatMap HistoryRequest.yielded =
      assetHistory py name server startMs endMs nowMs requests := by
  rw [assetHistory,paged_eq_asked,assetRequests,List.flatMap_map]
  simp only [historyRequest_yielded]

/-- `_fetch_history_range`, request by request. -/
def harvest (py : Numerals) (c : HyperliquidCollector) (warmUp : Option Json) (server : Scalar → ℕ → ℤ → ℤ → Option Json)
    (startMs endMs nowMs : ℤ) (requests : ℕ) : Harvest (NormalizedFundingData Scalar) :=
  let assets := Harvest.each (fun name => .ok (assetRequests py name (server name) startMs endMs nowMs requests))
    (((c.warmed py nowMs warmUp).map fun warm => warm.assetMeta.keys).getD [])
  ⟨listRequest c.assetMeta.entries warmUp ++ assets.requests,assets.ending⟩

/-- A run that has ended yields what `fetchHistoryRange` does. -/
theorem fetchHistoryRange_eq_harvest (py : Numerals) (c : HyperliquidCollector) (warmUp : Option Json)
    (server : Scalar → ℕ → ℤ → ℤ → Option Json) (startMs endMs nowMs : ℤ) (requests : ℕ)
    (ended : (c.harvest py warmUp server startMs endMs nowMs requests).ending ≠ .running) :
    c.fetchHistoryRange py warmUp server startMs endMs nowMs requests =
      (c.harvest py warmUp server startMs endMs nowMs requests).yielded := by
  have assets := Harvest.each_flatMap (fun name => assetRequests py name (server name) startMs endMs nowMs requests) _ ended
  unfold Harvest.yielded harvest
  dsimp only
  rw [List.flatMap_append,listRequest_yielded,List.nil_append]
  unfold Harvest.yielded at assets
  rw [assets,fetchHistoryRange]
  cases c.warmed py nowMs warmUp with
  | none => rfl
  | some warm => simp only [assetRequests_yielded,Option.map_some,Option.getD_some]

end HyperliquidCollector

end FundingRadar
