import Mathlib.Data.Set.Card
import Mathlib.Algebra.Order.Ring.Rat
import FundingRadar.ExpiringStore
import FundingRadar.FundingData
import FundingRadar.Sorting

/-!
`DataNormalizer`: the latest snapshot of every exchange and token, held in two
dictionaries. One is keyed by the pair; the other holds, for every token, a view
keyed by the exchange, and all calculators read only the views. `Coherent` states
how the two belong together; every operation keeps it, and a coherent normalizer is
an `ExpiringStore` of records whose views are that store read by token.
-/
namespace FundingRadar
open ExpiringStore (Event Store Stale LastReceived)

/-- `DEFAULT_STALE_AFTER`, in seconds. -/
def defaultStaleAfter : ℚ := 120

/-- The latest record of one exchange and token, with the time it was received. -/
structure ExchangeSnapshot where
  data : NormalizedFundingData
  receivedAt : ℚ
deriving DecidableEq

/-- `is_stale`, asked at `now`. -/
def ExchangeSnapshot.isStale (s : ExchangeSnapshot) (staleAfter now : ℚ) : Bool :=
  decide (now - s.receivedAt > staleAfter)

/-- The snapshots of one token, by exchange. -/
structure TokenView where
  token : String
  snapshots : Dict String ExchangeSnapshot
deriving DecidableEq

namespace TokenView

/-- `live_snapshots`, by funding APR, highest first. -/
def liveSnapshots (tv : TokenView) (staleAfter now : ℚ) : List ExchangeSnapshot :=
  sortedByDesc (fun s => s.data.fundingApr) (tv.snapshots.values.filter (fun s => !s.isStale staleAfter now))
/-- `all_snapshots`, by funding APR, highest first. -/
def allSnapshots (tv : TokenView) : List ExchangeSnapshot :=
  sortedByDesc (fun s => s.data.fundingApr) tv.snapshots.values
/-- `spread_apr`: the first live APR less the last one. -/
def spreadApr (tv : TokenView) (staleAfter now : ℚ) : ℚ :=
  match tv.liveSnapshots staleAfter now with
  | [] => 0
  | [_] => 0
  | first :: second :: rest => first.data.fundingApr - ((second :: rest).getLast (List.cons_ne_nil _ _)).data.fundingApr
/-- `exchange_count`. -/
def exchangeCount (tv : TokenView) (staleAfter now : ℚ) : ℕ := (tv.liveSnapshots staleAfter now).length

end TokenView

/-- The state of the normalizer. -/
structure DataNormalizer where
  staleAfter : ℚ
  snapshots : Dict (String × String) ExchangeSnapshot
  tokenViews : Dict String TokenView
  updateCount : ℕ
  lastUpdateAt : ℚ

namespace DataNormalizer

/-- `DataNormalizer(stale_after_seconds)`. -/
def init (staleAfter : ℚ) : DataNormalizer := ⟨staleAfter,.empty,.empty,0,0⟩
/-- `update`, at `now`; it always returns `True`. -/
def update (n : DataNormalizer) (now : ℚ) (data : NormalizedFundingData) : DataNormalizer :=
  let snapshot : ExchangeSnapshot := ⟨data,now⟩
  let tv := (n.tokenViews.get? data.token).getD ⟨data.token,.empty⟩
  { n with
    snapshots := n.snapshots.insert (data.exchange,data.token) snapshot
    tokenViews := n.tokenViews.insert data.token { tv with snapshots := tv.snapshots.insert data.exchange snapshot }
    updateCount := n.updateCount + 1
    lastUpdateAt := now }
/-- `update_batch`, with the count that it returns: every item comes with the time at
    which its turn comes, and `update` always reports it stored. -/
def updateBatch (n : DataNormalizer) (items : List (ℚ × NormalizedFundingData)) : DataNormalizer × ℕ :=
  items.foldl (fun batch item => (batch.1.update item.1 item.2,batch.2 + 1)) (n,0)

/-- `get_snapshot`. -/
def getSnapshot (n : DataNormalizer) (exchange token : String) : Option ExchangeSnapshot :=
  n.snapshots.get? (exchange,token)
/-- `get_token_view`. -/
def getTokenView (n : DataNormalizer) (token : String) : Option TokenView := n.tokenViews.get? token
/-- `arbitrage_candidates`: the views with two live exchanges, widest spread first. -/
def arbitrageCandidates (n : DataNormalizer) (now : ℚ) : List TokenView :=
  sortedByDesc (fun tv => tv.spreadApr n.staleAfter now)
    (n.tokenViews.values.filter (fun tv => tv.exchangeCount n.staleAfter now ≥ 2))
/-- `get_all_latest`, latest timestamp first. -/
def getAllLatest (n : DataNormalizer) : List NormalizedFundingData :=
  sortedByDesc (fun d => d.timestamp) (n.snapshots.values.map (fun s => s.data))

/-- The body of the loop of `purge_stale`, for one stale key. -/
def purgeKey (n : DataNormalizer) (key : String × String) : DataNormalizer :=
  { n with
    snapshots := n.snapshots.erase key
    tokenViews :=
      match n.tokenViews.get? key.2 with
      | none => n.tokenViews
      | some tv =>
        let left := tv.snapshots.erase key.1
        if left.entries = [] then n.tokenViews.erase key.2
        else n.tokenViews.insert key.2 { tv with snapshots := left } }
/-- The keys that `purge_stale` finds stale at `now`. -/
def staleKeys (n : DataNormalizer) (now : ℚ) : List (String × String) :=
  (n.snapshots.filter (fun e => e.2.isStale n.staleAfter now)).keys
/-- `purge_stale` at `now`, with the count that it returns. -/
def purgeStale (n : DataNormalizer) (now : ℚ) : DataNormalizer × ℕ :=
  ((n.staleKeys now).foldl purgeKey n,(n.staleKeys now).length)

/-! ### The two dictionaries -/

/-- The snapshot that the view of a token has for an exchange. -/
def viewed (n : DataNormalizer) (exchange token : String) : Option ExchangeSnapshot :=
  (n.getTokenView token).bind (fun tv => tv.snapshots.get? exchange)

/-- How the two dictionaries belong together. -/
structure Coherent (n : DataNormalizer) : Prop where
  views : ∀ exchange token, n.viewed exchange token = n.getSnapshot exchange token
  inhabited : ∀ token tv, n.getTokenView token = some tv → tv.snapshots.entries ≠ []
  named : ∀ token tv, n.getTokenView token = some tv → tv.token = token
  labelled : ∀ exchange token s, n.getSnapshot exchange token = some s →
    s.data.exchange = exchange ∧ s.data.token = token

theorem getSnapshot_update (n : DataNormalizer) (now : ℚ) (data : NormalizedFundingData) (exchange token : String) :
    (n.update now data).getSnapshot exchange token =
      if exchange = data.exchange ∧ token = data.token then some ⟨data,now⟩ else n.getSnapshot exchange token := by
  simp only [getSnapshot,update,Dict.get?_insert,Prod.mk.injEq]

theorem getTokenView_update (n : DataNormalizer) (now : ℚ) (data : NormalizedFundingData) (token : String) :
    (n.update now data).getTokenView token =
      if token = data.token then
        let tv := (n.getTokenView data.token).getD ⟨data.token,.empty⟩
        some { tv with snapshots := tv.snapshots.insert data.exchange ⟨data,now⟩ }
      else n.getTokenView token := by
  simp only [getTokenView,update,Dict.get?_insert]

theorem viewed_update (n : DataNormalizer) (now : ℚ) (data : NormalizedFundingData) (exchange token : String) :
    (n.update now data).viewed exchange token =
      if exchange = data.exchange ∧ token = data.token then some ⟨data,now⟩ else n.viewed exchange token := by
  rw [viewed,getTokenView_update]
  by_cases same : token = data.token
  · subst same
    simp only [if_true,Option.bind_some,Dict.get?_insert,and_true,viewed]
    cases n.getTokenView data.token <;> simp
  · simp [same,viewed]

theorem Coherent.init (staleAfter : ℚ) : (DataNormalizer.init staleAfter).Coherent where
  views _ _ := rfl
  inhabited _ _ found := by cases found
  named _ _ found := by cases found
  labelled _ _ _ found := by cases found

theorem Coherent.update {n : DataNormalizer} (coherent : n.Coherent) (now : ℚ) (data : NormalizedFundingData) :
    (n.update now data).Coherent where
  views exchange token := by rw [viewed_update,getSnapshot_update,coherent.views]
  inhabited token tv found := by
    rw [getTokenView_update] at found
    split at found
    · cases found
      rw [ne_eq,Dict.entries_eq_nil_iff]
      intro none
      have present := none data.exchange
      simp at present
    · exact coherent.inhabited token tv found
  named token tv found := by
    rw [getTokenView_update] at found
    split at found
    · next same =>
      cases found
      subst same
      cases held : n.getTokenView data.token with
      | none => rfl
      | some old => exact coherent.named data.token old held
    · exact coherent.named token tv found
  labelled exchange token s found := by
    rw [getSnapshot_update] at found
    split at found
    · next same => cases found; exact ⟨same.1.symm,same.2.symm⟩
    · exact coherent.labelled exchange token s found

theorem getSnapshot_purgeKey (n : DataNormalizer) (key : String × String) (exchange token : String) :
    (n.purgeKey key).getSnapshot exchange token = if (exchange,token) = key then none else n.getSnapshot exchange token :=
  Dict.get?_erase n.snapshots key (exchange,token)

theorem viewed_purgeKey (n : DataNormalizer) (key : String × String) (exchange token : String) :
    (n.purgeKey key).viewed exchange token = if (exchange,token) = key then none else n.viewed exchange token := by
  obtain ⟨e,t⟩ := key
  simp only [viewed,getTokenView,purgeKey,Prod.mk.injEq]
  cases held : n.tokenViews.get? t with
  | none =>
    by_cases same : token = t
    · subst same; simp [held]
    · simp [same]
  | some tv =>
    by_cases same : token = t
    · subst same
      by_cases last : (tv.snapshots.erase e).entries = []
      · have gone := (Dict.entries_eq_nil_iff _).mp last exchange
        rw [Dict.get?_erase] at gone
        by_cases hit : exchange = e
        · simp [last,Dict.get?_erase,hit]
        · simp only [hit,if_false] at gone
          simp [last,Dict.get?_erase,held,hit,gone]
      · simp [last,Dict.get?_erase,held]
    · by_cases last : (tv.snapshots.erase e).entries = []
      · simp [last,Dict.get?_erase,same]
      · simp [last,Dict.get?_insert,same]

/-- A view that `purgeKey` leaves is the old view less the exchange of the key, and
    it is not empty where the old one was not. -/
theorem getTokenView_purgeKey {n : DataNormalizer} {key : String × String} {token : String} {tv : TokenView}
    (found : (n.purgeKey key).getTokenView token = some tv) :
    ∃ old, n.getTokenView token = some old ∧ tv.token = old.token ∧
      (old.snapshots.entries ≠ [] → tv.snapshots.entries ≠ []) := by
  simp only [getTokenView,purgeKey] at found ⊢
  cases held : n.tokenViews.get? key.2 with
  | none => rw [held] at found; exact ⟨tv,found,rfl,id⟩
  | some old =>
    simp only [held] at found
    split at found
    · rw [Dict.get?_erase] at found
      split at found
      · cases found
      · exact ⟨tv,found,rfl,id⟩
    · next left =>
      rw [Dict.get?_insert] at found
      split at found
      · next same =>
        cases found
        exact ⟨old,by rw [same,held],rfl,fun _ => left⟩
      · exact ⟨tv,found,rfl,id⟩

theorem Coherent.purgeKey {n : DataNormalizer} (coherent : n.Coherent) (key : String × String) :
    (n.purgeKey key).Coherent where
  views exchange token := by rw [viewed_purgeKey,getSnapshot_purgeKey,coherent.views]
  inhabited token tv found := by
    obtain ⟨old,held,-,kept⟩ := getTokenView_purgeKey found
    exact kept (coherent.inhabited token old held)
  named token tv found := by
    obtain ⟨old,held,same,-⟩ := getTokenView_purgeKey found
    rw [same,coherent.named token old held]
  labelled exchange token s found := by
    rw [getSnapshot_purgeKey] at found
    split at found
    · cases found
    · exact coherent.labelled exchange token s found

theorem Coherent.purgeKeys {n : DataNormalizer} (coherent : n.Coherent) (keys : List (String × String)) :
    (keys.foldl DataNormalizer.purgeKey n).Coherent := by
  induction keys generalizing n with
  | nil => exact coherent
  | cons key rest ih => exact ih (coherent.purgeKey key)

theorem getSnapshot_purgeKeys (n : DataNormalizer) (keys : List (String × String)) (exchange token : String) :
    (keys.foldl purgeKey n).getSnapshot exchange token =
      if (exchange,token) ∈ keys then none else n.getSnapshot exchange token := by
  induction keys generalizing n with
  | nil => simp
  | cons key rest ih =>
    rw [List.foldl_cons,ih,getSnapshot_purgeKey]
    by_cases hit : (exchange,token) = key
    · simp [hit]
    · simp [hit]

theorem mem_staleKeys (n : DataNormalizer) (now : ℚ) (exchange token : String) :
    (exchange,token) ∈ n.staleKeys now ↔
      ∃ s, n.getSnapshot exchange token = some s ∧ s.isStale n.staleAfter now := by
  rw [staleKeys,Dict.mem_keys_iff]
  simp only [Dict.get?_filter,Option.filter_eq_some_iff,getSnapshot]

/-- A purge drops what is stale and keeps the rest as it is. -/
theorem getSnapshot_purgeStale (n : DataNormalizer) (now : ℚ) (exchange token : String) :
    (n.purgeStale now).1.getSnapshot exchange token =
      (n.getSnapshot exchange token).filter (fun s => !s.isStale n.staleAfter now) := by
  rw [purgeStale,getSnapshot_purgeKeys]
  simp only [mem_staleKeys]
  cases n.getSnapshot exchange token with
  | none => simp
  | some s => cases stale : s.isStale n.staleAfter now <;> simp [stale,Option.filter]

/-- The count of a purge is the number of stale pairs. -/
theorem purgeStale_count (n : DataNormalizer) (now : ℚ) :
    (n.purgeStale now).2 =
      Set.ncard { key : String × String | ∃ s, n.getSnapshot key.1 key.2 = some s ∧ s.isStale n.staleAfter now } := by
  have distinct : (n.staleKeys now).Nodup := Dict.nodupKeys _
  have same : { key : String × String | ∃ s, n.getSnapshot key.1 key.2 = some s ∧ s.isStale n.staleAfter now } =
      ((n.staleKeys now).toFinset : Set (String × String)) := by
    ext ⟨exchange,token⟩
    simp only [Set.mem_ofPred_eq,List.coe_toFinset,mem_staleKeys]
  rw [same,Set.ncard_coe_finset,List.toFinset_card_of_nodup distinct,purgeStale]

/-! ### Runs -/

/-- One call of an operation that changes the normalizer, with the clock it reads. -/
inductive Op
  | update (now : ℚ) (data : NormalizedFundingData)
  | updateBatch (items : List (ℚ × NormalizedFundingData))
  | purgeStale (now : ℚ)

/-- The normalizer after one call. -/
def step (n : DataNormalizer) : Op → DataNormalizer
  | .update now data => n.update now data
  | .updateBatch items => (n.updateBatch items).1
  | .purgeStale now => (n.purgeStale now).1
/-- The normalizer after a sequence of calls. -/
def run (staleAfter : ℚ) (ops : List Op) : DataNormalizer := ops.foldl step (init staleAfter)

/-- The record that a call files, or the purge it makes, as events of a store. -/
def Op.events : Op → List (Event (String × String) NormalizedFundingData ℚ)
  | .update now data => [.receive now (data.exchange,data.token) data]
  | .updateBatch items => items.map (fun item => .receive item.1 (item.2.exchange,item.2.token) item.2)
  | .purgeStale now => [.expire now]

/-- What the normalizer holds, as a store. -/
def held (n : DataNormalizer) : Store (String × String) NormalizedFundingData ℚ :=
  fun key => (n.getSnapshot key.1 key.2).map (fun s => (s.data,s.receivedAt))

theorem staleAfter_purgeKeys (n : DataNormalizer) (keys : List (String × String)) :
    (keys.foldl purgeKey n).staleAfter = n.staleAfter := by
  induction keys generalizing n with
  | nil => rfl
  | cons key rest ih => exact ih (n.purgeKey key)

theorem held_update (n : DataNormalizer) (now : ℚ) (data : NormalizedFundingData) :
    (n.update now data).held = ExpiringStore.apply n.staleAfter n.held (.receive now (data.exchange,data.token) data) := by
  funext ⟨exchange,token⟩
  simp only [held,getSnapshot_update,ExpiringStore.apply,Function.update_apply,Prod.mk.injEq]
  split <;> rfl

/-- What every call keeps, and how it moves the store. -/
theorem step_refines {n : DataNormalizer} (coherent : n.Coherent) (op : Op) :
    (n.step op).Coherent ∧ (n.step op).staleAfter = n.staleAfter ∧
      (n.step op).held = op.events.foldl (ExpiringStore.apply n.staleAfter) n.held := by
  cases op with
  | update now data => exact ⟨coherent.update now data,rfl,held_update n now data⟩
  | updateBatch items =>
    simp only [step,updateBatch,Op.events]
    generalize 0 = count
    induction items generalizing n count with
    | nil => exact ⟨coherent,rfl,rfl⟩
    | cons item rest ih =>
      obtain ⟨kept,same,moved⟩ := ih (coherent.update item.1 item.2) (count + 1)
      refine ⟨kept,same,?_⟩
      rw [List.foldl_cons,moved,held_update]
      rfl
  | purgeStale now =>
    refine ⟨coherent.purgeKeys _,staleAfter_purgeKeys n _,?_⟩
    funext key
    obtain ⟨exchange,token⟩ := key
    simp only [step,Op.events,List.foldl_cons,List.foldl_nil,ExpiringStore.apply,held,getSnapshot_purgeStale]
    cases n.getSnapshot exchange token with
    | none => rfl
    | some s =>
      by_cases stale : now - s.receivedAt > n.staleAfter
      · simp [ExchangeSnapshot.isStale,Stale,stale,Option.filter]
      · simp [ExchangeSnapshot.isStale,Stale,stale,Option.filter]

/-- Every reachable normalizer is coherent and holds what the store of all events
    so far holds. -/
theorem run_refines (staleAfter : ℚ) (ops : List Op) :
    (run staleAfter ops).Coherent ∧ (run staleAfter ops).staleAfter = staleAfter ∧
      (run staleAfter ops).held = ExpiringStore.run staleAfter (ops.flatMap Op.events) := by
  induction ops using List.reverseRecOn with
  | nil => exact ⟨.init staleAfter,rfl,rfl⟩
  | append_singleton ops op ih =>
    obtain ⟨coherent,same,refines⟩ := ih
    obtain ⟨kept,limit,moved⟩ := step_refines coherent op
    rw [run,List.foldl_append]
    refine ⟨kept,limit.trans same,moved.trans ?_⟩
    rw [same,refines,List.flatMap_append,ExpiringStore.run,ExpiringStore.run,List.foldl_append]
    simp

theorem run_coherent (staleAfter : ℚ) (ops : List Op) : (run staleAfter ops).Coherent := (run_refines staleAfter ops).1

/-- A snapshot is held exactly when its record is the last one received for its
    pair and no later purge found it stale. -/
theorem getSnapshot_run_iff (staleAfter : ℚ) (ops : List Op) (exchange token : String) (s : ExchangeSnapshot) :
    (run staleAfter ops).getSnapshot exchange token = some s ↔
      LastReceived staleAfter (ops.flatMap Op.events) (exchange,token) s.data s.receivedAt := by
  rw [← ExpiringStore.run_eq_some_iff,← (run_refines staleAfter ops).2.2,held]
  constructor
  · intro found; simp [found]
  · intro found
    obtain ⟨other,same,equal⟩ := Option.map_eq_some_iff.mp found
    cases other; cases s; cases equal; exact same

/-- A view exists for a token exactly when some snapshot does. -/
theorem Coherent.view_iff {n : DataNormalizer} (coherent : n.Coherent) (token : String) :
    (∃ tv, n.getTokenView token = some tv) ↔ ∃ exchange s, n.getSnapshot exchange token = some s := by
  constructor
  · rintro ⟨tv,found⟩
    obtain ⟨⟨exchange,s⟩,member⟩ := List.exists_mem_of_ne_nil _ (coherent.inhabited token tv found)
    refine ⟨exchange,s,?_⟩
    rw [← coherent.views,viewed,found]
    exact (Dict.mem_entries_iff _ _ _).mp member
  · rintro ⟨exchange,s,found⟩
    rw [← coherent.views,viewed] at found
    obtain ⟨tv,view,-⟩ := Option.bind_eq_some_iff.mp found
    exact ⟨tv,view⟩

/-- `get_all_latest` lists one record for every pair that it names. -/
theorem Coherent.latest_nodup {n : DataNormalizer} (coherent : n.Coherent) :
    (n.getAllLatest.map fun d => (d.exchange,d.token)).Nodup := by
  have labels : n.snapshots.values.map (fun s => (s.data.exchange,s.data.token)) = n.snapshots.keys := by
    refine Dict.values_map_eq_keys _ ?_
    rintro ⟨exchange,token⟩ s found
    obtain ⟨sameExchange,sameToken⟩ := coherent.labelled exchange token s found
    rw [sameExchange,sameToken]
  have permuted := (sortedByDesc_perm (fun d => d.timestamp) (n.snapshots.values.map fun s => s.data)).map
    fun d => (d.exchange,d.token)
  rw [getAllLatest,permuted.nodup_iff,List.map_map]
  exact labels ▸ n.snapshots.nodupKeys

/-- The normalizer refines a store that keeps the last record received for every
    pair: both of its dictionaries hold exactly what that store holds, under the
    labels that the records carry, and a purge removes the stale pairs and counts
    them. -/
theorem run_refines_last_received (staleAfter : ℚ) (ops : List Op) :
    (∀ exchange token s, (run staleAfter ops).getSnapshot exchange token = some s ↔
      LastReceived staleAfter (ops.flatMap Op.events) (exchange,token) s.data s.receivedAt) ∧
    (∀ exchange token, ((run staleAfter ops).getTokenView token).bind (fun tv => tv.snapshots.get? exchange) =
      (run staleAfter ops).getSnapshot exchange token) ∧
    (∀ token, (∃ tv, (run staleAfter ops).getTokenView token = some tv) ↔
      ∃ exchange s, (run staleAfter ops).getSnapshot exchange token = some s) ∧
    (∀ token tv exchange s, (run staleAfter ops).getTokenView token = some tv → tv.snapshots.get? exchange = some s →
      s.data.token = token ∧ s.data.exchange = exchange) ∧
    (∀ now, (∀ exchange token, ((run staleAfter ops).purgeStale now).1.getSnapshot exchange token =
        ((run staleAfter ops).getSnapshot exchange token).filter (fun s => !s.isStale staleAfter now)) ∧
      ((run staleAfter ops).purgeStale now).2 = Set.ncard { key : String × String |
        ∃ s, (run staleAfter ops).getSnapshot key.1 key.2 = some s ∧ s.isStale staleAfter now }) := by
  have coherent := run_coherent staleAfter ops
  have limit := (run_refines staleAfter ops).2.1
  refine ⟨getSnapshot_run_iff staleAfter ops,coherent.views,coherent.view_iff,?_,?_⟩
  · intro token tv exchange s view found
    have snapshot : (run staleAfter ops).getSnapshot exchange token = some s := by
      rw [← coherent.views,viewed,view,Option.bind_some,found]
    exact (coherent.labelled exchange token s snapshot).symm
  · intro now
    have removed := getSnapshot_purgeStale (run staleAfter ops) now
    have counted := purgeStale_count (run staleAfter ops) now
    rw [limit] at removed counted
    exact ⟨removed,counted⟩

end DataNormalizer
end FundingRadar
