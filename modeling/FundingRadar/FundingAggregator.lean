import Mathlib.Order.Bounds.Basic
import FundingRadar.TokenKeys

/-!
`FundingAggregator.build_ranked`. A token is ranked if some snapshot of it is live under
the default limit; its summary comes from five passes over the live snapshots, each of
which reads the clock again, and its rows are all snapshots of the view. A ranking is
judged at instants of its reader's choice.
-/
namespace FundingRadar

namespace TokenView

/-- `live_snapshots`, where the clock is read for every snapshot. -/
def liveSnapshotsAt (tv : TokenView) (staleAfter : ℚ) (readings : String → ℚ) : List ExchangeSnapshot :=
  sortedByDesc (fun s => s.data.fundingApr)
    ((tv.snapshots.entries.filter (fun e => !e.2.isStale staleAfter (readings e.1))).map Prod.snd)
/-- `max_apr`, and `min_apr`. -/
def maxAprAt (tv : TokenView) (staleAfter : ℚ) (readings : String → ℚ) : ℚ :=
  ((tv.liveSnapshotsAt staleAfter readings).map apr).max?.getD 0
def minAprAt (tv : TokenView) (staleAfter : ℚ) (readings : String → ℚ) : ℚ :=
  ((tv.liveSnapshotsAt staleAfter readings).map apr).min?.getD 0
/-- `spread_apr`. -/
def spreadAprAt (tv : TokenView) (staleAfter : ℚ) (readings : String → ℚ) : ℚ :=
  let live := tv.liveSnapshotsAt staleAfter readings
  if live.length < 2 then 0 else (live.head?.map apr).getD 0 - (live.getLast?.map apr).getD 0
/-- `exchange_count`. -/
def exchangeCountAt (tv : TokenView) (staleAfter : ℚ) (readings : String → ℚ) : ℕ :=
  (tv.liveSnapshotsAt staleAfter readings).length

end TokenView

namespace FundingAggregator

/-- The places of `build_ranked` that read the clock for a snapshot, in their order. -/
inductive Pass
  | live
  | rowStale
  | rowAge
  | maxApr
  | minApr
  | spreadApr
  | exchangeCount
deriving DecidableEq

def Pass.order : Pass → ℕ
  | .live => 0
  | .rowStale => 1
  | .rowAge => 2
  | .maxApr => 3
  | .minApr => 4
  | .spreadApr => 5
  | .exchangeCount => 6

/-- What the clock reads for a token and exchange in every pass; it never goes back. -/
structure Clock where
  reading : String → Pass → String → ℚ
  forward : ∀ token p q exchange, p.order ≤ q.order → reading token p exchange ≤ reading token q exchange

/-- A clock that stands still during the build. -/
def Clock.still (now : ℚ) : Clock := ⟨fun _ _ _ => now,fun _ _ _ _ _ => le_refl _⟩

variable (rnd : ℕ → ℚ → ℚ)

/-- `_snap_to_row`. -/
def snapToRow (s : ExchangeSnapshot) (staleReading ageReading : ℚ) : ExchangeRateRow where
  exchange := s.data.exchange
  token := s.data.token
  fundingRate := s.data.fundingRate
  fundingRate8h := s.data.fundingRate8h
  fundingApr := s.data.fundingApr
  markPrice := s.data.markPrice
  openInterestUsd := s.data.openInterestUsd
  volume24hUsd := s.data.volume24hUsd
  priceSpreadPct := s.data.priceSpreadPct
  makerFee := s.data.makerFee
  takerFee := s.data.takerFee
  isLive := s.data.isLive
  isStale := s.isStale defaultStaleAfter staleReading
  ageSeconds := rnd 1 (ageReading - s.receivedAt)
  timestamp := s.data.timestamp

/-- The body of the loop of `build_ranked`, for one view. -/
def rankRow (clock : Clock) (tv : TokenView) : Option TokenRankRow :=
  let read := clock.reading tv.token
  if tv.liveSnapshotsAt defaultStaleAfter (read .live) = [] then none
  else some {
    token := tv.token
    maxApr := tv.maxAprAt defaultStaleAfter (read .maxApr)
    minApr := tv.minAprAt defaultStaleAfter (read .minApr)
    spreadApr := tv.spreadAprAt defaultStaleAfter (read .spreadApr)
    exchangeCount := tv.exchangeCountAt defaultStaleAfter (read .exchangeCount)
    rows := tv.allSnapshots.map fun s => snapToRow rnd s (read .rowStale s.data.exchange) (read .rowAge s.data.exchange) }

/-- `build_ranked`. -/
def buildRanked (n : DataNormalizer) (clock : Clock) : List TokenRankRow :=
  sortedByDesc (fun r => r.maxApr) (n.tokenViews.values.filterMap (rankRow rnd clock))

/-! ### What a ranking should be -/

/-- A snapshot is live under the normalizer's limit at the instant of judgement. -/
def LiveAt (n : DataNormalizer) (instant : String → String → ℚ) (exchange token : String) : Prop :=
  ∃ s, n.getSnapshot exchange token = some s ∧ s.isStale n.staleAfter (instant token exchange) = false

/-- The summary of an entry is the one of its rows, and its rows are live. -/
structure EntryCorrect (n : DataNormalizer) (instant : String → String → ℚ) (r : TokenRankRow) : Prop where
  live : ∀ row ∈ r.rows, LiveAt n instant row.exchange r.token
  count : r.exchangeCount = r.rows.length
  max : IsGreatest { x | ∃ row ∈ r.rows, row.fundingApr = x } r.maxApr
  min : IsLeast { x | ∃ row ∈ r.rows, row.fundingApr = x } r.minApr
  spread : r.spreadApr = r.maxApr - r.minApr

/-- Every entry is correct, the order is by maximum, and every token with a live
    snapshot is listed once. -/
structure RankingCorrect (n : DataNormalizer) (instant : String → String → ℚ) (ranked : List TokenRankRow) : Prop where
  entries : ∀ r ∈ ranked, EntryCorrect n instant r
  sorted : ranked.Pairwise (fun a b => b.maxApr ≤ a.maxApr)
  complete : ∀ token, (∃ exchange, LiveAt n instant exchange token) → (ranked.map TokenRankRow.token).count token = 1

/-- Some snapshot of the token is live under the default limit when the clock is first
    read for it. -/
def Shown (n : DataNormalizer) (clock : Clock) (token : String) : Prop :=
  ∃ exchange s, n.getSnapshot exchange token = some s ∧ s.isStale defaultStaleAfter (clock.reading token .live exchange) = false

/-- Of every token either all snapshots are live, under both limits, up to the last time
    that the clock is read for it, or none is. -/
structure Settled (n : DataNormalizer) (clock : Clock) (instant : String → String → ℚ) : Prop where
  all : ∀ token, Shown n clock token → ∀ exchange s, n.getSnapshot exchange token = some s →
    s.isStale n.staleAfter (instant token exchange) = false ∧
      s.isStale defaultStaleAfter (clock.reading token .exchangeCount exchange) = false
  none : ∀ token, ¬ Shown n clock token → ∀ exchange, ¬ LiveAt n instant exchange token

/-! ### Greatest and least values -/

theorem isGreatest_max? {xs : List ℚ} (nonempty : xs ≠ []) : IsGreatest { x | x ∈ xs } (xs.max?.getD 0) := by
  obtain ⟨m,found⟩ := Option.isSome_iff_exists.mp (List.isSome_max?_of_ne_nil nonempty)
  obtain ⟨member,above⟩ := List.max?_eq_some_iff.mp found
  rw [found]
  exact ⟨member,fun x inXs => above x inXs⟩
theorem isLeast_min? {xs : List ℚ} (nonempty : xs ≠ []) : IsLeast { x | x ∈ xs } (xs.min?.getD 0) := by
  obtain ⟨m,found⟩ := Option.isSome_iff_exists.mp (List.isSome_min?_of_ne_nil nonempty)
  obtain ⟨member,below⟩ := List.min?_eq_some_iff.mp found
  rw [found]
  exact ⟨member,fun x inXs => below x inXs⟩

/-- The ends of a list in descending order. -/
theorem spread_of_desc {xs : List ℚ} (nonempty : xs ≠ []) (desc : xs.Pairwise (fun a b => b ≤ a)) :
    (if xs.length < 2 then 0 else xs.head?.getD 0 - xs.getLast?.getD 0) = xs.max?.getD 0 - xs.min?.getD 0 := by
  have top := isGreatest_max? nonempty
  have bottom := isLeast_min? nonempty
  cases xs with
  | nil => exact absurd rfl nonempty
  | cons x rest =>
    have above := (List.pairwise_cons.mp desc).1
    have first : IsGreatest { y | y ∈ x :: rest } x := by
      refine ⟨List.mem_cons_self ..,?_⟩
      intro y member
      rcases List.mem_cons.mp member with rfl | later
      · exact le_refl _
      · exact above y later
    rw [top.unique first]
    by_cases single : rest = []
    · subst single
      show (0 : ℚ) = x - x
      exact (sub_self x).symm
    · have long : ¬ (x :: rest).length < 2 := by
        have positive := List.length_pos_iff.mpr single
        rw [List.length_cons]
        omega
      have last : IsLeast { y | y ∈ x :: rest } ((x :: rest).getLast (List.cons_ne_nil _ _)) := by
        refine ⟨List.getLast_mem _,?_⟩
        intro y member
        obtain ⟨init,final,split⟩ := List.eq_nil_or_concat (x :: rest) |>.resolve_left (List.cons_ne_nil _ _)
        simp only [split,List.concat_eq_append,List.getLast_append_singleton] at desc member ⊢
        rcases List.mem_append.mp member with before | same
        · exact (List.pairwise_append.mp desc).2.2 y before final (List.mem_singleton_self _)
        · exact (List.mem_singleton.mp same).ge
      rw [if_neg long,bottom.unique last,List.head?_cons,Option.getD_some,List.getLast?_eq_getLast_of_ne_nil,Option.getD_some]

/-- The labels of what a filtered list gives are among the labels of the list. -/
theorem filterMap_labels {α β γ : Type*} (f : α → Option β) (label : α → γ) (labelOf : β → γ)
    {xs : List α} (labelled : ∀ a ∈ xs, ∀ b, f a = some b → labelOf b = label a) :
    ((xs.filterMap f).map labelOf).Sublist (xs.map label) := by
  induction xs with
  | nil => exact List.Sublist.slnil
  | cons a rest ih =>
    have later := ih fun x member => labelled x (List.mem_cons_of_mem a member)
    rw [List.map_cons]
    cases given : f a with
    | none =>
      rw [List.filterMap_cons_none given]
      exact later.cons _
    | some b =>
      rw [List.filterMap_cons_some given,List.map_cons,labelled a (List.mem_cons_self ..) b given]
      exact later.cons_cons _

/-! ### The view of a token -/

variable {n : DataNormalizer} {clock : Clock} {token : String} {tv : TokenView}

theorem mem_entries_iff_getSnapshot (coherent : n.Coherent) (view : n.getTokenView token = some tv) (exchange : String)
    (s : ExchangeSnapshot) : (exchange,s) ∈ tv.snapshots.entries ↔ n.getSnapshot exchange token = some s := by
  rw [Dict.mem_entries_iff,← coherent.views,DataNormalizer.viewed,view,Option.bind_some]

/-- The view of a token is not empty, so some pass over it finds a snapshot unless all are
    stale. -/
theorem liveSnapshotsAt_eq_nil_iff (tv : TokenView) (staleAfter : ℚ) (readings : String → ℚ) :
    tv.liveSnapshotsAt staleAfter readings = [] ↔
      ∀ exchange s, (exchange,s) ∈ tv.snapshots.entries → s.isStale staleAfter (readings exchange) = true := by
  rw [TokenView.liveSnapshotsAt,← List.length_eq_zero_iff,length_sortedByDesc,List.length_map,List.length_eq_zero_iff,
    List.filter_eq_nil_iff]
  constructor
  · intro none exchange s member
    simpa using none (exchange,s) member
  · rintro stale ⟨exchange,s⟩ member
    simp [stale exchange s member]

theorem liveSnapshotsAt_of_all {staleAfter : ℚ} {readings : String → ℚ}
    (live : ∀ exchange s, (exchange,s) ∈ tv.snapshots.entries → s.isStale staleAfter (readings exchange) = false) :
    tv.liveSnapshotsAt staleAfter readings = tv.allSnapshots := by
  have all : tv.snapshots.entries.filter (fun e => !e.2.isStale staleAfter (readings e.1)) = tv.snapshots.entries := by
    rw [List.filter_eq_self]
    rintro ⟨exchange,s⟩ member
    simp [live exchange s member]
  rw [TokenView.liveSnapshotsAt,all]
  rfl

/-- The count misses exactly the snapshots that are stale when it is made. -/
theorem exchangeCountAt_eq_iff (staleAfter : ℚ) (readings : String → ℚ) :
    tv.exchangeCountAt staleAfter readings = tv.allSnapshots.length ↔
      ∀ exchange s, (exchange,s) ∈ tv.snapshots.entries → s.isStale staleAfter (readings exchange) = false := by
  rw [TokenView.exchangeCountAt,TokenView.liveSnapshotsAt,TokenView.allSnapshots,length_sortedByDesc,length_sortedByDesc,
    List.length_map,Dict.values,List.length_map]
  constructor
  · intro same exchange s member
    have kept := List.filter_eq_self.mp (List.filter_sublist.eq_of_length same) (exchange,s) member
    simpa using kept
  · intro live
    have all : tv.snapshots.entries.filter (fun e => !e.2.isStale staleAfter (readings e.1)) = tv.snapshots.entries := by
      rw [List.filter_eq_self]
      rintro ⟨exchange,s⟩ member
      simp [live exchange s member]
    rw [all]

theorem shown_iff (coherent : n.Coherent) (view : n.getTokenView token = some tv) (clock : Clock) :
    Shown n clock token ↔ tv.liveSnapshotsAt defaultStaleAfter (clock.reading token .live) ≠ [] := by
  rw [ne_eq,liveSnapshotsAt_eq_nil_iff]
  constructor
  · rintro ⟨exchange,s,held,live⟩ stale
    have impossible := stale exchange s ((mem_entries_iff_getSnapshot coherent view exchange s).mpr held)
    rw [live] at impossible
    cases impossible
  · intro some
    by_contra hidden
    refine some ?_
    intro exchange s member
    rw [← Bool.not_eq_false]
    intro live
    exact hidden ⟨exchange,s,(mem_entries_iff_getSnapshot coherent view exchange s).mp member,live⟩

/-! ### The entries of a ranking -/

variable {rnd}

theorem rankRow_eq_some (coherent : n.Coherent) (view : n.getTokenView token = some tv) (shown : Shown n clock token) :
    ∃ r, rankRow rnd clock tv = some r ∧ r.token = token ∧
      r.maxApr = tv.maxAprAt defaultStaleAfter (clock.reading token .maxApr) ∧
      r.minApr = tv.minAprAt defaultStaleAfter (clock.reading token .minApr) ∧
      r.spreadApr = tv.spreadAprAt defaultStaleAfter (clock.reading token .spreadApr) ∧
      r.exchangeCount = tv.exchangeCountAt defaultStaleAfter (clock.reading token .exchangeCount) ∧
      r.rows = tv.allSnapshots.map fun s =>
        snapToRow rnd s (clock.reading token .rowStale s.data.exchange) (clock.reading token .rowAge s.data.exchange) := by
  have named : tv.token = token := coherent.named token tv view
  have some := (shown_iff coherent view clock).mp shown
  rw [rankRow,named,if_neg some]
  exact ⟨_,rfl,rfl,rfl,rfl,rfl,rfl,rfl⟩

theorem rankRow_eq_none (coherent : n.Coherent) (view : n.getTokenView token = some tv) (hidden : ¬ Shown n clock token) :
    rankRow rnd clock tv = none := by
  have named : tv.token = token := coherent.named token tv view
  have nothing : tv.liveSnapshotsAt defaultStaleAfter (clock.reading token .live) = [] := by
    by_contra some
    exact hidden ((shown_iff coherent view clock).mpr some)
  rw [rankRow,named,if_pos nothing]

/-- The ranking has an entry for every token that is shown, and no other. -/
theorem mem_buildRanked_iff (coherent : n.Coherent) (r : TokenRankRow) :
    r ∈ buildRanked rnd n clock ↔
      ∃ token tv, n.getTokenView token = some tv ∧ Shown n clock token ∧ rankRow rnd clock tv = some r := by
  rw [buildRanked,mem_sortedByDesc,List.mem_filterMap]
  constructor
  · rintro ⟨tv,member,given⟩
    obtain ⟨token,view⟩ := (Dict.mem_values_iff _ _).mp member
    refine ⟨token,tv,view,?_,given⟩
    by_contra hidden
    rw [rankRow_eq_none coherent view hidden] at given
    cases given
  · rintro ⟨token,tv,view,-,given⟩
    exact ⟨tv,(Dict.mem_values_iff _ _).mpr ⟨token,view⟩,given⟩

/-- No token is listed twice. -/
theorem tokens_nodup (coherent : n.Coherent) : ((buildRanked rnd n clock).map TokenRankRow.token).Nodup := by
  have permuted := (sortedByDesc_perm (fun r => r.maxApr) (n.tokenViews.values.filterMap (rankRow rnd clock))).map
    TokenRankRow.token
  have labels : n.tokenViews.values.map TokenView.token = n.tokenViews.keys :=
    Dict.values_map_eq_keys _ fun token tv view => coherent.named token tv view
  have labelled : ∀ tv ∈ n.tokenViews.values, ∀ r, rankRow rnd clock tv = some r → r.token = tv.token := by
    intro tv _ r given
    unfold rankRow at given
    dsimp only at given
    split at given
    · cases given
    · cases given
      rfl
  have listed := filterMap_labels (rankRow rnd clock) TokenView.token TokenRankRow.token labelled
  rw [buildRanked,permuted.nodup_iff]
  rw [labels] at listed
  exact listed.nodup n.tokenViews.nodupKeys

theorem listed_iff (coherent : n.Coherent) (token : String) :
    token ∈ (buildRanked rnd n clock).map TokenRankRow.token ↔ Shown n clock token := by
  rw [List.mem_map]
  constructor
  · rintro ⟨r,member,same⟩
    obtain ⟨t,tv,view,shown,given⟩ := (mem_buildRanked_iff coherent r).mp member
    obtain ⟨r',given',named,-⟩ := @rankRow_eq_some rnd _ _ _ _ coherent view shown
    rw [given] at given'
    cases given'
    rw [← same,named]
    exact shown
  · intro shown
    obtain ⟨exchange,s,held,-⟩ := id shown
    obtain ⟨tv,view⟩ := (coherent.view_iff token).mpr ⟨exchange,s,held⟩
    obtain ⟨r,given,named,-⟩ := @rankRow_eq_some rnd _ _ _ _ coherent view shown
    exact ⟨r,(mem_buildRanked_iff coherent r).mpr ⟨token,tv,view,shown,given⟩,named⟩

theorem mem_allSnapshots_iff (coherent : n.Coherent) (view : n.getTokenView token = some tv) (s : ExchangeSnapshot) :
    s ∈ tv.allSnapshots ↔ n.getSnapshot s.data.exchange token = some s := by
  rw [TokenView.allSnapshots,mem_sortedByDesc,Dict.mem_values_iff]
  constructor
  · rintro ⟨exchange,held⟩
    have snapshot := (mem_entries_iff_getSnapshot coherent view exchange s).mp ((Dict.mem_entries_iff _ _ _).mpr held)
    rw [(coherent.labelled exchange token s snapshot).1]
    exact snapshot
  · intro snapshot
    exact ⟨s.data.exchange,(Dict.mem_entries_iff _ _ _).mp ((mem_entries_iff_getSnapshot coherent view _ s).mpr snapshot)⟩

/-- A snapshot that is live in the last pass was live in every pass before it. -/
theorem live_before {s : ExchangeSnapshot} {exchange : String} (p : Pass)
    (live : s.isStale defaultStaleAfter (clock.reading token .exchangeCount exchange) = false) :
    s.isStale defaultStaleAfter (clock.reading token p exchange) = false := by
  have le : p.order ≤ Pass.order .exchangeCount := by cases p <;> decide
  have earlier := clock.forward token p .exchangeCount exchange le
  simp only [ExchangeSnapshot.isStale,decide_eq_false_iff_not,not_lt,gt_iff_lt] at live ⊢
  linarith

/-- An entry whose snapshots all stay live agrees with its rows. -/
theorem entryCorrect_of_all (coherent : n.Coherent) (instant : String → String → ℚ) (view : n.getTokenView token = some tv)
    (shown : Shown n clock token)
    (all : ∀ exchange s, n.getSnapshot exchange token = some s →
      s.isStale n.staleAfter (instant token exchange) = false ∧
        s.isStale defaultStaleAfter (clock.reading token .exchangeCount exchange) = false)
    {r : TokenRankRow} (given : rankRow rnd clock tv = some r) : EntryCorrect n instant r := by
  obtain ⟨r',given',named,maxApr,minApr,spreadApr,exchangeCount,rows⟩ := @rankRow_eq_some rnd _ _ _ _ coherent view shown
  rw [given] at given'
  cases given'
  have live : ∀ p, tv.liveSnapshotsAt defaultStaleAfter (clock.reading token p) = tv.allSnapshots := by
    intro p
    refine liveSnapshotsAt_of_all fun exchange s member => ?_
    exact live_before p (all exchange s ((mem_entries_iff_getSnapshot coherent view exchange s).mp member)).2
  have nonempty : tv.allSnapshots.map apr ≠ [] := by
    have some := (shown_iff coherent view clock).mp shown
    rw [live .live] at some
    simpa using some
  have desc : (tv.allSnapshots.map apr).Pairwise (fun a b => b ≤ a) := by
    rw [List.pairwise_map]
    exact pairwise_sortedByDesc apr tv.snapshots.values
  have values : { x | ∃ row ∈ r.rows, row.fundingApr = x } = { x | x ∈ tv.allSnapshots.map apr } := by
    ext x
    rw [rows]
    simp only [Set.mem_ofPred_eq,List.mem_map,exists_exists_and_eq_and]
    exact Iff.rfl
  have greatest : r.maxApr = (tv.allSnapshots.map apr).max?.getD 0 := by
    rw [maxApr,TokenView.maxAprAt,live .maxApr]
  have least : r.minApr = (tv.allSnapshots.map apr).min?.getD 0 := by
    rw [minApr,TokenView.minAprAt,live .minApr]
  refine ⟨?_,?_,?_,?_,?_⟩
  · intro row member
    rw [rows,List.mem_map] at member
    obtain ⟨s,held,rfl⟩ := member
    have snapshot := (mem_allSnapshots_iff coherent view s).mp held
    rw [named]
    exact ⟨s,snapshot,(all s.data.exchange s snapshot).1⟩
  · rw [exchangeCount,TokenView.exchangeCountAt,live .exchangeCount,rows,List.length_map]
  · rw [values,greatest]
    exact isGreatest_max? nonempty
  · rw [values,least]
    exact isLeast_min? nonempty
  · have ends := spread_of_desc nonempty desc
    rw [List.length_map,List.head?_map,List.getLast?_map] at ends
    rw [greatest,least,spreadApr,TokenView.spreadAprAt,live .spreadApr,← ends]

/-- An entry that agrees with its rows counts every snapshot, and all of them are live. -/
theorem EntryCorrect.all {instant : String → String → ℚ} {r : TokenRankRow} (correct : EntryCorrect n instant r)
    (coherent : n.Coherent) (view : n.getTokenView token = some tv) (shown : Shown n clock token)
    (given : rankRow rnd clock tv = some r) (exchange : String) (s : ExchangeSnapshot)
    (held : n.getSnapshot exchange token = some s) :
    s.isStale n.staleAfter (instant token exchange) = false ∧
      s.isStale defaultStaleAfter (clock.reading token .exchangeCount exchange) = false := by
  obtain ⟨r',given',named,-,-,-,exchangeCount,rows⟩ := @rankRow_eq_some rnd _ _ _ _ coherent view shown
  rw [given] at given'
  cases given'
  have label : s.data.exchange = exchange := (coherent.labelled exchange token s held).1
  constructor
  · have inRows : snapToRow rnd s (clock.reading token .rowStale s.data.exchange) (clock.reading token .rowAge s.data.exchange) ∈
        r.rows := by
      rw [rows]
      refine List.mem_map_of_mem ((mem_allSnapshots_iff coherent view s).mpr ?_)
      rw [label]
      exact held
    obtain ⟨other,heldOther,live⟩ := correct.live _ inRows
    change n.getSnapshot s.data.exchange r.token = some other at heldOther
    rw [label,named,held] at heldOther
    cases heldOther
    change s.isStale n.staleAfter (instant r.token s.data.exchange) = false at live
    rw [named,label] at live
    exact live
  · have count := correct.count
    rw [exchangeCount,rows,List.length_map] at count
    exact (exchangeCountAt_eq_iff _ _).mp count exchange s ((mem_entries_iff_getSnapshot coherent view exchange s).mpr held)

theorem rankingCorrect_iff_of_coherent (coherent : n.Coherent) (clock : Clock) (instant : String → String → ℚ) :
    RankingCorrect n instant (buildRanked rnd n clock) ↔ Settled n clock instant := by
  constructor
  · intro correct
    constructor
    · intro token shown exchange s held
      obtain ⟨tv,view⟩ := (coherent.view_iff token).mpr ⟨exchange,s,held⟩
      obtain ⟨r,given,-⟩ := @rankRow_eq_some rnd _ _ _ _ coherent view shown
      have member := (mem_buildRanked_iff coherent r).mpr ⟨token,tv,view,shown,given⟩
      exact (correct.entries r member).all coherent view shown given exchange s held
    · intro token hidden exchange live
      have once := correct.complete token ⟨exchange,live⟩
      have listed : token ∈ (buildRanked rnd n clock).map TokenRankRow.token := by
        rw [← List.count_pos_iff,once]
        exact Nat.one_pos
      exact hidden ((listed_iff coherent token).mp listed)
  · intro settled
    refine ⟨?_,pairwise_sortedByDesc _ _,?_⟩
    · intro r member
      obtain ⟨token,tv,view,shown,given⟩ := (mem_buildRanked_iff coherent r).mp member
      exact entryCorrect_of_all coherent instant view shown (settled.all token shown) given
    · rintro token ⟨exchange,live⟩
      have shown : Shown n clock token := by
        by_contra hidden
        exact settled.none token hidden exchange live
      exact List.count_eq_one_of_mem (tokens_nodup coherent) ((listed_iff coherent token).mpr shown)

/-- In every reachable state, for every limit and clock and at all instants of judgement,
    the ranking is correct exactly when no token mixes live and stale snapshots. -/
theorem rankingCorrect_iff (rnd : ℕ → ℚ → ℚ) (staleAfter : ℚ) (ops : List DataNormalizer.Op) (clock : Clock)
    (instant : String → String → ℚ) :
    RankingCorrect (.run staleAfter ops) instant (buildRanked rnd (.run staleAfter ops) clock) ↔
      Settled (.run staleAfter ops) clock instant :=
  rankingCorrect_iff_of_coherent (DataNormalizer.run_coherent staleAfter ops) clock instant

/-- One exchange reported bitcoin three minutes before another one did. -/
def mixedRun : List DataNormalizer.Op :=
  [.update 0 (ArbitrageCalculator.btcRecord "hyperliquid" 90 (35 / 1000)),
    .update 200 (ArbitrageCalculator.btcRecord "aster" 10 (35 / 1000))]

/-- Its entry lists the silent exchange and counts one exchange for two rows. -/
theorem mixedRun_not_correct :
    ¬ RankingCorrect (.run defaultStaleAfter mixedRun) (fun _ _ => 200)
      (buildRanked roundTo (.run defaultStaleAfter mixedRun) (.still 200)) := by
  intro correct
  have counted : ∃ r ∈ buildRanked roundTo (.run defaultStaleAfter mixedRun) (.still 200), r.exchangeCount ≠ r.rows.length := by
    decide +kernel
  obtain ⟨r,member,differs⟩ := counted
  exact differs (correct.entries r member).count

end FundingAggregator
end FundingRadar
