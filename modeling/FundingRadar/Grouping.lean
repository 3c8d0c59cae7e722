import Mathlib.Algebra.BigOperators.Group.List.Basic
import Mathlib.Algebra.Order.Field.Basic
import Mathlib.Data.List.Dedup
import Mathlib.Data.Prod.Lex
import FundingRadar.Sorting

/-!
Rows grouped by a key, the groups in the order of their keys, and averages. The groups part the
rows, so a sum over the rows is the sum over the groups of theirs (`sum_groupBy`), and the
average of all rows is that of the groups, each weighted with its size (`weighted_average`).
-/
namespace FundingRadar.Grouping
variable {α κ : Type*} [LinearOrder κ]

/-- The keys of the rows, each once, in their order. -/
def groupKeys (key : α → κ) (rows : List α) : List κ := sortedBy id (rows.map key).dedup
/-- The groups of the rows, each with its key. -/
def groupBy (key : α → κ) (rows : List α) : List (κ × List α) :=
  (groupKeys key rows).map fun k => (k,rows.filter (fun a => key a = k))

variable {key : α → κ} {rows : List α}

theorem mem_groupKeys_iff {k : κ} : k ∈ groupKeys key rows ↔ ∃ a ∈ rows, key a = k := by
  rw [groupKeys,mem_sortedBy,List.mem_dedup,List.mem_map]

theorem groupKeys_nodup (key : α → κ) (rows : List α) : (groupKeys key rows).Nodup :=
  (sortedBy_perm id _).nodup_iff.mpr (List.nodup_dedup _)

theorem groupKeys_ascending (key : α → κ) (rows : List α) : (groupKeys key rows).Pairwise (· < ·) := by
  have ascend : (groupKeys key rows).Pairwise (· ≤ ·) := pairwise_sortedBy id _
  exact (ascend.and (groupKeys_nodup key rows)).imp fun both => lt_of_le_of_ne both.1 both.2

/-- The keys of the groups ascend. -/
theorem groupBy_sorted (key : α → κ) (rows : List α) : ((groupBy key rows).map Prod.fst).Pairwise (· < ·) := by
  have keys : (groupBy key rows).map Prod.fst = groupKeys key rows := by
    rw [groupBy,List.map_map]
    exact List.map_id _
  rw [keys]
  exact groupKeys_ascending key rows

/-- A group has the rows of its key, and there is one for every key of a row. -/
theorem mem_groupBy_iff {k : κ} {group : List α} :
    (k,group) ∈ groupBy key rows ↔ group = rows.filter (fun a => key a = k) ∧ group ≠ [] := by
  rw [groupBy,List.mem_map]
  constructor
  · rintro ⟨j,inside,same⟩
    obtain ⟨rfl,rfl⟩ := Prod.mk.inj same
    obtain ⟨a,member,own⟩ := mem_groupKeys_iff.mp inside
    exact ⟨rfl,List.ne_nil_of_mem (List.mem_filter.mpr ⟨member,decide_eq_true own⟩)⟩
  · rintro ⟨rfl,some⟩
    obtain ⟨a,member⟩ := List.exists_mem_of_ne_nil _ some
    obtain ⟨inside,own⟩ := List.mem_filter.mp member
    exact ⟨k,mem_groupKeys_iff.mpr ⟨a,inside,of_decide_eq_true own⟩,rfl⟩

/-- The groups of rows that are made from others. -/
theorem groupBy_map {β : Type*} (f : β → α) (key : α → κ) (rows : List β) :
    groupBy key (rows.map f) = (groupBy (fun b => key (f b)) rows).map fun g => (g.1,g.2.map f) := by
  have keys : groupKeys key (rows.map f) = groupKeys (fun b => key (f b)) rows := by
    rw [groupKeys,groupKeys,List.map_map]
    rfl
  rw [groupBy,groupBy,keys,List.map_map]
  refine List.map_congr_left fun k _ => ?_
  rw [List.filter_map]
  rfl

/-- Ascending keys are told by which they are. -/
theorem eq_of_ascending {l l' : List κ} (ascends : l.Pairwise (· < ·)) (ascends' : l'.Pairwise (· < ·)) (same : ∀ k, k ∈ l ↔ k ∈ l') :
    l = l' := by
  have once : l.Nodup := ascends.imp fun less => less.ne
  have once' : l'.Nodup := ascends'.imp fun less => less.ne
  exact ((List.perm_ext_iff_of_nodup once once').mpr same).eq_of_pairwise (fun _ _ _ _ less greater => absurd greater less.asymm)
    ascends ascends'

/-- The groups of a key and a tag, of one tag: the groups by the key of the rows with the tag. -/
theorem groupBy_tagged {σ : Type*} [LinearOrder σ] (key : α → κ) (tag : α → σ) (rows : List α) (s : σ) :
    ((groupBy (fun a => toLex (key a,tag a)) rows).filter fun g => (ofLex g.1).2 = s).map (fun g => ((ofLex g.1).1,g.2)) =
      groupBy key (rows.filter fun a => tag a = s) := by
  have keys : ((groupKeys (fun a => toLex (key a,tag a)) rows).filter fun k => (ofLex k).2 = s).map (fun k => (ofLex k).1) =
      groupKeys key (rows.filter fun a => tag a = s) := by
    refine eq_of_ascending ?_ (groupKeys_ascending _ _) fun k => ?_
    · refine List.pairwise_map.mpr ?_
      refine ((groupKeys_ascending (fun a => toLex (key a,tag a)) rows).filter _).imp_of_mem ?_
      intro j j' inside inside' less
      have own : (ofLex j).2 = s := of_decide_eq_true (List.mem_filter.mp inside).2
      have own' : (ofLex j').2 = s := of_decide_eq_true (List.mem_filter.mp inside').2
      rcases (Prod.Lex.lt_iff).mp less with first | ⟨-,second⟩
      · exact first
      · rw [own,own'] at second
        exact absurd second (lt_irrefl s)
    · rw [List.mem_map,mem_groupKeys_iff]
      constructor
      · rintro ⟨j,inside,rfl⟩
        obtain ⟨grouped,own⟩ := List.mem_filter.mp inside
        obtain ⟨a,member,rfl⟩ := mem_groupKeys_iff.mp grouped
        exact ⟨a,List.mem_filter.mpr ⟨member,own⟩,rfl⟩
      · rintro ⟨a,inside,rfl⟩
        obtain ⟨member,own⟩ := List.mem_filter.mp inside
        exact ⟨toLex (key a,tag a),List.mem_filter.mpr ⟨mem_groupKeys_iff.mpr ⟨a,member,rfl⟩,own⟩,rfl⟩
  rw [groupBy,groupBy,← keys,List.filter_map,List.map_map,List.map_map]
  refine List.map_congr_left fun j inside => ?_
  have own : (ofLex j).2 = s := of_decide_eq_true (List.mem_filter.mp inside).2
  simp only [Function.comp_apply,List.filter_filter,Prod.mk.injEq,true_and]
  refine List.filter_congr fun a _ => ?_
  rw [← Bool.decide_and]
  refine decide_eq_decide.mpr ?_
  constructor
  · rintro same
    rw [← same]
    exact ⟨rfl,by rw [← own,← same]; rfl⟩
  · rintro ⟨first,second⟩
    rw [first,second,← own]
    rfl

section
variable {M : Type*} [AddCommMonoid M]

/-- What a row adds to the sum of its group. -/
theorem sum_single {keys : List κ} (once : keys.Nodup) {k : κ} (inside : k ∈ keys) (x : M) :
    (keys.map fun j => if k = j then x else 0).sum = x := by
  induction keys with
  | nil => cases inside
  | cons j rest ih =>
    obtain ⟨fresh,later⟩ := List.nodup_cons.mp once
    rw [List.map_cons,List.sum_cons]
    by_cases same : k = j
    · subst same
      have others : (rest.map fun j => if k = j then x else 0).sum = 0 := by
        refine List.sum_eq_zero fun y member => ?_
        obtain ⟨j,there,rfl⟩ := List.mem_map.mp member
        have differ : k ≠ j := by
          rintro rfl
          exact fresh there
        exact if_neg differ
      rw [if_pos rfl,others,add_zero]
    · rw [if_neg same,zero_add]
      exact ih later ((List.mem_cons.mp inside).resolve_left same)

theorem sum_filter_keys {keys : List κ} (once : keys.Nodup) (covers : ∀ a ∈ rows, key a ∈ keys) (f : α → M) :
    (keys.map fun k => ((rows.filter fun a => key a = k).map f).sum).sum = (rows.map f).sum := by
  induction rows with
  | nil => simp
  | cons a rest ih =>
    have here : ∀ k, (((a :: rest).filter fun a => key a = k).map f).sum =
        (if key a = k then f a else 0) + ((rest.filter fun a => key a = k).map f).sum := by
      intro k
      by_cases same : key a = k
      · simp [same]
      · simp [same]
    simp only [here,List.sum_map_add]
    rw [sum_single once (covers a (List.mem_cons_self ..)),ih fun b member => covers b (List.mem_cons_of_mem a member),
      List.map_cons,List.sum_cons]

/-- A sum over the rows is one over the groups. -/
theorem sum_groupBy (key : α → κ) (rows : List α) (f : α → M) :
    ((groupBy key rows).map fun g => (g.2.map f).sum).sum = (rows.map f).sum := by
  rw [groupBy,List.map_map]
  exact sum_filter_keys (groupKeys_nodup key rows) (fun a member => mem_groupKeys_iff.mpr ⟨a,member,rfl⟩) f

end

/-- The groups have as many rows together as there are. -/
theorem length_groupBy (key : α → κ) (rows : List α) : ((groupBy key rows).map fun g => g.2.length).sum = rows.length := by
  have ones := sum_groupBy key rows (fun _ => (1 : ℕ))
  simpa using ones

section
variable {K : Type*} [Field K] [LinearOrder K] [IsStrictOrderedRing K]

def average (values : List K) : K := values.sum / values.length

theorem length_mul_average (values : List K) : values.length * average values = values.sum := by
  cases values with
  | nil => simp
  | cons v rest =>
    have some : ((v :: rest).length : K) ≠ 0 := Nat.cast_ne_zero.mpr (Nat.succ_ne_zero _)
    rw [average,mul_div_cancel₀ _ some]

/-- The groups have the average of all rows, each with the weight of its size. -/
theorem weighted_average (key : α → κ) (rows : List α) (f : α → K) :
    ((groupBy key rows).map fun g => (g.2.length : K) * average (g.2.map f)).sum = rows.length * average (rows.map f) := by
  have group : ∀ g : κ × List α, (g.2.length : K) * average (g.2.map f) = (g.2.map f).sum := by
    intro g
    rw [← length_mul_average,List.length_map]
  simp only [group]
  rw [sum_groupBy,← length_mul_average,List.length_map]

/-- Weighted values that are each off by at most as much are off by no more together. -/
theorem weighted_error {items : List α} (weight : α → ℕ) (plain rounded : α → K) {error : K}
    (off : ∀ a ∈ items, |rounded a - plain a| ≤ error) :
    |(items.map fun a => (weight a : K) * rounded a).sum - (items.map fun a => (weight a : K) * plain a).sum| ≤
      ((items.map weight).sum : ℕ) * error := by
  induction items with
  | nil => simp
  | cons a rest ih =>
    have later := ih fun b member => off b (List.mem_cons_of_mem a member)
    have here := off a (List.mem_cons_self ..)
    have weighted : |(weight a : K) * rounded a - (weight a : K) * plain a| ≤ weight a * error := by
      rw [← mul_sub,abs_mul,Nat.abs_cast]
      exact mul_le_mul_of_nonneg_left here (Nat.cast_nonneg _)
    simp only [List.map_cons,List.sum_cons,Nat.cast_add,add_mul]
    rw [add_sub_add_comm]
    exact (abs_add_le _ _).trans (add_le_add weighted later)

end

end FundingRadar.Grouping
