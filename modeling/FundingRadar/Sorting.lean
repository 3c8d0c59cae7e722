import Mathlib.Data.List.Sort
import Mathlib.Order.Basic

/-!
Stable sorting by a key, in both directions, as `sorted` does it: elements with
equal keys keep their order, also when the direction is reversed. Mathlib's
insertion sort has both properties and evaluates by structural recursion.
-/
namespace FundingRadar

variable {α β : Type*} [LinearOrder β]

/-- `sorted(xs, key=key)`. -/
def sortedBy (key : α → β) (xs : List α) : List α := xs.insertionSort (fun a b => key a ≤ key b)
/-- `sorted(xs, key=key, reverse=True)`. -/
def sortedByDesc (key : α → β) (xs : List α) : List α := xs.insertionSort (fun a b => key b ≤ key a)

variable (key : α → β) (xs : List α)

theorem sortedBy_perm : (sortedBy key xs).Perm xs := List.perm_insertionSort _ xs
theorem sortedByDesc_perm : (sortedByDesc key xs).Perm xs := List.perm_insertionSort _ xs
@[simp] theorem mem_sortedBy {a : α} : a ∈ sortedBy key xs ↔ a ∈ xs := (sortedBy_perm key xs).mem_iff
@[simp] theorem mem_sortedByDesc {a : α} : a ∈ sortedByDesc key xs ↔ a ∈ xs := (sortedByDesc_perm key xs).mem_iff
@[simp] theorem length_sortedBy : (sortedBy key xs).length = xs.length := (sortedBy_perm key xs).length_eq
@[simp] theorem length_sortedByDesc : (sortedByDesc key xs).length = xs.length := (sortedByDesc_perm key xs).length_eq

theorem pairwise_sortedBy : (sortedBy key xs).Pairwise (fun a b => key a ≤ key b) := by
  have : IsTrans α (fun a b => key a ≤ key b) := ⟨fun _ _ _ => le_trans⟩
  have : Std.Total (fun a b : α => key a ≤ key b) := ⟨fun a b => le_total (key a) (key b)⟩
  exact List.pairwise_insertionSort _ xs

theorem pairwise_sortedByDesc : (sortedByDesc key xs).Pairwise (fun a b => key b ≤ key a) := by
  have : IsTrans α (fun a b => key b ≤ key a) := ⟨fun _ _ _ ab bc => le_trans bc ab⟩
  have : Std.Total (fun a b : α => key b ≤ key a) := ⟨fun a b => le_total (key b) (key a)⟩
  exact List.pairwise_insertionSort _ xs

/-- Two elements in order of their keys stay in that order. -/
theorem sortedBy_stable {a b : α} (le : key a ≤ key b) (order : [a,b].Sublist xs) : [a,b].Sublist (sortedBy key xs) := by
  have : IsTrans α (fun a b => key a ≤ key b) := ⟨fun _ _ _ => le_trans⟩
  have : Std.Total (fun a b : α => key a ≤ key b) := ⟨fun a b => le_total (key a) (key b)⟩
  exact List.pair_sublist_insertionSort le order
theorem sortedByDesc_stable {a b : α} (le : key b ≤ key a) (order : [a,b].Sublist xs) :
    [a,b].Sublist (sortedByDesc key xs) := by
  have : IsTrans α (fun a b => key b ≤ key a) := ⟨fun _ _ _ ab bc => le_trans bc ab⟩
  have : Std.Total (fun a b : α => key b ≤ key a) := ⟨fun a b => le_total (key b) (key a)⟩
  exact List.pair_sublist_insertionSort le order

/-! ### The two ends -/

/-- Of two elements of a list without repetition one comes first. -/
theorem pair_sublist_total {xs : List α} {a b : α} (inA : a ∈ xs) (inB : b ∈ xs) (differ : a ≠ b) :
    [a,b].Sublist xs ∨ [b,a].Sublist xs := by
  induction xs with
  | nil => cases inA
  | cons x rest ih =>
    rcases List.mem_cons.mp inA with rfl | laterA
    · have laterB := (List.mem_cons.mp inB).resolve_left differ.symm
      exact .inl (.cons_cons _ (List.singleton_sublist.mpr laterB))
    · rcases List.mem_cons.mp inB with rfl | laterB
      · exact .inr (.cons_cons _ (List.singleton_sublist.mpr laterA))
      · exact (ih laterA laterB).imp (.cons _) (.cons _)
theorem pair_sublist_asymm {xs : List α} (nodup : xs.Nodup) {a b : α} (ab : [a,b].Sublist xs) (ba : [b,a].Sublist xs) :
    False := by
  induction xs with
  | nil => cases ab
  | cons x rest ih =>
    obtain ⟨fresh,tail⟩ := List.nodup_cons.mp nodup
    cases ab with
    | cons _ ab =>
      cases ba with
      | cons _ ba => exact ih tail ab ba
      | cons_cons _ ba => exact fresh (ab.subset (by simp))
    | cons_cons _ ab =>
      cases ba with
      | cons _ ba => exact fresh (ba.subset (by simp))
      | cons_cons _ ba => exact fresh (ab.subset (by simp))

/-- `a` has the least key of the list and stands before all others that have it. -/
def IsLowest (key : α → β) (xs : List α) (a : α) : Prop :=
  a ∈ xs ∧ ∀ b ∈ xs, b ≠ a → key a < key b ∨ key a = key b ∧ [a,b].Sublist xs
/-- `a` has the greatest key of the list and stands after all others that have it. -/
def IsHighest (key : α → β) (xs : List α) (a : α) : Prop :=
  a ∈ xs ∧ ∀ b ∈ xs, b ≠ a → key b < key a ∨ key b = key a ∧ [b,a].Sublist xs

variable {key xs}

theorem IsLowest.le {a b : α} (low : IsLowest key xs a) (member : b ∈ xs) : key a ≤ key b := by
  by_cases same : b = a
  · rw [same]
  · rcases low.2 b member same with lt | ⟨eq,-⟩
    · exact lt.le
    · exact eq.le
theorem IsHighest.le {a b : α} (high : IsHighest key xs a) (member : b ∈ xs) : key b ≤ key a := by
  by_cases same : b = a
  · rw [same]
  · rcases high.2 b member same with lt | ⟨eq,-⟩
    · exact lt.le
    · exact eq.le

theorem IsLowest.unique (nodup : xs.Nodup) {a b : α} (lowA : IsLowest key xs a) (lowB : IsLowest key xs b) : a = b := by
  by_contra differ
  rcases lowA.2 b lowB.1 (Ne.symm differ) with lt | ⟨eq,ab⟩
  · exact absurd (lowB.le lowA.1) (not_le.mpr lt)
  · rcases lowB.2 a lowA.1 differ with lt | ⟨-,ba⟩
    · exact absurd eq lt.ne'
    · exact pair_sublist_asymm nodup ab ba
theorem IsHighest.unique (nodup : xs.Nodup) {a b : α} (highA : IsHighest key xs a) (highB : IsHighest key xs b) :
    a = b := by
  by_contra differ
  rcases highA.2 b highB.1 (Ne.symm differ) with lt | ⟨eq,ba⟩
  · exact absurd (highB.le highA.1) (not_le.mpr lt)
  · rcases highB.2 a highA.1 differ with lt | ⟨-,ab⟩
    · exact absurd eq lt.ne'
    · exact pair_sublist_asymm nodup ab ba

/-- Sorted down and then up, a list starts with its lowest element. -/
theorem isLowest_head (nodup : xs.Nodup) {a : α} {rest : List α} (sorted : sortedBy key (sortedByDesc key xs) = a :: rest) :
    IsLowest key xs a := by
  have distinct : (a :: rest).Nodup :=
    sorted ▸ ((sortedBy_perm key _).trans (sortedByDesc_perm key xs)).nodup_iff.mpr nodup
  have members : ∀ b, b ∈ a :: rest ↔ b ∈ xs := by intro b; rw [← sorted]; simp
  have inXs := (members a).mp (.head _)
  refine ⟨inXs,fun b member differ => ?_⟩
  have later := (List.mem_cons.mp ((members b).mpr member)).resolve_left differ
  have le : key a ≤ key b := (List.pairwise_cons.mp (sorted ▸ pairwise_sortedBy key _)).1 b later
  refine le.lt_or_eq.imp_right fun eq => ⟨eq,?_⟩
  -- Were `b` first in the list, both sorts would keep it there.
  refine (pair_sublist_total inXs member (Ne.symm differ)).resolve_right fun ba => ?_
  have kept := sortedBy_stable key _ eq.ge (sortedByDesc_stable key xs eq.le ba)
  rw [sorted] at kept
  exact pair_sublist_asymm distinct (.cons_cons _ (List.singleton_sublist.mpr later)) kept

/-- Sorted down and then up, a list ends with its highest element. -/
theorem isHighest_getLast (nodup : xs.Nodup) {a : α} {init : List α}
    (sorted : sortedBy key (sortedByDesc key xs) = init ++ [a]) : IsHighest key xs a := by
  have distinct : (init ++ [a]).Nodup :=
    sorted ▸ ((sortedBy_perm key _).trans (sortedByDesc_perm key xs)).nodup_iff.mpr nodup
  have members : ∀ b, b ∈ init ++ [a] ↔ b ∈ xs := by intro b; rw [← sorted]; simp
  have inXs := (members a).mp (by simp)
  refine ⟨inXs,fun b member differ => ?_⟩
  have earlier : b ∈ init := by
    rcases List.mem_append.mp ((members b).mpr member) with before | last
    · exact before
    · exact absurd (List.mem_singleton.mp last) differ
  have le : key b ≤ key a :=
    (List.pairwise_append.mp (sorted ▸ pairwise_sortedBy key _)).2.2 b earlier a (by simp)
  refine le.lt_or_eq.imp_right fun eq => ⟨eq,?_⟩
  -- Were `b` last in the list, both sorts would keep it there.
  refine (pair_sublist_total inXs member (Ne.symm differ)).resolve_left fun ab => ?_
  have kept := sortedBy_stable key _ eq.ge (sortedByDesc_stable key xs eq.le ab)
  rw [sorted] at kept
  exact pair_sublist_asymm distinct kept ((List.singleton_sublist.mpr earlier).append_right [a])

end FundingRadar
