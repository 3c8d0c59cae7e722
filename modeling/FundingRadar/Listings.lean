import Mathlib.Algebra.BigOperators.Group.List.Basic
import Mathlib.Algebra.Order.Field.Basic
import Mathlib.Data.List.Nodup
import FundingRadar.Dict

/-!
Items that are counted by a key and listed in pages. The counts of a dictionary are those of
the list (`get?_tallied`), over distinct keys that cover the items they come to its length
(`sum_countP`), and consecutive pages are the list again (`flatMap_page`).
-/
namespace FundingRadar.Listings
variable {α β κ : Type*} [DecidableEq κ]

/-! ### Counts -/

/-- One more item under its key. -/
def tally (key : α → κ) (counts : Dict κ ℕ) (a : α) : Dict κ ℕ := counts.insert (key a) ((counts.get? (key a)).getD 0 + 1)

theorem get?_tallied (key : α → κ) (items : List α) (counts : Dict κ ℕ) (k : κ) :
    ((items.foldl (tally key) counts).get? k).getD 0 = (counts.get? k).getD 0 + items.countP (fun a => key a = k) := by
  induction items generalizing counts with
  | nil => rfl
  | cons a rest ih =>
    rw [List.foldl_cons,ih,tally,Dict.get?_insert,List.countP_cons]
    by_cases same : k = key a
    · rw [if_pos same,Option.getD_some,if_pos (decide_eq_true same.symm),same]
      omega
    · rw [if_neg same,if_neg (fun hit => same (of_decide_eq_true hit).symm),Nat.add_zero]

theorem sum_indicator (keys : List κ) (own : κ) : (keys.map fun k => if own = k then 1 else 0).sum = keys.count own := by
  induction keys with
  | nil => rfl
  | cons k rest ih =>
    rw [List.map_cons,List.sum_cons,ih,List.count_cons,Nat.add_comm]
    by_cases same : own = k
    · rw [if_pos same,if_pos (beq_iff_eq.mpr same.symm)]
    · rw [if_neg same,if_neg fun hit => same (beq_iff_eq.mp hit).symm]

/-- Items under distinct keys that cover them. -/
theorem sum_countP (key : α → κ) {keys : List κ} (distinct : keys.Nodup) {items : List α} (covered : ∀ a ∈ items, key a ∈ keys) :
    (keys.map fun k => items.countP (fun a => key a = k)).sum = items.length := by
  induction items with
  | nil => simp
  | cons a rest ih =>
    have one := (sum_indicator keys (key a)).trans (List.count_eq_one_of_mem distinct (covered a (List.mem_cons_self ..)))
    have split : (keys.map fun k => (a :: rest).countP (fun b => key b = k)) =
        keys.map fun k => rest.countP (fun b => key b = k) + if key a = k then 1 else 0 := by
      refine List.map_congr_left fun k _ => ?_
      rw [List.countP_cons]
      simp only [decide_eq_true_eq]
    rw [split,List.sum_map_add,one,ih fun b member => covered b (List.mem_cons_of_mem a member),List.length_cons]

/-! ### Pages -/

def page (limit offset : ℕ) (xs : List α) : List α := (xs.drop offset).take limit

/-- The first pages of a list. -/
theorem flatMap_page (limit : ℕ) (xs : List α) (n : ℕ) :
    ((List.range n).flatMap fun i => page limit (i * limit) xs) = xs.take (n * limit) := by
  induction n with
  | zero => rw [Nat.zero_mul,List.take_zero]; rfl
  | succ n ih =>
    rw [List.range_succ,List.flatMap_append,ih,List.flatMap_singleton,page,Nat.succ_mul,List.take_add]
/-- Enough of them are the list. -/
theorem flatMap_page_of_le {limit n : ℕ} {xs : List α} (enough : xs.length ≤ n * limit) :
    ((List.range n).flatMap fun i => page limit (i * limit) xs) = xs := by
  rw [flatMap_page,List.take_of_length_le enough]

/-! ### Rows of groups -/

/-- Groups that give at most one row each, which has their label. -/
theorem map_flatMap_of_single {γ : Type*} {rows : α → List β} {label : β → γ} {labelOf : α → γ} {groups : List α}
    (single : ∀ a ∈ groups, (rows a).length ≤ 1) (labelled : ∀ a ∈ groups, ∀ b ∈ rows a, label b = labelOf a) :
    (groups.flatMap rows).map label = (groups.filter fun a => !(rows a).isEmpty).map labelOf := by
  induction groups with
  | nil => rfl
  | cons a rest ih =>
    have later := ih (fun b member => single b (List.mem_cons_of_mem a member))
      (fun b member => labelled b (List.mem_cons_of_mem a member))
    rw [List.flatMap_cons,List.map_append,later]
    cases given : rows a with
    | nil => rw [List.filter_cons_of_neg (by simp [given])]; rfl
    | cons b others =>
      have alone : others = [] := by
        have short := single a (List.mem_cons_self ..)
        rw [given,List.length_cons] at short
        exact List.length_eq_zero_iff.mp (by omega)
      have own := labelled a (List.mem_cons_self ..) b (given ▸ List.mem_cons_self ..)
      rw [List.filter_cons_of_pos (by simp [given]),List.map_cons,alone,List.map_cons,own]
      rfl

end FundingRadar.Listings
