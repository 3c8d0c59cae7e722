import Mathlib.Data.List.MinMax
import Mathlib.Algebra.Order.Ring.Rat
import FundingRadar.Json
import FundingRadar.Sorting

/-!
Operators on JSON values as a dynamically typed program applies them: equality and order,
arithmetic, and the sorts and extremes that compare by the order. On numbers they are those of
the rationals and never raise.
-/
namespace FundingRadar
namespace Json

/-- The number that a value counts as. -/
def asNum : Json → Option ℚ
  | .bool b => some (if b then 1 else 0)
  | .num q => some q
  | _ => none

mutual

/-- `v == w`. -/
def equals : Json → Json → Bool
  | .null,.null => true
  | .str s,.str t => s = t
  | .arr xs,.arr ys => equalItems xs ys
  | .obj ms,.obj ns => ms.length = ns.length && equalMembers ms ns
  | v,w =>
    match v.asNum,w.asNum with
    | some p,some q => p = q
    | _,_ => false
def equalItems : List Json → List Json → Bool
  | [],[] => true
  | x :: xs,y :: ys => equals x y && equalItems xs ys
  | _,_ => false
/-- Every member has an equal one under its key. -/
def equalMembers : List (String × Json) → List (String × Json) → Bool
  | [],_ => true
  | (k,v) :: ms,ns => (Dict.lookup k ns).any (equals v) && equalMembers ms ns

end

mutual

/-- `v < w`. -/
def lessThan : Json → Json → Except PyError Bool
  | .str s,.str t => .ok (s < t)
  | .arr xs,.arr ys => lessItems xs ys
  | v,w =>
    match v.asNum,w.asNum with
    | some p,some q => .ok (p < q)
    | _,_ => .error .typeError
/-- Lists are ordered by the first place where they differ. -/
def lessItems : List Json → List Json → Except PyError Bool
  | [],ys => .ok !ys.isEmpty
  | _ :: _,[] => .ok false
  | x :: xs,y :: ys => if x.equals y then lessItems xs ys else lessThan x y

end

/-- What a value that can be hashed is filed under; two such values are equal when their keys are. -/
def key (v : Json) : Scalar := v.hash.toOption.getD .null

/-- An operator that only numbers have. -/
def numeric (f : ℚ → ℚ → ℚ) (v w : Json) : Except PyError ℚ :=
  match v.asNum,w.asNum with
  | some p,some q => .ok (f p q)
  | _,_ => .error .typeError
/-- The number that a function of numbers is given. -/
def toNum (v : Json) : Except PyError ℚ :=
  match v.asNum with
  | some q => .ok q
  | none => .error .typeError
/-- `v - w`. -/
def minus (v w : Json) : Except PyError ℚ := numeric (fun p q => p - q) v w
/-- `v / w` for a number `w` that is not zero. -/
def dividedBy (v : Json) (w : ℚ) : Except PyError ℚ := numeric (fun p q => p / q) v (.num w)
/-- `v + w`. -/
def plus : Json → Json → Except PyError Json
  | .str s,.str t => .ok (.str (s ++ t))
  | .arr xs,.arr ys => .ok (.arr (xs ++ ys))
  | v,w => (numeric (fun p q => p + q) v w).map .num
/-- `v * 2`. -/
def twice : Json → Except PyError Json
  | .str s => .ok (.str (s ++ s))
  | .arr xs => .ok (.arr (xs ++ xs))
  | v => (numeric (fun p q => p * q) v (.num 2)).map .num

@[simp] theorem lessThan_num (p q : ℚ) : lessThan (.num p) (.num q) = .ok (p < q) := rfl
@[simp] theorem toNum_num (p : ℚ) : toNum (.num p) = .ok p := rfl
@[simp] theorem minus_num (p q : ℚ) : minus (.num p) (.num q) = .ok (p - q) := rfl
@[simp] theorem dividedBy_num (p q : ℚ) : dividedBy (.num p) q = .ok (p / q) := rfl
@[simp] theorem plus_num (p q : ℚ) : plus (.num p) (.num q) = .ok (.num (p + q)) := rfl
@[simp] theorem twice_num (p : ℚ) : twice (.num p) = .ok (.num (p * 2)) := rfl

/-! ### Sorts and extremes -/

section
variable {α β : Type}

/-- The place of an item in a sorted list: behind those that come before it. -/
def insertBehind (before : α → α → Except PyError Bool) (a : α) : List α → Except PyError (List α)
  | [] => .ok [a]
  | b :: rest => do
    if ← before b a then return b :: (← insertBehind before a rest)
    else return a :: b :: rest
/-- A stable sort. One comparison that raises ends it. -/
def sortedWith (before : α → α → Except PyError Bool) : List α → Except PyError (List α)
  | [] => .ok []
  | a :: rest => do insertBehind before a (← sortedWith before rest)

/-- `sorted(xs, key=key)`. -/
def sorted (key : α → Json) : List α → Except PyError (List α) := sortedWith fun b a => (key b).lessThan (key a)
/-- `sorted(xs, key=key, reverse=True)`. -/
def sortedDesc (key : α → Json) : List α → Except PyError (List α) := sortedWith fun b a => (key a).lessThan (key b)

/-- The value that no later one is better than. -/
def extreme (better : Json → Json → Except PyError Bool) (best : Json) : List Json → Except PyError Json
  | [] => .ok best
  | v :: rest => do
    if ← better v best then extreme better v rest
    else extreme better best rest
/-- `max(xs, default=default)`. -/
def greatest (default : Json) : List Json → Except PyError Json
  | [] => .ok default
  | v :: rest => extreme (fun w most => most.lessThan w) v rest
/-- `min(xs, default=default)`. -/
def least (default : Json) : List Json → Except PyError Json
  | [] => .ok default
  | v :: rest => extreme (fun w least => w.lessThan least) v rest

/-- Where no comparison raises, the sort is the one by the order that they decide. -/
theorem sortedWith_map {before : α → α → Except PyError Bool} (e : β → α) (r : β → β → Prop) [DecidableRel r]
    (decides : ∀ a b, before (e b) (e a) = .ok (!decide (r a b))) (xs : List β) :
    sortedWith before (xs.map e) = .ok ((xs.insertionSort r).map e) := by
  have place : ∀ (a : β) (ys : List β), insertBehind before (e a) (ys.map e) = .ok ((ys.orderedInsert r a).map e) := by
    intro a ys
    induction ys with
    | nil => rfl
    | cons b rest ih =>
      rw [List.map_cons,insertBehind,decides,ih,List.orderedInsert]
      by_cases le : r a b
      · simp [le,bind,Except.bind,pure,Except.pure]
      · simp [le,bind,Except.bind,pure,Except.pure]
  induction xs with
  | nil => rfl
  | cons a rest ih =>
    rw [List.map_cons,sortedWith,ih]
    exact place a _

theorem sorted_map {key : α → Json} {e : β → α} {k : β → ℚ} (numbers : ∀ b, key (e b) = .num (k b)) (xs : List β) :
    sorted key (xs.map e) = .ok ((sortedBy k xs).map e) := by
  refine sortedWith_map e _ (fun a b => ?_) xs
  rw [numbers,numbers,lessThan_num,← decide_not]
  simp only [not_le]
theorem sortedDesc_map {key : α → Json} {e : β → α} {k : β → ℚ} (numbers : ∀ b, key (e b) = .num (k b)) (xs : List β) :
    sortedDesc key (xs.map e) = .ok ((sortedByDesc k xs).map e) := by
  refine sortedWith_map e _ (fun a b => ?_) xs
  rw [numbers,numbers,lessThan_num,← decide_not]
  simp only [not_le]

end

theorem extreme_num {better : Json → Json → Except PyError Bool} {choose : ℚ → ℚ → ℚ}
    (decides : ∀ best q, ∃ b, better (.num q) (.num best) = .ok b ∧ choose best q = if b then q else best) (best : ℚ) (rest : List ℚ) :
    extreme better (.num best) (rest.map .num) = .ok (.num (rest.foldl choose best)) := by
  induction rest generalizing best with
  | nil => rfl
  | cons q rest ih =>
    obtain ⟨b,decided,chosen⟩ := decides best q
    rw [List.map_cons,extreme,decided,List.foldl_cons,chosen]
    cases b with
    | true => exact ih q
    | false => exact ih best

theorem greatest_num (default : ℚ) (xs : List ℚ) : greatest (.num default) (xs.map .num) = .ok (.num (xs.max?.getD default)) := by
  cases xs with
  | nil => rfl
  | cons x rest =>
    rw [List.max?_cons',Option.getD_some]
    refine extreme_num (fun most q => ⟨_,lessThan_num most q,?_⟩) x rest
    by_cases less : most < q
    · simp [less,max_eq_right less.le]
    · simp [less,max_eq_left (not_lt.mp less)]
theorem least_num (default : ℚ) (xs : List ℚ) : least (.num default) (xs.map .num) = .ok (.num (xs.min?.getD default)) := by
  cases xs with
  | nil => rfl
  | cons x rest =>
    rw [List.min?_cons',Option.getD_some]
    refine extreme_num (fun least q => ⟨_,lessThan_num q least,?_⟩) x rest
    by_cases less : q < least
    · simp [less,min_eq_right less.le]
    · simp [less,min_eq_left (not_lt.mp less)]

end Json
end FundingRadar
