import Mathlib.Data.List.Infix
import Mathlib.Data.Rat.Floor
import FundingRadar.Dict
import FundingRadar.Loops

/-!
JSON values as a dynamically typed program reads them: every access is total and
either yields a value or raises one of the exceptions the language documents for
it. Numbers are exact rationals, so an integer and a float of the same value are
one number. How a numeral in a string is read is a parameter (`Numerals`).
-/
namespace FundingRadar

/-- The exceptions that reading a value can raise. -/
inductive PyError
  | typeError
  | valueError
  | keyError
  | indexError
  | attributeError
  | zeroDivisionError
deriving DecidableEq

/-- A parsed JSON value. An object lists its members; a key is read at its first
    occurrence. -/
inductive Json
  | null
  | bool (b : Bool)
  | num (q : ℚ)
  | str (s : String)
  | arr (items : List Json)
  | obj (members : List (String × Json))

/-- What a dictionary can use as a key. A Boolean is the number it equals. -/
inductive Scalar
  | null
  | num (q : ℚ)
  | str (s : String)
deriving DecidableEq

/-- `float(s)` and `int(s)` on strings; `none` where they raise `ValueError`. -/
structure Numerals where
  parseFloat : String → Option ℚ
  parseInt : String → Option ℤ

namespace Json

/-- `bool(v)`. -/
def truthy : Json → Bool
  | .null => false
  | .bool b => b
  | .num q => q ≠ 0
  | .str s => s ≠ ""
  | .arr items => !items.isEmpty
  | .obj members => !members.isEmpty
/-- `v or w`. -/
def orElse (v w : Json) : Json := if v.truthy then v else w
/-- `v == s` for a string `s`. -/
def isStr (v : Json) (s : String) : Bool :=
  match v with
  | .str t => t = s
  | _ => false

/-- `isinstance(v, dict)`. -/
def isObj : Json → Bool
  | .obj _ => true
  | _ => false

/-- `v.get(k)`; only objects have the method. -/
def get? (v : Json) (k : String) : Except PyError (Option Json) :=
  match v with
  | .obj members => .ok (Dict.lookup k members)
  | _ => .error .attributeError
/-- `v.get(k, default)`; without a default, `None` is the default. -/
def get (v : Json) (k : String) (default : Json := .null) : Except PyError Json := do
  return (← v.get? k).getD default
/-- `v[k]` for a string `k`. -/
def item (v : Json) (k : String) : Except PyError Json :=
  match v with
  | .obj members =>
    match Dict.lookup k members with
    | some w => .ok w
    | none => .error .keyError
  | _ => .error .typeError
/-- `v[0]`, `v[1]` and so on. -/
def index (v : Json) (i : ℕ) : Except PyError Json :=
  match v with
  | .arr items => match items[i]? with
    | some w => .ok w
    | none => .error .indexError
  | .str s => match s.toList[i]? with
    | some c => .ok (.str (String.ofList [c]))
    | none => .error .indexError
  | .obj _ => .error .keyError
  | _ => .error .typeError
/-- `v[-1]`. -/
def last (v : Json) : Except PyError Json :=
  match v with
  | .arr items => v.index (items.length - 1)
  | .str s => v.index (s.length - 1)
  | _ => v.index 0
def len : Json → Except PyError ℕ
  | .arr items => .ok items.length
  | .obj members => .ok members.length
  | .str s => .ok s.length
  | _ => .error .typeError
/-- The values that `for x in v` runs through. -/
def iter : Json → Except PyError (List Json)
  | .arr items => .ok items
  | .obj members => .ok (members.map (fun m => .str m.1))
  | .str s => .ok (s.toList.map (fun c => .str (String.ofList [c])))
  | _ => .error .typeError

/-- `s in v` for a string `s`. -/
def contains (v : Json) (s : String) : Except PyError Bool :=
  match v with
  | .str t => .ok (s.toList <:+: t.toList)
  | .arr items => .ok (items.any (fun w => w.isStr s))
  | .obj members => .ok (Dict.lookup s members).isSome
  | _ => .error .typeError

/-- `hash(v)`: what a dictionary or a set files `v` under. -/
def hash : Json → Except PyError Scalar
  | .null => .ok .null
  | .bool b => .ok (.num (if b then 1 else 0))
  | .num q => .ok (.num q)
  | .str s => .ok (.str s)
  | _ => .error .typeError
def float (py : Numerals) : Json → Except PyError ℚ
  | .bool b => .ok (if b then 1 else 0)
  | .num q => .ok q
  | .str s => match py.parseFloat s with
    | some q => .ok q
    | none => .error .valueError
  | _ => .error .typeError
/-- `int(v)`, which rounds toward zero. -/
def int (py : Numerals) : Json → Except PyError ℤ
  | .bool b => .ok (if b then 1 else 0)
  | .num q => .ok (if 0 ≤ q then ⌊q⌋ else ⌈q⌉)
  | .str s => match py.parseInt s with
    | some n => .ok n
    | none => .error .valueError
  | _ => .error .typeError
/-- `float(v.get(k) or default)`, the way every collector reads a number. -/
def number (py : Numerals) (v : Json) (k : String) (default : Json := .num 0) : Except PyError ℚ := do
  ((← v.get k).orElse default).float py
/-- `int(v.get(k) or 0)`, the way every collector reads a time. -/
def time (py : Numerals) (v : Json) (k : String) : Except PyError ℤ := do ((← v.get k).orElse (.num 0)).int py

/-! ### What raises what -/

variable {py : Numerals} {v : Json}

/-- What the reading of a number raises. -/
def numberErrors : List PyError := [.typeError,.valueError]

theorem float_raisesOnly (v : Json) : RaisesOnly numberErrors (v.float py) := by
  intro e raised
  cases v with
  | null => cases raised; decide
  | bool b => cases raised
  | num q => cases raised
  | str s =>
    rw [float] at raised
    split at raised
    · cases raised
    · cases raised; decide
  | arr items => cases raised; decide
  | obj members => cases raised; decide
theorem int_raisesOnly (v : Json) : RaisesOnly numberErrors (v.int py) := by
  intro e raised
  cases v with
  | null => cases raised; decide
  | bool b => cases raised
  | num q => cases raised
  | str s =>
    rw [int] at raised
    split at raised
    · cases raised
    · cases raised; decide
  | arr items => cases raised; decide
  | obj members => cases raised; decide

theorem hash_raisesOnly (v : Json) : RaisesOnly [.typeError] v.hash := by
  intro e raised
  cases v with
  | arr items => cases raised; decide
  | obj members => cases raised; decide
  | _ => cases raised

/-- Every object has the method, and nothing else. -/
theorem get_of_isObj (isObj : v.isObj = true) (k : String) (default : Json) : ∃ w, v.get k default = .ok w := by
  cases v with
  | obj members => exact ⟨_,rfl⟩
  | _ => cases isObj
theorem get_of_not_isObj (notObj : v.isObj = false) (k : String) (default : Json) : v.get k default = .error .attributeError := by
  cases v with
  | obj members => cases notObj
  | _ => rfl

theorem number_raisesOnly (isObj : v.isObj = true) (k : String) (default : Json) :
    RaisesOnly numberErrors (v.number py k default) := by
  obtain ⟨w,found⟩ := get_of_isObj isObj k .null
  rw [number,found]
  exact float_raisesOnly _
theorem time_raisesOnly (isObj : v.isObj = true) (k : String) : RaisesOnly numberErrors (v.time py k) := by
  obtain ⟨w,found⟩ := get_of_isObj isObj k .null
  rw [time,found]
  exact int_raisesOnly _
theorem number_of_not_isObj (notObj : v.isObj = false) (k : String) (default : Json) :
    v.number py k default = .error .attributeError := by
  rw [number,get_of_not_isObj notObj]
  rfl

@[simp] theorem last_arr_iff {items : List Json} {w : Json} : (Json.arr items).last = .ok w ↔ items.getLast? = some w := by
  rw [last,index,List.getLast?_eq_getElem?]
  cases items[items.length - 1]? with
  | none => simp
  | some last => simp

/-- The elements of a text are texts, and so are those of an object. -/
theorem eq_arr_of_objects {items : List Json} (iterated : v.iter = .ok items) (truthy : v.truthy = true)
    (objects : ∀ w ∈ items, w.isObj = true) : v = .arr items := by
  cases v with
  | arr elements => cases iterated; rfl
  | str s =>
    cases iterated
    cases letters : s.toList with
    | nil => exact absurd (String.toList_eq_nil_iff.mp letters) (by simpa [Json.truthy] using truthy)
    | cons c rest => exact absurd (objects (.str (String.ofList [c])) (by simp [letters])) (by simp [isObj])
  | obj members =>
    cases iterated
    cases members with
    | nil => cases truthy
    | cons m rest => exact absurd (objects (.str m.1) (by simp)) (by simp [isObj])
  | _ => cases iterated

end Json

/-- A name on which a string method is called; other values do not have it. -/
def Scalar.asStr : Scalar → Except PyError String
  | .str s => .ok s
  | _ => .error .attributeError

end FundingRadar
