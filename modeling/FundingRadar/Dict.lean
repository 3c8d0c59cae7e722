import Mathlib.Data.List.Nodup
import Mathlib.Data.List.Induction
import Mathlib.Data.List.Basic
import Mathlib.Logic.Function.Basic

/-!
Dictionaries that keep the order of insertion. An assignment to a key that is
present changes its value and leaves its place; an assignment to a new key goes to
the end; a deleted key that comes back goes to the end as well. That no key occurs
twice is a field, so every dictionary is a finite map with an order on its keys.
`AList.insert` of Mathlib moves an assigned key to the front, which loses that order.
-/
namespace FundingRadar

/-- A finite map whose entries are listed in the order of insertion. -/
structure Dict (κ ν : Type*) where
  entries : List (κ × ν)
  nodupKeys : (entries.map Prod.fst).Nodup
deriving DecidableEq

namespace Dict
variable {κ ν : Type*} [DecidableEq κ]

/-- The value of the first entry under a key. -/
def lookup (k : κ) : List (κ × ν) → Option ν
  | [] => none
  | (j,v) :: rest => if j = k then some v else lookup k rest
/-- The entries with the value under `k` replaced, or added at the end. -/
def assign (k : κ) (v : ν) : List (κ × ν) → List (κ × ν)
  | [] => [(k,v)]
  | (j,w) :: rest => if j = k then (k,v) :: rest else (j,w) :: assign k v rest

theorem mem_keys_assign (k : κ) (v : ν) (es : List (κ × ν)) (j : κ) :
    j ∈ (assign k v es).map Prod.fst ↔ j = k ∨ j ∈ es.map Prod.fst := by
  induction es with
  | nil => simp [assign]
  | cons e rest ih =>
    obtain ⟨i,w⟩ := e
    by_cases same : i = k
    · subst same; simp [assign]
    · simp only [assign,same,if_false,List.map_cons,List.mem_cons,ih]
      tauto

theorem nodup_assign (k : κ) (v : ν) (es : List (κ × ν)) (nodup : (es.map Prod.fst).Nodup) :
    ((assign k v es).map Prod.fst).Nodup := by
  induction es with
  | nil => simp [assign]
  | cons e rest ih =>
    obtain ⟨i,w⟩ := e
    obtain ⟨fresh,tail⟩ := List.nodup_cons.mp nodup
    by_cases same : i = k
    · subst same
      rw [assign,if_pos rfl]
      exact nodup
    · simp only [assign,same,if_false,List.map_cons,List.nodup_cons,mem_keys_assign]
      exact ⟨fun member => member.elim id fresh,ih tail⟩

theorem lookup_assign (k : κ) (v : ν) (es : List (κ × ν)) (j : κ) :
    lookup j (assign k v es) = if j = k then some v else lookup j es := by
  induction es with
  | nil => simp [assign,lookup,eq_comm]
  | cons e rest ih =>
    obtain ⟨i,w⟩ := e
    by_cases same : i = k
    · subst same
      by_cases hit : j = i
      · subst hit; simp [assign,lookup]
      · simp [assign,lookup,hit,Ne.symm hit]
    · by_cases hit : i = j
      · subst hit; simp [assign,lookup,same]
      · simp [assign,lookup,same,hit,ih]

theorem lookup_eq_some_iff {es : List (κ × ν)} (nodup : (es.map Prod.fst).Nodup) (k : κ) (v : ν) :
    lookup k es = some v ↔ (k,v) ∈ es := by
  induction es with
  | nil => simp [lookup]
  | cons e rest ih =>
    obtain ⟨i,w⟩ := e
    obtain ⟨fresh,tail⟩ := List.nodup_cons.mp nodup
    by_cases same : i = k
    · subst same
      simp only [lookup,if_true,Option.some.injEq,List.mem_cons,Prod.mk.injEq,true_and]
      constructor
      · rintro rfl; exact .inl rfl
      · rintro (rfl | later)
        · rfl
        · exact absurd (List.mem_map.mpr ⟨(i,v),later,rfl⟩) fresh
    · simp [lookup,same,ih tail,Ne.symm same]

theorem lookup_filter (p : κ × ν → Bool) {es : List (κ × ν)} (nodup : (es.map Prod.fst).Nodup) (k : κ) :
    lookup k (es.filter p) = (lookup k es).filter (fun v => p (k,v)) := by
  have kept : ((es.filter p).map Prod.fst).Nodup := (List.filter_sublist.map Prod.fst).nodup nodup
  apply Option.ext
  intro v
  rw [lookup_eq_some_iff kept,Option.filter_eq_some_iff,lookup_eq_some_iff nodup,List.mem_filter]

/-- The dictionary without entries. -/
def empty : Dict κ ν := ⟨[],by simp⟩
/-- `d.get(k)`. -/
def get? (d : Dict κ ν) (k : κ) : Option ν := lookup k d.entries
/-- `d[k] = v`. -/
def insert (d : Dict κ ν) (k : κ) (v : ν) : Dict κ ν := ⟨assign k v d.entries,nodup_assign k v d.entries d.nodupKeys⟩
/-- The entries that satisfy a test, in order. -/
def filter (d : Dict κ ν) (p : κ × ν → Bool) : Dict κ ν :=
  ⟨d.entries.filter p,(List.filter_sublist.map Prod.fst).nodup d.nodupKeys⟩
/-- `d.pop(k, None)`. -/
def erase (d : Dict κ ν) (k : κ) : Dict κ ν := d.filter (fun e => e.1 ≠ k)
/-- `d.keys()`, in order. -/
def keys (d : Dict κ ν) : List κ := d.entries.map Prod.fst
/-- `d.values()`, in order. -/
def values (d : Dict κ ν) : List ν := d.entries.map Prod.snd

@[simp] theorem get?_empty (k : κ) : (empty : Dict κ ν).get? k = none := rfl

theorem get?_insert (d : Dict κ ν) (k j : κ) (v : ν) :
    (d.insert k v).get? j = if j = k then some v else d.get? j := lookup_assign k v d.entries j
@[simp] theorem get?_insert_self (d : Dict κ ν) (k : κ) (v : ν) : (d.insert k v).get? k = some v := by
  simp [get?_insert]

/-- A new key leaves every entry. -/
theorem get?_insert_of_absent {d : Dict κ ν} {k j : κ} {v : ν} (absent : d.get? k = none) (found : d.get? j = some v)
    (w : ν) : (d.insert k w).get? j = some v := by
  rw [get?_insert,if_neg]
  · exact found
  · rintro rfl
    rw [absent] at found
    cases found

/-- A new key goes to the end. -/
theorem entries_insert_of_absent {d : Dict κ ν} {k : κ} (absent : d.get? k = none) (v : ν) :
    (d.insert k v).entries = d.entries ++ [(k,v)] := by
  obtain ⟨es,nodup⟩ := d
  simp only [insert,get?] at absent ⊢
  clear nodup
  induction es with
  | nil => rfl
  | cons e rest ih =>
    obtain ⟨j,w⟩ := e
    rw [lookup] at absent
    split at absent
    · cases absent
    · next other => rw [assign,if_neg other,ih absent,List.cons_append]

/-- A value that fails a test does not add to the entries that pass it. -/
theorem length_filter_insert_le (d : Dict κ ν) {p : κ × ν → Bool} {k : κ} {v : ν} (fails : p (k,v) = false) :
    ((d.insert k v).entries.filter p).length ≤ (d.entries.filter p).length := by
  obtain ⟨es,nodup⟩ := d
  simp only [insert]
  clear nodup
  induction es with
  | nil => simp [assign,fails]
  | cons e rest ih =>
    obtain ⟨j,w⟩ := e
    rw [assign]
    split
    · rw [List.filter_cons_of_neg (by rw [fails]; exact Bool.false_ne_true)]
      exact (List.sublist_cons_self (j,w) rest |>.filter p).length_le
    · simp only [List.filter_cons]
      split
      · exact Nat.succ_le_succ ih
      · exact ih

theorem get?_filter (d : Dict κ ν) (p : κ × ν → Bool) (k : κ) :
    (d.filter p).get? k = (d.get? k).filter (fun v => p (k,v)) := lookup_filter p d.nodupKeys k

theorem get?_erase (d : Dict κ ν) (k j : κ) : (d.erase k).get? j = if j = k then none else d.get? j := by
  rw [erase,get?_filter]
  by_cases same : j = k
  · subst same; cases d.get? j <;> simp [Option.filter]
  · cases d.get? j <;> simp [Option.filter,same]

theorem mem_entries_iff (d : Dict κ ν) (k : κ) (v : ν) : (k,v) ∈ d.entries ↔ d.get? k = some v :=
  (lookup_eq_some_iff d.nodupKeys k v).symm

theorem mem_values_iff (d : Dict κ ν) (v : ν) : v ∈ d.values ↔ ∃ k, d.get? k = some v := by
  simp only [values,List.mem_map,Prod.exists,exists_eq_right,mem_entries_iff]

theorem mem_keys_iff (d : Dict κ ν) (k : κ) : k ∈ d.keys ↔ ∃ v, d.get? k = some v := by
  simp only [keys,List.mem_map,Prod.exists,exists_and_right,exists_eq_right,mem_entries_iff]

/-- An assignment and a deletion, of the dictionary as a partial function. -/
theorem get?_insert_eq_update (d : Dict κ ν) (k : κ) (v : ν) : (d.insert k v).get? = Function.update d.get? k (some v) := by
  funext j
  rw [get?_insert,Function.update_apply]
theorem get?_erase_eq_update (d : Dict κ ν) (k : κ) : (d.erase k).get? = Function.update d.get? k none := by
  funext j
  rw [get?_erase,Function.update_apply]

/-- What an assignment does to a partial function of the values. -/
theorem bind_get?_insert {β : Type*} (d : Dict κ ν) (f : ν → Option β) (k : κ) (v : ν) :
    (fun j => ((d.insert k v).get? j).bind f) = Function.update (fun j => (d.get? j).bind f) k (f v) := by
  funext j
  rw [get?_insert,Function.update_apply]
  split
  · rfl
  · rfl
theorem exists_bind_get?_iff {β : Type*} (d : Dict κ ν) (f : ν → Option β) (b : β) :
    (∃ k, (d.get? k).bind f = some b) ↔ ∃ e ∈ d.entries, f e.2 = some b := by
  constructor
  · rintro ⟨k,bound⟩
    obtain ⟨v,found,image⟩ := Option.bind_eq_some_iff.mp bound
    exact ⟨(k,v),(mem_entries_iff d k v).mpr found,image⟩
  · rintro ⟨⟨k,v⟩,member,image⟩
    exact ⟨k,Option.bind_eq_some_iff.mpr ⟨v,(mem_entries_iff d k v).mp member,image⟩⟩

/-- A loop that assigns to the keys of its items what it makes of their values. -/
theorem get?_foldl_update {α : Type*} (key : α → κ) (update : Option ν → α → ν) (items : List α) (d : Dict κ ν) (k : κ) :
    (items.foldl (fun d a => d.insert (key a) (update (d.get? (key a)) a)) d).get? k =
      (items.filter (fun a => key a = k)).foldl (fun value a => some (update value a)) (d.get? k) := by
  induction items generalizing d with
  | nil => rfl
  | cons a rest ih =>
    rw [List.foldl_cons,ih,get?_insert]
    by_cases same : key a = k
    · simp [same]
    · simp [same,Ne.symm same]

/-- Values that carry their own keys. -/
theorem values_map_eq_keys (d : Dict κ ν) {label : ν → κ} (labelled : ∀ k v, d.get? k = some v → label v = k) :
    d.values.map label = d.keys := by
  rw [values,keys,List.map_map]
  refine List.map_congr_left ?_
  rintro ⟨k,v⟩ member
  exact labelled k v ((mem_entries_iff _ _ _).mp member)

theorem entries_eq_nil_iff (d : Dict κ ν) : d.entries = [] ↔ ∀ k, d.get? k = none := by
  constructor
  · intro none k; simp [get?,none,lookup]
  · intro none
    rw [List.eq_nil_iff_forall_not_mem]
    rintro ⟨k,v⟩ member
    rw [mem_entries_iff,none k] at member
    cases member

/-! ### First assignments -/

/-- `d.setdefault(k, v)`: a key that is present keeps its value. -/
def setDefault (d : Dict κ ν) (k : κ) (v : ν) : Dict κ ν := if (d.get? k).isSome then d else d.insert k v
/-- One after the other, so that the first value of a key stays. -/
def setDefaults (d : Dict κ ν) (items : List (κ × ν)) : Dict κ ν := items.foldl (fun d e => d.setDefault e.1 e.2) d

theorem get?_setDefault (d : Dict κ ν) (k j : κ) (v : ν) :
    (d.setDefault k v).get? j = (d.get? j).or (if j = k then some v else none) := by
  rw [setDefault]
  by_cases same : j = k
  · subst same
    cases found : d.get? j with
    | none => simp
    | some w => simp [found]
  · rw [if_neg same,Option.or_none]
    split
    · rfl
    · rw [get?_insert,if_neg same]

theorem setDefaults_append (d : Dict κ ν) (items more : List (κ × ν)) :
    d.setDefaults (items ++ more) = (d.setDefaults items).setDefaults more := List.foldl_append

theorem get?_setDefaults (items : List (κ × ν)) (d : Dict κ ν) (k : κ) :
    (d.setDefaults items).get? k = (d.get? k).or ((items.find? (fun e => e.1 = k)).map Prod.snd) := by
  induction items generalizing d with
  | nil => simp [setDefaults]
  | cons e rest ih =>
    have first : (d.setDefaults (e :: rest)) = (d.setDefault e.1 e.2).setDefaults rest := rfl
    rw [first,ih,get?_setDefault,Option.or_assoc]
    by_cases same : e.1 = k
    · simp [same]
    · simp [same,Ne.symm same]

theorem length_setDefault (d : Dict κ ν) (k : κ) (v : ν) :
    (d.setDefault k v).entries.length = d.entries.length + if (d.get? k).isSome then 0 else 1 := by
  rw [setDefault]
  split
  · rfl
  · next absent => rw [entries_insert_of_absent (Option.not_isSome_iff_eq_none.mp absent),List.length_append,List.length_singleton]
theorem length_le_setDefaults (items : List (κ × ν)) (d : Dict κ ν) :
    d.entries.length ≤ (d.setDefaults items).entries.length := by
  induction items generalizing d with
  | nil => exact Nat.le_refl _
  | cons e rest ih =>
    refine Nat.le_trans ?_ (ih (d.setDefault e.1 e.2))
    rw [length_setDefault]
    exact Nat.le_add_right ..

/-! ### Renamed keys -/

section
variable {κ' ν' : Type*} [DecidableEq κ'] (f : κ → κ') (g : ν → ν')

/-- The entries with new keys and values. -/
def rename (injective : Function.Injective f) (d : Dict κ ν) : Dict κ' ν' where
  entries := d.entries.map (Prod.map f g)
  nodupKeys := by
    have keys : (d.entries.map (Prod.map f g)).map Prod.fst = (d.entries.map Prod.fst).map f := by
      rw [List.map_map,List.map_map]
      rfl
    rw [keys]
    exact d.nodupKeys.map injective

variable {f} (injective : Function.Injective f)
include injective

theorem lookup_map (es : List (κ × ν)) (k : κ) : lookup (f k) (es.map (Prod.map f g)) = (lookup k es).map g := by
  induction es with
  | nil => rfl
  | cons e rest ih =>
    obtain ⟨j,w⟩ := e
    by_cases same : j = k
    · simp [lookup,same]
    · simp [lookup,same,injective.ne same,ih]
theorem assign_map (es : List (κ × ν)) (k : κ) (v : ν) :
    assign (f k) (g v) (es.map (Prod.map f g)) = (assign k v es).map (Prod.map f g) := by
  induction es with
  | nil => rfl
  | cons e rest ih =>
    obtain ⟨j,w⟩ := e
    by_cases same : j = k
    · simp [assign,same]
    · simp [assign,same,injective.ne same,ih]

theorem get?_rename (d : Dict κ ν) (k : κ) : (d.rename f g injective).get? (f k) = (d.get? k).map g :=
  lookup_map g injective d.entries k
theorem insert_rename (d : Dict κ ν) (k : κ) (v : ν) :
    (d.rename f g injective).insert (f k) (g v) = (d.insert k v).rename f g injective := by
  have entries := assign_map g injective d.entries k v
  unfold insert rename
  congr
omit [DecidableEq κ] [DecidableEq κ'] in
theorem filter_rename (d : Dict κ ν) {p : κ × ν → Bool} {q : κ' × ν' → Bool} (same : ∀ e, q (Prod.map f g e) = p e) :
    (d.rename f g injective).filter q = (d.filter p).rename f g injective := by
  have entries : (d.entries.map (Prod.map f g)).filter q = (d.entries.filter p).map (Prod.map f g) := by
    rw [List.filter_map]
    exact congrArg _ (List.filter_congr fun e _ => same e)
  unfold filter rename
  congr
theorem erase_rename (d : Dict κ ν) (k : κ) : (d.rename f g injective).erase (f k) = (d.erase k).rename f g injective :=
  filter_rename g injective d fun e => by simp [injective.eq_iff]
omit [DecidableEq κ] [DecidableEq κ'] in
theorem values_rename (d : Dict κ ν) : (d.rename f g injective).values = d.values.map g := by
  rw [values,values,rename,List.map_map,List.map_map]
  rfl
omit [DecidableEq κ] [DecidableEq κ'] in
theorem keys_rename (d : Dict κ ν) : (d.rename f g injective).keys = d.keys.map f := by
  rw [keys,keys,rename,List.map_map,List.map_map]
  rfl

end

end Dict
end FundingRadar
