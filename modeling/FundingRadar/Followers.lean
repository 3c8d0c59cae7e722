import Mathlib.Data.List.Induction
import Mathlib.Logic.Function.Basic

/-!
A keyed store that follows a log through a queue. Entries are appended to the log and to the
queue; the store takes them from the queue, and may forget a key. Under a key the store has the
last entry of the log unless that is still in the queue or has been forgotten (`Follows`), and
every operation of the log, the queue and the store keeps it so.
-/
namespace FundingRadar.Followers
variable {κ ν : Type*} [DecidableEq κ] {key : ν → κ}

/-- The last entry with a key. -/
def lastOf (key : ν → κ) (entries : List ν) (k : κ) : Option ν := (entries.filter (fun v => key v = k)).getLast?

/-- Under the key, the store has the last entry of the log, which otherwise is still queued or has
    been forgotten. -/
def Follows (key : ν → κ) (log queue : List ν) (held : Option ν) (forgotten : Prop) (k : κ) : Prop :=
  ∀ v, lastOf key log k = some v →
    lastOf key queue k = some v ∨ lastOf key queue k = none ∧ (held = some v ∨ held = none ∧ forgotten)

theorem lastOf_append (entries more : List ν) (k : κ) :
    lastOf key (entries ++ more) k = (lastOf key more k).or (lastOf key entries k) := by
  rw [lastOf,List.filter_append,List.getLast?_append]
  rfl
theorem lastOf_singleton (v : ν) (k : κ) : lastOf key [v] k = if key v = k then some v else none := by
  unfold lastOf
  by_cases same : key v = k
  · simp [same]
  · simp [same]
theorem lastOf_cons (v : ν) (entries : List ν) (k : κ) :
    lastOf key (v :: entries) k = (lastOf key entries k).or (if key v = k then some v else none) := by
  rw [← lastOf_singleton]
  exact lastOf_append [v] entries k
theorem lastOf_mem {entries : List ν} {k : κ} {v : ν} (found : lastOf key entries k = some v) : v ∈ entries ∧ key v = k := by
  have member := List.mem_of_getLast? found
  obtain ⟨inside,same⟩ := List.mem_filter.mp member
  exact ⟨inside,of_decide_eq_true same⟩

variable {log queue : List ν} {held : Option ν} {forgotten : Prop} {k : κ}

/-- Nothing has been appended yet. -/
theorem Follows.nil (held : Option ν) (forgotten : Prop) (k : κ) : Follows key [] [] held forgotten k :=
  fun _ impossible => by cases impossible

theorem Follows.append (follows : Follows key log queue held forgotten k) (v : ν) :
    Follows key (log ++ [v]) (queue ++ [v]) held forgotten k := by
  intro w last
  rw [lastOf_append,lastOf_singleton] at last ⊢
  by_cases mine : key v = k
  · rw [if_pos mine] at last ⊢
    exact .inl last
  · rw [if_neg mine] at last ⊢
    exact follows w last

/-- An entry of another key, which may go through another queue. -/
theorem Follows.append_other (follows : Follows key log queue held forgotten k) {v : ν} (other : key v ≠ k) :
    Follows key (log ++ [v]) queue held forgotten k := by
  intro w last
  rw [lastOf_append,lastOf_singleton,if_neg other] at last
  exact follows w last

/-- The store takes the next entry of the queue. -/
theorem Follows.consume {v : ν} (follows : Follows key log (v :: queue) held forgotten k) {held' : Option ν}
    (own : key v = k → held' = some v) (others : key v ≠ k → held' = held) : Follows key log queue held' forgotten k := by
  intro w last
  have before := follows w last
  rw [lastOf_cons] at before
  cases later : lastOf key queue k with
  | some u =>
    rw [later] at before
    exact .inl (before.resolve_right fun impossible => by cases impossible.1)
  | none =>
    rw [later] at before
    refine .inr ⟨rfl,?_⟩
    by_cases mine : key v = k
    · rw [if_pos mine] at before
      rcases before with here | ⟨impossible,-⟩
      · exact .inl ((own mine).trans here)
      · cases impossible
    · rw [if_neg mine] at before
      rw [others mine]
      exact (before.resolve_left fun impossible => by cases impossible).2

/-- The store keeps what it has, or forgets it. -/
theorem Follows.forget (follows : Follows key log queue held forgotten k) {held' : Option ν} {forgotten' : Prop}
    (still : forgotten → forgotten') (less : held' = held ∨ held' = none ∧ forgotten') :
    Follows key log queue held' forgotten' k := by
  intro w last
  rcases follows w last with queued | ⟨taken,has | ⟨gone,before⟩⟩
  · exact .inl queued
  · rcases less with same | ⟨none,now⟩
    · exact .inr ⟨taken,.inl (same.trans has)⟩
    · exact .inr ⟨taken,.inr ⟨none,now⟩⟩
  · rcases less with same | ⟨none,now⟩
    · exact .inr ⟨taken,.inr ⟨same.trans gone,still before⟩⟩
    · exact .inr ⟨taken,.inr ⟨none,now⟩⟩

/-- Once no entry of the key is queued, the store has the last one, or has forgotten it. -/
theorem Follows.settled (follows : Follows key log queue held forgotten k) (taken : ∀ v ∈ queue, key v ≠ k) {v : ν}
    (last : lastOf key log k = some v) : held = some v ∨ held = none ∧ forgotten := by
  rcases follows v last with queued | ⟨-,has⟩
  · obtain ⟨inside,same⟩ := lastOf_mem queued
    exact absurd same (taken v inside)
  · exact has

end FundingRadar.Followers
