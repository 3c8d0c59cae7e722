import Mathlib.Logic.Function.Basic

/-!
A cache beside the store whose values it keeps. Readers fill it with what they read
before, the store changes behind it, and a writer that has changed the store owes the
deletion of one key. A value may be out of date as long as the deletion of its key is
owed (`Covered`). Every operation says when it keeps that so, and once nothing is owed
whatever is cached is valid (`Covered.valid`).
-/
namespace FundingRadar.CacheAside

/-- Which values the store bears out, what is cached, and the key that each writer has yet
    to delete. -/
structure Aside (κ ν ω : Type*) where
  valid : κ → ν → Prop
  cached : κ → Option ν
  owed : ω → Option κ

namespace Aside
variable {κ ν ω : Type*}

/-- Some writer has yet to delete the key. -/
def Owed (s : Aside κ ν ω) (k : κ) : Prop := ∃ w, s.owed w = some k
def Covered (s : Aside κ ν ω) : Prop := ∀ k v, s.cached k = some v → s.valid k v ∨ s.Owed k

/-- The store changes behind the cache. -/
def become (s : Aside κ ν ω) (valid : κ → ν → Prop) : Aside κ ν ω := { s with valid := valid }

section
variable [DecidableEq κ]
def fill (s : Aside κ ν ω) (k : κ) (v : ν) : Aside κ ν ω := { s with cached := Function.update s.cached k (some v) }
def expire (s : Aside κ ν ω) (k : κ) : Aside κ ν ω := { s with cached := Function.update s.cached k none }
end
section
variable [DecidableEq ω]
def owe (s : Aside κ ν ω) (w : ω) (k : κ) : Aside κ ν ω := { s with owed := Function.update s.owed w (some k) }
/-- A writer gives up without deleting anything. -/
def release (s : Aside κ ν ω) (w : ω) : Aside κ ν ω := { s with owed := Function.update s.owed w none }
/-- A writer deletes the key that it owes. -/
def pay [DecidableEq κ] (s : Aside κ ν ω) (w : ω) : Aside κ ν ω :=
  match s.owed w with
  | none => s
  | some k => { s.expire k with owed := Function.update s.owed w none }
end

variable {s : Aside κ ν ω}

theorem Covered.valid (covered : s.Covered) {k : κ} (settled : ¬ s.Owed k) {v : ν} (held : s.cached k = some v) :
    s.valid k v :=
  (covered k v held).resolve_right settled

theorem covered_of_empty (empty : ∀ k, s.cached k = none) : s.Covered := by
  intro k v held
  rw [empty] at held
  cases held

/-- A change keeps the cache covered if it leaves every cached value valid or owed. -/
theorem Covered.become (covered : s.Covered) {valid : κ → ν → Prop}
    (spares : ∀ k v, s.cached k = some v → s.valid k v → valid k v ∨ s.Owed k) : (s.become valid).Covered := by
  intro k v held
  rcases covered k v held with stood | owed
  · exact spares k v held stood
  · exact .inr owed

section
variable [DecidableEq κ]

/-- A fill keeps the cache covered exactly when its value is valid or owed. -/
theorem covered_fill_iff (covered : s.Covered) (k : κ) (v : ν) : (s.fill k v).Covered ↔ s.valid k v ∨ s.Owed k := by
  constructor
  · intro after
    exact after k v (Function.update_self ..)
  · intro good j u held
    change Function.update s.cached k (some v) j = some u at held
    by_cases same : j = k
    · subst same
      rw [Function.update_self] at held
      cases held
      exact good
    · rw [Function.update_of_ne same] at held
      exact covered j u held

/-- What is cached without a key is cached, under another one. -/
theorem cached_of_forgotten {k j : κ} {u : ν} (held : Function.update s.cached k none j = some u) :
    j ≠ k ∧ s.cached j = some u := by
  by_cases same : j = k
  · subst same
    rw [Function.update_self] at held
    cases held
  · rw [Function.update_of_ne same] at held
    exact ⟨same,held⟩

theorem Covered.expire (covered : s.Covered) (k : κ) : (s.expire k).Covered := by
  intro j u held
  exact covered j u (cached_of_forgotten held).2
end

section
variable [DecidableEq ω]

theorem owed_owe (s : Aside κ ν ω) (w : ω) (k : κ) : (s.owe w k).Owed k := ⟨w,Function.update_self ..⟩
/-- A writer that owes nothing can come to owe a key. -/
theorem Owed.owe {j : κ} (owed : s.Owed j) {w : ω} (free : s.owed w = none) (k : κ) : (s.owe w k).Owed j := by
  obtain ⟨w',held⟩ := owed
  have other : w' ≠ w := by
    rintro rfl
    rw [free] at held
    cases held
  exact ⟨w',(Function.update_of_ne other _ _).trans held⟩
theorem Covered.owe (covered : s.Covered) {w : ω} (free : s.owed w = none) (k : κ) : (s.owe w k).Covered :=
  fun j u held => (covered j u held).imp_right (fun owed => owed.owe free k)

/-- A writer may give up whose key is not cached, valid or owed by another writer. -/
theorem Covered.release (covered : s.Covered) {w : ω}
    (spare : ∀ k v, s.owed w = some k → s.cached k = some v → s.valid k v ∨ ∃ w', w' ≠ w ∧ s.owed w' = some k) :
    (s.release w).Covered := by
  intro k v held
  have others : ∀ w', w' ≠ w → s.owed w' = some k → (s.release w).Owed k :=
    fun w' other owes => ⟨w',(Function.update_of_ne other _ _).trans owes⟩
  rcases covered k v held with stands | ⟨w',owes⟩
  · exact .inl stands
  · by_cases same : w' = w
    · subst same
      rcases spare k v owes held with stands | ⟨w'',other,owes'⟩
      · exact .inl stands
      · exact .inr (others w'' other owes')
    · exact .inr (others w' same owes)

/-- A deletion leaves only keys whose own deletions are still owed. -/
theorem Covered.pay [DecidableEq κ] (covered : s.Covered) (w : ω) : (s.pay w).Covered := by
  unfold Aside.pay
  cases owes : s.owed w with
  | none => exact covered
  | some k =>
    intro j u held
    obtain ⟨other,before⟩ := cached_of_forgotten held
    rcases covered j u before with stands | ⟨w',owes'⟩
    · exact .inl stands
    · refine .inr ⟨w',(Function.update_of_ne ?_ _ _).trans owes'⟩
      rintro rfl
      rw [owes] at owes'
      exact other (Option.some.inj owes').symm
end

end Aside
end FundingRadar.CacheAside
