import Mathlib.Algebra.Order.Group.Defs

/-!
A value that is renewed by jobs. A new job begins within a gap of the last one, and every job
renews the value before it has run for some duration. How old the value can get does not follow
from the last job alone, since several may run at once and owe their renewal: what bounds it is
that the last job has renewed it, or that some job which owes it began within a gap of the last
renewal (`Covered`).
-/
namespace FundingRadar.Renewals
variable {ι τ : Type*} [AddCommGroup τ] [LinearOrder τ] [IsOrderedAddMonoid τ]
set_option linter.unusedSectionVars false

/-- The last job to begin has renewed the value, or a job that still owes it began in time.
    `owing` has the jobs that owe it, with when they began. -/
def Covered (gap started : τ) (owing : ι → Option τ) (renewed : τ) : Prop :=
  started ≤ renewed ∨ ∃ i s, owing i = some s ∧ s ≤ renewed + gap

variable {gap started renewed now duration : τ} {owing : ι → Option τ}

/-- A job that runs owes the value as before. -/
theorem Covered.keep (covered : Covered gap started owing renewed) {owing' : ι → Option τ}
    (owes : ∀ i s, owing i = some s → owing' i = some s) : Covered gap started owing' renewed := by
  rcases covered with after | ⟨i,s,owed,inTime⟩
  · exact .inl after
  · exact .inr ⟨i,s,owes i s owed,inTime⟩

theorem Covered.begin (covered : Covered gap started owing renewed) {owing' : ι → Option τ} {i : ι} (begun : owing' i = some now)
    (owes : ∀ j s, owing j = some s → owing' j = some s) (inTime : now ≤ started + gap) : Covered gap now owing' renewed := by
  rcases covered with after | ⟨j,s,owed,before⟩
  · exact .inr ⟨i,now,begun,inTime.trans (add_le_add_left after gap)⟩
  · exact .inr ⟨j,s,owes j s owed,before⟩

theorem Covered.renew (past : started ≤ now) (owing : ι → Option τ) : Covered gap started owing now := .inl past

/-- How old the value gets. -/
theorem Covered.age (covered : Covered gap started owing renewed) (inTime : now ≤ started + gap)
    (ends : ∀ i s, owing i = some s → now ≤ s + duration) (nonneg : 0 ≤ duration) : now ≤ renewed + (gap + duration) := by
  rw [← add_assoc]
  rcases covered with after | ⟨i,s,owed,before⟩
  · calc now ≤ started + gap := inTime
      _ ≤ renewed + gap := add_le_add_left after gap
      _ ≤ renewed + gap + duration := le_add_of_nonneg_right nonneg
  · calc now ≤ s + duration := ends i s owed
      _ ≤ renewed + gap + duration := add_le_add_left before duration

end FundingRadar.Renewals
