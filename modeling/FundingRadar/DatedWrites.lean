import Mathlib.Algebra.Order.Group.Defs
import FundingRadar.LastWriter

/-!
A register whose writers make what they send. A writer makes a value in the job that it is in,
and sends it; the register is set later, in whatever order the messages arrive. Where a job ends
within some duration, the register never holds what was made longer than that before it was set
(`Dated`).
-/
namespace FundingRadar.DatedWrites
open LastWriter
variable {ω ν τ : Type*} [DecidableEq ω] [AddCommGroup τ] [LinearOrder τ] [IsOrderedAddMonoid τ]
set_option linter.unusedSectionVars false

/-- `made v t` says that `v` was made at `t`, `begun` when a writer began its job, and `setAt` when
    the register was set. -/
structure Dated (made : ν → τ → Prop) (duration : τ) (begun : ω → τ) (setAt : Option τ) (r : Register ω ν) : Prop where
  inFlight : ∀ w v, r.inFlight w = some v → ∃ t, made v t ∧ begun w ≤ t
  value : ∀ v, r.value = some v → ∃ t u, made v t ∧ setAt = some u ∧ u ≤ t + duration

variable {made made' : ν → τ → Prop} {duration now : τ} {begun begun' : ω → τ} {setAt : Option τ} {r : Register ω ν} {w : ω}

theorem dated_start (made : ν → τ → Prop) (duration : τ) (begun : ω → τ) : Dated made duration begun none (.start none) :=
  ⟨(fun _ _ impossible => by cases impossible),(fun _ impossible => by cases impossible)⟩

/-- Other writers may begin jobs. -/
theorem Dated.keep (dated : Dated made duration begun setAt r) (still : ∀ v t, made v t → made' v t)
    (busy : ∀ w, r.inFlight w ≠ none → begun' w = begun w) : Dated made' duration begun' setAt r where
  inFlight w v sent := by
    obtain ⟨t,was,since⟩ := dated.inFlight w v sent
    have same := busy w fun impossible => by rw [sent] at impossible; cases impossible
    exact ⟨t,still v t was,same.trans_le since⟩
  value v holds := by
    obtain ⟨t,u,was,set,inTime⟩ := dated.value v holds
    exact ⟨t,u,still v t was,set,inTime⟩

theorem Dated.send (dated : Dated made duration begun setAt r) {v : ν} {t : τ} (fresh : made v t) (since : begun w ≤ t) :
    Dated made duration begun setAt (r.send w v) where
  inFlight w' v' sent := by
    by_cases mine : w' = w
    · subst mine
      rw [Register.inFlight_send_self] at sent
      cases sent
      exact ⟨t,fresh,since⟩
    · rw [Register.inFlight_send_of_ne _ mine] at sent
      exact dated.inFlight w' v' sent
  value := dated.value

/-- The message of a writer arrives, in the job in which it was sent. -/
theorem Dated.arrive (dated : Dated made duration begun setAt r) (inTime : r.inFlight w ≠ none → now ≤ begun w + duration) :
    Dated made duration begun (if r.inFlight w ≠ none then some now else setAt) (r.arrive w) := by
  by_cases sent : r.inFlight w = none
  · rw [if_neg (not_not.mpr sent),Register.arrive_of_none sent]
    exact dated
  · rw [if_pos sent]
    refine ⟨fun w' v' flies => ?_,fun v holds => ?_⟩
    · by_cases mine : w' = w
      · subst mine
        rw [Register.inFlight_arrive_self] at flies
        cases flies
      · rw [Register.inFlight_arrive_of_ne _ mine] at flies
        exact dated.inFlight w' v' flies
    · obtain ⟨v',flew⟩ := Option.ne_none_iff_exists'.mp sent
      rw [Register.value_arrive flew] at holds
      cases holds
      obtain ⟨t,was,since⟩ := dated.inFlight w v flew
      exact ⟨t,now,was,rfl,(inTime sent).trans (add_le_add_left since duration)⟩

end FundingRadar.DatedWrites
