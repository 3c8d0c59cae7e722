import Mathlib.Logic.Function.Basic

/-!
A register that several writers set through messages, one of each writer at a time.
Messages in flight arrive in any order, so the value may be one that was sent before the
last one. Whether it ends as the value sent last is decided at each arrival
(`current_arrive_iff`).
-/
namespace FundingRadar.LastWriter

/-- The value of the register, the messages in flight, and the last message sent. -/
structure Register (ω ν : Type*) where
  value : Option ν
  inFlight : ω → Option ν
  last : Option (ω × ν)

variable {ω ν : Type*} [DecidableEq ω]

namespace Register

/-- A register to which nothing has been sent. -/
def start (value : Option ν) : Register ω ν := ⟨value,fun _ => none,none⟩
def send (r : Register ω ν) (w : ω) (v : ν) : Register ω ν := ⟨r.value,Function.update r.inFlight w (some v),some (w,v)⟩
/-- The message of a writer arrives, if it has one in flight. -/
def arrive (r : Register ω ν) (w : ω) : Register ω ν :=
  match r.inFlight w with
  | none => r
  | some v => ⟨some v,Function.update r.inFlight w none,r.last⟩

def Quiet (r : Register ω ν) : Prop := ∀ w, r.inFlight w = none
/-- The value is the one that was sent last. -/
def Latest (r : Register ω ν) : Prop := ∀ w v, r.last = some (w,v) → r.value = some v
/-- The message sent last is in flight, or its value stands. -/
def Current (r : Register ω ν) : Prop :=
  ∀ w v, r.last = some (w,v) → r.inFlight w = some v ∨ r.inFlight w = none ∧ r.value = some v
/-- The message of a writer is not the first to arrive after the one sent last did, or it
    carries the same value. -/
def InOrder (r : Register ω ν) (w : ω) : Prop :=
  ∀ v ∈ r.inFlight w, ∀ last ∈ r.last, r.inFlight last.1 = some last.2 ∨ v = last.2
instance [DecidableEq ν] (r : Register ω ν) (w : ω) : Decidable (r.InOrder w) :=
  inferInstanceAs (Decidable (∀ v ∈ r.inFlight w, ∀ last ∈ r.last, r.inFlight last.1 = some last.2 ∨ v = last.2))

variable {r : Register ω ν} {w : ω}

theorem inFlight_send_self (r : Register ω ν) (w : ω) (v : ν) : (r.send w v).inFlight w = some v := Function.update_self ..
theorem inFlight_send_of_ne (r : Register ω ν) {w w' : ω} (other : w' ≠ w) (v : ν) : (r.send w v).inFlight w' = r.inFlight w' :=
  Function.update_of_ne other _ _
theorem arrive_of_none (none : r.inFlight w = none) : r.arrive w = r := by
  rw [arrive,none]
theorem inFlight_arrive_self (r : Register ω ν) (w : ω) : (r.arrive w).inFlight w = none := by
  unfold arrive
  split
  next none => exact none
  next => exact Function.update_self ..
theorem inFlight_arrive_of_ne (r : Register ω ν) {w w' : ω} (other : w' ≠ w) : (r.arrive w).inFlight w' = r.inFlight w' := by
  unfold arrive
  split
  next => rfl
  next => exact Function.update_of_ne other _ _

theorem value_arrive {v : ν} (sent : r.inFlight w = some v) : (r.arrive w).value = some v := by
  rw [arrive,sent]
theorem value_arrive_of_sent (sent : r.inFlight w ≠ none) : (r.arrive w).value ≠ none := by
  unfold arrive
  split
  next none => exact absurd none sent
  next => exact Option.some_ne_none _

omit [DecidableEq ω] in
theorem Current.latest (current : r.Current) (quiet : r.Quiet) : r.Latest := by
  intro w v last
  rcases current w v last with sent | ⟨-,stands⟩
  · rw [quiet w] at sent
    cases sent
  · exact stands

omit [DecidableEq ω] in
theorem current_start (value : Option ν) : (start value : Register ω ν).Current := by
  intro w v last
  cases last
theorem current_send (r : Register ω ν) (w : ω) (v : ν) : (r.send w v).Current := by
  intro w' v' last
  cases last
  exact .inl (Function.update_self ..)

/-- An arrival keeps the last message current exactly when it is in order. -/
theorem current_arrive_iff (current : r.Current) (w : ω) : (r.arrive w).Current ↔ r.InOrder w := by
  unfold arrive InOrder
  cases sent : r.inFlight w with
  | none =>
    refine iff_of_true current ?_
    intro v impossible
    cases impossible
  | some v =>
    constructor
    · rintro after v₁ same ⟨w',v'⟩ last
      cases same
      rcases current w' v' last with still | ⟨arrived,-⟩
      · exact .inl still
      · have other : w' ≠ w := by
          rintro rfl
          rw [sent] at arrived
          cases arrived
        rcases after w' v' last with impossible | ⟨-,stands⟩
        · change Function.update r.inFlight w none w' = some v' at impossible
          rw [Function.update_of_ne other,arrived] at impossible
          cases impossible
        · exact .inr (Option.some.inj stands)
    · intro inOrder w' v' last
      by_cases own : w' = w
      · subst own
        rcases current w' v' last with same | ⟨impossible,-⟩
        · rw [sent] at same
          exact .inr ⟨Function.update_self ..,same⟩
        · rw [sent] at impossible
          cases impossible
      · show Function.update r.inFlight w none w' = some v' ∨ Function.update r.inFlight w none w' = none ∧ some v = some v'
        rw [Function.update_of_ne own]
        rcases current w' v' last with still | ⟨arrived,-⟩
        · exact .inl still
        · rcases inOrder v rfl (w',v') last with impossible | same
          · rw [arrived] at impossible
            cases impossible
          · exact .inr ⟨arrived,congrArg some same⟩

end Register
end FundingRadar.LastWriter
