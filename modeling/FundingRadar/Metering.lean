import Mathlib.Algebra.Order.Field.Basic
import Mathlib.Tactic.Linarith
import Mathlib.Tactic.Ring
import Mathlib.Data.List.Pairwise

/-!
A meter that hands out units from a level. Every request first adds a credit to the
level, which never exceeds a capacity, and then takes one unit if the level has one.
What a meter hands out is bounded by its capacity and the credits (`served_le`).
A meter that credits the time since its previous request credits the forward
movements of its clock (`rise`), which cover every stretch of time at most once when
the clock never goes back (`rise_le_span`).
-/
namespace FundingRadar.Metering
set_option linter.unusedSectionVars false
variable {K : Type*} [Field K] [LinearOrder K] [IsStrictOrderedRing K]

/-- The level that a request finds. -/
def credit (capacity level amount : K) : K := min capacity (level + amount)
/-- The level that a request leaves. -/
def leave (level : K) : K := if 1 ≤ level then level - 1 else level
/-- The units that a request gets. -/
def take (level : K) : ℕ := if 1 ≤ level then 1 else 0

theorem take_add_leave (level : K) : (take level : K) + leave level = level := by
  unfold take leave
  split
  · rw [Nat.cast_one]
    exact add_sub_cancel 1 level
  · rw [Nat.cast_zero,zero_add]

theorem leave_nonneg {level : K} (nonneg : 0 ≤ level) : 0 ≤ leave level := by
  unfold leave
  split
  · next enough => exact sub_nonneg.mpr enough
  · exact nonneg

theorem credit_nonneg {capacity level amount : K} (size : 0 ≤ capacity) (nonneg : 0 ≤ level) (forward : 0 ≤ amount) :
    0 ≤ credit capacity level amount :=
  le_min size (add_nonneg nonneg forward)
theorem credit_le_capacity (capacity level amount : K) : credit capacity level amount ≤ capacity := min_le_left ..
theorem credit_le (capacity level amount : K) : credit capacity level amount ≤ level + amount := min_le_right ..

/-- The units that a sequence of credited requests gets. -/
def served (capacity : K) : K → List K → ℕ
  | _,[] => 0
  | level,amount :: rest =>
    take (credit capacity level amount) + served capacity (leave (credit capacity level amount)) rest

/-- The level pays for what the credits do not. -/
theorem served_le {capacity level : K} (amounts : List K) (size : 0 ≤ capacity) (nonneg : 0 ≤ level)
    (forward : ∀ amount ∈ amounts, 0 ≤ amount) : (served capacity level amounts : K) ≤ level + amounts.sum := by
  induction amounts generalizing level with
  | nil => simpa [served] using nonneg
  | cons amount rest ih =>
    have first : 0 ≤ amount := forward amount (List.mem_cons_self ..)
    have found : 0 ≤ credit capacity level amount := credit_nonneg size nonneg first
    have later := ih (leave_nonneg found) (fun a member => forward a (List.mem_cons_of_mem _ member))
    have account := take_add_leave (credit capacity level amount)
    have bounded := credit_le capacity level amount
    rw [served,Nat.cast_add,List.sum_cons]
    linarith

/-! ### Clocks -/

/-- The total of the forward movements of a clock, from its reading at `last`. -/
def riseFrom (last : K) : List K → K
  | [] => 0
  | now :: rest => max 0 (now - last) + riseFrom now rest
/-- The total of the forward movements between the readings of a clock. -/
def rise : List K → K
  | [] => 0
  | now :: rest => riseFrom now rest
/-- The distance between the smallest and the largest reading of a clock. -/
def span : List K → K
  | [] => 0
  | now :: rest => rest.foldl max now - rest.foldl min now

/-- The forward movements that a meter with this clock credits. -/
def movements (last : K) : List K → List K
  | [] => []
  | now :: rest => max 0 (now - last) :: movements now rest

theorem movements_sum (last : K) (readings : List K) : (movements last readings).sum = riseFrom last readings := by
  induction readings generalizing last with
  | nil => rfl
  | cons now rest ih => rw [movements,riseFrom,List.sum_cons,ih]

theorem movements_nonneg (last : K) (readings : List K) : ∀ amount ∈ movements last readings, 0 ≤ amount := by
  induction readings generalizing last with
  | nil => intro amount member; cases member
  | cons now rest ih =>
    intro amount member
    rcases List.mem_cons.mp member with rfl | later
    · exact le_max_left ..
    · exact ih now amount later

theorem foldl_min_le (first : K) (readings : List K) : readings.foldl min first ≤ first := by
  induction readings generalizing first with
  | nil => exact le_refl _
  | cons now rest ih => exact (ih (min first now)).trans (min_le_left ..)

/-- A clock that never goes back credits no stretch of time twice. -/
theorem rise_le_span (readings : List K) (forward : readings.Pairwise (· ≤ ·)) : rise readings ≤ span readings := by
  cases readings with
  | nil => exact le_refl _
  | cons first rest =>
    have total : ∀ (last : K) (rest : List K), (last :: rest).Pairwise (· ≤ ·) →
        riseFrom last rest = rest.foldl max last - last := by
      intro last rest
      induction rest generalizing last with
      | nil => intro _; rw [riseFrom,List.foldl_nil,sub_self]
      | cons now rest ih =>
        intro sorted
        obtain ⟨before,later⟩ := List.pairwise_cons.mp sorted
        have le : last ≤ now := before now (List.mem_cons_self ..)
        rw [riseFrom,ih now later,List.foldl_cons,max_eq_right (sub_nonneg.mpr le),max_eq_right le]
        ring
    have low := foldl_min_le first rest
    show riseFrom first rest ≤ rest.foldl max first - rest.foldl min first
    rw [total first rest forward]
    linarith

end FundingRadar.Metering
