import Mathlib.Algebra.Order.Field.Basic
import Mathlib.Algebra.Order.Ring.Rat
import Mathlib.Tactic.Linarith
import Mathlib.Tactic.Ring

/-!
The loop of a collector that keeps its WebSocket connected. It sleeps after an attempt that
raised, for a delay that doubles up to its maximum (`doubled`), and not at all after one
that returned, although a server that closes the connection normally ends it this way.
-/
namespace FundingRadar

/-- `ws_reconnect_delay_min` and `ws_reconnect_delay_max` of a configuration. -/
structure ReconnectDelays where
  min : ℚ
  max : ℚ
  minPos : 0 < min
  minLeMax : min ≤ max

namespace ReconnectDelays

/-- The delay after some failures in a row. -/
def doubled (d : ReconnectDelays) (failures : ℕ) : ℚ := Min.min (d.min * 2 ^ failures) d.max

variable (d : ReconnectDelays) (k : ℕ)

theorem doubled_zero : d.doubled 0 = d.min := by
  rw [doubled,pow_zero,mul_one]
  exact min_eq_left d.minLeMax
theorem doubled_succ : Min.min (d.doubled k * 2) d.max = d.doubled (k + 1) := by
  have maxPos : 0 ≤ d.max := d.minPos.le.trans d.minLeMax
  have beyond : d.max ≤ d.max * 2 := by linarith
  have further : d.min * 2 ^ (k + 1) = d.min * 2 ^ k * 2 := by ring
  rw [doubled,doubled,further,min_mul_of_nonneg _ _ zero_le_two,min_assoc,min_eq_right beyond]
theorem min_le_doubled : d.min ≤ d.doubled k := by
  have grows : (1 : ℚ) ≤ 2 ^ k := one_le_pow₀ one_le_two
  exact le_min (le_mul_of_one_le_right d.minPos.le grows) d.minLeMax
theorem doubled_le_max : d.doubled k ≤ d.max := min_le_right ..

end ReconnectDelays

namespace BaseCollector

/-- How `_run_ws` ends. -/
inductive Outcome
  | returned
  | raised
  | cancelled
deriving DecidableEq

/-- A call of `_run_ws`, and whether the collector is running at its end and after the
    sleep that may follow. -/
structure WsAttempt where
  outcome : Outcome
  running : Bool
  awake : Bool
deriving DecidableEq

/-- An attempt that the loop made, and for how long it slept afterwards. -/
structure Round where
  attempt : WsAttempt
  slept : ℚ
deriving DecidableEq

/-- `_ws_loop` with its delay, on the attempts that it would make. -/
def wsLoop (d : ReconnectDelays) (delay : ℚ) : List WsAttempt → List Round
  | [] => []
  | a :: rest =>
    match a.outcome with
    | .returned => ⟨a,0⟩ :: if a.running then wsLoop d d.min rest else []
    | .cancelled => [⟨a,0⟩]
    | .raised =>
      if !a.running then [⟨a,0⟩]
      else ⟨a,delay⟩ :: if a.awake then wsLoop d (Min.min (delay * 2) d.max) rest else []

/-- The loop makes another attempt. -/
def WsAttempt.Continues (a : WsAttempt) : Prop :=
  a.outcome ≠ .cancelled ∧ a.running = true ∧ (a.outcome = .raised → a.awake = true)
instance (a : WsAttempt) : Decidable a.Continues := inferInstanceAs (Decidable (_ ∧ _))

/-- How many attempts have failed in a row, when so many had before. -/
def failuresFrom (k : ℕ) (attempts : List WsAttempt) : ℕ :=
  attempts.foldl (fun k a => if a.outcome = .raised then k + 1 else 0) k

/-- Between two attempts the loop sleeps as long as the delays prescribe. -/
def BacksOff (d : ReconnectDelays) (attempts : List WsAttempt) : Prop :=
  ∀ before r next after, wsLoop d d.min attempts = before ++ r :: next :: after →
    d.min ≤ r.slept ∧ r.slept ≤ d.max ∧
    ∀ k, failuresFrom 0 ((before ++ [r]).map Round.attempt) = k + 1 → r.slept = Min.min (d.min * 2 ^ k) d.max

/-- No attempt that is followed by another one returns. -/
def NoneReturns (attempts : List WsAttempt) : Prop :=
  ∀ before a next after, attempts = before ++ a :: next :: after → (∀ b ∈ before ++ [a], b.Continues) →
    a.outcome ≠ .returned

variable {d : ReconnectDelays}

/-- One round of the loop after `k` failures in a row. -/
theorem wsLoop_cons (k : ℕ) (a : WsAttempt) (rest : List WsAttempt) :
    wsLoop d (d.doubled k) (a :: rest) =
      ⟨a,if a.outcome = .raised ∧ a.running then d.doubled k else 0⟩ ::
        if a.Continues then wsLoop d (d.doubled (failuresFrom k [a])) rest else [] := by
  obtain ⟨outcome,running,awake⟩ := a
  cases outcome with
  | returned => cases running <;> simp [wsLoop,WsAttempt.Continues,failuresFrom,d.doubled_zero]
  | cancelled => simp [wsLoop,WsAttempt.Continues]
  | raised => cases running <;> simp [wsLoop,WsAttempt.Continues,failuresFrom,d.doubled_succ]

/-- Every round but the last is one of an attempt after which the loop continues. -/
theorem wsLoop_rounds {k : ℕ} {attempts : List WsAttempt} {before : List Round} {r next : Round} {after : List Round}
    (made : wsLoop d (d.doubled k) attempts = before ++ r :: next :: after) :
    (∃ later, attempts = before.map Round.attempt ++ r.attempt :: next.attempt :: later) ∧
    (∀ b ∈ before.map Round.attempt ++ [r.attempt], b.Continues) ∧
    (r.attempt.outcome = .raised → r.slept = d.doubled (failuresFrom k (before.map Round.attempt))) := by
  induction attempts generalizing k before with
  | nil =>
    rw [wsLoop] at made
    simp at made
  | cons a rest ih =>
    rw [wsLoop_cons] at made
    by_cases continues : a.Continues
    · rw [if_pos continues] at made
      cases before with
      | nil =>
        obtain ⟨rfl,later⟩ := List.cons.inj made
        refine ⟨?_,?_,?_⟩
        · cases rest with
          | nil =>
            rw [wsLoop] at later
            cases later
          | cons b rest =>
            rw [wsLoop_cons] at later
            obtain ⟨rfl,-⟩ := List.cons.inj later
            exact ⟨rest,rfl⟩
        · intro b member
          rw [List.map_nil,List.nil_append,List.mem_singleton] at member
          rwa [member]
        · intro raised
          exact if_pos ⟨raised,continues.2.1⟩
      | cons first before =>
        obtain ⟨rfl,later⟩ := List.cons.inj made
        obtain ⟨⟨more,rfl⟩,continued,slept⟩ := ih later
        refine ⟨⟨more,rfl⟩,?_,slept⟩
        intro b member
        rw [List.map_cons,List.cons_append] at member
        rcases List.mem_cons.mp member with rfl | inRest
        · exact continues
        · exact continued b inRest
    · rw [if_neg continues] at made
      have one := congrArg List.length made
      simp only [List.length_append,List.length_cons,List.length_nil] at one
      omega

/-- Attempts after which the loop continues are all made. -/
theorem exists_round {k : ℕ} {before : List WsAttempt} {a next : WsAttempt} {after : List WsAttempt}
    (continued : ∀ b ∈ before ++ [a], b.Continues) (returned : a.outcome = .returned) :
    ∃ made slept more, wsLoop d (d.doubled k) (before ++ a :: next :: after) = made ++ ⟨a,0⟩ :: ⟨next,slept⟩ :: more := by
  induction before generalizing k with
  | nil =>
    have continues := continued a (List.mem_append_right _ (List.mem_singleton_self a))
    have still : ¬ (a.outcome = .raised ∧ a.running = true) := by simp [returned]
    rw [List.nil_append,wsLoop_cons,wsLoop_cons,if_pos continues,if_neg still]
    exact ⟨[],_,_,rfl⟩
  | cons b before ih =>
    obtain ⟨made,slept,more,rounds⟩ := ih (k := failuresFrom k [b]) (fun b member => continued b (List.mem_cons_of_mem _ member))
    have continues := continued b (List.mem_cons_self ..)
    rw [List.cons_append,wsLoop_cons,if_pos continues,rounds]
    exact ⟨_ :: made,slept,more,rfl⟩

/-- The loop backs off exactly when no attempt that is followed by another one returns. -/
theorem backsOff_iff (d : ReconnectDelays) (attempts : List WsAttempt) : BacksOff d attempts ↔ NoneReturns attempts := by
  have start := d.doubled_zero
  constructor
  · rintro backs before a next after rfl continued returned
    obtain ⟨made,slept,more,rounds⟩ := exists_round (d := d) (k := 0) continued returned
    rw [start] at rounds
    have least := (backs made _ _ more rounds).1
    exact absurd d.minPos (not_lt.mpr least)
  · intro none before r next after made
    rw [← start] at made
    obtain ⟨⟨later,attempted⟩,continued,slept⟩ := wsLoop_rounds made
    have notReturned := none _ _ _ _ attempted continued
    have notCancelled := (continued r.attempt (by simp)).1
    have raised : r.attempt.outcome = .raised := by
      cases outcome : r.attempt.outcome with
      | returned => exact absurd outcome notReturned
      | cancelled => exact absurd outcome notCancelled
      | raised => rfl
    rw [slept raised]
    refine ⟨d.min_le_doubled _,d.doubled_le_max _,?_⟩
    intro k failures
    have counted : failuresFrom 0 ((before ++ [r]).map Round.attempt) = failuresFrom 0 (before.map Round.attempt) + 1 := by
      simp [failuresFrom,raised]
    rw [counted] at failures
    rw [Nat.add_right_cancel failures,ReconnectDelays.doubled]

/-- A server that accepts the connection and closes it is connected to again at once. -/
theorem closed_connection_not_backed_off :
    ¬ BacksOff ⟨1,60,by decide,by decide⟩ [⟨.returned,true,true⟩,⟨.returned,true,true⟩] := by
  intro backs
  exact absurd (backs [] _ _ [] rfl).1 (by decide)

end BaseCollector
end FundingRadar
