import Mathlib.Algebra.Order.Group.Defs
import Mathlib.Data.List.Basic
import Mathlib.Tactic.Linarith

/-!
Instants on a line and how many of them fall into a window of a fixed width, wherever
it lies. The next instant keeps the bound exactly when there is room for it among those
less than a width before it (`bounded_append_iff`), so a bound on all windows is kept
by looking back at every instant.
-/
namespace FundingRadar.SlidingWindow
set_option linter.unusedSectionVars false
variable {K : Type*} [Field K] [LinearOrder K] [IsStrictOrderedRing K]

/-- The instants less than a width before `now`. -/
def recent (width now : K) (times : List K) : List K := times.filter (fun t => now - t < width)
/-- No window of the width holds more instants than the limit. -/
def Bounded (width : K) (limit : ℕ) (times : List K) : Prop :=
  ∀ start, (times.filter (fun t => start ≤ t ∧ t < start + width)).length ≤ limit

variable {width now : K} {limit : ℕ} {times : List K}

theorem recent_append (width now : K) (a b : List K) : recent width now (a ++ b) = recent width now a ++ recent width now b :=
  List.filter_append ..
theorem recent_sublist (width now : K) {a b : List K} (sub : a.Sublist b) : (recent width now a).Sublist (recent width now b) :=
  sub.filter _

/-- What is recent later was recent before. -/
theorem recent_recent {earlier : K} (le : earlier ≤ now) (times : List K) :
    recent width now (recent width earlier times) = recent width now times := by
  unfold recent
  rw [List.filter_filter]
  refine List.filter_congr ?_
  intro t _
  rw [Bool.eq_iff_iff,Bool.and_eq_true,decide_eq_true_eq,decide_eq_true_eq]
  constructor
  · exact fun both => both.1
  · exact fun late => ⟨late,by linarith⟩

theorem bounded_nil (width : K) (limit : ℕ) : Bounded width limit [] := fun _ => Nat.zero_le _

/-- A window that covers recent instants and the present one. -/
theorem exists_start (positive : 0 < width) {l : List K} (young : ∀ t ∈ l, now - t < width) :
    ∃ start, start ≤ now ∧ now < start + width ∧ ∀ t ∈ l, start ≤ t := by
  induction l with
  | nil => exact ⟨now,le_refl _,by linarith,by simp⟩
  | cons a rest ih =>
    obtain ⟨start,before,within,below⟩ := ih fun t member => young t (List.mem_cons_of_mem _ member)
    have first := young a (List.mem_cons_self ..)
    refine ⟨min start a,(min_le_left ..).trans before,?_,?_⟩
    · rcases min_choice start a with same | same
      · rw [same]
        exact within
      · rw [same]
        linarith
    · intro t member
      rcases List.mem_cons.mp member with rfl | later
      · exact min_le_right ..
      · exact (min_le_left ..).trans (below t later)

/-- One more instant keeps the bound exactly when there is room for it. -/
theorem bounded_append_iff (positive : 0 < width) (past : ∀ t ∈ times, t ≤ now) :
    Bounded width limit (times ++ [now]) ↔ Bounded width limit times ∧ (recent width now times).length < limit := by
  constructor
  · intro bounded
    refine ⟨?_,?_⟩
    · intro start
      exact (((List.sublist_append_left times [now]).filter _).length_le).trans (bounded start)
    · have young : ∀ t ∈ recent width now times, now - t < width := by
        intro t member
        exact of_decide_eq_true (List.mem_filter.mp member).2
      obtain ⟨start,before,within,below⟩ := exists_start positive young
      have covers : (recent width now times).Sublist (times.filter (fun t => start ≤ t ∧ t < start + width)) := by
        have kept : recent width now times =
            (recent width now times).filter (fun t => start ≤ t ∧ t < start + width) := by
          refine (List.filter_eq_self.mpr ?_).symm
          intro t member
          have earlier := past t (List.mem_filter.mp member).1
          exact decide_eq_true ⟨below t member,by linarith⟩
        rw [kept]
        exact List.filter_sublist.filter _
      have room := bounded start
      have here : [now].filter (fun t => start ≤ t ∧ t < start + width) = [now] := by simp [before,within]
      rw [List.filter_append,List.length_append,here] at room
      exact lt_of_le_of_lt covers.length_le room
  · rintro ⟨bounded,room⟩ start
    rw [List.filter_append,List.length_append]
    by_cases inside : start ≤ now ∧ now < start + width
    · have few : (times.filter (fun t => start ≤ t ∧ t < start + width)).length ≤ (recent width now times).length := by
        refine (List.monotone_filter_right times ?_).length_le
        intro t within
        have bounds := of_decide_eq_true within
        exact decide_eq_true (by linarith [bounds.1,inside.2])
      have here : [now].filter (fun t => start ≤ t ∧ t < start + width) = [now] := by simp [inside.1,inside.2]
      rw [here]
      exact Nat.succ_le_of_lt (lt_of_le_of_lt few room)
    · have elsewhere : [now].filter (fun t => start ≤ t ∧ t < start + width) = [] := by
        rw [List.filter_eq_nil_iff]
        intro t member covered
        rw [List.mem_singleton.mp member] at covered
        exact inside (of_decide_eq_true covered)
      rw [elsewhere]
      exact bounded start

end FundingRadar.SlidingWindow
