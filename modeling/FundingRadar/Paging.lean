import Mathlib.Data.List.Basic
import Mathlib.Algebra.Order.Ring.Int
import Mathlib.Algebra.Ring.Divisibility.Basic
import Mathlib.Tactic.Linarith
import Mathlib.Tactic.Ring
import FundingRadar.Loops

/-!
Paging loops. A loop whose positions descend some measure is left; one paging loop
simulates another when their pages and next positions correspond. A loop that reads the
items of an interval page by page, each page from one past the last key of the page before
it, reads all of them unless it stops one key short of its bound (`paged_cursor`). Whatever is
answered, the answers cover the interval exactly when each of them that leaves a part of it is
followed by a request for that part (`asked_covers_iff`).
-/
namespace FundingRadar
namespace Paging

variable {α β π ρ : Type} {active : π → Bool} {page : ℕ → π → List α × Option π}

/-! ### When a loop is left -/

@[simp] theorem paged_of_inactive {p : π} (inactive : active p = false) (fuel i : ℕ) : paged active page fuel i p = [] := by
  cases fuel with
  | zero => rfl
  | succ fuel => rw [paged,inactive]; rfl
@[simp] theorem asked_of_inactive {p : π} (inactive : active p = false) (fuel i : ℕ) :
    asked active page fuel i p = ([],true) := by
  cases fuel with
  | zero => rw [asked,inactive]; rfl
  | succ fuel => rw [asked,inactive]; rfl

theorem asked_length_le (fuel i : ℕ) (p : π) : (asked active page fuel i p).1.length ≤ fuel := by
  induction fuel generalizing i p with
  | zero => exact Nat.le_refl 0
  | succ fuel ih =>
    rw [asked]
    split
    · cases (page i p).2 with
      | none => exact Nat.succ_le_succ (Nat.zero_le fuel)
      | some q => exact Nat.succ_le_succ (ih (i + 1) q)
    · exact Nat.zero_le _

theorem asked_active {fuel i : ℕ} {p : π} {a : ℕ × π} (member : a ∈ (asked active page fuel i p).1) : active a.2 = true := by
  induction fuel generalizing i p with
  | zero => cases member
  | succ fuel ih =>
    cases running : active p with
    | false =>
      rw [asked_of_inactive running] at member
      cases member
    | true =>
      rw [asked,if_pos running] at member
      cases follows : (page i p).2 with
      | none =>
        rw [follows] at member
        rw [List.mem_singleton.mp member]
        exact running
      | some q =>
        rw [follows] at member
        obtain rfl | later := List.mem_cons.mp member
        · exact running
        · exact ih later

/-- Once a loop is left, a larger allowance changes nothing. -/
theorem asked_of_left {fuel i : ℕ} {p : π} (left : (asked active page fuel i p).2 = true) {n : ℕ}
    (enough : (asked active page fuel i p).1.length ≤ n) : asked active page n i p = asked active page fuel i p := by
  induction fuel generalizing i p n with
  | zero =>
    have inactive : active p = false := by simpa [asked] using left
    rw [asked_of_inactive inactive,asked_of_inactive inactive]
  | succ fuel ih =>
    cases running : active p with
    | false => rw [asked_of_inactive running,asked_of_inactive running]
    | true =>
      rw [asked,if_pos running] at left enough ⊢
      cases next : (page i p).2 with
      | none =>
        rw [next] at enough
        obtain ⟨n,rfl⟩ := Nat.exists_eq_add_of_lt (Nat.lt_of_lt_of_le Nat.zero_lt_one enough)
        rw [Nat.zero_add,asked,if_pos running,next]
      | some q =>
        rw [next] at left enough
        obtain ⟨n,rfl⟩ := Nat.exists_eq_add_of_lt (Nat.lt_of_lt_of_le (Nat.succ_pos _) enough)
        rw [Nat.zero_add] at enough ⊢
        rw [asked,if_pos running,next]
        dsimp only
        rw [ih left (Nat.le_of_succ_le_succ enough)]

/-- A measure that every page lowers bounds the requests. -/
theorem asked_bounded (μ : π → ℕ) (positive : ∀ p, active p = true → 0 < μ p)
    (progress : ∀ i p q, active p = true → (page i p).2 = some q → μ q < μ p) (fuel i : ℕ) (p : π) :
    (asked active page fuel i p).1.length ≤ μ p ∧ (μ p ≤ fuel → (asked active page fuel i p).2 = true) := by
  induction fuel generalizing i p with
  | zero =>
    refine ⟨Nat.zero_le _,fun none => ?_⟩
    cases running : active p with
    | false => rw [asked_of_inactive running]
    | true => exact absurd (positive p running) (Nat.not_lt.mpr none)
  | succ fuel ih =>
    cases running : active p with
    | false => rw [asked_of_inactive running]; exact ⟨Nat.zero_le _,fun _ => rfl⟩
    | true =>
      rw [asked,if_pos running]
      cases next : (page i p).2 with
      | none => exact ⟨positive p running,fun _ => rfl⟩
      | some q =>
        have less := progress i p q running next
        obtain ⟨length,left⟩ := ih (i + 1) q
        refine ⟨?_,fun enough => left (by omega)⟩
        simp only [List.length_cons]
        omega

/-- Where it does not depend on the position how a page leads on, a loop is left by the first
    page that leads nowhere. -/
theorem asked_left_iff (next : ℕ → Option π) (leads : ∀ i p, active p = true → (page i p).2.filter active = next i)
    (fuel i : ℕ) {p : π} (running : active p = true) :
    (asked active page fuel i p).2 = true ↔ ∃ j < fuel, next (i + j) = none := by
  induction fuel generalizing i p with
  | zero => simp [asked,running]
  | succ fuel ih =>
    have leadsHere := leads i p running
    rw [asked,if_pos running]
    have shift : (∃ j < fuel + 1, next (i + j) = none) ↔ next i = none ∨ ∃ j < fuel, next (i + 1 + j) = none := by
      constructor
      · rintro ⟨j,lt,ends⟩
        cases j with
        | zero => exact .inl ends
        | succ j => exact .inr ⟨j,Nat.lt_of_succ_lt_succ lt,by rw [Nat.add_right_comm]; exact ends⟩
      · rintro (ends | ⟨j,lt,ends⟩)
        · exact ⟨0,Nat.succ_pos fuel,ends⟩
        · exact ⟨j + 1,Nat.succ_lt_succ lt,by rw [← Nat.add_assoc,Nat.add_right_comm]; exact ends⟩
    rw [shift]
    cases follows : (page i p).2 with
    | none =>
      rw [follows] at leadsHere
      exact iff_of_true rfl (.inl leadsHere.symm)
    | some q =>
      rw [follows] at leadsHere
      dsimp only
      cases runs : active q with
      | false =>
        rw [asked_of_inactive runs]
        exact iff_of_true rfl (.inl (by rw [← leadsHere,Option.filter,runs]; rfl))
      | true =>
        have goesOn : next i ≠ none := by
          rw [← leadsHere,Option.filter,if_pos runs]
          exact Option.some_ne_none q
        rw [ih (i + 1) runs]
        exact ⟨.inr,fun ends => ends.resolve_left goesOn⟩

/-! ### One loop in terms of another -/

section
variable {active' : ρ → Bool} {page' : ℕ → ρ → List β × Option ρ} (f : α → Option β) (g : π → ρ)

/-- A next position at which the loop ends is as good as none. -/
theorem paged_of_running {p : π} (running : active p = true) (fuel i : ℕ) :
    paged active page (fuel + 1) i p =
      (page i p).1 ++ (((page i p).2.filter active).map (paged active page fuel (i + 1))).getD [] := by
  rw [paged,if_pos running]
  cases (page i p).2 with
  | none => rfl
  | some q =>
    cases runs : active q with
    | false => simp [Option.filter,runs]
    | true => simp [Option.filter,runs]

/-- The loops run alike where their pages do, at every position that a run comes to. -/
theorem paged_simulates (inv : π → Prop) (keeps : ∀ i p q, inv p → active p = true → (page i p).2 = some q → inv q)
    (same : ∀ p, active' (g p) = active p)
    (results : ∀ i p, inv p → active p = true → (page' i (g p)).1 = (page i p).1.filterMap f)
    (next : ∀ i p, inv p → active p = true → (page' i (g p)).2.filter active' = ((page i p).2.filter active).map g)
    (fuel i : ℕ) {p : π} (here : inv p) :
    paged active' page' fuel i (g p) = (paged active page fuel i p).filterMap f := by
  induction fuel generalizing i p with
  | zero => rfl
  | succ fuel ih =>
    cases running : active p with
    | false => rw [paged_of_inactive ((same p).trans running),paged_of_inactive running]; rfl
    | true =>
      rw [paged_of_running ((same p).trans running),paged_of_running running,next i p here running,
        results i p here running,List.filterMap_append]
      cases leads : (page i p).2 with
      | none => rfl
      | some q =>
        cases runs : active q with
        | false => simp [Option.filter,runs]
        | true =>
          have later := ih (i + 1) (keeps i p q here running leads)
          simp [Option.filter,runs,later]

end

/-! ### Reading an interval page by page -/

section
variable (n : ℕ) (bound : ℤ) (items : List (ℤ × α))

/-- The items of a closed interval. -/
def within (lo hi : ℤ) : List (ℤ × α) := items.filter (fun x => lo ≤ x.1 ∧ x.1 ≤ hi)
/-- A page of at most `n` items from a position up to the bound, and one past its last key if it
    is full. -/
def cursorPage (p : ℤ) : List (ℤ × α) × Option ℤ :=
  let page := (within items p bound).take n
  (page,if page.length < n then none else page.getLast?.map (fun x => x.1 + 1))
/-- There is an item at the bound, and either nothing comes before it or full pages end right
    before it. -/
def CutOff (p : ℤ) : Prop :=
  (∃ x ∈ items, x.1 = bound) ∧ p ≤ bound ∧
    (p = bound ∨ (∃ x ∈ items, x.1 = bound - 1) ∧ n ∣ (within items p (bound - 1)).length)

instance decidableCutOff (p : ℤ) : Decidable (CutOff n bound items p) := inferInstanceAs (Decidable (_ ∧ _))

variable {n bound items}

theorem mem_within_iff {lo hi : ℤ} {x : ℤ × α} : x ∈ within items lo hi ↔ x ∈ items ∧ lo ≤ x.1 ∧ x.1 ≤ hi := by
  rw [within,List.mem_filter,decide_eq_true_eq]

theorem within_eq_nil {lo hi : ℤ} (empty : hi < lo) : within items lo hi = [] := by
  rw [List.eq_nil_iff_forall_not_mem]
  intro x member
  obtain ⟨-,above,below⟩ := mem_within_iff.mp member
  omega

/-- An interval of a sorted list can be cut anywhere. -/
theorem within_append (sorted : items.Pairwise (fun a b => a.1 < b.1)) {lo mid hi : ℤ} (low : lo ≤ mid + 1) (high : mid ≤ hi) :
    within items lo hi = within items lo mid ++ within items (mid + 1) hi := by
  induction items with
  | nil => rfl
  | cons x rest ih =>
    obtain ⟨first,tail⟩ := List.pairwise_cons.mp sorted
    have later := ih tail
    unfold within at later ⊢
    simp only [List.filter_cons,decide_eq_true_eq]
    by_cases before : x.1 ≤ mid
    · rw [if_neg (show ¬ (mid + 1 ≤ x.1 ∧ x.1 ≤ hi) by omega),later]
      by_cases inside : lo ≤ x.1
      · rw [if_pos ⟨inside,before.trans high⟩,if_pos ⟨inside,before⟩,List.cons_append]
      · rw [if_neg (fun both => inside both.1),if_neg (fun both => inside both.1)]
    · have none : rest.filter (fun y => lo ≤ y.1 ∧ y.1 ≤ mid) = [] := by
        rw [List.filter_eq_nil_iff]
        intro y member
        have := first y member
        simp only [decide_eq_true_eq]
        omega
      rw [if_neg (show ¬ (lo ≤ x.1 ∧ x.1 ≤ mid) by omega),later,none,List.nil_append,List.nil_append]
      by_cases inside : x.1 ≤ hi
      · rw [if_pos ⟨by omega,inside⟩,if_pos ⟨by omega,inside⟩]
      · rw [if_neg (fun both => inside both.2),if_neg (fun both => inside both.2)]

/-- The first items of a sorted list are those up to the last one of them. -/
theorem take_eq_within (sorted : items.Pairwise (fun a b => a.1 < b.1)) {lo hi : ℤ} {last : ℤ × α}
    (ends : ((within items lo hi).take n).getLast? = some last) :
    (within items lo hi).take n = within items lo last.1 ∧ lo ≤ last.1 ∧ last.1 ≤ hi ∧ last ∈ items := by
  obtain ⟨before,split⟩ := List.getLast?_eq_some_iff.mp ends
  have member : last ∈ within items lo hi := List.mem_of_mem_take (split ▸ List.mem_append_right before (List.mem_singleton_self last))
  obtain ⟨inItems,above,below⟩ := mem_within_iff.mp member
  refine ⟨?_,above,below,inItems⟩
  have ordered : (within items lo hi).Pairwise (fun a b => a.1 < b.1) := sorted.sublist List.filter_sublist
  rw [← List.take_append_drop n (within items lo hi),List.pairwise_append] at ordered
  obtain ⟨inside,-,across⟩ := ordered
  have upTo : ∀ x ∈ (within items lo hi).take n, x.1 ≤ last.1 := by
    intro x inPage
    rw [split] at inPage inside
    rcases List.mem_append.mp inPage with earlier | same
    · exact ((List.pairwise_append.mp inside).2.2 x earlier last (List.mem_singleton_self last)).le
    · rw [List.mem_singleton.mp same]
  have beyond : ∀ x ∈ (within items lo hi).drop n, last.1 < x.1 :=
    fun x later => across last (split ▸ List.mem_append_right before (List.mem_singleton_self last)) x later
  have narrowed : within items lo last.1 = (within items lo hi).filter (fun x => x.1 ≤ last.1) := by
    rw [within,within,List.filter_filter]
    refine List.filter_congr fun x _ => ?_
    rw [← Bool.decide_and,decide_eq_decide]
    omega
  rw [narrowed]
  conv_rhs => rw [← List.take_append_drop n (within items lo hi),List.filter_append]
  rw [List.filter_eq_self.mpr fun x inPage => decide_eq_true (upTo x inPage),
    List.filter_eq_nil_iff.mpr fun x later => by simpa using beyond x later,List.append_nil]

theorem cursorPage_moves (sorted : items.Pairwise (fun a b => a.1 < b.1)) {p q : ℤ}
    (next : (cursorPage n bound items p).2 = some q) : p < q := by
  rw [cursorPage] at next
  dsimp only at next
  split at next
  · cases next
  · obtain ⟨last,ends,rfl⟩ := Option.map_eq_some_iff.mp next
    have := (take_eq_within sorted ends).2.1
    omega
/-- A full page of more than one item moves on. -/
theorem lt_last_of_full (sorted : items.Pairwise (fun a b => a.1 < b.1)) {p : ℤ} {last : ℤ × α} (several : 1 < n)
    (full : ((within items p bound).take n).length = n) (ends : ((within items p bound).take n).getLast? = some last) :
    p < last.1 := by
  obtain ⟨before,split⟩ := List.getLast?_eq_some_iff.mp ends
  rw [split,List.length_append] at full
  obtain ⟨first,rest,rfl⟩ := List.exists_cons_of_length_pos (l := before) (by simp at full; omega)
  have ordered : ((within items p bound).take n).Pairwise (fun a b => a.1 < b.1) :=
    (sorted.sublist List.filter_sublist).sublist (List.take_sublist ..)
  rw [split] at ordered
  have before := (List.pairwise_append.mp ordered).2.2 first (List.mem_cons_self ..) last (List.mem_singleton_self last)
  have member : first ∈ (within items p bound).take n := by
    rw [split]
    exact List.mem_append_left _ (List.mem_cons_self ..)
  have above := (mem_within_iff.mp (List.mem_of_mem_take member)).2.1
  omega

/-- Where the last page of a run is not full, the run is not cut off. -/
theorem not_cutOff_of_short {p : ℤ} (sorted : items.Pairwise (fun a b => a.1 < b.1)) (low : p < bound)
    (short : (within items p bound).length < n) : ¬ CutOff n bound items p := by
  rintro ⟨-,-,same | ⟨⟨x,inItems,key⟩,full⟩⟩
  · omega
  · have some : x ∈ within items p (bound - 1) := mem_within_iff.mpr ⟨inItems,by omega,by omega⟩
    have split := @within_append α items sorted p (bound - 1) bound (by omega) (by omega)
    have length := congrArg List.length split
    rw [List.length_append] at length
    have nonempty := List.length_pos_of_mem some
    have atLeast := Nat.le_of_dvd nonempty full
    omega

/-- A full page keeps the question whether the run will be cut off. -/
theorem cutOff_after_page {p : ℤ} (sorted : items.Pairwise (fun a b => a.1 < b.1)) (low : p < bound)
    {last : ℤ × α} (full : ((within items p bound).take n).length = n)
    (ends : ((within items p bound).take n).getLast? = some last) :
    CutOff n bound items (last.1 + 1) ↔ CutOff n bound items p := by
  obtain ⟨whole,above,below,inItems⟩ := take_eq_within sorted ends
  rw [whole] at full
  by_cases before : last.1 ≤ bound - 1
  · have split := @within_append α items sorted p last.1 (bound - 1) (by omega) before
    have length := congrArg List.length split
    rw [List.length_append,full] at length
    have divides : n ∣ (within items p (bound - 1)).length ↔ n ∣ (within items (last.1 + 1) (bound - 1)).length := by
      rw [length,Nat.dvd_add_right (Nat.dvd_refl n)]
    constructor
    · rintro ⟨atBound,-,next | ⟨previous,fullPages⟩⟩
      · refine ⟨atBound,low.le,.inr ⟨⟨last,inItems,by omega⟩,divides.mpr ?_⟩⟩
        rw [within_eq_nil (by omega)]
        exact Nat.dvd_zero n
      · exact ⟨atBound,low.le,.inr ⟨previous,divides.mpr fullPages⟩⟩
    · rintro ⟨atBound,-,next | ⟨previous,fullPages⟩⟩
      · omega
      · exact ⟨atBound,by omega,.inr ⟨previous,divides.mp fullPages⟩⟩
  · -- the page ends at the bound itself
    have same : last.1 = bound := by omega
    refine iff_of_false (fun cut => absurd cut.2.1 (by omega)) ?_
    rintro ⟨-,-,next | ⟨⟨x,inX,key⟩,fullPages⟩⟩
    · omega
    · have split := @within_append α items sorted p (bound - 1) bound (by omega) (by omega)
      have length := congrArg List.length split
      have here : last ∈ within items (bound - 1 + 1) bound := mem_within_iff.mpr ⟨inItems,by omega,below⟩
      have some : x ∈ within items p (bound - 1) := mem_within_iff.mpr ⟨inX,by omega,by omega⟩
      rw [same] at full
      rw [List.length_append,full] at length
      have atLeast := Nat.le_of_dvd (List.length_pos_of_mem some) fullPages
      have one := List.length_pos_of_mem here
      omega

/-- At the bound and beyond it there is nothing left to read. -/
theorem within_of_bound_le {p : ℤ} (high : bound ≤ p) :
    within items p (if CutOff n bound items p then bound - 1 else bound) = [] := by
  split
  · exact within_eq_nil (by omega)
  · next whole =>
    rw [List.eq_nil_iff_forall_not_mem]
    intro x member
    obtain ⟨inItems,above,below⟩ := mem_within_iff.mp member
    exact whole ⟨⟨x,inItems,by omega⟩,by omega,.inl (by omega)⟩

/-- A run reads a part of its interval, and all of it unless it is cut off. -/
theorem read_part (sorted : items.Pairwise (fun a b => a.1 < b.1)) (p : ℤ) :
    (within items p (if CutOff n bound items p then bound - 1 else bound)).Sublist (within items p bound) ∧
    ((within items p (if CutOff n bound items p then bound - 1 else bound)).length = (within items p bound).length ↔
      ¬ CutOff n bound items p) := by
  split
  · next cut =>
    have ⟨⟨x,inItems,key⟩,low,_⟩ := cut
    have split := @within_append α items sorted p (bound - 1) bound (by omega) (by omega)
    have here : x ∈ within items (bound - 1 + 1) bound := mem_within_iff.mpr ⟨inItems,by omega,by omega⟩
    rw [split,List.length_append]
    refine ⟨List.sublist_append_left ..,?_⟩
    have := List.length_pos_of_mem here
    exact iff_of_false (by omega) (not_not.mpr cut)
  · next whole => exact ⟨List.Sublist.refl _,iff_of_true rfl whole⟩

/-- A run with an allowance for every key reads the interval up to its bound, or up to one key
    before it where it is cut off. -/
theorem paged_cursor (sorted : items.Pairwise (fun a b => a.1 < b.1)) (pos : 0 < n) (fuel i : ℕ) {p : ℤ}
    (enough : (bound - p).toNat ≤ fuel) :
    paged (fun q => q < bound) (fun _ => cursorPage n bound items) fuel i p =
      within items p (if CutOff n bound items p then bound - 1 else bound) := by
  induction fuel generalizing i p with
  | zero =>
    rw [paged,within_of_bound_le (by omega)]
  | succ fuel ih =>
    by_cases low : p < bound
    · rw [paged,if_pos (decide_eq_true low)]
      by_cases short : ((within items p bound).take n).length < n
      · have all : (within items p bound).length < n := by
          rw [List.length_take] at short
          omega
        simp only [cursorPage,if_pos short,if_neg (not_cutOff_of_short sorted low all),List.append_nil]
        exact List.take_of_length_le all.le
      · have full : ((within items p bound).take n).length = n :=
          Nat.le_antisymm (List.length_take_le ..) (Nat.not_lt.mp short)
        have nonempty : (within items p bound).take n ≠ [] := List.ne_nil_of_length_pos (full.symm ▸ pos)
        obtain ⟨last,ends⟩ : ∃ last, ((within items p bound).take n).getLast? = some last :=
          ⟨_,List.getLast?_eq_some_getLast nonempty⟩
        obtain ⟨whole,above,below,-⟩ := take_eq_within sorted ends
        have later := @ih (i + 1) (last.1 + 1) (by omega)
        simp only [cutOff_after_page sorted low full ends] at later
        have given : cursorPage n bound items p = (within items p last.1,some (last.1 + 1)) := by
          unfold cursorPage
          dsimp only
          rw [if_neg short,ends,whole]
          rfl
        rw [given]
        dsimp only
        rw [later,← within_append sorted (by omega)]
        split
        · next cut =>
          have := (cutOff_after_page sorted low full ends).mpr cut
          have := this.2.1
          omega
        · exact below
    · have inactive : (fun q : ℤ => decide (q < bound)) p = false := decide_eq_false low
      rw [@paged_of_inactive _ _ (fun q : ℤ => q < bound) _ p inactive,within_of_bound_le (not_lt.mp low)]

/-! ### Time reversed -/

/-- The items in the opposite order, under negated keys. -/
def mirror (items : List (ℤ × α)) : List (ℤ × α) := items.reverse.map (fun x => (-x.1,x.2))

theorem mirror_sorted (sorted : items.Pairwise (fun a b => a.1 < b.1)) : (mirror items).Pairwise (fun a b => a.1 < b.1) := by
  refine List.pairwise_map.mpr (List.pairwise_reverse.mpr (sorted.imp ?_))
  intro a b before
  exact neg_lt_neg before
theorem within_mirror (items : List (ℤ × α)) (lo hi : ℤ) : within (mirror items) (-hi) (-lo) = mirror (within items lo hi) := by
  unfold within mirror
  rw [List.filter_map,← List.filter_reverse]
  refine congrArg _ (List.filter_congr fun x _ => ?_)
  dsimp only [Function.comp]
  rw [decide_eq_decide]
  omega
theorem exists_mem_mirror_iff {t : ℤ} : (∃ x ∈ mirror items, x.1 = -t) ↔ ∃ x ∈ items, x.1 = t := by
  simp only [mirror,List.mem_map,List.mem_reverse,exists_exists_and_eq_and,neg_inj]

/-- The cut of a run that goes back in time. -/
theorem cutOff_mirror_iff {lo hi : ℤ} :
    CutOff n (-lo) (mirror items) (-hi) ↔
      (∃ x ∈ items, x.1 = lo) ∧ lo ≤ hi ∧
        (hi = lo ∨ (∃ x ∈ items, x.1 = lo + 1) ∧ n ∣ (within items (lo + 1) hi).length) := by
  rw [CutOff,exists_mem_mirror_iff,show -lo - 1 = -(lo + 1) by ring,exists_mem_mirror_iff,within_mirror,neg_le_neg_iff,neg_inj,
    mirror,List.length_map,List.length_reverse]

end

/-! ### Covering an interval with windows -/

/-- A loop that goes from one past the end of a window to the next one asks for disjoint windows.
    They cover the interval, except for its last key where a window would start there. -/
theorem asked_windows {size bound : ℤ} {page : ℕ → ℤ → List α × Option ℤ} (notNegative : 0 ≤ size)
    (next : ∀ i p, (page i p).2 = some (min (p + size) bound + 1)) (fuel i : ℕ) {p : ℤ} (enough : (bound - p).toNat ≤ fuel) :
    (∀ a ∈ (asked (fun q => q < bound) page fuel i p).1, p ≤ a.2) ∧
    (asked (fun q => q < bound) page fuel i p).1.Pairwise (fun a b => min (a.2 + size) bound < b.2) ∧
    ∀ t, (∃ a ∈ (asked (fun q => q < bound) page fuel i p).1, a.2 ≤ t ∧ t ≤ min (a.2 + size) bound) ↔
      p ≤ t ∧ t ≤ bound ∧ ¬ (t = bound ∧ size + 1 ∣ bound - p) := by
  have nothing : ∀ {p : ℤ}, bound ≤ p → ∀ t, ¬ (p ≤ t ∧ t ≤ bound ∧ ¬ (t = bound ∧ size + 1 ∣ bound - p)) := by
    rintro p high t ⟨above,below,other⟩
    refine other ⟨by omega,?_⟩
    rw [show bound - p = 0 by omega]
    exact dvd_zero _
  induction fuel generalizing i p with
  | zero =>
    rw [asked]
    exact ⟨by simp,.nil,fun t => iff_of_false (by simp) (nothing (by omega) t)⟩
  | succ fuel ih =>
    by_cases low : p < bound
    · obtain ⟨above,apart,covered⟩ := @ih (i + 1) (min (p + size) bound + 1) (by omega)
      rw [asked,if_pos (decide_eq_true low),next]
      dsimp only
      refine ⟨?_,List.pairwise_cons.mpr ⟨?_,apart⟩,?_⟩
      · intro a member
        rcases List.mem_cons.mp member with rfl | later
        · exact le_refl _
        · have := above a later
          omega
      · intro a later
        have := above a later
        dsimp only
        omega
      · intro t
        simp only [List.mem_cons,exists_eq_or_imp,covered]
        by_cases last : bound ≤ p + size
        · -- the window reaches the bound, and no multiple of the stride does
          have within : ¬ size + 1 ∣ bound - p := by
            intro divides
            have := Int.le_of_dvd (by omega) divides
            omega
          rw [min_eq_right last]
          simp only [within,and_false,not_false_eq_true,and_true]
          omega
        · rw [min_eq_left (not_le.mp last).le]
          have shift : size + 1 ∣ bound - (p + size + 1) ↔ size + 1 ∣ bound - p := by
            rw [show bound - p = (bound - (p + size + 1)) + (size + 1) by ring,dvd_add_self_right]
          rw [shift]
          constructor
          · rintro (⟨above,below⟩ | ⟨above,below,other⟩)
            · exact ⟨above,by omega,fun both => by omega⟩
            · exact ⟨by omega,below,other⟩
          · rintro ⟨above,below,other⟩
            by_cases here : t ≤ p + size
            · exact .inl ⟨above,here⟩
            · exact .inr ⟨by omega,below,other⟩
    · have inactive : (fun q : ℤ => decide (q < bound)) p = false := decide_eq_false low
      rw [@asked_of_inactive _ _ (fun q : ℤ => q < bound) _ p inactive]
      exact ⟨by simp,.nil,fun t => iff_of_false (by simp) (nothing (not_lt.mp low) t)⟩

/-! ### What the answers cover -/

section
variable {bound : ℤ} (key : π → ℤ) (last : ℕ → π → ℤ)

/-- A loop that goes on one past what an answer reaches leaves nothing out before the answer that
    reaches the bound. -/
theorem asked_covers {fuel i : ℕ} {p : π}
    (next : ∀ i p q, active p = true → (page i p).2 = some q → key q = last i p + 1)
    (reached : ∃ a ∈ (asked active page fuel i p).1, bound ≤ last a.1 a.2) {t : ℤ} (low : key p ≤ t) (high : t ≤ bound) :
    ∃ a ∈ (asked active page fuel i p).1, key a.2 ≤ t ∧ t ≤ last a.1 a.2 := by
  induction fuel generalizing i p with
  | zero =>
    obtain ⟨a,none,-⟩ := reached
    cases none
  | succ fuel ih =>
    cases running : active p with
    | false =>
      rw [asked_of_inactive running] at reached
      obtain ⟨a,none,-⟩ := reached
      cases none
    | true =>
      rw [asked,if_pos running] at reached ⊢
      cases follows : (page i p).2 with
      | none =>
        rw [follows] at reached
        obtain ⟨a,member,full⟩ := reached
        rw [List.mem_singleton.mp member] at full
        exact ⟨(i,p),List.mem_singleton_self _,low,high.trans full⟩
      | some q =>
        rw [follows] at reached
        obtain ⟨a,member,full⟩ := reached
        have goesOn := next i p q running follows
        by_cases here : t ≤ last i p
        · exact ⟨(i,p),List.mem_cons_self ..,low,here⟩
        · obtain rfl | later := List.mem_cons.mp member
          · exact absurd (high.trans full) here
          · obtain ⟨b,inRest,covers⟩ := @ih (i + 1) q ⟨a,later,full⟩ (by omega)
            exact ⟨b,List.mem_cons_of_mem _ inRest,covers⟩

/-- Such a loop has reached its bound when every answer that falls short of it is followed by
    another request. -/
theorem asked_reached_iff {fuel i : ℕ} {p : π} (runs : ∀ p, active p = true ↔ key p < bound)
    (next : ∀ i p q, active p = true → (page i p).2 = some q → key q = last i p + 1)
    (left : (asked active page fuel i p).2 = true) (running : active p = true) :
    (∃ a ∈ (asked active page fuel i p).1, bound ≤ last a.1 a.2) ↔
      ∀ a ∈ (asked active page fuel i p).1, last a.1 a.2 < bound → (page a.1 a.2).2.isSome = true ∧ last a.1 a.2 + 1 ≠ bound := by
  induction fuel generalizing i p with
  | zero => simp [asked,running] at left
  | succ fuel ih =>
    rw [asked,if_pos running] at left ⊢
    cases follows : (page i p).2 with
    | none =>
      simp only [List.mem_singleton,exists_eq_left,forall_eq,follows,Option.isSome_none,Bool.false_eq_true,false_and,imp_false,not_lt]
    | some q =>
      rw [follows] at left
      dsimp only at left ⊢
      have goesOn := next i p q running follows
      simp only [List.mem_cons,exists_eq_or_imp,forall_eq_or_imp,follows,Option.isSome_some,true_and]
      by_cases more : key q < bound
      · have later := ih left ((runs q).mpr more)
        rw [later]
        constructor
        · rintro (full | rest)
          · omega
          · exact ⟨fun _ => by omega,rest⟩
        · exact fun both => .inr both.2
      · have inactive : active q = false := by
          rw [← Bool.not_eq_true,runs]
          exact more
        rw [asked_of_inactive inactive]
        simp only [List.not_mem_nil,false_and,exists_false,or_false,false_implies,implies_true,and_true]
        omega

/-- When the answers cover the interval from the first position up to the bound. -/
theorem asked_covers_iff {fuel i : ℕ} {p : π} (runs : ∀ p, active p = true ↔ key p < bound)
    (next : ∀ i p q, active p = true → (page i p).2 = some q → key q = last i p + 1)
    (left : (asked active page fuel i p).2 = true) :
    (∀ t, key p ≤ t → t ≤ bound → ∃ a ∈ (asked active page fuel i p).1, key a.2 ≤ t ∧ t ≤ last a.1 a.2) ↔
      key p ≠ bound ∧
        ∀ a ∈ (asked active page fuel i p).1, last a.1 a.2 < bound → (page a.1 a.2).2.isSome = true ∧ last a.1 a.2 + 1 ≠ bound := by
  by_cases running : active p = true
  · have low := (runs p).mp running
    rw [← asked_reached_iff key last runs next left running]
    constructor
    · intro covered
      obtain ⟨a,member,-,full⟩ := covered bound low.le (le_refl _)
      exact ⟨low.ne,a,member,full⟩
    · rintro ⟨-,reached⟩ t above below
      exact asked_covers key last next reached above below
  · have high : bound ≤ key p := not_lt.mp fun low => running ((runs p).mpr low)
    rw [asked_of_inactive (Bool.not_eq_true _ ▸ running)]
    simp only [List.not_mem_nil,false_and,exists_false,imp_false,false_implies,implies_true,and_true]
    constructor
    · intro empty same
      exact empty bound same.le (le_refl _)
    · intro other t above below
      omega

end

/-- The positions of a loop that does not go back. -/
theorem asked_above {page : ℕ → ℤ → List α × Option ℤ} {active : ℤ → Bool}
    (moves : ∀ i p q, (page i p).2 = some q → active p = true → p ≤ q) {fuel i : ℕ} {p : ℤ} {a : ℕ × ℤ}
    (member : a ∈ (asked active page fuel i p).1) : p ≤ a.2 := by
  induction fuel generalizing i p with
  | zero => cases member
  | succ fuel ih =>
    cases running : active p with
    | false =>
      rw [asked_of_inactive running] at member
      cases member
    | true =>
      rw [asked,if_pos running] at member
      cases follows : (page i p).2 with
      | none =>
        rw [follows] at member
        rw [List.mem_singleton.mp member]
      | some q =>
        rw [follows] at member
        obtain rfl | later := List.mem_cons.mp member
        · exact le_refl _
        · exact (moves i p q follows running).trans (ih later)

/-- The good ones of a loop's windows cover its interval when all of them are, and none starts at
    the bound. -/
theorem asked_windows_covers_iff {size bound : ℤ} {page : ℕ → ℤ → List α × Option ℤ} (good : ℕ → ℤ → Prop) (notNegative : 0 ≤ size)
    (next : ∀ i p, (page i p).2 = some (min (p + size) bound + 1)) {fuel i : ℕ} {p : ℤ}
    (left : (asked (fun q => q < bound) page fuel i p).2 = true) :
    (∀ t, p ≤ t → t ≤ bound →
        ∃ a ∈ (asked (fun q => q < bound) page fuel i p).1, good a.1 a.2 ∧ a.2 ≤ t ∧ t ≤ min (a.2 + size) bound) ↔
      p ≠ bound ∧ ∀ a ∈ (asked (fun q => q < bound) page fuel i p).1, good a.1 a.2 ∧ min (a.2 + size) bound + 1 ≠ bound := by
  induction fuel generalizing i p with
  | zero =>
    have high : bound ≤ p := by simpa [asked] using left
    simp only [asked,List.not_mem_nil,false_and,exists_false,imp_false,false_implies,implies_true,and_true]
    exact ⟨fun empty same => empty bound same.le (le_refl _),fun other t above below => by omega⟩
  | succ fuel ih =>
    by_cases low : p < bound
    · have positions : ∀ a ∈ (asked (fun q => q < bound) page fuel (i + 1) (min (p + size) bound + 1)).1,
          min (p + size) bound + 1 ≤ a.2 := by
        refine fun a member => asked_above ?_ member
        intro j q q' follows running
        have := of_decide_eq_true running
        rw [next] at follows
        cases follows
        omega
      rw [asked,if_pos (decide_eq_true low),next] at left ⊢
      dsimp only at left ⊢
      have later := ih left
      simp only [List.mem_cons,exists_eq_or_imp,forall_eq_or_imp]
      rw [and_assoc,← later]
      constructor
      · intro covered
        refine ⟨low.ne,?_,fun t above below => ?_⟩
        · obtain ⟨isGood,-⟩ | ⟨a,member,-,atStart,-⟩ := covered p (le_refl _) low.le
          · exact isGood
          · have := positions a member
            omega
        · obtain ⟨-,-,inside⟩ | rest := covered t (by omega) below
          · omega
          · exact rest
      · rintro ⟨-,isGood,rest⟩ t above below
        by_cases here : t ≤ min (p + size) bound
        · exact .inl ⟨isGood,above,here⟩
        · exact .inr (rest t (by omega) below)
    · have inactive : (fun q : ℤ => decide (q < bound)) p = false := decide_eq_false low
      rw [@asked_of_inactive _ _ (fun q : ℤ => q < bound) _ p inactive]
      simp only [List.not_mem_nil,false_and,exists_false,imp_false,false_implies,implies_true,and_true]
      exact ⟨fun empty same => empty bound same.le (le_refl _),fun other t above below => by omega⟩

end Paging
end FundingRadar
