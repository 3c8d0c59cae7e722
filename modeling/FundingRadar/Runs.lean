import Mathlib.Data.List.Induction
import Mathlib.Data.List.Nodup

/-!
Runs of a step function over a list of actions. A condition on single steps decides a
property of states along a whole run once it decides what one step does from a state that
an invariant describes: either because the step condition is what keeps the property
(`throughout_iff`, `last_iff`), or because it keeps the invariant (`kept_of_conditions`).
-/
namespace FundingRadar.Runs
variable {σ α : Type*} {step : σ → α → σ} {s : σ}

/-- Every step of the run meets the condition, in the state in which it is taken. -/
def Each (step : σ → α → σ) (condition : σ → α → Prop) (s : σ) (actions : List α) : Prop :=
  ∀ before a after, actions = before ++ a :: after → condition (before.foldl step s) a
/-- Every state of the run, the first and the last included, has the property. -/
def Throughout (step : σ → α → σ) (property : σ → Prop) (s : σ) (actions : List α) : Prop :=
  ∀ before, before <+: actions → property (before.foldl step s)

/-- What the steps of the run put out, in order. -/
def outputs {β : Type*} (step : σ → α → σ) (emit : σ → α → List β) : σ → List α → List β
  | _,[] => []
  | s,a :: rest => emit s a ++ outputs step emit (step s a) rest

variable {condition : σ → α → Prop} {property : σ → Prop}

theorem each_nil : Each step condition s [] := by
  intro before a after impossible
  simp at impossible

theorem each_cons (a : α) (rest : List α) :
    Each step condition s (a :: rest) ↔ condition s a ∧ Each step condition (step s a) rest := by
  constructor
  · intro each
    refine ⟨each [] a rest rfl,?_⟩
    rintro before b after rfl
    exact each (a :: before) b after rfl
  · rintro ⟨first,later⟩ before b after split
    cases before with
    | nil =>
      obtain ⟨rfl,rfl⟩ := List.cons.inj split
      exact first
    | cons c before =>
      obtain ⟨rfl,rest⟩ := List.cons.inj split
      exact later before b after rest

theorem throughout_nil : Throughout step property s [] ↔ property s := by
  constructor
  · exact fun always => always [] (List.nil_prefix ..)
  · intro first before within
    rw [List.prefix_nil.mp within]
    exact first

theorem throughout_cons (a : α) (rest : List α) :
    Throughout step property s (a :: rest) ↔ property s ∧ Throughout step property (step s a) rest := by
  constructor
  · intro always
    refine ⟨always [] (List.nil_prefix ..),?_⟩
    intro before within
    exact always (a :: before) (List.cons_prefix_cons.mpr ⟨rfl,within⟩)
  · rintro ⟨first,later⟩ before within
    cases before with
    | nil => exact first
    | cons b before =>
      obtain ⟨rfl,inRest⟩ := List.cons_prefix_cons.mp within
      exact later before inRest

theorem Throughout.start {actions : List α} (always : Throughout step property s actions) : property s :=
  always [] (List.nil_prefix ..)

variable {inv : σ → Prop}

/-- An invariant of the steps holds after a run. -/
theorem kept_run (keeps : ∀ s a, inv s → inv (step s a)) (holds : inv s) (actions : List α) : inv (actions.foldl step s) := by
  induction actions generalizing s with
  | nil => exact holds
  | cons a rest ih => exact ih (keeps s a holds)

theorem outputs_append {β : Type*} {emit : σ → α → List β} (before after : List α) :
    outputs step emit s (before ++ after) = outputs step emit s before ++ outputs step emit (before.foldl step s) after := by
  induction before generalizing s with
  | nil => rfl
  | cons a before ih => rw [List.cons_append,outputs,ih,outputs,List.append_assoc,List.foldl_cons]

/-- An invariant of the states and of all that has been put out. -/
theorem outputs_kept {β : Type*} {emit : σ → α → List β} {inv : List β → σ → Prop}
    (keeps : ∀ out s a, inv out s → inv (out ++ emit s a) (step s a)) (holds : inv [] s) (actions : List α) :
    inv (outputs step emit s actions) (actions.foldl step s) := by
  induction actions using List.reverseRecOn with
  | nil => exact holds
  | append_singleton actions a ih =>
    rw [outputs_append,List.foldl_append,outputs,outputs,List.append_nil]
    exact keeps _ _ a ih

/-- An invariant of the states and of all that has been put out, which the steps keep where they
    meet the condition. -/
theorem outputs_kept_of_each {β : Type*} {emit : σ → α → List β} {inv : List β → σ → Prop}
    (keeps : ∀ out s a, inv out s → condition s a → inv (out ++ emit s a) (step s a)) (holds : inv [] s) {actions : List α}
    (each : Each step condition s actions) : inv (outputs step emit s actions) (actions.foldl step s) := by
  induction actions using List.reverseRecOn with
  | nil => exact holds
  | append_singleton actions a ih =>
    rw [outputs_append,List.foldl_append,outputs,outputs,List.append_nil]
    refine keeps _ _ a (ih ?_) (each actions a [] rfl)
    rintro before b after rfl
    exact each before b (after ++ [a]) (List.append_assoc before (b :: after) [a])

/-- An invariant that the steps keep where they meet the condition. -/
theorem kept_of_conditions (keeps : ∀ s a, inv s → condition s a → inv (step s a)) (holds : inv s) {actions : List α}
    (each : Each step condition s actions) : Throughout step inv s actions := by
  induction actions generalizing s with
  | nil => exact throughout_nil.mpr holds
  | cons a rest ih =>
    obtain ⟨first,later⟩ := (each_cons a rest).mp each
    exact (throughout_cons a rest).mpr ⟨holds,ih (keeps s a holds first) later⟩

/-- Where a step from a state with the property leads to one exactly under the condition, all
    states of a run have the property exactly when all its steps meet the condition. -/
theorem throughout_iff (keeps : ∀ s a, inv s → inv (step s a))
    (decides : ∀ s a, inv s → property s → (property (step s a) ↔ condition s a)) (holds : inv s) (first : property s)
    (actions : List α) : Throughout step property s actions ↔ Each step condition s actions := by
  induction actions generalizing s with
  | nil => exact iff_of_true (throughout_nil.mpr first) each_nil
  | cons a rest ih =>
    have one := decides s a holds first
    rw [throughout_cons,each_cons]
    constructor
    · rintro ⟨-,later⟩
      exact ⟨one.mp later.start,(ih (keeps s a holds) later.start).mp later⟩
    · rintro ⟨here,later⟩
      have next := one.mpr here
      exact ⟨first,(ih (keeps s a holds) next).mpr later⟩

/-- The same of the last state alone, where the property is never regained. -/
theorem last_iff (keeps : ∀ s a, inv s → inv (step s a))
    (decides : ∀ s a, inv s → (property (step s a) ↔ property s ∧ condition s a)) (holds : inv s) (actions : List α) :
    property (actions.foldl step s) ↔ property s ∧ Each step condition s actions := by
  induction actions generalizing s with
  | nil => exact (and_iff_left each_nil).symm
  | cons a rest ih =>
    rw [List.foldl_cons,ih (keeps s a holds),decides s a holds,each_cons,and_assoc]

/-- A loop over items of distinct keys, whose rounds change what stands under their own key. -/
theorem foldl_own_key {κ ν : Type*} (view : σ → κ → ν) (key : α → κ) {result : α → ν} {items : List α}
    (distinct : (items.map key).Nodup) (others : ∀ s a j, j ≠ key a → view (step s a) j = view s j)
    (own : ∀ t, ∀ a ∈ items, view t (key a) = view s (key a) → view (step t a) (key a) = result a) :
    (∀ a ∈ items, view (items.foldl step s) (key a) = result a) ∧
      ∀ j ∉ items.map key, view (items.foldl step s) j = view s j := by
  induction items generalizing s with
  | nil => exact ⟨(fun _ impossible => by cases impossible),fun _ _ => rfl⟩
  | cons b rest ih =>
    obtain ⟨fresh,distinct⟩ := List.nodup_cons.mp distinct
    have rounds : ∀ t, ∀ a ∈ rest, view t (key a) = view (step s b) (key a) → view (step t a) (key a) = result a := by
      intro t a member same
      have apart : key a ≠ key b := fun same => fresh (same ▸ List.mem_map_of_mem member)
      exact own t a (List.mem_cons_of_mem b member) (same.trans (others s b (key a) apart))
    obtain ⟨changed,kept⟩ := ih distinct rounds
    refine ⟨?_,?_⟩
    · intro a member
      rcases List.mem_cons.mp member with rfl | later
      · exact (kept (key a) fresh).trans (own s a (List.mem_cons_self ..) rfl)
      · exact changed a later
    · intro j absent
      obtain ⟨here,later⟩ := not_or.mp (mt List.mem_cons.mpr absent)
      exact (kept j later).trans (others s b j here)

end FundingRadar.Runs
