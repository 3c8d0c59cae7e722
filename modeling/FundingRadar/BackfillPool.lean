import FundingRadar.Backfill
import FundingRadar.Semaphore

/-!
`run_all` of the backfill: a task for every collector, of which at most three run `backfill` at
once, and one `gather` that keeps what each raised. Whatever a backfill does and in whatever
order the tasks go on, each collector is backfilled once and its failure is reported against it,
and no failure keeps another collector from its turn (`run_all_settles`).
-/
namespace FundingRadar
open Runs Semaphore Backfill

namespace BackfillPool

/-- What `backfill` of a collector returns or raises. -/
abbrev Result := Except BackfillError ℕ

/-- `asyncio.Semaphore(3)`. -/
def atOnce : ℕ := 3

section
variable {κ : Type} (collectors : List κ)

/-- The tasks of the collectors, by their places. -/
def tasks : Pool ℕ Result := start atOnce (List.range collectors.length)
/-- What `gather` returns, once every task has ended. -/
def gathered (p : Pool ℕ Result) : Option (List Result) := (List.range collectors.length).mapM fun i => Dict.lookup i p.finished
/-- The errors that are logged. -/
def failures (results : List Result) : List (κ × BackfillError) :=
  (collectors.zip results).filterMap fun
    | (c,.error e) => some (c,e)
    | (_,.ok _) => none

end

theorem mapM_eq_map {ρ : Type} {f : ℕ → Option ρ} {g : ℕ → ρ} {items : List ℕ} (found : ∀ i ∈ items, f i = some (g i)) :
    items.mapM f = some (items.map g) := by
  induction items with
  | nil => rfl
  | cons i rest ih =>
    rw [List.mapM_cons,found i (List.mem_cons_self ..),ih fun j member => found j (List.mem_cons_of_mem i member)]
    rfl

variable {κ : Type} {collectors : List κ} {actions : List (Action ℕ Result)}

theorem mem_failures_iff {results : List Result} {c : κ} {e : BackfillError} :
    (c,e) ∈ failures collectors results ↔ ∃ i : ℕ, collectors[i]? = some c ∧ results[i]? = some (Except.error e) := by
  have reported : (c,e) ∈ failures collectors results ↔ (c,.error e) ∈ collectors.zip results := by
    rw [failures,List.mem_filterMap]
    constructor
    · rintro ⟨⟨c',r⟩,member,reports⟩
      cases r with
      | ok n => cases reports
      | error e' =>
        cases reports
        exact member
    · exact fun member => ⟨_,member,rfl⟩
  rw [reported,List.mem_iff_getElem?]
  simp only [List.getElem?_zip_eq_some]

theorem mem_results_iff {i : ℕ} {r : Result} : (i,r) ∈ actions.filterMap Action.result? ↔ .finish i r ∈ actions := by
  rw [List.mem_filterMap]
  constructor
  · rintro ⟨a,member,same⟩
    cases a with
    | finish j r' =>
      cases same
      exact member
    | enter j => cases same
    | resume j => cases same
  · exact fun member => ⟨_,member,rfl⟩

/-- In every order of the steps of the tasks: a backfill is never one of more than three, no more
    than three steps are taken for each collector, and once none is left every collector has been
    backfilled once, `gather` returns what each backfill returned or raised, in the order of the
    collectors, and exactly the collectors whose backfill raised are logged. -/
theorem run_all_settles (collectors : List κ) (actions : List (Action ℕ Result)) (each : Each step Enabled (tasks collectors) actions) :
    actions.length ≤ 3 * collectors.length ∧
    Throughout step (fun p => p.running.length ≤ atOnce) (tasks collectors) actions ∧
    ((∀ a, ¬ Enabled (actions.foldl step (tasks collectors)) a) →
      (outputs step begun (tasks collectors) actions).Perm (List.range collectors.length) ∧
      ∃ results, gathered collectors (actions.foldl step (tasks collectors)) = some results ∧
        results.length = collectors.length ∧ (∀ i r, results[i]? = some r ↔ .finish i r ∈ actions) ∧
        ∀ c e, (c,e) ∈ failures collectors results ↔ ∃ i, collectors[i]? = some c ∧ .finish i (.error e) ∈ actions) := by
  refine ⟨?_,running_le each,fun stuck => ?_⟩
  · have bound := run_rank each
    simp only [tasks,start,Pool.rank,List.length_range,List.length_nil] at bound
    omega
  · obtain ⟨started,ended⟩ := settled (by decide) each (.ok 0) stuck
    have finished : (actions.foldl step (tasks collectors)).finished = actions.filterMap Action.result? :=
      run_finished (tasks collectors) actions
    have once : ((actions.filterMap Action.result?).map Prod.fst).Nodup := ended.nodup_iff.mpr List.nodup_range
    have found : ∀ i < collectors.length, ∃ r, Dict.lookup i (actions.filterMap Action.result?) = some r := by
      intro i inside
      obtain ⟨⟨j,r⟩,member,rfl⟩ := List.mem_map.mp (ended.mem_iff.mpr (List.mem_range.mpr inside))
      exact ⟨r,(Dict.lookup_eq_some_iff once j r).mpr member⟩
    have out : ∀ i r, Dict.lookup i (actions.filterMap Action.result?) = some r → i < collectors.length := by
      intro i r held
      have member : i ∈ (actions.filterMap Action.result?).map Prod.fst :=
        List.mem_map.mpr ⟨(i,r),(Dict.lookup_eq_some_iff once i r).mp held,rfl⟩
      exact List.mem_range.mp (ended.mem_iff.mp member)
    obtain ⟨g,known⟩ : ∃ g : ℕ → Result, ∀ i < collectors.length, Dict.lookup i (actions.filterMap Action.result?) = some (g i) := by
      refine ⟨fun i => (Dict.lookup i (actions.filterMap Action.result?)).getD (.ok 0),fun i inside => ?_⟩
      obtain ⟨r,held⟩ := found i inside
      simp only [held,Option.getD_some]
    have placed : ∀ i r, ((List.range collectors.length).map g)[i]? = some r ↔ .finish i r ∈ actions := by
      intro i r
      rw [← mem_results_iff,← Dict.lookup_eq_some_iff once]
      by_cases inside : i < collectors.length
      · rw [List.getElem?_map,List.getElem?_range inside,Option.map_some,known i inside]
      · constructor
        · intro impossible
          simp [inside] at impossible
        · exact fun held => absurd (out i r held) inside
    refine ⟨started,(List.range collectors.length).map g,?_,?_,placed,fun c e => ?_⟩
    · rw [gathered,finished]
      exact mapM_eq_map fun i member => known i (List.mem_range.mp member)
    · rw [List.length_map,List.length_range]
    · rw [mem_failures_iff]
      simp only [placed]

/-- Five collectors, of which the second fails while the fourth and the fifth wait. -/
def oneFails : List (Action ℕ Result) :=
  [.enter 0,.enter 1,.enter 2,.enter 3,.enter 4,.finish 1 (.error .database),.finish 0 (.ok 500),.resume 4,.resume 3,
    .finish 2 (.ok 7),.finish 3 (.ok 0),.finish 4 (.ok 1)]

theorem oneFails_settles : Each step Enabled (tasks ["a","b","c","d","e"]) oneFails ∧
    (∃ results, gathered ["a","b","c","d","e"] (oneFails.foldl step (tasks ["a","b","c","d","e"])) = some results ∧
      ∀ c e, (c,e) ∈ failures ["a","b","c","d","e"] results ↔
        ∃ i, ["a","b","c","d","e"][i]? = some c ∧ .finish i (.error e) ∈ oneFails) := by
  have each : Each step Enabled (tasks ["a","b","c","d","e"]) oneFails := by
    simp only [oneFails,each_cons]
    refine ⟨?_,?_,?_,?_,?_,?_,?_,?_,?_,?_,?_,?_,each_nil⟩ <;> decide
  have stuck : ∀ a, ¬ Enabled (oneFails.foldl step (tasks ["a","b","c","d","e"])) a := by
    intro a
    cases a with
    | enter i => exact List.not_mem_nil
    | resume i => exact List.not_mem_nil
    | finish i r => exact List.not_mem_nil
  obtain ⟨-,results,returned,-,-,reported⟩ := (run_all_settles ["a","b","c","d","e"] oneFails each).2.2 stuck
  exact ⟨each,results,returned,reported⟩

end BackfillPool
end FundingRadar
