import Mathlib.Data.List.Basic

/-!
Units of work over a store that can refuse writes. A session stages writes, flushes
them all or none, and rolls back to what was committed last. All that becomes of a
session shows in its `outcome`, the store that a commit would leave: a flush succeeds
when there is one and keeps it, staging a write extends it, a rollback resets it.
-/
namespace FundingRadar

/-- A session: the store at its start, the store with what it has flushed, and the
    writes that wait for the next flush. -/
structure Session (δ ω : Type) where
  base : δ
  view : δ
  pending : List ω

namespace Session
variable {δ ω : Type} (apply : δ → ω → Option δ)

def start (d : δ) : Session δ ω := ⟨d,d,[]⟩
def stage (s : Session δ ω) (w : ω) : Session δ ω := { s with pending := s.pending ++ [w] }
def rollback (s : Session δ ω) : Session δ ω := start s.base

/-- The store with every write of the session. -/
def outcome (s : Session δ ω) : Option δ := s.pending.foldlM apply s.view
/-- All pending writes; none of them where the store refuses one. -/
def flush (s : Session δ ω) : Option (Session δ ω) := (s.outcome apply).map fun d => ⟨s.base,d,[]⟩
def commit (s : Session δ ω) : Option δ := (s.flush apply).map view

@[simp] theorem outcome_start (d : δ) : (start d : Session δ ω).outcome apply = some d := rfl
@[simp] theorem outcome_rollback (s : Session δ ω) : s.rollback.outcome apply = some s.base := rfl
@[simp] theorem view_rollback (s : Session δ ω) : s.rollback.view = s.base := rfl

theorem outcome_stage (s : Session δ ω) (w : ω) : (s.stage w).outcome apply = (s.outcome apply).bind fun d => apply d w := by
  rw [outcome,stage,List.foldlM_append]
  simp only [List.foldlM_cons,List.foldlM_nil,bind_pure]
  rfl

theorem commit_eq_outcome (s : Session δ ω) : s.commit apply = s.outcome apply := by
  rw [commit,flush,Option.map_map]
  cases s.outcome apply <;> rfl

theorem flush_eq_none_iff (s : Session δ ω) : s.flush apply = none ↔ s.outcome apply = none := by
  rw [flush,Option.map_eq_none_iff]

variable {apply}

/-- A flush that succeeds keeps the base and the outcome. -/
theorem flush_eq_some {s s' : Session δ ω} (flushed : s.flush apply = some s') :
    s'.base = s.base ∧ ∃ d, s.outcome apply = some d ∧ s'.outcome apply = some d := by
  rw [flush,Option.map_eq_some_iff] at flushed
  obtain ⟨d,written,rfl⟩ := flushed
  exact ⟨rfl,d,written,rfl⟩

end Session
end FundingRadar
