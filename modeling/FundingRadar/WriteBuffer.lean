import FundingRadar.Dict

/-!
A buffer in front of a store that is written in batches. Items wait until their batch is
written, and the writer counts what every batch adds. Where the store takes two batches as
it takes them joined, neither the store in the end nor the count depends on where one batch
ended and the next began: `Since` is kept by every item (`Since.push`) and by every batch
(`Since.flush`), whenever it is written.
-/
namespace FundingRadar

/-- A store that takes batches of items: two batches come to what they come to as one, and
    none makes it smaller. -/
structure BatchStore (σ ρ : Type*) where
  write : σ → List ρ → σ
  size : σ → ℕ
  write_nil : ∀ s, write s [] = s
  write_append : ∀ s items more, write s (items ++ more) = write (write s items) more
  size_le : ∀ s items, size s ≤ size (write s items)

/-- A dictionary that keeps the first value of every key. -/
def BatchStore.firstWins {κ ν : Type*} [DecidableEq κ] : BatchStore (Dict κ ν) (κ × ν) where
  write := Dict.setDefaults
  size d := d.entries.length
  write_nil _ := rfl
  write_append := Dict.setDefaults_append
  size_le d items := d.length_le_setDefaults items

/-- The store, the items that wait, and how many were added. -/
structure WriteBuffer (σ ρ : Type*) where
  store : σ
  batch : List ρ
  added : ℕ

namespace WriteBuffer
variable {σ ρ : Type*} (w : BatchStore σ ρ)

def start (s : σ) : WriteBuffer σ ρ := ⟨s,[],0⟩
def push (b : WriteBuffer σ ρ) (item : ρ) : WriteBuffer σ ρ := ⟨b.store,b.batch ++ [item],b.added⟩
def flush (b : WriteBuffer σ ρ) : WriteBuffer σ ρ :=
  ⟨w.write b.store b.batch,[],b.added + (w.size (w.write b.store b.batch) - w.size b.store)⟩

/-- What the buffer has taken since the store was `first`: once the batch is written the
    store is what it is with all items written at once, and the count is what it has grown
    by so far. -/
structure Since (first : σ) (items : List ρ) (b : WriteBuffer σ ρ) : Prop where
  written : w.write b.store b.batch = w.write first items
  counted : w.size b.store = w.size first + b.added

variable {w} {first : σ} {items : List ρ} {b : WriteBuffer σ ρ}

theorem since_start (s : σ) : Since w s [] (start s) := ⟨rfl,rfl⟩
theorem Since.push (since : Since w first items b) (item : ρ) : Since w first (items ++ [item]) (b.push item) where
  written := by
    show w.write b.store (b.batch ++ [item]) = _
    rw [w.write_append,since.written,w.write_append]
  counted := since.counted
theorem Since.flush (since : Since w first items b) : Since w first items (b.flush w) where
  written := by
    show w.write (w.write b.store b.batch) [] = _
    rw [w.write_nil,since.written]
  counted := by
    have grows := w.size_le b.store b.batch
    have counted := since.counted
    show w.size (w.write b.store b.batch) = _ + (b.added + (_ - _))
    omega
/-- With nothing left to write, the store holds all items and the count is right. -/
theorem Since.settled (since : Since w first items b) (done : b.batch = []) :
    b.store = w.write first items ∧ w.size (w.write first items) = w.size first + b.added := by
  have written := since.written
  rw [done,w.write_nil] at written
  exact ⟨written,written ▸ since.counted⟩

end WriteBuffer
end FundingRadar
