import Mathlib.Order.Lattice
import Mathlib.Logic.Function.Basic

/-!
Keys that clients set where they are free, and that lapse some time after they were set. A
client leaves its key to lapse or deletes it, and a deletion does not ask who set the key.
While every client acts on its key before that lapses, the key of a client that still has
it, or that left it to lapse, is the one that this client set (`Inv.held`), and no two such
clients of one key set it while the other's had not lapsed (`Inv.apart`).
-/
namespace FundingRadar.Lease
set_option linter.unusedSectionVars false

/-- Where a client stands; from `holding` on, with the time at which it set its key. -/
inductive Phase (τ : Type*)
  | waiting
  | holding (since : τ)
  | leaving (since : τ)
  | kept (since : τ)
  | ended
deriving DecidableEq

/-- The time at which the key was set that the client has or left to lapse. -/
def Phase.since {τ : Type*} : Phase τ → Option τ
  | .holding t => some t
  | .leaving t => some t
  | .kept t => some t
  | .waiting => none
  | .ended => none
/-- The client still acts on its key. -/
def Phase.acts {τ : Type*} : Phase τ → Bool
  | .holding _ => true
  | .leaving _ => true
  | _ => false

/-- The clock, who set every key and when, and the clients with their keys. -/
structure Table (κ ι τ : Type*) where
  now : τ
  keys : κ → Option (ι × τ)
  clients : ι → Option (κ × Phase τ)

inductive Op (κ ι τ : Type*)
  /-- The clock moves on, never back. -/
  | elapse (later : τ)
  | enter (i : ι) (k : κ)
  /-- Set the key unless one is there that has not lapsed. -/
  | acquire (i : ι)
  | keep (i : ι)
  | abandon (i : ι)
  | leave (i : ι)
  /-- Delete the key, whoever set it. -/
  | delete (i : ι)

variable {κ ι τ : Type*} [DecidableEq κ] [DecidableEq ι] [LinearOrder τ]

/-- The client of an operation on a key that it has. -/
def Op.actor : Op κ ι τ → Option ι
  | .keep i => some i
  | .abandon i => some i
  | .leave i => some i
  | .delete i => some i
  | _ => none

-- `live set now`: a key set at one time has not lapsed at another.
variable (live : τ → τ → Prop) [DecidableRel live]

/-- A key is there, and has not lapsed. -/
def Table.Held (s : Table κ ι τ) (k : κ) : Prop := ∃ e ∈ s.keys k, live e.2 s.now
instance (s : Table κ ι τ) (k : κ) : Decidable (s.Held live k) :=
  inferInstanceAs (Decidable (∃ e ∈ s.keys k, live e.2 s.now))

/-- A client goes to another phase. -/
def Table.move (s : Table κ ι τ) (i : ι) (k : κ) (p : Phase τ) : Table κ ι τ :=
  { s with clients := Function.update s.clients i (some (k,p)) }

def apply (s : Table κ ι τ) : Op κ ι τ → Table κ ι τ
  | .elapse later => { s with now := max s.now later }
  | .enter i k =>
    match s.clients i with
    | none => s.move i k .waiting
    | some _ => s
  | .acquire i =>
    match s.clients i with
    | some (k,.waiting) =>
      if s.Held live k then s.move i k .ended
      else { s.move i k (.holding s.now) with keys := Function.update s.keys k (some (i,s.now)) }
    | _ => s
  | .keep i =>
    match s.clients i with
    | some (k,.holding t) => s.move i k (.kept t)
    | _ => s
  | .abandon i =>
    match s.clients i with
    | some (k,.holding _) => s.move i k .ended
    | _ => s
  | .leave i =>
    match s.clients i with
    | some (k,.holding t) => s.move i k (.leaving t)
    | _ => s
  | .delete i =>
    match s.clients i with
    | some (k,.leaving _) => { s.move i k .ended with keys := Function.update s.keys k none }
    | _ => s

/-- A client acts on a key that it has before that lapses. -/
def InTime (s : Table κ ι τ) (op : Op κ ι τ) : Prop :=
  ∀ i ∈ op.actor, ∀ k p t, s.clients i = some (k,p) → p.acts = true → p.since = some t → live t s.now

/-- What every key and every client agree on. -/
structure Inv (s : Table κ ι τ) : Prop where
  past : ∀ i k p t, s.clients i = some (k,p) → p.since = some t → t ≤ s.now
  held : ∀ i k p t, s.clients i = some (k,p) → p.since = some t → live t s.now → s.keys k = some (i,t)
  apart : ∀ i j k p q t u, i ≠ j → s.clients i = some (k,p) → s.clients j = some (k,q) → p.since = some t → q.since = some u →
    t ≤ u → ¬live t u

variable {live} {s : Table κ ι τ}

theorem inv_start (now : τ) (keys : κ → Option (ι × τ)) : Inv live (⟨now,keys,fun _ => none⟩ : Table κ ι τ) where
  past := fun _ _ _ _ found => by cases found
  held := fun _ _ _ _ found => by cases found
  apart := fun _ _ _ _ _ _ _ _ found => by cases found

/-- A client keeps the time at which it set its key, or has none. -/
theorem Inv.moved (inv : Inv live s) (i : ι) (k : κ) (p : Phase τ)
    (keeps : ∀ t, p.since = some t → ∃ p', s.clients i = some (k,p') ∧ p'.since = some t) : Inv live (s.move i k p) := by
  have origin : ∀ j k' q t, (s.move i k p).clients j = some (k',q) → q.since = some t →
      ∃ q', s.clients j = some (k',q') ∧ q'.since = some t := by
    intro j k' q t at_j set
    simp only [Table.move,Function.update_apply] at at_j
    split at at_j
    · next isI =>
      cases at_j
      exact isI ▸ keeps t set
    · exact ⟨q,at_j,set⟩
  refine ⟨?_,?_,?_⟩
  · intro j k' q t at_j set
    obtain ⟨q',before,set'⟩ := origin j k' q t at_j set
    exact inv.past j k' q' t before set'
  · intro j k' q t at_j set fresh
    obtain ⟨q',before,set'⟩ := origin j k' q t at_j set
    exact inv.held j k' q' t before set' fresh
  · intro j j' k' q r t u apart at_j at_j' set set'
    obtain ⟨q',before,setBefore⟩ := origin j k' q t at_j set
    obtain ⟨r',before',setBefore'⟩ := origin j' k' r u at_j' set'
    exact inv.apart j j' k' q' r' t u apart before before' setBefore setBefore'

theorem Inv.elapsed (mono : ∀ t a b, a ≤ b → live t b → live t a) (inv : Inv live s) (later : τ) :
    Inv live (apply live s (.elapse later)) where
  past := fun i k p t found set => (inv.past i k p t found set).trans (le_max_left ..)
  held := fun i k p t found set fresh => inv.held i k p t found set (mono _ _ _ (le_max_left ..) fresh)
  apart := inv.apart

theorem Inv.acquired (inv : Inv live s) {i : ι} {k : κ} (found : s.clients i = some (k,.waiting)) (free : ¬s.Held live k) :
    Inv live { s.move i k (.holding s.now) with keys := Function.update s.keys k (some (i,s.now)) } := by
  -- Whoever had the key set it at a time that has lapsed by now.
  have lapsed : ∀ j p t, s.clients j = some (k,p) → p.since = some t → ¬live t s.now := by
    intro j p t at_j set fresh
    exact free ⟨(j,t),inv.held j k p t at_j set fresh,fresh⟩
  have origin : ∀ j k' p t, (s.move i k (.holding s.now)).clients j = some (k',p) → p.since = some t →
      j = i ∧ k' = k ∧ t = s.now ∨ j ≠ i ∧ s.clients j = some (k',p) := by
    intro j k' p t at_j set
    simp only [Table.move,Function.update_apply] at at_j
    split at at_j
    · next isI =>
      cases at_j
      cases set
      exact .inl ⟨isI,rfl,rfl⟩
    · next other => exact .inr ⟨other,at_j⟩
  refine ⟨?_,?_,?_⟩
  · intro j k' p t at_j set
    rcases origin j k' p t at_j set with ⟨-,-,rfl⟩ | ⟨-,before⟩
    · exact le_refl _
    · exact inv.past j k' p t before set
  · intro j k' p t at_j set fresh
    rcases origin j k' p t at_j set with ⟨rfl,rfl,rfl⟩ | ⟨other,before⟩
    · exact Function.update_self ..
    · have apart : k' ≠ k := by
        rintro rfl
        exact lapsed j p t before set fresh
      exact (Function.update_of_ne apart ..).trans (inv.held j k' p t before set fresh)
  · intro j j' k' p q t u different at_j at_j' set set' le
    rcases origin j k' p t at_j set with ⟨rfl,rfl,rfl⟩ | ⟨-,before⟩
    · rcases origin j' k' q u at_j' set' with ⟨rfl,-,-⟩ | ⟨-,before'⟩
      · exact absurd rfl different
      · -- The other one set the key before, so both did at one time.
        have same : u = s.now := le_antisymm (inv.past j' k' q u before' set') le
        rw [same]
        exact same ▸ lapsed j' q u before' set'
    · rcases origin j' k' q u at_j' set' with ⟨rfl,rfl,rfl⟩ | ⟨-,before'⟩
      · exact lapsed j p t before set
      · exact inv.apart j j' k' p q t u different before before' set set' le

/-- A key that is deleted in time is the client's own. -/
theorem Inv.own_key (inv : Inv live s) {i : ι} {k : κ} {t : τ} (found : s.clients i = some (k,.leaving t))
    (inTime : InTime live s (.delete i)) : s.keys k = some (i,t) :=
  inv.held i k _ t found rfl (inTime i rfl k _ t found rfl rfl)

theorem Inv.deleted (inv : Inv live s) {i : ι} {k : κ} {t : τ} (found : s.clients i = some (k,.leaving t))
    (inTime : InTime live s (.delete i)) : Inv live { s.move i k .ended with keys := Function.update s.keys k none } := by
  have own := inv.own_key found inTime
  have moved := inv.moved i k .ended (fun _ set => by cases set)
  refine ⟨moved.past,?_,moved.apart⟩
  intro j k' p u at_j set fresh
  have before := moved.held j k' p u at_j set fresh
  have other : k' ≠ k := by
    rintro rfl
    cases own.symm.trans before
    simp only [Table.move,Function.update_self] at at_j
    cases at_j
    cases set
  exact (Function.update_of_ne other ..).trans before

theorem Inv.step (mono : ∀ t a b, a ≤ b → live t b → live t a) (inv : Inv live s) {op : Op κ ι τ} (inTime : InTime live s op) :
    Inv live (apply live s op) := by
  cases op with
  | elapse later => exact inv.elapsed mono later
  | enter i k =>
    simp only [apply]
    split
    · exact inv.moved i k .waiting (fun _ set => by cases set)
    · exact inv
  | acquire i =>
    simp only [apply]
    split
    · next k found =>
      split
      · exact inv.moved i k .ended (fun _ set => by cases set)
      · next free => exact inv.acquired found free
    · exact inv
  | keep i =>
    simp only [apply]
    split
    · next k t found => exact inv.moved i k (.kept t) (fun _ set => ⟨_,found,set⟩)
    · exact inv
  | abandon i =>
    simp only [apply]
    split
    · next k _ found => exact inv.moved i k .ended (fun _ set => by cases set)
    · exact inv
  | leave i =>
    simp only [apply]
    split
    · next k t found => exact inv.moved i k (.leaving t) (fun _ set => ⟨_,found,set⟩)
    · exact inv
  | delete i =>
    simp only [apply]
    split
    · next found => exact inv.deleted found inTime
    · exact inv

/-- A key that has not lapsed changes only where the client that set it deletes it. -/
theorem Inv.key_changes (inv : Inv live s) {op : Op κ ι τ} (inTime : InTime live s op) {k : κ} {i : ι} {t : τ}
    (found : s.keys k = some (i,t)) (fresh : live t s.now) (changes : (apply live s op).keys k ≠ some (i,t)) :
    op = .delete i ∧ s.clients i = some (k,.leaving t) := by
  cases op with
  | elapse later => exact absurd found changes
  | enter j k' =>
    simp only [apply] at changes
    split at changes <;> exact absurd found changes
  | acquire j =>
    simp only [apply] at changes
    split at changes
    · next k' _ =>
      split at changes
      · exact absurd found changes
      · next free =>
        have other : k ≠ k' := by
          rintro rfl
          exact free ⟨(i,t),found,fresh⟩
        exact absurd ((Function.update_of_ne other ..).trans found) changes
    · exact absurd found changes
  | keep j =>
    simp only [apply] at changes
    split at changes <;> exact absurd found changes
  | abandon j =>
    simp only [apply] at changes
    split at changes <;> exact absurd found changes
  | leave j =>
    simp only [apply] at changes
    split at changes <;> exact absurd found changes
  | delete j =>
    simp only [apply] at changes
    split at changes
    · next k' u leaving =>
      have own := inv.own_key leaving inTime
      by_cases same : k = k'
      · subst same
        cases own.symm.trans found
        exact ⟨rfl,leaving⟩
      · exact absurd ((Function.update_of_ne same ..).trans found) changes
    · exact absurd found changes

end FundingRadar.Lease
