import Mathlib.Order.Lattice
import Mathlib.Data.List.Induction
import Mathlib.Logic.Function.Basic

/-!
A keyed store that keeps the last value received under every key, stamped with the
time of its arrival, and drops on demand whatever is older than a limit. The store
is a function, so it has no representation to keep consistent; a program that keeps
the same data in several indexes is compared with it. What the store holds after
any sequence of events has a description that mentions no intermediate store
(`run_eq_some_iff`).
-/
namespace FundingRadar.ExpiringStore

/-- What happens to the store, at a time. -/
inductive Event (κ ν τ : Type*)
  | receive (now : τ) (key : κ) (value : ν)
  | expire (now : τ)

/-- The value under every key, with the time of its arrival. -/
abbrev Store (κ ν τ : Type*) := κ → Option (ν × τ)

variable {κ ν τ : Type*} [DecidableEq κ] [LinearOrder τ] [Sub τ]

/-- A value that arrived at `arrived` is older than the limit at `now`. -/
def Stale (limit now arrived : τ) : Prop := limit < now - arrived
instance (limit now arrived : τ) : Decidable (Stale limit now arrived) := inferInstanceAs (Decidable (_ < _))

/-- The store after one event. -/
def apply (limit : τ) (s : Store κ ν τ) : Event κ ν τ → Store κ ν τ
  | .receive now key value => Function.update s key (some (value,now))
  | .expire now => fun key => (s key).filter (fun e => ¬ Stale limit now e.2)
/-- The store after a sequence of events, from the empty store. -/
def run (limit : τ) (events : List (Event κ ν τ)) : Store κ ν τ := events.foldl (apply limit) (fun _ => none)

/-- `value` is the last one received under `key`, at `arrived`, and no later expiry
    found it stale. -/
def LastReceived (limit : τ) (events : List (Event κ ν τ)) (key : κ) (value : ν) (arrived : τ) : Prop :=
  ∃ before after, events = before ++ .receive arrived key value :: after ∧
    (∀ now other, .receive now key other ∉ after) ∧ ∀ now, .expire now ∈ after → ¬ Stale limit now arrived

omit [DecidableEq κ] in
theorem lastReceived_snoc (limit : τ) (events : List (Event κ ν τ)) (e : Event κ ν τ) (key : κ) (value : ν) (arrived : τ) :
    LastReceived limit (events ++ [e]) key value arrived ↔
      e = .receive arrived key value ∨
      (LastReceived limit events key value arrived ∧ (∀ now other, e ≠ .receive now key other) ∧
        ∀ now, e = .expire now → ¬ Stale limit now arrived) := by
  constructor
  · rintro ⟨before,after,split,latest,fresh⟩
    rcases List.eq_nil_or_concat after with rfl | ⟨init,last,rfl⟩
    · exact .inl (List.singleton_inj.mp (List.append_inj' split rfl).2)
    · rw [List.concat_eq_append] at split latest fresh
      have split' : events ++ [e] = (before ++ .receive arrived key value :: init) ++ [last] := by
        simpa using split
      obtain ⟨rest,same⟩ := List.append_inj' split' rfl
      cases same
      refine .inr ⟨⟨before,init,rest,?_,?_⟩,?_,?_⟩
      · intro now other member; exact latest now other (List.mem_append_left _ member)
      · intro now member; exact fresh now (List.mem_append_left _ member)
      · rintro now other rfl; exact latest now other (by simp)
      · rintro now rfl; exact fresh now (by simp)
  · rintro (rfl | ⟨⟨before,after,rfl,latest,fresh⟩,notReceived,notExpired⟩)
    · exact ⟨events,[],rfl,by simp,by simp⟩
    · refine ⟨before,after ++ [e],by simp,?_,?_⟩
      · intro now other member
        rcases List.mem_append.mp member with old | new
        · exact latest now other old
        · exact notReceived now other (List.mem_singleton.mp new).symm
      · intro now member
        rcases List.mem_append.mp member with old | new
        · exact fresh now old
        · exact notExpired now (List.mem_singleton.mp new).symm

/-- The store holds exactly the last value received under a key, unless an expiry
    after its arrival found it stale. -/
theorem run_eq_some_iff (limit : τ) (events : List (Event κ ν τ)) (key : κ) (value : ν) (arrived : τ) :
    run limit events key = some (value,arrived) ↔ LastReceived limit events key value arrived := by
  induction events using List.reverseRecOn with
  | nil => simp [run,LastReceived]
  | append_singleton events e ih =>
    rw [lastReceived_snoc,run,List.foldl_append]
    change apply limit (run limit events) e key = some (value,arrived) ↔ _
    cases e with
    | receive now k v =>
      by_cases same : key = k
      · subst same
        simp [apply,and_comm]
      · have other : k ≠ key := Ne.symm same
        simp [apply,Function.update_of_ne same,ih,other]
    | expire now =>
      simp only [apply,Option.filter_eq_some_iff,decide_eq_true_eq,ih]
      constructor
      · rintro ⟨held,fresh⟩
        exact .inr ⟨held,by simp,by rintro _ ⟨⟩; exact fresh⟩
      · rintro (impossible | ⟨held,-,fresh⟩)
        · cases impossible
        · exact ⟨held,fresh now rfl⟩

end FundingRadar.ExpiringStore
