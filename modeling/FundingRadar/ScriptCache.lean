import Mathlib.Data.List.Induction
import FundingRadar.RateLimiter

/-!
The limiter while Redis restarts. A restart empties the script cache and the buckets;
the SHA that a process keeps survives it. A call that overlaps the first call of its
process reads `_sha` as unset too and loads the script itself, so it counts here as the
first call of a further process.
-/
namespace FundingRadar.RateLimiter.Limiter

inductive Event
  | check (c : Call)
  | restart
  | expire (identifier : String)
deriving DecidableEq

def step (s : Limiter) : Event → Limiter
  | .check c => (s.check c).1
  | .restart => { s with scripts := [], buckets := .empty }
  | .expire identifier => { s with buckets := s.buckets.erase (keyOf identifier) }
/-- A run of new processes over what Redis holds. -/
def run (scripts : List String) (buckets : Dict String Bucket) (events : List Event) : Limiter :=
  events.foldl step ⟨scripts,buckets,.empty⟩

/-- Redis is reachable for the call, which does not return the decision of the script. -/
def Deviates (s : Limiter) (c : Call) : Prop := reachable ≤ c.redis ∧ (s.check c).2 ≠ s.decision c
instance (s : Limiter) (c : Call) : Decidable (s.Deviates c) := inferInstanceAs (Decidable (_ ∧ _))

/-- No call deviates before a restart, and at most one between a restart and the next. -/
def Enforces (scripts : List String) (buckets : Dict String Bucket) (events : List Event) : Prop :=
  (∀ before c after, events = before ++ .check c :: after → (run scripts buckets before).Deviates c → .restart ∈ before) ∧
  ∀ before c between d after, events = before ++ .check c :: (between ++ .check d :: after) →
    (run scripts buckets before).Deviates c → (run scripts buckets (before ++ .check c :: between)).Deviates d →
    .restart ∈ between

/-- A call of the process has reached Redis. -/
def Contacted (events : List Event) (process : ℕ) : Prop := ∃ c, .check c ∈ events ∧ c.process = process ∧ 1 ≤ c.redis
/-- A process has reached Redis for the first time since the last restart. -/
def Loaded (events : List Event) : Prop :=
  ∃ before c after, events = before ++ .check c :: after ∧ 1 ≤ c.redis ∧ ¬ Contacted before c.process ∧ .restart ∉ after
/-- A call that reaches Redis, of a process that has reached it before, while no process
    has reached it for the first time since the last restart. -/
def Stranded (before : List Event) (c : Call) : Prop := reachable ≤ c.redis ∧ Contacted before c.process ∧ ¬ Loaded before
/-- At most one stranded call between a restart and the next. -/
def SparesRestarts (events : List Event) : Prop :=
  ∀ before c between d after, events = before ++ .check c :: (between ++ .check d :: after) →
    Stranded before c → Stranded (before ++ .check c :: between) d → .restart ∈ between

/-! ### The events of a run -/

theorem contacted_snoc (events : List Event) (e : Event) (process : ℕ) :
    Contacted (events ++ [e]) process ↔ Contacted events process ∨ ∃ c, e = .check c ∧ c.process = process ∧ 1 ≤ c.redis := by
  constructor
  · rintro ⟨c,member,own,answered⟩
    rcases List.mem_append.mp member with old | new
    · exact .inl ⟨c,old,own,answered⟩
    · exact .inr ⟨c,(List.mem_singleton.mp new).symm,own,answered⟩
  · rintro (⟨c,old,own,answered⟩ | ⟨c,rfl,own,answered⟩)
    · exact ⟨c,List.mem_append_left _ old,own,answered⟩
    · exact ⟨c,List.mem_append_right _ (List.mem_singleton_self _),own,answered⟩

theorem loaded_snoc (events : List Event) (e : Event) :
    Loaded (events ++ [e]) ↔
      (∃ c, e = .check c ∧ 1 ≤ c.redis ∧ ¬ Contacted events c.process) ∨ (Loaded events ∧ e ≠ .restart) := by
  constructor
  · rintro ⟨before,c,after,split,answered,first,since⟩
    rcases List.eq_nil_or_concat after with rfl | ⟨init,last,rfl⟩
    · obtain ⟨rfl,same⟩ := List.append_inj' split rfl
      exact .inl ⟨c,List.singleton_inj.mp same,answered,first⟩
    · rw [List.concat_eq_append] at split since
      have split' : events ++ [e] = (before ++ .check c :: init) ++ [last] := by simpa using split
      obtain ⟨rfl,same⟩ := List.append_inj' split' rfl
      obtain rfl := List.singleton_inj.mp same
      refine .inr ⟨⟨before,c,init,rfl,answered,first,?_⟩,?_⟩
      · exact fun member => since (List.mem_append_left _ member)
      · rintro rfl
        exact since (List.mem_append_right _ (List.mem_singleton_self _))
  · rintro (⟨c,rfl,answered,first⟩ | ⟨⟨before,c,after,rfl,answered,first,since⟩,other⟩)
    · exact ⟨events,c,[],rfl,answered,first,List.not_mem_nil⟩
    · refine ⟨before,c,after ++ [e],by simp,answered,first,?_⟩
      intro member
      rcases List.mem_append.mp member with old | new
      · exact since old
      · exact other (List.mem_singleton.mp new).symm

/-- A process that has reached Redis loaded the script then. -/
theorem Contacted.loaded {events : List Event} {process : ℕ} (contacted : Contacted events process)
    (steady : .restart ∉ events) : Loaded events := by
  induction events using List.reverseRecOn with
  | nil =>
    obtain ⟨c,impossible,-⟩ := contacted
    cases impossible
  | append_singleton events e ih =>
    have before : .restart ∉ events := fun member => steady (List.mem_append_left _ member)
    have other : e ≠ .restart := by
      rintro rfl
      exact steady (List.mem_append_right _ (List.mem_singleton_self _))
    rw [loaded_snoc]
    by_cases old : Contacted events process
    · exact .inr ⟨ih old before,other⟩
    · rcases (contacted_snoc events e process).mp contacted with impossible | ⟨c,rfl,own,answered⟩
      · exact absurd impossible old
      · exact .inl ⟨c,rfl,answered,own ▸ old⟩

/-! ### What a run leaves -/

variable {s : Limiter} {c : Call}

theorem evaluate_cache (s : Limiter) (sha : String) (c : Call) :
    (s.evaluate sha c).1.scripts = s.scripts ∧ (s.evaluate sha c).1.shas = s.shas := by
  by_cases known : sha ∈ s.scripts
  · rw [evaluate_known known]
    exact ⟨rfl,rfl⟩
  · rw [evaluate_unknown known]
    exact ⟨rfl,rfl⟩

/-- A call loads the script exactly when its process keeps no SHA and reaches Redis. -/
theorem check_cache (s : Limiter) (c : Call) :
    ((s.check c).1.scripts = s.scripts ∧ (s.check c).1.shas = s.shas ∧
      ((∃ sha, s.shas.get? c.process = some sha) ∨ ¬ 1 ≤ c.redis)) ∨
    ((s.check c).1.scripts = luaSha :: s.scripts ∧ (s.check c).1.shas = s.shas.insert c.process luaSha ∧
      s.shas.get? c.process = none ∧ 1 ≤ c.redis) := by
  cases kept : s.shas.get? c.process with
  | some sha =>
    have same := evaluate_cache s sha c
    rw [check_kept kept]
    split
    · exact .inl ⟨rfl,rfl,.inl ⟨sha,rfl⟩⟩
    · exact .inl ⟨same.1,same.2,.inl ⟨sha,rfl⟩⟩
  | none =>
    have same := evaluate_cache (s.load c.process) luaSha c
    rw [check_first kept]
    split
    · next unreached => exact .inl ⟨rfl,rfl,.inr (by omega)⟩
    · next reached =>
      have positive : 1 ≤ c.redis := by omega
      split
      · exact .inr ⟨rfl,rfl,rfl,positive⟩
      · exact .inr ⟨same.1,same.2,rfl,positive⟩

variable (scripts : List String) (buckets : Dict String Bucket)

theorem run_snoc (events : List Event) (e : Event) :
    run scripts buckets (events ++ [e]) = (run scripts buckets events).step e := by
  rw [run,run,List.foldl_append]
  rfl

/-- A process keeps the SHA of the script exactly once it has reached Redis. -/
theorem run_shas (events : List Event) (process : ℕ) (sha : String) :
    (run scripts buckets events).shas.get? process = some sha ↔ sha = luaSha ∧ Contacted events process := by
  induction events using List.reverseRecOn generalizing sha with
  | nil =>
    constructor
    · intro impossible
      cases impossible
    · rintro ⟨-,c,impossible,-⟩
      cases impossible
  | append_singleton events e ih =>
    rw [run_snoc,contacted_snoc]
    cases e with
    | restart => simpa [step] using ih sha
    | expire identifier => simpa [step] using ih sha
    | check c =>
      rcases check_cache (run scripts buckets events) c with ⟨-,shas,before⟩ | ⟨-,shas,-,answered⟩
      · rw [step,shas,ih sha]
        have nothingNew : c.process = process → 1 ≤ c.redis → Contacted events process := by
          rintro rfl answered
          rcases before with ⟨old,kept⟩ | unreached
          · exact ((ih old).mp kept).2
          · exact absurd answered unreached
        constructor
        · exact fun old => ⟨old.1,.inl old.2⟩
        · rintro ⟨own,old | ⟨d,same,owner,answered⟩⟩
          · exact ⟨own,old⟩
          · cases same
            exact ⟨own,nothingNew owner answered⟩
      · rw [step,shas,Dict.get?_insert]
        by_cases owner : process = c.process
        · subst owner
          rw [if_pos rfl]
          constructor
          · intro same
            exact ⟨(Option.some.inj same).symm,.inr ⟨c,rfl,rfl,answered⟩⟩
          · rintro ⟨rfl,-⟩
            rfl
        · rw [if_neg owner,ih sha]
          constructor
          · exact fun old => ⟨old.1,.inl old.2⟩
          · rintro ⟨own,old | ⟨d,same,owned,-⟩⟩
            · exact ⟨own,old⟩
            · cases same
              exact absurd owned.symm owner

/-- Once a process has reached Redis, the script is cached exactly when one has done so
    for the first time since the last restart. -/
theorem run_scripts (events : List Event) :
    luaSha ∈ (run scripts buckets events).scripts ↔ Loaded events ∨ (.restart ∉ events ∧ luaSha ∈ scripts) := by
  induction events using List.reverseRecOn with
  | nil =>
    constructor
    · exact fun cached => .inr ⟨List.not_mem_nil,cached⟩
    · rintro (⟨before,c,after,impossible,-⟩ | ⟨-,cached⟩)
      · simp at impossible
      · exact cached
  | append_singleton events e ih =>
    rw [run_snoc,loaded_snoc]
    cases e with
    | restart => simp [step]
    | expire identifier => simpa [step] using ih
    | check c =>
      have first : Contacted events c.process ↔ ∃ sha, (run scripts buckets events).shas.get? c.process = some sha := by
        simp [run_shas]
      rcases check_cache (run scripts buckets events) c with ⟨same,-,before⟩ | ⟨more,-,fresh,answered⟩
      · rw [step,same,ih]
        have notFirst : ¬ (1 ≤ c.redis ∧ ¬ Contacted events c.process) := by
          rintro ⟨answered,new⟩
          rcases before with kept | unreached
          · exact new (first.mpr kept)
          · exact unreached answered
        have checked : (∃ d, Event.check c = .check d ∧ 1 ≤ d.redis ∧ ¬ Contacted events d.process) ↔ False := by
          simpa using notFirst
        rw [checked]
        simp
      · have new : ¬ Contacted events c.process := by
          rw [first,fresh]
          rintro ⟨sha,impossible⟩
          cases impossible
        rw [step,more]
        constructor
        · exact fun _ => .inl (.inl ⟨c,rfl,answered,new⟩)
        · exact fun _ => List.mem_cons_self ..

theorem decision_retry (s : Limiter) (c : Call) : 1 ≤ (s.decision c).2 := le_max_left ..

/-- A call fails open while Redis is reachable exactly when it is stranded. -/
theorem deviates_iff (before : List Event) (c : Call) : (run scripts buckets before).Deviates c ↔ Stranded before c := by
  unfold Deviates Stranded
  refine and_congr_right fun answers => ?_
  have enough : 2 ≤ c.redis := answers
  have reached : ¬ c.redis = 0 := by omega
  have further : ¬ c.redis = 1 := by omega
  have kept := run_shas scripts buckets before c.process
  have cached := run_scripts scripts buckets before
  by_cases old : Contacted before c.process
  · have sha := (kept luaSha).mpr ⟨rfl,old⟩
    rw [check_kept sha,if_neg reached]
    by_cases known : luaSha ∈ (run scripts buckets before).scripts
    · have loaded : Loaded before := (cached.mp known).elim id (fun steady => old.loaded steady.1)
      rw [evaluate_known known]
      simp [loaded]
    · have lost : ¬ Loaded before := fun loaded => known (cached.mpr (.inl loaded))
      have retry := decision_retry (run scripts buckets before) c
      rw [evaluate_unknown known]
      refine iff_of_true ?_ ⟨old,lost⟩
      intro same
      rw [← same] at retry
      have zero : ¬ (1 : ℤ) ≤ 0 := by decide
      exact zero retry
  · have fresh : (run scripts buckets before).shas.get? c.process = none := by
      rw [Option.eq_none_iff_forall_ne_some]
      intro sha impossible
      exact old ((kept sha).mp impossible).2
    have known : luaSha ∈ ((run scripts buckets before).load c.process).scripts := List.mem_cons_self ..
    rw [check_first fresh,if_neg reached,if_neg further,evaluate_known known]
    refine iff_of_false ?_ (fun stranded => old stranded.1)
    exact fun differs => differs rfl

/-- A stranded call follows a restart. -/
theorem Stranded.restart {before : List Event} (stranded : Stranded before c) : .restart ∈ before := by
  by_contra steady
  exact stranded.2.2 (stranded.2.1.loaded steady)

/-- Failing open is limited to one call for each restart exactly in the runs with at
    most one stranded call between a restart and the next. -/
theorem enforces_iff (events : List Event) : Enforces scripts buckets events ↔ SparesRestarts events := by
  unfold Enforces SparesRestarts
  simp only [deviates_iff]
  constructor
  · exact fun enforces => enforces.2
  · exact fun spares => ⟨fun before c after _ stranded => stranded.restart,spares⟩

def anonymousCall (now : ℚ) : Call := ⟨0,"ip:10.0.0.1","anonymous",now,reachable⟩

/-- Two calls after a restart. -/
theorem restart_is_not_survived :
    ¬ Enforces [] .empty [.check (anonymousCall 0),.restart,.check (anonymousCall 1),.check (anonymousCall 2)] := by
  rintro ⟨-,once⟩
  have first : (run [] .empty [.check (anonymousCall 0),.restart]).Deviates (anonymousCall 1) := by decide +kernel
  have second : (run [] .empty [.check (anonymousCall 0),.restart,.check (anonymousCall 1)]).Deviates (anonymousCall 2) := by
    decide +kernel
  have between := once [.check (anonymousCall 0),.restart] (anonymousCall 1) [] (anonymousCall 2) [] rfl first second
  cases between

end FundingRadar.RateLimiter.Limiter
