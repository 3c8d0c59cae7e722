import FundingRadar.CollectorRegistry

/-!
The configuration that a registry hands to the collectors that it constructs. `register`
stashes the override of a name as an attribute of its class, so it belongs to every name
of that class, in every registry; a class that has been registered never inherits one.
Whether a collector gets the configuration of its own name is decided by what its class
was last registered with (`keepsConfigs_iff`).
-/
namespace FundingRadar

/-- Classes with their method resolution orders. -/
structure ClassHierarchy (κ : Type) where
  mro : κ → List κ
  own : ∀ cls, ∃ bases, mro cls = cls :: bases

/-- `getattr(cls, "_registry_config", None)`, over what every class has of its own. -/
def ClassHierarchy.getattr {κ γ : Type} (h : ClassHierarchy κ) (overrides : κ → Option (Option γ)) (cls : κ) : Option γ :=
  ((h.mro cls).findSome? overrides).join

namespace CollectorRegistry

/-- Whether `restart` gets as far as the constructor. -/
def restartConstructs {κ : Type} (registry : Dict String κ) (instances : Dict String CollectorInstance) (name : String) (t : Attempt) : Bool :=
  match instances.get? name with
  | none => false
  | some c => !c.stop t.stopRaises && (registry.get? name).isSome
/-- The names for which an action calls the constructor, in order, whether or not it raises. -/
def constructed {κ : Type} (s : CollectorRegistry κ) : Action κ → List String
  | .register _ _ => []
  | .startAll _ => if s.running then [] else s.registry.keys
  | .stopAll => []
  | .restart name t => if restartConstructs s.registry s.instances name t then [name] else []
  | .watchdog attempt =>
    if s.running then
      (s.instances.entries.foldl (fun round listed =>
        (watch s.registry attempt round.1 listed,
          if listed.2.crashed && restartConstructs s.registry round.1 listed.1 (attempt listed.1) then round.2 ++ [listed.1]
          else round.2)) (s.instances,[])).2
    else []
  | .taskDone _ _ => []

end CollectorRegistry

open CollectorRegistry (Action watch restartConstructs)

/-- A call on a registry, with the configuration where it registers a class. -/
inductive RegistryCall (κ γ : Type)
  | register (name : String) (cls : κ) (config : Option γ)
  | startAll (attempt : String → Attempt)
  | stopAll
  | restart (name : String) (t : Attempt)
  | watchdog (attempt : String → Attempt)
  | taskDone (name : String) (i : ℕ)

def RegistryCall.action {κ γ : Type} : RegistryCall κ γ → Action κ
  | .register name cls _ => .register name cls
  | .startAll attempt => .startAll attempt
  | .stopAll => .stopAll
  | .restart name t => .restart name t
  | .watchdog attempt => .watchdog attempt
  | .taskDone name i => .taskDone name i

/-- The arguments of a call of `register`. -/
def RegistryCall.registers {κ γ : Type} : RegistryCall κ γ → Option (String × κ × Option γ)
  | .register name cls config => some (name,cls,config)
  | _ => none

/-- The registries of a process, and the `_registry_config` of every class. -/
structure CollectorRegistries (κ γ ι : Type) where
  overrides : κ → Option (Option γ)
  registries : ι → CollectorRegistry κ

namespace CollectorRegistries
variable {κ γ ι : Type} [DecidableEq κ] [DecidableEq ι]

def new : CollectorRegistries κ γ ι := ⟨fun _ => none,fun _ => .new⟩
def step (s : CollectorRegistries κ γ ι) (call : ι × RegistryCall κ γ) : CollectorRegistries κ γ ι where
  overrides :=
    match call.2.registers with
    | some (_,cls,config) => Function.update s.overrides cls (some config)
    | none => s.overrides
  registries := Function.update s.registries call.1 ((s.registries call.1).step call.2.action)
def run (calls : List (ι × RegistryCall κ γ)) : CollectorRegistries κ γ ι := calls.foldl step new

variable (h : ClassHierarchy κ) (default : ι → γ)

/-- `getattr(cls, "_registry_config", None) or self._config`, for the class of a name. -/
def perCollectorConfig (s : CollectorRegistries κ γ ι) (i : ι) (name : String) : Option γ :=
  ((s.registries i).registry.get? name).map (fun cls => (h.getattr s.overrides cls).getD (default i))
/-- The names and configurations for which a call calls a constructor, whether or not this raises. -/
def created (s : CollectorRegistries κ γ ι) (call : ι × RegistryCall κ γ) : List (String × γ) :=
  ((s.registries call.1).constructed call.2.action).filterMap
    (fun name => (s.perCollectorConfig h default call.1 name).map (fun config => (name,config)))

/-! ### What the registrations say -/

/-- A call of `register`. -/
structure Registration (κ γ ι : Type) where
  registry : ι
  name : String
  cls : κ
  config : Option γ

def registrations (calls : List (ι × RegistryCall κ γ)) : List (Registration κ γ ι) :=
  calls.filterMap (fun call => call.2.registers.map (fun r => ⟨call.1,r.1,r.2.1,r.2.2⟩))
/-- The last registration of a name in a registry. -/
def lastFor (calls : List (ι × RegistryCall κ γ)) (i : ι) (name : String) : Option (Registration κ γ ι) :=
  ((registrations calls).filter (fun r => r.registry = i ∧ r.name = name)).getLast?
/-- The last registration of a class, under any name in any registry. -/
def lastOf (calls : List (ι × RegistryCall κ γ)) (cls : κ) : Option (Registration κ γ ι) :=
  ((registrations calls).filter (fun r => r.cls = cls)).getLast?

/-- Every constructor gets what its name was last registered with, or the default of its registry. -/
def KeepsConfigs (calls : List (ι × RegistryCall κ γ)) : Prop :=
  ∀ before call after, calls = before ++ call :: after → ∀ name config, (name,config) ∈ (run before).created h default call →
    ∃ r, lastFor before call.1 name = some r ∧ config = r.config.getD (default call.1)
/-- Whenever a constructor is called, its class was last registered with the same
    configuration as its name. -/
def Undisturbed (calls : List (ι × RegistryCall κ γ)) : Prop :=
  ∀ before call after, calls = before ++ call :: after →
    ∀ name ∈ ((run before).registries call.1).constructed call.2.action,
    ∀ r last, lastFor before call.1 name = some r → lastOf before r.cls = some last →
      last.config.getD (default call.1) = r.config.getD (default call.1)

/-! ### What a run has stored -/

theorem step_registry {κ γ : Type} (s : CollectorRegistry κ) (call : RegistryCall κ γ) :
    (s.step call.action).registry =
      match call.registers with
      | some (name,cls,_) => s.registry.insert name cls
      | none => s.registry := by
  cases call with
  | register name cls config => rfl
  | startAll attempt =>
    simp only [RegistryCall.action,CollectorRegistry.step]
    split
    · rfl
    · rfl
  | stopAll =>
    simp only [RegistryCall.action,CollectorRegistry.step]
    split
    · rfl
    · rfl
  | restart name t => rfl
  | watchdog attempt =>
    simp only [RegistryCall.action,CollectorRegistry.step]
    split
    · rfl
    · rfl
  | taskDone name i =>
    simp only [RegistryCall.action,CollectorRegistry.step]
    split
    · rfl
    · rfl

omit [DecidableEq κ] [DecidableEq ι] in
/-- The last registration that has a property, after one more call. -/
theorem last_snoc (calls : List (ι × RegistryCall κ γ)) (call : ι × RegistryCall κ γ) (p : Registration κ γ ι → Bool) :
    ((registrations (calls ++ [call])).filter p).getLast? =
      ((call.2.registers.map (fun r => (⟨call.1,r.1,r.2.1,r.2.2⟩ : Registration κ γ ι))).filter p).or
        ((registrations calls).filter p).getLast? := by
  rw [registrations,List.filterMap_append,List.filter_append,List.getLast?_append]
  cases registered : call.2.registers with
  | none => simp [registered,registrations]
  | some r =>
    simp only [registered,registrations,List.filterMap_cons,List.filterMap_nil,Option.map_some,List.filter_cons,Option.filter_some]
    split
    · simp
    · simp

/-- A name has the class of its last registration. -/
theorem registry_eq (calls : List (ι × RegistryCall κ γ)) (i : ι) (name : String) :
    ((run calls).registries i).registry.get? name = (lastFor calls i name).map Registration.cls := by
  induction calls using List.reverseRecOn with
  | nil => rfl
  | append_singleton calls call ih =>
    obtain ⟨j,call⟩ := call
    have stepped : run (calls ++ [(j,call)]) = (run calls).step (j,call) := List.foldl_append
    rw [stepped,lastFor,last_snoc,← lastFor]
    dsimp only [step]
    by_cases own : j = i
    · subst own
      rw [Function.update_self,step_registry]
      cases call.registers with
      | none => simpa using ih
      | some r =>
        obtain ⟨other,cls,config⟩ := r
        dsimp only
        rw [Dict.get?_insert]
        by_cases same : name = other
        · simp [Option.filter_some,same]
        · have differ : ¬ other = name := fun equal => same equal.symm
          simp [Option.filter_some,same,differ,ih]
    · rw [Function.update_of_ne (fun equal => own equal.symm),ih]
      cases call.registers with
      | none => simp
      | some r => simp [Option.filter_some,own]

/-- A class has the configuration of its last registration. -/
theorem overrides_eq (calls : List (ι × RegistryCall κ γ)) (cls : κ) :
    (run calls).overrides cls = (lastOf calls cls).map Registration.config := by
  induction calls using List.reverseRecOn with
  | nil => rfl
  | append_singleton calls call ih =>
    obtain ⟨j,call⟩ := call
    have stepped : run (calls ++ [(j,call)]) = (run calls).step (j,call) := List.foldl_append
    rw [stepped,lastOf,last_snoc,← lastOf]
    dsimp only [step]
    cases call.registers with
    | none => simpa using ih
    | some r =>
      obtain ⟨name,other,config⟩ := r
      dsimp only
      by_cases same : other = cls
      · subst same
        simp [Option.filter_some]
      · rw [Function.update_of_ne (fun equal => same equal.symm),ih]
        simp [Option.filter_some,same]

/-! ### What is constructed -/

omit [DecidableEq κ] in
theorem restartConstructs_registered {registry : Dict String κ} {instances : Dict String CollectorInstance} {name : String}
    {t : Attempt} (constructs : restartConstructs registry instances name t = true) : ∃ cls, registry.get? name = some cls := by
  unfold restartConstructs at constructs
  split at constructs
  · cases constructs
  · rw [Bool.and_eq_true] at constructs
    exact Option.isSome_iff_exists.mp constructs.2

omit [DecidableEq κ] in
/-- Only registered names are constructed. -/
theorem constructed_registered {s : CollectorRegistry κ} {a : Action κ} {name : String} (member : name ∈ s.constructed a) :
    ∃ cls, s.registry.get? name = some cls := by
  cases a with
  | register other cls => cases member
  | startAll attempt =>
    simp only [CollectorRegistry.constructed] at member
    split at member
    · cases member
    · exact (Dict.mem_keys_iff ..).mp member
  | stopAll => cases member
  | restart other t =>
    simp only [CollectorRegistry.constructed] at member
    split at member
    · next constructs =>
      rw [List.mem_singleton.mp member]
      exact restartConstructs_registered constructs
    · cases member
  | watchdog attempt =>
    simp only [CollectorRegistry.constructed] at member
    split at member
    · have all : ∀ (listed : List (String × CollectorInstance)) (instances : Dict String CollectorInstance) (names : List String),
          (∀ j ∈ names, ∃ cls, s.registry.get? j = some cls) →
          ∀ j ∈ (listed.foldl (fun round listed =>
            (watch s.registry attempt round.1 listed,
              if listed.2.crashed && restartConstructs s.registry round.1 listed.1 (attempt listed.1) then round.2 ++ [listed.1]
              else round.2)) (instances,names)).2, ∃ cls, s.registry.get? j = some cls := by
        intro listed
        induction listed with
        | nil => exact fun _ _ registered => registered
        | cons first rest ih =>
          intro instances names registered
          rw [List.foldl_cons]
          refine ih _ _ ?_
          intro j inside
          dsimp only at inside
          split at inside
          · next constructs =>
            rw [Bool.and_eq_true] at constructs
            rcases List.mem_append.mp inside with old | new
            · exact registered j old
            · rw [List.mem_singleton.mp new]
              exact restartConstructs_registered constructs.2
          · exact registered j inside
      exact all _ _ [] (fun _ impossible => by cases impossible) name member
    · cases member
  | taskDone other i => cases member

/-- What a constructed collector gets: the configuration of the last registration of its class. -/
theorem created_of_constructed {calls : List (ι × RegistryCall κ γ)} {call : ι × RegistryCall κ γ} {name : String}
    (member : name ∈ ((run calls).registries call.1).constructed call.2.action) :
    ∃ r last, lastFor calls call.1 name = some r ∧ lastOf calls r.cls = some last ∧
      (run calls).perCollectorConfig h default call.1 name = some (last.config.getD (default call.1)) := by
  obtain ⟨cls,registered⟩ := constructed_registered member
  have named := registered
  rw [registry_eq,Option.map_eq_some_iff] at named
  obtain ⟨r,lastR,rfl⟩ := named
  have inside : r ∈ registrations calls := (List.mem_filter.mp (List.mem_of_getLast? lastR)).1
  have listed : r ∈ (registrations calls).filter (fun other => other.cls = r.cls) := List.mem_filter.mpr ⟨inside,decide_eq_true rfl⟩
  obtain ⟨last,found⟩ := Option.isSome_iff_exists.mp (List.getLast?_isSome.mpr (List.ne_nil_of_mem listed))
  have lastC : lastOf calls r.cls = some last := found
  refine ⟨r,last,lastR,lastC,?_⟩
  have stashed : (run calls).overrides r.cls = some last.config := by
    rw [overrides_eq,lastC,Option.map_some]
  obtain ⟨bases,own⟩ := h.own r.cls
  rw [perCollectorConfig,registered,Option.map_some,ClassHierarchy.getattr,own,List.findSome?_cons,stashed]
  rfl

/-- A run keeps the configurations with their names exactly when whatever it constructs has
    a class that was last registered with the same configuration. -/
theorem keepsConfigs_iff (calls : List (ι × RegistryCall κ γ)) : KeepsConfigs h default calls ↔ Undisturbed default calls := by
  constructor
  · rintro keeps before call after rfl name member r last lastR lastC
    obtain ⟨r',last',lastR',lastC',config⟩ := created_of_constructed h default member
    have same := lastR'.symm.trans lastR
    cases same
    have same := lastC'.symm.trans lastC
    cases same
    have listed : (name,last.config.getD (default call.1)) ∈ (run before).created h default call :=
      List.mem_filterMap.mpr ⟨name,member,by rw [config]; rfl⟩
    obtain ⟨r'',lastR'',kept⟩ := keeps before call after rfl name _ listed
    have same := lastR''.symm.trans lastR
    cases same
    exact kept
  · rintro undisturbed before call after rfl name config listed
    obtain ⟨name',member,made⟩ := List.mem_filterMap.mp listed
    obtain ⟨r,last,lastR,lastC,received⟩ := created_of_constructed h default member
    rw [received] at made
    cases made
    exact ⟨r,lastR,undisturbed before call after rfl name member r last lastR lastC⟩

/-- Two names of one class. -/
theorem shared_class_not_kept :
    ¬ KeepsConfigs (⟨fun cls => [cls],fun _ => ⟨[],rfl⟩⟩ : ClassHierarchy Unit) (fun _ : Unit => 0)
      [((),.register "main" () (some 1)),((),.register "backup" () (some 2)),((),.startAll (fun _ => ⟨false,false,none⟩))] := by
  intro keeps
  obtain ⟨r,last,same⟩ := keeps [_,_] _ [] rfl "main" 2 (by decide)
  cases last
  cases same

end CollectorRegistries
end FundingRadar
