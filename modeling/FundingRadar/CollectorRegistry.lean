import FundingRadar.Dict
import FundingRadar.Runs

/-!
The collector registry and the life of its collectors. The watchdog looks only at
registered instances that run and have tasks, so a name without such an instance is never
started again. A restart drops the instance before it is stopped and enters the new one
before it is started, a constructor that raises enters none, and a start that fails leaves an
instance without tasks; in a running registry these and a late registration are all that loses
a name (`noneLost_iff`). What a constructor, a start or a stop raises is given with every call,
also what no collector of the source raises; tasks end at any time.
-/
namespace FundingRadar
open Runs

/-- Where `start` of a collector raises: in what an override does before it calls the `start` of
    the base class (the collectors here load something there, and log what that raises), at the
    session, or between the three tasks that the base class enters. -/
inductive StartError
  | loading
  | session
  | creating (entered : Fin 3)
deriving DecidableEq

/-- A collector: `_running`, and of every task whether it is done. -/
structure CollectorInstance where
  running : Bool
  tasks : List Bool
deriving DecidableEq

namespace CollectorInstance

def new : CollectorInstance := ⟨false,[]⟩
/-- `BaseCollector.start`, once the session is there. -/
def createTasks (c : CollectorInstance) (n : ℕ) : CollectorInstance := { c with tasks := c.tasks ++ List.replicate n false }
/-- `start`, and whether it raises. -/
def start (c : CollectorInstance) : Option StartError → CollectorInstance × Bool
  | some .loading => (c,true)
  | raised =>
    if c.running then (c,false)
    else
      let c := { c with running := true }
      match raised with
      | some .loading => (c,true)
      | some .session => (c,true)
      | some (.creating entered) => (c.createTasks entered,true)
      | none => (c.createTasks 3,false)
/-- Whether `stop` raises: a collector that does not run is left alone. -/
def stop (c : CollectorInstance) (raises : Bool) : Bool := c.running && raises
/-- The test of the watchdog. -/
def crashed (c : CollectorInstance) : Bool := !c.tasks.isEmpty && c.tasks.all id && c.running
/-- The collector runs, with a live task. -/
def Live (c : CollectorInstance) : Prop := c.running = true ∧ false ∈ c.tasks

end CollectorInstance

/-- What one attempt to start a collector anew meets. -/
structure Attempt where
  stopRaises : Bool
  constructorRaises : Bool
  startRaises : Option StartError
deriving DecidableEq

/-- The attempt constructs a collector, and starts at least one task of it. -/
def Attempt.Launches (t : Attempt) : Prop :=
  t.constructorRaises = false ∧
    match t.startRaises with
    | none => True
    | some (.creating entered) => 0 < entered.val
    | some _ => False

structure CollectorRegistry (κ : Type) where
  registry : Dict String κ
  instances : Dict String CollectorInstance
  running : Bool

namespace CollectorRegistry
variable {κ : Type} (s : CollectorRegistry κ)

/-- The loop body of `start_all`, and the end of `restart`: what is entered, and whether it raises. -/
def launch (instances : Dict String CollectorInstance) (name : String) (t : Attempt) : Dict String CollectorInstance × Bool :=
  if t.constructorRaises then (instances,true)
  else
    let (c,raised) := CollectorInstance.new.start t.startRaises
    (instances.insert name c,raised)

/-- `restart`, and whether it raises. -/
def restart (registry : Dict String κ) (instances : Dict String CollectorInstance) (name : String) (t : Attempt) :
    Dict String CollectorInstance × Bool :=
  match instances.get? name with
  | none => (instances,false)
  | some c =>
    let popped := instances.erase name
    if c.stop t.stopRaises then (popped,true)
    else
      match registry.get? name with
      | none => (popped,true)
      | some _ => launch popped name t

/-- One round of the loop of the watchdog, over what it listed. -/
def watch (registry : Dict String κ) (attempt : String → Attempt) (instances : Dict String CollectorInstance)
    (listed : String × CollectorInstance) : Dict String CollectorInstance :=
  if listed.2.crashed then (restart registry instances listed.1 (attempt listed.1)).1 else instances

inductive Action (κ : Type)
  | register (name : String) (cls : κ)
  | startAll (attempt : String → Attempt)
  | stopAll
  | restart (name : String) (t : Attempt)
  | watchdog (attempt : String → Attempt)
  | taskDone (name : String) (i : ℕ)

def step : Action κ → CollectorRegistry κ
  | .register name cls => { s with registry := s.registry.insert name cls }
  | .startAll attempt =>
    if s.running then s
    else
      { s with
        running := true
        instances := s.registry.keys.foldl (fun instances name => (launch instances name (attempt name)).1) s.instances }
  | .stopAll => if s.running then { s with running := false, instances := .empty } else s
  | .restart name t => { s with instances := (CollectorRegistry.restart s.registry s.instances name t).1 }
  | .watchdog attempt =>
    if s.running then { s with instances := s.instances.entries.foldl (watch s.registry attempt) s.instances } else s
  | .taskDone name i =>
    match s.instances.get? name with
    | none => s
    | some c => { s with instances := s.instances.insert name { c with tasks := c.tasks.set i true } }

def new : CollectorRegistry κ := ⟨.empty,.empty,false⟩

/-- The names that a pass of the watchdog restarts. -/
def watchdogRestarts : List String := (s.instances.entries.filter (fun e => e.2.crashed)).map Prod.fst

/-- While the registry runs, every registered name has a live collector, or is started again
    by the next pass of the watchdog. -/
def NoneLost : Prop :=
  s.running = true → ∀ name ∈ s.registry.keys,
    (∃ c, s.instances.get? name = some c ∧ c.Live) ∨ name ∈ s.watchdogRestarts

/-- No attempt fails before it has started a task, no stop raises, and no new name is
    registered while the registry runs. -/
def Clean : Action κ → Prop
  | .register name _ => s.running = true → name ∈ s.registry.keys
  | .startAll attempt => s.running = false → ∀ name ∈ s.registry.keys, (attempt name).Launches
  | .stopAll => True
  | .restart name t => name ∈ s.instances.keys → t.stopRaises = false ∧ t.Launches
  | .watchdog attempt =>
    s.running = true → ∀ name ∈ s.watchdogRestarts, (attempt name).stopRaises = false ∧ (attempt name).Launches
  | .taskDone _ _ => True

/-! ### Attempts -/

/-- What keeps a name: its collector runs and has tasks, live or all done. -/
def Up (instances : Dict String CollectorInstance) (name : String) : Prop :=
  ∃ c, instances.get? name = some c ∧ c.running = true ∧ c.tasks ≠ []

/-- The collector that an attempt enters under a free name. -/
def launched (t : Attempt) : Option CollectorInstance :=
  if t.constructorRaises then none else some (CollectorInstance.new.start t.startRaises).1

theorem launched_up_iff (t : Attempt) : (∃ c, launched t = some c ∧ c.running = true ∧ c.tasks ≠ []) ↔ t.Launches := by
  obtain ⟨stopRaises,constructorRaises,startRaises⟩ := t
  cases constructorRaises with
  | true => simp [launched,Attempt.Launches]
  | false =>
    cases startRaises with
    | none => simp [launched,Attempt.Launches,CollectorInstance.start,CollectorInstance.new,CollectorInstance.createTasks]
    | some e =>
      cases e with
      | loading => simp [launched,Attempt.Launches,CollectorInstance.start,CollectorInstance.new]
      | session => simp [launched,Attempt.Launches,CollectorInstance.start,CollectorInstance.new]
      | creating entered =>
        simp [launched,Attempt.Launches,CollectorInstance.start,CollectorInstance.new,CollectorInstance.createTasks,Nat.pos_iff_ne_zero]

/-- A restart whose stop may raise. -/
theorem restarted_up_iff (t : Attempt) :
    (∃ c, (if t.stopRaises then none else launched t) = some c ∧ c.running = true ∧ c.tasks ≠ []) ↔
      t.stopRaises = false ∧ t.Launches := by
  cases raises : t.stopRaises with
  | true => simp
  | false => simp [launched_up_iff]

theorem launch_other (instances : Dict String CollectorInstance) (t : Attempt) {name j : String} (other : j ≠ name) :
    (launch instances name t).1.get? j = instances.get? j := by
  unfold launch
  split
  · rfl
  · exact (Dict.get?_insert ..).trans (if_neg other)

theorem launch_self {instances : Dict String CollectorInstance} {name : String} (free : instances.get? name = none) (t : Attempt) :
    (launch instances name t).1.get? name = launched t := by
  unfold launch launched
  split
  · exact free
  · exact Dict.get?_insert_self ..

theorem restart_other (registry : Dict String κ) (instances : Dict String CollectorInstance) (t : Attempt) {name j : String}
    (other : j ≠ name) : (restart registry instances name t).1.get? j = instances.get? j := by
  have popped : (instances.erase name).get? j = instances.get? j := (Dict.get?_erase ..).trans (if_neg other)
  unfold restart
  split
  · rfl
  · dsimp only
    split
    · exact popped
    · split
      · exact popped
      · exact (launch_other _ t other).trans popped

/-- A restart of a registered collector leaves what its attempt enters, or nothing where the stop raises. -/
theorem restart_self {registry : Dict String κ} {instances : Dict String CollectorInstance} {name : String} {c : CollectorInstance}
    (found : instances.get? name = some c) (registered : name ∈ registry.keys) (t : Attempt) :
    (restart registry instances name t).1.get? name = if c.stop t.stopRaises then none else launched t := by
  obtain ⟨cls,known⟩ := (Dict.mem_keys_iff ..).mp registered
  have popped : (instances.erase name).get? name = none := (Dict.get?_erase ..).trans (if_pos rfl)
  rw [restart,found]
  dsimp only
  split
  · exact popped
  · rw [known]
    exact launch_self popped t

/-! ### Steps -/

theorem mem_watchdogRestarts (name : String) :
    name ∈ s.watchdogRestarts ↔ ∃ c, s.instances.get? name = some c ∧ c.crashed = true := by
  simp [watchdogRestarts,Dict.mem_entries_iff]

theorem live_or_crashed_iff (c : CollectorInstance) : c.Live ∨ c.crashed = true ↔ c.running = true ∧ c.tasks ≠ [] := by
  unfold CollectorInstance.Live CollectorInstance.crashed
  rw [Bool.and_eq_true,Bool.and_eq_true,List.all_eq_true]
  constructor
  · rintro (⟨running,live⟩ | ⟨⟨some,-⟩,running⟩)
    · exact ⟨running,List.ne_nil_of_mem live⟩
    · exact ⟨running,by simpa using some⟩
  · rintro ⟨running,some⟩
    by_cases live : false ∈ c.tasks
    · exact .inl ⟨running,live⟩
    · refine .inr ⟨⟨by simpa using some,?_⟩,running⟩
      intro done member
      cases done with
      | true => rfl
      | false => exact absurd member live

theorem noneLost_iff_up : s.NoneLost ↔ (s.running = true → ∀ name ∈ s.registry.keys, Up s.instances name) := by
  refine forall_congr' fun _ => forall₂_congr fun name _ => ?_
  rw [mem_watchdogRestarts,← exists_or]
  refine exists_congr fun c => ?_
  rw [← and_or_left,live_or_crashed_iff]

/-- Instances belong to registered names, and there are none while the registry stands still. -/
structure Inv (s : CollectorRegistry κ) : Prop where
  registered : ∀ name ∉ s.registry.keys, s.instances.get? name = none
  idle : s.running = false → ∀ name, s.instances.get? name = none

variable {s}

theorem Inv.registered_of_found (inv : s.Inv) {name : String} {c : CollectorInstance} (found : s.instances.get? name = some c) :
    name ∈ s.registry.keys := by
  by_contra unknown
  rw [inv.registered name unknown] at found
  cases found

theorem startAll_instances (inv : s.Inv) (stopped : s.running = false) (attempt : String → Attempt) :
    (∀ name ∈ s.registry.keys, (s.step (.startAll attempt)).instances.get? name = launched (attempt name)) ∧
      ∀ name ∉ s.registry.keys, (s.step (.startAll attempt)).instances.get? name = s.instances.get? name := by
  have others : ∀ (d : Dict String CollectorInstance) (name j : String), j ≠ id name →
      (launch d name (attempt name)).1.get? j = d.get? j := fun _ _ _ other => launch_other _ _ other
  have own : ∀ d : Dict String CollectorInstance, ∀ name ∈ s.registry.keys, d.get? (id name) = s.instances.get? (id name) →
      (launch d name (attempt name)).1.get? (id name) = launched (attempt name) :=
    fun _ name _ same => launch_self (same.trans (inv.idle stopped name)) _
  have distinct : (s.registry.keys.map id).Nodup := by
    rw [List.map_id]
    exact s.registry.nodupKeys
  have loop := foldl_own_key Dict.get? id distinct others own
  rw [List.map_id] at loop
  rw [step,stopped]
  exact loop

/-- A pass of the watchdog leaves the collectors that pass its test. -/
theorem watchdog_instances (inv : s.Inv) (running : s.running = true) (attempt : String → Attempt) :
    (∀ name c, s.instances.get? name = some c → (s.step (.watchdog attempt)).instances.get? name =
      if c.crashed then (if (attempt name).stopRaises then none else launched (attempt name)) else some c) ∧
      ∀ name, s.instances.get? name = none → (s.step (.watchdog attempt)).instances.get? name = none := by
  have others : ∀ (d : Dict String CollectorInstance) (listed : String × CollectorInstance) j, j ≠ listed.1 →
      (watch s.registry attempt d listed).get? j = d.get? j := by
    intro d listed j other
    unfold watch
    split
    · exact restart_other _ _ _ other
    · rfl
  have own : ∀ d : Dict String CollectorInstance, ∀ listed ∈ s.instances.entries, d.get? listed.1 = s.instances.get? listed.1 →
      (watch s.registry attempt d listed).get? listed.1 = if listed.2.crashed then
        (if (attempt listed.1).stopRaises then none else launched (attempt listed.1)) else some listed.2 := by
    rintro d ⟨name,c⟩ member same
    have found := (s.instances.mem_entries_iff name c).mp member
    have registered := inv.registered_of_found found
    unfold watch
    dsimp only at same ⊢
    by_cases crashed : c.crashed = true
    · have stops : c.stop (attempt name).stopRaises = (attempt name).stopRaises := by
        rw [CollectorInstance.stop,((Bool.and_eq_true ..).mp crashed).2,Bool.true_and]
      rw [if_pos crashed,if_pos crashed,restart_self (same.trans found) registered,stops]
    · rw [if_neg crashed,if_neg crashed]
      exact same.trans found
  obtain ⟨changed,kept⟩ := foldl_own_key (s := s.instances) Dict.get? Prod.fst s.instances.nodupKeys others own
  rw [step,running]
  refine ⟨?_,?_⟩
  · intro name c found
    exact changed (name,c) ((s.instances.mem_entries_iff name c).mpr found)
  · intro name absent
    refine (kept name ?_).trans absent
    intro member
    obtain ⟨c,found⟩ := (s.instances.mem_keys_iff name).mp member
    rw [absent] at found
    cases found

/-- A step that enters nothing under a free name. -/
theorem Inv.frame (inv : s.Inv) {s' : CollectorRegistry κ} (registry : s'.registry = s.registry) (running : s'.running = s.running)
    (free : ∀ name, s.instances.get? name = none → s'.instances.get? name = none) : s'.Inv := by
  refine ⟨?_,?_⟩
  · rw [registry]
    exact fun name unknown => free name (inv.registered name unknown)
  · rw [running]
    exact fun stopped name => free name (inv.idle stopped name)

theorem Inv.step (inv : s.Inv) (a : Action κ) : (s.step a).Inv := by
  cases a with
  | register name cls =>
    refine ⟨?_,inv.idle⟩
    intro other unknown
    refine inv.registered other fun known => unknown ?_
    obtain ⟨cls',found⟩ := (Dict.mem_keys_iff ..).mp known
    refine (Dict.mem_keys_iff ..).mpr ?_
    by_cases same : other = name
    · exact ⟨cls,(Dict.get?_insert ..).trans (if_pos same)⟩
    · exact ⟨cls',((Dict.get?_insert ..).trans (if_neg same)).trans found⟩
  | startAll attempt =>
    by_cases running : s.running = true
    · rw [CollectorRegistry.step,if_pos running]
      exact inv
    · have stopped := (Bool.not_eq_true _).mp running
      have kept := (startAll_instances inv stopped attempt).2
      have registry : (s.step (.startAll attempt)).registry = s.registry := by
        rw [CollectorRegistry.step,if_neg running]
      have starts : (s.step (.startAll attempt)).running = true := by
        rw [CollectorRegistry.step,if_neg running]
      refine ⟨?_,fun still => Bool.noConfusion (starts.symm.trans still)⟩
      rw [registry]
      exact fun name unknown => (kept name unknown).trans (inv.registered name unknown)
  | stopAll =>
    rw [CollectorRegistry.step]
    split
    · exact ⟨fun _ _ => rfl,fun _ _ => rfl⟩
    · exact inv
  | restart name t =>
    refine inv.frame rfl rfl ?_
    intro j free
    by_cases same : j = name
    · subst same
      show (CollectorRegistry.restart s.registry s.instances j t).1.get? j = none
      rw [CollectorRegistry.restart,free]
      exact free
    · exact (restart_other _ _ t same).trans free
  | watchdog attempt =>
    by_cases running : s.running = true
    · have free := (watchdog_instances inv running attempt).2
      rw [CollectorRegistry.step,if_pos running] at free ⊢
      exact inv.frame rfl rfl free
    · rw [CollectorRegistry.step,if_neg running]
      exact inv
  | taskDone name i =>
    rw [CollectorRegistry.step]
    split
    · exact inv
    · next c found =>
      refine inv.frame rfl rfl ?_
      intro j free
      refine (Dict.get?_insert ..).trans ((if_neg ?_).trans free)
      rintro rfl
      rw [found] at free
      cases free

/-- A name of a running registry is up where its collector runs and has tasks. -/
theorem NoneLost.up (kept : s.NoneLost) (running : s.running = true) {name : String} {c : CollectorInstance} (inv : s.Inv)
    (found : s.instances.get? name = some c) : c.running = true ∧ c.tasks ≠ [] := by
  obtain ⟨c',found',up⟩ := (s.noneLost_iff_up.mp kept) running name (inv.registered_of_found found)
  rw [found] at found'
  cases found'
  exact up

theorem noneLost_register_iff (inv : s.Inv) (kept : s.NoneLost) (name : String) (cls : κ) :
    (s.step (.register name cls)).NoneLost ↔ (s.running = true → name ∈ s.registry.keys) := by
  have up := s.noneLost_iff_up.mp kept
  rw [noneLost_iff_up]
  refine forall_congr' fun running => ?_
  constructor
  · intro all
    by_contra fresh
    obtain ⟨c,found,-⟩ := all name ((Dict.mem_keys_iff ..).mpr ⟨cls,Dict.get?_insert_self ..⟩)
    rw [CollectorRegistry.step,inv.registered name fresh] at found
    cases found
  · intro known other member
    refine up running other ?_
    by_cases same : other = name
    · rw [same]
      exact known
    · obtain ⟨cls',found⟩ := (Dict.mem_keys_iff ..).mp member
      exact (Dict.mem_keys_iff ..).mpr ⟨cls',((Dict.get?_insert ..).trans (if_neg same)).symm.trans found⟩

theorem noneLost_startAll_iff (inv : s.Inv) (stopped : s.running = false) (attempt : String → Attempt) :
    (s.step (.startAll attempt)).NoneLost ↔ ∀ name ∈ s.registry.keys, (attempt name).Launches := by
  have entered := (startAll_instances inv stopped attempt).1
  have waits : ¬s.running = true := by rw [stopped]; exact Bool.false_ne_true
  rw [noneLost_iff_up]
  rw [CollectorRegistry.step,if_neg waits] at entered ⊢
  rw [forall_prop_of_true rfl]
  refine forall₂_congr fun name member => ?_
  rw [Up,entered name member]
  exact launched_up_iff (attempt name)

/-- A restart of a name that has a collector; the others keep theirs. -/
theorem noneLost_restart_iff (inv : s.Inv) (kept : s.NoneLost) {name : String} {c : CollectorInstance}
    (found : s.instances.get? name = some c) (t : Attempt) :
    (s.step (.restart name t)).NoneLost ↔ t.stopRaises = false ∧ t.Launches := by
  have running : s.running = true := by
    by_contra stopped
    rw [inv.idle ((Bool.not_eq_true _).mp stopped) name] at found
    cases found
  have registered := inv.registered_of_found found
  have stops : c.stop t.stopRaises = t.stopRaises := by
    rw [CollectorInstance.stop,(kept.up running inv found).1,Bool.true_and]
  have entered := restart_self found registered t
  rw [stops] at entered
  rw [noneLost_iff_up,← restarted_up_iff,← entered]
  constructor
  · exact fun all => all running name registered
  · intro here _ j member
    by_cases same : j = name
    · rw [same]
      exact here
    · obtain ⟨c',found',upright⟩ := (s.noneLost_iff_up.mp kept) running j member
      exact ⟨c',(restart_other _ _ t same).trans found',upright⟩

theorem noneLost_watchdog_iff (inv : s.Inv) (kept : s.NoneLost) (running : s.running = true) (attempt : String → Attempt) :
    (s.step (.watchdog attempt)).NoneLost ↔
      ∀ name ∈ s.watchdogRestarts, (attempt name).stopRaises = false ∧ (attempt name).Launches := by
  have passed := (watchdog_instances inv running attempt).1
  rw [noneLost_iff_up]
  rw [CollectorRegistry.step,if_pos running] at passed ⊢
  rw [forall_prop_of_true running]
  constructor
  · intro all name member
    obtain ⟨c,found,crashed⟩ := (s.mem_watchdogRestarts name).mp member
    have after := passed name c found
    rw [if_pos crashed] at after
    rw [← restarted_up_iff,← after]
    exact all name (inv.registered_of_found found)
  · intro clean name member
    obtain ⟨c,found,upright⟩ := (s.noneLost_iff_up.mp kept) running name member
    have after := passed name c found
    rw [Up,after]
    by_cases crashed : c.crashed = true
    · rw [if_pos crashed,restarted_up_iff]
      exact clean name ((s.mem_watchdogRestarts name).mpr ⟨c,found,crashed⟩)
    · rw [if_neg crashed]
      exact ⟨c,rfl,upright⟩

/-- A task that ends leaves its collector running, with as many tasks as before. -/
theorem noneLost_taskDone (kept : s.NoneLost) (name : String) (i : ℕ) : (s.step (.taskDone name i)).NoneLost := by
  rw [noneLost_iff_up]
  have up := s.noneLost_iff_up.mp kept
  rw [CollectorRegistry.step]
  split
  · exact up
  · next c found =>
    intro running j member
    obtain ⟨c',found',active,some⟩ := up running j member
    by_cases same : j = name
    · subst same
      rw [found] at found'
      cases found'
      exact ⟨{ c with tasks := c.tasks.set i true },Dict.get?_insert_self ..,active,by simpa using some⟩
    · exact ⟨c',((Dict.get?_insert ..).trans (if_neg same)).trans found',active,some⟩

/-- A step from a state that has lost no name loses none exactly when it is clean. -/
theorem noneLost_step_iff (inv : s.Inv) (kept : s.NoneLost) (a : Action κ) : (s.step a).NoneLost ↔ s.Clean a := by
  cases a with
  | register name cls => exact noneLost_register_iff inv kept name cls
  | startAll attempt =>
    cases running : s.running with
    | true =>
      rw [CollectorRegistry.step,if_pos running]
      exact iff_of_true kept fun stopped => Bool.noConfusion (running.symm.trans stopped)
    | false =>
      rw [noneLost_startAll_iff inv running attempt,Clean,forall_prop_of_true running]
  | stopAll =>
    rw [CollectorRegistry.step]
    refine iff_of_true ?_ trivial
    split
    · exact fun impossible => absurd impossible Bool.false_ne_true
    · exact kept
  | restart name t =>
    rw [Clean,Dict.mem_keys_iff]
    cases found : s.instances.get? name with
    | none =>
      have same : s.step (.restart name t) = s := by
        rw [CollectorRegistry.step,CollectorRegistry.restart,found]
      rw [same]
      refine iff_of_true kept ?_
      rintro ⟨c,impossible⟩
      cases impossible
    | some c => rw [noneLost_restart_iff inv kept found t,forall_prop_of_true ⟨c,rfl⟩]
  | watchdog attempt =>
    by_cases running : s.running = true
    · rw [noneLost_watchdog_iff inv kept running attempt,Clean,forall_prop_of_true running]
    · rw [CollectorRegistry.step,if_neg running]
      exact iff_of_true kept fun impossible => absurd impossible running
  | taskDone name i => exact iff_of_true (noneLost_taskDone kept name i) trivial

/-! ### Runs -/

theorem new_inv : (new : CollectorRegistry κ).Inv := ⟨fun _ _ => rfl,fun _ _ => rfl⟩

/-- A run of a new registry never loses a name exactly when each of its steps is clean. -/
theorem noneLost_iff (actions : List (Action κ)) : Throughout step NoneLost new actions ↔ Each step Clean new actions := by
  refine @throughout_iff _ _ step new Clean NoneLost Inv (fun s a inv => inv.step a)
    (fun s a inv kept => noneLost_step_iff inv kept a) new_inv ?_ actions
  exact fun running => absurd running Bool.false_ne_true

/-- A collector class that does not implement the abstract `_normalize`, so that it cannot be
    instantiated. -/
def abstractClass : Attempt := ⟨false,true,none⟩
/-- Its name never gets an instance, and the watchdog passes over it. -/
theorem abstractClass_loses_the_name :
    ¬ Throughout step NoneLost (new : CollectorRegistry Unit) [.register "new" (),.startAll fun _ => abstractClass] := by
  intro kept
  obtain ⟨c,entered,-⟩ := (noneLost_iff_up _).mp (kept _ (List.prefix_refl _)) rfl "new" (by decide)
  have never : (List.foldl step (new : CollectorRegistry Unit)
      [.register "new" (),.startAll fun _ => abstractClass]).instances.get? "new" = none := by decide
  rw [never] at entered
  cases entered

end CollectorRegistry
end FundingRadar
