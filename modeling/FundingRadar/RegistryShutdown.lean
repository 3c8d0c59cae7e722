import FundingRadar.CollectorRegistry

/-!
The collector registry between awaits, up to its end. `start_all` enters the collectors and starts
them one after the other, and may be cancelled while one loads; the watchdog takes a crashed
collector out, stops it and enters another; `stop_all` cancels the watchdog wherever it waits and
then stops what is entered, each once its tasks are done. No name ever has two collectors that
run, and nothing is left when `stop_all` returns (`shutdown_complete`).

Only the watchdog restarts collectors. `stop_all` is called once `start_all` has ended, and nothing
calls `start_all` while it runs.
-/
namespace FundingRadar.RegistryShutdown
open Runs

/-- Where `start_all` and `stop_all` are. -/
inductive Main
  | idle
  | entering (rest : List String)
  | loading (name : String) (id : ℕ) (rest : List String)
  | serving
  /-- `stop_all` waits for the watchdog. -/
  | cancelling
  | stopping (waiting : List ℕ)
  | stopped
deriving DecidableEq

/-- Where the watchdog is, with what is left of the instances that it listed. -/
inductive Watchdog
  | absent
  | sleeping
  | checking (rest : List (String × ℕ))
  | stopping (name : String) (id : ℕ) (rest : List (String × ℕ))
  | loading (name : String) (id : ℕ) (rest : List (String × ℕ))
  | finished

def Watchdog.alive : Watchdog → Bool
  | .absent => false
  | .finished => false
  | .sleeping => true
  | .checking _ => true
  | .stopping _ _ _ => true
  | .loading _ _ _ => true

/-- The registry, with all collectors that it has ever made, each with its name. -/
structure State where
  instances : Dict String ℕ
  collectors : List (String × CollectorInstance)
  running : Bool
  main : Main
  watchdog : Watchdog

namespace State

def collector (s : State) (id : ℕ) : CollectorInstance := (s.collectors[id]?.map Prod.snd).getD .new
def change (s : State) (id : ℕ) (f : CollectorInstance → CollectorInstance) : State :=
  { s with collectors := s.collectors.modify id fun c => (c.1,f c.2) }
/-- A new collector, under a name. -/
def enter (s : State) (name : String) : State :=
  { s with instances := s.instances.insert name s.collectors.length, collectors := s.collectors ++ [(name,.new)] }

end State

/-- What `stop` does to a collector that runs, before it waits for the tasks and after. -/
def cancelTasks (c : CollectorInstance) : CollectorInstance := { c with running := false }
def clearTasks (c : CollectorInstance) : CollectorInstance := { cancelTasks c with tasks := [] }
def tasksDone (c : CollectorInstance) : Bool := c.tasks.all id

inductive Action
  | startAll
  /-- The next round of `start_all`, up to the load, or its end. -/
  | enter (constructorRaises : Bool)
  | load (raised : Option StartError)
  | cancelStart
  | wake
  /-- The watchdog looks at the next instance, and begins to restart it if it has crashed. -/
  | check
  | replace (stopRaises constructorRaises : Bool)
  | reload (raised : Option StartError)
  | stopAll
  /-- The watchdog ends, where it waits. -/
  | cancelled
  | stopInstance (id : ℕ)
  | clear
  | taskDone (id i : ℕ)

variable {κ : Type} (registry : Dict String κ)

def step (s : State) : Action → State
  | .startAll =>
    match s.main with
    | .idle => if s.running then s else { s with running := true, main := .entering registry.keys }
    | .stopped => if s.running then s else { s with running := true, main := .entering registry.keys }
    | _ => s
  | .enter constructorRaises =>
    match s.main with
    | .entering [] => { s with main := .serving, watchdog := .sleeping }
    | .entering (name :: rest) =>
      if constructorRaises then { s with main := .entering rest }
      else { s.enter name with main := .loading name s.collectors.length rest }
    | _ => s
  | .load raised =>
    match s.main with
    | .loading _ id rest => { s.change id fun c => (c.start raised).1 with main := .entering rest }
    | _ => s
  | .cancelStart =>
    match s.main with
    | .loading _ _ _ => { s with main := .serving }
    | _ => s
  | .wake =>
    match s.watchdog with
    | .sleeping => { s with watchdog := .checking s.instances.entries }
    | _ => s
  | .check =>
    match s.watchdog with
    | .checking [] => { s with watchdog := if s.running then .sleeping else .finished }
    | .checking ((name,id) :: rest) =>
      if (s.collector id).crashed then
        match s.instances.get? name with
        | none => { s with watchdog := .checking rest }
        | some found =>
          { s.change found cancelTasks with instances := s.instances.erase name, watchdog := .stopping name found rest }
      else { s with watchdog := .checking rest }
    | _ => s
  | .replace stopRaises constructorRaises =>
    match s.watchdog with
    | .stopping name id rest =>
      if tasksDone (s.collector id) then
        let cleared := s.change id clearTasks
        if stopRaises ∨ registry.get? name = none ∨ constructorRaises then { cleared with watchdog := .checking rest }
        else { cleared.enter name with watchdog := .loading name s.collectors.length rest }
      else s
    | _ => s
  | .reload raised =>
    match s.watchdog with
    | .loading _ id rest => { s.change id fun c => (c.start raised).1 with watchdog := .checking rest }
    | _ => s
  | .stopAll =>
    match s.main with
    | .serving =>
      if s.running then
        { s with running := false, main := if s.watchdog.alive then .cancelling else .stopping s.instances.values }
      else s
    | _ => s
  | .cancelled =>
    match s.main with
    | .cancelling => { s with watchdog := .finished, main := .stopping s.instances.values }
    | _ => s
  | .stopInstance id =>
    match s.main with
    | .stopping waiting =>
      if id ∈ waiting then
        if (s.collector id).running then
          if tasksDone (s.collector id) then { s.change id clearTasks with main := .stopping (waiting.erase id) } else s
        else { s with main := .stopping (waiting.erase id) }
      else s
    | _ => s
  | .clear =>
    match s.main with
    | .stopping [] => { s with instances := .empty, main := .stopped }
    | _ => s
  | .taskDone id i => s.change id fun c => { c with tasks := c.tasks.set i true }

def init : State := ⟨.empty,[],false,.idle,.absent⟩
def run (actions : List Action) : State := actions.foldl (step registry) init

/-! ### Who runs is entered -/

/-- Every collector that runs is the one entered under its name, and only those have live tasks. -/
structure Owned (instances : Dict String ℕ) (collectors : List (String × CollectorInstance)) : Prop where
  known : ∀ name id, instances.get? name = some id → ∃ c, collectors[id]? = some (name,c)
  entered : ∀ id name c, collectors[id]? = some (name,c) → c.running = true → instances.get? name = some id
  live : ∀ (id : ℕ) (name : String) (c : CollectorInstance), collectors[id]? = some (name,c) → false ∈ c.tasks → c.running = true

variable {instances : Dict String ℕ} {collectors : List (String × CollectorInstance)}

/-- A change of one collector that leaves it stopped, or entered. -/
theorem Owned.change (owned : Owned instances collectors) {id : ℕ} {f : CollectorInstance → CollectorInstance}
    (entered : ∀ name c, collectors[id]? = some (name,c) → (f c).running = true → instances.get? name = some id)
    (live : ∀ name c, collectors[id]? = some (name,c) → false ∈ (f c).tasks → (f c).running = true) :
    Owned instances (collectors.modify id fun c => (c.1,f c.2)) := by
  have changed : ∀ j name c, (collectors.modify id fun c => (c.1,f c.2))[j]? = some (name,c) →
      (j ≠ id ∧ collectors[j]? = some (name,c)) ∨ (j = id ∧ ∃ c', collectors[id]? = some (name,c') ∧ f c' = c) := by
    intro j name c found
    by_cases same : id = j
    · subst same
      rw [List.getElem?_modify_eq,Option.map_eq_map,Option.map_eq_some_iff] at found
      obtain ⟨⟨name',c'⟩,there,equal⟩ := found
      obtain ⟨rfl,rfl⟩ := Prod.mk.inj equal
      exact .inr ⟨rfl,c',there,rfl⟩
    · rw [List.getElem?_modify_ne _ _ same] at found
      exact .inl ⟨Ne.symm same,found⟩
  constructor
  · intro name j there
    obtain ⟨c,found⟩ := owned.known name j there
    by_cases same : id = j
    · exact ⟨f c,by rw [same,List.getElem?_modify_eq,found]; rfl⟩
    · exact ⟨c,by rw [List.getElem?_modify_ne _ _ same,found]⟩
  · intro j name c found running
    rcases changed j name c found with ⟨-,there⟩ | ⟨rfl,c',there,rfl⟩
    · exact owned.entered j name c there running
    · exact entered name c' there running
  · intro j name c found task
    rcases changed j name c found with ⟨-,there⟩ | ⟨rfl,c',there,rfl⟩
    · exact owned.live j name c there task
    · exact live name c' there task

/-- A new collector under a free name. -/
theorem Owned.enter (owned : Owned instances collectors) {name : String} (free : instances.get? name = none) :
    Owned (instances.insert name collectors.length) (collectors ++ [(name,.new)]) := by
  have split : ∀ id n c, (collectors ++ [(name,CollectorInstance.new)])[id]? = some (n,c) →
      collectors[id]? = some (n,c) ∨ (id = collectors.length ∧ n = name ∧ c = .new) := by
    intro id n c found
    rw [List.getElem?_append] at found
    split at found
    next => exact .inl found
    next beyond =>
      rw [List.getElem?_singleton] at found
      split at found
      next first =>
        obtain ⟨rfl,rfl⟩ := Prod.mk.inj (Option.some.inj found)
        exact .inr ⟨by omega,rfl,rfl⟩
      next => cases found
  constructor
  · intro n id there
    rw [Dict.get?_insert] at there
    by_cases same : n = name
    · rw [if_pos same] at there
      cases there
      exact ⟨.new,by rw [same,List.getElem?_append_right (Nat.le_refl _),Nat.sub_self]; rfl⟩
    · rw [if_neg same] at there
      obtain ⟨c,found⟩ := owned.known n id there
      exact ⟨c,by rw [List.getElem?_append_left (List.getElem?_eq_some_iff.mp found).1,found]⟩
  · intro id n c found running
    rcases split id n c found with old | ⟨-,-,rfl⟩
    · have there := owned.entered id n c old running
      rw [Dict.get?_insert,if_neg (fun same => by rw [same,free] at there; cases there)]
      exact there
    · cases running
  · intro id n c found task
    rcases split id n c found with old | ⟨-,-,rfl⟩
    · exact owned.live id n c old task
    · cases task

/-- A collector without live tasks is taken out. -/
theorem Owned.pop (owned : Owned instances collectors) {name : String} {id : ℕ} (there : instances.get? name = some id)
    (done : ∀ n c, collectors[id]? = some (n,c) → false ∉ c.tasks) :
    Owned (instances.erase name) (collectors.modify id fun c => (c.1,cancelTasks c.2)) := by
  obtain ⟨c₀,found₀⟩ := owned.known name id there
  have stopped := @Owned.change _ _ owned id cancelTasks (fun _ _ _ running => by cases running)
    (fun n c found task => absurd task (done n c found))
  constructor
  · intro n j kept
    rw [Dict.get?_erase] at kept
    split at kept
    · cases kept
    · exact stopped.known n j kept
  · intro j n c found running
    have entered := stopped.entered j n c found running
    rw [Dict.get?_erase]
    split
    next same =>
      rw [same,there] at entered
      cases entered
      rw [List.getElem?_modify_eq,found₀] at found
      cases found
      cases running
    next => exact entered
  · exact stopped.live

/-- Where nothing runs, nothing need be entered. -/
theorem Owned.clear (owned : Owned instances collectors) 
    (stopped : ∀ (id : ℕ) (name : String) (c : CollectorInstance), collectors[id]? = some (name,c) → c.running = false) :
    Owned .empty collectors where
  known _ _ impossible := by cases impossible
  entered id name c found running := by
    rw [stopped id name c found] at running
    cases running
  live := owned.live

theorem start_running (c : CollectorInstance) (raised : Option StartError) :
    (c.start raised).1 = c ∨ (c.start raised).1.running = true := by
  by_cases running : c.running = true
  · left
    rcases raised with _ | (_ | _ | entered)
    · simp [CollectorInstance.start,running]
    · rfl
    · simp [CollectorInstance.start,running]
    · simp [CollectorInstance.start,running]
  · rcases raised with _ | (_ | _ | entered)
    · exact .inr (by simp [CollectorInstance.start,running,CollectorInstance.createTasks])
    · exact .inl rfl
    · exact .inr (by simp [CollectorInstance.start,running])
    · exact .inr (by simp [CollectorInstance.start,running,CollectorInstance.createTasks])

/-- An entered collector is started. -/
theorem Owned.start (owned : Owned instances collectors) {name : String} {id : ℕ} (there : instances.get? name = some id)
    (raised : Option StartError) : Owned instances (collectors.modify id fun c => (c.1,(c.2.start raised).1)) := by
  obtain ⟨c₀,found₀⟩ := owned.known name id there
  refine owned.change (f := fun c => (c.start raised).1) ?_ ?_
  · intro n c found _
    rw [found₀] at found
    cases found
    exact there
  · intro n c found task
    rcases start_running c raised with same | running
    · rw [same] at task ⊢
      exact owned.live id n c found task
    · exact running

/-! ### What holds at every await -/

/-- What is left of the list of the watchdog is still entered. -/
def Snapshot (instances : Dict String ℕ) (rest : List (String × ℕ)) : Prop :=
  (rest.map Prod.fst).Nodup ∧ ∀ name id, (name,id) ∈ rest → instances.get? name = some id

/-- `stops` tells the collectors that do not run, `alive` whether the watchdog is. -/
inductive MainOk (instances : Dict String ℕ) (stops : ℕ → Prop) (alive : Bool) : Main → Prop
  | idle (out : ∀ name, instances.get? name = none) (ended : alive = false) : MainOk instances stops alive .idle
  | entering {rest : List String} (distinct : rest.Nodup) (free : ∀ name ∈ rest, instances.get? name = none)
      (ended : alive = false) : MainOk instances stops alive (.entering rest)
  | loading {name : String} {id : ℕ} {rest : List String} (distinct : rest.Nodup) (free : ∀ other ∈ rest, instances.get? other = none)
      (there : instances.get? name = some id) (ended : alive = false) : MainOk instances stops alive (.loading name id rest)
  | serving : MainOk instances stops alive .serving
  | cancelling : MainOk instances stops alive .cancelling
  | stopping {waiting : List ℕ} (left : ∀ name id, instances.get? name = some id → id ∈ waiting ∨ stops id)
      (ended : alive = false) : MainOk instances stops alive (.stopping waiting)
  | stopped (out : ∀ name, instances.get? name = none) (ended : alive = false) : MainOk instances stops alive .stopped

inductive WatchdogOk (instances : Dict String ℕ) : Watchdog → Prop
  | absent : WatchdogOk instances .absent
  | sleeping : WatchdogOk instances .sleeping
  | checking {rest : List (String × ℕ)} (snapshot : Snapshot instances rest) : WatchdogOk instances (.checking rest)
  | stopping {name : String} {id : ℕ} {rest : List (String × ℕ)} (snapshot : Snapshot instances rest)
      (other : name ∉ rest.map Prod.fst) (out : instances.get? name = none) : WatchdogOk instances (.stopping name id rest)
  | loading {name : String} {id : ℕ} {rest : List (String × ℕ)} (snapshot : Snapshot instances rest)
      (other : name ∉ rest.map Prod.fst) (there : instances.get? name = some id) : WatchdogOk instances (.loading name id rest)
  | finished : WatchdogOk instances .finished

structure Inv (s : State) : Prop where
  owned : Owned s.instances s.collectors
  main : MainOk s.instances (fun id => (s.collector id).running = false) s.watchdog.alive s.main
  watchdog : WatchdogOk s.instances s.watchdog

variable {rest : List (String × ℕ)} {name : String} {id : ℕ}

theorem Snapshot.tail {e : String × ℕ} (snapshot : Snapshot instances (e :: rest)) : Snapshot instances rest :=
  ⟨(List.nodup_cons.mp snapshot.1).2,fun n j member => snapshot.2 n j (List.mem_cons_of_mem e member)⟩
theorem Snapshot.insert (snapshot : Snapshot instances rest) (other : name ∉ rest.map Prod.fst) :
    Snapshot (instances.insert name id) rest := by
  refine ⟨snapshot.1,fun n j member => ?_⟩
  have apart : n ≠ name := fun same => other (same ▸ List.mem_map_of_mem (f := Prod.fst) member)
  rw [Dict.get?_insert,if_neg apart]
  exact snapshot.2 n j member
theorem Snapshot.erase (snapshot : Snapshot instances rest) (other : name ∉ rest.map Prod.fst) :
    Snapshot (instances.erase name) rest := by
  refine ⟨snapshot.1,fun n j member => ?_⟩
  have apart : n ≠ name := fun same => other (same ▸ List.mem_map_of_mem (f := Prod.fst) member)
  rw [Dict.get?_erase,if_neg apart]
  exact snapshot.2 n j member

theorem WatchdogOk.of_ended {watchdog : Watchdog} (ended : watchdog.alive = false) : WatchdogOk instances watchdog := by
  cases watchdog with
  | absent => exact .absent
  | finished => exact .finished
  | sleeping => cases ended
  | checking _ => cases ended
  | stopping _ _ _ => cases ended
  | loading _ _ _ => cases ended

variable {s : State} {f : CollectorInstance → CollectorInstance}

/-- While the watchdog lives, neither method is under way but the end of `stop_all` that waits for it. -/
theorem Inv.served (inv : Inv s) (alive : s.watchdog.alive = true) {stops : ℕ → Prop} {lives : Bool} :
    MainOk instances stops lives s.main := by
  have ok := inv.main
  rw [alive] at ok
  generalize s.main = main at ok
  cases ok with
  | idle _ ended => cases ended
  | entering _ _ ended => cases ended
  | loading _ _ _ ended => cases ended
  | serving => exact .serving
  | cancelling => exact .cancelling
  | stopping _ ended => cases ended
  | stopped _ ended => cases ended

theorem stops_change (keeps : ∀ c : CollectorInstance, c.running = false → (f c).running = false) {j : ℕ}
    (stops : (s.collector j).running = false) : ((s.change id f).collector j).running = false := by
  rw [State.collector,State.change] at *
  dsimp only at *
  by_cases same : id = j
  · subst same
    rw [List.getElem?_modify_eq]
    cases found : s.collectors[id]? with
    | none => rfl
    | some e =>
      rw [found] at stops
      exact keeps e.2 stops
  · rw [List.getElem?_modify_ne _ _ same]
    exact stops
theorem stops_cleared : ((s.change id clearTasks).collector id).running = false := by
  rw [State.collector,State.change]
  dsimp only
  rw [List.getElem?_modify_eq]
  cases s.collectors[id]? with
  | none => rfl
  | some e => rfl

theorem MainOk.mono {stops stops' : ℕ → Prop} {alive : Bool} {main : Main} (ok : MainOk instances stops alive main)
    (more : ∀ id, stops id → stops' id) : MainOk instances stops' alive main := by
  cases ok with
  | idle out ended => exact .idle out ended
  | entering distinct free ended => exact .entering distinct free ended
  | loading distinct free there ended => exact .loading distinct free there ended
  | serving => exact .serving
  | cancelling => exact .cancelling
  | stopping left ended => exact .stopping (fun n j there => (left n j there).imp_right (more j)) ended
  | stopped out ended => exact .stopped out ended

theorem collector_of_getElem? {c : CollectorInstance} (found : s.collectors[id]? = some (name,c)) : s.collector id = c := by
  rw [State.collector,found]
  rfl

/-! ### Steps of the watchdog -/

theorem Inv.wake (inv : Inv s) : Inv (step registry s .wake) := by
  rw [step]
  split
  next phase =>
    have alive : s.watchdog.alive = true := by rw [phase]; rfl
    refine ⟨inv.owned,inv.served alive,.checking ⟨s.instances.nodupKeys,fun n j member => ?_⟩⟩
    exact (Dict.mem_entries_iff _ _ _).mp member
  next => exact inv

theorem Inv.check (inv : Inv s) : Inv (step registry s .check) := by
  rw [step]
  split
  next phase =>
    have alive : s.watchdog.alive = true := by rw [phase]; rfl
    refine ⟨inv.owned,inv.served alive,?_⟩
    dsimp only
    split
    · exact .sleeping
    · exact .finished
  next name id rest phase =>
    have alive : s.watchdog.alive = true := by rw [phase]; rfl
    have watched := inv.watchdog
    rw [phase] at watched
    obtain _ | _ | ⟨snapshot⟩ := watched
    have there := snapshot.2 name id (List.mem_cons_self ..)
    have other : name ∉ rest.map Prod.fst := (List.nodup_cons.mp snapshot.1).1
    rw [there]
    split
    next crashed =>
      refine ⟨inv.owned.pop there ?_,inv.served alive,.stopping (snapshot.tail.erase other) other ?_⟩
      · intro n c found task
        rw [collector_of_getElem? found,CollectorInstance.crashed,Bool.and_eq_true,Bool.and_eq_true] at crashed
        have done := List.all_eq_true.mp crashed.1.2 false task
        cases done
      · exact (Dict.get?_erase ..).trans (if_pos rfl)
    next => exact ⟨inv.owned,inv.served alive,.checking snapshot.tail⟩
  next => exact inv

theorem Inv.replace (inv : Inv s) (stopRaises constructorRaises : Bool) :
    Inv (step registry s (.replace stopRaises constructorRaises)) := by
  rw [step]
  split
  next name id rest phase =>
    have alive : s.watchdog.alive = true := by rw [phase]; rfl
    have watched := inv.watchdog
    rw [phase] at watched
    obtain _ | _ | _ | ⟨snapshot,other,out⟩ := watched
    have cleared : Owned s.instances (s.collectors.modify id fun c => (c.1,clearTasks c.2)) :=
      inv.owned.change (fun _ _ _ running => by cases running) (fun _ _ _ task => by cases task)
    split
    · split
      · exact ⟨cleared,inv.served alive,.checking snapshot⟩
      · have length : (s.change id clearTasks).collectors.length = s.collectors.length := List.length_modify ..
        refine ⟨cleared.enter out,inv.served alive,.loading (snapshot.insert other) other ?_⟩
        exact (Dict.get?_insert_self ..).trans (congrArg some length)
    · exact inv
  next => exact inv

theorem Inv.reload (inv : Inv s) (raised : Option StartError) : Inv (step registry s (.reload raised)) := by
  rw [step]
  split
  next name id rest phase =>
    have alive : s.watchdog.alive = true := by rw [phase]; rfl
    have watched := inv.watchdog
    rw [phase] at watched
    obtain _ | _ | _ | _ | ⟨snapshot,-,there⟩ := watched
    exact ⟨inv.owned.start there raised,inv.served alive,.checking snapshot⟩
  next => exact inv

/-! ### Steps of `start_all` and `stop_all` -/

theorem Inv.startAll (inv : Inv s) : Inv (step registry s .startAll) := by
  have ok := inv.main
  rw [step]
  split
  next phase =>
    split
    · exact inv
    · rw [phase] at ok
      obtain ⟨out,ended⟩ := ok
      exact ⟨inv.owned,.entering registry.nodupKeys (fun name _ => out name) ended,inv.watchdog⟩
  next phase =>
    split
    · exact inv
    · rw [phase] at ok
      obtain _ | _ | _ | _ | _ | _ | ⟨out,ended⟩ := ok
      exact ⟨inv.owned,.entering registry.nodupKeys (fun name _ => out name) ended,inv.watchdog⟩
  next => exact inv

theorem Inv.enter (inv : Inv s) (constructorRaises : Bool) : Inv (step registry s (.enter constructorRaises)) := by
  have ok := inv.main
  rw [step]
  split
  next phase => exact ⟨inv.owned,.serving,.sleeping⟩
  next name rest phase =>
    rw [phase] at ok
    obtain _ | ⟨distinct,free,ended⟩ := ok
    obtain ⟨fresh,distinct⟩ := List.nodup_cons.mp distinct
    split
    · exact ⟨inv.owned,.entering distinct (fun n member => free n (List.mem_cons_of_mem name member)) ended,inv.watchdog⟩
    · have out := free name (List.mem_cons_self ..)
      refine ⟨inv.owned.enter out,.loading distinct ?_ (Dict.get?_insert_self ..) ended,.of_ended ended⟩
      intro n member
      have apart : n ≠ name := fun same => fresh (same ▸ member)
      exact ((Dict.get?_insert ..).trans (if_neg apart)).trans (free n (List.mem_cons_of_mem name member))
  next => exact inv

theorem Inv.load (inv : Inv s) (raised : Option StartError) : Inv (step registry s (.load raised)) := by
  have ok := inv.main
  rw [step]
  split
  next name id rest phase =>
    rw [phase] at ok
    obtain _ | _ | ⟨distinct,free,there,ended⟩ := ok
    exact ⟨inv.owned.start there raised,.entering distinct free ended,inv.watchdog⟩
  next => exact inv

theorem Inv.cancelStart (inv : Inv s) : Inv (step registry s .cancelStart) := by
  rw [step]
  split
  next => exact ⟨inv.owned,.serving,inv.watchdog⟩
  next => exact inv

theorem Inv.stopAll (inv : Inv s) : Inv (step registry s .stopAll) := by
  rw [step]
  split
  next phase =>
    split
    next =>
      split
      next => exact ⟨inv.owned,.cancelling,inv.watchdog⟩
      next ended =>
        refine ⟨inv.owned,.stopping (fun n j there => .inl ?_) (eq_false_of_ne_true ended),inv.watchdog⟩
        exact (Dict.mem_values_iff _ _).mpr ⟨n,there⟩
    next => exact inv
  next => exact inv

theorem Inv.cancelled (inv : Inv s) : Inv (step registry s .cancelled) := by
  rw [step]
  split
  next => exact ⟨inv.owned,.stopping (fun n j there => .inl ((Dict.mem_values_iff _ _).mpr ⟨n,there⟩)) rfl,.finished⟩
  next => exact inv

theorem Inv.stopInstance (inv : Inv s) (id : ℕ) : Inv (step registry s (.stopInstance id)) := by
  have ok := inv.main
  rw [step]
  split
  next waiting phase =>
    rw [phase] at ok
    obtain _ | _ | _ | _ | _ | ⟨left,ended⟩ := ok
    -- Of the others nothing changes, and this one does not run.
    have others : ∀ s' : State, s'.instances = s.instances → (s'.collector id).running = false →
        (∀ j, (s.collector j).running = false → (s'.collector j).running = false) → ∀ n j, s'.instances.get? n = some j →
          j ∈ waiting.erase id ∨ (s'.collector j).running = false := by
      intro s' instances stops keeps n j there
      rw [instances] at there
      by_cases same : j = id
      · exact .inr (same ▸ stops)
      · exact (left n j there).imp (fun member => (List.mem_erase_of_ne same).mpr member) (keeps j)
    split
    · split
      next running =>
        split
        · have cleared : Owned s.instances (s.collectors.modify id fun c => (c.1,clearTasks c.2)) :=
            inv.owned.change (fun _ _ _ running => by cases running) (fun _ _ _ task => by cases task)
          exact ⟨cleared,.stopping (others (s.change id clearTasks) rfl stops_cleared fun j => stops_change fun _ _ => rfl) ended,
            inv.watchdog⟩
        · exact inv
      next stops => exact ⟨inv.owned,.stopping (others s rfl (eq_false_of_ne_true stops) fun _ kept => kept) ended,inv.watchdog⟩
    · exact inv
  next => exact inv

theorem Inv.clear (inv : Inv s) : Inv (step registry s .clear) := by
  have ok := inv.main
  rw [step]
  split
  next phase =>
    rw [phase] at ok
    obtain _ | _ | _ | _ | _ | ⟨left,ended⟩ := ok
    have stopped : ∀ (id : ℕ) (name : String) (c : CollectorInstance), s.collectors[id]? = some (name,c) → c.running = false := by
      intro id name c found
      by_contra running
      have there := inv.owned.entered id name c found (eq_true_of_ne_false running)
      have stops := (left name id there).resolve_left (List.not_mem_nil)
      rw [collector_of_getElem? found] at stops
      exact running stops
    exact ⟨inv.owned.clear stopped,.stopped (fun _ => rfl) ended,.of_ended ended⟩
  next => exact inv

theorem Inv.taskDone (inv : Inv s) (id i : ℕ) : Inv (step registry s (.taskDone id i)) := by
  have kept : Owned s.instances (s.collectors.modify id fun c => (c.1,{ c.2 with tasks := c.2.tasks.set i true })) := by
    refine inv.owned.change (f := fun c => { c with tasks := c.tasks.set i true }) ?_ ?_
    · exact fun n c found running => inv.owned.entered id n c found running
    · intro n c found task
      rcases List.mem_or_eq_of_mem_set task with live | done
      · exact inv.owned.live id n c found live
      · cases done
  refine ⟨kept,inv.main.mono fun j => ?_,inv.watchdog⟩
  exact stops_change (f := fun c => { c with tasks := c.tasks.set i true }) fun _ stops => stops

theorem Inv.step (inv : Inv s) (a : Action) : Inv (RegistryShutdown.step registry s a) := by
  cases a with
  | startAll => exact inv.startAll registry
  | enter constructorRaises => exact inv.enter registry constructorRaises
  | load raised => exact inv.load registry raised
  | cancelStart => exact inv.cancelStart registry
  | wake => exact inv.wake registry
  | check => exact inv.check registry
  | replace stopRaises constructorRaises => exact inv.replace registry stopRaises constructorRaises
  | reload raised => exact inv.reload registry raised
  | stopAll => exact inv.stopAll registry
  | cancelled => exact inv.cancelled registry
  | stopInstance id => exact inv.stopInstance registry id
  | clear => exact inv.clear registry
  | taskDone id i => exact inv.taskDone registry id i

theorem run_inv (actions : List Action) : Inv (run registry actions) := by
  refine kept_run (fun _ a inv => inv.step registry a) ?_ actions
  exact ⟨⟨(fun _ _ impossible => by cases impossible),(fun _ _ _ impossible => by cases impossible),
    fun _ _ _ impossible => by cases impossible⟩,.idle (fun _ => rfl) rfl,.absent⟩

/-! ### The end -/

/-- A collector with a live task. -/
def Live (s : State) (name : String) (id : ℕ) : Prop := ∃ c : CollectorInstance, s.collectors[id]? = some (name,c) ∧ false ∈ c.tasks

/-- Where no task is live, the stops end one after the other. -/
theorem stops_end {waiting : List ℕ} (phase : s.main = .stopping waiting) (dead : ∀ name id, ¬ Live s name id) :
    ((waiting.map Action.stopInstance ++ [Action.clear]).foldl (step registry) s).main = .stopped := by
  induction waiting generalizing s with
  | nil =>
    rw [List.map_nil,List.nil_append,List.foldl_cons,List.foldl_nil,step,phase]
  | cons id rest ih =>
    have done : tasksDone (s.collector id) = true := by
      rw [tasksDone,List.all_eq_true]
      intro task member
      rw [State.collector] at member
      cases found : s.collectors[id]? with
      | none =>
        rw [found] at member
        cases member
      | some e =>
        rw [found] at member
        cases task with
        | true => rfl
        | false => exact absurd ⟨e.2,found,member⟩ (dead e.1 id)
    have erased : (id :: rest).erase id = rest := List.erase_cons_head ..
    rw [List.map_cons,List.cons_append,List.foldl_cons]
    by_cases running : (s.collector id).running = true
    · have next : step registry s (.stopInstance id) = { s.change id clearTasks with main := .stopping rest } := by
        rw [step,phase]
        dsimp only
        rw [if_pos (List.mem_cons_self ..),if_pos running,if_pos done,erased]
      rw [next]
      refine ih rfl ?_
      rintro name j ⟨c,found,task⟩
      by_cases same : id = j
      · subst same
        change (s.collectors.modify id _)[id]? = _ at found
        rw [List.getElem?_modify_eq,Option.map_eq_map,Option.map_eq_some_iff] at found
        obtain ⟨e,-,equal⟩ := found
        obtain ⟨-,rfl⟩ := Prod.mk.inj equal
        cases task
      · change (s.collectors.modify id _)[j]? = _ at found
        rw [List.getElem?_modify_ne _ _ same] at found
        exact dead name j ⟨c,found,task⟩
    · have next : step registry s (.stopInstance id) = { s with main := .stopping rest } := by
        rw [step,phase]
        dsimp only
        rw [if_pos (List.mem_cons_self ..),if_neg running,erased]
      rw [next]
      exact ih rfl dead

/-- In every run, whatever raises, crashes or is cancelled and in whatever order: no name has two
    collectors with live tasks; when `stop_all` has returned, no collector that was ever made runs
    or has a live task, and the watchdog has ended; and once all tasks are done, the stops
    that are left let it return. -/
theorem shutdown_complete (registry : Dict String κ) (actions : List Action) :
    let s := run registry actions
    (∀ name id id', Live s name id → Live s name id' → id = id') ∧
      (s.main = .stopped → s.watchdog.alive = false ∧ ∀ (id : ℕ) (name : String) (c : CollectorInstance),
        s.collectors[id]? = some (name,c) → c.running = false ∧ ∀ task ∈ c.tasks, task = true) ∧
      ((s.main = .cancelling ∨ ∃ waiting, s.main = .stopping waiting) → (∀ name id, ¬ Live s name id) →
        ∃ ids : List ℕ,
          (run registry (actions ++ Action.cancelled :: (ids.map Action.stopInstance ++ [Action.clear]))).main = .stopped) := by
  intro s
  have inv : Inv s := run_inv registry actions
  have entered : ∀ name id, Live s name id → s.instances.get? name = some id := by
    rintro name id ⟨c,found,task⟩
    exact inv.owned.entered id name c found (inv.owned.live id name c found task)
  refine ⟨?_,?_,?_⟩
  · intro name id id' live live'
    have same := (entered name id live).symm.trans (entered name id' live')
    exact Option.some.inj same
  · intro phase
    have ok := inv.main
    rw [phase] at ok
    obtain _ | _ | _ | _ | _ | _ | ⟨out,ended⟩ := ok
    refine ⟨ended,fun id name c found => ⟨?_,fun task member => ?_⟩⟩
    · by_contra running
      have there := inv.owned.entered id name c found (eq_true_of_ne_false running)
      rw [out] at there
      cases there
    · cases task with
      | true => rfl
      | false =>
        have there := entered name id ⟨c,found,member⟩
        rw [out] at there
        cases there
  · intro ending dead
    have joined : ∀ ids : List ℕ, run registry (actions ++ Action.cancelled :: (ids.map Action.stopInstance ++ [Action.clear])) =
        (ids.map Action.stopInstance ++ [Action.clear]).foldl (step registry) (step registry s .cancelled) := by
      intro ids
      rw [run,List.foldl_append,List.foldl_cons]
      rfl
    rcases ending with phase | ⟨waiting,phase⟩
    · have next : step registry s .cancelled = { s with watchdog := .finished, main := .stopping s.instances.values } := by
        rw [step,phase]
      refine ⟨s.instances.values,?_⟩
      rw [joined,next]
      exact stops_end registry rfl dead
    · have next : step registry s .cancelled = s := by
        rw [step,phase]
      refine ⟨waiting,?_⟩
      rw [joined,next]
      exact stops_end registry phase dead

def twoNames : Dict String Unit := (Dict.empty.insert "hyperliquid" ()).insert "aster" ()
/-- The watchdog is cancelled while it restarts a crashed collector. -/
def restartCancelled : List Action :=
  [.startAll,.enter false,.load none,.enter false,.load none,.enter false,.taskDone 0 0,.taskDone 0 1,.taskDone 0 2,.wake,.check,
    .replace false false,.stopAll,.cancelled,.taskDone 1 0,.taskDone 1 1,.taskDone 1 2,.stopInstance 1,.stopInstance 2,.clear]

theorem restartCancelled_complete : (run twoNames restartCancelled).main = .stopped ∧
    (run twoNames restartCancelled).collectors.length = 3 ∧ (run twoNames restartCancelled).watchdog.alive = false := by
  have ended : (run twoNames restartCancelled).main = .stopped := by decide +kernel
  exact ⟨ended,by decide +kernel,((shutdown_complete twoNames restartCancelled).2.1 ended).1⟩

end FundingRadar.RegistryShutdown
