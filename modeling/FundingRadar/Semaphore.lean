import Mathlib.Data.List.Perm.Basic
import FundingRadar.Runs

/-!
Jobs that run under a counting semaphore. A job that cannot have a permit waits; a permit that
comes back goes to the first waiter that has none, which runs once it is resumed, and whoever
comes while anyone waits waits too. The permits are neither lost nor multiplied
(`Inv.permits`), no permit lies idle while a job waits for one (`Inv.awake`), and every order of
the steps takes every job through exactly once (`settled`).
-/
namespace FundingRadar.Semaphore
open Runs
set_option linter.unusedSectionVars false

/-- A waiter of the semaphore, and whether it has been given a permit. -/
structure Waiter (ι : Type*) where
  job : ι
  woken : Bool
deriving DecidableEq

/-- The semaphore, and where the jobs are. -/
structure Pool (ι ρ : Type*) where
  value : ℕ
  waiters : List (Waiter ι)
  created : List ι
  running : List ι
  finished : List (ι × ρ)

inductive Action (ι ρ : Type*)
  /-- The job asks for a permit. -/
  | enter (i : ι)
  /-- The job is resumed with its permit. -/
  | resume (i : ι)
  /-- The job ends and gives its permit back. -/
  | finish (i : ι) (r : ρ)

variable {ι ρ : Type*} [DecidableEq ι]

/-- Give a permit to the first waiter that has none. -/
def wakeNext : List (Waiter ι) → Option (List (Waiter ι))
  | [] => none
  | ⟨i,false⟩ :: rest => some (⟨i,true⟩ :: rest)
  | ⟨i,true⟩ :: rest => (wakeNext rest).map (⟨i,true⟩ :: ·)
def Pool.wake (p : Pool ι ρ) : Pool ι ρ :=
  match wakeNext p.waiters with
  | none => p
  | some waiters => { p with value := p.value - 1, waiters := waiters }

def start (permits : ℕ) (jobs : List ι) : Pool ι ρ := ⟨permits,[],jobs,[],[]⟩

/-- No permit can be had at once. -/
def Pool.Locked (p : Pool ι ρ) : Prop := p.value = 0 ∨ p.waiters ≠ []
instance (p : Pool ι ρ) : Decidable p.Locked := inferInstanceAs (Decidable (_ ∨ _))

/-- The job runs with the permit it has been given. -/
def Pool.resumed (p : Pool ι ρ) (i : ι) : Pool ι ρ := { p with waiters := p.waiters.erase ⟨i,true⟩, running := p.running ++ [i] }
/-- The job gives its permit back. -/
def Pool.released (p : Pool ι ρ) (i : ι) (r : ρ) : Pool ι ρ :=
  { p with value := p.value + 1, running := p.running.erase i, finished := p.finished ++ [(i,r)] }

def step (p : Pool ι ρ) : Action ι ρ → Pool ι ρ
  | .enter i =>
    if p.Locked then { p with created := p.created.erase i, waiters := p.waiters ++ [⟨i,false⟩] }
    else { p with value := p.value - 1, created := p.created.erase i, running := p.running ++ [i] }
  | .resume i => if 0 < p.value then (p.resumed i).wake else p.resumed i
  | .finish i r => (p.released i r).wake

/-- The job is where the step takes it from. -/
def Enabled (p : Pool ι ρ) : Action ι ρ → Prop
  | .enter i => i ∈ p.created
  | .resume i => ⟨i,true⟩ ∈ p.waiters
  | .finish i _ => i ∈ p.running
instance (p : Pool ι ρ) : (a : Action ι ρ) → Decidable (Enabled p a)
  | .enter i => inferInstanceAs (Decidable (i ∈ p.created))
  | .resume i => inferInstanceAs (Decidable (⟨i,true⟩ ∈ p.waiters))
  | .finish i _ => inferInstanceAs (Decidable (i ∈ p.running))

/-- The jobs that a step starts. -/
def begun (p : Pool ι ρ) : Action ι ρ → List ι
  | .enter i => if p.Locked then [] else [i]
  | .resume i => [i]
  | .finish _ _ => []
def Action.result? : Action ι ρ → Option (ι × ρ)
  | .finish i r => some (i,r)
  | _ => none

/-- All jobs, by where they are. -/
def Pool.jobs (p : Pool ι ρ) : List ι := p.created ++ p.waiters.map Waiter.job ++ p.running ++ p.finished.map Prod.fst
/-- How many waiters have been given a permit. -/
def Pool.woken (p : Pool ι ρ) : ℕ := p.waiters.countP Waiter.woken
/-- A bound on the steps that are left. -/
def Pool.rank (p : Pool ι ρ) : ℕ := 3 * p.created.length + 2 * p.waiters.length + p.running.length

structure Inv (permits : ℕ) (p : Pool ι ρ) : Prop where
  permits : p.value + p.woken + p.running.length = permits
  awake : 0 < p.value → p.waiters = [] ∨ 0 < p.woken

/-! ### Waking -/

theorem wakeNext_none {waiters : List (Waiter ι)} (none : wakeNext waiters = none) :
    waiters.countP Waiter.woken = waiters.length := by
  induction waiters with
  | nil => rfl
  | cons w rest ih =>
    obtain ⟨i,woken⟩ := w
    cases woken with
    | false => cases none
    | true =>
      have later : wakeNext rest = .none := Option.map_eq_none_iff.mp none
      rw [List.countP_cons_of_pos rfl,ih later,List.length_cons]

theorem wakeNext_some {waiters more : List (Waiter ι)} (some : wakeNext waiters = some more) :
    more.map Waiter.job = waiters.map Waiter.job ∧ more.countP Waiter.woken = waiters.countP Waiter.woken + 1 := by
  induction waiters generalizing more with
  | nil => cases some
  | cons w rest ih =>
    obtain ⟨i,woken⟩ := w
    cases woken with
    | false =>
      cases some
      exact ⟨rfl,by rw [List.countP_cons_of_pos rfl,List.countP_cons_of_neg Bool.false_ne_true]⟩
    | true =>
      obtain ⟨rest',found,rfl⟩ := Option.map_eq_some_iff.mp some
      obtain ⟨same,one⟩ := ih found
      refine ⟨by rw [List.map_cons,List.map_cons,same],?_⟩
      rw [List.countP_cons_of_pos rfl,List.countP_cons_of_pos rfl,one]

/-- What waking changes: a permit goes from the semaphore to a waiter, unless none needs it. -/
theorem wake_spec (p : Pool ι ρ) (free : 0 < p.value) :
    p.wake.waiters.map Waiter.job = p.waiters.map Waiter.job ∧ p.wake.value + p.wake.woken = p.value + p.woken ∧
      (p.wake.waiters = [] ∨ 0 < p.wake.woken) ∧ p.wake.created = p.created ∧ p.wake.running = p.running ∧
      p.wake.finished = p.finished := by
  unfold Pool.wake
  split
  next none =>
    refine ⟨rfl,rfl,?_,rfl,rfl,rfl⟩
    cases empty : p.waiters with
    | nil => exact .inl rfl
    | cons w rest =>
      rw [Pool.woken,wakeNext_none none,empty]
      exact .inr (Nat.succ_pos _)
  next more found =>
    obtain ⟨same,one⟩ := wakeNext_some found
    have counted : Pool.woken { p with value := p.value - 1, waiters := more } = p.woken + 1 := one
    refine ⟨same,?_,.inr (by rw [counted]; exact Nat.succ_pos _),rfl,rfl,rfl⟩
    rw [counted]
    show p.value - 1 + (p.woken + 1) = _
    omega

/-! ### One step -/

variable {permits : ℕ} {p : Pool ι ρ} {a : Action ι ρ}

theorem count_erase_add {l : List ι} {i : ι} (inside : i ∈ l) (j : ι) : (l.erase i).count j + [i].count j = l.count j := by
  have perm := (List.perm_cons_erase inside).count_eq j
  rw [perm,Nat.add_comm]
  exact (@List.count_append ι _ j [i] (l.erase i)).symm

theorem waiting_jobs {waiters : List (Waiter ι)} {i : ι} (inside : ⟨i,true⟩ ∈ waiters) :
    (waiters.map Waiter.job).Perm (i :: (waiters.erase ⟨i,true⟩).map Waiter.job) :=
  (List.perm_cons_erase inside).map Waiter.job
theorem waiting_woken {waiters : List (Waiter ι)} {i : ι} (inside : ⟨i,true⟩ ∈ waiters) :
    waiters.countP Waiter.woken = (waiters.erase ⟨i,true⟩).countP Waiter.woken + 1 := by
  rw [(List.perm_cons_erase inside).countP_eq,List.countP_cons_of_pos rfl]

theorem inv_start (permits : ℕ) (jobs : List ι) : Inv permits (start permits jobs : Pool ι ρ) := ⟨rfl,fun _ => .inl rfl⟩

theorem Inv.step (inv : Inv permits p) (enabled : Enabled p a) : Inv permits (step p a) := by
  have total := inv.permits
  cases a with
  | enter i =>
    rw [Semaphore.step]
    split
    next locked =>
      have same : Pool.woken { p with created := p.created.erase i, waiters := p.waiters ++ [⟨i,false⟩] } = p.woken := by
        rw [Pool.woken,List.countP_append]
        rfl
      refine ⟨by rw [same]; exact total,fun free => .inr ?_⟩
      rw [same]
      exact (inv.awake free).resolve_left (locked.resolve_left (Nat.ne_of_gt free))
    next free =>
      obtain ⟨some,none⟩ := not_or.mp free
      refine ⟨?_,fun _ => .inl (not_not.mp none)⟩
      show p.value - 1 + p.woken + (p.running ++ [i]).length = permits
      rw [List.length_append,List.length_singleton]
      omega
  | resume i =>
    have counted := waiting_woken enabled
    have grown : (p.running ++ [i]).length = p.running.length + 1 := List.length_append
    rw [Semaphore.step]
    split
    next free =>
      obtain ⟨-,shared,awake,-,running,-⟩ := wake_spec (p.resumed i) free
      refine ⟨?_,fun _ => awake⟩
      rw [shared,running]
      show p.value + (p.waiters.erase ⟨i,true⟩).countP Waiter.woken + (p.running ++ [i]).length = permits
      rw [Pool.woken] at total
      omega
    next none =>
      refine ⟨?_,fun free => absurd free none⟩
      show p.value + (p.waiters.erase ⟨i,true⟩).countP Waiter.woken + (p.running ++ [i]).length = permits
      rw [Pool.woken] at total
      omega
  | finish i r =>
    have shrunk := (List.perm_cons_erase enabled).length_eq
    rw [List.length_cons] at shrunk
    obtain ⟨-,shared,awake,-,running,-⟩ := wake_spec (p.released i r) (Nat.succ_pos _)
    refine ⟨?_,fun _ => awake⟩
    rw [Semaphore.step,shared,running]
    show p.value + 1 + p.woken + (p.running.erase i).length = permits
    omega

/-- A step takes one job from one place to another. -/
theorem step_jobs (enabled : Enabled p a) : (step p a).jobs.Perm p.jobs := by
  refine List.perm_iff_count.mpr fun j => ?_
  cases a with
  | enter i =>
    have moved := count_erase_add enabled j
    rw [step]
    split
    · simp only [Pool.jobs,List.map_append,List.map_cons,List.map_nil,List.count_append]
      omega
    · simp only [Pool.jobs,List.count_append]
      omega
  | resume i =>
    have moved := (waiting_jobs enabled).count_eq j
    rw [← List.singleton_append,List.count_append] at moved
    rw [step]
    split
    next free =>
      obtain ⟨waiters,-,-,created,running,finished⟩ := wake_spec (p.resumed i) free
      simp only [Pool.jobs,waiters,created,running,finished]
      simp only [Pool.resumed,List.count_append]
      omega
    next =>
      simp only [Pool.jobs,Pool.resumed,List.count_append]
      omega
  | finish i r =>
    have moved := count_erase_add enabled j
    obtain ⟨waiters,-,-,created,running,finished⟩ := wake_spec (p.released i r) (Nat.succ_pos _)
    simp only [Pool.jobs,step,waiters,created,running,finished]
    simp only [Pool.released,List.map_append,List.map_cons,List.map_nil,List.count_append]
    omega

theorem step_rank (enabled : Enabled p a) : (step p a).rank + 1 ≤ p.rank := by
  cases a with
  | enter i =>
    have shrunk := (List.perm_cons_erase enabled).length_eq
    rw [List.length_cons] at shrunk
    rw [step]
    split
    · simp only [Pool.rank,List.length_append,List.length_singleton]
      omega
    · simp only [Pool.rank,List.length_append,List.length_singleton]
      omega
  | resume i =>
    have shrunk := (List.perm_cons_erase enabled).length_eq
    rw [List.length_cons] at shrunk
    rw [step]
    split
    next free =>
      obtain ⟨waiters,-,-,created,running,-⟩ := wake_spec (p.resumed i) free
      have same := congrArg List.length waiters
      rw [List.length_map,List.length_map] at same
      simp only [Pool.rank,same,created,running]
      simp only [Pool.resumed,List.length_append,List.length_singleton]
      omega
    next =>
      simp only [Pool.rank,Pool.resumed,List.length_append,List.length_singleton]
      omega
  | finish i r =>
    have shrunk := (List.perm_cons_erase enabled).length_eq
    rw [List.length_cons] at shrunk
    obtain ⟨waiters,-,-,created,running,-⟩ := wake_spec (p.released i r) (Nat.succ_pos _)
    have same := congrArg List.length waiters
    rw [List.length_map,List.length_map] at same
    simp only [Pool.rank,step,same,created,running]
    simp only [Pool.released]
    omega

theorem step_finished (p : Pool ι ρ) (a : Action ι ρ) : (step p a).finished = p.finished ++ a.result?.toList := by
  cases a with
  | enter i => rw [step]; split <;> exact (List.append_nil _).symm
  | resume i =>
    rw [step]
    split
    next free => exact (wake_spec (p.resumed i) free).2.2.2.2.2.trans (List.append_nil _).symm
    next => exact (List.append_nil _).symm
  | finish i r => exact (wake_spec (p.released i r) (Nat.succ_pos _)).2.2.2.2.2

/-- What runs or has run is what has been started. -/
theorem step_begun (enabled : Enabled p a) :
    ((step p a).running ++ (step p a).finished.map Prod.fst).Perm (p.running ++ p.finished.map Prod.fst ++ begun p a) := by
  refine List.perm_iff_count.mpr fun j => ?_
  cases a with
  | enter i =>
    rw [step,begun]
    split
    · rw [List.append_nil]
    · simp only [List.count_append]
      omega
  | resume i =>
    rw [step,begun]
    split
    next free =>
      obtain ⟨-,-,-,-,running,finished⟩ := wake_spec (p.resumed i) free
      simp only [running,finished]
      simp only [Pool.resumed,List.count_append]
      omega
    next =>
      simp only [Pool.resumed,List.count_append]
      omega
  | finish i r =>
    have moved := count_erase_add enabled j
    obtain ⟨-,-,-,-,running,finished⟩ := wake_spec (p.released i r) (Nat.succ_pos _)
    simp only [step,begun,running,finished]
    simp only [Pool.released,List.map_append,List.map_cons,List.map_nil,List.count_append,List.append_nil]
    omega

/-- Where no step can be taken every job is through. -/
theorem Inv.through (inv : Inv permits p) (some : 0 < permits) (stuck : ∀ a, ¬ Enabled p a) (r : ρ) :
    p.created = [] ∧ p.waiters = [] ∧ p.running = [] := by
  have running : p.running = [] := by
    cases runs : p.running with
    | nil => rfl
    | cons i rest =>
      refine absurd ?_ (stuck (.finish i r))
      rw [Enabled,runs]
      exact List.mem_cons_self ..
  have created : p.created = [] := by
    cases rests : p.created with
    | nil => rfl
    | cons i rest =>
      refine absurd ?_ (stuck (.enter i))
      rw [Enabled,rests]
      exact List.mem_cons_self ..
  have asleep : p.woken = 0 := by
    rw [Pool.woken,List.countP_eq_zero]
    rintro ⟨i,woken⟩ member given
    obtain rfl : woken = true := given
    exact stuck (.resume i) member
  have total := inv.permits
  rw [running,asleep] at total
  have free : 0 < p.value := by
    rw [List.length_nil] at total
    omega
  exact ⟨created,(inv.awake free).resolve_right (Nat.not_lt_of_ge (Nat.le_of_eq asleep)),running⟩

/-! ### Runs -/

variable {actions : List (Action ι ρ)}

theorem run_rank (each : Each step Enabled p actions) : (actions.foldl step p).rank + actions.length ≤ p.rank := by
  induction actions generalizing p with
  | nil => exact Nat.le_refl _
  | cons a rest ih =>
    obtain ⟨first,later⟩ := (each_cons a rest).mp each
    have one := step_rank first
    have more := ih later
    rw [List.foldl_cons,List.length_cons]
    omega

theorem run_finished (p : Pool ι ρ) (actions : List (Action ι ρ)) :
    (actions.foldl step p).finished = p.finished ++ actions.filterMap Action.result? := by
  induction actions generalizing p with
  | nil => exact (List.append_nil _).symm
  | cons a rest ih =>
    rw [List.foldl_cons,ih,step_finished,List.append_assoc]
    cases a <;> rfl

theorem run_jobs (each : Each step Enabled p actions) : (actions.foldl step p).jobs.Perm p.jobs := by
  induction actions generalizing p with
  | nil => exact .refl _
  | cons a rest ih =>
    obtain ⟨first,later⟩ := (each_cons a rest).mp each
    exact (ih later).trans (step_jobs first)

theorem run_begun (each : Each step Enabled p actions) :
    ((actions.foldl step p).running ++ (actions.foldl step p).finished.map Prod.fst).Perm
      (p.running ++ p.finished.map Prod.fst ++ outputs step begun p actions) := by
  induction actions generalizing p with
  | nil => rw [outputs,List.append_nil]; exact .refl _
  | cons a rest ih =>
    obtain ⟨first,later⟩ := (each_cons a rest).mp each
    rw [outputs,← List.append_assoc]
    exact (ih later).trans ((step_begun first).append_right _)

/-- Never more jobs run than there are permits. -/
theorem running_le {permits : ℕ} {jobs : List ι} (each : Each step Enabled (start permits jobs) actions) :
    Throughout step (fun p => p.running.length ≤ permits) (start permits jobs) actions := by
  intro before within
  have inv := kept_of_conditions (fun _ _ holds enabled => Inv.step holds enabled) (inv_start permits jobs) each before within
  exact Nat.le_trans (Nat.le_add_left _ _) (Nat.le_of_eq inv.permits)

/-- Once no step can be taken, every job has been started once and has ended once. -/
theorem settled {permits : ℕ} {jobs : List ι} (some : 0 < permits) (each : Each step Enabled (start permits jobs) actions)
    (r : ρ) (stuck : ∀ a, ¬ Enabled (actions.foldl step (start permits jobs)) a) :
    (outputs step begun (start permits jobs) actions).Perm jobs ∧ ((actions.filterMap Action.result?).map Prod.fst).Perm jobs := by
  have inv := (kept_of_conditions (fun _ _ holds enabled => Inv.step holds enabled) (inv_start permits jobs) each) actions
    (List.prefix_refl _)
  obtain ⟨created,waiters,running⟩ := inv.through some stuck r
  have every := run_jobs each
  rw [Pool.jobs,created,waiters,running,run_finished] at every
  have ended : ((actions.filterMap Action.result?).map Prod.fst).Perm jobs := by
    simpa [start,Pool.jobs] using every
  have ran := run_begun each
  rw [running,run_finished] at ran
  refine ⟨List.Perm.trans ?_ ended,ended⟩
  simpa [start] using ran.symm

end FundingRadar.Semaphore
