import Mathlib.Data.List.Basic

/-!
The loops of a language with exceptions. `loop` runs a body over a list until an
exception ends it, and leaves the state and the results reached so far; a body that
is a `try` statement skips the exceptions its `except` clause handles (`skipping`).
`paged` asks a server for one page after another.
-/
namespace FundingRadar

variable {ε σ α β π : Type}

/-- A `try` statement whose `except` clause goes on with the next item. -/
def skipping [DecidableEq ε] (handled : List ε) (attempt : Except ε (Option β)) : Except ε (Option β) :=
  match attempt with
  | .ok result => .ok result
  | .error e => if e ∈ handled then .ok none else .error e

/-- The state, the results and the exception that a loop ends with. -/
def loop (body : σ → α → σ × Except ε (Option β)) : σ → List α → σ × List β × Option ε
  | s,[] => (s,[],none)
  | s,a :: rest =>
    match body s a with
    | (s',.ok result) =>
      let (last,results,raised) := loop body s' rest
      (last,result.toList ++ results,raised)
    | (s',.error e) => (s',[],some e)

/-- A loop without state, as a generator: what it yields before it ends. -/
def yields (body : α → Except ε (Option β)) (items : List α) : List β × Option ε :=
  (loop (fun (_ : Unit) a => ((),body a)) () items).2

/-- A loop without state, as a statement: its results, or the exception that ends it. -/
def collect (body : α → Except ε (Option β)) (items : List α) : Except ε (List β) :=
  match yields body items with
  | (results,none) => .ok results
  | (_,some e) => .error e

/-- A loop that only changes its state: the state and the exception that it ends with. -/
def accumulate (body : σ → α → Except ε σ) : σ → List α → σ × Option ε
  | s,[] => (s,none)
  | s,a :: rest =>
    match body s a with
    | .ok s' => accumulate body s' rest
    | .error e => (s,some e)

/-- A loop whose rounds change the state also when they raise. -/
def forEach (body : σ → α → σ × Option ε) : σ → List α → σ × Option ε
  | s,[] => (s,none)
  | s,a :: rest =>
    match body s a with
    | (s',none) => forEach body s' rest
    | (s',some e) => (s',some e)

@[simp] theorem skipping_eq_some [DecidableEq ε] (handled : List ε) (attempt : Except ε (Option β)) (b : β) :
    skipping handled attempt = .ok (some b) ↔ attempt = .ok (some b) := by
  cases attempt with
  | ok result => rfl
  | error e =>
    rw [skipping]
    split <;> simp

/-- A computation raises no other errors than these. -/
def RaisesOnly (errors : List ε) (x : Except ε α) : Prop := ∀ e, x = .error e → e ∈ errors

theorem raisesOnly_ok (errors : List ε) (a : α) : RaisesOnly errors (.ok a) := by
  intro e impossible
  cases impossible
theorem RaisesOnly.bind {errors : List ε} {x : Except ε α} {f : α → Except ε β} (first : RaisesOnly errors x)
    (second : ∀ a, x = .ok a → RaisesOnly errors (f a)) : RaisesOnly errors (x >>= f) := by
  intro e raised
  cases ran : x with
  | ok a =>
    rw [ran] at raised
    exact second a ran e raised
  | error e' =>
    rw [ran] at raised
    cases raised
    exact first e ran
theorem RaisesOnly.mono {errors more : List ε} {x : Except ε α} (only : RaisesOnly errors x) (subset : errors ⊆ more) :
    RaisesOnly more x :=
  fun e raised => subset (only e raised)

/-- A `try` statement ends well when its `except` clause handles whatever is raised. -/
theorem skipping_ended_iff [DecidableEq ε] (handled : List ε) (attempt : Except ε (Option β)) :
    (∃ result, skipping handled attempt = .ok result) ↔ RaisesOnly handled attempt := by
  cases attempt with
  | ok result => exact iff_of_true ⟨result,rfl⟩ (raisesOnly_ok handled result)
  | error e =>
    rw [skipping]
    constructor
    · rintro ⟨result,ended⟩ e' same
      cases same
      by_contra unhandled
      rw [if_neg unhandled] at ended
      cases ended
    · intro only
      exact ⟨none,if_pos (only e rfl)⟩

theorem loop_mem {body : σ → α → σ × Except ε (Option β)} {s : σ} {items : List α} {b : β}
    (member : b ∈ (loop body s items).2.1) : ∃ s', ∃ a ∈ items, (body s' a).2 = .ok (some b) := by
  induction items generalizing s with
  | nil => cases member
  | cons a rest ih =>
    rw [loop] at member
    split at member
    · next s' result ran =>
      rcases List.mem_append.mp member with first | later
      · cases result with
        | none => cases first
        | some c =>
          cases List.mem_singleton.mp first
          exact ⟨s,a,.head _,by rw [ran]⟩
      · obtain ⟨s'',x,inRest,made⟩ := ih later
        exact ⟨s'',x,.tail _ inRest,made⟩
    · cases member

theorem yields_mem {body : α → Except ε (Option β)} {items : List α} {b : β} (member : b ∈ (yields body items).1) :
    ∃ a ∈ items, body a = .ok (some b) := by
  obtain ⟨-,a,inside,made⟩ := loop_mem member
  exact ⟨a,inside,made⟩

theorem collect_mem {body : α → Except ε (Option β)} {items : List α} {results : List β}
    (run : collect body items = .ok results) {b : β} (member : b ∈ results) : ∃ a ∈ items, body a = .ok (some b) := by
  rw [collect] at run
  split at run
  · next yielded ends =>
    cases run
    exact yields_mem (by rw [ends]; exact member)
  · cases run

/-- A generator runs to its end where no element raises. -/
theorem yields_ended_iff (body : α → Except ε (Option β)) (items : List α) :
    (yields body items).2 = none ↔ ∀ a ∈ items, ∃ result, body a = .ok result := by
  unfold yields
  induction items with
  | nil => simp [loop]
  | cons a rest ih =>
    rw [loop,List.forall_mem_cons,← ih]
    cases body a with
    | ok result => simp
    | error e => simp

/-- What every round keeps, the loop keeps. -/
theorem accumulate_keeps (kept : σ → Prop) {body : σ → α → Except ε σ} {items : List α}
    (round : ∀ s, ∀ a ∈ items, ∀ s', body s a = .ok s' → kept s → kept s') {s : σ} (start : kept s) :
    kept (accumulate body s items).1 := by
  induction items generalizing s with
  | nil => exact start
  | cons a rest ih =>
    rw [accumulate]
    split
    · next s' ran => exact ih (fun s a inRest => round s a (.tail _ inRest)) (round s a (.head _) s' ran start)
    · exact start

/-- What a paging loop yields in its first `fuel` requests: it asks while `active`
    holds of its position, and a page gives its results and the next position, or
    none where the loop is left. Requests are numbered from `i`. -/
def paged (active : π → Bool) (page : ℕ → π → List β × Option π) : ℕ → ℕ → π → List β
  | 0,_,_ => []
  | fuel + 1,i,p =>
    if active p then
      (page i p).1 ++
        match (page i p).2 with
        | none => []
        | some q => paged active page fuel (i + 1) q
    else []

theorem paged_mem {active : π → Bool} {page : ℕ → π → List β × Option π} {fuel i : ℕ} {p : π} {b : β}
    (member : b ∈ paged active page fuel i p) : ∃ i p, b ∈ (page i p).1 := by
  induction fuel generalizing i p with
  | zero => cases member
  | succ fuel ih =>
    rw [paged] at member
    split at member
    · rcases List.mem_append.mp member with here | later
      · exact ⟨i,p,here⟩
      · split at later
        · cases later
        · exact ih later
    · cases member

/-- The requests of a paging loop with their positions, and whether it has been left after
    its first `fuel` requests. -/
def asked (active : π → Bool) (page : ℕ → π → List β × Option π) : ℕ → ℕ → π → List (ℕ × π) × Bool
  | 0,_,p => ([],!active p)
  | fuel + 1,i,p =>
    if active p then
      match (page i p).2 with
      | none => ([(i,p)],true)
      | some q =>
        let (later,left) := asked active page fuel (i + 1) q
        ((i,p) :: later,left)
    else ([],true)

/-- A paging loop yields what its requests yield. -/
theorem paged_eq_asked (active : π → Bool) (page : ℕ → π → List β × Option π) (fuel i : ℕ) (p : π) :
    paged active page fuel i p = (asked active page fuel i p).1.flatMap (fun a => (page a.1 a.2).1) := by
  induction fuel generalizing i p with
  | zero => rfl
  | succ fuel ih =>
    rw [paged,asked]
    split
    · cases (page i p).2 with
      | none => simp
      | some q => simp [ih]
    · rfl

/-- What a generator yields, element by element. -/
theorem yields_cons (body : α → Except ε (Option β)) (a : α) (rest : List α) :
    (yields body (a :: rest)).1 =
      match body a with
      | .ok result => result.toList ++ (yields body rest).1
      | .error _ => [] := by
  rw [yields,loop]
  cases body a with
  | ok result => rfl
  | error e => rfl
theorem yields_map {γ : Type} (body : β → Except ε (Option γ)) (f : α → β) (items : List α) :
    (yields (fun a => body (f a)) items).1 = (yields body (items.map f)).1 := by
  induction items with
  | nil => rfl
  | cons a rest ih => rw [List.map_cons,yields_cons,yields_cons,ih]

/-! ### Items alone -/

/-- A loop whose results do not depend on the states it comes to is a generator. -/
theorem loop_eq_yields {body : σ → α → σ × Except ε (Option β)} {result : α → Except ε (Option β)} (inv : σ → Prop)
    (keeps : ∀ s a, inv s → inv (body s a).1) (stateless : ∀ s a, inv s → (body s a).2 = result a) {s : σ} (start : inv s)
    (items : List α) : (loop body s items).2 = yields result items := by
  induction items generalizing s with
  | nil => rfl
  | cons a rest ih =>
    have later := ih (keeps s a start)
    unfold yields at later ⊢
    rw [loop,loop,← stateless s a start]
    cases ran : body s a with
    | mk s' outcome =>
      rw [ran] at later
      cases outcome with
      | error e => rfl
      | ok r => simp only [later]

/-- What every round keeps, raising or not, the loop keeps. -/
theorem forEach_keeps (kept : σ → Prop) {body : σ → α → σ × Option ε} {items : List α}
    (step : ∀ s, ∀ a ∈ items, kept s → kept (body s a).1) {s : σ} (start : kept s) : kept (forEach body s items).1 := by
  induction items generalizing s with
  | nil => exact start
  | cons a rest ih =>
    obtain ⟨first,later⟩ := List.forall_mem_cons.mp (fun a member s => step s a member)
    have next := first s start
    rw [forEach]
    cases round : body s a with
    | mk s' raised =>
      rw [round] at next
      cases raised with
      | none => exact ih (fun s a member => later a member s) next
      | some e => exact next

/-- A loop whose rounds never raise is a fold. -/
theorem forEach_eq_foldl {body : σ → α → σ × Option ε} (returns : ∀ s a, (body s a).2 = none) (s : σ) (items : List α) :
    forEach body s items = (items.foldl (fun s a => (body s a).1) s,none) := by
  induction items generalizing s with
  | nil => rfl
  | cons a rest ih =>
    have first := returns s a
    rw [forEach,List.foldl_cons]
    cases round : body s a with
    | mk s' raised =>
      rw [round] at first
      cases first
      exact ih s'

/-- Where the state decides nothing about the exceptions, the loop ends when no round raises. -/
theorem forEach_returns_iff {returns : α → Prop} {body : σ → α → σ × Option ε} (decides : ∀ s a, (body s a).2 = none ↔ returns a)
    (s : σ) (items : List α) : (forEach body s items).2 = none ↔ ∀ a ∈ items, returns a := by
  induction items generalizing s with
  | nil => exact iff_of_true rfl (fun _ impossible => by cases impossible)
  | cons a rest ih =>
    have first := decides s a
    rw [List.forall_mem_cons,← first,forEach]
    cases round : body s a with
    | mk s' raised =>
      cases raised with
      | none =>
        rw [ih s']
        exact (and_iff_right rfl).symm
      | some e => exact iff_of_false (Option.some_ne_none e) (fun both => Option.some_ne_none e both.1)

/-- A loop that ends has read all of its items. -/
theorem collect_ended {body : α → Except ε (Option β)} {items : List α} {results : List β}
    (ran : collect body items = .ok results) : ∀ a ∈ items, ∃ result, body a = .ok result := by
  rw [← yields_ended_iff]
  unfold collect at ran
  cases whole : yields body items with
  | mk yielded raised =>
    rw [whole] at ran
    cases raised with
    | none => rfl
    | some e => cases ran

/-- A run over items does not raise, and gives what it gives of each item alone. -/
def EachAlone (run : List α → Except ε (List β)) (items : List α) : Prop :=
  run items = .ok (items.flatMap fun a => (run [a]).toOption.getD [])

theorem collect_singleton (body : α → Except ε (Option β)) (a : α) : collect body [a] = (body a).map Option.toList := by
  rw [collect,yields,loop]
  cases body a with
  | error e => rfl
  | ok result => simp [loop,Except.map]

/-- A loop whose body never raises for one of the items treats every item alone. -/
theorem collect_eachAlone_iff (body : α → Except ε (Option β)) (items : List α) :
    EachAlone (collect body) items ↔ ∀ a ∈ items, ∃ result, body a = .ok result := by
  rw [EachAlone,← yields_ended_iff]
  have results : (yields body items).2 = none →
      (yields body items).1 = items.flatMap fun a => (collect body [a]).toOption.getD [] := by
    rw [yields_ended_iff]
    intro ended
    induction items with
    | nil => rfl
    | cons a rest ih =>
      obtain ⟨⟨r,ran⟩,later⟩ := List.forall_mem_cons.mp ended
      rw [yields_cons,List.flatMap_cons,collect_singleton,ran,ih later]
      rfl
  rw [collect]
  cases whole : yields body items with
  | mk yielded raised =>
    rw [whole] at results
    cases raised with
    | none => exact iff_of_true (congrArg _ (results rfl)) rfl
    | some e => exact iff_of_false (fun impossible => nomatch impossible) (fun impossible => nomatch impossible)
/-- A loop that runs through images as another runs through the items. -/
theorem collect_map {γ δ : Type} {body : γ → Except ε (Option δ)} {f : α → Option β} {e : α → γ} {g : β → δ}
    (agree : ∀ a, body (e a) = .ok ((f a).map g)) (items : List α) : collect body (items.map e) = .ok ((items.filterMap f).map g) := by
  have run : yields body (items.map e) = ((items.filterMap f).map g,none) := by
    refine Prod.ext ?_ ?_
    · induction items with
      | nil => rfl
      | cons a rest ih =>
        rw [List.map_cons,yields_cons,agree]
        cases image : f a with
        | none => rw [List.filterMap_cons_none image]; exact ih
        | some b => rw [List.filterMap_cons_some image]; exact congrArg _ ih
    · rw [yields_ended_iff]
      intro c member
      obtain ⟨a,-,rfl⟩ := List.mem_map.mp member
      exact ⟨_,agree a⟩
  rw [collect,run]

/-! ### Sequences -/

/-- A computation in sequence succeeds when both parts do. -/
theorem bind_eq_ok {x : Except ε α} {f : α → Except ε β} {b : β} :
    (x >>= f) = .ok b ↔ ∃ a, x = .ok a ∧ f a = .ok b := by
  constructor
  · intro both
    cases first : x with
    | error e => rw [first] at both; cases both
    | ok a => rw [first] at both; exact ⟨a,rfl,both⟩
  · rintro ⟨a,rfl,second⟩
    exact second

theorem toOption_join_iff {x : Except ε (Option β)} {b : β} : x.toOption.join = some b ↔ x = .ok (some b) := by
  cases x with
  | error e => simp [Except.toOption]
  | ok result => simp [Except.toOption]

/-- A sequence of computations succeeds with the results of each. -/
theorem mapM_eq_ok {f : α → Except ε β} {items : List α} {results : List β} :
    items.mapM f = .ok results ↔ List.Forall₂ (fun a b => f a = .ok b) items results := by
  induction items generalizing results with
  | nil =>
    rw [List.mapM_nil]
    constructor
    · intro done; cases done; exact .nil
    · intro none; cases none; rfl
  | cons a rest ih =>
    rw [List.mapM_cons,bind_eq_ok]
    constructor
    · rintro ⟨b,first,later⟩
      obtain ⟨bs,others,done⟩ := bind_eq_ok.mp later
      cases done
      exact .cons first (ih.mp others)
    · intro all
      cases all with
      | cons first others => exact ⟨_,first,bind_eq_ok.mpr ⟨_,ih.mpr others,rfl⟩⟩
theorem exists_mapM_iff {f : α → Except ε β} {items : List α} :
    (∃ results, items.mapM f = .ok results) ↔ ∀ a ∈ items, ∃ b, f a = .ok b := by
  simp only [mapM_eq_ok]
  constructor
  · rintro ⟨results,all⟩
    induction all with
    | nil => intro _ impossible; cases impossible
    | cons first _ ih =>
      intro x member
      rcases List.mem_cons.mp member with rfl | later
      · exact ⟨_,first⟩
      · exact ih x later
  · intro each
    induction items with
    | nil => exact ⟨[],.nil⟩
    | cons a rest ih =>
      obtain ⟨b,first⟩ := each a (List.mem_cons_self ..)
      obtain ⟨bs,others⟩ := ih fun x member => each x (List.mem_cons_of_mem a member)
      exact ⟨b :: bs,.cons first others⟩

end FundingRadar
