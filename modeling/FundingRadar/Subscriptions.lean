import FundingRadar.Runs

/-!
A listener on a channel of messages. It subscribes, takes the messages that are sent to its
subscription one after another and puts out what each of them calls for; an exception ends
the subscription, and after a pause the listener subscribes anew. Messages are taken in the
order in which they are published and at most once, and a subscription loses none of them
before it ends (`sent_conserved`); what is put out is what the messages taken call for
(`put_answers`). A listener simulates another one whose messages are encoded (`step_encode`).
-/
namespace FundingRadar.Subscriptions
open Runs

/-- Where a listener stands. `μ` are the messages, `κ` what they call for and `ε` the
    exceptions of their handling. -/
inductive Phase (μ κ ε : Type*)
  | stopped
  | subscribing
  /-- With the messages that have been sent to the subscription and not been taken. -/
  | listening (waiting : List μ)
  /-- With what the message taken last still calls for, and the exception it ends with. -/
  | handling (left : List κ) (raised : Option ε) (waiting : List μ)
  | pausing

/-- What happens between two suspensions. `ι` is what the handling of a message reads besides. -/
inductive Action (μ ι : Type*)
  | start
  | stop
  | subscribed
  /-- The connection fails. -/
  | failed
  | publish (m : μ)
  | take (reading : ι)
  /-- The handling puts out the next item, or it is over. -/
  | advance
  | wake

/-- What a run leaves a trace of. -/
inductive Entry (μ κ ι : Type*)
  | published (m : μ)
  /-- The message reaches a subscription. -/
  | sent (m : μ)
  | taken (reading : ι) (m : μ)
  | put (k : κ)

section
variable {μ κ ε ι : Type*} (handle : ι → μ → List κ × Option ε)

def step : Phase μ κ ε → Action μ ι → Phase μ κ ε
  | .stopped,.start => .subscribing
  | _,.stop => .stopped
  | .subscribing,.subscribed => .listening []
  | .subscribing,.failed => .pausing
  | .listening _,.failed => .pausing
  | .listening waiting,.publish m => .listening (waiting ++ [m])
  | .handling left raised waiting,.publish m => .handling left raised (waiting ++ [m])
  | .listening (m :: waiting),.take reading => .handling (handle reading m).1 (handle reading m).2 waiting
  | .handling (_ :: left) raised waiting,.advance => .handling left raised waiting
  | .handling [] none waiting,.advance => .listening waiting
  | .handling [] (some _) _,.advance => .pausing
  | .pausing,.wake => .subscribing
  | s,_ => s

/-- What a step leaves a trace of. -/
def record : Phase μ κ ε → Action μ ι → List (Entry μ κ ι)
  | .listening _,.publish m => [.published m,.sent m]
  | .handling _ _ _,.publish m => [.published m,.sent m]
  | _,.publish m => [.published m]
  | .listening (m :: _),.take reading => [.taken reading m]
  | .handling (k :: _) _ _,.advance => [.put k]
  | _,_ => []

def run (s : Phase μ κ ε) (actions : List (Action μ ι)) : Phase μ κ ε := actions.foldl (step handle) s
/-- The trace of a run. -/
def trace (s : Phase μ κ ε) (actions : List (Action μ ι)) : List (Entry μ κ ι) := outputs (step handle) record s actions

end

section
variable {μ κ ε ι : Type*}

def Entry.published? : Entry μ κ ι → Option μ
  | .published m => some m
  | _ => none
def Entry.sent? : Entry μ κ ι → Option μ
  | .sent m => some m
  | _ => none
def Entry.taken? : Entry μ κ ι → Option (ι × μ)
  | .taken reading m => some (reading,m)
  | _ => none
def Entry.put? : Entry μ κ ι → Option κ
  | .put k => some k
  | _ => none

/-- The messages of a trace that were published, reached a subscription and were taken, and what
    was put out. -/
def published (t : List (Entry μ κ ι)) : List μ := t.filterMap Entry.published?
def sent (t : List (Entry μ κ ι)) : List μ := t.filterMap Entry.sent?
def taken (t : List (Entry μ κ ι)) : List (ι × μ) := t.filterMap Entry.taken?
def put (t : List (Entry μ κ ι)) : List κ := t.filterMap Entry.put?

def Phase.waiting : Phase μ κ ε → List μ
  | .listening waiting => waiting
  | .handling _ _ waiting => waiting
  | _ => []
/-- What the message that is being handled still calls for. -/
def Phase.left : Phase μ κ ε → List κ
  | .handling left _ _ => left
  | _ => []
/-- The subscription is up. -/
def Phase.Up : Phase μ κ ε → Prop
  | .listening _ => True
  | .handling _ _ _ => True
  | _ => False

/-- The step does not end the subscription: the listener is not stopped, the connection does not
    fail, and no message raises. -/
def Stays : Phase μ κ ε → Action μ ι → Prop
  | _,.stop => False
  | .listening _,.failed => False
  | .handling [] (some _) _,.advance => False
  | _,_ => True
/-- The step does not stop the listener in the middle of a message. -/
def Completes : Phase μ κ ε → Action μ ι → Prop
  | .handling (_ :: _) _ _,.stop => False
  | _,_ => True

@[simp] theorem published_append (t t' : List (Entry μ κ ι)) : published (t ++ t') = published t ++ published t' := List.filterMap_append
@[simp] theorem sent_append (t t' : List (Entry μ κ ι)) : sent (t ++ t') = sent t ++ sent t' := List.filterMap_append
@[simp] theorem taken_append (t t' : List (Entry μ κ ι)) : taken (t ++ t') = taken t ++ taken t' := List.filterMap_append
@[simp] theorem put_append (t t' : List (Entry μ κ ι)) : put (t ++ t') = put t ++ put t' := List.filterMap_append

variable {handle : ι → μ → List κ × Option ε} {s : Phase μ κ ε}

/-! ### Messages -/

theorem step_sent (s : Phase μ κ ε) (a : Action μ ι) : (sent (record s a)).Sublist (published (record s a)) := by
  cases a with
  | publish m =>
    cases s with
    | listening waiting => exact List.Sublist.refl _
    | handling left raised waiting => exact List.Sublist.refl _
    | _ => exact List.nil_sublist _
  | take reading =>
    cases s with
    | listening waiting => cases waiting <;> exact List.nil_sublist _
    | _ => exact List.nil_sublist _
  | advance =>
    cases s with
    | handling left raised waiting => cases left <;> exact List.nil_sublist _
    | _ => exact List.nil_sublist _
  | _ => cases s <;> exact List.nil_sublist _

theorem step_up {a : Action μ ι} (up : s.Up) (stays : Stays s a) : (step handle s a).Up := by
  cases s with
  | listening waiting =>
    cases a with
    | stop => exact stays
    | failed => exact stays
    | take reading => cases waiting <;> exact trivial
    | _ => exact trivial
  | handling left raised waiting =>
    cases a with
    | stop => exact stays
    | advance =>
      cases left with
      | cons k left => exact trivial
      | nil =>
        cases raised with
        | none => exact trivial
        | some e => exact stays
    | _ => exact trivial
  | _ => exact up.elim

theorem step_conserved {a : Action μ ι} (up : s.Up) (stays : Stays s a) :
    s.waiting ++ sent (record s a) = (taken (record s a)).map Prod.snd ++ (step handle s a).waiting ∧
      sent (record s a) = published (record s a) := by
  cases s with
  | listening waiting =>
    cases a with
    | stop => exact stays.elim
    | failed => exact stays.elim
    | publish m => exact ⟨rfl,rfl⟩
    | take reading =>
      cases waiting with
      | nil => exact ⟨rfl,rfl⟩
      | cons m waiting => exact ⟨List.append_nil _,rfl⟩
    | _ => exact ⟨List.append_nil _,rfl⟩
  | handling left raised waiting =>
    cases a with
    | stop => exact stays.elim
    | publish m => exact ⟨rfl,rfl⟩
    | advance =>
      cases left with
      | cons k left => exact ⟨List.append_nil _,rfl⟩
      | nil =>
        cases raised with
        | none => exact ⟨List.append_nil _,rfl⟩
        | some e => exact stays.elim
    | _ => exact ⟨List.append_nil _,rfl⟩
  | _ => exact up.elim

theorem step_ended {a : Action μ ι} (ends : ¬ (s.Up ∧ Stays s a)) :
    (step handle s a).waiting = [] ∧ sent (record s a) = [] ∧ taken (record s a) = [] := by
  cases s with
  | listening waiting =>
    cases a with
    | stop => exact ⟨rfl,rfl,rfl⟩
    | failed => exact ⟨rfl,rfl,rfl⟩
    | _ => exact absurd ⟨trivial,trivial⟩ ends
  | handling left raised waiting =>
    cases a with
    | stop => exact ⟨rfl,rfl,rfl⟩
    | advance =>
      cases left with
      | cons k left => exact absurd ⟨trivial,trivial⟩ ends
      | nil =>
        cases raised with
        | none => exact absurd ⟨trivial,trivial⟩ ends
        | some e => exact ⟨rfl,rfl,rfl⟩
    | _ => cases left <;> exact absurd ⟨trivial,trivial⟩ ends
  | _ => cases a <;> exact ⟨rfl,rfl,rfl⟩

/-- Messages reach a subscription in the order in which they are published, and are taken in that
    order, each at most once. -/
theorem taken_sublist (actions : List (Action μ ι)) :
    ((taken (trace handle .stopped actions)).map Prod.snd).Sublist (sent (trace handle (.stopped : Phase μ κ ε) actions)) ∧
      (sent (trace handle .stopped actions)).Sublist (published (trace handle (.stopped : Phase μ κ ε) actions)) := by
  have kept := @outputs_kept _ _ (step handle) Phase.stopped (Entry μ κ ι) record
    (fun t s => ((taken t).map Prod.snd ++ s.waiting).Sublist (sent t) ∧ (sent t).Sublist (published t))
  have step : ∀ t s a, ((taken t).map Prod.snd ++ Phase.waiting s).Sublist (sent t) ∧ (sent t).Sublist (published t) →
      ((taken (t ++ record s a)).map Prod.snd ++ (step handle s a).waiting).Sublist (sent (t ++ record s a)) ∧
        (sent (t ++ record s a)).Sublist (published (t ++ record s a)) := by
    rintro t s a ⟨inOrder,ofPublished⟩
    rw [taken_append,sent_append,published_append,List.map_append]
    refine ⟨?_,ofPublished.append (step_sent s a)⟩
    by_cases on : s.Up ∧ Stays s a
    · rw [List.append_assoc,← (step_conserved on.1 on.2).1,← List.append_assoc]
      exact inOrder.append_right _
    · obtain ⟨ended,nothing,nobody⟩ := @step_ended _ _ _ _ handle s a on
      rw [ended,nothing,nobody,List.map_nil,List.append_nil,List.append_nil,List.append_nil]
      exact (List.sublist_append_left _ _).trans inOrder
  obtain ⟨inOrder,ofPublished⟩ := kept step ⟨List.Sublist.refl _,List.Sublist.refl _⟩ actions
  exact ⟨(List.sublist_append_left _ _).trans inOrder,ofPublished⟩

/-- While a subscription is up it loses nothing: what is published is taken in order, or waits. -/
theorem sent_conserved {actions : List (Action μ ι)} (up : s.Up) (stays : Each (step handle) Stays s actions) :
    (run handle s actions).Up ∧ s.waiting ++ published (trace handle s actions) =
      (taken (trace handle s actions)).map Prod.snd ++ (run handle s actions).waiting := by
  induction actions generalizing s with
  | nil => exact ⟨up,List.append_nil _⟩
  | cons a rest ih =>
    obtain ⟨first,later⟩ := (each_cons a rest).mp stays
    obtain ⟨moved,all⟩ := @step_conserved _ _ _ _ handle s a up first
    obtain ⟨still,conserved⟩ := ih (step_up up first) later
    refine ⟨still,?_⟩
    rw [trace,outputs,published_append,taken_append,List.map_append,List.append_assoc]
    calc s.waiting ++ (published (record s a) ++ published (trace handle (step handle s a) rest))
        = (taken (record s a)).map Prod.snd ++ ((step handle s a).waiting ++ published (trace handle (step handle s a) rest)) := by
          rw [← List.append_assoc,← all,moved,List.append_assoc]
      _ = _ := by rw [conserved]; rfl

/-- The message that is being handled does not raise. -/
def Phase.Quiet : Phase μ κ ε → Prop
  | .handling _ raised _ => raised = none
  | _ => True

theorem sent_mem {a : Action μ ι} {m : μ} (member : m ∈ sent (record s a)) : a = .publish m := by
  cases a with
  | publish n =>
    cases s with
    | listening waiting => exact congrArg _ (List.mem_singleton.mp member).symm
    | handling left raised waiting => exact congrArg _ (List.mem_singleton.mp member).symm
    | _ => cases member
  | take reading =>
    cases s with
    | listening waiting => cases waiting <;> cases member
    | _ => cases member
  | advance =>
    cases s with
    | handling left raised waiting => cases left <;> cases member
    | _ => cases member
  | _ => cases s <;> cases member

/-- What waits after a step has waited before or is published now. -/
theorem mem_step_waiting {a : Action μ ι} {m : μ} (member : m ∈ (step handle s a).waiting) : m ∈ s.waiting ∨ a = .publish m := by
  by_cases on : s.Up ∧ Stays s a
  · have among : m ∈ s.waiting ++ sent (record s a) := (step_conserved on.1 on.2).1 ▸ List.mem_append_right _ member
    exact (List.mem_append.mp among).imp id sent_mem
  · rw [(step_ended on).1] at member
    cases member

/-- A step of a subscription that is neither stopped nor cut, with no message under way that raises. -/
theorem stays_of_running {a : Action μ ι} (up : s.Up) (quiet : s.Quiet) (running : a ≠ .stop) (connected : a ≠ .failed) : Stays s a := by
  cases s with
  | handling left raised waiting =>
    cases a with
    | stop => exact running rfl
    | advance =>
      cases left with
      | cons k left => exact trivial
      | nil =>
        obtain rfl : raised = none := quiet
        exact trivial
    | _ => cases left <;> exact trivial
  | listening waiting =>
    cases a with
    | stop => exact running rfl
    | failed => exact connected rfl
    | _ => exact trivial
  | _ => exact up.elim

theorem step_quiet {a : Action μ ι} (quiet : s.Quiet) (waiting : ∀ m ∈ s.waiting, ∀ reading, (handle reading m).2 = none) :
    (step handle s a).Quiet := by
  cases s with
  | handling left raised queue =>
    cases a with
    | stop => exact trivial
    | advance =>
      cases left with
      | cons k left => exact quiet
      | nil =>
        obtain rfl : raised = none := quiet
        exact trivial
    | _ => cases left <;> exact quiet
  | listening queue =>
    cases a with
    | take reading =>
      cases queue with
      | nil => exact trivial
      | cons m queue => exact waiting m (List.mem_cons_self ..) reading
    | _ => exact trivial
  | _ => cases a <;> exact trivial

/-- While nobody stops the listener, the connection does not fail, and nothing that waits or is
    published raises, the subscription stays up. -/
theorem stays_of_quiet {actions : List (Action μ ι)} (up : s.Up) (quiet : s.Quiet)
    (waiting : ∀ m ∈ s.waiting, ∀ reading, (handle reading m).2 = none)
    (calm : ∀ a ∈ actions, a ≠ .stop ∧ a ≠ .failed ∧ ∀ m, a = .publish m → ∀ reading, (handle reading m).2 = none) :
    Each (step handle) Stays s actions := by
  induction actions generalizing s with
  | nil => exact each_nil
  | cons a rest ih =>
    obtain ⟨⟨running,connected,published⟩,later⟩ := List.forall_mem_cons.mp calm
    have stays := stays_of_running up quiet running connected
    refine (each_cons a rest).mpr ⟨stays,ih (step_up up stays) (step_quiet quiet waiting) ?_ later⟩
    intro m member
    rcases mem_step_waiting member with old | new
    · exact waiting m old
    · exact published m new

/-! ### What is put out -/

theorem step_left {a : Action μ ι} (completes : Completes s a) :
    s.left ++ (taken (record s a)).flatMap (fun t => (handle t.1 t.2).1) = put (record s a) ++ (step handle s a).left := by
  cases s with
  | listening waiting =>
    cases a with
    | take reading =>
      cases waiting with
      | nil => rfl
      | cons m waiting => exact List.append_nil _
    | _ => rfl
  | handling left raised waiting =>
    cases a with
    | stop =>
      cases left with
      | nil => rfl
      | cons k left => exact completes.elim
    | advance =>
      cases left with
      | cons k left => exact List.append_nil _
      | nil => cases raised <;> rfl
    | _ => exact List.append_nil _
  | _ => cases a <;> rfl

/-- What is left after a step was left before it, or a message that waited calls for it. -/
theorem mem_step_left {a : Action μ ι} {k : κ} (member : k ∈ (step handle s a).left) :
    k ∈ s.left ∨ ∃ m ∈ s.waiting, ∃ reading, k ∈ (handle reading m).1 := by
  cases s with
  | listening waiting =>
    cases a with
    | take reading =>
      cases waiting with
      | nil => cases member
      | cons m waiting => exact .inr ⟨m,List.mem_cons_self ..,reading,member⟩
    | _ => cases member
  | handling left raised waiting =>
    cases a with
    | stop => cases member
    | advance =>
      cases left with
      | cons k left => exact .inl (List.mem_cons_of_mem _ member)
      | nil => cases raised <;> cases member
    | _ => cases left <;> exact .inl member
  | _ => cases a <;> cases member

/-- What is put out is, message by message, what the messages taken call for, if the listener is
    not stopped in the middle of one. -/
theorem put_answers {actions : List (Action μ ι)} (completes : Each (step handle) Completes s actions) :
    s.left ++ (taken (trace handle s actions)).flatMap (fun t => (handle t.1 t.2).1) =
      put (trace handle s actions) ++ (run handle s actions).left := by
  induction actions generalizing s with
  | nil => exact List.append_nil _
  | cons a rest ih =>
    obtain ⟨first,later⟩ := (each_cons a rest).mp completes
    have one := @step_left _ _ _ _ handle s a first
    have more := ih later
    rw [trace,outputs,taken_append,List.flatMap_append,put_append,← List.append_assoc,one,List.append_assoc]
    change put (record s a) ++ ((step handle s a).left ++ (taken (trace handle (step handle s a) rest)).flatMap _) = _
    rw [more,List.append_assoc]
    rfl

theorem step_left_sublist (s : Phase μ κ ε) (a : Action μ ι) : (put (record s a) ++ (step handle s a).left).Sublist
    (s.left ++ (taken (record s a)).flatMap (fun t => (handle t.1 t.2).1)) := by
  by_cases completes : Completes s a
  · rw [step_left completes]
  · -- the rest of the message is dropped
    cases s with
    | handling left raised waiting =>
      cases a with
      | stop => exact List.nil_sublist _
      | _ => cases left <;> exact absurd trivial completes
    | _ => cases a <;> exact absurd trivial completes

/-- Wherever the listener is stopped, what is put out is among what the messages taken call for, in that order. -/
theorem put_sublist (s : Phase μ κ ε) (actions : List (Action μ ι)) :
    (put (trace handle s actions) ++ (run handle s actions).left).Sublist
      (s.left ++ (taken (trace handle s actions)).flatMap (fun t => (handle t.1 t.2).1)) := by
  induction actions generalizing s with
  | nil =>
    show ([] ++ s.left).Sublist (s.left ++ [])
    rw [List.nil_append,List.append_nil]
  | cons a rest ih =>
    have one := @step_left_sublist _ _ _ _ handle s a
    have more := ih (step handle s a)
    rw [trace,outputs,taken_append,List.flatMap_append,put_append,← List.append_assoc,List.append_assoc]
    refine ((List.append_sublist_append_left _).mpr more).trans ?_
    rw [← List.append_assoc]
    exact (List.append_sublist_append_right _).mpr one

/-- Whatever is put out is called for by a message that was taken before. -/
theorem put_mem {actions : List (Action μ ι)} {k : κ} (out : k ∈ put (trace handle (.stopped : Phase μ κ ε) actions)) :
    ∃ t ∈ taken (trace handle (.stopped : Phase μ κ ε) actions), k ∈ (handle t.1 t.2).1 :=
  List.mem_flatMap.mp ((put_sublist .stopped actions).subset (List.mem_append_left _ out))

/-! ### Encoded messages -/

end

section
variable {μ μ' κ κ' ε ε' ι : Type*}

def Phase.encode (f : μ → μ') (g : κ → κ') (h : ε → ε') : Phase μ κ ε → Phase μ' κ' ε'
  | .stopped => .stopped
  | .subscribing => .subscribing
  | .listening waiting => .listening (waiting.map f)
  | .handling left raised waiting => .handling (left.map g) (raised.map h) (waiting.map f)
  | .pausing => .pausing
def Action.encode (f : μ → μ') : Action μ ι → Action μ' ι
  | .start => .start
  | .stop => .stop
  | .subscribed => .subscribed
  | .failed => .failed
  | .publish m => .publish (f m)
  | .take reading => .take reading
  | .advance => .advance
  | .wake => .wake

variable {f : μ → μ'} {g : κ → κ'} {h : ε → ε'} {handle : ι → μ → List κ × Option ε} {handle' : ι → μ' → List κ' × Option ε'}

/-- A listener that handles encoded messages as another handles the messages goes through the
    encodings of the phases of the other and puts out the encodings of what it puts out. -/
theorem step_encode (s : Phase μ κ ε) (a : Action μ ι)
    (agree : ∀ m ∈ s.waiting, ∀ reading, handle' reading (f m) = ((handle reading m).1.map g,(handle reading m).2.map h)) :
    step handle' (s.encode f g h) (a.encode f) = (step handle s a).encode f g h ∧
      put (record (s.encode f g h) (a.encode f)) = (put (record s a)).map g := by
  cases s with
  | listening waiting =>
    cases a with
    | publish m => exact ⟨by simp [step,Phase.encode,Action.encode],rfl⟩
    | take reading =>
      cases waiting with
      | nil => exact ⟨rfl,rfl⟩
      | cons m waiting =>
        have same := agree m (List.mem_cons_self ..) reading
        exact ⟨by simp [step,Phase.encode,Action.encode,same],rfl⟩
    | _ => exact ⟨rfl,rfl⟩
  | handling left raised waiting =>
    cases a with
    | publish m => exact ⟨by simp [step,Phase.encode,Action.encode],by cases left <;> rfl⟩
    | advance =>
      cases left with
      | cons k left => exact ⟨rfl,rfl⟩
      | nil => cases raised <;> exact ⟨rfl,rfl⟩
    | _ => exact ⟨by cases left <;> rfl,by cases left <;> rfl⟩
  | _ => cases a <;> exact ⟨rfl,rfl⟩

end
end FundingRadar.Subscriptions
