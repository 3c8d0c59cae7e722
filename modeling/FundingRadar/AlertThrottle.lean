import FundingRadar.AlertDelivery
import FundingRadar.Lease
import FundingRadar.Runs

/-!
The throttle keys of any number of `_maybe_alert` calls, in any processes, on one Redis. A
call sets the key of its user and token where it is free, tries to deliver, and deletes the
key after a failure, without asking whose it is. That is what clients of a `Lease` do
(`lease_step`); calls that end before their key expires therefore never delete another
call's key, and deliver for one user and token at times apart (`throttle_safe`).
-/
namespace FundingRadar
open NotificationService Runs

namespace AlertThrottle

/-- Where a `_maybe_alert` stands; from `acquired` on, with the time at which it set the key. -/
inductive Stage
  | waiting
  | acquired (since : ℚ)
  /-- The sender has reported a failure, and the key is yet to be deleted. -/
  | failed (since : ℚ)
  | delivered (since : ℚ)
  | ended
deriving DecidableEq

structure Call where
  rule : LoadedRule
  opportunity : Json
  stage : Stage

/-- `notif:throttle:{user_id}:{token}`. -/
def throttleKey (rule : LoadedRule) : String := "notif:throttle:" ++ toString rule.userId ++ ":" ++ rule.token

/-- `_THROTTLE_TTL`, in seconds. -/
def throttleTtl : ℚ := 1800
/-- A key with this time to live has not expired. -/
def Live (set now : ℚ) : Prop := now ≤ set + throttleTtl
instance (set now : ℚ) : Decidable (Live set now) := inferInstanceAs (Decidable (_ ≤ _))

inductive Action
  | elapse (later : ℚ)
  /-- `_process_rules` starts a call, in whichever process. -/
  | call (i : ℕ) (rule : LoadedRule) (opportunity : Json)
  | set (i : ℕ)
  | alert (i : ℕ) (replies : AlertReplies)
  | delete (i : ℕ)

end AlertThrottle
open AlertThrottle

/-- The clock of Redis, the throttle keys with the call that set them and when, and the calls. -/
structure AlertThrottle where
  now : ℚ
  throttles : Dict String (ℕ × ℚ)
  calls : Dict ℕ Call

namespace AlertThrottle

def start (now : ℚ) : AlertThrottle := ⟨now,.empty,.empty⟩

variable (text : Texts) (s : AlertThrottle)

/-- `SET … NX` finds the key. -/
def Held (key : String) : Prop := ∃ e ∈ s.throttles.get? key, Live e.2 s.now
instance (key : String) : Decidable (s.Held key) := inferInstanceAs (Decidable (∃ e ∈ s.throttles.get? key, Live e.2 s.now))

/-- What an alert that has its key comes to: the report of the sender, or what was raised. -/
def report (call : Call) (replies : AlertReplies) : Except AlertError Bool := do
  let _ ← prepareAlert text call.rule call.opportunity replies
  replies.send

def move (i : ℕ) (call : Call) (stage : Stage) : AlertThrottle :=
  { s with calls := s.calls.insert i { call with stage := stage } }

/-- `_maybe_alert` of a call, to its next await that concerns the throttle key. -/
def step : Action → AlertThrottle
  | .elapse later => { s with now := max s.now later }
  | .call i rule opportunity =>
    match s.calls.get? i with
    | none => { s with calls := s.calls.insert i ⟨rule,opportunity,.waiting⟩ }
    | some _ => s
  | .set i =>
    match s.calls.get? i with
    | none => s
    | some call =>
      match call.stage with
      | .waiting =>
        if s.Held (throttleKey call.rule) then s.move i call .ended
        else { s.move i call (.acquired s.now) with throttles := s.throttles.insert (throttleKey call.rule) (i,s.now) }
      | _ => s
  | .alert i replies =>
    match s.calls.get? i with
    | none => s
    | some call =>
      match call.stage with
      | .acquired since =>
        match report text call replies with
        | .ok true => s.move i call (.delivered since)
        | .ok false => s.move i call (.failed since)
        | .error _ => s.move i call .ended
      | _ => s
  | .delete i =>
    match s.calls.get? i with
    | none => s
    | some call =>
      match call.stage with
      | .failed _ => { s.move i call .ended with throttles := s.throttles.erase (throttleKey call.rule) }
      | _ => s

/-- The call that an action takes further once it has its key. -/
def Action.caller : Action → Option ℕ
  | .alert i _ => some i
  | .delete i => some i
  | _ => none
/-- When the key was set that a call has. -/
def Stage.acting : Stage → Option ℚ
  | .acquired since => some since
  | .failed since => some since
  | _ => none

/-- A call that has the key takes its steps within the time to live. -/
def InTime (a : Action) : Prop :=
  ∀ i ∈ a.caller, ∀ call ∈ s.calls.get? i, ∀ since ∈ call.stage.acting, Live since s.now
instance (a : Action) : Decidable (s.InTime a) :=
  inferInstanceAs (Decidable (∀ i ∈ a.caller, ∀ call ∈ s.calls.get? i, ∀ since ∈ call.stage.acting, Live since s.now))

/-- The actions of one call, from its start to its end. -/
def solo (i : ℕ) (rule : LoadedRule) (opportunity : Json) (replies : AlertReplies) : List Action :=
  [.call i rule opportunity,.set i,.alert i replies,.delete i]

/-- A report decides how the call ends. -/
theorem report_cases (text : Texts) (call : Call) (r : AlertReplies) :
    (∃ e, report text call r = .error e ∧ (maybeAlertEnd text false call.rule call.opportunity r).held = true ∧
      (maybeAlertEnd text false call.rule call.opportunity r).delivered = false) ∨
    (report text call r = .ok true ∧ (maybeAlertEnd text false call.rule call.opportunity r).held = true ∧
      (maybeAlertEnd text false call.rule call.opportunity r).delivered = true) ∨
    (report text call r = .ok false ∧ (maybeAlertEnd text false call.rule call.opportunity r).held = !r.deleted ∧
      (maybeAlertEnd text false call.rule call.opportunity r).delivered = false) := by
  simp only [report,maybeAlertEnd]
  cases prepareAlert text call.rule call.opportunity r with
  | error e => exact .inl ⟨e,rfl,rfl,rfl⟩
  | ok msg =>
    cases sent : r.send with
    | error e => exact .inl ⟨e,rfl,rfl,rfl⟩
    | ok delivered =>
      cases delivered with
      | true => exact .inr (.inl ⟨rfl,rfl,rfl⟩)
      | false => exact .inr (.inr ⟨rfl,rfl,rfl⟩)

/-- A call that no other one meets ends as `maybeAlertEnd` says. -/
theorem solo_end (text : Texts) (s : AlertThrottle) {i : ℕ} (absent : s.calls.get? i = none) {rule : LoadedRule}
    (free : ¬s.Held (throttleKey rule)) (opportunity : Json) {r : AlertReplies} (reached : r.deleted = true) :
    let after := (solo i rule opportunity r).foldl (step text) s
    ((after.throttles.get? (throttleKey rule)).isSome = (maybeAlertEnd text false rule opportunity r).held) ∧
      ((after.calls.get? i).any (fun call => call.stage = .delivered s.now) =
        (maybeAlertEnd text false rule opportunity r).delivered) := by
  have free' : ¬(Held ⟨s.now,s.throttles,s.calls.insert i ⟨rule,opportunity,.waiting⟩⟩ (throttleKey rule)) := free
  simp only [solo,List.foldl_cons,List.foldl_nil,step,absent,Dict.get?_insert_self,free',if_false,move]
  rcases report_cases text ⟨rule,opportunity,.acquired s.now⟩ r with
    ⟨e,reported,held,delivered⟩ | ⟨reported,held,delivered⟩ | ⟨reported,held,delivered⟩
  · simp [reported,held,delivered]
  · simp [reported,held,delivered]
  · simp [reported,held,delivered,reached,Dict.get?_erase]

/-! ### The calls are clients of a lease -/

def Stage.phase : Stage → Lease.Phase ℚ
  | .waiting => .waiting
  | .acquired since => .holding since
  | .failed since => .leaving since
  | .delivered since => .kept since
  | .ended => .ended

def lease : Lease.Table String ℕ ℚ where
  now := s.now
  keys := s.throttles.get?
  clients := fun i => (s.calls.get? i).map (fun call => (throttleKey call.rule,call.stage.phase))

/-- What an action does to the lease. -/
def Action.op : Action → Lease.Op String ℕ ℚ
  | .elapse later => .elapse later
  | .call i rule _ => .enter i (throttleKey rule)
  | .set i => .acquire i
  | .alert i replies =>
    match (s.calls.get? i).map (fun call => report text call replies) with
    | some (.ok true) => .keep i
    | some (.ok false) => .leave i
    | _ => .abandon i
  | .delete i => .delete i

variable {text s}

theorem lease_move (i : ℕ) (call : Call) (stage : Stage) :
    (s.move i call stage).lease = s.lease.move i (throttleKey call.rule) stage.phase := by
  simp only [lease,move,Lease.Table.move,Lease.Table.mk.injEq,true_and]
  funext j
  rw [Dict.get?_insert,Function.update_apply]
  split
  · rfl
  · rfl

theorem lease_clients {i : ℕ} {call : Call} (found : s.calls.get? i = some call) :
    s.lease.clients i = some (throttleKey call.rule,call.stage.phase) := by
  simp only [lease,found,Option.map_some]
theorem lease_clients_of_absent {i : ℕ} (absent : s.calls.get? i = none) : s.lease.clients i = none := by
  simp only [lease,absent,Option.map_none]

/-- Every action does to the calls and the keys what clients do to a lease. -/
theorem lease_step (a : Action) : (s.step text a).lease = Lease.apply Live s.lease (a.op text s) := by
  cases a with
  | elapse later => rfl
  | call i rule opportunity =>
    cases found : s.calls.get? i with
    | none =>
      simp only [step,Action.op,Lease.apply,found,lease_clients_of_absent found]
      exact lease_move i ⟨rule,opportunity,.waiting⟩ .waiting
    | some call => simp only [step,Action.op,Lease.apply,found,lease_clients found]
  | set i =>
    cases found : s.calls.get? i with
    | none => simp only [step,Action.op,Lease.apply,found,lease_clients_of_absent found]
    | some call =>
      simp only [step,Action.op,Lease.apply,found,lease_clients found]
      cases stage : call.stage with
      | waiting =>
        have same : s.lease.Held Live (throttleKey call.rule) ↔ s.Held (throttleKey call.rule) := Iff.rfl
        by_cases held : s.Held (throttleKey call.rule)
        · simp only [Stage.phase,held,same,if_true]
          exact lease_move i call .ended
        · simp only [Stage.phase,held,same,if_false]
          have moved := congrArg Lease.Table.clients (lease_move (s := s) i call (.acquired s.now))
          rw [Lease.Table.mk.injEq]
          exact ⟨rfl,Dict.get?_insert_eq_update _ _ _,moved⟩
      | _ => rfl
  | alert i replies =>
    cases found : s.calls.get? i with
    | none => simp only [step,Action.op,Lease.apply,found,Option.map_none,lease_clients_of_absent found]
    | some call =>
      simp only [step,Action.op,found,Option.map_some]
      cases reported : report text call replies with
      | error e =>
        simp only [Lease.apply,lease_clients found]
        cases stage : call.stage with
        | acquired since => exact lease_move i call .ended
        | _ => rfl
      | ok delivered =>
        cases delivered with
        | true =>
          simp only [Lease.apply,lease_clients found]
          cases stage : call.stage with
          | acquired since => exact lease_move i call (.delivered since)
          | _ => rfl
        | false =>
          simp only [Lease.apply,lease_clients found]
          cases stage : call.stage with
          | acquired since => exact lease_move i call (.failed since)
          | _ => rfl
  | delete i =>
    cases found : s.calls.get? i with
    | none => simp only [step,Action.op,Lease.apply,found,lease_clients_of_absent found]
    | some call =>
      simp only [step,Action.op,Lease.apply,found,lease_clients found]
      cases stage : call.stage with
      | failed since =>
        simp only [Stage.phase]
        have moved := congrArg Lease.Table.clients (lease_move (s := s) i call .ended)
        rw [Lease.Table.mk.injEq]
        exact ⟨rfl,Dict.get?_erase_eq_update _ _,moved⟩
      | _ => rfl

theorem lease_inTime {a : Action} (inTime : s.InTime a) : Lease.InTime Live s.lease (a.op text s) := by
  intro i actor k p t client acts since
  have caller : i ∈ a.caller := by
    cases a with
    | alert j replies =>
      simp only [Action.op] at actor
      split at actor <;> exact actor
    | delete j => exact actor
    | _ => cases actor
  obtain ⟨call,found,same⟩ := Option.map_eq_some_iff.mp client
  cases same
  refine inTime i caller call found t ?_
  cases stage : call.stage with
  | acquired u => rw [stage] at since; exact since
  | failed u => rw [stage] at since; exact since
  | _ => rw [stage] at acts; cases acts

theorem live_mono (set a b : ℚ) (le : a ≤ b) (live : Live set b) : Live set a := le.trans live

theorem lease_inv {now : ℚ} {actions : List Action} (inTime : Each (step text) InTime (start now) actions) :
    Throughout (step text) (fun s => Lease.Inv Live s.lease) (start now) actions := by
  have initial : Lease.Inv Live (start now).lease := Lease.inv_start now _
  have keeps : ∀ (s : AlertThrottle) a, Lease.Inv Live s.lease → s.InTime a → Lease.Inv Live (s.step text a).lease := by
    intro s a inv inTime
    rw [lease_step]
    exact inv.step live_mono (lease_inTime inTime)
  exact kept_of_conditions keeps initial inTime

/-! ### Throttling -/

/-- Calls that delivered for one user and token set the key apart from each other. -/
def Apart (s : AlertThrottle) : Prop :=
  ∀ i j a b t u, i ≠ j → s.calls.get? i = some a → s.calls.get? j = some b → a.rule.userId = b.rule.userId →
    a.rule.token = b.rule.token → a.stage = .delivered t → b.stage = .delivered u → throttleTtl ≤ |t - u|

/-- What an action does to the throttle keys and to the calls whose send failed. -/
structure Disciplined (text : Texts) (s : AlertThrottle) (a : Action) : Prop where
  /-- A report of failure leaves the call with its key to delete. -/
  reported : ∀ i replies call t, a = .alert i replies → s.calls.get? i = some call → call.stage = .acquired t →
    report text call replies = .ok false → (s.step text a).calls.get? i = some { call with stage := .failed t }
  /-- Nothing else ends such a call. -/
  pending : ∀ i call t, s.calls.get? i = some call → call.stage = .failed t → a ≠ .delete i →
    (s.step text a).calls.get? i = some call
  /-- A call whose send failed ends with its key free. -/
  freed : ∀ i call t, a = .delete i → s.calls.get? i = some call → call.stage = .failed t →
    (s.step text a).throttles.get? (throttleKey call.rule) = none ∧
      (s.step text a).calls.get? i = some { call with stage := .ended }
  /-- A key that has not expired changes by the deletion of the call that set it alone. -/
  own : ∀ key i t, s.throttles.get? key = some (i,t) → Live t s.now → (s.step text a).throttles.get? key ≠ some (i,t) →
    a = .delete i ∧ ∃ call, s.calls.get? i = some call ∧ call.stage = .failed t ∧ throttleKey call.rule = key

theorem apart_of_inv (inv : Lease.Inv Live s.lease) : Apart s := by
  have ordered : ∀ i j a b t u, i ≠ j → s.calls.get? i = some a → s.calls.get? j = some b → a.rule.userId = b.rule.userId →
      a.rule.token = b.rule.token → a.stage = .delivered t → b.stage = .delivered u → t ≤ u → throttleTtl ≤ |t - u| := by
    intro i j a b t u different foundA foundB user token delivered delivered' le
    have key : throttleKey a.rule = throttleKey b.rule :=
      congrArg₂ (fun userId token => "notif:throttle:" ++ toString userId ++ ":" ++ token) user token
    have lapsed := inv.apart i j (throttleKey b.rule) a.stage.phase b.stage.phase t u different
      (key ▸ lease_clients foundA) (lease_clients foundB) (by rw [delivered]; rfl) (by rw [delivered']; rfl) le
    have late : t + throttleTtl < u := not_le.mp lapsed
    calc throttleTtl ≤ u - t := by linarith
      _ ≤ |u - t| := le_abs_self _
      _ = |t - u| := abs_sub_comm u t
  intro i j a b t u different foundA foundB user token delivered delivered'
  rcases le_total t u with le | le
  · exact ordered i j a b t u different foundA foundB user token delivered delivered' le
  · have swapped := ordered j i b a u t different.symm foundB foundA user.symm token.symm delivered' delivered le
    exact swapped.trans_eq (abs_sub_comm u t)

theorem get?_move_self (i : ℕ) (call : Call) (stage : Stage) :
    (s.move i call stage).calls.get? i = some { call with stage := stage } := Dict.get?_insert_self ..
theorem get?_move_of_ne {i j : ℕ} (other : i ≠ j) (call : Call) (stage : Stage) :
    (s.move j call stage).calls.get? i = s.calls.get? i := by
  rw [move,Dict.get?_insert,if_neg other]

theorem ne_of_stage {i j : ℕ} {call other : Call} (found : s.calls.get? i = some call) (present : s.calls.get? j = some other)
    (differs : call.stage ≠ other.stage) : i ≠ j := by
  rintro rfl
  cases found.symm.trans present
  exact differs rfl

/-- A call whose send failed is left alone until it deletes its key. -/
theorem step_failed {i : ℕ} {call : Call} (found : s.calls.get? i = some call) {t : ℚ} (failed : call.stage = .failed t) {a : Action}
    (stays : a ≠ .delete i) : (s.step text a).calls.get? i = some call := by
  cases a with
  | elapse later => exact found
  | call j rule opportunity =>
    cases present : s.calls.get? j with
    | none =>
      have other : i ≠ j := by
        rintro rfl
        rw [found] at present
        cases present
      simp only [step,present]
      rw [Dict.get?_insert,if_neg other,found]
    | some called =>
      simp only [step,present]
      exact found
  | set j =>
    cases present : s.calls.get? j with
    | none =>
      simp only [step,present]
      exact found
    | some other =>
      simp only [step,present]
      cases stage : other.stage with
      | waiting =>
        have differs : i ≠ j := ne_of_stage found present (by rw [failed,stage]; exact Stage.noConfusion)
        dsimp only
        split
        · exact (get?_move_of_ne differs ..).trans found
        · exact (get?_move_of_ne differs ..).trans found
      | _ => exact found
  | alert j replies =>
    cases present : s.calls.get? j with
    | none =>
      simp only [step,present]
      exact found
    | some other =>
      simp only [step,present]
      cases stage : other.stage with
      | acquired since =>
        have differs : i ≠ j := ne_of_stage found present (by rw [failed,stage]; exact Stage.noConfusion)
        dsimp only
        split
        · exact (get?_move_of_ne differs ..).trans found
        · exact (get?_move_of_ne differs ..).trans found
        · exact (get?_move_of_ne differs ..).trans found
      | _ => exact found
  | delete j =>
    have differs : i ≠ j := by
      rintro rfl
      exact stays rfl
    cases present : s.calls.get? j with
    | none =>
      simp only [step,present]
      exact found
    | some other =>
      simp only [step,present]
      cases stage : other.stage with
      | failed since => exact (get?_move_of_ne differs ..).trans found
      | _ => exact found

theorem disciplined_of_inv (inv : Lease.Inv Live s.lease) {a : Action} (inTime : s.InTime a) : Disciplined text s a where
  reported := by
    rintro i replies call t rfl found acquired failure
    simp only [step,found,acquired,failure]
    exact get?_move_self ..
  pending := fun i call t found failed stays => step_failed found failed stays
  freed := by
    rintro i call t rfl found failed
    simp only [step,found,failed]
    refine ⟨?_,get?_move_self ..⟩
    rw [Dict.get?_erase,if_pos rfl]
  own := by
    intro key i t found live changes
    have unlike : (Lease.apply Live s.lease (a.op text s)).keys key ≠ some (i,t) := by
      rw [← lease_step]
      exact changes
    obtain ⟨isDelete,client⟩ := inv.key_changes (lease_inTime inTime) found live unlike
    have action : a = .delete i := by
      cases a with
      | delete j =>
        cases isDelete
        rfl
      | alert j replies =>
        simp only [Action.op] at isDelete
        split at isDelete <;> cases isDelete
      | _ => cases isDelete
    obtain ⟨call,present,same⟩ := Option.map_eq_some_iff.mp client
    refine ⟨action,call,present,?_,congrArg Prod.fst same⟩
    have phase := congrArg Prod.snd same
    cases stage : call.stage with
    | failed u =>
      rw [stage] at phase
      cases phase
      rfl
    | _ => rw [stage] at phase; cases phase

/-- However calls that end within the time to live are interleaved, those that deliver for one
    user and token set the throttle key at least the time to live apart, and a call whose send
    failed ends only by leaving the key free, without ever releasing the key of another call. -/
theorem throttle_safe (text : Texts) (now : ℚ) (actions : List Action)
    (inTime : Each (step text) InTime (start now) actions) :
    Throughout (step text) Apart (start now) actions ∧ Each (step text) (Disciplined text) (start now) actions := by
  have inv := lease_inv inTime
  constructor
  · intro before within
    exact apart_of_inv (inv before within)
  · intro before a after split
    exact disciplined_of_inv (inv before ⟨a :: after,split.symm⟩) (inTime before a after split)

/-- Redis has no windows cached, the database has none, and the sender makes a report. -/
def reporting (delivered : Bool) : AlertReplies where
  longWindows := fun _ => ⟨.ok none,none,.ok ()⟩
  shortWindows := fun _ => ⟨.ok none,none,.ok ()⟩
  ts := ""
  send := .ok delivered
  deleted := true

/-- A send that fails, one that succeeds in the next cycle while another call finds the key
    held, and one after the key has expired. -/
def throttledRun : List Action :=
  let call := fun i => [Action.call i ⟨1,1,"BTC",10,[],"42"⟩ publishedOpportunity,.set i]
  call 0 ++ [.elapse 2,.alert 0 (reporting false),.delete 0,.elapse 30] ++ call 1 ++ call 2 ++ [.elapse 31,.alert 1 (reporting true)] ++
    [.elapse 1900] ++ call 3 ++ [.alert 3 (reporting true)]

theorem throttledRun_safe :
    (throttledRun.foldl (step plainTexts) (start 0)).calls.values.map Call.stage =
      [.ended,.delivered 30,.ended,.delivered 1900] ∧
    Throughout (step plainTexts) Apart (start 0) throttledRun ∧
      Each (step plainTexts) (Disciplined plainTexts) (start 0) throttledRun := by
  refine ⟨by decide +kernel,throttle_safe plainTexts 0 throttledRun ?_⟩
  simp only [throttledRun,List.cons_append,List.nil_append,each_cons]
  refine ⟨?_,?_,?_,?_,?_,?_,?_,?_,?_,?_,?_,?_,?_,?_,?_,?_,each_nil⟩ <;> decide +kernel

end AlertThrottle
end FundingRadar
