import Mathlib.Data.List.Dedup
import FundingRadar.RegistryCalls
import FundingRadar.Runs

/-!
`WebSocketManager.broadcast`, any number of times between the calls of the clients. A
broadcast takes its snapshot, marks the connections it sends to and starts the sends without
being suspended; it is suspended in the `gather` and before every `disconnect` after it.
Every connection is therefore sent to at times its throttle apart, by whichever broadcast,
and what a broadcast removes is what its own sends have raised for (`broadcasts_isolated`).
-/
namespace FundingRadar
open Runs

/-- `_THROTTLE_SECONDS.get(tier, 60.0)`. -/
def throttleSeconds : String → ℚ
  | "anonymous" => 60
  | "free" => 60
  | "pro" => 10
  | "custom" => 1
  | _ => 60

inductive SendResult
  | sent
  | raised
deriving DecidableEq

/-- `_safe_send`, given whether the socket is connected and how `send_text` ends. -/
def safeSend (connected : Bool) (sendText : SendResult) : SendResult := if connected then sendText else .raised

/-- A `broadcast` that has started its sends: what `gather` returns of them, and how many of
    the dead connections it has disconnected. -/
structure Broadcast (κ : Type) where
  channel : String
  text : String
  now : ℚ
  sends : List κ
  results : Option (List SendResult)
  cleaned : ℕ

namespace Broadcast
variable {κ : Type} (b : Broadcast κ)

/-- The list `dead`, by position in the results. -/
def dead : List κ := (b.sends.zip (b.results.getD [])).filterMap (fun e => if e.2 = SendResult.raised then some e.1 else none)
/-- The connection that the loop over `dead` disconnects next. -/
def next : Option κ := b.dead[b.cleaned]?

/-- The send to the connection raised. -/
def Raised (info : κ) : Prop :=
  ∃ (results : List SendResult) (k : ℕ), b.results = some results ∧ b.sends[k]? = some info ∧ results[k]? = some .raised

end Broadcast

/-- The registry with `last_sent` of every connection, and the broadcasts in the order in which
    they started their sends. -/
structure Broadcasts (κ ω : Type) where
  manager : WebSocketManager κ ω
  lastSent : κ → Dict String ℚ
  running : List (Broadcast κ)

/-- The start of a send. -/
structure Send (κ : Type) where
  broadcast : ℕ
  info : κ
  channel : String
  text : String
  now : ℚ

namespace Broadcasts

/-- What is done without being suspended. -/
inductive Action (κ : Type)
  /-- `broadcast` up to its `gather`. The snapshot is iterated in the order of `order`. -/
  | broadcast (channel text : String) (now : ℚ) (order : List κ)
  /-- `gather` returns to the broadcast `i`. -/
  | gathered (i : ℕ) (outcomes : List (Bool × SendResult))
  /-- The broadcast `i` disconnects the next connection. -/
  | clean (i : ℕ)
  | subscribe (info : κ) (channels : List String)
  | unsubscribe (info : κ) (channels : List String)
  | disconnect (info : κ)

/-- A call of the client itself. -/
def Action.Own {κ : Type} (info : κ) : Action κ → Prop
  | .subscribe other _ => other = info
  | .unsubscribe other _ => other = info
  | .disconnect other => other = info
  | _ => False
def Action.Subscribes {κ : Type} (info : κ) : Action κ → Prop
  | .subscribe other _ => other = info
  | _ => False

section
variable {κ ω : Type} [DecidableEq κ] [DecidableEq ω] (ws : κ ↪ ω) (tier : κ → String)

/-- The members of a set in some order: those that `order` lists come last, as they last stand there. -/
def iterate (order set : List κ) : List κ := (set ++ order.filter (· ∈ set)).dedup

/-- The loop of a broadcast over its snapshot. -/
def startSends (channel : String) (now : ℚ) : (κ → Dict String ℚ) → List κ → (κ → Dict String ℚ) × List κ
  | lastSent,[] => (lastSent,[])
  | lastSent,info :: rest =>
    if now - ((lastSent info).get? channel).getD 0 < throttleSeconds (tier info) then startSends channel now lastSent rest
    else
      let (marked,sends) := startSends channel now (Function.update lastSent info ((lastSent info).insert channel now)) rest
      (marked,info :: sends)

variable (s : Broadcasts κ ω)

/-- `broadcast` up to its `gather`, which it does not reach without a send. -/
def broadcast (channel text : String) (now : ℚ) (order : List κ) : Broadcasts κ ω :=
  let (marked,sends) := startSends tier channel now s.lastSent (iterate order (s.manager.members channel))
  if sends = [] then s else { s with lastSent := marked, running := s.running ++ [⟨channel,text,now,sends,none,0⟩] }

/-- `gather` returns one result for each send. -/
def gathered (i : ℕ) (outcomes : List (Bool × SendResult)) : Broadcasts κ ω :=
  match s.running[i]? with
  | none => s
  | some b =>
    if b.results = none ∧ outcomes.length = b.sends.length
    then { s with running := s.running.set i { b with results := some (outcomes.map (fun o => safeSend o.1 o.2)) } }
    else s

/-- A round of the loop over `dead`. -/
def clean (i : ℕ) : Broadcasts κ ω :=
  match s.running[i]? with
  | none => s
  | some b =>
    match b.next with
    | none => s
    | some info =>
      { s with
        manager := (s.manager.disconnect ws .byIdentity info).1
        running := s.running.set i { b with cleaned := b.cleaned + 1 } }

def step : Action κ → Broadcasts κ ω
  | .broadcast channel text now order => s.broadcast tier channel text now order
  | .gathered i outcomes => s.gathered i outcomes
  | .clean i => s.clean ws i
  | .subscribe info channels => { s with manager := (s.manager.subscribe .byIdentity info channels).1 }
  | .unsubscribe info channels => { s with manager := (s.manager.unsubscribe .byIdentity info channels).1 }
  | .disconnect info => { s with manager := (s.manager.disconnect ws .byIdentity info).1 }

/-- The sends that an action starts. -/
def starts : Action κ → List (Send κ)
  | .broadcast channel text now order =>
    (startSends tier channel now s.lastSent (iterate order (s.manager.members channel))).2.map
      (fun info => ⟨s.running.length,info,channel,text,now⟩)
  | _ => []
/-- The connection that an action of a broadcast removes. -/
def removes : Action κ → List (ℕ × κ)
  | .clean i => ((s.running[i]?).bind Broadcast.next).toList.map (fun info => (i,info))
  | _ => []

def run (actions : List (Action κ)) : Broadcasts κ ω := actions.foldl (step ws tier) s
/-- All sends of a run, in the order in which they start. -/
def sends (actions : List (Action κ)) : List (Send κ) := outputs (step ws tier) (starts tier) s actions
/-- All connections that the broadcasts of a run remove. -/
def removals (actions : List (Action κ)) : List (ℕ × κ) := outputs (step ws tier) removes s actions

/-- Every member of a channel has the channel among its own, as where the index is mirrored. -/
def Indexed (m : WebSocketManager κ ω) : Prop := ∀ info ch, info ∈ m.members ch → ch ∈ m.clientChannels info
/-- The connection is in no set of the manager. -/
def Gone (info : κ) : Prop := s.manager.connections.get? (ws info) = none ∧ ∀ ch, info ∉ s.manager.members ch

/-- The registration and the channels of a connection are the same in another state. -/
structure Same (s s' : Broadcasts κ ω) (info : κ) : Prop where
  registered : s'.manager.connections.get? (ws info) = s.manager.connections.get? (ws info)
  members : ∀ ch, info ∈ s'.manager.members ch ↔ info ∈ s.manager.members ch
  channels : ∀ ch, ch ∈ s'.manager.clientChannels info ↔ ch ∈ s.manager.clientChannels info

/-- The throttle of the tier lies between two sends to one connection on one channel. -/
def Apart (a b : Send κ) : Prop := a.info = b.info → a.channel = b.channel → throttleSeconds (tier a.info) ≤ b.now - a.now

/-- A run throttles every connection on every channel alone, and its broadcasts remove the
    connections whose sends raise, and nothing else. -/
structure Isolated (actions : List (Action κ)) : Prop where
  spaced : (s.sends ws tier actions).Pairwise (Apart tier)
  since : ∀ send ∈ s.sends ws tier actions, ∀ last, (s.lastSent send.info).get? send.channel = some last →
    throttleSeconds (tier send.info) ≤ send.now - last
  /-- Whom a broadcast sends to. -/
  reached : ∀ before channel text now order after, actions = before ++ .broadcast channel text now order :: after →
    ∀ info, (∃ i, ⟨i,info,channel,text,now⟩ ∈ (s.run ws tier before).starts tier (.broadcast channel text now order)) ↔
      info ∈ (s.run ws tier before).manager.members channel ∧
        throttleSeconds (tier info) ≤ now - (((s.run ws tier before).lastSent info).get? channel).getD 0
  /-- The sends that a broadcast waits for are those that it started. -/
  started : ∀ i b, (s.run ws tier actions).running[i]? = some b →
    ∀ info, info ∈ b.sends ↔ ⟨i,info,b.channel,b.text,b.now⟩ ∈ s.sends ws tier actions
  /-- A broadcast removes nothing but what its sends have raised for, and all of it before it ends. -/
  raised : ∀ i info, (i,info) ∈ s.removals ws tier actions →
    ∃ b, (s.run ws tier actions).running[i]? = some b ∧ b.Raised info
  removed : ∀ i b, (s.run ws tier actions).running[i]? = some b → b.next = none →
    ∀ info, b.Raised info → (i,info) ∈ s.removals ws tier actions
  /-- What is removed is in no set until it subscribes again, and is never registered again. -/
  gone : ∀ before a after, actions = before ++ a :: after → ∀ i info, (i,info) ∈ (s.run ws tier before).removes a →
    (s.run ws tier actions).manager.connections.get? (ws info) = none ∧
      ((∀ other ∈ after, ¬ other.Subscribes info) → (s.run ws tier actions).Gone ws info)
  /-- A connection that is not removed meanwhile has what its own calls have left it. -/
  kept : ∀ before after, actions = before ++ after → ∀ info,
    (∀ i, (i,info) ∉ (s.run ws tier before).removals ws tier after) → (∀ a ∈ after, ¬ a.Own info) →
      Same ws (s.run ws tier before) (s.run ws tier actions) info
  stamped : ∀ before after, actions = before ++ after → ∀ info channel,
    (∀ send ∈ (s.run ws tier before).sends ws tier after, send.info = info → send.channel ≠ channel) →
      ((s.run ws tier actions).lastSent info).get? channel = ((s.run ws tier before).lastSent info).get? channel

end
end Broadcasts

namespace Broadcasts
open WebSocketManager
variable {κ ω : Type} {ws : κ ↪ ω} {tier : κ → String} {s : Broadcasts κ ω} {info : κ}

/-! ### Broadcasts that are under way -/

theorem throttleSeconds_pos (tier : String) : 0 < throttleSeconds tier := by
  unfold throttleSeconds
  split
  · norm_num
  · norm_num
  · norm_num
  · norm_num
  · norm_num

/-- The dead are those whose sends raised. -/
theorem mem_dead_iff {b : Broadcast κ} : info ∈ b.dead ↔ b.Raised info := by
  unfold Broadcast.dead Broadcast.Raised
  rw [List.mem_filterMap]
  cases b.results with
  | none =>
    rw [Option.getD_none,List.zip_nil_right]
    refine iff_of_false ?_ ?_
    · rintro ⟨e,impossible,-⟩
      cases impossible
    · rintro ⟨results,k,impossible,-⟩
      cases impossible
  | some results =>
    rw [Option.getD_some]
    constructor
    · rintro ⟨e,member,same⟩
      split at same
      · next raised =>
        cases same
        obtain ⟨k,at_⟩ := List.mem_iff_getElem?.mp member
        obtain ⟨send,result⟩ := List.getElem?_zip_eq_some.mp at_
        exact ⟨results,k,rfl,send,raised ▸ result⟩
      · cases same
    · rintro ⟨_,k,same,send,result⟩
      cases same
      have pair : (b.sends.zip results)[k]? = some (info,.raised) := List.getElem?_zip_eq_some.mpr ⟨send,result⟩
      exact ⟨_,List.mem_of_getElem? pair,if_pos rfl⟩

theorem gathered_cases (s : Broadcasts κ ω) (i : ℕ) (outcomes : List (Bool × SendResult)) :
    s.gathered i outcomes = s ∨ ∃ b results, s.running[i]? = some b ∧ b.results = none ∧
      s.gathered i outcomes = { s with running := s.running.set i { b with results := some results } } := by
  unfold gathered
  split
  · exact .inl rfl
  · next b found =>
    split
    · next waiting => exact .inr ⟨b,_,found,waiting.1,rfl⟩
    · exact .inl rfl

theorem gathered_manager (i : ℕ) (outcomes : List (Bool × SendResult)) : (s.gathered i outcomes).manager = s.manager := by
  rcases gathered_cases s i outcomes with same | ⟨b,results,-,-,same⟩
  · rw [same]
  · rw [same]

theorem getElem?_concat_cases {α : Type} {l : List α} {a b : α} {j : ℕ} (found : (l ++ [a])[j]? = some b) :
    l[j]? = some b ∨ j = l.length ∧ b = a := by
  rcases Nat.lt_or_ge j l.length with inside | outside
  · exact .inl (List.getElem?_append_left inside ▸ found)
  · rw [List.getElem?_append_right outside,List.getElem?_singleton] at found
    split at found
    · next first =>
      cases found
      exact .inr ⟨by omega,rfl⟩
    · cases found

theorem getElem?_set_cases {α : Type} {l : List α} {a b : α} {i j : ℕ} (found : (l.set i a)[j]? = some b) :
    j = i ∧ b = a ∨ j ≠ i ∧ l[j]? = some b := by
  rw [List.getElem?_set] at found
  split at found
  · next same =>
    split at found
    · cases found
      exact .inl ⟨same.symm,rfl⟩
    · cases found
  · next differ => exact .inr ⟨fun same => differ same.symm,found⟩

/-- The broadcasts are the same, however far they have come. -/
structure Continued (s s' : Broadcasts κ ω) : Prop where
  length : s'.running.length = s.running.length
  same : ∀ (i : ℕ) b', s'.running[i]? = some b' →
    ∃ b, s.running[i]? = some b ∧ b'.sends = b.sends ∧ b'.channel = b.channel ∧ b'.text = b.text ∧ b'.now = b.now

theorem continued_set {s' : Broadcasts κ ω} {i : ℕ} {b b' : Broadcast κ} (found : s.running[i]? = some b)
    (running : s'.running = s.running.set i b')
    (same : b'.sends = b.sends ∧ b'.channel = b.channel ∧ b'.text = b.text ∧ b'.now = b.now) : Continued s s' := by
  refine ⟨?_,?_⟩
  · rw [running,List.length_set]
  · intro j c reads
    rw [running] at reads
    rcases getElem?_set_cases reads with ⟨rfl,rfl⟩ | ⟨-,before⟩
    · exact ⟨b,found,same⟩
    · exact ⟨c,before,rfl,rfl,rfl,rfl⟩

theorem continued_of_running {s' : Broadcasts κ ω} (running : s'.running = s.running) : Continued s s' :=
  ⟨congrArg List.length running,fun _ b' reads => ⟨b',running ▸ reads,rfl,rfl,rfl,rfl⟩⟩

/-- The broadcasts wait for the sends that they have started. -/
structure Started (sent : List (Send κ)) (s : Broadcasts κ ω) : Prop where
  known : ∀ send ∈ sent, send.broadcast < s.running.length
  started : ∀ i b, s.running[i]? = some b → ∀ info, info ∈ b.sends ↔ ⟨i,info,b.channel,b.text,b.now⟩ ∈ sent

/-- The broadcasts have removed the dead connections that they have counted. -/
structure Cleaned (removed : List (ℕ × κ)) (s : Broadcasts κ ω) : Prop where
  known : ∀ e ∈ removed, e.1 < s.running.length
  waiting : ∀ (i : ℕ) b, s.running[i]? = some b → b.results = none → b.cleaned = 0
  cleaned : ∀ i b, s.running[i]? = some b → ∀ info, (i,info) ∈ removed ↔ info ∈ b.dead.take b.cleaned

/-- A broadcast removes some more and has counted them. -/
theorem Cleaned.set {removed more : List (ℕ × κ)} (cleaned : Cleaned removed s) {s' : Broadcasts κ ω} {i : ℕ}
    {b b' : Broadcast κ} (found : s.running[i]? = some b) (running : s'.running = s.running.set i b') (mine : ∀ e ∈ more, e.1 = i)
    (waiting : b'.results = none → b'.cleaned = 0)
    (counted : ∀ info, info ∈ b'.dead.take b'.cleaned ↔ info ∈ b.dead.take b.cleaned ∨ (i,info) ∈ more) :
    Cleaned (removed ++ more) s' := by
  have inside : i < s.running.length := (List.getElem?_eq_some_iff.mp found).1
  refine ⟨?_,?_,?_⟩
  · intro e member
    rw [running,List.length_set]
    rcases List.mem_append.mp member with before | new
    · exact cleaned.known e before
    · rw [mine e new]
      exact inside
  · intro j c reads none
    rw [running] at reads
    rcases getElem?_set_cases reads with ⟨rfl,rfl⟩ | ⟨-,before⟩
    · exact waiting none
    · exact cleaned.waiting j c before none
  · intro j c reads info
    rw [running] at reads
    rw [List.mem_append]
    rcases getElem?_set_cases reads with ⟨rfl,rfl⟩ | ⟨differ,before⟩
    · rw [counted,cleaned.cleaned j b found]
    · rw [or_iff_left (fun new => differ (mine _ new))]
      exact cleaned.cleaned j c before info

/-- A new broadcast has removed nobody. -/
theorem Cleaned.concat {removed : List (ℕ × κ)} (cleaned : Cleaned removed s) {s' : Broadcasts κ ω} {b : Broadcast κ}
    (new : b.cleaned = 0) (running : s'.running = s.running ++ [b]) : Cleaned removed s' := by
  refine ⟨?_,?_,?_⟩
  · intro e member
    rw [running,List.length_append,List.length_singleton]
    exact Nat.lt_succ_of_lt (cleaned.known e member)
  · intro i c reads none
    rw [running] at reads
    rcases getElem?_concat_cases reads with before | ⟨-,rfl⟩
    · exact cleaned.waiting i c before none
    · exact new
  · intro i c reads info
    rw [running] at reads
    rcases getElem?_concat_cases reads with before | ⟨rfl,rfl⟩
    · exact cleaned.cleaned i c before info
    · rw [new,List.take_zero]
      exact iff_of_false (fun old => Nat.lt_irrefl _ (cleaned.known _ old)) List.not_mem_nil

/-! ### What a broadcast sends -/

variable [DecidableEq κ]

/-- The last send to the connection on the channel is at least its throttle old. -/
def Due (tier : κ → String) (channel : String) (now : ℚ) (lastSent : κ → Dict String ℚ) (info : κ) : Prop :=
  throttleSeconds (tier info) ≤ now - ((lastSent info).get? channel).getD 0
instance (channel : String) (now : ℚ) (lastSent : κ → Dict String ℚ) (info : κ) :
    Decidable (Due tier channel now lastSent info) :=
  inferInstanceAs (Decidable (_ ≤ _))

theorem mem_iterate (order set : List κ) : info ∈ iterate order set ↔ info ∈ set := by
  rw [iterate,List.mem_dedup,List.mem_append,List.mem_filter,decide_eq_true_eq]
  exact or_iff_left_of_imp And.right

variable (tier) in
/-- Of distinct connections, those that are due are sent to and marked. -/
theorem startSends_eq (channel : String) (now : ℚ) (lastSent : κ → Dict String ℚ) {set : List κ} (distinct : set.Nodup) :
    (startSends tier channel now lastSent set).2 = set.filter (Due tier channel now lastSent) ∧
    ∀ x c, ((startSends tier channel now lastSent set).1 x).get? c =
      if x ∈ (startSends tier channel now lastSent set).2 ∧ c = channel then some now else (lastSent x).get? c := by
  induction set generalizing lastSent with
  | nil => exact ⟨rfl,fun x c => (if_neg (fun both => List.not_mem_nil both.1)).symm⟩
  | cons info rest ih =>
    obtain ⟨fresh,distinct⟩ := List.nodup_cons.mp distinct
    rw [startSends]
    by_cases throttled : now - ((lastSent info).get? channel).getD 0 < throttleSeconds (tier info)
    · have early : ¬ Due tier channel now lastSent info := not_le.mpr throttled
      rw [if_pos throttled,List.filter_cons_of_neg (by rwa [decide_eq_true_eq])]
      exact ih lastSent distinct
    · have due : Due tier channel now lastSent info := not_lt.mp throttled
      obtain ⟨sends,marks⟩ := ih (Function.update lastSent info ((lastSent info).insert channel now)) distinct
      have others : rest.filter (Due tier channel now (Function.update lastSent info ((lastSent info).insert channel now))) =
          rest.filter (Due tier channel now lastSent) := by
        refine List.filter_congr ?_
        intro x member
        have apart : x ≠ info := fun same => fresh (same ▸ member)
        refine decide_eq_decide.mpr ?_
        unfold Due
        rw [Function.update_of_ne apart]
      rw [if_neg throttled,List.filter_cons_of_pos (by rwa [decide_eq_true_eq])]
      refine ⟨congrArg (info :: ·) (sends.trans others),?_⟩
      intro x c
      refine (marks x c).trans ?_
      by_cases same : x = info
      · subst same
        have unsent :
            x ∉ (startSends tier channel now (Function.update lastSent x ((lastSent x).insert channel now)) rest).2 := by
          rw [sends]
          exact fun member => fresh (List.mem_filter.mp member).1
        rw [if_neg (fun both => unsent both.1),Function.update_self,Dict.get?_insert]
        exact if_congr (by simp) rfl rfl
      · rw [Function.update_of_ne same]
        exact if_congr (by simp [same]) rfl rfl

variable (tier) in
/-- The connections that a broadcast would send to. -/
def chosen (s : Broadcasts κ ω) (channel : String) (now : ℚ) (order : List κ) : List κ :=
  (startSends tier channel now s.lastSent (iterate order (s.manager.members channel))).2

theorem chosen_eq (s : Broadcasts κ ω) (channel : String) (now : ℚ) (order : List κ) :
    s.chosen tier channel now order = (iterate order (s.manager.members channel)).filter (Due tier channel now s.lastSent) :=
  (startSends_eq tier channel now s.lastSent (List.nodup_dedup _)).1

theorem mem_chosen {channel : String} {now : ℚ} {order : List κ} :
    info ∈ s.chosen tier channel now order ↔ info ∈ s.manager.members channel ∧ Due tier channel now s.lastSent info := by
  rw [chosen_eq,List.mem_filter,mem_iterate,decide_eq_true_eq]

theorem starts_broadcast (channel text : String) (now : ℚ) (order : List κ) :
    s.starts tier (.broadcast channel text now order) =
      (s.chosen tier channel now order).map (fun info => ⟨s.running.length,info,channel,text,now⟩) := rfl

theorem exists_starts_iff (s : Broadcasts κ ω) (channel text : String) (now : ℚ) (order : List κ) (info : κ) :
    (∃ i, ⟨i,info,channel,text,now⟩ ∈ s.starts tier (.broadcast channel text now order)) ↔
      info ∈ s.manager.members channel ∧ Due tier channel now s.lastSent info := by
  have members : info ∈ s.chosen tier channel now order ↔
      info ∈ s.manager.members channel ∧ Due tier channel now s.lastSent info := mem_chosen
  rw [starts_broadcast,← members]
  constructor
  · rintro ⟨i,member⟩
    obtain ⟨other,inside,same⟩ := List.mem_map.mp member
    cases same
    exact inside
  · exact fun inside => ⟨_,List.mem_map_of_mem inside⟩

theorem starts_distinct (s : Broadcasts κ ω) (a : Action κ) : (s.starts tier a).Pairwise (fun a b => a.info ≠ b.info) := by
  cases a with
  | broadcast channel text now order =>
    rw [starts_broadcast,chosen_eq,List.pairwise_map]
    exact (List.nodup_dedup _).filter _
  | _ => exact .nil

/-- Every send of an action is due and is marked. -/
theorem starts_due {a : Action κ} {send : Send κ} (started : send ∈ s.starts tier a) :
    Due tier send.channel send.now s.lastSent send.info := by
  cases a with
  | broadcast channel text now order =>
    rw [starts_broadcast] at started
    obtain ⟨info,member,rfl⟩ := List.mem_map.mp started
    exact (mem_chosen.mp member).2
  | _ => cases started

/-- A send is its throttle after whatever the mark is no earlier than. -/
theorem throttle_le_of_marked {a : Action κ} {send : Send κ} (started : send ∈ s.starts tier a) {first last : ℚ}
    (marked : (s.lastSent send.info).get? send.channel = some last) (earlier : first ≤ last) :
    throttleSeconds (tier send.info) ≤ send.now - first := by
  have due := starts_due started
  unfold Due at due
  rw [marked,Option.getD_some] at due
  linarith

theorem broadcast_lastSent (channel text : String) (now : ℚ) (order : List κ) (c : String) :
    ((s.broadcast tier channel text now order).lastSent info).get? c =
      if info ∈ s.chosen tier channel now order ∧ c = channel then some now else (s.lastSent info).get? c := by
  have distinct : (iterate order (s.manager.members channel)).Nodup := List.nodup_dedup _
  obtain ⟨-,marks⟩ := startSends_eq tier channel now s.lastSent distinct
  unfold broadcast chosen
  dsimp only
  split
  · next idle => rw [idle,if_neg (fun both => List.not_mem_nil both.1)]
  · exact marks info c

theorem broadcast_manager (channel text : String) (now : ℚ) (order : List κ) :
    (s.broadcast tier channel text now order).manager = s.manager := by
  unfold broadcast
  dsimp only
  split
  · rfl
  · rfl

variable (tier) in
theorem broadcast_cases (s : Broadcasts κ ω) (channel text : String) (now : ℚ) (order : List κ) :
    s.chosen tier channel now order = [] ∧ s.broadcast tier channel text now order = s ∨
    (s.broadcast tier channel text now order).running =
      s.running ++ [⟨channel,text,now,s.chosen tier channel now order,none,0⟩] := by
  unfold broadcast
  by_cases idle : s.chosen tier channel now order = []
  · exact .inl ⟨idle,if_pos idle⟩
  · exact .inr (congrArg Broadcasts.running (if_neg idle))

/-! ### What an action does to the registry -/

variable [DecidableEq ω]

theorem clean_cases (ws : κ ↪ ω) (s : Broadcasts κ ω) (i : ℕ) :
    s.removes (.clean i) = [] ∧ s.clean ws i = s ∨
    ∃ b info, s.running[i]? = some b ∧ b.next = some info ∧ s.removes (.clean i) = [(i,info)] ∧
      s.clean ws i = { s with
        manager := (s.manager.disconnect ws .byIdentity info).1
        running := s.running.set i { b with cleaned := b.cleaned + 1 } } := by
  unfold clean removes
  dsimp only
  cases found : s.running[i]? with
  | none => exact .inl ⟨rfl,rfl⟩
  | some b =>
    rw [Option.bind_some]
    dsimp only
    cases next : b.next with
    | none => exact .inl ⟨rfl,rfl⟩
    | some info => exact .inr ⟨b,info,rfl,next,rfl,rfl⟩

theorem step_indexed (a : Action κ) (indexed : Indexed s.manager) : Indexed (s.step ws tier a).manager := by
  have disconnected (info : κ) : Indexed (s.manager.disconnect ws .byIdentity info).1 := by
    obtain ⟨-,clients,members⟩ := disconnect_byIdentity ws s.manager info
    intro x c member
    rw [clients]
    exact indexed x c ((members x c).mp member).1
  cases a with
  | broadcast channel text now order =>
    rw [step,broadcast_manager]
    exact indexed
  | gathered i outcomes =>
    rw [step,gathered_manager]
    exact indexed
  | clean i =>
    rw [step]
    rcases clean_cases ws s i with ⟨-,same⟩ | ⟨b,info,-,-,-,same⟩
    · rw [same]
      exact indexed
    · rw [same]
      exact disconnected info
  | subscribe info channels =>
    obtain ⟨-,members,clients⟩ := subscribe_byIdentity s.manager info channels
    intro x c member
    exact (clients x c).mpr (((members x c).mp member).imp_left (indexed x c))
  | unsubscribe info channels =>
    obtain ⟨-,members,clients⟩ := unsubscribe_byIdentity s.manager info channels
    intro x c member
    exact (clients x c).mpr (((members x c).mp member).imp_left (indexed x c))
  | disconnect info => exact disconnected info

omit [DecidableEq κ] in
theorem Same.refl (ws : κ ↪ ω) (s : Broadcasts κ ω) (info : κ) : Same ws s s info :=
  ⟨rfl,fun _ => Iff.rfl,fun _ => Iff.rfl⟩
omit [DecidableEq κ] in
theorem Same.trans {s' s'' : Broadcasts κ ω} (first : Same ws s s' info) (second : Same ws s' s'' info) : Same ws s s'' info :=
  ⟨second.registered.trans first.registered,fun ch => (second.members ch).trans (first.members ch),
    fun ch => (second.channels ch).trans (first.channels ch)⟩

/-- A disconnection leaves every other connection. -/
theorem disconnect_same {other : κ} (apart : other ≠ info) {running : List (Broadcast κ)} :
    Same ws s { s with manager := (s.manager.disconnect ws .byIdentity info).1, running := running } other := by
  obtain ⟨connections,clients,members⟩ := disconnect_byIdentity ws s.manager info
  refine ⟨?_,fun c => ?_,fun c => ?_⟩
  · show (s.manager.disconnect ws .byIdentity info).1.connections.get? (ws other) = _
    rw [connections,Dict.get?_erase,if_neg (fun same => apart (ws.injective same))]
  · exact (members other c).trans (and_iff_left (fun both => apart both.1))
  · show c ∈ (s.manager.disconnect ws .byIdentity info).1.clientChannels other ↔ _
    rw [clients]

theorem step_same {a : Action κ} (unremoved : ∀ i, (i,info) ∉ s.removes a) (foreign : ¬ a.Own info) :
    Same ws s (s.step ws tier a) info := by
  cases a with
  | broadcast channel text now order =>
    refine ⟨?_,fun c => ?_,fun c => ?_⟩
    · rw [step,broadcast_manager]
    · rw [step,broadcast_manager]
    · rw [step,broadcast_manager]
  | gathered i outcomes =>
    refine ⟨?_,fun c => ?_,fun c => ?_⟩
    · rw [step,gathered_manager]
    · rw [step,gathered_manager]
    · rw [step,gathered_manager]
  | clean i =>
    rw [step]
    rcases clean_cases ws s i with ⟨-,same⟩ | ⟨b,removed,-,-,removal,same⟩
    · rw [same]
      exact .refl ws s info
    · rw [same]
      refine disconnect_same ?_
      rintro rfl
      exact unremoved i (removal ▸ List.mem_singleton_self _)
  | subscribe other channels =>
    obtain ⟨connections,members,clients⟩ := subscribe_byIdentity s.manager other channels
    refine ⟨congrArg (·.get? (ws info)) connections,fun c => ?_,fun c => ?_⟩
    · exact (members info c).trans (or_iff_left (fun both => foreign both.1.symm))
    · exact (clients info c).trans (or_iff_left (fun both => foreign both.1.symm))
  | unsubscribe other channels =>
    obtain ⟨connections,members,clients⟩ := unsubscribe_byIdentity s.manager other channels
    refine ⟨congrArg (·.get? (ws info)) connections,fun c => ?_,fun c => ?_⟩
    · exact (members info c).trans (and_iff_left (fun both => foreign both.1.symm))
    · exact (clients info c).trans (and_iff_left (fun both => foreign both.1.symm))
  | disconnect other => exact disconnect_same (fun same => foreign same.symm)

/-- What a broadcast removes is in no set afterwards. -/
theorem step_gone (indexed : Indexed s.manager) {a : Action κ} {i : ℕ} (removal : (i,info) ∈ s.removes a) :
    (s.step ws tier a).Gone ws info := by
  cases a with
  | clean j =>
    rcases clean_cases ws s j with ⟨none,-⟩ | ⟨b,removed,-,-,single,same⟩
    · rw [none] at removal
      cases removal
    · rw [single,List.mem_singleton] at removal
      cases removal
      obtain ⟨connections,-,members⟩ := disconnect_byIdentity ws s.manager info
      rw [step,same]
      refine ⟨?_,fun c member => ?_⟩
      · show (s.manager.disconnect ws .byIdentity info).1.connections.get? (ws info) = none
        rw [connections,Dict.get?_erase,if_pos rfl]
      · obtain ⟨inside,outside⟩ := (members info c).mp member
        exact outside ⟨rfl,indexed info c inside⟩
  | _ => cases removal

/-- Nobody is registered again. -/
theorem step_unregistered {k : ω} (absent : s.manager.connections.get? k = none) (a : Action κ) :
    (s.step ws tier a).manager.connections.get? k = none := by
  have disconnected (info : κ) : (s.manager.disconnect ws .byIdentity info).1.connections.get? k = none := by
    rw [(disconnect_byIdentity ws s.manager info).1,Dict.get?_erase,absent,ite_self]
  cases a with
  | broadcast channel text now order => rw [step,broadcast_manager,absent]
  | gathered i outcomes => rw [step,gathered_manager,absent]
  | clean i =>
    rw [step]
    rcases clean_cases ws s i with ⟨-,same⟩ | ⟨b,info,-,-,-,same⟩
    · rw [same,absent]
    · rw [same]
      exact disconnected info
  | subscribe info channels => rw [step,(subscribe_byIdentity s.manager info channels).1,absent]
  | unsubscribe info channels => rw [step,(unsubscribe_byIdentity s.manager info channels).1,absent]
  | disconnect info => exact disconnected info

/-- Only its own subscription makes a connection a member. -/
theorem step_outside (outside : ∀ c, info ∉ s.manager.members c) {a : Action κ} (unasked : ¬ a.Subscribes info) :
    ∀ c, info ∉ (s.step ws tier a).manager.members c := by
  have disconnected (other : κ) : ∀ c, info ∉ (s.manager.disconnect ws .byIdentity other).1.members c := by
    intro c member
    exact outside c (((disconnect_byIdentity ws s.manager other).2.2 info c).mp member).1
  cases a with
  | broadcast channel text now order =>
    rw [step,broadcast_manager]
    exact outside
  | gathered i outcomes =>
    rw [step,gathered_manager]
    exact outside
  | clean i =>
    rw [step]
    rcases clean_cases ws s i with ⟨-,same⟩ | ⟨b,other,-,-,-,same⟩
    · rw [same]
      exact outside
    · rw [same]
      exact disconnected other
  | subscribe other channels =>
    intro c member
    rcases ((subscribe_byIdentity s.manager other channels).2.1 info c).mp member with before | ⟨same,-⟩
    · exact outside c before
    · exact unasked same.symm
  | unsubscribe other channels =>
    intro c member
    exact outside c (((unsubscribe_byIdentity s.manager other channels).2.1 info c).mp member).1
  | disconnect other => exact disconnected other

/-! ### What an action marks -/

theorem starts_marked {a : Action κ} {send : Send κ} (started : send ∈ s.starts tier a) :
    ((s.step ws tier a).lastSent send.info).get? send.channel = some send.now := by
  cases a with
  | broadcast channel text now order =>
    rw [starts_broadcast] at started
    obtain ⟨info,member,rfl⟩ := List.mem_map.mp started
    exact (broadcast_lastSent channel text now order channel).trans (if_pos ⟨member,rfl⟩)
  | _ => cases started

/-- Nothing else is marked. -/
theorem step_unmarked {a : Action κ} {channel : String}
    (unsent : ∀ send ∈ s.starts tier a, send.info = info → send.channel ≠ channel) :
    ((s.step ws tier a).lastSent info).get? channel = (s.lastSent info).get? channel := by
  cases a with
  | broadcast c text now order =>
    refine (broadcast_lastSent c text now order channel).trans (if_neg ?_)
    rintro ⟨member,rfl⟩
    rw [starts_broadcast] at unsent
    exact unsent _ (List.mem_map_of_mem member) rfl rfl
  | gathered i outcomes =>
    rw [step]
    rcases gathered_cases s i outcomes with same | ⟨b,results,-,-,same⟩
    · rw [same]
    · rw [same]
  | clean i =>
    rw [step]
    rcases clean_cases ws s i with ⟨-,same⟩ | ⟨b,removed,-,-,-,same⟩
    · rw [same]
    · rw [same]
  | _ => rfl

/-- A mark is only replaced by a later one. -/
theorem step_marks (a : Action κ) {channel : String} {last : ℚ} (marked : (s.lastSent info).get? channel = some last) :
    ∃ later, ((s.step ws tier a).lastSent info).get? channel = some later ∧ last ≤ later := by
  by_cases unsent : ∀ send ∈ s.starts tier a, send.info = info → send.channel ≠ channel
  · exact ⟨last,(step_unmarked unsent).trans marked,le_rfl⟩
  · push Not at unsent
    obtain ⟨send,started,rfl,rfl⟩ := unsent
    have due := starts_due started
    refine ⟨send.now,starts_marked started,?_⟩
    unfold Due at due
    rw [marked,Option.getD_some] at due
    have positive := throttleSeconds_pos (tier send.info)
    linarith

/-- What has been sent since a state, when it was sent and what is marked. -/
structure Spaced (tier : κ → String) (s : Broadcasts κ ω) (sent : List (Send κ)) (now : Broadcasts κ ω) : Prop where
  spaced : sent.Pairwise (Apart tier)
  since : ∀ send ∈ sent, ∀ last, (s.lastSent send.info).get? send.channel = some last →
    throttleSeconds (tier send.info) ≤ send.now - last
  marked : ∀ send ∈ sent, ∃ last, (now.lastSent send.info).get? send.channel = some last ∧ send.now ≤ last
  later : ∀ info channel first, (s.lastSent info).get? channel = some first →
    ∃ last, (now.lastSent info).get? channel = some last ∧ first ≤ last

theorem Spaced.step {start : Broadcasts κ ω} {sent : List (Send κ)} (spaced : Spaced tier start sent s) (a : Action κ) :
    Spaced tier start (sent ++ s.starts tier a) (s.step ws tier a) where
  spaced := by
    refine List.pairwise_append.mpr ⟨spaced.spaced,(starts_distinct s a).imp (fun apart same => absurd same apart),?_⟩
    intro before earlier after started same onChannel
    obtain ⟨last,marked,le⟩ := spaced.marked before earlier
    rw [same,onChannel] at marked
    rw [same]
    exact throttle_le_of_marked started marked le
  since send member first known := by
    rcases List.mem_append.mp member with before | started
    · exact spaced.since send before first known
    · obtain ⟨last,marked,le⟩ := spaced.later _ _ first known
      exact throttle_le_of_marked started marked le
  marked send member := by
    rcases List.mem_append.mp member with before | started
    · obtain ⟨last,marked,le⟩ := spaced.marked send before
      obtain ⟨later,remarked,le'⟩ := step_marks a marked
      exact ⟨later,remarked,le.trans le'⟩
    · exact ⟨send.now,starts_marked started,le_rfl⟩
  later info channel first known := by
    obtain ⟨last,marked,le⟩ := spaced.later info channel first known
    obtain ⟨later,remarked,le'⟩ := step_marks a marked
    exact ⟨later,remarked,le.trans le'⟩

variable (ws) (tier) (s) in
theorem run_spaced (actions : List (Action κ)) :
    Spaced tier s (s.sends ws tier actions) (s.run ws tier actions) := by
  refine outputs_kept (fun sent s' a spaced => spaced.step a) ⟨.nil,?_,?_,?_⟩ actions
  · intro send impossible
    cases impossible
  · intro send impossible
    cases impossible
  · exact fun info channel first known => ⟨first,known,le_rfl⟩

/-! ### What a broadcast removes -/

variable (ws) (tier) (s) in
/-- An action continues the broadcasts, or it is one that reaches its `gather`. -/
theorem step_continued (a : Action κ) : s.starts tier a = [] ∧ Continued s (s.step ws tier a) ∨
    ∃ channel text now order, a = .broadcast channel text now order ∧
      (s.step ws tier a).running = s.running ++ [⟨channel,text,now,s.chosen tier channel now order,none,0⟩] := by
  cases a with
  | broadcast channel text now order =>
    rcases broadcast_cases tier s channel text now order with ⟨idle,same⟩ | running
    · refine .inl ⟨?_,continued_of_running (congrArg Broadcasts.running same)⟩
      rw [starts_broadcast,idle,List.map_nil]
    · exact .inr ⟨channel,text,now,order,rfl,running⟩
  | gathered i outcomes =>
    rcases gathered_cases s i outcomes with same | ⟨b,results,found,-,same⟩
    · exact .inl ⟨rfl,continued_of_running (congrArg Broadcasts.running same)⟩
    · exact .inl ⟨rfl,continued_set found (congrArg Broadcasts.running same) ⟨rfl,rfl,rfl,rfl⟩⟩
  | clean i =>
    rcases clean_cases ws s i with ⟨-,same⟩ | ⟨b,removed,found,-,-,same⟩
    · exact .inl ⟨rfl,continued_of_running (congrArg Broadcasts.running same)⟩
    · exact .inl ⟨rfl,continued_set found (congrArg Broadcasts.running same) ⟨rfl,rfl,rfl,rfl⟩⟩
  | _ => exact .inl ⟨rfl,continued_of_running rfl⟩

theorem Started.step {sent : List (Send κ)} (started : Started sent s) (a : Action κ) :
    Started (sent ++ s.starts tier a) (s.step ws tier a) := by
  rcases step_continued ws tier s a with ⟨none,continued⟩ | ⟨channel,text,now,order,rfl,running⟩
  · rw [none,List.append_nil]
    refine ⟨?_,?_⟩
    · rw [continued.length]
      exact started.known
    · intro i b' reads info
      obtain ⟨b,found,sends,channel,text,now⟩ := continued.same i b' reads
      rw [sends,channel,text,now]
      exact started.started i b found info
  · rw [starts_broadcast]
    refine ⟨?_,?_⟩
    · intro send member
      rw [running,List.length_append,List.length_singleton]
      rcases List.mem_append.mp member with before | new
      · exact Nat.lt_succ_of_lt (started.known send before)
      · obtain ⟨info,-,rfl⟩ := List.mem_map.mp new
        exact Nat.lt_succ_self _
    · intro i b reads info
      rw [running] at reads
      rw [List.mem_append]
      rcases getElem?_concat_cases reads with before | ⟨rfl,rfl⟩
      · have inside : i < s.running.length := (List.getElem?_eq_some_iff.mp before).1
        refine (started.started i b before info).trans (or_iff_left ?_).symm
        intro new
        obtain ⟨other,-,same⟩ := List.mem_map.mp new
        cases same
        exact Nat.lt_irrefl _ inside
      · have unknown : ⟨s.running.length,info,channel,text,now⟩ ∉ sent := fun old => Nat.lt_irrefl _ (started.known _ old)
        rw [or_iff_right unknown,List.mem_map]
        constructor
        · exact fun member => ⟨info,member,rfl⟩
        · rintro ⟨other,member,same⟩
          cases same
          exact member

theorem Cleaned.step {removed : List (ℕ × κ)} (cleaned : Cleaned removed s) (a : Action κ) :
    Cleaned (removed ++ s.removes a) (s.step ws tier a) := by
  cases a with
  | broadcast channel text now order =>
    show Cleaned (removed ++ []) _
    rw [List.append_nil,Broadcasts.step]
    rcases broadcast_cases tier s channel text now order with ⟨-,same⟩ | running
    · rw [same]
      exact cleaned
    · exact cleaned.concat rfl running
  | gathered i outcomes =>
    rw [Broadcasts.step]
    rcases gathered_cases s i outcomes with same | ⟨b,results,found,waiting,same⟩
    · show Cleaned (removed ++ []) _
      rw [List.append_nil,same]
      exact cleaned
    · refine cleaned.set found (congrArg Broadcasts.running same) ?_ ?_ ?_
      · intro e impossible
        cases impossible
      · intro impossible
        cases impossible
      · intro info
        have none := cleaned.waiting i b found waiting
        dsimp only
        rw [none,List.take_zero,List.take_zero]
        exact (or_iff_left List.not_mem_nil).symm
  | clean i =>
    rw [Broadcasts.step]
    rcases clean_cases ws s i with ⟨none,same⟩ | ⟨b,info,found,next,removal,same⟩
    · rw [none,List.append_nil,same]
      exact cleaned
    · rw [removal]
      refine cleaned.set found (congrArg Broadcasts.running same) ?_ ?_ ?_
      · intro e member
        rw [List.mem_singleton.mp member]
      · intro waiting
        have empty : b.dead = [] := by
          unfold Broadcast.dead
          rw [show b.results = none from waiting,Option.getD_none,List.zip_nil_right,List.filterMap_nil]
        rw [Broadcast.next,empty] at next
        cases next
      · intro other
        have grows : b.dead.take (b.cleaned + 1) = b.dead.take b.cleaned ++ [info] := by
          rw [List.take_add_one,show b.dead[b.cleaned]? = some info from next,Option.toList_some]
        refine Iff.trans (Eq.to_iff (congrArg (other ∈ ·) grows)) ?_
        rw [List.mem_append,List.mem_singleton,List.mem_singleton,Prod.mk.injEq,and_iff_right rfl]
  | _ =>
    show Cleaned (removed ++ []) _
    rw [List.append_nil]
    exact ⟨cleaned.known,cleaned.waiting,cleaned.cleaned⟩

/-! ### Runs -/

theorem run_append (before after : List (Action κ)) :
    s.run ws tier (before ++ after) = (s.run ws tier before).run ws tier after := List.foldl_append

variable (ws) (tier) in
theorem run_started (idle : s.running = []) (actions : List (Action κ)) :
    Started (s.sends ws tier actions) (s.run ws tier actions) := by
  refine outputs_kept (fun sent s' a started => started.step a) ⟨?_,?_⟩ actions
  · intro send impossible
    cases impossible
  · intro i b impossible
    rw [idle] at impossible
    cases impossible

variable (ws) (tier) in
theorem run_cleaned (idle : s.running = []) (actions : List (Action κ)) :
    Cleaned (s.removals ws tier actions) (s.run ws tier actions) := by
  refine outputs_kept (fun removed s' a cleaned => cleaned.step a) ⟨?_,?_,?_⟩ actions
  · intro e impossible
    cases impossible
  · intro i b impossible
    rw [idle] at impossible
    cases impossible
  · intro i b impossible
    rw [idle] at impossible
    cases impossible

variable (ws) (tier) in
theorem run_indexed (indexed : Indexed s.manager) (actions : List (Action κ)) : Indexed (s.run ws tier actions).manager :=
  @kept_run _ _ (step ws tier) s (fun s => Indexed s.manager) (fun _ a indexed => step_indexed a indexed) indexed actions

variable (ws) (tier) in
theorem run_unregistered {k : ω} (absent : s.manager.connections.get? k = none) (actions : List (Action κ)) :
    (s.run ws tier actions).manager.connections.get? k = none :=
  @kept_run _ _ (step ws tier) s (fun s => s.manager.connections.get? k = none)
    (fun _ a absent => step_unregistered absent a) absent actions

theorem run_outside (outside : ∀ c, info ∉ s.manager.members c) {actions : List (Action κ)}
    (unasked : ∀ a ∈ actions, ¬ a.Subscribes info) : ∀ c, info ∉ (s.run ws tier actions).manager.members c := by
  induction actions generalizing s with
  | nil => exact outside
  | cons a rest ih =>
    obtain ⟨first,later⟩ := List.forall_mem_cons.mp unasked
    exact ih (step_outside outside first) later

theorem run_same {actions : List (Action κ)} (unremoved : ∀ i, (i,info) ∉ s.removals ws tier actions)
    (foreign : ∀ a ∈ actions, ¬ a.Own info) : Same ws s (s.run ws tier actions) info := by
  induction actions generalizing s with
  | nil => exact .refl ws s info
  | cons a rest ih =>
    obtain ⟨first,later⟩ := List.forall_mem_cons.mp foreign
    have here : ∀ i, (i,info) ∉ s.removes a := fun i member => unremoved i (List.mem_append_left _ member)
    exact (step_same here first).trans (ih (fun i member => unremoved i (List.mem_append_right _ member)) later)

theorem run_unmarked {actions : List (Action κ)} {channel : String}
    (unsent : ∀ send ∈ s.sends ws tier actions, send.info = info → send.channel ≠ channel) :
    ((s.run ws tier actions).lastSent info).get? channel = (s.lastSent info).get? channel := by
  induction actions generalizing s with
  | nil => rfl
  | cons a rest ih =>
    obtain ⟨first,later⟩ := List.forall_mem_append.mp unsent
    exact (ih later).trans (step_unmarked first)

/-- Whatever is marked at first, broadcasts throttle and remove as they should, however they
    are interleaved with each other and with the calls of the clients. -/
theorem broadcasts_isolated (ws : κ ↪ ω) (tier : κ → String) {s : Broadcasts κ ω} (indexed : Indexed s.manager)
    (idle : s.running = []) (actions : List (Action κ)) : s.Isolated ws tier actions where
  spaced := (run_spaced ws tier s actions).spaced
  since := (run_spaced ws tier s actions).since
  reached := by
    intro before channel text now order after _ info
    exact exists_starts_iff ..
  started := (run_started ws tier idle actions).started
  raised := by
    intro i info member
    have cleaned := run_cleaned ws tier idle actions
    have found := List.getElem?_eq_getElem (cleaned.known _ member)
    exact ⟨_,found,mem_dead_iff.mp (List.mem_of_mem_take ((cleaned.cleaned i _ found info).mp member))⟩
  removed := by
    intro i b found ended info raised
    rw [(run_cleaned ws tier idle actions).cleaned i b found info,List.take_of_length_le (List.getElem?_eq_none_iff.mp ended)]
    exact mem_dead_iff.mpr raised
  gone := by
    rintro before a after rfl i info removal
    obtain ⟨unregistered,outside⟩ := step_gone (run_indexed ws tier indexed before) removal
    rw [run_append]
    have absent := run_unregistered ws tier unregistered after
    exact ⟨absent,fun unasked => ⟨absent,run_outside outside unasked⟩⟩
  kept := by
    rintro before after rfl info unremoved foreign
    rw [run_append]
    exact run_same unremoved foreign
  stamped := by
    rintro before after rfl info channel unsent
    rw [run_append]
    exact run_unmarked unsent

/-- Two connections without channels. -/
def connected : Broadcasts ℕ ℕ := ⟨(init.connect id 0).connect id 1,fun _ => .empty,[]⟩
/-- They subscribe, the send to one of them raises, and a second broadcast comes too early. -/
def failingSend : List (Action ℕ) :=
  [.subscribe 0 ["funding"],.subscribe 1 ["funding"],.broadcast "funding" "first" 100 [],.broadcast "funding" "second" 105 [],
    .gathered 0 [(false,.sent),(true,.sent)],.clean 0]

/-- The one is removed and both are sent to once. -/
theorem failing_connection_removed :
    connected.Isolated (.refl ℕ) (fun _ => "pro") failingSend ∧
    connected.removals (.refl ℕ) (fun _ => "pro") failingSend = [(0,0)] ∧
    (connected.sends (.refl ℕ) (fun _ => "pro") failingSend).map Send.info = [0,1] := by
  refine ⟨broadcasts_isolated _ _ ?_ rfl _,by decide +kernel,by decide +kernel⟩
  intro info ch impossible
  cases impossible

end Broadcasts
end FundingRadar
