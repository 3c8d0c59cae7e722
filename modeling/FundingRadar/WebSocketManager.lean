import Mathlib.Logic.Function.Basic
import Mathlib.Data.List.Induction
import FundingRadar.Dict
import FundingRadar.Json
import FundingRadar.Loops

/-!
`WebSocketManager`: the registry of connections and the index of their channels.
Every operation holds the lock, so a run is a sequence of whole calls; the
disconnects that a broadcast or the heartbeat issues are calls like the client's own.
The members of a channel are a Python set, so each of them is hashed, and how a
`ConnectionInfo` hashes follows from the parameters of its `@dataclass`.
-/
namespace FundingRadar

/-- How the instances of a class hash. -/
inductive Hashing
  | byIdentity
  | byFields
  | unhashable
deriving DecidableEq

/-- What `@dataclass` does to the hash of a class that defines none itself. -/
def dataclassHashing (eq frozen unsafeHash : Bool) : Hashing :=
  if unsafeHash then .byFields
  else if !eq then .byIdentity
  else if frozen then .byFields
  else .unhashable
/-- `ConnectionInfo` is a plain `@dataclass`, which compares by value and is not frozen. -/
def ConnectionInfo.hashing : Hashing := dataclassHashing true false false

/-- The registry. `κ` are the `ConnectionInfo` objects and `ω` the identities of their
    sockets; a set is a list of its members. -/
structure WebSocketManager (κ ω : Type) where
  channels : Dict String (List κ)
  connections : Dict ω κ
  /-- `info.channels`, which the object keeps when its connection ends. -/
  clientChannels : κ → List String

namespace WebSocketManager
variable {κ ω : Type} [DecidableEq κ] [DecidableEq ω] (ws : κ → ω) (hashing : Hashing)

def init : WebSocketManager κ ω := ⟨.empty,.empty,fun _ => []⟩
/-- The members of a channel; none where the channel has no entry. -/
def members (m : WebSocketManager κ ω) (ch : String) : List κ := (m.channels.get? ch).getD []

/-- `s.add(info)` and `s.discard(info)`. Both hash the object first, and fields that are
    sets and dictionaries do not hash either. -/
def setAdd (s : List κ) (info : κ) : Except PyError (List κ) :=
  if hashing = .byIdentity then .ok (if info ∈ s then s else s ++ [info]) else .error .typeError
def setDiscard (s : List κ) (info : κ) : Except PyError (List κ) :=
  if hashing = .byIdentity then .ok (s.filter (fun other => other ≠ info)) else .error .typeError

/-- `del self._channels[ch]` where its set is empty. -/
def dropEmpty (m : WebSocketManager κ ω) (ch : String) : WebSocketManager κ ω :=
  if m.channels.get? ch = some [] then { m with channels := m.channels.erase ch } else m

/-- `self._channels.get(ch, set()).discard(info)`. -/
def discard (m : WebSocketManager κ ω) (ch : String) (info : κ) : Except PyError (WebSocketManager κ ω) := do
  let left ← setDiscard hashing (m.members ch) info
  return if (m.channels.get? ch).isSome then { m with channels := m.channels.insert ch left } else m

/-- `connect`, once the socket is accepted: a new object without channels. -/
def connect (m : WebSocketManager κ ω) (info : κ) : WebSocketManager κ ω :=
  { m with
    connections := m.connections.insert (ws info) info
    clientChannels := Function.update m.clientChannels info [] }

/-- One round of `subscribe`. The channel has its entry before the object is hashed. -/
def subscribeTo (info : κ) (m : WebSocketManager κ ω) (ch : String) : WebSocketManager κ ω × Option PyError :=
  let entered := if (m.channels.get? ch).isSome then m else { m with channels := m.channels.insert ch [] }
  match setAdd hashing (entered.members ch) info with
  | .error e => (entered,some e)
  | .ok joined =>
    let own := m.clientChannels info
    ({ entered with
        channels := entered.channels.insert ch joined
        clientChannels := Function.update m.clientChannels info (if ch ∈ own then own else own ++ [ch]) },none)
def subscribe (m : WebSocketManager κ ω) (info : κ) (channels : List String) : WebSocketManager κ ω × Option PyError :=
  forEach (subscribeTo hashing info) m channels

/-- One round of `unsubscribe`. -/
def unsubscribeFrom (info : κ) (m : WebSocketManager κ ω) (ch : String) : WebSocketManager κ ω × Option PyError :=
  match m.discard hashing ch info with
  | .error e => (m,some e)
  | .ok left =>
    let own := (m.clientChannels info).filter (fun other => other ≠ ch)
    (dropEmpty { left with clientChannels := Function.update m.clientChannels info own } ch,none)
def unsubscribe (m : WebSocketManager κ ω) (info : κ) (channels : List String) : WebSocketManager κ ω × Option PyError :=
  forEach (unsubscribeFrom hashing info) m channels

/-- One round of `disconnect`, which leaves the channels of the object as they are. -/
def leave (info : κ) (m : WebSocketManager κ ω) (ch : String) : WebSocketManager κ ω × Option PyError :=
  match m.discard hashing ch info with
  | .error e => (m,some e)
  | .ok left => (left.dropEmpty ch,none)
def disconnect (m : WebSocketManager κ ω) (info : κ) : WebSocketManager κ ω × Option PyError :=
  forEach (leave hashing info) { m with connections := m.connections.erase (ws info) } (m.clientChannels info)

/-! ### Runs -/

/-- A call on the manager. -/
inductive Call (κ : Type)
  | connect (info : κ)
  | subscribe (info : κ) (channels : List String)
  | unsubscribe (info : κ) (channels : List String)
  | disconnect (info : κ)

/-- The channels that a call names. -/
def Call.names : Call κ → List String
  | .subscribe _ channels => channels
  | .unsubscribe _ channels => channels
  | _ => []

/-- The manager after a call, and the exception that the call raises. -/
def call (m : WebSocketManager κ ω) : Call κ → WebSocketManager κ ω × Option PyError
  | .connect info => (m.connect ws info,none)
  | .subscribe info channels => m.subscribe hashing info channels
  | .unsubscribe info channels => m.unsubscribe hashing info channels
  | .disconnect info => m.disconnect ws hashing info
def run (calls : List (Call κ)) : WebSocketManager κ ω := calls.foldl (fun m c => (m.call ws hashing c).1) init

def Registered (m : WebSocketManager κ ω) (info : κ) : Prop := m.connections.get? (ws info) = some info

/-- The index of the channels mirrors the channels of the registered connections. -/
structure Mirrored (m : WebSocketManager κ ω) : Prop where
  member : ∀ info, m.Registered ws info → ∀ ch, info ∈ m.members ch ↔ ch ∈ m.clientChannels info
  inhabited : ∀ ch, m.channels.get? ch ≠ some []
  registered : ∀ ch, ∀ info ∈ m.members ch, m.Registered ws info

/-- Every call of a run returns and leaves the index mirrored, and after a
    subscription the client is a member of every channel it named. -/
def KeepsIndex (calls : List (Call κ)) : Prop :=
  ∀ before c after, calls = before ++ c :: after →
    ((run ws hashing before).call ws hashing c).2 = none ∧
    ((run ws hashing before).call ws hashing c).1.Mirrored ws ∧
    ∀ info channels, c = .subscribe info channels →
      ∀ ch ∈ channels, info ∈ ((run ws hashing before).call ws hashing c).1.members ch

variable {hashing}

/-- A call that names a channel raises where objects do not hash. -/
theorem call_raises (unhashed : hashing ≠ .byIdentity) (m : WebSocketManager κ ω) (c : Call κ) (named : c.names ≠ []) :
    (m.call ws hashing c).2 = some .typeError := by
  cases c with
  | connect info => exact absurd rfl named
  | disconnect info => exact absurd rfl named
  | subscribe info channels =>
    cases channels with
    | nil => exact absurd rfl named
    | cons ch rest => simp [call,subscribe,forEach,subscribeTo,setAdd,unhashed]
  | unsubscribe info channels =>
    cases channels with
    | nil => exact absurd rfl named
    | cons ch rest =>
      have raised : m.discard hashing ch info = .error .typeError := by
        rw [discard,setDiscard,if_neg unhashed]
        rfl
      simp [call,unsubscribe,forEach,unsubscribeFrom,raised]

/-- A registry in which nobody ever subscribed. -/
structure Unsubscribed (m : WebSocketManager κ ω) : Prop where
  channels : ∀ ch, m.channels.get? ch = none
  clients : ∀ info, m.clientChannels info = []

omit [DecidableEq κ] in
theorem Unsubscribed.mirrored {m : WebSocketManager κ ω} (unsubscribed : m.Unsubscribed) : m.Mirrored ws where
  member info _ ch := by simp [members,unsubscribed.channels,unsubscribed.clients]
  inhabited ch := by simp [unsubscribed.channels]
  registered ch info member := by simp [members,unsubscribed.channels] at member

variable (hashing) in
/-- A call that names no channel keeps it so, and returns. -/
theorem Unsubscribed.call {m : WebSocketManager κ ω} (unsubscribed : m.Unsubscribed) {c : Call κ} (unnamed : c.names = []) :
    (m.call ws hashing c).1.Unsubscribed ∧ (m.call ws hashing c).2 = none := by
  cases c with
  | connect info =>
    refine ⟨⟨unsubscribed.channels,fun other => ?_⟩,rfl⟩
    by_cases same : other = info
    · subst same
      exact Function.update_self ..
    · exact (Function.update_of_ne same ..).trans (unsubscribed.clients other)
  | subscribe info channels =>
    obtain rfl : channels = [] := unnamed
    exact ⟨unsubscribed,rfl⟩
  | unsubscribe info channels =>
    obtain rfl : channels = [] := unnamed
    exact ⟨unsubscribed,rfl⟩
  | disconnect info =>
    simp only [WebSocketManager.call,disconnect,unsubscribed.clients info,forEach]
    exact ⟨⟨unsubscribed.channels,unsubscribed.clients⟩,trivial⟩

theorem run_unsubscribed {calls : List (Call κ)} (unnamed : ∀ c ∈ calls, c.names = []) :
    (run ws hashing calls : WebSocketManager κ ω).Unsubscribed := by
  induction calls using List.reverseRecOn with
  | nil => exact ⟨fun _ => rfl,fun _ => rfl⟩
  | append_singleton calls c ih =>
    rw [run,List.foldl_append]
    have start := ih fun c member => unnamed c (List.mem_append_left _ member)
    exact (start.call ws hashing (unnamed c (by simp))).1

/-- With objects hashing as `ConnectionInfo` does, a run keeps the index exactly when
    none of its calls names a channel. -/
theorem keepsIndex_iff_unnamed (ws : κ → ω) (calls : List (Call κ)) :
    KeepsIndex ws ConnectionInfo.hashing calls ↔ ∀ c ∈ calls, c.names = [] := by
  constructor
  · intro keeps c member
    obtain ⟨before,after,split⟩ := List.append_of_mem member
    by_contra named
    have unhashed : ConnectionInfo.hashing ≠ .byIdentity := by decide
    have raises := call_raises ws unhashed (run ws ConnectionInfo.hashing before) c named
    rw [(keeps before c after split).1] at raises
    cases raises
  · rintro unnamed before c after rfl
    have start : (run ws ConnectionInfo.hashing before : WebSocketManager κ ω).Unsubscribed :=
      run_unsubscribed ws fun c member => unnamed c (List.mem_append_left _ member)
    have none := unnamed c (by simp)
    obtain ⟨after,returns⟩ := start.call ws ConnectionInfo.hashing none
    refine ⟨returns,after.mirrored ws,?_⟩
    rintro info channels rfl ch named
    obtain rfl : channels = [] := none
    cases named

/-- One client subscribes to one channel: the call raises and leaves an empty entry. -/
theorem firstSubscription_not_keepsIndex :
    ¬ KeepsIndex (fun client : ℕ => client) ConnectionInfo.hashing [.connect 0,.subscribe 0 ["funding"]] := by
  intro keeps
  have returned := (keeps [.connect 0] (.subscribe 0 ["funding"]) [] rfl).1
  have raised : ((run (fun client : ℕ => client) ConnectionInfo.hashing [.connect 0]).call (fun client : ℕ => client)
      ConnectionInfo.hashing (.subscribe 0 ["funding"])).2 = some .typeError := by decide
  rw [raised] at returned
  cases returned

end WebSocketManager
end FundingRadar
