import Mathlib.Data.String.Basic
import FundingRadar.Channels
import FundingRadar.MessageHandling
import FundingRadar.Sorting

/-!
The message loop of the WebSocket endpoint. Only the `JSONDecodeError` of a frame is
handled; what the frame holds is used as if it had the shape of the protocol, and whatever
that raises ends the loop and the connection. Which frames the loop survives is decided by
the shape of the frame and by how connections hash (`survives_iff`); what a frame does to
the registry is confined to its own client and to the channels that it names.
-/
namespace FundingRadar
open WebSocketManager

/-- What the loop calls of the libraries: `json.loads`, `f"..."` on a value, `none` where it
    raises, and whether `send_json` can encode a value. It cannot where a text in it holds a lone
    surrogate, as `loads` makes them of a frame; no string here has one, so some string stands for
    such a text. -/
structure FrameCodec where
  loads : String → Except LoadsError Json
  format : Json → Option String
  encodes : Json → Bool

/-- What ends the loop. -/
inductive FrameError
  | loads (e : LoadsError)
  | python (e : PyError)
  | format
  | encode
deriving DecidableEq

/-- A message to the client. -/
inductive WsReply
  | error (message : String)
  | subscribed (channels allChannels : List String) (invalid : List Json) (timestamp : ℤ)
  | unsubscribed (channels : Json) (allChannels : List String) (timestamp : ℤ)

/-- The registry after a frame, what is sent, and the exception that escapes. -/
structure FrameEnd (κ ω : Type) where
  manager : WebSocketManager κ ω
  replies : List WsReply
  raised : Option FrameError

/-- `msg.get("action") or msg.get("type", "")`. -/
def actionOf (msg : Json) : Except PyError Json := do return (← msg.get "action").orElse (← msg.get "type" (.str ""))

namespace WebSocketManager
variable {κ ω : Type} [DecidableEq κ]

/-- One round of `unsubscribe` on a channel that need not be a string. What is no string is in
    no index, so the object is discarded from a new set. -/
def unsubscribeFromAny (hashing : Hashing) (info : κ) (m : WebSocketManager κ ω) (ch : Json) :
    WebSocketManager κ ω × Option PyError :=
  match ch.hash with
  | .error e => (m,some e)
  | .ok (.str s) => m.unsubscribeFrom hashing info s
  | .ok _ =>
    match setDiscard hashing ([] : List κ) info with
    | .error e => (m,some e)
    | .ok _ => (m,none)

end WebSocketManager

namespace FundingStream
variable (codec : FrameCodec) (tables : CharTables) (hashing : Hashing)

/-- `_is_valid_channel`. -/
def isValidChannel : Json → Except PyError Bool
  | .str s => .ok (Channels.isValidChannel tables s)
  | ch => do
    let _ ← ch.hash
    .error .attributeError

/-- The two list comprehensions of `subscribe`. -/
def validChannels (channels : List Json) : Except PyError (List String) :=
  collect (fun ch => do
    match ch,← isValidChannel tables ch with
    | .str s,true => return some s
    | _,_ => return none) channels
def invalidChannels (channels : List Json) : Except PyError (List Json) :=
  collect (fun ch => do return if ← isValidChannel tables ch then none else some ch) channels

/-- The channels of a frame. -/
def channelsOf (msg : Json) : Except PyError (Json × List Json) := do
  let channels ← msg.get "channels" (.arr [])
  return (channels,← channels.iter)

section
variable {κ ω : Type} [DecidableEq κ] (m : WebSocketManager κ ω) (info : κ) (now : ℤ)

/-- `sorted(info.channels)`. -/
def allChannels : List String := sortedBy id (m.clientChannels info)

/-- The branch of the loop for `subscribe`. -/
def onSubscribe (msg : Json) : FrameEnd κ ω :=
  match (do
    let (_,channels) ← channelsOf msg
    let valid ← validChannels tables channels
    return (valid,← invalidChannels tables channels) : Except PyError (List String × List Json)) with
  | .error e => ⟨m,[],some (.python e)⟩
  | .ok (valid,invalid) =>
    match if valid = [] then (m,none) else m.subscribe hashing info valid with
    | (m',some e) => ⟨m',[],some (.python e)⟩
    | (m',none) =>
      if codec.encodes (.arr (valid.map .str)) && codec.encodes (.arr ((allChannels m' info).map .str)) &&
        codec.encodes (.arr invalid)
      then ⟨m',[.subscribed valid (allChannels m' info) invalid now],none⟩
      else ⟨m',[],some .encode⟩
/-- The branch of the loop for `unsubscribe`. -/
def onUnsubscribe (msg : Json) : FrameEnd κ ω :=
  match channelsOf msg with
  | .error e => ⟨m,[],some (.python e)⟩
  | .ok (channels,list) =>
    match forEach (unsubscribeFromAny hashing info) m list with
    | (m',some e) => ⟨m',[],some (.python e)⟩
    | (m',none) =>
      if codec.encodes channels && codec.encodes (.arr ((allChannels m' info).map .str))
      then ⟨m',[.unsubscribed channels (allChannels m' info) now],none⟩
      else ⟨m',[],some .encode⟩

/-- The body of the message loop of `funding_ws`, on one frame. -/
def onFrame (raw : String) : FrameEnd κ ω :=
  match codec.loads raw with
  | .error .jsonDecodeError => ⟨m,[.error "Invalid JSON."],none⟩
  | .error e => ⟨m,[],some (.loads e)⟩
  | .ok msg =>
    match actionOf msg with
    | .error e => ⟨m,[],some (.python e)⟩
    | .ok action =>
      if action.isStr "subscribe" then onSubscribe codec tables hashing m info now msg
      else if action.isStr "unsubscribe" then onUnsubscribe codec hashing m info now msg
      else if action.isStr "pong" then ⟨m,[],none⟩
      else
        match codec.format action with
        | none => ⟨m,[],some .format⟩
        | some text => ⟨m,[.error ("Unknown action '" ++ text ++ "'.")],none⟩

end

/-! ### What a frame may do -/

/-- The frame is an object with an action. -/
def Acts (raw action : String) (msg : Json) : Prop :=
  codec.loads raw = .ok msg ∧ msg.isObj = true ∧ ∃ v, actionOf msg = .ok v ∧ v.isStr action = true
/-- The frame names a channel to subscribe to, which is valid, or one to unsubscribe from. -/
def Named (raw ch : String) : Prop :=
  ∃ msg channels list, channelsOf msg = .ok (channels,list) ∧ .str ch ∈ list ∧
    (Acts codec raw "subscribe" msg ∧ Channels.isValidChannel tables ch = true ∨ Acts codec raw "unsubscribe" msg)

/-- Two registries differ for one client and for some channels only. -/
structure Confined {κ ω : Type} (m m' : WebSocketManager κ ω) (info : κ) (named : String → Prop) : Prop where
  connections : m'.connections = m.connections
  clients : ∀ other, other ≠ info → m'.clientChannels other = m.clientChannels other
  members : ∀ other, other ≠ info → ∀ ch, other ∈ m'.members ch ↔ other ∈ m.members ch
  channels : ∀ ch, ¬ named ch → m'.channels.get? ch = m.channels.get? ch
  own : ∀ ch, ¬ named ch → (ch ∈ m'.clientChannels info ↔ ch ∈ m.clientChannels info)

/-- The loop goes on after the frame, has sent at most one reply, and has changed the registry
    only for a subscription of its client. -/
structure Survives {κ ω : Type} [DecidableEq κ] (m : WebSocketManager κ ω) (info : κ) (now : ℤ) (raw : String) : Prop where
  returns : (onFrame codec tables hashing m info now raw).raised = none
  replies : (onFrame codec tables hashing m info now raw).replies.length ≤ 1
  confined : Confined m (onFrame codec tables hashing m info now raw).manager info (Named codec tables raw)
  idle : (∀ msg, ¬ Acts codec raw "subscribe" msg ∧ ¬ Acts codec raw "unsubscribe" msg) →
    (onFrame codec tables hashing m info now raw).manager = m

/-- The channels that can be subscribed to hold no lone surrogate, so they are encoded. -/
def EncodesChannels : Prop :=
  ∀ list : List String, (∀ ch ∈ list, Channels.isValidChannel tables ch = true) → codec.encodes (.arr (list.map .str)) = true
/-- The clients have subscribed to valid channels only. -/
def Accepted {κ ω : Type} (m : WebSocketManager κ ω) : Prop :=
  ∀ info, ∀ ch ∈ m.clientChannels info, Channels.isValidChannel tables ch = true

/-- The channels of a frame that subscribes are texts, none of them valid where connections do
    not hash, and those that are not valid can be sent back. -/
def HarmlessSubscribe (msg : Json) : Prop :=
  ∃ channels, ∃ texts : List String, channelsOf msg = .ok (channels,texts.map .str) ∧
    (hashing = .byIdentity ∨ ∀ s ∈ texts, Channels.isValidChannel tables s = false) ∧
    codec.encodes (.arr ((texts.filter (fun s => !Channels.isValidChannel tables s)).map .str)) = true
/-- The channels of a frame that unsubscribes hash, there are none where connections do not, and
    they can be sent back. -/
def HarmlessUnsubscribe (msg : Json) : Prop :=
  ∃ channels list, channelsOf msg = .ok (channels,list) ∧ (∀ ch ∈ list, ∃ key, ch.hash = .ok key) ∧
    (hashing = .byIdentity ∨ list = []) ∧ codec.encodes channels = true
/-- The frame is no JSON and `json.loads` says so, or it is an object whose action is unknown and
    can be formatted, a pong, or a harmless subscription. -/
def HarmlessFrame (raw : String) : Prop :=
  match codec.loads raw with
  | .error e => e = .jsonDecodeError
  | .ok msg => msg.isObj = true ∧ ∀ action, actionOf msg = .ok action →
    if action.isStr "subscribe" then HarmlessSubscribe codec tables hashing msg
    else if action.isStr "unsubscribe" then HarmlessUnsubscribe codec hashing msg
    else if action.isStr "pong" then True
    else (codec.format action).isSome = true

/-! ### Changes of the registry -/

section
variable {κ ω : Type} [DecidableEq κ] {m m' m'' : WebSocketManager κ ω} {info : κ} {named : String → Prop} {ch : String}

omit [DecidableEq κ] in
theorem Confined.refl (m : WebSocketManager κ ω) (info : κ) (named : String → Prop) : Confined m m info named :=
  ⟨rfl,fun _ _ => rfl,fun _ _ _ => Iff.rfl,fun _ _ => rfl,fun _ _ => Iff.rfl⟩

omit [DecidableEq κ] in
theorem Confined.trans (first : Confined m m' info named) (second : Confined m' m'' info named) : Confined m m'' info named where
  connections := second.connections.trans first.connections
  clients other apart := (second.clients other apart).trans (first.clients other apart)
  members other apart ch := (second.members other apart ch).trans (first.members other apart ch)
  channels ch unnamed := (second.channels ch unnamed).trans (first.channels ch unnamed)
  own ch unnamed := (second.own ch unnamed).trans (first.own ch unnamed)

omit [DecidableEq κ] in
theorem Confined.mono {wider : String → Prop} (confined : Confined m m' info named) (wide : ∀ ch, named ch → wider ch) :
    Confined m m' info wider where
  connections := confined.connections
  clients := confined.clients
  members := confined.members
  channels ch unnamed := confined.channels ch (fun in_ => unnamed (wide ch in_))
  own ch unnamed := confined.own ch (fun in_ => unnamed (wide ch in_))

omit [DecidableEq κ] in
/-- The set of a named channel is replaced by one with the same other members. -/
theorem confined_insert (isNamed : named ch) {s : List κ}
    (same : ∀ other, other ≠ info → (other ∈ s ↔ other ∈ m.members ch)) :
    Confined m { m with channels := m.channels.insert ch s } info named where
  connections := rfl
  clients _ _ := rfl
  members other apart ch' := by
    rw [WebSocketManager.members_insert]
    split
    · next equal =>
      rw [equal]
      exact same other apart
    · exact Iff.rfl
  channels ch' unnamed := by
    refine (Dict.get?_insert ..).trans (if_neg ?_)
    rintro rfl
    exact unnamed isNamed
  own _ _ := Iff.rfl

/-- The entry of a named channel is deleted once nobody is left. -/
theorem confined_dropEmpty (isNamed : named ch) : Confined m (m.dropEmpty ch) info named := by
  unfold dropEmpty
  split
  · next empty =>
    refine ⟨rfl,fun _ _ => rfl,?_,?_,fun _ _ => Iff.rfl⟩
    · intro other _ ch'
      unfold WebSocketManager.members
      rw [Dict.get?_erase]
      split
      · next equal =>
        rw [equal,empty]
        exact Iff.rfl
      · exact Iff.rfl
    · intro ch' unnamed
      refine (Dict.get?_erase ..).trans (if_neg ?_)
      rintro rfl
      exact unnamed isNamed
  · exact .refl m info named

/-- The client gains or loses a named channel. -/
theorem confined_own (isNamed : named ch) {own : List String}
    (same : ∀ ch', ch' ≠ ch → (ch' ∈ own ↔ ch' ∈ m.clientChannels info)) :
    Confined m { m with clientChannels := Function.update m.clientChannels info own } info named where
  connections := rfl
  clients other apart := Function.update_of_ne apart ..
  members _ _ _ := Iff.rfl
  channels _ _ := rfl
  own ch' unnamed := by
    have differ : ch' ≠ ch := by
      rintro rfl
      exact unnamed isNamed
    refine Iff.trans ?_ (same ch' differ)
    dsimp only
    rw [Function.update_self]

/-- Subscribing to a valid channel, or leaving any. -/
theorem subscribeTo_accepted {tables : CharTables} (hashing : Hashing) (valid : Channels.isValidChannel tables ch = true)
    (accepted : Accepted tables m) : Accepted tables (m.subscribeTo hashing info ch).1 := by
  have entered : Accepted tables (if (m.channels.get? ch).isSome then m else { m with channels := m.channels.insert ch [] }) := by
    split
    · exact accepted
    · exact accepted
  unfold subscribeTo
  dsimp only
  split
  · exact entered
  · intro other ch' member
    dsimp only at member
    by_cases same : other = info
    · rw [same,Function.update_self] at member
      split at member
      · exact accepted info ch' member
      · rcases List.mem_append.mp member with before | joined
        · exact accepted info ch' before
        · rw [List.mem_singleton.mp joined]
          exact valid
    · rw [Function.update_of_ne same] at member
      exact accepted other ch' member
theorem unsubscribeFromAny_accepted {tables : CharTables} (hashing : Hashing) (any : Json) (accepted : Accepted tables m) :
    Accepted tables (m.unsubscribeFromAny hashing info any).1 := by
  unfold unsubscribeFromAny
  split
  · exact accepted
  · next s hashed =>
    unfold unsubscribeFrom
    split
    · exact accepted
    · intro other ch' member
      rw [clientChannels_dropEmpty] at member
      dsimp only at member
      by_cases same : other = info
      · rw [same,Function.update_self] at member
        exact accepted info ch' (List.mem_of_mem_filter member)
      · rw [Function.update_of_ne same] at member
        exact accepted other ch' member
  · split
    · exact accepted
    · exact accepted

theorem subscribeTo_confined (hashing : Hashing) (isNamed : named ch) :
    Confined m (m.subscribeTo hashing info ch).1 info named := by
  have entered : Confined m (if (m.channels.get? ch).isSome then m else { m with channels := m.channels.insert ch [] })
      info named := by
    split
    · exact .refl m info named
    · next absent =>
      refine confined_insert isNamed ?_
      intro other _
      rw [Bool.not_eq_true,Option.isSome_eq_false_iff,Option.isNone_iff_eq_none] at absent
      rw [WebSocketManager.members,absent]
      exact Iff.rfl
  have clients : (if (m.channels.get? ch).isSome then m else { m with channels := m.channels.insert ch [] }).clientChannels =
      m.clientChannels := by
    split
    · rfl
    · rfl
  unfold subscribeTo setAdd
  dsimp only
  generalize (if (m.channels.get? ch).isSome then m else { m with channels := m.channels.insert ch [] }) = e at entered clients ⊢
  by_cases identity : hashing = .byIdentity
  · rw [if_pos identity,← clients]
    refine entered.trans (Confined.trans (confined_insert isNamed ?_) (confined_own isNamed ?_))
    · intro other apart
      split
      · exact Iff.rfl
      · rw [List.mem_append,List.mem_singleton]
        exact or_iff_left apart
    · intro ch' differ
      split
      · exact Iff.rfl
      · rw [List.mem_append,List.mem_singleton]
        exact or_iff_left differ
  · rw [if_neg identity]
    exact entered

theorem unsubscribeFrom_confined (hashing : Hashing) (isNamed : named ch) :
    Confined m (m.unsubscribeFrom hashing info ch).1 info named := by
  unfold unsubscribeFrom WebSocketManager.discard setDiscard
  by_cases identity : hashing = .byIdentity
  · rw [if_pos identity]
    dsimp only [bind,Except.bind,pure,Except.pure]
    have left : Confined m (if (m.channels.get? ch).isSome then
        { m with channels := m.channels.insert ch ((m.members ch).filter (fun other => other ≠ info)) } else m) info named := by
      split
      · refine confined_insert isNamed ?_
        intro other apart
        rw [List.mem_filter,decide_eq_true_eq]
        exact and_iff_left apart
      · exact .refl m info named
    have clients : (if (m.channels.get? ch).isSome then
        { m with channels := m.channels.insert ch ((m.members ch).filter (fun other => other ≠ info)) } else m).clientChannels =
          m.clientChannels := by
      split
      · rfl
      · rfl
    generalize (if (m.channels.get? ch).isSome then
        { m with channels := m.channels.insert ch ((m.members ch).filter (fun other => other ≠ info)) } else m) = e at left clients ⊢
    rw [← clients]
    refine left.trans (Confined.trans (confined_own isNamed ?_) (confined_dropEmpty isNamed))
    intro ch' differ
    rw [List.mem_filter,decide_eq_true_eq]
    exact and_iff_left differ
  · rw [if_neg identity]
    exact .refl m info named

theorem unsubscribeFromAny_confined (hashing : Hashing) {any : Json} (isNamed : ∀ s, any = .str s → named s) :
    Confined m (m.unsubscribeFromAny hashing info any).1 info named := by
  unfold unsubscribeFromAny
  split
  · exact .refl m info named
  · next s hashed =>
    cases any with
    | str t =>
      cases hashed
      exact unsubscribeFrom_confined hashing (isNamed s rfl)
    | _ => cases hashed
  · split
    · exact .refl m info named
    · exact .refl m info named

/-! ### What raises -/

theorem subscribeTo_returns_iff (hashing : Hashing) (m : WebSocketManager κ ω) (info : κ) (ch : String) :
    (m.subscribeTo hashing info ch).2 = none ↔ hashing = .byIdentity := by
  unfold subscribeTo setAdd
  dsimp only
  by_cases identity : hashing = .byIdentity
  · rw [if_pos identity]
    exact iff_of_true rfl identity
  · rw [if_neg identity]
    exact iff_of_false (Option.some_ne_none _) identity

theorem unsubscribeFromAny_returns_iff (hashing : Hashing) (m : WebSocketManager κ ω) (info : κ) (ch : Json) :
    (m.unsubscribeFromAny hashing info ch).2 = none ↔ (∃ key, ch.hash = .ok key) ∧ hashing = .byIdentity := by
  unfold unsubscribeFromAny unsubscribeFrom WebSocketManager.discard setDiscard
  by_cases identity : hashing = .byIdentity
  · simp only [if_pos identity,bind,Except.bind,pure,Except.pure]
    cases hashed : ch.hash with
    | error e => simp
    | ok key =>
      cases key with
      | str s => simp [identity]
      | null => simp [identity]
      | num q => simp [identity]
  · simp only [if_neg identity,bind,Except.bind]
    refine iff_of_false ?_ (fun both => identity both.2)
    split
    · exact Option.some_ne_none _
    · exact Option.some_ne_none _
    · exact Option.some_ne_none _

end

/-! ### List comprehensions -/

variable {tables}

theorem isValidChannel_ok_iff {ch : Json} : (∃ valid, isValidChannel tables ch = .ok valid) ↔ ∃ s, ch = .str s := by
  cases ch with
  | str s => exact iff_of_true ⟨_,rfl⟩ ⟨s,rfl⟩
  | arr items => simp [isValidChannel,Json.hash,bind,Except.bind]
  | obj members => simp [isValidChannel,Json.hash,bind,Except.bind]
  | _ => simp [isValidChannel,Json.hash,bind,Except.bind]

/-- Texts are sorted into valid and invalid channels. -/
theorem validChannels_texts (texts : List String) :
    validChannels tables (texts.map .str) = .ok (texts.filter (Channels.isValidChannel tables)) ∧
    invalidChannels tables (texts.map .str) = .ok ((texts.filter (fun s => !Channels.isValidChannel tables s)).map .str) := by
  constructor
  · rw [← List.filterMap_eq_filter,← List.map_id (List.filterMap _ _)]
    refine collect_map (fun s => ?_) texts
    cases valid : Channels.isValidChannel tables s with
    | true => simp [isValidChannel,valid,Option.guard,bind,Except.bind,pure,Except.pure]
    | false => simp [isValidChannel,valid,Option.guard,bind,Except.bind,pure,Except.pure]
  · rw [← List.filterMap_eq_filter]
    refine collect_map (fun s => ?_) texts
    cases valid : Channels.isValidChannel tables s with
    | true => simp [isValidChannel,valid,Option.guard,bind,Except.bind,pure,Except.pure]
    | false => simp [isValidChannel,valid,Option.guard,bind,Except.bind,pure,Except.pure]

theorem exists_texts {channels : List Json} (all : ∀ ch ∈ channels, ∃ s, ch = .str s) :
    ∃ texts : List String, channels = texts.map .str := by
  induction channels with
  | nil => exact ⟨[],rfl⟩
  | cons ch rest ih =>
    obtain ⟨⟨s,rfl⟩,later⟩ := List.forall_mem_cons.mp all
    obtain ⟨texts,rfl⟩ := ih later
    exact ⟨s :: texts,rfl⟩

/-- A comprehension that ends has seen only texts. -/
theorem texts_of_validChannels {channels : List Json} {valid : List String} (ran : validChannels tables channels = .ok valid) :
    ∀ ch ∈ channels, ∃ s, ch = .str s := by
  intro ch member
  obtain ⟨result,body⟩ := collect_ended ran ch member
  obtain ⟨isValid,checked,-⟩ := bind_eq_ok.mp body
  exact isValidChannel_ok_iff.mp ⟨isValid,checked⟩

/-! ### One frame -/

section
variable {κ ω : Type} [DecidableEq κ] {codec} {hashing} {m : WebSocketManager κ ω} {info : κ} {now : ℤ} {msg : Json}

variable (hashing m info) in
/-- The manager is only asked for a subscription where a channel is valid. -/
theorem subscription_returns_iff (valid : List String) :
    (if valid = [] then (m,none) else m.subscribe hashing info valid).2 = none ↔ hashing = .byIdentity ∨ valid = [] := by
  cases valid with
  | nil => exact iff_of_true rfl (.inr rfl)
  | cons ch rest =>
    rw [if_neg (List.cons_ne_nil _ _),or_iff_left (List.cons_ne_nil _ _),WebSocketManager.subscribe,
      forEach_returns_iff (fun m ch => subscribeTo_returns_iff hashing m info ch)]
    exact ⟨fun all => all ch (List.mem_cons_self ..),fun identity _ _ => identity⟩

theorem subscription_confined {valid : List String} {named : String → Prop} (all : ∀ ch ∈ valid, named ch) :
    Confined m (if valid = [] then (m,none) else m.subscribe hashing info valid).1 info named := by
  split
  · exact .refl m info named
  · refine forEach_keeps (fun m' => Confined m m' info named) ?_ (.refl m info named)
    intro m' ch member kept
    exact kept.trans (subscribeTo_confined hashing (all ch member))

theorem subscription_accepted {valid : List String} (all : ∀ ch ∈ valid, Channels.isValidChannel tables ch = true)
    (accepted : Accepted tables m) : Accepted tables (if valid = [] then (m,none) else m.subscribe hashing info valid).1 := by
  split
  · exact accepted
  · exact forEach_keeps (Accepted tables) (fun m' ch member kept => subscribeTo_accepted hashing (all ch member) kept) accepted

theorem valid_eq_nil_iff {texts : List String} : texts.filter (Channels.isValidChannel tables) = [] ↔
    ∀ s ∈ texts, Channels.isValidChannel tables s = false := by
  simp only [List.filter_eq_nil_iff,Bool.not_eq_true]

theorem harmlessSubscribe_iff {channels : Json} {texts : List String} (read : channelsOf msg = .ok (channels,texts.map .str)) :
    HarmlessSubscribe codec tables hashing msg ↔
      (hashing = .byIdentity ∨ ∀ s ∈ texts, Channels.isValidChannel tables s = false) ∧
        codec.encodes (.arr ((texts.filter (fun s => !Channels.isValidChannel tables s)).map .str)) = true := by
  unfold HarmlessSubscribe
  rw [read]
  constructor
  · rintro ⟨_,others,same,both⟩
    have lists : texts.map Json.str = others.map Json.str := congrArg Prod.snd (Except.ok.inj same)
    have strings : Function.Injective Json.str := fun a b equal => by
      cases equal
      rfl
    rw [List.map_injective_iff.mpr strings lists]
    exact both
  · exact fun both => ⟨channels,texts,rfl,both⟩

theorem harmlessUnsubscribe_iff {channels : Json} {list : List Json} (read : channelsOf msg = .ok (channels,list)) :
    HarmlessUnsubscribe codec hashing msg ↔
      (∀ ch ∈ list, (∃ key, ch.hash = .ok key) ∧ hashing = .byIdentity) ∧ codec.encodes channels = true := by
  unfold HarmlessUnsubscribe
  rw [read]
  constructor
  · rintro ⟨_,_,same,hashes,identity,encodes⟩
    cases same
    refine ⟨fun ch member => ⟨hashes ch member,?_⟩,encodes⟩
    rcases identity with identity | rfl
    · exact identity
    · cases member
  · rintro ⟨each,encodes⟩
    refine ⟨channels,list,rfl,fun ch member => (each ch member).1,?_,encodes⟩
    cases list with
    | nil => exact .inr rfl
    | cons ch rest => exact .inl (each ch (List.mem_cons_self ..)).2

omit [DecidableEq κ] in
theorem EncodesChannels.allChannels (encodes : EncodesChannels codec tables) (accepted : Accepted tables m) (info : κ) :
    codec.encodes (.arr ((allChannels m info).map .str)) = true :=
  encodes _ fun ch member => accepted info ch ((List.mem_insertionSort _).mp member)

/-- A frame whose channels are texts is answered once the manager has returned, if the channels that
    are not valid can be sent. -/
theorem onSubscribe_texts (encodes : EncodesChannels codec tables) (accepted : Accepted tables m) {channels : Json}
    {texts : List String} (read : channelsOf msg = .ok (channels,texts.map .str)) :
    onSubscribe codec tables hashing m info now msg =
      match if texts.filter (Channels.isValidChannel tables) = [] then (m,none)
        else m.subscribe hashing info (texts.filter (Channels.isValidChannel tables)) with
      | (m',some e) => ⟨m',[],some (.python e)⟩
      | (m',none) =>
        if codec.encodes (.arr ((texts.filter (fun s => !Channels.isValidChannel tables s)).map .str))
        then ⟨m',[.subscribed (texts.filter (Channels.isValidChannel tables)) (allChannels m' info)
          ((texts.filter (fun s => !Channels.isValidChannel tables s)).map .str) now],none⟩
        else ⟨m',[],some .encode⟩ := by
  obtain ⟨valid,invalid⟩ := @validChannels_texts tables texts
  unfold onSubscribe
  rw [read]
  dsimp only [bind,Except.bind,pure,Except.pure]
  rw [valid]
  dsimp only
  rw [invalid]
  dsimp only
  have valids : ∀ ch ∈ texts.filter (Channels.isValidChannel tables), Channels.isValidChannel tables ch = true :=
    fun ch member => List.of_mem_filter member
  have after : Accepted tables (if texts.filter (Channels.isValidChannel tables) = [] then (m,none)
      else m.subscribe hashing info (texts.filter (Channels.isValidChannel tables))).1 := subscription_accepted valids accepted
  split
  · rfl
  · next m' returned =>
    rw [returned] at after
    rw [encodes _ valids,encodes.allChannels after,Bool.true_and,Bool.true_and]

/-- A frame with another value among its channels raises. -/
theorem onSubscribe_other {channels : Json} {list : List Json} (read : channelsOf msg = .ok (channels,list))
    (other : ¬ ∀ ch ∈ list, ∃ s, ch = .str s) :
    ∃ e, onSubscribe codec tables hashing m info now msg = ⟨m,[],some (.python e)⟩ := by
  unfold onSubscribe
  rw [read]
  dsimp only [bind,Except.bind,pure,Except.pure]
  cases ran : validChannels tables list with
  | error e => exact ⟨e,rfl⟩
  | ok valid => exact absurd (texts_of_validChannels ran) other

variable {named : String → Prop}

/-- What a subscription does, however it ends. -/
theorem onSubscribe_keeps (all : ∀ channels list, channelsOf msg = .ok (channels,list) →
      ∀ s, .str s ∈ list → Channels.isValidChannel tables s = true → named s) :
    (onSubscribe codec tables hashing m info now msg).replies.length ≤ 1 ∧
    Confined m (onSubscribe codec tables hashing m info now msg).manager info named ∧
    (Accepted tables m → Accepted tables (onSubscribe codec tables hashing m info now msg).manager) := by
  unfold onSubscribe
  split
  · exact ⟨Nat.zero_le 1,.refl m info named,id⟩
  · next valid invalid ran =>
    obtain ⟨⟨channels,list⟩,read,rest⟩ := bind_eq_ok.mp ran
    obtain ⟨valid',found,rest⟩ := bind_eq_ok.mp rest
    obtain ⟨invalid',-,same⟩ := bind_eq_ok.mp rest
    cases same
    obtain ⟨texts,rfl⟩ := exists_texts (texts_of_validChannels found)
    rw [(@validChannels_texts tables texts).1] at found
    cases found
    have confined : Confined m (if texts.filter (Channels.isValidChannel tables) = [] then (m,none)
        else m.subscribe hashing info (texts.filter (Channels.isValidChannel tables))).1 info named := by
      refine subscription_confined ?_
      intro ch member
      obtain ⟨inside,isValid⟩ := List.mem_filter.mp member
      exact all channels _ read ch (List.mem_map_of_mem inside) isValid
    have kept : Accepted tables m → Accepted tables (if texts.filter (Channels.isValidChannel tables) = [] then (m,none)
        else m.subscribe hashing info (texts.filter (Channels.isValidChannel tables))).1 :=
      subscription_accepted fun ch member => List.of_mem_filter member
    split
    · next m' e asked =>
      rw [asked] at confined kept
      exact ⟨Nat.zero_le 1,confined,kept⟩
    · next m' asked =>
      rw [asked] at confined kept
      split
      · exact ⟨Nat.le_refl 1,confined,kept⟩
      · exact ⟨Nat.zero_le 1,confined,kept⟩

theorem onSubscribe_returns_iff (encodes : EncodesChannels codec tables) (accepted : Accepted tables m) :
    (onSubscribe codec tables hashing m info now msg).raised = none ↔ HarmlessSubscribe codec tables hashing msg := by
  cases read : channelsOf msg with
  | error e =>
    have raises : onSubscribe codec tables hashing m info now msg = ⟨m,[],some (.python e)⟩ := by
      unfold onSubscribe
      rw [read]
      rfl
    rw [raises]
    refine iff_of_false (Option.some_ne_none _) ?_
    rintro ⟨channels,texts,impossible,-⟩
    rw [read] at impossible
    cases impossible
  | ok pair =>
    obtain ⟨channels,list⟩ := pair
    by_cases strings : ∀ ch ∈ list, ∃ s, ch = .str s
    · obtain ⟨texts,rfl⟩ := exists_texts strings
      have returns := subscription_returns_iff hashing m info (texts.filter (Channels.isValidChannel tables))
      rw [harmlessSubscribe_iff read,onSubscribe_texts encodes accepted read,← valid_eq_nil_iff,← returns]
      generalize (if texts.filter (Channels.isValidChannel tables) = [] then (m,none)
        else m.subscribe hashing info (texts.filter (Channels.isValidChannel tables))) = asked
      obtain ⟨m',raised⟩ := asked
      cases raised with
      | some e => exact iff_of_false (Option.some_ne_none _) (fun both => Option.some_ne_none _ both.1)
      | none =>
        dsimp only
        split
        · next sent => exact iff_of_true rfl ⟨rfl,sent⟩
        · next unsent => exact iff_of_false (Option.some_ne_none _) (fun both => unsent both.2)
    · obtain ⟨e,raises⟩ : ∃ e, onSubscribe codec tables hashing m info now msg = ⟨m,[],some (.python e)⟩ :=
        onSubscribe_other read strings
      rw [raises]
      refine iff_of_false (Option.some_ne_none _) ?_
      rintro ⟨_,texts,same,-⟩
      rw [read] at same
      cases same
      refine strings fun ch member => ?_
      obtain ⟨s,-,rfl⟩ := List.mem_map.mp member
      exact ⟨s,rfl⟩

/-- What leaving channels does, however it ends. -/
theorem onUnsubscribe_keeps (all : ∀ channels list, channelsOf msg = .ok (channels,list) → ∀ s, .str s ∈ list → named s) :
    (onUnsubscribe codec hashing m info now msg).replies.length ≤ 1 ∧
    Confined m (onUnsubscribe codec hashing m info now msg).manager info named ∧
    (Accepted tables m → Accepted tables (onUnsubscribe codec hashing m info now msg).manager) := by
  unfold onUnsubscribe
  split
  · exact ⟨Nat.zero_le 1,.refl m info named,id⟩
  · next channels list read =>
    have confined : Confined m (forEach (unsubscribeFromAny hashing info) m list).1 info named := by
      refine forEach_keeps (fun m' => Confined m m' info named) ?_ (.refl m info named)
      intro m' ch member kept
      refine kept.trans (unsubscribeFromAny_confined hashing ?_)
      rintro s rfl
      exact all channels list read s member
    have kept : Accepted tables m → Accepted tables (forEach (unsubscribeFromAny hashing info) m list).1 :=
      forEach_keeps (Accepted tables) fun m' ch _ kept => unsubscribeFromAny_accepted hashing ch kept
    split
    · next m' e left =>
      rw [left] at confined kept
      exact ⟨Nat.zero_le 1,confined,kept⟩
    · next m' left =>
      rw [left] at confined kept
      split
      · exact ⟨Nat.le_refl 1,confined,kept⟩
      · exact ⟨Nat.zero_le 1,confined,kept⟩

theorem onUnsubscribe_returns_iff (encodes : EncodesChannels codec tables) (accepted : Accepted tables m) :
    (onUnsubscribe codec hashing m info now msg).raised = none ↔ HarmlessUnsubscribe codec hashing msg := by
  unfold onUnsubscribe
  cases read : channelsOf msg with
  | error e =>
    refine iff_of_false (Option.some_ne_none _) ?_
    rintro ⟨channels,list,impossible,-⟩
    rw [read] at impossible
    cases impossible
  | ok pair =>
    obtain ⟨channels,list⟩ := pair
    have returns := forEach_returns_iff (fun m ch => unsubscribeFromAny_returns_iff hashing m info ch) m list
    have kept : Accepted tables (forEach (unsubscribeFromAny hashing info) m list).1 :=
      forEach_keeps (Accepted tables) (fun m' ch _ kept => unsubscribeFromAny_accepted hashing ch kept) accepted
    rw [harmlessUnsubscribe_iff read,← returns]
    dsimp only
    generalize forEach (unsubscribeFromAny hashing info) m list = left at kept ⊢
    obtain ⟨m',raised⟩ := left
    cases raised with
    | some e => exact iff_of_false (Option.some_ne_none _) (fun both => Option.some_ne_none _ both.1)
    | none =>
      dsimp only
      rw [encodes.allChannels kept,Bool.and_true,and_iff_right rfl]
      cases codec.encodes channels with
      | true => exact iff_of_true rfl rfl
      | false => exact iff_of_false (Option.some_ne_none _) Bool.false_ne_true

/-- Only an object has an action. -/
theorem isObj_iff : msg.isObj = true ↔ ∃ action, actionOf msg = .ok action := by
  cases msg with
  | obj members => exact iff_of_true rfl ⟨_,rfl⟩
  | _ => exact iff_of_false Bool.false_ne_true (fun ⟨_,impossible⟩ => by cases impossible)

theorem harmlessAction_iff (object : msg.isObj = true) {action : Json} {harmless : Json → Prop} :
    (msg.isObj = true ∧ ∀ other, (Except.ok action : Except PyError Json) = .ok other → harmless other) ↔ harmless action := by
  constructor
  · exact fun both => both.2 action rfl
  · intro holds
    refine ⟨object,?_⟩
    rintro _ same
    cases same
    exact holds

/-- What every frame does, harmless or not. -/
theorem onFrame_keeps (raw : String) :
    (onFrame codec tables hashing m info now raw).replies.length ≤ 1 ∧
    Confined m (onFrame codec tables hashing m info now raw).manager info (Named codec tables raw) ∧
    (Accepted tables m → Accepted tables (onFrame codec tables hashing m info now raw).manager) ∧
    ((∀ msg, ¬ Acts codec raw "subscribe" msg ∧ ¬ Acts codec raw "unsubscribe" msg) →
      (onFrame codec tables hashing m info now raw).manager = m) := by
  unfold onFrame
  cases loaded : codec.loads raw with
  | error e =>
    cases e with
    | jsonDecodeError => exact ⟨Nat.le_refl 1,.refl ..,id,fun _ => rfl⟩
    | _ => exact ⟨Nat.zero_le 1,.refl ..,id,fun _ => rfl⟩
  | ok msg =>
    dsimp only
    cases acted : actionOf msg with
    | error e => exact ⟨Nat.zero_le 1,.refl ..,id,fun _ => rfl⟩
    | ok action =>
      have object : msg.isObj = true := isObj_iff.mpr ⟨action,acted⟩
      dsimp only
      split
      · next subscribes =>
        have acts : Acts codec raw "subscribe" msg := ⟨loaded,object,action,acted,subscribes⟩
        obtain ⟨replies,confined,kept⟩ := @onSubscribe_keeps codec tables hashing κ ω _ m info now msg (Named codec tables raw)
          (fun channels list read s member valid => ⟨msg,channels,list,read,member,.inl ⟨acts,valid⟩⟩)
        exact ⟨replies,confined,kept,fun idle => absurd acts (idle msg).1⟩
      · split
        · next unsubscribes =>
          have acts : Acts codec raw "unsubscribe" msg := ⟨loaded,object,action,acted,unsubscribes⟩
          obtain ⟨replies,confined,kept⟩ := @onUnsubscribe_keeps codec tables hashing κ ω _ m info now msg (Named codec tables raw)
            (fun channels list read s member => ⟨msg,channels,list,read,member,.inr acts⟩)
          exact ⟨replies,confined,kept,fun idle => absurd acts (idle msg).2⟩
        · split
          · exact ⟨Nat.zero_le 1,.refl ..,id,fun _ => rfl⟩
          · split
            · exact ⟨Nat.zero_le 1,.refl ..,id,fun _ => rfl⟩
            · exact ⟨Nat.le_refl 1,.refl ..,id,fun _ => rfl⟩

theorem onFrame_returns_iff (encodes : EncodesChannels codec tables) (accepted : Accepted tables m) (raw : String) :
    (onFrame codec tables hashing m info now raw).raised = none ↔ HarmlessFrame codec tables hashing raw := by
  unfold onFrame HarmlessFrame
  cases codec.loads raw with
  | error e =>
    cases e with
    | jsonDecodeError => exact iff_of_true rfl rfl
    | _ =>
      refine iff_of_false (Option.some_ne_none _) ?_
      intro impossible
      cases impossible
  | ok msg =>
    dsimp only
    cases acted : actionOf msg with
    | error e =>
      refine iff_of_false (Option.some_ne_none _) ?_
      rintro ⟨object,-⟩
      obtain ⟨action,read⟩ := isObj_iff.mp object
      rw [acted] at read
      cases read
    | ok action =>
      rw [harmlessAction_iff (isObj_iff.mpr ⟨action,acted⟩)]
      dsimp only
      split
      · exact onSubscribe_returns_iff encodes accepted
      · split
        · exact onUnsubscribe_returns_iff encodes accepted
        · split
          · exact iff_of_true rfl trivial
          · cases codec.format action with
            | none => exact iff_of_false (Option.some_ne_none _) Bool.false_ne_true
            | some text => exact iff_of_true rfl rfl

variable (codec tables hashing m info now) in
/-- The loop survives exactly the harmless frames, and every frame leaves the clients in valid
    channels only. -/
theorem survives_iff (encodes : EncodesChannels codec tables) (accepted : Accepted tables m) (raw : String) :
    (Survives codec tables hashing m info now raw ↔ HarmlessFrame codec tables hashing raw) ∧
      Accepted tables (onFrame codec tables hashing m info now raw).manager := by
  obtain ⟨replies,confined,kept,idle⟩ := @onFrame_keeps codec tables hashing κ ω _ m info now raw
  have returns := @onFrame_returns_iff codec tables hashing κ ω _ m info now encodes accepted raw
  exact ⟨⟨fun survives => returns.mp survives.returns,fun harmless => ⟨returns.mpr harmless,replies,confined,idle⟩⟩,kept accepted⟩

end

/-- A decoder that knows the two texts of empty containers. -/
def emptyCodec : FrameCodec where
  loads raw := if raw = "[]" then .ok (.arr []) else if raw = "\x7b\x7d" then .ok (.obj []) else .error .jsonDecodeError
  format _ := some ""
  encodes _ := true

/-- An empty list has no `get`, however connections hash. -/
theorem list_frame_not_survived :
    ¬ Survives emptyCodec Channels.ascii .byIdentity Channels.noClients 0 0 "[]" ∧
    ¬ Survives emptyCodec Channels.ascii ConnectionInfo.hashing Channels.noClients 0 0 "[]" := by
  have raised (hashing : Hashing) : (onFrame emptyCodec Channels.ascii hashing Channels.noClients 0 0 "[]").raised =
      some (.python .attributeError) := rfl
  constructor
  · intro survives
    have returned := survives.returns
    rw [raised] at returned
    cases returned
  · intro survives
    have returned := survives.returns
    rw [raised] at returned
    cases returned

/-- The text of a subscription to one channel, and its value. -/
def subscribeText (ch : String) : String := "\x7b\"action\": \"subscribe\", \"channels\": [\"" ++ ch ++ "\"]\x7d"
def subscribeJson (ch : String) : Json := .obj [("action",.str "subscribe"),("channels",.arr [.str ch])]
/-- A decoder that knows two of these texts besides; the replacement character stands for the lone
    surrogate of the second one, which is not encoded. -/
def surrogateCodec : FrameCodec where
  loads raw :=
    if raw = subscribeText "funding" then .ok (subscribeJson "funding")
    else if raw = subscribeText "\\ud800" then .ok (subscribeJson "\uFFFD")
    else emptyCodec.loads raw
  format _ := some ""
  encodes v :=
    match v with
    | .arr items => !items.any (fun item => item.isStr "\uFFFD")
    | _ => true

theorem surrogateCodec_encodes : EncodesChannels surrogateCodec Channels.ascii := by
  intro list valid
  show (!(list.map Json.str).any (fun item => item.isStr "\uFFFD")) = true
  rw [Bool.not_eq_true',List.any_eq_false]
  intro item member
  obtain ⟨ch,inside,rfl⟩ := List.mem_map.mp member
  rw [Json.isStr,decide_eq_true_eq]
  rintro rfl
  exact absurd (valid _ inside) (by decide)

/-- Where connections hash, the subscription to a channel is survived, and that to a lone surrogate is not. -/
theorem subscriptions_survived :
    Survives surrogateCodec Channels.ascii .byIdentity Channels.noClients 0 0 (subscribeText "funding") ∧
    ¬ Survives surrogateCodec Channels.ascii .byIdentity Channels.noClients 0 0 (subscribeText "\\ud800") := by
  have nobody : Accepted Channels.ascii Channels.noClients := fun _ _ impossible => by cases impossible
  obtain ⟨funding,-⟩ := survives_iff surrogateCodec Channels.ascii .byIdentity Channels.noClients 0 0 surrogateCodec_encodes nobody
    (subscribeText "funding")
  obtain ⟨surrogate,-⟩ := survives_iff surrogateCodec Channels.ascii .byIdentity Channels.noClients 0 0 surrogateCodec_encodes nobody
    (subscribeText "\\ud800")
  rw [funding,surrogate]
  constructor
  · refine ⟨rfl,fun action read => ?_⟩
    cases read
    exact ⟨_,["funding"],rfl,.inl rfl,rfl⟩
  · rintro ⟨-,harmless⟩
    obtain ⟨_,texts,read,-,sent⟩ := harmless (.str "subscribe") rfl
    cases texts with
    | nil => cases read
    | cons ch rest =>
      cases rest with
      | nil =>
        cases read
        revert sent
        decide
      | cons _ _ => cases read

end FundingStream
end FundingRadar
