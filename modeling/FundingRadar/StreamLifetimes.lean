import FundingRadar.Broadcast
import FundingRadar.MessageLoop

/-!
The connections of `/ws/funding`, each from its endpoint's `connect` to the `finally` that
disconnects it, among the heartbeat, the broadcasts and the frames of the other clients, cut at
their awaits. A connection is registered until its endpoint ends or a send to it fails, and then
nothing of it is left; a round of the heartbeat takes out whoever misses its ping, and nobody
else (`streams_tidy`). The registry is keyed by `id(ws)`, which another socket may get once
nobody refers to the first.
-/
namespace FundingRadar
open Runs

/-- Where the endpoint of a connection stands. -/
inductive EndpointPhase
  | outside
  | serving
  /-- On its way to the `finally` clause. -/
  | leaving
  | ended
deriving DecidableEq

/-- Where `_heartbeat_loop` stands. -/
inductive Heartbeat (κ : Type)
  | sleeping
  /-- With the connections of the round, and how the pings so far have ended. -/
  | pinging (infos : List κ) (results : List SendResult)
  /-- With the dead ones that it has not disconnected. -/
  | cleaning (infos : List κ) (results : List SendResult) (left : List κ)
  /-- By an exception. -/
  | failed
  /-- By `stop`. -/
  | stopped

/-- The registry, the endpoints, the heartbeat, and the connections that broadcasts send to. -/
structure Streams (κ ω : Type) where
  manager : WebSocketManager κ ω
  phase : κ → EndpointPhase
  heartbeat : Heartbeat κ
  sending : List κ

namespace Heartbeat
variable {κ : Type}

/-- The list `dead`. -/
def dead (infos : List κ) (results : List SendResult) : List κ :=
  (infos.zip results).filterMap (fun e => if e.2 = SendResult.raised then some e.1 else none)

/-- The loops of a round, after some pings. -/
def after (infos : List κ) (results : List SendResult) : Heartbeat κ :=
  if results.length < infos.length then .pinging infos results
  else if dead infos results = [] then .sleeping
  else .cleaning infos results (dead infos results)

/-- The connections that the loop refers to. -/
def infos : Heartbeat κ → List κ
  | .pinging infos _ => infos
  | .cleaning infos _ _ => infos
  | _ => []

/-- The round is over. -/
def Sleeps : Heartbeat κ → Bool
  | .sleeping => true
  | _ => false

end Heartbeat

namespace Streams

/-- What is done between two awaits. -/
inductive Action (κ : Type)
  /-- `connect`, for the endpoint of a new connection. -/
  | connect (info : κ)
  /-- The message loop receives a frame. -/
  | frame (info : κ) (raw : String) (now : ℤ)
  /-- The socket of the endpoint, or its task, is done for. -/
  | fail (info : κ)
  /-- The `finally` clause of the endpoint. -/
  | leave (info : κ)
  /-- The heartbeat takes the connections of a round. -/
  | wake
  /-- The ping of the next connection ends. -/
  | ping (connected : Bool) (sendJson : SendResult)
  /-- The heartbeat disconnects the next dead connection. -/
  | clean
  /-- A broadcast takes its snapshot. -/
  | broadcast (channel : String)
  /-- A broadcast is done with one of its connections, which it disconnects where the send failed. -/
  | settled (i : ℕ) (failed : Bool)
  | stop

/-- What a run leaves a trace of. -/
inductive Entry (κ : Type)
  /-- A ping failed. -/
  | missed (info : κ)
  /-- The heartbeat, or a broadcast, has disconnected the connection. -/
  | dead (info : κ)
  | lost (info : κ)
  /-- A round of the heartbeat is over. -/
  | beat (infos : List κ) (results : List SendResult)

def Entry.removed? {κ : Type} : Entry κ → Option κ
  | .dead info => some info
  | .lost info => some info
  | _ => none
def Entry.beat? {κ : Type} : Entry κ → Option (List κ × List SendResult)
  | .beat infos results => some (infos,results)
  | _ => none
/-- The connections that have been taken out, and the rounds. -/
def removed {κ : Type} (out : List (Entry κ)) : List κ := out.filterMap Entry.removed?
def beats {κ : Type} (out : List (Entry κ)) : List (List κ × List SendResult) := out.filterMap Entry.beat?

section
variable {κ ω : Type} [DecidableEq κ] [DecidableEq ω] (ws : κ → ω) (codec : FrameCodec) (tables : CharTables) (hashing : Hashing)

/-- Nobody is connected. -/
def init : Streams κ ω := ⟨.init,fun _ => .outside,.sleeping,[]⟩

def step (s : Streams κ ω) : Action κ → Streams κ ω
  | .connect info =>
    if s.phase info = .outside then
      { s with manager := s.manager.connect ws info, phase := Function.update s.phase info .serving } else s
  | .frame info raw now =>
    if s.phase info = .serving then
      { s with
        manager := (FundingStream.onFrame codec tables hashing s.manager info now raw).manager
        phase := if (FundingStream.onFrame codec tables hashing s.manager info now raw).raised = none then s.phase
          else Function.update s.phase info .leaving } else s
  | .fail info => if s.phase info = .serving then { s with phase := Function.update s.phase info .leaving } else s
  | .leave info =>
    if s.phase info = .leaving then
      { s with manager := (s.manager.disconnect ws hashing info).1, phase := Function.update s.phase info .ended } else s
  | .wake => if s.heartbeat.Sleeps then { s with heartbeat := .after s.manager.connections.values [] } else s
  | .ping connected sendJson =>
    match s.heartbeat with
    | .pinging infos results => { s with heartbeat := .after infos (results ++ [safeSend connected sendJson]) }
    | _ => s
  | .clean =>
    match s.heartbeat with
    | .cleaning infos results (info :: left) =>
      { s with
        manager := (s.manager.disconnect ws hashing info).1
        heartbeat := if (s.manager.disconnect ws hashing info).2 ≠ none then .failed
          else if left = [] then .sleeping else .cleaning infos results left }
    | _ => s
  | .broadcast channel => { s with sending := s.sending ++ s.manager.members channel }
  | .settled i failed =>
    match s.sending[i]? with
    | none => s
    | some info =>
      { s with
        manager := if failed then (s.manager.disconnect ws hashing info).1 else s.manager
        sending := s.sending.eraseIdx i }
  | .stop => { s with heartbeat := .stopped }

/-- What a step leaves a trace of. -/
def record (s : Streams κ ω) : Action κ → List (Entry κ)
  | .wake =>
    if s.heartbeat.Sleeps ∧ (Heartbeat.after s.manager.connections.values []).Sleeps then
      [.beat s.manager.connections.values []] else []
  | .ping connected sendJson =>
    match s.heartbeat with
    | .pinging infos results =>
      (if safeSend connected sendJson = .raised then infos[results.length]?.toList.map .missed else []) ++
        if (Heartbeat.after infos (results ++ [safeSend connected sendJson])).Sleeps then
          [.beat infos (results ++ [safeSend connected sendJson])] else []
    | _ => []
  | .clean =>
    match s.heartbeat with
    | .cleaning infos results (info :: left) =>
      .dead info :: if (s.manager.disconnect ws hashing info).2 = none ∧ left = [] then [.beat infos results] else []
    | _ => []
  | .settled i true => (s.sending[i]?).toList.map .lost
  | _ => []

def run (s : Streams κ ω) (actions : List (Action κ)) : Streams κ ω := actions.foldl (step ws codec tables hashing) s
def trace (s : Streams κ ω) (actions : List (Action κ)) : List (Entry κ) :=
  outputs (step ws codec tables hashing) (record ws hashing) s actions

/-- The endpoint of the connection is between its `connect` and its `disconnect`. -/
def Open (s : Streams κ ω) (info : κ) : Prop := s.phase info = .serving ∨ s.phase info = .leaving
/-- Something refers to the connection, and with it to its socket. -/
def Holds (s : Streams κ ω) (info : κ) : Prop := s.Open info ∨ info ∈ s.sending ∨ info ∈ s.heartbeat.infos

/-- A new socket gets an identity that no socket has to which something refers. -/
def Allocated (s : Streams κ ω) : Action κ → Prop
  | .connect info => ∀ other, other ≠ info → s.Holds other → ws other ≠ ws info
  | _ => True

instance (s : Streams κ ω) (info : κ) : Decidable (s.Open info) := inferInstanceAs (Decidable (_ ∨ _))
instance (s : Streams κ ω) (info : κ) : Decidable (s.Holds info) := inferInstanceAs (Decidable (_ ∨ _))

/-- `stats["total_connections"]`. -/
def totalConnections (s : Streams κ ω) : ℕ := s.manager.connections.entries.length

/-- What holds after a run. -/
structure Tidy (actions : List (Action κ)) : Prop where
  /-- A connection is registered from its `connect` until it is disconnected, by whoever. -/
  registered : ∀ info, (run ws codec tables hashing init actions).manager.Registered ws info ↔
    (run ws codec tables hashing init actions).Open info ∧ info ∉ removed (trace ws codec tables hashing init actions)
  counted : ∃ infos : List κ, infos.Nodup ∧ infos.length = (run ws codec tables hashing init actions).totalConnections ∧
    ∀ info, info ∈ infos ↔ (run ws codec tables hashing init actions).manager.Registered ws info
  /-- Nothing is left of a connection whose endpoint has ended. -/
  gone : ∀ info, ¬ (run ws codec tables hashing init actions).Open info →
    ∀ ch, info ∉ (run ws codec tables hashing init actions).manager.members ch
  /-- The heartbeat never ends by itself. -/
  beating : (run ws codec tables hashing init actions).heartbeat ≠ .failed
  /-- It takes out nobody whose pings succeed, and by the end of its round whoever missed one. -/
  spared : ∀ info, .dead info ∈ trace ws codec tables hashing init actions →
    .missed info ∈ trace ws codec tables hashing init actions
  cleaned : ∀ infos results, .beat infos results ∈ trace ws codec tables hashing init actions →
    results.length = infos.length ∧ ∀ info, (info,SendResult.raised) ∈ infos.zip results →
      ¬ (run ws codec tables hashing init actions).manager.Registered ws info
  /-- A round pings who was registered when it began. -/
  pinged : ∀ before after, actions = before ++ .wake :: after → (run ws codec tables hashing init before).heartbeat.Sleeps →
    ∀ round rest, beats (trace ws codec tables hashing (run ws codec tables hashing init before) (.wake :: after)) = round :: rest →
      ∀ info, info ∈ round.1 ↔ (run ws codec tables hashing init before).manager.Registered ws info

end
end Streams

/-! ### Registries, however their connections hash -/

namespace WebSocketManager
variable {κ ω : Type} [DecidableEq κ] {hashing : Hashing} {m : WebSocketManager κ ω}

/-- Who is in a channel has it among its own, and nobody is where connections do not hash. -/
structure Sound (hashing : Hashing) (m : WebSocketManager κ ω) : Prop where
  indexed : ∀ info ch, info ∈ m.members ch → ch ∈ m.clientChannels info
  unhashed : hashing ≠ .byIdentity → ∀ info, m.clientChannels info = []

omit [DecidableEq κ] in
theorem Sound.init (hashing : Hashing) : Sound hashing (init : WebSocketManager κ ω) :=
  ⟨(fun _ _ impossible => by cases impossible),fun _ _ => rfl⟩

omit [DecidableEq κ] in
theorem Sound.members_nil (sound : Sound hashing m) (unhashed : hashing ≠ .byIdentity) (info : κ) (ch : String) :
    info ∉ m.members ch := by
  intro member
  have own := sound.indexed info ch member
  rw [sound.unhashed unhashed] at own
  cases own

theorem Sound.subscribeTo (sound : Sound hashing m) (info : κ) (ch : String) : Sound hashing (m.subscribeTo hashing info ch).1 := by
  by_cases identity : hashing = .byIdentity
  · subst identity
    obtain ⟨-,-,members,clients⟩ := subscribeTo_byIdentity m info ch
    refine ⟨fun x c member => ?_,fun impossible => absurd rfl impossible⟩
    exact (clients x c).mpr (((members x c).mp member).imp_left (sound.indexed x c))
  · have entered := members_entered m ch
    have same : (m.subscribeTo hashing info ch).1 =
        if (m.channels.get? ch).isSome then m else { m with channels := m.channels.insert ch [] } := by
      simp only [WebSocketManager.subscribeTo,setAdd,if_neg identity]
    have clients : (m.subscribeTo hashing info ch).1.clientChannels = m.clientChannels := by
      rw [same]
      split
      · rfl
      · rfl
    refine ⟨fun x c member => ?_,fun _ => ?_⟩
    · rw [same,entered] at member
      rw [clients]
      exact sound.indexed x c member
    · rw [clients]
      exact sound.unhashed identity

theorem Sound.unsubscribeFrom (sound : Sound hashing m) (info : κ) (ch : String) :
    Sound hashing (m.unsubscribeFrom hashing info ch).1 := by
  by_cases identity : hashing = .byIdentity
  · subst identity
    obtain ⟨-,-,members,clients⟩ := unsubscribeFrom_byIdentity m info ch
    refine ⟨fun x c member => ?_,fun impossible => absurd rfl impossible⟩
    exact (clients x c).mpr (((members x c).mp member).imp_left (sound.indexed x c))
  · have raised : m.discard hashing ch info = .error .typeError := by
      rw [discard,setDiscard,if_neg identity]
      rfl
    rw [WebSocketManager.unsubscribeFrom,raised]
    exact sound

theorem Sound.unsubscribeFromAny (sound : Sound hashing m) (info : κ) (ch : Json) :
    Sound hashing (m.unsubscribeFromAny hashing info ch).1 := by
  unfold WebSocketManager.unsubscribeFromAny
  split
  · exact sound
  · exact sound.unsubscribeFrom info _
  · split
    · exact sound
    · exact sound

theorem Sound.connect [DecidableEq ω] (sound : Sound hashing m) {ws : κ → ω} {info : κ} (unknown : ∀ ch, info ∉ m.members ch) :
    Sound hashing (m.connect ws info) := by
  refine ⟨fun x ch member => ?_,fun unhashed x => ?_⟩
  · have apart : x ≠ info := by
      rintro rfl
      exact unknown ch member
    exact (congrArg (ch ∈ ·) (Function.update_of_ne apart ..)).to_iff.mpr (sound.indexed x ch member)
  · by_cases same : x = info
    · subst same
      exact Function.update_self ..
    · exact (Function.update_of_ne same ..).trans (sound.unhashed unhashed x)

/-- A disconnection returns and takes the connection out of everything. -/
theorem Sound.disconnect [DecidableEq ω] (sound : Sound hashing m) (ws : κ → ω) (info : κ) :
    (m.disconnect ws hashing info).2 = none ∧ Sound hashing (m.disconnect ws hashing info).1 ∧
      (m.disconnect ws hashing info).1.connections = m.connections.erase (ws info) ∧
        ∀ x ch, x ∈ (m.disconnect ws hashing info).1.members ch ↔ x ∈ m.members ch ∧ x ≠ info := by
  by_cases identity : hashing = .byIdentity
  · subst identity
    obtain ⟨connections,clients,members⟩ := disconnect_byIdentity ws m info
    have left : ∀ x ch, x ∈ (m.disconnect ws .byIdentity info).1.members ch ↔ x ∈ m.members ch ∧ x ≠ info := by
      intro x ch
      rw [members,and_congr_right_iff]
      intro member
      refine not_congr ⟨And.left,?_⟩
      rintro rfl
      exact ⟨rfl,sound.indexed _ ch member⟩
    refine ⟨?_,⟨fun x ch member => ?_,fun impossible => absurd rfl impossible⟩,connections,left⟩
    · rw [WebSocketManager.disconnect,forEach_eq_foldl fun m ch => (leave_byIdentity m info ch).1]
    · rw [clients]
      exact sound.indexed x ch ((left x ch).mp member).1
  · have nothing : m.disconnect ws hashing info = ({ m with connections := m.connections.erase (ws info) },none) := by
      rw [WebSocketManager.disconnect,sound.unhashed identity]
      rfl
    rw [nothing]
    refine ⟨rfl,⟨sound.indexed,sound.unhashed⟩,rfl,fun x ch => ?_⟩
    exact iff_of_false (sound.members_nil identity x ch) fun both => sound.members_nil identity x ch both.1

end WebSocketManager

namespace FundingStream
open WebSocketManager
variable {κ ω : Type} [DecidableEq κ] {codec : FrameCodec} {tables : CharTables} {hashing : Hashing} {m : WebSocketManager κ ω}

theorem onFrame_sound (sound : Sound hashing m) (info : κ) (now : ℤ) (raw : String) :
    Sound hashing (onFrame codec tables hashing m info now raw).manager := by
  have subscribed : ∀ channels, Sound hashing (m.subscribe hashing info channels).1 := fun channels =>
    forEach_keeps (Sound hashing) (fun m ch _ sound => sound.subscribeTo info ch) sound
  have unsubscribed : ∀ channels, Sound hashing (forEach (unsubscribeFromAny hashing info) m channels).1 := fun channels =>
    forEach_keeps (Sound hashing) (fun m ch _ sound => sound.unsubscribeFromAny info ch) sound
  unfold onFrame
  split
  · exact sound
  · exact sound
  · next msg loaded =>
    split
    · exact sound
    · split
      · unfold onSubscribe
        split
        · exact sound
        · next valid invalid read =>
          have asked : Sound hashing (if valid = [] then (m,none) else m.subscribe hashing info valid).1 := by
            split
            · exact sound
            · exact subscribed valid
          split
          · next after =>
            rw [after] at asked
            exact asked
          · next after =>
            rw [after] at asked
            split
            · exact asked
            · exact asked
      · split
        · unfold onUnsubscribe
          split
          · exact sound
          · next channels list read =>
            have asked := unsubscribed list
            split
            · next after =>
              rw [after] at asked
              exact asked
            · next after =>
              rw [after] at asked
              split
              · exact asked
              · exact asked
        · split
          · exact sound
          · split
            · exact sound
            · exact sound

/-- Who disconnects keeps its own channels. -/
theorem leave_accepted (hashing : Hashing) (info : κ) (ch : String) (accepted : Accepted tables m) :
    Accepted tables (m.leave hashing info ch).1 := by
  unfold leave WebSocketManager.discard
  cases setDiscard hashing (m.members ch) info with
  | error e => exact accepted
  | ok left =>
    intro other ch' member
    dsimp only [bind,Except.bind,pure,Except.pure] at member
    rw [clientChannels_dropEmpty] at member
    split at member
    · exact accepted other ch' member
    · exact accepted other ch' member
theorem disconnect_accepted {ω : Type} [DecidableEq ω] {m : WebSocketManager κ ω} (ws : κ → ω) (hashing : Hashing) (info : κ)
    (accepted : Accepted tables m) : Accepted tables (m.disconnect ws hashing info).1 := by
  have kept : Accepted tables { m with connections := m.connections.erase (ws info) } := accepted
  exact forEach_keeps (Accepted tables) (fun m ch _ kept => leave_accepted hashing info ch kept) kept

end FundingStream

namespace Streams
variable {κ ω : Type} [DecidableEq κ] [DecidableEq ω] {ws : κ → ω} {codec : FrameCodec} {tables : CharTables} {hashing : Hashing}
  {s s' : Streams κ ω} {gone : List κ}

theorem step_accepted (s : Streams κ ω) (accepted : FundingStream.Accepted tables s.manager) (a : Action κ) :
    FundingStream.Accepted tables (s.step ws codec tables hashing a).manager := by
  cases a with
  | connect info =>
    rw [Streams.step]
    split
    · intro other ch member
      dsimp only [WebSocketManager.connect] at member
      by_cases same : other = info
      · rw [same,Function.update_self] at member
        cases member
      · rw [Function.update_of_ne same] at member
        exact accepted other ch member
    · exact accepted
  | frame info raw now =>
    rw [Streams.step]
    split
    · exact (FundingStream.onFrame_keeps raw).2.2.1 accepted
    · exact accepted
  | leave info =>
    rw [Streams.step]
    split
    · exact FundingStream.disconnect_accepted ws hashing info accepted
    · exact accepted
  | clean =>
    rw [Streams.step]
    split
    · exact FundingStream.disconnect_accepted ws hashing _ accepted
    · exact accepted
  | settled i failed =>
    rw [Streams.step]
    split
    · exact accepted
    · cases failed with
      | true => exact FundingStream.disconnect_accepted ws hashing _ accepted
      | false => exact accepted
  | fail info =>
    rw [Streams.step]
    split
    · exact accepted
    · exact accepted
  | wake =>
    rw [Streams.step]
    split
    · exact accepted
    · exact accepted
  | ping connected sendJson =>
    rw [Streams.step]
    split
    · exact accepted
    · exact accepted
  | broadcast channel => exact accepted
  | stop => exact accepted

/-- Whatever the clients send, they are in valid channels only. -/
theorem run_accepted (ws : κ → ω) (codec : FrameCodec) (tables : CharTables) (hashing : Hashing) (actions : List (Action κ)) :
    FundingStream.Accepted tables (run ws codec tables hashing init actions).manager := by
  have empty : FundingStream.Accepted tables (init : Streams κ ω).manager := fun _ _ impossible => by cases impossible
  exact List.foldlRecOn actions (step ws codec tables hashing) (motive := fun s => FundingStream.Accepted tables s.manager) empty
    fun s accepted a _ => s.step_accepted accepted a

/-! ### The registry among the endpoints -/

/-- The registry holds the connections of the open endpoints, less those that are gone. -/
structure Consistent (ws : κ → ω) (hashing : Hashing) (gone : List κ) (s : Streams κ ω) : Prop where
  sound : s.manager.Sound hashing
  entered : ∀ k i, s.manager.connections.get? k = some i → ws i = k ∧ s.Open i ∧ i ∉ gone
  registered : ∀ i, s.Open i → i ∉ gone → s.manager.Registered ws i
  member : ∀ i ch, i ∈ s.manager.members ch → s.Open i
  apart : ∀ i j, s.Holds i → s.Holds j → ws i = ws j → i = j
  begun : ∀ i, s.Holds i ∨ i ∈ gone → s.phase i ≠ .outside

omit [DecidableEq κ] in
theorem Consistent.init : Consistent ws hashing [] (init : Streams κ ω) := by
  have closed : ∀ i, ¬ (Streams.init : Streams κ ω).Holds i := by
    rintro i ((served | left) | sent | pinged)
    · cases served
    · cases left
    · cases sent
    · cases pinged
  refine ⟨.init hashing,(fun _ _ impossible => by cases impossible),fun i opened => absurd (.inl opened) (closed i),
    (fun _ _ impossible => by cases impossible),fun i _ held => absurd held (closed i),?_⟩
  rintro i (held | impossible)
  · exact absurd held (closed i)
  · cases impossible

omit [DecidableEq κ] in
theorem Consistent.registered_iff (consistent : Consistent ws hashing gone s) (info : κ) :
    s.manager.Registered ws info ↔ s.Open info ∧ info ∉ gone :=
  ⟨fun found => (consistent.entered _ _ found).2,fun both => consistent.registered info both.1 both.2⟩

omit [DecidableEq κ] in
theorem Consistent.mem_values_iff (consistent : Consistent ws hashing gone s) (info : κ) :
    info ∈ s.manager.connections.values ↔ s.manager.Registered ws info := by
  rw [Dict.mem_values_iff]
  constructor
  · rintro ⟨k,found⟩
    have key := (consistent.entered k info found).1
    subst key
    exact found
  · exact fun found => ⟨_,found⟩

omit [DecidableEq κ] in
/-- Nobody connects or is disconnected, and nothing new is referred to. -/
theorem Consistent.kept (consistent : Consistent ws hashing gone s) (sound : s'.manager.Sound hashing)
    (connections : s'.manager.connections = s.manager.connections)
    (members : ∀ i ch, i ∈ s'.manager.members ch → i ∈ s.manager.members ch ∨ s.Open i)
    (opened : ∀ i, s'.Open i ↔ s.Open i) (held : ∀ i, s'.Holds i → s.Holds i)
    (outside : ∀ i, s'.phase i = .outside → s.phase i = .outside) : Consistent ws hashing gone s' where
  sound := sound
  entered k i found := by
    rw [connections] at found
    rw [opened]
    exact consistent.entered k i found
  registered i served kept := by
    have found := consistent.registered i ((opened i).mp served) kept
    rw [WebSocketManager.Registered] at found ⊢
    rw [connections]
    exact found
  member i ch member := (opened i).mpr ((members i ch member).elim (consistent.member i ch) id)
  apart i j first second same := consistent.apart i j (held i first) (held j second) same
  begun i known none := consistent.begun i (known.imp_left (held i)) (outside i none)

/-- A connection to which something refers is disconnected; where its endpoint stays, it is gone. -/
theorem Consistent.taken (consistent : Consistent ws hashing gone s) {info : κ} (holds : s.Holds info) {gone' : List κ}
    (manager : s'.manager = (s.manager.disconnect ws hashing info).1)
    (opened : ∀ i, i ≠ info → (s'.Open i ↔ s.Open i)) (own : s'.Open info → info ∈ gone')
    (went : ∀ i, i ∈ gone' → i ∈ gone ∨ i = info) (stay : ∀ i, i ∈ gone → i ∈ gone') (held : ∀ i, s'.Holds i → s.Holds i)
    (outside : ∀ i, s'.phase i = .outside → s.phase i = .outside) : Consistent ws hashing gone' s' := by
  obtain ⟨-,sound,connections,members⟩ := consistent.sound.disconnect ws info
  rw [← manager] at sound connections members
  refine ⟨sound,fun k i found => ?_,fun i served kept => ?_,fun i ch member => ?_,?_,fun i known none => ?_⟩
  · rw [connections,Dict.get?_erase] at found
    split at found
    · cases found
    · next other =>
      obtain ⟨rfl,served,kept⟩ := consistent.entered k i found
      have differ : i ≠ info := fun same => other (congrArg ws same)
      exact ⟨rfl,(opened i differ).mpr served,fun later => (went i later).elim kept differ⟩
  · have differ : i ≠ info := fun same => kept (same ▸ own (same ▸ served))
    have before := (opened i differ).mp served
    have other : ws i ≠ ws info := fun same => differ (consistent.apart i info (.inl before) holds same)
    rw [WebSocketManager.Registered,connections,Dict.get?_erase,if_neg other]
    exact consistent.registered i before (fun went => kept (stay i went))
  · obtain ⟨inside,differ⟩ := (members i ch).mp member
    exact (opened i differ).mpr (consistent.member i ch inside)
  · exact fun i j first second same => consistent.apart i j (held i first) (held j second) same
  · have before : s.Holds i ∨ i ∈ gone ∨ i = info := known.imp (held i) (went i)
    have begun : s.Holds i ∨ i ∈ gone := by
      rcases before with here | earlier | same
      · exact .inl here
      · exact .inr earlier
      · exact .inl (same ▸ holds)
    exact consistent.begun i begun (outside i none)

/-- A new connection, to whose socket nothing refers. -/
theorem Consistent.connected (consistent : Consistent ws hashing gone s) {info : κ} (new : s.phase info = .outside)
    (allocated : ∀ other, other ≠ info → s.Holds other → ws other ≠ ws info) (manager : s'.manager = s.manager.connect ws info)
    (phase : s'.phase = Function.update s.phase info .serving) (held : ∀ i, s'.Holds i → i = info ∨ s.Holds i) :
    Consistent ws hashing gone s' := by
  have absent : ¬ s.Holds info := fun held => consistent.begun info (.inl held) new
  have fresh : info ∉ gone := fun went => consistent.begun info (.inr went) new
  have own : s'.phase info = .serving := by
    rw [phase]
    exact Function.update_self ..
  have other : ∀ i, i ≠ info → s'.phase i = s.phase i := by
    intro i differ
    rw [phase]
    exact Function.update_of_ne differ ..
  have opened : ∀ i, s'.Open i ↔ i = info ∨ s.Open i := by
    intro i
    by_cases same : i = info
    · subst same
      exact iff_of_true (.inl own) (.inl rfl)
    · rw [Open,other i same]
      exact (or_iff_right same).symm
  have apart : ∀ i, s.Holds i → ws i ≠ ws info := fun i before => allocated i (fun same => absent (same ▸ before)) before
  refine ⟨?_,fun k i found => ?_,fun i serving kept => ?_,fun i ch member => ?_,fun i j first second same => ?_,
    fun i known none => ?_⟩
  · rw [manager]
    exact consistent.sound.connect fun ch member => absent (.inl (consistent.member info ch member))
  · rw [manager,WebSocketManager.connect,Dict.get?_insert] at found
    rw [opened]
    split at found
    · next key =>
      obtain rfl := Option.some.inj found
      exact ⟨key.symm,.inl rfl,fresh⟩
    · obtain ⟨key,serving,kept⟩ := consistent.entered k i found
      exact ⟨key,.inr serving,kept⟩
  · rw [WebSocketManager.Registered,manager,WebSocketManager.connect,Dict.get?_insert]
    rcases (opened i).mp serving with rfl | before
    · exact if_pos rfl
    · rw [if_neg (apart i (.inl before))]
      exact consistent.registered i before kept
  · rw [manager] at member
    exact (opened i).mpr (.inr (consistent.member i ch member))
  · rcases held i first with rfl | before
    · exact (held j second).elim Eq.symm fun other => absurd same.symm (apart j other)
    · rcases held j second with rfl | other
      · exact absurd same (apart i before)
      · exact consistent.apart i j before other same
  · have differ : i ≠ info := by
      rintro rfl
      rw [own] at none
      cases none
    rw [other i differ] at none
    exact consistent.begun i (known.imp_left fun now => (held i now).resolve_left differ) none

/-! ### The rounds of the heartbeat -/

variable {out : List (Entry κ)} {infos left : List κ} {results : List SendResult} {i : κ}

omit [DecidableEq κ] in
theorem mem_removed : i ∈ removed out ↔ .dead i ∈ out ∨ .lost i ∈ out := by
  rw [removed,List.mem_filterMap]
  constructor
  · rintro ⟨entry,member,is⟩
    cases entry with
    | dead info =>
      obtain rfl := Option.some.inj is
      exact .inl member
    | lost info =>
      obtain rfl := Option.some.inj is
      exact .inr member
    | missed info => cases is
    | beat infos results => cases is
  · rintro (dead | lost)
    · exact ⟨_,dead,rfl⟩
    · exact ⟨_,lost,rfl⟩

omit [DecidableEq κ] in
theorem removed_append (more : List (Entry κ)) : removed (out ++ more) = removed out ++ removed more := List.filterMap_append

omit [DecidableEq κ] in
theorem mem_dead : i ∈ Heartbeat.dead infos results ↔ (i,SendResult.raised) ∈ infos.zip results := by
  rw [Heartbeat.dead,List.mem_filterMap]
  constructor
  · rintro ⟨⟨j,r⟩,member,is⟩
    dsimp only at is
    split at is
    · next raised =>
      obtain rfl := Option.some.inj is
      obtain rfl := raised
      exact member
    · cases is
  · exact fun member => ⟨_,member,rfl⟩

omit [DecidableEq κ] in
theorem mem_zip_concat {r : SendResult} (member : (i,SendResult.raised) ∈ infos.zip (results ++ [r])) :
    (i,SendResult.raised) ∈ infos.zip results ∨ infos[results.length]? = some i ∧ r = .raised := by
  obtain ⟨n,at_⟩ := List.mem_iff_getElem?.mp member
  obtain ⟨first,second⟩ := List.getElem?_zip_eq_some.mp at_
  rcases Broadcasts.getElem?_concat_cases second with before | ⟨last,same⟩
  · exact .inl (List.mem_iff_getElem?.mpr ⟨n,List.getElem?_zip_eq_some.mpr ⟨first,before⟩⟩)
  · subst last
    exact .inr ⟨first,same.symm⟩

/-- Where the heartbeat stands in a round, given the trace. -/
def Round (out : List (Entry κ)) : Heartbeat κ → Prop
  | .pinging infos results => results.length < infos.length ∧ ∀ i, (i,SendResult.raised) ∈ infos.zip results → .missed i ∈ out
  | .cleaning infos results left =>
    results.length = infos.length ∧ (∀ i ∈ left, .missed i ∈ out ∧ i ∈ infos) ∧ left ≠ [] ∧
      ∀ i, (i,SendResult.raised) ∈ infos.zip results → i ∈ left ∨ .dead i ∈ out
  | .failed => False
  | _ => True

/-- The heartbeat disconnects whoever misses a ping, by the end of the round, and nobody else. -/
structure Beating (out : List (Entry κ)) (beat : Heartbeat κ) : Prop where
  spared : ∀ i, .dead i ∈ out → .missed i ∈ out
  finished : ∀ infos results, .beat infos results ∈ out → results.length = infos.length ∧
    ∀ i, (i,SendResult.raised) ∈ infos.zip results → .dead i ∈ out
  round : Round out beat

omit [DecidableEq κ] in
theorem Round.mono {more : List (Entry κ)} {beat : Heartbeat κ} (round : Round out beat) : Round (out ++ more) beat := by
  cases beat with
  | pinging infos results => exact ⟨round.1,fun i raised => List.mem_append_left _ (round.2 i raised)⟩
  | cleaning infos results left =>
    obtain ⟨whole,missed,some,raised⟩ := round
    exact ⟨whole,fun i member => ⟨List.mem_append_left _ (missed i member).1,(missed i member).2⟩,some,
      fun i fails => (raised i fails).imp_right (List.mem_append_left _)⟩
  | failed => exact round
  | sleeping => trivial
  | stopped => trivial

omit [DecidableEq κ] in
theorem Beating.kept {before : Heartbeat κ} (beating : Beating out before) {more : List (Entry κ)} {beat : Heartbeat κ}
    (spared : ∀ i, .dead i ∈ more → .missed i ∈ out ++ more)
    (finished : ∀ infos results, .beat infos results ∈ more → results.length = infos.length ∧
      ∀ i, (i,SendResult.raised) ∈ infos.zip results → .dead i ∈ out ++ more)
    (round : Round (out ++ more) beat) : Beating (out ++ more) beat where
  spared i dead := by
    rcases List.mem_append.mp dead with earlier | now
    · exact List.mem_append_left _ (beating.spared i earlier)
    · exact spared i now
  finished infos results beaten := by
    rcases List.mem_append.mp beaten with earlier | now
    · obtain ⟨whole,dead⟩ := beating.finished infos results earlier
      exact ⟨whole,fun i raised => List.mem_append_left _ (dead i raised)⟩
    · exact finished infos results now
  round := round

omit [DecidableEq κ] in
/-- The loops of a round after some pings. -/
theorem after_round (within : results.length ≤ infos.length)
    (missed : ∀ i, (i,SendResult.raised) ∈ infos.zip results → .missed i ∈ out) :
    Round out (.after infos results) ∧
      ((Heartbeat.after infos results).Sleeps = true →
        results.length = infos.length ∧ ∀ i, (i,SendResult.raised) ∉ infos.zip results) := by
  unfold Heartbeat.after
  split
  · next more => exact ⟨⟨more,missed⟩,fun impossible => by cases impossible⟩
  · next all =>
    have whole := Nat.le_antisymm within (Nat.le_of_not_lt all)
    split
    · next none =>
      refine ⟨trivial,fun _ => ⟨whole,fun i raised => ?_⟩⟩
      have dead := mem_dead.mpr raised
      rw [none] at dead
      cases dead
    · next some =>
      refine ⟨⟨whole,fun i member => ?_,some,fun i raised => .inl (mem_dead.mpr raised)⟩,fun impossible => by cases impossible⟩
      have raised := mem_dead.mp member
      exact ⟨missed i raised,(List.of_mem_zip raised).1⟩

omit [DecidableEq κ] in
theorem after_infos (infos : List κ) (results : List SendResult) (held : i ∈ (Heartbeat.after infos results).infos) :
    i ∈ infos := by
  unfold Heartbeat.after at held
  split at held
  · exact held
  · split at held
    · cases held
    · exact held

/-! ### Steps -/

omit [DecidableEq ω] in
/-- The endpoint of the connection is, or is not, on its way out now. -/
theorem open_leaving {info : κ} (serving : s.phase info = .serving)
    (phase : s'.phase = s.phase ∨ s'.phase = Function.update s.phase info .leaving) :
    (∀ i, s'.Open i ↔ s.Open i) ∧ ∀ i, s'.phase i = .outside → s.phase i = .outside := by
  have own : s'.phase info = .serving ∨ s'.phase info = .leaving := by
    rcases phase with phase | phase
    · exact .inl ((congrFun phase info).trans serving)
    · exact .inr ((congrFun phase info).trans (Function.update_self ..))
  have other : ∀ i, i ≠ info → s'.phase i = s.phase i := by
    intro i differ
    rcases phase with phase | phase
    · exact congrFun phase i
    · exact (congrFun phase i).trans (Function.update_of_ne differ ..)
  refine ⟨fun i => ?_,fun i none => ?_⟩
  · by_cases equal : i = info
    · subst equal
      exact iff_of_true own (.inl serving)
    · rw [Open,Open,other i equal]
  · have differ : i ≠ info := by
      rintro rfl
      rw [none] at own
      rcases own with impossible | impossible
      · cases impossible
      · cases impossible
    exact (other i differ).symm.trans none

omit [DecidableEq κ] in
/-- Nothing of the registry changes. -/
theorem Consistent.idle (consistent : Consistent ws hashing gone s) (manager : s'.manager = s.manager) (phase : s'.phase = s.phase)
    (held : ∀ i, i ∈ s'.sending ∨ i ∈ s'.heartbeat.infos → s.Holds i) : Consistent ws hashing gone s' := by
  have opened : ∀ i, s'.Open i ↔ s.Open i := by
    intro i
    rw [Open,Open,phase]
  refine consistent.kept (manager ▸ consistent.sound) (congrArg _ manager) (fun i ch member => .inl (manager ▸ member)) opened
    (fun i holds => ?_) (fun i none => phase ▸ none)
  exact holds.elim (fun open_ => .inl ((opened i).mp open_)) (held i)

theorem removed_silent {a : Action κ} (silent : removed (record ws hashing s a) = []) :
    removed (out ++ record ws hashing s a) = removed out := by
  rw [removed_append,silent,List.append_nil]

/-- The heartbeat, or a broadcast, disconnects the connection. -/
theorem Consistent.dropped (consistent : Consistent ws hashing (removed out) s) {info : κ} (holds : s.Holds info)
    {more : List (Entry κ)} (taken : removed more = [info]) (manager : s'.manager = (s.manager.disconnect ws hashing info).1)
    (phase : s'.phase = s.phase) (held : ∀ i, i ∈ s'.sending ∨ i ∈ s'.heartbeat.infos → s.Holds i) :
    Consistent ws hashing (removed (out ++ more)) s' := by
  have opened : ∀ i, s'.Open i ↔ s.Open i := by
    intro i
    rw [Open,Open,phase]
  have went : ∀ i, i ∈ removed (out ++ more) ↔ i ∈ removed out ∨ i = info := by
    intro i
    rw [removed_append,taken,List.mem_append,List.mem_singleton]
  refine consistent.taken holds manager (fun i _ => opened i) (fun _ => (went info).mpr (.inr rfl)) (fun i => (went i).mp)
    (fun i earlier => (went i).mpr (.inl earlier)) (fun i holds => ?_) (fun i none => phase ▸ none)
  exact holds.elim (fun open_ => .inl ((opened i).mp open_)) (held i)

/-- The `finally` clause of an endpoint. -/
theorem Consistent.closed (consistent : Consistent ws hashing gone s) {info : κ} (leaving : s.phase info = .leaving)
    (manager : s'.manager = (s.manager.disconnect ws hashing info).1) (phase : s'.phase = Function.update s.phase info .ended)
    (held : ∀ i, i ∈ s'.sending ∨ i ∈ s'.heartbeat.infos → s.Holds i) : Consistent ws hashing gone s' := by
  have ended : s'.phase info = .ended := by
    rw [phase]
    exact Function.update_self ..
  have other : ∀ i, i ≠ info → s'.phase i = s.phase i := by
    intro i differ
    rw [phase]
    exact Function.update_of_ne differ ..
  have shut : ¬ s'.Open info := by
    rw [Open,ended]
    rintro (impossible | impossible)
    · cases impossible
    · cases impossible
  have opened : ∀ i, i ≠ info → (s'.Open i ↔ s.Open i) := by
    intro i differ
    rw [Open,Open,other i differ]
  refine consistent.taken (.inl (.inr leaving)) manager opened (fun opened => absurd opened shut) (fun i => .inl) (fun i => id)
    (fun i holds => ?_) (fun i none => ?_)
  · refine holds.elim (fun open_ => ?_) (held i)
    have differ : i ≠ info := fun same => shut (same ▸ open_)
    exact .inl ((opened i differ).mp open_)
  · have differ : i ≠ info := by
      rintro rfl
      rw [ended] at none
      cases none
    exact (other i differ).symm.trans none

theorem Consistent.step (consistent : Consistent ws hashing (removed out) s) (beating : Beating out s.heartbeat) (a : Action κ)
    (allocated : Allocated ws s a) :
    Consistent ws hashing (removed (out ++ record ws hashing s a)) (s.step ws codec tables hashing a) := by
  cases a with
  | connect info =>
    rw [removed_silent rfl,Streams.step]
    split
    · next new =>
      refine consistent.connected new allocated rfl rfl fun i held => ?_
      by_cases equal : i = info
      · exact .inl equal
      · refine .inr (held.imp_left fun opened => ?_)
        have phase : Function.update s.phase info EndpointPhase.serving i = s.phase i := Function.update_of_ne equal ..
        rw [Open] at opened ⊢
        rw [← phase]
        exact opened
    · exact consistent
  | frame info raw now =>
    rw [removed_silent rfl,Streams.step]
    split
    · next serving =>
      obtain ⟨-,confined,-⟩ := @FundingStream.onFrame_keeps codec tables hashing κ ω _ s.manager info now raw
      have phases := @open_leaving κ ω _ s { s with
        manager := (FundingStream.onFrame codec tables hashing s.manager info now raw).manager
        phase := if (FundingStream.onFrame codec tables hashing s.manager info now raw).raised = none then s.phase
          else Function.update s.phase info .leaving } info serving (ite_eq_or_eq ..)
      refine consistent.kept (FundingStream.onFrame_sound consistent.sound ..) confined.connections (fun i ch member => ?_) phases.1
        (fun i => Or.imp_left (phases.1 i).mp) phases.2
      by_cases own : i = info
      · exact .inr (own ▸ .inl serving)
      · exact .inl ((confined.members i own ch).mp member)
    · exact consistent
  | fail info =>
    rw [removed_silent rfl,Streams.step]
    split
    · next serving =>
      have phases := @open_leaving κ ω _ s { s with phase := Function.update s.phase info .leaving } info serving (.inr rfl)
      exact consistent.kept consistent.sound rfl (fun i ch => .inl) phases.1 (fun i => Or.imp_left (phases.1 i).mp) phases.2
    · exact consistent
  | leave info =>
    rw [removed_silent rfl,Streams.step]
    split
    · next leaving => exact consistent.closed leaving rfl rfl fun i => Or.inr
    · exact consistent
  | wake =>
    have silent : removed (record ws hashing s .wake) = [] := by
      rw [record]
      split
      · rfl
      · rfl
    rw [removed_silent silent,Streams.step]
    split
    · refine consistent.idle rfl rfl fun i held => ?_
      refine held.elim (fun sent => .inr (.inl sent)) fun pinged => ?_
      have found := (consistent.mem_values_iff i).mp (after_infos _ [] pinged)
      exact .inl ((consistent.registered_iff i).mp found).1
    · exact consistent
  | ping connected sendJson =>
    have silent : removed (record ws hashing s (.ping connected sendJson)) = [] := by
      rw [record]
      split
      · next infos results _ =>
        have missed : removed (if safeSend connected sendJson = .raised then
            infos[results.length]?.toList.map .missed else []) = [] := by
          split
          · cases infos[results.length]? with
            | none => rfl
            | some info => rfl
          · rfl
        rw [removed_append,missed]
        split
        · rfl
        · rfl
      · rfl
    rw [removed_silent silent,Streams.step]
    split
    · next infos results beat =>
      refine consistent.idle rfl rfl fun i held => .inr (held.imp_right fun pinged => ?_)
      rw [beat]
      exact after_infos _ _ pinged
    · exact consistent
  | clean =>
    rw [record,Streams.step]
    cases beat : s.heartbeat with
    | cleaning infos results left =>
      cases left with
      | nil => exact congrArg removed (List.append_nil out) ▸ consistent
      | cons info left =>
        have round := beating.round
        rw [beat] at round
        have pinged : ∀ i ∈ infos, i ∈ s.heartbeat.infos := by
          rw [beat]
          exact fun i member => member
        refine consistent.dropped (.inr (.inr (pinged info (round.2.1 info (List.mem_cons_self ..)).2))) ?_ rfl rfl fun i held => ?_
        · dsimp only
          split
          · rfl
          · rfl
        · refine .inr (held.imp_right fun member => pinged i ?_)
          dsimp only at member
          split at member
          · cases member
          · split at member
            · cases member
            · exact member
    | _ => exact congrArg removed (List.append_nil out) ▸ consistent
  | broadcast channel =>
    rw [removed_silent rfl,Streams.step]
    refine consistent.idle rfl rfl fun i held => ?_
    rcases held with sent | pinged
    · rcases List.mem_append.mp sent with before | now
      · exact .inr (.inl before)
      · exact .inl (consistent.member i channel now)
    · exact .inr (.inr pinged)
  | settled n failed =>
    rw [Streams.step]
    cases at_ : s.sending[n]? with
    | none =>
      have silent : removed (record ws hashing s (.settled n failed)) = [] := by
        cases failed with
        | false => rfl
        | true => rw [record,at_]; rfl
      rw [removed_silent silent]
      exact consistent
    | some info =>
      have held : ∀ i, i ∈ s.sending.eraseIdx n ∨ i ∈ s.heartbeat.infos → s.Holds i := fun i held =>
        .inr (held.imp_left List.mem_of_mem_eraseIdx)
      cases failed with
      | false =>
        rw [removed_silent rfl]
        exact consistent.idle rfl rfl held
      | true =>
        rw [record,at_]
        exact consistent.dropped (.inr (.inl (List.mem_of_getElem? at_))) rfl rfl rfl held
  | stop =>
    rw [removed_silent rfl,Streams.step]
    refine consistent.idle rfl rfl fun i held => ?_
    rcases held with sent | pinged
    · exact .inr (.inl sent)
    · cases pinged

omit [DecidableEq κ] in
/-- Neither the heartbeat nor what it puts out changes. -/
theorem Beating.idle {beat : Heartbeat κ} (beating : Beating out beat) {more : List (Entry κ)}
    (silent : ∀ e ∈ more, ∃ i, e = .lost i) : Beating (out ++ more) beat := by
  refine beating.kept (fun i dead => ?_) (fun infos results beaten => ?_) beating.round.mono
  · obtain ⟨j,impossible⟩ := silent _ dead
    cases impossible
  · obtain ⟨j,impossible⟩ := silent _ beaten
    cases impossible

omit [DecidableEq κ] in
/-- The heartbeat goes on with the loops of a round. -/
theorem Beating.after {before : Heartbeat κ} (beating : Beating out before) {more : List (Entry κ)}
    (within : results.length ≤ infos.length)
    (missed : ∀ i, (i,SendResult.raised) ∈ infos.zip results → .missed i ∈ out ++ more)
    (silent : ∀ e ∈ more, (∃ i, e = .missed i) ∨ (Heartbeat.after infos results).Sleeps = true ∧ e = .beat infos results) :
    Beating (out ++ more) (.after infos results) := by
  obtain ⟨round,beaten⟩ := after_round within missed
  refine beating.kept (fun i dead => ?_) (fun infos' results' finished => ?_) round
  · rcases silent _ dead with ⟨j,impossible⟩ | ⟨-,impossible⟩
    · cases impossible
    · cases impossible
  · rcases silent _ finished with ⟨j,impossible⟩ | ⟨sleeps,same⟩
    · cases impossible
    · cases same
      obtain ⟨whole,none⟩ := beaten sleeps
      exact ⟨whole,fun i raised => absurd raised (none i)⟩

theorem Beating.step (beating : Beating out s.heartbeat) (sound : s.manager.Sound hashing) (a : Action κ) :
    Beating (out ++ record ws hashing s a) (s.step ws codec tables hashing a).heartbeat := by
  have nothing : ∀ e ∈ ([] : List (Entry κ)), ∃ i, e = .lost i := fun _ impossible => by cases impossible
  cases a with
  | connect info =>
    refine cast (congrArg (Beating _) ?_) (beating.idle nothing)
    rw [Streams.step]
    split
    · rfl
    · rfl
  | frame info raw now =>
    refine cast (congrArg (Beating _) ?_) (beating.idle nothing)
    rw [Streams.step]
    split
    · rfl
    · rfl
  | fail info =>
    refine cast (congrArg (Beating _) ?_) (beating.idle nothing)
    rw [Streams.step]
    split
    · rfl
    · rfl
  | leave info =>
    refine cast (congrArg (Beating _) ?_) (beating.idle nothing)
    rw [Streams.step]
    split
    · rfl
    · rfl
  | wake =>
    rw [Streams.step,record]
    cases sleeps : s.heartbeat.Sleeps with
    | false => exact beating.idle nothing
    | true =>
      refine beating.after (Nat.zero_le _) (fun i impossible => ?_) (fun e member => .inr ?_)
      · rw [List.zip_nil_right] at impossible
        cases impossible
      · split at member
        · next beaten => exact ⟨beaten.2,List.mem_singleton.mp member⟩
        · cases member
  | ping connected sendJson =>
    rw [Streams.step,record]
    have round := beating.round
    cases beat : s.heartbeat with
    | pinging infos results =>
      rw [beat] at beating round
      obtain ⟨more,missed⟩ := round
      refine beating.after ?_ (fun i raised => ?_) (fun e member => ?_)
      · rw [List.length_append,List.length_singleton]
        exact more
      · rcases mem_zip_concat raised with before | ⟨at_,fails⟩
        · exact List.mem_append_left _ (missed i before)
        · refine List.mem_append_right _ (List.mem_append_left _ ?_)
          rw [if_pos fails,at_]
          exact List.mem_singleton_self _
      · rcases List.mem_append.mp member with miss | beaten
        · split at miss
          · obtain ⟨i,-,same⟩ := List.mem_map.mp miss
            exact .inl ⟨i,same.symm⟩
          · cases miss
        · split at beaten
          · next sleeps => exact .inr ⟨sleeps,List.mem_singleton.mp beaten⟩
          · cases beaten
    | _ =>
      rw [beat] at beating
      dsimp only
      rw [beat]
      exact beating.idle nothing
  | clean =>
    rw [Streams.step,record]
    have round := beating.round
    cases beat : s.heartbeat with
    | cleaning infos results left =>
      cases left with
      | nil =>
        rw [beat] at beating
        dsimp only
        rw [beat]
        exact beating.idle nothing
      | cons info left =>
        rw [beat] at beating round
        obtain ⟨whole,missed,-,raised⟩ := round
        have returns := (sound.disconnect ws info).1
        have unraised : ¬ (s.manager.disconnect ws hashing info).2 ≠ none := fun fails => fails returns
        dsimp only
        rw [if_neg unraised]
        have here : ∀ more : List (Entry κ), ∀ i, i ∈ info :: left ∨ .dead i ∈ out →
            i ∈ left ∨ .dead i ∈ out ++ .dead info :: more := by
          intro more i known
          rcases known with inside | earlier
          · rcases List.mem_cons.mp inside with rfl | later
            · exact .inr (List.mem_append_right _ (List.mem_cons_self ..))
            · exact .inl later
          · exact .inr (List.mem_append_left _ earlier)
        have spared : ∀ more : List (Entry κ), (∀ e ∈ more, e = .beat infos results) → ∀ i, .dead i ∈ Entry.dead info :: more →
            .missed i ∈ out ++ Entry.dead info :: more := by
          intro more only i dead
          rcases List.mem_cons.mp dead with same | later
          · cases same
            exact List.mem_append_left _ (missed _ (List.mem_cons_self ..)).1
          · cases only _ later
        by_cases last : left = []
        · subst last
          rw [if_pos ⟨returns,rfl⟩]
          refine beating.kept (spared _ fun e => List.mem_singleton.mp) (fun infos' results' beaten => ?_) trivial
          obtain same : Entry.beat infos' results' = .beat infos results := by simpa using beaten
          cases same
          exact ⟨whole,fun i fails => (here _ i (raised i fails)).resolve_left (by simp)⟩
        · rw [if_neg (fun both => last both.2),if_neg last]
          refine beating.kept (spared _ (fun _ impossible => by cases impossible)) (fun infos' results' beaten => ?_) ?_
          · simp at beaten
          · refine ⟨whole,fun i member => ?_,last,fun i fails => here _ i (raised i fails)⟩
            obtain ⟨miss,inside⟩ := missed i (List.mem_cons_of_mem _ member)
            exact ⟨List.mem_append_left _ miss,inside⟩
    | _ =>
      rw [beat] at beating
      dsimp only
      rw [beat]
      exact beating.idle nothing
  | broadcast channel => exact beating.idle nothing
  | settled n failed =>
    have lost : ∀ e ∈ record ws hashing s (.settled n failed), ∃ i, e = .lost i := by
      intro e member
      cases failed with
      | false => cases member
      | true =>
        obtain ⟨i,-,same⟩ := List.mem_map.mp member
        exact ⟨i,same.symm⟩
    refine cast (congrArg (Beating _) ?_) (beating.idle lost)
    rw [Streams.step]
    split
    · rfl
    · rfl
  | stop =>
    refine beating.kept (fun _ impossible => ?_) (fun _ _ impossible => ?_) trivial
    · cases impossible
    · cases impossible

/-! ### Runs -/

/-- A round with these connections is under way, or there will be none. -/
def InRound (infos : List κ) : Heartbeat κ → Prop
  | .pinging own _ => own = infos
  | .cleaning own _ _ => own = infos
  | .sleeping => False
  | _ => True

omit [DecidableEq κ] in
theorem beats_append (more : List (Entry κ)) : beats (out ++ more) = beats out ++ beats more := List.filterMap_append

omit [DecidableEq κ] in
theorem after_inRound (infos : List κ) (results : List SendResult) :
    (Heartbeat.after infos results).Sleeps = false → InRound infos (.after infos results) := by
  unfold Heartbeat.after
  split
  · exact fun _ => rfl
  · split
    · intro impossible
      cases impossible
    · exact fun _ => rfl

theorem step_inRound (round : InRound infos s.heartbeat) (a : Action κ) :
    beats (record ws hashing s a) = [] ∧ InRound infos (s.step ws codec tables hashing a).heartbeat ∨
      ∃ results, beats (record ws hashing s a) = [(infos,results)] := by
  cases a with
  | connect info =>
    refine .inl ⟨rfl,cast (congrArg (InRound _) ?_) round⟩
    rw [Streams.step]
    split
    · rfl
    · rfl
  | frame info raw now =>
    refine .inl ⟨rfl,cast (congrArg (InRound _) ?_) round⟩
    rw [Streams.step]
    split
    · rfl
    · rfl
  | fail info =>
    refine .inl ⟨rfl,cast (congrArg (InRound _) ?_) round⟩
    rw [Streams.step]
    split
    · rfl
    · rfl
  | leave info =>
    refine .inl ⟨rfl,cast (congrArg (InRound _) ?_) round⟩
    rw [Streams.step]
    split
    · rfl
    · rfl
  | wake =>
    rw [Streams.step,record]
    cases beat : s.heartbeat with
    | sleeping =>
      rw [beat] at round
      cases round
    | _ =>
      rw [beat] at round
      refine .inl ⟨rfl,?_⟩
      rw [if_neg (fun impossible => by cases impossible),beat]
      exact round
  | ping connected sendJson =>
    rw [Streams.step,record]
    cases beat : s.heartbeat with
    | sleeping =>
      rw [beat] at round
      cases round
    | pinging own results =>
      rw [beat] at round
      obtain rfl : own = infos := round
      dsimp only
      have missed : beats (if safeSend connected sendJson = .raised then
          own[results.length]?.toList.map .missed else []) = [] := by
        split
        · cases own[results.length]? with
          | none => rfl
          | some info => rfl
        · rfl
      rw [beats_append,missed,List.nil_append]
      cases sleeps : (Heartbeat.after own (results ++ [safeSend connected sendJson])).Sleeps with
      | true =>
        rw [if_pos rfl]
        exact .inr ⟨_,rfl⟩
      | false => exact .inl ⟨rfl,after_inRound _ _ sleeps⟩
    | _ =>
      rw [beat] at round
      dsimp only
      rw [beat]
      exact .inl ⟨rfl,round⟩
  | clean =>
    rw [Streams.step,record]
    cases beat : s.heartbeat with
    | sleeping =>
      rw [beat] at round
      cases round
    | cleaning own results left =>
      rw [beat] at round
      obtain rfl : own = infos := round
      cases left with
      | nil =>
        dsimp only
        rw [beat]
        exact .inl ⟨rfl,rfl⟩
      | cons info left =>
        dsimp only
        by_cases raises : (s.manager.disconnect ws hashing info).2 ≠ none
        · rw [if_pos raises,if_neg fun both => raises both.1]
          exact .inl ⟨rfl,trivial⟩
        · rw [if_neg raises]
          by_cases last : left = []
          · rw [if_pos ⟨not_not.mp raises,last⟩]
            exact .inr ⟨results,rfl⟩
          · rw [if_neg fun both => last both.2,if_neg last]
            exact .inl ⟨rfl,rfl⟩
    | _ =>
      rw [beat] at round
      dsimp only
      rw [beat]
      exact .inl ⟨rfl,round⟩
  | broadcast channel => exact .inl ⟨rfl,round⟩
  | settled n failed =>
    refine .inl ⟨?_,cast (congrArg (InRound _) ?_) round⟩
    · cases failed with
      | false => rfl
      | true =>
        rw [record]
        cases s.sending[n]? with
        | none => rfl
        | some info => rfl
    · rw [Streams.step]
      split
      · rfl
      · rfl
  | stop => exact .inl ⟨rfl,trivial⟩

/-- The first round to end is the one that is under way. -/
theorem first_beat {actions : List (Action κ)} {round : List κ × List SendResult} {rest : List (List κ × List SendResult)}
    (under : InRound infos s.heartbeat) (ends : beats (trace ws codec tables hashing s actions) = round :: rest) :
    round.1 = infos := by
  induction actions generalizing s with
  | nil => cases ends
  | cons a actions ih =>
    rw [trace,outputs,beats_append] at ends
    rcases @step_inRound κ ω _ _ ws codec tables hashing s infos under a with ⟨silent,later⟩ | ⟨results,now⟩
    · rw [silent,List.nil_append] at ends
      exact ih later ends
    · rw [now] at ends
      exact congrArg Prod.fst (List.cons.inj ends).1.symm

/-- A round that begins is over with the connections that it began with. -/
theorem round_of_wake {after : List (Action κ)} {round : List κ × List SendResult} {rest : List (List κ × List SendResult)}
    (sleeps : s.heartbeat.Sleeps = true) (ends : beats (trace ws codec tables hashing s (.wake :: after)) = round :: rest) :
    round.1 = s.manager.connections.values := by
  rw [trace,outputs,beats_append,record] at ends
  cases beaten : (Heartbeat.after s.manager.connections.values []).Sleeps with
  | true =>
    rw [if_pos ⟨sleeps,beaten⟩] at ends
    exact congrArg Prod.fst (List.cons.inj ends).1.symm
  | false =>
    rw [if_neg fun both => Bool.false_ne_true (beaten.symm.trans both.2)] at ends
    refine first_beat (s := s.step ws codec tables hashing .wake) ?_ ends
    rw [Streams.step,if_pos sleeps]
    exact after_inRound _ _ beaten

/-- What the steps keep. -/
theorem run_kept {actions : List (Action κ)} (allocated : Each (step ws codec tables hashing) (Allocated ws) init actions) :
    Consistent ws hashing (removed (trace ws codec tables hashing init actions)) (run ws codec tables hashing init actions) ∧
      Beating (trace ws codec tables hashing init actions) (run ws codec tables hashing init actions).heartbeat := by
  refine @outputs_kept_of_each _ _ (step ws codec tables hashing) init (Allocated ws) _ (record ws hashing)
    (fun out s => Consistent ws hashing (removed out) s ∧ Beating out s.heartbeat)
    (fun out s a kept condition => ?_) ⟨.init,?_,?_,trivial⟩ _ allocated
  · exact ⟨kept.1.step kept.2 a condition,kept.2.step kept.1.sound a⟩
  · exact fun _ impossible => by cases impossible
  · exact fun _ _ impossible => by cases impossible

/-- Whatever the clients send and however their sockets and the sends to them fail. -/
theorem streams_tidy (ws : κ → ω) (codec : FrameCodec) (tables : CharTables) (hashing : Hashing) {actions : List (Action κ)}
    (allocated : Each (step ws codec tables hashing) (Allocated ws) init actions) : Tidy ws codec tables hashing actions := by
  obtain ⟨consistent,beating⟩ := run_kept allocated
  refine ⟨consistent.registered_iff,⟨_,?_,?_,consistent.mem_values_iff⟩,fun info closed ch member => ?_,?_,beating.spared,
    fun infos results beaten => ?_,?_⟩
  · have keys := Dict.values_map_eq_keys _ fun k i found => (consistent.entered k i found).1
    have distinct : ((run ws codec tables hashing init actions).manager.connections.values.map ws).Nodup := by
      rw [keys]
      exact (run ws codec tables hashing init actions).manager.connections.nodupKeys
    exact distinct.of_map
  · exact List.length_map ..
  · exact closed (consistent.member info ch member)
  · intro failed
    have round := beating.round
    rw [failed] at round
    exact round
  · obtain ⟨whole,dead⟩ := beating.finished infos results beaten
    refine ⟨whole,fun info raised registered => ?_⟩
    exact ((consistent.registered_iff info).mp registered).2 (mem_removed.mpr (.inl (dead info raised)))
  · rintro before after rfl sleeps round rest ends info
    have earlier : Each (step ws codec tables hashing) (Allocated ws) init before := by
      rintro first a later rfl
      exact allocated first a (later ++ .wake :: after) (List.append_assoc first (a :: later) (.wake :: after))
    rw [round_of_wake sleeps ends]
    exact (run_kept earlier).1.mem_values_iff info

/-- One sends a list and misses its ping, and one leaves; the last gets the identity of a socket that is gone. -/
def reused : List (Action (Fin 3)) :=
  [.connect 0,.connect 1,.frame 1 "[]" 0,.wake,.ping true .sent,.ping false .sent,.clean,.leave 1,.fail 0,.leave 0,.connect 2]
def parity (i : Fin 3) : ℕ := i.val % 2

theorem reused_tidy : Tidy parity FundingStream.emptyCodec Channels.ascii ConnectionInfo.hashing reused := by
  refine streams_tidy parity FundingStream.emptyCodec Channels.ascii ConnectionInfo.hashing ?_
  simp only [reused,each_cons,Allocated,true_and]
  refine ⟨?_,?_,?_,each_nil⟩
  · decide +kernel
  · decide +kernel
  · decide +kernel

end Streams
end FundingRadar
