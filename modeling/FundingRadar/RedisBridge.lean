import FundingRadar.Channels
import FundingRadar.MessageHandling
import FundingRadar.Subscriptions

/-!
`RedisBridge`: the loop that passes on what is published on `_REDIS_CHANNELS` to the channels of
the clients. It is a listener whose messages call for broadcasts. A message that is not an object
on the channel of the updates, or whose token is no text, raises, and with the subscription
all that waits behind it is lost; nothing else is lost while the connection holds and the
bridge runs (`bridge_relays`).
-/
namespace FundingRadar
open Runs Subscriptions

/-- A message of the connection, whose responses are decoded. -/
structure RedisMessage where
  type : String
  channel : String
  data : String
deriving DecidableEq

/-- `json.loads` and `json.dumps`. -/
structure JsonText where
  loads : String → Except LoadsError Json
  dumps : Json → String

/-- A call of `broadcast`. -/
structure BroadcastCall where
  channel : String
  payload : String
deriving DecidableEq

namespace RedisBridge

section
variable (tables : CharTables) (text : JsonText)

/-- What is sent to the clients of a channel. -/
def document (type channel : String) (data : Json) (now : ℤ) : Json :=
  .obj [("type",.str type),("channel",.str channel),("data",data),("timestamp",.num now)]
def callOf (type channel : String) (data : Json) (now : ℤ) : BroadcastCall := ⟨channel,text.dumps (document type channel data now)⟩

/-- `_dispatch_funding_update`: the calls that it makes, and what it raises after them. -/
def dispatchFundingUpdate (data : Json) (now : ℤ) : List BroadcastCall × Option MessageError :=
  match data.get "token" (.str "") with
  | .error e => ([],some (.python e))
  | .ok token =>
    let general := callOf text "funding_update" "funding" data now
    if token.truthy then
      match token with
      | .str t => ([general,callOf text "token_update" ("funding:" ++ Channels.upper tables t) data now],none)
      | _ => ([general],some (.python .attributeError))
    else ([general],none)

/-- `_dispatch`. -/
def dispatch (redisChannel raw : String) (now : ℤ) : List BroadcastCall × Option MessageError :=
  match text.loads raw with
  | .error .jsonDecodeError => ([],none)
  | .error e => ([],some (.loads e))
  | .ok data =>
    if redisChannel = "funding:updates" then dispatchFundingUpdate tables text data now
    else if redisChannel = "arbitrage:updates" then ([callOf text "arbitrage_update" "arbitrage" data now],none)
    else if redisChannel = "funding:ranked:updates" then ([callOf text "funding_ranked" "funding" data now],none)
    else ([],none)

/-- A round of the loop of `_bridge_loop`, which begins at `now`. -/
def onMessage (now : ℤ) (m : RedisMessage) : List BroadcastCall × Option MessageError :=
  if m.type ≠ "message" then ([],none) else dispatch tables text m.channel m.data now

/-- Where a message goes: under which type, and to which channel of the clients. -/
inductive Route (data : Json) : String → String → String → Prop
  | update (isObj : data.isObj = true) : Route data "funding:updates" "funding_update" "funding"
  | token {t : String} (named : data.get "token" (.str "") = .ok (.str t)) (spelled : t ≠ "") :
      Route data "funding:updates" "token_update" ("funding:" ++ Channels.upper tables t)
  | arbitrage : Route data "arbitrage:updates" "arbitrage_update" "arbitrage"
  | ranked : Route data "funding:ranked:updates" "funding_ranked" "funding"

/-- Not JSON at all, or, on the channel of the updates, an object whose token is a text if it has
    one that is not empty. -/
def WellFormed (m : RedisMessage) : Prop :=
  m.type = "message" → match text.loads m.data with
    | .error e => e = .jsonDecodeError
    | .ok data => m.channel = "funding:updates" →
        ∃ token, data.get "token" (.str "") = .ok token ∧ (token.truthy = true → ∃ t, token = .str t)

/-- The bridge over a run, from where it is stopped. -/
def bridgeAfter (actions : List (Action RedisMessage ℤ)) : Phase RedisMessage BroadcastCall MessageError :=
  run (onMessage tables text) .stopped actions
def bridgeTrace (actions : List (Action RedisMessage ℤ)) : List (Entry RedisMessage BroadcastCall ℤ) :=
  trace (onMessage tables text) (.stopped : Phase RedisMessage BroadcastCall MessageError) actions

/-- What the bridge makes of the messages that are published over a run. -/
structure Relays (actions : List (Action RedisMessage ℤ)) : Prop where
  /-- Messages are taken in the order in which they are published, each at most once. -/
  ordered : ((taken (bridgeTrace tables text actions)).map Prod.snd).Sublist (published (bridgeTrace tables text actions))
  /-- While the connection holds, the bridge runs and the messages are well formed, a subscription
      loses none of them. -/
  conserved : ∀ before during after, actions = before ++ during ++ after → (bridgeAfter tables text before).Up →
    (bridgeAfter tables text before).Quiet → (∀ m ∈ (bridgeAfter tables text before).waiting, WellFormed text m) →
    (∀ a ∈ during, a ≠ .stop ∧ a ≠ .failed ∧ ∀ m, a = .publish m → WellFormed text m) →
      (bridgeAfter tables text before).waiting ++ published (trace (onMessage tables text) (bridgeAfter tables text before) during) =
        (taken (trace (onMessage tables text) (bridgeAfter tables text before) during)).map Prod.snd ++
          (bridgeAfter tables text (before ++ during)).waiting
  /-- The broadcasts come in the order of the messages taken that call for them, none twice. -/
  inOrder : (put (bridgeTrace tables text actions)).Sublist
    ((taken (bridgeTrace tables text actions)).flatMap (fun t => (onMessage tables text t.1 t.2).1))
  /-- Unless the bridge is stopped in the middle of a message, they are all that these call for. -/
  called : Each (step (onMessage tables text)) Completes .stopped actions →
    (taken (bridgeTrace tables text actions)).flatMap (fun t => (onMessage tables text t.1 t.2).1) =
      put (bridgeTrace tables text actions) ++ (bridgeAfter tables text actions).left
  /-- Every broadcast tells the data of a message taken, under the type and on the channel that its
      route gives. -/
  routed : ∀ k ∈ put (bridgeTrace tables text actions), ∃ now m, (now,m) ∈ taken (bridgeTrace tables text actions) ∧
    m.type = "message" ∧ ∃ data type, text.loads m.data = .ok data ∧ Route tables data m.channel type k.channel ∧
      k.payload = text.dumps (document type k.channel data now)

end

variable {tables : CharTables} {text : JsonText}

/-- What a message calls for. -/
theorem mem_dispatchFundingUpdate {data : Json} {now : ℤ} {k : BroadcastCall}
    (call : k ∈ (dispatchFundingUpdate tables text data now).1) :
    ∃ type, Route tables data "funding:updates" type k.channel ∧ k = callOf text type k.channel data now := by
  unfold dispatchFundingUpdate at call
  have object : ∀ token, data.get "token" (.str "") = .ok token → data.isObj = true := by
    intro token read
    by_contra notObj
    rw [Json.get_of_not_isObj (Bool.eq_false_iff.mpr notObj)] at read
    cases read
  cases read : data.get "token" (.str "") with
  | error e =>
    rw [read] at call
    cases call
  | ok token =>
    rw [read] at call
    have general : ∀ {k}, k = callOf text "funding_update" "funding" data now →
        ∃ type, Route tables data "funding:updates" type k.channel ∧ k = callOf text type k.channel data now := by
      rintro _ rfl
      exact ⟨"funding_update",.update (object token read),rfl⟩
    by_cases truthy : token.truthy = true
    · simp only [if_pos truthy] at call
      cases token with
      | str t =>
        rcases List.mem_cons.mp call with first | second
        · exact general first
        · obtain rfl := List.mem_singleton.mp second
          refine ⟨"token_update",.token read ?_,rfl⟩
          rintro rfl
          cases truthy
      | _ => exact general (List.mem_singleton.mp call)
    · simp only [if_neg truthy] at call
      exact general (List.mem_singleton.mp call)

theorem mem_onMessage {now : ℤ} {m : RedisMessage} {k : BroadcastCall} (call : k ∈ (onMessage tables text now m).1) :
    m.type = "message" ∧ ∃ data type, text.loads m.data = .ok data ∧ Route tables data m.channel type k.channel ∧
      k.payload = text.dumps (document type k.channel data now) := by
  unfold onMessage dispatch at call
  split at call
  · cases call
  · next isMessage =>
    refine ⟨not_not.mp isMessage,?_⟩
    split at call
    · cases call
    · cases call
    · next data loaded =>
      split at call
      · next updates =>
        obtain ⟨type,route,same⟩ := mem_dispatchFundingUpdate call
        exact ⟨data,type,loaded,updates ▸ route,congrArg BroadcastCall.payload same⟩
      · split at call
        · next arbitrage =>
          obtain rfl := List.mem_singleton.mp call
          exact ⟨data,"arbitrage_update",loaded,arbitrage ▸ .arbitrage,rfl⟩
        · split at call
          · next ranked =>
            obtain rfl := List.mem_singleton.mp call
            exact ⟨data,"funding_ranked",loaded,ranked ▸ .ranked,rfl⟩
          · cases call

theorem dispatchFundingUpdate_returns_iff (data : Json) (now : ℤ) : (dispatchFundingUpdate tables text data now).2 = none ↔
    ∃ token, data.get "token" (.str "") = .ok token ∧ (token.truthy = true → ∃ t, token = .str t) := by
  unfold dispatchFundingUpdate
  cases data.get "token" (.str "") with
  | error e => exact iff_of_false (Option.some_ne_none _) (fun ⟨_,impossible,_⟩ => by cases impossible)
  | ok token =>
    have whole : (∃ token', (Except.ok token : Except PyError Json) = .ok token' ∧ (token'.truthy = true → ∃ t, token' = .str t)) ↔
        (token.truthy = true → ∃ t, token = .str t) := by
      constructor
      · rintro ⟨_,same,text⟩
        cases same
        exact text
      · exact fun text => ⟨token,rfl,text⟩
    rw [whole]
    dsimp only
    by_cases truthy : token.truthy = true
    · rw [if_pos truthy]
      cases token with
      | str t => exact iff_of_true rfl fun _ => ⟨t,rfl⟩
      | _ => exact iff_of_false (Option.some_ne_none _) fun named => by cases (named truthy).choose_spec
    · rw [if_neg truthy]
      exact iff_of_true rfl fun impossible => absurd impossible truthy

/-- A message raises exactly where it is not well formed, whenever it is handled. -/
theorem onMessage_returns_iff (now : ℤ) (m : RedisMessage) : (onMessage tables text now m).2 = none ↔ WellFormed text m := by
  unfold onMessage WellFormed dispatch
  by_cases isMessage : m.type = "message"
  · rw [if_neg (not_not.mpr isMessage)]
    simp only [isMessage,forall_const]
    cases text.loads m.data with
    | error e =>
      cases e with
      | jsonDecodeError => exact iff_of_true rfl rfl
      | recursionError => exact iff_of_false (Option.some_ne_none _) (fun impossible => by cases impossible)
      | valueError => exact iff_of_false (Option.some_ne_none _) (fun impossible => by cases impossible)
    | ok data =>
      dsimp only
      by_cases updates : m.channel = "funding:updates"
      · rw [if_pos updates,dispatchFundingUpdate_returns_iff]
        simp only [updates,forall_const]
      · rw [if_neg updates]
        refine iff_of_true ?_ fun impossible => absurd impossible updates
        split
        · rfl
        · split <;> rfl
  · rw [if_pos isMessage]
    exact iff_of_true rfl fun impossible => absurd impossible isMessage

/-- The channels to which an update is passed on. -/
theorem dispatchFundingUpdate_channels {data : Json} {t : String} (named : data.get "token" (.str "") = .ok (.str t)) (now : ℤ) :
    (dispatchFundingUpdate tables text data now).1.map BroadcastCall.channel = Channels.dispatchFundingUpdate tables t := by
  unfold dispatchFundingUpdate Channels.dispatchFundingUpdate
  rw [named]
  by_cases empty : t = ""
  · subst empty
    rfl
  · have truthy : (Json.str t).truthy = true := decide_eq_true empty
    simp only [if_pos truthy,if_neg empty]
    rfl

/-- Over every run the bridge passes on the published messages in order, at most once, and to the
    channels of their routes, and a subscription to well-formed messages loses none of them. -/
theorem bridge_relays (tables : CharTables) (text : JsonText) (actions : List (Action RedisMessage ℤ)) :
    Relays tables text actions where
  ordered := (taken_sublist actions).1.trans (taken_sublist actions).2
  conserved before during after _ up quiet waiting calm := by
    have stays : Each (step (onMessage tables text)) Stays (bridgeAfter tables text before) during := by
      refine stays_of_quiet up quiet (fun m member now => (onMessage_returns_iff now m).mpr (waiting m member)) ?_
      intro a member
      obtain ⟨running,connected,wellFormed⟩ := calm a member
      exact ⟨running,connected,fun m same now => (onMessage_returns_iff now m).mpr (wellFormed m same)⟩
    have conserved := (sent_conserved up stays).2
    rw [conserved,bridgeAfter,bridgeAfter,run,run,run,List.foldl_append]
  inOrder := by
    have among := @put_sublist _ _ _ _ (onMessage tables text) (.stopped : Phase RedisMessage BroadcastCall MessageError) actions
    exact (List.sublist_append_left _ _).trans among
  called completes := put_answers completes
  routed k out := by
    obtain ⟨⟨now,m⟩,took,call⟩ := put_mem out
    exact ⟨now,m,took,mem_onMessage call⟩

/-- Three updates, of which the first names its token by a number: it reaches the general channel,
    and the two that wait behind it reach nobody. -/
def numbered : JsonText := ⟨fun raw => .ok (.obj [("token",if raw = "7" then .num 7 else .str raw)]),fun _ => ""⟩
def update (raw : String) : Action RedisMessage ℤ := .publish ⟨"message","funding:updates",raw⟩
example : (put (bridgeTrace Channels.ascii numbered
      ([.start,.subscribed,update "7",update "btc",update "eth",.take 0] ++ List.replicate 3 .advance ++
        [.wake,.subscribed,update "sol",.take 1] ++ List.replicate 3 .advance))).map BroadcastCall.channel =
    ["funding","funding","funding:SOL"] := by decide

end RedisBridge
end FundingRadar
