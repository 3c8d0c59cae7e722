import FundingRadar.RegistryCalls

/-!
The channels of the WebSocket endpoint and the channels that the bridge from Redis
dispatches an update to. The endpoint accepts letters of both cases, while the bridge
upper-cases the token of an update, so a channel that is not in upper case is accepted and
never served. What a character upper-cases to and which characters are alphanumeric is left
to the tables of the language; upper-casing never drops a character.
-/
namespace FundingRadar
open WebSocketManager

/-- The tables behind `str.upper` and `str.isalnum`. -/
structure CharTables where
  upperOf : Char → List Char
  isAlnum : Char → Bool
  keeps : ∀ c, upperOf c ≠ []

namespace Channels
variable (tables : CharTables)

/-- `s.upper()`. -/
def upper (s : String) : String := String.ofList (s.toList.flatMap tables.upperOf)
/-- `s.isalnum()`, on the characters of a string. -/
def isalnum (s : List Char) : Bool := !s.isEmpty && s.all tables.isAlnum

/-- `_STATIC_CHANNELS`. -/
def staticChannels : List String := ["funding","arbitrage"]
/-- `_is_valid_channel`. -/
def isValidChannel (ch : String) : Bool :=
  if ch ∈ staticChannels then true
  else if "funding:".toList <+: ch.toList then
    let token := ch.toList.drop "funding:".length
    decide (1 ≤ token.length ∧ token.length ≤ 12) && isalnum tables (token.filter (fun c => c ≠ '-'))
  else false

/-- The channels to which `_dispatch_funding_update` sends an update of a token. -/
def dispatchFundingUpdate (token : String) : List String :=
  "funding" :: (if token = "" then [] else ["funding:" ++ upper tables token])

section
variable {κ ω : Type} [DecidableEq κ] (hashing : Hashing)

/-- The action `subscribe` of a client. -/
def subscribeAction (m : WebSocketManager κ ω) (info : κ) (channels : List String) : WebSocketManager κ ω × Option PyError :=
  let valid := channels.filter (isValidChannel tables)
  if valid = [] then (m,none) else m.subscribe hashing info valid

/-- Once a client has asked for the channel of a token alone, every update of the token,
    however it is spelled, is dispatched to it by the channel of that token. -/
def Deliverable (m : WebSocketManager κ ω) (info : κ) (asked : String) : Prop :=
  ∀ token, upper tables token = upper tables asked →
    ∃ ch ∈ dispatchFundingUpdate tables token,
      info ∈ (subscribeAction tables hashing m info ["funding:" ++ asked]).1.members ch
end

/-! ### Strings -/

variable {tables}

theorem upper_eq_empty_iff (s : String) : upper tables s = "" ↔ s = "" := by
  constructor
  · intro empty
    have chars : s.toList.flatMap tables.upperOf = [] := by
      rw [← String.toList_ofList (l := s.toList.flatMap tables.upperOf)]
      exact String.toList_eq_nil_iff.mpr empty
    refine String.toList_eq_nil_iff.mp (List.eq_nil_iff_forall_not_mem.mpr ?_)
    intro c member
    exact tables.keeps c (List.flatMap_eq_nil_iff.mp chars c member)
  · rintro rfl
    rfl

/-- No static channel is the channel of a token. -/
theorem funding_notMem (t : String) : "funding:" ++ t ∉ staticChannels := by
  intro member
  have prefixed : ∀ ch ∈ staticChannels, ¬ "funding:".toList <+: ch.toList := by decide
  refine prefixed _ member ?_
  rw [String.toList_append]
  exact List.prefix_append ..

theorem isValidChannel_funding (t : String) : isValidChannel tables ("funding:" ++ t) =
    (decide (1 ≤ t.length ∧ t.length ≤ 12) && isalnum tables (t.toList.filter (fun c => c ≠ '-'))) := by
  have cut : ("funding:" ++ t).toList.drop "funding:".length = t.toList := by
    rw [String.toList_append]
    exact List.drop_left
  unfold isValidChannel
  rw [if_neg (funding_notMem t),if_pos (by rw [String.toList_append]; exact List.prefix_append ..),cut]
  rfl

/-! ### Subscribing to one channel -/

section
variable {κ ω : Type} [DecidableEq κ]

/-- Objects that hash by identity are entered into the channel they ask for, and into no other. -/
theorem mem_subscribe_iff (m : WebSocketManager κ ω) (info : κ) (ch other : String) :
    info ∈ (m.subscribe .byIdentity info [ch]).1.members other ↔ other = ch ∨ info ∈ m.members other := by
  rw [(subscribe_byIdentity m info [ch]).2.1,List.mem_singleton,and_iff_right rfl]
  exact Or.comm

/-- Where objects do not hash, a subscription enters nobody. -/
theorem mem_subscribe_of_unhashed {hashing : Hashing} (unhashed : hashing ≠ .byIdentity) (m : WebSocketManager κ ω) (info : κ)
    (ch other : String) : info ∈ (m.subscribe hashing info [ch]).1.members other ↔ info ∈ m.members other := by
  simp only [subscribe,forEach,subscribeTo,setAdd,if_neg unhashed]
  rw [members_entered m ch other]

/-- The channel of an asked token that is accepted serves the updates of the token exactly when
    objects hash by identity and the token is asked for in upper case. -/
theorem deliverable_iff_upper (hashing : Hashing) (m : WebSocketManager κ ω) (info : κ) (fresh : ∀ ch, info ∉ m.members ch)
    {asked : String} (accepted : isValidChannel tables ("funding:" ++ asked) = true) :
    Deliverable tables hashing m info asked ↔ hashing = .byIdentity ∧ upper tables asked = asked := by
  have subscribed : subscribeAction tables hashing m info ["funding:" ++ asked] = m.subscribe hashing info ["funding:" ++ asked] := by
    unfold subscribeAction
    rw [List.filter_cons_of_pos accepted,List.filter_nil,if_neg (List.cons_ne_nil _ _)]
  have named : asked ≠ "" := by
    rintro rfl
    rw [isValidChannel_funding] at accepted
    simp at accepted
  unfold Deliverable
  rw [subscribed]
  constructor
  · intro served
    obtain ⟨ch,dispatched,member⟩ := served asked rfl
    have identity : hashing = .byIdentity := by
      by_contra unhashed
      rw [mem_subscribe_of_unhashed unhashed] at member
      exact fresh ch member
    subst identity
    rw [mem_subscribe_iff,or_iff_left (fresh ch)] at member
    subst member
    rw [dispatchFundingUpdate,if_neg named] at dispatched
    rcases List.mem_cons.mp dispatched with general | own
    · exact absurd (general ▸ (by decide : "funding" ∈ staticChannels)) (funding_notMem asked)
    · exact ⟨rfl,((String.append_right_inj _).mp (List.mem_singleton.mp own)).symm⟩
  · rintro ⟨rfl,upperCase⟩ token same
    have spelled : token ≠ "" := by
      rintro rfl
      have empty := (upper_eq_empty_iff asked).mp (same.symm.trans ((upper_eq_empty_iff "").mpr rfl))
      exact named empty
    refine ⟨"funding:" ++ upper tables token,?_,?_⟩
    · rw [dispatchFundingUpdate,if_neg spelled]
      exact List.mem_cons_of_mem _ (List.mem_singleton_self _)
    · rw [mem_subscribe_iff,same,upperCase]
      exact .inl rfl

/-- The channel of a token that is accepted is served exactly where objects hash by identity and
    the token is asked for in upper case. Every update goes to an accepted channel, the general
    one, and to an accepted channel of its token exactly when the token, in upper case, has one to
    twelve characters, which apart from dashes are alphanumeric. -/
theorem deliverable_iff (tables : CharTables) (hashing : Hashing) (m : WebSocketManager κ ω) (info : κ)
    (fresh : ∀ ch, info ∉ m.members ch) :
    (∀ asked, isValidChannel tables ("funding:" ++ asked) = true →
      (Deliverable tables hashing m info asked ↔ hashing = .byIdentity ∧ upper tables asked = asked)) ∧
    (∀ token, ∃ ch ∈ dispatchFundingUpdate tables token, isValidChannel tables ch = true) ∧
    ∀ token, (∃ ch ∈ dispatchFundingUpdate tables token, ch ∉ staticChannels ∧ isValidChannel tables ch = true) ↔
      (1 ≤ (upper tables token).length ∧ (upper tables token).length ≤ 12) ∧
        isalnum tables ((upper tables token).toList.filter (fun c => c ≠ '-')) = true := by
  refine ⟨fun asked accepted => deliverable_iff_upper hashing m info fresh accepted,?_,?_⟩
  · exact fun token => ⟨"funding",List.mem_cons_self ..,if_pos (by decide)⟩
  · intro token
    have own := @isValidChannel_funding tables (upper tables token)
    constructor
    · rintro ⟨ch,dispatched,notStatic,valid⟩
      rcases List.mem_cons.mp dispatched with rfl | rest
      · exact absurd (by decide) notStatic
      · by_cases blank : token = ""
        · rw [if_pos blank] at rest
          cases rest
        · rw [if_neg blank] at rest
          rw [List.mem_singleton.mp rest,own,Bool.and_eq_true,decide_eq_true_eq] at valid
          exact valid
    · rintro ⟨size,characters⟩
      have spelled : token ≠ "" := by
        rintro rfl
        rw [(upper_eq_empty_iff "").mpr rfl] at size
        exact absurd size.1 (by decide)
      refine ⟨"funding:" ++ upper tables token,?_,funding_notMem _,?_⟩
      · rw [dispatchFundingUpdate,if_neg spelled]
        exact List.mem_cons_of_mem _ (List.mem_singleton_self _)
      · rw [own,Bool.and_eq_true,decide_eq_true_eq]
        exact ⟨size,characters⟩

end

/-- The tables as far as ASCII goes. -/
def ascii : CharTables := ⟨fun c => [c.toUpper],Char.isAlphanum,fun _ => List.cons_ne_nil _ _⟩
def noClients : WebSocketManager ℕ ℕ := init
theorem noClients_fresh : ∀ ch, 0 ∉ noClients.members ch := fun _ impossible => by cases impossible

/-- A channel in lower case is accepted and is not served, even where objects hash. -/
theorem btc_not_deliverable : isValidChannel ascii "funding:btc" = true ∧ ¬ Deliverable ascii .byIdentity noClients 0 "btc" ∧
    ¬ Deliverable ascii ConnectionInfo.hashing noClients 0 "btc" := by
  have accepted : isValidChannel ascii ("funding:" ++ "btc") = true := by decide
  refine ⟨accepted,?_,?_⟩
  · rw [deliverable_iff_upper .byIdentity noClients 0 noClients_fresh accepted]
    decide
  · rw [deliverable_iff_upper ConnectionInfo.hashing noClients 0 noClients_fresh accepted]
    decide

/-- The same channel in upper case is served where objects hash by identity. -/
theorem btc_deliverable : (∀ ch, 0 ∉ noClients.members ch) ∧ isValidChannel ascii ("funding:" ++ "BTC") = true ∧
    Deliverable ascii .byIdentity noClients 0 "BTC" := by
  have accepted : isValidChannel ascii ("funding:" ++ "BTC") = true := by decide
  have served := (deliverable_iff ascii .byIdentity noClients 0 noClients_fresh).1 "BTC" accepted
  exact ⟨noClients_fresh,accepted,served.mpr (by decide)⟩

end Channels
end FundingRadar
