import FundingRadar.WebSocketManager

/-!
The calls of a `WebSocketManager` whose connections hash by identity. None of them raises,
and each is described by what it does to the memberships and to the channels of every
connection; nothing else of the index is needed by those who use it.
-/
namespace FundingRadar.WebSocketManager
variable {κ ω : Type} [DecidableEq κ]

/-! ### Entries of the index -/

omit [DecidableEq κ] in
theorem members_insert (m : WebSocketManager κ ω) (ch other : String) (s : List κ) :
    { m with channels := m.channels.insert ch s }.members other = if other = ch then s else m.members other := by
  show ((m.channels.insert ch s).get? other).getD [] = _
  rw [Dict.get?_insert]
  split
  · rfl
  · rfl

omit [DecidableEq κ] in
/-- An entry that a channel gets when it is asked for has no members. -/
theorem members_entered (m : WebSocketManager κ ω) (ch other : String) :
    (if (m.channels.get? ch).isSome then m else { m with channels := m.channels.insert ch [] }).members other =
      m.members other := by
  split
  · rfl
  · next absent =>
    rw [members_insert]
    split
    · next same =>
      rw [Bool.not_eq_true,Option.isSome_eq_false_iff,Option.isNone_iff_eq_none] at absent
      rw [same,members,absent]
      rfl
    · rfl

/-- Where the entry of a channel is deleted, it had no members. -/
theorem members_dropEmpty (m : WebSocketManager κ ω) (ch other : String) : (m.dropEmpty ch).members other = m.members other := by
  unfold dropEmpty
  split
  · next empty =>
    unfold members
    rw [Dict.get?_erase]
    split
    · next same => rw [same,empty]; rfl
    · rfl
  · rfl

theorem connections_dropEmpty (m : WebSocketManager κ ω) (ch : String) : (m.dropEmpty ch).connections = m.connections := by
  unfold dropEmpty
  split
  · rfl
  · rfl
theorem clientChannels_dropEmpty (m : WebSocketManager κ ω) (ch : String) :
    (m.dropEmpty ch).clientChannels = m.clientChannels := by
  unfold dropEmpty
  split
  · rfl
  · rfl

/-! ### One channel -/

/-- An object is discarded from the set of the channel, and from no other. -/
theorem discard_byIdentity (m : WebSocketManager κ ω) (info : κ) (ch : String) :
    ∃ left, m.discard .byIdentity ch info = .ok left ∧ left.connections = m.connections ∧
      left.clientChannels = m.clientChannels ∧ ∀ x c, x ∈ left.members c ↔ x ∈ m.members c ∧ ¬ (x = info ∧ c = ch) := by
  refine ⟨_,rfl,?_⟩
  cases entry : m.channels.get? ch with
  | none =>
    refine ⟨rfl,rfl,?_⟩
    intro x c
    refine (and_iff_left_of_imp ?_).symm
    rintro member ⟨-,rfl⟩
    rw [Option.isSome_none,if_neg Bool.false_ne_true,members,entry] at member
    cases member
  | some set =>
    refine ⟨rfl,rfl,?_⟩
    intro x c
    rw [Option.isSome_some,if_pos rfl,members_insert]
    split
    · next same =>
      rw [same,List.mem_filter,decide_eq_true_eq,and_iff_left rfl]
    · next differ => exact (and_iff_left (fun both => differ both.2)).symm

/-- What a subscription to one channel adds. -/
theorem subscribeTo_byIdentity (m : WebSocketManager κ ω) (info : κ) (ch : String) :
    (m.subscribeTo .byIdentity info ch).2 = none ∧ (m.subscribeTo .byIdentity info ch).1.connections = m.connections ∧
    (∀ x c, x ∈ (m.subscribeTo .byIdentity info ch).1.members c ↔ x ∈ m.members c ∨ x = info ∧ c = ch) ∧
    ∀ x c, c ∈ (m.subscribeTo .byIdentity info ch).1.clientChannels x ↔ c ∈ m.clientChannels x ∨ x = info ∧ c = ch := by
  have entered := members_entered m ch
  have connections : (if (m.channels.get? ch).isSome then m else { m with channels := m.channels.insert ch [] }).connections =
      m.connections := by
    split
    · rfl
    · rfl
  unfold subscribeTo setAdd
  dsimp only
  rw [if_pos rfl]
  generalize (if (m.channels.get? ch).isSome then m else { m with channels := m.channels.insert ch [] }) = e at entered connections ⊢
  refine ⟨rfl,connections,?_,?_⟩
  · intro x c
    refine Iff.trans (Eq.to_iff (congrArg (x ∈ ·) (members_insert e ch c _))) ?_
    split
    · next same =>
      rw [entered,same]
      split
      · next known =>
        refine (or_iff_left_of_imp ?_).symm
        rintro ⟨rfl,-⟩
        exact known
      · rw [List.mem_append,List.mem_singleton,and_iff_left rfl]
    · next differ =>
      rw [entered]
      exact (or_iff_left (fun both => differ both.2)).symm
  · intro x c
    dsimp only
    by_cases same : x = info
    · subst same
      rw [Function.update_self]
      split
      · next known =>
        refine (or_iff_left_of_imp ?_).symm
        rintro ⟨-,rfl⟩
        exact known
      · rw [List.mem_append,List.mem_singleton,and_iff_right rfl]
    · rw [Function.update_of_ne same]
      exact (or_iff_left (fun both => same both.1)).symm

/-- What an unsubscription from one channel takes away. -/
theorem unsubscribeFrom_byIdentity (m : WebSocketManager κ ω) (info : κ) (ch : String) :
    (m.unsubscribeFrom .byIdentity info ch).2 = none ∧ (m.unsubscribeFrom .byIdentity info ch).1.connections = m.connections ∧
    (∀ x c, x ∈ (m.unsubscribeFrom .byIdentity info ch).1.members c ↔ x ∈ m.members c ∧ ¬ (x = info ∧ c = ch)) ∧
    ∀ x c, c ∈ (m.unsubscribeFrom .byIdentity info ch).1.clientChannels x ↔ c ∈ m.clientChannels x ∧ ¬ (x = info ∧ c = ch) := by
  obtain ⟨left,discarded,connections,-,members⟩ := discard_byIdentity m info ch
  unfold unsubscribeFrom
  rw [discarded]
  refine ⟨rfl,?_,?_,?_⟩
  · rw [connections_dropEmpty]
    exact connections
  · intro x c
    rw [members_dropEmpty]
    exact members x c
  · intro x c
    rw [clientChannels_dropEmpty]
    dsimp only
    by_cases same : x = info
    · subst same
      rw [Function.update_self,List.mem_filter,decide_eq_true_eq,eq_self,true_and]
    · rw [Function.update_of_ne same]
      exact (and_iff_left (fun both => same both.1)).symm

/-- A round of `disconnect` takes the object out of the set of the channel. -/
theorem leave_byIdentity (m : WebSocketManager κ ω) (info : κ) (ch : String) :
    (m.leave .byIdentity info ch).2 = none ∧ (m.leave .byIdentity info ch).1.connections = m.connections ∧
    (m.leave .byIdentity info ch).1.clientChannels = m.clientChannels ∧
    ∀ x c, x ∈ (m.leave .byIdentity info ch).1.members c ↔ x ∈ m.members c ∧ ¬ (x = info ∧ c = ch) := by
  obtain ⟨left,discarded,connections,clients,members⟩ := discard_byIdentity m info ch
  unfold leave
  rw [discarded]
  refine ⟨rfl,?_,?_,?_⟩
  · rw [connections_dropEmpty]
    exact connections
  · rw [clientChannels_dropEmpty]
    exact clients
  · intro x c
    rw [members_dropEmpty]
    exact members x c

/-! ### Whole calls -/

/-- What a call of `subscribe` does, whatever channels it names. -/
theorem subscribe_byIdentity (m : WebSocketManager κ ω) (info : κ) (channels : List String) :
    (m.subscribe .byIdentity info channels).1.connections = m.connections ∧
    (∀ x c, x ∈ (m.subscribe .byIdentity info channels).1.members c ↔ x ∈ m.members c ∨ x = info ∧ c ∈ channels) ∧
    ∀ x c, c ∈ (m.subscribe .byIdentity info channels).1.clientChannels x ↔
      c ∈ m.clientChannels x ∨ x = info ∧ c ∈ channels := by
  unfold subscribe
  rw [forEach_eq_foldl (fun m ch => (subscribeTo_byIdentity m info ch).1)]
  induction channels generalizing m with
  | nil => simp
  | cons ch rest ih =>
    obtain ⟨-,connections,members,clients⟩ := subscribeTo_byIdentity m info ch
    obtain ⟨connections',members',clients'⟩ := ih (m.subscribeTo .byIdentity info ch).1
    refine ⟨connections'.trans connections,?_,?_⟩
    · intro x c
      refine (members' x c).trans ?_
      rw [members,List.mem_cons,or_assoc,← and_or_left]
    · intro x c
      refine (clients' x c).trans ?_
      rw [clients,List.mem_cons,or_assoc,← and_or_left]

theorem unsubscribe_byIdentity (m : WebSocketManager κ ω) (info : κ) (channels : List String) :
    (m.unsubscribe .byIdentity info channels).1.connections = m.connections ∧
    (∀ x c, x ∈ (m.unsubscribe .byIdentity info channels).1.members c ↔ x ∈ m.members c ∧ ¬ (x = info ∧ c ∈ channels)) ∧
    ∀ x c, c ∈ (m.unsubscribe .byIdentity info channels).1.clientChannels x ↔
      c ∈ m.clientChannels x ∧ ¬ (x = info ∧ c ∈ channels) := by
  unfold unsubscribe
  rw [forEach_eq_foldl (fun m ch => (unsubscribeFrom_byIdentity m info ch).1)]
  induction channels generalizing m with
  | nil => simp
  | cons ch rest ih =>
    obtain ⟨-,connections,members,clients⟩ := unsubscribeFrom_byIdentity m info ch
    obtain ⟨connections',members',clients'⟩ := ih (m.unsubscribeFrom .byIdentity info ch).1
    refine ⟨connections'.trans connections,?_,?_⟩
    · intro x c
      refine (members' x c).trans ?_
      rw [members,List.mem_cons,and_assoc,← not_or,← and_or_left]
    · intro x c
      refine (clients' x c).trans ?_
      rw [clients,List.mem_cons,and_assoc,← not_or,← and_or_left]

/-- What the loop of `disconnect` does. -/
theorem leaveAll_byIdentity (m : WebSocketManager κ ω) (info : κ) (channels : List String) :
    (forEach (leave .byIdentity info) m channels).1.connections = m.connections ∧
    (forEach (leave .byIdentity info) m channels).1.clientChannels = m.clientChannels ∧
    ∀ x c, x ∈ (forEach (leave .byIdentity info) m channels).1.members c ↔ x ∈ m.members c ∧ ¬ (x = info ∧ c ∈ channels) := by
  rw [forEach_eq_foldl (fun m ch => (leave_byIdentity m info ch).1)]
  induction channels generalizing m with
  | nil => simp
  | cons ch rest ih =>
    obtain ⟨-,connections,clients,members⟩ := leave_byIdentity m info ch
    obtain ⟨connections',clients',members'⟩ := ih (m.leave .byIdentity info ch).1
    refine ⟨connections'.trans connections,clients'.trans clients,?_⟩
    intro x c
    refine (members' x c).trans ?_
    rw [members,List.mem_cons,and_assoc,← not_or,← and_or_left]

theorem disconnect_byIdentity [DecidableEq ω] (ws : κ → ω) (m : WebSocketManager κ ω) (info : κ) :
    (m.disconnect ws .byIdentity info).1.connections = m.connections.erase (ws info) ∧
    (m.disconnect ws .byIdentity info).1.clientChannels = m.clientChannels ∧
    ∀ x c, x ∈ (m.disconnect ws .byIdentity info).1.members c ↔
      x ∈ m.members c ∧ ¬ (x = info ∧ c ∈ m.clientChannels info) :=
  leaveAll_byIdentity { m with connections := m.connections.erase (ws info) } info (m.clientChannels info)

end FundingRadar.WebSocketManager
