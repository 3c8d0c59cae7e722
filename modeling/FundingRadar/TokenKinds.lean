import FundingRadar.TierCache

/-!
The two kinds of JSON web tokens and the two places that read them. Both kinds carry their
name in the claim `type`, which nobody reads: a refresh token authenticates its subject like
an access token, for as long as it lives, and makes a WebSocket connection one of the free
tier. Encoding and decoding are the library's; a decoder gets the second at which it runs.
The Bearer token is the one that is left of the header once its scheme is cut off.
-/
namespace FundingRadar

inductive ClaimValue
  | text (s : String)
  | instant (seconds : ℤ)
deriving DecidableEq

abbrev Claims := Dict String ClaimValue

inductive JwtError
  | expired
  | invalid
deriving DecidableEq

/-- `jwt.encode` and `jwt.decode` under one secret and algorithm, and `int` of a string. -/
structure JwtLibrary where
  encode : Claims → String
  decode : String → ℤ → Except JwtError Claims
  parseInt : String → Option ℤ
  encoded : ∀ claims, encode claims ≠ ""

/-- Decoding an unexpired token returns the encoded claims. -/
def JwtLibrary.Returns (jwt : JwtLibrary) (claims : Claims) : Prop :=
  ∀ now exp, claims.get? "exp" = some (.instant exp) → now < exp → jwt.decode (jwt.encode claims) now = .ok claims

structure JwtSettings where
  jwtAccessTokenExpireMinutes : ℤ
  jwtRefreshTokenExpireDays : ℤ

namespace TokenKinds

/-- What the authentication raises. -/
inductive AuthException
  | httpUnauthorized (detail : String)
  | valueError
  | redis
deriving DecidableEq

def tokenExpired : AuthException := .httpUnauthorized "Token expired."
def notAuthenticated : AuthException :=
  .httpUnauthorized "Not authenticated. Provide a Bearer token or X-API-Key header."

section
variable (settings : JwtSettings)

/-- `expires_delta or timedelta(minutes=…)`: a delta of zero counts as none. -/
def accessExpiry (now : ℤ) (expiresDelta : Option ℤ) : ℤ :=
  now + ((expiresDelta.filter (fun d => d ≠ 0)).getD (settings.jwtAccessTokenExpireMinutes * 60))
def refreshExpiry (now : ℤ) : ℤ := now + settings.jwtRefreshTokenExpireDays * 86400

/-- The payload of `create_access_token`. -/
def accessClaims (subject : ℤ) (tier : String) (now : ℤ) (expiresDelta : Option ℤ) (extra : Claims) : Claims :=
  let payload : Claims := ((((Dict.empty.insert "sub" (.text (toString subject))).insert "tier" (.text tier)).insert
    "iat" (.instant now)).insert "exp" (.instant (accessExpiry settings now expiresDelta))).insert "type" (.text "access")
  extra.entries.foldl (fun payload e => payload.insert e.1 e.2) payload
/-- The payload of `create_refresh_token`. -/
def refreshClaims (subject now : ℤ) : Claims :=
  (((Dict.empty.insert "sub" (.text (toString subject))).insert "iat" (.instant now)).insert
    "exp" (.instant (refreshExpiry settings now))).insert "type" (.text "refresh")
end

variable (jwt : JwtLibrary) (settings : JwtSettings)

def createAccessToken (subject : ℤ) (tier : String) (now : ℤ) (expiresDelta : Option ℤ) (extra : Claims) : String :=
  jwt.encode (accessClaims settings subject tier now expiresDelta extra)
def createRefreshToken (subject now : ℤ) : String := jwt.encode (refreshClaims settings subject now)

/-- The active user with an id. -/
def activeUser (users : UsersTable) (id : ℤ) : Option (ℤ × User) :=
  ((users.rows.get? id).filter User.isActive).map (fun u => (id,u))

/-- `_resolve_user_from_jwt`. -/
def resolveUserFromJwt (users : UsersTable) (token : String) (now : ℤ) : Except AuthException (Option (ℤ × User)) :=
  match jwt.decode token now with
  | .error .expired => .error tokenExpired
  | .error .invalid => .ok none
  | .ok payload =>
    match payload.get? "sub" with
    | none => .ok none
    | some (.instant id) => if id = 0 then .ok none else .ok (activeUser users id)
    | some (.text sub) =>
      if sub = "" then .ok none
      else
        match jwt.parseInt sub with
        | none => .error .valueError
        | some id => .ok (activeUser users id)

/-- The end of `get_current_user`: the key where no user is known, and the refusal. -/
def getCurrentUserByKey (s : TierCache) (xApiKey : Option String) : TierCache × Except AuthException (ℤ × User) :=
  match xApiKey with
  | none => (s,.error notAuthenticated)
  | some key =>
    if key = "" then (s,.error notAuthenticated)
    else
      match s.resolveUserFromApiKey TierCache.reachable key with
      | (s',.ok (some found)) => (s',.ok found)
      | (s',.ok none) => (s',.error notAuthenticated)
      | (s',.error _) => (s',.error .redis)

/-- `get_current_user`. -/
def getCurrentUser (s : TierCache) (bearer xApiKey : Option String) (now : ℤ) : TierCache × Except AuthException (ℤ × User) :=
  match bearer with
  | none => getCurrentUserByKey s xApiKey
  | some token =>
    match resolveUserFromJwt jwt s.users token now with
    | .error e => (s,.error e)
    | .ok (some found) => (s,.ok found)
    | .ok none => getCurrentUserByKey s xApiKey

/-- `str` of a claim. -/
def ClaimValue.str : ClaimValue → String
  | .text s => s
  | .instant seconds => toString seconds

/-- `_decode_token`: the tier and the user id. -/
def decodeToken (raw : Option String) (now : ℤ) : String × Option String :=
  match raw with
  | none => ("anonymous",none)
  | some token =>
    if token = "" then ("anonymous",none)
    else
      match jwt.decode token now with
      | .ok payload => (((payload.get? "tier").map ClaimValue.str).getD "free",some (((payload.get? "sub").map ClaimValue.str).getD ""))
      | .error .expired => ("__expired__",none)
      | .error .invalid => ("anonymous",none)

/-- The tier with which `funding_ws` connects a client, unless it closes the connection. -/
def connectionTier (raw : Option String) (now : ℤ) : Option String :=
  if (decodeToken jwt raw now).1 = "__expired__" then none else some (decodeToken jwt raw now).1

/-- A token authenticates exactly this user: it is answered with the user's row if that is active, and with 401 otherwise. -/
def Authenticates (s : TierCache) (token : String) (id now : ℤ) : Prop :=
  ∀ found, (getCurrentUser jwt s (some token) none now).2 = .ok found ↔ activeUser s.users id = some found

/-- A refresh token is no credential and gives no tier, and an access token authenticates its subject. -/
def KindsApart (s : TierCache) (refresh access : String) (id nowRefresh nowAccess : ℤ) : Prop :=
  (∀ found, (getCurrentUser jwt s (some refresh) none nowRefresh).2 ≠ .ok found) ∧
    (∀ t, connectionTier jwt (some refresh) nowRefresh = some t → t = "anonymous") ∧ Authenticates jwt s access id nowAccess

/-! ### Claims -/

variable {jwt settings}

theorem toString_ne_empty (id : ℤ) : toString id ≠ "" := by
  rw [Int.toString_eq_repr,Int.repr_eq_if]
  split
  · exact Nat.repr_ne_empty
  · intro empty
    have sign := congrArg String.toList empty
    rw [String.toList_append] at sign
    exact absurd sign (by simp)

/-- A token that decodes to claims with this subject authenticates it, whatever its type. -/
theorem authenticates_of_decoded {s : TierCache} {token : String} {claims : Claims} {id now : ℤ}
    (decoded : jwt.decode token now = .ok claims) (subject : claims.get? "sub" = some (.text (toString id)))
    (parses : jwt.parseInt (toString id) = some id) : Authenticates jwt s token id now := by
  have resolved : resolveUserFromJwt jwt s.users token now = .ok (activeUser s.users id) := by
    rw [resolveUserFromJwt,decoded]
    dsimp only
    rw [subject]
    dsimp only
    rw [if_neg (toString_ne_empty id),parses]
  intro found
  rw [getCurrentUser,resolved]
  cases activeUser s.users id with
  | none => exact iff_of_false (fun impossible => by cases impossible) (fun impossible => by cases impossible)
  | some user =>
    show Except.ok user = Except.ok found ↔ some user = some found
    rw [Except.ok.injEq,Option.some.injEq]

theorem connectionTier_of_decoded {token : String} {claims : Claims} {now : ℤ} (spelled : token ≠ "")
    (decoded : jwt.decode token now = .ok claims) {tier : String} (claimed : ((claims.get? "tier").map ClaimValue.str).getD "free" = tier)
    (open_ : tier ≠ "__expired__") : connectionTier jwt (some token) now = some tier := by
  have answer : (decodeToken jwt (some token) now).1 = tier := by
    rw [decodeToken,if_neg spelled,decoded]
    exact claimed
  rw [connectionTier,answer,if_neg open_]

section
variable (settings) (id issued : ℤ) (tier : String) (expiresDelta : Option ℤ)

theorem refreshClaims_sub : (refreshClaims settings id issued).get? "sub" = some (.text (toString id)) := by
  simp [refreshClaims,Dict.get?_insert]
theorem refreshClaims_tier : (refreshClaims settings id issued).get? "tier" = none := by
  simp [refreshClaims,Dict.get?_insert]
theorem refreshClaims_exp : (refreshClaims settings id issued).get? "exp" = some (.instant (refreshExpiry settings issued)) := by
  simp [refreshClaims,Dict.get?_insert]
theorem accessClaims_sub : (accessClaims settings id tier issued expiresDelta .empty).get? "sub" = some (.text (toString id)) := by
  simp [accessClaims,Dict.get?_insert,Dict.empty]
theorem accessClaims_exp : (accessClaims settings id tier issued expiresDelta .empty).get? "exp" =
    some (.instant (accessExpiry settings issued expiresDelta)) := by
  simp [accessClaims,Dict.get?_insert,Dict.empty]

end

/-- Before they expire, tokens of both kinds authenticate their subject, and a refresh token opens
    a connection of the free tier; so the kinds are never apart. -/
theorem kinds_never_apart (jwt : JwtLibrary) (settings : JwtSettings) (s : TierCache) (id issued issued' : ℤ) (tier : String)
    (expiresDelta : Option ℤ) {now now' : ℤ} (refreshReturns : jwt.Returns (refreshClaims settings id issued))
    (accessReturns : jwt.Returns (accessClaims settings id tier issued' expiresDelta .empty))
    (parses : jwt.parseInt (toString id) = some id) (fresh : now < refreshExpiry settings issued)
    (fresh' : now' < accessExpiry settings issued' expiresDelta) :
    ¬ KindsApart jwt s (createRefreshToken jwt settings id issued) (createAccessToken jwt settings id tier issued' expiresDelta .empty)
        id now now' ∧
      Authenticates jwt s (createRefreshToken jwt settings id issued) id now ∧
      connectionTier jwt (some (createRefreshToken jwt settings id issued)) now = some "free" ∧
      Authenticates jwt s (createAccessToken jwt settings id tier issued' expiresDelta .empty) id now' := by
  have decoded := refreshReturns now _ (refreshClaims_exp settings id issued) fresh
  have decoded' := accessReturns now' _ (accessClaims_exp settings id issued' tier expiresDelta) fresh'
  have connected : connectionTier jwt (some (createRefreshToken jwt settings id issued)) now = some "free" := by
    refine connectionTier_of_decoded (jwt.encoded _) decoded ?_ (by decide)
    rw [refreshClaims_tier]
    rfl
  refine ⟨?_,authenticates_of_decoded decoded (refreshClaims_sub settings id issued) parses,connected,
    authenticates_of_decoded decoded' (accessClaims_sub settings id issued' tier expiresDelta) parses⟩
  rintro ⟨-,anonymous,-⟩
  exact absurd (anonymous "free" connected) (by decide)

def hourAndMonth : JwtSettings := ⟨60,30⟩
/-- The library on the two tokens that user 1 gets at the second 1700000000. -/
def issuedToOne : JwtLibrary where
  encode claims := if claims.get? "type" = some (.text "refresh") then "e30.cg.c2ln" else "e30.YQ.c2ln"
  decode token now :=
    if token = "e30.cg.c2ln" then
      if now < 1702592000 then .ok (refreshClaims hourAndMonth 1 1700000000) else .error .expired
    else if token = "e30.YQ.c2ln" then
      if now < 1700003600 then .ok (accessClaims hourAndMonth 1 "free" 1700000000 none .empty) else .error .expired
    else .error .invalid
  parseInt s := if s = "1" then some 1 else none
  encoded claims := by
    split
    · decide
    · decide
def userOne : TierCache := ⟨(UsersTable.empty.set 1 ⟨"key-1",.free,true,none⟩).getD .empty,.empty,.empty⟩

/-- The refresh token signs user 1 in for a month. -/
theorem refreshToken_signs_in :
    (getCurrentUser issuedToOne userOne (some (createRefreshToken issuedToOne hourAndMonth 1 1700000000)) none 1702591999).2 =
        .ok (1,⟨"key-1",.free,true,none⟩) ∧
      ¬ KindsApart issuedToOne userOne (createRefreshToken issuedToOne hourAndMonth 1 1700000000)
        (createAccessToken issuedToOne hourAndMonth 1 "free" 1700000000 none .empty) 1 1702591999 1700003599 := by
  have accepted : (getCurrentUser issuedToOne userOne
      (some (createRefreshToken issuedToOne hourAndMonth 1 1700000000)) none 1702591999).2 = .ok (1,⟨"key-1",.free,true,none⟩) := by
    decide +kernel
  exact ⟨accepted,fun apart => apart.1 _ accepted⟩

theorem issuedToOne_refresh : issuedToOne.Returns (refreshClaims hourAndMonth 1 1700000000) := by
  intro now exp expires unexpired
  rw [refreshClaims_exp] at expires
  cases expires
  exact if_pos unexpired
theorem issuedToOne_access : issuedToOne.Returns (accessClaims hourAndMonth 1 "free" 1700000000 none .empty) := by
  intro now exp expires unexpired
  rw [accessClaims_exp] at expires
  cases expires
  exact if_pos unexpired

theorem issuedToOne_never_apart :
    ¬ KindsApart issuedToOne userOne (createRefreshToken issuedToOne hourAndMonth 1 1700000000)
        (createAccessToken issuedToOne hourAndMonth 1 "free" 1700000000 none .empty) 1 1702591999 1700003599 ∧
      Authenticates issuedToOne userOne (createAccessToken issuedToOne hourAndMonth 1 "free" 1700000000 none .empty) 1 1700003599 := by
  have settled := kinds_never_apart issuedToOne hourAndMonth userOne 1 1700000000 1700000000 "free" none
    issuedToOne_refresh issuedToOne_access (by decide)
    (by decide : (1702591999 : ℤ) < refreshExpiry hourAndMonth 1700000000)
    (by decide : (1700003599 : ℤ) < accessExpiry hourAndMonth 1700000000 none)
  exact ⟨settled.1,settled.2.2.2⟩

end TokenKinds
end FundingRadar
