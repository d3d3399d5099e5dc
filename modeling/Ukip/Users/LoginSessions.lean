import Ukip.Core.Clock
import Ukip.Foundation.Interleaving
import Ukip.Foundation.SerialTable
import Ukip.Foundation.UnitOfWork
import Ukip.Tenancy.Access

/-!
# Login sessions and the tokens that name them

The token half of `auth.py` with `/auth/refresh` and the session endpoints of
`routers/auth_users.py`.  An access and a refresh token name one row of
`user_sessions` by its `sid`; revoking the row is meant to end both.  A login starts
here where its password has been accepted (`issue_tokens`).
-/

namespace Ukip.Users.LoginSessions

open Foundation.EventRun Foundation.Interleaving Foundation.Relational Foundation.UnitOfWork
open Core.Clock
open Tenancy.Access (HttpError)

structure Claims where
  sub : Option String
  role : Option String
  sid : Option String
  /-- Whole seconds, as the library encodes a datetime. -/
  exp : Option Int
  type : Option String
  deriving DecidableEq

structure UserRow where
  id : Nat
  username : String
  role : String
  isActive : Option Bool
  deriving DecidableEq

structure SessionRow where
  id : Nat
  sid : String
  userId : Nat
  createdAt : Option Time
  lastSeenAt : Option Time
  expiresAt : Option Time
  revokedAt : Option Time
  revokedByUserId : Option Nat
  userAgent : Option String
  ipAddress : Option String
  deriving DecidableEq

def sessionSchema : Schema SessionRow where
  key := SessionRow.id
  withKey := fun value row => { row with id := value }
  key_withKey := fun _ _ => rfl
  clash := fun first second => first.sid == second.sid
  clash_comm := fun _ _ => Bool.beq_comm
  clash_withKey := fun _ _ _ => rfl

structure Store where
  users : List UserRow
  sessions : SerialTable sessionSchema

structure ApiKeyRecord where
  userId : Nat
  /-- The refusal of `enforce_api_key_scope`, where it raises. -/
  scopeRefusal : Option HttpError
  deriving DecidableEq

/-- The configuration of the process and what it calls outside: the JWT library, which
reads the payload of a token and checks its signature under a key, and the API keys. -/
structure Host where
  secretKey : String
  retiringSecretKeys : List String
  accessTokenExpireMinutes : Int
  refreshTokenExpireMinutes : Int
  encode : Claims → String → String
  payload : String → Option Claims
  verifies : String → String → Bool
  verifyApiKey : String → Option ApiKeyRecord

variable (host : Host)

/-- `jwt.decode` under one key. -/
def jwtDecode (now : Time) (token key : String) : Option Claims :=
  match host.payload token with
  | none => none
  | some claims =>
    if host.verifies token key = false then none
    else
      match claims.exp with
      | none => some claims
      | some exp => if seconds exp ≤ now then none else some claims

def decodeToken (now : Time) (token : String) : Option Claims :=
  (host.secretKey :: host.retiringSecretKeys).findSome? (jwtDecode host now token)

def createToken (kind : String) (lifetime : Int) (now : Time) (subject role sid : String) : String :=
  host.encode
    { sub := some subject
      role := some role
      sid := some sid
      exp := some ((now + minutes lifetime) / 1000000)
      type := some kind }
    host.secretKey

def createAccessToken : Time → String → String → String → String :=
  createToken host "access" host.accessTokenExpireMinutes

def createRefreshToken : Time → String → String → String → String :=
  createToken host "refresh" host.refreshTokenExpireMinutes

structure TokenPair where
  accessToken : String
  refreshToken : String
  deriving DecidableEq

def mintTokens (now : Time) (user : UserRow) (sid : String) : TokenPair where
  accessToken := createAccessToken host now user.username user.role sid
  refreshToken := createRefreshToken host now user.username user.role sid

def invalidToken : HttpError where
  statusCode := 401
  detail := "Invalid or expired token"

def invalidRefreshToken : HttpError where
  statusCode := 401
  detail := "Invalid or expired refresh token"

def notAuthenticated : HttpError where
  statusCode := 401
  detail := "Not authenticated"

def notAuthorized (role : String) : HttpError where
  statusCode := 403
  detail := "Role '" ++ role ++ "' is not authorized for this action"

def sessionNotFound : HttpError where
  statusCode := 404
  detail := "Session not found"

def SessionRow.isLive (session : SessionRow) : Bool := session.revokedAt.isNone

def userForLiveSession (store : Store) (username sid : String) : Option UserRow :=
  store.users.find? fun user =>
    user.username == username && user.isActive == some true &&
      store.sessions.rows.any fun session =>
        session.userId == user.id && session.sid == sid && session.isLive

/-- The `sub` and the `sid`, where neither is missing or empty. -/
def Claims.names (claims : Claims) : Option (String × String) :=
  match claims.sub, claims.sid with
  | some username, some sid => if username = "" ∨ sid = "" then none else some (username, sid)
  | _, _ => none

/-- The JWT path, the same in `get_current_user`, in `get_current_user_optional` and in
the web socket's `_resolve_user`. -/
def tokenUser (store : Store) (now : Time) (token : String) : Option UserRow :=
  (decodeToken host now token).bind fun claims =>
    claims.names.bind fun named => userForLiveSession store named.1 named.2

def isApiKey (token : String) : Bool := "ukip_".toList.isPrefixOf token.toList

def apiKeyUser (store : Store) (token : String) : Except HttpError UserRow :=
  match host.verifyApiKey token with
  | none => .error invalidToken
  | some record =>
    match store.users.find? fun user =>
        user.id == record.userId && user.isActive == some true with
    | none => .error invalidToken
    | some user =>
      match record.scopeRefusal with
      | some refusal => .error refusal
      | none => .ok user

def getCurrentUser (store : Store) (now : Time) (token : String) : Except HttpError UserRow :=
  if isApiKey token then apiKeyUser host store token
  else
    match tokenUser host store now token with
    | none => .error invalidToken
    | some user => .ok user

/-- The `Authorization` header, cut at its first blank. -/
structure Authorization where
  scheme : String
  credentials : String
  deriving DecidableEq

/-- `OAuth2PasswordBearer` -/
def oauth2Scheme (authorization : Authorization) : Except HttpError String :=
  if authorization.scheme.toLower = "bearer" then .ok authorization.credentials
  else .error notAuthenticated

def currentSid (now : Time) (authorization : Authorization) : Option String :=
  if authorization.scheme = "Bearer" then
    (decodeToken host now authorization.credentials).bind Claims.sid
  else none

/-- The two dependencies that resolve the user of a request from its header. -/
inductive Resolver where
  | currentUser
  | currentUserOptional
  deriving DecidableEq

/-- What a DELETE under `/auth/sessions` or `/users/{user_id}/sessions` names. -/
inductive Revocation where
  | mySession (sessionId : Nat)
  | myOtherSessions
  | userSession (userId sessionId : Nat)
  | allUserSessions (userId : Nat)
  deriving DecidableEq

inductive Request where
  /-- `issue_tokens` for a user whose login was accepted; the sid is drawn by `uuid4`. -/
  | issueTokens (userId : Nat) (sid : String) (userAgent ipAddress : Option String)
  /-- Any endpoint behind one of the resolvers. -/
  | resource (resolver : Resolver) (authorization : Authorization)
  /-- `_resolve_user` of a web socket, which takes its token from the query. -/
  | socket (token : String)
  | refresh (refreshToken : String)
  | revoke (revocation : Revocation) (authorization : Authorization)
  /-- Whatever the rest of the program commits to the users table. -/
  | elsewhere (users : List UserRow)
  deriving DecidableEq

inductive Phase where
  | arrived
  | authenticated (actor : UserRow)
  | found (actor : UserRow) (rows : List SessionRow)
  | identified (user : UserRow) (sid : String)
  | renewing (user : UserRow) (session : SessionRow)
  deriving DecidableEq

inductive Answer where
  | refused (error : HttpError)
  /-- No user, for a resolver that does not raise. -/
  | nobody
  | served (user : UserRow)
  | issued (tokens : TokenPair)
  | revoked (count : Nat)
  | committed
  | raised
  deriving DecidableEq

def resolveUser (store : Store) (now : Time) (resolver : Resolver) (token : String) :
    Except Answer UserRow :=
  match getCurrentUser host store now token with
  | .ok user => .ok user
  | .error error =>
    if resolver = .currentUserOptional ∧ error = invalidToken then .error .nobody
    else .error (.refused error)

def authenticate (store : Store) (now : Time) (resolver : Resolver)
    (authorization : Authorization) : Except Answer UserRow :=
  match oauth2Scheme authorization with
  | .ok token => resolveUser host store now resolver token
  | .error error =>
    if resolver = .currentUserOptional then .error .nobody else .error (.refused error)

/-- The role that an endpoint requires, and the live rows that it selects; an endpoint
for one session refuses where there is none. -/
def selectSessions (store : Store) (now : Time) (authorization : Authorization)
    (actor : UserRow) : Revocation → Except HttpError (List SessionRow)
  | .mySession sessionId => oneOf (sessionOf sessionId actor.id)
  | .myOtherSessions =>
    .ok ((store.sessions.rows.filter (liveOf actor.id)).filter fun row =>
      decide (some row.sid ≠ currentSid host now authorization))
  | .userSession userId sessionId =>
    if actor.role = "super_admin" then oneOf (sessionOf sessionId userId)
    else .error (notAuthorized actor.role)
  | .allUserSessions userId =>
    if actor.role = "super_admin" then .ok (store.sessions.rows.filter (liveOf userId))
    else .error (notAuthorized actor.role)
where
  liveOf (userId : Nat) (row : SessionRow) : Bool := row.userId == userId && row.isLive
  sessionOf (sessionId userId : Nat) (row : SessionRow) : Bool :=
    row.id == sessionId && row.userId == userId && row.isLive
  oneOf (matched : SessionRow → Bool) : Except HttpError (List SessionRow) :=
    match store.sessions.rows.find? matched with
    | none => .error sessionNotFound
    | some row => .ok [row]

/-- `_revoke`.  Both columns are null in the rows that were read, so the UPDATE assigns
both. -/
def revokeSet (now : Time) (actorId : Nat) : SetClause sessionSchema where
  apply := fun row => { row with revokedAt := some now, revokedByUserId := some actorId }
  key_apply := fun _ => rfl
  clash_apply := fun _ _ => rfl

def revokeRows (sessions : SerialTable sessionSchema) (now : Time) (actorId : Nat)
    (rows : List SessionRow) : SerialTable sessionSchema :=
  sessions.updateWhere (fun row => rows.any fun read => read.id == row.id) (revokeSet now actorId)

/-- The UPDATE that `refresh_token` sends for the row it has read. -/
def renewSet (now : Time) (read : SessionRow) : SetClause sessionSchema where
  apply := fun row =>
    { row with
      lastSeenAt := flushColumn read.lastSeenAt (some now) row.lastSeenAt
      expiresAt := flushColumn read.expiresAt
        (some (now + minutes host.refreshTokenExpireMinutes)) row.expiresAt }
  key_apply := fun _ => rfl
  clash_apply := fun _ _ => rfl

def renewRow (sessions : SerialTable sessionSchema) (now : Time) (read : SessionRow) :
    SerialTable sessionSchema :=
  sessions.updateWhere (fun row => row.id == read.id) (renewSet host now read)

/-- `start_session` -/
def newSession (now : Time) (userId : Nat) (sid : String) (userAgent ipAddress : Option String) :
    SessionRow where
  id := 0
  sid := sid
  userId := userId
  createdAt := some now
  lastSeenAt := some now
  expiresAt := some (now + minutes host.refreshTokenExpireMinutes)
  revokedAt := none
  revokedByUserId := none
  userAgent := userAgent
  ipAddress := ipAddress

def Claims.renews (claims : Claims) : Option (String × String) :=
  if claims.type = some "refresh" then claims.names else none

def issue (store : Store) (now : Time) (userId : Nat) (sid : String) :
    Outcome Store Phase Answer :=
  match store.users.find? fun user => user.id == userId with
  | none => .answers store .raised
  | some user => .answers store (.issued (mintTokens host now user sid))

def advance (store : Store) (now : Time) : Request → Phase → Outcome Store Phase Answer
  | .issueTokens userId sid userAgent ipAddress, .arrived =>
    match store.sessions.insert (newSession host now userId sid userAgent ipAddress) with
    | none => .answers store .raised
    | some sessions => issue host { store with sessions := sessions } now userId sid
  | .resource resolver authorization, .arrived =>
    match authenticate host store now resolver authorization with
    | .error answer => .answers store answer
    | .ok user => .goesOn store (.authenticated user)
  | .resource _ _, .authenticated user => .answers store (.served user)
  | .socket token, .arrived =>
    match getCurrentUser host store now token with
    | .error _ => .answers store .nobody
    | .ok user => .goesOn store (.authenticated user)
  | .socket _, .authenticated user => .answers store (.served user)
  | .refresh token, .arrived =>
    match (decodeToken host now token).bind Claims.renews with
    | none => .answers store (.refused invalidRefreshToken)
    | some (username, sid) =>
      match store.users.find? fun user =>
          user.username == username && user.isActive == some true with
      | none => .answers store (.refused invalidRefreshToken)
      | some user => .goesOn store (.identified user sid)
  | .refresh _, .identified user sid =>
    match store.sessions.rows.find? fun row =>
        row.sid == sid && row.userId == user.id && row.isLive with
    | none => .answers store (.refused invalidRefreshToken)
    | some session => .goesOn store (.renewing user session)
  | .refresh _, .renewing user session =>
    issue host { store with sessions := renewRow host store.sessions now session } now user.id
      session.sid
  | .revoke _ authorization, .arrived =>
    match authenticate host store now .currentUser authorization with
    | .error answer => .answers store answer
    | .ok user => .goesOn store (.authenticated user)
  | .revoke revocation authorization, .authenticated actor =>
    match selectSessions host store now authorization actor revocation with
    | .error error => .answers store (.refused error)
    | .ok rows => .goesOn store (.found actor rows)
  | .revoke _ _, .found actor rows =>
    .answers { store with sessions := revokeRows store.sessions now actor.id rows }
      (.revoked rows.length)
  | .elsewhere users, .arrived => .answers { store with users := users } .committed
  -- A phase of another kind of request, which no request reaches.
  | _, _ => .answers store .raised

def protocol : Protocol Store Request Phase Answer Time where
  begins := fun _ => .arrived
  advance := advance host

abbrev State := System Store Request Phase Answer

def Host.namesSession (token sid : String) : Prop :=
  ∃ claims, host.payload token = some claims ∧ claims.sid = some sid

def Host.isAccessToken (token : String) : Prop :=
  ∃ claims, host.payload token = some claims ∧ claims.type = some "access"

def Authorization.bearer (authorization : Authorization) : Option String :=
  match oauth2Scheme authorization with
  | .ok token => if isApiKey token then none else some token
  | .error _ => none

/-- The JWT that `get_current_user` or one of its two variants is given. -/
def Request.bearer : Request → Option String
  | .resource _ authorization => authorization.bearer
  | .revoke _ authorization => authorization.bearer
  | .socket token => if isApiKey token then none else some token
  | .issueTokens _ _ _ _ => none
  | .refresh _ => none
  | .elsewhere _ => none

def Request.token : Request → Option String
  | .refresh token => some token
  | request => request.bearer

def Phase.admitted : Phase → Bool
  | .arrived => false
  | .identified _ _ => false
  | .authenticated _ => true
  | .found _ _ => true
  | .renewing _ _ => true

def Answer.admitted : Answer → Bool
  | .served _ => true
  | .issued _ => true
  | .revoked _ => true
  | .refused _ => false
  | .nobody => false
  | .committed => false
  | .raised => false

def slotRequest : Slot Request Phase Answer → Option Request
  | .free => none
  | .active request _ => some request
  | .answered request _ => some request

theorem slotRequest_outcome (request : Request) (outcome : Outcome Store Phase Answer) :
    slotRequest (outcome.slot request) = some request := by
  cases outcome <;> rfl

def admittedRequest : Slot Request Phase Answer → Option Request
  | .free => none
  | .active request phase => if phase.admitted then some request else none
  | .answered request answer => if answer.admitted then some request else none

variable {now : Time} {token : String}

theorem payload_of_decodeToken {claims : Claims}
    (decoded : decodeToken host now token = some claims) : host.payload token = some claims := by
  obtain ⟨key, _, read⟩ := List.exists_of_findSome?_eq_some decoded
  unfold jwtDecode at read
  cases known : host.payload token with
  | none => simp [known] at read
  | some held =>
    simp only [known] at read
    split at read
    · cases read
    split at read
    · exact read
    · split at read
      · cases read
      exact read

theorem sid_of_names {claims : Claims} {named : String × String}
    (names : claims.names = some named) : claims.sid = some named.2 := by
  unfold Claims.names at names
  split at names
  · rename_i username sid _ here
    split at names
    · cases names
    cases names
    exact here
  · cases names

variable {store : Store} {user : UserRow}

theorem live_of_userForLiveSession {username sid : String}
    (found : userForLiveSession store username sid = some user) :
    ∃ session ∈ store.sessions.rows, session.sid = sid ∧ session.isLive = true := by
  have passes := List.find?_some found
  simp only [Bool.and_eq_true, List.any_eq_true, beq_iff_eq] at passes
  obtain ⟨_, session, member, ⟨_, same⟩, live⟩ := passes
  exact ⟨session, member, same, live⟩

theorem tokenUser_eq_some_iff (store : Store) (now : Time) (token : String) (user : UserRow) :
    tokenUser host store now token = some user ↔
      ∃ claims named, decodeToken host now token = some claims ∧ claims.names = some named ∧
        userForLiveSession store named.1 named.2 = some user := by
  simp only [tokenUser, Option.bind_eq_some_iff]
  constructor
  · rintro ⟨claims, decoded, named, names, found⟩
    exact ⟨claims, named, decoded, names, found⟩
  · rintro ⟨claims, named, decoded, names, found⟩
    exact ⟨claims, decoded, named, names, found⟩

theorem tokenUser_of_getCurrentUser (jwt : isApiKey token = false)
    (accepted : getCurrentUser host store now token = .ok user) :
    tokenUser host store now token = some user := by
  unfold getCurrentUser at accepted
  rw [if_neg (by rw [jwt]; decide)] at accepted
  split at accepted
  · cases accepted
  rename_i found known
  cases accepted
  exact known

theorem getCurrentUser_of_tokenUser (jwt : isApiKey token = false)
    (known : tokenUser host store now token = some user) :
    getCurrentUser host store now token = .ok user := by
  unfold getCurrentUser
  rw [if_neg (by rw [jwt]; decide), known]

theorem bearer_eq_some_iff (authorization : Authorization) (token : String) :
    authorization.bearer = some token ↔
      oauth2Scheme authorization = .ok token ∧ isApiKey token = false := by
  unfold Authorization.bearer
  cases oauth2Scheme authorization with
  | error error => simp
  | ok given =>
    change (if isApiKey given = true then none else some given) = some token ↔ _
    split
    · rename_i apiKey
      simp only [reduceCtorEq, Except.ok.injEq, false_iff, not_and, Bool.not_eq_false]
      rintro rfl
      exact apiKey
    · rename_i jwt
      simp only [Option.some.injEq, Except.ok.injEq]
      exact ⟨fun same => ⟨same, by simpa [← same] using jwt⟩, fun both => both.1⟩

variable {authorization : Authorization} {resolver : Resolver}

theorem authenticate_bearer_iff (user : UserRow) (bearer : authorization.bearer = some token) :
    authenticate host store now resolver authorization = .ok user ↔
      tokenUser host store now token = some user := by
  obtain ⟨scheme, jwt⟩ := (bearer_eq_some_iff authorization token).mp bearer
  unfold authenticate resolveUser
  rw [scheme]
  constructor
  · intro accepted
    dsimp only at accepted
    split at accepted
    · rename_i found known
      cases accepted
      exact tokenUser_of_getCurrentUser host jwt known
    · split at accepted <;> cases accepted
  · intro known
    dsimp only
    rw [getCurrentUser_of_tokenUser host jwt known]

/-- A row has the sid, and every such row is revoked. -/
def Dead (sid : String) (store : Store) : Prop :=
  (∃ session ∈ store.sessions.rows, session.sid = sid) ∧
    ∀ session ∈ store.sessions.rows, session.sid = sid → session.isLive = false

theorem dead_of_revoked {session : SessionRow} (member : session ∈ store.sessions.rows)
    (revoked : session.revokedAt ≠ none) : Dead session.sid store := by
  refine ⟨⟨session, member, rfl⟩, fun other otherMember same => ?_⟩
  have one : other = session :=
    store.sessions.eq_of_clash otherMember member (by simpa [sessionSchema] using same)
  rw [one]
  unfold SessionRow.isLive
  cases stamp : session.revokedAt with
  | none => exact absurd stamp revoked
  | some _ => rfl

variable {sid : String}

theorem dead_updateWhere (dead : Dead sid store) (matched : SessionRow → Bool)
    (set : SetClause sessionSchema) (sameSid : ∀ row, (set.apply row).sid = row.sid)
    (staysRevoked : ∀ row, row.isLive = false → (set.apply row).isLive = false) :
    Dead sid { store with sessions := store.sessions.updateWhere matched set } := by
  have sidOn : ∀ row, (set.onRow matched row).sid = row.sid := by
    intro row
    unfold SetClause.onRow
    split
    · exact sameSid row
    · rfl
  refine ⟨?_, ?_⟩
  · obtain ⟨session, member, same⟩ := dead.1
    exact ⟨set.onRow matched session,
      (store.sessions.mem_updateWhere matched set _).mpr ⟨session, member, rfl⟩,
      (sidOn session).trans same⟩
  · intro _ member same
    obtain ⟨old, oldMember, rfl⟩ := (store.sessions.mem_updateWhere matched set _).mp member
    have gone := dead.2 old oldMember ((sidOn old).symm.trans same)
    unfold SetClause.onRow
    split
    · exact staysRevoked old gone
    · exact gone

theorem dead_insert (dead : Dead sid store) (row : SessionRow)
    {sessions : SerialTable sessionSchema} (inserted : store.sessions.insert row = some sessions) :
    Dead sid { store with sessions := sessions } := by
  obtain ⟨accepted, rfl⟩ := (store.sessions.insert_eq_some_iff sessions row).mp inserted
  obtain ⟨⟨session, member, same⟩, gone⟩ := dead
  refine ⟨⟨session, (store.sessions.mem_append row session accepted).mpr (.inl member), same⟩, ?_⟩
  intro stored storedMember storedSame
  rcases (store.sessions.mem_append row stored accepted).mp storedMember with old | rfl
  · exact gone stored old storedSame
  · have apart := store.sessions.clash_keyed_of_accepted row session accepted member
    have equal : session.sid = (store.sessions.keyed row).sid := same.trans storedSame.symm
    rw [show sessionSchema.clash session (store.sessions.keyed row) =
      (session.sid == (store.sessions.keyed row).sid) from rfl, equal] at apart
    simp at apart

theorem store_issue (store : Store) (now : Time) (userId : Nat) (sid : String) :
    (issue host store now userId sid).store = store := by
  unfold issue
  split <;> rfl

theorem store_advance_cases (store : Store) (now : Time) (request : Request) (phase : Phase) :
    (advance host store now request phase).store = store ∨
      (∃ users, (advance host store now request phase).store = { store with users := users }) ∨
      (∃ row sessions, store.sessions.insert row = some sessions ∧
        (advance host store now request phase).store = { store with sessions := sessions }) ∨
      (∃ session, (advance host store now request phase).store =
        { store with sessions := renewRow host store.sessions now session }) ∨
      ∃ actorId rows, (advance host store now request phase).store =
        { store with sessions := revokeRows store.sessions now actorId rows } := by
  cases request with
  | issueTokens userId sid userAgent ipAddress =>
    cases phase with
    | arrived =>
      simp only [advance]
      split
      · exact .inl rfl
      · rename_i sessions inserted
        exact .inr (.inr (.inl ⟨_, sessions, inserted, store_issue host _ _ _ _⟩))
    | authenticated _ | found _ _ | identified _ _ | renewing _ _ => exact .inl rfl
  | resource resolver authorization =>
    cases phase with
    | arrived =>
      simp only [advance]
      split <;> exact .inl rfl
    | authenticated _ | found _ _ | identified _ _ | renewing _ _ => exact .inl rfl
  | socket token =>
    cases phase with
    | arrived =>
      simp only [advance]
      split <;> exact .inl rfl
    | authenticated _ | found _ _ | identified _ _ | renewing _ _ => exact .inl rfl
  | refresh token =>
    cases phase with
    | arrived =>
      simp only [advance]
      split
      · exact .inl rfl
      · split <;> exact .inl rfl
    | identified user sid =>
      simp only [advance]
      split <;> exact .inl rfl
    | renewing user session =>
      exact .inr (.inr (.inr (.inl ⟨session, store_issue host _ _ _ _⟩)))
    | authenticated _ | found _ _ => exact .inl rfl
  | revoke revocation authorization =>
    cases phase with
    | arrived =>
      simp only [advance]
      split <;> exact .inl rfl
    | authenticated actor =>
      simp only [advance]
      split <;> exact .inl rfl
    | found actor rows => exact .inr (.inr (.inr (.inr ⟨actor.id, rows, rfl⟩)))
    | identified _ _ | renewing _ _ => exact .inl rfl
  | elsewhere users =>
    cases phase with
    | arrived => exact .inr (.inl ⟨users, rfl⟩)
    | authenticated _ | found _ _ | identified _ _ | renewing _ _ => exact .inl rfl

theorem dead_advance (dead : Dead sid store) (now : Time) (request : Request) (phase : Phase) :
    Dead sid (advance host store now request phase).store := by
  obtain same | ⟨users, moved⟩ | ⟨row, sessions, inserted, moved⟩ | ⟨session, moved⟩ |
      ⟨actorId, rows, moved⟩ := store_advance_cases host store now request phase
  · rw [same]
    exact dead
  · rw [moved]
    exact dead
  · rw [moved]
    exact dead_insert dead row inserted
  · rw [moved]
    exact dead_updateWhere dead _ _ (fun _ => rfl) fun _ gone => gone
  · rw [moved]
    exact dead_updateWhere dead _ _ (fun _ => rfl) fun _ _ => rfl

theorem namesSession_unique {token first second : String} (one : host.namesSession token first)
    (other : host.namesSession token second) : first = second := by
  obtain ⟨claims, held, sid⟩ := one
  obtain ⟨otherClaims, otherHeld, otherSid⟩ := other
  rw [held] at otherHeld
  cases otherHeld
  rw [sid] at otherSid
  exact Option.some.inj otherSid

theorem live_of_tokenUser {token sid : String} (known : tokenUser host store now token = some user)
    (names : host.namesSession token sid) :
    ∃ session ∈ store.sessions.rows, session.sid = sid ∧ session.isLive = true := by
  obtain ⟨claims, named, decoded, subject, found⟩ :=
    (tokenUser_eq_some_iff host store now token user).mp known
  have same : named.2 = sid :=
    namesSession_unique host
      ⟨claims, payload_of_decodeToken host decoded, sid_of_names subject⟩ names
  rw [← same]
  exact live_of_userForLiveSession found

/-- A refresh token that was identified names the session to be looked up. -/
def Identified (slot : Slot Request Phase Answer) : Prop :=
  ∀ token user sid, slot = .active (.refresh token) (.identified user sid) →
    host.namesSession token sid

/-- A request in `slot` that names `sid` has not been let in. -/
def Kept (sid : String) (slot : Slot Request Phase Answer) : Prop :=
  ∀ request token, admittedRequest slot = some request → request.token = some token →
    ¬ host.namesSession token sid

theorem identified_begun (request : Request) : Identified host (.active request .arrived) := by
  intro token user sid here
  cases here

theorem identified_advance (store : Store) (now : Time) (request : Request) (phase : Phase) :
    Identified host ((advance host store now request phase).slot request) := by
  intro token user sid here
  cases request with
  | refresh given =>
    cases phase with
    | arrived =>
      simp only [advance] at here
      split at here
      · cases here
      rename_i named read
      split at here
      · cases here
      cases here
      obtain ⟨claims, decoded, renews⟩ := Option.bind_eq_some_iff.mp read
      unfold Claims.renews at renews
      split at renews
      · exact ⟨claims, payload_of_decodeToken host decoded, sid_of_names renews⟩
      · cases renews
    | identified user named =>
      simp only [advance] at here
      split at here <;> cases here
    | renewing user session =>
      simp only [advance, issue] at here
      split at here <;> cases here
    | authenticated _ | found _ _ => cases here
  | issueTokens _ _ _ _ | resource _ _ | socket _ | revoke _ _ | elsewhere _ =>
    have request := congrArg slotRequest here
    rw [slotRequest_outcome] at request
    cases request

variable {request : Request}

theorem kept_answered {answer : Answer}
    (out : answer.admitted = true → ∀ token, request.token = some token →
      ¬ host.namesSession token sid) : Kept host sid (.answered request answer) := by
  intro other token here
  simp only [admittedRequest] at here
  split at here
  · rename_i admitted
    cases here
    exact out admitted token
  · cases here

theorem kept_active {phase : Phase}
    (out : phase.admitted = true → ∀ token, request.token = some token →
      ¬ host.namesSession token sid) : Kept host sid (.active request phase) := by
  intro other token here
  simp only [admittedRequest] at here
  split at here
  · rename_i admitted
    cases here
    exact out admitted token
  · cases here

theorem Kept.not_names {phase : Phase} (kept : Kept host sid (.active request phase))
    (admitted : phase.admitted = true) (token : String) (presents : request.token = some token) :
    ¬ host.namesSession token sid :=
  kept request token (if_pos admitted) presents

theorem not_names_of_tokenUser (dead : Dead sid store)
    (known : tokenUser host store now token = some user) : ¬ host.namesSession token sid := by
  intro names
  obtain ⟨session, member, same, live⟩ := live_of_tokenUser host known names
  rw [dead.2 session member same] at live
  cases live

theorem not_names_of_authenticate (dead : Dead sid store)
    (accepted : authenticate host store now resolver authorization = .ok user) (token : String)
    (bearer : authorization.bearer = some token) : ¬ host.namesSession token sid :=
  not_names_of_tokenUser host dead ((authenticate_bearer_iff host user bearer).mp accepted)

theorem admitted_of_refused {answer : Answer}
    (refused : authenticate host store now resolver authorization = .error answer) :
    answer.admitted = false := by
  unfold authenticate resolveUser at refused
  split at refused
  · split at refused
    · cases refused
    split at refused <;> cases refused <;> rfl
  · split at refused <;> cases refused <;> rfl

theorem kept_issue {sid named : String} (store : Store) (now : Time) (userId : Nat)
    (request : Request)
    (out : ∀ token, request.token = some token → ¬ host.namesSession token sid) :
    Kept host sid ((issue host store now userId named).slot request) := by
  unfold issue
  split
  · exact kept_answered host fun _ => out
  · exact kept_answered host fun _ => out

theorem kept_advance (dead : Dead sid store) (now : Time) (request : Request) (phase : Phase)
    (identified : Identified host (.active request phase))
    (kept : Kept host sid (.active request phase)) :
    Kept host sid ((advance host store now request phase).slot request) := by
  have mismatch : ∀ store : Store, Kept host sid
      ((Outcome.answers store .raised : Outcome Store Phase Answer).slot request) :=
    fun _ => kept_answered host nofun
  cases request with
  | issueTokens userId named userAgent ipAddress =>
    cases phase with
    | arrived =>
      simp only [advance]
      split
      · exact mismatch store
      · exact kept_issue host _ now userId _ nofun
    | authenticated _ | found _ _ | identified _ _ | renewing _ _ => exact mismatch store
  | resource resolver authorization =>
    cases phase with
    | arrived =>
      simp only [advance]
      cases accepted : authenticate host store now resolver authorization with
      | error answer =>
        refine kept_answered host fun admitted => ?_
        rw [admitted_of_refused host accepted] at admitted
        cases admitted
      | ok user =>
        exact kept_active host fun _ token bearer =>
          not_names_of_authenticate host dead accepted token bearer
    | authenticated user => exact kept_answered host fun _ => kept.not_names host rfl
    | found _ _ | identified _ _ | renewing _ _ => exact mismatch store
  | socket token =>
    cases phase with
    | arrived =>
      simp only [advance]
      cases accepted : getCurrentUser host store now token with
      | error error => exact kept_answered host nofun
      | ok user =>
        refine kept_active host fun _ given bearer => ?_
        change (if isApiKey token then none else some token) = some given at bearer
        split at bearer
        · cases bearer
        rename_i jwt
        cases bearer
        exact not_names_of_tokenUser host dead
          (tokenUser_of_getCurrentUser host (by simpa using jwt) accepted)
    | authenticated user => exact kept_answered host fun _ => kept.not_names host rfl
    | found _ _ | identified _ _ | renewing _ _ => exact mismatch store
  | refresh token =>
    cases phase with
    | arrived =>
      simp only [advance]
      cases read : (decodeToken host now token).bind Claims.renews with
      | none => exact kept_answered host nofun
      | some named =>
        dsimp only
        split
        · exact kept_answered host nofun
        · exact kept_active host nofun
    | identified user named =>
      have names : host.namesSession token named := identified token user named rfl
      simp only [advance]
      cases looked : store.sessions.rows.find? fun row =>
          row.sid == named && row.userId == user.id && row.isLive with
      | none => exact kept_answered host nofun
      | some session =>
        refine kept_active host fun _ given presents namesDead => ?_
        cases presents
        have passes := List.find?_some looked
        simp only [Bool.and_eq_true, beq_iff_eq] at passes
        have gone := dead.2 session (List.mem_of_find?_eq_some looked)
          (passes.1.1.trans (namesSession_unique host names namesDead))
        rw [gone] at passes
        cases passes.2
    | renewing user session =>
      exact kept_issue host _ now user.id _ (kept.not_names host rfl)
    | authenticated _ | found _ _ => exact mismatch store
  | revoke revocation authorization =>
    cases phase with
    | arrived =>
      simp only [advance]
      cases accepted : authenticate host store now .currentUser authorization with
      | error answer =>
        refine kept_answered host fun admitted => ?_
        rw [admitted_of_refused host accepted] at admitted
        cases admitted
      | ok user =>
        exact kept_active host fun _ token bearer =>
          not_names_of_authenticate host dead accepted token bearer
    | authenticated actor =>
      simp only [advance]
      split
      · exact kept_answered host nofun
      · exact kept_active host fun _ => kept.not_names host rfl
    | found actor rows => exact kept_answered host fun _ => kept.not_names host rfl
    | identified _ _ | renewing _ _ => exact mismatch store
  | elsewhere users =>
    cases phase with
    | arrived => exact kept_answered host nofun
    | authenticated _ | found _ _ | identified _ _ | renewing _ _ => exact mismatch store

abbrev step : State → Event Request Time → State := (protocol host).step

/-- Of two points of the run, where a session is revoked at the first, no request that
names it and has not been let in by then has been let in at the second. -/
def RevocationFinal (start : State) (events : List (Event Request Time)) : Prop :=
  ∀ before between after, events = before ++ (between ++ after) →
    ∀ session ∈ (runEvents (step host) start before).store.sessions.rows,
      session.revokedAt ≠ none → ∀ key,
        admittedRequest ((runEvents (step host) start before).slots key) = none →
          ∀ request token,
            admittedRequest ((runEvents (step host) start (before ++ between)).slots key) =
                some request →
              request.token = some token → ¬ host.namesSession token session.sid

/-- Whoever was let in with a JWT presented an access token. -/
def AccessOnly (state : State) : Prop :=
  ∀ key request token, admittedRequest (state.slots key) = some request →
    request.bearer = some token → host.isAccessToken token

/-- No bearer is a token of another type that names a live session of an active user. -/
def PresentsAccess (state : State) : Event Request Time → Prop
  | .arrive _ _ => True
  | .proceed key now =>
    ∀ request token claims named user, state.slots key = .active request .arrived →
      request.bearer = some token → decodeToken host now token = some claims →
      claims.names = some named →
      userForLiveSession state.store named.1 named.2 = some user →
        claims.type = some "access"

def AllIdentified (state : State) : Prop := ∀ key, Identified host (state.slots key)

theorem allIdentified_step (state : State) (event : Event Request Time)
    (before : AllIdentified host state) : AllIdentified host (step host state event) := by
  have agrees : Protocol.Agrees (fun _ => True) (fun _ _ slot => Identified host slot)
      (step host state event) := by
    refine Protocol.step_of_rely_guarantee (fun _ _ => True) (fun _ _ => True)
      (fun _ _ _ _ _ known => known) (fun _ _ request _ _ _ => identified_begun host request) ?_
      state event ⟨trivial, before⟩ trivial
    intro other moving now request phase _ _ _
    exact ⟨trivial, trivial, identified_advance host other.store now request phase⟩
  exact agrees.2

/-- The session is revoked and the request of the key has not been let in with a token
that names it. -/
def OutOfReach (sid : String) (key : Nat) (state : State) : Prop :=
  AllIdentified host state ∧
    Protocol.Agrees (Dead sid) (fun other _ slot => other = key → Kept host sid slot) state

theorem outOfReach_step (sid : String) (key : Nat) (state : State) (event : Event Request Time)
    (before : OutOfReach host sid key state) :
    OutOfReach host sid key (step host state event) := by
  refine ⟨allIdentified_step host state event before.1, ?_⟩
  refine Protocol.step_of_rely_guarantee (fun _ _ => True) (fun other _ => AllIdentified host other)
    (fun _ _ _ _ _ known => known) ?_ ?_ state event before.2 before.1
  · intro _ _ request _ _ _ _
    exact kept_active host nofun
  · intro other moving now request phase agrees active all
    refine ⟨dead_advance host agrees.1 now request phase, trivial, fun own => ?_⟩
    exact kept_advance host agrees.1 now request phase (active ▸ all moving)
      (active ▸ agrees.2 moving own)

theorem revocationFinal_of_run (store : Store) (events : List (Event Request Time)) :
    RevocationFinal host (System.idle store) events := by
  intro before between after split session member revoked key out request token admitted presents
  have identified : AllIdentified host (runEvents (step host) (System.idle store) before) :=
    runEvents_of_invariant (allIdentified_step host) _ before nofun
  have notYet : Kept host session.sid ((runEvents (step host) (System.idle store) before).slots key) := by
    intro other given here
    rw [out] at here
    cases here
  have outOfReach := runEvents_of_invariant (outOfReach_step host session.sid key) _ between
    ⟨identified, dead_of_revoked member revoked, fun _ own => own ▸ notYet⟩
  rw [← runEvents_append] at outOfReach
  exact outOfReach.2.2 key rfl request token admitted presents

theorem admitted_arrived_iff (store : Store) (now : Time) (bearer : request.bearer = some token) :
    admittedRequest ((advance host store now request .arrived).slot request) = some request ↔
      ∃ user, tokenUser host store now token = some user := by
  have resolved : ∀ resolver authorization, authorization.bearer = some token →
      ((∃ user, authenticate host store now resolver authorization = .ok user) ↔
        ∃ user, tokenUser host store now token = some user) := fun _ _ here =>
    exists_congr fun user => authenticate_bearer_iff host user here
  cases request with
  | resource resolver authorization =>
    rw [← resolved resolver authorization bearer]
    simp only [advance]
    cases accepted : authenticate host store now resolver authorization with
    | error answer => simp [admittedRequest, admitted_of_refused host accepted]
    | ok user => simp [admittedRequest, Phase.admitted]
  | revoke revocation authorization =>
    rw [← resolved .currentUser authorization bearer]
    simp only [advance]
    cases accepted : authenticate host store now .currentUser authorization with
    | error answer => simp [admittedRequest, admitted_of_refused host accepted]
    | ok user => simp [admittedRequest, Phase.admitted]
  | socket given =>
    change (if isApiKey given then none else some given) = some token at bearer
    split at bearer
    · cases bearer
    rename_i jwt
    cases bearer
    simp only [advance]
    cases accepted : getCurrentUser host store now token with
    | error error =>
      have nobody : ¬ ∃ user, tokenUser host store now token = some user := by
        rintro ⟨user, known⟩
        rw [getCurrentUser_of_tokenUser host (by simpa using jwt) known] at accepted
        cases accepted
      simp [admittedRequest, Answer.admitted, nobody]
    | ok user =>
      have known := tokenUser_of_getCurrentUser host (by simpa using jwt) accepted
      simp [admittedRequest, Phase.admitted, known]
  | issueTokens _ _ _ _ | refresh _ | elsewhere _ => cases bearer

theorem admitted_later {phase : Phase} (bearer : request.bearer = some token)
    (later : phase ≠ .arrived)
    (admitted : admittedRequest ((advance host store now request phase).slot request) =
      some request) : phase.admitted = true := by
  cases phase with
  | arrived => exact absurd rfl later
  | authenticated _ | found _ _ | renewing _ _ => rfl
  | identified user sid =>
    cases request with
    | refresh _ => cases bearer
    | issueTokens _ _ _ _ | resource _ _ | socket _ | revoke _ _ | elsewhere _ => cases admitted

theorem request_of_admitted {slot : Slot Request Phase Answer}
    (admitted : admittedRequest slot = some request) : slotRequest slot = some request := by
  cases slot with
  | free => cases admitted
  | active held phase =>
    simp only [admittedRequest] at admitted
    split at admitted
    · exact admitted
    · cases admitted
  | answered held answer =>
    simp only [admittedRequest] at admitted
    split at admitted
    · exact admitted
    · cases admitted

theorem accessOnly_step_iff (state : State) (event : Event Request Time)
    (before : AccessOnly host state) :
    AccessOnly host (step host state event) ↔ PresentsAccess host state event := by
  obtain ⟨same, rests⟩ | ⟨key, arriving, rfl, free, moved⟩ | ⟨key, now, moving, phase, rfl, active, moved⟩ :=
    (protocol host).step_cases state event
  · rw [show step host state event = state from same]
    refine ⟨fun _ => ?_, fun _ => before⟩
    cases event with
    | arrive _ _ => trivial
    | proceed key now =>
      intro request token claims named user active
      exact absurd active (rests key now rfl request .arrived)
  · rw [show step host state _ = _ from moved]
    refine ⟨fun _ => trivial, fun _ other request token admitted bearer => ?_⟩
    by_cases own : other = key
    · subst own
      rw [System.slots_put_self] at admitted
      cases admitted
    · rw [System.slots_put_of_ne state _ _ own] at admitted
      exact before other request token admitted bearer
  · rw [show step host state _ = _ from moved]
    constructor
    · intro after request token claims named user arrived bearer decoded names found
      rw [active] at arrived
      cases arrived
      have known := (tokenUser_eq_some_iff host state.store now token user).mpr
        ⟨claims, named, decoded, names, found⟩
      have admitted := (admitted_arrived_iff host state.store now bearer).mpr ⟨user, known⟩
      obtain ⟨held, read, access⟩ :=
        after key moving token (by rw [System.slots_put_self]; exact admitted) bearer
      rw [payload_of_decodeToken host decoded] at read
      cases read
      exact access
    · intro presents other request token admitted bearer
      by_cases own : other = key
      · subst own
        rw [System.slots_put_self] at admitted
        have one : moving = request := by
          have held := request_of_admitted admitted
          rw [slotRequest_outcome] at held
          exact Option.some.inj held
        subst one
        by_cases first : phase = .arrived
        · subst first
          obtain ⟨user, known⟩ := (admitted_arrived_iff host state.store now bearer).mp admitted
          obtain ⟨claims, named, decoded, names, found⟩ :=
            (tokenUser_eq_some_iff host state.store now token user).mp known
          exact ⟨claims, payload_of_decodeToken host decoded,
            presents moving token claims named user active bearer decoded names found⟩
        · refine before other moving token ?_ bearer
          rw [active]
          exact if_pos (admitted_later host bearer first admitted)
      · rw [System.slots_put_of_ne state _ _ own] at admitted
        exact before other request token admitted bearer

/-- In every run revocation is final, and the bearers let in are access tokens exactly when
no other token that names a live session is presented as one. -/
theorem revocation_final_and_access_only_iff (store : Store) (events : List (Event Request Time)) :
    (RevocationFinal host (System.idle store) events ∧
        EveryState (step host) (AccessOnly host) (System.idle store) events) ↔
      EveryStep (step host) (PresentsAccess host) (System.idle store) events := by
  have initial : AccessOnly host (System.idle store) := nofun
  rw [everyState_iff_everyStep (accessOnly_step_iff host) (System.idle store) events initial]
  exact ⟨fun both => both.2, fun presents => ⟨revocationFinal_of_run host store events, presents⟩⟩

def mintedClaims (kind : String) (exp : Int) : Claims :=
  ⟨some "ana", some "viewer", some "5c0e", some exp, some kind⟩

def twoTokenHost : Host where
  secretKey := "key"
  retiringSecretKeys := []
  accessTokenExpireMinutes := 480
  refreshTokenExpireMinutes := 10080
  encode := fun claims _ => if claims.type = some "refresh" then "eyJ.refresh" else "eyJ.access"
  payload := fun token =>
    if token = "eyJ.refresh" then some (mintedClaims "refresh" 604800)
    else if token = "eyJ.access" then some (mintedClaims "access" 28800) else none
  verifies := fun _ key => key == "key"
  verifyApiKey := fun _ => none

def oneUser : Store where
  users := [⟨1, "ana", "viewer", some true⟩]
  sessions := SerialTable.empty sessionSchema

def refreshTokenAsBearer : List (Event Request Time) :=
  [.arrive 0 (.issueTokens 1 "5c0e" none none), .proceed 0 0,
    .arrive 1 (.resource .currentUser ⟨"Bearer", "eyJ.refresh"⟩), .proceed 1 (seconds 60)]

example : (runEvents (step twoTokenHost) (System.idle oneUser) refreshTokenAsBearer).slots 0 =
    .answered (.issueTokens 1 "5c0e" none none) (.issued ⟨"eyJ.access", "eyJ.refresh"⟩) := by
  decide +kernel

theorem refresh_token_authenticates :
    ¬ (RevocationFinal twoTokenHost (System.idle oneUser) refreshTokenAsBearer ∧
      EveryState (step twoTokenHost) (AccessOnly twoTokenHost) (System.idle oneUser)
        refreshTokenAsBearer) := by
  rintro ⟨_, every⟩
  have last := (everyState_iff_front (System.idle oneUser) refreshTokenAsBearer).mp every
    refreshTokenAsBearer [] (List.append_nil _).symm
  obtain ⟨claims, read, access⟩ :=
    last 1 (.resource .currentUser ⟨"Bearer", "eyJ.refresh"⟩) "eyJ.refresh"
      (by decide +kernel) (by decide +kernel)
  have held : twoTokenHost.payload "eyJ.refresh" = some (mintedClaims "refresh" 604800) := by
    decide +kernel
  rw [held] at read
  cases read
  exact absurd access (by decide +kernel)

end Ukip.Users.LoginSessions
