import CorePlatform.Auth.Stores

/-! # Login, refresh, logout and introspection

Each handler is the program of its calls, in the order in which it makes them. The clock
reading and the identifiers and secrets that it draws are its arguments.
-/

namespace CorePlatform.Auth

open Theory
open Audit (isBlank)

structure LoginCommand where
  grant : AuthnGrant
  device : DeviceFingerprint
  deriving DecidableEq

structure RefreshCommand where
  refreshToken : String
  device : DeviceFingerprint
  deriving DecidableEq

structure LogoutCommand where
  sessionId : String
  deriving DecidableEq

structure LogoutAllSessionsCommand where
  accountId : String
  deriving DecidableEq

def present (field code message value : String) : List FieldViolation :=
  if isBlank value then [⟨field, code, message⟩] else []

def LoginCommand.validate (cmd : LoginCommand) : List FieldViolation :=
  match cmd.grant with
  | .authorizationCode code redirectUri _ =>
    present "code" "AUT-VAL-001" "code must not be empty" code ++
      present "redirect_uri" "AUT-VAL-002" "redirect_uri must not be empty" redirectUri
  | .password username password =>
    present "username" "AUT-VAL-003" "username must not be empty" username ++
      -- A password of blanks is a password.
      if password.isEmpty then [⟨"password", "AUT-VAL-004", "password must not be empty"⟩] else []

def RefreshCommand.validate (cmd : RefreshCommand) : List FieldViolation :=
  present "refresh_token" "AUT-VAL-010" "refresh_token must not be empty" cmd.refreshToken

def LogoutCommand.validate (cmd : LogoutCommand) : List FieldViolation :=
  present "session_id" "AUT-VAL-020" "session_id must not be empty" cmd.sessionId

def LogoutAllSessionsCommand.validate (cmd : LogoutAllSessionsCommand) : List FieldViolation :=
  present "account_id" "AUT-VAL-021" "account_id must not be empty" cmd.accountId

structure IssuedSession where
  accountId : AccountId
  sessionId : SessionId
  accessToken : EdgeClaims
  refreshToken : String
  accessExpiresIn : Int
  firstLink : Bool

structure LogoutOutcome where
  success : Bool
  deriving DecidableEq

structure LogoutAllSessionsOutcome where
  generation : Generation
  sessionsRevoked : Int

def publishAll : List DomainEvent → Calling Unit
  | [] => pure ()
  | event :: rest => do
      Program.perform (Op.publish event)
      publishAll rest

/-- The account of a subject, and whether it is still to be linked. -/
def resolveAccount (subject : IdpSubject) : Calling (AccountId × Bool) := do
  match ← Program.perform (Op.findBySubject subject) with
  | some accountId => pure (accountId, false)
  | none => do
      let accountId ← Program.perform (Op.resolveOrProvision subject)
      pure (accountId, true)

def establishLink (subject : IdpSubject) (accountId : AccountId) (now : Int) (correlationId : Uuid) : Calling Unit := do
  Program.perform (Op.saveLink subject accountId)
  publishAll [.subjectLinked accountId subject now correlationId]

/-- From the generation on: the session, its refresh token and its access token. -/
def openSession (formats : Formats) (policy : SessionPolicy) (device : DeviceFingerprint) (subject : IdpSubject)
    (accountId : AccountId) (permissions : List Permission) (firstLink : Bool) (correlationId : Uuid)
    (sessionId : SessionId) (tokenId : RefreshTokenId) (secret : String) (now : Int) : Calling IssuedSession := do
  let generation ← Program.perform (Op.currentGeneration accountId (some sessionId))
  let session ← Session.issue {
    accountId, subject, generation, device
    issuedAt := now
    expiresAt := now + policy.sessionTtl
    absoluteExpiry := now + policy.absoluteTtl
    correlationId } sessionId
  Program.perform (Op.saveSession session)
  publishAll session.pendingEvents
  let tokenHash ← formats.hashRefresh secret
  let refresh ← RefreshToken.issue ⟨session.id, accountId, tokenHash, now, now + policy.refreshTtl⟩ tokenId
  Program.perform (Op.saveToken refresh)
  let claims ← session.mintAccessToken now policy.accessTtl permissions
  let accessToken ← Program.perform (Op.mintAccess claims)
  pure {
    accountId
    sessionId := session.id
    accessToken
    refreshToken := secret
    accessExpiresIn := claims.expiresInSecs now
    firstLink }

/-- `LoginHandler::handle`. -/
def login (formats : Formats) (policy : SessionPolicy) (cmd : LoginCommand) (correlationId : Uuid)
    (sessionId : SessionId) (tokenId : RefreshTokenId) (secret : String) (now : Int) : Calling IssuedSession := do
  ensureValid cmd.validate
  let claims ← Program.perform (Op.authenticate cmd.grant)
  let subject ← IdpSubject.new claims.issuer claims.subject
  let (accountId, needsLink) ← resolveAccount subject
  let snapshot ← Program.perform (Op.lookup accountId)
  match snapshot.activation with
  | .inactive reason => Program.error (.accountNotActive reason)
  | .active => do
      if needsLink then establishLink subject accountId now correlationId
      openSession formats policy cmd.device subject accountId snapshot.permissions needsLink correlationId
        sessionId tokenId secret now

def revokeGeneration (policy : SessionPolicy) (now : Int) (accountId : AccountId) (sessionId : SessionId)
    (correlationId : Uuid) : Calling Unit := do
  let _ ← Program.perform (Op.bumpGeneration accountId)
  Program.perform (Op.revokeAllForSession sessionId)
  match ← Program.perform (Op.findSession sessionId) with
  | some session =>
    if session.status = .active then do
      let session ← session.revoke now .refreshReuse correlationId
      Program.perform (Op.saveSession session)
      Program.perform (Op.blacklistSession sessionId policy.accessTtl)
      publishAll session.pendingEvents
    else pure ()
  | none => pure ()

/-- Persist the rotation, slide the window, mint the new pair. -/
def persistRotation (policy : SessionPolicy) (now : Int) (token rotated successor : RefreshToken) (session : Session)
    (permissions : List Permission) (secret : String) : Calling IssuedSession := do
  Program.perform (Op.saveToken rotated)
  Program.perform (Op.saveToken successor)
  let session ← session.extend now policy.sessionTtl
  Program.perform (Op.saveSession session)
  let claims ← session.mintAccessToken now policy.accessTtl permissions
  let accessToken ← Program.perform (Op.mintAccess claims)
  pure {
    accountId := token.accountId
    sessionId := token.sessionId
    accessToken
    refreshToken := secret
    accessExpiresIn := claims.expiresInSecs now
    firstLink := false }

/-- The gates that a rotated token has to pass. -/
def exchange (formats : Formats) (policy : SessionPolicy) (device : DeviceFingerprint) (now : Int)
    (token rotated successor : RefreshToken) (secret : String) : Calling IssuedSession := do
  let some session ← Program.perform (Op.findSession token.sessionId)
    | Program.error (.sessionNotFound (formats.hyphenated token.sessionId))
  let currentGeneration ← Program.perform (Op.currentGeneration token.accountId none)
  if !session.isValidUnder currentGeneration now then Program.error .sessionRevoked
  else if !session.device.sameDeviceAs device then
    Program.error (.domainViolation "device" "refresh device does not match the session's bound device")
  else do
    let snapshot ← Program.perform (Op.lookup token.accountId)
    match snapshot.activation with
    | .inactive reason => Program.error (.accountNotActive reason)
    | .active => persistRotation policy now token rotated successor session snapshot.permissions secret

/-- `RefreshHandler::handle`. -/
def refresh (formats : Formats) (policy : SessionPolicy) (cmd : RefreshCommand) (correlationId : Uuid)
    (successorId : RefreshTokenId) (secret : String) (now : Int) : Calling IssuedSession := do
  ensureValid cmd.validate
  let hash ← formats.hashRefresh cmd.refreshToken
  let some token ← Program.perform (Op.findByHash hash) | Program.error .refreshTokenNotFound
  let newHash ← formats.hashRefresh secret
  match token.rotate now newHash (now + policy.refreshTtl) successorId with
  | .ok (rotated, successor) => exchange formats policy cmd.device now token rotated successor secret
  | .error .refreshTokenReuseDetected => do
      revokeGeneration policy now token.accountId token.sessionId correlationId
      Program.error .refreshTokenReuseDetected
  | .error other => Program.error other

/-- `LogoutHandler::handle`. -/
def logout (formats : Formats) (policy : SessionPolicy) (cmd : LogoutCommand) (correlationId : Uuid) (now : Int) :
    Calling LogoutOutcome := do
  ensureValid cmd.validate
  let sessionId ← formats.sessionId cmd.sessionId
  let some session ← Program.perform (Op.findSession sessionId)
    | Program.error (.sessionNotFound (formats.hyphenated sessionId))
  if session.status ≠ .active then pure ⟨true⟩
  else do
    let session ← session.revoke now .logout correlationId
    Program.perform (Op.saveSession session)
    Program.perform (Op.blacklistSession sessionId policy.accessTtl)
    Program.perform (Op.revokeAllForSession sessionId)
    publishAll session.pendingEvents
    pure ⟨true⟩

/-- The sessions of a global logout, one after the other. -/
def revokeEach (policy : SessionPolicy) (correlationId : Uuid) (now : Int) (revoked : Int) : List Session → Calling Int
  | [] => pure revoked
  | session :: rest =>
    if session.status ≠ .active then revokeEach policy correlationId now revoked rest
    else do
      let sessionId := session.id
      let session ← session.revoke now .globalLogout correlationId
      Program.perform (Op.saveSession session)
      Program.perform (Op.blacklistSession sessionId policy.accessTtl)
      Program.perform (Op.revokeAllForSession sessionId)
      publishAll session.pendingEvents
      revokeEach policy correlationId now (revoked + 1) rest

/-- `LogoutAllSessionsHandler::handle`. -/
def logoutAllSessions (formats : Formats) (policy : SessionPolicy) (cmd : LogoutAllSessionsCommand)
    (correlationId : Uuid) (now : Int) : Calling LogoutAllSessionsOutcome := do
  ensureValid cmd.validate
  let accountId ← formats.accountId cmd.accountId
  let generation ← Program.perform (Op.bumpGeneration accountId)
  let sessions ← Program.perform (Op.listActive accountId)
  let revoked ← revokeEach policy correlationId now 0 sessions
  pure ⟨generation, revoked⟩

structure IntrospectionView where
  active : Bool
  accountId : Option String
  sessionId : Option String
  generation : Generation
  permissions : List Permission
  expiresAt : Option Int

def IntrospectionView.inactive : IntrospectionView := ⟨false, none, none, 0, [], none⟩

/-- The claims of a token that this service has signed. -/
def verifyAccess (token : EdgeClaims) : AccessTokenClaims where
  accountId := token.sub
  sessionId := token.sid
  generation := token.gen
  permissions := token.perms
  issuedAt := token.iat * nanosPerSecond
  expiresAt := token.exp * nanosPerSecond

/-- `IntrospectHandler::handle_at`. -/
def introspect (formats : Formats) (token : EdgeClaims) (now : Int) : Calling IntrospectionView := do
  let claims := verifyAccess token
  if claims.expiresAt ≤ now then pure .inactive
  else do
    let currentGeneration ← Program.perform (Op.currentGeneration claims.accountId none)
    if claims.generation ≠ currentGeneration then pure .inactive
    else do
      let blacklisted ← Program.perform (Op.isBlacklisted claims.sessionId)
      if blacklisted then pure .inactive
      else
        pure {
          active := true
          accountId := some (formats.hyphenated claims.accountId)
          sessionId := some (formats.hyphenated claims.sessionId)
          generation := claims.generation
          permissions := claims.permissions
          expiresAt := some claims.expiresAt }

end CorePlatform.Auth
