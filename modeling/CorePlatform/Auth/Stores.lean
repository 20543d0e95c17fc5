import Mathlib.Data.List.Sort
import CorePlatform.Theory.Rows
import CorePlatform.Theory.Server
import CorePlatform.Auth.Aggregates

/-! # What the auth handlers call

The two Postgres tables, the Redis cache, the outbox, the account directory and the identity
provider. A save with version zero inserts; any other updates the row stored with the version
before. Revoking all tokens of a session leaves their versions alone.

An access token stands for its signed claims. Three things are written down that no handler reads:
the claims of all tokens minted, the tokens each bulk revocation hit, and the generation each
session was opened under. -/

namespace CorePlatform.Auth

open Theory Function

/-- `sessions`. -/
structure SessionTable where
  rows : List Session
  ids : (rows.map Session.id).Nodup

/-- `refresh_tokens`. -/
structure TokenTable where
  rows : List RefreshToken
  ids : (rows.map RefreshToken.id).Nodup
  hashes : (rows.map RefreshToken.tokenHash).Nodup

/-- The claims on the wire, with times in whole seconds. -/
structure EdgeClaims where
  sub : AccountId
  sid : SessionId
  gen : Generation
  iat : Int
  exp : Int
  perms : List Permission

structure Sweep where
  sessionId : SessionId
  revoked : List RefreshTokenId

structure World where
  clock : Int
  sessions : SessionTable
  tokens : TokenTable
  links : IdpSubject → Option AccountId
  /-- `Generation` counters; a missing one is the initial generation. -/
  generations : AccountId → Option Generation
  /-- When the blacklist entry of a session runs out. -/
  blacklist : SessionId → Option Int
  outbox : List DomainEvent
  directory : AccountId → AccountSnapshot
  provision : IdpSubject → AccountId
  /-- Who the identity provider says a grant is from. -/
  idp : AuthnGrant → Option NormalizedClaims
  drawn : List Uuid
  minted : List AccessTokenClaims
  sweeps : List Sweep
  opened : SessionId → Option (AccountId × Generation)

inductive Op where
  | authenticate (grant : AuthnGrant)
  | findBySubject (subject : IdpSubject)
  | resolveOrProvision (subject : IdpSubject)
  | saveLink (subject : IdpSubject) (accountId : AccountId)
  | lookup (accountId : AccountId)
  /-- `opening` is the session that is going to carry the generation, if it is for one. -/
  | currentGeneration (accountId : AccountId) (opening : Option SessionId)
  | bumpGeneration (accountId : AccountId)
  | blacklistSession (sessionId : SessionId) (ttl : Int)
  | isBlacklisted (sessionId : SessionId)
  | findSession (id : SessionId)
  | listActive (accountId : AccountId)
  | saveSession (session : Session)
  | findByHash (hash : RefreshTokenHash)
  | saveToken (token : RefreshToken)
  | revokeAllForSession (sessionId : SessionId)
  | publish (event : DomainEvent)
  | mintAccess (claims : AccessTokenClaims)

abbrev Op.Reply : Op → Type
  | .authenticate _ => NormalizedClaims
  | .findBySubject _ => Option AccountId
  | .resolveOrProvision _ => AccountId
  | .lookup _ => AccountSnapshot
  | .currentGeneration _ _ | .bumpGeneration _ => Generation
  | .isBlacklisted _ => Bool
  | .findSession _ => Option Session
  | .listActive _ => List Session
  | .findByHash _ => Option RefreshToken
  | .mintAccess _ => EdgeClaims
  | _ => Unit

namespace SessionTable

def empty : SessionTable := ⟨[], List.nodup_nil⟩

def find (table : SessionTable) (id : SessionId) : Option Session :=
  table.rows.find? fun row => decide (row.id = id)

def stored (session : Session) : Session :=
  { session with
    issuedAt := toMicros session.issuedAt
    expiresAt := toMicros session.expiresAt
    absoluteExpiry := toMicros session.absoluteExpiry
    revokedAt := session.revokedAt.map toMicros
    pendingEvents := [] }

def written (session row : Session) : Session :=
  { row with
    status := session.status
    expiresAt := toMicros session.expiresAt
    revokedAt := session.revokedAt.map toMicros
    version := session.version }

def matches_ (session row : Session) : Bool :=
  decide (row.id = session.id) && decide (row.version = session.version - 1)

theorem matches_iff : matches_ session row = true ↔ row.id = session.id ∧ row.version = session.version - 1 := by
  simp [matches_]

def insert (table : SessionTable) (session : Session) : Option SessionTable :=
  if fresh : session.id ∈ table.rows.map Session.id then none
  else some ⟨stored session :: table.rows, List.nodup_cons.mpr ⟨fresh, table.ids⟩⟩

def update (table : SessionTable) (session : Session) : SessionTable where
  rows := Rows.update (matches_ session) (written session) table.rows
  ids := Rows.nodup_update (fun _ => rfl) table.ids

end SessionTable

namespace TokenTable

def empty : TokenTable := ⟨[], List.nodup_nil, List.nodup_nil⟩

def findByHash (table : TokenTable) (hash : RefreshTokenHash) : Option RefreshToken :=
  table.rows.find? fun row => decide (row.tokenHash = hash)

def stored (token : RefreshToken) : RefreshToken :=
  { token with
    issuedAt := toMicros token.issuedAt
    expiresAt := toMicros token.expiresAt
    usedAt := token.usedAt.map toMicros }

def written (token row : RefreshToken) : RefreshToken :=
  { row with
    status := token.status
    usedAt := token.usedAt.map toMicros
    replacedBy := token.replacedBy
    version := token.version }

def matches_ (token row : RefreshToken) : Bool :=
  decide (row.id = token.id) && decide (row.version = token.version - 1)

theorem matches_iff : matches_ token row = true ↔ row.id = token.id ∧ row.version = token.version - 1 := by
  simp [matches_]

def insert (table : TokenTable) (token : RefreshToken) : Except AuthError TokenTable :=
  if freshId : token.id ∈ table.rows.map RefreshToken.id then
    .error (.storage "duplicate key value violates unique constraint \"refresh_tokens_pkey\"")
  else if freshHash : token.tokenHash ∈ table.rows.map RefreshToken.tokenHash then
    .error (.storage "duplicate key value violates unique constraint \"uq_refresh_tokens_hash\"")
  else
    .ok ⟨stored token :: table.rows, List.nodup_cons.mpr ⟨freshId, table.ids⟩,
      List.nodup_cons.mpr ⟨freshHash, table.hashes⟩⟩

def update (table : TokenTable) (token : RefreshToken) : TokenTable where
  rows := Rows.update (matches_ token) (written token) table.rows
  ids := Rows.nodup_update (fun _ => rfl) table.ids
  hashes := Rows.nodup_update (fun _ => rfl) table.hashes

def liveIn (sessionId : SessionId) (row : RefreshToken) : Bool :=
  decide (row.sessionId = sessionId) && decide (row.status = .active)

def revokeAll (table : TokenTable) (sessionId : SessionId) (now : Int) : TokenTable where
  rows := Rows.update (liveIn sessionId)
    (fun row => { row with status := .revoked, usedAt := some (toMicros now) }) table.rows
  ids := Rows.nodup_update (fun _ => rfl) table.ids
  hashes := Rows.nodup_update (fun _ => rfl) table.hashes

end TokenTable

namespace World

def after (w : World) (duration : Nat) : World := { w with clock := w.clock + duration }

def generation (w : World) (accountId : AccountId) : Generation := (w.generations accountId).getD 0

/-- `PgSessionRepository::save`. -/
def saveSession (w : World) (session : Session) : World × Except AuthError Unit :=
  if session.version = 0 then
    match w.sessions.insert session with
    | some sessions => ({ w with sessions }, .ok ())
    | none => (w, .error (.storage "duplicate key value violates unique constraint \"sessions_pkey\""))
  else if w.sessions.rows.any (SessionTable.matches_ session) then
    ({ w with sessions := w.sessions.update session }, .ok ())
  else (w, .error .concurrentModification)

/-- `PgRefreshTokenRepository::save`. -/
def saveToken (w : World) (token : RefreshToken) : World × Except AuthError Unit :=
  if token.version = 0 then
    match w.tokens.insert token with
    | .ok tokens => ({ w with tokens }, .ok ())
    | .error e => (w, .error e)
  else if w.tokens.rows.any (TokenTable.matches_ token) then
    ({ w with tokens := w.tokens.update token }, .ok ())
  else (w, .error .concurrentModification)

def revokeAllForSession (w : World) (sessionId : SessionId) : World :=
  { w with
    tokens := w.tokens.revokeAll sessionId w.clock
    sweeps := ⟨sessionId, (w.tokens.rows.filter (TokenTable.liveIn sessionId)).map RefreshToken.id⟩ :: w.sweeps }

def lifetime (ttl : Int) : Int := max (numSeconds ttl) 1 * nanosPerSecond

def isBlacklisted (w : World) (sessionId : SessionId) : Bool :=
  match w.blacklist sessionId with
  | some until_ => decide (w.clock < until_)
  | none => false

/-- The active sessions of an account, the newest first. -/
def listActive (w : World) (accountId : AccountId) : List Session :=
  (w.sessions.rows.filter fun row => decide (row.accountId = accountId) && decide (row.status = .active)).insertionSort
    fun a b => b.issuedAt ≤ a.issuedAt

end World

def edgeClaims (claims : AccessTokenClaims) : EdgeClaims where
  sub := claims.accountId
  sid := claims.sessionId
  gen := claims.generation
  iat := timestamp claims.issuedAt
  exp := timestamp claims.expiresAt
  perms := claims.permissions

def server : Server World Op Op.Reply AuthError where
  serve w
    | .authenticate grant =>
      match w.idp grant with
      | some claims => (w, .ok claims)
      | none => (w, .error .idpAuthenticationFailed)
    | .findBySubject subject => (w, .ok (w.links subject))
    | .resolveOrProvision subject => (w, .ok (w.provision subject))
    | .saveLink subject accountId =>
      match w.links subject with
      | some _ => (w, .error (.subjectAlreadyLinked subject.issuer subject.subject))
      | none => ({ w with links := update w.links subject (some accountId) }, .ok ())
    | .lookup accountId => (w, .ok (w.directory accountId))
    | .currentGeneration accountId opening =>
      match opening with
      | some sessionId =>
        ({ w with opened := update w.opened sessionId (some (accountId, w.generation accountId)) },
          .ok (w.generation accountId))
      | none => (w, .ok (w.generation accountId))
    | .bumpGeneration accountId =>
      ({ w with generations := update w.generations accountId (some (w.generation accountId + 1)) },
        .ok (w.generation accountId + 1))
    | .blacklistSession sessionId ttl =>
      ({ w with blacklist := update w.blacklist sessionId (some (w.clock + World.lifetime ttl)) }, .ok ())
    | .isBlacklisted sessionId => (w, .ok (w.isBlacklisted sessionId))
    | .findSession id => (w, .ok (w.sessions.find id))
    | .listActive accountId => (w, .ok (w.listActive accountId))
    | .saveSession session => w.saveSession session
    | .findByHash hash => (w, .ok (w.tokens.findByHash hash))
    | .saveToken token => w.saveToken token
    | .revokeAllForSession sessionId => (w.revokeAllForSession sessionId, .ok ())
    | .publish event => ({ w with outbox := w.outbox ++ [event] }, .ok ())
    | .mintAccess claims => ({ w with minted := claims :: w.minted }, .ok (edgeClaims claims))
  failure
    | .authenticate _, _ => .idpUnavailable
    | .resolveOrProvision _, _ | .lookup _, _ => .accountDirectoryUnavailable
    | .currentGeneration _ _, reason | .bumpGeneration _, reason | .blacklistSession _ _, reason
    | .isBlacklisted _, reason => .cache reason
    | .publish _, reason => .eventPublishFailed ("outbox enqueue: " ++ reason)
    | .mintAccess _, _ => .tokenSigningFailed
    | .findBySubject _, reason | .saveLink _ _, reason | .findSession _, reason | .listActive _, reason
    | .saveSession _, reason | .findByHash _, reason | .saveToken _, reason | .revokeAllForSession _, reason =>
      .storage reason

abbrev Calling := Program Op Op.Reply AuthError

section

variable (w : World)

variable (accountId : AccountId) (sessionId : SessionId)

@[simp] theorem serve_lookup : server.serve w (.lookup accountId) = (w, .ok (w.directory accountId)) := rfl

@[simp] theorem serve_currentGeneration :
    server.serve w (.currentGeneration accountId none) = (w, .ok (w.generation accountId)) := rfl

@[simp] theorem serve_bumpGeneration :
    server.serve w (.bumpGeneration accountId) =
      ({ w with generations := update w.generations accountId (some (w.generation accountId + 1)) },
        .ok (w.generation accountId + 1)) := rfl

@[simp] theorem serve_blacklistSession :
    server.serve w (.blacklistSession sessionId ttl) =
      ({ w with blacklist := update w.blacklist sessionId (some (w.clock + World.lifetime ttl)) }, .ok ()) :=
  rfl

@[simp] theorem serve_isBlacklisted :
    server.serve w (.isBlacklisted sessionId) = (w, .ok (w.isBlacklisted sessionId)) := rfl

@[simp] theorem serve_findSession (id : SessionId) :
    server.serve w (.findSession id) = (w, .ok (w.sessions.find id)) := rfl

@[simp] theorem serve_saveSession (session : Session) :
    server.serve w (.saveSession session) = w.saveSession session := rfl

@[simp] theorem serve_findByHash (hash : RefreshTokenHash) :
    server.serve w (.findByHash hash) = (w, .ok (w.tokens.findByHash hash)) := rfl

@[simp] theorem serve_saveToken (token : RefreshToken) : server.serve w (.saveToken token) = w.saveToken token := rfl

@[simp] theorem serve_revokeAllForSession :
    server.serve w (.revokeAllForSession sessionId) = (w.revokeAllForSession sessionId, .ok ()) := rfl

@[simp] theorem serve_mintAccess (claims : AccessTokenClaims) :
    server.serve w (.mintAccess claims) = ({ w with minted := claims :: w.minted }, .ok (edgeClaims claims)) := rfl

end
end CorePlatform.Auth
