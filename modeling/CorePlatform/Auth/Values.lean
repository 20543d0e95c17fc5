import Mathlib.Algebra.Group.Nat.Defs
import CorePlatform.Audit.Values

/-! # The values of the auth domain

Instants and durations are nanoseconds. Identifiers are UUIDs; how one is written and read,
and how a refresh token is digested, is left to `Formats`.
-/

namespace CorePlatform.Auth

open Audit (isBlank)

abbrev Uuid := BitVec 128
abbrev SessionId := Uuid
abbrev AccountId := Uuid
abbrev RefreshTokenId := Uuid
abbrev Generation := Int
abbrev Permission := String
abbrev RefreshTokenHash := String

structure FieldViolation where
  field : String
  code : String
  message : String
  deriving DecidableEq

inductive AuthError where
  | storage (reason : String)
  | cache (reason : String)
  | validation (violations : List FieldViolation)
  | eventPublishFailed (reason : String)
  | concurrentModification
  | sessionNotFound (id : String)
  | sessionRevoked
  | sessionExpired
  | invalidSessionTransition (from_ to_ : String)
  | refreshTokenNotFound
  | refreshTokenExpired
  | refreshTokenReuseDetected
  | refreshTokenAlreadyRotated
  | subjectAlreadyLinked (iss sub : String)
  | tokenSigningFailed
  | idpUnavailable
  | idpAuthenticationFailed
  | accountNotActive (current : String)
  | accountDirectoryUnavailable
  | domainViolation (field message : String)
  | invalidSessionId (text : String)
  | invalidAccountId (text : String)
  deriving DecidableEq

def ensureValid (violations : List FieldViolation) : Except AuthError Unit :=
  if violations = [] then .ok () else .error (.validation violations)

def nanosPerSecond : Int := 1000000000

/-- `Duration::num_seconds`. -/
def numSeconds (duration : Int) : Int := duration.tdiv nanosPerSecond

/-- `DateTime::timestamp`. -/
def timestamp (instant : Int) : Int := instant / nanosPerSecond

/-- The instant from which Postgres counts microseconds. -/
def postgresEpoch : Int := 946684800 * nanosPerSecond

/-- What a `TIMESTAMPTZ` column keeps of an instant. -/
def toMicros (instant : Int) : Int := postgresEpoch + (instant - postgresEpoch).tdiv 1000 * 1000

theorem toMicros_near (instant : Int) : instant - 1000 < toMicros instant ∧ toMicros instant < instant + 1000 := by
  have split := Int.mul_tdiv_add_tmod (instant - postgresEpoch) 1000
  have above := Int.tmod_lt_of_pos (instant - postgresEpoch) (show (0 : Int) < 1000 by decide)
  have below := Int.lt_tmod_of_pos (instant - postgresEpoch) (show (0 : Int) < 1000 by decide)
  unfold toMicros
  constructor <;> omega

theorem numSeconds_near (hp : 0 ≤ duration) :
    numSeconds duration * nanosPerSecond ≤ duration ∧
      duration < numSeconds duration * nanosPerSecond + nanosPerSecond := by
  unfold numSeconds nanosPerSecond
  rw [Int.tdiv_eq_ediv_of_nonneg hp]
  constructor <;> omega

/-- The writing of identifiers and the digest of refresh tokens. -/
structure Formats where
  parseUuid : String → Option Uuid
  hyphenated : Uuid → String
  /-- The SHA-256 digest in URL-safe base64. -/
  digest : String → String
  digestNamed : ∀ text, isBlank (digest text) = false

namespace Formats

variable (formats : Formats)

def sessionId (text : String) : Except AuthError SessionId :=
  match formats.parseUuid text with
  | some id => .ok id
  | none => .error (.invalidSessionId text)

def accountId (text : String) : Except AuthError AccountId :=
  match formats.parseUuid text with
  | some id => .ok id
  | none => .error (.invalidAccountId text)

/-- `TokenMinter::hash_refresh`. -/
def hashRefresh (plaintext : String) : Except AuthError RefreshTokenHash :=
  if isBlank (formats.digest plaintext) then
    .error (.domainViolation "refresh_token_hash" "hash must not be empty")
  else .ok (formats.digest plaintext)

@[simp] theorem hashRefresh_eq (plaintext : String) :
    formats.hashRefresh plaintext = .ok (formats.digest plaintext) := by
  simp [hashRefresh, formats.digestNamed]

end Formats

inductive SessionStatus where
  | active
  | revoked
  | expired
  deriving DecidableEq

namespace SessionStatus

def asStr : SessionStatus → String
  | active => "active"
  | revoked => "revoked"
  | expired => "expired"

def canTransitionTo : SessionStatus → SessionStatus → Bool
  | active, revoked | active, expired => true
  | _, _ => false

end SessionStatus

inductive RefreshTokenStatus where
  | active
  | rotated
  | revoked
  deriving DecidableEq

inductive RevocationReason where
  | logout
  | globalLogout
  | refreshReuse
  | administrative
  deriving DecidableEq

structure DeviceFingerprint where
  userAgent : Option String
  ipAddress : Option String
  deviceId : Option String
  deriving DecidableEq

/-- Without two ids to compare, any device will do. -/
def DeviceFingerprint.sameDeviceAs (device other : DeviceFingerprint) : Bool :=
  match device.deviceId, other.deviceId with
  | some a, some b => a = b
  | _, _ => true

structure IdpSubject where
  issuer : String
  subject : String
  deriving DecidableEq

def IdpSubject.new (issuer subject : String) : Except AuthError IdpSubject :=
  if isBlank issuer then .error (.domainViolation "idp_subject.issuer" "issuer must not be empty")
  else if isBlank subject then .error (.domainViolation "idp_subject.subject" "subject must not be empty")
  else .ok ⟨issuer, subject⟩

structure SessionPolicy where
  accessTtl : Int
  sessionTtl : Int
  absoluteTtl : Int
  refreshTtl : Int

inductive DomainEvent where
  | sessionIssued (sessionId : SessionId) (accountId : AccountId) (subject : IdpSubject) (generation : Generation)
      (issuedAt expiresAt absoluteExpiry occurredAt : Int) (correlationId : Uuid)
  | sessionRevoked (sessionId : SessionId) (accountId : AccountId) (generation : Generation)
      (reason : RevocationReason) (occurredAt : Int) (correlationId : Uuid)
  | subjectLinked (accountId : AccountId) (subject : IdpSubject) (occurredAt : Int) (correlationId : Uuid)
  deriving DecidableEq

structure AccessTokenClaims where
  accountId : AccountId
  sessionId : SessionId
  generation : Generation
  permissions : List Permission
  issuedAt : Int
  expiresAt : Int

def AccessTokenClaims.expiresInSecs (claims : AccessTokenClaims) (now : Int) : Int :=
  max (numSeconds (claims.expiresAt - now)) 0

inductive AccountActivation where
  | active
  | inactive (reason : String)
  deriving DecidableEq

structure AccountSnapshot where
  activation : AccountActivation
  permissions : List Permission

inductive AuthnGrant where
  | authorizationCode (code redirectUri codeVerifier : String)
  | password (username password : String)
  deriving DecidableEq

structure NormalizedClaims where
  issuer : String
  subject : String

end CorePlatform.Auth
