import CorePlatform.Auth.Values

/-! # Sessions and refresh tokens

A session slides its expiry forward as it is refreshed, never past its absolute one, and is
revoked once. A refresh token is rotated once; a second rotation is a sign of theft. Both
count their changes in a version, which their repositories check.
-/

namespace CorePlatform.Auth

structure SessionIssueParams where
  accountId : AccountId
  subject : IdpSubject
  generation : Generation
  device : DeviceFingerprint
  issuedAt : Int
  expiresAt : Int
  absoluteExpiry : Int
  correlationId : Uuid

structure Session where
  id : SessionId
  accountId : AccountId
  subject : IdpSubject
  generation : Generation
  status : SessionStatus
  device : DeviceFingerprint
  issuedAt : Int
  expiresAt : Int
  absoluteExpiry : Int
  revokedAt : Option Int
  version : Int
  pendingEvents : List DomainEvent
  deriving DecidableEq

namespace Session

def issue (params : SessionIssueParams) (id : SessionId) : Except AuthError Session :=
  if params.expiresAt ≤ params.issuedAt then
    .error (.domainViolation "session.expires_at" "session expiry must be after its issue time")
  else if params.absoluteExpiry < params.expiresAt then
    .error (.domainViolation "session.absolute_expiry" "absolute expiry must be at or after the sliding expiry")
  else
    .ok {
      id
      accountId := params.accountId
      subject := params.subject
      generation := params.generation
      status := .active
      device := params.device
      issuedAt := params.issuedAt
      expiresAt := params.expiresAt
      absoluteExpiry := params.absoluteExpiry
      revokedAt := none
      version := 0
      pendingEvents := [.sessionIssued id params.accountId params.subject params.generation params.issuedAt
        params.expiresAt params.absoluteExpiry params.issuedAt params.correlationId] }

def isExpired (session : Session) (now : Int) : Bool :=
  decide (session.expiresAt ≤ now) || decide (session.absoluteExpiry ≤ now)

def isValidUnder (session : Session) (currentGeneration : Generation) (now : Int) : Bool :=
  decide (session.status = .active) && !session.isExpired now && decide (session.generation = currentGeneration)

def ensureMintable (session : Session) (now : Int) : Except AuthError Unit :=
  match session.status with
  | .revoked => .error .sessionRevoked
  | .expired => .error .sessionExpired
  | .active => if session.isExpired now then .error .sessionExpired else .ok ()

def mintAccessToken (session : Session) (now requestedTtl : Int) (permissions : List Permission) :
    Except AuthError AccessTokenClaims := do
  session.ensureMintable now
  let horizon := min session.expiresAt session.absoluteExpiry
  let expiresAt := min (now + requestedTtl) horizon
  if expiresAt ≤ now then .error .sessionExpired
  else
    .ok {
      accountId := session.accountId
      sessionId := session.id
      generation := session.generation
      permissions
      issuedAt := now
      expiresAt }

/-- Where the sliding expiry would move. -/
def proposed (session : Session) (now ttl : Int) : Int := min (now + ttl) session.absoluteExpiry

def extend (session : Session) (now ttl : Int) : Except AuthError Session := do
  session.ensureMintable now
  if session.expiresAt < session.proposed now ttl then
    .ok { session with expiresAt := session.proposed now ttl, version := session.version + 1 }
  else .ok session

def revoke (session : Session) (now : Int) (reason : RevocationReason) (correlationId : Uuid) :
    Except AuthError Session :=
  if !session.status.canTransitionTo .revoked then
    .error (.invalidSessionTransition session.status.asStr SessionStatus.revoked.asStr)
  else
    .ok { session with
      status := .revoked
      revokedAt := some now
      version := session.version + 1
      pendingEvents := session.pendingEvents ++
        [.sessionRevoked session.id session.accountId session.generation reason now correlationId] }

def markExpired (session : Session) (now : Int) : Except AuthError Session :=
  if !session.isExpired now then .error (.domainViolation "session" "session has not yet reached its expiry")
  else if !session.status.canTransitionTo .expired then
    .error (.invalidSessionTransition session.status.asStr SessionStatus.expired.asStr)
  else .ok { session with status := .expired, version := session.version + 1 }

variable {session : Session}

@[simp] theorem isValidUnder_eq_true {generation : Generation} :
    session.isValidUnder generation now = true ↔
      session.status = .active ∧ session.isExpired now = false ∧ session.generation = generation := by
  simp [isValidUnder, and_assoc]

theorem ensureMintable_of_active (ha : session.status = .active) (hal : session.isExpired now = false) :
    session.ensureMintable now = .ok () := by
  simp [ensureMintable, ha, hal]

theorem issue_ok {id : SessionId} (hi : issue params id = .ok session) :
    session.id = id ∧ session.accountId = params.accountId ∧ session.generation = params.generation ∧
      session.status = .active ∧ session.version = 0 := by
  unfold issue at hi
  split at hi
  · cases hi
  · split at hi
    · cases hi
    · cases hi
      exact ⟨rfl, rfl, rfl, rfl, rfl⟩

theorem revoke_ok :
    session.revoke now reason correlationId = .ok session' ↔
      session.status = .active ∧ session' = { session with
        status := .revoked
        revokedAt := some now
        version := session.version + 1
        pendingEvents := session.pendingEvents ++
          [.sessionRevoked session.id session.accountId session.generation reason now correlationId] } := by
  unfold revoke
  cases session.status <;> simp [SessionStatus.canTransitionTo, eq_comm]

theorem extend_ok (he : session.extend now ttl = .ok session') :
    session.ensureMintable now = .ok () ∧
      ((session.expiresAt < session.proposed now ttl ∧
        session' = { session with expiresAt := session.proposed now ttl, version := session.version + 1 }) ∨
        session.proposed now ttl ≤ session.expiresAt ∧ session' = session) := by
  unfold extend at he
  cases mintable : session.ensureMintable now with
  | error =>
    rw [mintable] at he
    cases he
  | ok =>
    rw [mintable] at he
    refine ⟨rfl, ?_⟩
    by_cases moves : session.expiresAt < session.proposed now ttl
    · simp only [moves, if_true] at he
      cases he
      exact .inl ⟨moves, rfl⟩
    · simp only [moves, if_false] at he
      cases he
      exact .inr ⟨Int.not_lt.mp moves, rfl⟩

theorem mintAccessToken_active (ha : session.status = .active) (hal : now < session.expiresAt)
    (hc : now < session.absoluteExpiry) (long : 0 < ttl) :
    ∃ claims, session.mintAccessToken now ttl permissions = .ok claims := by
  have mintable : session.ensureMintable now = .ok () := by
    refine ensureMintable_of_active ha ?_
    simp only [isExpired, Bool.or_eq_false_iff, decide_eq_false_iff_not]
    omega
  have late : ¬ min (now + ttl) (min session.expiresAt session.absoluteExpiry) ≤ now := by omega
  simp only [mintAccessToken, mintable, late, bind, Except.bind, if_false]
  exact ⟨_, rfl⟩

theorem mintAccessToken_ok (hm : session.mintAccessToken now ttl permissions = .ok claims) :
    claims.accountId = session.accountId ∧ claims.sessionId = session.id ∧ claims.generation = session.generation ∧
      claims.issuedAt = now ∧ now < claims.expiresAt ∧ claims.expiresAt ≤ now + ttl := by
  unfold mintAccessToken at hm
  cases mintable : session.ensureMintable now with
  | error =>
    rw [mintable] at hm
    cases hm
  | ok =>
    rw [mintable] at hm
    by_cases late : min (now + ttl) (min session.expiresAt session.absoluteExpiry) ≤ now
    · simp only [late, if_true] at hm
      cases hm
    · simp only [late, if_false] at hm
      cases hm
      exact ⟨rfl, rfl, rfl, rfl, Int.not_le.mp late, Int.min_le_left _ _⟩

end Session

structure RefreshTokenIssueParams where
  sessionId : SessionId
  accountId : AccountId
  tokenHash : RefreshTokenHash
  issuedAt : Int
  expiresAt : Int

structure RefreshToken where
  id : RefreshTokenId
  sessionId : SessionId
  accountId : AccountId
  tokenHash : RefreshTokenHash
  status : RefreshTokenStatus
  issuedAt : Int
  expiresAt : Int
  usedAt : Option Int
  replacedBy : Option RefreshTokenId
  version : Int

namespace RefreshToken

def issue (params : RefreshTokenIssueParams) (id : RefreshTokenId) : Except AuthError RefreshToken :=
  if params.expiresAt ≤ params.issuedAt then
    .error (.domainViolation "refresh_token.expires_at" "refresh-token expiry must be after its issue time")
  else
    .ok {
      id
      sessionId := params.sessionId
      accountId := params.accountId
      tokenHash := params.tokenHash
      status := .active
      issuedAt := params.issuedAt
      expiresAt := params.expiresAt
      usedAt := none
      replacedBy := none
      version := 0 }

def isExpired (token : RefreshToken) (now : Int) : Bool := decide (token.expiresAt ≤ now)

/-- The rotated token and its successor, which gets the drawn identifier. -/
def rotate (token : RefreshToken) (now : Int) (newHash : RefreshTokenHash) (newExpiresAt : Int)
    (successorId : RefreshTokenId) : Except AuthError (RefreshToken × RefreshToken) :=
  match token.status with
  | .rotated => .error .refreshTokenReuseDetected
  | .revoked => .error .refreshTokenAlreadyRotated
  | .active =>
    if token.isExpired now then .error .refreshTokenExpired
    else do
      let successor ← issue ⟨token.sessionId, token.accountId, newHash, now, newExpiresAt⟩ successorId
      .ok ({ token with
        status := .rotated
        usedAt := some now
        replacedBy := some successor.id
        version := token.version + 1 }, successor)

variable {token : RefreshToken}

theorem issue_ok (hi : issue params successorId = .ok token) :
    params.issuedAt < params.expiresAt ∧ token.id = successorId ∧ token.sessionId = params.sessionId ∧
      token.status = .active ∧ token.replacedBy = none ∧ token.version = 0 := by
  unfold issue at hi
  split at hi
  · cases hi
  · rename_i late
    cases hi
    exact ⟨Int.not_le.mp late, rfl, rfl, rfl, rfl, rfl⟩

theorem rotate_reuse :
    token.rotate now newHash newExpiresAt successorId = .error .refreshTokenReuseDetected ↔
      token.status = .rotated := by
  unfold rotate issue
  cases token.status with
  | rotated | revoked => simp
  | active =>
    cases token.isExpired now
    · by_cases late : newExpiresAt ≤ now <;> simp [late, bind, Except.bind]
    · simp

theorem rotate_active (ha : token.status = .active) (alive : token.isExpired now = false)
    (long : now < newExpiresAt) :
    token.rotate now newHash newExpiresAt succId = .ok ({ token with
        status := .rotated
        usedAt := some now
        replacedBy := some succId
        version := token.version + 1 }, {
        id := succId
        sessionId := token.sessionId
        accountId := token.accountId
        tokenHash := newHash
        status := .active
        issuedAt := now
        expiresAt := newExpiresAt
        usedAt := none
        replacedBy := none
        version := 0 }) := by
  have late : ¬ newExpiresAt ≤ now := by omega
  simp [rotate, issue, ha, alive, late, bind, Except.bind]

theorem rotate_ok (done : token.rotate now newHash newExpiresAt succId = .ok (rotated, successor)) :
    token.status = .active ∧ token.isExpired now = false ∧ now < newExpiresAt ∧
      rotated = { token with
        status := .rotated
        usedAt := some now
        replacedBy := some succId
        version := token.version + 1 } ∧
      successor = {
        id := succId
        sessionId := token.sessionId
        accountId := token.accountId
        tokenHash := newHash
        status := .active
        issuedAt := now
        expiresAt := newExpiresAt
        usedAt := none
        replacedBy := none
        version := 0 } := by
  unfold rotate issue at done
  cases status : token.status with
  | rotated | revoked => simp [status] at done
  | active =>
    cases expired : token.isExpired now with
    | true => simp [status, expired] at done
    | false =>
      by_cases late : newExpiresAt ≤ now
      · simp [status, expired, late, bind, Except.bind] at done
      · simp only [status, expired, late, bind, Except.bind, if_false, Bool.false_eq_true] at done
        cases done
        exact ⟨rfl, rfl, by omega, rfl, rfl⟩

end RefreshToken
end CorePlatform.Auth
