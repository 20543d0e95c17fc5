import CorePlatform.Theory.Interleaving
import CorePlatform.Auth.Handlers
import CorePlatform.Auth.Coherence

/-! # Concurrent requests

Logins, refreshes and logouts run against the same stores, one call of one request at a time. A
request draws its identifiers when it is taken up, and they are new then. The clock moves by itself,
and accounts change on their own.

`contract` is what all requests keep to. Some logouts end early, as they find the session no longer
active; what is known of such a session is the parameter `settled`. -/

namespace CorePlatform.Auth

open Theory

inductive Request where
  | login (cmd : LoginCommand) (correlationId : Uuid) (sessionId : SessionId) (tokenId : RefreshTokenId)
      (secret : String)
  | refresh (cmd : RefreshCommand) (correlationId : Uuid) (successorId : RefreshTokenId) (secret : String)
  | logout (cmd : LogoutCommand) (correlationId : Uuid)
  | logoutAllSessions (cmd : LogoutAllSessionsCommand) (correlationId : Uuid)
  deriving DecidableEq

inductive Outcome where
  | issued (session : IssuedSession)
  | loggedOut (outcome : LogoutOutcome)
  | loggedOutAll (outcome : LogoutAllSessionsOutcome)

inductive Event where
  | tick (duration : Nat)
  | account (accountId : AccountId) (snapshot : AccountSnapshot)

abbrev State := Pool World Request Op Op.Reply AuthError Outcome

abbrev Label := Move Request Event

def Request.ids : Request → List Uuid
  | .login _ _ sessionId tokenId _ => [sessionId, tokenId]
  | .refresh _ _ successorId _ => [successorId]
  | .logout _ _ | .logoutAllSessions _ _ => []

def Request.program (formats : Formats) (policy : SessionPolicy) (now : Int) : Request → Calling Outcome
  | .login cmd correlationId sessionId tokenId secret => do
      let session ← Auth.login formats policy cmd correlationId sessionId tokenId secret now
      pure (.issued session)
  | .refresh cmd correlationId successorId secret => do
      let session ← Auth.refresh formats policy cmd correlationId successorId secret now
      pure (.issued session)
  | .logout cmd correlationId => do
      let outcome ← Auth.logout formats policy cmd correlationId now
      pure (.loggedOut outcome)
  | .logoutAllSessions cmd correlationId => do
      let outcome ← Auth.logoutAllSessions formats policy cmd correlationId now
      pure (.loggedOutAll outcome)

structure Pristine (w : World) : Prop where
  sessions : w.sessions.rows = []
  tokens : w.tokens.rows = []
  minted : w.minted = []
  sweeps : w.sweeps = []
  blacklist : ∀ sessionId, w.blacklist sessionId = none
  opened : ∀ sessionId, w.opened sessionId = none

def host (formats : Formats) (policy : SessionPolicy) : Host World Request Event Op Op.Reply AuthError Outcome where
  init := Pristine
  server := server
  accept w request :=
    if request.ids.Nodup ∧ request.ids.all (fun id => id ∉ w.drawn) then
      some ({ w with drawn := request.ids ++ w.drawn }, request.program formats policy w.clock)
    else none
  elapse w
    | .tick duration => some (w.after duration)
    | .account accountId snapshot => some { w with directory := Function.update w.directory accountId snapshot }

abbrev Answers := List (Heard Op Op.Reply AuthError)

/-- The sessions of the tokens and lists that a request was answered. -/
def seen : Answers → List SessionId
  | [] => []
  | ⟨.findByHash _, .ok (some token)⟩ :: rest => token.sessionId :: seen rest
  | ⟨.listActive _, .ok sessions⟩ :: rest => sessions.map Session.id ++ seen rest
  | _ :: rest => seen rest

def Holds (token : RefreshToken) (w : World) : Prop := ∃ row ∈ w.tokens.rows, TokenStep token row

def Keeps (session : Session) (w : World) : Prop := ∃ row ∈ w.sessions.rows, SessionStep session row

def Ended (sessionId : SessionId) (w : World) : Prop :=
  ∃ row ∈ w.sessions.rows, row.id = sessionId ∧ row.status ≠ .active
  deriving Decidable

/-- Its tokens were revoked all at once. -/
def Swept (sessionId : SessionId) (w : World) : Prop := ∃ sweep ∈ w.sweeps, sweep.sessionId = sessionId
  deriving Decidable

def Blacklisted (sessionId : SessionId) (w : World) : Prop := w.blacklist sessionId ≠ none
  deriving Decidable

def MayMint (ttl now : Int) (sessionId : SessionId) (w : World) : Prop :=
  ∀ until_, w.blacklist sessionId = some until_ → now + World.lifetime ttl ≤ until_

def Finds (settled : SessionId → World → Prop) : Request → World → Op → Prop
  | .logout _ _, w, .findSession id =>
    ∀ row ∈ w.sessions.rows, row.id = id → row.status ≠ .active → settled id w
  | _, _, _ => True

def post (formats : Formats) (policy : SessionPolicy) (settled : SessionId → World → Prop) :
    Request → Answers → Except AuthError Outcome → World → Prop
  | .login _ _ _ _ _, _, .ok _, _ => 0 < policy.accessTtl ∧ 0 < policy.refreshTtl
  | .refresh cmd _ successorId _, _, .ok _, w =>
    ∃ row ∈ w.tokens.rows, row.tokenHash = formats.digest cmd.refreshToken ∧ row.replacedBy = some successorId
  | .refresh _ _ _ _, heard, .error .refreshTokenReuseDetected, w => ∀ sessionId ∈ seen heard, Swept sessionId w
  | .logout cmd _, _, .ok _, w =>
    ∀ sessionId, formats.sessionId cmd.sessionId = .ok sessionId →
      (Swept sessionId w ∧ Blacklisted sessionId w) ∨ settled sessionId w
  | .logoutAllSessions _ _, heard, .ok _, w => ∀ sessionId ∈ seen heard, Swept sessionId w ∧ Blacklisted sessionId w
  | _, _, _, _ => True

def contract (formats : Formats) (policy : SessionPolicy) (settled : SessionId → World → Prop) :
    Contract World Request Event Op Op.Reply AuthError Outcome where
  inv := Coherent policy.accessTtl
  others request w w' := Evolves policy.accessTtl w w' ∧ Spares request.ids w w'
  known request w := ∀ id ∈ request.ids, id ∈ w.drawn
  apart first second := ∀ id ∈ first.ids, id ∉ second.ids
  advancing request w op _ := Finds settled request w op
  elapsing _ _ := True
  post := post formats policy settled

def Lasting (ttl : Int) (assertion : World → Prop) : Prop :=
  ∀ w w', Evolves ttl w w' → assertion w → assertion w'

def Stays (ttl : Int) (ids : List Uuid) (assertion : World → Prop) : Prop :=
  ∀ w w', Evolves ttl w w' → Spares ids w w' → assertion w → assertion w'

section

variable {id : Uuid}

theorem Lasting.stays (hl : Lasting ttl first) : Stays ttl ids first := by
  intro w w' he _ hp
  exact hl w w' he hp

theorem Lasting.and (one : Lasting ttl first) (two : Lasting ttl second) : Lasting ttl fun w => first w ∧ second w := by
  intro w w' he hp
  exact ⟨one w w' he hp.1, two w w' he hp.2⟩

theorem Stays.and (one : Stays ttl ids first) (two : Stays ttl ids second) :
    Stays ttl ids fun w => first w ∧ second w := by
  intro w w' he spares hp
  exact ⟨one w w' he spares hp.1, two w w' he spares hp.2⟩

theorem lasting_true : Lasting ttl fun _ => True := fun _ _ _ _ => trivial

theorem lasting_drawn : Lasting ttl fun w => id ∈ w.drawn := by
  intro w w' he h
  exact he.drawn id h

theorem lasting_since : Lasting ttl fun w => now ≤ w.clock := by
  intro w w' he early
  exact Int.le_trans early he.clock

theorem lasting_holds (token : RefreshToken) : Lasting ttl (Holds token) := by
  rintro w w' he ⟨row, mem, step⟩
  obtain ⟨row', member', step'⟩ := he.tokens row mem
  exact ⟨row', member', step.trans step'⟩

theorem lasting_keeps (sess : Session) : Lasting ttl (Keeps sess) := by
  rintro w w' he ⟨row, mem, step⟩
  obtain ⟨row', member', step'⟩ := he.sessions row mem
  exact ⟨row', member', step.trans step'⟩

variable (sessionId : SessionId)

theorem lasting_ended : Lasting ttl (Ended sessionId) := by
  rintro w w' hev ⟨row, mem, eq, he⟩
  obtain ⟨row', member', step⟩ := hev.sessions row mem
  exact ⟨row', member', step.id.trans eq, step.terminal he⟩

theorem lasting_swept : Lasting ttl (Swept sessionId) := by
  rintro w w' he ⟨sweep, mem, eq⟩
  exact ⟨sweep, he.sweeps sweep mem, eq⟩

theorem lasting_blacklisted : Lasting ttl (Blacklisted sessionId) := by
  intro w w' he h
  exact he.blacklisted sessionId h

theorem lasting_mayMint (ttl now : Int) (sessionId : SessionId) :
    Lasting ttl fun w => now ≤ w.clock ∧ MayMint ttl now sessionId w := by
  rintro w w' he ⟨early, may⟩
  refine ⟨Int.le_trans early he.clock, fun until_ h => ?_⟩
  rcases he.blacklist sessionId until_ h with old | late
  · exact may until_ old
  · omega

theorem lasting_opened : Lasting ttl fun w => w.opened sessionId = some as_ := by
  intro w w' he h
  exact he.opened sessionId as_ h

theorem stays_tokenless (own : id ∈ ids) : Stays ttl ids fun w => ∀ row ∈ w.tokens.rows, row.id ≠ id := by
  rintro w w' _ spares none_ row' mem rfl
  obtain ⟨row, h, eq⟩ := spares.tokens row' mem own
  exact none_ row h eq

theorem stays_chainless (own : id ∈ ids) : Stays ttl ids fun w => ∀ row ∈ w.tokens.rows, row.sessionId ≠ id := by
  rintro w w' _ spares none_ row' mem rfl
  obtain ⟨row, h, eq⟩ := spares.sessionTokens row' mem own
  exact none_ row h eq

theorem stays_sessionless (own : id ∈ ids) : Stays ttl ids fun w => ∀ row ∈ w.sessions.rows, row.id ≠ id := by
  rintro w w' _ spares none_ row' mem rfl
  obtain ⟨row, h, eq⟩ := spares.sessions row' mem own
  exact none_ row h eq

theorem stays_unopened (own : id ∈ ids) : Stays ttl ids fun w => w.opened id = none := by
  intro w w' _ spares none_
  rw [spares.opened id own, none_]

end

theorem serve_error (hf : (server.serve w op).2 = .error e) : e ≠ .refreshTokenReuseDetected := by
  cases op with
  | saveToken token =>
    have hv := saveToken_saved w token
    change (w.saveToken token).2 = _ at hf
    generalize w.saveToken token = res at hf hv
    cases hv <;> cases hf
    assumption
  | saveSession session =>
    have hv := saveSession_saved w session
    change (w.saveSession session).2 = _ at hf
    generalize w.saveSession session = res at hf hv
    cases hv <;> cases hf
    assumption
  | authenticate | saveLink =>
    simp only [server] at hf
    split at hf <;> cases hf
    simp
  | currentGeneration _ opening => cases opening <;> cases hf
  | _ => cases hf

theorem perform_error (hf : (server.perform w op svc).2 = .error e) : e ≠ .refreshTokenReuseDetected := by
  cases svc with
  | served => exact serve_error hf
  | refused reason | replyLost reason =>
    simp only [Server.perform, Except.error.injEq] at hf
    subst hf
    cases op <;> simp [server]

theorem perform_answered (ha : (server.perform w op svc).2 = .ok reply) :
    server.serve w op = ((server.perform w op svc).1, .ok reply) := by
  cases svc with
  | served => exact Prod.ext rfl ha
  | refused | replyLost => cases ha

theorem post_error (other : e ≠ .refreshTokenReuseDetected) :
    post formats policy settled request heard (.error e) w := by
  cases request <;> cases e <;> trivial

section

variable {formats : Formats} {policy : SessionPolicy} {settled : SessionId → World → Prop} {request : Request}

/-- What is left of the request is in order. -/
abbrev Goes (formats : Formats) (policy : SessionPolicy) (settled : SessionId → World → Prop) (request : Request) :
    Calling Outcome → (World → Prop) → Answers → Prop :=
  (contract formats policy settled).Sound server request

section

variable (stays : Stays policy.accessTtl request.ids assertion)

include stays

theorem stable_of_stays : (contract formats policy settled).Stable request assertion :=
  fun w w' _ _ others => stays w w' others.1 others.2

theorem goes_error (other : e ≠ .refreshTokenReuseDetected) :
    Goes formats policy settled request (.error e) assertion heard :=
  ⟨stable_of_stays stays, fun _ _ _ => post_error other⟩

theorem goes_call
    (hpe : ∀ w, Coherent policy.accessTtl w → assertion w → Permitted policy.accessTtl request.ids w op)
    (ho : ∀ w w' reply, Coherent policy.accessTtl w → Coherent policy.accessTtl w' →
      Evolves policy.accessTtl w w' → assertion w → Finds settled request w op →
      server.serve w op = (w', .ok reply) →
      ∃ then_, then_ w' ∧ Goes formats policy settled request (rest reply) then_ (⟨op, .ok reply⟩ :: heard)) :
    Goes formats policy settled request (.perform op >>= rest) assertion heard := by
  refine Contract.Sound.perform (stable_of_stays stays) ?_ ?_ ?_
  · intro w svc inv hp _
    obtain ⟨coherent', acts⟩ := perform_spec inv (hpe w inv hp) svc
    exact ⟨coherent', fun other ne => ⟨acts.evolves, acts.spares other.ids ne⟩⟩
  · intro w svc reply inv hp finds ha
    obtain ⟨coherent', acts⟩ := perform_spec inv (hpe w inv hp) svc
    exact ho w _ reply inv coherent' acts.evolves hp finds (perform_answered ha)
  · intro w svc e hf w'
    exact post_error (perform_error hf)

end

theorem Permitted.of_nil (hp : Permitted ttl [] w op) : Permitted ttl ids w op := by
  cases op with
  | saveToken =>
    rcases hp with ⟨_, _, _, own, _⟩ | hl
    · cases own
    · exact .inr hl
  | saveSession =>
    rcases hp with ⟨first, hk | ⟨own, _⟩⟩ | hl
    · exact .inl ⟨first, .inl hk⟩
    · cases own
    · exact .inr hl
  | currentGeneration _ opening =>
    cases opening with
    | none => trivial
    | some => cases hp.1
  | _ => exact hp

theorem goes_on (stays : Stays policy.accessTtl request.ids assertion)
    (hpe : ∀ w, Coherent policy.accessTtl w → assertion w → Permitted policy.accessTtl [] w op)
    (ho : ∀ w w' reply, Coherent policy.accessTtl w → assertion w → assertion w' → Finds settled request w op →
      server.serve w op = (w', .ok reply) →
      ∃ then_, then_ w' ∧ Goes formats policy settled request (rest reply) then_ (⟨op, .ok reply⟩ :: heard)) :
    Goes formats policy settled request (.perform op >>= rest) assertion heard := by
  refine goes_call stays (fun w inv hp => (hpe w inv hp).of_nil) ?_
  intro w w' reply inv _ _ hp finds hv
  obtain ⟨_, acts⟩ := serve_spec inv (hpe w inv hp)
  rw [hv] at acts
  have holds' := stays w w' acts.evolves (acts.spares request.ids (by simp)) hp
  exact ho w w' reply inv hp holds' finds hv

theorem goes_past (stays : Stays policy.accessTtl request.ids assertion)
    (hp : ∀ w, Coherent policy.accessTtl w → assertion w → Permitted policy.accessTtl [] w op)
    (ho : ∀ reply, Goes formats policy settled request (rest reply) assertion (⟨op, .ok reply⟩ :: heard)) :
    Goes formats policy settled request (.perform op >>= rest) assertion heard :=
  goes_on stays hp fun _ _ reply _ _ holds' _ _ => ⟨assertion, holds', ho reply⟩

end

/-! ## A sample service

One account with one login, under the default lifetimes. The identifiers and secrets are those of
the sample; the digests are what SHA-256 gives for the secrets.
-/

namespace Sample

def seconds (count : Int) : Int := count * nanosPerSecond

def policy : SessionPolicy := ⟨seconds 600, seconds 1800, seconds 28800, seconds 604800⟩

def account : AccountId := 0x0190a5dac96774bbcceb302099a80570#128
def session : SessionId := 0x0190a5dac96774bbcceb302099a80571#128
def token : RefreshTokenId := 0x0190a5dac96774bbcceb302099a80572#128
def nextToken : RefreshTokenId := 0x0190a5dac96774bbcceb302099a80573#128
def otherToken : RefreshTokenId := 0x0190a5dac96774bbcceb302099a80574#128
def correlation : Uuid := 0x0190a5dac96774bbcceb302099a80575#128

def sessionText : String := "0190a5da-c967-74bb-cceb-302099a80571"
def accountText : String := "0190a5da-c967-74bb-cceb-302099a80570"

def secret : String := "AAECAwQFBgcICQoLDA0ODxAREhMUFRYXGBkaGxwdHh8"
def nextSecret : String := "ICEiIyQlJicoKSorLC0uLzAxMjM0NTY3ODk6Ozw9Pj8"
def otherSecret : String := "QEFCQ0RFRkdISUpLTE1OT1BRUlNUVVZXWFlaW1xdXl8"

def formats : Formats where
  parseUuid text := if text = sessionText then some session else if text = accountText then some account else none
  hyphenated id := if id = session then sessionText else accountText
  digest text :=
    if text = secret then "6oZqdX5MOLq_qBJ8vppAnT4fk6AP8UiP9zX8-Rev_9A"
    else if text = nextSecret then "zwkx4Wi0nph1A8rxivb-JTtrPYKoEAjD6OHuZ8fI3FU"
    else if text = otherSecret then "9F3IKnUj0Ul0zqBQ4wKOi_BqjuhVqdYwNOu0-57MIwU"
    else "47DEQpj8HBSa-_TImW-5JCeuQeRkm5NMpJWZG3hSuFU"
  digestNamed text := by
    split
    · decide
    · split
      · decide
      · split <;> decide

def device : DeviceFingerprint := ⟨none, none, some "phone"⟩

def world : World where
  clock := seconds 1700000000
  sessions := .empty
  tokens := .empty
  links _ := none
  generations _ := none
  blacklist _ := none
  outbox := []
  directory _ := ⟨.active, ["read"]⟩
  provision _ := account
  idp _ := some ⟨"keycloak", "ana"⟩
  drawn := []
  minted := []
  sweeps := []
  opened _ := none

def start : State := ⟨world, fun _ => none⟩

theorem start_begins : (host formats policy).machine.init start :=
  ⟨⟨rfl, rfl, rfl, rfl, fun _ => rfl, fun _ => rfl⟩, rfl⟩

def login : Request := .login ⟨.password "ana" "secret", device⟩ correlation session token secret

def refresh : Request := .refresh ⟨secret, device⟩ correlation nextToken nextSecret

def otherRefresh : Request := .refresh ⟨secret, device⟩ correlation otherToken otherSecret

def logout : Request := .logout ⟨sessionText⟩ correlation

def logoutAllSessions : Request := .logoutAllSessions ⟨accountText⟩ correlation

def advances (id count : Nat) : List Label := List.replicate count (.advance id .served)

def loggedIn : List Label := .begin 0 login :: advances 0 11

/-- What a call is for, and whether it has returned. -/
def answered (pool : State) (id : Nat) : Option (Request × Bool) :=
  (pool.calls id).map fun call => (call.request, call.returned.isSome)

theorem returned_of_answered {id : Nat} (done : answered pool id = some (request, true)) :
    ∃ out heard, pool.calls id = some ⟨request, .ok out, heard⟩ := by
  obtain ⟨⟨_, _, heard⟩, h, eq⟩ := Option.map_eq_some_iff.mp done
  simp only [Prod.mk.injEq, Option.isSome_iff_exists] at eq
  obtain ⟨rfl, out, hr⟩ := eq
  cases Call.returned_eq_some.mp hr
  exact ⟨out, heard, h⟩

end Sample
end CorePlatform.Auth
