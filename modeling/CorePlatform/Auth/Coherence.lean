import CorePlatform.Auth.Stores

/-! # What every call keeps, and what it does to the others

A call is only made where it is `Permitted`: its handler sees to that, from what it has read. Then
the stores stay coherent, whatever becomes of the answer: a session has at most one token at the end
of its chain, a blacklisted session is no longer active, and no token minted of it outlives its
entry.

What a call does to the others is little: rows are never removed, a rotated token is never written
again, a session row changes only with its version, and nothing appears under an identifier another
call has drawn. -/

namespace CorePlatform.Auth

open Theory Function List Option

def Shape (row : RefreshToken) : Prop :=
  (row.version = 0 ∧ row.status ≠ .rotated ∧ row.replacedBy = none) ∨
    (row.version = 1 ∧ row.status = .rotated ∧ ∃ next, row.replacedBy = some next)

def Tip (tokens : TokenTable) (row : RefreshToken) : Prop :=
  row.version = 0 ∨ ∃ next, row.replacedBy = some next ∧ next ∉ tokens.rows.map RefreshToken.id

/-- `ttl` is the lifetime of access tokens. -/
structure Coherent (ttl : Int) (w : World) : Prop where
  shape : ∀ row ∈ w.tokens.rows, Shape row
  tips : ∀ a ∈ w.tokens.rows, ∀ b ∈ w.tokens.rows, a.sessionId = b.sessionId → Tip w.tokens a → Tip w.tokens b → a = b
  drawnTokens : ∀ row ∈ w.tokens.rows, row.id ∈ w.drawn ∧ row.sessionId ∈ w.drawn
  drawnSessions : ∀ row ∈ w.sessions.rows, row.id ∈ w.drawn
  versions : ∀ row ∈ w.sessions.rows, 0 ≤ row.version
  minted : ∀ claims ∈ w.minted, claims.issuedAt ≤ w.clock ∧ claims.expiresAt ≤ claims.issuedAt + ttl ∧
    ∃ row ∈ w.sessions.rows, row.id = claims.sessionId
  blacklisted : ∀ sessionId until_, w.blacklist sessionId = some until_ →
    (∃ row ∈ w.sessions.rows, row.id = sessionId ∧ row.status ≠ .active) ∧
      ∀ claims ∈ w.minted, claims.sessionId = sessionId → claims.issuedAt + World.lifetime ttl ≤ until_
  opened : ∀ sessionId accountId generation, w.opened sessionId = some (accountId, generation) →
    sessionId ∈ w.drawn ∧ generation ≤ w.generation accountId ∧
      (∀ row ∈ w.sessions.rows, row.id = sessionId → row.accountId = accountId ∧ row.generation = generation) ∧
      ∀ claims ∈ w.minted, claims.sessionId = sessionId →
        claims.accountId = accountId ∧ claims.generation = generation

structure TokenStep (row row' : RefreshToken) : Prop where
  id : row'.id = row.id
  hash : row'.tokenHash = row.tokenHash
  session : row'.sessionId = row.sessionId
  rotated : row.version = 1 → row'.version = 1 ∧ row'.replacedBy = row.replacedBy

structure SessionStep (row row' : Session) : Prop where
  id : row'.id = row.id
  account : row'.accountId = row.accountId
  generation : row'.generation = row.generation
  version : row.version ≤ row'.version
  same : row'.version = row.version → row' = row
  terminal : row.status ≠ .active → row'.status ≠ .active

structure Evolves (ttl : Int) (w w' : World) : Prop where
  clock : w.clock ≤ w'.clock
  drawn : ∀ id ∈ w.drawn, id ∈ w'.drawn
  tokens : ∀ row ∈ w.tokens.rows, ∃ row' ∈ w'.tokens.rows, TokenStep row row'
  sessions : ∀ row ∈ w.sessions.rows, ∃ row' ∈ w'.sessions.rows, SessionStep row row'
  blacklist : ∀ sessionId until_, w'.blacklist sessionId = some until_ →
    w.blacklist sessionId = some until_ ∨ w.clock + World.lifetime ttl ≤ until_
  blacklisted : ∀ sessionId, w.blacklist sessionId ≠ none → w'.blacklist sessionId ≠ none
  sweeps : ∀ sweep ∈ w.sweeps, sweep ∈ w'.sweeps
  opened : ∀ sessionId as_, w.opened sessionId = some as_ → w'.opened sessionId = some as_
  generation : ∀ accountId, w.generation accountId ≤ w'.generation accountId

/-- Nothing appears under the identifiers. -/
structure Spares (ids : List Uuid) (w w' : World) : Prop where
  tokens : ∀ row' ∈ w'.tokens.rows, row'.id ∈ ids → ∃ row ∈ w.tokens.rows, row.id = row'.id
  sessions : ∀ row' ∈ w'.sessions.rows, row'.id ∈ ids → ∃ row ∈ w.sessions.rows, row.id = row'.id
  sessionTokens : ∀ row' ∈ w'.tokens.rows, row'.sessionId ∈ ids →
    ∃ row ∈ w.tokens.rows, row.sessionId = row'.sessionId
  opened : ∀ sessionId ∈ ids, w'.opened sessionId = w.opened sessionId

structure Acts (ttl : Int) (ids : List Uuid) (w w' : World) : Prop where
  evolves : Evolves ttl w w'
  spares : ∀ others : List Uuid, (∀ id ∈ others, id ∉ ids) → Spares others w w'

theorem TokenStep.refl (row : RefreshToken) : TokenStep row row := ⟨rfl, rfl, rfl, fun one => ⟨one, rfl⟩⟩

theorem SessionStep.refl (row : Session) : SessionStep row row :=
  ⟨rfl, rfl, rfl, Int.le_refl _, fun _ => rfl, fun he => he⟩

theorem SessionStep.trans (first : SessionStep a b) (second : SessionStep b c) : SessionStep a c where
  id := second.id.trans first.id
  account := second.account.trans first.account
  generation := second.generation.trans first.generation
  version := Int.le_trans first.version second.version
  same equal := by
    have one := first.version
    have two := second.version
    have here : b = a := first.same (by omega)
    rw [second.same (by omega), here]
  terminal ended := second.terminal (first.terminal ended)

theorem TokenStep.trans (first : TokenStep a b) (second : TokenStep b c) : TokenStep a c where
  id := second.id.trans first.id
  hash := second.hash.trans first.hash
  session := second.session.trans first.session
  rotated one := by
    obtain ⟨one, eq⟩ := first.rotated one
    obtain ⟨one, same'⟩ := second.rotated one
    exact ⟨one, same'.trans eq⟩

variable {ttl : Int} {ids : List Uuid} {w w' : World} {token : RefreshToken} {session : Session} {sessionId : SessionId}
  {tokens : TokenTable}

theorem Evolves.refl (ttl : Int) (w : World) : Evolves ttl w w where
  clock := Int.le_refl _
  drawn _ held := held
  tokens row held := ⟨row, held, .refl row⟩
  sessions row held := ⟨row, held, .refl row⟩
  blacklist _ _ held := .inl held
  blacklisted _ held := held
  sweeps _ held := held
  opened _ _ held := held
  generation _ := Int.le_refl _

theorem Evolves.trans (first : Evolves ttl w w') (second : Evolves ttl w' w'') : Evolves ttl w w'' where
  clock := Int.le_trans first.clock second.clock
  drawn id held := second.drawn id (first.drawn id held)
  tokens row held := by
    obtain ⟨row', held', one⟩ := first.tokens row held
    obtain ⟨row'', held'', two⟩ := second.tokens row' held'
    exact ⟨row'', held'', one.trans two⟩
  sessions row held := by
    obtain ⟨row', held', one⟩ := first.sessions row held
    obtain ⟨row'', held'', two⟩ := second.sessions row' held'
    exact ⟨row'', held'', one.trans two⟩
  blacklist sessionId until_ held := by
    have clock := first.clock
    rcases second.blacklist sessionId until_ held with held | late
    · exact first.blacklist sessionId until_ held
    · exact .inr (by omega)
  blacklisted sessionId held := second.blacklisted sessionId (first.blacklisted sessionId held)
  sweeps sweep held := second.sweeps sweep (first.sweeps sweep held)
  opened sessionId as_ held := second.opened sessionId as_ (first.opened sessionId as_ held)
  generation accountId := Int.le_trans (first.generation accountId) (second.generation accountId)

theorem Spares.refl (ids : List Uuid) (w : World) : Spares ids w w where
  tokens row held _ := ⟨row, held, rfl⟩
  sessions row held _ := ⟨row, held, rfl⟩
  sessionTokens row held _ := ⟨row, held, rfl⟩
  opened _ _ := rfl

theorem Acts.refl (ttl : Int) (ids : List Uuid) (w : World) : Acts ttl ids w w :=
  ⟨.refl ttl w, fun others _ => .refl others w⟩

/-- A step of a request with these identifiers, to a world in which the invariants hold. -/
abbrev Abides (ttl : Int) (ids : List Uuid) (w w' : World) : Prop := Coherent ttl w' ∧ Acts ttl ids w w'

def Permitted (ttl : Int) (ids : List Uuid) (w : World) : Op → Prop
  | .saveToken token =>
    (token.version = 0 ∧ token.status = .active ∧ token.replacedBy = none ∧ token.id ∈ ids ∧ token.id ∈ w.drawn ∧
      token.sessionId ∈ w.drawn ∧
      ((token.sessionId ∈ ids ∧ ∀ row ∈ w.tokens.rows, row.sessionId ≠ token.sessionId) ∨
        ∃ row ∈ w.tokens.rows, row.sessionId = token.sessionId ∧ row.replacedBy = some token.id)) ∨
    (token.version = 1 ∧ token.status = .rotated ∧
      ∃ next, token.replacedBy = some next ∧ next ∉ w.tokens.rows.map RefreshToken.id)
  | .saveSession session =>
    (session.version = 0 ∧ ((∃ row ∈ w.sessions.rows, row.id = session.id) ∨
      session.id ∈ ids ∧ session.id ∈ w.drawn ∧ w.opened session.id = some (session.accountId, session.generation))) ∨
    (0 < session.version ∧ ∀ row ∈ w.sessions.rows, row.id = session.id → row.version = session.version - 1 →
      row.status = .active)
  | .mintAccess claims =>
    claims.issuedAt ≤ w.clock ∧ claims.expiresAt ≤ claims.issuedAt + ttl ∧
      (∃ row ∈ w.sessions.rows, row.id = claims.sessionId ∧ row.accountId = claims.accountId ∧
        row.generation = claims.generation) ∧
      ∀ until_, w.blacklist claims.sessionId = some until_ → claims.issuedAt + World.lifetime ttl ≤ until_
  | .blacklistSession sessionId ttl' =>
    ttl' = ttl ∧ ∃ row ∈ w.sessions.rows, row.id = sessionId ∧ row.status ≠ .active
  | .currentGeneration _ (some sessionId) =>
    sessionId ∈ ids ∧ sessionId ∈ w.drawn ∧ w.opened sessionId = none ∧ ∀ row ∈ w.sessions.rows, row.id ≠ sessionId
  | _ => True

inductive TokenSaved (w : World) (token : RefreshToken) : World × Except AuthError Unit → Prop where
  | inserted (first : token.version = 0) (fresh : token.id ∉ w.tokens.rows.map RefreshToken.id) (tokens : TokenTable)
      (rows : tokens.rows = TokenTable.stored token :: w.tokens.rows) : TokenSaved w token ({ w with tokens }, .ok ())
  | updated (later : token.version ≠ 0) {row : RefreshToken} (member : row ∈ w.tokens.rows)
      (hit : TokenTable.matches_ token row = true) :
      TokenSaved w token ({ w with tokens := w.tokens.update token }, .ok ())
  | refused {e : AuthError} (other : e ≠ .refreshTokenReuseDetected) : TokenSaved w token (w, .error e)

theorem saveToken_saved (w : World) (token : RefreshToken) : TokenSaved w token (w.saveToken token) := by
  unfold World.saveToken
  by_cases first : token.version = 0
  · simp only [first, if_true, TokenTable.insert]
    by_cases hk : token.id ∈ w.tokens.rows.map RefreshToken.id
    · simp only [hk, dif_pos]
      exact .refused (by simp)
    by_cases hashed : token.tokenHash ∈ w.tokens.rows.map RefreshToken.tokenHash
    · simp only [hk, hashed, dif_pos, dif_neg, not_false_eq_true]
      exact .refused (by simp)
    · simp only [hk, hashed, dif_neg, not_false_eq_true]
      exact .inserted first hk _ rfl
  simp only [first, if_false]
  by_cases hf : w.tokens.rows.any (TokenTable.matches_ token) = true
  · simp only [hf, if_true]
    obtain ⟨_, mem, hit⟩ := any_eq_true.mp hf
    exact .updated first mem hit
  · simp only [hf]
    exact .refused (by simp)

inductive SessionSaved (w : World) (session : Session) : World × Except AuthError Unit → Prop where
  | inserted (first : session.version = 0) (fresh : session.id ∉ w.sessions.rows.map Session.id)
      (sessions : SessionTable) (rows : sessions.rows = SessionTable.stored session :: w.sessions.rows) :
      SessionSaved w session ({ w with sessions }, .ok ())
  | updated (later : session.version ≠ 0) {row : Session} (member : row ∈ w.sessions.rows)
      (hit : SessionTable.matches_ session row = true) :
      SessionSaved w session ({ w with sessions := w.sessions.update session }, .ok ())
  | refused {e : AuthError} (other : e ≠ .refreshTokenReuseDetected) : SessionSaved w session (w, .error e)

theorem saveSession_saved (w : World) (session : Session) : SessionSaved w session (w.saveSession session) := by
  unfold World.saveSession
  by_cases first : session.version = 0
  · simp only [first, if_true, SessionTable.insert]
    by_cases hk : session.id ∈ w.sessions.rows.map Session.id
    · simp only [hk, dif_pos]
      exact .refused (by simp)
    · simp only [hk, dif_neg, not_false_eq_true]
      exact .inserted first hk _ rfl
  simp only [first, if_false]
  by_cases hf : w.sessions.rows.any (SessionTable.matches_ session) = true
  · simp only [hf, if_true]
    obtain ⟨_, mem, hit⟩ := any_eq_true.mp hf
    exact .updated first mem hit
  · simp only [hf]
    exact .refused (by simp)

theorem TokenSaved.of_served (hv : server.serve w (.saveToken token) = result) : TokenSaved w token result :=
  hv ▸ saveToken_saved w token

theorem SessionSaved.of_served (hv : server.serve w (.saveSession session) = result) :
    SessionSaved w session result :=
  hv ▸ saveSession_saved w session

/-- Everything that an operation can do to the stores. -/
inductive Served (w : World) : Op → World → Prop where
  | kept {op : Op} : Served w op w
  | token {token : RefreshToken} {w' : World} {reply : Except AuthError Unit}
      (saved : TokenSaved w token (w', reply)) : Served w (.saveToken token) w'
  | session {session : Session} {w' : World} {reply : Except AuthError Unit}
      (saved : SessionSaved w session (w', reply)) : Served w (.saveSession session) w'
  | revoked (sessionId : SessionId) : Served w (.revokeAllForSession sessionId) (w.revokeAllForSession sessionId)
  | linked (subject : IdpSubject) (accountId : AccountId) :
      Served w (.saveLink subject accountId) { w with links := update w.links subject (some accountId) }
  | opened (accountId : AccountId) (sessionId : SessionId) :
      Served w (.currentGeneration accountId (some sessionId))
        { w with opened := update w.opened sessionId (some (accountId, w.generation accountId)) }
  | bumped (accountId : AccountId) :
      Served w (.bumpGeneration accountId)
        { w with generations := update w.generations accountId (some (w.generation accountId + 1)) }
  | blacklisted (sessionId : SessionId) (ttl : Int) :
      Served w (.blacklistSession sessionId ttl)
        { w with blacklist := update w.blacklist sessionId (some (w.clock + World.lifetime ttl)) }
  | published (event : DomainEvent) : Served w (.publish event) { w with outbox := w.outbox ++ [event] }
  | minted (claims : AccessTokenClaims) : Served w (.mintAccess claims) { w with minted := claims :: w.minted }

theorem serve_served (w : World) (op : Op) : Served w op (server.serve w op).1 := by
  cases op with
  | saveToken token => exact .token (saveToken_saved w token)
  | saveSession session => exact .session (saveSession_saved w session)
  | authenticate =>
    simp only [server]
    split <;> exact .kept
  | saveLink subject accountId =>
    simp only [server]
    split
    · exact .kept
    · exact .linked subject accountId
  | currentGeneration accountId opening =>
    cases opening with
    | none => exact .kept
    | some sessionId => exact .opened accountId sessionId
  | revokeAllForSession sessionId => exact .revoked sessionId
  | bumpGeneration accountId => exact .bumped accountId
  | blacklistSession sessionId ttl => exact .blacklisted sessionId ttl
  | publish event => exact .published event
  | mintAccess claims => exact .minted claims
  | _ => exact .kept

theorem saveToken_found (mem : token ∈ w.tokens.rows) (hl : rotated.version ≠ 0) (mine : rotated.id = token.id)
    (next : rotated.version = token.version + 1) :
    w.saveToken rotated = ({ w with tokens := w.tokens.update rotated }, .ok ()) := by
  have hf : w.tokens.rows.any (TokenTable.matches_ rotated) = true :=
    any_eq_true.mpr ⟨token, mem, TokenTable.matches_iff.mpr ⟨mine.symm, by omega⟩⟩
  simp [World.saveToken, hl, hf]

theorem saveToken_fresh (first : successor.version = 0) (freshId : successor.id ∉ w.tokens.rows.map RefreshToken.id)
    (freshHash : successor.tokenHash ∉ w.tokens.rows.map RefreshToken.tokenHash) :
    ∃ tokens, w.saveToken successor = ({ w with tokens }, .ok ()) := by
  simp only [World.saveToken, first, if_true, TokenTable.insert, freshId, freshHash, dif_neg, not_false_eq_true]
  exact ⟨_, rfl⟩

theorem saveSession_found (mem : session ∈ w.sessions.rows) (hc : 0 ≤ session.version)
    (mine : session'.id = session.id) (next : session'.version = session.version + 1) :
    w.saveSession session' = ({ w with sessions := w.sessions.update session' }, .ok ()) := by
  have hl : session'.version ≠ 0 := by omega
  have hf : w.sessions.rows.any (SessionTable.matches_ session') = true :=
    any_eq_true.mpr ⟨session, mem, SessionTable.matches_iff.mpr ⟨mine.symm, by omega⟩⟩
  simp [World.saveSession, hl, hf]

theorem token_eq (first : a ∈ w.tokens.rows) (second : b ∈ w.tokens.rows) (eq : a.id = b.id) : a = b :=
  inj_on_of_nodup_map w.tokens.ids first second eq

theorem session_eq (first : a ∈ w.sessions.rows) (second : b ∈ w.sessions.rows) (eq : a.id = b.id) : a = b :=
  inj_on_of_nodup_map w.sessions.ids first second eq

theorem mem_update_token (mem : row' ∈ (w.tokens.update token).rows) :
    row' ∈ w.tokens.rows ∨
      ∃ row ∈ w.tokens.rows, row.id = token.id ∧ row.version = token.version - 1 ∧
        row' = TokenTable.written token row := by
  obtain ⟨old, -⟩ | ⟨row, h, hit, eq⟩ := Rows.update_cases mem
  · exact .inl old
  · obtain ⟨mine, next⟩ := TokenTable.matches_iff.mp hit
    exact .inr ⟨row, h, mine, next, eq⟩

theorem mem_update_session (mem : row' ∈ (w.sessions.update session).rows) :
    row' ∈ w.sessions.rows ∨
      ∃ row ∈ w.sessions.rows, row.id = session.id ∧ row.version = session.version - 1 ∧
        row' = SessionTable.written session row := by
  obtain ⟨old, -⟩ | ⟨row, h, hit, eq⟩ := Rows.update_cases mem
  · exact .inl old
  · obtain ⟨mine, next⟩ := SessionTable.matches_iff.mp hit
    exact .inr ⟨row, h, mine, next, eq⟩

theorem Coherent.of_active (coherent : Coherent ttl w) (mem : row ∈ w.tokens.rows) (ha : row.status = .active) :
    row.version = 0 ∧ row.replacedBy = none := by
  rcases coherent.shape row mem with ⟨zero, _, unlinked⟩ | ⟨_, rotated, _⟩
  · exact ⟨zero, unlinked⟩
  · rw [ha] at rotated
    cases rotated

theorem insert_coherent (coherent : Coherent ttl w) (rows : tokens.rows = TokenTable.stored token :: w.tokens.rows)
    (first : token.version = 0) (live : token.status = .active) (hu : token.replacedBy = none)
    (hd : token.id ∈ w.drawn) (hdr : token.sessionId ∈ w.drawn)
    (hp : (∀ row ∈ w.tokens.rows, row.sessionId ≠ token.sessionId) ∨
      ∃ row ∈ w.tokens.rows, row.sessionId = token.sessionId ∧ row.replacedBy = some token.id)
    (hf : token.id ∉ w.tokens.rows.map RefreshToken.id) : Coherent ttl { w with tokens } := by
  have shape : ∀ row ∈ tokens.rows, Shape row := by
    rw [rows]
    refine forall_mem_cons.mpr ⟨.inl ⟨first, ?_, hu⟩, coherent.shape⟩
    simp [TokenTable.stored, live]
  -- A tip that was there before is one no longer if it belongs to the same session.
  have hb : ∀ row ∈ w.tokens.rows, Tip tokens row → Tip w.tokens row ∧ row.sessionId ≠ token.sessionId := by
    intro row h tip
    have old : Tip w.tokens row := by
      rcases tip with zero | ⟨next, linked, ha⟩
      · exact .inl zero
      · refine .inr ⟨next, linked, fun hk => ha ?_⟩
        rw [rows]
        exact .tail _ hk
    refine ⟨old, fun eq => ?_⟩
    rcases hp with none_ | ⟨last, held', mine, linked⟩
    · exact none_ row h eq
    have equal := coherent.tips row h last held' (eq.trans mine.symm) old (.inr ⟨token.id, linked, hf⟩)
    subst equal
    rcases tip with zero | ⟨next, linked', ha⟩
    · rcases coherent.shape row h with ⟨_, _, none_⟩ | ⟨one, _⟩
      · simp [none_] at linked
      · omega
    rw [linked] at linked'
    cases linked'
    refine ha ?_
    rw [rows]
    exact .head _
  refine { coherent with shape := shape, tips := ?_, drawnTokens := ?_ }
  · intro a heldA b heldB eq tipA tipB
    simp only [rows] at heldA heldB
    rcases mem_cons.mp heldA with rfl | heldA <;> rcases mem_cons.mp heldB with rfl | heldB
    · rfl
    · exact absurd eq.symm (hb b heldB tipB).2
    · exact absurd eq (hb a heldA tipA).2
    · exact coherent.tips a heldA b heldB eq (hb a heldA tipA).1 (hb b heldB tipB).1
  · simp only [rows]
    exact forall_mem_cons.mpr ⟨⟨hd, hdr⟩, coherent.drawnTokens⟩

theorem mem_revokeAll (mem : row' ∈ (w.tokens.revokeAll sessionId now).rows) :
    (row' ∈ w.tokens.rows ∧ ¬ (row'.sessionId = sessionId ∧ row'.status = .active)) ∨
      ∃ row ∈ w.tokens.rows, row.sessionId = sessionId ∧ row.status = .active ∧
        row' = { row with status := .revoked, usedAt := some (toMicros now) } := by
  obtain ⟨old, miss⟩ | ⟨row, h, hit, eq⟩ := Rows.update_cases mem
  · exact .inl ⟨old, by simpa [TokenTable.liveIn] using miss⟩
  · simp only [TokenTable.liveIn, Bool.and_eq_true, decide_eq_true_eq] at hit
    exact .inr ⟨row, h, hit.1, hit.2, eq⟩

theorem tokens_acts (hf : ∀ row ∈ w.tokens.rows, ∃ row' ∈ tokens.rows, TokenStep row row')
    (back : ∀ row' ∈ tokens.rows, (∃ row ∈ w.tokens.rows, row.id = row'.id ∧ row.sessionId = row'.sessionId) ∨
      (row'.id ∈ ids ∧ (row'.sessionId ∈ ids ∨ ∃ row ∈ w.tokens.rows, row.sessionId = row'.sessionId))) :
    Acts ttl ids w { w with tokens } where
  evolves := { Evolves.refl ttl w with tokens := hf }
  spares others apart :=
    { Spares.refl others w with
      tokens := by
        intro row' h mine
        rcases back row' h with ⟨row, mem, eq, _⟩ | ⟨own, _⟩
        · exact ⟨row, mem, eq⟩
        · exact absurd own (apart _ mine)
      sessionTokens := by
        intro row' h mine
        rcases back row' h with ⟨row, mem, _, eq⟩ | ⟨_, own | ⟨row, mem, eq⟩⟩
        · exact ⟨row, mem, eq⟩
        · exact absurd own (apart _ mine)
        · exact ⟨row, mem, eq⟩ }

theorem rewrite_spec (coherent : Coherent ttl w) (rows : tokens.rows = Rows.update test change w.tokens.rows)
    (hk : ∀ row, (change row).id = row.id ∧ (change row).tokenHash = row.tokenHash ∧
      (change row).sessionId = row.sessionId)
    (hits : ∀ row ∈ w.tokens.rows, test row = true → row.version = 0 ∧ Shape (change row)) :
    Abides ttl ids w { w with tokens } := by
  have column : tokens.rows.map RefreshToken.id = w.tokens.rows.map RefreshToken.id := by
    rw [rows]
    exact Rows.map_update fun row => (hk row).1
  have back : ∀ row' ∈ tokens.rows, Shape row' ∧ ∃ row ∈ w.tokens.rows, row.id = row'.id ∧
      row.sessionId = row'.sessionId ∧ (Tip tokens row' → Tip w.tokens row) := by
    intro row' mem
    rw [rows] at mem
    obtain ⟨row, h, rfl⟩ := Rows.mem_update.mp mem
    split
    · rename_i hit
      obtain ⟨zero, shape⟩ := hits row h hit
      exact ⟨shape, row, h, (hk row).1.symm, (hk row).2.2.symm, fun _ => .inl zero⟩
    · refine ⟨coherent.shape row h, row, h, rfl, rfl, fun tip => ?_⟩
      rwa [Tip, column] at tip
  refine ⟨{ coherent with shape := fun row' h => (back row' h).1, tips := ?_, drawnTokens := ?_ }, tokens_acts ?_ ?_⟩
  · intro a' heldA b' heldB eq tipA tipB
    obtain ⟨_, a, memberA, idA, sessionA, oldA⟩ := back a' heldA
    obtain ⟨_, b, memberB, idB, sessionB, oldB⟩ := back b' heldB
    have equal := coherent.tips a memberA b memberB (by rw [sessionA, sessionB, eq]) (oldA tipA) (oldB tipB)
    refine inj_on_of_nodup_map tokens.ids heldA heldB ?_
    rw [← idA, ← idB, equal]
  · intro row' h
    obtain ⟨_, row, mem, id, session, _⟩ := back row' h
    have drawn := coherent.drawnTokens row mem
    rw [id, session] at drawn
    exact drawn
  · intro row h
    refine ⟨_, rows ▸ Rows.mem_update.mpr ⟨row, h, rfl⟩, ?_⟩
    split
    · rename_i hit
      have zero := (hits row h hit).1
      obtain ⟨id, hash, session⟩ := hk row
      exact ⟨id, hash, session, fun one => by omega⟩
    · exact .refl row
  · intro row' h
    obtain ⟨_, row, mem, id, session, _⟩ := back row' h
    exact .inl ⟨row, mem, id, session⟩

theorem saveToken_spec (coherent : Coherent ttl w) (hp : Permitted ttl ids w (.saveToken token))
    (hv : TokenSaved w token (w', reply)) : Abides ttl ids w w' := by
  cases hv with
  | refused => exact ⟨coherent, .refl ttl ids w⟩
  | inserted first fresh _ rows =>
    rcases hp with ⟨_, live, unlinked, own, drawn, drawnSession, place⟩ | ⟨one, _⟩
    · refine ⟨insert_coherent coherent rows first live unlinked drawn drawnSession (place.imp_left (·.2)) fresh,
        tokens_acts ?_ ?_⟩
      · intro row h
        exact ⟨row, rows ▸ .tail _ h, .refl row⟩
      · rw [rows]
        refine forall_mem_cons.mpr ⟨.inr ⟨own, ?_⟩, fun row h => .inl ⟨row, h, rfl, rfl⟩⟩
        exact place.imp (·.1) fun ⟨row, h, eq, _⟩ => ⟨row, h, eq⟩
    · omega
  | updated later _ hit =>
    rcases hp with ⟨zero, _⟩ | ⟨one, rotated, next, linked, _⟩
    · exact absurd zero later
    · refine rewrite_spec coherent rfl (fun _ => ⟨rfl, rfl, rfl⟩) fun row _ hit => ?_
      have old := (TokenTable.matches_iff.mp hit).2
      exact ⟨by omega, .inr ⟨one, rotated, next, linked⟩⟩

theorem revokeAllForSession_spec (coherent : Coherent ttl w) :
    Abides ttl ids w (w.revokeAllForSession sessionId) := by
  have spec : Abides ttl ids w { w with tokens := w.tokens.revokeAll sessionId w.clock } := by
    refine rewrite_spec coherent rfl (fun _ => ⟨rfl, rfl, rfl⟩) fun row h live => ?_
    simp only [TokenTable.liveIn, Bool.and_eq_true, decide_eq_true_eq] at live
    obtain ⟨zero, unlinked⟩ := coherent.of_active h live.2
    exact ⟨zero, .inl ⟨zero, by simp, unlinked⟩⟩
  refine ⟨{ spec.1 with }, { spec.2.evolves with sweeps := fun sweep h => .tail _ h }, ?_⟩
  intro others ne
  exact { spec.2.spares others ne with }

theorem resession_spec (coherent : Coherent ttl w)
    (hf : ∀ row ∈ w.sessions.rows, ∃ row' ∈ sessions.rows, SessionStep row row')
    (back : ∀ row' ∈ sessions.rows, 0 ≤ row'.version ∧
      ((∃ row ∈ w.sessions.rows, row.id = row'.id ∧ row.accountId = row'.accountId ∧
        row.generation = row'.generation) ∨
      row'.id ∈ ids ∧ row'.id ∈ w.drawn ∧ w.opened row'.id = some (row'.accountId, row'.generation))) :
    Abides ttl ids w { w with sessions } := by
  refine ⟨{ coherent with
      drawnSessions := ?_
      versions := fun row' mem => (back row' mem).1
      minted := ?_
      blacklisted := ?_
      opened := ?_ },
    { Evolves.refl ttl w with sessions := hf }, fun others ne => { Spares.refl others w with sessions := ?_ }⟩
  · intro row' mem
    obtain ⟨-, ⟨row, old, eq, -⟩ | ⟨-, drawn, -⟩⟩ := back row' mem
    · exact eq ▸ coherent.drawnSessions row old
    · exact drawn
  · intro claims h
    obtain ⟨early, short, row, mem, eq⟩ := coherent.minted claims h
    obtain ⟨row', member', step⟩ := hf row mem
    exact ⟨early, short, row', member', step.id.trans eq⟩
  · intro sessionId until_ h
    obtain ⟨⟨row, mem, eq, he⟩, bound⟩ := coherent.blacklisted sessionId until_ h
    obtain ⟨row', member', step⟩ := hf row mem
    exact ⟨⟨row', member', step.id.trans eq, step.terminal he⟩, bound⟩
  · intro sessionId accId gen h
    obtain ⟨hk, current, rows, minted⟩ := coherent.opened sessionId accId gen h
    refine ⟨hk, current, ?_, minted⟩
    rintro row' mem rfl
    obtain ⟨-, ⟨row, old, eq, account, gen⟩ | ⟨-, -, opened⟩⟩ := back row' mem
    · rw [← account, ← gen]
      exact rows row old eq
    · cases h.symm.trans opened
      exact ⟨rfl, rfl⟩
  · intro row' mem mine
    obtain ⟨-, ⟨row, old, eq, -⟩ | ⟨own, -⟩⟩ := back row' mem
    · exact ⟨row, old, eq⟩
    · exact absurd own (ne _ mine)

theorem saveSession_spec (coherent : Coherent ttl w) (hp : Permitted ttl ids w (.saveSession session))
    (hv : SessionSaved w session (w', reply)) : Abides ttl ids w w' := by
  cases hv with
  | refused => exact ⟨coherent, .refl ttl ids w⟩
  | inserted first fresh _ rows =>
    rcases hp with ⟨_, ⟨row, h, eq⟩ | fits⟩ | ⟨hl, _⟩
    · exact absurd (eq ▸ mem_map_of_mem h) fresh
    · refine resession_spec coherent (fun row h => ⟨row, rows ▸ .tail _ h, .refl row⟩) ?_
      rw [rows]
      refine forall_mem_cons.mpr ⟨⟨Int.le_of_eq first.symm, .inr fits⟩, fun row h => ?_⟩
      exact ⟨coherent.versions row h, .inl ⟨row, h, rfl, rfl, rfl⟩⟩
    · omega
  | updated hl =>
    rcases hp with ⟨zero, _⟩ | ⟨positive, live⟩
    · exact absurd zero hl
    refine resession_spec coherent (fun row h => ⟨_, Rows.mem_update.mpr ⟨row, h, rfl⟩, ?_⟩) ?_
    · split
      · rename_i hit
        rw [SessionTable.matches_iff] at hit
        have next : (SessionTable.written session row).version = session.version := rfl
        refine ⟨rfl, rfl, rfl, by omega, fun equal => by omega, ?_⟩
        exact fun he => absurd (live row h hit.1 hit.2) he
      · exact .refl row
    intro row' mem
    rcases mem_update_session mem with old | ⟨row, old, _, _, rfl⟩
    · exact ⟨coherent.versions row' old, .inl ⟨row', old, rfl, rfl, rfl⟩⟩
    · exact ⟨Int.le_of_lt positive, .inl ⟨row, old, rfl, rfl, rfl⟩⟩

section

variable (coherent : Coherent ttl w)

include coherent

theorem quiet_spec (links : IdpSubject → Option AccountId) (outbox : List DomainEvent) :
    Abides ttl ids w { w with links, outbox } := by
  refine ⟨{ coherent with }, ⟨?_, fun others ne => ?_⟩⟩
  · exact { Evolves.refl ttl w with }
  · exact { Spares.refl others w with }

theorem open_spec (hp : Permitted ttl ids w (.currentGeneration accountId (some sessionId))) :
    Abides ttl ids w (server.serve w (.currentGeneration accountId (some sessionId))).1 := by
  obtain ⟨own, drawn, unopened, hf⟩ := hp
  refine ⟨{ coherent with opened := ?_ }, ⟨{ Evolves.refl ttl w with opened := ?_ }, fun others ne =>
    { Spares.refl others w with opened := ?_ }⟩⟩
  · intro other account gen h
    by_cases eq : other = sessionId
    · subst eq
      simp only [server, update_self, some.injEq, Prod.mk.injEq] at h
      obtain ⟨rfl, rfl⟩ := h
      refine ⟨drawn, Int.le_refl _, fun row mem mine => absurd mine (hf row mem), ?_⟩
      intro claims minted mine
      obtain ⟨_, _, row, mem, eq⟩ := coherent.minted claims minted
      exact absurd (eq.trans mine) (hf row mem)
    · simp only [server, update_of_ne eq] at h
      exact coherent.opened other account gen h
  · intro other as_ h
    have ne : other ≠ sessionId := by
      rintro rfl
      simp [unopened] at h
    simpa only [server, update_of_ne ne] using h
  · intro other mine
    have different : other ≠ sessionId := by
      rintro rfl
      exact ne _ mine own
    simp only [server, update_of_ne different]

theorem bump_spec (accountId : AccountId) :
    Abides ttl ids w (server.serve w (.bumpGeneration accountId)).1 := by
  have grows : ∀ other, w.generation other ≤ World.generation (server.serve w (.bumpGeneration accountId)).1 other := by
    intro other
    by_cases same : other = accountId
    · subst same
      simp only [server, World.generation, update_self, getD_some]
      exact Int.le_add_one (Int.le_refl _)
    · simp only [server, World.generation, update_of_ne same]
      exact Int.le_refl _
  refine ⟨{ coherent with opened := ?_ }, ⟨{ Evolves.refl ttl w with generation := grows }, fun others _ =>
    { Spares.refl others w with }⟩⟩
  intro sessionId account generation h
  obtain ⟨drawn, current, rest⟩ := coherent.opened sessionId account generation h
  exact ⟨drawn, Int.le_trans current (grows account), rest⟩

theorem blacklist_spec (hp : Permitted ttl ids w (.blacklistSession sessionId ttl')) :
    Abides ttl ids w (server.serve w (.blacklistSession sessionId ttl')).1 := by
  obtain ⟨rfl, he⟩ := hp
  refine ⟨{ coherent with blacklisted := ?_ }, ⟨{ Evolves.refl ttl' w with blacklist := ?_, blacklisted := ?_ },
    fun others _ => { Spares.refl others w with }⟩⟩
  · intro other until_ h
    by_cases same : other = sessionId
    · subst same
      simp only [server, update_self, some.injEq] at h
      refine ⟨he, fun claims minted _ => ?_⟩
      have early := (coherent.minted claims minted).1
      omega
    · simp only [server, update_of_ne same] at h
      exact coherent.blacklisted other until_ h
  · intro other until_ h
    by_cases same : other = sessionId
    · subst same
      simp only [server, update_self, some.injEq] at h
      exact .inr (by omega)
    · simp only [server, update_of_ne same] at h
      exact .inl h
  · intro other h
    by_cases same : other = sessionId
    · subst same
      simp [server]
    · simpa only [server, update_of_ne same] using h

theorem mint_spec (hp : Permitted ttl ids w (.mintAccess claims)) :
    Abides ttl ids w (server.serve w (.mintAccess claims)).1 := by
  obtain ⟨early, short, ⟨row, mem, session, account, gen⟩, outlived⟩ := hp
  refine ⟨{ coherent with minted := ?_, blacklisted := ?_, opened := ?_ }, ⟨{ Evolves.refl ttl w with },
    fun others _ => { Spares.refl others w with }⟩⟩
  · exact forall_mem_cons.mpr ⟨⟨early, short, row, mem, session⟩, coherent.minted⟩
  · intro sessionId until_ h
    obtain ⟨he, bound⟩ := coherent.blacklisted sessionId until_ h
    refine ⟨he, forall_mem_cons.mpr ⟨?_, bound⟩⟩
    rintro rfl
    exact outlived until_ h
  intro sessionId accountId generation' h
  obtain ⟨drawn, current, rows, minted⟩ := coherent.opened sessionId accountId generation' h
  refine ⟨drawn, current, rows, forall_mem_cons.mpr ⟨?_, minted⟩⟩
  rintro rfl
  rw [← account, ← gen]
  exact rows row mem session

theorem serve_spec (hp : Permitted ttl ids w op) :
    Abides ttl ids w (server.serve w op).1 := by
  have hv := serve_served w op
  generalize (server.serve w op).1 = after at hv
  cases hv with
  | kept => exact ⟨coherent, .refl ttl ids w⟩
  | token saved => exact saveToken_spec coherent hp saved
  | session saved => exact saveSession_spec coherent hp saved
  | revoked sessionId => exact revokeAllForSession_spec coherent
  | linked => exact quiet_spec coherent _ w.outbox
  | opened => exact open_spec coherent hp
  | bumped accountId => exact bump_spec coherent accountId
  | blacklisted => exact blacklist_spec coherent hp
  | published => exact quiet_spec coherent w.links _
  | minted => exact mint_spec coherent hp

theorem perform_spec (hp : Permitted ttl ids w op) (svc : Service) :
    Abides ttl ids w (server.perform w op svc).1 := by
  cases svc with
  | served | replyLost => exact serve_spec coherent hp
  | refused => exact ⟨coherent, .refl ttl ids w⟩

end
end CorePlatform.Auth
