import CorePlatform.Auth.Requests

/-! # The handlers keep to the contract

Each handler is followed call by call. Between two calls it knows only what the others leave alone:
the rows it has read are still there, at that version or a later one, nothing is stored under its
own identifiers, and what has ended has ended for good. -/

namespace CorePlatform.Auth

open Theory

variable {w : World} {session : Session}

theorem goes_lift {α : Type} {res : Except AuthError α} {rest : α → Calling Outcome}
    (hs : Stays policy.accessTtl request.ids assertion)
    (hf : ∀ e w, res = .error e → post formats policy settled request heard (.error e) w)
    (ho : ∀ value, res = .ok value → Goes formats policy settled request (rest value) assertion heard) :
    Goes formats policy settled request (liftM res >>= rest) assertion heard := by
  cases res with
  | ok value => exact ho value rfl
  | error e => exact ⟨stable_of_stays hs, fun w _ _ => hf e w rfl⟩

theorem publishAll_goes (hs : Stays policy.accessTtl request.ids assertion)
    (ho : ∀ heard', seen heard' = seen heard → Goes formats policy settled request (rest ()) assertion heard') :
    Goes formats policy settled request (publishAll events >>= rest) assertion heard := by
  induction events generalizing heard with
  | nil => exact ho heard rfl
  | cons _ _ ih =>
    rw [publishAll, Program.bind_assoc]
    refine goes_past hs (fun _ _ _ => trivial) fun _ => ih ?_
    intro heard' eq
    exact ho heard' eq

theorem Keeps.row_eq (hk : Keeps session w) (mem : row ∈ w.sessions.rows) (mine : row.id = session.id)
    (hv : row.version = session.version) : row = session := by
  obtain ⟨_, member', step⟩ := hk
  have equal := session_eq mem member' (mine.trans step.id.symm)
  subst equal
  exact step.same hv

theorem Keeps.permitted (hk : Keeps session w) (ha : session.status = .active) (hc : 0 ≤ session.version)
    (mine : session'.id = session.id) (next : session'.version = session.version + 1) :
    Permitted ttl [] w (.saveSession session') := by
  refine .inr ⟨by omega, fun row mem eq ver => ?_⟩
  rw [hk.row_eq mem (eq.trans mine) (by omega)]
  exact ha

theorem Keeps.saved {session session' : Session} (hk : Keeps session w) (hc : 0 ≤ session.version)
    (mine : session'.id = session.id) (next : session'.version = session.version + 1)
    (hv : server.serve w (.saveSession session') = (w', .ok ())) :
    session ∈ w.sessions.rows ∧ SessionTable.written session' session ∈ w'.sessions.rows ∧
      w'.blacklist = w.blacklist := by
  cases SessionSaved.of_served hv with
  | inserted => omega
  | @updated _ row mem hit =>
    obtain ⟨same, ver⟩ := SessionTable.matches_iff.mp hit
    have equal := hk.row_eq mem (same.trans mine) (by omega)
    subst equal
    exact ⟨mem, Rows.mem_update_of_hit mem hit, rfl⟩

theorem Keeps.unmoved_permitted (hk : Keeps session w) (hc : 0 ≤ session.version) :
    Permitted ttl [] w (.saveSession session) := by
  obtain ⟨row, mem, step⟩ := hk
  by_cases first : session.version = 0
  · exact .inl ⟨first, .inl ⟨row, mem, step.id⟩⟩
  refine .inr ⟨by omega, fun row' member' mine ver => ?_⟩
  have late := step.version
  rw [session_eq member' mem (mine.trans step.id.symm)] at ver
  omega

theorem Keeps.unmoved_refused (hk : Keeps session w) : server.serve w (.saveSession session) ≠ (w', .ok ()) := by
  intro hv
  obtain ⟨_, mem, step⟩ := hk
  cases SessionSaved.of_served hv with
  | inserted _ fresh => exact fresh (step.id ▸ List.mem_map_of_mem mem)
  | @updated _ _ member' hit =>
    obtain ⟨same, ver⟩ := SessionTable.matches_iff.mp hit
    have late := step.version
    rw [session_eq member' mem (same.trans step.id.symm)] at ver
    omega

theorem mem_of_find {id : SessionId} (hf : w.sessions.find id = some session) :
    session ∈ w.sessions.rows ∧ session.id = id :=
  (Rows.find?_eq_some_iff w.sessions.ids).mp hf

theorem mem_of_findByHash {hash : RefreshTokenHash} (hf : w.tokens.findByHash hash = some token) :
    token ∈ w.tokens.rows ∧ token.tokenHash = hash :=
  (Rows.find?_eq_some_iff w.tokens.hashes).mp hf

theorem end_goes {reason : RevocationReason} {rest : Session → Calling Outcome}
    (hl : Lasting policy.accessTtl assertion) (hk : ∀ w, assertion w → Keeps session w)
    (ha : session.status = .active) (hc : 0 ≤ session.version)
    (hf : ∀ e w, session.revoke now reason correlationId = .error e →
      post formats policy settled request heard (.error e) w)
    (ho : ∀ session' heard', seen heard' = seen heard →
      Goes formats policy settled request (rest session') (fun w => assertion w ∧ Blacklisted session.id w) heard') :
    Goes formats policy settled request (do
      let session' ← session.revoke now reason correlationId
      Program.perform (Op.saveSession session')
      Program.perform (Op.blacklistSession session.id policy.accessTtl)
      rest session') assertion heard := by
  refine goes_lift hl.stays hf fun session' revoked => ?_
  obtain ⟨_, rfl⟩ := Session.revoke_ok.mp revoked
  refine goes_on hl.stays (fun w _ hp => (hk w hp).permitted ha hc rfl rfl) ?_
  intro w w' _ _ hp holds' _ hv
  obtain ⟨_, hw, _⟩ := Keeps.saved (hk w hp) hc (by rfl) (by rfl) hv
  refine ⟨fun w => assertion w ∧ Ended session.id w, ⟨holds', _, hw, rfl, by simp [SessionTable.written]⟩, ?_⟩
  refine goes_on (hl.and (lasting_ended _)).stays (fun w _ hp => ⟨rfl, hp.2⟩) ?_
  intro w w' _ _ _ holds' _ hv
  refine ⟨_, ⟨holds'.1, ?_⟩, ho _ _ rfl⟩
  cases hv
  simp [Blacklisted]

theorem revoke_goes {rest : Calling Outcome} (hl : Lasting policy.accessTtl assertion)
    (hk : ∀ w, assertion w → Keeps session w) (ha : session.status = .active) (hc : 0 ≤ session.version)
    (hf : ∀ e w, session.revoke now reason correlationId = .error e →
      post formats policy settled request heard (.error e) w)
    (ho : ∀ heard', seen heard' = seen heard →
      Goes formats policy settled request rest
        (fun w => assertion w ∧ Swept session.id w ∧ Blacklisted session.id w) heard') :
    Goes formats policy settled request (do
      let session' ← session.revoke now reason correlationId
      Program.perform (Op.saveSession session')
      Program.perform (Op.blacklistSession session.id policy.accessTtl)
      Program.perform (Op.revokeAllForSession session.id)
      publishAll session'.pendingEvents
      rest) assertion heard := by
  refine end_goes hl hk ha hc hf fun session' heard' eq => ?_
  have stays := hl.and ((lasting_swept session.id).and (lasting_blacklisted session.id))
  refine goes_on (hl.and (lasting_blacklisted _)).stays (fun _ _ _ => trivial) ?_
  intro w w' _ _ _ holds' _ hv
  have swept : Swept session.id w' := by
    cases hv
    exact ⟨_, .head _, rfl⟩
  exact ⟨_, ⟨holds'.1, swept, holds'.2⟩, publishAll_goes stays.stays fun heard'' same' => ho heard'' (same'.trans eq)⟩

theorem logout_goes {cmd : LogoutCommand} (hl : ∀ sid, Lasting policy.accessTtl (settled sid)) :
    Goes formats policy settled (.logout cmd corr)
      ((Request.logout cmd corr).program formats policy now) (fun _ => True) [] := by
  have kept : Stays policy.accessTtl (Request.logout cmd corr).ids fun _ => True := lasting_true.stays
  simp only [Request.program, logout, Program.bind_assoc]
  refine goes_lift kept (fun _ _ _ => trivial) fun _ _ => ?_
  refine goes_lift kept (fun _ _ _ => trivial) fun sid parsed => ?_
  refine goes_on kept (fun _ _ _ => trivial) ?_
  intro w w' reply coherent _ _ finds hv
  cases reply with
  | none => exact ⟨_, trivial, stable_of_stays kept, fun _ _ _ => trivial⟩
  | some session =>
    obtain ⟨rfl, hf⟩ := Prod.mk.injEq .. ▸ hv
    obtain ⟨mem, rfl⟩ := mem_of_find (Except.ok.inj hf)
    by_cases ha : session.status = .active
    · simp only [ha, ne_eq, not_true_eq_false, if_false, Program.bind_assoc]
      refine ⟨Keeps session, ⟨session, mem, .refl session⟩, ?_⟩
      refine revoke_goes (lasting_keeps session) (fun _ keeps => keeps) ha (coherent.versions _ mem)
        (fun _ _ _ => trivial) fun heard' _ => ⟨stable_of_stays ?_, ?_⟩
      · exact ((lasting_keeps session).and ((lasting_swept _).and (lasting_blacklisted _))).stays
      · intro w _ hp sid hn
        cases parsed.symm.trans hn
        exact .inl hp.2
    simp only [ha, ne_eq, not_false_eq_true, if_true]
    refine ⟨settled session.id, finds session mem rfl ha, stable_of_stays (hl _).stays, ?_⟩
    intro w _ hp sid hn
    cases parsed.symm.trans hn
    exact .inr hp

theorem revokeEach_goes (hl : Lasting policy.accessTtl assertion)
    (hk : ∀ session ∈ sessions, session.status = .active ∧ 0 ≤ session.version ∧ ∀ w, assertion w → Keeps session w)
    (hf : ∀ e heard w, post formats policy settled request heard (.error e) w)
    (ho : ∀ revoked' heard', seen heard' = seen heard →
      Goes formats policy settled request (rest revoked')
        (fun w => assertion w ∧ ∀ session ∈ sessions, Swept session.id w ∧ Blacklisted session.id w) heard') :
    Goes formats policy settled request (revokeEach policy correlationId now revoked sessions >>= rest)
      assertion heard := by
  induction sessions generalizing revoked heard assertion with
  | nil => exact (ho revoked heard rfl).weaken (stable_of_stays hl.stays) fun w hp => ⟨hp, by simp⟩
  | cons session _ ih =>
    obtain ⟨⟨ha, hc, mine⟩, hk⟩ := List.forall_mem_cons.mp hk
    simp only [revokeEach, ha, ne_eq, not_true_eq_false, if_false, Program.bind_assoc]
    refine revoke_goes hl mine ha hc (fun e w _ => hf e _ w) fun heard' eq => ?_
    have done := hl.and ((lasting_swept session.id).and (lasting_blacklisted session.id))
    refine ih done (fun other mem => ?_) fun revoked' heard'' same' => ?_
    · obtain ⟨ha, hc, mine⟩ := hk other mem
      exact ⟨ha, hc, fun w hp => mine w hp.1⟩
    refine (ho revoked' heard'' (same'.trans eq)).weaken (stable_of_stays ?_) ?_
    · intro w w' he _ hp
      refine ⟨done w w' he hp.1, fun other mem => ?_⟩
      obtain ⟨swept, blacklisted⟩ := hp.2 other mem
      exact ⟨lasting_swept _ w w' he swept, lasting_blacklisted _ w w' he blacklisted⟩
    · intro w hp
      exact ⟨hp.1.1, List.forall_mem_cons.mpr ⟨hp.1.2, hp.2⟩⟩

theorem mem_listActive (mem : session ∈ w.listActive accountId) :
    session ∈ w.sessions.rows ∧ session.status = .active := by
  have kept := (List.mem_insertionSort _).mp mem
  simp only [List.mem_filter, Bool.and_eq_true, decide_eq_true_eq] at kept
  exact ⟨kept.1, kept.2.2⟩

theorem logoutAllSessions_goes {cmd : LogoutAllSessionsCommand} :
    Goes formats policy settled (.logoutAllSessions cmd corr)
      ((Request.logoutAllSessions cmd corr).program formats policy now) (fun _ => True) [] := by
  have kept : Stays policy.accessTtl (Request.logoutAllSessions cmd corr).ids fun _ => True :=
    lasting_true.stays
  simp only [Request.program, logoutAllSessions, Program.bind_assoc]
  refine goes_lift kept (fun _ _ _ => trivial) fun _ _ => ?_
  refine goes_lift kept (fun _ _ _ => trivial) fun accId _ => ?_
  refine goes_past kept (fun _ _ _ => trivial) fun _ => ?_
  refine goes_on kept (fun _ _ _ => trivial) ?_
  intro w w' sessions coherent _ _ _ hv
  cases hv
  have lasting : Lasting policy.accessTtl fun later => ∀ session ∈ w.listActive accId, Keeps session later :=
    fun w w' he hp session mem => lasting_keeps session w w' he (hp session mem)
  refine ⟨_, ?_, revokeEach_goes lasting ?_ (fun _ _ _ => trivial) fun revoked heard eq => ⟨?_, ?_⟩⟩
  · intro session mem
    exact ⟨session, (mem_listActive mem).1, .refl session⟩
  · intro session mem
    obtain ⟨stored, ha⟩ := mem_listActive mem
    exact ⟨ha, coherent.versions session stored, fun later hp => hp session mem⟩
  · refine stable_of_stays fun w w' he spares hp => ⟨lasting w w' he hp.1, fun session mem => ?_⟩
    obtain ⟨swept, blacklisted⟩ := hp.2 session mem
    exact ⟨lasting_swept _ w w' he swept, lasting_blacklisted _ w w' he blacklisted⟩
  intro later _ hp sid mem
  rw [eq] at mem
  simp only [seen, List.append_nil, List.mem_map] at mem
  obtain ⟨session, mem, rfl⟩ := mem
  exact hp.2 session mem

theorem revokeGeneration_goes (ho : ∀ heard', seen heard' = seen heard →
      Goes formats policy settled request (rest ()) (Swept sid) heard') :
    Goes formats policy settled request (revokeGeneration policy now accountId sid correlationId >>= rest)
      (fun _ => True) heard := by
  have swept : Lasting policy.accessTtl (Swept sid) := lasting_swept sid
  simp only [revokeGeneration, Program.bind_assoc]
  refine goes_past lasting_true.stays (fun _ _ _ => trivial) fun _ => ?_
  refine goes_on lasting_true.stays (fun _ _ _ => trivial) fun w w' _ _ _ _ _ hv => ⟨Swept sid, ?_, ?_⟩
  · cases hv
    exact ⟨_, .head _, rfl⟩
  refine goes_on swept.stays (fun _ _ _ => trivial) ?_
  intro w w' reply coherent _ hp _ hv
  cases reply with
  | none => exact ⟨_, hp, ho _ rfl⟩
  | some session =>
    by_cases ha : session.status = .active
    · simp only [ha, if_true, Program.bind_assoc]
      obtain ⟨rfl, hf⟩ := Prod.mk.injEq .. ▸ hv
      obtain ⟨mem, rfl⟩ := mem_of_find (Except.ok.inj hf)
      have lasting := swept.and (lasting_keeps session)
      refine ⟨_, ⟨hp, session, mem, .refl session⟩, end_goes lasting (fun _ hp => hp.2) ha
        (coherent.versions _ mem) ?_ fun session' heard' eq => ?_⟩
      · intro e w hfa
        simp [Session.revoke, ha, SessionStatus.canTransitionTo] at hfa
      · refine publishAll_goes (lasting.and (lasting_blacklisted _)).stays fun heard'' same' => ?_
        exact (ho heard'' (same'.trans eq)).weaken
          (stable_of_stays (lasting.and (lasting_blacklisted _)).stays) fun w hp => hp.1.1
    · simp only [ha, if_false]
      exact ⟨_, hp, ho _ rfl⟩

theorem Holds.saved {token rotated : RefreshToken} (hp : Holds token w) (mine : rotated.id = token.id)
    (hl : rotated.version ≠ 0) (hv : server.serve w (.saveToken rotated) = (w', .ok ())) :
    ∃ row, row.tokenHash = token.tokenHash ∧ row.sessionId = token.sessionId ∧
      TokenTable.written rotated row ∈ w'.tokens.rows := by
  cases TokenSaved.of_served hv with
  | inserted first => exact absurd first hl
  | @updated _ row mem hit =>
    obtain ⟨_, member', step⟩ := hp
    obtain ⟨same, -⟩ := TokenTable.matches_iff.mp hit
    have equal := token_eq mem member' (same.trans (mine.trans step.id.symm))
    subst equal
    exact ⟨row, step.hash, step.session, Rows.mem_update_of_hit mem hit⟩

theorem mint_goes {session session' : Session} {rest : AccessTokenClaims → EdgeClaims → Calling Outcome}
    (hl : Lasting policy.accessTtl assertion)
    (hk : ∀ w, assertion w → Keeps session w ∧ now ≤ w.clock ∧ MayMint policy.accessTtl now session.id w)
    (id : session'.id = session.id) (ha : session'.accountId = session.accountId)
    (hg : session'.generation = session.generation)
    (hf : ∀ e w, session'.mintAccessToken now policy.accessTtl permissions = .error e →
      post formats policy settled request heard (.error e) w)
    (ho : ∀ claims token, session'.mintAccessToken now policy.accessTtl permissions = .ok claims →
      Goes formats policy settled request (rest claims token) assertion (⟨.mintAccess claims, .ok token⟩ :: heard)) :
    Goes formats policy settled request (do
      let claims ← session'.mintAccessToken now policy.accessTtl permissions
      let token ← Program.perform (Op.mintAccess claims)
      rest claims token) assertion heard := by
  refine goes_lift hl.stays hf fun claims minted => ?_
  obtain ⟨account', id', generation', issued, _, _⟩ := Session.mintAccessToken_ok minted
  refine goes_past hl.stays ?_ fun token => ho claims token minted
  intro w _ hp
  obtain ⟨⟨row, mem, step⟩, _, may⟩ := hk w hp
  refine ⟨by omega, by omega, ⟨row, mem, ?_, ?_, ?_⟩, ?_⟩
  · rw [step.id, id', id]
  · rw [step.account, account', ha]
  · rw [step.generation, generation', hg]
  · rw [id', id, issued]
    exact may

theorem ensureMintable_error (hf : session.ensureMintable now = .error e) : e ≠ .refreshTokenReuseDetected := by
  unfold Session.ensureMintable at hf
  split at hf
  · cases hf
    simp
  · cases hf
    simp
  · split at hf <;> cases hf
    simp

/-- A failure of what is done only with a session that may mint. -/
theorem mintable_error {rest : Except AuthError α}
    (hf : (do session.ensureMintable now; rest) = Except.error e)
    (other : rest = .error e → e ≠ .refreshTokenReuseDetected) : e ≠ .refreshTokenReuseDetected := by
  cases mintable : session.ensureMintable now with
  | error =>
    rw [mintable] at hf
    cases hf
    exact ensureMintable_error mintable
  | ok =>
    rw [mintable] at hf
    exact other hf

theorem extend_error (hf : session.extend now ttl = .error e) : e ≠ .refreshTokenReuseDetected := by
  refine mintable_error hf fun hf => ?_
  split at hf <;> cases hf

theorem mintAccessToken_error (hf : session.mintAccessToken now ttl permissions = .error e) :
    e ≠ .refreshTokenReuseDetected := by
  refine mintable_error hf fun hf => ?_
  simp only at hf
  split at hf <;> cases hf
  simp

def Ready (now : Int) (successorId : RefreshTokenId) (w : World) : Prop :=
  (now ≤ w.clock ∧ successorId ∈ w.drawn) ∧ ∀ row ∈ w.tokens.rows, row.id ≠ successorId

theorem lasting_ready (ttl now : Int) (succId : RefreshTokenId) :
    Lasting ttl fun w => now ≤ w.clock ∧ succId ∈ w.drawn :=
  lasting_since.and lasting_drawn

theorem stays_ready (ttl now : Int) (succId : RefreshTokenId) : Stays ttl [succId] (Ready now succId) :=
  (lasting_ready ttl now succId).stays.and (stays_tokenless (List.mem_singleton_self _))

theorem persistRotation_goes {cmd : RefreshCommand} {secret : String}
    (hr : token.rotate now newHash newExpiresAt successorId = .ok (rotated, successor))
    (first : token.version = 0) (hpr : token.tokenHash = formats.digest cmd.refreshToken)
    (ha : session.status = .active) (hc : 0 ≤ session.version) :
    Goes formats policy settled (.refresh cmd corr successorId secret)
      (persistRotation policy now token rotated successor session permissions secret >>=
        fun session => pure (.issued session))
      (fun w => Ready now successorId w ∧ Holds token w ∧ Keeps session w) heard := by
  obtain ⟨_, _, _, rfl, rfl⟩ := RefreshToken.rotate_ok hr
  have own : successorId ∈ (Request.refresh cmd corr successorId secret).ids := List.mem_singleton_self _
  simp only [persistRotation, Program.bind_assoc]
  -- The compare-and-set of the presented token.
  refine goes_on ((stays_ready _ now successorId).and ((lasting_holds token).and (lasting_keeps session)).stays) ?_ ?_
  · intro w _ hp
    refine .inr ⟨by simp [first], rfl, successorId, rfl, ?_⟩
    intro hk
    obtain ⟨row, mem, eq⟩ := List.mem_map.mp hk
    exact hp.1.2 row mem eq
  intro w w' _ _ hp holds' _ hv
  obtain ⟨row, hash, chain, hw⟩ := Holds.saved hp.2.1 (by rfl) (by simp [first]) hv
  generalize linked_ : TokenTable.written _ row = linked at hw
  have link : linked.version = 1 ∧ linked.replacedBy = some successorId := by
    subst linked_
    exact ⟨by simp [TokenTable.written, first], rfl⟩
  have linkHash : linked.tokenHash = token.tokenHash := by
    subst linked_
    exact hash
  have linkChain : linked.sessionId = token.sessionId := by
    subst linked_
    exact chain
  -- Its successor.
  refine ⟨fun w => Ready now successorId w ∧ Holds linked w ∧ Keeps session w,
    ⟨holds'.1, ⟨linked, hw, .refl linked⟩, holds'.2.2⟩, ?_⟩
  have holding : Lasting policy.accessTtl fun w => Holds linked w ∧ Keeps session w :=
    (lasting_holds linked).and (lasting_keeps session)
  refine goes_call ((stays_ready _ now successorId).and holding.stays) ?_ ?_
  · intro w coherent hp
    obtain ⟨row, mem, step⟩ := hp.2.1
    have chained : row.sessionId = token.sessionId := step.session.trans linkChain
    refine .inl ⟨rfl, rfl, rfl, own, hp.1.1.2, ?_, .inr ⟨row, mem, chained, ?_⟩⟩
    · have drawn := (coherent.drawnTokens row mem).2
      rwa [chained] at drawn
    · exact (step.rotated link.1).2.trans link.2
  intro w w' _ _ _ hev hp _ _
  have stays := (lasting_ready policy.accessTtl now successorId).and holding
  refine ⟨fun w => (now ≤ w.clock ∧ successorId ∈ w.drawn) ∧ Holds linked w ∧ Keeps session w,
    stays w w' hev ⟨hp.1.1, hp.2⟩, ?_⟩
  refine goes_lift stays.stays (fun e w hf => post_error (extend_error hf)) fun session' extended => ?_
  -- The session, which has to have stayed as it was read.
  obtain ⟨_, ⟨_, rfl⟩ | ⟨_, rfl⟩⟩ := Session.extend_ok extended
  · refine goes_on stays.stays (fun w _ hp => hp.2.2.permitted ha hc rfl rfl) ?_
    intro w w' _ coherent hp holds' _ hv
    obtain ⟨mem, _, eq⟩ := Keeps.saved hp.2.2 hc (by rfl) (by rfl) hv
    have may : MayMint policy.accessTtl now session.id w' := by
      intro until_ h
      rw [eq] at h
      obtain ⟨⟨row, member', mine, he⟩, _⟩ := coherent.blacklisted session.id until_ h
      rw [session_eq member' mem mine] at he
      exact absurd ha he
    have lasting := (lasting_mayMint policy.accessTtl now session.id).and holding
    refine ⟨_, ⟨⟨holds'.1.1, may⟩, holds'.2⟩, mint_goes lasting (fun w hp => ⟨hp.2.2, hp.1⟩) rfl rfl rfl ?_ ?_⟩
    · intro e w hf
      exact post_error (mintAccessToken_error hf)
    intro claims edge _
    refine ⟨stable_of_stays lasting.stays, fun w _ hp => ?_⟩
    obtain ⟨row, mem, step⟩ := hp.2.1
    exact ⟨row, mem, by rw [step.hash, linkHash, hpr], (step.rotated link.1).2.trans link.2⟩
  · refine goes_on stays.stays (fun w _ hp => hp.2.2.unmoved_permitted hc) ?_
    intro w w' _ _ hp _ _ hv
    exact absurd hv hp.2.2.unmoved_refused

theorem exchange_goes (hr : token.rotate now newHash newExpiresAt succId = .ok (rotated, successor))
    (first : token.version = 0) (hp : token.tokenHash = formats.digest cmd.refreshToken) :
    Goes formats policy settled (.refresh cmd correlationId succId secret)
      (exchange formats policy cmd.device now token rotated successor secret >>= fun session => pure (.issued session))
      (fun w => Ready now succId w ∧ Holds token w) heard := by
  simp only [exchange, Program.bind_assoc]
  have hb := (stays_ready policy.accessTtl now succId).and (lasting_holds token).stays
  refine goes_on hb (fun _ _ _ => trivial) ?_
  intro w w' reply coherent _ holds' _ hv
  cases reply with
  | none => exact ⟨_, holds', goes_error hb (by simp)⟩
  | some session =>
    obtain ⟨rfl, hf⟩ := Prod.mk.injEq .. ▸ hv
    obtain ⟨mem, _⟩ := mem_of_find (Except.ok.inj hf)
    have stays := (stays_ready policy.accessTtl now succId).and
      ((lasting_holds token).and (lasting_keeps session)).stays
    refine ⟨fun w => Ready now succId w ∧ Holds token w ∧ Keeps session w,
      ⟨holds'.1, holds'.2, session, mem, .refl session⟩, ?_⟩
    simp only [Program.bind_assoc]
    refine goes_past stays (fun _ _ _ => trivial) fun gen => ?_
    cases hva : session.isValidUnder gen now with
    | false => exact goes_error stays (by simp)
    | true =>
      cases eq : session.device.sameDeviceAs cmd.device with
      | false => exact goes_error stays (by simp)
      | true =>
        simp only [Bool.not_true, Bool.false_eq_true, if_false, Program.bind_assoc]
        refine goes_past stays (fun _ _ _ => trivial) fun snap => ?_
        cases snap.activation with
        | inactive => exact goes_error stays (by simp)
        | active =>
          exact persistRotation_goes hr first hp (Session.isValidUnder_eq_true.mp hva).1 (coherent.versions _ mem)

theorem refresh_goes {cmd : RefreshCommand} {secret : String} :
    Goes fmt policy settled (.refresh cmd correlationId succId secret)
      ((Request.refresh cmd correlationId succId secret).program fmt policy now)
      (Ready now succId) [] := by
  have ready := stays_ready policy.accessTtl now succId
  simp only [Request.program, refresh, Program.bind_assoc]
  refine goes_lift ready ?_ fun _ _ => ?_
  · intro e w hfa
    unfold ensureValid at hfa
    split at hfa <;> cases hfa
    exact post_error (by simp)
  simp only [Formats.hashRefresh_eq, Program.lift_ok, Program.ok_bind]
  refine goes_on ready (fun _ _ _ => trivial) ?_
  intro w w' reply coherent _ holds' _ hv
  cases reply with
  | none => exact ⟨_, holds', goes_error ready (by simp)⟩
  | some token =>
    obtain ⟨rfl, hf⟩ := Prod.mk.injEq .. ▸ hv
    obtain ⟨mem, presented⟩ := mem_of_findByHash (Except.ok.inj hf)
    dsimp only
    cases rotation : token.rotate now (fmt.digest secret) (now + policy.refreshTtl) succId with
    | ok =>
      have first : token.version = 0 := (coherent.of_active mem (RefreshToken.rotate_ok rotation).1).1
      exact ⟨fun w => Ready now succId w ∧ Holds token w, ⟨holds', token, mem, .refl token⟩,
        exchange_goes rotation first presented⟩
    | error e =>
      by_cases reuse : e = .refreshTokenReuseDetected
      · subst reuse
        simp only [Program.bind_assoc]
        refine ⟨_, trivial, revokeGeneration_goes fun heard' eq => ?_⟩
        refine ⟨stable_of_stays (lasting_swept _).stays, fun w _ swept sid mine => ?_⟩
        rw [eq] at mine
        cases List.mem_singleton.mp mine
        exact swept
      · refine ⟨_, holds', ?_⟩
        cases e <;> first | exact goes_error ready (by simp) | exact absurd rfl reuse

def Unchained (now : Int) (sessionId : SessionId) (tokenId : RefreshTokenId) (w : World) : Prop :=
  (now ≤ w.clock ∧ sessionId ∈ w.drawn ∧ tokenId ∈ w.drawn) ∧
    (∀ row ∈ w.tokens.rows, row.id ≠ tokenId) ∧ ∀ row ∈ w.tokens.rows, row.sessionId ≠ sessionId

theorem stays_unchained (ttl now : Int) (sid : SessionId) (tokenId : RefreshTokenId) :
    Stays ttl [sid, tokenId] (Unchained now sid tokenId) :=
  (lasting_since.and (lasting_drawn.and lasting_drawn)).stays.and
    ((stays_tokenless (by simp)).and (stays_chainless (by simp)))

def Opening (now : Int) (sessionId : SessionId) (tokenId : RefreshTokenId) (w : World) : Prop :=
  Unchained now sessionId tokenId w ∧ (∀ row ∈ w.sessions.rows, row.id ≠ sessionId) ∧ w.opened sessionId = none

theorem stays_opening (ttl now : Int) (sid : SessionId) (tokenId : RefreshTokenId) :
    Stays ttl [sid, tokenId] (Opening now sid tokenId) :=
  (stays_unchained ttl now sid tokenId).and ((stays_sessionless (by simp)).and (stays_unopened (by simp)))

/-- A login that has not stored its session yet. -/
def Opened (now : Int) (sessionId : SessionId) (tokenId : RefreshTokenId) (as_ : AccountId × Generation) (w : World) :
    Prop :=
  Unchained now sessionId tokenId w ∧ (∀ row ∈ w.sessions.rows, row.id ≠ sessionId) ∧ w.opened sessionId = some as_

theorem stays_opened (ttl now : Int) (sid : SessionId) (tokenId : RefreshTokenId)
    (as_ : AccountId × Generation) : Stays ttl [sid, tokenId] (Opened now sid tokenId as_) :=
  (stays_unchained ttl now sid tokenId).and ((stays_sessionless (by simp)).and (lasting_opened sid).stays)

theorem insert_served (coherent : Coherent ttl w) (first : session.version = 0)
    (hn : ∀ row ∈ w.sessions.rows, row.id ≠ session.id)
    (hv : server.serve w (.saveSession session) = (w', .ok ())) :
    Keeps (SessionTable.stored session) w' ∧ MayMint ttl now session.id w' ∧ w'.tokens = w.tokens := by
  cases SessionSaved.of_served hv with
  | inserted _ _ _ rows =>
    refine ⟨⟨SessionTable.stored session, ?_, .refl _⟩, ?_, rfl⟩
    · rw [rows]
      exact .head _
    · intro until_ h
      obtain ⟨⟨row, mem, mine, _⟩, _⟩ := coherent.blacklisted session.id until_ h
      exact absurd mine (hn row mem)
  | updated later => exact absurd first later

theorem openSession_goes {device : DeviceFingerprint} {accId : AccountId} :
    Goes formats policy settled (.login cmd correlationId sid tokenId secret)
      (openSession formats policy device subject accId permissions firstLink correlationId sid tokenId
        secret now >>= fun session => pure (.issued session))
      (Opening now sid tokenId) heard := by
  simp only [openSession, Program.bind_assoc]
  refine goes_call (stays_opening _ now sid tokenId) ?_ ?_
  · intro w _ hp
    exact ⟨by simp [Request.ids], hp.1.1.2.1, hp.2.2, hp.2.1⟩
  intro w w' gen _ _ _ hp _ hv
  have ho : Opened now sid tokenId (accId, gen) w' := by
    cases hv
    exact ⟨hp.1, hp.2.1, Function.update_self ..⟩
  have stays := stays_opened policy.accessTtl now sid tokenId (accId, gen)
  refine ⟨_, ho, goes_lift stays (fun _ _ _ => trivial) fun session issued => ?_⟩
  obtain ⟨id, account, generation', _, first⟩ := Session.issue_ok issued
  refine goes_call stays ?_ ?_
  · intro w _ hp
    refine .inl ⟨first, .inr ⟨by simp [Request.ids, id], id ▸ hp.1.1.2.1, ?_⟩⟩
    rw [id, account, generation']
    exact hp.2.2
  intro w w' _ coherent _ he hp _ hv
  obtain ⟨keeps, may, tokens⟩ := insert_served coherent first (id ▸ hp.2.1) hv
  have minting := (lasting_mayMint policy.accessTtl now session.id).and (lasting_keeps (SessionTable.stored session))
  have unchained := (stays_unchained policy.accessTtl now sid tokenId).and minting.stays
  refine ⟨fun w => Unchained now sid tokenId w ∧ (now ≤ w.clock ∧ MayMint policy.accessTtl now session.id w) ∧
    Keeps (SessionTable.stored session) w, ?_, ?_⟩
  · have since := Int.le_trans hp.1.1.1 he.clock
    refine ⟨⟨⟨since, he.drawn _ hp.1.1.2.1, he.drawn _ hp.1.1.2.2⟩, ?_⟩, ⟨since, may⟩, keeps⟩
    rw [tokens]
    exact hp.1.2
  refine publishAll_goes unchained fun heard' _ => ?_
  simp only [Formats.hashRefresh_eq, Program.lift_ok, Program.ok_bind]
  refine goes_lift unchained (fun _ _ _ => trivial) fun token issued => ?_
  obtain ⟨long, tokenId', chain, ha, unlinked, first⟩ := RefreshToken.issue_ok issued
  simp only [id] at chain
  refine goes_call unchained ?_ ?_
  · intro w _ hp
    refine .inl ⟨first, ha, unlinked, by simp [Request.ids, tokenId'], ?_, ?_, .inl ⟨?_, ?_⟩⟩
    · exact tokenId' ▸ hp.1.1.2.2
    · exact chain ▸ hp.1.1.2.1
    · simp [Request.ids, chain]
    · exact chain ▸ hp.1.2.2
  intro w w' _ _ _ he hp _ _
  refine ⟨_, minting w w' he hp.2, mint_goes minting (fun w hp => ⟨hp.2, hp.1⟩) rfl rfl rfl
    (fun _ _ _ => trivial) fun claims edge minted => ⟨stable_of_stays minting.stays, fun _ _ _ => ?_⟩⟩
  obtain ⟨_, _, _, _, _, _⟩ := Session.mintAccessToken_ok minted
  simp only at long
  exact ⟨by omega, by omega⟩

theorem resolveAccount_goes (hs : Stays policy.accessTtl request.ids assertion)
    (ho : ∀ account heard', Goes formats policy settled request (rest account) assertion heard') :
    Goes formats policy settled request (resolveAccount subject >>= rest) assertion heard := by
  simp only [resolveAccount, Program.bind_assoc]
  refine goes_past hs (fun _ _ _ => trivial) fun hf => ?_
  cases hf with
  | some => exact ho _ _
  | none =>
    simp only [Program.bind_assoc]
    exact goes_past hs (fun _ _ _ => trivial) fun accId => ho _ _

theorem establishLink_goes (hs : Stays policy.accessTtl request.ids assertion)
    (ho : ∀ heard', Goes formats policy settled request (rest ()) assertion heard') :
    Goes formats policy settled request (establishLink subject accountId now correlationId >>= rest)
      assertion heard := by
  simp only [establishLink, Program.bind_assoc]
  refine goes_past hs (fun _ _ _ => trivial) fun _ => ?_
  exact publishAll_goes hs fun heard' _ => ho heard'

theorem login_goes :
    Goes formats policy settled (.login cmd correlationId sid tokenId secret)
      ((Request.login cmd correlationId sid tokenId secret).program formats policy now)
      (Opening now sid tokenId) [] := by
  have stays := stays_opening policy.accessTtl now sid tokenId
  simp only [Request.program, login, Program.bind_assoc]
  refine goes_lift stays (fun _ _ _ => trivial) fun _ _ => ?_
  refine goes_past stays (fun _ _ _ => trivial) fun claims => ?_
  refine goes_lift stays (fun _ _ _ => trivial) fun subject _ => ?_
  refine resolveAccount_goes stays fun account heard => ?_
  obtain ⟨_, needsLink⟩ := account
  refine goes_past stays (fun _ _ _ => trivial) fun snap => ?_
  cases snap.activation with
  | inactive => exact ⟨stable_of_stays stays, fun _ _ _ => trivial⟩
  | active =>
    cases needsLink with
    | false => exact openSession_goes
    | true =>
      simp only [if_true, Program.bind_assoc]
      exact establishLink_goes stays fun heard' => openSession_goes

theorem pristine_coherent (hp : Pristine w) : Coherent ttl w := by
  refine ⟨?_, ?_, ?_, ?_, ?_, ?_, ?_, ?_⟩ <;>
    simp [hp.sessions, hp.tokens, hp.minted, hp.blacklist, hp.opened]

section

variable (coherent : Coherent ttl w)

include coherent

theorem Coherent.undrawn {id : Uuid} (hf : id ∉ w.drawn) :
    (∀ row ∈ w.tokens.rows, row.id ≠ id) ∧ (∀ row ∈ w.tokens.rows, row.sessionId ≠ id) ∧
      (∀ row ∈ w.sessions.rows, row.id ≠ id) ∧ w.opened id = none := by
  refine ⟨?_, ?_, ?_, ?_⟩
  · rintro row mem rfl
    exact hf (coherent.drawnTokens row mem).1
  · rintro row mem rfl
    exact hf (coherent.drawnTokens row mem).2
  · rintro row mem rfl
    exact hf (coherent.drawnSessions row mem)
  · cases ho : w.opened id with
    | none => rfl
    | some as_ => exact absurd (coherent.opened id as_.1 as_.2 ho).1 hf

theorem draw_coherent (ids : List Uuid) :
    Coherent ttl { w with drawn := ids ++ w.drawn } ∧ Evolves ttl w { w with drawn := ids ++ w.drawn } := by
  have grows : ∀ id ∈ w.drawn, id ∈ ids ++ w.drawn := fun id h => List.mem_append_right ids h
  refine ⟨{ coherent with drawnTokens := ?_, drawnSessions := ?_, opened := ?_ },
    { Evolves.refl ttl w with drawn := grows }⟩
  · intro row mem
    exact (coherent.drawnTokens row mem).imp (grows _) (grows _)
  · intro row mem
    exact grows _ (coherent.drawnSessions row mem)
  · intro sid accId gen h
    obtain ⟨drawn, rest⟩ := coherent.opened sid accId gen h
    exact ⟨grows _ drawn, rest⟩

theorem after_coherent (duration : Nat) :
    Coherent ttl (w.after duration) ∧ Evolves ttl w (w.after duration) ∧ ∀ ids, Spares ids w (w.after duration) := by
  have hl : w.clock ≤ w.clock + duration := by omega
  refine ⟨{ coherent with minted := ?_ }, { Evolves.refl ttl w with clock := hl },
    fun ids => { Spares.refl ids w with }⟩
  intro claims h
  obtain ⟨early, rest⟩ := coherent.minted claims h
  exact ⟨Int.le_trans early hl, rest⟩

theorem directory_coherent (directory : AccountId → AccountSnapshot) :
    Coherent ttl { w with directory } ∧ Evolves ttl w { w with directory } ∧
      ∀ ids, Spares ids w { w with directory } :=
  ⟨{ coherent with }, { Evolves.refl ttl w with }, fun ids => { Spares.refl ids w with }⟩

theorem elapse_coherent (hc : (host formats policy).elapse w ev = some w') :
    Coherent ttl w' ∧ Evolves ttl w w' ∧ ∀ ids, Spares ids w w' := by
  cases ev with
  | tick duration =>
    cases hc
    exact after_coherent coherent duration
  | account =>
    cases hc
    exact directory_coherent coherent _

end

theorem serve_drawn (w : World) (op : Op) : (server.serve w op).1.drawn = w.drawn := by
  have hv := serve_served w op
  generalize (server.serve w op).1 = after at hv
  cases hv with
  | token hsa | session hsa => cases hsa <;> rfl
  | _ => rfl

theorem program_goes (hl : ∀ sessionId, Lasting policy.accessTtl (settled sessionId))
    (coherent : Coherent policy.accessTtl w) (hf : ∀ id ∈ req.ids, id ∉ w.drawn) :
    ∃ assertion, assertion { w with drawn := req.ids ++ w.drawn } ∧
      Goes formats policy settled req (req.program formats policy w.clock) assertion [] := by
  cases req with
  | login =>
    simp only [Request.ids, List.forall_mem_cons] at hf
    obtain ⟨_, chainless, sessionless, unopened⟩ := coherent.undrawn hf.1
    obtain ⟨tokenless, _⟩ := coherent.undrawn hf.2.1
    refine ⟨_, ⟨⟨⟨Int.le_refl _, ?_, ?_⟩, tokenless, chainless⟩, sessionless, unopened⟩, login_goes⟩ <;>
      simp [Request.ids]
  | refresh =>
    simp only [Request.ids, List.forall_mem_cons] at hf
    obtain ⟨tokenless, _⟩ := coherent.undrawn hf.1
    exact ⟨_, ⟨⟨Int.le_refl _, by simp [Request.ids]⟩, tokenless⟩, refresh_goes⟩
  | logout => exact ⟨_, trivial, logout_goes hl⟩
  | logoutAllSessions => exact ⟨_, trivial, logoutAllSessions_goes⟩

theorem contract_valid (hl : ∀ sessionId, Lasting policy.accessTtl (settled sessionId)) :
    (contract formats policy settled).Valid (host formats policy) where
  starts _ pristine := pristine_coherent pristine
  accepts w req w' program coherent accepted := by
    simp only [host] at accepted
    split at accepted
    · rename_i drawn
      cases accepted
      have hf : ∀ id ∈ req.ids, id ∉ w.drawn := by simpa using drawn.2
      obtain ⟨coherent', he⟩ := draw_coherent coherent req.ids
      refine ⟨coherent', fun id mine => List.mem_append_left _ mine, fun other known => ⟨?_, ?_, ?_, he, ?_⟩,
        program_goes hl coherent hf⟩
      · intro id mine
        exact he.drawn id (known id mine)
      · intro id mine theirs
        exact hf id mine (known id theirs)
      · intro id theirs mine
        exact hf id mine (known id theirs)
      · exact { Spares.refl other.ids w with }
    · cases accepted
  elapses w event w' coherent _ changed := by
    obtain ⟨coherent', he, spares⟩ := elapse_coherent coherent changed
    exact ⟨coherent', fun req => ⟨⟨he, spares req.ids⟩, fun known id mine =>
      he.drawn id (known id mine)⟩⟩
  keepsKnown w op service req known := by
    intro id mine
    change id ∈ (server.perform w op service).1.drawn
    rw [Server.perform_unchanged World.drawn serve_drawn]
    exact known id mine

theorem finds_any (req : Request) : Finds (fun _ _ => True) req w op := by
  cases req <;> cases op <;> simp [Finds]

theorem execute_spec (fmt : Formats) (req : Request) (coherent : Coherent policy.accessTtl w)
    (hf : ∀ id ∈ req.ids, id ∉ w.drawn) (pat : Nat → Service) :
    let res := server.execute (req.program fmt policy w.clock)
      { w with drawn := req.ids ++ w.drawn } pat
    Coherent policy.accessTtl res.1 ∧ ∃ heard, post fmt policy (fun _ _ => True) req heard res.2 res.1 := by
  have hk : ∃ assertion, assertion { w with drawn := req.ids ++ w.drawn } ∧
      Goes fmt policy (fun _ _ => True) req (req.program fmt policy w.clock) assertion [] :=
    program_goes (fun _ => lasting_true) coherent hf
  obtain ⟨_, hp, goes⟩ := hk
  exact goes.execute (fun w op _ => finds_any req) (draw_coherent coherent _).1 hp pat

theorem allows_any : (contract formats policy fun _ _ => True).Allows pool move := by
  cases move with
  | advance _ _ =>
    intro req op next heard _
    exact finds_any req
  | begin | crash | elapse => trivial

theorem run_kept (hb : (host fmt policy).machine.init start)
    (ran : (host fmt policy).machine.run start trace = some pool) :
    (contract fmt policy fun _ _ => True).Kept (host fmt policy) pool := by
  refine (contract_valid fun _ => lasting_true).run hb ?_ ran
  exact (Machine.meets_true start).mono fun pool move _ => allows_any

/-- A later state of a run. -/
structure Later (formats : Formats) (policy : SessionPolicy) (before pool : State) : Prop where
  kept : (contract formats policy fun _ _ => True).Kept (host formats policy) pool
  evolves : Evolves policy.accessTtl before.world pool.world

theorem Later.step {move : Label} (hl : Later fmt policy before pool)
    (hs : (host fmt policy).Steps pool move next) : Later fmt policy before next := by
  have hv : (contract fmt policy fun _ _ => True).Valid (host fmt policy) :=
    contract_valid fun _ => lasting_true
  refine ⟨hl.kept.step hv allows_any hs, hl.evolves.trans ?_⟩
  -- Seen from a request without identifiers of its own.
  exact (hl.kept.bears hv (.logout ⟨""⟩ 0) (by simp [contract, Request.ids]) (by simp [contract, Request.ids])
    ⟨.refl _ _, .refl _ _⟩ allows_any hs).1

theorem run_later (kept : (contract fmt policy fun _ _ => True).Kept (host fmt policy) before)
    (ran : (host fmt policy).machine.run before trace = some pool) : Later fmt policy before pool :=
  Host.run_keeps _ (fun hl _ hs => hl.step hs) ⟨kept, .refl _ _⟩ (Machine.meets_true before) ran

end CorePlatform.Auth
