import CorePlatform.Auth.Finality

/-! # Logouts that fail and are tried again

A client calls `logout` for a session until it succeeds. Each call of the stores can fail before or
after it is carried out. A logout revokes the session first, and later attempts take a revoked
session as done; so the attempt that revokes it has to get through the other three calls as well. -/

namespace CorePlatform.Auth

open Theory Server Program

structure Attempt where
  /-- How long the client waits before it. -/
  wait : Nat
  correlationId : Uuid
  pattern : Nat → Service

structure Client where
  world : World
  answer : Option LogoutOutcome

def Live (sessionId : SessionId) (w : World) : Prop :=
  ∃ row ∈ w.sessions.rows, row.id = sessionId ∧ row.status = .active
  deriving Decidable

/-- The attempts of a client on a session of the service that is still active. -/
def signOut (formats : Formats) (policy : SessionPolicy) (cmd : LogoutCommand) (sessionId : SessionId) :
    Machine Client Attempt where
  init c :=
    c.answer = none ∧ (∃ pool, (host formats policy).machine.Reachable pool ∧ pool.world = c.world) ∧
      Live sessionId c.world
  step c attempt :=
    let w := c.world.after attempt.wait
    let (after, result) := server.execute (logout formats policy cmd attempt.correlationId w.clock) w attempt.pattern
    some ⟨after, result.toOption⟩

structure LoggedOut (sessionId : SessionId) (w : World) : Prop where
  /-- From now on until the token expires. -/
  blacklisted : ∀ claims ∈ w.minted, claims.sessionId = sessionId → ∀ wait : Nat,
    (w.after wait).clock < timestamp claims.expiresAt * nanosPerSecond → (w.after wait).isBlacklisted sessionId = true
  tokens : ∀ row ∈ w.tokens.rows, row.sessionId = sessionId → row.status ≠ .active
  published : ∃ accountId generation reason occurredAt correlationId,
    .sessionRevoked sessionId accountId generation reason occurredAt correlationId ∈ w.outbox

/-- An attempt that revokes the session gets through. The lookup is its first call, then come
session, blacklist, tokens and event. -/
def Complete (sessionId : SessionId) (c : Client) (attempt : Attempt) : Prop :=
  Live sessionId c.world → attempt.pattern 0 = .served → (attempt.pattern 1).reaches = true →
    attempt.pattern 1 = .served ∧ attempt.pattern 2 = .served ∧ attempt.pattern 3 = .served ∧
      (attempt.pattern 4).reaches = true
  deriving Decidable

section

variable {formats : Formats} {policy : SessionPolicy} {cmd : LogoutCommand} {sessionId : SessionId} {w : World}

def Drained (w : World) : Prop := ∀ row ∈ w.sessions.rows, row.pendingEvents = []

theorem Drained.serve (hd : Drained w) (op : Op) : Drained (server.serve w op).1 := by
  have hv := serve_served w op
  generalize (server.serve w op).1 = after at hv
  cases hv with
  | session hsa =>
    cases hsa with
    | inserted _ _ _ rows =>
      simp only [Drained, rows]
      exact List.forall_mem_cons.mpr ⟨rfl, hd⟩
    | updated _ mem =>
      intro row' mem
      rcases mem_update_session mem with old | ⟨row, old, _, _, rfl⟩
      · exact hd row' old
      · exact hd row old
    | refused => exact hd
  | token hsa => cases hsa <;> exact hd
  | _ => exact hd

theorem Drained.step {move : Label} (hd : Drained pool.world)
    (hs : (host formats policy).Steps pool move next) : Drained next.world := by
  cases hs with
  | begun _ ha =>
    simp only [host] at ha
    split at ha <;> cases ha
    exact hd
  | @advanced _ _ op _ _ svc _ =>
    cases svc with
    | served | replyLost => exact hd.serve op
    | refused => exact hd
  | crashed => exact hd
  | @elapsed ev _ hc => cases ev <;> cases hc <;> exact hd

theorem reachable_drained (hr : (host formats policy).machine.Reachable pool) : Drained pool.world := by
  refine hr.invariant (fun pool => Drained pool.world) ?_ ?_
  · intro start hb
    simp [Drained, hb.1.sessions]
  · intro pool move next drained hs
    exact drained.step (Host.step_steps hs)

structure Sane (policy : SessionPolicy) (w : World) : Prop where
  minted : ∀ claims ∈ w.minted, claims.issuedAt ≤ w.clock ∧ claims.expiresAt ≤ claims.issuedAt + policy.accessTtl
  drained : Drained w
  versions : ∀ row ∈ w.sessions.rows, 0 ≤ row.version

theorem Sane.after (sane : Sane policy w) (wait : Nat) : Sane policy (w.after wait) := by
  refine ⟨fun claims minted => ?_, sane.drained, sane.versions⟩
  obtain ⟨_, short⟩ := sane.minted claims minted
  exact ⟨by simp only [World.after]; omega, short⟩

theorem LoggedOut.after (out : LoggedOut sessionId w) (wait : Nat) : LoggedOut sessionId (w.after wait) := by
  refine ⟨fun claims minted mine wait' alive => ?_, out.tokens, out.published⟩
  have eq : (w.after wait).after wait' = w.after (wait + wait') := by
    simp [World.after, Int.add_assoc]
  rw [eq] at alive ⊢
  exact out.blacklisted claims minted mine (wait + wait') alive

/-- The session, its blacklist entry, its tokens and its event. -/
def World.signedOut (w : World) (session : Session) (ttl : Int) (event : DomainEvent) : World :=
  { World.revokeAllForSession { w with
      sessions := w.sessions.update session
      blacklist := Function.update w.blacklist session.id (some (w.clock + World.lifetime ttl)) } session.id with
    outbox := w.outbox ++ [event] }

def Session.loggedOut (session : Session) (now : Int) (correlationId : Uuid) : Session :=
  { session with
    status := .revoked
    revokedAt := some now
    version := session.version + 1
    pendingEvents := session.pendingEvents ++
      [.sessionRevoked session.id session.accountId session.generation .logout now correlationId] }

theorem revoke_complete (policy : SessionPolicy) (pat : Nat → Service) (corr : Uuid)
    (mem : sess ∈ w.sessions.rows) (ha : sess.status = .active) (hd : sess.pendingEvents = [])
    (hc : 0 ≤ sess.version)
    (hco : (pat 0).reaches = true → pat 0 = .served ∧ pat 1 = .served ∧ pat 2 = .served ∧ (pat 3).reaches = true) :
    let res := server.execute (do
      let session' ← sess.revoke w.clock .logout corr
      Program.perform (Op.saveSession session')
      Program.perform (Op.blacklistSession sess.id policy.accessTtl)
      Program.perform (Op.revokeAllForSession sess.id)
      publishAll session'.pendingEvents
      pure (LogoutOutcome.mk true)) w pat
    (res.1 = w ∧ res.2.toOption = none) ∨
      res.1 = w.signedOut (sess.loggedOut w.clock corr) policy.accessTtl
        (.sessionRevoked sess.id sess.accountId sess.generation .logout w.clock corr) := by
  have revoked : sess.revoke w.clock .logout corr = .ok (sess.loggedOut w.clock corr) :=
    Session.revoke_ok.mpr ⟨ha, rfl⟩
  simp only [revoked, lift_ok, ok_bind]
  cases hr : (pat 0).reaches with
  | false =>
    rw [execute_perform_bind]
    cases first : pat 0 with
    | served | replyLost => simp [first, Service.reaches] at hr
    | refused => exact .inl ⟨rfl, rfl⟩
  | true =>
    obtain ⟨first, second, third, fourth⟩ := hco hr
    have hv : w.saveSession (sess.loggedOut w.clock corr) = _ :=
      saveSession_found mem hc rfl rfl
    refine .inr ?_
    rw [execute_served first ((serve_saveSession w _).trans hv),
      execute_served second (serve_blacklistSession _ _),
      execute_served third (serve_revokeAllForSession _ _)]
    have events : (sess.loggedOut w.clock corr).pendingEvents =
        [.sessionRevoked sess.id sess.accountId sess.generation .logout w.clock corr] := by
      simp [Session.loggedOut, hd]
    simp only [events, publishAll, bind_assoc]
    rw [execute_perform_bind]
    cases last : pat 3 with
    | served | replyLost => rfl
    | refused => simp [last, Service.reaches] at fourth

theorem logout_complete (corr : Uuid) (sane : Sane policy w)
    (hn : formats.sessionId cmd.sessionId = .ok sessionId)
    (hc : Live sessionId w → pat 0 = .served → (pat 1).reaches = true →
      pat 1 = .served ∧ pat 2 = .served ∧ pat 3 = .served ∧ (pat 4).reaches = true) :
    let res := server.execute (logout formats policy cmd corr w.clock) w pat
    (res.1 = w ∧ (Live sessionId w → res.2.toOption = none)) ∨
      ∃ sess ∈ w.sessions.rows, sess.id = sessionId ∧
        res.1 = w.signedOut (sess.loggedOut w.clock corr) policy.accessTtl
          (.sessionRevoked sess.id sess.accountId sess.generation .logout w.clock corr) := by
  unfold logout
  cases hv : ensureValid cmd.validate with
  | error => exact .inl ⟨rfl, fun _ => rfl⟩
  | ok =>
    simp only [hn, lift_ok, ok_bind]
    rw [execute_perform_bind]
    cases first : pat 0 with
    | refused | replyLost => exact .inl ⟨rfl, fun _ => rfl⟩
    | served =>
      simp only [Server.perform, serve_findSession]
      cases hf : w.sessions.find sessionId with
      | none => exact .inl ⟨rfl, fun _ => rfl⟩
      | some sess =>
        obtain ⟨mem, rfl⟩ := mem_of_find hf
        by_cases ha : sess.status = .active
        · simp only [ha, ne_eq, not_true_eq_false, if_false]
          have tail := revoke_complete policy (fun n => pat (n + 1)) corr mem ha
            (sane.drained sess mem) (sane.versions sess mem)
            (hc ⟨sess, mem, rfl, ha⟩ first)
          rcases tail with ⟨eq, hfa⟩ | done
          · exact .inl ⟨eq, fun _ => hfa⟩
          · exact .inr ⟨sess, mem, rfl, done⟩
        simp only [ha, ne_eq, not_false_eq_true, if_true]
        refine .inl ⟨rfl, fun live => ?_⟩
        obtain ⟨_, member', mine, live⟩ := live
        rw [session_eq member' mem mine] at live
        exact absurd live ha

theorem Sane.signedOut (sane : Sane policy w) (hc : 0 ≤ session.version) :
    Sane policy (w.signedOut session ttl event) := by
  refine ⟨sane.minted, fun row' mem => ?_, fun row' mem => ?_⟩
  · rcases mem_update_session mem with old | ⟨row, old, _, _, rfl⟩
    · exact sane.drained row' old
    · exact sane.drained row old
  · rcases mem_update_session mem with old | ⟨row, old, _, _, rfl⟩
    · exact sane.versions row' old
    · exact hc

theorem Sane.loggedOut (sess : Session) (sane : Sane policy w)
    (hw : ∃ count, policy.accessTtl = count * nanosPerSecond) :
    LoggedOut sess.id (w.signedOut sess policy.accessTtl
      (.sessionRevoked sess.id accId gen reason occurredAt correlationId)) where
  blacklisted claims minted _ wait alive := by
    obtain ⟨_, _⟩ := sane.minted claims minted
    have floor := timestamp_le claims.expiresAt
    have covers := le_lifetime hw
    have until_ : (World.after (w.signedOut sess policy.accessTtl (.sessionRevoked sess.id accId gen
        reason occurredAt correlationId)) wait).blacklist sess.id =
          some (w.clock + World.lifetime policy.accessTtl) := Function.update_self ..
    rw [World.isBlacklisted, until_]
    simp only [World.after, World.signedOut, World.revokeAllForSession] at alive
    refine decide_eq_true ?_
    simp only [World.after, World.signedOut, World.revokeAllForSession]
    omega
  tokens row' mem mine := by
    rcases mem_revokeAll (w := w) mem with ⟨_, spared⟩ | ⟨row, _, _, _, rfl⟩
    · exact fun ha => spared ⟨mine, ha⟩
    · simp
  published := ⟨_, _, _, _, _, List.mem_append_right _ (List.mem_singleton_self _)⟩

structure Progress (policy : SessionPolicy) (sessionId : SessionId) (c : Client) : Prop where
  sane : Sane policy c.world
  state : (Live sessionId c.world ∧ c.answer = none) ∨ LoggedOut sessionId c.world

theorem Progress.step (hp : Progress policy sessionId c)
    (hw : ∃ count, policy.accessTtl = count * nanosPerSecond)
    (hn : formats.sessionId cmd.sessionId = .ok sessionId) (hco : Complete sessionId c att)
    (hs : (signOut formats policy cmd sessionId).step c att = some next) :
    Progress policy sessionId next := by
  cases hs
  have sane := hp.sane.after att.wait
  rcases logout_complete att.correlationId sane hn hco with ⟨eq, hf⟩ | ⟨sess, mem, rfl, done⟩
  · refine ⟨?_, ?_⟩
    · rw [eq]
      exact sane
    rw [eq]
    rcases hp.state with ⟨live, _⟩ | out
    · exact .inl ⟨live, hf live⟩
    · exact .inr (out.after att.wait)
  · have hc : 0 ≤ (sess.loggedOut (c.world.after att.wait).clock att.correlationId).version := by
      have hb := sane.versions sess mem
      simp only [Session.loggedOut]
      omega
    refine ⟨?_, .inr ?_⟩
    · rw [done]
      exact sane.signedOut hc
    · rw [done]
      exact sane.loggedOut (sess.loggedOut _ _) hw

theorem logout_success_sound (whole : ∃ count, policy.accessTtl = count * nanosPerSecond)
    (named : formats.sessionId cmd.sessionId = .ok sessionId) {start c : Client} {attempts : List Attempt}
    (begins : (signOut formats policy cmd sessionId).init start)
    (complete : (signOut formats policy cmd sessionId).Meets (Complete sessionId) start attempts)
    (ran : (signOut formats policy cmd sessionId).run start attempts = some c) (success : c.answer = some ⟨true⟩) :
    LoggedOut sessionId c.world := by
  obtain ⟨unanswered, ⟨_, reached, same⟩, live⟩ := begins
  have first : Progress policy sessionId start := by
    have drained := reachable_drained reached
    obtain ⟨_, _, begins, ran⟩ := reached
    have coherent := (run_kept begins ran).inv
    rw [same] at coherent drained
    refine ⟨⟨fun claims minted => ?_, drained, coherent.versions⟩, .inl ⟨live, unanswered⟩⟩
    obtain ⟨early, short, _⟩ := coherent.minted claims minted
    exact ⟨early, short⟩
  have last := Machine.run_keeps
    (fun _ _ _ progress complete stepped => Progress.step progress whole named complete stepped) first complete ran
  rcases last.state with ⟨_, none_⟩ | out
  · rw [none_] at success
    cases success
  · exact out

end

namespace Sample

/-- An attempt whose call with the number is refused. -/
def failing (number : Nat) : Attempt :=
  ⟨1000, correlation, fun n => if n = number then .refused "connection reset" else .served⟩

def through : Attempt := ⟨1000, correlation, Server.allServed⟩

theorem begins_loggedIn (ran : (host formats policy).machine.run start loggedIn = some pool)
    (live : Live session pool.world) : (signOut formats policy ⟨sessionText⟩ session).init ⟨pool.world, none⟩ :=
  ⟨rfl, ⟨pool, ⟨start, loggedIn, start_begins, ran⟩, rfl⟩, live⟩

theorem logout_success_sound_second_try : ∃ first last,
    (signOut formats policy ⟨sessionText⟩ session).run first [failing 1, through] = some last ∧
      LoggedOut session last.world := by
  obtain ⟨pool, ran, live, complete, last, tried, success⟩ : ∃ pool,
      (host formats policy).machine.run start loggedIn = some pool ∧ Live session pool.world ∧
      (signOut formats policy ⟨sessionText⟩ session).Meets (Complete session) ⟨pool.world, none⟩ [failing 1, through] ∧
      ∃ last, (signOut formats policy ⟨sessionText⟩ session).run ⟨pool.world, none⟩ [failing 1, through] = some last ∧
        last.answer = some ⟨true⟩ := by decide +kernel
  exact ⟨_, last, tried, logout_success_sound ⟨600, rfl⟩ rfl (begins_loggedIn ran live) complete tried success⟩

/-- The session is saved, the blacklist is down, and the second attempt finds nothing to do. -/
theorem logout_success_hollow : ∃ first last,
    (signOut formats policy ⟨sessionText⟩ session).init first ∧
      (signOut formats policy ⟨sessionText⟩ session).run first [failing 2, through] = some last ∧
      last.answer = some ⟨true⟩ ∧ (∃ claims ∈ last.world.minted, claims.sessionId = session ∧
        last.world.clock < timestamp claims.expiresAt * nanosPerSecond ∧
        last.world.isBlacklisted session = false) ∧
      (∃ row ∈ last.world.tokens.rows, row.sessionId = session ∧ row.status = .active) ∧
      ∀ event ∈ last.world.outbox, ∀ accountId generation reason occurredAt correlationId,
        event ≠ .sessionRevoked session accountId generation reason occurredAt correlationId := by
  obtain ⟨pool, ran, live, last, tried, success, minted, tokens, outbox⟩ : ∃ pool,
      (host formats policy).machine.run start loggedIn = some pool ∧ Live session pool.world ∧
      ∃ last, (signOut formats policy ⟨sessionText⟩ session).run ⟨pool.world, none⟩ [failing 2, through] = some last ∧
        last.answer = some ⟨true⟩ ∧ (∃ claims ∈ last.world.minted, claims.sessionId = session ∧
          last.world.clock < timestamp claims.expiresAt * nanosPerSecond ∧
          last.world.isBlacklisted session = false) ∧
        (∃ row ∈ last.world.tokens.rows, row.sessionId = session ∧ row.status = .active) ∧
        last.world.outbox.all (fun event => match event with
          | .sessionRevoked .. => false
          | _ => true) = true := by decide +kernel
  refine ⟨_, last, begins_loggedIn ran live, tried, success, minted, tokens, ?_⟩
  rintro event member accountId generation reason occurredAt correlationId rfl
  cases List.all_eq_true.mp outbox _ member

end Sample
end CorePlatform.Auth
