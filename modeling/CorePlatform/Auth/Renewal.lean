import CorePlatform.Auth.Interleaved

/-! # A session that is refreshed again and again

A client logs in and then exchanges its newest refresh token whenever it likes, one call at a time
and without failures. The repositories take a save for a change of the stored version, but a session
counts a version only when its expiry moves, and near the absolute expiry it does not. -/

namespace CorePlatform.Auth

open Theory Server Option
open Audit (isBlank)

structure Visit where
  wait : Nat
  directory : AccountId → AccountSnapshot
  cmd : RefreshCommand
  correlationId : Uuid
  successorId : RefreshTokenId
  secret : String

structure Visitor where
  world : World
  answer : Option IssuedSession

/-- The stores that a visit finds. -/
def Visitor.finds (v : Visitor) (visit : Visit) : World :=
  { v.world.after visit.wait with directory := visit.directory }

/-- A login into a service with any history, then refreshes with new identifiers and secrets. -/
def renewing (formats : Formats) (policy : SessionPolicy) : Machine Visitor Visit where
  init v := ∃ (pool : State) (cmd : LoginCommand) (correlationId sessionId tokenId : Uuid) (secret : String)
    (outcome : IssuedSession),
    (host formats policy).machine.Reachable pool ∧ sessionId ∉ pool.world.drawn ∧ tokenId ∉ pool.world.drawn ∧
      server.execute (login formats policy cmd correlationId sessionId tokenId secret pool.world.clock)
        { pool.world with drawn := [sessionId, tokenId] ++ pool.world.drawn } Server.allServed =
          (v.world, .ok outcome) ∧ v.answer = some outcome
  step v visit :=
    let w := v.finds visit
    if w.drawn.contains visit.successorId = false ∧
        (w.tokens.rows.map RefreshToken.tokenHash).contains (formats.digest visit.secret) = false then
      let (after, result) := server.execute
        (refresh formats policy visit.cmd visit.correlationId visit.successorId visit.secret w.clock)
        { w with drawn := [visit.successorId] ++ w.drawn } Server.allServed
      some ⟨after, result.toOption⟩
    else none

/-- The newest token of a valid session, presented in time and from the right device. -/
structure Qualifies (formats : Formats) (w : World) (cmd : RefreshCommand) (token : RefreshToken) (session : Session) :
    Prop where
  named : isBlank cmd.refreshToken = false
  presented : w.tokens.findByHash (formats.digest cmd.refreshToken) = some token
  newest : token.status = .active
  unexpired : token.isExpired w.clock = false
  bound : w.sessions.find token.sessionId = some session
  valid : session.isValidUnder (w.generation token.accountId) w.clock = true
  device : session.device.sameDeviceAs cmd.device = true
  account : (w.directory token.accountId).activation = .active

section

variable {formats : Formats} {policy : SessionPolicy} {w : World} {cmd : RefreshCommand} {token : RefreshToken}
  {session : Session}

theorem saveSession_unmoved (mem : session ∈ w.sessions.rows) : ∃ e, w.saveSession session = (w, .error e) := by
  have refused : ∀ w', server.serve w (.saveSession session) ≠ (w', .ok ()) :=
    fun w' => Keeps.unmoved_refused ⟨session, mem, .refl session⟩
  change ∀ w', w.saveSession session ≠ (w', .ok ()) at refused
  have hv := saveSession_saved w session
  generalize w.saveSession session = res at hv refused
  cases hv with
  | refused => exact ⟨_, rfl⟩
  | inserted | updated => exact absurd rfl (refused _)

theorem slide_served (mem : session ∈ w.sessions.rows) (hc : 0 ≤ session.version)
    (ha : session.status = .active) (hal : session.isExpired w.clock = false) (long : 0 < policy.accessTtl)
    (hi : AccessTokenClaims → EdgeClaims → IssuedSession) :
    (server.execute (do
      let session' ← session.extend w.clock policy.sessionTtl
      Program.perform (Op.saveSession session')
      let claims ← session'.mintAccessToken w.clock policy.accessTtl permissions
      let accessToken ← Program.perform (Op.mintAccess claims)
      pure (hi claims accessToken)) w allServed).2.toOption ≠ none ↔
        session.expiresAt < session.proposed w.clock policy.sessionTtl := by
  have mintable := Session.ensureMintable_of_active ha hal
  simp only [Session.isExpired, Bool.or_eq_false_iff, decide_eq_false_iff_not, Int.not_le] at hal
  by_cases moves : session.expiresAt < session.proposed w.clock policy.sessionTtl
  · have extended : session.extend w.clock policy.sessionTtl = .ok { session with
        expiresAt := session.proposed w.clock policy.sessionTtl
        version := session.version + 1 } := by
      simp [Session.extend, mintable, moves, bind, Except.bind]
    generalize hg : ({ session with
      expiresAt := session.proposed w.clock policy.sessionTtl
      version := session.version + 1 } : Session) = session' at extended
    have hv : w.saveSession session' = _ := saveSession_found mem hc (hg ▸ rfl) (hg ▸ rfl)
    obtain ⟨claims, minted⟩ : ∃ claims, session'.mintAccessToken w.clock policy.accessTtl permissions = .ok claims := by
      subst hg
      exact Session.mintAccessToken_active ha (Int.lt_trans hal.1 moves) hal.2 long
    simp only [extended, Program.lift_ok, Program.ok_bind]
    rw [execute_served rfl ((serve_saveSession w session').trans hv)]
    simp only [minted, Program.lift_ok, Program.ok_bind]
    rw [execute_served rfl (serve_mintAccess _ claims)]
    simp [moves, Except.toOption]
  · have extended : session.extend w.clock policy.sessionTtl = .ok session := by
      simp [Session.extend, mintable, moves, bind, Except.bind]
    obtain ⟨_, refused⟩ := saveSession_unmoved mem
    simp only [extended, Program.lift_ok, Program.ok_bind]
    rw [execute_perform_bind]
    simp [allServed, Server.perform, refused, moves, Except.toOption]

theorem ensureValid_named (hn : isBlank cmd.refreshToken = false) : ensureValid cmd.validate = .ok () := by
  simp [RefreshCommand.validate, present, hn, ensureValid]

section

variable (qualifies : Qualifies formats w cmd token session)

include qualifies

theorem Qualifies.members : token ∈ w.tokens.rows ∧ session ∈ w.sessions.rows :=
  ⟨(mem_of_findByHash qualifies.presented).1, (mem_of_find qualifies.bound).1⟩

theorem persistRotation_served (inv : Coherent policy.accessTtl w) (long : 0 < policy.accessTtl)
    (hr : token.rotate w.clock newHash newExpiresAt successorId = .ok (rotated, successor))
    (freshId : successorId ∉ w.tokens.rows.map RefreshToken.id)
    (freshHash : newHash ∉ w.tokens.rows.map RefreshToken.tokenHash) :
    (server.execute (persistRotation policy w.clock token rotated successor session permissions secret) w
      allServed).2.toOption ≠ none ↔ session.expiresAt < session.proposed w.clock policy.sessionTtl := by
  obtain ⟨tokenMember, mem⟩ := qualifies.members
  obtain ⟨_, _, _, hm, drawn⟩ := RefreshToken.rotate_ok hr
  have first : token.version = 0 := (inv.of_active tokenMember qualifies.newest).1
  have hv : w.saveToken rotated = _ :=
    saveToken_found tokenMember (by simp [hm, first]) (by rw [hm]) (by rw [hm])
  have ids : (w.tokens.update rotated).rows.map RefreshToken.id = w.tokens.rows.map RefreshToken.id :=
    Rows.map_update fun _ => rfl
  have hashes : (w.tokens.update rotated).rows.map RefreshToken.tokenHash =
      w.tokens.rows.map RefreshToken.tokenHash := Rows.map_update fun _ => rfl
  obtain ⟨tokens, inserted⟩ : ∃ tokens,
      World.saveToken { w with tokens := w.tokens.update rotated } successor = ({ w with tokens }, .ok ()) := by
    refine saveToken_fresh (by rw [drawn]) ?_ ?_
    · rwa [ids, drawn]
    · rwa [hashes, drawn]
  obtain ⟨ha, alive, _⟩ := Session.isValidUnder_eq_true.mp qualifies.valid
  unfold persistRotation
  rw [execute_served rfl ((serve_saveToken w rotated).trans hv),
    execute_served rfl ((serve_saveToken _ successor).trans inserted)]
  exact slide_served (w := { w with tokens }) mem (inv.versions session mem) ha alive long _

theorem refresh_served (inv : Coherent policy.accessTtl w) (long : 0 < policy.accessTtl ∧ 0 < policy.refreshTtl)
    (freshId : successorId ∉ w.tokens.rows.map RefreshToken.id)
    (freshHash : formats.digest secret ∉ w.tokens.rows.map RefreshToken.tokenHash) :
    (server.execute (refresh formats policy cmd correlationId successorId secret w.clock) w
      allServed).2.toOption ≠ none ↔ session.expiresAt < session.proposed w.clock policy.sessionTtl := by
  have hv := ensureValid_named qualifies.named
  have rotation : token.rotate w.clock (formats.digest secret) (w.clock + policy.refreshTtl) successorId = _ :=
    RefreshToken.rotate_active qualifies.newest qualifies.unexpired (Int.lt_add_of_pos_right w.clock long.2)
  unfold refresh
  simp only [hv, Formats.hashRefresh_eq, Program.lift_ok, Program.ok_bind]
  rw [execute_served rfl (serve_findByHash w _)]
  simp only [qualifies.presented, rotation]
  unfold exchange
  rw [execute_served rfl (serve_findSession w _)]
  simp only [qualifies.bound]
  rw [execute_served rfl (serve_currentGeneration w _)]
  simp only [qualifies.valid, qualifies.device, Bool.not_true, Bool.false_eq_true, if_false]
  rw [execute_served rfl (serve_lookup w _)]
  simp only [qualifies.account]
  exact persistRotation_served qualifies inv long.1 rotation freshId freshHash

end

structure Renewed (policy : SessionPolicy) (v : Visitor) : Prop where
  coherent : Coherent policy.accessTtl v.world
  long : 0 < policy.accessTtl ∧ 0 < policy.refreshTtl

theorem Renewed.start (hb : (renewing formats policy).init v) : Renewed policy v := by
  obtain ⟨pool, cmd, corr, sid, tokenId, secret, out, ⟨origin, trace, hb, ran⟩, freshSession,
    freshToken, executed, _⟩ := hb
  have inv := (run_kept hb ran).inv
  have hf : ∀ id ∈ (Request.login cmd corr sid tokenId secret).ids, id ∉ pool.world.drawn := by
    simp only [Request.ids, List.forall_mem_cons]
    exact ⟨freshSession, freshToken, by simp⟩
  have spec := execute_spec formats (.login cmd corr sid tokenId secret) inv hf
    allServed
  simp only [Request.program, Request.ids, execute_bind_served, executed, execute_pure] at spec
  obtain ⟨coherent', _, long⟩ := spec
  exact ⟨coherent', long⟩

theorem Coherent.finds {v : Visitor} (inv : Coherent policy.accessTtl v.world) (visit : Visit) :
    Coherent policy.accessTtl (v.finds visit) :=
  (directory_coherent (after_coherent inv visit.wait).1 visit.directory).1

theorem execute_issued :
    (server.execute (prog >>= fun session => pure (Outcome.issued session)) w allServed).1 =
      (server.execute prog w allServed).1 := by
  rw [execute_bind_served]
  split
  · rename_i executed
    rw [executed]
    rfl
  · rename_i executed
    rw [executed]

theorem Renewed.step (hr : Renewed policy v) (hs : (renewing formats policy).step v visit = some next) :
    Renewed policy next := by
  simp only [renewing] at hs
  split at hs
  · rename_i hf
    cases hs
    have spec := execute_spec formats (.refresh visit.cmd visit.correlationId visit.successorId visit.secret)
      (hr.coherent.finds visit) (by simpa [Request.ids] using hf.1) allServed
    refine ⟨?_, hr.long⟩
    have inv := spec.1
    simp only [Request.program] at inv
    rwa [execute_issued] at inv
  · cases hs

theorem refresh_succeeds_iff {start v next : Visitor} {trace : List Visit} {visit : Visit}
    (begins : (renewing formats policy).init start) (ran : (renewing formats policy).run start trace = some v)
    (stepped : (renewing formats policy).step v visit = some next)
    (qualifies : Qualifies formats (v.finds visit) visit.cmd token session) :
    next.answer ≠ none ↔
      session.expiresAt < min ((v.finds visit).clock + policy.sessionTtl) session.absoluteExpiry := by
  have renewed : Renewed policy v :=
    Machine.run_keeps (fun _ _ _ renewed _ stepped => renewed.step stepped) (Renewed.start begins)
      (Machine.meets_true start) ran
  have coherent := renewed.coherent.finds visit
  simp only [renewing] at stepped
  split at stepped
  · rename_i fresh
    cases stepped
    have undrawn : visit.successorId ∉ (v.finds visit).drawn := by simpa using fresh.1
    have freshHash : formats.digest visit.secret ∉ (v.finds visit).tokens.rows.map RefreshToken.tokenHash := by
      simpa using fresh.2
    have freshId : visit.successorId ∉ (v.finds visit).tokens.rows.map RefreshToken.id := by
      intro known
      obtain ⟨row, member, same⟩ := List.mem_map.mp known
      exact undrawn (same ▸ (coherent.drawnTokens row member).1)
    have drawn := (draw_coherent coherent [visit.successorId]).1
    exact refresh_served (w := { v.finds visit with drawn := [visit.successorId] ++ (v.finds visit).drawn })
      { qualifies with } drawn renewed.long freshId freshHash
  · cases stepped

end

/-- The token and the session of a refresh that qualifies. -/
def qualified (formats : Formats) (w : World) (cmd : RefreshCommand) : Option (RefreshToken × Session) := do
  let token ← w.tokens.findByHash (formats.digest cmd.refreshToken)
  let session ← w.sessions.find token.sessionId
  if isBlank cmd.refreshToken = false ∧ token.status = .active ∧ token.isExpired w.clock = false ∧
      session.isValidUnder (w.generation token.accountId) w.clock = true ∧
      session.device.sameDeviceAs cmd.device = true ∧ (w.directory token.accountId).activation = .active then
    some (token, session)
  else none

theorem qualifies_of_qualified (hf : qualified formats w cmd = some (token, session)) :
    Qualifies formats w cmd token session := by
  obtain ⟨_, presented, rest⟩ := bind_eq_some_iff.mp hf
  obtain ⟨_, bound, rest⟩ := bind_eq_some_iff.mp rest
  split at rest
  · rename_i passed
    cases rest
    obtain ⟨hn, newest, unexpired, hv, device, account⟩ := passed
    exact ⟨hn, presented, newest, unexpired, bound, hv, device, account⟩
  · cases rest

namespace Sample

/-- Sessions that last for forty minutes at most. -/
def brief : SessionPolicy := ⟨seconds 600, seconds 1800, seconds 2400, seconds 604800⟩

/-- The login of the sample under this policy. -/
def entered : World × Except AuthError IssuedSession :=
  server.execute
    (Auth.login formats brief ⟨.password "ana" "secret", device⟩ correlation session token secret world.clock)
    { world with drawn := [session, token] ++ world.drawn } Server.allServed

def visitor : Visitor := ⟨entered.1, entered.2.toOption⟩

theorem visitor_begins : (renewing formats brief).init visitor := by
  have done : visitor.answer.isSome = true := by decide +kernel
  obtain ⟨outcome, hr⟩ := isSome_iff_exists.mp done
  have succeeded : entered.2 = .ok outcome := by
    change entered.2.toOption = some outcome at hr
    generalize entered.2 = res at hr
    cases res <;> cases hr
    rfl
  exact ⟨start, ⟨.password "ana" "secret", device⟩, correlation, session, token, secret, outcome,
    .start start_begins, by simp [start, world], by simp [start, world], Prod.ext rfl succeeded, hr⟩

def early : Visit := ⟨1000000000000, world.directory, ⟨secret, device⟩, correlation, nextToken, nextSecret⟩

/-- Five hundred seconds later: the session cannot be extended any further. -/
def late : Visit := ⟨500000000000, world.directory, ⟨nextSecret, device⟩, correlation, otherToken, otherSecret⟩

theorem refresh_succeeds_early : ∃ next token session,
    (renewing formats brief).step visitor early = some next ∧
      Qualifies formats (visitor.finds early) early.cmd token session ∧ next.answer ≠ none := by
  obtain ⟨next, stepped, ⟨token, session⟩, found, moves⟩ : ∃ next,
      (renewing formats brief).step visitor early = some next ∧
      ∃ both, qualified formats (visitor.finds early) early.cmd = some both ∧ both.2.expiresAt <
        min ((visitor.finds early).clock + brief.sessionTtl) both.2.absoluteExpiry := by
    decide +kernel
  have qualifies := qualifies_of_qualified found
  have ran : (renewing formats brief).run visitor [] = some visitor := rfl
  exact ⟨next, token, session, stepped, qualifies,
    (refresh_succeeds_iff visitor_begins ran stepped qualifies).mpr moves⟩

/-- In the last stretch before the absolute expiry, the newest token of a valid session is refused. -/
theorem refresh_fails_late : ∃ v next token session,
    (renewing formats brief).init visitor ∧ (renewing formats brief).run visitor [early] = some v ∧
      v.answer ≠ none ∧ (renewing formats brief).step v late = some next ∧
      Qualifies formats (v.finds late) late.cmd token session ∧ next.answer = none := by
  obtain ⟨v, ran, ⟨token, session⟩, found, next, stepped, before, after⟩ : ∃ v,
      (renewing formats brief).run visitor [early] = some v ∧
      ∃ both, qualified formats (v.finds late) late.cmd = some both ∧
      ∃ next, (renewing formats brief).step v late = some next ∧ v.answer ≠ none ∧ next.answer = none := by
    decide +kernel
  exact ⟨v, next, token, session, visitor_begins, ran, before, stepped, qualifies_of_qualified found, after⟩

end Sample
end CorePlatform.Auth
