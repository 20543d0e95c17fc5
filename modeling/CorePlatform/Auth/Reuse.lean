import CorePlatform.Auth.Renewal

/-! # A refresh that fails, and the token it was for

A rotated token that is presented again is taken for a stolen one, and the generation of the account
is revoked. A refresh writes the rotated token before its successor, the session and the access
token. When one of these calls fails, the client's token is rotated already. -/

namespace CorePlatform.Auth

open Theory Server Program
open Audit (isBlank)

/-- A refresh, how long after the one before, and how its calls go. -/
structure Try where
  wait : Nat
  cmd : RefreshCommand
  correlationId : Uuid
  successorId : RefreshTokenId
  secret : String
  pattern : Nat → Service

def Try.run (formats : Formats) (policy : SessionPolicy) (t : Try) (w : World) :
    World × Except AuthError IssuedSession :=
  server.execute (refresh formats policy t.cmd t.correlationId t.successorId t.secret (w.after t.wait).clock)
    (w.after t.wait) t.pattern

/-- However the token is presented again, it is not taken for a reused one. -/
def Unburnt (formats : Formats) (policy : SessionPolicy) (refreshToken : String) (w : World) : Prop :=
  ∀ again : Try, again.cmd.refreshToken = refreshToken →
    (again.run formats policy w).2 ≠ .error .refreshTokenReuseDetected ∧
      (again.run formats policy w).1.generations = w.generations

def Rotated (hash : RefreshTokenHash) (w : World) : Prop :=
  ∃ row ∈ w.tokens.rows, row.tokenHash = hash ∧ row.status = .rotated

/-- The refresh gets as far as writing the rotated token: the lookups of token, session, generation
and account are answered, and all gates are passed. -/
def Writes (formats : Formats) (policy : SessionPolicy) (w : World) (t : Try) : Prop :=
  ∃ token session, Qualifies formats (w.after t.wait) t.cmd token session ∧ 0 < policy.refreshTtl ∧
    t.pattern 0 = .served ∧ t.pattern 1 = .served ∧ t.pattern 2 = .served ∧ t.pattern 3 = .served ∧
    (t.pattern 4).reaches = true ∧ token.version ≠ -1

section

variable {policy : SessionPolicy} {w : World} {token : RefreshToken} {session : Session} {hash : RefreshTokenHash}

def Lenient (op : Op) : Prop := ∀ accountId, op ≠ .bumpGeneration accountId

/-- Of the tokens, new ones at most are written. -/
def Sparing (op : Op) : Prop := ∀ token, op = .saveToken token → token.version = 0

variable {again : Try}

theorem publishAll_confined {α : Type} {rest : Unit → Calling α} (fits : ∀ event, allowed (.publish event))
    (ho : (rest ()).Confined allowed may) : (publishAll events >>= rest).Confined allowed may := by
  induction events with
  | nil => exact ho
  | cons event _ ih =>
    rw [publishAll, bind_assoc]
    exact .perform (fits event) fun _ => ih

theorem issue_confined (first : successor.version = 0) :
    (do
      Program.perform (Op.saveToken successor)
      let session ← session.extend now policy.sessionTtl
      Program.perform (Op.saveSession session)
      let claims ← session.mintAccessToken now policy.accessTtl permissions
      let accessToken ← Program.perform (Op.mintAccess claims)
      pure {
        accountId := token.accountId
        sessionId := token.sessionId
        accessToken
        refreshToken := secret
        accessExpiresIn := claims.expiresInSecs now
        firstLink := false } : Calling IssuedSession).Confined (fun op => Lenient op ∧ Sparing op)
      (· ≠ .refreshTokenReuseDetected) := by
  refine .perform ⟨by simp [Lenient], ?_⟩ fun _ => ?_
  · rintro _ ⟨⟩
    exact first
  refine .lift (fun e hf => extend_error hf) fun session' _ => ?_
  refine .perform ⟨by simp [Lenient], by simp [Sparing]⟩ fun _ => ?_
  refine .lift (fun e hf => mintAccessToken_error hf) fun claims _ => ?_
  exact .perform ⟨by simp [Lenient], by simp [Sparing]⟩ fun _ => trivial

theorem persistRotation_confined (first : successor.version = 0) :
    (persistRotation policy now token rotated successor session permissions secret).Confined Lenient
      (· ≠ .refreshTokenReuseDetected) :=
  .perform (by simp [Lenient]) fun _ => (issue_confined first).mono fun _ both => both.1

theorem exchange_confined (first : successor.version = 0) :
    (exchange formats policy device now token rotated successor secret).Confined Lenient
      (· ≠ .refreshTokenReuseDetected) := by
  refine .perform (by simp [Lenient]) fun hf => ?_
  cases hf with
  | none => simp [Program.Confined]
  | some =>
    refine .perform (by simp [Lenient]) fun gen => ?_
    split
    · simp [Program.Confined]
    split
    · simp [Program.Confined]
    refine .perform (by simp [Lenient]) fun snap => ?_
    split
    · simp [Program.Confined]
    · exact persistRotation_confined first

theorem revokeGeneration_bumps :
    ∃ tail : Calling IssuedSession,
      (do
        revokeGeneration policy now accountId sessionId correlationId
        error .refreshTokenReuseDetected) = (Program.perform (Op.bumpGeneration accountId) >>= fun _ => tail) ∧
      tail.Confined (fun op => Lenient op ∧ Sparing op) fun _ => True := by
  refine ⟨_, by simp only [revokeGeneration, bind_assoc]; rfl, ?_⟩
  refine .perform ⟨by simp [Lenient], by simp [Sparing]⟩ fun _ => ?_
  refine .perform ⟨by simp [Lenient], by simp [Sparing]⟩ fun hf => ?_
  cases hf with
  | none => trivial
  | some session =>
    by_cases ha : session.status = .active
    · simp only [ha, if_true, bind_assoc]
      refine .lift (fun _ _ => trivial) fun session' _ => ?_
      refine .perform ⟨by simp [Lenient], by simp [Sparing]⟩ fun _ => ?_
      refine .perform ⟨by simp [Lenient], by simp [Sparing]⟩ fun _ => ?_
      refine publishAll_confined (fun _ => ⟨by simp [Lenient], by simp [Sparing]⟩) ?_
      trivial
    · simp only [ha, if_false]
      trivial

theorem serve_generations (hl : Lenient op) : (server.serve w op).1.generations = w.generations := by
  have hv := serve_served w op
  generalize (server.serve w op).1 = after at hv
  cases hv with
  | token hsa | session hsa => cases hsa <;> rfl
  | bumped accountId => exact absurd rfl (hl accountId)
  | _ => rfl

theorem serve_rotated (hs : Sparing op) (ha : Rotated hash w) : Rotated hash (server.serve w op).1 := by
  obtain ⟨row, mem, mine, status⟩ := ha
  have hv := serve_served w op
  generalize (server.serve w op).1 = after at hv
  cases hv with
  | token hsa =>
    cases hsa with
    | refused => exact ⟨row, mem, mine, status⟩
    | inserted _ _ _ rows => exact ⟨row, rows ▸ .tail _ mem, mine, status⟩
    | updated later => exact absurd (hs _ rfl) later
  | session hsa => cases hsa <;> exact ⟨row, mem, mine, status⟩
  | revoked =>
    exact ⟨row, Rows.mem_update_of_miss mem (by simp [TokenTable.liveIn, status]), mine, status⟩
  | _ => exact ⟨row, mem, mine, status⟩

theorem lenient_execute {α : Type} {prog : Calling α} (hc : prog.Confined Lenient may)
    (hp : ∀ e, e ≠ .refreshTokenReuseDetected → may e) :
    (server.execute prog w pat).1.generations = w.generations ∧
      ∀ e, (server.execute prog w pat).2 = .error e → may e := by
  have keeps : ∀ w' op, Lenient op → World.generations w' = w.generations →
      (server.serve w' op).1.generations = w.generations :=
    fun w' op lenient eq => (serve_generations lenient).trans eq
  exact execute_confined hc (fun _ _ _ e _ hf => hp e (perform_error hf)) keeps rfl pat

theorem sparing_execute {α : Type} {prog : Calling α} (hc : prog.Confined Sparing may)
    (hp : ∀ e, e ≠ .refreshTokenReuseDetected → may e) (ha : Rotated hash w) (pat : Nat → Service) :
    Rotated hash (server.execute prog w pat).1 :=
  (execute_confined hc (fun _ _ _ e _ hf => hp e (perform_error hf))
    (fun _ _ sparing => serve_rotated sparing) ha pat).1

theorem rotated_iff (hf : w.tokens.findByHash hash = some token) : Rotated hash w ↔ token.status = .rotated := by
  obtain ⟨mem, mine⟩ := mem_of_findByHash hf
  constructor
  · rintro ⟨row, member', mine', status⟩
    rwa [List.inj_on_of_nodup_map w.tokens.hashes member' mem (mine'.trans mine.symm)] at status
  · intro status
    exact ⟨token, mem, mine, status⟩

theorem blank_spared (blank : isBlank again.cmd.refreshToken = true) :
    (again.run formats policy w).2 ≠ .error .refreshTokenReuseDetected ∧
      (again.run formats policy w).1.generations = w.generations := by
  have refused : ensureValid again.cmd.validate = .error (.validation again.cmd.validate) := by
    simp [RefreshCommand.validate, present, blank, ensureValid]
  simp only [Try.run, refresh, refused, lift_error, error_bind, execute_error]
  exact ⟨by simp, rfl⟩

theorem fresh_spared (hfr : ¬ Rotated (formats.digest again.cmd.refreshToken) w) :
    (again.run formats policy w).2 ≠ .error .refreshTokenReuseDetected ∧
      (again.run formats policy w).1.generations = w.generations := by
  cases blank : isBlank again.cmd.refreshToken with
  | true => exact blank_spared blank
  | false =>
    simp only [Try.run, refresh, ensureValid_named blank, Formats.hashRefresh_eq, lift_ok, ok_bind]
    rw [execute_perform_bind]
    cases again.pattern 0 with
    | refused | replyLost => exact ⟨by simp [Server.perform, server], rfl⟩
    | served =>
      simp only [Server.perform, serve_findByHash]
      cases hf : (w.after again.wait).tokens.findByHash (formats.digest again.cmd.refreshToken) with
      | none => exact ⟨by simp, rfl⟩
      | some token =>
        have other : token.status ≠ .rotated := fun status => hfr ((rotated_iff hf).mpr status)
        dsimp only
        cases rotation : token.rotate (w.after again.wait).clock (formats.digest again.secret)
            ((w.after again.wait).clock + policy.refreshTtl) again.successorId with
        | ok pair =>
          obtain ⟨_, successor⟩ := pair
          have first : successor.version = 0 := by rw [(RefreshToken.rotate_ok rotation).2.2.2.2]
          obtain ⟨eq, errors⟩ := lenient_execute (exchange_confined first) (fun _ other => other)
          exact ⟨fun hfa => errors _ hfa rfl, eq⟩
        | error e =>
          have unlike : e ≠ .refreshTokenReuseDetected := by
            rintro rfl
            exact other (RefreshToken.rotate_reuse.mp rotation)
          cases e with
          | refreshTokenReuseDetected => exact absurd rfl unlike
          | _ => exact ⟨by simp, rfl⟩

theorem rotated_bumps (hn : isBlank again.cmd.refreshToken = false)
    (ha : Rotated (formats.digest again.cmd.refreshToken) w) (ht : again.pattern = allServed) :
    (again.run formats policy w).1.generations ≠ w.generations := by
  obtain ⟨token, mem, mine, status⟩ := ha
  have hf : (w.after again.wait).tokens.findByHash (formats.digest again.cmd.refreshToken) = some token :=
    (Rows.find?_eq_some_iff w.tokens.hashes).mpr ⟨mem, mine⟩
  have reuse : token.rotate (w.after again.wait).clock (formats.digest again.secret)
      ((w.after again.wait).clock + policy.refreshTtl) again.successorId = .error .refreshTokenReuseDetected :=
    RefreshToken.rotate_reuse.mpr status
  simp only [Try.run, refresh, ensureValid_named hn, Formats.hashRefresh_eq, lift_ok, ok_bind, ht]
  rw [execute_served rfl (serve_findByHash _ _)]
  simp only [hf, reuse]
  obtain ⟨_, eq, hco⟩ := revokeGeneration_bumps
  rw [eq, execute_served rfl (serve_bumpGeneration _ _)]
  rw [(lenient_execute (hco.mono fun _ both => both.1) (fun _ _ => trivial)).1]
  intro unchanged
  have stored : w.generations token.accountId = some (w.generation token.accountId + 1) := by
    refine (congrFun unchanged token.accountId).symm.trans ?_
    exact Function.update_self ..
  have hc : w.generation token.accountId = w.generation token.accountId + 1 := by
    conv_lhs => rw [World.generation, stored]
    rfl
  exact absurd hc (Int.ne_of_lt (Int.lt_succ _))

theorem unburnt_iff {refreshToken : String} :
    Unburnt fmt policy refreshToken w ↔ isBlank refreshToken = true ∨ ¬ Rotated (fmt.digest refreshToken) w := by
  constructor
  · intro unburnt
    by_cases blank : isBlank refreshToken = true
    · exact .inl blank
    · refine .inr fun already => ?_
      have again := unburnt ⟨0, ⟨refreshToken, ⟨none, none, none⟩⟩, 0, 0, "", allServed⟩ rfl
      exact rotated_bumps (by simpa using blank) already rfl again.2
  · rintro (blank | hf) again rfl
    · exact blank_spared blank
    · exact fresh_spared hf

theorem saveToken_rotated (mem : token ∈ w.tokens.rows)
    (hr : token.rotate now newHash newExpiresAt successorId = .ok (rotated, successor)) :
    token.version = -1 ∧ (∃ e, w.saveToken rotated = (w, .error e)) ∨
      token.version ≠ -1 ∧ ∃ w', w.saveToken rotated = (w', .ok ()) ∧ Rotated token.tokenHash w' := by
  obtain ⟨_, _, _, hm, _⟩ := RefreshToken.rotate_ok hr
  by_cases unversioned : token.version = -1
  · left
    have hk : rotated.id ∈ w.tokens.rows.map RefreshToken.id := by
      have eq : rotated.id = token.id := by rw [hm]
      exact eq ▸ List.mem_map_of_mem mem
    have first : rotated.version = 0 := by simp [hm, unversioned]
    exact ⟨unversioned, _, by simp only [World.saveToken, first, if_true, TokenTable.insert, hk, dif_pos]; rfl⟩
  right
  have hl : rotated.version ≠ 0 := by
    simp only [hm]
    omega
  refine ⟨unversioned, _, saveToken_found mem hl (by rw [hm]) (by rw [hm]), ?_⟩
  refine ⟨_, Rows.mem_update_of_hit mem ?_, rfl, by rw [hm]; rfl⟩
  simp [TokenTable.matches_, hm]

theorem persistRotation_rotated (mem : token ∈ w.tokens.rows) (hf : ¬ Rotated token.tokenHash w)
    (hr : token.rotate now newHash newExpiresAt successorId = .ok (rotated, successor)) :
    Rotated token.tokenHash (server.execute
        (persistRotation policy now token rotated successor session permissions secret) w pat).1 ↔
      (pat 0).reaches = true ∧ token.version ≠ -1 := by
  have first : successor.version = 0 := by rw [(RefreshToken.rotate_ok hr).2.2.2.2]
  unfold persistRotation
  rw [execute_perform_bind]
  rcases saveToken_rotated mem hr with ⟨unversioned, e, refused⟩ | ⟨versioned, w', hv, used⟩
  · cases pat 0 <;> simp [Server.perform, refused, hf, unversioned]
  · cases pat 0 with
    | refused => simp [Server.perform, hf, Service.reaches]
    | replyLost => simp [Server.perform, hv, used, versioned, Service.reaches]
    | served =>
      simp only [Server.perform, serve_saveToken, hv, Service.reaches, true_and, versioned, ne_eq,
        not_false_eq_true, iff_true]
      exact sparing_execute ((issue_confined first).mono fun _ both => both.2) (fun _ other => other) used _

theorem exchange_rotated (mem : token ∈ w.tokens.rows) (hf : ¬ Rotated token.tokenHash w)
    (hr : token.rotate w.clock newHash newExpiresAt successorId = .ok (rotated, successor)) :
    Rotated token.tokenHash (server.execute
        (exchange formats policy device w.clock token rotated successor secret) w pat).1 ↔
      ∃ session, w.sessions.find token.sessionId = some session ∧
        session.isValidUnder (w.generation token.accountId) w.clock = true ∧
        session.device.sameDeviceAs device = true ∧ (w.directory token.accountId).activation = .active ∧
        pat 0 = .served ∧ pat 1 = .served ∧ pat 2 = .served ∧ (pat 3).reaches = true ∧
        token.version ≠ -1 := by
  unfold exchange
  rw [execute_read (serve_findSession w _) hf]
  cases bound : w.sessions.find token.sessionId with
  | none => simp [hf]
  | some session =>
    rw [execute_read (serve_currentGeneration w _) hf]
    cases hv : session.isValidUnder (w.generation token.accountId) w.clock with
    | false => simp [hf, hv, -Session.isValidUnder_eq_true]
    | true =>
      cases eq : session.device.sameDeviceAs device with
      | false => simp [hf, eq]
      | true =>
        simp only [Bool.not_true, Bool.false_eq_true, if_false]
        rw [execute_read (serve_lookup w _) hf]
        cases account : (w.directory token.accountId).activation with
        | inactive => simp [hf]
        | active =>
          rw [persistRotation_rotated mem hf hr]
          simp [hv, eq, -Session.isValidUnder_eq_true]

theorem rotated_after {t : Try} (hn : isBlank t.cmd.refreshToken = false)
    (hfr : ¬ Rotated (formats.digest t.cmd.refreshToken) w) :
    Rotated (formats.digest t.cmd.refreshToken) (t.run formats policy w).1 ↔ Writes formats policy w t := by
  have unused : ¬ Rotated (formats.digest t.cmd.refreshToken) (w.after t.wait) := hfr
  simp only [Try.run, refresh, ensureValid_named hn, Formats.hashRefresh_eq, lift_ok, ok_bind]
  rw [execute_read (serve_findByHash _ _) unused]
  cases hf : (w.after t.wait).tokens.findByHash (formats.digest t.cmd.refreshToken) with
  | none =>
    simp only [execute_error, unused, and_false, false_iff]
    rintro ⟨token, session, qualifies, _⟩
    have presented := qualifies.presented
    rw [hf] at presented
    cases presented
  | some token =>
    obtain ⟨mem, mine⟩ := mem_of_findByHash hf
    dsimp only
    cases rotation : token.rotate (w.after t.wait).clock (formats.digest t.secret)
        ((w.after t.wait).clock + policy.refreshTtl) t.successorId with
    | ok =>
      obtain ⟨ha, alive, long, _⟩ := RefreshToken.rotate_ok rotation
      conv_lhs => rw [← mine, exchange_rotated mem (mine ▸ unused) rotation]
      constructor
      · rintro ⟨hv, session, bound, hva, device, account, calls⟩
        have positive : 0 < policy.refreshTtl := by omega
        exact ⟨token, session, ⟨hn, hf, ha, alive, bound, hva, device, account⟩, positive, hv, calls⟩
      · rintro ⟨token', session, qualifies, _, hv, calls⟩
        cases hf.symm.trans qualifies.presented
        exact ⟨hv, session, qualifies.bound, qualifies.valid, qualifies.device, qualifies.account, calls⟩
    | error e =>
      have unwritten : ¬ Writes formats policy w t := by
        rintro ⟨token', session, qualifies, long, _⟩
        cases hf.symm.trans qualifies.presented
        rw [RefreshToken.rotate_active qualifies.newest qualifies.unexpired
          (Int.lt_add_of_pos_right _ long)] at rotation
        cases rotation
      have other : e ≠ .refreshTokenReuseDetected := by
        intro reuse
        exact unused ((rotated_iff hf).mpr (RefreshToken.rotate_reuse.mp (reuse ▸ rotation)))
      cases e with
      | refreshTokenReuseDetected => exact absurd rfl other
      | _ => simp [unused, unwritten]

theorem rotated_stays {t : Try} (hn : isBlank t.cmd.refreshToken = false)
    (ha : Rotated (fmt.digest t.cmd.refreshToken) w) :
    Rotated (fmt.digest t.cmd.refreshToken) (t.run fmt policy w).1 := by
  obtain ⟨token, mem, mine, status⟩ := id ha
  have hf : (w.after t.wait).tokens.findByHash (fmt.digest t.cmd.refreshToken) = some token :=
    (Rows.find?_eq_some_iff w.tokens.hashes).mpr ⟨mem, mine⟩
  have reuse : token.rotate (w.after t.wait).clock (fmt.digest t.secret)
      ((w.after t.wait).clock + policy.refreshTtl) t.successorId = .error .refreshTokenReuseDetected :=
    RefreshToken.rotate_reuse.mpr status
  simp only [Try.run, refresh, ensureValid_named hn, Formats.hashRefresh_eq, lift_ok, ok_bind]
  rw [execute_perform_bind]
  cases t.pattern 0 with
  | refused | replyLost => exact ha
  | served =>
    simp only [Server.perform, serve_findByHash, hf, reuse]
    obtain ⟨tail, eq, hc⟩ := revokeGeneration_bumps
    have sparing : (Program.perform (Op.bumpGeneration token.accountId) >>= fun _ => tail).Confined Sparing
        fun _ => True := .perform (by simp [Sparing]) fun _ => hc.mono fun _ both => both.2
    rw [eq]
    exact sparing_execute (w := w.after t.wait) sparing (fun _ _ => trivial) ha _

theorem failed_refresh_unburnt_iff (w : World) (t : Try) :
    ∀ e, (t.run formats policy w).2 = .error e → e ≠ .refreshTokenReuseDetected →
      (Unburnt formats policy t.cmd.refreshToken (t.run formats policy w).1 ↔
        isBlank t.cmd.refreshToken = true ∨
          ¬ Rotated (formats.digest t.cmd.refreshToken) w ∧ ¬ Writes formats policy w t) := by
  intro e _ _
  rw [unburnt_iff]
  cases named : isBlank t.cmd.refreshToken with
  | true => simp
  | false =>
    by_cases already : Rotated (formats.digest t.cmd.refreshToken) w
    · simp [already, rotated_stays named already]
    · simp [already, rotated_after named already]

end

namespace Sample

def failure (result : World × Except AuthError IssuedSession) : Option AuthError :=
  match result.2 with
  | .ok _ => none
  | .error e => some e

theorem failure_eq_some (seen : failure res = some e) : res.2 = .error e := by
  obtain ⟨_, ans⟩ := res
  cases ans with
  | ok => cases seen
  | error =>
    cases seen
    rfl

/-- The refresh of the sample, with one call that does not get through. -/
def stopped (call : Nat) : Try :=
  ⟨1000000000000, ⟨secret, device⟩, correlation, nextToken, nextSecret,
    fun n => if n = call then .refused "timeout" else .served⟩

/-- The session cannot be read: the token is as good as before. -/
theorem failed_refresh_unburnt_unread :
    ((stopped 1).run formats brief entered.1).2 = .error (.storage "timeout") ∧
      Unburnt formats brief secret ((stopped 1).run formats brief entered.1).1 := by
  have failed : ((stopped 1).run formats brief entered.1).2 = .error (.storage "timeout") :=
    failure_eq_some (by decide +kernel)
  have active : (entered.1.tokens.rows.map RefreshToken.status) = [.active] := by decide +kernel
  refine ⟨failed, (failed_refresh_unburnt_iff entered.1 (stopped 1) _ failed (by simp)).mpr (.inr ⟨?_, ?_⟩)⟩
  · intro already
    obtain ⟨_, member, _, status⟩ := already
    have held := List.mem_map_of_mem (f := RefreshToken.status) member
    rw [active, status] at held
    simp at held
  · intro writes
    obtain ⟨_, _, _, _, _, read, _⟩ := writes
    simp [stopped] at read

/-- The successor cannot be written: the client retries, and all its sessions are revoked. -/
theorem failed_refresh_burns :
    ((stopped 5).run formats brief entered.1).2 = .error (.storage "timeout") ∧
      ∃ again : Try, again.cmd.refreshToken = secret ∧
        (again.run formats brief ((stopped 5).run formats brief entered.1).1).2 = .error .refreshTokenReuseDetected ∧
        entered.1.generation account = 0 ∧
        (again.run formats brief ((stopped 5).run formats brief entered.1).1).1.generation account = 1 := by
  refine ⟨failure_eq_some (by decide +kernel), ⟨0, ⟨secret, device⟩, correlation, otherToken, otherSecret,
    Server.allServed⟩, rfl, failure_eq_some (by decide +kernel), by decide +kernel, by decide +kernel⟩

end Sample
end CorePlatform.Auth
