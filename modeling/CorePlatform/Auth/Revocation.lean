import CorePlatform.Auth.Interleaved

/-! # What a revocation leaves behind

A logout, a global logout and a detected reuse revoke the refresh tokens of a session at once, and a
logout blacklists the session. Once such a request has returned, no refresh token of the session is
to be active again, and no access token of it to pass introspection.

Two things get in the way. A refresh that has read its token before the bulk revocation writes it
back afterwards, for a bulk revocation does not count as a version. And a logout that finds the
session revoked returns at once, while the logout that revoked it is still at work. -/

namespace CorePlatform.Auth

open Theory

section

variable {formats : Formats} {policy : SessionPolicy} {settled : SessionId → World → Prop} {start pool : State}
  {trace : List Label} {w : World}

/-- The session that a logout is about to look up. -/
def finding (call : Call Request Op Op.Reply AuthError Outcome) : Option SessionId :=
  match call.request, call.program with
  | .logout _ _, .call (.findSession sessionId) _ => some sessionId
  | _, _ => none

def writing (call : Call Request Op Op.Reply AuthError Outcome) : Option RefreshToken :=
  match call.program with
  | .call (.saveToken token) _ => some token
  | _ => none

/-- A logout that finds its session ended comes after the other one is done with it. -/
def Awaits (settled : SessionId → World → Prop) (pool : State) : Label → Prop
  | .advance id _ =>
    match (pool.calls id).bind finding with
    | some sessionId => Ended sessionId pool.world → settled sessionId pool.world
    | none => True
  | .begin _ _ | .crash _ | .elapse _ => True

/-- No token of a session is written after all of them were revoked. -/
def InTime (pool : State) : Label → Prop
  | .advance id _ =>
    match (pool.calls id).bind writing with
    | some token =>
      ¬ Swept token.sessionId pool.world ∧
        ∀ row ∈ pool.world.tokens.rows, row.id = token.id → ¬ Swept row.sessionId pool.world
    | none => True
  | .begin _ _ | .crash _ | .elapse _ => True

theorem Awaits.allows (ha : Awaits settled pool move) : (contract formats policy settled).Allows pool move := by
  cases move with
  | advance _ _ =>
    intro req op next heard hw
    simp only [Awaits, hw, Option.bind_some] at ha
    cases req with
    | logout =>
      cases op with
      | findSession =>
        intro row mem mine he
        exact ha ⟨row, mem, mine, he⟩
      | _ => trivial
    | _ => cases op <;> trivial
  | begin | crash | elapse => trivial

theorem run_awaits (hl : ∀ sessionId, Lasting policy.accessTtl (settled sessionId))
    (hb : (host formats policy).machine.init start)
    (awaits : (host formats policy).machine.Meets (Awaits settled) start trace)
    (ran : (host formats policy).machine.run start trace = some pool) :
    (contract formats policy settled).Kept (host formats policy) pool :=
  (contract_valid hl).run hb (awaits.mono fun _ _ => Awaits.allows) ran

structure Clean (w : World) : Prop where
  dead : ∀ row ∈ w.tokens.rows, Swept row.sessionId w → row.status ≠ .active
  revoked : ∀ sweep ∈ w.sweeps, ∀ id ∈ sweep.revoked, ∃ row ∈ w.tokens.rows,
    row.id = id ∧ row.sessionId = sweep.sessionId ∧ row.status = .revoked

theorem Clean.of_same (hc : Clean w) (ht : w'.tokens = w.tokens) (hs : w'.sweeps = w.sweeps) : Clean w' := by
  refine ⟨?_, ?_⟩
  · rw [ht]
    intro row mem swept
    rw [Swept, hs] at swept
    exact hc.dead row mem swept
  · rw [ht, hs]
    exact hc.revoked

theorem Clean.saveToken (hc : Clean w) (hu : ¬ Swept token.sessionId w)
    (hr : ∀ row ∈ w.tokens.rows, row.id = token.id → ¬ Swept row.sessionId w)
    (hv : TokenSaved w token (w', reply)) : Clean w' := by
  cases hv with
  | refused => exact hc
  | inserted _ _ _ rows =>
    refine ⟨?_, fun sweep h id hit => ?_⟩
    · simp only [rows]
      exact List.forall_mem_cons.mpr ⟨fun swept => absurd swept hu, hc.dead⟩
    · obtain ⟨row, mem, rest⟩ := hc.revoked sweep h id hit
      exact ⟨row, rows ▸ .tail _ mem, rest⟩
  | updated _ mem =>
    refine ⟨fun row' mem swept => ?_, fun sweep h id revoked => ?_⟩
    · rcases mem_update_token mem with old | ⟨row, old, mine, _, rfl⟩
      · exact hc.dead row' old swept
      · exact absurd swept (hr row old mine)
    obtain ⟨row, mem, mine, chain, he⟩ := hc.revoked sweep h id revoked
    have missed : TokenTable.matches_ token row = false := by
      refine Bool.eq_false_iff.mpr fun found => ?_
      exact hr row mem (TokenTable.matches_iff.mp found).1 ⟨sweep, h, chain.symm⟩
    exact ⟨row, Rows.mem_update_of_miss mem missed, mine, chain, he⟩

theorem Clean.revokeAllForSession (hc : Clean w) (sid : SessionId) : Clean (w.revokeAllForSession sid) := by
  refine ⟨fun row' mem swept => ?_, List.forall_mem_cons.mpr ⟨fun id hit => ?_, fun sweep h id hit => ?_⟩⟩
  · rcases mem_revokeAll mem with ⟨old, spared⟩ | ⟨row, _, _, _, rfl⟩
    · obtain ⟨sweep, h, mine⟩ := swept
      rcases List.mem_cons.mp h with rfl | h
      · exact fun ha => spared ⟨mine.symm, ha⟩
      · exact hc.dead row' old ⟨sweep, h, mine⟩
    · simp
  · obtain ⟨row, live, rfl⟩ := List.mem_map.mp hit
    obtain ⟨mem, live⟩ := List.mem_filter.mp live
    refine ⟨_, Rows.mem_update_of_hit mem live, rfl, ?_, rfl⟩
    simp only [TokenTable.liveIn, Bool.and_eq_true, decide_eq_true_eq] at live
    exact live.1
  · obtain ⟨row, mem, mine, chain, he⟩ := hc.revoked sweep h id hit
    exact ⟨row, Rows.mem_update_of_miss mem (by simp [TokenTable.liveIn, he]), mine, chain, he⟩

theorem Clean.serve (hc : Clean w) (hi : ∀ token, op = .saveToken token → ¬ Swept token.sessionId w ∧
      ∀ row ∈ w.tokens.rows, row.id = token.id → ¬ Swept row.sessionId w) : Clean (server.serve w op).1 := by
  have hv := serve_served w op
  generalize (server.serve w op).1 = after at hv
  cases hv with
  | token hsa =>
    obtain ⟨unswept, row_unswept⟩ := hi _ rfl
    exact hc.saveToken unswept row_unswept hsa
  | session hsa => cases hsa <;> exact hc.of_same rfl rfl
  | revoked sessionId => exact hc.revokeAllForSession sessionId
  | _ => exact hc.of_same rfl rfl

theorem Clean.step (hcl : Clean pool.world) (hi : InTime pool move)
    (hs : (host formats policy).Steps pool move next) : Clean next.world := by
  cases hs with
  | begun _ ha =>
    simp only [host] at ha
    split at ha <;> cases ha
    exact hcl.of_same rfl rfl
  | @advanced _ _ op _ _ svc hw =>
    have served : Clean (server.serve pool.world op).1 := by
      refine hcl.serve ?_
      rintro token rfl
      simpa only [InTime, hw, Option.bind_some, writing] using hi
    cases svc with
    | served | replyLost => exact served
    | refused => exact hcl
  | crashed => exact hcl
  | @elapsed event _ hc =>
    cases event <;> cases hc <;> exact hcl.of_same rfl rfl

theorem run_clean (hb : (host formats policy).machine.init start)
    (inTime : (host formats policy).machine.Meets InTime start trace)
    (ran : (host formats policy).machine.run start trace = some pool) : Clean pool.world := by
  have first : Clean start.world := by
    refine ⟨?_, ?_⟩ <;> simp [hb.1.tokens, hb.1.sweeps]
  exact Host.run_keeps (fun pool => Clean pool.world) (fun clean inTime hs => clean.step inTime hs) first
    inTime ran

/-- A request that has revoked the session and returned. -/
def Revokes (formats : Formats) (call : Call Request Op Op.Reply AuthError Outcome) (sessionId : SessionId) : Prop :=
  match call with
  | ⟨.logout cmd _, .ok _, _⟩ => formats.sessionId cmd.sessionId = .ok sessionId
  | ⟨.logoutAllSessions _ _, .ok _, heard⟩ => sessionId ∈ seen heard
  | ⟨.refresh _ _ _ _, .error .refreshTokenReuseDetected, heard⟩ => sessionId ∈ seen heard
  | _ => False

theorem revocation_leaves_none_active (begins : (host formats policy).machine.init start)
    (awaits : (host formats policy).machine.Meets (Awaits Swept) start trace)
    (inTime : (host formats policy).machine.Meets InTime start trace)
    (ran : (host formats policy).machine.run start trace = some pool)
    {id : Nat} {call : Call Request Op Op.Reply AuthError Outcome} {sessionId : SessionId}
    (held : pool.calls id = some call) (revokes : Revokes formats call sessionId) :
    (∀ row ∈ pool.world.tokens.rows, row.sessionId = sessionId → row.status ≠ .active) ∧
      ∀ sweep ∈ pool.world.sweeps, sweep.sessionId = sessionId →
        ∀ row ∈ pool.world.tokens.rows, row.id ∈ sweep.revoked → row.status = .revoked := by
  have kept := run_awaits (fun id => lasting_swept id) begins awaits ran
  have clean := run_clean begins inTime ran
  have swept : Swept sessionId pool.world := by
    unfold Revokes at revokes
    split at revokes
    · rcases kept.returned held sessionId revokes with ⟨swept, _⟩ | swept
      · exact swept
      · exact swept
    · exact (kept.returned held sessionId revokes).1
    · exact kept.failed held sessionId revokes
    · exact revokes.elim
  refine ⟨?_, ?_⟩
  · rintro row member rfl
    exact clean.dead row member swept
  intro sweep member _ row stored hit
  obtain ⟨_, stored', mine, _, revoked⟩ := clean.revoked sweep member row.id hit
  rw [token_eq stored stored' mine.symm]
  exact revoked

end

instance (settled : SessionId → World → Prop) [∀ sessionId w, Decidable (settled sessionId w)] (pool : State)
    (move : Label) : Decidable (Awaits settled pool move) := by
  unfold Awaits
  split
  · split <;> infer_instance
  all_goals infer_instance

instance (pool : State) (move : Label) : Decidable (InTime pool move) := by
  unfold InTime
  split
  · split <;> infer_instance
  all_goals infer_instance

namespace Sample

/-- A refresh that is done before the logout begins. -/
def inOrder : List Label :=
  loggedIn ++ [.elapse (.tick 1000), .begin 1 refresh] ++ advances 1 8 ++ [.begin 2 logout] ++ advances 2 5

/-- A logout from its first call to its last, while a refresh that has read its token waits to write it. -/
def overrun : List Label :=
  loggedIn ++ [.elapse (.tick 1000), .begin 1 refresh] ++ advances 1 4 ++ [.begin 2 logout] ++ advances 2 5 ++
    advances 1 2

theorem revocation_leaves_none_active_in_order : ∃ pool,
    (host formats policy).machine.run start inOrder = some pool ∧
      ∀ row ∈ pool.world.tokens.rows, row.sessionId = session → row.status ≠ .active := by
  obtain ⟨pool, ran, seen⟩ : ∃ pool, (host formats policy).machine.run start inOrder = some pool ∧
      answered pool 2 = some (logout, true) := by decide +kernel
  obtain ⟨_, _, returned⟩ := returned_of_answered seen
  refine ⟨pool, ran, (revocation_leaves_none_active start_begins ?_ ?_ ran returned rfl).1⟩
  · decide +kernel
  · decide +kernel

/-- Active again, and rotated instead of revoked. -/
theorem revocation_overrun : ∃ pool call,
    (host formats policy).machine.init start ∧ (host formats policy).machine.run start overrun = some pool ∧
      pool.calls 2 = some call ∧ Revokes formats call session ∧
      (∃ row ∈ pool.world.tokens.rows, row.sessionId = session ∧ row.status = .active) ∧
      ∃ sweep ∈ pool.world.sweeps, ∃ row ∈ pool.world.tokens.rows,
        row.id ∈ sweep.revoked ∧ row.status = .rotated := by
  obtain ⟨pool, ran, done, seen⟩ : ∃ pool, (host formats policy).machine.run start overrun = some pool ∧
      answered pool 2 = some (logout, true) ∧
      (∃ row ∈ pool.world.tokens.rows, row.sessionId = session ∧ row.status = .active) ∧
      ∃ sweep ∈ pool.world.sweeps, ∃ row ∈ pool.world.tokens.rows,
        row.id ∈ sweep.revoked ∧ row.status = .rotated := by decide +kernel
  obtain ⟨_, _, returned⟩ := returned_of_answered done
  exact ⟨pool, _, start_begins, ran, returned, rfl, seen⟩

end Sample
end CorePlatform.Auth
