import CorePlatform.Auth.Interleaved

/-! # A refresh token is exchanged once

A refresh that returns has moved the row of the presented token to a version nobody overwrites, and
linked it to the successor it drew. Two refreshes draw different identifiers, so they cannot both
have moved the same row, however their calls were interleaved, failed or stopped halfway. The
successor comes after the link, so a session never has two active tokens. -/

namespace CorePlatform.Auth

open Theory

section

variable {formats : Formats} {policy : SessionPolicy}

def Refreshed (pool : State) (id : Nat) (cmd : RefreshCommand) : Prop :=
  ∃ correlationId successorId secret outcome heard,
    pool.calls id = some ⟨.refresh cmd correlationId successorId secret, .ok outcome, heard⟩

theorem active_tip (inv : Coherent ttl w) (mem : row ∈ w.tokens.rows) (ha : row.status = .active) :
    Tip w.tokens row :=
  .inl (inv.of_active mem ha).1

theorem rotation_single_use {start pool : State}
    {trace : List Label} (begins : (host formats policy).machine.init start)
    (ran : (host formats policy).machine.run start trace = some pool) :
    (∀ i j first second, i ≠ j → Refreshed pool i first → Refreshed pool j second →
      first.refreshToken ≠ second.refreshToken) ∧
    ∀ a ∈ pool.world.tokens.rows, ∀ b ∈ pool.world.tokens.rows, a.sessionId = b.sessionId →
      a.status = .active → b.status = .active → a = b := by
  have kept := run_kept begins ran
  constructor
  · rintro i j first second differ ⟨_, mine, _, _, _, returned⟩ ⟨_, theirs, _, _, _, returned'⟩ same
    obtain ⟨row, member, hash, link⟩ := kept.returned returned
    obtain ⟨row', member', hash', link'⟩ := kept.returned returned'
    have equal : row = row' := by
      refine List.inj_on_of_nodup_map pool.world.tokens.hashes member member' ?_
      rw [hash, hash', same]
    rw [equal, link', Option.some.injEq] at link
    refine kept.apart differ returned returned' mine (List.mem_singleton_self _) ?_
    exact List.mem_singleton.mpr link.symm
  · intro a memberA b memberB same activeA activeB
    exact kept.inv.tips a memberA b memberB same (active_tip kept.inv memberA activeA)
      (active_tip kept.inv memberB activeB)

/-- Between any two moments no row is lost: a rotated token stays rotated, with its successor; a
session changes only with its version and is never active again; and generations do not go back. -/
theorem rows_only_advance {start before pool : State} (begins : (host formats policy).machine.init start)
    (ran : (host formats policy).machine.run start trace = some before)
    (ran' : (host formats policy).machine.run before rest = some pool) :
    (∀ row ∈ before.world.tokens.rows, ∃ row' ∈ pool.world.tokens.rows,
      TokenStep row row' ∧ (row.status = .rotated → row'.status = .rotated ∧ row'.replacedBy = row.replacedBy)) ∧
    (∀ row ∈ before.world.sessions.rows, ∃ row' ∈ pool.world.sessions.rows, SessionStep row row') ∧
    ∀ accountId, before.world.generation accountId ≤ pool.world.generation accountId := by
  have kept := run_kept begins ran
  have later := run_later kept ran'
  refine ⟨?_, later.evolves.sessions, later.evolves.generation⟩
  intro row member
  obtain ⟨row', member', step⟩ := later.evolves.tokens row member
  -- A row with version 1 is a rotated one, before and after.
  have shape := kept.inv.shape row member
  have shape' := later.kept.inv.shape row' member'
  exact ⟨row', member', step, by grind [Shape, step.rotated]⟩

end

namespace Sample

/-- Two refreshes that read the same token before either of them writes it. -/
def racing : List Label :=
  loggedIn ++ [.elapse (.tick 1), .begin 1 refresh, .begin 2 otherRefresh] ++ advances 1 4 ++ advances 2 4 ++
    advances 1 4 ++ advances 2 1

theorem rotation_single_use_racing : ∃ pool, (host formats policy).machine.run start racing = some pool ∧
    Refreshed pool 1 ⟨secret, device⟩ ∧ ¬ Refreshed pool 2 ⟨secret, device⟩ := by
  obtain ⟨pool, ran, seen⟩ : ∃ pool, (host formats policy).machine.run start racing = some pool ∧
      answered pool 1 = some (refresh, true) := by decide +kernel
  obtain ⟨outcome, heard, returned⟩ := returned_of_answered seen
  have first : Refreshed pool 1 ⟨secret, device⟩ := ⟨_, _, _, outcome, heard, returned⟩
  refine ⟨pool, ran, first, fun second => ?_⟩
  exact (rotation_single_use start_begins ran).1 1 2 _ _ (by decide) first second rfl

theorem rows_only_advance_rotated : ∃ before, (host formats policy).machine.run start
      (loggedIn ++ .elapse (.tick 1) :: .begin 1 refresh :: advances 1 5) = some before ∧
    ∃ pool, (host formats policy).machine.run before (advances 1 3) = some pool ∧
      ∃ row ∈ pool.world.tokens.rows, row.status = .rotated := by
  obtain ⟨before, ran, ⟨row, member, rotated⟩, pool, ran', -⟩ : ∃ before, (host formats policy).machine.run start
      (loggedIn ++ .elapse (.tick 1) :: .begin 1 refresh :: advances 1 5) = some before ∧
      (∃ row ∈ before.world.tokens.rows, row.status = .rotated) ∧
      ∃ pool, (host formats policy).machine.run before (advances 1 3) = some pool ∧ True := by decide +kernel
  obtain ⟨row', member', -, stays⟩ := (rows_only_advance start_begins ran ran').1 row member
  exact ⟨before, ran, pool, ran', row', member', (stays rotated).1⟩

end Sample
end CorePlatform.Auth
