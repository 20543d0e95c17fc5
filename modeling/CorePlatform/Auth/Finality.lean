import CorePlatform.Auth.Revocation

/-! # Introspection after a revocation

Introspection looks at a token's expiry, the generation of its account and the blacklist, not at the
session. So a revocation is final only if the blacklist entry outlives every token of the session,
those a refresh was about to mint included, and the generation never comes back.

The entry does outlive them: a refresh that mints has saved its session after the clock reading that
the expiry counts from, when the session was not revoked yet. But a logout may return before there
is an entry. -/

namespace CorePlatform.Auth

open Theory

section

variable {formats : Formats} {policy : SessionPolicy} {start pool : State} {trace : List Label} {w : World}
  {claims : AccessTokenClaims}

def Inactive (formats : Formats) (w : World) (claims : AccessTokenClaims) : Prop :=
  (server.execute (introspect formats (edgeClaims claims) w.clock) w Server.allServed).2 = .ok .inactive

theorem inactive_of (hr : timestamp claims.expiresAt * nanosPerSecond ≤ w.clock ∨
    claims.generation ≠ w.generation claims.accountId ∨ w.isBlacklisted claims.sessionId = true) :
    Inactive formats w claims := by
  unfold Inactive introspect
  by_cases expired : timestamp claims.expiresAt * nanosPerSecond ≤ w.clock
  · simp [verifyAccess, edgeClaims, expired]
  simp only [verifyAccess, edgeClaims, expired, if_false]
  rw [Server.execute_served rfl (serve_currentGeneration w _)]
  by_cases stale : claims.generation ≠ w.generation claims.accountId
  · simp [stale]
  have blacklisted : w.isBlacklisted claims.sessionId = true := by
    rcases hr with late | other | hl
    · exact absurd late expired
    · exact absurd other stale
    · exact hl
  simp only [stale, if_false]
  rw [Server.execute_served rfl (serve_isBlacklisted w _)]
  simp [blacklisted]

theorem le_lifetime (hw : ∃ count, ttl = count * nanosPerSecond) : ttl ≤ World.lifetime ttl := by
  obtain ⟨count, rfl⟩ := hw
  have exact_ : numSeconds (count * nanosPerSecond) = count := Int.mul_tdiv_cancel count (by decide)
  rw [World.lifetime, exact_]
  exact Int.mul_le_mul_of_nonneg_right (Int.le_max_left count 1) (by decide)

theorem timestamp_le (instant : Int) : timestamp instant * nanosPerSecond ≤ instant :=
  Int.ediv_mul_le instant (by decide)

theorem Blacklisted.inactive (inv : Coherent policy.accessTtl w)
    (hw : ∃ count, policy.accessTtl = count * nanosPerSecond) (hb : Blacklisted sid w)
    (hm : claims ∈ w.minted) (mine : claims.sessionId = sid) : Inactive formats w claims := by
  obtain ⟨until_, entry⟩ := Option.ne_none_iff_exists'.mp hb
  by_cases expired : timestamp claims.expiresAt * nanosPerSecond ≤ w.clock
  · exact inactive_of (.inl expired)
  have alive : w.clock < until_ := by
    have outlives := (inv.blacklisted sid until_ entry).2 claims hm mine
    have short := (inv.minted claims hm).2.1
    have floor := timestamp_le claims.expiresAt
    have covers := le_lifetime hw
    omega
  refine inactive_of (.inr (.inr ?_))
  simp [World.isBlacklisted, mine, entry, alive]

theorem inactive_of_bumped (inv : Coherent policy.accessTtl w)
    (ho : w.opened sid = some (accId, gen)) (hb : gen < w.generation accId)
    (hm : claims ∈ w.minted) (mine : claims.sessionId = sid) : Inactive formats w claims := by
  obtain ⟨account, eq⟩ := (inv.opened sid accId gen ho).2.2.2 claims hm mine
  refine inactive_of (.inr (.inl ?_))
  rw [account, eq]
  exact Int.ne_of_lt hb

theorem bump_generation (hp : svc.reaches = true) :
    World.generation (server.perform w (.bumpGeneration accountId) svc).1 accountId = w.generation accountId + 1 := by
  cases svc with
  | served | replyLost => simp [Server.perform, World.generation]
  | refused => cases hp

theorem revocation_final (whole : ∃ count, policy.accessTtl = count * nanosPerSecond)
    (begins : (host formats policy).machine.init start)
    (ran : (host formats policy).machine.run start trace = some pool) :
    ((host formats policy).machine.Meets (Awaits Blacklisted) start trace →
      ∀ id cmd correlationId outcome heard sessionId,
        pool.calls id = some ⟨.logout cmd correlationId, .ok outcome, heard⟩ →
        formats.sessionId cmd.sessionId = .ok sessionId →
        ∀ claims ∈ pool.world.minted, claims.sessionId = sessionId → Inactive formats pool.world claims) ∧
    ∀ earlier before id service later request accountId rest heard sessionId generation,
      trace = earlier ++ .advance id service :: later →
      (host formats policy).machine.run start earlier = some before →
      before.calls id = some ⟨request, .call (.bumpGeneration accountId) rest, heard⟩ →
      service.reaches = true →
      before.world.opened sessionId = some (accountId, generation) →
      ∀ claims ∈ pool.world.minted, claims.sessionId = sessionId → Inactive formats pool.world claims := by
  constructor
  · intro awaits id cmd correlationId outcome heard sessionId returned named claims minted mine
    have kept := run_awaits (fun id => lasting_blacklisted id) begins awaits ran
    rcases kept.returned returned sessionId named with ⟨_, blacklisted⟩ | blacklisted
    · exact blacklisted.inactive kept.inv whole minted mine
    · exact Blacklisted.inactive kept.inv whole blacklisted minted mine
  · rintro earlier before id service later request accountId rest heard sessionId generation rfl ran' waiting
      performed opened claims minted mine
    rw [Machine.run_append, ran', Option.bind_some] at ran
    obtain ⟨after, stepped, ran⟩ := Machine.run_cons_iff _ |>.mp ran
    have kept := run_kept begins ran'
    change (host formats policy).step before (.advance id service) = some after at stepped
    have first := (Later.mk kept (.refl _ _)).step (Host.step_steps stepped)
    have later := run_later first.kept ran
    have old := (kept.inv.opened sessionId accountId generation opened).2.1
    have grown : before.world.generation accountId + 1 = after.world.generation accountId := by
      simp only [Host.step, waiting] at stepped
      cases stepped
      exact (bump_generation performed).symm
    have grows := later.evolves.generation accountId
    refine inactive_of_bumped later.kept.inv
      (later.evolves.opened sessionId _ (first.evolves.opened sessionId _ opened)) ?_ minted mine
    exact Int.lt_of_lt_of_le (grown ▸ Int.lt_add_one_of_le old) grows

end

namespace Sample

def loggedOut : List Label := loggedIn ++ [.elapse (.tick 1000), .begin 1 logout] ++ advances 1 5

def bumping : List Label := loggedIn ++ [.elapse (.tick 1000), .begin 1 logoutAllSessions]

def bumped (call : Call Request Op Op.Reply AuthError Outcome) : Option AccountId :=
  match call.program with
  | .call (.bumpGeneration accountId) _ => some accountId
  | _ => none

theorem waiting_of_bumped (hw : bumped call = some accountId) :
    ∃ rest, call = ⟨call.request, .call (.bumpGeneration accountId) rest, call.heard⟩ := by
  obtain ⟨_, _, _⟩ := call
  unfold bumped at hw
  split at hw
  · rename_i rest here
    cases hw
    exact ⟨rest, by simpa using here⟩
  · cases hw

theorem revocation_final_both :
    (∃ pool, (host formats policy).machine.run start loggedOut = some pool ∧
      ∃ claims ∈ pool.world.minted, claims.sessionId = session ∧ Inactive formats pool.world claims) ∧
    ∃ pool, (host formats policy).machine.run start (bumping ++ [.advance 1 .served]) = some pool ∧
      ∃ claims ∈ pool.world.minted, claims.sessionId = session ∧ Inactive formats pool.world claims := by
  constructor
  · obtain ⟨pool, ran, done, claims, member, mine⟩ : ∃ pool, (host formats policy).machine.run start loggedOut =
        some pool ∧ answered pool 1 = some (logout, true) ∧
        ∃ claims ∈ pool.world.minted, claims.sessionId = session := by decide +kernel
    obtain ⟨outcome, heard, returned⟩ := returned_of_answered done
    refine ⟨pool, ran, claims, member, mine, ?_⟩
    refine (revocation_final ⟨600, rfl⟩ start_begins ran).1 ?_ 1 _ _ outcome heard session returned rfl claims member
      mine
    decide +kernel
  · obtain ⟨before, ran', opened, call, held, waits⟩ : ∃ before, (host formats policy).machine.run start bumping =
        some before ∧ before.world.opened session = some (account, 0) ∧
        ∃ call, before.calls 1 = some call ∧ bumped call = some account := by decide +kernel
    obtain ⟨pool, ran, claims, member, mine⟩ : ∃ pool,
        (host formats policy).machine.run start (bumping ++ [.advance 1 .served]) = some pool ∧
        ∃ claims ∈ pool.world.minted, claims.sessionId = session := by decide +kernel
    obtain ⟨rest, same⟩ := waiting_of_bumped waits
    exact ⟨pool, ran, claims, member, mine, (revocation_final ⟨600, rfl⟩ start_begins ran).2 bumping before 1 .served []
      call.request account rest call.heard session 0 rfl ran' (same ▸ held) rfl opened claims member mine⟩

/-- A logout that finds the session revoked by another one, which has not blacklisted it yet. -/
def hasty : List Label :=
  loggedIn ++ [.begin 1 logout] ++ advances 1 2 ++ [.begin 2 logout] ++ advances 2 1

def active (w : World) (claims : AccessTokenClaims) : Bool :=
  match (server.execute (introspect formats (edgeClaims claims) w.clock) w Server.allServed).2 with
  | .ok view => view.active
  | .error _ => false

theorem revocation_hasty : ∃ pool outcome heard,
    (host formats policy).machine.init start ∧ (host formats policy).machine.run start hasty = some pool ∧
      pool.calls 2 = some ⟨logout, .ok outcome, heard⟩ ∧
      ∃ claims ∈ pool.world.minted, claims.sessionId = session ∧ ¬ Inactive formats pool.world claims := by
  obtain ⟨pool, ran, done, claims, member, mine, live⟩ : ∃ pool, (host formats policy).machine.run start hasty =
      some pool ∧ answered pool 2 = some (logout, true) ∧
      ∃ claims ∈ pool.world.minted, claims.sessionId = session ∧ active pool.world claims = true := by decide +kernel
  obtain ⟨outcome, heard, returned⟩ := returned_of_answered done
  refine ⟨pool, outcome, heard, start_begins, ran, returned, claims, member, mine, fun inactive => ?_⟩
  unfold active at live
  rw [inactive] at live
  cases live

end Sample
end CorePlatform.Auth
