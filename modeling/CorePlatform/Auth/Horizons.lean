import CorePlatform.Theory.Machine
import CorePlatform.Theory.Verdict
import CorePlatform.Auth.Aggregates

/-! # The horizons of a session

A session is extended, revoked, marked as expired and minted from in any order, at any times and
for any durations. Its absolute expiry is fixed, its sliding one only moves towards that, and no
token outlives either.
-/

namespace CorePlatform.Auth

open Theory

/-- What is stored of a session, its version apart. -/
def Session.fields (session : Session) : Session := { session with version := 0, pendingEvents := [] }

inductive SessionCall where
  | extend (now ttl : Int)
  | revoke (now : Int) (reason : RevocationReason) (correlationId : Uuid)
  | markExpired (now : Int)
  | mintAccessToken (now requestedTtl : Int) (permissions : List Permission)

namespace SessionCall

def renewsAt : SessionCall → Option Int
  | extend now _ | mintAccessToken now _ _ => some now
  | _ => none

def ends : SessionCall → Bool
  | revoke _ _ _ | markExpired _ => true
  | _ => false

/-- What the call makes of a session, and what it mints. -/
def answer (session : Session) : SessionCall → Except AuthError (Session × Option AccessTokenClaims)
  | extend now ttl => do return (← session.extend now ttl, none)
  | revoke now reason correlationId => do return (← session.revoke now reason correlationId, none)
  | markExpired now => do return (← session.markExpired now, none)
  | mintAccessToken now requestedTtl permissions => do
    return (session, some (← session.mintAccessToken now requestedTtl permissions))

/-- A call that fails leaves the session as it is. -/
def leaves (session : Session) (call : SessionCall) : Session :=
  match call.answer session with
  | .ok (session, _) => session
  | .error _ => session

def machine : Machine Session SessionCall where
  init session := ∃ params id, Session.issue params id = .ok session
  step session call := some (call.leaves session)

structure Advances (before after : Session) : Prop where
  absolute : after.absoluteExpiry = before.absoluteExpiry
  slides : before.expiresAt ≤ after.expiresAt
  capped : before.expiresAt ≤ before.absoluteExpiry → after.expiresAt ≤ after.absoluteExpiry
  ended : before.status ≠ .active → after.status ≠ .active
  counts : before.version ≤ after.version
  counted : before.version < after.version ↔ after.fields ≠ before.fields

theorem Advances.refl (session : Session) : Advances session session :=
  ⟨rfl, Int.le_refl _, fun capped => capped, fun he => he, Int.le_refl _, by simp⟩

variable {session : Session} {call : SessionCall}

theorem advances_extend (hex : session.extend now ttl = .ok session') : Advances session session' := by
  obtain ⟨-, ⟨moves, rfl⟩ | ⟨-, rfl⟩⟩ := Session.extend_ok hex
  · have further : session.proposed now ttl ≠ session.expiresAt := by omega
    refine ⟨rfl, Int.le_of_lt moves, fun _ => Int.min_le_right .., fun he => he, ?_, ?_⟩
    · show _ ≤ session.version + 1
      omega
    · exact iff_of_true (Int.lt_succ _) (by simp [Session.fields, further])
  · exact .refl _

theorem advances_ended (ha : session.status = .active) (ends : status ≠ .active) :
    Advances session { session with status, revokedAt, pendingEvents, version := session.version + 1 } := by
  have hf : status ≠ session.status := ha ▸ ends
  refine ⟨rfl, Int.le_refl _, fun capped => capped, fun _ => ends, ?_, ?_⟩
  · show _ ≤ session.version + 1
    omega
  · exact iff_of_true (Int.lt_succ _) (by simp [Session.fields, hf])

theorem advances_markExpired (he : session.markExpired now = .ok session') : Advances session session' := by
  unfold Session.markExpired at he
  split_ifs at he with early final
  cases he
  have active : session.status = .active := by
    revert final
    cases session.status <;> simp [SessionStatus.canTransitionTo]
  exact advances_ended active (by decide)

theorem leaves_advances (session : Session) (call : SessionCall) : Advances session (call.leaves session) := by
  unfold leaves
  cases ha : call.answer session with
  | error => exact .refl _
  | ok =>
    cases call with
    | extend =>
      obtain ⟨_, extended, done⟩ := bind_ok_iff.mp ha
      cases done
      exact advances_extend extended
    | revoke =>
      obtain ⟨_, revoked, done⟩ := bind_ok_iff.mp ha
      cases done
      obtain ⟨hac, rfl⟩ := Session.revoke_ok.mp revoked
      exact advances_ended hac (by decide)
    | markExpired =>
      obtain ⟨_, expired, done⟩ := bind_ok_iff.mp ha
      cases done
      exact advances_markExpired expired
    | mintAccessToken =>
      obtain ⟨_, _, done⟩ := bind_ok_iff.mp ha
      cases done
      exact .refl _

theorem answer_ends (he : call.ends = true) (ha : call.answer session = .ok result) :
    (call.leaves session).status ≠ .active := by
  unfold leaves
  rw [ha]
  cases call with
  | revoke =>
    obtain ⟨_, revoked, done⟩ := bind_ok_iff.mp ha
    cases done
    obtain ⟨-, rfl⟩ := Session.revoke_ok.mp revoked
    exact SessionStatus.noConfusion
  | markExpired =>
    obtain ⟨_, expired, done⟩ := bind_ok_iff.mp ha
    cases done
    unfold Session.markExpired at expired
    split_ifs at expired
    cases expired
    exact SessionStatus.noConfusion
  | _ => cases he

theorem answer_renews (ha : call.answer session = .ok result) (hr : call.renewsAt = some now) :
    session.status = .active ∧ session.isExpired now = false := by
  have mintable : session.ensureMintable now = .ok () := by
    cases call with
    | extend =>
      cases hr
      obtain ⟨_, extended, -⟩ := bind_ok_iff.mp ha
      exact (Session.extend_ok extended).1
    | mintAccessToken =>
      cases hr
      obtain ⟨_, minted, -⟩ := bind_ok_iff.mp ha
      obtain ⟨_, mintable, -⟩ := bind_ok_iff.mp minted
      exact mintable
    | _ => cases hr
  unfold Session.ensureMintable at mintable
  cases status : session.status <;> simp_all

theorem answer_mints (ha : call.answer session = .ok (session', some claims)) :
    ∃ now ttl permissions, call = .mintAccessToken now ttl permissions ∧ now < claims.expiresAt ∧
      claims.expiresAt ≤ min (now + ttl) (min session.expiresAt session.absoluteExpiry) := by
  cases call with
  | mintAccessToken now ttl permissions =>
    obtain ⟨_, minted, done⟩ := bind_ok_iff.mp ha
    cases done
    obtain ⟨_, -, minted⟩ := bind_ok_iff.mp minted
    dsimp only at minted
    split_ifs at minted with late
    cases minted
    exact ⟨now, ttl, permissions, rfl, Int.not_le.mp late, Int.le_refl _⟩
  | _ =>
    obtain ⟨_, -, done⟩ := bind_ok_iff.mp ha
    cases done

/-- After any calls on an issued session and one more, the horizons are nested, a token ends within
them, and only a session that has not expired is renewed, with no revocation or expiry that
succeeded among the calls before. -/
theorem horizons_nested (begins : machine.init first) (ran : machine.run first calls = some before)
    (call : SessionCall) :
    (call.leaves before).absoluteExpiry = first.absoluteExpiry ∧
    before.expiresAt ≤ (call.leaves before).expiresAt ∧
    (call.leaves before).expiresAt ≤ (call.leaves before).absoluteExpiry ∧
    (∀ session claims, call.answer before = .ok (session, some claims) →
      ∃ now ttl permissions, call = .mintAccessToken now ttl permissions ∧ now < claims.expiresAt ∧
        claims.expiresAt ≤ min (now + ttl) (min before.expiresAt before.absoluteExpiry)) ∧
    (∀ now result, call.renewsAt = some now → call.answer before = .ok result → before.isExpired now = false ∧
      (∀ earlier later session, calls = earlier ++ later → machine.run first earlier = some session →
        session.status = .active) ∧
      ∀ earlier ended later session, calls = earlier ++ ended :: later → machine.run first earlier = some session →
        ended.ends = true → ∃ e, ended.answer session = .error e) ∧
    before.version ≤ (call.leaves before).version ∧
    (before.version < (call.leaves before).version ↔ (call.leaves before).fields ≠ before.fields) := by
  obtain ⟨params, id, issued⟩ := begins
  have start : first.expiresAt ≤ first.absoluteExpiry := by
    unfold Session.issue at issued
    split_ifs at issued with late beyond
    cases issued
    exact Int.not_lt.mp beyond
  have keeps (s : Session) (a : SessionCall) (next : Session)
      (held : s.absoluteExpiry = first.absoluteExpiry ∧ s.expiresAt ≤ s.absoluteExpiry) (_ : True)
      (stepped : machine.step s a = some next) :
      next.absoluteExpiry = first.absoluteExpiry ∧ next.expiresAt ≤ next.absoluteExpiry := by
    cases stepped
    have advances := leaves_advances s a
    exact ⟨advances.absolute.trans held.1, advances.capped held.2⟩
  have nested := Machine.run_keeps keeps ⟨rfl, start⟩ (Machine.meets_true first) ran
  have advances := leaves_advances before call
  refine ⟨advances.absolute.trans nested.1, advances.slides, advances.capped nested.2, fun _ _ => answer_mints, ?_,
    advances.counts, advances.counted⟩
  intro now result renews answered
  obtain ⟨active, alive⟩ := answer_renews answered renews
  have stays (s : Session) (a : SessionCall) (next : Session) (ended : s.status ≠ .active) (_ : True)
      (stepped : machine.step s a = some next) : next.status ≠ .active := by
    cases stepped
    exact (leaves_advances s a).ended ended
  -- had it ended earlier, it would still be ended
  have unended (earlier later : List SessionCall) (session : Session) (split : calls = earlier ++ later)
      (reached : machine.run first earlier = some session) : session.status = .active := by
    by_contra ended
    rw [split, Machine.run_append, reached, Option.bind_some] at ran
    exact Machine.run_keeps stays ended (Machine.meets_true session) ran active
  refine ⟨alive, unended, fun earlier ended later session split reached ends => ?_⟩
  cases answer : ended.answer session with
  | error e => exact ⟨e, rfl⟩
  | ok =>
    refine absurd (unended (earlier ++ [ended]) later (ended.leaves session)
      (by simp [split]) ?_) (answer_ends ends answer)
    rw [Machine.run_append, reached]
    rfl

/-- A session that is extended twice keeps its horizons nested, and nothing is minted once it is
revoked. -/
theorem horizons_nested_twice : ∃ first before after e,
    Session.issue ⟨1, ⟨"idp", "alice"⟩, 0, ⟨none, none, none⟩, 0, 10, 25, 2⟩ 3 = .ok first ∧
    machine.run first [.extend 5 10] = some before ∧
    before.expiresAt ≤ ((SessionCall.extend 12 90).leaves before).expiresAt ∧
    ((SessionCall.extend 12 90).leaves before).expiresAt ≤ first.absoluteExpiry ∧
    machine.run first [.extend 5 10, .revoke 6 .logout 4, .extend 7 10] = some after ∧
    (SessionCall.mintAccessToken 8 5 []).answer after = .error e := by
  obtain ⟨first, issued⟩ : ∃ first, Session.issue ⟨1, ⟨"idp", "alice"⟩, 0, ⟨none, none, none⟩, 0, 10, 25, 2⟩ 3 =
      .ok first := ⟨_, rfl⟩
  obtain ⟨before, ran⟩ : ∃ before, machine.run first [.extend 5 10] = some before := ⟨_, rfl⟩
  obtain ⟨absolute, slides, capped, -⟩ := horizons_nested ⟨_, _, issued⟩ ran (.extend 12 90)
  obtain ⟨after, ranOn⟩ : ∃ after, machine.run first [.extend 5 10, .revoke 6 .logout 4, .extend 7 10] = some after :=
    ⟨_, rfl⟩
  obtain ⟨e, fails⟩ : ∃ e, (SessionCall.mintAccessToken 8 5 []).answer after = .error e := by
    cases answered : (SessionCall.mintAccessToken 8 5 []).answer after with
    | error e => exact ⟨e, rfl⟩
    | ok =>
      obtain ⟨-, -, -, -, renewed, -⟩ := horizons_nested ⟨_, _, issued⟩ ranOn (.mintAccessToken 8 5 [])
      obtain ⟨_, refused⟩ := (renewed 8 _ rfl answered).2.2 [.extend 5 10] _ _ before rfl ran rfl
      cases issued
      cases ran
      cases refused
  exact ⟨first, before, after, e, issued, ran, slides, absolute ▸ capped, ranOn, fails⟩

end SessionCall
end CorePlatform.Auth
