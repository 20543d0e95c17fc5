import CorePlatform.Resilience.CircuitBreaker
import Mathlib.Data.Nat.Find

/-! # Retrying a call

Whether the attempts are used up is asked before the policy's verdict is reported: an error
on the attempt after the last retry ends in exhaustion, also where the policy declines it.
The attempts are counted in 32 bits, so that `u32::MAX` retries are never used up.
-/

namespace CorePlatform.Resilience

structure RetryService (α ε : Type) where
  /-- What the attempts of the call end in, one after the other, readiness included. -/
  inner : Nat → Except ε α
  maxAttempts : UInt32
  shouldRetry : ε → UInt32 → Bool

namespace RetryService

variable {α ε : Type} (service : RetryService α ε)

/-- What an attempt makes of the call: its result, or another attempt. -/
def conclude (attempt : UInt32) : Except ε α → Option (Except (ResilienceError ε) α)
  | .ok response => some (.ok response)
  | .error e =>
    let retryable := attempt ≤ service.maxAttempts && service.shouldRetry e attempt
    if !retryable then
      some (.error (if attempt > service.maxAttempts then .maxRetriesExhausted service.maxAttempts else .inner e))
    else none

/-- The loop of `RetryService::call`, with the number of attempts; `none` when `fuel` of them do not
end it. -/
def call (fuel made : Nat) (attempt : UInt32) : Option (Nat × Except (ResilienceError ε) α) :=
  match fuel with
  | 0 => none
  | fuel + 1 =>
    let attempt := attempt + 1
    match service.conclude attempt (service.inner made) with
    | some result => some (made + 1, result)
    | none => call fuel (made + 1) attempt

/-- The attempt after `n` others fails with an error that the policy accepts. -/
def Transient (n : Nat) : Prop := ∃ e, service.inner n = .error e ∧ service.shouldRetry e (.ofNat n + 1) = true

/-- The attempt after `n` others has to be the last: the first that succeeds, has an error the
policy declines, or follows all retries. -/
def Last (n : Nat) : Prop :=
  (∀ i < n, service.Transient i) ∧ n ≤ service.maxAttempts.toNat ∧
    (n = service.maxAttempts.toNat ∨ ¬ service.Transient n)

/-- What the call has to return when that attempt is its last. -/
def cause (n : Nat) : Except (ResilienceError ε) α :=
  (service.inner n).mapError fun e =>
    if service.shouldRetry e (.ofNat n + 1) then .maxRetriesExhausted service.maxAttempts else .inner e

def TrueCause : Prop := ∃ n, service.Last n ∧ service.call (n + 1) 0 0 = some (n + 1, service.cause n)

theorem exists_last : ∃ n, service.Last n := by
  classical
  have ends : ∃ n, n = service.maxAttempts.toNat ∨ ¬ service.Transient n := ⟨_, .inl rfl⟩
  refine ⟨Nat.find ends, ?_, Nat.find_min' ends (.inl rfl), Nat.find_spec ends⟩
  intro i less
  by_contra declined
  exact Nat.find_min ends less (.inr declined)

theorem number_le {maxAttempts : UInt32} (he : n < maxAttempts.toNat) : .ofNat n + 1 ≤ maxAttempts := by
  have := maxAttempts.toNat_lt
  simp [UInt32.le_iff_toNat_le]
  omega

theorem succ_le_iff (maxAttempts : UInt32) : maxAttempts + 1 ≤ maxAttempts ↔ maxAttempts + 1 = 0 := by grind

variable {service}

theorem call_transient (ht : ∀ i < n, service.Transient i) (hw : n ≤ service.maxAttempts.toNat)
    (fuel : Nat) : service.call (fuel + n) 0 0 = service.call fuel n (.ofNat n) := by
  induction n generalizing fuel with
  | zero => rfl
  | succ n ih =>
    obtain ⟨e, hf, ha⟩ := ht n (by omega)
    rw [← Nat.add_assoc, Nat.add_right_comm, ih (fun i less => ht i (by omega)) (by omega)]
    simp [call, conclude, hf, ha, number_le hw]

theorem conclude_last (last : service.Last n) :
    service.conclude (.ofNat n + 1) (service.inner n) = some (service.cause n) ↔
      (n = service.maxAttempts.toNat → ∀ e, service.inner n = .error e →
        (service.shouldRetry e (.ofNat n + 1) = true ↔ service.maxAttempts + 1 ≠ 0)) := by
  obtain ⟨-, within, ends⟩ := last
  cases out : service.inner n with
  | ok => simp [conclude, cause, out, Except.mapError]
  | error e =>
    simp only [conclude, cause, out, Except.mapError]
    rcases Nat.lt_or_eq_of_le within with early | rfl
    · have declined : service.shouldRetry e (.ofNat n + 1) = false := by
        by_contra accepted
        exact ends.resolve_left (Nat.ne_of_lt early) ⟨e, out, by simpa using accepted⟩
      simp [declined, number_le early, Nat.ne_of_lt early]
    · by_cases wraps : service.maxAttempts + 1 = 0 <;>
        cases judged : service.shouldRetry e (service.maxAttempts + 1) <;> simp [succ_le_iff, wraps, judged]

/-- The call reports the true cause unless the policy declines an error after all retries. -/
theorem true_cause_iff :
    service.TrueCause ↔
      ((∀ i < service.maxAttempts.toNat, service.Transient i) →
        ∀ e, service.inner service.maxAttempts.toNat = .error e →
          (service.shouldRetry e (service.maxAttempts + 1) = true ↔ service.maxAttempts + 1 ≠ 0)) := by
  have he : ∀ {n}, service.Last n → (service.call (n + 1) 0 0 = some (n + 1, service.cause n) ↔
      service.conclude (.ofNat n + 1) (service.inner n) = some (service.cause n)) := by
    intro n last
    rw [Nat.add_comm n, call_transient last.1 last.2.1, call]
    cases service.conclude (.ofNat n + 1) (service.inner n) <;> simp [call, Nat.add_comm]
  constructor
  · intro ⟨n, last, called⟩ transient e hf
    have used : n = service.maxAttempts.toNat := by
      by_contra early
      exact last.2.2.resolve_left early (transient n (Nat.lt_of_le_of_ne last.2.1 early))
    subst used
    simpa using (conclude_last last).mp ((he last).mp called) rfl e hf
  · intro judged
    obtain ⟨n, last⟩ := service.exists_last
    refine ⟨n, last, (he last).mpr ((conclude_last last).mpr ?_)⟩
    rintro rfl e hf
    simpa using judged last.1 e hf

end RetryService

/-- With one retry, a transient error and then one the policy declines are reported as exhaustion. -/
theorem declined_error_hidden :
    ¬ (⟨fun n => .error (n == 0), 1, fun transient _ => transient⟩ : RetryService Unit Bool).TrueCause := by
  rintro ⟨n, ⟨-, within, ends⟩, called⟩
  obtain rfl | rfl : n = 0 ∨ n = 1 := Nat.le_one_iff_eq_zero_or_eq_one.mp within
  · exact ends.elim (by decide) fun declined => declined ⟨true, rfl, rfl⟩
  · simp [RetryService.call, RetryService.conclude, RetryService.cause, Except.mapError] at called

end CorePlatform.Resilience
