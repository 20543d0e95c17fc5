import CorePlatform.Resilience.CircuitBreaker

/-! # What an open circuit keeps out

A call that finds the circuit open is turned away. A call that read the state before it opened is
not asked again: one that read it closed goes on to the inner service, and one that read it
half-open reserves a slot, which the opening has just set free. So the circuit keeps everything out
for its open duration in the runs in which nobody stands between the gate and the inner service when
it opens. -/

namespace CorePlatform.Resilience

open Theory

section

variable {α ε : Type} (config : CircuitBreakerConfig)

/-- No start of the inner service falls into the open duration that follows an opening. -/
def Breaker.Sheds (b : Breaker α ε) : Prop :=
  ∀ opening ∈ b.openings, ∀ start ∈ b.starts, ¬ (opening < start ∧ start < opening + config.openDuration)
  deriving Decidable

/-- When the circuit opens, no call stands between the gate and the inner service. -/
def Breaker.OpensAlone (b : Breaker α ε) : Label α ε → Prop
  | .advance i => ∀ call ∈ b.calls[i]?, trips config b.inner call = true → ∀ other ∈ b.calls, other.phase.bound = false
  | _ => True

instance (b : Breaker α ε) : ∀ label, Decidable (b.OpensAlone config label)
  | .advance i => inferInstanceAs (Decidable (∀ call ∈ b.calls[i]?, _ → ∀ other ∈ b.calls, _ = false))
  | .arrive | .finish _ _ | .drop _ | .elapse _ => .isTrue trivial

namespace Breaker

/-- All openings lie back by the open duration. -/
def Cooled (b : Breaker α ε) : Prop := ∀ opening ∈ b.openings, opening + config.openDuration ≤ b.now

structure Shedding (b : Breaker α ε) : Prop where
  past : ∀ start ∈ b.starts, start ≤ b.now
  standing : b.inner.state = .opened →
    ∃ since, b.inner.openSince = some since ∧ since ≤ b.now ∧ ∀ opening ∈ b.openings, opening ≤ since
  cooled : b.inner.state ≠ .opened → b.Cooled config
  bound : ∀ call ∈ b.calls, call.phase.bound = true → b.Cooled config
  sheds : b.Sheds config

variable {config} {b : Breaker α ε}

section

variable (holds : b.Shedding config)

include holds

theorem Shedding.gate (he : (StateMachine.state config b.inner b.now).2 ≠ .opened) : b.Cooled config := by
  rcases StateMachine.state_cases config b.inner b.now with eq | ⟨ho, ⟨since, sinceIs, long⟩, -⟩
  · rw [eq] at he
    exact holds.cooled he
  obtain ⟨_, sinceIs', _, latest⟩ := holds.standing ho
  cases sinceIs.symm.trans sinceIs'
  intro opening mem
  have := latest opening mem
  omega

theorem Shedding.put (call : Call α ε) (free : call.phase.bound = true → b.Cooled config) :
    (b.put i call).Shedding config := by
  refine { holds with bound := ?_ }
  intro other mem bound
  rcases mem_put mem with old | rfl
  · exact holds.bound other old bound
  · exact free bound

theorem Shedding.arrived : Shedding config { b with calls := b.calls ++ [⟨.gating, 0⟩] } := by
  refine { holds with bound := ?_ }
  intro call mem bound
  rcases List.mem_append.mp mem with old | new
  · exact holds.bound call old bound
  · cases List.mem_singleton.mp new
    cases bound

theorem Shedding.gated (i took : Nat) :
    Shedding config { (b.put i ⟨.gate (StateMachine.state config b.inner b.now).2, took⟩) with
      inner := (StateMachine.state config b.inner b.now).1 } := by
  have hm : (b.put i ⟨.gate (StateMachine.state config b.inner b.now).2, took⟩).Shedding config := by
    apply holds.put _
    intro bound
    apply holds.gate
    intro ho
    rw [ho] at bound
    cases bound
  have entered := holds.gate
  rcases StateMachine.state_cases config b.inner b.now with eq | ⟨_, _, turned⟩
  · rw [eq] at hm ⊢
    exact hm
  · rw [turned] at hm entered ⊢
    exact { hm with
      standing := fun ho => nomatch ho
      cooled := fun _ => entered nofun }

theorem Shedding.started (h : b.calls[i]? = some ⟨.starting wasHalfOpen, took⟩) :
    Shedding config { (b.put i ⟨.running wasHalfOpen, took⟩) with starts := b.now :: b.starts } := by
  have cooled : b.Cooled config := holds.bound _ (List.mem_of_getElem? h) rfl
  refine { holds.put (i := i) ⟨.running wasHalfOpen, took⟩ nofun with past := ?_, sheds := ?_ }
  · intro start mem
    rcases List.mem_cons.mp mem with rfl | old
    · exact Nat.le_refl _
    · exact holds.past start old
  intro opening ho start mem
  rcases List.mem_cons.mp mem with rfl | old
  · have := cooled opening ho
    omega
  · exact holds.sheds opening ho start old

theorem Shedding.elapsed (duration : Nat) : Shedding config { b with now := b.now + duration } where
  past start member := Nat.le_add_right_of_le (holds.past start member)
  standing opened := by
    obtain ⟨since, sinceIs, started, latest⟩ := holds.standing opened
    exact ⟨since, sinceIs, Nat.le_add_right_of_le started, latest⟩
  cooled closed opening member := Nat.le_add_right_of_le (holds.cooled closed opening member)
  bound call member bound opening opened := Nat.le_add_right_of_le (holds.bound call member bound opening opened)
  sheds := holds.sheds

theorem Shedding.recorded (h : b.calls[i]? = some ⟨.recording wasHalfOpen res, took⟩)
    (ha : b.OpensAlone config (.advance i)) :
    (b.record config i ⟨.recording wasHalfOpen res, took⟩ wasHalfOpen res).Shedding config := by
  have hm : (b.put i ⟨if wasHalfOpen then .releasing res else .finished res, took⟩).Shedding config := by
    apply holds.put _
    cases wasHalfOpen <;> nofun
  unfold record
  cases outcome_turns config b wasHalfOpen res took with
  | stays state since =>
    have eq : ¬ ((b.outcome config res).state = .opened ∧ b.inner.state ≠ .opened) := by
      rw [state]
      exact fun both => both.2 both.1
    simp only [if_neg eq]
    exact { hm with
      standing := fun ho => by rw [since]; exact hm.standing (state ▸ ho)
      cooled := fun closed => hm.cooled (state ▸ closed) }
  | closes was state =>
    have cooled : b.Cooled config := holds.cooled (by simp [was])
    simp only [state, reduceCtorEq, false_and, if_false]
    exact { hm with
      standing := fun ho => by simp [state] at ho
      cooled := fun _ => cooled }
  | opens was state since _ tripped =>
    simp only [state, was, true_and, not_false_eq_true, ne_eq, if_true]
    have nobody := ha _ h tripped
    constructor
    · exact hm.past
    · intro _
      refine ⟨b.now, since, Nat.le_refl _, ?_⟩
      intro opening mem
      rcases List.mem_cons.mp mem with rfl | old
      · exact Nat.le_refl _
      · have := holds.cooled was opening old
        omega
    · intro closed
      exact absurd state closed
    · intro call mem bound
      rcases mem_put mem with old | rfl
      · rw [nobody call old] at bound
        cases bound
      · cases wasHalfOpen <;> cases bound
    · intro opening mem start started
      rcases List.mem_cons.mp mem with rfl | old
      · have := holds.past start started
        omega
      · exact holds.sheds opening old start started

theorem Shedding.step (ha : b.OpensAlone config label) (hs : Steps config b label next) : next.Shedding config := by
  cases hs with
  | arrived => exact holds.arrived
  | gated => exact holds.gated _ _
  | acquired h =>
    have cooled : b.Cooled config := holds.bound _ (List.mem_of_getElem? h) rfl
    exact { holds.put _ (fun _ => cooled) with }
  | shed | finished | dropped => exact holds.put _ nofun
  | started h => exact holds.started h
  | recorded h => exact holds.recorded h ha
  | released => exact { holds.put _ (fun bound => by cases bound) with }
  | elapsed duration => exact holds.elapsed duration

end

theorem Shedding.start (now : Nat) : (start now : Breaker α ε).Shedding config where
  past := nofun
  standing := nofun
  cooled := nofun
  bound := nofun
  sheds := nofun

end Breaker

/-- If nobody stands between the gate and the inner service when the circuit opens, no call starts
the inner service within the open duration. -/
theorem open_circuit_sheds {trace : List (Label α ε)} {now : Nat} {b : Breaker α ε}
    (alone : (Breaker.machine config).Meets (Breaker.OpensAlone config) (.start now) trace)
    (ran : (Breaker.machine config).run (.start now) trace = some b) : b.Sheds config := by
  have holds : b.Shedding config := by
    apply Machine.run_keeps (m := Breaker.machine config) _ (.start now) alone ran
    intro b label next holds alone stepped
    exact holds.step alone (Breaker.step_steps stepped)
  exact holds.sheds

end

namespace Sample

theorem recovering_sheds :
    ∃ b, (Breaker.machine config).run (.start 0) recovering = some b ∧
      (b.openings, b.starts, b.inner.state) = ([0], [10, 0], .closed) ∧ b.Sheds config := by
  obtain ⟨b, ran, seen⟩ : ∃ b, (Breaker.machine config).run (.start 0) recovering = some b ∧
      (b.openings, b.starts, b.inner.state) = ([0], [10, 0], .closed) := by decide +kernel
  exact ⟨b, ran, seen, open_circuit_sheds config (by decide +kernel) ran⟩

/-- The probe at 10 fails while another call has read the half-open circuit and waits for a slot. -/
def lateProbe : Run :=
  failing 0 ++ [.elapse 10, .arrive, .advance 1, .advance 1, .advance 1, .arrive, .advance 2, .finish 1 (.error ()),
    .advance 1, .elapse 1, .advance 2, .advance 2]

/-- The circuit opens at 10 and the other call starts the inner service at 11. -/
theorem open_circuit_admits : ∃ b, (Breaker.machine config).run (.start 0) lateProbe = some b ∧ ¬ b.Sheds config := by
  decide +kernel

end Sample
end CorePlatform.Resilience
