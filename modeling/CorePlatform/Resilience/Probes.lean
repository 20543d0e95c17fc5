import CorePlatform.Resilience.CircuitBreaker

/-! # Probe slots and what is left of them

The slot count of the half-open circuit is one number. A probe whose future is dropped never gives
its slot back, and a change of state sets the count to zero while probes may be running. So the
count is the number of probes only in the runs in which no probe with a counted slot is dropped, and
no slot is given out while a probe from before the last change of state is on its way. -/

namespace CorePlatform.Resilience

open Theory

namespace Breaker

section

variable {α ε : Type} (config : CircuitBreakerConfig) (b : Breaker α ε)

/-- A probe: a call with a slot, from its admission until it returns or is dropped. -/
def probing (call : Call α ε) : Bool := call.phase.holdsSlot

def runningProbes : Nat := b.calls.countP fun call => call.phase.runsProbe

/-- The slot count still includes the call's slot. -/
def counted (call : Call α ε) : Bool := probing call && decide (call.took = b.resets)

/-- The slot count was set back since the call took its slot. -/
def forgotten (call : Call α ε) : Bool := probing call && !decide (call.took = b.resets)

/-- The next call, if nobody comes in between: it arrives, reads the state and asks for a slot. -/
def nextCall : List (Label α ε) := [.arrive, .advance b.calls.length, .advance b.calls.length]

/-- The next call is let through as a probe. -/
def admitsNext : Bool :=
  match (machine config).run b b.nextCall with
  | some next =>
    match next.calls[b.calls.length]? with
    | some ⟨.starting true, _⟩ => true
    | _ => false
  | none => false

/-- The probes in the inner service are within the limit, and a half-open circuit without any lets
the next call through. -/
structure ProbesAccounted : Prop where
  limited : b.runningProbes ≤ config.halfOpenMaxCalls.toNat
  recovers : (StateMachine.state config b.inner b.now).2 = .halfOpen → (∀ call ∈ b.calls, probing call = false) →
    b.admitsNext config = true

/-- No probe with a counted slot is dropped, and nobody asks for a slot while a probe with a
forgotten one is on its way. -/
def KeepsCount : Label α ε → Prop
  | .advance i =>
    (∃ call ∈ b.calls[i]?, call.phase.asks = true) → ∀ other ∈ b.calls, b.forgotten other = false
  | .drop i => ∀ call ∈ b.calls[i]?, b.counted call = false
  | _ => True

instance (label : Label α ε) : Decidable (b.KeepsCount label) := by
  unfold KeepsCount
  split <;> infer_instance

structure Slots : Prop where
  tally : b.inner.halfOpenInflight.toNat = b.calls.countP b.counted
  older : ∀ call ∈ b.calls, call.took ≤ b.resets
  apart : 0 < b.calls.countP b.counted → ∀ call ∈ b.calls, b.forgotten call = false
  limit : b.calls.countP probing ≤ config.halfOpenMaxCalls.toNat

variable {config b}

theorem countP_put (h : b.calls[i]? = some old) (new : Call α ε) (p : Call α ε → Bool) :
    (b.put i new).calls.countP p + (p old).toNat = b.calls.countP p + (p new).toNat := by
  obtain ⟨hi, eq⟩ := List.getElem?_eq_some_iff.mp h
  have flag (x : Bool) : x.toNat = if x then 1 else 0 := by cases x <;> rfl
  have present : (if p old then 1 else 0) ≤ b.calls.countP p := by
    rw [← eq]
    exact List.boole_getElem_le_countP hi
  have hc := List.countP_set (p := p) (a := new) hi
  rw [eq] at hc
  show (b.calls.set i new).countP p + _ = _
  rw [flag, flag]
  omega

theorem probing_of_counted (holds : b.counted call = true) : probing call = true := by
  simp only [counted, Bool.and_eq_true] at holds
  exact holds.1

theorem countP_probing (hn : ∀ call ∈ b.calls, b.forgotten call = false) :
    b.calls.countP probing = b.calls.countP b.counted := by
  apply List.countP_congr
  intro call mem
  have kept := hn call mem
  cases slot : probing call with
  | false => simp [counted, slot]
  | true => simpa [forgotten, counted, slot] using kept

section

variable (holds : b.Slots config)

include holds

theorem Slots.put (h : b.calls[i]? = some old) (new : Call α ε) (took : new.took = old.took)
    (hc : b.counted new = b.counted old) (hf : b.forgotten old = false → b.forgotten new = false)
    (hfe : (probing new).toNat ≤ (probing old).toNat) : (b.put i new).Slots config := by
  have mem := List.mem_of_getElem? h
  have eq : (b.put i new).calls.countP b.counted = b.calls.countP b.counted := by
    have := countP_put h new b.counted
    rw [hc] at this
    omega
  constructor
  · exact holds.tally.trans eq.symm
  · intro call hi
    rcases mem_put hi with old' | rfl
    · exact holds.older call old'
    · rw [took]
      exact holds.older old mem
  · intro some_ call hi
    have none_ := holds.apart (eq ▸ some_)
    rcases mem_put hi with old' | rfl
    · exact none_ call old'
    · exact hf (none_ old mem)
  · have := countP_put h new probing
    have := holds.limit
    omega

theorem Slots.moved (h : b.calls[i]? = some old) (new : Call α ε) (slot : probing new = probing old)
    (took : new.took = old.took) : (b.put i new).Slots config := by
  refine holds.put h new took ?_ ?_ (by simp [slot])
  · simp only [counted, slot, took]
  · simp only [forgotten, slot, took, imp_self]

theorem Slots.ended {i : Nat} (h : b.calls[i]? = some old) (new : Call α ε) (hu : b.counted old = false)
    (ends : probing new = false) (took : new.took = old.took) : (b.put i new).Slots config := by
  refine holds.put h new took ?_ (fun _ => ?_) (by simp [ends])
  · rw [hu, counted, ends, Bool.false_and]
  · rw [forgotten, ends, Bool.false_and]

theorem Slots.arrived : Slots config { b with calls := b.calls ++ [⟨.gating, 0⟩] } := by
  have plain (p : Call α ε → Bool) (out : p ⟨.gating, 0⟩ = false) :
      (b.calls ++ [(⟨.gating, 0⟩ : Call α ε)]).countP p = b.calls.countP p := by
    simp [List.countP_append, out]
  constructor
  · exact holds.tally.trans (plain b.counted rfl).symm
  · intro call mem
    rcases List.mem_append.mp mem with old | new
    · exact holds.older call old
    · cases List.mem_singleton.mp new
      exact Nat.zero_le _
  · intro some_ call mem
    rcases List.mem_append.mp mem with old | new
    · exact holds.apart ((plain b.counted rfl) ▸ some_) call old
    · cases List.mem_singleton.mp new
      rfl
  · rw [plain probing rfl]
    exact holds.limit

theorem Slots.acquired (h : b.calls[i]? = some ⟨.acquiring, took⟩)
    (free : b.inner.halfOpenInflight < config.halfOpenMaxCalls) (hn : ∀ other ∈ b.calls, b.forgotten other = false) :
    Slots config { (b.put i ⟨.starting true, b.resets⟩) with
      inner := { b.inner with halfOpenInflight := b.inner.halfOpenInflight + 1 } } := by
  have grown : (b.inner.halfOpenInflight + 1).toNat = b.inner.halfOpenInflight.toNat + 1 := by
    have := config.halfOpenMaxCalls.toNat_lt
    rw [UInt32.lt_iff_toNat_lt] at free
    exact Nat.mod_eq_of_lt (by simp; omega)
  have more : (b.put i ⟨.starting true, b.resets⟩).calls.countP b.counted = b.calls.countP b.counted + 1 := by
    have := countP_put h ⟨.starting true, b.resets⟩ b.counted
    simpa [counted, probing, Phase.holdsSlot] using this
  have rest : ∀ call ∈ (b.put i ⟨.starting true, b.resets⟩).calls, b.forgotten call = false := by
    intro call mem
    rcases mem_put mem with old | rfl
    · exact hn call old
    · simp [forgotten]
  constructor
  · show (b.inner.halfOpenInflight + 1).toNat = (b.put i ⟨.starting true, b.resets⟩).calls.countP b.counted
    rw [grown, more, holds.tally]
  · intro call mem
    rcases mem_put mem with old | rfl
    · exact holds.older call old
    · exact Nat.le_refl _
  · exact fun _ => rest
  · rw [countP_probing (b := b.put i ⟨.starting true, b.resets⟩) rest]
    show (b.put i ⟨.starting true, b.resets⟩).calls.countP b.counted ≤ _
    rw [more, ← holds.tally]
    rw [UInt32.lt_iff_toNat_lt] at free
    omega

theorem Slots.reset {inner : Inner} {openings : List Nat} (hn : inner.halfOpenInflight = 0) :
    Slots config { b with inner, openings, resets := b.resets + 1 } := by
  have older : ∀ call ∈ b.calls, call.took ≤ b.resets + 1 := fun call mem =>
    Nat.le_succ_of_le (holds.older call mem)
  have nobody : b.calls.countP (counted { b with inner, openings, resets := b.resets + 1 }) = 0 := by
    apply List.countP_eq_zero.mpr
    intro call mem
    have := holds.older call mem
    simp only [counted, Bool.and_eq_true, decide_eq_true_eq, not_and]
    omega
  constructor
  · rw [hn]
    exact nobody.symm
  · exact older
  · intro some_
    exact absurd some_ (by rw [nobody]; exact Nat.lt_irrefl 0)
  · exact holds.limit

theorem Slots.recorded (h : b.calls[i]? = some ⟨.recording wasHalfOpen res, took⟩) :
    (b.record config i ⟨.recording wasHalfOpen res, took⟩ wasHalfOpen res).Slots config := by
  have hm : (b.put i ⟨if wasHalfOpen then .releasing res else .finished res, took⟩).Slots config := by
    refine holds.moved h _ ?_ rfl
    cases wasHalfOpen <;> rfl
  unfold record
  cases outcome_turns config b wasHalfOpen res took with
  | stays state _ slots =>
    simp only [state, if_true]
    exact { hm with tally := (congrArg UInt32.toNat slots).trans hm.tally }
  | closes was state slots =>
    simp only [state, was, reduceCtorEq, if_false]
    exact hm.reset slots
  | opens was state _ slots =>
    simp only [state, if_neg (Ne.symm was)]
    exact hm.reset slots

theorem Slots.released (h : b.calls[i]? = some ⟨.releasing res, took⟩) :
    Slots config { (b.put i ⟨.finished res, took⟩) with inner := StateMachine.releaseHalfOpenSlot b.inner } := by
  have mem := List.mem_of_getElem? h
  cases counts : b.counted ⟨.releasing res, took⟩ with
  | false =>
    -- The slot was forgotten, so no slot counts and there is nothing to take off.
    have forgets : b.forgotten ⟨.releasing res, took⟩ = true := by
      simpa [forgotten, counted, probing, Phase.holdsSlot] using counts
    have nobody : b.calls.countP b.counted = 0 := by
      by_contra some_
      have := holds.apart (Nat.pos_of_ne_zero some_) _ mem
      rw [forgets] at this
      cases this
    have none_ : b.inner.halfOpenInflight = 0 := UInt32.toNat_inj.mp (holds.tally.trans nobody)
    have he : (b.put i ⟨.finished res, took⟩).Slots config := holds.ended h ⟨_, took⟩ counts rfl rfl
    refine { he with tally := ?_ }
    have : (StateMachine.releaseHalfOpenSlot b.inner).halfOpenInflight = b.inner.halfOpenInflight := by
      simp [StateMachine.releaseHalfOpenSlot, none_]
    exact (congrArg UInt32.toNat this).trans he.tally
  | true =>
    have fewer : (b.put i ⟨.finished res, took⟩).calls.countP b.counted + 1 = b.calls.countP b.counted := by
      have := countP_put h ⟨.finished res, took⟩ b.counted
      rw [counts] at this
      simpa [counted, probing, Phase.finished, Phase.holdsSlot] using this
    have positive : 0 < b.calls.countP b.counted := by omega
    have none_ := holds.apart positive
    have ht : (StateMachine.releaseHalfOpenSlot b.inner).halfOpenInflight.toNat + 1 =
        b.inner.halfOpenInflight.toNat := by
      have nonzero : b.inner.halfOpenInflight ≠ 0 := by
        intro zero
        have := holds.tally
        rw [zero] at this
        simp at this
        omega
      have one : (1 : UInt32) ≤ b.inner.halfOpenInflight := by
        rw [UInt32.le_iff_toNat_le]
        have := holds.tally
        simp
        omega
      simp only [StateMachine.releaseHalfOpenSlot, if_neg nonzero]
      rw [UInt32.toNat_sub_of_le _ _ one]
      have := holds.tally
      simp
      omega
    constructor
    · show (StateMachine.releaseHalfOpenSlot b.inner).halfOpenInflight.toNat =
        (b.put i ⟨.finished res, took⟩).calls.countP b.counted
      have := holds.tally
      omega
    · intro call hi
      rcases mem_put hi with old | rfl
      · exact holds.older call old
      · exact holds.older ⟨.releasing res, took⟩ mem
    · intro _ call hi
      rcases mem_put hi with old | rfl
      · exact none_ call old
      · rfl
    · have := countP_put h ⟨.finished res, took⟩ probing
      have := holds.limit
      simp only [probing, Phase.finished, Phase.holdsSlot, Bool.toNat_true, Bool.toNat_false] at *
      omega

theorem Slots.step (hk : b.KeepsCount label) (hs : Steps config b label next) : next.Slots config := by
  cases hs with
  | arrived => exact holds.arrived
  | @gated _ took h =>
    have hm := holds.moved h ⟨.gate (StateMachine.state config b.inner b.now).2, took⟩ (by
      cases (StateMachine.state config b.inner b.now).2 <;> rfl) rfl
    exact { hm with tally := (congrArg UInt32.toNat (StateMachine.state_inflight ..)).trans hm.tally }
  | acquired h free => exact holds.acquired h free (hk ⟨_, h, rfl⟩)
  | shed h | finished _ h => exact holds.moved h _ rfl rfl
  | started h => exact { holds.moved h ⟨.running _, _⟩ rfl rfl with }
  | recorded h => exact holds.recorded h
  | released h => exact holds.released h
  | dropped h => exact holds.ended h _ (hk _ h) rfl rfl
  | elapsed => exact { holds with }

end

theorem Slots.start (now : Nat) : (start now : Breaker α ε).Slots config where
  tally := rfl
  older := nofun
  apart := nofun
  limit := Nat.zero_le _

theorem admitsNext_of_free (halfOpen : (StateMachine.state config b.inner b.now).2 = .halfOpen)
    (free : b.inner.halfOpenInflight < config.halfOpenMaxCalls) : b.admitsNext config = true := by
  simp [admitsNext, nextCall, Machine.run, machine, step, advance, put, halfOpen, Phase.gate,
    StateMachine.tryAcquireHalfOpenSlot, StateMachine.state_inflight, free]

theorem Slots.accounted (holds : b.Slots config) (hs : 0 < config.halfOpenMaxCalls) : b.ProbesAccounted config where
  limited := by
    apply Nat.le_trans _ holds.limit
    apply List.countP_mono_left
    intro call _ runs
    unfold probing
    cases phase : call.phase <;> simp_all [Phase.runsProbe, Phase.holdsSlot]
  recovers halfOpen nobody := by
    have none_ : b.calls.countP b.counted = 0 := by
      apply List.countP_eq_zero.mpr
      intro call mem counts
      have slot := probing_of_counted counts
      rw [nobody call mem] at slot
      cases slot
    have zero : b.inner.halfOpenInflight = 0 := UInt32.toNat_inj.mp (holds.tally.trans none_)
    apply admitsNext_of_free halfOpen
    rw [zero]
    exact hs

end
end Breaker

/-- If no probe with a counted slot is dropped, and no slot is asked for while a probe from before
the last change of state is on its way, the probes stay within the limit and a half-open circuit
without probes lets the next call through. -/
theorem probes_accounted {α ε : Type} (config : CircuitBreakerConfig) (some_ : 0 < config.halfOpenMaxCalls)
    {trace : List (Label α ε)} {now : Nat} {b : Breaker α ε}
    (keeps : (Breaker.machine config).Meets Breaker.KeepsCount (.start now) trace)
    (ran : (Breaker.machine config).run (.start now) trace = some b) : b.ProbesAccounted config := by
  have holds : b.Slots config := by
    apply Machine.run_keeps (m := Breaker.machine config) _ (.start now) keeps ran
    intro b label next holds keeps stepped
    exact holds.step keeps (Breaker.step_steps stepped)
  exact holds.accounted some_

namespace Sample

theorem recovering_accounted :
    ∃ b, (Breaker.machine config).run (.start 0) recovering = some b ∧ b.ProbesAccounted config := by
  obtain ⟨b, ran, -⟩ : ∃ b, (Breaker.machine config).run (.start 0) recovering = some b ∧
      b.inner.state = .closed := by decide +kernel
  exact ⟨b, ran, probes_accounted config (by decide) (by decide +kernel) ran⟩

/-- The only probe is dropped inside the inner service. -/
def leaked : Run := failing 0 ++ [.elapse 10, .arrive, .advance 1, .advance 1, .advance 1, .drop 1]

/-- A call from before the first opening fails while a probe is running, and the circuit opens again. -/
def overlapping : Run :=
  [.arrive, .advance 0, .advance 0] ++ failing 1 ++
    [.elapse 10, .arrive, .advance 2, .advance 2, .advance 2, .finish 0 (.error ()), .advance 0,
      .elapse 10, .arrive, .advance 3, .advance 3, .advance 3]

/-- The half-open circuit without a probe turns the next call away; and two probes run where one is
allowed. -/
theorem probes_miscounted :
    (∃ b, (Breaker.machine config).run (.start 0) leaked = some b ∧ b.runningProbes = 0 ∧
      ¬ b.ProbesAccounted config) ∧
    ∃ b, (Breaker.machine config).run (.start 0) overlapping = some b ∧ b.runningProbes = 2 ∧
      ¬ b.ProbesAccounted config := by
  constructor
  · obtain ⟨b, ran, none_, halfOpen, nobody, refused⟩ : ∃ b, (Breaker.machine config).run (.start 0) leaked = some b ∧
        b.runningProbes = 0 ∧ (StateMachine.state config b.inner b.now).2 = .halfOpen ∧
        b.calls.all (fun call => !Breaker.probing call) = true ∧ b.admitsNext config = false := by decide +kernel
    refine ⟨b, ran, none_, ?_⟩
    intro accounted
    have admits := accounted.recovers halfOpen (by simpa using nobody)
    rw [refused] at admits
    cases admits
  · obtain ⟨b, ran, two⟩ : ∃ b, (Breaker.machine config).run (.start 0) overlapping = some b ∧
        b.runningProbes = 2 := by decide +kernel
    refine ⟨b, ran, two, ?_⟩
    intro accounted
    have limited := accounted.limited
    rw [two] at limited
    exact absurd limited (by decide)

end Sample
end CorePlatform.Resilience
