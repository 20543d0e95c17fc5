import CorePlatform.Theory.Machine
import CorePlatform.Theory.Server

/-! # Programs that share a server

Any number of calls run their programs against one world. Each move performs one operation of one
call; a call can also stop for good, and the world can change by itself.

The rule for such systems is rely and guarantee. A waiting call carries an assertion about the world
that nothing the others may do can break. Each operation is checked once, where it stands in the
program: it keeps the invariant, does to the world only what the other calls put up with, and leads
to an assertion for what is left of the program. -/

namespace CorePlatform.Theory

open Function

variable {σ ρ ω Op : Type} {Reply : Op → Type} {ε α : Type}

/-- An operation and the answer it got. -/
abbrev Heard (Op : Type) (Reply : Op → Type) (ε : Type) := (op : Op) × Except ε (Reply op)

structure Call (ρ Op : Type) (Reply : Op → Type) (ε α : Type) where
  request : ρ
  program : Program Op Reply ε α
  /-- The answers so far, the newest first. -/
  heard : List (Heard Op Reply ε)

def Call.returned {ρ Op : Type} {Reply : Op → Type} {ε α : Type} (call : Call ρ Op Reply ε α) : Option α :=
  match call.program with
  | .ok value => some value
  | .error _ | .call _ _ => none

theorem Call.returned_eq_some {ρ Op : Type} {Reply : Op → Type} {ε α : Type} {call : Call ρ Op Reply ε α} {value : α} :
    call.returned = some value ↔ call.program = .ok value := by
  unfold returned
  cases call.program <;> simp

structure Pool (σ ρ Op : Type) (Reply : Op → Type) (ε α : Type) where
  world : σ
  calls : Nat → Option (Call ρ Op Reply ε α)

inductive Move (ρ ω : Type) where
  | begin (id : Nat) (request : ρ)
  | advance (id : Nat) (service : Service)
  | crash (id : Nat)
  | elapse (event : ω)

def Move.faultless {ρ ω : Type} : Move ρ ω → Bool
  | .advance _ service => service = .served
  | .crash _ => false
  | .begin _ _ | .elapse _ => true

structure Host (σ ρ ω Op : Type) (Reply : Op → Type) (ε α : Type) where
  init : σ → Prop
  server : Server σ Op Reply ε
  /-- Take up a request: the program that handles it, and what taking it up does to the world. -/
  accept : σ → ρ → Option (σ × Program Op Reply ε α)
  elapse : σ → ω → Option σ

namespace Host

variable (host : Host σ ρ ω Op Reply ε α)

def step (pool : Pool σ ρ Op Reply ε α) : Move ρ ω → Option (Pool σ ρ Op Reply ε α)
  | .begin id request =>
    match pool.calls id, host.accept pool.world request with
    | none, some (world, program) =>
      some ⟨world, update pool.calls id (some ⟨request, program, []⟩)⟩
    | _, _ => none
  | .advance id service =>
    match pool.calls id with
    | some ⟨request, .call op next, heard⟩ =>
      let (world, answer) := host.server.perform pool.world op service
      some ⟨world, update pool.calls id (some ⟨request, next answer, ⟨op, answer⟩ :: heard⟩)⟩
    | _ => none
  | .crash id =>
    match pool.calls id with
    | some ⟨_, .call _ _, _⟩ => some { pool with calls := update pool.calls id none }
    | _ => none
  | .elapse event => (host.elapse pool.world event).map fun world => { pool with world }

def machine : Machine (Pool σ ρ Op Reply ε α) (Move ρ ω) where
  init pool := host.init pool.world ∧ pool.calls = fun _ => none
  step := host.step

theorem calls_of_init (hb : host.machine.init pool) (id : Nat) : pool.calls id ≠ some call := by
  rw [hb.2]
  intro h
  cases h

end Host

inductive Host.Steps (host : Host σ ρ ω Op Reply ε α) (pool : Pool σ ρ Op Reply ε α) :
    Move ρ ω → Pool σ ρ Op Reply ε α → Prop where
  | begun {id : Nat} {request : ρ} {world : σ} {program : Program Op Reply ε α} (free : pool.calls id = none)
      (accepted : host.accept pool.world request = some (world, program)) :
      Steps host pool (.begin id request) ⟨world, update pool.calls id (some ⟨request, program, []⟩)⟩
  | advanced {id : Nat} {request : ρ} {op : Op} {next : Except ε (Reply op) → Program Op Reply ε α}
      {heard : List (Heard Op Reply ε)} (service : Service)
      (waiting : pool.calls id = some ⟨request, .call op next, heard⟩) :
      Steps host pool (.advance id service)
        ⟨(host.server.perform pool.world op service).1, update pool.calls id
          (some ⟨request, next (host.server.perform pool.world op service).2,
            ⟨op, (host.server.perform pool.world op service).2⟩ :: heard⟩)⟩
  | crashed {id : Nat} : Steps host pool (.crash id) { pool with calls := update pool.calls id none }
  | elapsed {event : ω} {world : σ} (changed : host.elapse pool.world event = some world) :
      Steps host pool (.elapse event) { pool with world }

theorem Host.step_steps {host : Host σ ρ ω Op Reply ε α} (hs : host.step pool move = some next) :
    host.Steps pool move next := by
  cases move with
  | begin _ _ =>
    simp only [step] at hs
    split at hs
    · rename_i world prog free ha
      cases hs
      exact .begun free ha
    · cases hs
  | advance _ service =>
    simp only [step] at hs
    split at hs
    · rename_i req op next heard hw
      cases hs
      exact .advanced service hw
    · cases hs
  | crash =>
    simp only [step] at hs
    split at hs
    · cases hs
      exact .crashed
    · cases hs
  | elapse =>
    obtain ⟨_, hc, rfl⟩ := Option.map_eq_some_iff.mp hs
    exact .elapsed hc

theorem Host.run_keeps {host : Host σ ρ ω Op Reply ε α} {cond : Pool σ ρ Op Reply ε α → Move ρ ω → Prop}
    (inv : Pool σ ρ Op Reply ε α → Prop)
    (hk : ∀ {pool move next}, inv pool → cond pool move → host.Steps pool move next → inv next) (first : inv start)
    (hm : host.machine.Meets cond start moves) (ran : host.machine.run start moves = some pool) : inv pool := by
  apply Machine.run_keeps _ first hm ran
  intro pool move next hp fits hs
  exact hk hp fits (step_steps hs)

/-- Where a call of the pool comes from: it was there, it was begun, or it has just been answered. -/
inductive Host.Origin (host : Host σ ρ ω Op Reply ε α) (pool : Pool σ ρ Op Reply ε α) (move : Move ρ ω) (world : σ)
    (id : Nat) : Call ρ Op Reply ε α → Prop where
  | old {call : Call ρ Op Reply ε α} (before : pool.calls id = some call) : Origin host pool move world id call
  | begun {request : ρ} {program : Program Op Reply ε α} (moved : move = .begin id request)
      (accepted : host.accept pool.world request = some (world, program)) :
      Origin host pool move world id ⟨request, program, []⟩
  | advanced {request : ρ} {op : Op} {next : Except ε (Reply op) → Program Op Reply ε α}
      {heard : List (Heard Op Reply ε)} (service : Service) (moved : move = .advance id service)
      (waiting : pool.calls id = some ⟨request, .call op next, heard⟩)
      (left : world = (host.server.perform pool.world op service).1) :
      Origin host pool move world id ⟨request, next (host.server.perform pool.world op service).2,
        ⟨op, (host.server.perform pool.world op service).2⟩ :: heard⟩

theorem Host.Steps.origin {host : Host σ ρ ω Op Reply ε α} (hs : host.Steps pool move next) {id : Nat}
    (h : next.calls id = some call) : host.Origin pool move next.world id call := by
  cases hs with
  | begun _ accepted =>
    cases update_cases h with
    | inl new =>
      obtain ⟨rfl, made⟩ := new
      cases made
      exact .begun rfl accepted
    | inr before => exact .old before.2
  | advanced service waiting =>
    cases update_cases h with
    | inl new =>
      obtain ⟨rfl, made⟩ := new
      cases made
      exact .advanced service rfl waiting rfl
    | inr before => exact .old before.2
  | crashed => exact .old (of_update_none h)
  | elapsed => exact .old h

theorem Host.step_advance (host : Host σ ρ ω Op Reply ε α) {id : Nat}
    (hw : pool.calls id = some ⟨req, .call op rest, heard⟩) :
    ∃ next, host.machine.step pool (.advance id service) = some next ∧
      next.world = (host.server.perform pool.world op service).1 := by
  simp [machine, step, hw]

structure Contract (σ ρ ω Op : Type) (Reply : Op → Type) (ε α : Type) where
  inv : σ → Prop
  /-- What the others may do to the world while a call for the request waits. -/
  others : ρ → σ → σ → Prop
  known : ρ → σ → Prop
  apart : ρ → ρ → Prop
  /-- The operations and the changes of the world that a run is confined to. -/
  advancing : ρ → σ → Op → Service → Prop
  elapsing : σ → ω → Prop
  post : ρ → List (Heard Op Reply ε) → Except ε α → σ → Prop

namespace Contract

variable (contract : Contract σ ρ ω Op Reply ε α) (server : Server σ Op Reply ε) (host : Host σ ρ ω Op Reply ε α)

def Stable (request : ρ) (assertion : σ → Prop) : Prop :=
  ∀ s s', contract.inv s → contract.inv s' → contract.others request s s' → assertion s → assertion s'

/-- The rest of a program is in order in every world of the assertion. -/
def Sound (request : ρ) : Program Op Reply ε α → (σ → Prop) → List (Heard Op Reply ε) → Prop
  | .ok value, assertion, heard =>
    contract.Stable request assertion ∧ ∀ s, contract.inv s → assertion s → contract.post request heard (.ok value) s
  | .error e, assertion, heard =>
    contract.Stable request assertion ∧ ∀ s, contract.inv s → assertion s → contract.post request heard (.error e) s
  | .call op next, assertion, heard =>
    contract.Stable request assertion ∧
      ∀ s service, contract.inv s → assertion s → contract.advancing request s op service →
        contract.inv (server.perform s op service).1 ∧
        (∀ other, contract.apart other request → contract.others other s (server.perform s op service).1) ∧
        ∃ then_ : σ → Prop, then_ (server.perform s op service).1 ∧
          Sound request (next (server.perform s op service).2) then_ (⟨op, (server.perform s op service).2⟩ :: heard)

structure Valid : Prop where
  starts : ∀ s, host.init s → contract.inv s
  accepts : ∀ s request s' program, contract.inv s → host.accept s request = some (s', program) →
    contract.inv s' ∧ contract.known request s' ∧
    (∀ other, contract.known other s →
      contract.known other s' ∧ contract.apart request other ∧ contract.apart other request ∧
        contract.others other s s') ∧
    ∃ assertion : σ → Prop, assertion s' ∧ contract.Sound host.server request program assertion []
  elapses : ∀ s event s', contract.inv s → contract.elapsing s event → host.elapse s event = some s' →
    contract.inv s' ∧ ∀ request, contract.others request s s' ∧ (contract.known request s → contract.known request s')
  keepsKnown : ∀ s op service request, contract.known request s →
    contract.known request (host.server.perform s op service).1

/-- A move within the confines of the contract. -/
def Allows (pool : Pool σ ρ Op Reply ε α) : Move ρ ω → Prop
  | .advance id service =>
    ∀ request op next heard, pool.calls id = some ⟨request, .call op next, heard⟩ →
      contract.advancing request pool.world op service
  | .elapse event => contract.elapsing pool.world event
  | .begin _ _ | .crash _ => True

structure Kept (pool : Pool σ ρ Op Reply ε α) : Prop where
  inv : contract.inv pool.world
  calls : ∀ {id call}, pool.calls id = some call → contract.known call.request pool.world ∧
    ∃ assertion : σ → Prop, assertion pool.world ∧
      contract.Sound host.server call.request call.program assertion call.heard
  apart : ∀ {i j first second}, i ≠ j → pool.calls i = some first → pool.calls j = some second →
    contract.apart first.request second.request

variable {contract server host}

theorem Sound.stable (inv : contract.Sound server request prog assertion heard) :
    contract.Stable request assertion := by
  cases prog with
  | ok | error | call => exact inv.1

theorem Sound.weaken (hso : contract.Sound server request prog assertion heard)
    (hs : contract.Stable request stronger) (hi : ∀ s, stronger s → assertion s) :
    contract.Sound server request prog stronger heard := by
  cases prog with
  | ok | error => exact ⟨hs, fun s inv hp => hso.2 s inv (hi s hp)⟩
  | call => exact ⟨hs, fun s svc inv hp => hso.2 s svc inv (hi s hp)⟩

theorem Sound.perform (hs : contract.Stable request assertion)
    (step : ∀ s svc, contract.inv s → assertion s → contract.advancing request s op svc →
      contract.inv (server.perform s op svc).1 ∧
      ∀ other, contract.apart other request → contract.others other s (server.perform s op svc).1)
    (ho : ∀ s svc reply, contract.inv s → assertion s → contract.advancing request s op svc →
      (server.perform s op svc).2 = .ok reply →
      ∃ then_ : σ → Prop, then_ (server.perform s op svc).1 ∧
        contract.Sound server request (rest reply) then_ (⟨op, .ok reply⟩ :: heard))
    (hf : ∀ s svc e, (server.perform s op svc).2 = .error e →
      ∀ s', contract.post request (⟨op, .error e⟩ :: heard) (.error e) s') :
    contract.Sound server request (.perform op >>= rest) assertion heard := by
  refine ⟨hs, fun s svc inv hp advancing => ?_⟩
  obtain ⟨inv', bears⟩ := step s svc inv hp advancing
  refine ⟨inv', bears, ?_⟩
  cases ans : (server.perform s op svc).2 with
  | ok reply => exact ho s svc reply inv hp advancing ans
  | error e => exact ⟨fun _ => True, trivial, fun _ _ _ _ _ _ => trivial, fun s' _ _ => hf s svc e ans s'⟩

theorem Sound.execute (hso : contract.Sound server request program assertion heard)
    (free : ∀ s op service, contract.advancing request s op service) (inv : contract.inv s) (hp : assertion s)
    (pat : Nat → Service) :
    contract.inv (server.execute program s pat).1 ∧
      ∃ heard', contract.post request heard' (server.execute program s pat).2 (server.execute program s pat).1 := by
  induction program generalizing assertion heard s pat with
  | ok | error => exact ⟨inv, heard, hso.2 s inv hp⟩
  | call op _ ih =>
    obtain ⟨inv', _, _, holds', sound'⟩ := hso.2 s (pat 0) inv hp (free s op (pat 0))
    exact ih _ sound' inv' holds' _

private theorem Kept.others (kept : contract.Kept host pool) {id : Nat} {world : σ}
    {entry : Option (Call ρ Op Reply ε α)} (inv : contract.inv world)
    (hk : ∀ request, contract.known request pool.world → contract.known request world)
    (hb : ∀ {i call}, i ≠ id → pool.calls i = some call → contract.others call.request pool.world world)
    (other : i ≠ id) (h : update pool.calls id entry i = some call) :
    contract.known call.request world ∧ ∃ assertion : σ → Prop, assertion world ∧
      contract.Sound host.server call.request call.program assertion call.heard := by
  rw [update_of_ne other] at h
  obtain ⟨ht, assertion, hp, hso⟩ := kept.calls h
  exact ⟨hk _ ht, assertion, hso.stable _ _ kept.inv inv (hb other h) hp, hso⟩

theorem Kept.step (hv : contract.Valid host) (kept : contract.Kept host pool) (hal : contract.Allows pool move)
    (hs : host.Steps pool move next) : contract.Kept host next := by
  cases hs with
  | @begun id req _ _ _ ha =>
    obtain ⟨inv, ht, rest, assertion, hp, hso⟩ := hv.accepts _ _ _ _ kept.inv ha
    refine ⟨inv, ?_, ?_⟩
    · intro i call h
      by_cases eq : i = id
      · subst eq
        simp only [update_self] at h
        cases h
        exact ⟨ht, assertion, hp, hso⟩
      · exact kept.others inv (fun req hk => (rest req hk).1)
          (fun _ h => (rest _ (kept.calls h).1).2.2.2) eq h
    intro i j first second ne heldFirst heldSecond
    rcases update_cases heldFirst with ⟨rfl, new⟩ | ⟨_, old⟩
    · cases new
      simp only [update_of_ne (Ne.symm ne)] at heldSecond
      exact (rest _ (kept.calls heldSecond).1).2.1
    · rcases update_cases heldSecond with ⟨rfl, new⟩ | ⟨_, old'⟩
      · cases new
        exact (rest _ (kept.calls old).1).2.2.1
      · exact kept.apart ne old old'
  | @advanced id req op next heard service hw =>
    obtain ⟨_, assertion, hp, hso⟩ := kept.calls hw
    obtain ⟨inv, bears, ho, holds', sound'⟩ :=
      hso.2 _ service kept.inv hp (hal req op next heard hw)
    refine ⟨inv, ?_, ?_⟩
    · intro i call h
      by_cases eq : i = id
      · subst eq
        simp only [update_self] at h
        cases h
        exact ⟨hv.keepsKnown _ _ _ _ (kept.calls hw).1, ho, holds', sound'⟩
      · exact kept.others inv (fun req hk => hv.keepsKnown _ _ _ _ hk)
          (fun other h => bears _ (kept.apart other h hw)) eq h
    intro i j first second ne heldFirst heldSecond
    rcases update_cases heldFirst with ⟨rfl, new⟩ | ⟨_, old⟩
    · cases new
      simp only [update_of_ne (Ne.symm ne)] at heldSecond
      have hb := kept.apart ne hw heldSecond
      exact hb
    · rcases update_cases heldSecond with ⟨rfl, new⟩ | ⟨_, old'⟩
      · cases new
        have hb := kept.apart ne old hw
        exact hb
      · exact kept.apart ne old old'
  | crashed =>
    refine ⟨kept.inv, ?_, ?_⟩
    · intro i call h
      exact kept.calls (of_update_none h)
    · intro i j first second ne heldFirst heldSecond
      exact kept.apart ne (of_update_none heldFirst) (of_update_none heldSecond)
  | elapsed hc =>
    obtain ⟨inv, bears⟩ := hv.elapses _ _ _ kept.inv hal hc
    refine ⟨inv, ?_, kept.apart⟩
    intro i call h
    obtain ⟨ht, assertion, hp, hso⟩ := kept.calls h
    exact ⟨(bears _).2 ht, assertion, hso.stable _ _ kept.inv inv (bears _).1 hp, hso⟩

theorem Kept.bears (hv : contract.Valid host) (kept : contract.Kept host pool) (observer : ρ)
    (hk : contract.known observer pool.world) (ne : ∀ req, contract.apart observer req)
    (still : contract.others observer pool.world pool.world) (hal : contract.Allows pool move)
    (hs : host.Steps pool move next) : contract.others observer pool.world next.world := by
  cases hs with
  | begun _ ha =>
    obtain ⟨_, _, rest, _⟩ := hv.accepts _ _ _ _ kept.inv ha
    exact (rest observer hk).2.2.2
  | @advanced _ req op next heard svc hw =>
    obtain ⟨_, _, hp, inv⟩ := kept.calls hw
    obtain ⟨_, bears, _⟩ := inv.2 _ svc kept.inv hp (hal req op next heard hw)
    exact bears observer (ne req)
  | crashed => exact still
  | elapsed changed => exact ((hv.elapses _ _ _ kept.inv hal changed).2 observer).1

theorem Valid.run (hv : contract.Valid host) (hb : host.machine.init start)
    (hw : host.machine.Meets contract.Allows start trace) (ran : host.machine.run start trace = some pool) :
    contract.Kept host pool := by
  have first : contract.Kept host start := by
    refine ⟨hv.starts _ hb.1, ?_, ?_⟩ <;> simp [hb.2]
  exact Host.run_keeps _ (fun kept allowed hs => kept.step hv allowed hs) first hw ran

theorem Kept.returned (kept : contract.Kept host pool) {id : Nat}
    (done : pool.calls id = some ⟨req, .ok value, heard⟩) :
    contract.post req heard (.ok value) pool.world := by
  obtain ⟨_, _, hp, inv⟩ := kept.calls done
  exact inv.2 _ kept.inv hp

theorem Kept.failed (kept : contract.Kept host pool) {id : Nat}
    (done : pool.calls id = some ⟨req, .error e, heard⟩) : contract.post req heard (.error e) pool.world := by
  obtain ⟨_, _, hp, inv⟩ := kept.calls done
  exact inv.2 _ kept.inv hp

end Contract
end CorePlatform.Theory
