import CorePlatform.Theory.Interleaving

/-! # What a call may ask for, given what it has heard

A call of a shared server knows only the answers it got. What it asks for next, and what it can end
with, is therefore a fact about its program and those answers, whatever the other calls do.
`Conforms` states it, and every call of a pool keeps to it.

Of a value that was read, what lasts is that the stored one is no older, and that it is the same one
if its version is. -/

namespace CorePlatform.Theory

open Function

variable {σ ρ ω Op : Type} {Reply : Op → Type} {ε α β : Type}

namespace Program

/-- After the answers heard, newest first: each operation asked for fits what was heard by then, and
so does each value returned. -/
def Conforms (asks : List (Heard Op Reply ε) → Op → Prop) (ends : List (Heard Op Reply ε) → α → Prop) :
    Program Op Reply ε α → List (Heard Op Reply ε) → Prop
  | .ok value, heard => ends heard value
  | .error _, _ => True
  | .call op next, heard => asks heard op ∧ ∀ answer, Conforms asks ends (next answer) (⟨op, answer⟩ :: heard)

variable {ends : List (Heard Op Reply ε) → α → Prop} {program : Program Op Reply ε α}

theorem Conforms.perform {op : Op} {f : Reply op → Program Op Reply ε α} (fits : asks heard op)
    (ho : ∀ reply, (f reply).Conforms asks ends (⟨op, .ok reply⟩ :: heard)) :
    (Program.perform op >>= f).Conforms asks ends heard := by
  refine ⟨fits, fun ans => ?_⟩
  cases ans with
  | ok reply => exact ho reply
  | error => trivial

theorem Conforms.lift {res : Except ε β}
    (ho : ∀ value, res = .ok value → (f value).Conforms asks ends heard) :
    ((liftM res : Program Op Reply ε β) >>= f).Conforms asks ends heard := by
  cases res with
  | ok value => exact ho value rfl
  | error => trivial

theorem Conforms.bind {f : β → Program Op Reply ε α} (hc : first.Conforms asks halfway heard)
    (ho : ∀ heard value, halfway heard value → (f value).Conforms asks ends heard) :
    (first >>= f).Conforms asks ends heard := by
  induction first generalizing heard with
  | ok value => exact ho heard value hc
  | error => trivial
  | call _ _ ih => exact ⟨hc.1, fun ans => ih ans (hc.2 ans)⟩

theorem Conforms.mono (hc : program.Conforms asks ends heard)
    (hi : ∀ heard value, ends heard value → wider heard value) : program.Conforms asks wider heard := by
  induction program generalizing heard with
  | ok value => exact hi heard value hc
  | error => trivial
  | call _ _ ih => exact ⟨hc.1, fun ans => ih ans (hc.2 ans)⟩

theorem Conforms.remember (hc : program.Conforms asks ends heard) (hs : before <:+ heard) :
    program.Conforms asks (fun later value => ends later value ∧ before <:+ later) heard := by
  induction program generalizing heard with
  | ok => exact ⟨hc, hs⟩
  | error => trivial
  | call _ _ ih =>
    exact ⟨hc.1, fun ans => ih ans (hc.2 ans) (hs.trans (List.suffix_cons ..))⟩

theorem Conforms.of_passes (hp : program.Passes allowed) (good : List (Heard Op Reply ε) → Prop)
    (ha : ∀ heard op, good heard → allowed op → asks heard op)
    (hh : ∀ heard op reply, good heard → allowed op → good (⟨op, .ok reply⟩ :: heard))
    (he : ∀ heard value, good heard → ends heard value) (initially : good heard) :
    program.Conforms asks ends heard := by
  induction program generalizing heard with
  | ok value => exact he heard value initially
  | error => trivial
  | call op _ ih =>
    refine ⟨ha heard op initially hp.1, fun ans => ?_⟩
    cases ans with
    | ok reply => exact ih (.ok reply) (hp.2.2 reply) (hh heard op reply initially hp.1)
    | error e =>
      rw [hp.2.1 e]
      trivial

theorem Conforms.of_confined (hc : program.Confined allowed fun _ => True)
    (ha : ∀ heard op, allowed op → asks heard op) (he : ∀ heard value, ends heard value) :
    program.Conforms asks ends heard := by
  induction program generalizing heard with
  | ok value => exact he heard value
  | error => trivial
  | call op _ ih =>
    exact ⟨ha heard op hc.1, fun ans => ih ans (hc.2 ans fun _ _ => trivial)⟩

/-- `holds` wherever the program asks: of what was heard, the operation and what is done with its
answer. -/
def Throughout (holds : List (Heard Op Reply ε) → (op : Op) → (Except ε (Reply op) → Program Op Reply ε α) → Prop) :
    Program Op Reply ε α → List (Heard Op Reply ε) → Prop
  | .ok _, _ | .error _, _ => True
  | .call op next, heard => holds heard op next ∧ ∀ answer, Throughout holds (next answer) (⟨op, answer⟩ :: heard)

section

variable {holds : List (Heard Op Reply ε) → (op : Op) → (Except ε (Reply op) → Program Op Reply ε α) → Prop}

theorem Throughout.of_confined (hc : program.Confined allowed fun _ => True)
    (free : ∀ heard op next, allowed op → holds heard op next) (heard : List (Heard Op Reply ε)) :
    program.Throughout holds heard := by
  induction program generalizing heard with
  | ok | error => trivial
  | call op next ih =>
    exact ⟨free heard op next hc.1, fun ans => ih ans (hc.2 ans fun _ _ => trivial) _⟩

theorem Throughout.lift {res : Except ε β}
    (ho : ∀ value, res = .ok value → (f value).Throughout holds heard) :
    ((liftM res : Program Op Reply ε β) >>= f).Throughout holds heard := by
  cases res with
  | ok value => exact ho value rfl
  | error => trivial

end

/-- The program returns nothing but such values, if the answers that it gets are true. -/
def Yields (truthful : (op : Op) → Except ε (Reply op) → Prop) (post : α → Prop) : Program Op Reply ε α → Prop
  | .ok value => post value
  | .error _ => True
  | .call op next => ∀ answer, truthful op answer → Yields truthful post (next answer)

theorem Yields.of_forall (all : ∀ value, post value) : program.Yields truthful post := by
  induction program with
  | ok value => exact all value
  | error => trivial
  | call _ _ ih => exact fun ans _ => ih ans

theorem Yields.bind {f : β → Program Op Reply ε α} (hy : first.Yields truthful halfway)
    (ho : ∀ value, halfway value → (f value).Yields truthful post) : (first >>= f).Yields truthful post := by
  induction first with
  | ok value => exact ho value hy
  | error => trivial
  | call _ _ ih => exact fun ans true_ => ih ans (hy ans true_)

theorem Yields.perform {op : Op} {f : Reply op → Program Op Reply ε α}
    (ho : ∀ reply, truthful op (.ok reply) → (f reply).Yields truthful post) :
    (Program.perform op >>= f).Yields truthful post := by
  intro ans true_
  cases ans with
  | ok reply => exact ho reply true_
  | error => trivial

/-- While its answers are true, the program asks for nothing but allowed operations and returns only
such values. -/
def Obeys (truthful : (op : Op) → Except ε (Reply op) → Prop) (allowed : Op → Prop) (post : α → Prop) :
    Program Op Reply ε α → Prop
  | .ok value => post value
  | .error _ => True
  | .call op next => allowed op ∧ ∀ answer, truthful op answer → Obeys truthful allowed post (next answer)

section

variable {post : α → Prop}

theorem Obeys.of_confined (hc : program.Confined allowed fun _ => True) (all : ∀ value, post value) :
    program.Obeys truthful allowed post := by
  induction program with
  | ok value => exact all value
  | error => trivial
  | call _ _ ih => exact ⟨hc.1, fun ans _ => ih ans (hc.2 ans fun _ _ => trivial)⟩

theorem Obeys.bind {f : β → Program Op Reply ε α} (hob : first.Obeys truthful allowed halfway)
    (ho : ∀ value, halfway value → (f value).Obeys truthful allowed post) :
    (first >>= f).Obeys truthful allowed post := by
  induction first with
  | ok value => exact ho value hob
  | error => trivial
  | call _ _ ih => exact ⟨hob.1, fun ans true_ => ih ans (hob.2 ans true_)⟩

theorem Obeys.perform {op : Op} {f : Reply op → Program Op Reply ε α} (fits : allowed op)
    (ho : ∀ reply, truthful op (.ok reply) → (f reply).Obeys truthful allowed post) :
    (Program.perform op >>= f).Obeys truthful allowed post := by
  refine ⟨fits, fun ans true_ => ?_⟩
  cases ans with
  | ok reply => exact ho reply true_
  | error => trivial

theorem Obeys.lift {res : Except ε β}
    (ho : ∀ value, res = .ok value → (f value).Obeys truthful allowed post) :
    ((liftM res : Program Op Reply ε β) >>= f).Obeys truthful allowed post := by
  cases res with
  | ok value => exact ho value rfl
  | error => trivial

end
end Program

variable {host : Host σ ρ ω Op Reply ε α} {pool : Pool σ ρ Op Reply ε α} {id : Nat} {moves : List (Move ρ ω)}

/-- Every call of the pool keeps to what its request may ask for and end with. -/
def Pool.Conforming (asks : ρ → List (Heard Op Reply ε) → Op → Prop) (ends : ρ → List (Heard Op Reply ε) → α → Prop)
    (pool : Pool σ ρ Op Reply ε α) : Prop :=
  ∀ id call, pool.calls id = some call → call.program.Conforms (asks call.request) (ends call.request) call.heard

theorem Pool.Conforming.step (hc : pool.Conforming asks ends) (hs : host.Steps pool move next)
    (ha : ∀ {id request world program}, move = .begin id request →
      host.accept pool.world request = some (world, program) → program.Conforms (asks request) (ends request) []) :
    next.Conforming asks ends := by
  intro id call h
  cases hs.origin h with
  | old before => exact hc id call before
  | begun moved accepted => exact ha moved accepted
  | advanced _ _ waiting => exact (hc _ _ waiting).2 _

def Pool.Throughout
    (holds : List (Heard Op Reply ε) → (op : Op) → (Except ε (Reply op) → Program Op Reply ε α) → Prop)
    (pool : Pool σ ρ Op Reply ε α) : Prop :=
  ∀ id call, pool.calls id = some call → call.program.Throughout holds call.heard

theorem Pool.Throughout.step (ht : pool.Throughout holds) (hs : host.Steps pool move next)
    (ha : ∀ {req world program}, host.accept pool.world req = some (world, program) →
      program.Throughout holds []) : next.Throughout holds := by
  intro id call h
  cases hs.origin h with
  | old before => exact ht id call before
  | begun _ accepted => exact ha accepted
  | advanced _ _ waiting => exact (ht _ _ waiting).2 _

def Pool.requests (pool : Pool σ ρ Op Reply ε α) (id : Nat) : Option ρ := (pool.calls id).map Call.request

theorem Pool.requests_of_call (h : pool.calls id = some call) : pool.requests id = some call.request := by
  rw [requests, h]
  rfl

theorem Pool.requests_advanced {world : σ} (h : pool.calls id = some ⟨req, program, heard⟩) :
    (⟨world, update pool.calls id (some ⟨req, program', heard'⟩)⟩ : Pool σ ρ Op Reply ε α).requests =
      pool.requests := by
  funext k
  by_cases here : k = id
  · subst here
    show (update pool.calls k (some ⟨req, program', heard'⟩) k).map Call.request = _
    rw [update_self, requests_of_call h]
    rfl
  · show (update pool.calls id (some ⟨req, program', heard'⟩) k).map Call.request = _
    rw [update_of_ne here]
    rfl

theorem Pool.requests_begun {world : σ}
    (h : (⟨world, update pool.calls id (some call)⟩ : Pool σ ρ Op Reply ε α).requests k = some request) :
    (k = id ∧ call.request = request) ∨ (k ≠ id ∧ pool.requests k = some request) := by
  obtain ⟨_, there, eq⟩ := Option.map_eq_some_iff.mp h
  cases update_cases there with
  | inl new =>
    cases new.2
    exact .inl ⟨new.1, eq⟩
  | inr old =>
    subst eq
    exact .inr ⟨old.1, requests_of_call old.2⟩

/-- What was answered to the calls of the pool is still so. -/
def Pool.Attested (fact : ρ → σ → Heard Op Reply ε → Prop) (pool : Pool σ ρ Op Reply ε α) : Prop :=
  ∀ id call, pool.calls id = some call → ∀ entry ∈ call.heard, fact call.request pool.world entry

theorem Pool.Attested.step (ha : pool.Attested fact) (hs : host.Steps pool move next)
    (hl : ∀ req entry, fact req pool.world entry → fact req next.world entry)
    (told : ∀ {id req op rest heard service}, move = .advance id service →
      pool.calls id = some ⟨req, .call op rest, heard⟩ →
      fact req (host.server.perform pool.world op service).1 ⟨op, (host.server.perform pool.world op service).2⟩) :
    next.Attested fact := by
  intro id call h entry mem
  cases hs.origin h with
  | old before => exact hl _ _ (ha id call before entry mem)
  | begun => cases mem
  | advanced _ moved waiting left =>
    cases List.mem_cons.mp mem with
    | inl head =>
      rw [head, left]
      exact told moved waiting
    | inr tail => exact hl _ _ (ha _ _ waiting entry tail)

/-- If the caller has a call, it returns nothing but such values while its answers are true. -/
def Pool.Promised (caller : Nat) (truthful : (op : Op) → Except ε (Reply op) → Prop) (post : α → Prop)
    (pool : Pool σ ρ Op Reply ε α) : Prop :=
  ∀ call, pool.calls caller = some call → call.program.Yields truthful post

theorem Pool.Promised.step (hp : pool.Promised caller truthful post) (hs : host.Steps pool move next)
    (ha : ∀ op service, truthful op (host.server.perform pool.world op service).2)
    (hac : ∀ {req world program}, host.accept pool.world req = some (world, program) →
      program.Yields truthful post) : next.Promised caller truthful post := by
  intro call h
  cases hs.origin h with
  | old before => exact hp call before
  | begun _ accepted => exact hac accepted
  | advanced service _ waiting => exact hp _ waiting _ (ha _ service)

/-- Every call of the pool keeps to what its request is allowed, while it is told the truth. -/
def Pool.Obeying (truthful : (op : Op) → Except ε (Reply op) → Prop) (allowed : ρ → Op → Prop)
    (pool : Pool σ ρ Op Reply ε α) : Prop :=
  ∀ id call, pool.calls id = some call → call.program.Obeys truthful (allowed call.request) fun _ => True

theorem Host.obeying_of_reachable {inv : σ → Prop} (hst : ∀ w, host.init w → inv w)
    (ha : ∀ w op service, inv w → truthful op (host.server.perform w op service).2)
    (hk : ∀ w request op service, inv w → allowed request op → inv (host.server.perform w op service).1)
    (hac : ∀ w request w' program, inv w → host.accept w request = some (w', program) →
      inv w' ∧ program.Obeys truthful (allowed request) fun _ => True)
    (he : ∀ w event w', inv w → host.elapse w event = some w' → inv w') (hr : host.machine.Reachable pool) :
    inv pool.world ∧ pool.Obeying truthful allowed := by
  refine hr.invariant (fun pool => inv pool.world ∧ pool.Obeying truthful allowed) ?_ ?_
  · intro start hbe
    refine ⟨hst _ hbe.1, fun id call h => ?_⟩
    rw [hbe.2] at h
    cases h
  intro hb move next holds hs
  obtain ⟨hso, obeying⟩ := holds
  have hm := Host.step_steps hs
  constructor
  · cases hm with
    | begun _ accepted => exact (hac _ _ _ _ hso accepted).1
    | advanced service waiting => exact hk _ _ _ service hso (obeying _ _ waiting).1
    | crashed => exact hso
    | elapsed changed => exact he _ _ _ hso changed
  · intro id call h
    cases hm.origin h with
    | old hb => exact obeying id call hb
    | begun _ accepted => exact (hac _ _ _ _ hso accepted).2
    | advanced service _ waiting => exact (obeying _ _ waiting).2 _ (ha _ _ service hso)

theorem Host.begun_of_call (h : pool.calls id = some call) :
    ∀ {start : Pool σ ρ Op Reply ε α}, host.machine.run start moves = some pool →
      (∃ earlier, start.calls id = some earlier) ∨ ∃ req, .begin id req ∈ moves := by
  induction moves with
  | nil =>
    intro start ran
    cases ran
    exact .inl ⟨call, h⟩
  | cons _ _ ih =>
    intro start ran
    obtain ⟨_, hs, ran⟩ := host.machine.run_cons_iff.mp ran
    cases ih ran with
    | inr begun =>
      obtain ⟨req, mem⟩ := begun
      exact .inr ⟨req, .tail _ mem⟩
    | inl earlier =>
      obtain ⟨hf, there⟩ := earlier
      cases (Host.step_steps hs).origin there with
      | old hb => exact .inl ⟨hf, hb⟩
      | begun moved => exact .inr ⟨_, List.mem_cons.mpr (.inl moved.symm)⟩
      | advanced _ _ hw => exact .inl ⟨_, hw⟩

def Program.ended {Op : Type} {Reply : Op → Type} {ε α : Type} : Program Op Reply ε α → Bool
  | .ok _ | .error _ => true
  | .call _ _ => false

def Pool.Idle (pool : Pool σ ρ Op Reply ε α) : Prop :=
  ∀ id call, pool.calls id = some call → call.program.ended = true

def begunIn : List (Move ρ ω) → List Nat
  | [] => []
  | .begin id _ :: rest => id :: begunIn rest
  | .advance _ _ :: rest | .crash _ :: rest | .elapse _ :: rest => begunIn rest

theorem mem_begunIn (mem : .begin id request ∈ moves) : id ∈ begunIn moves := by
  induction moves with
  | nil => cases mem
  | cons move _ ih =>
    cases List.mem_cons.mp mem with
    | inl head =>
      subst head
      exact .head _
    | inr tail =>
      cases move with
      | begin => exact .tail _ (ih tail)
      | advance | crash | elapse => exact ih tail

theorem Host.idle_of_ended (ran : host.machine.run start moves = some pool) (hf : ∀ id, start.calls id = none)
    (he : (begunIn moves).all (fun id => (pool.calls id).all fun call => call.program.ended) = true) :
    pool.Idle := by
  intro id call h
  have begun : ∃ req, .begin id req ∈ moves := by
    cases Host.begun_of_call h ran with
    | inl hea =>
      obtain ⟨_, there⟩ := hea
      rw [hf id] at there
      cases there
    | inr begun => exact begun
  obtain ⟨_, mem⟩ := begun
  have done := List.all_eq_true.mp he id (mem_begunIn mem)
  rw [h] at done
  exact done

/-- What a value that was read says of the one stored now. -/
structure Reading (version : α → Int) (seen stored : α) : Prop where
  older : version seen ≤ version stored
  same : version seen = version stored → stored = seen

namespace Reading

theorem refl (ver : α → Int) (seen : α) : Reading ver seen seen := ⟨Int.le_refl _, fun _ => rfl⟩

theorem newer (hr : Reading version seen stored) (hra : version stored < version stored') :
    Reading version seen stored' := by
  have older := hr.older
  constructor
  · omega
  · intro eq
    omega

end Reading
end CorePlatform.Theory
