import Mathlib.Data.Finset.Card
import CorePlatform.Theory.Conformance

/-! # Calls that keep to a protocol

A protocol follows a call from answer to answer: what it has in hand, and what it may ask for with
that. A program keeps to the protocol as long as its answers are true, and ends only with what it
may still have in hand then.

What the calls of a pool have in hand can be counted. A call that wrote one part of a change and
owes the other is such a count, and a pool with nothing under way owes nothing. -/

namespace CorePlatform.Theory

variable {σ ρ ω Op : Type} {Reply : Op → Type} {ε α β κ : Type}

structure Protocol (Op : Type) (Reply : Op → Type) (ε κ : Type) where
  fits : κ → Op → Prop
  /-- What is in hand after the answer. -/
  moved : κ → (op : Op) → Except ε (Reply op) → κ

namespace Protocol

variable (protocol : Protocol Op Reply ε κ) (truthful : (op : Op) → Except ε (Reply op) → Prop)

def Follows (ends : κ → Except ε α → Prop) : κ → Program Op Reply ε α → Prop
  | hand, .ok value => ends hand (.ok value)
  | hand, .error e => ends hand (.error e)
  | hand, .call op next =>
    protocol.fits hand op ∧ ∀ answer, truthful op answer → Follows ends (protocol.moved hand op answer) (next answer)

def inHand (start : ρ → κ) (call : Call ρ Op Reply ε α) : κ :=
  call.heard.foldr (fun entry hand => protocol.moved hand entry.1 entry.2) (start call.request)

variable {protocol truthful}

theorem Follows.bind {first : Program Op Reply ε β} {f : β → Program Op Reply ε α}
    {halfway : κ → Except ε β → Prop} (hf : protocol.Follows truthful halfway hand first)
    (ho : ∀ hand value, halfway hand (.ok value) → protocol.Follows truthful ends hand (f value))
    (hfa : ∀ hand e, halfway hand (.error e) → ends hand (.error e)) :
    protocol.Follows truthful ends hand (first >>= f) := by
  induction first generalizing hand with
  | ok value => exact ho hand value hf
  | error e => exact hfa hand e hf
  | call _ _ ih => exact ⟨hf.1, fun ans told => ih ans (hf.2 ans told)⟩

theorem Follows.perform {op : Op} {f : Reply op → Program Op Reply ε α} (fits : protocol.fits hand op)
    (ho : ∀ reply, truthful op (.ok reply) →
      protocol.Follows truthful ends (protocol.moved hand op (.ok reply)) (f reply))
    (hf : ∀ e, truthful op (.error e) → ends (protocol.moved hand op (.error e)) (.error e)) :
    protocol.Follows truthful ends hand (Program.perform op >>= f) := by
  refine ⟨fits, fun ans told => ?_⟩
  cases ans with
  | ok reply => exact ho reply told
  | error e => exact hf e told

theorem Follows.lift {res : Except ε β}
    (ho : ∀ value, res = .ok value → protocol.Follows truthful ends hand (f value))
    (hf : ∀ e, res = .error e → ends hand (.error e)) :
    protocol.Follows truthful ends hand ((liftM res : Program Op Reply ε β) >>= f) := by
  cases res with
  | ok value => exact ho value rfl
  | error e => exact hf e rfl

theorem Follows.result {res : Except ε α} (ending : ends hand res) :
    protocol.Follows truthful ends hand (liftM res : Program Op Reply ε α) := by
  cases res with
  | ok | error => exact ending

theorem Follows.of_confined (hc : program.Confined allowed fun _ => True)
    (fits : ∀ op, allowed op → protocol.fits hand op)
    (hs : ∀ op ans, allowed op → protocol.moved hand op ans = hand) (he : ∀ result, ends hand result) :
    protocol.Follows truthful ends hand program := by
  induction program with
  | ok value => exact he (.ok value)
  | error e => exact he (.error e)
  | call op _ ih =>
    refine ⟨fits op hc.1, fun ans _ => ?_⟩
    rw [hs op ans hc.1]
    exact ih ans (hc.2 ans fun _ _ => trivial)

end Protocol

/-- Every call of the pool keeps to the protocol. -/
def Pool.Following (protocol : Protocol Op Reply ε κ) (truthful : (op : Op) → Except ε (Reply op) → Prop)
    (start : ρ → κ) (ends : κ → Except ε α → Prop) (pool : Pool σ ρ Op Reply ε α) : Prop :=
  ∀ id call, pool.calls id = some call → protocol.Follows truthful ends (protocol.inHand start call) call.program

section

variable {host : Host σ ρ ω Op Reply ε α} {pool : Pool σ ρ Op Reply ε α}

theorem Pool.Following.step (hf : pool.Following protocol truthful start ends)
    (hs : host.Steps pool move next)
    (told : ∀ {id req op rest heard service}, move = .advance id service →
      pool.calls id = some ⟨req, .call op rest, heard⟩ →
      truthful op (host.server.perform pool.world op service).2)
    (ha : ∀ {id req world prog}, move = .begin id req →
      host.accept pool.world req = some (world, prog) →
      protocol.Follows truthful ends (start req) prog) :
    next.Following protocol truthful start ends := by
  intro id call h
  cases hs.origin h with
  | old before => exact hf id call before
  | begun moved accepted => exact ha moved accepted
  | advanced _ moved waiting => exact (hf _ _ waiting).2 _ (told moved waiting)

theorem Pool.Following.ended (hfo : pool.Following protocol truthful start ends) {id : Nat}
    {call : Call ρ Op Reply ε α} (h : pool.calls id = some call) (done : call.program.ended = true) :
    ∃ result, ends (protocol.inHand start call) result := by
  have hf := hfo id call h
  generalize call.program = prog at hf done
  cases prog with
  | ok | error => exact ⟨_, hf⟩
  | call => cases done

end

/-- So many calls of the pool owe something. -/
def Pool.Owing (owes : Call ρ Op Reply ε α → Bool) (pool : Pool σ ρ Op Reply ε α) (count : Nat) : Prop :=
  ∃ ids : Finset Nat, (∀ id, id ∈ ids ↔ (pool.calls id).any owes = true) ∧ ids.card = count

section

variable {pool : Pool σ ρ Op Reply ε α}

theorem Pool.owing_nothing (free : ∀ id, (pool.calls id).any owes = false) : pool.Owing owes 0 := by
  refine ⟨∅, fun id => ?_, rfl⟩
  simp [free id]

theorem Pool.Owing.update (ho : pool.Owing owes count) (id : Nat) (entry : Option (Call ρ Op Reply ε α))
    (world : σ) : ∃ count', Pool.Owing owes ⟨world, Function.update pool.calls id entry⟩ count' ∧
      count' + ((pool.calls id).any owes).toNat = count + (entry.any owes).toNat := by
  obtain ⟨ids, members, rfl⟩ := ho
  have others : ∀ i, i ≠ id → (Function.update pool.calls id entry i).any owes = (pool.calls i).any owes := by
    intro i other
    rw [Function.update_of_ne other]
  have erased : (ids.erase id).card + ((pool.calls id).any owes).toNat = ids.card := by
    by_cases was : id ∈ ids
    · rw [(members id).mp was]
      exact Finset.card_erase_add_one was
    · have wasNot : (pool.calls id).any owes = false := by simpa using mt (members id).mpr was
      rw [Finset.erase_eq_of_notMem was, wasNot]
      rfl
  cases owed : entry.any owes with
  | true =>
    refine ⟨(insert id (ids.erase id)).card, ⟨insert id (ids.erase id), fun i => ?_, rfl⟩, ?_⟩
    · by_cases eq : i = id
      · subst eq
        simp [owed]
      · simp only [Finset.mem_insert, Finset.mem_erase, eq, false_or, ne_eq, not_false_eq_true, true_and,
          others i eq, members i]
    · rw [Finset.card_insert_of_notMem (Finset.notMem_erase id ids)]
      simp only [Bool.toNat_true]
      omega
  | false =>
    refine ⟨(ids.erase id).card, ⟨ids.erase id, fun i => ?_, rfl⟩, ?_⟩
    · by_cases eq : i = id
      · subst eq
        simp [owed]
      · simp only [Finset.mem_erase, eq, ne_eq, not_false_eq_true, true_and, others i eq, members i]
    · simp only [Bool.toNat_false]
      omega

theorem Pool.Owing.eq_zero (ho : pool.Owing owes count)
    (free : ∀ id call, pool.calls id = some call → owes call = false) : count = 0 := by
  obtain ⟨_, members, rfl⟩ := ho
  refine Finset.card_eq_zero.mpr (Finset.eq_empty_of_forall_notMem fun id mem => ?_)
  have owed := (members id).mp mem
  cases h : pool.calls id with
  | none =>
    rw [h] at owed
    cases owed
  | some call =>
    rw [h, Option.any_some, free id call h] at owed
    cases owed

end

/-- Every call keeps to the protocol, and the world stands as it should while so much is owed. -/
structure Pool.Balanced (protocol : Protocol Op Reply ε κ) (truthful : (op : Op) → Except ε (Reply op) → Prop)
    (start : ρ → κ) (ends : κ → Except ε α → Prop) (owes : κ → Bool) (holds : σ → Nat → Prop)
    (pool : Pool σ ρ Op Reply ε α) : Prop where
  following : pool.Following protocol truthful start ends
  owing : ∃ owed, pool.Owing (fun call => owes (protocol.inHand start call)) owed ∧ holds pool.world owed

namespace Pool.Balanced

variable {host : Host σ ρ ω Op Reply ε α} {pool : Pool σ ρ Op Reply ε α}

theorem of_empty (he : pool.calls = fun _ => none) (initially : holds pool.world 0) :
    pool.Balanced protocol truthful start ends owes holds := by
  refine ⟨?_, 0, Pool.owing_nothing ?_, initially⟩
  · intro id call h
    rw [he] at h
    cases h
  · intro id
    rw [he]
    rfl

theorem step (hb : pool.Balanced protocol truthful start ends owes holds) (hs : host.Steps pool move next)
    (hf : move.faultless = true)
    (told : ∀ {owed} op, holds pool.world owed → truthful op (host.server.serve pool.world op).2)
    (hac : ∀ {id req world prog}, move = .begin id req →
      host.accept pool.world req = some (world, prog) →
      protocol.Follows truthful ends (start req) prog ∧ owes (start req) = false ∧ world = pool.world)
    (hse : ∀ {id req op rest heard owed owed'}, move = .advance id .served →
      pool.calls id = some ⟨req, .call op rest, heard⟩ →
      let hand := protocol.inHand start (⟨req, .call op rest, heard⟩ : Call ρ Op Reply ε α)
      protocol.fits hand op → owed' + (owes hand).toNat =
        owed + (owes (protocol.moved hand op (host.server.serve pool.world op).2)).toNat →
      holds pool.world owed → holds (host.server.serve pool.world op).1 owed')
    (he : ∀ {ev world owed}, move = .elapse ev → host.elapse pool.world ev = some world →
      holds pool.world owed → holds world owed) :
    next.Balanced protocol truthful start ends owes holds := by
  obtain ⟨owed, owing, kept⟩ := hb.owing
  constructor
  · apply hb.following.step hs
    · intro id req op rest heard svc hm hw
      subst hm
      have served : svc = .served := of_decide_eq_true hf
      subst served
      exact told op kept
    · intro id req world prog hm ha
      exact (hac hm ha).1
  · cases hs with
    | @begun id req _ prog free ha =>
      obtain ⟨-, nothing, rfl⟩ := hac rfl ha
      obtain ⟨owed', owing', count⟩ := owing.update id (some ⟨req, prog, []⟩) pool.world
      rw [free] at count
      have eq : owed' = owed := by simpa [Protocol.inHand, nothing] using count
      subst eq
      exact ⟨owed', owing', kept⟩
    | @advanced id req op rest heard svc hw =>
      have served : svc = .served := of_decide_eq_true hf
      subst served
      obtain ⟨owed', owing', count⟩ := owing.update id (some ⟨req, rest (host.server.serve pool.world op).2,
        ⟨op, (host.server.serve pool.world op).2⟩ :: heard⟩) (host.server.serve pool.world op).1
      rw [hw] at count
      exact ⟨owed', owing', hse rfl hw (hb.following _ _ hw).1 count kept⟩
    | crashed => cases hf
    | elapsed changed => exact ⟨owed, owing, he rfl changed kept⟩

theorem settled (hb : pool.Balanced protocol truthful start ends owes holds) (idle : pool.Idle)
    (free : ∀ hand res, ends hand res → owes hand = false) : holds pool.world 0 := by
  obtain ⟨owed, owing, kept⟩ := hb.owing
  have nothing : owed = 0 := by
    apply owing.eq_zero
    intro id call h
    obtain ⟨res, he⟩ := hb.following.ended h (idle id call h)
    exact free _ res he
  rwa [nothing] at kept

end Pool.Balanced
end CorePlatform.Theory
