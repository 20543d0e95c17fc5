import CorePlatform.Chat.Values
import CorePlatform.Theory.Machine

/-! # Read receipts of one member

A request reads the member's row, writes the horizon it makes of that, and mirrors its own message
id to Redis. Nothing ties the write to the row that was read, and the mirror takes any id. Both
horizons advance in the runs in which no greater id has come in between. -/

namespace CorePlatform.Chat

open Theory Function Option

inductive MarkReadPhase where
  | finding
  | updating (found : Option MessageId)
  | mirroring

structure MarkRead where
  messageId : MessageId
  phase : MarkReadPhase

structure Receipts where
  /-- `last_read` of the member's row. -/
  lastRead : Option MessageId
  /-- The member's field of the receipts hash in Redis. -/
  live : Option MessageId
  calls : Nat → Option MarkRead
  /-- The message ids of the requests so far, the latest first. -/
  acknowledged : List MessageId

/-- `Participant::mark_read`, and the horizon it leaves. -/
def markRead (lastRead : Option MessageId) (messageId : MessageId) : MessageId :=
  match lastRead with
  | some current => if messageId ≤ current then current else messageId
  | none => messageId

namespace Receipts

def fresh : Receipts := ⟨none, none, fun _ => none, []⟩

inductive Label where
  | begin (i : Nat) (messageId : MessageId)
  | advance (i : Nat)

def take (s : Receipts) (i : Nat) (call : MarkRead) : Receipts :=
  match call.phase with
  | .finding => { s with calls := update s.calls i (some { call with phase := .updating s.lastRead }) }
  | .updating found =>
    { s with
      lastRead := some (markRead found call.messageId)
      calls := update s.calls i (some { call with phase := .mirroring }) }
  | .mirroring => { s with live := some call.messageId, calls := update s.calls i none }

def step (s : Receipts) : Label → Option Receipts
  | .begin i messageId =>
    if (s.calls i).isSome then none
    else some { s with
      calls := update s.calls i (some ⟨messageId, .finding⟩), acknowledged := messageId :: s.acknowledged }
  | .advance i => (s.calls i).map (s.take i)

structure AtRest (s : Receipts) : Prop where
  idle : ∀ i, s.calls i = none
  durable : ∀ m ∈ s.acknowledged, some m ≤ s.lastRead
  live : ∀ m ∈ s.acknowledged, some m ≤ s.live
  known : ∀ m, s.lastRead = some m ∨ s.live = some m → m ∈ s.acknowledged

def machine : Machine Receipts Label where
  init := AtRest
  step := step

/-- The row has no greater horizon by now than the one that was found or the message's id, and the
mirror none than that id. -/
def InOrder (s : Receipts) (call : MarkRead) : Prop :=
  match call.phase with
  | .finding => True
  | .updating found => s.lastRead ≤ found ∨ s.lastRead ≤ some call.messageId
  | .mirroring => s.live ≤ some call.messageId

/-- Each of the two writes is made in order. -/
def Ordered (s : Receipts) : Label → Prop
  | .begin _ _ => True
  | .advance i => ∀ call, s.calls i = some call → s.InOrder call

def Sourced (s : Receipts) (call : MarkRead) : Prop :=
  call.messageId ∈ s.acknowledged ∧ ∀ m, call.phase = .updating (some m) → m ∈ s.acknowledged

structure Kept (s : Receipts) : Prop where
  durable : ∀ m ∈ s.acknowledged, some m ≤ s.lastRead ∨
    ∃ i call, s.calls i = some call ∧ call.messageId = m ∧ call.phase ≠ .mirroring
  live : ∀ m ∈ s.acknowledged, some m ≤ s.live ∨ ∃ i call, s.calls i = some call ∧ call.messageId = m
  known : ∀ m, s.lastRead = some m ∨ s.live = some m → m ∈ s.acknowledged
  sourced : ∀ i call, s.calls i = some call → s.Sourced call

theorem AtRest.kept (rests : AtRest s) : Kept s where
  durable m mem := .inl (rests.durable m mem)
  live m mem := .inl (rests.live m mem)
  known := rests.known
  sourced i _ h := by simp [rests.idle i] at h

theorem le_self (a : Option MessageId) : a ≤ a := by
  cases a <;> simp

theorem le_trans {a b c : Option MessageId} (h1 : a ≤ b) (h2 : b ≤ c) : a ≤ c := by
  cases a <;> cases b <;> cases c <;> simp_all
  exact BitVec.le_trans h1 h2

theorem le_markRead (found : Option MessageId) (messageId : MessageId) :
    found ≤ some (markRead found messageId) ∧ messageId ≤ markRead found messageId ∧
      (markRead found messageId = messageId ∨ found = some (markRead found messageId)) := by
  cases found with
  | none => simp [markRead]
  | some current =>
    simp only [markRead, some_le_some]
    split
    · exact ⟨BitVec.le_refl _, ‹_›, .inr rfl⟩
    · exact ⟨BitVec.le_of_lt (BitVec.not_le.mp ‹_›), BitVec.le_refl _, .inl rfl⟩

variable {s next : Receipts}

theorem Kept.begin (kept : Kept s) (hs : s.step (.begin i messageId) = some next) :
    Kept next ∧ s.lastRead ≤ next.lastRead ∧ s.live ≤ next.live := by
  simp only [step] at hs
  split at hs
  · cases hs
  rename_i free
  cases hs
  have others : ∀ {j call}, s.calls j = some call → update s.calls i (some ⟨messageId, .finding⟩) j = some call := by
    intro j call h
    rw [update_of_ne (by rintro rfl; simp [h] at free), h]
  refine ⟨⟨?_, ?_, ?_, ?_⟩, le_self _, le_self _⟩
  · intro m mem
    rcases List.mem_cons.mp mem with rfl | old
    · exact .inr ⟨i, _, update_self .., rfl, nofun⟩
    · exact (kept.durable m old).imp_right fun ⟨j, call, h, rest⟩ => ⟨j, call, others h, rest⟩
  · intro m mem
    rcases List.mem_cons.mp mem with rfl | old
    · exact .inr ⟨i, _, update_self .., rfl⟩
    · exact (kept.live m old).imp_right fun ⟨j, call, h, rest⟩ => ⟨j, call, others h, rest⟩
  · exact fun m shown => .tail _ (kept.known m shown)
  · intro j call h
    rcases update_cases h with ⟨-, eq⟩ | ⟨-, old⟩
    · cases eq
      exact ⟨.head _, nofun⟩
    · obtain ⟨asked, found⟩ := kept.sourced j call old
      exact ⟨.tail _ asked, fun m phase => .tail _ (found m phase)⟩

theorem underWay {p : MarkRead → Prop} (h : s.calls i = some call) (now : Option MarkRead)
    (under : ∃ j call', s.calls j = some call' ∧ p call') :
    (∃ j call', update s.calls i now j = some call' ∧ p call') ∨ p call := by
  obtain ⟨j, call', h', holds⟩ := under
  by_cases eq : j = i
  · subst eq
    cases h.symm.trans h'
    exact .inr holds
  · exact .inl ⟨j, call', by rw [update_of_ne eq, h'], holds⟩

theorem Kept.find (kept : Kept s) (h : s.calls i = some call) :
    Kept { s with calls := update s.calls i (some { call with phase := .updating s.lastRead }) } := by
  refine ⟨fun m mem => ?_, fun m mem => ?_, kept.known, fun j other h' => ?_⟩
  · refine (kept.durable m mem).imp_right fun under => (underWay h _ under).elim id fun mine => ?_
    exact ⟨i, _, update_self .., mine.1, nofun⟩
  · refine (kept.live m mem).imp_right fun under => (underWay h _ under).elim id fun mine => ?_
    exact ⟨i, _, update_self .., mine⟩
  · rcases update_cases h' with ⟨-, eq⟩ | ⟨-, old⟩
    · cases eq
      exact ⟨(kept.sourced i call h).1, fun m phase => kept.known m (.inl (MarkReadPhase.updating.inj phase))⟩
    · exact kept.sourced j other old

theorem Kept.update {found : Option MessageId} (kept : Kept s) (h : s.calls i = some call)
    (phase : call.phase = .updating found) (order : s.lastRead ≤ found ∨ s.lastRead ≤ some call.messageId) :
    Kept { s with
      lastRead := some (markRead found call.messageId)
      calls := Function.update s.calls i (some { call with phase := .mirroring }) } ∧
    s.lastRead ≤ some (markRead found call.messageId) := by
  obtain ⟨above, mine, made⟩ := le_markRead found call.messageId
  have up : s.lastRead ≤ some (markRead found call.messageId) :=
    order.elim (le_trans · above) (le_trans · (some_le_some.mpr mine))
  refine ⟨⟨fun m mem => ?_, fun m mem => ?_, fun m shown => ?_, fun j other h' => ?_⟩, up⟩
  · rcases kept.durable m mem with below | under
    · exact .inl (le_trans below up)
    · rcases underWay h _ under with still | ⟨rfl, -⟩
      · exact .inr still
      · exact .inl (some_le_some.mpr mine)
  · refine (kept.live m mem).imp_right fun under => (underWay h _ under).elim id fun mine => ?_
    exact ⟨i, _, update_self .., mine⟩
  · rcases shown with durable | live
    · cases durable
      rcases made with eq | eq
      · rw [eq]
        exact (kept.sourced i call h).1
      · exact (kept.sourced i call h).2 _ (eq ▸ phase)
    · exact kept.known m (.inr live)
  · rcases update_cases h' with ⟨-, eq⟩ | ⟨-, old⟩
    · cases eq
      exact ⟨(kept.sourced i call h).1, nofun⟩
    · exact kept.sourced j other old

theorem Kept.mirror (kept : Kept s) (h : s.calls i = some call) (phase : call.phase = .mirroring)
    (order : s.live ≤ some call.messageId) :
    Kept { s with live := some call.messageId, calls := Function.update s.calls i none } := by
  refine ⟨fun m mem => ?_, fun m mem => ?_, fun m shown => ?_, fun j other h' => ?_⟩
  · refine (kept.durable m mem).imp_right fun under => (underWay h none under).elim id fun mine => ?_
    exact absurd phase mine.2
  · rcases kept.live m mem with below | under
    · exact .inl (le_trans below order)
    · rcases underWay h none under with still | rfl
      · exact .inr still
      · exact .inl (le_self _)
  · rcases shown with durable | live
    · exact kept.known m (.inl durable)
    · cases live
      exact (kept.sourced i call h).1
  · exact kept.sourced j other (of_update_none h')

theorem Kept.step (kept : Kept s) (order : s.Ordered label) (hs : s.step label = some next) :
    Kept next ∧ s.lastRead ≤ next.lastRead ∧ s.live ≤ next.live := by
  cases label with
  | begin => exact kept.begin hs
  | advance i =>
    obtain ⟨call, h, rfl⟩ := map_eq_some_iff.mp hs
    have order := order call h
    cases phase : call.phase with
    | finding =>
      simp only [take, phase]
      exact ⟨kept.find h, le_self _, le_self _⟩
    | updating found =>
      simp only [InOrder, phase] at order
      simp only [take, phase]
      obtain ⟨kept, up⟩ := kept.update h phase order
      exact ⟨kept, up, le_self _⟩
    | mirroring =>
      simp only [InOrder, phase] at order
      simp only [take, phase]
      exact ⟨kept.mirror h phase order, le_self _, order⟩

/-- Both horizons advance throughout, and when all requests have returned they are at the greatest id. -/
theorem receipts_advance {first rest : List Label} {start s t : Receipts} (rests : machine.init start)
    (ordered : machine.Meets Ordered start (first ++ rest)) (begins : machine.run start first = some s)
    (ends : machine.run s rest = some t) :
    (s.lastRead ≤ t.lastRead ∧ s.live ≤ t.live) ∧
      ((∀ i, t.calls i = none) → ∀ m ∈ t.acknowledged, (∀ other ∈ t.acknowledged, other ≤ m) →
        t.lastRead = some m ∧ t.live = some m) := by
  have kept := machine.run_keeps (fun _ _ _ kept order hs => (Kept.step kept order hs).1) (AtRest.kept rests)
    ordered.first begins
  have keeps : ∀ u label next, (Kept u ∧ s.lastRead ≤ u.lastRead ∧ s.live ≤ u.live) → u.Ordered label →
      machine.step u label = some next → Kept next ∧ s.lastRead ≤ next.lastRead ∧ s.live ≤ next.live := by
    intro u label next ⟨kept, durable, live⟩ order hs
    obtain ⟨kept', durable', live'⟩ := kept.step order hs
    exact ⟨kept', le_trans durable durable', le_trans live live'⟩
  obtain ⟨kept, advanced⟩ := machine.run_keeps keeps ⟨kept, le_self _, le_self _⟩ (ordered.rest begins) ends
  refine ⟨advanced, fun idle m mem greatest => ?_⟩
  -- A receipt that is no less than the greatest id and an id itself is that one.
  have top : ∀ {receipt : Option MessageId}, some m ≤ receipt → (∀ m, receipt = some m → m ∈ t.acknowledged) →
      receipt = some m := by
    intro receipt below known
    cases receipt with
    | none => simp at below
    | some shown => exact congrArg some (BitVec.le_antisymm (greatest shown (known shown rfl)) (some_le_some.mp below))
  constructor
  · refine top ((kept.durable m mem).resolve_right ?_) fun m eq => kept.known m (.inl eq)
    rintro ⟨i, _, h, -⟩
    simp [idle i] at h
  · refine top ((kept.live m mem).resolve_right ?_) fun m eq => kept.known m (.inr eq)
    rintro ⟨i, _, h, -⟩
    simp [idle i] at h

instance : (a b : Option MessageId) → Decidable (a ≤ b)
  | none, _ => isTrue (by simp)
  | some _, none => isFalse (by simp)
  | some a, some b => decidable_of_iff (a ≤ b) some_le_some.symm

instance (s : Receipts) (call : MarkRead) : Decidable (s.InOrder call) := by
  unfold InOrder
  split <;> infer_instance

instance (s : Receipts) (label : Label) : Decidable (s.Ordered label) := by
  unfold Ordered
  split <;> infer_instance

/-- Two requests overlap, and a third one acknowledges the same message as the second. -/
def overlapping : List Label :=
  [.begin 0 5, .advance 0, .begin 1 7, .advance 1, .advance 0, .advance 1, .begin 2 7, .advance 0]

def finishing : List Label := [.advance 2, .advance 1, .advance 2, .advance 2]

theorem receipts_advance_overlapping : ∃ s t, machine.run fresh overlapping = some s ∧
    machine.run s finishing = some t ∧ (s.lastRead ≤ t.lastRead ∧ s.live ≤ t.live) ∧
    t.lastRead = some 7 ∧ t.live = some 7 := by
  have rests : machine.init fresh := ⟨fun _ => rfl, nofun, nofun, nofun⟩
  obtain ⟨s, begins⟩ : ∃ s, machine.run fresh overlapping = some s := ⟨_, rfl⟩
  obtain ⟨t, ends, acknowledged, idle⟩ : ∃ t, machine.run s finishing = some t ∧ t.acknowledged = [7, 7, 5] ∧
      ∀ i, t.calls i = none := by
    cases begins
    refine ⟨_, rfl, rfl, fun i => ?_⟩
    match i with
    | 0 | 1 | 2 | _ + 3 => rfl
  obtain ⟨advance, returned⟩ := receipts_advance rests (by decide) begins ends
  rw [acknowledged] at returned
  exact ⟨s, t, begins, ends, advance, returned idle 7 (by decide) (by simp)⟩

/-- A request for an older message takes the live receipt back. -/
theorem older_request_recedes : ∃ s t,
    machine.run fresh [.begin 0 7, .advance 0, .advance 0, .advance 0] = some s ∧
    machine.run s [.begin 0 5, .advance 0, .advance 0, .advance 0] = some t ∧ s.live = some 7 ∧ t.live = some 5 :=
  ⟨_, _, rfl, rfl, rfl, rfl⟩

end Receipts
end CorePlatform.Chat
