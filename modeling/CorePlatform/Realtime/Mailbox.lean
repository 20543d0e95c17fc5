import CorePlatform.Realtime.Gateway

/-! # The send queue beside the mailbox

A full mailbox drops its oldest frame. What the gateway puts between its producers and the writer is
a bounded channel, which refuses the newest one instead.
-/

namespace CorePlatform.Realtime

open Theory

variable {Frame : Type}

inductive EnqueueOutcome where
  | accepted
  | sheddedOldest

structure ConnectionMailbox (Frame : Type) where
  queue : List Frame
  capacity : Nat
  shedTotal : Nat

namespace ConnectionMailbox

variable (mailbox : ConnectionMailbox Frame)

def new (capacity : Nat) : ConnectionMailbox Frame := ⟨[], max capacity 1, 0⟩

def isFull : Bool := mailbox.capacity ≤ mailbox.queue.length

def enqueue (frame : Frame) : ConnectionMailbox Frame × EnqueueOutcome :=
  if mailbox.isFull then
    ({ mailbox with queue := mailbox.queue.tail ++ [frame], shedTotal := mailbox.shedTotal + 1 }, .sheddedOldest)
  else ({ mailbox with queue := mailbox.queue ++ [frame] }, .accepted)

def dequeue : Option Frame × ConnectionMailbox Frame :=
  (mailbox.queue.head?, { mailbox with queue := mailbox.queue.tail })

end ConnectionMailbox

/-- The queue of a socket, and a mailbox that is given the same frames. -/
structure Outbound (Frame : Type) where
  queue : List Frame
  mailbox : ConnectionMailbox Frame
  delivered : List Frame
  written : List Frame

namespace Outbound

inductive Label (Frame : Type) where
  | deliver (frame : Frame)
  | write

variable (cap : Nat)

def trySend (queue : List Frame) (frame : Frame) : List Frame :=
  if queue.length < cap then queue ++ [frame] else queue

theorem push_queue {socket : Socket} (live : socket.writing = true) :
    (socket.push cap frame).queue = trySend cap socket.queue frame := by
  simp only [Socket.push, Socket.accepts, live, trySend, Bool.true_and, decide_eq_true_eq]
  split <;> rfl

def start : Outbound Frame := ⟨[], .new cap, [], []⟩

def step (s : Outbound Frame) : Label Frame → Option (Outbound Frame)
  | .deliver frame => some
    { s with
      queue := trySend cap s.queue frame
      mailbox := (s.mailbox.enqueue frame).1
      delivered := s.delivered ++ [frame] }
  | .write =>
    match s.queue with
    | [] => none
    | frame :: queue => some { s with queue, mailbox := s.mailbox.dequeue.2, written := s.written ++ [frame] }

def machine : Machine (Outbound Frame) (Label Frame) := ⟨(· = start cap), step cap⟩

def hasRoom (s : Outbound Frame) : Label Frame → Bool
  | .deliver _ => s.queue.length < cap
  | .write => true

structure Refines (s : Outbound Frame) : Prop where
  same : s.mailbox.queue = s.queue
  whole : s.delivered = s.written ++ s.queue
  bound : s.queue.length ≤ cap
  capacity : cap ≤ s.mailbox.capacity

variable {cap}

theorem Refines.step {s : Outbound Frame} (hr : Refines cap s) (room : hasRoom cap s label = true)
    (hs : step cap s label = some s') : Refines cap s' := by
  obtain ⟨same, whole, bound, capacity⟩ := hr
  cases label with
  | deliver frame =>
    have room : s.queue.length < cap := by simpa [hasRoom] using room
    have free : s.mailbox.isFull = false := by
      simp only [ConnectionMailbox.isFull, same, decide_eq_false_iff_not]
      omega
    cases hs
    constructor <;> grind [trySend, ConnectionMailbox.enqueue]
  | write =>
    cases hq : s.queue with
    | nil => simp [Outbound.step, hq] at hs
    | cons frame queue =>
      simp only [Outbound.step, hq] at hs
      cases hs
      constructor <;> grind [ConnectionMailbox.dequeue]

/-- As long as no frame finds the queue full, the queue is the mailbox: what was delivered and not
written yet, in order. -/
theorem mailbox_refined (cap : Nat) (labels : List (Label Frame)) (s : Outbound Frame)
    (room : (machine cap).Meets (fun s label => hasRoom cap s label = true) (start cap) labels)
    (ran : (machine cap).run (start cap) labels = some s) :
    s.queue = s.mailbox.queue ∧ s.delivered = s.written ++ s.queue ∧ s.queue.length ≤ cap := by
  have begins : Refines cap (start cap : Outbound Frame) := ⟨rfl, rfl, Nat.zero_le _, Nat.le_max_left ..⟩
  have hr := Machine.run_keeps (fun _ _ _ hr => hr.step) begins room ran
  exact ⟨hr.same.symm, hr.whole, hr.bound⟩

/-- The writer keeps up with four frames, two of them waiting at a time. -/
def inTurn : List (Label String) :=
  [.deliver "first", .deliver "second", .write, .deliver "third", .write, .deliver "fourth"]

theorem mailbox_refined_in_turn : ∃ s, (machine 2).run (start 2) inTurn = some s ∧
    s.written = ["first", "second"] ∧ s.queue = ["third", "fourth"] ∧ s.queue = s.mailbox.queue ∧
    s.delivered = s.written ++ s.queue ∧ s.queue.length ≤ 2 :=
  ⟨_, rfl, rfl, rfl, mailbox_refined 2 inTurn _ (by decide) rfl⟩

/-- A second frame comes before the first is written. -/
theorem newest_frame_refused :
    ((machine 1).run (start 1) [.deliver "first", .deliver "second"]).map (fun s => (s.queue, s.mailbox.queue)) =
      some (["first"], ["second"]) := rfl

end Outbound
end CorePlatform.Realtime
