import Mathlib.Data.List.Sort
import CorePlatform.Theory.Machine
import CorePlatform.Theory.Server
import CorePlatform.Auth.Values

/-! # The outbox and the relays that drain it

Events are rows of `auth_outbox`, which any number of relay replicas drain. A tick claims the oldest
rows that nobody has locked, publishes them in turn until one fails, deletes what it published and
commits; an error or a crash rolls it back. How an event is written as JSON and read back is left to
`Serde`.

A relay skips rows that another one has claimed and takes later rows of the same account. So the
first publications of an account keep the order of the rows only in the runs in which no relay does
that while the other still has the earlier row to publish. -/

namespace CorePlatform.Auth

open Theory

/-- `event_key`. -/
def DomainEvent.accountId : DomainEvent → AccountId
  | .sessionIssued _ accountId .. | .sessionRevoked _ accountId .. | .subjectLinked accountId .. => accountId

structure Serde (Value : Type) where
  toValue : DomainEvent → Except String Value
  fromValue : Value → Except String DomainEvent

/-- `auth_outbox`. -/
structure OutboxRow (Value : Type) where
  createdAt : Int
  id : Uuid
  payload : Value

/-- `ORDER BY created_at, id`, without ties. -/
def OutboxRow.before {Value : Type} (row other : OutboxRow Value) : Prop :=
  row.createdAt < other.createdAt ∨ row.createdAt = other.createdAt ∧ row.id < other.id
  deriving Decidable

namespace OutboxRelay

variable {Value : Type} (serde : Serde Value)

def batch : Nat := 64

/-- A tick between its claim and its end. -/
structure Drain (Value : Type) where
  /-- The rows under its lock. -/
  claimed : List Uuid
  todo : List (OutboxRow Value)
  published : List Uuid
  publishFailure : Option AuthError

structure Replica (Value : Type) where
  drain : Option (Drain Value)
  returned : Option (Except AuthError Nat)

structure State (Value : Type) where
  table : List (OutboxRow Value)
  replicas : List (Replica Value)
  /-- The rows whose publications reached the sink, the earliest first. -/
  sink : List (OutboxRow Value)
  /-- The events that reached it, each with the row it was read from. -/
  received : List (Uuid × DomainEvent)
  /-- All rows that were ever enqueued, in order. -/
  enqueued : List (OutboxRow Value)
  /-- The events they were written from. -/
  sent : List (Uuid × DomainEvent)

inductive Label where
  | enqueue (createdAt : Int) (id : Uuid) (event : DomainEvent)
  | claim (replica : Nat)
  | publish (replica : Nat) (service : Service)
  | finish (replica : Nat) (service : Service)
  | crash (replica : Nat)

namespace Drain

def next (drain : Drain Value) (hyphenated : Uuid → String) (row : OutboxRow Value) (rest : List (OutboxRow Value))
    (service : Service) : Drain Value :=
  match serde.fromValue row.payload, service with
  | .error e, _ =>
    { drain with
      todo := []
      publishFailure :=
        some (.eventPublishFailed ("outbox row " ++ hyphenated row.id ++ " undeserializable: " ++ e)) }
  | .ok _, .served => { drain with todo := rest, published := drain.published ++ [row.id] }
  | .ok _, .refused reason | .ok _, .replyLost reason =>
    { drain with todo := [], publishFailure := some (.eventPublishFailed reason) }

/-- Only a batch that stalled as a whole is an error. -/
def result (drain : Drain Value) : Except AuthError Nat :=
  match drain.publishFailure with
  | some e => if drain.published.isEmpty then .error e else .ok drain.published.length
  | none => .ok drain.published.length

end Drain

namespace State

variable (s : State Value)

def locked (row : OutboxRow Value) : Bool :=
  s.replicas.any fun replica => replica.drain.any fun drain => drain.claimed.contains row.id

/-- `SELECT … ORDER BY created_at, id LIMIT 64 FOR UPDATE SKIP LOCKED`. -/
def claimable : List (OutboxRow Value) :=
  ((s.table.insertionSort fun row other => ¬ other.before row).filter fun row => !s.locked row).take batch

def start (n : Nat) : State Value := ⟨[], List.replicate n ⟨none, none⟩, [], [], [], []⟩

def setReplica (i : Nat) (replica : Replica Value) : State Value :=
  { s with replicas := s.replicas.set i replica }

/-- The event with which the sink is reached. -/
def arrives (row : OutboxRow Value) (service : Service) : Option DomainEvent :=
  match serde.fromValue row.payload with
  | .ok event => if service.reaches then some event else none
  | .error _ => none

/-- `DELETE … WHERE id = ANY(published)`. -/
def delete (published : List Uuid) : List (OutboxRow Value) :=
  s.table.filter fun row => !published.contains row.id

def step (hyphenated : Uuid → String) : Label → Option (State Value)
  | .enqueue createdAt id event =>
    match serde.toValue event with
    | .ok payload =>
      let row : OutboxRow Value := ⟨createdAt, id, payload⟩
      -- The keys only grow, and an identifier is drawn once.
      if ∀ other ∈ s.enqueued, other.before row ∧ other.id ≠ id then
        some { s with
          table := s.table ++ [row]
          enqueued := s.enqueued ++ [row]
          sent := s.sent ++ [(id, event)] }
      else none
    | .error _ => none
  | .claim i =>
    match s.replicas[i]? with
    | some ⟨none, returned⟩ =>
      some (s.setReplica i ⟨some ⟨s.claimable.map OutboxRow.id, s.claimable, [], none⟩, returned⟩)
    | _ => none
  | .publish i service =>
    match s.replicas[i]? with
    | some ⟨some drain, returned⟩ =>
      match drain.todo with
      | row :: rest =>
        let s := s.setReplica i ⟨some (drain.next serde hyphenated row rest service), returned⟩
        match arrives serde row service with
        | some event => some { s with sink := s.sink ++ [row], received := s.received ++ [(row.id, event)] }
        | none => some s
      | [] => none
    | _ => none
  | .finish i service =>
    match s.replicas[i]? with
    | some ⟨some ⟨_, [], published, publishFailure⟩, _⟩ =>
      let drain : Drain Value := ⟨[], [], published, publishFailure⟩
      let failed reason := Except.error (.eventPublishFailed ("outbox drain: " ++ reason))
      match service with
      | .served => some { (s.setReplica i ⟨none, some drain.result⟩) with table := s.delete published }
      | .refused reason => some (s.setReplica i ⟨none, some (failed reason)⟩)
      | .replyLost reason =>
        some { (s.setReplica i ⟨none, some (failed reason)⟩) with table := s.delete published }
    | _ => none
  | .crash i =>
    match s.replicas[i]? with
    | some ⟨some _, returned⟩ => some (s.setReplica i ⟨none, returned⟩)
    | _ => none

def machine (hyphenated : Uuid → String) : Machine (State Value) Label where
  init s := ∃ n, s = start n
  step s := s.step serde hyphenated

end State
end OutboxRelay
end CorePlatform.Auth
