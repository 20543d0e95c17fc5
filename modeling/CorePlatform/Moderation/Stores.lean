import Mathlib.Order.Defs.LinearOrder
import CorePlatform.Theory.Rows
import CorePlatform.Theory.Server
import CorePlatform.Moderation.Aggregates

/-! # What the moderation handlers call

The Postgres tables, the restriction flags in Redis, the event publisher, the account directory,
the screening corpus and the classifiers. Every save is an upsert by primary key; none looks at
a version. A flag is read and then written or deleted in a second call, and runs out by itself.
-/

namespace CorePlatform.Moderation

open Theory Function List
open Auth (Uuid nanosPerSecond numSeconds toMicros)

/-- `enforcements`. -/
structure EnforcementTable where
  rows : List EnforcementAction
  ids : (rows.map EnforcementAction.id).Nodup

/-- The flag of an actor: the version it was written under and when it runs out. -/
structure Restriction where
  version : EnforcementVersion
  until_ : Option Int

structure ContentHash where
  algorithm : String
  value : String

structure ScreenMatch where
  categories : List PolicyCategory
  reference : String

structure World where
  clock : Int
  cases : CaseId → Option Case
  decisions : DecisionId → Option Decision
  enforcements : EnforcementTable
  ledgers : ActorId → Option PenaltyLedger
  appeals : AppealId → Option Appeal
  projection : ActorId → Option Restriction
  events : List DomainEvent
  directory : ActorId → Bool
  corpus : List ContentHash → Option String → List PolicyCategory → Option ScreenMatch
  drawn : List Uuid

inductive Op where
  | findCase (id : CaseId)
  | saveCase (case : Case)
  | appendDecision (decision : Decision)
  | findDecision (id : DecisionId)
  | nextVersion (subject : SubjectRef)
  | saveEnforcement (enforcement : EnforcementAction)
  | listActiveForActor (actorId : ActorId)
  | loadLedger (actorId : ActorId)
  | saveLedger (ledger : PenaltyLedger)
  | saveAppeal (appeal : Appeal)
  | findAppeal (id : AppealId)
  | getRestriction (actorId : ActorId)
  | setRestriction (actorId : ActorId) (version : EnforcementVersion) (expiresAt : Option Int)
  | deleteRestriction (actorId : ActorId)
  | actorExists (actorId : ActorId)
  | screen (hashes : List ContentHash) (text : Option String) (categories : List PolicyCategory)
  | requestClassification (subject : SubjectRef)
  | publish (event : DomainEvent)

abbrev Op.Reply : Op → Type
  | .findCase _ => Option Case
  | .findDecision _ => Option Decision
  | .nextVersion _ => EnforcementVersion
  | .listActiveForActor _ => List EnforcementAction
  | .loadLedger _ => PenaltyLedger
  | .findAppeal _ => Option Appeal
  | .getRestriction _ => Option EnforcementVersion
  | .actorExists _ => Bool
  | .screen _ _ _ => Option ScreenMatch
  | _ => Unit

/-- An aggregate that is read from its row has no event pending. -/
def Case.reconstitute (row : Case) : Case := { row with pendingEvents := [] }

def Case.stored (case : Case) : Case := { case with openedAt := toMicros case.openedAt, pendingEvents := [] }

/-- What an upsert makes of the row that is there: the subject and the opening stay. -/
def Case.written (case row : Case) : Case :=
  { row with
    status := case.status
    category := case.category
    queue := case.queue
    priority := case.priority
    assignee := case.assignee
    signals := case.signals
    version := case.version }

def Decision.stored (decision : Decision) : Decision := { decision with decidedAt := toMicros decision.decidedAt }

def Appeal.reconstitute (row : Appeal) : Appeal := { row with pendingEvents := [] }

def Appeal.stored (appeal : Appeal) : Appeal :=
  { appeal with
    filedAt := toMicros appeal.filedAt
    resolvedAt := appeal.resolvedAt.map toMicros
    pendingEvents := [] }

def Appeal.written (appeal row : Appeal) : Appeal :=
  { row with status := appeal.status, resolvedAt := appeal.resolvedAt.map toMicros }

namespace EnforcementAction

def reconstitute (row : EnforcementAction) : EnforcementAction := { row with pendingEvents := [] }

def stored (enforcement : EnforcementAction) : EnforcementAction :=
  { enforcement with
    appliedAt := toMicros enforcement.appliedAt
    expiresAt := enforcement.expiresAt.map toMicros
    reversedAt := enforcement.reversedAt.map toMicros
    pendingEvents := [] }

def written (enforcement row : EnforcementAction) : EnforcementAction :=
  { row with status := enforcement.status, reversedAt := enforcement.reversedAt.map toMicros }

end EnforcementAction

namespace EnforcementTable

def empty : EnforcementTable := ⟨[], List.nodup_nil⟩

def update (table : EnforcementTable) (enforcement : EnforcementAction) : EnforcementTable where
  rows := Rows.update (fun row => decide (row.id = enforcement.id)) enforcement.written table.rows
  ids := Rows.nodup_update (fun _ => rfl) table.ids

def save (table : EnforcementTable) (enforcement : EnforcementAction) : EnforcementTable :=
  if known : enforcement.id ∈ table.rows.map EnforcementAction.id then table.update enforcement
  else ⟨enforcement.stored :: table.rows, List.nodup_cons.mpr ⟨known, table.ids⟩⟩

/-- `COALESCE(MAX(version), 0)` over the enforcements of a subject, and the next version. -/
def nextVersion (table : EnforcementTable) (subject : SubjectRef) : EnforcementVersion :=
  EnforcementVersion.next
    (((table.rows.filter fun row => row.subject.sameContent subject).map EnforcementAction.version).max?.getD 0)

def listActiveForActor (table : EnforcementTable) (actorId : ActorId) : List EnforcementAction :=
  (table.rows.filter fun row => decide (row.actorId = actorId) && decide (row.status = .active)).map
    EnforcementAction.reconstitute

variable {table : EnforcementTable}

theorem rows_save_new (hf : ∀ row ∈ table.rows, row.id ≠ enf.id) :
    (table.save enf).rows = enf.stored :: table.rows := by
  have ha : enf.id ∉ table.rows.map EnforcementAction.id := by
    intro hk
    obtain ⟨row, mem, eq⟩ := mem_map.mp hk
    exact hf row mem eq
  simp [save, ha]

theorem rows_save_known (mem : row ∈ table.rows) (eq : row.id = enf.id) :
    (table.save enf).rows = Rows.update (fun row => decide (row.id = enf.id)) enf.written table.rows := by
  have hk : enf.id ∈ table.rows.map EnforcementAction.id := mem_map.mpr ⟨row, mem, eq⟩
  simp only [save, hk, dif_pos]
  rfl

theorem row_eq (mem : row ∈ table.rows) (member' : other ∈ table.rows) (eq : row.id = other.id) : row = other :=
  inj_on_of_nodup_map table.ids mem member' eq

theorem mem_listActiveForActor :
    enforcement ∈ table.listActiveForActor actorId ↔
      ∃ row ∈ table.rows, row.actorId = actorId ∧ row.status = .active ∧ row.reconstitute = enforcement := by
  simp only [listActiveForActor, mem_map, mem_filter, Bool.and_eq_true, decide_eq_true_eq, and_assoc]

end EnforcementTable

/-- Nothing is stored; every account is known. -/
def World.empty : World where
  clock := 0
  cases _ := none
  decisions _ := none
  enforcements := .empty
  ledgers _ := none
  appeals _ := none
  projection _ := none
  events := []
  directory _ := true
  corpus _ _ _ := none
  drawn := []

namespace World

def after (w : World) (duration : Nat) : World := { w with clock := w.clock + duration }

def saveCase (w : World) (case : Case) : World :=
  { w with cases := update w.cases case.id (some ((w.cases case.id).elim case.stored case.written)) }

/-- A decision is never overwritten. -/
def appendDecision (w : World) (decision : Decision) : World :=
  { w with
    decisions := update w.decisions decision.id (some ((w.decisions decision.id).getD decision.stored)) }

def saveAppeal (w : World) (appeal : Appeal) : World :=
  { w with
    appeals := update w.appeals appeal.id (some ((w.appeals appeal.id).elim appeal.stored appeal.written)) }

/-- The flag as Redis still holds it. -/
def flag (w : World) (actorId : ActorId) : Option Restriction :=
  (w.projection actorId).filter fun restriction => restriction.until_.all (w.clock < ·)

def isActorRestricted (w : World) (actorId : ActorId) : Bool := (w.flag actorId).isSome

/-- The flag for an expiry: whole seconds from now, and one at least. -/
def restriction (w : World) (version : EnforcementVersion) (expiresAt : Option Int) : Restriction :=
  ⟨version, expiresAt.map fun expiry => w.clock + max (numSeconds (expiry - w.clock)) 1 * nanosPerSecond⟩

def serve (w : World) : (op : Op) → World × Except ModerationError op.Reply
  | .findCase id => (w, .ok ((w.cases id).map Case.reconstitute))
  | .saveCase case => (w.saveCase case, .ok ())
  | .appendDecision decision => (w.appendDecision decision, .ok ())
  | .findDecision id => (w, .ok (w.decisions id))
  | .nextVersion subject => (w, .ok (w.enforcements.nextVersion subject))
  | .saveEnforcement enforcement => ({ w with enforcements := w.enforcements.save enforcement }, .ok ())
  | .listActiveForActor actorId => (w, .ok (w.enforcements.listActiveForActor actorId))
  | .loadLedger actorId => (w, .ok ((w.ledgers actorId).getD (.empty actorId)))
  | .saveLedger ledger =>
    ({ w with ledgers := update w.ledgers ledger.actorId (some ledger) }, .ok ())
  | .saveAppeal appeal => (w.saveAppeal appeal, .ok ())
  | .findAppeal id => (w, .ok ((w.appeals id).map Appeal.reconstitute))
  | .getRestriction actorId => (w, .ok ((w.flag actorId).map Restriction.version))
  | .setRestriction actorId version expiresAt =>
    ({ w with projection := update w.projection actorId (some (w.restriction version expiresAt)) }, .ok ())
  | .deleteRestriction actorId => ({ w with projection := update w.projection actorId none }, .ok ())
  | .actorExists actorId => (w, .ok (w.directory actorId))
  | .screen hashes text categories => (w, .ok (w.corpus hashes text categories))
  | .requestClassification _ => (w, .ok ())
  | .publish event => ({ w with events := w.events ++ [event] }, .ok ())

end World

def server : Server World Op Op.Reply ModerationError where
  serve := World.serve
  failure
    | .getRestriction _, reason | .setRestriction _ _ _, reason | .deleteRestriction _, reason => .cache reason
    | .actorExists _, _ => .accountDirectoryUnavailable
    -- A lookup that does not answer in time is given up.
    | .screen _ _ _, reason => if reason = "elapsed" then .screenUnavailable else .hashCorpusUnavailable
    | .requestClassification _, _ => .classifierUnavailable
    | .publish _, reason => .eventPublishFailed reason
    | _, reason => .records reason

abbrev Calling := Program Op Op.Reply ModerationError

@[simp] theorem server_serve : server.serve w op = w.serve op := rfl

end CorePlatform.Moderation
