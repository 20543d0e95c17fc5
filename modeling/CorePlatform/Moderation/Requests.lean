import CorePlatform.Theory.Interleaving
import CorePlatform.Moderation.Handlers

/-! # Requests to the moderation service

A request draws its identifiers when it is taken up, and they are new then. Requests come one
at a time, or any number of them run against the same stores, one call of one at a time.
-/

namespace CorePlatform.Moderation

open Theory
open Auth (Uuid)

inductive Request where
  | openCase (cmd : OpenCaseCommand) (correlationId : Uuid)
  | assignCase (cmd : AssignCaseCommand)
  | decideCase (cmd : DecideCaseCommand) (correlationId : Uuid) (decisionId : DecisionId)
      (enforcementId : EnforcementId)
  | fileAppeal (cmd : FileAppealCommand) (appealId : AppealId)
  | resolveAppeal (cmd : ResolveAppealCommand) (correlationId : Uuid) (reversalId : DecisionId)
  | ingestReport (cmd : IngestReportCommand) (correlationId : Uuid)
  | ingestSignal (cmd : IngestSignalCommand) (correlationId : Uuid)
  | screen (cmd : ScreenCommand) (correlationId : Uuid) (decisionId : DecisionId) (enforcementId : EnforcementId)

inductive Outcome where
  | opened (result : OpenedCase)
  | assigned (result : Case)
  | decided (result : DecideOutcome)
  | filed (result : Appeal)
  | resolved (result : ResolveAppealOutcome)
  | ingested (result : CaseId)
  | screened (result : ScreenOutcome)
  deriving DecidableEq

def Request.ids : Request → List Uuid
  | .decideCase _ _ decisionId enforcementId | .screen _ _ decisionId enforcementId => [decisionId, enforcementId]
  | .fileAppeal _ appealId => [appealId]
  | .resolveAppeal _ _ reversalId => [reversalId]
  | .openCase _ _ | .assignCase _ | .ingestReport _ _ | .ingestSignal _ _ => []

def Request.program (setup : Setup) (now : Int) : Request → Calling Outcome
  | .openCase cmd correlationId => do
      let result ← Moderation.openCase setup cmd correlationId now
      pure (.opened result)
  | .assignCase cmd => do
      let result ← Moderation.assignCase cmd
      pure (.assigned result)
  | .decideCase cmd correlationId decisionId enforcementId => do
      let result ← Moderation.decideCase setup cmd correlationId decisionId enforcementId now
      pure (.decided result)
  | .fileAppeal cmd appealId => do
      let result ← Moderation.fileAppeal setup cmd appealId now
      pure (.filed result)
  | .resolveAppeal cmd correlationId reversalId => do
      let result ← Moderation.resolveAppeal setup cmd correlationId reversalId now
      pure (.resolved result)
  | .ingestReport cmd correlationId => do
      let result ← Moderation.ingestReport setup cmd correlationId now
      pure (.ingested result)
  | .ingestSignal cmd correlationId => do
      let result ← Moderation.ingestSignal setup cmd correlationId now
      pure (.ingested result)
  | .screen cmd correlationId decisionId enforcementId => do
      let result ← Moderation.screen setup cmd correlationId decisionId enforcementId now
      pure (.screened result)

def World.draw (w : World) (ids : List Uuid) : Option World :=
  if ids.Nodup ∧ ids.all (fun id => ! w.drawn.contains id) then some { w with drawn := ids ++ w.drawn } else none

theorem World.draw_eq_some {w : World} (drew : w.draw ids = some w') :
    (∀ id ∈ ids, id ∉ w.drawn) ∧ w' = { w with drawn := ids ++ w.drawn } := by
  unfold draw at drew
  split at drew
  · rename_i new
    cases drew
    refine ⟨?_, rfl⟩
    intro id mem hk
    have ha := List.all_eq_true.mp new.2 id mem
    simp [hk] at ha
  · cases drew

/-- A request and the time that its handler is given. -/
structure Timed where
  request : Request
  now : Int

inductive Happening where
  | after (duration : Nat)
  | accounts (directory : ActorId → Bool)
  | corpus (matches_ : List ContentHash → Option String → List PolicyCategory → Option ScreenMatch)

def World.happen (w : World) : Happening → World
  | .after duration => w.after duration
  | .accounts directory => { w with directory }
  | .corpus matches_ => { w with corpus := matches_ }

/-- Rows stand under their own keys, and identifiers in use were drawn. -/
structure World.Keyed (w : World) : Prop where
  cases_ : ∀ {id row}, w.cases id = some row → row.id = id
  ledgers : ∀ {actorId ledger}, w.ledgers actorId = some ledger → ledger.actorId = actorId
  drawn : ∀ row ∈ w.enforcements.rows, row.id ∈ w.drawn

def host (setup : Setup) : Host World Timed Happening Op Op.Reply ModerationError Outcome where
  init := World.Keyed
  server := server
  accept w timed := (w.draw timed.request.ids).map fun w => (w, timed.request.program setup timed.now)
  elapse w event := some (w.happen event)

theorem host_accept (ha : (host setup).accept w timed = some (w', prog)) :
    (∀ id ∈ timed.request.ids, id ∉ w.drawn) ∧ w' = { w with drawn := timed.request.ids ++ w.drawn } ∧
      prog = timed.request.program setup timed.now := by
  obtain ⟨_, drew, eq⟩ := Option.map_eq_some_iff.mp ha
  cases eq
  obtain ⟨new, rfl⟩ := World.draw_eq_some drew
  exact ⟨new, rfl, rfl⟩

abbrev Traffic := Pool World Timed Op Op.Reply ModerationError Outcome

abbrev Answer := Heard Op Op.Reply ModerationError

abbrev Answers := List Answer

abbrev Within (allowed : Op → Prop) {α : Type} (program : Calling α) : Prop := program.Passes allowed

section

variable {α : Type}

theorem within_publishAll (hp : ∀ ev, allowed (.publish ev)) : Within allowed (publishAll events) := by
  induction events with
  | nil => trivial
  | cons ev _ ih => exact .perform (hp ev) fun _ => ih

theorem within_changeCase (finding : allowed (.findCase caseId)) (hs : ∀ case, allowed (.saveCase case)) :
    Within allowed (changeCase caseId change) := by
  refine .perform finding fun stored => ?_
  cases stored with
  | none => trivial
  | some case => exact .lift fun case => .op (hs case)

/-- Neither about cases, enforcements and ledgers nor the saving of an appeal. -/
def Op.aside : Op → Bool
  | .findCase _ | .saveCase _ | .saveEnforcement _ | .loadLedger _ | .saveLedger _ | .saveAppeal _ => false
  | _ => true

abbrev Aside (program : Calling α) : Prop := Within (fun op => op.aside = true) program

theorem aside_publishAll : Aside (publishAll events) := within_publishAll fun _ => rfl

theorem aside_setActorRestriction : Aside (setActorRestriction actorId version expiresAt) := by
  refine .perform rfl fun current => ?_
  split
  · trivial
  · exact .op rfl

theorem aside_checkActor : Aside (checkActor action actorId) := by
  unfold checkActor
  split
  · refine .perform rfl fun hk => ?_
    split <;> trivial
  · trivial

theorem aside_appendDecision : Aside (appendDecision decision correlationId) :=
  .perform rfl fun _ => .op rfl

theorem aside_flagActor : Aside (flagActor enforcement) := by
  unfold flagActor
  split
  · exact aside_setActorRestriction
  · trivial

theorem aside_unflagActor : Aside (unflagActor actorId enforcement) := by
  unfold unflagActor
  split
  · refine .perform rfl fun current => ?_
    split
    · exact .op rfl
    · trivial
  · trivial

theorem aside_flagOffender (setup : Setup) : Aside (flagOffender setup ledger actorId version now) := by
  unfold flagOffender
  split
  · exact aside_setActorRestriction
  · trivial

theorem within_reverseEach (aside : ∀ op, op.aside = true → allowed op)
    (saving : ∀ enforcement, allowed (.saveEnforcement enforcement)) :
    Within allowed (reverseEach original correlationId now enforcements) := by
  induction enforcements with
  | nil => trivial
  | cons _ _ ih =>
    unfold reverseEach
    split
    · exact .lift fun _ => .perform (saving _) fun _ => .bind (aside_unflagActor.mono aside) fun _ =>
        .bind (aside_publishAll.mono aside) fun _ => ih
    · exact ih

theorem within_reverseIfOverturned (aside : ∀ op, op.aside = true → allowed op)
    (saving : ∀ enforcement, allowed (.saveEnforcement enforcement)) :
    Within allowed (reverseIfOverturned cmd original correlationId reversalId now) := by
  unfold reverseIfOverturned overturn
  split
  · refine .bind (.lift fun _ => .bind (aside_appendDecision.mono aside) fun _ => ?_) fun _ => trivial
    exact .perform (aside _ rfl) fun _ => .bind (within_reverseEach aside saving) fun _ => trivial
  · trivial

theorem Within.execute (hw : Within allowed program) (holds : World → Prop)
    (hk : ∀ w op, allowed op → holds w → holds (w.serve op).1) (initially : holds w) (pat : Nat → Service) :
    holds (server.execute program w pat).1 :=
  (Server.execute_confined hw.confined (fun _ _ _ _ _ _ => trivial) hk initially pat).1

end
end CorePlatform.Moderation
