import CorePlatform.Theory.Verdict
import CorePlatform.Moderation.Values

/-! # The aggregates of the moderation domain

Cases, decisions, enforcements, penalty ledgers and appeals, with the events that a change of
one leaves pending. Identifiers that the source draws are arguments here.
-/

namespace CorePlatform.Moderation

open Theory
open Audit (isBlank)
open Auth (Uuid)

structure Case where
  id : CaseId
  subject : SubjectRef
  status : CaseStatus
  category : PolicyCategory
  queue : String
  priority : String
  assignee : Option String
  signals : List Signal
  openedAt : Int
  version : Int
  pendingEvents : List DomainEvent
  deriving DecidableEq

structure CaseOpenParams where
  subject : SubjectRef
  category : PolicyCategory
  queue : String
  priority : String
  openedAt : Int
  correlationId : Uuid

namespace Case

/-- `id` is the identifier that the subject's key gives. -/
def new (id : CaseId) (params : CaseOpenParams) : Case where
  id := id
  subject := params.subject
  status := .open_
  category := params.category
  queue := params.queue
  priority := params.priority
  assignee := none
  signals := []
  openedAt := params.openedAt
  version := 0
  pendingEvents :=
    [.caseOpened id params.subject params.subject.actorId params.category params.openedAt params.correlationId]

variable (case : Case)

def ensureNotResolved : Except ModerationError Unit :=
  if case.status.isResolved then .error .caseAlreadyResolved else .ok ()

def transitionTo (next : CaseStatus) : Except ModerationError Case :=
  if case.status.canTransitionTo next then .ok { case with status := next }
  else .error (.invalidCaseTransition case.status.asStr next.asStr)

def touch : Case := { case with version := case.version + 1 }

def addSignal (signal : Signal) : Except ModerationError Case := do
  case.ensureNotResolved
  return { case with signals := case.signals ++ [signal] }.touch

/-- An open case that gets a reviewer is triaged. -/
def triage : Except ModerationError Case :=
  if case.status = .open_ then case.transitionTo .triaged else .ok case

def assign (reviewerId : String) : Except ModerationError Case := do
  case.ensureNotResolved
  let case ← { case with assignee := some reviewerId }.triage
  return case.touch

def resolve (decisionId : DecisionId) (action : ActionType) (now : Int) (correlationId : Uuid) :
    Except ModerationError Case := do
  case.ensureNotResolved
  let case ← case.transitionTo (if action.isEnforced then .actioned else .dismissed)
  let case := case.touch
  return { case with pendingEvents := case.pendingEvents ++
    [.caseResolved case.id decisionId case.subject.actorId action case.category now correlationId] }

def markAppealed : Except ModerationError Case := do
  let case ← case.transitionTo .appealed
  return case.touch

def closeAppeal (overturned : Bool) : Except ModerationError Case := do
  let case ← case.transitionTo (if overturned then .dismissed else .actioned)
  return case.touch

/-- What a change does to a case: the status stays or takes a permitted step, signals are only
appended, and the version goes up by one. -/
structure Revises (before after : Case) : Prop where
  id : after.id = before.id
  status : after.status = before.status ∨ before.status.canTransitionTo after.status = true
  signals : before.signals <+: after.signals
  version : after.version = before.version + 1

variable {case}

theorem transitionTo_revises (hm : case.transitionTo next = .ok case') : case.Revises case'.touch := by
  unfold transitionTo at hm
  split at hm <;> cases hm
  rename_i allowed
  exact ⟨rfl, .inr allowed, List.prefix_refl _, rfl⟩

theorem ensureNotResolved_ok : case.ensureNotResolved = .ok () ↔ case.status.isResolved = false := by
  unfold ensureNotResolved
  cases case.status.isResolved <;> simp

theorem addSignal_ok (ha : case.addSignal signal = .ok case') :
    case.status.isResolved = false ∧ case' = { case with signals := case.signals ++ [signal] }.touch := by
  obtain ⟨_, checked, done⟩ := bind_ok_iff.mp ha
  cases done
  exact ⟨ensureNotResolved_ok.mp checked, rfl⟩

theorem addSignal_error (hr : case.addSignal signal = .error e) : case.status.isResolved = true := by
  cases resolved : case.status.isResolved with
  | true => rfl
  | false =>
    unfold addSignal at hr
    rw [ensureNotResolved_ok.mpr resolved] at hr
    cases hr

theorem addSignal_revises (ha : case.addSignal signal = .ok case') : case.Revises case' := by
  obtain ⟨-, rfl⟩ := addSignal_ok ha
  exact ⟨rfl, .inl rfl, List.prefix_append _ _, rfl⟩

theorem assign_revises (ha : case.assign reviewerId = .ok case') : case.Revises case' := by
  obtain ⟨_, -, ha⟩ := bind_ok_iff.mp ha
  obtain ⟨_, hm, done⟩ := bind_ok_iff.mp ha
  cases done
  unfold triage at hm
  split at hm
  · exact { transitionTo_revises hm with }
  · cases hm
    exact ⟨rfl, .inl rfl, List.prefix_refl _, rfl⟩

theorem resolve_revises (hr : case.resolve decisionId action now correlationId = .ok case') : case.Revises case' := by
  obtain ⟨_, -, hr⟩ := bind_ok_iff.mp hr
  obtain ⟨_, hm, done⟩ := bind_ok_iff.mp hr
  cases done
  exact { transitionTo_revises hm with }

theorem markAppealed_revises (hma : case.markAppealed = .ok case') : case.Revises case' := by
  obtain ⟨_, hm, done⟩ := bind_ok_iff.mp hma
  cases done
  exact transitionTo_revises hm

theorem closeAppeal_revises (hc : case.closeAppeal overturned = .ok case') : case.Revises case' := by
  obtain ⟨_, hm, done⟩ := bind_ok_iff.mp hc
  cases done
  exact transitionTo_revises hm

end Case

structure Decision where
  id : DecisionId
  subject : SubjectRef
  action : ActionType
  category : PolicyCategory
  policyVersion : PolicyVersion
  rationale : String
  author : DecisionAuthor
  reverses : Option DecisionId
  decidedAt : Int
  deriving DecidableEq

structure DecisionParams where
  subject : SubjectRef
  action : ActionType
  category : PolicyCategory
  policyVersion : PolicyVersion
  rationale : String
  author : DecisionAuthor
  decidedAt : Int

namespace Decision

def build (id : DecisionId) (params : DecisionParams) (reverses : Option DecisionId) :
    Except ModerationError Decision :=
  if isBlank params.rationale then
    .error (.domainViolation "decision.rationale" "a decision must record a rationale")
  else
    .ok {
      id
      subject := params.subject
      action := params.action
      category := params.category
      policyVersion := params.policyVersion
      rationale := params.rationale
      author := params.author
      reverses
      decidedAt := params.decidedAt }

def record (id : DecisionId) (params : DecisionParams) : Except ModerationError Decision := build id params none

def recordReversal (id : DecisionId) (params : DecisionParams) (reverses : DecisionId) :
    Except ModerationError Decision :=
  build id params (some reverses)

def recorded (decision : Decision) (correlationId : Uuid) : DomainEvent :=
  .decisionRecorded decision.id decision.subject decision.author decision.action decision.category
    decision.policyVersion decision.rationale decision.reverses decision.decidedAt correlationId

end Decision

structure EnforcementAction where
  id : EnforcementId
  subject : SubjectRef
  action : ActionType
  status : EnforcementStatus
  version : EnforcementVersion
  decisionId : DecisionId
  appliedAt : Int
  expiresAt : Option Int
  reversedAt : Option Int
  pendingEvents : List DomainEvent
  deriving DecidableEq

structure EnforcementParams where
  subject : SubjectRef
  action : ActionType
  decisionId : DecisionId
  version : EnforcementVersion
  appliedAt : Int
  expiresAt : Option Int
  correlationId : Uuid

namespace EnforcementAction

/-- A new enforcement, with the event of its application. -/
def applied (id : EnforcementId) (params : EnforcementParams) : EnforcementAction where
  id := id
  subject := params.subject
  action := params.action
  status := .active
  version := params.version
  decisionId := params.decisionId
  appliedAt := params.appliedAt
  expiresAt := params.expiresAt
  reversedAt := none
  pendingEvents :=
    [.enforcementApplied id params.subject params.subject.actorId params.action params.version params.appliedAt
      params.expiresAt params.appliedAt params.correlationId]

def apply (id : EnforcementId) (params : EnforcementParams) : Except ModerationError EnforcementAction :=
  if ! params.action.isEnforced then
    .error (.domainViolation "enforcement.action" "no_action does not produce an enforcement")
  else if params.expiresAt.any (· ≤ params.appliedAt) then
    .error (.domainViolation "enforcement.expires_at" "expiry must be after the applied time")
  else .ok (applied id params)

variable (enforcement : EnforcementAction)

def actorId : ActorId := enforcement.subject.actorId

def hasReachedExpiry (now : Int) : Bool := enforcement.expiresAt.any (· ≤ now)

def isActive (now : Int) : Bool := decide (enforcement.status = .active) && ! enforcement.hasReachedExpiry now

/-- The enforcement once it is lifted, with the event of it. -/
def reversed (now : Int) (correlationId : Uuid) : EnforcementAction :=
  { enforcement with
    status := .reversed
    reversedAt := some now
    pendingEvents := enforcement.pendingEvents ++
      [.enforcementReversed enforcement.id enforcement.subject enforcement.subject.actorId enforcement.version now
        correlationId] }

def reverse (now : Int) (correlationId : Uuid) : Except ModerationError EnforcementAction :=
  match enforcement.status with
  | .reversed => .error .enforcementAlreadyReversed
  | .expired => .error (.invalidEnforcementTransition enforcement.status.asStr EnforcementStatus.reversed.asStr)
  | .active => .ok (enforcement.reversed now correlationId)

variable {enforcement}

theorem apply_ok {id : EnforcementId} (made : apply id params = .ok enforcement) :
    enforcement = applied id params ∧ ∀ expiry, params.expiresAt = some expiry → params.appliedAt < expiry := by
  unfold apply at made
  split at made
  · cases made
  · split at made <;> cases made
    rename_i hl
    refine ⟨rfl, fun expiry limited => ?_⟩
    simpa [limited] using hl

theorem status_of_isActive (active : enforcement.isActive now = true) : enforcement.status = .active := by
  simp only [isActive, Bool.and_eq_true, decide_eq_true_eq] at active
  exact active.1

theorem reverse_of_isActive (ha : enforcement.isActive now = true) :
    enforcement.reverse now' correlationId = .ok (enforcement.reversed now' correlationId) := by
  simp [reverse, status_of_isActive ha]

theorem isActive_mono (order : earlier ≤ later) (ha : enforcement.isActive later = true) :
    enforcement.isActive earlier = true := by
  unfold isActive hasReachedExpiry at *
  cases expiry : enforcement.expiresAt with
  | none => simpa [expiry] using ha
  | some =>
    simp only [expiry, Option.any_some, Bool.and_eq_true, decide_eq_true_eq, Bool.not_eq_true',
      decide_eq_false_iff_not] at ha ⊢
    exact ⟨ha.1, by omega⟩

end EnforcementAction

structure PenaltyLedger where
  actorId : ActorId
  strikes : List Strike
  version : Int

namespace PenaltyLedger

def empty (actorId : ActorId) : PenaltyLedger := ⟨actorId, [], 0⟩

variable (ledger : PenaltyLedger)

def recordStrike (category : PolicyCategory) (now : Int) (policy : PenaltyPolicy) : PenaltyLedger :=
  { ledger with
    strikes := ledger.strikes ++ [⟨category, policy.weightFor category, now, now + policy.decayWindow⟩]
    version := ledger.version + 1 }

def activePoints (now : Int) : Nat := ((ledger.strikes.filter (·.isActive now)).map Strike.points).sum

def recommendedAction (now : Int) (policy : PenaltyPolicy) : ActionType :=
  policy.recommendedAction (ledger.activePoints now)

end PenaltyLedger

structure Appeal where
  id : AppealId
  decisionId : DecisionId
  actorId : ActorId
  statement : String
  status : AppealStatus
  filedAt : Int
  resolvedAt : Option Int
  pendingEvents : List DomainEvent
  deriving DecidableEq

namespace Appeal

def file (id : AppealId) (decisionId : DecisionId) (actorId : ActorId) (statement : String) (filedAt : Int) :
    Except ModerationError Appeal :=
  if isBlank statement then .error (.domainViolation "appeal.statement" "an appeal must include a statement")
  else
    .ok {
      id, decisionId, actorId, statement, filedAt
      status := .filed
      resolvedAt := none
      pendingEvents := [] }

variable (appeal : Appeal)

def transitionTo (next : AppealStatus) : Except ModerationError Appeal :=
  if appeal.status.isTerminal then .error .appealAlreadyResolved
  else if appeal.status.canTransitionTo next then .ok { appeal with status := next }
  else
    .error (.domainViolation "appeal.status"
      ("illegal appeal transition " ++ appeal.status.asStr ++ " → " ++ next.asStr))

def verdict (overturn : Bool) : AppealStatus := if overturn then .overturned else .upheld

def resolve (overturn : Bool) (now : Int) (correlationId : Uuid) : Except ModerationError Appeal := do
  let appeal ← appeal.transitionTo (verdict overturn)
  return { appeal with
    resolvedAt := some now
    pendingEvents := appeal.pendingEvents ++
      [.appealResolved appeal.id appeal.decisionId appeal.actorId overturn now correlationId] }

theorem resolve_of_open (open_ : appeal.status.isTerminal = false) :
    appeal.resolve overturn now correlationId = .ok { appeal with
      status := verdict overturn
      resolvedAt := some now
      pendingEvents := appeal.pendingEvents ++
        [.appealResolved appeal.id appeal.decisionId appeal.actorId overturn now correlationId] } := by
  have allowed : appeal.status.canTransitionTo (verdict overturn) = true := by
    cases h : appeal.status <;> rw [h] at open_ <;> cases overturn <;> first | rfl | cases open_
  simp only [resolve, transitionTo, open_, allowed]
  rfl

theorem resolve_of_terminal (hs : appeal.status.isTerminal = true) :
    appeal.resolve overturn now correlationId = .error .appealAlreadyResolved := by
  simp only [resolve, transitionTo, hs]
  rfl

end Appeal
end CorePlatform.Moderation
