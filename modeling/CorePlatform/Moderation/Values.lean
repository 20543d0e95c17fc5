import Mathlib.Algebra.Order.Field.Rat
import CorePlatform.Auth.Values

/-! # The values of the moderation domain

Instants and durations are nanoseconds, identifiers are UUIDs. A confidence is one of the
rationals that a double between zero and one stands for.
-/

namespace CorePlatform.Moderation

open Audit (isBlank)
open Auth (Uuid)

abbrev ActorId := Uuid
abbrev CaseId := Uuid
abbrev DecisionId := Uuid
abbrev EnforcementId := Uuid
abbrev AppealId := Uuid

inductive ModerationError where
  | records (reason : String)
  | cache (reason : String)
  | caseNotFound (id : CaseId)
  | invalidCaseTransition (from_ to_ : String)
  | caseAlreadyResolved
  | decisionNotFound (id : DecisionId)
  | enforcementAlreadyReversed
  | invalidEnforcementTransition (from_ to_ : String)
  | appealNotFound (id : AppealId)
  | appealAlreadyResolved
  | notAppealable
  | selfReportRejected
  | screenUnavailable
  | hashCorpusUnavailable
  | classifierUnavailable
  | signalRejected (reason : String)
  | unknownPolicyCategory (category : String)
  | accountDirectoryUnavailable
  | domainViolation (field message : String)
  | eventPublishFailed (reason : String)
  deriving DecidableEq

inductive EntityType where
  | post
  | comment
  | chatMessage
  | media
  | account
  | profile
  deriving DecidableEq

def EntityType.asStr : EntityType → String
  | post => "post"
  | comment => "comment"
  | chatMessage => "chat_message"
  | media => "media"
  | account => "account"
  | profile => "profile"

structure SubjectRef where
  entityType : EntityType
  entityId : String
  actorId : ActorId
  surface : String
  named : isBlank entityId = false
  deriving DecidableEq

namespace SubjectRef

/-- What a case is about; the actor is left out. -/
def canonicalKey (subject : SubjectRef) : String :=
  subject.entityType.asStr ++ "|" ++ subject.entityId ++ "|" ++ subject.surface

theorem canonicalKey_eq_iff {a b : SubjectRef} : a.canonicalKey = b.canonicalKey ↔ a.entityType = b.entityType ∧
    a.entityId.toList ++ '|' :: a.surface.toList = b.entityId.toList ++ '|' :: b.surface.toList := by
  have hw (subject : SubjectRef) : subject.canonicalKey.toList =
      subject.entityType.asStr.toList ++ '|' :: (subject.entityId ++ "|" ++ subject.surface).toList := by
    simp [canonicalKey]
  have plain (kind : EntityType) : '|' ∉ kind.asStr.toList := by cases kind <;> decide
  constructor
  · intro eq
    have lists := congrArg String.toList eq
    rw [hw, hw] at lists
    obtain ⟨kinds, rest⟩ := Theory.separated_inj (plain _) (plain _) lists
    refine ⟨?_, by simpa using congrArg String.toList rest⟩
    revert kinds
    cases a.entityType <;> cases b.entityType <;> decide
  · rintro ⟨kinds, rest⟩
    apply String.toList_inj.mp
    rw [hw, hw, kinds]
    simpa using rest

/-- The columns by which the enforcements of a subject are counted. -/
def sameContent (a b : SubjectRef) : Bool :=
  decide (a.entityType = b.entityType) && decide (a.entityId = b.entityId) && decide (a.surface = b.surface)

end SubjectRef

inductive PolicyCategory where
  | spam
  | harassment
  | hate
  | violentExtremism
  | csam
  | ncii
  | selfHarm
  | misinformation
  | other
  deriving DecidableEq

def PolicyCategory.tryFrom : String → Except ModerationError PolicyCategory
  | "spam" => .ok spam
  | "harassment" => .ok harassment
  | "hate" => .ok hate
  | "violent_extremism" => .ok violentExtremism
  | "csam" => .ok csam
  | "ncii" => .ok ncii
  | "self_harm" => .ok selfHarm
  | "misinformation" => .ok misinformation
  | "other" => .ok other
  | unknown => .error (.unknownPolicyCategory unknown)

/-- Legally mandated removals are not appealable. -/
def PolicyCategory.isAppealable : PolicyCategory → Bool
  | csam => false
  | _ => true

abbrev PolicyVersion := { text : String // isBlank text = false }

def PolicyVersion.new (value : String) : Except ModerationError PolicyVersion :=
  if named : isBlank value = false then .ok ⟨value, named⟩
  else .error (.domainViolation "policy_version" "policy version must not be empty")

abbrev Confidence := { value : Rat // 0 ≤ value ∧ value ≤ 1 }

def Confidence.clamped (value : Rat) : Confidence :=
  ⟨max 0 (min value 1), le_max_left _ _, max_le (by decide) (min_le_right _ _)⟩

structure Signal where
  source : String
  category : PolicyCategory
  confidence : Confidence
  observedAt : Int
  deriving DecidableEq

def Signal.new (source : String) (category : PolicyCategory) (confidence : Confidence) (observedAt : Int) :
    Except ModerationError Signal :=
  if isBlank source then .error (.signalRejected "signal source must not be empty")
  else .ok ⟨source, category, confidence, observedAt⟩

inductive ActionType where
  | noAction
  | warn
  | visibilityLimit
  | ageGate
  | removeContent
  | restrictActor
  | suspend
  | ban
  deriving DecidableEq

namespace ActionType

/-- The action is against the actor rather than one piece of content. -/
def isActorLevel : ActionType → Bool
  | restrictActor | suspend | ban => true
  | _ => false

/-- A dismissal records a decision and no enforcement. -/
def isEnforced : ActionType → Bool
  | noAction => false
  | _ => true

end ActionType

inductive CaseStatus where
  | open_
  | triaged
  | actioned
  | dismissed
  | appealed
  deriving DecidableEq

namespace CaseStatus

def asStr : CaseStatus → String
  | open_ => "open"
  | triaged => "triaged"
  | actioned => "actioned"
  | dismissed => "dismissed"
  | appealed => "appealed"

def canTransitionTo : CaseStatus → CaseStatus → Bool
  | open_, triaged | open_, actioned | open_, dismissed => true
  | triaged, actioned | triaged, dismissed => true
  | actioned, appealed => true
  | appealed, actioned | appealed, dismissed => true
  | _, _ => false

def isResolved : CaseStatus → Bool
  | actioned | dismissed => true
  | _ => false

end CaseStatus

inductive AppealStatus where
  | filed
  | underReview
  | upheld
  | overturned
  deriving DecidableEq

namespace AppealStatus

def asStr : AppealStatus → String
  | filed => "filed"
  | underReview => "under_review"
  | upheld => "upheld"
  | overturned => "overturned"

def canTransitionTo : AppealStatus → AppealStatus → Bool
  | filed, underReview | filed, upheld | filed, overturned => true
  | underReview, upheld | underReview, overturned => true
  | _, _ => false

def isTerminal : AppealStatus → Bool
  | upheld | overturned => true
  | _ => false

end AppealStatus

inductive EnforcementStatus where
  | active
  | expired
  | reversed
  deriving DecidableEq

def EnforcementStatus.asStr : EnforcementStatus → String
  | active => "active"
  | expired => "expired"
  | reversed => "reversed"

/-- A `bigint`. -/
abbrev EnforcementVersion := Int

def EnforcementVersion.next (version : EnforcementVersion) : EnforcementVersion := min (version + 1) (2 ^ 63 - 1)

structure Strike where
  category : PolicyCategory
  points : Nat
  recordedAt : Int
  expiresAt : Int

def Strike.isActive (strike : Strike) (now : Int) : Bool := decide (now < strike.expiresAt)

/-- The tunables of graduated enforcement; the ladder ascends. -/
structure PenaltyPolicy where
  decayWindow : Int
  defaultWeight : Nat
  weights : List (PolicyCategory × Nat)
  escalation : List (Nat × ActionType)
  deriving DecidableEq

namespace PenaltyPolicy

def weightFor (policy : PenaltyPolicy) (category : PolicyCategory) : Nat :=
  ((policy.weights.find? fun weight => decide (weight.1 = category)).map Prod.snd).getD policy.defaultWeight

def recommendedAction (policy : PenaltyPolicy) (activePoints : Nat) : ActionType :=
  (((policy.escalation.filter fun tier => decide (tier.1 ≤ activePoints)).map Prod.snd).getLast?).getD .noAction

def standard : PenaltyPolicy where
  decayWindow := 90 * 86400 * Auth.nanosPerSecond
  defaultWeight := 1
  weights := [(.spam, 1), (.harassment, 2), (.hate, 3), (.violentExtremism, 6), (.csam, 6), (.ncii, 6)]
  escalation := [(1, .warn), (3, .restrictActor), (5, .suspend), (6, .ban)]

end PenaltyPolicy

structure ModerationPolicy where
  penalty : PenaltyPolicy
  restrictActorTtl : Int
  suspendTtl : Int
  screenPolicyVersion : PolicyVersion

namespace ModerationPolicy

def standard : ModerationPolicy where
  penalty := .standard
  restrictActorTtl := 7 * 86400 * Auth.nanosPerSecond
  suspendTtl := 30 * 86400 * Auth.nanosPerSecond
  screenPolicyVersion := ⟨"screen-corpus-1", by decide⟩

/-- Restrictions and suspensions are time-boxed; a ban and the content actions are permanent. -/
def expiryFor (policy : ModerationPolicy) (action : ActionType) (now : Int) : Option Int :=
  match action with
  | .restrictActor => some (now + policy.restrictActorTtl)
  | .suspend => some (now + policy.suspendTtl)
  | _ => none

end ModerationPolicy

inductive DecisionAuthor where
  | reviewer (id : String)
  | rule (id : String)
  deriving DecidableEq

inductive DomainEvent where
  | caseOpened (caseId : CaseId) (subject : SubjectRef) (actorId : ActorId) (category : PolicyCategory)
      (occurredAt : Int) (correlationId : Uuid)
  | caseResolved (caseId : CaseId) (decisionId : DecisionId) (actorId : ActorId) (action : ActionType)
      (category : PolicyCategory) (occurredAt : Int) (correlationId : Uuid)
  | decisionRecorded (decisionId : DecisionId) (subject : SubjectRef) (author : DecisionAuthor)
      (action : ActionType) (category : PolicyCategory) (policyVersion : PolicyVersion) (rationale : String)
      (reverses : Option DecisionId) (occurredAt : Int) (correlationId : Uuid)
  | enforcementApplied (enforcementId : EnforcementId) (subject : SubjectRef) (actorId : ActorId)
      (action : ActionType) (version : EnforcementVersion) (appliedAt : Int) (expiresAt : Option Int)
      (occurredAt : Int) (correlationId : Uuid)
  | enforcementReversed (enforcementId : EnforcementId) (subject : SubjectRef) (actorId : ActorId)
      (version : EnforcementVersion) (occurredAt : Int) (correlationId : Uuid)
  | appealResolved (appealId : AppealId) (decisionId : DecisionId) (actorId : ActorId) (overturned : Bool)
      (occurredAt : Int) (correlationId : Uuid)
  deriving DecidableEq

end CorePlatform.Moderation
