import CorePlatform.Audit.Decode

/-! # The protobuf lane

The `audit.v1` messages that carry an event, and their decoder. Enums travel as numbers,
and a reader has to expect numbers that stand for nothing.
-/

namespace CorePlatform.Audit

open Theory

namespace Pb

inductive EventCategory where
  | unspecified
  | authentication
  | authorization
  | moderation
  | consent
  | dataAccess
  | dataExport
  | dataErasure
  | privilegedAction
  | retention
  | identity

def EventCategory.tryFrom : Int → Option EventCategory
  | 0 => some .unspecified
  | 1 => some .authentication
  | 2 => some .authorization
  | 3 => some .moderation
  | 4 => some .consent
  | 5 => some .dataAccess
  | 6 => some .dataExport
  | 7 => some .dataErasure
  | 8 => some .privilegedAction
  | 9 => some .retention
  | 10 => some .identity
  | _ => none

inductive ActorType where
  | unspecified
  | user
  | admin
  | service
  | system

def ActorType.tryFrom : Int → Option ActorType
  | 0 => some .unspecified
  | 1 => some .user
  | 2 => some .admin
  | 3 => some .service
  | 4 => some .system
  | _ => none

inductive Outcome where
  | unspecified
  | permitted
  | denied
  | executed
  | failed

def Outcome.tryFrom : Int → Option Outcome
  | 0 => some .unspecified
  | 1 => some .permitted
  | 2 => some .denied
  | 3 => some .executed
  | 4 => some .failed
  | _ => none

inductive LawfulBasis where
  | unspecified
  | consent
  | contract
  | legalObligation
  | vitalInterests
  | publicTask
  | legitimateInterests

def LawfulBasis.tryFrom : Int → Option LawfulBasis
  | 0 => some .unspecified
  | 1 => some .consent
  | 2 => some .contract
  | 3 => some .legalObligation
  | 4 => some .vitalInterests
  | 5 => some .publicTask
  | 6 => some .legitimateInterests
  | _ => none

structure Timestamp where
  seconds : Int
  nanos : Int

structure Actor where
  type : Int
  actorPseudonym : String
  sessionRef : String

structure ResourceRef where
  type : String
  id : String

structure PiiEnvelope where
  subjectKeyId : String
  ciphertext : List UInt8
  nonce : List UInt8
  algorithm : String

/-- The attributes are a hash map: its entries come in any order. -/
structure AuditEvent where
  eventId : String
  category : Int
  subjectPseudonym : String
  tenantId : String
  actor : Option Actor
  action : String
  resource : Option ResourceRef
  outcome : Int
  lawfulBasis : Int
  sourceService : String
  correlationId : String
  occurredAt : Option Timestamp
  pii : Option PiiEnvelope
  attributes : List (String × String)

end Pb

namespace Codec

def tsFromPb (ts : Option Pb.Timestamp) : DateTime :=
  (ts.bind fun t => DateTime.fromTimestamp t.seconds (max t.nanos 0).toNat).getD .epoch

def categoryFromPb (value : Int) : Except AuditError EventCategory :=
  match Pb.EventCategory.tryFrom value with
  | some .authentication => .ok .authentication
  | some .authorization => .ok .authorization
  | some .moderation => .ok .moderation
  | some .consent => .ok .consent
  | some .dataAccess => .ok .dataAccess
  | some .dataExport => .ok .dataExport
  | some .dataErasure => .ok .dataErasure
  | some .privilegedAction => .ok .privilegedAction
  | some .retention => .ok .retention
  | some .identity => .ok .identity
  | some .unspecified | none => .error (.unknownEventCategory (toString value))

/-- An actor type that is not recognized is a machine principal. -/
def actorTypeFromPb (value : Int) : ActorType :=
  match Pb.ActorType.tryFrom value with
  | some .user => .user
  | some .admin => .admin
  | some .service => .service
  | _ => .system

def outcomeFromPb (value : Int) : Except AuditError Outcome :=
  match Pb.Outcome.tryFrom value with
  | some .permitted => .ok .permitted
  | some .denied => .ok .denied
  | some .executed => .ok .executed
  | some .failed => .ok .failed
  | some .unspecified | none => .error (.malformedAuditEvent "unspecified outcome")

def lawfulBasisFromPb (value : Int) : LawfulBasis :=
  match Pb.LawfulBasis.tryFrom value with
  | some .consent => .consent
  | some .contract => .contract
  | some .legalObligation => .legalObligation
  | some .vitalInterests => .vitalInterests
  | some .publicTask => .publicTask
  | some .legitimateInterests => .legitimateInterests
  | _ => .unspecified

def actorFromPb (a : Pb.Actor) : Except AuditError Actor := do
  let pseudonym ← ActorPseudonym.new a.actorPseudonym
  return ⟨actorTypeFromPb a.type, pseudonym, a.sessionRef⟩

def resourceFromPb (r : Pb.ResourceRef) : ResourceRef := ⟨r.type, r.id⟩

def piiFromPb (p : Pb.PiiEnvelope) : Except AuditError PiiEnvelope := do
  let subjectKeyRef ← SubjectKeyRef.new p.subjectKeyId
  return { subjectKeyRef, ciphertext := p.ciphertext, nonce := p.nonce, algorithm := p.algorithm }

def optionalId (value : String) : Option String := if isBlank value then none else some value

def eventFromPb (pb : Pb.AuditEvent) : Except AuditError AuditEvent := do
  let category ← categoryFromPb pb.category
  let actor ← match pb.actor with
    | some a => actorFromPb a
    | none => .error (.malformedAuditEvent "missing actor")
  let resource := (pb.resource.map resourceFromPb).getD ⟨"", ""⟩
  let attributes := SortedMap.ofPairs pb.attributes
  let eventId ← EventId.new pb.eventId
  let subject ← (optionalId pb.subjectPseudonym).mapM SubjectPseudonym.new
  let tenant ← (optionalId pb.tenantId).mapM TenantId.new
  let outcome ← outcomeFromPb pb.outcome
  let pii ← pb.pii.mapM piiFromPb
  AuditEvent.tryNew
    { eventId, category, subject, tenant, actor, action := pb.action, resource, outcome
      lawfulBasis := lawfulBasisFromPb pb.lawfulBasis, sourceService := pb.sourceService
      correlationId := pb.correlationId, occurredAt := tsFromPb pb.occurredAt, pii, attributes }

theorem optionalId_named (kept : optionalId value = some v) : isBlank v = false := by
  unfold optionalId at kept
  cases blank : isBlank value with
  | true => simp [blank] at kept
  | false =>
    simp only [blank, Bool.false_eq_true, if_false, Option.some.injEq] at kept
    rw [← kept, blank]

theorem eventFromPb_ok (ha : pb.actor = some a) :
    eventFromPb pb = .ok event ↔
      ∃ category outcome pii, categoryFromPb pb.category = .ok category ∧
        outcomeFromPb pb.outcome = .ok outcome ∧ pb.pii.mapM piiFromPb = .ok pii ∧
        isBlank a.actorPseudonym = false ∧ isBlank pb.eventId = false ∧
        AuditEvent.tryNew
          { eventId := pb.eventId, category, subject := optionalId pb.subjectPseudonym
            tenant := optionalId pb.tenantId
            actor := ⟨actorTypeFromPb a.type, a.actorPseudonym, a.sessionRef⟩, action := pb.action
            resource := (pb.resource.map resourceFromPb).getD ⟨"", ""⟩, outcome
            lawfulBasis := lawfulBasisFromPb pb.lawfulBasis, sourceService := pb.sourceService
            correlationId := pb.correlationId, occurredAt := tsFromPb pb.occurredAt, pii
            attributes := .ofPairs pb.attributes } = .ok event := by
  have subject : (optionalId pb.subjectPseudonym).mapM SubjectPseudonym.new =
      .ok (optionalId pb.subjectPseudonym) := stringId_mapM fun _ => optionalId_named
  have tenant : (optionalId pb.tenantId).mapM TenantId.new = .ok (optionalId pb.tenantId) :=
    stringId_mapM fun _ => optionalId_named
  unfold eventFromPb actorFromPb
  rw [subject, tenant, ha]
  simp only [bind_ok_iff, ActorPseudonym.new, EventId.new, stringId_ok, Except.ok.injEq, pure, Except.pure]
  constructor
  · rintro ⟨category, hk, _, ⟨_, ⟨actor, rfl⟩, rfl⟩, _, ⟨id, rfl⟩, _, rfl, _, rfl, outcome, hn, pii,
      ho, built⟩
    exact ⟨category, outcome, pii, hk, hn, ho, actor, id, built⟩
  · rintro ⟨category, outcome, pii, hk, hn, ho, actor, id, built⟩
    exact ⟨category, hk, _, ⟨_, ⟨actor, rfl⟩, rfl⟩, _, ⟨id, rfl⟩, _, rfl, _, rfl, outcome, hn, pii, ho, built⟩

end Codec
end CorePlatform.Audit
