import CorePlatform.Theory.Verdict
import CorePlatform.Audit.Event

/-! # The JSON lane

The wire event of `audit.v1.events` and its decoder.
-/

namespace CorePlatform.Audit

open Theory

/-- The standard decoder of the `base64` package; an error comes with its text. -/
structure Base64 where
  decode : String → Except String (List UInt8)
  decode_empty : decode "" = .ok []

structure ActorWire where
  actorType : String
  pseudonym : String
  sessionRef : String

structure ResourceWire where
  resourceType : String
  id : String

structure PiiWire where
  subjectKeyRef : String
  ciphertextB64 : String
  nonceB64 : String
  algorithm : String

structure AuditEventWire where
  eventId : String
  category : String
  subjectPseudonym : Option String
  tenantId : Option String
  actor : ActorWire
  action : String
  resource : ResourceWire
  outcome : String
  lawfulBasis : Option String
  sourceService : String
  correlationId : String
  occurredAtMs : Int
  pii : Option PiiWire
  attributes : SortedMap String String

namespace Decode

def opt (value : Option String) : Option String := value.filter fun v => !isBlank v

def categoryFromStr (s : String) : Except AuditError EventCategory :=
  match s with
  | "authentication" => .ok .authentication
  | "authorization" => .ok .authorization
  | "moderation" => .ok .moderation
  | "consent" => .ok .consent
  | "data_access" => .ok .dataAccess
  | "data_export" => .ok .dataExport
  | "data_erasure" => .ok .dataErasure
  | "privileged_action" => .ok .privilegedAction
  | "retention" => .ok .retention
  | other => .error (.unknownEventCategory other)

def actorTypeFromStr (s : String) : ActorType :=
  match s with
  | "user" => .user
  | "admin" => .admin
  | "service" => .service
  | _ => .system

def outcomeFromStr (s : String) : Except AuditError Outcome :=
  match s with
  | "permitted" => .ok .permitted
  | "denied" => .ok .denied
  | "executed" => .ok .executed
  | "failed" => .ok .failed
  | other => .error (.malformedAuditEvent ("unknown outcome '" ++ other ++ "'"))

def lawfulBasisFromStr (s : String) : LawfulBasis :=
  match s with
  | "consent" => .consent
  | "contract" => .contract
  | "legal_obligation" => .legalObligation
  | "vital_interests" => .vitalInterests
  | "public_task" => .publicTask
  | "legitimate_interests" => .legitimateInterests
  | _ => .unspecified

section

variable (base64 : Base64)

def b64 (s : String) : Except AuditError (List UInt8) :=
  (base64.decode s).mapError fun e => .malformedAuditEvent ("invalid base64 PII envelope: " ++ e)

def decodePii (wire : PiiWire) : Except AuditError PiiEnvelope := do
  let ciphertext ← b64 base64 wire.ciphertextB64
  let nonce ← (if wire.nonceB64.isEmpty then .ok [] else b64 base64 wire.nonceB64 : Except _ (List UInt8))
  let subjectKeyRef ← SubjectKeyRef.new wire.subjectKeyRef
  return { subjectKeyRef, ciphertext, nonce, algorithm := wire.algorithm }

def mapAuditEvent (wire : AuditEventWire) : Except AuditError AuditEvent := do
  let category ← categoryFromStr wire.category
  let pseudonym ← ActorPseudonym.new wire.actor.pseudonym
  let actor : Actor := ⟨actorTypeFromStr wire.actor.actorType, pseudonym, wire.actor.sessionRef⟩
  let pii ← wire.pii.mapM (decodePii base64)
  let eventId ← EventId.new wire.eventId
  let subject ← (opt wire.subjectPseudonym).mapM SubjectPseudonym.new
  let tenant ← (opt wire.tenantId).mapM TenantId.new
  let outcome ← outcomeFromStr wire.outcome
  AuditEvent.tryNew
    { eventId, category, subject, tenant, actor, action := wire.action
      resource := ⟨wire.resource.resourceType, wire.resource.id⟩, outcome
      lawfulBasis := (wire.lawfulBasis.map lawfulBasisFromStr).getD .unspecified
      sourceService := wire.sourceService, correlationId := wire.correlationId
      occurredAt := (DateTime.fromTimestampMillis wire.occurredAtMs).getD .epoch
      pii, attributes := wire.attributes }

end
end Decode

theorem stringId_mapM (hn : ∀ v, value = some v → isBlank v = false) : value.mapM (stringId field) = .ok value := by
  cases value with
  | none => rfl
  | some v =>
    have ha : stringId field v = .ok v := stringId_ok.mpr ⟨hn v rfl, rfl⟩
    simp only [Option.mapM_some, ha]
    rfl

theorem Decode.opt_named (kept : opt value = some v) : isBlank v = false := by
  simpa using (Option.filter_eq_some_iff.mp kept).2

theorem Decode.mapAuditEvent_ok :
    mapAuditEvent base64 wire = .ok event ↔
      ∃ category outcome pii, categoryFromStr wire.category = .ok category ∧
        outcomeFromStr wire.outcome = .ok outcome ∧ wire.pii.mapM (decodePii base64) = .ok pii ∧
        isBlank wire.actor.pseudonym = false ∧ isBlank wire.eventId = false ∧
        AuditEvent.tryNew
          { eventId := wire.eventId, category, subject := opt wire.subjectPseudonym
            tenant := opt wire.tenantId
            actor := ⟨actorTypeFromStr wire.actor.actorType, wire.actor.pseudonym, wire.actor.sessionRef⟩
            action := wire.action, resource := ⟨wire.resource.resourceType, wire.resource.id⟩, outcome
            lawfulBasis := (wire.lawfulBasis.map lawfulBasisFromStr).getD .unspecified
            sourceService := wire.sourceService, correlationId := wire.correlationId
            occurredAt := (DateTime.fromTimestampMillis wire.occurredAtMs).getD .epoch
            pii, attributes := wire.attributes } = .ok event := by
  have subject : (opt wire.subjectPseudonym).mapM SubjectPseudonym.new = .ok (opt wire.subjectPseudonym) :=
    stringId_mapM fun _ => opt_named
  have tenant : (opt wire.tenantId).mapM TenantId.new = .ok (opt wire.tenantId) :=
    stringId_mapM fun _ => opt_named
  unfold mapAuditEvent
  rw [subject, tenant]
  simp only [bind_ok_iff, ActorPseudonym.new, EventId.new, stringId_ok, Except.ok.injEq]
  constructor
  · rintro ⟨category, hk, _, ⟨actor, rfl⟩, pii, ho, _, ⟨id, rfl⟩, _, rfl, _, rfl, outcome, hn, built⟩
    exact ⟨category, outcome, pii, hk, hn, ho, actor, id, built⟩
  · rintro ⟨category, outcome, pii, hk, hn, ho, actor, id, built⟩
    exact ⟨category, hk, _, ⟨actor, rfl⟩, pii, ho, _, ⟨id, rfl⟩, _, rfl, _, rfl, outcome, hn, built⟩

end CorePlatform.Audit
