import CorePlatform.Theory.SortedMap
import CorePlatform.Audit.Hash
import Mathlib.Data.String.Basic

/-! # Audit events and their canonical bytes

An event is sealed by `tryNew`, which checks its content, and hashed through
`canonicalBytes`. The bytes determine every field, the occurrence time to the
millisecond.
-/

namespace CorePlatform.Audit

open Theory

structure Actor where
  actorType : ActorType
  pseudonym : ActorPseudonym
  sessionRef : String
  deriving DecidableEq

def Actor.writeCanonical (actor : Actor) (w : CanonicalWriter) : CanonicalWriter :=
  ((w.u8 actor.actorType.hashTag).str actor.pseudonym).str actor.sessionRef

structure ResourceRef where
  resourceType : String
  id : String
  deriving DecidableEq

def ResourceRef.writeCanonical (resource : ResourceRef) (w : CanonicalWriter) : CanonicalWriter :=
  (w.str resource.resourceType).str resource.id

/-- Personal data sealed under a per-subject key. The chain covers the ciphertext. -/
structure PiiEnvelope where
  subjectKeyRef : SubjectKeyRef
  ciphertext : List UInt8
  nonce : List UInt8
  algorithm : String
  deriving DecidableEq

def PiiEnvelope.writeCanonical (pii : PiiEnvelope) (w : CanonicalWriter) : CanonicalWriter :=
  (((w.str pii.subjectKeyRef).bytes pii.ciphertext).bytes pii.nonce).str pii.algorithm

structure NewAuditEvent where
  eventId : EventId
  category : EventCategory
  subject : Option SubjectPseudonym
  tenant : Option TenantId
  actor : Actor
  action : String
  resource : ResourceRef
  outcome : Outcome
  lawfulBasis : LawfulBasis
  sourceService : String
  correlationId : String
  occurredAt : DateTime
  pii : Option PiiEnvelope
  attributes : SortedMap String String
  deriving DecidableEq

/-- The immutable content of one audit event. It is also read from stored records, without the
checks of `tryNew`. -/
structure AuditEvent extends NewAuditEvent
  deriving DecidableEq

namespace AuditEvent

def tryNew (input : NewAuditEvent) : Except AuditError AuditEvent :=
  if input.category.requiresLawfulBasis && !input.lawfulBasis.isSpecified then
    .error .missingLawfulBasis
  else if isBlank input.action then
    .error (.domainViolation "action" "an audit event must name the action performed")
  else
    .ok ⟨input⟩

theorem tryNew_ok :
    tryNew input = .ok event ↔
      (input.category.requiresLawfulBasis && !input.lawfulBasis.isSpecified) = false ∧
        isBlank input.action = false ∧ event = ⟨input⟩ := by
  unfold tryNew
  cases input.category.requiresLawfulBasis && !input.lawfulBasis.isSpecified with
  | true => simp
  | false =>
    cases isBlank input.action with
    | true => simp
    | false => simpa using eq_comm

/-- A presence byte, then the value if there is one. -/
def writeOptional {α : Type} (write : α → CanonicalWriter → CanonicalWriter) (value : Option α)
    (w : CanonicalWriter) : CanonicalWriter :=
  match value with
  | some a => write a (w.u8 1)
  | none => w.u8 0

def writeCanonical (event : AuditEvent) (w : CanonicalWriter) : CanonicalWriter :=
  let w := (w.str event.eventId).u8 event.category.hashTag
  let w := writeOptional (fun s w => w.str s) event.subject w
  let w := writeOptional (fun t w => w.str t) event.tenant w
  let w := (event.actor.writeCanonical w).str event.action
  let w := event.resource.writeCanonical w
  let w := (w.u8 event.outcome.hashTag).u8 event.lawfulBasis.hashTag
  let w := (w.str event.sourceService).str event.correlationId
  let w := w.i64 event.occurredAt.timestampMillis
  let w := writeOptional PiiEnvelope.writeCanonical event.pii w
  w.pairs event.attributes.entries

def canonicalBytes (event : AuditEvent) : List UInt8 := (event.writeCanonical {}).buf

/-! The bytes are the fields, one unambiguous encoding after another. -/

section

open Unambiguous

private def actorBytes (actor : Actor) : List UInt8 :=
  [actor.actorType.hashTag] ++ (text actor.pseudonym ++ text actor.sessionRef)

private def resourceBytes (resource : ResourceRef) : List UInt8 :=
  text resource.resourceType ++ text resource.id

private def piiBytes (pii : PiiEnvelope) : List UInt8 :=
  text pii.subjectKeyRef ++ (framed pii.ciphertext ++ (framed pii.nonce ++ text pii.algorithm))

private abbrev Millis := { z : Int // -2 ^ 63 ≤ z ∧ z < 2 ^ 63 }

private abbrev Fields :=
  String × EventCategory × Option String × Option String × Actor × String × ResourceRef × Outcome ×
    LawfulBasis × String × String × Millis × Option PiiEnvelope × SortedMap String String

private def fields (e : AuditEvent) : Fields :=
  (e.eventId, e.category, e.subject, e.tenant, e.actor, e.action, e.resource, e.outcome, e.lawfulBasis,
    e.sourceService, e.correlationId, ⟨e.occurredAt.timestampMillis, e.occurredAt.timestampMillis_fits⟩,
    e.pii, e.attributes)

private def fieldBytes : Fields → List UInt8
  | (eventId, category, subject, tenant, actor, action, resource, outcome, lawfulBasis, sourceService,
      correlationId, occurredAt, pii, attributes) =>
    text eventId ++ ([category.hashTag] ++ (optionally text subject ++ (optionally text tenant ++
      (actorBytes actor ++ (text action ++ (resourceBytes resource ++ ([outcome.hashTag] ++
      ([lawfulBasis.hashTag] ++ (text sourceService ++ (text correlationId ++
      (le64Signed occurredAt.1 ++ (optionally piiBytes pii ++
      textPairs attributes.entries))))))))))))

private theorem actor_unambiguous : Unambiguous actorBytes :=
  (pair (tag ActorType.hashTag_injective) (pair text_unambiguous text_unambiguous)).comap
    (fun actor : Actor => (actor.actorType, actor.pseudonym, actor.sessionRef))
    (by rintro ⟨⟩ ⟨⟩ eq; simpa using eq)

private theorem resource_unambiguous : Unambiguous resourceBytes :=
  (pair text_unambiguous text_unambiguous).comap
    (fun resource : ResourceRef => (resource.resourceType, resource.id))
    (by rintro ⟨⟩ ⟨⟩ eq; simpa using eq)

private theorem pii_unambiguous : Unambiguous piiBytes :=
  (pair text_unambiguous (pair framing (pair framing text_unambiguous))).comap
    (fun pii : PiiEnvelope => (pii.subjectKeyRef, pii.ciphertext, pii.nonce, pii.algorithm))
    (by rintro ⟨⟩ ⟨⟩ eq; simpa using eq)

private theorem millis_unambiguous : Unambiguous fun z : Millis => le64Signed z.1 :=
  fixedWidth (fun _ => le64_length) fun y z eq => Subtype.ext (le64Signed_inj y.2 z.2 eq)

private theorem attributes_unambiguous :
    Unambiguous fun attributes : SortedMap String String => textPairs attributes.entries :=
  textPairs_unambiguous.comap _ SortedMap.entries_injective

private theorem fields_unambiguous : Unambiguous fieldBytes :=
  pair text_unambiguous <| pair (tag EventCategory.hashTag_injective) <| pair text_unambiguous.option <|
    pair text_unambiguous.option <| pair actor_unambiguous <| pair text_unambiguous <|
    pair resource_unambiguous <| pair (tag Outcome.hashTag_injective) <|
    pair (tag LawfulBasis.hashTag_injective) <| pair text_unambiguous <| pair text_unambiguous <|
    pair millis_unambiguous <| pair pii_unambiguous.option attributes_unambiguous

private theorem writeOptional_buf {α : Type} {write : α → CanonicalWriter → CanonicalWriter}
    {enc : α → List UInt8} (hw : ∀ a w, (write a w).buf = w.buf ++ enc a) (value : Option α)
    (w : CanonicalWriter) : (writeOptional write value w).buf = w.buf ++ optionally enc value := by
  cases value with
  | none => rfl
  | some => simp [writeOptional, optionally, hw]

private theorem actor_buf : (actor.writeCanonical w).buf = w.buf ++ actorBytes actor := by
  simp [Actor.writeCanonical, actorBytes]

private theorem resource_buf : (resource.writeCanonical w).buf = w.buf ++ resourceBytes resource := by
  simp [ResourceRef.writeCanonical, resourceBytes]

private theorem pii_buf (pii : PiiEnvelope) (w : CanonicalWriter) :
    (pii.writeCanonical w).buf = w.buf ++ piiBytes pii := by
  simp [PiiEnvelope.writeCanonical, piiBytes]

private theorem canonicalBytes_fields (e : AuditEvent) : e.canonicalBytes = fieldBytes e.fields := by
  have optionalText := writeOptional_buf fun s w => CanonicalWriter.str_buf w s
  have optionalPii := writeOptional_buf pii_buf
  simp only [canonicalBytes, writeCanonical, fields, fieldBytes, optionalPii, optionalText, actor_buf,
    resource_buf, CanonicalWriter.str_buf, CanonicalWriter.u8_buf, CanonicalWriter.i64_buf,
    CanonicalWriter.pairs_buf, List.nil_append, List.append_assoc]

/-- Two events with the same content, told apart at most below the millisecond. -/
structure Agree (a b : AuditEvent) : Prop where
  eventId : a.eventId = b.eventId
  category : a.category = b.category
  subject : a.subject = b.subject
  tenant : a.tenant = b.tenant
  actor : a.actor = b.actor
  action : a.action = b.action
  resource : a.resource = b.resource
  outcome : a.outcome = b.outcome
  lawfulBasis : a.lawfulBasis = b.lawfulBasis
  sourceService : a.sourceService = b.sourceService
  correlationId : a.correlationId = b.correlationId
  occurredAt : a.occurredAt.timestampMillis = b.occurredAt.timestampMillis
  pii : a.pii = b.pii
  attributes : a.attributes = b.attributes

private theorem agree_iff_fields : Agree a b ↔ a.fields = b.fields := by
  simp only [AuditEvent.fields, Prod.mk.injEq, Subtype.mk.injEq]
  constructor
  · rintro ⟨⟩
    refine ⟨?_, ?_, ?_, ?_, ?_, ?_, ?_, ?_, ?_, ?_, ?_, ?_, ?_, ?_⟩ <;> assumption
  · rintro ⟨eventId, category, subject, tenant, actor, action, resource, outcome, lawfulBasis,
      sourceService, correlationId, occurredAt, pii, attributes⟩
    exact { eventId, category, subject, tenant, actor, action, resource, outcome, lawfulBasis,
            sourceService, correlationId, occurredAt, pii, attributes }

/-- Canonical bytes determine the event, whether or not it came through `tryNew`. -/
theorem canonicalBytes_determine {a b : AuditEvent} (fits : Fits a.canonicalBytes) :
    a.canonicalBytes = b.canonicalBytes ↔ Agree a b := by
  rw [agree_iff_fields]
  rw [canonicalBytes_fields] at fits
  rw [canonicalBytes_fields, canonicalBytes_fields]
  constructor
  · intro same
    exact fields_unambiguous.eq (Nat.lt_trans fits (by decide)) same
  · intro same
    rw [same]

end

/-- A plain event, for runs in which only the identity of events matters. -/
def signIn (eventId : EventId) (occurredAt : DateTime) : AuditEvent :=
  ⟨{ eventId, category := .authentication, subject := some "7f3a", tenant := none
     actor := ⟨.user, "7f3a", "s-1"⟩, action := "session.issue", resource := ⟨"session", "s-1"⟩
     outcome := .executed, lawfulBasis := .unspecified, sourceService := "auth", correlationId := ""
     occurredAt, pii := none, attributes := .empty }⟩

theorem canonicalBytes_determine_signIn :
    Agree (signIn "e-1" .epoch) (signIn "e-1" ⟨0, 999999, by decide, by decide⟩) :=
  (canonicalBytes_determine (by unfold Fits; decide +kernel)).mp (by decide +kernel)

end AuditEvent
end CorePlatform.Audit
