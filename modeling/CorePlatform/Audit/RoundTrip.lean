import CorePlatform.Audit.Lanes

/-! # Events as messages, and back

The encoder of the protobuf lane. What an event leaves out travels as an empty text, which no
identifier is, so the decoder gives every event back that it is given as a message.
-/

namespace CorePlatform.Audit

open Theory Option

namespace Codec

def tsToPb (t : DateTime) : Pb.Timestamp := ⟨t.secs, t.nanos⟩

def categoryToPb : EventCategory → Pb.EventCategory
  | .authentication => .authentication
  | .authorization => .authorization
  | .moderation => .moderation
  | .consent => .consent
  | .dataAccess => .dataAccess
  | .dataExport => .dataExport
  | .dataErasure => .dataErasure
  | .privilegedAction => .privilegedAction
  | .retention => .retention
  | .identity => .identity

def actorTypeToPb : ActorType → Pb.ActorType
  | .user => .user
  | .admin => .admin
  | .service => .service
  | .system => .system

def outcomeToPb : Outcome → Pb.Outcome
  | .permitted => .permitted
  | .denied => .denied
  | .executed => .executed
  | .failed => .failed

def lawfulBasisToPb : LawfulBasis → Pb.LawfulBasis
  | .unspecified => .unspecified
  | .consent => .consent
  | .contract => .contract
  | .legalObligation => .legalObligation
  | .vitalInterests => .vitalInterests
  | .publicTask => .publicTask
  | .legitimateInterests => .legitimateInterests

def actorToPb (a : Actor) : Pb.Actor := ⟨(actorTypeToPb a.actorType).number, a.pseudonym, a.sessionRef⟩

def resourceToPb (r : ResourceRef) : Pb.ResourceRef := ⟨r.resourceType, r.id⟩

def piiToPb (p : PiiEnvelope) : Pb.PiiEnvelope := ⟨p.subjectKeyRef, p.ciphertext, p.nonce, p.algorithm⟩

def eventToPb (event : AuditEvent) : Pb.AuditEvent where
  eventId := event.eventId
  category := (categoryToPb event.category).number
  subjectPseudonym := event.subject.getD ""
  tenantId := event.tenant.getD ""
  actor := some (actorToPb event.actor)
  action := event.action
  resource := some (resourceToPb event.resource)
  outcome := (outcomeToPb event.outcome).number
  lawfulBasis := (lawfulBasisToPb event.lawfulBasis).number
  sourceService := event.sourceService
  correlationId := event.correlationId
  occurredAt := some (tsToPb event.occurredAt)
  pii := event.pii.map piiToPb
  attributes := event.attributes.entries

theorem tsFromPb_tsToPb : tsFromPb (some (tsToPb t)) = if t.Regular then t else .epoch := by
  have whole : (max (t.nanos : Int) 0).toNat = t.nanos := by omega
  simp only [tsFromPb, tsToPb, bind_some, whole, DateTime.fromTimestamp_secs_nanos]
  split <;> rfl

theorem tsFromPb_tsToPb_eq_iff : tsFromPb (some (tsToPb t)) = t ↔ t.Regular := by
  rw [tsFromPb_tsToPb]
  split
  · simp_all
  · rename_i irregular
    simp only [irregular, iff_false]
    rintro rfl
    exact irregular DateTime.epoch_regular

theorem categoryFromPb_number : categoryFromPb (categoryToPb category).number = .ok category := by
  cases category <;> rfl

theorem actorTypeFromPb_number : actorTypeFromPb (actorTypeToPb actorType).number = actorType := by
  cases actorType <;> rfl

theorem outcomeFromPb_number : outcomeFromPb (outcomeToPb outcome).number = .ok outcome := by
  cases outcome <;> rfl

theorem lawfulBasisFromPb_number : lawfulBasisFromPb (lawfulBasisToPb basis).number = basis := by
  cases basis <;> rfl

theorem optionalId_getD (hn : ∀ v, value = some v → isBlank v = false) : optionalId (value.getD "") = value := by
  cases value with
  | none => rfl
  | some v => simp [optionalId, hn v rfl]

theorem piiFromPb_piiToPb (hn : ∀ pii, value = some pii → isBlank pii.subjectKeyRef = false) :
    (value.map piiToPb).mapM piiFromPb = .ok value := by
  cases value with
  | none => rfl
  | some pii =>
    have key : SubjectKeyRef.new pii.subjectKeyRef = .ok _ := stringId_ok.mpr ⟨hn pii rfl, rfl⟩
    simp only [map_some, mapM_some, piiFromPb, piiToPb, key]
    rfl

end Codec

/-- The identifiers are values of their types: their constructors have accepted them. -/
structure NewAuditEvent.Identified (input : NewAuditEvent) : Prop where
  eventId : isBlank input.eventId = false
  subject : ∀ subject, input.subject = some subject → isBlank subject = false
  tenant : ∀ tenant, input.tenant = some tenant → isBlank tenant = false
  actor : isBlank input.actor.pseudonym = false
  key : ∀ pii, input.pii = some pii → isBlank pii.subjectKeyRef = false

/-- An event comes back from its message, in whatever order the attributes travel, if and only if
its time has a leap second at most where a minute ends. -/
theorem event_round_trips_iff (input : NewAuditEvent) (event : AuditEvent) (attributes : List (String × String))
    (identified : input.Identified) (built : AuditEvent.tryNew input = .ok event)
    (order : attributes.Perm event.attributes.entries) :
    Codec.eventFromPb { Codec.eventToPb event with attributes } = .ok event ↔ event.occurredAt.Regular := by
  obtain ⟨lawful, named, rfl⟩ := AuditEvent.tryNew_ok.mp built
  have decoded : Codec.eventFromPb { Codec.eventToPb ⟨input⟩ with attributes } =
      .ok ⟨{ input with occurredAt := Codec.tsFromPb (some (Codec.tsToPb input.occurredAt)) }⟩ := by
    refine (Codec.eventFromPb_ok rfl).mpr ⟨input.category, input.outcome, input.pii, ?_, ?_, ?_, identified.actor,
      identified.eventId, AuditEvent.tryNew_ok.mpr ⟨?_, named, ?_⟩⟩
    · exact Codec.categoryFromPb_number
    · exact Codec.outcomeFromPb_number
    · exact Codec.piiFromPb_piiToPb identified.key
    · simpa only [Codec.eventToPb, Codec.lawfulBasisFromPb_number] using lawful
    · simp [Codec.eventToPb, Codec.lawfulBasisFromPb_number, Codec.actorToPb, Codec.actorTypeFromPb_number,
        Codec.optionalId_getD identified.subject, Codec.optionalId_getD identified.tenant, Codec.resourceFromPb,
        Codec.resourceToPb, SortedMap.ofPairs_of_perm order]
  rw [decoded, ← Codec.tsFromPb_tsToPb_eq_iff]
  constructor
  · intro same
    exact congrArg (·.occurredAt) (Except.ok.inj same)
  · intro same
    rw [same]

private def takedown : NewAuditEvent where
  eventId := "evt-1"
  category := .moderation
  subject := some "7f3a"
  tenant := none
  actor := ⟨.admin, "mod-1", ""⟩
  action := "content.removed"
  resource := ⟨"post", "p-1"⟩
  outcome := .executed
  lawfulBasis := .legalObligation
  sourceService := "moderation"
  correlationId := "c-1"
  -- A leap second.
  occurredAt := ⟨59, 1500000000, by decide, by decide⟩
  pii := some ⟨"dek-1", [1], [2], "aes-256-gcm"⟩
  attributes := (SortedMap.empty.insert "case" "c1").insert "rule" "r2"

private theorem takedown_identified : takedown.Identified := by
  refine ⟨by decide, ?_, ?_, by decide, ?_⟩
  · rintro _ ⟨⟩
    decide
  · rintro _ ⟨⟩
  · rintro _ ⟨⟩
    decide

theorem takedown_round_trips :
    Codec.eventFromPb { Codec.eventToPb ⟨takedown⟩ with attributes := [("rule", "r2"), ("case", "c1")] } =
      .ok ⟨takedown⟩ :=
  (event_round_trips_iff takedown _ _ takedown_identified (by decide) (by decide)).mpr (by decide)

/-- A leap second after the first second of a minute comes back as the epoch. -/
theorem takedown_dated_back : ∃ event,
    AuditEvent.tryNew { takedown with occurredAt := ⟨0, 1500000000, by decide, by decide⟩ } = .ok event ∧
    Codec.eventFromPb (Codec.eventToPb event) = .ok ⟨{ takedown with occurredAt := .epoch }⟩ ∧
    event.occurredAt ≠ .epoch :=
  ⟨_, rfl, by decide, by decide⟩

end CorePlatform.Audit
