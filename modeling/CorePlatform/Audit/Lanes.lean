import CorePlatform.Audit.Codec

/-! # One event on two lanes

An event may reach the audit plane as JSON or as a protobuf message. The two decoders have
tables of their own, and they differ in one entry: the JSON decoder does not know the
category `identity`.
-/

namespace CorePlatform.Audit

open Theory Option

namespace Pb

/-! The documented names, and the numbers of the enums' declarations. -/

def EventCategory.name : EventCategory → String
  | unspecified => "unspecified"
  | authentication => "authentication"
  | authorization => "authorization"
  | moderation => "moderation"
  | consent => "consent"
  | dataAccess => "data_access"
  | dataExport => "data_export"
  | dataErasure => "data_erasure"
  | privilegedAction => "privileged_action"
  | retention => "retention"
  | identity => "identity"

def EventCategory.number : EventCategory → Int
  | unspecified => 0
  | authentication => 1
  | authorization => 2
  | moderation => 3
  | consent => 4
  | dataAccess => 5
  | dataExport => 6
  | dataErasure => 7
  | privilegedAction => 8
  | retention => 9
  | identity => 10

def ActorType.name : ActorType → String
  | unspecified => "unspecified"
  | user => "user"
  | admin => "admin"
  | service => "service"
  | system => "system"

def ActorType.number : ActorType → Int
  | unspecified => 0
  | user => 1
  | admin => 2
  | service => 3
  | system => 4

def Outcome.name : Outcome → String
  | unspecified => "unspecified"
  | permitted => "permitted"
  | denied => "denied"
  | executed => "executed"
  | failed => "failed"

def Outcome.number : Outcome → Int
  | unspecified => 0
  | permitted => 1
  | denied => 2
  | executed => 3
  | failed => 4

def LawfulBasis.name : LawfulBasis → String
  | unspecified => "unspecified"
  | consent => "consent"
  | contract => "contract"
  | legalObligation => "legal_obligation"
  | vitalInterests => "vital_interests"
  | publicTask => "public_task"
  | legitimateInterests => "legitimate_interests"

def LawfulBasis.number : LawfulBasis → Int
  | unspecified => 0
  | consent => 1
  | contract => 2
  | legalObligation => 3
  | vitalInterests => 4
  | publicTask => 5
  | legitimateInterests => 6

end Pb

structure SamePii (base64 : Base64) (wire : PiiWire) (message : Pb.PiiEnvelope) : Prop where
  key : message.subjectKeyId = wire.subjectKeyRef
  ciphertext : base64.decode wire.ciphertextB64 = .ok message.ciphertext
  nonce : base64.decode wire.nonceB64 = .ok message.nonce
  algorithm : message.algorithm = wire.algorithm

/-- The wire event and the message carry the same values. What one leaves out is empty or
unspecified in the other. -/
structure SameFields (base64 : Base64) (wire : AuditEventWire) (message : Pb.AuditEvent) : Prop where
  eventId : message.eventId = wire.eventId
  category : ∃ c : Pb.EventCategory, wire.category = c.name ∧ message.category = c.number
  subject : message.subjectPseudonym = wire.subjectPseudonym.getD ""
  tenant : message.tenantId = wire.tenantId.getD ""
  actor : ∃ t : Pb.ActorType, (wire.actor.actorType = t.name ∨ wire.actor.actorType = "" ∧ t = .unspecified) ∧
    message.actor = some ⟨t.number, wire.actor.pseudonym, wire.actor.sessionRef⟩
  action : message.action = wire.action
  resource : message.resource.getD ⟨"", ""⟩ = ⟨wire.resource.resourceType, wire.resource.id⟩
  outcome : ∃ o : Pb.Outcome, wire.outcome = o.name ∧ message.outcome = o.number
  lawfulBasis : ∃ b : Pb.LawfulBasis,
    (wire.lawfulBasis = some b.name ∨ wire.lawfulBasis = none ∧ b = .unspecified) ∧
    message.lawfulBasis = b.number
  sourceService : message.sourceService = wire.sourceService
  correlationId : message.correlationId = wire.correlationId
  occurredAt : message.occurredAt = some ⟨wire.occurredAtMs / 1000, wire.occurredAtMs % 1000 * 1000000⟩
  pii : Option.Rel (SamePii base64) wire.pii message.pii
  attributes : message.attributes.Perm wire.attributes.entries

/-- Everything but the category and the lawful basis is as an event requires. -/
structure AuditEventWire.Complete (wire : AuditEventWire) : Prop where
  eventId : isBlank wire.eventId = false
  actor : isBlank wire.actor.pseudonym = false
  action : isBlank wire.action = false
  outcome : wire.outcome ≠ "unspecified"
  pii : ∀ pii, wire.pii = some pii → isBlank pii.subjectKeyRef = false

/-! The tables, entry by entry. -/

theorem category_tables {c : Pb.EventCategory} (hk : c ≠ .identity) :
    Decode.categoryFromStr c.name = .ok category ↔ Codec.categoryFromPb c.number = .ok category := by
  cases c with
  | identity => cases hk rfl
  | unspecified => exact iff_of_false nofun nofun
  | _ => exact Iff.rfl

theorem outcome_tables (o : Pb.Outcome) :
    Decode.outcomeFromStr o.name = .ok outcome ↔ Codec.outcomeFromPb o.number = .ok outcome := by
  cases o with
  | unspecified => exact iff_of_false nofun nofun
  | _ => exact Iff.rfl

theorem actorType_tables {t : Pb.ActorType} (eq : written = t.name ∨ written = "" ∧ t = .unspecified) :
    Decode.actorTypeFromStr written = Codec.actorTypeFromPb t.number := by
  rcases eq with rfl | ⟨rfl, rfl⟩
  · cases t <;> rfl
  · rfl

theorem lawfulBasis_tables {b : Pb.LawfulBasis} (eq : written = some b.name ∨ written = none ∧ b = .unspecified) :
    (written.map Decode.lawfulBasisFromStr).getD .unspecified = Codec.lawfulBasisFromPb b.number := by
  rcases eq with rfl | ⟨rfl, rfl⟩
  · cases b <;> rfl
  · rfl

theorem optional_ids : Decode.opt value = Codec.optionalId (value.getD "") := by
  cases value with
  | none => rfl
  | some v =>
    unfold Decode.opt Codec.optionalId
    cases blank : isBlank v <;> simp [blank]

theorem occurredAt_decoders :
    (DateTime.fromTimestampMillis ms).getD .epoch = Codec.tsFromPb (some ⟨ms / 1000, ms % 1000 * 1000000⟩) := by
  have nanos : (max (ms % 1000 * 1000000) 0).toNat = (ms % 1000).toNat * 1000000 := by omega
  simp only [DateTime.fromTimestampMillis, Codec.tsFromPb, bind_some, nanos]

variable {base64 : Base64}

theorem pii_decoders (eq : SamePii base64 wire message) : Decode.decodePii base64 wire = Codec.piiFromPb message := by
  have ciphertext : Decode.b64 base64 wire.ciphertextB64 = .ok message.ciphertext := by
    rw [Decode.b64, eq.ciphertext]
    rfl
  have nonce : (if wire.nonceB64.isEmpty then .ok [] else Decode.b64 base64 wire.nonceB64) =
      (.ok message.nonce : Except AuditError (List UInt8)) := by
    have decoded := eq.nonce
    cases empty : wire.nonceB64.isEmpty with
    | true =>
      rw [String.isEmpty_iff.mp empty, base64.decode_empty] at decoded
      rw [← Except.ok.inj decoded]
      rfl
    | false =>
      rw [Decode.b64, decoded]
      rfl
  unfold Decode.decodePii Codec.piiFromPb
  rw [ciphertext, nonce, eq.key, eq.algorithm]
  rfl

theorem pii_tables (eq : Option.Rel (SamePii base64) wire message) :
    wire.mapM (Decode.decodePii base64) = message.mapM Codec.piiFromPb := by
  cases eq with
  | none => rfl
  | some eq => rw [mapM_some, mapM_some, pii_decoders eq]

private theorem decoders_agree (eq : SameFields base64 wire message) (hk : wire.category ≠ "identity")
    (event : AuditEvent) : Decode.mapAuditEvent base64 wire = .ok event ↔ Codec.eventFromPb message = .ok event := by
  obtain ⟨c, hw, numbered⟩ := eq.category
  obtain ⟨_, typed, acting⟩ := eq.actor
  obtain ⟨_, outcomeWritten, outcomeNumbered⟩ := eq.outcome
  obtain ⟨_, basisWritten, basisNumbered⟩ := eq.lawfulBasis
  have notIdentity : c ≠ .identity := by
    rintro rfl
    exact hk hw
  have resource : (message.resource.map Codec.resourceFromPb).getD ⟨"", ""⟩ =
      ⟨wire.resource.resourceType, wire.resource.id⟩ := by
    have given := congrArg Codec.resourceFromPb eq.resource
    cases hf : message.resource with
    | none | some => rw [hf] at given; exact given
  rw [Decode.mapAuditEvent_ok, Codec.eventFromPb_ok acting]
  simp only [hw, numbered, outcomeWritten, outcomeNumbered, category_tables notIdentity, outcome_tables,
    pii_tables eq.pii, actorType_tables typed, lawfulBasis_tables basisWritten, basisNumbered, optional_ids,
    occurredAt_decoders, resource, eq.eventId, eq.subject, eq.tenant, eq.action, eq.sourceService,
    eq.correlationId, eq.occurredAt, SortedMap.ofPairs_of_perm eq.attributes]

private theorem outcome_accepted (o : Pb.Outcome) :
    (∃ outcome, Codec.outcomeFromPb o.number = .ok outcome) ↔ o.name ≠ "unspecified" := by
  cases o with
  | unspecified => exact iff_of_false nofun fun hn => hn rfl
  | _ => exact iff_of_true ⟨_, rfl⟩ (by decide)

private theorem pii_accepted (eq : Option.Rel (SamePii base64) wire message) :
    (∃ pii, message.mapM Codec.piiFromPb = .ok pii) ↔ ∀ pii, wire = some pii → isBlank pii.subjectKeyRef = false := by
  cases eq with
  | none => exact iff_of_true ⟨none, rfl⟩ nofun
  | @some w _ eq =>
    rw [mapM_some, Codec.piiFromPb, eq.key]
    constructor
    · rintro ⟨pii, ha⟩ _ given
      cases given
      obtain ⟨_, built, -⟩ := bind_ok_iff.mp ha
      obtain ⟨key, hn, -⟩ := bind_ok_iff.mp built
      exact (stringId_ok.mp hn).1
    · intro hn
      have key : SubjectKeyRef.new w.subjectKeyRef = .ok w.subjectKeyRef :=
        stringId_ok.mpr ⟨hn w rfl, rfl⟩
      rw [key]
      exact ⟨_, rfl⟩

private theorem identity_accepted (eq : SameFields base64 wire message) (identity : wire.category = "identity") :
    (∃ ev, Codec.eventFromPb message = .ok ev) ↔ wire.Complete := by
  obtain ⟨c, hw, numbered⟩ := eq.category
  obtain ⟨_, _, acting⟩ := eq.actor
  obtain ⟨o, outcomeWritten, outcomeNumbered⟩ := eq.outcome
  have cat : Codec.categoryFromPb message.category = .ok .identity := by
    rw [identity] at hw
    rw [numbered]
    cases c with
    | identity => rfl
    | _ => cases (show _ ≠ _ by decide) hw
  simp only [Codec.eventFromPb_ok acting, cat, AuditEvent.tryNew_ok, eq.eventId, eq.action]
  constructor
  · rintro ⟨ev, _, out, pii, -, ha, ho, actor, id, -, action, -⟩
    rw [outcomeNumbered] at ha
    refine ⟨id, actor, action, ?_, (pii_accepted eq.pii).mp ⟨pii, ho⟩⟩
    rw [outcomeWritten]
    exact (outcome_accepted o).mp ⟨out, ha⟩
  · intro complete
    obtain ⟨out, ha⟩ := (outcome_accepted o).mpr (outcomeWritten ▸ complete.outcome)
    obtain ⟨pii, ho⟩ := (pii_accepted eq.pii).mpr complete.pii
    exact ⟨_, .identity, out, pii, rfl, outcomeNumbered ▸ ha, ho, complete.actor,
      complete.eventId, rfl, complete.action, rfl⟩

/-- The lanes give one verdict on an event unless it is a complete `identity` event, which only the
protobuf lane takes. -/
theorem sameVerdict_iff_not_identity {base64 : Base64} {wire : AuditEventWire} {message : Pb.AuditEvent}
    (same : SameFields base64 wire message) :
    SameVerdict (Decode.mapAuditEvent base64 wire) (Codec.eventFromPb message) ↔
      ¬ (wire.category = "identity" ∧ wire.Complete) := by
  by_cases identity : wire.category = "identity"
  · have rejected : ∀ event, Decode.mapAuditEvent base64 wire ≠ .ok event := by
      intro event accepted
      obtain ⟨_, _, _, known, -⟩ := Decode.mapAuditEvent_ok.mp accepted
      rw [identity] at known
      cases known
    rw [sameVerdict_iff, ← identity_accepted same identity]
    constructor
    · rintro agree ⟨-, event, accepted⟩
      exact rejected event ((agree event).mpr accepted)
    · intro none event
      exact iff_of_false (rejected event) fun accepted => none ⟨identity, event, accepted⟩
  · exact iff_of_true (sameVerdict_iff.mpr (decoders_agree same identity)) fun both => identity both.1

/-- Base64 on the texts of the event below. -/
def sampleBase64 : Base64 where
  decode
    | "" => .ok []
    | "Y3Q=" => .ok (utf8 "ct")
    | "bg==" => .ok (utf8 "n")
    | _ => .error "Invalid input."
  decode_empty := rfl

/-- An event with sealed personal data, in a category of choice. -/
def sampleWire (category : String) : AuditEventWire where
  eventId := "evt-1"
  category := category
  subjectPseudonym := some "7f3a"
  tenantId := none
  actor := ⟨"admin", "mod-9", "s-1"⟩
  action := "account.read"
  resource := ⟨"account", "a-1"⟩
  outcome := "executed"
  lawfulBasis := some "consent"
  sourceService := "account"
  correlationId := ""
  occurredAtMs := 1500
  pii := some ⟨"dek:7f3a", "Y3Q=", "bg==", "AES-256-GCM"⟩
  attributes := SortedMap.empty.insert "reason" "review"

def sampleMessage (category : Int) : Pb.AuditEvent where
  eventId := "evt-1"
  category := category
  subjectPseudonym := "7f3a"
  tenantId := ""
  actor := some ⟨2, "mod-9", "s-1"⟩
  action := "account.read"
  resource := some ⟨"account", "a-1"⟩
  outcome := 3
  lawfulBasis := 1
  sourceService := "account"
  correlationId := ""
  occurredAt := some ⟨1, 500000000⟩
  pii := some ⟨"dek:7f3a", utf8 "ct", utf8 "n", "AES-256-GCM"⟩
  attributes := [("reason", "review")]

private theorem sample_same (c : Pb.EventCategory) :
    SameFields sampleBase64 (sampleWire c.name) (sampleMessage c.number) where
  eventId := rfl
  category := ⟨c, rfl, rfl⟩
  subject := rfl
  tenant := rfl
  actor := ⟨.admin, .inl rfl, rfl⟩
  action := rfl
  resource := rfl
  outcome := ⟨.executed, rfl, rfl⟩
  lawfulBasis := ⟨.consent, .inl rfl, rfl⟩
  sourceService := rfl
  correlationId := rfl
  occurredAt := rfl
  pii := .some ⟨rfl, rfl, rfl, rfl⟩
  attributes := .refl _

theorem sameVerdict_dataAccess :
    SameVerdict (Decode.mapAuditEvent sampleBase64 (sampleWire "data_access"))
      (Codec.eventFromPb (sampleMessage 5)) := by
  refine (sameVerdict_iff_not_identity (sample_same .dataAccess)).mpr ?_
  rintro ⟨identity, -⟩
  revert identity
  decide

/-- One `identity` event: the protobuf lane takes it, the JSON lane does not know its category. -/
theorem identityEvent_split :
    SameFields sampleBase64 (sampleWire "identity") (sampleMessage 10) ∧
      (∃ event, Codec.eventFromPb (sampleMessage 10) = .ok event) ∧
      Decode.mapAuditEvent sampleBase64 (sampleWire "identity") = .error (.unknownEventCategory "identity") ∧
      ¬ SameVerdict (Decode.mapAuditEvent sampleBase64 (sampleWire "identity"))
        (Codec.eventFromPb (sampleMessage 10)) := by
  have complete : (sampleWire "identity").Complete :=
    ⟨by decide, by decide, by decide, by decide, fun _ given => by cases given; decide⟩
  have accepted := (identity_accepted (sample_same .identity) rfl).mpr complete
  refine ⟨sample_same .identity, accepted, rfl, ?_⟩
  rintro (⟨event, taken, -⟩ | ⟨-, e, refused⟩)
  · cases taken
  · obtain ⟨_, taken⟩ := accepted
    cases taken.symm.trans refused

end CorePlatform.Audit
