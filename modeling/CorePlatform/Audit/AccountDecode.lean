import CorePlatform.Audit.Event

/-! # The account feed's events

The wire events of `account.v1.events` and the audit events they become. The maps that
carry personal data take it already sealed.
-/

namespace CorePlatform.Audit

open Theory

/-- Identifier and time texts of the `uuid` and `chrono` packages. -/
structure Formats where
  /-- `Uuid::new_v5(namespace, name).to_string()`. -/
  newV5 : (ns : Nat) → (name : List UInt8) → String
  newV5_not_blank : ∀ ns name, isBlank (newV5 ns name) = false
  toRfc3339 : DateTime → String

namespace AccountDecode

def nsAuditAccount : Nat := 0x6175_6469_745f_6163_6374_5f65_7674_5f35

def source : String := "account"

structure BareAccountEventWire where
  accountId : String
  occurredAt : DateTime
  correlationId : String
  /-- The time was read from a text, which has no other leap seconds. -/
  regular : occurredAt.Regular

structure AccountCreatedWire extends BareAccountEventWire where
  email : String
  role : String
  status : String
  countryOfResidence : Option String

structure EmailChangedWire extends BareAccountEventWire where
  oldEmail : String
  newEmail : String

structure EmailVerifiedWire extends BareAccountEventWire where
  email : String

structure PhoneChangedWire extends BareAccountEventWire where
  newPhone : Option String

structure MfaEnrolledWire extends BareAccountEventWire where
  recoveryCodesCount : UInt64

structure RoleWire extends BareAccountEventWire where
  role : String

structure AccountSuspendedWire extends BareAccountEventWire where
  reason : String

structure AccountDeletedWire extends BareAccountEventWire where
  deletedBy : Option String

structure KycStatusChangedWire extends BareAccountEventWire where
  oldStatus : String
  newStatus : String

structure GdprDeletionRequestedWire extends BareAccountEventWire where
  retentionDays : UInt32
  scheduledDeletionAt : DateTime

abbrev GdprDataExportRequestedWire := BareAccountEventWire

inductive AccountEventWire where
  | accountCreated (wire : AccountCreatedWire)
  | emailChanged (wire : EmailChangedWire)
  | emailVerified (wire : EmailVerifiedWire)
  | phoneChanged (wire : PhoneChangedWire)
  | passwordChanged (wire : BareAccountEventWire)
  | mfaEnrolled (wire : MfaEnrolledWire)
  | mfaRevoked (wire : BareAccountEventWire)
  | roleAssigned (wire : RoleWire)
  | roleRevoked (wire : RoleWire)
  | accountSuspended (wire : AccountSuspendedWire)
  | accountActivated (wire : BareAccountEventWire)
  | accountDeactivated (wire : BareAccountEventWire)
  | accountDeleted (wire : AccountDeletedWire)
  | kycStatusChanged (wire : KycStatusChangedWire)
  | gdprDeletionRequested (wire : GdprDeletionRequestedWire)
  | gdprDataExportRequested (wire : GdprDataExportRequestedWire)
  | other

def AccountCreatedWire.piiPlaintext (wire : AccountCreatedWire) : String :=
  "email=" ++ wire.email ++ ";country=" ++ wire.countryOfResidence.getD ""

def EmailChangedWire.piiPlaintext (wire : EmailChangedWire) : String :=
  "old_email=" ++ wire.oldEmail ++ ";new_email=" ++ wire.newEmail

def EmailVerifiedWire.piiPlaintext (wire : EmailVerifiedWire) : String := "email=" ++ wire.email

/-- A removal carries no number. -/
def PhoneChangedWire.piiPlaintext (wire : PhoneChangedWire) : Option String :=
  wire.newPhone.map ("phone=" ++ ·)

variable (formats : Formats)

def deriveId (parts : List String) : String := formats.newV5 nsAuditAccount (utf8 (":".intercalate parts))

/-- The occurrence time is folded into the id, so that recurring events get ids of their own. -/
def accountEvent (action : String) (category : EventCategory) (actorType : ActorType)
    (actorPseudonym accountId : String) (occurredAt : DateTime) (correlationId : String)
    (lawfulBasis : LawfulBasis) (pii : Option PiiEnvelope) (attributes : SortedMap String String) :
    Except AuditError AuditEvent := do
  let eventId ← EventId.new (deriveId formats [action, accountId, formats.toRfc3339 occurredAt])
  let subject ← SubjectPseudonym.new accountId
  let pseudonym ← ActorPseudonym.new actorPseudonym
  AuditEvent.tryNew
    { eventId, category, subject := some subject, tenant := none
      actor := ⟨actorType, pseudonym, ""⟩, action, resource := ⟨"account", accountId⟩
      outcome := .executed, lawfulBasis, sourceService := source, correlationId, occurredAt, pii
      attributes }

variable {formats} in
theorem accountEvent_ok (hn : isBlank action = false)
    (hl : (cat.requiresLawfulBasis && !lawfulBasis.isSpecified) = false)
    (ha : isBlank actorPseudonym = false) (hac : isBlank accId = false)
    (hat : SortedMap String String) :
    ∃ event, accountEvent formats action cat actorType actorPseudonym accId occurredAt correlationId
      lawfulBasis pii hat = .ok event := by
  have id : EventId.new (deriveId formats [action, accId, formats.toRfc3339 occurredAt]) = .ok _ :=
    stringId_ok.mpr ⟨formats.newV5_not_blank .., rfl⟩
  have subject : SubjectPseudonym.new accId = .ok _ := stringId_ok.mpr ⟨hac, rfl⟩
  have pseudonym : ActorPseudonym.new actorPseudonym = .ok _ := stringId_ok.mpr ⟨ha, rfl⟩
  unfold accountEvent
  rw [id, subject, pseudonym]
  exact ⟨_, AuditEvent.tryNew_ok.mpr ⟨hl, hn, rfl⟩⟩

def mapAccountCreated (wire : AccountCreatedWire) (sealedPii : PiiEnvelope) : Except AuditError AuditEvent :=
  let attributes := if wire.role.isEmpty then .empty else SortedMap.empty.insert "role" wire.role
  let attributes := if wire.status.isEmpty then attributes else attributes.insert "status" wire.status
  accountEvent formats "account.created" .identity .system source wire.accountId wire.occurredAt
    wire.correlationId .contract (some sealedPii) attributes

def mapEmailChanged (wire : EmailChangedWire) (sealedPii : PiiEnvelope) : Except AuditError AuditEvent :=
  accountEvent formats "account.email_changed" .authentication .user wire.accountId wire.accountId
    wire.occurredAt wire.correlationId .contract (some sealedPii) .empty

def mapEmailVerified (wire : EmailVerifiedWire) (sealedPii : PiiEnvelope) : Except AuditError AuditEvent :=
  accountEvent formats "account.email_verified" .authentication .user wire.accountId wire.accountId
    wire.occurredAt wire.correlationId .contract (some sealedPii) .empty

def mapPhoneChanged (wire : PhoneChangedWire) (sealedPii : Option PiiEnvelope) : Except AuditError AuditEvent :=
  let attributes := if wire.newPhone.isNone then SortedMap.empty.insert "phone_removed" "true" else .empty
  accountEvent formats "account.phone_changed" .authentication .user wire.accountId wire.accountId
    wire.occurredAt wire.correlationId (if sealedPii.isSome then .contract else .unspecified) sealedPii
    attributes

def mapGdprDeletionRequested (wire : GdprDeletionRequestedWire) : Except AuditError AuditEvent :=
  let attributes := SortedMap.empty.insert "retention_days" (toString wire.retentionDays)
  let attributes := attributes.insert "scheduled_deletion_at" (formats.toRfc3339 wire.scheduledDeletionAt)
  accountEvent formats "account.gdpr_deletion_requested" .dataErasure .user wire.accountId wire.accountId
    wire.occurredAt wire.correlationId .legalObligation none attributes

def mapGdprDataExportRequested (wire : GdprDataExportRequestedWire) : Except AuditError AuditEvent :=
  accountEvent formats "account.gdpr_data_export_requested" .dataExport .user wire.accountId wire.accountId
    wire.occurredAt wire.correlationId .legalObligation none .empty

def bare (wire : BareAccountEventWire) (action : String) (category : EventCategory)
    (actorType : ActorType) : Except AuditError AuditEvent :=
  let actor := if actorType = .user then wire.accountId else source
  accountEvent formats action category actorType actor wire.accountId wire.occurredAt wire.correlationId
    .unspecified none .empty

def mapPasswordChanged (wire : BareAccountEventWire) : Except AuditError AuditEvent :=
  bare formats wire "account.password_changed" .authentication .user

def mapMfaRevoked (wire : BareAccountEventWire) : Except AuditError AuditEvent :=
  bare formats wire "account.mfa_revoked" .authentication .user

def mapMfaEnrolled (wire : MfaEnrolledWire) : Except AuditError AuditEvent :=
  let attributes := SortedMap.empty.insert "recovery_codes_count" (toString wire.recoveryCodesCount)
  accountEvent formats "account.mfa_enrolled" .authentication .user wire.accountId wire.accountId
    wire.occurredAt wire.correlationId .unspecified none attributes

def mapAccountActivated (wire : BareAccountEventWire) : Except AuditError AuditEvent :=
  bare formats wire "account.activated" .identity .system

def mapAccountDeactivated (wire : BareAccountEventWire) : Except AuditError AuditEvent :=
  bare formats wire "account.deactivated" .identity .system

def mapAccountSuspended (wire : AccountSuspendedWire) : Except AuditError AuditEvent :=
  let attributes := if wire.reason.isEmpty then .empty else SortedMap.empty.insert "reason" wire.reason
  accountEvent formats "account.suspended" .identity .system source wire.accountId wire.occurredAt
    wire.correlationId .unspecified none attributes

/-- A deletion by an administrator names them; one by the system or the owner does not. -/
def mapAccountDeleted (wire : AccountDeletedWire) : Except AuditError AuditEvent :=
  let (actorType, actor) : ActorType × String :=
    match wire.deletedBy with
    | some admin => (.admin, admin)
    | none => (.system, source)
  accountEvent formats "account.deleted" .identity actorType actor wire.accountId wire.occurredAt
    wire.correlationId .unspecified none .empty

def roleEvent (wire : RoleWire) (action : String) : Except AuditError AuditEvent :=
  accountEvent formats action .authorization .system source wire.accountId wire.occurredAt
    wire.correlationId .unspecified none (SortedMap.empty.insert "role" wire.role)

def mapRoleAssigned (wire : RoleWire) : Except AuditError AuditEvent :=
  roleEvent formats wire "account.role_assigned"

def mapRoleRevoked (wire : RoleWire) : Except AuditError AuditEvent :=
  roleEvent formats wire "account.role_revoked"

def mapKycStatusChanged (wire : KycStatusChangedWire) : Except AuditError AuditEvent :=
  let attributes := SortedMap.empty.insert "old_status" wire.oldStatus
  let attributes := attributes.insert "new_status" wire.newStatus
  accountEvent formats "account.kyc_status_changed" .identity .system source wire.accountId
    wire.occurredAt wire.correlationId .unspecified none attributes

end AccountDecode
end CorePlatform.Audit
