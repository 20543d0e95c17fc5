import CorePlatform.Audit.AccountDecode
import CorePlatform.Audit.Ledger

/-! # The ids of account events

An event's id is made of its action, its account and its time alone. Two facts of one kind about one
account at one instant share an id, and the second is taken for a redelivery of the first. -/

namespace CorePlatform.Audit

open Theory

/-- Equal ids have equal names, and a time that is read from a text has one of its own, with three colons. -/
structure Formats.Lawful (formats : Formats) : Prop where
  ids : Function.Injective (formats.newV5 AccountDecode.nsAuditAccount)
  times : ∀ t t', t.Regular → t'.Regular → formats.toRfc3339 t = formats.toRfc3339 t' → t = t'
  colons : ∀ t, (formats.toRfc3339 t).toList.count ':' = 3

namespace AccountDecode

/-- What every variant carries, and the audit event it becomes once its personal data is sealed. -/
def mapped (formats : Formats) (pii : PiiEnvelope) (phone : Option PiiEnvelope) :
    AccountEventWire → Option (BareAccountEventWire × Except AuditError AuditEvent)
  | .accountCreated wire => some (wire.toBareAccountEventWire, mapAccountCreated formats wire pii)
  | .emailChanged wire => some (wire.toBareAccountEventWire, mapEmailChanged formats wire pii)
  | .emailVerified wire => some (wire.toBareAccountEventWire, mapEmailVerified formats wire pii)
  | .phoneChanged wire => some (wire.toBareAccountEventWire, mapPhoneChanged formats wire phone)
  | .passwordChanged wire => some (wire, mapPasswordChanged formats wire)
  | .mfaEnrolled wire => some (wire.toBareAccountEventWire, mapMfaEnrolled formats wire)
  | .mfaRevoked wire => some (wire, mapMfaRevoked formats wire)
  | .roleAssigned wire => some (wire.toBareAccountEventWire, mapRoleAssigned formats wire)
  | .roleRevoked wire => some (wire.toBareAccountEventWire, mapRoleRevoked formats wire)
  | .accountSuspended wire => some (wire.toBareAccountEventWire, mapAccountSuspended formats wire)
  | .accountActivated wire => some (wire, mapAccountActivated formats wire)
  | .accountDeactivated wire => some (wire, mapAccountDeactivated formats wire)
  | .accountDeleted wire => some (wire.toBareAccountEventWire, mapAccountDeleted formats wire)
  | .kycStatusChanged wire => some (wire.toBareAccountEventWire, mapKycStatusChanged formats wire)
  | .gdprDeletionRequested wire => some (wire.toBareAccountEventWire, mapGdprDeletionRequested formats wire)
  | .gdprDataExportRequested wire => some (wire, mapGdprDataExportRequested formats wire)
  | .other => none

/-- Events of one variant agree in the fields that go into the attributes or the actor. -/
def Agree : AccountEventWire → AccountEventWire → Prop
  | .accountCreated a, .accountCreated b => a.role = b.role ∧ a.status = b.status
  | .phoneChanged a, .phoneChanged b => a.newPhone.isNone = b.newPhone.isNone
  | .mfaEnrolled a, .mfaEnrolled b => a.recoveryCodesCount = b.recoveryCodesCount
  | .roleAssigned a, .roleAssigned b | .roleRevoked a, .roleRevoked b => a.role = b.role
  | .accountSuspended a, .accountSuspended b => a.reason = b.reason
  | .accountDeleted a, .accountDeleted b => a.deletedBy = b.deletedBy
  | .kycStatusChanged a, .kycStatusChanged b => a.oldStatus = b.oldStatus ∧ a.newStatus = b.newStatus
  | .gdprDeletionRequested a, .gdprDeletionRequested b =>
    a.retentionDays = b.retentionDays ∧ a.scheduledDeletionAt = b.scheduledDeletionAt
  | _, _ => True

/-- Where the first event has just been chained, the second, unless it was there before, is neither
found nor refused as a duplicate. -/
def ChainsBoth (event event' : AuditEvent) : Prop :=
  ∀ (ledger : Ledger) (record record' : AuditRecord) (head head' : ChainHead),
    record.event = event → record'.event = event' → ¬ ledger.Known event'.eventId →
    (ledger.append record head).2 = .ok () →
      (ledger.append record head).1.lookup event'.eventId = .ok none ∧
        ((ledger.append record head).1.append record' head').2 ≠ .error (.duplicateEvent event'.eventId)

theorem chainsBoth (ne : event.eventId ≠ event'.eventId) : ChainsBoth event event' := by
  rintro ledger record record' head head' rfl rfl unknown appended
  have unknown' : ¬ (ledger.append record head).1.Known record'.event.eventId := by
    rintro ⟨row, mem, eq⟩
    simp only [Ledger.append, Ledger.insert] at mem appended
    split_ifs at mem appended
    all_goals simp at mem appended
    rcases mem with old | rfl
    · exact unknown ⟨row, old, eq⟩
    · exact ne eq
  constructor
  · have missing : (ledger.append record head).1.rows.find? (·.eventId = record'.event.eventId) = none := by
      simpa [Ledger.Known] using unknown'
    simp only [Ledger.lookup, missing]
  · generalize (ledger.append record head).1 = ledger at unknown'
    simp only [Ledger.append, Ledger.insert]
    split_ifs <;> simp

variable {formats : Formats}

theorem accountEvent_eventId
    (hb : accountEvent formats action category actorType pseudonym accId occurredAt correlationId
      lawfulBasis pii attributes = .ok event) :
    event.action = action ∧ event.eventId = deriveId formats [action, accId, formats.toRfc3339 occurredAt] := by
  unfold accountEvent at hb
  obtain ⟨_, id, hb⟩ := bind_ok_iff.mp hb
  obtain ⟨_, -, hb⟩ := bind_ok_iff.mp hb
  obtain ⟨_, -, hb⟩ := bind_ok_iff.mp hb
  obtain ⟨-, -, rfl⟩ := AuditEvent.tryNew_ok.mp hb
  exact ⟨rfl, (stringId_ok.mp id).2⟩

theorem mapped_eventId (maps : mapped formats pii phone wire = some (fields, .ok ev)) :
    ev.eventId = deriveId formats [ev.action, fields.accountId, formats.toRfc3339 fields.occurredAt] := by
  cases wire <;> simp only [mapped, Option.some.injEq, Prod.mk.injEq, reduceCtorEq] at maps
  all_goals
    obtain ⟨rfl, built⟩ := maps
    obtain ⟨hn, id⟩ := accountEvent_eventId built
    rw [hn, id]

theorem deriveId_inj (hl : formats.Lawful) (regular : t.Regular) (regular' : t'.Regular)
    (eq : deriveId formats [action, accId, formats.toRfc3339 t] =
      deriveId formats [action, accountId', formats.toRfc3339 t']) : accId = accountId' ∧ t = t' := by
  have names := congrArg String.toList (utf8_injective (hl.ids eq))
  simp at names
  have even := (hl.colons t).trans (hl.colons t').symm
  obtain ⟨accounts, times⟩ := lastPart_inj even names
  exact ⟨String.toList_inj.mp accounts, hl.times t t' regular regular' (String.toList_inj.mp times)⟩

/-- Two events of one variant that differ in account, time or a copied field get ids of their own
and are both chained, if and only if no two facts about one account at one time differ. -/
theorem facts_chained_apart_iff (lawful : formats.Lawful)
    (maps : mapped formats pii phone wire = some (fields, .ok event))
    (maps' : mapped formats pii' phone' wire' = some (fields', .ok event')) (variant : event.action = event'.action) :
    (fields.accountId ≠ fields'.accountId ∨ fields.occurredAt ≠ fields'.occurredAt ∨ ¬ Agree wire wire' →
      event.eventId ≠ event'.eventId ∧ ChainsBoth event event') ↔
    (fields.accountId = fields'.accountId → fields.occurredAt = fields'.occurredAt → Agree wire wire') := by
  have id := mapped_eventId maps
  have id' := mapped_eventId maps'
  rw [← variant] at id'
  constructor
  · intro apart account time
    by_contra differ
    apply (apart (.inr (.inr differ))).1
    rw [id, id', account, time]
  · intro agree differ
    have apart : event.eventId ≠ event'.eventId := by
      intro same
      rw [id, id'] at same
      obtain ⟨account, time⟩ := deriveId_inj lawful fields.regular fields'.regular same
      rcases differ with other | other | other
      · exact other account
      · exact other time
      · exact other (agree account time)
    exact ⟨apart, chainsBoth apart⟩

/-- Texts such as the theorem asks for. -/
def plainFormats : Formats where
  newV5 _ name := "v5-" ++ toHex name
  newV5_not_blank _ _ := by
    have letter : isWhitespace 'v' = false := by decide
    simp [isBlank, letter]
  toRfc3339 t := ":::" ++ toString (t.secs * 2 ^ 32 + t.nanos)

theorem plainFormats_lawful : plainFormats.Lawful where
  ids _ _ same := toHex_injective (by simpa [plainFormats] using same)
  times t t' _ _ same := by
    have texts : toString (t.secs * 2 ^ 32 + t.nanos) = toString (t'.secs * 2 ^ 32 + t'.nanos) := by
      simpa [plainFormats] using same
    have equal := congrArg readInt texts
    rw [readInt_toString, readInt_toString] at equal
    have small := t.subsecond
    have small' := t'.subsecond
    rw [DateTime.mk.injEq]
    omega
  colons t := by
    have none : (toString (t.secs * 2 ^ 32 + t.nanos)).toList.count ':' = 0 :=
      List.count_eq_zero.mpr fun mem => by simpa using mem_toString mem
    simpa [plainFormats] using none

/-- `acc-1` is given a role. -/
def assigned (role : String) (occurredAt : DateTime) (regular : occurredAt.Regular := by decide) : RoleWire :=
  ⟨⟨"acc-1", occurredAt, "", regular⟩, role⟩

theorem assigned_ok {regular : occurredAt.Regular} :
    ∃ event, mapRoleAssigned formats (assigned role occurredAt regular) = .ok event :=
  accountEvent_ok (by decide) (by decide) (by decide) (show isBlank "acc-1" = false by decide) _

theorem facts_chained_apart_later : ∃ event event',
    mapRoleAssigned plainFormats (assigned "admin" .epoch) = .ok event ∧
    mapRoleAssigned plainFormats (assigned "auditor" ⟨1, 0, by decide, by decide⟩) = .ok event' ∧
    event.eventId ≠ event'.eventId ∧ ChainsBoth event event' := by
  obtain ⟨event, ok⟩ := assigned_ok
  obtain ⟨event', ok'⟩ := assigned_ok
  have variant := (accountEvent_eventId ok).1.trans (accountEvent_eventId ok').1.symm
  have maps {role : String} {t : DateTime} {regular : t.Regular} {event : AuditEvent}
      (ok : mapRoleAssigned plainFormats (assigned role t regular) = .ok event) :
      mapped plainFormats ⟨"", [], [], ""⟩ none (.roleAssigned (assigned role t regular)) =
        some (⟨"acc-1", t, "", regular⟩, .ok event) := by
    rw [mapped, ok]
    rfl
  refine ⟨event, event', ok, ok', (facts_chained_apart_iff plainFormats_lawful (maps ok) (maps ok') variant).mpr ?_ ?_⟩
  · intro account time
    cases time
  · exact .inr (.inl (by decide))

/-- Two roles given at one instant have one id. -/
theorem second_role_lost : ∃ event event',
    mapRoleAssigned plainFormats (assigned "admin" .epoch) = .ok event ∧
    mapRoleAssigned plainFormats (assigned "auditor" .epoch) = .ok event' ∧
    ¬ Agree (.roleAssigned (assigned "admin" .epoch)) (.roleAssigned (assigned "auditor" .epoch)) ∧
    event.eventId = event'.eventId := by
  obtain ⟨event, ok⟩ := assigned_ok
  obtain ⟨event', ok'⟩ := assigned_ok
  exact ⟨event, event', ok, ok', by simp [Agree, assigned],
    (accountEvent_eventId ok).2.trans (accountEvent_eventId ok').2.symm⟩

end AccountDecode
end CorePlatform.Audit
