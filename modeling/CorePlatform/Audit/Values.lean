import Mathlib.Algebra.Group.Int.Defs
import Mathlib.Logic.Function.Basic
import CorePlatform.Theory.Text
import CorePlatform.Audit.Error

/-! # Instants, identifiers and classifications of the audit domain

Identifiers are opaque strings. Their constructor refuses a blank value, but a value
read back from storage is deserialized without that check, so the types themselves
promise nothing.
-/

namespace CorePlatform.Audit

open Function

/-- A `DateTime<Utc>`: seconds since the epoch within the calendar's years, and the
nanoseconds into that second. A leap second counts on past a whole second, in any second. -/
structure DateTime where
  secs : Int
  nanos : Nat
  inCalendar : -8334601228800 ≤ secs ∧ secs ≤ 8210266876799
  subsecond : nanos < 2000000000
  deriving DecidableEq

namespace DateTime

instance : LE DateTime := ⟨fun a b => a.secs < b.secs ∨ (a.secs = b.secs ∧ a.nanos ≤ b.nanos)⟩

instance (a b : DateTime) : Decidable (a ≤ b) :=
  inferInstanceAs (Decidable (a.secs < b.secs ∨ (a.secs = b.secs ∧ a.nanos ≤ b.nanos)))

instance : LT DateTime := ⟨fun a b => ¬ b ≤ a⟩

instance (a b : DateTime) : Decidable (a < b) := inferInstanceAs (Decidable (¬ b ≤ a))

def epoch : DateTime := ⟨0, 0, by decide, by decide⟩

/-- A leap second only where a minute ends. -/
def Regular (t : DateTime) : Prop := t.nanos < 1000000000 ∨ t.secs % 60 = 59
  deriving Decidable

def fromTimestamp (secs : Int) (nanos : Nat) : Option DateTime :=
  if fits : (-8334601228800 ≤ secs ∧ secs ≤ 8210266876799) ∧ nanos < 2000000000 then
    let t : DateTime := ⟨secs, nanos, fits.1, fits.2⟩
    if t.Regular then some t else none
  else none

theorem fromTimestamp_secs_nanos (t : DateTime) :
    fromTimestamp t.secs t.nanos = if t.Regular then some t else none := by
  simp only [fromTimestamp, dif_pos (And.intro t.inCalendar t.subsecond)]

theorem epoch_regular : epoch.Regular := by decide

def fromTimestampMillis (millis : Int) : Option DateTime :=
  fromTimestamp (millis / 1000) ((millis % 1000).toNat * 1000000)

def timestampMillis (t : DateTime) : Int := t.secs * 1000 + (t.nanos / 1000000 : Nat)

theorem timestampMillis_fits (t : DateTime) : -2 ^ 63 ≤ t.timestampMillis ∧ t.timestampMillis < 2 ^ 63 := by
  obtain ⟨_, _, _, _⟩ := t
  simp only [timestampMillis]
  omega

end DateTime

def isWhitespace (c : Char) : Bool :=
  (0x9 ≤ c.toNat && c.toNat ≤ 0xd) || c.toNat == 0x20 || c.toNat == 0x85 || c.toNat == 0xa0 ||
    c.toNat == 0x1680 || (0x2000 ≤ c.toNat && c.toNat ≤ 0x200a) || c.toNat == 0x2028 ||
    c.toNat == 0x2029 || c.toNat == 0x202f || c.toNat == 0x205f || c.toNat == 0x3000

def isBlank (value : String) : Bool := value.toList.all isWhitespace

/-- The constructor shared by the identifier types. -/
def stringId (field value : String) : Except AuditError String :=
  if isBlank value then .error (.invalidIdentifier field) else .ok value

theorem stringId_ok {id : String} : stringId field value = .ok id ↔ isBlank value = false ∧ id = value := by
  unfold stringId
  cases isBlank value with
  | true => simp
  | false => simpa using eq_comm

abbrev EventId := String
abbrev SubjectPseudonym := String
abbrev TenantId := String
abbrev PartitionKey := String
abbrev ActorPseudonym := String
abbrev SubjectKeyRef := String

def EventId.new : String → Except AuditError EventId := stringId "event_id"
def SubjectPseudonym.new : String → Except AuditError SubjectPseudonym := stringId "subject_pseudonym"
def TenantId.new : String → Except AuditError TenantId := stringId "tenant_id"
def PartitionKey.new : String → Except AuditError PartitionKey := stringId "partition_key"
def ActorPseudonym.new : String → Except AuditError ActorPseudonym := stringId "actor_pseudonym"
def SubjectKeyRef.new : String → Except AuditError SubjectKeyRef := stringId "subject_key_ref"

inductive EventCategory where
  | authentication
  | authorization
  | moderation
  | consent
  | dataAccess
  | dataExport
  | dataErasure
  | privilegedAction
  | retention
  | identity
  deriving DecidableEq

namespace EventCategory

def requiresLawfulBasis : EventCategory → Bool
  | moderation | consent | dataAccess | dataExport | dataErasure => true
  | _ => false

def hashTag : EventCategory → UInt8
  | authentication => 1
  | authorization => 2
  | moderation => 3
  | consent => 4
  | dataAccess => 5
  | dataExport => 6
  | dataErasure => 7
  | privilegedAction => 8
  | retention => 9
  | identity => 10

theorem hashTag_injective : Injective hashTag := by
  intro a b eq
  cases a <;> cases b <;> first | rfl | cases eq

end EventCategory

inductive ActorType where
  | user
  | admin
  | service
  | system
  deriving DecidableEq

namespace ActorType

def hashTag : ActorType → UInt8
  | user => 1
  | admin => 2
  | service => 3
  | system => 4

theorem hashTag_injective : Injective hashTag := by
  intro a b eq
  cases a <;> cases b <;> first | rfl | cases eq

end ActorType

inductive Outcome where
  | permitted
  | denied
  | executed
  | failed
  deriving DecidableEq

namespace Outcome

def hashTag : Outcome → UInt8
  | permitted => 1
  | denied => 2
  | executed => 3
  | failed => 4

theorem hashTag_injective : Injective hashTag := by
  intro a b eq
  cases a <;> cases b <;> first | rfl | cases eq

end Outcome

inductive LawfulBasis where
  | unspecified
  | consent
  | contract
  | legalObligation
  | vitalInterests
  | publicTask
  | legitimateInterests
  deriving DecidableEq

namespace LawfulBasis

def isSpecified : LawfulBasis → Bool
  | unspecified => false
  | _ => true

def hashTag : LawfulBasis → UInt8
  | unspecified => 0
  | consent => 1
  | contract => 2
  | legalObligation => 3
  | vitalInterests => 4
  | publicTask => 5
  | legitimateInterests => 6

theorem hashTag_injective : Injective hashTag := by
  intro a b eq
  cases a <;> cases b <;> first | rfl | cases eq

end LawfulBasis

/-- Chains are keyed by realm and category; the subject stays out of the key, so an
erasure never fragments a chain. -/
def PartitionKey.derive (tenant : Option TenantId) (category : EventCategory) : PartitionKey :=
  tenant.getD "_global" ++ ":" ++ toString category.hashTag.toNat

theorem PartitionKey.derive_not_blank : isBlank (PartitionKey.derive tenant category) = false := by
  have separator : isWhitespace ':' = false := by decide
  simp [isBlank, PartitionKey.derive, separator]

theorem PartitionKey.derive_eq_iff :
    derive tenant cat = derive tenant' category' ↔
      tenant.getD "_global" = tenant'.getD "_global" ∧ cat = category' := by
  constructor
  · intro eq
    have hw (tenant : Option TenantId) (cat : EventCategory) : (derive tenant cat).toList =
        (tenant.getD "_global").toList ++ ':' :: (toString cat.hashTag.toNat).toList := by
      simp [derive]
    have lists := congrArg String.toList eq
    rw [hw, hw] at lists
    have even : (toString cat.hashTag.toNat).toList.count ':' = (toString category'.hashTag.toNat).toList.count ':' := by
      rw [Theory.count_toString _ rfl, Theory.count_toString _ rfl]
    obtain ⟨realms, tags⟩ := Theory.lastPart_inj even lists
    have numbers := congrArg Theory.readNat (String.toList_inj.mp tags)
    rw [Theory.readNat_toString, Theory.readNat_toString] at numbers
    exact ⟨String.toList_inj.mp realms, EventCategory.hashTag_injective (UInt8.toNat_inj.mp numbers)⟩
  · rintro ⟨realms, rfl⟩
    rw [derive, derive, realms]

/-- Two realms have separate partitions unless one is the realm of no tenant and the other a tenant
of its name. -/
theorem PartitionKey.derive_separates_iff (tenant tenant' : Option TenantId) (category category' : EventCategory) :
    (derive tenant category = derive tenant' category' → tenant = tenant' ∧ category = category') ↔
      ¬ (category = category' ∧
        (tenant = none ∧ tenant' = some "_global" ∨ tenant = some "_global" ∧ tenant' = none)) := by
  rw [derive_eq_iff]
  cases tenant <;> cases tenant' <;> simp [imp_not_comm, eq_comm]

/-- The name of the realm of no tenant is not reserved. -/
theorem PartitionKey.derive_mixes : ∃ tenant, TenantId.new "_global" = .ok tenant ∧
    derive none .moderation = derive (some tenant) .moderation :=
  ⟨"_global", by decide, rfl⟩

end CorePlatform.Audit
