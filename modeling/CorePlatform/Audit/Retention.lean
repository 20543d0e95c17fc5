import CorePlatform.Audit.Values

/-! # Legal holds

A hold on a subject suspends its erasure between its placement and its release.
-/

namespace CorePlatform.Audit

structure LegalHold where
  id : String
  subject : SubjectPseudonym
  placedAt : DateTime
  releasedAt : Option DateTime

namespace LegalHold

def placed (id : String) (subject : SubjectPseudonym) (placedAt : DateTime) : LegalHold :=
  ⟨id, subject, placedAt, none⟩

def isActive (hold : LegalHold) (now : DateTime) : Bool :=
  decide (hold.placedAt ≤ now) && hold.releasedAt.all fun released => decide (now < released)

def covers (hold : LegalHold) (subject : SubjectPseudonym) (now : DateTime) : Bool :=
  hold.isActive now && hold.subject == subject

end LegalHold

def authorizeErasure (subject : SubjectPseudonym) (holds : List LegalHold) (now : DateTime) : Except AuditError Unit :=
  if holds.any (·.covers subject now) then .error (.shredBlockedByLegalHold subject) else .ok ()

def Held (holds : List LegalHold) (subject : SubjectPseudonym) (now : DateTime) : Prop :=
  ∃ hold ∈ holds, hold.covers subject now = true
  deriving Decidable

theorem authorizeErasure_ok_iff : authorizeErasure subject holds now = .ok () ↔ ¬ Held holds subject now := by
  unfold authorizeErasure Held
  rw [← List.any_eq_true]
  cases holds.any (·.covers subject now) with
  | true | false => simp

end CorePlatform.Audit
