import CorePlatform.Transport.Outcome

/-! # The audit service's error catalogue

The errors that the modelled functions return. The consumers look at two things of an error: its text
and whether a retry may resolve it.
-/

namespace CorePlatform.Audit

open Transport

inductive AuditError where
  | malformedAuditEvent (reason : String)
  | missingLawfulBasis
  | unknownEventCategory (category : String)
  | duplicateEvent (eventId : String)
  | chainHashMismatch (sequence : UInt64)
  | sequenceGap (partition : String)
  | chainHeadConflict (partition : String)
  | checkpointVerificationFailed
  | ledgerStoreUnavailable
  | archiveUnavailable
  | keyVaultUnavailable
  | shredBlockedByLegalHold (subject : String)
  | legalHoldActive
  | domainViolation (field message : String)
  | invalidIdentifier (field : String)
  deriving DecidableEq

namespace AuditError

def display : AuditError → String
  | malformedAuditEvent reason => "malformed audit event: " ++ reason
  | missingLawfulBasis => "audit event is missing its required lawful basis / category"
  | unknownEventCategory category => "unknown audit event category: '" ++ category ++ "'"
  | duplicateEvent eventId => "duplicate audit event '" ++ eventId ++ "' already recorded"
  | chainHashMismatch sequence => "ledger hash chain mismatch at sequence " ++ toString sequence
  | sequenceGap partition => "ledger sequence gap detected in partition '" ++ partition ++ "'"
  | chainHeadConflict partition => "ledger chain head conflict in partition '" ++ partition ++ "'"
  | checkpointVerificationFailed => "checkpoint verification failed against the external witness"
  | ledgerStoreUnavailable => "the append-only ledger store is unavailable"
  | archiveUnavailable => "the WORM archive is unavailable"
  | keyVaultUnavailable => "the key vault is unavailable"
  | shredBlockedByLegalHold subject =>
    "crypto-shred blocked: subject '" ++ subject ++ "' is under an active legal hold"
  | legalHoldActive => "operation blocked by an active legal hold"
  | domainViolation field message => "domain invariant violated on '" ++ field ++ "': " ++ message
  | invalidIdentifier field => "invalid identifier: '" ++ field ++ "'"

/-- Storage outages and a raced chain head may be retried; the integrity findings must alarm. -/
def isRetryable : AuditError → Bool
  | ledgerStoreUnavailable | archiveUnavailable | keyVaultUnavailable | chainHeadConflict _ => true
  | _ => false

instance : ClassifyError AuditError := ⟨isRetryable, display⟩

end AuditError
end CorePlatform.Audit
