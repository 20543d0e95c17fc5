import CorePlatform.Theory.HashChain
import CorePlatform.Audit.Event

/-! # The hash chain of a partition

A record carries a link: its position, the hash it follows and its own hash. A list of
records is chained when each follows the head its predecessor leaves.
-/

namespace CorePlatform.Audit

open Theory

/-- The last position and hash of a partition's chain. -/
structure ChainHead where
  sequence : UInt64
  hash : RecordHash
  deriving DecidableEq

structure ChainLink where
  sequence : UInt64
  prevHash : RecordHash
  recordHash : RecordHash
  deriving DecidableEq

/-- What one link hashes: its predecessor's hash, the payload and the position. -/
def linkBytes (prevHash : RecordHash) (payload : List UInt8) (sequence : UInt64) : List UInt8 :=
  (((({} : CanonicalWriter).str prevHash).bytes payload).u64 sequence.toNat).buf

theorem linkBytes_inj (fits : Fits (linkBytes prev payload seq))
    (eq : linkBytes prev payload seq = linkBytes prev' payload' seq') :
    prev = prev' ∧ payload = payload' ∧ seq = seq' := by
  have positions : Unambiguous fun n : UInt64 => le64 n.toNat :=
    .fixedWidth (fun _ => le64_length) fun m n eq =>
      UInt64.toNat_inj.mp (le64_inj m.toNat_lt n.toNat_lt eq)
  have unambiguous := text_unambiguous.pair (Unambiguous.framing.pair positions)
  have split : ∀ (prev : RecordHash) (payload : List UInt8) (seq : UInt64), linkBytes prev payload seq =
      text prev ++ (Unambiguous.framed payload ++ le64 seq.toNat) := by
    intros
    simp [linkBytes]
  rw [Fits, split] at fits
  rw [split, split] at eq
  have triples : (prev, payload, seq) = (prev', payload', seq') :=
    unambiguous.eq (Nat.lt_trans fits (by decide)) eq
  simpa using triples

variable (sha256 : Sha256)

def linkHash (prevHash : RecordHash) (payload : List UInt8) (sequence : UInt64) : RecordHash :=
  .digest sha256 (linkBytes prevHash payload sequence)

namespace ChainHead

def genesis : ChainHead := ⟨0, .genesis⟩

def linkNext (head : ChainHead) (payload : List UInt8) : ChainLink :=
  { sequence := head.sequence + 1
    prevHash := head.hash
    recordHash := linkHash sha256 head.hash payload (head.sequence + 1) }

def apply (_ : ChainHead) (link : ChainLink) : ChainHead := ⟨link.sequence, link.recordHash⟩

end ChainHead

def verifyLink (partition : PartitionKey) (prevHead : ChainHead) (payload : List UInt8)
    (link : ChainLink) : Except AuditError ChainHead :=
  if link.sequence ≠ prevHead.sequence + 1 then
    .error (.sequenceGap partition)
  else if link.prevHash ≠ prevHead.hash then
    .error (.chainHashMismatch link.sequence)
  else if linkHash sha256 link.prevHash payload link.sequence ≠ link.recordHash then
    .error (.chainHashMismatch link.sequence)
  else
    .ok (prevHead.apply link)

/-- An event as it sits in the ledger. -/
structure AuditRecord where
  event : AuditEvent
  partition : PartitionKey
  link : ChainLink
  recordedAt : DateTime
  piiErased : Bool
  deriving DecidableEq

namespace AuditRecord

def append (event : AuditEvent) (partition : PartitionKey) (head : ChainHead) (recordedAt : DateTime) :
    AuditRecord × ChainHead :=
  let link := head.linkNext sha256 event.canonicalBytes
  ({ event, partition, link, recordedAt, piiErased := false }, head.apply link)

def verify (record : AuditRecord) (prevHead : ChainHead) : Except AuditError ChainHead :=
  verifyLink sha256 record.partition prevHead record.event.canonicalBytes record.link

def Follows (record : AuditRecord) (head : ChainHead) : Prop :=
  record.link = head.linkNext sha256 record.event.canonicalBytes
  deriving Decidable

theorem append_follows (ev : AuditEvent) (part : PartitionKey) (recordedAt : DateTime) :
    (append sha256 ev part head recordedAt).1.Follows sha256 head := rfl

variable {sha256}

theorem verify_ok_iff {record : AuditRecord} :
    record.verify sha256 head = .ok next ↔ record.Follows sha256 head ∧ next = head.apply record.link := by
  obtain ⟨_, _, ⟨_, _, _⟩, _, _⟩ := record
  simp only [verify, verifyLink, Follows, ChainHead.linkNext, ChainLink.mk.injEq]
  split
  · simp_all
  split
  · simp_all
  · split
    · simp_all [eq_comm]
    · simp_all [eq_comm]

theorem verify_error {record : AuditRecord} (hf : record.verify sha256 head = .error e) :
    e = .sequenceGap record.partition ∨ e = .chainHashMismatch record.link.sequence := by
  simp only [verify, verifyLink] at hf
  split at hf
  · simp_all
  · split at hf
    · simp_all
    · split at hf <;> simp_all

end AuditRecord

def Chained (head : ChainHead) : List AuditRecord → Prop
  | [] => True
  | record :: rest => record.Follows sha256 head ∧ Chained (head.apply record.link) rest

def headAfter (head : ChainHead) (records : List AuditRecord) : ChainHead :=
  records.foldl (fun head record => head.apply record.link) head

@[simp] theorem headAfter_nil : headAfter head [] = head := rfl

@[simp] theorem headAfter_append : headAfter head (xs ++ ys) = headAfter (headAfter head xs) ys := by
  simp [headAfter]

theorem headAfter_of_getLast? (ends : records.getLast? = some last) :
    headAfter head records = ⟨last.link.sequence, last.link.recordHash⟩ := by
  obtain ⟨_, rfl⟩ := List.getLast?_eq_some_iff.mp ends
  simp [headAfter, ChainHead.apply]

variable {sha256}

theorem chained_append : ∀ {head : ChainHead},
    Chained sha256 head (xs ++ ys) ↔ Chained sha256 head xs ∧ Chained sha256 (headAfter head xs) ys := by
  induction xs with
  | nil => intro head; simp [Chained]
  | cons _ _ ih =>
    intro head
    simp only [List.cons_append, Chained, ih, headAfter, List.foldl_cons, and_assoc]

theorem Chained.verify_each {head : ChainHead} (hc : Chained sha256 head (before ++ record :: after)) :
    record.verify sha256 (headAfter head before) = .ok (headAfter head (before ++ [record])) := by
  obtain ⟨-, hf, -⟩ := chained_append.mp hc
  rw [headAfter_append]
  exact AuditRecord.verify_ok_iff.mpr ⟨hf, rfl⟩

theorem Chained.sequences : ∀ {head : ChainHead},
    Chained sha256 head records → head.sequence.toNat + records.length < 2 ^ 64 →
      records.map (·.link.sequence.toNat) = List.range' (head.sequence.toNat + 1) records.length := by
  induction records with
  | nil => intros; rfl
  | cons record rest ih =>
    rintro head ⟨hf, chained⟩ fits
    simp only [List.length_cons] at fits
    have position : record.link.sequence.toNat = head.sequence.toNat + 1 := by
      rw [hf, ChainHead.linkNext, UInt64.toNat_add]
      exact Nat.mod_eq_of_lt (by simp; omega)
    have rest := ih chained (by simp only [ChainHead.apply]; omega)
    simp only [List.map_cons, List.length_cons, List.range'_succ, rest, ChainHead.apply, position]

end CorePlatform.Audit
