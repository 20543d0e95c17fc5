import CorePlatform.Audit.Ledger

/-! # Integrity verification

`verifyPartition` walks a partition's stored records from genesis, `verifyGlobal`
compares the partition heads with the latest anchored checkpoint. A finding is a report,
not an error.
-/

namespace CorePlatform.Audit

open Theory

inductive IntegrityStatus where
  | verified
  | hashMismatch
  | sequenceGap
  | checkpointDivergence
  deriving DecidableEq

structure IntegrityReport where
  status : IntegrityStatus
  verifiedThrough : UInt64
  divergenceAt : Option UInt64
  checkpointRoot : Option RecordHash
  deriving DecidableEq

namespace IntegrityReport

def verified (through : UInt64) : IntegrityReport := ⟨.verified, through, none, none⟩

def report (status : IntegrityStatus) (verifiedThrough : UInt64) (divergenceAt : Option UInt64) :
    IntegrityReport := ⟨status, verifiedThrough, divergenceAt, none⟩

end IntegrityReport

variable (sha256 : Sha256)

/-- The loop of `verifyPartition`. -/
def walk (head : ChainHead) : List AuditRecord → Except AuditError IntegrityReport
  | [] => .ok (.verified head.sequence)
  | record :: rest =>
    match record.verify sha256 head with
    | .ok next => walk next rest
    | .error (.chainHashMismatch sequence) => .ok (.report .hashMismatch head.sequence (some sequence))
    | .error (.sequenceGap _) => .ok (.report .sequenceGap head.sequence (some record.link.sequence))
    | .error other => .error other

def verifyPartition (ledger : Ledger) (partition : PartitionKey) : Except AuditError IntegrityReport := do
  walk sha256 .genesis (← ledger.readPartition partition)

/-- `latest` is the answer of the anchor's `latest_anchored`. -/
def verifyGlobal (ledger : Ledger) (latest : Except AuditError (Option MerkleCheckpoint)) :
    Except AuditError IntegrityReport :=
  match latest with
  | .ok none => .ok (.verified 0)
  | .error .checkpointVerificationFailed => .ok (.report .checkpointDivergence 0 none)
  | .error other => .error other
  | .ok (some checkpoint) =>
    match checkpoint.verifyAgainst sha256 ledger.partitionHeads with
    | .ok () => .ok ⟨.verified, 0, none, some checkpoint.root⟩
    | .error .checkpointVerificationFailed => .ok ⟨.checkpointDivergence, 0, none, some checkpoint.root⟩
    | .error other => .error other

def Clears (answer : Except AuditError IntegrityReport) : Prop :=
  ∃ report, answer = .ok report ∧ report.status = .verified

variable {sha256} {records : List AuditRecord} {ledger : Ledger}

theorem walk_chained : ∀ {head : ChainHead}, Chained sha256 head records →
    walk sha256 head records = .ok (.verified (headAfter head records).sequence) := by
  induction records with
  | nil => intros; rfl
  | cons _ _ ih =>
    rintro head ⟨hf, chained⟩
    have next := AuditRecord.verify_ok_iff.mpr ⟨hf, rfl⟩
    simp only [walk, next, ih chained]
    rfl

theorem walk_clears_iff : ∀ {head : ChainHead}, Clears (walk sha256 head records) ↔ Chained sha256 head records := by
  induction records with
  | nil => intro head; exact ⟨fun _ => trivial, fun _ => ⟨_, rfl, rfl⟩⟩
  | cons record _ ih =>
    intro head
    constructor
    · rintro ⟨report, walked, clear⟩
      simp only [walk] at walked
      cases verdict : record.verify sha256 head with
      | ok =>
        obtain ⟨hf, rfl⟩ := AuditRecord.verify_ok_iff.mp verdict
        rw [verdict] at walked
        exact ⟨hf, ih.mp ⟨report, walked, clear⟩⟩
      | error =>
        -- Either finding puts its own status in the report.
        rcases AuditRecord.verify_error verdict with rfl | rfl
        all_goals
          rw [verdict] at walked
          cases walked
          cases clear
    · intro chained
      exact ⟨_, walk_chained chained, rfl⟩

theorem verifyPartition_of_read (read : ledger.readPartition partition = .ok records) :
    verifyPartition sha256 ledger partition = walk sha256 .genesis records := by
  simp [verifyPartition, read, bind, Except.bind]

theorem verifyGlobal_clears_iff :
    Clears (verifyGlobal sha256 ledger (.ok (some cp))) ↔ cp.verifyAgainst sha256 ledger.partitionHeads = .ok () := by
  simp only [verifyGlobal]
  constructor
  · rintro ⟨report, ans, clear⟩
    cases verdict : cp.verifyAgainst sha256 ledger.partitionHeads with
    | ok => rfl
    | error =>
      rw [verdict, MerkleCheckpoint.verifyAgainst_error verdict] at ans
      cases ans
      cases clear
  · intro agrees
    rw [agrees]
    exact ⟨_, rfl, rfl⟩

/-- What the records of a chain hash, each by its own stored link. -/
def hashedBy (records : List AuditRecord) : Set (List UInt8) :=
  { bytes | ∃ record ∈ records,
      bytes = linkBytes record.link.prevHash record.event.canonicalBytes record.link.sequence }

/-- What the readable partitions of a table hash. -/
def Ledger.hashed (ledger : Ledger) : Set (List UInt8) :=
  { bytes | ∃ partition records, ledger.readPartition partition = .ok records ∧ bytes ∈ hashedBy records }

theorem Ledger.hashedBy_subset (read : ledger.readPartition part = .ok records) :
    hashedBy records ⊆ ledger.hashed :=
  fun _ hashed => ⟨part, records, read, hashed⟩

/-- What is asked of the digest and of the bytes it is applied to: no collision among them, genesis not
among their digests, and each a buffer memory can hold. -/
structure Sound (sha256 : Sha256) (inputs : Set (List UInt8)) : Prop where
  free : Set.InjOn sha256 inputs
  fresh : ∀ bytes ∈ inputs, RecordHash.digest sha256 bytes ≠ .genesis
  fits : ∀ bytes ∈ inputs, Fits bytes

theorem Sound.mono (inv : Sound sha256 inputs) (hf : inputs' ⊆ inputs) : Sound sha256 inputs' :=
  ⟨inv.free.mono hf, fun b h => inv.fresh b (hf h), fun b h => inv.fits b (hf h)⟩

theorem Sound.ofList {inputs : List (List UInt8)} (distinct : (inputs.map sha256).Nodup)
    (fresh : ∀ bytes ∈ inputs, RecordHash.digest sha256 bytes ≠ .genesis)
    (fits : ∀ bytes ∈ inputs, bytes.length < 2 ^ 63) : Sound sha256 { bytes | bytes ∈ inputs } where
  free _ hx _ hy same := List.inj_on_of_nodup_map distinct hx hy same
  fresh := fresh
  fits := fits

/-- The content of a record under the chain's protection. -/
def AuditRecord.content (record : AuditRecord) : List UInt8 × ChainLink :=
  (record.event.canonicalBytes, record.link)

private def payload (record : AuditRecord) : List UInt8 × UInt64 :=
  (record.event.canonicalBytes, record.link.sequence)

private def absorb (sha256 : Sha256) (hash : RecordHash) (payload : List UInt8 × UInt64) : RecordHash :=
  linkHash sha256 hash payload.1 payload.2

private theorem absorb_follows (hf : record.Follows sha256 head) :
    absorb sha256 head.hash (payload record) = record.link.recordHash := by
  rw [absorb, payload, hf, ChainHead.linkNext]

private theorem Chained.tip : ∀ {head : ChainHead},
    Chained sha256 head records →
      HashChain.tip (absorb sha256) head.hash (records.map payload) = (headAfter head records).hash := by
  induction records with
  | nil => intros; rfl
  | cons _ rest ih =>
    rintro head ⟨hf, chained⟩
    have rest := ih chained
    simp only [HashChain.tip, List.map_cons, List.foldl_cons, absorb_follows hf]
    exact rest

private theorem Chained.uses : ∀ {head : ChainHead},
    Chained sha256 head records → ∀ used ∈ HashChain.uses (absorb sha256) head.hash (records.map payload),
      linkBytes used.1 used.2.1 used.2.2 ∈ hashedBy records := by
  induction records with
  | nil => intro head _ used mem; exact absurd mem (Set.notMem_empty used)
  | cons record _ ih =>
    rintro head ⟨hf, chained⟩ used mem
    have prev : record.link.prevHash = head.hash := by rw [hf, ChainHead.linkNext]
    simp only [List.map_cons, HashChain.uses, absorb_follows hf] at mem
    rcases mem with rfl | mem
    · exact ⟨record, by simp, by rw [prev, payload]⟩
    · obtain ⟨he, mem, bytes⟩ := ih chained used mem
      exact ⟨he, .tail _ mem, bytes⟩

theorem Chained.contents : ∀ {ys : List AuditRecord} {head : ChainHead},
    Chained sha256 head xs → Chained sha256 head ys →
      xs.map (·.event.canonicalBytes) = ys.map (·.event.canonicalBytes) →
      xs.map (·.content) = ys.map (·.content) := by
  induction xs with
  | nil =>
    intro ys head _ _ eq
    rw [List.map_nil, eq_comm, List.map_eq_nil_iff] at eq
    rw [eq]
  | cons x _ ih =>
    intro ys head chainedX chainedY eq
    cases ys with
    | nil => simp at eq
    | cons y =>
      rw [List.map_cons, List.map_cons, List.cons.injEq] at eq
      obtain ⟨bytes, rest⟩ := eq
      have links : x.link = y.link := by rw [chainedX.1, chainedY.1, bytes]
      have tails := ih chainedX.2 (by rw [links]; exact chainedY.2) rest
      simp only [List.map_cons, AuditRecord.content, bytes, links, List.cons.injEq, true_and]
      exact tails

theorem Chained.head_eq (hc : Chained sha256 head xs) (hch : Chained sha256 head ys)
    (eq : xs.map (·.event.canonicalBytes) = ys.map (·.event.canonicalBytes)) :
    headAfter head xs = headAfter head ys := by
  have folded : ∀ zs : List AuditRecord, headAfter head zs =
      (zs.map (·.content)).foldl (fun head content => head.apply content.2) head := by
    intro zs
    rw [List.foldl_map]
    rfl
  rw [folded, folded, hc.contents hch eq]

theorem Chained.commits (hc : Chained sha256 .genesis xs) (hch : Chained sha256 .genesis ys)
    (inv : Sound sha256 (hashedBy xs ∪ hashedBy ys))
    (ends : (headAfter .genesis xs).hash = (headAfter .genesis ys).hash) :
    xs.map (·.content) = ys.map (·.content) := by
  have hashed : ∀ used ∈ HashChain.uses (absorb sha256) ChainHead.genesis.hash (xs.map payload) ∪
      HashChain.uses (absorb sha256) ChainHead.genesis.hash (ys.map payload),
      linkBytes used.1 used.2.1 used.2.2 ∈ hashedBy xs ∪ hashedBy ys := by
    rintro used (mem | mem)
    · exact .inl (hc.uses used mem)
    · exact .inr (hch.uses used mem)
  have payloads : xs.map payload = ys.map payload := by
    refine HashChain.tip_commits ?_ ?_ (by rw [hc.tip, hch.tip, ends])
    · intro u hu v hv eq
      have bytes := inv.free (hashed u hu) (hashed v hv) (RecordHash.digest_inj.mp eq)
      obtain ⟨hash, payload, sequence⟩ := linkBytes_inj (inv.fits _ (hashed u hu)) bytes
      exact Prod.ext hash (Prod.ext payload sequence)
    · intro u hu
      exact inv.fresh _ (hashed u hu)
  have events := congrArg (List.map Prod.fst) payloads
  rw [List.map_map, List.map_map] at events
  exact hc.contents hch events

/-- Two lists of records that walk to `Verified` and end in one record hash are equally long and
agree, record by record, in canonical bytes and link. -/
theorem walk_commits {xs ys : List AuditRecord} (clearX : Clears (walk sha256 .genesis xs))
    (clearY : Clears (walk sha256 .genesis ys))
    (ends : (headAfter .genesis xs).hash = (headAfter .genesis ys).hash)
    (sound : Sound sha256 (hashedBy xs ∪ hashedBy ys)) :
    xs.length = ys.length ∧
      List.Forall₂ (fun x y => x.event.canonicalBytes = y.event.canonicalBytes ∧ x.link = y.link) xs ys := by
  have contents := (walk_clears_iff.mp clearX).commits (walk_clears_iff.mp clearY) sound ends
  refine ⟨by simpa using congrArg List.length contents, ?_⟩
  rw [← List.forall₂_eq_eq_eq, List.forall₂_map_left_iff, List.forall₂_map_right_iff] at contents
  exact contents.imp fun x y same => Prod.mk.inj same

def signInHash : RecordHash := "69b47d5d864ed3b20daa964e6698b433555e6828181facab95e433138dbbcd09"

/-- SHA-256 at the inputs of concrete runs: the first link of a chain for `signIn "e-1"`, a
second link for the same event, a first link for `signIn "e-2"`, and the roots over no
partition and over the chain of the first link alone. -/
def signInDigests : List (List UInt8 × Vector UInt8 32) :=
  [(linkBytes .genesis (AuditEvent.signIn "e-1" .epoch).canonicalBytes 1,
    #v[0x69, 0xb4, 0x7d, 0x5d, 0x86, 0x4e, 0xd3, 0xb2, 0x0d, 0xaa, 0x96, 0x4e, 0x66, 0x98, 0xb4, 0x33,
      0x55, 0x5e, 0x68, 0x28, 0x18, 0x1f, 0xac, 0xab, 0x95, 0xe4, 0x33, 0x13, 0x8d, 0xbb, 0xcd, 0x09]),
    (linkBytes signInHash (AuditEvent.signIn "e-1" .epoch).canonicalBytes 2,
    #v[0x2a, 0x39, 0xbc, 0x9a, 0x72, 0x83, 0x46, 0xc3, 0x0a, 0x69, 0x9c, 0xc1, 0xb7, 0x26, 0x93, 0x49,
      0x7a, 0x89, 0x56, 0x50, 0xfe, 0x9b, 0x87, 0x25, 0x3a, 0x7f, 0xc3, 0xd6, 0xf0, 0xe3, 0x6a, 0x31]),
    (linkBytes .genesis (AuditEvent.signIn "e-2" .epoch).canonicalBytes 1,
    #v[0x3e, 0x27, 0x2d, 0x2e, 0x60, 0xda, 0xaa, 0x41, 0x8e, 0xe1, 0xdf, 0x0a, 0x66, 0xf0, 0x25, 0xed,
      0xf3, 0x3a, 0x1d, 0xa8, 0x4a, 0x35, 0x75, 0xa2, 0x9f, 0xff, 0x30, 0x3f, 0x13, 0xfa, 0x9b, 0x50]),
    (rootBytes [],
    #v[0xaf, 0x55, 0x70, 0xf5, 0xa1, 0x81, 0x0b, 0x7a, 0xf7, 0x8c, 0xaf, 0x4b, 0xc7, 0x0a, 0x66, 0x0f,
      0x0d, 0xf5, 0x1e, 0x42, 0xba, 0xf9, 0x1d, 0x4d, 0xe5, 0xb2, 0x32, 0x8d, 0xe0, 0xe8, 0x3d, 0xfc]),
    (rootBytes [("_global:1", signInHash)],
    #v[0x49, 0x24, 0x8f, 0xf4, 0xf1, 0x15, 0x4b, 0xc3, 0x2c, 0xb7, 0x39, 0x05, 0xdc, 0xb5, 0xc8, 0xfe,
      0xe6, 0xe5, 0x1b, 0xb7, 0x32, 0xe8, 0xa4, 0xf2, 0x48, 0x04, 0x02, 0x23, 0x99, 0xd1, 0x18, 0xc4])]

def signInSha256 : Sha256 := .ofTable signInDigests

theorem signInSha256_sound : Sound signInSha256 { bytes | bytes ∈ signInDigests.map Prod.fst } :=
  .ofList (by decide +kernel) (by decide +kernel) (by decide +kernel)

def signInRecord (eventId : EventId) (recordedAt : DateTime) : AuditRecord :=
  (AuditRecord.append signInSha256 (.signIn eventId .epoch) "_global:1" .genesis recordedAt).1

def signInChain (recordedAt : DateTime) : List AuditRecord :=
  let (first, head) := AuditRecord.append signInSha256 (.signIn "e-1" .epoch) "_global:1" .genesis recordedAt
  [first, (AuditRecord.append signInSha256 (.signIn "e-1" .epoch) "_global:1" head recordedAt).1]

/-- The walk does not look at the record time. -/
theorem walk_commits_signIn :
    List.Forall₂ (fun x y => x.event.canonicalBytes = y.event.canonicalBytes ∧ x.link = y.link)
      (signInChain .epoch) (signInChain ⟨1, 0, by decide, by decide⟩) := by
  have clear : ∀ t, Clears (walk signInSha256 .genesis (signInChain t)) := fun t =>
    walk_clears_iff.mpr ⟨AuditRecord.append_follows _ _ _ _, AuditRecord.append_follows _ _ _ _, trivial⟩
  have links : ∀ record ∈ signInChain .epoch, linkBytes record.link.prevHash record.event.canonicalBytes
      record.link.sequence ∈ signInDigests.map Prod.fst := by decide +kernel
  have hashed : ∀ t, hashedBy (signInChain t) ⊆ { bytes | bytes ∈ signInDigests.map Prod.fst } := by
    rintro t bytes ⟨record, member, rfl⟩
    simp only [signInChain, List.mem_cons, List.not_mem_nil, or_false] at member
    rcases member with rfl | rfl
    · exact (List.forall_mem_cons.mp links).1
    · exact (List.forall_mem_cons.mp (List.forall_mem_cons.mp links).2).1
  have ends : ∀ t u, (headAfter .genesis (signInChain t)).hash =
      (headAfter .genesis (signInChain u)).hash := fun _ _ => rfl
  have sound := signInSha256_sound.mono (Set.union_subset (hashed .epoch) (hashed ⟨1, 0, by decide, by decide⟩))
  exact (walk_commits (clear _) (clear _) (ends _ _) sound).2

end CorePlatform.Audit
