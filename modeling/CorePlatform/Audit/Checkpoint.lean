import CorePlatform.Audit.Event

/-! # Checkpoints over the partition heads

One root over every partition's head hash, taken in partition order, so that a
checkpoint does not depend on the order the heads were listed in.
-/

namespace CorePlatform.Audit

open Theory List

abbrev PartitionHead := PartitionKey × RecordHash

def sortHeads (heads : List PartitionHead) : List PartitionHead :=
  heads.insertionSort fun a b => a.1 ≤ b.1

def rootBytes (heads : List PartitionHead) : List UInt8 :=
  (({} : CanonicalWriter).pairs (sortHeads heads)).buf

def computeRoot (sha256 : Sha256) (heads : List PartitionHead) : RecordHash :=
  .digest sha256 (rootBytes heads)

theorem rootBytes_inj (fits : Fits (rootBytes heads)) (eq : rootBytes heads = rootBytes heads') :
    sortHeads heads = sortHeads heads' := by
  simp only [Fits, rootBytes, CanonicalWriter.pairs_buf, nil_append] at fits eq
  exact textPairs_unambiguous.eq (Nat.lt_trans fits (by decide)) eq

theorem sortHeads_eq (distinct : (heads.map Prod.fst).Nodup) (eq : heads'.Perm heads) :
    sortHeads heads' = sortHeads heads := by
  have sorted (heads : List PartitionHead) : (sortHeads heads).Pairwise fun a b => a.1 ≤ b.1 :=
    pairwise_insertionSort _ _
  have perm : (sortHeads heads').Perm (sortHeads heads) :=
    ((perm_insertionSort _ _).trans eq).trans (perm_insertionSort _ _).symm
  refine perm.eq_of_pairwise (fun a b mine theirs below above => ?_) (sorted _) (sorted _)
  have mem := eq.mem_iff.mp ((mem_insertionSort _).mp mine)
  exact inj_on_of_nodup_map distinct mem ((mem_insertionSort _).mp theirs) (le_antisymm below above)

structure MerkleCheckpoint where
  root : RecordHash
  headCount : Nat
  createdAt : DateTime

namespace MerkleCheckpoint

/-- The source calls it `over`. -/
def overHeads (sha256 : Sha256) (heads : List PartitionHead) (createdAt : DateTime) : MerkleCheckpoint :=
  { root := computeRoot sha256 heads, headCount := heads.length, createdAt }

def verifyAgainst (sha256 : Sha256) (checkpoint : MerkleCheckpoint) (heads : List PartitionHead) :
    Except AuditError Unit :=
  if computeRoot sha256 heads ≠ checkpoint.root ∨ heads.length ≠ checkpoint.headCount then
    .error .checkpointVerificationFailed
  else
    .ok ()

variable {sha256 : Sha256} {heads : List PartitionHead} {createdAt : DateTime}

theorem overHeads_verifyAgainst : (overHeads sha256 heads createdAt).verifyAgainst sha256 heads = .ok () := by
  simp [verifyAgainst, overHeads]

theorem verifyAgainst_ok_iff :
    (overHeads sha256 heads createdAt).verifyAgainst sha256 heads' = .ok () ↔
      computeRoot sha256 heads' = computeRoot sha256 heads ∧ heads'.length = heads.length := by
  unfold verifyAgainst
  split
  · rename_i differs
    simp only [reduceCtorEq, false_iff, not_and_or]
    exact differs
  · rename_i agrees
    simpa only [overHeads, not_or, not_not, true_iff] using agrees

theorem verifyAgainst_error {cp : MerkleCheckpoint}
    (hf : cp.verifyAgainst sha256 heads = .error e) : e = .checkpointVerificationFailed := by
  unfold verifyAgainst at hf
  split at hf <;> cases hf
  rfl

theorem verifyAgainst_perm (fits : Fits (rootBytes heads))
    (free : Set.InjOn sha256 {rootBytes heads, rootBytes heads'})
    (hv : (overHeads sha256 heads createdAt).verifyAgainst sha256 heads' = .ok ()) : heads'.Perm heads := by
  obtain ⟨roots, -⟩ := verifyAgainst_ok_iff.mp hv
  have bytes : rootBytes heads = rootBytes heads' :=
    free (by simp) (by simp) (RecordHash.digest_inj.mp roots).symm
  have sorted := rootBytes_inj fits bytes
  calc heads'.Perm (sortHeads heads') := (perm_insertionSort _ _).symm
    _ = sortHeads heads := sorted.symm
    List.Perm _ heads := perm_insertionSort _ _

/-- A checkpoint commits to the heads as a map: it is the same for every order, and verifies no
others. -/
theorem checkpoint_commits (sha256 : Sha256) (heads heads' : List PartitionHead) (createdAt : DateTime)
    (distinct : (heads.map Prod.fst).Nodup) :
    (heads'.Perm heads → (overHeads sha256 heads' createdAt).root = (overHeads sha256 heads createdAt).root) ∧
    (Fits (rootBytes heads) → Set.InjOn sha256 {rootBytes heads, rootBytes heads'} →
      ((overHeads sha256 heads createdAt).verifyAgainst sha256 heads' = .ok () ↔ heads'.Perm heads)) := by
  have roots : heads'.Perm heads → computeRoot sha256 heads' = computeRoot sha256 heads := by
    intro same
    rw [computeRoot, computeRoot, rootBytes, rootBytes, sortHeads_eq distinct same]
  refine ⟨roots, fun fits free => ⟨verifyAgainst_perm fits free, fun same => ?_⟩⟩
  exact verifyAgainst_ok_iff.mpr ⟨roots same, same.length_eq⟩

private def two : List PartitionHead := [("a:1", "0f"), ("b:1", "1e")]

private def swapped : List PartitionHead := [("a:1", "1e"), ("b:1", "0f")]

private def rootDigests : Sha256 :=
  .ofTable [(rootBytes two,
    #v[0xce, 0xbc, 0xb5, 0xe5, 0xfb, 0xb4, 0xf6, 0x71, 0x04, 0xb4, 0x07, 0x58, 0x1b, 0xb7, 0x52, 0x01,
      0x39, 0x96, 0xf9, 0x8e, 0x30, 0x5e, 0x09, 0x56, 0xdc, 0x5d, 0xfd, 0xcf, 0xcf, 0x45, 0x42, 0x59]),
    (rootBytes swapped,
    #v[0x58, 0x19, 0xd4, 0xf1, 0x9a, 0x91, 0x2f, 0xa0, 0x4b, 0x9f, 0x1c, 0xd5, 0xa0, 0xbe, 0x00, 0xa8,
      0x02, 0x56, 0xe4, 0xf7, 0x80, 0x51, 0x77, 0xa7, 0x91, 0x73, 0x87, 0x86, 0x71, 0xc2, 0xd0, 0x07])]

theorem checkpoint_commits_two :
    (overHeads rootDigests two .epoch).verifyAgainst rootDigests two.reverse = .ok () ∧
      (overHeads rootDigests two .epoch).verifyAgainst rootDigests swapped ≠ .ok () := by
  have fits : (rootBytes two).length < 2 ^ 63 := by decide
  constructor
  · have same : rootBytes two.reverse = rootBytes two := by decide
    refine ((checkpoint_commits _ two two.reverse .epoch (by decide)).2 fits ?_).mpr two.reverse_perm
    rw [same, Set.pair_eq_singleton]
    exact Set.injOn_singleton ..
  · have apart : rootDigests (rootBytes two) ≠ rootDigests (rootBytes swapped) := by decide +kernel
    intro verifies
    have free := Set.injOn_pair.mpr fun eq => absurd eq apart
    exact absurd (((checkpoint_commits _ two swapped .epoch (by decide)).2 fits free).mp verifies) (by decide)

end MerkleCheckpoint

/-- The timestamp is stored inverted, so that the newest checkpoint comes first. -/
def witnessKey (createdAtMillis : Int) : String :=
  let inverted := 2 ^ 64 - 1 - (max createdAtMillis 0).toNat
  "checkpoints/" ++ String.ofList ((Nat.toDigits 10 inverted).leftpad 20 '0') ++ ".json"

/-- Later checkpoints have smaller keys, so the smallest key is that of the newest one. -/
theorem witness_keys_descend :
    (∀ a b : Fin (2 ^ 63), witnessKey a < witnessKey b ↔ b < a) ∧
    ∀ published : List (Fin (2 ^ 63)), ∀ newest ∈ published, (∀ created ∈ published, created ≤ newest) →
      ∀ created ∈ published, witnessKey newest ≤ witnessKey created := by
  have order : ∀ a b : Fin (2 ^ 63), witnessKey a < witnessKey b ↔ b < a := by
    intro a b
    rw [String.lt_iff, Fin.lt_def]
    simp only [witnessKey, String.toList_append, String.toList_ofList, List.append_assoc]
    rw [append_lt_iff, leftpad_lt_iff (by decide) (by omega) (by omega)]
    omega
  refine ⟨order, fun published newest _ last created mem => ?_⟩
  show ¬ witnessKey created < witnessKey newest
  rw [order]
  exact Fin.not_lt.mpr (last created mem)

end CorePlatform.Audit
