import CorePlatform.Audit.Commit

/-! # One data key per subject

`EnvelopeCipher::seal` gets or creates the subject's data key in the `subject_keys` table and
encrypts under it; erasing the subject deletes the row. Getting or creating takes up to four steps,
with others in between.

A deleted key does not come back because it is written only by the call that drew it, at most once,
and read only after that. -/

namespace CorePlatform.Audit.SubjectKeys

open Theory Function Option

abbrev Dek := Vector UInt8 32

structure WrappedDek where
  wrapped : List UInt8
  nonce : List UInt8

/-- Custody of the key that wraps the data keys. Wrapping draws randomness. -/
structure KekCustodian where
  wrap : (random : List UInt8) → Dek → WrappedDek
  unwrap : (wrapped nonce : List UInt8) → Except AuditError Dek
  unwrap_wrap : ∀ random dek, unwrap (wrap random dek).wrapped (wrap random dek).nonce = .ok dek

/-- AES-256-GCM encryption, by key, nonce and plaintext. -/
abbrev Aead := Dek → List UInt8 → List UInt8 → List UInt8

/-- A row of `subject_keys`; it may pre-exist without a data key. -/
structure KeyRow where
  createdAtMs : Int
  wrappedDek : Option (List UInt8)
  wrapNonce : Option (List UInt8)

abbrev Table := SubjectKeyRef → Option KeyRow

/-- `INSERT ... ON CONFLICT key_ref DO UPDATE ... WHERE wrapped_dek IS NULL`. -/
def upsertDek (table : Table) (keyRef : SubjectKeyRef) (createdAtMs : Int) (dek : WrappedDek) : Table :=
  match table keyRef with
  | none => update table keyRef (some ⟨createdAtMs, some dek.wrapped, some dek.nonce⟩)
  | some row =>
    match row.wrappedDek with
    | none =>
      update table keyRef (some { row with wrappedDek := some dek.wrapped, wrapNonce := some dek.nonce })
    | some _ => table

/-- `PgKeyVault::destroy_subject_key`. -/
def destroySubjectKey (table : Table) (keyRef : SubjectKeyRef) : Table := update table keyRef none

def fetchDek (kek : KekCustodian) (table : Table) (keyRef : SubjectKeyRef) : Except AuditError (Option Dek) :=
  match table keyRef with
  | some ⟨_, some wrapped, nonce⟩ => (kek.unwrap wrapped (nonce.getD [])).map some
  | _ => .ok none

/-- `EnvelopeCipher::key_ref`. -/
def keyRef (subject : SubjectPseudonym) : SubjectKeyRef := "dek:" ++ subject

/-- A call's final reading of the data key, with the number of deletions of the key before it. -/
structure Read where
  keyRef : SubjectKeyRef
  dek : Dek
  era : Nat

inductive Stage where
  | fetch
  | mint
  | upsert (dek : Dek) (wrapped : WrappedDek)
  | reread
  | sealing (read : Read)
  | returned (result : Except AuditError PiiEnvelope)
  | crashed

structure Call where
  subject : SubjectPseudonym
  plaintext : String
  stage : Stage

/-- The table, with what happened to it so far. -/
structure Vault where
  table : Table
  /-- Every key `random_key` has drawn. -/
  minted : List Dek
  /-- How often each key has been deleted. -/
  eras : SubjectKeyRef → Nat
  reads : List Read

def Vault.read (vault : Vault) (keyRef : SubjectKeyRef) (dek : Dek) : Vault :=
  { vault with reads := ⟨keyRef, dek, vault.eras keyRef⟩ :: vault.reads }

def Vault.mint (vault : Vault) (dek : Dek) : Vault := { vault with minted := dek :: vault.minted }

def Vault.upsert (vault : Vault) (keyRef : SubjectKeyRef) (createdAtMs : Int) (wrapped : WrappedDek) : Vault :=
  { vault with table := upsertDek vault.table keyRef createdAtMs wrapped }

def Vault.destroy (vault : Vault) (keyRef : SubjectKeyRef) : Vault :=
  { vault with
    table := destroySubjectKey vault.table keyRef
    eras := update vault.eras keyRef (vault.eras keyRef + 1) }

structure State where
  vault : Vault
  calls : Nat → Option Call
  envelopes : List (Read × PiiEnvelope)

/-- `fail` is a failure of the custodian, the cipher or the random source. -/
inductive Action where
  | begin (id : Nat) (subject : SubjectPseudonym) (plaintext : String)
  | fetch (id : Nat) (service : Commit.Service)
  | mint (id : Nat) (dek : Dek) (random : List UInt8)
  | upsert (id : Nat) (now : DateTime) (service : Commit.Service)
  | reread (id : Nat) (service : Commit.Service)
  | seal (id : Nat) (nonce : List UInt8)
  | fail (id : Nat) (e : AuditError)
  | crash (id : Nat)
  | destroy (keyRef : SubjectKeyRef) (service : Commit.Service)

def State.setStage (s : State) (id : Nat) (call : Call) (stage : Stage) : State :=
  { s with calls := update s.calls id (some { call with stage }) }

def State.returned (s : State) (id : Nat) : Option (Except AuditError PiiEnvelope) :=
  match s.calls id with
  | some ⟨_, _, .returned result⟩ => some result
  | _ => none

/-- The final reading: the call goes on to seal. -/
def State.read (s : State) (id : Nat) (call : Call) (dek : Dek) : State :=
  let keyRef := keyRef call.subject
  { s.setStage id call (.sealing ⟨keyRef, dek, s.vault.eras keyRef⟩) with vault := s.vault.read keyRef dek }

section

variable (kek : KekCustodian) (aead : Aead)

/-- `seal_impl` after the key has been read. -/
def sealed (read : Read) (plaintext : String) (nonce : List UInt8) : PiiEnvelope where
  subjectKeyRef := read.keyRef
  ciphertext := aead read.dek nonce (utf8 plaintext)
  nonce := nonce
  algorithm := "AES-256-GCM"

/-- The step of call `id` that `action` asks for, in the stage the call is in. -/
def advance (s : State) (id : Nat) (call : Call) (action : Action) : Option State :=
  match call.stage, action with
  | .fetch, .fetch _ .served =>
    match fetchDek kek s.vault.table (keyRef call.subject) with
    | .ok (some dek) => some (s.read id call dek)
    | .ok none => some (s.setStage id call .mint)
    | .error e => some (s.setStage id call (.returned (.error e)))
  | .mint, .mint _ dek random =>
    if dek ∈ s.vault.minted then none
    else
      some { s.setStage id call (.upsert dek (kek.wrap random dek)) with vault := s.vault.mint dek }
  | .upsert _ wrapped, .upsert _ now service =>
    let vault := s.vault.upsert (keyRef call.subject) now.timestampMillis wrapped
    match service with
    | .served => some { s.setStage id call .reread with vault }
    | .refused => some (s.setStage id call (.returned (.error .keyVaultUnavailable)))
    | .replyLost => some { s.setStage id call (.returned (.error .keyVaultUnavailable)) with vault }
  | .reread, .reread _ .served =>
    match fetchDek kek s.vault.table (keyRef call.subject) with
    | .ok (some dek) => some (s.read id call dek)
    | .ok none => some (s.setStage id call (.returned (.error .keyVaultUnavailable)))
    | .error e => some (s.setStage id call (.returned (.error e)))
  | .fetch, .fetch _ _ | .reread, .reread _ _ =>
    some (s.setStage id call (.returned (.error .keyVaultUnavailable)))
  | .sealing read, .seal _ nonce =>
    let envelope := sealed aead read call.plaintext nonce
    some { s.setStage id call (.returned (.ok envelope)) with
      envelopes := (read, envelope) :: s.envelopes }
  | .fetch, .fail _ e | .mint, .fail _ e | .reread, .fail _ e | .sealing _, .fail _ e =>
    some (s.setStage id call (.returned (.error e)))
  | .returned _, _ | .crashed, _ => none
  | _, .crash _ => some (s.setStage id call .crashed)
  | _, _ => none

def step (s : State) (action : Action) : Option State :=
  match action with
  | .begin id subject plaintext =>
    match s.calls id with
    | none => some { s with calls := update s.calls id (some ⟨subject, plaintext, .fetch⟩) }
    | some _ => none
  | .destroy keyRef service =>
    match service with
    | .refused => some s
    | .served | .replyLost => some { s with vault := s.vault.destroy keyRef }
  | .fetch id _ | .mint id _ _ | .upsert id _ _ | .reread id _ | .seal id _ | .fail id _ | .crash id =>
    (s.calls id).bind fun call => advance kek aead s id call action

def start (table : Table) : State := ⟨⟨table, [], fun _ => 0, []⟩, fun _ => none, []⟩

/-- The table starts with no data keys, and possibly with rows that wait for one. -/
def machine : Machine State Action where
  init s := ∃ table, (∀ keyRef row, table keyRef = some row → row.wrappedDek = none) ∧ s = start table
  step := step kek aead

end

variable {vault : Vault} {stage : Stage}

/-- The table holds this data key under the reference. -/
def Stored (kek : KekCustodian) (table : Table) (keyRef : SubjectKeyRef) (dek : Dek) : Prop :=
  fetchDek kek table keyRef = .ok (some dek)

theorem fetch_upsertDek {keyRef : SubjectKeyRef} (opens : kek.unwrap wrapped.wrapped wrapped.nonce = .ok dek) :
    fetchDek kek (upsertDek table keyRef createdAtMs wrapped) other = fetchDek kek table other ∨
      (other = keyRef ∧ fetchDek kek table other = .ok none ∧
        fetchDek kek (upsertDek table keyRef createdAtMs wrapped) other = .ok (some dek)) := by
  by_cases same : other = keyRef
  · subst same
    unfold upsertDek
    cases hf : table other with
    | none =>
      refine .inr ⟨rfl, by simp [fetchDek, hf], ?_⟩
      simp [fetchDek, opens, Except.map]
    | some row =>
      obtain ⟨created, h, nonce⟩ := row
      cases h with
      | none =>
        refine .inr ⟨rfl, by simp [fetchDek, hf], ?_⟩
        simp [fetchDek, opens, Except.map]
      | some => exact .inl rfl
  · left
    have untouched : upsertDek table keyRef createdAtMs wrapped other = table other := by
      unfold upsertDek
      cases table keyRef with
      | none => exact update_of_ne same _ _
      | some row =>
        obtain ⟨_, h, _⟩ := row
        cases h with
        | none => exact update_of_ne same _ _
        | some => rfl
    rw [fetchDek, untouched, fetchDek]

theorem stored_destroySubjectKey {keyRef : SubjectKeyRef} :
    Stored kek (destroySubjectKey table keyRef) other dek ↔ other ≠ keyRef ∧ Stored kek table other dek := by
  by_cases eq : other = keyRef
  · subst eq
    simp [Stored, fetchDek, destroySubjectKey]
  · simp [Stored, fetchDek, destroySubjectKey, eq]

def Stage.Quiet : Stage → Prop
  | .upsert _ _ | .sealing _ => False
  | _ => True

structure Unused (kek : KekCustodian) (vault : Vault) (dek : Dek) : Prop where
  drawn : dek ∈ vault.minted
  unstored : ∀ keyRef, ¬ Stored kek vault.table keyRef dek
  unread : ∀ read ∈ vault.reads, read.dek ≠ dek

structure Read.Valid (kek : KekCustodian) (vault : Vault) (read : Read) : Prop where
  drawn : read.dek ∈ vault.minted
  past : read.era ≤ vault.eras read.keyRef
  stored : Stored kek vault.table read.keyRef read.dek ↔ read.era = vault.eras read.keyRef

structure Vault.Valid (kek : KekCustodian) (vault : Vault) : Prop where
  stored : ∀ keyRef dek, Stored kek vault.table keyRef dek → dek ∈ vault.minted
  reads : ∀ read ∈ vault.reads, read.Valid kek vault
  agree : ∀ x ∈ vault.reads, ∀ y ∈ vault.reads, x.keyRef = y.keyRef → x.era = y.era → x.dek = y.dek

/-- What a call holds in its stage: a key of its own that it has yet to write, or a reading. -/
def Stage.Valid (kek : KekCustodian) (vault : Vault) : Stage → Prop
  | .upsert dek wrapped => Unused kek vault dek ∧ kek.unwrap wrapped.wrapped wrapped.nonce = .ok dek
  | .sealing read => read ∈ vault.reads
  | _ => True

structure Consistent (kek : KekCustodian) (aead : Aead) (s : State) : Prop where
  vault : s.vault.Valid kek
  calls : ∀ id call, s.calls id = some call → call.stage.Valid kek s.vault
  apart : ∀ id other call call' dek wrapped wrapped', s.calls id = some call → s.calls other = some call' →
    call.stage = .upsert dek wrapped → call'.stage = .upsert dek wrapped' → id = other
  envelopes : ∀ read envelope, (read, envelope) ∈ s.envelopes →
    read ∈ s.vault.reads ∧ ∃ plaintext nonce, envelope = sealed aead read plaintext nonce

theorem start_consistent (he : ∀ keyRef row, table keyRef = some row → row.wrappedDek = none) :
    Consistent kek aead (start table) where
  vault :=
    { stored := fun keyRef dek stored => by
        unfold Stored start fetchDek at stored
        split at stored
        · cases he keyRef _ ‹_›
        · cases stored
      reads := fun _ found => by cases found
      agree := fun _ found => by cases found }
  calls _ _ found := by cases found
  apart _ _ _ _ _ _ _ found := by cases found
  envelopes _ _ found := by cases found

/-! The four things that happen to the vault: a key is read, drawn, written or deleted. -/

section

variable {keyRef : SubjectKeyRef}

theorem Unused.read (hu : Unused kek vault own) (stored : Stored kek vault.table keyRef dek) :
    Unused kek (vault.read keyRef dek) own where
  drawn := hu.drawn
  unstored := hu.unstored
  unread read member := by
    rcases List.mem_cons.mp member with rfl | hb
    · rintro rfl
      exact hu.unstored keyRef stored
    · exact hu.unread read hb

theorem Unused.mint (hu : Unused kek vault own) : Unused kek (vault.mint dek) own where
  drawn := .tail _ hu.drawn
  unstored := hu.unstored
  unread := hu.unread

theorem Unused.destroy (hu : Unused kek vault own) : Unused kek (vault.destroy keyRef) own where
  drawn := hu.drawn
  unstored other stored := hu.unstored other (stored_destroySubjectKey.mp stored).2
  unread := hu.unread

theorem Unused.upsert (hu : Unused kek vault own)
    (ho : kek.unwrap wrapped.wrapped wrapped.nonce = .ok dek) (hd : own ≠ dek) (createdAtMs : Int) :
    Unused kek (vault.upsert keyRef createdAtMs wrapped) own where
  drawn := hu.drawn
  unstored other stored := by
    rcases fetch_upsertDek ho with eq | ⟨-, -, filled⟩
    · exact hu.unstored other (eq.symm.trans stored)
    · exact hd (some.inj (Except.ok.inj (stored.symm.trans filled)))
  unread := hu.unread

theorem Vault.Valid.read (hv : vault.Valid kek) (stored : Stored kek vault.table keyRef dek) :
    (vault.read keyRef dek).Valid kek where
  stored := hv.stored
  reads read member := by
    rcases List.mem_cons.mp member with rfl | hb
    · exact ⟨hv.stored _ _ stored, le_rfl, iff_of_true stored rfl⟩
    · obtain ⟨drawn, past, h⟩ := hv.reads read hb
      exact ⟨drawn, past, h⟩
  agree := by
    -- Earlier readings of the present era were of the key that is stored now.
    have now : ∀ read ∈ vault.reads, read.keyRef = keyRef → read.era = vault.eras keyRef → read.dek = dek := by
      rintro read member rfl time
      have h := (hv.reads read member).stored.mpr time
      exact some.inj (Except.ok.inj (h.symm.trans stored))
    intro x memberX y memberY place time
    rcases List.mem_cons.mp memberX with rfl | beforeX
    · rcases List.mem_cons.mp memberY with rfl | beforeY
      · rfl
      · exact (now y beforeY place.symm time.symm).symm
    · rcases List.mem_cons.mp memberY with rfl | beforeY
      · exact now x beforeX place time
      · exact hv.agree x beforeX y beforeY place time

theorem Vault.Valid.mint (hv : vault.Valid kek) : (vault.mint dek).Valid kek where
  stored keyRef own stored := .tail _ (hv.stored keyRef own stored)
  reads read member := by
    obtain ⟨drawn, past, h⟩ := hv.reads read member
    exact ⟨.tail _ drawn, past, h⟩
  agree := hv.agree

theorem Vault.Valid.upsert (hv : vault.Valid kek) (hu : Unused kek vault dek)
    (ho : kek.unwrap wrapped.wrapped wrapped.nonce = .ok dek) (createdAtMs : Int) :
    (vault.upsert keyRef createdAtMs wrapped).Valid kek where
  stored other own stored := by
    rcases fetch_upsertDek ho with eq | ⟨-, -, filled⟩
    · exact hv.stored other own (eq.symm.trans stored)
    · cases stored.symm.trans filled
      exact hu.drawn
  reads read member := by
    obtain ⟨drawn, past, h⟩ := hv.reads read member
    refine ⟨drawn, past, Iff.trans ?_ h⟩
    rcases fetch_upsertDek ho with eq | ⟨-, empty, filled⟩
    · exact iff_of_eq (congrArg (· = _) eq)
    constructor
    · intro stored
      cases hu.unread read member (some.inj (Except.ok.inj (stored.symm.trans filled)))
    · intro stored
      cases stored.symm.trans empty
  agree := hv.agree

theorem Vault.Valid.destroy (hv : vault.Valid kek) : (vault.destroy keyRef).Valid kek where
  stored other own stored := hv.stored other own (stored_destroySubjectKey.mp stored).2
  reads read member := by
    obtain ⟨drawn, past, h⟩ := hv.reads read member
    by_cases eq : read.keyRef = keyRef
    · have hl : (vault.destroy keyRef).eras read.keyRef = vault.eras read.keyRef + 1 := by
        rw [eq]
        exact update_self ..
      refine ⟨drawn, by omega, iff_of_false ?_ (by omega)⟩
      intro stored
      exact (stored_destroySubjectKey.mp stored).1 eq
    have untouched : (vault.destroy keyRef).eras read.keyRef = vault.eras read.keyRef := update_of_ne eq ..
    refine ⟨drawn, untouched ▸ past, ?_⟩
    rw [untouched, ← h]
    exact stored_destroySubjectKey.trans (and_iff_right eq)
  agree := hv.agree

end

theorem Stage.Valid.mono {vault : Vault} (hv : stage.Valid kek vault)
    (hu : ∀ dek wrapped, stage = .upsert dek wrapped → Unused kek vault dek → Unused kek later dek)
    (hr : ∀ read ∈ vault.reads, read ∈ later.reads) : stage.Valid kek later := by
  cases stage with
  | upsert dek wrapped => exact ⟨hu dek wrapped rfl hv.1, hv.2⟩
  | sealing read => exact hr read hv
  | _ => trivial

theorem Consistent.replace (consistent : Consistent kek aead s) {id : Nat} (vault : later.Valid kek)
    (hv : own.stage.Valid kek later)
    (hu : ∀ dek wrapped other call wrapped', own.stage = .upsert dek wrapped → other ≠ id →
      s.calls other = some call → call.stage ≠ .upsert dek wrapped')
    (hun : ∀ dek wrapped other call, other ≠ id → s.calls other = some call →
      call.stage = .upsert dek wrapped → Unused kek s.vault dek → Unused kek later dek)
    (hr : ∀ read ∈ s.vault.reads, read ∈ later.reads) :
    Consistent kek aead { s with vault := later, calls := update s.calls id (some own) } where
  vault := vault
  calls other call running := by
    rcases update_cases running with ⟨rfl, new⟩ | ⟨different, old⟩
    · cases new
      exact hv
    · exact (consistent.calls other call old).mono
        (fun dek wrapped drawn => hun dek wrapped other call different old drawn) hr
  apart i j x y dek wrapped wrapped' runningX runningY drawnX drawnY := by
    rcases update_cases runningX with ⟨rfl, newX⟩ | ⟨differentX, oldX⟩
    · rcases update_cases runningY with ⟨rfl, -⟩ | ⟨differentY, oldY⟩
      · rfl
      · cases newX
        cases hu dek wrapped j y wrapped' drawnX differentY oldY drawnY
    · rcases update_cases runningY with ⟨rfl, newY⟩ | ⟨-, oldY⟩
      · cases newY
        cases hu dek wrapped' i x wrapped drawnY differentX oldX drawnX
      · exact consistent.apart i j x y dek wrapped wrapped' oldX oldY drawnX drawnY
  envelopes read envelope found := by
    obtain ⟨mem, content⟩ := consistent.envelopes read envelope found
    exact ⟨hr read mem, content⟩

theorem Stage.Quiet.valid (hq : stage.Quiet) : stage.Valid kek vault := by
  cases stage with
  | upsert | sealing => cases hq
  | _ => trivial

theorem Stage.Quiet.ne_upsert (hq : stage.Quiet) (dek : Dek) (wrapped : WrappedDek) :
    stage ≠ .upsert dek wrapped := by
  rintro rfl
  cases hq

theorem Consistent.quiet (consistent : Consistent kek aead s) (id : Nat) (own : Call)
    (hq : own.stage.Quiet) :
    Consistent kek aead { s with calls := update s.calls id (some own) } :=
  consistent.replace consistent.vault hq.valid
    (fun dek wrapped _ _ _ drawn => absurd drawn (hq.ne_upsert dek wrapped))
    (fun _ _ _ _ _ _ _ unused => unused) (fun _ mem => mem)

section

variable {id : Nat} (consistent : Consistent kek aead s)

include consistent

theorem Consistent.read (id : Nat) (stored : Stored kek s.vault.table (keyRef call.subject) dek) :
    Consistent kek aead (s.read id call dek) := by
  refine consistent.replace (consistent.vault.read stored) List.mem_cons_self
    (fun _ _ _ _ _ drawn => by cases drawn) ?_ (fun _ mem => List.mem_cons_of_mem _ mem)
  intro dek wrapped other call _ _ _ unused
  exact unused.read stored

theorem Consistent.mint (id : Nat) (call : Call) (hf : dek ∉ s.vault.minted) (random : List UInt8) :
    Consistent kek aead
      { s.setStage id call (.upsert dek (kek.wrap random dek)) with vault := s.vault.mint dek } := by
  have unused : Unused kek (s.vault.mint dek) dek :=
    ⟨.head _, fun keyRef stored => hf (consistent.vault.stored keyRef dek stored),
      fun read mem eq => hf (eq ▸ (consistent.vault.reads read mem).drawn)⟩
  refine consistent.replace consistent.vault.mint ⟨unused, kek.unwrap_wrap random dek⟩ ?_
    (fun _ _ _ _ _ _ _ unused => unused.mint) (fun _ mem => mem)
  intro own wrapped other call wrapped' drawn _ h pending
  cases drawn
  have hv := consistent.calls other call h
  rw [pending] at hv
  exact hf hv.1.drawn

theorem Consistent.upsert (hr : s.calls id = some call) (hd : call.stage = .upsert dek wrapped)
    (hq : stage.Quiet) (createdAtMs : Int) :
    Consistent kek aead
      { s.setStage id call stage with vault := s.vault.upsert (keyRef call.subject) createdAtMs wrapped } := by
  have hv := consistent.calls id call hr
  rw [hd] at hv
  obtain ⟨unused, opens⟩ := hv
  refine consistent.replace (consistent.vault.upsert unused opens createdAtMs) hq.valid
    (fun own wrapped _ _ _ hd => absurd hd (hq.ne_upsert own wrapped)) ?_
    (fun _ mem => mem)
  intro own wrapped' other h different pending drawn' untouched
  refine untouched.upsert opens ?_ createdAtMs
  rintro rfl
  exact different (consistent.apart other id h call own wrapped' wrapped pending hr drawn' hd)

theorem Consistent.seal (hr : s.calls id = some call) (hre : call.stage = .sealing key)
    (nonce : List UInt8) :
    Consistent kek aead
      { s.setStage id call (.returned (.ok (sealed aead key call.plaintext nonce))) with
        envelopes := (key, sealed aead key call.plaintext nonce) :: s.envelopes } := by
  have hv := consistent.calls id call hr
  rw [hre] at hv
  have after := consistent.quiet id
    { call with stage := .returned (.ok (sealed aead key call.plaintext nonce)) } trivial
  refine { after with envelopes := fun other envelope hf => ?_ }
  rcases List.mem_cons.mp hf with new | old
  · cases new
    exact ⟨hv, call.plaintext, nonce, rfl⟩
  · exact consistent.envelopes other envelope old

theorem Consistent.destroy : Consistent kek aead { s with vault := s.vault.destroy key } :=
  ⟨consistent.vault.destroy,
    fun id call hr => (consistent.calls id call hr).mono (fun _ _ _ unused => unused.destroy) (fun _ mem => mem),
    consistent.apart, consistent.envelopes⟩

theorem advance_consistent (hr : s.calls id = some call)
    (hs : advance kek aead s id call action = some next) : Consistent kek aead next := by
  unfold advance at hs
  split at hs
  · split at hs
    · cases hs; exact consistent.read id ‹_›
    · cases hs; exact consistent.quiet _ _ trivial
    · cases hs; exact consistent.quiet _ _ trivial
  · split at hs
    · cases hs
    · cases hs; exact consistent.mint id call ‹_› _
  · split at hs <;> cases hs
    · exact consistent.upsert hr ‹_› (by trivial) _
    · exact consistent.quiet _ _ trivial
    · exact consistent.upsert hr ‹_› (by trivial) _
  · split at hs
    · cases hs; exact consistent.read id ‹_›
    · cases hs; exact consistent.quiet _ _ trivial
    · cases hs; exact consistent.quiet _ _ trivial
  · cases hs; exact consistent.quiet _ _ trivial
  · cases hs; exact consistent.quiet _ _ trivial
  · cases hs; exact consistent.seal hr ‹_› _
  -- What is left either ends the call or is not enabled.
  all_goals cases hs
  all_goals exact consistent.quiet _ _ trivial

theorem step_consistent (hs : step kek aead s action = some next) : Consistent kek aead next := by
  cases action with
  | begin id =>
    simp only [step] at hs
    cases idle : s.calls id with
    | none => rw [idle] at hs; cases hs; exact consistent.quiet _ _ trivial
    | some => rw [idle] at hs; cases hs
  | destroy _ svc =>
    cases svc with
    | refused => cases hs; exact consistent
    | served | replyLost => cases hs; exact consistent.destroy
  | _ =>
    obtain ⟨_, hr, hs⟩ := bind_eq_some_iff.mp hs
    exact advance_consistent consistent hr hs

end

theorem reachable_consistent (hr : (machine kek aead).Reachable s) : Consistent kek aead s := by
  refine Machine.Reachable.invariant (Consistent kek aead) ?_ ?_ hr
  · rintro s ⟨table, empty, rfl⟩
    exact start_consistent empty
  · intro s action next consistent hs
    exact step_consistent consistent hs

/-- Envelopes whose keys were read with no deletion in between are sealed under one key, the stored
one until the next deletion; a key read before a deletion is not stored after it. -/
theorem dek_lifecycle (reached : (machine kek aead).Reachable s) :
    (∀ x envelopeX y envelopeY, (x, envelopeX) ∈ s.envelopes → (y, envelopeY) ∈ s.envelopes →
      x.keyRef = y.keyRef → x.era = y.era → x.dek = y.dek) ∧
    (∀ x envelope, (x, envelope) ∈ s.envelopes →
      x ∈ s.vault.reads ∧ (∃ plaintext nonce, envelope = sealed aead x plaintext nonce) ∧
      (x.era = s.vault.eras x.keyRef → Stored kek s.vault.table x.keyRef x.dek)) ∧
    (∀ read ∈ s.vault.reads, read.era < s.vault.eras read.keyRef →
      ¬ Stored kek s.vault.table read.keyRef read.dek) := by
  have consistent := reachable_consistent reached
  refine ⟨?_, ?_, ?_⟩
  · intro x envelopeX y envelopeY foundX foundY place time
    have memberX := (consistent.envelopes x envelopeX foundX).1
    have memberY := (consistent.envelopes y envelopeY foundY).1
    exact consistent.vault.agree x memberX y memberY place time
  · intro x envelope found
    obtain ⟨member, content⟩ := consistent.envelopes x envelope found
    exact ⟨member, content, (consistent.vault.reads x member).stored.mpr⟩
  · intro read member later stored
    have now := (consistent.vault.reads read member).stored.mp stored
    omega

/-- The in-memory KMS of the source's tests: wrapping puts a marker before the key. -/
def fakeKms : KekCustodian where
  wrap _ dek := ⟨utf8 "KMSWRAP::" ++ dek.toList, []⟩
  unwrap wrapped _ :=
    if (utf8 "KMSWRAP::").isPrefixOf wrapped then
      let bytes := wrapped.drop (utf8 "KMSWRAP::").length
      if fits : bytes.length = 32 then .ok ⟨bytes.toArray, fits⟩
      else .error (.domainViolation "dek" "unwrapped DEK has the wrong length")
    else .error .keyVaultUnavailable
  unwrap_wrap random dek := by simp [Vector.toList]

/-- AES-256-GCM on the inputs of the run below. -/
def sampleAead : Aead := fun key nonce plaintext =>
  if plaintext = utf8 "email=a" then
    if key = .replicate 32 1 ∧ nonce = .replicate 12 1 then
      [0xd7, 0x14, 0xdb, 0xf3, 0x05, 0xca, 0x64, 0x06, 0xd7, 0x4d, 0xf0, 0x68, 0xe9, 0xbc, 0x93, 0xa2, 0xc6,
        0x17, 0xa2, 0xdf, 0x86, 0xca, 0x01]
    else if key = .replicate 32 1 ∧ nonce = .replicate 12 2 then
      [0x62, 0xbb, 0xa8, 0x20, 0x26, 0x6a, 0xa0, 0xc1, 0xec, 0xd1, 0x47, 0xe6, 0x03, 0xde, 0xaa, 0x78, 0xc8,
        0x78, 0xd0, 0xa8, 0xc2, 0xd3, 0xa5]
    else if key = .replicate 32 3 ∧ nonce = .replicate 12 3 then
      [0x90, 0x5b, 0x2e, 0xa1, 0x9b, 0xba, 0x9f, 0xb1, 0x25, 0x52, 0xbd, 0x03, 0xa4, 0x4c, 0xf6, 0x62, 0xe9,
        0xe2, 0x51, 0x90, 0xfc, 0xe1, 0x7d]
    else []
  else []

/-- Two calls race for the first key, the key is deleted, and a third call seals again. -/
def sealAcrossErasure : List Action :=
  [.begin 0 "acc-1" "email=a", .begin 1 "acc-1" "email=a", .fetch 0 .served, .fetch 1 .served,
    .mint 0 (.replicate 32 1) [], .mint 1 (.replicate 32 2) [], .upsert 0 .epoch .served,
    .upsert 1 .epoch .served, .reread 0 .served, .reread 1 .served, .seal 0 (.replicate 12 1),
    .seal 1 (.replicate 12 2), .destroy "dek:acc-1" .served, .begin 2 "acc-1" "email=a", .fetch 2 .served,
    .mint 2 (.replicate 32 3) [], .upsert 2 .epoch .served, .reread 2 .served, .seal 2 (.replicate 12 3)]

theorem dek_lifecycle_acrossErasure :
    ∃ s, (machine fakeKms sampleAead).run (start fun _ => none) sealAcrossErasure = some s ∧
      s.envelopes.map (fun entry => (entry.1.dek, entry.1.era)) =
        [(.replicate 32 3, 1), (.replicate 32 1, 0), (.replicate 32 1, 0)] ∧
      (∀ x envelope, (x, envelope) ∈ s.envelopes → x.era = s.vault.eras x.keyRef →
        Stored fakeKms s.vault.table x.keyRef x.dek) ∧
      ∀ read ∈ s.vault.reads, read.era < s.vault.eras read.keyRef →
        ¬ Stored fakeKms s.vault.table read.keyRef read.dek := by
  obtain ⟨s, ran, keys⟩ : ∃ s, (machine fakeKms sampleAead).run (start fun _ => none) sealAcrossErasure = some s ∧
      s.envelopes.map (fun entry => (entry.1.dek, entry.1.era)) =
        [(.replicate 32 3, 1), (.replicate 32 1, 0), (.replicate 32 1, 0)] := by decide +kernel
  have reached : (machine fakeKms sampleAead).Reachable s :=
    ⟨_, _, ⟨fun _ => none, by simp, rfl⟩, ran⟩
  obtain ⟨-, current, gone⟩ := dek_lifecycle reached
  exact ⟨s, ran, keys, fun x envelope found => (current x envelope found).2.2, gone⟩

end CorePlatform.Audit.SubjectKeys
