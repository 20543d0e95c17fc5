import CorePlatform.Theory.Program
import CorePlatform.Audit.Retention
import CorePlatform.Audit.AccountDecode
import CorePlatform.Audit.SubjectKeys

/-! # The account feed's consumer

Each delivery of a wire event is a program over three ports: the cipher, the ingest handler and the
shred handler. Calls of the first two take many steps, shared with the other lanes; erasing a
subject deletes its key row.

The shred handler refuses a subject under a legal hold it is told of. The consumer tells it of none.
-/

namespace CorePlatform.Audit.AccountFeed

open Theory AccountDecode Function Option

inductive Port where
  | seal (subject : SubjectPseudonym) (plaintext : String)
  | ingest (event : AuditEvent)
  | shred (subject : SubjectPseudonym) (keyRef : SubjectKeyRef) (holds : List LegalHold)

def Port.Reply : Port → Type
  | .seal _ _ => PiiEnvelope
  | .ingest _ => CommitOutcome
  | .shred _ _ _ => Unit

abbrev Processing := Program Port Port.Reply AuditError

def sealPii (subject : SubjectPseudonym) (plaintext : String) : Processing PiiEnvelope :=
  .perform (Port.seal subject plaintext)

def ingest (event : AuditEvent) : Processing CommitOutcome := .perform (Port.ingest event)

def shred (subject : SubjectPseudonym) (keyRef : SubjectKeyRef) (holds : List LegalHold) : Processing Unit :=
  .perform (Port.shred subject keyRef holds)

section

variable (formats : Formats)

/-- What `run_account_ingest_consumer` does with one wire event. -/
def process : AccountEventWire → Processing Unit
  | .accountCreated created => do
      let subject ← SubjectPseudonym.new created.accountId
      let pii ← sealPii subject created.piiPlaintext
      let _ ← ingest (← mapAccountCreated formats created pii)
  | .emailChanged changed => do
      let subject ← SubjectPseudonym.new changed.accountId
      let pii ← sealPii subject changed.piiPlaintext
      let _ ← ingest (← mapEmailChanged formats changed pii)
  | .gdprDeletionRequested deletion => do
      let subject ← SubjectPseudonym.new deletion.accountId
      let _ ← ingest (← mapGdprDeletionRequested formats deletion)
      let keyRef ← SubjectKeyRef.new ("dek:" ++ subject)
      shred subject keyRef []
  | .gdprDataExportRequested export_ => do
      let _ ← ingest (← mapGdprDataExportRequested formats export_)
  | .emailVerified verified => do
      let subject ← SubjectPseudonym.new verified.accountId
      let pii ← sealPii subject verified.piiPlaintext
      let _ ← ingest (← mapEmailVerified formats verified pii)
  | .phoneChanged phone => do
      let subject ← SubjectPseudonym.new phone.accountId
      let pii ← match phone.piiPlaintext with
        | some plaintext => some <$> sealPii subject plaintext
        | none => pure none
      let _ ← ingest (← mapPhoneChanged formats phone pii)
  | .passwordChanged e => do let _ ← ingest (← mapPasswordChanged formats e)
  | .mfaEnrolled e => do let _ ← ingest (← mapMfaEnrolled formats e)
  | .mfaRevoked e => do let _ ← ingest (← mapMfaRevoked formats e)
  | .roleAssigned e => do let _ ← ingest (← mapRoleAssigned formats e)
  | .roleRevoked e => do let _ ← ingest (← mapRoleRevoked formats e)
  | .accountActivated e => do let _ ← ingest (← mapAccountActivated formats e)
  | .accountDeactivated e => do let _ ← ingest (← mapAccountDeactivated formats e)
  | .accountSuspended e => do let _ ← ingest (← mapAccountSuspended formats e)
  | .accountDeleted e => do let _ ← ingest (← mapAccountDeleted formats e)
  | .kycStatusChanged e => do let _ ← ingest (← mapKycStatusChanged formats e)
  | .other => pure ()

end

/-- `CryptoShredHandler::shred`, with the clock at `now`. -/
def cryptoShred (vault : SubjectKeys.Vault) (subject : SubjectPseudonym) (keyRef : SubjectKeyRef)
    (holds : List LegalHold) (now : DateTime) (service : Commit.Service) :
    SubjectKeys.Vault × Except AuditError Unit :=
  match authorizeErasure subject holds now with
  | .error e => (vault, .error e)
  | .ok () =>
    match service with
    | .served => (vault.destroy keyRef, .ok ())
    | .refused => (vault, .error .keyVaultUnavailable)
    | .replyLost => (vault.destroy keyRef, .error .keyVaultUnavailable)

/-- A delivery is queued, runs up to its next port call, or waits for the answer of the cipher's or
the ledger's call of that number. -/
inductive Stage where
  | queued
  | running (program : Processing Unit)
  | waiting (call : Nat) (program : Processing Unit)
  | crashed

structure Delivery where
  wire : AccountEventWire
  stage : Stage

structure State where
  keys : SubjectKeys.State
  commits : Commit.State
  holds : List LegalHold
  deliveries : Nat → Option Delivery

/-- `keys` and `commit` are steps of calls of any lane; `hold` replaces the holds in force. -/
inductive Action where
  | deliver (id : Nat) (wire : AccountEventWire)
  | advance (id call : Nat) (now : DateTime) (service : Commit.Service)
  | crash (id : Nat)
  | keys (action : SubjectKeys.Action)
  | commit (action : Commit.Action)
  | hold (holds : List LegalHold)

def State.setStage (s : State) (id : Nat) (delivery : Delivery) (stage : Stage) : State :=
  { s with deliveries := update s.deliveries id (some { delivery with stage }) }

def State.keyRow (s : State) (subject : SubjectPseudonym) : Option SubjectKeys.KeyRow :=
  s.keys.vault.table (SubjectKeys.keyRef subject)

section

variable (sha256 : Sha256) (kek : SubjectKeys.KekCustodian) (aead : SubjectKeys.Aead) (formats : Formats)

/-- The next step of a delivery; a port call it begins gets the number `call`. -/
def advance (s : State) (id : Nat) (delivery : Delivery) (call : Nat) (now : DateTime) (service : Commit.Service) :
    Option State :=
  match delivery.stage with
  | .queued => some (s.setStage id delivery (.running (process formats delivery.wire)))
  | .running (.call (.seal subject plaintext) next) =>
    (SubjectKeys.step kek aead s.keys (.begin call subject plaintext)).map fun keys =>
      { s.setStage id delivery (.waiting call (.call (.seal subject plaintext) next)) with keys }
  | .running (.call (.ingest event) next) =>
    (Commit.step sha256 s.commits (.begin call event)).map fun commits =>
      { s.setStage id delivery (.waiting call (.call (.ingest event) next)) with commits }
  | .running (.call (.shred subject keyRef holds) next) =>
    let (vault, answer) := cryptoShred s.keys.vault subject keyRef holds now service
    some { s.setStage id delivery (.running (next answer)) with keys := { s.keys with vault } }
  | .waiting pending (.call (.seal _ _) next) =>
    (s.keys.returned pending).map fun answer => s.setStage id delivery (.running (next answer))
  | .waiting pending (.call (.ingest _) next) =>
    (s.commits.returned pending).map fun answer => s.setStage id delivery (.running (next answer))
  | _ => none

def step (s : State) : Action → Option State
  | .deliver id wire =>
    match s.deliveries id with
    | none => some { s with deliveries := update s.deliveries id (some ⟨wire, .queued⟩) }
    | some _ => none
  | .advance id call now service =>
    (s.deliveries id).bind fun delivery => advance sha256 kek aead formats s id delivery call now service
  | .crash id => (s.deliveries id).map fun delivery => s.setStage id delivery .crashed
  -- Only the shred handler deletes keys.
  | .keys (.destroy _ _) => none
  | .keys action => (SubjectKeys.step kek aead s.keys action).map fun keys => { s with keys }
  | .commit action => (Commit.step sha256 s.commits action).map fun commits => { s with commits }
  | .hold holds => some { s with holds }

def start (table : SubjectKeys.Table) : State := ⟨SubjectKeys.start table, Commit.start, [], fun _ => none⟩

def machine : Machine State Action where
  init s := ∃ table, (∀ keyRef row, table keyRef = some row → row.wrappedDek = none) ∧ s = start table
  step := step sha256 kek aead formats

end

variable {sha256 : Sha256} {kek : SubjectKeys.KekCustodian} {aead : SubjectKeys.Aead} {formats : Formats}
  {s next : State} {deletion : GdprDeletionRequestedWire} {delivery : Delivery}

/-! A deletion request is ingested, then the subject is erased. -/

/-- What is done with a deletion request, its event once made. -/
def erase (event : AuditEvent) (subject : SubjectPseudonym) : Processing Unit := do
  let _ ← ingest event
  shred subject (SubjectKeys.keyRef subject) []

theorem keyRef_named : SubjectKeyRef.new ("dek:" ++ subject) = .ok (SubjectKeys.keyRef subject) := by
  refine stringId_ok.mpr ⟨?_, rfl⟩
  simp [isBlank, isWhitespace]

theorem process_deletion (hn : isBlank deletion.accountId = false) :
    ∃ event, process formats (.gdprDeletionRequested deletion) = erase event deletion.accountId := by
  obtain ⟨event, mapped⟩ : ∃ event, mapGdprDeletionRequested formats deletion = .ok event :=
    accountEvent_ok (by decide) (by decide) hn hn _
  have subject : SubjectPseudonym.new deletion.accountId = .ok deletion.accountId :=
    stringId_ok.mpr ⟨hn, rfl⟩
  refine ⟨event, ?_⟩
  simp only [process, subject, mapped, keyRef_named, Program.lift_ok, Program.ok_bind]
  rfl

theorem process_deletion_blank (hb : isBlank deletion.accountId = true) :
    process formats (.gdprDeletionRequested deletion) = .error (.invalidIdentifier "subject_pseudonym") := by
  have subject : SubjectPseudonym.new deletion.accountId = .error (.invalidIdentifier "subject_pseudonym") := by
    simp [SubjectPseudonym.new, stringId, hb]
  simp only [process, subject, Program.lift_error, Program.error_bind]

def Left (deletion : GdprDeletionRequestedWire) (program : Processing Unit) : Prop :=
  (∃ event, program = erase event deletion.accountId) ∨
    program = shred deletion.accountId (SubjectKeys.keyRef deletion.accountId) [] ∨
    ∃ result, program = .ofExcept result

theorem left_process : Left deletion (process formats (.gdprDeletionRequested deletion)) := by
  cases hn : isBlank deletion.accountId with
  | true => exact .inr (.inr ⟨.error _, process_deletion_blank hn⟩)
  | false => exact .inl (process_deletion hn)

theorem Left.answered (left : Left deletion (.call op rest)) (ans : Except AuditError op.Reply) :
    Left deletion (rest ans) := by
  rcases left with ⟨ev, whole⟩ | whole | ⟨res, whole⟩
  · cases whole
    cases ans with
    | ok => exact .inr (.inl rfl)
    | error e => exact .inr (.inr ⟨.error e, rfl⟩)
  · cases whole
    exact .inr (.inr ⟨ans, rfl⟩)
  · cases res <;> cases whole

def Delivery.Valid (delivery : Delivery) : Prop :=
  ∀ deletion, delivery.wire = .gdprDeletionRequested deletion →
    match delivery.stage with
    | .running program | .waiting _ program => Left deletion program
    | .queued | .crashed => True

def Valid (s : State) : Prop := ∀ id delivery, s.deliveries id = some delivery → delivery.Valid

theorem Valid.setStage (hv : Valid s) {id : Nat} (kept : Delivery.Valid { delivery with stage }) :
    Valid (s.setStage id delivery stage) := by
  intro other hf hr
  rcases update_cases hr with ⟨-, new⟩ | ⟨-, old⟩
  · cases new
    exact kept
  · exact hv other hf old

theorem advance_valid {id : Nat} (hv : Valid s) (hr : s.deliveries id = some delivery)
    (hs : advance sha256 kek aead formats s id delivery call now service = some next) : Valid next := by
  have own := hv id delivery hr
  unfold advance at hs
  unfold Delivery.Valid at own
  split at hs
  · cases hs
    exact hv.setStage fun deletion req => req ▸ left_process
  · rename_i asked
    rw [asked] at own
    obtain ⟨_, -, rfl⟩ := map_eq_some_iff.mp hs
    exact hv.setStage (s := s) own
  · rename_i asked
    rw [asked] at own
    obtain ⟨_, -, rfl⟩ := map_eq_some_iff.mp hs
    exact hv.setStage (s := s) own
  · rename_i asked
    rw [asked] at own
    cases hs
    exact hv.setStage (s := s) fun deletion req => (own deletion req).answered _
  · rename_i asked
    rw [asked] at own
    obtain ⟨ans, -, rfl⟩ := map_eq_some_iff.mp hs
    exact hv.setStage fun deletion req => (own deletion req).answered ans
  · rename_i asked
    rw [asked] at own
    obtain ⟨ans, -, rfl⟩ := map_eq_some_iff.mp hs
    exact hv.setStage fun deletion req => (own deletion req).answered ans
  · cases hs

theorem step_valid {a : Action} (hv : Valid s) (hs : step sha256 kek aead formats s a = some next) : Valid next := by
  cases a with
  | deliver id =>
    simp only [step] at hs
    cases idle : s.deliveries id with
    | some => rw [idle] at hs; cases hs
    | none =>
      rw [idle] at hs
      cases hs
      intro other delivery hr
      rcases update_cases hr with ⟨-, new⟩ | ⟨-, old⟩
      · cases new
        exact fun _ _ => trivial
      · exact hv other delivery old
  | advance =>
    obtain ⟨delivery, hr, hs⟩ := bind_eq_some_iff.mp hs
    exact advance_valid hv hr hs
  | crash =>
    obtain ⟨_, _, rfl⟩ := map_eq_some_iff.mp hs
    exact hv.setStage fun _ _ => trivial
  | keys action =>
    cases action with
    | destroy => cases hs
    | _ =>
      obtain ⟨_, -, rfl⟩ := map_eq_some_iff.mp hs
      exact hv
  | commit =>
    obtain ⟨_, -, rfl⟩ := map_eq_some_iff.mp hs
    exact hv
  | hold => cases hs; exact hv

def Finished (s : State) (id : Nat) (result : Except AuditError Unit) : Prop :=
  ∃ delivery, s.deliveries id = some delivery ∧ delivery.stage = .running (.ofExcept result)

theorem finished_setStage {id : Nat} (set : next.deliveries = (s.setStage id delivery stage).deliveries) :
    Finished next id result ↔ stage = .running (.ofExcept result) := by
  have hf : next.deliveries id = some { delivery with stage } := by
    rw [set]
    exact update_self ..
  constructor
  · rintro ⟨other, h, he⟩
    cases hf.symm.trans h
    exact he
  · intro he
    exact ⟨_, hf, he⟩

def Delivery.Erasing (delivery : Delivery) : Prop :=
  ∃ subject keyRef holds next, delivery.stage = .running (.call (.shred subject keyRef holds) next)

def IngestFailed (s : State) (delivery : Delivery) (e : AuditError) : Prop :=
  ∃ call event next, delivery.stage = .waiting call (.call (.ingest event) next) ∧
    s.commits.returned call = some (.error e)

theorem deletion_advance {id : Nat} (hv : delivery.Valid)
    (req : delivery.wire = .gdprDeletionRequested deletion)
    (hs : advance sha256 kek aead formats s id delivery call now service = some next) :
    (¬ delivery.Erasing ∧ next.keys = s.keys ∧ ∀ res, Finished next id res →
      ∃ e, res = .error e ∧ (isBlank deletion.accountId = true ∨ IngestFailed s delivery e)) ∨
    (delivery.Erasing ∧
      next.keys.vault = (cryptoShred s.keys.vault deletion.accountId
        (SubjectKeys.keyRef deletion.accountId) [] now service).1 ∧
      ∀ res, Finished next id res → res = (cryptoShred s.keys.vault deletion.accountId
        (SubjectKeys.keyRef deletion.accountId) [] now service).2) := by
  obtain ⟨_, stage⟩ := delivery
  cases req
  cases stage with
  | queued =>
    cases hs
    refine .inl ⟨(by rintro ⟨_, _, _, _, asked⟩; cases asked), rfl, fun res finished => ?_⟩
    have he := Stage.running.inj ((finished_setStage rfl).mp finished)
    cases hn : isBlank deletion.accountId with
    | true =>
      have shape : process formats (.gdprDeletionRequested deletion) = .ofExcept (.error _) :=
        process_deletion_blank hn
      exact ⟨_, (Program.ofExcept_injective (shape.symm.trans he)).symm, .inl rfl⟩
    | false =>
      obtain ⟨ev, shape⟩ := process_deletion hn
      cases Program.call_ne_ofExcept (shape.symm.trans he)
  | running =>
    rcases hv deletion rfl with ⟨ev, rfl⟩ | rfl | ⟨res, rfl⟩
    · obtain ⟨_, -, rfl⟩ := map_eq_some_iff.mp hs
      refine .inl ⟨(by rintro ⟨_, _, _, _, asked⟩; cases asked), rfl, fun res finished => ?_⟩
      cases (finished_setStage (s := s) rfl).mp finished
    · cases hs
      refine .inr ⟨⟨_, _, _, _, rfl⟩, rfl, fun res finished => ?_⟩
      have he := Stage.running.inj ((finished_setStage (s := s) rfl).mp finished)
      exact (Program.ofExcept_injective he).symm
    · cases res <;> cases hs
  | waiting pending =>
    rcases hv deletion rfl with ⟨ev, rfl⟩ | rfl | ⟨res, rfl⟩
    · obtain ⟨ans, hr, rfl⟩ := map_eq_some_iff.mp hs
      refine .inl ⟨(by rintro ⟨_, _, _, _, asked⟩; cases asked), rfl, fun res finished => ?_⟩
      have he := Stage.running.inj ((finished_setStage rfl).mp finished)
      cases ans with
      | ok => cases Program.call_ne_ofExcept he
      | error e =>
        cases Program.ofExcept_injective (show Program.ofExcept (.error e) = _ from he)
        exact ⟨e, rfl, .inr ⟨pending, ev, _, rfl, hr⟩⟩
    · cases hs
    · cases res <;> cases hs
  | crashed => cases hs

section

variable (sha256 kek aead formats)

/-- A delivery of a deletion request keeps the key row of a held subject. Otherwise it ends with the
row gone, unless the account id is blank, the ingest fails or the vault does. -/
def LegalHoldWins (s : State) (a : Action) : Prop :=
  ∀ id call now service delivery deletion next, a = .advance id call now service →
    s.deliveries id = some delivery → delivery.wire = .gdprDeletionRequested deletion →
    step sha256 kek aead formats s a = some next →
    (Held s.holds deletion.accountId now → next.keyRow deletion.accountId = s.keyRow deletion.accountId) ∧
    (¬ Held s.holds deletion.accountId now →
      (Finished next id (.ok ()) → next.keyRow deletion.accountId = none) ∧
      ∀ e, Finished next id (.error e) →
        isBlank deletion.accountId = true ∨ IngestFailed s delivery e ∨ service ≠ .served)

/-- No erasure reaches the vault for a held subject that has a key row. -/
def ErasesUnheld (s : State) (a : Action) : Prop :=
  ∀ id call now service delivery deletion, a = .advance id call now service →
    s.deliveries id = some delivery → delivery.wire = .gdprDeletionRequested deletion → delivery.Erasing →
    service ≠ .refused → Held s.holds deletion.accountId now → s.keyRow deletion.accountId = none

variable {sha256 kek aead formats}

theorem cryptoShred_unheld :
    cryptoShred vault subject keyRef [] now service =
      match service with
      | .served => (vault.destroy keyRef, .ok ())
      | .refused => (vault, .error .keyVaultUnavailable)
      | .replyLost => (vault.destroy keyRef, .error .keyVaultUnavailable) := by
  have authorized : authorizeErasure subject [] now = .ok () := authorizeErasure_ok_iff.mpr (by simp [Held])
  unfold cryptoShred
  rw [authorized]

theorem destroy_table (hv : SubjectKeys.Vault) : (hv.destroy keyRef).table keyRef = none := update_self ..

private theorem erases_of_wins (hv : Valid s) (wins : LegalHoldWins sha256 kek aead formats s a) :
    ErasesUnheld s a := by
  rintro id call now svc delivery deletion rfl hr req erasing reaches h
  obtain ⟨subject, keyRef, hp, rest, asked⟩ := erasing
  have hs : ∃ next, step sha256 kek aead formats s (.advance id call now svc) = some next := by
    simp [step, hr, advance, asked]
  obtain ⟨next, hs⟩ := hs
  have kept := (wins id call now svc delivery deletion next rfl hr req hs).1 h
  obtain ⟨_, hf, hm⟩ := bind_eq_some_iff.mp hs
  cases hr.symm.trans hf
  rcases deletion_advance (hv id delivery hr) req hm with ⟨idle, -⟩ | ⟨-, vault, -⟩
  · exact absurd ⟨subject, keyRef, hp, rest, asked⟩ idle
  · rw [← kept, State.keyRow, vault, cryptoShred_unheld]
    cases svc with
    | refused => cases reaches rfl
    | served | replyLost => exact destroy_table ..

private theorem wins_of_erases (hv : Valid s) (he : ErasesUnheld s a) :
    LegalHoldWins sha256 kek aead formats s a := by
  rintro id call now svc delivery deletion next rfl hr req hs
  obtain ⟨_, hf, hm⟩ := bind_eq_some_iff.mp hs
  cases hr.symm.trans hf
  rcases deletion_advance (hv id delivery hr) req hm with
    ⟨-, keys, ends⟩ | ⟨erasing, vault, ends⟩
  · have untouched : next.keyRow deletion.accountId = s.keyRow deletion.accountId := by
      rw [State.keyRow, keys, State.keyRow]
    refine ⟨fun _ => untouched, fun _ => ⟨fun finished => ?_, fun e finished => ?_⟩⟩
    · obtain ⟨e, hfa, -⟩ := ends _ finished
      cases hfa
    · obtain ⟨_, hfa, excuse⟩ := ends _ finished
      cases hfa
      exact excuse.imp_right .inl
  · unfold State.keyRow
    rw [vault]
    cases svc with
    | served =>
      refine ⟨fun h => ?_, fun _ => ⟨fun _ => destroy_table .., fun e finished => ?_⟩⟩
      · exact (destroy_table ..).trans
          (he id call now _ delivery deletion rfl hr req erasing (by decide) h).symm
      · cases ends _ finished
    | refused =>
      refine ⟨fun _ => rfl, fun _ => ⟨fun finished => ?_, fun _ _ => by simp⟩⟩
      cases ends _ finished
    | replyLost =>
      refine ⟨fun h => ?_, fun _ => ⟨fun finished => ?_, fun _ _ => by simp⟩⟩
      · exact (destroy_table ..).trans
          (he id call now _ delivery deletion rfl hr req erasing (by decide) h).symm
      · cases ends _ finished

/-- Along a run, legal holds win if and only if no erasure reaches the vault for a held
subject with a key. -/
theorem legalHoldWins_iff_erasesUnheld (table : SubjectKeys.Table) (trace : List Action) :
    (machine sha256 kek aead formats).Meets (LegalHoldWins sha256 kek aead formats) (start table) trace ↔
      (machine sha256 kek aead formats).Meets ErasesUnheld (start table) trace := by
  apply Machine.meets_congr Valid
  · intro s a next valid stepped
    exact step_valid valid stepped
  · intro s a valid
    exact ⟨erases_of_wins valid, wins_of_erases valid⟩
  · intro id delivery found
    cases found

/-- `acc-1` asks for deletion at the epoch. -/
def deletionRequest : GdprDeletionRequestedWire :=
  { accountId := "acc-1", occurredAt := .epoch, correlationId := "", regular := by decide, retentionDays := 30
    scheduledDeletionAt := .epoch }

/-- The texts of that request's identifier and times. -/
def deletionFormats : Formats where
  newV5 _ _ := "e9d191de-1525-5f5f-a3a1-9b9538059146"
  newV5_not_blank _ _ := by decide
  toRfc3339 _ := "1970-01-01T00:00:00+00:00"

/-- SHA-256 of the one link that is hashed below. -/
def deletionSha256 : Sha256 := fun _ =>
  #v[0x7c, 0x73, 0xe9, 0xf0, 0x66, 0x0a, 0xef, 0xfe, 0xa4, 0x32, 0x7a, 0x59, 0xf1, 0x8a, 0xe7, 0x9e, 0x49,
    0x8f, 0xdd, 0x0a, 0x05, 0xa2, 0xbd, 0x9d, 0x15, 0x26, 0xc2, 0x27, 0xdf, 0x78, 0x91, 0xd5]

/-- Personal data of `acc-1` is sealed, a hold is placed, and their deletion request is processed up
to the erasure. -/
def heldErasure : List Action :=
  [.keys (.begin 0 "acc-1" "email=a"), .keys (.fetch 0 .served), .keys (.mint 0 (.replicate 32 1) []),
    .keys (.upsert 0 .epoch .served), .keys (.reread 0 .served), .keys (.seal 0 (.replicate 12 1)),
    .hold [.placed "lh-1" "acc-1" .epoch], .deliver 0 (.gdprDeletionRequested deletionRequest),
    .advance 0 0 .epoch .served, .advance 0 0 .epoch .served, .commit (.advance 0 .epoch .served),
    .commit (.advance 0 .epoch .served), .commit (.advance 0 .epoch .served),
    .commit (.advance 0 .epoch .served), .advance 0 0 .epoch .served]

private def requestOf (delivery : Delivery) : Option String :=
  match delivery.wire with
  | .gdprDeletionRequested deletion => some deletion.accountId
  | _ => none

theorem heldSubject_erased :
    ∃ s next, (machine deletionSha256 SubjectKeys.fakeKms SubjectKeys.sampleAead deletionFormats).run
        (start fun _ => none) heldErasure = some s ∧
      step deletionSha256 SubjectKeys.fakeKms SubjectKeys.sampleAead deletionFormats s
        (.advance 0 0 .epoch .served) = some next ∧
      Held s.holds "acc-1" .epoch ∧ s.keyRow "acc-1" ≠ none ∧ next.keyRow "acc-1" = none ∧
      ¬ LegalHoldWins deletionSha256 SubjectKeys.fakeKms SubjectKeys.sampleAead deletionFormats s
        (.advance 0 0 .epoch .served) := by
  obtain ⟨s, ran, held, requested, kept, next, stepped, gone⟩ : ∃ s, (machine deletionSha256 SubjectKeys.fakeKms
      SubjectKeys.sampleAead deletionFormats).run (start fun _ => none) heldErasure = some s ∧
      Held s.holds "acc-1" .epoch ∧ (s.deliveries 0).bind requestOf = some "acc-1" ∧ s.keyRow "acc-1" ≠ none ∧
      ∃ next, step deletionSha256 SubjectKeys.fakeKms SubjectKeys.sampleAead deletionFormats s
        (.advance 0 0 .epoch .served) = some next ∧ next.keyRow "acc-1" = none := by decide +kernel
  refine ⟨s, next, ran, stepped, held, kept, gone, fun wins => ?_⟩
  obtain ⟨delivery, running, request⟩ := Option.bind_eq_some_iff.mp requested
  unfold requestOf at request
  split at request
  · rename_i deletion wire
    have respects := wins 0 0 .epoch .served delivery deletion next rfl running wire stepped
    rw [Option.some.inj request] at respects
    have same := respects.1 held
    exact kept (same.symm.trans gone)
  · cases request

end
end CorePlatform.Audit.AccountFeed
