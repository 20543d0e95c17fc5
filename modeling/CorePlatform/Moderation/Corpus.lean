import CorePlatform.Moderation.Handlers

/-! # The corpus of known content

The first of the presented hashes that the corpus has decides the match, and the first category
of its entry is the one that the decision is recorded with. What the other entries say, and
what else this entry says, is not asked.
-/

namespace CorePlatform.Moderation

open Auth (Uuid)

structure StoredMatch where
  categories : List String
  reference : String

structure Corpus where
  /-- What Redis has under the key of a hash. -/
  get : ContentHash → Option String
  /-- `serde_json::from_str`, with its error's text. -/
  fromStr : String → Except String StoredMatch

namespace Corpus

variable (corpus : Corpus)

def parseEntry (raw : String) : Except ModerationError ScreenMatch :=
  match corpus.fromStr raw with
  | .error e => .error (.signalRejected ("malformed corpus entry: " ++ e))
  | .ok stored => do
    let categories ← stored.categories.mapM PolicyCategory.tryFrom
    return ⟨categories, stored.reference⟩

/-- `RedisScreenCorpus::screen`; neither the text nor the requested categories are looked at. -/
def screen : List ContentHash → Except ModerationError (Option ScreenMatch)
  | [] => .ok none
  | hash :: rest =>
    match corpus.get hash with
    | some raw => (corpus.parseEntry raw).map some
    | none => screen rest

/-- The first category of the entry of a hash, if there is an entry that can be read. -/
def foremost (hash : ContentHash) : Option PolicyCategory :=
  (corpus.get hash).bind fun raw => (corpus.parseEntry raw).toOption.map fun hit => hit.categories.head?.getD .other

/-- Some of the hashes is stored as child sexual abuse material, whatever else its entry says. -/
def Known (hashes : List ContentHash) : Prop :=
  ∃ hash ∈ hashes, ∃ raw stored, corpus.get hash = some raw ∧ corpus.fromStr raw = .ok stored ∧
    "csam" ∈ stored.categories

/-- A screen of the hashes in this order blocks, and the decision it writes first is of this category. -/
def Records (blocking : ScreenMatch → Calling ScreenOutcome) (order : List ContentHash) (category : PolicyCategory) :
    Prop :=
  ∃ hit decision rest, corpus.screen order = .ok (some hit) ∧
    blocking hit = .call (.appendDecision decision) rest ∧ decision.category = category

/-- A known match is recorded as one that cannot be appealed, and the same in whatever order. -/
def Final (blocking : ScreenMatch → Calling ScreenOutcome) (hashes : List ContentHash) : Prop :=
  ∀ order order' category category', order.Perm hashes → order'.Perm hashes →
    corpus.Records blocking order category → corpus.Records blocking order' category' →
    category = category' ∧ (corpus.Known hashes → ensureAppealable category = .error .notAppealable)

end Corpus

/-- The decision that a block writes first is of the first category of the match. -/
def Writes (blocking : ScreenMatch → Calling ScreenOutcome) : Prop :=
  ∀ hit, ∃ decision rest, blocking hit = .call (.appendDecision decision) rest ∧
    decision.category = hit.categories.head?.getD .other

theorem block_writes : Writes fun hit => block setup subject hit corr decisionId enfId now := by
  intro hit
  have named : Audit.isBlank ("automated screen match: " ++ hit.reference) = false := by
    simp [Audit.isBlank, show Audit.isWhitespace 'a' = false from rfl]
  simp only [block, Decision.record, Decision.build, named]
  exact ⟨_, _, rfl, rfl⟩

namespace Corpus

variable {corpus : Corpus}

theorem foremost_of_records (writes : Writes blocking) (records : corpus.Records blocking order category) :
    ∃ hash ∈ order, corpus.foremost hash = some category := by
  obtain ⟨hit, decision, rest, screened, written, rfl⟩ := records
  obtain ⟨_, _, written', first⟩ := writes hit
  cases written.symm.trans written'
  rw [first]
  clear written written' first
  induction order with
  | nil => cases screened
  | cons hash rest ih =>
    simp only [screen] at screened
    split at screened
    · rename_i raw stored
      refine ⟨hash, .head _, ?_⟩
      cases parsed : corpus.parseEntry raw <;> simp_all [foremost, Except.map, Except.toOption]
    · obtain ⟨other, mem, first⟩ := ih screened
      exact ⟨other, .tail _ mem, first⟩

theorem records_of_foremost (writes : Writes blocking) {hash : ContentHash}
    (first : corpus.foremost hash = some category) : corpus.Records blocking (hash :: rest) category := by
  obtain ⟨raw, stored, read⟩ := Option.bind_eq_some_iff.mp first
  cases parsed : corpus.parseEntry raw with
  | error => simp [parsed, Except.toOption] at read
  | ok hit =>
    obtain ⟨decision, rest, written, same⟩ := writes hit
    refine ⟨hit, decision, rest, by simp [screen, stored, parsed, Except.map], written, ?_⟩
    simpa [parsed, Except.toOption, same] using read

/-- The match is final exactly when all entries of the hashes start with one category, which is
child sexual abuse material if some hash is known as that. -/
theorem final_iff (setup : Setup) (subject : SubjectRef) (correlationId : Uuid) (decisionId : DecisionId)
    (enforcementId : EnforcementId) (now : Int) (hashes : List ContentHash) :
    corpus.Final (fun hit => block setup subject hit correlationId decisionId enforcementId now) hashes ↔
      ∀ hash ∈ hashes, ∀ category, corpus.foremost hash = some category →
        (∀ other ∈ hashes, ∀ category', corpus.foremost other = some category' → category = category') ∧
        (corpus.Known hashes → category = .csam) := by
  have barred (category : PolicyCategory) :
      ensureAppealable category = .error .notAppealable ↔ category = .csam := by
    cases category <;> simp [ensureAppealable, PolicyCategory.isAppealable]
  constructor
  · intro final hash mem category first
    have leads : ∀ hash ∈ hashes, ∃ rest, (hash :: rest).Perm hashes := by
      intro hash mem
      obtain ⟨before, after, rfl⟩ := List.append_of_mem mem
      exact ⟨before ++ after, List.perm_middle.symm⟩
    obtain ⟨rest, same⟩ := leads hash mem
    constructor
    · intro other mem' category' first'
      obtain ⟨rest', same'⟩ := leads other mem'
      exact (final _ _ _ _ same same' (records_of_foremost block_writes first)
        (records_of_foremost block_writes first')).1
    · intro known
      exact (barred category).mp ((final _ _ _ _ same same (records_of_foremost block_writes first)
        (records_of_foremost block_writes first)).2 known)
  · intro agree order order' category category' same same' records records'
    obtain ⟨hash, mem, first⟩ := foremost_of_records block_writes records
    obtain ⟨other, mem', first'⟩ := foremost_of_records block_writes records'
    obtain ⟨alike, csam⟩ := agree hash (same.subset mem) category first
    exact ⟨alike other (same'.subset mem') category' first', fun known => (barred category).mpr (csam known)⟩

/-- Two presented hashes, one known as spam and the other as child sexual abuse material. -/
def mixed : Corpus where
  get hash := some hash.value
  fromStr raw := .ok ⟨[raw], "ref"⟩

/-- The spam comes first, and the decision can be appealed. -/
theorem known_match_appealable : mixed.Known [⟨"md5", "spam"⟩, ⟨"pdq", "csam"⟩] ∧
    ∀ setup subject correlationId decisionId enforcementId now,
      mixed.Records (fun hit => block setup subject hit correlationId decisionId enforcementId now)
        [⟨"md5", "spam"⟩, ⟨"pdq", "csam"⟩] .spam ∧ ensureAppealable .spam = .ok () :=
  ⟨⟨_, .tail _ (.head _), _, _, rfl, rfl, .head _⟩, fun _ _ _ _ _ _ => ⟨records_of_foremost block_writes rfl, rfl⟩⟩

end Corpus
end CorePlatform.Moderation
