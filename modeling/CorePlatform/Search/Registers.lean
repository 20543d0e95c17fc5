import CorePlatform.Search.Index

/-! # One document, three registers

The content of a document and the flag of each authority are registers that the last writer wins,
laid out in one source that any of them may create. So the order of a document's writes, and how
often each comes, does not show in the end. -/

namespace CorePlatform.Search

open Theory Function Option

/-- The fields that the scripts keep for themselves. -/
def guardFields : List String :=
  ["content_version", "moderation_searchable", "moderation_visibility_version", "owner_searchable",
    "owner_visibility_version"]

def contentOf (document : IndexDocument) (key : String) : Option Value := (contentSource document).lookup key

def fieldsOf : EntityKind → List String
  | .profile => ["entity_type", "author_id", "handle", "display_name", "bio", "avatar_key", "verified", "created_at",
      "indexed_at", "popularity"]
  | .post => ["entity_type", "author_id", "caption", "hashtags", "author_handle", "thumbnail_key", "created_at",
      "indexed_at", "popularity"]
  | .hashtag => ["entity_type", "tag", "post_count", "indexed_at", "popularity"]

theorem contentSource_fields : (contentSource doc).map Prod.fst = fieldsOf doc.kind := by
  cases doc <;> rfl

theorem fieldsOf_nodup : (fieldsOf kind).Nodup := by
  cases kind <;> decide

theorem entityType_mem_fieldsOf : "entity_type" ∈ fieldsOf kind := by
  cases kind <;> exact .head _

theorem guardFields_disjoint (kind : EntityKind) : ∀ key ∈ guardFields, key ∉ fieldsOf kind := by
  cases kind <;> decide

theorem guardFields_untyped : ∀ key ∈ guardFields, key ≠ "entity_type" := by decide

theorem contentOf_eq_none_iff (doc : IndexDocument) : contentOf doc key = none ↔ key ∉ fieldsOf doc.kind := by
  unfold contentOf
  rw [List.lookup_eq_none_iff, ← contentSource_fields]
  constructor
  · intro different hi
    obtain ⟨entry, mem, rfl⟩ := List.mem_map.mp hi
    simpa using different entry mem
  · intro ha entry mem
    simp only [bne_iff_ne, ne_eq]
    rintro rfl
    exact ha (List.mem_map_of_mem mem)

theorem setAll_contentSource (source : Source) :
    source.setAll (contentSource document) key = (contentOf document key).or (source key) := by
  apply Source.setAll_apply
  rw [contentSource_fields]
  exact fieldsOf_nodup

theorem setAll_guard (source : Source) (hg : key ∈ guardFields) :
    source.setAll (contentSource document) key = source key := by
  rw [setAll_contentSource, (contentOf_eq_none_iff document).mpr (guardFields_disjoint _ key hg)]
  rfl

namespace VisibilityAuthority

theorem flagField_guard (auth : VisibilityAuthority) : auth.flagField ∈ guardFields := by
  cases auth <;> decide

theorem versionField_guard (auth : VisibilityAuthority) : auth.versionField ∈ guardFields := by
  cases auth <;> decide

theorem fields_apart {b : VisibilityAuthority} (ne : a ≠ b) : a.flagField ≠ b.flagField ∧
    a.flagField ≠ b.versionField ∧ a.versionField ≠ b.flagField ∧ a.versionField ≠ b.versionField := by
  cases a <;> cases b <;> first | exact absurd rfl ne | decide

end VisibilityAuthority

structure ContentWritten (document : IndexDocument) (source after : Source) : Prop where
  version : after "content_version" = some (.number document.version)
  content : ∀ key ∉ guardFields, after key = (contentOf document key).or (source key)
  flag : ∀ authority : VisibilityAuthority, after authority.flagField =
    some ((source authority.flagField).getD (.flag document.searchable.isVisible))
  flagVersion : ∀ authority : VisibilityAuthority, after authority.versionField =
    some ((source authority.versionField).getD (.number 0))

theorem contentScript_cases (doc : IndexDocument) :
    (source.stale "content_version" doc.version = true ∧
        contentScript doc.version doc.searchable.isVisible (contentSource doc) source = none) ∨
      source.stale "content_version" doc.version = false ∧
        ∃ after, contentScript doc.version doc.searchable.isVisible (contentSource doc) source =
          some after ∧ ContentWritten doc source after := by
  unfold contentScript
  cases stale : source.stale "content_version" doc.version with
  | true => exact .inl ⟨rfl, rfl⟩
  | false =>
    have guards : ∀ key ∈ guardFields, source.setAll (contentSource doc) key = source key :=
      fun key guard => setAll_guard source guard
    refine .inr ⟨rfl, _, rfl, ?_, ?_, ?_, ?_⟩
    · simp [Source.seed_apply, Source.set_apply]
    · intro key free
      simp only [guardFields, List.mem_cons, List.not_mem_nil, or_false, not_or] at free
      simp [Source.seed_apply, Source.set_apply, free, setAll_contentSource]
    · intro auth
      have unset := guards auth.flagField auth.flagField_guard
      cases auth <;>
        simp only [VisibilityAuthority.flagField] at unset ⊢ <;>
        simp [Source.seed_apply, Source.set_apply, unset]
    intro auth
    have unset := guards auth.versionField auth.versionField_guard
    cases auth <;>
      simp only [VisibilityAuthority.versionField] at unset ⊢ <;>
      simp [Source.seed_apply, Source.set_apply, unset]

structure FlagWritten (authority : VisibilityAuthority) (kind : EntityKind) (searchable : Searchable)
    (version : DocVersion) (source after : Source) : Prop where
  flag : after authority.flagField = some (.flag searchable.isVisible)
  flagVersion : after authority.versionField = some (.number version)
  entityType : after "entity_type" = some ((source "entity_type").getD (.text kind.asStr))
  rest : ∀ key, key ≠ authority.flagField → key ≠ authority.versionField → key ≠ "entity_type" →
    after key = source key

namespace FlagWritten

variable (hw : FlagWritten auth kind searchable ver source after)
include hw

theorem free (free : key ∉ guardFields) (notType : key ≠ "entity_type") : after key = source key :=
  hw.rest key (fun eq => free (eq ▸ auth.flagField_guard)) (fun eq => free (eq ▸ auth.versionField_guard)) notType

theorem other {other : VisibilityAuthority} (ne : other ≠ auth) :
    after other.flagField = source other.flagField ∧ after other.versionField = source other.versionField := by
  obtain ⟨ff, fv, vf, vv⟩ := VisibilityAuthority.fields_apart ne
  exact ⟨hw.rest _ ff fv (guardFields_untyped _ other.flagField_guard),
    hw.rest _ vf vv (guardFields_untyped _ other.versionField_guard)⟩

end FlagWritten

theorem visibilityScript_cases :
    (source.stale auth.versionField ver = true ∧
        visibilityScript auth.flagField auth.versionField ver searchable.isVisible kind.asStr source = none) ∨
      source.stale auth.versionField ver = false ∧
        ∃ after, visibilityScript auth.flagField auth.versionField ver searchable.isVisible kind.asStr
          source = some after ∧ FlagWritten auth kind searchable ver source after := by
  unfold visibilityScript
  cases stale : source.stale auth.versionField ver with
  | true => exact .inl ⟨rfl, rfl⟩
  | false =>
    refine .inr ⟨rfl, _, rfl, ?_, ?_, ?_, ?_⟩
    · cases auth <;>
        simp [Source.seed_apply, Source.set_apply, VisibilityAuthority.flagField, VisibilityAuthority.versionField]
    · cases auth <;> simp [Source.seed_apply, Source.set_apply, VisibilityAuthority.versionField]
    · cases auth <;>
        simp [Source.seed_apply, Source.set_apply, VisibilityAuthority.flagField, VisibilityAuthority.versionField]
    · intro key notFlag notVersion notType
      simp [Source.seed_apply, Source.set_apply, notFlag, notVersion, notType]

structure Registers where
  content : Option (Stamped IndexDocument)
  flag : VisibilityAuthority → Option (Stamped Bool)

namespace Registers

/-- No content yet, and nobody minds. -/
def start : Registers := ⟨none, fun _ => some ⟨0, true⟩⟩

def write (r : Registers) : IndexMutation → Registers
  | .upsert document => { r with content := Stamped.offer r.content ⟨document.version, document⟩ }
  | .setSearchable authority _ _ searchable version =>
    let flag := Stamped.offer (r.flag authority) ⟨version, searchable.isVisible⟩
    { r with flag := update r.flag authority flag }
  | .delete _ _ | .purgeByAuthor _ | .skip _ => r

end Registers

def upserts (mutations : List IndexMutation) : List (Stamped IndexDocument) :=
  mutations.filterMap fun
    | .upsert document => some ⟨document.version, document⟩
    | _ => none

def flips (authority : VisibilityAuthority) (mutations : List IndexMutation) : List (Stamped Bool) :=
  mutations.filterMap fun
    | .setSearchable by_ _ _ searchable version =>
      if by_ = authority then some ⟨version, searchable.isVisible⟩ else none
    | _ => none

theorem foldl_write_content (mutations : List IndexMutation) :
    (mutations.foldl Registers.write r).content = (upserts mutations).foldl Stamped.offer r.content := by
  induction mutations generalizing r with
  | nil => rfl
  | cons mutation _ ih =>
    rw [List.foldl_cons, ih]
    cases mutation <;> rfl

theorem foldl_write_flag (mutations : List IndexMutation) :
    (mutations.foldl Registers.write r).flag authority =
      (flips authority mutations).foldl Stamped.offer (r.flag authority) := by
  induction mutations generalizing r with
  | nil => rfl
  | cons mutation _ ih =>
    rw [List.foldl_cons, ih]
    cases mutation with
    | setSearchable by_ =>
      by_cases mine : by_ = authority
      · subst mine
        simp [flips, Registers.write]
      · simp [flips, Registers.write, mine, update_of_ne (Ne.symm mine)]
    | upsert | delete | purgeByAuthor | skip => rfl

/-- The mutation writes this document: content that leaves the projector, or a flag. -/
def IndexMutation.Writes (kind : EntityKind) (id : String) : IndexMutation → Prop
  | .upsert document => document.kind = kind ∧ document.id = id ∧ document.searchable = .visible
  | .setSearchable _ kind' id' _ version => kind' = kind ∧ id' = id ∧ 1 ≤ version
  | .delete _ _ | .purgeByAuthor _ | .skip _ => False

/-- The source has the authority's flag, or the register is untouched and no content has seeded it. -/
def Source.ShowsFlag (source : Source) (r : Registers) (authority : VisibilityAuthority) : Prop :=
  (∃ held, r.flag authority = some held ∧ source authority.flagField = some (.flag held.value) ∧
      source authority.versionField = some (.number held.version)) ∨
    r.flag authority = some ⟨0, true⟩ ∧ source authority.flagField = none ∧ source authority.versionField = none ∧
      r.content = none

/-- A source as the layout of the registers. -/
structure Source.Shows (source : Source) (kind : EntityKind) (r : Registers) : Prop where
  version : source "content_version" = r.content.map fun held => .number held.version
  blank : r.content = none → ∀ key ∉ guardFields, key ≠ "entity_type" → source key = none
  content : ∀ held, r.content = some held → held.value.kind = kind ∧
    ∀ key ∉ guardFields, source key = contentOf held.value key
  flag : ∀ authority, source.ShowsFlag r authority

namespace Source

theorem shows_start : Source.empty.Shows kind .start where
  version := rfl
  blank := fun _ _ _ _ => rfl
  content := nofun
  flag := fun _ => .inr ⟨rfl, rfl, rfl, rfl⟩

variable {source : Source}

theorem Shows.contentStale (hs : source.Shows kind r)
    (hst : source.stale "content_version" doc.version = true) : r.write (.upsert doc) = r := by
  unfold Source.stale at hst
  rw [hs.version] at hst
  cases h : r.content with
  | none => simp [h] at hst
  | some stored =>
    rw [h] at hst
    have older : doc.version ≤ stored.version := by simpa using hst
    simp [Registers.write, h, Stamped.offer, older]
    rw [← h]

theorem Shows.contentFresh (hs : source.Shows kind r)
    (hf : source.stale "content_version" doc.version = false) :
    (r.write (.upsert doc)).content = some ⟨doc.version, doc⟩ := by
  unfold Source.stale at hf
  rw [hs.version] at hf
  cases h : r.content with
  | none => simp [Registers.write, h, Stamped.offer]
  | some stored =>
    rw [h] at hf
    have newer : ¬ doc.version ≤ stored.version := by simpa using hf
    simp [Registers.write, h, Stamped.offer, newer]

theorem Shows.contentWritten (hs : source.Shows kind r) (mine : doc.kind = kind)
    (hv : doc.searchable = .visible) (hf : source.stale "content_version" doc.version = false)
    (hw : ContentWritten doc source after) : after.Shows kind (r.write (.upsert doc)) := by
  have content := hs.contentFresh hf
  constructor
  · rw [content]
    exact hw.version
  · intro none_
    rw [content] at none_
    cases none_
  · intro h eq
    rw [content] at eq
    cases eq
    refine ⟨mine, ?_⟩
    intro key free
    rw [hw.content key free]
    cases here : contentOf doc key with
    | some => rfl
    | none =>
      -- not a field of the kind, so no earlier content has it either
      have ha := (contentOf_eq_none_iff doc).mp here
      rw [mine] at ha
      cases hb : r.content with
      | none =>
        apply hs.blank hb key free
        rintro rfl
        exact ha entityType_mem_fieldsOf
      | some h =>
        obtain ⟨eq, fields⟩ := hs.content h hb
        rw [none_or, fields key free, contentOf_eq_none_iff, eq]
        exact ha
  · intro authority
    have flag : (r.write (.upsert doc)).flag authority = r.flag authority := rfl
    rcases hs.flag authority with ⟨h, eq, shownFlag, shownVersion⟩ | ⟨eq, noFlag, noVersion, -⟩
    · refine .inl ⟨h, flag.trans eq, ?_, ?_⟩
      · rw [hw.flag, shownFlag]
        rfl
      · rw [hw.flagVersion, shownVersion]
        rfl
    · refine .inl ⟨⟨0, true⟩, flag.trans eq, ?_, ?_⟩
      · rw [hw.flag, noFlag, hv]
        rfl
      · rw [hw.flagVersion, noVersion]
        rfl

theorem ShowsFlag.stale (hs : source.ShowsFlag r authority) {id : String} (hp : 1 ≤ version) :
    (source.stale authority.versionField version = true →
        r.write (.setSearchable authority kind id searchable version) = r) ∧
      (source.stale authority.versionField version = false →
        (r.write (.setSearchable authority kind id searchable version)).flag authority =
          some ⟨version, searchable.isVisible⟩) := by
  rcases hs with ⟨h, eq, -, shownVersion⟩ | ⟨eq, -, noVersion, -⟩
  · unfold Source.stale
    rw [shownVersion]
    constructor
    · intro stale
      have older : version ≤ h.version := by simpa using stale
      simp only [Registers.write, eq, Stamped.offer, older, if_true]
      rw [← eq, update_eq_self]
    · intro hf
      have newer : ¬ version ≤ h.version := by simpa using hf
      simp [Registers.write, eq, Stamped.offer, newer]
  · unfold Source.stale
    rw [noVersion]
    constructor
    · intro stale
      cases stale
    · intro _
      have newer : ¬ version = 0 := Nat.ne_of_gt hp
      simp [Registers.write, eq, Stamped.offer, newer]

theorem Shows.flagWritten (hs : source.Shows kind r) {id : String} {ver : DocVersion} (hp : 1 ≤ ver)
    (hf : source.stale auth.versionField ver = false)
    (hw : FlagWritten auth kind searchable ver source after) :
    after.Shows kind (r.write (.setSearchable auth kind id searchable ver)) := by
  have content : (r.write (.setSearchable auth kind id searchable ver)).content = r.content := rfl
  constructor
  · rw [content, ← hs.version]
    apply hw.rest
    · cases auth <;> decide
    · cases auth <;> decide
    · decide
  · intro none_ key free notType
    rw [hw.free free notType]
    exact hs.blank none_ key free notType
  · intro h eq
    obtain ⟨kinds, fields⟩ := hs.content h eq
    refine ⟨kinds, ?_⟩
    intro key free
    by_cases notType : key = "entity_type"
    · subst notType
      have present : contentOf h.value "entity_type" ≠ none := by
        rw [Ne, contentOf_eq_none_iff, not_not]
        exact entityType_mem_fieldsOf
      obtain ⟨_, here⟩ := ne_none_iff_exists'.mp present
      rw [hw.entityType, fields _ free, here]
      rfl
    · rw [hw.free free notType]
      exact fields key free
  · intro other
    by_cases mine : other = auth
    · subst mine
      exact .inl ⟨_, ((hs.flag other).stale hp).2 hf, hw.flag, hw.flagVersion⟩
    have flag : (r.write (.setSearchable auth kind id searchable ver)).flag other = r.flag other :=
      update_of_ne mine _ _
    unfold ShowsFlag
    rw [flag, content, (hw.other mine).1, (hw.other mine).2]
    exact hs.flag other

end Source

namespace OpenSearch

/-- The kind is read from the index it is written to. -/
structure Serves (engine : OpenSearch) (kind : EntityKind) (name : String) : Prop where
  reads : engine.readAlias kind = some name
  writes : engine.writeAlias kind = some name
  exists_ : (engine.indices name).isSome

variable {engine : OpenSearch} {id : String}

/-- The script of a mutation on the document it writes. -/
def scriptOf : IndexMutation → Source → Option Source
  | .upsert document => contentScript document.version document.searchable.isVisible (contentSource document)
  | .setSearchable authority kind _ searchable version =>
    visibilityScript authority.flagField authority.versionField version searchable.isVisible kind.asStr
  | .delete _ _ | .purgeByAuthor _ | .skip _ => fun _ => none

theorem scriptedUpdate_eq (writes : engine.writeAlias kind = some name) (h : engine.indices name = some index)
    (id : String) (script : Source → Option Source) : (engine.scriptedUpdate kind id script).1 =
      engine.setDocument name index id ((script ((index id).getD .empty)).or (index id)) := by
  have behind : engine.behind (engine.writeAlias kind) = some (name, index) := by simp [behind, writes, h]
  simp only [OpenSearch.scriptedUpdate, behind]
  cases script ((index id).getD .empty) with
  | none =>
    unfold setDocument
    rw [none_or, update_eq_self, ← h, update_eq_self]
  | some => rfl

theorem Serves.scriptedUpdate (hs : engine.Serves kind name) (id : String) (script : Source → Option Source) :
    (engine.scriptedUpdate kind id script).1.Serves kind name ∧
      (engine.scriptedUpdate kind id script).1.document kind id =
        (script ((engine.document kind id).getD .empty)).or (engine.document kind id) := by
  obtain ⟨index, h⟩ := isSome_iff_exists.mp hs.exists_
  have read : engine.document kind id = index id := by simp [document, behind, hs.reads, h]
  rw [scriptedUpdate_eq hs.writes h, read]
  refine ⟨⟨hs.reads, hs.writes, ?_⟩, ?_⟩
  · simp [setDocument]
  · simp [setDocument, document, behind, hs.reads]

theorem Serves.apply (hs : engine.Serves kind name) (mine : mutation.Writes kind id) :
    (engine.apply mutation).1.Serves kind name ∧
      (engine.apply mutation).1.document kind id =
        (scriptOf mutation ((engine.document kind id).getD .empty)).or (engine.document kind id) := by
  cases mutation with
  | upsert | setSearchable =>
    obtain ⟨rfl, rfl, -⟩ := mine
    exact hs.scriptedUpdate _ _
  | delete | purgeByAuthor | skip => exact mine.elim

/-- The stored document lays out the registers. -/
def Lays (engine : OpenSearch) (kind : EntityKind) (id : String) (r : Registers) : Prop :=
  ((engine.document kind id).getD .empty).Shows kind r

theorem Lays.apply (hs : engine.Serves kind name) (lays : engine.Lays kind id r) (mine : mutation.Writes kind id) :
    (engine.apply mutation).1.Lays kind id (r.write mutation) := by
  have hw := (hs.apply mine).2
  unfold Lays at lays ⊢
  rw [hw]
  generalize engine.document kind id = stored at lays
  cases mutation with
  | upsert doc =>
    obtain ⟨kinds, -, visible⟩ := mine
    simp only [scriptOf]
    rcases contentScript_cases doc with ⟨stale, ran⟩ | ⟨hf, after, ran, hw⟩
    · rw [ran, lays.contentStale stale]
      exact lays
    · rw [ran]
      exact lays.contentWritten kinds visible hf hw
  | setSearchable authority kind' _ searchable version =>
    obtain ⟨rfl, -, positive⟩ := mine
    simp only [scriptOf]
    rcases visibilityScript_cases with
      ⟨stale, ran⟩ | ⟨hf, after, ran, hw⟩
    · rw [ran, ((lays.flag authority).stale positive).1 stale]
      exact lays
    · rw [ran]
      exact lays.flagWritten positive hf hw
  | delete | purgeByAuthor | skip => exact mine.elim

theorem Lays.applyAll (mine : ∀ m ∈ mutations, m.Writes kind id) (hs : engine.Serves kind name)
    (lays : engine.Lays kind id r) : (engine.applyAll mutations).Lays kind id (mutations.foldl Registers.write r) := by
  induction mutations generalizing engine r with
  | nil => exact lays
  | cons _ _ ih =>
    obtain ⟨first, others⟩ := List.forall_mem_cons.mp mine
    exact ih others (hs.apply first).1 (lays.apply hs first)

end OpenSearch

/-- What an authority's newest flip says; an authority that never spoke permits. -/
def permits (mutations : List IndexMutation) (authority : VisibilityAuthority) : Bool :=
  ((flips authority mutations).argmax Stamped.version).elim true Stamped.value

theorem mem_upserts_congr (eq : ∀ m, m ∈ applied ↔ m ∈ mutations) (hw : Stamped IndexDocument) :
    hw ∈ upserts applied ↔ hw ∈ upserts mutations := by
  simp only [upserts, List.mem_filterMap, eq]

theorem mem_flips_congr (eq : ∀ m, m ∈ applied ↔ m ∈ mutations) (hw : Stamped Bool) :
    hw ∈ flips authority applied ↔ hw ∈ flips authority mutations := by
  simp only [flips, List.mem_filterMap, eq]

theorem flips_positive {id : String} (mine : ∀ m ∈ mutations, m.Writes kind id) :
    ∀ write ∈ flips authority mutations, 0 < write.version := by
  intro write mem
  obtain ⟨mutation, hi, eq⟩ := List.mem_filterMap.mp mem
  have writes := mine mutation hi
  cases mutation with
  | setSearchable =>
    simp only at eq
    split at eq
    · cases eq
      exact writes.2.2
    · cases eq
  | upsert | delete | purgeByAuthor | skip => cases eq

/-- The writes of a document, in any order and each any number of times, leave the content of the
newest upsert and each authority's newest flag; the results list it exactly if both authorities
permit it. -/
theorem document_order_independent (engine : OpenSearch) (kind : EntityKind) (id name : String)
    (serves : engine.Serves kind name) (absent : engine.document kind id = none)
    (mutations applied : List IndexMutation) (same : ∀ m, m ∈ applied ↔ m ∈ mutations)
    (mine : ∀ m ∈ mutations, m.Writes kind id) (content : upserts mutations ≠ [])
    (distinctContent : Stamped.Distinct (upserts mutations))
    (distinctFlips : ∀ authority, Stamped.Distinct (flips authority mutations)) :
    ∃ newest source, (upserts mutations).argmax Stamped.version = some newest ∧
      (engine.applyAll applied).document kind id = some source ∧
      source "content_version" = some (.number newest.version) ∧
      (∀ key ∉ guardFields, source key = contentOf newest.value key) ∧
      (∀ authority : VisibilityAuthority, source authority.flagField = some (.flag (permits mutations authority))) ∧
      (source.admitted = true ↔ ∀ authority, permits mutations authority = true) := by
  have lays : (engine.applyAll applied).Lays kind id (applied.foldl Registers.write .start) := by
    apply OpenSearch.Lays.applyAll (fun m inside => mine m ((same m).mp inside)) serves
    unfold OpenSearch.Lays
    rw [absent]
    exact Source.shows_start
  cases chosen : (upserts mutations).argmax Stamped.version with
  | none => exact absurd (List.argmax_eq_none.mp chosen) content
  | some newest =>
    have held : (applied.foldl Registers.write .start).content = some newest := by
      rw [foldl_write_content, Stamped.foldl_offer_eq_argmax distinctContent (mem_upserts_congr same), chosen]
      · rfl
      · intro stored none_
        cases none_
    have flag : ∀ authority, ∃ stamp, (applied.foldl Registers.write .start).flag authority = some stamp ∧
        stamp.value = permits mutations authority := by
      intro authority
      rw [foldl_write_flag, Stamped.foldl_offer_eq_argmax (distinctFlips authority) (mem_flips_congr same)]
      · unfold permits
        cases (flips authority mutations).argmax Stamped.version with
        | none => exact ⟨_, rfl, rfl⟩
        | some stamp => exact ⟨stamp, rfl, rfl⟩
      · intro seed seeded
        cases seeded
        exact flips_positive mine
    cases stored : (engine.applyAll applied).document kind id with
    | none =>
      have version := lays.version
      rw [stored, held] at version
      cases version
    | some source =>
      unfold OpenSearch.Lays at lays
      rw [stored, Option.getD_some] at lays
      have flags : ∀ authority : VisibilityAuthority,
          source authority.flagField = some (.flag (permits mutations authority)) := by
        intro authority
        obtain ⟨_, kept, value⟩ := flag authority
        rcases lays.flag authority with ⟨shown, same, field, -⟩ | ⟨-, -, -, none_⟩
        · rw [kept] at same
          cases same
          rw [field, value]
        · rw [held] at none_
          cases none_
      refine ⟨newest, source, rfl, rfl, ?_, (lays.content newest held).2, flags, ?_⟩
      · rw [lays.version, held]
        rfl
      have moderation := flags .moderation
      have owner := flags .owner
      simp only [VisibilityAuthority.flagField] at moderation owner
      unfold Source.admitted
      rw [moderation, owner]
      constructor
      · intro admitted authority
        cases authority <;> simp_all
      · intro both
        simp [both]

namespace Sample

def engine : OpenSearch where
  indexPrefix := "search"
  indices name := if name = "search-posts-v1" then some fun _ => none else none
  readAlias _ := some "search-posts-v1"
  writeAlias _ := some "search-posts-v1"

def author : AuthorId := ⟨"author-1", by decide⟩

def post (caption : String) (version : DocVersion) : IndexDocument :=
  .post ⟨"post-1", author, "", caption, [], "", .visible, 0, 0, 0, version⟩

def hide (version : DocVersion) : IndexMutation := .setSearchable .moderation .post "post-1" .hidden version

/-- An edit that comes in before the text it edits, and a takedown before both. -/
theorem edited_order_independent :
    ∃ source, (engine.applyAll [hide 5, .upsert (post "new" 9), .upsert (post "old" 4), .upsert (post "new" 9),
        hide 5]).document .post "post-1" = some source ∧
      source "caption" = some (.text "new") ∧ source.admitted = false := by
  obtain ⟨newest, source, chosen, stored, -, content, -, admitted⟩ :=
    document_order_independent engine .post "post-1" "search-posts-v1" ⟨rfl, rfl, rfl⟩ rfl
      [.upsert (post "old" 4), .upsert (post "new" 9), hide 5] [hide 5, .upsert (post "new" 9), .upsert (post "old" 4),
        .upsert (post "new" 9), hide 5]
      (by intro m; simp only [List.mem_cons, List.not_mem_nil, or_false]; tauto)
      (by simp [hide, post, IndexMutation.Writes, IndexDocument.kind, IndexDocument.id, IndexDocument.searchable])
      (by decide) (by unfold Stamped.Distinct; decide)
      (by intro authority; unfold Stamped.Distinct; cases authority <;> decide)
  have edited : newest = ⟨9, post "new" 9⟩ := by
    have same : some newest = some ⟨9, post "new" 9⟩ := chosen.symm.trans (by decide)
    exact Option.some.inj same
  subst edited
  refine ⟨source, stored, content "caption" (by decide), ?_⟩
  rw [Bool.eq_false_iff]
  intro listed
  exact absurd (admitted.mp listed .moderation) (by decide)

end Sample
end CorePlatform.Search
