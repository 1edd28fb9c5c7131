/- The canonical form of manifests: a valid manifest is read back in canonical order, its identity
forgets the order it was built in, and its canonical text determines its canonical content. -/
import BorealWork.ManifestRoundTrip

namespace Boreal.Memory
open Drain Sorting

def ManifestEntry.canonical (entry : ManifestEntry) : ManifestEntry :=
  { entry with sourceCitations := sortedTexts entry.sourceCitations }

def canonicalEntries (entries : List ManifestEntry) : List ManifestEntry :=
  (sortedEntries entries).map ManifestEntry.canonical

/-- What the identity is taken over. -/
structure CanonicalContent where
  projectId : String
  operationId : String
  entries : List ManifestEntry
  deriving DecidableEq

def PublicationManifest.content (manifest : PublicationManifest) : CanonicalContent :=
  ⟨manifest.projectId, manifest.operationId, canonicalEntries manifest.entries⟩

def PublicationManifest.stored (manifest : PublicationManifest) : PublicationManifest :=
  ⟨manifest.projectId, manifest.operationId, manifest.identity, canonicalEntries manifest.entries⟩

def entryMembers (entry : ManifestEntry) : List (String × JsonValue) :=
  [("memory_entry_id", .string entry.memoryEntryId), ("project_id", .string entry.projectId),
    ("state", .string entry.state.asStr),
    ("content_digest", .string entry.contentDigest),
    ("source_citations", .array (entry.sourceCitations.map .string)),
    ("manifest_path", .string entry.manifestPath),
    ("operation_id", .string entry.operationId),
    ("provenance_preserved", .bool entry.provenancePreserved)]

def CanonicalContent.members (content : CanonicalContent) : List (String × JsonValue) :=
  [("schema_version", .string manifestSchemaVersion), ("project_id", .string content.projectId),
    ("operation_id", .string content.operationId),
    ("entries", .array (content.entries.map fun entry => .object (entryMembers entry)))]

theorem compactMembers_singleton (key : String) (value : JsonValue) :
    compactMembers [(key, value)] = jsonString key ++ ':' :: value.compact := rfl

theorem compactItems_strings (texts : List String) :
    compactItems (texts.map .string) = [','].intercalate (texts.map jsonString) := by
  rw [compactItems_eq_intercalate, List.map_map]
  rfl

theorem project_text : ",\"project_id\":".toList = ',' :: (jsonString "project_id" ++ [':']) := by
  rfl

theorem operation_text : ",\"operation_id\":".toList = ',' :: (jsonString "operation_id" ++ [':']) := by
  rfl

theorem renderEntry_eq (entry : ManifestEntry) :
    renderEntry entry = (JsonValue.object (entryMembers entry.canonical)).compact := by
  have opening : "\x7b\"memory_entry_id\":".toList = '\x7b' :: (jsonString "memory_entry_id" ++ [':']) := by
    rfl
  have state : ",\"state\":".toList = ',' :: (jsonString "state" ++ [':']) := by
    rfl
  have content : ",\"content_digest\":".toList = ',' :: (jsonString "content_digest" ++ [':']) := by
    rfl
  have citations : ",\"source_citations\":[".toList =
      ',' :: (jsonString "source_citations" ++ [':', '[']) := by
    rfl
  have path : "],\"manifest_path\":".toList = ']' :: ',' :: (jsonString "manifest_path" ++ [':']) := by
    rfl
  have provenance : ",\"provenance_preserved\":".toList =
      ',' :: (jsonString "provenance_preserved" ++ [':']) := by
    rfl
  delta renderEntry
  simp only [entryMembers, opening, project_text, state, content, citations, path, operation_text,
    provenance, compactMembers_cons_cons, compactMembers_singleton, JsonValue.compact,
    compactItems_strings, ManifestEntry.canonical, List.append_assoc, List.cons_append,
    List.nil_append]

theorem compactItems_entries (entries : List ManifestEntry) :
    compactItems ((entries.map ManifestEntry.canonical).map fun entry => .object (entryMembers entry)) =
      [','].intercalate (entries.map renderEntry) := by
  rw [compactItems_eq_intercalate, List.map_map, List.map_map]
  refine congrArg [','].intercalate (List.map_congr_left ?_)
  intro entry _
  exact (renderEntry_eq entry).symm

theorem canonicalManifestWithoutIdentity_eq (manifest : PublicationManifest) :
    canonicalManifestWithoutIdentity manifest = '\x7b' :: compactMembers manifest.content.members := by
  have opening : "\x7b\"schema_version\":".toList = '\x7b' :: (jsonString "schema_version" ++ [':']) := by
    rfl
  have entries : ",\"entries\":[".toList = ',' :: (jsonString "entries" ++ [':', '[']) := by
    rfl
  delta canonicalManifestWithoutIdentity
  simp only [CanonicalContent.members, opening, project_text, operation_text, entries, compactMembers_cons_cons, compactMembers_singleton, JsonValue.compact,
    PublicationManifest.content, canonicalEntries, compactItems_entries, List.append_assoc,
    List.cons_append, List.nil_append]

theorem renderManifest_eq (manifest : PublicationManifest) :
    renderManifest manifest = (JsonValue.object
      (manifest.content.members ++ [("manifest_identity", .string manifest.identity)])).compact := by
  have identity : ",\"manifest_identity\":".toList = ',' :: (jsonString "manifest_identity" ++ [':']) := by
    rfl
  delta renderManifest
  simp only [canonicalManifestWithoutIdentity_eq, CanonicalContent.members, identity, compactMembers_cons_cons, compactMembers_singleton, JsonValue.compact,
    List.append_assoc, List.cons_append, List.nil_append]

structure PublicationManifest.Valid (manifest : PublicationManifest) : Prop where
  built : withEntries manifest.projectId manifest.operationId manifest.entries =
    .ok { manifest with manifestIdentity := "" }
  entries : ∀ entry ∈ manifest.entries, validateManifestEntry manifest.projectId entry = .ok ()

/-- What the check of an entry asks for, apart from its citations. -/
structure EntryFrame (projectId : String) (entry : ManifestEntry) : Prop where
  memoryEntryId : validateSegment entry.memoryEntryId = .ok ()
  ownProject : validateSegment entry.projectId = .ok ()
  operationId : validateSegment entry.operationId = .ok ()
  projectId : entry.projectId = projectId
  state : entry.state = .published
  provenance : entry.provenancePreserved = true
  path : entry.manifestPath = notePath entry.memoryEntryId
  relative : isAbsolute entry.manifestPath = false
  inside : hasParentComponent entry.manifestPath = false

variable {entry : ManifestEntry} {projectId : String}

theorem validateManifestEntry_eq_ok :
    validateManifestEntry projectId entry = .ok () ↔
      EntryFrame projectId entry ∧ entry.sourceCitations ≠ [] ∧ "" ∉ entry.sourceCitations := by
  simp only [validateManifestEntry, check_eq_ok, refuse_eq_ok, not_or, not_not, List.any_eq_true,
    decide_eq_true_eq, exists_eq_right, Bool.not_eq_true, Bool.not_eq_false]
  constructor
  · rintro ⟨segment, own, operation, project, ⟨state, provenance⟩, ⟨path, relative, inside⟩, cited⟩
    exact ⟨⟨segment, own, operation, project, state, provenance, path, relative, inside⟩, cited⟩
  · rintro ⟨frame, cited⟩
    exact ⟨frame.memoryEntryId, frame.ownProject, frame.operationId, frame.projectId,
      ⟨frame.state, frame.provenance⟩, ⟨frame.path, frame.relative, frame.inside⟩, cited⟩

theorem validateManifestEntry_canonical :
    validateManifestEntry projectId entry.canonical = .ok () ↔
      validateManifestEntry projectId entry = .ok () := by
  rw [validateManifestEntry_eq_ok, validateManifestEntry_eq_ok]
  apply and_congr
  · constructor
    · rintro ⟨a, b, c, d, e, f, g, h, i⟩
      exact ⟨a, b, c, d, e, f, g, h, i⟩
    · rintro ⟨a, b, c, d, e, f, g, h, i⟩
      exact ⟨a, b, c, d, e, f, g, h, i⟩
  · rw [ManifestEntry.canonical, sortedTexts, ne_eq, sortDedup_eq_nil, mem_sortDedup]

theorem checkEntries_eq_ok {ids : List String} {entries : List ManifestEntry} :
    checkEntries projectId ids entries = .ok () ↔
      (∀ entry ∈ entries, entry.projectId = projectId ∧ entry.state = .published ∧
        entry.memoryEntryId ∉ ids) ∧ (entries.map (·.memoryEntryId)).Nodup := by
  induction entries generalizing ids with
  | nil => simp [checkEntries]
  | cons entry rest ih =>
    simp only [checkEntries, check_eq_ok, refuse_eq_ok, not_or, not_not, ih, List.forall_mem_cons,
      List.map_cons, List.nodup_cons, List.mem_append, List.mem_singleton, List.mem_map, not_exists]
    constructor
    · rintro ⟨⟨project, state⟩, fresh, others, distinct⟩
      refine ⟨⟨⟨project, state, fresh⟩, fun other member => ?_⟩, fun other twin => ?_, distinct⟩
      · obtain ⟨project', state', fresh', _⟩ := others other member
        exact ⟨project', state', fresh'⟩
      · exact (others other twin.1).2.2.2 twin.2
    · rintro ⟨⟨⟨project, state, fresh⟩, others⟩, apart, distinct⟩
      refine ⟨⟨project, state⟩, fresh, fun other member => ?_, distinct⟩
      obtain ⟨project', state', fresh'⟩ := others other member
      exact ⟨project', state', fresh', fun same => apart other ⟨member, same⟩⟩

theorem withEntries_eq_ok {projectId operationId : String} {entries : List ManifestEntry}
    {manifest : PublicationManifest} :
    PublicationManifest.withEntries projectId operationId entries = .ok manifest ↔
      (validateSegment projectId = .ok () ∧ validateSegment operationId = .ok () ∧ entries ≠ [] ∧
        checkEntries projectId [] entries = .ok ()) ∧
      manifest = ⟨projectId, operationId, "", entries⟩ := by
  simp only [PublicationManifest.withEntries, check_eq_ok, refuse_eq_ok, and_assoc]
  refine and_congr_right' (and_congr_right' (and_congr_right' (and_congr_right' ?_)))
  exact ⟨fun same => (Except.ok.inj same).symm, fun same => congrArg Except.ok same.symm⟩

theorem canonicalEntries_perm (entries : List ManifestEntry) :
    (canonicalEntries entries).Perm (entries.map ManifestEntry.canonical) :=
  (sortOn_perm _ entries).map _

theorem PublicationManifest.Valid.stored {manifest : PublicationManifest} (valid : manifest.Valid) :
    withEntries manifest.projectId manifest.operationId (canonicalEntries manifest.entries) =
        .ok { manifest.stored with manifestIdentity := "" } ∧
      ∀ entry ∈ canonicalEntries manifest.entries,
        validateManifestEntry manifest.projectId entry = .ok () := by
  obtain ⟨⟨project, operation, entered, checked⟩, _⟩ := withEntries_eq_ok.mp valid.built
  obtain ⟨framed, distinct⟩ := checkEntries_eq_ok.mp checked
  have perm := canonicalEntries_perm manifest.entries
  have source : ∀ entry ∈ canonicalEntries manifest.entries,
      ∃ original ∈ manifest.entries, original.canonical = entry := by
    intro entry member
    exact List.mem_map.mp (perm.mem_iff.mp member)
  constructor
  · refine withEntries_eq_ok.mpr ⟨⟨project, operation, ?_, checkEntries_eq_ok.mpr ⟨?_, ?_⟩⟩, rfl⟩
    · intro empty
      rw [empty] at perm
      exact entered (List.map_eq_nil_iff.mp (List.nil_perm.mp perm))
    · intro entry member
      obtain ⟨original, inside, rfl⟩ := source entry member
      exact framed original inside
    · have ids := perm.map (·.memoryEntryId)
      rw [List.map_map] at ids
      exact ids.nodup_iff.mpr distinct
  · intro entry member
    obtain ⟨original, inside, rfl⟩ := source entry member
    exact validateManifestEntry_canonical.mpr (valid.entries original inside)

theorem mem_replaceEntry {entry other : ManifestEntry} {entries replaced : List ManifestEntry}
    (done : PublicationManifest.replaceEntry entry entries = some replaced) (member : other ∈ replaced) :
    other = entry ∨ other ∈ entries := by
  induction entries generalizing replaced with
  | nil => cases done
  | cons existing rest ih =>
    rw [PublicationManifest.replaceEntry] at done
    split_ifs at done with same
    · cases done
      exact (List.mem_cons.mp member).imp_right (List.mem_cons_of_mem _)
    · obtain ⟨later, inner, rfl⟩ := Option.map_eq_some_iff.mp done
      rcases List.mem_cons.mp member with rfl | behind
      · exact .inr List.mem_cons_self
      · exact (ih inner behind).imp_right (List.mem_cons_of_mem _)

theorem mergeEntry_valid {manifest merged : PublicationManifest} {operationId : String}
    (valid : manifest.Valid)
    (done : manifest.mergeEntry operationId entry = .ok merged) : merged.Valid := by
  simp only [PublicationManifest.mergeEntry, check_eq_ok] at done
  obtain ⟨_, checked, built⟩ := done
  obtain ⟨accepted, rfl⟩ := withEntries_eq_ok.mp built
  refine ⟨withEntries_eq_ok.mpr ⟨accepted, rfl⟩, ?_⟩
  intro other member
  have source : other = entry ∨ other ∈ manifest.entries := by
    change other ∈ (PublicationManifest.replaceEntry entry manifest.entries).getD _ at member
    cases replaced : PublicationManifest.replaceEntry entry manifest.entries with
    | none =>
      rw [replaced] at member
      exact (List.mem_append.mp member).symm.imp_left List.mem_singleton.mp
    | some entries =>
      rw [replaced] at member
      exact mem_replaceEntry replaced member
  rcases source with rfl | old
  · exact checked
  · exact valid.entries other old

theorem canonical_idem (entry : ManifestEntry) : entry.canonical.canonical = entry.canonical := by
  rw [ManifestEntry.canonical, ManifestEntry.canonical, sortedTexts, sortedTexts, sortDedup_idem]

theorem canonicalEntries_idem (entries : List ManifestEntry) :
    canonicalEntries (canonicalEntries entries) = canonicalEntries entries := by
  have sorted : sortedEntries (canonicalEntries entries) = canonicalEntries entries := by
    rw [canonicalEntries, sortedEntries, sortOn_map]
    exact congrArg (List.map _) (sortOn_of_sorted (sortOn_pairwise _ entries))
  rw [canonicalEntries, sorted, canonicalEntries, List.map_map]
  exact List.map_congr_left fun entry _ => canonical_idem entry

@[simp] theorem stored_content (manifest : PublicationManifest) :
    manifest.stored.content = manifest.content := by
  rw [PublicationManifest.content, PublicationManifest.stored, canonicalEntries_idem]
  rfl

variable {manifest manifest' : PublicationManifest}

theorem identity_congr
    (same : manifest.content = manifest'.content) : manifest.identity = manifest'.identity := by
  rw [PublicationManifest.identity, PublicationManifest.identity,
    canonicalManifestWithoutIdentity_eq, canonicalManifestWithoutIdentity_eq, same]

theorem renderManifest_congr (same : manifest.content = manifest'.content) :
    renderManifest manifest = renderManifest manifest' := by
  rw [renderManifest_eq, renderManifest_eq, same, identity_congr same]

theorem parseState_asStr (state : PublicationState) : parseState state.asStr = .ok state := by
  cases state <;> simp [parseState, PublicationState.asStr]

theorem importSegment_eq_ok {value : String} :
    importSegment value = .ok () ↔ validateSegment value = .ok () := mapError_eq_ok

theorem parseManifestEntry_members (valid : validateManifestEntry projectId entry = .ok ()) :
    parseManifestEntry (.object (entryMembers entry)) = .ok entry := by
  obtain ⟨frame, _, named⟩ := validateManifestEntry_eq_ok.mp valid
  have citations : (entry.sourceCitations.map JsonValue.string).mapM parseCitation =
      .ok (entry.sourceCitations.map id) := by
    refine mapM_map_eq_ok fun citation member => ?_
    exact if_neg fun (empty : citation = "") => named (empty ▸ member)
  have segment := importSegment_eq_ok.mpr frame.memoryEntryId
  have operation := importSegment_eq_ok.mpr frame.operationId
  simp [parseManifestEntry, asObject, entryMembers, requiredString, requiredValue, requiredArray,
    requiredBool, ok_bind, parseState_asStr, citations, segment, operation]

theorem readManifest_members {content : CanonicalContent} {identity : String}
    (project : validateSegment content.projectId = .ok ())
    (operation : validateSegment content.operationId = .ok ())
    (entries : ∀ entry ∈ content.entries, validateManifestEntry content.projectId entry = .ok ()) :
    readManifest (.object (content.members ++ [("manifest_identity", .string identity)])) =
      .ok ⟨content.projectId, content.operationId, identity, content.entries⟩ := by
  have read : (content.entries.map fun entry => JsonValue.object (entryMembers entry)).mapM
      parseManifestEntry = .ok (content.entries.map id) :=
    mapM_map_eq_ok fun entry member => parseManifestEntry_members (entries entry member)
  have project := importSegment_eq_ok.mpr project
  have operation := importSegment_eq_ok.mpr operation
  simp [readManifest, asObject, CanonicalContent.members, requiredString, requiredValue,
    requiredArray, ok_bind, read, project, operation, refuse]

theorem parseExistingManifest_renderManifest {manifest : PublicationManifest} (valid : manifest.Valid) :
    parseExistingManifest (renderManifest manifest) = .ok manifest.stored := by
  obtain ⟨⟨project, operation, _, _⟩, _⟩ := withEntries_eq_ok.mp valid.built
  obtain ⟨built, entries⟩ := valid.stored
  have parsed : parseManifest (renderManifest manifest) =
      .ok ⟨manifest.projectId, manifest.operationId, manifest.identity,
        canonicalEntries manifest.entries⟩ := by
    rw [parseManifest, renderManifest_eq, parseJson_compact, ok_bind]
    exact @readManifest_members manifest.content _ project operation entries
  have checked : (canonicalEntries manifest.entries).forM
      (validateManifestEntry manifest.projectId) = .ok () := forM_eq_ok.mpr entries
  have identity : manifest.stored.identity = manifest.identity := identity_congr (stored_content manifest)
  rw [parseExistingManifest, parsed]
  change (((PublicationManifest.withEntries manifest.projectId manifest.operationId
    (canonicalEntries manifest.entries)) >>= _).mapError _ >>= _) = _
  rw [built]
  change ((canonicalEntries manifest.entries).forM
    (validateManifestEntry manifest.projectId)).mapError _ >>= _ = _
  rw [checked]
  change refuse (manifest.stored.identity ≠ manifest.identity) _ >>= _ = _
  rw [refuse_of_not (not_not.mpr identity)]
  rfl

def CitationsPermuted (entry entry' : ManifestEntry) : Prop :=
  ∃ citations, entry.sourceCitations.Perm citations ∧
    entry' = { entry with sourceCitations := citations }

structure Rearranged (manifest manifest' : PublicationManifest) : Prop where
  projectId : manifest'.projectId = manifest.projectId
  operationId : manifest'.operationId = manifest.operationId
  entries : ∃ reordered, manifest.entries.Perm reordered ∧
    List.Forall₂ CitationsPermuted reordered manifest'.entries

theorem CitationsPermuted.canonical {entry entry' : ManifestEntry}
    (permuted : CitationsPermuted entry entry') : entry'.canonical = entry.canonical := by
  obtain ⟨citations, perm, rfl⟩ := permuted
  rw [ManifestEntry.canonical, ManifestEntry.canonical, sortedTexts, sortedTexts,
    sortDedup_congr Function.injective_id perm]

theorem canonicalEntries_congr {entries entries' : List ManifestEntry} (perm : entries.Perm entries')
    (distinct : (entries.map (·.memoryEntryId)).Nodup) :
    canonicalEntries entries = canonicalEntries entries' := by
  rw [canonicalEntries, canonicalEntries, sortedEntries, sortedEntries, sortOn_congr perm]
  intro entry member other member' same
  exact List.inj_on_of_nodup_map distinct member member' same

theorem canonicalEntries_forall₂ {entries entries' : List ManifestEntry}
    (permuted : List.Forall₂ CitationsPermuted entries entries') :
    canonicalEntries entries' = canonicalEntries entries := by
  have sorted (l : List ManifestEntry) :
      canonicalEntries l = sortOn (·.memoryEntryId) (l.map ManifestEntry.canonical) := by
    rw [sortOn_map]
    rfl
  have same : entries'.map ManifestEntry.canonical = entries.map ManifestEntry.canonical := by
    induction permuted with
    | nil => rfl
    | cons first _ ih => rw [List.map_cons, List.map_cons, first.canonical, ih]
  rw [sorted, sorted, same]

theorem Rearranged.content (rearranged : Rearranged manifest manifest')
    (distinct : (manifest.entries.map (·.memoryEntryId)).Nodup) : manifest'.content = manifest.content := by
  obtain ⟨project, operation, reordered, perm, permuted⟩ := rearranged
  rw [PublicationManifest.content, PublicationManifest.content, project, operation,
    canonicalEntries_forall₂ permuted, canonicalEntries_congr perm distinct]

theorem entryMembers_injective : Function.Injective entryMembers := by
  intro entry entry' same
  have states : Function.Injective PublicationState.asStr := by
    intro state state' alike
    have := parseState_asStr state
    rw [alike, parseState_asStr] at this
    exact (Except.ok.inj this).symm
  have strings : Function.Injective JsonValue.string := fun _ _ alike => JsonValue.string.inj alike
  simp only [entryMembers, List.cons.injEq, Prod.mk.injEq, JsonValue.string.injEq,
    JsonValue.array.injEq, JsonValue.bool.injEq, true_and, and_true] at same
  obtain ⟨id, project, state, content, citations, path, operation, provenance⟩ := same
  cases entry
  cases entry'
  congr
  · exact states state
  · exact List.map_injective_iff.mpr strings citations

theorem members_injective : Function.Injective CanonicalContent.members := by
  intro content content' same
  simp only [CanonicalContent.members, List.cons.injEq, Prod.mk.injEq, JsonValue.string.injEq,
    JsonValue.array.injEq, true_and, and_true] at same
  obtain ⟨project, operation, entries⟩ := same
  have objects : Function.Injective fun entry => JsonValue.object (entryMembers entry) :=
    fun _ _ alike => entryMembers_injective (JsonValue.object.inj alike)
  cases content
  cases content'
  congr
  exact List.map_injective_iff.mpr objects entries

theorem canonicalManifestWithoutIdentity_inj :
    canonicalManifestWithoutIdentity manifest = canonicalManifestWithoutIdentity manifest' ↔
      manifest.content = manifest'.content := by
  constructor
  · intro same
    rw [canonicalManifestWithoutIdentity_eq, canonicalManifestWithoutIdentity_eq] at same
    have closed : (JsonValue.object manifest.content.members).compact =
        (JsonValue.object manifest'.content.members).compact := by
      rw [JsonValue.compact, JsonValue.compact, (List.cons.inj same).2]
    exact members_injective (JsonValue.object.inj (compact_injective closed))
  · intro same
    rw [canonicalManifestWithoutIdentity_eq, canonicalManifestWithoutIdentity_eq, same]

/-- Two byte strings with one address. -/
structure Collision (bytes bytes' : List UInt8) : Prop where
  different : bytes ≠ bytes'
  digest : digest bytes = digest bytes'

theorem collision_of_identity (different : manifest.content ≠ manifest'.content)
    (same : manifest.identity = manifest'.identity) :
    Collision (Utf8.encoded (canonicalManifestWithoutIdentity manifest))
      (Utf8.encoded (canonicalManifestWithoutIdentity manifest')) := by
  refine ⟨fun bytes => different ?_, same⟩
  exact canonicalManifestWithoutIdentity_inj.mp (Utf8.encoded_injective bytes)

/-- A valid manifest is read back with its entries and citations in canonical order, under its
identity, and the manifest read back is rendered to the same text. The identity forgets the order of
the entries and of the citations of each; manifests of different content have different canonical
texts, so that only a collision gives them one identity. -/
theorem manifests_canonical {manifest : PublicationManifest} (valid : manifest.Valid) :
    (parseExistingManifest (renderManifest manifest) = .ok manifest.stored ∧
      manifest.stored.entries.Perm (manifest.entries.map ManifestEntry.canonical) ∧
      renderManifest manifest.stored = renderManifest manifest) ∧
    (∀ manifest', Rearranged manifest manifest' → manifest'.identity = manifest.identity) ∧
    ∀ manifest', manifest.content ≠ manifest'.content →
      canonicalManifestWithoutIdentity manifest ≠ canonicalManifestWithoutIdentity manifest' ∧
      (manifest.identity = manifest'.identity →
        Collision (Utf8.encoded (canonicalManifestWithoutIdentity manifest))
          (Utf8.encoded (canonicalManifestWithoutIdentity manifest'))) := by
  obtain ⟨⟨_, _, _, checked⟩, _⟩ := withEntries_eq_ok.mp valid.built
  refine ⟨⟨parseExistingManifest_renderManifest valid, canonicalEntries_perm manifest.entries,
    renderManifest_congr (stored_content manifest)⟩, ?_, ?_⟩
  · intro manifest' rearranged
    exact identity_congr (rearranged.content (checkEntries_eq_ok.mp checked).2)
  · intro manifest' different
    exact ⟨fun same => different (canonicalManifestWithoutIdentity_inj.mp same),
      collision_of_identity different⟩

/-- A manifest of one note with a repeated citation, one of them with a line break in it. -/
def citedManifest : PublicationManifest where
  projectId := "project"
  operationId := "operation"
  manifestIdentity := ""
  entries := [⟨"note", "project", .published, "digest", ["web\n\"7\"", "atlas", "atlas"], "notes/note.md",
    "operation", true⟩]

theorem citedManifest_canonical :
    citedManifest.Valid ∧
      parseExistingManifest (renderManifest citedManifest) = .ok citedManifest.stored := by
  have valid : citedManifest.Valid := ⟨by decide +kernel, by decide +kernel⟩
  exact ⟨valid, (manifests_canonical valid).1.1⟩

end Boreal.Memory
