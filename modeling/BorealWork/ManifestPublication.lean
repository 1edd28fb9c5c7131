/- The manifest file over runs of publications: it stays readable, and what is read back of a note is the
entry that was published last. -/
import BorealWork.Library.Machines
import BorealWork.ManifestIdentity
import BorealWork.NoteRoundTrip

namespace Boreal.Memory
open Drain Machines Sorting

def manifestEntriesEquivalent (left right : ManifestEntry) : Bool := left.canonical = right.canonical

/-- A call of the publisher. What is committed, staged and written beside the manifest decides whether it
gets to its files. -/
structure Publication where
  draft : Draft
  operationId : String
  expected : Option String
  reachesFiles : Bool
  deriving DecidableEq

def readWorktreeManifest : Option (List Char) → Except PublishError (Option PublicationManifest)
  | none => .ok none
  | some text => (parseExistingManifest text).map some

def checkBase (expected : Option String) (current : Option PublicationManifest) : Except PublishError Unit :=
  match expected with
  | none => .ok ()
  | some expected =>
    let actual := (current.map PublicationManifest.identity).getD ""
    let named (identity : String) : String := if identity = "" then "<empty>" else identity
    refuse (actual ≠ expected)
      (.conflict s!"publication base changed: expected {named expected}, found {named actual}")

def publishOver (projectId operationId : String) (entry : ManifestEntry) :
    Option PublicationManifest → Except PublishError PublicationManifest
  | none => (PublicationManifest.new projectId operationId entry).mapError .invalidInput
  | some current =>
    match current.entries.find? (·.memoryEntryId = entry.memoryEntryId) with
    | none => (current.mergeEntry operationId entry).mapError .invalidInput
    | some existing =>
      if existing.operationId = entry.operationId then
        if manifestEntriesEquivalent existing entry then .ok current
        else .error (.conflict "publication operation was already used for different entry content")
      else (current.mergeEntry operationId entry).mapError .invalidInput

def publishWithExpectedBase (publication : Publication) (file : Option (List Char)) :
    Except PublishError (List Char) := do
  refuse (publication.draft.state ≠ .accepted) .draftNotAccepted
  (validateSegment publication.operationId).mapError .invalidInput
  let markdown ← (renderPublishedMarkdown publication.draft).mapError .invalidInput
  let entry := publishedEntry publication.draft publication.operationId markdown
  let current ← readWorktreeManifest file
  checkBase publication.expected current
  let manifest ← publishOver publication.draft.projectId publication.operationId entry current
  return renderManifest manifest

/-- The answer is whether the files were written. -/
def publish (file : Option (List Char)) (publication : Publication) : Bool × Option (List Char) :=
  match publishWithExpectedBase publication file with
  | .ok text => if publication.reachesFiles then (true, some text) else (false, file)
  | .error _ => (false, file)

def Publication.entry (publication : Publication) : ManifestEntry :=
  publishedEntry publication.draft publication.operationId (publishedText publication.draft)

def lastPublished (history : List (Entry (Option (List Char)) Publication Bool)) (entryId : String) :
    Option ManifestEntry :=
  ((history.filter fun moment => moment.answer && moment.call.draft.entryId = entryId).getLast?).map
    (·.call.entry)

def lookupEntry (entryId : String) (entries : List ManifestEntry) : Option ManifestEntry :=
  entries.find? (·.memoryEntryId = entryId)

/-- What a reader of the manifest file finds. -/
inductive Reads (found : String → Option ManifestEntry) : Option (List Char) → Prop
  | missing (nothing : ∀ entryId, found entryId = none) : Reads found none
  | present {text : List Char} {manifest : PublicationManifest} (valid : manifest.Valid)
      (parsed : parseExistingManifest text = .ok manifest) (shown : renderManifest manifest = text)
      (entries : ∀ entryId, lookupEntry entryId manifest.entries = found entryId) : Reads found (some text)

variable {publication : Publication} {file : Option (List Char)} {entry : ManifestEntry}
  {moments : List (Entry (Option (List Char)) Publication Bool)}

theorem Publication.entry_canonical (publication : Publication) :
    publication.entry.canonical = publication.entry := by
  have sorted : sortedTexts (sortedTexts (publication.draft.citations.map (·.sourceVersionId))) =
      sortedTexts (publication.draft.citations.map (·.sourceVersionId)) := sortDedup_idem _ _
  exact congrArg (fun citations => { publication.entry with sourceCitations := citations }) sorted

theorem lastPublished_canonical (entryId : String) :
    (lastPublished moments entryId).map ManifestEntry.canonical = lastPublished moments entryId := by
  rw [lastPublished, Option.map_map]
  exact congrArg (Option.map · _) (funext fun moment => moment.call.entry_canonical)

theorem lastPublished_concat (moment : Entry (Option (List Char)) Publication Bool) (entryId : String) :
    lastPublished (moments ++ [moment]) entryId =
      if moment.answer = true ∧ moment.call.draft.entryId = entryId then some moment.call.entry
      else lastPublished moments entryId := by
  unfold lastPublished
  split_ifs with written <;> simp [List.filter_append, written]

theorem publishedEntry_valid (accepted : publication.draft.Accepted)
    (operation : validateSegment publication.operationId = .ok ()) :
    validateManifestEntry publication.draft.projectId publication.entry = .ok () := by
  have path : publication.entry.manifestPath.toList =
      "notes".toList ++ '/' :: (publication.draft.entryId.toList ++ ".md".toList) := by
    simp [Publication.entry, publishedEntry, manifestEntry, notePath, String.toList_append]
  have named : '/' ∉ publication.draft.entryId.toList ++ ".md".toList := by
    rw [List.mem_append, not_or]
    refine ⟨fun slash => ?_, by decide⟩
    exact absurd ((validateSegment_eq_ok.mp accepted.entry).2.2.2.2 _ slash) (by decide)
  have cited (source : String) : source ∈ publication.entry.sourceCitations ↔
      ∃ citation ∈ publication.draft.citations, citation.sourceVersionId = source :=
    mem_sortDedup.trans List.mem_map
  refine validateManifestEntry_eq_ok.mpr ⟨⟨accepted.entry, accepted.project, operation, rfl, rfl, rfl, rfl, ?_, ?_⟩,
    ?_, ?_⟩
  · rw [isAbsolute, path]
    rfl
  · rw [hasParentComponent, path, List.splitOn_append_cons_self_of_not_mem (by decide),
      List.splitOn_eq_singleton named]
    refine decide_eq_false fun dots => ?_
    rcases List.mem_pair.mp dots with first | second
    · exact absurd first (by decide)
    · have sizes := congrArg List.length second
      rw [List.length_append] at sizes
      change 2 = _ + 3 at sizes
      omega
  · intro none
    obtain ⟨citation, member⟩ := List.exists_mem_of_ne_nil _ accepted.cited
    have found := (cited citation.sourceVersionId).mpr ⟨citation, member, rfl⟩
    rw [none] at found
    cases found
  · intro unnamed
    obtain ⟨citation, member, blank⟩ := (cited "").mp unnamed
    exact (accepted.named citation member).1 blank

theorem lookupEntry_canonicalEntries {entries : List ManifestEntry}
    (distinct : (entries.map (·.memoryEntryId)).Nodup) (entryId : String) :
    lookupEntry entryId (canonicalEntries entries) = (lookupEntry entryId entries).map ManifestEntry.canonical := by
  have perm := sortOn_perm (·.memoryEntryId) entries
  rw [lookupEntry, canonicalEntries, List.find?_map]
  refine congrArg (Option.map _) (Option.ext fun found => ?_)
  have sorted := (perm.map (·.memoryEntryId)).nodup_iff.mpr distinct
  exact (Lookup.find?_eq_some_iff sorted).trans
    ((and_congr_left' perm.mem_iff).trans (Lookup.find?_eq_some_iff distinct).symm)

theorem lookupEntry_replaceEntry (entries : List ManifestEntry) (entryId : String) :
    lookupEntry entryId ((PublicationManifest.replaceEntry entry entries).getD (entries ++ [entry])) =
      if entry.memoryEntryId = entryId then some entry else lookupEntry entryId entries := by
  induction entries with
  | nil => simp [PublicationManifest.replaceEntry, lookupEntry, List.find?_singleton]
  | cons existing rest ih =>
    rw [PublicationManifest.replaceEntry]
    by_cases same : existing.memoryEntryId = entry.memoryEntryId
    · rw [if_pos same, Option.getD_some, lookupEntry, lookupEntry, List.find?_cons, List.find?_cons, same]
      by_cases own : entry.memoryEntryId = entryId <;> simp [own]
    · have behind : ((PublicationManifest.replaceEntry entry rest).map (existing :: ·)).getD
          (existing :: rest ++ [entry]) =
          existing :: (PublicationManifest.replaceEntry entry rest).getD (rest ++ [entry]) := by
        cases PublicationManifest.replaceEntry entry rest <;> rfl
      rw [if_neg same, behind, lookupEntry, List.find?_cons, ← lookupEntry, ih, lookupEntry, lookupEntry, List.find?_cons]
      by_cases first : existing.memoryEntryId = entryId
      · have other : entry.memoryEntryId ≠ entryId := fun own => same (first.trans own.symm)
        simp [first, other]
      · simp [first]

theorem PublicationManifest.Valid.nodup {manifest : PublicationManifest} (valid : manifest.Valid) :
    (manifest.entries.map (·.memoryEntryId)).Nodup :=
  (checkEntries_eq_ok.mp (withEntries_eq_ok.mp valid.built).1.2.2.2).2

theorem Reads.written {manifest : PublicationManifest} (valid : manifest.Valid)
    {found : String → Option ManifestEntry}
    (entries : ∀ entryId, (lookupEntry entryId manifest.entries).map ManifestEntry.canonical = found entryId) :
    Reads found (some (renderManifest manifest)) := by
  refine .present ⟨valid.stored.1, valid.stored.2⟩ (parseExistingManifest_renderManifest valid)
    (renderManifest_congr (stored_content manifest)) fun entryId => ?_
  exact (lookupEntry_canonicalEntries valid.nodup entryId).trans (entries entryId)

theorem Reads.merged {current manifest : PublicationManifest} (valid : current.Valid)
    {found : String → Option ManifestEntry}
    (entries : ∀ entryId, lookupEntry entryId current.entries = found entryId)
    (canonical : ∀ entryId, (found entryId).map ManifestEntry.canonical = found entryId)
    (merged : current.mergeEntry publication.operationId publication.entry = .ok manifest) :
    Reads (Function.update found publication.entry.memoryEntryId (some publication.entry))
      (some (renderManifest manifest)) := by
  refine Reads.written (mergeEntry_valid valid merged) fun entryId => ?_
  simp only [PublicationManifest.mergeEntry, check_eq_ok] at merged
  obtain ⟨-, rfl⟩ := withEntries_eq_ok.mp merged.2.2
  dsimp only
  rw [lookupEntry_replaceEntry, entries, Function.update_apply]
  by_cases own : publication.entry.memoryEntryId = entryId
  · rw [if_pos own, if_pos own.symm, Option.map_some, publication.entry_canonical]
  · rw [if_neg own, if_neg (Ne.symm own), canonical]

theorem Reads.overwritten {found : String → Option ManifestEntry} (reads : Reads found file)
    (accepted : publication.draft.Accepted)
    (canonical : ∀ entryId, (found entryId).map ManifestEntry.canonical = found entryId) {text : List Char}
    (done : publishWithExpectedBase publication file = .ok text) :
    Reads (Function.update found publication.entry.memoryEntryId (some publication.entry)) (some text) := by
  obtain ⟨_, _, done⟩ := bind_eq_ok.mp done
  obtain ⟨_, operation, done⟩ := bind_eq_ok.mp done
  obtain ⟨markdown, rendered, done⟩ := bind_eq_ok.mp done
  obtain ⟨current, read, done⟩ := bind_eq_ok.mp done
  obtain ⟨_, _, done⟩ := bind_eq_ok.mp done
  obtain ⟨manifest, chosen, done⟩ := bind_eq_ok.mp done
  obtain rfl := Except.ok.inj done
  rw [accepted.rendered] at rendered
  obtain rfl := Except.ok.inj rendered
  change publishOver _ _ publication.entry current = _ at chosen
  cases reads with
  | missing nothing =>
    cases read
    rw [publishOver, mapError_eq_ok] at chosen
    simp only [PublicationManifest.new, check_eq_ok] at chosen
    obtain ⟨built, rfl⟩ := withEntries_eq_ok.mp chosen.2.2.2
    refine Reads.written ⟨withEntries_eq_ok.mpr ⟨built, rfl⟩, ?_⟩ fun entryId => ?_
    · intro entry member
      rw [List.mem_singleton.mp member]
      exact publishedEntry_valid accepted (mapError_eq_ok.mp operation)
    · rw [lookupEntry, List.find?_singleton, Function.update_apply, nothing]
      by_cases own : publication.entry.memoryEntryId = entryId
      · simp [own, publication.entry_canonical]
      · simp [own, Ne.symm own]
  | @present written current' valid parsed shown entries =>
    rw [readWorktreeManifest, parsed] at read
    cases read
    have merges (merged : (current'.mergeEntry publication.operationId publication.entry).mapError
        PublishError.invalidInput = .ok manifest) := Reads.merged valid entries canonical (mapError_eq_ok.mp merged)
    unfold publishOver at chosen
    dsimp only at chosen
    split at chosen
    · exact merges chosen
    · rename_i existing stored
      split_ifs at chosen with repeated alike
      · cases chosen
        have listed : found publication.entry.memoryEntryId = some existing := (entries _).symm.trans stored
        have same := canonical publication.entry.memoryEntryId
        rw [listed, Option.map_some, Option.some.injEq] at same
        have here : existing = publication.entry :=
          same.symm.trans ((of_decide_eq_true alike).trans publication.entry_canonical)
        have kept : Function.update found publication.entry.memoryEntryId (some publication.entry) = found := by
          rw [Function.update_eq_self_iff, listed, here]
        rw [kept, shown]
        exact .present valid parsed shown entries
      · exact merges chosen

theorem publish_cases (file : Option (List Char)) (publication : Publication) :
    publish file publication = (false, file) ∨ ∃ text, publishWithExpectedBase publication file = .ok text ∧
      publish file publication = (true, some text) := by
  unfold publish
  cases publishWithExpectedBase publication file with
  | error error => exact .inl rfl
  | ok text =>
    cases publication.reachesFiles with
    | false => exact .inl rfl
    | true => exact .inr ⟨text, rfl, rfl⟩

/-- Whatever is published, retried and refused, the manifest file is one that its own reader accepts and
writes back, and under every note it has the entry that was published last. -/
theorem publications_kept (publications : List Publication)
    (accepted : ∀ publication ∈ publications, publication.draft.Accepted) :
    Reads (lastPublished (history publish none publications)) (final publish none publications) := by
  refine history_ledger (P := fun moments file => Reads (lastPublished moments) file) (s := none)
    (.missing fun _ => rfl) publications ?_
  intro moments file publication member reads
  rcases publish_cases file publication with idle | ⟨text, done, written⟩
  · have same : lastPublished (moments ++ [entry publish file publication]) = lastPublished moments := by
      funext entryId
      rw [lastPublished_concat, entry, idle, if_neg (by simp)]
    rw [same, idle]
    exact reads
  · have last : lastPublished (moments ++ [entry publish file publication]) =
        Function.update (lastPublished moments) publication.entry.memoryEntryId (some publication.entry) := by
      funext entryId
      rw [lastPublished_concat, entry, written, Function.update_apply]
      exact if_congr ((and_iff_right rfl).trans eq_comm) rfl rfl
    rw [last, written]
    exact reads.overwritten (accepted publication member) lastPublished_canonical done

def notePublication (location operationId : String) : Publication :=
  ⟨(citingDraft location).review true, operationId, none, true⟩

theorem notePublication_accepted {location operationId : String} (some_ : location ≠ "") :
    (notePublication location operationId).draft.Accepted := by
  obtain ⟨project, entry, cited, named⟩ := Draft.new_eq_ok (citingDraft_new location some_)
  exact ⟨project, entry, cited, named⟩

def noteRevision : List Publication := [notePublication "page 3" "first", notePublication "page 4" "second"]

theorem publications_kept_noteRevision :
    Reads (lastPublished (history publish none noteRevision)) (final publish none noteRevision) :=
  publications_kept noteRevision (by
    intro publication member
    rcases List.mem_pair.mp member with rfl | rfl
    · exact notePublication_accepted (by decide)
    · exact notePublication_accepted (by decide))

end Boreal.Memory
