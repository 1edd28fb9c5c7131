/- The writer of a backup package: a package that is written without an issue is accepted, and its
blobs are handed out as they were read. -/
import BorealWork.BackupArtifacts

namespace Boreal.Backup
open Drain JsonValue

section Writer

structure BlobIssue where
  digest : String
  reason : String
  deriving DecidableEq

def BlobIssue.asJson (issue : BlobIssue) : Value :=
  .object [("blob_digest", .string issue.digest), ("reason", .string issue.reason)]

structure PackResult where
  files : List Value
  issues : List BlobIssue

inductive Contents
  | bytes (bytes : List UInt8)
  | gone
  | failed (error : String)

/-- What there is at a path of the machine on which the package is written. -/
inductive HostEntry
  | missing
  | denied (error : String)
  | symlink
  | special
  | file (length : ℕ) (contents : Contents)

structure Packing where
  result : PackResult
  package : Package
  total : ℕ

namespace Packing

def report (s : Packing) (digest reason : String) : Packing :=
  { s with result := { s.result with issues := s.result.issues ++ [⟨digest, reason⟩] } }

def pack (s : Packing) (blob : VerifiedBlob) : Packing where
  result := { s.result with files := s.result.files ++ [.object [("blob_digest", .string blob.digest),
    ("byte_count", .number (.natural blob.bytes.length)),
    ("package_path", .string ((canonicalPackagePath blob.digest).getD "")),
    ("content_digest", .string (checksum blob.bytes))]] }
  package := s.package.insert ((blobFileName blob.digest).getD "") blob.bytes
  total := s.total + blob.bytes.length

end Packing

-- the path of the staging directory, and what the system says where there is a file already
variable (host : String → HostEntry) (staging occupied : String)

def packFile (s : Packing) (digest name sourcePath : String) (byteCount length : ℕ) (contents : Contents) :
    Except StoreError Packing :=
  if 2 ^ 64 ≤ s.total + length then .error (.invalid "backup artifact byte count overflow")
  else if length ≠ byteCount then .ok (s.report digest "blob_byte_count_mismatch")
  else if maxTotalBytes < s.total + length then .ok (s.report digest "artifact_bundle_size_limit_exceeded")
  else match contents with
    | .gone => .ok (s.report digest "blob_file_missing")
    | .failed error => .error (.unavailable s!"cannot read referenced blob {sourcePath}: {error}")
    | .bytes bytes =>
      if bytes.length ≠ byteCount ∨ checksum bytes ≠ digest then
        .ok (s.report digest "blob_digest_or_byte_count_mismatch")
      else if s.package.contains name = true then
        .error (.unavailable s!"cannot create backup artifact file {staging}/artifacts/blobs/{name}: {occupied}")
      else .ok (s.pack ⟨digest, bytes⟩)

def packageBlob (s : Packing) (reference : Value) : Except StoreError Packing :=
  let digest := (reference.getString? "blob_digest").getD ""
  match blobFileName digest with
  | none => .ok (s.report digest "invalid_blob_digest")
  | some name => match u64? reference "byte_count" with
      | none => .ok (s.report digest "invalid_blob_byte_count")
      | some byteCount => match reference.getString? "path" with
          | none => .ok (s.report digest "missing_blob_source_path")
          | some sourcePath => match host sourcePath with
              | .symlink => .error (.invalid s!"backup or restore path must not be a symlink: {sourcePath}")
              | .missing => .ok (s.report digest "blob_file_missing")
              | .denied error => .error (.unavailable s!"cannot inspect referenced blob {sourcePath}: {error}")
              | .special => .ok (s.report digest "blob_path_not_regular_file")
              | .file length contents => packFile staging occupied s digest name sourcePath byteCount length contents

def packageBlobs (references : List Value) : Except StoreError Packing :=
  references.foldlM (packageBlob host staging occupied) ⟨⟨[], []⟩, ∅, 0⟩

end Writer

def rewriteBlobPath (reference : Value) : Value :=
  match reference with
  | .object members => match reference.getString? "blob_digest" with
      | none => reference
      | some digest =>
        let path := (canonicalPackagePath digest).getD "artifacts/unavailable"
        .object (members.map fun member => if member.1 = "path" then ("path", .string path) else member)
  | _ => reference

def blobSize (blob : Value) : Option (String × ℕ) := do
  let digest ← blob.getString? "blob_digest"
  let byteCount ← u64? blob "byte_count"
  return (digest, byteCount)

def sourceIssue (blobSizes : Std.TreeMap String ℕ) (source : Value) : Option BlobIssue :=
  if isAvailable source = false then none
  else
    let digest := (source.getString? "content_digest").getD ""
    match blobSizes[digest]? with
    | none => some ⟨digest, "available_source_blob_missing_from_store"⟩
    | some blobBytes =>
      if (canonicalPackagePath digest).isNone = true then
        some ⟨digest, "available_source_blob_has_invalid_digest"⟩
      else if u64? source "byte_count" ≠ some blobBytes then
        some ⟨digest, "source_and_blob_byte_counts_differ"⟩
      else none

def sourceBlobReferenceIssues (sources blobs : List Value) : List BlobIssue :=
  sources.filterMap (sourceIssue ((blobs.filterMap blobSize).foldl insertReference ∅))

/-- A source issue is added where its digest has no issue yet. -/
def bundleIssues (references sources : List Value) (result : PackResult) : List BlobIssue :=
  (sourceBlobReferenceIssues sources references).foldl (fun issues issue =>
    if issues.any (·.digest = issue.digest) then issues else issues ++ [issue]) result.issues

def backupManifest (references sources : List Value) (result : PackResult) : Value := .object [
  ("format_version", .number (.natural 3)),
  ("referenced_blobs", .array (references.map rewriteBlobPath)),
  ("referenced_sources", .array sources),
  ("artifact_bundle", .object [("format", .string format), ("blobs", .array result.files),
    ("unavailable_blobs", .array ((bundleIssues references sources result).map BlobIssue.asJson))])]

section Packs

variable {host : String → HostEntry} {staging occupied : String} {s s' : Packing}

/-- What a reference gives the writer when it has no issue with it. -/
structure Packs (host : String → HostEntry) (reference : Value) (blob : VerifiedBlob) : Prop where
  named : Names "blob_digest" reference (blob.digest, blob.bytes.length)
  source : ∃ path, reference.getString? "path" = some path ∧
    host path = .file blob.bytes.length (.bytes blob.bytes)
  valid : (blobFileName blob.digest).isSome = true
  hashed : checksum blob.bytes = blob.digest

def fileName (blob : VerifiedBlob) : String := (blobFileName blob.digest).getD ""

def Admits (s : Packing) (blob : VerifiedBlob) : Prop :=
  s.package[fileName blob]? = none ∧ s.total + blob.bytes.length ≤ maxTotalBytes

theorem report_issues (s : Packing) (digest reason : String) : (s.report digest reason).result.issues ≠ [] :=
  List.concat_ne_nil _ _

theorem packFile_ok {digest name sourcePath : String} {byteCount length : ℕ} {contents : Contents}
    (packed : packFile staging occupied s digest name sourcePath byteCount length contents = .ok s')
    (clean : s'.result.issues = []) : ∃ bytes, contents = .bytes bytes ∧ length = byteCount ∧
      bytes.length = byteCount ∧ checksum bytes = digest ∧ s.package[name]? = none ∧
      s.total + bytes.length ≤ maxTotalBytes ∧ s' = s.pack ⟨digest, bytes⟩ := by
  have silent {digest reason : String} (same : (Except.ok (s.report digest reason) : Except StoreError Packing) = .ok s') :
      False := by
    cases same
    exact report_issues s digest reason clean
  unfold packFile at packed
  by_cases overflow : 2 ^ 64 ≤ s.total + length
  · rw [if_pos overflow] at packed
    cases packed
  · rw [if_neg overflow] at packed
    by_cases size : length ≠ byteCount
    · rw [if_pos size] at packed
      exact (silent packed).elim
    · rw [if_neg size] at packed
      by_cases limit : maxTotalBytes < s.total + length
      · rw [if_pos limit] at packed
        exact (silent packed).elim
      · rw [if_neg limit] at packed
        cases contents with
        | gone => exact (silent packed).elim
        | failed error => cases packed
        | bytes bytes =>
          dsimp only at packed
          split_ifs at packed with wrong there
          · exact (silent packed).elim
          · rw [not_or, not_not, not_not] at wrong
            rw [not_not] at size
            rw [Bool.not_eq_true, Lookup.contains_eq_false] at there
            refine ⟨bytes, rfl, size, wrong.1, wrong.2, there, ?_, (Except.ok.inj packed).symm⟩
            omega

theorem packageBlob_ok {reference : Value} (packed : packageBlob host staging occupied s reference = .ok s')
    (clean : s'.result.issues = []) : ∃ blob, Packs host reference blob ∧ Admits s blob ∧ s' = s.pack blob := by
  have silent {digest reason : String} (same : (Except.ok (s.report digest reason) : Except StoreError Packing) = .ok s') :
      False := by
    cases same
    exact report_issues s digest reason clean
  rw [packageBlob] at packed
  cases valid : blobFileName ((reference.getString? "blob_digest").getD "") with
  | none =>
    simp only [valid] at packed
    exact (silent packed).elim
  | some name =>
    simp only [valid] at packed
    cases counted : u64? reference "byte_count" with
    | none =>
      simp only [counted] at packed
      exact (silent packed).elim
    | some byteCount =>
      simp only [counted] at packed
      cases path : reference.getString? "path" with
      | none =>
        simp only [path] at packed
        exact (silent packed).elim
      | some sourcePath =>
        simp only [path] at packed
        cases entry : host sourcePath with
        | symlink =>
          rw [entry] at packed
          cases packed
        | missing =>
          rw [entry] at packed
          exact (silent packed).elim
        | denied error =>
          rw [entry] at packed
          cases packed
        | special =>
          rw [entry] at packed
          exact (silent packed).elim
        | file length contents =>
          rw [entry] at packed
          obtain ⟨bytes, rfl, rfl, rfl, hashed, fresh, within, rfl⟩ := packFile_ok packed clean
          cases named : reference.getString? "blob_digest" with
          | none =>
            rw [named] at valid
            cases valid
          | some digest =>
            rw [named, Option.getD_some] at valid hashed
            refine ⟨⟨digest, bytes⟩, ⟨⟨named, counted⟩, ⟨sourcePath, path, entry⟩, ?_, hashed⟩, ⟨?_, within⟩, rfl⟩
            · rw [valid]
              rfl
            · rw [fileName, valid]
              exact fresh

end Packs

section Runs

variable {host : String → HostEntry} {staging occupied : String} {s s' : Packing}

theorem packageBlobs_run {references : List Value}
    (packed : references.foldlM (packageBlob host staging occupied) s = .ok s') (clean : s'.result.issues = []) :
    ∃ blobs, List.Forall₂ (Packs host) references blobs ∧ Admitted Admits Packing.pack s blobs ∧
      s' = blobs.foldl Packing.pack s ∧ s.result.issues = [] := by
  induction references generalizing s with
  | nil =>
    obtain rfl := Except.ok.inj packed
    exact ⟨[], .nil, trivial, rfl, clean⟩
  | cons reference rest ih =>
    rw [List.foldlM_cons, bind_eq_ok] at packed
    obtain ⟨t, first, later⟩ := packed
    obtain ⟨blobs, others, admitted, rfl, silent⟩ := ih later
    obtain ⟨blob, packs, admits, rfl⟩ := packageBlob_ok first silent
    exact ⟨blob :: blobs, .cons packs others, ⟨admits, admitted⟩, rfl, silent⟩

theorem foldl_pack {blobs : List VerifiedBlob} (distinct : (blobs.map fileName).Nodup)
    (fresh : ∀ blob ∈ blobs, s.package[fileName blob]? = none) :
    (∀ name bytes, (blobs.foldl Packing.pack s).package[name]? = some bytes ↔
      s.package[name]? = some bytes ∨ ∃ blob ∈ blobs, fileName blob = name ∧ blob.bytes = bytes) ∧
    (blobs.foldl Packing.pack s).result.files = s.result.files ++ blobs.map fun blob =>
      .object [("blob_digest", .string blob.digest), ("byte_count", .number (.natural blob.bytes.length)),
        ("package_path", .string ((canonicalPackagePath blob.digest).getD "")),
        ("content_digest", .string (checksum blob.bytes))] := by
  induction blobs generalizing s with
  | nil => simp
  | cons first rest ih =>
    rw [List.map_cons, List.nodup_cons] at distinct
    rw [List.forall_mem_cons] at fresh
    have later (blob : VerifiedBlob) (member : blob ∈ rest) : (s.pack first).package[fileName blob]? = none := by
      refine (Lookup.getElem?_insert_ne _ _ ?_).trans (fresh.2 blob member)
      exact fun same => distinct.1 (List.mem_map.mpr ⟨blob, member, same.symm⟩)
    obtain ⟨lookup, files⟩ := ih distinct.2 later
    refine ⟨fun name bytes => ?_, ?_⟩
    · rw [List.foldl_cons, lookup, List.exists_mem_cons_iff, ← or_assoc]
      refine or_congr_left ?_
      refine (Eq.congr_left (Lookup.getElem?_insert s.package (fileName first) name first.bytes)).trans ?_
      by_cases here : fileName first = name
      · rw [if_pos here, ← here, fresh.1]
        simp
      · simp [here]
    · rw [List.foldl_cons, files, List.map_cons]
      exact List.append_assoc _ _ _

structure Packaged (host : String → HostEntry) (references : List Value) (blobs : List VerifiedBlob)
    (packing : Packing) : Prop where
  packs : List.Forall₂ (Packs host) references blobs
  distinct : (blobs.map VerifiedBlob.digest).Nodup
  within : (blobs.map (·.bytes.length)).sum ≤ maxTotalBytes
  package : ∀ name bytes, packing.package[name]? = some bytes ↔
    ∃ blob ∈ blobs, blobFileName blob.digest = some name ∧ blob.bytes = bytes
  files : packing.result.files = blobs.map fun blob =>
    .object [("blob_digest", .string blob.digest), ("byte_count", .number (.natural blob.bytes.length)),
      ("package_path", .string ((canonicalPackagePath blob.digest).getD "")),
      ("content_digest", .string blob.digest)]

theorem packageBlobs_packaged {references : List Value} {packing : Packing}
    (packed : packageBlobs host staging occupied references = .ok packing) (clean : packing.result.issues = []) :
    ∃ blobs, Packaged host references blobs packing := by
  obtain ⟨blobs, packs, admitted, rfl, -⟩ := packageBlobs_run packed clean
  obtain ⟨fresh, within⟩ := admitted_and.mp admitted
  have names : (blobs.map fileName).Nodup := by
    refine ((@admitted_fresh _ _ Packing.pack ⟨⟨[], []⟩, ∅, 0⟩ blobs _ fileName
      (fun s name => s.package[name]? = none) ?_).mp fresh).1
    intro s blob name
    refine (Eq.congr_left (Lookup.getElem?_insert s.package (fileName blob) name blob.bytes)).trans ?_
    by_cases here : fileName blob = name
    · simp [here]
    · simp [here]
  have sum := (@admitted_sum _ _ Packing.pack ⟨⟨[], []⟩, ∅, 0⟩ blobs Packing.total (·.bytes.length) maxTotalBytes
    (fun _ _ => rfl) (Nat.zero_le _)).mp within
  obtain ⟨lookup, files⟩ := @foldl_pack ⟨⟨[], []⟩, ∅, 0⟩ blobs names fun _ _ => by simp
  have each (blob : VerifiedBlob) (member : blob ∈ blobs) : ∃ reference, Packs host reference blob := by
    obtain ⟨reference, -, fits⟩ := exists_partner packs blob member
    exact ⟨reference, fits⟩
  refine ⟨blobs, packs, ?_, by simpa using sum, fun name bytes => ?_, ?_⟩
  · exact List.Nodup.of_map (fun digest => (blobFileName digest).getD "") (by rwa [List.map_map])
  · rw [lookup]
    simp only [Std.TreeMap.getElem?_emptyc, reduceCtorEq, false_or]
    refine exists_congr fun blob => and_congr_right fun member => and_congr_left fun _ => ?_
    obtain ⟨reference, fits⟩ := each blob member
    obtain ⟨own, valid⟩ := Option.isSome_iff_exists.mp fits.valid
    rw [fileName, valid, Option.getD_some, Option.some.injEq]
  · rw [files, List.nil_append]
    refine List.map_congr_left fun blob member => ?_
    obtain ⟨reference, fits⟩ := each blob member
    rw [fits.hashed]

end Runs

section RoundTrip

variable {host : String → HostEntry} {staging occupied root notFound : String} {references sources : List Value}
  {packing : Packing} {blobs : List VerifiedBlob}

theorem rewriteBlobPath_get? (reference : Value) {key : String} (other : key ≠ "path") :
    (rewriteBlobPath reference).get? key = reference.get? key := by
  cases reference with
  | object members =>
    rw [rewriteBlobPath]
    cases (Value.object members).getString? "blob_digest" with
    | none => rfl
    | some digest =>
      dsimp only
      have keeps (member : String × Value) :
          ((if member.1 = "path" then ("path", Value.string ((canonicalPackagePath digest).getD "artifacts/unavailable"))
            else member).1 = key) = (member.1 = key) := by
        by_cases path : member.1 = "path"
        · rw [if_pos path, path]
        · rw [if_neg path]
      simp only [Value.get?, Value.members?, Option.bind_eq_bind, Option.bind_some, ← List.map_reverse,
        List.find?_map, Function.comp_def, keeps]
      cases found : members.reverse.find? (fun member => decide (member.1 = key)) with
      | none => rfl
      | some member =>
        have here := List.find?_some found
        rw [decide_eq_true_eq] at here
        rw [Option.map_some, Option.bind_some, Option.bind_some, if_neg (here ▸ other)]
  | null => rfl
  | bool b => rfl
  | number n => rfl
  | string text => rfl
  | array items => rfl

theorem rewriteBlobPath_names {reference : Value} {named : String × ℕ}
    (names : Names "blob_digest" reference named) : Names "blob_digest" (rewriteBlobPath reference) named := by
  rw [Names, Value.getString?, u64?, rewriteBlobPath_get? reference (by decide),
    rewriteBlobPath_get? reference (by decide)]
  exact names

theorem bundleIssues_nil {result : PackResult} (clean : bundleIssues references sources result = []) :
    result.issues = [] ∧ sourceBlobReferenceIssues sources references = [] := by
  rw [bundleIssues] at clean
  have grows (issues more : List BlobIssue) (some : issues ≠ []) : more.foldl (fun issues issue =>
      if issues.any (·.digest = issue.digest) then issues else issues ++ [issue]) issues ≠ [] := by
    induction more generalizing issues with
    | nil => exact some
    | cons issue rest ih =>
      rw [List.foldl_cons]
      refine ih _ ?_
      split_ifs
      · exact some
      · exact List.concat_ne_nil _ _
  have packed : result.issues = [] := by
    by_contra some
    exact grows _ _ some clean
  refine ⟨packed, ?_⟩
  rw [packed] at clean
  cases more : sourceBlobReferenceIssues sources references with
  | nil => rfl
  | cons issue rest =>
    rw [more, List.foldl_cons] at clean
    exact absurd clean (grows [issue] rest (List.cons_ne_nil issue []))

theorem blobSize_references (packs : List.Forall₂ (Packs host) references blobs) :
    references.filterMap blobSize = blobs.map fun blob => (blob.digest, blob.bytes.length) := by
  induction packs with
  | nil => rfl
  | @cons reference blob _ _ fits _ ih =>
    have size : blobSize reference = some (blob.digest, blob.bytes.length) := by
      rw [blobSize, fits.named.1, fits.named.2]
      rfl
    rw [List.filterMap_cons_some size, ih, List.map_cons]

theorem sourceIssue_none {blobSizes : Std.TreeMap String ℕ} {source : Value}
    (silent : sourceIssue blobSizes source = none) (here : isAvailable source = true) :
    ∃ named, Names "content_digest" source named ∧ blobSizes[named.1]? = some named.2 := by
  rw [sourceIssue, if_neg (by rw [here]; decide)] at silent
  cases sized : blobSizes[(source.getString? "content_digest").getD ""]? with
  | none =>
    simp only [sized] at silent
    cases silent
  | some blobBytes =>
    simp only [sized] at silent
    split_ifs at silent with unnamed differs
    rw [not_not] at differs
    cases digest : source.getString? "content_digest" with
    | none =>
      rw [digest] at unnamed
      exact absurd rfl unnamed
    | some digest' =>
      rw [digest] at sized
      exact ⟨(digest', blobBytes), ⟨digest, differs⟩, sized⟩

theorem backupManifest_intact (packaged : Packaged host references blobs packing)
    (clean : bundleIssues references sources packing.result = []) :
    ∃ listed, ReadsManifest (backupManifest references sources packing.result) listed ∧
      Intact packing.package listed ∧ listed.entries.map (blobOf packing.package) = blobs := by
  have silent := (bundleIssues_nil clean).2
  have each (blob : VerifiedBlob) (member : blob ∈ blobs) : ∃ reference, Packs host reference blob := by
    obtain ⟨reference, -, fits⟩ := exists_partner packaged.packs blob member
    exact ⟨reference, fits⟩
  have stored (blob : VerifiedBlob) (member : blob ∈ blobs) :
      (blobFileName blob.digest).bind (packing.package[·]?) = some blob.bytes := by
    obtain ⟨reference, fits⟩ := each blob member
    obtain ⟨name, valid⟩ := Option.isSome_iff_exists.mp fits.valid
    rw [valid, Option.bind_some]
    exact (packaged.package name blob.bytes).mpr ⟨blob, member, valid, rfl⟩
  have pairs : ((blobs.map fun blob => (blob.digest, blob.bytes.length)).map Prod.fst).Nodup := by
    rw [List.map_map]
    exact packaged.distinct
  have available : ∀ source ∈ sources.filter isAvailable, ∃ named, Names "content_digest" source named ∧
      named ∈ blobs.map fun blob => (blob.digest, blob.bytes.length) := by
    intro source member
    rw [List.mem_filter] at member
    have quiet := List.filterMap_eq_nil_iff.mp silent source member.1
    rw [blobSize_references packaged.packs] at quiet
    obtain ⟨named, names, sized⟩ := sourceIssue_none quiet member.2
    rcases ((@foldl_references ∅ _ pairs (by simp)).1 _ _).mp sized with early | inside
    · simp at early
    · exact ⟨named, names, inside⟩
  obtain ⟨named, readSources⟩ := exists_read available
  refine ⟨⟨blobs.map fun blob => (blob.digest, blob.bytes.length), blobs.map entryOf, [], named⟩, ⟨?_, ?_, ?_⟩,
    ⟨rfl, pairs, ?_, ?_, ?_, ?_, ?_, ?_, ?_, ?_⟩, ?_⟩
  · refine ⟨references.map rewriteBlobPath, rfl, ?_⟩
    rw [List.forall₂_map_left_iff, List.forall₂_map_right_iff]
    exact packaged.packs.imp fun _ _ fits => rewriteBlobPath_names fits.named
  · refine ⟨_, packing.result.files, rfl, rfl, ?_, rfl, ?_⟩
    · rw [clean]
      rfl
    · rw [packaged.files, List.forall₂_map_left_iff, List.forall₂_map_right_iff, List.forall₂_same]
      exact fun blob _ => ⟨rfl, rfl, rfl, rfl⟩
  · exact ⟨sources, rfl, readSources.imp fun _ _ both => both.1⟩
  · rw [List.forall_mem_map]
    intro blob member
    obtain ⟨reference, fits⟩ := each blob member
    exact fits.valid
  · rw [List.map_map]
    exact List.Perm.refl _
  · rw [List.forall_mem_map]
    exact fun blob member => canonicalPackagePath_of_stored (stored blob member)
  · rw [List.forall_mem_map]
    exact fun _ _ => rfl
  · rw [List.forall_mem_map]
    intro blob member
    obtain ⟨reference, fits⟩ := each blob member
    exact ⟨blob.bytes, stored blob member, rfl, fits.hashed⟩
  · rw [List.map_map]
    exact packaged.within
  · intro _ name member
    obtain ⟨bytes, there⟩ := Lookup.mem_keys_iff.mp member
    obtain ⟨blob, inside, valid, -⟩ := (packaged.package name bytes).mp there
    exact ⟨entryOf blob, List.mem_map_of_mem inside, valid⟩
  · intro source member
    obtain ⟨value, -, both⟩ := exists_partner readSources source member
    exact both.2
  · rw [List.map_map]
    refine (List.map_congr_left fun blob member => ?_).trans (List.map_id blobs)
    rw [Function.comp_apply, blobOf, entryOf, stored blob member]
    rfl

/-- A version-3 package is accepted exactly if it is intact, and then its own blobs are handed out; what
is packed without an issue is accepted, and the bytes are those that were read. -/
theorem backupArtifacts_failClosed :
    (∀ (root notFound : String) (package : Package) (manifest : Value) (blobs : List VerifiedBlob),
      u64? manifest "format_version" = some 3 →
      (verifyPackageBlobs root notFound package manifest = .ok blobs ↔
        ∃ listed, ReadsManifest manifest listed ∧ Intact package listed ∧
          blobs = listed.entries.map (blobOf package))) ∧
    ∀ (host : String → HostEntry) (staging occupied root notFound : String) (references sources : List Value)
      (packing : Packing), packageBlobs host staging occupied references = .ok packing →
      bundleIssues references sources packing.result = [] →
      ∃ blobs, List.Forall₂ (Packs host) references blobs ∧
        verifyPackageBlobs root notFound packing.package (backupManifest references sources packing.result) =
          .ok blobs := by
  constructor
  · intro root notFound package manifest blobs version
    exact verifyPackageBlobs_version version
  · intro host staging occupied root notFound references sources packing packed clean
    obtain ⟨blobs, packaged⟩ := packageBlobs_packaged packed (bundleIssues_nil clean).1
    obtain ⟨listed, reads, intact, same⟩ := backupManifest_intact packaged clean
    exact ⟨blobs, packaged.packs, (verifyPackageBlobs_version rfl).mpr ⟨listed, reads, intact, same.symm⟩⟩

def emptyDigest : String := "sha256:e3b0c44298fc1c149afbf4c8996fb92427ae41e4649b934ca495991b7852b855"

def emptyReference : Value := .object [("blob_digest", .string emptyDigest),
  ("byte_count", .number (.natural 0)), ("path", .string "blobs/empty")]

def emptyHost (path : String) : HostEntry :=
  if path = "blobs/empty" then .file 0 (.bytes []) else .missing

theorem packageBlobs_empty : packageBlobs emptyHost "staging" "File exists" [emptyReference] =
    .ok ((⟨⟨[], []⟩, ∅, 0⟩ : Packing).pack ⟨emptyDigest, []⟩) := by
  have name : blobFileName emptyDigest =
      some "e3b0c44298fc1c149afbf4c8996fb92427ae41e4649b934ca495991b7852b855" := by decide
  have hashed : checksum [] = emptyDigest := by decide +kernel
  have digest : (emptyReference.getString? "blob_digest").getD "" = emptyDigest := rfl
  have size : u64? emptyReference "byte_count" = some 0 := rfl
  have path : emptyReference.getString? "path" = some "blobs/empty" := rfl
  have entry : emptyHost "blobs/empty" = .file 0 (.bytes []) := if_pos rfl
  have first : packageBlob emptyHost "staging" "File exists" ⟨⟨[], []⟩, ∅, 0⟩ emptyReference =
      .ok ((⟨⟨[], []⟩, ∅, 0⟩ : Packing).pack ⟨emptyDigest, []⟩) := by
    rw [packageBlob]
    simp only [digest, name, size, path, entry]
    unfold packFile
    rw [if_neg (by decide), if_neg (by decide), if_neg (by decide)]
    dsimp only
    rw [if_neg (by rw [hashed]; simp), if_neg (by simp)]
  rw [packageBlobs, List.foldlM_cons, first, ok_bind]
  rfl

theorem backupArtifacts_failClosed_empty :
    ∃ blobs listed, verifyPackageBlobs "package" "No such file"
        ((⟨⟨[], []⟩, ∅, 0⟩ : Packing).pack ⟨emptyDigest, []⟩).package
        (backupManifest [emptyReference] [] ((⟨⟨[], []⟩, ∅, 0⟩ : Packing).pack ⟨emptyDigest, []⟩).result) =
          .ok blobs ∧
      Intact ((⟨⟨[], []⟩, ∅, 0⟩ : Packing).pack ⟨emptyDigest, []⟩).package listed := by
  obtain ⟨blobs, -, verified⟩ := backupArtifacts_failClosed.2 emptyHost "staging" "File exists" "package"
    "No such file" [emptyReference] [] _ packageBlobs_empty rfl
  obtain ⟨listed, -, intact, -⟩ := (backupArtifacts_failClosed.1 "package" "No such file" _ _ blobs rfl).mp verified
  exact ⟨blobs, listed, verified, intact⟩

theorem verifyPackageBlobs_stray :
    verifyPackageBlobs "package" "No such file" ((∅ : Package).insert "stray" [])
        (backupManifest [] [] ⟨[], []⟩) = .ok [] ∧
      "stray" ∈ ((∅ : Package).insert "stray" []).keys := by
  constructor
  · decide
  · decide

end RoundTrip

end Boreal.Backup
