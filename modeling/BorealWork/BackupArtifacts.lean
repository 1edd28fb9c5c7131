/- The external blobs of a backup package: how the writer packs them, and what the reader asks of the
manifest and of the blob directory before it hands them out. -/
import BorealWork.ContentDigest
import BorealWork.Library.Drain
import BorealWork.Library.JsonValue
import BorealWork.Library.Lookup

namespace Boreal.Backup
open Drain JsonValue

inductive StoreError
  | invalid (message : String)
  | conflict (message : String)
  | corrupt (message : String)
  | unavailable (message : String)
  deriving DecidableEq

def found {α : Type} (o : Option α) (error : StoreError) : Except StoreError α := o.elim (.error error) .ok

def u64? (value : Value) (key : String) : Option ℕ :=
  match value.get? key with
  | some (.number (.natural n)) => some n
  | _ => none

def array? (value : Value) (key : String) : Option (List Value) :=
  match value.get? key with
  | some (.array items) => some items
  | _ => none

def object? (value : Value) (key : String) : Option Value :=
  match value.get? key with
  | some (.object members) => some (.object members)
  | _ => none

def requiredString (value : Value) (key : String) : Except StoreError String :=
  found (value.getString? key) (.corrupt s!"backup artifact {key} is missing")

/-- The store's own copy of the hash fills up to the last eight bytes of a block one byte at a time. -/
def padded (bytes : List UInt8) : List UInt8 :=
  bytes ++ [0x80] ++ List.replicate ((120 - (bytes.length + 1) % 64) % 64) 0 ++
    Source.beBytes 8 (UInt64.ofNat bytes.length * 8).toNat

def sha256 (bytes : List UInt8) : Source.Working :=
  (Source.chunks (padded bytes)).foldl Source.compress Source.initialState

def checksum (bytes : List UInt8) : String :=
  String.ofList ("sha256:".toList ++ (sha256 bytes).words.flatMap Source.hexWord)

def isLowerHex (c : Char) : Bool := ('0' ≤ c && c ≤ '9') || ('a' ≤ c && c ≤ 'f')

/-- The last part of a blob's path; only a lower-case digest has one. -/
def blobFileName (digest : String) : Option String :=
  if Source.digestPrefix.isPrefixOf digest.toList = true ∧
      (digest.toList.drop Source.digestPrefix.length).length = 64 ∧
      (digest.toList.drop Source.digestPrefix.length).all isLowerHex = true then
    some (String.ofList (digest.toList.drop Source.digestPrefix.length))
  else none

def canonicalPackagePath (digest : String) : Option String :=
  (blobFileName digest).map fun name => "artifacts/blobs/" ++ name

/-- The files in the blob directory of a package, by name; without a file there is no directory. -/
abbrev Package := Std.TreeMap String (List UInt8)

structure VerifiedBlob where
  digest : String
  bytes : List UInt8
  deriving DecidableEq

def format : String := "boreal.sqlite.backup-artifacts/1"

def maxTotalBytes : ℕ := 512 * 1024 * 1024

section Reader

-- the path of the package, and what the system says where there is no file
variable (root notFound : String) (package : Package)

def indexReference (referenceMap : Std.TreeMap String ℕ) (reference : Value) :
    Except StoreError (Std.TreeMap String ℕ) := do
  let digest ← requiredString reference "blob_digest"
  let byteCount ← found (u64? reference "byte_count") (.corrupt "backup blob byte_count is invalid")
  refuse ((blobFileName digest).isNone = true ∨ referenceMap.contains digest = true)
    (.corrupt "backup blob references contain an invalid or duplicate digest")
  return referenceMap.insert digest byteCount

def isAvailable (source : Value) : Bool := source.getString? "availability" = some "available"

def checkSource (referenceMap : Std.TreeMap String ℕ) (source : Value) : Except StoreError Unit :=
  if isAvailable source = false then .ok ()
  else do
    let digest ← requiredString source "content_digest"
    let byteCount ← found (u64? source "byte_count") (.corrupt "backup source byte_count is invalid")
    refuse (referenceMap[digest]? ≠ some byteCount) (.conflict
      s!"backup package references available source blob {digest} without a matching external blob artifact")

structure Verifying where
  verified : List VerifiedBlob
  seen : Std.TreeSet String
  total : ℕ

def Verifying.push (s : Verifying) (blob : VerifiedBlob) : Verifying :=
  ⟨s.verified ++ [blob], s.seen.insert blob.digest, s.total + blob.bytes.length⟩

def verifyFile (referenceMap : Std.TreeMap String ℕ) (s : Verifying) (file : Value) :
    Except StoreError Verifying := do
  let digest ← requiredString file "blob_digest"
  let byteCount ← found (u64? file "byte_count") (.corrupt "backup artifact byte_count is invalid")
  let packagePath ← requiredString file "package_path"
  let contentDigest ← requiredString file "content_digest"
  let name ← found (blobFileName digest) (.corrupt "backup artifact has an invalid blob digest")
  refuse (referenceMap[digest]? ≠ some byteCount ∨ packagePath ≠ "artifacts/blobs/" ++ name ∨
      s.seen.contains digest = true)
    (.conflict "backup artifact entry does not match its referenced blob metadata")
  let bytes ← found package[name]? (.unavailable
    s!"cannot inspect packaged external blob {root}/artifacts/blobs/{name}: {notFound}")
  refuse (bytes.length ≠ byteCount)
    (.conflict s!"packaged external blob {digest} has an invalid file type or byte count")
  refuse (2 ^ 64 ≤ s.total + byteCount) (.corrupt "backup artifact byte count overflow")
  refuse (maxTotalBytes < s.total + byteCount)
    (.invalid "backup artifact bundle exceeds the supported size limit")
  refuse (checksum bytes ≠ digest ∨ checksum bytes ≠ contentDigest)
    (.conflict s!"packaged external blob {digest} failed its integrity check")
  return s.push ⟨digest, bytes⟩

def checkUnavailable : List Value → Except StoreError Unit
  | [] => .ok ()
  | first :: _ =>
    let digest := (first.getString? "blob_digest").getD "unknown digest"
    let reason := (first.getString? "reason").getD "unknown disposition"
    .error (.conflict
      s!"backup package references external blobs that were not safely packaged: {digest} ({reason})")

/-- The listing of the directory against the names of the files that were verified. -/
def sameNames (actual : List String) (expected : List (Option String)) : Bool :=
  actual.all (fun name => expected.contains (some name)) && expected.all fun name => name.any (· ∈ actual)

def verifyBundle (manifest : Value) (references : List Value) : Except StoreError (List VerifiedBlob) := do
  let bundle ← found (object? manifest "artifact_bundle") (.corrupt "backup artifact_bundle is missing")
  refuse (bundle.getString? "format" ≠ some format) (.invalid "unsupported backup artifact bundle format")
  let issues ← found (array? bundle "unavailable_blobs")
    (.corrupt "backup artifact bundle unavailable_blobs is missing")
  checkUnavailable issues
  let files ← found (array? bundle "blobs") (.corrupt "backup artifact bundle blobs is missing")
  refuse (files.length ≠ references.length)
    (.conflict "backup artifact bundle does not contain every referenced external blob")
  refuse (files.isEmpty = false ∧ package.isEmpty = true)
    (.unavailable s!"cannot inspect backup artifact directory {root}/artifacts: {notFound}")
  let referenceMap ← references.foldlM indexReference ∅
  let sources ← found (array? manifest "referenced_sources")
    (.corrupt "backup referenced_sources is not an array")
  sources.forM (checkSource referenceMap)
  let s ← files.foldlM (verifyFile root notFound package referenceMap) ⟨[], ∅, 0⟩
  refuse (s.seen.size ≠ referenceMap.size)
    (.conflict "backup artifact bundle is missing a referenced external blob")
  refuse (s.seen.isEmpty = false ∧ sameNames package.keys (s.seen.toList.map blobFileName) = false)
    (.conflict "backup artifact directory contains unexpected files")
  return s.verified

def verifyPackageBlobs (manifest : Value) : Except StoreError (List VerifiedBlob) := do
  let version ← found (u64? manifest "format_version") (.corrupt "backup format version is missing")
  let references ← found (array? manifest "referenced_blobs")
    (.corrupt "backup referenced_blobs is not an array")
  if version = 2 then
    refuse (references.isEmpty = false) (.conflict
      "legacy backup package references external blobs but contains no artifact bundle")
    return []
  else do
    refuse (version ≠ 3) (.invalid "unsupported Boreal backup package format version")
    verifyBundle root notFound package manifest references

end Reader

structure BundleEntry where
  digest : String
  byteCount : ℕ
  packagePath : String
  contentDigest : String
  deriving DecidableEq

structure ReadsEntry (file : Value) (entry : BundleEntry) : Prop where
  digest : file.getString? "blob_digest" = some entry.digest
  byteCount : u64? file "byte_count" = some entry.byteCount
  packagePath : file.getString? "package_path" = some entry.packagePath
  contentDigest : file.getString? "content_digest" = some entry.contentDigest

def Names (key : String) (value : Value) (named : String × ℕ) : Prop :=
  value.getString? key = some named.1 ∧ u64? value "byte_count" = some named.2

/-- What a version-3 manifest lists: the referenced blobs, the entries of the bundle, the blobs that were
not packaged, and the sources that are available. -/
structure BundleManifest where
  references : List (String × ℕ)
  entries : List BundleEntry
  unavailable : List Value
  sources : List (String × ℕ)

structure ReadsManifest (manifest : Value) (listed : BundleManifest) : Prop where
  references : ∃ values, array? manifest "referenced_blobs" = some values ∧
    List.Forall₂ (Names "blob_digest") values listed.references
  bundle : ∃ bundle files, object? manifest "artifact_bundle" = some bundle ∧
    bundle.getString? "format" = some format ∧ array? bundle "unavailable_blobs" = some listed.unavailable ∧
    array? bundle "blobs" = some files ∧ List.Forall₂ ReadsEntry files listed.entries
  sources : ∃ values, array? manifest "referenced_sources" = some values ∧
    List.Forall₂ (Names "content_digest") (values.filter isAvailable) listed.sources

structure Intact (package : Package) (listed : BundleManifest) : Prop where
  packaged : listed.unavailable = []
  distinct : (listed.references.map Prod.fst).Nodup
  valid : ∀ reference ∈ listed.references, (blobFileName reference.1).isSome = true
  matched : (listed.entries.map fun entry => (entry.digest, entry.byteCount)).Perm listed.references
  paths : ∀ entry ∈ listed.entries, canonicalPackagePath entry.digest = some entry.packagePath
  contents : ∀ entry ∈ listed.entries, entry.contentDigest = entry.digest
  files : ∀ entry ∈ listed.entries, ∃ bytes, (blobFileName entry.digest).bind (package[·]?) = some bytes ∧
    bytes.length = entry.byteCount ∧ checksum bytes = entry.digest
  total : (listed.entries.map BundleEntry.byteCount).sum ≤ maxTotalBytes
  only : listed.entries ≠ [] → ∀ name ∈ package.keys, ∃ entry ∈ listed.entries, blobFileName entry.digest = some name
  sources : ∀ source ∈ listed.sources, source ∈ listed.references

section Loops

variable {root notFound : String} {package : Package} {referenceMap referenceMap' : Std.TreeMap String ℕ}

theorem found_ok {α : Type} {o : Option α} {error : StoreError} {a : α} : found o error = .ok a ↔ o = some a :=
  found_eq_ok

theorem requiredString_ok {value : Value} {key text : String} :
    requiredString value key = .ok text ↔ value.getString? key = some text := found_ok

def insertReference (referenceMap : Std.TreeMap String ℕ) (reference : String × ℕ) : Std.TreeMap String ℕ :=
  referenceMap.insert reference.1 reference.2

theorem indexReference_ok (value : Value) : indexReference referenceMap value = .ok referenceMap' ↔
    ∃ reference, (Names "blob_digest" value reference ∧ (blobFileName reference.1).isSome = true) ∧
      referenceMap[reference.1]? = none ∧ referenceMap' = insertReference referenceMap reference := by
  rw [indexReference]
  simp only [bind_eq_ok, requiredString_ok, found_ok, refuse_eq_ok, not_or]
  constructor
  · rintro ⟨digest, named, byteCount, counted, -, ⟨valid, fresh⟩, done⟩
    refine ⟨(digest, byteCount), ⟨⟨named, counted⟩, ?_⟩, ?_, (Except.ok.inj done).symm⟩
    · rwa [Option.isNone_iff_eq_none, ← ne_eq, Option.ne_none_iff_isSome] at valid
    · rwa [← Lookup.contains_eq_false, ← Bool.not_eq_true]
  · rintro ⟨⟨digest, byteCount⟩, ⟨⟨named, counted⟩, valid⟩, fresh, rfl⟩
    refine ⟨digest, named, byteCount, counted, (), ⟨?_, ?_⟩, rfl⟩
    · rwa [Option.isNone_iff_eq_none, ← ne_eq, Option.ne_none_iff_isSome]
    · rwa [Bool.not_eq_true, Lookup.contains_eq_false]

theorem foldl_references {listed : List (String × ℕ)} (distinct : (listed.map Prod.fst).Nodup)
    (fresh : ∀ reference ∈ listed, referenceMap[reference.1]? = none) :
    (∀ digest byteCount, (listed.foldl insertReference referenceMap)[digest]? = some byteCount ↔
      referenceMap[digest]? = some byteCount ∨ (digest, byteCount) ∈ listed) ∧
    (listed.foldl insertReference referenceMap).size = referenceMap.size + listed.length := by
  induction listed generalizing referenceMap with
  | nil => simp
  | cons first rest ih =>
    rw [List.map_cons, List.nodup_cons] at distinct
    rw [List.forall_mem_cons] at fresh
    have later (reference : String × ℕ) (member : reference ∈ rest) :
        (insertReference referenceMap first)[reference.1]? = none := by
      rw [insertReference, Lookup.getElem?_insert_ne]
      · exact fresh.2 reference member
      · exact fun same => distinct.1 (List.mem_map.mpr ⟨reference, member, same.symm⟩)
    obtain ⟨lookup, size⟩ := ih distinct.2 later
    have new : ¬ referenceMap.contains first.1 = true := by
      rw [Bool.not_eq_true, Lookup.contains_eq_false]
      exact fresh.1
    refine ⟨fun digest byteCount => ?_, ?_⟩
    · rw [List.foldl_cons, lookup, insertReference, Lookup.getElem?_insert, List.mem_cons]
      by_cases here : first.1 = digest
      · subst here
        rw [if_pos rfl, fresh.1]
        simp only [Option.some.injEq, reduceCtorEq, false_or, Prod.ext_iff, true_and, eq_comm]
      · rw [if_neg here]
        simp only [Prod.ext_iff, Ne.symm here, false_and, false_or]
    · rw [List.foldl_cons, size, insertReference, Std.TreeMap.size_insert, if_neg new, List.length_cons]
      omega

theorem indexReferences_ok {values : List Value} : values.foldlM indexReference ∅ = .ok referenceMap ↔
    ∃ listed, List.Forall₂ (fun value reference => Names "blob_digest" value reference ∧
        (blobFileName reference.1).isSome = true) values listed ∧ (listed.map Prod.fst).Nodup ∧
      referenceMap = listed.foldl insertReference ∅ := by
  rw [foldlM_admitted fun m value m' => @indexReference_ok m m' value]
  refine exists_congr fun listed => and_congr_right fun _ => and_congr_left fun _ => ?_
  refine (@admitted_fresh _ _ insertReference ∅ listed _ Prod.fst (fun m digest => m[digest]? = none) ?_).trans ?_
  · intro m reference digest
    rw [insertReference, Lookup.getElem?_insert]
    by_cases here : reference.1 = digest
    · simp [here]
    · simp [here]
  · exact and_iff_left fun reference _ => by simp

theorem checkSource_ok {source : Value} : checkSource referenceMap source = .ok () ↔
    (isAvailable source = true → ∃ named, Names "content_digest" source named ∧
      referenceMap[named.1]? = some named.2) := by
  rw [checkSource]
  cases isAvailable source with
  | false => simp
  | true =>
    rw [if_neg (Bool.true_eq_false ▸ id)]
    simp only [bind_eq_ok, requiredString_ok, found_ok, refuse_eq_ok, not_not, forall_const]
    constructor
    · rintro ⟨digest, named, byteCount, counted, found⟩
      exact ⟨(digest, byteCount), ⟨named, counted⟩, found⟩
    · rintro ⟨⟨digest, byteCount⟩, ⟨named, counted⟩, found⟩
      exact ⟨digest, named, byteCount, counted, found⟩

structure Accepts (package : Package) (referenceMap : Std.TreeMap String ℕ) (file : Value) (blob : VerifiedBlob) :
    Prop where
  entry : ReadsEntry file ⟨blob.digest, blob.bytes.length, (canonicalPackagePath blob.digest).getD "", blob.digest⟩
  stored : (blobFileName blob.digest).bind (package[·]?) = some blob.bytes
  referenced : referenceMap[blob.digest]? = some blob.bytes.length
  hashed : checksum blob.bytes = blob.digest

theorem verifyFile_ok (s : Verifying) (file : Value) (s' : Verifying) :
    verifyFile root notFound package referenceMap s file = .ok s' ↔
      ∃ blob, Accepts package referenceMap file blob ∧
        (blob.digest ∉ s.seen ∧ s.total + blob.bytes.length ≤ maxTotalBytes) ∧ s' = s.push blob := by
  rw [verifyFile]
  simp only [bind_eq_ok, requiredString_ok, found_ok, refuse_eq_ok, not_or, not_not]
  constructor
  · rintro ⟨digest, named, byteCount, counted, path, placed, content, copied, name, valid, -, ⟨referenced, canonical,
      unseen⟩, bytes, stored, -, size, -, -, -, within, -, ⟨hashed, same⟩, done⟩
    subst size
    refine ⟨⟨digest, bytes⟩, ⟨⟨named, counted, ?_, ?_⟩, ?_, referenced, hashed⟩, ⟨?_, not_lt.mp within⟩,
      (Except.ok.inj done).symm⟩
    · rw [placed, canonical, canonicalPackagePath, valid]
      rfl
    · rw [copied, ← same, hashed]
    · rw [valid]
      exact stored
    · rwa [Std.TreeSet.mem_iff_contains]
  · rintro ⟨⟨digest, bytes⟩, ⟨⟨named, counted, placed, copied⟩, stored, referenced, hashed⟩, ⟨unseen, within⟩, rfl⟩
    obtain ⟨name, valid, stored⟩ := Option.bind_eq_some_iff.mp stored
    have canonical : (canonicalPackagePath digest).getD "" = "artifacts/blobs/" ++ name := by
      rw [canonicalPackagePath, valid]
      rfl
    refine ⟨digest, named, bytes.length, counted, _, placed, digest, copied, name, valid, (), ⟨referenced, canonical, ?_⟩,
      bytes, stored, (), rfl, (), ?_, (), not_lt.mpr within, (), ⟨hashed, hashed⟩, rfl⟩
    · rwa [Std.TreeSet.mem_iff_contains] at unseen
    · have small : maxTotalBytes < 2 ^ 64 := by decide
      dsimp only at within
      omega

theorem foldl_push {blobs : List VerifiedBlob} {s : Verifying} (distinct : (blobs.map VerifiedBlob.digest).Nodup)
    (fresh : ∀ blob ∈ blobs, blob.digest ∉ s.seen) :
    (blobs.foldl Verifying.push s).verified = s.verified ++ blobs ∧
    (∀ digest, digest ∈ (blobs.foldl Verifying.push s).seen ↔
      digest ∈ s.seen ∨ ∃ blob ∈ blobs, blob.digest = digest) ∧
    (blobs.foldl Verifying.push s).seen.size = s.seen.size + blobs.length := by
  induction blobs generalizing s with
  | nil => simp
  | cons first rest ih =>
    rw [List.map_cons, List.nodup_cons] at distinct
    rw [List.forall_mem_cons] at fresh
    have later (blob : VerifiedBlob) (member : blob ∈ rest) : blob.digest ∉ (s.push first).seen := by
      rw [Verifying.push, Lookup.mem_insert, not_or]
      exact ⟨fun same => distinct.1 (List.mem_map.mpr ⟨blob, member, same.symm⟩), fresh.2 blob member⟩
    obtain ⟨verified, seen, size⟩ := ih distinct.2 later
    refine ⟨?_, fun digest => ?_, ?_⟩
    · rw [List.foldl_cons, verified, Verifying.push, List.append_assoc, List.singleton_append]
    · rw [List.foldl_cons, seen, Verifying.push, Lookup.mem_insert, List.exists_mem_cons_iff]
      tauto
    · have new : ¬ s.seen.contains first.digest = true := by
        rw [← Std.TreeSet.mem_iff_contains]
        exact fresh.1
      rw [List.foldl_cons, size, Verifying.push, Std.TreeSet.size_insert, if_neg new, List.length_cons]
      omega

theorem verifyFiles_ok {files : List Value} {s : Verifying} :
    files.foldlM (verifyFile root notFound package referenceMap) ⟨[], ∅, 0⟩ = .ok s ↔
      ∃ blobs, List.Forall₂ (Accepts package referenceMap) files blobs ∧
        ((blobs.map VerifiedBlob.digest).Nodup ∧ (blobs.map (·.bytes.length)).sum ≤ maxTotalBytes) ∧
        s = blobs.foldl Verifying.push ⟨[], ∅, 0⟩ := by
  rw [foldlM_admitted verifyFile_ok]
  refine exists_congr fun blobs => and_congr_right fun _ => and_congr_left fun _ => ?_
  rw [admitted_and]
  refine and_congr ?_ ?_
  · refine (@admitted_fresh _ _ Verifying.push ⟨[], ∅, 0⟩ blobs _ VerifiedBlob.digest
      (fun s digest => digest ∉ s.seen) ?_).trans ?_
    · intro s blob digest
      rw [Verifying.push, Lookup.mem_insert, not_or]
    · exact and_iff_left fun blob _ => by simp
  · refine (@admitted_sum _ _ Verifying.push ⟨[], ∅, 0⟩ blobs Verifying.total (·.bytes.length) maxTotalBytes
      (fun _ _ => rfl) (Nat.zero_le _)).trans ?_
    rw [Nat.zero_add]

theorem sameNames_iff {actual : List String} {expected : List (Option String)} : sameNames actual expected = true ↔
    (∀ name ∈ actual, some name ∈ expected) ∧ ∀ name ∈ expected, ∃ file ∈ actual, name = some file := by
  rw [sameNames, Bool.and_eq_true, List.all_eq_true, List.all_eq_true]
  refine and_congr (forall₂_congr fun name _ => List.contains_iff_mem) (forall₂_congr fun name _ => ?_)
  cases name with
  | none => simp
  | some name => simp

theorem listing_ok {blobs : List VerifiedBlob} {seen : Std.TreeSet String}
    (named : ∀ digest, digest ∈ seen ↔ ∃ blob ∈ blobs, blob.digest = digest)
    (stored : ∀ blob ∈ blobs, (blobFileName blob.digest).bind (package[·]?) = some blob.bytes) :
    ¬ (seen.isEmpty = false ∧ sameNames package.keys (seen.toList.map blobFileName) = false) ↔
      (blobs ≠ [] → ∀ name ∈ package.keys, ∃ blob ∈ blobs, blobFileName blob.digest = some name) := by
  have nonempty : seen.isEmpty = false ↔ blobs ≠ [] := by
    rw [Std.TreeSet.isEmpty_eq_false_iff_exists_mem]
    constructor
    · rintro ⟨digest, member⟩ rfl
      obtain ⟨blob, inside, -⟩ := (named digest).mp member
      exact absurd inside List.not_mem_nil
    · intro some
      obtain ⟨blob, member⟩ := List.exists_mem_of_ne_nil blobs some
      exact ⟨blob.digest, (named _).mpr ⟨blob, member, rfl⟩⟩
  have listed (name : Option String) :
      name ∈ seen.toList.map blobFileName ↔ ∃ blob ∈ blobs, blobFileName blob.digest = name := by
    simp only [List.mem_map, Std.TreeSet.mem_toList, named]
    constructor
    · rintro ⟨digest, ⟨blob, member, rfl⟩, same⟩
      exact ⟨blob, member, same⟩
    · rintro ⟨blob, member, same⟩
      exact ⟨blob.digest, ⟨blob, member, rfl⟩, same⟩
  rw [not_and, nonempty, Bool.not_eq_false, sameNames_iff]
  refine imp_congr_right fun _ => ?_
  simp only [listed]
  refine and_iff_left ?_
  rintro name ⟨blob, member, rfl⟩
  obtain ⟨name, valid, there⟩ := Option.bind_eq_some_iff.mp (stored blob member)
  exact ⟨name, Lookup.mem_keys_iff.mpr ⟨_, there⟩, valid⟩

theorem checkUnavailable_ok {issues : List Value} {u : Unit} : checkUnavailable issues = .ok u ↔ issues = [] := by
  cases issues <;> simp [checkUnavailable]

theorem checkSources_ok {sources : List Value} {u : Unit} : sources.forM (checkSource referenceMap) = .ok u ↔
    ∀ source ∈ sources, isAvailable source = true → ∃ named, Names "content_digest" source named ∧
      referenceMap[named.1]? = some named.2 := by
  rw [show u = () from rfl, forM_eq_ok]
  exact forall₂_congr fun source _ => checkSource_ok

theorem verifyBundle_ok {manifest : Value} {references : List Value} {blobs : List VerifiedBlob} :
    verifyBundle root notFound package manifest references = .ok blobs ↔
      ∃ bundle files sources listed, object? manifest "artifact_bundle" = some bundle ∧
        bundle.getString? "format" = some format ∧ array? bundle "unavailable_blobs" = some [] ∧
        array? bundle "blobs" = some files ∧ files.length = references.length ∧
        List.Forall₂ (fun value reference => Names "blob_digest" value reference ∧
          (blobFileName reference.1).isSome = true) references listed ∧ (listed.map Prod.fst).Nodup ∧
        array? manifest "referenced_sources" = some sources ∧
        (∀ source ∈ sources, isAvailable source = true →
          ∃ named, Names "content_digest" source named ∧ named ∈ listed) ∧
        List.Forall₂ (Accepts package (listed.foldl insertReference ∅)) files blobs ∧
        (blobs.map VerifiedBlob.digest).Nodup ∧ (blobs.map (·.bytes.length)).sum ≤ maxTotalBytes ∧
        (blobs ≠ [] → ∀ name ∈ package.keys, ∃ blob ∈ blobs, blobFileName blob.digest = some name) := by
  have indexed {listed : List (String × ℕ)} (distinct : (listed.map Prod.fst).Nodup) :
      (∀ named : String × ℕ, (listed.foldl insertReference ∅)[named.1]? = some named.2 ↔ named ∈ listed) ∧
        (listed.foldl insertReference ∅).size = listed.length := by
    obtain ⟨lookup, size⟩ := @foldl_references ∅ listed distinct (by simp)
    exact ⟨fun named => by simp [lookup], by simp [size]⟩
  have pushed {blobs : List VerifiedBlob} (distinct : (blobs.map VerifiedBlob.digest).Nodup) :=
    @foldl_push blobs ⟨[], ∅, 0⟩ distinct fun _ _ => by simp
  rw [verifyBundle]
  simp only [bind_eq_ok, found_ok, refuse_eq_ok, not_not, checkUnavailable_ok, indexReferences_ok, verifyFiles_ok,
    checkSources_ok]
  constructor
  · rintro ⟨bundle, object, -, rightFormat, issues, unavailable, -, rfl, files, entries, -, lengths, -, -, referenceMap,
      ⟨listed, references, distinct, rfl⟩, sources, available, -, matched, s, ⟨blobs', accepted, ⟨apart, within⟩, rfl⟩,
      -, -, -, only, done⟩
    obtain ⟨verified, seen, -⟩ := pushed apart
    have same : blobs' = blobs := by
      rw [← Except.ok.inj done, verified, List.nil_append]
    subst same
    refine ⟨bundle, files, sources, listed, object, rightFormat, unavailable, entries, lengths, references, distinct,
      available, ?_, accepted, apart, within, ?_⟩
    · simpa only [(indexed distinct).1] using matched
    · refine (listing_ok (fun digest => by simp [seen]) fun blob member => ?_).mp only
      obtain ⟨file, -, fits⟩ := exists_partner accepted blob member
      exact fits.stored
  · rintro ⟨bundle, files, sources, listed, object, rightFormat, unavailable, entries, lengths, references, distinct,
      available, matched, accepted, apart, within, only⟩
    obtain ⟨verified, seen, size⟩ := pushed apart
    have stored (blob : VerifiedBlob) (member : blob ∈ blobs) :
        (blobFileName blob.digest).bind (package[·]?) = some blob.bytes := by
      obtain ⟨file, -, fits⟩ := exists_partner accepted blob member
      exact fits.stored
    refine ⟨bundle, object, (), rightFormat, [], unavailable, (), rfl, files, entries, (), lengths, (), ?_, _,
      ⟨listed, references, distinct, rfl⟩, sources, available, (), ?_, _, ⟨blobs, accepted, ⟨apart, within⟩, rfl⟩, (), ?_,
      (), ?_, ?_⟩
    · rintro ⟨some, empty⟩
      cases accepted with
      | nil => cases some
      | cons fits _ =>
        obtain ⟨name, -, there⟩ := Option.bind_eq_some_iff.mp fits.stored
        have inside := Lookup.contains_iff.mpr ⟨_, there⟩
        rw [Std.TreeMap.isEmpty_eq_false_of_contains inside] at empty
        cases empty
    · simpa only [(indexed distinct).1] using matched
    · rw [size, (indexed distinct).2, ← references.length_eq, ← lengths, accepted.length_eq]
      simp
    · exact (listing_ok (fun digest => by simp [seen]) stored).mpr only
    · rw [verified, List.nil_append]
      rfl

end Loops

section Exactness

variable {root notFound : String} {package : Package}

theorem exists_read {α β : Type} {R : α → β → Prop} {l : List α} (each : ∀ a ∈ l, ∃ b, R a b) :
    ∃ bs, List.Forall₂ R l bs := by
  induction l with
  | nil => exact ⟨[], .nil⟩
  | cons a rest ih =>
    rw [List.forall_mem_cons] at each
    obtain ⟨b, read⟩ := each.1
    obtain ⟨bs, others⟩ := ih each.2
    exact ⟨b :: bs, .cons read others⟩

theorem read_and {α β : Type} {R : α → β → Prop} {p : β → Prop} {l : List α} {r : List β}
    (read : List.Forall₂ R l r) (all : ∀ b ∈ r, p b) : List.Forall₂ (fun a b => R a b ∧ p b) l r := by
  induction read with
  | nil => exact .nil
  | cons here _ ih =>
    rw [List.forall_mem_cons] at all
    exact .cons ⟨here, all.1⟩ (ih all.2)

def blobOf (package : Package) (entry : BundleEntry) : VerifiedBlob :=
  ⟨entry.digest, ((blobFileName entry.digest).bind (package[·]?)).getD []⟩

def entryOf (blob : VerifiedBlob) : BundleEntry :=
  ⟨blob.digest, blob.bytes.length, (canonicalPackagePath blob.digest).getD "", blob.digest⟩

theorem canonicalPackagePath_of_stored {digest : String} {bytes : List UInt8}
    (stored : (blobFileName digest).bind (package[·]?) = some bytes) :
    canonicalPackagePath digest = some ((canonicalPackagePath digest).getD "") := by
  obtain ⟨name, valid, -⟩ := Option.bind_eq_some_iff.mp stored
  rw [canonicalPackagePath, valid]
  rfl

theorem verifyBundle_intact {manifest : Value} {references : List Value} {blobs : List VerifiedBlob}
    (readable : array? manifest "referenced_blobs" = some references) :
    verifyBundle root notFound package manifest references = .ok blobs ↔
      ∃ listed, ReadsManifest manifest listed ∧ Intact package listed ∧ blobs = listed.entries.map (blobOf package) := by
  rw [verifyBundle_ok]
  constructor
  · rintro ⟨bundle, files, values, listed, object, rightFormat, unavailable, entries, lengths, read, distinct, available,
      matched, accepted, apart, within, only⟩
    have fits (blob : VerifiedBlob) (member : blob ∈ blobs) :
        ∃ file, Accepts package (listed.foldl insertReference ∅) file blob := by
      obtain ⟨file, -, fits⟩ := exists_partner accepted blob member
      exact ⟨file, fits⟩
    have sources : ∀ source ∈ values.filter isAvailable, ∃ named, Names "content_digest" source named ∧ named ∈ listed := by
      intro source member
      rw [List.mem_filter] at member
      exact matched source member.1 member.2
    obtain ⟨named, readSources⟩ := exists_read sources
    refine ⟨⟨listed, blobs.map entryOf, [], named⟩, ⟨⟨references, readable, read.imp fun _ _ both => both.1⟩, ?_, ?_⟩,
      ⟨rfl, distinct, ?_, ?_, ?_, ?_, ?_, ?_, ?_, ?_⟩, ?_⟩
    · refine ⟨bundle, files, object, rightFormat, unavailable, entries, ?_⟩
      rw [List.forall₂_map_right_iff]
      exact accepted.imp fun _ _ fits => fits.entry
    · exact ⟨values, available, readSources.imp fun _ _ both => both.1⟩
    · intro reference member
      obtain ⟨value, -, both⟩ := exists_partner read reference member
      exact both.2
    · rw [List.map_map]
      refine (List.subperm_of_subset ?_ ?_).perm_of_length_le ?_
      · refine List.Nodup.of_map Prod.fst ?_
        rwa [List.map_map]
      · intro named member
        obtain ⟨blob, inside, rfl⟩ := List.mem_map.mp member
        obtain ⟨file, fits⟩ := fits blob inside
        rcases ((@foldl_references ∅ listed distinct (by simp)).1 _ _).mp fits.referenced with early | inside
        · simp at early
        · exact inside
      · rw [List.length_map, ← accepted.length_eq, lengths, read.length_eq]
    · rw [List.forall_mem_map]
      intro blob member
      obtain ⟨file, fits⟩ := fits blob member
      exact canonicalPackagePath_of_stored fits.stored
    · rw [List.forall_mem_map]
      exact fun _ _ => rfl
    · rw [List.forall_mem_map]
      intro blob member
      obtain ⟨file, fits⟩ := fits blob member
      exact ⟨blob.bytes, fits.stored, rfl, fits.hashed⟩
    · rw [List.map_map]
      exact within
    · intro some name member
      rw [ne_eq, List.map_eq_nil_iff] at some
      obtain ⟨blob, inside, same⟩ := only some name member
      exact ⟨entryOf blob, List.mem_map_of_mem inside, same⟩
    · intro source member
      obtain ⟨value, -, both⟩ := exists_partner readSources source member
      exact both.2
    · rw [List.map_map]
      refine (List.map_congr_left fun blob member => ?_).trans (List.map_id blobs) |>.symm
      obtain ⟨file, fits⟩ := fits blob member
      rw [Function.comp_apply, blobOf, entryOf, fits.stored]
      rfl
  · rintro ⟨⟨listed, entries, unavailable, named⟩, ⟨⟨references', readable', read⟩, ⟨bundle, files, object, rightFormat,
      nothing, filed, readEntries⟩, ⟨values, available, readSources⟩⟩, intact, rfl⟩
    obtain rfl := Option.some.inj (readable.symm.trans readable')
    obtain rfl : unavailable = [] := intact.packaged
    have sizes (entry : BundleEntry) (member : entry ∈ entries) :
        (blobOf package entry).bytes.length = entry.byteCount := by
      obtain ⟨bytes, stored, size, -⟩ := intact.files entry member
      rw [blobOf, stored, Option.getD_some, size]
    refine ⟨bundle, files, values, listed, object, rightFormat, nothing, filed, ?_, read_and read intact.valid,
      intact.distinct, available, ?_, ?_, ?_, ?_, ?_⟩
    · have lengths := intact.matched.length_eq
      rw [List.length_map] at lengths
      rw [readEntries.length_eq, lengths, read.length_eq]
    · intro source member here
      have inside : source ∈ values.filter isAvailable := List.mem_filter.mpr ⟨member, here⟩
      obtain ⟨pair, paired, names⟩ := exists_partner (List.Forall₂.flip (R := flip (Names "content_digest")) readSources)
        source inside
      exact ⟨pair, names, intact.sources pair paired⟩
    · rw [List.forall₂_map_right_iff]
      have all : ∀ entry ∈ entries, entry ∈ entries := fun _ => id
      refine (read_and readEntries all).imp fun file entry both => ?_
      obtain ⟨reads, member⟩ := both
      obtain ⟨bytes, stored, size, hashed⟩ := intact.files entry member
      have same : blobOf package entry = ⟨entry.digest, bytes⟩ := by
        rw [blobOf, stored, Option.getD_some]
      have placed := intact.paths entry member
      have copied := intact.contents entry member
      rw [same]
      refine ⟨⟨reads.digest, ?_, ?_, ?_⟩, stored, ?_, hashed⟩
      · rw [reads.byteCount, ← size]
      · rw [reads.packagePath, placed, Option.getD_some]
      · rw [reads.contentDigest, copied]
      · refine ((@foldl_references ∅ listed intact.distinct (by simp)).1 _ _).mpr (.inr ?_)
        rw [size]
        exact intact.matched.mem_iff.mp (List.mem_map_of_mem member)
    · have digests := (intact.matched.map Prod.fst).nodup_iff.mpr intact.distinct
      rw [List.map_map] at digests ⊢
      exact digests
    · rw [List.map_map]
      refine le_of_eq_of_le (congrArg List.sum (List.map_congr_left fun entry member => ?_)) intact.total
      exact sizes entry member
    · intro some name member
      rw [ne_eq, List.map_eq_nil_iff] at some
      obtain ⟨entry, inside, same⟩ := intact.only some name member
      exact ⟨blobOf package entry, List.mem_map_of_mem inside, same⟩

theorem verifyPackageBlobs_version {manifest : Value} {blobs : List VerifiedBlob}
    (version : u64? manifest "format_version" = some 3) :
    verifyPackageBlobs root notFound package manifest = .ok blobs ↔
      ∃ listed, ReadsManifest manifest listed ∧ Intact package listed ∧ blobs = listed.entries.map (blobOf package) := by
  rw [verifyPackageBlobs, version]
  change (found (array? manifest "referenced_blobs") _ >>= _) = _ ↔ _
  rw [bind_eq_ok]
  constructor
  · rintro ⟨references, readable, verified⟩
    rw [if_neg (by decide), refuse_of_not (by decide)] at verified
    exact (verifyBundle_intact (found_ok.mp readable)).mp verified
  · rintro ⟨listed, reads, rest⟩
    obtain ⟨references, readable, -⟩ := reads.references
    refine ⟨references, found_ok.mpr readable, ?_⟩
    rw [if_neg (by decide), refuse_of_not (by decide)]
    exact (verifyBundle_intact readable).mpr ⟨listed, reads, rest⟩

end Exactness

end Boreal.Backup
