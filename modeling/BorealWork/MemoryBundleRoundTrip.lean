/- Backups of a memory root read back: the envelope holds what was captured and nothing else, and a
capture is restorable exactly when the decoder's rules for repositories hold of it. -/
import BorealWork.ManifestIdentity
import BorealWork.MemoryBundles

namespace Boreal.Memory
open Drain Formats Lines Readers Sorting
open Source (beBytes fromBeBytes utf8 fromUtf8 fromBeBytes_beBytes length_beBytes length_utf8
  fromUtf8_utf8 length_utf8_contentDigest)
open WorkModel (isControl)

variable {formats : Format MemoryBundleMetadata} {position : ℕ} {rest : List UInt8}

theorem steady_takeMemoryBytes (count : ℕ) : Steady (takeMemoryBytes count) := steady_take _ _ count

theorem steady_takeMemoryNumber (width : ℕ) : Steady (takeMemoryNumber width) :=
  (steady_takeMemoryBytes width).bind fun _ => steady_pure _

theorem steady_takeMemoryText (count : ℕ) (message : String) : Steady (takeMemoryText count message) :=
  (steady_takeMemoryBytes count).bind fun _ => steady_settle _

theorem steady_takeFiles (records : List MemoryBundleFileMetadata) (last : Option String) (total : ℕ) :
    Steady (takeFiles records last total) := by
  induction records generalizing last total with
  | nil => exact steady_pure _
  | cons record records ih =>
    refine (steady_settle _).bind fun _ => (steady_settle _).bind fun _ => ?_
    refine (steady_takeMemoryNumber 4).bind fun _ => (steady_takeMemoryText _ _).bind fun _ => ?_
    refine (steady_takeMemoryText _ _).bind fun _ => (steady_takeMemoryNumber 8).bind fun _ => ?_
    refine (steady_takeMemoryBytes _).bind fun _ => (steady_settle _).bind fun _ => ?_
    exact (steady_settle _).bind fun _ => (ih _ _).bind fun _ => steady_pure _

theorem steady_takeGitBundle (total : ℕ) : Steady (takeGitBundle total) := by
  refine (steady_takeMemoryBytes 1).bind fun marker => ?_
  split_ifs
  · exact steady_pure _
  · refine (steady_takeMemoryText _ _).bind fun _ => (steady_takeMemoryNumber 8).bind fun _ => ?_
    refine (steady_takeMemoryBytes _).bind fun _ => (steady_settle _).bind fun _ => ?_
    exact (steady_settle _).bind fun _ => steady_pure _
  · exact steady_settle _

theorem steady_readMemoryBundle : Steady (readMemoryBundle formats) := by
  refine (steady_takeMemoryBytes _).bind fun _ => (steady_settle _).bind fun _ => ?_
  refine (steady_takeMemoryNumber 8).bind fun _ => (steady_settle _).bind fun _ => ?_
  refine (steady_takeMemoryBytes _).bind fun _ => (steady_takeMemoryBytes _).bind fun _ => ?_
  refine (steady_settle _).bind fun _ => (steady_settle _).bind fun _ => ?_
  refine (steady_settle _).bind fun _ => (steady_takeMemoryNumber 4).bind fun _ => ?_
  refine (steady_settle _).bind fun _ => (steady_takeFiles _ _ _).bind fun _ => ?_
  exact (steady_takeGitBundle _).bind fun _ => steady_pure _

theorem takeMemoryBytes_append {count : ℕ} {bytes : List UInt8} (length : bytes.length = count)
    (fits : position + count < 2 ^ 64) :
    takeMemoryBytes count ⟨position, bytes ++ rest⟩ = .ok (bytes, ⟨position + count, rest⟩) :=
  take_append length fits

theorem takeMemoryNumber_append {width number : ℕ} (narrow : number < 256 ^ width)
    (fits : position + width < 2 ^ 64) :
    takeMemoryNumber width ⟨position, beBytes width number ++ rest⟩ =
      .ok (number, ⟨position + width, rest⟩) := by
  refine bind_run.mpr ⟨_, _, takeMemoryBytes_append (length_beBytes width number) fits, ?_⟩
  rw [fromBeBytes_beBytes narrow]
  rfl

theorem takeMemoryText_append {count : ℕ} {text message : String} (length : (utf8 text).length = count)
    (fits : position + count < 2 ^ 64) :
    takeMemoryText count message ⟨position, utf8 text ++ rest⟩ =
      .ok (text, ⟨position + count, rest⟩) := by
  refine bind_run.mpr ⟨_, _, takeMemoryBytes_append length fits, ?_⟩
  rw [fromUtf8_utf8]
  rfl

theorem settle_ok {x : Except MemoryError Unit} (settled : x = .ok ()) (cursor : Cursor) :
    settle x cursor = .ok ((), cursor) := settle_run.mpr ⟨settled, rfl⟩

theorem length_utf8_digest (bytes : List UInt8) : (utf8 (digest bytes)).length = 71 :=
  length_utf8_contentDigest bytes

def fileBytes (file : MemoryBundleFile) : List UInt8 :=
  beBytes 4 file.path.utf8ByteSize ++ (utf8 file.path ++ (utf8 (digest file.bytes) ++
    (beBytes 8 file.bytes.length ++ file.bytes)))

def payload (files : List MemoryBundleFile) : ℕ := (files.map (·.bytes.length)).sum

structure Collected (files : List MemoryBundleFile) : Prop where
  valid : ∀ file ∈ files, validateMemoryBundlePath file.path = .ok ()
  ascending : files.Pairwise (·.path < ·.path)

theorem encodeFiles_eq_ok {output bytes : List UInt8} {files : List MemoryBundleFile}
    (encoded : encodeFiles output files = .ok bytes) :
    bytes = output ++ files.flatMap fileBytes ∧
      ∀ file ∈ files, file.path.utf8ByteSize < 2 ^ 32 := by
  induction files generalizing output with
  | nil =>
    obtain rfl := Except.ok.inj encoded
    exact ⟨by simp, fun file none => absurd none List.not_mem_nil⟩
  | cons file files ih =>
    simp only [encodeFiles, check_eq_ok, refuse_eq_ok, not_lt] at encoded
    obtain ⟨narrow, _, later⟩ := encoded
    obtain ⟨rfl, others⟩ := ih later
    refine ⟨?_, List.forall_mem_cons.mpr ⟨by omega, others⟩⟩
    rw [List.flatMap_cons, fileBytes]
    simp only [List.append_assoc]

theorem payload_le (files : List MemoryBundleFile) : payload files ≤ (files.flatMap fileBytes).length := by
  induction files with
  | nil => exact le_rfl
  | cons file files ih =>
    rw [payload, List.map_cons, List.sum_cons, List.flatMap_cons, List.length_append, fileBytes]
    simp only [List.length_append]
    rw [payload] at ih
    omega

theorem takeFiles_append {files : List MemoryBundleFile} {last : Option String} {total : ℕ}
    (collected : Collected files) (narrow : ∀ file ∈ files, file.path.utf8ByteSize < 2 ^ 32)
    (after : ∀ path ∈ last, ∀ file ∈ files, path < file.path)
    (fits : position + (files.flatMap fileBytes).length < 2 ^ 64)
    (bounded : total + payload files < 2 ^ 64) :
    takeFiles (files.map MemoryBundleFile.record) last total
        ⟨position, files.flatMap fileBytes ++ rest⟩ =
      .ok ((files, total + payload files), ⟨position + (files.flatMap fileBytes).length, rest⟩) := by
  induction files generalizing last total position with
  | nil => rfl
  | cons file files ih =>
    rw [List.forall_mem_cons] at narrow
    have digestSize := length_utf8_digest file.bytes
    have pathSize := length_utf8 file.path
    rw [payload, List.map_cons, List.sum_cons] at bounded
    have size : (List.flatMap fileBytes (file :: files)).length =
        4 + file.path.utf8ByteSize + 71 + 8 + file.bytes.length + (files.flatMap fileBytes).length := by
      rw [List.flatMap_cons, List.length_append, fileBytes]
      simp only [List.length_append, length_beBytes, digestSize, pathSize]
      omega
    rw [size] at fits ⊢
    obtain ⟨first, ascending⟩ := List.pairwise_cons.mp collected.ascending
    have later : Collected files :=
      ⟨fun other member => collected.valid other (List.mem_cons_of_mem _ member), ascending⟩
    have next : ∀ path ∈ some file.path, ∀ other ∈ files, path < other.path := by
      intro path same other member
      cases same
      exact first other member
    have sorted : refuse (last.any (file.path ≤ ·) = true)
        (MemoryError.invalidBundle "memory paths are duplicated or not sorted") = .ok () := by
      refine refuse_of_not ?_
      rw [Bool.not_eq_true, Option.any_eq_false]
      intro path same
      exact decide_eq_false (not_le.mpr (after path same file List.mem_cons_self))
    have own : refuse (file.path ≠ file.record.path ∨ digest file.bytes ≠ file.record.digest ∨
          file.bytes.length ≠ file.record.byteCount ∨ digest file.bytes ≠ digest file.bytes)
        (MemoryError.invalidBundle "memory file identity or checksum does not match its manifest") =
          .ok () :=
      refuse_of_not (by simp [MemoryBundleFile.record])
    simp only [List.map_cons, List.flatMap_cons, fileBytes, List.append_assoc, takeFiles]
    refine bind_run.mpr ⟨(), _, settle_ok (collected.valid file List.mem_cons_self) _, ?_⟩
    refine bind_run.mpr ⟨(), _, settle_ok sorted _, ?_⟩
    refine bind_run.mpr ⟨_, _, takeMemoryNumber_append narrow.1 (by omega), ?_⟩
    refine bind_run.mpr ⟨_, _, takeMemoryText_append pathSize (by omega), ?_⟩
    refine bind_run.mpr ⟨_, _, takeMemoryText_append digestSize (by omega), ?_⟩
    refine bind_run.mpr ⟨_, _, takeMemoryNumber_append (by omega) (by omega), ?_⟩
    refine bind_run.mpr ⟨_, _, takeMemoryBytes_append rfl (by omega), ?_⟩
    refine bind_run.mpr ⟨(), _, settle_ok (refuse_of_not (by rw [usizeMax]; omega)) _, ?_⟩
    refine bind_run.mpr ⟨(), _, settle_ok own _, ?_⟩
    have tail : takeFiles (files.map MemoryBundleFile.record) (some file.path)
        (total + file.bytes.length) ⟨position + 4 + file.path.utf8ByteSize + 71 + 8 +
          file.bytes.length, files.flatMap fileBytes ++ rest⟩ = _ :=
      ih later narrow.2 next (by omega) (by rw [payload]; omega)
    refine bind_run.mpr ⟨_, _, tail, pure_run.mpr ?_⟩
    have sum : total + file.bytes.length + payload files = total + payload (file :: files) := by
      rw [payload, payload, List.map_cons, List.sum_cons, Nat.add_assoc]
    have place : position + 4 + file.path.utf8ByteSize + 71 + 8 + file.bytes.length +
        (files.flatMap fileBytes).length = position + (4 + file.path.utf8ByteSize + 71 + 8 +
          file.bytes.length + (files.flatMap fileBytes).length) := by omega
    rw [sum, place]

theorem encodeGitBundle_length_pos (bundle : Option (List UInt8)) :
    (bundle.elim 0 List.length) ≤ (encodeGitBundle bundle).length := by
  cases bundle with
  | none => exact Nat.zero_le _
  | some bundle =>
    rw [encodeGitBundle, List.length_cons, List.length_append]
    change bundle.length ≤ _
    omega

theorem encodeGitBundle_some_length (bundle : List UInt8) :
    (encodeGitBundle (some bundle)).length = 1 + 71 + 8 + bundle.length := by
  rw [encodeGitBundle, List.length_cons]
  simp only [List.length_append, length_beBytes, length_utf8_digest bundle]
  omega

theorem takeGitBundle_append {total : ℕ} (bundle : Option (List UInt8))
    (fits : position + (encodeGitBundle bundle).length < 2 ^ 64)
    (bounded : total + bundle.elim 0 List.length < 2 ^ 64) :
    ∃ final, takeGitBundle total ⟨position, encodeGitBundle bundle⟩ =
      .ok ((bundle, total + bundle.elim 0 List.length), ⟨final, []⟩) := by
  cases bundle with
  | none =>
    have marker : takeMemoryBytes 1 ⟨position, [0] ++ []⟩ = .ok ([0], ⟨position + 1, []⟩) :=
      takeMemoryBytes_append rfl fits
    exact ⟨position + 1, bind_run.mpr ⟨_, _, marker, rfl⟩⟩
  | some bundle =>
    have digestSize := length_utf8_digest bundle
    rw [encodeGitBundle_some_length] at fits
    have marker : takeMemoryBytes 1 ⟨position, encodeGitBundle (some bundle)⟩ =
        .ok ([1], ⟨position + 1, utf8 (digest bundle) ++ (beBytes 8 bundle.length ++ bundle)⟩) := by
      have split : encodeGitBundle (some bundle) =
          [1] ++ (utf8 (digest bundle) ++ (beBytes 8 bundle.length ++ bundle)) := by
        rw [encodeGitBundle, List.append_assoc]
        rfl
      rw [split]
      exact takeMemoryBytes_append rfl (by omega)
    have whole := @takeMemoryBytes_append (position + 1 + 71 + 8) [] _ bundle rfl (by omega)
    rw [List.append_nil] at whole
    refine ⟨position + 1 + 71 + 8 + bundle.length, bind_run.mpr ⟨_, _, marker, ?_⟩⟩
    change takeGitHistory total _ = _
    refine bind_run.mpr ⟨_, _, takeMemoryText_append digestSize (by omega), ?_⟩
    refine bind_run.mpr ⟨_, _, takeMemoryNumber_append (by omega) (by omega), ?_⟩
    refine bind_run.mpr ⟨_, _, whole, ?_⟩
    refine bind_run.mpr ⟨(), _, settle_ok (refuse_of_not ?_) _, ?_⟩
    · rw [usizeMax]
      change total + bundle.length < 2 ^ 64 at bounded
      omega
    · exact bind_run.mpr ⟨(), _, settle_ok (refuse_of_not (not_not.mpr rfl)) _, rfl⟩

/-- What a capture writes into the metadata. -/
structure Described (snapshot : MemorySnapshot) : Prop where
  checked : validateMetadata snapshot.metadata = .ok ()
  records : snapshot.metadata.files = snapshot.files.map MemoryBundleFile.record

/-- What is read of a snapshot. -/
def MemorySnapshot.decoded (snapshot : MemorySnapshot) : DecodedMemoryBundle where
  metadata := snapshot.metadata
  files := snapshot.files
  gitBundle := snapshot.gitBundle
  totalBytes := payload snapshot.files + snapshot.gitBundle.elim 0 List.length

theorem readMemoryBundle_encodeMemoryBundle {snapshot : MemorySnapshot} {bytes : List UInt8}
    (described : Described snapshot) (collected : Collected snapshot.files)
    (encoded : encodeMemoryBundle formats snapshot = .ok bytes) :
    bytes.length ≤ maxMemoryBundleBytes ∧ snapshot.decoded.totalBytes ≤ bytes.length ∧
      ∃ next, readMemoryBundle formats (.start bytes) = .ok (snapshot.decoded, next) ∧
        next.rest = [] := by
  simp only [encodeMemoryBundle, bind_eq_ok, refuse_eq_ok, not_lt] at encoded
  obtain ⟨_, few, _, small, output, written, _, bounded, same⟩ := encoded
  obtain rfl := Except.ok.inj same
  obtain ⟨rfl, narrow⟩ := encodeFiles_eq_ok written
  have magic : memoryBundleMagic.length = 24 := by decide
  have digestSize := length_utf8_digest (formats.toVec snapshot.metadata)
  have size : (memoryBundleMagic ++ beBytes 8 (formats.toVec snapshot.metadata).length ++
      formats.toVec snapshot.metadata ++ utf8 (digest (formats.toVec snapshot.metadata)) ++
      beBytes 4 snapshot.files.length ++ snapshot.files.flatMap fileBytes ++
      encodeGitBundle snapshot.gitBundle).length =
      24 + 8 + (formats.toVec snapshot.metadata).length + 71 + 4 +
        (snapshot.files.flatMap fileBytes).length + (encodeGitBundle snapshot.gitBundle).length := by
    simp only [List.length_append, length_beBytes, digestSize, magic]
  have paid := payload_le snapshot.files
  have history := encodeGitBundle_length_pos snapshot.gitBundle
  have bounded' := bounded
  rw [size, maxMemoryBundleBytes] at bounded'
  rw [maxMemoryBundleFiles] at few
  refine ⟨bounded, ?_, ?_⟩
  · rw [size, MemorySnapshot.decoded]
    dsimp only
    omega
  have files := @takeFiles_append (24 + 8 + (formats.toVec snapshot.metadata).length + (7 + 64) + 4)
    (encodeGitBundle snapshot.gitBundle) snapshot.files none 0 collected narrow
    (fun _ last => absurd last (Option.not_mem_none _)) (by omega) (by omega)
  obtain ⟨final, git⟩ := @takeGitBundle_append (24 + 8 + (formats.toVec snapshot.metadata).length +
    (7 + 64) + 4 + (snapshot.files.flatMap fileBytes).length) (0 + payload snapshot.files)
    snapshot.gitBundle (by omega) (by omega)
  refine ⟨⟨final, []⟩, ?_, rfl⟩
  simp only [List.append_assoc, Cursor.start, readMemoryBundle]
  refine bind_run.mpr ⟨_, _, takeMemoryBytes_append rfl (by rw [magic]; decide), ?_⟩
  refine bind_run.mpr ⟨(), _, settle_ok (refuse_of_not (not_not.mpr rfl)) _, ?_⟩
  refine bind_run.mpr ⟨_, _, takeMemoryNumber_append (by omega) (by rw [magic]; decide), ?_⟩
  refine bind_run.mpr ⟨(), _, settle_ok (refuse_of_not (not_lt.mpr small)) _, ?_⟩
  refine bind_run.mpr ⟨_, _, takeMemoryBytes_append rfl (by rw [magic]; omega), ?_⟩
  refine bind_run.mpr ⟨_, _, takeMemoryBytes_append digestSize (by rw [magic]; omega), ?_⟩
  refine bind_run.mpr ⟨(), _, settle_ok (refuse_of_not (not_not.mpr rfl)) _, ?_⟩
  refine bind_run.mpr ⟨_, _, settle_run.mpr ⟨mapError_eq_ok.mpr (formats.fromSlice_toVec _), rfl⟩, ?_⟩
  refine bind_run.mpr ⟨(), _, settle_ok described.checked _, ?_⟩
  refine bind_run.mpr ⟨_, _, takeMemoryNumber_append (by omega) (by rw [magic]; omega), ?_⟩
  have count : ¬ (maxMemoryBundleFiles < snapshot.files.length ∨
      snapshot.files.length ≠ snapshot.metadata.files.length) := by
    rw [described.records, List.length_map, maxMemoryBundleFiles]
    omega
  refine bind_run.mpr ⟨(), _, settle_ok (refuse_of_not count) _, ?_⟩
  rw [described.records]
  rw [magic, Nat.zero_add]
  refine bind_run.mpr ⟨_, _, files, ?_⟩
  refine bind_run.mpr ⟨_, _, git, pure_run.mpr ?_⟩
  simp only [MemorySnapshot.decoded, Nat.zero_add]

theorem decodeMemoryBundle_encoded {snapshot : MemorySnapshot} {bytes : List UInt8}
    (described : Described snapshot) (collected : Collected snapshot.files)
    (encoded : encodeMemoryBundle formats snapshot = .ok bytes) :
    decodeMemoryBundle formats bytes = (validateMemoryBundleManifest snapshot.metadata snapshot.files
      snapshot.gitBundle >>= fun _ => .ok snapshot.decoded) := by
  obtain ⟨bounded, total, next, read, used⟩ :=
    readMemoryBundle_encodeMemoryBundle described collected encoded
  have small : ¬ (next.rest ≠ [] ∨ maxMemoryBundleBytes < snapshot.decoded.totalBytes) := by
    rw [used, not_or, not_not, not_lt]
    exact ⟨rfl, total.trans bounded⟩
  rw [decodeMemoryBundle, refuse_of_not (not_lt.mpr bounded), ok_bind, read, ok_bind]
  dsimp only
  rw [refuse_of_not small, ok_bind]
  rfl

theorem truncated_rejected {snapshot : MemorySnapshot} {bytes : List UInt8}
    (described : Described snapshot) (collected : Collected snapshot.files)
    (encoded : encodeMemoryBundle formats snapshot = .ok bytes) {count : ℕ} (fewer : count < bytes.length) :
    ∃ error, decodeMemoryBundle formats (bytes.take count) = .error error := by
  obtain ⟨bounded, _, next, read, used⟩ :=
    readMemoryBundle_encodeMemoryBundle described collected encoded
  have missing : bytes.drop count ≠ [] := by
    rw [ne_eq, List.drop_eq_nil_iff]
    omega
  rw [← List.take_append_drop count bytes] at read
  obtain ⟨error, failed⟩ := steady_readMemoryBundle.shorter read used missing
  have short : ¬ maxMemoryBundleBytes < (bytes.take count).length := by
    rw [List.length_take]
    omega
  refine ⟨error, ?_⟩
  rw [decodeMemoryBundle, refuse_of_not short, ok_bind, failed]
  rfl

theorem appended_rejected {snapshot : MemorySnapshot} {bytes more : List UInt8}
    (described : Described snapshot) (collected : Collected snapshot.files)
    (encoded : encodeMemoryBundle formats snapshot = .ok bytes) (some_ : more ≠ []) :
    ∃ error, decodeMemoryBundle formats (bytes ++ more) = .error error := by
  obtain ⟨_, _, next, read, used⟩ := readMemoryBundle_encodeMemoryBundle described collected encoded
  have longer := steady_readMemoryBundle.longer read used more
  rw [decodeMemoryBundle]
  by_cases large : maxMemoryBundleBytes < (bytes ++ more).length
  · exact ⟨_, by rw [refuse, if_pos large]; rfl⟩
  · refine ⟨.invalidBundle "bundle has trailing data or exceeds its payload bound", ?_⟩
    rw [refuse_of_not large, ok_bind, longer, ok_bind]
    dsimp only
    rw [refuse, if_pos (.inl some_)]
    rfl

/-- What the documentation of the Git commands promises of their answers. -/
structure GitAnswers.Documented (git : GitAnswers) : Prop where
  /-- The prefix is a path below the top of the work tree. -/
  scope : ∀ text, git.showPrefix = .ok text →
    ((trimmed text).rdropWhile (· = '/')).head? ≠ some '/' ∧
      ∀ part ∈ ((trimmed text).rdropWhile (· = '/')).splitOn '/',
        part ≠ "..".toList ∧ part ≠ ".git".toList
  head : ∀ text, git.head = .ok text → ∀ oid ∈ present (trimmed text), validGitOid oid = true
  tree : ∀ expression text, git.tree expression = .ok text →
    ∀ oid ∈ present (trimmed text), validGitOid oid = true
  refs : ∀ text refs, git.forEachRef = .ok text → parseRefs text = .ok refs →
    ∀ reference ∈ refs, "refs/".toList <+: reference.name.toList ∧
      validGitOid reference.object = true

/-- A repository that the decoder takes back: its `HEAD` names a listed reference if it names one, and
no name holds a character that the decoder refuses. -/
structure Restorable (git : MemoryGitSnapshot) : Prop where
  scope : '\\' ∉ git.repositoryScope.toList
  names : ∀ reference ∈ git.refs, ∀ c ∈ reference.name.toList, isControl c = false
  head : ∀ reference ∈ git.headRef, ∃ entry ∈ git.refs, entry.name = reference

/-- What the documentation promises of a snapshot. -/
structure Plausible (git : MemoryGitSnapshot) : Prop where
  relative : git.repositoryScope.toList.head? ≠ some '/'
  inside : ∀ part ∈ git.repositoryScope.toList.splitOn '/', part ≠ "..".toList ∧ part ≠ ".git".toList
  refs : ∀ reference ∈ git.refs, "refs/".toList <+: reference.name.toList ∧
    validGitOid reference.object = true
  objects : ∀ oid ∈ git.headCommit.toList ++ git.tree.toList, validGitOid oid = true

theorem validateMemoryGitMetadata_eq_ok {git : MemoryGitSnapshot} (sound : Plausible git) :
    validateMemoryGitMetadata git = .ok () ↔ Restorable git := by
  simp only [validateMemoryGitMetadata, check_eq_ok, refuse_eq_ok, option_forM_eq_ok, forM_eq_ok,
    not_or, not_not, not_exists, not_and, Bool.not_eq_true, Bool.not_eq_false, List.any_eq_false]
  constructor
  · rintro ⟨⟨_, scope, _⟩, head, refs, _⟩
    refine ⟨scope, fun reference member c inside => ?_, fun reference member => ?_⟩
    · exact (refs reference member).2.1 c inside
    · by_contra unlisted
      exact (head reference member).2.2 fun entry listed same => unlisted ⟨entry, listed, same⟩
  · rintro ⟨scope, names, head⟩
    refine ⟨⟨sound.relative, scope, fun part member => ?_⟩, ?_, ?_, sound.objects⟩
    · exact ⟨(sound.inside part member).1, (sound.inside part member).2⟩
    · intro reference member
      obtain ⟨entry, listed, rfl⟩ := head reference member
      exact ⟨(sound.refs entry listed).1, names entry listed, fun none => none entry listed rfl⟩
    · intro reference member
      exact ⟨(sound.refs reference member).1, names reference member, (sound.refs reference member).2⟩

inductive GitCapture (layout : MemoryLayout) (git : GitAnswers) :
    Option MemoryGitSnapshot → Option (List UInt8) → Prop
  | absent : GitCapture layout git none none
  | repository {snapshot bundle} (digested : snapshot.bundleDigest = bundle.map digest)
      (carried : bundle.isSome = true ↔
        layout = .child ∧ (snapshot.headCommit.isSome = true ∨ snapshot.refs ≠ []))
      (sound : git.Documented → Plausible snapshot) : GitCapture layout git (some snapshot) bundle

theorem captureMemoryGit_eq_ok {layout : MemoryLayout} {git : GitAnswers}
    {snapshot : Option MemoryGitSnapshot} {bundle : Option (List UInt8)}
    (captured : captureMemoryGit layout git true = .ok (snapshot, bundle)) :
    GitCapture layout git snapshot bundle := by
  rw [captureMemoryGit] at captured
  obtain ⟨exists_, _, captured⟩ := bind_eq_ok.mp captured
  cases exists_ with
  | false =>
    obtain ⟨rfl, rfl⟩ := Prod.mk.inj (Except.ok.inj captured)
    exact .absent
  | true =>
    rw [if_pos rfl] at captured
    obtain ⟨prefixText, prefixed, captured⟩ := bind_eq_ok.mp captured
    obtain ⟨headText, head, captured⟩ := bind_eq_ok.mp captured
    obtain ⟨symbolicText, _, captured⟩ := bind_eq_ok.mp captured
    obtain ⟨tree, treed, captured⟩ := bind_eq_ok.mp captured
    obtain ⟨refsText, listed, captured⟩ := bind_eq_ok.mp captured
    obtain ⟨refs, parsed, captured⟩ := bind_eq_ok.mp captured
    obtain ⟨history, bundled, captured⟩ := bind_eq_ok.mp captured
    obtain ⟨rfl, rfl⟩ := Prod.mk.inj (Except.ok.inj captured)
    refine .repository rfl ?_ ?_
    · dsimp only
      simp only [true_and] at bundled
      split_ifs at bundled with carries
      · obtain ⟨bytes, _, rfl⟩ := map_eq_ok.mp bundled
        exact iff_of_true rfl carries
      · obtain rfl := Except.ok.inj bundled
        exact iff_of_false nofun carries
    · intro documented
      obtain ⟨relative, inside⟩ := documented.scope prefixText prefixed
      constructor
      · simpa only [String.toList_ofList] using relative
      · simpa only [String.toList_ofList] using inside
      · intro reference member
        exact documented.refs refsText refs listed parsed reference (mem_sortOn.mp member)
      · intro oid member
        rcases List.mem_append.mp member with commit | root
        · exact documented.head headText head oid (Option.mem_toList.mp commit)
        · dsimp only at root
          split_ifs at treed
          · obtain ⟨treeText, answered, rfl⟩ := map_eq_ok.mp treed
            exact documented.tree _ treeText answered oid (Option.mem_toList.mp root)
          · obtain rfl := Except.ok.inj treed
            cases root

theorem validateHistoryRecord_captured {layout : MemoryLayout} {git : GitAnswers}
    {metadata : MemoryBundleMetadata} {bundle : Option (List UInt8)}
    (named : metadata.layout = memoryLayoutName layout)
    (captured : GitCapture layout git metadata.git bundle)
    (valid : ∀ snapshot ∈ metadata.git, validateMemoryGitMetadata snapshot = .ok ()) :
    validateHistoryRecord metadata bundle = .ok () := by
  rw [validateHistoryRecord.eq_def, named]
  generalize metadata.git = snapshot at captured valid ⊢
  cases captured with
  | absent => cases layout <;> rfl
  | @repository snapshot bundle digested carried _ =>
    have own := valid snapshot rfl
    cases layout with
    | inRepo =>
      cases bundle with
      | none => exact own
      | some bundle => cases (carried.mp rfl).1
    | child =>
      cases bundle with
      | none =>
        have none_ : ¬ (snapshot.bundleDigest.isSome ∨ snapshot.headCommit.isSome ∨
            snapshot.refs ≠ []) := by
          rintro (digest | history)
          · rw [digested] at digest
            cases digest
          · exact absurd (carried.mpr ⟨rfl, history⟩) nofun
        exact (if_neg none_).trans own
      | some bundle =>
        have nonempty : ¬ (snapshot.refs = [] ∧ snapshot.headCommit = none) := by
          rintro ⟨refs, head⟩
          rcases (carried.mp rfl).2 with commit | some_
          · rw [head] at commit
            cases commit
          · exact some_ refs
        exact (if_pos digested).trans (refuse_of_not nonempty)

theorem manifestProject_ok {refused : String → MemoryError} (refused' : String → MemoryError)
    {file : MemoryBundleFile} {projectId : String} (read : manifestProject refused file = .ok projectId) :
    manifestProject refused' file = .ok projectId ∧ validateSegment projectId = .ok () := by
  rw [manifestProject] at read ⊢
  cases decoded : decodeText file.bytes with
  | none =>
    rw [decoded] at read
    cases read
  | some text =>
    rw [decoded] at read
    simp only [Option.elim_some, ok_bind] at read ⊢
    obtain ⟨manifest, parsed, same⟩ := bind_eq_ok.mp read
    obtain rfl := Except.ok.inj same
    have parsed := mapError_eq_ok.mp parsed
    refine ⟨by rw [parsed]; rfl, ?_⟩
    simp only [parseExistingManifest, bind_eq_ok, mapError_eq_ok, refuse_eq_ok] at parsed
    obtain ⟨record, _, built, entered, _, _, _, _, same⟩ := parsed
    obtain rfl := Except.ok.inj same
    obtain ⟨inner, accepted, same⟩ := bind_eq_ok.mp entered
    obtain rfl := Except.ok.inj same
    obtain ⟨⟨project, _⟩, rfl⟩ := withEntries_eq_ok.mp accepted
    exact project

structure CapturedSnapshot (layout : MemoryLayout) (git : GitAnswers) (files : List MemoryBundleFile)
    (snapshot : MemorySnapshot) : Prop where
  holds : snapshot.files = files
  named : snapshot.metadata.layout = memoryLayoutName layout
  history : GitCapture layout git snapshot.metadata.git snapshot.gitBundle
  manifest : validateManifestRecord snapshot.metadata files = .ok ()
  described : files.length ≤ maxMemoryBundleFiles → Described snapshot

theorem captureSnapshot_eq_ok {layout : MemoryLayout} {git : GitAnswers}
    {files : List MemoryBundleFile} {snapshot : MemorySnapshot}
    (captured : captureSnapshot layout files git = .ok snapshot) :
    CapturedSnapshot layout git files snapshot := by
  obtain ⟨⟨repository, bundle⟩, gitCaptured, captured⟩ := bind_eq_ok.mp captured
  obtain ⟨projectId, project, captured⟩ := bind_eq_ok.mp captured
  obtain rfl := Except.ok.inj captured
  have known : validateManifestRecord ⟨memoryBundleFormatV1, memoryLayoutName layout, projectId,
        (manifestFile files).map fun file => digest file.bytes, files.map MemoryBundleFile.record,
        repository⟩ files = .ok () ∧
      ∀ named ∈ projectId, validateSegment named = .ok () := by
    rw [captureProject] at project
    rw [validateManifestRecord]
    cases found : manifestFile files with
    | none =>
      rw [found] at project
      obtain rfl := Except.ok.inj project
      exact ⟨refuse_of_not (by simp), nofun⟩
    | some file =>
      rw [found] at project
      obtain ⟨named, read, rfl⟩ := map_eq_ok.mp project
      obtain ⟨again, valid⟩ := manifestProject_ok .invalidBundle read
      refine ⟨?_, fun other same => Option.some.inj same ▸ valid⟩
      dsimp only
      rw [again, ok_bind]
      exact refuse_of_not (by simp)
  refine ⟨rfl, rfl, captureMemoryGit_eq_ok gitCaptured, known.1, fun few => ⟨?_, rfl⟩⟩
  have supported : ¬ (memoryBundleFormatV1 ≠ memoryBundleFormatV1 ∨
      (memoryLayoutName layout ≠ "child" ∧ memoryLayoutName layout ≠ "in-repo") ∨
      maxMemoryBundleFiles < (files.map MemoryBundleFile.record).length) := by
    rw [List.length_map]
    rintro (other | ⟨first, second⟩ | many)
    · exact other rfl
    · cases layout
      · exact first rfl
      · exact second rfl
    · omega
  rw [validateMetadata, refuse_of_not supported, ok_bind, option_forM_eq_ok]
  intro named member
  exact mapError_eq_ok.mpr (known.2 named member)

/-- The bundle is decoded as what was captured, and no shorter or longer text is accepted. -/
structure BundleRoundTrips (formats : Format MemoryBundleMetadata) (snapshot : MemorySnapshot)
    (bytes : List UInt8) : Prop where
  decoded : decodeMemoryBundle formats bytes = .ok snapshot.decoded
  truncated : ∀ count < bytes.length,
    ∃ error, decodeMemoryBundle formats (bytes.take count) = .error error
  appended : ∀ more ≠ [], ∃ error, decodeMemoryBundle formats (bytes ++ more) = .error error

/-- A captured bundle makes the round trip exactly when its repository, if there is one, is
restorable. -/
theorem memory_bundles_round_trip_iff {layout : MemoryLayout} {git : GitAnswers}
    {files : List MemoryBundleFile} {snapshot : MemorySnapshot} {bytes : List UInt8}
    (documented : git.Documented) (collected : Collected files)
    (captured : captureSnapshot layout files git = .ok snapshot)
    (encoded : encodeMemoryBundle formats snapshot = .ok bytes) :
    BundleRoundTrips formats snapshot bytes ↔
      ∀ repository ∈ snapshot.metadata.git, Restorable repository := by
  obtain ⟨rfl, named, gitCaptured, manifest, described⟩ := captureSnapshot_eq_ok captured
  have few : snapshot.files.length ≤ maxMemoryBundleFiles := by
    simp only [encodeMemoryBundle, bind_eq_ok, refuse_eq_ok, not_lt] at encoded
    exact encoded.choose_spec.1
  have described := described few
  have sound : ∀ repository ∈ snapshot.metadata.git, Plausible repository := by
    intro repository member
    generalize snapshot.metadata.git = captured, snapshot.gitBundle = history at gitCaptured member
    cases gitCaptured with
    | absent => cases member
    | repository _ _ sound =>
      cases member
      exact sound documented
  have validated : validateMemoryBundleManifest snapshot.metadata snapshot.files snapshot.gitBundle =
      .ok () ↔ ∀ repository ∈ snapshot.metadata.git, Restorable repository := by
    have each : (∀ repository ∈ snapshot.metadata.git, validateMemoryGitMetadata repository = .ok ()) ↔
        ∀ repository ∈ snapshot.metadata.git, Restorable repository :=
      forall₂_congr fun repository member => validateMemoryGitMetadata_eq_ok (sound repository member)
    rw [validateMemoryBundleManifest, check_eq_ok, check_eq_ok, option_forM_eq_ok, ← each]
    constructor
    · rintro ⟨_, _, valid⟩
      exact valid
    · intro valid
      exact ⟨manifest, validateHistoryRecord_captured named gitCaptured valid, valid⟩
  have decodes := decodeMemoryBundle_encoded described collected encoded
  rw [← validated]
  constructor
  · rintro ⟨decoded, _, _⟩
    rw [decodes] at decoded
    exact (check_eq_ok.mp decoded).1
  · intro valid
    refine ⟨?_, fun count => truncated_rejected described collected encoded,
      fun more => appended_rejected described collected encoded⟩
    rw [decodes, valid]
    rfl

/-- What Git prints of a standalone repository with one commit on its branch. -/
def committedRepository : GitAnswers where
  repository := .ok true
  showPrefix := .ok "\n"
  head := .ok "1f0c2a6d3b4e5f60718293a4b5c6d7e8f9012345\n"
  symbolicRef := .ok "refs/heads/main\n"
  tree _ := .ok "2a0c2a6d3b4e5f60718293a4b5c6d7e8f9012345\n"
  forEachRef := .ok "refs/heads/main\x001f0c2a6d3b4e5f60718293a4b5c6d7e8f9012345\n"
  bundle := .ok [80, 65, 67, 75]

/-- The same repository before its first commit. -/
def unbornRepository : GitAnswers where
  repository := .ok true
  showPrefix := .ok "\n"
  head := .ok ""
  symbolicRef := .ok "refs/heads/main\n"
  tree _ := .ok ""
  forEachRef := .ok ""
  bundle := .error (.io "refusing to create empty bundle")

def readmeFiles : List MemoryBundleFile := [⟨"README.md", [35, 10]⟩]

theorem committedRepository_documented : committedRepository.Documented where
  scope text answered := by
    obtain rfl := Except.ok.inj answered
    decide
  head text answered := by
    obtain rfl := Except.ok.inj answered
    decide
  tree _ text answered := by
    obtain rfl := Except.ok.inj answered
    decide
  refs text refs answered parsed := by
    obtain rfl := Except.ok.inj answered
    have read : parseRefs "refs/heads/main\x001f0c2a6d3b4e5f60718293a4b5c6d7e8f9012345\n" =
        .ok [⟨"refs/heads/main", "1f0c2a6d3b4e5f60718293a4b5c6d7e8f9012345"⟩] := by rfl
    obtain rfl := Except.ok.inj (read.symm.trans parsed)
    decide

def standaloneSnapshot (git : MemoryGitSnapshot) (bundle : Option (List UInt8)) : MemorySnapshot where
  metadata := {
    format := memoryBundleFormatV1
    layout := "child"
    projectId := none
    manifestIdentity := none
    files := readmeFiles.map MemoryBundleFile.record
    git := git }
  files := readmeFiles
  gitBundle := bundle

def committedSnapshot : MemorySnapshot :=
  standaloneSnapshot
    ⟨"", some "1f0c2a6d3b4e5f60718293a4b5c6d7e8f9012345", some "refs/heads/main",
      some "2a0c2a6d3b4e5f60718293a4b5c6d7e8f9012345",
      [⟨"refs/heads/main", "1f0c2a6d3b4e5f60718293a4b5c6d7e8f9012345"⟩], some (digest [80, 65, 67, 75])⟩
    (some [80, 65, 67, 75])

def unbornSnapshot : MemorySnapshot :=
  standaloneSnapshot ⟨"", none, some "refs/heads/main", none, [], none⟩ none

theorem encoded_of_empty {snapshot : MemorySnapshot} (empty : formats.toVec snapshot.metadata = [])
    (few : snapshot.files.length ≤ maxMemoryBundleFiles) {bytes : List UInt8}
    (files : encodeFiles (memoryBundleMagic ++ beBytes 8 0 ++ [] ++ utf8 (digest []) ++
      beBytes 4 snapshot.files.length) snapshot.files = .ok bytes)
    (bounded : (bytes ++ encodeGitBundle snapshot.gitBundle).length ≤ maxMemoryBundleBytes) :
    encodeMemoryBundle formats snapshot = .ok (bytes ++ encodeGitBundle snapshot.gitBundle) := by
  simp only [encodeMemoryBundle, empty, refuse_eq_ok, bind_eq_ok, not_lt]
  exact ⟨(), few, (), Nat.zero_le _, bytes, files, (), bounded, rfl⟩

theorem committedSnapshot_captured :
    captureSnapshot .child readmeFiles committedRepository = .ok committedSnapshot := by rfl

theorem unbornSnapshot_captured :
    captureSnapshot .child readmeFiles unbornRepository = .ok unbornSnapshot := by rfl

theorem readmeFiles_collected : Collected readmeFiles where
  valid := by decide
  ascending := by decide

/-- The bytes of the bundle of `snapshot` when its metadata has the empty text. -/
def standaloneBytes (snapshot : MemorySnapshot) : List UInt8 :=
  memoryBundleMagic ++ beBytes 8 0 ++ [] ++ utf8 (digest []) ++ beBytes 4 snapshot.files.length ++
    snapshot.files.flatMap fileBytes

theorem standaloneBytes_fits (git : MemoryGitSnapshot) (bundle : Option (List UInt8)) :
    encodeFiles (memoryBundleMagic ++ beBytes 8 0 ++ [] ++ utf8 (digest []) ++
        beBytes 4 readmeFiles.length) readmeFiles = .ok (standaloneBytes (standaloneSnapshot git bundle)) ∧
      (standaloneBytes (standaloneSnapshot git bundle)).length ≤ 1024 := by
  have fits : encodeFiles (memoryBundleMagic ++ beBytes 8 0 ++ [] ++ utf8 (digest []) ++
        beBytes 4 readmeFiles.length) readmeFiles =
          .ok (standaloneBytes (standaloneSnapshot ⟨"", none, none, none, [], none⟩ none)) ∧
      (standaloneBytes (standaloneSnapshot ⟨"", none, none, none, [], none⟩ none)).length ≤ 1024 := by
    decide +kernel
  exact fits

theorem standaloneSnapshot_encoded (git : MemoryGitSnapshot) {bundle : Option (List UInt8)}
    (small : (encodeGitBundle bundle).length ≤ 1024) :
    encodeMemoryBundle (Format.favouring (standaloneSnapshot git bundle).metadata)
        (standaloneSnapshot git bundle) =
      .ok (standaloneBytes (standaloneSnapshot git bundle) ++ encodeGitBundle bundle) := by
  obtain ⟨files, length⟩ := standaloneBytes_fits git bundle
  have few : readmeFiles.length ≤ maxMemoryBundleFiles := by decide
  refine encoded_of_empty (Format.favouring_toVec _) few files ?_
  rw [List.length_append]
  exact le_trans (Nat.add_le_add length small) (by simp [maxMemoryBundleBytes])

theorem committedSnapshot_round_trips :
    BundleRoundTrips (Format.favouring committedSnapshot.metadata) committedSnapshot
      (standaloneBytes committedSnapshot ++ encodeGitBundle committedSnapshot.gitBundle) := by
  have small : (encodeGitBundle committedSnapshot.gitBundle).length ≤ 1024 :=
    le_of_eq_of_le (encodeGitBundle_some_length _) (by decide)
  refine (memory_bundles_round_trip_iff committedRepository_documented readmeFiles_collected
    committedSnapshot_captured (standaloneSnapshot_encoded _ small)).mpr ?_
  intro repository captured
  obtain rfl := Option.some.inj captured
  have plain : "refs/heads/main".toList.any isControl = false := by rfl
  constructor
  · simp
  · intro reference member
    obtain rfl := List.mem_singleton.mp member
    exact fun c inside => Bool.eq_false_iff.mpr (List.any_eq_false.mp plain c inside)
  · intro reference head
    exact ⟨_, List.mem_singleton_self _, Option.some.inj head⟩

theorem unbornSnapshot_refused :
    captureSnapshot .child readmeFiles unbornRepository = .ok unbornSnapshot ∧
      ∃ bytes, encodeMemoryBundle (Format.favouring unbornSnapshot.metadata) unbornSnapshot = .ok bytes ∧
        ¬ BundleRoundTrips (Format.favouring unbornSnapshot.metadata) unbornSnapshot bytes := by
  have encoded : encodeMemoryBundle (Format.favouring unbornSnapshot.metadata) unbornSnapshot = .ok _ :=
    standaloneSnapshot_encoded _ (by decide)
  refine ⟨unbornSnapshot_captured, _, encoded, fun trips => ?_⟩
  have described : Described unbornSnapshot := by
    obtain ⟨_, _, _, _, described⟩ := captureSnapshot_eq_ok unbornSnapshot_captured
    exact described (by decide)
  have decoded := trips.decoded
  rw [decodeMemoryBundle_encoded described readmeFiles_collected encoded] at decoded
  have refused : validateMemoryBundleManifest unbornSnapshot.metadata unbornSnapshot.files
      unbornSnapshot.gitBundle ≠ .ok () := by decide
  exact refused (check_eq_ok.mp decoded).1

end Boreal.Memory
