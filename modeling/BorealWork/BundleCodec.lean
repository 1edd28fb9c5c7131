/- The envelope of a bundle: what the encoder writes, the decoder reads back. -/
import BorealWork.SourceBundles

namespace Boreal.Source
open Drain

variable {formats : JsonFormats}

theorem beBytes_succ (count number : ℕ) : beBytes (count + 1) number =
    UInt8.ofNat (number >>> (8 * count)) :: beBytes count number := by
  rw [beBytes, List.range_succ_eq_map, List.map_cons, List.map_map]
  refine congrArg (_ :: ·) (List.map_congr_left ?_)
  intro index _
  simp only [Function.comp_apply, Nat.add_sub_cancel]
  rw [Nat.sub_sub, Nat.add_comm 1 index]

theorem foldl_beBytes (count number before : ℕ) :
    (beBytes count number).foldl (fun number byte => 256 * number + byte.toNat) before =
      before * 256 ^ count + number % 256 ^ count := by
  induction count generalizing before with
  | zero => simp [beBytes, Nat.mod_one]
  | succ count ih =>
    have byte : (UInt8.ofNat (number >>> (8 * count))).toNat = number / 256 ^ count % 256 := by
      rw [UInt8.toNat_ofNat', Nat.shiftRight_eq_div_pow, Nat.pow_mul]
    rw [beBytes_succ, List.foldl_cons, ih, byte, Nat.mod_pow_succ, Nat.pow_succ]
    ring

theorem fromBeBytes_beBytes {count number : ℕ} (fits : number < 256 ^ count) :
    fromBeBytes (beBytes count number) = number := by
  rw [fromBeBytes, foldl_beBytes, Nat.zero_mul, Nat.zero_add, Nat.mod_eq_of_lt fits]

theorem utf8_eq_toByteArray (text : String) : (utf8 text).toByteArray = text.toByteArray := by
  rw [← String.utf8Encode_toList, List.utf8Encode, utf8]

theorem length_utf8 (text : String) : (utf8 text).length = text.utf8ByteSize := by
  rw [← List.size_toByteArray, utf8_eq_toByteArray, String.size_toByteArray]

theorem fromUtf8_utf8 (text : String) : fromUtf8 (utf8 text) = some text := by
  have bytes : (⟨(utf8 text).toArray⟩ : ByteArray) = text.toByteArray := by
    rw [← utf8_eq_toByteArray]
    exact ByteArray.ext List.data_toByteArray.symm
  rw [fromUtf8, bytes, String.fromUTF8?, dif_pos text.isValidUTF8]
  rfl

theorem utf8_injective : Function.Injective utf8 := by
  intro text text' same
  have read : some text = some text' := by rw [← fromUtf8_utf8, ← fromUtf8_utf8, same]
  exact Option.some.inj read

theorem utf8Size_of_hex {c : Char} (hex : isHexDigit c = true) : c.utf8Size = 1 := by
  have ascii : c.val ≤ 0x7f := by
    simp only [isHexDigit, Char.isDigit, Bool.or_eq_true, Bool.and_eq_true, decide_eq_true_eq,
      Char.le_def, UInt32.le_iff_toNat_le, ge_iff_le] at hex ⊢
    rcases hex with (⟨_, below⟩ | ⟨_, below⟩) | ⟨_, below⟩
    all_goals exact below.trans (by decide)
  rw [Char.utf8Size]
  exact if_pos ascii

theorem length_utf8_digest {digest : String} (valid : (digestHex digest).isSome = true) :
    (utf8 digest).length = 7 + 64 := by
  rw [digestHex, Option.isSome_ite] at valid
  obtain ⟨prefixed, length, digits⟩ := valid
  obtain ⟨digits', split⟩ := List.isPrefixOf_iff_prefix.mp prefixed
  rw [← split, List.drop_left] at length digits
  rw [List.all_eq_true] at digits
  have single : ∀ c ∈ digits', (String.utf8EncodeChar c).length = 1 := fun c member => by
    rw [String.length_utf8EncodeChar, utf8Size_of_hex (digits c member)]
  rw [utf8, ← split, List.flatMap_append, List.length_append, List.length_flatMap,
    List.length_flatMap, List.map_congr_left single, List.map_const', List.sum_replicate, length]
  rfl

theorem length_utf8_contentDigest (bytes : List UInt8) : (utf8 (contentDigest bytes)).length = 7 + 64 :=
  length_utf8_digest (by rw [digestHex_contentDigest]; rfl)

section Cursors

variable {position : ℕ} {rest : List UInt8}

theorem takeBundleBytes_append {count : ℕ} {bytes : List UInt8} (length : bytes.length = count)
    (fits : position + count < 2 ^ 64) :
    takeBundleBytes count ⟨position, bytes ++ rest⟩ = .ok (bytes, ⟨position + count, rest⟩) := by
  subst length
  rw [takeBundleBytes, if_neg (not_le.mpr fits), if_neg, List.take_left, List.drop_left]
  rw [List.length_append]
  omega

theorem takeBundleNumber_append {width number : ℕ} (narrow : number < 256 ^ width)
    (fits : position + width < 2 ^ 64) :
    takeBundleNumber width ⟨position, beBytes width number ++ rest⟩ =
      .ok (number, ⟨position + width, rest⟩) := by
  rw [takeBundleNumber, takeBundleBytes_append (length_beBytes width number) fits]
  change Except.ok (fromBeBytes (beBytes width number), _) = _
  rw [fromBeBytes_beBytes narrow]

end Cursors

def blobBytes (blob : SourceBundleBlob) : List UInt8 :=
  beBytes 2 blob.digest.utf8ByteSize ++ (utf8 blob.digest ++
    (beBytes 8 blob.bytes.length ++ blob.bytes))

structure Addressed (blobs : List SourceBundleBlob) : Prop where
  own : ∀ blob ∈ blobs, contentDigest blob.bytes = blob.digest
  ascending : blobs.Pairwise (·.digest < ·.digest)

theorem encodeBlobs_ok {output bytes : List UInt8} {blobs : List SourceBundleBlob}
    (encoded : encodeBlobs output blobs = .ok bytes) :
    bytes = output ++ blobs.flatMap blobBytes ∧ (blobs = [] ∨ bytes.length ≤ maxSourceBundleBytes) := by
  induction blobs generalizing output with
  | nil =>
    cases encoded
    exact ⟨by simp, .inl rfl⟩
  | cons blob blobs ih =>
    rw [encodeBlobs] at encoded
    split_ifs at encoded with long
    dsimp only at encoded
    split_ifs at encoded with large
    obtain ⟨same, small⟩ := ih encoded
    refine ⟨?_, .inr ?_⟩
    · rw [same, List.flatMap_cons, blobBytes]
      simp only [List.append_assoc]
    · rcases small with rfl | small
      · cases encoded
        exact not_lt.mp large
      · exact small

theorem takeBlobs_append {blobs : List SourceBundleBlob} {last : Option String} {position : ℕ}
    {rest : List UInt8} (addressed : Addressed blobs)
    (after : ∀ digest ∈ last, ∀ blob ∈ blobs, digest < blob.digest)
    (fits : position + (blobs.flatMap blobBytes).length < 2 ^ 64) :
    takeBlobs blobs.length last ⟨position, blobs.flatMap blobBytes ++ rest⟩ =
      .ok (blobs, ⟨position + (blobs.flatMap blobBytes).length, rest⟩) := by
  induction blobs generalizing last position with
  | nil => rfl
  | cons blob blobs ih =>
    have own := addressed.own blob List.mem_cons_self
    have valid : (digestHex blob.digest).isSome = true := by
      rw [← own, digestHex_contentDigest]
      rfl
    have digestSize : blob.digest.utf8ByteSize = 71 := by
      rw [← length_utf8, length_utf8_digest valid]
    rw [List.flatMap_cons, List.length_append, blobBytes] at fits
    simp only [List.length_append, length_beBytes, length_utf8] at fits
    have later : Addressed blobs :=
      ⟨fun other member => addressed.own other (List.mem_cons_of_mem _ member),
        (List.pairwise_cons.mp addressed.ascending).2⟩
    have next : ∀ digest ∈ some blob.digest, ∀ other ∈ blobs, digest < other.digest := by
      intro digest same other member
      cases same
      exact (List.pairwise_cons.mp addressed.ascending).1 other member
    simp only [List.length_cons, List.flatMap_cons, blobBytes, List.append_assoc, takeBlobs,
      bind_eq_ok, refuse_eq_ok]
    -- the length of the digest, the digest, the length of the blob, the blob
    refine ⟨_, takeBundleNumber_append (by rw [digestSize]; decide) (by omega), _,
      takeBundleBytes_append (length_utf8 blob.digest) (by omega), blob.digest, ?_, (), ?_, _,
      takeBundleNumber_append (by omega) (by omega), _,
      takeBundleBytes_append rfl (by omega), (), not_not.mpr own, _,
      ih later next (by omega), ?_⟩
    · rw [fromUtf8_utf8]
      rfl
    · rw [not_or, Option.isNone_iff_eq_none, ← ne_eq, Option.ne_none_iff_isSome]
      refine ⟨valid, ?_⟩
      rw [Bool.not_eq_true, Option.any_eq_false]
      intro digest same
      exact decide_eq_false (not_le.mpr (after digest same blob List.mem_cons_self))
    · refine congrArg Except.ok (Prod.ext rfl ?_)
      refine congrArg (Cursor.mk · rest) ?_
      simp only [List.length_append, length_beBytes, length_utf8]
      omega

theorem decodeSourceBundle_encodeSourceBundle {metadata : SourceBundleMetadata}
    {blobs : List SourceBundleBlob} {bytes : List UInt8} (addressed : Addressed blobs)
    (few : blobs.length ≤ 1000000)
    (encoded : encodeSourceBundle (formats.metadata.toVec metadata) blobs = .ok bytes) :
    decodeSourceBundle formats bytes =
      .ok (metadata, blobs, (blobs.map (·.bytes.length)).sum) := by
  rw [encodeSourceBundle] at encoded
  split_ifs at encoded with large
  rw [not_or, not_lt, not_le, maxSourceBundleMetadataBytes] at large
  obtain ⟨same, small⟩ := encodeBlobs_ok encoded
  have magic : sourceBundleMagic.length = 24 := by decide
  have lengths : bytes.length = 24 + 8 + (formats.metadata.toVec metadata).length + 71 + 4 +
      (blobs.flatMap blobBytes).length := by
    rw [same]
    simp only [List.length_append, length_beBytes, length_utf8_contentDigest, magic]
  have bounded : bytes.length ≤ maxSourceBundleBytes := by
    rcases small with rfl | small
    · rw [lengths, maxSourceBundleBytes]
      simp only [List.flatMap_nil, List.length_nil]
      omega
    · exact small
  have short : bytes.length < 2 ^ 64 := bounded.trans_lt (by decide)
  subst same
  rw [lengths] at short
  have all := @takeBlobs_append blobs none (0 + sourceBundleMagic.length + 8 +
    (formats.metadata.toVec metadata).length + (7 + 64) + 4) [] addressed nofun (by omega)
  rw [List.append_nil] at all
  simp only [decodeSourceBundle, bind_eq_ok, refuse_eq_ok, List.append_assoc, mapError_eq_ok]
  refine ⟨(), not_lt.mpr (by simpa only [List.append_assoc] using bounded), _,
    takeBundleBytes_append rfl (by omega), (), not_not.mpr rfl, _,
    takeBundleNumber_append (by omega) (by omega), (), not_lt.mpr large.1, _,
    takeBundleBytes_append rfl (by omega), _,
    takeBundleBytes_append (length_utf8_contentDigest _) (by omega), (), not_not.mpr rfl, metadata,
    formats.metadata.fromSlice_toVec metadata, _,
    takeBundleNumber_append (by omega) (by omega), (), not_lt.mpr few, _, all, (),
    not_not.mpr rfl, rfl⟩

end Boreal.Source
