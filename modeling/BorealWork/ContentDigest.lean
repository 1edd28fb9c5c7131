/- The content address of a byte string: the source's own hash, block by block, and the text form of
its state. -/
import Mathlib

namespace Boreal.Source

def rotateRight (word : UInt32) (count : UInt32) : UInt32 :=
  (word >>> count) ||| (word <<< (32 - count))

structure Working where
  w0 : UInt32
  w1 : UInt32
  w2 : UInt32
  w3 : UInt32
  w4 : UInt32
  w5 : UInt32
  w6 : UInt32
  w7 : UInt32
  deriving DecidableEq

def Working.words (working : Working) : List UInt32 :=
  [working.w0, working.w1, working.w2, working.w3, working.w4, working.w5, working.w6, working.w7]

def initialState : Working :=
  ⟨0x6a09e667, 0xbb67ae85, 0x3c6ef372, 0xa54ff53a, 0x510e527f, 0x9b05688c, 0x1f83d9ab, 0x5be0cd19⟩

def sha256RoundConstants : List UInt32 :=
  [0x428a2f98, 0x71374491, 0xb5c0fbcf, 0xe9b5dba5, 0x3956c25b, 0x59f111f1, 0x923f82a4, 0xab1c5ed5,
    0xd807aa98, 0x12835b01, 0x243185be, 0x550c7dc3, 0x72be5d74, 0x80deb1fe, 0x9bdc06a7, 0xc19bf174,
    0xe49b69c1, 0xefbe4786, 0x0fc19dc6, 0x240ca1cc, 0x2de92c6f, 0x4a7484aa, 0x5cb0a9dc, 0x76f988da,
    0x983e5152, 0xa831c66d, 0xb00327c8, 0xbf597fc7, 0xc6e00bf3, 0xd5a79147, 0x06ca6351, 0x14292967,
    0x27b70a85, 0x2e1b2138, 0x4d2c6dfc, 0x53380d13, 0x650a7354, 0x766a0abb, 0x81c2c92e, 0x92722c85,
    0xa2bfe8a1, 0xa81a664b, 0xc24b8b70, 0xc76c51a3, 0xd192e819, 0xd6990624, 0xf40e3585, 0x106aa070,
    0x19a4c116, 0x1e376c08, 0x2748774c, 0x34b0bcb5, 0x391c0cb3, 0x4ed8aa4a, 0x5b9cca4f, 0x682e6ff3,
    0x748f82ee, 0x78a5636f, 0x84c87814, 0x8cc70208, 0x90befffa, 0xa4506ceb, 0xbef9a3f7, 0xc67178f2]

/-- The big-endian bytes of a number, `count` of them. -/
def beBytes (count number : ℕ) : List UInt8 :=
  (List.range count).map fun index => UInt8.ofNat (number >>> (8 * (count - 1 - index)))

theorem length_beBytes (count number : ℕ) : (beBytes count number).length = count := by
  rw [beBytes, List.length_map, List.length_range]

def fromBeBytes (bytes : List UInt8) : ℕ := bytes.foldl (fun number byte => 256 * number + byte.toNat) 0

def paddedLength (length : ℕ) : ℕ := (length + 9 + 63) / 64 * 64

/-- The bit length wraps at 64 bits. -/
def padded (bytes : List UInt8) : List UInt8 :=
  bytes ++ [0x80] ++ List.replicate (paddedLength bytes.length - 8 - (bytes.length + 1)) 0 ++
    beBytes 8 (UInt64.ofNat bytes.length * 8).toNat

def chunks (bytes : List UInt8) : List (List UInt8) :=
  (List.range (bytes.length / 64)).map fun index => (bytes.drop (64 * index)).take 64

def nextWord (words : List UInt32) (index : ℕ) : UInt32 :=
  let w15 := words.getD (index - 15) 0
  let w2 := words.getD (index - 2) 0
  let s0 := rotateRight w15 7 ^^^ rotateRight w15 18 ^^^ (w15 >>> 3)
  let s1 := rotateRight w2 17 ^^^ rotateRight w2 19 ^^^ (w2 >>> 10)
  words.getD (index - 16) 0 + s0 + words.getD (index - 7) 0 + s1

def schedule (chunk : List UInt8) : List UInt32 :=
  (List.range' 16 48).foldl (fun words index => words ++ [nextWord words index])
    ((List.range 16).map fun index => UInt32.ofNat (fromBeBytes ((chunk.drop (4 * index)).take 4)))

def round (working : Working) (input : UInt32 × UInt32) : Working :=
  let s1 := rotateRight working.w4 6 ^^^ rotateRight working.w4 11 ^^^ rotateRight working.w4 25
  let choice := (working.w4 &&& working.w5) ^^^ (~~~working.w4 &&& working.w6)
  let temp1 := working.w7 + s1 + choice + input.1 + input.2
  let s0 := rotateRight working.w0 2 ^^^ rotateRight working.w0 13 ^^^ rotateRight working.w0 22
  let majority :=
    (working.w0 &&& working.w1) ^^^ (working.w0 &&& working.w2) ^^^ (working.w1 &&& working.w2)
  let temp2 := s0 + majority
  ⟨temp1 + temp2, working.w0, working.w1, working.w2, working.w3 + temp1, working.w4, working.w5,
    working.w6⟩

def compress (state : Working) (chunk : List UInt8) : Working :=
  let working := (sha256RoundConstants.zip (schedule chunk)).foldl round state
  ⟨state.w0 + working.w0, state.w1 + working.w1, state.w2 + working.w2, state.w3 + working.w3,
    state.w4 + working.w4, state.w5 + working.w5, state.w6 + working.w6, state.w7 + working.w7⟩

def hash (bytes : List UInt8) : Working := (chunks (padded bytes)).foldl compress initialState

def digestAlgorithm : String := "sha256"

def hexWord (word : UInt32) : List Char :=
  (List.range 8).map fun index => Nat.digitChar (word.toNat >>> (4 * (7 - index)) % 16)

def contentDigest (bytes : List UInt8) : String :=
  String.ofList (digestAlgorithm.toList ++ ':' :: (hash bytes).words.flatMap hexWord)

def isHexDigit (c : Char) : Bool :=
  c.isDigit || ('a' ≤ c && c ≤ 'f') || ('A' ≤ c && c ≤ 'F')

def digestPrefix : List Char := "sha256:".toList

def digestHex (digest : String) : Option String :=
  if digestPrefix.isPrefixOf digest.toList = true ∧
      (digest.toList.drop digestPrefix.length).length = 64 ∧
      (digest.toList.drop digestPrefix.length).all isHexDigit = true then
    some (String.ofList (digest.toList.drop digestPrefix.length))
  else none

theorem hexWord_length (word : UInt32) : (hexWord word).length = 8 := by simp [hexWord]

theorem hexWord_hex (word : UInt32) : ∀ c ∈ hexWord word, isHexDigit c = true := by
  have digits : ∀ d < 16, isHexDigit (Nat.digitChar d) = true := by decide
  intro c member
  obtain ⟨index, _, rfl⟩ := List.mem_map.mp member
  exact digits _ (Nat.mod_lt _ (by omega))

theorem digestHex_contentDigest (bytes : List UInt8) :
    digestHex (contentDigest bytes) =
      some (String.ofList ((hash bytes).words.flatMap hexWord)) := by
  have text : (contentDigest bytes).toList = digestPrefix ++ (hash bytes).words.flatMap hexWord := by
    rw [contentDigest, String.toList_ofList]
    rfl
  have length : ((hash bytes).words.flatMap hexWord).length = 64 := by
    simp [Working.words, hexWord_length]
  have digits : ((hash bytes).words.flatMap hexWord).all isHexDigit = true := by
    rw [List.all_eq_true]
    intro c member
    obtain ⟨word, _, inside⟩ := List.mem_flatMap.mp member
    exact hexWord_hex word c inside
  have prefixed : digestPrefix.isPrefixOf (digestPrefix ++ (hash bytes).words.flatMap hexWord) = true :=
    List.isPrefixOf_iff_prefix.mpr (List.prefix_append _ _)
  rw [digestHex, text, List.drop_left, if_pos ⟨prefixed, length, digits⟩]

end Boreal.Source
