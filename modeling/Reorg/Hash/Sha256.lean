/-
**SHA-256.**

The message is padded to whole blocks of sixteen words; each block is stretched to sixty-four words
that are mixed into eight words of state. All of it runs on lists and 32-bit words, by recursion on
the data, so a hash can be evaluated inside a proof.

* `sha256_length`: a hash has thirty-two bytes.
-/

import Reorg.Bytes

namespace Reorg

namespace Sha256

/-- The eight words carried from block to block. -/
structure State where
  a : UInt32
  b : UInt32
  c : UInt32
  d : UInt32
  e : UInt32
  f : UInt32
  g : UInt32
  h : UInt32

/-- The first bits of the fractional parts of the square roots of the first eight primes. -/
def start : State :=
  ⟨0x6a09e667, 0xbb67ae85, 0x3c6ef372, 0xa54ff53a, 0x510e527f, 0x9b05688c, 0x1f83d9ab, 0x5be0cd19⟩

/-- The first bits of the fractional parts of the cube roots of the first sixty-four primes. -/
def roundConstants : List UInt32 :=
  [0x428a2f98, 0x71374491, 0xb5c0fbcf, 0xe9b5dba5, 0x3956c25b, 0x59f111f1, 0x923f82a4, 0xab1c5ed5,
    0xd807aa98, 0x12835b01, 0x243185be, 0x550c7dc3, 0x72be5d74, 0x80deb1fe, 0x9bdc06a7, 0xc19bf174,
    0xe49b69c1, 0xefbe4786, 0x0fc19dc6, 0x240ca1cc, 0x2de92c6f, 0x4a7484aa, 0x5cb0a9dc, 0x76f988da,
    0x983e5152, 0xa831c66d, 0xb00327c8, 0xbf597fc7, 0xc6e00bf3, 0xd5a79147, 0x06ca6351, 0x14292967,
    0x27b70a85, 0x2e1b2138, 0x4d2c6dfc, 0x53380d13, 0x650a7354, 0x766a0abb, 0x81c2c92e, 0x92722c85,
    0xa2bfe8a1, 0xa81a664b, 0xc24b8b70, 0xc76c51a3, 0xd192e819, 0xd6990624, 0xf40e3585, 0x106aa070,
    0x19a4c116, 0x1e376c08, 0x2748774c, 0x34b0bcb5, 0x391c0cb3, 0x4ed8aa4a, 0x5b9cca4f, 0x682e6ff3,
    0x748f82ee, 0x78a5636f, 0x84c87814, 0x8cc70208, 0x90befffa, 0xa4506ceb, 0xbef9a3f7, 0xc67178f2]

/-- A word rotated to the right. -/
def rotateRight (word count : UInt32) : UInt32 :=
  (word >>> count) ||| (word <<< (32 - count))

/-- The words of a byte string, four bytes each, highest byte first. -/
def words : Bytes → List UInt32
  | a :: b :: c :: d :: rest =>
    (a.toUInt32 <<< 24 ||| b.toUInt32 <<< 16 ||| c.toUInt32 <<< 8 ||| d.toUInt32) :: words rest
  | _ => []

/-- The next word of a schedule whose words so far are given last first. -/
def nextWord (recent : List UInt32) : UInt32 :=
  let far := recent.getD 14 0
  let near := recent.getD 1 0
  let farMixed := rotateRight far 7 ^^^ rotateRight far 18 ^^^ (far >>> 3)
  let nearMixed := rotateRight near 17 ^^^ rotateRight near 19 ^^^ (near >>> 10)
  recent.getD 15 0 + farMixed + recent.getD 6 0 + nearMixed

/-- A schedule, last word first, with `count` more words. -/
def stretch : (count : Nat) → List UInt32 → List UInt32
  | 0, recent => recent
  | count + 1, recent => stretch count (nextWord recent :: recent)

/-- The sixty-four words that a block is stretched to. -/
def schedule (block : Bytes) : List UInt32 :=
  (stretch 48 (words block).reverse).reverse

/-- Mixes one word of the schedule, with its constant, into the state. -/
def mix (s : State) (word : UInt32 × UInt32) : State :=
  let eMixed := rotateRight s.e 6 ^^^ rotateRight s.e 11 ^^^ rotateRight s.e 25
  let choice := (s.e &&& s.f) ^^^ ((~~~ s.e) &&& s.g)
  let first := s.h + eMixed + choice + word.1 + word.2
  let aMixed := rotateRight s.a 2 ^^^ rotateRight s.a 13 ^^^ rotateRight s.a 22
  let majority := (s.a &&& s.b) ^^^ (s.a &&& s.c) ^^^ (s.b &&& s.c)
  ⟨first + (aMixed + majority), s.a, s.b, s.c, s.d + first, s.e, s.f, s.g⟩

/-- The state after one more block. -/
def absorb (s : State) (block : Bytes) : State :=
  let t := (roundConstants.zip (schedule block)).foldl mix s
  ⟨s.a + t.a, s.b + t.b, s.c + t.c, s.d + t.d, s.e + t.e, s.f + t.f, s.g + t.g, s.h + t.h⟩

/-- The state after `count` more blocks from the front of a padded message. -/
def absorbAll : (count : Nat) → State → Bytes → State
  | 0, s, _ => s
  | count + 1, s, message => absorbAll count (absorb s (message.take 64)) (message.drop 64)

/-- The bytes behind a message of the given length: a set bit, zeros, and the length in bits. -/
def padding (length : Nat) : Bytes :=
  0x80 :: List.replicate ((119 - length % 64) % 64) 0 ++ bigEndian 8 (8 * length)

/-- The bytes of the final state. -/
def State.toBytes (s : State) : Bytes :=
  [s.a, s.b, s.c, s.d, s.e, s.f, s.g, s.h].flatMap fun word => bigEndian 4 word.toNat

end Sha256

/-- The SHA-256 hash of a message: its blocks, padding included, absorbed in order. -/
def sha256 (message : Bytes) : Bytes :=
  let length := message.length
  (Sha256.absorbAll (length / 64 + if length % 64 < 56 then 1 else 2) Sha256.start
    (message ++ Sha256.padding length)).toBytes

@[simp] theorem sha256_length (message : Bytes) : (sha256 message).length = 32 := by
  simp [sha256, Sha256.State.toBytes, bigEndian]

end Reorg
