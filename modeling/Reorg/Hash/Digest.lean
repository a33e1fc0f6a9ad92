/-
**Digests.**

A digest is thirty-two bytes, obtained as SHA-256 of SHA-256. It is compared as a plain byte string
and shown as hexadecimal digits of its bytes in reverse.

* `Digest.ext_bytes`: a digest is its bytes.
-/

import Reorg.Hash.Sha256
import Reorg.Hex
import Reorg.Text.Described
import Reorg.Wire.Codec

namespace Reorg

/-- An identifier of thirty-two bytes. -/
structure Digest where
  bytes : Bytes
  length_bytes : bytes.length = 32
deriving DecidableEq

namespace Digest

/-- The digest of thirty-two zero bytes, the null digest. -/
def zero : Digest := ⟨List.replicate 32 0, by simp⟩

instance : Inhabited Digest := ⟨zero⟩

/-- The digest of some bytes: SHA-256, taken twice. -/
def hash (data : Bytes) : Digest :=
  ⟨sha256 (sha256 data), sha256_length _⟩

/-- The digest of a text, taken over its UTF-8 bytes. -/
def hashText (text : String) : Digest :=
  hash text.toUTF8.data.toList

/-- Whether all the bytes of a digest are zero. -/
def isNull (digest : Digest) : Bool :=
  digest.bytes.isNull

theorem ext_bytes {first second : Digest} (same : first.bytes = second.bytes) :
    first = second := by
  cases first; cases second; cases same; rfl

/-! ### Order -/

instance : Ord Digest := ⟨compareOn Digest.bytes⟩

instance : Std.TransOrd Digest where
  eq_swap {first second} :=
    @Std.OrientedCmp.eq_swap Bytes compare _ first.bytes second.bytes
  isLE_trans {first second third} :=
    @Std.TransCmp.isLE_trans Bytes compare _ first.bytes second.bytes third.bytes

instance : Std.LawfulEqOrd Digest where
  compare_self {digest} := @Std.ReflCmp.compare_self Bytes compare _ digest.bytes
  eq_of_compare same := ext_bytes (Std.LawfulEqOrd.eq_of_compare same)

/-! ### Shown form -/

/-- The digits that show a digest: those of its bytes, last byte first. -/
def toHex (digest : Digest) : String :=
  Hex.encode digest.bytes.reverse

/-- The digest that the digits of a text show. -/
def ofHex (text : String) : Except HexError Digest :=
  match found : Hex.decodeExactly 32 text.toUTF8.data.toList with
  | .error problem => .error problem
  | .ok bytes => .ok ⟨bytes.reverse, by simpa using Hex.decodeExactly_length found⟩

instance : Described Digest where
  describe digest := Text.tagged "Hash256" digest.toHex

/-! ### Wire form -/

instance : ToWire Digest := ⟨fun digest => digest.bytes, fun _ => 32⟩

/-- Reads the thirty-two bytes of a digest. -/
def read : Decoder Digest := fun input =>
  match found : Decoder.take 32 input with
  | .error problem => .error problem
  | .ok (bytes, rest) => .ok (⟨bytes, (Decoder.take_eq_ok_iff.mp found).1⟩, rest)

instance : FromWire Digest := ⟨read⟩

end Digest

end Reorg
