/-
**Fixed-size byte strings of sidechains.**

Proofs, keys and field elements are byte strings that this library carries but never looks into;
each kind has its one size. An address is twenty bytes with a base 58 text.
-/

import Reorg.Base58
import Reorg.Sidechain.Error

namespace Reorg

/-- A byte string of the size that its kind demands. -/
structure Blob (kind : BlobKind) where
  bytes : Bytes
  length_bytes : bytes.length = kind.size
deriving DecidableEq

namespace Blob

variable {kind : BlobKind}

/-- The byte string of zeros, the null value of its kind. -/
def zero (kind : BlobKind) : Blob kind := ⟨List.replicate kind.size 0, by simp⟩

instance : Inhabited (Blob kind) := ⟨zero kind⟩

/-- A byte string taken for a value of a kind. -/
def ofBytes (kind : BlobKind) (bytes : Bytes) : Except StructuralError (Blob kind) :=
  if fits : bytes.length = kind.size then .ok ⟨bytes, fits⟩
  else .error (.invalidLength (.blob kind) bytes.length)

/-- Whether a value is the null value of its kind. -/
def isNull (blob : Blob kind) : Bool := blob.bytes.isNull

/-- The described form shows the first eight bytes. -/
instance : Described (Blob kind) where
  describe blob := Text.tagged kind.typeName (Hex.encode (blob.bytes.take 8) ++ "..")

end Blob

/-- An element of the field that sidechain proofs work in. -/
abbrev FieldElement := Blob .fieldElement

/-- A proof about a sidechain. -/
abbrev Proof := Blob .proof

/-- A key that sidechain proofs are verified with. -/
abbrev VerifyingKey := Blob .verifyingKey

/-! ### Constants -/

/-- The constant of a sidechain: a field element, or nothing. -/
structure Constant where
  element? : Option FieldElement
deriving DecidableEq

namespace Constant

/-- A byte string taken for a constant; the empty one stands for nothing. -/
def ofBytes (bytes : Bytes) : Except StructuralError Constant :=
  if bytes.isEmpty then .ok ⟨none⟩
  else if fits : bytes.length = BlobKind.fieldElement.size then .ok ⟨some ⟨bytes, fits⟩⟩
  else .error (.invalidLength .constant bytes.length)

/-- The bytes of a constant, none if it is left out. -/
def bytes (constant : Constant) : Bytes :=
  match constant.element? with
  | none => []
  | some element => element.bytes

/-- Whether a constant is left out. -/
def isEmpty (constant : Constant) : Bool := constant.element?.isNone

instance : Described Constant where
  describe constant := Text.tagged "ScConstant" (describe constant.bytes)

end Constant

/-! ### Addresses -/

/-- An address on the main chain, the hash of a key. -/
structure Address where
  bytes : Bytes
  length_bytes : bytes.length = 20
deriving DecidableEq

namespace Address

/-- The bytes in front of an address in its text. -/
def version : Bytes := [0x20, 0x89]

/-- The checked base 58 form of an address. -/
def text (address : Address) : String := Base58.encodeChecked version address.bytes

/-- Whether all the bytes of an address are zero. -/
def isNull (address : Address) : Bool := address.bytes.isNull

instance : Described Address where
  describe address := Text.tagged "McAddress" address.text

end Address

end Reorg
