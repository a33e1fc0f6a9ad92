/-
**Why a byte string is not the record it was taken for.**

Each constructor of `FormatError` is one cause; `FormatError.message` is the sentence shown for it.
-/

namespace Reorg

/-- The numbers that the formats bound more tightly than a 64-bit word. -/
inductive BoundedQuantity
  /-- A variable-length number that has to fit a 32-bit word. -/
  | word32
  /-- The height in an undo record. -/
  | undoHeight
deriving DecidableEq

/-- What a bounded quantity is called. -/
def BoundedQuantity.name : BoundedQuantity → String
  | .word32 => "u32 varint"
  | .undoHeight => "undo height"

/-- Why a reader refuses its input. -/
inductive FormatError
  /-- The input ends before the bytes that are needed. -/
  | truncated (needed available : Nat)
  /-- A number is written in more bytes than it needs. -/
  | nonCanonical (value : Nat)
  /-- A sequence declares more entries than any sequence may have. -/
  | oversizedLength (length : Nat)
  /-- A sequence declares more entries than there are bytes left. -/
  | lengthMismatch (declared remaining : Nat)
  /-- A variable-length number does not fit 64 bits. -/
  | varIntOverflow
  /-- A number does not fit the quantity it stands for. -/
  | outOfRange (quantity : BoundedQuantity)
  /-- Bytes are left over behind a whole record. -/
  | trailingBytes (count : Nat)
  | duplicateKey
  /-- A shortened public key has no point on the curve. -/
  | keyOffCurve
deriving DecidableEq

namespace FormatError

/-- What is wrong with a map that holds some key twice. -/
def duplicateKeyReason : String := "duplicate map key"

/-- What is wrong with a shortened key that is not on the curve. -/
def keyOffCurveReason : String := "compressed pubkey: Invalid public key"

/-- The word for the cause. -/
def name : FormatError → String
  | .truncated _ _ => "Truncated"
  | .nonCanonical _ => "NonCanonicalCompactSize"
  | .oversizedLength _ => "OversizedLength"
  | .lengthMismatch _ _ => "LengthMismatch"
  | .varIntOverflow => "VarIntOverflow"
  | .outOfRange _ => "OutOfRange"
  | .trailingBytes _ => "TrailingBytes"
  | .duplicateKey | .keyOffCurve => "InvalidValue"

/-- The sentence shown for a format error. -/
def message : FormatError → String
  | .truncated needed available =>
    s!"Truncated stream: needed {needed} bytes, {available} available"
  | .nonCanonical value => s!"Non-canonical CompactSize encoding of {value}"
  | .oversizedLength length => s!"Declared length {length} exceeds the maximum sequence size"
  | .lengthMismatch declared remaining =>
    s!"Declared length {declared} inconsistent with {remaining} remaining bytes"
  | .varIntOverflow => "VarInt overflows 64 bits"
  | .outOfRange quantity => "Value out of range for " ++ quantity.name
  | .trailingBytes count => s!"Unexpected {count} trailing bytes after record"
  | .duplicateKey => "Invalid value: " ++ duplicateKeyReason
  | .keyOffCurve => "Invalid value: " ++ keyOffCurveReason

end FormatError

end Reorg
