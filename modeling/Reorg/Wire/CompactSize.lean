/-
**Compact sizes.**

The count in front of every sequence: one byte up to 252, else a marker byte and two, four or eight
bytes, lowest first. Each number has one accepted form, the shortest.
-/

import Reorg.Wire.Decoder

namespace Reorg.CompactSize

/-- The largest number of entries that a sequence may declare. -/
def maxLength : Nat := 0x02000000

/-- The number of bytes that a length takes. -/
def size (value : Nat) : Nat :=
  if value < 0xFD then 1
  else if value < 0x10000 then 3
  else if value < 0x100000000 then 5
  else 9

/-- The bytes of a length, behind a marker unless it fits into one. -/
def write (value : Nat) : Bytes :=
  if value < 0xFD then [UInt8.ofNat value]
  else if value < 0x10000 then 0xFD :: littleEndian 2 value
  else if value < 0x100000000 then 0xFE :: littleEndian 4 value
  else 0xFF :: littleEndian 8 value

/-- Reads the word behind a marker and refuses one below the least that needs its width. -/
def readWide (width least : Nat) : Decoder Nat := do
  let value := ofLittleEndian (← Decoder.take width)
  if value < least then throw (.nonCanonical value) else return value

/-- Reads a length and refuses one in more bytes than it needs. -/
def read : Decoder Nat := do
  let marker ← Decoder.byte
  if marker = 0xFD then readWide 2 0xFD
  else if marker = 0xFE then readWide 4 0x10000
  else if marker = 0xFF then readWide 8 0x100000000
  else return marker.toNat

/-- Reads the number of entries of a sequence. -/
def readLength : Decoder Nat := do
  let length ← read
  if length > maxLength then throw (.oversizedLength length) else return length

/-- The compact size at the front of a byte string, with the number of bytes it takes there. -/
def peek (input : Bytes) : Except FormatError (Nat × Nat) :=
  match read input with
  | .error problem => .error problem
  | .ok (value, rest) => .ok (value, input.length - rest.length)

end Reorg.CompactSize
