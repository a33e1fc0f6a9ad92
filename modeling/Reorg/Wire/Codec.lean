/-
**Types with a wire form.**

`ToWire` gives the bytes of a value and, computed apart from them, their number; `FromWire` reads a
value back from the front of a byte string. Bytes and words are written lowest byte first; a list
is its length and then its entries; a map is its size and then its keys and values, ascending.
-/

import Reorg.OrderedMap
import Reorg.Total
import Reorg.Wire.CompactSize

namespace Reorg

/-- A type whose values can be written as bytes. -/
class ToWire (α : Type) where
  toWire : α → Bytes
  /-- The number of bytes that a value takes, found without writing it. -/
  wireSize : α → Nat

/-- A type whose values can be read from bytes. -/
class FromWire (α : Type) where
  /-- Reads a value from the front of a byte string. -/
  fromWire : Decoder α

export ToWire (toWire wireSize)
export FromWire (fromWire)

/-- Reads a value that has to use up its whole input. -/
def ofWire (α : Type) [FromWire α] (input : Bytes) : Except FormatError α :=
  (fromWire : Decoder α).whole input

/-! ### Words -/

/-- Reads a word of `width` bytes, lowest byte first. -/
def Decoder.word (width : Nat) : Decoder Nat := do
  return ofLittleEndian (← Decoder.take width)

instance : ToWire UInt8 := ⟨fun value => [value], fun _ => 1⟩
instance : FromWire UInt8 := ⟨Decoder.byte⟩

instance : ToWire UInt32 := ⟨fun value => littleEndian 4 value.toNat, fun _ => 4⟩
instance : FromWire UInt32 := ⟨return UInt32.ofNat (← Decoder.word 4)⟩

instance : ToWire Int32 := ⟨fun value => littleEndian 4 value.toUInt32.toNat, fun _ => 4⟩
instance : FromWire Int32 := ⟨return (UInt32.ofNat (← Decoder.word 4)).toInt32⟩

instance : ToWire Int64 := ⟨fun value => littleEndian 8 value.toUInt64.toNat, fun _ => 8⟩
instance : FromWire Int64 := ⟨return (UInt64.ofNat (← Decoder.word 8)).toInt64⟩

/-! ### Sequences -/

section Sequences

variable {α : Type}

instance [ToWire α] : ToWire (List α) where
  toWire values := CompactSize.write values.length ++ values.flatMap toWire
  wireSize values := CompactSize.size values.length + totalOf wireSize values

instance [FromWire α] : FromWire (List α) where
  fromWire := do Decoder.sequenceOf fromWire (← CompactSize.readLength)

end Sequences

/-! ### Maps -/

section Maps

variable {κ υ : Type} [Ord κ]

instance [ToWire κ] [ToWire υ] : ToWire (OrderedMap κ υ) where
  toWire map := CompactSize.write map.size ++
    map.entries.flatMap fun entry => toWire entry.1 ++ toWire entry.2
  wireSize map := CompactSize.size map.size +
    totalOf (fun entry => wireSize entry.1 + wireSize entry.2) map.entries

variable [Std.TransOrd κ] [Std.LawfulEqOrd κ]

/-- Reads `count` more entries into a map and refuses a key that the map has already. -/
def Decoder.entriesInto (key : Decoder κ) (value : Decoder υ) :
    (count : Nat) → OrderedMap κ υ → Decoder (OrderedMap κ υ)
  | 0, map, input => .ok (map, input)
  | count + 1, map, input =>
    match key input with
    | .error problem => .error problem
    | .ok (readKey, behindKey) =>
      match value behindKey with
      | .error problem => .error problem
      | .ok (readValue, rest) =>
        if map.contains readKey then
          .error .duplicateKey
        else
          entriesInto key value count (map.insert readKey readValue) rest

instance [FromWire κ] [FromWire υ] : FromWire (OrderedMap κ υ) where
  fromWire := do
    let count ← CompactSize.readLength
    Decoder.checkCount count
    Decoder.entriesInto fromWire fromWire count .empty

end Maps

end Reorg
