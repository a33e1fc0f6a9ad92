/-
**Variable-length numbers.**

A number is written in groups of seven bits, highest group first; every byte but the last has its
high bit set. Each continued group counts from one, so a number has exactly one form: the groups
are digits of base 128 that run from 1 to 128, the last one from 0 to 127.
-/

import Reorg.Wire.Decoder

namespace Reorg.VarInt

/-- The largest number that may be read. -/
def maxWord : Nat := UInt64.size - 1

/-- The continued bytes in front of the last one, for the groups above it. -/
def leading (value : Nat) : Bytes :=
  if value < 128 then
    [UInt8.ofNat (128 + value)]
  else
    leading (value / 128 - 1) ++ [UInt8.ofNat (128 + value % 128)]

/-- The bytes of a number: the groups of seven bits, the last of them unmarked. -/
def write (value : Nat) : Bytes :=
  if value < 128 then
    [UInt8.ofNat value]
  else
    leading (value / 128 - 1) ++ [UInt8.ofNat (value % 128)]

/-- The number of bytes that a number takes. -/
def size (value : Nat) : Nat :=
  if value < 128 then 1 else size (value / 128 - 1) + 1

/-- Reads the rest of a number whose groups so far make up `value`. -/
def readBehind (value : Nat) : Decoder Nat
  | [] => .error (.truncated 1 0)
  | byte :: rest =>
    if value > maxWord / 128 then
      .error .varIntOverflow
    else
      let extended := 128 * value + byte.toNat % 128
      if byte.toNat < 128 then
        .ok (extended, rest)
      else if extended = maxWord then
        .error .varIntOverflow
      else
        readBehind (extended + 1) rest

/-- Reads a number of at most 64 bits. -/
def read : Decoder Nat :=
  readBehind 0

/-- Reads a number of at most 32 bits. -/
def readWord32 : Decoder Nat := do
  let value ← read
  if value < UInt32.size then return value else throw (.outOfRange .word32)

end Reorg.VarInt
