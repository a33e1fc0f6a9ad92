/-
**Hexadecimal digits.**

Bytes are written as two lower-case digits each. A reader accepts either case; it works on the bytes
of a text, so that lengths and positions count bytes.

* `decodeExactly_length`: the reader gives as many bytes as it was asked for;
* `HexError.message`: the three ways in which a text is refused, in the order in which they are
  looked for.
-/

import Reorg.Bytes
import Reorg.Text.Quoted

namespace Reorg

/-- Why a text is not the hexadecimal form of a value. -/
inductive HexError
  /-- The text has an odd number of bytes. -/
  | oddLength
  /-- The text has an even number of bytes, but not the number that the value needs. -/
  | wrongLength
  /-- The byte at some position is not a digit. -/
  | invalidDigit (byte : UInt8) (position : Nat)
deriving DecidableEq

/-- The word for the cause of a refusal. -/
def HexError.name : HexError → String
  | .oddLength => "OddLength"
  | .wrongLength => "InvalidStringLength"
  | .invalidDigit _ _ => "InvalidHexCharacter"

/-- The sentence shown for a refused text; the byte appears as the character of that number. -/
def HexError.message : HexError → String
  | .oddLength => "Odd number of digits"
  | .wrongLength => "Invalid string length"
  | .invalidDigit byte position =>
    "Invalid character " ++ Text.quoteChar (Char.ofNat byte.toNat) ++ s!" at position {position}"

namespace Hex

/-- The digits, by value. -/
def digits : List Char :=
  ['0', '1', '2', '3', '4', '5', '6', '7', '8', '9', 'a', 'b', 'c', 'd', 'e', 'f']

/-- The digit of a value below sixteen. -/
def digit (value : Nat) : Char :=
  digits.getD value '0'

/-- The characters of the hexadecimal form of a byte string. -/
def encodeChars (bytes : Bytes) : List Char :=
  bytes.flatMap fun byte => [digit (byte.toNat / 16), digit (byte.toNat % 16)]

/-- The text of some bytes, two digits for each. -/
def encode (bytes : Bytes) : String :=
  String.ofList (encodeChars bytes)

/-- The value of a digit, given as the byte of its character. -/
def digitValue? (byte : UInt8) : Option Nat :=
  if 48 ≤ byte ∧ byte ≤ 57 then some (byte.toNat - 48)
  else if 97 ≤ byte ∧ byte ≤ 102 then some (byte.toNat - 87)
  else if 65 ≤ byte ∧ byte ≤ 70 then some (byte.toNat - 55)
  else none

/-- Reads digits two by two, from a position in a text of even length. -/
def decodePairs (position : Nat) : Bytes → Except HexError Bytes
  | high :: low :: rest =>
    match digitValue? high, digitValue? low with
    | none, _ => .error (.invalidDigit high position)
    | some _, none => .error (.invalidDigit low (position + 1))
    | some highValue, some lowValue =>
      match decodePairs (position + 2) rest with
      | .error problem => .error problem
      | .ok bytes => .ok (UInt8.ofNat (16 * highValue + lowValue) :: bytes)
  | _ => .ok []

/-- Reads the hexadecimal form of a byte string of any length. -/
def decode (text : Bytes) : Except HexError Bytes :=
  if text.length % 2 = 1 then .error .oddLength else decodePairs 0 text

/-- Reads the hexadecimal form of exactly `count` bytes. -/
def decodeExactly (count : Nat) (text : Bytes) : Except HexError Bytes :=
  if text.length % 2 = 1 then .error .oddLength
  else if text.length ≠ 2 * count then .error .wrongLength
  else decodePairs 0 text

theorem decodePairs_length {position count : Nat} {text bytes : Bytes}
    (long : text.length = 2 * count) (accepted : decodePairs position text = .ok bytes) :
    bytes.length = count := by
  induction count generalizing position text bytes with
  | zero =>
    rw [List.length_eq_zero_iff.mp long] at accepted
    cases accepted
    rfl
  | succ count ih =>
    match text, long with
    | high :: low :: rest, long =>
      unfold decodePairs at accepted
      split at accepted
      · cases accepted
      · cases accepted
      · split at accepted
        · cases accepted
        · next found =>
          cases accepted
          simp [ih (by simpa [Nat.mul_add] using long) found]

theorem decodeExactly_length {count : Nat} {text bytes : Bytes}
    (accepted : decodeExactly count text = .ok bytes) : bytes.length = count := by
  unfold decodeExactly at accepted
  split at accepted
  · cases accepted
  · split at accepted
    · cases accepted
    · next long => exact decodePairs_length (by simpa using long) accepted

end Hex

end Reorg
