/-
**Base 58 with a checksum.**

A byte string is read as one number, highest byte first, and written in base 58 with an alphabet
that leaves out look-alikes; each leading zero byte is one leading `1`. The checked form adds the
first four bytes of the digest.
-/

import Reorg.Hash.Digest

namespace Reorg.Base58

/-- The digits, by value. -/
def alphabet : List Char :=
  "123456789ABCDEFGHJKLMNPQRSTUVWXYZabcdefghijkmnopqrstuvwxyz".toList

/-- The digits of a number, highest first, in front of those already written. -/
def digitsBefore (value : Nat) (behind : List Char) : List Char :=
  if value = 0 then behind
  else digitsBefore (value / 58) (alphabet.getD (value % 58) '1' :: behind)

/-- The base 58 form of a number written in bytes, with a first digit for each zero byte in front.
-/
def encode (bytes : Bytes) : String :=
  String.ofList (digitsBefore (ofBigEndian bytes) []
    |> List.append ((bytes.takeWhile (· == 0)).map fun _ => '1'))

/-- The base 58 form of a payload behind a version, with four bytes of checksum. -/
def encodeChecked (version payload : Bytes) : String :=
  let content := version ++ payload
  encode (content ++ (Digest.hash content).bytes.take 4)

end Reorg.Base58
