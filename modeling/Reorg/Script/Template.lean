/-
**Scripts and the templates they are made from.**

A script is the byte string that locks an output. Six shapes of script are common; each is
determined by a short payload, a hash or the `x` coordinate of a public key.

* `Template.script?`: the script of a template, which a key off the curve does not have;
* `Template.ofScript?`: the template of a script, if it is one of the six.
-/

import Reorg.Secp256k1

namespace Reorg

/-- The byte string that locks an output. -/
abbrev Script := Bytes

namespace Script

/-- The instruction that duplicates the top of the stack. -/
def opDup : UInt8 := 0x76
/-- The instruction that hashes the top of the stack to twenty bytes. -/
def opHash160 : UInt8 := 0xa9
/-- The instruction that compares the top of the stack. -/
def opEqual : UInt8 := 0x87
/-- The instruction that fails unless the top of the stack compares equal. -/
def opEqualVerify : UInt8 := 0x88
/-- The instruction that checks a signature. -/
def opCheckSig : UInt8 := 0xac
/-- The instruction that fails, so that what it leads cannot be spent. -/
def opReturn : UInt8 := 0x6a

/-- The most bytes that a script may have and still be spent. -/
def maxSize : Nat := 10000

/-- A script that can never be spent: it fails at once, or it is too long. -/
def isUnspendable (script : Script) : Bool :=
  script.head? == some opReturn || !script.shorterThan (maxSize + 1)

/-- The script that pays to the owner of a key with a given hash. -/
def payToKeyHash (hash : Bytes) : Script :=
  opDup :: opHash160 :: 20 :: hash ++ [opEqualVerify, opCheckSig]

/-- The script that pays to whoever meets the script with a given hash. -/
def payToScriptHash (hash : Bytes) : Script :=
  opHash160 :: 20 :: hash ++ [opEqual]

/-- The script that pays to the owner of a key; the length byte holds the length modulo 256. -/
def payToKey (key : Bytes) : Script :=
  UInt8.ofNat key.length :: key ++ [opCheckSig]

/-- A shape of script, with the payload that determines it. -/
inductive Template
  /-- Pays to the owner of the key with this hash. -/
  | keyHash (hash : Bytes)
  /-- Pays to whoever meets the script with this hash. -/
  | scriptHash (hash : Bytes)
  /-- Pays to the owner of a key that is written short. -/
  | shortKey (odd : Bool) (x : Bytes)
  /-- Pays to the owner of a key that is written in full. -/
  | fullKey (odd : Bool) (x : Bytes)
deriving DecidableEq

namespace Template

/-- The number of a template, which is the first byte of its short form. -/
def tag : Template → UInt8
  | .keyHash _ => 0
  | .scriptHash _ => 1
  | .shortKey odd _ => if odd then 3 else 2
  | .fullKey odd _ => if odd then 5 else 4

/-- The bytes that determine a template of known number. -/
def payload : Template → Bytes
  | .keyHash hash | .scriptHash hash => hash
  | .shortKey _ x | .fullKey _ x => x

/-- The number of numbers that stand for templates. -/
def count : Nat := 6

/-- The number of bytes in the payload of the template of a given number. -/
def payloadSize (tag : Nat) : Nat :=
  if tag < 2 then 20 else 32

/-- The template of a given number with a given payload. -/
def ofTag (tag : Nat) (payload : Bytes) : Template :=
  match tag with
  | 0 => .keyHash payload
  | 1 => .scriptHash payload
  | 2 => .shortKey false payload
  | 3 => .shortKey true payload
  | 4 => .fullKey false payload
  | _ => .fullKey true payload

/-- The script of a template; there is none for a key that is not on the curve. -/
def script? : Template → Option Script
  | .keyHash hash => some (payToKeyHash hash)
  | .scriptHash hash => some (payToScriptHash hash)
  | .shortKey odd x => some (payToKey ((if odd then 3 else 2) :: x))
  | .fullKey odd x => (Secp256k1.fullKey? x odd).map payToKey

/-- The template of a script, if it has one. A key in full counts only when its `x` and the parity
of its `y` give the same key back. -/
def ofScript? : Script → Option Template
  | 0x76 :: 0xa9 :: 20 :: rest =>
    if rest.drop 20 = [opEqualVerify, opCheckSig] then some (.keyHash (rest.take 20)) else none
  | 0xa9 :: 20 :: rest =>
    if rest.drop 20 = [opEqual] then some (.scriptHash (rest.take 20)) else none
  | 33 :: lead :: rest =>
    if (lead = 2 ∨ lead = 3) ∧ rest.drop 32 = [opCheckSig] then
      some (.shortKey (lead = 3) (rest.take 32))
    else none
  | 65 :: 4 :: rest =>
    if rest.drop 64 = [opCheckSig] then
      let x := rest.take 32
      let odd := (rest.getD 63 0).toNat % 2 == 1
      if Secp256k1.fullKey? x odd = some (4 :: rest.take 64) then some (.fullKey odd x) else none
    else none
  | _ => none

end Template

end Script

end Reorg
