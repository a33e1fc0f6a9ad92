/-
**Points of the curve `y² = x³ + 7`.**

A public key is a point over the field of `2²⁵⁶ - 2³² - 977` elements, written in full as a byte 4
and the two coordinates, or shortened to `x` and the parity of `y`. The field's order is 3 modulo 4,
so a square has its root at the power of a quarter of the order plus one.
-/

import Reorg.Bytes

namespace Reorg.Secp256k1

/-- The order of the field of coordinates. -/
def fieldOrder : Nat :=
  0xfffffffffffffffffffffffffffffffffffffffffffffffffffffffefffffc2f

/-- The power of a field element by the lowest `bits` bits of an exponent. -/
def power (base : Nat) : (bits : Nat) → (exponent : Nat) → Nat
  | 0, _ => 1
  | bits + 1, exponent =>
    let squared := power (base * base % fieldOrder) bits (exponent / 2)
    if exponent % 2 = 1 then base * squared % fieldOrder else squared

/-- A square root in the field, if there is one. -/
def squareRoot? (square : Nat) : Option Nat :=
  let root := power square 256 ((fieldOrder + 1) / 4)
  if root * root % fieldOrder = square then some root else none

/-- The point with a given `x`, given as thirty-two bytes, and a given parity of `y`, in full. -/
def fullKey? (x : Bytes) (odd : Bool) : Option Bytes :=
  let value := ofBigEndian x
  if value < fieldOrder then
    (squareRoot? ((value * value * value + 7) % fieldOrder)).map fun root =>
      let y := if (root % 2 == 1) == odd then root else fieldOrder - root
      0x04 :: x ++ bigEndian 32 y
  else
    none

end Reorg.Secp256k1
