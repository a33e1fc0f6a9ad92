/-
**Amounts.**

An amount counts the smallest units of money. It is shown in whole coins with eight places, and the
wire carries it packed, which is short for round amounts.

* `pack` and `unpack` are the packing on all natural numbers; the wire uses them on 64-bit words.
-/

import Reorg.Bytes

namespace Reorg

/-- An amount of money, in the smallest units. -/
abbrev Amount := Int

namespace Amount

/-- One coin, in the unit of amounts. -/
def coin : Nat := 100000000

/-- The most money there can be. -/
def maxMoney : Int := 21000000 * coin

/-- Whether an amount can be held: it is not negative and no more than all the money. -/
def inRange (amount : Amount) : Bool :=
  0 ≤ amount && amount ≤ maxMoney

/-- An amount in coins, with eight places. -/
def format (amount : Amount) : String :=
  let places := toString (amount.natAbs % coin)
  (if amount < 0 then "-" else "") ++ toString (amount.natAbs / coin) ++ "." ++
    String.ofList (List.replicate (8 - places.length) '0') ++ places

/-! ### Packing -/

/-- A number without up to `limit` of its trailing decimal zeros, and how many those are. -/
def stripZeros : (limit : Nat) → Nat → Nat × Nat
  | 0, value => (value, 0)
  | limit + 1, value =>
    if value % 10 = 0 then
      let (stripped, zeros) := stripZeros limit (value / 10)
      (stripped, zeros + 1)
    else
      (value, 0)

/-- The packed form of a number: up to nine trailing zeros become one digit of base ten, and below
nine the last digit, which is then not zero, becomes one digit of base nine. -/
def pack (value : Nat) : Nat :=
  if value = 0 then 0
  else
    let (stripped, zeros) := stripZeros 9 value
    if zeros < 9 then
      10 * (9 * (stripped / 10) + (stripped % 10 - 1)) + zeros + 1
    else
      10 * (stripped - 1) + 10

/-- The number with a given packed form. -/
def unpack (packed : Nat) : Nat :=
  if packed = 0 then 0
  else
    let zeros := (packed - 1) % 10
    let digits := (packed - 1) / 10
    if zeros < 9 then
      (10 * (digits / 9) + digits % 9 + 1) * Nat.pow 10 zeros
    else
      (digits + 1) * 1000000000

/-- The packed form of a 64-bit word, as a 64-bit word. -/
def packWord (word : Nat) : Nat := pack word % UInt64.size

/-- The 64-bit word with a given packed form. -/
def unpackWord (packed : Nat) : Nat := unpack packed % UInt64.size

end Amount

end Reorg
