/-
**The unspent outputs of one transaction.**

An entry has one slot for each output up to the last unspent one; the slot of a spent output, and of
one that can never be spent, is empty.

* `trim`: the rule that no entry ends in an empty slot;
* `Coins.agrees`: entries without any unspent output agree whatever else they say.
-/

import Reorg.Transaction

namespace Reorg

/-- The unspent outputs of a transaction, and what the transaction was. -/
structure Coins where
  coinbase : Bool
  height : Nat
  version : Int32
  slots : List (Option Output)
deriving DecidableEq

namespace Coins

/-- An entry that says nothing. -/
def blank : Coins := ⟨false, 0, 0, []⟩

/-- Slots without the empty ones at the end. -/
def trim (slots : List (Option Output)) : List (Option Output) :=
  (slots.reverse.dropWhile Option.isNone).reverse

/-- The slot that an output gets when it is made. -/
def slotOf (output : Output) : Option Output :=
  if Script.isUnspendable output.script then none else some output

/-- The entry of a transaction at a height, with all its outputs that can be spent. -/
def ofTx (tx : Transaction) (height : Nat) : Coins :=
  ⟨tx.coinbase, height, tx.version, trim (tx.outputs.map slotOf)⟩

/-- The output at a position, unless it is spent or was never there. -/
def output? (coins : Coins) (vout : Nat) : Option Output :=
  coins.slots[vout]?.join

/-- Whether no output of an entry is left to spend. -/
def isSpent (coins : Coins) : Bool := coins.slots.all Option.isNone

/-- The number of outputs of an entry that are left to spend. -/
def unspentCount (coins : Coins) : Nat := (coins.slots.filter Option.isSome).length

/-- Takes out the unspent output at a position. -/
def spend? (coins : Coins) (vout : Nat) : Option (Output × Coins) :=
  (coins.output? vout).map fun output =>
    (output, { coins with slots := trim (coins.slots.set vout none) })

/-- Puts an output at a position, which gets a slot if it has none. -/
def restore (coins : Coins) (vout : Nat) (output : Output) : Coins :=
  let padded := coins.slots ++ List.replicate (vout + 1 - coins.slots.length) none
  { coins with slots := padded.set vout (some output) }

/-- Whether two entries offer the same outputs of the same transaction. -/
def agrees (first second : Coins) : Bool :=
  (first.isSpent && second.isSpent) || first == second

end Coins

end Reorg
