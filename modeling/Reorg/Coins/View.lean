/-
**The unspent outputs of a chain.**

The view has an entry for each transaction with an unspent output.

* `spend?`: takes an output out and gives the record that restores it; the record says what the
  transaction was only when the entry goes;
* `restore`, `removeTx`: the steps back, which also say whether they found what they expected.
-/

import Reorg.Coins.Entry
import Reorg.Undo.Output

namespace Reorg

/-- The unspent outputs of a chain, by transaction. -/
abbrev CoinsView := OrderedMap Digest Coins

namespace CoinsView

/-- The output at a place, unless it is spent or was never there. -/
def output? (view : CoinsView) (outpoint : OutPoint) : Option Output :=
  (view.get? outpoint.txid).bind fun coins => coins.output? outpoint.vout

/-- Whether an output of a transaction is left to spend. -/
def hasUnspent (view : CoinsView) (txid : Digest) : Bool :=
  (view.get? txid).any fun coins => !coins.isSpent

/-- Keeps an entry only while it has an unspent output. -/
def store (view : CoinsView) (txid : Digest) (coins : Coins) : CoinsView :=
  if coins.isSpent then view.erase txid else view.insert txid coins

/-- Adds the outputs of a transaction, in place of any that its identifier already has. -/
def addTx (view : CoinsView) (tx : Transaction) (height : Nat) : CoinsView :=
  view.store tx.txid (Coins.ofTx tx height)

/-- Takes out the output at a place. -/
def spend? (view : CoinsView) (outpoint : OutPoint) : Option (OutputUndo × CoinsView) := do
  let coins ← view.get? outpoint.txid
  let (output, left) ← coins.spend? outpoint.vout
  let undo := if left.isSpent then ⟨output, coins.coinbase, coins.height, coins.version⟩
    else OutputUndo.plain output
  return (undo, view.store outpoint.txid left)

/-- The entry that a record is restored into, and whether it is the one that the record expects: a
fresh one if the record says what the transaction was, else the one that is there. -/
def entryFor (view : CoinsView) (txid : Digest) (undo : OutputUndo) : Coins × Bool :=
  let coins := (view.get? txid).getD .blank
  if undo.hasMetadata then
    (⟨undo.coinbase, undo.height, undo.version, []⟩, coins.isSpent)
  else
    (coins, !coins.isSpent)

/-- Puts back the output at a place, and says whether the place was as expected. -/
def restore (view : CoinsView) (outpoint : OutPoint) (undo : OutputUndo) : CoinsView × Bool :=
  let (coins, expected) := view.entryFor outpoint.txid undo
  let free := (coins.output? outpoint.vout).isNone
  (view.insert outpoint.txid (coins.restore outpoint.vout undo.output), expected && free)

/-- Takes out the entry of a transaction, and says whether it held all the outputs. -/
def removeTx (view : CoinsView) (tx : Transaction) (height : Nat) : CoinsView × Bool :=
  let coins := (view.get? tx.txid).getD .blank
  (view.erase tx.txid, coins.agrees (Coins.ofTx tx height))

end CoinsView

end Reorg
