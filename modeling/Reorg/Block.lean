/-
**Blocks.**

A block carries transactions and certificates at a height, and the root that commits to the
sidechains after it.

* `Block.preimage`: the text that the hash of a block commits to.
-/

import Reorg.Transaction

namespace Reorg

/-- A block: its identifier, its place on the chain and what it brings. -/
structure Block where
  hash : Digest
  height : Nat
  transactions : List Transaction
  certificates : List Certificate
  root : Digest
deriving DecidableEq

namespace Block

/-- The text that the hash of a block commits to. -/
def preimage (parent : Digest) (height : Nat) (transactions : List Transaction)
    (certificates : List Certificate) (root : Digest) : String :=
  parent.toHex ++ describe height ++ root.toHex ++
    String.join (transactions.map fun tx => tx.txid.toHex) ++
    String.join (certificates.map fun certificate => certificate.id.toHex)

/-- The block with the hash that its content gives it. -/
def create (parent : Digest) (height : Nat) (transactions : List Transaction)
    (certificates : List Certificate) (root : Digest) : Block :=
  ⟨Digest.hashText (preimage parent height transactions certificates root), height, transactions,
    certificates, root⟩

/-- Whether a block is the first of its chain. -/
def isGenesis (block : Block) : Bool := block.height == 0

/-- The transactions that spend outputs. -/
def spending (block : Block) : List Transaction :=
  block.transactions.filter fun tx => !tx.coinbase

/-- The most transactions that fit into a block of two million bytes, at 61 bytes each. -/
def maxTransactions : Nat := 2000000 / 61

end Block

end Reorg
