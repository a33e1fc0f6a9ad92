/-
**The state of a chain.**

The unspent outputs, the sidechains and the root that the last block left, under the number of
blocks that an amount sent to a sidechain waits.
-/

import Reorg.Coins.View

namespace Reorg

/-- The state that a chain of blocks has led to. -/
structure ChainState where
  coins : CoinsView
  sidechains : SidechainView
  root : Digest
  maturity : Nat
deriving DecidableEq

/-- The state before any block. -/
def ChainState.initial (maturity : Nat) : ChainState :=
  ⟨.empty, .empty, .zero, maturity⟩

end Reorg
