/-
**Generations of the undo record.**

A record of the current generation opens with a marker where a record of the legacy generation has
the number of its transactions. A block cannot have as many transactions as the marker says, so the
first number of a record tells its generation.

* `maxTransactions_lt_marker`: why the marker is not mistaken for a count.
-/

import Reorg.Block

namespace Reorg

/-- The generations of the undo record. -/
inductive Generation
  | legacy
  | current
deriving DecidableEq

namespace Generation

/-- The number that opens a record of the current generation. -/
def marker : Nat := 0xFEC1

theorem maxTransactions_lt_marker : Block.maxTransactions < marker := by decide

/-- The generation of a record that opens with a given number. -/
def ofLeading (leading : Nat) : Generation :=
  if leading = marker then .current else .legacy

/-- The generation that the first number of a byte string announces, whatever follows it. -/
def sniff (input : Bytes) : Except FormatError Generation :=
  match CompactSize.peek input with
  | .error problem => .error problem
  | .ok (leading, _) => .ok (ofLeading leading)

/-- The word for a generation. -/
def name : Generation → String
  | .legacy => "legacy"
  | .current => "current"

end Generation

end Reorg
