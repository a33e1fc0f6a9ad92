/-
**Undo records of sidechains.**

The record of a sidechain is the amount that joined its balance in a block and the epoch of its last
certificate before the block.
-/

import Reorg.Sidechain.Record

namespace Reorg

/-- What it takes to restore a sidechain. -/
structure SidechainUndo where
  matured : Amount
  priorEpoch : Epoch
deriving DecidableEq

namespace SidechainUndo

/-- The record with nothing filled in. -/
def blank : SidechainUndo := ⟨0, -2⟩

instance : Inhabited SidechainUndo := ⟨blank⟩

/-- Takes a matured amount out of the balance, puts it back on its way to the height at which it
matured, and restores the epoch. -/
def applyTo [Arithmetic] (undo : SidechainUndo) (sidechain : Sidechain) (height : Nat) : Sidechain :=
  let reduced :=
    { sidechain with balance := Arithmetic.amount (sidechain.balance - undo.matured) }
  let waiting := if 0 < undo.matured then reduced.addImmature height undo.matured else reduced
  { waiting with lastEpoch := undo.priorEpoch }

instance : ToWire SidechainUndo where
  toWire undo := littleEndian 8 (toWord UInt64.size undo.matured) ++
    littleEndian 4 (toWord UInt32.size undo.priorEpoch)
  wireSize _ := 12

/-- Reads a note: its amount, then its epoch, both in full width. -/
def read : Decoder SidechainUndo := do
  let matured := ofWord UInt64.size (← Decoder.word 8)
  return ⟨matured, ofWord UInt32.size (← Decoder.word 4)⟩

instance : FromWire SidechainUndo := ⟨read⟩

end SidechainUndo

end Reorg
