/-
**Undo logs of blocks.**

A log holds one record for each spending transaction of a block, the root before the block, and a
record for each sidechain that the block paid or matured. It is always written in the current
generation; the legacy generation, which has no sidechains, can still be read.

* `BlockUndo.Builder`: a log in the making, which refuses a second record of a sidechain.
-/

import Reorg.Undo.Generation
import Reorg.Undo.Output
import Reorg.Undo.Sidechain

namespace Reorg

/-- What it takes to disconnect a block. -/
structure BlockUndo where
  txUndos : List TxUndo
  priorRoot : Digest
  sidechains : OrderedMap SidechainId SidechainUndo
  generation : Generation
deriving DecidableEq

namespace BlockUndo

/-- Whether a log was read from a record of the legacy generation. -/
def isLegacy (undo : BlockUndo) : Bool := undo.generation == .legacy

/-- The number of outputs that a log restores. -/
def inputCount (undo : BlockUndo) : Nat :=
  totalOf (fun txUndo => txUndo.prevouts.length) undo.txUndos

instance : ToWire BlockUndo where
  toWire undo := CompactSize.write Generation.marker ++ toWire undo.txUndos ++
    toWire undo.priorRoot ++ toWire undo.sidechains
  wireSize undo := CompactSize.size Generation.marker + wireSize undo.txUndos +
    wireSize undo.priorRoot + wireSize undo.sidechains

/-- Reads a record of the current generation behind its marker. -/
def readCurrent : Decoder BlockUndo := do
  let txUndos ← fromWire
  let priorRoot ← fromWire
  return ⟨txUndos, priorRoot, ← fromWire, .current⟩

/-- Reads a record of the legacy generation behind the number of its transactions. -/
def readLegacy (count : Nat) : Decoder BlockUndo := do
  let txUndos ← Decoder.sequenceOf fromWire count
  return ⟨txUndos, ← fromWire, .empty, .legacy⟩

/-- Reads a record of either generation. -/
def read : Decoder BlockUndo := do
  let leading ← CompactSize.readLength
  match Generation.ofLeading leading with
  | .current => readCurrent
  | .legacy => readLegacy leading

instance : FromWire BlockUndo := ⟨read⟩

/-- A log in the making. -/
structure Builder where
  txUndos : List TxUndo
  priorRoot : Digest
  sidechains : OrderedMap SidechainId SidechainUndo

namespace Builder

/-- A log with only the root before the block in it. -/
def start (priorRoot : Digest) : Builder := ⟨[], priorRoot, .empty⟩

/-- Adds the record of the next spending transaction. -/
def pushTx (builder : Builder) (undo : TxUndo) : Builder :=
  { builder with txUndos := builder.txUndos ++ [undo] }

/-- Adds the record of a sidechain, which must not have one yet. -/
def recordSidechain (builder : Builder) (id : SidechainId) (undo : SidechainUndo) :
    Except StructuralError Builder :=
  if builder.sidechains.contains id then .error (.duplicateEntry id)
  else .ok { builder with sidechains := builder.sidechains.insert id undo }

/-- Adds the records of some sidechains, ascending. -/
def recordAll (builder : Builder) (undos : OrderedMap SidechainId SidechainUndo) :
    Except StructuralError Builder :=
  undos.entries.foldlM (fun built entry => recordSidechain built entry.1 entry.2) builder

/-- The log that has been built up. -/
def build (builder : Builder) : BlockUndo :=
  ⟨builder.txUndos, builder.priorRoot, builder.sidechains, .current⟩

end Builder

end BlockUndo

end Reorg
