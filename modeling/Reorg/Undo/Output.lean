/-
**Undo records of outputs and transactions.**

The record of a spent output is the output, and what its transaction was, but the latter only when
no other output of the transaction was left: a height above zero says that it is there.
-/

import Reorg.Output

namespace Reorg

/-- What it takes to restore a spent output. -/
structure OutputUndo where
  output : Output
  coinbase : Bool
  height : Nat
  version : Int32
deriving DecidableEq

namespace OutputUndo

/-- The record of an output whose transaction is still known. -/
def plain (output : Output) : OutputUndo := ⟨output, false, 0, 0⟩

/-- Whether a record says what the transaction was. -/
def hasMetadata (undo : OutputUndo) : Bool := 0 < undo.height

/-- The height and the coinbase flag in one number. -/
def code (undo : OutputUndo) : Nat := 2 * undo.height + undo.coinbase.toNat

/-- The version as the word that the wire carries. -/
def versionWord (undo : OutputUndo) : Nat := undo.version.toUInt32.toNat

instance : ToWire OutputUndo where
  toWire undo := VarInt.write undo.code ++
    (if undo.hasMetadata then VarInt.write undo.versionWord else []) ++ toWire undo.output
  wireSize undo := VarInt.size undo.code +
    (if undo.hasMetadata then VarInt.size undo.versionWord else 0) + wireSize undo.output

/-- Reads a height and a coinbase flag. -/
def readCode : Decoder (Nat × Bool) := do
  let code ← VarInt.read
  if code / 2 < UInt32.size then return (code / 2, code % 2 == 1) else throw (.outOfRange .undoHeight)

/-- Reads the version of a transaction, which is written as an unsigned word. -/
def readVersion : Decoder Int32 := do
  return (UInt32.ofNat (← VarInt.readWord32)).toInt32

/-- Reads the record of an output, which has a version only above height zero. -/
def read : Decoder OutputUndo := do
  let (height, coinbase) ← readCode
  let version ← if 0 < height then readVersion else pure 0
  return ⟨← Output.read, coinbase, height, version⟩

instance : FromWire OutputUndo := ⟨read⟩

end OutputUndo

/-- What it takes to restore the outputs that a transaction spent, in the order of its inputs. -/
structure TxUndo where
  prevouts : List OutputUndo
deriving DecidableEq

namespace TxUndo

instance : ToWire TxUndo where
  toWire undo := toWire undo.prevouts
  wireSize undo := wireSize undo.prevouts

/-- Reads the record of a transaction. -/
def read : Decoder TxUndo := do return ⟨← fromWire⟩

instance : FromWire TxUndo := ⟨read⟩

end TxUndo

end Reorg
