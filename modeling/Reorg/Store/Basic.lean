/-
**Stores of undo logs.**

A store holds the bytes of logs by block. What it does is given by four operations; a log is put as
its wire form and got by reading the bytes again.
-/

import Reorg.Store.Error
import Reorg.Undo.Block

namespace Reorg

/-- A type of stores that hold bytes by block. -/
class UndoStore (σ : Type) where
  /-- Holds bytes for a block, in place of any before; a store may change even when it fails. -/
  putRaw : σ → Digest → Bytes → σ × Except StorageError Unit
  /-- The bytes held for a block. -/
  getRaw : σ → Digest → Except StorageError Bytes
  /-- Whether there is anything for a block. -/
  contains : σ → Digest → Bool
  /-- The blocks that there are bytes for, ascending. -/
  list : σ → Except StorageError (List Digest)

namespace UndoStore

variable {σ : Type} [UndoStore σ]

/-- Stores the wire form of an undo log under its block. -/
def put (store : σ) (block : Digest) (undo : BlockUndo) : σ × Except StorageError Unit :=
  putRaw store block (toWire undo)

/-- Reads the undo log that is stored under a block. -/
def get (store : σ) (block : Digest) : Except StorageError BlockUndo := do
  let payload ← getRaw store block
  (ofWire BlockUndo payload).mapError (.unreadable block)

end UndoStore

end Reorg
