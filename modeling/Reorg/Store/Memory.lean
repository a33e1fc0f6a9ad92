/-
**The store in memory.**

It holds the bytes of each block in a map and never fails to hold more.
-/

import Reorg.Store.Basic

namespace Reorg

/-- A store that is a map from blocks to bytes. -/
structure MemoryStore where
  records : OrderedMap Digest Bytes
deriving DecidableEq

namespace MemoryStore

/-- A store without records. -/
def empty : MemoryStore := ⟨.empty⟩

instance : UndoStore MemoryStore where
  putRaw store block payload := (⟨store.records.insert block payload⟩, .ok ())
  getRaw store block :=
    match store.records.get? block with
    | none => .error (.notFound block)
    | some payload => .ok payload
  contains store block := store.records.contains block
  list store := .ok store.records.keys

end MemoryStore

end Reorg
