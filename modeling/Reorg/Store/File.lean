/-
**The store in files.**

Each block has a file in one directory: the bytes of its log and a checksum that commits to the
block and to the bytes. A file is written under another name first and then moved, so that a file of
a block is never half written.

* `FileStore.parse`: a file holds bytes for a block exactly when its end is their checksum.
-/

import Reorg.Store.Basic
import Reorg.Store.FileTree
import Reorg.Total

namespace Reorg

/-- The checksum behind the log of a block in a file. -/
def undoChecksum (block : Digest) (payload : Bytes) : Digest :=
  Digest.hash (block.bytes ++ payload)

/-- A directory of a file tree, as a store. -/
structure FileStore where
  tree : FileTree
  directory : TreePath
deriving DecidableEq

/-- What a file store holds, in numbers. -/
structure StoreStats where
  recordCount : Nat
  totalBytes : Nat
deriving DecidableEq

namespace FileStore

/-- The store in a directory for logs below a directory for data; both are made if need be, and what
is made stays also when not all of it can be made. -/
def openAt (tree : FileTree) (dataDirectory undoDirectory : String) :
    FileTree × Except FileError FileStore :=
  let directory := (TreePath.ofText dataDirectory).join undoDirectory
  let (made, result) := tree.createDirectories directory
  (made, result.map fun _ => ⟨made, directory⟩)

/-- The ending of the names of files that hold logs. -/
def ending : String := ".undo"

/-- The file of a block. -/
def recordPath (store : FileStore) (block : Digest) : TreePath :=
  store.directory.child (block.toHex ++ ending)

/-- The file that the log of a block is written to before it is moved. -/
def temporaryPath (store : FileStore) (block : Digest) : TreePath :=
  store.directory.child (block.toHex ++ ".tmp")

/-- The content of the file of a block. -/
def content (block : Digest) (payload : Bytes) : Bytes :=
  payload ++ (undoChecksum block payload).bytes

/-- The bytes that the content of the file of a block holds. -/
def parse (block : Digest) (content : Bytes) : Except StorageError Bytes :=
  let payload := content.take (content.length - 32)
  if content.length < 32 ∨ content.drop (content.length - 32) ≠ (undoChecksum block payload).bytes then
    .error (.checksumMismatch block)
  else
    .ok payload

/-- Writes bytes for a block under the temporary name. -/
def stage (store : FileStore) (block : Digest) (payload : Bytes) : Except FileError FileStore := do
  return { store with
    tree := ← store.tree.write (store.temporaryPath block) (content block payload) }

/-- Moves what was written for a block to its place. -/
def commit (store : FileStore) (block : Digest) : Except FileError FileStore := do
  return { store with
    tree := ← store.tree.move (store.temporaryPath block) (store.recordPath block) }

/-- Holds bytes for a block; what was written stays when it cannot be moved. -/
def putRaw (store : FileStore) (block : Digest) (payload : Bytes) :
    FileStore × Except StorageError Unit :=
  match store.stage block payload with
  | .error problem => (store, .error (.file problem))
  | .ok staged =>
    match staged.commit block with
    | .error problem => (staged, .error (.file problem))
    | .ok committed => (committed, .ok ())

/-- The bytes held for a block. -/
def getRaw (store : FileStore) (block : Digest) : Except StorageError Bytes :=
  match store.tree.read (store.recordPath block) with
  | .error .notFound => .error (.notFound block)
  | .error problem => .error (.file problem)
  | .ok content => parse block content

/-- The block that a name is for: the name ends as those of logs do, and its beginning shows a
digest. -/
def blockOf? (name : String) : Option Digest :=
  if name.endsWith ending then
    (Digest.ofHex (name.dropEnd ending.length).toString).toOption
  else
    none

/-- The blocks that there are files for, ascending. -/
def list (store : FileStore) : Except StorageError (List Digest) := do
  let names ← (store.tree.names store.directory).mapError .file
  return (names.filterMap blockOf?).mergeSort fun first second => (compare first second).isLE

/-- The number of files of blocks, and of the bytes in them. -/
def stats (store : FileStore) : Except StorageError StoreStats := do
  let blocks ← store.list
  let sizes ← blocks.mapM fun block =>
    match store.tree.node (store.recordPath block) with
    | .error problem => .error (.file problem)
    | .ok .directory => .ok FileTree.directorySize
    | .ok (.file content) => .ok content.length
  return ⟨blocks.length, totalOf id sizes⟩

instance : UndoStore FileStore where
  putRaw := putRaw
  getRaw := getRaw
  contains store block := store.tree.holds (store.recordPath block)
  list := list

end FileStore

end Reorg
