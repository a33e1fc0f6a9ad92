/-
**Why a store does not give a log.**

`FileError` lists what a file tree refuses; each constructor of `StorageError` is one cause, with
its sentence in `StorageError.message`.
-/

import Reorg.Hash.Digest

namespace Reorg

/-- Why a file tree refuses an operation. -/
inductive FileError
  | notFound
  | alreadyExists
  | notDirectory
  | isDirectory
  | nameTooLong
  /-- The path cannot be followed, or cannot be used in this way. -/
  | invalidPath
deriving DecidableEq

/-- The sentence shown for a refused file operation. -/
def FileError.message : FileError → String
  | .notFound => "No such file or directory (os error 2)"
  | .alreadyExists => "File exists (os error 17)"
  | .notDirectory => "Not a directory (os error 20)"
  | .isDirectory => "Is a directory (os error 21)"
  | .nameTooLong => "File name too long (os error 36)"
  | .invalidPath => "Invalid argument (os error 22)"

/-- Why a store does not do what it is asked. -/
inductive StorageError
  | file (problem : FileError)
  /-- There is no log for a block. -/
  | notFound (block : Digest)
  /-- The log of a block does not read. -/
  | unreadable (block : Digest) (problem : FormatError)
  /-- The file of a block is damaged. -/
  | checksumMismatch (block : Digest)
deriving DecidableEq

/-- The word for the cause of a storage error. -/
def StorageError.name : StorageError → String
  | .file _ => "IoError"
  | .notFound _ => "NotFound"
  | .unreadable _ _ => "Corruption"
  | .checksumMismatch _ => "ChecksumMismatch"

/-- The sentence shown for a storage error. -/
def StorageError.message : StorageError → String
  | .file problem => "IO error: " ++ problem.message
  | .notFound block => "No undo data stored for block " ++ block.toHex
  | .unreadable block problem =>
    "Undo data for block " ++ block.toHex ++ " is unreadable: " ++ problem.message
  | .checksumMismatch block => "Checksum mismatch in undo data for block " ++ block.toHex

end Reorg
