/-
**Why a command fails.**

`ToolError` collects the causes that a command meets; `ToolError.text` is the described form that is
written when the tool ends with it.
-/

import Reorg.Store.Error

namespace Reorg

instance : Described FormatError where
  describe problem :=
    match problem with
    | .truncated needed available => Text.record problem.name
      [("needed", describe needed), ("available", describe available)]
    | .lengthMismatch declared remaining => Text.record problem.name
      [("declared", describe declared), ("remaining", describe remaining)]
    | .nonCanonical value => Text.tagged problem.name (describe value)
    | .oversizedLength length => Text.tagged problem.name (describe length)
    | .trailingBytes count => Text.tagged problem.name (describe count)
    | .varIntOverflow => problem.name
    | .outOfRange quantity => Text.tagged problem.name (Text.quote quantity.name)
    | .duplicateKey => Text.tagged problem.name (Text.quote FormatError.duplicateKeyReason)
    | .keyOffCurve => Text.tagged problem.name (Text.quote FormatError.keyOffCurveReason)

instance : Described StorageError where
  describe problem :=
    match problem with
    | .file _ => problem.name
    | .notFound block => Text.tagged problem.name (describe block)
    | .unreadable block source => Text.record problem.name
      [("block", describe block), ("source", describe source)]
    | .checksumMismatch block => Text.tagged problem.name (describe block)

/-- Why a command fails. -/
inductive ToolError
  | store (problem : StorageError)
  /-- A file cannot be read or written. -/
  | file (problem : FileError)
  /-- A file does not read as a record. -/
  | format (problem : FormatError)
  /-- A text names no block. -/
  | invalidBlockId (text : String) (problem : HexError)
  /-- Some records are damaged. -/
  | damaged (count : Nat)
deriving DecidableEq

namespace ToolError

/-- The sentence shown for a failure. -/
def message : ToolError → String
  | .store problem => problem.message
  | .file problem => problem.message
  | .format problem => problem.message
  | .invalidBlockId text problem => "invalid block id '" ++ text ++ "': " ++ problem.message
  | .damaged count => s!"{count} damaged undo record(s)"

/-- What is written when the tool ends with a failure. -/
def text : ToolError → String
  | .store problem => describe problem
  | .file _ => "IoError"
  | .format problem => describe problem
  | problem => Text.quote problem.message

end ToolError

end Reorg
