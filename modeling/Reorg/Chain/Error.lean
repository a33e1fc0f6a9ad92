/-
**Why a block cannot be connected or disconnected.**

Each constructor of `ChainError` is one cause; `ChainError.message` is the sentence shown for it.
-/

import Reorg.Transaction

namespace Reorg

/-- Why a block cannot be connected or disconnected. -/
inductive ChainError
  /-- An input is not an unspent output. -/
  | missingInput (outpoint : OutPoint)
  | unknownSidechain (id : SidechainId)
  | sidechainExists (id : SidechainId)
  /-- The log is not for as many transactions as the block spends with. -/
  | txCountMismatch (expected actual : Nat)
  /-- The log is not for as many inputs as a transaction has. -/
  | inputCountMismatch (txid : Digest) (expected actual : Nat)
  /-- The balance of a sidechain is too small. -/
  | insufficientBalance (id : SidechainId) (balance needed : Amount)
  /-- A certificate is not for the epoch behind the last one. -/
  | epochMismatch (id : SidechainId) (expected got : Epoch)
  /-- An amount that should be on its way is not. -/
  | immatureMissing (id : SidechainId) (height : Nat) (amount : Amount)
  /-- A sidechain that should go still holds value. -/
  | sidechainNotEmpty (id : SidechainId) (balance : Amount)
  /-- A value of a sidechain is refused. -/
  | structural (problem : StructuralError)
deriving DecidableEq

/-- The word for the cause of a chain error. -/
def ChainError.name : ChainError → String
  | .missingInput _ => "MissingInput"
  | .unknownSidechain _ => "UnknownSidechain"
  | .sidechainExists _ => "SidechainExists"
  | .txCountMismatch _ _ => "UndoTxCountMismatch"
  | .inputCountMismatch _ _ _ => "UndoInputCountMismatch"
  | .insufficientBalance _ _ _ => "InsufficientBalance"
  | .epochMismatch _ _ _ => "EpochMismatch"
  | .immatureMissing _ _ _ => "ImmatureAmountMissing"
  | .sidechainNotEmpty _ _ => "SidechainNotEmpty"
  | .structural _ => "Structural"

/-- The sentence shown for a chain error. -/
def ChainError.message : ChainError → String
  | .missingInput outpoint => "Missing or spent input " ++ outpoint.text
  | .unknownSidechain id => "Unknown sidechain " ++ id.toHex
  | .sidechainExists id => "Sidechain " ++ id.toHex ++ " already exists"
  | .txCountMismatch expected actual =>
    s!"Undo data has {actual} transaction entries, block needs {expected}"
  | .inputCountMismatch txid expected actual =>
    "Undo data for " ++ txid.toHex ++ s!" has {actual} inputs, transaction has {expected}"
  | .insufficientBalance id balance needed =>
    "Sidechain " ++ id.toHex ++ s!" balance {balance} cannot cover {needed}"
  | .epochMismatch id expected got =>
    "Certificate for sidechain " ++ id.toHex ++ s!" has epoch {got}, expected {expected}"
  | .immatureMissing id height amount =>
    "Sidechain " ++ id.toHex ++ s!" has no immature amount of {amount} at height {height}"
  | .sidechainNotEmpty id balance =>
    "Sidechain " ++ id.toHex ++ s!" still holds balance {balance}"
  | .structural problem => "Structural error: " ++ problem.message

end Reorg
