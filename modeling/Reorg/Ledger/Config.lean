/-
**The configuration of a ledger.**

A network fixes how long an amount sent to a sidechain waits; only the test network that everybody
runs alone lets the configuration choose.
-/

import Reorg.Json.Document
import Reorg.Json.Value
import Reorg.Store.FileTree

namespace Reorg

/-- The networks that a ledger can run on. -/
inductive Network
  | main
  | test
  | regtest
deriving DecidableEq

namespace Network

/-- Every network. -/
def all : List Network := [.main, .test, .regtest]

/-- The word for a network. -/
def name : Network → String
  | .main => "main"
  | .test => "test"
  | .regtest => "regtest"

/-- The network that a word stands for. -/
def ofName? (text : String) : Option Network := all.find? fun network => network.name == text

/-- The number of blocks that an amount sent to a sidechain waits. -/
def maturity : Network → Nat
  | .main | .test => 10
  | .regtest => 2

/-- The JSON form of a network: the word for it. -/
def toJson (network : Network) : Json := .string network.name

/-- The network in a document. -/
def ofDocument? (document : Document) : Option Network := document.variant?.bind ofName?

end Network

/-- The configuration of a ledger. -/
structure LedgerConfig where
  maturity? : Option Nat
  network : Network
deriving DecidableEq

/-- Why a configuration is not read. -/
inductive ConfigError
  /-- There is no file, or it does not hold a text. -/
  | unreadable
  /-- The text is no configuration. -/
  | malformed
deriving DecidableEq

namespace LedgerConfig

/-- The configuration that says nothing. -/
def default : LedgerConfig := ⟨none, .main⟩

/-- The number of blocks that an amount sent to a sidechain waits. -/
def effectiveMaturity (config : LedgerConfig) : Nat :=
  match config.network, config.maturity? with
  | .regtest, some maturity => maturity
  | network, _ => network.maturity

/-- The JSON form of a configuration, where a maturity that is not given is null. -/
def toJson (config : LedgerConfig) : Json :=
  .object [("sc_coin_maturity", match config.maturity? with
    | none => .null
    | some maturity => .number maturity), ("network", config.network.toJson)]

/-- A number of blocks, or nothing. -/
def maturityOf? : Document → Option (Option Nat)
  | .null => some none
  | document => (document.integer? 0 (UInt32.size - 1)).map fun value => some value.toNat

/-- The configuration that a document stands for; a missing field has its default. -/
def ofDocument? (document : Document) : Option LedgerConfig := do
  let fields ← document.fields? ["sc_coin_maturity", "network"]
  let maturity? ← match fields.head?.join with
    | none => some none
    | some found => maturityOf? found
  let network ← match fields[1]?.join with
    | none => some .main
    | some found => Network.ofDocument? found
  return ⟨maturity?, network⟩

/-- Reads the configuration in a file. -/
def load (tree : FileTree) (path : TreePath) : Except ConfigError LedgerConfig :=
  match tree.read path with
  | .error _ => .error .unreadable
  | .ok content =>
    match String.fromUTF8? ⟨content.toArray⟩ with
    | none => .error .unreadable
    | some text =>
      match (Document.ofText? text).bind ofDocument? with
      | none => .error .malformed
      | some config => .ok config

end LedgerConfig

end Reorg
