/-
**Ledgers.**

A ledger is the chain of the blocks that are connected, the state that they led to, and the store
of their logs. A block is connected at the end and disconnected from there; either happens as a
whole or not at all, and gives the events that tell of it.

* `Ledger.connect`, `Ledger.disconnectTip`: the two steps;
* `Ledger.sidechainEvents`: what is told about the sidechains that a block touched.
-/

import Reorg.Bus.Event
import Reorg.Chain.Disconnect
import Reorg.Ledger.Config
import Reorg.Store.Basic

namespace Reorg

/-- Why a ledger does not take a step. -/
inductive LedgerError
  /-- A block is not for the height behind the last one. -/
  | notTip (block : Digest) (expected got : Nat)
  /-- The block cannot be connected or disconnected. -/
  | chain (problem : ChainError)
  | store (problem : StorageError)
deriving DecidableEq

/-- The word for the cause of a ledger error. -/
def LedgerError.name : LedgerError → String
  | .notTip _ _ _ => "NotTip"
  | .chain problem => problem.name
  | .store _ => "Storage"

/-- The sentence shown for a ledger error. -/
def LedgerError.message : LedgerError → String
  | .notTip block expected got =>
    "Block " ++ block.toHex ++
      s!" at height {got} does not extend the tip (expected height {expected})"
  | .chain problem => problem.message
  | .store problem => "Storage error: " ++ problem.message

/-- A chain of blocks, the last one first, with its state and the store of its logs. -/
structure Ledger (σ : Type) where
  blocks : List Block
  state : ChainState
  store : σ

namespace Ledger

variable {σ : Type} [Arithmetic]

/-- The ledger without blocks. -/
def start (config : LedgerConfig) (store : σ) : Ledger σ :=
  ⟨[], .initial config.effectiveMaturity, store⟩

/-- The last block that is connected. -/
def tip? (ledger : Ledger σ) : Option Block := ledger.blocks.head?

/-- The height that the next block has to have. -/
def nextHeight (ledger : Ledger σ) : Nat :=
  match ledger.tip? with
  | none => 0
  | some block => Arithmetic.height (block.height + 1)

/-- The blocks, the first one first. -/
def blockIds (ledger : Ledger σ) : List Digest := (ledger.blocks.map Block.hash).reverse

/-- What is told about the sidechains that a block touched, in the state that it led to or left. -/
def sidechainEvents (state : ChainState) (block : Block) (undo : BlockUndo) : List Event :=
  (touchedSidechains block undo).map fun id =>
    match state.sidechains.get? id with
    | none => .sidechainUpdated id block.hash false 0 noEpoch
    | some sidechain => .sidechainUpdated id block.hash true sidechain.balance sidechain.lastEpoch

variable [UndoStore σ]

/-- Connects a block at the end, and gives the events that tell of it. A store that fails is left
as it is then; nothing else changes. -/
def connect (ledger : Ledger σ) (block : Block) : Ledger σ × Except LedgerError (List Event) :=
  if block.height ≠ ledger.nextHeight then
    (ledger, .error (.notTip block.hash ledger.nextHeight block.height))
  else
    match ledger.state.connect block with
    | .error problem => (ledger, .error (.chain problem))
    | .ok (state, undo) =>
      match UndoStore.put ledger.store block.hash undo with
      | (store, .error problem) => ({ ledger with store }, .error (.store problem))
      | (store, .ok ()) =>
        (⟨block :: ledger.blocks, state, store⟩,
          .ok (.blockConnected block.hash block.height block.transactions.length (wireSize undo) ::
            sidechainEvents state block undo))

/-- Disconnects the last block by its log in the store, and gives the events that tell of it;
without blocks nothing happens. -/
def disconnectTip (ledger : Ledger σ) :
    Except LedgerError (Option (DisconnectStatus × List Event) × Ledger σ) :=
  match ledger.blocks with
  | [] => .ok (none, ledger)
  | block :: blocks => do
    let undo ← (UndoStore.get ledger.store block.hash).mapError .store
    let (state, status) ← (ledger.state.disconnect block undo).mapError .chain
    let events := .blockDisconnected block.hash block.height (status == .clean) ::
      sidechainEvents state block undo
    return (some (status, events), ⟨blocks, state, ledger.store⟩)

end Ledger

end Reorg
