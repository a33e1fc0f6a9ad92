/-
**Ledgers with subscribers.**

A node is a ledger whose events go to the subscribers of a session as soon as a step is taken.
-/

import Reorg.Bus.Session
import Reorg.Ledger.Basic

namespace Reorg

/-- A ledger and the session of those who hear of its events. -/
structure Node (σ : Type) where
  ledger : Ledger σ
  session : Session

namespace Node

variable {σ : Type} [UndoStore σ] [Arithmetic]

/-- Connects a block; gives what happened on the bus, or why the block is not connected. -/
def connect (node : Node σ) (block : Block) : Node σ × Except LedgerError (List TraceEntry) :=
  match node.ledger.connect block with
  | (ledger, .error problem) => ({ node with ledger }, .error problem)
  | (ledger, .ok events) =>
    let (session, trace) := node.session.publishAll events
    (⟨ledger, session⟩, .ok trace)

/-- Disconnects the last block; gives its status, if there was a block, and what happened on the
bus, or why it is not disconnected. -/
def disconnectTip (node : Node σ) :
    Node σ × Except LedgerError (Option DisconnectStatus × List TraceEntry) :=
  match node.ledger.disconnectTip with
  | .error problem => (node, .error problem)
  | .ok (none, _) => (node, .ok (none, []))
  | .ok (some (status, events), ledger) =>
    let (session, trace) := node.session.publishAll events
    (⟨ledger, session⟩, .ok (some status, trace))

end Node

end Reorg
