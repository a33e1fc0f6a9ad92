/-
**The log of a block in the store.**

A ledger takes any amounts, and puts the log of a block into the store when it connects the block.
What the store gives back is that log exactly when the packed forms of the amounts in it fit their
words and nothing in it is too long. Those of amounts in range fit; others need not, and then the
store gives back a log with other amounts.

* `Ledger.grown`: a ledger that blocks were connected to;
* `Ledger.Active`, `Ledger.active_grown`: how its active blocks have led to its state;
* `Ledger.stored_exact_iff`: when the store gives back the log that was built;
* `Ledger.stored_loses_sign`: a block that spends a negative amount.
-/

import Mathlib.Data.List.Induction
import Reorg.Proofs.Ledger.Run
import Reorg.Proofs.Undo.Carried

namespace Reorg

open Fallible OrderedMap

namespace Ledger

variable {config : LedgerConfig} {blocks : List Block} {block : Block} {next : ChainState}
  {undo : BlockUndo} {ledger : Ledger MemoryStore} {events : List Event}

/-- A ledger over an empty store in memory, after some blocks were to be connected to it. -/
def grown (config : LedgerConfig) (blocks : List Block) : Ledger MemoryStore :=
  blocks.foldl (fun ledger block => (ledger.connect block).1) (start config .empty)

/-- The active blocks have led to the state, and are below the height of the next one. -/
structure Active (config : LedgerConfig) (ledger : Ledger MemoryStore) : Prop where
  replayed : (ChainState.initial config.effectiveMaturity).replay ledger.blocks.reverse =
    .ok ledger.state
  below : ∀ block ∈ ledger.blocks, block.height < ledger.nextHeight

theorem Active.connect (active : Active config ledger) :
    Active config (ledger.connect block).1 := by
  rcases connect_fst ledger block with same | ⟨next, undo, height, connected, after⟩
  · rw [same]
    exact active
  · rw [after]
    refine ⟨?_, List.forall_mem_cons.mpr ⟨Nat.lt_succ_self _, fun other member => ?_⟩⟩
    · rw [List.reverse_cons, ChainState.replay_concat_eq_ok_iff]
      exact ⟨ledger.state, undo, active.replayed, connected⟩
    · exact Nat.lt_succ_of_lt (height ▸ active.below other member)

theorem active_grown : Active config (grown config blocks) := by
  induction blocks using List.reverseRecOn with
  | nil => exact ⟨rfl, fun _ member => (List.not_mem_nil member).elim⟩
  | append_singleton blocks block ih =>
    rw [grown, List.foldl_append]
    exact ih.connect

/-- What a ledger is after a block that it took. -/
theorem connect_fst_of_ok (accepted : (ledger.connect block).2 = .ok events)
    (connected : ledger.state.connect block = .ok (next, undo)) :
    block.height = ledger.nextHeight ∧ (ledger.connect block).1 =
      ⟨block :: ledger.blocks, next, ⟨ledger.store.records.insert block.hash (toWire undo)⟩⟩ := by
  rw [connect] at accepted ⊢
  by_cases height : block.height = ledger.nextHeight
  · rw [if_neg (not_not.mpr height), connected]
    exact ⟨height, rfl⟩
  · rw [if_pos height] at accepted
    cases accepted

/-- The records of a block that a ledger took fit, but for their amounts. -/
theorem Active.fits (active : Active config ledger) (low : block.height < UInt32.size)
    (height : block.height = ledger.nextHeight)
    (connected : ledger.state.connect block = .ok (next, undo)) :
    undo.generation = .current ∧ ∀ txUndo ∈ undo.txUndos, ∀ prevout ∈ txUndo.prevouts,
      prevout.FitsWith Output.Short := by
  have coins : ledger.state.coins.FitsWith Output.Short := by
    refine ChainState.fitsWith_of_replay ChainState.sound_initial CoinsView.fitsWith_empty
      (fun other member => ?_) (fun _ _ _ _ _ _ short => short) active.replayed
    have under := active.below other (List.mem_reverse.mp member)
    exact Nat.lt_trans (height ▸ under) low
  exact (ChainState.fitsWith_of_connect (ChainState.sound_initial.replay active.replayed) coins low
    (fun _ _ _ _ short => short) connected).1

/-- **When the store gives back the log that was built** for a block: exactly when the log has
bounds and the packed forms of the amounts in it fit their words. Then the ledger disconnects the
block as the log itself does. -/
theorem stored_exact_iff (low : block.height < UInt32.size)
    (accepted : ((grown config blocks).connect block).2 = .ok events)
    (connected : (grown config blocks).state.connect block = .ok (next, undo)) :
    let after := ((grown config blocks).connect block).1
    (UndoStore.get after.store block.hash = .ok undo ↔ undo.Bounded ∧
      ∀ txUndo ∈ undo.txUndos, ∀ prevout ∈ txUndo.prevouts, prevout.output.value.Packs) ∧
    (UndoStore.get after.store block.hash = .ok undo →
      ∀ left status, next.disconnect block undo = .ok (left, status) → ∃ told,
        after.disconnectTip =
          .ok (some (status, told), ⟨(grown config blocks).blocks, left, after.store⟩)) := by
  obtain ⟨height, after⟩ := connect_fst_of_ok accepted connected
  obtain ⟨current, fits⟩ := active_grown.fits low height connected
  simp only [after]
  refine ⟨?_, fun stored left status back => ⟨_, disconnectTip_eq_ok stored back⟩⟩
  rw [get_put, mapError_eq_ok_iff]
  exact BlockUndo.ofWire_toWire_eq_ok_iff current fits

/-- A chain that mints an output of some amount. -/
def paying (value : Amount) : List Block :=
  [⟨.filled 5, 0, [], [], .zero⟩,
    ⟨.filled 6, 1, [⟨.filled 1, 1, true, [], [⟨value, [0x51]⟩], []⟩], [], .zero⟩]

/-- A block that spends the output. -/
def spending : Block :=
  ⟨.filled 7, 2, [⟨.filled 2, 1, false, [⟨.filled 1, 0⟩], [], []⟩], [], .zero⟩

/-- The log of the block that spends an output of some amount. -/
def spent (value : Amount) : BlockUndo :=
  ⟨[⟨[⟨⟨value, [0x51]⟩, true, 1, 1⟩]⟩], .zero, .empty, .current⟩

theorem stored_exact_iff_paying : ∃ events next,
    ((grown regtest (paying 50)).connect spending).2 = .ok events ∧
    (grown regtest (paying 50)).state.connect spending = .ok (next, spent 50) ∧
    let after := ((grown regtest (paying 50)).connect spending).1
    (UndoStore.get after.store spending.hash = .ok (spent 50) ↔ (spent 50).Bounded ∧
      ∀ txUndo ∈ (spent 50).txUndos, ∀ prevout ∈ txUndo.prevouts, prevout.output.value.Packs) ∧
    (UndoStore.get after.store spending.hash = .ok (spent 50) →
      ∀ left status, next.disconnect spending (spent 50) = .ok (left, status) → ∃ told,
        after.disconnectTip =
          .ok (some (status, told), ⟨(grown regtest (paying 50)).blocks, left, after.store⟩)) := by
  obtain ⟨events, accepted⟩ := exists_eq_ok
    (show ((grown regtest (paying 50)).connect spending).2.isOk = true by decide +kernel)
  have connected : (grown regtest (paying 50)).state.connect spending =
    .ok (⟨.empty, .empty, .zero, 1⟩, spent 50) := rfl
  exact ⟨events, _, accepted, connected, stored_exact_iff (by decide) accepted connected⟩

/-- **A negative amount comes back as another one**: the store has not the log that was built, and
disconnecting the block is clean and makes an output of an amount that no block had. -/
theorem stored_loses_sign : ∃ events next told left,
    ((grown regtest (paying (-1))).connect spending).2 = .ok events ∧
    (grown regtest (paying (-1))).state.connect spending = .ok (next, spent (-1)) ∧
    UndoStore.get ((grown regtest (paying (-1))).connect spending).1.store spending.hash =
      .ok (spent 2049638230412172324) ∧
    ((grown regtest (paying (-1))).connect spending).1.disconnectTip =
      .ok (some (.clean, told), left) ∧
    left.state.coins ≠ (grown regtest (paying (-1))).state.coins := by
  obtain ⟨events, accepted⟩ := exists_eq_ok
    (show ((grown regtest (paying (-1))).connect spending).2.isOk = true by decide +kernel)
  have connected : (grown regtest (paying (-1))).state.connect spending =
    .ok (⟨.empty, .empty, .zero, 1⟩, spent (-1)) := rfl
  obtain ⟨height, after⟩ := connect_fst_of_ok accepted connected
  obtain ⟨current, fits⟩ := active_grown.fits (by decide) height connected
  have changed : (spent (-1)).carried = spent 2049638230412172324 := by decide +kernel
  have stored : UndoStore.get ((grown regtest (paying (-1))).connect spending).1.store
      spending.hash = .ok (spent 2049638230412172324) := by
    rw [after, get_put, BlockUndo.ofWire_toWire current (by decide +kernel) fits, changed]
    rfl
  rw [after] at stored ⊢
  have back : (⟨.empty, .empty, .zero, 1⟩ : ChainState).disconnect spending
      (spent 2049638230412172324) = .ok (⟨.ofList [(.filled 1, ⟨true, 1, 1,
        [some ⟨2049638230412172324, [0x51]⟩]⟩)], .empty, .zero, 1⟩, .clean) := rfl
  exact ⟨events, _, _, _, accepted, connected, stored, disconnectTip_eq_ok stored back,
    by decide +kernel⟩

end Ledger

end Reorg
