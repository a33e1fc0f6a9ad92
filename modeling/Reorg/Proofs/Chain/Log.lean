/-
**The log of a connected block may be written.**

What a transaction spends was added by another one, at a height that fits its word. Outputs that
nobody can spend, which includes those with scripts that are too long, never reach the view. So the
records of a block hold outputs of any kind that the spendable outputs of all blocks before it were
of; and they may be written when these were in range.

* `Coins.FitsWith`, `CoinsView.FitsWith`: unspent outputs of some kind, at heights that fit;
* `CoinsView.FitsWith.spendAll`: the records of what a transaction spends;
* `ChainState.fitsWith_of_connect`: the records of a block, and the unspent outputs after it;
* `ChainState.writable_of_connect`: the log of a block may be written;
* `ChainState.fitsWith_of_replay`: the unspent outputs after a chain.
-/

import Reorg.Proofs.Chain.Replay
import Reorg.Proofs.Coins.Outputs
import Reorg.Proofs.Undo.Wire

namespace Reorg

open Fallible OrderedMap

variable {kind : Output → Prop}

/-! ### Entries -/

namespace Coins

variable {coins left : Coins} {vout height : Nat} {output : Output} {tx : Transaction}

/-- The height fits its word, and every unspent output is of some kind. -/
structure FitsWith (kind : Output → Prop) (coins : Coins) : Prop where
  height : coins.height < UInt32.size
  outputs : ∀ output, some output ∈ coins.slots → kind output

theorem mem_of_mem_trim {slots : List (Option Output)} {slot : Option Output}
    (member : slot ∈ trim slots) : slot ∈ slots := by
  obtain ⟨count, whole⟩ := trim_append_replicate slots
  rw [whole]
  exact List.mem_append_left _ member

theorem FitsWith.spend? (fits : coins.FitsWith kind)
    (spent : coins.spend? vout = some (output, left)) : kind output ∧ left.FitsWith kind := by
  obtain ⟨found, rfl⟩ := spend?_eq_some_iff.mp spent
  refine ⟨fits.outputs output (List.mem_of_getElem? found), fits.height, fun other member => ?_⟩
  rcases List.mem_or_eq_of_mem_set (mem_of_mem_trim member) with before | cleared
  · exact fits.outputs other before
  · cases cleared

theorem fitsWith_ofTx (fits : height < UInt32.size)
    (made : ∀ output ∈ tx.outputs, output.script.length ≤ Script.maxSize → kind output) :
    (ofTx tx height).FitsWith kind where
  height := fits
  outputs output member := by
    obtain ⟨other, inside, slot⟩ := List.mem_map.mp (mem_of_mem_trim member)
    obtain ⟨rfl, -, short⟩ := slotOf_eq_some_iff.mp slot
    exact made other inside short

end Coins

/-! ### Views -/

namespace CoinsView

variable {view left final : CoinsView} {outpoint : OutPoint} {undo : OutputUndo} {txid : Digest}
  {coins : Coins} {tx : Transaction} {height : Nat}

/-- Every entry fits, with outputs of some kind. -/
def FitsWith (kind : Output → Prop) (view : CoinsView) : Prop :=
  ∀ txid coins, view.get? txid = some coins → coins.FitsWith kind

theorem fitsWith_empty : FitsWith kind .empty := fun _ _ held => by cases held

theorem FitsWith.store (fits : view.FitsWith kind) (entry : coins.FitsWith kind) :
    (view.store txid coins).FitsWith kind := by
  intro id found held
  rw [get?_store] at held
  split at held
  · split at held
    · cases held
    · cases held
      exact entry
  · exact fits id found held

/-- **What is spent fits its record**, and what is left fits as before. -/
theorem FitsWith.spend? (sound : view.Sound) (fits : view.FitsWith kind)
    (spent : view.spend? outpoint = some (undo, left)) :
    undo.FitsWith kind ∧ left.FitsWith kind := by
  obtain ⟨coins, output, rest, held, taken, rfl, rfl⟩ := spend?_eq_some_iff.mp spent
  have entry := fits _ _ held
  obtain ⟨outputFits, restFits⟩ := entry.spend? taken
  refine ⟨?_, fits.store restFits⟩
  split
  · exact ⟨outputFits, entry.height, .inl (sound.confirmed held)⟩
  · have low : (OutputUndo.plain output).height < UInt32.size := Nat.zero_lt_succ _
    exact ⟨outputFits, low, .inr rfl⟩

theorem FitsWith.spendAll {outpoints : List OutPoint} {undos : List OutputUndo}
    (sound : view.Sound) (fits : view.FitsWith kind)
    (spent : view.spendAll outpoints = .ok (undos, final)) :
    (∀ undo ∈ undos, undo.FitsWith kind) ∧ final.FitsWith kind := by
  induction outpoints generalizing view undos with
  | nil =>
    cases spent
    exact ⟨fun _ member => (List.not_mem_nil member).elim, fits⟩
  | cons outpoint outpoints ih =>
    obtain ⟨undo, left, later, first, rest, rfl⟩ := spendAll_cons_eq_ok_iff.mp spent
    obtain ⟨undoFits, leftFits⟩ := fits.spend? sound first
    obtain ⟨laterFits, finalFits⟩ := ih (sound.spend? first) leftFits rest
    exact ⟨List.forall_mem_cons.mpr ⟨undoFits, laterFits⟩, finalFits⟩

theorem FitsWith.added (fits : view.FitsWith kind) (low : height < UInt32.size)
    (made : ∀ output ∈ tx.outputs, output.script.length ≤ Script.maxSize → kind output) :
    (view.added tx height).FitsWith kind := by
  rw [CoinsView.added]
  split
  · exact fits
  · exact fits.store (Coins.fitsWith_ofTx low made)

end CoinsView

/-! ### Logs -/

namespace ChainState

variable {state next : ChainState} {block : Block} {undo : BlockUndo}

/-- **The records of a block fit**, and hold outputs of a kind that all outputs before and in the
block are of, as far as they are not too long to be spent. -/
theorem fitsWith_of_connect (sound : state.Sound) (fits : state.coins.FitsWith kind)
    (low : block.height < UInt32.size)
    (made : ∀ tx ∈ block.transactions, ∀ output ∈ tx.outputs,
      output.script.length ≤ Script.maxSize → kind output)
    (connected : state.connect block = .ok (next, undo)) :
    (undo.generation = .current ∧
      ∀ txUndo ∈ undo.txUndos, ∀ prevout ∈ txUndo.prevouts, prevout.FitsWith kind) ∧
        next.coins.FitsWith kind := by
  obtain ⟨spent, txUndos, sidechains, undos, transactions, round, rfl, rfl⟩ :=
    connect_eq_ok_iff.mp connected
  have recorded := foldlM_preserves
    (fun progress => (progress.1.Sound ∧ progress.1.coins.FitsWith kind) ∧
      ∀ txUndo ∈ progress.2.txUndos, ∀ prevout ∈ txUndo.prevouts, prevout.FitsWith kind)
    (fun progress tx after member held connected => ?_) ⟨⟨sound, fits⟩, ?_⟩ transactions
  · obtain ⟨⟨_, coins⟩, records⟩ := recorded
    exact ⟨⟨rfl, records⟩, coins⟩
  · obtain ⟨state', builder⟩ := progress
    obtain ⟨next, later⟩ := after
    obtain ⟨⟨sound, fits⟩, records⟩ := held
    have soundNext := sound.connectTx connected
    obtain ⟨prevouts, coins, sidechains, spent, -, rfl, rfl⟩ := connectTx_eq_ok_iff.mp connected
    obtain ⟨prevoutsFit, coinsFit⟩ := fits.spendAll sound.coins spent
    refine ⟨⟨soundNext, coinsFit.added low (made tx member)⟩, fun txUndo inside => ?_⟩
    rcases List.mem_append.mp inside with before | added
    · exact records txUndo before
    · rw [Transaction.records] at added
      split at added
      · cases added
      · rw [List.mem_singleton.mp added]
        exact prevoutsFit
  · exact fun _ member => (List.not_mem_nil member).elim

/-- **The log of a block may be written**, when all outputs before and in the block are in range. -/
theorem writable_of_connect (sound : state.Sound) (fits : state.coins.FitsWith Output.Writable)
    (low : block.height < UInt32.size)
    (inRange : ∀ tx ∈ block.transactions, ∀ output ∈ tx.outputs, output.value.inRange = true)
    (connected : state.connect block = .ok (next, undo)) (bounded : undo.Bounded) :
    undo.Writable := by
  obtain ⟨⟨current, records⟩, -⟩ := fitsWith_of_connect sound fits low
    (fun tx member output inside short => ⟨inRange tx member output inside, short⟩) connected
  refine ⟨current, bounded.shortTxs, fun txUndo member => ?_, bounded.shortSidechains,
    bounded.words⟩
  exact ⟨bounded.shortPrevouts txUndo member,
    fun prevout inside => (records txUndo member prevout inside).writable⟩

/-- Unspent outputs fit after every chain whose heights fit their words. -/
theorem fitsWith_of_replay {blocks : List Block} (sound : state.Sound)
    (fits : state.coins.FitsWith kind) (low : ∀ block ∈ blocks, block.height < UInt32.size)
    (made : ∀ block ∈ blocks, ∀ tx ∈ block.transactions, ∀ output ∈ tx.outputs,
      output.script.length ≤ Script.maxSize → kind output)
    (replayed : state.replay blocks = .ok next) : next.coins.FitsWith kind := by
  induction blocks generalizing state with
  | nil =>
    cases replayed
    exact fits
  | cons block blocks ih =>
    obtain ⟨between, undo, connected, rest⟩ := replay_cons_eq_ok_iff.mp replayed
    obtain ⟨lowHere, low⟩ := List.forall_mem_cons.mp low
    obtain ⟨madeHere, made⟩ := List.forall_mem_cons.mp made
    have after := (fitsWith_of_connect sound fits lowHere madeHere connected).2
    exact ih (sound.connect connected) after low made rest

end ChainState

end Reorg
