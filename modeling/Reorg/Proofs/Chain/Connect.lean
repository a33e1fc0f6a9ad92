/-
**What connecting a block does.**

A block is connected transaction by transaction, then its certificates and what matures. Each lemma
here says all that one of these steps does, so no later proof opens a step again.

* `connectTx_eq_ok_iff`: what a transaction does to the state, and what it adds to the log;
* `ChainState.connect_eq_ok_iff`: what a block does, and what its log holds;
* `ChainState.Sound`, `ChainState.Sound.connect`: states that blocks lead to stay sound.
-/

import Reorg.Proofs.Coins.View
import Reorg.Proofs.Sidechain.View

namespace Reorg

open Fallible OrderedMap

/-! ### Transactions -/

namespace Transaction

/-- The outputs that a transaction spends; one that mints spends none, whatever its inputs are. -/
def spends (tx : Transaction) : List OutPoint := if tx.coinbase then [] else tx.inputs

/-- What a transaction adds to the log of its block. -/
def records (tx : Transaction) (prevouts : List OutputUndo) : List TxUndo :=
  if tx.coinbase then [] else [⟨prevouts⟩]

end Transaction

namespace ChainState

variable {state next final : ChainState} {builder later : BlockUndo.Builder} {tx : Transaction}
  {txs : List Transaction} {height : Nat} {coins : CoinsView} {block : Block} {undo : BlockUndo}

theorem connectInputs_eq_ok_iff : state.connectInputs builder tx = .ok (coins, later) ↔
    ∃ prevouts, state.coins.spendAll tx.spends = .ok (prevouts, coins) ∧
      { builder with txUndos := builder.txUndos ++ tx.records prevouts } = later := by
  rw [connectInputs, Transaction.spends]
  by_cases minting : tx.coinbase = true
  · simp only [Transaction.records, if_pos minting, List.append_nil]
    constructor
    · rintro ⟨⟩
      exact ⟨[], rfl, rfl⟩
    · rintro ⟨_, ⟨⟩, rfl⟩
      rfl
  · simp only [Transaction.records, if_neg minting, bind_eq_ok_iff]
    constructor
    · rintro ⟨⟨prevouts, _⟩, spent, ⟨⟩⟩
      exact ⟨prevouts, spent, rfl⟩
    · rintro ⟨prevouts, spent, rfl⟩
      exact ⟨(prevouts, coins), spent, rfl⟩

/-- **What connecting a transaction does.** -/
theorem connectTx_eq_ok_iff [Arithmetic] : connectTx height (state, builder) tx = .ok (next, later) ↔
    ∃ prevouts coins sidechains, state.coins.spendAll tx.spends = .ok (prevouts, coins) ∧
      state.sidechains.connectIntents state.maturity height tx = .ok sidechains ∧
      { state with coins := coins.added tx height, sidechains } = next ∧
      { builder with txUndos := builder.txUndos ++ tx.records prevouts } = later := by
  rw [connectTx, bind_eq_ok_iff]
  constructor
  · rintro ⟨⟨coins, _⟩, inputs, rest⟩
    obtain ⟨sidechains, intents, rest⟩ := bind_eq_ok_iff.mp rest
    obtain ⟨prevouts, spent, rfl⟩ := connectInputs_eq_ok_iff.mp inputs
    cases rest
    exact ⟨prevouts, coins, sidechains, spent, intents, rfl, rfl⟩
  · rintro ⟨prevouts, coins, sidechains, spent, intents, rfl, rfl⟩
    refine ⟨(coins, _), connectInputs_eq_ok_iff.mpr ⟨prevouts, spent, rfl⟩, ?_⟩
    exact bind_eq_ok_iff.mpr ⟨sidechains, intents, rfl⟩

theorem connectTxs_cons_eq_ok_iff :
    (tx :: txs).foldlM (connectTx height) (state, builder) = .ok (final, later) ↔
      ∃ next between, connectTx height (state, builder) tx = .ok (next, between) ∧
        txs.foldlM (connectTx height) (next, between) = .ok (final, later) := by
  rw [List.foldlM_cons, bind_eq_ok_iff, Prod.exists]

/-- Transactions change neither the root nor the maturity, and of the log only the records of
transactions. -/
theorem frame_of_connectTxs [Arithmetic]
    (connected : txs.foldlM (connectTx height) (state, builder) = .ok (final, later)) :
    (final.root = state.root ∧ final.maturity = state.maturity) ∧
      later.priorRoot = builder.priorRoot ∧ later.sidechains = builder.sidechains := by
  refine foldlM_preserves (fun progress =>
    (progress.1.root = state.root ∧ progress.1.maturity = state.maturity) ∧
      progress.2.priorRoot = builder.priorRoot ∧ progress.2.sidechains = builder.sidechains)
    (fun progress tx after _ frame connected => ?_) ⟨⟨rfl, rfl⟩, rfl, rfl⟩ connected
  obtain ⟨state', builder'⟩ := progress
  obtain ⟨next, later⟩ := after
  obtain ⟨prevouts, coins, sidechains, -, -, rfl, rfl⟩ := connectTx_eq_ok_iff.mp connected
  exact frame

/-! ### Logs -/

/-- Into a log that has no records of sidechains yet, all the records of a block go. -/
theorem recordAll_of_empty {undos : SidechainUndos} (empty : builder.sidechains = .empty) :
    builder.recordAll undos = .ok { builder with sidechains := undos } := by
  have start : builder = { builder with sidechains := .empty } := by rw [← empty]
  rw [BlockUndo.Builder.recordAll, start]
  refine foldlM_insert_entries (fun sidechains => { builder with sidechains })
    fun built entry absent => ?_
  rw [BlockUndo.Builder.recordSidechain, contains_eq_false_iff.mpr absent]
  rfl

/-- **What connecting a block does**, and what its log holds. -/
theorem connect_eq_ok_iff [Arithmetic] : state.connect block = .ok (next, undo) ↔
    ∃ spent txUndos sidechains undos,
      block.transactions.foldlM (connectTx block.height) (state, .start state.root) =
        .ok (spent, ⟨txUndos, state.root, .empty⟩) ∧
      connectSidechains spent.sidechains block = .ok (sidechains, undos) ∧
      { spent with sidechains, root := block.root } = next ∧
      ⟨txUndos, state.root, undos, .current⟩ = undo := by
  rw [connect, bind_eq_ok_iff]
  constructor
  · rintro ⟨⟨spent, ⟨txUndos, root, logged⟩⟩, transactions, rest⟩
    obtain ⟨⟨sidechains, undos⟩, round, rest⟩ := bind_eq_ok_iff.mp rest
    obtain ⟨-, rfl, rfl⟩ := frame_of_connectTxs transactions
    obtain ⟨built, recorded, rest⟩ := bind_eq_ok_iff.mp rest
    have whole : (BlockUndo.Builder.mk txUndos state.root .empty).recordAll undos =
      .ok ⟨txUndos, state.root, undos⟩ := recordAll_of_empty rfl
    obtain rfl := Except.ok.inj (whole.symm.trans (mapError_eq_ok_iff.mp recorded))
    cases rest
    exact ⟨spent, txUndos, sidechains, undos, transactions, round, rfl, rfl⟩
  · rintro ⟨spent, txUndos, sidechains, undos, transactions, round, rfl, rfl⟩
    have recorded : (BlockUndo.Builder.mk txUndos state.root .empty).recordAll undos =
      .ok ⟨txUndos, state.root, undos⟩ := recordAll_of_empty rfl
    refine ⟨_, transactions, bind_eq_ok_iff.mpr ⟨_, round, bind_eq_ok_iff.mpr ?_⟩⟩
    exact ⟨_, mapError_eq_ok_iff.mpr recorded, rfl⟩

/-! ### Sound states -/

/-- The unspent outputs and the sidechains are sound. -/
structure Sound (state : ChainState) : Prop where
  coins : state.coins.Sound
  sidechains : state.sidechains.Sound

instance : Decidable state.Sound :=
  decidable_of_iff (state.coins.Sound ∧ state.sidechains.Sound)
    ⟨fun both => ⟨both.1, both.2⟩, fun sound => ⟨sound.coins, sound.sidechains⟩⟩

theorem sound_initial {maturity : Nat} : (initial maturity).Sound :=
  ⟨CoinsView.sound_empty, SidechainView.sound_empty⟩

theorem Sound.connectTx (sound : state.Sound)
    (connected : connectTx height (state, builder) tx = .ok (next, later)) : next.Sound := by
  obtain ⟨prevouts, coins, sidechains, spent, intents, rfl, rfl⟩ := connectTx_eq_ok_iff.mp connected
  exact ⟨(sound.coins.spendAll spent).added, sound.sidechains.connectIntents intents⟩

theorem Sound.connectTxs (sound : state.Sound)
    (connected : txs.foldlM (ChainState.connectTx height) (state, builder) = .ok (final, later)) :
    final.Sound :=
  foldlM_preserves (fun progress => progress.1.Sound)
    (fun _ _ _ _ sound connected => sound.connectTx connected) sound connected

/-- **A sound state stays sound when a block is connected.** -/
theorem Sound.connect (sound : state.Sound) (connected : state.connect block = .ok (next, undo)) :
    next.Sound := by
  obtain ⟨spent, _, sidechains, _, transactions, round, rfl, -⟩ := connect_eq_ok_iff.mp connected
  have held := sound.connectTxs transactions
  exact ⟨held.coins, sound_of_connectSidechains held.sidechains round⟩

end ChainState

end Reorg
