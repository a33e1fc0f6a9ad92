/-
**Disconnecting a block that has just been connected.**

The log of a block leads back to the state before it, but for one thing that no log holds: a
transaction that is added in place of unspent outputs of its own identifier loses them. All else is
restored, and the disconnection is clean exactly when no step back meets what was lost.

* `ChainState.Replaces`: a transaction of a block is added in place of unspent outputs;
* `ChainState.Untouched`: nothing in front of it in the block concerns these outputs;
* `ChainState.recovers_of_connectTxs`: the transactions of a block, taken back;
* `ChainState.recovers_of_connect`, `disconnect_of_keeps`: a block, taken back by its log.
-/

import Mathlib.Data.List.Forall2
import Reorg.Proofs.Chain.Connect

namespace Reorg

open Fallible OrderedMap

namespace ChainState

variable {state next final : ChainState} {builder later between : BlockUndo.Builder}
  {tx first : Transaction} {txs before : List Transaction} {height : Nat}
  {block : Block} {undo : BlockUndo} {outcome : CoinsView × Bool} {lost : List Digest}
  {cleanly : Prop} {id : Digest}

/-! ### Replaced outputs -/

/-- Above height zero, a transaction is added, behind those in front of it, in place of unspent
outputs of its own identifier. -/
def Replaces (height : Nat) (progress : ChainState × BlockUndo.Builder)
    (txs before : List Transaction) (tx : Transaction) : Prop :=
  height ≠ 0 ∧ ∃ behind between coins builder, txs = before ++ tx :: behind ∧
    before.foldlM (connectTx height) progress = .ok between ∧
      between.1.connectInputs between.2 tx = .ok (coins, builder) ∧
        coins.hasUnspent tx.txid = true

/-- A transaction of a block is added in place of unspent outputs of its own identifier. -/
def Overwrites (state : ChainState) (block : Block) (before : List Transaction)
    (tx : Transaction) : Prop :=
  Replaces block.height (state, .start state.root) block.transactions before tx

/-- No transaction in front has the identifier of a transaction or spends one of its outputs, and
neither does the transaction itself. -/
def Untouched (before : List Transaction) (tx : Transaction) : Prop :=
  (∀ earlier ∈ before, earlier.txid ≠ tx.txid ∧
    ∀ outpoint ∈ earlier.spends, outpoint.txid ≠ tx.txid) ∧
      ∀ outpoint ∈ tx.spends, outpoint.txid ≠ tx.txid

theorem not_replaces_nil {progress : ChainState × BlockUndo.Builder} :
    ¬ Replaces height progress [] before tx := by
  rintro ⟨-, behind, -, -, -, split, -⟩
  cases before <;> cases split

/-- Either the first transaction replaces outputs, or one behind it does. -/
theorem replaces_cons_iff {prevouts : List OutputUndo} {coins : CoinsView}
    (spent : state.coins.spendAll first.spends = .ok (prevouts, coins))
    (connected : connectTx height (state, builder) first = .ok (next, between)) :
    Replaces height (state, builder) (first :: txs) before tx ↔
      (before = [] ∧ tx = first ∧ first.txid ∈ coins.replaced first height) ∨
        ∃ rest, before = first :: rest ∧ Replaces height (next, between) txs rest tx := by
  rw [CoinsView.mem_replaced_iff]
  constructor
  · rintro ⟨above, behind, reached, found, logged, split, front, inputs, unspent⟩
    cases before with
    | nil =>
      cases split
      cases front
      obtain ⟨_, spent', -⟩ := connectInputs_eq_ok_iff.mp inputs
      cases spent.symm.trans spent'
      exact .inl ⟨rfl, rfl, above, unspent, rfl⟩
    | cons head rest =>
      cases split
      rw [List.foldlM_cons, connected] at front
      exact .inr ⟨rest, rfl, above, behind, reached, found, logged, rfl, front, inputs, unspent⟩
  · rintro (⟨rfl, rfl, above, unspent, -⟩ | ⟨rest, rfl, above, behind, reached, found, logged, rfl,
      front, inputs, unspent⟩)
    · exact ⟨above, txs, _, coins, _, rfl, rfl,
        connectInputs_eq_ok_iff.mpr ⟨prevouts, spent, rfl⟩, unspent⟩
    · refine ⟨above, behind, reached, found, logged, rfl, ?_, inputs, unspent⟩
      rw [List.foldlM_cons, connected]
      exact front

/-- What is replaced is replaced by the first transaction or by one behind it. -/
theorem exists_replaces_cons_iff {prevouts : List OutputUndo} {coins : CoinsView}
    (spent : state.coins.spendAll first.spends = .ok (prevouts, coins))
    (connected : connectTx height (state, builder) first = .ok (next, between)) :
    (∃ before tx, Replaces height (state, builder) (first :: txs) before tx ∧ tx.txid = id) ↔
      id ∈ coins.replaced first height ∨
        ∃ before tx, Replaces height (next, between) txs before tx ∧ tx.txid = id := by
  simp only [replaces_cons_iff spent connected]
  constructor
  · rintro ⟨_, tx, ⟨rfl, rfl, here⟩ | ⟨rest, rfl, replaces⟩, rfl⟩
    · exact .inl here
    · exact .inr ⟨rest, tx, replaces, rfl⟩
  · rintro (here | ⟨rest, tx, replaces, rfl⟩)
    · obtain ⟨-, -, rfl⟩ := CoinsView.mem_replaced_iff.mp here
      exact ⟨[], first, .inl ⟨rfl, rfl, here⟩, rfl⟩
    · exact ⟨first :: rest, tx, .inr ⟨rest, rfl, replaces⟩, rfl⟩

/-- What no transaction of a block has as its identifier stays without an entry. -/
theorem get?_eq_none_of_connectTxs {height : Nat} {final : ChainState}
    {builder later : BlockUndo.Builder} (absent : state.coins.get? id = none)
    (foreign : ∀ tx ∈ txs, tx.txid ≠ id)
    (connected : txs.foldlM (connectTx height) (state, builder) = .ok (final, later)) :
    final.coins.get? id = none := by
  refine foldlM_preserves (fun progress => progress.1.coins.get? id = none)
    (fun progress tx after member absent connected => ?_) absent connected
  obtain ⟨between, _⟩ := progress
  obtain ⟨next, _⟩ := after
  obtain ⟨prevouts, coins, sidechains, spent, -, rfl, -⟩ := connectTx_eq_ok_iff.mp connected
  have left : coins.get? id = none := CoinsView.get?_eq_none_of_spendAll absent spent
  show (coins.added tx height).get? id = none
  rw [CoinsView.added]
  split
  · exact left
  · rw [CoinsView.get?_addTx, if_neg (foreign tx member), left]

/-- A block whose identifiers are new and distinct replaces nothing. -/
theorem not_overwrites_of_fresh
    (fresh : ∀ tx ∈ block.transactions, state.coins.get? tx.txid = none)
    (distinct : (block.transactions.map Transaction.txid).Nodup) :
    ¬ state.Overwrites block before tx := by
  rintro ⟨-, behind, between, coins, builder, split, front, inputs, unspent⟩
  rw [split] at fresh distinct
  rw [List.map_append, List.map_cons, List.nodup_append] at distinct
  have foreign : ∀ earlier ∈ before, earlier.txid ≠ tx.txid := fun earlier member =>
    distinct.2.2 _ (List.mem_map_of_mem member) _ List.mem_cons_self
  have absent := get?_eq_none_of_connectTxs
    (fresh tx (List.mem_append_right _ List.mem_cons_self)) foreign front
  obtain ⟨prevouts, spent, -⟩ := connectInputs_eq_ok_iff.mp inputs
  rw [CoinsView.hasUnspent, CoinsView.get?_eq_none_of_spendAll absent spent] at unspent
  cases unspent

theorem untouched_nil_iff :
    Untouched [] tx ↔ ∀ outpoint ∈ tx.spends, outpoint.txid ≠ tx.txid :=
  and_iff_right fun _ member => (List.not_mem_nil member).elim

theorem untouched_cons_iff : Untouched (first :: before) tx ↔
    (first.txid ≠ tx.txid ∧ ∀ outpoint ∈ first.spends, outpoint.txid ≠ tx.txid) ∧
      Untouched before tx := by
  rw [Untouched, Untouched, List.forall_mem_cons, and_assoc]

/-- Whether all that is replaced was untouched, seen from the first transaction. -/
theorem untouched_iff_of_cons {prevouts : List OutputUndo} {coins : CoinsView}
    (spent : state.coins.spendAll first.spends = .ok (prevouts, coins))
    (connected : connectTx height (state, builder) first = .ok (next, between))
    (replaced : ∀ id, id ∈ lost ↔
      ∃ before tx, Replaces height (next, between) txs before tx ∧ tx.txid = id) :
    ((∀ outpoint ∈ first.spends, outpoint.txid ∉ coins.replaced first height ++ lost) ∧
        (height ≠ 0 → first.txid ∉ lost) ∧
          ∀ before tx, Replaces height (next, between) txs before tx → Untouched before tx) ↔
      ∀ before tx, Replaces height (state, builder) (first :: txs) before tx →
        Untouched before tx := by
  simp only [replaces_cons_iff spent connected, List.mem_append, not_or]
  constructor
  · rintro ⟨inputs, own, behind⟩ _ tx (⟨rfl, rfl, here⟩ | ⟨rest, rfl, replaces⟩)
    · exact untouched_nil_iff.mpr fun outpoint member same =>
        (inputs outpoint member).1 (same ▸ here)
    · have inside : tx.txid ∈ lost := (replaced _).mpr ⟨rest, tx, replaces, rfl⟩
      refine untouched_cons_iff.mpr ⟨⟨fun same => ?_, fun outpoint member same => ?_⟩,
        behind rest tx replaces⟩
      · exact own replaces.1 (same ▸ inside)
      · exact (inputs outpoint member).2 (same ▸ inside)
  · intro untouched
    refine ⟨fun outpoint member => ⟨fun here => ?_, fun inside => ?_⟩, fun above inside => ?_,
      fun rest tx replaces => ?_⟩
    · have same := (CoinsView.mem_replaced_iff.mp here).2.2
      rw [← same] at here
      exact untouched_nil_iff.mp (untouched _ _ (.inl ⟨rfl, rfl, here⟩)) outpoint member same.symm
    · obtain ⟨rest, tx, replaces, same⟩ := (replaced _).mp inside
      have apart := (untouched_cons_iff.mp (untouched _ _ (.inr ⟨rest, rfl, replaces⟩))).1
      exact apart.2 outpoint member same.symm
    · obtain ⟨rest, tx, replaces, same⟩ := (replaced _).mp inside
      have apart := (untouched_cons_iff.mp (untouched _ _ (.inr ⟨rest, rfl, replaces⟩))).1
      exact apart.1 same.symm
    · exact (untouched_cons_iff.mp (untouched _ _ (.inr ⟨rest, rfl, replaces⟩))).2

/-! ### Transactions -/

/-- The records that a transaction has in the log are those assigned to it. -/
theorem assign_records {prevouts : List OutputUndo} {coins : CoinsView} {records : List TxUndo}
    (spent : state.coins.spendAll tx.spends = .ok (prevouts, coins)) :
    BlockUndo.assign (tx :: txs) (tx.records prevouts ++ records) =
      (tx, prevouts) :: BlockUndo.assign txs records := by
  rw [BlockUndo.assign, Transaction.records]
  by_cases minting : tx.coinbase = true
  · rw [Transaction.spends, if_pos minting] at spent
    cases spent
    rw [if_pos minting, if_pos minting]
    rfl
  · rw [if_neg minting, if_neg minting]
    rfl

/-- **A transaction is taken back.** -/
theorem recovers_of_connectTx (root : Digest) (sound : state.Sound)
    {prevouts : List OutputUndo} {coins : CoinsView}
    (spent : state.coins.spendAll tx.spends = .ok (prevouts, coins))
    (connected : connectTx height (state, builder) tx = .ok (next, later))
    (recovers : CoinsView.Recovers outcome next.coins lost cleanly) :
    ∃ outcome', disconnectTx height ({ next with coins := outcome.1, root }, outcome.2)
        (tx, prevouts) = .ok ({ state with coins := outcome'.1, root }, outcome'.2) ∧
      CoinsView.Recovers outcome' state.coins (coins.replaced tx height ++ lost)
        ((∀ outpoint ∈ tx.spends, outpoint.txid ∉ coins.replaced tx height ++ lost) ∧
          (height ≠ 0 → tx.txid ∉ lost) ∧ cleanly) := by
  obtain ⟨_, _, sidechains, spent', intents, rfl, -⟩ := connectTx_eq_ok_iff.mp connected
  cases spent.symm.trans spent'
  have removed := CoinsView.Recovers.removed (sound.coins.spendAll spent) recovers
  have back := CoinsView.Recovers.restoreAll sound.coins spent removed
  have zipped : tx.inputs.zip prevouts = tx.spends.zip prevouts := by
    rw [Transaction.spends]
    split
    · next minting =>
      rw [Transaction.spends, if_pos minting] at spent
      cases spent
      rw [List.zip_nil_right, List.zip_nil_right]
    · rfl
  refine ⟨_, bind_eq_ok_iff.mpr ⟨state.sidechains, ?_, ?_⟩, back⟩
  · exact SidechainView.disconnectIntents_connectIntents sound.sidechains intents
  · simp only [zipped]
    rfl

/-- What the transactions of a block add to its log fits them: a record for each that spends, with
an entry for each of its inputs. -/
def Fits (txs : List Transaction) (records : List TxUndo) : Prop :=
  List.Forall₂ (fun tx undo => tx.inputs.length = undo.prevouts.length)
    (txs.filter fun tx => !tx.coinbase) records

theorem Fits.cons {prevouts : List OutputUndo} {coins : CoinsView} {records : List TxUndo}
    (spent : state.coins.spendAll tx.spends = .ok (prevouts, coins)) (fits : Fits txs records) :
    Fits (tx :: txs) (tx.records prevouts ++ records) := by
  rw [Fits, Transaction.records]
  by_cases minting : tx.coinbase = true
  · rw [List.filter_cons_of_neg (by simp [minting]), if_pos minting]
    exact fits
  · rw [List.filter_cons_of_pos (by simp [minting]), if_neg minting]
    rw [Transaction.spends, if_neg minting] at spent
    have counted := CoinsView.spendAll_length spent
    exact .cons counted.symm fits

/-- **The transactions of a block are taken back**, from the last one to the first. What is lost is
what transactions replaced; and it is met on the way back exactly when it was touched before it was
replaced. -/
theorem recovers_of_connectTxs (root : Digest) (sound : state.Sound)
    (connected : txs.foldlM (connectTx height) (state, builder) = .ok (final, later)) :
    ∃ records, later.txUndos = builder.txUndos ++ records ∧ Fits txs records ∧
      ∃ outcome lost, (BlockUndo.assign txs records).reverse.foldlM (disconnectTx height)
          ({ final with root }, true) = .ok ({ state with coins := outcome.1, root }, outcome.2) ∧
        CoinsView.Recovers outcome state.coins lost
          (∀ before tx, Replaces height (state, builder) txs before tx → Untouched before tx) ∧
        ∀ id, id ∈ lost ↔
          ∃ before tx, Replaces height (state, builder) txs before tx ∧ tx.txid = id := by
  induction txs generalizing state builder with
  | nil =>
    cases connected
    refine ⟨[], (List.append_nil _).symm, .nil, (final.coins, true), [], rfl, ?_, ?_⟩
    · exact ⟨⟨fun _ _ _ replaces => (not_replaces_nil replaces).elim, fun _ => rfl⟩, fun _ => rfl,
        fun _ _ member => (List.not_mem_nil member).elim⟩
    · intro id
      constructor
      · intro member
        cases member
      · rintro ⟨_, _, replaces, _⟩
        exact (not_replaces_nil replaces).elim
  | cons tx txs ih =>
    obtain ⟨next, between, step, rest⟩ := connectTxs_cons_eq_ok_iff.mp connected
    obtain ⟨prevouts, coins, sidechains, spent, -, -, logged⟩ := connectTx_eq_ok_iff.mp step
    obtain ⟨records, more, fits, outcome, lost, back, recovers, replaced⟩ :=
      ih (sound.connectTx step) rest
    obtain ⟨outcome', last, recovers'⟩ := recovers_of_connectTx root sound spent step
      recovers
    refine ⟨tx.records prevouts ++ records, ?_, fits.cons spent, outcome',
      coins.replaced tx height ++ lost, ?_, ?_, fun id => ?_⟩
    · rw [more, ← logged, List.append_assoc]
    · rw [assign_records spent, List.reverse_cons, List.foldlM_append, bind_eq_ok_iff]
      refine ⟨_, back, ?_⟩
      rw [List.foldlM_cons, last]
      rfl
    · exact ⟨recovers'.clean_iff.trans (untouched_iff_of_cons spent step replaced),
        recovers'.lacking, recovers'.holds⟩
    · rw [List.mem_append, replaced, exists_replaces_cons_iff spent step]

/-! ### Blocks -/

theorem checkShape_of_fits (fits : Fits block.transactions undo.txUndos) :
    undo.checkShape block = .ok () := by
  have counted : undo.txUndos.length = block.spending.length := fits.length_eq.symm
  rw [BlockUndo.checkShape, if_neg (not_not.mpr counted)]
  refine forM_eq_ok fun pair member => if_neg (not_not.mpr ?_)
  exact (List.forall₂_iff_zip.mp fits).2 member

/-- **A block is taken back by its log.** All but the unspent outputs is restored, and these too but
for the ones that transactions of the block replaced. -/
theorem recovers_of_connect (sound : state.Sound)
    (connected : state.connect block = .ok (next, undo)) :
    ∃ outcome lost, next.disconnect block undo =
        .ok ({ state with coins := outcome.1 }, if outcome.2 then .clean else .unclean) ∧
      CoinsView.Recovers outcome state.coins lost
        (∀ before tx, state.Overwrites block before tx → Untouched before tx) ∧
      ∀ id, id ∈ lost ↔ ∃ before tx, state.Overwrites block before tx ∧ tx.txid = id := by
  obtain ⟨spent, txUndos, sidechains, undos, transactions, round, rfl, rfl⟩ :=
    connect_eq_ok_iff.mp connected
  obtain ⟨records, logged, fits, outcome, lost, back, recovers, replaced⟩ :=
    recovers_of_connectTxs block.root sound transactions
  obtain rfl : txUndos = records := logged
  refine ⟨outcome, lost, ?_, recovers, replaced⟩
  refine bind_eq_ok_iff.mpr ⟨(), checkShape_of_fits fits, ?_⟩
  refine bind_eq_ok_iff.mpr ⟨spent.sidechains, ?_, bind_eq_ok_iff.mpr ⟨_, back, rfl⟩⟩
  exact disconnectSidechains_connectSidechains (sound.connectTxs transactions).sidechains round rfl

/-- A block that replaces nothing loses nothing, so its log restores the state. -/
theorem disconnect_of_keeps (sound : state.Sound)
    (connected : state.connect block = .ok (next, undo))
    (keeps : ∀ before tx, ¬ state.Overwrites block before tx) :
    next.disconnect block undo = .ok (state, .clean) := by
  obtain ⟨⟨coins, clean⟩, lost, back, recovers, replaced⟩ := recovers_of_connect sound connected
  have nothing : lost = [] := by
    refine List.eq_nil_iff_forall_not_mem.mpr fun id member => ?_
    obtain ⟨before, tx, overwrites, -⟩ := (replaced id).mp member
    exact keeps before tx overwrites
  obtain rfl : clean = true :=
    recovers.clean_iff.mpr fun before tx overwrites => (keeps before tx overwrites).elim
  obtain rfl : coins = state.coins := by
    rw [show coins = state.coins.without lost from recovers.lacking rfl, nothing]
    rfl
  exact back

end ChainState

end Reorg
