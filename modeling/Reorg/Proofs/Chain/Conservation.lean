/-
**Blocks neither create nor destroy the value of sidechains.**

Connecting a block changes what a sidechain holds by what its intents send and its certificates pay,
and disconnecting it changes it by the opposite, whatever log it is disconnected by: the amounts and
epochs in the log only move value inside the sidechain. There is one exception. A negative amount in
a log, which no block leaves but which a log that was read may hold, adds to the balance and is taken
from nowhere.

* `ChainState.holdings_of_connect`: what a block changes when it is connected;
* `ChainState.holdings_of_disconnect`: what it changes when it is disconnected by any log;
* `ChainState.conserves_iff`: both, and that only negative amounts in a log break the balance;
* `ChainState.negative_record_creates_value`: a log that was read, and does.
-/

import Reorg.Proofs.Chain.Accounts
import Reorg.Proofs.Chain.Inverse
import Reorg.Proofs.Sidechain.Holdings
import Reorg.Proofs.Sidechain.Touched

namespace Reorg

open Fallible OrderedMap

/-! ### What a block sends and pays -/

/-- All that a sidechain receives by some intents. -/
abbrev received (transfers : List Transfer) (id : SidechainId) : Amount :=
  credited transfers id fun _ => True

/-- What the intents of a transaction are worth to a sidechain. -/
def Transaction.worth (id : SidechainId) (tx : Transaction) : Amount :=
  Amount.total (tx.intents.zipIdx.map (SidechainView.worth id tx.txid))

theorem Block.received_transfers {block : Block} {id : SidechainId} :
    received block.transfers id = Amount.total (block.transactions.map (Transaction.worth id)) := by
  have each : ∀ tx : Transaction,
      ((tx.transfers block.height).map fun transfer =>
        if transfer.sidechain = id then transfer.value else 0) =
          tx.intents.zipIdx.map (SidechainView.worth id tx.txid) :=
    fun tx => List.map_map
  rw [received, credited, Amount.total_map_filter, Block.transfers]
  simp only [and_true, decide_eq_true_eq, List.map_flatMap, each, Amount.total_flatMap]
  rfl

theorem paid_eq_total {certificates : List Certificate} {id : SidechainId} :
    paid certificates id = Amount.total (certificates.map (SidechainView.cost id)) := by
  rw [paid, Amount.total_map_filter]
  simp only [decide_eq_true_eq]
  rfl

namespace ChainState

open SidechainView (Exceeds)

variable {state next final : ChainState} {block : Block} {undo : BlockUndo} {id : SidechainId}
  {before after : Sidechain} {status : DisconnectStatus}

/-! ### Connecting -/

theorem exceeds_of_connectTxs {height : Nat} {txs : List Transaction}
    {builder later : BlockUndo.Builder}
    (connected : txs.foldlM (connectTx height) (state, builder) = .ok (next, later)) :
    Exceeds id (Amount.total (txs.map (Transaction.worth id))) next.sidechains
      state.sidechains := by
  refine Exceeds.of_rising
    (fun progress : ChainState × BlockUndo.Builder => progress.1.sidechains)
    (Transaction.worth id) (fun progress tx after _ step => ?_) connected
  obtain ⟨state, builder⟩ := progress
  obtain ⟨next, later⟩ := after
  obtain ⟨_, _, sidechains, -, intents, rfl, -⟩ := connectTx_eq_ok_iff.mp step
  exact Exceeds.of_rising (fun view => view) _
    (fun view placed after _ step => .of_connectIntent step) intents

/-- **What a connected block changes**: its intents add to what a sidechain holds, and its
certificates take from it. -/
theorem holdings_of_connect (connected : state.connect block = .ok (next, undo))
    (held : state.sidechains.get? id = some before)
    (kept : next.sidechains.get? id = some after) :
    after.holdings = before.holdings + received block.transfers id - paid block.certificates id := by
  obtain ⟨spent, _, sidechains, undos, transactions, round, rfl, -⟩ :=
    connect_eq_ok_iff.mp connected
  obtain ⟨paid, certificates, matured⟩ := bind_eq_ok_iff.mp round
  obtain ⟨rfl, -⟩ := Prod.mk.inj (pure_eq_ok_iff.mp matured)
  have fallen := Exceeds.of_falling
    (fun progress : SidechainView × SidechainUndos => progress.1) (SidechainView.cost id)
    (fun progress certificate after _ step => .of_connectCertificate step) certificates
  obtain ⟨highest, reached, gained⟩ := exceeds_of_connectTxs transactions before held
  obtain ⟨highest', reached', lost⟩ := fallen.trans .of_matured after kept
  cases reached.symm.trans reached'
  rw [Block.received_transfers, paid_eq_total]
  lia

/-! ### Disconnecting -/

theorem exceeds_of_disconnectSidechains {view left : SidechainView}
    (disconnected : disconnectSidechains view block undo = .ok left) :
    Exceeds id (((undo.sidechains.get? id).map fun record => -record.surplus).getD 0 -
      paid block.certificates id) view left := by
  obtain ⟨entered, entries, certificates⟩ := bind_eq_ok_iff.mp disconnected
  have first : Exceeds id _ view entered := Exceeds.of_falling (fun view => view) _
    (fun view entry after _ step => .of_disconnectEntry step) entries
  have second : Exceeds id _ entered left := Exceeds.of_falling (fun view => view) _
    (fun view certificate after _ step => .of_disconnectCertificate step) certificates
  have restored : Amount.total (block.certificates.reverse.map fun certificate =>
      -SidechainView.cost id certificate) = -paid block.certificates id := by
    rw [Amount.total_map_reverse, paid_eq_total]
    induction block.certificates with
    | nil => rfl
    | cons certificate certificates ih =>
      rw [List.map_cons, Amount.total_cons, ih, List.map_cons, Amount.total_cons, Int.neg_add]
  rw [total_at_key fun record : SidechainUndo => -record.surplus] at first
  rw [restored] at second
  exact Int.sub_eq_add_neg ▸ first.trans second

theorem exceeds_of_disconnectTxs {height : Nat} {txs : List Transaction} {undos : List TxUndo}
    {clean clean' : Bool}
    (disconnected : (BlockUndo.assign txs undos).reverse.foldlM (disconnectTx height)
      (state, clean) = .ok (final, clean')) :
    Exceeds id (Amount.total (txs.map (Transaction.worth id))) state.sidechains
      final.sidechains := by
  have fallen : Exceeds id _ state.sidechains final.sidechains :=
    Exceeds.of_falling (fun progress : ChainState × Bool => progress.1.sidechains)
      (fun assigned : Transaction × List OutputUndo => assigned.1.worth id)
      (fun progress assigned after _ step => ?_) disconnected
  · have same : (BlockUndo.assign txs undos).map (fun assigned => assigned.1.worth id) =
        txs.map (Transaction.worth id) := by
      rw [← BlockUndo.map_assign txs undos, List.map_map, BlockUndo.map_assign]
      rfl
    rwa [Amount.total_map_reverse, same] at fallen
  · obtain ⟨state, clean⟩ := progress
    obtain ⟨tx, prevouts⟩ := assigned
    obtain ⟨sidechains, intents, rest⟩ := bind_eq_ok_iff.mp step
    cases rest
    have down : Exceeds id _ state.sidechains sidechains := Exceeds.of_falling (fun view => view) _
      (fun view placed after _ step => .of_disconnectIntent step) intents
    rwa [Amount.total_map_reverse] at down

/-- **What a disconnected block changes**, whatever the log: its certificates add to what a sidechain
holds, its intents take from it, and the surplus of its record in the log comes from nowhere. -/
theorem holdings_of_disconnect (disconnected : state.disconnect block undo = .ok (final, status))
    (held : state.sidechains.get? id = some before)
    (kept : final.sidechains.get? id = some after) :
    after.holdings = before.holdings + paid block.certificates id - received block.transfers id +
      ((undo.sidechains.get? id).map SidechainUndo.surplus).getD 0 := by
  obtain ⟨_, -, rest⟩ := bind_eq_ok_iff.mp disconnected
  obtain ⟨sidechains, round, rest⟩ := bind_eq_ok_iff.mp rest
  obtain ⟨⟨left, clean⟩, transactions, rest⟩ := bind_eq_ok_iff.mp rest
  cases rest
  have down : Exceeds id _ state.sidechains left.sidechains :=
    (exceeds_of_disconnectSidechains round).trans (exceeds_of_disconnectTxs transactions)
  obtain ⟨upper, held', lost⟩ := down after kept
  cases held.symm.trans held'
  have opposite : ((undo.sidechains.get? id).map fun record => -record.surplus).getD 0 =
      -((undo.sidechains.get? id).map SidechainUndo.surplus).getD 0 := by
    cases undo.sidechains.get? id <;> rfl
  rw [opposite] at lost
  rw [Block.received_transfers]
  lia

/-! ### Conservation -/

/-- **Value is neither created nor destroyed** when a block is connected, and neither when it is
disconnected, by whatever log, unless the log has a negative amount for the sidechain. -/
theorem conserves_iff (held : state.sidechains.get? id = some before) :
    (∀ next undo after, state.connect block = .ok (next, undo) →
      next.sidechains.get? id = some after →
        after.holdings - before.holdings =
          received block.transfers id - paid block.certificates id) ∧
    ∀ undo final status after, state.disconnect block undo = .ok (final, status) →
      final.sidechains.get? id = some after →
        (after.holdings - before.holdings =
          paid block.certificates id - received block.transfers id ↔
            ∀ record, undo.sidechains.get? id = some record → 0 ≤ record.matured) := by
  constructor
  · intro next undo after connected kept
    have changed := holdings_of_connect connected held kept
    lia
  · intro undo final status after disconnected kept
    have changed := holdings_of_disconnect disconnected held kept
    cases recorded : undo.sidechains.get? id with
    | none =>
      rw [recorded, Option.map_none, Option.getD_none] at changed
      refine iff_of_true (by lia) fun record impossible => ?_
      cases impossible
    | some record =>
      rw [recorded, Option.map_some, Option.getD_some] at changed
      simp only [Option.some.injEq, forall_eq', ← SidechainUndo.surplus_eq_zero_iff]
      lia

/-- A block that sends the waiting sidechain value and pays out of it. -/
def turning : Block where
  hash := .zero
  height := 5
  transactions := [⟨.filled 2, -4, true, [], [], [.forward (.filled 7) 1 (.filled 9)]⟩]
  certificates := [⟨.filled 5, .filled 9, 3, 10⟩]
  root := .filled 9

/-- A log for it that no connection gave, with an amount and an epoch of its own. -/
def foreign : BlockUndo := ⟨[], .zero, .ofList [(.filled 9, ⟨4, 0⟩)], .current⟩

theorem conserves_iff_turning : ∃ before next undo after final status left,
    waiting.sidechains.get? (.filled 9) = some before ∧
    waiting.connect turning = .ok (next, undo) ∧
    next.sidechains.get? (.filled 9) = some after ∧
    after.holdings - before.holdings =
      received turning.transfers (.filled 9) - paid turning.certificates (.filled 9) ∧
    waiting.disconnect turning foreign = .ok (final, status) ∧
    final.sidechains.get? (.filled 9) = some left ∧
    (left.holdings - before.holdings =
      paid turning.certificates (.filled 9) - received turning.transfers (.filled 9) ↔
        ∀ record, foreign.sidechains.get? (.filled 9) = some record → 0 ≤ record.matured) := by
  have held : waiting.sidechains.get? (.filled 9) = some _ := rfl
  have connected : waiting.connect turning = .ok (_, _) := rfl
  have disconnected : waiting.disconnect turning foreign = .ok (_, _) := rfl
  obtain ⟨connects, disconnects⟩ := conserves_iff held
  exact ⟨_, _, _, _, _, _, _, held, connected, rfl, connects _ _ _ connected rfl, disconnected, rfl,
    disconnects _ _ _ _ disconnected rfl⟩

/-- A log with a negative amount. -/
def lacking : BlockUndo := ⟨[], .zero, .ofList [(.filled 9, ⟨-5, -1⟩)], .current⟩

/-- **A log that was read adds to a balance** and takes it from nowhere, and the disconnection is
clean. -/
theorem negative_record_creates_value : ∃ (state : ChainState) (block : Block) (bytes : Bytes)
    (undo : BlockUndo) (final : ChainState) (before after : Sidechain),
    (∀ id sidechain, state.sidechains.get? id = some sidechain →
      ∀ height amount, sidechain.immature.get? height = some amount → 0 < amount) ∧
    ofWire BlockUndo bytes = .ok undo ∧ state.disconnect block undo = .ok (final, .clean) ∧
    state.sidechains.get? (.filled 9) = some before ∧
    final.sidechains.get? (.filled 9) = some after ∧
    after.holdings - before.holdings ≠
      paid block.certificates (.filled 9) - received block.transfers (.filled 9) := by
  refine ⟨waiting, ⟨.zero, 4, [], [], .zero⟩, toWire lacking, lacking, _, _, _, ?_, ?_, rfl, rfl, rfl,
    ?_⟩
  · intro id sidechain held height amount
    have sound : waiting.Sound := by decide +kernel
    exact (sound.sidechains id sidechain held).waiting
  · decide +kernel
  · decide +kernel

end ChainState

end Reorg
