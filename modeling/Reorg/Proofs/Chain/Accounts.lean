/-
**The sidechains of a chain, told from its history.**

Whatever a chain did to its sidechains, its intents and certificates tell where they stand. Blocks
at consecutive heights mature everything that is due, at its height and once: so each sidechain that
was created has a record that accounts for the whole history, and there are no others.

* `Block.transfers`: the intents of a block with their places;
* `ChainState.accountsFor_of_replay`: the sidechains account for the history;
* `ChainState.accounts_of_replay`: what that says of every sidechain.
-/

import Reorg.Proofs.Block
import Reorg.Proofs.Chain.Replay
import Reorg.Proofs.Sidechain.Account

namespace Reorg

open Fallible OrderedMap

/-- The intents of a transaction of a height. -/
def Transaction.transfers (tx : Transaction) (height : Nat) : List Transfer :=
  tx.intents.zipIdx.map (Transfer.ofPlaced height tx.txid)

/-- The intents of a block. -/
def Block.transfers (block : Block) : List Transfer :=
  block.transactions.flatMap fun tx => tx.transfers block.height

/-! ### Blocks -/

theorem SidechainView.AccountsFor.connectIntents {view next : SidechainView}
    {maturity below height : Nat} {transfers : List Transfer} {certificates : List Certificate}
    {tx : Transaction} (accounts : view.AccountsFor maturity below transfers certificates)
    (ahead : below ≤ height + maturity)
    (connected : view.connectIntents maturity height tx = .ok next) :
    next.AccountsFor maturity below (transfers ++ tx.transfers height) certificates := by
  rw [Transaction.transfers, List.map_eq_flatMap]
  exact foldlM_tracks (fun placed => [Transfer.ofPlaced height tx.txid placed])
    (fun past view => view.AccountsFor maturity below past certificates)
    (fun _ _ _ _ _ accounts connected => accounts.connectIntent ahead connected) accounts connected

namespace ChainState

variable {state next final : ChainState} {maturity start below height : Nat} {id : SidechainId}
  {transfers : List Transfer} {certificates : List Certificate} {block : Block}
  {blocks : List Block} {undo : BlockUndo}

/-- The sidechains of a state account for a history, in which values mature as they do here. -/
structure AccountsFor (maturity below : Nat) (transfers : List Transfer)
    (certificates : List Certificate) (state : ChainState) : Prop where
  maturity_eq : state.maturity = maturity
  sidechains : state.sidechains.AccountsFor maturity below transfers certificates

/-- **The transactions of a block at the next height are accounted for.** -/
theorem AccountsFor.connectTxs {spent : ChainState} {builder later : BlockUndo.Builder}
    (accounts : state.AccountsFor maturity block.height transfers certificates)
    (connected : block.transactions.foldlM (connectTx block.height) (state, builder) =
      .ok (spent, later)) :
    spent.AccountsFor maturity block.height (transfers ++ block.transfers) certificates := by
  refine foldlM_tracks (fun tx => tx.transfers block.height)
    (fun past progress => progress.1.AccountsFor maturity block.height past certificates)
    (fun past progress tx after _ accounts connected => ?_) accounts connected
  obtain ⟨state, builder⟩ := progress
  obtain ⟨next, later⟩ := after
  obtain ⟨_, _, sidechains, -, intents, rfl, -⟩ := connectTx_eq_ok_iff.mp connected
  obtain ⟨rfl, known⟩ := accounts
  exact ⟨rfl, known.connectIntents (Nat.le_add_right _ _) intents⟩

/-- **A block at the next height is accounted for.** -/
theorem AccountsFor.connect
    (accounts : state.AccountsFor maturity block.height transfers certificates)
    (connected : state.connect block = .ok (next, undo)) :
    next.AccountsFor maturity (block.height + 1) (transfers ++ block.transfers)
      (certificates ++ block.certificates) := by
  obtain ⟨spent, _, sidechains, _, transactions, round, rfl, -⟩ := connect_eq_ok_iff.mp connected
  have sent := accounts.connectTxs transactions
  exact ⟨sent.maturity_eq, sent.sidechains.connectSidechains round⟩

/-! ### Chains -/

/-- **The sidechains account for the history**, when the blocks are at consecutive heights. -/
theorem accountsFor_of_replay
    (heights : blocks.map Block.height = List.range' start blocks.length)
    (replayed : (initial maturity).replay blocks = .ok final) :
    final.AccountsFor maturity (start + blocks.length) (blocks.flatMap Block.transfers)
      (blocks.flatMap Block.certificates) := by
  induction blocks using List.reverseRecOn generalizing final with
  | nil =>
    cases replayed
    exact ⟨rfl, SidechainView.accountsFor_empty⟩
  | append_singleton blocks block ih =>
    obtain ⟨before, undo, front, connected⟩ := replay_concat_eq_ok_iff.mp replayed
    rw [List.map_append, List.length_append, List.length_singleton, List.range'_concat,
      Nat.one_mul] at heights
    obtain ⟨heights, here⟩ := List.append_inj' heights rfl
    have behind := ih heights front
    rw [← show block.height = _ from List.singleton_inj.mp here] at behind
    have accounts := behind.connect connected
    rw [show block.height = _ from List.singleton_inj.mp here] at accounts
    simpa only [List.flatMap_append, List.flatMap_singleton, List.length_append,
      List.length_singleton, Nat.add_assoc] using accounts

/-- **Every sidechain stands where the history puts it.** There is a record for each sidechain that
was created, and it was created once. What is due behind the last height waits there, what was due
up to it has joined the balance, the certificates have paid out of that, and they have ended the
epochs in order. -/
theorem accounts_of_replay
    (heights : blocks.map Block.height = List.range' start blocks.length)
    (replayed : (initial maturity).replay blocks = .ok final) (id : SidechainId) :
    let below := start + blocks.length
    let transfers := blocks.flatMap Block.transfers
    let certificates := blocks.flatMap Block.certificates
    ((final.sidechains.get? id).isSome ↔ ∃ transfer ∈ transfers, transfer.Creates id) ∧
    ∀ sidechain, final.sidechains.get? id = some sidechain →
      transfers.countP (fun transfer => transfer.Creates id) = 1 ∧
      ((∀ height < below, sidechain.immature.get? height = none) ∧
        ∀ height, below ≤ height → sidechain.immature.get? height =
          if credited transfers id (fun sent => sent + maturity = height) = 0 then none
          else some (credited transfers id fun sent => sent + maturity = height)) ∧
      (sidechain.balance = credited transfers id (fun sent => sent + maturity < below) -
        paid certificates id ∧ 0 ≤ sidechain.balance) ∧
      (∃ count, endedEpochs certificates id = (List.range count).map Int.ofNat) ∧
        sidechain.lastEpoch = (endedEpochs certificates id).getLast?.getD noEpoch := by
  intro below transfers certificates
  have accounts := (accountsFor_of_replay heights replayed).sidechains
  refine ⟨accounts.isSome_iff, fun sidechain held => ?_⟩
  have record := accounts.known id sidechain held
  have sound := (sound_initial.replay replayed).sidechains id sidechain held
  obtain ⟨count, ended, -⟩ := record.epochs
  refine ⟨?_, record.immature_eq sound, ⟨record.balance, sound.solvent⟩, ⟨count, ended⟩,
    record.lastEpoch_eq⟩
  rw [accounts.created id, held]
  rfl

/-- The parameters of a sidechain that takes requests. -/
def openParams : CreationParams where
  epochLength := 10
  customData := []
  constant := ⟨none⟩
  certificateKey := ⟨List.replicate 1544 1, List.length_replicate⟩
  requestKey := some ⟨List.replicate 1544 2, List.length_replicate⟩
  ceasedKey := none

/-- The sidechain that the first intent of the first transaction creates. -/
def founded : SidechainId := createdSidechainId (.filled 1) 0

/-- A chain that creates a sidechain and sends it more in the same transaction, sends it more and
asks it for a withdrawal without a fee, and pays out of it twice in one block. -/
def founding : List Block := [
  ⟨.filled 5, 7, [⟨.filled 1, -4, true, [], [],
    [.creation .zero 50 openParams, .forward .zero 7 founded]⟩], [], .zero⟩,
  ⟨.filled 6, 8, [⟨.filled 2, -4, true, [], [],
    [.forward .zero 3 founded, .withdrawal founded ⟨List.replicate 20 3, List.length_replicate⟩
      ⟨0, default, default⟩]⟩], [], .zero⟩,
  ⟨.filled 7, 9, [⟨.filled 3, -4, true, [], [], [.forward .zero 9 founded]⟩],
    [⟨.filled 8, founded, 0, 20⟩, ⟨.filled 9, founded, 1, 10⟩], .zero⟩]

theorem accounts_of_replay_founding :
    founding.map Block.height = List.range' 7 founding.length ∧
    ∃ final, (initial 1).replay founding = .ok final ∧
    let transfers := founding.flatMap Block.transfers
    let certificates := founding.flatMap Block.certificates
    ((final.sidechains.get? founded).isSome ↔ ∃ transfer ∈ transfers, transfer.Creates founded) ∧
    ∀ sidechain, final.sidechains.get? founded = some sidechain →
      transfers.countP (fun transfer => transfer.Creates founded) = 1 ∧
      ((∀ height < 10, sidechain.immature.get? height = none) ∧
        ∀ height, 10 ≤ height → sidechain.immature.get? height =
          if credited transfers founded (fun sent => sent + 1 = height) = 0 then none
          else some (credited transfers founded fun sent => sent + 1 = height)) ∧
      (sidechain.balance = credited transfers founded (fun sent => sent + 1 < 10) -
        paid certificates founded ∧ 0 ≤ sidechain.balance) ∧
      (∃ count, endedEpochs certificates founded = (List.range count).map Int.ofNat) ∧
        sidechain.lastEpoch = (endedEpochs certificates founded).getLast?.getD noEpoch := by
  have heights : founding.map Block.height = List.range' 7 founding.length := rfl
  obtain ⟨final, replayed⟩ := exists_eq_ok (show ((initial 1).replay founding).isOk = true by
    decide +kernel)
  exact ⟨heights, final, replayed, accounts_of_replay heights replayed founded⟩

end ChainState

end Reorg
