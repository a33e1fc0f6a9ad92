/-
**The log records what a block changed.**

The log of a block is put together as the block is connected, so each of its records tells something
of a state in the middle of the block: of the view just before an output was spent and just after
it, and of the sidechains when all intents were through. Its records of transactions stand in the
order of the block; its records of sidechains come from two rounds that may meet the same sidechain,
and there is still only one for each.

* `CoinsView.Origin`, `tellsOrigins_of_confirmed`: what is so of a parent, told from the
  transactions in front and the view before the block;
* `OutputUndo.Describes`: what the record of a spent output says;
* `BlockUndo.Records`: what a log says;
* `ChainState.connect_ne_duplicateEntry`: a block is never refused for a second record;
* `ChainState.log_exact`: the log of a block says exactly this.
-/

import Reorg.Proofs.Chain.Disconnect
import Reorg.Proofs.Chain.Unspent
import Reorg.Proofs.Sidechain.Entries

namespace Reorg

open Fallible OrderedMap

/-! ### Parents -/

namespace CoinsView

variable {base view left : CoinsView} {confirmed : List Confirmed} {txid : Digest} {coins : Coins}
  {outpoints : List OutPoint} {undos : List OutputUndo}

/-- What is so of the transaction whose outputs are under an identifier: the last one of some
transactions that adds any made them, or else they are those of the view before. -/
def Origin (base : CoinsView) (confirmed : List Confirmed) (txid : Digest)
    (origin : Bool × Nat × Int32) : Prop :=
  (∃ creator behind, Creates confirmed txid creator behind ∧
    origin = (creator.tx.coinbase, creator.height, creator.tx.version)) ∨
  ((∀ earlier ∈ confirmed, ¬ earlier.Adds txid) ∧
    ∃ coins, base.get? txid = some coins ∧ origin = coins.origin)

/-- The entries of a view, behind some transactions, say what is so. -/
def TellsOrigins (base : CoinsView) (confirmed : List Confirmed) (view : CoinsView) : Prop :=
  ∀ txid coins, view.get? txid = some coins → base.Origin confirmed txid coins.origin

theorem tellsOrigins_nil : base.TellsOrigins [] base :=
  fun _ coins held => .inr ⟨fun _ member => (List.not_mem_nil member).elim, coins, held, rfl⟩

/-- Spending leaves what is said of parents as it is. -/
theorem TellsOrigins.spendAll (tells : base.TellsOrigins confirmed view)
    (spent : view.spendAll outpoints = .ok (undos, left)) : base.TellsOrigins confirmed left := by
  intro txid coins held
  obtain ⟨before, present, same⟩ := origin_of_spendAll spent held
  exact same ▸ tells txid before present

theorem TellsOrigins.confirm {last : Confirmed} (tells : base.TellsOrigins confirmed view)
    (ran : view.confirm last = .ok left) : base.TellsOrigins (confirmed ++ [last]) left := by
  obtain ⟨undos, between, spent, rfl⟩ := confirm_eq_ok_iff.mp ran
  intro txid coins held
  rcases origin_of_added held with ⟨above, here, origin⟩ | ⟨stays, held⟩
  · exact .inl ⟨last, [], creates_concat_iff.mpr (.inl ⟨⟨above, here⟩, rfl, rfl⟩), origin⟩
  · rcases tells.spendAll spent txid coins held with ⟨creator, behind, creates, origin⟩ |
      ⟨nobody, entry⟩
    · exact .inl ⟨creator, behind ++ [last],
        creates_concat_iff.mpr (.inr ⟨stays, behind, rfl, creates⟩), origin⟩
    · refine .inr ⟨List.forall_mem_append.mpr ⟨nobody, fun later member => ?_⟩, entry⟩
      exact List.mem_singleton.mp member ▸ stays

/-- **Behind any transactions, entries say what is so.** -/
theorem tellsOrigins_of_confirmed (ran : confirmed.foldlM CoinsView.confirm base = .ok view) :
    base.TellsOrigins confirmed view := by
  have tracked := foldlM_tracks (fun last => [last]) (fun past view => base.TellsOrigins past view)
    (fun _ _ _ _ _ tells ran => tells.confirm ran) tellsOrigins_nil ran
  rwa [List.flatMap_singleton', List.nil_append] at tracked

end CoinsView

/-! ### Outputs -/

/-- What the record of a spent output says, with the views just before the spend and just after it:
the output that was there, and what is so of its parent, but that only when no output of the parent
is left. -/
structure OutputUndo.Describes (record : OutputUndo) (input : OutPoint)
    (origin : Bool × Nat × Int32) (view left : CoinsView) : Prop where
  output : view.output? input = some record.output
  last : (∀ vout, left.output? ⟨input.txid, vout⟩ = none) →
    (record.coinbase, record.height, record.version) = origin
  others : (∃ vout output, left.output? ⟨input.txid, vout⟩ = some output) →
    (record.coinbase, record.height, record.version) = (false, 0, 0)

theorem CoinsView.describes_of_spend? {view left : CoinsView} {input : OutPoint}
    {record : OutputUndo} (spent : view.spend? input = some (record, left)) :
    ∃ coins, view.get? input.txid = some coins ∧
      record.Describes input coins.origin view left := by
  have offered := output?_of_spend? spent
  obtain ⟨coins, output, rest, held, taken, rfl, rfl⟩ := spend?_eq_some_iff.mp spent
  have remaining : ∀ vout,
      (view.store input.txid rest).output? ⟨input.txid, vout⟩ = rest.output? vout := fun vout => by
    rw [output?_store, if_pos rfl]
  refine ⟨coins, held, offered, fun gone => ?_, fun ⟨vout, other, stays⟩ => ?_⟩
  · rw [if_pos (Coins.isSpent_iff.mpr fun vout => (remaining vout).symm.trans (gone vout))]
    rfl
  · rw [if_neg fun emptied => ?_]
    · rfl
    · rw [remaining, Coins.isSpent_iff.mp emptied] at stays
      cases stays

/-! ### Logs -/

/-- The transactions of a list at a height. -/
def confirmedAt (height : Nat) (txs : List Transaction) : List Confirmed :=
  txs.map fun tx => ⟨tx, height⟩

/-- **What the log of a block says.** -/
structure BlockUndo.Records (undo : BlockUndo) (state : ChainState) (block : Block) : Prop where
  /-- There is a record for each transaction that spends, with one for each of its inputs. -/
  fits : ChainState.Fits block.transactions undo.txUndos
  accepted : undo.checkShape block = .ok ()
  /-- The records stand in the order of the transactions and of their inputs, and each tells of the
  moment of its spend. -/
  spends : ∀ before tx behind, block.transactions = before ++ tx :: behind → tx.coinbase = false →
    ∃ txUndo between builder,
      undo.txUndos[before.countP fun tx => !tx.coinbase]? = some txUndo ∧
      before.foldlM (ChainState.connectTx block.height) (state, .start state.root) =
        .ok (between, builder) ∧
      ∀ earlier input later, tx.inputs = earlier ++ input :: later →
        ∃ records view record left origin,
          txUndo.prevouts[earlier.length]? = some record ∧
          between.coins.spendAll earlier = .ok (records, view) ∧
          view.spend? input = some (record, left) ∧
          state.coins.Origin (confirmedAt block.height before) input.txid origin ∧
          record.Describes input origin view left
  priorRoot : undo.priorRoot = state.root
  /-- The sidechains with records are those with a certificate, or with an amount that waits for
  the height of the block when the intents of the block are through. -/
  sidechains : ∃ spent builder,
    block.transactions.foldlM (ChainState.connectTx block.height) (state, .start state.root) =
      .ok (spent, builder) ∧
    ∀ id, ((undo.sidechains.get? id).isSome ↔
        (∃ certificate ∈ block.certificates, certificate.sidechain = id) ∨
          (spent.sidechains.waitingAt block.height id).isSome) ∧
      ∀ record, undo.sidechains.get? id = some record →
        record.matured = (spent.sidechains.waitingAt block.height id).getD 0 ∧
        ((∃ sidechain, state.sidechains.get? id = some sidechain ∧
            record.priorEpoch = sidechain.lastEpoch) ∨
          (state.sidechains.get? id = none ∧
            (∃ transfer ∈ block.transfers, transfer.Creates id) ∧ record.priorEpoch = -1))

namespace ChainState

variable {state next final : ChainState} {builder later : BlockUndo.Builder}
  {tx : Transaction} {txs before behind : List Transaction} {height : Nat} {block : Block}
  {undo : BlockUndo}

/-! ### Transactions -/

/-- What the transactions of a block add to its log fits them. -/
theorem fits_of_connectTxs
    (connected : txs.foldlM (connectTx height) (state, builder) = .ok (final, later)) :
    ∃ records, later.txUndos = builder.txUndos ++ records ∧ Fits txs records := by
  induction txs generalizing state builder with
  | nil =>
    cases connected
    exact ⟨[], (List.append_nil _).symm, .nil⟩
  | cons tx txs ih =>
    obtain ⟨next, between, step, rest⟩ := connectTxs_cons_eq_ok_iff.mp connected
    obtain ⟨prevouts, coins, sidechains, spent, -, -, rfl⟩ := connectTx_eq_ok_iff.mp step
    obtain ⟨records, more, fits⟩ := ih rest
    exact ⟨tx.records prevouts ++ records, more.trans (List.append_assoc _ _ _), fits.cons spent⟩

/-- **The record of a transaction** stands behind those of the spending ones in front of it. -/
theorem record_of_connectTxs
    (connected : (before ++ tx :: behind).foldlM (connectTx height) (state, builder) =
      .ok (final, later)) (empty : builder.txUndos = []) (spending : tx.coinbase = false) :
    ∃ between built prevouts coins,
      before.foldlM (connectTx height) (state, builder) = .ok (between, built) ∧
      between.coins.spendAll tx.inputs = .ok (prevouts, coins) ∧
      later.txUndos[before.countP fun tx => !tx.coinbase]? = some ⟨prevouts⟩ := by
  rw [List.foldlM_append] at connected
  obtain ⟨⟨between, built⟩, front, connected⟩ := bind_eq_ok_iff.mp connected
  obtain ⟨next, after, step, back⟩ := connectTxs_cons_eq_ok_iff.mp connected
  obtain ⟨prevouts, coins, -, spent, -, -, rfl⟩ := connectTx_eq_ok_iff.mp step
  obtain ⟨records, logged, fits⟩ := fits_of_connectTxs front
  obtain ⟨more, logged', -⟩ := fits_of_connectTxs back
  have minting : ¬ tx.coinbase = true := by rw [spending]; exact Bool.false_ne_true
  rw [Transaction.spends, if_neg minting] at spent
  -- a transaction that mints has no record, so the place counts the others
  have place : before.countP (fun tx => !tx.coinbase) = records.length := by
    rw [List.countP_eq_length_filter]
    exact fits.length_eq
  refine ⟨between, built, prevouts, coins, front, spent, ?_⟩
  rw [logged', logged, empty, Transaction.records, if_neg minting, place]
  simp

/-- **The record of an input** stands behind those of the inputs in front of it, and tells of the
moment of its spend. -/
theorem describes_of_spendAll {base view final : CoinsView} {confirmed : List Confirmed}
    {earlier later : List OutPoint} {input : OutPoint} {prevouts : List OutputUndo}
    (tells : base.TellsOrigins confirmed view)
    (spent : view.spendAll (earlier ++ input :: later) = .ok (prevouts, final)) :
    ∃ records before record left origin,
      prevouts[earlier.length]? = some record ∧
      view.spendAll earlier = .ok (records, before) ∧
      before.spend? input = some (record, left) ∧
      base.Origin confirmed input.txid origin ∧
      record.Describes input origin before left := by
  obtain ⟨records, before, back, front, rest, rfl⟩ := CoinsView.spendAll_append_eq_ok_iff.mp spent
  obtain ⟨record, left, more, here, -, rfl⟩ := CoinsView.spendAll_cons_eq_ok_iff.mp rest
  obtain ⟨coins, held, describes⟩ := CoinsView.describes_of_spend? here
  refine ⟨records, before, record, left, coins.origin, ?_, front, here,
    tells.spendAll front _ coins held, describes⟩
  rw [← CoinsView.spendAll_length front]
  simp

/-! ### Sidechains -/

/-- The sidechains behind the transactions of a block follow those before it. -/
theorem follows_of_connectTxs
    (connected : block.transactions.foldlM (connectTx block.height) (state, builder) =
      .ok (final, later)) :
    state.sidechains.Follows block.transfers final.sidechains := by
  refine foldlM_tracks (fun tx => tx.transfers block.height)
    (fun past progress => state.sidechains.Follows past progress.1.sidechains)
    (fun past progress tx after _ follows connected => ?_) SidechainView.follows_nil connected
  obtain ⟨state', builder'⟩ := progress
  obtain ⟨next, later⟩ := after
  obtain ⟨_, _, sidechains, -, intents, rfl, -⟩ := connectTx_eq_ok_iff.mp connected
  exact follows.connectIntents intents

/-! ### Blocks -/

/-- **The log of a block says what the block changed.** -/
theorem records_of_connect (connected : state.connect block = .ok (next, undo)) :
    undo.Records state block := by
  obtain ⟨spent, txUndos, sidechains, undos, transactions, round, rfl, rfl⟩ :=
    connect_eq_ok_iff.mp connected
  obtain ⟨records, rfl, fits⟩ := fits_of_connectTxs transactions
  refine ⟨fits, checkShape_of_fits fits, ?_, rfl, spent, _, transactions, fun id => ?_⟩
  · intro before tx behind split spending
    rw [split] at transactions
    obtain ⟨between, builder, prevouts, coins, front, spent, placed⟩ :=
      record_of_connectTxs transactions rfl spending
    refine ⟨⟨prevouts⟩, between, builder, placed, front, fun earlier input later split => ?_⟩
    rw [split] at spent
    have tells := CoinsView.tellsOrigins_of_confirmed (confirmed_of_connectTxs front)
    exact describes_of_spendAll tells spent
  · obtain ⟨present, tells⟩ := SidechainView.records_of_connectSidechains round id
    have follows := follows_of_connectTxs transactions
    refine ⟨present.trans (by rw [List.mem_map]), fun record recorded => ?_⟩
    obtain ⟨sidechain, held, rfl⟩ := tells record recorded
    refine ⟨rfl, ?_⟩
    rcases follows.epochs id sidechain held with ⟨before, known, same⟩ | ⟨absent, fresh, created⟩
    · exact .inl ⟨before, known, same.symm⟩
    · exact .inr ⟨absent, created, fresh⟩

/-! ### Second records -/

theorem spendAll_ne_duplicateEntry (view : CoinsView) (outpoints : List OutPoint)
    (id : SidechainId) : view.spendAll outpoints ≠ .error (.structural (.duplicateEntry id)) := by
  induction outpoints generalizing view with
  | nil => simp [CoinsView.spendAll]
  | cons outpoint outpoints ih =>
    rw [CoinsView.spendAll]
    split
    · simp
    · exact bind_ne_error (ih _) fun _ _ => pure_ne_error

theorem connectTx_ne_duplicateEntry (progress : ChainState × BlockUndo.Builder) (tx : Transaction)
    (id : SidechainId) :
    connectTx height progress tx ≠ .error (.structural (.duplicateEntry id)) := by
  refine bind_ne_error ?_ fun inputs _ => bind_ne_error ?_ fun _ _ => pure_ne_error
  · rw [connectInputs]
    split
    · simp
    · exact bind_ne_error (spendAll_ne_duplicateEntry _ _ id) fun _ _ => pure_ne_error
  · exact foldlM_ne_error
      (fun view placed => view.connectIntent_ne_duplicateEntry id _ _ _ placed) _ _

/-- **A block is never refused for a second record** of a sidechain: the records are put together
by sidechain, and they go into a log that has none. -/
theorem connect_ne_duplicateEntry (state : ChainState) (block : Block) (id : SidechainId) :
    state.connect block ≠ .error (.structural (.duplicateEntry id)) := by
  refine bind_ne_error ?_ fun progress transactions => ?_
  · exact foldlM_ne_error (fun progress tx => connectTx_ne_duplicateEntry progress tx id) _ _
  · refine bind_ne_error ?_ fun round _ => ?_
    · exact SidechainView.connectSidechains_ne_duplicateEntry id _ block
    · obtain ⟨sidechains, undos⟩ := round
      obtain ⟨-, -, none⟩ := frame_of_connectTxs transactions
      have whole : progress.2.recordAll undos = .ok { progress.2 with sidechains := undos } :=
        recordAll_of_empty none
      refine bind_ne_error (ChainError.structural_ne_duplicateEntry id ?_) fun _ _ => pure_ne_error
      rw [whole]
      exact pure_ne_error

/-- **The log of a block records exactly what the block changed**, and recording it is never refused
for a second record of a sidechain. -/
theorem log_exact (state : ChainState) (block : Block) :
    (∀ id, state.connect block ≠ .error (.structural (.duplicateEntry id))) ∧
      ∀ next undo, state.connect block = .ok (next, undo) → undo.Records state block :=
  ⟨connect_ne_duplicateEntry state block, fun _ _ => records_of_connect⟩

/-- A state with two outputs of a transaction, and a sidechain that an amount waits to join at
height 5. -/
def shared : ChainState where
  coins := .ofList [(.filled 1, ⟨false, 3, 1, [some ⟨20, [0x51]⟩, none, some ⟨30, [0x52]⟩]⟩)]
  sidechains := .ofList [(.filled 9, ⟨1, .filled 8, .null, 40, 2, .ofList [(5, 7), (8, 1)]⟩)]
  root := .filled 6
  maturity := 0

/-- A block that spends both outputs and two of its own, sends value to the sidechain and to one
that it creates, so that all of it joins the balances at once, and pays out of both. -/
def crowded : Block where
  hash := .zero
  height := 5
  transactions := [
    ⟨.filled 2, 1, true, [], [⟨50, [0x51]⟩], []⟩,
    ⟨.filled 3, -4, false, [⟨.filled 1, 0⟩, ⟨.filled 1, 2⟩], [⟨10, [0x52]⟩, ⟨15, [0x53]⟩],
      [.creation .zero 25 openParams, .forward .zero 5 (.filled 9)]⟩,
    ⟨.filled 4, 1, false, [⟨.filled 3, 1⟩, ⟨.filled 2, 0⟩], [⟨60, [0x53]⟩], []⟩]
  certificates := [⟨.filled 5, .filled 9, 3, 10⟩, ⟨.filled 6, .filled 9, 4, 30⟩,
    ⟨.filled 7, createdSidechainId (.filled 3) 0, 0, 0⟩]
  root := .filled 9

/-- The log of the block: the last output of a parent comes with its metadata, and the amounts and
the epochs of both sidechains are there once. -/
def crowdedLog : BlockUndo where
  txUndos := [
    ⟨[.plain ⟨20, [0x51]⟩, ⟨⟨30, [0x52]⟩, false, 3, 1⟩]⟩,
    ⟨[.plain ⟨15, [0x53]⟩, ⟨⟨50, [0x51]⟩, true, 5, 1⟩]⟩]
  priorRoot := .filled 6
  sidechains := .ofList [(.filled 9, ⟨12, 2⟩), (createdSidechainId (.filled 3) 0, ⟨25, -1⟩)]
  generation := .current

theorem log_exact_crowded : ∃ next, shared.connect crowded = .ok (next, crowdedLog) ∧
    (∀ id, shared.connect crowded ≠ .error (.structural (.duplicateEntry id))) ∧
      crowdedLog.Records shared crowded := by
  have logged : (shared.connect crowded).map Prod.snd = .ok crowdedLog := by decide +kernel
  cases connected : shared.connect crowded with
  | error problem =>
    rw [connected] at logged
    cases logged
  | ok result =>
    obtain ⟨next, undo⟩ := result
    rw [connected] at logged
    obtain rfl : undo = crowdedLog := Except.ok.inj logged
    obtain ⟨never, records⟩ := log_exact shared crowded
    exact ⟨next, rfl, connected ▸ never, records next _ connected⟩

end ChainState

end Reorg
