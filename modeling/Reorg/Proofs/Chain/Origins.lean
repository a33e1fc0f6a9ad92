/-
**Where the sidechains of a chain come from, and what is on its way to them.**

A chain grows at its tip and is cut back there, each block by the log that connecting it gave. The
sums that it keeps are words, and may wrap around. Still the sidechains are those that the blocks
still connected lead to, but for amounts on their way that are not positive: so every record can be
traced to these blocks, one of which created it, and only valid intents of theirs have sent it
anything. What waits is what they sent exactly where that fits in a word, and the epochs count their
certificates as far as a word counts.

* `ChainState.Stands`: the states of a chain, with the blocks that are connected and their logs;
* `ChainState.restOf_of_disconnect`: a tip leaves what there is of the sidechains that it found;
* `ChainState.Stands.follows`: the sidechains are what there is of those that the connected blocks
  lead to;
* `ChainState.pending`: what these blocks sent that is not due yet;
* `ChainState.traceable_of_stands`: what that says of every record and of every intent.
-/

import Reorg.Proofs.Chain.Accounts
import Reorg.Proofs.Chain.Inverse
import Reorg.Proofs.Sidechain.Origins
import Reorg.Proofs.Sidechain.Touched

namespace Reorg

open Fallible OrderedMap

/-! ### Epochs in words -/

namespace ChainState

variable {arithmetic : Arithmetic} {state next before left final : ChainState} {block : Block}
  {undo : BlockUndo} {status : DisconnectStatus} {maturity height due : Nat} {id : SidechainId}
  {tips : List (Block × BlockUndo)}

/-! ### The sidechains of a block that is disconnected -/

/-- Transactions change sidechains by their intents alone. -/
theorem sidechains_of_connectTxs {txs : List Transaction} {builder later : BlockUndo.Builder}
    (connected : txs.foldlM (connectTx height) (state, builder) = .ok (final, later)) :
    txs.foldlM (fun view tx => view.connectIntents state.maturity height tx) state.sidechains =
      .ok final.sidechains := by
  refine (foldlM_simulates (fun progress : ChainState × BlockUndo.Builder => progress.1.sidechains)
    (fun progress => progress.1.maturity = state.maturity) (fun progress tx after _ same step => ?_)
    rfl connected).2
  obtain ⟨reached, builder⟩ := progress
  obtain ⟨next, later⟩ := after
  obtain ⟨_, _, sidechains, -, intents, rfl, -⟩ := connectTx_eq_ok_iff.mp step
  exact ⟨same, (same : reached.maturity = _) ▸ intents⟩

/-- Taking transactions back changes sidechains by their intents alone, whatever outputs there
are. -/
theorem sidechains_of_disconnectTxs {assigned : List (Transaction × List OutputUndo)}
    {clean clean' : Bool}
    (disconnected : assigned.foldlM (disconnectTx height) (state, clean) = .ok (final, clean')) :
    final.maturity = state.maturity ∧
      (assigned.map Prod.fst).foldlM
        (fun view tx => view.disconnectIntents state.maturity height tx) state.sidechains =
          .ok final.sidechains := by
  rw [List.foldlM_map]
  refine foldlM_simulates (fun progress : ChainState × Bool => progress.1.sidechains)
    (fun progress => progress.1.maturity = state.maturity)
    (fun progress assigned after _ same step => ?_) rfl disconnected
  obtain ⟨reached, clean⟩ := progress
  obtain ⟨tx, prevouts⟩ := assigned
  obtain ⟨sidechains, intents, rest⟩ := bind_eq_ok_iff.mp step
  cases rest
  exact ⟨same, (same : reached.maturity = _) ▸ intents⟩

theorem kept_of_connectTxs [Arithmetic.Lawful] {txs : List Transaction}
    {builder later : BlockUndo.Builder} (kept : state.sidechains.Kept)
    (connected : txs.foldlM (connectTx height) (state, builder) = .ok (final, later)) :
    final.sidechains.Kept :=
  foldlM_preserves SidechainView.Kept (fun _ _ _ _ kept step => kept.connectIntents step) kept
    (sidechains_of_connectTxs connected)

/-- **A block that is disconnected by its own log leaves what there is of the sidechains that it
found**, whatever has become of the unspent outputs. -/
theorem restOf_of_disconnect [Arithmetic.Lawful] (kept : before.sidechains.Kept)
    (connected : before.connect block = .ok (next, undo))
    (rest : next.sidechains.RestOf state.sidechains) (same : state.maturity = before.maturity)
    (disconnected : state.disconnect block undo = .ok (left, status)) :
    before.sidechains.RestOf left.sidechains ∧ left.maturity = before.maturity := by
  obtain ⟨spent, txUndos, view, undos, transactions, round, rfl, rfl⟩ :=
    connect_eq_ok_iff.mp connected
  obtain ⟨_, -, back⟩ := bind_eq_ok_iff.mp disconnected
  obtain ⟨taken, entered, back⟩ := bind_eq_ok_iff.mp back
  obtain ⟨⟨final, clean⟩, returned, back⟩ := bind_eq_ok_iff.mp back
  cases back
  -- what the block did by itself is taken back first, and leads behind its intents
  have behind := rest.disconnectSidechains (kept_of_connectTxs kept transactions) round rfl entered
  obtain ⟨still, intents⟩ := sidechains_of_disconnectTxs returned
  rw [List.map_reverse, BlockUndo.map_assign] at intents
  simp only [same] at intents
  refine ⟨?_, still.trans same⟩
  refine foldlM_reverse_recovers SidechainView.Kept SidechainView.RestOf ?_ ?_ kept
    (sidechains_of_connectTxs transactions) behind intents
  · exact fun _ _ _ _ kept step => kept.connectIntents step
  · exact fun _ _ _ _ _ _ kept step rest back => rest.disconnectIntents kept step back

/-! ### Chains that grow and are cut back -/

/-- The states of a chain from the one before any block, under the blocks that are connected, last
one first, each with the log that its connection gave. -/
inductive Stands (arithmetic : Arithmetic) (maturity : Nat) :
    List (Block × BlockUndo) → ChainState → Prop
  | initial : Stands arithmetic maturity [] (.initial maturity)
  | connect {tips : List (Block × BlockUndo)} {state next : ChainState} {block : Block}
      {undo : BlockUndo} :
    Stands arithmetic maturity tips state → state.connect block = .ok (next, undo) →
      Stands arithmetic maturity ((block, undo) :: tips) next
  | disconnect {tips : List (Block × BlockUndo)} {state left : ChainState} {block : Block}
      {undo : BlockUndo} {status : DisconnectStatus} :
    Stands arithmetic maturity ((block, undo) :: tips) state →
      state.disconnect block undo = .ok (left, status) → Stands arithmetic maturity tips left

/-- What there is of the sidechains that some blocks lead to, with the logs that they give, in front
of any unspent outputs. -/
def Follows (arithmetic : Arithmetic) (maturity : Nat) :
    List (Block × BlockUndo) → ChainState → Prop
  | [], state => SidechainView.RestOf .empty state.sidechains ∧ state.maturity = maturity
  | (block, undo) :: tips, state => ∃ before next, Follows arithmetic maturity tips before ∧
      before.connect block = .ok (next, undo) ∧ next.sidechains.RestOf state.sidechains ∧
        state.maturity = maturity

theorem Follows.maturity_eq (follows : Follows arithmetic maturity tips state) :
    state.maturity = maturity := by
  cases tips with
  | nil => exact follows.2
  | cons tip tips =>
    obtain ⟨_, _, -, -, -, same⟩ := follows
    exact same

theorem Follows.restOf (follows : Follows arithmetic maturity tips state)
    (rest : state.sidechains.RestOf left.sidechains) (same : left.maturity = maturity) :
    Follows arithmetic maturity tips left := by
  cases tips with
  | nil => exact ⟨follows.1.trans rest, same⟩
  | cons tip tips =>
    obtain ⟨before, next, behind, connected, first, -⟩ := follows
    exact ⟨before, next, behind, connected, first.trans rest, same⟩

/-- **What holds of the sidechains that blocks lead to**, when each block keeps it and it also holds
of what there is of them. -/
theorem Follows.preserves (holds : List Block → SidechainView → Prop)
    (start : holds [] .empty)
    (rest : ∀ blocks whole part, holds blocks whole → whole.RestOf part → holds blocks part)
    (step : ∀ blocks (before next : ChainState) block undo, before.maturity = maturity →
      holds blocks before.sidechains → before.connect block = .ok (next, undo) →
        holds (block :: blocks) next.sidechains)
    (follows : Follows arithmetic maturity tips state) :
    holds (tips.map Prod.fst) state.sidechains := by
  induction tips generalizing state with
  | nil => exact rest _ _ _ start follows.1
  | cons tip tips ih =>
    obtain ⟨before, next, behind, connected, first, -⟩ := follows
    exact rest _ _ _ (step _ _ _ _ _ behind.maturity_eq (ih behind) connected) first

theorem Follows.kept [Arithmetic.Lawful] (follows : Follows arithmetic maturity tips state) :
    state.sidechains.Kept := by
  refine follows.preserves (fun _ view => view.Kept) (fun _ _ held => ?_)
    (fun _ _ _ kept rest => kept.restOf rest)
    fun _ before next block undo _ kept connected => ?_
  · cases held
  · obtain ⟨spent, _, _, _, transactions, round, rfl, -⟩ := connect_eq_ok_iff.mp connected
    exact (kept_of_connectTxs kept transactions).connectSidechains round

/-- **The sidechains are what there is of those that the connected blocks lead to**, whatever was
connected and disconnected before. -/
theorem Stands.follows [Arithmetic.Lawful] (stands : Stands arithmetic maturity tips state) :
    Follows arithmetic maturity tips state := by
  induction stands with
  | initial => exact ⟨.refl _, rfl⟩
  | connect _ connected ih =>
    refine ⟨_, _, ih, connected, .refl _, ?_⟩
    obtain ⟨spent, _, _, _, transactions, -, rfl, -⟩ := connect_eq_ok_iff.mp connected
    exact (frame_of_connectTxs transactions).1.2.trans ih.maturity_eq
  | disconnect _ disconnected ih =>
    obtain ⟨before, next, behind, connected, rest, same⟩ := ih
    obtain ⟨rest, same⟩ := restOf_of_disconnect behind.kept connected rest
      (same.trans behind.maturity_eq.symm) disconnected
    exact behind.restOf rest (same.trans behind.maturity_eq)

/-! ### What can be traced -/

theorem Follows.tracesTo (follows : Follows arithmetic maturity tips state) :
    state.sidechains.TracesTo ((tips.map Prod.fst).reverse.flatMap Block.transfers)
      ((tips.map Prod.fst).reverse.flatMap Block.certificates) := by
  refine follows.preserves
    (fun blocks view => view.TracesTo (blocks.reverse.flatMap Block.transfers)
      (blocks.reverse.flatMap Block.certificates))
    SidechainView.tracesTo_empty (fun _ _ _ traces rest => traces.restOf rest)
    fun blocks before next block undo _ traces connected => ?_
  obtain ⟨spent, _, _, _, transactions, round, rfl, -⟩ := connect_eq_ok_iff.mp connected
  rw [List.reverse_cons, List.flatMap_append, List.flatMap_append, List.flatMap_singleton,
    List.flatMap_singleton]
  have sent := foldlM_tracks (fun tx : Transaction => tx.transfers block.height)
    (fun past (view : SidechainView) => view.TracesTo past _)
    (fun past view tx after _ traces step => traces.connectIntents step) traces
    (sidechains_of_connectTxs transactions)
  exact sent.connectSidechains round

/-! ### What is on its way -/

/-- What blocks, the last one first, sent to a sidechain that is due at a height and has not matured
yet. It matures, whatever the heights of the blocks are, when a block of that height comes. -/
def pending (arithmetic : Arithmetic) (maturity : Nat) : List Block → Nat → SidechainId → Amount
  | [], _, _ => 0
  | block :: blocks, due, id =>
    if due = block.height then 0
    else pending arithmetic maturity blocks due id +
      credited block.transfers id fun sent => arithmetic.height (sent + maturity) = due

theorem Follows.awaits [Arithmetic.Lawful] (follows : Follows arithmetic maturity tips state) :
    state.sidechains.Awaits due id (pending arithmetic maturity (tips.map Prod.fst) due id) := by
  refine follows.preserves
    (fun blocks view => view.Awaits due id (pending arithmetic maturity blocks due id))
    SidechainView.awaits_empty (fun _ _ _ awaits rest => awaits.restOf rest)
    fun blocks before next block undo same awaits connected => ?_
  obtain ⟨spent, _, _, _, transactions, round, rfl, -⟩ := connect_eq_ok_iff.mp connected
  have start : before.sidechains.Awaits due id (pending arithmetic maturity blocks due id +
      credited [] id fun sent => arithmetic.height (sent + maturity) = due) :=
    (Int.add_zero _).symm ▸ awaits
  have intents := sidechains_of_connectTxs transactions
  rw [same] at intents
  have sent := foldlM_tracks (fun tx : Transaction => tx.transfers block.height)
    (fun past (view : SidechainView) => view.Awaits due id
      (pending arithmetic maturity blocks due id +
        credited past id fun sent => arithmetic.height (sent + maturity) = due))
    (fun past view tx after _ awaits step => awaits.connectIntents step) start intents
  exact sent.connectSidechains round

/-- The intents of some blocks are those at some place in one of their transactions. -/
theorem mem_transfers_iff {blocks : List Block} {transfer : Transfer} :
    transfer ∈ blocks.flatMap Block.transfers ↔ ∃ block ∈ blocks, ∃ tx ∈ block.transactions,
      transfer.height = block.height ∧ transfer.txid = tx.txid ∧
        tx.intents[transfer.index]? = some transfer.intent := by
  simp only [List.mem_flatMap, Block.transfers, Transaction.transfers, List.mem_map]
  refine exists_congr fun block => and_congr_right fun _ => exists_congr fun tx =>
    and_congr_right fun _ => ?_
  constructor
  · intro made
    obtain ⟨⟨intent, index⟩, placed, rfl⟩ := made
    exact ⟨rfl, rfl, List.mem_zipIdx_iff_getElem?.mp placed⟩
  · intro found
    obtain ⟨height, txid, found⟩ := found
    refine ⟨(transfer.intent, transfer.index), List.mem_zipIdx_iff_getElem?.mpr found, ?_⟩
    rw [Transfer.ofPlaced, ← height, ← txid]

/-- A record was founded by an intent of the blocks that are connected, and has the epoch that their
certificates lead to. -/
theorem Follows.founded (follows : Follows arithmetic maturity tips state) {sidechain : Sidechain}
    (held : state.sidechains.get? id = some sidechain) :
    let blocks := (tips.map Prod.fst).reverse
    sidechain.params.validate = .ok () ∧
    (∃ block ∈ blocks, block.height = sidechain.creationHeight ∧
      ∃ tx ∈ block.transactions, tx.txid = sidechain.creationTx ∧
      ∃ index destination value,
        tx.intents[index]? = some (.creation destination value sidechain.params) ∧
        id = createdSidechainId sidechain.creationTx index) ∧
    sidechain.lastEpoch = epochAfter (endedEpochs (blocks.flatMap Block.certificates) id).length := by
  intro blocks
  have traces := follows.tracesTo
  obtain ⟨valid, transfer, sent, creates, height, txid, destination, value, intent⟩ :=
    traces.founded id sidechain held
  obtain ⟨block, member, tx, inside, height', txid', found⟩ := mem_transfers_iff.mp sent
  refine ⟨valid, ⟨block, member, height'.symm.trans height, tx, inside, txid'.symm.trans txid,
    transfer.index, destination, value, found.trans (congrArg some intent), ?_⟩,
    traces.epochs id sidechain held⟩
  rw [← creates.2, txid]
  rfl

/-- An intent of the blocks that are connected is valid, and one that asks for a withdrawal is for a
sidechain with a key for requests. -/
theorem Follows.sendable (follows : Follows arithmetic maturity tips state) {tx : Transaction}
    {intent : Intent} (member : block ∈ (tips.map Prod.fst).reverse)
    (inside : tx ∈ block.transactions) (placed : intent ∈ tx.intents) : intent.Sendable ∧
      ∀ id address params, intent = .withdrawal id address params →
        ∃ sidechain key, state.sidechains.get? id = some sidechain ∧
          sidechain.params.requestKey = some key ∧ key.isNull = false := by
  have traces := follows.tracesTo
  obtain ⟨index, found⟩ := List.getElem?_of_mem placed
  have sent : (⟨tx.txid, index, intent, block.height⟩ : Transfer) ∈
      (tips.map Prod.fst).reverse.flatMap Block.transfers :=
    mem_transfers_iff.mpr ⟨block, member, tx, inside, rfl, rfl, found⟩
  obtain ⟨valid, sidechain, held, accepted⟩ := traces.admitted _ sent
  refine ⟨Intent.sendable_of_validate valid, ?_⟩
  intro id address params asks
  subst asks
  have supports : sidechain.params.requestKey.isSome = true := by
    by_contra without
    have refused : sidechain.accepts (.withdrawal id address params) =
      .error (.missingKey .request) := if_neg without
    cases refused.symm.trans accepted
  obtain ⟨key, present⟩ := Option.isSome_iff_exists.mp supports
  have founded := traces.founded _ sidechain held
  exact ⟨sidechain, key, held, present,
    CreationParams.requestKey_of_validate founded.valid present⟩

end ChainState

end Reorg
