/-
**The sidechains that a block touches.**

The sidechains that a block and its log concern are found from the identifiers in both, apart from
what connecting and disconnecting do. Still they are all that a block can change: connecting changes
those of its intents, of its certificates, and those that mature at its height, which are in the log
that it makes; disconnecting changes those in the log, whatever log it is, and the other two.

* `mem_touchedSidechains_iff`, `touchedSidechains_ascending`: which sidechains those are;
* `ChainState.get?_of_connect`, `ChainState.get?_of_disconnect`: no others change.
-/

import Reorg.Proofs.Chain.Connect

namespace Reorg

open Fallible OrderedMap

variable {block : Block} {undo : BlockUndo} {id : SidechainId}

/-! ### Identifiers -/

/-- **A block and its log concern** the sidechains that are in the log, that have certificates, and
that intents are for. -/
theorem mem_touchedSidechains_iff : id ∈ touchedSidechains block undo ↔
    id ∈ undo.sidechains.keys ∨ id ∈ block.certificates.map Certificate.sidechain ∨
      id ∈ block.transactions.flatMap Transaction.sidechains := by
  have bare : ∀ ids : List SidechainId, (ids.map fun found => (found, ())).map Prod.fst = ids :=
    fun ids => by rw [List.map_map]; exact List.map_id ids
  have nothing : id ∉ (OrderedMap.empty : OrderedMap SidechainId Unit).keys := List.not_mem_nil
  rw [touchedSidechains]
  refine mem_keys_addAll.trans ?_
  rw [or_iff_right nothing, bare, List.mem_append, List.mem_append, or_assoc]

theorem touchedSidechains_ascending :
    (touchedSidechains block undo).Pairwise fun first second => compare first second = .lt :=
  keys_ascending

/-! ### Connecting -/

namespace SidechainView

variable {view next : SidechainView} {height maturity : Nat} {txid : Digest}
  {placed : Intent × Nat} {tx : Transaction}

theorem get?_of_connectIntent (elsewhere : placed.1.sidechainAt txid placed.2 ≠ id)
    (connected : connectIntent maturity height txid view placed = .ok next) :
    next.get? id = view.get? id := by
  obtain ⟨-, sidechain, -, rfl⟩ := exists_of_connectIntent connected
  exact get?_insert_ne elsewhere

theorem get?_of_connectIntents (elsewhere : id ∉ tx.sidechains)
    (connected : view.connectIntents maturity height tx = .ok next) :
    next.get? id = view.get? id := by
  refine foldlM_frame (fun reached : SidechainView => reached.get? id)
    (fun reached placed after member step => ?_) connected
  refine get?_of_connectIntent (fun here => elsewhere ?_) step
  exact List.mem_map.mpr ⟨placed, member, here⟩

theorem get?_of_connectCertificates {progress after : SidechainView × SidechainUndos}
    {certificates : List Certificate} (elsewhere : id ∉ certificates.map Certificate.sidechain)
    (connected : certificates.foldlM connectCertificate progress = .ok after) :
    after.1.get? id = progress.1.get? id := by
  refine foldlM_frame (fun reached : SidechainView × SidechainUndos => reached.1.get? id)
    (fun reached certificate after member step => ?_) connected
  obtain ⟨view, undos⟩ := reached
  obtain ⟨next, later⟩ := after
  obtain ⟨sidechain, -, -, -, rfl, -⟩ := connectCertificate_eq_ok_iff.mp step
  refine get?_insert_ne fun here => elsewhere ?_
  exact List.mem_map.mpr ⟨certificate, member, here⟩

/-- A sidechain that matures gets into the log. -/
theorem get?_of_unrecorded_matureAt {progress : SidechainView × SidechainUndos}
    {other : SidechainId} (unrecorded : (matureAt height progress other).2.get? id = none) :
    progress.2.get? id = none ∧ (matureAt height progress other).1.get? id = progress.1.get? id := by
  obtain ⟨view, undos⟩ := progress
  rw [matureAt] at unrecorded ⊢
  split
  · next absent =>
    simp only [absent] at unrecorded
    exact ⟨unrecorded, rfl⟩
  · next sidechain held =>
    simp only [held] at unrecorded
    split
    · next stays =>
      simp only [stays] at unrecorded
      exact ⟨unrecorded, rfl⟩
    · next amount matured matures =>
      simp only [matures, SidechainUndos.addMatured, get?_insert] at unrecorded
      split at unrecorded
      · cases unrecorded
      · next apart => exact ⟨unrecorded, get?_insert_ne apart⟩

theorem get?_of_unrecorded_matured {progress : SidechainView × SidechainUndos}
    {ids : List SidechainId}
    (unrecorded : (ids.foldl (matureAt height) progress).2.get? id = none) :
    (ids.foldl (matureAt height) progress).1.get? id = progress.1.get? id := by
  have both : progress.2.get? id = none ∧
      (ids.foldl (matureAt height) progress).1.get? id = progress.1.get? id := by
    induction ids generalizing progress with
    | nil => exact ⟨unrecorded, rfl⟩
    | cons other ids ih =>
      obtain ⟨between, rest⟩ := ih unrecorded
      obtain ⟨before, first⟩ := get?_of_unrecorded_matureAt between
      exact ⟨before, rest.trans first⟩
  exact both.2

end SidechainView

namespace ChainState

variable {state next : ChainState} {status : DisconnectStatus}

theorem get?_of_connectTxs {builder later : BlockUndo.Builder} {height : Nat}
    {txs : List Transaction} (elsewhere : id ∉ txs.flatMap Transaction.sidechains)
    (connected : txs.foldlM (connectTx height) (state, builder) = .ok (next, later)) :
    next.sidechains.get? id = state.sidechains.get? id := by
  refine foldlM_frame
    (fun reached : ChainState × BlockUndo.Builder => reached.1.sidechains.get? id)
    (fun reached tx after member step => ?_) connected
  obtain ⟨reached, built⟩ := reached
  obtain ⟨after, built'⟩ := after
  obtain ⟨_, _, sidechains, -, intents, rfl, -⟩ := connectTx_eq_ok_iff.mp step
  refine SidechainView.get?_of_connectIntents (fun here => elsewhere ?_) intents
  exact List.mem_flatMap.mpr ⟨tx, member, here⟩

/-- **Connecting a block changes no other sidechains** than those that it and its log concern. -/
theorem get?_of_connect (untouched : id ∉ touchedSidechains block undo)
    (connected : state.connect block = .ok (next, undo)) :
    next.sidechains.get? id = state.sidechains.get? id := by
  rw [mem_touchedSidechains_iff, not_or, not_or] at untouched
  obtain ⟨unlogged, uncertified, unsent⟩ := untouched
  obtain ⟨spent, txUndos, sidechains, undos, transactions, round, rfl, rfl⟩ :=
    connect_eq_ok_iff.mp connected
  obtain ⟨paid, certificates, matured⟩ := bind_eq_ok_iff.mp round
  obtain ⟨rfl, rfl⟩ := Prod.mk.inj (pure_eq_ok_iff.mp matured)
  rw [mem_keys_iff, Option.not_isSome_iff_eq_none] at unlogged
  calc _ = paid.1.get? id := SidechainView.get?_of_unrecorded_matured unlogged
    _ = spent.sidechains.get? id := SidechainView.get?_of_connectCertificates uncertified certificates
    _ = state.sidechains.get? id := get?_of_connectTxs unsent transactions

end ChainState

/-! ### Disconnecting -/

namespace SidechainView

variable {view next : SidechainView} {height maturity : Nat} {txid : Digest}
  {placed : Intent × Nat} {tx : Transaction}

theorem get?_of_disconnectEntry {entry : SidechainId × SidechainUndo} (elsewhere : entry.1 ≠ id)
    (disconnected : disconnectEntry height view entry = .ok next) :
    next.get? id = view.get? id := by
  obtain ⟨sidechain, -, applied⟩ := bind_eq_ok_iff.mp disconnected
  split at applied
  · cases applied
  · cases applied
    exact get?_insert_ne elsewhere

theorem get?_of_disconnectCertificate {certificate : Certificate}
    (elsewhere : certificate.sidechain ≠ id)
    (disconnected : disconnectCertificate view certificate = .ok next) :
    next.get? id = view.get? id := by
  obtain ⟨sidechain, -, paid⟩ := bind_eq_ok_iff.mp disconnected
  rw [← pure_eq_ok_iff.mp paid]
  exact get?_insert_ne elsewhere

theorem get?_of_disconnectIntent (elsewhere : placed.1.sidechainAt txid placed.2 ≠ id)
    (disconnected : disconnectIntent maturity height txid view placed = .ok next) :
    next.get? id = view.get? id := by
  obtain ⟨intent, index⟩ := placed
  obtain ⟨sidechain, -, taken⟩ := bind_eq_ok_iff.mp disconnected
  split at taken
  · cases taken
  · next reduced _ =>
    have kept : (Except.ok (OrderedMap.insert view (intent.sidechainAt txid index) reduced) :
        Except ChainError SidechainView) = .ok next → next.get? id = view.get? id := by
      rintro ⟨⟩
      exact get?_insert_ne elsewhere
    cases intent with
    | creation destination value params =>
      dsimp only at taken
      split at taken
      · cases taken
      · cases taken
        rw [get?_erase, if_neg elsewhere]
    | forward destination value sidechain => exact kept taken
    | withdrawal sidechain address params => exact kept taken

theorem get?_of_disconnectIntents (elsewhere : id ∉ tx.sidechains)
    (disconnected : view.disconnectIntents maturity height tx = .ok next) :
    next.get? id = view.get? id := by
  refine foldlM_frame (fun reached : SidechainView => reached.get? id)
    (fun reached placed after member step => ?_) disconnected
  refine get?_of_disconnectIntent (fun here => elsewhere ?_) step
  exact List.mem_map.mpr ⟨placed, List.mem_reverse.mp member, here⟩

end SidechainView

/-- The transactions that have their records are those of the block. -/
theorem BlockUndo.map_assign (txs : List Transaction) (undos : List TxUndo) :
    (assign txs undos).map Prod.fst = txs := by
  induction txs generalizing undos with
  | nil => rfl
  | cons tx txs ih =>
    rw [assign]
    split <;> rw [List.map_cons, ih]

namespace ChainState

variable {state next : ChainState} {status : DisconnectStatus}

theorem get?_of_disconnectSidechains {view final : SidechainView}
    (unlogged : id ∉ undo.sidechains.keys)
    (uncertified : id ∉ block.certificates.map Certificate.sidechain)
    (disconnected : disconnectSidechains view block undo = .ok final) :
    final.get? id = view.get? id := by
  obtain ⟨entered, entries, certificates⟩ := bind_eq_ok_iff.mp disconnected
  have first : entered.get? id = view.get? id := by
    refine foldlM_frame (fun reached : SidechainView => reached.get? id)
      (fun reached entry after member step => ?_) entries
    refine SidechainView.get?_of_disconnectEntry (fun here => unlogged ?_) step
    exact List.mem_map.mpr ⟨entry, member, here⟩
  have second : final.get? id = entered.get? id := by
    refine foldlM_frame (fun reached : SidechainView => reached.get? id)
      (fun reached certificate after member step => ?_) certificates
    refine SidechainView.get?_of_disconnectCertificate (fun here => uncertified ?_) step
    exact List.mem_map.mpr ⟨certificate, List.mem_reverse.mp member, here⟩
  exact second.trans first

/-- **Disconnecting a block changes no other sidechains** than those that it and the log concern,
whatever the log. -/
theorem get?_of_disconnect (untouched : id ∉ touchedSidechains block undo)
    (disconnected : state.disconnect block undo = .ok (next, status)) :
    next.sidechains.get? id = state.sidechains.get? id := by
  rw [mem_touchedSidechains_iff, not_or, not_or] at untouched
  obtain ⟨unlogged, uncertified, unsent⟩ := untouched
  obtain ⟨_, -, rest⟩ := bind_eq_ok_iff.mp disconnected
  obtain ⟨sidechains, round, rest⟩ := bind_eq_ok_iff.mp rest
  obtain ⟨⟨final, clean⟩, transactions, rest⟩ := bind_eq_ok_iff.mp rest
  cases rest
  have reverted : final.sidechains.get? id = sidechains.get? id := by
    refine foldlM_frame (fun reached : ChainState × Bool => reached.1.sidechains.get? id)
      (fun reached assigned after member step => ?_) transactions
    obtain ⟨reached, clean⟩ := reached
    obtain ⟨tx, prevouts⟩ := assigned
    obtain ⟨reverted, intents, step⟩ := bind_eq_ok_iff.mp step
    cases step
    refine SidechainView.get?_of_disconnectIntents (fun here => unsent ?_) intents
    have among : tx ∈ (BlockUndo.assign block.transactions undo.txUndos).map Prod.fst :=
      List.mem_map_of_mem (List.mem_reverse.mp member)
    rw [BlockUndo.map_assign] at among
    exact List.mem_flatMap.mpr ⟨tx, among, here⟩
  exact reverted.trans (get?_of_disconnectSidechains unlogged uncertified round)

end ChainState

end Reorg
