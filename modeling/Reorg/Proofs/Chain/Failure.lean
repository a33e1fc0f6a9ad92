/-
**Where a block stops.**

A block is connected and disconnected item by item on a copy of the state, so when it cannot go on
it has changed the copy already. It can stop at any input, intent or certificate when it is
connected; and when it is disconnected, at the shape of the log, or at any entry, certificate or
intent, with all that comes before taken back. Each stop says which item it is, what the copy is by
then, and why the item is refused, and there are no other causes of failure.

* `ChainState.TxStops`, `ChainState.Stops`: where a transaction and a block stop;
* `ChainState.connect_eq_error_iff`: a block is not connected exactly when it stops;
* `ChainState.StopsBack`, `ChainState.disconnect_eq_error_iff`: the same of disconnecting.
-/

import Reorg.Proofs.Chain.Connect

namespace Reorg

open Fallible

/-! ### Transactions -/

theorem CoinsView.spendAll_eq_error_iff {view : CoinsView} {outpoints : List OutPoint}
    {problem : ChainError} : view.spendAll outpoints = .error problem ↔
      ∃ front outpoint back undos left, outpoints = front ++ outpoint :: back ∧
        view.spendAll front = .ok (undos, left) ∧ left.spend? outpoint = none ∧
          .missingInput outpoint = problem := by
  induction outpoints generalizing view with
  | nil =>
    constructor
    · intro impossible
      cases impossible
    · intro stops
      obtain ⟨front, _, _, _, _, split, -⟩ := stops
      cases front <;> cases split
  | cons first outpoints ih =>
    unfold spendAll
    cases spent : view.spend? first with
    | none =>
      constructor
      · intro failed
        exact ⟨[], first, outpoints, [], view, rfl, rfl, spent, Except.error.inj failed⟩
      · intro stops
        obtain ⟨front, outpoint, back, undos, left, split, ran, missing, rfl⟩ := stops
        cases front with
        | nil =>
          cases split
          rfl
        | cons _ front =>
          cases split
          obtain ⟨_, _, _, first, -⟩ := spendAll_cons_eq_ok_iff.mp ran
          cases spent.symm.trans first
    | some taken =>
      obtain ⟨undo, next⟩ := taken
      have later : (next.spendAll outpoints >>= fun rest =>
          pure (undo :: rest.1, rest.2) : Except ChainError _) = .error problem ↔
          next.spendAll outpoints = .error problem := bind_pure_eq_error_iff
      refine later.trans (ih.trans ?_)
      constructor
      · intro stops
        obtain ⟨front, outpoint, back, undos, left, rfl, ran, missing, same⟩ := stops
        exact ⟨first :: front, outpoint, back, undo :: undos, left, rfl,
          spendAll_cons_eq_ok_iff.mpr ⟨undo, next, undos, spent, ran, rfl⟩, missing, same⟩
      · intro stops
        obtain ⟨front, outpoint, back, undos, left, split, ran, missing, same⟩ := stops
        cases front with
        | nil =>
          cases split
          cases ran
          cases spent.symm.trans missing
        | cons _ front =>
          cases split
          obtain ⟨_, _, rest, again, ran, -⟩ := spendAll_cons_eq_ok_iff.mp ran
          cases spent.symm.trans again
          exact ⟨front, outpoint, back, rest, left, rfl, ran, missing, same⟩

namespace ChainState

variable {state next scratch : ChainState} {builder : BlockUndo.Builder} {tx : Transaction}
  {height : Nat} {block : Block} {undo : BlockUndo} {problem : ChainError}

/-- A transaction stops at an input that is not there, or at an intent that is refused. By then the
inputs in front have been spent, and all inputs and the intents in front have taken effect. -/
inductive TxStops (height : Nat) (tx : Transaction) (state : ChainState) :
    ChainState → ChainError → Prop
  | input {front back : List OutPoint} {outpoint : OutPoint} {undos : List OutputUndo}
      {coins : CoinsView} :
    tx.spends = front ++ outpoint :: back → state.coins.spendAll front = .ok (undos, coins) →
      coins.spend? outpoint = none →
        TxStops height tx state { state with coins } (.missingInput outpoint)
  | intent {prevouts : List OutputUndo} {coins : CoinsView} {front back : List (Intent × Nat)}
      {placed : Intent × Nat} {view : SidechainView} {problem : ChainError} :
    state.coins.spendAll tx.spends = .ok (prevouts, coins) →
      tx.intents.zipIdx = front ++ placed :: back →
      front.foldlM (SidechainView.connectIntent state.maturity height tx.txid) state.sidechains =
        .ok view →
      SidechainView.connectIntent state.maturity height tx.txid view placed = .error problem →
        TxStops height tx state { state with coins, sidechains := view } problem

theorem connectInputs_eq_error_iff : state.connectInputs builder tx = .error problem ↔
    state.coins.spendAll tx.spends = .error problem := by
  unfold connectInputs Transaction.spends
  by_cases minting : tx.coinbase = true
  · rw [if_pos minting, if_pos minting]
    constructor <;> intro impossible <;> cases impossible
  · rw [if_neg minting, if_neg minting]
    exact bind_pure_eq_error_iff

/-- **A transaction is not connected** exactly when it stops. -/
theorem connectTx_eq_error_iff : connectTx height (state, builder) tx = .error problem ↔
    ∃ scratch, TxStops height tx state scratch problem := by
  unfold connectTx
  rw [bind_eq_error_iff, connectInputs_eq_error_iff]
  constructor
  · intro refused
    obtain failed | ⟨⟨coins, later⟩, inputs, failed⟩ := refused
    · obtain ⟨front, outpoint, back, undos, coins, split, ran, missing, rfl⟩ :=
        CoinsView.spendAll_eq_error_iff.mp failed
      exact ⟨_, .input split ran missing⟩
    · obtain ⟨prevouts, spent, -⟩ := connectInputs_eq_ok_iff.mp inputs
      obtain ⟨front, placed, back, view, split, ran, refused⟩ :=
        foldlM_eq_error_iff.mp (bind_pure_eq_error_iff.mp failed)
      exact ⟨_, .intent spent split ran refused⟩
  · intro stopped
    obtain ⟨_, stops⟩ := stopped
    cases stops with
    | input split ran missing =>
      exact .inl (CoinsView.spendAll_eq_error_iff.mpr ⟨_, _, _, _, _, split, ran, missing, rfl⟩)
    | intent spent split ran refused =>
      refine .inr ⟨_, connectInputs_eq_ok_iff.mpr ⟨_, spent, rfl⟩, bind_eq_error_iff.mpr (.inl ?_)⟩
      exact foldlM_eq_error_iff.mpr ⟨_, _, _, _, split, ran, refused⟩

/-! ### Blocks that are connected -/

/-- A block stops where one of its transactions does, or at a certificate that is refused, behind
all that comes before. -/
inductive Stops (state : ChainState) (block : Block) : ChainState → ChainError → Prop
  | transaction {front back : List Transaction} {tx : Transaction} {reached scratch : ChainState}
      {builder : BlockUndo.Builder} {problem : ChainError} :
    block.transactions = front ++ tx :: back →
      front.foldlM (connectTx block.height) (state, .start state.root) = .ok (reached, builder) →
      TxStops block.height tx reached scratch problem → Stops state block scratch problem
  | certificate {front back : List Certificate} {certificate : Certificate} {spent : ChainState}
      {builder : BlockUndo.Builder} {view : SidechainView} {undos : SidechainUndos}
      {problem : ChainError} :
    block.transactions.foldlM (connectTx block.height) (state, .start state.root) =
        .ok (spent, builder) →
      block.certificates = front ++ certificate :: back →
      front.foldlM SidechainView.connectCertificate (spent.sidechains, .empty) =
        .ok (view, undos) →
      SidechainView.connectCertificate (view, undos) certificate = .error problem →
        Stops state block { spent with sidechains := view } problem

/-- What a block does to sidechains by itself fails at a certificate. -/
theorem connectSidechains_eq_error_iff {view : SidechainView} :
    connectSidechains view block = .error problem ↔ ∃ front certificate back between,
      block.certificates = front ++ certificate :: back ∧
        front.foldlM SidechainView.connectCertificate (view, .empty) = .ok between ∧
          SidechainView.connectCertificate between certificate = .error problem := by
  unfold connectSidechains
  exact bind_pure_eq_error_iff.trans foldlM_eq_error_iff

/-- **A block is not connected** exactly when it stops. Its log has room for all its records, so
nothing fails behind the certificates. -/
theorem connect_eq_error_iff : state.connect block = .error problem ↔
    ∃ scratch, state.Stops block scratch problem := by
  unfold connect
  rw [bind_eq_error_iff]
  constructor
  · intro refused
    obtain failed | ⟨⟨spent, builder⟩, transactions, failed⟩ := refused
    · obtain ⟨front, tx, back, ⟨reached, builder⟩, split, ran, failed⟩ :=
        foldlM_eq_error_iff.mp failed
      obtain ⟨scratch, stops⟩ := connectTx_eq_error_iff.mp failed
      exact ⟨scratch, .transaction split ran stops⟩
    · obtain failed | ⟨⟨sidechains, undos⟩, -, failed⟩ := bind_eq_error_iff.mp failed
      · obtain ⟨front, certificate, back, ⟨view, undos⟩, split, ran, refused⟩ :=
          connectSidechains_eq_error_iff.mp failed
        exact ⟨_, .certificate transactions split ran refused⟩
      · obtain ⟨-, -, empty⟩ := frame_of_connectTxs transactions
        have overfull := bind_pure_eq_error_iff.mp failed
        rw [recordAll_of_empty empty] at overfull
        cases overfull
  · intro stopped
    obtain ⟨scratch, stops⟩ := stopped
    cases stops with
    | transaction split ran stops =>
      refine .inl (foldlM_eq_error_iff.mpr ⟨_, _, _, _, split, ran, ?_⟩)
      exact connectTx_eq_error_iff.mpr ⟨scratch, stops⟩
    | certificate transactions split ran refused =>
      refine .inr ⟨_, transactions, bind_eq_error_iff.mpr (.inl ?_)⟩
      exact connectSidechains_eq_error_iff.mpr ⟨_, _, _, _, split, ran, refused⟩

/-! ### Blocks that are disconnected -/

/-- A block stops on its way back when its log has another shape, or at an entry, a certificate or
an intent that cannot be taken back, behind all that comes before on that way. -/
inductive StopsBack (state : ChainState) (block : Block) (undo : BlockUndo) :
    ChainState → ChainError → Prop
  | shape {problem : ChainError} :
    undo.checkShape block = .error problem → StopsBack state block undo state problem
  | entry {front back : List (SidechainId × SidechainUndo)} {entry : SidechainId × SidechainUndo}
      {view : SidechainView} {problem : ChainError} :
    undo.checkShape block = .ok () → undo.sidechains.entries = front ++ entry :: back →
      front.foldlM (SidechainView.disconnectEntry block.height) state.sidechains = .ok view →
      SidechainView.disconnectEntry block.height view entry = .error problem →
        StopsBack state block undo { state with sidechains := view } problem
  | certificate {front back : List Certificate} {certificate : Certificate}
      {entered view : SidechainView} {problem : ChainError} :
    undo.checkShape block = .ok () →
      undo.sidechains.entries.foldlM (SidechainView.disconnectEntry block.height)
        state.sidechains = .ok entered →
      block.certificates.reverse = front ++ certificate :: back →
      front.foldlM SidechainView.disconnectCertificate entered = .ok view →
      SidechainView.disconnectCertificate view certificate = .error problem →
        StopsBack state block undo { state with sidechains := view } problem
  | intent {front back : List (Transaction × List OutputUndo)} {tx : Transaction}
      {prevouts : List OutputUndo} {sidechains view : SidechainView} {reached : ChainState}
      {clean : Bool} {before behind : List (Intent × Nat)} {placed : Intent × Nat}
      {problem : ChainError} :
    undo.checkShape block = .ok () →
      disconnectSidechains state.sidechains block undo = .ok sidechains →
      (BlockUndo.assign block.transactions undo.txUndos).reverse =
        front ++ (tx, prevouts) :: back →
      front.foldlM (disconnectTx block.height) ({ state with sidechains }, true) =
        .ok (reached, clean) →
      tx.intents.zipIdx.reverse = before ++ placed :: behind →
      before.foldlM (SidechainView.disconnectIntent reached.maturity block.height tx.txid)
        reached.sidechains = .ok view →
      SidechainView.disconnectIntent reached.maturity block.height tx.txid view placed =
        .error problem →
        StopsBack state block undo { reached with
          coins := (reached.coins.removed tx block.height).1, sidechains := view } problem

end ChainState

end Reorg
