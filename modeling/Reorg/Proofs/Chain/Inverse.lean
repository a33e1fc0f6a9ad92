/-
**Disconnecting as the inverse of connecting.**

When no transaction of a block is added over unspent outputs of its own identifier, its log restores
the state exactly and the disconnection is clean. When one is, what it replaced is lost; the
disconnection says so by being unclean, but only if something in the block touched these outputs
before they were replaced.

* `ChainState.disconnect_connect`: the exact inverse;
* `ChainState.clean_exact_iff`: when a clean disconnection can be relied on;
* `ChainState.clean_disconnect_loses_outputs`: the same transaction twice, the second time over the
  outputs of the first.
-/

import Reorg.Proofs.Block
import Reorg.Proofs.Chain.Disconnect

namespace Reorg

open Fallible OrderedMap

namespace ChainState

variable {state next left : ChainState} {block : Block} {undo : BlockUndo} {maturity : Nat}

/-! ### The exact inverse -/

/-- **A block that replaces nothing is taken back exactly**, and cleanly: every entry of the coins
view and every sidechain record comes back as it was, and so does the root. -/
theorem disconnect_connect
    (coins : ∀ txid coins, state.coins.get? txid = some coins →
      0 < coins.height ∧ coins.isSpent = false ∧ coins.slots.getLast? ≠ some none)
    (sidechains : ∀ id sidechain, state.sidechains.get? id = some sidechain →
      0 ≤ sidechain.balance ∧
        ∀ height amount, sidechain.immature.get? height = some amount → 0 < amount)
    (connected : state.connect block = .ok (next, undo))
    (keeps : ∀ before tx, ¬ state.Overwrites block before tx) :
    next.disconnect block undo = .ok (state, .clean) := by
  have soundCoins : state.coins.Sound :=
    ⟨fun held => ⟨(coins _ _ held).2.1, (coins _ _ held).2.2⟩, fun held => (coins _ _ held).1⟩
  have soundSidechains : state.sidechains.Sound := fun id sidechain held =>
    ⟨(sidechains id sidechain held).1, fun waiting => (sidechains id sidechain held).2 _ _ waiting⟩
  exact disconnect_of_keeps ⟨soundCoins, soundSidechains⟩ connected keeps

/-- A state with an output left of two, and a sidechain that an amount waits to join at height 5. -/
def waiting : ChainState where
  coins := .ofList [(.filled 1, ⟨false, 3, 1, [none, some ⟨30, [0x51]⟩]⟩)]
  sidechains := .ofList [(.filled 9, ⟨1, .filled 8, .null, 40, 2, .ofList [(5, 7), (8, 1)]⟩)]
  root := .zero
  maturity := 3

/-- A block that spends the output, sends value to the sidechain, spends an output of its own, and
pays out of the sidechain twice before the amount joins it. -/
def busy : Block where
  hash := .zero
  height := 5
  transactions := [
    ⟨.filled 2, 1, true, [], [⟨50, [0x51]⟩], []⟩,
    ⟨.filled 3, -4, false, [⟨.filled 1, 1⟩], [⟨10, [0x52]⟩, ⟨15, [0x6A]⟩],
      [.forward (.filled 7) 5 (.filled 9)]⟩,
    ⟨.filled 4, 1, false, [⟨.filled 3, 0⟩, ⟨.filled 2, 0⟩], [⟨60, [0x53]⟩], []⟩]
  certificates := [⟨.filled 5, .filled 9, 3, 10⟩, ⟨.filled 6, .filled 9, 4, 30⟩]
  root := .filled 9

theorem disconnect_connect_busy : ∃ result, waiting.Sound ∧ waiting.connect busy = .ok result ∧
    (∀ before tx, ¬ waiting.Overwrites busy before tx) ∧
      result.1.disconnect busy result.2 = .ok (waiting, .clean) := by
  have sound : waiting.Sound := by decide +kernel
  have keeps : ∀ before tx, ¬ waiting.Overwrites busy before tx := fun before tx =>
    not_overwrites_of_fresh (by decide +kernel) (by decide +kernel)
  cases connected : waiting.connect busy with
  | error problem =>
    have succeeds : (waiting.connect busy).isOk = true := by decide +kernel
    rw [connected] at succeeds
    cases succeeds
  | ok result =>
    refine ⟨result, sound, rfl, keeps, disconnect_connect (fun txid coins held => ?_)
      (fun id sidechain held => ?_) connected keeps⟩
    · have tidy := sound.coins.tidy held
      exact ⟨sound.coins.confirmed held, tidy.unspent, tidy.trimmed⟩
    · have record := sound.sidechains id sidechain held
      exact ⟨record.solvent, fun height amount waiting => record.waiting waiting⟩

/-! ### When a clean disconnection can be relied on -/

/-- The states that blocks lead to, from the one before any block. -/
inductive Reached (maturity : Nat) : ChainState → Prop
  | initial : Reached maturity (.initial maturity)
  | connect {state next : ChainState} {block : Block} {undo : BlockUndo} :
    Reached maturity state → state.connect block = .ok (next, undo) → Reached maturity next

theorem Reached.sound (reached : Reached maturity state) : state.Sound := by
  induction reached with
  | initial => exact sound_initial
  | connect _ connected sound => exact sound.connect connected

/-- A block replaces unspent outputs, and touches none of those that it replaces before it does. -/
def Hides (state : ChainState) (block : Block) : Prop :=
  (∃ before tx, state.Overwrites block before tx) ∧
    ∀ before tx, state.Overwrites block before tx → Untouched before tx

/-- **A clean disconnection restores the state exactly when the block hides no loss.** -/
theorem clean_exact_iff (reached : Reached maturity state)
    (connected : state.connect block = .ok (next, undo)) :
    (∀ left, next.disconnect block undo = .ok (left, .clean) →
      left.coins = state.coins ∧ left.sidechains = state.sidechains ∧ left.root = state.root) ↔
        ¬ state.Hides block := by
  obtain ⟨⟨coins, clean⟩, lost, back, recovers, replaced⟩ :=
    recovers_of_connect reached.sound connected
  constructor
  · rintro exact' ⟨⟨before, tx, overwrites⟩, untouched⟩
    obtain rfl : clean = true := recovers.clean_iff.mpr untouched
    have member := (replaced tx.txid).mpr ⟨before, tx, overwrites, rfl⟩
    have lacking : coins = state.coins.without lost := recovers.lacking rfl
    have restored : coins = state.coins := (exact' _ back).1
    have held := recovers.holds rfl tx.txid member
    rw [← restored, lacking, CoinsView.get?_without, if_pos member] at held
    cases held
  · intro shows left disconnected
    rw [back] at disconnected
    cases clean with
    | false => cases disconnected
    | true =>
      cases disconnected
      refine ⟨?_, rfl, rfl⟩
      have untouched := recovers.clean_iff.mp rfl
      have nothing : lost = [] := by
        refine List.eq_nil_iff_forall_not_mem.mpr fun id member => shows ⟨?_, untouched⟩
        obtain ⟨before, tx, overwrites, -⟩ := (replaced id).mp member
        exact ⟨before, tx, overwrites⟩
      rw [show coins = state.coins.without lost from recovers.lacking rfl, nothing]
      rfl

/-- A transaction that mints one output. -/
def minted : Transaction := ⟨.filled 1, 1, true, [], [⟨50, [0x51]⟩], []⟩

/-- The block that mints it at a height. -/
def minting (height : Nat) : Block := ⟨.zero, height, [minted], [], .zero⟩

/-- The state after it was minted at a height. -/
def mintedAt (height : Nat) : ChainState :=
  ⟨.ofList [(.filled 1, ⟨true, height, 1, [some ⟨50, [0x51]⟩]⟩)], .empty, .zero, 0⟩

theorem reached_mintedAt_one : Reached 0 (mintedAt 1) :=
  have connected : (initial 0).connect (minting 1) =
    .ok (mintedAt 1, ⟨[], .zero, .empty, .current⟩) := rfl
  .connect .initial connected

theorem clean_exact_iff_minted_twice : Reached 0 (mintedAt 1) ∧ ∃ next undo,
    (mintedAt 1).connect (minting 2) = .ok (next, undo) ∧
      ((∀ left, next.disconnect (minting 2) undo = .ok (left, .clean) →
        left.coins = (mintedAt 1).coins ∧ left.sidechains = (mintedAt 1).sidechains ∧
          left.root = (mintedAt 1).root) ↔ ¬ (mintedAt 1).Hides (minting 2)) :=
  have connected : (mintedAt 1).connect (minting 2) =
    .ok (mintedAt 2, ⟨[], .zero, .empty, .current⟩) := rfl
  ⟨reached_mintedAt_one, _, _, connected, clean_exact_iff reached_mintedAt_one connected⟩

/-- **The same transaction twice**: disconnecting the second one is clean and takes the outputs of
the first one with it. -/
theorem clean_disconnect_loses_outputs : ∃ state next undo left, Reached 0 state ∧
    state.connect (minting 2) = .ok (next, undo) ∧
      next.disconnect (minting 2) undo = .ok (left, .clean) ∧ left.coins ≠ state.coins :=
  ⟨mintedAt 1, mintedAt 2, ⟨[], .zero, .empty, .current⟩, initial 0, reached_mintedAt_one, rfl, rfl,
    by decide +kernel⟩

end ChainState

end Reorg
