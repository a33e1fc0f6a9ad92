/-
**The outputs in a coins view.**

A view is known by the outputs that it offers and by what it says of their transactions. Spending
takes out the outputs that are spent, each of which has to be there, and adding a transaction puts
its own in place of all that its identifier had; nothing else changes.

* `CoinsView.output?_spend?`, `output?_spendAll`, `output?_added`: the outputs after each step;
* `CoinsView.output?_of_mem_spendAll`, `nodup_of_spendAll`: what can be spent, and only once;
* `Coins.origin`, `CoinsView.origin_of_spendAll`, `origin_of_added`: what a view says of
  transactions.
-/

import Reorg.Proofs.Coins.View

namespace Reorg

open Fallible OrderedMap

/-! ### Entries -/

namespace Coins

variable {coins : Coins} {tx : Transaction} {height vout : Nat}

/-- What an entry says of its transaction: whether it mints, its height and its version. -/
def origin (coins : Coins) : Bool × Nat × Int32 := (coins.coinbase, coins.height, coins.version)

/-- The entry of a transaction offers those of its outputs that can be spent. -/
theorem output?_ofTx : (ofTx tx height).output? vout = tx.outputs[vout]?.bind slotOf := by
  show (trim (tx.outputs.map slotOf))[vout]?.join = _
  rw [join_getElem?_trim, List.getElem?_map]
  cases tx.outputs[vout]? <;> rfl

theorem output?_eq_none_of_isSpent (spent : coins.isSpent = true) (vout : Nat) :
    coins.output? vout = none := by
  refine Option.eq_none_iff_forall_ne_some.mpr fun output offered => ?_
  have member := List.mem_of_getElem? (output?_eq_some_iff.mp offered)
  have empty := List.all_eq_true.mp spent _ member
  cases empty

/-- An entry is spent when it offers no output. -/
theorem isSpent_iff : coins.isSpent = true ↔ ∀ vout, coins.output? vout = none := by
  refine ⟨output?_eq_none_of_isSpent, fun nothing => List.all_eq_true.mpr fun slot member => ?_⟩
  obtain ⟨vout, found⟩ := List.getElem?_of_mem member
  have offered := nothing vout
  rw [output?, found] at offered
  exact Option.isNone_iff_eq_none.mpr offered

/-- What is left of a slot that can be spent is its output, and it is neither led by the failing
instruction nor too long. -/
theorem slotOf_eq_some_iff {made output : Output} : slotOf made = some output ↔
    made = output ∧ output.script.head? ≠ some Script.opReturn ∧
      output.script.length ≤ Script.maxSize := by
  have spendable : Script.isUnspendable made.script = false ↔
      made.script.head? ≠ some Script.opReturn ∧ made.script.length ≤ Script.maxSize := by
    rw [Script.isUnspendable, Bool.or_eq_false_iff, beq_eq_false_iff_ne, Bool.not_eq_false',
      Bytes.shorterThan_iff, Nat.lt_succ_iff]
  rw [slotOf]
  constructor
  · intro slot
    split at slot
    · cases slot
    · next fine =>
      cases slot
      exact ⟨rfl, spendable.mp (Bool.not_eq_true _ ▸ fine)⟩
  · rintro ⟨rfl, fine⟩
    rw [if_neg (by rw [spendable.mpr fine]; exact Bool.false_ne_true)]

end Coins

/-! ### Views -/

namespace CoinsView

variable {view left final : CoinsView} {outpoint other : OutPoint} {outpoints : List OutPoint}
  {undo : OutputUndo} {undos : List OutputUndo} {txid : Digest} {coins : Coins} {tx : Transaction}
  {height : Nat} {output : Output}

theorem output?_eq_some_iff : view.output? outpoint = some output ↔
    ∃ coins, view.get? outpoint.txid = some coins ∧ coins.output? outpoint.vout = some output :=
  Option.bind_eq_some_iff

theorem output?_store : (view.store txid coins).output? outpoint =
    if txid = outpoint.txid then coins.output? outpoint.vout else view.output? outpoint := by
  rw [output?, get?_store]
  split
  · split
    · next spent => rw [Coins.output?_eq_none_of_isSpent spent, Option.bind_none]
    · rw [Option.bind_some]
  · rfl

/-- The output that a record is for is the one that was spent. -/
theorem output?_of_spend? (spent : view.spend? outpoint = some (undo, left)) :
    view.output? outpoint = some undo.output := by
  obtain ⟨coins, output, rest, held, taken, rfl, -⟩ := spend?_eq_some_iff.mp spent
  have recorded : (if rest.isSpent then ⟨output, coins.coinbase, coins.height, coins.version⟩
      else OutputUndo.plain output).output = output := by split <;> rfl
  rw [recorded, output?_eq_some_iff]
  exact ⟨coins, held, Coins.output?_eq_some_iff.mpr (Coins.spend?_eq_some_iff.mp taken).1⟩

/-- **A spend takes out its output**, and leaves all others. -/
theorem output?_spend? (spent : view.spend? outpoint = some (undo, left)) :
    left.output? other = if outpoint = other then none else view.output? other := by
  obtain ⟨coins, output, rest, held, taken, -, rfl⟩ := spend?_eq_some_iff.mp spent
  rw [output?_store]
  by_cases here : outpoint.txid = other.txid
  · have entry : view.output? other = coins.output? other.vout := by
      rw [output?, ← here, held, Option.bind_some]
    have same : outpoint = other ↔ outpoint.vout = other.vout := by
      constructor
      · exact congrArg OutPoint.vout
      · obtain ⟨txid, vout⟩ := outpoint
        obtain ⟨txid', vout'⟩ := other
        rintro rfl
        exact congrArg (OutPoint.mk · vout) here
    rw [if_pos here, Coins.output?_spend? taken, entry]
    simp only [same]
  · have different : outpoint ≠ other := fun same => here (congrArg OutPoint.txid same)
    rw [if_neg here, if_neg different]

/-! ### The inputs of a transaction -/

/-- Inputs are spent in order, each with its record. -/
theorem spendAll_append_eq_ok_iff {more : List OutPoint} :
    view.spendAll (outpoints ++ more) = .ok (undos, final) ↔ ∃ front left back,
      view.spendAll outpoints = .ok (front, left) ∧ left.spendAll more = .ok (back, final) ∧
        front ++ back = undos := by
  induction outpoints generalizing view undos with
  | nil =>
    constructor
    · exact fun spent => ⟨[], view, undos, rfl, spent, rfl⟩
    · rintro ⟨_, _, _, ⟨⟩, spent, rfl⟩
      exact spent
  | cons outpoint outpoints ih =>
    simp only [List.cons_append, spendAll_cons_eq_ok_iff, ih]
    constructor
    · rintro ⟨undo, next, _, first, ⟨front, left, back, rest, behind, rfl⟩, rfl⟩
      exact ⟨undo :: front, left, back, ⟨undo, next, front, first, rest, rfl⟩, behind, rfl⟩
    · rintro ⟨_, left, back, ⟨undo, next, front, first, rest, rfl⟩, behind, rfl⟩
      exact ⟨undo, next, front ++ back, first, ⟨front, left, back, rest, behind, rfl⟩, rfl⟩

/-- **Spending takes out what is spent**, and leaves all other outputs. -/
theorem output?_spendAll (spent : view.spendAll outpoints = .ok (undos, final)) :
    final.output? other = if other ∈ outpoints then none else view.output? other := by
  induction outpoints generalizing view undos with
  | nil =>
    cases spent
    rw [if_neg List.not_mem_nil]
  | cons outpoint outpoints ih =>
    obtain ⟨_, left, later, first, rest, -⟩ := spendAll_cons_eq_ok_iff.mp spent
    rw [ih rest, output?_spend? first]
    by_cases here : outpoint = other
    · rw [here, if_pos rfl, ite_self, if_pos List.mem_cons_self]
    · have same : other ∈ outpoint :: outpoints ↔ other ∈ outpoints := by
        rw [List.mem_cons, or_iff_right (Ne.symm here)]
      rw [if_neg here]
      simp only [same]

/-- What is spent was there. -/
theorem output?_of_mem_spendAll (spent : view.spendAll outpoints = .ok (undos, final))
    (member : outpoint ∈ outpoints) : ∃ output, view.output? outpoint = some output := by
  induction outpoints generalizing view undos with
  | nil => cases member
  | cons first rest ih =>
    obtain ⟨undo, left, later, here, behind, -⟩ := spendAll_cons_eq_ok_iff.mp spent
    rcases List.mem_cons.mp member with rfl | member
    · exact ⟨undo.output, output?_of_spend? here⟩
    · obtain ⟨output, offered⟩ := ih behind member
      rw [output?_spend? here] at offered
      split at offered
      · cases offered
      · exact ⟨output, offered⟩

/-- **No output is spent twice** by the inputs of one transaction. -/
theorem nodup_of_spendAll (spent : view.spendAll outpoints = .ok (undos, final)) :
    outpoints.Nodup := by
  induction outpoints generalizing view undos with
  | nil => exact List.nodup_nil
  | cons outpoint outpoints ih =>
    obtain ⟨_, left, later, first, rest, -⟩ := spendAll_cons_eq_ok_iff.mp spent
    refine List.nodup_cons.mpr ⟨fun again => ?_, ih rest⟩
    obtain ⟨output, offered⟩ := output?_of_mem_spendAll rest again
    rw [output?_spend? first, if_pos rfl] at offered
    cases offered

/-- Spending changes nothing of what a view says of transactions. -/
theorem origin_of_spend? (spent : view.spend? outpoint = some (undo, left))
    (held : left.get? txid = some coins) :
    ∃ before, view.get? txid = some before ∧ before.origin = coins.origin := by
  obtain ⟨before, output, rest, present, taken, -, rfl⟩ := spend?_eq_some_iff.mp spent
  rw [get?_store] at held
  split at held
  · next here =>
    split at held
    · cases held
    · cases held
      obtain ⟨-, rfl⟩ := Coins.spend?_eq_some_iff.mp taken
      exact ⟨before, here ▸ present, rfl⟩
  · exact ⟨coins, held, rfl⟩

theorem origin_of_spendAll (spent : view.spendAll outpoints = .ok (undos, final))
    (held : final.get? txid = some coins) :
    ∃ before, view.get? txid = some before ∧ before.origin = coins.origin := by
  induction outpoints generalizing view undos with
  | nil =>
    cases spent
    exact ⟨coins, held, rfl⟩
  | cons outpoint outpoints ih =>
    obtain ⟨_, left, later, first, rest, -⟩ := spendAll_cons_eq_ok_iff.mp spent
    obtain ⟨between, present, same⟩ := ih rest
    obtain ⟨before, present', same'⟩ := origin_of_spend? first present
    exact ⟨before, present', same'.trans same⟩

/-! ### The outputs of a transaction -/

/-- **Adding a transaction** above height zero offers its outputs that can be spent, in place of all
that its identifier had. -/
theorem output?_added : (view.added tx height).output? outpoint =
    if height ≠ 0 ∧ tx.txid = outpoint.txid then tx.outputs[outpoint.vout]?.bind Coins.slotOf
    else view.output? outpoint := by
  rw [added]
  by_cases genesis : height = 0
  · rw [if_pos genesis, if_neg fun adds => adds.1 genesis]
  · have adds : (height ≠ 0 ∧ tx.txid = outpoint.txid) ↔ tx.txid = outpoint.txid :=
      and_iff_right genesis
    rw [if_neg genesis, addTx, output?_store, Coins.output?_ofTx]
    simp only [adds]

theorem origin_of_added (held : (view.added tx height).get? txid = some coins) :
    (height ≠ 0 ∧ tx.txid = txid ∧ coins.origin = (tx.coinbase, height, tx.version)) ∨
      (¬ (height ≠ 0 ∧ tx.txid = txid) ∧ view.get? txid = some coins) := by
  rw [added] at held
  by_cases genesis : height = 0
  · rw [if_pos genesis] at held
    exact .inr ⟨fun adds => adds.1 genesis, held⟩
  · rw [if_neg genesis, get?_addTx] at held
    by_cases here : tx.txid = txid
    · rw [if_pos here] at held
      split at held
      · cases held
      · cases held
        exact .inl ⟨genesis, here, rfl⟩
    · rw [if_neg here] at held
      exact .inr ⟨fun adds => here adds.2, held⟩

end CoinsView

end Reorg
