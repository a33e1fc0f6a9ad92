/-
**Runs of the coins view.**

Transactions are added and taken out, outputs are spent and restored, in any order and with any
arguments; a record may be restored where it does not fit. Whatever came before, all entries of the
view are tidy: each holds an unspent output, and its last slot is one. So a transaction has an entry
exactly when it has an unspent output, and the entry is as long as the last of them demands.

* `Coins.output?_restore`, `Coins.tidy_restore`: an output that is restored into an entry;
* `Coins.Tidy.exists_top`: the last slot of a tidy entry;
* `CoinsView.Step`, `CoinsView.run`: the steps that a view takes;
* `CoinsView.get?_perform_ne`: a step leaves the entries of other transactions;
* `CoinsView.Tidy.perform`, `CoinsView.tidy_run`: steps keep all entries tidy;
* `CoinsView.form_of_run`: what holds of the entries, the spends and the steps after every run.
-/

import Mathlib.Data.List.Induction
import Reorg.Proofs.Coins.Outputs

namespace Reorg

open OrderedMap

/-! ### Entries -/

namespace Coins

variable {coins : Coins} {vout other : Nat} {output : Output}

theorem length_restore :
    (coins.restore vout output).slots.length = max coins.slots.length (vout + 1) := by
  simp only [restore, List.length_set, List.length_append, List.length_replicate]
  omega

/-- **A restored output** is offered where it was put, and all others are as before. -/
theorem output?_restore : (coins.restore vout output).output? other =
    if vout = other then some output else coins.output? other := by
  unfold output? restore
  by_cases here : vout = other
  · subst here
    have inside : vout < (coins.slots ++
        List.replicate (vout + 1 - coins.slots.length) none).length := by
      rw [List.length_append, List.length_replicate]
      omega
    rw [if_pos rfl, List.getElem?_set_self inside]
    rfl
  · rw [if_neg here, List.getElem?_set_ne here]
    by_cases old : other < coins.slots.length
    · rw [List.getElem?_append_left old]
    · have padding : (List.replicate (vout + 1 - coins.slots.length)
          (none : Option Output))[other - coins.slots.length]?.join = none := by
        rw [List.getElem?_replicate]
        split <;> rfl
      rw [List.getElem?_append_right (Nat.le_of_not_lt old), padding,
        List.getElem?_eq_none (Nat.le_of_not_lt old)]
      rfl

/-- An output restored into slots that do not end in an empty one makes the entry tidy: either it is
behind them and becomes the last, or the last one stays. -/
theorem tidy_restore (trimmed : coins.slots.getLast? ≠ some none) :
    (coins.restore vout output).Tidy := by
  constructor
  · by_contra spent
    have nothing := isSpent_iff.mp (Bool.not_eq_false _ ▸ spent) vout
    rw [output?_restore, if_pos rfl] at nothing
    cases nothing
  · intro last
    rw [List.getLast?_eq_getElem?, length_restore] at last
    -- the last slot is empty, so it is not the restored one, and it was there before
    have empty : (coins.restore vout output).output?
        (max coins.slots.length (vout + 1) - 1) = none := by
      rw [output?, last]
      rfl
    rw [output?_restore] at empty
    by_cases here : vout = max coins.slots.length (vout + 1) - 1
    · rw [if_pos here] at empty
      cases empty
    · have before : max coins.slots.length (vout + 1) = coins.slots.length := by omega
      have kept : (coins.restore vout output).slots[coins.slots.length - 1]? =
          coins.slots[coins.slots.length - 1]? := by
        rw [before] at here
        rw [restore, List.getElem?_set_ne here, List.getElem?_append_left (by omega)]
      rw [before, kept, ← List.getLast?_eq_getElem?] at last
      exact trimmed last

/-- **The last slot of a tidy entry** holds its last unspent output. -/
theorem Tidy.exists_top (tidy : coins.Tidy) : ∃ top output, coins.slots.length = top + 1 ∧
    coins.output? top = some output ∧ ∀ vout, (coins.output? vout).isSome → vout ≤ top := by
  have nonempty : coins.slots ≠ [] := by
    intro nothing
    have unspent := tidy.unspent
    rw [isSpent, nothing] at unspent
    cases unspent
  have count := List.length_pos_iff.mpr nonempty
  have trimmed := tidy.trimmed
  rw [List.getLast?_eq_getElem?] at trimmed
  cases last : coins.slots[coins.slots.length - 1]? with
  | none =>
    rw [List.getElem?_eq_none_iff] at last
    omega
  | some slot =>
    cases slot with
    | none => exact (trimmed last).elim
    | some output =>
      refine ⟨coins.slots.length - 1, output, by omega, output?_eq_some_iff.mpr last, ?_⟩
      intro vout offered
      obtain ⟨found, offered⟩ := Option.isSome_iff_exists.mp offered
      have inside := (List.getElem?_eq_some_iff.mp (output?_eq_some_iff.mp offered)).1
      omega

end Coins

namespace CoinsView

/-! ### Steps -/

/-- What may be done to a view. -/
inductive Step
  | add (tx : Transaction) (height : Nat)
  | spend (outpoint : OutPoint)
  | restore (outpoint : OutPoint) (undo : OutputUndo)
  | remove (tx : Transaction) (height : Nat)

/-- The transaction that a step is about. -/
def Step.txid : Step → Digest
  | .add tx _ | .remove tx _ => tx.txid
  | .spend outpoint | .restore outpoint _ => outpoint.txid

/-- The view after a step; a spend that fails leaves it as it is. -/
def perform (view : CoinsView) : Step → CoinsView
  | .add tx height => view.addTx tx height
  | .spend outpoint =>
    match view.spend? outpoint with
    | none => view
    | some (_, left) => left
  | .restore outpoint undo => (view.restore outpoint undo).1
  | .remove tx height => (view.removeTx tx height).1

/-- The empty view after some steps. -/
def run (steps : List Step) : CoinsView := steps.foldl perform .empty

variable {view left : CoinsView} {txid id : Digest} {coins : Coins} {outpoint : OutPoint}
  {undo : OutputUndo} {step : Step} {steps : List Step}

theorem run_concat : run (steps ++ [step]) = (run steps).perform step := by
  simp [run]

theorem get?_restore : (view.restore outpoint undo).1.get? id =
    if outpoint.txid = id then
      some ((view.entryFor outpoint.txid undo).1.restore outpoint.vout undo.output)
    else view.get? id :=
  get?_insert

/-- **A step leaves the entries of other transactions.** -/
theorem get?_perform_ne (elsewhere : step.txid ≠ id) :
    (view.perform step).get? id = view.get? id := by
  cases step with
  | add tx height => exact get?_addTx.trans (if_neg elsewhere)
  | spend outpoint =>
    unfold perform
    cases spent : view.spend? outpoint with
    | none => simp only [spent]
    | some found =>
      simp only [spent]
      exact get?_of_spend?_ne spent elsewhere
  | restore outpoint undo => exact get?_restore.trans (if_neg elsewhere)
  | remove tx height => exact get?_erase.trans (if_neg elsewhere)

/-- **A spend gives a record** exactly when there is an output at its place. -/
theorem isSome_spend?_iff : (view.spend? outpoint).isSome ↔ (view.output? outpoint).isSome := by
  unfold spend? output?
  cases view.get? outpoint.txid with
  | none => rfl
  | some coins => cases offered : coins.output? outpoint.vout <;> simp [Coins.spend?, offered]

/-! ### Tidy views -/

/-- All entries are tidy. -/
def Tidy (view : CoinsView) : Prop :=
  ∀ txid coins, view.get? txid = some coins → coins.Tidy

theorem tidy_empty : Tidy .empty := by
  intro txid coins held
  cases held

/-- An entry whose slots do not end in an empty one may be stored: it is tidy, or it is not kept. -/
theorem Tidy.store (tidy : view.Tidy) (trimmed : coins.slots.getLast? ≠ some none) :
    (view.store txid coins).Tidy := by
  intro id found held
  rw [get?_store] at held
  by_cases here : txid = id
  · by_cases spent : coins.isSpent = true
    · simp [here, spent] at held
    · simp only [here, spent, if_true] at held
      cases held
      exact ⟨Bool.not_eq_true _ ▸ spent, trimmed⟩
  · rw [if_neg here] at held
    exact tidy id found held

theorem Tidy.spend? (tidy : view.Tidy) (spent : view.spend? outpoint = some (undo, left)) :
    left.Tidy := by
  obtain ⟨coins, output, rest, -, taken, -, same⟩ := spend?_eq_some_iff.mp spent
  rw [← same]
  exact tidy.store (Coins.getLast?_of_spend? taken)

/-- The entry that a record is restored into is a tidy one, or it has no slots yet. -/
theorem Tidy.trimmed_entryFor (tidy : view.Tidy) :
    (view.entryFor txid undo).1.slots.getLast? ≠ some none := by
  unfold entryFor
  by_cases metadata : undo.hasMetadata = true
  · simp [metadata]
  · cases held : view.get? txid with
    | none => simp [metadata, Coins.blank]
    | some coins => simpa [metadata] using (tidy txid coins held).trimmed

theorem Tidy.restore (tidy : view.Tidy) : (view.restore outpoint undo).1.Tidy := by
  intro id found held
  rw [get?_restore] at held
  by_cases here : outpoint.txid = id
  · rw [if_pos here] at held
    cases held
    exact Coins.tidy_restore tidy.trimmed_entryFor
  · rw [if_neg here] at held
    exact tidy id found held

theorem Tidy.erase (tidy : view.Tidy) : Tidy (OrderedMap.erase view txid) := by
  intro id found held
  rw [get?_erase] at held
  by_cases here : txid = id
  · rw [if_pos here] at held
    cases held
  · rw [if_neg here] at held
    exact tidy id found held

/-- **A step keeps all entries tidy**, whatever its arguments are. -/
theorem Tidy.perform (tidy : view.Tidy) : (view.perform step).Tidy := by
  cases step with
  | add tx height => exact tidy.store (Coins.getLast?_trim _)
  | spend outpoint =>
    unfold CoinsView.perform
    cases spent : view.spend? outpoint with
    | none => simpa only [spent] using tidy
    | some found =>
      simp only [spent]
      exact tidy.spend? spent
  | restore outpoint undo => exact tidy.restore
  | remove tx height => exact tidy.erase

/-- **After every run all entries are tidy.** -/
theorem tidy_run : (run steps).Tidy := by
  induction steps using List.reverseRecOn with
  | nil => exact tidy_empty
  | append_singleton steps step ih =>
    rw [run_concat]
    exact ih.perform

/-! ### What holds after a run -/

/-- On a tidy view, having an entry is having an unspent output. -/
theorem Tidy.isSome_get?_iff (tidy : view.Tidy) :
    (view.get? txid).isSome ↔ view.hasUnspent txid = true := by
  unfold hasUnspent
  cases held : view.get? txid with
  | none => simp
  | some coins => simp [(tidy txid coins held).unspent]

/-- **The form of a view after every run.** A transaction has an entry exactly when it has an unspent
output, and the entry ends in the last of them. A spend gives a record exactly when there is an
output at its place; then it takes out that output alone and changes nothing else that its entry
says, and otherwise nothing changes. A step is about one transaction and leaves the entries of all
others. -/
theorem form_of_run (steps : List Step) :
    let view := run steps
    (∀ txid, (view.get? txid).isSome ↔ view.hasUnspent txid = true) ∧
    (∀ txid coins, view.get? txid = some coins → coins.isSpent = false ∧
      ∃ top output, coins.slots.length = top + 1 ∧ coins.output? top = some output ∧
        ∀ vout, (coins.output? vout).isSome → vout ≤ top) ∧
    (∀ outpoint, ((view.spend? outpoint).isSome ↔ (view.output? outpoint).isSome) ∧
      (∀ undo left, view.spend? outpoint = some (undo, left) →
        view.perform (.spend outpoint) = left ∧ view.output? outpoint = some undo.output ∧
        (∀ other, left.output? other = if outpoint = other then none else view.output? other) ∧
        ∀ txid coins, left.get? txid = some coins →
          ∃ before, view.get? txid = some before ∧ before.origin = coins.origin) ∧
      (view.spend? outpoint = none → view.perform (.spend outpoint) = view)) ∧
    ∀ step id, Step.txid step ≠ id → (view.perform step).get? id = view.get? id := by
  intro view
  have tidy : view.Tidy := tidy_run
  refine ⟨fun txid => tidy.isSome_get?_iff, fun txid coins held => ?_, fun outpoint => ?_,
    fun step id elsewhere => get?_perform_ne elsewhere⟩
  · exact ⟨(tidy txid coins held).unspent, (tidy txid coins held).exists_top⟩
  · refine ⟨isSome_spend?_iff, fun undo left spent => ?_, fun failed => ?_⟩
    · refine ⟨?_, output?_of_spend? spent, fun other => output?_spend? spent,
        fun txid coins held => origin_of_spend? spent held⟩
      simp only [perform, spent]
    · simp only [perform, failed]

end CoinsView

end Reorg
