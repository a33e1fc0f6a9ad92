/-
**The coins view, spent from and restored.**

A view is sound when each of its entries is tidy and was confirmed above height zero. The steps of a
block keep a view sound, and the steps back restore it entry by entry. What a step back does to an
entry, and whether it is clean, depends on that entry alone; so the laws are stated against a view
that may lack some entries, which is what is left after an addition has replaced unspent outputs.

* `CoinsView.Sound`: what holds of every view that blocks lead to;
* `CoinsView.restore_spend?`, `removeTx_addTx`: a step back where nothing is lacking;
* `CoinsView.restore_lacking`, `removeTx_lacking`: a step back where the entry is lacking is not
  clean;
* `CoinsView.without`, `CoinsView.Recovers`: views that lack some entries, and steps back to them;
* `CoinsView.Recovers.restoreAll`, `Recovers.removed`: the inputs and the outputs of a transaction,
  taken back.
-/

import Reorg.Chain.Disconnect
import Reorg.Proofs.Coins.Entry
import Reorg.Proofs.Fallible
import Reorg.Proofs.OrderedMap

namespace Reorg.CoinsView

open Fallible OrderedMap

variable {view left other : CoinsView} {txid id : Digest} {coins : Coins} {outpoint : OutPoint}
  {undo : OutputUndo} {tx : Transaction} {height : Nat}

/-! ### Sound views -/

/-- Every entry is tidy and was confirmed above height zero. -/
structure Sound (view : CoinsView) : Prop where
  tidy : ∀ {txid coins}, view.get? txid = some coins → coins.Tidy
  confirmed : ∀ {txid coins}, view.get? txid = some coins → 0 < coins.height

theorem sound_iff : view.Sound ↔ ∀ entry ∈ view.entries, entry.2.Tidy ∧ 0 < entry.2.height := by
  rw [← forall_get?_iff view fun _ coins => coins.Tidy ∧ 0 < coins.height]
  constructor
  · exact fun sound _ _ held => ⟨sound.tidy held, sound.confirmed held⟩
  · exact fun each => ⟨fun held => (each _ _ held).1, fun held => (each _ _ held).2⟩

instance : Decidable view.Sound := decidable_of_iff _ sound_iff.symm

theorem sound_empty : Sound .empty where
  tidy held := by cases held
  confirmed held := by cases held

/-- On a sound view, having an entry is having an unspent output. -/
theorem Sound.hasUnspent_eq_false_iff (sound : view.Sound) :
    view.hasUnspent txid = false ↔ view.get? txid = none := by
  rw [hasUnspent]
  cases held : view.get? txid with
  | none => simp
  | some coins => simp [(sound.tidy held).unspent]

theorem Sound.hasUnspent_iff (sound : view.Sound) :
    view.hasUnspent txid = true ↔ (view.get? txid).isSome = true := by
  rw [← Bool.not_eq_false, sound.hasUnspent_eq_false_iff, Option.isSome_iff_ne_none]

theorem get?_store : (view.store txid coins).get? id =
    if txid = id then (if coins.isSpent then none else some coins) else view.get? id := by
  rw [store]
  by_cases spent : coins.isSpent
  · rw [if_pos spent, if_pos spent, get?_erase]
  · rw [if_neg spent, if_neg spent, get?_insert]

/-- Storing keeps a view sound when the stored entry, if it is kept, is tidy and confirmed. -/
theorem Sound.store (sound : view.Sound)
    (fits : coins.isSpent = false → coins.Tidy ∧ 0 < coins.height) :
    (view.store txid coins).Sound := by
  have each : ∀ {id found}, (view.store txid coins).get? id = some found →
      found.Tidy ∧ 0 < found.height := by
    intro id found held
    rw [get?_store] at held
    split at held
    · split at held
      · cases held
      · next unspent =>
        cases held
        exact fits (Bool.not_eq_true _ ▸ unspent)
    · exact ⟨sound.tidy held, sound.confirmed held⟩
  exact ⟨fun held => (each held).1, fun held => (each held).2⟩

theorem get?_addTx : (view.addTx tx height).get? id =
    if tx.txid = id then (if (Coins.ofTx tx height).isSpent then none
      else some (Coins.ofTx tx height)) else view.get? id := get?_store

theorem Sound.addTx (sound : view.Sound) (above : 0 < height) : (view.addTx tx height).Sound :=
  sound.store fun unspent => ⟨Coins.tidy_ofTx unspent, above⟩

/-! ### Spending -/

/-- What a spend leaves behind, and the record that it makes. -/
theorem spend?_eq_some_iff : view.spend? outpoint = some (undo, left) ↔
    ∃ coins output rest, view.get? outpoint.txid = some coins ∧
      coins.spend? outpoint.vout = some (output, rest) ∧
      (if rest.isSpent then ⟨output, coins.coinbase, coins.height, coins.version⟩
        else OutputUndo.plain output) = undo ∧
      view.store outpoint.txid rest = left := by
  rw [spend?]
  constructor
  · intro spent
    obtain ⟨coins, held, spent⟩ := Option.bind_eq_some_iff.mp spent
    obtain ⟨⟨output, rest⟩, taken, spent⟩ := Option.bind_eq_some_iff.mp spent
    cases spent
    exact ⟨coins, output, rest, held, taken, rfl, rfl⟩
  · rintro ⟨coins, output, rest, held, taken, rfl, rfl⟩
    simp only [held, taken, bind, Option.bind]
    rfl

theorem get?_of_spend?_ne (spent : view.spend? outpoint = some (undo, left))
    (different : outpoint.txid ≠ id) : left.get? id = view.get? id := by
  obtain ⟨_, _, _, _, _, _, rfl⟩ := spend?_eq_some_iff.mp spent
  rw [get?_store, if_neg different]

theorem get?_of_spend?_isSome (spent : view.spend? outpoint = some (undo, left)) :
    (view.get? outpoint.txid).isSome = true := by
  obtain ⟨_, _, _, held, _⟩ := spend?_eq_some_iff.mp spent
  rw [held]
  rfl

theorem Sound.spend? (sound : view.Sound) (spent : view.spend? outpoint = some (undo, left)) :
    left.Sound := by
  obtain ⟨coins, output, rest, held, taken, _, rfl⟩ := spend?_eq_some_iff.mp spent
  refine sound.store fun unspent => ⟨⟨unspent, Coins.getLast?_of_spend? taken⟩, ?_⟩
  obtain ⟨_, rfl⟩ := Coins.spend?_eq_some_iff.mp taken
  have above : 0 < coins.height := sound.confirmed held
  exact above

/-! ### Restoring -/

/-- The entry that a record is restored into is what the spend left of the old one: either it is
still there, or nothing of it is left and the record says the rest. -/
theorem entryFor_spent {rest : Coins} {output : Output} (sound : view.Sound)
    (held : view.get? outpoint.txid = some coins)
    (taken : coins.spend? outpoint.vout = some (output, rest))
    (same : other.get? outpoint.txid = if rest.isSpent then none else some rest) :
    other.entryFor outpoint.txid
      (if rest.isSpent then ⟨output, coins.coinbase, coins.height, coins.version⟩
        else OutputUndo.plain output) = (rest, true) := by
  by_cases emptied : rest.isSpent = true
  · have none := Coins.eq_nil_of_all_isNone (Coins.getLast?_of_spend? taken) emptied
    have metadata : OutputUndo.hasMetadata
        ⟨output, coins.coinbase, coins.height, coins.version⟩ = true :=
      decide_eq_true (sound.confirmed held)
    rw [if_pos emptied] at same
    rw [if_pos emptied, entryFor, metadata, same, ← none]
    obtain ⟨_, rfl⟩ := Coins.spend?_eq_some_iff.mp taken
    rfl
  · have unspent := Bool.not_eq_true _ ▸ emptied
    rw [if_neg emptied] at same
    rw [if_neg emptied, entryFor, same]
    show (rest, !rest.isSpent) = (rest, true)
    rw [unspent]
    rfl

/-- **Restoring a spent output** gives its entry back and is clean, in every view that has for this
transaction what the spend left. -/
theorem restore_spend? (other : CoinsView) (sound : view.Sound)
    (spent : view.spend? outpoint = some (undo, left))
    (same : other.get? outpoint.txid = left.get? outpoint.txid) :
    ∃ coins, view.get? outpoint.txid = some coins ∧
      other.restore outpoint undo = (other.insert outpoint.txid coins, true) := by
  obtain ⟨coins, output, rest, held, taken, rfl, rfl⟩ := spend?_eq_some_iff.mp spent
  rw [get?_store, if_pos rfl] at same
  refine ⟨coins, held, ?_⟩
  have output : (if rest.isSpent then ⟨output, coins.coinbase, coins.height, coins.version⟩
      else OutputUndo.plain output).output = output := by split <;> rfl
  rw [restore, entryFor_spent sound held taken same, output]
  show (other.insert outpoint.txid (rest.restore outpoint.vout _), _) = _
  rw [Coins.restore_spend? (sound.tidy held) taken, Coins.output?_of_spend? taken]
  rfl

/-- **Restoring into an entry that is lacking is not clean**, when the spend left the entry there:
the record then does not say what the transaction was. -/
theorem restore_lacking (other : CoinsView) (spent : view.spend? outpoint = some (undo, left))
    (held : (left.get? outpoint.txid).isSome = true) (lacking : other.get? outpoint.txid = none) :
    (other.restore outpoint undo).2 = false := by
  obtain ⟨coins, output, rest, _, _, rfl, rfl⟩ := spend?_eq_some_iff.mp spent
  rw [get?_store, if_pos rfl] at held
  by_cases emptied : rest.isSpent = true
  · rw [if_pos emptied] at held
    cases held
  · rw [if_neg emptied]
    simp [restore, entryFor, lacking, OutputUndo.plain, OutputUndo.hasMetadata,
      Coins.isSpent_blank]

/-! ### Taking out a transaction -/

/-- **Taking out an added transaction** is clean in every view that has for it what the addition
left. -/
theorem removeTx_addTx (other : CoinsView)
    (same : other.get? tx.txid = (view.addTx tx height).get? tx.txid) :
    other.removeTx tx height = (other.erase tx.txid, true) := by
  rw [get?_addTx, if_pos rfl] at same
  rw [removeTx, same]
  by_cases spent : (Coins.ofTx tx height).isSpent = true
  · rw [if_pos spent, Option.getD_none, Coins.agrees, spent, Coins.isSpent_blank]
    rfl
  · rw [if_neg spent, Option.getD_some, Coins.agrees]
    simp

/-- **Taking out a transaction whose entry is lacking is not clean**, when the addition left an
entry. -/
theorem removeTx_lacking (other : CoinsView)
    (held : ((view.addTx tx height).get? tx.txid).isSome = true)
    (lacking : other.get? tx.txid = none) : (other.removeTx tx height).2 = false := by
  rw [get?_addTx, if_pos rfl] at held
  by_cases spent : (Coins.ofTx tx height).isSpent = true
  · rw [if_pos spent] at held
    cases held
  · have differs : Coins.blank ≠ Coins.ofTx tx height := by
      intro same
      rw [← same] at spent
      exact spent Coins.isSpent_blank
    simp [removeTx, lacking, Coins.agrees, spent, differs]

/-! ### The inputs of a transaction -/

theorem spendAll_cons_eq_ok_iff {outpoints : List OutPoint} {undos : List OutputUndo}
    {final : CoinsView} : view.spendAll (outpoint :: outpoints) = .ok (undos, final) ↔
      ∃ undo left later, view.spend? outpoint = some (undo, left) ∧
        left.spendAll outpoints = .ok (later, final) ∧ undo :: later = undos := by
  rw [spendAll]
  cases spent : view.spend? outpoint with
  | none =>
    constructor
    · intro impossible
      cases impossible
    · rintro ⟨_, _, _, impossible, _⟩
      cases impossible
  | some first =>
    obtain ⟨undo, left⟩ := first
    rw [bind_eq_ok_iff]
    constructor
    · rintro ⟨⟨later, _⟩, rest, ⟨⟩⟩
      exact ⟨undo, left, later, rfl, rest, rfl⟩
    · rintro ⟨_, _, later, ⟨⟩, rest, rfl⟩
      exact ⟨(later, final), rest, rfl⟩

theorem Sound.spendAll {outpoints : List OutPoint} {undos : List OutputUndo} {final : CoinsView}
    (sound : view.Sound) (spent : view.spendAll outpoints = .ok (undos, final)) : final.Sound := by
  induction outpoints generalizing view undos with
  | nil =>
    cases spent
    exact sound
  | cons outpoint outpoints ih =>
    obtain ⟨_, _, _, first, rest, _⟩ := spendAll_cons_eq_ok_iff.mp spent
    exact ih (sound.spend? first) rest

theorem spendAll_length {outpoints : List OutPoint} {undos : List OutputUndo} {final : CoinsView}
    (spent : view.spendAll outpoints = .ok (undos, final)) : undos.length = outpoints.length := by
  induction outpoints generalizing view undos with
  | nil =>
    cases spent
    rfl
  | cons outpoint outpoints ih =>
    obtain ⟨_, _, _, _, rest, rfl⟩ := spendAll_cons_eq_ok_iff.mp spent
    rw [List.length_cons, List.length_cons, ih rest]

/-- Spending makes no entries. -/
theorem get?_eq_none_of_spendAll {outpoints : List OutPoint} {undos : List OutputUndo}
    {final : CoinsView} (absent : view.get? id = none)
    (spent : view.spendAll outpoints = .ok (undos, final)) : final.get? id = none := by
  induction outpoints generalizing view undos with
  | nil =>
    cases spent
    exact absent
  | cons outpoint outpoints ih =>
    obtain ⟨_, _, _, first, rest, _⟩ := spendAll_cons_eq_ok_iff.mp spent
    refine ih ?_ rest
    by_cases here : outpoint.txid = id
    · have present := get?_of_spend?_isSome first
      rw [here, absent] at present
      cases present
    · rw [get?_of_spend?_ne first here, absent]

/-- A view without the entries of some transactions. -/
def without (view : CoinsView) (txids : List Digest) : CoinsView :=
  txids.foldl OrderedMap.erase view

theorem get?_without {txids : List Digest} :
    (view.without txids).get? id = if id ∈ txids then none else view.get? id := by
  induction txids generalizing view with
  | nil => rfl
  | cons txid txids ih =>
    show (without (view.erase txid) txids).get? id = _
    rw [ih, get?_erase]
    by_cases here : txid = id
    · simp [here]
    · simp [here, Ne.symm here]

/-- The entries of some transactions are there to be lost. -/
def Holds (view : CoinsView) (txids : List Digest) : Prop :=
  ∀ txid ∈ txids, (view.get? txid).isSome = true

/-- Putting a spent entry back where other entries are lacking gives the old view, lacking those. -/
theorem insert_without {txids : List Digest} (spent : view.spend? outpoint = some (undo, left))
    (held : view.get? outpoint.txid = some coins) (kept : outpoint.txid ∉ txids) :
    (left.without txids).insert outpoint.txid coins = view.without txids := by
  refine ext_get? fun id => ?_
  rw [get?_insert, get?_without, get?_without]
  by_cases here : outpoint.txid = id
  · rw [if_pos here, if_neg (here ▸ kept), ← here, held]
  · rw [if_neg here, get?_of_spend?_ne spent here]

/-- Where steps back have led: they were clean exactly under a condition, and then to a view that
lacks some entries, all of which it held. -/
structure Recovers (outcome : CoinsView × Bool) (view : CoinsView) (lost : List Digest)
    (cleanly : Prop) : Prop where
  clean_iff : outcome.2 = true ↔ cleanly
  lacking : outcome.2 = true → outcome.1 = view.without lost
  holds : outcome.2 = true → view.Holds lost

/-- Steps back that were not clean lead nowhere in particular. -/
theorem recovers_of_unclean {outcome : CoinsView × Bool} {lost : List Digest} {cleanly : Prop}
    (unclean : outcome.2 = false) (never : ¬ cleanly) : Recovers outcome view lost cleanly := by
  have impossible : ¬ outcome.2 = true := by rw [unclean]; exact Bool.false_ne_true
  exact ⟨iff_of_false impossible never, fun clean => absurd clean impossible,
    fun clean => absurd clean impossible⟩

/-- One more step back, at an input. -/
theorem Recovers.restore {outcome : CoinsView × Bool} {lost : List Digest} {cleanly : Prop}
    (sound : view.Sound) (spent : view.spend? outpoint = some (undo, left))
    (recovers : Recovers outcome left lost cleanly) :
    Recovers ((outcome.1.restore outpoint undo).1, outcome.2 && (outcome.1.restore outpoint undo).2)
      view lost (outpoint.txid ∉ lost ∧ cleanly) := by
  obtain ⟨found, clean⟩ := outcome
  by_cases soFar : clean = true
  · obtain rfl : found = left.without lost := recovers.lacking soFar
    have holds := recovers.holds soFar
    have cleanly := recovers.clean_iff.mp soFar
    by_cases lacking : outpoint.txid ∈ lost
    · have unclean := restore_lacking (left.without lost) spent (holds _ lacking)
        (by rw [get?_without, if_pos lacking])
      exact recovers_of_unclean (by simp [unclean]) fun both => both.1 lacking
    · obtain ⟨coins, present, back⟩ := restore_spend? (left.without lost) sound spent
        (by rw [get?_without, if_neg lacking])
      refine ⟨by simp [back, lacking, soFar, cleanly], fun _ => ?_, fun _ txid member => ?_⟩
      · rw [back, insert_without spent present lacking]
      · have different : outpoint.txid ≠ txid := fun here => lacking (here ▸ member)
        rw [← get?_of_spend?_ne spent different]
        exact holds txid member
  · exact recovers_of_unclean (by simp [soFar]) fun both =>
      soFar (recovers.clean_iff.mpr both.2)

/-- **The inputs of a transaction are restored**, from a view that lacks some entries, and cleanly
exactly when none of them was spent from a lacking entry. -/
theorem Recovers.restoreAll {outcome : CoinsView × Bool} {outpoints : List OutPoint}
    {undos : List OutputUndo} {final : CoinsView} {lost : List Digest} {cleanly : Prop}
    (sound : view.Sound) (spent : view.spendAll outpoints = .ok (undos, final))
    (recovers : Recovers outcome final lost cleanly) :
    Recovers ((outcome.1.restoreAll (outpoints.zip undos)).1,
        outcome.2 && (outcome.1.restoreAll (outpoints.zip undos)).2) view lost
      ((∀ outpoint ∈ outpoints, outpoint.txid ∉ lost) ∧ cleanly) := by
  induction outpoints generalizing view undos with
  | nil =>
    cases spent
    show Recovers (outcome.1, outcome.2 && true) _ lost _
    rw [Bool.and_true]
    refine ⟨?_, recovers.lacking, recovers.holds⟩
    rw [recovers.clean_iff]
    exact ⟨fun holds => ⟨fun _ member => (List.not_mem_nil member).elim, holds⟩, And.right⟩
  | cons outpoint outpoints ih =>
    obtain ⟨undo, left, later, first, rest, rfl⟩ := spendAll_cons_eq_ok_iff.mp spent
    have step := (ih (sound.spend? first) rest).restore sound first
    rw [Bool.and_assoc, ← and_assoc,
      ← List.forall_mem_cons (p := fun outpoint : OutPoint => outpoint.txid ∉ lost)] at step
    exact step

/-! ### The outputs of a transaction -/

/-- The unspent outputs after a transaction is added; those of the first block are not. -/
def added (view : CoinsView) (tx : Transaction) (height : Nat) : CoinsView :=
  if height = 0 then view else view.addTx tx height

theorem Sound.added (sound : view.Sound) : (view.added tx height).Sound := by
  rw [CoinsView.added]
  split
  · exact sound
  · next above => exact sound.addTx (Nat.pos_of_ne_zero above)

/-- The identifier that a transaction is added over, when it has unspent outputs. -/
def replaced (view : CoinsView) (tx : Transaction) (height : Nat) : List Digest :=
  if height ≠ 0 ∧ view.hasUnspent tx.txid = true then [tx.txid] else []

theorem mem_replaced_iff : id ∈ view.replaced tx height ↔
    height ≠ 0 ∧ view.hasUnspent tx.txid = true ∧ tx.txid = id := by
  rw [replaced]
  split
  · next replaces => rw [List.mem_singleton, eq_comm, ← and_assoc, and_iff_right replaces]
  · next keeps =>
    rw [← and_assoc]
    exact ⟨fun impossible => (List.not_mem_nil impossible).elim, fun all => (keeps all.1).elim⟩

/-- The outputs of a transaction, taken out again. -/
def removed (view : CoinsView) (tx : Transaction) (height : Nat) : CoinsView × Bool :=
  if height = 0 then (view, true) else view.removeTx tx height

/-- What is left when the outputs of a transaction are taken out of a view that lacks other
entries: what they were added over is lacking then too. -/
theorem erase_without_addTx {lost : List Digest} (sound : view.Sound) (above : height ≠ 0) :
    ((view.addTx tx height).without lost).erase tx.txid =
      view.without (view.replaced tx height ++ lost) := by
  refine ext_get? fun id => ?_
  rw [get?_erase, get?_without, get?_without, get?_addTx]
  by_cases here : tx.txid = id
  · subst here
    rw [if_pos rfl]
    by_cases replaces : view.hasUnspent tx.txid = true
    · have member : tx.txid ∈ view.replaced tx height ++ lost :=
        List.mem_append_left _ (mem_replaced_iff.mpr ⟨above, replaces, rfl⟩)
      rw [if_pos member]
    · have absent := sound.hasUnspent_eq_false_iff.mp (Bool.not_eq_true _ ▸ replaces)
      rw [absent, ite_self]
  · have same : id ∈ view.replaced tx height ++ lost ↔ id ∈ lost := by
      rw [List.mem_append, mem_replaced_iff]
      exact ⟨fun either => either.resolve_left fun all => here all.2.2, .inr⟩
    rw [if_neg here, if_neg here]
    simp only [same]

/-- What a transaction was added over was there, and so was all else that is lacking after it. -/
theorem Holds.replaced {lost : List Digest} (sound : view.Sound)
    (holds : (view.addTx tx height).Holds lost) (kept : tx.txid ∉ lost) :
    view.Holds (view.replaced tx height ++ lost) := by
  intro txid member
  rcases List.mem_append.mp member with first | later
  · obtain ⟨-, replaces, rfl⟩ := mem_replaced_iff.mp first
    exact sound.hasUnspent_iff.mp replaces
  · have held := holds txid later
    have elsewhere : tx.txid ≠ txid := fun here => kept (here ▸ later)
    rw [get?_addTx, if_neg elsewhere] at held
    exact held

/-- **The outputs of a transaction are taken out**, from a view that lacks some entries. -/
theorem Recovers.removed {outcome : CoinsView × Bool} {lost : List Digest} {cleanly : Prop}
    (sound : view.Sound) (recovers : Recovers outcome (view.added tx height) lost cleanly) :
    Recovers ((outcome.1.removed tx height).1, outcome.2 && (outcome.1.removed tx height).2) view
      (view.replaced tx height ++ lost) ((height ≠ 0 → tx.txid ∉ lost) ∧ cleanly) := by
  obtain ⟨found, clean⟩ := outcome
  by_cases genesis : height = 0
  · have none : view.replaced tx height = [] := if_neg fun replaces => replaces.1 genesis
    rw [CoinsView.added, if_pos genesis] at recovers
    rw [CoinsView.removed, if_pos genesis, none, Bool.and_true, List.nil_append]
    refine ⟨?_, recovers.lacking, recovers.holds⟩
    rw [recovers.clean_iff]
    exact ⟨fun holds => ⟨fun above => absurd genesis above, holds⟩, And.right⟩
  rw [CoinsView.added, if_neg genesis] at recovers
  rw [CoinsView.removed, if_neg genesis]
  by_cases soFar : clean = true
  · obtain rfl : found = (view.addTx tx height).without lost := recovers.lacking soFar
    have holds := recovers.holds soFar
    have cleanly := recovers.clean_iff.mp soFar
    by_cases lacking : tx.txid ∈ lost
    · have unclean := removeTx_lacking ((view.addTx tx height).without lost)
        (holds _ lacking) (by rw [get?_without, if_pos lacking])
      exact recovers_of_unclean (by simp [unclean]) fun both => both.1 genesis lacking
    · have kept : ((view.addTx tx height).without lost).get? tx.txid =
          (view.addTx tx height).get? tx.txid := by rw [get?_without, if_neg lacking]
      rw [removeTx_addTx _ kept]
      exact ⟨by simp [lacking, soFar, cleanly], fun _ => erase_without_addTx sound genesis,
        fun _ => holds.replaced sound lacking⟩
  · exact recovers_of_unclean (by simp [soFar]) fun both =>
      soFar (recovers.clean_iff.mpr both.2)

end Reorg.CoinsView
