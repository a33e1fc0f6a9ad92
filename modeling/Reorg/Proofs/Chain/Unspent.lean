/-
**The unspent outputs of a chain, told from its history.**

The history of a chain is its transactions in order, each with its height. It says without any view
which outputs are unspent: those that the last transaction with an identifier made and that nothing
behind it spends. The view holds exactly these, so no output is spent twice unless its identifier
was added anew between the two spends.

* `Confirmed`, `history`: the transactions of a chain;
* `Creates`, `Unspent`: what a history says of an identifier and of an output;
* `Mirrors`, `Mirrors.confirm`: a view that says the same, and what a transaction keeps of that;
* `adds_between`: between two spends of an output its identifier is added;
* `ChainState.unspent_of_replay`: all of it, for every chain that connects.
-/

import Reorg.Proofs.Block
import Reorg.Proofs.Chain.Replay
import Reorg.Proofs.Coins.Outputs

namespace Reorg

open Fallible OrderedMap

/-! ### Histories -/

/-- A transaction at the height of its block. -/
structure Confirmed where
  tx : Transaction
  height : Nat
deriving DecidableEq

/-- A transaction adds outputs under its identifier, unless it is in the first block of a chain. -/
def Confirmed.Adds (confirmed : Confirmed) (txid : Digest) : Prop :=
  confirmed.height ≠ 0 ∧ confirmed.tx.txid = txid

instance {confirmed : Confirmed} {txid : Digest} : Decidable (confirmed.Adds txid) :=
  inferInstanceAs (Decidable (_ ∧ _))

/-- The transactions of a block at its height. -/
def Block.confirmed (block : Block) : List Confirmed :=
  block.transactions.map fun tx => ⟨tx, block.height⟩

/-- The transactions of a chain in order. -/
def history (blocks : List Block) : List Confirmed := blocks.flatMap Block.confirmed

variable {confirmed before behind between after : List Confirmed}
  {creator first second last : Confirmed} {txid : Digest} {outpoint : OutPoint} {output : Output}
  {view next : CoinsView}

/-- The last transaction of a history that adds outputs under an identifier, and what is behind
it. -/
structure Creates (confirmed : List Confirmed) (txid : Digest) (creator : Confirmed)
    (behind : List Confirmed) : Prop where
  split : ∃ before, confirmed = before ++ creator :: behind
  adds : creator.Adds txid
  last : ∀ later ∈ behind, ¬ later.Adds txid

/-- The last transaction with the identifier of an output made it, in a way that can be spent, and
no transaction behind spends it. -/
def Unspent (confirmed : List Confirmed) (outpoint : OutPoint) (output : Output) : Prop :=
  ∃ creator behind, Creates confirmed outpoint.txid creator behind ∧
    creator.tx.outputs[outpoint.vout]? = some output ∧
    (output.script.head? ≠ some Script.opReturn ∧ output.script.length ≤ Script.maxSize) ∧
    ∀ later ∈ behind, outpoint ∉ later.tx.spends

theorem not_creates_nil : ¬ Creates [] txid creator behind := by
  rintro ⟨⟨before, split⟩, -, -⟩
  cases before <;> cases split

/-- Either the last transaction is the one that adds the outputs, or it is behind it. -/
theorem creates_concat_iff : Creates (confirmed ++ [last]) txid creator behind ↔
    (last.Adds txid ∧ creator = last ∧ behind = []) ∨
      (¬ last.Adds txid ∧ ∃ rest, behind = rest ++ [last] ∧
        Creates confirmed txid creator rest) := by
  constructor
  · rintro ⟨⟨before, split⟩, adds, none⟩
    rcases List.eq_nil_or_concat behind with rfl | ⟨rest, other, rfl⟩
    · obtain ⟨-, ⟨⟩⟩ := List.append_inj' split rfl
      exact .inl ⟨adds, rfl, rfl⟩
    · rw [List.concat_eq_append, ← List.cons_append, ← List.append_assoc] at split
      obtain ⟨front, ⟨⟩⟩ := List.append_inj' split rfl
      rw [List.concat_eq_append, List.forall_mem_append] at none
      refine .inr ⟨none.2 _ (List.mem_singleton_self _), rest, List.concat_eq_append, ?_⟩
      exact ⟨⟨before, front⟩, adds, none.1⟩
  · rintro (⟨adds, rfl, rfl⟩ | ⟨stays, rest, rfl, ⟨before, rfl⟩, adds, none⟩)
    · exact ⟨⟨confirmed, rfl⟩, adds, fun _ member => (List.not_mem_nil member).elim⟩
    · refine ⟨⟨before, ?_⟩, adds, List.forall_mem_append.mpr ⟨none, ?_⟩⟩
      · rw [List.append_assoc, List.cons_append]
      · exact fun later member => List.mem_singleton.mp member ▸ stays

/-- What one more transaction does to the unspent outputs of a history. -/
theorem unspent_concat_iff : Unspent (confirmed ++ [last]) outpoint output ↔
    if last.Adds outpoint.txid then last.tx.outputs[outpoint.vout]?.bind Coins.slotOf = some output
    else Unspent confirmed outpoint output ∧ outpoint ∉ last.tx.spends := by
  simp only [Unspent, creates_concat_iff]
  split
  · next adds =>
    rw [Option.bind_eq_some_iff]
    simp only [Coins.slotOf_eq_some_iff]
    constructor
    · rintro ⟨_, _, ⟨-, rfl, rfl⟩ | ⟨stays, -⟩, made, fine, -⟩
      · exact ⟨output, made, rfl, fine⟩
      · exact (stays adds).elim
    · rintro ⟨_, made, rfl, fine⟩
      exact ⟨last, [], .inl ⟨adds, rfl, rfl⟩, made, fine,
        fun _ member => (List.not_mem_nil member).elim⟩
  · next stays =>
    constructor
    · rintro ⟨creator, _, ⟨adds, -⟩ | ⟨-, rest, rfl, creates⟩, made, fine, kept⟩
      · exact (stays adds).elim
      · rw [List.forall_mem_append] at kept
        exact ⟨⟨creator, rest, creates, made, fine, kept.1⟩, kept.2 _ (List.mem_singleton_self _)⟩
    · rintro ⟨⟨creator, rest, creates, made, fine, kept⟩, here⟩
      refine ⟨creator, rest ++ [last], .inr ⟨stays, rest, rfl, creates⟩, made, fine, ?_⟩
      exact List.forall_mem_append.mpr
        ⟨kept, fun later member => List.mem_singleton.mp member ▸ here⟩

/-! ### Views -/

/-- The view after one more transaction: its inputs are spent, then its outputs are added. -/
def CoinsView.confirm (view : CoinsView) (confirmed : Confirmed) : Except ChainError CoinsView := do
  let (_, left) ← view.spendAll confirmed.tx.spends
  return left.added confirmed.tx confirmed.height

theorem CoinsView.confirm_eq_ok_iff : view.confirm last = .ok next ↔
    ∃ undos left, view.spendAll last.tx.spends = .ok (undos, left) ∧
      left.added last.tx last.height = next := by
  rw [confirm, bind_eq_ok_iff]
  constructor
  · rintro ⟨⟨undos, left⟩, spent, ⟨⟩⟩
    exact ⟨undos, left, spent, rfl⟩
  · rintro ⟨undos, left, spent, rfl⟩
    exact ⟨(undos, left), spent, rfl⟩

/-- A view offers the unspent outputs of a history, and says of a transaction what is so. -/
structure Mirrors (view : CoinsView) (confirmed : List Confirmed) : Prop where
  outputs : ∀ outpoint output,
    view.output? outpoint = some output ↔ Unspent confirmed outpoint output
  origins : ∀ txid coins, view.get? txid = some coins → ∃ creator behind,
    Creates confirmed txid creator behind ∧
      coins.origin = (creator.tx.coinbase, creator.height, creator.tx.version)

theorem mirrors_nil : Mirrors .empty [] where
  outputs outpoint output := by
    constructor
    · intro offered
      cases offered
    · rintro ⟨creator, behind, creates, -⟩
      exact (not_creates_nil creates).elim
  origins _ _ held := by cases held

/-- **A transaction keeps the view a mirror of the history.** -/
theorem Mirrors.confirm (mirrors : Mirrors view confirmed) (ran : view.confirm last = .ok next) :
    Mirrors next (confirmed ++ [last]) := by
  obtain ⟨undos, left, spent, rfl⟩ := CoinsView.confirm_eq_ok_iff.mp ran
  constructor
  · intro outpoint output
    rw [unspent_concat_iff, CoinsView.output?_added]
    show (if last.Adds outpoint.txid then _ else _) = _ ↔ _
    split
    · exact Iff.rfl
    · rw [CoinsView.output?_spendAll spent, ← mirrors.outputs]
      split
      · next spends =>
        constructor
        · intro offered
          cases offered
        · exact fun kept => (kept.2 spends).elim
      · next kept => exact (and_iff_left kept).symm
  · intro txid coins held
    simp only [creates_concat_iff]
    rcases CoinsView.origin_of_added held with ⟨above, here, origin⟩ | ⟨stays, held⟩
    · exact ⟨last, [], .inl ⟨⟨above, here⟩, rfl, rfl⟩, origin⟩
    · obtain ⟨coins', present, same⟩ := CoinsView.origin_of_spendAll spent held
      obtain ⟨creator, behind, creates, origin⟩ := mirrors.origins txid coins' present
      exact ⟨creator, behind ++ [last], .inr ⟨stays, behind, rfl, creates⟩, same ▸ origin⟩

/-- **After every history the view is its mirror.** -/
theorem mirrors_of_confirmed (ran : confirmed.foldlM CoinsView.confirm .empty = .ok view) :
    Mirrors view confirmed := by
  have mirrors := foldlM_tracks (fun last => [last]) (fun past view => Mirrors view past)
    (fun _ _ _ _ _ mirrors ran => mirrors.confirm ran) mirrors_nil ran
  rwa [List.flatMap_singleton', List.nil_append] at mirrors

/-- The view that a transaction of a history meets. -/
theorem exists_confirm_of_split
    (ran : (before ++ last :: after).foldlM CoinsView.confirm .empty = .ok view) :
    ∃ met left, Mirrors met before ∧ met.confirm last = .ok left := by
  rw [List.foldlM_append, bind_eq_ok_iff] at ran
  obtain ⟨met, front, ran⟩ := ran
  rw [List.foldlM_cons, bind_eq_ok_iff] at ran
  obtain ⟨left, here, -⟩ := ran
  exact ⟨met, left, mirrors_of_confirmed front, here⟩

/-- **Between two spends of an output its identifier is added**, by the first spender or behind
it: the output that the second one finds was made by the last transaction with the identifier, and
the first one is not behind that. -/
theorem adds_between (ran : (before ++ first :: between ++ second :: after).foldlM
    CoinsView.confirm .empty = .ok view) (spends : outpoint ∈ first.tx.spends)
    (again : outpoint ∈ second.tx.spends) :
    ∃ adder ∈ first :: between, adder.Adds outpoint.txid := by
  obtain ⟨met, left, mirrors, confirm⟩ := exists_confirm_of_split ran
  obtain ⟨undos, rest, spent, -⟩ := CoinsView.confirm_eq_ok_iff.mp confirm
  obtain ⟨output, offered⟩ := CoinsView.output?_of_mem_spendAll spent again
  obtain ⟨creator, behind, ⟨⟨front, split⟩, adds, -⟩, -, -, kept⟩ :=
    (mirrors.outputs outpoint output).mp offered
  refine ⟨creator, ?_, adds⟩
  rcases List.append_eq_append_iff.mp split with ⟨middle, rfl, tail⟩ | ⟨middle, rfl, tail⟩
  · rw [tail]
    exact List.mem_append_right _ List.mem_cons_self
  · cases middle with
    | nil =>
      cases tail
      exact List.mem_cons_self
    | cons head middle =>
      cases tail
      refine (kept first ?_ spends).elim
      exact List.mem_append_right _ List.mem_cons_self

/-! ### Chains -/

namespace ChainState

variable {state final : ChainState} {builder later : BlockUndo.Builder} {txs : List Transaction}
  {height maturity : Nat} {block : Block} {blocks : List Block} {undo : BlockUndo}

theorem confirmed_of_connectTxs
    (connected : txs.foldlM (connectTx height) (state, builder) = .ok (final, later)) :
    (txs.map fun tx => Confirmed.mk tx height).foldlM CoinsView.confirm state.coins =
      .ok final.coins := by
  induction txs generalizing state builder with
  | nil =>
    cases connected
    rfl
  | cons tx txs ih =>
    obtain ⟨next, between, step, rest⟩ := connectTxs_cons_eq_ok_iff.mp connected
    obtain ⟨prevouts, coins, sidechains, spent, -, rfl, -⟩ := connectTx_eq_ok_iff.mp step
    rw [List.map_cons, List.foldlM_cons, bind_eq_ok_iff]
    exact ⟨_, CoinsView.confirm_eq_ok_iff.mpr ⟨prevouts, coins, spent, rfl⟩, ih rest⟩

theorem confirmed_of_connect (connected : state.connect block = .ok (final, undo)) :
    block.confirmed.foldlM CoinsView.confirm state.coins = .ok final.coins := by
  obtain ⟨spent, _, _, _, transactions, -, rfl, -⟩ := connect_eq_ok_iff.mp connected
  have ran := confirmed_of_connectTxs transactions
  exact ran

/-- **The coins view of a chain is that of its history.** -/
theorem confirmed_of_replay (replayed : state.replay blocks = .ok final) :
    (history blocks).foldlM CoinsView.confirm state.coins = .ok final.coins := by
  induction blocks generalizing state with
  | nil =>
    cases replayed
    rfl
  | cons block blocks ih =>
    obtain ⟨next, undo, connected, rest⟩ := replay_cons_eq_ok_iff.mp replayed
    rw [history, List.flatMap_cons, List.foldlM_append, bind_eq_ok_iff]
    exact ⟨next.coins, confirmed_of_connect connected, ih rest⟩

/-- **The coins view of a chain holds exactly the outputs that were made and not yet spent**, with
what is so of their transactions, and nothing is spent twice unless it is made again. -/
theorem unspent_of_replay (replayed : (initial maturity).replay blocks = .ok final) :
    (∀ outpoint output,
      final.coins.output? outpoint = some output ↔ Unspent (history blocks) outpoint output) ∧
    (∀ txid coins, final.coins.get? txid = some coins → ∃ creator behind,
      Creates (history blocks) txid creator behind ∧ coins.coinbase = creator.tx.coinbase ∧
        coins.height = creator.height ∧ coins.version = creator.tx.version) ∧
    (∀ spender ∈ history blocks, spender.tx.spends.Nodup) ∧
    ∀ before first between second after outpoint,
      history blocks = before ++ first :: between ++ second :: after →
        outpoint ∈ first.tx.spends → outpoint ∈ second.tx.spends →
          ∃ adder ∈ first :: between, adder.Adds outpoint.txid := by
  have ran := confirmed_of_replay replayed
  have mirrors : Mirrors final.coins (history blocks) := mirrors_of_confirmed ran
  refine ⟨mirrors.outputs, fun txid coins held => ?_, fun spender member => ?_,
    fun before first between second after outpoint split spends again => ?_⟩
  · obtain ⟨creator, behind, creates, origin⟩ := mirrors.origins txid coins held
    obtain ⟨coinbase, others⟩ := Prod.mk.inj origin
    obtain ⟨height, version⟩ := Prod.mk.inj others
    exact ⟨creator, behind, creates, coinbase, height, version⟩
  · obtain ⟨before, after, split⟩ := List.append_of_mem member
    obtain ⟨met, left, -, confirm⟩ := exists_confirm_of_split (split ▸ ran)
    obtain ⟨undos, rest, spent, -⟩ := CoinsView.confirm_eq_ok_iff.mp confirm
    exact CoinsView.nodup_of_spendAll spent
  · exact adds_between (split ▸ ran) spends again

/-- A chain whose first block adds nothing, whose second one mints outputs of which one cannot be
spent, and whose third one spends an output that it makes anew and spends again. -/
def reused : List Block := [
  ⟨.filled 7, 0, [⟨.filled 1, 1, true, [], [⟨5, [0x51]⟩], []⟩], [], .zero⟩,
  ⟨.filled 8, 1, [
    ⟨.filled 1, 1, true, [], [⟨50, [0x51]⟩, ⟨0, [0x6A]⟩, ⟨20, [0x52]⟩], []⟩], [], .zero⟩,
  ⟨.filled 9, 2, [
    ⟨.filled 1, 2, false, [⟨.filled 1, 0⟩, ⟨.filled 1, 2⟩], [⟨40, [0x53]⟩, ⟨30, [0x54]⟩], []⟩,
    ⟨.filled 2, 1, false, [⟨.filled 1, 0⟩], [⟨40, [0x51]⟩], []⟩], [], .zero⟩]

theorem unspent_of_replay_reused : ∃ final, (initial 2).replay reused = .ok final ∧
    (∀ outpoint output,
      final.coins.output? outpoint = some output ↔ Unspent (history reused) outpoint output) ∧
    (∀ txid coins, final.coins.get? txid = some coins → ∃ creator behind,
      Creates (history reused) txid creator behind ∧ coins.coinbase = creator.tx.coinbase ∧
        coins.height = creator.height ∧ coins.version = creator.tx.version) ∧
    (∀ spender ∈ history reused, spender.tx.spends.Nodup) ∧
    ∀ before first between second after outpoint,
      history reused = before ++ first :: between ++ second :: after →
        outpoint ∈ first.tx.spends → outpoint ∈ second.tx.spends →
          ∃ adder ∈ first :: between, adder.Adds outpoint.txid := by
  obtain ⟨final, replayed⟩ := exists_eq_ok (show ((initial 2).replay reused).isOk = true by
    decide +kernel)
  exact ⟨final, replayed, unspent_of_replay replayed⟩

end ChainState

end Reorg
