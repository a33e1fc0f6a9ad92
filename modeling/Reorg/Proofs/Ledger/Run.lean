/-
**Runs of a ledger.**

Whatever calls a ledger over the store in memory has taken, its state is the one that its active
blocks lead to, and the store has their logs. The store keeps the records of blocks that were
disconnected, and a block may be connected again; but a record is only ever put for a block above
all active ones, and blocks of different heights have different hashes, so no active record is lost.

* `Call`, `Ledger.run`: the calls that a ledger takes, those that fail included;
* `Ledger.Backed`: how active blocks have led to a state, with their logs in the store;
* `Ledger.Backed.perform`: what a call keeps;
* `Ledger.Consistent`, `Ledger.consistent_run`: what holds after every run.
-/

import Reorg.Ledger.Basic
import Reorg.Proofs.Block
import Reorg.Proofs.Chain.Disconnect
import Reorg.Proofs.Chain.Log
import Reorg.Proofs.Chain.Replay
import Reorg.Store.Memory

namespace Reorg

open Fallible OrderedMap

/-! ### Calls -/

/-- What a block is made from. -/
structure Proposal where
  parent : Digest
  height : Nat
  transactions : List Transaction
  certificates : List Certificate
  root : Digest

namespace Proposal

/-- The text that the hash of the block commits to. -/
def text (proposal : Proposal) : String :=
  Block.preimage proposal.parent proposal.height proposal.transactions proposal.certificates
    proposal.root

/-- The block, with the hash that its content gives it. -/
def block (proposal : Proposal) : Block :=
  Block.create proposal.parent proposal.height proposal.transactions proposal.certificates
    proposal.root

end Proposal

/-- What a ledger may be asked to do. -/
inductive Call
  | connect (proposal : Proposal)
  | disconnectTip

namespace Ledger

variable {σ : Type} [UndoStore σ]

/-- A ledger after a call; one that fails to disconnect stays as it is. -/
def perform (ledger : Ledger σ) : Call → Ledger σ
  | .connect proposal => (ledger.connect proposal.block).1
  | .disconnectTip =>
    match ledger.disconnectTip with
    | .error _ => ledger
    | .ok (_, next) => next

/-- A ledger over an empty store in memory after some calls. -/
def run (config : LedgerConfig) (calls : List Call) : Ledger MemoryStore :=
  calls.foldl perform (start config .empty)

theorem run_concat {config : LedgerConfig} {calls : List Call} {call : Call} :
    run config (calls ++ [call]) = (run config calls).perform call := by
  rw [run, List.foldl_append]
  rfl

end Ledger

/-! ### Active blocks -/

namespace Ledger

variable {initial state next : ChainState} {store : MemoryStore} {blocks : List Block}
  {block : Block} {undo : BlockUndo} {allowed : Block → Prop} {hash : Digest}

/-- Active blocks, the last one first, have led from one state to another: each was allowed, came at
its height and replaced nothing, its log has bounds, and the store has the log. -/
inductive Backed (allowed : Block → Prop) (initial : ChainState) (store : MemoryStore) :
    List Block → ChainState → Prop
  | nothing : Backed allowed initial store [] initial
  | block {blocks : List Block} {state next : ChainState} {block : Block} {undo : BlockUndo}
    (front : Backed allowed initial store blocks state) (fits : allowed block)
    (height : block.height = blocks.length) (connected : state.connect block = .ok (next, undo))
    (keeps : ∀ before tx, ¬ state.Overwrites block before tx) (bounded : undo.Bounded)
    (stored : UndoStore.get store block.hash = .ok undo) :
    Backed allowed initial store (block :: blocks) next

theorem Backed.sound (backed : Backed allowed initial store blocks state) (start : initial.Sound) :
    state.Sound := by
  induction backed with
  | nothing => exact start
  | block _ _ _ connected _ _ _ sound => exact sound.connect connected

/-- Active blocks are below the height of the next one. -/
theorem Backed.height_lt (backed : Backed allowed initial store blocks state) :
    ∀ block ∈ blocks, allowed block ∧ block.height < blocks.length := by
  induction backed with
  | nothing => exact fun _ member => (List.not_mem_nil member).elim
  | block _ fits height _ _ _ _ below =>
    refine List.forall_mem_cons.mpr ⟨⟨fits, height ▸ Nat.lt_succ_self _⟩, fun block member => ?_⟩
    exact ⟨(below block member).1, Nat.lt_succ_of_lt (below block member).2⟩

theorem Backed.nextHeight_eq (backed : Backed allowed initial store blocks state) :
    nextHeight ⟨blocks, state, store⟩ = blocks.length := by
  cases backed with
  | nothing => rfl
  | block _ _ height _ _ _ _ => exact congrArg (· + 1) height

theorem Backed.replayed (backed : Backed allowed initial store blocks state) :
    initial.replay blocks.reverse = .ok state := by
  induction backed with
  | nothing => rfl
  | block _ _ _ connected _ _ _ ih =>
    rw [List.reverse_cons, ChainState.replay_concat_eq_ok_iff]
    exact ⟨_, _, ih, connected⟩

/-- The outputs that active blocks have left may be written, when those of the blocks were in
range. -/
theorem Backed.writable (backed : Backed allowed initial store blocks state) (start : initial.Sound)
    (empty : initial.coins.FitsWith Output.Writable)
    (words : ∀ block, allowed block → block.height < UInt32.size)
    (inRange : ∀ block, allowed block → ∀ tx ∈ block.transactions, ∀ output ∈ tx.outputs,
      output.value.inRange = true) : state.coins.FitsWith Output.Writable := by
  have fits : ∀ block ∈ blocks.reverse, allowed block := fun block member =>
    (backed.height_lt block (List.mem_reverse.mp member)).1
  refine ChainState.fitsWith_of_replay start empty (fun block member => ?_)
    (fun block member tx inside output made short => ⟨?_, short⟩) backed.replayed
  · exact words block (fits block member)
  · exact inRange block (fits block member) tx inside output made

/-! ### The store -/

theorem getRaw_put {payload : Bytes} {other : Digest} :
    UndoStore.getRaw (MemoryStore.mk (store.records.insert hash payload)) other =
      if hash = other then .ok payload else UndoStore.getRaw store other := by
  simp only [UndoStore.getRaw]
  rw [get?_insert]
  by_cases here : hash = other
  · simp only [if_pos here]
  · simp only [if_neg here]

/-- What was put for a block is got as its bytes are read. -/
theorem get_put :
    UndoStore.get (MemoryStore.mk (store.records.insert hash (toWire undo))) hash =
      (ofWire BlockUndo (toWire undo)).mapError (.unreadable hash) := by
  rw [UndoStore.get, getRaw_put, if_pos rfl]
  rfl

theorem get_put_self (writable : undo.Writable) :
    UndoStore.get (MemoryStore.mk (store.records.insert hash (toWire undo))) hash = .ok undo := by
  rw [get_put, (BlockUndo.faithful writable).ofWire]
  rfl

theorem get_put_ne {other : Digest} (different : hash ≠ other) :
    UndoStore.get (MemoryStore.mk (store.records.insert hash (toWire undo))) other =
      UndoStore.get store other := by
  rw [UndoStore.get, getRaw_put, if_neg different]
  rfl

/-- A record for none of the active blocks leaves their logs in the store. -/
theorem Backed.put (backed : Backed allowed initial store blocks state)
    (foreign : ∀ block ∈ blocks, hash ≠ block.hash) :
    Backed allowed initial ⟨store.records.insert hash (toWire undo)⟩ blocks state := by
  induction backed with
  | nothing => exact .nothing
  | block _ fits height connected keeps bounded stored ih =>
    obtain ⟨here, rest⟩ := List.forall_mem_cons.mp foreign
    exact .block (ih rest) fits height connected keeps bounded ((get_put_ne here).trans stored)

/-! ### Steps -/

/-- What connecting a block does over the store in memory: nothing, or all of it. -/
theorem connect_fst (ledger : Ledger MemoryStore) (block : Block) :
    (ledger.connect block).1 = ledger ∨ ∃ state undo, block.height = ledger.nextHeight ∧
      ledger.state.connect block = .ok (state, undo) ∧
        (ledger.connect block).1 = ⟨block :: ledger.blocks, state,
          ⟨ledger.store.records.insert block.hash (toWire undo)⟩⟩ := by
  rw [connect]
  split
  · exact .inl rfl
  · next height =>
    split
    · exact .inl rfl
    · next state undo connected => exact .inr ⟨state, undo, not_not.mp height, connected, rfl⟩

/-- What disconnecting the last block does. -/
theorem disconnectTip_eq_ok {status : DisconnectStatus}
    (stored : UndoStore.get store block.hash = .ok undo)
    (back : next.disconnect block undo = .ok (state, status)) :
    disconnectTip ⟨block :: blocks, next, store⟩ =
      .ok (some (status, .blockDisconnected block.hash block.height (status == .clean) ::
        sidechainEvents state block undo), ⟨blocks, state, store⟩) := by
  show ((UndoStore.get store block.hash).mapError LedgerError.store >>= _) = _
  rw [stored]
  show ((next.disconnect block undo).mapError LedgerError.chain >>= _) = _
  rw [back]
  rfl

/-- The last active block is disconnected by its log, cleanly, and the ledger is as before it. -/
theorem Backed.disconnectTip (start : initial.Sound)
    (backed : Backed allowed initial store (block :: blocks) next) :
    ∃ state events, Backed allowed initial store blocks state ∧
      Ledger.disconnectTip ⟨block :: blocks, next, store⟩ =
        .ok (some (.clean, events), ⟨blocks, state, store⟩) := by
  cases backed with
  | block front _ _ connected keeps _ stored =>
    have back := ChainState.disconnect_of_keeps (front.sound start) connected keeps
    exact ⟨_, _, front, disconnectTip_eq_ok stored back⟩

/-- What is assumed of a run: heights fit their words, outputs are in range, hashes of different
texts differ, and a block that is connected replaces nothing and has a log with bounds. -/
structure Admissible (config : LedgerConfig) (calls : List Call) : Prop where
  words : ∀ proposal, .connect proposal ∈ calls → proposal.height < UInt32.size
  inRange : ∀ proposal, .connect proposal ∈ calls → ∀ tx ∈ proposal.transactions,
    ∀ output ∈ tx.outputs, output.value.inRange = true
  distinct : ∀ first second, .connect first ∈ calls → .connect second ∈ calls →
    Digest.hashText first.text = Digest.hashText second.text → first.text = second.text
  connects : ∀ front proposal behind, calls = front ++ .connect proposal :: behind →
    ∀ next undo, proposal.height = (run config front).nextHeight →
      (run config front).state.connect proposal.block = .ok (next, undo) →
        (∀ before tx, ¬ (run config front).state.Overwrites proposal.block before tx) ∧ undo.Bounded

/-- A block that some call proposes. -/
def Proposed (calls : List Call) (block : Block) : Prop :=
  ∃ proposal, .connect proposal ∈ calls ∧ proposal.block = block

variable {config : LedgerConfig} {calls front behind : List Call} {call : Call}

/-- Proposed blocks of different heights have different hashes. -/
theorem Admissible.hash_ne (admissible : Admissible config calls) {first second : Block}
    (proposed : Proposed calls first) (proposed' : Proposed calls second)
    (apart : first.height ≠ second.height) : first.hash ≠ second.hash := by
  obtain ⟨proposal, member, rfl⟩ := proposed
  obtain ⟨proposal', member', rfl⟩ := proposed'
  intro same
  exact apart (Block.height_eq_of_preimage_eq (admissible.words proposal member)
    (admissible.words proposal' member')
    (admissible.distinct proposal proposal' member member' same))

/-- The active blocks of a ledger after some of the calls back its state. -/
def Holds (config : LedgerConfig) (calls : List Call) (ledger : Ledger MemoryStore) : Prop :=
  Backed (Proposed calls) (.initial config.effectiveMaturity) ledger.store ledger.blocks
    ledger.state

theorem Holds.connect (admissible : Admissible config calls) {ledger : Ledger MemoryStore}
    {proposal : Proposal} (member : .connect proposal ∈ calls) (holds : Holds config calls ledger)
    (height : proposal.height = ledger.nextHeight)
    (connected : ledger.state.connect proposal.block = .ok (next, undo))
    (keeps : ∀ before tx, ¬ ledger.state.Overwrites proposal.block before tx)
    (bounded : undo.Bounded) :
    Holds config calls ⟨proposal.block :: ledger.blocks, next,
      ⟨ledger.store.records.insert proposal.block.hash (toWire undo)⟩⟩ := by
  have proposed : Proposed calls proposal.block := ⟨proposal, member, rfl⟩
  have top : proposal.block.height = ledger.blocks.length := height.trans holds.nextHeight_eq
  have coins : ledger.state.coins.FitsWith Output.Writable := by
    refine holds.writable ChainState.sound_initial CoinsView.fitsWith_empty ?_ ?_
    · rintro _ ⟨proposal, member, rfl⟩
      exact admissible.words proposal member
    · rintro _ ⟨proposal, member, rfl⟩
      exact admissible.inRange proposal member
  have log : undo.Writable :=
    ChainState.writable_of_connect (holds.sound ChainState.sound_initial) coins
      (admissible.words proposal member) (admissible.inRange proposal member) connected bounded
  have foreign : ∀ block ∈ ledger.blocks, proposal.block.hash ≠ block.hash := by
    intro block inside
    obtain ⟨proposed', below⟩ := holds.height_lt block inside
    exact admissible.hash_ne proposed proposed' (Nat.ne_of_gt (top ▸ below))
  exact .block (holds.put foreign) proposed top connected keeps bounded (get_put_self log)

theorem Holds.disconnectTip {ledger : Ledger MemoryStore} (holds : Holds config calls ledger) :
    Holds config calls (ledger.perform .disconnectTip) := by
  obtain ⟨blocks, state, store⟩ := ledger
  cases blocks with
  | nil => exact holds
  | cons block blocks =>
    obtain ⟨left, events, front, disconnected⟩ :=
      Backed.disconnectTip ChainState.sound_initial holds
    rw [perform, disconnected]
    exact front

/-- **A call keeps the state backed** by the active blocks, whether it succeeds or fails. -/
theorem Holds.perform (admissible : Admissible config calls)
    (split : calls = front ++ call :: behind)
    (holds : Holds config calls (run config front)) :
    Holds config calls (run config (front ++ [call])) := by
  rw [run_concat]
  cases call with
  | disconnectTip => exact holds.disconnectTip
  | connect proposal =>
    have member : Call.connect proposal ∈ calls :=
      split ▸ List.mem_append_right _ List.mem_cons_self
    rw [Ledger.perform]
    rcases connect_fst (run config front) proposal.block with
      same | ⟨next, undo, height, connected, after⟩
    · rw [same]
      exact holds
    · obtain ⟨keeps, bounded⟩ :=
        admissible.connects front proposal behind split next undo height connected
      rw [after]
      exact holds.connect admissible member height connected keeps bounded

/-- **After a run the active blocks back the state.** -/
theorem holds_run (admissible : Admissible config calls) :
    Holds config calls (run config calls) := by
  have through : ∀ left front, calls = front ++ left → Holds config calls (run config front) →
      Holds config calls (run config calls) := by
    intro left
    induction left with
    | nil =>
      intro front split holds
      obtain rfl : calls = front := split.trans (List.append_nil front)
      exact holds
    | cons call left ih =>
      intro front split holds
      refine ih (front ++ [call]) ?_ (holds.perform admissible split)
      rw [split, List.append_assoc]
      rfl
  exact through calls [] rfl .nothing

/-! ### What holds after a run -/

/-- The blocks of a ledger tell all about it: they have the heights from zero up, replaying them
gives the state, the store has the log of each, and the last one can be disconnected cleanly. -/
structure Consistent (config : LedgerConfig) (ledger : Ledger MemoryStore) : Prop where
  heights : ledger.blocks.reverse.map Block.height = List.range ledger.blocks.length
  replayed : (ChainState.initial config.effectiveMaturity).replay ledger.blocks.reverse =
    .ok ledger.state
  stored : ∀ front block behind, ledger.blocks.reverse = front ++ block :: behind →
    ∃ state next undo, (ChainState.initial config.effectiveMaturity).replay front = .ok state ∧
      state.connect block = .ok (next, undo) ∧ UndoStore.get ledger.store block.hash = .ok undo
  disconnects : ledger.blocks ≠ [] →
    ∃ events left, ledger.disconnectTip = .ok (some (.clean, events), left)

theorem Backed.heights (backed : Backed allowed initial store blocks state) :
    blocks.reverse.map Block.height = List.range blocks.length := by
  induction backed with
  | nothing => rfl
  | block _ _ height _ _ _ _ ih =>
    rw [List.reverse_cons, List.map_append, ih, List.length_cons, List.range_succ, ← height]
    rfl

theorem Backed.stored (backed : Backed allowed initial store blocks state) :
    ∀ front block behind, blocks.reverse = front ++ block :: behind →
      ∃ state next undo, initial.replay front = .ok state ∧
        state.connect block = .ok (next, undo) ∧ UndoStore.get store block.hash = .ok undo := by
  induction backed with
  | nothing =>
    intro front block behind split
    cases front <;> cases split
  | block before _ _ connected _ _ stored ih =>
    intro front block behind split
    rw [List.reverse_cons] at split
    rcases List.eq_nil_or_concat behind with rfl | ⟨behind, last, rfl⟩
    · obtain ⟨rfl, ⟨⟩⟩ := List.append_inj' split rfl
      exact ⟨_, _, _, before.replayed, connected, stored⟩
    · rw [List.concat_eq_append, ← List.cons_append, ← List.append_assoc] at split
      exact ih front block behind (List.append_inj' split rfl).1

/-- **After every run a ledger is consistent with its active blocks**, whatever calls led to it and
in whatever order they came. -/
theorem consistent_run (admissible : Admissible config calls) :
    Consistent config (run config calls) := by
  have holds := holds_run admissible
  refine ⟨holds.heights, holds.replayed, holds.stored, fun some => ?_⟩
  generalize run config calls = ledger at holds some
  obtain ⟨blocks, state, store⟩ := ledger
  cases blocks with
  | nil => exact (some rfl).elim
  | cons block blocks =>
    obtain ⟨left, events, -, disconnected⟩ := Backed.disconnectTip ChainState.sound_initial holds
    exact ⟨events, _, disconnected⟩

/-- The first block of a chain, which holds nothing. -/
def genesis : Proposal := ⟨.zero, 0, [], [], .zero⟩

/-- A block behind it that mints two outputs and spends one of them. -/
def minting : Proposal where
  parent := .zero
  height := 1
  transactions := [
    ⟨.filled 1, 1, true, [], [⟨50, [0x51]⟩, ⟨20, [0x52]⟩], []⟩,
    ⟨.filled 2, 1, false, [⟨.filled 1, 0⟩], [⟨45, [0x53]⟩], []⟩]
  certificates := []
  root := .zero

/-- Calls that connect a block twice, and one that is refused. -/
def detour : List Call :=
  [.connect genesis, .connect minting, .connect genesis, .disconnectTip, .connect minting]

/-- A configuration that chooses its maturity. -/
def regtest : LedgerConfig := ⟨some 1, .regtest⟩

theorem proposed_detour {proposal : Proposal} (member : .connect proposal ∈ detour) :
    proposal = genesis ∨ proposal = minting := by
  have found :
      proposal = genesis ∨ proposal = minting ∨ proposal = genesis ∨ proposal = minting := by
    simpa [detour] using member
  rcases found with rfl | rfl | rfl | rfl
  · exact .inl rfl
  · exact .inr rfl
  · exact .inl rfl
  · exact .inr rfl

theorem connects_detour {proposal : Proposal} (member : .connect proposal ∈ detour)
    (connected : (ChainState.initial 1).connect proposal.block = .ok (next, undo)) :
    (∀ before tx, ¬ (ChainState.initial 1).Overwrites proposal.block before tx) ∧
      undo.Bounded := by
  have bounded : ∀ logged : Option (ChainState × BlockUndo), (∀ found ∈ logged, found.2.Bounded) →
    logged = some (next, undo) → undo.Bounded := fun _ each same => each (next, undo) same
  have logged := congrArg Except.toOption connected
  rcases proposed_detour member with rfl | rfl
  · exact ⟨fun _ _ => ChainState.not_overwrites_of_fresh (by decide +kernel) (by decide +kernel),
      bounded _ (by decide +kernel) logged⟩
  · exact ⟨fun _ _ => ChainState.not_overwrites_of_fresh (by decide +kernel) (by decide +kernel),
      bounded _ (by decide +kernel) logged⟩

theorem admissible_detour : Admissible regtest detour where
  words proposal member := by
    rcases proposed_detour member with rfl | rfl <;> decide
  inRange proposal member := by
    rcases proposed_detour member with rfl | rfl <;> decide
  distinct first second member member' same := by
    have apart : Digest.hashText genesis.text ≠ Digest.hashText minting.text := by decide +kernel
    rcases proposed_detour member with rfl | rfl <;> rcases proposed_detour member' with rfl | rfl
    · rfl
    · exact (apart same).elim
    · exact (apart same.symm).elim
    · rfl
  connects front proposal behind split next undo height connected := by
    have member : .connect proposal ∈ detour := split ▸ List.mem_append_right _ List.mem_cons_self
    rcases front with _ | ⟨_, _ | ⟨_, _ | ⟨_, _ | ⟨_, _ | ⟨_, _⟩⟩⟩⟩⟩
    · exact connects_detour member connected
    · cases split
      exact connects_detour member connected
    · cases split
      cases height
    · cases split
    · cases split
      have back : (run regtest [.connect genesis, .connect minting, .connect genesis,
        .disconnectTip]).state = .initial 1 := by decide +kernel
      rw [back] at connected ⊢
      exact connects_detour member connected
    · have counted := congrArg List.length split
      simp only [detour, List.cons_append, List.length_cons, List.length_nil, List.length_append]
        at counted
      omega

theorem consistent_run_detour :
    Admissible regtest detour ∧ Consistent regtest (run regtest detour) :=
  ⟨admissible_detour, consistent_run admissible_detour⟩

end Ledger

end Reorg
