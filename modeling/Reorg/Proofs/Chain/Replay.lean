/-
**Chains of blocks, replayed.**

Replaying connects blocks one after the other; it succeeds when each of them connects. What a chain
has come to is said of a replay, and proved from its first block on or from its last one back.

* `ChainState.replay`: the state that blocks lead to;
* `ChainState.replay_cons_eq_ok_iff`, `replay_concat_eq_ok_iff`: the first block and the last one.
-/

import Reorg.Proofs.Chain.Connect

namespace Reorg

open Fallible

/-- The state that blocks lead to, the first one first. -/
def ChainState.replay [Arithmetic] (state : ChainState) (blocks : List Block) :
    Except ChainError ChainState :=
  blocks.foldlM (fun state block => do return (← state.connect block).1) state

namespace ChainState

variable {state final : ChainState} {block : Block} {blocks : List Block}

section

variable [Arithmetic]

theorem replay_cons_eq_ok_iff : state.replay (block :: blocks) = .ok final ↔
    ∃ next undo, state.connect block = .ok (next, undo) ∧ next.replay blocks = .ok final := by
  rw [replay, List.foldlM_cons, bind_eq_ok_iff]
  constructor
  · rintro ⟨_, first, rest⟩
    obtain ⟨⟨next, undo⟩, connected, ⟨⟩⟩ := bind_eq_ok_iff.mp first
    exact ⟨next, undo, connected, rest⟩
  · rintro ⟨next, undo, connected, rest⟩
    exact ⟨next, bind_eq_ok_iff.mpr ⟨(next, undo), connected, rfl⟩, rest⟩

theorem replay_append_eq_ok_iff {back : List Block} : state.replay (blocks ++ back) = .ok final ↔
    ∃ between, state.replay blocks = .ok between ∧ between.replay back = .ok final := by
  rw [replay, List.foldlM_append, bind_eq_ok_iff]
  rfl

theorem replay_concat_eq_ok_iff : state.replay (blocks ++ [block]) = .ok final ↔
    ∃ before undo, state.replay blocks = .ok before ∧ before.connect block = .ok (final, undo) := by
  rw [replay_append_eq_ok_iff]
  refine exists_congr fun before => ?_
  rw [replay_cons_eq_ok_iff, ← exists_and_left]
  constructor
  · rintro ⟨_, front, undo, connected, ⟨⟩⟩
    exact ⟨undo, front, connected⟩
  · rintro ⟨undo, front, connected⟩
    exact ⟨final, front, undo, connected, rfl⟩

end

/-- Blocks lead from a sound state to a sound one. -/
theorem Sound.replay (sound : state.Sound) (replayed : state.replay blocks = .ok final) :
    final.Sound := by
  induction blocks generalizing state with
  | nil =>
    cases replayed
    exact sound
  | cons block blocks ih =>
    obtain ⟨next, undo, connected, rest⟩ := replay_cons_eq_ok_iff.mp replayed
    exact ih (sound.connect connected) rest

end ChainState

end Reorg
