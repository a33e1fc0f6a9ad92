/-
**Logs as the wire carries them.**

An amount that was never checked may be negative or larger than all the money, and then its packed
form may not fit the word that the wire has for it. Such a log is read back with other amounts and
is otherwise the same. So a log is read back as it was written exactly when the packed forms of its
amounts fit and nothing in it is too long; the latter is so of every log that was read.

* `BlockUndo.carried`: the log that is read back;
* `BlockUndo.ofWire_toWire`: it is;
* `BlockUndo.yields_read`: what was read has bounds;
* `BlockUndo.ofWire_toWire_eq_ok_iff`: when a log is read back as it was written.
-/

import Reorg.Proofs.Undo.Wire
import Reorg.Proofs.Wire.Yields

namespace Reorg

open Decoder

/-- The script is not too long to be spent. -/
def Output.Short (output : Output) : Prop := output.script.length ≤ Script.maxSize

/-! ### What is read back -/

theorem map_eq_self_iff {α : Type} {change : α → α} {values : List α} :
    values.map change = values ↔ ∀ value ∈ values, change value = value := by
  have same : values.map id = values := List.map_id values
  exact (iff_of_eq (congrArg (values.map change = ·) same.symm)).trans List.map_inj_left

namespace OutputUndo

variable {undo : OutputUndo}

/-- The record of an output as the wire carries it. -/
def carried (undo : OutputUndo) : OutputUndo := { undo with output := undo.output.carried }

theorem reads_carried (fits : undo.FitsWith Output.Short) :
    Reads read (toWire undo) undo.carried :=
  reads_with fits.height fits.version (Output.reads_carried fits.output)

theorem carried_eq_self_iff : undo.carried = undo ↔ undo.output.value.Packs := by
  obtain ⟨⟨value, script⟩, coinbase, height, version⟩ := undo
  rw [← Amount.carried_eq_self_iff]
  simp [carried, Output.carried]

end OutputUndo

namespace TxUndo

variable {undo : TxUndo}

/-- The record of a transaction as the wire carries it. -/
def carried (undo : TxUndo) : TxUndo := ⟨undo.prevouts.map OutputUndo.carried⟩

theorem reads_carried (short : undo.prevouts.length ≤ CompactSize.maxLength)
    (fits : ∀ prevout ∈ undo.prevouts, prevout.FitsWith Output.Short) :
    Reads read (toWire undo) undo.carried := by
  have list : Reads fromWire (toWire undo.prevouts) (undo.prevouts.map OutputUndo.carried) :=
    reads_list short (fun _ _ => OutputUndo.toWire_pos)
      fun prevout member => OutputUndo.reads_carried (fits prevout member)
  exact list.bind_pure

theorem carried_eq_self_iff :
    undo.carried = undo ↔ ∀ prevout ∈ undo.prevouts, prevout.output.value.Packs := by
  simp only [← OutputUndo.carried_eq_self_iff]
  obtain ⟨prevouts⟩ := undo
  rw [carried, TxUndo.mk.injEq]
  exact map_eq_self_iff

end TxUndo

namespace BlockUndo

variable {undo : BlockUndo}

/-- The log as the wire carries it. -/
def carried (undo : BlockUndo) : BlockUndo :=
  { undo with txUndos := undo.txUndos.map TxUndo.carried }

/-- **A log is read as the wire carries it.** -/
theorem ofWire_toWire (current : undo.generation = .current) (bounded : undo.Bounded)
    (fits : ∀ txUndo ∈ undo.txUndos, ∀ prevout ∈ txUndo.prevouts,
      prevout.FitsWith Output.Short) : ofWire BlockUndo (toWire undo) = .ok undo.carried := by
  obtain ⟨txUndos, root, sidechains, _⟩ := undo
  obtain rfl := current
  have txs : Reads fromWire (toWire txUndos) (txUndos.map TxUndo.carried) :=
    reads_list bounded.shortTxs (fun _ _ => toWire_list_pos) fun txUndo member =>
      TxUndo.reads_carried (bounded.shortPrevouts txUndo member) (fits txUndo member)
  have records : Faithful sidechains := faithful_map bounded.shortSidechains fun entry member =>
    ⟨faithful_digest entry.1, SidechainUndo.faithful (bounded.words entry member)⟩
  exact (reads_of_fields txs records.reads).whole

theorem carried_eq_self_iff : undo.carried = undo ↔
    ∀ txUndo ∈ undo.txUndos, ∀ prevout ∈ txUndo.prevouts, prevout.output.value.Packs := by
  simp only [← TxUndo.carried_eq_self_iff]
  obtain ⟨txUndos, root, sidechains, generation⟩ := undo
  simp only [carried, BlockUndo.mk.injEq, and_true]
  exact map_eq_self_iff

end BlockUndo

/-! ### What was read -/

theorem SidechainUndo.yields_read : Yields read SidechainUndo.Writable := by
  unfold SidechainUndo.read
  refine .last fun matured => .last fun epoch => .pure ⟨?_, ?_⟩
  · dsimp only
    exact int64_of_ofWord matured
  · dsimp only
    exact int32_of_ofWord epoch

theorem TxUndo.yields_read :
    Yields read fun undo => undo.prevouts.length ≤ CompactSize.maxLength := by
  have any : Yields (fromWire : Decoder OutputUndo) fun _ => True := .of_forall fun _ => trivial
  exact (yields_list any).bind fun prevouts all => .pure all.1

namespace BlockUndo

variable {undo : BlockUndo}

/-- **A log that was read** has bounds, whatever its generation. -/
theorem yields_read : Yields read BlockUndo.Bounded := by
  refine yields_readLength.bind fun leading fits => ?_
  cases Generation.ofLeading leading with
  | current =>
    show Yields readCurrent _
    refine (yields_list TxUndo.yields_read).bind fun txUndos txs => .last fun root => ?_
    refine (yields_map SidechainUndo.yields_read).bind fun sidechains records => ?_
    exact .pure ⟨txs.1, txs.2, records.1, records.2⟩
  | legacy =>
    show Yields (readLegacy leading) _
    refine (Yields.sequenceOf TxUndo.yields_read).bind fun txUndos txs => ?_
    refine .last fun root => .pure ⟨txs.1 ▸ fits, txs.2, Nat.zero_le _, ?_⟩
    exact fun _ member => (List.not_mem_nil member).elim

/-- **When a log is read back as it was written**: nothing in it is too long, what it says of
sidechains fits its words, and the packed forms of its amounts do. -/
theorem ofWire_toWire_eq_ok_iff (current : undo.generation = .current)
    (fits : ∀ txUndo ∈ undo.txUndos, ∀ prevout ∈ txUndo.prevouts,
      prevout.FitsWith Output.Short) :
    ofWire BlockUndo (toWire undo) = .ok undo ↔ undo.Bounded ∧
      ∀ txUndo ∈ undo.txUndos, ∀ prevout ∈ txUndo.prevouts, prevout.output.value.Packs := by
  rw [← carried_eq_self_iff]
  constructor
  · intro same
    have bounded : undo.Bounded := yields_read _ undo [] (whole_eq_ok_iff.mp same)
    have back := ofWire_toWire current bounded fits
    exact ⟨bounded, Except.ok.inj (back.symm.trans same)⟩
  · rintro ⟨bounded, unchanged⟩
    rw [ofWire_toWire current bounded fits, unchanged]

end BlockUndo

end Reorg
