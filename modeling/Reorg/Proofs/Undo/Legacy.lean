/-
**Records of the legacy generation, read and upgraded.**

A legacy record is the number of its transactions, their records, and the root. The reader takes
the number in front of every record for a generation first; when it is not the marker it is the
number of transactions, and reading goes on behind it. Writing gives the current generation only:
the marker, the legacy record as it was, and a map without sidechains.

* `BlockUndo.legacyForm`: the bytes of a legacy record;
* `BlockUndo.reads_legacyForm`: it is read as the log that it stands for;
* `BlockUndo.toWire_withoutSidechains`: what that log is written as;
* `BlockUndo.legacy_upgrade`: reading, writing and reading again keep the log.
-/

import Reorg.Proofs.Undo.Wire

namespace Reorg.BlockUndo

open Decoder

variable {txUndos : List TxUndo} {root : Digest}

/-- The bytes of a legacy record: the number of its transactions, their records, and the root. -/
def legacyForm (txUndos : List TxUndo) (root : Digest) : Bytes :=
  CompactSize.write txUndos.length ++ txUndos.flatMap toWire ++ root.bytes

/-- A log that says nothing of sidechains. -/
def withoutSidechains (txUndos : List TxUndo) (root : Digest) (generation : Generation) :
    BlockUndo := ⟨txUndos, root, .empty, generation⟩

/-- **A legacy record is read exactly**: as the records and the root that it was made from. -/
theorem reads_legacyForm (short : txUndos.length ≤ CompactSize.maxLength)
    (writable : ∀ txUndo ∈ txUndos, txUndo.Writable)
    (unmarked : txUndos.length ≠ Generation.marker) :
    Reads fromWire (legacyForm txUndos root) (withoutSidechains txUndos root .legacy) := by
  have each : ∀ txUndo ∈ txUndos, Faithful txUndo := fun txUndo member =>
    TxUndo.faithful (writable txUndo member)
  have records : Reads (sequenceOf fromWire txUndos.length) (txUndos.flatMap toWire) txUndos :=
    .sequenceOf (fun txUndo member => (each txUndo member).nonempty)
      fun txUndo member => (each txUndo member).reads
  have behind : Reads (readLegacy txUndos.length) (txUndos.flatMap toWire ++ root.bytes)
      (withoutSidechains txUndos root .legacy) :=
    records.bind (faithful_digest root).reads.bind_pure
  show Reads read _ _
  rw [read, legacyForm, List.append_assoc]
  refine (CompactSize.reads_readLength short).bind ?_
  rw [Generation.ofLeading, if_neg unmarked]
  exact behind

/-- The marker as it is written. -/
theorem write_marker : CompactSize.write Generation.marker = [0xFD, 0xC1, 0xFE] := by decide

/-- **A log without sidechains is written** as the marker, the legacy record and an empty map,
whatever generation it was read from. -/
theorem toWire_withoutSidechains (generation : Generation) :
    toWire (withoutSidechains txUndos root generation) =
      [0xFD, 0xC1, 0xFE] ++ legacyForm txUndos root ++ [0] := by
  show CompactSize.write Generation.marker ++ toWire txUndos ++ toWire root ++ [0] = _
  rw [write_marker, List.append_assoc [0xFD, 0xC1, 0xFE]]
  rfl

theorem writable_withoutSidechains (short : txUndos.length ≤ CompactSize.maxLength)
    (writable : ∀ txUndo ∈ txUndos, txUndo.Writable) :
    (withoutSidechains txUndos root .current).Writable where
  current := rfl
  shortTxs := short
  txUndos := writable
  shortSidechains := Nat.zero_le _
  sidechains _ member := (List.not_mem_nil member).elim

/-- **A legacy record is read exactly and upgraded without change.** Reading it gives its log and
leaves what follows; the log is written as the same bytes between the marker and an empty map; and
these are read as the same log, of the current generation. -/
theorem legacy_upgrade (short : txUndos.length ≤ CompactSize.maxLength)
    (writable : ∀ txUndo ∈ txUndos, txUndo.Writable)
    (unmarked : txUndos.length ≠ Generation.marker) (rest : Bytes) :
    (fromWire : Decoder BlockUndo) (legacyForm txUndos root ++ rest) =
        .ok (⟨txUndos, root, .empty, .legacy⟩, rest) ∧
      toWire (⟨txUndos, root, .empty, .legacy⟩ : BlockUndo) =
        [0xFD, 0xC1, 0xFE] ++ legacyForm txUndos root ++ [0] ∧
      (fromWire : Decoder BlockUndo)
          ([0xFD, 0xC1, 0xFE] ++ legacyForm txUndos root ++ [0] ++ rest) =
        .ok (⟨txUndos, root, .empty, .current⟩, rest) := by
  refine ⟨reads_legacyForm short writable unmarked rest, toWire_withoutSidechains .legacy, ?_⟩
  rw [← toWire_withoutSidechains .current]
  exact (faithful (writable_withoutSidechains short writable)).reads rest

theorem legacy_upgrade_mixed :
    (mixed.txUndos.length ≤ CompactSize.maxLength ∧ (∀ txUndo ∈ mixed.txUndos, txUndo.Writable) ∧
      mixed.txUndos.length ≠ Generation.marker) ∧
    (fromWire : Decoder BlockUndo) (legacyForm mixed.txUndos .zero ++ [1, 2, 3]) =
        .ok (⟨mixed.txUndos, .zero, .empty, .legacy⟩, [1, 2, 3]) ∧
      toWire (⟨mixed.txUndos, .zero, .empty, .legacy⟩ : BlockUndo) =
        [0xFD, 0xC1, 0xFE] ++ legacyForm mixed.txUndos .zero ++ [0] ∧
      (fromWire : Decoder BlockUndo)
          ([0xFD, 0xC1, 0xFE] ++ legacyForm mixed.txUndos .zero ++ [0] ++ [1, 2, 3]) =
        .ok (⟨mixed.txUndos, .zero, .empty, .current⟩, [1, 2, 3]) :=
  have short : mixed.txUndos.length ≤ CompactSize.maxLength := by decide
  have writable : ∀ txUndo ∈ mixed.txUndos, txUndo.Writable := by decide +kernel
  have unmarked : mixed.txUndos.length ≠ Generation.marker := by decide
  ⟨⟨short, writable, unmarked⟩, legacy_upgrade short writable unmarked [1, 2, 3]⟩

end Reorg.BlockUndo
