/-
**Laws of all types with a wire form.**

The types with a wire form are words, digests and the records of undo logs, and lists and maps of
such types. Two laws hold of all of them, without a condition on the values: the size of a value is
the number of its bytes, and a reader sees where a value ends. Each law is an induction over the
types, with one case for each kind of type.

* `WireType`: the types;
* `WireType.wireSize_exact`: the size of a value is the number of its bytes;
* `WireType.self_delimiting`: records that were cut short or continued are refused.
-/

import Reorg.Proofs.Undo.Legacy
import Reorg.Proofs.Undo.Upgrade
import Reorg.Proofs.Wire.Delimited
import Reorg.Proofs.Wire.Sizes

namespace Reorg

open Decoder

/-- The types with a wire form. -/
inductive WireType : (α : Type) → [ToWire α] → [FromWire α] → Prop
  | byte : WireType UInt8
  | word32 : WireType UInt32
  | int32 : WireType Int32
  | int64 : WireType Int64
  | digest : WireType Digest
  | output : WireType Output
  | outputUndo : WireType OutputUndo
  | txUndo : WireType TxUndo
  | sidechainUndo : WireType SidechainUndo
  | blockUndo : WireType BlockUndo
  | list {α : Type} [ToWire α] [FromWire α] (entry : WireType α) : WireType (List α)
  | map {κ υ : Type} [Ord κ] [Std.TransOrd κ] [Std.LawfulEqOrd κ] [ToWire κ] [FromWire κ] [ToWire υ]
      [FromWire υ] (key : WireType κ) (value : WireType υ) : WireType (OrderedMap κ υ)

/-! ### Sizes -/

theorem sized_output : Sized Output := by
  intro output
  show VarInt.size output.packedValue + Script.writtenSize output.script =
    (VarInt.write output.packedValue ++ Script.write output.script).length
  rw [List.length_append, VarInt.length_write, Script.length_write]

/-- The record of an output has the version in its bytes and in its size in the same cases. -/
theorem sized_outputUndo : Sized OutputUndo := by
  intro undo
  show VarInt.size undo.code + (if undo.hasMetadata then VarInt.size undo.versionWord else 0) +
      wireSize undo.output =
    (VarInt.write undo.code ++ (if undo.hasMetadata then VarInt.write undo.versionWord else []) ++
      toWire undo.output).length
  rw [List.length_append, List.length_append, VarInt.length_write, sized_output undo.output]
  cases undo.hasMetadata with
  | false => rfl
  | true => rw [if_pos rfl, if_pos rfl, VarInt.length_write]

theorem sized_txUndo : Sized TxUndo := fun undo => sized_outputUndo.list undo.prevouts

theorem sized_digest : Sized Digest := fun digest => digest.length_bytes.symm

theorem sized_sidechainUndo : Sized SidechainUndo := by
  intro undo
  show 12 = (littleEndian 8 (toWord UInt64.size undo.matured) ++
    littleEndian 4 (toWord UInt32.size undo.priorEpoch)).length
  rw [List.length_append, littleEndian_length, littleEndian_length]

theorem sized_blockUndo : Sized BlockUndo := by
  intro undo
  show CompactSize.size Generation.marker + wireSize undo.txUndos + wireSize undo.priorRoot +
      wireSize undo.sidechains =
    (CompactSize.write Generation.marker ++ toWire undo.txUndos ++ toWire undo.priorRoot ++
      toWire undo.sidechains).length
  rw [List.length_append, List.length_append, List.length_append, CompactSize.length_write,
    sized_txUndo.list, sized_digest, sized_digest.map sized_sidechainUndo]

theorem WireType.sized {α : Type} [ToWire α] [FromWire α] (type : WireType α) : Sized α := by
  induction type with
  | byte => exact fun _ => rfl
  | word32 => exact fun _ => (littleEndian_length _ _).symm
  | int32 => exact fun _ => (littleEndian_length _ _).symm
  | int64 => exact fun _ => (littleEndian_length _ _).symm
  | digest => exact sized_digest
  | output => exact sized_output
  | outputUndo => exact sized_outputUndo
  | txUndo => exact sized_txUndo
  | sidechainUndo => exact sized_sidechainUndo
  | blockUndo => exact sized_blockUndo
  | list _ ih => exact ih.list
  | map _ _ keys values => exact keys.map values

/-- **The size of a value is the number of its bytes**, for every type with a wire form and every
value. The size of a log that was read from a legacy record is that of the log of the current
generation. -/
theorem WireType.wireSize_exact :
    (∀ {α : Type} [ToWire α] [FromWire α], WireType α → ∀ value : α,
      wireSize value = (toWire value).length) ∧
    ∀ record undo, ofWire BlockUndo record = .ok undo →
      wireSize undo = (toWire undo.upgraded).length :=
  ⟨fun type => type.sized, fun _ undo _ => sized_blockUndo undo.upgraded⟩

/-- A map of logs that are written in any generation: the size does not ask whether a log can be
read back, so its version may be lost and its amounts may be negative. -/
def unreadable : OrderedMap Digest (List BlockUndo) :=
  .ofList [(.zero, [⟨[⟨[⟨⟨-1, 65 :: 4 :: List.replicate 65 0xac⟩, true, 0, 7⟩]⟩], .zero, .empty,
    .legacy⟩, BlockUndo.mixed])]

theorem WireType.wireSize_exact_unreadable :
    WireType (OrderedMap Digest (List BlockUndo)) ∧
    wireSize unreadable = (toWire unreadable).length ∧
    ofWire BlockUndo (BlockUndo.legacyForm BlockUndo.mixed.txUndos .zero) =
      .ok (BlockUndo.withoutSidechains BlockUndo.mixed.txUndos .zero .legacy) ∧
    wireSize (BlockUndo.withoutSidechains BlockUndo.mixed.txUndos .zero .legacy) =
      (toWire (BlockUndo.withoutSidechains BlockUndo.mixed.txUndos .zero .current)).length := by
  have type : WireType (OrderedMap Digest (List BlockUndo)) := .map .digest (.list .blockUndo)
  have reads : Reads fromWire (BlockUndo.legacyForm BlockUndo.mixed.txUndos .zero)
      (BlockUndo.withoutSidechains BlockUndo.mixed.txUndos .zero .legacy) :=
    BlockUndo.reads_legacyForm (by decide) (by decide +kernel) (by decide)
  have read := reads.whole
  exact ⟨type, WireType.wireSize_exact.1 type unreadable, read,
    WireType.wireSize_exact.2 _ _ read⟩

/-! ### Ends -/

theorem delimits_digest : Delimits (fromWire : Decoder Digest) := by
  refine takes_digest.mono ?_
  rintro digest _ rfl
  exact ⟨(faithful_digest digest).nonempty, (faithful_digest digest).reads⟩

theorem delimits_output : Delimits (fromWire : Decoder Output) := by
  refine Output.takes_read.mono ?_
  rintro _ _ ⟨spelling, rfl, rfl⟩
  refine ⟨?_, spelling.reads⟩
  rw [Output.Spelling.bytes, List.length_append]
  exact Nat.add_pos_left (VarInt.write_pos _) _

theorem delimits_outputUndo : Delimits (fromWire : Decoder OutputUndo) := by
  refine OutputUndo.takes_read.mono ?_
  rintro _ _ ⟨spelling, rfl, rfl⟩
  exact ⟨spelling.bytes_pos, spelling.reads⟩

theorem delimits_txUndo : Delimits (fromWire : Decoder TxUndo) := delimits_outputUndo.list.map

theorem delimits_sidechainUndo : Delimits (fromWire : Decoder SidechainUndo) := by
  refine SidechainUndo.takes_read.mono ?_
  rintro undo _ ⟨writable, rfl⟩
  exact ⟨(SidechainUndo.faithful writable).nonempty, (SidechainUndo.faithful writable).reads⟩

/-- The first number is taken whatever the generation, and each generation sees where it ends. -/
theorem delimits_blockUndo : Delimits (fromWire : Decoder BlockUndo) := by
  show Delimits BlockUndo.read
  refine delimits_readLength.bind fun leading => ?_
  have root := delimits_digest.settled
  cases Generation.ofLeading leading with
  | current =>
    have sidechains : Settled (fromWire : Decoder (OrderedMap SidechainId SidechainUndo)) :=
      (delimits_digest.orderedMap delimits_sidechainUndo).settled
    show Settled BlockUndo.readCurrent
    exact delimits_txUndo.list.settled.bind fun _ => root.bind fun _ => sidechains.bind fun _ =>
      .pure _
  | legacy =>
    show Settled (BlockUndo.readLegacy leading)
    exact delimits_txUndo.sequenceOf.bind fun _ => root.bind fun _ => .pure _

theorem WireType.delimits {α : Type} [ToWire α] [FromWire α] (type : WireType α) :
    Delimits (fromWire : Decoder α) := by
  induction type with
  | byte => exact delimits_byte
  | word32 => exact (delimits_word (by decide)).map
  | int32 => exact (delimits_word (by decide)).map
  | int64 => exact (delimits_word (by decide)).map
  | digest => exact delimits_digest
  | output => exact delimits_output
  | outputUndo => exact delimits_outputUndo
  | txUndo => exact delimits_txUndo
  | sidechainUndo => exact delimits_sidechainUndo
  | blockUndo => exact delimits_blockUndo
  | list _ ih => exact ih.list
  | map _ _ keys values => exact keys.orderedMap values

/-- **Records say where they end.** For every type with a wire form: what is left of an input is a
part behind its first byte, and a longer input gives the same value and leaves what is put behind.
So a record that was cut short is refused, and so is one with bytes behind it, with their number. -/
theorem WireType.self_delimiting {α : Type} [ToWire α] [FromWire α] (type : WireType α) :
    (∀ input rest, ∀ value : α, (fromWire : Decoder α) input = .ok (value, rest) →
      (rest <:+ input ∧ rest ≠ input) ∧
        ∀ more, (fromWire : Decoder α) (input ++ more) = .ok (value, rest ++ more)) ∧
    ∀ record, ∀ value : α, ofWire α record = .ok value →
      (∀ cut, cut <+: record → cut ≠ record → ∃ problem, ofWire α cut = .error problem) ∧
        ∀ more, more ≠ [] → ofWire α (record ++ more) = .error (.trailingBytes more.length) := by
  have delimits := type.delimits
  refine ⟨fun input rest value accepted => ⟨delimits.suffix accepted, delimits.append accepted⟩, ?_⟩
  intro record value accepted
  exact ⟨fun cut front short => delimits.whole_cut accepted front short,
    fun more some => delimits.whole_append accepted some⟩

theorem WireType.self_delimiting_mixed :
    (WireType BlockUndo ∧ ofWire BlockUndo (toWire BlockUndo.mixed) = .ok BlockUndo.mixed) ∧
    (∃ problem, ofWire BlockUndo ((toWire BlockUndo.mixed).take 9) = .error problem) ∧
    ofWire BlockUndo (toWire BlockUndo.mixed ++ [1, 2, 3]) = .error (.trailingBytes 3) := by
  have writable : BlockUndo.mixed.Writable := by decide +kernel
  have accepted := (BlockUndo.faithful writable).ofWire
  obtain ⟨cut, continued⟩ := (WireType.self_delimiting .blockUndo).2 _ _ accepted
  refine ⟨⟨.blockUndo, accepted⟩, cut _ (List.take_prefix 9 _) (by decide +kernel), ?_⟩
  exact continued [1, 2, 3] (by decide)

end Reorg
