/-
**Undo logs on the wire.**

A log is read back as it was written when each of its records can be: amounts in range, scripts that
can be spent, numbers that fit their words, a version only where there is a height, and lengths that
may be declared. What each kind of record needs is a predicate of its own, and each record is
faithful because its fields are.

* `Output.Writable`, `OutputUndo.Writable`, `SidechainUndo.Writable`, `BlockUndo.Writable`: what may
  be written;
* `Output.faithful`, `OutputUndo.faithful`, `SidechainUndo.faithful`: records are read back;
* `BlockUndo.read_toWire`: a log is read back, whatever follows it.
-/

import Reorg.Proofs.Amount
import Reorg.Proofs.Script.Wire
import Reorg.Proofs.Wire.Codec
import Reorg.Undo.Block

namespace Reorg

open Decoder

/-! ### Outputs -/

namespace Output

variable {output : Output}

/-- The amount is in range, and the script is not too long to be spent. -/
structure Writable (output : Output) : Prop where
  value : output.value.inRange = true
  script : output.script.length ≤ Script.maxSize

instance : Decidable output.Writable :=
  decidable_of_iff (output.value.inRange = true ∧ output.script.length ≤ Script.maxSize)
    ⟨fun both => ⟨both.1, both.2⟩, fun writable => ⟨writable.value, writable.script⟩⟩

/-- The output as its wire form gives it back: the wire carries its amount as a packed word. -/
def carried (output : Output) : Output := { output with value := output.value.carried }

theorem toWire_pos : 0 < (toWire output).length := by
  show 0 < (VarInt.write output.packedValue ++ _).length
  rw [List.length_append]
  exact Nat.add_pos_left (VarInt.write_pos _) _

/-- **An output is read as the wire carries it**, when its script is not too long to be spent. -/
theorem reads_carried (short : output.script.length ≤ Script.maxSize) :
    Reads read (toWire output) output.carried := by
  have packed : Reads VarInt.read (VarInt.write output.packedValue) output.packedValue :=
    VarInt.reads_read (Amount.packWord_lt _)
  show Reads read (VarInt.write output.packedValue ++ Script.write output.script) output.carried
  rw [read]
  exact packed.bind (Script.reads_read short).bind_pure

theorem faithful (writable : output.Writable) : Faithful output where
  nonempty := toWire_pos
  reads := by
    have same : output.carried = output := by
      rw [carried, Amount.carried_eq_self_iff.mpr (Amount.packs_of_inRange writable.value)]
    have reads := reads_carried writable.script
    rwa [same] at reads

end Output

/-! ### Records of outputs and transactions -/

namespace OutputUndo

variable {undo : OutputUndo}

/-- The output may be written, the height fits its word, and without one there is no version. -/
structure Writable (undo : OutputUndo) : Prop where
  output : undo.output.Writable
  height : undo.height < UInt32.size
  version : 0 < undo.height ∨ undo.version = 0

/-- The output is of some kind, the height fits its word, and without one there is no version. -/
structure FitsWith (kind : Output → Prop) (undo : OutputUndo) : Prop where
  output : kind undo.output
  height : undo.height < UInt32.size
  version : 0 < undo.height ∨ undo.version = 0

theorem FitsWith.writable (fits : undo.FitsWith Output.Writable) : undo.Writable :=
  ⟨fits.output, fits.height, fits.version⟩

instance : Decidable undo.Writable :=
  decidable_of_iff (undo.output.Writable ∧ undo.height < UInt32.size ∧
      (0 < undo.height ∨ undo.version = 0))
    ⟨fun all => ⟨all.1, all.2.1, all.2.2⟩,
      fun writable => ⟨writable.output, writable.height, writable.version⟩⟩

theorem reads_readCode (fits : undo.height < UInt32.size) :
    Reads readCode (VarInt.write undo.code) (undo.height, undo.coinbase) := by
  have flag : undo.coinbase.toNat < 2 := Bool.toNat_lt undo.coinbase
  have word : undo.code < UInt64.size := by
    have room : 2 * UInt32.size < UInt64.size := by decide
    rw [code]
    omega
  have height : undo.code / 2 = undo.height := by
    rw [code]
    omega
  have coinbase : (undo.code % 2 == 1) = undo.coinbase := by
    have lowest : undo.code % 2 = undo.coinbase.toNat := by
      rw [code]
      omega
    rw [lowest]
    cases undo.coinbase <;> rfl
  intro rest
  show (VarInt.read _).bind _ = _
  rw [VarInt.reads_read word rest]
  show (if undo.code / 2 < UInt32.size then pure (undo.code / 2, undo.code % 2 == 1)
    else throw _ : Decoder (Nat × Bool)) rest = _
  rw [height, coinbase, if_pos fits]
  rfl

theorem reads_readVersion : Reads readVersion (VarInt.write undo.versionWord) undo.version := by
  have fits : undo.versionWord < UInt32.size := undo.version.toUInt32.toNat_lt
  have same : (UInt32.ofNat undo.versionWord).toInt32 = undo.version :=
    congrArg UInt32.toInt32 UInt32.ofNat_toNat
  have reads : Reads readVersion (VarInt.write undo.versionWord)
    (UInt32.ofNat undo.versionWord).toInt32 := (VarInt.reads_readWord32 fits).bind_pure
  exact same ▸ reads

theorem toWire_pos : 0 < (toWire undo).length := by
  show 0 < (VarInt.write undo.code ++ _ ++ _).length
  rw [List.length_append, List.length_append]
  exact Nat.add_pos_left (Nat.add_pos_left (VarInt.write_pos _) _) _

/-- A record is read as its output is; where there is no height, no version was written. -/
theorem reads_with {output : Output} (height : undo.height < UInt32.size)
    (version : 0 < undo.height ∨ undo.version = 0)
    (reads : Reads Output.read (toWire undo.output) output) :
    Reads read (toWire undo) { undo with output } := by
  show Reads read (VarInt.write undo.code ++
    (if undo.hasMetadata then VarInt.write undo.versionWord else []) ++ toWire undo.output) _
  rw [read, List.append_assoc]
  refine (reads_readCode height).bind ?_
  show Reads (if 0 < undo.height then _ else _) _ _
  by_cases above : 0 < undo.height
  · rw [hasMetadata, if_pos above, if_pos (decide_eq_true above)]
    refine reads_readVersion.bind ?_
    exact reads.bind_pure
  · have none := version.resolve_left above
    rw [hasMetadata, if_neg above, if_neg (by simp [above])]
    refine (Reads.pure 0).bind ?_
    rw [← none]
    exact reads.bind_pure

/-- **The record of an output is read back.** -/
theorem faithful (writable : undo.Writable) : Faithful undo where
  nonempty := toWire_pos
  reads := reads_with writable.height writable.version (Output.faithful writable.output).reads

end OutputUndo

namespace TxUndo

variable {undo : TxUndo}

/-- There are not too many records, and each of them may be written. -/
structure Writable (undo : TxUndo) : Prop where
  short : undo.prevouts.length ≤ CompactSize.maxLength
  prevouts : ∀ prevout ∈ undo.prevouts, prevout.Writable

instance : Decidable undo.Writable :=
  decidable_of_iff (undo.prevouts.length ≤ CompactSize.maxLength ∧
      ∀ prevout ∈ undo.prevouts, prevout.Writable)
    ⟨fun both => ⟨both.1, both.2⟩, fun writable => ⟨writable.short, writable.prevouts⟩⟩

theorem faithful (writable : undo.Writable) : Faithful undo := by
  have list : Faithful undo.prevouts := faithful_list writable.short fun prevout member =>
    OutputUndo.faithful (writable.prevouts prevout member)
  exact ⟨list.nonempty, list.reads.bind_pure⟩

end TxUndo

/-! ### Records of sidechains -/

namespace SidechainUndo

variable {undo : SidechainUndo}

/-- The amount and the epoch fit their words. -/
structure Writable (undo : SidechainUndo) : Prop where
  matured : Int64.minValue.toInt ≤ undo.matured ∧ undo.matured ≤ Int64.maxValue.toInt
  epoch : Int32.minValue.toInt ≤ undo.priorEpoch ∧ undo.priorEpoch ≤ Int32.maxValue.toInt

instance : Decidable undo.Writable :=
  decidable_of_iff ((Int64.minValue.toInt ≤ undo.matured ∧ undo.matured ≤ Int64.maxValue.toInt) ∧
      Int32.minValue.toInt ≤ undo.priorEpoch ∧ undo.priorEpoch ≤ Int32.maxValue.toInt)
    ⟨fun both => ⟨both.1, both.2⟩, fun writable => ⟨writable.matured, writable.epoch⟩⟩

theorem faithful (writable : undo.Writable) : Faithful undo where
  nonempty := by
    show 0 < (littleEndian 8 _ ++ littleEndian 4 _).length
    rw [List.length_append, littleEndian_length]
    exact Nat.add_pos_left (by decide) _
  reads := by
    obtain ⟨fits, lowEpoch, highEpoch⟩ := writable
    have matured : ofWord UInt64.size (toWord UInt64.size undo.matured) = undo.matured :=
      ofWord_toWord_int64 fits
    have epoch : ofWord UInt32.size (toWord UInt32.size undo.priorEpoch) = undo.priorEpoch :=
      ofWord_toWord (by decide) (Int.mul_le_mul_of_nonneg_left lowEpoch (by decide))
        (Int.lt_of_le_of_lt (Int.mul_le_mul_of_nonneg_left highEpoch (by decide)) (by decide))
    have first : Reads (Decoder.word 8) (littleEndian 8 (toWord UInt64.size undo.matured))
      (toWord UInt64.size undo.matured) := .word (toWord_lt (by decide))
    have second : Reads (Decoder.word 4) (littleEndian 4 (toWord UInt32.size undo.priorEpoch))
      (toWord UInt32.size undo.priorEpoch) := .word (toWord_lt (by decide))
    show Reads read (littleEndian 8 _ ++ littleEndian 4 _) undo
    rw [read]
    refine first.bind ?_
    rw [matured]
    have whole : Reads (Decoder.word 4 >>= fun word => pure ⟨undo.matured, ofWord UInt32.size word⟩)
      (littleEndian 4 (toWord UInt32.size undo.priorEpoch))
      (⟨undo.matured, ofWord UInt32.size (toWord UInt32.size undo.priorEpoch)⟩ : SidechainUndo) :=
        second.bind_pure
    rw [epoch] at whole
    exact whole

end SidechainUndo

/-! ### Logs -/

namespace BlockUndo

variable {undo : BlockUndo}

/-- The log is of the current generation, nothing in it is too long, and each record may be
written. -/
structure Writable (undo : BlockUndo) : Prop where
  current : undo.generation = .current
  shortTxs : undo.txUndos.length ≤ CompactSize.maxLength
  txUndos : ∀ txUndo ∈ undo.txUndos, txUndo.Writable
  shortSidechains : undo.sidechains.size ≤ CompactSize.maxLength
  sidechains : ∀ entry ∈ undo.sidechains.entries, entry.2.Writable

instance : Decidable undo.Writable :=
  decidable_of_iff (undo.generation = .current ∧
      (undo.txUndos.length ≤ CompactSize.maxLength ∧ ∀ txUndo ∈ undo.txUndos, txUndo.Writable) ∧
        undo.sidechains.size ≤ CompactSize.maxLength ∧
          ∀ entry ∈ undo.sidechains.entries, entry.2.Writable)
    ⟨fun all => ⟨all.1, all.2.1.1, all.2.1.2, all.2.2.1, all.2.2.2⟩,
      fun writable => ⟨writable.current, ⟨writable.shortTxs, writable.txUndos⟩,
        writable.shortSidechains, writable.sidechains⟩⟩

/-- Nothing in a log is too long to be declared, and what it says of sidechains fits its words. -/
structure Bounded (undo : BlockUndo) : Prop where
  shortTxs : undo.txUndos.length ≤ CompactSize.maxLength
  shortPrevouts : ∀ txUndo ∈ undo.txUndos, txUndo.prevouts.length ≤ CompactSize.maxLength
  shortSidechains : undo.sidechains.size ≤ CompactSize.maxLength
  words : ∀ entry ∈ undo.sidechains.entries, entry.2.Writable

instance {undo : BlockUndo} : Decidable undo.Bounded :=
  decidable_of_iff ((undo.txUndos.length ≤ CompactSize.maxLength ∧
      ∀ txUndo ∈ undo.txUndos, txUndo.prevouts.length ≤ CompactSize.maxLength) ∧
        undo.sidechains.size ≤ CompactSize.maxLength ∧
          ∀ entry ∈ undo.sidechains.entries, entry.2.Writable)
    ⟨fun all => ⟨all.1.1, all.1.2, all.2.1, all.2.2⟩,
      fun bounded => ⟨⟨bounded.shortTxs, bounded.shortPrevouts⟩, bounded.shortSidechains,
        bounded.words⟩⟩

/-- A log of the current generation is read as its transactions and its sidechains are. -/
theorem reads_of_fields {txUndos txUndos' : List TxUndo} {root : Digest}
    {sidechains sidechains' : OrderedMap SidechainId SidechainUndo}
    (txs : Reads fromWire (toWire txUndos) txUndos')
    (records : Reads fromWire (toWire sidechains) sidechains') :
    Reads read (toWire (⟨txUndos, root, sidechains, .current⟩ : BlockUndo))
      ⟨txUndos', root, sidechains', .current⟩ := by
  have marked : Reads CompactSize.readLength (CompactSize.write Generation.marker)
    Generation.marker := CompactSize.reads_readLength (by decide)
  show Reads read (CompactSize.write Generation.marker ++ toWire txUndos ++ toWire root ++
    toWire sidechains) _
  rw [read, List.append_assoc, List.append_assoc]
  refine marked.bind ?_
  show Reads readCurrent _ _
  exact txs.bind ((faithful_digest root).reads.bind records.bind_pure)

theorem faithful (writable : undo.Writable) : Faithful undo where
  nonempty := by
    show 0 < (CompactSize.write Generation.marker ++ _ ++ _ ++ _).length
    rw [List.append_assoc, List.append_assoc, List.length_append]
    exact Nat.add_pos_left (CompactSize.write_pos _) _
  reads := by
    obtain ⟨txUndos, root, sidechains, _⟩ := undo
    obtain rfl := writable.current
    have txs : Faithful txUndos := faithful_list writable.shortTxs fun txUndo member =>
      TxUndo.faithful (writable.txUndos txUndo member)
    have records : Faithful sidechains := faithful_map writable.shortSidechains fun entry member =>
      ⟨faithful_digest entry.1, SidechainUndo.faithful (writable.sidechains entry member)⟩
    exact reads_of_fields txs.reads records.reads

/-- **A log is read back** as it was written, whatever follows it, and from its own bytes alone. -/
theorem read_toWire (writable : undo.Writable) (rest : Bytes) :
    (fromWire : Decoder BlockUndo) (toWire undo ++ rest) = .ok (undo, rest) ∧
      ofWire BlockUndo (toWire undo) = .ok undo :=
  ⟨(faithful writable).reads rest, (faithful writable).ofWire⟩

/-- A log with a record that says what the transaction was, one that does not, a transaction without
inputs, and sidechains with extreme words. -/
def mixed : BlockUndo where
  txUndos := [⟨[⟨⟨5000000000, Script.payToKeyHash (List.replicate 20 7)⟩, true, 120, -2⟩,
    .plain ⟨Amount.maxMoney, [0x51, 0x52]⟩]⟩, ⟨[]⟩]
  priorRoot := .hash []
  sidechains := .ofList [
    (.zero, ⟨Int64.minValue.toInt, Int32.maxValue.toInt⟩), (.hash [1], ⟨7, -1⟩)]
  generation := .current

theorem read_toWire_mixed : mixed.Writable ∧
    (fromWire : Decoder BlockUndo) (toWire mixed ++ [1, 2, 3]) = .ok (mixed, [1, 2, 3]) ∧
      ofWire BlockUndo (toWire mixed) = .ok mixed :=
  have writable : mixed.Writable := by decide +kernel
  ⟨writable, read_toWire writable [1, 2, 3]⟩

end BlockUndo

end Reorg
