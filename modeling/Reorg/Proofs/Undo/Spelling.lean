/-
**The spellings of an undo log.**

A record of the current generation is one way to spell a log, and a log may have several. Wherever
the record holds a number, a flag, a height, a version, a root or a length, there is one way to write
it. What is left are four freedoms: the sidechains may stand in any order, the packed form of an
amount may stand for more than a word, a script may be too long to be spent, and a script with a
template may be written out. A record that takes none of them is the one that is written.

* `Output.Spelling`, `OutputUndo.Spelling`, `TxUndo.Spelling`, `BlockUndo.Spelling`: records as they
  are spelt, each with its bytes and what it stands for;
* `BlockUndo.takes_read`: whatever is read of the current generation is spelt;
* `BlockUndo.Spelling.reads`: whatever is spelt is read;
* `BlockUndo.Spelling.Canonical`: a record that takes no freedom;
* `BlockUndo.written_as_read_iff`: a log that was read is written as it was read exactly when the
  record takes no freedom.
-/

import Reorg.Proofs.Script.Spelling
import Reorg.Proofs.Undo.Wire
import Reorg.Proofs.Wire.Spelling

namespace Reorg

open Decoder

/-! ### Outputs -/

namespace Output

/-- A packed amount and a spelling of a script. -/
structure Spelling where
  packed : Nat
  fits : packed < UInt64.size
  script : Script.Spelling

namespace Spelling

variable {spelling : Spelling}

/-- The bytes of a spelling of an output. -/
def bytes (spelling : Spelling) : Bytes :=
  VarInt.write spelling.packed ++ spelling.script.bytes

/-- The output that is spelt. -/
def output (spelling : Spelling) : Output where
  value := ofWord UInt64.size (Amount.unpackWord spelling.packed)
  script := spelling.script.script

/-- The packed amount stands for a word, and a script that is written out is neither too long nor one
of a template. -/
def Canonical (spelling : Spelling) : Prop :=
  Amount.unpack spelling.packed < UInt64.size ∧ ∀ body ∈ spelling.script.body?,
    body.length ≤ Script.maxSize ∧ Script.Template.ofScript? body = none

theorem packedValue_output :
    spelling.output.packedValue = Amount.packWord (Amount.unpackWord spelling.packed) := by
  have word : Amount.unpackWord spelling.packed < UInt64.size := Nat.mod_lt _ (by decide)
  rw [packedValue, output, toWord_ofWord, Nat.mod_eq_of_lt word]

theorem reads : Reads read spelling.bytes spelling.output :=
  (VarInt.reads_read spelling.fits).bind spelling.script.reads.bind_pure

theorem agreeIff : AgreeIff (toWire spelling.output) spelling.bytes spelling.Canonical := by
  have packed : spelling.output.packedValue = spelling.packed ↔
      Amount.unpack spelling.packed < UInt64.size := by
    rw [packedValue_output]
    exact Amount.packWord_unpackWord_iff spelling.fits
  exact ((VarInt.agreeIff_write (Amount.packWord_lt _) spelling.fits).congr packed).append
    (Script.agreeIff_bytes spelling.script)

end Spelling

theorem takes_read : Takes read fun output taken =>
    ∃ spelling : Spelling, spelling.bytes = taken ∧ spelling.output = output := by
  unfold read
  refine VarInt.takes_read.bind ?_
  rintro packed _ ⟨fits, rfl⟩
  refine Script.takes_read.map ?_
  rintro _ _ ⟨script, rfl, rfl⟩
  exact ⟨⟨packed, fits, script⟩, rfl, rfl⟩

end Output

/-! ### Records of outputs and transactions -/

namespace OutputUndo

/-- A height, a coinbase flag, a version where there is a height, and a spelling of an output. -/
structure Spelling where
  output : Output.Spelling
  coinbase : Bool
  height : Nat
  version : Int32
  fits : height < UInt32.size
  versioned : 0 < height ∨ version = 0

namespace Spelling

variable {spelling : Spelling}

/-- The record that is spelt. -/
def undo (spelling : Spelling) : OutputUndo :=
  ⟨spelling.output.output, spelling.coinbase, spelling.height, spelling.version⟩

/-- The bytes of a record in front of its output. -/
def front (undo : OutputUndo) : Bytes :=
  VarInt.write undo.code ++ if undo.hasMetadata then VarInt.write undo.versionWord else []

theorem front_of_metadata {undo : OutputUndo} (above : 0 < undo.height) :
    front undo = VarInt.write undo.code ++ VarInt.write undo.versionWord := by
  rw [front, hasMetadata, if_pos (decide_eq_true above)]

theorem front_of_none {undo : OutputUndo} (ground : ¬ 0 < undo.height) :
    front undo = VarInt.write undo.code := by
  rw [front, hasMetadata, if_neg fun above => ground (of_decide_eq_true above), List.append_nil]

/-- The bytes of a spelling of the record of an output. -/
def bytes (spelling : Spelling) : Bytes := front spelling.undo ++ spelling.output.bytes

theorem bytes_pos : 0 < spelling.bytes.length := by
  rw [bytes, front, List.length_append, List.length_append]
  exact Nat.add_pos_left (Nat.add_pos_left (VarInt.write_pos _) _) _

theorem agreeIff : AgreeIff (toWire spelling.undo) spelling.bytes spelling.output.Canonical :=
  ((AgreeIff.refl (front spelling.undo)).append Output.Spelling.agreeIff).congr
    (and_iff_right trivial)

theorem reads : Reads read spelling.bytes spelling.undo := by
  have output : Reads Output.read spelling.output.bytes spelling.output.output :=
    Output.Spelling.reads
  rw [bytes, read]
  by_cases above : 0 < spelling.undo.height
  · rw [front_of_metadata above, List.append_assoc]
    refine (reads_readCode spelling.fits).bind ?_
    show Reads (if 0 < spelling.undo.height then _ else _) _ _
    rw [if_pos above]
    exact reads_readVersion.bind output.bind_pure
  · have none : spelling.version = 0 := spelling.versioned.resolve_left above
    rw [front_of_none above]
    refine (reads_readCode spelling.fits).bind ?_
    show Reads (if 0 < spelling.undo.height then _ else _) _ _
    rw [if_neg above, undo, none]
    exact (Reads.pure 0).bind output.bind_pure

end Spelling

theorem takes_readCode : Takes readCode fun code taken => code.1 < UInt32.size ∧
    taken = VarInt.write (2 * code.1 + code.2.toNat) := by
  unfold readCode
  refine VarInt.takes_read.bind ?_
  rintro code _ ⟨-, rfl⟩
  split
  · next fits =>
    have flag : (code % 2 == 1).toNat = code % 2 := by
      rcases Nat.mod_two_eq_zero_or_one code with even | odd
      · rw [even]; rfl
      · rw [odd]; rfl
    refine .pure ⟨fits, ?_⟩
    rw [flag, Nat.div_add_mod, List.append_nil]
  · exact .throw

theorem takes_readVersion : Takes readVersion fun version taken =>
    taken = VarInt.write version.toUInt32.toNat := by
  refine VarInt.takes_readWord32.map ?_
  rintro word _ ⟨fits, rfl⟩
  rw [UInt32.toUInt32_toInt32, UInt32.toNat_ofNat_of_lt' fits]

theorem takes_read : Takes read fun undo taken =>
    ∃ spelling : Spelling, spelling.bytes = taken ∧ spelling.undo = undo := by
  unfold read
  refine takes_readCode.bind ?_
  rintro ⟨height, coinbase⟩ _ ⟨fits, rfl⟩
  dsimp only
  split
  · next above =>
    refine takes_readVersion.bind ?_
    rintro version _ rfl
    refine Output.takes_read.map ?_
    rintro _ _ ⟨output, rfl, rfl⟩
    refine ⟨⟨output, coinbase, height, version, fits, .inl above⟩, ?_, rfl⟩
    have front : Spelling.front (Spelling.undo ⟨output, coinbase, height, version, fits, .inl above⟩) =
        _ := Spelling.front_of_metadata above
    rw [Spelling.bytes, front, List.append_assoc]
    rfl
  · next ground =>
    have none : Takes (pure 0 : Decoder Int32) fun version taken => version = 0 ∧ taken = [] :=
      .pure ⟨rfl, rfl⟩
    refine none.bind ?_
    rintro version _ ⟨rfl, rfl⟩
    refine Output.takes_read.map ?_
    rintro _ _ ⟨output, rfl, rfl⟩
    refine ⟨⟨output, coinbase, height, 0, fits, .inr rfl⟩, ?_, rfl⟩
    have front : Spelling.front (Spelling.undo ⟨output, coinbase, height, 0, fits, .inr rfl⟩) =
        _ := Spelling.front_of_none ground
    rw [Spelling.bytes, front]
    rfl

end OutputUndo

namespace TxUndo

/-- The spellings of the records of a transaction. -/
structure Spelling where
  prevouts : List OutputUndo.Spelling
  short : prevouts.length ≤ CompactSize.maxLength

namespace Spelling

variable {spelling : Spelling}

/-- The record that is spelt. -/
def undo (spelling : Spelling) : TxUndo := ⟨spelling.prevouts.map OutputUndo.Spelling.undo⟩

/-- The bytes of a spelling of the record of a transaction. -/
def bytes (spelling : Spelling) : Bytes := spellList OutputUndo.Spelling.bytes spelling.prevouts

theorem bytes_pos : 0 < spelling.bytes.length := by
  rw [bytes, spellList, List.length_append]
  exact Nat.add_pos_left (CompactSize.write_pos _) _

theorem agreeIff : AgreeIff (toWire spelling.undo) spelling.bytes
    (∀ prevout ∈ spelling.prevouts, prevout.output.Canonical) :=
  agreeIff_list fun _ _ => OutputUndo.Spelling.agreeIff

theorem reads : Reads read spelling.bytes spelling.undo := by
  have list : Reads fromWire spelling.bytes (spelling.prevouts.map OutputUndo.Spelling.undo) :=
    reads_spellings spelling.short (fun _ _ => OutputUndo.Spelling.bytes_pos)
      fun _ _ => OutputUndo.Spelling.reads
  exact list.bind_pure

end Spelling

theorem takes_read : Takes read fun undo taken =>
    ∃ spelling : Spelling, spelling.bytes = taken ∧ spelling.undo = undo := by
  refine (takes_list OutputUndo.takes_read).map ?_
  rintro _ _ ⟨prevouts, short, rfl, rfl⟩
  exact ⟨⟨prevouts, short⟩, rfl, rfl⟩

end TxUndo

/-! ### Records of sidechains -/

/-- **The record of a sidechain is taken as it is written.** -/
theorem SidechainUndo.takes_read : Takes read fun undo taken =>
    undo.Writable ∧ taken = toWire undo := by
  unfold read
  refine takes_word.bind ?_
  rintro matured _ ⟨fits, rfl⟩
  refine takes_word.map ?_
  rintro epoch _ ⟨fits', rfl⟩
  have word : toWord UInt64.size (ofWord UInt64.size matured) = matured :=
    toWord_ofWord.trans (Nat.mod_eq_of_lt fits)
  have word' : toWord UInt32.size (ofWord UInt32.size epoch) = epoch :=
    toWord_ofWord.trans (Nat.mod_eq_of_lt fits')
  refine ⟨⟨?_, ?_⟩, ?_⟩
  · dsimp only
    exact int64_of_ofWord matured
  · dsimp only
    exact int32_of_ofWord epoch
  · show _ = littleEndian 8 _ ++ littleEndian 4 _
    rw [word, word']

/-! ### Logs -/

namespace BlockUndo

/-- The spellings of the records of a block, the root before it, and the records of its sidechains in
the order in which they stand. -/
structure Spelling where
  txUndos : List TxUndo.Spelling
  shortTxs : txUndos.length ≤ CompactSize.maxLength
  priorRoot : Digest
  sidechains : List (SidechainId × SidechainUndo)
  shortSidechains : sidechains.length ≤ CompactSize.maxLength
  distinct : (sidechains.map Prod.fst).Nodup
  words : ∀ entry ∈ sidechains, entry.2.Writable

namespace Spelling

variable {spelling spelling' : Spelling}

/-- The log that is spelt. -/
def undo (spelling : Spelling) : BlockUndo where
  txUndos := spelling.txUndos.map TxUndo.Spelling.undo
  priorRoot := spelling.priorRoot
  sidechains := .ofList spelling.sidechains
  generation := .current

/-- The bytes of a spelling of a log. -/
def bytes (spelling : Spelling) : Bytes :=
  CompactSize.write Generation.marker ++ spellList TxUndo.Spelling.bytes spelling.txUndos ++
    spelling.priorRoot.bytes ++ spellList spellPair spelling.sidechains

/-- The outputs that are spelt in a log. -/
def outputs (spelling : Spelling) : List Output.Spelling :=
  spelling.txUndos.flatMap fun txUndo => txUndo.prevouts.map OutputUndo.Spelling.output

/-- A record that takes none of the freedoms that spelling leaves. -/
structure Canonical (spelling : Spelling) : Prop where
  /-- The sidechains stand in the order of their identifiers. -/
  ascending : spelling.sidechains.Pairwise fun first second => compare first.1 second.1 = .lt
  /-- No packed amount stands for more than a word. -/
  amounts : ∀ output ∈ spelling.outputs, Amount.unpack output.packed < UInt64.size
  /-- No script that is written out is too long to be spent. -/
  spendable : ∀ output ∈ spelling.outputs, ∀ body ∈ output.script.body?,
    body.length ≤ Script.maxSize
  /-- No script that is written out has a template. -/
  plain : ∀ output ∈ spelling.outputs, ∀ body ∈ output.script.body?,
    Script.Template.ofScript? body = none

theorem canonical_iff : spelling.Canonical ↔
    (∀ txUndo ∈ spelling.txUndos, ∀ prevout ∈ txUndo.prevouts, prevout.output.Canonical) ∧
      spelling.sidechains.Pairwise fun first second => compare first.1 second.1 = .lt := by
  have outputs : (∀ output ∈ spelling.outputs, output.Canonical) ↔
      ∀ txUndo ∈ spelling.txUndos, ∀ prevout ∈ txUndo.prevouts, prevout.output.Canonical := by
    simp only [Spelling.outputs, List.forall_mem_flatMap, List.forall_mem_map]
  rw [← outputs]
  constructor
  · rintro ⟨ascending, amounts, spendable, plain⟩
    exact ⟨fun output member => ⟨amounts output member, fun body found =>
      ⟨spendable output member body found, plain output member body found⟩⟩, ascending⟩
  · rintro ⟨all, ascending⟩
    exact ⟨ascending, fun output member => (all output member).1,
      fun output member body found => ((all output member).2 body found).1,
      fun output member body found => ((all output member).2 body found).2⟩

theorem faithful_entries (spelling : Spelling) :
    ∀ entry ∈ spelling.sidechains, Faithful entry.1 ∧ Faithful entry.2 :=
  fun entry member => ⟨faithful_digest entry.1, SidechainUndo.faithful (spelling.words entry member)⟩

/-- **A spelling is read as its log**, whatever follows it. -/
theorem reads : Reads read spelling.bytes spelling.undo := by
  have marked : Reads CompactSize.readLength (CompactSize.write Generation.marker)
    Generation.marker := CompactSize.reads_readLength (by decide)
  have txs : Reads fromWire (spellList TxUndo.Spelling.bytes spelling.txUndos)
      (spelling.txUndos.map TxUndo.Spelling.undo) :=
    reads_spellings spelling.shortTxs (fun _ _ => TxUndo.Spelling.bytes_pos)
      fun _ _ => TxUndo.Spelling.reads
  have records : Reads fromWire (spellList spellPair spelling.sidechains)
      (.ofList spelling.sidechains : OrderedMap SidechainId SidechainUndo) :=
    reads_pairs spelling.shortSidechains spelling.distinct spelling.faithful_entries
  rw [read, bytes, List.append_assoc, List.append_assoc]
  refine marked.bind ?_
  show Reads readCurrent _ _
  exact txs.bind ((faithful_digest spelling.priorRoot).reads.bind records.bind_pure)

/-- **A log is written as it was spelt** exactly by a record that takes no freedom. -/
theorem toWire_undo_eq_bytes_iff : toWire spelling.undo = spelling.bytes ↔ spelling.Canonical := by
  have txs : AgreeIff (toWire (spelling.txUndos.map TxUndo.Spelling.undo))
      (spellList TxUndo.Spelling.bytes spelling.txUndos)
      (∀ txUndo ∈ spelling.txUndos, ∀ prevout ∈ txUndo.prevouts, prevout.output.Canonical) :=
    agreeIff_list fun _ _ => TxUndo.Spelling.agreeIff
  have records := agreeIff_map spelling.distinct spelling.faithful_entries
  have whole := (((AgreeIff.refl (CompactSize.write Generation.marker)).append txs).append
    (AgreeIff.refl spelling.priorRoot.bytes)).append records
  rw [canonical_iff]
  refine whole.eq_iff.trans ?_
  rw [true_and, and_true]

end Spelling

/-- **Whatever is read of the current generation** is a spelling of it. -/
theorem takes_read : Takes read fun undo taken => undo.generation = .current →
    ∃ spelling : Spelling, spelling.bytes = taken ∧ spelling.undo = undo := by
  unfold read
  refine CompactSize.takes_readLength.bind ?_
  rintro leading _ ⟨-, rfl⟩
  split
  · next current =>
    have marked : leading = Generation.marker := by
      rw [Generation.ofLeading] at current
      split at current
      · assumption
      · cases current
    refine (takes_list TxUndo.takes_read).bind ?_
    rintro _ _ ⟨txUndos, shortTxs, rfl, rfl⟩
    refine takes_digest.bind ?_
    rintro priorRoot _ rfl
    refine (takes_map takes_digest SidechainUndo.takes_read).map ?_
    rintro _ _ ⟨sidechains, ⟨shortSidechains, distinct, words⟩, rfl, rfl⟩ _
    refine ⟨⟨txUndos, shortTxs, priorRoot, sidechains, shortSidechains, distinct, words⟩, ?_, rfl⟩
    rw [Spelling.bytes, marked, List.append_assoc, List.append_assoc]
  · refine (Takes.after_check TxUndo.takes_read.entries).bind ?_
    rintro _ _ -
    refine takes_digest.map ?_
    rintro _ _ - ⟨⟩

/-- **A log that was read is written as it was read** exactly when the record takes no freedom,
however the record is taken to be spelt; and all records of one log that take none are the same. -/
theorem written_as_read_iff {input rest : Bytes} {undo : BlockUndo}
    (accepted : (fromWire : Decoder BlockUndo) input = .ok (undo, rest))
    (current : undo.generation = .current) :
    (∃ spelling : Spelling, spelling.bytes ++ rest = input ∧ spelling.undo = undo) ∧
      (∀ spelling : Spelling, spelling.bytes ++ rest = input →
        spelling.undo = undo ∧ (toWire undo = spelling.bytes ↔ spelling.Canonical)) ∧
      ∀ spelling spelling' : Spelling, spelling.undo = undo → spelling'.undo = undo →
        spelling.Canonical → spelling'.Canonical → spelling.bytes = spelling'.bytes := by
  refine ⟨?_, ?_, ?_⟩
  · obtain ⟨_, split, spelt⟩ := takes_read input undo rest accepted
    obtain ⟨spelling, rfl, same⟩ := spelt current
    exact ⟨spelling, split.symm, same⟩
  · rintro spelling rfl
    have read := spelling.reads rest
    obtain rfl : spelling.undo = undo := (Prod.mk.inj (Except.ok.inj (read.symm.trans accepted))).1
    exact ⟨rfl, Spelling.toWire_undo_eq_bytes_iff⟩
  · rintro spelling spelling' rfl same canonical canonical'
    have written := Spelling.toWire_undo_eq_bytes_iff.mpr canonical
    have written' := Spelling.toWire_undo_eq_bytes_iff.mpr canonical'
    rw [← written, ← written', same]

/-- A record whose sidechains stand in descending order. -/
def descending : Spelling where
  txUndos := [⟨[⟨⟨9, by decide, .plain [0x51] (by decide)⟩, true, 7, 2, by decide, .inl (by decide)⟩],
    by decide⟩]
  shortTxs := by decide
  priorRoot := .zero
  sidechains := [(⟨List.replicate 32 1, rfl⟩, ⟨5, -1⟩), (.zero, ⟨0, 3⟩)]
  shortSidechains := by decide
  distinct := by decide
  words := by decide

theorem written_as_read_descending :
    (fromWire : Decoder BlockUndo) (descending.bytes ++ [7]) = .ok (descending.undo, [7]) ∧
      toWire descending.undo ≠ descending.bytes := by
  have read : Reads read descending.bytes descending.undo := Spelling.reads
  have accepted := read [7]
  refine ⟨accepted, fun same => ?_⟩
  have canonical := ((written_as_read_iff accepted rfl).2.1 descending rfl).2.mp same
  have ascending := canonical.ascending
  exact absurd ascending (by decide)

end BlockUndo

end Reorg
