/-
**Upgrading records.**

A log that was read from a legacy record can always be written, and what is written is always read
again, as a log of the current generation: whatever the reader accepts has lengths that may be
declared, scripts that are not too long, heights that fit their words and no version without a
height. Only amounts may change, when they are out of range.

* `BlockUndo.yields_fits`: what holds of every log that was read;
* `BlockUndo.ofWire_toWire_of_read`: a log that was read is written and read again as the wire
  carries it;
* `upgradedRecord`: what a record becomes; `isLegacyRecord_upgradedRecord`: it is not a legacy
  record any more.
-/

import Reorg.Proofs.Undo.Carried
import Reorg.Proofs.Undo.Spelling

namespace Reorg

open Decoder

/-! ### What was read -/

/-- What holds of everything that is spelt holds of everything that is read. -/
theorem Decoder.Takes.yields {α : Type} {decoder : Decoder α} {spelt : α → Bytes → Prop}
    {holds : α → Prop} (takes : Takes decoder spelt)
    (always : ∀ value taken, spelt value taken → holds value) : Yields decoder holds := by
  intro input value rest read
  obtain ⟨taken, -, spelling⟩ := takes input value rest read
  exact always value taken spelling

theorem OutputUndo.yields_fits : Yields read (FitsWith Output.Short) := by
  refine OutputUndo.takes_read.yields ?_
  rintro _ _ ⟨spelling, -, rfl⟩
  exact ⟨spelling.output.script.length_script_le, spelling.fits, spelling.versioned⟩

theorem TxUndo.yields_fits :
    Yields read fun undo => ∀ prevout ∈ undo.prevouts, prevout.FitsWith Output.Short :=
  (yields_list OutputUndo.yields_fits).bind fun _ all => .pure all.2

namespace BlockUndo

variable {undo : BlockUndo} {payload : Bytes}

/-- **The records of a log that was read** have scripts that are not too long, heights that fit and
no version without a height; and a log of the legacy generation says nothing of sidechains. -/
theorem yields_fits : Yields read fun undo =>
    (∀ txUndo ∈ undo.txUndos, ∀ prevout ∈ txUndo.prevouts, prevout.FitsWith Output.Short) ∧
      (undo.generation = .legacy → undo.sidechains = .empty) := by
  refine .last fun leading => ?_
  cases Generation.ofLeading leading with
  | current =>
    show Yields readCurrent _
    refine (yields_list TxUndo.yields_fits).bind fun txUndos txs => ?_
    exact .last fun root => .last fun sidechains => .pure ⟨txs.2, nofun⟩
  | legacy =>
    show Yields (readLegacy leading) _
    refine (Yields.sequenceOf TxUndo.yields_fits).bind fun txUndos txs => ?_
    exact .last fun root => .pure ⟨txs.2, fun _ => rfl⟩

/-- A log that was read from a legacy record says nothing of sidechains. -/
theorem sidechains_of_legacy (accepted : ofWire BlockUndo payload = .ok undo)
    (old : undo.generation = .legacy) : undo.sidechains = .empty :=
  (yields_fits payload undo [] (whole_eq_ok_iff.mp accepted)).2 old

/-! ### Writing what was read -/

/-- A log as a log of the current generation, which is how it is written. -/
def upgraded (undo : BlockUndo) : BlockUndo := { undo with generation := .current }

/-- **A log that was read is written and read again**, in the current generation and with its
amounts as the wire carries them. -/
theorem ofWire_toWire_of_read (accepted : ofWire BlockUndo payload = .ok undo) :
    ofWire BlockUndo (toWire undo) = .ok undo.upgraded.carried := by
  have read := whole_eq_ok_iff.mp accepted
  have bounded : undo.Bounded := yields_read payload undo [] read
  have fits := (yields_fits payload undo [] read).1
  have again : undo.upgraded.Bounded :=
    ⟨bounded.shortTxs, bounded.shortPrevouts, bounded.shortSidechains, bounded.words⟩
  exact ofWire_toWire rfl again fits

end BlockUndo

/-! ### Records -/

/-- Whether some bytes are read as a log of the legacy generation. -/
def isLegacyRecord (payload : Bytes) : Bool :=
  match ofWire BlockUndo payload with
  | .error _ => false
  | .ok undo => undo.isLegacy

/-- A record after it was upgraded: a legacy record is written again, any other bytes stay. -/
def upgradedRecord (payload : Bytes) : Bytes :=
  match ofWire BlockUndo payload with
  | .error _ => payload
  | .ok undo => if undo.isLegacy then toWire undo else payload

section Records

variable {payload : Bytes} {undo : BlockUndo}

theorem isLegacyRecord_of_refused {problem : FormatError}
    (refused : ofWire BlockUndo payload = .error problem) : isLegacyRecord payload = false := by
  rw [isLegacyRecord, refused]

theorem isLegacyRecord_of_read (accepted : ofWire BlockUndo payload = .ok undo) :
    isLegacyRecord payload = undo.isLegacy := by
  rw [isLegacyRecord, accepted]

theorem upgradedRecord_of_legacy (accepted : ofWire BlockUndo payload = .ok undo)
    (legacy : undo.isLegacy = true) : upgradedRecord payload = toWire undo := by
  rw [upgradedRecord, accepted]
  exact if_pos legacy

theorem upgradedRecord_of_not_legacy (other : isLegacyRecord payload = false) :
    upgradedRecord payload = payload := by
  rw [upgradedRecord]
  cases accepted : ofWire BlockUndo payload with
  | error problem => rfl
  | ok undo =>
    rw [isLegacyRecord_of_read accepted] at other
    exact if_neg (Bool.eq_false_iff.mp other)

/-- A legacy record is read. -/
theorem exists_read_of_legacy (legacy : isLegacyRecord payload = true) :
    ∃ undo, ofWire BlockUndo payload = .ok undo ∧ undo.isLegacy = true := by
  cases accepted : ofWire BlockUndo payload with
  | error problem => cases (isLegacyRecord_of_refused accepted).symm.trans legacy
  | ok undo => exact ⟨undo, rfl, (isLegacyRecord_of_read accepted).symm.trans legacy⟩

/-- **An upgraded record is no legacy record.** -/
theorem isLegacyRecord_upgradedRecord (payload : Bytes) :
    isLegacyRecord (upgradedRecord payload) = false := by
  cases legacy : isLegacyRecord payload with
  | false => rwa [upgradedRecord_of_not_legacy legacy]
  | true =>
    obtain ⟨undo, accepted, old⟩ := exists_read_of_legacy legacy
    rw [upgradedRecord_of_legacy accepted old]
    exact isLegacyRecord_of_read (BlockUndo.ofWire_toWire_of_read accepted)

end Records

end Reorg
