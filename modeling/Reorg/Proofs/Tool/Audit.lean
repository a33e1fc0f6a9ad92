/-
**Auditing a store.**

An audit tells the generation of a record by its first number alone, and finds the records that do
not read by reading every one. The first number is read without the bound that the reader puts on
it, but the reader looks at it first and in the same way, so what the audit says of a record is what
the reader makes of it.

* `Generation.sniff_eq`, `Generation.sniff_eq_current_iff`: what the first number announces;
* `BlockUndo.sniff_of_read`, `BlockUndo.ofWire_of_sniff_error`: it agrees with the reader;
* `verify_result`: the blocks that are reported;
* `audit_agrees`: both, for every byte string and every store in memory.
-/

import Reorg.Proofs.Tool.Migration

namespace Reorg

open Decoder Fallible

variable {input rest : Bytes} {problem : FormatError} {undo : BlockUndo} {leading : Nat}

/-! ### The first number -/

namespace Generation

theorem sniff_eq (input : Bytes) :
    sniff input = (CompactSize.read input).map fun first => ofLeading first.1 := by
  unfold sniff CompactSize.peek
  cases CompactSize.read input <;> rfl

theorem ofLeading_eq_current_iff : ofLeading leading = .current ↔ leading = marker := by
  unfold ofLeading
  split <;> simp_all

/-- **The current generation is announced** by three bytes, and by nothing else. -/
theorem sniff_eq_current_iff : sniff input = .ok .current ↔ [0xFD, 0xC1, 0xFE] <+: input := by
  rw [sniff_eq, ← BlockUndo.write_marker]
  constructor
  · intro announced
    cases first : CompactSize.read input with
    | error problem =>
      rw [first] at announced
      cases announced
    | ok found =>
      obtain ⟨leading, behind⟩ := found
      rw [first] at announced
      have marked : leading = marker := ofLeading_eq_current_iff.mp (Except.ok.inj announced)
      obtain ⟨taken, rfl, -, rfl⟩ := CompactSize.takes_read input leading behind first
      rw [marked]
      exact List.prefix_append _ _
  · rintro ⟨behind, rfl⟩
    rw [CompactSize.reads_read (by decide) behind]
    rfl

end Generation

/-! ### The reader of a record -/

namespace BlockUndo

theorem yields_readCurrent : Yields readCurrent fun undo => undo.generation = .current := by
  unfold readCurrent
  exact .last fun _ => .last fun _ => .last fun _ => .pure rfl

theorem yields_readLegacy (count : Nat) :
    Yields (readLegacy count) fun undo => undo.generation = .legacy := by
  unfold readLegacy
  exact .last fun _ => .last fun _ => .pure rfl

/-- The log of a record is of the generation that the first number announces. -/
theorem generation_of_read
    (read : BlockUndo.read input = .ok (undo, rest)) :
    ∃ leading behind, CompactSize.read input = .ok (leading, behind) ∧
      undo.generation = Generation.ofLeading leading := by
  obtain ⟨⟨leading, behind⟩, counted, laidOut⟩ := bind_eq_ok_iff.mp read
  refine ⟨leading, behind, (CompactSize.readLength_eq_ok_iff.mp counted).1, ?_⟩
  cases announced : Generation.ofLeading leading with
  | current =>
    simp only [announced] at laidOut
    exact yields_readCurrent behind undo rest laidOut
  | legacy =>
    simp only [announced] at laidOut
    exact yields_readLegacy leading behind undo rest laidOut

/-- **A log that is read** is of the generation that its record announces. -/
theorem sniff_of_read (accepted : ofWire BlockUndo input = .ok undo) :
    Generation.sniff input = .ok undo.generation := by
  obtain ⟨leading, behind, first, announced⟩ := generation_of_read (whole_eq_ok_iff.mp accepted)
  rw [Generation.sniff_eq, first, announced]
  rfl

/-- **A record that announces nothing** does not read, and for the same reason. -/
theorem ofWire_of_sniff_error (refused : Generation.sniff input = .error problem) :
    ofWire BlockUndo input = .error problem := by
  have first : CompactSize.read input = .error problem := by
    rw [Generation.sniff_eq] at refused
    cases found : CompactSize.read input with
    | error cause =>
      rw [found] at refused
      exact congrArg Except.error (Except.error.inj refused)
    | ok pair =>
      rw [found] at refused
      cases refused
  have counted := CompactSize.readLength_of_error first
  have read : BlockUndo.read input = .error problem := bind_eq_error_iff.mpr (.inl counted)
  show whole BlockUndo.read input = .error problem
  rw [whole, read]

end BlockUndo

/-! ### The blocks that are reported -/

namespace Tool

variable {store : MemoryStore} {block : Digest}

theorem isDamaged_iff :
    isDamaged store block = true ↔ ∃ problem, UndoStore.get store block = .error problem := by
  unfold isDamaged
  cases UndoStore.get store block <;> simp

/-- **What is reported** of a store in memory: its blocks whose logs are not got. -/
theorem verify_result (store : MemoryStore) :
    (verify store).result = .ok (store.records.keys.filter (isDamaged store)) := rfl

/-- A block that is not damaged has a log, of the generation that its record announces. -/
theorem exists_get_of_sound (sound : isDamaged store block = false) : ∃ payload undo,
      UndoStore.getRaw store block = .ok payload ∧ UndoStore.get store block = .ok undo ∧
        Generation.sniff payload = .ok undo.generation := by
  cases got : UndoStore.get store block with
  | error problem =>
    have damaged : isDamaged store block = true := isDamaged_iff.mpr ⟨problem, got⟩
    rw [sound] at damaged
    cases damaged
  | ok undo =>
    obtain ⟨payload, stored, accepted⟩ := MemoryStore.get_eq_ok_iff.mp got
    exact ⟨payload, undo, MemoryStore.getRaw_eq_ok_iff.mpr stored, rfl,
      BlockUndo.sniff_of_read accepted⟩

/-- **An audit agrees with the reader.** When a byte string reads as a log, its first number
announces the generation of that log; when the first number is refused, the byte string does not
read, and for the same reason; the current generation is announced by `FD C1 FE` in front, and by
nothing else. Of a store in memory, whatever bytes it holds, the blocks that are reported ascend,
they are those of the store whose logs are not got, and every other block of the store has a record
that announces the generation of its log. -/
theorem audit_agrees :
    (∀ input undo, ofWire BlockUndo input = .ok undo →
      Generation.sniff input = .ok undo.generation) ∧
    (∀ input problem, Generation.sniff input = .error problem →
      ofWire BlockUndo input = .error problem) ∧
    (∀ input, Generation.sniff input = .ok .current ↔ [0xFD, 0xC1, 0xFE] <+: input) ∧
    ∀ store : MemoryStore, ∃ damaged, (verify store).result = .ok damaged ∧
      damaged.Pairwise (fun first second => compare first second = .lt) ∧ damaged.Nodup ∧
      (∀ block, block ∈ damaged ↔ block ∈ store.records.keys ∧
        ∃ problem, UndoStore.get store block = .error problem) ∧
      ∀ block ∈ store.records.keys, block ∉ damaged → ∃ payload undo,
        UndoStore.getRaw store block = .ok payload ∧ UndoStore.get store block = .ok undo ∧
          Generation.sniff payload = .ok undo.generation := by
  refine ⟨fun _ _ => BlockUndo.sniff_of_read, fun _ _ => BlockUndo.ofWire_of_sniff_error,
    fun _ => Generation.sniff_eq_current_iff, fun store => ?_⟩
  refine ⟨_, verify_result store, OrderedMap.keys_ascending.filter _,
    store.records.keys_nodup.filter _, fun block => ?_, fun block held unreported => ?_⟩
  · rw [List.mem_filter, isDamaged_iff]
  · apply exists_get_of_sound
    rw [Bool.eq_false_iff]
    intro damaged
    exact unreported (List.mem_filter.mpr ⟨held, damaged⟩)

/-- A log that is read, a count that is cut off, and the store with records of all kinds. -/
theorem audit_agrees_assorted :
    (ofWire BlockUndo (toWire BlockUndo.mixed) = .ok BlockUndo.mixed ∧
      Generation.sniff (toWire BlockUndo.mixed) = .ok .current) ∧
    (Generation.sniff [0xFE, 1] = .error (.truncated 4 1) ∧
      ofWire BlockUndo [0xFE, 1] = .error (.truncated 4 1)) ∧
    Generation.sniff [0xFD, 0xC1, 0xFE] = .ok .current ∧
    ∃ damaged, (verify assorted).result = .ok damaged ∧
      .zero ∉ damaged ∧ .filled 1 ∉ damaged ∧ .filled 2 ∈ damaged ∧
      ∃ payload undo, UndoStore.getRaw assorted .zero = .ok payload ∧
        UndoStore.get assorted .zero = .ok undo ∧
          Generation.sniff payload = .ok undo.generation := by
  obtain ⟨read, refused, announced, audited⟩ := audit_agrees
  obtain ⟨damaged, reported, -, -, exact, sound⟩ := audited assorted
  have legacy : .zero ∉ damaged := by
    intro member
    obtain ⟨-, problem, failed⟩ := (exact .zero).mp member
    rw [get_assorted_legacy] at failed
    cases failed
  have cut : Generation.sniff [0xFE, 1] = .error (.truncated 4 1) := by decide
  refine ⟨⟨ofWire_mixed, read _ _ ofWire_mixed⟩, ⟨cut, refused _ _ cut⟩,
    (announced _).mpr List.prefix_rfl, damaged, reported, legacy, ?_, ?_,
    sound .zero (by decide +kernel) legacy⟩
  · intro member
    obtain ⟨-, problem, failed⟩ := (exact (.filled 1)).mp member
    rw [MemoryStore.get_eq_ok_iff.mpr ⟨_, by decide +kernel, ofWire_mixed⟩] at failed
    cases failed
  · refine (exact (.filled 2)).mpr ⟨by decide +kernel, ?_⟩
    exact isDamaged_iff.mp (by decide +kernel)

end Tool

end Reorg
