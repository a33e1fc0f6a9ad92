/-
**Names of the files of a store.**

The file of a block is named by the digits of the block and an ending; the file that is written
before it is moved has another ending. No two blocks share a name, and a name of the one kind is
never of the other; a listing reads the block back from the one and passes over the other.

* `FileStore.recordName_inj`, `FileStore.recordName_ne_temporaryName`: names do not collide;
* `FileStore.blockOf?_recordName`, `FileStore.blockOf?_temporaryName`: what a listing makes of them.
-/

import Reorg.Proofs.Block
import Reorg.Proofs.Text.Hex
import Reorg.Store.File

namespace Reorg

theorem Digest.utf8ByteSize_toHex (digest : Digest) : digest.toHex.utf8ByteSize = 64 := by
  rw [toHex, Hex.utf8ByteSize_encode, List.length_reverse, digest.length_bytes]

theorem Hex.digit_ne_null : ∀ value < 16, digit value ≠ '\x00' := by
  decide

theorem Digest.ne_null_of_mem_toHex {digest : Digest} {character : Char}
    (member : character ∈ digest.toHex.toList) : character ≠ '\x00' := by
  rw [toHex, Hex.encode, String.toList_ofList, Hex.encodeChars] at member
  obtain ⟨byte, -, member⟩ := List.mem_flatMap.mp member
  have bound := byte.toNat_lt
  rcases List.mem_pair.mp member with rfl | rfl
  · exact Hex.digit_ne_null _ (by omega)
  · exact Hex.digit_ne_null _ (by omega)

namespace FileStore

variable {block block' : Digest}

/-- The name of the file of a block. -/
def recordName (block : Digest) : String := block.toHex ++ ending

/-- The name of the file that the log of a block is written to before it is moved. -/
def temporaryName (block : Digest) : String := block.toHex ++ ".tmp"

/-- The name begins with the digits of the block, whatever it ends with. -/
theorem eq_of_shown_append {behind behind' : String}
    (same : block.toHex ++ behind = block'.toHex ++ behind') :
    block = block' ∧ behind = behind' := by
  have characters := congrArg String.toList same
  rw [String.toList_append, String.toList_append] at characters
  have long := block.length_toHex.trans block'.length_toHex.symm
  obtain ⟨digits, rest⟩ := List.append_inj characters long
  refine ⟨?_, String.toList_inj.mp rest⟩
  exact (Digest.agreeIff_toHex block block').eq_iff.mp digits

theorem recordName_inj : recordName block = recordName block' ↔ block = block' :=
  ⟨fun same => (eq_of_shown_append same).1, congrArg recordName⟩

theorem recordName_ne_temporaryName : recordName block ≠ temporaryName block' :=
  fun same => absurd (eq_of_shown_append same).2 (by decide)

/-! ### Names read back -/

theorem blockOf?_recordName (block : Digest) : blockOf? (recordName block) = some block := by
  have ends : (recordName block).endsWith ending = true := by
    rw [String.endsWith_eq_endsWith_toSlice, String.Slice.endsWith_string_iff, String.copy_toSlice,
      recordName, String.toList_append]
    exact List.suffix_append _ _
  have begins : ((recordName block).dropEnd ending.length).toString = block.toHex := by
    refine String.toList_inj.mp ?_
    show ((recordName block).dropEnd ending.length).copy.toList = _
    rw [String.toList_copy_dropEnd, recordName, String.toList_append, List.length_append]
    exact List.take_left' (Nat.add_sub_cancel _ _).symm
  rw [blockOf?, if_pos ends, begins, Digest.ofHex_toHex]
  rfl

theorem blockOf?_temporaryName (block : Digest) : blockOf? (temporaryName block) = none := by
  refine if_neg fun ends => ?_
  rw [String.endsWith_eq_endsWith_toSlice, String.Slice.endsWith_string_iff, String.copy_toSlice,
    temporaryName, String.toList_append] at ends
  -- The endings have different last characters.
  have last := List.IsSuffix.getLast ends (by decide)
  rw [List.getLast_append_of_ne_nil _ (by decide)] at last
  exact absurd last (by decide)

end FileStore

/-! ### Names in a directory -/

namespace TreePath

theorem check_eq_ok_iff {path : TreePath} : path.check = .ok () ↔
    '\x00' ∉ path.text.toList ∧ path.text ≠ "" ∧ path.text.utf8ByteSize ≤ sizeLimit := by
  unfold check
  split
  · next null => simp [List.contains_iff_mem.mp null]
  · next plain =>
    have plain := mt List.contains_iff_mem.mpr plain
    split
    · next empty => simp [String.isEmpty_iff.mp empty]
    · next nonempty =>
      have nonempty := mt String.isEmpty_iff.mpr nonempty
      split
      · next long => simp [Nat.not_le.mpr long]
      · next short => simp [plain, nonempty, Nat.not_lt.mp short]

/-- The text of a path below another has the lower one at its end, and at most the upper one and a
slash in front. -/
theorem joinText_eq (above below : String) : ∃ front, joinText above below = front ++ below ∧
    front.utf8ByteSize ≤ above.utf8ByteSize + 1 ∧
      ∀ c ∈ front.toList, c ∈ above.toList ∨ c = '/' := by
  unfold joinText
  split
  · exact ⟨"", by simp⟩
  · split
    · exact ⟨above, rfl, by omega, fun _ member => .inl member⟩
    · refine ⟨above ++ "/", rfl, ?_, fun c member => ?_⟩
      · rw [String.utf8ByteSize_append]
        rfl
      · rw [String.toList_append, List.mem_append] at member
        exact member.imp_right List.mem_singleton.mp

/-- A name that a file can have in the directory at a path. -/
structure Admits (path : TreePath) (name : String) : Prop where
  checked : (path.child name).check = .ok ()
  ordinary : name ≠ "." ∧ name ≠ ".."
  short : name.utf8ByteSize ≤ nameLimit

/-- A directory admits what shows a digest and ends in a few plain characters, if there is room
for a slash and the name behind the path. -/
theorem Admits.of_shown {path : TreePath} {block : Digest} {behind : String}
    (checked : path.check = .ok ()) (room : path.text.utf8ByteSize + 70 ≤ sizeLimit)
    (plain : '\x00' ∉ behind.toList) (few : behind.utf8ByteSize ≤ 5) :
    path.Admits (block.toHex ++ behind) := by
  obtain ⟨without, -, -⟩ := check_eq_ok_iff.mp checked
  have size : (block.toHex ++ behind).utf8ByteSize = 64 + behind.utf8ByteSize := by
    rw [String.utf8ByteSize_append, block.utf8ByteSize_toHex]
  have clear : '\x00' ∉ (block.toHex ++ behind).toList := by
    rw [String.toList_append, List.mem_append]
    rintro (shown | ending)
    · exact Digest.ne_null_of_mem_toHex shown rfl
    · exact plain ending
  have apart : ∀ other : String, other.utf8ByteSize < 64 → block.toHex ++ behind ≠ other := by
    rintro other short rfl
    omega
  refine ⟨check_eq_ok_iff.mpr ?_, ⟨apart _ (by decide), apart _ (by decide)⟩, ?_⟩
  · show '\x00' ∉ (joinText path.text _).toList ∧ joinText path.text _ ≠ "" ∧
      (joinText path.text _).utf8ByteSize ≤ sizeLimit
    obtain ⟨front, joined, fits, within⟩ := joinText_eq path.text (block.toHex ++ behind)
    refine ⟨fun null => ?_, fun empty => ?_, ?_⟩
    · rw [joined, String.toList_append, List.mem_append] at null
      rcases null with null | null
      · exact (within _ null).elim without (by decide)
      · exact clear null
    · have nothing : (joinText path.text (block.toHex ++ behind)).utf8ByteSize = 0 := by
        rw [empty]
        rfl
      rw [joined, String.utf8ByteSize_append, size] at nothing
      omega
    · rw [joined, String.utf8ByteSize_append, size]
      omega
  · rw [size]
    exact Nat.le_trans (Nat.add_le_add_left few 64) (by decide)

end TreePath

end Reorg
