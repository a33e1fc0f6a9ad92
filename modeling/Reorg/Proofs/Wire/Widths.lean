/-
**The widths of a compact size.**

A marker says how many bytes the word behind it has. The writer takes the least width that holds a
number, the size counts the bytes of that width, and the reader asks of each word whether it needs
its width; the three agree on every number and on every input. So a number has one accepted form,
and an input is refused for three causes only: it is empty, a word is cut off, or a word is wider
than its value needs.

* `Marks.read_append`: a whole word behind a marker, which is read or refused by its size;
* `Refuses`, `read_eq_error_iff`: the inputs that are refused, and what is wrong with each;
* `readLength_eq_error_iff`, `peek_eq`: the number of entries of a sequence, and a number that is
  only looked at;
* `widths_exact`: all of it, for every number and every byte string.
-/

import Mathlib.Tactic.SplitIfs
import Reorg.Proofs.Wire.Sizes
import Reorg.Proofs.Wire.Takes

namespace Reorg.CompactSize

open Decoder

variable {value width : Nat} {marker : UInt8} {input rest : Bytes} {problem : FormatError}

/-! ### Markers -/

/-- A marker, with the number of bytes that the word behind it has. -/
inductive Marks : UInt8 → Nat → Prop
  | two : Marks 0xFD 2
  | four : Marks 0xFE 4
  | eight : Marks 0xFF 8

/-- What is read behind a marker is a word from some least value on, and the values below it are
those that have a shorter form. -/
theorem Marks.exists_least (marks : Marks marker width) : ∃ least,
    (∀ behind, read (marker :: behind) = readWide width least behind) ∧
      ∀ value, value < least ↔ size value < width + 1 := by
  cases marks with
  | two =>
    refine ⟨0xFD, fun _ => rfl, fun value => ?_⟩
    unfold size
    split_ifs <;> omega
  | four =>
    refine ⟨0x10000, fun _ => rfl, fun value => ?_⟩
    unfold size
    split_ifs <;> omega
  | eight =>
    refine ⟨0x100000000, fun _ => rfl, fun value => ?_⟩
    unfold size
    split_ifs <;> omega

/-- **A whole word behind a marker** is read when its value needs the width, else refused with it. -/
theorem Marks.read_append (marks : Marks marker width) (fits : value < Nat.pow 256 width)
    (rest : Bytes) : read (marker :: (littleEndian width value ++ rest)) =
      if size value < width + 1 then .error (.nonCanonical value) else .ok (value, rest) := by
  obtain ⟨least, wide, below⟩ := marks.exists_least
  rw [wide, readWide_append (littleEndian_length width value), ofLittleEndian_littleEndian,
    Nat.mod_eq_of_lt fits]
  simp only [below]

theorem Marks.read_of_short (marks : Marks marker width) (short : input.length < width) :
    read (marker :: input) = .error (.truncated width input.length) := by
  obtain ⟨least, wide, -⟩ := marks.exists_least
  rw [wide, readWide_of_short short]

/-- A byte that is no marker is a number by itself. -/
theorem read_of_unmarked (unmarked : ∀ width, ¬ Marks marker width) (rest : Bytes) :
    read (marker :: rest) = .ok (marker.toNat, rest) := by
  have two : marker ≠ 0xFD := fun same => unmarked 2 (same ▸ .two)
  have four : marker ≠ 0xFE := fun same => unmarked 4 (same ▸ .four)
  have eight : marker ≠ 0xFF := fun same => unmarked 8 (same ▸ .eight)
  show (if _ then _ else _ : Decoder Nat) rest = _
  rw [if_neg two, if_neg four, if_neg eight]
  rfl

/-! ### What is accepted and what is refused -/

/-- **A compact size is accepted** in the form in which it is written, and in no other. -/
theorem read_eq_ok_iff :
    read input = .ok (value, rest) ↔ value < UInt64.size ∧ input = write value ++ rest :=
  takes_read.eq_ok_iff fun _ => reads_read

/-- The inputs that do not begin with a compact size, each with what is wrong with it: there is no
byte at all, the word behind a marker is cut off, or it is whole and its value has a shorter form. -/
inductive Refuses : Bytes → FormatError → Prop
  | empty : Refuses [] (.truncated 1 0)
  | cut {marker : UInt8} {width : Nat} {behind : Bytes} (marks : Marks marker width)
      (short : behind.length < width) :
      Refuses (marker :: behind) (.truncated width behind.length)
  | overWide {marker : UInt8} {width value : Nat} (marks : Marks marker width)
      (fits : value < Nat.pow 256 width) (shorter : size value < width + 1) (rest : Bytes) :
      Refuses (marker :: (littleEndian width value ++ rest)) (.nonCanonical value)

theorem read_of_refuses (refuses : Refuses input problem) : read input = .error problem := by
  cases refuses with
  | empty => rfl
  | cut marks short => exact marks.read_of_short short
  | overWide marks fits shorter rest => rw [marks.read_append fits, if_pos shorter]

/-- **An input is refused** for these causes only. -/
theorem read_eq_error_iff : read input = .error problem ↔ Refuses input problem := by
  refine ⟨fun refused => ?_, read_of_refuses⟩
  cases input with
  | nil =>
    cases refused
    exact .empty
  | cons marker behind =>
    by_cases marked : ∃ width, Marks marker width
    · obtain ⟨width, marks⟩ := marked
      by_cases short : behind.length < width
      · rw [marks.read_of_short short] at refused
        cases refused
        exact .cut marks short
      · obtain ⟨value, rest, fits, rfl⟩ := exists_word (Nat.not_lt.mp short)
        rw [marks.read_append fits] at refused
        split at refused
        · next shorter =>
          cases refused
          exact .overWide marks fits shorter rest
        · cases refused
    · rw [read_of_unmarked (not_exists.mp marked)] at refused
      cases refused

/-- **The number of entries of a sequence is refused** as any number is, and when it is too large. -/
theorem readLength_eq_error_iff : readLength input = .error problem ↔
    Refuses input problem ∨ ∃ length rest, read input = .ok (length, rest) ∧
      maxLength < length ∧ problem = .oversizedLength length := by
  rw [← read_eq_error_iff]
  cases first : read input with
  | error cause =>
    rw [readLength_of_error first]
    exact ⟨.inl, fun either => either.elim id nofun⟩
  | ok found =>
    obtain ⟨length, rest⟩ := found
    rw [readLength_of_read first]
    by_cases large : length > maxLength
    · rw [if_pos large]
      constructor
      · rintro ⟨⟩
        exact .inr ⟨length, rest, rfl, large, rfl⟩
      · rintro (⟨⟨⟩⟩ | ⟨_, _, ⟨⟩, -, rfl⟩)
        rfl
    · rw [if_neg large]
      refine ⟨nofun, ?_⟩
      rintro (⟨⟨⟩⟩ | ⟨_, _, ⟨⟩, beyond, -⟩)
      exact (large beyond).elim

/-- **A number that is only looked at** is the one that is read, with as many bytes as its size. -/
theorem peek_eq (input : Bytes) :
    peek input = (read input).map fun found => (found.1, size found.1) := by
  unfold peek
  cases first : read input with
  | error problem => rfl
  | ok found =>
    obtain ⟨value, rest⟩ := found
    obtain ⟨-, rfl⟩ := read_eq_ok_iff.mp first
    show Except.ok (value, _) = Except.ok (value, _)
    rw [List.length_append, Nat.add_sub_cancel, length_write]

/-! ### One form for each number -/

/-- **A compact size is an exact code.** A word is read back from what is written for it, whatever
follows, and no other input is accepted as that word; what is written has as many bytes as the size
says. An input is refused when it is empty or a word is cut off behind a marker, and, with its value,
when a whole word is wider than its value needs. The number of entries of a sequence is accepted in
the same form, up to the most that there may be, and a number that is looked at is the one that is
read, together with its size. -/
theorem widths_exact :
    (∀ input value rest,
      read input = .ok (value, rest) ↔ value < UInt64.size ∧ input = write value ++ rest) ∧
    (∀ value, (write value).length = size value) ∧
    (∀ input problem, read input = .error problem ↔ Refuses input problem) ∧
    (∀ input length rest,
      readLength input = .ok (length, rest) ↔ read input = .ok (length, rest) ∧ length ≤ maxLength) ∧
    (∀ input problem, readLength input = .error problem ↔
      Refuses input problem ∨ ∃ length rest, read input = .ok (length, rest) ∧
        maxLength < length ∧ problem = .oversizedLength length) ∧
    ∀ input, peek input = (read input).map fun found => (found.1, size found.1) :=
  ⟨fun _ _ _ => read_eq_ok_iff, length_write, fun _ _ => read_eq_error_iff,
    fun _ _ _ => readLength_eq_ok_iff, fun _ _ => readLength_eq_error_iff, peek_eq⟩

/-- The last number of two bytes and the first one of four, a word of two bytes whose value has a
shorter form, one of four bytes that is cut off, and one entry more than a sequence may have. -/
theorem widths_exact_edges :
    (0xFFFF < UInt64.size ∧ read (write 0xFFFF ++ [7]) = .ok (0xFFFF, [7])) ∧
    (0x10000 < UInt64.size ∧ read (write 0x10000 ++ [7]) = .ok (0x10000, [7])) ∧
    read [0xFD, 0xFC, 0x00, 7] = .error (.nonCanonical 0xFC) ∧
    read [0xFE, 0x00, 0x00, 0x01] = .error (.truncated 4 3) ∧
    readLength (write 0x2000001 ++ [7]) = .error (.oversizedLength 0x2000001) ∧
    peek (write 0x10000 ++ [7]) = .ok (0x10000, 5) := by
  obtain ⟨accepts, -, refuses, -, oversized, looks⟩ := widths_exact
  have last := (accepts _ 0xFFFF [7]).mpr ⟨by decide, rfl⟩
  have first := (accepts _ 0x10000 [7]).mpr ⟨by decide, rfl⟩
  have beyond := (accepts _ 0x2000001 [7]).mpr ⟨by decide, rfl⟩
  have shorter : Refuses [0xFD, 0xFC, 0x00, 7] (.nonCanonical 0xFC) :=
    .overWide .two (by decide) (by decide) [7]
  have cut : Refuses [0xFE, 0x00, 0x00, 0x01] (.truncated 4 3) := .cut .four (by decide)
  refine ⟨⟨by decide, last⟩, ⟨by decide, first⟩, (refuses _ _).mpr shorter, (refuses _ _).mpr cut,
    (oversized _ _).mpr (.inr ⟨_, _, beyond, by decide, rfl⟩), ?_⟩
  rw [looks, first]
  rfl

end Reorg.CompactSize
