/-
**Numbers on the wire.**

Compact sizes, variable-length numbers and packed amounts are read back as they were written, as far
as the words that carry them reach. Each proof follows the writer: which of its forms a number gets,
and what the reader does with the first byte of that form.

* `CompactSize.readLength_of_read`, `CompactSize.reads_readLength`: the number of entries of a
  sequence;
* `VarInt.readBehind_of_continued`, `VarInt.readBehind_of_last`: what the reader does with a byte;
* `VarInt.reads_read`: a number below the largest 64-bit word;
* `Amount.unpack_pack`, `Amount.unpackWord_packWord`: a packed amount.
-/

import Mathlib.Logic.Basic
import Reorg.Amount
import Reorg.Proofs.Wire.Reads
import Reorg.Wire.VarInt

namespace Reorg

open Decoder

/-! ### Compact sizes -/

namespace CompactSize

theorem write_pos (value : Nat) : 0 < (write value).length := by
  rw [write]
  repeat' split
  all_goals simp

/-- **A whole word behind a marker** is read, or refused with its value when it is below the least one
that needs its width. -/
theorem readWide_append {width least : Nat} {bytes : Bytes} (long : bytes.length = width)
    (rest : Bytes) : readWide width least (bytes ++ rest) =
      if ofLittleEndian bytes < least then .error (.nonCanonical (ofLittleEndian bytes))
      else .ok (ofLittleEndian bytes, rest) := by
  have taken : take width (bytes ++ rest) = .ok (bytes, rest) := Reads.take long rest
  show (take width _).bind _ = _
  rw [taken]
  show (if _ then throw _ else pure _ : Decoder Nat) rest = _
  split <;> rfl

/-- A word that is cut off behind a marker is refused. -/
theorem readWide_of_short {width least : Nat} {input : Bytes} (short : input.length < width) :
    readWide width least input = .error (.truncated width input.length) := by
  have refused : take width input = .error (.truncated width input.length) :=
    if_pos (Bytes.shorterThan_iff.mpr short)
  show (take width _).bind _ = _
  rw [refused]
  rfl

/-- A word behind a marker is read back when its width holds it and it needs this width. -/
theorem reads_readWide {width least value : Nat} (needed : least ≤ value)
    (fits : value < Nat.pow 256 width) :
    Reads (readWide width least) (littleEndian width value) value := by
  intro rest
  rw [readWide_append (littleEndian_length width value), ofLittleEndian_littleEndian,
    Nat.mod_eq_of_lt fits, if_neg (Nat.not_lt.mpr needed)]

theorem reads_read {value : Nat} (fits : value < UInt64.size) :
    Reads read (write value) value := by
  rw [write]
  split
  · next small =>
    intro rest
    have low : (UInt8.ofNat value).toNat = value := by simp; omega
    have unmarked : ∀ marker : UInt8, 0xFD ≤ marker.toNat → UInt8.ofNat value ≠ marker := by
      intro marker large same
      rw [← same, low] at large
      omega
    show (if _ then _ else _ : Decoder Nat) rest = _
    rw [if_neg (unmarked _ (by decide)), if_neg (unmarked _ (by decide)),
      if_neg (unmarked _ (by decide)), low]
    rfl
  · next one =>
    split
    · next two => exact (Reads.byte 0xFD).bind (reads_readWide (Nat.not_lt.mp one) two)
    · next two =>
      split
      · next four => exact (Reads.byte 0xFE).bind (reads_readWide (Nat.not_lt.mp two) four)
      · next four => exact (Reads.byte 0xFF).bind (reads_readWide (Nat.not_lt.mp four) fits)

/-- The number of entries of a sequence is the number in front of it, when it is not too large. -/
theorem readLength_of_read {input rest : Bytes} {length : Nat}
    (first : read input = .ok (length, rest)) : readLength input =
      if length > maxLength then .error (.oversizedLength length) else .ok (length, rest) := by
  show (read input).bind _ = _
  rw [first]
  show (if _ then throw _ else pure _ : Decoder Nat) rest = _
  split <;> rfl

/-- A sequence without a number in front of it is refused as that number is. -/
theorem readLength_of_error {input : Bytes} {problem : FormatError}
    (failed : read input = .error problem) : readLength input = .error problem := by
  show (read input).bind _ = _
  rw [failed]
  rfl

theorem readLength_eq_ok_iff {input rest : Bytes} {length : Nat} :
    readLength input = .ok (length, rest) ↔
      read input = .ok (length, rest) ∧ length ≤ maxLength := by
  cases first : read input with
  | error problem =>
    rw [readLength_of_error first]
    exact ⟨nofun, fun both => nomatch both.1⟩
  | ok found =>
    rw [readLength_of_read first]
    by_cases large : found.1 > maxLength
    · rw [if_pos large]
      refine ⟨nofun, ?_⟩
      rintro ⟨⟨⟩, fits⟩
      exact (Nat.not_lt.mpr fits large).elim
    · rw [if_neg large]
      refine ⟨?_, And.left⟩
      rintro ⟨⟩
      exact ⟨rfl, Nat.not_lt.mp large⟩

/-- **The number of entries of a sequence is read back**, up to the most that there may be. -/
theorem reads_readLength {length : Nat} (fits : length ≤ maxLength) :
    Reads readLength (write length) length := by
  intro rest
  have small : maxLength < UInt64.size := by decide
  rw [readLength_of_read (reads_read (Nat.lt_of_le_of_lt fits small) rest),
    if_neg (Nat.not_lt.mpr fits)]

end CompactSize

/-! ### Variable-length numbers -/

namespace VarInt

theorem write_pos (value : Nat) : 0 < (write value).length := by
  rw [write]
  split <;> simp

/-- **A continued byte** extends a number, and the next group counts from one, as long as a word
holds where it counts from. -/
theorem readBehind_of_continued {value : Nat} {byte : UInt8} {rest : Bytes}
    (continued : 128 ≤ byte.toNat) :
    readBehind value (byte :: rest) =
      if 128 * value + byte.toNat % 128 + 1 ≤ maxWord then
        readBehind (128 * value + byte.toNat % 128 + 1) rest
      else .error .varIntOverflow := by
  -- the largest word ends in a full group, so both tests together are one comparison with it
  have most : maxWord = 128 * (maxWord / 128) + 127 := rfl
  have group : byte.toNat % 128 < 128 := Nat.mod_lt _ (by decide)
  rw [readBehind]
  by_cases room : value > maxWord / 128
  · rw [if_pos room, if_neg (by omega)]
  · rw [if_neg room]
    dsimp only
    rw [if_neg (Nat.not_lt.mpr continued)]
    by_cases full : 128 * value + byte.toNat % 128 = maxWord
    · rw [if_pos full, if_neg (by omega)]
    · rw [if_neg full, if_pos (by omega)]

/-- **A last byte** ends a number, as long as a word holds it. -/
theorem readBehind_of_last {value : Nat} {byte : UInt8} {rest : Bytes} (last : byte.toNat < 128) :
    readBehind value (byte :: rest) =
      if 128 * value + byte.toNat ≤ maxWord then .ok (128 * value + byte.toNat, rest)
      else .error .varIntOverflow := by
  have most : maxWord = 128 * (maxWord / 128) + 127 := rfl
  rw [readBehind]
  dsimp only
  rw [if_pos last, Nat.mod_eq_of_lt last]
  by_cases room : value > maxWord / 128
  · rw [if_pos room, if_neg (by omega)]
  · rw [if_neg room, if_pos (by omega)]

/-- What is written for a continued group is read as this group. -/
theorem readBehind_continued {value digit : Nat} {rest : Bytes} (small : digit < 128)
    (fits : 128 * value + digit < maxWord) :
    readBehind value (UInt8.ofNat (128 + digit) :: rest) =
      readBehind (128 * value + digit + 1) rest := by
  have byte : (UInt8.ofNat (128 + digit)).toNat = 128 + digit := by simp; omega
  have group : (128 + digit) % 128 = digit := by omega
  rw [readBehind_of_continued (by omega), byte, group, if_pos (Nat.succ_le_of_lt fits)]

/-- What is written for a last group is read as this group. -/
theorem readBehind_last {value digit : Nat} {rest : Bytes} (small : digit < 128)
    (fits : 128 * value + digit ≤ maxWord) :
    readBehind value (UInt8.ofNat digit :: rest) = .ok (128 * value + digit, rest) := by
  have byte : (UInt8.ofNat digit).toNat = digit := by simp; omega
  rw [readBehind_of_last (by omega), byte, if_pos fits]

/-- The continued bytes of a number leave the reader where its last group begins. -/
theorem readBehind_leading {value : Nat} {rest : Bytes} (fits : value < maxWord) :
    readBehind 0 (leading value ++ rest) = readBehind (value + 1) rest := by
  induction value using leading.induct generalizing rest with
  | case1 value small =>
    have single : 128 * 0 + value = value := Nat.zero_add value
    rw [leading, if_pos small, List.singleton_append, readBehind_continued small (by omega), single]
  | case2 value large ih =>
    have group : value % 128 < 128 := Nat.mod_lt value (by decide)
    have counted : value / 128 - 1 + 1 = value / 128 := by omega
    have whole : 128 * (value / 128) + value % 128 = value := Nat.div_add_mod value 128
    rw [leading, if_neg large, List.append_assoc, ih (by omega), counted, List.singleton_append,
      readBehind_continued group (by omega), whole]

/-- **A variable-length number is read back** when it fits a 64-bit word. -/
theorem reads_read {value : Nat} (fits : value < UInt64.size) : Reads read (write value) value := by
  have most : value ≤ maxWord := Nat.le_sub_one_of_lt fits
  intro rest
  rw [write, read]
  split
  · next small =>
    have single : 128 * 0 + value = value := Nat.zero_add value
    rw [List.singleton_append, readBehind_last small (by omega), single]
  · next large =>
    have group : value % 128 < 128 := Nat.mod_lt value (by decide)
    have counted : value / 128 - 1 + 1 = value / 128 := by omega
    have whole : 128 * (value / 128) + value % 128 = value := Nat.div_add_mod value 128
    rw [List.append_assoc, readBehind_leading (by omega), counted, List.singleton_append,
      readBehind_last group (by omega), whole]

theorem agreeIff_write {value value' : Nat} (fits : value < UInt64.size)
    (fits' : value' < UInt64.size) : AgreeIff (write value) (write value') (value = value') :=
  (reads_read fits).agreeIff (reads_read fits') (congrArg write)

theorem reads_readWord32 {value : Nat} (fits : value < UInt32.size) :
    Reads readWord32 (write value) value := by
  intro rest
  have wide : value < UInt64.size := Nat.lt_trans fits (by decide)
  show (read _).bind _ = _
  rw [reads_read wide rest]
  show (if _ then _ else _ : Decoder Nat) rest = _
  rw [if_pos fits]
  rfl

end VarInt

/-! ### Packed amounts -/

namespace Amount

/-- What stripping takes off and leaves: below the limit, the number left does not end in a zero. -/
theorem stripZeros_spec (limit value : Nat) :
    value = (stripZeros limit value).1 * Nat.pow 10 (stripZeros limit value).2 ∧
      (stripZeros limit value).2 ≤ limit ∧
        ((stripZeros limit value).2 < limit → (stripZeros limit value).1 % 10 ≠ 0) := by
  induction limit generalizing value with
  | zero =>
    refine ⟨(Nat.mul_one value).symm, Nat.le_refl 0, fun below => ?_⟩
    exact absurd below (Nat.not_lt_zero _)
  | succ limit ih =>
    rw [stripZeros]
    split
    · next ends =>
      obtain ⟨whole, most, stripped⟩ := ih (value / 10)
      refine ⟨?_, Nat.succ_le_succ most, fun below => stripped (Nat.lt_of_succ_lt_succ below)⟩
      calc value = value / 10 * 10 := (Nat.div_mul_cancel (Nat.dvd_of_mod_eq_zero ends)).symm
        _ = (stripZeros limit (value / 10)).1 * Nat.pow 10 (stripZeros limit (value / 10)).2 * 10 :=
          congrArg (· * 10) whole
        _ = _ := Nat.mul_assoc _ _ _
    · next nonzero => exact ⟨(Nat.mul_one value).symm, Nat.zero_le _, fun _ => nonzero⟩

/-- **A packed number is unpacked again.** -/
theorem unpack_pack (value : Nat) : unpack (pack value) = value := by
  by_cases nothing : value = 0
  · rw [nothing]
    rfl
  obtain ⟨whole, most, stripped⟩ := stripZeros_spec 9 value
  rw [pack, if_neg nothing]
  generalize stripZeros 9 value = split at whole most stripped
  obtain ⟨left, zeros⟩ := split
  have some : left ≠ 0 := by
    rintro rfl
    exact nothing (whole.trans (Nat.zero_mul _))
  simp only at whole most stripped ⊢
  by_cases below : zeros < 9
  · have last := stripped below
    rw [if_pos below, unpack, if_neg (Nat.succ_ne_zero _), Nat.add_sub_cancel]
    have digit : (10 * (9 * (left / 10) + (left % 10 - 1)) + zeros) % 10 = zeros := by omega
    have digits : (10 * (9 * (left / 10) + (left % 10 - 1)) + zeros) / 10 =
      9 * (left / 10) + (left % 10 - 1) := by omega
    have again : 10 * ((9 * (left / 10) + (left % 10 - 1)) / 9) +
      (9 * (left / 10) + (left % 10 - 1)) % 9 + 1 = left := by omega
    simp only [digit, digits, again]
    rw [if_pos below, ← whole]
  · obtain rfl : zeros = 9 := by omega
    have digit : (10 * (left - 1) + 10 - 1) % 10 = 9 := by omega
    have digits : (10 * (left - 1) + 10 - 1) / 10 = left - 1 := by omega
    rw [if_neg below, unpack, if_neg (Nat.succ_ne_zero _)]
    simp only [digit, digits]
    rw [if_neg below, Nat.sub_add_cancel (Nat.pos_of_ne_zero some), whole]

/-- Packing makes a number at most one decimal place longer. -/
theorem pack_le (value : Nat) : pack value ≤ 10 * value := by
  by_cases nothing : value = 0
  · rw [nothing]
    exact Nat.le_refl 0
  obtain ⟨whole, most, stripped⟩ := stripZeros_spec 9 value
  rw [pack, if_neg nothing]
  generalize stripZeros 9 value = split at whole most stripped
  obtain ⟨left, zeros⟩ := split
  have shorter : left ≤ value := by
    rw [whole]
    exact Nat.le_mul_of_pos_right left (Nat.pow_pos (by decide))
  have some : left ≠ 0 := by
    rintro rfl
    exact nothing (whole.trans (Nat.zero_mul _))
  simp only at stripped ⊢
  by_cases below : zeros < 9
  · have last := stripped below
    rw [if_pos below]
    omega
  · rw [if_neg below]
    omega

/-- A word whose packed form is a word is unpacked to itself. -/
theorem unpackWord_packWord {word : Nat} (small : word < UInt64.size)
    (packs : pack word < UInt64.size) : unpackWord (packWord word) = word := by
  rw [packWord, Nat.mod_eq_of_lt packs, unpackWord, unpack_pack, Nat.mod_eq_of_lt small]

/-- An amount in range is a number that is not negative and not more than all the money. -/
theorem bounds_of_inRange {amount : Int} (inside : inRange amount = true) :
    0 ≤ amount ∧ amount ≤ maxMoney := by
  rw [inRange, Bool.and_eq_true, decide_eq_true_eq, decide_eq_true_eq] at inside
  exact inside

theorem packWord_lt (word : Nat) : packWord word < UInt64.size := Nat.mod_lt _ (by decide)

end Amount

end Reorg
