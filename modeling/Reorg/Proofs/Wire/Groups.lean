/-
**The groups of a variable-length number.**

Continued bytes are digits of base 128 that run from 1 to 128, and a last byte behind them is a digit
that runs from 0 to 127. So they stand for a number, over unbounded integers, and the reader gives
this number exactly when a word holds it. Each continued byte makes what is gathered at least 128
times as large: ten of them may still lead to a word, eleven never do, so the reader refuses an
input before it has looked at more than eleven bytes.

The writer has a buffer with a place for ten groups, which it fills from the lowest group to the
highest, and both work with 64-bit words. No group is without a place, and no word wraps around
unnoticed.

* `gathered`, `spelt`: what groups stand for;
* `read_of_continued`, `read_of_last`: the reader, on every input;
* `read_cases`: what becomes of an input, and after how many bytes;
* `writeStepwise_eq`, `readStepwise_eq`: the same with words and a buffer;
* `groups_exact`: all of it, for every number and every byte string.
-/

import Mathlib.Data.List.Induction
import Mathlib.Data.Nat.Bitwise
import Mathlib.Data.Nat.Digits.Defs
import Reorg.Proofs.Wire.Sizes
import Reorg.Proofs.Wire.Takes

namespace Reorg.VarInt

open Decoder

variable {value : Nat} {byte last : UInt8} {word : UInt64} {input front rest : Bytes}

/-! ### What groups stand for -/

/-- Each of the bytes is continued. -/
def Continued (bytes : Bytes) : Prop := ∀ byte ∈ bytes, 128 ≤ byte.toNat

instance (bytes : Bytes) : Decidable (Continued bytes) :=
  List.decidableBAll (fun byte : UInt8 => 128 ≤ byte.toNat) bytes

/-- The number whose digits are continued bytes, highest first, over unbounded integers. -/
def gathered (bytes : Bytes) : Nat :=
  Nat.ofDigits 128 (bytes.map fun byte => byte.toNat % 128 + 1).reverse

/-- The number that continued bytes and a last byte stand for, over unbounded integers. -/
def spelt (front : Bytes) (last : UInt8) : Nat := 128 * gathered front + last.toNat

theorem gathered_concat :
    gathered (front ++ [byte]) = 128 * gathered front + byte.toNat % 128 + 1 := by
  rw [gathered, List.map_append, List.map_singleton, List.reverse_append, List.reverse_singleton,
    List.singleton_append, Nat.ofDigits_cons, ← gathered]
  omega

theorem continued_concat : Continued (front ++ [byte]) ↔ Continued front ∧ 128 ≤ byte.toNat := by
  simp [Continued, or_imp, forall_and]

theorem Continued.take (run : Continued front) (count : Nat) : Continued (front.take count) :=
  fun byte member => run byte (List.mem_of_mem_take member)

/-- As many continued bytes make up at least as much as digits that are all 1. -/
theorem pow_length_le (front : Bytes) : 128 ^ front.length ≤ 127 * gathered front + 1 := by
  induction front using List.reverseRecOn with
  | nil => decide
  | append_singleton front byte ih =>
    rw [gathered_concat, List.length_append, List.length_singleton, pow_succ]
    omega

/-- Eleven continued bytes make up more than a word holds. -/
theorem length_le_of_gathered (fits : gathered front ≤ maxWord) : front.length ≤ 10 := by
  have most : maxWord = 18446744073709551615 := rfl
  have grown := pow_length_le front
  by_contra long
  have power : 128 ^ 11 ≤ 128 ^ front.length :=
    Nat.pow_le_pow_right (by decide) (Nat.lt_of_not_le long)
  omega

/-- An input is continued throughout, or some byte of it is the first one that is not. -/
theorem exists_last (input : Bytes) : Continued input ∨
    ∃ front last rest, input = front ++ last :: rest ∧ Continued front ∧ last.toNat < 128 := by
  cases found : input.find? fun byte => byte.toNat < 128 with
  | none =>
    refine .inl fun byte member => ?_
    simpa using List.find?_eq_none.mp found byte member
  | some last =>
    obtain ⟨ends, front, rest, split, run⟩ := List.find?_eq_some_iff_append.mp found
    refine .inr ⟨front, last, rest, split, fun byte member => ?_, by simpa using ends⟩
    simpa using run byte member

/-! ### What is read -/

/-- **Continued bytes** bring the reader to where the next group counts from, when a word holds it. -/
theorem read_append (run : Continued front) (rest : Bytes) :
    read (front ++ rest) =
      if gathered front ≤ maxWord then readBehind (gathered front) rest
      else .error .varIntOverflow := by
  induction front using List.reverseRecOn generalizing rest with
  | nil => rfl
  | append_singleton front byte ih =>
    obtain ⟨run, continued⟩ := continued_concat.mp run
    rw [List.append_assoc, List.singleton_append, ih run, readBehind_of_continued continued,
      gathered_concat]
    by_cases small : gathered front ≤ maxWord
    · rw [if_pos small]
    · rw [if_neg small, if_neg (by omega)]

/-- **An input that is continued throughout** is truncated, or too large already. -/
theorem read_of_continued (run : Continued input) :
    read input = .error (if gathered input ≤ maxWord then .truncated 1 0 else .varIntOverflow) := by
  have whole := read_append run []
  rw [List.append_nil] at whole
  rw [whole]
  split <;> rfl

/-- **Continued bytes and a last byte** are read as the number that they stand for, when a word holds
it. -/
theorem read_of_last (run : Continued front) (ends : last.toNat < 128) (rest : Bytes) :
    read (front ++ last :: rest) =
      if spelt front last ≤ maxWord then .ok (spelt front last, rest)
      else .error .varIntOverflow := by
  rw [read_append run, readBehind_of_last ends, ← spelt]
  by_cases small : gathered front ≤ maxWord
  · rw [if_pos small]
  · have large : maxWord < spelt front last := by
      unfold spelt
      omega
    rw [if_neg small, if_neg (Nat.not_le.mpr large)]

example : read [0x80, 0x49] = .ok (201, []) := by decide

/-- **A variable-length number is accepted** in the form in which it is written, and in no other. -/
theorem read_eq_ok_iff :
    read input = .ok (value, rest) ↔ value < UInt64.size ∧ input = write value ++ rest :=
  takes_read.eq_ok_iff fun _ => reads_read

/-- The reader refuses an input by some first bytes, at most eleven, whatever stands behind them. -/
def Overflows (input : Bytes) : Prop :=
  ∃ front, front <+: input ∧ front.length ≤ 11 ∧
    ∀ more, read (front ++ more) = .error .varIntOverflow

theorem read_of_gathered (run : Continued front) (large : maxWord < gathered front) (rest : Bytes) :
    read (front ++ rest) = .error .varIntOverflow := by
  rw [read_append run, if_neg (Nat.not_le.mpr large)]

/-- What is gathered from continued bytes is too large after at most eleven of them. -/
theorem overflows_of_gathered (run : Continued front) (large : maxWord < gathered front)
    (rest : Bytes) : Overflows (front ++ rest) := by
  by_cases short : front.length ≤ 11
  · exact ⟨front, List.prefix_append front rest, short, read_of_gathered run large⟩
  · have eleven : (front.take 11).length = 11 := List.length_take_of_le (by omega)
    have large' : maxWord < gathered (front.take 11) := by
      by_contra fits
      have ten := length_le_of_gathered (Nat.not_lt.mp fits)
      omega
    refine ⟨front.take 11, ?_, Nat.le_of_eq eleven, read_of_gathered (run.take 11) large'⟩
    exact (List.take_prefix 11 front).trans (List.prefix_append front rest)

/-- **What becomes of an input**: a number is read, or the input ends within ten continued bytes, or
at most eleven bytes are too large for a word. -/
theorem read_cases (input : Bytes) : (∃ value rest, read input = .ok (value, rest)) ∨
    (read input = .error (.truncated 1 0) ∧ Continued input ∧ input.length ≤ 10) ∨
      Overflows input := by
  obtain run | ⟨front, last, rest, rfl, run, ends⟩ := exists_last input
  · by_cases fits : gathered input ≤ maxWord
    · refine .inr (.inl ⟨?_, run, length_le_of_gathered fits⟩)
      rw [read_of_continued run, if_pos fits]
    · have overflows := overflows_of_gathered run (Nat.not_le.mp fits) []
      rw [List.append_nil] at overflows
      exact .inr (.inr overflows)
  · by_cases fits : spelt front last ≤ maxWord
    · refine .inl ⟨spelt front last, rest, ?_⟩
      rw [read_of_last run ends, if_pos fits]
    · by_cases room : gathered front ≤ maxWord
      · -- the last byte is the one that makes the number too large
        refine .inr (.inr ⟨front ++ [last], ⟨rest, List.append_assoc _ _ _⟩, ?_, fun more => ?_⟩)
        · rw [List.length_append, List.length_singleton]
          exact Nat.succ_le_succ (length_le_of_gathered room)
        · rw [List.append_assoc, List.singleton_append, read_of_last run ends, if_neg fits]
      · exact .inr (.inr (overflows_of_gathered run (Nat.not_le.mp room) (last :: rest)))

/-! ### Writing with words and a buffer -/

/-- The number of places in the buffer of the writer. -/
def bufferSize : Nat := 10

/-- The groups of a word, lowest first, put into the places of a buffer that are left: the lowest
group with a mark of its own, the others marked as continued. There are none when a group finds no
place. -/
def fill : (places : Nat) → (mark : UInt8) → (word : UInt64) → Option Bytes
  | 0, _, _ => none
  | places + 1, mark, word =>
    let group := (word &&& 0x7F).toUInt8 ||| mark
    if word ≤ 0x7F then some [group]
    else (fill places 0x80 (word >>> 7 - 1)).map (group :: ·)

/-- Writing with 64-bit words and a buffer, from the lowest group to the highest. -/
def writeStepwise (word : UInt64) : Option Bytes :=
  (fill bufferSize 0 word).map List.reverse

theorem size_le {width : Nat} (small : value < 128 ^ (width + 1)) : size value ≤ width + 1 := by
  induction value using size.induct generalizing width with
  | case1 value single =>
    rw [size, if_pos single]
    exact Nat.le_add_left 1 width
  | case2 value large ih =>
    rw [size, if_neg large]
    cases width with
    | zero => omega
    | succ width =>
      rw [pow_succ] at small
      exact Nat.succ_le_succ (ih (by omega))

/-- **No word has more groups** than the buffer has places. -/
theorem size_le_bufferSize (small : value < UInt64.size) : size value ≤ bufferSize :=
  size_le (Nat.lt_trans small (by decide))

theorem toUInt8_and_low (word : UInt64) :
    (word &&& 0x7F).toUInt8 = UInt8.ofNat (word.toNat % 128) := by
  have low : (word &&& 0x7F).toNat = word.toNat % 128 :=
    (UInt64.toNat_and word 0x7F).trans (Nat.and_two_pow_sub_one_eq_mod word.toNat 7)
  apply UInt8.toNat_inj.mp
  rw [UInt64.toNat_toUInt8, low, UInt8.toNat_ofNat']

theorem ofNat_or_high {digit : Nat} (small : digit < 128) :
    UInt8.ofNat digit ||| 0x80 = UInt8.ofNat (128 + digit) := by
  have marked : 128 + digit = 128 ||| digit := Nat.two_pow_add_eq_or_of_lt (i := 7) small 1
  rw [marked, UInt8.ofNat_or, UInt8.or_comm]
  rfl

/-- The next word has the groups above the lowest one, and counts them from one less. -/
theorem toNat_next (large : ¬ word ≤ 0x7F) : (word >>> 7 - 1).toNat = word.toNat / 128 - 1 := by
  have most : 127 < word.toNat := Nat.not_le.mp large
  have shifted : (word >>> 7).toNat = word.toNat / 128 := by
    rw [UInt64.toNat_shiftRight]
    exact Nat.shiftRight_eq_div_pow word.toNat 7
  have one : (1 : UInt64) ≤ word >>> 7 := by
    rw [UInt64.le_iff_toNat_le, shifted]
    show 1 ≤ _
    omega
  rw [UInt64.toNat_sub_of_le _ _ one, shifted]
  rfl

/-- **With a place for each group**, the buffer is left with the groups, lowest first. -/
theorem fill_eq {places : Nat} {mark : UInt8} (room : size word.toNat ≤ places) :
    fill places mark word = some (before (word.toNat / 128) ++
      [UInt8.ofNat (word.toNat % 128) ||| mark]).reverse := by
  induction places generalizing mark word with
  | zero =>
    rw [size] at room
    split at room <;> omega
  | succ places ih =>
    rw [fill, toUInt8_and_low, List.reverse_concat]
    by_cases single : word ≤ 0x7F
    · have low : word.toNat ≤ 127 := single
      have none : word.toNat / 128 = 0 := by omega
      rw [if_pos single, none]
      rfl
    · have large : 127 < word.toNat := Nat.not_le.mp single
      have above : size (word >>> 7 - 1).toNat ≤ places := by
        rw [size, if_neg (by omega), ← toNat_next single] at room
        exact Nat.le_of_succ_le_succ room
      have digit : (word >>> 7 - 1).toNat % 128 < 128 := Nat.mod_lt _ (by decide)
      have groups : 128 * ((word >>> 7 - 1).toNat / 128) + (word >>> 7 - 1).toNat % 128 + 1 =
          word.toNat / 128 := by
        rw [Nat.div_add_mod, toNat_next single]
        omega
      rw [if_neg single, ih above, ofNat_or_high digit, ← before_eq_before digit, groups]
      rfl

/-- **The buffer of the writer is large enough**, and what it is left with is what is written. -/
theorem writeStepwise_eq (word : UInt64) : writeStepwise word = some (write word.toNat) := by
  have digit : word.toNat % 128 < 128 := Nat.mod_lt _ (by decide)
  rw [writeStepwise, fill_eq (size_le_bufferSize word.toNat_lt_size), UInt8.or_zero,
    ← write_eq_before digit, Nat.div_add_mod, Option.map_some, List.reverse_reverse]

/-! ### Reading with words -/

/-- Reading the rest of a number with 64-bit words: a shift drops the bits that the word has no room
for, and adding one may wrap around to zero. -/
def readStepwiseBehind (word : UInt64) : Decoder UInt64
  | [] => .error (.truncated 1 0)
  | byte :: rest =>
    if word > UInt64.ofNat maxWord >>> 7 then
      .error .varIntOverflow
    else
      let extended := word <<< 7 ||| (byte &&& 0x7F).toUInt64
      if byte &&& 0x80 = 0 then
        .ok (extended, rest)
      else if extended + 1 = 0 then
        .error .varIntOverflow
      else
        readStepwiseBehind (extended + 1) rest

/-- Reading with 64-bit words. -/
def readStepwise : Decoder UInt64 := readStepwiseBehind 0

theorem toNat_and_low (byte : UInt8) : (byte &&& 0x7F).toNat = byte.toNat % 128 :=
  (UInt8.toNat_and byte 0x7F).trans (Nat.and_two_pow_sub_one_eq_mod byte.toNat 7)

theorem and_high_eq_zero_iff : byte &&& 0x80 = 0 ↔ byte.toNat < 128 := by
  have small := byte.toNat_lt
  rw [← UInt8.toNat_inj, UInt8.toNat_and]
  show byte.toNat &&& 2 ^ 7 = 0 ↔ _
  rw [Nat.and_two_pow, Nat.mul_eq_zero, or_iff_left (by decide), Bool.toNat_eq_zero,
    Nat.testBit_eq_decide_div_mod_eq, decide_eq_false_iff_not]
  omega

/-- **A shift drops nothing** when the number so far leaves room for a group. -/
theorem toNat_extended (room : word.toNat ≤ maxWord / 128) (byte : UInt8) :
    (word <<< 7 ||| (byte &&& 0x7F).toUInt64).toNat = 128 * word.toNat + byte.toNat % 128 := by
  have most : maxWord = 18446744073709551615 := rfl
  have group : byte.toNat % 128 < 2 ^ 7 := Nat.mod_lt _ (by decide)
  have shifted : (word <<< 7).toNat = 2 ^ 7 * word.toNat := by
    rw [UInt64.toNat_shiftLeft]
    show word.toNat <<< 7 % _ = _
    rw [Nat.shiftLeft_eq, Nat.mul_comm]
    exact Nat.mod_eq_of_lt (by omega)
  rw [UInt64.toNat_or, UInt8.toNat_toUInt64, toNat_and_low, shifted,
    ← Nat.two_pow_add_eq_or_of_lt group]

/-- Adding one to a word wraps around only at the largest one. -/
theorem add_one_eq_zero_iff : word + 1 = 0 ↔ word.toNat = maxWord := by
  have most : maxWord = 18446744073709551615 := rfl
  have small := word.toNat_lt
  rw [← UInt64.toNat_inj, UInt64.toNat_add, most]
  show (word.toNat + 1) % 2 ^ 64 = 0 ↔ _
  omega

theorem toNat_add_one (room : word.toNat ≠ maxWord) : (word + 1).toNat = word.toNat + 1 := by
  have most : maxWord = 18446744073709551615 := rfl
  have small := word.toNat_lt
  rw [UInt64.toNat_add]
  show (word.toNat + 1) % 2 ^ 64 = _
  omega

/-- One step with words is one step over unbounded integers. -/
theorem readStepwiseBehind_eq (word : UInt64) (input : Bytes) :
    readStepwiseBehind word input =
      (readBehind word.toNat input).map fun found => (UInt64.ofNat found.1, found.2) := by
  induction input generalizing word with
  | nil => rfl
  | cons byte input ih =>
    have limit : word > UInt64.ofNat maxWord >>> 7 ↔ word.toNat > maxWord / 128 := Iff.rfl
    rw [readStepwiseBehind, readBehind]
    simp only [limit, and_high_eq_zero_iff, add_one_eq_zero_iff]
    by_cases room : word.toNat > maxWord / 128
    · rw [if_pos room, if_pos room]
      rfl
    · have same := toNat_extended (Nat.not_lt.mp room) byte
      rw [if_neg room, if_neg room, ← same]
      generalize word <<< 7 ||| (byte &&& 0x7F).toUInt64 = extended
      by_cases ends : byte.toNat < 128
      · rw [if_pos ends, if_pos ends]
        show _ = Except.ok (UInt64.ofNat _, _)
        rw [UInt64.ofNat_toNat]
      · rw [if_neg ends, if_neg ends]
        by_cases full : extended.toNat = maxWord
        · rw [if_pos full, if_pos full]
          rfl
        · rw [if_neg full, if_neg full, ih, toNat_add_one full]

/-- **Reading with words** is reading over unbounded integers. -/
theorem readStepwise_eq (input : Bytes) :
    readStepwise input = (read input).map fun found => (UInt64.ofNat found.1, found.2) :=
  readStepwiseBehind_eq 0 input

/-! ### One form for each number -/

/-- **A variable-length number is an exact code.** A word is read back from what is written for it,
whatever follows, and no other input is accepted as that word. What is written has as many bytes as
the size says, at most as many as the buffer has places, so the writer that fills the buffer never
overruns it. Every other input is refused: because it ends within ten continued bytes, or, by at
most eleven bytes, because no word holds the number. What groups are read as is the number that they
stand for over unbounded integers, exactly when a word holds it, and the reader that works with
words, which could wrap around, gives the same. -/
theorem groups_exact :
    (∀ value < UInt64.size, ∀ rest, read (write value ++ rest) = .ok (value, rest)) ∧
    (∀ value < UInt64.size, (write value).length = size value ∧ size value ≤ bufferSize) ∧
    (∀ word, writeStepwise word = some (write word.toNat)) ∧
    (∀ input value rest, read input = .ok (value, rest) →
      value < UInt64.size ∧ input = write value ++ rest) ∧
    (∀ input, (∃ value rest, read input = .ok (value, rest)) ∨
      (read input = .error (.truncated 1 0) ∧ Continued input ∧ input.length ≤ 10) ∨
        Overflows input) ∧
    (∀ front last rest, Continued front → last.toNat < 128 → read (front ++ last :: rest) =
      if spelt front last ≤ maxWord then .ok (spelt front last, rest)
      else .error .varIntOverflow) ∧
    ∀ input, readStepwise input = (read input).map fun found => (UInt64.ofNat found.1, found.2) :=
  ⟨fun _ small => reads_read small, fun value small => ⟨length_write value, size_le_bufferSize small⟩,
    writeStepwise_eq, fun _ _ _ => read_eq_ok_iff.mp, read_cases,
    fun _ _ rest run ends => read_of_last run ends rest, readStepwise_eq⟩

/-- The largest word in its ten bytes, and the number behind it, which no word holds. -/
theorem groups_exact_edges :
    (maxWord < UInt64.size ∧ size maxWord ≤ bufferSize ∧
      read (write maxWord ++ [7]) = .ok (maxWord, [7])) ∧
    (Continued (0x80 :: List.replicate 8 0xFE) ∧ (0x7F : UInt8).toNat < 128 ∧
      read (0x80 :: List.replicate 8 0xFE ++ 0x7F :: [7]) = .ok (maxWord, [7]) ∧
      0x80 :: List.replicate 8 0xFE ++ 0x7F :: [7] = write maxWord ++ [7]) ∧
    Continued (0x80 :: List.replicate 7 0xFE ++ [0xFF]) ∧ (0x00 : UInt8).toNat < 128 ∧
      read (0x80 :: List.replicate 7 0xFE ++ [0xFF] ++ 0x00 :: [7]) = .error .varIntOverflow := by
  obtain ⟨back, sized, -, taken, -, numbers, -⟩ := groups_exact
  have small : maxWord < UInt64.size := by decide
  have run : Continued (0x80 :: List.replicate 8 0xFE) := by decide
  have run' : Continued (0x80 :: List.replicate 7 0xFE ++ [0xFF]) := by decide
  have largest := numbers _ 0x7F [7] run (by decide)
  have larger := numbers _ 0x00 [7] run' (by decide)
  have number : spelt (0x80 :: List.replicate 8 0xFE) 0x7F = maxWord := by decide
  have number' : ¬ spelt (0x80 :: List.replicate 7 0xFE ++ [0xFF]) 0x00 ≤ maxWord := by decide
  rw [number, if_pos (Nat.le_refl maxWord)] at largest
  rw [if_neg number'] at larger
  exact ⟨⟨small, (sized _ small).2, back _ small [7]⟩,
    ⟨run, by decide, largest, (taken _ _ _ largest).2⟩, run', by decide, larger⟩

end Reorg.VarInt
