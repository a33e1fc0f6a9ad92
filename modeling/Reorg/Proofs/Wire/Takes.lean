/-
**What a decoder takes off a byte string.**

A decoder takes some bytes off the front of its input and leaves the rest; what it took is one of
the ways to spell the value that it gives. For numbers there is one way only, the one that is
written: a compact size has no longer form, and in a variable-length number each continued byte adds
one before the next group, so that no two strings of groups stand for the same number.

* `Decoder.Takes`: the fact, and `Takes.bind`, `Takes.pure`, `Takes.entries`: how it composes;
* `Takes.eq_ok_iff`: a decoder that also reads what is written accepts nothing else;
* `CompactSize.takes_read`, `VarInt.takes_read`: numbers are taken as they are written;
* `takes_digest`: so are digests.
-/

import Reorg.Proofs.Fallible
import Reorg.Proofs.Wire.Numbers
import Reorg.Hash.Digest

namespace Reorg

open Fallible

namespace Decoder

variable {α β : Type} {decoder : Decoder α} {next : α → Decoder β} {spelt : α → Bytes → Prop}
  {spelt' : β → Bytes → Prop} {value : α} {count : Nat}

/-- What the decoder takes off its input spells the value that it gives. -/
def Takes (decoder : Decoder α) (spelt : α → Bytes → Prop) : Prop :=
  ∀ input value rest, decoder input = .ok (value, rest) →
    ∃ taken, input = taken ++ rest ∧ spelt value taken

/-! ### Composition -/

theorem Takes.pure (here : spelt value []) : Takes (pure value) spelt := by
  rintro input _ rest ⟨⟩
  exact ⟨[], rfl, here⟩

theorem Takes.throw {problem : FormatError} : Takes (throw problem) spelt := by
  rintro input value rest ⟨⟩

theorem Takes.bind (first : Takes decoder spelt) (second : ∀ value taken, spelt value taken →
    Takes (next value) fun result more => spelt' result (taken ++ more)) :
    Takes (decoder >>= next) spelt' := by
  intro input result rest read
  obtain ⟨⟨value, between⟩, before, after⟩ := bind_eq_ok_iff.mp read
  obtain ⟨taken, rfl, spelling⟩ := first input value between before
  obtain ⟨more, rfl, whole⟩ := second value taken spelling between result rest after
  exact ⟨taken ++ more, (List.append_assoc _ _ _).symm, whole⟩

theorem Takes.mono {spelt' : α → Bytes → Prop} (takes : Takes decoder spelt)
    (weaker : ∀ value taken, spelt value taken → spelt' value taken) : Takes decoder spelt' := by
  intro input value rest read
  obtain ⟨taken, split, spelling⟩ := takes input value rest read
  exact ⟨taken, split, weaker value taken spelling⟩

/-- **A decoder that takes what is written**, and reads it back, accepts nothing else. -/
theorem Takes.eq_ok_iff {fits : α → Prop} {write : α → Bytes}
    (takes : Takes decoder fun value taken => fits value ∧ taken = write value)
    (reads : ∀ value, fits value → Reads decoder (write value) value) {input rest : Bytes} :
    decoder input = .ok (value, rest) ↔ fits value ∧ input = write value ++ rest := by
  constructor
  · intro read
    obtain ⟨taken, rfl, within, rfl⟩ := takes input value rest read
    exact ⟨within, rfl⟩
  · rintro ⟨within, rfl⟩
    exact reads value within rest

/-- A last step that reads nothing more. -/
theorem Takes.map {finish : α → β} (first : Takes decoder spelt)
    (spells : ∀ value taken, spelt value taken → spelt' (finish value) taken) :
    Takes (decoder >>= fun value => Pure.pure (finish value)) spelt' :=
  first.bind fun value taken spelling => .pure ((List.append_nil taken).symm ▸
    spells value taken spelling)

/-- A first step that only looks at what follows. -/
theorem Takes.after_check {more : Decoder β} (takes : Takes more spelt') :
    Takes (checkCount count >>= fun _ => more) spelt' := by
  intro input result rest read
  obtain ⟨⟨_, same⟩, checked, after⟩ := bind_eq_ok_iff.mp read
  rw [checkCount] at checked
  split at checked
  · cases checked
  · cases checked
    exact takes _ result rest after

/-- Entries are taken one after the other, each as one of its spellings. -/
theorem Takes.entries {σ : Type} {bytes : σ → Bytes} {meaning : σ → α}
    (each : Takes decoder fun value taken => ∃ spelling, bytes spelling = taken ∧
      meaning spelling = value) :
    Takes (decoder.entries count) fun values taken => ∃ spellings : List σ,
      spellings.length = count ∧ spellings.flatMap bytes = taken ∧
        spellings.map meaning = values := by
  induction count with
  | zero => exact .pure ⟨[], rfl, rfl, rfl⟩
  | succ count ih =>
    rw [entries_succ]
    refine each.bind ?_
    rintro _ _ ⟨spelling, rfl, rfl⟩
    refine ih.map ?_
    rintro _ _ ⟨spellings, long, rfl, rfl⟩
    exact ⟨spelling :: spellings, congrArg (· + 1) long, rfl, rfl⟩

/-! ### Bytes and words -/

theorem takes_byte : Takes byte fun value taken => taken = [value] := by
  intro input value rest read
  cases input with
  | nil => cases read
  | cons first behind =>
    cases read
    exact ⟨[value], rfl, rfl⟩

theorem takes_take : Takes (take count) fun value taken => taken = value ∧ value.length = count := by
  intro input value rest read
  obtain ⟨long, split⟩ := take_eq_ok_iff.mp read
  exact ⟨value, split, rfl, long⟩

end Decoder

/-- The bytes of the word that some bytes stand for are these bytes. -/
theorem littleEndian_ofLittleEndian {width : Nat} {bytes : Bytes} (long : bytes.length = width) :
    littleEndian width (ofLittleEndian bytes) = bytes := by
  induction bytes generalizing width with
  | nil => rw [← long]; rfl
  | cons byte bytes ih =>
    subst long
    have small : byte.toNat < 256 := byte.toNat_lt
    have low : UInt8.ofNat (byte.toNat + 256 * ofLittleEndian bytes) = byte := by
      apply UInt8.toNat_inj.mp
      rw [UInt8.toNat_ofNat']
      omega
    have high : (byte.toNat + 256 * ofLittleEndian bytes) / 256 = ofLittleEndian bytes := by omega
    rw [List.length_cons, ofLittleEndian, littleEndian, low, high, ih rfl]

theorem ofLittleEndian_lt (bytes : Bytes) : ofLittleEndian bytes < Nat.pow 256 bytes.length := by
  induction bytes with
  | nil => decide
  | cons byte bytes ih =>
    have small : byte.toNat < 256 := byte.toNat_lt
    have wider : Nat.pow 256 (bytes.length + 1) = 256 * Nat.pow 256 bytes.length :=
      Nat.mul_comm _ _
    rw [ofLittleEndian, List.length_cons, wider]
    omega

/-- An input that is long enough begins with a word. -/
theorem exists_word {width : Nat} {input : Bytes} (long : width ≤ input.length) :
    ∃ word rest, word < Nat.pow 256 width ∧ input = littleEndian width word ++ rest := by
  have whole : (input.take width).length = width := List.length_take_of_le long
  refine ⟨ofLittleEndian (input.take width), input.drop width, ?_, ?_⟩
  · have bound := ofLittleEndian_lt (input.take width)
    rwa [whole] at bound
  · rw [littleEndian_ofLittleEndian whole, List.take_append_drop]

namespace Decoder

/-- **A word is taken as it is written** with its width. -/
theorem takes_word {width : Nat} : Takes (word width) fun value taken =>
    value < Nat.pow 256 width ∧ taken = littleEndian width value := by
  refine takes_take.map ?_
  rintro _ taken ⟨rfl, long⟩
  exact ⟨long ▸ ofLittleEndian_lt taken, (littleEndian_ofLittleEndian long).symm⟩

end Decoder

open Decoder

theorem takes_digest : Takes (FromWire.fromWire : Decoder Digest) fun digest taken =>
    taken = digest.bytes := by
  intro input digest rest read
  have found : Digest.read input = .ok (digest, rest) := read
  rw [Digest.read] at found
  split at found
  · cases found
  · next taken =>
    cases found
    exact ⟨_, (take_eq_ok_iff.mp taken).2, rfl⟩

/-! ### Compact sizes -/

namespace CompactSize

theorem takes_readWide {width least : Nat} : Takes (readWide width least) fun value taken =>
    least ≤ value ∧ value < Nat.pow 256 width ∧ taken = littleEndian width value := by
  intro input value rest read
  obtain ⟨⟨bytes, between⟩, before, after⟩ := bind_eq_ok_iff.mp read
  obtain ⟨long, split⟩ := take_eq_ok_iff.mp before
  replace after : (if ofLittleEndian bytes < least then throw (.nonCanonical _) else pure _ :
    Decoder Nat) between = .ok (value, rest) := after
  split at after
  · cases after
  · next needed =>
    cases after
    exact ⟨bytes, split, Nat.not_lt.mp needed, long ▸ ofLittleEndian_lt bytes,
      (littleEndian_ofLittleEndian long).symm⟩

/-- **A compact size is taken as it is written**, in its shortest form. -/
theorem takes_read : Takes read fun value taken =>
    value < UInt64.size ∧ taken = write value := by
  unfold read
  refine takes_byte.bind ?_
  rintro marker _ rfl
  split
  · next two =>
    refine takes_readWide.mono ?_
    rintro value _ ⟨least, fits, rfl⟩
    have small : ¬ value < 0xFD := Nat.not_lt.mpr least
    refine ⟨Nat.lt_trans fits (by decide), ?_⟩
    rw [write, if_neg small, if_pos fits, two]
    rfl
  · split
    · next four =>
      refine takes_readWide.mono ?_
      rintro value _ ⟨least, fits, rfl⟩
      have wide : ¬ value < 0x10000 := Nat.not_lt.mpr least
      have small : ¬ value < 0xFD := by omega
      refine ⟨Nat.lt_trans fits (by decide), ?_⟩
      rw [write, if_neg small, if_neg wide, if_pos fits, four]
      rfl
    · split
      · next eight =>
        refine takes_readWide.mono ?_
        rintro value _ ⟨least, fits, rfl⟩
        have wider : ¬ value < 0x100000000 := Nat.not_lt.mpr least
        have wide : ¬ value < 0x10000 := by omega
        have small : ¬ value < 0xFD := by omega
        refine ⟨fits, ?_⟩
        rw [write, if_neg small, if_neg wide, if_neg wider, eight]
        rfl
      · next two four eight =>
        have unmarked : ∀ {number : UInt8}, marker ≠ number → marker.toNat ≠ number.toNat :=
          fun apart same => apart (UInt8.toNat_inj.mp same)
        have small : marker.toNat < 0xFD := by
          have byte := marker.toNat_lt
          have two := unmarked two
          have four := unmarked four
          have eight := unmarked eight
          simp only [UInt8.reduceToNat] at two four eight
          omega
        refine .pure ⟨Nat.lt_trans small (by decide), ?_⟩
        rw [write, if_pos small, UInt8.ofNat_toNat, List.append_nil]

theorem takes_readLength : Takes readLength fun length taken =>
    length ≤ maxLength ∧ taken = write length := by
  intro input length rest counted
  obtain ⟨first, fits⟩ := readLength_eq_ok_iff.mp counted
  obtain ⟨taken, split, -, rfl⟩ := takes_read input length rest first
  exact ⟨_, split, fits, rfl⟩

end CompactSize

/-! ### Variable-length numbers -/

namespace VarInt

/-- The bytes that bring a reader to where its groups so far make up a value. -/
def before : Nat → Bytes
  | 0 => []
  | value + 1 => leading value

/-- The groups of a number are those above its last one, and the last one, however that is spelt. -/
theorem groups_eq_before {value digit : Nat} (small : digit < 128) (spell : Nat → UInt8) :
    (if 128 * value + digit < 128 then [spell (128 * value + digit)]
      else leading ((128 * value + digit) / 128 - 1) ++ [spell ((128 * value + digit) % 128)]) =
        before value ++ [spell digit] := by
  cases value with
  | zero =>
    have single : 128 * 0 + digit = digit := Nat.zero_add digit
    rw [single, if_pos small]
    rfl
  | succ value =>
    have large : ¬ 128 * (value + 1) + digit < 128 := by omega
    have group : (128 * (value + 1) + digit) / 128 - 1 = value := by omega
    have last : (128 * (value + 1) + digit) % 128 = digit := by omega
    rw [if_neg large, group, last]
    rfl

/-- The groups so far and a last one are what is written for the number that they make up. -/
theorem write_eq_before {value digit : Nat} (small : digit < 128) :
    write (128 * value + digit) = before value ++ [UInt8.ofNat digit] := by
  rw [write]
  exact groups_eq_before small UInt8.ofNat

/-- The groups so far and a continued one lead to the next group. -/
theorem before_eq_before {value digit : Nat} (small : digit < 128) :
    before (128 * value + digit + 1) = before value ++ [UInt8.ofNat (128 + digit)] := by
  rw [before, leading]
  exact groups_eq_before small fun group => UInt8.ofNat (128 + group)

/-- What is read behind some groups makes up, with them, what is written for the number. -/
theorem takes_readBehind {value : Nat} : Takes (readBehind value) fun result taken =>
    result < UInt64.size ∧ before value ++ taken = write result := by
  intro input
  induction input generalizing value with
  | nil =>
    intro result rest read
    cases read
  | cons byte input ih =>
    intro result rest read
    have size : UInt64.size = maxWord + 1 := rfl
    have range : byte.toNat < 256 := byte.toNat_lt
    by_cases last : byte.toNat < 128
    · rw [readBehind_of_last last] at read
      split at read
      · next fits =>
        cases read
        refine ⟨[byte], rfl, by omega, ?_⟩
        rw [write_eq_before last, UInt8.ofNat_toNat]
      · cases read
    · have digit : byte.toNat % 128 < 128 := Nat.mod_lt _ (by decide)
      have group : 128 + byte.toNat % 128 = byte.toNat := by omega
      rw [readBehind_of_continued (Nat.not_lt.mp last)] at read
      split at read
      · obtain ⟨taken, rfl, fits, spelling⟩ := ih result rest read
        refine ⟨byte :: taken, rfl, fits, ?_⟩
        rw [← spelling, before_eq_before digit, group, UInt8.ofNat_toNat, List.append_assoc]
        rfl
      · cases read

/-- **A variable-length number is taken as it is written.** -/
theorem takes_read : Takes read fun value taken => value < UInt64.size ∧ taken = write value :=
  takes_readBehind

theorem takes_readWord32 : Takes readWord32 fun value taken =>
    value < UInt32.size ∧ taken = write value := by
  refine takes_read.bind ?_
  rintro value _ ⟨-, rfl⟩
  show Takes (if _ then _ else _) _
  split
  · next fits => exact .pure ⟨fits, List.append_nil _⟩
  · exact .throw

end VarInt

end Reorg
