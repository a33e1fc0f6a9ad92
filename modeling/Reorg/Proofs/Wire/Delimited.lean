/-
**Decoders that see where their value ends.**

A list says how many entries it has and a reader first looks whether so many bytes are left, so what
follows a value could matter to the reader of the value. It does not: whatever a decoder takes off
its input, it reads as the same value wherever these bytes come first. When it always takes a byte,
no record can be cut short, and nothing can be put behind one, without the reader noticing.

* `Decoder.Settled`: what was taken is read as the same value, whatever follows it;
* `Decoder.Delimits`: and it is at least one byte;
* `Delimits.list`, `Delimits.orderedMap`: lists and maps;
* `Delimits.suffix`, `Delimits.append`, `Delimits.whole_cut`, `Delimits.whole_append`: what follows
  for the rest of an input, for longer inputs, and for whole records.
-/

import Reorg.Proofs.Wire.Codec
import Reorg.Proofs.Wire.Takes

namespace Reorg

open Fallible

namespace Decoder

variable {α β : Type} {decoder : Decoder α} {next : α → Decoder β} {value : α} {count : Nat}
  {input rest : Bytes}

/-- What the decoder takes off an input is read as the same value, whatever follows it. -/
def Settled (decoder : Decoder α) : Prop :=
  Takes decoder fun value taken => Reads decoder taken value

/-- What the decoder takes off an input is at least one byte, and is read as the same value,
whatever follows it. -/
def Delimits (decoder : Decoder α) : Prop :=
  Takes decoder fun value taken => 0 < taken.length ∧ Reads decoder taken value

/-! ### Composition -/

namespace Settled

theorem pure (value : α) : Settled (pure value) := Takes.pure (Reads.pure value)

theorem bind (first : Settled decoder) (second : ∀ value, Settled (next value)) :
    Settled (decoder >>= next) :=
  Takes.bind first fun value _ reads => (second value).mono fun _ _ reads' => reads.bind reads'

end Settled

theorem Delimits.settled (delimits : Delimits decoder) : Settled decoder :=
  delimits.mono fun _ _ both => both.2

/-- A decoder delimits its value when its first step does. -/
theorem Delimits.bind (first : Delimits decoder) (second : ∀ value, Settled (next value)) :
    Delimits (decoder >>= next) := by
  refine Takes.bind first fun value taken both => (second value).mono fun result more reads => ?_
  refine ⟨?_, both.2.bind reads⟩
  rw [List.length_append]
  exact Nat.add_pos_left both.1 _

/-- A last step that reads nothing more. -/
theorem Delimits.map {finish : α → β} (first : Delimits decoder) :
    Delimits (decoder >>= fun value => Pure.pure (finish value)) :=
  first.bind fun value => .pure (finish value)

/-! ### Bytes and words -/

theorem delimits_byte : Delimits byte := by
  refine takes_byte.mono ?_
  rintro value _ rfl
  exact ⟨Nat.zero_lt_one, Reads.byte value⟩

theorem delimits_word {width : Nat} (some : 0 < width) : Delimits (word width) := by
  refine takes_word.mono ?_
  rintro value _ ⟨fits, rfl⟩
  exact ⟨(littleEndian_length width value).symm ▸ some, Reads.word fits⟩

theorem delimits_readLength : Delimits CompactSize.readLength := by
  refine CompactSize.takes_readLength.mono ?_
  rintro length _ ⟨fits, rfl⟩
  exact ⟨CompactSize.write_pos length, CompactSize.reads_readLength fits⟩

/-! ### Sequences -/

/-- Entries that take a byte each take as many bytes as they are, so a sequence that passed the look
at what is left passes it again in front of anything else. -/
theorem Delimits.sequenceOf (each : Delimits decoder) : Settled (decoder.sequenceOf count) := by
  have entries : ∀ count, Takes (decoder.entries count) fun values taken =>
      count ≤ taken.length ∧ Reads (decoder.entries count) taken values := by
    intro count
    induction count with
    | zero => exact .pure ⟨Nat.le_refl 0, Reads.pure []⟩
    | succ count ih =>
      rw [entries_succ]
      refine Takes.bind each fun value taken both => ih.map fun values more both' => ?_
      refine ⟨?_, both.2.bind both'.2.bind_pure⟩
      have one := both.1
      have others := both'.1
      rw [List.length_append]
      omega
  refine Takes.after_check ((entries count).mono fun values taken both => ?_)
  exact .bind_check (checkCount_eq_ok both.1) both.2

end Decoder

open Decoder

theorem Decoder.Delimits.list {α : Type} [FromWire α]
    (each : Delimits (fromWire : Decoder α)) : Delimits (fromWire : Decoder (List α)) :=
  delimits_readLength.bind fun _ => each.sequenceOf

/-! ### Maps -/

section Maps

variable {κ υ : Type} [Ord κ] [Std.TransOrd κ] [Std.LawfulEqOrd κ] {key : Decoder κ}
  {value : Decoder υ} {count : Nat} {map : OrderedMap κ υ}

/-- Reading one more entry into a map, as steps in a row. -/
theorem entriesInto_succ : entriesInto key value (count + 1) map = (do
    let found ← key
    let given ← value
    if map.contains found then throw .duplicateKey
    else entriesInto key value count (map.insert found given)) := by
  funext input
  rw [entriesInto]
  show _ = (key input).bind fun read => (value read.2).bind fun read' =>
    (if map.contains read.1 then throw .duplicateKey
      else entriesInto key value count (map.insert read.1 read'.1) : Decoder _) read'.2
  rcases key input with problem | ⟨found, behind⟩
  · rfl
  · dsimp only [Except.bind]
    rcases value behind with problem | ⟨given, rest⟩
    · rfl
    · show (if _ then _ else _) = (if _ then _ else _ : Decoder _) rest
      split <;> rfl

/-- Whether a key is refused depends on the entries in front of it only. -/
theorem Decoder.Delimits.entriesInto (keys : Delimits key) (values : Delimits value) :
    Takes (entriesInto key value count map) fun whole taken =>
      count ≤ taken.length ∧ Reads (entriesInto key value count map) taken whole := by
  induction count generalizing map with
  | zero =>
    rintro input _ rest ⟨⟩
    exact ⟨[], rfl, Nat.le_refl 0, fun _ => rfl⟩
  | succ count ih =>
    rw [entriesInto_succ]
    refine Takes.bind keys fun found taken both => ?_
    refine Takes.bind values.settled fun given taken' reads' => ?_
    split
    · exact .throw
    · next fresh =>
      refine ih.mono fun whole more both'' => ?_
      have one := both.1
      have others := both''.1
      refine ⟨by simp only [List.length_append]; omega, ?_⟩
      refine both.2.bind (reads'.bind ?_)
      rw [if_neg fresh]
      exact both''.2

theorem Decoder.Delimits.orderedMap [FromWire κ] [FromWire υ]
    (keys : Delimits (fromWire : Decoder κ)) (values : Delimits (fromWire : Decoder υ)) :
    Delimits (fromWire : Decoder (OrderedMap κ υ)) := by
  refine delimits_readLength.bind fun count => ?_
  refine Takes.after_check ((keys.entriesInto values).mono fun whole taken both => ?_)
  exact .bind_check (checkCount_eq_ok both.1) both.2

end Maps

/-! ### What follows -/

namespace Decoder.Delimits

variable {α : Type} {decoder : Decoder α} {value : α} {input rest record : Bytes}

/-- **What is left of an input** is a part behind its first byte. -/
theorem suffix (delimits : Delimits decoder) (accepted : decoder input = .ok (value, rest)) :
    rest <:+ input ∧ rest ≠ input := by
  obtain ⟨taken, rfl, some, -⟩ := delimits input value rest accepted
  refine ⟨List.suffix_append taken rest, fun same => ?_⟩
  have long := congrArg List.length same
  rw [List.length_append] at long
  omega

/-- **A longer input** gives the same value and leaves what is put behind. -/
theorem append (delimits : Delimits decoder) (accepted : decoder input = .ok (value, rest))
    (more : Bytes) : decoder (input ++ more) = .ok (value, rest ++ more) := by
  obtain ⟨taken, rfl, -, reads⟩ := delimits input value rest accepted
  rw [List.append_assoc]
  exact reads (rest ++ more)

/-- **A record that is cut short is refused**: a decoder that took the shorter one would leave over
what was cut off. -/
theorem whole_cut (delimits : Delimits decoder) (accepted : decoder.whole record = .ok value)
    {cut : Bytes} (front : cut <+: record) (short : cut ≠ record) :
    ∃ problem, decoder.whole cut = .error problem := by
  cases read : decoder.whole cut with
  | error problem => exact ⟨problem, rfl⟩
  | ok other =>
    obtain ⟨left, rfl⟩ := front
    have longer := delimits.append (whole_eq_ok_iff.mp read) left
    rw [whole_eq_ok_iff.mp accepted] at longer
    obtain rfl : [] = left := (Prod.mk.inj (Except.ok.inj longer)).2
    exact (short (List.append_nil cut).symm).elim

/-- **Bytes behind a record are refused**, with their number. -/
theorem whole_append (delimits : Delimits decoder) (accepted : decoder.whole record = .ok value)
    {more : Bytes} (some : more ≠ []) :
    decoder.whole (record ++ more) = .error (.trailingBytes more.length) := by
  obtain ⟨byte, bytes, rfl⟩ := List.exists_cons_of_ne_nil some
  have longer := delimits.append (whole_eq_ok_iff.mp accepted) (byte :: bytes)
  rw [whole, longer]
  rfl

end Decoder.Delimits

end Reorg
