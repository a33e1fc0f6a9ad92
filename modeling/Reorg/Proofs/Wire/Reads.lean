/-
**What a decoder reads off a byte string.**

A decoder reads a value off some bytes when it gives that value wherever these bytes come first, and
leaves what follows them. Such facts compose as decoders do, so the reader of a record is followed
field by field.

* `Decoder.Reads`: the fact, and `Reads.bind`, `Reads.pure`: how it composes;
* `Decoder.Reads.sequenceOf`: a sequence, whose entries are read one after the other;
* `Decoder.Reads.word`: a word of a given width;
* `Decoder.Reads.agreeIff`: what is read off can be told apart.
-/

import Mathlib.Logic.Basic
import Reorg.Proofs.Agreement
import Reorg.Wire.Codec

namespace Reorg.Decoder

variable {α β : Type} {decoder : Decoder α} {next : α → Decoder β} {bytes more : Bytes} {value : α}
  {result : β}

/-- Wherever these bytes come first, the decoder gives the value and leaves what follows. -/
def Reads (decoder : Decoder α) (bytes : Bytes) (value : α) : Prop :=
  ∀ rest, decoder (bytes ++ rest) = .ok (value, rest)

/-! ### Composition -/

theorem Reads.pure (value : α) : Reads (pure value) [] value := fun _ => rfl

theorem Reads.bind (first : Reads decoder bytes value) (second : Reads (next value) more result) :
    Reads (decoder >>= next) (bytes ++ more) result := by
  intro rest
  show (decoder (bytes ++ more ++ rest)).bind (fun read => next read.1 read.2) = _
  rw [List.append_assoc, first]
  exact second rest

/-- A last step that reads nothing more. -/
theorem Reads.bind_pure {finish : α → β} (first : Reads decoder bytes value) :
    Reads (decoder >>= fun read => Pure.pure (finish read)) bytes (finish value) := by
  have whole : Reads (decoder >>= fun read => Pure.pure (finish read)) (bytes ++ [])
    (finish value) := first.bind (Reads.pure _)
  rw [List.append_nil] at whole
  exact whole

/-- A first step that only looks at what follows. -/
theorem Reads.bind_check {check : Decoder Unit} (passes : ∀ rest, check (bytes ++ rest) =
    .ok ((), bytes ++ rest)) {rest : Unit → Decoder β} (second : Reads (rest ()) bytes result) :
    Reads (check >>= rest) bytes result := by
  intro behind
  show (check (bytes ++ behind)).bind (fun read => rest read.1 read.2) = _
  rw [passes]
  exact second behind

theorem Reads.whole (reads : Reads decoder bytes value) :
    decoder.whole bytes = .ok value := by
  have alone := reads []
  rw [List.append_nil] at alone
  exact whole_eq_ok_iff.mpr alone

/-- **What one decoder reads values off** can be told apart when the values can. -/
theorem Reads.agreeIff {bytes' : Bytes} {value' : α} (reads : Reads decoder bytes value)
    (reads' : Reads decoder bytes' value') (spelt : value = value' → bytes = bytes') :
    AgreeIff bytes bytes' (value = value') := by
  intro behind behind'
  constructor
  · intro same
    have read := reads behind
    rw [same, reads' behind'] at read
    cases read
    exact ⟨rfl, rfl⟩
  · rintro ⟨same, rfl⟩
    rw [spelt same]

/-! ### Bytes and words -/

theorem Reads.byte (value : UInt8) : Reads byte [value] value := fun _ => rfl

theorem Reads.take {count : Nat} (long : bytes.length = count) : Reads (take count) bytes bytes :=
  fun _ => take_eq_ok_iff.mpr ⟨long, rfl⟩

/-- **A word is read back** when its width holds it. -/
theorem Reads.word {width word : Nat} (fits : word < Nat.pow 256 width) :
    Reads (Decoder.word width) (littleEndian width word) word := by
  have reads : Reads (Decoder.word width) (littleEndian width word)
      (ofLittleEndian (littleEndian width word)) :=
    (Reads.take (littleEndian_length width word)).bind_pure
  rw [ofLittleEndian_littleEndian, Nat.mod_eq_of_lt fits] at reads
  exact reads

/-! ### Sequences -/

/-- Entries are read off in their order, when each of them is; what is read may differ from what was
written. -/
theorem Reads.entries_map {write : α → Bytes} {turn : α → β} {decoder : Decoder β}
    {values : List α} (each : ∀ value ∈ values, Reads decoder (write value) (turn value)) :
    Reads (decoder.entries values.length) (values.flatMap write) (values.map turn) := by
  induction values with
  | nil => exact Reads.pure []
  | cons value values ih =>
    rw [List.length_cons, List.flatMap_cons, List.map_cons, entries_succ]
    refine (each value List.mem_cons_self).bind ?_
    exact (ih fun other member => each other (List.mem_cons_of_mem _ member)).bind_pure

/-- Entries that take a byte each take at least as many bytes as they are. -/
theorem length_le_flatMap {write : α → Bytes} {values : List α}
    (nonempty : ∀ value ∈ values, 0 < (write value).length) :
    values.length ≤ (values.flatMap write).length := by
  induction values with
  | nil => exact Nat.le_refl 0
  | cons value values ih =>
    rw [List.length_cons, List.flatMap_cons, List.length_append]
    have first := nonempty value List.mem_cons_self
    have rest := ih fun other member => nonempty other (List.mem_cons_of_mem _ member)
    omega

theorem checkCount_eq_ok {count : Nat} (enough : count ≤ bytes.length) (rest : Bytes) :
    checkCount count (bytes ++ rest) = .ok ((), bytes ++ rest) := by
  rw [checkCount, if_neg]
  rw [Bytes.shorterThan_iff, List.length_append]
  omega

/-- A sequence is read off when each entry is and takes at least one byte. -/
theorem Reads.sequenceOf_map {write : α → Bytes} {turn : α → β} {decoder : Decoder β}
    {values : List α} (nonempty : ∀ value ∈ values, 0 < (write value).length)
    (each : ∀ value ∈ values, Reads decoder (write value) (turn value)) :
    Reads (decoder.sequenceOf values.length) (values.flatMap write) (values.map turn) :=
  .bind_check (checkCount_eq_ok (length_le_flatMap nonempty)) (.entries_map each)

/-- **A sequence is read back** when each entry is and takes at least one byte. -/
theorem Reads.sequenceOf {write : α → Bytes} {values : List α}
    (nonempty : ∀ value ∈ values, 0 < (write value).length)
    (each : ∀ value ∈ values, Reads decoder (write value) value) :
    Reads (decoder.sequenceOf values.length) (values.flatMap write) values := by
  have same : values.map id = values := List.map_id values
  have mapped : Reads (decoder.sequenceOf values.length) (values.flatMap write) (values.map id) :=
    .sequenceOf_map nonempty each
  rwa [same] at mapped

end Reorg.Decoder
