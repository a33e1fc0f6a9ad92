/-
**What a decoder can give.**

Some facts hold of every value that a decoder gives, whatever bytes it is given: a list that was
read is no longer than may be declared, and an integer that was read fits its word. Such facts
compose as decoders do.

* `Decoder.Yields`: the fact, and `Yields.bind`, `Yields.pure`: how it composes;
* `yields_list`, `yields_map`: lists and maps that were read.
-/

import Reorg.Proofs.Fallible
import Reorg.Proofs.OrderedMap
import Reorg.Proofs.Wire.Numbers

namespace Reorg

open Fallible OrderedMap

namespace Decoder

variable {α β : Type} {decoder : Decoder α} {next : α → Decoder β} {holds : α → Prop}
  {holds' : β → Prop} {value : α} {count : Nat}

/-- Whatever the decoder gives has a property. -/
def Yields (decoder : Decoder α) (holds : α → Prop) : Prop :=
  ∀ input value rest, decoder input = .ok (value, rest) → holds value

/-! ### Composition -/

theorem Yields.of_forall (always : ∀ value, holds value) : Yields decoder holds :=
  fun _ value _ _ => always value

theorem Yields.pure (here : holds value) : Yields (pure value) holds := by
  rintro input _ rest ⟨⟩
  exact here

theorem Yields.bind (first : Yields decoder holds)
    (second : ∀ value, holds value → Yields (next value) holds') :
    Yields (decoder >>= next) holds' := by
  intro input result rest read
  obtain ⟨⟨value, between⟩, before, after⟩ := bind_eq_ok_iff.mp read
  exact second value (first input value between before) between result rest after

/-- What a last step gives, whatever came before it. -/
theorem Yields.last (second : ∀ value, Yields (next value) holds') :
    Yields (decoder >>= next) holds' :=
  have any : Yields decoder fun _ => True := .of_forall fun _ => trivial
  any.bind fun value _ => second value

/-! ### Sequences -/

theorem Yields.entries (each : Yields decoder holds) : Yields (decoder.entries count)
    fun values => values.length = count ∧ ∀ value ∈ values, holds value := by
  induction count with
  | zero => exact .pure ⟨rfl, fun _ member => (List.not_mem_nil member).elim⟩
  | succ count ih =>
    rw [entries_succ]
    refine each.bind fun value here => ih.bind fun values rest => .pure ⟨?_, ?_⟩
    · rw [List.length_cons, rest.1]
    · exact List.forall_mem_cons.mpr ⟨here, rest.2⟩

theorem Yields.sequenceOf (each : Yields decoder holds) : Yields (decoder.sequenceOf count)
    fun values => values.length = count ∧ ∀ value ∈ values, holds value :=
  .last fun _ => each.entries

theorem yields_readLength : Yields CompactSize.readLength (· ≤ CompactSize.maxLength) :=
  fun _ _ _ counted => (CompactSize.readLength_eq_ok_iff.mp counted).2

end Decoder

open Decoder

/-- **A list that was read** is no longer than may be declared. -/
theorem yields_list {α : Type} [FromWire α] {holds : α → Prop}
    (each : Yields (fromWire : Decoder α) holds) : Yields (fromWire : Decoder (List α))
      fun values => values.length ≤ CompactSize.maxLength ∧ ∀ value ∈ values, holds value := by
  refine yields_readLength.bind fun count fits => ?_
  intro input values rest read
  obtain ⟨long, all⟩ := each.sequenceOf input values rest read
  exact ⟨long ▸ fits, all⟩

/-! ### Maps -/

section Maps

variable {κ υ : Type} [Ord κ] [Std.TransOrd κ] [Std.LawfulEqOrd κ] {holds : υ → Prop}

/-- Reading entries into a map adds at most as many of them, and all of their values are such as the
decoder gives. -/
theorem yields_entriesInto {key : Decoder κ} {value : Decoder υ} (each : Yields value holds)
    {count : Nat} {map : OrderedMap κ υ} (before : ∀ entry ∈ map.entries, holds entry.2) :
    Yields (entriesInto key value count map) fun whole =>
      whole.size ≤ map.size + count ∧ ∀ entry ∈ whole.entries, holds entry.2 := by
  induction count generalizing map with
  | zero =>
    rintro input _ rest ⟨⟩
    exact ⟨Nat.le_refl _, before⟩
  | succ count ih =>
    intro input whole rest read
    rw [entriesInto] at read
    split at read
    · cases read
    · next found behind _ =>
      split at read
      · cases read
      · next given last valueRead =>
        split at read
        · cases read
        · have grown : ∀ entry ∈ (map.insert found given).entries, holds entry.2 := by
            intro entry member
            rcases mem_insertInto member with rfl | old
            · exact each behind given last valueRead
            · exact before entry old
          obtain ⟨most, all⟩ := ih grown last whole rest read
          have one := size_insert_le map found given
          exact ⟨by omega, all⟩

/-- **A map that was read** is no larger than may be declared. -/
theorem yields_map [FromWire κ] [FromWire υ] (each : Yields (fromWire : Decoder υ) holds) :
    Yields (fromWire : Decoder (OrderedMap κ υ)) fun map =>
      map.size ≤ CompactSize.maxLength ∧ ∀ entry ∈ map.entries, holds entry.2 := by
  refine yields_readLength.bind fun count fits => ?_
  refine .last fun _ => ?_
  intro input map rest read
  have empty : ∀ entry ∈ (OrderedMap.empty : OrderedMap κ υ).entries, holds entry.2 :=
    fun _ member => (List.not_mem_nil member).elim
  obtain ⟨most, all⟩ := yields_entriesInto each empty input map rest read
  refine ⟨Nat.le_trans most ?_, all⟩
  show 0 + count ≤ _
  rwa [Nat.zero_add]

end Maps

end Reorg
