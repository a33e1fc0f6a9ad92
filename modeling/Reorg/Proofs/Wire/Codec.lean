/-
**Values that their wire form gives back.**

A value is faithful when the bytes that are written for it, at least one, are read as that value
wherever they come first. Lists and maps of faithful values are faithful, as long as a length can be
declared: the reader of a map refuses no entry, because the entries of a map have distinct keys.

* `Faithful`: the property;
* `faithful_list`, `faithful_map`, `faithful_digest`: where it holds;
* `ofWord_toWord`: integers in two's complement.
-/

import Mathlib.Logic.Basic
import Reorg.Hash.Digest
import Reorg.Proofs.Wire.Numbers
import Reorg.Proofs.OrderedMap

namespace Reorg

open Decoder OrderedMap

/-- The bytes of a value, at least one, are read as that value, whatever follows them. -/
structure Faithful {α : Type} [ToWire α] [FromWire α] (value : α) : Prop where
  nonempty : 0 < (toWire value).length
  reads : Reads fromWire (toWire value) value

theorem Faithful.ofWire {α : Type} [ToWire α] [FromWire α] {value : α} (faithful : Faithful value) :
    ofWire α (toWire value) = .ok value :=
  faithful.reads.whole

/-! ### Words -/

/-- An integer in two's complement. -/
theorem ofWord_toWord_eq_bmod {size : Nat} (some : 0 < size) (value : Int) :
    ofWord size (toWord size value) = Int.bmod value size := by
  have nonneg : 0 ≤ value % size :=
    Int.emod_nonneg value (Int.natCast_ne_zero.mpr (Nat.ne_of_gt some))
  rw [ofWord, toWord, Int.toNat_of_nonneg nonneg, Int.emod_bmod]

/-- **An integer that a word can stand for** is the one that its word stands for. -/
theorem ofWord_toWord {size : Nat} {value : Int} (some : 0 < size) (low : -(size : Int) ≤ 2 * value)
    (high : 2 * value < size) : ofWord size (toWord size value) = value := by
  rw [ofWord_toWord_eq_bmod some]
  exact Int.bmod_eq_of_le_mul_two (by omega) (by omega)

theorem ofWord_toWord_int64 {value : Int}
    (fits : Int64.minValue.toInt ≤ value ∧ value ≤ Int64.maxValue.toInt) :
    ofWord UInt64.size (toWord UInt64.size value) = value := by
  have low := Int.mul_le_mul_of_nonneg_left fits.1 (show (0 : Int) ≤ 2 by decide)
  have high := Int.mul_le_mul_of_nonneg_left fits.2 (show (0 : Int) ≤ 2 by decide)
  exact ofWord_toWord (by decide) low (Int.lt_of_le_of_lt high (by decide))

/-- The word of what a word stands for is the word, as far as its width reaches. -/
theorem toWord_ofWord {size word : Nat} : toWord size (ofWord size word) = word % size := by
  rw [toWord, ofWord, Int.bmod_emod, ← Int.natCast_emod, Int.toNat_natCast]

theorem int64_of_ofWord (word : Nat) : Int64.minValue.toInt ≤ ofWord UInt64.size word ∧
    ofWord UInt64.size word ≤ Int64.maxValue.toInt :=
  ⟨Int.le_trans (by decide) (Int.le_bmod (by decide)),
    Int.le_trans (Int.bmod_le (by decide)) (by decide)⟩

theorem int32_of_ofWord (word : Nat) : Int32.minValue.toInt ≤ ofWord UInt32.size word ∧
    ofWord UInt32.size word ≤ Int32.maxValue.toInt :=
  ⟨Int.le_trans (by decide) (Int.le_bmod (by decide)),
    Int.le_trans (Int.bmod_le (by decide)) (by decide)⟩

theorem toWord_lt {size : Nat} {value : Int} (some : 0 < size) : toWord size value < size := by
  have small := Int.emod_lt_of_pos value (Int.natCast_pos.mpr some)
  have nonneg : 0 ≤ value % size :=
    Int.emod_nonneg value (Int.natCast_ne_zero.mpr (Nat.ne_of_gt some))
  rw [toWord]
  omega

/-- The word of a number that fits is the number. -/
theorem toWord_of_nonneg {size : Nat} {value : Int} (nonneg : 0 ≤ value) (small : value < size) :
    toWord size value = value.toNat := by
  rw [toWord, Int.emod_eq_of_lt nonneg small]

/-! ### Digests -/

theorem faithful_digest (digest : Digest) : Faithful digest where
  nonempty := by
    show 0 < digest.bytes.length
    rw [digest.length_bytes]
    decide
  reads rest := by
    have taken : Decoder.take 32 (digest.bytes ++ rest) = .ok (digest.bytes, rest) :=
      Reads.take digest.length_bytes rest
    show Digest.read (digest.bytes ++ rest) = .ok (digest, rest)
    rw [Digest.read]
    split
    · next failed =>
      rw [taken] at failed
      cases failed
    · next succeeded =>
      rw [taken] at succeeded
      cases succeeded
      rfl

/-! ### Sequences -/

section Lists

variable {α : Type} [ToWire α] [FromWire α] {values : List α}

omit [FromWire α] in
theorem toWire_list_pos : 0 < (toWire values).length := by
  show 0 < (CompactSize.write values.length ++ values.flatMap toWire).length
  rw [List.length_append]
  exact Nat.add_pos_left (CompactSize.write_pos _) _

/-- A list is read off as its entries are, up to the most entries that may be declared. -/
theorem reads_list {turn : α → α} (short : values.length ≤ CompactSize.maxLength)
    (nonempty : ∀ value ∈ values, 0 < (toWire value).length)
    (each : ∀ value ∈ values, Reads fromWire (toWire value) (turn value)) :
    Reads fromWire (toWire values) (values.map turn) :=
  (CompactSize.reads_readLength short).bind (.sequenceOf_map nonempty each)

/-- **A list of faithful values is faithful**, up to the most entries that may be declared. -/
theorem faithful_list (short : values.length ≤ CompactSize.maxLength)
    (each : ∀ value ∈ values, Faithful value) : Faithful values where
  nonempty := toWire_list_pos
  reads := (CompactSize.reads_readLength short).bind
    (.sequenceOf (fun value member => (each value member).nonempty)
      fun value member => (each value member).reads)

end Lists

/-! ### Maps -/

section Maps

variable {κ υ : Type} [Ord κ] [Std.TransOrd κ] [Std.LawfulEqOrd κ] {key : Decoder κ}
  {value : Decoder υ} {writeKey : κ → Bytes} {writeValue : υ → Bytes}

/-- Adds an entry whose key is new. -/
def addNew (map : OrderedMap κ υ) (entry : κ × υ) : Except FormatError (OrderedMap κ υ) :=
  if map.contains entry.1 then .error .duplicateKey else .ok (map.insert entry.1 entry.2)

/-- The entries of a map, added in order, give the map. -/
theorem foldlM_addNew_entries {map : OrderedMap κ υ} :
    map.entries.foldlM addNew .empty = .ok map := by
  refine foldlM_insert_entries id fun built entry absent => ?_
  rw [id, addNew, contains_eq_false_iff.mpr absent]
  rfl

/-- Reading entries adds one after the other. -/
theorem entriesInto_eq {left : List (κ × υ)} {map : OrderedMap κ υ} {rest : Bytes}
    (each : ∀ entry ∈ left, Reads key (writeKey entry.1) entry.1 ∧
      Reads value (writeValue entry.2) entry.2) :
    entriesInto key value left.length map
        (left.flatMap (fun entry => writeKey entry.1 ++ writeValue entry.2) ++ rest) =
      (left.foldlM addNew map).map fun whole => (whole, rest) := by
  induction left generalizing map with
  | nil => rfl
  | cons entry left ih =>
    obtain ⟨keyRead, valueRead⟩ := each entry List.mem_cons_self
    rw [List.length_cons, List.flatMap_cons, List.append_assoc, List.append_assoc, entriesInto,
      keyRead]
    simp only [valueRead _]
    rw [List.foldlM_cons, addNew]
    split
    · rfl
    · exact ih fun other member => each other (List.mem_cons_of_mem _ member)

/-- **A map of faithful keys and values is faithful**, up to the most entries that may be
declared. -/
theorem faithful_map [ToWire κ] [ToWire υ] [FromWire κ] [FromWire υ] {map : OrderedMap κ υ}
    (short : map.size ≤ CompactSize.maxLength)
    (each : ∀ entry ∈ map.entries, Faithful entry.1 ∧ Faithful entry.2) : Faithful map where
  nonempty := by
    show 0 < (CompactSize.write map.size ++ _).length
    rw [List.length_append]
    exact Nat.add_pos_left (CompactSize.write_pos _) _
  reads := by
    have enough : ∀ entry ∈ map.entries, 0 < (toWire entry.1 ++ toWire entry.2).length := by
      intro entry member
      rw [List.length_append]
      exact Nat.add_pos_left (each entry member).1.nonempty _
    refine (CompactSize.reads_readLength short).bind
      (.bind_check (checkCount_eq_ok (length_le_flatMap enough)) fun rest => ?_)
    show entriesInto fromWire fromWire map.entries.length .empty _ = _
    rw [entriesInto_eq fun entry member =>
      ⟨(each entry member).1.reads, (each entry member).2.reads⟩, foldlM_addNew_entries]
    rfl

end Maps

end Reorg
