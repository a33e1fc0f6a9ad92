/-
**The number of bytes that a value takes.**

The size of a value is found without writing it, by rules of its own for numbers, scripts, optional
fields, lists and maps. Each of these rules gives the number of bytes that the writer of the same
kind of value writes, at every width and for values of any size.

* `CompactSize.length_write`, `VarInt.length_write`, `Script.length_write`: numbers and scripts;
* `Sized`: the size of every value of a type is the number of its bytes;
* `Sized.list`, `Sized.map`: lists and maps.
-/

import Reorg.Proofs.Script.Wire
import Reorg.Wire.Codec

namespace Reorg

/-! ### Numbers -/

/-- **A compact size has as many bytes as its size says.** -/
theorem CompactSize.length_write (value : Nat) : (write value).length = size value := by
  rw [write, size]
  split
  · rfl
  · split
    · rw [List.length_cons, littleEndian_length]
    · split
      · rw [List.length_cons, littleEndian_length]
      · rw [List.length_cons, littleEndian_length]

namespace VarInt

theorem length_leading (value : Nat) : (leading value).length = size value := by
  induction value using leading.induct with
  | case1 value small =>
    rw [leading, size, if_pos small, if_pos small]
    rfl
  | case2 value large ih =>
    rw [leading, size, if_neg large, if_neg large, List.length_append, ih]
    rfl

/-- **A variable-length number has as many bytes as its size says.** -/
theorem length_write (value : Nat) : (write value).length = size value := by
  rw [write, size]
  split
  · rfl
  · rw [List.length_append, length_leading]
    rfl

end VarInt

/-! ### Scripts -/

/-- **A script has as many bytes as its size says**, whatever its template: the size knows the
length of the payload from the kind of the template. -/
theorem Script.length_write (script : Script) : (write script).length = writtenSize script := by
  rw [write, writtenSize]
  cases found : Template.ofScript? script with
  | none =>
    show (VarInt.write (script.length + Template.count) ++ script).length = _
    rw [List.length_append, VarInt.length_write]
  | some template =>
    have sized := (Template.ofScript?_eq_some found).1
    rw [Template.payloadSize_tag] at sized
    show template.payload.length + 1 = _
    cases template with
    | keyHash hash => exact congrArg (· + 1) sized
    | scriptHash hash => exact congrArg (· + 1) sized
    | shortKey odd x => exact congrArg (· + 1) sized
    | fullKey odd x => exact congrArg (· + 1) sized

/-! ### Sized types -/

/-- The size of every value is the number of bytes that are written for it. -/
def Sized (α : Type) [ToWire α] : Prop :=
  ∀ value : α, wireSize value = (toWire value).length

/-- What is written for some items in a row takes the total of what each of them takes. -/
theorem totalOf_eq_length_flatMap {α : Type} {size : α → Nat} {write : α → Bytes}
    (each : ∀ item, size item = (write item).length) (items : List α) :
    totalOf size items = (items.flatMap write).length := by
  induction items with
  | nil => rfl
  | cons item items ih => rw [totalOf_cons, List.flatMap_cons, List.length_append, each, ih]

namespace Sized

variable {α κ υ : Type} [ToWire α] [ToWire κ] [ToWire υ] [Ord κ]

/-- **Lists are sized** when their entries are, whatever their length. -/
theorem list (sized : Sized α) : Sized (List α) := by
  intro values
  show CompactSize.size values.length + totalOf wireSize values =
    (CompactSize.write values.length ++ values.flatMap toWire).length
  rw [List.length_append, CompactSize.length_write, totalOf_eq_length_flatMap sized]

/-- **Maps are sized** when their keys and their values are. -/
theorem map (keys : Sized κ) (values : Sized υ) : Sized (OrderedMap κ υ) := by
  intro map
  have each : ∀ entry : κ × υ, wireSize entry.1 + wireSize entry.2 =
      (toWire entry.1 ++ toWire entry.2).length := by
    intro entry
    rw [List.length_append, keys entry.1, values entry.2]
  show CompactSize.size map.size +
      totalOf (fun entry => wireSize entry.1 + wireSize entry.2) map.entries =
    (CompactSize.write map.size ++
      map.entries.flatMap fun entry => toWire entry.1 ++ toWire entry.2).length
  rw [List.length_append, CompactSize.length_write, totalOf_eq_length_flatMap each]

end Sized

end Reorg
