/-
**Readers of byte strings.**

A decoder takes a value off the front of a byte string and leaves the rest, or says why it cannot.

* `take_eq_ok_iff`: `take` succeeds exactly on inputs that are long enough, and splits them;
* `entries_succ`: reading `n + 1` entries is reading one and then `n`;
* `whole_eq_ok_iff`: a whole-input reader accepts exactly the inputs that its decoder uses up.
-/

import Reorg.Bytes
import Reorg.Wire.Error

namespace Reorg

/-- A reader of values from the front of a byte string. -/
abbrev Decoder (α : Type) := StateT Bytes (Except FormatError) α

namespace Decoder

variable {α : Type}

/-- The next byte. -/
def byte : Decoder UInt8
  | [] => .error (.truncated 1 0)
  | byte :: rest => .ok (byte, rest)

/-- The next `count` bytes. -/
def take (count : Nat) : Decoder Bytes := fun input =>
  if input.shorterThan count then
    .error (.truncated count input.length)
  else
    .ok (input.splitAt count)

/-- Reads `count` more entries behind those already read, which are held last first. -/
def entriesBehind (entry : Decoder α) : (count : Nat) → (done : List α) → Decoder (List α)
  | 0, done, input => .ok (done.reverse, input)
  | count + 1, done, input =>
    match entry input with
    | .error problem => .error problem
    | .ok (value, rest) => entriesBehind entry count (value :: done) rest

/-- Reads `count` entries in a row. -/
def entries (entry : Decoder α) (count : Nat) : Decoder (List α) :=
  entriesBehind entry count []

/-- Refuses a sequence that declares more entries than there are bytes left. -/
def checkCount (count : Nat) : Decoder Unit := fun input =>
  if input.shorterThan count then
    .error (.lengthMismatch count input.length)
  else
    .ok ((), input)

/-- Reads `count` entries, each of which takes at least one byte. -/
def sequenceOf (entry : Decoder α) (count : Nat) : Decoder (List α) := do
  checkCount count
  entries entry count

/-- Reads a record that has to use up its whole input. -/
def whole (decoder : Decoder α) (input : Bytes) : Except FormatError α :=
  match decoder input with
  | .error problem => .error problem
  | .ok (value, []) => .ok value
  | .ok (_, rest) => .error (.trailingBytes rest.length)

/-! ### What the readers do -/

theorem take_eq_ok_iff {count : Nat} {input taken rest : Bytes} :
    take count input = .ok (taken, rest) ↔ taken.length = count ∧ input = taken ++ rest := by
  unfold take
  split
  · next short =>
    rw [Bytes.shorterThan_iff] at short
    constructor
    · intro accepted; cases accepted
    · rintro ⟨rfl, rfl⟩
      rw [List.length_append] at short
      omega
  · next long =>
    rw [Bytes.shorterThan_iff] at long
    rw [List.splitAt_eq]
    constructor
    · intro accepted
      cases accepted
      exact ⟨by simp; omega, (List.take_append_drop count input).symm⟩
    · rintro ⟨rfl, rfl⟩
      simp

theorem entriesBehind_eq (entry : Decoder α) (count : Nat) (done : List α) (input : Bytes) :
    entriesBehind entry count done input =
      (entries entry count input).map fun read => (done.reverse ++ read.1, read.2) := by
  induction count generalizing done input with
  | zero => simp [entries, entriesBehind, Except.map]
  | succ count ih =>
    unfold entries entriesBehind
    cases entry input with
    | error problem => rfl
    | ok first =>
      simp only [ih (first.1 :: done), ih [first.1]]
      cases entries entry count first.2 <;> simp [Except.map]

@[simp] theorem entries_zero (entry : Decoder α) : entries entry 0 = pure [] := rfl

theorem entries_succ (entry : Decoder α) (count : Nat) :
    entries entry (count + 1) = (do return (← entry) :: (← entries entry count)) := by
  funext input
  show entriesBehind entry (count + 1) [] input =
    (entry input).bind fun first => (entries entry count first.2).bind fun read =>
      .ok (first.1 :: read.1, read.2)
  unfold entriesBehind
  cases entry input with
  | error problem => rfl
  | ok first =>
    simp only [entriesBehind_eq, Except.bind]
    cases entries entry count first.2 <;> simp [Except.map]

theorem whole_eq_ok_iff {decoder : Decoder α} {input : Bytes} {value : α} :
    whole decoder input = .ok value ↔ decoder input = .ok (value, []) := by
  unfold whole
  split <;> simp_all

end Decoder

end Reorg
