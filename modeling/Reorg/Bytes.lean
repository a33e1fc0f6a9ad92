/-
**Byte strings and the words written in them.**

A byte string is a list of bytes. Words are natural numbers; the functions here write them with a
given number of bytes and read them back.

* `littleEndian_length`: a written word has exactly the width asked for;
* `ofLittleEndian_littleEndian`: reading gives the word modulo what the width holds;
* `shorterThan_iff`: the bounded length test says what it should.
-/

namespace Reorg

/-- A byte string, first byte first. -/
abbrev Bytes := List UInt8

/-! ### Words -/

/-- The lowest `width` bytes of a word, lowest byte first. -/
def littleEndian : (width : Nat) → (word : Nat) → Bytes
  | 0, _ => []
  | width + 1, word => UInt8.ofNat word :: littleEndian width (word / 256)

/-- The word whose bytes, lowest first, are given. -/
def ofLittleEndian : Bytes → Nat
  | [] => 0
  | byte :: bytes => byte.toNat + 256 * ofLittleEndian bytes

/-- The lowest `width` bytes of a word, highest byte first. -/
def bigEndian (width word : Nat) : Bytes :=
  (littleEndian width word).reverse

/-- The word whose bytes, highest first, are given. -/
def ofBigEndian (bytes : Bytes) : Nat :=
  bytes.foldl (fun word byte => 256 * word + byte.toNat) 0

/-- The word, of `size` different ones, that stands for an integer in two's complement. -/
def toWord (size : Nat) (value : Int) : Nat :=
  (value % size).toNat

/-- The integer that a word, of `size` different ones, stands for in two's complement. -/
def ofWord (size : Nat) (word : Nat) : Int :=
  Int.bmod word size

@[simp] theorem littleEndian_length (width word : Nat) :
    (littleEndian width word).length = width := by
  induction width generalizing word with
  | zero => rfl
  | succ width ih => simp [littleEndian, ih]

theorem ofLittleEndian_littleEndian (width word : Nat) :
    ofLittleEndian (littleEndian width word) = word % Nat.pow 256 width := by
  induction width generalizing word with
  | zero => simp [littleEndian, ofLittleEndian, Nat.mod_one]
  | succ width ih =>
    have low : (UInt8.ofNat word).toNat = word % 256 := by simp
    have wider : Nat.pow 256 (width + 1) = 256 * Nat.pow 256 width := Nat.mul_comm _ _
    rw [littleEndian, ofLittleEndian, ih, low, wider, Nat.mod_mul]

/-! ### Length tests -/

namespace Bytes

/-- Whether a byte string has fewer than `count` bytes, looking at no more than `count` of them. -/
def shorterThan : Bytes → (count : Nat) → Bool
  | _, 0 => false
  | [], _ + 1 => true
  | _ :: bytes, count + 1 => shorterThan bytes count

theorem shorterThan_iff {bytes : Bytes} {count : Nat} :
    bytes.shorterThan count = true ↔ bytes.length < count := by
  induction bytes generalizing count with
  | nil => cases count <;> simp [shorterThan]
  | cons byte bytes ih => cases count <;> simp [shorterThan, ih]

/-- A byte string is null when every byte of it is zero. -/
def isNull (bytes : Bytes) : Bool :=
  bytes.all (· == 0)

end Bytes

end Reorg
