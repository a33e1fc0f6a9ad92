/-
**Sums that are kept in words.**

A chain adds up amounts, epochs and heights, and keeps each sum in a word. A sum that does not fit
wraps around. Sums that fit are what they are without words, so a chain whose sums stay small can be
described by integers alone.

* `Arithmetic`: what is kept of a sum;
* `Arithmetic.unbounded`: all of it, which is meant where nothing else is said;
* `Arithmetic.words`: what fits in a word, with which chains are run.
-/

import Reorg.Bytes

namespace Reorg

/-- What is kept of the sums that a chain computes. It is inferred, so that what does not depend on
it need not name it. -/
class Arithmetic where
  /-- What is kept of a sum of amounts. -/
  amount : Int → Int
  /-- What is kept of the number behind an epoch. -/
  epoch : Int → Int
  /-- What is kept of a sum of heights. -/
  height : Nat → Nat

namespace Arithmetic

/-- Integers, which keep every sum. -/
instance unbounded : Arithmetic := ⟨fun sum => sum, fun next => next, fun sum => sum⟩

/-- Words in two's complement: 64 bits for amounts, and 32 for epochs; heights have no sign. -/
@[reducible] def words : Arithmetic where
  amount sum := ofWord UInt64.size (toWord UInt64.size sum)
  epoch next := ofWord UInt32.size (toWord UInt32.size next)
  height sum := sum % UInt32.size

@[simp] theorem amount_unbounded (sum : Int) : unbounded.amount sum = sum := rfl

end Arithmetic

end Reorg
