/-
**Totals.**

A total adds up a number that each member of a list has.

* `totalOf_append`: the total over two lists in a row is the sum of their totals.
-/

namespace Reorg

variable {α : Type}

/-- The sum of a number that each member of a list has. -/
def totalOf (number : α → Nat) (items : List α) : Nat :=
  items.foldr (fun item total => number item + total) 0

@[simp] theorem totalOf_nil (number : α → Nat) : totalOf number [] = 0 := rfl

@[simp] theorem totalOf_cons (number : α → Nat) (item : α) (items : List α) :
    totalOf number (item :: items) = number item + totalOf number items := rfl

@[simp] theorem totalOf_append (number : α → Nat) (first second : List α) :
    totalOf number (first ++ second) = totalOf number first + totalOf number second := by
  induction first with
  | nil => simp
  | cons item items ih => simp [ih, Nat.add_assoc]

end Reorg
