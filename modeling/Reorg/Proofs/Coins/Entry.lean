/-
**Entries of the coins view, spent from and restored.**

An entry is tidy when it holds an unspent output and its last slot is one. Entries made from
transactions are tidy or empty, spending keeps that, and on tidy entries restoring is the exact
inverse of spending.

* `trim_append_replicate`, `getLast?_trim`: what trimming takes off, and what it leaves;
* `Coins.output?_spend?`: a spend takes out one output and leaves all others;
* `Coins.Tidy`: the entries that a view may hold;
* `Coins.restore_spend?`: an output that is put back where it was spent gives the old entry.
-/

import Mathlib.Data.List.DropRight
import Reorg.Coins.Entry

namespace Reorg.Coins

variable {coins left : Coins} {slots : List (Option Output)} {vout : Nat} {output : Output}

/-! ### Trimming -/

theorem trim_eq_rdropWhile (slots : List (Option Output)) :
    trim slots = slots.rdropWhile Option.isNone := rfl

/-- Trimming takes empty slots off the end, and nothing else. -/
theorem trim_append_replicate (slots : List (Option Output)) :
    ∃ count, slots = trim slots ++ List.replicate count none := by
  refine ⟨(slots.rtakeWhile Option.isNone).length, ?_⟩
  have empty : slots.rtakeWhile Option.isNone =
      List.replicate (slots.rtakeWhile Option.isNone).length none := by
    refine List.eq_replicate_iff.mpr ⟨rfl, fun slot member => ?_⟩
    exact Option.isNone_iff_eq_none.mp (List.mem_rtakeWhile_imp member)
  rw [← empty, trim_eq_rdropWhile, List.rdropWhile_append_rtakeWhile]

/-- Trimming loses no output: a slot that it takes off is empty. -/
theorem join_getElem?_trim (slots : List (Option Output)) (vout : Nat) :
    (trim slots)[vout]?.join = slots[vout]?.join := by
  obtain ⟨count, whole⟩ := trim_append_replicate slots
  by_cases inside : vout < (trim slots).length
  · conv_rhs => rw [whole, List.getElem?_append_left inside]
  · have outside : (trim slots).length ≤ vout := Nat.le_of_not_lt inside
    have cut : slots[vout]?.join = none := by
      rw [whole, List.getElem?_append_right outside, List.getElem?_replicate]
      split <;> rfl
    rw [cut, List.getElem?_eq_none outside]
    rfl

/-- Trimmed slots do not end in an empty one. -/
theorem getLast?_trim (slots : List (Option Output)) : (trim slots).getLast? ≠ some none := by
  rw [trim_eq_rdropWhile]
  intro last
  by_cases none : slots.rdropWhile Option.isNone = []
  · rw [none] at last
    cases last
  · rw [List.getLast?_eq_some_getLast none, Option.some.injEq] at last
    exact List.rdropWhile_last_not Option.isNone slots none (by rw [last]; rfl)

/-- Trimmed slots that are all empty are no slots. -/
theorem eq_nil_of_all_isNone (trimmed : slots.getLast? ≠ some none)
    (empty : slots.all Option.isNone = true) : slots = [] := by
  by_contra nonempty
  have last := List.all_eq_true.mp empty _ (List.getLast_mem nonempty)
  rw [List.getLast?_eq_some_getLast nonempty, Option.isNone_iff_eq_none.mp last] at trimmed
  exact trimmed rfl

/-! ### Tidy entries -/

/-- An entry holds an unspent output, and its last slot is one. -/
structure Tidy (coins : Coins) : Prop where
  unspent : coins.isSpent = false
  trimmed : coins.slots.getLast? ≠ some none

instance : Decidable coins.Tidy :=
  decidable_of_iff (coins.isSpent = false ∧ coins.slots.getLast? ≠ some none)
    ⟨fun both => ⟨both.1, both.2⟩, fun tidy => ⟨tidy.unspent, tidy.trimmed⟩⟩

theorem isSpent_blank : blank.isSpent = true := rfl

theorem output?_eq_some_iff : coins.output? vout = some output ↔
    coins.slots[vout]? = some (some output) := by
  rw [output?, Option.join_eq_some_iff]

theorem tidy_ofTx {tx : Transaction} {height : Nat} (unspent : (ofTx tx height).isSpent = false) :
    (ofTx tx height).Tidy :=
  ⟨unspent, getLast?_trim _⟩

/-- What a spend takes out, and what it leaves. -/
theorem spend?_eq_some_iff : coins.spend? vout = some (output, left) ↔
    coins.slots[vout]? = some (some output) ∧
      { coins with slots := trim (coins.slots.set vout none) } = left := by
  rw [spend?, Option.map_eq_some_iff]
  constructor
  · rintro ⟨_, found, ⟨⟩⟩
    exact ⟨output?_eq_some_iff.mp found, rfl⟩
  · rintro ⟨found, rfl⟩
    exact ⟨output, output?_eq_some_iff.mpr found, rfl⟩

theorem getLast?_of_spend? (spent : coins.spend? vout = some (output, left)) :
    left.slots.getLast? ≠ some none := by
  obtain ⟨_, rfl⟩ := spend?_eq_some_iff.mp spent
  exact getLast?_trim _

/-- A spend takes out an output that was there, and leaves all others. -/
theorem output?_spend? (spent : coins.spend? vout = some (output, left)) (other : Nat) :
    left.output? other = if vout = other then none else coins.output? other := by
  obtain ⟨_, rfl⟩ := spend?_eq_some_iff.mp spent
  show (trim (coins.slots.set vout none))[other]?.join = _
  rw [join_getElem?_trim]
  split
  · next here =>
    rw [here, List.getElem?_set_self']
    cases coins.slots[other]? <;> rfl
  · next elsewhere =>
    rw [List.getElem?_set_ne elsewhere]
    rfl

/-- The slot that was spent is free. -/
theorem output?_of_spend? (spent : coins.spend? vout = some (output, left)) :
    left.output? vout = none := by
  rw [output?_spend? spent, if_pos rfl]

/-- **Restoring is the inverse of spending.** Only a spend of the last slot trims anything, and
then it trims down to where restoring pads again. -/
theorem restore_spend? (tidy : coins.Tidy) (spent : coins.spend? vout = some (output, left)) :
    left.restore vout output = coins := by
  obtain ⟨found, rfl⟩ := spend?_eq_some_iff.mp spent
  have inside : vout < coins.slots.length := (List.getElem?_eq_some_iff.mp found).1
  obtain ⟨count, whole⟩ := trim_append_replicate (coins.slots.set vout none)
  have counted := congrArg List.length whole
  rw [List.length_set, List.length_append, List.length_replicate] at counted
  have padded : trim (coins.slots.set vout none) ++
      List.replicate (vout + 1 - (trim (coins.slots.set vout none)).length) none =
        coins.slots.set vout none := by
    cases count with
    | zero =>
      have enough : vout + 1 - (trim (coins.slots.set vout none)).length = 0 := by omega
      rw [enough]
      exact whole.symm
    | succ count =>
      -- the last slot is empty after the spend and was not before, so it is the one spent
      have last : vout + 1 = coins.slots.length := by
        by_contra further
        have lastSlot : coins.slots.getLast? = (coins.slots.set vout none).getLast? := by
          rw [List.getLast?_eq_getElem?, List.getLast?_eq_getElem?, List.length_set,
            List.getElem?_set_ne (by omega)]
        refine tidy.trimmed ?_
        rw [lastSlot, whole, List.replicate_succ', ← List.append_assoc, List.getLast?_concat]
      have missing : vout + 1 - (trim (coins.slots.set vout none)).length = count + 1 := by omega
      rw [missing]
      exact whole.symm
  have restored : (coins.slots.set vout none).set vout (some output) = coins.slots := by
    obtain ⟨_, held⟩ := List.getElem?_eq_some_iff.mp found
    rw [List.set_set, ← held, List.set_getElem_self inside]
  rw [restore, padded, restored]

end Reorg.Coins
