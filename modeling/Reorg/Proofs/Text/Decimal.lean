/-
**Two numbers in a row.**

Two numbers that are written one behind the other do not say where the first one ends: digits at the
end of the first may as well stand in front of the second. This is the only doubt there is, since a
number begins with no zero to spare, and a sign stands only in front.

* `Decimal.join`, `Decimal.extend`: numbers with more digits behind them;
* `Decimal.Shifted`: digits that were at the end of the one number are in front of the other;
* `Decimal.row_eq_iff`: when two rows of two numbers are the same text.
-/

import Reorg.Proofs.Text.Described

namespace Reorg.Decimal

open Legible (described_ofNat described_negSucc described_int_injective)

/-- The number with the digits of one number in front and those of another one behind. -/
def join (front back : Nat) : Nat := 10 ^ (Nat.toDigits 10 back).length * front + back

/-- A number with the digits of another one behind its own. -/
def extend (number : Int) (digits : Nat) : Int :=
  match number with
  | .ofNat number => join number digits
  | .negSucc number => -(join (number + 1) digits : Nat)

/-- The digits that the first number of the second row has at its end, and the first number of the
first row has not, are in front of the second number there. -/
def Shifted (number next number' next' : Int) : Prop :=
  ∃ moved rest : Nat, number ≠ 0 ∧ 0 < moved ∧ number' = extend number moved ∧
    next = join moved rest ∧ next' = rest

/-! ### Numbers without a sign -/

variable {front back number rest : Nat}

/-- The value of some digits with a number behind them. -/
theorem ofDigitChars_append_toDigits (digits : List Char) (rest : Nat) :
    Nat.ofDigitChars 10 (digits ++ Nat.toDigits 10 rest) 0 =
      join (Nat.ofDigitChars 10 digits 0) rest := by
  rw [Nat.ofDigitChars_append, Nat.ofDigitChars_eq_ofDigitChars_zero,
    Nat.ofDigitChars_ten_toDigits]
  rfl

/-- **The digits of a joined number** are those of its parts, unless there is nothing in front. The
induction takes the last digit away. -/
theorem toDigits_join (positive : 0 < front) :
    Nat.toDigits 10 (join front back) = Nat.toDigits 10 front ++ Nat.toDigits 10 back := by
  induction back using Nat.strongRecOn with
  | ind back ih =>
    by_cases small : back < 10
    · have one : (Nat.toDigits 10 back).length = 1 := by rw [Nat.toDigits_of_lt_base small]; rfl
      rw [join, one, Nat.pow_one, Nat.toDigits_append_toDigits (by decide) positive small]
    · have large : 10 ≤ back := Nat.le_of_not_lt small
      have split : Nat.toDigits 10 back =
          Nat.toDigits 10 (back / 10) ++ Nat.toDigits 10 (back % 10) := by
        rw [Nat.toDigits_of_base_le (by decide) large,
          Nat.toDigits_of_lt_base (Nat.mod_lt _ (by decide))]
      have last : (Nat.toDigits 10 (back % 10)).length = 1 := by
        rw [Nat.toDigits_of_lt_base (Nat.mod_lt _ (by decide))]; rfl
      have joined : join front back = 10 * join front (back / 10) + back % 10 := by
        rw [join, join, split, List.length_append, last, Nat.pow_succ, Nat.mul_add]
        have parts : back = 10 * (back / 10) + back % 10 := by omega
        nth_rewrite 2 [parts]
        ring
      have some : 0 < join front (back / 10) :=
        Nat.add_pos_left (Nat.mul_pos (Nat.pow_pos (by decide)) positive) _
      rw [joined, ← Nat.toDigits_append_toDigits (by decide) some (Nat.mod_lt _ (by decide)),
        ih (back / 10) (by omega), split, List.append_assoc]

theorem join_zero : join 0 back = back := by rw [join, Nat.mul_zero, Nat.zero_add]

/-- **The digits of a number with the digits of another at the end**: nothing is in front, or a
number without a zero to spare. -/
theorem toDigits_eq_append_iff {digits : List Char} :
    Nat.toDigits 10 number = digits ++ Nat.toDigits 10 rest ↔
      digits = [] ∧ number = rest ∨
        ∃ front, 0 < front ∧ digits = Nat.toDigits 10 front ∧ number = join front rest := by
  constructor
  · intro same
    have value := ofDigitChars_append_toDigits digits rest
    rw [← same, Nat.ofDigitChars_ten_toDigits] at value
    rcases Nat.eq_zero_or_pos (Nat.ofDigitChars 10 digits 0) with none | positive
    · rw [none, join_zero] at value
      rw [value] at same
      exact .inl ⟨List.self_eq_append_left.mp same, value⟩
    · refine .inr ⟨_, positive, ?_, value⟩
      rw [value, toDigits_join positive] at same
      exact (List.append_cancel_right same).symm
  · rintro (⟨rfl, rfl⟩ | ⟨front, positive, rfl, rfl⟩)
    · rfl
    · exact toDigits_join positive

/-! ### Numbers with a sign -/

theorem described_neg (positive : 0 < number) :
    described (-(number : Int)) = '-' :: Nat.toDigits 10 number := by
  obtain ⟨before, rfl⟩ := Nat.exists_eq_succ_of_ne_zero positive.ne'
  exact described_negSucc before

/-- The digits of an extended number stand behind those of the number, unless that is zero. -/
theorem described_extend {number : Int} (nonzero : number ≠ 0) (digits : Nat) :
    described (extend number digits) = described number ++ Nat.toDigits 10 digits := by
  cases number with
  | ofNat number =>
    have positive : 0 < number := Nat.pos_of_ne_zero fun zero => nonzero (zero ▸ rfl)
    show described ((join number digits : Nat) : Int) = described (number : Int) ++ _
    rw [described_ofNat, described_ofNat, toDigits_join positive]
  | negSucc number =>
    have positive : 0 < join (number + 1) digits :=
      Nat.add_pos_left (Nat.mul_pos (Nat.pow_pos (by decide)) (Nat.succ_pos number)) _
    show described (-((join (number + 1) digits : Nat) : Int)) = _
    rw [described_neg positive, described_negSucc, toDigits_join (Nat.succ_pos number)]
    rfl

theorem minus_not_mem_toDigits : '-' ∉ Nat.toDigits 10 number := fun member =>
  absurd (Nat.isDigit_of_mem_toDigits (by decide) (by decide) member) (by decide)

/-- A number without a sign in its text is not negative. -/
theorem exists_of_minus_not_mem {number : Int} (unsigned : '-' ∉ described number) :
    ∃ value : Nat, number = value := by
  cases number with
  | ofNat value => exact ⟨value, rfl⟩
  | negSucc value => exact absurd (described_negSucc value ▸ List.mem_cons_self) unsigned

/-- A sign stands only in front. -/
theorem minus_not_mem_tail (number : Int) : '-' ∉ (described number).tail := by
  cases number with
  | ofNat value =>
    have digits : described (Int.ofNat value) = Nat.toDigits 10 value := described_ofNat value
    rw [digits]
    exact fun member => minus_not_mem_toDigits (List.mem_of_mem_tail member)
  | negSucc value =>
    rw [described_negSucc]
    exact minus_not_mem_toDigits

theorem described_ne_nil {number : Int} : described number ≠ [] := by
  obtain ⟨first, begins, -⟩ := Legible.int.begins number
  rintro none
  rw [none] at begins
  cases begins

/-- No number has a zero in front of other digits. -/
theorem described_ne_zero_append {number : Int} :
    described number ≠ described 0 ++ Nat.toDigits 10 rest := by
  have zero : described 0 = ['0'] := described_ofNat 0
  intro same
  rw [zero] at same
  have unsigned : '-' ∉ described number := by
    rw [same, List.mem_append, not_or]
    exact ⟨by decide, minus_not_mem_toDigits⟩
  obtain ⟨value, rfl⟩ := exists_of_minus_not_mem unsigned
  rw [described_ofNat] at same
  rcases toDigits_eq_append_iff.mp same with ⟨none, -⟩ | ⟨front, positive, digits, -⟩
  · cases none
  · have value : Nat.ofDigitChars 10 ['0'] 0 = front := by
      rw [digits, Nat.ofDigitChars_ten_toDigits]
    exact positive.ne value

/-- **What may stand between two numbers** that are both numbers with it: nothing, or digits without
a zero to spare, behind a number other than zero. -/
theorem exists_between_iff {number next number' next' : Int} :
    (∃ between, described number' = described number ++ between ∧
        described next = between ++ described next') ↔
      number = number' ∧ next = next' ∨ Shifted number next number' next' := by
  constructor
  · rintro ⟨between, longer, begins⟩
    rcases between with _ | ⟨first, others⟩
    · rw [List.append_nil] at longer
      exact .inl ⟨(described_int_injective longer).symm, described_int_injective begins⟩
    -- No sign is between, nor behind it, so both of the second numbers are not negative.
    have behind : '-' ∉ others ++ described next' := by
      have tail : (described next).tail = others ++ described next' := by rw [begins]; rfl
      exact tail ▸ minus_not_mem_tail next
    have inFront : '-' ∉ first :: others := by
      have tail : (described number').tail = (described number).tail ++ first :: others := by
        rw [longer, List.tail_append_of_ne_nil described_ne_nil]
      exact fun member => minus_not_mem_tail number' (tail ▸ List.mem_append_right _ member)
    have unsigned : '-' ∉ described next := by
      rw [begins, List.mem_append, not_or]
      exact ⟨inFront, fun member => behind (List.mem_append_right _ member)⟩
    obtain ⟨value, rfl⟩ := exists_of_minus_not_mem unsigned
    obtain ⟨rest, rfl⟩ := exists_of_minus_not_mem fun member =>
      behind (List.mem_append_right _ member)
    rw [described_ofNat, described_ofNat] at begins
    rcases toDigits_eq_append_iff.mp begins with ⟨none, -⟩ | ⟨moved, positive, digits, joined⟩
    · cases none
    rw [digits] at longer
    have nonzero : number ≠ 0 := by
      rintro rfl
      exact described_ne_zero_append longer
    have extended : number' = extend number moved :=
      described_int_injective (longer.trans (described_extend nonzero moved).symm)
    exact .inr ⟨moved, rest, nonzero, positive, extended, congrArg Nat.cast joined, rfl⟩
  · rintro (⟨rfl, rfl⟩ | ⟨moved, rest, nonzero, positive, rfl, rfl, rfl⟩)
    · exact ⟨[], (List.append_nil _).symm, rfl⟩
    · refine ⟨Nat.toDigits 10 moved, described_extend nonzero moved, ?_⟩
      rw [described_ofNat, described_ofNat, toDigits_join positive]

/-- **Two rows of two numbers are the same text** when the numbers are the same, or when the digits
at the end of one first number are in front of the other second number. -/
theorem row_eq_iff {number next number' next' : Int} :
    described number ++ described next = described number' ++ described next' ↔
      number = number' ∧ next = next' ∨
        Shifted number next number' next' ∨ Shifted number' next' number next := by
  rw [List.append_eq_append_iff, exists_between_iff, exists_between_iff, eq_comm (a := number'),
    eq_comm (a := next')]
  tauto

end Reorg.Decimal
