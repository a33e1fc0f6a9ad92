/-
**Amounts on the wire.**

The wire has a 64-bit word for the packed form of an amount. Packing makes a number up to nine times
as large, so the packed form of a word may be larger than any word; then only what is left of it
after some turns of the word is carried, and another amount comes back. Which words could still
come back is settled by solving one equation for each number of turns: what is unpacked from the
rest is a fixed distance below the word, times a power of ten.

* `unpackWord_packWord_iff`: a word comes back exactly when its packed form is a word;
* `packWord_unpackWord_iff`: a packed form comes back exactly when its number is a word;
* `carried`, `Packs`, `carried_eq_self_iff`: the amounts that the wire carries unchanged;
* `packStepwise`, `unpackStepwise`: the same packing, done in words that wrap around at every step;
* `packing_bijective`: where nothing wraps around, packing is a bijection.
-/

import Mathlib.Data.Set.Function
import Mathlib.Tactic.LinearCombination
import Reorg.Proofs.Wire.Codec

namespace Reorg.Amount

variable {word rank left : Nat} {value : Amount}

/-! ### Packed forms -/

/-- A number that does not end in a zero is packed as its rank among such numbers. -/
theorem pack_of_digit (digit : word % 10 ≠ 0) :
    pack word = 10 * (9 * (word / 10) + (word % 10 - 1)) + 1 := by
  have some : word ≠ 0 := by
    rintro rfl
    exact digit rfl
  rw [pack, if_neg some, stripZeros, if_neg digit]
  rfl

/-- The packed form of a word that ends in a zero is a word. -/
theorem pack_lt_of_zero (small : word < UInt64.size) (ends : word % 10 = 0) :
    pack word < UInt64.size := by
  have size : UInt64.size = 18446744073709551616 := rfl
  have step : stripZeros 9 word =
      ((stripZeros 8 (word / 10)).1, (stripZeros 8 (word / 10)).2 + 1) := by
    rw [stripZeros, if_pos ends]
  obtain ⟨whole, -, -⟩ := stripZeros_spec 8 (word / 10)
  generalize stripZeros 8 (word / 10) = split at step whole
  obtain ⟨stripped, zeros⟩ := split
  have shorter : stripped ≤ word / 10 := by
    simp only at whole
    rw [whole]
    exact Nat.le_mul_of_pos_right stripped (Nat.pow_pos (by decide))
  rw [pack, step]
  simp only
  split_ifs <;> omega

/-- What is unpacked from the rest of a packed form after some turns of the word. -/
theorem unpack_after_turns {turns zeros shift : Nat} (low : zeros < 9)
    (turned : 10 * rank + 1 = UInt64.size * turns + left)
    (shifted : 10 * shift = UInt64.size * turns + zeros) :
    shift ≤ rank ∧ unpack left =
      (10 * ((rank - shift) / 9) + (rank - shift) % 9 + 1) * Nat.pow 10 zeros := by
  generalize UInt64.size * turns = whole at turned shifted
  have some : left ≠ 0 := by omega
  have last : (left - 1) % 10 = zeros := by omega
  have rest : (left - 1) / 10 = rank - shift := by omega
  refine ⟨by omega, ?_⟩
  rw [unpack, if_neg some]
  simp only [last, rest]
  rw [if_pos low]

/-! ### The words that could come back -/

/-- The equation of a number of turns has one solution among the words. -/
theorem eq_of_scaled {size scale shift inverse carry : Nat} (small : word < size)
    (some : 0 < scale) (whole : left + shift = word) (back : left * scale % size = word)
    (inverts : inverse * (scale - 1) = 1 + size * carry) :
    word = inverse * (shift * scale) % size := by
  obtain ⟨less, rfl⟩ : ∃ less, scale = less + 1 := ⟨scale - 1, (Nat.sub_add_cancel some).symm⟩
  have turned : left * (less + 1) = word + size * (left * (less + 1) / size) := by
    rw [← back]
    exact (Nat.mod_add_div _ _).symm
  generalize left * (less + 1) / size = quotient at turned
  rw [Nat.add_sub_cancel] at inverts
  have solved : (inverse * (shift * (less + 1)) : Int) =
      word + size * (carry * word - inverse * quotient) := by
    have turned : (left : Int) * (less + 1) = word + size * quotient := by exact_mod_cast turned
    have inverts : (inverse : Int) * less = 1 + size * carry := by exact_mod_cast inverts
    have whole : (left : Int) + shift = word := by exact_mod_cast whole
    linear_combination inverse * (less + 1) * whole - inverse * turned + word * inverts
  have same := congrArg (· % (size : Int)) solved
  simp only [Int.add_mul_emod_self_left] at same
  rw [Int.emod_eq_of_lt (Int.natCast_nonneg word) (Int.ofNat_lt.mpr small)] at same
  exact_mod_cast same.symm

/-- A word comes back although its packed form is no word. -/
def ComesBack (word : Nat) : Prop :=
  UInt64.size ≤ pack word ∧ unpackWord (packWord word) = word

instance : Decidable (ComesBack word) := inferInstanceAs (Decidable (_ ∧ _))

/-- **No word comes back after some turns**, when the two that could do not: their distances from
what is unpacked differ by the carry of a division by nine. -/
theorem not_comesBack_of_turns (turns zeros shift inverse carry : Nat)
    (shifted : zeros < 9 ∧ 10 * shift = UInt64.size * turns + zeros)
    (inverts : inverse * (Nat.pow 10 zeros - 1) = 1 + UInt64.size * carry)
    (fails : ∀ found ∈ [shift + shift / 9, shift + shift / 9 + 1],
      ¬ ComesBack (inverse * (found * Nat.pow 10 zeros) % UInt64.size))
    (small : word < UInt64.size) (ranked : word = rank + rank / 9 + 1)
    (packed : packWord word = left) (turned : 10 * rank + 1 = UInt64.size * turns + left) :
    ¬ ComesBack word := by
  intro comes
  obtain ⟨enough, unpacked⟩ := unpack_after_turns shifted.1 turned shifted.2
  have back : (10 * ((rank - shift) / 9) + (rank - shift) % 9 + 1) * Nat.pow 10 zeros %
      UInt64.size = word := by
    rw [← unpacked, ← packed]
    exact comes.2
  have near : ∃ found ∈ [shift + shift / 9, shift + shift / 9 + 1],
      10 * ((rank - shift) / 9) + (rank - shift) % 9 + 1 + found = word := by
    simp only [List.mem_cons, List.not_mem_nil, or_false, exists_eq_or_imp, exists_eq_left]
    clear back turned shifted inverts
    omega
  obtain ⟨found, member, whole⟩ := near
  have solved : word = inverse * (found * Nat.pow 10 zeros) % UInt64.size :=
    eq_of_scaled small (Nat.pow_pos (by decide)) whole back inverts
  exact fails found member (solved ▸ comes)

/-- After turns that leave no zero behind, less than the word comes back. -/
theorem not_comesBack_of_even_turns (turns shift : Nat)
    (shifted : 0 < shift ∧ 10 * shift = UInt64.size * turns) (small : word < UInt64.size)
    (ranked : word = rank + rank / 9 + 1) (packed : packWord word = left)
    (turned : 10 * rank + 1 = UInt64.size * turns + left) : ¬ ComesBack word := by
  intro comes
  obtain ⟨enough, unpacked⟩ := unpack_after_turns (show 0 < 9 by decide) turned shifted.2
  have less : 10 * ((rank - shift) / 9) + (rank - shift) % 9 + 1 < word := by
    have some := shifted.1
    clear turned shifted
    omega
  have back : unpackWord (packWord word) = 10 * ((rank - shift) / 9) + (rank - shift) % 9 + 1 := by
    rw [packed, unpackWord, unpacked, show Nat.pow 10 0 = 1 from rfl, Nat.mul_one,
      Nat.mod_eq_of_lt (Nat.lt_trans less small)]
  exact Nat.ne_of_lt less (back.symm.trans comes.2)

theorem not_comesBack (small : word < UInt64.size) : ¬ ComesBack word := by
  intro comes
  have digit : word % 10 ≠ 0 := fun ends => Nat.not_le.mpr (pack_lt_of_zero small ends) comes.1
  have packed := pack_of_digit digit
  obtain ⟨rank, rankIs⟩ : ∃ rank, rank = 9 * (word / 10) + (word % 10 - 1) := ⟨_, rfl⟩
  rw [← rankIs] at packed
  have ranked : word = rank + rank / 9 + 1 := by omega
  have turned := (Nat.div_add_mod (10 * rank + 1) UInt64.size).symm
  have rest : packWord word = (10 * rank + 1) % UInt64.size := by rw [packWord, packed]
  obtain ⟨turns, turnsAre⟩ : ∃ turns, turns = (10 * rank + 1) / UInt64.size := ⟨_, rfl⟩
  rw [← turnsAre] at turned
  have few : turns = 1 ∨ turns = 2 ∨ turns = 3 ∨ turns = 4 ∨ turns = 5 ∨ turns = 6 ∨ turns = 7 ∨
      turns = 8 := by
    have size : UInt64.size = 18446744073709551616 := rfl
    have large := comes.1
    rw [packed, size] at large
    rw [size] at small turnsAre
    clear turned rest
    omega
  clear turnsAre
  rcases few with rfl | rfl | rfl | rfl | rfl | rfl | rfl | rfl
  · exact not_comesBack_of_turns 1 4 1844674407370955162 13458245626333751279 7295
      (by decide) (by decide) (by decide +kernel) small ranked rest turned comes
  · exact not_comesBack_of_turns 2 8 3689348814741910324 300153063250403071 1627133
      (by decide) (by decide) (by decide +kernel) small ranked rest turned comes
  · exact not_comesBack_of_turns 3 2 5534023222112865485 12670490878911611211 68
      (by decide) (by decide) (by decide +kernel) small ranked rest turned comes
  · exact not_comesBack_of_turns 4 6 7378697629483820647 1672254362768354751 90653
      (by decide) (by decide) (by decide +kernel) small ranked rest turned comes
  · exact not_comesBack_of_even_turns 5 9223372036854775808 (by decide) small ranked rest turned
      comes
  · exact not_comesBack_of_turns 6 4 11068046444225730970 13458245626333751279 7295
      (by decide) (by decide) (by decide +kernel) small ranked rest turned comes
  · exact not_comesBack_of_turns 7 8 12912720851596686132 300153063250403071 1627133
      (by decide) (by decide) (by decide +kernel) small ranked rest turned comes
  · exact not_comesBack_of_turns 8 2 14757395258967641293 12670490878911611211 68
      (by decide) (by decide) (by decide +kernel) small ranked rest turned comes

/-- **A word comes back exactly when its packed form is a word.** -/
theorem unpackWord_packWord_iff (small : word < UInt64.size) :
    unpackWord (packWord word) = word ↔ pack word < UInt64.size :=
  ⟨fun back => Nat.lt_of_not_le fun large => not_comesBack small ⟨large, back⟩,
    unpackWord_packWord small⟩

/-! ### Packed forms that come back -/

/-- Stripping finds the zeros that a number was given, as far as the limit. -/
theorem stripZeros_scaled {limit zeros number : Nat} (most : zeros ≤ limit)
    (digit : zeros < limit → number % 10 ≠ 0) :
    stripZeros limit (number * Nat.pow 10 zeros) = (number, zeros) := by
  induction limit generalizing zeros with
  | zero =>
    obtain rfl := Nat.le_zero.mp most
    rw [stripZeros, show Nat.pow 10 0 = 1 from rfl, Nat.mul_one]
  | succ limit ih =>
    cases zeros with
    | zero => rw [stripZeros, show Nat.pow 10 0 = 1 from rfl, Nat.mul_one,
        if_neg (digit (Nat.succ_pos _))]
    | succ zeros =>
      have scaled : number * Nat.pow 10 (zeros + 1) = number * Nat.pow 10 zeros * 10 :=
        (Nat.mul_assoc _ _ _).symm
      rw [scaled, stripZeros, if_pos (Nat.mul_mod_left _ _), Nat.mul_div_cancel _ (by decide),
        ih (Nat.le_of_succ_le_succ most) fun below => digit (Nat.succ_lt_succ below)]

/-- **An unpacked number is packed again.** -/
theorem pack_unpack (packed : Nat) : pack (unpack packed) = packed := by
  by_cases nothing : packed = 0
  · rw [nothing]
    rfl
  rw [unpack, if_neg nothing]
  have some : ∀ number zeros : Nat, (number + 1) * Nat.pow 10 zeros ≠ 0 := fun number zeros =>
    Nat.ne_of_gt (Nat.mul_pos (Nat.succ_pos _) (Nat.pow_pos (by decide)))
  by_cases low : (packed - 1) % 10 < 9
  · simp only [if_pos low]
    rw [pack, if_neg (some _ _), stripZeros_scaled (Nat.le_of_lt low) fun _ => by omega]
    simp only
    rw [if_pos low]
    omega
  · have scale : 1000000000 = Nat.pow 10 9 := rfl
    simp only [if_neg low]
    rw [scale, pack, if_neg (some _ _), stripZeros_scaled (Nat.le_refl 9) fun below =>
      (Nat.lt_irrefl 9 below).elim]
    simp only
    rw [if_neg (Nat.lt_irrefl 9)]
    omega

/-- **A packed form comes back exactly when the number that it stands for is a word.** -/
theorem packWord_unpackWord_iff {packed : Nat} (small : packed < UInt64.size) :
    packWord (unpackWord packed) = packed ↔ unpack packed < UInt64.size := by
  constructor
  · intro back
    have word : unpackWord packed < UInt64.size := Nat.mod_lt _ (by decide)
    have packs : pack (unpackWord packed) < UInt64.size :=
      (unpackWord_packWord_iff word).mp (congrArg unpackWord back)
    rw [packWord, Nat.mod_eq_of_lt packs] at back
    rw [← back, unpack_pack]
    exact word
  · intro fits
    rw [unpackWord, Nat.mod_eq_of_lt fits, packWord, pack_unpack, Nat.mod_eq_of_lt small]

/-! ### Carried amounts -/

/-- The amount that is read where an amount was written. -/
def carried (value : Amount) : Amount :=
  ofWord UInt64.size (unpackWord (packWord (toWord UInt64.size value)))

/-- An amount fits its word, and the packed form of that is a word. -/
def Packs (value : Amount) : Prop :=
  (Int64.minValue.toInt ≤ value ∧ value ≤ Int64.maxValue.toInt) ∧
    pack (toWord UInt64.size value) < UInt64.size

instance : Decidable value.Packs := inferInstanceAs (Decidable (_ ∧ _))

/-- **The wire carries exactly those amounts unchanged** that fit. -/
theorem carried_eq_self_iff : carried value = value ↔ value.Packs := by
  unfold Packs
  rw [← unpackWord_packWord_iff (toWord_lt (by decide))]
  constructor
  · intro same
    have fits := int64_of_ofWord (unpackWord (packWord (toWord UInt64.size value)))
    have word := congrArg (toWord UInt64.size) same
    rw [carried] at same
    rw [same] at fits
    refine ⟨fits, ?_⟩
    rw [carried, toWord_ofWord] at word
    exact (Nat.mod_eq_of_lt (Nat.mod_lt _ (by decide))).symm.trans word
  · rintro ⟨fits, back⟩
    rw [carried, back, ofWord_toWord_int64 fits]

theorem packs_of_inRange (inside : value.inRange = true) : value.Packs := by
  obtain ⟨nonneg, most⟩ := bounds_of_inRange inside
  have room : 10 * maxMoney < (UInt64.size : Int) := by decide
  have word : toWord UInt64.size value = value.toNat := toWord_of_nonneg nonneg (by omega)
  refine ⟨⟨Int.le_trans (by decide) nonneg, Int.le_trans most (by decide)⟩, ?_⟩
  rw [word]
  have packed := pack_le value.toNat
  omega

/-! ### Steps that wrap around -/

/-- Packing with the arithmetic of 64-bit words, which may wrap around at every step. -/
def packStepwise (word : UInt64) : UInt64 :=
  if word = 0 then 0
  else
    let (stripped, zeros) := stripZeros 9 word.toNat
    if zeros < 9 then
      (UInt64.ofNat (stripped / 10) * 9 + UInt64.ofNat (stripped % 10) - 1) * 10 +
        (UInt64.ofNat zeros + 1)
    else
      (UInt64.ofNat stripped - 1) * 10 + 10

/-- Unpacking with the arithmetic of 64-bit words, one multiplication for each zero. -/
def unpackStepwise (packed : UInt64) : UInt64 :=
  if packed = 0 then 0
  else
    let zeros := (packed - 1) % 10
    let digits := (packed - 1) / 10
    let number := if zeros < 9 then digits / 9 * 10 + (digits % 9 + 1) else digits + 1
    (fun number => number * 10)^[zeros.toNat] number

/-- **Wrapping around at every step of packing** is wrapping around once, at the end. -/
theorem toNat_packStepwise (word : UInt64) : (packStepwise word).toNat = packWord word.toNat := by
  have size : UInt64.size = 18446744073709551616 := rfl
  have small := word.toNat_lt_size
  unfold packStepwise packWord pack
  by_cases nothing : word = 0
  · simp [nothing]
  have some : word.toNat ≠ 0 := fun zero => nothing (UInt64.toNat_inj.mp zero)
  rw [if_neg nothing, if_neg some]
  obtain ⟨whole, most, digit⟩ := stripZeros_spec 9 word.toNat
  generalize stripZeros 9 word.toNat = split at whole most digit
  obtain ⟨stripped, zeros⟩ := split
  simp only at whole most digit ⊢
  have positive : stripped ≠ 0 := by
    rintro rfl
    exact some (whole.trans (Nat.zero_mul _))
  have shorter : stripped ≤ word.toNat := by
    rw [whole]
    exact Nat.le_mul_of_pos_right stripped (Nat.pow_pos (by decide))
  by_cases low : zeros < 9
  · have last := digit low
    rw [if_pos low, if_pos low, size]
    simp only [UInt64.toNat_add, UInt64.toNat_mul, UInt64.toNat_sub, UInt64.toNat_ofNat',
      UInt64.reduceToNat, Nat.reducePow]
    omega
  · rw [if_neg low, if_neg low, size]
    simp only [UInt64.toNat_add, UInt64.toNat_mul, UInt64.toNat_sub, UInt64.toNat_ofNat',
      UInt64.reduceToNat, Nat.reducePow]
    omega

/-- Ten times as much for each zero, in words. -/
theorem toNat_iterate_mul_ten (zeros : Nat) (number : UInt64) :
    ((fun number => number * 10)^[zeros] number).toNat =
      number.toNat * Nat.pow 10 zeros % UInt64.size := by
  induction zeros generalizing number with
  | zero =>
    have small := number.toNat_lt_size
    simp [Nat.mod_eq_of_lt small]
  | succ zeros ih =>
    rw [Function.iterate_succ_apply, ih, UInt64.toNat_mul]
    have scaled : Nat.pow 10 (zeros + 1) = 10 * Nat.pow 10 zeros := Nat.mul_comm _ _
    rw [scaled, ← Nat.mul_assoc, Nat.mod_mul_mod]
    rfl

/-- **Wrapping around at every step of unpacking** is wrapping around once, at the end. -/
theorem toNat_unpackStepwise (packed : UInt64) :
    (unpackStepwise packed).toNat = unpackWord packed.toNat := by
  have size : UInt64.size = 18446744073709551616 := rfl
  have small := packed.toNat_lt_size
  unfold unpackStepwise unpackWord unpack
  by_cases nothing : packed = 0
  · simp [nothing]
  have some : packed.toNat ≠ 0 := fun zero => nothing (UInt64.toNat_inj.mp zero)
  have before : (packed - 1).toNat = packed.toNat - 1 := by
    simp only [UInt64.toNat_sub, UInt64.reduceToNat, Nat.reducePow]
    omega
  have zeros : ((packed - 1) % 10).toNat = (packed.toNat - 1) % 10 := by
    simp [UInt64.toNat_mod, before]
  have digits : ((packed - 1) / 10).toNat = (packed.toNat - 1) / 10 := by
    simp [UInt64.toNat_div, before]
  have few : (packed - 1) % 10 < 9 ↔ (packed.toNat - 1) % 10 < 9 := by
    rw [UInt64.lt_iff_toNat_lt, zeros]
    rfl
  simp only [if_neg nothing, if_neg some, toNat_iterate_mul_ten, zeros, few]
  by_cases low : (packed.toNat - 1) % 10 < 9
  · have number : ((packed - 1) / 10 / 9 * 10 + ((packed - 1) / 10 % 9 + 1)).toNat =
        10 * ((packed.toNat - 1) / 10 / 9) + (packed.toNat - 1) / 10 % 9 + 1 := by
      simp only [UInt64.toNat_add, UInt64.toNat_mul, UInt64.toNat_div, UInt64.toNat_mod, digits,
        UInt64.reduceToNat, Nat.reducePow]
      omega
    rw [if_pos low, if_pos low, number]
  · have number : ((packed - 1) / 10 + 1).toNat = (packed.toNat - 1) / 10 + 1 := by
      simp only [UInt64.toNat_add, digits, UInt64.reduceToNat, Nat.reducePow]
      omega
    have nine : (packed.toNat - 1) % 10 = 9 := by omega
    rw [if_neg low, if_neg low, number, nine]

/-! ### Where nothing wraps around -/

/-- The words whose packed form is a word. -/
def packable : Set Nat := {word | word < UInt64.size ∧ pack word < UInt64.size}

/-- The words that, as a packed form, stand for a word. -/
def unpackable : Set Nat := {packed | packed < UInt64.size ∧ unpack packed < UInt64.size}

theorem mapsTo_packWord : Set.MapsTo packWord packable unpackable := by
  rintro word ⟨small, packs⟩
  refine ⟨packWord_lt word, ?_⟩
  rw [packWord, Nat.mod_eq_of_lt packs, unpack_pack]
  exact small

theorem mapsTo_unpackWord : Set.MapsTo unpackWord unpackable packable := by
  rintro packed ⟨small, fits⟩
  refine ⟨Nat.mod_lt _ (by decide), ?_⟩
  rw [unpackWord, Nat.mod_eq_of_lt fits, pack_unpack]
  exact small

/-- An amount in range is a word whose packed form is a word. -/
theorem toWord_mem_packable (inside : value.inRange = true) :
    toWord UInt64.size value ∈ packable :=
  ⟨toWord_lt (by decide), (packs_of_inRange inside).2⟩

/-- Amounts in range are told apart by their words. -/
theorem injOn_toWord : Set.InjOn (toWord UInt64.size) {value | inRange value = true} := by
  intro value inside value' inside' same
  have words := congrArg (ofWord UInt64.size) same
  rwa [ofWord_toWord_int64 (packs_of_inRange inside).1,
    ofWord_toWord_int64 (packs_of_inRange inside').1] at words

/-- **Packing is a bijection wherever it does not wrap around**, between the words whose packed form
is a word and the packed forms that stand for a word, and unpacking is its inverse there; outside of
them nothing comes back. The amounts in range are such words, so no two of them have the same packed
form. This is so of the packing that wraps around at every step. -/
theorem packing_bijective :
    (∀ word : UInt64, (packStepwise word).toNat = packWord word.toNat ∧
      (unpackStepwise word).toNat = unpackWord word.toNat) ∧
    (∀ word < UInt64.size, unpackWord (packWord word) = word ↔ pack word < UInt64.size) ∧
    (∀ packed < UInt64.size, packWord (unpackWord packed) = packed ↔ unpack packed < UInt64.size) ∧
    Set.BijOn packWord packable unpackable ∧
    (∀ value : Amount, value.inRange = true → toWord UInt64.size value ∈ packable) ∧
    Set.InjOn (fun value => packWord (toWord UInt64.size value)) {value | inRange value = true} := by
  have inverse : Set.InvOn unpackWord packWord packable unpackable := by
    constructor
    · intro word member
      exact unpackWord_packWord member.1 member.2
    · intro packed member
      exact (packWord_unpackWord_iff member.1).mpr member.2
  have bijective : Set.BijOn packWord packable unpackable :=
    inverse.bijOn mapsTo_packWord mapsTo_unpackWord
  refine ⟨fun word => ⟨toNat_packStepwise word, toNat_unpackStepwise word⟩,
    fun word small => unpackWord_packWord_iff small,
    fun packed small => packWord_unpackWord_iff small, bijective,
    fun value inside => toWord_mem_packable inside, ?_⟩
  exact bijective.injOn.comp injOn_toWord fun value inside => toWord_mem_packable inside

/-- The largest word does not come back, one that ends in three zeros does, and so does the packed
form that stands for it; all the money and one unit less have packed forms of their own. -/
theorem packing_bijective_edges :
    (18446744073709551615 < UInt64.size ∧ 18446744073709551000 < UInt64.size ∧
      pack 18446744073709551000 < UInt64.size) ∧
    unpackWord (packWord 18446744073709551615) ≠ 18446744073709551615 ∧
    unpackWord (packWord 18446744073709551000) = 18446744073709551000 ∧
    packWord (unpackWord (pack 18446744073709551000)) = pack 18446744073709551000 ∧
    inRange maxMoney = true ∧ toWord UInt64.size maxMoney ∈ packable := by
  obtain ⟨-, words, packedForms, -, amounts, -⟩ := packing_bijective
  have small : pack 18446744073709551000 < UInt64.size := by decide
  refine ⟨⟨by decide, by decide, small⟩, ?_, (words _ (by decide)).mpr small,
    (packedForms _ small).mpr ?_, by decide, amounts _ (by decide)⟩
  · intro back
    exact absurd ((words _ (by decide)).mp back) (by decide)
  · rw [unpack_pack]
    decide

end Reorg.Amount
