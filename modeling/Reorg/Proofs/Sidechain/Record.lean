/-
**Sidechain records, changed and restored.**

A record is sound when it holds no negative balance and every amount on its way is positive. Putting
an amount on its way, maturing it, and paying out what the balance covers keep that; and on sound
records the steps back are exact.

* `Intent.Sendable`, `Intent.sendable_of_validate`: what a valid intent may ask for;
* `Sidechain.removeImmature?_addImmature`: an amount is taken back from its way;
* `SidechainUndo.applyTo_matured`, `applyTo_unmatured`: the record of a sidechain restores it.
-/

import Reorg.Undo.Sidechain
import Reorg.Proofs.Fallible
import Reorg.Proofs.OrderedMap
import Reorg.Proofs.Wire.Numbers

namespace Reorg

open Fallible OrderedMap

/-! ### Intents -/

namespace Intent

variable {intent : Intent} {value : Amount}

/-- An intent says something, moves a positive amount or pays a fee, and no more than there is. -/
def Sendable (intent : Intent) : Prop :=
  intent.isNull = false ∧
    match intent with
    | .creation _ value _ | .forward _ value _ => 0 < value ∧ value ≤ Amount.maxMoney
    | .withdrawal _ _ params => 0 ≤ params.fee ∧ params.fee ≤ Amount.maxMoney

theorem bounds_of_checkSent (sent : checkSent value = .ok ()) :
    0 < value ∧ value ≤ Amount.maxMoney := by
  unfold checkSent at sent
  split at sent
  · next inside => exact ⟨inside.1, (Amount.bounds_of_inRange inside.2).2⟩
  · cases sent

theorem sendable_of_validate (valid : intent.validate = .ok ()) : intent.Sendable := by
  unfold validate at valid
  split at valid
  · cases valid
  · next something =>
    refine ⟨Bool.not_eq_true _ ▸ something, ?_⟩
    cases intent with
    | creation destination value params =>
      obtain ⟨_, sent, -⟩ := bind_eq_ok_iff.mp valid
      exact bounds_of_checkSent sent
    | forward destination value sidechain => exact bounds_of_checkSent valid
    | withdrawal sidechain address params =>
      have passed : params.validate = .ok () := valid
      unfold RequestParams.validate at passed
      split at passed
      · next inside => exact Amount.bounds_of_inRange inside
      · cases passed

theorem Sendable.bounds (sendable : intent.Sendable) :
    0 ≤ intent.scopedValue ∧ intent.scopedValue ≤ Amount.maxMoney := by
  cases intent with
  | creation destination value params => exact ⟨Int.le_of_lt sendable.2.1, sendable.2.2⟩
  | forward destination value sidechain => exact ⟨Int.le_of_lt sendable.2.1, sendable.2.2⟩
  | withdrawal sidechain address params => exact sendable.2

end Intent

/-! ### Sound records -/

namespace Sidechain

variable {sidechain matured : Sidechain} {height : Nat} {amount : Amount}

/-- The balance is not negative, and every amount on its way is positive. -/
structure Sound (sidechain : Sidechain) : Prop where
  solvent : 0 ≤ sidechain.balance
  waiting : ∀ {height amount}, sidechain.immature.get? height = some amount → 0 < amount

theorem sound_iff :
    sidechain.Sound ↔
      0 ≤ sidechain.balance ∧ ∀ entry ∈ sidechain.immature.entries, 0 < entry.2 := by
  rw [← forall_get?_iff sidechain.immature fun _ amount => 0 < amount]
  constructor
  · exact fun sound => ⟨sound.solvent, fun _ _ held => sound.waiting held⟩
  · exact fun both => ⟨both.1, fun held => both.2 _ _ held⟩

instance : Decidable sidechain.Sound := decidable_of_iff _ sound_iff.symm

theorem sound_create {txid : Digest} {params : CreationParams} :
    (create height txid params).Sound where
  solvent := Int.le_refl 0
  waiting held := by cases held

/-- What a record says of the making of its sidechain. -/
def founding (sidechain : Sidechain) : Nat × Digest × CreationParams :=
  (sidechain.creationHeight, sidechain.creationTx, sidechain.params)

theorem addImmature_zero [Arithmetic] : sidechain.addImmature height 0 = sidechain := if_pos rfl

theorem addImmature_of_ne [Arithmetic] (nonzero : amount ≠ 0) :
    sidechain.addImmature height amount =
      { sidechain with
        immature := sidechain.immature.insert height
          (Arithmetic.amount ((sidechain.immature.get? height).getD 0 + amount)) } :=
  if_neg nonzero

/-- What waits for a height is positive, and nothing if there is no entry. -/
theorem Sound.getD_nonneg (sound : sidechain.Sound) :
    0 ≤ (sidechain.immature.get? height).getD 0 := by
  cases held : sidechain.immature.get? height with
  | none => exact Int.le_refl 0
  | some amount => exact Int.le_of_lt (sound.waiting held)

theorem Sound.addImmature (sound : sidechain.Sound) (nonneg : 0 ≤ amount) :
    (sidechain.addImmature height amount).Sound := by
  by_cases nothing : amount = 0
  · rw [nothing, addImmature_zero]
    exact sound
  · rw [addImmature_of_ne nothing]
    refine ⟨sound.solvent, fun {other found} held => ?_⟩
    rw [get?_insert] at held
    split at held
    · cases held
      exact Int.add_pos_of_nonneg_of_pos sound.getD_nonneg (Int.lt_iff_le_and_ne.mpr
        ⟨nonneg, Ne.symm nothing⟩)
    · exact sound.waiting held

/-- **An amount on its way is taken back**, and its entry goes when there was none before. -/
theorem removeImmature?_addImmature (sound : sidechain.Sound) :
    (sidechain.addImmature height amount).removeImmature? height amount = some sidechain := by
  by_cases nothing : amount = 0
  · rw [nothing, addImmature_zero, removeImmature?, if_pos rfl]
  · rw [addImmature_of_ne nothing, removeImmature?, if_neg nothing]
    simp only [get?_insert_self, Arithmetic.amount_unbounded]
    cases held : sidechain.immature.get? height with
    | none =>
      have whole : (none : Option Amount).getD 0 + amount = amount := Int.zero_add amount
      rw [whole, if_neg (Int.lt_irrefl amount), if_pos rfl, erase_insert held]
    | some waiting =>
      have more : amount < waiting + amount := Int.lt_add_of_pos_left amount (sound.waiting held)
      have notLess : ¬ waiting + amount < amount := Int.not_lt.mpr (Int.le_of_lt more)
      have notAll : ¬ waiting + amount = amount := Int.ne_of_gt more
      rw [Option.getD_some, if_neg notLess, if_neg notAll, Int.add_sub_cancel, insert_insert,
        insert_eq_self held]

/-! ### Maturing -/

theorem mature?_eq_some_iff [Arithmetic] : sidechain.mature? height = some (amount, matured) ↔
    sidechain.immature.get? height = some amount ∧
      { sidechain with
        balance := Arithmetic.amount (sidechain.balance + amount)
        immature := sidechain.immature.erase height } = matured := by
  rw [mature?, Option.map_eq_some_iff]
  constructor
  · rintro ⟨_, held, ⟨⟩⟩
    exact ⟨held, rfl⟩
  · rintro ⟨held, rfl⟩
    exact ⟨amount, held, rfl⟩

theorem Sound.mature? (sound : sidechain.Sound)
    (moved : sidechain.mature? height = some (amount, matured)) : matured.Sound := by
  obtain ⟨held, rfl⟩ := mature?_eq_some_iff.mp moved
  refine ⟨Int.add_nonneg sound.solvent (Int.le_of_lt (sound.waiting held)), fun found => ?_⟩
  rw [get?_erase] at found
  split at found
  · cases found
  · exact sound.waiting found

/-- What matures at a height matures there once. -/
theorem get?_immature_of_mature? [Arithmetic]
    (moved : sidechain.mature? height = some (amount, matured)) :
    matured.immature.get? height = none := by
  obtain ⟨_, rfl⟩ := mature?_eq_some_iff.mp moved
  exact get?_erase_self

/-- A sound record stays so when it pays what its balance covers. -/
theorem Sound.pay (sound : sidechain.Sound) {total : Amount} {epoch : Epoch}
    (covered : total ≤ sidechain.balance) :
    Sound { sidechain with balance := sidechain.balance - total, lastEpoch := epoch } :=
  ⟨Int.sub_nonneg_of_le covered, sound.waiting⟩

end Sidechain

/-! ### Undo records -/

namespace SidechainUndo

variable {sidechain matured : Sidechain} {height : Nat} {amount : Amount} {epoch : Epoch}

/-- A record without a matured amount restores the epoch. -/
theorem applyTo_unmatured :
    applyTo ⟨0, epoch⟩ sidechain height = { sidechain with lastEpoch := epoch } := by
  rw [applyTo, if_neg (Int.lt_irrefl 0), Int.sub_zero, Arithmetic.amount_unbounded]

/-- **A record restores what matured**, and the epoch. -/
theorem applyTo_matured (sound : sidechain.Sound)
    (moved : sidechain.mature? height = some (amount, matured)) :
    applyTo ⟨amount, epoch⟩ matured height = { sidechain with lastEpoch := epoch } := by
  obtain ⟨held, rfl⟩ := Sidechain.mature?_eq_some_iff.mp moved
  have positive := sound.waiting held
  have back : (sidechain.immature.erase height).insert height (0 + amount) =
      sidechain.immature := by
    rw [Int.zero_add, insert_erase, insert_eq_self held]
  simp only [applyTo, if_pos positive, Sidechain.addImmature_of_ne (Int.ne_of_gt positive),
    get?_erase_self, Option.getD_none, Arithmetic.amount_unbounded, back, Int.add_sub_cancel]

end SidechainUndo

end Reorg
