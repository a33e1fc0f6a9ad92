/-
**Sidechains after a block was taken back.**

Sums that do not fit in a word wrap around, and a block whose sums do may not be taken back at all.
But when it is, the records that it found are there again: founded in the same way, with the same
epochs and with the same amounts on their way. Only an amount that was not positive when it matured
is not put back, and no sum that fits is of that kind.

* `Amount.LeftOf`, `Sidechain.RestOf`, `SidechainView.RestOf`: what there is again of an amount on
  its way, of a record, and of all of them;
* `Sidechain.RestOf.removeImmature?`, `Sidechain.RestOf.applyTo`: an amount is taken back from its
  way, and one that matured is put back;
* `SidechainView.RestOf.disconnectIntents`: the intents of a transaction, taken back;
* `SidechainView.RestOf.disconnectSidechains`: certificates and maturing, taken back.
-/

import Reorg.Proofs.Sidechain.Entries

namespace Reorg

open Fallible OrderedMap

/-! ### Amounts on their way -/

namespace Amount

variable {before between after : Option Amount} {amount : Amount}

/-- What waits is left as it was, or nothing is, if it was not positive. -/
def LeftOf (before after : Option Amount) : Prop :=
  after = before ∨ after = none ∧ ∃ amount, before = some amount ∧ amount ≤ 0

theorem LeftOf.held (left : LeftOf before after) (held : after = some amount) :
    before = some amount := by
  rcases left with same | ⟨gone, -⟩
  · exact same.symm.trans held
  · cases gone.symm.trans held

theorem LeftOf.trans (first : LeftOf before between) (second : LeftOf between after) :
    LeftOf before after := by
  rcases second with same | ⟨gone, amount, held, low⟩
  · exact same ▸ first
  · exact .inr ⟨gone, amount, first.held held, low⟩

end Amount

/-! ### Records -/

namespace Sidechain

variable {whole part later reduced : Sidechain} {height : Nat} {amount : Amount}

/-- A record is what there is of another one: it was founded in the same way, has the same epoch and
the same amounts on their way, but some that are not positive may be missing. -/
structure RestOf (whole part : Sidechain) : Prop where
  founding : part.founding = whole.founding
  lastEpoch : part.lastEpoch = whole.lastEpoch
  waiting : ∀ height, Amount.LeftOf (whole.immature.get? height) (part.immature.get? height)

theorem RestOf.refl (whole : Sidechain) : whole.RestOf whole := ⟨rfl, rfl, fun _ => .inl rfl⟩

theorem RestOf.absent (rest : whole.RestOf part) (absent : whole.immature.get? height = none) :
    part.immature.get? height = none :=
  (rest.waiting height).elim (·.trans absent) (·.1)

theorem RestOf.trans (first : whole.RestOf part) (second : part.RestOf later) :
    whole.RestOf later where
  founding := second.founding.trans first.founding
  lastEpoch := second.lastEpoch.trans first.lastEpoch
  waiting height := (first.waiting height).trans (second.waiting height)

/-- A change at one height that is taken back, as the other heights see it too. -/
theorem RestOf.of_change (rest : later.RestOf part) (founding : reduced.founding = whole.founding)
    (lastEpoch : reduced.lastEpoch = whole.lastEpoch)
    (here : Amount.LeftOf (whole.immature.get? height) (reduced.immature.get? height))
    (forth : ∀ due, height ≠ due → later.immature.get? due = whole.immature.get? due)
    (back : ∀ due, height ≠ due → reduced.immature.get? due = part.immature.get? due) :
    whole.RestOf reduced := by
  refine ⟨founding, lastEpoch, fun due => ?_⟩
  by_cases same : height = due
  · exact same ▸ here
  · rw [← forth due same, back due same]
    exact rest.waiting due

/-- The balance does not count. -/
theorem RestOf.balance (rest : whole.RestOf part) (balance : Amount) :
    whole.RestOf { part with balance } :=
  ⟨rest.founding, rest.lastEpoch, rest.waiting⟩

variable [Arithmetic] [Arithmetic.Lawful]

/-- Every amount on its way is what was kept of some sum. -/
def Kept (sidechain : Sidechain) : Prop :=
  ∀ height amount, sidechain.immature.get? height = some amount → Arithmetic.amount amount = amount

theorem Kept.addImmature (kept : whole.Kept) : (whole.addImmature height amount).Kept := by
  by_cases nothing : amount = 0
  · rw [nothing, addImmature_zero]
    exact kept
  · rw [addImmature_of_ne nothing]
    intro due found held
    rw [get?_insert] at held
    split at held
    · cases held
      exact Arithmetic.amount_amount _
    · exact kept due found held

/-- What waits was kept, and so is nothing where nothing waits. -/
theorem Kept.getD (kept : whole.Kept) :
    Arithmetic.amount ((whole.immature.get? height).getD 0) =
      (whole.immature.get? height).getD 0 := by
  cases held : whole.immature.get? height with
  | none => exact Arithmetic.amount_zero
  | some amount => exact kept height amount held

/-- **An amount that is taken back from its way** leaves what there was before, or takes an entry of
zero with it. -/
theorem RestOf.removeImmature? (kept : whole.Kept) (fits : Arithmetic.amount amount = amount)
    (rest : (whole.addImmature height amount).RestOf part)
    (removed : part.removeImmature? height amount = some reduced) : whole.RestOf reduced := by
  by_cases nothing : amount = 0
  · rw [nothing, Sidechain.removeImmature?, if_pos rfl] at removed
    rw [nothing, addImmature_zero] at rest
    cases removed
    exact rest
  · rw [addImmature_of_ne nothing] at rest
    rw [Sidechain.removeImmature?, if_neg nothing] at removed
    cases held : part.immature.get? height with
    | none =>
      rw [held] at removed
      cases removed
    | some sum =>
      have whole_sum : Arithmetic.amount ((whole.immature.get? height).getD 0 + amount) = sum := by
        have same := (rest.waiting height).held held
        rwa [get?_insert_self, Option.some.injEq] at same
      -- what is kept of the difference is what waited before
      have before : Arithmetic.amount (sum - amount) = (whole.immature.get? height).getD 0 := by
        rw [← whole_sum, Int.sub_eq_add_neg, Arithmetic.amount_add, ← Int.sub_eq_add_neg,
          Int.add_sub_cancel, kept.getD]
      rw [held] at removed
      dsimp only at removed
      split at removed
      · cases removed
      · split at removed <;> cases removed
        · next all =>
          refine rest.of_change rest.founding rest.lastEpoch ?_ (fun _ apart => get?_insert_ne apart)
            fun _ apart => by rw [get?_erase, if_neg apart]
          rw [all, Int.sub_self, Arithmetic.amount_zero] at before
          rw [get?_erase_self]
          cases waits : whole.immature.get? height with
          | none => exact .inl rfl
          | some found =>
            rw [waits, Option.getD_some] at before
            exact .inr ⟨rfl, found, rfl, Int.le_of_eq before.symm⟩
        · next notAll =>
          refine rest.of_change rest.founding rest.lastEpoch ?_ (fun _ apart => get?_insert_ne apart)
            fun _ apart => get?_insert_ne apart
          rw [get?_insert_self, before]
          cases waits : whole.immature.get? height with
          | none =>
            rw [waits, Option.getD_none, Int.zero_add, fits] at whole_sum
            exact absurd whole_sum.symm notAll
          | some found => exact .inl rfl

/-- **An amount that matured is put back**, if it is positive, and the epoch with it. -/
theorem RestOf.applyTo {undo : SidechainUndo} (kept : whole.Kept)
    (founding : later.founding = whole.founding)
    (erased : later.immature = whole.immature.erase height) (rest : later.RestOf part)
    (matured : undo.matured = Arithmetic.amount ((whole.immature.get? height).getD 0))
    (epoch : undo.priorEpoch = whole.lastEpoch) : whole.RestOf (undo.applyTo part height) := by
  rw [kept.getD] at matured
  have gone : part.immature.get? height = none := rest.absent (by rw [erased, get?_erase_self])
  have forth : ∀ due, height ≠ due → later.immature.get? due = whole.immature.get? due :=
    fun due apart => by rw [erased, get?_erase, if_neg apart]
  have founded := rest.founding.trans founding
  rw [SidechainUndo.applyTo]
  by_cases positive : 0 < undo.matured
  · simp only [if_pos positive, addImmature_of_ne (Int.ne_of_gt positive)]
    refine rest.of_change founded epoch ?_ forth fun _ apart => get?_insert_ne apart
    have back : Arithmetic.amount (0 + undo.matured) = (whole.immature.get? height).getD 0 := by
      rw [Int.zero_add, matured, kept.getD]
    rw [get?_insert_self, gone, Option.getD_none, back]
    cases waits : whole.immature.get? height with
    | none =>
      rw [matured, waits] at positive
      exact absurd positive (Int.lt_irrefl 0)
    | some found => exact .inl rfl
  · simp only [if_neg positive]
    refine rest.of_change founded epoch ?_ forth fun _ _ => rfl
    cases waits : whole.immature.get? height with
    | none => exact .inl gone
    | some found =>
      rw [matured, waits, Option.getD_some] at positive
      exact .inr ⟨gone, found, rfl, Int.not_lt.mp positive⟩

end Sidechain

/-! ### Views -/

namespace SidechainView

variable {whole part rest view next late left entered : SidechainView} {undos : SidechainUndos}
  {entries : List (SidechainId × SidechainUndo)} {certificates : List Certificate}
  {id : SidechainId} {sidechain : Sidechain} {height maturity : Nat} {txid : Digest}
  {placed : Intent × Nat} {tx : Transaction}

/-- The same sidechains are there, and each record is what there is of the one before. -/
def RestOf (whole part : SidechainView) : Prop :=
  ∀ id, Option.Rel Sidechain.RestOf (whole.get? id) (part.get? id)

theorem RestOf.refl (whole : SidechainView) : whole.RestOf whole := fun id => by
  cases whole.get? id with
  | none => exact .none
  | some sidechain => exact .some (.refl sidechain)

theorem RestOf.trans (first : whole.RestOf part) (second : part.RestOf rest) : whole.RestOf rest := by
  intro id
  have before := first id
  have after := second id
  revert before after
  cases whole.get? id <;> cases part.get? id <;> cases rest.get? id <;> rintro ⟨⟩ ⟨⟩
  · exact .none
  · next first second => exact .some (first.trans second)

/-- Of each record there is something left. -/
theorem RestOf.remains (rest : whole.RestOf part) (known : whole.get? id = some sidechain) :
    ∃ later, part.get? id = some later ∧ sidechain.RestOf later := by
  have here := rest id
  rw [known] at here
  cases held : part.get? id with
  | none =>
    rw [held] at here
    cases here
  | some later =>
    rw [held] at here
    cases here with
    | some rest => exact ⟨later, rfl, rest⟩

/-- Behind each record there is one that it is the rest of. -/
theorem RestOf.known (rest : whole.RestOf part) (held : part.get? id = some sidechain) :
    ∃ before, whole.get? id = some before ∧ before.RestOf sidechain := by
  have here := rest id
  rw [held] at here
  cases known : whole.get? id with
  | none =>
    rw [known] at here
    cases here
  | some before =>
    rw [known] at here
    cases here with
    | some rest => exact ⟨before, rfl, rest⟩

/-- A change of one sidechain that is taken back, as the others see it too. -/
theorem RestOf.of_change (rest : next.RestOf late)
    (here : Option.Rel Sidechain.RestOf (view.get? id) (left.get? id))
    (forth : ∀ other, id ≠ other → next.get? other = view.get? other)
    (back : ∀ other, id ≠ other → left.get? other = late.get? other) : view.RestOf left := by
  intro other
  by_cases same : id = other
  · exact same ▸ here
  · rw [← forth other same, back other same]
    exact rest other

/-! ### Intents -/

section Intents

variable [Arithmetic]

/-- Every amount on its way is what was kept of some sum. -/
def Kept (view : SidechainView) : Prop :=
  ∀ id sidechain, view.get? id = some sidechain → sidechain.Kept

theorem Kept.restOf (kept : whole.Kept) (rest : whole.RestOf part) : part.Kept := by
  intro id sidechain held height amount waits
  obtain ⟨before, known, rest⟩ := rest.known held
  exact kept id before known height amount ((rest.waiting height).held waits)

theorem Kept.receives (kept : view.Kept) (receives : view.Receives height txid placed sidechain) :
    sidechain.Kept := by
  obtain ⟨intent, index⟩ := placed
  cases intent with
  | creation destination value params =>
    obtain ⟨-, rfl⟩ := receives
    intro height amount waits
    cases waits
  | forward destination value id => exact kept id sidechain receives
  | withdrawal id address params => exact kept id sidechain receives

variable [Arithmetic.Lawful]

theorem Kept.connectIntent (kept : view.Kept)
    (connected : connectIntent maturity height txid view placed = .ok next) : next.Kept := by
  obtain ⟨-, sidechain, receives, rfl⟩ := exists_of_connectIntent connected
  intro other found held
  rw [get?_insert] at held
  split at held
  · cases held
    exact (kept.receives receives).addImmature
  · exact kept other found held

theorem Kept.connectIntents (kept : view.Kept)
    (connected : view.connectIntents maturity height tx = .ok next) : next.Kept :=
  foldlM_preserves Kept (fun _ _ _ _ kept connected => kept.connectIntent connected) kept connected

/-- A valid intent moves an amount that fits. -/
theorem amount_scopedValue_of_connectIntent
    (connected : connectIntent maturity height txid view placed = .ok next) :
    Arithmetic.amount placed.1.scopedValue = placed.1.scopedValue := by
  obtain ⟨_, valid, -⟩ := bind_eq_ok_iff.mp connected
  have bounds := (Intent.sendable_of_validate (mapError_eq_ok_iff.mp valid)).bounds
  exact Arithmetic.amount_of_fits bounds.1 (Int.le_trans bounds.2 (by decide))

/-- **An intent is taken back**, also from records that only are what there is of its own. -/
theorem RestOf.disconnectIntent (kept : view.Kept)
    (connected : connectIntent maturity height txid view placed = .ok next)
    (rest : next.RestOf late)
    (disconnected : SidechainView.disconnectIntent maturity height txid late placed = .ok left) :
    view.RestOf left := by
  have fits := amount_scopedValue_of_connectIntent connected
  obtain ⟨-, sidechain, receives, rfl⟩ := exists_of_connectIntent connected
  have before := kept.receives receives
  obtain ⟨intent, index⟩ := placed
  obtain ⟨later, found, taken⟩ := bind_eq_ok_iff.mp disconnected
  obtain ⟨sent, known, record⟩ := rest.known (find_eq_ok_iff.mp found)
  rw [get?_insert_self, Option.some.injEq] at known
  subst known
  split at taken
  · cases taken
  next reduced removed =>
  have restored := record.removeImmature? before fits removed
  have stays : view.get? (intent.sidechainAt txid index) = some sidechain →
      (Except.ok (OrderedMap.insert late (intent.sidechainAt txid index) reduced) :
        Except ChainError SidechainView) = .ok left → view.RestOf left := by
    rintro held ⟨⟩
    refine rest.of_change ?_ (fun other apart => get?_insert_ne apart)
      fun other apart => get?_insert_ne apart
    rw [held, get?_insert_self]
    exact .some restored
  cases intent with
  | creation destination value params =>
    dsimp only at taken
    split at taken
    · cases taken
    · cases taken
      have absent : view.get? (createdSidechainId txid index) = none := receives.1
      have gone : Option.Rel Sidechain.RestOf (view.get? (createdSidechainId txid index))
          ((late.erase (createdSidechainId txid index)).get? (createdSidechainId txid index)) := by
        rw [absent, get?_erase_self]
        exact .none
      exact rest.of_change gone (fun other apart => get?_insert_ne apart)
        fun other apart => by rw [get?_erase]; exact if_neg apart
  | forward destination value id => exact stays receives taken
  | withdrawal id address params => exact stays receives taken

theorem RestOf.disconnectIntents (kept : view.Kept)
    (connected : view.connectIntents maturity height tx = .ok next) (rest : next.RestOf late)
    (disconnected : late.disconnectIntents maturity height tx = .ok left) : view.RestOf left := by
  refine foldlM_reverse_recovers Kept RestOf ?_ ?_ kept connected rest disconnected
  · exact fun _ _ _ _ kept connected => kept.connectIntent connected
  · exact fun _ _ _ _ _ _ kept connected rest back => rest.disconnectIntent kept connected back

end Intents

/-! ### Certificates and maturing -/

section Rounds

variable [Arithmetic] {block : Block} {undo : BlockUndo}

/-- What a block does to sidechains by itself: it takes from their way what waited for its height,
and it does no more to one that has no record in its log. -/
theorem exists_of_connectSidechains [Arithmetic.Lawful]
    (connected : ChainState.connectSidechains view block = .ok (next, undos)) (id : SidechainId) :
    (∀ before, view.get? id = some before → ∃ later, next.get? id = some later ∧
      later.founding = before.founding ∧
      later.immature = before.immature.erase block.height) ∧
    (undos.get? id = none → next.get? id = view.get? id) := by
  have recorded := (records_of_connectSidechains connected id).1
  obtain ⟨⟨paid, between⟩, certificates, matured⟩ := bind_eq_ok_iff.mp connected
  have paying := Paying.of_connectCertificates certificates
  obtain rfl : _ = next := congrArg Prod.fst (pure_eq_ok_iff.mp matured)
  rw [get?_matured]
  constructor
  · intro before held
    have kept := paying.kept id
    rw [held, Option.map_some, Option.map_eq_some_iff] at kept
    obtain ⟨middle, found, same⟩ := kept
    obtain ⟨founding, immature⟩ := Prod.mk.inj same
    rw [found, Option.map_some]
    refine ⟨_, rfl, Sidechain.frame_matured.1.trans founding, ?_⟩
    rw [Sidechain.immature_matured, immature]
  · intro absent
    rw [absent, Option.isSome_none, Bool.false_eq_true, false_iff, not_or] at recorded
    obtain ⟨uncertified, still⟩ := recorded
    have unpaid := paying.unpaid id (Option.not_isSome_iff_eq_none.mp fun paid =>
      uncertified ((paying.recorded_iff id).mp paid))
    rw [unpaid]
    cases held : view.get? id with
    | none => rfl
    | some before =>
      rw [waitingAt, held, Option.bind_some, Option.not_isSome_iff_eq_none] at still
      rw [Option.map_some, Sidechain.matured_of_absent still]

/-- What the records of different sidechains do, applied one after the other. -/
theorem get?_of_disconnectEntries (distinct : (entries.map Prod.fst).Nodup)
    (disconnected : entries.foldlM (disconnectEntry height) late = .ok entered) (id : SidechainId) :
    (∀ undo, (id, undo) ∈ entries → ∀ sidechain, late.get? id = some sidechain →
      entered.get? id = some (undo.applyTo sidechain height)) ∧
    (id ∉ entries.map Prod.fst → entered.get? id = late.get? id) := by
  induction entries generalizing late with
  | nil =>
    cases disconnected
    exact ⟨fun _ member => (List.not_mem_nil member).elim, fun _ => rfl⟩
  | cons entry entries ih =>
    obtain ⟨key, undo⟩ := entry
    obtain ⟨fresh, distinct⟩ := List.nodup_cons.mp distinct
    rw [List.foldlM_cons] at disconnected
    obtain ⟨next, first, disconnected⟩ := bind_eq_ok_iff.mp disconnected
    obtain ⟨applied, others⟩ := ih distinct disconnected
    obtain ⟨found, known, first⟩ := bind_eq_ok_iff.mp first
    split at first
    · cases first
    cases first
    constructor
    · intro record member sidechain held
      rcases List.mem_cons.mp member with here | behind
      · cases here
        cases (find_eq_ok_iff.mp known).symm.trans held
        rw [others fresh, get?_insert_self]
      · have apart : key ≠ id := by
          rintro rfl
          exact fresh (List.mem_map.mpr ⟨_, behind, rfl⟩)
        exact applied record behind sidechain ((get?_insert_ne apart).trans held)
    · intro outside
      rw [List.map_cons, List.mem_cons, not_or] at outside
      rw [others outside.2, get?_insert_ne (Ne.symm outside.1)]

/-- Certificates that are taken back change balances only. -/
theorem RestOf.disconnectCertificates (rest : whole.RestOf entered)
    (disconnected : certificates.foldlM disconnectCertificate entered = .ok left) :
    whole.RestOf left := by
  refine foldlM_preserves whole.RestOf (fun view certificate after _ rest step => ?_) rest
    disconnected
  obtain ⟨sidechain, found, paid⟩ := bind_eq_ok_iff.mp step
  obtain rfl := pure_eq_ok_iff.mp paid
  intro id
  rw [get?_insert]
  split
  · next here =>
    subst here
    obtain ⟨before, known, record⟩ := rest.known (find_eq_ok_iff.mp found)
    rw [known]
    exact .some (record.balance _)
  · exact rest id

/-- **What a block did to sidechains by itself is taken back** by its own log, also from records that
only are what there is of those it led to. -/
theorem RestOf.disconnectSidechains [Arithmetic.Lawful] (kept : view.Kept)
    (connected : ChainState.connectSidechains view block = .ok (next, undos))
    (logged : undo.sidechains = undos) (rest : next.RestOf late)
    (disconnected : ChainState.disconnectSidechains late block undo = .ok left) :
    view.RestOf left := by
  obtain ⟨entered, entries, certificates⟩ := bind_eq_ok_iff.mp disconnected
  rw [logged] at entries
  refine RestOf.disconnectCertificates (fun id => ?_) certificates
  obtain ⟨changed, unchanged⟩ := exists_of_connectSidechains connected id
  obtain ⟨applied, others⟩ := get?_of_disconnectEntries (keys_nodup undos) entries id
  cases recorded : undos.get? id with
  | none =>
    have outside : id ∉ undos.entries.map Prod.fst := fun inside => by
      obtain ⟨⟨_, undo⟩, member, rfl⟩ := List.mem_map.mp inside
      cases recorded.symm.trans (get?_eq_some_iff.mpr member)
    rw [others outside, ← unchanged recorded]
    exact rest id
  | some record =>
    obtain ⟨before, known, rfl⟩ := (records_of_connectSidechains connected id).2 record recorded
    obtain ⟨later, found, founding, erased⟩ := changed before known
    obtain ⟨part, held, rest⟩ := rest.remains found
    rw [known, applied _ (get?_eq_some_iff.mp recorded) part held]
    refine .some (rest.applyTo (kept id before known) founding erased ?_ rfl)
    rw [waitingAt, known, Option.bind_some]

end Rounds

end SidechainView

end Reorg
