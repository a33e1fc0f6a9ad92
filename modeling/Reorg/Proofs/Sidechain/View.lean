/-
**The sidechains of a chain, changed by a block and restored.**

A block changes sidechains in three rounds: intents put amounts on their way, certificates pay out
and end epochs, and what waited for the height of the block matures. The records of the log are
applied in another order: epochs and matured amounts go first, for all sidechains at once, then the
certificates from the last to the first, then the intents. So while certificates are taken back, the
epochs are already those before the block.

* `SidechainView.Sound`: what holds of the sidechains of every chain;
* `SidechainView.disconnectIntents_connectIntents`: the intents of a transaction, taken back;
* `SidechainView.rewound`: sidechains with the epochs that some records hold;
* `SidechainView.Reverts`: the records of a block, applied, lead to given sidechains;
* `disconnectSidechains_connectSidechains`: certificates and maturing, taken back.
-/

import Reorg.Chain.Disconnect
import Reorg.Proofs.Sidechain.Record

namespace Reorg

open Fallible OrderedMap

namespace SidechainView

variable {view next target : SidechainView} {undos later : SidechainUndos} {id : SidechainId}
  {sidechain : Sidechain} {height maturity : Nat} {txid : Digest} {placed : Intent × Nat}

/-! ### Sound views -/

/-- Every sidechain has a sound record. -/
def Sound (view : SidechainView) : Prop :=
  ∀ id sidechain, view.get? id = some sidechain → sidechain.Sound

instance : Decidable view.Sound :=
  decidable_of_iff (∀ entry ∈ view.entries, entry.2.Sound)
    (forall_get?_iff view fun _ sidechain => sidechain.Sound).symm

theorem sound_empty : Sound .empty := fun _ _ held => by cases held

theorem Sound.insert (sound : view.Sound) (fits : sidechain.Sound) :
    Sound (OrderedMap.insert view id sidechain) := by
  intro other found held
  rw [get?_insert] at held
  split at held
  · cases held
    exact fits
  · exact sound other found held

theorem find_eq_ok_iff : view.find id = .ok sidechain ↔ view.get? id = some sidechain := by
  rw [find]
  cases view.get? id with
  | none => constructor <;> intro impossible <;> cases impossible
  | some found => rw [Except.ok.injEq, Option.some.injEq]

/-! ### Intents -/

/-- The record that an intent is for, before it reaches it: a new one if it creates it. -/
def Receives (view : SidechainView) (height : Nat) (txid : Digest) (placed : Intent × Nat)
    (sidechain : Sidechain) : Prop :=
  match placed.1 with
  | .creation _ _ params => view.get? (createdSidechainId txid placed.2) = none ∧
      sidechain = Sidechain.create height txid params
  | .forward _ _ id | .withdrawal id _ _ => view.get? id = some sidechain

/-- What an intent does: it puts its value on its way to the sidechain that it is for. -/
theorem exists_of_connectIntent [Arithmetic]
    (connected : connectIntent maturity height txid view placed = .ok next) :
    0 ≤ placed.1.scopedValue ∧ ∃ sidechain, view.Receives height txid placed sidechain ∧
      next = OrderedMap.insert view (placed.1.sidechainAt txid placed.2)
        (sidechain.addImmature (Arithmetic.height (height + maturity)) placed.1.scopedValue) := by
  obtain ⟨intent, index⟩ := placed
  obtain ⟨_, valid, connected⟩ := bind_eq_ok_iff.mp connected
  refine ⟨(Intent.sendable_of_validate (mapError_eq_ok_iff.mp valid)).bounds.1, ?_⟩
  have credited : ∀ id, credit view maturity height id intent = .ok next →
      ∃ sidechain, view.get? id = some sidechain ∧ next = OrderedMap.insert view id
        (sidechain.addImmature (Arithmetic.height (height + maturity)) intent.scopedValue) := by
    intro id credited
    obtain ⟨sidechain, found, credited⟩ := bind_eq_ok_iff.mp credited
    obtain ⟨_, _, credited⟩ := bind_eq_ok_iff.mp credited
    exact ⟨sidechain, find_eq_ok_iff.mp found, (pure_eq_ok_iff.mp credited).symm⟩
  cases intent with
  | creation destination value params =>
    have created : create view maturity height txid (createdSidechainId txid index) value params =
      .ok next := connected
    rw [create] at created
    split at created
    · cases created
    · next absent =>
      cases created
      exact ⟨_, ⟨contains_eq_false_iff.mp (Bool.not_eq_true _ ▸ absent), rfl⟩, rfl⟩
  | forward destination value sidechain => exact credited _ connected
  | withdrawal sidechain address params => exact credited _ connected

theorem Sound.connectIntent (sound : view.Sound)
    (connected : connectIntent maturity height txid view placed = .ok next) : next.Sound := by
  obtain ⟨nonneg, sidechain, receives, rfl⟩ := exists_of_connectIntent connected
  refine sound.insert (Sidechain.Sound.addImmature ?_ nonneg)
  obtain ⟨intent, index⟩ := placed
  cases intent with
  | creation destination value params =>
    obtain ⟨_, rfl⟩ := receives
    exact Sidechain.sound_create
  | forward destination value id => exact sound id sidechain receives
  | withdrawal id address params => exact sound id sidechain receives

/-- **An intent is taken back.** -/
theorem disconnectIntent_connectIntent (sound : view.Sound)
    (connected : SidechainView.connectIntent maturity height txid view placed = .ok next) :
    disconnectIntent maturity height txid next placed = .ok view := by
  obtain ⟨nonneg, sidechain, receives, rfl⟩ := exists_of_connectIntent connected
  obtain ⟨intent, index⟩ := placed
  refine bind_eq_ok_iff.mpr ⟨_, find_eq_ok_iff.mpr get?_insert_self, ?_⟩
  cases intent with
  | creation destination value params =>
    obtain ⟨absent, rfl⟩ := receives
    simp only [Sidechain.removeImmature?_addImmature Sidechain.sound_create]
    show (if 0 < (0 : Int) then _ else Except.ok _) = _
    rw [if_neg (Int.lt_irrefl 0)]
    exact congrArg Except.ok (erase_insert absent)
  | forward destination value id =>
    have held : view.get? id = some sidechain := receives
    simp only [Sidechain.removeImmature?_addImmature (sound _ _ held)]
    rw [insert_insert]
    exact congrArg Except.ok (insert_eq_self held)
  | withdrawal id address params =>
    have held : view.get? id = some sidechain := receives
    simp only [Sidechain.removeImmature?_addImmature (sound _ _ held)]
    rw [insert_insert]
    exact congrArg Except.ok (insert_eq_self held)

theorem Sound.connectIntents {tx : Transaction} (sound : view.Sound)
    (connected : connectIntents view maturity height tx = .ok next) : next.Sound :=
  foldlM_preserves (fun view => view.Sound)
    (fun _ _ _ _ sound connected => sound.connectIntent connected) sound connected

/-- **The intents of a transaction are taken back**, from the last one to the first. -/
theorem disconnectIntents_connectIntents {tx : Transaction} (sound : view.Sound)
    (connected : SidechainView.connectIntents view maturity height tx = .ok next) :
    disconnectIntents next maturity height tx = .ok view :=
  foldlM_reverse_undoes id (fun view => view.Sound)
    (fun _ _ _ _ sound connected => sound.connectIntent connected)
    (fun _ _ _ _ sound connected => disconnectIntent_connectIntent sound connected) sound connected

/-! ### Certificates -/

theorem connectCertificate_eq_ok_iff [Arithmetic] {certificate : Certificate} :
    connectCertificate (view, undos) certificate = .ok (next, later) ↔
      ∃ sidechain, view.get? certificate.sidechain = some sidechain ∧
        certificate.epoch = Arithmetic.epoch (sidechain.lastEpoch + 1) ∧
        certificate.total ≤ sidechain.balance ∧
        OrderedMap.insert view certificate.sidechain { sidechain with
          balance := Arithmetic.amount (sidechain.balance - certificate.total)
          lastEpoch := certificate.epoch } = next ∧
        undos.insert certificate.sidechain (undos.recordFor certificate.sidechain sidechain) =
          later := by
  rw [connectCertificate, bind_eq_ok_iff]
  refine exists_congr fun sidechain => ?_
  rw [find_eq_ok_iff]
  refine and_congr_right fun _ => ?_
  by_cases follows : certificate.epoch = Arithmetic.epoch (sidechain.lastEpoch + 1)
  · rw [if_neg (not_not.mpr follows)]
    by_cases short : sidechain.balance < certificate.total
    · rw [if_pos short]
      constructor
      · intro impossible
        cases impossible
      · rintro ⟨_, covered, _⟩
        exact absurd covered (Int.not_le.mpr short)
    · rw [if_neg short, Except.ok.injEq, Prod.mk.injEq]
      exact ⟨fun both => ⟨follows, Int.not_lt.mp short, both⟩, fun all => all.2.2⟩
  · rw [if_pos follows]
    constructor
    · intro impossible
      cases impossible
    · rintro ⟨follows', _⟩
      exact absurd follows' follows

/-- Sidechains with the epochs that some records hold. -/
def rewound (view : SidechainView) (undos : SidechainUndos) : SidechainView :=
  view.mapValues fun id sidechain =>
    { sidechain with lastEpoch := (undos.recordFor id sidechain).priorEpoch }

theorem get?_rewound : (rewound view undos).get? id = (view.get? id).map fun sidechain =>
    { sidechain with lastEpoch := (undos.recordFor id sidechain).priorEpoch } :=
  get?_mapValues

theorem rewound_empty : rewound view .empty = view := by
  refine ext_get? fun id => ?_
  rw [get?_rewound]
  cases view.get? id <;> rfl

/-- **A certificate is taken back** where the epochs are already those before the block. -/
theorem disconnectCertificate_rewound {certificate : Certificate}
    (connected : connectCertificate (view, undos) certificate = .ok (next, later)) :
    disconnectCertificate (rewound next later) certificate = .ok (rewound view undos) := by
  obtain ⟨sidechain, held, -, -, rfl, rfl⟩ := connectCertificate_eq_ok_iff.mp connected
  refine bind_eq_ok_iff.mpr ⟨{ sidechain with
    balance := sidechain.balance - certificate.total
    lastEpoch := (undos.recordFor certificate.sidechain sidechain).priorEpoch },
    find_eq_ok_iff.mpr ?_, pure_eq_ok_iff.mpr ?_⟩
  · rw [get?_rewound, get?_insert_self, Option.map_some, SidechainUndos.recordFor,
      get?_insert_self, Option.getD_some]
    rfl
  · refine ext_get? fun id => ?_
    rw [get?_insert, get?_rewound, get?_rewound, get?_insert]
    by_cases here : certificate.sidechain = id
    · subst here
      rw [if_pos rfl, held, Option.map_some]
      simp only [Arithmetic.amount_unbounded, Int.sub_add_cancel]
    · rw [if_neg here, if_neg here]
      refine Option.map_congr fun found _ => ?_
      simp only [SidechainUndos.recordFor, get?_insert_ne here]

/-- After the certificates of a block: the records hold epochs only, of known sidechains. -/
structure Certified (progress : SidechainView × SidechainUndos) : Prop where
  sound : progress.1.Sound
  unmatured : ∀ id undo, progress.2.get? id = some undo → undo.matured = 0
  known : ∀ id undo, progress.2.get? id = some undo → (progress.1.get? id).isSome = true

theorem Certified.start (sound : view.Sound) : Certified (view, .empty) where
  sound := sound
  unmatured _ _ recorded := by cases recorded
  known _ _ recorded := by cases recorded

theorem Certified.connectCertificate {progress after : SidechainView × SidechainUndos}
    {certificate : Certificate} (certified : Certified progress)
    (connected : connectCertificate progress certificate = .ok after) : Certified after := by
  obtain ⟨view, undos⟩ := progress
  obtain ⟨next, later⟩ := after
  obtain ⟨sidechain, held, -, covered, rfl, rfl⟩ := connectCertificate_eq_ok_iff.mp connected
  refine ⟨certified.sound.insert ((certified.sound _ _ held).pay covered),
    fun id undo recorded => ?_, fun id undo recorded => ?_⟩
  · rw [get?_insert] at recorded
    split at recorded
    · cases recorded
      rw [SidechainUndos.recordFor]
      cases before : undos.get? certificate.sidechain with
      | none => rfl
      | some undo => exact certified.unmatured _ _ before
    · exact certified.unmatured id undo recorded
  · rw [get?_insert] at recorded
    rw [get?_insert]
    split at recorded
    · next here => rw [if_pos here, Option.isSome_some]
    · next here =>
      rw [if_neg here]
      exact certified.known id undo recorded

/-- Certificates are paid one after the other. -/
theorem Certified.connectCertificates {progress after : SidechainView × SidechainUndos}
    {certificates : List Certificate} (certified : Certified progress)
    (connected : certificates.foldlM SidechainView.connectCertificate progress = .ok after) :
    Certified after :=
  foldlM_preserves Certified (fun _ _ _ _ certified paid => certified.connectCertificate paid)
    certified connected

/-! ### Maturing -/

/-- The records of a block at a height, applied to its sidechains, lead to given sidechains. What
has matured has left its way, so it cannot mature again. -/
structure Reverts (height : Nat) (target : SidechainView)
    (progress : SidechainView × SidechainUndos) : Prop where
  sound : progress.1.Sound
  unrecorded : ∀ id, progress.2.get? id = none → progress.1.get? id = target.get? id
  recorded : ∀ id undo, progress.2.get? id = some undo → ∃ sidechain,
    progress.1.get? id = some sidechain ∧ undo.matured ≤ sidechain.balance ∧
      target.get? id = some (undo.applyTo sidechain height) ∧
        (undo.matured = 0 ∨ sidechain.immature.get? height = none)

/-- After the certificates, the records lead to the epochs before the block. -/
theorem Certified.reverts {progress : SidechainView × SidechainUndos}
    (certified : Certified progress) : Reverts height (rewound progress.1 progress.2) progress where
  sound := certified.sound
  unrecorded id absent := by
    rw [get?_rewound]
    cases progress.1.get? id with
    | none => rfl
    | some sidechain => rw [Option.map_some, SidechainUndos.recordFor, absent, Option.getD_none]
  recorded id undo recorded := by
    obtain ⟨sidechain, held⟩ := Option.isSome_iff_exists.mp (certified.known id undo recorded)
    have unmatured := certified.unmatured id undo recorded
    refine ⟨sidechain, held, ?_, ?_, .inl unmatured⟩
    · rw [unmatured]
      exact (certified.sound _ _ held).solvent
    · obtain ⟨matured, epoch⟩ := undo
      obtain rfl : matured = 0 := unmatured
      rw [get?_rewound, held, SidechainUndo.applyTo_unmatured, Option.map_some,
        SidechainUndos.recordFor, recorded, Option.getD_some]

/-- Whether or not there is a record, nothing of a sidechain has matured yet that an amount waits to
join, so its record leads back to no more than its epoch. -/
theorem Reverts.of_waiting {progress : SidechainView × SidechainUndos} {amount : Amount}
    (reverts : Reverts height target progress) (held : progress.1.get? id = some sidechain)
    (way : sidechain.immature.get? height = some amount) :
    (progress.2.recordFor id sidechain).matured = 0 ∧ target.get? id =
      some { sidechain with lastEpoch := (progress.2.recordFor id sidechain).priorEpoch } := by
  rw [SidechainUndos.recordFor]
  cases recorded : progress.2.get? id with
  | none => exact ⟨rfl, (reverts.unrecorded id recorded).symm.trans held⟩
  | some undo =>
    obtain ⟨found, held', -, applied, unmatured | gone⟩ := reverts.recorded id undo recorded
    · obtain rfl : sidechain = found := Option.some.inj (held.symm.trans held')
      obtain ⟨_, epoch⟩ := undo
      obtain rfl := unmatured
      rw [SidechainUndo.applyTo_unmatured] at applied
      exact ⟨rfl, applied⟩
    · obtain rfl : sidechain = found := Option.some.inj (held.symm.trans held')
      rw [gone] at way
      cases way

/-- **A sidechain that matures** is recorded so that its record still leads back. -/
theorem Reverts.matureAt {progress : SidechainView × SidechainUndos}
    (reverts : Reverts height target progress) :
    Reverts height target (matureAt height progress id) := by
  obtain ⟨view, undos⟩ := progress
  rw [SidechainView.matureAt]
  split
  · exact reverts
  next sidechain held =>
  split
  · exact reverts
  next amount matured moved =>
  have fits := reverts.sound _ _ held
  have way : sidechain.immature.get? height = some amount :=
    (Sidechain.mature?_eq_some_iff.mp moved).1
  obtain ⟨nothing, leads⟩ := reverts.of_waiting held way
  refine ⟨reverts.sound.insert (fits.mature? moved), fun other absent => ?_,
    fun other undo recorded => ?_⟩
  · rw [SidechainUndos.addMatured, get?_insert] at absent
    split at absent
    · cases absent
    · next elsewhere =>
      rw [get?_insert_ne elsewhere]
      exact reverts.unrecorded other absent
  · rw [SidechainUndos.addMatured, get?_insert] at recorded
    rw [get?_insert]
    split at recorded
    · next here =>
      subst here
      cases recorded
      rw [if_pos rfl, nothing, Int.zero_add, Arithmetic.amount_unbounded]
      refine ⟨matured, rfl, ?_, ?_, .inr (Sidechain.get?_immature_of_mature? moved)⟩
      · obtain ⟨-, rfl⟩ := Sidechain.mature?_eq_some_iff.mp moved
        exact Int.le_add_of_nonneg_left fits.solvent
      · rw [SidechainUndo.applyTo_matured fits moved, leads]
    · next elsewhere =>
      rw [if_neg elsewhere]
      exact reverts.recorded other undo recorded

theorem Reverts.foldl_matureAt {ids : List SidechainId}
    {progress : SidechainView × SidechainUndos} (reverts : Reverts height target progress) :
    Reverts height target (ids.foldl (SidechainView.matureAt height) progress) := by
  induction ids generalizing progress with
  | nil => exact reverts
  | cons id ids ih => exact ih reverts.matureAt

/-- A record that may be applied to its sidechain changes that sidechain alone. -/
theorem disconnectEntry_eq_ok {undo : SidechainUndo} (held : view.get? id = some sidechain)
    (covered : undo.matured ≤ sidechain.balance) : disconnectEntry height view (id, undo) =
      .ok (OrderedMap.insert view id (undo.applyTo sidechain height)) := by
  refine bind_eq_ok_iff.mpr ⟨sidechain, find_eq_ok_iff.mpr held, ?_⟩
  exact if_neg (Int.not_lt.mpr covered)

/-- **Records of different sidechains, applied one after the other**, lead to given sidechains when
each of them does and all other sidechains are settled. What a record has changed is not looked at
again. -/
theorem foldlM_disconnectEntry {entries : List (SidechainId × SidechainUndo)}
    (distinct : (entries.map Prod.fst).Nodup)
    (settled : ∀ id, id ∉ entries.map Prod.fst → view.get? id = target.get? id)
    (lead : ∀ entry ∈ entries, ∃ sidechain, view.get? entry.1 = some sidechain ∧
      entry.2.matured ≤ sidechain.balance ∧
        target.get? entry.1 = some (entry.2.applyTo sidechain height)) :
    entries.foldlM (disconnectEntry height) view = .ok target := by
  induction entries generalizing view with
  | nil => exact congrArg Except.ok (ext_get? fun id => settled id List.not_mem_nil)
  | cons entry entries ih =>
    obtain ⟨sidechain, held, covered, leads⟩ := lead entry List.mem_cons_self
    obtain ⟨fresh, distinct⟩ := List.nodup_cons.mp distinct
    rw [List.foldlM_cons, disconnectEntry_eq_ok held covered]
    refine ih distinct (fun id outside => ?_) fun later member => ?_
    · by_cases here : entry.1 = id
      · rw [← here, get?_insert_self, leads]
      · rw [get?_insert_ne here]
        refine settled id fun inside => ?_
        rcases List.mem_cons.mp inside with same | inside
        · exact here same.symm
        · exact outside inside
    · have different : entry.1 ≠ later.1 :=
        fun same => fresh (same ▸ List.mem_map_of_mem member)
      rw [get?_insert_ne different]
      exact lead later (List.mem_cons_of_mem _ member)

/-- **The records of a block, applied, give the sidechains that they lead to.** -/
theorem Reverts.disconnectEntries {progress : SidechainView × SidechainUndos}
    (reverts : Reverts height target progress) :
    progress.2.entries.foldlM (disconnectEntry height) progress.1 = .ok target := by
  refine foldlM_disconnectEntry (keys_nodup progress.2)
    (fun id absent => reverts.unrecorded id ?_) fun entry member => ?_
  · refine Option.eq_none_iff_forall_ne_some.mpr fun undo recorded => absent ?_
    exact List.mem_map_of_mem (get?_eq_some_iff.mp recorded)
  · obtain ⟨sidechain, held, covered, leads, -⟩ :=
      reverts.recorded entry.1 entry.2 (get?_eq_some_iff.mpr member)
    exact ⟨sidechain, held, covered, leads⟩

end SidechainView

/-! ### A whole block -/

namespace ChainState

variable {view final : SidechainView} {undos : SidechainUndos} {block : Block} {undo : BlockUndo}

/-- What a block does to sidechains by itself, and that its records lead back to where its
certificates had led, but for the epochs. -/
theorem exists_of_connectSidechains (sound : view.Sound)
    (connected : connectSidechains view block = .ok (final, undos)) : ∃ paid,
      block.certificates.foldlM SidechainView.connectCertificate (view, .empty) = .ok paid ∧
        SidechainView.Reverts block.height (paid.1.rewound paid.2) (final, undos) := by
  obtain ⟨paid, certificates, matured⟩ := bind_eq_ok_iff.mp connected
  refine ⟨paid, certificates, ?_⟩
  rw [← pure_eq_ok_iff.mp matured]
  have certified := (SidechainView.Certified.start sound).connectCertificates certificates
  exact certified.reverts.foldl_matureAt

theorem sound_of_connectSidechains (sound : view.Sound)
    (connected : connectSidechains view block = .ok (final, undos)) : final.Sound := by
  obtain ⟨_, -, reverts⟩ := exists_of_connectSidechains sound connected
  exact reverts.sound

/-- **What a block does to sidechains by itself is taken back** by the records that it made. -/
theorem disconnectSidechains_connectSidechains (sound : view.Sound)
    (connected : connectSidechains view block = .ok (final, undos))
    (logged : undo.sidechains = undos) : disconnectSidechains final block undo = .ok view := by
  obtain ⟨paid, certificates, reverts⟩ := exists_of_connectSidechains sound connected
  have back := foldlM_reverse_undoes
    (fun progress => progress.1.rewound progress.2) (fun _ => True)
    (fun _ _ _ _ _ _ => trivial)
    (fun _ _ _ _ _ paid => SidechainView.disconnectCertificate_rewound paid) trivial certificates
  rw [SidechainView.rewound_empty] at back
  refine bind_eq_ok_iff.mpr ⟨_, ?_, back⟩
  rw [logged]
  exact reverts.disconnectEntries

end ChainState

end Reorg
