/-
**The records of sidechains in a log.**

A record is made when a sidechain is first paid out of, and holds its epoch at that time; what
matures is added to the record, or makes one. The order of certificates and of maturing does not
matter for what the records say: each tells the epoch that its sidechain had when the intents of the
block were through, and what waited for the height of the block then.

* `SidechainView.waitingAt`: what waits for a height;
* `SidechainView.Paying`: certificates, with the records that they have made;
* `SidechainView.get?_undos_matured`: the records after maturing;
* `SidechainView.records_of_connectSidechains`: what the records of a block say;
* `SidechainView.Follows`: the epochs after intents;
* `connectSidechains_ne_duplicateEntry`: nothing here is refused for a second record.
-/

import Reorg.Proofs.Arithmetic
import Reorg.Proofs.Chain.Accounts

namespace Reorg

open Fallible OrderedMap

namespace SidechainView

variable {base view next : SidechainView} {undos later : SidechainUndos} {id other : SidechainId}
  {sidechain : Sidechain} {record : SidechainUndo} {height maturity : Nat} {txid : Digest}
  {placed : Intent × Nat} {certificates : List Certificate} {certificate : Certificate}

/-- What waits for a height to join the balance of a sidechain. -/
def waitingAt (view : SidechainView) (height : Nat) (id : SidechainId) : Option Amount :=
  (view.get? id).bind fun sidechain => sidechain.immature.get? height

/-! ### Certificates -/

/-- Certificates were paid, and their sidechains, and no others, have records of the epochs before
them. -/
structure Paying (base : SidechainView) (certificates : List Certificate)
    (progress : SidechainView × SidechainUndos) : Prop where
  recorded_iff : ∀ id, (progress.2.get? id).isSome ↔ id ∈ certificates.map Certificate.sidechain
  records : ∀ id record, progress.2.get? id = some record →
    ∃ sidechain, base.get? id = some sidechain ∧ record = ⟨0, sidechain.lastEpoch⟩
  unpaid : ∀ id, progress.2.get? id = none → progress.1.get? id = base.get? id
  kept : ∀ id, (progress.1.get? id).map (fun sidechain => (sidechain.founding, sidechain.immature)) =
    (base.get? id).map fun sidechain => (sidechain.founding, sidechain.immature)

theorem paying_nil : Paying base [] (base, .empty) where
  recorded_iff _ := iff_of_false Bool.false_ne_true List.not_mem_nil
  records _ _ recorded := by cases recorded
  unpaid _ _ := rfl
  kept _ := rfl

/-- Certificates take nothing of what is on its way. -/
theorem Paying.waiting {progress : SidechainView × SidechainUndos}
    (paying : Paying base certificates progress) (height : Nat) (id : SidechainId) :
    progress.1.waitingAt height id = base.waitingAt height id := by
  have seen : ∀ view : SidechainView, view.waitingAt height id =
      ((view.get? id).map fun sidechain => (sidechain.founding, sidechain.immature)).bind
        fun kept => kept.2.get? height := by
    intro view
    rw [waitingAt, Option.bind_map]
    rfl
  rw [seen, seen, paying.kept]

/-- The record of a sidechain that is paid out of next tells its epoch before the block. -/
theorem Paying.recordFor {progress : SidechainView × SidechainUndos}
    (paying : Paying base certificates progress) (held : progress.1.get? id = some sidechain) :
    ∃ before, base.get? id = some before ∧
      progress.2.recordFor id sidechain = ⟨0, before.lastEpoch⟩ := by
  rw [SidechainUndos.recordFor]
  cases recorded : progress.2.get? id with
  | none => exact ⟨sidechain, (paying.unpaid id recorded).symm.trans held, rfl⟩
  | some record => exact paying.records id record recorded

theorem Paying.connectCertificate [Arithmetic] {progress after : SidechainView × SidechainUndos}
    (paying : Paying base certificates progress)
    (connected : SidechainView.connectCertificate progress certificate = .ok after) :
    Paying base (certificates ++ [certificate]) after := by
  obtain ⟨view, undos⟩ := progress
  obtain ⟨next, later⟩ := after
  obtain ⟨sidechain, held, -, -, rfl, rfl⟩ := connectCertificate_eq_ok_iff.mp connected
  -- a second certificate stores the record of the first one again
  obtain ⟨before, known, recorded⟩ := paying.recordFor held
  refine ⟨fun id => ?_, fun id record found => ?_, fun id absent => ?_, fun id => ?_⟩
  · rw [get?_insert, List.map_append, List.mem_append, ← paying.recorded_iff, List.map_singleton,
      List.mem_singleton]
    by_cases here : certificate.sidechain = id
    · rw [if_pos here]
      exact iff_of_true rfl (.inr here.symm)
    · rw [if_neg here, or_iff_left (Ne.symm here)]
  · rw [get?_insert] at found
    split at found
    · next here =>
      cases found
      exact ⟨before, here ▸ known, recorded⟩
    · exact paying.records id record found
  · rw [get?_insert] at absent ⊢
    split at absent
    · cases absent
    · next apart =>
      rw [if_neg apart]
      exact paying.unpaid id absent
  · rw [← paying.kept, get?_insert]
    split
    · next here =>
      rw [← here, held]
      rfl
    · rfl

theorem Paying.of_connectCertificates [Arithmetic] {after : SidechainView × SidechainUndos}
    (connected : certificates.foldlM SidechainView.connectCertificate (base, .empty) = .ok after) :
    Paying base certificates after := by
  have tracked := foldlM_tracks (fun certificate => [certificate]) (Paying base)
    (fun _ _ _ _ _ paying connected => paying.connectCertificate connected) paying_nil connected
  rwa [List.nil_append, List.flatMap_singleton'] at tracked

/-! ### Maturing -/

/-- The record of a sidechain once what waits for a height has matured. -/
def maturedRecord [Arithmetic] (progress : SidechainView × SidechainUndos) (height : Nat)
    (id : SidechainId) : Option SidechainUndo :=
  match (progress.1.get? id).bind fun sidechain => sidechain.mature? height with
  | none => progress.2.get? id
  | some (amount, _) =>
    (progress.1.get? id).map fun sidechain =>
      let record := progress.2.recordFor id sidechain
      { record with matured := Arithmetic.amount (record.matured + amount) }

theorem get?_undos_matureAt [Arithmetic] {progress : SidechainView × SidechainUndos} :
    (matureAt height progress other).2.get? id =
      if other = id then maturedRecord progress height id else progress.2.get? id := by
  obtain ⟨view, undos⟩ := progress
  rw [matureAt]
  split
  · next absent =>
    split
    · next here =>
      subst here
      rw [maturedRecord, absent]
      rfl
    · rfl
  · next sidechain held =>
    split
    · next stays =>
      split
      · next here =>
        subst here
        simp only [maturedRecord, held, Option.bind_some, stays]
      · rfl
    · next amount moved matures =>
      rw [SidechainUndos.addMatured, get?_insert]
      split
      · next here =>
        subst here
        simp only [maturedRecord, held, Option.bind_some, matures, Option.map_some]
      · rfl

/-- Another sidechain that matures does not change what is recorded of one. -/
theorem maturedRecord_matureAt [Arithmetic] {progress : SidechainView × SidechainUndos}
    (apart : other ≠ id) :
    maturedRecord (matureAt height progress other) height id =
      maturedRecord progress height id := by
  simp only [maturedRecord, SidechainUndos.recordFor, get?_matureAt, get?_undos_matureAt,
    if_neg apart]

theorem get?_undos_foldl_matureAt [Arithmetic] {ids : List SidechainId} (distinct : ids.Nodup)
    {progress : SidechainView × SidechainUndos} :
    (ids.foldl (matureAt height) progress).2.get? id =
      if id ∈ ids then maturedRecord progress height id else progress.2.get? id := by
  induction ids generalizing progress with
  | nil => rfl
  | cons other ids ih =>
    obtain ⟨outside, distinct⟩ := List.nodup_cons.mp distinct
    rw [List.foldl_cons, ih distinct, get?_undos_matureAt]
    -- no sidechain matures twice, so the record made first is the one that stays
    by_cases here : other = id
    · subst here
      rw [if_neg outside, if_pos rfl, if_pos List.mem_cons_self]
    · rw [maturedRecord_matureAt here, if_neg here]
      simp only [List.mem_cons, Ne.symm here, false_or]

/-- **The records after maturing**: what waited is added to the record of its sidechain. -/
theorem get?_undos_matured [Arithmetic] :
    ((view.maturingAt height).foldl (matureAt height) (view, undos)).2.get? id =
      maturedRecord (view, undos) height id := by
  have distinct : (view.maturingAt height).Nodup :=
    view.keys_nodup.sublist (List.filter_sublist.map _)
  rw [get?_undos_foldl_matureAt distinct]
  split
  · rfl
  · next outside =>
    rw [maturedRecord]
    cases held : view.get? id with
    | none => rfl
    | some sidechain =>
      have absent : sidechain.immature.get? height = none := by
        refine contains_eq_false_iff.mp (Bool.eq_false_iff.mpr fun waits => outside ?_)
        exact List.mem_map.mpr ⟨_, List.mem_filter.mpr ⟨get?_eq_some_iff.mp held, waits⟩, rfl⟩
      simp only [Option.bind_some, Sidechain.mature?, absent, Option.map_none]

/-- What the record of a sidechain says once what waits has matured, behind certificates. -/
theorem Paying.recorded_of_matured [Arithmetic] [Arithmetic.Lawful]
    {progress : SidechainView × SidechainUndos}
    (paying : Paying base certificates progress) (height : Nat) (id : SidechainId) :
    ((maturedRecord progress height id).isSome ↔
      id ∈ certificates.map Certificate.sidechain ∨ (base.waitingAt height id).isSome) ∧
    ∀ record, maturedRecord progress height id = some record → ∃ sidechain,
      base.get? id = some sidechain ∧
        record = ⟨Arithmetic.amount ((base.waitingAt height id).getD 0), sidechain.lastEpoch⟩ := by
  rw [← paying.recorded_iff, ← paying.waiting, maturedRecord, waitingAt]
  cases held : progress.1.get? id with
  | none =>
    rw [Option.bind_none, Option.bind_none, Option.getD_none, Arithmetic.amount_zero]
    exact ⟨by simp, paying.records id⟩
  | some sidechain =>
    rw [Option.bind_some, Option.bind_some, Sidechain.mature?]
    cases waits : sidechain.immature.get? height with
    | none =>
      rw [Option.map_none, Option.getD_none, Arithmetic.amount_zero]
      exact ⟨by simp, paying.records id⟩
    | some amount =>
      obtain ⟨before, known, recorded⟩ := paying.recordFor held
      refine ⟨by simp, fun record matured => ⟨before, known, ?_⟩⟩
      simp only [Option.map_some, Option.some.injEq, recorded, Int.zero_add] at matured
      exact matured.symm

/-- **What the records of a block say**: there is one for each sidechain that has a certificate or
an amount that waits for this height, with that amount and the epoch before the certificates. -/
theorem records_of_connectSidechains [Arithmetic] [Arithmetic.Lawful] {block : Block}
    (connected : ChainState.connectSidechains base block = .ok (next, undos)) (id : SidechainId) :
    ((undos.get? id).isSome ↔ id ∈ block.certificates.map Certificate.sidechain ∨
      (base.waitingAt block.height id).isSome) ∧
    ∀ record, undos.get? id = some record → ∃ sidechain, base.get? id = some sidechain ∧
      record =
        ⟨Arithmetic.amount ((base.waitingAt block.height id).getD 0), sidechain.lastEpoch⟩ := by
  obtain ⟨⟨view, undos'⟩, certificates, matured⟩ := bind_eq_ok_iff.mp connected
  obtain rfl : _ = undos := congrArg Prod.snd (pure_eq_ok_iff.mp matured)
  rw [get?_undos_matured]
  exact (Paying.of_connectCertificates certificates).recorded_of_matured block.height id

/-! ### Intents -/

/-- Intents went by: what was there still is, with its epoch, and what was not was created by one of
them and has had no certificate. -/
structure Follows (base : SidechainView) (transfers : List Transfer) (view : SidechainView) :
    Prop where
  absent : ∀ id, view.get? id = none → base.get? id = none
  epochs : ∀ id sidechain, view.get? id = some sidechain →
    (∃ before, base.get? id = some before ∧ before.lastEpoch = sidechain.lastEpoch) ∨
      (base.get? id = none ∧ sidechain.lastEpoch = noEpoch ∧
        ∃ transfer ∈ transfers, transfer.Creates id)

theorem follows_nil : Follows base [] base where
  absent _ gone := gone
  epochs _ sidechain held := .inl ⟨sidechain, held, rfl⟩

/-- The record that an intent is for is there, or it is new and has had no certificate. -/
theorem Receives.known_or_new (receives : view.Receives height txid placed sidechain) :
    view.get? (Transfer.ofPlaced height txid placed).sidechain = some sidechain ∨
      (view.get? (Transfer.ofPlaced height txid placed).sidechain = none ∧
        sidechain.lastEpoch = noEpoch) := by
  obtain ⟨intent, index⟩ := placed
  cases intent with
  | creation destination value params =>
    obtain ⟨absent, rfl⟩ := receives
    exact .inr ⟨absent, rfl⟩
  | forward destination value id => exact .inl receives
  | withdrawal id address params => exact .inl receives

/-- **An intent goes by.** -/
theorem Follows.connectIntent [Arithmetic] {transfers : List Transfer}
    (follows : Follows base transfers view)
    (connected : SidechainView.connectIntent maturity height txid view placed = .ok next) :
    Follows base (transfers ++ [Transfer.ofPlaced height txid placed]) next := by
  obtain ⟨-, sidechain, receives, rfl⟩ := exists_of_connectIntent connected
  constructor
  · intro id gone
    rw [get?_insert] at gone
    split at gone
    · cases gone
    · exact follows.absent id gone
  · intro id found held
    simp only [List.mem_append, List.mem_singleton, or_and_right, exists_or, exists_eq_left]
    rw [get?_insert] at held
    split at held
    · next here =>
      cases held
      rw [Sidechain.frame_addImmature.2]
      subst here
      -- only a new record can differ from the one before in its epoch
      rcases receives.known_or_new with known | ⟨absent, fresh⟩
      · rcases follows.epochs _ sidechain known with kept | ⟨gone, fresh, created⟩
        · exact .inl kept
        · exact .inr ⟨gone, fresh, .inl created⟩
      · exact .inr ⟨follows.absent _ absent, fresh, .inr (receives.creates_iff.mpr ⟨rfl, absent⟩)⟩
    · rcases follows.epochs id found held with kept | ⟨gone, fresh, created⟩
      · exact .inl kept
      · exact .inr ⟨gone, fresh, .inl created⟩

theorem Follows.connectIntents [Arithmetic] {transfers : List Transfer} {tx : Transaction}
    (follows : Follows base transfers view)
    (connected : view.connectIntents maturity height tx = .ok next) :
    Follows base (transfers ++ tx.transfers height) next := by
  rw [Transaction.transfers, List.map_eq_flatMap]
  exact foldlM_tracks (fun placed => [Transfer.ofPlaced height tx.txid placed]) (Follows base)
    (fun _ _ _ _ _ follows connected => follows.connectIntent connected) follows connected

end SidechainView

/-! ### Refusals -/

section Refusals

variable (id : SidechainId)

theorem CreationParams.validate_ne_duplicateEntry (params : CreationParams) :
    params.validate ≠ .error (.duplicateEntry id) := by
  rw [validate]
  repeat' split
  all_goals simp

theorem RequestParams.validate_ne_duplicateEntry (params : RequestParams) :
    params.validate ≠ .error (.duplicateEntry id) := by
  rw [validate]
  split <;> simp

/-- No value is refused for a second record. -/
theorem Intent.validate_ne_duplicateEntry (intent : Intent) :
    intent.validate ≠ .error (.duplicateEntry id) := by
  have sent : ∀ value, checkSent value ≠ .error (.duplicateEntry id) := by
    intro value
    rw [checkSent]
    split <;> simp
  unfold validate
  split
  · simp
  · cases intent with
    | creation destination value params =>
      exact bind_ne_error (sent value) fun _ _ => params.validate_ne_duplicateEntry id
    | forward destination value sidechain => exact sent value
    | withdrawal sidechain address params => exact params.validate_ne_duplicateEntry id

theorem Sidechain.accepts_ne_duplicateEntry (sidechain : Sidechain) (intent : Intent) :
    sidechain.accepts intent ≠ .error (.duplicateEntry id) := by
  unfold accepts
  repeat' split
  all_goals simp

/-- What is refused for another cause is refused for another cause in a block. -/
theorem ChainError.structural_ne_duplicateEntry {α : Type} {first : Except StructuralError α}
    (passes : first ≠ .error (.duplicateEntry id)) :
    first.mapError ChainError.structural ≠ .error (.structural (.duplicateEntry id)) :=
  mapError_ne_error (fun _ _ => ChainError.structural.inj) passes

namespace SidechainView

variable (view : SidechainView)

theorem find_ne_duplicateEntry (other : SidechainId) :
    view.find other ≠ .error (.structural (.duplicateEntry id)) := by
  rw [find]
  split <;> simp

theorem credit_ne_duplicateEntry (maturity height : Nat) (other : SidechainId) (intent : Intent) :
    view.credit maturity height other intent ≠ .error (.structural (.duplicateEntry id)) := by
  refine bind_ne_error (view.find_ne_duplicateEntry id other) fun sidechain _ => ?_
  refine bind_ne_error ?_ fun _ _ => pure_ne_error
  exact ChainError.structural_ne_duplicateEntry id (sidechain.accepts_ne_duplicateEntry id intent)

theorem connectIntent_ne_duplicateEntry (maturity height : Nat) (txid : Digest)
    (placed : Intent × Nat) : connectIntent maturity height txid view placed ≠
      .error (.structural (.duplicateEntry id)) := by
  obtain ⟨intent, index⟩ := placed
  refine bind_ne_error ?_ fun _ _ => ?_
  · exact ChainError.structural_ne_duplicateEntry id (intent.validate_ne_duplicateEntry id)
  · cases intent with
    | creation destination value params =>
      show create view maturity height txid _ value params ≠ _
      rw [create]
      split <;> simp
    | forward destination value other => exact view.credit_ne_duplicateEntry id maturity height _ _
    | withdrawal other address params => exact view.credit_ne_duplicateEntry id maturity height _ _

theorem connectCertificate_ne_duplicateEntry (undos : SidechainUndos) (certificate : Certificate) :
    connectCertificate (view, undos) certificate ≠ .error (.structural (.duplicateEntry id)) := by
  refine bind_ne_error (view.find_ne_duplicateEntry id _) fun sidechain _ => ?_
  dsimp only
  repeat' split
  all_goals simp

/-- **Neither round over the sidechains is refused for a second record.** -/
theorem connectSidechains_ne_duplicateEntry (block : Block) :
    ChainState.connectSidechains view block ≠ .error (.structural (.duplicateEntry id)) := by
  refine bind_ne_error ?_ fun progress _ => pure_ne_error
  refine foldlM_ne_error (fun progress certificate => ?_) _ _
  exact connectCertificate_ne_duplicateEntry id progress.1 progress.2 certificate

end SidechainView

end Refusals

end Reorg
