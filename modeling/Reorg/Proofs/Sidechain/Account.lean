/-
**The accounts of sidechains, told from their history.**

The history of a chain says what every sidechain was sent and what it paid: its intents with their
heights, and its certificates. What was sent joins the balance a fixed number of blocks later. A
record that accounts for a history agrees with these sums: before a height everything due has joined
the balance, and the rest waits under the height at which it is due.

* `Transfer`, `credited`, `paid`, `endedEpochs`: what a history says of a sidechain;
* `Sidechain.AccountsFor`: a record that agrees with a history;
* `SidechainView.AccountsFor`: a view whose records do, and which has those that were created;
* `AccountsFor.connectIntent`, `connectCertificate`, `connectSidechains`: each step keeps that.
-/

import Mathlib.Data.List.Induction
import Reorg.Proofs.Sidechain.View

namespace Reorg

open Fallible OrderedMap

/-! ### Histories -/

/-- An intent at its place in a chain. -/
structure Transfer where
  txid : Digest
  index : Nat
  intent : Intent
  height : Nat

namespace Transfer

/-- An intent at its place in a transaction of a height. -/
def ofPlaced (height : Nat) (txid : Digest) (placed : Intent × Nat) : Transfer :=
  ⟨txid, placed.2, placed.1, height⟩

/-- The sidechain that gets the value. -/
def sidechain (transfer : Transfer) : SidechainId :=
  transfer.intent.sidechainAt transfer.txid transfer.index

/-- The amount that a transfer brings to its sidechain. -/
def value (transfer : Transfer) : Amount := transfer.intent.scopedValue

/-- The intent makes the sidechain with an identifier. -/
def Creates (transfer : Transfer) (id : SidechainId) : Prop :=
  transfer.intent.target? = none ∧ createdSidechainId transfer.txid transfer.index = id

instance {transfer : Transfer} {id : SidechainId} : Decidable (transfer.Creates id) :=
  inferInstanceAs (Decidable (_ ∧ _))

theorem Creates.sidechain_eq {transfer : Transfer} {id : SidechainId}
    (creates : transfer.Creates id) : transfer.sidechain = id := by
  obtain ⟨nobody, here⟩ := creates
  rw [sidechain, Intent.sidechainAt, nobody, Option.getD_none, here]

end Transfer

/-- The sum of some amounts. -/
def Amount.total (amounts : List Amount) : Amount := amounts.foldr (· + ·) 0

theorem Amount.total_append {front back : List Amount} :
    total (front ++ back) = total front + total back := by
  induction front with
  | nil => exact (Int.zero_add _).symm
  | cons amount front ih =>
    show amount + total (front ++ back) = amount + total front + total back
    rw [ih, Int.add_assoc]

/-- What a sidechain was sent from heights of some kind. -/
def credited (transfers : List Transfer) (id : SidechainId) (kind : Nat → Prop)
    [DecidablePred kind] : Amount :=
  Amount.total ((transfers.filter fun transfer =>
    transfer.sidechain = id ∧ kind transfer.height).map Transfer.value)

/-- What the certificates of a sidechain paid. -/
def paid (certificates : List Certificate) (id : SidechainId) : Amount :=
  Amount.total ((certificates.filter fun certificate =>
    certificate.sidechain = id).map Certificate.total)

/-- The epochs that the certificates of a sidechain ended, in order. -/
def endedEpochs (certificates : List Certificate) (id : SidechainId) : List Epoch :=
  (certificates.filter fun certificate => certificate.sidechain = id).map Certificate.epoch

section Sums

variable {transfers : List Transfer} {transfer : Transfer} {certificates : List Certificate}
  {certificate : Certificate} {id : SidechainId} {kind : Nat → Prop} [DecidablePred kind]

theorem credited_concat : credited (transfers ++ [transfer]) id kind =
    credited transfers id kind +
      if transfer.sidechain = id ∧ kind transfer.height then transfer.value else 0 := by
  unfold credited
  rw [List.filter_append, List.map_append, Amount.total_append]
  by_cases counts : transfer.sidechain = id ∧ kind transfer.height <;>
    simp [counts, Amount.total]

theorem credited_eq_zero (elsewhere : ∀ transfer ∈ transfers, transfer.sidechain ≠ id) :
    credited transfers id kind = 0 := by
  have nothing : (transfers.filter fun transfer =>
      transfer.sidechain = id ∧ kind transfer.height) = [] := by
    simp only [List.filter_eq_nil_iff, decide_eq_true_eq]
    exact fun transfer member here => elsewhere transfer member here.1
  rw [credited, nothing]
  rfl

/-- Transfers from heights of another kind add nothing. -/
theorem credited_append_of_not {more : List Transfer}
    (others : ∀ transfer ∈ more, ¬ kind transfer.height) :
    credited (transfers ++ more) id kind = credited transfers id kind := by
  have nothing : (more.filter fun transfer =>
      transfer.sidechain = id ∧ kind transfer.height) = [] := by
    simp only [List.filter_eq_nil_iff, decide_eq_true_eq]
    exact fun transfer member here => others transfer member here.2
  rw [credited, List.filter_append, nothing, List.append_nil, ← credited]

/-- What is due before the next height is due before this one or at it. -/
theorem credited_before_succ {maturity height : Nat} :
    credited transfers id (fun sent => sent + maturity < height + 1) =
      credited transfers id (fun sent => sent + maturity < height) +
        credited transfers id (fun sent => sent + maturity = height) := by
  induction transfers using List.reverseRecOn with
  | nil => rfl
  | append_singleton transfers transfer ih =>
    have parts : (if transfer.sidechain = id ∧ transfer.height + maturity < height + 1
          then transfer.value else 0) =
        (if transfer.sidechain = id ∧ transfer.height + maturity < height
          then transfer.value else 0) +
        if transfer.sidechain = id ∧ transfer.height + maturity = height
          then transfer.value else 0 := by
      rcases Nat.lt_trichotomy (transfer.height + maturity) height with before | now | after
      · simp [before, Nat.ne_of_lt before, Nat.lt_succ_of_lt before]
      · simp [now]
      · simp [Nat.lt_asymm after, Nat.ne_of_gt after, Nat.not_lt.mpr after]
    rw [credited_concat, credited_concat, credited_concat, ih, parts]
    ac_rfl

theorem paid_concat : paid (certificates ++ [certificate]) id =
    paid certificates id + if certificate.sidechain = id then certificate.total else 0 := by
  unfold paid
  rw [List.filter_append, List.map_append, Amount.total_append]
  by_cases counts : certificate.sidechain = id <;> simp [counts, Amount.total]

theorem paid_eq_zero (elsewhere : ∀ certificate ∈ certificates, certificate.sidechain ≠ id) :
    paid certificates id = 0 := by
  have nothing : (certificates.filter fun certificate => certificate.sidechain = id) = [] := by
    simpa only [List.filter_eq_nil_iff, decide_eq_true_eq] using elsewhere
  rw [paid, nothing]
  rfl

theorem endedEpochs_concat : endedEpochs (certificates ++ [certificate]) id =
    endedEpochs certificates id ++
      if certificate.sidechain = id then [certificate.epoch] else [] := by
  unfold endedEpochs
  rw [List.filter_append, List.map_append]
  by_cases counts : certificate.sidechain = id <;> simp [counts]

end Sums

/-! ### Records -/

namespace Sidechain

variable {sidechain : Sidechain} {maturity next height other : Nat} {amount : Amount}
  {transfers : List Transfer} {sent : Transfer} {certificates : List Certificate}
  {certificate : Certificate} {id : SidechainId} {txid : Digest} {params : CreationParams}

/-- A record agrees with a history when all that is due below a height has joined the balance. -/
structure AccountsFor (maturity next : Nat) (transfers : List Transfer)
    (certificates : List Certificate) (id : SidechainId) (sidechain : Sidechain) : Prop where
  waiting : ∀ height, (sidechain.immature.get? height).getD 0 =
    if height < next then 0
    else credited transfers id fun sent => sent + maturity = height
  balance : sidechain.balance =
    credited transfers id (fun sent => sent + maturity < next) - paid certificates id
  epochs : ∃ count, endedEpochs certificates id = (List.range count).map Int.ofNat ∧
    sidechain.lastEpoch = Int.ofNat count - 1

/-- A new record agrees with a history that does not know its sidechain. -/
theorem accountsFor_create (unsent : ∀ transfer ∈ transfers, transfer.sidechain ≠ id)
    (unpaid : ∀ certificate ∈ certificates, certificate.sidechain ≠ id) :
    (create height txid params).AccountsFor maturity next transfers certificates id := by
  have none : (certificates.filter fun certificate => certificate.sidechain = id) = [] := by
    simpa only [List.filter_eq_nil_iff, decide_eq_true_eq] using unpaid
  refine ⟨fun due => ?_, ?_, 0, ?_, rfl⟩
  · rw [credited_eq_zero unsent, ite_self]
    rfl
  · rw [credited_eq_zero unsent, paid_eq_zero unpaid]
    rfl
  · rw [endedEpochs, none]
    rfl

/-- **An amount that is put on its way** is added to what waits at its height. -/
theorem getD_addImmature [Arithmetic] (kept : Arithmetic.amount
    ((sidechain.immature.get? other).getD 0) = (sidechain.immature.get? other).getD 0) :
    ((sidechain.addImmature height amount).immature.get? other).getD 0 =
      Arithmetic.amount ((sidechain.immature.get? other).getD 0 +
        if height = other then amount else 0) := by
  by_cases nothing : amount = 0
  · rw [nothing, addImmature_zero, ite_self, Int.add_zero, kept]
  · rw [addImmature_of_ne nothing, get?_insert]
    by_cases here : height = other
    · rw [if_pos here, if_pos here, here, Option.getD_some]
    · rw [if_neg here, if_neg here, Int.add_zero, kept]

theorem founding_addImmature [Arithmetic] :
    (sidechain.addImmature height amount).founding = sidechain.founding := by
  unfold addImmature
  split <;> rfl

theorem frame_addImmature [Arithmetic] :
    (sidechain.addImmature height amount).balance = sidechain.balance ∧
    (sidechain.addImmature height amount).lastEpoch = sidechain.lastEpoch := by
  unfold addImmature
  split <;> exact ⟨rfl, rfl⟩

/-- **What is sent after all that is due** waits for its height. -/
theorem AccountsFor.send (accounts : sidechain.AccountsFor maturity next transfers certificates id)
    (here : sent.sidechain = id) (ahead : next ≤ sent.height + maturity) :
    (sidechain.addImmature (sent.height + maturity) sent.value).AccountsFor maturity next
      (transfers ++ [sent]) certificates id where
  waiting due := by
    rw [getD_addImmature rfl, Arithmetic.amount_unbounded, accounts.waiting, credited_concat]
    by_cases past : due < next
    · rw [if_pos past, if_pos past, if_neg (by omega)]
      rfl
    · simp only [if_neg past, here, true_and]
  balance := by
    rw [frame_addImmature.1, accounts.balance, credited_concat,
      if_neg fun both => Nat.not_lt.mpr ahead both.2, Int.add_zero]
  epochs := by
    rw [frame_addImmature.2]
    exact accounts.epochs

theorem AccountsFor.send_elsewhere
    (accounts : sidechain.AccountsFor maturity next transfers certificates id)
    (elsewhere : sent.sidechain ≠ id) :
    sidechain.AccountsFor maturity next (transfers ++ [sent]) certificates id where
  waiting due := by
    rw [accounts.waiting, credited_concat]
    simp only [elsewhere, false_and, if_false, Int.add_zero]
  balance := by
    rw [accounts.balance, credited_concat, if_neg fun both => elsewhere both.1, Int.add_zero]
  epochs := accounts.epochs

/-- **What a certificate pays leaves the balance**, and it ends the epoch behind the last one. -/
theorem AccountsFor.pay (accounts : sidechain.AccountsFor maturity next transfers certificates id)
    (here : certificate.sidechain = id) (follows : certificate.epoch = sidechain.lastEpoch + 1) :
    AccountsFor maturity next transfers (certificates ++ [certificate]) id { sidechain with
      balance := sidechain.balance - certificate.total, lastEpoch := certificate.epoch } where
  waiting := accounts.waiting
  balance := by
    rw [paid_concat, if_pos here, accounts.balance, Int.sub_sub]
  epochs := by
    obtain ⟨count, ended, last⟩ := accounts.epochs
    have epoch : certificate.epoch = Int.ofNat count := by
      rw [follows, last]
      exact Int.sub_add_cancel _ 1
    refine ⟨count + 1, ?_, ?_⟩
    · rw [endedEpochs_concat, if_pos here, ended, epoch, List.range_succ, List.map_append]
      rfl
    · show certificate.epoch = _
      rw [epoch]
      exact (Int.add_sub_cancel _ 1).symm

theorem AccountsFor.pay_elsewhere
    (accounts : sidechain.AccountsFor maturity next transfers certificates id)
    (elsewhere : certificate.sidechain ≠ id) :
    sidechain.AccountsFor maturity next transfers (certificates ++ [certificate]) id where
  waiting := accounts.waiting
  balance := by rw [paid_concat, if_neg elsewhere, Int.add_zero, accounts.balance]
  epochs := by
    rw [endedEpochs_concat, if_neg elsewhere, List.append_nil]
    exact accounts.epochs

/-- The record after what waited for a height, if anything, has joined the balance. -/
def matured [Arithmetic] (sidechain : Sidechain) (height : Nat) : Sidechain :=
  ((sidechain.mature? height).map Prod.snd).getD sidechain

theorem matured_of_mature? [Arithmetic] {later : Sidechain}
    (moved : sidechain.mature? height = some (amount, later)) :
    sidechain.matured height = later := by
  rw [matured, moved, Option.map_some, Option.getD_some]

theorem matured_of_absent [Arithmetic] (absent : sidechain.immature.get? height = none) :
    sidechain.matured height = sidechain := by
  rw [matured, mature?, absent, Option.map_none, Option.map_none, Option.getD_none]

theorem frame_matured [Arithmetic] :
    (sidechain.matured height).founding = sidechain.founding ∧
      (sidechain.matured height).lastEpoch = sidechain.lastEpoch := by
  cases held : sidechain.immature.get? height with
  | none => rw [matured_of_absent held]; exact ⟨rfl, rfl⟩
  | some amount => rw [matured_of_mature? (mature?_eq_some_iff.mpr ⟨held, rfl⟩)]; exact ⟨rfl, rfl⟩

theorem immature_matured [Arithmetic] :
    (sidechain.matured height).immature = sidechain.immature.erase height := by
  cases held : sidechain.immature.get? height with
  | none => rw [matured_of_absent held, erase_of_absent held]
  | some amount => rw [matured_of_mature? (mature?_eq_some_iff.mpr ⟨held, rfl⟩)]

theorem matured_matured [Arithmetic] :
    (sidechain.matured height).matured height = sidechain.matured height :=
  matured_of_absent (by rw [immature_matured, get?_erase_self])

theorem matured_eq : sidechain.matured height = { sidechain with
    balance := sidechain.balance + (sidechain.immature.get? height).getD 0
    immature := sidechain.immature.erase height } := by
  cases held : sidechain.immature.get? height with
  | none => rw [matured_of_absent held, Option.getD_none, Int.add_zero, erase_of_absent held]
  | some amount => exact matured_of_mature? (mature?_eq_some_iff.mpr ⟨held, rfl⟩)

/-- **What is due at a height joins the balance there**, and only that. -/
theorem AccountsFor.matured
    (accounts : sidechain.AccountsFor maturity height transfers certificates id) :
    (sidechain.matured height).AccountsFor maturity (height + 1) transfers certificates id where
  waiting due := by
    rw [immature_matured, get?_erase]
    by_cases now : height = due
    · rw [if_pos now, if_pos (by omega), Option.getD_none]
    · rw [if_neg now, accounts.waiting]
      by_cases past : due < height
      · rw [if_pos past, if_pos (Nat.lt_succ_of_lt past)]
      · rw [if_neg past, if_neg (by omega)]
  balance := by
    rw [matured_eq]
    show sidechain.balance + _ = _
    rw [accounts.balance, accounts.waiting, if_neg (Nat.lt_irrefl height), credited_before_succ,
      Int.sub_eq_add_neg, Int.add_right_comm]
    rfl
  epochs := by
    rw [matured_eq]
    exact accounts.epochs

/-- On a sound record an amount is on its way exactly when it is not zero. -/
theorem Sound.immature_eq (sound : sidechain.Sound) : sidechain.immature.get? height =
    if (sidechain.immature.get? height).getD 0 = 0 then none
    else some ((sidechain.immature.get? height).getD 0) := by
  cases held : sidechain.immature.get? height with
  | none => rfl
  | some amount =>
    have positive : 0 < amount := sound.waiting held
    rw [Option.getD_some, if_neg (Int.ne_of_gt positive)]

/-- What a sound record holds under the heights to come is what is due there. -/
theorem AccountsFor.immature_eq
    (accounts : sidechain.AccountsFor maturity next transfers certificates id)
    (sound : sidechain.Sound) :
    (∀ height < next, sidechain.immature.get? height = none) ∧
    ∀ height, next ≤ height → sidechain.immature.get? height =
      if credited transfers id (fun sent => sent + maturity = height) = 0 then none
      else some (credited transfers id fun sent => sent + maturity = height) := by
  refine ⟨fun height past => ?_, fun height ahead => ?_⟩
  · rw [sound.immature_eq, accounts.waiting, if_pos past, if_pos rfl]
  · rw [sound.immature_eq, accounts.waiting, if_neg (Nat.not_lt.mpr ahead)]

/-- The epoch of a record is the last one that was ended, if any was. -/
theorem AccountsFor.lastEpoch_eq
    (accounts : sidechain.AccountsFor maturity next transfers certificates id) :
    sidechain.lastEpoch = (endedEpochs certificates id).getLast?.getD noEpoch := by
  obtain ⟨count, ended, last⟩ := accounts.epochs
  rw [ended, last]
  cases count with
  | zero => rfl
  | succ count =>
    rw [List.range_succ, List.map_append, List.map_singleton, List.getLast?_concat]
    show Int.ofNat count + 1 - 1 = Int.ofNat count
    exact Int.add_sub_cancel _ 1

end Sidechain

/-! ### Views -/

namespace SidechainView

variable {view next : SidechainView} {maturity height below : Nat} {transfers : List Transfer}
  {certificates : List Certificate} {certificate : Certificate} {txid : Digest}
  {placed : Intent × Nat} {id : SidechainId} {sidechain : Sidechain} {undos later : SidechainUndos}

/-- A view has exactly the sidechains that a history creates, each of them once, and their records
agree with the history; it knows nothing of others. -/
structure AccountsFor (maturity below : Nat) (transfers : List Transfer)
    (certificates : List Certificate) (view : SidechainView) : Prop where
  created : ∀ id, transfers.countP (fun transfer => transfer.Creates id) =
    if (view.get? id).isSome then 1 else 0
  unknown : ∀ id, view.get? id = none → (∀ transfer ∈ transfers, transfer.sidechain ≠ id) ∧
    ∀ certificate ∈ certificates, certificate.sidechain ≠ id
  known : ∀ id sidechain, view.get? id = some sidechain →
    sidechain.AccountsFor maturity below transfers certificates id

theorem AccountsFor.isSome_iff (accounts : view.AccountsFor maturity below transfers certificates) :
    (view.get? id).isSome ↔ ∃ transfer ∈ transfers, transfer.Creates id := by
  have counted := accounts.created id
  constructor
  · intro present
    rw [if_pos present] at counted
    have some := List.countP_pos_iff.mp (counted ▸ Nat.one_pos)
    simpa only [decide_eq_true_eq] using some
  · rintro ⟨transfer, member, creates⟩
    have some : 0 < transfers.countP (fun transfer => transfer.Creates id) :=
      List.countP_pos_iff.mpr ⟨transfer, member, decide_eq_true creates⟩
    rw [counted] at some
    split at some
    · assumption
    · cases some

theorem accountsFor_empty : AccountsFor maturity below [] [] .empty where
  created _ := rfl
  unknown _ _ := ⟨fun _ member => (List.not_mem_nil member).elim,
    fun _ member => (List.not_mem_nil member).elim⟩
  known _ _ held := by cases held

/-- The record that an intent is for agrees with the history in front of it. -/
theorem AccountsFor.receives (accounts : view.AccountsFor maturity below transfers certificates)
    (receives : view.Receives height txid placed sidechain) :
    sidechain.AccountsFor maturity below transfers certificates
      (Transfer.ofPlaced height txid placed).sidechain := by
  obtain ⟨intent, index⟩ := placed
  cases intent with
  | creation destination value params =>
    obtain ⟨absent, rfl⟩ := receives
    obtain ⟨unsent, unpaid⟩ := accounts.unknown _ absent
    exact Sidechain.accountsFor_create unsent unpaid
  | forward destination value id => exact accounts.known id sidechain receives
  | withdrawal id address params => exact accounts.known id sidechain receives

/-- An intent for a record creates it exactly when there was none. -/
theorem Receives.creates_iff (receives : view.Receives height txid placed sidechain) :
    (Transfer.ofPlaced height txid placed).Creates id ↔
      (Transfer.ofPlaced height txid placed).sidechain = id ∧ view.get? id = none := by
  refine ⟨fun creates => ⟨creates.sidechain_eq, ?_⟩, fun both => ?_⟩
  · obtain ⟨nobody, rfl⟩ := creates
    obtain ⟨intent, index⟩ := placed
    cases intent with
    | creation destination value params => exact receives.1
    | forward destination value id => cases nobody
    | withdrawal id address params => cases nobody
  · obtain ⟨rfl, absent⟩ := both
    obtain ⟨intent, index⟩ := placed
    cases intent with
    | creation destination value params => exact ⟨rfl, rfl⟩
    | forward destination value id =>
      cases absent.symm.trans (receives : view.get? id = some sidechain)
    | withdrawal id address params =>
      cases absent.symm.trans (receives : view.get? id = some sidechain)

/-- A view that gets a record keeps accounting for a history that goes on about that sidechain
alone. -/
theorem AccountsFor.insert {transfers' : List Transfer} {certificates' : List Certificate}
    (accounts : view.AccountsFor maturity below transfers certificates)
    (record : sidechain.AccountsFor maturity below transfers' certificates' id)
    (created : ∀ other, transfers'.countP (fun transfer => transfer.Creates other) =
      if id = other then 1 else if (view.get? other).isSome then 1 else 0)
    (sent : ∀ transfer ∈ transfers', transfer.sidechain = id ∨ transfer ∈ transfers)
    (paid : ∀ certificate ∈ certificates', certificate.sidechain = id ∨ certificate ∈ certificates)
    (elsewhere : ∀ other found, id ≠ other →
      Sidechain.AccountsFor maturity below transfers certificates other found →
        found.AccountsFor maturity below transfers' certificates' other) :
    AccountsFor maturity below transfers' certificates' (OrderedMap.insert view id sidechain) := by
  refine ⟨fun other => ?_, fun other absent => ?_, fun other found held => ?_⟩
  · rw [created, get?_insert]
    by_cases here : id = other
    · rw [if_pos here, if_pos here, Option.isSome_some, if_pos rfl]
    · rw [if_neg here, if_neg here]
  · rw [get?_insert] at absent
    split at absent
    · cases absent
    · next apart =>
      obtain ⟨unsent, unpaid⟩ := accounts.unknown other absent
      constructor
      · intro transfer member here
        rcases sent transfer member with same | before
        · exact apart (same.symm.trans here)
        · exact unsent transfer before here
      · intro certificate member here
        rcases paid certificate member with same | before
        · exact apart (same.symm.trans here)
        · exact unpaid certificate before here
  · rw [get?_insert] at held
    split at held
    · next here =>
      cases held
      exact here ▸ record
    · next apart => exact elsewhere other found apart (accounts.known other found held)

/-- **An intent is accounted for.** -/
theorem AccountsFor.connectIntent
    (accounts : view.AccountsFor maturity below transfers certificates)
    (ahead : below ≤ height + maturity)
    (connected : SidechainView.connectIntent maturity height txid view placed = .ok next) :
    next.AccountsFor maturity below (transfers ++ [Transfer.ofPlaced height txid placed])
      certificates := by
  obtain ⟨-, sidechain, receives, rfl⟩ := exists_of_connectIntent connected
  have record := (accounts.receives receives).send rfl ahead
  refine accounts.insert record (fun other => ?_) (fun transfer member => ?_)
    (fun certificate member => .inr member) fun other found apart known =>
      known.send_elsewhere apart
  · rw [List.countP_append, accounts.created, List.countP_singleton]
    simp only [decide_eq_true_eq, receives.creates_iff]
    show _ + _ = if (Transfer.ofPlaced height txid placed).sidechain = other then _ else _
    by_cases here : (Transfer.ofPlaced height txid placed).sidechain = other <;>
      cases view.get? other <;> simp [here]
  · rcases List.mem_append.mp member with before | last
    · exact .inr before
    · exact .inl (List.mem_singleton.mp last ▸ rfl)

/-- **A certificate is accounted for.** -/
theorem AccountsFor.connectCertificate
    (accounts : view.AccountsFor maturity below transfers certificates)
    (connected :
      SidechainView.connectCertificate (view, undos) certificate = .ok (next, later)) :
    next.AccountsFor maturity below transfers (certificates ++ [certificate]) := by
  obtain ⟨sidechain, held, follows, -, rfl, -⟩ := connectCertificate_eq_ok_iff.mp connected
  have record := (accounts.known _ _ held).pay rfl follows
  refine accounts.insert record (fun other => ?_) (fun transfer member => .inr member)
    (fun found member => ?_) fun other found apart known => known.pay_elsewhere apart
  · rw [accounts.created]
    by_cases here : certificate.sidechain = other
    · rw [if_pos here, ← here, held, Option.isSome_some, if_pos rfl]
    · rw [if_neg here]
  · rcases List.mem_append.mp member with before | last
    · exact .inr before
    · exact .inl (List.mem_singleton.mp last ▸ rfl)

theorem AccountsFor.connectCertificates {progress after : SidechainView × SidechainUndos}
    {more : List Certificate}
    (accounts : progress.1.AccountsFor maturity below transfers certificates)
    (connected : more.foldlM SidechainView.connectCertificate progress = .ok after) :
    after.1.AccountsFor maturity below transfers (certificates ++ more) := by
  have tracked := foldlM_tracks (fun certificate => [certificate])
    (fun past progress => progress.1.AccountsFor maturity below transfers past)
    (fun past progress certificate after _ accounts connected =>
      accounts.connectCertificate connected) accounts connected
  rwa [List.flatMap_singleton'] at tracked

theorem get?_matureAt [Arithmetic] {progress : SidechainView × SidechainUndos} {other : SidechainId} :
    (matureAt height progress other).1.get? id =
      if other = id then (progress.1.get? id).map fun sidechain => sidechain.matured height
      else progress.1.get? id := by
  obtain ⟨view, undos⟩ := progress
  rw [matureAt]
  split
  · next absent =>
    split
    · next here => rw [← here, absent, Option.map_none]
    · rfl
  · next sidechain held =>
    split
    · next stays =>
      have absent := Option.map_eq_none_iff.mp stays
      split
      · next here => rw [← here, held, Option.map_some, Sidechain.matured_of_absent absent]
      · rfl
    · next amount moved matures =>
      rw [get?_insert]
      split
      · next here => rw [← here, held, Option.map_some, Sidechain.matured_of_mature? matures]
      · rfl

theorem get?_foldl_matureAt [Arithmetic] {ids : List SidechainId}
    {progress : SidechainView × SidechainUndos} :
    (ids.foldl (matureAt height) progress).1.get? id =
      if id ∈ ids then (progress.1.get? id).map fun sidechain => sidechain.matured height
      else progress.1.get? id := by
  induction ids generalizing progress with
  | nil => rfl
  | cons other ids ih =>
    rw [List.foldl_cons, ih, get?_matureAt]
    by_cases here : other = id
    · subst here
      cases progress.1.get? other <;> simp [Sidechain.matured_matured]
    · simp [here, Ne.symm here]

/-- **What waited for a height matures everywhere.** -/
theorem get?_matured [Arithmetic] :
    ((view.maturingAt height).foldl (matureAt height) (view, undos)).1.get? id =
      (view.get? id).map fun sidechain => sidechain.matured height := by
  rw [get?_foldl_matureAt]
  split
  · rfl
  · next outside =>
    cases held : view.get? id with
    | none => rfl
    | some sidechain =>
      rw [Option.map_some, Sidechain.matured_of_absent]
      refine contains_eq_false_iff.mp (Bool.eq_false_iff.mpr fun waits => outside ?_)
      have member : (id, sidechain) ∈ view.entries := get?_eq_some_iff.mp held
      exact List.mem_map.mpr ⟨_, List.mem_filter.mpr ⟨member, waits⟩, rfl⟩

/-- **What a block does to sidechains by itself is accounted for**: its certificates pay, and then
all that is due at its height has joined the balances. -/
theorem AccountsFor.connectSidechains {block : Block} {final : SidechainView}
    (accounts : view.AccountsFor maturity block.height transfers certificates)
    (connected : ChainState.connectSidechains view block = .ok (final, undos)) :
    final.AccountsFor maturity (block.height + 1) transfers
      (certificates ++ block.certificates) := by
  obtain ⟨⟨paid, between⟩, certified, matured⟩ := bind_eq_ok_iff.mp connected
  have balanced := accounts.connectCertificates certified
  obtain rfl : _ = final := congrArg Prod.fst (pure_eq_ok_iff.mp matured)
  refine ⟨fun id => ?_, fun id absent => ?_, fun id sidechain held => ?_⟩
  · rw [balanced.created, get?_matured, Option.isSome_map]
  · rw [get?_matured, Option.map_eq_none_iff] at absent
    exact balanced.unknown id absent
  · rw [get?_matured, Option.map_eq_some_iff] at held
    obtain ⟨before, held, rfl⟩ := held
    exact (balanced.known id before held).matured

end SidechainView

end Reorg
