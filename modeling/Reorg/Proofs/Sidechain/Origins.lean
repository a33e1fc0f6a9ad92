/-
**Where sidechains come from, and what is on its way to them.**

A record of a sidechain is made by an intent that creates it, and from then on only its balance, its
epoch and the amounts on their way change. So every record can be traced to the intents and the
certificates of a history: an intent created it, with valid parameters, all that it was sent was valid
and admitted by it, and each of its certificates ended an epoch. This holds however sums wrap around.
What waits for a height is what was sent to arrive then, as long as that sum fits in a word.

* `Sidechain.Founded`: a record that an intent of a history created;
* `SidechainView.TracesTo`: records that can be traced to a history;
* `TracesTo.connectIntent`, `connectCertificate`, `connectSidechains`: each step keeps that;
* `SidechainView.Awaits`: a sum that waits for a height, if it fits;
* `Awaits.connectIntent`, `connectSidechains`: what is sent is added, and what is due is gone.
-/

import Reorg.Proofs.Sidechain.Reversal

namespace Reorg

open Fallible OrderedMap

/-! ### Intents -/

theorem Intent.params_of_validate {destination : Digest} {value : Amount} {params : CreationParams}
    (valid : (creation destination value params).validate = .ok ()) : params.validate = .ok () := by
  unfold validate at valid
  split at valid
  · cases valid
  · obtain ⟨_, -, valid⟩ := bind_eq_ok_iff.mp valid
    exact valid

/-- Valid parameters have no empty key for requests. -/
theorem CreationParams.requestKey_of_validate {params : CreationParams} {key : VerifyingKey}
    (valid : params.validate = .ok ()) (held : params.requestKey = some key) :
    key.isNull = false := by
  unfold validate at valid
  cases empty : key.isNull with
  | false => rfl
  | true =>
    rw [held, Option.any_some, empty, if_pos rfl] at valid
    split at valid
    · cases valid
    · split at valid
      · cases valid
      · split at valid <;> cases valid

/-! ### Records -/

/-- The epoch of a sidechain that has had some number of certificates. -/
def epochAfter [Arithmetic] : Nat → Epoch
  | 0 => noEpoch
  | count + 1 => Arithmetic.epoch (epochAfter count + 1)

namespace Sidechain

variable {sidechain : Sidechain} {transfers more : List Transfer} {id : SidechainId}

/-- An intent of a history created the sidechain, at the height and in the transaction that the
record names and with the parameters that it has, which are valid. -/
structure Founded (transfers : List Transfer) (id : SidechainId)
    (founding : Nat × Digest × CreationParams) : Prop where
  valid : founding.2.2.validate = .ok ()
  created : ∃ transfer ∈ transfers, transfer.Creates id ∧ transfer.height = founding.1 ∧
    transfer.txid = founding.2.1 ∧
    ∃ destination value, transfer.intent = .creation destination value founding.2.2

theorem Founded.mono {founding : Nat × Digest × CreationParams}
    (founded : Founded transfers id founding) (inside : transfers ⊆ more) :
    Founded more id founding := by
  obtain ⟨valid, transfer, member, created⟩ := founded
  exact ⟨valid, transfer, inside member, created⟩

/-- Whether an intent is admitted depends on how the sidechain was founded only. -/
theorem accepts_congr {other : Sidechain} {intent : Intent}
    (same : other.founding = sidechain.founding) :
    other.accepts intent = sidechain.accepts intent := by
  have params : other.params = sidechain.params := congrArg (fun founding => founding.2.2) same
  cases intent <;> simp only [accepts, params]

/-- An amount that is put on its way is added to what waits, if the sum fits. -/
theorem get?_addImmature_of_fits [Arithmetic] [Arithmetic.Lawful] {due : Nat} {sum amount : Amount}
    (waits : sidechain.immature.get? due = if sum = 0 then none else some sum)
    (nonneg : 0 ≤ sum) (more : 0 ≤ amount) (fits : sum + amount ≤ Int64.maxValue.toInt) :
    (sidechain.addImmature due amount).immature.get? due =
      if sum + amount = 0 then none else some (sum + amount) := by
  by_cases nothing : amount = 0
  · rw [nothing, addImmature_zero, Int.add_zero, waits]
  · have before : (sidechain.immature.get? due).getD 0 = sum := by
      rw [waits]
      split
      · next zero => rw [zero, Option.getD_none]
      · rw [Option.getD_some]
    have kept : Arithmetic.amount (sum + amount) = sum + amount :=
      Arithmetic.amount_of_fits (Int.add_nonneg nonneg more) fits
    rw [addImmature_of_ne nothing, get?_insert_self, before, kept, if_neg (by lia)]

end Sidechain

/-! ### Views that can be traced -/

namespace SidechainView

variable {view next whole part : SidechainView} {maturity height due : Nat} {sum : Amount}
  {transfers : List Transfer} {certificates : List Certificate} {certificate : Certificate}
  {txid : Digest} {placed : Intent × Nat} {id : SidechainId} {sidechain : Sidechain}
  {undos later : SidechainUndos} {block : Block} {tx : Transaction}

/-- The sidechain of an intent is known and takes such intents, and the intent is valid. -/
def Admits (view : SidechainView) (transfer : Transfer) : Prop :=
  transfer.intent.validate = .ok () ∧ ∃ sidechain, view.get? transfer.sidechain = some sidechain ∧
    sidechain.accepts transfer.intent = .ok ()

/-- What an intent meets: it is valid, and the record that it is for takes such intents. -/
theorem accepts_of_connectIntent [Arithmetic]
    (connected : connectIntent maturity height txid view placed = .ok next)
    (receives : view.Receives height txid placed sidechain) :
    placed.1.validate = .ok () ∧ sidechain.accepts placed.1 = .ok () := by
  obtain ⟨intent, index⟩ := placed
  obtain ⟨_, valid, connected⟩ := bind_eq_ok_iff.mp connected
  refine ⟨mapError_eq_ok_iff.mp valid, ?_⟩
  cases intent with
  | creation destination value params => rfl
  | forward destination value id => rfl
  | withdrawal id address params =>
    obtain ⟨found, held, connected⟩ := bind_eq_ok_iff.mp connected
    obtain ⟨_, accepted, -⟩ := bind_eq_ok_iff.mp connected
    cases (find_eq_ok_iff.mp held).symm.trans (receives : view.get? id = some sidechain)
    exact mapError_eq_ok_iff.mp accepted

/-- An intent is for a record that is there, or it creates one that is not. -/
theorem Receives.known_or_created (receives : view.Receives height txid placed sidechain) :
    view.get? (placed.1.sidechainAt txid placed.2) = some sidechain ∨
      view.get? (placed.1.sidechainAt txid placed.2) = none ∧
        ∃ destination value params, placed.1 = .creation destination value params ∧
          sidechain = Sidechain.create height txid params := by
  obtain ⟨intent, index⟩ := placed
  cases intent with
  | creation destination value params =>
    obtain ⟨absent, rfl⟩ := receives
    exact .inr ⟨absent, destination, value, params, rfl, rfl⟩
  | forward destination value id => exact .inl receives
  | withdrawal id address params => exact .inl receives

section Traces

variable [Arithmetic]

/-- All records were founded in a history and have the epoch that its certificates lead to; their
sidechains admitted all that the history sent, and were there for all that it paid. -/
structure TracesTo (transfers : List Transfer) (certificates : List Certificate)
    (view : SidechainView) : Prop where
  founded : ∀ id sidechain, view.get? id = some sidechain →
    Sidechain.Founded transfers id sidechain.founding
  epochs : ∀ id sidechain, view.get? id = some sidechain →
    sidechain.lastEpoch = epochAfter (endedEpochs certificates id).length
  admitted : ∀ transfer ∈ transfers, view.Admits transfer
  certified : ∀ certificate ∈ certificates, (view.get? certificate.sidechain).isSome

theorem tracesTo_empty : TracesTo [] [] .empty where
  founded _ _ held := by cases held
  epochs _ _ held := by cases held
  admitted _ member := (List.not_mem_nil member).elim
  certified _ member := (List.not_mem_nil member).elim

/-- What is there of records that can be traced can be traced. -/
theorem TracesTo.restOf (traces : whole.TracesTo transfers certificates)
    (rest : whole.RestOf part) : part.TracesTo transfers certificates := by
  refine ⟨fun id sidechain held => ?_, fun id sidechain held => ?_, fun transfer member => ?_,
    fun certificate member => ?_⟩
  · obtain ⟨before, known, record⟩ := rest.known held
    rw [record.founding]
    exact traces.founded id before known
  · obtain ⟨before, known, record⟩ := rest.known held
    rw [record.lastEpoch]
    exact traces.epochs id before known
  · obtain ⟨valid, before, known, accepted⟩ := traces.admitted transfer member
    obtain ⟨sidechain, held, record⟩ := rest.remains known
    exact ⟨valid, sidechain, held, (Sidechain.accepts_congr record.founding).trans accepted⟩
  · obtain ⟨before, known⟩ := Option.isSome_iff_exists.mp (traces.certified certificate member)
    obtain ⟨sidechain, held, -⟩ := rest.remains known
    rw [held, Option.isSome_some]

/-- A sidechain that is not known has had no certificates. -/
theorem TracesTo.endedEpochs_eq_nil (traces : view.TracesTo transfers certificates)
    (absent : view.get? id = none) : endedEpochs certificates id = [] := by
  refine List.map_eq_nil_iff.mpr (List.filter_eq_nil_iff.mpr fun certificate member here => ?_)
  have held := traces.certified certificate member
  rw [of_decide_eq_true here, absent] at held
  cases held

/-- The record that an intent is for was founded in the history that ends with it, and has the epoch
that the certificates lead to. -/
theorem TracesTo.receives (traces : view.TracesTo transfers certificates)
    (receives : view.Receives height txid placed sidechain)
    (valid : placed.1.validate = .ok ()) :
    let sent := Transfer.ofPlaced height txid placed
    Sidechain.Founded (transfers ++ [sent]) sent.sidechain sidechain.founding ∧
    sidechain.lastEpoch = epochAfter (endedEpochs certificates sent.sidechain).length ∧
    ∀ before, view.get? sent.sidechain = some before → before = sidechain := by
  intro sent
  rcases receives.known_or_created with held | ⟨absent, destination, value, params, here, rfl⟩
  · exact ⟨(traces.founded _ _ held).mono (List.subset_append_left _ _), traces.epochs _ _ held,
      fun before held' => Option.some.inj (held'.symm.trans held)⟩
  · have last : sent ∈ transfers ++ [sent] := List.mem_append_right _ (List.mem_singleton.mpr rfl)
    have creates : sent.Creates sent.sidechain := by
      obtain ⟨intent, index⟩ := placed
      cases here
      exact ⟨rfl, rfl⟩
    refine ⟨⟨Intent.params_of_validate (here ▸ valid), sent, last, creates, rfl, rfl, destination,
      value, here⟩, ?_, fun before held => ?_⟩
    · have unpaid : endedEpochs certificates sent.sidechain = [] := traces.endedEpochs_eq_nil absent
      rw [unpaid]
      rfl
    · cases absent.symm.trans held

/-- A view whose records can be traced gets one that can be traced too, in a history that goes on
about that sidechain alone. -/
theorem TracesTo.insert {transfers' : List Transfer} {certificates' : List Certificate}
    (traces : view.TracesTo transfers certificates)
    (founded : Sidechain.Founded transfers' id sidechain.founding)
    (epoch : sidechain.lastEpoch = epochAfter (endedEpochs certificates' id).length)
    (kept : ∀ before, view.get? id = some before → sidechain.founding = before.founding)
    (more : transfers ⊆ transfers')
    (sent : ∀ transfer ∈ transfers', transfer ∈ transfers ∨ transfer.sidechain = id ∧
      transfer.intent.validate = .ok () ∧ sidechain.accepts transfer.intent = .ok ())
    (paid : ∀ certificate ∈ certificates',
      certificate ∈ certificates ∨ certificate.sidechain = id)
    (elsewhere : ∀ other, id ≠ other →
      endedEpochs certificates' other = endedEpochs certificates other) :
    TracesTo transfers' certificates' (OrderedMap.insert view id sidechain) := by
  refine ⟨fun other found held => ?_, fun other found held => ?_, fun transfer member => ?_,
    fun certificate member => ?_⟩
  · rw [get?_insert] at held
    split at held
    · next here =>
      cases held
      exact here ▸ founded
    · exact (traces.founded other found held).mono more
  · rw [get?_insert] at held
    split at held
    · next here =>
      cases held
      exact here ▸ epoch
    · next apart =>
      rw [elsewhere other apart]
      exact traces.epochs other found held
  · rcases sent transfer member with before | ⟨here, valid, accepted⟩
    · obtain ⟨valid, found, held, accepted⟩ := traces.admitted transfer before
      refine ⟨valid, ?_⟩
      rw [get?_insert]
      by_cases here : id = transfer.sidechain
      · rw [if_pos here]
        exact ⟨sidechain, rfl, (Sidechain.accepts_congr (kept found (here ▸ held))).trans accepted⟩
      · rw [if_neg here]
        exact ⟨found, held, accepted⟩
    · exact ⟨valid, sidechain, here ▸ get?_insert_self, accepted⟩
  · rw [get?_insert]
    by_cases here : id = certificate.sidechain
    · rw [if_pos here, Option.isSome_some]
    · rw [if_neg here]
      exact traces.certified certificate ((paid certificate member).resolve_right (Ne.symm here))

/-- **An intent can be traced.** -/
theorem TracesTo.connectIntent (traces : view.TracesTo transfers certificates)
    (connected : SidechainView.connectIntent maturity height txid view placed = .ok next) :
    next.TracesTo (transfers ++ [Transfer.ofPlaced height txid placed]) certificates := by
  obtain ⟨-, sidechain, receives, rfl⟩ := exists_of_connectIntent connected
  obtain ⟨valid, accepted⟩ := accepts_of_connectIntent connected receives
  obtain ⟨founded, epoch, same⟩ := traces.receives receives valid
  show TracesTo _ _ (OrderedMap.insert view (Transfer.ofPlaced height txid placed).sidechain _)
  refine traces.insert ?_ ?_ (fun before held => ?_) (List.subset_append_left _ _)
    (fun transfer member => ?_) (fun certificate member => .inl member) fun other apart => rfl
  · rw [Sidechain.founding_addImmature]
    exact founded
  · rw [Sidechain.frame_addImmature.2]
    exact epoch
  · rw [Sidechain.founding_addImmature, same before held]
  · rcases List.mem_append.mp member with before | last
    · exact .inl before
    · obtain rfl := List.mem_singleton.mp last
      exact .inr ⟨rfl, valid,
        (Sidechain.accepts_congr Sidechain.founding_addImmature).trans accepted⟩

theorem TracesTo.connectIntents (traces : view.TracesTo transfers certificates)
    (connected : view.connectIntents maturity height tx = .ok next) :
    next.TracesTo (transfers ++ tx.transfers height) certificates := by
  rw [Transaction.transfers, List.map_eq_flatMap]
  exact foldlM_tracks (fun placed => [Transfer.ofPlaced height tx.txid placed])
    (fun past view => view.TracesTo past certificates)
    (fun _ _ _ _ _ traces connected => traces.connectIntent connected) traces connected

/-- **A certificate can be traced.** -/
theorem TracesTo.connectCertificate (traces : view.TracesTo transfers certificates)
    (connected :
      SidechainView.connectCertificate (view, undos) certificate = .ok (next, later)) :
    next.TracesTo transfers (certificates ++ [certificate]) := by
  obtain ⟨sidechain, held, follows, -, rfl, -⟩ := connectCertificate_eq_ok_iff.mp connected
  have founded := traces.founded _ _ held
  refine traces.insert founded ?_ (fun before held' => ?_) (List.Subset.refl _)
    (fun transfer member => .inl member) (fun found member => ?_) fun other apart => ?_
  · rw [endedEpochs_concat, if_pos rfl, List.length_append, List.length_singleton, epochAfter,
      ← traces.epochs _ _ held]
    exact follows
  · cases held.symm.trans held'
    rfl
  · rcases List.mem_append.mp member with before | last
    · exact .inl before
    · exact .inr (List.mem_singleton.mp last ▸ rfl)
  · rw [endedEpochs_concat, if_neg apart, List.append_nil]

/-- What matures changes nothing that is traced. -/
theorem TracesTo.matured (traces : view.TracesTo transfers certificates) :
    TracesTo transfers certificates
      ((view.maturingAt height).foldl (matureAt height) (view, undos)).1 := by
  refine ⟨fun id sidechain held => ?_, fun id sidechain held => ?_, fun transfer member => ?_,
    fun certificate member => ?_⟩
  · rw [get?_matured, Option.map_eq_some_iff] at held
    obtain ⟨before, held, rfl⟩ := held
    rw [Sidechain.frame_matured.1]
    exact traces.founded id before held
  · rw [get?_matured, Option.map_eq_some_iff] at held
    obtain ⟨before, held, rfl⟩ := held
    rw [Sidechain.frame_matured.2]
    exact traces.epochs id before held
  · obtain ⟨valid, found, held, accepted⟩ := traces.admitted transfer member
    refine ⟨valid, found.matured height, ?_, ?_⟩
    · rw [get?_matured, held, Option.map_some]
    · exact (Sidechain.accepts_congr Sidechain.frame_matured.1).trans accepted
  · rw [get?_matured, Option.isSome_map]
    exact traces.certified certificate member

/-- **What a block does to sidechains by itself can be traced.** -/
theorem TracesTo.connectSidechains (traces : view.TracesTo transfers certificates)
    (connected : ChainState.connectSidechains view block = .ok (next, undos)) :
    next.TracesTo transfers (certificates ++ block.certificates) := by
  obtain ⟨⟨paid, between⟩, certified, matured⟩ := bind_eq_ok_iff.mp connected
  have tracked := foldlM_tracks (fun certificate => [certificate])
    (fun past (progress : SidechainView × SidechainUndos) => progress.1.TracesTo transfers past)
    (fun past progress certificate after _ traces step => traces.connectCertificate step)
    traces certified
  rw [List.flatMap_singleton'] at tracked
  obtain rfl : _ = next := congrArg Prod.fst (pure_eq_ok_iff.mp matured)
  exact tracked.matured

end Traces

/-! ### What is on its way -/

/-- What waits is still there when it was taken back, unless it was not positive. -/
theorem RestOf.waitingAt (rest : whole.RestOf part) :
    Amount.LeftOf (whole.waitingAt due id) (part.waitingAt due id) := by
  simp only [SidechainView.waitingAt]
  cases held : part.get? id with
  | some later =>
    obtain ⟨before, known, record⟩ := rest.known held
    simp only [known, Option.bind_some]
    exact record.waiting due
  | none =>
    cases known : whole.get? id with
    | none => exact .inl rfl
    | some before =>
      obtain ⟨later, held', -⟩ := rest.remains known
      cases held.symm.trans held'

/-- What waits at the record that an intent is for is what waits in the view. -/
theorem Receives.waitingAt (receives : view.Receives height txid placed sidechain) :
    view.waitingAt due (placed.1.sidechainAt txid placed.2) = sidechain.immature.get? due := by
  rw [SidechainView.waitingAt]
  rcases receives.known_or_created with held | ⟨absent, destination, value, params, -, rfl⟩
  · rw [held, Option.bind_some]
  · rw [absent]
    rfl

/-- A sum, which is not negative, waits for a height if it fits in a word; nothing waits if it is
zero. -/
structure Awaits (view : SidechainView) (due : Nat) (id : SidechainId) (sum : Amount) : Prop where
  nonneg : 0 ≤ sum
  waits : sum ≤ Int64.maxValue.toInt →
    view.waitingAt due id = if sum = 0 then none else some sum

theorem awaits_empty : Awaits .empty due id 0 := ⟨Int.le_refl 0, fun _ => rfl⟩

/-- What waits, and fits, is not lost when it was taken back. -/
theorem Awaits.restOf (awaits : whole.Awaits due id sum) (rest : whole.RestOf part) :
    part.Awaits due id sum := by
  refine ⟨awaits.nonneg, fun fits => ?_⟩
  have waits := awaits.waits fits
  rcases rest.waitingAt with same | ⟨-, amount, held, low⟩
  · rw [same, waits]
  · rw [held] at waits
    split at waits
    · cases waits
    · next something =>
      cases waits
      exact (something (Int.le_antisymm low awaits.nonneg)).elim

section Awaited

variable [Arithmetic]

/-- **What is sent is added** to what waits for the height at which it is due. -/
theorem Awaits.connectIntent [Arithmetic.Lawful] (awaits : view.Awaits due id sum)
    (connected : SidechainView.connectIntent maturity height txid view placed = .ok next) :
    let sent := Transfer.ofPlaced height txid placed
    next.Awaits due id (sum +
      if sent.sidechain = id ∧ Arithmetic.height (sent.height + maturity) = due
      then sent.value else 0) := by
  intro sent
  obtain ⟨more, sidechain, receives, rfl⟩ := exists_of_connectIntent connected
  have there : view.waitingAt due sent.sidechain = sidechain.immature.get? due := receives.waitingAt
  show Awaits (OrderedMap.insert view sent.sidechain
    (sidechain.addImmature (Arithmetic.height (sent.height + maturity)) sent.value)) _ _ _
  by_cases here : sent.sidechain = id
  · by_cases now : Arithmetic.height (sent.height + maturity) = due
    · rw [if_pos ⟨here, now⟩]
      refine ⟨Int.add_nonneg awaits.nonneg more, fun fits => ?_⟩
      have waits := awaits.waits (Int.le_trans (Int.le_add_of_nonneg_right more) fits)
      rw [← here, there] at waits
      rw [waitingAt, ← here, get?_insert_self, Option.bind_some, now]
      exact Sidechain.get?_addImmature_of_fits waits awaits.nonneg more fits
    · rw [if_neg fun both => now both.2, Int.add_zero]
      refine ⟨awaits.nonneg, fun fits => ?_⟩
      have waits := awaits.waits fits
      rw [← here, there] at waits
      rw [waitingAt, ← here, get?_insert_self, Option.bind_some, ← waits]
      by_cases nothing : sent.value = 0
      · rw [nothing, Sidechain.addImmature_zero]
      · rw [Sidechain.addImmature_of_ne nothing, get?_insert_ne now]
  · rw [if_neg fun both => here both.1, Int.add_zero]
    refine ⟨awaits.nonneg, fun fits => ?_⟩
    rw [waitingAt, get?_insert_ne here]
    exact awaits.waits fits

/-- **The intents of a transaction are added** to what waits. -/
theorem Awaits.connectIntents [Arithmetic.Lawful] {past : List Transfer}
    (awaits : view.Awaits due id
      (sum + credited past id fun sent => Arithmetic.height (sent + maturity) = due))
    (connected : view.connectIntents maturity height tx = .ok next) :
    next.Awaits due id (sum + credited (past ++ tx.transfers height) id
      fun sent => Arithmetic.height (sent + maturity) = due) := by
  rw [Transaction.transfers, List.map_eq_flatMap]
  refine foldlM_tracks (fun placed => [Transfer.ofPlaced height tx.txid placed])
    (fun past view => view.Awaits due id
      (sum + credited past id fun sent => Arithmetic.height (sent + maturity) = due))
    (fun past view placed after _ awaits step => ?_) awaits connected
  rw [credited_concat, ← Int.add_assoc]
  exact awaits.connectIntent step

/-- A block takes from its way what waited for its height, and nothing else. -/
theorem waitingAt_of_connectSidechains
    (connected : ChainState.connectSidechains view block = .ok (next, undos)) :
    next.waitingAt due id = if due = block.height then none else view.waitingAt due id := by
  obtain ⟨⟨paid, between⟩, certificates, matured⟩ := bind_eq_ok_iff.mp connected
  obtain rfl : _ = next := congrArg Prod.fst (pure_eq_ok_iff.mp matured)
  rw [← (Paying.of_connectCertificates certificates).waiting, waitingAt, get?_matured, waitingAt]
  cases paid.get? id with
  | none => exact (ite_self _).symm
  | some sidechain =>
    rw [Option.map_some, Option.bind_some, Option.bind_some, Sidechain.immature_matured, get?_erase]
    by_cases now : due = block.height
    · rw [if_pos now, if_pos now.symm]
    · rw [if_neg now, if_neg (Ne.symm now)]

/-- **What is due at the height of a block is gone** from what waits, and nothing else. -/
theorem Awaits.connectSidechains (awaits : view.Awaits due id sum)
    (connected : ChainState.connectSidechains view block = .ok (next, undos)) :
    next.Awaits due id (if due = block.height then 0 else sum) := by
  by_cases now : due = block.height
  · rw [if_pos now]
    refine ⟨Int.le_refl 0, fun _ => ?_⟩
    rw [waitingAt_of_connectSidechains connected, if_pos now, if_pos rfl]
  · rw [if_neg now]
    refine ⟨awaits.nonneg, fun fits => ?_⟩
    rw [waitingAt_of_connectSidechains connected, if_neg now]
    exact awaits.waits fits

/-- What is on its way behind a block was on its way in front of it. -/
theorem Kept.connectSidechains (kept : view.Kept)
    (connected : ChainState.connectSidechains view block = .ok (next, undos)) : next.Kept := by
  intro id sidechain held due amount waits
  have there : next.waitingAt due id = some amount := by
    rw [waitingAt, held, Option.bind_some, waits]
  rw [waitingAt_of_connectSidechains connected] at there
  split at there
  · cases there
  · obtain ⟨before, known, there⟩ := Option.bind_eq_some_iff.mp there
    exact kept id before known due amount there

end Awaited

end SidechainView

end Reorg
