/-
**What certificates pay out of.**

A certificate is accepted when the balance covers its total, and the balance is what was sent and has
matured, less what was paid. So at every place of a chain the totals, with their signs, add up to no
more than what matured in earlier blocks. The totals themselves are not checked: one that is negative
raises the balance, and a later one can pay that out again. What was paid out, without what was paid
in, is therefore bounded in this way exactly where no total is negative.

* `Place`: a place in a chain, behind some certificates of a block;
* `Place.accountsFor`: the sidechains at a place account for the history in front of it;
* `Place.paid_le_matured`: the totals never add up to more than what matured;
* `ChainState.paidOut_le_matured_iff`: when what was paid out does not, and no balance is raised.
-/

import Reorg.Proofs.Chain.Accounts

namespace Reorg

open Fallible OrderedMap

/-- What the certificates of a sidechain paid out: their positive totals. -/
def paidOut (certificates : List Certificate) (id : SidechainId) : Amount :=
  Amount.total (((certificates.filter fun certificate =>
    certificate.sidechain = id).map Certificate.total).filter (0 < ·))

/-- The zeros among some amounts add nothing. -/
theorem Amount.total_filter_pos {amounts : List Amount} (nonneg : ∀ amount ∈ amounts, 0 ≤ amount) :
    total (amounts.filter (0 < ·)) = total amounts := by
  induction amounts with
  | nil => rfl
  | cons amount amounts ih =>
    obtain ⟨first, rest⟩ := List.forall_mem_cons.mp nonneg
    have step : total (amount :: amounts) = amount + total amounts := rfl
    rw [List.filter_cons, step, ← ih rest]
    split
    · rfl
    · next zero =>
      have nothing : amount = 0 :=
        Int.le_antisymm (Int.not_lt.mp fun some => zero (decide_eq_true some)) first
      rw [nothing, Int.zero_add]

/-- Without negative totals, what was paid out is what was paid. -/
theorem paidOut_eq_paid {certificates : List Certificate} {id : SidechainId}
    (nonneg : ∀ certificate ∈ certificates, certificate.sidechain = id → 0 ≤ certificate.total) :
    paidOut certificates id = paid certificates id := by
  refine Amount.total_filter_pos fun amount member => ?_
  obtain ⟨certificate, among, rfl⟩ := List.mem_map.mp member
  obtain ⟨among, here⟩ := List.mem_filter.mp among
  exact nonneg certificate among (of_decide_eq_true here)

/-! ### Places -/

/-- A place in a chain: behind the transactions and the first certificates of one of its blocks. -/
structure Place (blocks : List Block) where
  front : List Block
  block : Block
  back : List Block
  past : List Certificate
  later : List Certificate
  blocks_eq : blocks = front ++ block :: back
  certificates_eq : block.certificates = past ++ later

namespace Place

variable {blocks : List Block} {place : Place blocks} {maturity start : Nat} {id : SidechainId}
  {certificate : Certificate} {rest : List Certificate} {final : ChainState}

/-- The certificates that were accepted in front of a place. -/
def accepted (place : Place blocks) : List Certificate :=
  place.front.flatMap Block.certificates ++ place.past

/-- What a sidechain was sent that matured in blocks in front of that of a place. -/
def matured (maturity : Nat) (place : Place blocks) (id : SidechainId) : Amount :=
  credited (place.front.flatMap Block.transfers) id fun sent => sent + maturity < place.block.height

/-- The sidechains at a place. -/
def sidechains (maturity : Nat) (place : Place blocks) : Except ChainError SidechainView := do
  let state ← (ChainState.initial maturity).replay place.front
  let (spent, _) ← place.block.transactions.foldlM (ChainState.connectTx place.block.height)
    (state, .start state.root)
  let (view, _) ← place.past.foldlM SidechainView.connectCertificate (spent.sidechains, .empty)
  return view

/-- The balance of a sidechain at a place, if there is such a sidechain. -/
def balance? (maturity : Nat) (place : Place blocks) (id : SidechainId) : Option Amount :=
  match place.sidechains maturity with
  | .ok view => (view.get? id).map Sidechain.balance
  | .error _ => none

/-- The place behind the next certificate. -/
def behind (place : Place blocks) (next : place.later = certificate :: rest) : Place blocks where
  front := place.front
  block := place.block
  back := place.back
  past := place.past ++ [certificate]
  later := rest
  blocks_eq := place.blocks_eq
  certificates_eq := by
    rw [place.certificates_eq, next, List.append_assoc]
    rfl

theorem balance?_of_sidechains {view : SidechainView} (here : place.sidechains maturity = .ok view) :
    place.balance? maturity id = (view.get? id).map Sidechain.balance := by
  rw [balance?, here]

/-- **At every place of a chain that connects** there are sidechains, sound ones, and they account
for the history in front of it. -/
theorem accountsFor (heights : blocks.map Block.height = List.range' start blocks.length)
    (replayed : (ChainState.initial maturity).replay blocks = .ok final) (place : Place blocks) :
    ∃ view, place.sidechains maturity = .ok view ∧ view.Sound ∧
      view.AccountsFor maturity place.block.height
        (place.front.flatMap Block.transfers ++ place.block.transfers) place.accepted := by
  obtain ⟨front, block, back, past, later, rfl, split⟩ := place
  obtain ⟨state, before, whole⟩ := ChainState.replay_append_eq_ok_iff.mp replayed
  obtain ⟨next, undo, connected, -⟩ := ChainState.replay_cons_eq_ok_iff.mp whole
  obtain ⟨spent, _, _, _, transactions, round, -, -⟩ := ChainState.connect_eq_ok_iff.mp connected
  obtain ⟨_, certificates, -⟩ := bind_eq_ok_iff.mp round
  rw [split, List.foldlM_append] at certificates
  obtain ⟨⟨view, undos⟩, paid, -⟩ := bind_eq_ok_iff.mp certificates
  rw [List.map_append, List.map_cons, List.length_append, ← List.range'_append_1,
    List.length_cons, List.range'_succ] at heights
  obtain ⟨heights, here⟩ := List.append_inj heights (by rw [List.length_map, List.length_range'])
  have height : block.height = start + front.length := (List.cons.inj here).1
  have accounts := ChainState.accountsFor_of_replay heights before
  rw [← height] at accounts
  have sent := accounts.connectTxs transactions
  have sound := (ChainState.sound_initial.replay before).connectTxs transactions
  refine ⟨view, ?_, ?_, sent.sidechains.connectCertificates paid⟩
  · exact bind_eq_ok_iff.mpr ⟨state, before, bind_eq_ok_iff.mpr ⟨_, transactions,
      bind_eq_ok_iff.mpr ⟨_, paid, rfl⟩⟩⟩
  · exact ((SidechainView.Certified.start sound.sidechains).connectCertificates paid).sound

/-- What a block sends matures in none of the blocks in front of it. -/
theorem credited_eq_matured : credited (place.front.flatMap Block.transfers ++
    place.block.transfers) id (fun sent => sent + maturity < place.block.height) =
      place.matured maturity id := by
  refine credited_append_of_not fun transfer member => ?_
  obtain ⟨tx, -, member⟩ := List.mem_flatMap.mp member
  obtain ⟨placed, -, rfl⟩ := List.mem_map.mp member
  exact Nat.not_lt.mpr (Nat.le_add_right _ _)

/-- The balance at a place, if any, is what matured less what was paid, and not negative. -/
theorem balance?_eq_some (heights : blocks.map Block.height = List.range' start blocks.length)
    (replayed : (ChainState.initial maturity).replay blocks = .ok final) {balance : Amount}
    (held : place.balance? maturity id = some balance) :
    balance = place.matured maturity id - paid place.accepted id ∧ 0 ≤ balance := by
  obtain ⟨view, here, sound, accounts⟩ := accountsFor heights replayed place
  rw [balance?_of_sidechains here] at held
  obtain ⟨sidechain, known, rfl⟩ := Option.map_eq_some_iff.mp held
  refine ⟨?_, (sound id sidechain known).solvent⟩
  rw [(accounts.known id sidechain known).balance, credited_eq_matured]

/-- **The totals of certificates never add up to more than what matured** in earlier blocks. -/
theorem paid_le_matured (heights : blocks.map Block.height = List.range' start blocks.length)
    (replayed : (ChainState.initial maturity).replay blocks = .ok final) (place : Place blocks)
    (id : SidechainId) : paid place.accepted id ≤ place.matured maturity id := by
  obtain ⟨view, here, sound, accounts⟩ := accountsFor heights replayed place
  cases known : view.get? id with
  | none =>
    obtain ⟨unsent, unpaid⟩ := accounts.unknown id known
    have nothing : place.matured maturity id = 0 := by
      rw [← credited_eq_matured, credited_eq_zero unsent]
    exact Int.le_of_eq ((paid_eq_zero unpaid).trans nothing.symm)
  | some sidechain =>
    have held : place.balance? maturity id = some sidechain.balance := by
      rw [balance?_of_sidechains here, known, Option.map_some]
    obtain ⟨balance, nonneg⟩ := balance?_eq_some heights replayed held
    rw [balance] at nonneg
    exact Int.le_of_sub_nonneg nonneg

theorem accepted_behind (next : place.later = certificate :: rest) :
    (place.behind next).accepted = place.accepted ++ [certificate] :=
  (List.append_assoc _ _ _).symm

theorem mem_accepted_behind (next : place.later = certificate :: rest) :
    certificate ∈ (place.behind next).accepted := by
  rw [accepted_behind]
  exact List.mem_append_right _ List.mem_cons_self

/-- **A certificate takes its total from the balance**, whatever its sign. -/
theorem balance?_behind (heights : blocks.map Block.height = List.range' start blocks.length)
    (replayed : (ChainState.initial maturity).replay blocks = .ok final)
    (next : place.later = certificate :: rest) : ∃ balance,
    place.balance? maturity certificate.sidechain = some balance ∧
      (place.behind next).balance? maturity certificate.sidechain =
        some (balance - certificate.total) := by
  obtain ⟨view, here, -, accounts⟩ := accountsFor heights replayed place
  obtain ⟨after, there, -, accounts'⟩ := accountsFor heights replayed (place.behind next)
  have present : (after.get? certificate.sidechain).isSome :=
    Option.isSome_iff_ne_none.mpr fun absent =>
      (accounts'.unknown _ absent).2 certificate (mem_accepted_behind next) rfl
  have present' : (view.get? certificate.sidechain).isSome :=
    accounts.isSome_iff.mpr (accounts'.isSome_iff.mp present)
  obtain ⟨paid, known'⟩ := Option.isSome_iff_exists.mp present
  obtain ⟨sidechain, known⟩ := Option.isSome_iff_exists.mp present'
  have held : place.balance? maturity certificate.sidechain = some sidechain.balance := by
    rw [balance?_of_sidechains here, known, Option.map_some]
  have held' : (place.behind next).balance? maturity certificate.sidechain = some paid.balance := by
    rw [balance?_of_sidechains there, known', Option.map_some]
  have before := (balance?_eq_some heights replayed held).1
  have behind := (balance?_eq_some heights replayed held').1
  rw [accepted_behind, paid_concat, if_pos rfl, ← Int.sub_sub] at behind
  refine ⟨sidechain.balance, held, ?_⟩
  rw [held', behind, before]
  rfl

/-- Every certificate of a chain is the next one at some place. -/
theorem exists_of_mem (member : certificate ∈ blocks.flatMap Block.certificates) :
    ∃ place : Place blocks, ∃ rest, place.later = certificate :: rest := by
  obtain ⟨block, member, inside⟩ := List.mem_flatMap.mp member
  obtain ⟨front, back, rfl⟩ := List.append_of_mem member
  obtain ⟨past, rest, split⟩ := List.append_of_mem inside
  exact ⟨⟨front, block, back, past, certificate :: rest, rfl, split⟩, rest, rfl⟩

theorem mem_of_accepted (member : certificate ∈ place.accepted) :
    certificate ∈ blocks.flatMap Block.certificates := by
  rw [place.blocks_eq, List.flatMap_append, List.flatMap_cons, place.certificates_eq]
  rcases List.mem_append.mp member with front | past
  · exact List.mem_append_left _ front
  · exact List.mem_append_right _ (List.mem_append_left _ (List.mem_append_left _ past))

end Place

/-! ### Chains -/

namespace ChainState

variable {maturity start : Nat} {final : ChainState} {blocks : List Block}

/-- **When certificates pay out no more than what came in.** The totals, with their signs, never add
up to more than what matured in earlier blocks. The positive ones alone never do, and no certificate
raises the balance, exactly where no total of the sidechain is negative. -/
theorem paidOut_le_matured_iff
    (heights : blocks.map Block.height = List.range' start blocks.length)
    (replayed : (initial maturity).replay blocks = .ok final) (id : SidechainId) :
    (∀ place : Place blocks, paid place.accepted id ≤ place.matured maturity id) ∧
    (((∀ place : Place blocks, paidOut place.accepted id ≤ place.matured maturity id) ∧
        ∀ (place : Place blocks) (certificate : Certificate) (rest : List Certificate)
          (next : place.later = certificate :: rest), certificate.sidechain = id →
          ∃ before after, place.balance? maturity id = some before ∧
            (place.behind next).balance? maturity id = some after ∧ after ≤ before) ↔
      ∀ certificate ∈ blocks.flatMap Block.certificates, certificate.sidechain = id →
        0 ≤ certificate.total) := by
  have bound := fun place => Place.paid_le_matured heights replayed place id
  refine ⟨bound, ?_, fun nonneg => ⟨fun place => ?_, ?_⟩⟩
  · rintro ⟨-, lowers⟩ certificate member rfl
    obtain ⟨place, rest, next⟩ := Place.exists_of_mem member
    obtain ⟨before, after, held, held', lower⟩ := lowers place certificate rest next rfl
    obtain ⟨balance, here, there⟩ := Place.balance?_behind heights replayed next
    obtain rfl := Option.some.inj (held.symm.trans here)
    obtain rfl := Option.some.inj (held'.symm.trans there)
    have difference := Int.sub_nonneg_of_le lower
    rwa [Int.sub_sub_self] at difference
  · rw [paidOut_eq_paid fun certificate member =>
      nonneg certificate (Place.mem_of_accepted member)]
    exact bound place
  · rintro place certificate rest next rfl
    obtain ⟨balance, here, there⟩ := Place.balance?_behind heights replayed next
    have member := Place.mem_of_accepted (Place.mem_accepted_behind next)
    exact ⟨balance, _, here, there, Int.sub_le_self balance (nonneg certificate member rfl)⟩

theorem paidOut_le_matured_founding :
    founding.map Block.height = List.range' 7 founding.length ∧
    ((initial 1).replay founding).isOk = true ∧
    (∀ place : Place founding, paidOut place.accepted founded ≤ place.matured 1 founded) ∧
    ∀ (place : Place founding) (certificate : Certificate) (rest : List Certificate)
      (next : place.later = certificate :: rest), certificate.sidechain = founded →
      ∃ before after, place.balance? 1 founded = some before ∧
        (place.behind next).balance? 1 founded = some after ∧ after ≤ before := by
  have heights : founding.map Block.height = List.range' 7 founding.length := rfl
  have connects : ((initial 1).replay founding).isOk = true := by decide +kernel
  obtain ⟨final, replayed⟩ := exists_eq_ok connects
  have nonneg : ∀ certificate ∈ founding.flatMap Block.certificates,
    certificate.sidechain = founded → 0 ≤ certificate.total := by decide +kernel
  exact ⟨heights, connects, (paidOut_le_matured_iff heights replayed founded).2.mpr nonneg⟩

/-- A chain that creates a sidechain with fifty, and then takes in five and pays out fifty-five in
one block. -/
def overdrawing : List Block := [
  ⟨.filled 5, 1, [⟨.filled 1, -4, true, [], [], [.creation .zero 50 openParams]⟩], [], .zero⟩,
  ⟨.filled 6, 2, [], [], .zero⟩,
  ⟨.filled 7, 3, [], [⟨.filled 8, founded, 0, -5⟩, ⟨.filled 9, founded, 1, 55⟩], .zero⟩]

/-- The place in it behind some of its certificates. -/
def overdrawn (count : Nat) : Place overdrawing where
  front := overdrawing.take 2
  block := ⟨.filled 7, 3, [], [⟨.filled 8, founded, 0, -5⟩, ⟨.filled 9, founded, 1, 55⟩], .zero⟩
  back := []
  past := [⟨.filled 8, founded, 0, -5⟩, ⟨.filled 9, founded, 1, 55⟩].take count
  later := [⟨.filled 8, founded, 0, -5⟩, ⟨.filled 9, founded, 1, 55⟩].drop count
  blocks_eq := rfl
  certificates_eq := (List.take_append_drop count _).symm

/-- **More is paid out than came in**, because a certificate with a negative total is accepted and
raises the balance. -/
theorem overdrawing_pays_more_than_matured :
    overdrawing.map Block.height = List.range' 1 overdrawing.length ∧
    ((initial 1).replay overdrawing).isOk = true ∧
    (∃ place : Place overdrawing,
      place.matured 1 founded = 50 ∧ paidOut place.accepted founded = 55) ∧
    ∃ (place : Place overdrawing) (certificate : Certificate) (rest : List Certificate)
      (next : place.later = certificate :: rest), certificate.sidechain = founded ∧
      place.balance? 1 founded = some 50 ∧ (place.behind next).balance? 1 founded = some 55 := by
  refine ⟨rfl, by decide +kernel, ⟨overdrawn 2, by decide +kernel⟩, ?_⟩
  exact ⟨overdrawn 0, _, _, rfl, rfl, by decide +kernel⟩

end ChainState

end Reorg
