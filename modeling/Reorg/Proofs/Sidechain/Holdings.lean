/-
**What a sidechain holds.**

A sidechain holds its balance and the amounts on their way to it. Maturing moves an amount from the
one to the other and so changes nothing; what is sent, what is paid, and what is taken back change
the sum by exactly the amount that they name. Only the record of a sidechain can get this wrong: it
takes its matured amount out of the balance whatever it is, but puts only a positive one back on its
way.

* `Sidechain.holdings`, `holdings_matured`: the sum, which maturing does not change;
* `SidechainUndo.holdings_applyTo`: what a record changes, which is nothing unless it is negative;
* `SidechainView.Exceeds`: a sidechain of two views holds more in the one than in the other;
* `Exceeds.of_connectIntent`, `Exceeds.of_disconnectIntent` and the like: by how much, for each step.
-/

import Mathlib.Algebra.BigOperators.Group.List.Basic
import Reorg.Chain.Disconnect
import Reorg.Proofs.Sidechain.Account

namespace Reorg

open Fallible OrderedMap

/-! ### Totals -/

namespace Amount

theorem total_cons {amount : Amount} {amounts : List Amount} :
    total (amount :: amounts) = amount + total amounts := rfl

/-- A total does not depend on the order. -/
theorem total_perm {first second : List Amount} (same : first.Perm second) :
    total first = total second := by
  induction same with
  | nil => rfl
  | cons amount _ ih => rw [total_cons, total_cons, ih]
  | swap amount other rest =>
    simp only [total_cons]
    lia
  | trans _ _ first second => exact first.trans second

theorem total_map_reverse {α : Type} {value : α → Amount} {items : List α} :
    total (items.reverse.map value) = total (items.map value) :=
  total_perm ((List.reverse_perm items).map value)

/-- The total over some items is the total over all, where the others count for nothing. -/
theorem total_map_filter {α : Type} {value : α → Amount} {counts : α → Bool} {items : List α} :
    total ((items.filter counts).map value) =
      total (items.map fun item => if counts item then value item else 0) := by
  induction items with
  | nil => rfl
  | cons item items ih =>
    by_cases here : counts item = true
    · rw [List.filter_cons_of_pos here, List.map_cons, List.map_cons, total_cons, total_cons,
        if_pos here, ih]
    · rw [List.filter_cons_of_neg here, List.map_cons, total_cons, if_neg here, ih]
      exact (Int.zero_add _).symm

theorem total_flatMap {α : Type} {amounts : α → List Amount} {items : List α} :
    total (items.flatMap amounts) = total (items.map fun item => total (amounts item)) := by
  induction items with
  | nil => rfl
  | cons item items ih => rw [List.flatMap_cons, total_append, ih, List.map_cons, total_cons]

theorem total_map_eq_zero {α : Type} {value : α → Amount} {items : List α}
    (nothing : ∀ item ∈ items, value item = 0) : total (items.map value) = 0 := by
  induction items with
  | nil => rfl
  | cons item items ih =>
    rw [List.map_cons, total_cons, nothing item List.mem_cons_self,
      ih fun other member => nothing other (List.mem_cons_of_mem _ member)]
    rfl

/-- **A run changes its state by the total** of what its items change it by, where changes add up. -/
theorem total_of_run {σ α ε : Type} {step : σ → α → Except ε σ} {items : List α}
    (changes : Amount → σ → σ → Prop) (stays : ∀ state, changes 0 state state)
    (adds : ∀ {first second before between after}, changes first before between →
      changes second between after → changes (first + second) before after)
    (change : α → Amount)
    (steps : ∀ state item after, item ∈ items → step state item = .ok after →
      changes (change item) state after)
    {state final : σ} (ran : items.foldlM step state = .ok final) :
    changes (total (items.map change)) state final := by
  have start : changes (total []) state state := stays state
  have tracked := foldlM_tracks (fun item => [change item])
    (fun past reached => changes (total past) state reached)
    (fun past reached item after member changed step => ?_) start ran
  · rwa [List.nil_append, ← List.map_eq_flatMap] at tracked
  · rw [total_append, show total [change item] = change item from Int.add_zero _]
    exact adds changed (steps reached item after member step)

end Amount

section Maps

variable {κ υ : Type} [Ord κ] [Std.TransOrd κ] [Std.LawfulEqOrd κ] [DecidableEq κ]

omit [Std.TransOrd κ] [DecidableEq κ] in
/-- A new key goes somewhere between the entries that there are. -/
theorem OrderedMap.insertInto_perm {key : κ} {value : υ} {entries : List (κ × υ)}
    (absent : ∀ entry ∈ entries, entry.1 ≠ key) :
    (insertInto key value entries).Perm ((key, value) :: entries) := by
  induction entries with
  | nil => exact .refl _
  | cons first rest ih =>
    rw [insertInto]
    split
    · exact .refl _
    · next same =>
      exact (absent first List.mem_cons_self (Std.LawfulEqCmp.eq_of_compare same).symm).elim
    · refine .trans (.cons first (ih fun entry member => ?_)) (.swap _ _ rest)
      exact absent entry (List.mem_cons_of_mem _ member)

variable {map : OrderedMap κ Amount} {key : κ} {amount : Amount}

omit [DecidableEq κ] in
theorem Amount.total_insert_of_absent (absent : map.get? key = none) :
    total (map.insert key amount).values = amount + total map.values := by
  have apart : ∀ entry ∈ map.entries, entry.1 ≠ key := by
    rintro entry member rfl
    rw [get?_eq_some_iff.mpr member] at absent
    cases absent
  exact total_perm ((insertInto_perm apart).map Prod.snd)

theorem Amount.total_erase :
    total (map.erase key).values = total map.values - (map.get? key).getD 0 := by
  cases held : map.get? key with
  | none => rw [erase_of_absent held, Option.getD_none, Int.sub_zero]
  | some amount =>
    have whole : map = (map.erase key).insert key amount := by
      rw [insert_erase, insert_eq_self held]
    have parts : total map.values = amount + total (map.erase key).values :=
      (congrArg (fun map => total map.values) whole).trans (total_insert_of_absent get?_erase_self)
    rw [parts, Option.getD_some]
    lia

/-- **A new value** takes the place of the old one in the total. -/
theorem Amount.total_insert :
    total (map.insert key amount).values = total map.values - (map.get? key).getD 0 + amount := by
  rw [← insert_erase, total_insert_of_absent get?_erase_self, total_erase]
  lia

/-- Of all entries of a map, only the one of a key counts there. -/
theorem OrderedMap.total_at_key {map : OrderedMap κ υ} (value : υ → Amount) :
    Amount.total (map.entries.map fun entry => if entry.1 = key then value entry.2 else 0) =
      ((map.get? key).map value).getD 0 := by
  cases held : map.get? key with
  | none =>
    refine Amount.total_map_eq_zero fun entry member => if_neg ?_
    rintro rfl
    rw [get?_eq_some_iff.mpr member] at held
    cases held
  | some found =>
    obtain ⟨before, behind, split⟩ := List.append_of_mem (get?_eq_some_iff.mp held)
    have distinct := keys_nodup map
    rw [split, List.map_append, List.map_cons] at distinct
    have apart := List.perm_middle.nodup_iff.mp distinct
    have elsewhere : ∀ entry ∈ before ++ behind, entry.1 ≠ key := by
      rintro entry member rfl
      have among : entry.1 ∈ (before ++ behind).map Prod.fst := List.mem_map_of_mem member
      exact (List.nodup_cons.mp apart).1 (List.map_append ▸ among)
    have others : ∀ entries : List (κ × υ), entries ⊆ before ++ behind →
        Amount.total (entries.map fun entry => if entry.1 = key then value entry.2 else 0) = 0 :=
      fun entries inside => Amount.total_map_eq_zero fun entry member =>
        if_neg (elsewhere entry (inside member))
    rw [split, List.map_append, List.map_cons, Amount.total_append, Amount.total_cons, if_pos rfl,
      others before (List.subset_append_left _ _), others behind (List.subset_append_right _ _)]
    simp

end Maps

/-! ### Records -/

namespace Sidechain

variable {sidechain reduced : Sidechain} {height : Nat} {amount : Amount}

/-- What a sidechain holds: its balance, and all that is on its way to it. -/
def holdings (sidechain : Sidechain) : Amount := sidechain.balance + sidechain.immatureTotal

theorem immatureTotal_eq_total :
    sidechain.immatureTotal = Amount.total sidechain.immature.values := rfl

theorem holdings_addImmature :
    (sidechain.addImmature height amount).holdings = sidechain.holdings + amount := by
  by_cases nothing : amount = 0
  · rw [nothing, addImmature_zero, Int.add_zero]
  · simp only [holdings, addImmature_of_ne nothing, immatureTotal_eq_total, Amount.total_insert,
      Arithmetic.amount_unbounded]
    lia

theorem holdings_removeImmature? (removed : sidechain.removeImmature? height amount = some reduced) :
    sidechain.holdings = reduced.holdings + amount := by
  rw [removeImmature?] at removed
  split at removed
  · next nothing =>
    cases removed
    rw [nothing, Int.add_zero]
  · split at removed
    · cases removed
    · next waiting held =>
      simp only [holdings, immatureTotal_eq_total]
      split at removed
      · cases removed
      · split at removed <;> cases removed
        · simp only [Amount.total_erase, held, Option.getD_some]
          lia
        · simp only [Amount.total_insert, held, Option.getD_some, Arithmetic.amount_unbounded]
          lia

/-- **Maturing changes nothing.** -/
theorem holdings_matured : (sidechain.matured height).holdings = sidechain.holdings := by
  simp only [holdings, matured_eq, immatureTotal_eq_total, Amount.total_erase]
  lia

end Sidechain

/-- What a record adds to a sidechain: what its amount lacks to zero. -/
def SidechainUndo.surplus (undo : SidechainUndo) : Amount := max (-undo.matured) 0

theorem SidechainUndo.surplus_eq_zero_iff {undo : SidechainUndo} :
    undo.surplus = 0 ↔ 0 ≤ undo.matured := by
  rw [surplus]
  lia

/-- **What a record changes**: nothing, unless its amount is negative; then the balance grows, and no
amount is put on its way. -/
theorem SidechainUndo.holdings_applyTo {undo : SidechainUndo} {sidechain : Sidechain}
    {height : Nat} :
    (undo.applyTo sidechain height).holdings = sidechain.holdings + undo.surplus := by
  have reduced : Sidechain.holdings { sidechain with
      balance := sidechain.balance - undo.matured } = sidechain.holdings - undo.matured := by
    simp only [Sidechain.holdings, Sidechain.immatureTotal, Arithmetic.amount_unbounded]
    lia
  simp only [applyTo, surplus, Arithmetic.amount_unbounded]
  by_cases positive : 0 < undo.matured
  · rw [if_pos positive]
    show (Sidechain.addImmature _ height undo.matured).holdings = _
    rw [Sidechain.holdings_addImmature, reduced]
    lia
  · rw [if_neg positive]
    show Sidechain.holdings { sidechain with balance := sidechain.balance - undo.matured } = _
    rw [reduced]
    lia

/-! ### Views -/

namespace SidechainView

variable {view next between : SidechainView} {id : SidechainId} {amount more : Amount}
  {maturity height : Nat} {txid : Digest} {placed : Intent × Nat} {certificate : Certificate}

/-- If a sidechain is in the second view it is in the first one as well, and there it holds an amount
more. -/
def Exceeds (id : SidechainId) (amount : Amount) (first second : SidechainView) : Prop :=
  ∀ lower, second.get? id = some lower →
    ∃ upper, first.get? id = some upper ∧ upper.holdings = lower.holdings + amount

theorem Exceeds.of_same (same : next.get? id = view.get? id) : Exceeds id 0 view next :=
  fun lower held => ⟨lower, same ▸ held, (Int.add_zero _).symm⟩

theorem Exceeds.trans (upper : Exceeds id amount view between)
    (lower : Exceeds id more between next) : Exceeds id (amount + more) view next := by
  intro least held
  obtain ⟨middle, held, second⟩ := lower least held
  obtain ⟨most, held, first⟩ := upper middle held
  exact ⟨most, held, by lia⟩

/-- A change of one sidechain alone, as the others see it too. -/
theorem Exceeds.of_insert {here : SidechainId} {lower upper : Sidechain}
    (held : view.get? here = some upper) (more : upper.holdings = lower.holdings + amount) :
    Exceeds id (if here = id then amount else 0) view (OrderedMap.insert view here lower) := by
  by_cases same : here = id
  · subst same
    rw [if_pos rfl]
    intro found held'
    rw [get?_insert_self] at held'
    cases held'
    exact ⟨upper, held, more⟩
  · rw [if_neg same]
    exact .of_same (get?_insert_ne same)

/-- **A run that goes down** by an amount with each item goes down by their total. -/
theorem Exceeds.of_falling {σ α ε : Type} {step : σ → α → Except ε σ} {items : List α}
    (observe : σ → SidechainView) (loss : α → Amount)
    (falls : ∀ state item after, item ∈ items → step state item = .ok after →
      Exceeds id (loss item) (observe state) (observe after))
    {state final : σ} (ran : items.foldlM step state = .ok final) :
    Exceeds id (Amount.total (items.map loss)) (observe state) (observe final) :=
  Amount.total_of_run (fun amount before after => Exceeds id amount (observe before) (observe after))
    (fun _ => .of_same rfl) Exceeds.trans loss falls ran

/-- **A run that goes up** by an amount with each item goes up by their total. -/
theorem Exceeds.of_rising {σ α ε : Type} {step : σ → α → Except ε σ} {items : List α}
    (observe : σ → SidechainView) (gain : α → Amount)
    (rises : ∀ state item after, item ∈ items → step state item = .ok after →
      Exceeds id (gain item) (observe after) (observe state))
    {state final : σ} (ran : items.foldlM step state = .ok final) :
    Exceeds id (Amount.total (items.map gain)) (observe final) (observe state) :=
  Amount.total_of_run (fun amount before after => Exceeds id amount (observe after) (observe before))
    (fun _ => .of_same rfl) (fun first second => Int.add_comm .. ▸ second.trans first) gain rises ran

/-! ### Steps -/

/-- What an intent at its place is worth to a sidechain. -/
def worth (id : SidechainId) (txid : Digest) (placed : Intent × Nat) : Amount :=
  if placed.1.sidechainAt txid placed.2 = id then placed.1.scopedValue else 0

/-- What a certificate costs a sidechain. -/
def cost (id : SidechainId) (certificate : Certificate) : Amount :=
  if certificate.sidechain = id then certificate.total else 0

/-- **An intent adds its value**, to the sidechain that it is for. One that it creates was not there
before. -/
theorem Exceeds.of_connectIntent
    (connected : connectIntent maturity height txid view placed = .ok next) :
    Exceeds id (worth id txid placed) next view := by
  obtain ⟨-, sidechain, receives, rfl⟩ := exists_of_connectIntent connected
  rw [worth]
  by_cases here : placed.1.sidechainAt txid placed.2 = id
  · rw [if_pos here]
    subst here
    intro lower held
    refine ⟨_, get?_insert_self, ?_⟩
    obtain rfl : sidechain = lower := by
      obtain ⟨intent, index⟩ := placed
      cases intent with
      | creation destination value params =>
        obtain ⟨absent, -⟩ := receives
        cases absent.symm.trans held
      | forward destination value other => exact Option.some.inj (receives.symm.trans held)
      | withdrawal other address params => exact Option.some.inj (receives.symm.trans held)
    exact Sidechain.holdings_addImmature
  · rw [if_neg here]
    exact .of_same (get?_insert_ne here).symm

/-- **Taking back an intent takes its value away**; one that created its sidechain takes that with
it. -/
theorem Exceeds.of_disconnectIntent
    (disconnected : disconnectIntent maturity height txid view placed = .ok next) :
    Exceeds id (worth id txid placed) view next := by
  obtain ⟨intent, index⟩ := placed
  obtain ⟨sidechain, found, taken⟩ := bind_eq_ok_iff.mp disconnected
  have held := find_eq_ok_iff.mp found
  rw [worth]
  split at taken
  · cases taken
  · next reduced removed =>
    have kept : (Except.ok (OrderedMap.insert view (intent.sidechainAt txid index) reduced) :
        Except ChainError SidechainView) = .ok next →
          Exceeds id (if intent.sidechainAt txid index = id then intent.scopedValue else 0)
            view next := by
      rintro ⟨⟩
      exact .of_insert held (Sidechain.holdings_removeImmature? removed)
    cases intent with
    | creation destination value params =>
      dsimp only at taken
      split at taken
      · cases taken
      · cases taken
        intro lower present
        rw [get?_erase] at present
        split at present
        · cases present
        · next elsewhere =>
          rw [if_neg elsewhere]
          exact ⟨lower, present, (Int.add_zero _).symm⟩
    | forward destination value other => exact kept taken
    | withdrawal other address params => exact kept taken

theorem Exceeds.of_connectCertificate {progress after : SidechainView × SidechainUndos}
    (connected : connectCertificate progress certificate = .ok after) :
    Exceeds id (cost id certificate) progress.1 after.1 := by
  obtain ⟨view, undos⟩ := progress
  obtain ⟨next, later⟩ := after
  obtain ⟨sidechain, held, -, -, rfl, -⟩ := connectCertificate_eq_ok_iff.mp connected
  refine .of_insert held ?_
  simp only [Sidechain.holdings, Sidechain.immatureTotal, Arithmetic.amount_unbounded]
  lia

theorem Exceeds.of_disconnectCertificate
    (disconnected : disconnectCertificate view certificate = .ok next) :
    Exceeds id (-cost id certificate) view next := by
  obtain ⟨sidechain, found, paid⟩ := bind_eq_ok_iff.mp disconnected
  rw [← pure_eq_ok_iff.mp paid, cost, apply_ite Neg.neg, Int.neg_zero]
  refine .of_insert (find_eq_ok_iff.mp found) ?_
  simp only [Sidechain.holdings, Sidechain.immatureTotal, Arithmetic.amount_unbounded]
  lia

/-- **A record adds its surplus**, which is nothing unless its amount is negative. -/
theorem Exceeds.of_disconnectEntry {entry : SidechainId × SidechainUndo}
    (disconnected : disconnectEntry height view entry = .ok next) :
    Exceeds id (if entry.1 = id then -entry.2.surplus else 0) view next := by
  obtain ⟨sidechain, found, applied⟩ := bind_eq_ok_iff.mp disconnected
  split at applied
  · cases applied
  · cases applied
    refine .of_insert (find_eq_ok_iff.mp found) ?_
    rw [SidechainUndo.holdings_applyTo]
    lia

/-- **What matures at a height** moves inside the sidechains. -/
theorem Exceeds.of_matured {undos : SidechainUndos} :
    Exceeds id 0 view ((view.maturingAt height).foldl (matureAt height) (view, undos)).1 := by
  intro lower held
  rw [get?_matured, Option.map_eq_some_iff] at held
  obtain ⟨upper, held, rfl⟩ := held
  exact ⟨upper, held, by rw [Sidechain.holdings_matured, Int.add_zero]⟩

end SidechainView

end Reorg
