/-
**What the identifiers of certificates and blocks commit to.**

Both are digests of texts in which digests and numbers stand one behind the other with nothing
between them. Digests have a fixed length, and a block has only one number, so a block's text tells
the block but for where its transactions end and its certificates begin. A certificate has two
numbers in a row, and digits may be taken for the one or the other. So a certificate can have the
identifier of another one of the same sidechain, and a block that of another block.

* `Certificate.ShownAlike`, `Certificate.text_eq_iff`: the certificates with the same text;
* `Proposal.text_eq_iff`: the blocks with the same text, whatever the identifiers in them are;
* `Proposal.Comparable.ids_eq_iff`: what the identifiers tell when they are digests of content and
  no two of the texts collide;
* `Proposal.identifies_iff`: what the identifiers of certificates and the hashes of blocks tell.
-/

import Reorg.Proofs.Ledger.Run
import Reorg.Proofs.Text.Decimal
import Reorg.Proofs.Transaction

namespace Reorg

open Decimal (Shifted)

/-! ### Lists -/

/-- Rows of two lists are equal when the lists are, unless what is in the first part of the one is
in the second part of the other. -/
theorem append_eq_append_iff_of_apart {α : Type} {front back front' back' : List α}
    (apart : ∀ item ∈ front, item ∉ back') (apart' : ∀ item ∈ front', item ∉ back) :
    front ++ back = front' ++ back' ↔ front = front' ∧ back = back' := by
  constructor
  · rw [List.append_eq_append_iff]
    rintro (⟨between, rfl, rfl⟩ | ⟨between, rfl, rfl⟩) <;> rcases between with _ | ⟨item, others⟩
    · exact ⟨(List.append_nil _).symm, rfl⟩
    · exact absurd List.mem_cons_self (apart' item (List.mem_append_right _ List.mem_cons_self))
    · exact ⟨List.append_nil _, rfl⟩
    · exact absurd List.mem_cons_self (apart item (List.mem_append_right _ List.mem_cons_self))
  · rintro ⟨rfl, rfl⟩
    rfl

/-- Two lists have the same images when their entries have, one by one. -/
theorem map_eq_map_iff_forall₂ {α β : Type} {image : α → β} {alike : α → α → Prop}
    {items items' : List α}
    (each : ∀ item ∈ items, ∀ item' ∈ items', image item = image item' ↔ alike item item') :
    items.map image = items'.map image ↔ List.Forall₂ alike items items' := by
  induction items generalizing items' with
  | nil => cases items' <;> simp
  | cons item items ih =>
    cases items' with
    | nil => simp
    | cons item' items' =>
      have rest := ih fun other member other' member' =>
        each other (List.mem_cons_of_mem _ member) other' (List.mem_cons_of_mem _ member')
      rw [List.map_cons, List.map_cons, List.cons_eq_cons, List.forall₂_cons, rest,
        each item List.mem_cons_self item' List.mem_cons_self]

theorem Hex.bracket_not_mem_pair (byte : UInt8) : '[' ∉ pair byte := by
  have digits : ∀ value < 16, digit value ≠ '[' := by decide
  have bound := byte.toNat_lt
  rw [pair, List.mem_cons, List.mem_singleton, not_or]
  exact ⟨(digits _ (by omega)).symm, (digits _ (by omega)).symm⟩

/-- Two texts are no collision. -/
def Digest.TellsTexts (text text' : String) : Prop :=
  TellsApart text.toUTF8.data.toList text'.toUTF8.data.toList

/-! ### Certificates -/

namespace Certificate

variable {certificate certificate' : Certificate}

/-- The text that the identifier of a certificate commits to. -/
def text (certificate : Certificate) : String :=
  preimage certificate.sidechain certificate.epoch certificate.total

/-- Certificates of one sidechain with the same epoch and total, or with digits of the one's epoch
in front of the other's total. -/
structure ShownAlike (certificate certificate' : Certificate) : Prop where
  sidechain : certificate.sidechain = certificate'.sidechain
  numbers : certificate.epoch = certificate'.epoch ∧ certificate.total = certificate'.total ∨
    Shifted certificate.epoch certificate.total certificate'.epoch certificate'.total ∨
    Shifted certificate'.epoch certificate'.total certificate.epoch certificate.total

theorem toList_text (certificate : Certificate) : certificate.text.toList =
    certificate.sidechain.toHex.toList ++
      (described certificate.epoch ++ described certificate.total) := by
  simp only [text, preimage, String.toList_append, List.append_assoc]
  rfl

/-- **Certificates with the same text** are of one sidechain, and their numbers are the same row. -/
theorem text_eq_iff :
    certificate.text = certificate'.text ↔ ShownAlike certificate certificate' := by
  rw [← String.toList_inj, toList_text, toList_text,
    certificate.sidechain.agreeIff_toHex certificate'.sidechain, Decimal.row_eq_iff]
  exact ⟨fun ⟨sidechain, numbers⟩ => ⟨sidechain, numbers⟩,
    fun alike => ⟨alike.sidechain, alike.numbers⟩⟩

/-- The identifier is the one that the content gives. -/
def Identified (certificate : Certificate) : Prop :=
  certificate.id = Digest.hashText certificate.text

theorem id_eq_iff (identified : certificate.Identified) (identified' : certificate'.Identified)
    (apart : Digest.TellsTexts certificate.text certificate'.text) :
    certificate.id = certificate'.id ↔ ShownAlike certificate certificate' := by
  rw [identified, identified', Digest.hashText_eq_iff apart, text_eq_iff]

/-- The text of a certificate has digits and signs only. -/
theorem bracket_not_mem_text : '[' ∉ certificate.text.toList := by
  have digits : '[' ∉ certificate.sidechain.toHex.toList := by
    rw [Digest.toHex, Hex.encode, String.toList_ofList]
    intro member
    obtain ⟨byte, -, digit⟩ := List.mem_flatMap.mp member
    exact Hex.bracket_not_mem_pair byte digit
  have numbers : ∀ number : Int, '[' ∉ described number := fun number member =>
    absurd (Legible.isNumeral_of_mem_described member) (by decide)
  rw [toList_text, List.mem_append, List.mem_append, not_or, not_or]
  exact ⟨digits, numbers _, numbers _⟩

end Certificate

/-! ### Transactions -/

/-- The text that the identifier of a transaction was made from: it describes the content, or it is
that of the reward of a height. -/
inductive Transaction.MadeFrom : Transaction → String → Prop
  | content {tx : Transaction} (named : tx.txid = tx.contentId) : MadeFrom tx tx.preimage
  | reward (height : Nat) (outputs : List Output) :
    MadeFrom (reward height outputs) ("coinbase" ++ describe height ++ describe outputs)

namespace Transaction

variable {tx : Transaction} {text : String} {certificate : Certificate}

theorem MadeFrom.txid_eq (made : MadeFrom tx text) : tx.txid = Digest.hashText text := by
  cases made with
  | content named => exact named
  | reward => rfl

/-- Such a text has a list in it. -/
theorem MadeFrom.bracket_mem (made : MadeFrom tx text) : '[' ∈ text.toList := by
  have opens : ∀ {α : Type} [Described α] (values : List α), '[' ∈ described values := by
    intro α _ values
    rw [Legible.described_list]
    exact List.mem_append_left _ (List.mem_append_left _ List.mem_cons_self)
  cases made with
  | content =>
    have inputs := List.mem_append_left (described tx.outputs ++ described tx.intents)
      (opens tx.inputs)
    rw [toList_preimage]
    exact List.mem_append_right _ (List.mem_append_right _ inputs)
  | reward height outputs =>
    rw [String.toList_append]
    exact List.mem_append_right _ (opens outputs)

/-- **No transaction has the identifier of a certificate**, unless their texts collide. -/
theorem MadeFrom.txid_ne (made : MadeFrom tx text) (identified : certificate.Identified)
    (apart : Digest.TellsTexts text certificate.text) : tx.txid ≠ certificate.id := by
  rw [made.txid_eq, identified, Ne, Digest.hashText_eq_iff apart]
  rintro rfl
  exact Certificate.bracket_not_mem_text made.bracket_mem

/-- Transactions are made from texts that do not collide with those of certificates. -/
def MadeApart (transactions : List Transaction) (certificates : List Certificate) : Prop :=
  ∀ tx ∈ transactions, ∀ certificate ∈ certificates,
    ∃ text, tx.MadeFrom text ∧ Digest.TellsTexts text certificate.text

theorem MadeApart.txid_not_mem {transactions : List Transaction} {certificates : List Certificate}
    (apart : MadeApart transactions certificates)
    (identified : ∀ certificate ∈ certificates, certificate.Identified) :
    ∀ txid ∈ transactions.map Transaction.txid, txid ∉ certificates.map Certificate.id := by
  intro txid member member'
  obtain ⟨tx, inside, rfl⟩ := List.mem_map.mp member
  obtain ⟨certificate, inside', same⟩ := List.mem_map.mp member'
  obtain ⟨text, made, differ⟩ := apart tx inside certificate inside'
  exact made.txid_ne (identified certificate inside') differ same.symm

end Transaction

/-! ### Blocks -/

namespace Proposal

variable {first second : Proposal}

/-- The identifiers of the transactions of a proposal. -/
def txids (proposal : Proposal) : List Digest := proposal.transactions.map Transaction.txid

/-- The identifiers of the certificates of a proposal. -/
def certificateIds (proposal : Proposal) : List Digest := proposal.certificates.map Certificate.id

/-- **Blocks with the same text** have all but one thing in common: the text does not say how many
of the identifiers at its end are those of transactions. -/
theorem text_eq_iff (fits : first.height < UInt32.size) (fits' : second.height < UInt32.size) :
    first.text = second.text ↔ first.parent = second.parent ∧ first.height = second.height ∧
      first.root = second.root ∧
      first.txids ++ first.certificateIds = second.txids ++ second.certificateIds := by
  constructor
  · intro same
    have heights := Block.height_eq_of_preimage_eq fits fits' same
    have characters := congrArg String.toList same
    rw [text, text, Block.toList_preimage, Block.toList_preimage,
      first.parent.agreeIff_toHex second.parent, heights, List.append_cancel_left_eq] at characters
    obtain ⟨parents, behind⟩ := characters
    have long := congrArg List.length behind
    rw [Block.length_flatMap_toHex, Block.length_flatMap_toHex] at long
    have digests := (AgreeIff.flatMap_eq (Nat.eq_of_mul_eq_mul_left (by decide) long)
      fun digest _ digest' _ => digest.agreeIff_toHex digest').eq_iff.mp behind
    obtain ⟨roots, ids⟩ := List.cons_eq_cons.mp digests
    exact ⟨parents, heights, roots, ids⟩
  · rintro ⟨parents, heights, roots, ids⟩
    have digests : Block.digests first.transactions first.certificates first.root =
        Block.digests second.transactions second.certificates second.root :=
      List.cons_eq_cons.mpr ⟨roots, ids⟩
    rw [← String.toList_inj, text, text, Block.toList_preimage, Block.toList_preimage, parents,
      heights, digests]

/-- Blocks that are no collision have the same hash when they have the same text. -/
theorem hash_eq_iff (fits : first.height < UInt32.size) (fits' : second.height < UInt32.size)
    (apart : Digest.TellsTexts first.text second.text) :
    first.block.hash = second.block.hash ↔ first.parent = second.parent ∧
      first.height = second.height ∧ first.root = second.root ∧
      first.txids ++ first.certificateIds = second.txids ++ second.certificateIds := by
  rw [← text_eq_iff fits fits']
  exact Digest.hashText_eq_iff apart

/-- What is asked of two blocks: the identifiers in them are digests of content, and no text of the
one collides with a text of the other. -/
structure Comparable (first second : Proposal) : Prop where
  identified : ∀ certificate ∈ first.certificates, certificate.Identified
  identified' : ∀ certificate ∈ second.certificates, certificate.Identified
  certificates : ∀ certificate ∈ first.certificates, ∀ certificate' ∈ second.certificates,
    Digest.TellsTexts certificate.text certificate'.text
  transactions : Transaction.MadeApart first.transactions second.certificates
  transactions' : Transaction.MadeApart second.transactions first.certificates

/-- **What the identifiers in a row tell** when they are digests of content: the transactions, and
the certificates but for digits that moved. -/
theorem Comparable.ids_eq_iff (comparable : Comparable first second) :
    first.txids ++ first.certificateIds = second.txids ++ second.certificateIds ↔
      first.txids = second.txids ∧
        List.Forall₂ Certificate.ShownAlike first.certificates second.certificates := by
  have alike : first.certificateIds = second.certificateIds ↔
      List.Forall₂ Certificate.ShownAlike first.certificates second.certificates :=
    map_eq_map_iff_forall₂ fun certificate member certificate' member' =>
      Certificate.id_eq_iff (comparable.identified certificate member)
        (comparable.identified' certificate' member')
        (comparable.certificates certificate member certificate' member')
  have unmixed := append_eq_append_iff_of_apart
    (comparable.transactions.txid_not_mem comparable.identified')
    (comparable.transactions'.txid_not_mem comparable.identified)
  exact unmixed.trans (and_congr_right' alike)

/-- **What the identifiers of certificates and blocks tell.** Certificates have the same text when
they are of one sidechain and their numbers are the same but for digits that moved from the epoch to
the total. Blocks that are no collision have the same hash when parent, height and root are the same
and the same identifiers stand in a row in them. If these are digests of content, then the
transactions have the same identifiers, and the certificates, one by one, the same text. -/
theorem identifies_iff (fits : first.height < UInt32.size) (fits' : second.height < UInt32.size)
    (apart : Digest.TellsTexts first.text second.text) :
    (∀ certificate certificate' : Certificate,
      certificate.text = certificate'.text ↔ certificate.ShownAlike certificate') ∧
    (first.block.hash = second.block.hash ↔
      first.parent = second.parent ∧ first.height = second.height ∧ first.root = second.root ∧
        first.txids ++ first.certificateIds = second.txids ++ second.certificateIds) ∧
    (Comparable first second →
      (first.block.hash = second.block.hash ↔
        first.parent = second.parent ∧ first.height = second.height ∧ first.root = second.root ∧
          first.txids = second.txids ∧
          List.Forall₂ Certificate.ShownAlike first.certificates second.certificates)) := by
  refine ⟨fun _ _ => Certificate.text_eq_iff, hash_eq_iff fits fits' apart, fun comparable => ?_⟩
  rw [hash_eq_iff fits fits' apart, comparable.ids_eq_iff]

/-- A block with a reward and a certificate. -/
def ending (epoch : Epoch) (total : Amount) : Proposal :=
  ⟨.zero, 3, [.reward 3 []], [.create .zero epoch total], .zero⟩

/-- The digit that is moved is the first of the total. -/
theorem shownAlike_moved :
    (Certificate.create .zero 1 23).ShownAlike (Certificate.create .zero 12 3) :=
  ⟨rfl, .inr (.inl ⟨2, 3, by decide, by decide, by decide, by decide, rfl⟩)⟩

theorem id_moved : (Certificate.create .zero 1 23).id = (Certificate.create .zero 12 3).id := by
  have texts := Certificate.text_eq_iff.mpr shownAlike_moved
  exact congrArg Digest.hashText texts

theorem text_ending : (ending 1 23).text = (ending 12 3).text := by
  have fits : 3 < UInt32.size := by decide
  refine (text_eq_iff fits fits).mpr ⟨rfl, rfl, rfl, ?_⟩
  show [(Transaction.reward 3 []).txid, (Certificate.create .zero 1 23).id] =
    [(Transaction.reward 3 []).txid, (Certificate.create .zero 12 3).id]
  rw [id_moved]

theorem identifies_iff_ending :
    (Comparable (ending 1 23) (ending 12 3) ∧
      Digest.TellsTexts (ending 1 23).text (ending 12 3).text) ∧
    (ending 1 23).block.hash = (ending 12 3).block.hash ∧
    ¬ (Certificate.create .zero 1 23).ShownAlike (Certificate.create .zero 2 23) := by
  have tells : ∀ {text text' : String}, text = text' → Digest.TellsTexts text text' :=
    fun same _ => by rw [same]
  have fits : 3 < UInt32.size := by decide
  obtain ⟨certificates, -, content⟩ := identifies_iff fits fits (tells text_ending)
  have texts := (certificates _ _).mpr shownAlike_moved
  have differ : Digest.TellsTexts ("coinbase" ++ describe 3 ++ describe ([] : List Output))
      (Certificate.create .zero 1 23).text := fun same => absurd same (by decide +kernel)
  have rewards : ∀ certificate : Certificate, (Certificate.create .zero 1 23).text =
      certificate.text → Transaction.MadeApart [.reward 3 []] [certificate] := fun _ same =>
    List.forall_mem_singleton.mpr (List.forall_mem_singleton.mpr
      ⟨_, .reward 3 [], same ▸ differ⟩)
  have comparable : Comparable (ending 1 23) (ending 12 3) :=
    { identified := List.forall_mem_singleton.mpr rfl
      identified' := List.forall_mem_singleton.mpr rfl
      certificates := List.forall_mem_singleton.mpr (List.forall_mem_singleton.mpr (tells texts))
      transactions := rewards _ texts
      transactions' := rewards _ rfl }
  refine ⟨⟨comparable, tells text_ending⟩, ?_, fun other => ?_⟩
  · exact (content comparable).mpr ⟨rfl, rfl, rfl, rfl, .cons shownAlike_moved .nil⟩
  · exact absurd ((certificates _ _).mpr other) (by decide +kernel)

/-- **Two blocks with one hash**, and certificates with one identifier, of which the epochs and the
totals are different: the texts are the same, with a digit moved from the total to the epoch. -/
theorem moved_digit_shares_hash :
    (Certificate.create .zero 1 23).text = (Certificate.create .zero 12 3).text ∧
    (Certificate.create .zero 1 23).id = (Certificate.create .zero 12 3).id ∧
    (ending 1 23).text = (ending 12 3).text ∧
    (ending 1 23).block.hash = (ending 12 3).block.hash ∧
    (ending 1 23).certificates.map Certificate.epoch ≠
      (ending 12 3).certificates.map Certificate.epoch ∧
    (ending 1 23).certificates.map Certificate.total ≠
      (ending 12 3).certificates.map Certificate.total := by
  have hashes : (ending 1 23).block.hash = (ending 12 3).block.hash :=
    congrArg Digest.hashText text_ending
  exact ⟨Certificate.text_eq_iff.mpr shownAlike_moved, id_moved, text_ending, hashes, by decide,
    by decide⟩

end Proposal

end Reorg
