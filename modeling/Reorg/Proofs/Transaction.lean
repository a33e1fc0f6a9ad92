/-
**What the identifier of a transaction commits to.**

The identifier is the digest of a text in which the version, the flag, the inputs, the outputs and
the intents stand one behind the other, with nothing between them. The text can be taken apart, so
the identifier commits to all that it shows. What it does not show are the ends of the fixed-size
byte strings in the intents.

* `Transaction.ShownAlike`: transactions that differ in such ends at most;
* `Transaction.preimage_eq_iff`: these are the transactions with the same text;
* `Transaction.commits_iff`: and they are those with the same identifier, and with the same
  identifiers of the sidechains that they create.
-/

import Reorg.Proofs.Sidechain.Described
import Reorg.Transaction

namespace Reorg

open Text (SharedField head?_record)

/-! ### Inputs and outputs -/

theorem OutPoint.legible : Legible (id : OutPoint → OutPoint) :=
  Legible.of_agreeIff (fun _ => ⟨'O', head?_record rfl, rfl⟩) fun ⟨txid, vout⟩ ⟨txid', vout'⟩ =>
    (SharedField.agreeIff_record "OutPoint"
      ⟨"txid", _, _, _, Digest.legible.agree txid txid'⟩
      [⟨"vout", _, _, _, Legible.nat.agree vout vout'⟩]).congr
      (by simp)

theorem Output.legible : Legible (id : Output → Output) :=
  Legible.of_agreeIff (fun _ => ⟨'T', head?_record rfl, rfl⟩) fun ⟨value, script⟩ ⟨value', script'⟩ =>
    (SharedField.agreeIff_record "TxOutput"
      ⟨"value", _, _, _, Legible.int.agree value value'⟩
      [⟨"script_pubkey", _, _, _, Legible.bytes.agree script script'⟩]).congr
      (by simp)

/-! ### Digests that tell apart -/

namespace Digest

/-- The digest tells two byte strings apart: they are not a collision. -/
def TellsApart (data data' : Bytes) : Prop :=
  hash data = hash data' → data = data'

theorem hash_eq_iff {data data' : Bytes} (apart : TellsApart data data') :
    hash data = hash data' ↔ data = data' :=
  ⟨apart, congrArg hash⟩

theorem hashText_eq_iff {text text' : String}
    (apart : TellsApart text.toUTF8.data.toList text'.toUTF8.data.toList) :
    hashText text = hashText text' ↔ text = text' := by
  rw [hashText, hashText, hash_eq_iff apart, Array.toList_inj, ← ByteArray.ext_iff, String.toUTF8,
    String.toUTF8, String.toByteArray_inj]

end Digest

/-- Words that fit are written in different ways. -/
theorem littleEndian_inj {width word word' : Nat} (fits : word < Nat.pow 256 width)
    (fits' : word' < Nat.pow 256 width)
    (same : littleEndian width word = littleEndian width word') : word = word' := by
  have words := congrArg ofLittleEndian same
  rwa [ofLittleEndian_littleEndian, ofLittleEndian_littleEndian, Nat.mod_eq_of_lt fits,
    Nat.mod_eq_of_lt fits'] at words

/-- The identifier of a created sidechain commits to the transaction and to the place. -/
theorem createdSidechainId_eq_iff {txid txid' : Digest} {index index' : Nat}
    (fits : index < UInt32.size) (fits' : index' < UInt32.size)
    (apart : Digest.TellsApart (txid.bytes ++ littleEndian 4 index)
      (txid'.bytes ++ littleEndian 4 index')) :
    createdSidechainId txid index = createdSidechainId txid' index' ↔
      txid = txid' ∧ index = index' := by
  have long : txid.bytes.length = txid'.bytes.length := by
    rw [txid.length_bytes, txid'.length_bytes]
  rw [createdSidechainId, createdSidechainId, Digest.hash_eq_iff apart]
  have size : UInt32.size = Nat.pow 256 4 := by decide
  constructor
  · intro same
    obtain ⟨txids, indices⟩ := List.append_inj same long
    exact ⟨Digest.ext_bytes txids, littleEndian_inj (size ▸ fits) (size ▸ fits') indices⟩
  · rintro ⟨rfl, rfl⟩
    rfl

namespace Transaction

/-- Transactions of which the text shows the same: they differ, if at all, in their identifiers and
in the ends of the fixed-size byte strings in their intents. -/
structure ShownAlike (tx tx' : Transaction) : Prop where
  version : tx.version = tx'.version
  coinbase : tx.coinbase = tx'.coinbase
  inputs : tx.inputs = tx'.inputs
  outputs : tx.outputs = tx'.outputs
  intents : tx.intents.map Intent.shown = tx'.intents.map Intent.shown

variable {tx tx' : Transaction}

theorem toList_preimage (tx : Transaction) : tx.preimage.toList =
    described tx.version ++ (described tx.coinbase ++ (described tx.inputs ++
      (described tx.outputs ++ described tx.intents))) := by
  simp only [preimage, String.toList_append, List.append_assoc]
  rfl

/-- **Transactions with the same text are those of which the text shows the same.** -/
theorem preimage_eq_iff : tx.preimage = tx'.preimage ↔ ShownAlike tx tx' := by
  have flags := agreeIff_bool tx.coinbase tx'.coinbase
  have inputs := OutPoint.legible.agreeIff_list tx.inputs tx'.inputs
  have outputs := Output.legible.agreeIff_list tx.outputs tx'.outputs
  have intents := Intent.legible.agreeIff_list tx.intents tx'.intents
  have breaks : ∀ flag : Bool, Breaks Text.isNumeral (described flag) := by
    rintro (_ | _)
    · exact ⟨'f', rfl, rfl⟩
    · exact ⟨'t', rfl, rfl⟩
  -- The version has nothing behind it to end it but the flag, which begins with a letter.
  have texts := (Legible.version.agree tx.version tx'.version).append
    (flags.append (inputs.append (outputs.append intents))) (breaks _).append (breaks _).append
  rw [← String.toList_inj, toList_preimage, toList_preimage, texts.eq_iff]
  simp only [List.map_id, id]
  exact ⟨fun ⟨version, coinbase, inputs, outputs, intents⟩ =>
    ⟨version, coinbase, inputs, outputs, intents⟩,
    fun alike => ⟨alike.version, alike.coinbase, alike.inputs, alike.outputs, alike.intents⟩⟩

/-- A transaction as it is made: a transfer, or one with intents put into it. -/
inductive Built : Transaction → Prop
  | transfer (version : Int32) (inputs : List OutPoint) (outputs : List Output) :
    Built (Transaction.transfer version inputs outputs)
  | withIntents (version : Int32) (inputs : List OutPoint) (outputs : List Output)
      (intents : List Intent) :
    Built ((Transaction.transfer version inputs outputs).withIntents intents)

theorem txid_identified (tx : Transaction) :
    (identified tx).txid = Digest.hashText (identified tx).preimage := by
  have text : (identified tx).preimage = tx.preimage := rfl
  rw [text]
  rfl

theorem Built.txid_eq (built : Built tx) : tx.txid = Digest.hashText tx.preimage := by
  cases built with
  | transfer => exact txid_identified _
  | withIntents => exact txid_identified _

/-- **An identifier commits to what the text shows.** Transactions have the same text exactly when it
shows the same of them. Unless two texts have the same digest, this is also when they have the same
identifier, and when the sidechains that they create at one place have the same identifier. -/
theorem commits_iff (built : Built tx) (built' : Built tx') :
    (tx.preimage = tx'.preimage ↔ ShownAlike tx tx') ∧
    (Digest.TellsApart tx.preimage.toUTF8.data.toList tx'.preimage.toUTF8.data.toList →
      (tx.txid = tx'.txid ↔ ShownAlike tx tx') ∧
      ∀ index < UInt32.size, ∀ index' < UInt32.size,
        Digest.TellsApart (tx.txid.bytes ++ littleEndian 4 index)
          (tx'.txid.bytes ++ littleEndian 4 index') →
        (createdSidechainId tx.txid index = createdSidechainId tx'.txid index' ↔
          ShownAlike tx tx' ∧ index = index')) := by
  refine ⟨preimage_eq_iff, fun apart => ?_⟩
  have identifiers : tx.txid = tx'.txid ↔ ShownAlike tx tx' := by
    rw [built.txid_eq, built'.txid_eq, Digest.hashText_eq_iff apart, preimage_eq_iff]
  refine ⟨identifiers, fun index fits index' fits' apartIds => ?_⟩
  rw [createdSidechainId_eq_iff fits fits' apartIds, identifiers]

/-- A key that begins with eight bytes of one value, with bytes of another value behind them. -/
def keyOf (start rest : UInt8) : VerifyingKey where
  bytes := List.replicate 8 start ++ List.replicate 1536 rest
  length_bytes := by
    rw [List.length_append, List.length_replicate, List.length_replicate]
    rfl

/-- The transaction that creates a sidechain with a key and sends it fifty. -/
def founding (key : VerifyingKey) : Transaction :=
  (transfer 1 [] [⟨5, []⟩]).withIntents
    [.creation .zero 50 { CreationParams.null with epochLength := 10, certificateKey := key }]

/-- Keys that begin differently: the identifiers are different, as are those of the sidechains. -/
theorem commits_iff_founding :
    Built (founding (keyOf 7 1)) ∧ Built (founding (keyOf 8 1)) ∧
    (founding (keyOf 7 1)).preimage ≠ (founding (keyOf 8 1)).preimage ∧
    (founding (keyOf 7 1)).txid ≠ (founding (keyOf 8 1)).txid ∧
    createdSidechainId (founding (keyOf 7 1)).txid 0 ≠
      createdSidechainId (founding (keyOf 8 1)).txid 0 := by
  have built : Built (founding (keyOf 7 1)) := .withIntents _ _ _ _
  have built' : Built (founding (keyOf 8 1)) := .withIntents _ _ _ _
  have ids : createdSidechainId (founding (keyOf 7 1)).txid 0 ≠
      createdSidechainId (founding (keyOf 8 1)).txid 0 := by decide +kernel
  have txids : (founding (keyOf 7 1)).txid ≠ (founding (keyOf 8 1)).txid :=
    fun same => ids (by rw [same])
  have texts : Digest.TellsApart (founding (keyOf 7 1)).preimage.toUTF8.data.toList
      (founding (keyOf 8 1)).preimage.toUTF8.data.toList := by
    intro same
    rw [built.txid_eq, built'.txid_eq] at txids
    exact absurd same txids
  have places : Digest.TellsApart ((founding (keyOf 7 1)).txid.bytes ++ littleEndian 4 0)
      ((founding (keyOf 8 1)).txid.bytes ++ littleEndian 4 0) :=
    fun same => absurd same ids
  have differ : ¬ ShownAlike (founding (keyOf 7 1)) (founding (keyOf 8 1)) :=
    fun alike => absurd alike.intents (by decide +kernel)
  obtain ⟨sameText, rest⟩ := commits_iff built built'
  obtain ⟨sameTxid, sameIds⟩ := rest texts
  refine ⟨built, built', mt sameText.mp differ, mt sameTxid.mp differ, fun same => differ ?_⟩
  exact ((sameIds 0 (by decide) 0 (by decide) places).mp same).1

/-- **Two transactions with one identifier**, which create sidechains with different keys under one
identifier: the keys differ behind their eighth bytes. -/
theorem founding_keys_share_txid :
    Built (founding (keyOf 7 1)) ∧ Built (founding (keyOf 7 2)) ∧
    (founding (keyOf 7 1)).preimage = (founding (keyOf 7 2)).preimage ∧
    (founding (keyOf 7 1)).txid = (founding (keyOf 7 2)).txid ∧
    createdSidechainId (founding (keyOf 7 1)).txid 0 =
      createdSidechainId (founding (keyOf 7 2)).txid 0 ∧
    (founding (keyOf 7 1)).intents ≠ (founding (keyOf 7 2)).intents := by
  have built : Built (founding (keyOf 7 1)) := .withIntents _ _ _ _
  have built' : Built (founding (keyOf 7 2)) := .withIntents _ _ _ _
  have text : (founding (keyOf 7 1)).preimage = (founding (keyOf 7 2)).preimage :=
    preimage_eq_iff.mpr ⟨rfl, rfl, rfl, rfl, by decide +kernel⟩
  have txid : (founding (keyOf 7 1)).txid = (founding (keyOf 7 2)).txid := by
    rw [built.txid_eq, built'.txid_eq, text]
  exact ⟨built, built', text, txid, by rw [txid], by decide +kernel⟩

end Transaction

end Reorg
