/-
**What the text of an intent tells.**

The described form of an intent has every field of it. All but the fixed-size byte strings are
written in full; of those there are the first eight bytes, and so the text tells an intent up to the
bytes behind.

* `Blob.shown`, `CreationParams.shown`, `RequestParams.shown`, `Intent.shown`: what the text shows;
* `Intent.legible`: intents with the same text are intents of which the same is shown.
-/

import Reorg.Proofs.Text.Described
import Reorg.Proofs.Text.Digits
import Reorg.Sidechain.Intent

namespace Reorg

open Text (SharedField agreeIff_tagged head?_tagged head?_record)

/-! ### Values written in full -/

theorem Legible.bytes : Legible (id : Bytes → Bytes) :=
  Legible.byte.list.congr fun bytes bytes' => by rw [List.map_id, List.map_id, id, id]

theorem Digest.legible : Legible (id : Digest → Digest) := by
  refine Legible.of_agreeIff (fun _ => ⟨'H', head?_tagged rfl, rfl⟩) fun digest digest' => ?_
  have digits : AgreeBefore Text.isNumeral digest.toHex.toList digest'.toHex.toList
      (digest = digest') := (digest.agreeIff_toHex digest').before
  exact agreeIff_tagged "Hash256" rfl digits

namespace Constant

theorem bytes_injective : Function.Injective bytes := by
  rintro ⟨_ | element⟩ ⟨_ | element'⟩ same
  · rfl
  · exact absurd (congrArg List.length same) (by simp [bytes, element'.length_bytes, BlobKind.size])
  · exact absurd (congrArg List.length same) (by simp [bytes, element.length_bytes, BlobKind.size])
  · cases element
    cases element'
    cases same
    rfl

theorem legible : Legible (id : Constant → Constant) :=
  Legible.of_agreeIff (fun _ => ⟨'S', head?_tagged rfl, rfl⟩) fun _ _ =>
    (agreeIff_tagged "ScConstant" rfl (Legible.bytes.agree _ _)).congr bytes_injective.eq_iff

end Constant

namespace Address

theorem ext_bytes {address address' : Address} (same : address.bytes = address'.bytes) :
    address = address' := by
  cases address; cases address'; cases same; rfl

/-- The checksum is written behind the address, so the text tells the address whatever the checksum
is. -/
theorem text_injective : Function.Injective text := by
  intro address address' same
  have long : (version ++ address.bytes).length = (version ++ address'.bytes).length := by
    rw [List.length_append, List.length_append, address.length_bytes, address'.length_bytes]
  have checked : ∀ content : Bytes,
      (content ++ (Digest.hash content).bytes.take 4).length = content.length + 4 := by
    intro content
    rw [List.length_append, List.length_take, (Digest.hash content).length_bytes]
    rfl
  have written := Base58.encode_inj (by rw [checked, checked, long]) same
  exact ext_bytes (List.append_cancel_left (List.append_inj written long).1)

theorem legible : Legible (id : Address → Address) := by
  refine Legible.of_agreeIff (fun _ => ⟨'M', head?_tagged rfl, rfl⟩) fun address address' => ?_
  have digits : AgreeBefore (· != ')') address.text.toList address'.text.toList _ :=
    AgreeBefore.of_runs (fun _ => Base58.ne_close_of_mem_encode) fun _ =>
      Base58.ne_close_of_mem_encode
  refine (agreeIff_tagged "McAddress" rfl digits).congr ?_
  rw [String.toList_inj]
  exact text_injective.eq_iff

end Address

/-! ### Fixed-size byte strings -/

theorem BlobKind.eight_le_size (kind : BlobKind) : 8 ≤ kind.size := by
  cases kind <;> decide

namespace Blob

variable {kind : BlobKind}

/-- What the text shows of a fixed-size byte string: its first eight bytes, here with zeros for the
others. -/
def shown (blob : Blob kind) : Blob kind where
  bytes := blob.bytes.take 8 ++ List.replicate (kind.size - 8) 0
  length_bytes := by
    have enough := kind.eight_le_size
    rw [List.length_append, List.length_take, blob.length_bytes, List.length_replicate]
    omega

theorem length_take_bytes (blob : Blob kind) : (blob.bytes.take 8).length = 8 := by
  rw [List.length_take, blob.length_bytes, Nat.min_eq_left kind.eight_le_size]

theorem shown_eq_iff {blob blob' : Blob kind} :
    blob.shown = blob'.shown ↔ blob.bytes.take 8 = blob'.bytes.take 8 := by
  constructor
  · intro same
    have long : (blob.bytes.take 8).length = (blob'.bytes.take 8).length := by
      rw [length_take_bytes, length_take_bytes]
    exact (List.append_inj (congrArg Blob.bytes same) long).1
  · intro same
    simp only [shown, same]

theorem legible : Legible (shown : Blob kind → Blob kind) := by
  refine Legible.of_agreeIff (fun blob => ?_) fun blob blob' => ?_
  · cases kind with
    | fieldElement => exact ⟨'F', head?_tagged rfl, rfl⟩
    | proof => exact ⟨'S', head?_tagged rfl, rfl⟩
    | verifyingKey => exact ⟨'V', head?_tagged rfl, rfl⟩
  · have digits := Hex.agreeIff_encodeChars
      (blob.length_take_bytes.trans blob'.length_take_bytes.symm)
    have content : AgreeBefore Text.isNumeral (Hex.encode (blob.bytes.take 8) ++ "..").toList
        (Hex.encode (blob'.bytes.take 8) ++ "..").toList (blob.shown = blob'.shown) := by
      simp only [Hex.encode, String.toList_append, String.toList_ofList]
      refine ((digits.append (AgreeIff.refl _)).congr ?_).before
      rw [shown_eq_iff, and_true]
    exact agreeIff_tagged kind.typeName rfl content

end Blob

/-! ### Parameters -/

namespace CreationParams

/-- What the text shows of parameters: all but the ends of the keys. -/
def shown (params : CreationParams) : CreationParams :=
  { params with
    certificateKey := params.certificateKey.shown
    requestKey := params.requestKey.map Blob.shown
    ceasedKey := params.ceasedKey.map Blob.shown }

theorem legible : Legible shown :=
  Legible.of_agreeIff (fun _ => ⟨'C', head?_record rfl, rfl⟩) fun params params' =>
    (SharedField.agreeIff_record "CreationParameters"
      ⟨"withdrawal_epoch_length", _, _, _,
        Legible.int.agree params.epochLength params'.epochLength⟩
      [⟨"custom_data", _, _, _, Legible.bytes.agree params.customData params'.customData⟩,
        ⟨"constant", _, _, _, Constant.legible.agree params.constant params'.constant⟩,
        ⟨"certificate_verification_key", _, _, _,
          Blob.legible.agree params.certificateKey params'.certificateKey⟩,
        ⟨"mbtr_verification_key", _, _, _,
          Blob.legible.option.agree params.requestKey params'.requestKey⟩,
        ⟨"ceased_sidechain_verification_key", _, _, _,
          Blob.legible.option.agree params.ceasedKey params'.ceasedKey⟩]).congr
      (by simp [shown])

end CreationParams

namespace RequestParams

/-- What the text shows of parameters: all but the ends of the field element and of the proof. -/
def shown (params : RequestParams) : RequestParams :=
  { params with utxoId := params.utxoId.shown, proof := params.proof.shown }

theorem legible : Legible shown :=
  Legible.of_agreeIff (fun _ => ⟨'B', head?_record rfl, rfl⟩) fun params params' =>
    (SharedField.agreeIff_record "BwtRequestParameters"
      ⟨"fee", _, _, _, Legible.int.agree params.fee params'.fee⟩
      [⟨"sidechain_utxo_id", _, _, _, Blob.legible.agree params.utxoId params'.utxoId⟩,
        ⟨"proof", _, _, _, Blob.legible.agree params.proof params'.proof⟩]).congr
      (by simp [shown])

end RequestParams

/-! ### Intents -/

namespace Intent

/-- What the text shows of an intent: all but the ends of the fixed-size byte strings. -/
def shown : Intent → Intent
  | .creation destination value params => .creation destination value params.shown
  | .forward destination value sidechain => .forward destination value sidechain
  | .withdrawal sidechain address params => .withdrawal sidechain address params.shown

/-- The letter that the text of an intent begins with. -/
def letter : Intent → Char
  | .creation _ _ _ => 'C'
  | .forward _ _ _ => 'F'
  | .withdrawal _ _ _ => 'W'

theorem head?_described (intent : Intent) : intent.letter ∈ (described intent).head? := by
  cases intent <;> exact head?_record rfl

/-- **The text of an intent tells what it shows of the intent.** -/
theorem legible : Legible shown := by
  refine Legible.of_agreeIff (fun intent => ?_) fun intent intent' => ?_
  · exact ⟨intent.letter, intent.head?_described, by cases intent <;> rfl⟩
  have apart : intent.letter ≠ intent'.letter →
      AgreeIff (described intent) (described intent') False :=
    AgreeIff.of_head?_ne intent.head?_described intent'.head?_described
  match intent, intent' with
  | .creation destination value params, .creation destination' value' params' =>
    exact (SharedField.agreeIff_record "Creation"
      ⟨"destination", _, _, _, Digest.legible.agree destination destination'⟩
      [⟨"value", _, _, _, Legible.int.agree value value'⟩,
        ⟨"params", _, _, _, CreationParams.legible.agree params params'⟩]).congr
      (by simp [shown])
  | .forward destination value sidechain, .forward destination' value' sidechain' =>
    exact (SharedField.agreeIff_record "ForwardTransfer"
      ⟨"destination", _, _, _, Digest.legible.agree destination destination'⟩
      [⟨"value", _, _, _, Legible.int.agree value value'⟩,
        ⟨"sidechain_id", _, _, _, Digest.legible.agree sidechain sidechain'⟩]).congr
      (by simp [shown])
  | .withdrawal sidechain address params, .withdrawal sidechain' address' params' =>
    exact (SharedField.agreeIff_record "WithdrawalRequest"
      ⟨"sidechain_id", _, _, _, Digest.legible.agree sidechain sidechain'⟩
      [⟨"mc_destination", _, _, _, Address.legible.agree address address'⟩,
        ⟨"params", _, _, _, RequestParams.legible.agree params params'⟩]).congr
      (by simp [shown])
  | .creation _ _ _, .forward _ _ _ | .creation _ _ _, .withdrawal _ _ _
  | .forward _ _ _, .creation _ _ _ | .forward _ _ _, .withdrawal _ _ _
  | .withdrawal _ _ _, .creation _ _ _ | .withdrawal _ _ _, .forward _ _ _ =>
    exact (apart (by simp [letter])).congr (by simp [shown])

end Intent

end Reorg
