/-
**Digits of byte strings.**

The hexadecimal form has two digits for each byte. The base 58 form has the digits of one number;
the characters in front that stand for leading zeros do not change the number, so the form and the
length of a byte string tell the byte string.

* `Hex.agreeIff_encodeChars`, `Base58.encode_inj`: the forms tell byte strings of one length.
-/

import Mathlib.Data.List.GetD
import Mathlib.Data.Nat.Digits.Lemmas
import Reorg.Hash.Digest
import Reorg.Proofs.Agreement
import Reorg.Sidechain.Blob

namespace Reorg

/-! ### Hexadecimal digits -/

namespace Hex

theorem digit_inj : ∀ value < 16, ∀ value' < 16, digit value = digit value' → value = value' := by
  decide

/-- The two digits of a byte. -/
def pair (byte : UInt8) : List Char := [digit (byte.toNat / 16), digit (byte.toNat % 16)]

theorem pair_injective : Function.Injective pair := by
  intro byte byte' same
  obtain ⟨high, low⟩ := List.cons_eq_cons.mp same
  have bound := byte.toNat_lt
  have bound' := byte'.toNat_lt
  have highs := digit_inj _ (by omega) _ (by omega) high
  have lows := digit_inj _ (by omega) _ (by omega) (List.cons_eq_cons.mp low).1
  exact UInt8.toNat_inj.mp (by omega)

/-- The hexadecimal form tells byte strings of one length. -/
theorem agreeIff_encodeChars {bytes bytes' : Bytes} (long : bytes.length = bytes'.length) :
    AgreeIff (encodeChars bytes) (encodeChars bytes') (bytes = bytes') := by
  have each : ∀ byte byte', AgreeIff (pair byte) (pair byte') (byte = byte') := by
    intro byte byte'
    have long : (pair byte).length = (pair byte').length := rfl
    exact (AgreeIff.of_length long).congr pair_injective.eq_iff
  exact AgreeIff.flatMap_eq long fun byte _ byte' _ => each byte byte'

end Hex

theorem Digest.agreeIff_toHex (digest digest' : Digest) :
    AgreeIff digest.toHex.toList digest'.toHex.toList (digest = digest') := by
  rw [toHex, toHex, Hex.encode, Hex.encode, String.toList_ofList, String.toList_ofList]
  refine (Hex.agreeIff_encodeChars ?_).congr ?_
  · rw [List.length_reverse, List.length_reverse, digest.length_bytes, digest'.length_bytes]
  · rw [List.reverse_inj]
    exact ⟨Digest.ext_bytes, congrArg Digest.bytes⟩

/-! ### Base 58 -/

/-- The number whose digits to the base 256 are the bytes, highest first. -/
theorem ofBigEndian_eq_ofDigits (bytes : Bytes) :
    ofBigEndian bytes = Nat.ofDigits 256 (bytes.reverse.map UInt8.toNat) := by
  rw [Nat.ofDigits_eq_foldr, List.foldr_map, List.foldr_reverse, ofBigEndian]
  congr 1
  funext word byte
  exact Nat.add_comm _ _

/-- Byte strings of one length that stand for the same number are equal. -/
theorem ofBigEndian_inj {bytes bytes' : Bytes} (long : bytes.length = bytes'.length)
    (same : ofBigEndian bytes = ofBigEndian bytes') : bytes = bytes' := by
  rw [ofBigEndian_eq_ofDigits, ofBigEndian_eq_ofDigits] at same
  have small : ∀ bytes : Bytes, ∀ digit ∈ bytes.reverse.map UInt8.toNat, digit < 256 := by
    intro bytes digit member
    obtain ⟨byte, -, rfl⟩ := List.mem_map.mp member
    exact byte.toNat_lt
  have digits := Nat.ofDigits_inj_of_len_eq (by decide) (by simp [long]) (small _) (small _) same
  exact List.reverse_inj.mp (List.map_injective_iff.mpr (fun _ _ => UInt8.toNat_inj.mp) digits)

namespace Base58

/-- The digit of a value below fifty-eight. -/
def digit (value : Nat) : Char := alphabet.getD value '1'

theorem idxOf_digit : ∀ value < 58, alphabet.idxOf (digit value) = value := by
  decide

theorem digitsBefore_eq (value : Nat) (behind : List Char) :
    digitsBefore value behind = (Nat.digits 58 value).reverse.map digit ++ behind := by
  induction value, behind using digitsBefore.induct with
  | case1 behind => rw [digitsBefore, if_pos rfl]; rfl
  | case2 value behind nonzero ih =>
    rw [digitsBefore, if_neg nonzero, ih, Nat.digits_def' (by decide) (Nat.pos_of_ne_zero nonzero),
      List.reverse_cons, List.map_append, List.append_assoc]
    rfl

/-- The base 58 form of a byte string has the digits of its number, with zeros in front. -/
theorem toList_encode (bytes : Bytes) : ∃ zeros,
    (encode bytes).toList =
      (Nat.digits 58 (ofBigEndian bytes) ++ List.replicate zeros 0).reverse.map digit := by
  refine ⟨(bytes.takeWhile (· == 0)).length, ?_⟩
  rw [encode, String.toList_ofList, digitsBefore_eq, List.append_nil, List.reverse_append,
    List.map_append, List.reverse_replicate, List.map_replicate, List.map_const']
  rfl

/-- The base 58 form tells the number. -/
theorem ofDigits_encode (bytes : Bytes) :
    Nat.ofDigits 58 ((encode bytes).toList.map alphabet.idxOf).reverse = ofBigEndian bytes := by
  obtain ⟨zeros, written⟩ := toList_encode bytes
  have small : ∀ value ∈ Nat.digits 58 (ofBigEndian bytes) ++ List.replicate zeros 0, value < 58 := by
    intro value member
    rcases List.mem_append.mp member with member | member
    · exact Nat.digits_lt_base (by decide) member
    · exact List.eq_of_mem_replicate member ▸ by decide
  have read : ∀ value ∈ Nat.digits 58 (ofBigEndian bytes) ++ List.replicate zeros 0,
      (alphabet.idxOf ∘ digit) value = id value :=
    fun value member => idxOf_digit value (small value member)
  rw [written, List.map_map, List.map_reverse, List.reverse_reverse, List.map_congr_left read,
    List.map_id, Nat.ofDigits_append, Nat.ofDigits_replicate_zero, Nat.mul_zero, Nat.add_zero,
    Nat.ofDigits_digits]

/-- **The base 58 form tells byte strings of one length.** -/
theorem encode_inj {bytes bytes' : Bytes} (long : bytes.length = bytes'.length)
    (same : encode bytes = encode bytes') : bytes = bytes' :=
  ofBigEndian_inj long (by rw [← ofDigits_encode, ← ofDigits_encode, same])

theorem digit_ne_close (value : Nat) : (digit value != ')') = true := by
  by_cases small : value < 58
  · revert value
    decide
  · rw [digit, List.getD_eq_default _ _ (Nat.le_of_not_lt small)]
    rfl

/-- A base 58 form has no closing parenthesis. -/
theorem ne_close_of_mem_encode {bytes : Bytes} {character : Char}
    (member : character ∈ (encode bytes).toList) : (character != ')') = true := by
  obtain ⟨zeros, written⟩ := toList_encode bytes
  rw [written] at member
  obtain ⟨value, -, rfl⟩ := List.mem_map.mp member
  exact digit_ne_close value

end Base58

end Reorg
