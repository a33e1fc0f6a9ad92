/-
**The text that the hash of a block commits to.**

The text is the parent, the height and the root, then the identifiers of all transactions and
certificates, with nothing between them. All but the height have sixty-four digits, and a height
that fits its word has at most ten; so the length of the text tells how many digits the height has,
and with that the text tells the height.

* `Block.height_eq_of_preimage_eq`: blocks with the same text have the same height.
-/

import Reorg.Block

namespace Reorg

theorem Digest.length_toHex (digest : Digest) : digest.toHex.toList.length = 64 := by
  have pairs : ∀ bytes : Bytes, (Hex.encodeChars bytes).length = 2 * bytes.length := by
    intro bytes
    induction bytes with
    | nil => rfl
    | cons byte bytes ih =>
      show (Hex.digit _ :: Hex.digit _ :: Hex.encodeChars bytes).length = _
      rw [List.length_cons, List.length_cons, ih, List.length_cons]
      omega
  rw [toHex, Hex.encode, String.toList_ofList, pairs, List.length_reverse, length_bytes]

/-- The digest whose bytes are all the same. -/
def Digest.filled (byte : UInt8) : Digest := ⟨List.replicate 32 byte, List.length_replicate⟩

namespace Block

/-- The digests behind the height in the text of a block, in a row. -/
def digests (transactions : List Transaction) (certificates : List Certificate) (root : Digest) :
    List Digest :=
  root :: transactions.map Transaction.txid ++ certificates.map Certificate.id

theorem length_flatMap_toHex (digests : List Digest) :
    (digests.flatMap fun digest => digest.toHex.toList).length = 64 * digests.length := by
  induction digests with
  | nil => rfl
  | cons digest digests ih =>
    rw [List.flatMap_cons, List.length_append, digest.length_toHex, ih, List.length_cons]
    omega

/-- The characters of the text of a block. -/
theorem toList_preimage {parent root : Digest} {height : Nat} {transactions : List Transaction}
    {certificates : List Certificate} :
    (preimage parent height transactions certificates root).toList =
      parent.toHex.toList ++ (Nat.toDigits 10 height ++
        (digests transactions certificates root).flatMap fun digest => digest.toHex.toList) := by
  have number : (describe height).toList = Nat.toDigits 10 height := by
    show (toString height).toList = _
    rw [Nat.toString_eq_ofList_toDigits, String.toList_ofList]
  simp only [preimage, digests, String.toList_append, String.toList_join, number,
    List.flatMap_append, List.flatMap_cons, List.flatMap_map, List.append_assoc]

/-- A height that fits its word has at most ten digits, and at least one. -/
theorem length_toDigits {height : Nat} (fits : height < UInt32.size) :
    0 < (Nat.toDigits 10 height).length ∧ (Nat.toDigits 10 height).length ≤ 10 := by
  refine ⟨Nat.length_toDigits_pos, (Nat.length_toDigits_le_iff (by decide) (by decide)).mpr ?_⟩
  exact Nat.lt_trans fits (by decide)

/-- **Blocks with the same text have the same height.** -/
theorem height_eq_of_preimage_eq {parent root parent' root' : Digest} {height height' : Nat}
    {transactions transactions' : List Transaction} {certificates certificates' : List Certificate}
    (fits : height < UInt32.size) (fits' : height' < UInt32.size)
    (same : preimage parent height transactions certificates root =
      preimage parent' height' transactions' certificates' root') : height = height' := by
  have characters := congrArg String.toList same
  rw [toList_preimage, toList_preimage] at characters
  have behind := (List.append_inj characters
    (parent.length_toHex.trans parent'.length_toHex.symm)).2
  have counted := congrArg List.length behind
  rw [List.length_append, List.length_append, length_flatMap_toHex, length_flatMap_toHex] at counted
  have digits := length_toDigits fits
  have digits' := length_toDigits fits'
  have number := (List.append_inj behind (by omega)).1
  calc height = Nat.ofDigitChars 10 (Nat.toDigits 10 height) 0 := Nat.ofDigitChars_ten_toDigits.symm
    _ = Nat.ofDigitChars 10 (Nat.toDigits 10 height') 0 := by rw [number]
    _ = height' := Nat.ofDigitChars_ten_toDigits

end Block

end Reorg
