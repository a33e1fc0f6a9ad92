/-
**Scripts on the wire.**

A script with a template is written as the template's number and payload, and the template gives it
back; any other script is written out. Either way the first number tells the reader which it is.

* `Template.ofScript?_eq_some`: the template of a script has the right payload and the same script;
* `Script.reads_read`: a script that can be spent is read back.
-/

import Reorg.Proofs.Wire.Numbers
import Reorg.Script.Wire

namespace Reorg.Script

open Decoder

variable {script : Script} {template : Template}

/-! ### Templates -/

/-- Bytes that end in others after some count are the first of them and these others. -/
theorem split_of_drop {bytes last : Bytes} {count : Nat} (ends : bytes.drop count = last)
    (some : last ≠ []) : (bytes.take count).length = count ∧ bytes.take count ++ last = bytes := by
  have enough : count ≤ bytes.length := Nat.le_of_not_lt fun short =>
    some (ends.symm.trans (List.drop_eq_nil_of_le (Nat.le_of_lt short)))
  refine ⟨List.length_take_of_le enough, ?_⟩
  rw [← ends, List.take_append_drop]

theorem Template.tag_lt_count (template : Template) : template.tag.toNat < Template.count := by
  cases template with
  | keyHash hash => exact Nat.le_of_ble_eq_true rfl
  | scriptHash hash => exact Nat.le_of_ble_eq_true rfl
  | shortKey odd x => cases odd <;> exact Nat.le_of_ble_eq_true rfl
  | fullKey odd x => cases odd <;> exact Nat.le_of_ble_eq_true rfl

theorem Template.ofTag_tag (template : Template) :
    Template.ofTag template.tag.toNat template.payload = template := by
  cases template with
  | keyHash hash => rfl
  | scriptHash hash => rfl
  | shortKey odd x => cases odd <;> rfl
  | fullKey odd x => cases odd <;> rfl

/-- The number of a template tells the size of its payload: a hash or a coordinate. -/
theorem Template.payloadSize_tag (template : Template) :
    Template.payloadSize template.tag.toNat =
      match template with
      | .keyHash _ | .scriptHash _ => 20
      | .shortKey _ _ | .fullKey _ _ => 32 := by
  cases template with
  | keyHash hash => rfl
  | scriptHash hash => rfl
  | shortKey odd x => cases odd <;> rfl
  | fullKey odd x => cases odd <;> rfl

/-- **The template of a script** has a payload of its size, and it has that script. -/
theorem Template.ofScript?_eq_some (found : Template.ofScript? script = some template) :
    template.payload.length = Template.payloadSize template.tag.toNat ∧
      template.script? = some script := by
  rw [Template.payloadSize_tag]
  unfold Template.ofScript? at found
  split at found
  · next rest =>
    split at found
    · next ends =>
      cases found
      obtain ⟨long, whole⟩ := split_of_drop ends (by simp)
      refine ⟨long, ?_⟩
      show some (0x76 :: 0xa9 :: 20 :: (rest.take 20 ++ [opEqualVerify, opCheckSig])) = _
      rw [whole]
    · cases found
  · next rest =>
    split at found
    · next ends =>
      cases found
      obtain ⟨long, whole⟩ := split_of_drop ends (by simp)
      refine ⟨long, ?_⟩
      show some (0xa9 :: 20 :: (rest.take 20 ++ [opEqual])) = _
      rw [whole]
    · cases found
  · next lead rest =>
    split at found
    · next shape =>
      obtain ⟨parity, ends⟩ := shape
      cases found
      obtain ⟨long, whole⟩ := split_of_drop ends (by simp)
      have again : (if lead = 3 then 3 else 2 : UInt8) = lead := by
        rcases parity with rfl | rfl <;> rfl
      refine ⟨long, ?_⟩
      simp only [Template.script?, decide_eq_true_eq, again, payToKey, List.length_cons, long]
      rw [List.cons_append, List.cons_append, whole]
      rfl
    · cases found
  · next rest =>
    split at found
    · next ends =>
      simp only at found
      split at found
      · next same =>
        cases found
        obtain ⟨long, whole⟩ := split_of_drop ends (by simp)
        refine ⟨?_, ?_⟩
        · show (rest.take 32).length = 32
          rw [List.length_take] at long ⊢
          omega
        · rw [Template.script?, same]
          simp only [Option.map_some, payToKey, List.length_cons, long]
          rw [List.cons_append, List.cons_append, whole]
          rfl
      · cases found
    · cases found
  · cases found

/-! ### Reading -/

/-- The number of a template is written as one byte. -/
theorem write_tag {tag : Nat} (small : tag < Template.count) :
    VarInt.write tag = [UInt8.ofNat tag] := by
  rw [VarInt.write, if_pos (Nat.lt_trans small (by decide))]

theorem Template.write_tag (template : Template) :
    VarInt.write template.tag.toNat = [template.tag] := by
  rw [Script.write_tag template.tag_lt_count, UInt8.ofNat_toNat]

theorem Template.reads_tag (template : Template) :
    Reads VarInt.read [template.tag] template.tag.toNat :=
  template.write_tag ▸ VarInt.reads_read (Nat.lt_trans template.tag_lt_count (by decide))

theorem reads_readTemplate (found : Template.ofScript? script = some template) :
    Reads (readTemplate template.tag.toNat) template.payload script := by
  obtain ⟨sized, expands⟩ := Template.ofScript?_eq_some found
  rw [readTemplate, ← List.append_nil template.payload]
  refine (Reads.take sized).bind ?_
  simp only [Template.ofTag_tag, expands]
  exact .pure script

theorem reads_readPlain (spendable : script.length ≤ maxSize) :
    Reads (readPlain script.length) script script := by
  intro rest
  show (take _ _).bind _ = _
  rw [Reads.take rfl rest]
  show Except.ok (if script.length > maxSize then _ else script, rest) = _
  rw [if_neg (Nat.not_lt.mpr spendable)]

/-- **A script that is not too long is read back.** -/
theorem reads_read (spendable : script.length ≤ maxSize) : Reads read (write script) script := by
  have most : maxSize + Template.count < UInt64.size := by decide
  rw [write]
  split
  · next template found =>
    refine template.reads_tag.bind ?_
    rw [if_pos (Template.tag_lt_count template)]
    exact reads_readTemplate found
  · have head : Reads VarInt.read (VarInt.write (script.length + Template.count))
        (script.length + Template.count) := VarInt.reads_read (by omega)
    refine head.bind ?_
    rw [if_neg (by omega), Nat.add_sub_cancel]
    exact reads_readPlain spendable

end Reorg.Script
