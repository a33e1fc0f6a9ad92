/-
**The spellings of scripts.**

A script on the wire is spelt as a template or as itself, behind its length. A script with a template
can be spelt both ways, and one that is too long stands for a script that cannot be spent; in all
other cases there is one spelling, the one that is written. A key in full is told by its `x` and the
parity of its `y`, because the point of an `x` has a `y` of each parity.

* `Script.Spelling`: a spelling, with the script that it stands for;
* `Script.takes_read`: whatever is read as a script is a spelling of it;
* `Template.ofScript?_script?`: the script of a template has that template;
* `Script.agreeIff_bytes`: when a script is written as it was spelt.
-/

import Mathlib.Data.List.GetD
import Reorg.Proofs.Agreement
import Reorg.Proofs.Script.Wire
import Reorg.Proofs.Wire.Takes

namespace Reorg

open Decoder

/-! ### Points -/

namespace Secp256k1

theorem power_lt (base bits exponent : Nat) : power base bits exponent < fieldOrder := by
  induction bits generalizing base exponent with
  | zero => exact Nat.lt_of_succ_le (Nat.le_of_ble_eq_true rfl)
  | succ bits ih =>
    rw [power]
    split
    · exact Nat.mod_lt _ (Nat.lt_of_succ_le (Nat.le_of_ble_eq_true rfl))
    · exact ih _ _

theorem lt_of_squareRoot? {square root : Nat} (found : squareRoot? square = some root) :
    root < fieldOrder := by
  rw [squareRoot?] at found
  split at found
  · rw [← Option.some.inj found]
    exact power_lt _ _ _
  · cases found

/-- The last byte of a word that is written highest byte first is its lowest. -/
theorem getD_bigEndian {width word : Nat} :
    (bigEndian (width + 1) word).getD width 0 = UInt8.ofNat word := by
  rw [bigEndian, littleEndian, List.reverse_cons, List.getD_append_right _ _ _ _
    (Nat.le_of_eq (by rw [List.length_reverse, littleEndian_length])), List.length_reverse,
    littleEndian_length, Nat.sub_self]
  rfl

/-- **A key in full** is a four, the `x`, and a `y` of the parity that was asked for. -/
theorem exists_of_fullKey? {x key : Bytes} {odd : Bool} (found : fullKey? x odd = some key) :
    ∃ y : Bytes, y.length = 32 ∧ key = 4 :: (x ++ y) ∧ ((y.getD 31 0).toNat % 2 == 1) = odd := by
  rw [fullKey?] at found
  dsimp only at found
  split at found
  · obtain ⟨root, rooted, rfl⟩ := Option.map_eq_some_iff.mp found
    have below := lt_of_squareRoot? rooted
    have order : fieldOrder = 2 * (fieldOrder / 2) + 1 := by decide
    refine ⟨_, by rw [bigEndian, List.length_reverse, littleEndian_length], rfl, ?_⟩
    rw [getD_bigEndian, UInt8.toNat_ofNat']
    have parity : ∀ value : Nat, value % 2 ^ 8 % 2 = value % 2 := fun value => by omega
    rw [parity]
    split
    · next same => exact beq_iff_eq.mp same
    · next other =>
      have turned : (fieldOrder - root) % 2 = 1 - root % 2 := by omega
      rw [turned]
      rcases Nat.mod_two_eq_zero_or_one root with even | uneven
      · rw [even] at other ⊢
        cases odd
        · exact (other rfl).elim
        · rfl
      · rw [uneven] at other ⊢
        cases odd
        · rfl
        · exact (other rfl).elim
  · cases found

theorem length_fullKey? {x key : Bytes} {odd : Bool} (found : fullKey? x odd = some key) :
    key.length = x.length + 33 := by
  obtain ⟨y, long, rfl, -⟩ := exists_of_fullKey? found
  rw [List.length_cons, List.length_append, long]

end Secp256k1

namespace Script

variable {template : Template}

/-! ### Templates -/

theorem Template.tag_ofTag {tag : Nat} (payload : Bytes) (small : tag < Template.count) :
    (Template.ofTag tag payload).tag.toNat = tag ∧
      (Template.ofTag tag payload).payload = payload := by
  match tag, small with
  | 0, _ => exact ⟨rfl, rfl⟩
  | 1, _ => exact ⟨rfl, rfl⟩
  | 2, _ => exact ⟨rfl, rfl⟩
  | 3, _ => exact ⟨rfl, rfl⟩
  | 4, _ => exact ⟨rfl, rfl⟩
  | 5, _ => exact ⟨rfl, rfl⟩

/-- What stands behind some bytes, and what stands in front, by their number. -/
theorem drop_take_append {front : Bytes} (last : Bytes) {count : Nat} (long : front.length = count) :
    (front ++ last).drop count = last ∧ (front ++ last).take count = front := by
  subst long
  exact ⟨List.drop_left, List.take_left⟩

theorem payToKey_cons {lead : UInt8} {key : Bytes} {count : Nat} (long : key.length = count) :
    payToKey (lead :: key) = UInt8.ofNat (count + 1) :: lead :: (key ++ [opCheckSig]) := by
  rw [payToKey, List.length_cons, long, List.cons_append, List.cons_append]

theorem Template.ofScript?_shortKey {odd : Bool} {x : Bytes} (size : x.length = 32) :
    Template.ofScript? (payToKey ((if odd then 3 else 2) :: x)) = some (.shortKey odd x) := by
  obtain ⟨ends, whole⟩ := drop_take_append [opCheckSig] size
  rw [payToKey_cons size]
  show (if _ then some (Template.shortKey _ _) else none) = _
  rw [whole, if_pos ⟨by cases odd <;> decide, ends⟩]
  cases odd <;> rfl

/-- A key in full comes back, since it was made from its `x` and the parity of its `y`. -/
theorem Template.ofScript?_fullKey {odd : Bool} {x key : Bytes} (size : x.length = 32)
    (full : Secp256k1.fullKey? x odd = some key) :
    Template.ofScript? (payToKey key) = some (.fullKey odd x) := by
  obtain ⟨y, long, rfl, parity⟩ := Secp256k1.exists_of_fullKey? full
  have both : (x ++ y).length = 64 := by rw [List.length_append, size, long]
  obtain ⟨ends, whole⟩ := drop_take_append [opCheckSig] both
  have coordinate : (x ++ y ++ [opCheckSig]).take 32 = x := by
    rw [List.append_assoc]
    exact (drop_take_append _ size).2
  have last : (x ++ y ++ [opCheckSig]).getD 63 0 = y.getD 31 0 := by
    rw [List.getD_append _ _ _ _ (by rw [both]; decide),
      List.getD_append_right _ _ _ _ (by rw [size]; decide), size]
  rw [payToKey_cons both]
  show (if _ then (if _ then some (Template.fullKey _ _) else none) else none) = _
  rw [if_pos ends, coordinate, last, parity, whole, if_pos full]

theorem length_payToKey (key : Bytes) : (payToKey key).length = key.length + 2 := by
  rw [payToKey, List.length_append, List.length_cons]
  rfl

/-- The script of a template is short. -/
theorem Template.length_script? {template : Template} {script : Script}
    (sized : template.payload.length = Template.payloadSize template.tag.toNat)
    (expands : template.script? = some script) : script.length ≤ maxSize := by
  have room : 67 ≤ maxSize := by decide
  rw [Template.payloadSize_tag] at sized
  cases template with
  | keyHash hash =>
    obtain rfl := Option.some.inj expands
    have long : (payToKeyHash hash).length = hash.length + 5 := by simp [payToKeyHash]
    have size : hash.length = 20 := sized
    omega
  | scriptHash hash =>
    obtain rfl := Option.some.inj expands
    have long : (payToScriptHash hash).length = hash.length + 3 := by simp [payToScriptHash]
    have size : hash.length = 20 := sized
    omega
  | shortKey odd x =>
    obtain rfl := Option.some.inj expands
    have size : x.length = 32 := sized
    rw [length_payToKey, List.length_cons]
    omega
  | fullKey odd x =>
    obtain ⟨key, full, rfl⟩ := Option.map_eq_some_iff.mp expands
    have size : x.length = 32 := sized
    rw [length_payToKey, Secp256k1.length_fullKey? full]
    omega

/-- **The script of a template has that template**, when the payload has its size. -/
theorem Template.ofScript?_script? {script : Script}
    (sized : template.payload.length = Template.payloadSize template.tag.toNat)
    (expands : template.script? = some script) : Template.ofScript? script = some template := by
  rw [Template.payloadSize_tag] at sized
  cases template with
  | keyHash hash =>
    obtain rfl := Option.some.inj expands
    have size : hash.length = 20 := sized
    obtain ⟨ends, whole⟩ := drop_take_append [opEqualVerify, opCheckSig] size
    show (if (hash ++ [opEqualVerify, opCheckSig]).drop 20 = [opEqualVerify, opCheckSig] then
      some (Template.keyHash ((hash ++ [opEqualVerify, opCheckSig]).take 20)) else none) = _
    rw [if_pos ends, whole]
  | scriptHash hash =>
    obtain rfl := Option.some.inj expands
    have size : hash.length = 20 := sized
    obtain ⟨ends, whole⟩ := drop_take_append [opEqual] size
    show (if (hash ++ [opEqual]).drop 20 = [opEqual] then
      some (Template.scriptHash ((hash ++ [opEqual]).take 20)) else none) = _
    rw [if_pos ends, whole]
  | shortKey odd x =>
    obtain rfl := Option.some.inj expands
    exact ofScript?_shortKey sized
  | fullKey odd x =>
    obtain ⟨key, full, rfl⟩ := Option.map_eq_some_iff.mp expands
    exact ofScript?_fullKey sized full

/-! ### Spellings -/

/-- A way to spell a script on the wire. -/
inductive Spelling
  /-- The number and the payload of a template, which has a script. -/
  | short (template : Template) (script : Script)
    (sized : template.payload.length = Template.payloadSize template.tag.toNat)
    (expands : template.script? = some script)
  /-- The script itself, behind its length. -/
  | plain (body : Bytes) (fits : body.length + Template.count < UInt64.size)

namespace Spelling

/-- The bytes of a spelling. -/
def bytes : Spelling → Bytes
  | short template _ _ _ => template.tag :: template.payload
  | plain body _ => VarInt.write (body.length + Template.count) ++ body

/-- The script that a spelling stands for. -/
def script : Spelling → Script
  | short _ script _ _ => script
  | plain body _ => if maxSize < body.length then [opReturn] else body

/-- The script that is written out, if any is. -/
def body? : Spelling → Option Bytes
  | short _ _ _ _ => none
  | plain body _ => some body

end Spelling

/-- **Whatever is read as a script** is a spelling of it. -/
theorem takes_read : Takes read fun script taken =>
    ∃ spelling : Spelling, spelling.bytes = taken ∧ spelling.script = script := by
  unfold read
  refine VarInt.takes_read.bind ?_
  rintro head _ ⟨fits, rfl⟩
  split
  · next small =>
    refine takes_take.bind ?_
    rintro _ payload ⟨rfl, sized⟩
    obtain ⟨tag, same⟩ := Template.tag_ofTag payload small
    split
    · next script expands =>
      refine .pure ⟨.short (Template.ofTag head payload) script (by rw [tag, same, sized]) expands,
        ?_, rfl⟩
      rw [Spelling.bytes, same, write_tag small, List.append_nil, ← tag, UInt8.ofNat_toNat, tag]
      rfl
    · exact .throw
  · next plain =>
    refine takes_take.map ?_
    rintro _ body ⟨rfl, long⟩
    have whole : body.length + Template.count = head := by omega
    refine ⟨.plain body (whole ▸ fits), ?_, ?_⟩
    · rw [Spelling.bytes, whole]
    · rw [Spelling.script, long]

/-- **A spelling is read as its script**, whatever follows it. -/
theorem Spelling.reads (spelling : Spelling) : Reads read spelling.bytes spelling.script := by
  cases spelling with
  | short template script sized expands =>
    refine template.reads_tag.bind ?_
    rw [if_pos template.tag_lt_count]
    exact reads_readTemplate (Template.ofScript?_script? sized expands)
  | plain body fits =>
    refine (VarInt.reads_read fits).bind ?_
    rw [if_neg (Nat.not_lt.mpr (Nat.le_add_left _ _)), Nat.add_sub_cancel]
    exact (Reads.take rfl).bind_pure

/-- **A script that was read** is not too long, since one that was written too long is replaced. -/
theorem Spelling.length_script_le (spelling : Spelling) : spelling.script.length ≤ maxSize := by
  cases spelling with
  | short template script sized expands => exact Template.length_script? sized expands
  | plain body fits =>
    rw [Spelling.script]
    split
    · decide
    · next short => exact Nat.not_lt.mp short

/-- **When a script is written as it was spelt**: a script that was written out is not too long to be
spent, and it has no template. -/
theorem agreeIff_bytes (spelling : Spelling) : AgreeIff (write spelling.script) spelling.bytes
    (∀ body ∈ spelling.body?, body.length ≤ maxSize ∧ Template.ofScript? body = none) := by
  cases spelling with
  | short template script sized expands =>
    rw [Spelling.script, write, Template.ofScript?_script? sized expands]
    refine (AgreeIff.refl _).congr ⟨fun _ body member => ?_, fun _ => trivial⟩
    cases member
  | plain body fits =>
    have only : (∀ written ∈ (Spelling.plain body fits).body?,
        written.length ≤ maxSize ∧ Template.ofScript? written = none) ↔
          body.length ≤ maxSize ∧ Template.ofScript? body = none := by
      simp only [Spelling.body?, Option.mem_def, Option.some.injEq, forall_eq']
    refine AgreeIff.congr ?_ only.symm
    rw [Spelling.script, Spelling.bytes]
    split
    · next long =>
      have bad : Template.ofScript? [opReturn] = none := rfl
      rw [write, bad]
      refine ((VarInt.agreeIff_write (by decide) fits).append_of_not fun same => ?_).congr
        ⟨False.elim, fun both => Nat.not_lt.mpr both.1 long⟩
      have most : [opReturn].length < maxSize := by decide
      omega
    · next short =>
      cases found : Template.ofScript? body with
      | none =>
        rw [write, found]
        exact (AgreeIff.refl _).congr ⟨fun _ => ⟨Nat.not_lt.mp short, rfl⟩, fun _ => trivial⟩
      | some template =>
        have small := template.tag_lt_count
        rw [write, found]
        show AgreeIff ([template.tag] ++ template.payload) _ _
        rw [← template.write_tag]
        refine ((VarInt.agreeIff_write (Nat.lt_trans small (by decide)) fits).append_of_not
          fun same => ?_).congr ⟨False.elim, fun both => by cases both.2⟩
        omega

end Script

end Reorg
