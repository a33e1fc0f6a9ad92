/-
**The short form of scripts loses nothing.**

A script is written as the number and the payload of its template, when it has one, and written out
otherwise. It is read back whatever its bytes are, unless it is too long to be spent; then only that
is kept. A key in full is written short only when its `x` and the parity of its `y` give the same key
back, so a key that is not on the curve is written out.

* `Template.Makes`: the scripts that a template has, and `Template.ofScript?_eq_some_iff`: the
  template that is found for a script is the one that has it;
* `reads_kept`: what is read back;
* `Template.makes_payToKey_iff`: when a key in full has a template;
* `lossless`: nothing is lost, and no script is written as the beginning of another.
-/

import Reorg.Proofs.Script.Spelling

namespace Reorg.Script

open Decoder

variable {script other : Script} {template : Template} {key : Bytes}

/-! ### Scripts with a template -/

/-- The script is that of the template, whose payload has the right size. -/
def Template.Makes (template : Template) (script : Script) : Prop :=
  template.payload.length = Template.payloadSize template.tag.toNat ∧
    template.script? = some script

theorem Template.ofScript?_eq_some_iff :
    Template.ofScript? script = some template ↔ template.Makes script :=
  ⟨ofScript?_eq_some, fun makes => ofScript?_script? makes.1 makes.2⟩

theorem write_of_makes (makes : template.Makes script) :
    write script = template.tag :: template.payload := by
  rw [write, Template.ofScript?_eq_some_iff.mpr makes]

/-- **A script without a template is written out** behind its length. -/
theorem write_of_plain (plain : ∀ template : Template, ¬ template.Makes script) :
    write script = VarInt.write (script.length + Template.count) ++ script := by
  cases found : Template.ofScript? script with
  | none => rw [write, found]
  | some template => exact (plain template (Template.ofScript?_eq_some_iff.mp found)).elim

/-! ### Reading back -/

/-- What the wire keeps of a script: of one that is too long to be spent, only that it is. -/
def kept (script : Script) : Script :=
  if script.length ≤ maxSize then script else [opReturn]

/-- **What is kept of a script is read back.** -/
theorem reads_kept (fits : script.length + Template.count < UInt64.size) :
    Reads read (write script) script.kept := by
  unfold kept
  by_cases spendable : script.length ≤ maxSize
  · rw [if_pos spendable]
    exact reads_read spendable
  · have plain : ∀ template : Template, ¬ template.Makes script := fun template makes =>
      spendable (Template.length_script? makes.1 makes.2)
    have spelt : (Spelling.plain script fits).script = [opReturn] :=
      if_pos (Nat.lt_of_not_le spendable)
    rw [if_neg spendable, write_of_plain plain, ← spelt]
    exact (Spelling.plain script fits).reads

/-- **No script is written as the beginning of another.** -/
theorem eq_of_prefix_write (spendable : script.length ≤ maxSize)
    (spendable' : other.length ≤ maxSize) (front : write script <+: write other) :
    script = other := by
  obtain ⟨behind, whole⟩ := front
  have agree : AgreeIff (write script) (write other) (script = other) :=
    (reads_read spendable).agreeIff (reads_read spendable') (congrArg write)
  rw [← List.append_nil (write other)] at whole
  exact ((agree behind []).mp whole).1

/-! ### Keys in full -/

/-- The `x` of a key in full. -/
def xOf (key : Bytes) : Bytes := (key.drop 1).take 32

/-- Whether the `y` of a key in full is odd, which its last byte tells. -/
def isOdd (key : Bytes) : Bool := (key.getD 64 0).toNat % 2 == 1

theorem length_xOf (long : key.length = 65) : (xOf key).length = 32 := by
  simp [xOf, long]

/-- The key that is rebuilt from an `x` and a parity has them. -/
theorem xOf_fullKey? {x : Bytes} {odd : Bool} (size : x.length = 32)
    (full : Secp256k1.fullKey? x odd = some key) : xOf key = x ∧ isOdd key = odd := by
  obtain ⟨y, long, rfl, parity⟩ := Secp256k1.exists_of_fullKey? full
  constructor
  · simp [xOf, List.take_left' size]
  · have last : (4 :: (x ++ y)).getD 64 0 = y.getD 31 0 := by
      rw [List.getD_cons_succ, List.getD_append_right _ _ _ _ (by omega), size]
    rw [isOdd, last, parity]

theorem payToKey_inj {key key' : Bytes} (same : payToKey key = payToKey key') : key = key' :=
  List.append_cancel_right (List.cons_eq_cons.mp same).2

/-- **A key of sixty-five bytes has a template** when its `x` and the parity of its `y` give the
same key back. -/
theorem Template.makes_payToKey_iff (long : key.length = 65) : template.Makes (payToKey key) ↔
    template = .fullKey (isOdd key) (xOf key) ∧
      Secp256k1.fullKey? (xOf key) (isOdd key) = some key := by
  have length := length_payToKey key
  constructor
  · rintro ⟨sized, expands⟩
    rw [payloadSize_tag] at sized
    cases template with
    | keyHash hash =>
      have size : hash.length = 20 := sized
      have short := congrArg List.length (Option.some.inj expands)
      simp [payToKeyHash, size] at short
      omega
    | scriptHash hash =>
      have size : hash.length = 20 := sized
      have short := congrArg List.length (Option.some.inj expands)
      simp [payToScriptHash, size] at short
      omega
    | shortKey odd x =>
      have size : x.length = 32 := sized
      have short := congrArg List.length (Option.some.inj expands)
      simp [length_payToKey, size] at short
      omega
    | fullKey odd x =>
      obtain ⟨key', full, same⟩ := Option.map_eq_some_iff.mp expands
      obtain rfl := payToKey_inj same
      obtain ⟨rfl, rfl⟩ := xOf_fullKey? sized full
      exact ⟨rfl, full⟩
  · rintro ⟨rfl, full⟩
    constructor
    · rw [payloadSize_tag]
      exact length_xOf long
    · rw [script?, full]
      rfl

/-- **A key of sixty-five bytes is written in thirty-three** when its `x` and the parity of its `y`
give the same key back, and only then. -/
theorem length_write_payToKey_iff (long : key.length = 65) :
    (write (payToKey key)).length = 33 ↔
      Secp256k1.fullKey? (xOf key) (isOdd key) = some key := by
  by_cases full : Secp256k1.fullKey? (xOf key) (isOdd key) = some key
  · rw [write_of_makes ((Template.makes_payToKey_iff long).mpr ⟨rfl, full⟩)]
    simp [Template.payload, length_xOf long, full]
  · rw [write_of_plain fun template makes =>
      full ((Template.makes_payToKey_iff long).mp makes).2]
    simp [length_payToKey, full]
    omega

/-! ### All scripts -/

/-- **The short form of scripts loses nothing.** A script is read back, whatever follows it, as
itself when it is not too long to be spent and as one that cannot be spent otherwise. A key of
sixty-five bytes is written in thirty-three exactly when its `x` and the parity of its `y` give the
same key back; a script that no template has is written out; and of two scripts that can be spent
neither is written as the beginning of the other. The length of a script is that of a byte string in
memory: raised by the number of templates it is still a 64-bit word. -/
theorem lossless :
    (∀ (script : Script) (rest : Bytes), script.length + Template.count < UInt64.size →
      read (write script ++ rest) =
        .ok (if script.length ≤ maxSize then script else [opReturn], rest)) ∧
    (∀ key : Bytes, key.length = 65 → ((write (payToKey key)).length = 33 ↔
      Secp256k1.fullKey? (xOf key) (isOdd key) = some key)) ∧
    (∀ script : Script, (∀ template : Template, ¬ template.Makes script) →
      write script = VarInt.write (script.length + Template.count) ++ script) ∧
    (∀ script other : Script, script.length ≤ maxSize → other.length ≤ maxSize →
      script ≠ other → ¬ write script <+: write other) := by
  refine ⟨fun script rest fits => reads_kept fits rest,
    fun key long => length_write_payToKey_iff long, fun script plain => write_of_plain plain, ?_⟩
  intro script other spendable spendable' apart front
  exact apart (eq_of_prefix_write spendable spendable' front)

/-- The base point of the curve, in full. -/
def basePoint : Bytes :=
  4 :: (bigEndian 32 0x79be667ef9dcbbac55a06295ce870b07029bfcdb2dce28d959f2815b16f81798 ++
    bigEndian 32 0x483ada7726a3c4655da4fbfc0e1108a8fd17b448a68554199c47d08ffb10d4b8)

/-- The bytes of a key in full that is not on the curve. -/
def offCurve : Bytes := 4 :: List.replicate 64 0

/-- A script that is one byte too long to be spent. -/
def overlong : Script := List.replicate (maxSize + 1) 7

/-- The base point is written short and a key that is not on the curve is written out; of a script
that is too long only that it cannot be spent is kept. -/
theorem lossless_edges :
    (basePoint.length = 65 ∧ (write (payToKey basePoint)).length = 33) ∧
    (offCurve.length = 65 ∧ (write (payToKey offCurve)).length ≠ 33) ∧
    (overlong.length + Template.count < UInt64.size ∧
      read (write overlong ++ [1, 2]) = .ok ([opReturn], [1, 2])) ∧
    ((∀ template : Template, ¬ template.Makes [33, 2]) ∧
      write [33, 2] = VarInt.write 8 ++ [33, 2]) ∧
    ¬ write [33, 2] <+: write [33, 2, 3] := by
  obtain ⟨reads, keys, plain, apart⟩ := lossless
  have point : basePoint.length = 65 := by simp [basePoint, bigEndian]
  have other : offCurve.length = 65 := by simp [offCurve]
  have long : overlong.length = maxSize + 1 := List.length_replicate
  have fits : overlong.length + Template.count < UInt64.size := by
    rw [long]
    decide
  have none : ∀ template : Template, ¬ template.Makes [33, 2] := by
    intro template makes
    have found := Template.ofScript?_eq_some_iff.mpr makes
    cases found
  refine ⟨⟨point, (keys basePoint point).mpr (by decide +kernel)⟩, ⟨other, ?_⟩, ⟨fits, ?_⟩,
    ⟨none, plain [33, 2] none⟩, apart _ _ (by decide) (by decide) (by decide)⟩
  · intro short
    exact absurd ((keys offCurve other).mp short) (by decide +kernel)
  · rw [reads _ _ fits, if_neg (by omega)]

end Reorg.Script
