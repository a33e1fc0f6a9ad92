/-
**Maps on the wire, in any order.**

A reader of a map takes its entries as they come. With distinct keys their order does not matter:
each arrangement is read as the same map, which holds just these entries. A key that comes twice is
refused wherever it comes, even when what stands behind it cannot be read at all; only a declared
number of entries that is too large is noticed before.

* `OrderedMap.get?_ofList_eq_some_iff`, `perm_entries_ofList`: the map of entries with distinct keys;
* `OrderedMap.foldlM_addNew_of_twice`: entries that are refused;
* `fromWire_of_twice`: a map in which a key comes twice;
* `fromWire_of_perm`: a map whose entries are arranged in another way.
-/

import Mathlib.Data.List.Nodup
import Reorg.Proofs.Wire.Spelling

set_option linter.unusedSectionVars false

namespace Reorg

open Decoder Fallible

/-! ### Maps of given entries -/

namespace OrderedMap

variable {κ υ : Type} [Ord κ] [Std.TransOrd κ] [Std.LawfulEqOrd κ] [DecidableEq κ]
  {map : OrderedMap κ υ} {key : κ} {value : υ} {pairs pairs' : List (κ × υ)}

theorem get?_addAll_eq_some_iff (fresh : map.Fresh pairs) :
    (map.addAll pairs).get? key = some value ↔
      map.get? key = some value ∨ (key, value) ∈ pairs := by
  induction pairs generalizing map with
  | nil => exact (or_iff_left List.not_mem_nil).symm
  | cons pair pairs ih =>
    obtain ⟨absent, fresh⟩ := fresh_cons.mp fresh
    have first : (map.insert pair.1 pair.2).get? key = some value ↔
        map.get? key = some value ∨ (key, value) = pair := by
      rw [get?_insert]
      by_cases here : pair.1 = key
      · subst here
        simp [absent, Prod.ext_iff, eq_comm]
      · simp [here, Prod.ext_iff, Ne.symm here]
    show ((map.insert pair.1 pair.2).addAll pairs).get? key = some value ↔ _
    rw [ih fresh, first, List.mem_cons, or_assoc]

/-- **A map of entries with distinct keys** has these entries. -/
theorem get?_ofList_eq_some_iff (distinct : (pairs.map Prod.fst).Nodup) :
    (ofList pairs).get? key = some value ↔ (key, value) ∈ pairs := by
  have fresh : (empty : OrderedMap κ υ).Fresh pairs := ⟨distinct, fun _ _ => rfl⟩
  refine (get?_addAll_eq_some_iff fresh).trans ?_
  simp

theorem perm_entries_ofList (distinct : (pairs.map Prod.fst).Nodup) :
    (ofList pairs).entries.Perm pairs := by
  apply (List.perm_ext_iff_of_nodup ((keys_nodup _).of_map Prod.fst) (distinct.of_map Prod.fst)).mpr
  intro entry
  rw [← get?_ofList_eq_some_iff distinct, get?_eq_some_iff]

/-- Entries with distinct keys make the same map in any order. -/
theorem ofList_eq_of_perm (distinct : (pairs.map Prod.fst).Nodup) (perm : pairs.Perm pairs') :
    ofList pairs = ofList pairs' := by
  have distinct' := ((perm.map Prod.fst).nodup_iff).mp distinct
  apply ext_get?
  intro key
  apply Option.ext
  intro value
  rw [get?_ofList_eq_some_iff distinct, get?_ofList_eq_some_iff distinct', perm.mem_iff]

/-- **Entries are refused for one cause**, a key that is there already. -/
theorem foldlM_addNew_of_twice (twice : ¬ map.Fresh pairs) :
    pairs.foldlM addNew map = .error .duplicateKey := by
  cases outcome : pairs.foldlM addNew map with
  | ok whole => exact (twice (foldlM_addNew_eq_ok_iff.mp outcome).1).elim
  | error problem =>
    by_contra other
    refine foldlM_ne_error (fun map entry => ?_) map pairs outcome
    unfold addNew
    split
    · exact fun same => other same.symm
    · intro same
      cases same

end OrderedMap

open OrderedMap

/-! ### Reading -/

/-- Once its first bytes are read, a decoder goes on with what they stand for. -/
theorem Decoder.Reads.bind_apply {α β : Type} {decoder : Decoder α} {next : α → Decoder β}
    {bytes : Bytes} {value : α} (reads : Reads decoder bytes value) (rest : Bytes) :
    (decoder >>= next) (bytes ++ rest) = next value rest := by
  show (decoder (bytes ++ rest)).bind (fun read => next read.1 read.2) = _
  rw [reads]
  rfl

section Maps

variable {κ υ : Type} [Ord κ] [Std.TransOrd κ] [Std.LawfulEqOrd κ] [DecidableEq κ] [ToWire κ]
  [ToWire υ] [FromWire κ] [FromWire υ] {pairs pairs' : List (κ × υ)}

/-- Reading entries adds them one after the other, and goes on with those behind them. -/
theorem entriesInto_append {more : Nat} {map : OrderedMap κ υ} {rest : Bytes}
    (each : ∀ pair ∈ pairs, Faithful pair.1 ∧ Faithful pair.2) :
    entriesInto fromWire fromWire (pairs.length + more) map (pairs.flatMap spellPair ++ rest) =
      (pairs.foldlM addNew map).bind fun whole => entriesInto fromWire fromWire more whole rest := by
  induction pairs generalizing map with
  | nil =>
    simp only [List.length_nil, Nat.zero_add]
    rfl
  | cons pair pairs ih =>
    obtain ⟨key, value⟩ := each pair List.mem_cons_self
    have count : (pair :: pairs).length + more = pairs.length + more + 1 := by
      rw [List.length_cons]
      omega
    rw [count, List.flatMap_cons, spellPair, List.append_assoc, List.append_assoc, entriesInto,
      key.reads]
    simp only [value.reads _]
    rw [List.foldlM_cons, addNew]
    split
    · rfl
    · exact ih fun other member => each other (List.mem_cons_of_mem _ member)

/-- What is read as a map is a number of entries, which is looked at, and then the entries. -/
theorem fromWire_write {count : Nat} (fits : count < UInt64.size) (input : Bytes) :
    (fromWire : Decoder (OrderedMap κ υ)) (CompactSize.write count ++ input) =
      if count > CompactSize.maxLength then .error (.oversizedLength count)
      else if input.length < count then .error (.lengthMismatch count input.length)
      else entriesInto fromWire fromWire count .empty input := by
  show (CompactSize.readLength (CompactSize.write count ++ input)).bind (fun read =>
    (checkCount read.1 read.2).bind fun checked =>
      entriesInto fromWire fromWire read.1 .empty checked.2) = _
  rw [CompactSize.readLength_of_read (CompactSize.reads_read fits input)]
  by_cases long : count > CompactSize.maxLength
  · rw [if_pos long, if_pos long]
    rfl
  · rw [if_neg long, if_neg long]
    show (checkCount count input).bind _ = _
    rw [checkCount]
    by_cases short : input.length < count
    · rw [if_pos (Bytes.shorterThan_iff.mpr short), if_pos short]
      rfl
    · rw [if_neg fun shorter => short (Bytes.shorterThan_iff.mp shorter), if_neg short]
      rfl

/-- **A map in which a key comes twice is refused**, whatever is declared and whatever follows. -/
theorem fromWire_of_twice {count : Nat} (fits : count < UInt64.size) (within : pairs.length ≤ count)
    (each : ∀ pair ∈ pairs, Faithful pair.1 ∧ Faithful pair.2)
    (twice : ¬ (pairs.map Prod.fst).Nodup) (rest : Bytes) :
    let input := pairs.flatMap spellPair ++ rest
    (fromWire : Decoder (OrderedMap κ υ)) (CompactSize.write count ++ input) = .error
      (if count > CompactSize.maxLength then .oversizedLength count
      else if input.length < count then .lengthMismatch count input.length
      else .duplicateKey) := by
  intro input
  obtain ⟨more, rfl⟩ := Nat.exists_eq_add_of_le within
  have refused : entriesInto fromWire fromWire (pairs.length + more)
      (.empty : OrderedMap κ υ) input = .error .duplicateKey := by
    rw [entriesInto_append each, foldlM_addNew_of_twice fun fresh => twice fresh.1]
    rfl
  rw [fromWire_write fits, refused]
  split
  · rfl
  · split <;> rfl

/-- **The arrangement of the entries does not matter** to a reader of a map: what it makes of them
and what it finds wrong with them are the same. -/
theorem fromWire_of_perm (fits : pairs.length < UInt64.size)
    (each : ∀ pair ∈ pairs, Faithful pair.1 ∧ Faithful pair.2) (perm : pairs.Perm pairs')
    (rest : Bytes) :
    (fromWire : Decoder (OrderedMap κ υ)) (spellList spellPair pairs ++ rest) =
      fromWire (spellList spellPair pairs' ++ rest) := by
  have each' : ∀ pair ∈ pairs', Faithful pair.1 ∧ Faithful pair.2 :=
    fun pair member => each pair (perm.mem_iff.mpr member)
  have bytes : (pairs'.flatMap spellPair ++ rest).length =
      (pairs.flatMap spellPair ++ rest).length := by
    rw [List.length_append, List.length_append, (perm.flatMap_right spellPair).length_eq]
  have added : pairs.foldlM addNew (.empty : OrderedMap κ υ) = pairs'.foldlM addNew .empty := by
    by_cases distinct : (pairs.map Prod.fst).Nodup
    · have distinct' := ((perm.map Prod.fst).nodup_iff).mp distinct
      rw [foldlM_addNew_eq_ok_iff.mpr ⟨fresh_empty distinct, rfl⟩,
        foldlM_addNew_eq_ok_iff.mpr ⟨fresh_empty distinct', rfl⟩]
      exact congrArg Except.ok (ofList_eq_of_perm distinct perm)
    · have twice : ¬ (pairs'.map Prod.fst).Nodup :=
        fun distinct' => distinct (((perm.map Prod.fst).nodup_iff).mpr distinct')
      rw [foldlM_addNew_of_twice fun fresh => distinct fresh.1,
        foldlM_addNew_of_twice fun fresh => twice fresh.1]
  have entries : entriesInto fromWire fromWire pairs.length (.empty : OrderedMap κ υ)
      (pairs.flatMap spellPair ++ rest) =
      entriesInto fromWire fromWire pairs'.length .empty (pairs'.flatMap spellPair ++ rest) := by
    -- no entries are left behind these, so both leave what follows
    rw [← Nat.add_zero pairs.length, entriesInto_append each, added,
      ← Nat.add_zero pairs'.length, entriesInto_append each']
  rw [spellList, spellList, List.append_assoc, List.append_assoc, fromWire_write fits,
    fromWire_write (perm.length_eq ▸ fits), entries, bytes, perm.length_eq]

end Maps

end Reorg
