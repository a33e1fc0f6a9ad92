/-
**The spellings of sequences and maps.**

A sequence is spelt as its length and a spelling of each entry, so it is written as it was spelt when
its entries are. A map is spelt as its entries in any order, as long as no key comes twice; it is
written in the ascending order of its keys, so only that spelling is the one that is written.

* `takes_list`, `reads_spellings`, `agreeIff_list`: sequences;
* `OrderedMap.foldlM_addNew_eq_ok_iff`: which entries are read into a map, and what the map is;
* `OrderedMap.entries_ofList_iff`: the entries of a map were ascending when they are as they came;
* `takes_map`, `reads_pairs`, `agreeIff_map`: maps.
-/

import Reorg.Proofs.Wire.Codec
import Reorg.Proofs.Wire.Takes

set_option linter.unusedSectionVars false

namespace Reorg

open Decoder Fallible

/-- Values that are read back can be told apart. -/
theorem Faithful.agreeIff {α : Type} [ToWire α] [FromWire α] {value value' : α}
    (faithful : Faithful value) (faithful' : Faithful value') :
    AgreeIff (toWire value) (toWire value') (value = value') :=
  faithful.reads.agreeIff faithful'.reads (congrArg toWire)

/-! ### Sequences -/

section Lists

variable {α σ : Type} {bytes : σ → Bytes} {meaning : σ → α} {spellings : List σ}

/-- The bytes of a sequence that is spelt entry by entry. -/
def spellList (bytes : σ → Bytes) (spellings : List σ) : Bytes :=
  CompactSize.write spellings.length ++ spellings.flatMap bytes

/-- **What is read as a sequence** is its length and a spelling of each entry. -/
theorem takes_list [FromWire α] (each : Takes (fromWire : Decoder α) fun value taken =>
      ∃ spelling, bytes spelling = taken ∧ meaning spelling = value) :
    Takes (fromWire : Decoder (List α)) fun values taken => ∃ spellings : List σ,
      spellings.length ≤ CompactSize.maxLength ∧ spellList bytes spellings = taken ∧
        spellings.map meaning = values := by
  refine CompactSize.takes_readLength.bind ?_
  rintro count _ ⟨short, rfl⟩
  refine Takes.after_check (each.entries.mono ?_)
  rintro _ _ ⟨spellings, rfl, rfl, rfl⟩
  exact ⟨spellings, short, rfl, rfl⟩

theorem reads_spellings [FromWire α] (short : spellings.length ≤ CompactSize.maxLength)
    (nonempty : ∀ spelling ∈ spellings, 0 < (bytes spelling).length)
    (each : ∀ spelling ∈ spellings, Reads fromWire (bytes spelling) (meaning spelling)) :
    Reads fromWire (spellList bytes spellings) (spellings.map meaning) :=
  (CompactSize.reads_readLength short).bind (.sequenceOf_map nonempty each)

/-- **A sequence is written as it was spelt** when its entries are. -/
theorem agreeIff_list [ToWire α] {holds : σ → Prop}
    (each : ∀ spelling ∈ spellings, AgreeIff (toWire (meaning spelling)) (bytes spelling)
      (holds spelling)) :
    AgreeIff (toWire (spellings.map meaning)) (spellList bytes spellings)
      (∀ spelling ∈ spellings, holds spelling) := by
  show AgreeIff (CompactSize.write (spellings.map meaning).length ++
    (spellings.map meaning).flatMap toWire) _ _
  rw [List.length_map, List.flatMap_map]
  exact ((AgreeIff.refl _).append (.flatMap each)).congr (and_iff_right trivial)

end Lists

/-! ### Maps of given entries -/

namespace OrderedMap

variable {κ υ : Type} [Ord κ] [Std.TransOrd κ] [Std.LawfulEqOrd κ] [DecidableEq κ]
  {map whole : OrderedMap κ υ} {key : κ} {value : υ} {pairs : List (κ × υ)}

/-- No two entries have one key, and no entry has a key that the map has. -/
def Fresh (map : OrderedMap κ υ) (pairs : List (κ × υ)) : Prop :=
  (pairs.map Prod.fst).Nodup ∧ ∀ pair ∈ pairs, map.get? pair.1 = none

theorem fresh_cons {pair : κ × υ} : map.Fresh (pair :: pairs) ↔
    map.get? pair.1 = none ∧ (map.insert pair.1 pair.2).Fresh pairs := by
  have looked : ∀ other ∈ pairs, (map.insert pair.1 pair.2).get? other.1 = none ↔
      pair.1 ≠ other.1 ∧ map.get? other.1 = none := by
    intro other _
    rw [get?_insert]
    split
    · next same => exact ⟨nofun, fun both => (both.1 same).elim⟩
    · next apart => exact ⟨fun absent => ⟨apart, absent⟩, And.right⟩
  have apart : pair.1 ∉ pairs.map Prod.fst ↔ ∀ other ∈ pairs, pair.1 ≠ other.1 := by
    rw [List.mem_map]
    exact ⟨fun absent other member same => absent ⟨other, member, same.symm⟩,
      fun all ⟨other, member, same⟩ => all other member same.symm⟩
  rw [Fresh, Fresh, List.map_cons, List.nodup_cons, List.forall_mem_cons, apart,
    forall₂_congr looked]
  constructor
  · rintro ⟨⟨before, nodup⟩, absent, rest⟩
    exact ⟨absent, nodup, fun other member => ⟨before other member, rest other member⟩⟩
  · rintro ⟨absent, nodup, rest⟩
    exact ⟨⟨fun other member => (rest other member).1, nodup⟩, absent,
      fun other member => (rest other member).2⟩

/-- **Entries are read into a map** when none of their keys is there yet. -/
theorem foldlM_addNew_eq_ok_iff :
    pairs.foldlM addNew map = .ok whole ↔ map.Fresh pairs ∧ map.addAll pairs = whole := by
  induction pairs generalizing map with
  | nil =>
    have fresh : map.Fresh [] := ⟨List.nodup_nil, fun _ member => (List.not_mem_nil member).elim⟩
    exact ⟨fun done => ⟨fresh, Except.ok.inj done⟩, fun both => congrArg Except.ok both.2⟩
  | cons pair pairs ih =>
    rw [List.foldlM_cons, fresh_cons, addNew]
    split
    · next present =>
      constructor
      · intro failed
        cases failed
      · intro both
        rw [contains_eq_false_iff.mpr both.1.1] at present
        cases present
    · next missing =>
      have absent := contains_eq_false_iff.mp (Bool.not_eq_true _ ▸ missing)
      exact ih.trans ⟨fun both => ⟨⟨absent, both.1⟩, both.2⟩, fun both => ⟨both.1.2, both.2⟩⟩

theorem size_addAll (fresh : map.Fresh pairs) :
    (map.addAll pairs).size = map.size + pairs.length := by
  induction pairs generalizing map with
  | nil => rfl
  | cons pair pairs ih =>
    obtain ⟨absent, fresh⟩ := fresh_cons.mp fresh
    show ((map.insert pair.1 pair.2).addAll pairs).size = _
    rw [ih fresh, size_insert absent, List.length_cons]
    omega

/-- **The entries of a map are as they came** when they came in ascending order. -/
theorem entries_ofList_iff : (ofList pairs).entries = pairs ↔
    pairs.Pairwise fun first second => compare first.1 second.1 = .lt := by
  constructor
  · intro same
    exact same ▸ (ofList pairs).ascending
  · intro ascending
    obtain ⟨map, rfl⟩ : ∃ map : OrderedMap κ υ, map.entries = pairs := ⟨⟨pairs, ascending⟩, rfl⟩
    exact congrArg entries (foldlM_addNew_eq_ok_iff.mp foldlM_addNew_entries).2

end OrderedMap

open OrderedMap

/-! ### Maps -/

section Maps

variable {κ υ : Type} [Ord κ] [Std.TransOrd κ] [Std.LawfulEqOrd κ] [DecidableEq κ] [ToWire κ]
  [ToWire υ] {fits : υ → Prop} {pairs : List (κ × υ)}

/-- The bytes of an entry. -/
def spellPair (pair : κ × υ) : Bytes := toWire pair.1 ++ toWire pair.2

/-- What is read into a map are entries that it takes. -/
theorem takes_entriesInto {key : Decoder κ} {value : Decoder υ} {count : Nat} {map : OrderedMap κ υ}
    (keys : Takes key fun read taken => taken = toWire read)
    (values : Takes value fun read taken => fits read ∧ taken = toWire read) :
    Takes (entriesInto key value count map) fun whole taken => ∃ pairs : List (κ × υ),
      pairs.length = count ∧ (∀ pair ∈ pairs, fits pair.2) ∧ pairs.flatMap spellPair = taken ∧
        pairs.foldlM addNew map = .ok whole := by
  induction count generalizing map with
  | zero =>
    rintro input _ rest ⟨⟩
    exact ⟨[], rfl, [], rfl, fun _ member => (List.not_mem_nil member).elim, rfl, rfl⟩
  | succ count ih =>
    intro input whole rest read
    rw [entriesInto] at read
    split at read
    · cases read
    · next found behind keyRead =>
      split at read
      · cases read
      · next given last valueRead =>
        split at read
        · cases read
        · next missing =>
          obtain ⟨_, rfl, rfl⟩ := keys input found behind keyRead
          obtain ⟨_, rfl, fit, rfl⟩ := values behind given last valueRead
          obtain ⟨_, rfl, pairs, long, rest, rfl, added⟩ := ih last whole _ read
          refine ⟨spellPair (found, given) ++ pairs.flatMap spellPair, ?_, (found, given) :: pairs,
            congrArg (· + 1) long, List.forall_mem_cons.mpr ⟨fit, rest⟩, rfl, ?_⟩
          · rw [spellPair, List.append_assoc, List.append_assoc]
          · rw [List.foldlM_cons, addNew, if_neg missing]
            exact added

/-- **What is read as a map** are its entries in some order, no key twice. -/
theorem takes_map [FromWire κ] [FromWire υ]
    (keys : Takes (fromWire : Decoder κ) fun read taken => taken = toWire read)
    (values : Takes (fromWire : Decoder υ) fun read taken => fits read ∧ taken = toWire read) :
    Takes (fromWire : Decoder (OrderedMap κ υ)) fun whole taken => ∃ pairs : List (κ × υ),
      (pairs.length ≤ CompactSize.maxLength ∧ (pairs.map Prod.fst).Nodup ∧
        ∀ pair ∈ pairs, fits pair.2) ∧ spellList spellPair pairs = taken ∧ ofList pairs = whole := by
  refine CompactSize.takes_readLength.bind ?_
  rintro count _ ⟨short, rfl⟩
  refine Takes.after_check ((takes_entriesInto keys values).mono ?_)
  rintro _ _ ⟨pairs, rfl, fit, rfl, added⟩
  obtain ⟨fresh, rfl⟩ := foldlM_addNew_eq_ok_iff.mp added
  exact ⟨pairs, ⟨short, fresh.1, fit⟩, rfl, rfl⟩

theorem fresh_empty (distinct : (pairs.map Prod.fst).Nodup) :
    (OrderedMap.empty : OrderedMap κ υ).Fresh pairs :=
  ⟨distinct, fun _ _ => rfl⟩

theorem reads_pairs [FromWire κ] [FromWire υ] (short : pairs.length ≤ CompactSize.maxLength)
    (distinct : (pairs.map Prod.fst).Nodup)
    (each : ∀ pair ∈ pairs, Faithful pair.1 ∧ Faithful pair.2) :
    Reads fromWire (spellList spellPair pairs) (ofList pairs) := by
  have enough : ∀ pair ∈ pairs, 0 < (spellPair pair).length := by
    intro pair member
    rw [spellPair, List.length_append]
    exact Nat.add_pos_left (each pair member).1.nonempty _
  refine (CompactSize.reads_readLength short).bind
    (.bind_check (checkCount_eq_ok (length_le_flatMap enough)) fun rest => ?_)
  have added : pairs.foldlM addNew .empty = .ok (ofList pairs) :=
    foldlM_addNew_eq_ok_iff.mpr ⟨fresh_empty distinct, rfl⟩
  show entriesInto fromWire fromWire pairs.length .empty
    (pairs.flatMap (fun pair => toWire pair.1 ++ toWire pair.2) ++ rest) = _
  rw [entriesInto_eq fun pair member =>
    ⟨(each pair member).1.reads, (each pair member).2.reads⟩, added]
  rfl

/-- **A map is written as it was spelt** when its entries came in ascending order. -/
theorem agreeIff_map [FromWire κ] [FromWire υ] (distinct : (pairs.map Prod.fst).Nodup)
    (each : ∀ pair ∈ pairs, Faithful pair.1 ∧ Faithful pair.2) :
    AgreeIff (toWire (ofList pairs)) (spellList spellPair pairs)
      (pairs.Pairwise fun first second => compare first.1 second.1 = .lt) := by
  have long : (ofList pairs).entries.length = pairs.length :=
    (size_addAll (fresh_empty distinct)).trans (Nat.zero_add _)
  have apart : ∀ entry ∈ (ofList pairs).entries, ∀ pair ∈ pairs,
      AgreeIff (spellPair entry) (spellPair pair) (entry = pair) := by
    intro entry member pair member'
    have given : entry ∈ pairs := (mem_addAll member).resolve_left List.not_mem_nil
    have keys := (each entry given).1.agreeIff (each pair member').1
    exact (keys.append ((each entry given).2.agreeIff (each pair member').2)).congr
      Prod.ext_iff.symm
  have whole := AgreeIff.flatMap_eq long apart
  show AgreeIff (CompactSize.write (ofList pairs).entries.length ++
    (ofList pairs).entries.flatMap spellPair) _ _
  rw [long]
  exact ((AgreeIff.refl _).append whole).congr ((and_iff_right trivial).trans entries_ofList_iff)

end Maps

end Reorg
