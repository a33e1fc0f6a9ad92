/-
**Laws of ordered maps.**

How changes of a map cancel, what a map looks like after all its values are changed, and that a map
is rebuilt by inserting its entries one after the other.

* `insert_insert`, `insert_erase`, `insert_eq_self`, `erase_insert`: changes that cancel;
* `get?_mapValues`: a look-up after all values are changed;
* `foldlM_insert_entries`: the entries of a map, inserted in order, give the map;
* `addAll`, `mem_keys_addAll`: a map with some more entries.
-/

import Mathlib.Logic.Basic
import Reorg.OrderedMap

set_option linter.unusedSectionVars false

namespace Reorg.OrderedMap

variable {κ υ : Type} [Ord κ] [Std.TransOrd κ] [Std.LawfulEqOrd κ]

/-! ### Changes that cancel -/

section Changes

variable [DecidableEq κ] {map : OrderedMap κ υ} {key : κ} {value other : υ}

theorem insert_insert : (map.insert key value).insert key other = map.insert key other := by
  refine ext_get? fun looked => ?_
  rw [get?_insert, get?_insert, get?_insert]
  split <;> rfl

theorem insert_erase : (map.erase key).insert key value = map.insert key value := by
  refine ext_get? fun looked => ?_
  rw [get?_insert, get?_insert, get?_erase]
  split <;> rfl

/-- Giving a key the value that it has changes nothing. -/
theorem insert_eq_self (present : map.get? key = some value) : map.insert key value = map := by
  refine ext_get? fun looked => ?_
  rw [get?_insert]
  split
  · next same => rw [← same, present]
  · rfl

theorem erase_insert (absent : map.get? key = none) : (map.insert key value).erase key = map := by
  refine ext_get? fun looked => ?_
  rw [get?_erase, get?_insert]
  split
  · next same => rw [← same, absent]
  · rfl

theorem erase_of_absent (absent : map.get? key = none) : map.erase key = map := by
  refine ext_get? fun looked => ?_
  rw [get?_erase]
  split
  · next same => rw [← same, absent]
  · rfl

theorem get?_insert_self : (map.insert key value).get? key = some value := by
  rw [get?_insert, if_pos rfl]

theorem get?_insert_ne {looked : κ} (different : key ≠ looked) :
    (map.insert key value).get? looked = map.get? looked := by
  rw [get?_insert, if_neg different]

theorem get?_erase_self : (map.erase key).get? key = none := by
  rw [get?_erase, if_pos rfl]

end Changes

/-! ### Entries -/

section Entries

variable {map : OrderedMap κ υ}

theorem contains_eq_false_iff {key : κ} : map.contains key = false ↔ map.get? key = none := by
  rw [contains, Option.isSome_eq_false_iff, Option.isNone_iff_eq_none]

/-- What holds of every look-up holds of every entry. -/
theorem forall_get?_iff (map : OrderedMap κ υ) (holds : κ → υ → Prop) :
    (∀ key value, map.get? key = some value → holds key value) ↔
      ∀ entry ∈ map.entries, holds entry.1 entry.2 := by
  simp only [get?_eq_some_iff, Prod.forall]

/-- No key occurs twice among the entries. -/
theorem keys_nodup (map : OrderedMap κ υ) : (map.entries.map Prod.fst).Nodup := by
  rw [List.Nodup, List.pairwise_map]
  exact map.ascending.imp fun before => ne_of_before before

theorem size_insert_le (map : OrderedMap κ υ) (key : κ) (value : υ) :
    (map.insert key value).size ≤ map.size + 1 := by
  have longer : ∀ entries : List (κ × υ),
      (insertInto key value entries).length ≤ entries.length + 1 := by
    intro entries
    induction entries with
    | nil => exact Nat.le_refl 1
    | cons first rest ih =>
      unfold insertInto
      split
      · exact Nat.le_refl _
      · exact Nat.le_succ _
      · exact Nat.succ_le_succ ih
  exact longer map.entries

/-- An entry behind all others goes to the end. -/
theorem insert_entries_of_above {key : κ} {value : υ}
    (above : ∀ entry ∈ map.entries, compare entry.1 key = .lt) :
    (map.insert key value).entries = map.entries ++ [(key, value)] := by
  have appended : ∀ entries : List (κ × υ), (∀ entry ∈ entries, compare entry.1 key = .lt) →
      insertInto key value entries = entries ++ [(key, value)] := by
    intro entries above
    induction entries with
    | nil => rfl
    | cons first rest ih =>
      have after : compare key first.1 = .gt :=
        Std.OrientedCmp.gt_iff_lt.mpr (above first List.mem_cons_self)
      rw [insertInto, after, List.cons_append,
        ← ih fun entry member => above entry (List.mem_cons_of_mem _ member)]
  exact appended map.entries above

theorem ext_entries {first second : OrderedMap κ υ} (same : first.entries = second.entries) :
    first = second := by
  cases first
  cases second
  cases same
  rfl

/-- **A map is rebuilt entry by entry**, inside whatever holds it. Once the entries in front are in
the map, inserting one of those left goes to its end, and meets no entry of the same key. -/
theorem foldlM_insert_entries {ε σ : Type} {step : σ → κ × υ → Except ε σ}
    (holding : OrderedMap κ υ → σ)
    (accepts : ∀ built : OrderedMap κ υ, ∀ entry, built.get? entry.1 = none →
      step (holding built) entry = .ok (holding (built.insert entry.1 entry.2))) :
    map.entries.foldlM step (holding .empty) = .ok (holding map) := by
  have rebuilt : ∀ (left : List (κ × υ)) (built : OrderedMap κ υ),
      built.entries ++ left = map.entries →
        left.foldlM step (holding built) = .ok (holding map) := by
    intro left
    induction left with
    | nil =>
      intro built whole
      rw [List.append_nil] at whole
      rw [ext_entries whole]
      rfl
    | cons entry left ih =>
      intro built whole
      have ascending := map.ascending
      rw [← whole, List.pairwise_append] at ascending
      have above : ∀ front ∈ built.entries, compare front.1 entry.1 = .lt :=
        fun front member => ascending.2.2 front member entry List.mem_cons_self
      have absent : built.get? entry.1 = none := by
        refine Option.eq_none_iff_forall_ne_some.mpr fun value present => ?_
        exact ne_of_before (above _ (get?_eq_some_iff.mp present)) rfl
      rw [List.foldlM_cons, accepts built entry absent]
      refine ih _ ?_
      rw [insert_entries_of_above above, List.append_assoc]
      exact whole
  exact rebuilt map.entries .empty rfl

end Entries

/-! ### Adding entries -/

section More

variable {map : OrderedMap κ υ} {pairs : List (κ × υ)} {key : κ} {value : υ}

theorem size_insert (absent : map.get? key = none) : (map.insert key value).size = map.size + 1 := by
  have longer : ∀ entries : List (κ × υ), (∀ entry ∈ entries, entry.1 ≠ key) →
      (insertInto key value entries).length = entries.length + 1 := by
    intro entries apart
    induction entries with
    | nil => rfl
    | cons first rest ih =>
      unfold insertInto
      split
      · rfl
      · next same =>
        exact (apart first List.mem_cons_self (Std.LawfulEqCmp.eq_of_compare same).symm).elim
      · exact congrArg (· + 1) (ih fun entry member => apart entry (List.mem_cons_of_mem _ member))
  refine longer map.entries fun entry member same => ?_
  have present : map.get? entry.1 = some entry.2 := get?_eq_some_iff.mpr member
  rw [same, absent] at present
  cases present

/-- A map with some more entries, one after the other. -/
def addAll (map : OrderedMap κ υ) (pairs : List (κ × υ)) : OrderedMap κ υ :=
  pairs.foldl (fun map pair => map.insert pair.1 pair.2) map

theorem mem_addAll {entry : κ × υ} (member : entry ∈ (map.addAll pairs).entries) :
    entry ∈ map.entries ∨ entry ∈ pairs := by
  induction pairs generalizing map with
  | nil => exact .inl member
  | cons pair pairs ih =>
    rcases ih member with old | new
    · rcases mem_insertInto old with rfl | old
      · exact .inr List.mem_cons_self
      · exact .inl old
    · exact .inr (List.mem_cons_of_mem _ new)

theorem mem_keys_iff : key ∈ map.keys ↔ (map.get? key).isSome := by
  rw [keys, List.mem_map, Option.isSome_iff_exists]
  constructor
  · rintro ⟨⟨_, value⟩, member, rfl⟩
    exact ⟨value, get?_eq_some_iff.mpr member⟩
  · rintro ⟨value, held⟩
    exact ⟨(key, value), get?_eq_some_iff.mp held, rfl⟩

/-- The keys of a map come in ascending order. -/
theorem keys_ascending : map.keys.Pairwise fun first second => compare first second = .lt :=
  List.pairwise_map.mpr map.ascending

/-- **The keys of a map with more entries** are those of the map and those of the entries. -/
theorem mem_keys_addAll [DecidableEq κ] :
    key ∈ (map.addAll pairs).keys ↔ key ∈ map.keys ∨ key ∈ pairs.map Prod.fst := by
  induction pairs generalizing map with
  | nil => exact (or_iff_left List.not_mem_nil).symm
  | cons pair pairs ih =>
    have one : key ∈ (map.insert pair.1 pair.2).keys ↔ key ∈ map.keys ∨ key = pair.1 := by
      rw [mem_keys_iff, mem_keys_iff, get?_insert]
      split
      · next here => exact ⟨fun _ => .inr here.symm, fun _ => rfl⟩
      · next apart => exact (or_iff_left (Ne.symm apart)).symm
    show key ∈ ((map.insert pair.1 pair.2).addAll pairs).keys ↔ _
    rw [ih, one, List.map_cons, List.mem_cons, or_assoc]

end More

/-! ### Changing all values -/

section Values

variable {ω : Type}

/-- The map with every value changed, each by a function of its key and itself. -/
def mapValues (change : κ → υ → ω) (map : OrderedMap κ υ) : OrderedMap κ ω where
  entries := map.entries.map fun entry => (entry.1, change entry.1 entry.2)
  ascending := List.pairwise_map.mpr map.ascending

theorem get?_mapValues {change : κ → υ → ω} {map : OrderedMap κ υ} {key : κ} :
    (map.mapValues change).get? key = (map.get? key).map (change key) := by
  refine Option.ext fun found => ?_
  rw [get?_eq_some_iff, Option.map_eq_some_iff, mapValues, List.mem_map]
  constructor
  · rintro ⟨⟨_, value⟩, member, ⟨⟩⟩
    exact ⟨value, get?_eq_some_iff.mpr member, rfl⟩
  · rintro ⟨value, present, rfl⟩
    exact ⟨(key, value), get?_eq_some_iff.mp present, rfl⟩

theorem keys_mapValues {change : κ → υ → ω} {map : OrderedMap κ υ} :
    (map.mapValues change).keys = map.keys := by
  rw [keys, mapValues, List.map_map]
  rfl

/-- Where no value is changed the map is the same. -/
theorem mapValues_eq_self {change : κ → υ → υ} {map : OrderedMap κ υ}
    (kept : ∀ key value, map.get? key = some value → change key value = value) :
    map.mapValues change = map := by
  refine ext_get? fun key => ?_
  rw [get?_mapValues]
  cases held : map.get? key with
  | none => rfl
  | some value => exact congrArg some (kept key value held)

end Values

end Reorg.OrderedMap
