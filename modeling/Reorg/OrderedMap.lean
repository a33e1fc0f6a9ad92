/-
**Maps held in ascending order of their keys.**

A map is the list of its entries, and the list is strictly ascending by key, so two maps with the
same entries are the same map and walking a map visits its keys in order.

* `get?_eq_some_iff`: a key has a value exactly when the pair is an entry;
* `get?_insert`, `get?_erase`: what a look-up sees after a change;
* `ext_get?`: maps that answer every look-up alike are equal.
-/

namespace Reorg

/-- A map from keys to values, as the strictly ascending list of its entries. -/
structure OrderedMap (κ υ : Type) [Ord κ] where
  entries : List (κ × υ)
  ascending : entries.Pairwise fun first second => compare first.1 second.1 = .lt
deriving DecidableEq

namespace OrderedMap

variable {κ υ : Type} [Ord κ]

/-- The map without entries. -/
def empty : OrderedMap κ υ := ⟨[], .nil⟩

instance : EmptyCollection (OrderedMap κ υ) := ⟨empty⟩
instance : Inhabited (OrderedMap κ υ) := ⟨empty⟩

/-- The keys, ascending. -/
def keys (map : OrderedMap κ υ) : List κ := map.entries.map Prod.fst

/-- The values, in ascending order of their keys. -/
def values (map : OrderedMap κ υ) : List υ := map.entries.map Prod.snd

/-- The number of entries. -/
def size (map : OrderedMap κ υ) : Nat := map.entries.length

/-- Whether there are no entries. -/
def isEmpty (map : OrderedMap κ υ) : Bool := map.entries.isEmpty

/-- The value at a key. -/
def get? (map : OrderedMap κ υ) (key : κ) : Option υ :=
  (map.entries.find? fun entry => compare entry.1 key == .eq).map Prod.snd

/-- Whether there is an entry of a key. -/
def contains (map : OrderedMap κ υ) (key : κ) : Bool :=
  (map.get? key).isSome

/-- Puts an entry into its place in an ascending list, over any entry of the same key. -/
def insertInto (key : κ) (value : υ) : List (κ × υ) → List (κ × υ)
  | [] => [(key, value)]
  | entry :: rest =>
    match compare key entry.1 with
    | .lt => (key, value) :: entry :: rest
    | .eq => (key, value) :: rest
    | .gt => entry :: insertInto key value rest

theorem mem_insertInto {key : κ} {value : υ} {entries : List (κ × υ)} {entry : κ × υ}
    (present : entry ∈ insertInto key value entries) : entry = (key, value) ∨ entry ∈ entries := by
  induction entries with
  | nil => simpa [insertInto] using present
  | cons first rest ih =>
    unfold insertInto at present
    split at present <;> grind

variable [Std.TransOrd κ] [Std.LawfulEqOrd κ]

omit [Std.TransOrd κ] in
theorem ne_of_before {first second : κ} (before : compare first second = .lt) :
    first ≠ second := by
  rintro rfl
  have same : compare first first = .eq := Std.ReflCmp.compare_self
  rw [same] at before
  cases before

theorem insertInto_ascending (key : κ) (value : υ) {entries : List (κ × υ)}
    (ascending : entries.Pairwise fun first second => compare first.1 second.1 = .lt) :
    (insertInto key value entries).Pairwise fun first second =>
      compare first.1 second.1 = .lt := by
  induction entries with
  | nil => simp [insertInto]
  | cons first rest ih =>
    obtain ⟨below, ascending'⟩ := List.pairwise_cons.mp ascending
    unfold insertInto
    split
    · next before =>
      refine List.pairwise_cons.mpr ⟨fun entry present => ?_, ascending⟩
      rcases List.mem_cons.mp present with rfl | later
      · exact before
      · exact Std.TransCmp.lt_trans before (below entry later)
    · next same =>
      refine List.pairwise_cons.mpr ⟨fun entry later => ?_, ascending'⟩
      rw [Std.LawfulEqCmp.eq_of_compare same]
      exact below entry later
    · next after =>
      refine List.pairwise_cons.mpr ⟨fun entry present => ?_, ih ascending'⟩
      rcases mem_insertInto present with rfl | later
      · exact Std.OrientedCmp.gt_iff_lt.mp after
      · exact below entry later

/-- Gives a key a value, in place of the one it may have. -/
def insert (map : OrderedMap κ υ) (key : κ) (value : υ) : OrderedMap κ υ :=
  ⟨insertInto key value map.entries, insertInto_ascending key value map.ascending⟩

/-- Takes a key out of the map. -/
def erase (map : OrderedMap κ υ) (key : κ) : OrderedMap κ υ :=
  ⟨map.entries.filter fun entry => compare entry.1 key != .eq, map.ascending.filter _⟩

/-- The map of a list of pairs; a later pair wins over an earlier one of the same key. -/
def ofList (pairs : List (κ × υ)) : OrderedMap κ υ :=
  pairs.foldl (fun map pair => map.insert pair.1 pair.2) empty

/-! ### Look-up -/

omit [Std.TransOrd κ] in
theorem get?_eq_some_iff {map : OrderedMap κ υ} {key : κ} {value : υ} :
    map.get? key = some value ↔ (key, value) ∈ map.entries := by
  obtain ⟨entries, ascending⟩ := map
  simp only [get?, Option.map_eq_some_iff]
  induction entries with
  | nil => simp
  | cons first rest ih =>
    obtain ⟨below, ascending'⟩ := List.pairwise_cons.mp ascending
    specialize ih ascending'
    by_cases same : first.1 = key
    · have found : (compare first.1 key == .eq) = true := by simp [same, Std.ReflCmp.compare_self]
      simp only [List.find?_cons, found]
      constructor
      · rintro ⟨entry, ⟨⟩, rfl⟩
        simp [← same]
      · intro present
        rcases List.mem_cons.mp present with rfl | later
        · exact ⟨_, rfl, rfl⟩
        · exact absurd same (ne_of_before (below _ later))
    · have skipped : (compare first.1 key == .eq) = false := by
        simpa [Std.LawfulEqCmp.compare_eq_iff_eq] using same
      simp only [List.find?_cons, skipped]
      rw [ih, List.mem_cons]
      constructor
      · exact .inr
      · rintro (rfl | later)
        · exact absurd rfl same
        · exact later

theorem mem_insertInto_iff [DecidableEq κ] {key : κ} {value : υ} {entries : List (κ × υ)}
    (ascending : entries.Pairwise fun first second => compare first.1 second.1 = .lt)
    {other : κ} {found : υ} :
    (other, found) ∈ insertInto key value entries ↔
      if key = other then value = found else (other, found) ∈ entries := by
  induction entries with
  | nil => simp [insertInto]; grind
  | cons first rest ih =>
    obtain ⟨below, ascending'⟩ := List.pairwise_cons.mp ascending
    have apart : ∀ entry ∈ rest, first.1 ≠ entry.1 :=
      fun entry later => ne_of_before (below entry later)
    unfold insertInto
    split
    · next before =>
      have absent : ∀ entry ∈ first :: rest, key ≠ entry.1 := by
        intro entry present
        rcases List.mem_cons.mp present with rfl | later
        · exact ne_of_before before
        · exact ne_of_before (Std.TransCmp.lt_trans before (below entry later))
      grind
    · next same =>
      have same := Std.LawfulEqCmp.eq_of_compare same
      grind
    · next after =>
      have differs : key ≠ first.1 := (ne_of_before (Std.OrientedCmp.gt_iff_lt.mp after)).symm
      rw [List.mem_cons, ih ascending']
      grind

theorem get?_insert [DecidableEq κ] {map : OrderedMap κ υ} {key other : κ} {value : υ} :
    (map.insert key value).get? other = if key = other then some value else map.get? other := by
  apply Option.ext
  intro found
  rw [get?_eq_some_iff, insert, mem_insertInto_iff map.ascending]
  split
  · simp
  · rw [get?_eq_some_iff]

omit [Std.TransOrd κ] in
theorem get?_erase [DecidableEq κ] {map : OrderedMap κ υ} {key other : κ} :
    (map.erase key).get? other = if key = other then none else map.get? other := by
  apply Option.ext
  intro found
  rw [get?_eq_some_iff, erase, List.mem_filter, ← get?_eq_some_iff]
  simp only [bne_iff_ne, ne_eq, Std.LawfulEqCmp.compare_eq_iff_eq]
  split <;> grind

omit [Std.TransOrd κ] [Std.LawfulEqOrd κ] in
@[simp] theorem get?_empty {key : κ} : (empty : OrderedMap κ υ).get? key = none := rfl

omit [Std.TransOrd κ] [Std.LawfulEqOrd κ] in
theorem contains_iff {map : OrderedMap κ υ} {key : κ} :
    map.contains key = true ↔ ∃ value, map.get? key = some value := by
  simp [contains, Option.isSome_iff_exists]

/-! ### Equality -/

private theorem entries_eq_of_mem_iff {first second : List (κ × υ)}
    (firstAscending : first.Pairwise fun a b => compare a.1 b.1 = .lt)
    (secondAscending : second.Pairwise fun a b => compare a.1 b.1 = .lt)
    (alike : ∀ entry, entry ∈ first ↔ entry ∈ second) : first = second := by
  have irreflexive (entry : κ × υ) : compare entry.1 entry.1 ≠ .lt :=
    fun before => ne_of_before before rfl
  have asymmetric (a b : κ × υ) (less : compare a.1 b.1 = .lt) : compare b.1 a.1 ≠ .lt := by
    have swapped : compare b.1 a.1 = (compare a.1 b.1).swap := Std.OrientedCmp.eq_swap
    simp [swapped, less]
  induction first generalizing second with
  | nil =>
    cases second with
    | nil => rfl
    | cons entry rest => exact absurd ((alike entry).mpr (by simp)) (by simp)
  | cons head rest ih =>
    cases second with
    | nil => exact absurd ((alike head).mp (by simp)) (by simp)
    | cons head' rest' =>
      obtain ⟨below, ascending⟩ := List.pairwise_cons.mp firstAscending
      obtain ⟨below', ascending'⟩ := List.pairwise_cons.mp secondAscending
      have same : head = head' := by
        rcases List.mem_cons.mp ((alike head).mp (by simp)) with rfl | later'
        · rfl
        · rcases List.mem_cons.mp ((alike head').mpr (by simp)) with rfl | later
          · rfl
          · exact absurd (below _ later) (asymmetric _ _ (below' _ later'))
      subst same
      congr 1
      refine ih ascending ascending' fun entry => ?_
      constructor
      · intro later
        rcases List.mem_cons.mp ((alike entry).mp (List.mem_cons_of_mem _ later)) with rfl | later'
        · exact absurd (below _ later) (irreflexive _)
        · exact later'
      · intro later'
        rcases List.mem_cons.mp ((alike entry).mpr (List.mem_cons_of_mem _ later')) with rfl | later
        · exact absurd (below' _ later') (irreflexive _)
        · exact later

theorem ext_get? {first second : OrderedMap κ υ}
    (alike : ∀ key, first.get? key = second.get? key) : first = second := by
  obtain ⟨entries, ascending⟩ := first
  obtain ⟨entries', ascending'⟩ := second
  congr 1
  refine entries_eq_of_mem_iff ascending ascending' fun entry => ?_
  have looked := alike entry.1
  have left : get? ⟨entries, ascending⟩ entry.1 = some entry.2 ↔ entry ∈ entries :=
    get?_eq_some_iff
  have right : get? ⟨entries', ascending'⟩ entry.1 = some entry.2 ↔ entry ∈ entries' :=
    get?_eq_some_iff
  rw [looked] at left
  exact left.symm.trans right

end OrderedMap

end Reorg
