/-
**Strings that come first.**

Two strings that come first agree exactly under a condition when, whatever is put behind them, the
wholes are equal only if the condition holds and the same was put behind both. Such facts compose as
what is written does: field by field, entry by entry. They say that what was written can be told
apart without knowing where it ends.

* `AgreeIff`: the fact, and `AgreeIff.append`, `AgreeIff.flatMap`, `AgreeIff.flatMap_eq`: how it
  composes;
* `AgreeIff.eq_iff`: the strings by themselves;
* `AgreeBefore`: the same of strings that do not say where they end, with a boundary behind them, and
  `AgreeBefore.append`: with the boundary written, they do.
-/

import Mathlib.Logic.Basic

namespace Reorg

variable {α β : Type} {first first' second second' : List α} {holds holds' : Prop}
variable {inside : α → Bool}

/-- With anything behind them, two strings are equal exactly under a condition, and then what is
behind them is the same. -/
def AgreeIff (first second : List α) (holds : Prop) : Prop :=
  ∀ behind behind', first ++ behind = second ++ behind' ↔ holds ∧ behind = behind'

namespace AgreeIff

theorem eq_iff (agree : AgreeIff first second holds) : first = second ↔ holds := by
  have alone := agree [] []
  rwa [List.append_nil, List.append_nil, and_iff_left rfl] at alone

theorem congr (agree : AgreeIff first second holds) (same : holds ↔ holds') :
    AgreeIff first second holds' :=
  fun behind behind' => (agree behind behind').trans (and_congr_left' same)

theorem symm (agree : AgreeIff first second holds) : AgreeIff second first holds := by
  intro behind behind'
  rw [eq_comm, agree, eq_comm (a := behind)]

theorem refl (string : List α) : AgreeIff string string True := fun behind behind' => by
  rw [List.append_cancel_left_eq, true_and]

/-- Strings of one length agree when they are equal. -/
theorem of_length (long : first.length = second.length) :
    AgreeIff first second (first = second) := by
  intro behind behind'
  constructor
  · exact fun same => List.append_inj same long
  · rintro ⟨rfl, rfl⟩
    rfl

/-- **What is written in a row agrees when its parts do.** -/
theorem append (agree : AgreeIff first second holds) (agree' : AgreeIff first' second' holds') :
    AgreeIff (first ++ first') (second ++ second') (holds ∧ holds') := by
  intro behind behind'
  rw [List.append_assoc, List.append_assoc, agree, agree', and_assoc]

/-- Strings that begin with different items never agree. -/
theorem of_head?_ne {item item' : α} (begins : item ∈ first.head?) (begins' : item' ∈ second.head?)
    (differ : item ≠ item') : AgreeIff first second False := by
  intro behind behind'
  refine ⟨fun same => (differ ?_).elim, fun both => both.1.elim⟩
  have heads := congrArg List.head? same
  rw [List.head?_append, List.head?_append, begins, begins'] at heads
  exact Option.some.inj heads

/-- Strings whose beginnings never agree never agree. -/
theorem append_of_not (agree : AgreeIff first second holds) (fails : ¬ holds) :
    AgreeIff (first ++ first') (second ++ second') False := by
  intro behind behind'
  rw [List.append_assoc, List.append_assoc, agree]
  exact ⟨fun both => (fails both.1).elim, fun both => both.1.elim⟩

/-- Two ways to write the same items agree when they agree on each item. -/
theorem flatMap {items : List β} {write write' : β → List α} {holds : β → Prop}
    (each : ∀ item ∈ items, AgreeIff (write item) (write' item) (holds item)) :
    AgreeIff (items.flatMap write) (items.flatMap write') (∀ item ∈ items, holds item) := by
  induction items with
  | nil => exact (refl []).congr ⟨fun _ _ member => (List.not_mem_nil member).elim, fun _ => trivial⟩
  | cons item items ih =>
    rw [List.flatMap_cons, List.flatMap_cons]
    have rest := ih fun other member => each other (List.mem_cons_of_mem _ member)
    exact ((each item List.mem_cons_self).append rest).congr List.forall_mem_cons.symm

/-- **As many items, written in the same way, agree when they are the same items.** -/
theorem flatMap_eq {write : β → List α} {items items' : List β}
    (long : items.length = items'.length)
    (each : ∀ item ∈ items, ∀ item' ∈ items', AgreeIff (write item) (write item') (item = item')) :
    AgreeIff (items.flatMap write) (items'.flatMap write) (items = items') := by
  induction items generalizing items' with
  | nil =>
    rw [List.length_eq_zero_iff.mp long.symm]
    exact (refl []).congr ⟨fun _ => rfl, fun _ => trivial⟩
  | cons item items ih =>
    obtain ⟨item', items', rfl⟩ := List.exists_cons_of_length_eq_add_one long.symm
    rw [List.flatMap_cons, List.flatMap_cons]
    have rest := ih (Nat.succ.inj long) fun other member other' member' =>
      each other (List.mem_cons_of_mem _ member) other' (List.mem_cons_of_mem _ member')
    exact ((each item List.mem_cons_self item' List.mem_cons_self).append rest).congr
      List.cons_eq_cons.symm

end AgreeIff

/-! ### In front of a boundary -/

/-- A string that begins with an item outside a class: no run of the class goes on into it. -/
def Breaks (inside : α → Bool) (string : List α) : Prop :=
  ∃ item ∈ string.head?, inside item = false

namespace Breaks

theorem append (breaks : Breaks inside first) : Breaks inside (first ++ second) := by
  obtain ⟨item, begins, outside⟩ := breaks
  exact ⟨item, by rw [List.head?_append, begins, Option.some_or]; rfl, outside⟩

/-- A run of a class in front of a string that breaks it is the longest one. -/
theorem takeWhile_append (run : ∀ item ∈ first, inside item = true) (breaks : Breaks inside second) :
    (first ++ second).takeWhile inside = first := by
  obtain ⟨item, begins, outside⟩ := breaks
  obtain ⟨rest, rfl⟩ := List.head?_eq_some_iff.mp begins
  rw [List.takeWhile_append_of_pos run, List.takeWhile_cons_of_neg (by rw [outside]; decide),
    List.append_nil]

end Breaks

/-- With anything behind them that breaks runs of a class, two strings are equal exactly under a
condition, and then what is behind them is the same. -/
def AgreeBefore (inside : α → Bool) (first second : List α) (holds : Prop) : Prop :=
  ∀ behind behind', Breaks inside behind → Breaks inside behind' →
    (first ++ behind = second ++ behind' ↔ holds ∧ behind = behind')

theorem AgreeIff.before (agree : AgreeIff first second holds) :
    AgreeBefore inside first second holds :=
  fun behind behind' _ _ => agree behind behind'

namespace AgreeBefore

theorem congr (agree : AgreeBefore inside first second holds) (same : holds ↔ holds') :
    AgreeBefore inside first second holds' :=
  fun behind behind' breaks breaks' =>
    (agree behind behind' breaks breaks').trans (and_congr_left' same)

/-- Runs of a class agree when they are equal: where a run ends is where its class is left. -/
theorem of_runs (run : ∀ item ∈ first, inside item = true)
    (run' : ∀ item ∈ second, inside item = true) :
    AgreeBefore inside first second (first = second) := by
  intro behind behind' breaks breaks'
  constructor
  · intro same
    have runs := congrArg (List.takeWhile inside) same
    rw [breaks.takeWhile_append run, breaks'.takeWhile_append run'] at runs
    subst runs
    exact ⟨rfl, List.append_cancel_left same⟩
  · rintro ⟨rfl, rfl⟩
    rfl

/-- The same text in front changes nothing. -/
theorem prepend (agree : AgreeBefore inside first second holds) (front : List α) :
    AgreeBefore inside (front ++ first) (front ++ second) holds := by
  intro behind behind' breaks breaks'
  rw [List.append_assoc, List.append_assoc, List.append_cancel_left_eq, agree _ _ breaks breaks']

/-- **With a boundary written behind them, strings say where they end.** -/
theorem append (agree : AgreeBefore inside first second holds)
    (agree' : AgreeIff first' second' holds') (breaks : Breaks inside first')
    (breaks' : Breaks inside second') :
    AgreeIff (first ++ first') (second ++ second') (holds ∧ holds') := by
  intro behind behind'
  rw [List.append_assoc, List.append_assoc, agree _ _ breaks.append breaks'.append, agree', and_assoc]

end AgreeBefore

end Reorg
