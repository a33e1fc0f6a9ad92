/-
**What a described text tells.**

A described text is put together without lengths. Still it can be taken apart: a number ends where
something else than a digit or a sign begins, and everything else ends with a mark of its own. So a
text tells what it shows of a value, whatever is written behind it.

* `Legible`: the text of a value tells what it shows of the value, as long as no digit follows;
* `Legible.list`, `agreeIff_tagged`, `agreeIff_record`: texts that are put together tell what their
  parts tell.
-/

import Mathlib
import Reorg.Hash.Digest
import Reorg.Proofs.Agreement

namespace Reorg

/-! ### Texts in a row -/

namespace Text

/-- The characters that numbers are written with. -/
def isNumeral (character : Char) : Bool :=
  character.isDigit || character == '-'

/-- What is written behind the first of some texts in a row: the others, each behind a comma, and a
closing mark. -/
def behindFirst (closing : List Char) : List String → List Char
  | [] => closing
  | text :: texts => ", ".toList ++ (text.toList ++ behindFirst closing texts)

theorem toList_intercalate_append (text : String) (texts : List String) (closing : List Char) :
    (", ".intercalate (text :: texts)).toList ++ closing =
      text.toList ++ behindFirst closing texts := by
  induction texts generalizing text with
  | nil => rw [String.intercalate_singleton]; rfl
  | cons next texts ih =>
    rw [String.intercalate_cons_cons, String.toList_append, String.toList_append, List.append_assoc,
      ih, behindFirst, List.append_assoc]

theorem breaks_behindFirst {inside : Char → Bool} {closing : List Char} (comma : inside ',' = false)
    (breaks : Breaks inside closing) (texts : List String) :
    Breaks inside (behindFirst closing texts) := by
  cases texts with
  | nil => exact breaks
  | cons => exact ⟨',', rfl, comma⟩

end Text

/-! ### Legible types -/

/-- The characters of the described form of a value. -/
def described {α : Type} [Described α] (value : α) : List Char :=
  (describe value).toList

/-- The described form of a value tells what it shows of the value, and cannot be taken for the end
of a list. -/
structure Legible {α β : Type} [Described α] (shown : α → β) : Prop where
  begins : ∀ value : α, Breaks (· == ']') (described value)
  agree : ∀ value value' : α,
    AgreeBefore Text.isNumeral (described value) (described value') (shown value = shown value')

namespace Legible

variable {α β γ : Type} [Described α]

/-- It does not matter how the things shown are told apart. -/
theorem congr {shown : α → β} {shown' : α → γ} (legible : Legible shown)
    (same : ∀ value value', shown value = shown value' ↔ shown' value = shown' value') :
    Legible shown' :=
  ⟨legible.begins, fun value value' => (legible.agree value value').congr (same value value')⟩

/-- A value that is described as another one, which is its own, is as legible. -/
theorem of_injective [Described β] (legible : Legible (id : β → β)) {stands : α → β}
    (injective : Function.Injective stands)
    (same : ∀ value, described value = described (stands value)) : Legible (id : α → α) where
  begins value := same value ▸ legible.begins (stands value)
  agree value value' := by
    rw [same, same]
    exact (legible.agree _ _).congr injective.eq_iff

/-! ### Numbers -/

theorem isNumeral_of_mem_toDigits {number : Nat} {character : Char}
    (member : character ∈ Nat.toDigits 10 number) : Text.isNumeral character = true := by
  rw [Text.isNumeral, Nat.isDigit_of_mem_toDigits (by decide) (by decide) member, Bool.true_or]

theorem described_ofNat (number : Nat) : described (number : Int) = Nat.toDigits 10 number := by
  show (Nat.repr number).toList = _
  rw [Nat.repr_eq_ofList_toDigits, String.toList_ofList]

theorem described_negSucc (number : Nat) :
    described (Int.negSucc number) = '-' :: Nat.toDigits 10 (number + 1) := by
  show ("-" ++ Nat.repr (number + 1)).toList = _
  rw [String.toList_append, Nat.repr_eq_ofList_toDigits, String.toList_ofList, String.toList_ofList]
  rfl

theorem isNumeral_of_mem_described {number : Int} {character : Char}
    (member : character ∈ described number) : Text.isNumeral character = true := by
  cases number with
  | ofNat number => exact isNumeral_of_mem_toDigits (described_ofNat number ▸ member)
  | negSucc number =>
    rw [described_negSucc] at member
    cases member with
    | head => rfl
    | tail _ member => exact isNumeral_of_mem_toDigits member

theorem described_int_injective : Function.Injective (described : Int → List Char) :=
  fun _ _ same => Int.repr_injective (String.toList_inj.mp same)

theorem int : Legible (id : Int → Int) where
  begins number := by
    obtain ⟨first, rest, written⟩ : ∃ first rest, described number = first :: rest := by
      cases number with
      | ofNat number =>
        exact List.exists_cons_of_length_pos (described_ofNat number ▸ Nat.length_toDigits_pos)
      | negSucc number => exact ⟨_, _, described_negSucc number⟩
    have numeral : Text.isNumeral first = true :=
      isNumeral_of_mem_described (written ▸ List.mem_cons_self)
    refine ⟨first, by rw [written]; rfl, beq_false_of_ne ?_⟩
    rintro rfl
    exact absurd numeral (by decide)
  agree number number' :=
    (AgreeBefore.of_runs (fun _ => isNumeral_of_mem_described)
      fun _ => isNumeral_of_mem_described).congr described_int_injective.eq_iff

theorem nat : Legible (id : Nat → Nat) :=
  int.of_injective Nat.cast_injective fun _ => rfl

theorem byte : Legible (id : UInt8 → UInt8) :=
  nat.of_injective (fun _ _ => UInt8.toNat_inj.mp) fun _ => rfl

theorem version : Legible (id : Int32 → Int32) :=
  int.of_injective (fun _ _ => Int32.toInt_inj.mp) fun _ => rfl

/-! ### Lists -/

variable {shown : α → β}

theorem breaks_behindFirst (values : List α) :
    Breaks Text.isNumeral (Text.behindFirst "]".toList (values.map describe)) :=
  Text.breaks_behindFirst rfl ⟨']', rfl, rfl⟩ _

theorem agreeIff_behindFirst (legible : Legible shown) (values values' : List α) :
    AgreeIff (Text.behindFirst "]".toList (values.map describe))
      (Text.behindFirst "]".toList (values'.map describe))
      (values.map shown = values'.map shown) := by
  -- Rows of different length part where one has the closing mark and the other one a comma.
  induction values generalizing values' with
  | nil =>
    cases values' with
    | nil => exact (AgreeIff.refl _).congr (iff_of_true trivial rfl)
    | cons => exact (AgreeIff.of_head?_ne rfl rfl (by decide)).congr (by simp)
  | cons value values ih =>
    cases values' with
    | nil => exact (AgreeIff.of_head?_ne rfl rfl (by decide)).congr (by simp)
    | cons value' values' =>
      have behind := (legible.agree value value').append (ih values')
        (breaks_behindFirst _) (breaks_behindFirst _)
      exact ((AgreeIff.refl _).append behind).congr (by simp)

theorem described_list (values : List α) :
    described values = "[".toList ++ (", ".intercalate (values.map describe)).toList ++ "]".toList := by
  show ("[" ++ _ ++ "]").toList = _
  rw [String.toList_append, String.toList_append]

theorem described_cons (value : α) (values : List α) :
    described (value :: values) =
      "[".toList ++ (described value ++ Text.behindFirst "]".toList (values.map describe)) := by
  rw [described_list, List.append_assoc, List.map_cons, Text.toList_intercalate_append]
  rfl

/-- **The text of a list tells what the texts of its entries tell**, whatever follows. -/
theorem agreeIff_list (legible : Legible shown) (values values' : List α) :
    AgreeIff (described values) (described values') (values.map shown = values'.map shown) := by
  have empty : described ([] : List α) = "[".toList ++ "]".toList := described_list []
  -- An empty list is closed at once, and no entry begins with the closing mark.
  have ends : ∀ (value : α) (rest : List Char), AgreeIff "]".toList (described value ++ rest) False :=
    fun value rest => by
      obtain ⟨first, begins, other⟩ : Breaks (· == ']') (described value ++ rest) :=
        (legible.begins value).append
      exact AgreeIff.of_head?_ne rfl begins (ne_of_beq_false other).symm
  cases values with
  | nil =>
    cases values' with
    | nil => exact (AgreeIff.refl _).congr (iff_of_true trivial rfl)
    | cons value' values' =>
      rw [empty, described_cons]
      exact ((AgreeIff.refl _).append (ends _ _)).congr (by simp)
  | cons value values =>
    cases values' with
    | nil =>
      rw [empty, described_cons]
      exact ((AgreeIff.refl _).append (ends _ _).symm).congr (by simp)
    | cons value' values' =>
      rw [described_cons, described_cons]
      have entries := (legible.agree value value').append
        (legible.agreeIff_behindFirst values values') (breaks_behindFirst _) (breaks_behindFirst _)
      exact ((AgreeIff.refl _).append entries).congr (by simp)

theorem list (legible : Legible shown) : Legible (List.map shown) where
  begins values := ⟨'[', by rw [described_list]; rfl, rfl⟩
  agree values values' := (legible.agreeIff_list values values').before

/-! ### Names, records and options -/

/-- A text that tells a value whatever follows tells it. -/
theorem of_agreeIff (begins : ∀ value : α, Breaks (· == ']') (described value))
    (agree : ∀ value value' : α,
      AgreeIff (described value) (described value') (shown value = shown value')) :
    Legible shown :=
  ⟨begins, fun value value' => (agree value value').before⟩

end Legible

namespace Text

/-- **A value in parentheses ends at the closing one.** -/
theorem agreeIff_tagged (name : String) {content content' : String} {holds : Prop}
    {inside : Char → Bool} (closes : inside ')' = false)
    (agree : AgreeBefore inside content.toList content'.toList holds) :
    AgreeIff (tagged name content).toList (tagged name content').toList holds := by
  have closed := agree.append (AgreeIff.refl ")".toList) ⟨')', rfl, closes⟩ ⟨')', rfl, closes⟩
  simp only [tagged, String.toList_append, List.append_assoc]
  exact ((AgreeIff.refl _).append ((AgreeIff.refl _).append closed)).congr (by simp)

/-- A field of a record as it is written. -/
def entry (field : String × String) : String := field.1 ++ ": " ++ field.2

theorem toList_record (name : String) (field : String × String) (fields : List (String × String)) :
    (record name (field :: fields)).toList =
      (name.toList ++ " \x7b ".toList) ++
        ((entry field).toList ++ behindFirst " \x7d".toList (fields.map entry)) := by
  have written : record name (field :: fields) =
      name ++ " \x7b " ++ ", ".intercalate (entry field :: fields.map entry) ++ " \x7d" := rfl
  rw [written, String.toList_append, String.toList_append, String.toList_append, List.append_assoc,
    toList_intercalate_append]

/-- A field that two records have, with its text in each and what the texts tell. -/
structure SharedField where
  label : String
  text : String
  text' : String
  alike : Prop
  agree : AgreeBefore isNumeral text.toList text'.toList alike

namespace SharedField

/-- The field as the first of the two texts has it. -/
def first (field : SharedField) : String × String := (field.label, field.text)

/-- The field as the second of the two texts has it. -/
def second (field : SharedField) : String × String := (field.label, field.text')

theorem agree_entry (field : SharedField) :
    AgreeBefore isNumeral (entry field.first).toList (entry field.second).toList field.alike := by
  simp only [entry, first, second, String.toList_append]
  exact field.agree.prepend _

theorem breaks_behindFirst (texts : List String) :
    Breaks isNumeral (behindFirst " \x7d".toList texts) :=
  Text.breaks_behindFirst rfl ⟨' ', rfl, rfl⟩ texts

theorem agreeIff_behindFirst (fields : List SharedField) :
    AgreeIff (behindFirst " \x7d".toList ((fields.map first).map entry))
      (behindFirst " \x7d".toList ((fields.map second).map entry))
      (∀ field ∈ fields, field.alike) := by
  induction fields with
  | nil => exact (AgreeIff.refl _).congr (by simp)
  | cons field fields ih =>
    have behind := field.agree_entry.append ih (breaks_behindFirst _) (breaks_behindFirst _)
    exact ((AgreeIff.refl _).append behind).congr (by simp)

/-- **The text of a record tells what the texts of its fields tell.** -/
theorem agreeIff_record (name : String) (field : SharedField) (fields : List SharedField) :
    AgreeIff (record name ((field :: fields).map first)).toList
      (record name ((field :: fields).map second)).toList
      (∀ shared ∈ field :: fields, shared.alike) := by
  have behind := field.agree_entry.append (agreeIff_behindFirst fields)
    (breaks_behindFirst _) (breaks_behindFirst _)
  rw [List.map_cons, List.map_cons, toList_record, toList_record]
  exact ((AgreeIff.refl _).append behind).congr (by simp)

end SharedField

/-! ### Where texts begin -/

variable {name content : String} {character : Char}

theorem head?_tagged (begins : character ∈ name.toList.head?) :
    character ∈ (tagged name content).toList.head? := by
  rw [tagged, String.toList_append, String.toList_append, String.toList_append, List.append_assoc,
    List.append_assoc, List.head?_append, begins]
  rfl

theorem head?_record {fields : List (String × String)} (begins : character ∈ name.toList.head?) :
    character ∈ (record name fields).toList.head? := by
  rw [record, String.toList_append, String.toList_append, String.toList_append, List.append_assoc,
    List.append_assoc, List.head?_append, begins]
  rfl

end Text

namespace Legible

variable {α β : Type} [Described α] {shown : α → β}

/-- The text of an option tells whether there is a value, and what the text of the value tells. -/
theorem option (legible : Legible shown) : Legible (Option.map shown) := by
  have some_text : ∀ value : α, 'S' ∈ (described (some value)).head? :=
    fun value => Text.head?_tagged rfl
  have none_text : 'N' ∈ (described (none : Option α)).head? := by
    show 'N' ∈ "None".toList.head?
    rfl
  refine of_agreeIff (fun value? => ?_) fun value? value'? => ?_
  · cases value? with
    | none => exact ⟨'N', none_text, rfl⟩
    | some value => exact ⟨'S', some_text value, rfl⟩
  · match value?, value'? with
    | none, none => exact (AgreeIff.refl _).congr (iff_of_true trivial rfl)
    | none, some value' =>
      exact (AgreeIff.of_head?_ne none_text (some_text value') (by decide)).congr (by simp)
    | some value, none =>
      exact (AgreeIff.of_head?_ne (some_text value) none_text (by decide)).congr (by simp)
    | some value, some value' =>
      exact (Text.agreeIff_tagged "Some" rfl (legible.agree value value')).congr (by simp)

end Legible

theorem agreeIff_bool (flag flag' : Bool) :
    AgreeIff (described flag) (described flag') (flag = flag') := by
  have no_begins : 'f' ∈ (described false).head? := rfl
  have yes_begins : 't' ∈ (described true).head? := rfl
  match flag, flag' with
  | false, false | true, true => exact (AgreeIff.refl _).congr (iff_of_true trivial rfl)
  | false, true => exact (AgreeIff.of_head?_ne no_begins yes_begins (by decide)).congr (by simp)
  | true, false => exact (AgreeIff.of_head?_ne yes_begins no_begins (by decide)).congr (by simp)

end Reorg
