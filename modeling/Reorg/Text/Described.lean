/-
**The described form of values.**

Every value that an identifier commits to has a text: numbers in decimal, lists between square
brackets, a record as its name and its fields between braces, an optional value as `Some` or `None`.
-/

namespace Reorg

/-- A type whose values have a described form. -/
class Described (α : Type) where
  describe : α → String

export Described (describe)

namespace Text

/-- A name with one value in parentheses behind it. -/
def tagged (name content : String) : String :=
  name ++ "(" ++ content ++ ")"

/-- A name with named fields between braces. -/
def record (name : String) (fields : List (String × String)) : String :=
  name ++ " \x7b " ++ ", ".intercalate (fields.map fun field => field.1 ++ ": " ++ field.2) ++ " \x7d"

end Text

instance : Described Nat := ⟨fun value => toString value⟩
instance : Described Int := ⟨fun value => toString value⟩
instance : Described UInt8 := ⟨fun value => toString value.toNat⟩
instance : Described Int32 := ⟨fun value => toString value.toInt⟩
instance : Described Bool := ⟨fun value => if value then "true" else "false"⟩

instance {α : Type} [Described α] : Described (List α) :=
  ⟨fun values => "[" ++ ", ".intercalate (values.map describe) ++ "]"⟩

instance {α : Type} [Described α] : Described (Option α) where
  describe
    | none => "None"
    | some value => Text.tagged "Some" (describe value)

end Reorg
