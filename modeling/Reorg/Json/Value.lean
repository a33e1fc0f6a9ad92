/-
**JSON texts.**

`Json` is the tree of a text to be written. It is written either without blanks or, for people, with
one member or item a line.
-/

namespace Reorg

/-- A JSON value whose numbers are integers. -/
inductive Json
  | null
  | bool (value : Bool)
  | number (value : Int)
  | string (text : String)
  | array (items : List Json)
  | object (members : List (String × Json))

namespace Json

/-- A character inside a JSON string. -/
def escape (char : Char) : String :=
  if char = '"' then "\\\""
  else if char = '\\' then "\\\\"
  else if char = '\n' then "\\n"
  else if char = '\r' then "\\r"
  else if char = '\t' then "\\t"
  else if char = '\x08' then "\\b"
  else if char = '\x0c' then "\\f"
  else if char.toNat < 32 then
    "\\u00" ++ String.ofList [Nat.digitChar (char.toNat / 16), Nat.digitChar (char.toNat % 16)]
  else char.toString

/-- A text as a JSON string. -/
def quote (text : String) : String :=
  "\"" ++ String.join (text.toList.map escape) ++ "\""

/-- Texts between an opening and a closing mark, with commas between them. -/
def enclose (opening closing : String) (parts : List String) : String :=
  opening ++ ",".intercalate parts ++ closing

theorem sizeOf_member_lt {member : String × Json} {members : List (String × Json)}
    (present : member ∈ members) : sizeOf member.2 < 1 + sizeOf members := by
  have bounded := List.sizeOf_lt_of_mem present
  cases member
  simp only [Prod.mk.sizeOf_spec] at bounded ⊢
  omega

/-- A value as text without blanks. -/
def compact : Json → String
  | .null => "null"
  | .bool value => if value then "true" else "false"
  | .number value => toString value
  | .string text => quote text
  | .array items => enclose "[" "]" (items.map fun item => compact item)
  | .object members =>
    enclose "\x7b" "\x7d" (members.map fun member => quote member.1 ++ ":" ++ compact member.2)
termination_by value => sizeOf value
decreasing_by
  · have := List.sizeOf_lt_of_mem ‹_ ∈ items›
    simp only [array.sizeOf_spec]
    omega
  · simpa only [object.sizeOf_spec] using sizeOf_member_lt ‹_ ∈ members›

/-- The start of a line at some depth: two blanks for each level. -/
def newLine (depth : Nat) : String :=
  "\n" ++ String.ofList (List.replicate (2 * depth) ' ')

/-- Texts between an opening and a closing mark, each on a line of its own. -/
def encloseLines (depth : Nat) (opening closing : String) (parts : List String) : String :=
  if parts.isEmpty then opening ++ closing
  else
    opening ++ ",".intercalate (parts.map fun part => newLine (depth + 1) ++ part) ++
      newLine depth ++ closing

/-- A value as text at some depth, with one member or item a line. -/
def prettyAt (depth : Nat) : Json → String
  | .array items => encloseLines depth "[" "]" (items.map fun item => prettyAt (depth + 1) item)
  | .object members =>
    encloseLines depth "\x7b" "\x7d"
      (members.map fun member => quote member.1 ++ ": " ++ prettyAt (depth + 1) member.2)
  | value => compact value
termination_by value => sizeOf value
decreasing_by
  · have := List.sizeOf_lt_of_mem ‹_ ∈ items›
    simp only [array.sizeOf_spec]
    omega
  · simpa only [object.sizeOf_spec] using sizeOf_member_lt ‹_ ∈ members›

/-- A value as text with one member or item a line. -/
def pretty (value : Json) : String := prettyAt 0 value

end Json

end Reorg
