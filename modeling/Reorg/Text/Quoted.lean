/-
**Quoted text.**

A text shown between quotes, for a reader who has to see every character of it. The delimiter, the
backslash and the usual control characters have short escapes; other characters that do not print
by themselves are shown by their number.
-/

import Reorg.Text.Printed

namespace Reorg.Text

/-- A character as it stands between quotes that are written with the given delimiter. -/
def escape (delimiter char : Char) : String :=
  if char = '\x00' then "\\0"
  else if char = '\t' then "\\t"
  else if char = '\r' then "\\r"
  else if char = '\n' then "\\n"
  else if char = '\\' || char = delimiter then "\\" ++ char.toString
  else if isPrinted char then char.toString
  else "\\u\x7b" ++ String.ofList (Nat.toDigits 16 char.toNat) ++ "\x7d"

/-- A character between single quotes. -/
def quoteChar (char : Char) : String :=
  "'" ++ escape '\'' char ++ "'"

/-- A text between double quotes. -/
def quote (text : String) : String :=
  "\"" ++ String.join (text.toList.map (escape '"')) ++ "\""

end Reorg.Text
