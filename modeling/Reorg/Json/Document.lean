/-
**Reading JSON texts.**

A document is the tree of a text that was read. It keeps only what a reader of records may ask for:
a number counts when it is written as an integer, and a string when its escapes make up characters;
anything else of the right form may stand where nobody looks.

* `Document.ofText?`: the document of a text, if the text is one value and nothing else;
* `integer?`, `text?`, `fields?`: the readers for the parts of a record.
-/

namespace Reorg

/-- A JSON value as read. -/
inductive Document
  | null
  | bool (value : Bool)
  /-- A number, with its value if it is written as an integer. -/
  | number (value? : Option Int)
  /-- A string, with its text if its escapes make up characters. -/
  | string (text? : Option String)
  | array (items : List Document)
  | object (members : List (Option String × Document))

namespace Document

/-! ### Tokens -/

/-- The characters that may stand between tokens. -/
def isBlank (char : Char) : Bool :=
  char == ' ' || char == '\n' || char == '\t' || char == '\r'

/-- What is left of a text from the first character that is not blank. -/
def skipBlanks (text : List Char) : List Char := text.dropWhile isBlank

/-- What is left of a text behind a given beginning. -/
def skip? (beginning text : List Char) : Option (List Char) :=
  if beginning.isPrefixOf text then some (text.drop beginning.length) else none

/-- The digits at the front of a text, of which there has to be one, and what is left. -/
def digits? (text : List Char) : Option (List Char × List Char) :=
  let digits := text.takeWhile Char.isDigit
  if digits.isEmpty then none else some (digits, text.drop digits.length)

/-- What is left of a text behind a fraction, and whether there is one. -/
def skipFraction? (text : List Char) : Option (Bool × List Char) :=
  match text with
  | '.' :: rest => (digits? rest).map fun found => (true, found.2)
  | _ => some (false, text)

/-- What is left of a text behind an exponent, and whether there is one. -/
def skipExponent? (text : List Char) : Option (Bool × List Char) :=
  match text with
  | 'e' :: rest | 'E' :: rest =>
    let unsigned := match rest with
      | '+' :: behind | '-' :: behind => behind
      | _ => rest
    (digits? unsigned).map fun found => (true, found.2)
  | _ => some (false, text)

/-- The value of decimal digits. -/
def digitsValue (digits : List Char) : Nat :=
  digits.foldl (fun value digit => 10 * value + (digit.toNat - 48)) 0

/-- The number at the front of a text. A zero leads no other digit, and a negative zero is not an
integer. -/
def readNumber? (text : List Char) : Option (Document × List Char) := do
  let negative := text.head? == some '-'
  let (digits, behindDigits) ← digits? (if negative then text.tail else text)
  if digits.head? == some '0' && digits.length != 1 then none else
  let (fraction, behindFraction) ← skipFraction? behindDigits
  let (exponent, rest) ← skipExponent? behindFraction
  let value := digitsValue digits
  let integer := !fraction && !exponent && !(negative && value == 0)
  let signed : Int := if negative then -value else value
  return (.number (if integer then some signed else none), rest)

/-! ### Strings -/

/-- The value of a hexadecimal digit. -/
def hexValue? (char : Char) : Option Nat :=
  if char.isDigit then some (char.toNat - 48)
  else if 'a' ≤ char ∧ char ≤ 'f' then some (char.toNat - 87)
  else if 'A' ≤ char ∧ char ≤ 'F' then some (char.toNat - 55)
  else none

/-- The character that a short escape stands for. -/
def shortEscape? : Char → Option Char
  | '"' => some '"'
  | '\\' => some '\\'
  | '/' => some '/'
  | 'b' => some '\x08'
  | 'f' => some '\x0c'
  | 'n' => some '\n'
  | 'r' => some '\r'
  | 't' => some '\t'
  | _ => none

/-- The numbers that a string is written with, up to its closing quote, behind those already read,
which are held last first; an escape may write half of a character. -/
def readUnits? (done : List Nat) : List Char → Option (List Nat × List Char)
  | '"' :: rest => some (done.reverse, rest)
  | '\\' :: 'u' :: a :: b :: c :: d :: rest =>
    match hexValue? a, hexValue? b, hexValue? c, hexValue? d with
    | some a, some b, some c, some d =>
      readUnits? ((((a * 16 + b) * 16 + c) * 16 + d) :: done) rest
    | _, _, _, _ => none
  | '\\' :: escaped :: rest =>
    match shortEscape? escaped with
    | some char => readUnits? (char.toNat :: done) rest
    | none => none
  | char :: rest => if char.toNat < 32 then none else readUnits? (char.toNat :: done) rest
  | [] => none

/-- The characters that numbers make up: two halves make one character, and no half stands alone. -/
def joinUnits? : List Nat → Option (List Char)
  | [] => some []
  | unit :: rest =>
    if 0xD800 ≤ unit ∧ unit < 0xDC00 then
      match rest with
      | low :: rest =>
        if 0xDC00 ≤ low ∧ low < 0xE000 then
          (joinUnits? rest).map (Char.ofNat (0x10000 + (unit - 0xD800) * 1024 + (low - 0xDC00)) :: ·)
        else none
      | [] => none
    else if 0xDC00 ≤ unit ∧ unit < 0xE000 then none
    else (joinUnits? rest).map (Char.ofNat unit :: ·)

/-- The text of a string behind its opening quote, if its escapes make up characters. -/
def readString? (text : List Char) : Option (Option String × List Char) :=
  (readUnits? [] text).map fun (units, rest) => ((joinUnits? units).map String.ofList, rest)

/-! ### Values -/

mutual

/-- The value at the front of a text, with what is left; `fuel` bounds the number of values. -/
def read? (fuel : Nat) (text : List Char) : Option (Document × List Char) :=
  match fuel with
  | 0 => none
  | fuel + 1 =>
    match skipBlanks text with
    | 'n' :: rest => (skip? ['u', 'l', 'l'] rest).map fun rest => (.null, rest)
    | 't' :: rest => (skip? ['r', 'u', 'e'] rest).map fun rest => (.bool true, rest)
    | 'f' :: rest => (skip? ['a', 'l', 's', 'e'] rest).map fun rest => (.bool false, rest)
    | '"' :: rest => (readString? rest).map fun (found, rest) => (.string found, rest)
    | '[' :: rest =>
      match skipBlanks rest with
      | ']' :: rest => some (.array [], rest)
      | _ => readItems? fuel [] rest
    | '{' :: rest =>
      match skipBlanks rest with
      | '}' :: rest => some (.object [], rest)
      | _ => readMembers? fuel [] rest
    | rest => readNumber? rest

/-- The items of an array up to its end, behind those already read, which are held last first. -/
def readItems? (fuel : Nat) (done : List Document) (text : List Char) :
    Option (Document × List Char) :=
  match fuel with
  | 0 => none
  | fuel + 1 =>
    match read? fuel text with
    | none => none
    | some (item, rest) =>
      match skipBlanks rest with
      | ',' :: rest => readItems? fuel (item :: done) rest
      | ']' :: rest => some (.array (item :: done).reverse, rest)
      | _ => none

/-- The members of an object up to its end, behind those already read, which are held last first. -/
def readMembers? (fuel : Nat) (done : List (Option String × Document)) (text : List Char) :
    Option (Document × List Char) :=
  match fuel with
  | 0 => none
  | fuel + 1 =>
    match skipBlanks text with
    | '"' :: rest =>
      match readString? rest with
      | none => none
      | some (key, rest) =>
        match skipBlanks rest with
        | ':' :: rest =>
          match read? fuel rest with
          | none => none
          | some (value, rest) =>
            match skipBlanks rest with
            | ',' :: rest => readMembers? fuel ((key, value) :: done) rest
            | '}' :: rest => some (.object ((key, value) :: done).reverse, rest)
            | _ => none
        | _ => none
    | _ => none

end

/-- The document of a text, if the text is one value and nothing else. Each value, item and member
takes a character of its own, so twice the length of the text is fuel enough. -/
def ofText? (text : String) : Option Document :=
  match read? (2 * text.length + 2) text.toList with
  | some (document, rest) => if (skipBlanks rest).isEmpty then some document else none
  | none => none

/-! ### Parts of a record -/

/-- The integer that a document is, between two bounds. -/
def integer? (least most : Int) : Document → Option Int
  | .number (some value) => if least ≤ value ∧ value ≤ most then some value else none
  | _ => none

/-- The text that a document is. -/
def text? : Document → Option String
  | .string text => text
  | _ => none

/-- The value of the one member with a given key, `some none` if there is no such member. -/
def member? (members : List (Option String × Document)) (key : String) :
    Option (Option Document) :=
  match members.filter fun member => member.1 == some key with
  | [] => some none
  | [member] => some (some member.2)
  | _ => none

/-- The values of the named fields of a record. A record is written as an object, where members of
other names do not count and none of these occurs twice, or as an array of its fields in order. -/
def fields? (names : List String) : Document → Option (List (Option Document))
  | .array items =>
    if items.length ≤ names.length then
      some (items.map some ++ List.replicate (names.length - items.length) none)
    else none
  | .object members =>
    if members.any fun member => member.1.isNone then none else names.mapM (member? members)
  | _ => none

/-- The name of a value without content, written as a string or as the key of a null. -/
def variant? : Document → Option String
  | .string text => text
  | .object [(key, .null)] => key
  | _ => none

end Document

end Reorg
