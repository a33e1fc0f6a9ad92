/-
**Explanations of the tool.**

A page says what the tool or a command is for, how it is called, and what can stand behind it, each
part in a table whose second column begins at one place.
-/

import Reorg.Tool.Options

namespace Reorg.Tool

/-- A text with blanks behind it, up to a width. -/
def paddedRight (width : Nat) (text : String) : String :=
  text ++ String.ofList (List.replicate (width - text.length) ' ')

/-- The lines of a table under its heading; there are none for a table without rows. -/
def helpTable (heading : String) (rows : List (String × String)) : List String :=
  let width := (rows.map fun row => row.1.length).foldl max 0
  if rows.isEmpty then []
  else "" :: heading :: rows.map fun row => "  " ++ paddedRight width row.1 ++ "  " ++ row.2

/-- The row of an option in a table: how it is given, and what it is for. -/
def OptionSpec.row (spec : OptionSpec) : String × String :=
  let letter := match spec.letter? with
    | some letter => "-" ++ letter.toString ++ ", "
    | none => "    "
  let value := match spec.kind with
    | .value shown _ => " <" ++ shown ++ ">"
    | _ => ""
  let default := match spec.default? with
    | some text => " [default: " ++ text ++ "]"
    | none => ""
  (letter ++ "--" ++ spec.name ++ value, spec.about ++ default)

/-- How an option that has to be given stands in a call. -/
def OptionSpec.call? (spec : OptionSpec) : Option String :=
  match spec.kind with
  | .value shown none => some ("--" ++ spec.name ++ " <" ++ shown ++ ">")
  | _ => none

/-- Whether an option may be left out of a call and is no question about the tool itself. -/
def OptionSpec.isOptional (spec : OptionSpec) : Bool :=
  match spec.kind with
  | .value _ default? => default?.isSome
  | .flag => true
  | .help | .version => false

/-- A page: what something is for, how it is called, and its tables. -/
def helpPage (about : String) (call : List String) (tables : List (List String)) : String :=
  let lines := about :: "" :: ("Usage: " ++ " ".intercalate call) :: tables.flatten
  String.join (lines.map fun line => line ++ "\n")

/-- The mark for options in a call. -/
def optionsMark (options : List OptionSpec) : List String :=
  if options.any OptionSpec.isOptional then ["[OPTIONS]"] else []

/-- The help page of a command. -/
def CommandSpec.page (spec : CommandSpec) : String :=
  let call := [toolName, spec.name] ++ optionsMark spec.options ++
    spec.options.filterMap OptionSpec.call? ++ spec.positionals.map PositionalSpec.shown
  helpPage spec.about call
    [helpTable "Arguments:" (spec.positionals.map fun place => (place.shown, place.about)),
      helpTable "Options:" (spec.options.map OptionSpec.row)]

/-- The help page of the tool itself. -/
def toolPage : String :=
  helpPage toolAbout ([toolName] ++ optionsMark toolOptions ++ ["<COMMAND>"])
    [helpTable "Commands:" (CommandSpec.all.map fun spec => (spec.name, spec.about)),
      helpTable "Options:" (toolOptions.map OptionSpec.row)]

/-- The line that says the version. -/
def versionLine : String := toolName ++ " " ++ toolVersion ++ "\n"

end Reorg.Tool
