/-
**Command lines.**

The directory of the data may be given in front of the command, everything else behind it. An option
is given once; its value stands in the next argument, behind an equals sign, or, for an option of
one letter, right behind the letter. Arguments are read one by one, and an explanation or the
version is answered as soon as it is asked for, whatever comes behind.

* `Request.parse?`: nothing for a command line that is not understood.
-/

import Reorg.Tool.Options

namespace Reorg.Tool

/-- One argument by itself. -/
inductive Argument
  | plain (text : String)
  /-- An option by its name, perhaps with a value. -/
  | long (name : String) (value? : Option String)
  /-- An option by its letter, with what stands right behind it. -/
  | short (letter : Char) (attached : String)
  /-- The mark behind which there are no options. -/
  | endOfOptions

namespace Argument

/-- What one argument is by itself. -/
def ofText (text : String) : Argument :=
  match text.toList with
  | ['-', '-'] => .endOfOptions
  | '-' :: '-' :: rest =>
    let name := String.ofList (rest.takeWhile (· != '='))
    match rest.dropWhile (· != '=') with
    | [] => .long name none
    | _ :: value => .long name (some (String.ofList value))
  | '-' :: letter :: attached => .short letter (String.ofList attached)
  | _ => .plain text

/-- The option of a list that an argument is. -/
def spec? (specs : List OptionSpec) : Argument → Option OptionSpec
  | .long name _ => specs.find? fun spec => spec.name == name
  | .short letter _ => specs.find? fun spec => spec.letter? == some letter
  | _ => none

/-- The value that stands in the same argument as its option. -/
def value? : Argument → Option String
  | .long _ value? => value?
  | .short _ attached =>
    match attached.toList with
    | [] => none
    | '=' :: value => some (String.ofList value)
    | value => some (String.ofList value)
  | _ => none

/-- Whether something stands behind an equals sign. -/
def isAssigned : Argument → Bool
  | .long _ (some _) => true
  | _ => false

end Argument

/-- The arguments of one level that have been taken: the plain ones and the options, last first, and
an option whose value has been read but not looked at yet. -/
structure Taken where
  plain : List String
  options : List (String × String)
  pending? : Option (OptionSpec × String)

namespace Taken

/-- The start, with no argument taken. -/
def nothing : Taken := ⟨[], [], none⟩

/-- The value that was given for an option. -/
def value? (taken : Taken) (spec : OptionSpec) : Option String := taken.options.lookup spec.name

/-- Takes an option, which must not be there already. -/
def addOption (taken : Taken) (spec : OptionSpec) (value : String) : Option Taken :=
  if (taken.value? spec).isSome then none
  else some { taken with options := (spec.name, value) :: taken.options }

/-- Takes an option with its value, which must not be empty. -/
def addValue (taken : Taken) (spec : OptionSpec) (value : String) : Option Taken :=
  if value = "" then none else taken.addOption spec value

/-- Looks at the value that has only been read. -/
def settle (taken : Taken) : Option Taken :=
  match taken.pending? with
  | none => some taken
  | some (spec, value) => { taken with pending? := none }.addValue spec value

/-- Takes a plain argument for the next of the places that there are. -/
def addPlain (places : List PositionalSpec) (taken : Taken) (text : String) : Option Taken := do
  let settled ← taken.settle
  let place ← places[taken.plain.length]?
  if text = "" ∧ ¬ place.mayBeEmpty then none
  else some { settled with plain := text :: settled.plain }

end Taken

/-- What the arguments of one level come to. -/
inductive Reading
  | help
  | version
  /-- Arguments are taken, and others are left. -/
  | taken (taken : Taken) (rest : List String)

/-- What an option among the arguments of one level does. -/
inductive OptionEffect
  /-- It ends the level. -/
  | ends (reading : Reading)
  /-- It is taken, and may wait for its value in the next argument. -/
  | goesOn (taken : Taken) (waiting? : Option OptionSpec)

/-- Takes an option with what stands in the same argument. -/
def takeOption? (specs : List OptionSpec) (taken : Taken) (argument : Argument) :
    Option OptionEffect := do
  let spec ← argument.spec? specs
  let settled ← taken.settle
  match spec.kind, argument.value? with
  | .value _ _, some value => return .goesOn (← settled.addValue spec value) none
  | .value _ _, none => return .goesOn settled (some spec)
  | kind, _ =>
    if argument.isAssigned then none
    else
      match kind with
      | .help => return .ends .help
      | .version => return .ends .version
      | _ => return .goesOn (← settled.addOption spec "") none

/-- Takes the arguments of one level, of which the first may be the value of an option that waits
for it. The plain ones go to the places that there are; without places, the first plain one is the
last that is taken, and what is behind it is left. -/
def take? (specs : List OptionSpec) (places? : Option (List PositionalSpec)) (taken : Taken)
    (waiting? : Option OptionSpec) : List String → Option Reading
  | [] => do
    if waiting?.isSome then none else return .taken (← taken.settle) []
  | text :: rest =>
    match waiting?, Argument.ofText text, places? with
    | some spec, .plain value, _ =>
      take? specs places? { taken with pending? := some (spec, value) } none rest
    | some _, _, _ => none
    | none, .plain value, none => some (.taken { taken with plain := [value] } rest)
    | none, .plain value, some places =>
      match taken.addPlain places value with
      | some more => take? specs places? more none rest
      | none => none
    | none, .endOfOptions, none => none
    | none, .endOfOptions, some places => do
      let all ← rest.foldlM (Taken.addPlain places) taken
      return .taken (← all.settle) []
    | none, argument, _ =>
      match takeOption? specs taken argument with
      | some (.goesOn more waiting?) => take? specs places? more waiting? rest
      | some (.ends reading) => some reading
      | none => none

/-- What the tool can be asked to do with records. -/
inductive Command
  | list
  | inspect (block : String)
  | exportTo (block output : String)
  | sniff (file : String)
  | verify
  | migrate (rehearsal : Bool)
deriving DecidableEq

/-- What the tool is asked to do, and where the data is. -/
structure Arguments where
  dataDirectory : String
  command : Command
deriving DecidableEq

/-- A command line that is understood. -/
inductive Request
  /-- An explanation of the tool, or of a command. -/
  | help (command? : Option CommandSpec)
  | version
  | run (arguments : Arguments)
deriving DecidableEq

/-- The command of a name with the arguments taken for it. -/
def command? (spec : CommandSpec) (taken : Taken) : Option Command :=
  match spec.name, taken.plain, taken.value? .output with
  | "list", [], _ => some .list
  | "verify", [], _ => some .verify
  | "migrate", [], _ => some (.migrate (taken.value? .rehearsal).isSome)
  | "inspect", [block], _ => some (.inspect block)
  | "sniff", [file], _ => some (.sniff file)
  | "export", [block], some output => some (.exportTo block output)
  | _, _, _ => none

namespace Request

/-- The explanation that is asked for by the command `help`. -/
def ofHelp? : List String → Option Request
  | [] => some (.help none)
  | [name] => (CommandSpec.named? name).map fun spec => .help (some spec)
  | _ => none

/-- The request that a command makes, with what was taken in front of it. -/
def ofCommand? (front : Taken) (spec : CommandSpec) (arguments : List String) :
    Option Request := do
  match ← take? spec.options (some spec.positionals) .nothing none arguments with
  | .help => return .help (some spec)
  | .version => none
  | .taken taken _ =>
    let settled ← front.settle
    let directory ← (settled.value? .dataDirectory).or OptionSpec.dataDirectory.default?
    return .run ⟨directory, ← command? spec taken⟩

/-- The request that the arguments of a command line make. -/
def parse? (arguments : List String) : Option Request := do
  match ← take? toolOptions none .nothing none arguments with
  | .help => return .help none
  | .version => return .version
  | .taken front rest =>
    match front.plain with
    | [name] =>
      let spec ← CommandSpec.named? name
      if spec = .help then ofHelp? rest else ofCommand? front spec rest
    | _ => none

end Request

end Reorg.Tool
