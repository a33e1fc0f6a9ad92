/-
**What can stand on a command line.**

The commands of the tool and their options, each with the words that explain it.
-/

namespace Reorg.Tool

/-- What an option is for. -/
inductive OptionKind
  /-- It takes a value, which has a name in explanations; it has to be given unless there is a
  default. -/
  | value (shown : String) (default? : Option String)
  | flag
  | help
  | version
deriving DecidableEq

/-- An option, by its long name and perhaps its letter. -/
structure OptionSpec where
  name : String
  letter? : Option Char
  kind : OptionKind
  about : String
deriving DecidableEq

/-- An argument that is known by its place. -/
structure PositionalSpec where
  shown : String
  mayBeEmpty : Bool
  about : String
deriving DecidableEq

/-- A command, with the arguments and the options it takes. -/
structure CommandSpec where
  name : String
  about : String
  positionals : List PositionalSpec
  options : List OptionSpec
deriving DecidableEq

namespace OptionSpec

/-- The option that asks for help. -/
def help : OptionSpec := ⟨"help", some 'h', .help, "Print help"⟩

/-- The option that asks for the version. -/
def version : OptionSpec := ⟨"version", some 'V', .version, "Print version"⟩

/-- The option for the directory of the store. -/
def dataDirectory : OptionSpec :=
  ⟨"data-dir", some 'd', .value "DATA_DIR" (some ".ledger_data"),
    "Data directory holding the undo store"⟩

/-- The option for the file that a record is written to. -/
def output : OptionSpec := ⟨"output", some 'o', .value "OUTPUT" none, "Output file path"⟩

/-- The option to migrate without writing. -/
def rehearsal : OptionSpec := ⟨"dry-run", none, .flag, "Only report what would change"⟩

/-- The value that an option has when it is not given. -/
def default? (spec : OptionSpec) : Option String :=
  match spec.kind with
  | .value _ default? => default?
  | _ => none

/-- Whether an option has to be given. -/
def isRequired (spec : OptionSpec) : Bool :=
  match spec.kind with
  | .value _ none => true
  | _ => false

end OptionSpec

namespace CommandSpec

/-- The block that a command is about. -/
def block : PositionalSpec := ⟨"<BLOCK>", true, "Block id (hex)"⟩

/-- The command that lists the records. -/
def list : CommandSpec := ⟨"list", "List stored undo records", [], [.help]⟩

/-- The command that shows a record. -/
def inspect : CommandSpec :=
  ⟨"inspect", "Show the contents of one undo record", [block], [.help]⟩

/-- The command that writes a record as JSON. -/
def exportTo : CommandSpec :=
  ⟨"export", "Export one undo record as JSON", [block], [.output, .help]⟩

/-- The command that tells the format of a file. -/
def sniff : CommandSpec :=
  ⟨"sniff", "Detect the format of a raw undo file", [⟨"<FILE>", false, "File to read"⟩], [.help]⟩

/-- The command that decodes every record. -/
def verify : CommandSpec :=
  ⟨"verify", "Decode every stored record and report damaged ones", [], [.help]⟩

/-- The command that rewrites the old records. -/
def migrate : CommandSpec :=
  ⟨"migrate", "Rewrite legacy records in the current format", [], [.rehearsal, .help]⟩

/-- The command that shows a help page. -/
def help : CommandSpec :=
  ⟨"help", "Print this message or the help of the given subcommand(s)",
    [⟨"[COMMAND]...", true, "Print help for the subcommand(s)"⟩], []⟩

/-- Every command, in the order of the help page. -/
def all : List CommandSpec := [list, inspect, exportTo, sniff, verify, migrate, help]

/-- The command of a name. -/
def named? (name : String) : Option CommandSpec := all.find? fun spec => spec.name == name

end CommandSpec

/-- The name of the tool. -/
def toolName : String := "undo-tool"

/-- The version of the tool. -/
def toolVersion : String := "0.1.0"

/-- What the tool is for. -/
def toolAbout : String := "Audit, export and migrate block undo logs"

/-- The options in front of a command. -/
def toolOptions : List OptionSpec := [.dataDirectory, .help, .version]

end Reorg.Tool
