/-
**Running the tool.**

A run takes a tree of files and a command line to a tree of files, the text that is printed, and
how the run ends: well, with a failure, or at once because the command line is not understood.
-/

import Reorg.Store.File
import Reorg.Tool.Arguments
import Reorg.Tool.Command
import Reorg.Tool.Help

namespace Reorg.Tool

/-- How a run ends. -/
structure Ending where
  code : Nat
  printed : String
  complaint : String
deriving DecidableEq

namespace Ending

/-- The ending of a run that is not understood. -/
def misused : Ending := ⟨2, "", ""⟩

/-- The ending of a run that only tells something. -/
def told (text : String) : Ending := ⟨0, text, ""⟩

/-- The ending that an answer makes. -/
def ofAnswer {α : Type} (answer : Answer α) : Ending :=
  match answer.result with
  | .ok _ => ⟨0, answer.text, ""⟩
  | .error problem => ⟨1, answer.text, "Error: " ++ problem.text ++ "\n"⟩

end Ending

/-- The directory for logs below the directory for data. -/
def undoDirectory : String := "undo"

/-- Does something with the store in a directory for data, which is made if need be; what is done
gives the tree after it. -/
def withStore {α : Type} (tree : FileTree) (dataDirectory : String)
    (action : FileStore → FileTree × Answer α) : FileTree × Answer α :=
  match FileStore.openAt tree dataDirectory undoDirectory with
  | (made, .error problem) => (made, .failed (.store (.file problem)))
  | (_, .ok store) => action store

/-- Finds damaged logs, and fails if there are any. -/
def verifyStrictly (store : FileStore) : Answer Unit :=
  let answer := verify store
  ⟨answer.printed, answer.result.bind fun damaged =>
    if damaged.isEmpty then .ok () else .error (.damaged damaged.length)⟩

/-- Does what a command line asks for. -/
def execute (tree : FileTree) (arguments : Arguments) : FileTree × Ending :=
  let directory := arguments.dataDirectory
  match arguments.command with
  | .sniff file => (tree, .ofAnswer (sniff tree file))
  | .list =>
    let (after, answer) := withStore tree directory fun store => (store.tree, list store)
    (after, .ofAnswer answer)
  | .verify =>
    let (after, answer) := withStore tree directory fun store => (store.tree, verifyStrictly store)
    (after, .ofAnswer answer)
  | .migrate rehearsal =>
    let (after, answer) := withStore tree directory fun store =>
      let (migrated, answer) := migrate store rehearsal
      (migrated.tree, answer)
    (after, .ofAnswer answer)
  | .inspect text =>
    match parseBlockId text with
    | .error problem => (tree, .ofAnswer (.failed problem : Answer Unit))
    | .ok block =>
      let (after, answer) := withStore tree directory fun store =>
        (store.tree, inspect store block)
      (after, .ofAnswer answer)
  | .exportTo text output =>
    match parseBlockId text with
    | .error problem => (tree, .ofAnswer (.failed problem : Answer Unit))
    | .ok block =>
      let (after, answer) := withStore tree directory fun store =>
        let answer := exportTo store block store.tree output
        (answer.result.toOption.getD store.tree, answer)
      (after, .ofAnswer answer)

/-- Answers a request. -/
def answer (tree : FileTree) : Request → FileTree × Ending
  | .help none => (tree, .told toolPage)
  | .help (some command) => (tree, .told command.page)
  | .version => (tree, .told versionLine)
  | .run arguments => execute tree arguments

/-- Runs the tool on its arguments. -/
def run (tree : FileTree) (arguments : List String) : FileTree × Ending :=
  match Request.parse? arguments with
  | none => (tree, .misused)
  | some request => answer tree request

end Reorg.Tool
