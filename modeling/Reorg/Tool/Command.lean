/-
**Commands.**

What can be asked about the logs in a store. A command gives the lines that it prints, also when it
fails, and its result; `migrate` gives the store that it leaves too.

* `verify`: the blocks whose logs cannot be got;
* `migrate`: puts every log of the legacy generation again, which writes it in the current one.
-/

import Reorg.Json.Records
import Reorg.Store.Basic
import Reorg.Store.FileTree
import Reorg.Tool.Error

namespace Reorg.Tool

/-- What a command prints, and what comes of it. -/
structure Answer (α : Type) where
  printed : List String
  result : Except ToolError α

namespace Answer

variable {α : Type}

/-- The lines that are printed, each with its end. -/
def text (answer : Answer α) : String :=
  String.join (answer.printed.map fun line => line ++ "\n")

/-- The answer of a command that fails before it prints anything. -/
def failed (problem : ToolError) : Answer α := ⟨[], .error problem⟩

end Answer

/-- The block that a text names. -/
def parseBlockId (text : String) : Except ToolError Digest :=
  (Digest.ofHex text).mapError (.invalidBlockId text)

/-- A number, with blanks in front up to a width. -/
def padded (width value : Nat) : String :=
  let digits := toString value
  String.ofList (List.replicate (width - digits.length) ' ') ++ digits

/-- The line for a block whose log is not got. -/
def failureLine (block : Digest) (problem : StorageError) : String :=
  "   ❌ " ++ block.toHex ++ ": " ++ problem.message

section Commands

variable {σ : Type} [UndoStore σ]

/-- The line of a block in the list. -/
def listLine (store : σ) (block : Digest) : String :=
  match UndoStore.getRaw store block with
  | .error problem => "   " ++ block.toHex ++ " ❌ " ++ problem.message
  | .ok payload =>
    let generation := match Generation.sniff payload with
      | .error _ => "unreadable"
      | .ok generation => generation.name
    "   " ++ block.toHex ++ " " ++ padded 8 payload.length ++ " bytes  " ++ generation

/-- Lists the blocks with a record, each with its size and format. -/
def list (store : σ) : Answer (List Digest) :=
  match UndoStore.list store with
  | .error problem => .failed (.store problem)
  | .ok [] => ⟨["📭 No undo records stored"], .ok []⟩
  | .ok blocks =>
    ⟨s!"📚 {blocks.length} undo record(s):" :: blocks.map (listLine store), .ok blocks⟩

/-- The line of a sidechain in the log of a block. -/
def sidechainLine (entry : SidechainId × SidechainUndo) : String :=
  "      " ++ entry.1.toHex ++ " matured " ++ entry.2.matured.format ++
    s!" prior epoch {entry.2.priorEpoch}"

/-- Prints what the log of a block holds. -/
def inspect (store : σ) (block : Digest) : Answer Unit :=
  match UndoStore.get store block with
  | .error problem => .failed (.store problem)
  | .ok undo =>
    ⟨["🔎 Undo record for block " ++ block.toHex,
        "   ├─ Format: " ++ undo.generation.name,
        s!"   ├─ Encoded size: {wireSize undo} bytes",
        s!"   ├─ Transactions: {undo.txUndos.length}",
        s!"   ├─ Inputs: {undo.inputCount}",
        "   ├─ Prior commitment root: " ++ undo.priorRoot.toHex,
        s!"   └─ Sidechain entries: {undo.sidechains.size}"] ++
      undo.sidechains.entries.map sidechainLine, .ok ()⟩

/-- The record of the log of a block, with its measures in front. -/
def report (block : Digest) (undo : BlockUndo) : Json :=
  .object [("block", block.toJson), ("format", .string undo.generation.name),
    ("encoded_size", .number (wireSize undo)), ("tx_count", .number undo.txUndos.length),
    ("input_count", .number undo.inputCount), ("undo", undo.toJson)]

/-- Writes the record of the log of a block to a file of a tree, and gives the tree after it. -/
def exportTo (store : σ) (block : Digest) (tree : FileTree) (output : String) : Answer FileTree :=
  match UndoStore.get store block with
  | .error problem => .failed (.store problem)
  | .ok undo =>
    match tree.write (TreePath.ofText output) (report block undo).pretty.toUTF8.data.toList with
    | .error problem => .failed (.file problem)
    | .ok written =>
      ⟨["✅ Exported undo record for block " ++ block.toHex ++ " to " ++ Text.quote output],
        .ok written⟩

/-- Tells the generation of the record in a file. -/
def sniff (tree : FileTree) (file : String) : Answer Generation :=
  match tree.read (TreePath.ofText file) with
  | .error problem => .failed (.file problem)
  | .ok content =>
    match Generation.sniff content with
    | .error problem => .failed (.format problem)
    | .ok generation =>
      ⟨["📄 " ++ Text.quote file ++ ": " ++ generation.name ++ " format"], .ok generation⟩

/-- The line for a block whose log is not got, and nothing for one whose log is. -/
def failureLine? (store : σ) (block : Digest) : Option String :=
  match UndoStore.get store block with
  | .error problem => some (failureLine block problem)
  | .ok _ => none

/-- Whether the log of a block is not got. -/
def isDamaged (store : σ) (block : Digest) : Bool :=
  match UndoStore.get store block with
  | .error _ => true
  | .ok _ => false

/-- Whether the log of a block is got and is of the legacy generation. -/
def isLegacy (store : σ) (block : Digest) : Bool :=
  match UndoStore.get store block with
  | .error _ => false
  | .ok undo => undo.isLegacy

/-- Finds the blocks whose logs are not got. -/
def verify (store : σ) : Answer (List Digest) :=
  match UndoStore.list store with
  | .error problem => .failed (.store problem)
  | .ok blocks =>
    let damaged := blocks.filter (isDamaged store)
    let legacy := blocks.countP (isLegacy store)
    let verdict := if damaged.isEmpty then s!"✅ All records decode ({legacy} legacy)"
      else s!"⚠️  {damaged.length} of {blocks.length} records are damaged"
    ⟨s!"🔍 Verifying {blocks.length} undo record(s)..." ::
        blocks.filterMap (failureLine? store) ++ [verdict], .ok damaged⟩

/-- How far a migration has come: the store, the lines printed, and how many logs were put again
and how many could not be got. -/
structure Migration (σ : Type) where
  store : σ
  lines : List String
  migrated : Nat
  skipped : Nat

/-- Takes the log of one block to the current generation; a rehearsal puts nothing. -/
def migrateOne (rehearsal : Bool) (progress : Migration σ) (block : Digest) :
    Migration σ × Except StorageError Unit :=
  match UndoStore.get progress.store block with
  | .error problem =>
    ({ progress with
        lines := progress.lines ++ [failureLine block problem], skipped := progress.skipped + 1 },
      .ok ())
  | .ok undo =>
    if undo.isLegacy then
      if rehearsal then
        ({ progress with migrated := progress.migrated + 1 }, .ok ())
      else
        match UndoStore.put progress.store block undo with
        | (store, .error problem) => ({ progress with store }, .error problem)
        | (store, .ok ()) => ({ progress with store, migrated := progress.migrated + 1 }, .ok ())
    else
      (progress, .ok ())

/-- Takes the logs of blocks to the current generation, up to the first that cannot be put. -/
def migrateAll (rehearsal : Bool) (progress : Migration σ) :
    List Digest → Migration σ × Except StorageError Unit
  | [] => (progress, .ok ())
  | block :: blocks =>
    match migrateOne rehearsal progress block with
    | (next, .error problem) => (next, .error problem)
    | (next, .ok ()) => migrateAll rehearsal next blocks

/-- The last lines of a migration. -/
def migrationSummary (rehearsal : Bool) (progress : Migration σ) : List String :=
  (if rehearsal then s!"📝 {progress.migrated} legacy record(s) would be migrated"
    else s!"✅ Migrated {progress.migrated} legacy record(s)") ::
  (if 0 < progress.skipped then [s!"⚠️  {progress.skipped} damaged record(s) skipped"] else [])

/-- Takes every log to the current generation, and gives their number; a rehearsal puts nothing. -/
def migrate (store : σ) (rehearsal : Bool) : σ × Answer Nat :=
  match UndoStore.list store with
  | .error problem => (store, .failed (.store problem))
  | .ok blocks =>
    match migrateAll rehearsal ⟨store, [], 0, 0⟩ blocks with
    | (progress, .error problem) => (progress.store, ⟨progress.lines, .error (.store problem)⟩)
    | (progress, .ok ()) =>
      (progress.store,
        ⟨progress.lines ++ migrationSummary rehearsal progress, .ok progress.migrated⟩)

end Commands

end Reorg.Tool
