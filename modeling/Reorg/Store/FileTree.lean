/-
**Trees of files.**

A tree has files and directories below a root, which is always there, and a directory where one
works. Its operations follow paths name by name and refuse what an operating system refuses: to go
through what is not there or is a file, also where the way leads back up, to write over a directory,
to make something in a directory that is not there.

* `FileTree.destination`: where a path leads, which is a directory or a name in one;
* `FileTree.createDirectories`: directories made on the way stay when the last cannot be made.
-/

import Reorg.OrderedMap
import Reorg.Store.TreePath

namespace Reorg

/-- The names on the way from the root to a file or directory, without detours. -/
abbrev Location := List String

/-- What is at a location. -/
inductive FileNode
  | file (content : Bytes)
  | directory
deriving DecidableEq

/-- Files and directories by their locations, and the directory where one works. -/
structure FileTree where
  nodes : OrderedMap Location FileNode
  workplace : Location
deriving DecidableEq

/-- Where a path leads. -/
inductive Destination
  /-- To a directory that is there. -/
  | directory (location : Location)
  /-- To a name in a directory that is there. -/
  | entry (parent : Location) (name : String)
deriving DecidableEq

namespace FileTree

/-- The tree with nothing in it but the way to the directory where one works. -/
def atWorkplace (workplace : Location) : FileTree :=
  ⟨(List.range workplace.length).foldl (fun nodes depth =>
    nodes.insert (workplace.take (depth + 1)) .directory) .empty, workplace⟩

/-- The bytes that a directory takes by itself. -/
def directorySize : Nat := 4096

/-- What is at a location, if anything is. -/
def at? (tree : FileTree) (location : Location) : Option FileNode :=
  if location.isEmpty then some .directory else tree.nodes.get? location

/-- Puts a node at a location, in place of any before. -/
def put (tree : FileTree) (location : Location) (node : FileNode) : FileTree :=
  { tree with nodes := tree.nodes.insert location node }

/-- Takes away the node at a location. -/
def clear (tree : FileTree) (location : Location) : FileTree :=
  { tree with nodes := tree.nodes.erase location }

/-! ### Following paths -/

/-- The directory that a name leads to from another. -/
def step (tree : FileTree) (here : Location) (name : String) : Except FileError Location :=
  if name = "." then .ok here
  else if name = ".." then .ok here.dropLast
  else if TreePath.nameLimit < name.utf8ByteSize then .error .nameTooLong
  else
    match tree.at? (here ++ [name]) with
    | none => .error .notFound
    | some (.file _) => .error .notDirectory
    | some .directory => .ok (here ++ [name])

/-- Where a path begins. -/
def start (tree : FileTree) (path : TreePath) : Location :=
  if path.fromRoot then [] else tree.workplace

/-- Where a path leads. -/
def destination (tree : FileTree) (path : TreePath) : Except FileError Destination := do
  path.check
  match path.names.getLast? with
  | none => return .directory (tree.start path)
  | some last =>
    let parent ← path.names.dropLast.foldlM tree.step (tree.start path)
    if last = "." ∨ last = ".." then
      return .directory (← tree.step parent last)
    else if TreePath.nameLimit < last.utf8ByteSize then
      throw .nameTooLong
    else
      return .entry parent last

/-- The directory at a path. -/
def directoryAt (tree : FileTree) (path : TreePath) : Except FileError Location := do
  match ← tree.destination path with
  | .directory location => return location
  | .entry parent name => tree.step parent name

/-- What a path leads to. -/
def node (tree : FileTree) (path : TreePath) : Except FileError FileNode := do
  match ← tree.destination path with
  | .directory _ => return .directory
  | .entry parent name =>
    match tree.at? (parent ++ [name]) with
    | none => throw .notFound
    | some .directory => return .directory
    | some (.file content) => if path.closed then throw .notDirectory else return .file content

/-- Whether a path leads to anything. -/
def holds (tree : FileTree) (path : TreePath) : Bool := (tree.node path).toOption.isSome

/-- Whether a path leads to a directory. -/
def holdsDirectory (tree : FileTree) (path : TreePath) : Bool :=
  (tree.directoryAt path).toOption.isSome

/-! ### Files -/

/-- The content of the file that a path leads to. -/
def read (tree : FileTree) (path : TreePath) : Except FileError Bytes := do
  match ← tree.node path with
  | .directory => throw .isDirectory
  | .file content => return content

/-- Makes a file, in place of any before, in a directory that is there. -/
def write (tree : FileTree) (path : TreePath) (content : Bytes) : Except FileError FileTree := do
  match ← tree.destination path with
  | .directory _ => throw .isDirectory
  | .entry parent name =>
    if path.closed ∨ tree.at? (parent ++ [name]) = some .directory then
      throw .isDirectory
    else
      return tree.put (parent ++ [name]) (.file content)

/-- Takes away the file that a path leads to. -/
def remove (tree : FileTree) (path : TreePath) : Except FileError FileTree := do
  let _ ← tree.read path
  match ← tree.destination path with
  | .directory _ => throw .isDirectory
  | .entry parent name => return tree.clear (parent ++ [name])

/-- Moves a file, in place of any before, in one step. -/
def move (tree : FileTree) (source target : TreePath) : Except FileError FileTree := do
  let content ← tree.read source
  let written ← tree.write target content
  if (tree.destination source).toOption = (tree.destination target).toOption then
    return written
  else
    written.remove source

/-! ### Directories -/

/-- Makes a directory in a directory that is there. -/
def createDirectory (tree : FileTree) (path : TreePath) : Except FileError FileTree := do
  match ← tree.destination path with
  | .directory _ => throw .alreadyExists
  | .entry parent name =>
    if (tree.at? (parent ++ [name])).isSome then
      throw .alreadyExists
    else
      return tree.put (parent ++ [name]) .directory

/-- Makes sure that a directory is at a path whose directory is there. -/
def ensureDirectory (tree : FileTree) (path : TreePath) : FileTree × Except FileError Unit :=
  match tree.createDirectory path with
  | .ok made => (made, .ok ())
  | .error problem => (tree, if tree.holdsDirectory path then .ok () else .error problem)

/-- Makes sure that a directory is at a path, given the paths of the directories that it is in, the
nearest first; these are made only if the path cannot be made without. -/
def ensureBelow (tree : FileTree) (path : TreePath) :
    List TreePath → FileTree × Except FileError Unit
  | [] => tree.ensureDirectory path
  | nearest :: further =>
    match tree.createDirectory path with
    | .error .notFound =>
      match ensureBelow tree nearest further with
      | (made, .ok ()) => made.ensureDirectory path
      | failed => failed
    | _ => tree.ensureDirectory path

/-- Makes a directory and those on the way to it, as far as they are not there. -/
def createDirectories (tree : FileTree) (path : TreePath) : FileTree × Except FileError Unit :=
  if path.text.isEmpty then (tree, .ok ()) else tree.ensureBelow path path.above

/-- Takes away all that is in a directory, and then the directory itself, which must still have a
name of its own on the path. -/
def removeDirectory (tree : FileTree) (path : TreePath) : FileTree × Except FileError Unit :=
  match tree.directoryAt path with
  | .error problem => (tree, .error problem)
  | .ok location =>
    let inside := tree.nodes.keys.filter fun key => key ≠ location ∧ location.isPrefixOf key
    let emptied := inside.foldl clear tree
    match emptied.destination path with
    | .ok (.entry parent name) => (emptied.clear (parent ++ [name]), .ok ())
    | .ok (.directory _) => (emptied, .error .invalidPath)
    | .error .notFound => (emptied, .ok ())
    | .error problem => (emptied, .error problem)

/-- The names in a directory, ascending. -/
def names (tree : FileTree) (path : TreePath) : Except FileError (List String) := do
  let location ← tree.directoryAt path
  return tree.nodes.keys.filterMap fun key =>
    if key.dropLast = location then key.getLast? else none

end FileTree

end Reorg
