/-
**The command line.**

The outer layer of the tool. What a command line is about is taken from the file system into a tree,
the tool runs on the tree, and what it changed there is written back: a file first under another
name, then moved to its place.
-/

import Reorg.Tool.Run

namespace Reorg.Tool

/-- The paths that a command line is about. -/
def Arguments.paths (arguments : Arguments) : List TreePath :=
  let store := (TreePath.ofText arguments.dataDirectory).join undoDirectory
  match arguments.command with
  | .sniff file => [TreePath.ofText file]
  | .exportTo _ output => [store, TreePath.ofText output]
  | _ => [store]

/-- The text of a location for the file system. -/
def locationText (location : Location) : String := "/" ++ "/".intercalate location

/-- Takes the file or directory at a location, if there is one, into a tree. -/
def loadNode (tree : FileTree) (location : Location) : IO FileTree := do
  let file := (← IO.currentDir) / locationText location
  if ← file.isDir then
    return tree.put location .directory
  else if ← file.pathExists then
    return tree.put location (.file (← IO.FS.readBinFile file).data.toList)
  else
    return tree

/-- Takes what is one name further on a way into a tree. -/
def loadStep (progress : FileTree × Location) (name : String) : IO (FileTree × Location) := do
  let (tree, here) := progress
  if name = "." then return (tree, here)
  else if name = ".." then return (tree, here.dropLast)
  else return (← loadNode tree (here ++ [name]), here ++ [name])

/-- Takes all that there is on the way to a path, and in the directory there, into a tree. -/
def load (tree : FileTree) (path : TreePath) : IO FileTree := do
  let (found, location) ← path.names.foldlM loadStep (tree, tree.start path)
  if found.at? location = some .directory then
    let entries ← ((← IO.currentDir) / locationText location).readDir
    (entries.toList.map fun entry => location ++ [entry.fileName]).foldlM loadNode found
  else
    return found

/-- Writes a file or makes a directory. -/
def saveNode (location : Location) : FileNode → IO Unit
  | .directory => IO.FS.createDirAll (locationText location)
  | .file content => do
    let target := locationText location
    IO.FS.writeBinFile (target ++ ".part") ⟨content.toArray⟩
    IO.FS.rename (target ++ ".part") target

/-- Writes to the file system what is in one tree and was not in another. -/
def save (before after : FileTree) : IO Unit :=
  after.nodes.entries.forM fun (location, node) => do
    if before.nodes.get? location ≠ some node then saveNode location node

/-- The paths that a request is about. -/
def Request.paths : Request → List TreePath
  | .run arguments => arguments.paths
  | _ => []

/-- Runs the tool on the file system. -/
def runOnFiles (arguments : List String) : IO Ending := do
  let workplace := (TreePath.ofText (toString (← IO.currentDir))).names
  let paths := ((Request.parse? arguments).map Request.paths).getD []
  let before ← paths.foldlM load (.atWorkplace workplace)
  let (after, ending) := run before arguments
  save before after
  return ending

end Reorg.Tool

/-- Runs the tool, prints what it prints, and ends as it ends. -/
def main (arguments : List String) : IO UInt32 := do
  let ending ← Reorg.Tool.runOnFiles arguments
  IO.print ending.printed
  IO.eprint ending.complaint
  return UInt32.ofNat ending.code
