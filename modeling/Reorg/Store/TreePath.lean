/-
**Paths.**

A path is a text of names with slashes between them. It leads from the root when it begins with a
slash, and from the directory where one works otherwise. The names `.` and `..` stay in it: where
they lead is known only in a tree of files.

* `TreePath.child`: the path of a name in a directory;
* `TreePath.above`: the paths that have to be there before a path can be made.
-/

import Reorg.Store.Error

namespace Reorg

/-- A path: the text that it is written as, and what the text says. -/
structure TreePath where
  text : String
  /-- Whether it leads from the root. -/
  fromRoot : Bool
  /-- The names on the way, none of them empty. -/
  names : List String
  /-- Whether it ends in a slash, and so can only name a directory. -/
  closed : Bool
deriving DecidableEq

namespace TreePath

/-- The path that a text is. -/
def ofText (text : String) : TreePath :=
  ⟨text, text.startsWith "/", (text.splitOn "/").filter fun name => name ≠ "", text.endsWith "/"⟩

/-- The text of a path below another, which counts only if the lower one does not lead from the
root. -/
def joinText (above below : String) : String :=
  if below.startsWith "/" then below
  else if above.isEmpty || above.endsWith "/" then above ++ below
  else above ++ "/" ++ below

/-- The path that a text is below another path. -/
def join (path : TreePath) (below : String) : TreePath := ofText (joinText path.text below)

/-- The path of a name in a directory. -/
def child (path : TreePath) (name : String) : TreePath :=
  ⟨joinText path.text name, path.fromRoot, path.names ++ [name], false⟩

/-- The names on the way without those that lead nowhere; a first one is kept where the path does
not lead from the root. -/
def steps (path : TreePath) : List String :=
  match path.fromRoot, path.names with
  | false, "." :: names => "." :: names.filter (· ≠ ".")
  | _, names => names.filter (· ≠ ".")

/-- The path along some names. -/
def ofSteps (fromRoot : Bool) (names : List String) : TreePath :=
  ⟨(if fromRoot then "/" else "") ++ "/".intercalate names, fromRoot, names, false⟩

/-- The paths of the directories that a path is in, the nearest first. -/
def above (path : TreePath) : List TreePath :=
  let steps := path.steps
  let shorter := (List.range steps.length).filter fun count => path.fromRoot || 0 < count
  shorter.reverse.map fun count => ofSteps path.fromRoot (steps.take count)

/-- The bytes that a path can have. -/
def sizeLimit : Nat := 4095

/-- The bytes that a name can have. -/
def nameLimit : Nat := 255

/-- Checks that a path can be followed at all. -/
def check (path : TreePath) : Except FileError Unit :=
  if path.text.toList.contains '\x00' then .error .invalidPath
  else if path.text.isEmpty then .error .notFound
  else if sizeLimit < path.text.utf8ByteSize then .error .nameTooLong
  else .ok ()

end TreePath

end Reorg
