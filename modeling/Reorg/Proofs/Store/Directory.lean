/-
**Files of one directory.**

The operations of a file tree follow paths. On the path of a name in a directory they come down to
one look at the place of that name, and a change of a file leaves the way to the directory as it
was. So a directory can be taken as a map from names to contents.

* `FileTree.directoryAt_eq`: the way to a directory is a walk along the names of its path;
* `FileTree.read_child`, `holds_child`, `write_child`, `move_child`: the operations on a name;
* `FileTree.KeepsDirectories`: what a change of files leaves as it was;
* `FileTree.mem_names_iff`, `nodup_names`: the names that a directory lists.
-/

import Reorg.Proofs.Fallible
import Reorg.Proofs.OrderedMap
import Reorg.Proofs.Store.Names

namespace Reorg.FileTree

open Fallible

variable {tree next : FileTree} {path : TreePath} {location : Location} {name other : String}
  {content : Bytes}

/-! ### The way to a directory -/

/-- Where the last name of a path leads. -/
def arrive (tree : FileTree) (parent : Location) (last : String) : Except FileError Destination :=
  if last = "." ∨ last = ".." then do
    return .directory (← tree.step parent last)
  else if TreePath.nameLimit < last.utf8ByteSize then
    throw .nameTooLong
  else
    return .entry parent last

theorem destination_of_concat {names : List String} (ends : path.names = names ++ [name]) :
    tree.destination path =
      path.check >>= fun _ => names.foldlM tree.step (tree.start path) >>= fun parent =>
        tree.arrive parent name := by
  unfold destination
  rw [ends, List.getLast?_concat, List.dropLast_concat]
  rfl

/-- What a name leads to is the directory there, if there is one. -/
theorem arrive_bind (tree : FileTree) (parent : Location) (last : String) :
    (tree.arrive parent last >>= fun
      | .directory location => pure location
      | .entry parent name => tree.step parent name) = tree.step parent last := by
  unfold arrive
  split
  · cases tree.step parent last <;> rfl
  · next ordinary =>
    obtain ⟨here, above⟩ := not_or.mp ordinary
    split
    · next long => rw [step, if_neg here, if_neg above, if_pos long]; rfl
    · rfl

/-- A directory is found by a walk along the names of its path. -/
theorem directoryAt_eq (tree : FileTree) (path : TreePath) :
    tree.directoryAt path =
      path.check >>= fun _ => path.names.foldlM tree.step (tree.start path) := by
  rcases List.eq_nil_or_concat' path.names with none | ⟨names, last, ends⟩
  · unfold directoryAt destination
    rw [none]
    cases path.check <;> rfl
  · rw [directoryAt, destination_of_concat ends, ends, List.foldlM_append, bind_assoc]
    congr 1
    funext _
    rw [bind_assoc]
    congr 1
    funext parent
    exact (tree.arrive_bind parent last).trans (bind_pure _).symm

theorem directoryAt_eq_ok_iff : tree.directoryAt path = .ok location ↔
    path.check = .ok () ∧ path.names.foldlM tree.step (tree.start path) = .ok location := by
  rw [directoryAt_eq, bind_eq_ok_iff]
  exact ⟨fun ⟨_, checked, led⟩ => ⟨checked, led⟩, fun ⟨checked, led⟩ => ⟨(), checked, led⟩⟩

/-- The path of a name in a directory leads to the name there. -/
theorem destination_child (led : tree.directoryAt path = .ok location) (admits : path.Admits name) :
    tree.destination (path.child name) = .ok (.entry location name) := by
  obtain ⟨-, led⟩ := directoryAt_eq_ok_iff.mp led
  have arrived : tree.arrive location name = .ok (.entry location name) := by
    rw [arrive, if_neg (not_or.mpr admits.ordinary), if_neg (Nat.not_lt.mpr admits.short)]
    rfl
  rw [destination_of_concat rfl, bind_eq_ok_iff]
  exact ⟨(), admits.checked, bind_eq_ok_iff.mpr ⟨location, led, arrived⟩⟩

/-! ### Operations on a name -/

section Operations

variable (led : tree.directoryAt path = .ok location) (admits : path.Admits name)

include led admits

theorem node_child : tree.node (path.child name) =
    (match tree.at? (location ++ [name]) with
    | none => .error .notFound
    | some node => .ok node) := by
  unfold node
  rw [destination_child led admits]
  dsimp only [bind, Except.bind]
  rcases tree.at? (location ++ [name]) with _ | _ | _ <;> rfl

theorem read_child : tree.read (path.child name) =
    (match tree.at? (location ++ [name]) with
    | none => .error .notFound
    | some .directory => .error .isDirectory
    | some (.file content) => .ok content) := by
  unfold read
  rw [node_child led admits]
  rcases tree.at? (location ++ [name]) with _ | _ | _ <;> rfl

theorem holds_child : tree.holds (path.child name) = (tree.at? (location ++ [name])).isSome := by
  unfold holds
  rw [node_child led admits]
  cases tree.at? (location ++ [name]) <;> rfl

theorem write_child (free : tree.at? (location ++ [name]) ≠ some .directory) :
    tree.write (path.child name) content = .ok (tree.put (location ++ [name]) (.file content)) := by
  unfold write
  rw [destination_child led admits]
  exact if_neg (not_or.mpr ⟨Bool.false_ne_true, free⟩)

theorem remove_child (present : tree.at? (location ++ [name]) = some (.file content)) :
    tree.remove (path.child name) = .ok (tree.clear (location ++ [name])) := by
  unfold remove
  rw [read_child led admits, present, destination_child led admits]
  rfl

end Operations

/-! ### Changes of files -/

theorem at?_put {node : FileNode} {looked : Location} :
    (tree.put (location ++ [name]) node).at? looked =
      if location ++ [name] = looked then some node else tree.at? looked := by
  unfold at?
  split
  · next empty =>
    rw [List.isEmpty_iff.mp empty, if_neg (by simp)]
  · exact OrderedMap.get?_insert

theorem at?_clear {looked : Location} :
    (tree.clear (location ++ [name])).at? looked =
      if location ++ [name] = looked then none else tree.at? looked := by
  unfold at?
  split
  · next empty =>
    rw [List.isEmpty_iff.mp empty, if_neg (by simp)]
  · exact OrderedMap.get?_erase

theorem at?_put_child {node : FileNode} :
    (tree.put (location ++ [name]) node).at? (location ++ [other]) =
      if name = other then some node else tree.at? (location ++ [other]) := by
  simp only [at?_put, List.append_cancel_left_eq, List.cons.injEq, and_true]

theorem at?_clear_child :
    (tree.clear (location ++ [name])).at? (location ++ [other]) =
      if name = other then none else tree.at? (location ++ [other]) := by
  simp only [at?_clear, List.append_cancel_left_eq, List.cons.injEq, and_true]

/-- The directories of a tree are there in another, in which one works at the same place. -/
structure KeepsDirectories (tree next : FileTree) : Prop where
  workplace : next.workplace = tree.workplace
  there : ∀ location, tree.at? location = some .directory → next.at? location = some .directory

theorem KeepsDirectories.trans {last : FileTree} (first : KeepsDirectories tree next)
    (second : KeepsDirectories next last) : KeepsDirectories tree last :=
  ⟨second.workplace.trans first.workplace, fun location there =>
    second.there location (first.there location there)⟩

theorem KeepsDirectories.put (free : tree.at? (location ++ [name]) ≠ some .directory) :
    KeepsDirectories tree (tree.put (location ++ [name]) (.file content)) := by
  refine ⟨rfl, fun looked there => ?_⟩
  rw [at?_put, if_neg]
  · exact there
  · rintro rfl
    exact free there

theorem KeepsDirectories.clear (free : tree.at? (location ++ [name]) ≠ some .directory) :
    KeepsDirectories tree (tree.clear (location ++ [name])) := by
  refine ⟨rfl, fun looked there => ?_⟩
  rw [at?_clear, if_neg]
  · exact there
  · rintro rfl
    exact free there

theorem KeepsDirectories.step (keeps : KeepsDirectories tree next) {here there : Location}
    (led : tree.step here name = .ok there) : next.step here name = .ok there := by
  unfold FileTree.step at led ⊢
  by_cases here : name = "."
  · rwa [if_pos here] at led ⊢
  · by_cases above : name = ".."
    · rwa [if_neg here, if_pos above] at led ⊢
    · rw [if_neg here, if_neg above] at led ⊢
      split at led
      · cases led
      · next short =>
        rw [if_neg short]
        split at led
        · cases led
        · cases led
        · next found => rwa [keeps.there _ found]

/-- **The way to a directory stays** where the directories do. -/
theorem KeepsDirectories.directoryAt (keeps : KeepsDirectories tree next)
    (led : tree.directoryAt path = .ok location) : next.directoryAt path = .ok location := by
  obtain ⟨checked, led⟩ := directoryAt_eq_ok_iff.mp led
  refine directoryAt_eq_ok_iff.mpr ⟨checked, ?_⟩
  have walk : ∀ (names : List String) (here : Location),
      names.foldlM tree.step here = .ok location → names.foldlM next.step here = .ok location := by
    intro names
    induction names with
    | nil => exact fun _ arrived => arrived
    | cons name names ih =>
      intro here led
      rw [List.foldlM_cons, bind_eq_ok_iff] at led ⊢
      obtain ⟨there, stepped, led⟩ := led
      exact ⟨there, keeps.step stepped, ih there led⟩
  have began : next.start path = tree.start path := by
    rw [start, start, keeps.workplace]
  rw [began]
  exact walk _ _ led

/-- **A file is moved** to another name of its directory. -/
theorem move_child (led : tree.directoryAt path = .ok location) (admits : path.Admits name)
    (admits' : path.Admits other) (apart : name ≠ other)
    (present : tree.at? (location ++ [name]) = some (.file content))
    (free : tree.at? (location ++ [other]) ≠ some .directory) :
    tree.move (path.child name) (path.child other) =
      .ok ((tree.put (location ++ [other]) (.file content)).clear (location ++ [name])) := by
  have written : tree.write (path.child other) content = .ok _ := write_child led admits' free
  have keeps : KeepsDirectories tree (tree.put (location ++ [other]) (.file content)) := .put free
  have led' := keeps.directoryAt led
  have present' : (tree.put (location ++ [other]) (.file content)).at? (location ++ [name]) =
      some (.file content) := by
    rw [at?_put_child, if_neg apart.symm]
    exact present
  have places : ¬ (tree.destination (path.child name)).toOption =
      (tree.destination (path.child other)).toOption := by
    rw [destination_child led admits, destination_child led admits']
    simpa [Except.toOption] using apart
  rw [move, read_child led admits, present]
  show (tree.write (path.child other) content >>= fun written => _) = _
  rw [written]
  show (if _ then _ else _) = _
  rw [if_neg places]
  exact remove_child led' admits present'

/-! ### Listing -/

/-- The name of a place in a directory. -/
def nameIn? (location key : Location) : Option String :=
  if key.dropLast = location then key.getLast? else none

theorem nameIn?_eq_some_iff {key : Location} :
    nameIn? location key = some name ↔ key = location ++ [name] := by
  unfold nameIn?
  constructor
  · intro named
    split at named
    · next within =>
      obtain ⟨front, rfl⟩ := List.getLast?_eq_some_iff.mp named
      rw [← within, List.dropLast_concat]
    · cases named
  · rintro rfl
    rw [List.dropLast_concat, if_pos rfl, List.getLast?_concat]

theorem names_eq (led : tree.directoryAt path = .ok location) :
    tree.names path = .ok (tree.nodes.keys.filterMap (nameIn? location)) := by
  rw [names, led]
  rfl

/-- The names listed are those of the places that something is at. -/
theorem mem_names_iff :
    name ∈ tree.nodes.keys.filterMap (nameIn? location) ↔
      (tree.at? (location ++ [name])).isSome := by
  rw [at?, if_neg (by simp), ← OrderedMap.mem_keys_iff, List.mem_filterMap]
  constructor
  · rintro ⟨key, member, named⟩
    exact nameIn?_eq_some_iff.mp named ▸ member
  · exact fun member => ⟨_, member, nameIn?_eq_some_iff.mpr rfl⟩

theorem nodup_names : (tree.nodes.keys.filterMap (nameIn? location)).Nodup := by
  refine List.Nodup.filterMap (fun key key' name named named' => ?_) tree.nodes.keys_nodup
  exact (nameIn?_eq_some_iff.mp named).trans (nameIn?_eq_some_iff.mp named').symm

end Reorg.FileTree
