/-
**The store in files behaves as the store in memory.**

A directory that was empty holds, after any puts, one file for each record in memory, and else only
files with temporary names. Look-ups and listings go by the files of records alone, so a put that
ends before its file is moved is not seen, and a put that goes through changes the one record.

* `FileStore.parse_eq_ok_iff`: what the content of a file holds;
* `FileStore.interrupted`: the store when a put has written some of its bytes and moved nothing;
* `FileStore.Represents`: the files of a directory against the records in memory;
* `FileStore.Represents.putRaw`, `FileStore.Represents.interrupted`: what a put does to them;
* `FileStore.refines_memory`: all answers agree, also across puts that ended early.
-/

import Reorg.Proofs.Store.Directory
import Reorg.Store.Memory

namespace Reorg

namespace UndoStore

/-- What a store is asked. -/
inductive Call
  | put (block : Digest) (undo : BlockUndo)
  | putRaw (block : Digest) (payload : Bytes)
  | get (block : Digest)
  | getRaw (block : Digest)
  | contains (block : Digest)
  | list

/-- What a store answers. -/
inductive Answer
  | done (result : Except StorageError Unit)
  | undo (result : Except StorageError BlockUndo)
  | payload (result : Except StorageError Bytes)
  | held (result : Bool)
  | blocks (result : Except StorageError (List Digest))

/-- What happens to a store: it is asked something, or a put ends with some of its bytes written and
nothing moved. -/
inductive Happening
  | asked (call : Call)
  | stopped (block : Digest) (payload : Bytes) (written : Nat)

variable {σ : Type} [UndoStore σ]

/-- The store after a call, and its answer. -/
def perform (store : σ) : Call → σ × Answer
  | .put block undo => Prod.map id .done (put store block undo)
  | .putRaw block payload => Prod.map id .done (putRaw store block payload)
  | .get block => (store, .undo (get store block))
  | .getRaw block => (store, .payload (getRaw store block))
  | .contains block => (store, .held (contains store block))
  | .list => (store, .blocks (list store))

/-- The store after all that happens to it, and its answers on the way; `stop` says what a put that
ends early leaves of a store. -/
def run (stop : σ → Digest → Bytes → Nat → σ) (store : σ) : List Happening → σ × List Answer
  | [] => (store, [])
  | .asked call :: rest =>
    let (next, answer) := perform store call
    let (last, answers) := run stop next rest
    (last, answer :: answers)
  | .stopped block payload written :: rest => run stop (stop store block payload written) rest

end UndoStore

namespace FileStore

open UndoStore (run)

variable {location : Location} {files : FileStore} {memory : MemoryStore} {block : Digest}
  {payload : Bytes} {written : Nat}

/-! ### The content of a file -/

/-- **The content of a file holds the bytes that it is the content for, and no others.** -/
theorem parse_eq_ok_iff {bytes : Bytes} :
    parse block bytes = .ok payload ↔ bytes = content block payload := by
  simp only [parse, content]
  constructor
  · intro parsed
    split at parsed
    · cases parsed
    · next intact =>
      obtain ⟨-, checked⟩ := not_or.mp intact
      cases parsed
      rw [← not_not.mp checked, List.take_append_drop]
  · rintro rfl
    have long := (undoChecksum block payload).length_bytes
    have front : (payload ++ (undoChecksum block payload).bytes).length - 32 = payload.length := by
      rw [List.length_append, long, Nat.add_sub_cancel]
    rw [front, List.take_left, List.drop_left, if_neg]
    rintro (short | damaged)
    · rw [List.length_append, long] at short
      omega
    · exact damaged rfl

theorem getRaw_of_content {bytes : Bytes}
    (found : files.tree.read (files.recordPath block) = .ok bytes) :
    UndoStore.getRaw files block = parse block bytes := by
  show FileStore.getRaw files block = _
  delta FileStore.getRaw
  rw [found]

theorem getRaw_of_missing
    (missing : files.tree.read (files.recordPath block) = .error .notFound) :
    UndoStore.getRaw files block = .error (.notFound block) := by
  show FileStore.getRaw files block = _
  delta FileStore.getRaw
  rw [missing]

theorem recordPath_eq (store : FileStore) (block : Digest) :
    store.recordPath block = store.directory.child (recordName block) := rfl

/-- The store when a put has made its temporary file and written some bytes to it. -/
def interrupted (store : FileStore) (block : Digest) (payload : Bytes) (written : Nat) :
    Except FileError FileStore := do
  return { store with
    tree := ← store.tree.write (store.temporaryPath block) ((content block payload).take written) }

/-- What a put that ends early leaves of a store. -/
def stop (store : FileStore) (block : Digest) (payload : Bytes) (written : Nat) : FileStore :=
  (store.interrupted block payload written).toOption.getD store

/-- The last point before the file is moved has all bytes written. -/
theorem stage_eq_interrupted (store : FileStore) (block : Digest) (payload : Bytes) :
    store.stage block payload =
      store.interrupted block payload (content block payload).length := by
  rw [interrupted, List.take_length]
  rfl

/-! ### Files and records -/

/-- The directory of a file store has a file for each record in memory, and else only files with
temporary names. -/
structure Represents (location : Location) (files : FileStore) (memory : MemoryStore) : Prop where
  led : files.tree.directoryAt files.directory = .ok location
  room : files.directory.text.utf8ByteSize + 70 ≤ TreePath.sizeLimit
  records : ∀ block, files.tree.at? (location ++ [recordName block]) =
    (memory.records.get? block).map fun payload => .file (content block payload)
  others : ∀ name node, (∀ block, name ≠ recordName block) →
    files.tree.at? (location ++ [name]) = some node →
      ∃ block bytes, name = temporaryName block ∧ node = .file bytes

/-- An empty directory represents the empty memory. -/
theorem Represents.of_empty (empty : files.tree.names files.directory = .ok [])
    (room : files.directory.text.utf8ByteSize + 70 ≤ TreePath.sizeLimit) :
    ∃ location, Represents location files .empty := by
  obtain ⟨location, led, -⟩ := Fallible.bind_eq_ok_iff.mp empty
  rw [FileTree.names_eq led, Except.ok.injEq] at empty
  have nothing : ∀ name, files.tree.at? (location ++ [name]) = none := by
    intro name
    rw [← Option.not_isSome_iff_eq_none, ← FileTree.mem_names_iff, empty]
    exact List.not_mem_nil
  refine ⟨location, led, room, fun block => nothing _, fun name node _ there => ?_⟩
  rw [nothing] at there
  cases there

section Represents

variable (represents : Represents location files memory)

include represents

theorem Represents.admits_record (block : Digest) : files.directory.Admits (recordName block) :=
  .of_shown (FileTree.directoryAt_eq_ok_iff.mp represents.led).1 represents.room (by decide)
    (by decide)

theorem Represents.admits_temporary (block : Digest) :
    files.directory.Admits (temporaryName block) :=
  .of_shown (FileTree.directoryAt_eq_ok_iff.mp represents.led).1 represents.room (by decide)
    (by decide)

theorem Represents.record_free (block : Digest) :
    files.tree.at? (location ++ [recordName block]) ≠ some .directory := by
  rw [represents.records]
  cases memory.records.get? block <;> exact nofun

theorem Represents.temporary_free (block : Digest) :
    files.tree.at? (location ++ [temporaryName block]) ≠ some .directory := by
  intro there
  obtain ⟨_, _, -, file⟩ :=
    represents.others _ _ (fun _ => recordName_ne_temporaryName.symm) there
  cases file

/-! ### Changes -/

/-- **A put that ends early is not seen**: the directory represents what it represented, whatever
part of the content is in the temporary file. -/
theorem Represents.interrupted (block : Digest) (payload : Bytes) (written : Nat) :
    ∃ cut, files.interrupted block payload written = .ok cut ∧ Represents location cut memory ∧
      cut.tree.at? (location ++ [temporaryName block]) =
        some (.file ((content block payload).take written)) := by
  have free := represents.temporary_free block
  have wrote : files.tree.write (files.directory.child (temporaryName block))
      ((content block payload).take written) = .ok _ :=
    FileTree.write_child represents.led (represents.admits_temporary block) free
  refine ⟨_, Fallible.bind_eq_ok_iff.mpr ⟨_, wrote, rfl⟩,
    ⟨?_, represents.room, fun other => ?_, fun name node differs there => ?_⟩, ?_⟩
  · exact (FileTree.KeepsDirectories.put free).directoryAt represents.led
  · rw [FileTree.at?_put_child, if_neg recordName_ne_temporaryName.symm]
    exact represents.records other
  · rw [FileTree.at?_put_child] at there
    split at there
    · next same => exact ⟨block, _, same.symm, (Option.some.inj there).symm⟩
    · exact represents.others name node differs there
  · rw [FileTree.at?_put_child, if_pos rfl]

/-- Moving a temporary file with all its bytes to its place makes the record. -/
theorem Represents.committed (block : Digest) (payload : Bytes)
    (written : files.tree.at? (location ++ [temporaryName block]) =
      some (.file (content block payload))) :
    ∃ committed, files.commit block = .ok committed ∧
      Represents location committed ⟨memory.records.insert block payload⟩ := by
  have free := represents.record_free block
  have moved := FileTree.move_child represents.led (represents.admits_temporary block)
    (represents.admits_record block) recordName_ne_temporaryName.symm written free
  have keeps : FileTree.KeepsDirectories files.tree
      (files.tree.put (location ++ [recordName block]) (.file (content block payload))) := .put free
  have keeps' : FileTree.KeepsDirectories
      (files.tree.put (location ++ [recordName block]) (.file (content block payload)))
      ((files.tree.put (location ++ [recordName block]) (.file (content block payload))).clear
        (location ++ [temporaryName block])) := by
    refine .clear ?_
    rw [FileTree.at?_put_child, if_neg recordName_ne_temporaryName, written]
    exact nofun
  refine ⟨_, Fallible.bind_eq_ok_iff.mpr ⟨_, moved, rfl⟩, ?_, represents.room, fun other => ?_,
    fun name node differs there => ?_⟩
  · exact (keeps.trans keeps').directoryAt represents.led
  · rw [FileTree.at?_clear_child, if_neg recordName_ne_temporaryName.symm, FileTree.at?_put_child,
      OrderedMap.get?_insert, represents.records]
    by_cases same : block = other
    · rw [same, if_pos rfl, if_pos rfl, Option.map_some]
    · rw [if_neg (mt recordName_inj.mp same), if_neg same]
  · rw [FileTree.at?_clear_child] at there
    split at there
    · cases there
    · rw [FileTree.at?_put_child, if_neg (differs block).symm] at there
      exact represents.others name node differs there

/-- **A put changes the one record.** -/
theorem Represents.putRaw (block : Digest) (payload : Bytes) :
    ∃ next, files.putRaw block payload = (next, .ok ()) ∧
      Represents location next ⟨memory.records.insert block payload⟩ := by
  obtain ⟨staged, wrote, represents', written⟩ :=
    represents.interrupted block payload (content block payload).length
  rw [List.take_length] at written
  obtain ⟨committed, moved, represents''⟩ := represents'.committed block payload written
  refine ⟨committed, ?_, represents''⟩
  rw [← stage_eq_interrupted] at wrote
  unfold FileStore.putRaw
  split
  · next refused => cases refused.symm.trans wrote
  · next found =>
    obtain rfl := Except.ok.inj (found.symm.trans wrote)
    split
    · next refused => cases refused.symm.trans moved
    · next found => rw [Except.ok.inj (found.symm.trans moved)]

/-! ### Look-ups and listings -/

theorem Represents.contains (block : Digest) :
    UndoStore.contains files block = UndoStore.contains memory block := by
  show files.tree.holds (files.directory.child (recordName block)) = memory.records.contains block
  rw [FileTree.holds_child represents.led (represents.admits_record block), represents.records,
    Option.isSome_map]
  rfl

theorem Represents.getRaw (block : Digest) :
    UndoStore.getRaw files block = UndoStore.getRaw memory block := by
  have read := FileTree.read_child represents.led (represents.admits_record block)
  rw [← recordPath_eq, represents.records] at read
  cases held : memory.records.get? block with
  | none =>
    rw [held] at read
    rw [getRaw_of_missing read]
    dsimp only [UndoStore.getRaw]
    rw [held]
  | some payload =>
    rw [held] at read
    rw [getRaw_of_content read, parse_eq_ok_iff.mpr rfl]
    dsimp only [UndoStore.getRaw]
    rw [held]

/-- A name in the directory that a block is read from is the name of its file. -/
theorem Represents.eq_recordName {name : String}
    (member : name ∈ files.tree.nodes.keys.filterMap (FileTree.nameIn? location))
    (named : blockOf? name = some block) : name = recordName block := by
  by_cases record : ∃ other, name = recordName other
  · obtain ⟨other, rfl⟩ := record
    rw [blockOf?_recordName, Option.some.injEq] at named
    rw [named]
  · obtain ⟨node, there⟩ := Option.isSome_iff_exists.mp (FileTree.mem_names_iff.mp member)
    obtain ⟨other, _, rfl, -⟩ := represents.others name node (not_exists.mp record) there
    rw [blockOf?_temporaryName] at named
    cases named

/-- The blocks read from the names in the directory are those of the records. -/
theorem Represents.perm_blocks :
    ((files.tree.nodes.keys.filterMap (FileTree.nameIn? location)).filterMap blockOf?).Perm
      memory.records.keys := by
  have apart : ((files.tree.nodes.keys.filterMap (FileTree.nameIn? location)).filterMap
      blockOf?).Nodup := by
    refine List.pairwise_filterMap.mpr (FileTree.nodup_names.imp_of_mem ?_)
    rintro name name' member member' different block named block' named' rfl
    exact different ((represents.eq_recordName member named).trans
      (represents.eq_recordName member' named').symm)
  refine (List.perm_ext_iff_of_nodup apart memory.records.keys_nodup).mpr fun block => ?_
  show _ ↔ block ∈ memory.records.keys
  rw [OrderedMap.mem_keys_iff, List.mem_filterMap]
  constructor
  · rintro ⟨name, member, named⟩
    obtain rfl := represents.eq_recordName member named
    rwa [FileTree.mem_names_iff, represents.records, Option.isSome_map] at member
  · intro held
    refine ⟨recordName block, ?_, blockOf?_recordName block⟩
    rwa [FileTree.mem_names_iff, represents.records, Option.isSome_map]

theorem Represents.list : UndoStore.list files = UndoStore.list memory := by
  have blocks := represents.perm_blocks
  have total : ∀ first second : Digest,
      ((compare first second).isLE || (compare second first).isLE) = true := by
    intro first second
    have swapped : compare second first = (compare first second).swap := Std.OrientedCmp.eq_swap
    rw [swapped]
    cases compare first second <;> rfl
  have sorted := List.pairwise_mergeSort (fun _ _ _ => Std.TransCmp.isLE_trans) total
    ((files.tree.nodes.keys.filterMap (FileTree.nameIn? location)).filterMap blockOf?)
  have ascending := memory.records.keys_ascending.imp Ordering.isLE_of_eq_lt
  show ((files.tree.names files.directory).mapError StorageError.file >>= _) =
    .ok memory.records.keys
  rw [FileTree.names_eq represents.led]
  refine congrArg Except.ok (List.Perm.eq_of_pairwise ?_ sorted ascending ?_)
  · intro first second _ _ before behind
    exact Std.LawfulEqCmp.eq_of_compare (Std.OrientedCmp.isLE_antisymm before behind)
  · exact (List.mergeSort_perm _ _).trans blocks

end Represents

/-! ### Runs -/

theorem Represents.perform (represents : Represents location files memory) (call : UndoStore.Call) :
    (UndoStore.perform files call).2 = (UndoStore.perform memory call).2 ∧
      Represents location (UndoStore.perform files call).1 (UndoStore.perform memory call).1 := by
  have put : ∀ block payload,
      (UndoStore.putRaw files block payload).2 = (UndoStore.putRaw memory block payload).2 ∧
        Represents location (UndoStore.putRaw files block payload).1
          (UndoStore.putRaw memory block payload).1 := by
    intro block payload
    obtain ⟨next, succeeded, represents'⟩ := represents.putRaw block payload
    have succeeded : UndoStore.putRaw files block payload = (next, .ok ()) := succeeded
    rw [succeeded]
    exact ⟨rfl, represents'⟩
  cases call with
  | put block undo =>
    obtain ⟨answered, represents'⟩ := put block (toWire undo)
    simp only [UndoStore.perform, UndoStore.put, Prod.map_fst, Prod.map_snd, id]
    exact ⟨congrArg UndoStore.Answer.done answered, represents'⟩
  | putRaw block payload =>
    obtain ⟨answered, represents'⟩ := put block payload
    simp only [UndoStore.perform, Prod.map_fst, Prod.map_snd, id]
    exact ⟨congrArg UndoStore.Answer.done answered, represents'⟩
  | get block =>
    refine ⟨congrArg UndoStore.Answer.undo ?_, represents⟩
    rw [UndoStore.get, UndoStore.get, represents.getRaw]
  | getRaw block => exact ⟨congrArg UndoStore.Answer.payload (represents.getRaw block), represents⟩
  | contains block => exact ⟨congrArg UndoStore.Answer.held (represents.contains block), represents⟩
  | list => exact ⟨congrArg UndoStore.Answer.blocks represents.list, represents⟩

/-- **A run keeps what the directory represents, and its answers are those of the memory.** -/
theorem Represents.run (represents : Represents location files memory)
    (happenings : List UndoStore.Happening) :
    (run stop files happenings).2 = (run (fun memory _ _ _ => memory) memory happenings).2 ∧
      Represents location (run stop files happenings).1
        (run (fun memory _ _ _ => memory) memory happenings).1 := by
  induction happenings generalizing files memory with
  | nil => exact ⟨rfl, represents⟩
  | cons happening rest ih =>
    cases happening with
    | asked call =>
      obtain ⟨answered, represents'⟩ := represents.perform call
      obtain ⟨same, represents''⟩ := ih represents'
      exact ⟨congrArg₂ List.cons answered same, represents''⟩
    | stopped block payload written =>
      obtain ⟨cut, wrote, represents', -⟩ := represents.interrupted block payload written
      have stopped : files.stop block payload written = cut := by
        rw [stop, wrote]
        rfl
      rw [UndoStore.run, UndoStore.run, stopped]
      exact ih represents'

/-- **The store in files behaves as the store in memory**, also across puts that end early. -/
theorem refines_memory {store : FileStore} (empty : store.tree.names store.directory = .ok [])
    (room : store.directory.text.utf8ByteSize + 70 ≤ TreePath.sizeLimit) :
    (∀ happenings, (run stop store happenings).2 =
      (run (fun memory _ _ _ => memory) MemoryStore.empty happenings).2) ∧
    (∀ happenings block payload written, ∃ cut,
      (run stop store happenings).1.interrupted block payload written = .ok cut ∧
        (∀ id, UndoStore.contains cut id = UndoStore.contains (run stop store happenings).1 id) ∧
        (∀ id, UndoStore.getRaw cut id = UndoStore.getRaw (run stop store happenings).1 id) ∧
        UndoStore.list cut = UndoStore.list (run stop store happenings).1) ∧
    ∀ (files : FileStore) block bytes payload,
      files.tree.read (files.recordPath block) = .ok bytes →
        (UndoStore.getRaw files block = .ok payload ↔
          bytes = payload ++ (undoChecksum block payload).bytes) := by
  obtain ⟨location, represents⟩ := Represents.of_empty empty room
  refine ⟨fun happenings => (represents.run happenings).1,
    fun happenings block payload written => ?_,
    fun files block bytes payload found => ?_⟩
  · have reached := (represents.run happenings).2
    obtain ⟨cut, wrote, represents', -⟩ := reached.interrupted block payload written
    exact ⟨cut, wrote, fun id => (represents'.contains id).trans (reached.contains id).symm,
      fun id => (represents'.getRaw id).trans (reached.getRaw id).symm,
      represents'.list.trans reached.list.symm⟩
  · rw [getRaw_of_content found]
    exact parse_eq_ok_iff

/-- A store in a directory with nothing in it. -/
def vacant : FileStore where
  tree := ⟨(FileTree.atWorkplace ["home"]).nodes.insert ["home", "undo"] .directory, ["home"]⟩
  directory := ⟨"undo", false, ["undo"], false⟩

/-- A record stays what it was when a put in its place ends before its file is moved. -/
theorem vacant_keeps_record :
    (run stop vacant [.asked (.putRaw (.filled 1) [7]), .stopped (.filled 1) [8, 9] 20,
      .asked (.getRaw (.filled 1)), .asked (.getRaw (.filled 2)), .asked .list]).2 =
        [.done (.ok ()), .payload (.ok [7]), .payload (.error (.notFound (.filled 2))),
          .blocks (.ok [.filled 1])] := by
  have empty : vacant.tree.names vacant.directory = .ok [] := by decide +kernel
  have room : vacant.directory.text.utf8ByteSize + 70 ≤ TreePath.sizeLimit := by decide +kernel
  have agree := (refines_memory empty room).1 [.asked (.putRaw (.filled 1) [7]),
    .stopped (.filled 1) [8, 9] 20, .asked (.getRaw (.filled 1)), .asked (.getRaw (.filled 2)),
    .asked .list]
  exact agree.trans rfl

end FileStore

end Reorg
