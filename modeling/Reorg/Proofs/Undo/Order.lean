/-
**The order of the sidechains in a log.**

A log in the making takes the records of transactions in the order in which they come, and the first
record of each sidechain. When the records of sidechains came, in between or one before the other,
is not kept: logs with the same records are equal, and they are written with the identifiers of the
sidechains ascending as byte strings. A reader takes them in any order and makes the same log of
them, but it refuses a log that has two records of one sidechain.

* `Builder.Note`, `Builder.noteAll`: a log in the making and what is noted in it;
* `Builder.pushed`, `Builder.accepted`: what is kept of the notes;
* `Builder.get?_noteAll`, `Builder.txUndos_noteAll`: what the notes make of the log;
* `read_front`: a log is read behind its records of transactions and its root;
* `canonical_order`: the order of the records does not matter and is the same on the wire.
-/

import Reorg.Proofs.Undo.Spelling
import Reorg.Proofs.Wire.Order

namespace Reorg

open Decoder

/-! ### Digests -/

/-- Byte strings are compared byte by byte, and a front of a string comes before it. -/
theorem Bytes.compare_eq_lt_iff {first second : Bytes} :
    compare first second = .lt ↔ first < second := by
  show List.compareLex compare first second = .lt ↔ _
  induction first generalizing second with
  | nil =>
    cases second with
    | nil => simp [List.compareLex_nil_nil]
    | cons byte second => simp [List.compareLex_nil_cons]
  | cons byte first ih =>
    cases second with
    | nil => simp [List.compareLex_cons_nil]
    | cons byte' second =>
      rw [List.compareLex_cons_cons, Ordering.then_eq_lt, List.cons_lt_cons_iff, ih,
        Std.LawfulLTCmp.eq_lt_iff_lt, Std.LawfulEqCmp.compare_eq_iff_eq]

theorem Digest.compare_eq_lt_iff {first second : Digest} :
    compare first second = .lt ↔ first.bytes < second.bytes :=
  Bytes.compare_eq_lt_iff

namespace BlockUndo

/-! ### A log in the making -/

namespace Builder

/-- What is noted in a log in the making. -/
inductive Note
  | tx (undo : TxUndo)
  | sidechain (id : SidechainId) (undo : SidechainUndo)

/-- The log after a note; a record that is refused leaves it as it is. -/
def note (builder : Builder) : Note → Builder
  | .tx undo => builder.pushTx undo
  | .sidechain id undo =>
    match builder.recordSidechain id undo with
    | .ok next => next
    | .error _ => builder

/-- The log after some notes. -/
def noteAll (builder : Builder) (notes : List Note) : Builder := notes.foldl note builder

/-- The records of transactions among some notes. -/
def pushed (notes : List Note) : List TxUndo :=
  notes.filterMap fun
    | .tx undo => some undo
    | .sidechain _ _ => none

/-- The records of sidechains among some notes that are not refused. -/
def accepted (builder : Builder) : List Note → List (SidechainId × SidechainUndo)
  | [] => []
  | .tx undo :: notes => accepted (builder.pushTx undo) notes
  | .sidechain id undo :: notes =>
    match builder.recordSidechain id undo with
    | .ok next => (id, undo) :: accepted next notes
    | .error _ => accepted builder notes

variable {builder : Builder} {root : Digest} {note : Note} {notes notes' : List Note}
  {id : SidechainId} {undo first : SidechainUndo} {entry : SidechainId × SidechainUndo}

/-- A second record of a sidechain is refused. -/
theorem recordSidechain_of_held (held : builder.sidechains.get? id = some first) :
    builder.recordSidechain id undo = .error (.duplicateEntry id) := by
  unfold recordSidechain
  rw [if_pos (OrderedMap.contains_iff.mpr ⟨first, held⟩)]

theorem recordSidechain_of_absent (absent : builder.sidechains.get? id = none) :
    builder.recordSidechain id undo =
      .ok { builder with sidechains := builder.sidechains.insert id undo } := by
  unfold recordSidechain
  rw [OrderedMap.contains_eq_false_iff.mpr absent]
  rfl

theorem note_of_held (held : builder.sidechains.get? id = some first) :
    builder.note (.sidechain id undo) = builder := by
  simp only [Builder.note, recordSidechain_of_held held]

theorem note_of_absent (absent : builder.sidechains.get? id = none) :
    builder.note (.sidechain id undo) =
      { builder with sidechains := builder.sidechains.insert id undo } := by
  simp only [Builder.note, recordSidechain_of_absent absent]

theorem accepted_of_held (held : builder.sidechains.get? id = some first) :
    accepted builder (.sidechain id undo :: notes) = accepted builder notes := by
  simp only [accepted, recordSidechain_of_held held]

theorem accepted_of_absent (absent : builder.sidechains.get? id = none) :
    accepted builder (.sidechain id undo :: notes) =
      (id, undo) :: accepted (builder.note (.sidechain id undo)) notes := by
  simp only [accepted, Builder.note, recordSidechain_of_absent absent]

/-! ### What the notes make of a log -/

theorem priorRoot_note : (builder.note note).priorRoot = builder.priorRoot := by
  cases note with
  | tx undo => rfl
  | sidechain id undo =>
    cases held : builder.sidechains.get? id with
    | none => rw [note_of_absent held]
    | some first => rw [note_of_held held]

theorem priorRoot_noteAll : (builder.noteAll notes).priorRoot = builder.priorRoot := by
  induction notes generalizing builder with
  | nil => rfl
  | cons note notes ih => exact ih.trans priorRoot_note

/-- **Records of transactions** are kept in the order in which they came. -/
theorem txUndos_noteAll : (builder.noteAll notes).txUndos = builder.txUndos ++ pushed notes := by
  induction notes generalizing builder with
  | nil => exact (List.append_nil _).symm
  | cons note notes ih =>
    refine ih.trans ?_
    cases note with
    | tx undo => exact List.append_assoc builder.txUndos [undo] (pushed notes)
    | sidechain id undo =>
      cases held : builder.sidechains.get? id with
      | none => rw [note_of_absent held]; rfl
      | some first => rw [note_of_held held]; rfl

/-- **The records of sidechains** are those that were there and those that were not refused. -/
theorem get?_noteAll : (builder.noteAll notes).sidechains.get? id = some undo ↔
    builder.sidechains.get? id = some undo ∨ (id, undo) ∈ accepted builder notes := by
  induction notes generalizing builder with
  | nil => exact (or_iff_left List.not_mem_nil).symm
  | cons note notes ih =>
    refine ih.trans ?_
    cases note with
    | tx undo => rfl
    | sidechain here given =>
      cases held : builder.sidechains.get? here with
      | some first => rw [note_of_held held, accepted_of_held held]
      | none =>
        have added : (builder.note (.sidechain here given)).sidechains.get? id = some undo ↔
            builder.sidechains.get? id = some undo ∨ (id, undo) = (here, given) := by
          rw [note_of_absent held, OrderedMap.get?_insert]
          by_cases same : here = id
          · subst same
            simp [held, eq_comm]
          · simp [same, Ne.symm same]
        rw [accepted_of_absent held, added, List.mem_cons, or_assoc]

theorem get?_noteAll_start : ((start root).noteAll notes).sidechains.get? id = some undo ↔
    (id, undo) ∈ accepted (start root) notes := by
  rw [get?_noteAll]
  exact or_iff_right fun held => nomatch held

/-- No sidechain is accepted twice, and none that is there is accepted again. -/
theorem nodup_accepted : ((accepted builder notes).map Prod.fst).Nodup ∧
    ∀ entry ∈ accepted builder notes, builder.sidechains.get? entry.1 = none := by
  induction notes generalizing builder with
  | nil => exact ⟨List.nodup_nil, fun _ member => (List.not_mem_nil member).elim⟩
  | cons note notes ih =>
    cases note with
    | tx undo => exact @ih (builder.pushTx undo)
    | sidechain id undo =>
      cases held : builder.sidechains.get? id with
      | some first =>
        rw [accepted_of_held held]
        exact ih
      | none =>
        obtain ⟨distinct, fresh⟩ := @ih (builder.note (.sidechain id undo))
        rw [note_of_absent held] at distinct fresh
        rw [accepted_of_absent held, note_of_absent held]
        have apart : ∀ entry ∈ accepted
            { builder with sidechains := builder.sidechains.insert id undo } notes,
            id ≠ entry.1 ∧ builder.sidechains.get? entry.1 = none := by
          intro entry member
          have absent := fresh entry member
          rw [OrderedMap.get?_insert] at absent
          split at absent
          · cases absent
          · next apart => exact ⟨apart, absent⟩
        refine ⟨List.nodup_cons.mpr ⟨fun again => ?_, distinct⟩, List.forall_mem_cons.mpr
          ⟨held, fun entry member => (apart entry member).2⟩⟩
        obtain ⟨entry, member, same⟩ := List.mem_map.mp again
        exact (apart entry member).1 same.symm

/-- The records of a log are those that were accepted, in the order of their identifiers. -/
theorem perm_accepted :
    ((start root).noteAll notes).sidechains.entries.Perm (accepted (start root) notes) := by
  apply (List.perm_ext_iff_of_nodup ((OrderedMap.keys_nodup _).of_map Prod.fst)
    (nodup_accepted.1.of_map Prod.fst)).mpr
  intro entry
  rw [← OrderedMap.get?_eq_some_iff, get?_noteAll_start]

/-- **Logs with the same records are equal**, whenever these were noted. -/
theorem noteAll_eq (txs : pushed notes = pushed notes')
    (same : ∀ entry, entry ∈ accepted (start root) notes ↔ entry ∈ accepted (start root) notes') :
    (start root).noteAll notes = (start root).noteAll notes' := by
  have sidechains : ((start root).noteAll notes).sidechains =
      ((start root).noteAll notes').sidechains := by
    apply OrderedMap.ext_get?
    intro id
    apply Option.ext
    intro undo
    rw [get?_noteAll_start, get?_noteAll_start, same]
  have txUndos : ((start root).noteAll notes).txUndos = ((start root).noteAll notes').txUndos := by
    rw [txUndos_noteAll, txUndos_noteAll, txs]
  have priorRoot : ((start root).noteAll notes).priorRoot =
      ((start root).noteAll notes').priorRoot := by
    rw [priorRoot_noteAll, priorRoot_noteAll]
  generalize (start root).noteAll notes = first at *
  generalize (start root).noteAll notes' = second at *
  cases first
  cases second
  cases sidechains
  cases txUndos
  cases priorRoot
  rfl

end Builder

/-! ### On the wire -/

/-- The bytes of a log in front of its sidechains. -/
def spellFront (txUndos : List TxUndo.Spelling) (root : Digest) : Bytes :=
  CompactSize.write Generation.marker ++ spellList TxUndo.Spelling.bytes txUndos ++ root.bytes

/-- **A log is read behind its front** as its sidechains are. -/
theorem read_front {txUndos : List TxUndo.Spelling} {root : Digest} {input : Bytes}
    (short : txUndos.length ≤ CompactSize.maxLength) :
    (fromWire : Decoder BlockUndo) (spellFront txUndos root ++ input) =
      ((fromWire : Decoder (OrderedMap SidechainId SidechainUndo)) input).map fun read =>
        (⟨txUndos.map TxUndo.Spelling.undo, root, read.1, .current⟩, read.2) := by
  have marked : Reads CompactSize.readLength (CompactSize.write Generation.marker)
    Generation.marker := CompactSize.reads_readLength (by decide)
  have txs : Reads fromWire (spellList TxUndo.Spelling.bytes txUndos)
      (txUndos.map TxUndo.Spelling.undo) :=
    reads_spellings short (fun _ _ => TxUndo.Spelling.bytes_pos) fun _ _ => TxUndo.Spelling.reads
  have rooted : Reads fromWire root.bytes root := (faithful_digest root).reads
  rw [spellFront, List.append_assoc, List.append_assoc]
  show BlockUndo.read _ = _
  unfold BlockUndo.read
  rw [marked.bind_apply]
  show readCurrent _ = _
  unfold readCurrent
  rw [txs.bind_apply, rooted.bind_apply]
  show ((fromWire : Decoder _) input).bind _ = _
  cases (fromWire : Decoder (OrderedMap SidechainId SidechainUndo)) input <;> rfl

section Wire

variable {txUndos : List TxUndo.Spelling} {root : Digest}
  {pairs : List (SidechainId × SidechainUndo)}

theorem faithful_pairs (words : ∀ pair ∈ pairs, pair.2.Writable) :
    ∀ pair ∈ pairs, Faithful pair.1 ∧ Faithful pair.2 :=
  fun pair member => ⟨faithful_digest pair.1, SidechainUndo.faithful (words pair member)⟩

/-- **The records are written with their identifiers ascending.** -/
theorem toWire_noteAll (root : Digest) (notes : List Builder.Note) :
    ∃ entries : List (SidechainId × SidechainUndo),
      entries.Perm (Builder.accepted (.start root) notes) ∧
      entries.Pairwise (fun first second => first.1.bytes < second.1.bytes) ∧
      toWire ((Builder.start root).noteAll notes).build = CompactSize.write Generation.marker ++
        toWire (Builder.pushed notes) ++ root.bytes ++ spellList spellPair entries := by
  let log := ((Builder.start root).noteAll notes).build
  refine ⟨log.sidechains.entries, Builder.perm_accepted, ?_, ?_⟩
  · exact log.sidechains.ascending.imp fun before => Digest.compare_eq_lt_iff.mp before
  · have txUndos : log.txUndos = Builder.pushed notes := Builder.txUndos_noteAll
    have priorRoot : log.priorRoot = root := Builder.priorRoot_noteAll
    show CompactSize.write Generation.marker ++ toWire log.txUndos ++ log.priorRoot.bytes ++
      spellList spellPair log.sidechains.entries = _
    rw [txUndos, priorRoot]

/-- Sidechains that are distinct are read, and they are the sidechains of the log. -/
theorem exists_read_of_distinct (short : txUndos.length ≤ CompactSize.maxLength)
    (short' : pairs.length ≤ CompactSize.maxLength) (words : ∀ pair ∈ pairs, pair.2.Writable)
    (distinct : (pairs.map Prod.fst).Nodup) (rest : Bytes) :
    ∃ log, (fromWire : Decoder BlockUndo)
        (spellFront txUndos root ++ (spellList spellPair pairs ++ rest)) = .ok (log, rest) ∧
      log.txUndos = txUndos.map TxUndo.Spelling.undo ∧ log.priorRoot = root ∧
      log.sidechains.entries.Perm pairs := by
  have records : Reads fromWire (spellList spellPair pairs)
      (.ofList pairs : OrderedMap SidechainId SidechainUndo) :=
    reads_pairs short' distinct (faithful_pairs words)
  refine ⟨⟨txUndos.map TxUndo.Spelling.undo, root, .ofList pairs, .current⟩, ?_, rfl, rfl,
    OrderedMap.perm_entries_ofList distinct⟩
  rw [read_front short, records]
  rfl

end Wire

/-! ### One order for all logs -/

/-- **The sidechains of a log have one order.** Logs in the making that start from one root, get the
same records of transactions in the same order and accept the same records of sidechains, in
whatever order and with whatever is refused in between, are equal and are written alike, with the
identifiers ascending as byte strings. A record is refused exactly when the sidechain has one, and
the first one stays. On the wire the records may stand in any order, and what is read is the same;
and when a sidechain comes twice among the records that are declared, the log is refused. -/
theorem canonical_order :
    (∀ (root : Digest) (notes notes' : List Builder.Note),
      Builder.pushed notes = Builder.pushed notes' →
      (∀ entry, entry ∈ Builder.accepted (.start root) notes ↔
        entry ∈ Builder.accepted (.start root) notes') →
      let log := ((Builder.start root).noteAll notes).build
      let log' := ((Builder.start root).noteAll notes').build
      log = log' ∧ toWire log = toWire log') ∧
    (∀ (root : Digest) (notes : List Builder.Note),
      ∃ entries : List (SidechainId × SidechainUndo),
        entries.Perm (Builder.accepted (.start root) notes) ∧
        entries.Pairwise (fun first second => first.1.bytes < second.1.bytes) ∧
        toWire ((Builder.start root).noteAll notes).build = CompactSize.write Generation.marker ++
          toWire (Builder.pushed notes) ++ root.bytes ++ spellList spellPair entries) ∧
    (∀ (root : Digest) (notes : List Builder.Note) (id : SidechainId) (undo : SidechainUndo),
      let builder := (Builder.start root).noteAll notes
      ((builder.recordSidechain id undo).isOk = true ↔
        ∀ first, (id, first) ∉ Builder.accepted (.start root) notes) ∧
      ∀ first, (id, first) ∈ Builder.accepted (.start root) notes →
        builder.recordSidechain id undo = .error (.duplicateEntry id) ∧
        builder.note (.sidechain id undo) = builder ∧
        ∀ more, (builder.noteAll more).sidechains.get? id = some first) ∧
    (∀ (txUndos : List TxUndo.Spelling) (root : Digest)
      (pairs pairs' : List (SidechainId × SidechainUndo)) (rest : Bytes),
      txUndos.length ≤ CompactSize.maxLength → pairs.length < UInt64.size →
      (∀ pair ∈ pairs, pair.2.Writable) → pairs.Perm pairs' →
      let input := spellFront txUndos root ++ (spellList spellPair pairs ++ rest)
      let input' := spellFront txUndos root ++ (spellList spellPair pairs' ++ rest)
      (fromWire : Decoder BlockUndo) input = fromWire input' ∧
      (pairs.length ≤ CompactSize.maxLength → (pairs.map Prod.fst).Nodup →
        ∃ log, (fromWire : Decoder BlockUndo) input = .ok (log, rest) ∧
          log.txUndos = txUndos.map TxUndo.Spelling.undo ∧ log.priorRoot = root ∧
          log.sidechains.entries.Perm pairs)) ∧
    ∀ (txUndos : List TxUndo.Spelling) (root : Digest)
      (pairs : List (SidechainId × SidechainUndo)) (count : Nat) (rest : Bytes),
      txUndos.length ≤ CompactSize.maxLength → count < UInt64.size → pairs.length ≤ count →
      (∀ pair ∈ pairs, pair.2.Writable) → ¬ (pairs.map Prod.fst).Nodup →
      let input := pairs.flatMap spellPair ++ rest
      (fromWire : Decoder BlockUndo)
          (spellFront txUndos root ++ (CompactSize.write count ++ input)) = .error
        (if count > CompactSize.maxLength then .oversizedLength count
        else if input.length < count then .lengthMismatch count input.length
        else .duplicateKey) := by
  refine ⟨?_, toWire_noteAll, ?_, ?_, ?_⟩
  · intro root notes notes' txs same
    have equal := Builder.noteAll_eq txs same
    exact ⟨congrArg Builder.build equal, congrArg (fun builder => toWire builder.build) equal⟩
  · intro root notes id undo builder
    refine ⟨?_, fun first member => ?_⟩
    · cases held : builder.sidechains.get? id with
      | none =>
        rw [Builder.recordSidechain_of_absent held]
        refine iff_of_true rfl fun first member => ?_
        rw [Builder.get?_noteAll_start.mpr member] at held
        cases held
      | some first =>
        rw [Builder.recordSidechain_of_held held]
        refine iff_of_false (fun passed => nomatch passed) fun none => ?_
        exact none first (Builder.get?_noteAll_start.mp held)
    · have held : builder.sidechains.get? id = some first := Builder.get?_noteAll_start.mpr member
      exact ⟨Builder.recordSidechain_of_held held, Builder.note_of_held held,
        fun more => Builder.get?_noteAll.mpr (.inl held)⟩
  · intro txUndos root pairs pairs' rest short fits words perm input input'
    refine ⟨?_, fun short' distinct => exists_read_of_distinct short short' words distinct rest⟩
    show fromWire (_ ++ _) = fromWire (_ ++ _)
    rw [read_front short, read_front short, fromWire_of_perm fits (faithful_pairs words) perm]
  · intro txUndos root pairs count rest short fits within words twice input
    rw [read_front short, fromWire_of_twice fits within (faithful_pairs words) twice rest]
    rfl

/-- Two sidechains are recorded in either order, with a record that is refused in between; their
records are read in descending order; and one of them comes twice, with another in between, in front
of bytes that hold no record. -/
theorem canonical_order_descending :
    let high : SidechainId := ⟨List.replicate 32 1, rfl⟩
    let notes : List Builder.Note :=
      [.sidechain high ⟨5, -1⟩, .tx ⟨[]⟩, .sidechain high ⟨6, 0⟩, .sidechain .zero ⟨0, 3⟩]
    let notes' : List Builder.Note :=
      [.sidechain .zero ⟨0, 3⟩, .sidechain .zero ⟨9, 9⟩, .sidechain high ⟨5, -1⟩, .tx ⟨[]⟩]
    let pairs : List (SidechainId × SidechainUndo) := [(.zero, ⟨0, 3⟩), (high, ⟨5, -1⟩)]
    toWire ((Builder.start .zero).noteAll notes).build =
      toWire ((Builder.start .zero).noteAll notes').build ∧
    (fromWire : Decoder BlockUndo) (spellFront [] .zero ++ (spellList spellPair pairs ++ [7])) =
      fromWire (spellFront [] .zero ++ (spellList spellPair pairs.reverse ++ [7])) ∧
    (fromWire : Decoder BlockUndo) (spellFront [] .zero ++ (CompactSize.write 9 ++
      ((pairs ++ pairs.take 1).flatMap spellPair ++ [7]))) = .error .duplicateKey := by
  intro high notes notes' pairs
  obtain ⟨equal, -, -, arranged, refused⟩ := canonical_order
  have kept : Builder.accepted (.start .zero) notes = [(high, ⟨5, -1⟩), (.zero, ⟨0, 3⟩)] := rfl
  have kept' : Builder.accepted (.start .zero) notes' = [(.zero, ⟨0, 3⟩), (high, ⟨5, -1⟩)] := rfl
  refine ⟨(equal .zero notes notes' rfl fun entry => ?_).2, ?_, ?_⟩
  · rw [kept, kept']
    simp [or_comm]
  · exact (arranged [] .zero pairs pairs.reverse [7] (by decide) (by decide) (by decide)
      pairs.reverse_perm.symm).1
  · exact refused [] .zero (pairs ++ pairs.take 1) 9 [7] (by decide) (by decide) (by decide)
      (by decide) (by decide)

end BlockUndo

end Reorg
