/-
**Migrating a store in memory.**

A migration goes through the blocks of a store in ascending order and puts each log of the legacy
generation again. A block is visited once, so what a record becomes depends on that record alone,
and the number of logs put again is the number of legacy records that were there before.

* `Advances`: what a migration has done by going through some blocks;
* `migrateAll_advances`: a run does it, whatever the records hold;
* `migrate_eq`: the store that is left, and the number that is given;
* `migrate_preserves`: legacy records keep their meaning, other records their bytes, and a second
  migration finds nothing to do.
-/

import Reorg.Store.Memory
import Reorg.Tool.Command
import Reorg.Proofs.Block
import Reorg.Proofs.OrderedMap
import Reorg.Proofs.Undo.Legacy
import Reorg.Proofs.Undo.Upgrade

namespace Reorg

namespace MemoryStore

variable {store : MemoryStore} {block : Digest} {payload : Bytes}

theorem getRaw_eq_ok_iff :
    UndoStore.getRaw store block = .ok payload ↔ store.records.get? block = some payload := by
  simp only [UndoStore.getRaw]
  cases store.records.get? block <;> simp

theorem get_of_held (held : store.records.get? block = some payload) :
    UndoStore.get store block = (ofWire BlockUndo payload).mapError (.unreadable block) := by
  rw [UndoStore.get, getRaw_eq_ok_iff.mpr held]
  rfl

theorem get_of_absent (absent : store.records.get? block = none) :
    UndoStore.get store block = .error (.notFound block) := by
  simp only [UndoStore.get, UndoStore.getRaw, absent]
  rfl

theorem get_eq_ok_iff {undo : BlockUndo} : UndoStore.get store block = .ok undo ↔
    ∃ payload, store.records.get? block = some payload ∧ ofWire BlockUndo payload = .ok undo := by
  cases held : store.records.get? block with
  | none =>
    rw [get_of_absent held]
    exact ⟨nofun, nofun⟩
  | some payload =>
    rw [get_of_held held, Fallible.mapError_eq_ok_iff]
    exact ⟨fun accepted => ⟨payload, rfl, accepted⟩, fun ⟨_, same, accepted⟩ =>
      Option.some.inj same ▸ accepted⟩

end MemoryStore

namespace Tool

variable {rehearsal : Bool} {block : Digest} {blocks : List Digest} {store : MemoryStore}
  {before between after : Migration MemoryStore}

theorem isLegacy_eq (store : MemoryStore) (block : Digest) :
    isLegacy store block = (store.records.get? block).any isLegacyRecord := by
  rw [isLegacy]
  cases held : store.records.get? block with
  | none => rw [MemoryStore.get_of_absent held]; rfl
  | some payload =>
    rw [MemoryStore.get_of_held held, Option.any_some, isLegacyRecord]
    cases ofWire BlockUndo payload <;> rfl

/-- What a migration leaves of a record; a rehearsal leaves it as it is. -/
def remade (rehearsal : Bool) (payload : Bytes) : Bytes :=
  if rehearsal then payload else upgradedRecord payload

theorem remade_of_not_legacy {payload : Bytes} (other : isLegacyRecord payload = false) :
    remade rehearsal payload = payload := by
  rw [remade, upgradedRecord_of_not_legacy other, ite_self]

/-- **What a migration does** by going through some blocks: their records are made anew, and those
of the legacy generation are counted. -/
structure Advances (rehearsal : Bool) (blocks : List Digest)
    (before after : Migration MemoryStore) : Prop where
  records : ∀ block, after.store.records.get? block =
    if block ∈ blocks then (before.store.records.get? block).map (remade rehearsal)
    else before.store.records.get? block
  migrated : after.migrated = before.migrated + blocks.countP (isLegacy before.store)

/-! ### One block -/

theorem countP_isLegacy_singleton (store : MemoryStore) (block : Digest) :
    [block].countP (isLegacy store) = (isLegacy store block).toNat := by
  rw [List.countP_singleton]
  cases isLegacy store block <;> rfl

/-- A step that leaves the store as it is, since the record of its block would stay the same. -/
theorem Advances.of_kept (store : after.store = before.store)
    (kept : (before.store.records.get? block).map (remade rehearsal) =
      before.store.records.get? block)
    (counted : after.migrated = before.migrated + (isLegacy before.store block).toNat) :
    Advances rehearsal [block] before after where
  records other := by
    rw [store]
    split
    · next here => rw [List.mem_singleton.mp here, kept]
    · rfl
  migrated := by rw [counted, countP_isLegacy_singleton]

/-- A step that puts the record of its block anew. -/
theorem Advances.of_put {payload made : Bytes}
    (store : after.store = ⟨before.store.records.insert block made⟩)
    (held : before.store.records.get? block = some payload)
    (anew : remade rehearsal payload = made)
    (counted : after.migrated = before.migrated + (isLegacy before.store block).toNat) :
    Advances rehearsal [block] before after where
  records other := by
    rw [store, OrderedMap.get?_insert]
    by_cases here : block = other
    · rw [if_pos here, if_pos (List.mem_singleton.mpr here.symm), ← here, held, Option.map_some,
        anew]
    · rw [if_neg here, if_neg fun member => here (List.mem_singleton.mp member).symm]
  migrated := by rw [counted, countP_isLegacy_singleton]

/-- **A step never fails**, and does to its block what a migration does. -/
theorem migrateOne_advances (rehearsal : Bool) (before : Migration MemoryStore) (block : Digest) :
    ∃ after, migrateOne rehearsal before block = (after, .ok ()) ∧
      Advances rehearsal [block] before after := by
  have legacy := isLegacy_eq before.store block
  rw [migrateOne]
  cases held : before.store.records.get? block with
  | none =>
    rw [held] at legacy
    rw [MemoryStore.get_of_absent held]
    exact ⟨_, rfl, .of_kept rfl (by rw [held]; rfl) (by rw [legacy]; rfl)⟩
  | some payload =>
    rw [held, Option.any_some] at legacy
    have kept : remade rehearsal payload = payload →
        (before.store.records.get? block).map (remade rehearsal) =
          before.store.records.get? block := fun same => by rw [held, Option.map_some, same]
    rw [MemoryStore.get_of_held held]
    cases accepted : ofWire BlockUndo payload with
    | error problem =>
      have other := isLegacyRecord_of_refused accepted
      rw [other] at legacy
      exact ⟨_, rfl, .of_kept rfl (kept (remade_of_not_legacy other)) (by rw [legacy]; rfl)⟩
    | ok undo =>
      have read := isLegacyRecord_of_read accepted
      simp only [Except.mapError]
      cases old : undo.isLegacy with
      | false =>
        rw [old] at read
        rw [read] at legacy
        exact ⟨_, rfl, .of_kept rfl (kept (remade_of_not_legacy read)) (by rw [legacy]; rfl)⟩
      | true =>
        rw [read, old] at legacy
        cases rehearsal with
        | true => exact ⟨_, rfl, .of_kept rfl (kept rfl) (by rw [legacy]; rfl)⟩
        | false =>
          have made : remade false payload = toWire undo := upgradedRecord_of_legacy accepted old
          exact ⟨_, rfl, .of_put rfl held made (by rw [legacy]; rfl)⟩

/-! ### All blocks -/

/-- A run over no blocks. -/
theorem Advances.refl : Advances rehearsal [] before before where
  records _ := (if_neg List.not_mem_nil).symm
  migrated := rfl

/-- **One block more.** The blocks behind it are other ones, so their records are still those from
before. -/
theorem Advances.cons (apart : block ∉ blocks) (first : Advances rehearsal [block] before between)
    (rest : Advances rehearsal blocks between after) :
    Advances rehearsal (block :: blocks) before after := by
  have untouched : ∀ other, other ≠ block →
      between.store.records.get? other = before.store.records.get? other := by
    intro other different
    rw [first.records, if_neg fun member => different (List.mem_singleton.mp member)]
  refine ⟨fun other => ?_, ?_⟩
  · rw [rest.records]
    by_cases here : other = block
    · rw [here, if_neg apart, first.records, if_pos (List.mem_singleton_self block),
        if_pos List.mem_cons_self]
    · rw [untouched other here]
      simp only [List.mem_cons, here, false_or]
  · have behind :
        blocks.countP (isLegacy between.store) = blocks.countP (isLegacy before.store) := by
      refine List.countP_congr fun other member => ?_
      rw [isLegacy_eq, isLegacy_eq, untouched other fun here => apart (here ▸ member)]
    rw [rest.migrated, first.migrated, behind, List.countP_singleton, List.countP_cons]
    omega

/-- **A migration goes through all its blocks.** -/
theorem migrateAll_advances (rehearsal : Bool) (distinct : blocks.Nodup)
    (before : Migration MemoryStore) :
    ∃ after, migrateAll rehearsal before blocks = (after, .ok ()) ∧
      Advances rehearsal blocks before after := by
  induction blocks generalizing before with
  | nil => exact ⟨before, rfl, .refl⟩
  | cons block blocks ih =>
    obtain ⟨apart, distinct⟩ := List.nodup_cons.mp distinct
    obtain ⟨between, stepped, first⟩ := migrateOne_advances rehearsal before block
    obtain ⟨after, ran, rest⟩ := ih distinct between
    refine ⟨after, ?_, first.cons apart rest⟩
    rw [migrateAll, stepped]
    exact ran

/-! ### The whole store -/

/-- **What a migration leaves and gives**: every record made anew, and the number of those that
were of the legacy generation. -/
theorem migrate_eq (store : MemoryStore) (rehearsal : Bool) :
    (migrate store rehearsal).1 = ⟨store.records.mapValues fun _ => remade rehearsal⟩ ∧
      (migrate store rehearsal).2.result = .ok (store.records.keys.countP (isLegacy store)) := by
  have distinct : store.records.keys.Nodup := store.records.keys_nodup
  obtain ⟨after, ran, advances⟩ := migrateAll_advances rehearsal distinct ⟨store, [], 0, 0⟩
  have given : migrate store rehearsal =
      (after.store, ⟨after.lines ++ migrationSummary rehearsal after, .ok after.migrated⟩) := by
    have listed : UndoStore.list store = .ok store.records.keys := rfl
    simp only [migrate, listed, ran]
  have records : after.store.records = store.records.mapValues fun _ => remade rehearsal := by
    refine OrderedMap.ext_get? fun block => ?_
    rw [advances.records, OrderedMap.get?_mapValues]
    split
    · rfl
    · next missing =>
      rw [OrderedMap.mem_keys_iff, Option.not_isSome_iff_eq_none] at missing
      rw [missing]
      rfl
  rw [given]
  refine ⟨congrArg MemoryStore.mk records, ?_⟩
  show Except.ok after.migrated = _
  rw [advances.migrated, Nat.zero_add]

/-- What a migration does to the record of a block. -/
theorem get?_migrate (store : MemoryStore) (rehearsal : Bool) (block : Digest) :
    (migrate store rehearsal).1.records.get? block =
      (store.records.get? block).map (remade rehearsal) := by
  rw [(migrate_eq store rehearsal).1]
  exact OrderedMap.get?_mapValues

/-- A record that is made anew as it was stays in the store. -/
theorem getRaw_migrate_of_kept {payload : Bytes} (same : remade rehearsal payload = payload)
    (held : UndoStore.getRaw store block = .ok payload) :
    UndoStore.getRaw (migrate store rehearsal).1 block = .ok payload := by
  rw [MemoryStore.getRaw_eq_ok_iff] at held ⊢
  rw [get?_migrate, held, Option.map_some, same]

/-- **A legacy record is read as before**, in the current generation and with its amounts as the
wire carries them. -/
theorem get_migrate_of_legacy {undo : BlockUndo} (got : UndoStore.get store block = .ok undo)
    (old : undo.isLegacy = true) :
    UndoStore.get (migrate store false).1 block = .ok undo.upgraded.carried := by
  obtain ⟨payload, held, accepted⟩ := MemoryStore.get_eq_ok_iff.mp got
  refine MemoryStore.get_eq_ok_iff.mpr ⟨toWire undo, ?_, BlockUndo.ofWire_toWire_of_read accepted⟩
  rw [get?_migrate, held, Option.map_some]
  exact congrArg some (upgradedRecord_of_legacy accepted old)

/-- A store whose records all stay as they are is left as it is. -/
theorem migrate_fst_eq_self
    (same : ∀ block payload, store.records.get? block = some payload →
      remade rehearsal payload = payload) : (migrate store rehearsal).1 = store := by
  rw [(migrate_eq store rehearsal).1, OrderedMap.mapValues_eq_self same]

/-- No block has a legacy record after a migration. -/
theorem isLegacy_migrate (store : MemoryStore) (block : Digest) :
    isLegacy (migrate store false).1 block = false := by
  rw [isLegacy_eq, get?_migrate]
  cases store.records.get? block with
  | none => rfl
  | some payload => exact isLegacyRecord_upgradedRecord payload

/-- **A migration keeps what the records mean, and changes no others.** It gives the number of
blocks whose logs are of the legacy generation. Such a log is got afterwards in the current
generation, without sidechains, with the same root and, when its amounts are in range, with the
same records of transactions; every other record keeps its bytes, and the store has the same
blocks. A second migration changes nothing, and so does a rehearsal. -/
theorem migrate_preserves (store : MemoryStore) :
    let migrated := (migrate store false).1
    let count := store.records.keys.countP (isLegacy store)
    (migrate store false).2.result = .ok count ∧
    (∀ block undo, UndoStore.get store block = .ok undo → undo.generation = .legacy →
      ∃ after, UndoStore.get migrated block = .ok after ∧ after.generation = .current ∧
        after.sidechains = .empty ∧ after.priorRoot = undo.priorRoot ∧
        ((∀ txUndo ∈ undo.txUndos, ∀ prevout ∈ txUndo.prevouts,
          prevout.output.value.inRange = true) → after.txUndos = undo.txUndos)) ∧
    (∀ block payload, UndoStore.getRaw store block = .ok payload →
      (∀ undo, ofWire BlockUndo payload = .ok undo → undo.generation = .current) →
        UndoStore.getRaw migrated block = .ok payload) ∧
    migrated.records.keys = store.records.keys ∧
    ((migrate migrated false).1 = migrated ∧ (migrate migrated false).2.result = .ok 0) ∧
    ((migrate store true).1 = store ∧ (migrate store true).2.result = .ok count) := by
  intro migrated count
  have fresh : ∀ block, isLegacy migrated block = false := isLegacy_migrate store
  refine ⟨(migrate_eq store false).2, fun block undo got old => ?_,
    fun block payload held current => ?_, ?_, ⟨?_, ?_⟩, ?_⟩
  · obtain ⟨payload, held, accepted⟩ := MemoryStore.get_eq_ok_iff.mp got
    have legacy : undo.isLegacy = true := by rw [BlockUndo.isLegacy, old]; rfl
    have empty : undo.sidechains = .empty := BlockUndo.sidechains_of_legacy accepted old
    refine ⟨_, get_migrate_of_legacy got legacy, rfl, empty, rfl, fun inRange => ?_⟩
    have same : undo.carried = undo :=
      BlockUndo.carried_eq_self_iff.mpr fun txUndo tx prevout member =>
        Amount.packs_of_inRange (inRange txUndo tx prevout member)
    have records : undo.carried.txUndos = undo.txUndos := by rw [same]
    exact records
  · refine getRaw_migrate_of_kept (remade_of_not_legacy ?_) held
    rw [Bool.eq_false_iff]
    intro legacy
    obtain ⟨undo, accepted, old⟩ := exists_read_of_legacy legacy
    rw [BlockUndo.isLegacy, current undo accepted] at old
    cases old
  · show (migrate store false).1.records.keys = _
    rw [(migrate_eq store false).1]
    exact OrderedMap.keys_mapValues
  · refine migrate_fst_eq_self fun block payload held => remade_of_not_legacy ?_
    have none := fresh block
    rwa [isLegacy_eq, held, Option.any_some] at none
  · rw [(migrate_eq migrated false).2, List.countP_eq_zero.mpr fun block _ => ?_]
    rw [fresh]
    exact Bool.false_ne_true
  · exact ⟨migrate_fst_eq_self fun _ _ _ => rfl, (migrate_eq store true).2⟩

/-- A store with a legacy record, a current one and one that does not read. -/
def assorted : MemoryStore :=
  ⟨.ofList [(.zero, BlockUndo.legacyForm BlockUndo.mixed.txUndos .zero),
    (.filled 1, toWire BlockUndo.mixed), (.filled 2, [1])]⟩

theorem ofWire_mixed : ofWire BlockUndo (toWire BlockUndo.mixed) = .ok BlockUndo.mixed :=
  (BlockUndo.faithful (by decide +kernel)).ofWire

theorem get_assorted_legacy : UndoStore.get assorted .zero =
    .ok (BlockUndo.withoutSidechains BlockUndo.mixed.txUndos .zero .legacy) :=
  MemoryStore.get_eq_ok_iff.mpr ⟨_, by decide +kernel,
    (BlockUndo.reads_legacyForm (by decide) (by decide +kernel) (by decide)).whole⟩

theorem migrate_preserves_assorted :
    (migrate assorted false).2.result = .ok 1 ∧
    (∃ after, UndoStore.get (migrate assorted false).1 .zero = .ok after ∧
      after.generation = .current ∧ after.txUndos = BlockUndo.mixed.txUndos) ∧
    UndoStore.getRaw (migrate assorted false).1 (.filled 1) = .ok (toWire BlockUndo.mixed) ∧
    UndoStore.getRaw (migrate assorted false).1 (.filled 2) = .ok [1] ∧
    (migrate assorted true).1 = assorted := by
  obtain ⟨given, legacy, others, -, -, rehearsed⟩ := migrate_preserves assorted
  have count : assorted.records.keys.countP (isLegacy assorted) = 1 := by decide +kernel
  have damaged : (ofWire BlockUndo [1]).isOk = false := by decide +kernel
  obtain ⟨after, upgraded, generation, -, -, kept⟩ := legacy .zero _ get_assorted_legacy rfl
  refine ⟨count ▸ given, ⟨after, upgraded, generation, kept (by decide)⟩,
    others _ _ (MemoryStore.getRaw_eq_ok_iff.mpr (by decide +kernel)) fun undo accepted => ?_,
    others _ _ (MemoryStore.getRaw_eq_ok_iff.mpr (by decide +kernel)) fun undo accepted => ?_,
    rehearsed.1⟩
  · obtain rfl := Except.ok.inj (ofWire_mixed.symm.trans accepted)
    rfl
  · rw [accepted] at damaged
    cases damaged

end Tool

end Reorg
