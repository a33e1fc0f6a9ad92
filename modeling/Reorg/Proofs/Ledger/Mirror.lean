/-
**Events as a mirror of the sidechains.**

The events of a ledger say of the sidechains that a block touched how they stand afterwards. The
others stand as before, so whoever has heard of all these events, over whatever calls and whatever
store, knows how every sidechain stands: which there are, with what balance and what last epoch. A
call that fails publishes nothing and changes no sidechain.

* `Mirror`, `Mirror.ofEvents`: what events say of sidechains;
* `SidechainView.standing`: how the sidechains of a view stand;
* `ChainState.foldl_hear_sidechainEvents`: the events of a block turn the one standing into the other;
* `Node.run`: the calls that a node takes, those that fail included;
* `Node.mirror_run`: the events that were heard mirror the sidechains after every run.
-/

import Reorg.Ledger.Node
import Reorg.Proofs.Bus.Delivery
import Reorg.Proofs.Chain.Accounts
import Reorg.Proofs.Ledger.Run
import Reorg.Proofs.Sidechain.Touched

namespace Reorg

open Fallible OrderedMap

/-! ### Mirrors -/

/-- What events say of sidechains: the balance and the last epoch of each. -/
abbrev Mirror := OrderedMap SidechainId (Amount × Epoch)

namespace Mirror

/-- What is known after an event. -/
def hear (mirror : Mirror) : Event → Mirror
  | .sidechainUpdated id _ true balance lastEpoch => mirror.insert id (balance, lastEpoch)
  | .sidechainUpdated id _ false _ _ => mirror.erase id
  | .blockConnected _ _ _ _ | .blockDisconnected _ _ _ => mirror

/-- What is known after some events. -/
def ofEvents (events : List Event) : Mirror := events.foldl hear .empty

theorem ofEvents_append {front back : List Event} :
    ofEvents (front ++ back) = back.foldl hear (ofEvents front) :=
  List.foldl_append

end Mirror

/-- The balance and the last epoch of each sidechain. -/
def SidechainView.standing (view : SidechainView) : Mirror :=
  view.mapValues fun _ sidechain => (sidechain.balance, sidechain.lastEpoch)

namespace ChainState

variable {before state : ChainState} {block : Block} {undo : BlockUndo} {mirror : Mirror}
  {id : SidechainId}

/-- What is told about a sidechain that a block touched. -/
def sidechainEvent (state : ChainState) (block : Block) (id : SidechainId) : Event :=
  match state.sidechains.get? id with
  | none => .sidechainUpdated id block.hash false 0 noEpoch
  | some sidechain => .sidechainUpdated id block.hash true sidechain.balance sidechain.lastEpoch

theorem sidechainEvents_eq_map : Ledger.sidechainEvents state block undo =
    (touchedSidechains block undo).map (sidechainEvent state block) := rfl

theorem kind_sidechainEvent : (sidechainEvent state block id).kind = .sidechainUpdated := by
  rw [sidechainEvent]
  split <;> rfl

theorem get?_hear_sidechainEvent {other : SidechainId} :
    (mirror.hear (sidechainEvent state block other)).get? id =
      if other = id then state.sidechains.standing.get? id else mirror.get? id := by
  rw [SidechainView.standing, get?_mapValues, sidechainEvent]
  split
  · next absent =>
    rw [Mirror.hear, get?_erase]
    split
    · next here => rw [← here, absent, Option.map_none]
    · rfl
  · next sidechain held =>
    rw [Mirror.hear, get?_insert]
    split
    · next here => rw [← here, held, Option.map_some]
    · rfl

theorem get?_foldl_hear {ids : List SidechainId} :
    ((ids.map (sidechainEvent state block)).foldl Mirror.hear mirror).get? id =
      if id ∈ ids then state.sidechains.standing.get? id else mirror.get? id := by
  induction ids generalizing mirror with
  | nil => rfl
  | cons other ids ih =>
    rw [List.map_cons, List.foldl_cons, ih, get?_hear_sidechainEvent]
    by_cases here : other = id
    · simp [here]
    · simp [here, Ne.symm here]

/-- **The events of a block tell how the sidechains stand after it**, when the others stand as
before. -/
theorem foldl_hear_sidechainEvents (frame : ∀ id, id ∉ touchedSidechains block undo →
      state.sidechains.get? id = before.sidechains.get? id) :
    (Ledger.sidechainEvents state block undo).foldl Mirror.hear before.sidechains.standing =
      state.sidechains.standing := by
  refine ext_get? fun id => ?_
  rw [sidechainEvents_eq_map, get?_foldl_hear]
  split
  · rfl
  · next untouched =>
    rw [SidechainView.standing, SidechainView.standing, get?_mapValues, get?_mapValues,
      frame id untouched]

end ChainState

/-! ### Ledgers -/

namespace Ledger

variable {σ : Type} [UndoStore σ] {ledger next : Ledger σ} {block : Block} {events : List Event}
  {problem : LedgerError} {status : DisconnectStatus}

/-- What a ledger tells of a block, behind the event of the block itself. -/
theorem exists_of_connect_ok (connected : ledger.connect block = (next, .ok events)) :
    ∃ undo, ledger.state.connect block = .ok (next.state, undo) ∧
      events = .blockConnected block.hash block.height block.transactions.length (wireSize undo) ::
        sidechainEvents next.state block undo := by
  rw [connect] at connected
  split at connected
  · cases connected
  · split at connected
    · cases connected
    · next state undo led =>
      split at connected
      · cases connected
      · cases connected
        exact ⟨undo, led, rfl⟩

/-- A block that is not connected changes the store at most. -/
theorem state_eq_of_connect_error (refused : ledger.connect block = (next, .error problem)) :
    next.state = ledger.state := by
  rw [connect] at refused
  split at refused
  · cases refused
    rfl
  · split at refused
    · cases refused
      rfl
    · split at refused
      · cases refused
        rfl
      · cases refused

theorem exists_of_disconnectTip_ok
    (disconnected : ledger.disconnectTip = .ok (some (status, events), next)) :
    ∃ block undo, ledger.blocks = block :: next.blocks ∧
      ledger.state.disconnect block undo = .ok (next.state, status) ∧
      events = .blockDisconnected block.hash block.height (status == .clean) ::
        sidechainEvents next.state block undo := by
  obtain ⟨blocks, state, store⟩ := ledger
  cases blocks with
  | nil => cases disconnected
  | cons block blocks =>
    obtain ⟨undo, -, rest⟩ := bind_eq_ok_iff.mp disconnected
    obtain ⟨⟨left, found⟩, reverted, rest⟩ := bind_eq_ok_iff.mp rest
    cases rest
    exact ⟨block, undo, rfl, mapError_eq_ok_iff.mp reverted, rfl⟩

theorem eq_nil_of_disconnectTip_none (nothing : ledger.disconnectTip = .ok (none, next)) :
    ledger.blocks = [] := by
  obtain ⟨blocks, state, store⟩ := ledger
  cases blocks with
  | nil => rfl
  | cons block blocks =>
    obtain ⟨undo, -, rest⟩ := bind_eq_ok_iff.mp nothing
    obtain ⟨_, -, rest⟩ := bind_eq_ok_iff.mp rest
    cases rest

end Ledger

/-! ### Nodes -/

/-- What a node may be asked to do. -/
inductive Request
  | connect (block : Block)
  | disconnectTip

namespace Node

variable {σ : Type} [UndoStore σ] {node next : Node σ} {block : Block} {id : SubscriptionId}
  {name : String} {kind : EventKind} {trace : List TraceEntry} {problem : LedgerError}
  {status : DisconnectStatus}

/-- A node after a call, with what happened on its bus. -/
def perform (node : Node σ) : Request → Node σ × List TraceEntry
  | .connect block =>
    match node.connect block with
    | (next, .ok trace) => (next, trace)
    | (next, .error _) => (next, [])
  | .disconnectTip =>
    match node.disconnectTip with
    | (next, .ok (_, trace)) => (next, trace)
    | (next, .error _) => (next, [])

/-- A node after some calls, with all that happened on its bus. -/
def run (node : Node σ) (requests : List Request) : Node σ × List TraceEntry :=
  requests.foldl (fun reached request =>
    ((reached.1.perform request).1, reached.2 ++ (reached.1.perform request).2)) (node, [])

/-- What the next call publishes: the event of its block, and then one event for each sidechain that
the block touched, ascending. A call that fails publishes nothing, and so does disconnecting when
there are no blocks. -/
structure Publishes (node : Node σ) : Prop where
  connected : ∀ block next trace, node.connect block = (next, .ok trace) → ∃ undo,
    node.ledger.state.connect block = .ok (next.ledger.state, undo) ∧
    announced trace =
      .blockConnected block.hash block.height block.transactions.length (wireSize undo) ::
        (touchedSidechains block undo).map (next.ledger.state.sidechainEvent block) ∧
    (touchedSidechains block undo).Pairwise fun first second => compare first second = .lt
  disconnected : ∀ next status trace, node.disconnectTip = (next, .ok (some status, trace)) →
    ∃ block undo, node.ledger.blocks = block :: next.ledger.blocks ∧
    node.ledger.state.disconnect block undo = .ok (next.ledger.state, status) ∧
    announced trace = .blockDisconnected block.hash block.height (status == .clean) ::
      (touchedSidechains block undo).map (next.ledger.state.sidechainEvent block) ∧
    (touchedSidechains block undo).Pairwise fun first second => compare first second = .lt
  refused : ∀ block next problem, node.connect block = (next, .error problem) →
    next.session = node.session
  kept : ∀ next problem, node.disconnectTip = (next, .error problem) → next = node
  nothing : ∀ next trace, node.disconnectTip = (next, .ok (none, trace)) →
    node.ledger.blocks = [] ∧ next = node ∧ trace = []

theorem exists_of_connect_ok (connected : node.connect block = (next, .ok trace)) :
    ∃ events, node.ledger.connect block = (next.ledger, .ok events) ∧
      node.session.publishAll events = (next.session, trace) := by
  rw [connect] at connected
  split at connected
  · cases connected
  · next ledger events led =>
    cases connected
    exact ⟨events, led, rfl⟩

theorem exists_of_connect_error (refused : node.connect block = (next, .error problem)) :
    node.ledger.connect block = (next.ledger, .error problem) ∧ next.session = node.session := by
  rw [connect] at refused
  split at refused
  · next ledger found led =>
    cases refused
    exact ⟨led, rfl⟩
  · cases refused

theorem exists_of_disconnectTip_ok
    (disconnected : node.disconnectTip = (next, .ok (some status, trace))) :
    ∃ events, node.ledger.disconnectTip = .ok (some (status, events), next.ledger) ∧
      node.session.publishAll events = (next.session, trace) := by
  rw [disconnectTip] at disconnected
  split at disconnected
  · cases disconnected
  · cases disconnected
  · next events ledger left =>
    cases disconnected
    exact ⟨events, left, rfl⟩

/-- **What the next call publishes**, when somebody hears. -/
theorem publishes (hears : node.session.Hears id name kind) : node.Publishes where
  connected block next trace connected := by
    obtain ⟨events, led, told⟩ := exists_of_connect_ok connected
    obtain ⟨undo, state, rfl⟩ := Ledger.exists_of_connect_ok led
    have delivered := hears.publishAll (.blockConnected block.hash block.height
      block.transactions.length (wireSize undo) ::
        Ledger.sidechainEvents next.ledger.state block undo)
    rw [told] at delivered
    exact ⟨undo, state, delivered.2.2, touchedSidechains_ascending⟩
  disconnected next status trace disconnected := by
    obtain ⟨events, left, told⟩ := exists_of_disconnectTip_ok disconnected
    obtain ⟨block, undo, blocks, state, rfl⟩ := Ledger.exists_of_disconnectTip_ok left
    have delivered := hears.publishAll (.blockDisconnected block.hash block.height
      (status == .clean) :: Ledger.sidechainEvents next.ledger.state block undo)
    rw [told] at delivered
    exact ⟨block, undo, blocks, state, delivered.2.2, touchedSidechains_ascending⟩
  refused block next problem refused := (exists_of_connect_error refused).2
  kept next problem refused := by
    rw [disconnectTip] at refused
    split at refused <;> cases refused
    rfl
  nothing next trace answered := by
    rw [disconnectTip] at answered
    split at answered
    · cases answered
    · next ledger left =>
      cases answered
      exact ⟨Ledger.eq_nil_of_disconnectTip_none left, rfl, rfl⟩
    · cases answered

/-! ### Runs -/

/-- Somebody hears of the sidechains, and what was heard tells how they stand. -/
structure Mirrors (id : SubscriptionId) (name : String) (reached : Node σ × List TraceEntry) :
    Prop where
  hears : reached.1.session.Hears id name .sidechainUpdated
  standing : Mirror.ofEvents (heard id reached.2) = reached.1.ledger.state.sidechains.standing

/-- Of the events of a block, those of its sidechains are heard. -/
theorem heard_publishAll {session : Session} {state : ChainState} {undo : BlockUndo} {event : Event}
    (hears : session.Hears id name .sidechainUpdated) (other : event.kind ≠ .sidechainUpdated) :
    heard id (session.publishAll (event :: Ledger.sidechainEvents state block undo)).2 =
      Ledger.sidechainEvents state block undo := by
  have all : (Ledger.sidechainEvents state block undo).filter
      (fun event => event.kind = .sidechainUpdated) = Ledger.sidechainEvents state block undo := by
    refine List.filter_eq_self.mpr fun event member => ?_
    rw [ChainState.sidechainEvents_eq_map] at member
    obtain ⟨id, -, rfl⟩ := List.mem_map.mp member
    exact decide_eq_true ChainState.kind_sidechainEvent
  rw [(hears.publishAll _).2.1, List.filter_cons_of_neg (by simpa using other), all]

omit [UndoStore σ] in
/-- What is heard of a block tells how the sidechains stand after it. -/
theorem Mirrors.tell {before : List TraceEntry} {undo : BlockUndo} {event : Event}
    (mirrors : Mirrors id name (node, before)) (other : event.kind ≠ .sidechainUpdated)
    (frame : ∀ id, id ∉ touchedSidechains block undo →
      next.ledger.state.sidechains.get? id = node.ledger.state.sidechains.get? id)
    (told : node.session.publishAll (event :: Ledger.sidechainEvents next.ledger.state block undo) =
      (next.session, trace)) : Mirrors id name (next, before ++ trace) := by
  have kept := (mirrors.hears.publishAll
    (event :: Ledger.sidechainEvents next.ledger.state block undo)).1
  have hear : heard id _ = Ledger.sidechainEvents next.ledger.state block undo :=
    heard_publishAll mirrors.hears other
  rw [told] at kept hear
  refine ⟨kept, ?_⟩
  rw [heard, List.flatMap_append, ← heard, ← heard, Mirror.ofEvents_append, mirrors.standing, hear]
  exact ChainState.foldl_hear_sidechainEvents frame

/-- **A call keeps the mirror faithful**, whether it succeeds or fails. -/
theorem Mirrors.perform {before : List TraceEntry} (mirrors : Mirrors id name (node, before))
    (request : Request) :
    Mirrors id name ((node.perform request).1, before ++ (node.perform request).2) := by
  cases request with
  | connect block =>
    rw [Node.perform]
    split
    · next next trace connected =>
      obtain ⟨events, led, told⟩ := exists_of_connect_ok connected
      obtain ⟨undo, state, rfl⟩ := Ledger.exists_of_connect_ok led
      exact mirrors.tell (by rintro ⟨⟩)
        (fun _ untouched => ChainState.get?_of_connect untouched state) told
    · next next problem refused =>
      obtain ⟨led, session⟩ := exists_of_connect_error refused
      have state := Ledger.state_eq_of_connect_error led
      refine ⟨session ▸ mirrors.hears, ?_⟩
      rw [List.append_nil, state]
      exact mirrors.standing
  | disconnectTip =>
    have publishes := publishes mirrors.hears
    rw [Node.perform]
    split
    · next next status? trace disconnected =>
      cases status? with
      | none =>
        obtain ⟨-, rfl, rfl⟩ := publishes.nothing next trace disconnected
        rw [List.append_nil]
        exact mirrors
      | some status =>
        obtain ⟨events, left, told⟩ := exists_of_disconnectTip_ok disconnected
        obtain ⟨block, undo, -, state, rfl⟩ := Ledger.exists_of_disconnectTip_ok left
        exact mirrors.tell (by rintro ⟨⟩)
          (fun _ untouched => ChainState.get?_of_disconnect untouched state) told
    · next next problem refused =>
      obtain rfl := publishes.kept next problem refused
      rw [List.append_nil]
      exact mirrors

theorem run_concat {requests : List Request} {request : Request} :
    node.run (requests ++ [request]) = (((node.run requests).1.perform request).1,
      (node.run requests).2 ++ ((node.run requests).1.perform request).2) :=
  List.foldl_concat _ _ _ _

/-- **The events that were heard mirror the sidechains** after every run of calls over every store,
and the next call publishes what it has to. -/
theorem mirror_run {session : Session} (hears : session.Hears id name .sidechainUpdated)
    (config : LedgerConfig) (store : σ) (requests : List Request) :
    let reached := run ⟨.start config store, session⟩ requests
    Mirror.ofEvents (heard id reached.2) = reached.1.ledger.state.sidechains.standing ∧
      reached.1.Publishes := by
  have mirrors : Mirrors id name (run ⟨.start config store, session⟩ requests) := by
    induction requests using List.reverseRecOn with
    | nil => exact ⟨hears, rfl⟩
    | append_singleton requests request ih =>
      rw [run_concat]
      exact ih.perform request
  exact ⟨mirrors.standing, publishes mirrors.hears⟩

/-- A session in which the first subscriber hears of sidechains, and another one brings a third on
its first event and goes. -/
def watched : Session :=
  (((Session.initial.act none (.subscribe "mirror" .sidechainUpdated [.summary])).1).act none
    (.subscribe "usher" .blockConnected
      [.subscribe "guest" .sidechainUpdated [.count .sidechainUpdated], .unsubscribe "usher"])).1

/-- Calls that connect a sidechain and send it value, one that is refused, and some that
disconnect. -/
def roundTrip : List Request := [
  .connect ⟨.filled 4, 0, [], [], .zero⟩,
  .connect ⟨.filled 5, 1, [⟨.filled 1, -4, true, [], [], [.creation .zero 50 ChainState.openParams]⟩],
    [], .zero⟩,
  .connect ⟨.filled 6, 9, [], [], .zero⟩,
  .connect ⟨.filled 7, 2, [], [], .zero⟩,
  .disconnectTip, .disconnectTip, .disconnectTip, .disconnectTip]

theorem mirror_run_roundTrip : watched.Hears 0 "mirror" .sidechainUpdated ∧
    let reached := run ⟨.start Ledger.regtest MemoryStore.empty, watched⟩ roundTrip
    Mirror.ofEvents (heard 0 reached.2) = reached.1.ledger.state.sidechains.standing ∧
      reached.1.Publishes := by
  have first : (Session.initial.act none (.subscribe "mirror" .sidechainUpdated [.summary])).1.Hears 0
      "mirror" .sidechainUpdated :=
    Session.hears_subscribed (List.forall_mem_singleton.mpr trivial)
  have hears : watched.Hears 0 "mirror" .sidechainUpdated := by
    refine first.subscribe fun action member => ?_
    rcases List.mem_cons.mp member with rfl | member
    · exact ⟨trivial, trivial⟩
    · rw [List.mem_singleton.mp member]
      exact (by decide : "usher" ≠ "mirror")
  exact ⟨hears, mirror_run hears Ledger.regtest MemoryStore.empty roundTrip⟩

end Node

end Reorg
