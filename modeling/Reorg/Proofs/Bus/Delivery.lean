/-
**What a subscriber hears.**

Whatever subscribers do when they hear of an event, the one who made a subscription hears of the
events of its kind, each once and in the order in which they are published, as long as nobody
publishes in between or ends the subscription. Others may come, and may end what is not this one's.

* `Action.Spares`: the actions that leave a subscription alone;
* `Session.Hears`: there is a subscription that is left alone;
* `Session.Hears.step`, `Session.Hears.run`: what is heard and published in one step, and in a run;
* `Session.Hears.publishAll`: events that are published one after the other.
-/

import Mathlib.Data.List.Nodup
import Reorg.Bus.Session

namespace Reorg

/-! ### Actions and tasks -/

namespace Action

mutual

/-- The action publishes nothing and does not end a subscription that somebody of a given name made;
neither does anything that a subscriber it brings is to do. -/
def Spares (name : String) : Action → Prop
  | .subscribe _ _ onFirst => AllSpare name onFirst
  | .unsubscribe other => other ≠ name
  | .count _ | .summary => True
  | .unsubscribeAll | .publish _ => False

/-- All of the actions spare a name. -/
def AllSpare (name : String) : List Action → Prop
  | [] => True
  | action :: actions => Spares name action ∧ AllSpare name actions

end

theorem allSpare_iff {name : String} {actions : List Action} :
    AllSpare name actions ↔ ∀ action ∈ actions, action.Spares name := by
  induction actions with
  | nil => exact ⟨fun _ _ member => (List.not_mem_nil member).elim, fun _ => trivial⟩
  | cons action actions ih => rw [AllSpare, ih, List.forall_mem_cons]

end Action

/-- What the maker of a subscription hears. -/
def TraceEntry.heard (id : SubscriptionId) : TraceEntry → List Event
  | .delivered _ other event => if other = id then [event] else []
  | _ => []

/-- What is published. -/
def TraceEntry.announced : TraceEntry → List Event
  | .published _ event => [event]
  | _ => []

/-- All that the maker of a subscription hears, in order. -/
def heard (id : SubscriptionId) (trace : List TraceEntry) : List Event :=
  trace.flatMap (TraceEntry.heard id)

/-- All that is published, in order. -/
def announced (trace : List TraceEntry) : List Event := trace.flatMap TraceEntry.announced

namespace Task

/-- What the maker of a subscription of a kind is to hear by a task. -/
def toHear (id : SubscriptionId) (kind : EventKind) : Task → List Event
  | .act _ (.publish event) => if event.kind = kind then [event] else []
  | .deliver _ other event => if other = id then [event] else []
  | _ => []

/-- What is to be published by a task. -/
def toAnnounce : Task → List Event
  | .act _ (.publish event) => [event]
  | _ => []

/-- The task spares a name, or only publishes. -/
def Calm (name : String) : Task → Prop
  | .act _ action => action.Spares name ∨ ∃ event, action = .publish event
  | _ => True

end Task

namespace Session

variable {session : Session} {id : SubscriptionId} {name : String} {kind : EventKind}
  {action : Action} {actor? : Option SubscriptionId} {task : Task} {event : Event}

/-! ### Subscriptions that are left alone -/

/-- There is a subscription to a kind of event, made under a name, and nobody is to publish or to end
it. -/
structure Hears (session : Session) (id : SubscriptionId) (name : String) (kind : EventKind) :
    Prop where
  subscribed : ⟨id, kind⟩ ∈ session.bus.subscriptions
  distinct : (session.bus.subscriptions.map Subscription.id).Nodup
  given : ∀ subscription ∈ session.bus.subscriptions, subscription.id < session.bus.nextId
  named : ∀ member ∈ session.members, member.id = id → member.name = name
  spared : ∀ member ∈ session.members, ∀ action ∈ member.onFirst, action.Spares name

/-- The first one to subscribe hears. -/
theorem hears_subscribed {onFirst : List Action} (spare : ∀ action ∈ onFirst, action.Spares name) :
    (initial.act none (.subscribe name kind onFirst)).1.Hears 0 name kind where
  subscribed := List.mem_singleton.mpr rfl
  distinct := List.nodup_singleton _
  given := List.forall_mem_singleton.mpr Nat.zero_lt_one
  named := List.forall_mem_singleton.mpr fun _ => rfl
  spared := List.forall_mem_singleton.mpr spare

theorem Hears.subscribe (hears : session.Hears id name kind) {other : String}
    {otherKind : EventKind} {onFirst : List Action}
    (spare : ∀ action ∈ onFirst, action.Spares name) :
    (session.act actor? (.subscribe other otherKind onFirst)).1.Hears id name kind := by
  have fresh : id < session.bus.nextId := hears.given _ hears.subscribed
  refine ⟨List.mem_append_left _ hears.subscribed, ?_, ?_, ?_, ?_⟩
  · show ((session.bus.subscriptions ++
      [(⟨session.bus.nextId, otherKind⟩ : Subscription)]).map _).Nodup
    rw [List.map_append, List.map_singleton, ← List.concat_eq_append, List.nodup_concat]
    refine ⟨fun member => ?_, hears.distinct⟩
    obtain ⟨subscription, member, same⟩ := List.mem_map.mp member
    exact Nat.ne_of_lt (hears.given subscription member) same
  · intro subscription member
    rcases List.mem_append.mp member with before | new
    · exact Nat.lt_succ_of_lt (hears.given subscription before)
    · rw [List.mem_singleton.mp new]
      exact Nat.lt_succ_self _
  · refine List.forall_mem_cons.mpr ⟨fun same => ?_, hears.named⟩
    exact absurd same (Nat.ne_of_gt fresh)
  · exact List.forall_mem_cons.mpr ⟨spare, hears.spared⟩

theorem Hears.unsubscribe (hears : session.Hears id name kind) {other : SubscriptionId}
    (apart : other ≠ id) :
    Hears { session with bus := (session.bus.unsubscribe other).2 } id name kind where
  subscribed := List.mem_filter.mpr ⟨hears.subscribed, bne_iff_ne.mpr apart.symm⟩
  distinct := hears.distinct.sublist (List.filter_sublist.map _)
  given subscription member := hears.given subscription (List.mem_filter.mp member).1
  named := hears.named
  spared := hears.spared

theorem Hears.discharge (hears : session.Hears id name kind) {other : SubscriptionId} :
    (session.discharge other).Hears id name kind := by
  have each : ∀ member ∈ (session.discharge other).members, ∃ before ∈ session.members,
      before.id = member.id ∧ before.name = member.name ∧
        (member.onFirst = before.onFirst ∨ member.onFirst = []) := by
    intro member inside
    obtain ⟨before, among, rfl⟩ := List.mem_map.mp inside
    refine ⟨before, among, ?_⟩
    split
    · exact ⟨rfl, rfl, .inr rfl⟩
    · exact ⟨rfl, rfl, .inl rfl⟩
  refine ⟨hears.subscribed, hears.distinct, hears.given, fun member inside same => ?_,
    fun member inside action among => ?_⟩
  · obtain ⟨before, inside, sameId, sameName, -⟩ := each member inside
    exact sameName ▸ hears.named before inside (sameId.trans same)
  · obtain ⟨before, inside, -, -, kept | gone⟩ := each member inside
    · exact hears.spared before inside action (kept ▸ among)
    · rw [gone] at among
      cases among

/-- What the maker of a subscription is still to do is spared with the rest. -/
theorem Hears.waiting (hears : session.Hears id name kind) {other : SubscriptionId} :
    ∀ action ∈ session.waiting other, action.Spares name := by
  intro action among
  rw [Session.waiting] at among
  cases found : session.member? other with
  | none =>
    rw [found] at among
    cases among
  | some member =>
    rw [found] at among
    exact hears.spared member (List.mem_of_find?_eq_some found) action among

/-! ### Steps -/

theorem flatMap_indicator {ids : List SubscriptionId} (distinct : ids.Nodup) :
    (ids.flatMap fun other => if other = id then [event] else []) =
      if id ∈ ids then [event] else [] := by
  induction ids with
  | nil => rfl
  | cons other ids ih =>
    obtain ⟨apart, distinct⟩ := List.nodup_cons.mp distinct
    rw [List.flatMap_cons, ih distinct]
    by_cases here : other = id
    · subst here
      rw [if_pos rfl, if_neg apart, if_pos List.mem_cons_self]
      rfl
    · rw [if_neg here, List.nil_append]
      simp only [List.mem_cons, Ne.symm here, false_or]

theorem Hears.mem_subscribers_iff (hears : session.Hears id name kind) {other : EventKind} :
    id ∈ session.bus.subscribers other ↔ other = kind := by
  rw [Bus.subscribers, List.mem_map]
  constructor
  · rintro ⟨subscription, member, same⟩
    obtain ⟨member, kinds⟩ := List.mem_filter.mp member
    have whole : subscription = ⟨id, kind⟩ :=
      List.inj_on_of_nodup_map hears.distinct member hears.subscribed same
    rw [whole] at kinds
    exact (beq_iff_eq.mp kinds).symm
  · rintro rfl
    exact ⟨⟨id, other⟩, List.mem_filter.mpr ⟨hears.subscribed, beq_iff_eq.mpr rfl⟩, rfl⟩

/-- A published event is to be heard once by the maker of a subscription of its kind. -/
theorem Hears.toHear_deliveries (hears : session.Hears id name kind) (publication : Nat) :
    ((session.bus.subscribers event.kind).map (Task.deliver publication · event)).flatMap
      (Task.toHear id kind) = if event.kind = kind then [event] else [] := by
  have distinct : (session.bus.subscribers event.kind).Nodup :=
    hears.distinct.sublist (List.filter_sublist.map _)
  rw [List.flatMap_map]
  refine (flatMap_indicator distinct).trans ?_
  simp only [hears.mem_subscribers_iff]

theorem toHear_of_spares (spare : action.Spares name) :
    (Task.act actor? action).toHear id kind = [] := by
  cases action with
  | publish event => exact spare.elim
  | _ => rfl

theorem toAnnounce_of_spares (spare : action.Spares name) :
    (Task.act actor? action).toAnnounce = [] := by
  cases action with
  | publish event => exact spare.elim
  | _ => rfl

/-- What a step keeps, and what is heard and published in it or left for later. -/
structure Follows (id : SubscriptionId) (name : String) (kind : EventKind) (task : Task)
    (after : Session × List TraceEntry × List Task) : Prop where
  hears : after.1.Hears id name kind
  calm : ∀ later ∈ after.2.2, later.Calm name
  heard : Reorg.heard id after.2.1 ++ after.2.2.flatMap (Task.toHear id kind) = task.toHear id kind
  announced : Reorg.announced after.2.1 ++ after.2.2.flatMap Task.toAnnounce = task.toAnnounce

theorem Hears.act (hears : session.Hears id name kind) (spare : action.Spares name) :
    Follows id name kind (.act actor? action) (session.act actor? action) := by
  have answered : ∀ outcome, ∀ later ∈ [Task.answer actor? outcome], later.Calm name :=
    fun _ later member => List.mem_singleton.mp member ▸ trivial
  cases action with
  | subscribe other otherKind onFirst =>
    exact ⟨hears.subscribe (Action.allSpare_iff.mp spare), answered _, rfl, rfl⟩
  | unsubscribe other =>
    rw [Session.act]
    split
    · exact ⟨hears, answered _, rfl, rfl⟩
    · next member found =>
      rw [named?] at found
      have called : member.name = other := by simpa using List.find?_some found
      have apart : member.id ≠ id := fun same =>
        spare (called.symm.trans (hears.named member (List.mem_of_find?_eq_some found) same))
      exact ⟨hears.unsubscribe apart, answered _, rfl, rfl⟩
  | unsubscribeAll => exact spare.elim
  | count other => exact ⟨hears, answered _, rfl, rfl⟩
  | summary => exact ⟨hears, answered _, rfl, rfl⟩
  | publish event => exact spare.elim

/-- **What a step keeps**: the subscription is still left alone, and what is to be heard and
published is, now or later. -/
theorem Hears.step (hears : session.Hears id name kind) (calm : task.Calm name) :
    Follows id name kind task (session.step task) := by
  cases task with
  | act actor? action =>
    rcases calm with spare | ⟨event, rfl⟩
    · exact hears.act spare
    · refine ⟨⟨hears.subscribed, hears.distinct, hears.given, hears.named, hears.spared⟩, ?_, ?_, ?_⟩
      · intro later member
        rcases List.mem_append.mp member with delivery | answer
        · obtain ⟨other, -, rfl⟩ := List.mem_map.mp delivery
          trivial
        · exact List.mem_singleton.mp answer ▸ trivial
      · show [] ++ (_ ++ [Task.answer actor? .done]).flatMap _ = _
        rw [List.nil_append, List.flatMap_append, hears.toHear_deliveries]
        exact List.append_nil _
      · show [event] ++ (_ ++ [Task.answer actor? .done]).flatMap _ = _
        rw [List.flatMap_append, List.flatMap_map]
        have silent : ∀ ids : List SubscriptionId, (ids.flatMap fun other =>
            (Task.deliver session.nextPublication other event).toAnnounce) = [] :=
          fun ids => List.flatMap_eq_nil_iff.mpr fun _ _ => rfl
        rw [silent]
        rfl
  | deliver publication other event =>
    have spare : ∀ action ∈ session.waiting other, action.Spares name := hears.waiting
    refine ⟨hears.discharge, ?_, ?_, ?_⟩
    · intro later member
      obtain ⟨action, among, rfl⟩ := List.mem_map.mp member
      exact .inl (spare action among)
    · show (if other = id then [event] else []) ++ [] ++
        ((session.waiting other).map (Task.act (some other))).flatMap _ = _
      rw [List.append_nil, List.flatMap_map, List.flatMap_eq_nil_iff.mpr fun action among =>
        toHear_of_spares (spare action among), List.append_nil]
      rfl
    · show [] ++ ((session.waiting other).map (Task.act (some other))).flatMap _ = _
      rw [List.nil_append, List.flatMap_map, List.flatMap_eq_nil_iff.mpr fun action among =>
        toAnnounce_of_spares (spare action among)]
      rfl
  | answer actor? outcome =>
    exact ⟨hears, fun _ member => (List.not_mem_nil member).elim, rfl, rfl⟩

/-! ### Runs -/

/-- **What a run keeps**: the subscription is left alone throughout, and what was to be heard and
published has been, in order. -/
theorem Hears.run {before : List TraceEntry} {tasks : List Task}
    (hears : session.Hears id name kind) (calm : ∀ task ∈ tasks, task.Calm name) :
    (session.run before tasks).1.Hears id name kind ∧
      heard id (session.run before tasks).2 =
        heard id before.reverse ++ tasks.flatMap (Task.toHear id kind) ∧
      announced (session.run before tasks).2 =
        announced before.reverse ++ tasks.flatMap Task.toAnnounce := by
  induction session, before, tasks using Session.run.induct with
  | case1 session before =>
    rw [Session.run]
    exact ⟨hears, (List.append_nil _).symm, (List.append_nil _).symm⟩
  | case2 session before task tasks after ih =>
    obtain ⟨first, rest⟩ := List.forall_mem_cons.mp calm
    have follows := hears.step first
    obtain ⟨kept, hear, publish⟩ := ih follows.hears fun later member =>
      (List.mem_append.mp member).elim (follows.calm later) (rest later)
    rw [Session.run]
    refine ⟨kept, ?_, ?_⟩
    · rw [hear, List.reverse_append, List.reverse_reverse, heard, List.flatMap_append, ← heard,
        List.flatMap_append, List.flatMap_cons, ← follows.heard]
      simp only [heard, List.append_assoc]
      rfl
    · rw [publish, List.reverse_append, List.reverse_reverse, announced, List.flatMap_append,
        ← announced, List.flatMap_append, List.flatMap_cons, ← follows.announced]
      simp only [announced, List.append_assoc]
      rfl

theorem flatMap_kind {events : List Event} :
    (events.flatMap fun event => if event.kind = kind then [event] else []) =
      events.filter fun event => event.kind = kind := by
  induction events with
  | nil => rfl
  | cons event events ih =>
    rw [List.flatMap_cons, ih, List.filter_cons]
    by_cases same : event.kind = kind <;> simp [same]

/-- **Events that are published one after the other** are published in this order, and those of its
kind are heard by the maker of the subscription. -/
theorem Hears.publishAll (hears : session.Hears id name kind) (events : List Event) :
    (session.publishAll events).1.Hears id name kind ∧
      heard id (session.publishAll events).2 = events.filter (fun event => event.kind = kind) ∧
      announced (session.publishAll events).2 = events := by
  have calm : ∀ task ∈ events.map fun event => Task.act none (.publish event),
      task.Calm name := by
    intro task member
    obtain ⟨event, -, rfl⟩ := List.mem_map.mp member
    exact .inr ⟨event, rfl⟩
  have ran : (session.publishAll events).1.Hears id name kind ∧
      heard id (session.publishAll events).2 = _ ∧ announced (session.publishAll events).2 = _ :=
    hears.run calm
  refine ⟨ran.1, ran.2.1.trans ?_, ran.2.2.trans ?_⟩
  · rw [List.flatMap_map]
    exact flatMap_kind
  · rw [List.flatMap_map]
    exact List.flatMap_singleton' events

end Session

end Reorg
