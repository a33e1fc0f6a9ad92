/-
**The trace of a bus.**

What should be delivered is read off the trace of all that happened, not off the bus: a subscription
is in force from when it is made until it is ended. The trace is exact when each publication is
delivered to the subscriptions of its kind that were in force when it began.

* `remaining`: the subscriptions in force after a trace;
* `Exact`: a trace, and the deliveries still due, are as they should be;
* `Recorded`: a bus whose past is a trace, with the deliveries still due;
* `Recorded.subscribe`, `Recorded.unsubscribe`, `Recorded.clear`, `Recorded.publish`,
  `Recorded.deliver`, `Recorded.answer`: whatever happens next, the trace stays exact.
-/

import Mathlib.Data.List.Nodup
import Reorg.Bus.Session

namespace Reorg

/-! ### Reading a trace -/

/-- A delivery of the event of a publication. -/
structure Delivery where
  publication : Nat
  id : SubscriptionId
  event : Event
deriving DecidableEq

namespace TraceEntry

/-- The subscription that is made. -/
def made? : TraceEntry → Option Subscription
  | .subscribed id kind => some ⟨id, kind⟩
  | _ => none

/-- Whether a subscription is ended. -/
def ends (id : SubscriptionId) : TraceEntry → Bool
  | .unsubscribed other _ => other == id
  | .cleared => true
  | _ => false

/-- The delivery that an entry tells of, if it is one. -/
def delivery? : TraceEntry → Option Delivery
  | .delivered publication id event => some ⟨publication, id, event⟩
  | _ => none

end TraceEntry

/-- The subscriptions made in a trace, in order. -/
def made (trace : List TraceEntry) : List Subscription := trace.filterMap TraceEntry.made?

/-- The deliveries made in a trace, in order. -/
def deliveries (trace : List TraceEntry) : List Delivery := trace.filterMap TraceEntry.delivery?

/-- The subscriptions made in a trace and not ended later in it, in the order in which they were
made. -/
def remaining : List TraceEntry → List Subscription
  | [] => []
  | entry :: later =>
    match entry.made? with
    | none => remaining later
    | some subscription =>
      if later.any (TraceEntry.ends subscription.id) then remaining later
      else subscription :: remaining later

/-- The deliveries that are for a publication. -/
def deliveriesOf (publication : Nat) (deliveries : List Delivery) : List Delivery :=
  deliveries.filter fun delivery => delivery.publication = publication

/-- The deliveries of an event to some subscriptions, in order, as far as these are for its kind. -/
def deliveriesTo (subscriptions : List Subscription) (publication : Nat) (event : Event) :
    List Delivery :=
  (subscriptions.filter fun subscription => subscription.kind = event.kind).map
    fun subscription => ⟨publication, subscription.id, event⟩

variable {trace : List TraceEntry} {entry : TraceEntry} {due : List Delivery}

theorem made_concat : made (trace ++ [entry]) = made trace ++ entry.made?.toList := by
  rw [made, List.filterMap_append, ← made]
  cases found : entry.made? <;> simp [found]

theorem deliveries_concat :
    deliveries (trace ++ [entry]) = deliveries trace ++ entry.delivery?.toList := by
  rw [deliveries, List.filterMap_append, ← deliveries]
  cases found : entry.delivery? <;> simp [found]

theorem deliveriesOf_append {publication : Nat} {first second : List Delivery} :
    deliveriesOf publication (first ++ second) =
      deliveriesOf publication first ++ deliveriesOf publication second :=
  List.filter_append ..

/-- One more entry ends some of the subscriptions and makes at most one. -/
theorem remaining_concat :
    remaining (trace ++ [entry]) =
      (remaining trace).filter (fun subscription => !entry.ends subscription.id) ++
        entry.made?.toList := by
  induction trace with
  | nil => cases entry <;> rfl
  | cons first later ih =>
    rw [List.cons_append, remaining, remaining, ih]
    cases first.made? with
    | none => rfl
    | some subscription =>
      simp only [List.any_append, List.any_cons, List.any_nil, Bool.or_false]
      by_cases ended : later.any (TraceEntry.ends subscription.id) = true
      · simp [ended]
      · by_cases ends : entry.ends subscription.id = true <;> simp [ended, ends]

/-- What remains was made. -/
theorem remaining_sublist : (remaining trace).Sublist (made trace) := by
  induction trace with
  | nil => exact .refl _
  | cons entry later ih =>
    rw [remaining, made]
    cases found : entry.made? with
    | none =>
      rw [List.filterMap_cons_none found]
      exact ih
    | some subscription =>
      rw [List.filterMap_cons_some found]
      show (if _ then remaining later else subscription :: remaining later).Sublist _
      split
      · exact ih.cons subscription
      · exact ih.cons_cons subscription

/-! ### Exact traces -/

/-- **A trace is exact**, with some deliveries still due: every subscription has a number of its
own, an ended one is found exactly when it was in force, and the deliveries of a publication, made
or due, are those to the subscriptions of its kind that were in force when it began. -/
structure Exact (trace : List TraceEntry) (due : List Delivery) : Prop where
  distinct : ((made trace).map Subscription.id).Nodup
  found_iff : ∀ before id found after, trace = before ++ .unsubscribed id found :: after →
    (found = true ↔ id ∈ (remaining before).map Subscription.id)
  delivered : ∀ before publication event after,
    trace = before ++ .published publication event :: after →
      deliveriesOf publication (deliveries before) = [] ∧
        deliveriesOf publication (deliveries after ++ due) =
          deliveriesTo (remaining before) publication event
  published : ∀ before publication id event after,
    trace = before ++ .delivered publication id event :: after →
      .published publication event ∈ before

/-- A place in a trace with one more entry is the last one or a place in the trace. -/
theorem place_concat {before after : List TraceEntry} {here : TraceEntry}
    (split : trace ++ [entry] = before ++ here :: after) :
    (before = trace ∧ here = entry ∧ after = []) ∨
      ∃ later, after = later ++ [entry] ∧ trace = before ++ here :: later := by
  rcases List.eq_nil_or_concat' after with rfl | ⟨later, last, rfl⟩
  · obtain ⟨same, last⟩ := List.append_inj' split rfl
    exact .inl ⟨same.symm, (List.singleton_inj.mp last).symm, rfl⟩
  · rw [← List.cons_append, ← List.append_assoc] at split
    obtain ⟨same, last⟩ := List.append_inj' split rfl
    exact .inr ⟨later, by rw [List.singleton_inj.mp last], same⟩

/-- An exact trace stays exact with one more entry, if the entry is right where it stands, and the
deliveries of what was published before stay, made or due, what they were. -/
theorem Exact.concat {due' : List Delivery} (exact : Exact trace due)
    (fresh : ∀ subscription, entry.made? = some subscription →
      subscription.id ∉ (made trace).map Subscription.id)
    (found : ∀ id found, entry = .unsubscribed id found →
      (found = true ↔ id ∈ (remaining trace).map Subscription.id))
    (begun : ∀ publication event, entry = .published publication event →
      deliveriesOf publication (deliveries trace) = [] ∧
        deliveriesOf publication due' = deliveriesTo (remaining trace) publication event)
    (published : ∀ publication id event, entry = .delivered publication id event →
      .published publication event ∈ trace)
    (kept : ∀ publication event, .published publication event ∈ trace →
      deliveriesOf publication (entry.delivery?.toList ++ due') = deliveriesOf publication due) :
    Exact (trace ++ [entry]) due' where
  distinct := by
    rw [made_concat, List.map_append]
    cases made : entry.made? with
    | none => simpa using exact.distinct
    | some subscription =>
      refine exact.distinct.append (List.nodup_singleton _) ?_
      exact List.disjoint_singleton.mpr (fresh subscription made)
  found_iff before id wasFound after split := by
    rcases place_concat split with ⟨rfl, here, -⟩ | ⟨later, -, split⟩
    · exact found id wasFound here.symm
    · exact exact.found_iff before id wasFound later split
  delivered before publication event after split := by
    rcases place_concat split with ⟨rfl, here, rfl⟩ | ⟨later, rfl, whole⟩
    · exact begun publication event here.symm
    · obtain ⟨none, delivered⟩ := exact.delivered before publication event later whole
      have inside : TraceEntry.published publication event ∈ trace := by
        rw [whole]
        exact List.mem_append_right _ List.mem_cons_self
      refine ⟨none, ?_⟩
      rw [deliveries_concat, List.append_assoc, deliveriesOf_append, kept publication event inside,
        ← deliveriesOf_append]
      exact delivered
  published before publication id event after split := by
    rcases place_concat split with ⟨rfl, here, -⟩ | ⟨later, -, split⟩
    · exact published publication id event here.symm
    · exact exact.published before publication id event later split

/-! ### A bus and its past -/

/-- A bus, with the number of the next publication and the deliveries that are due, as a trace has
left it. -/
structure Recorded (bus : Bus) (next : Nat) (due : List Delivery) (trace : List TraceEntry) :
    Prop where
  subscriptions : bus.subscriptions = remaining trace
  given : ∀ subscription ∈ made trace, subscription.id < bus.nextId
  numbered : ∀ publication event, .published publication event ∈ trace → publication < next
  announced : ∀ delivery ∈ due, .published delivery.publication delivery.event ∈ trace
  exact : Exact trace due

/-- Nothing has happened on a bus that nobody has subscribed on. -/
theorem Recorded.initial : Recorded .initial 0 [] [] where
  subscriptions := rfl
  given := nofun
  numbered := nofun
  announced := nofun
  exact := {
    distinct := List.nodup_nil
    found_iff := fun _ _ _ _ split => by simp at split
    delivered := fun _ _ _ _ split => by simp at split
    published := fun _ _ _ _ _ split => by simp at split }

section Recorded

variable {bus : Bus} {next : Nat} (recorded : Recorded bus next due trace)

include recorded

/-- The deliveries made were announced. -/
theorem Recorded.announced_of_made {delivery : Delivery} (member : delivery ∈ deliveries trace) :
    .published delivery.publication delivery.event ∈ trace := by
  obtain ⟨entry, inside, made⟩ := List.mem_filterMap.mp member
  obtain ⟨before, after, split⟩ := List.append_of_mem inside
  cases entry <;> cases made
  rw [split]
  exact List.mem_append_left _ (recorded.exact.published before _ _ _ after split)

/-- No delivery is made or due for a publication that is still to come. -/
theorem Recorded.none_of_next {made : List Delivery}
    (announced : ∀ delivery ∈ made, .published delivery.publication delivery.event ∈ trace) :
    deliveriesOf next made = [] := by
  refine List.filter_eq_nil_iff.mpr fun delivery member same => ?_
  have earlier := recorded.numbered _ _ (announced delivery member)
  exact Nat.ne_of_lt earlier (of_decide_eq_true same)

/-- An entry that neither publishes nor delivers leaves what is due. -/
theorem Recorded.quiet {bus' : Bus} {entry : TraceEntry}
    (silent : entry.delivery? = none)
    (unpublished : ∀ publication event, entry ≠ .published publication event)
    (subscriptions : bus'.subscriptions = remaining (trace ++ [entry]))
    (given : ∀ subscription ∈ made (trace ++ [entry]), subscription.id < bus'.nextId)
    (fresh : ∀ subscription, entry.made? = some subscription →
      subscription.id ∉ (made trace).map Subscription.id)
    (found : ∀ id found, entry = .unsubscribed id found →
      (found = true ↔ id ∈ (remaining trace).map Subscription.id)) :
    Recorded bus' next due (trace ++ [entry]) where
  subscriptions := subscriptions
  given := given
  numbered publication event member := by
    rcases List.mem_append.mp member with before | last
    · exact recorded.numbered publication event before
    · exact (unpublished publication event (List.mem_singleton.mp last).symm).elim
  announced delivery member := List.mem_append_left _ (recorded.announced delivery member)
  exact := by
    refine recorded.exact.concat fresh found (fun publication event here => ?_)
      (fun publication id event here => ?_) fun publication event _ => ?_
    · exact (unpublished publication event here).elim
    · rw [here] at silent
      cases silent
    · rw [silent]
      rfl

theorem Recorded.given_of_none {entry : TraceEntry} (none : entry.made? = none) :
    ∀ subscription ∈ made (trace ++ [entry]), subscription.id < bus.nextId := by
  rw [made_concat, none, Option.toList_none, List.append_nil]
  exact recorded.given

theorem Recorded.subscriptions_of_idle {entry : TraceEntry} (none : entry.made? = none)
    (idle : ∀ id, entry.ends id = false) : bus.subscriptions = remaining (trace ++ [entry]) := by
  rw [remaining_concat, none, Option.toList_none, List.append_nil, recorded.subscriptions]
  exact (List.filter_eq_self.mpr fun subscription _ => by rw [idle]; rfl).symm

theorem Recorded.subscribe (kind : EventKind) :
    Recorded (bus.subscribe kind).2 next due
      (trace ++ [.subscribed (bus.subscribe kind).1 kind]) := by
  refine recorded.quiet rfl nofun ?_ ?_ ?_ nofun
  · rw [remaining_concat, ← recorded.subscriptions]
    show bus.subscriptions ++ _ = (bus.subscriptions.filter fun _ => true) ++ _
    rw [List.filter_true]
    rfl
  · intro subscription member
    rw [made_concat] at member
    rcases List.mem_append.mp member with before | last
    · exact Nat.lt_succ_of_lt (recorded.given subscription before)
    · rw [List.mem_singleton.mp last]
      exact Nat.lt_succ_self _
  · rintro subscription ⟨⟩ member
    obtain ⟨other, member, same⟩ := List.mem_map.mp member
    exact Nat.ne_of_lt (recorded.given other member) same

theorem Recorded.unsubscribe (id : SubscriptionId) :
    Recorded (bus.unsubscribe id).2 next due
      (trace ++ [.unsubscribed id (bus.unsubscribe id).1]) := by
  refine recorded.quiet rfl nofun ?_ ?_ nofun ?_
  · rw [remaining_concat, ← recorded.subscriptions]
    show bus.subscriptions.filter (fun subscription => subscription.id != id) =
      bus.subscriptions.filter (fun subscription => !(id == subscription.id)) ++ []
    rw [List.append_nil]
    exact List.filter_congr fun subscription _ => congrArg _ Bool.beq_comm
  · exact recorded.given_of_none rfl
  · rintro _ _ ⟨⟩
    rw [← recorded.subscriptions, List.mem_map]
    exact List.any_eq_true.trans (exists_congr fun _ => and_congr_right fun _ => beq_iff_eq)

theorem Recorded.clear : Recorded bus.unsubscribeAll next due (trace ++ [.cleared]) := by
  refine recorded.quiet rfl nofun ?_ ?_ nofun nofun
  · rw [remaining_concat]
    exact (List.append_nil _).trans (List.filter_false _) |>.symm
  · exact recorded.given_of_none rfl

theorem Recorded.answer (actor? : Option SubscriptionId) (outcome : Outcome) :
    Recorded bus next due (trace ++ [.answered actor? outcome]) :=
  recorded.quiet rfl nofun (recorded.subscriptions_of_idle rfl fun _ => rfl)
    (recorded.given_of_none rfl) nofun nofun

theorem Recorded.publish (event : Event) :
    Recorded bus (next + 1) ((bus.subscribers event.kind).map (⟨next, ·, event⟩) ++ due)
      (trace ++ [.published next event]) := by
  have all : (bus.subscribers event.kind).map (⟨next, ·, event⟩) =
      deliveriesTo (remaining trace) next event := by
    rw [Bus.subscribers, List.map_map, recorded.subscriptions]
    rfl
  have own : deliveriesOf next (deliveriesTo (remaining trace) next event) =
      deliveriesTo (remaining trace) next event := by
    refine List.filter_eq_self.mpr fun delivery member => ?_
    obtain ⟨subscription, -, rfl⟩ := List.mem_map.mp member
    exact decide_eq_true rfl
  rw [all]
  refine ⟨recorded.subscriptions_of_idle rfl fun _ => rfl, recorded.given_of_none rfl,
    fun publication event' member => ?_, fun delivery member => ?_, ?_⟩
  · rcases List.mem_append.mp member with before | last
    · exact Nat.lt_succ_of_lt (recorded.numbered publication event' before)
    · cases List.mem_singleton.mp last
      exact Nat.lt_succ_self _
  · rcases List.mem_append.mp member with new | old
    · obtain ⟨subscription, -, rfl⟩ := List.mem_map.mp new
      exact List.mem_append_right _ (List.mem_singleton.mpr rfl)
    · exact List.mem_append_left _ (recorded.announced delivery old)
  · refine recorded.exact.concat nofun nofun ?_ nofun fun publication event' member => ?_
    · rintro _ _ ⟨⟩
      refine ⟨recorded.none_of_next fun _ => recorded.announced_of_made, ?_⟩
      rw [deliveriesOf_append, own, recorded.none_of_next recorded.announced, List.append_nil]
    · have earlier := recorded.numbered publication event' member
      have others : deliveriesOf publication (deliveriesTo (remaining trace) next event) = [] := by
        refine List.filter_eq_nil_iff.mpr fun delivery member same => ?_
        obtain ⟨subscription, -, rfl⟩ := List.mem_map.mp member
        exact Nat.ne_of_gt earlier (of_decide_eq_true same)
      show deliveriesOf publication (deliveriesTo (remaining trace) next event ++ due) = _
      rw [deliveriesOf_append, others, List.nil_append]

theorem Recorded.deliver {delivery : Delivery} {front behind : List Delivery}
    (split : due = front ++ delivery :: behind)
    (first : ∀ other ∈ front, other.publication ≠ delivery.publication) :
    Recorded bus next (front ++ behind)
      (trace ++ [.delivered delivery.publication delivery.id delivery.event]) := by
  have within : front ++ behind ⊆ due := by
    rw [split]
    exact ((List.sublist_cons_self delivery behind).append_left front).subset
  have moved : ∀ publication, deliveriesOf publication (delivery :: (front ++ behind)) =
      deliveriesOf publication due := by
    intro publication
    rw [split, ← List.cons_append, deliveriesOf_append, deliveriesOf_append]
    by_cases here : delivery.publication = publication
    · have none : deliveriesOf publication front = [] :=
        List.filter_eq_nil_iff.mpr fun other member same =>
          first other member ((of_decide_eq_true same).trans here.symm)
      have kept : ∀ rest, deliveriesOf publication (delivery :: rest) =
          delivery :: deliveriesOf publication rest :=
        fun rest => List.filter_cons_of_pos (decide_eq_true here)
      rw [kept, kept, none]
      rfl
    · have passed : ∀ rest, deliveriesOf publication (delivery :: rest) =
          deliveriesOf publication rest :=
        fun rest => List.filter_cons_of_neg (by simpa using here)
      rw [passed, passed]
  refine ⟨recorded.subscriptions_of_idle rfl fun _ => rfl, recorded.given_of_none rfl,
    fun publication event member => ?_,
    fun other member => List.mem_append_left _ (recorded.announced other (within member)), ?_⟩
  · rcases List.mem_append.mp member with before | last
    · exact recorded.numbered publication event before
    · cases List.mem_singleton.mp last
  · refine recorded.exact.concat nofun nofun nofun ?_ fun publication event _ => moved publication
    rintro _ _ _ ⟨⟩
    refine recorded.announced delivery ?_
    rw [split]
    exact List.mem_append_right _ List.mem_cons_self

end Recorded

end Reorg
