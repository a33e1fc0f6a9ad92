/-
**A bus with a channel for each kind.**

The subscriptions of one kind may be held in a map of their own, by number, and the maps by kind. A
subscription is then ended in the first channel that has its number, and the search stops there. As
numbers are given in ascending order and never twice, this comes to the same as one list.

* `Hub`: what a bus offers, however it holds its subscriptions;
* `Channels`: the subscriptions in nested maps;
* `Channels.Matches`: nested maps that hold what a list holds;
* `Channels.Matches.subscribe`, `Channels.Matches.unsubscribe`, `Channels.Matches.unsubscribeAll`:
  they answer alike, and go on to hold the same.
-/

import Mathlib.Data.List.Nodup
import Reorg.Bus.Basic
import Reorg.Proofs.OrderedMap

namespace Reorg

/-- What a bus offers, however it holds its subscriptions. -/
class Hub (β : Type) where
  initial : β
  subscribe : β → EventKind → SubscriptionId × β
  unsubscribe : β → SubscriptionId → Bool × β
  unsubscribeAll : β → β
  subscribers : β → EventKind → List SubscriptionId

instance : Hub Bus where
  initial := .initial
  subscribe := Bus.subscribe
  unsubscribe := Bus.unsubscribe
  unsubscribeAll := Bus.unsubscribeAll
  subscribers := Bus.subscribers

namespace Bus

variable {bus : Bus} {kind other : EventKind} {id : SubscriptionId}

theorem mem_subscribers_iff : id ∈ bus.subscribers kind ↔ ⟨id, kind⟩ ∈ bus.subscriptions := by
  rw [subscribers, List.mem_map]
  constructor
  · rintro ⟨⟨_, _⟩, member, rfl⟩
    obtain ⟨member, same⟩ := List.mem_filter.mp member
    exact beq_iff_eq.mp same ▸ member
  · exact fun member => ⟨_, List.mem_filter.mpr ⟨member, beq_iff_eq.mpr rfl⟩, rfl⟩

theorem unsubscribe_fst_iff :
    (bus.unsubscribe id).1 = true ↔ ∃ kind, ⟨id, kind⟩ ∈ bus.subscriptions := by
  refine List.any_eq_true.trans ⟨?_, ?_⟩
  · rintro ⟨⟨_, kind⟩, member, same⟩
    exact ⟨kind, beq_iff_eq.mp same ▸ member⟩
  · exact fun ⟨kind, member⟩ => ⟨_, member, beq_iff_eq.mpr rfl⟩

theorem subscribers_subscribe : (bus.subscribe kind).2.subscribers other =
    bus.subscribers other ++ if kind = other then [bus.nextId] else [] := by
  show ((bus.subscriptions ++ [(⟨bus.nextId, kind⟩ : Subscription)]).filter _).map _ = _
  rw [List.filter_append, List.map_append]
  by_cases same : kind = other <;> simp [same, subscribers]

theorem subscribers_unsubscribe :
    (bus.unsubscribe id).2.subscribers kind = (bus.subscribers kind).filter (· != id) := by
  show ((bus.subscriptions.filter _).filter _).map _ = _
  rw [subscribers, List.filter_map, List.filter_filter, List.filter_filter]
  exact congrArg _ (List.filter_congr fun _ _ => Bool.and_comm _ _)

end Bus

/-! ### Kinds in order -/

namespace EventKind

/-- The place of a kind among all. -/
def rank : EventKind → Nat
  | .blockConnected => 0
  | .blockDisconnected => 1
  | .sidechainUpdated => 2

theorem rank_injective : Function.Injective rank := by
  intro kind kind' same
  cases kind <;> cases kind' <;> first | rfl | cases same

instance : Ord EventKind := ⟨compareOn rank⟩

instance : Std.TransOrd EventKind where
  eq_swap {first second} := @Std.OrientedCmp.eq_swap Nat compare _ first.rank second.rank
  isLE_trans {first second third} :=
    @Std.TransCmp.isLE_trans Nat compare _ first.rank second.rank third.rank

instance : Std.LawfulEqOrd EventKind where
  compare_self {kind} := @Std.ReflCmp.compare_self Nat compare _ kind.rank
  eq_of_compare same := rank_injective (Std.LawfulEqOrd.eq_of_compare same)

end EventKind

/-! ### Nested maps -/

/-- The subscriptions by kind and number, and the number of the next one. -/
structure Channels where
  nextId : SubscriptionId
  channels : OrderedMap EventKind (OrderedMap SubscriptionId Unit)

namespace Channels

/-- A hub without subscriptions. -/
def initial : Channels := ⟨0, .empty⟩

/-- The channel of a kind, which is empty until somebody subscribes. -/
def channel (hub : Channels) (kind : EventKind) : OrderedMap SubscriptionId Unit :=
  (hub.channels.get? kind).getD .empty

/-- Adds a subscription, under the next identifier, to the channel of its kind. -/
def subscribe (hub : Channels) (kind : EventKind) : SubscriptionId × Channels :=
  (hub.nextId, ⟨hub.nextId + 1, hub.channels.insert kind ((hub.channel kind).insert hub.nextId ())⟩)

/-- Ends a subscription in the first of some channels that has it. -/
def unsubscribeIn (hub : Channels) (id : SubscriptionId) : List EventKind → Bool × Channels
  | [] => (false, hub)
  | kind :: kinds =>
    if (hub.channel kind).contains id then
      (true, { hub with channels := hub.channels.insert kind ((hub.channel kind).erase id) })
    else
      unsubscribeIn hub id kinds

/-- Ends a subscription in whichever channel has it, and says whether one did. -/
def unsubscribe (hub : Channels) (id : SubscriptionId) : Bool × Channels :=
  hub.unsubscribeIn id hub.channels.keys

/-- Ends all subscriptions. -/
def unsubscribeAll (hub : Channels) : Channels := { hub with channels := .empty }

/-- The subscriptions to a kind, ascending. -/
def subscribers (hub : Channels) (kind : EventKind) : List SubscriptionId := (hub.channel kind).keys

instance : Hub Channels where
  initial := initial
  subscribe := subscribe
  unsubscribe := unsubscribe
  unsubscribeAll := unsubscribeAll
  subscribers := subscribers

variable {hub : Channels} {bus : Bus} {kind other : EventKind} {id : SubscriptionId}

theorem channel_insert {members : OrderedMap SubscriptionId Unit} {next : SubscriptionId} :
    channel ⟨next, hub.channels.insert kind members⟩ other =
      if kind = other then members else hub.channel other := by
  rw [channel, OrderedMap.get?_insert]
  split <;> rfl

/-- What ending a subscription does: nothing when no channel has it, else it leaves one that has. -/
theorem unsubscribeIn_cases (hub : Channels) (id : SubscriptionId) (kinds : List EventKind) :
    (hub.unsubscribeIn id kinds = (false, hub) ∧
      ∀ kind ∈ kinds, (hub.channel kind).contains id = false) ∨
    ∃ kind ∈ kinds, (hub.channel kind).contains id = true ∧ hub.unsubscribeIn id kinds =
      (true, { hub with channels := hub.channels.insert kind ((hub.channel kind).erase id) }) := by
  induction kinds with
  | nil => exact .inl ⟨rfl, nofun⟩
  | cons kind kinds ih =>
    by_cases here : (hub.channel kind).contains id = true
    · exact .inr ⟨kind, List.mem_cons_self, here, if_pos here⟩
    · rw [unsubscribeIn, if_neg here]
      rcases ih with ⟨left, none⟩ | ⟨kind', member, there, left⟩
      · exact .inl ⟨left, List.forall_mem_cons.mpr ⟨Bool.not_eq_true _ ▸ here, none⟩⟩
      · exact .inr ⟨kind', List.mem_cons_of_mem _ member, there, left⟩

/-! ### Maps and a list -/

/-- Nested maps hold the subscriptions of a list, of which no two have one number. -/
structure Matches (hub : Channels) (bus : Bus) : Prop where
  nextId : hub.nextId = bus.nextId
  subscribers : ∀ kind, hub.subscribers kind = bus.subscribers kind
  distinct : (bus.subscriptions.map Subscription.id).Nodup
  given : ∀ subscription ∈ bus.subscriptions, subscription.id < bus.nextId

/-- The numbers in a channel after one is taken out. -/
theorem keys_erase (members : OrderedMap SubscriptionId Unit) (id : SubscriptionId) :
    (members.erase id).keys = members.keys.filter (· != id) := by
  rw [OrderedMap.keys, OrderedMap.keys, List.filter_map, OrderedMap.erase]
  refine congrArg _ (List.filter_congr fun entry _ => ?_)
  rw [Bool.eq_iff_iff, bne_iff_ne, Function.comp_apply, bne_iff_ne, ne_eq, ne_eq,
    Std.LawfulEqCmp.compare_eq_iff_eq]

theorem Matches.initial : Matches initial .initial :=
  ⟨rfl, fun _ => rfl, List.nodup_nil, nofun⟩

section Matches

variable (matched : Matches hub bus)

include matched

theorem Matches.contains_iff :
    (hub.channel kind).contains id = true ↔ ⟨id, kind⟩ ∈ bus.subscriptions := by
  have held : id ∈ (hub.channel kind).keys ↔ id ∈ bus.subscribers kind := by
    rw [← matched.subscribers kind]
    rfl
  rw [OrderedMap.contains, ← OrderedMap.mem_keys_iff, held, Bus.mem_subscribers_iff]

/-- A new number comes behind all others in its channel, as in the list. -/
theorem Matches.subscribe (kind : EventKind) :
    (hub.subscribe kind).1 = (bus.subscribe kind).1 ∧
      Matches (hub.subscribe kind).2 (bus.subscribe kind).2 := by
  have last : ((hub.channel kind).insert hub.nextId ()).keys =
      (hub.channel kind).keys ++ [hub.nextId] := by
    rw [OrderedMap.keys, OrderedMap.insert_entries_of_above, List.map_append]
    · rfl
    · intro entry member
      have inside : entry.1 ∈ hub.subscribers kind := List.mem_map_of_mem member
      rw [matched.subscribers, Bus.mem_subscribers_iff] at inside
      rw [matched.nextId]
      exact Nat.compare_eq_lt.mpr (matched.given _ inside)
  refine ⟨matched.nextId, congrArg (· + 1) matched.nextId, fun other => ?_, ?_, ?_⟩
  · show ((channel ⟨_, _⟩ other).keys) = _
    rw [channel_insert, Bus.subscribers_subscribe, ← matched.subscribers, ← matched.nextId]
    split
    · next same => rw [last, same]; rfl
    · exact (List.append_nil _).symm
  · show ((bus.subscriptions ++ [(⟨bus.nextId, kind⟩ : Subscription)]).map _).Nodup
    rw [List.map_append]
    refine List.Nodup.append matched.distinct (List.nodup_singleton _)
      (List.disjoint_singleton.mpr ?_)
    intro member
    obtain ⟨subscription, member, same⟩ := List.mem_map.mp member
    exact Nat.ne_of_lt (matched.given subscription member) same
  · intro subscription member
    rcases List.mem_append.mp member with before | new
    · exact Nat.lt_succ_of_lt (matched.given subscription before)
    · rw [List.mem_singleton.mp new]
      exact Nat.lt_succ_self _

theorem Matches.unsubscribe (id : SubscriptionId) :
    (hub.unsubscribe id).1 = (bus.unsubscribe id).1 ∧
      Matches (hub.unsubscribe id).2 (bus.unsubscribe id).2 := by
  have distinct : ((bus.unsubscribe id).2.subscriptions.map Subscription.id).Nodup :=
    matched.distinct.sublist (List.filter_sublist.map _)
  have given : ∀ subscription ∈ (bus.unsubscribe id).2.subscriptions,
      subscription.id < bus.nextId :=
    fun subscription member => matched.given subscription (List.mem_filter.mp member).1
  unfold Channels.unsubscribe
  rcases hub.unsubscribeIn_cases id hub.channels.keys with ⟨left, none⟩ | ⟨kind, _, there, left⟩
  · have nowhere : ∀ kind, ⟨id, kind⟩ ∉ bus.subscriptions := by
      intro kind inside
      have held := matched.contains_iff.mpr inside
      refine Bool.false_ne_true ((none kind ?_).symm.trans held)
      rw [OrderedMap.mem_keys_iff]
      by_contra absent
      rw [channel, Option.not_isSome_iff_eq_none.mp absent] at held
      cases held
    have same : bus.subscriptions.filter (fun subscription => subscription.id != id) =
        bus.subscriptions := by
      refine List.filter_eq_self.mpr fun subscription member => bne_iff_ne.mpr ?_
      rintro rfl
      exact nowhere subscription.kind member
    rw [left]
    refine ⟨?_, matched.nextId, fun other => ?_, distinct, given⟩
    · exact (Bool.eq_false_iff.mpr fun found =>
        (Bus.unsubscribe_fst_iff.mp found).elim nowhere).symm
    · rw [matched.subscribers, Bus.subscribers, Bus.subscribers]
      show _ = ((bus.subscriptions.filter _).filter _).map _
      rw [same]
  · have inside := matched.contains_iff.mp there
    rw [left]
    refine ⟨?_, matched.nextId, fun other => ?_, distinct, given⟩
    · exact (Bus.unsubscribe_fst_iff.mpr ⟨kind, inside⟩).symm
    · show ((channel ⟨_, _⟩ other).keys) = _
      rw [channel_insert, Bus.subscribers_unsubscribe, ← matched.subscribers]
      split
      · next same => rw [keys_erase, same]; rfl
      · next apart =>
        refine (List.filter_eq_self.mpr fun number member => ?_).symm
        have member : number ∈ hub.subscribers other := member
        rw [matched.subscribers, Bus.mem_subscribers_iff] at member
        refine bne_iff_ne.mpr fun same => apart ?_
        rw [same] at member
        exact congrArg Subscription.kind
          (List.inj_on_of_nodup_map matched.distinct inside member rfl)

theorem Matches.unsubscribeAll : Matches hub.unsubscribeAll bus.unsubscribeAll :=
  ⟨matched.nextId, fun _ => rfl, List.nodup_nil, nofun⟩

end Matches

end Channels

end Reorg
