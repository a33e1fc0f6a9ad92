/-
**Delivering events to subscribers that act.**

A subscriber may act on the bus when it hears of an event: it may subscribe others, end
subscriptions, or publish. What it will do is given with its subscription, and it does so once, on
the first event that it hears of. A published event goes to the subscriptions that there are when it
is published; what its subscribers do comes in between their deliveries.

* `Session.perform`: an action with everything that follows from it, and the trace of all that
  happened;
* the run ends because every action is done once: `Session.weight` counts those still to be done.
-/

import Reorg.Bus.Basic
import Reorg.Total

namespace Reorg

/-- What can be done on a bus. -/
inductive Action
  /-- Subscribes somebody of a given name, who does the given actions on the first event. -/
  | subscribe (name : String) (kind : EventKind) (onFirst : List Action)
  /-- Ends the last subscription of somebody of a given name. -/
  | unsubscribe (name : String)
  | unsubscribeAll
  | count (kind : EventKind)
  | summary
  | publish (event : Event)

/-- What an action answers. -/
inductive Outcome
  | subscribed (id : SubscriptionId)
  | unsubscribed (found : Bool)
  | counted (count : Nat)
  | summarised (text : String)
  | done
deriving DecidableEq

namespace Action

mutual

/-- The number of actions that an action brings with it, itself included. -/
def weight : Action → Nat
  | .subscribe _ _ onFirst => totalWeight onFirst + 1
  | _ => 1

/-- The number of actions that some actions bring with them, themselves included. -/
def totalWeight : List Action → Nat
  | [] => 0
  | action :: actions => weight action + totalWeight actions

end

end Action

/-- Somebody who has subscribed, with what is still to be done on the first event. -/
structure Subscriber where
  id : SubscriptionId
  name : String
  onFirst : List Action

/-- What happens on a bus. -/
inductive TraceEntry
  /-- Somebody subscribed to a kind of event. -/
  | subscribed (id : SubscriptionId) (kind : EventKind)
  /-- A subscription was to be ended; it was found or not. -/
  | unsubscribed (id : SubscriptionId) (found : Bool)
  | cleared
  /-- An event was published, with the number of its publication. -/
  | published (publication : Nat) (event : Event)
  /-- Somebody heard of the event of a publication. -/
  | delivered (publication : Nat) (id : SubscriptionId) (event : Event)
  /-- An action of a subscriber, or of somebody from outside, was answered. -/
  | answered (actor? : Option SubscriptionId) (outcome : Outcome)
deriving DecidableEq

/-- What is still to happen. -/
inductive Task
  /-- A subscriber, or somebody from outside, acts. -/
  | act (actor? : Option SubscriptionId) (action : Action)
  /-- A subscriber hears of the event of a publication. -/
  | deliver (publication : Nat) (id : SubscriptionId) (event : Event)
  /-- An action is answered. -/
  | answer (actor? : Option SubscriptionId) (outcome : Outcome)

namespace Task

/-- The number of actions that a task brings with it. -/
def weight : Task → Nat
  | .act _ action => action.weight
  | _ => 0

/-- One for a task that is not an action. -/
def rank : Task → Nat
  | .act _ _ => 0
  | _ => 1

end Task

/-- A bus with those who have subscribed on it, the last one first, and the number of the next
publication. -/
structure Session where
  bus : Bus
  members : List Subscriber
  nextPublication : Nat

namespace Session

/-- The session in which nothing has happened. -/
def initial : Session := ⟨.initial, [], 0⟩

/-- The last one who subscribed under a name. -/
def named? (session : Session) (name : String) : Option Subscriber :=
  session.members.find? fun member => member.name == name

/-- The one who made a subscription. -/
def member? (session : Session) (id : SubscriptionId) : Option Subscriber :=
  session.members.find? fun member => member.id == id

/-- What the maker of a subscription is still to do. -/
def waiting (session : Session) (id : SubscriptionId) : List Action :=
  ((session.member? id).map Subscriber.onFirst).getD []

/-- The session in which the maker of a subscription has nothing left to do. -/
def discharge (session : Session) (id : SubscriptionId) : Session :=
  { session with members := session.members.map fun member =>
      if member.id == id then { member with onFirst := [] } else member }

/-- Does one action: the session after it, what happened, and what is to happen next. -/
def act (session : Session) (actor? : Option SubscriptionId) :
    Action → Session × List TraceEntry × List Task
  | .subscribe name kind onFirst =>
    let (id, bus) := session.bus.subscribe kind
    ({ session with bus, members := ⟨id, name, onFirst⟩ :: session.members },
      [.subscribed id kind], [.answer actor? (.subscribed id)])
  | .unsubscribe name =>
    match session.named? name with
    | none => (session, [], [.answer actor? (.unsubscribed false)])
    | some member =>
      let (found, bus) := session.bus.unsubscribe member.id
      ({ session with bus }, [.unsubscribed member.id found],
        [.answer actor? (.unsubscribed found)])
  | .unsubscribeAll =>
    ({ session with bus := session.bus.unsubscribeAll }, [.cleared], [.answer actor? .done])
  | .count kind => (session, [], [.answer actor? (.counted (session.bus.count kind))])
  | .summary => (session, [], [.answer actor? (.summarised session.bus.summary)])
  | .publish event =>
    let publication := session.nextPublication
    ({ session with nextPublication := publication + 1 }, [.published publication event],
      (session.bus.subscribers event.kind).map (.deliver publication · event) ++
        [.answer actor? .done])

/-- Does one task: the session after it, what happened, and what is to happen next. -/
def step (session : Session) : Task → Session × List TraceEntry × List Task
  | .act actor? action => session.act actor? action
  | .deliver publication id event =>
    (session.discharge id, [.delivered publication id event],
      (session.waiting id).map (.act (some id)))
  | .answer actor? outcome => (session, [.answered actor? outcome], [])

/-- The number of actions that subscribers are still to do. -/
def weight (session : Session) : Nat :=
  totalOf (fun member => Action.totalWeight member.onFirst) session.members

/-! ### Every run ends -/

/-- The number of actions that tasks bring with them. -/
def taskWeight (tasks : List Task) : Nat := totalOf Task.weight tasks

/-- The number of tasks that are not actions. -/
def taskRank (tasks : List Task) : Nat := totalOf Task.rank tasks

theorem taskWeight_append (first second : List Task) :
    taskWeight (first ++ second) = taskWeight first + taskWeight second := by
  simp [taskWeight]

theorem taskRank_append (first second : List Task) :
    taskRank (first ++ second) = taskRank first + taskRank second := by
  simp [taskRank]

theorem taskWeight_act (actor? : Option SubscriptionId) (actions : List Action) :
    taskWeight (actions.map (.act actor?)) = Action.totalWeight actions := by
  induction actions with
  | nil => rfl
  | cons action actions ih =>
    simp only [taskWeight, List.map_cons, totalOf_cons, Action.totalWeight, Task.weight] at ih ⊢
    rw [ih]

theorem taskRank_act (actor? : Option SubscriptionId) (actions : List Action) :
    taskRank (actions.map (.act actor?)) = 0 := by
  induction actions with
  | nil => rfl
  | cons action actions ih =>
    simp only [taskRank, List.map_cons, totalOf_cons, Task.rank, Nat.zero_add] at ih ⊢
    exact ih

theorem weight_discharge (session : Session) (id : SubscriptionId) :
    (session.discharge id).weight + Action.totalWeight (session.waiting id) ≤ session.weight := by
  obtain ⟨bus, members, nextPublication⟩ := session
  simp only [weight, discharge, waiting, member?]
  induction members with
  | nil => simp [Action.totalWeight]
  | cons member members ih =>
    have rest : totalOf (fun member => Action.totalWeight member.onFirst)
          (members.map fun member =>
            if member.id == id then { member with onFirst := [] } else member) ≤
        totalOf (fun member => Action.totalWeight member.onFirst) members := by omega
    by_cases same : (member.id == id) = true
    · simp only [List.map_cons, same, if_true, totalOf_cons, List.find?_cons, Option.map_some,
        Option.getD_some, Action.totalWeight]
      omega
    · simp only [List.map_cons, same, totalOf_cons, List.find?_cons]
      simp only [Bool.false_eq_true, if_false]
      omega

theorem weight_act (session : Session) (actor? : Option SubscriptionId) (action : Action) :
    (session.act actor? action).1.weight + taskWeight (session.act actor? action).2.2 <
      session.weight + action.weight := by
  have quiet (publication : Nat) (event : Event) (ids : List SubscriptionId) :
      totalOf Task.weight (ids.map (.deliver publication · event)) = 0 := by
    induction ids with
    | nil => rfl
    | cons id ids ih => simpa [Task.weight] using ih
  cases action with
  | subscribe name kind onFirst =>
    simp [act, weight, taskWeight, Task.weight, Action.weight]; omega
  | unsubscribe name =>
    simp only [act]
    split <;> simp [weight, taskWeight, Task.weight, Action.weight]
  | unsubscribeAll => simp [act, weight, taskWeight, Task.weight, Action.weight]
  | count kind => simp [act, taskWeight, Task.weight, Action.weight]
  | summary => simp [act, taskWeight, Task.weight, Action.weight]
  | publish event =>
    have silent := quiet session.nextPublication event (session.bus.subscribers event.kind)
    simp only [act, weight, taskWeight, totalOf_append, silent]
    simp [Task.weight, Action.weight]

/-- A step leaves fewer actions to do, or as many and fewer other tasks. -/
theorem step_descends (session : Session) (task : Task) :
    (session.step task).1.weight + taskWeight (session.step task).2.2 <
        session.weight + task.weight ∨
      (session.step task).1.weight + taskWeight (session.step task).2.2 =
          session.weight + task.weight ∧
        taskRank (session.step task).2.2 < task.rank := by
  cases task with
  | act actor? action => exact .inl (weight_act session actor? action)
  | deliver publication id event =>
    have bounded := weight_discharge session id
    simp only [step, taskWeight_act, taskRank_act, Task.weight, Task.rank]
    omega
  | answer actor? outcome => exact .inr ⟨rfl, Nat.zero_lt_one⟩

/-- Does tasks until none is left; gives the session after them and all that happened, behind what
happened before, which is held last first. -/
def run (session : Session) (before : List TraceEntry) : List Task → Session × List TraceEntry
  | [] => (session, before.reverse)
  | task :: tasks =>
    let after := session.step task
    run after.1 (after.2.1.reverse ++ before) (after.2.2 ++ tasks)
termination_by tasks => (session.weight + taskWeight tasks, taskRank tasks)
decreasing_by
  have weights : taskWeight (task :: tasks) = task.weight + taskWeight tasks := rfl
  have ranks : taskRank (task :: tasks) = task.rank + taskRank tasks := rfl
  rw [taskWeight_append, taskRank_append, weights, ranks, ← Nat.add_assoc, ← Nat.add_assoc]
  rcases step_descends session task with fewer | ⟨same, lower⟩
  · exact .left _ _ (by omega)
  · rw [same]
    exact .right _ (by omega)

/-- Does an action from outside with everything that follows from it. -/
def perform (session : Session) (action : Action) : Session × List TraceEntry :=
  session.run [] [.act none action]

/-- Runs the publication of some events, one after the other, outside of any delivery. -/
def publishAll (session : Session) (events : List Event) : Session × List TraceEntry :=
  session.run [] (events.map fun event => .act none (.publish event))

end Session

end Reorg
