/-
**Computations that may fail.**

Blocks are connected and disconnected step by step, and the first failure ends the run. These are
the laws of such runs, whatever the steps do.

* `bind_eq_ok_iff`: two computations in a row succeed exactly when both succeed;
* `foldlM_preserves`, `foldlM_succeeds`: what every step keeps, a run keeps, and success too;
* `foldlM_tracks`: the same of a state and of what was noted on the way to it;
* `foldlM_simulates`: a run seen by a part of its state;
* `foldlM_reverse_undoes`: when each step can be taken back, a run is taken back by going through
  its items from the last one to the first;
* `foldlM_reverse_recovers`: when each step that is taken back leads to where it began, as far as one
  looks, so does a run;
* `foldlM_ne_error`: a run fails for no cause that no step fails for;
* `bind_eq_error_iff`, `bind_pure_eq_error_iff`, `foldlM_eq_error_iff`: where a run fails, and what
  came before.
-/

import Mathlib.Logic.Basic

namespace Reorg.Fallible

variable {ε ε' α β σ τ : Type}

theorem bind_eq_ok_iff {first : Except ε α} {next : α → Except ε β} {result : β} :
    (first >>= next) = .ok result ↔ ∃ value, first = .ok value ∧ next value = .ok result := by
  cases first with
  | error problem =>
    constructor
    · intro impossible
      cases impossible
    · rintro ⟨_, impossible, _⟩
      cases impossible
  | ok value =>
    constructor
    · exact fun succeeded => ⟨value, rfl, succeeded⟩
    · rintro ⟨_, ⟨⟩, succeeded⟩
      exact succeeded

theorem pure_eq_ok_iff {value result : α} :
    (pure value : Except ε α) = .ok result ↔ value = result :=
  Except.ok.injEq value result ▸ Iff.rfl

theorem mapError_eq_ok_iff {rename : ε → ε'} {first : Except ε α} {result : α} :
    first.mapError rename = .ok result ↔ first = .ok result := by
  cases first with
  | error problem =>
    constructor <;> intro impossible <;> cases impossible
  | ok value =>
    show (Except.ok value : Except ε' α) = .ok result ↔ _
    rw [Except.ok.injEq, Except.ok.injEq]

theorem exists_eq_ok {first : Except ε α} (succeeds : first.isOk = true) :
    ∃ result, first = .ok result := by
  cases first with
  | error problem => cases succeeds
  | ok value => exact ⟨value, rfl⟩

theorem forM_eq_ok {check : α → Except ε Unit} {items : List α}
    (passes : ∀ item ∈ items, check item = .ok ()) : items.forM check = .ok () := by
  induction items with
  | nil => rfl
  | cons item items ih =>
    refine bind_eq_ok_iff.mpr ⟨(), passes item List.mem_cons_self, ?_⟩
    exact ih fun item member => passes item (List.mem_cons_of_mem _ member)

/-- **What every step keeps, a run keeps.** -/
theorem foldlM_preserves {step : σ → α → Except ε σ} {items : List α} (holds : σ → Prop)
    (keeps : ∀ state item next, item ∈ items → holds state → step state item = .ok next →
      holds next)
    {state final : σ} (start : holds state) (ran : items.foldlM step state = .ok final) :
    holds final := by
  induction items generalizing state with
  | nil =>
    rw [List.foldlM_nil, pure_eq_ok_iff] at ran
    exact ran ▸ start
  | cons item items ih =>
    rw [List.foldlM_cons, bind_eq_ok_iff] at ran
    obtain ⟨next, stepped, ran⟩ := ran
    refine ih (fun state item next member => ?_) (keeps _ _ _ List.mem_cons_self start stepped) ran
    exact keeps state item next (List.mem_cons_of_mem _ member)

/-- **What no step changes, a run does not change.** -/
theorem foldlM_frame {step : σ → α → Except ε σ} {items : List α} (observe : σ → β)
    (keeps : ∀ state item next, item ∈ items → step state item = .ok next →
      observe next = observe state)
    {state final : σ} (ran : items.foldlM step state = .ok final) :
    observe final = observe state :=
  foldlM_preserves (fun reached => observe reached = observe state)
    (fun reached item next member same stepped => (keeps reached item next member stepped).trans same)
    rfl ran

/-- **What every step keeps of a state and its past, a run keeps.** Each item adds to the past. -/
theorem foldlM_tracks {step : σ → α → Except ε σ} {items : List α} (note : α → List β)
    (holds : List β → σ → Prop)
    (keeps : ∀ past state item next, item ∈ items → holds past state →
      step state item = .ok next → holds (past ++ note item) next)
    {past : List β} {state final : σ} (start : holds past state)
    (ran : items.foldlM step state = .ok final) : holds (past ++ items.flatMap note) final := by
  induction items generalizing past state with
  | nil =>
    rw [List.foldlM_nil, pure_eq_ok_iff] at ran
    rw [List.flatMap_nil, List.append_nil]
    exact ran ▸ start
  | cons item items ih =>
    rw [List.foldlM_cons, bind_eq_ok_iff] at ran
    obtain ⟨next, stepped, ran⟩ := ran
    rw [List.flatMap_cons, ← List.append_assoc]
    refine ih (fun past state item next member => ?_)
      (keeps _ _ _ _ List.mem_cons_self start stepped) ran
    exact keeps past state item next (List.mem_cons_of_mem _ member)

/-- **A run is seen by a part of its state** when each step is: the part that `view` shows changes as
steps of its own would change it. -/
theorem foldlM_simulates {step : σ → α → Except ε σ} {step' : τ → α → Except ε' τ} {items : List α}
    (view : σ → τ) (holds : σ → Prop)
    (keeps : ∀ state item next, item ∈ items → holds state → step state item = .ok next →
      holds next ∧ step' (view state) item = .ok (view next))
    {state final : σ} (start : holds state) (ran : items.foldlM step state = .ok final) :
    holds final ∧ items.foldlM step' (view state) = .ok (view final) := by
  induction items generalizing state with
  | nil =>
    rw [List.foldlM_nil, pure_eq_ok_iff] at ran
    exact ⟨ran ▸ start, congrArg (fun state => Except.ok (view state)) ran⟩
  | cons item items ih =>
    rw [List.foldlM_cons, bind_eq_ok_iff] at ran
    obtain ⟨next, stepped, ran⟩ := ran
    obtain ⟨kept, seen⟩ := keeps _ _ _ List.mem_cons_self start stepped
    obtain ⟨ends, rest⟩ := ih (fun state item next member => keeps state item next (.tail _ member))
      kept ran
    refine ⟨ends, ?_⟩
    rw [List.foldlM_cons, seen]
    exact rest

/-- **A run is taken back from its last item to its first.** The steps back may see less of the
state than the steps forth do: only the part that `view` shows. -/
theorem foldlM_reverse_undoes {forth : σ → α → Except ε σ} {back : τ → α → Except ε' τ}
    {items : List α} (view : σ → τ) (holds : σ → Prop)
    (keeps : ∀ state item next, item ∈ items → holds state → forth state item = .ok next →
      holds next)
    (undoes : ∀ state item next, item ∈ items → holds state → forth state item = .ok next →
      back (view next) item = .ok (view state))
    {state final : σ} (start : holds state) (ran : items.foldlM forth state = .ok final) :
    items.reverse.foldlM back (view final) = .ok (view state) := by
  induction items generalizing state with
  | nil =>
    rw [List.foldlM_nil, pure_eq_ok_iff] at ran
    rw [ran]
    rfl
  | cons item items ih =>
    rw [List.foldlM_cons, bind_eq_ok_iff] at ran
    obtain ⟨next, stepped, ran⟩ := ran
    have rest := ih (fun state item next member => keeps state item next (.tail _ member))
      (fun state item next member => undoes state item next (.tail _ member))
      (keeps _ _ _ List.mem_cons_self start stepped) ran
    rw [List.reverse_cons, List.foldlM_append, bind_eq_ok_iff]
    refine ⟨view next, rest, ?_⟩
    rw [List.foldlM_cons, bind_eq_ok_iff]
    exact ⟨view state, undoes _ _ _ List.mem_cons_self start stepped, rfl⟩

/-- **A run that is taken back leads to where it began**, as far as the states are looked at, if each
step does and whenever the steps back succeed. They may begin at a state that only looks like the one
that the run ended at. -/
theorem foldlM_reverse_recovers {forth : σ → α → Except ε σ} {back : τ → α → Except ε' τ}
    {items : List α} (holds : σ → Prop) (looks : σ → τ → Prop)
    (keeps : ∀ state item next, item ∈ items → holds state → forth state item = .ok next →
      holds next)
    (recovers : ∀ state item next late left, item ∈ items → holds state →
      forth state item = .ok next → looks next late → back late item = .ok left → looks state left)
    {state final : σ} {late left : τ} (start : holds state)
    (ran : items.foldlM forth state = .ok final) (alike : looks final late)
    (returned : items.reverse.foldlM back late = .ok left) : looks state left := by
  induction items generalizing state left with
  | nil =>
    rw [List.foldlM_nil, pure_eq_ok_iff] at ran
    rw [List.reverse_nil, List.foldlM_nil, pure_eq_ok_iff] at returned
    exact ran ▸ returned ▸ alike
  | cons item items ih =>
    rw [List.foldlM_cons, bind_eq_ok_iff] at ran
    obtain ⟨next, stepped, ran⟩ := ran
    rw [List.reverse_cons, List.foldlM_append, bind_eq_ok_iff] at returned
    obtain ⟨between, earlier, last⟩ := returned
    rw [List.foldlM_cons, bind_eq_ok_iff] at last
    obtain ⟨_, last, done⟩ := last
    rw [List.foldlM_nil, pure_eq_ok_iff] at done
    have looked := ih (fun state item next member => keeps state item next (.tail _ member))
      (fun state item next late left member => recovers state item next late left (.tail _ member))
      (keeps _ _ _ List.mem_cons_self start stepped) ran earlier
    exact done ▸ recovers _ _ _ _ _ List.mem_cons_self start stepped looked last

/-! ### Causes of failure -/

theorem pure_ne_error {value : α} {problem : ε} : (pure value : Except ε α) ≠ .error problem := by
  intro failed
  cases failed

theorem bind_ne_error {first : Except ε α} {next : α → Except ε β} {problem : ε}
    (begins : first ≠ .error problem)
    (continues : ∀ value, first = .ok value → next value ≠ .error problem) :
    (first >>= next) ≠ .error problem := by
  cases first with
  | error other =>
    intro failed
    exact begins (congrArg Except.error (Except.error.inj failed))
  | ok value => exact continues value rfl

theorem mapError_ne_error {rename : ε → ε'} (distinct : Function.Injective rename)
    {first : Except ε α} {problem : ε} (passes : first ≠ .error problem) :
    first.mapError rename ≠ .error (rename problem) := by
  cases first with
  | error other =>
    intro failed
    exact passes (congrArg Except.error (distinct (Except.error.inj failed)))
  | ok value =>
    intro failed
    cases failed

/-- **A run fails for no cause that no step fails for.** -/
theorem foldlM_ne_error {step : σ → α → Except ε σ} {problem : ε}
    (passes : ∀ state item, step state item ≠ .error problem) (state : σ) (items : List α) :
    items.foldlM step state ≠ .error problem := by
  induction items generalizing state with
  | nil =>
    intro failed
    cases failed
  | cons item items ih =>
    rw [List.foldlM_cons]
    exact bind_ne_error (passes state item) fun next _ => ih next

theorem bind_eq_error_iff {first : Except ε α} {next : α → Except ε β} {problem : ε} :
    (first >>= next) = .error problem ↔
      first = .error problem ∨ ∃ value, first = .ok value ∧ next value = .error problem := by
  cases first with
  | error other =>
    refine ⟨fun failed => .inl (congrArg Except.error (Except.error.inj failed)), ?_⟩
    intro either
    obtain failed | ⟨_, impossible, -⟩ := either
    · exact congrArg Except.error (Except.error.inj failed)
    · cases impossible
  | ok value =>
    refine ⟨fun failed => .inr ⟨value, rfl, failed⟩, ?_⟩
    intro either
    obtain impossible | ⟨_, same, failed⟩ := either
    · cases impossible
    · cases same
      exact failed

/-- What is made of a result does not fail by itself. -/
theorem bind_pure_eq_error_iff {first : Except ε α} {make : α → β} {problem : ε} :
    (first >>= fun value => pure (make value)) = .error problem ↔ first = .error problem := by
  rw [bind_eq_error_iff]
  apply or_iff_left
  intro succeeded
  obtain ⟨_, _, impossible⟩ := succeeded
  exact pure_ne_error impossible

theorem mapError_eq_error_iff {rename : ε → ε'} {first : Except ε α} {problem : ε'} :
    first.mapError rename = .error problem ↔
      ∃ cause, first = .error cause ∧ rename cause = problem := by
  cases first with
  | error cause =>
    constructor
    · intro failed
      exact ⟨cause, rfl, Except.error.inj failed⟩
    · intro fails
      obtain ⟨_, ⟨⟩, rfl⟩ := fails
      rfl
  | ok value =>
    constructor
    · intro impossible
      cases impossible
    · intro fails
      obtain ⟨_, impossible, _⟩ := fails
      cases impossible

/-- **A run fails at one of its items**, behind those that succeeded. -/
theorem foldlM_eq_error_iff {step : σ → α → Except ε σ} {items : List α} {state : σ} {problem : ε} :
    items.foldlM step state = .error problem ↔ ∃ before item behind reached,
      items = before ++ item :: behind ∧ before.foldlM step state = .ok reached ∧
        step reached item = .error problem := by
  induction items generalizing state with
  | nil =>
    constructor
    · intro impossible
      cases impossible
    · intro fails
      obtain ⟨before, _, _, _, split, _⟩ := fails
      cases before <;> cases split
  | cons first items ih =>
    rw [List.foldlM_cons, bind_eq_error_iff]
    constructor
    · intro either
      obtain failed | ⟨next, stepped, failed⟩ := either
      · exact ⟨[], first, items, state, rfl, rfl, failed⟩
      · obtain ⟨before, item, behind, reached, rfl, ran, failed⟩ := ih.mp failed
        refine ⟨first :: before, item, behind, reached, rfl, ?_, failed⟩
        rw [List.foldlM_cons, stepped]
        exact ran
    · intro fails
      obtain ⟨before, item, behind, reached, split, ran, failed⟩ := fails
      cases before with
      | nil =>
        cases split
        cases ran
        exact .inl failed
      | cons _ before =>
        cases split
        rw [List.foldlM_cons, bind_eq_ok_iff] at ran
        obtain ⟨next, stepped, ran⟩ := ran
        exact .inr ⟨next, stepped, ih.mpr ⟨before, item, behind, reached, rfl, ran, failed⟩⟩

end Reorg.Fallible
