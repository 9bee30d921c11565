/-
This file reasons about actions that do answer. `Action.Yields` says at once that an action
does not stop with a fault and what holds afterwards, so a chain of steps is followed from
its begin: every step has to answer before the next one is looked at.
-/

import SegregatedFit.Action

namespace SegregatedFit

namespace Action

variable {state Answer Result : Type}

/-- Whether an action answers from a state, so that a condition holds of its answer and of
the state after it. -/
def Yields (before : state) (action : Action state Answer)
    (condition : Answer → state → Prop) : Prop :=
  ∃ answer after, action before = .ok answer after ∧ condition answer after

variable {before : state} {condition : Result → state → Prop}

theorem Yields.mono {action : Action state Result} {weaker : Result → state → Prop}
    (yields : Yields before action condition)
    (weakens : ∀ answer after, condition answer after → weaker answer after) :
    Yields before action weaker := by
  obtain ⟨answer, after, answered, holds⟩ := yields
  exact ⟨answer, after, answered, weakens answer after holds⟩

/-- An action has one outcome only. -/
theorem Yields.of_eq_ok {action : Action state Result} {answer : Result} {after : state}
    (yields : Yields before action condition) (answered : action before = .ok answer after) :
    condition answer after := by
  obtain ⟨other, later, found, holds⟩ := yields
  rw [answered] at found
  cases found
  exact holds

theorem yields_pure {answer : Result} (holds : condition answer before) :
    Yields before (pure answer) condition :=
  ⟨answer, before, rfl, holds⟩

/-- Two steps in a row answer when the first one does and the second one does after it. -/
theorem Yields.bind {first : Action state Answer} {second : Answer → Action state Result}
    {middle : Answer → state → Prop} (one : Yields before first middle)
    (other : ∀ answer between, middle answer between →
      Yields between (second answer) condition) :
    Yields before (first >>= second) condition := by
  obtain ⟨answer, between, answered, holds⟩ := one
  obtain ⟨result, after, resulted, done⟩ := other answer between holds
  exact ⟨result, after, bind_eq_ok_iff.mpr ⟨answer, between, answered, resulted⟩, done⟩

theorem yields_bind_of_eq_ok {first : Action state Answer} {second : Answer → Action state Result}
    {value : Answer} {between : state} (answered : first before = .ok value between)
    (rest : Yields between (second value) condition) :
    Yields before (first >>= second) condition := by
  obtain ⟨result, after, resulted, holds⟩ := rest
  exact ⟨result, after, bind_eq_ok_iff.mpr ⟨value, between, answered, resulted⟩, holds⟩

/-- An action whose answer is only put into another form answers when the action does. -/
theorem bind_pure_eq_ok_iff {first : Action state Answer} {form : Answer → Result}
    {before after : state} {result : Result} :
    (first >>= fun answer => pure (form answer)) before = .ok result after ↔
      ∃ answer, first before = .ok answer after ∧ form answer = result := by
  rw [bind_eq_ok_iff]
  constructor
  · rintro ⟨answer, between, answered, formed⟩
    obtain ⟨same, rfl⟩ := pure_eq_ok_iff.mp formed
    exact ⟨answer, answered, same⟩
  · rintro ⟨answer, answered, same⟩
    exact ⟨answer, after, answered, pure_eq_ok_iff.mpr ⟨same, rfl⟩⟩

/-- An action whose answer is only put into another form stops when the action does. -/
theorem bind_pure_eq_error_iff {first : Action state Answer} {form : Answer → Result}
    {before after : state} {fault : Fault} :
    (first >>= fun answer => pure (form answer)) before = .error fault after ↔
      first before = .error fault after := by
  simp only [bind, EStateM.bind, pure, EStateM.pure]
  cases first before <;> simp

/-! ### Steps that leave the state alone -/

theorem yields_bind_inspect {read : state → Except Fault Answer} {value : Answer}
    {second : Answer → Action state Result} (found : read before = .ok value)
    (rest : Yields before (second value) condition) :
    Yields before (inspect read >>= second) condition :=
  yields_bind_of_eq_ok (inspect_eq_ok_iff.mpr ⟨found, rfl⟩) rest

theorem yields_bind_look {view : state → Answer} {second : Answer → Action state Result}
    (rest : Yields before (second (view before)) condition) :
    Yields before (look view >>= second) condition :=
  yields_bind_of_eq_ok (look_eq_ok_iff.mpr ⟨rfl, rfl⟩) rest

theorem yields_bind_lift {outcome : Except Fault Answer} {value : Answer}
    {second : Answer → Action state Result} (found : outcome = .ok value)
    (rest : Yields before (second value) condition) :
    Yields before (liftM outcome >>= second) condition :=
  yields_bind_of_eq_ok (lift_eq_ok_iff.mpr ⟨found, rfl⟩) rest

end Action

end SegregatedFit
