/-
This file defines actions. An action works on a state and either answers or stops with
a fault. A fault leaves the state as it was at that moment, perhaps in the middle of an
update: nothing is rolled back, since nobody may rely on a state after a fault. A refusal
is not a fault: an action that can be refused has an answer that tells so.
-/

import SegregatedFit.Word

namespace SegregatedFit

/-- A computation on a state that answers or stops with a fault. -/
abbrev Action (state : Type) : Type → Type :=
  EStateM Fault state

namespace Action

variable {state Answer Result : Type}

instance : MonadLift (Except Fault) (Action state) where
  monadLift outcome current :=
    match outcome with
    | .ok value => .ok value current
    | .error fault => .error fault current

/-- Reads from the state without changing it. -/
def inspect (read : state → Except Fault Answer) : Action state Answer := fun current =>
  match read current with
  | .ok value => .ok value current
  | .error fault => .error fault current

/-- Reads a part of the state that is always there. -/
def look (view : state → Answer) : Action state Answer := fun current =>
  .ok (view current) current

/-! ### Answers of composed actions -/

theorem pure_eq_ok_iff {value answer : Answer} {before after : state} :
    (pure value : Action state Answer) before = .ok answer after ↔
      value = answer ∧ before = after := by
  simp [pure, EStateM.pure]

theorem bind_eq_ok_iff {first : Action state Answer} {second : Answer → Action state Result}
    {before after : state} {result : Result} :
    (first >>= second) before = .ok result after ↔
      ∃ answer between, first before = .ok answer between ∧
        second answer between = .ok result after := by
  simp only [bind, EStateM.bind]
  cases first before <;> simp [and_assoc]

theorem lift_eq_ok_iff {outcome : Except Fault Answer} {before after : state}
    {answer : Answer} :
    (liftM outcome : Action state Answer) before = .ok answer after ↔
      outcome = .ok answer ∧ before = after := by
  cases outcome <;> simp [liftM, monadLift, MonadLift.monadLift]

theorem inspect_eq_ok_iff {read : state → Except Fault Answer} {before after : state}
    {answer : Answer} :
    inspect read before = .ok answer after ↔ read before = .ok answer ∧ before = after := by
  unfold inspect
  cases read before <;> simp

theorem look_eq_ok_iff {view : state → Answer} {before after : state} {answer : Answer} :
    look view before = .ok answer after ↔ view before = answer ∧ before = after := by
  simp [look]

/-- An action that was run for its answer alone has a state after it too. -/
theorem exists_of_map_run {action : Action state Answer} {before : state}
    {view : Answer → Result} {result : Result}
    (answered : (action.run' before).map view = some result) :
    ∃ answer after, action before = .ok answer after ∧ view answer = result := by
  unfold EStateM.run' EStateM.run at answered
  split at answered
  · rename_i answer after performed
    exact ⟨answer, after, performed, Option.some.inj answered⟩
  · cases answered

end Action

end SegregatedFit
