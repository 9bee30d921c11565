/-
This file keeps account of what a source hands out. A source becomes another one by bytes that are
written and by growths that it grants; the grants are told in their order.
-/

import SegregatedFit.Source

namespace SegregatedFit

namespace Source

variable {σ : Type} [Source σ] {first second third : σ} {granted more : List Nat}

/-- How a source may become another one, with the growths that it grants on the way. -/
inductive Grants (first : σ) : List Nat → σ → Prop
  | start : Grants first [] first
  | write {granted : List Nat} {between : σ} (earlier : Grants first granted between)
      (offset : Nat) (value : UInt8) : Grants first granted (setByte between offset value)
  | grant {granted : List Nat} {between : σ} {count : Nat} (earlier : Grants first granted between)
      (room : allows between (size between) count) :
    Grants first (granted ++ [count]) (advance between count room)

theorem Grants.trans (one : Grants first granted second) (other : Grants second more third) :
    Grants first (granted ++ more) third := by
  induction other with
  | start =>
    rw [List.append_nil]
    exact one
  | write earlier offset value inductionHypothesis => exact .write inductionHypothesis offset value
  | grant earlier room inductionHypothesis =>
    rw [← List.append_assoc]
    exact .grant inductionHypothesis room

theorem grants_store (source : σ) (offset value count : Nat) :
    Grants source [] (store source offset value count) := by
  induction count generalizing source offset value with
  | zero => exact .start
  | succ count inductionHypothesis =>
    exact Grants.trans (.write .start offset _) (inductionHypothesis _ _ _)

theorem grants_writeBytes (source : σ) (offset : Nat) (values : List UInt8) :
    Grants source [] (writeBytes source offset values) := by
  induction values generalizing source offset with
  | nil => exact .start
  | cons value rest inductionHypothesis =>
    exact Grants.trans (.write .start offset value) (inductionHypothesis _ _)

/-- A request is one grant or, if it is refused, none. -/
theorem grants_request (source : σ) (count : Nat) :
    Grants source (if (request source count).1.isOk then [count] else [])
      (request source count).2 := by
  unfold request
  split
  · rename_i room
    exact .grant .start room
  · exact .start

end Source

end SegregatedFit
