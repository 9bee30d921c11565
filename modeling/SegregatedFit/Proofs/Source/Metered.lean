/-
This file measures what a source hands out. It has handed out the sum of its grants. A metered
source does what the source in it does, and records every grant, so there the account of a run can
be read off.
-/

import Mathlib.Algebra.GroupWithZero.Nat
import SegregatedFit.Proofs.Source.Grants
import SegregatedFit.Proofs.Source.Mirror

namespace SegregatedFit

/-- A source has handed out what it has granted. -/
theorem Source.Grants.size_eq {σ : Type} [Source σ] {first second : σ} {granted : List Nat}
    (grants : Grants first granted second) : size second = size first + granted.sum := by
  induction grants with
  | start => rfl
  | write earlier offset value inductionHypothesis =>
    rw [size_setByte, inductionHypothesis]
  | grant earlier room inductionHypothesis =>
    rw [size_advance, inductionHypothesis, List.sum_append_nat, List.sum_singleton, Nat.add_assoc]

/-- A source that records the growths that it grants. -/
structure Metered (σ : Type) where
  source : σ
  granted : List Nat

namespace Metered

variable {σ : Type} [Source σ]

instance : Source (Metered σ) where
  size metered := Source.size metered.source
  capacity metered := Source.capacity metered.source
  allows metered := Source.allows metered.source
  byte metered := Source.byte metered.source
  setByte metered offset value := ⟨Source.setByte metered.source offset value, metered.granted⟩
  advance metered count room :=
    ⟨Source.advance metered.source count room, metered.granted ++ [count]⟩
  size_le_capacity metered := Source.size_le_capacity metered.source
  size_lt metered := Source.size_lt metered.source
  byte_of_size_le metered := Source.byte_of_size_le metered.source
  byte_setByte metered := Source.byte_setByte metered.source
  size_setByte metered := Source.size_setByte metered.source
  capacity_setByte metered := Source.capacity_setByte metered.source
  allows_setByte metered := Source.allows_setByte metered.source
  byte_advance metered := Source.byte_advance metered.source
  size_advance metered := Source.size_advance metered.source
  capacity_advance metered := Source.capacity_advance metered.source
  allows_advance metered := Source.allows_advance metered.source

/-- A metered source cannot be told from the source in it. -/
theorem alike (source : σ) (granted : List Nat) :
    Source.Alike source (Metered.mk source granted) where
  size := rfl
  capacity := rfl
  allows := rfl
  byte _ := rfl

/-- The record of a metered source is the account of what it granted. -/
theorem granted_eq {first second : Metered σ} {granted : List Nat}
    (grants : Source.Grants first granted second) :
    second.granted = first.granted ++ granted := by
  induction grants with
  | start => exact (List.append_nil _).symm
  | write earlier offset value inductionHypothesis => exact inductionHypothesis
  | grant earlier room inductionHypothesis =>
    rw [← List.append_assoc, ← inductionHypothesis]
    rfl

end Metered

end SegregatedFit
