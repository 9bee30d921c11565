/-
This file compares heaps that the same chart describes. Such twins may keep different numbers
of lists and have different bytes where nobody reads them, but they permit the same calls,
give the same replies, and stay twins. Sources of one capacity that allow the same growth make
twins, and so the number of buckets cannot be observed.
-/

import SegregatedFit.Heap.Usage
import SegregatedFit.Proofs.Client.History
import SegregatedFit.Proofs.Heap.Shape

namespace SegregatedFit

variable {σ τ : Type} [Source σ] [Source τ] {last other : Nat} {chart : Chart}
variable {heap : Heap σ last} {twin : Heap τ other} {leases : List Lease}

/-- Whether two heaps look the same from outside. -/
structure Heap.SameLayout (heap : Heap σ last) (twin : Heap τ other) : Prop where
  walk : heap.arena.walk = twin.arena.walk
  size : heap.size = twin.size
  growths : heap.arena.growths = twin.arena.growths
  usage : heap.usage = twin.usage

namespace Chart

/-- Heaps that one chart describes look the same. -/
theorem Describes.sameLayout (describes : chart.Describes heap) (described : chart.Describes twin) :
    heap.SameLayout twin := by
  have walk : heap.arena.walk = twin.arena.walk :=
    describes.walk_eq_ok.trans described.walk_eq_ok.symm
  have size : heap.size = twin.size := describes.size_eq.trans described.size_eq.symm
  have growths : heap.arena.growths = twin.arena.growths :=
    describes.growths_eq.trans described.growths_eq.symm
  refine ⟨walk, size, growths, ?_⟩
  unfold Heap.usage
  rw [walk, size, growths]

/-- Heaps that one chart describes permit the same calls. -/
theorem Describes.permitted_twin (describes : chart.Describes heap)
    (described : chart.Describes twin) (serves : chart.Serves leases) {call : Call}
    (permitted : call.Permitted heap leases) : call.Permitted twin leases := by
  refine ⟨permitted.1, ?_⟩
  cases call with
  | write pointer start values =>
    obtain ⟨cell, owns, named⟩ := serves.exists_cell (permitted.1 pointer rfl)
    have fits := describes.fits_of_permitted owns named permitted
    rwa [Call.Fits, described.usableSize_eq_ok owns.1 pointer named]
  | allocate request => trivial
  | allocate? request => trivial
  | allocateZeroed? request => trivial
  | resize? pointer request => trivial
  | release pointer => trivial

/-- Replies with the same offsets are the same. -/
theorem eq_of_map_offset_eq {first second : Reply}
    (same : first.map (·.map Pointer.offset) = second.map (·.map Pointer.offset)) :
    first = second := by
  cases first with
  | error refusal =>
    cases second with
    | error reason => exact congrArg _ (Except.error.inj same)
    | ok granted => cases same
  | ok granted =>
    cases second with
    | error reason => cases same
    | ok answer => exact congrArg _ (Pointer.eq_of_map_offset_eq (Except.ok.inj same))

/-- A call gets the same reply on both of two heaps that one chart describes, and one chart
describes both of them afterwards. -/
theorem Describes.perform_twin (describes : chart.Describes heap)
    (described : chart.Describes twin) (serves : chart.Serves leases) {call : Call}
    (permitted : call.Permitted heap leases) {reply : Reply} {after : Heap σ last}
    (performed : call.perform heap = .ok reply after) :
    ∃ (later : Heap τ other) (next : Chart), call.Permitted twin leases ∧
      call.perform twin = .ok reply later ∧ next.Describes after ∧ next.Describes later ∧
      next.Serves (call.settle reply leases) := by
  have steps := (describes.yields_perform serves permitted).of_eq_ok performed
  have allowed := describes.permitted_twin described serves permitted
  obtain ⟨answer, later, redone, _, resteps⟩ := described.yields_perform serves allowed
  obtain rfl := eq_of_map_offset_eq (steps.answered.trans resteps.answered.symm)
  exact ⟨later, _, allowed, redone, steps.described, resteps.described, steps.serves⟩

end Chart

/-- A history on one source can be repeated on any source of the same capacity that allows the same
growth, with any number of buckets. -/
theorem History.exists_twin {source : σ} {copy : τ} {config : Config}
    (size : Source.size copy = Source.size source)
    (capacity : Source.capacity copy = Source.capacity source)
    (allows : Source.allows copy = Source.allows source) {past : List (Call × Reply)}
    (history : History source config past heap leases) (other : Nat) :
    ∃ (twin : Heap τ other) (chart : Chart), History copy config past twin leases ∧
      chart.Describes heap ∧ chart.Describes twin ∧ chart.Serves leases := by
  induction history with
  | begin created =>
    obtain ⟨outcome, found, starts⟩ := Chart.exists_create source config
    rw [created] at found
    cases found
    obtain ⟨result, copied, restarts⟩ :
        ∃ result : Except Refusal (Heap τ other), Heap.create copy config = .ok result ∧
          Chart.Starts (Chart.create (Source.size copy) (Source.capacity copy)
            (Source.allows copy) config) result := Chart.exists_create copy config
    rw [size, capacity, allows] at restarts
    generalize Chart.create _ _ _ config = begun at starts restarts
    cases starts with
    | heap describes unowned =>
      cases restarts with
      | heap described _ =>
        exact ⟨_, _, .begin copied, describes, described, List.nodup_nil, List.forall_mem_nil _,
          fun cell owns => absurd owns (unowned cell)⟩
  | step earlier permitted performed inductionHypothesis =>
    obtain ⟨twin, chart, repeated, describes, described, serves⟩ := inductionHypothesis
    obtain ⟨later, next, allowed, redone, rest⟩ :=
      describes.perform_twin described serves permitted performed
    exact ⟨later, next, .step repeated allowed redone, rest⟩

end SegregatedFit
