/-
This file proves that a refusal costs nothing. When a call asks for bytes and gets no pointer,
the heap is afterwards what it was before: every byte of memory, the break, the number of
growths, and the head and the length of every list. A resize tries two ways to get its bytes,
and both find out that they fail before they write anything.
-/

import SegregatedFit.Proofs.Client.History

namespace SegregatedFit

namespace Call

/-- Whether a call asks for bytes. A resize of a pointer to no bytes asks for none. -/
def Seeks : Call → Prop
  | allocate _ => True
  | allocate? _ => True
  | allocateZeroed? _ => True
  | resize? none _ => True
  | resize? (some _) request => request ≠ 0
  | release _ => False
  | write _ _ _ => False

variable {call : Call} {reply : Reply}

/-- A call that is refused gives no pointer back. -/
theorem returned?_of_refused (seeks : call.Seeks) (refused : reply.granted? = none) :
    call.returned? reply = none := by
  cases call with
  | resize? argument request =>
    cases argument with
    | none => exact ite_self _
    | some pointer => exact if_neg (not_or.mpr ⟨seeks, by simp [refused]⟩)
  | allocate request => rfl
  | allocate? request => rfl
  | allocateZeroed? request => rfl
  | release pointer => cases seeks
  | write pointer start values => cases seeks

theorem settle_of_refused (seeks : call.Seeks) (refused : reply.granted? = none)
    (leases : List Lease) : call.settle reply leases = leases := by
  simp [settle, refused, returned?_of_refused seeks refused]

end Call

namespace Chart

variable {σ : Type} [Source σ] {last : Nat} {chart : Chart} {before after : Heap σ last}
variable {leases : List Lease} {call : Call} {reply : Reply} {request : Nat}

/-- A chart refuses when memory answers no pointer. -/
theorem allocate_isOk_of_none {answer : Option Pointer}
    (answered : answer.map Pointer.offset = (chart.allocate request).1.toOption)
    (nothing : answer = none) : (chart.allocate request).1.isOk = false := by
  cases outcome : (chart.allocate request).1 with
  | error refusal => rfl
  | ok offset =>
    rw [nothing, outcome] at answered
    cases answered

/-- A permitted call that asks for bytes and gets no pointer leaves the heap as it was. -/
theorem Describes.eq_of_refused (describes : chart.Describes before)
    (serves : chart.Serves leases) (permitted : call.Permitted before leases)
    (performed : call.perform before = .ok reply after) (seeks : call.Seeks)
    (refused : reply.granted? = none) : after = before := by
  cases call with
  | allocate request =>
    obtain ⟨answer, allocated, rfl⟩ := Action.bind_pure_eq_ok_iff.mp performed
    obtain ⟨answered, _, unchanged, _⟩ :=
      (describes.yields_allocate_spares request).of_eq_ok allocated
    cases answer with
    | ok pointer => cases refused
    | error refusal =>
      refine unchanged ?_
      rw [← answered]
      rfl
  | allocate? request =>
    obtain ⟨answer, allocated, rfl⟩ := Action.bind_pure_eq_ok_iff.mp performed
    obtain ⟨answered, _, unchanged, _⟩ :=
      (describes.yields_allocate? request).of_eq_ok allocated
    exact unchanged (allocate_isOk_of_none answered refused)
  | allocateZeroed? request =>
    obtain ⟨answer, allocated, rfl⟩ := Action.bind_pure_eq_ok_iff.mp performed
    obtain ⟨answered, _, unchanged, _⟩ :=
      (describes.yields_allocateZeroed? request).of_eq_ok allocated
    exact unchanged (allocate_isOk_of_none answered refused)
  | resize? argument request =>
    obtain ⟨answer, resized, rfl⟩ := Action.bind_pure_eq_ok_iff.mp performed
    cases argument with
    | none =>
      obtain ⟨answered, _, unchanged, _⟩ :=
        (describes.yields_allocate? request).of_eq_ok resized
      exact unchanged (allocate_isOk_of_none answered refused)
    | some pointer =>
      obtain ⟨cell, owns, named⟩ := serves.exists_cell (permitted.1 pointer rfl)
      unfold Heap.resize? at resized
      simp only [if_neg seeks] at resized
      obtain ⟨_, _, unchanged, _⟩ :=
        (describes.yields_resizeBlock? owns pointer named).of_eq_ok resized
      exact unchanged refused
  | release pointer => cases seeks
  | write pointer start values => cases seeks

end Chart

/-- At every moment of a history, a permitted call that asks for bytes and gets no pointer
leaves the whole heap and the leases of its client as they were. -/
theorem History.refusals_change_nothing {σ : Type} [Source σ] {last : Nat} {source : σ}
    {config : Config} {past : List (Call × Reply)} {before after : Heap σ last}
    {leases : List Lease} {call : Call} {reply : Reply}
    (history : History source config past before leases) (permitted : call.Permitted before leases)
    (performed : call.perform before = .ok reply after) (seeks : call.Seeks)
    (refused : reply.granted? = none) : after = before ∧ call.settle reply leases = leases := by
  obtain ⟨chart, describes, serves⟩ := history.exists_chart
  exact ⟨describes.eq_of_refused serves permitted performed seeks refused,
    Call.settle_of_refused seeks refused leases⟩

/-- A client asks to enlarge the last block beyond what the source has left. The block can
neither grow where it is nor be moved, and the heap stays as it was. -/
theorem History.refusals_change_nothing_moving :
    ∃ (session : Session Buffer 1) (after : Heap Buffer 1),
      Session.replay? (Buffer.ofMaximum 512) ⟨32, 64, 48⟩ Session.moving = some session ∧
        (Call.resize? (some ⟨96, by decide⟩) 500).Permitted session.heap session.leases ∧
        (Call.resize? (some ⟨96, by decide⟩) 500).perform session.heap = .ok (.ok none) after ∧
        after = session.heap := by
  obtain ⟨session, replayed, leases⟩ := Session.exists_replay_moving
  have history := Session.history_of_replay? replayed
  have permitted : (Call.resize? (some ⟨96, by decide⟩) 500).Permitted session.heap
      session.leases := by
    rw [leases]
    refine ⟨?_, trivial⟩
    rintro pointer ⟨⟩
    decide
  obtain ⟨reply, after, performed⟩ := history.exists_reply permitted
  have refused : ((Session.replay? (Buffer.ofMaximum 512) ⟨32, 64, 48⟩ Session.moving :
      Option (Session Buffer 1)).map fun session =>
        match (Call.resize? (some ⟨96, by decide⟩) 500).perform session.heap with
        | .ok reply _ => decide (reply = .ok none)
        | .error _ _ => false) = some true := by
    decide +kernel
  rw [replayed, Option.map_some, performed] at refused
  obtain rfl : reply = .ok none := by simpa using refused
  exact ⟨session, after, replayed, permitted, performed, (History.refusals_change_nothing history
    permitted performed (show 500 ≠ 0 by decide) rfl).1⟩

end SegregatedFit
