/-
This file proves what a single call does to a heap that a chart describes. A permitted call
always has a reply. The chart decides the reply, the chart afterwards describes the heap
afterwards, the leases still name the owned cells, and the payloads of all leases but the one
in question stay as they are.
-/

import SegregatedFit.Proofs.Client.Leases
import SegregatedFit.Proofs.Heap.Resize

namespace SegregatedFit

/-- A pointer that is given back with a call is the one that the call names. -/
theorem Call.argument?_of_returned? {call : Call} {reply : Reply} {pointer : Pointer}
    (returned : call.returned? reply = some pointer) : call.argument? = some pointer := by
  cases call with
  | resize? named request =>
    have returned : (if request = 0 ∨ reply.granted?.isSome then named else none) =
        some pointer := returned
    split at returned
    · exact returned
    · cases returned
  | release named => exact returned
  | allocate request => cases returned
  | allocate? request => cases returned
  | allocateZeroed? request => cases returned
  | write named start values => cases returned

namespace Chart

/-- The cell of a pointer. -/
def cellAt? (chart : Chart) (pointer : Pointer) : Option Cell :=
  chart.cells.find? (·.offset = pointer.offset)

/-- What a call does to a chart, and the offset that it answers. -/
def perform (chart : Chart) : Call → Except Refusal (Option Nat) × Chart
  | .allocate request => ((chart.allocate request).1.map some, (chart.allocate request).2)
  | .allocate? request => (.ok (chart.allocate request).1.toOption, (chart.allocate request).2)
  | .allocateZeroed? request =>
    (.ok (chart.allocate request).1.toOption, (chart.allocate request).2)
  | .resize? none request =>
    (.ok (chart.allocate request).1.toOption, (chart.allocate request).2)
  | .resize? (some pointer) request =>
    match chart.cellAt? pointer with
    | none => (.ok none, chart)
    | some cell =>
      if request = 0 then
        (.ok none, chart.free cell)
      else
        (.ok (chart.resize cell request).1, (chart.resize cell request).2)
  | .release pointer =>
    match chart.cellAt? pointer with
    | none => (.ok none, chart)
    | some cell => (.ok none, chart.free cell)
  | .write _ _ _ => (.ok none, chart)

variable {σ : Type} [Source σ] {last : Nat} {chart next : Chart} {before after : Heap σ last}
variable {leases : List Lease} {lost won : Option Cell} {cell target : Cell} {request : Nat}
variable {call : Call} {reply : Reply} {pointer : Pointer}

/-- What a call does to a heap, to the leases of its client, and to the payloads of the cells
that the call does not name. -/
structure Steps (chart : Chart) (call : Call) (leases : List Lease) (reply : Reply)
    (before after : Heap σ last) : Prop where
  answered : reply.map (·.map Pointer.offset) = (chart.perform call).1
  described : (chart.perform call).2.Describes after
  serves : (chart.perform call).2.Serves (call.settle reply leases)
  others : ∀ cell, chart.Owns cell →
    (∀ pointer, call.argument? = some pointer → pointer.offset ≠ cell.offset) →
    (chart.perform call).2.Owns cell ∧ Arena.Spares cell before.arena after.arena

/-- A call that exchanges owners is a step. -/
theorem Describes.steps (describes : chart.Describes before) (serves : chart.Serves leases)
    (answered : reply.map (·.map Pointer.offset) = (chart.perform call).1)
    (described : (chart.perform call).2.Describes after)
    (exchanges : chart.Exchanges (chart.perform call).2 call.request lost won)
    (lostEq : lost.map Cell.offset = (call.returned? reply).map Pointer.offset)
    (wonEq : won.map Cell.offset = reply.granted?.map Pointer.offset)
    (spares : ∀ cell, chart.Owns cell →
      (∀ pointer, call.argument? = some pointer → pointer.offset ≠ cell.offset) →
      Arena.Spares cell before.arena after.arena) :
    chart.Steps call leases reply before after where
  answered := answered
  described := described
  serves := serves.settle described exchanges lostEq wonEq describes
  others cell owns elsewhere := by
    refine ⟨(exchanges.owned cell).mpr (Or.inr ⟨owns, ?_⟩), spares cell owns elsewhere⟩
    rintro rfl
    obtain ⟨pointer, returned, place⟩ := Option.map_eq_some_iff.mp lostEq.symm
    exact elsewhere pointer (Call.argument?_of_returned? returned) place

/-- A cell that a call does not name is not the cell of the pointer that it names. -/
theorem ne_of_elsewhere {other : Cell} (named : pointer.offset = cell.offset)
    (argument : call.argument? = some pointer)
    (elsewhere : ∀ pointer, call.argument? = some pointer → pointer.offset ≠ other.offset) :
    other ≠ cell := by
  rintro rfl
  exact elsewhere pointer argument named

/-! ### Exchanges of owners -/

theorem Describes.exchanges_allocate (describes : chart.Describes before) (request : Nat) :
    ∃ won : Option Cell, won.map Cell.offset = (chart.allocate request).1.toOption ∧
      chart.Exchanges (chart.allocate request).2 request none won := by
  cases result : chart.allocate request with
  | mk outcome next =>
    cases outcome with
    | error refusal =>
      obtain rfl := allocate_eq_error result
      exact ⟨none, rfl, Exchanges.refl _ _⟩
    | ok offset =>
      obtain ⟨target, rfl, allocated, suits, apart, owned⟩ := describes.owns_allocate result
      refine ⟨some target, rfl, fun other => ?_, fun other owns _ same => ?_,
        (fun _ found => by cases found), ?_⟩
      · simp [owned, eq_comm]
      · obtain rfl := Option.some.inj same
        have sides := apart target owns
        have enough := suits.enough
        unfold Cell.next at sides
        omega
      · rintro _ ⟨rfl⟩
        exact suits

/-- A call that allocates in the chart is a step when memory answers the same. -/
theorem Describes.steps_of_allocate (describes : chart.Describes before)
    (serves : chart.Serves leases)
    (allocates : (chart.perform call).2 = (chart.allocate call.request).2)
    (returned : call.returned? reply = none)
    (answered : reply.map (·.map Pointer.offset) = (chart.perform call).1)
    (granted : reply.granted?.map Pointer.offset = (chart.allocate call.request).1.toOption)
    (described : (chart.allocate call.request).2.Describes after)
    (spares : ∀ cell, chart.Owns cell → Arena.Spares cell before.arena after.arena) :
    chart.Steps call leases reply before after := by
  obtain ⟨won, wonEq, exchanges⟩ := describes.exchanges_allocate call.request
  rw [← allocates] at described exchanges
  refine describes.steps serves answered described exchanges ?_ (wonEq.trans granted.symm)
    fun cell owns _ => spares cell owns
  rw [returned]
  rfl

theorem Describes.exchanges_free (describes : chart.Describes before) (owns : chart.Owns cell)
    (request : Nat) : chart.Exchanges (chart.free cell) request (some cell) none where
  owned other := by
    rw [describes.owns_free owns]
    simp [eq_comm]
  fresh other _ _ := by simp
  held _ found := Option.some.inj found ▸ owns
  suits _ found := by cases found

theorem Resizes.exchanges {first second : Arena σ} (owns : chart.Owns cell)
    (resizes : chart.Resizes next cell request target first second) :
    chart.Exchanges next request (some cell) (some target) where
  owned other := by
    rw [resizes.owned]
    simp [eq_comm]
  fresh other others kept same :=
    resizes.fresh other others (fun equal => kept (congrArg some equal.symm))
      (Option.some.inj same).symm
  held _ found := Option.some.inj found ▸ owns
  suits _ found := Option.some.inj found ▸ resizes.suits

/-! ### The calls -/

/-- A resize that is refused leaves the chart alone. -/
theorem resize_eq_none (refused : (chart.resize cell request).1 = none) :
    (chart.resize cell request).2 = chart := by
  unfold resize at refused ⊢
  cases needed : blockSize? request with
  | none => rfl
  | some size =>
    rw [needed] at refused
    simp only at refused ⊢
    split at refused
    · cases refused
    · rename_i large
      rw [if_neg large]
      cases made : chart.reserve? cell size with
      | some reserved =>
        rw [made] at refused
        cases refused
      | none =>
        rw [made] at refused
        simp only at refused ⊢
        cases result : chart.allocate request with
        | mk outcome between =>
          rw [result] at refused
          cases outcome with
          | ok target => cases refused
          | error refusal => exact allocate_eq_error result

/-- The cell of a leased pointer is found. -/
theorem Describes.cellAt?_eq_some (describes : chart.Describes before) (owns : chart.Owns cell)
    (named : pointer.offset = cell.offset) : chart.cellAt? pointer = some cell := by
  obtain ⟨front, back, split⟩ := List.append_of_mem owns.1
  have nodup := describes.tiles.nodup
  rw [split, List.map_append, List.map_cons] at nodup
  have absent := (List.nodup_cons.mp (List.nodup_middle.mp nodup)).1
  unfold cellAt?
  rw [split, List.find?_append, List.find?_cons_of_pos (by simp [named])]
  have nothing : front.find? (·.offset = pointer.offset) = none := by
    refine List.find?_eq_none.mpr fun other member same => absent ?_
    have same : other.offset = cell.offset := by simpa [named] using same
    exact List.mem_append_left _ (List.mem_map.mpr ⟨other, member, same⟩)
  rw [nothing]
  rfl

theorem Serves.exists_cell (serves : chart.Serves leases)
    (leased : pointer ∈ leases.map Lease.pointer) :
    ∃ cell, chart.Owns cell ∧ pointer.offset = cell.offset := by
  obtain ⟨lease, member, rfl⟩ := List.mem_map.mp leased
  obtain ⟨cell, owns, named, _⟩ := serves.backed lease member
  exact ⟨cell, owns, named.symm⟩

/-- The bytes of a permitted write lie within the payload. -/
theorem Describes.fits_of_permitted (describes : chart.Describes before) (owns : chart.Owns cell)
    (named : pointer.offset = cell.offset) {start : Nat} {values : List UInt8}
    (permitted : (Call.write pointer start values).Permitted before leases) :
    start + values.length ≤ cell.size - 8 := by
  have fits := permitted.2
  rwa [Call.Fits, describes.usableSize_eq_ok owns.1 pointer named] at fits

/-- A resize takes the cell of its pointer and gives another one, both or neither. -/
theorem Describes.yields_resize? (describes : chart.Describes before) (owns : chart.Owns cell)
    (named : pointer.offset = cell.offset) (request : Nat) :
    Heap.Yields before (Heap.resize? (some pointer) request) fun answer after =>
      .ok (answer.map Pointer.offset) = (chart.perform (.resize? (some pointer) request)).1 ∧
        (chart.perform (.resize? (some pointer) request)).2.Describes after ∧
        ∃ lost won : Option Cell, lost.map Cell.offset =
            ((Call.resize? (some pointer) request).returned? (.ok answer)).map Pointer.offset ∧
          won.map Cell.offset = answer.map Pointer.offset ∧
          chart.Exchanges (chart.perform (.resize? (some pointer) request)).2 request lost won ∧
          (∀ other, chart.Owns other → other ≠ cell →
            Arena.Spares other before.arena after.arena) ∧
          ∀ target, won = some target → ∀ place, place < request → place + 8 < cell.size →
            Source.byte after.arena.source (target.offset + place) =
              Source.byte before.arena.source (cell.offset + place) := by
  have found := describes.cellAt?_eq_some owns named
  unfold Heap.resize?
  by_cases nothing : request = 0
  · have performed : chart.perform (.resize? (some pointer) request) =
        (.ok none, chart.free cell) := by
      simp only [perform, found, if_pos nothing]
    have returned : (Call.resize? (some pointer) request).returned? (.ok none) = some pointer :=
      if_pos (Or.inl nothing)
    simp only [if_pos nothing]
    rw [performed]
    refine (describes.yields_release_spares owns pointer named).bind ?_
    rintro _ after ⟨freed, spares⟩
    refine Heap.yields_pure ⟨rfl, freed, some cell, none, ?_, rfl,
      describes.exchanges_free owns request, spares, fun _ found => by cases found⟩
    rw [returned]
    exact congrArg some named.symm
  · have performed : chart.perform (.resize? (some pointer) request) =
        (.ok (chart.resize cell request).1, (chart.resize cell request).2) := by
      simp only [perform, found, if_neg nothing]
    simp only [if_neg nothing]
    rw [performed]
    refine (describes.yields_resizeBlock? owns pointer named).mono ?_
    rintro answer after ⟨answered, described, refused, resized⟩
    refine ⟨congrArg _ answered, described, ?_⟩
    cases answer with
    | none =>
      have returned : (Call.resize? (some pointer) request).returned? (.ok none) = none :=
        if_neg (not_or.mpr ⟨nothing, Bool.false_ne_true⟩)
      obtain rfl := refused rfl
      rw [returned, resize_eq_none answered.symm]
      exact ⟨none, none, rfl, rfl, Exchanges.refl _ _, fun _ _ _ _ _ _ => rfl,
        fun _ found => by cases found⟩
    | some moved =>
      have returned : (Call.resize? (some pointer) request).returned? (.ok (some moved)) =
          some pointer :=
        if_pos (Or.inr rfl)
      obtain ⟨target, place, resizes⟩ := resized moved.offset answered.symm
      rw [returned]
      refine ⟨some cell, some target, congrArg some named.symm, congrArg some place,
        resizes.exchanges owns, resizes.spared, ?_⟩
      rintro _ ⟨rfl⟩
      exact resizes.copied

/-- A permitted call has a reply, and heap, chart and leases stay in step. -/
theorem Describes.yields_perform (describes : chart.Describes before)
    (serves : chart.Serves leases) (permitted : call.Permitted before leases) :
    Heap.Yields before call.perform fun reply after =>
      chart.Steps call leases reply before after := by
  cases call with
  | allocate request =>
    refine (describes.yields_allocate_spares request).bind ?_
    rintro answer after ⟨answered, described, _, spares⟩
    refine Heap.yields_pure (describes.steps_of_allocate serves rfl rfl ?_ ?_ described spares)
    · show _ = (chart.allocate request).1.map some
      rw [← answered]
      cases answer <;> rfl
    · show _ = (chart.allocate request).1.toOption
      rw [← answered]
      cases answer <;> rfl
  | allocate? request =>
    refine (describes.yields_allocate? request).bind ?_
    rintro answer after ⟨answered, described, _, spares⟩
    exact Heap.yields_pure (describes.steps_of_allocate serves rfl rfl (congrArg _ answered)
      answered described spares)
  | allocateZeroed? request =>
    refine (describes.yields_allocateZeroed? request).bind ?_
    rintro answer after ⟨answered, described, _, spares, _⟩
    exact Heap.yields_pure (describes.steps_of_allocate serves rfl rfl (congrArg _ answered)
      answered described spares)
  | resize? argument request =>
    cases argument with
    | none =>
      refine (describes.yields_allocate? request).bind ?_
      rintro answer after ⟨answered, described, _, spares⟩
      exact Heap.yields_pure (describes.steps_of_allocate serves rfl (ite_self _)
        (congrArg _ answered) answered described spares)
    | some pointer =>
      obtain ⟨cell, owns, named⟩ := serves.exists_cell (permitted.1 pointer rfl)
      refine (describes.yields_resize? owns named request).bind ?_
      rintro answer after ⟨answered, described, lost, won, lostEq, wonEq, exchanges, spares, _⟩
      exact Heap.yields_pure (describes.steps serves answered described exchanges lostEq wonEq
        fun other others elsewhere => spares other others (ne_of_elsewhere named rfl elsewhere))
  | release pointer =>
    obtain ⟨cell, owns, named⟩ := serves.exists_cell (permitted.1 pointer rfl)
    have performed : chart.perform (.release pointer) = (.ok none, chart.free cell) := by
      simp only [perform, describes.cellAt?_eq_some owns named]
    have exchanges : chart.Exchanges (chart.perform (.release pointer)).2 0 (some cell) none := by
      rw [performed]
      exact describes.exchanges_free owns 0
    refine (describes.yields_release_spares owns pointer named).bind ?_
    rintro _ after ⟨freed, spares⟩
    exact Heap.yields_pure (describes.steps serves (by rw [performed]; rfl) (by rwa [performed])
      exchanges (congrArg some named.symm) rfl fun other others elsewhere =>
        spares other others (ne_of_elsewhere named rfl elsewhere))
  | write pointer start values =>
    obtain ⟨cell, owns, named⟩ := serves.exists_cell (permitted.1 pointer rfl)
    have fits := describes.fits_of_permitted owns named permitted
    refine (describes.yields_writePayload owns.1 owns.2 pointer named start values fits).bind ?_
    rintro _ after ⟨described, _, alters, _⟩
    refine Heap.yields_pure (describes.steps serves rfl described (Exchanges.refl _ _) rfl rfl ?_)
    intro other others elsewhere
    have apart := (describes.apart_of_owns others owns).resolve_left
      (ne_of_elsewhere named rfl elsewhere)
    have large := (describes.tiles.bounds owns.1).2.2.2
    refine alters.keeps.spares fun index low high hit => ?_
    unfold Cell.next at *
    omega

end Chart

end SegregatedFit
