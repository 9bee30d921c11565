/-
This file proves that operations leave the payloads of other blocks alone. An operation
changes memory within a range that no owned cell overlaps with, and at the links of free
cells; the payloads of the owned cells keep clear of both.
-/

import SegregatedFit.Proofs.Chart.Owned
import SegregatedFit.Proofs.Heap.Allocate
import SegregatedFit.Proofs.Heap.Release

namespace SegregatedFit

namespace Arena

variable {σ : Type} [Source σ] {first second third : Arena σ} {cell : Cell}

/-- Whether the payload of a cell stays as it is. -/
def Spares (cell : Cell) (before after : Arena σ) : Prop :=
  ∀ index, cell.offset ≤ index → index + 8 < cell.next →
    Source.byte after.source index = Source.byte before.source index

theorem Spares.trans (one : Spares cell first second) (other : Spares cell second third) :
    Spares cell first third :=
  fun index low high => (other index low high).trans (one index low high)

theorem Keeps.spares {touched : Nat → Prop} (keeps : Keeps touched first second)
    (clear : ∀ index, cell.offset ≤ index → index + 8 < cell.next → ¬ touched index) :
    Spares cell first second :=
  fun index low high => keeps index (clear index low high)

end Arena

namespace Chart

variable {σ : Type} [Source σ] {last : Nat} {chart after : Chart} {before : Heap σ last}
variable {front back : List Cell} {cell range other : Cell} {size : Nat}

/-- Owned cells do not overlap. -/
theorem Describes.apart_of_owns (describes : chart.Describes before) (one : chart.Owns cell)
    (two : chart.Owns other) :
    cell = other ∨ cell.next ≤ other.offset ∨ other.next ≤ cell.offset :=
  describes.tiles.apart one.1 two.1

/-- Only one cell is owned at each place. -/
theorem Describes.eq_of_offset_eq (describes : chart.Describes before) (owns : chart.Owns cell)
    (others : chart.Owns other) (same : other.offset = cell.offset) : other = cell := by
  obtain ⟨_, _, _, large⟩ := describes.tiles.bounds owns.1
  obtain ⟨_, _, _, otherLarge⟩ := describes.tiles.bounds others.1
  refine (describes.apart_of_owns others owns).resolve_right fun apart => ?_
  unfold Cell.next at apart
  omega

/-- An owned cell lies apart from every free one. -/
theorem Describes.apart_of_mem_order (describes : chart.Describes before) (owns : chart.Owns other)
    (member : cell ∈ chart.order) : other.next ≤ cell.offset ∨ cell.next ≤ other.offset := by
  obtain ⟨found, free⟩ := describes.closed.free cell member
  exact (describes.tiles.apart owns.1 found).resolve_left (owns.ne_of_free free)

/-- The payload of an owned cell is spared by changes elsewhere and to links. -/
theorem Describes.spares (describes : chart.Describes before) (owns : chart.Owns other)
    (apart : other.next ≤ range.offset ∨ range.next ≤ other.offset) {arena : Arena σ}
    (keeps : Arena.Keeps (Arena.UpdateBytes range chart.order) before.arena arena) :
    Arena.Spares other before.arena arena := by
  refine keeps.spares fun index low high touched => ?_
  rcases touched with inRange | ⟨node, member, above, below⟩
  · omega
  · have large := (describes.tiles.bounds (describes.closed.free node member).1).2.2.2
    have sides := describes.apart_of_mem_order owns member
    unfold Cell.next at *
    omega

/-! ### Release -/

/-- How an owned cell joins its free neighbours once it is released. -/
theorem Describes.exists_joins_of_owns (describes : chart.Describes before)
    (owns : chart.Owns cell) : ∃ front back start stop,
      chart.cells = front ++ cell :: back ∧ chart.Joins front cell back start stop := by
  obtain ⟨front, back, split⟩ := List.append_of_mem owns.1
  have tiles := describes.tiles
  rw [split] at tiles
  obtain ⟨_, frontTiles, rfl, ⟨_, large⟩, backTiles⟩ := Cell.tiles_append.mp tiles
  have separated := describes.separated
  rw [split] at separated
  obtain ⟨frontSeparated, _, backSeparated⟩ := Cell.separated_append.mp separated
  have parts : chart.cells = front ++ ([cell] ++ back) := split
  obtain ⟨start, stop, joins⟩ := exists_joins chart parts frontTiles backTiles
    (List.forall_mem_singleton.mpr ⟨Nat.le_refl _, Nat.le_refl _, by omega⟩)
    frontSeparated backSeparated
  exact ⟨front, back, start, stop, split, joins⟩

/-- The cells beside an owned cell are those that differ from it. -/
theorem Describes.mem_around (describes : chart.Describes before)
    (split : chart.cells = front ++ cell :: back) :
    other ∈ front ++ back ↔ other ∈ chart.cells ∧ other ≠ cell := by
  have nodup := describes.tiles.nodup
  rw [split] at nodup ⊢
  have alone := List.nodup_middle.mp (List.Nodup.of_map _ nodup)
  have absent := (List.nodup_cons.mp alone).1
  simp only [List.mem_append, List.mem_cons] at absent ⊢
  grind

/-- A release takes a cell from its owner, and from nobody else. -/
theorem Describes.owns_free (describes : chart.Describes before) (owns : chart.Owns cell) :
    (chart.free cell).Owns other ↔ chart.Owns other ∧ other ≠ cell := by
  obtain ⟨front, back, start, stop, split, joins⟩ := describes.exists_joins_of_owns owns
  rw [joins.owns_free, describes.mem_around split]
  unfold Owns
  grind

/-- A release spares the payloads of the other owners. -/
theorem Describes.spares_of_release (describes : chart.Describes before) (owns : chart.Owns cell)
    (others : chart.Owns other) (different : other ≠ cell) {arena : Arena σ}
    (keeps : Arena.Keeps (Arena.UpdateBytes (chart.joined cell) chart.order)
      before.arena arena) :
    Arena.Spares other before.arena arena := by
  obtain ⟨front, back, start, stop, split, joins⟩ := describes.exists_joins_of_owns owns
  have beside := (describes.mem_around split).mpr ⟨others.1, different⟩
  exact describes.spares others (joins.apart beside others.2) keeps

/-- A release follows the chart, and spares the payloads of the other owners. -/
theorem Describes.yields_release_spares (describes : chart.Describes before)
    (owns : chart.Owns cell) (pointer : Pointer) (named : pointer.offset = cell.offset) :
    Heap.Yields before (Heap.release pointer) fun _ after =>
      (chart.free cell).Describes after ∧
        ∀ other, chart.Owns other → other ≠ cell →
          Arena.Spares other before.arena after.arena := by
  obtain ⟨front, back, split⟩ := List.append_of_mem owns.1
  refine (describes.yields_release split owns.2 pointer named).mono ?_
  rintro _ after ⟨freed, alters⟩
  exact ⟨freed, fun other others different =>
    describes.spares_of_release owns others different alters.keeps⟩

/-! ### Growth -/

/-- How the new bytes join the cell in front of them. -/
theorem Describes.exists_joins_of_extend (describes : chart.Describes before)
    (extended : chart.extend size = (.ok range, after)) :
    ∃ growth start stop,
      alignUp? (max size chart.setting.config.chunkSize) = some growth ∧
      Joins { chart with setting := chart.setting.grown growth } chart.cells
        ⟨chart.setting.size, growth, false⟩ [] start stop ∧
      joined { chart with setting := chart.setting.grown growth }
        ⟨chart.setting.size, growth, false⟩ = range ∧
      free { chart with setting := chart.setting.grown growth }
        ⟨chart.setting.size, growth, false⟩ = after := by
  obtain ⟨growth, rounded, _, rfl, rfl⟩ := extend_eq_ok_iff.mp extended
  have behind : Cell.Separated false [] := trivial
  have backTiles : Cell.Tiles (Cell.next ⟨chart.setting.size, growth, false⟩)
      (chart.setting.grown growth).size [] := rfl
  obtain ⟨start, stop, joins⟩ := exists_joins
    { chart with setting := chart.setting.grown growth }
    (List.append_nil chart.cells).symm describes.tiles backTiles (List.forall_mem_nil _)
    describes.separated behind
  exact ⟨growth, start, stop, rounded, joins, rfl, rfl⟩

/-- Growth changes no owned cell, and adds a free cell that lies apart from all of them. -/
theorem Describes.owns_extend (describes : chart.Describes before)
    (extended : chart.extend size = (.ok range, after)) :
    (after.Owns other ↔ chart.Owns other) ∧
      (chart.Owns other → other.next ≤ range.offset ∨ range.next ≤ other.offset) := by
  obtain ⟨_, _, _, _, joins, rfl, rfl⟩ := describes.exists_joins_of_extend extended
  constructor
  · rw [joins.owns_free, List.append_nil]
    exact Iff.rfl
  · intro owns
    refine joins.apart ?_ owns.2
    rw [List.append_nil]
    exact owns.1

theorem extend_eq_error {refusal : Refusal}
    (refused : chart.extend size = (.error refusal, after)) : after = chart :=
  (extend_eq_error_iff.mp refused).1.symm

/-- The search changes no owned cell, and ends at a cell that lies apart from all of them. -/
theorem Describes.owns_findOrExtend (describes : chart.Describes before)
    (chosen : chart.findOrExtend size = (.ok range, after)) :
    (after.Owns other ↔ chart.Owns other) ∧
      (chart.Owns other → other.next ≤ range.offset ∨ range.next ≤ other.offset) := by
  unfold findOrExtend at chosen
  cases found : chart.order.find? (size ≤ ·.size) with
  | some cell =>
    rw [found] at chosen
    cases chosen
    exact ⟨Iff.rfl, fun owns =>
      describes.apart_of_mem_order owns (List.mem_of_find?_eq_some found)⟩
  | none =>
    rw [found] at chosen
    exact describes.owns_extend chosen

theorem findOrExtend_eq_error {refusal : Refusal}
    (refused : chart.findOrExtend size = (.error refusal, after)) : after = chart := by
  unfold findOrExtend at refused
  split at refused
  · cases refused
  · exact extend_eq_error refused

/-! ### Allocation -/

/-- Of the parts of a free cell only the used one is allocated. -/
theorem allocated_parts {threshold : Nat} :
    other ∈ cell.parts threshold size ∧ other.allocated = true ↔
      other = cell.used threshold size := by
  have allocated : (cell.used threshold size).allocated = true := by
    unfold Cell.used
    split
    · rfl
    · split <;> rfl
  unfold Cell.parts
  grind

/-- A free cell that is cut gets one new owner. -/
theorem Describes.owns_place (describes : chart.Describes before) (member : cell ∈ chart.order) :
    (chart.place cell size).Owns other ↔
      other = cell.used chart.setting.config.splitThreshold size ∨ chart.Owns other := by
  obtain ⟨found, free⟩ := describes.closed.free cell member
  rw [List.nil_append] at found
  obtain ⟨front, back, split⟩ := List.append_of_mem found
  unfold place
  rw [owns_replace (describes.splits split rfl rfl), describes.mem_around split,
    ← allocated_parts]
  have apart : chart.Owns other → other ≠ cell := fun owns => owns.ne_of_free free
  unfold Owns at *
  grind

/-- An allocation that succeeds cuts the cell that was found or added. -/
theorem allocate_eq_ok {request offset : Nat}
    (allocated : chart.allocate request = (.ok offset, after)) :
    ∃ size cell between, blockSize? request = some size ∧
      chart.findOrExtend size = (.ok cell, between) ∧
      (cell.used between.setting.config.splitThreshold size).offset = offset ∧
      between.place cell size = after := by
  unfold allocate at allocated
  split at allocated
  · cases allocated
  · cases needed : blockSize? request with
    | none =>
      rw [needed] at allocated
      cases allocated
    | some size =>
      rw [needed] at allocated
      simp only at allocated
      cases result : chart.findOrExtend size with
      | mk outcome between =>
        rw [result] at allocated
        cases outcome with
        | error refusal => cases allocated
        | ok cell =>
          cases allocated
          exact ⟨size, cell, between, rfl, result, rfl, rfl⟩

/-- An allocation gives a cell of the size that it needs, and apart from all others, to a new
owner. -/
theorem Describes.owns_allocate (describes : chart.Describes before) {request offset : Nat}
    (allocated : chart.allocate request = (.ok offset, after)) :
    ∃ target : Cell, target.offset = offset ∧ target.allocated = true ∧
      target.Suits request ∧
      (∀ other, chart.Owns other → other.next ≤ target.offset ∨ target.next ≤ other.offset) ∧
      ∀ other, after.Owns other ↔ other = target ∨ chart.Owns other := by
  obtain ⟨size, cell, between, needed, result, rfl, rfl⟩ := allocate_eq_ok allocated
  obtain ⟨_, _, whole, _⟩ := blockSize?_eq_some_iff.mp needed
  obtain ⟨_, _, _, _, _, described, _⟩ := describes.yields_findOrExtend size
  rw [result] at described
  obtain ⟨member, fits, _⟩ := findOrExtend_eq_ok result
  obtain ⟨_, _, sized⟩ := described.tiles.bounds (described.closed.free cell member).1
  obtain ⟨isAllocated, low, high, _⟩ :=
    Cell.used_within fits between.setting.config.splitThreshold
  refine ⟨cell.used between.setting.config.splitThreshold size, rfl, isAllocated,
    ⟨size, needed, Cell.size_used fits sized whole _⟩, fun other owns => ?_, fun other => ?_⟩
  · have apart := (describes.owns_findOrExtend result).2 owns
    omega
  · rw [described.owns_place member, (describes.owns_findOrExtend result).1]

/-- An allocation that is refused leaves the chart alone. -/
theorem allocate_eq_error {request : Nat} {refusal : Refusal}
    (refused : chart.allocate request = (.error refusal, after)) : after = chart := by
  unfold allocate at refused
  split at refused
  · cases refused
    rfl
  · cases needed : blockSize? request with
    | none =>
      rw [needed] at refused
      cases refused
      rfl
    | some size =>
      rw [needed] at refused
      simp only at refused
      cases result : chart.findOrExtend size with
      | mk outcome between =>
        rw [result] at refused
        cases outcome with
        | error refusal =>
          cases refused
          exact findOrExtend_eq_error result
        | ok cell => cases refused

/-- An allocation follows the chart, and spares the payloads of all owners. -/
theorem Describes.yields_allocate_spares (describes : chart.Describes before) (request : Nat) :
    Heap.Yields before (Heap.allocate request) fun answer after =>
      answer.map Pointer.offset = (chart.allocate request).1 ∧
        (chart.allocate request).2.Describes after ∧
        ((chart.allocate request).1.isOk = false → after = before) ∧
        ∀ other, chart.Owns other → Arena.Spares other before.arena after.arena := by
  refine (describes.yields_allocate request).mono ?_
  rintro answer after ⟨answered, described, refused, keeps⟩
  refine ⟨answered, described, refused, fun other owns => ?_⟩
  cases done : (chart.allocate request).1.isOk with
  | false =>
    rw [refused done]
    exact fun _ _ _ => rfl
  | true =>
    cases result : chart.allocate request with
    | mk outcome last =>
      rw [result] at done
      cases outcome with
      | error refusal => cases done
      | ok offset =>
        obtain ⟨size, cell, between, needed, found, _⟩ := allocate_eq_ok result
        have apart := (describes.owns_findOrExtend found).2 owns
        exact describes.spares owns apart (keeps size cell needed (by rw [found]))

/-- An allocation that may be refused follows the chart, and spares the payloads of all
owners. -/
theorem Describes.yields_allocate? (describes : chart.Describes before) (request : Nat) :
    Heap.Yields before (Heap.allocate? request) fun answer after =>
      answer.map Pointer.offset = (chart.allocate request).1.toOption ∧
        (chart.allocate request).2.Describes after ∧
        ((chart.allocate request).1.isOk = false → after = before) ∧
        ∀ other, chart.Owns other → Arena.Spares other before.arena after.arena := by
  unfold Heap.allocate?
  refine (describes.yields_allocate_spares request).bind ?_
  rintro answer after ⟨answered, rest⟩
  refine Heap.yields_pure ⟨?_, rest⟩
  rw [← answered]
  cases answer <;> rfl

end Chart

end SegregatedFit
