/-
This file proves that a release takes an allocation back. The parts of a cell that was cut join
again to the cell as it was. The cell was the first of its size in the order of search, and what
becomes free is put in front of its equals, so it comes back to its old place in the order.
-/

import SegregatedFit.Proofs.Heap.Ownership

namespace SegregatedFit

namespace Cell

variable {cell other part : Cell} {cells front back parts : List Cell} {size threshold : Nat}

/-- The parts of a free cell are what is used of it and at most one free cell on either side; they
join to the cell again. -/
theorem exists_parts (free : cell.allocated = false) (fits : size ≤ cell.size) (threshold : Nat) :
    ∃ low high : Option Cell,
      cell.parts threshold size = low.toList ++ cell.used threshold size :: high.toList ∧
        join low (cell.used threshold size) high = cell ∧
        (∀ other ∈ low, other.allocated = false) ∧ ∀ other ∈ high, other.allocated = false := by
  have whole : cell = ⟨cell.offset, cell.size, false⟩ := by rw [← free]
  by_cases tight : cell.size - size < 32
  · rw [(used_whole tight).1, (used_whole tight).2]
    refine ⟨none, none, rfl, Eq.trans ?_ whole.symm, by simp, by simp⟩
    simp [join]
  · by_cases small : size < threshold
    · rw [(used_low tight small).1, (used_low tight small).2]
      refine ⟨none, some ⟨cell.offset + size, cell.size - size, false⟩, rfl,
        Eq.trans ?_ whole.symm, by simp, by simp⟩
      simp [join, fits]
    · rw [(used_high tight small).1, (used_high tight small).2]
      refine ⟨some ⟨cell.offset, cell.size - size, false⟩, none, rfl, Eq.trans ?_ whole.symm,
        by simp, by simp⟩
      simp [join, fits]

/-- The parts of a cell lie within it. -/
theorem parts_within (large : 32 ≤ size) (fits : size ≤ cell.size)
    (member : part ∈ cell.parts threshold size) :
    cell.offset ≤ part.offset ∧ part.next ≤ cell.next ∧ 0 < part.size := by
  by_cases tight : cell.size - size < 32
  · rw [(used_whole tight).2, List.mem_singleton] at member
    subst member
    simp only [next]
    omega
  · by_cases small : size < threshold
    · rw [(used_low tight small).2] at member
      rcases List.mem_pair.mp member with rfl | rfl <;>
      · simp only [next]
        omega
    · rw [(used_high tight small).2] at member
      rcases List.mem_pair.mp member with rfl | rfl <;>
      · simp only [next]
        omega

/-! ### The place of a cell in the order -/

theorem without_without (cell : Cell) (cells : List Cell) :
    cell.without (cell.without cells) = cell.without cells :=
  without_eq_self fun _ member => (mem_without.mp member).2

theorem Ascending.without (ascending : Ascending cells) (range : Cell) :
    Ascending (range.without cells) :=
  ascending.filter _

/-- Cells within a range that join the order do not show outside of the range. -/
theorem without_foldr_insertInto (ascending : Ascending cells)
    (within : ∀ part ∈ parts, cell.offset ≤ part.offset ∧ part.next ≤ cell.next ∧ 0 < part.size) :
    cell.without (parts.foldr insertInto cells) = cell.without cells ∧
      Ascending (parts.foldr insertInto cells) := by
  induction parts with
  | nil => exact ⟨rfl, ascending⟩
  | cons part rest inductionHypothesis =>
    obtain ⟨inside, others⟩ := List.forall_mem_cons.mp within
    obtain ⟨same, sorted⟩ := inductionHypothesis others
    refine ⟨?_, sorted.insertInto part⟩
    rw [List.foldr_cons, ← same]
    unfold without
    rw [filter_insertInto sorted, if_neg]
    rw [decide_eq_true_eq]
    unfold next at inside ⊢
    omega

/-- A cell between smaller ones and others that are not smaller is put between them again. -/
theorem insertInto_append (smaller : ∀ other ∈ front, other.size < cell.size)
    (larger : ∀ other ∈ back, cell.size ≤ other.size) :
    cell.insertInto (front ++ back) = front ++ cell :: back := by
  have frontLow : front.filter (·.size < cell.size) = front :=
    List.filter_eq_self.mpr fun other member => decide_eq_true (smaller other member)
  have frontHigh : front.filter (cell.size ≤ ·.size) = [] :=
    List.filter_eq_nil_iff.mpr fun other member => by simpa using smaller other member
  have backLow : back.filter (·.size < cell.size) = [] :=
    List.filter_eq_nil_iff.mpr fun other member => by simpa using larger other member
  have backHigh : back.filter (cell.size ≤ ·.size) = back :=
    List.filter_eq_self.mpr fun other member => decide_eq_true (larger other member)
  rw [insertInto, List.filter_append, List.filter_append, frontLow, frontHigh, backLow, backHigh,
    List.append_nil, List.nil_append]

/-- A cell that a search finds is the first of its size, so it comes back to its place. -/
theorem insertInto_without_of_find? (ascending : Ascending cells) (distinct : cells.Nodup)
    (apart : ∀ other ∈ cells,
      other = cell ∨ other.next ≤ cell.offset ∨ cell.next ≤ other.offset)
    (large : 0 < cell.size) (found : cells.find? (size ≤ ·.size) = some cell) :
    cell.insertInto (cell.without cells) = cells := by
  obtain ⟨fits, front, back, rfl, small⟩ := List.find?_eq_some_iff_append.mp found
  have alone := (List.nodup_cons.mp (List.nodup_middle.mp distinct)).1
  have outside : ∀ other ∈ front ++ back,
      other.next ≤ cell.offset ∨ cell.next ≤ other.offset := by
    intro other member
    refine (apart other ?_).resolve_left fun same => alone (same ▸ member)
    exact List.mem_append.mpr ((List.mem_append.mp member).imp_right (List.mem_cons_of_mem _))
  have rest : cell.without (front ++ cell :: back) = front ++ back := by
    have itself : cell.without [cell] = [] := by
      refine List.filter_eq_nil_iff.mpr fun other member => ?_
      rw [List.mem_singleton.mp member, decide_eq_true_eq]
      unfold next
      omega
    calc
      cell.without (front ++ cell :: back)
        = cell.without front ++ (cell.without [cell] ++ cell.without back) := by
          simp only [without, ← List.filter_append, List.singleton_append]
      _ = cell.without (front ++ back) := by
          rw [itself, List.nil_append]
          exact (List.filter_append _ _).symm
      _ = front ++ back := without_eq_self outside
  rw [rest]
  refine insertInto_append (fun other member => ?_) fun other member => ?_
  · have short := small other member
    simp only [decide_eq_true_eq, Bool.not_eq_true', decide_eq_false_iff_not] at fits short
    omega
  · exact (List.pairwise_cons.mp (List.pairwise_append.mp ascending).2.1).1 other member

end Cell

namespace Chart

variable {σ : Type} [Source σ] {last : Nat} {chart between : Chart} {heap after : Heap σ last}
variable {cell : Cell} {size : Nat}

/-- A cell that an allocation finds or adds is the first of its size in the order. -/
theorem Describes.insertInto_of_findOrExtend (describes : chart.Describes heap)
    (large : 32 ≤ size) (chosen : chart.findOrExtend size = (.ok cell, between)) :
    cell.insertInto (cell.without between.order) = between.order := by
  obtain ⟨_, fits, _⟩ := findOrExtend_eq_ok chosen
  have ascending := describes.closed.ascending
  unfold findOrExtend at chosen
  cases found : chart.order.find? (size ≤ ·.size) with
  | some first =>
    rw [found] at chosen
    cases chosen
    have inCells := (describes.closed.free cell (List.mem_of_find?_eq_some found)).1
    refine Cell.insertInto_without_of_find? ascending describes.closed.distinct
      (fun other member => ?_) (by omega) found
    exact describes.tiles.apart (describes.closed.free other member).1 inCells
  | none =>
    rw [found] at chosen
    obtain ⟨growth, start, stop, _, joins, rfl, rfl⟩ := describes.exists_joins_of_extend chosen
    rw [joins.freeEq]
    generalize joined _ _ = range at *
    have same := (Cell.without_foldr_insertInto (ascending.without range)
      (List.forall_mem_singleton.mpr ⟨Nat.le_refl range.offset, Nat.le_refl _, by omega⟩)).1
    exact congrArg range.insertInto (same.trans (Cell.without_without range chart.order))

/-- A cell that was cut is whole again once its allocated part is free. -/
theorem Describes.free_place (describes : chart.Describes heap)
    (placed : (chart.place cell size).Describes after) (member : cell ∈ chart.order)
    (large : 32 ≤ size) (fits : size ≤ cell.size)
    (first : cell.insertInto (cell.without chart.order) = chart.order) :
    (chart.place cell size).joined (cell.used chart.setting.config.splitThreshold size) = cell ∧
      (chart.place cell size).free (cell.used chart.setting.config.splitThreshold size) =
        chart := by
  obtain ⟨inCells, free⟩ := describes.closed.free cell member
  rw [List.nil_append] at inCells
  obtain ⟨front, back, split⟩ := List.append_of_mem inCells
  obtain ⟨_, ends, backSeparated⟩ := describes.separated_around split free
  have tiles := describes.tiles
  rw [split] at tiles
  obtain ⟨_, frontTiles, rfl, regular, backTiles⟩ := Cell.tiles_append.mp tiles
  have place_eq := replace_eq chart (cell.parts chart.setting.config.splitThreshold size)
    (describes.splits split rfl rfl)
  obtain ⟨low, high, parts, joins, lowFree, highFree⟩ :=
    Cell.exists_parts free fits chart.setting.config.splitThreshold
  generalize used_eq : cell.used chart.setting.config.splitThreshold size = used at *
  have cells : (chart.place cell size).cells =
      (front ++ low.toList) ++ used :: (high.toList ++ back) := by
    rw [place, place_eq, parts]
    simp only [List.append_assoc, List.cons_append]
  have joined : (chart.place cell size).joined used = cell := by
    obtain ⟨before_eq, after_eq⟩ := placed.splits cells rfl rfl
    rw [Chart.joined, before_eq, after_eq, Cell.freeLast?_append_toList ends lowFree,
      Cell.freeHead?_toList_append backSeparated highFree, joins]
  have within : ∀ part ∈ cell.parts chart.setting.config.splitThreshold size,
      cell.offset ≤ part.offset ∧ part.next ≤ cell.next ∧ 0 < part.size :=
    fun part => Cell.parts_within large fits
  have splits := Cell.splits frontTiles backTiles within
  have whole : (chart.place cell size).cells =
      front ++ (cell.parts chart.setting.config.splitThreshold size ++ back) := by
    rw [place, place_eq, List.append_assoc]
  rw [← whole] at splits
  have order : cell.insertInto (cell.without (chart.place cell size).order) = chart.order := by
    have freeWithin : ∀ part ∈ (cell.parts chart.setting.config.splitThreshold size).filter
        (! ·.allocated), cell.offset ≤ part.offset ∧ part.next ≤ cell.next ∧ 0 < part.size :=
      fun part member => within part (List.mem_filter.mp member).1
    have same := (Cell.without_foldr_insertInto (describes.closed.ascending.without cell)
      freeWithin).1
    rw [place, place_eq, same, Cell.without_without, first]
  refine ⟨joined, ?_⟩
  rw [Chart.free, joined, replace_eq _ _ splits]
  simp only [free, List.filter_cons, Bool.not_false, if_true, List.filter_nil, List.foldr_cons,
    List.foldr_nil, order, List.append_assoc, List.singleton_append, ← split]
  rfl

end Chart

end SegregatedFit
