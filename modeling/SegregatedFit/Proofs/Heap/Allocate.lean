/-
This file proves that a heap allocates as its chart does. The block that is cut leaves the
index first; then its parts are written one after the other, and the free part, if there is
one, joins the index.
-/

import SegregatedFit.Heap.Allocate
import SegregatedFit.Proofs.Heap.Extend

namespace SegregatedFit

namespace Heap

variable {σ : Type} [Source σ] {last : Nat} {before : Heap σ last} {setting : Setting}
variable {front back order : List Cell} {cell : Cell} {size : Nat}

/-! ### The three ways to cut a block -/

section

variable (opened : before.Opened setting front cell.offset cell.next false back order)

include opened

theorem Opened.yields_placeWhole (regular : cell.Regular) :
    Heap.Yields before (placeWhole cell.offset (cell.tag (Cell.lastAllocated true front)))
      fun answer after =>
        answer = cell.offset ∧
          after.Closed setting (front ++ [⟨cell.offset, cell.size, true⟩] ++ back) order ∧
          Arena.Alters (Arena.UpdateBytes cell order) before.arena after.arena := by
  have size_eq := Cell.size_tag regular (Cell.lastAllocated true front)
  unfold placeWhole
  rw [size_eq]
  refine (opened.yields_setAllocatedTag rfl regular.1 regular.2 (Nat.le_refl _)).bind ?_
  rintro _ one ⟨filled, oneAlters⟩
  refine (filled.yields_tellNext true).bind ?_
  rintro _ two ⟨told, twoAlters⟩
  refine Heap.yields_pure ⟨rfl, told.close (by simp [Cell.lastAllocated]), ?_⟩
  have large := regular.2
  refine (oneAlters.mono fun index hit => Or.inl ?_).trans
    (twoAlters.mono fun index hit => Or.inl ?_)
  · unfold Cell.next
    omega
  · unfold Cell.next
    omega

theorem Opened.yields_placeLow (regular : cell.Regular) (whole : size % 16 = 0)
    (large : 32 ≤ size) (fits : size + 32 ≤ cell.size) :
    Heap.Yields before
      (placeLow cell.offset size (cell.tag (Cell.lastAllocated true front)) (cell.size - size))
      fun answer after =>
        answer = cell.offset ∧
          after.Closed setting (front ++ [⟨cell.offset, size, true⟩,
              ⟨cell.offset + size, cell.size - size, false⟩] ++ back)
            (Cell.insertInto ⟨cell.offset + size, cell.size - size, false⟩ order) ∧
          Arena.Alters (Arena.UpdateBytes cell order) before.arena after.arena := by
  have bound := before.arena.size_lt
  rw [opened.size_eq] at bound
  have ends := opened.backTiles.le
  have cell_whole := regular.1
  unfold Cell.next at opened ends
  unfold placeLow
  refine (opened.yields_setAllocatedTag rfl whole large (by omega)).bind ?_
  rintro _ one ⟨filled, oneAlters⟩
  refine Heap.yields_bind_lift (Word.add_eq_ok_iff.mpr ⟨by omega, rfl⟩) ?_
  refine (filled.yields_setFreeTags (by simp [Cell.lastAllocated]) (by omega) (by omega)
    (by omega)).bind ?_
  rintro _ two ⟨filled, twoAlters⟩
  have sum : cell.offset + size + (cell.size - size) = cell.offset + cell.size := by omega
  rw [sum] at filled
  have closed := filled.close (by simp [Cell.lastAllocated])
  have fresh : (⟨cell.offset + size, cell.size - size, false⟩ : Cell) ∉ order :=
    opened.fresh (Nat.le_add_right _ _) (Nat.le_of_eq sum) (by show 0 < cell.size - size; omega)
  refine (Opened.yields_indexBlock closed (by simp) rfl fresh).bind ?_
  rintro _ three ⟨indexed, threeAlters⟩
  refine Heap.yields_pure ⟨rfl, ?_, ?_⟩
  · rw [List.append_assoc front] at indexed
    exact indexed
  · have inRange : cell.offset ≤ cell.offset + size ∧ cell.offset + size + 16 ≤ cell.next := by
      unfold Cell.next
      omega
    refine ((oneAlters.mono fun index hit => Or.inl ?_).trans
      (twoAlters.mono fun index hit => Or.inl ?_)).trans
      (threeAlters.mono fun index hit => hit.updateBytes (List.forall_mem_cons.mpr
        ⟨Or.inr inRange, fun other found => Or.inl found⟩))
    · omega
    · unfold Cell.next
      omega

theorem Opened.yields_placeHigh (regular : cell.Regular) (whole : size % 16 = 0)
    (large : 32 ≤ size) (fits : size + 32 ≤ cell.size) :
    Heap.Yields before
      (placeHigh cell.offset size (cell.tag (Cell.lastAllocated true front)) (cell.size - size))
      fun answer after =>
        answer = cell.offset + (cell.size - size) ∧
          after.Closed setting (front ++ [⟨cell.offset, cell.size - size, false⟩,
              ⟨cell.offset + (cell.size - size), size, true⟩] ++ back)
            (Cell.insertInto ⟨cell.offset, cell.size - size, false⟩ order) ∧
          Arena.Alters (Arena.UpdateBytes cell order) before.arena after.arena := by
  have bound := before.arena.size_lt
  rw [opened.size_eq] at bound
  have ends := opened.backTiles.le
  have cell_whole := regular.1
  have size_eq := Cell.size_tag regular (Cell.lastAllocated true front)
  unfold Cell.next at opened ends
  unfold placeHigh
  refine (opened.yields_setFreeTags rfl (by omega) (by omega) (by omega)).bind ?_
  rintro _ one ⟨filled, oneAlters⟩
  have fresh : (⟨cell.offset, cell.size - size, false⟩ : Cell) ∉ order :=
    opened.fresh (Nat.le_refl _) (by unfold Cell.next; simp only; omega)
      (by show 0 < cell.size - size; omega)
  refine (filled.yields_indexBlock (by simp) rfl fresh).bind ?_
  rintro _ two ⟨indexed, twoAlters⟩
  rw [size_eq]
  refine Heap.yields_bind_lift (Word.add_eq_ok_iff.mpr ⟨by omega, rfl⟩) ?_
  have high : cell.offset + cell.size - size = cell.offset + (cell.size - size) := by omega
  refine Heap.yields_bind_lift (Word.sub_eq_ok_iff.mpr ⟨by omega, high⟩) ?_
  refine (indexed.yields_setAllocatedTag (by simp [Cell.lastAllocated]) whole large
    (by omega)).bind ?_
  rintro _ three ⟨filled, threeAlters⟩
  have sum : cell.offset + (cell.size - size) + size = cell.offset + cell.size := by omega
  rw [sum] at filled
  refine (filled.yields_tellNext true).bind ?_
  rintro _ four ⟨told, fourAlters⟩
  refine Heap.yields_pure ⟨rfl, ?_, ?_⟩
  · have closed := told.close (by simp [Cell.lastAllocated])
    rw [List.append_assoc front] at closed
    exact closed
  · have inRange : cell.offset ≤ cell.offset ∧ cell.offset + 16 ≤ cell.next := by
      unfold Cell.next
      omega
    refine (((oneAlters.mono fun index hit => Or.inl ?_).trans
      (twoAlters.mono fun index hit => hit.updateBytes (List.forall_mem_cons.mpr
        ⟨Or.inr inRange, fun other found => Or.inl found⟩))).trans
      (threeAlters.mono fun index hit => Or.inl ?_)).trans
      (fourAlters.mono fun index hit => Or.inl ?_)
    · unfold Cell.next
      omega
    · unfold Cell.next
      omega
    · unfold Cell.next
      omega

/-- A block that has left the index is cut into the parts of its cell. -/
theorem Opened.yields_cut (regular : cell.Regular) (whole : size % 16 = 0) (large : 32 ≤ size)
    (fits : size ≤ cell.size) (threshold : Nat) :
    Heap.Yields before
      (if cell.size - size < minimumBlock then
        placeWhole cell.offset (cell.tag (Cell.lastAllocated true front))
      else if size < threshold then
        placeLow cell.offset size (cell.tag (Cell.lastAllocated true front)) (cell.size - size)
      else
        placeHigh cell.offset size (cell.tag (Cell.lastAllocated true front)) (cell.size - size))
      fun answer after =>
        answer = (cell.used threshold size).offset ∧
          after.Closed setting (front ++ cell.parts threshold size ++ back)
            (((cell.parts threshold size).filter (! ·.allocated)).foldr Cell.insertInto order) ∧
          Arena.Alters (Arena.UpdateBytes cell order) before.arena after.arena := by
  by_cases tight : cell.size - size < 32
  · obtain ⟨used, parts⟩ := Cell.used_whole tight
    rw [used, parts, if_pos (show cell.size - size < minimumBlock from tight)]
    exact opened.yields_placeWhole regular
  · rw [if_neg (show ¬ cell.size - size < minimumBlock from tight)]
    by_cases small : size < threshold
    · obtain ⟨used, parts⟩ := Cell.used_low tight small
      rw [used, parts, if_pos small]
      exact opened.yields_placeLow regular whole large (by omega)
    · obtain ⟨used, parts⟩ := Cell.used_high tight small
      rw [used, parts, if_neg small]
      exact opened.yields_placeHigh regular whole large (by omega)

end

/-! ### The search for a block -/

/-- A search that finds a block leaves the heap as it is. -/
theorem findOrExtend_of_found {block : Nat}
    (search : before.index.find before.arena size = .ok (some block)) :
    findOrExtend size before = .ok (.ok block) before := by
  simp only [findOrExtend, Action.inspect, bind, EStateM.bind, search]
  rfl

/-- A search that finds nothing is followed by growth. -/
theorem findOrExtend_of_missing
    (search : before.index.find before.arena size = .ok none) :
    findOrExtend size before = extend size before := by
  simp only [findOrExtend, Action.inspect, bind, EStateM.bind, search]

end Heap

namespace Chart

variable {σ : Type} [Source σ] {last : Nat} {chart : Chart} {before : Heap σ last}
variable {front back : List Cell} {cell : Cell} {size : Nat}

/-- Neither neighbour of a free cell is free. -/
theorem Describes.separated_around (describes : chart.Describes before)
    (split : chart.cells = front ++ cell :: back) (free : cell.allocated = false) :
    Cell.Separated true front ∧ Cell.lastAllocated true front = true ∧
      Cell.Separated false back := by
  have separated := describes.separated
  rw [split] at separated
  obtain ⟨frontSeparated, here, backSeparated⟩ := Cell.separated_append.mp separated
  rw [free] at here backSeparated
  exact ⟨frontSeparated, here.resolve_right Bool.false_ne_true, backSeparated⟩

/-- A free cell is cut in memory as it is in the chart. -/
theorem Describes.yields_place (describes : chart.Describes before) (member : cell ∈ chart.order)
    (whole : size % 16 = 0) (large : 32 ≤ size) (fits : size ≤ cell.size) :
    Heap.Yields before (Heap.place cell.offset size) fun answer after =>
      answer = (cell.used chart.setting.config.splitThreshold size).offset ∧
        (chart.place cell size).Describes after ∧
        Arena.Alters (Arena.UpdateBytes cell chart.order) before.arena after.arena := by
  obtain ⟨found, free⟩ := describes.closed.free cell member
  obtain ⟨front, back, split⟩ := List.append_of_mem found
  rw [List.nil_append] at split
  have closed := describes.closed
  rw [split] at closed
  obtain ⟨frontTiles, regular, backTiles⟩ := closed.tiles
  obtain ⟨frontSeparated, frontAllocated, backSeparated⟩ := describes.separated_around split free
  unfold Heap.place
  refine Heap.yields_bind_inspectArena closed.header_eq_ok ?_
  refine Heap.yields_bind_look ?_
  rw [describes.config_eq]
  refine (Heap.Opened.yields_unindexBlock closed member).bind ?_
  rintro _ between ⟨left, leftAlters⟩
  refine Heap.yields_bind_lift (Word.sub_eq_ok_iff.mpr ⟨?_, rfl⟩) ?_
  · rwa [Cell.size_tag regular]
  rw [Cell.size_tag regular]
  have left : between.Closed chart.setting (front ++ ([cell] ++ back))
      (cell.without chart.order) := left
  have opened := left.cut frontTiles ⟨rfl, regular, rfl⟩ (List.forall_mem_singleton.mpr
    fun inside => by
      have outside := (Cell.mem_without.mp inside).2
      have large := regular.2
      unfold Cell.next at outside
      omega)
  simp only [Cell.lastAllocated, free] at opened
  refine (opened.yields_cut regular whole large fits _).mono ?_
  rintro _ after ⟨rfl, placed, alters⟩
  have insideTiles : Cell.Tiles cell.offset cell.next [cell] := ⟨rfl, regular, rfl⟩
  refine ⟨rfl, describes.replace split frontTiles insideTiles placed
    (Cell.separated_parts frontSeparated frontAllocated backSeparated _ _), ?_⟩
  refine (leftAlters.mono fun index hit => Or.inr hit).trans (alters.mono fun index hit => ?_)
  exact hit.mono (Nat.le_refl _) (Nat.le_refl _) fun other member =>
    Or.inl ((Cell.without_sublist cell chart.order).subset member)

/-- The cell at the end of a chart that grows is large enough, and in the order. -/
theorem extend_eq_ok {grown : Chart} (extended : chart.extend size = (.ok cell, grown)) :
    cell ∈ grown.order ∧ size ≤ cell.size ∧ ∀ other ∈ grown.order, other = cell ∨
      other ∈ chart.order := by
  obtain ⟨growth, rounded, _, rfl, rfl⟩ := extend_eq_ok_iff.mp extended
  obtain ⟨_, _, least, _⟩ := alignUp?_eq_some_iff.mp rounded
  refine ⟨Cell.mem_insertInto.mpr (Or.inl rfl), ?_, fun other member => ?_⟩
  · simp only [joined, Cell.join]
    omega
  · rcases Cell.mem_insertInto.mp member with same | old
    · exact Or.inl same
    · exact Or.inr (Cell.mem_without.mp old).1

/-- A search in memory finds the first cell of the order that fits. -/
theorem Describes.find_eq_ok (describes : chart.Describes before) (size : Nat) :
    before.index.find before.arena size =
      .ok ((chart.order.find? (size ≤ ·.size)).map Cell.offset) :=
  Index.find_eq_ok describes.closed.follows describes.closed.hosts describes.closed.ascending size

/-- The cell that the chart finds or adds is found or added in memory. -/
theorem Describes.yields_findOrExtend (describes : chart.Describes before) (size : Nat) :
    Heap.Yields before (Heap.findOrExtend size) fun answer after =>
      answer = (chart.findOrExtend size).1.map Cell.offset ∧
        (chart.findOrExtend size).2.Describes after ∧
        ((chart.findOrExtend size).1.isOk = false → after = before) ∧
        ∀ cell, (chart.findOrExtend size).1 = .ok cell →
          Arena.Keeps (Arena.UpdateBytes cell chart.order) before.arena after.arena := by
  unfold Heap.findOrExtend findOrExtend
  refine Heap.yields_bind_inspect (describes.find_eq_ok size) ?_
  cases found : chart.order.find? (size ≤ ·.size) with
  | some cell =>
    refine Heap.yields_pure ⟨rfl, describes, (fun refused => by cases refused), ?_⟩
    exact fun _ _ _ _ => rfl
  | none => exact describes.yields_extend size

theorem findOrExtend_eq_ok {after : Chart} (chosen : chart.findOrExtend size = (.ok cell, after)) :
    cell ∈ after.order ∧ size ≤ cell.size ∧ ∀ other ∈ after.order, other = cell ∨
      other ∈ chart.order := by
  unfold findOrExtend at chosen
  cases found : chart.order.find? (size ≤ ·.size) with
  | some first =>
    rw [found] at chosen
    cases chosen
    exact ⟨List.mem_of_find?_eq_some found, by simpa using List.find?_some found,
      fun other member => Or.inr member⟩
  | none =>
    rw [found] at chosen
    exact extend_eq_ok chosen

/-- A heap allocates as its chart does, and is refused as its chart is. -/
theorem Describes.yields_allocate (describes : chart.Describes before) (request : Nat) :
    Heap.Yields before (Heap.allocate request) fun answer after =>
      answer.map Pointer.offset = (chart.allocate request).1 ∧
        (chart.allocate request).2.Describes after ∧
        ((chart.allocate request).1.isOk = false → after = before) ∧
        ∀ size cell, blockSize? request = some size →
          (chart.findOrExtend size).1 = .ok cell →
          Arena.Keeps (Arena.UpdateBytes cell chart.order) before.arena after.arena := by
  unfold Heap.allocate allocate
  by_cases empty : request = 0
  · rw [if_pos empty, if_pos empty]
    exact Heap.yields_pure ⟨rfl, describes, fun _ => rfl, fun _ _ _ _ _ _ => rfl⟩
  · rw [if_neg empty, if_neg empty]
    cases needed : blockSize? request with
    | none =>
      refine Heap.yields_bind_look (Heap.yields_pure ⟨?_, describes, fun _ => rfl,
        fun _ _ found => by cases found⟩)
      rw [describes.remaining_eq]
      rfl
    | some size =>
      obtain ⟨_, _, whole, large, _⟩ := blockSize?_eq_some_iff.mp needed
      have chosen := describes.yields_findOrExtend size
      simp only
      cases result : chart.findOrExtend size with
      | mk outcome between =>
        rw [result] at chosen
        refine chosen.bind ?_
        rintro _ middle ⟨rfl, described, unchanged, keeps⟩
        cases outcome with
        | error refusal =>
          refine Heap.yields_pure ⟨rfl, described, fun _ => unchanged rfl, ?_⟩
          rintro _ cell ⟨rfl⟩ found
          rw [result] at found
          cases found
        | ok cell =>
          obtain ⟨member, fits, members⟩ := findOrExtend_eq_ok result
          refine Heap.Yields.bind (described.yields_place member whole large fits) ?_
          rintro _ after ⟨rfl, placed, alters⟩
          have nonzero : (cell.used between.setting.config.splitThreshold size).offset ≠ 0 := by
            have begins := (described.tiles.bounds (described.closed.free cell member).1).1
            have within := (Cell.used_within fits between.setting.config.splitThreshold).2.1
            omega
          have named := Pointer.ofBlock_eq_ok_iff.mpr
            (show Pointer.offset ⟨_, nonzero⟩ = _ from rfl)
          refine Heap.yields_bind_lift named ?_
          refine Heap.yields_pure ⟨rfl, placed, (fun refused => by cases refused), ?_⟩
          rintro _ other ⟨rfl⟩ found
          rw [result] at found
          cases found
          refine (keeps cell rfl).trans (alters.keeps.mono fun index hit => ?_)
          refine hit.mono (Nat.le_refl _) (Nat.le_refl _) fun other found => ?_
          rcases members other found with rfl | old
          · have large := (described.tiles.bounds (described.closed.free _ member).1).2.2.2
            unfold Cell.next
            omega
          · exact Or.inl old

end Chart

end SegregatedFit
