/-
This file proves that a heap cuts an allocated block down as its chart does. The tail of the
block is released, and what is left of the payload stays as it is.
-/

import SegregatedFit.Proofs.Heap.Ownership

namespace SegregatedFit

namespace Heap

variable {σ : Type} [Source σ] {last : Nat} {before : Heap σ last} {setting : Setting}
variable {front back order : List Cell} {cell : Cell} {high size : Nat} {prevAllocated : Bool}

/-- A block gets another size, and stays allocated. -/
theorem Opened.yields_setBlockSize
    (opened : before.Opened setting front cell.offset high prevAllocated back order)
    (header : before.arena.header cell.offset = .ok (cell.tag (Cell.lastAllocated true front)))
    (whole : size % 16 = 0) (large : 32 ≤ size) (fits : cell.offset + size ≤ high) :
    Heap.Yields before (setBlockSize cell.offset size) fun _ after =>
      after.Opened setting (front ++ [⟨cell.offset, size, true⟩]) (cell.offset + size) high
          prevAllocated back order ∧
        Arena.Alters (fun index => cell.offset ≤ index + 8 ∧ index < cell.offset)
          before.arena after.arena := by
  unfold setBlockSize
  refine yields_bind_inspectArena header ?_
  exact opened.yields_setAllocatedTag rfl whole large fits

/-- The tag of an allocated block gives way to the tags of two blocks: one that stays allocated,
and a free one behind it. -/
theorem Opened.yields_cutBlock
    (opened : before.Opened setting front cell.offset cell.next prevAllocated back order)
    (header : before.arena.header cell.offset = .ok (cell.tag (Cell.lastAllocated true front)))
    (regular : cell.Regular) (whole : size % 16 = 0) (large : 32 ≤ size)
    (loose : 32 ≤ cell.size - size) (small : cell.next < wordLimit)
    {Result : Type} {rest : Nat → Action (Heap σ last) Result}
    {condition : Result → Heap σ last → Prop}
    (continues : ∀ after,
      after.Closed setting
        ((front ++ [⟨cell.offset, size, true⟩]) ++
          ⟨cell.offset + size, cell.size - size, false⟩ :: back) order →
      Arena.Alters (fun index => cell.offset ≤ index + 8 ∧ index < cell.offset ∨
        cell.offset + size ≤ index + 8 ∧ index < cell.next) before.arena after.arena →
      Heap.Yields after (rest (cell.offset + size)) condition) :
    Heap.Yields before (do
      setBlockSize cell.offset size
      let tail ← Word.add cell.offset size
      onArena (Arena.setFreeTags tail (cell.size - size) true)
      onArena (Arena.setNextPrevAllocated tail false)
      rest tail) condition := by
  have sum : cell.offset + size + (cell.size - size) = cell.next := by
    unfold Cell.next
    omega
  have restWhole : (cell.size - size) % 16 = 0 := by
    have := regular.1
    omega
  refine (opened.yields_setBlockSize header whole large (by omega)).bind ?_
  rintro _ one ⟨filled, oneAlters⟩
  refine Heap.yields_bind_lift (Word.add_eq_ok_iff.mpr ⟨by omega, rfl⟩) ?_
  refine (filled.yields_setFreeTags (by simp [Cell.lastAllocated]) restWhole loose
    (Nat.le_of_eq sum)).bind ?_
  rintro _ two ⟨filled, twoAlters⟩
  rw [sum] at filled
  refine (filled.yields_tellNext false).bind ?_
  rintro _ three ⟨told, threeAlters⟩
  have closed := told.close (by simp [Cell.lastAllocated])
  rw [List.append_assoc] at closed
  refine continues three closed (((oneAlters.mono fun index hit => Or.inl hit).trans
    (twoAlters.mono fun index hit => Or.inr ?_)).trans
    (threeAlters.mono fun index hit => Or.inr ?_))
  · omega
  · omega

end Heap

namespace Chart

variable {σ : Type} [Source σ] {last : Nat} {chart : Chart} {before : Heap σ last}
variable {front back : List Cell} {cell : Cell} {size : Nat}

theorem next_le_enlarged (chart : Chart) (cell : Cell) :
    cell.next ≤ (chart.enlarged cell).next := by
  simp only [enlarged, Cell.next]
  omega

/-- A range behind an allocated cell joins with the free cell after it only. -/
theorem joined_of_allocated {rest : Cell} {offset stop : Nat}
    (cells : chart.cells = (front ++ [⟨offset, size, true⟩]) ++ ([] ++ back))
    (frontTiles : Cell.Tiles 32 rest.offset (front ++ [⟨offset, size, true⟩]))
    (backTiles : Cell.Tiles rest.next stop back) :
    chart.joined rest = Cell.join none rest (Cell.freeHead? back) := by
  obtain ⟨before_eq, after_eq⟩ := Cell.splits frontTiles backTiles (List.forall_mem_nil _)
  unfold joined
  rw [cells, before_eq, after_eq]
  simp

/-- The bytes that change when a block is cut down to `size` bytes. -/
def TrimBytes (chart : Chart) (cell : Cell) (size index : Nat) : Prop :=
  cell.offset ≤ index + 8 ∧ index < cell.offset ∨
    cell.offset + size ≤ index + 8 ∧ index < (chart.enlarged cell).next ∨
    Arena.NodeBytes chart.order index

/-- No free cell overlaps with an allocated one. -/
theorem Describes.without_order (describes : chart.Describes before) (member : cell ∈ chart.cells)
    (allocated : cell.allocated = true) : cell.without chart.order = chart.order := by
  refine Cell.without_eq_self fun other found => ?_
  refine (describes.tiles.apart (describes.closed.free other found).1 member).resolve_left ?_
  rintro rfl
  exact describes.not_mem_order allocated found

/-- How the cells of a chart lie around the rest of a cell that is cut down to `size` bytes. -/
structure Cuts (chart : Chart) (front back : List Cell) (cell : Cell) (size : Nat) : Prop where
  cells : (chart.replace cell [⟨cell.offset, size, true⟩]).cells =
    (front ++ [⟨cell.offset, size, true⟩]) ++ ([] ++ back)
  frontTiles : Cell.Tiles 32 (cell.offset + size) (front ++ [⟨cell.offset, size, true⟩])
  backTiles : Cell.Tiles (Cell.next ⟨cell.offset + size, cell.size - size, false⟩)
    chart.setting.size back
  frontSeparated : Cell.Separated true (front ++ [⟨cell.offset, size, true⟩])
  backSeparated : Cell.Separated cell.allocated back

theorem Describes.cuts (describes : chart.Describes before)
    (split : chart.cells = front ++ cell :: back) (whole : size % 16 = 0) (large : 32 ≤ size)
    (fits : size ≤ cell.size) : chart.Cuts front back cell size := by
  have tiles := describes.tiles
  have separated := describes.separated
  rw [split] at tiles separated
  obtain ⟨_, frontTiles, rfl, _, backTiles⟩ := Cell.tiles_append.mp tiles
  obtain ⟨frontSeparated, _, backSeparated⟩ := Cell.separated_append.mp separated
  have sum : cell.offset + size + (cell.size - size) = cell.next := by
    unfold Cell.next
    omega
  refine ⟨?_, ?_, ?_, ?_, backSeparated⟩
  · rw [replace_eq chart _ (describes.splits split rfl rfl)]
    rfl
  · exact Cell.tiles_append.mpr ⟨_, frontTiles, rfl, ⟨whole, large⟩, rfl⟩
  · rwa [← sum] at backTiles
  · exact Cell.separated_append.mpr ⟨frontSeparated, Or.inr rfl, trivial⟩

/-- The rest of a cell becomes free up to where the enlarged cell would end. -/
theorem Describes.next_join_rest (describes : chart.Describes before)
    (split : chart.cells = front ++ cell :: back) (fits : size ≤ cell.size) :
    (Cell.join none ⟨cell.offset + size, cell.size - size, false⟩ (Cell.freeHead? back)).next =
      (chart.enlarged cell).next := by
  simp only [enlarged, (describes.splits split rfl rfl).2, Cell.join, Cell.next, Option.elim_none]
  omega

/-- The cells once an allocated cell was cut down: its rest takes the free cell after it in. -/
theorem Describes.cells_trim (describes : chart.Describes before) {follower : Option Cell}
    (split : chart.cells = front ++ cell :: (follower.toList ++ back))
    (follows : Cell.freeHead? (follower.toList ++ back) = follower) (whole : size % 16 = 0)
    (large : 32 ≤ size) (loose : 32 ≤ cell.size - size) :
    (chart.trim cell size).cells = front ++ ⟨cell.offset, size, true⟩ ::
      ⟨cell.offset + size, cell.size - size + follower.elim 0 (·.size), false⟩ :: back := by
  have cuts := describes.cuts split whole large (by omega)
  obtain ⟨start, stop, joins⟩ := exists_joins _ cuts.cells cuts.frontTiles cuts.backTiles
    (List.forall_mem_nil _) cuts.frontSeparated cuts.backSeparated
  have joined := joined_of_allocated cuts.cells cuts.frontTiles cuts.backTiles
  have frontEq := joins.frontEq
  have backEq := joins.backEq
  rw [Cell.freeLast?_concat, if_pos rfl, Option.toList_none, List.append_nil] at frontEq
  rw [follows] at backEq joined
  rw [trim, if_pos loose, joins.freeEq, joined, ← frontEq, ← List.append_cancel_left backEq]
  simp [Cell.join]

/-- An allocated block is cut down in memory as it is in the chart. -/
theorem Describes.yields_trim (describes : chart.Describes before)
    (split : chart.cells = front ++ cell :: back) (allocated : cell.allocated = true)
    (whole : size % 16 = 0) (large : 32 ≤ size) (fits : size ≤ cell.size) :
    Heap.Yields before (Heap.trim cell.offset cell.size size) fun _ after =>
      (chart.trim cell size).Describes after ∧
        Arena.Alters (chart.TrimBytes cell size) before.arena after.arena := by
  have closed := describes.closed
  rw [split] at closed
  have small := closed.next_lt
  obtain ⟨frontTiles, regular, backTiles⟩ := closed.tiles
  have member : cell ∈ chart.cells := by
    rw [split]
    exact List.mem_append_right _ List.mem_cons_self
  have insideTiles : Cell.Tiles cell.offset cell.next [cell] := ⟨rfl, regular, rfl⟩
  have opened := Heap.Closed.cut closed frontTiles insideTiles
    (List.forall_mem_singleton.mpr (describes.not_mem_order allocated))
  unfold Heap.trim trim
  refine Heap.yields_bind_lift (Word.sub_eq_ok_iff.mpr ⟨fits, rfl⟩) ?_
  by_cases loose : 32 ≤ cell.size - size
  · rw [if_pos loose, if_pos (show minimumBlock ≤ cell.size - size from loose)]
    have cuts := describes.cuts split whole large fits
    have joined := joined_of_allocated cuts.cells cuts.frontTiles cuts.backTiles
    have order : (chart.replace cell [⟨cell.offset, size, true⟩]).order = chart.order :=
      describes.without_order member allocated
    have fresh : (⟨cell.offset + size, cell.size - size, false⟩ : Cell) ∉ chart.order :=
      opened.fresh (Nat.le_add_right _ _)
        (show cell.offset + size + (cell.size - size) ≤ cell.offset + cell.size by omega)
        (show 0 < cell.size - size by omega)
    have setting : (chart.replace cell [⟨cell.offset, size, true⟩]).setting = chart.setting := rfl
    have cells := cuts.cells
    refine opened.yields_cutBlock closed.header_eq_ok regular whole large loose small ?_
    intro one marked oneAlters
    rw [← setting, ← order] at marked
    rw [← order] at fresh
    generalize chart.replace cell [⟨cell.offset, size, true⟩] = base at *
    refine yields_free base cells marked rfl fresh (List.forall_mem_nil _) ?_
      cuts.frontSeparated cuts.backSeparated (setting ▸ describes.growing) ?_
    · intro other found free
      rw [order]
      refine describes.indexed_around split other ?_ free
      simp only [List.mem_append, List.mem_singleton] at found ⊢
      rcases found with (inFront | rfl) | inBack
      · exact Or.inl inFront
      · cases free
      · exact Or.inr inBack
    · intro after described alters _ _
      rw [joined, order] at alters
      have reach := describes.next_join_rest split fits
      have far := chart.next_le_enlarged cell
      refine Heap.yields_pure ⟨described, (oneAlters.mono fun index hit => ?_).trans
        (alters.mono fun index hit => Or.inr ?_)⟩
      · exact hit.imp_right fun tail => Or.inl (by omega)
      · rw [Arena.UpdateBytes, reach] at hit
        exact hit
  · rw [if_neg loose, if_neg (show ¬ minimumBlock ≤ cell.size - size from loose)]
    exact Heap.yields_pure ⟨describes, Arena.Alters.refl _ _⟩

/-- The other owned cells lie apart from a cell and from the free cell after it. -/
theorem Describes.apart_enlarged (describes : chart.Describes before)
    (split : chart.cells = front ++ cell :: back) (others : chart.Owns other)
    (different : other ≠ cell) :
    other.next ≤ cell.offset ∨ (chart.enlarged cell).next ≤ other.offset := by
  have tiles := describes.tiles
  rw [split] at tiles
  obtain ⟨_, frontTiles, rfl, _, backTiles⟩ := Cell.tiles_append.mp tiles
  obtain ⟨_, after_eq⟩ := describes.splits split rfl rfl
  rcases List.mem_append.mp ((describes.mem_around split).mpr ⟨others.1, different⟩) with
    inFront | inBack
  · exact Or.inl (frontTiles.bounds inFront).2.1
  · refine Or.inr ?_
    cases back with
    | nil => cases inBack
    | cons next rest =>
      have low := (backTiles.bounds inBack).1
      obtain ⟨begins, _, restTiles⟩ := backTiles
      cases allocated : next.allocated with
      | true =>
        have head : Cell.freeHead? (next :: rest) = none := by
          simp [allocated]
        simp only [enlarged, after_eq, head, Cell.next, Option.elim_none] at low ⊢
        omega
      | false =>
        have head : Cell.freeHead? (next :: rest) = some next := by
          simp [allocated]
        have later := (List.mem_cons.mp inBack).resolve_left (others.ne_of_free allocated)
        have low := (restTiles.bounds later).1
        simp only [enlarged, after_eq, head, Cell.next, Option.elim_some] at low begins ⊢
        omega

/-- Cutting a cell down spares the payloads of the other owners, and its own up to the cut. -/
theorem Describes.spares_of_trim (describes : chart.Describes before) (owns : chart.Owns cell)
    {arena : Arena σ} (keeps : Arena.Keeps (chart.TrimBytes cell size) before.arena arena) :
    (∀ other, chart.Owns other → other ≠ cell → Arena.Spares other before.arena arena) ∧
      ∀ index, cell.offset ≤ index → index + 8 < cell.offset + size → index + 8 < cell.next →
        Source.byte arena.source index = Source.byte before.arena.source index := by
  obtain ⟨front, back, split⟩ := List.append_of_mem owns.1
  have far := chart.next_le_enlarged cell
  have begin_eq : (chart.enlarged cell).offset = cell.offset := rfl
  constructor
  · intro other others different
    have apart := describes.apart_enlarged split others different
    have touched : Arena.Keeps (Arena.UpdateBytes (chart.enlarged cell) chart.order)
        before.arena arena := by
      refine keeps.mono fun index hit => ?_
      rcases hit with inHeader | inTail | inNodes
      · have : cell.offset ≤ cell.next := Nat.le_add_right _ _
        exact Or.inl (by omega)
      · exact Or.inl (by omega)
      · exact Or.inr inNodes
    exact describes.spares others apart touched
  · intro index low high inside
    refine keeps index fun hit => ?_
    rcases hit with inHeader | inTail | ⟨node, member, above, below⟩
    · omega
    · omega
    · have large := (describes.tiles.bounds (describes.closed.free node member).1).2.2.2
      have sides := describes.apart_of_mem_order owns member
      unfold Cell.next at *
      omega

/-- A cell that is cut down stays with its owner, and has at most one unit to spare. -/
theorem Describes.owns_trim (describes : chart.Describes before) (owns : chart.Owns cell)
    (whole : size % 16 = 0) (large : 32 ≤ size) (fits : size ≤ cell.size) :
    ∃ kept : Cell, kept.offset = cell.offset ∧ kept.allocated = true ∧
      (kept.size = size ∨ kept.size = size + 16) ∧
      ∀ other, (chart.trim cell size).Owns other ↔
        other = kept ∨ chart.Owns other ∧ other ≠ cell := by
  unfold trim
  by_cases loose : 32 ≤ cell.size - size
  · rw [if_pos loose]
    obtain ⟨front, back, split⟩ := List.append_of_mem owns.1
    have cuts := describes.cuts split whole large fits
    obtain ⟨start, stop, joins⟩ := exists_joins _ cuts.cells cuts.frontTiles cuts.backTiles
      (List.forall_mem_nil _) cuts.frontSeparated cuts.backSeparated
    refine ⟨⟨cell.offset, size, true⟩, rfl, rfl, Or.inl rfl, fun other => ?_⟩
    rw [joins.owns_free]
    have around : other ∈ front ++ back ↔ other ∈ chart.cells ∧ other ≠ cell :=
      describes.mem_around split
    unfold Owns
    simp only [List.mem_append, List.mem_singleton] at around ⊢
    grind
  · rw [if_neg loose]
    obtain ⟨_, _, cellWhole, _⟩ := describes.tiles.bounds owns.1
    refine ⟨cell, rfl, owns.2, by omega, fun other => ?_⟩
    by_cases same : other = cell
    · simp [same, owns]
    · simp [same]

end Chart

end SegregatedFit
