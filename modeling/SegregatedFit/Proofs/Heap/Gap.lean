/-
This file proves how a heap that is opened goes on: cells join and leave its index, the first
cell behind the gap learns whether the last block of the gap is allocated, the gap is filled
with cells and closed, and other cells are cut out of the order to make a gap.
-/

import SegregatedFit.Proofs.Heap.Opened

namespace SegregatedFit

namespace Cell

variable {cells : List Cell} {start stop other : Nat}

/-- Cells in a row end at one place only. -/
theorem Tiles.stop_unique (tiles : Tiles start stop cells) (same : Tiles start other cells) :
    stop = other :=
  tiles.stop_eq.trans same.stop_eq.symm

end Cell

namespace Heap

variable {σ : Type} [Source σ] {last : Nat}
variable {heap before : Heap σ last} {setting : Setting} {front back inside order : List Cell}
variable {low high : Nat} {prevAllocated : Bool} {cell : Cell}

namespace Opened

/-! ### Changing the index -/

/-- The links of free cells are apart from all tags. -/
theorem not_tagBytes_of_nodeBytes
    (opened : heap.Opened setting front low high prevAllocated back order) {nodes : List Cell}
    (members : ∀ cell ∈ nodes, cell ∈ front ++ back) {index : Nat}
    (hit : Arena.NodeBytes nodes index) :
    24 ≤ index ∧ ∀ cell ∈ front ++ (back ++ [Cell.epilogue setting.size]),
      ¬ cell.TagBytes index := by
  obtain ⟨node, found, from', to'⟩ := hit
  obtain ⟨⟨_, large⟩, begins, ends, _⟩ := opened.bounds (members node found)
  refine ⟨by omega, fun cell member tagged => ?_⟩
  rw [← List.append_assoc] at member
  rcases List.mem_append.mp member with inside | atEnd
  · have cellLarge := (opened.bounds inside).1.2
    have apart := opened.apart (members node found) inside
    unfold Cell.TagBytes Cell.next at *
    rcases apart with rfl | apart
    · omega
    · omega
  · rw [List.mem_singleton.mp atEnd] at tagged
    simp only [Cell.TagBytes, Cell.epilogue, Bool.true_eq_false, false_and, or_false] at tagged
    unfold Cell.next at ends
    omega

/-- A free cell joins the index. -/
theorem yields_indexBlock
    (opened : before.Opened setting front low high prevAllocated back order)
    (member : cell ∈ front ++ back) (free : cell.allocated = false) (fresh : cell ∉ order) :
    Heap.Yields before (indexBlock cell.offset) fun _ after =>
      after.Opened setting front low high prevAllocated back (cell.insertInto order) ∧
        Arena.Alters (Arena.NodeBytes (cell :: order)) before.arena after.arena := by
  have members : ∀ other ∈ cell :: order, other ∈ front ++ back :=
    List.forall_mem_cons.mpr ⟨member, fun other found => (opened.free other found).1⟩
  have distinct : (cell :: order).Nodup := List.nodup_cons.mpr ⟨fresh, opened.distinct⟩
  have hosts := opened.hosts_of members distinct
  refine Heap.yields_indexBlock (admits_of_hosts opened.follows hosts opened.ascending)
    ((Index.yields_insert opened.follows hosts opened.ascending).mono ?_)
  rintro index arena ⟨follows, alters⟩
  refine ⟨opened.alter alters (fun index hit => ?_) (fun other found index hit => ?_) ?_
    ((Cell.insertInto_perm cell order).nodup_iff.mpr distinct)
    (opened.ascending.insertInto cell) follows, alters⟩
  · exact (opened.not_tagBytes_of_nodeBytes members hit).1
  · exact (opened.not_tagBytes_of_nodeBytes members hit).2 other found
  · intro other found
    rcases Cell.mem_insertInto.mp found with rfl | old
    · exact ⟨member, free⟩
    · exact opened.free other old

/-- A free cell leaves the index. -/
theorem yields_unindexBlock
    (opened : before.Opened setting front low high prevAllocated back order)
    (member : cell ∈ order) :
    Heap.Yields before (unindexBlock cell.offset) fun _ after =>
      after.Opened setting front low high prevAllocated back (cell.without order) ∧
        Arena.Alters (Arena.NodeBytes order) before.arena after.arena := by
  have members : ∀ other ∈ order, other ∈ front ++ back :=
    fun other found => (opened.free other found).1
  have only : ∀ other ∈ order,
      decide (other.next ≤ cell.offset ∨ cell.next ≤ other.offset) = true ↔ other ≠ cell := by
    intro other found
    have large := (opened.bounds (members cell member)).1.2
    rw [decide_eq_true_eq]
    constructor
    · rintro apart rfl
      unfold Cell.next at apart
      omega
    · intro different
      exact (opened.apart (members other found) (members cell member)).resolve_left different
  refine Heap.yields_unindexBlock
    ((indexes_iff opened.follows opened.hosts opened.ascending).mpr ⟨cell, member, rfl⟩)
    ((Index.yields_remove opened.follows opened.hosts member only).mono ?_)
  rintro index arena ⟨follows, alters⟩
  have sublist : (cell.without order).Sublist order := List.filter_sublist
  refine ⟨opened.alter alters (fun index hit => ?_) (fun other found index hit => ?_) ?_
    (opened.distinct.sublist sublist) (opened.ascending.filter _) follows, alters⟩
  · exact (opened.not_tagBytes_of_nodeBytes members hit).1
  · exact (opened.not_tagBytes_of_nodeBytes members hit).2 other found
  · exact fun other found => opened.free other (sublist.subset found)

/-! ### Behind the gap -/

/-- What lies behind the gap begins with a cell or with the epilogue. -/
theorem exists_behind (opened : heap.Opened setting front low high prevAllocated back order) :
    ∃ first rest, back ++ [Cell.epilogue setting.size] = first :: rest ∧ first.offset = high ∧
      (first.allocated = false → first.Regular) ∧ ∀ cell ∈ rest, high + 32 ≤ cell.offset := by
  have tiles := opened.backTiles
  cases back with
  | nil =>
    obtain rfl : high = setting.size := tiles
    exact ⟨_, [], rfl, rfl, (fun free => by cases free), List.forall_mem_nil _⟩
  | cons first rest =>
    obtain ⟨rfl, regular, tiles⟩ := tiles
    have large := regular.2
    refine ⟨first, rest ++ [_], rfl, rfl, fun _ => regular, fun cell member => ?_⟩
    rcases List.mem_append.mp member with later | atEnd
    · have := (tiles.bounds later).1
      unfold Cell.next at this
      omega
    · have := tiles.le
      rw [List.mem_singleton.mp atEnd]
      simp only [Cell.next, Cell.epilogue] at this ⊢
      omega

/-- The cell or the epilogue behind the gap learns whether the last block of the gap is
allocated. -/
theorem yields_setPrevAllocated
    (opened : before.Opened setting front low high prevAllocated back order)
    {block : Nat} {tag : Tag} (found : before.arena.header? block = some tag)
    (ends : block + tag.size = high) (allocated : Bool) :
    Heap.Yields before (onArena (Arena.setNextPrevAllocated block allocated)) fun _ after =>
      after.Opened setting front low high allocated back order ∧
        Arena.Alters (fun index => high ≤ index + 8 ∧ index < high)
          before.arena after.arena := by
  have begins := opened.frontTiles.le
  have ordered := opened.ordered
  obtain ⟨first, rest, split, here, regular, later⟩ := opened.exists_behind
  have shown := opened.backShown
  rw [split] at shown
  have firstShown := shown _ List.mem_cons_self
  have read : before.arena.header? (block + tag.size) = some (first.tag prevAllocated) := by
    rw [ends, ← here]
    exact firstShown.header
  refine opened.yields_onArena ((Arena.yields_setNextPrevAllocated allocated found read).mono ?_)
    (fun _ _ holds => ⟨holds.1.follows, holds.1.hosts⟩)
    (Arena.rewrites_setNextPrevAllocated _ _).develops
  rw [ends]
  rintro _ arena ⟨alters, written⟩
  refine ⟨opened.alterFront alters (fun index hit => by omega) (fun cell member index hit => ?_)
    ?_ opened.free opened.distinct opened.ascending (opened.follows.alter alters ?_), alters⟩
  · obtain ⟨_, below, _, large⟩ := opened.frontTiles.bounds member
    unfold Cell.TagBytes Cell.next at *
    omega
  · rw [split]
    refine List.forall_mem_cons.mpr ⟨⟨?_, fun free => ?_⟩, fun block member => ?_⟩
    · rw [← here] at written
      exact written
    · have free : first.allocated = false := free
      have large := (regular free).2
      have footer := firstShown.footer free
      simp only [Block.next, Cell.size_tag (regular free)] at footer ⊢
      rw [alters.word? fun index low high hit => by omega]
      exact footer
    · obtain ⟨cell, member', flag, rfl⟩ := Cell.exists_of_mem_blocks member
      refine alters.shows_cell (fun free => ?_) (shown _ (List.mem_cons_of_mem _ member)) ?_
      · exact opened.regular_back (by rw [split]; exact List.mem_cons_of_mem _ member') free
      · intro index hit tagged
        have := later cell member'
        unfold Cell.TagBytes Cell.next at tagged
        omega
  · rintro index hit ⟨node, member, from', to'⟩
    obtain ⟨⟨_, large⟩, _, _, side⟩ := opened.bounds (opened.free node member).1
    unfold Cell.next at side
    omega

/-! ### Filling the gap -/

/-- A cell that is shown at the low end of the gap belongs to the front. -/
theorem fill (opened : heap.Opened setting front low high prevAllocated back order)
    (begins : cell.offset = low) (regular : cell.Regular) (fits : cell.next ≤ high)
    (shown : heap.arena.Shows ⟨cell.offset, cell.tag (Cell.lastAllocated true front)⟩) :
    heap.Opened setting (front ++ [cell]) cell.next high prevAllocated back order where
  known := opened.known
  prologue := opened.prologue
  frontTiles := Cell.tiles_append.mpr ⟨low, opened.frontTiles, begins, regular, rfl⟩
  backTiles := opened.backTiles
  ordered := fits
  frontShown block member := by
    rw [Cell.blocks_append] at member
    rcases List.mem_append.mp member with old | new
    · exact opened.frontShown block old
    · rw [List.mem_singleton.mp new]
      exact shown
  backShown := opened.backShown
  free node member := by
    obtain ⟨found, free⟩ := opened.free node member
    refine ⟨?_, free⟩
    rw [List.append_assoc]
    rcases List.mem_append.mp found with inFront | inBack
    · exact List.mem_append_left _ inFront
    · exact List.mem_append_right _ (List.mem_cons_of_mem _ inBack)
  distinct := opened.distinct
  ascending := opened.ascending
  follows := opened.follows

/-- A free cell fills the low end of the gap. -/
theorem yields_setFreeTags
    (opened : before.Opened setting front low high prevAllocated back order) {size : Nat}
    {flag : Bool} (truthful : flag = Cell.lastAllocated true front) (whole : size % 16 = 0)
    (large : 32 ≤ size) (fits : low + size ≤ high) :
    Heap.Yields before (onArena (Arena.setFreeTags low size flag)) fun _ after =>
      after.Opened setting (front ++ [⟨low, size, false⟩]) (low + size) high prevAllocated back
          order ∧
        Arena.Alters (fun index => low ≤ index + 8 ∧ index + 8 < low + size)
          before.arena after.arena := by
  have begins := opened.frontTiles.le
  have ends := opened.backTiles.le
  have size_eq := opened.size_eq
  refine opened.yields_onArena ((Arena.yields_setFreeTags flag (by omega) (by omega) large
    (by omega)).mono ?_) (fun _ _ holds => ⟨holds.1.follows, holds.1.hosts⟩)
    (Arena.rewrites_setFreeTags _ _ _).develops
  rintro _ arena ⟨alters, shown⟩
  rw [truthful] at shown
  have alters : Arena.Alters (fun index => low ≤ index + 8 ∧ index + 8 < low + size)
      before.arena arena := alters.mono fun index hit => by omega
  refine ⟨?_, alters⟩
  exact (opened.write alters fun index hit => by omega).fill rfl ⟨whole, large⟩ fits shown

/-- An allocated cell fills the low end of the gap. Only its header is written. -/
theorem yields_setAllocatedTag
    (opened : before.Opened setting front low high prevAllocated back order) {size : Nat}
    {flag : Bool} (truthful : flag = Cell.lastAllocated true front) (whole : size % 16 = 0)
    (large : 32 ≤ size) (fits : low + size ≤ high) :
    Heap.Yields before (onArena (Arena.setAllocatedTag low size flag)) fun _ after =>
      after.Opened setting (front ++ [⟨low, size, true⟩]) (low + size) high prevAllocated back
          order ∧
        Arena.Alters (fun index => low ≤ index + 8 ∧ index < low)
          before.arena after.arena := by
  have begins := opened.frontTiles.le
  have ends := opened.backTiles.le
  have size_eq := opened.size_eq
  have bound := before.arena.size_lt
  refine opened.yields_onArena ((Arena.yields_setAllocatedTag flag (by omega) (by omega) (by omega)
    (by omega)).mono ?_) (fun _ _ holds => ⟨holds.1.follows, holds.1.hosts⟩)
    (Arena.rewrites_setAllocatedTag _ _ _).develops
  rintro _ arena ⟨alters, header⟩
  rw [truthful] at header
  refine ⟨?_, alters⟩
  exact (opened.write alters fun index hit => by omega).fill rfl ⟨whole, large⟩ fits
    ⟨header, fun free => by cases free⟩

/-- The cell that has just filled the gap tells its follower whether it is allocated. -/
theorem yields_tellNext
    (opened : before.Opened setting (front ++ [cell]) high high prevAllocated back order)
    (allocated : Bool) :
    Heap.Yields before (onArena (Arena.setNextPrevAllocated cell.offset allocated))
      fun _ after =>
        after.Opened setting (front ++ [cell]) high high allocated back order ∧
          Arena.Alters (fun index => high ≤ index + 8 ∧ index < high)
            before.arena after.arena := by
  obtain ⟨_, _, rfl, regular, ends⟩ := Cell.tiles_append.mp opened.frontTiles
  have header := (opened.frontShown ⟨cell.offset, cell.tag (Cell.lastAllocated true front)⟩ (by
    rw [Cell.blocks_append]
    exact List.mem_append_right _ List.mem_cons_self)).header
  refine opened.yields_setPrevAllocated header ?_ allocated
  rw [Cell.size_tag regular]
  exact ends

/-! ### Closing and opening -/

/-- A heap without a gap is closed when the cells behind know what lies in front. -/
theorem close (opened : heap.Opened setting front low low prevAllocated back order)
    (truthful : prevAllocated = Cell.lastAllocated true front) :
    heap.Closed setting (front ++ back) order where
  known := opened.known
  prologue := opened.prologue
  frontTiles := rfl
  backTiles := Cell.tiles_append.mpr ⟨low, opened.frontTiles, opened.backTiles⟩
  ordered := Nat.le_refl _
  frontShown := List.forall_mem_nil _
  backShown block member := by
    rw [List.append_assoc, Cell.blocks_append, ← truthful] at member
    rcases List.mem_append.mp member with inFront | inBack
    · exact opened.frontShown block inFront
    · exact opened.backShown block inBack
  free := opened.free
  distinct := opened.distinct
  ascending := opened.ascending
  follows := opened.follows

/-- The last cell in front of a gap becomes a part of the gap. -/
theorem widen (opened : heap.Opened setting (front ++ [cell]) low high prevAllocated back order)
    (unused : cell ∉ order) :
    heap.Opened setting front cell.offset high prevAllocated back order := by
  obtain ⟨middle, tiles, rfl, regular, ends⟩ := Cell.tiles_append.mp opened.frontTiles
  have ordered := opened.ordered
  exact {
    known := opened.known
    prologue := opened.prologue
    frontTiles := tiles
    backTiles := opened.backTiles
    ordered := by
      have ends : cell.next = low := ends
      unfold Cell.next at ends
      omega
    frontShown := fun block member => opened.frontShown block (by
      rw [Cell.blocks_append]
      exact List.mem_append_left _ member)
    backShown := opened.backShown
    free := fun node member => by
      obtain ⟨found, free⟩ := opened.free node member
      refine ⟨?_, free⟩
      rw [List.append_assoc, List.singleton_append] at found
      rcases List.mem_append.mp found with inFront | later
      · exact List.mem_append_left _ inFront
      · rcases List.mem_cons.mp later with rfl | inBack
        · exact absurd member unused
        · exact List.mem_append_right _ inBack
    distinct := opened.distinct
    ascending := opened.ascending
    follows := opened.follows }

end Opened

/-- Cells that are not in the index can be cut out. -/
theorem Closed.cut (closed : heap.Closed setting (front ++ (inside ++ back)) order)
    (frontTiles : Cell.Tiles 32 low front) (insideTiles : Cell.Tiles low high inside)
    (unused : ∀ cell ∈ inside, cell ∉ order) :
    heap.Opened setting front low high
      (Cell.lastAllocated (Cell.lastAllocated true front) inside) back order where
  known := closed.known
  prologue := closed.prologue
  frontTiles := frontTiles
  backTiles := by
    obtain ⟨one, tiles, rest⟩ := Cell.tiles_append.mp closed.backTiles
    obtain rfl := tiles.stop_unique frontTiles
    obtain ⟨two, tiles, rest⟩ := Cell.tiles_append.mp rest
    obtain rfl := tiles.stop_unique insideTiles
    exact rest
  ordered := insideTiles.le
  frontShown block member := closed.backShown block (by
    rw [List.append_assoc, Cell.blocks_append]
    exact List.mem_append_left _ member)
  backShown block member := closed.backShown block (by
    rw [List.append_assoc, List.append_assoc, Cell.blocks_append, Cell.blocks_append]
    exact List.mem_append_right _ (List.mem_append_right _ member))
  free node member := by
    obtain ⟨found, free⟩ := closed.free node member
    refine ⟨?_, free⟩
    rw [List.nil_append] at found
    rcases List.mem_append.mp found with inFront | rest
    · exact List.mem_append_left _ inFront
    · rcases List.mem_append.mp rest with inInside | inBack
      · exact absurd member (unused node inInside)
      · exact List.mem_append_right _ inBack
  distinct := closed.distinct
  ascending := closed.ascending
  follows := closed.follows

end Heap

end SegregatedFit
