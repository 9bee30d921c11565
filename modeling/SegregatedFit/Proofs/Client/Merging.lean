/-
This file proves what a release does to the blocks of a heap. The block that becomes free, the
block right in front of it and the one right behind, if these are free, give way to one free block.
The block behind that is told, and no other block changes. The lists lose the two neighbours, and
get the block that all of them have become.
-/

import SegregatedFit.Proofs.Client.Placement

namespace SegregatedFit

/-- The blocks behind a block that became allocated or free: the first of them is told, and the
others stay as they are. -/
def Block.told (prevAllocated : Bool) : List Block → List Block
  | [] => []
  | block :: rest => { block with tag := block.tag.withPrevAllocated prevAllocated } :: rest

namespace Cell

variable {cell : Cell} {cells front back : List Cell} {prevAllocated : Bool}

/-- The block of a cell, after a cell that is allocated or not. -/
def block (cell : Cell) (prevAllocated : Bool) : Block where
  offset := cell.offset
  tag := cell.tag prevAllocated

theorem blocks_cons (prevAllocated : Bool) (cell : Cell) (rest : List Cell) :
    blocks prevAllocated (cell :: rest) =
      cell.block prevAllocated :: blocks cell.allocated rest := rfl

/-- Among the blocks of some cells, only the first depends on what is in front of them. -/
theorem told_blocks (first second : Bool) (cells : List Cell) :
    Block.told first (blocks second cells) = blocks first cells := by
  cases cells <;> rfl

theorem blocks_toList (prevAllocated : Bool) (cell : Option Cell) :
    blocks prevAllocated cell.toList = (cell.map (·.block prevAllocated)).toList := by
  cases cell <;> rfl

theorem map_offset_toList (prevAllocated : Bool) (cell : Option Cell) :
    (cell.map (·.block prevAllocated)).toList.map Block.offset = cell.toList.map Cell.offset := by
  cases cell <;> rfl

/-- The block of a free cell, if there is one, is free. -/
theorem free_of_mem_map {cell : Option Cell} (free : ∀ other ∈ cell, other.allocated = false) :
    ∀ block ∈ cell.map (·.block prevAllocated), block.tag.allocated = false := by
  intro block found
  obtain ⟨other, member, rfl⟩ := Option.map_eq_some_iff.mp found
  exact free other member

/-- Where at most one cell follows an allocated one, and is free, the last is allocated if none
follows. -/
theorem lastAllocated_toList {cell : Option Cell} (free : ∀ other ∈ cell, other.allocated = false) :
    lastAllocated true cell.toList = cell.isNone := by
  cases cell with
  | none => rfl
  | some other => exact free other rfl

/-- A cell that may be missing has the size of its block. -/
theorem size_elim_block {cell : Option Cell} (regular : ∀ other ∈ cell, other.Regular)
    (prevAllocated : Bool) :
    (cell.map (·.block prevAllocated)).elim 0 (·.tag.size) = cell.elim 0 (·.size) := by
  cases cell with
  | none => rfl
  | some other => exact size_tag (regular other rfl) prevAllocated

/-- The last of some cells becomes the last of their blocks. -/
theorem getLast?_blocks (ends : lastAllocated true cells = true) :
    ∀ block ∈ (blocks true cells).getLast?, block.tag.allocated = true := by
  rcases List.eq_nil_or_concat cells with rfl | ⟨rest, cell, rfl⟩
  · simp [blocks]
  · rw [List.concat_eq_append] at ends ⊢
    rw [lastAllocated_append] at ends
    rw [blocks_append, blocks_cons, blocks, List.getLast?_concat]
    rintro _ ⟨rfl⟩
    exact ends

/-- Behind a free cell, the first of some cells is allocated. -/
theorem head?_blocks (separated : Separated false cells) (prevAllocated : Bool) :
    ∀ block ∈ (blocks prevAllocated cells).head?, block.tag.allocated = true := by
  cases cells with
  | nil => simp [blocks]
  | cons cell rest =>
    rintro _ ⟨rfl⟩
    exact separated.1.resolve_left Bool.false_ne_true

end Cell

namespace Heap

variable {σ : Type} [Source σ] {last : Nat}

/-- Whether a heap becomes another when the block of a pointer becomes free. The blocks `low` and
`high` are its free neighbours, so that the other blocks end and begin with an allocated one. The
three become one free block, and the block behind it, which may be the epilogue, is told. -/
structure MergesTo (heap : Heap σ last) (pointer : Pointer) (front : List Block)
    (low : Option Block) (block : Block) (high : Option Block) (back : List Block)
    (merged : Block) (after : Heap σ last) : Prop where
  origin : heap.arena.walk = .ok (front ++ low.toList ++ block :: (high.toList ++ back))
  named : pointer.offset = block.offset
  live : block.tag.allocated = true
  lowFree : ∀ other ∈ low, other.tag.allocated = false
  highFree : ∀ other ∈ high, other.tag.allocated = false
  frontEnds : ∀ other ∈ front.getLast?, other.tag.allocated = true
  backBegins : ∀ other ∈ back.head?, other.tag.allocated = true
  result : after.arena.walk = .ok (front ++ merged :: Block.told false back)
  begins : merged.offset = (low.getD block).offset
  size : merged.tag.size =
    low.elim 0 (·.tag.size) + block.tag.size + high.elim 0 (·.tag.size)
  free : merged.tag.allocated = false
  prevAllocated : merged.tag.prevAllocated = true
  follower : ∃ tag, heap.arena.header merged.next = .ok tag ∧
    after.arena.header merged.next = .ok (tag.withPrevAllocated false)
  epilogue : back ≠ [] → after.arena.header after.size = heap.arena.header heap.size
  size_eq : after.size = heap.size
  growths_eq : after.arena.growths = heap.arena.growths
  lists : ∀ bucket : Fin (last + 1), ∃ nodes others,
    (heap.index.lists.get bucket).nodes heap.arena = .ok nodes ∧
      (after.index.lists.get bucket).nodes after.arena = .ok others ∧
      others.Perm ((if bucketFor last merged.tag.size = bucket then [merged.offset] else []) ++
        nodes.filter (· ∉ (low.toList ++ high.toList).map Block.offset))

end Heap

namespace Chart

variable {σ : Type} [Source σ] {last : Nat} {chart : Chart} {heap after : Heap σ last}
variable {front back start stop : List Cell} {cell other : Cell} {pointer : Pointer}

/-- The free cells outside of what a released cell becomes are those that it does not join. -/
theorem Describes.without_joined (describes : chart.Describes heap)
    (split : chart.cells = front ++ cell :: back) (allocated : cell.allocated = true)
    (joins : chart.Joins front cell back start stop) :
    (chart.joined cell).without chart.order = chart.order.filter fun other =>
      other.offset ∉ ((Cell.freeLast? front).toList ++ (Cell.freeHead? back).toList).map
        Cell.offset := by
  obtain ⟨frontTiles, _, backTiles⟩ := (split ▸ describes.closed).tiles
  obtain ⟨_, _, _, _, within⟩ := tiles_join (joins.frontEq ▸ frontTiles) (joins.backEq ▸ backTiles)
  rw [← joins.joinedEq] at within
  refine List.filter_congr fun other found => decide_eq_decide.mpr ?_
  obtain ⟨member, free⟩ := describes.closed.free other found
  obtain ⟨_, _, _, large⟩ := describes.tiles.bounds member
  constructor
  · intro outside joined
    obtain ⟨neighbour, near, same⟩ := List.mem_map.mp joined
    have inside := within neighbour near
    unfold Cell.next at outside inside
    omega
  · intro apart
    rw [List.nil_append, split, joins.frontEq, joins.backEq] at member
    simp only [List.mem_append, List.mem_cons] at member
    rcases member with (inStart | low) | rfl | high | inStop
    · exact Or.inl (joins.startTiles.bounds inStart).2.1
    · exact absurd (List.mem_map_of_mem (List.mem_append_left _ low)) apart
    · exact absurd (free.symm.trans allocated) Bool.false_ne_true
    · exact absurd (List.mem_map_of_mem (List.mem_append_right _ high)) apart
    · exact Or.inr (joins.stopTiles.bounds inStop).1

/-- The lists get the cell that a released cell becomes, and lose those that it joins. -/
theorem Describes.exists_nodes_perm_of_release (describes : chart.Describes heap)
    (described : (chart.free cell).Describes after)
    (split : chart.cells = front ++ cell :: back) (allocated : cell.allocated = true)
    (joins : chart.Joins front cell back start stop) (bucket : Fin (last + 1)) :
    ∃ nodes others, (heap.index.lists.get bucket).nodes heap.arena = .ok nodes ∧
      (after.index.lists.get bucket).nodes after.arena = .ok others ∧
      others.Perm ((if bucketFor last (chart.joined cell).size = bucket then
          [(chart.joined cell).offset] else []) ++
        nodes.filter (· ∉ ((Cell.freeLast? front).toList ++
          (Cell.freeHead? back).toList).map Cell.offset)) := by
  have outside := describes.without_joined split allocated joins
  generalize ((Cell.freeLast? front).toList ++ (Cell.freeHead? back).toList).map Cell.offset =
    absorbed at outside ⊢
  obtain ⟨nodes, others, listed, relisted, perm⟩ :=
    describes.exists_nodes_perm described [chart.joined cell] (· ∉ absorbed) outside
      (congrArg Chart.order joins.freeEq) bucket
  refine ⟨nodes, others, listed, relisted, ?_⟩
  have parts : (Index.bucketCells last bucket [chart.joined cell]).map Cell.offset =
      if bucketFor last (chart.joined cell).size = bucket then [(chart.joined cell).offset]
      else [] := by
    unfold Index.bucketCells
    by_cases here : bucketFor last (chart.joined cell).size = bucket <;> simp [here]
  rw [← parts]
  exact perm

/-- The cells of a chart, seen from a cell and its free neighbours. -/
theorem Joins.cells_eq (joins : chart.Joins front cell back start stop)
    (split : chart.cells = front ++ cell :: back) :
    chart.cells = start ++ (Cell.freeLast? front).toList ++
      cell :: (Cell.freeHead? back).toList ++ stop := by
  rw [← joins.frontEq, List.append_assoc, List.cons_append, ← joins.backEq]
  exact split

/-- The cells of a chart after a cell was released. -/
theorem Joins.cells_free (joins : chart.Joins front cell back start stop) :
    (chart.free cell).cells = start ++ [chart.joined cell] ++ stop := by
  rw [joins.freeEq, List.append_assoc]
  rfl

/-- The blocks of a chart, seen from a cell and its free neighbours. -/
theorem Joins.blocks_cells (joins : chart.Joins front cell back start stop)
    (split : chart.cells = front ++ cell :: back) (allocated : cell.allocated = true) :
    Cell.blocks true chart.cells =
      Cell.blocks true start ++ ((Cell.freeLast? front).map (·.block true)).toList ++
        cell.block (Cell.freeLast? front).isNone ::
          (((Cell.freeHead? back).map (·.block true)).toList ++
            Cell.blocks (Cell.freeHead? back).isNone stop) := by
  have low : Cell.lastAllocated true (Cell.freeLast? front).toList = _ :=
    Cell.lastAllocated_toList fun _ => Cell.free_of_freeLast?
  have high : Cell.lastAllocated true (Cell.freeHead? back).toList = _ :=
    Cell.lastAllocated_toList fun _ => Cell.free_of_freeHead?
  rw [joins.cells_eq split, List.append_assoc, List.cons_append, Cell.blocks_append,
    Cell.blocks_append, Cell.blocks_cons, Cell.blocks_append, Cell.lastAllocated_append,
    joins.startAllocated, allocated, low, high, Cell.blocks_toList, Cell.blocks_toList]

/-- What follows some cells is a cell or the epilogue, and knows the last of them. -/
theorem Describes.header_behind (describes : chart.Describes heap) {offset : Nat}
    (split : chart.cells = front ++ back) (tiles : Cell.Tiles offset chart.setting.size back) :
    ∃ next, (back ++ [Cell.epilogue chart.setting.size]).head? = some next ∧
      heap.arena.header offset = .ok (next.tag (Cell.lastAllocated true front)) := by
  have closed := describes.closed
  rw [split] at closed
  cases back with
  | nil =>
    obtain rfl : offset = chart.setting.size := tiles
    rw [List.append_nil] at closed
    exact ⟨_, rfl, Arena.header_eq_ok_iff.mpr closed.header_epilogue⟩
  | cons next rest =>
    obtain ⟨rfl, _⟩ := tiles
    exact ⟨next, rfl, closed.header_eq_ok⟩

/-- The block behind a released cell and its neighbours is told. -/
theorem Describes.header_told (describes : chart.Describes heap)
    (described : (chart.free cell).Describes after)
    (split : chart.cells = front ++ cell :: back)
    (joins : chart.Joins front cell back start stop) :
    ∃ tag, heap.arena.header (chart.joined cell).next = .ok tag ∧
      after.arena.header (chart.joined cell).next = .ok (tag.withPrevAllocated false) := by
  obtain ⟨next, following, read⟩ :=
    describes.header_behind (joins.cells_eq split) joins.stopTiles
  obtain ⟨other, again, reread⟩ := described.header_behind joins.cells_free joins.stopTiles
  obtain rfl : other = next := Option.some.inj (again.symm.trans following)
  rw [Cell.lastAllocated_append] at reread
  exact ⟨_, read, reread⟩

/-- The epilogue stays as it is when there are other cells behind a released one. -/
theorem Describes.header_epilogue_eq (describes : chart.Describes heap)
    (described : (chart.free cell).Describes after)
    (split : chart.cells = front ++ cell :: back)
    (joins : chart.Joins front cell back start stop) (others : stop ≠ []) :
    after.arena.header after.size = heap.arena.header heap.size := by
  obtain ⟨next, rest, rfl⟩ := List.exists_cons_of_ne_nil others
  have read := describes.closed.header_epilogue
  have reread := described.closed.header_epilogue
  rw [joins.cells_eq split, Cell.lastAllocated_append] at read
  rw [joins.cells_free, Cell.lastAllocated_append] at reread
  have size_eq : heap.size = chart.setting.size := describes.size_eq
  have again : after.size = chart.setting.size := described.size_eq
  rw [size_eq, again, Arena.header_eq_ok_iff.mpr read]
  exact Arena.header_eq_ok_iff.mpr reread

theorem Describes.regular_joined (described : (chart.free cell).Describes after)
    (joins : chart.Joins front cell back start stop) : (chart.joined cell).Regular := by
  refine (described.tiles.bounds ?_).2.2
  rw [joins.cells_free]
  simp

/-- The cell that a released cell becomes has the bytes of all blocks that it joins. -/
theorem Describes.size_joined (describes : chart.Describes heap)
    (described : (chart.free cell).Describes after) (split : chart.cells = front ++ cell :: back)
    (joins : chart.Joins front cell back start stop) :
    ((chart.joined cell).block true).tag.size =
      ((Cell.freeLast? front).map (·.block true)).elim 0 (·.tag.size) +
        (cell.block (Cell.freeLast? front).isNone).tag.size +
          ((Cell.freeHead? back).map (·.block true)).elim 0 (·.tag.size) := by
  have regular : ∀ other ∈ start ++ (Cell.freeLast? front).toList ++
      cell :: (Cell.freeHead? back).toList ++ stop, other.Regular := by
    rw [← joins.cells_eq split]
    exact fun other member => (describes.tiles.bounds member).2.2
  have size_eq : (chart.joined cell).size = (Cell.freeLast? front).elim 0 (·.size) + cell.size +
      (Cell.freeHead? back).elim 0 (·.size) :=
    congrArg Cell.size joins.joinedEq
  rw [Cell.size_elim_block (fun other found => regular other (by simp [Option.mem_def.mp found])),
    Cell.size_elim_block (fun other found => regular other (by simp [Option.mem_def.mp found]))]
  rw [Cell.block, Cell.size_tag (described.regular_joined joins), Cell.block,
    Cell.size_tag (regular cell (by simp)), size_eq]

/-- A released cell and its free neighbours give way to the cell that they become. -/
theorem Describes.mergesTo (describes : chart.Describes heap)
    (described : (chart.free cell).Describes after)
    (split : chart.cells = front ++ cell :: back) (allocated : cell.allocated = true)
    (joins : chart.Joins front cell back start stop) (named : pointer.offset = cell.offset) :
    heap.MergesTo pointer (Cell.blocks true start) ((Cell.freeLast? front).map (·.block true))
      (cell.block (Cell.freeLast? front).isNone) ((Cell.freeHead? back).map (·.block true))
      (Cell.blocks (Cell.freeHead? back).isNone stop) ((chart.joined cell).block true) after where
  origin := describes.walk_eq_ok.trans (congrArg _ (joins.blocks_cells split allocated))
  named := named
  live := allocated
  lowFree := Cell.free_of_mem_map fun _ => Cell.free_of_freeLast?
  highFree := Cell.free_of_mem_map fun _ => Cell.free_of_freeHead?
  frontEnds := Cell.getLast?_blocks joins.startAllocated
  backBegins := Cell.head?_blocks joins.stopSeparated _
  result := by
    rw [described.walk_eq_ok, joins.cells_free, List.append_assoc, Cell.blocks_append,
      joins.startAllocated, Cell.told_blocks]
    rfl
  begins := by
    rw [joins.joinedEq]
    cases Cell.freeLast? front <;> rfl
  size := describes.size_joined described split joins
  free := rfl
  prevAllocated := rfl
  follower := by
    have next_eq : ((chart.joined cell).block true).next = (chart.joined cell).next :=
      congrArg _ (Cell.size_tag (described.regular_joined joins) true)
    rw [next_eq]
    exact describes.header_told described split joins
  epilogue others :=
    describes.header_epilogue_eq described split joins fun none => others (by rw [none]; rfl)
  size_eq := (describes.size_growths_eq described rfl).1
  growths_eq := (describes.size_growths_eq described rfl).2
  lists bucket := by
    have size_eq : ((chart.joined cell).block true).tag.size = (chart.joined cell).size :=
      Cell.size_tag (described.regular_joined joins) true
    rw [size_eq, List.map_append, Cell.map_offset_toList, Cell.map_offset_toList,
      ← List.map_append]
    exact describes.exists_nodes_perm_of_release described split allocated joins bucket

end Chart

/-- At every moment of a history, a release of a live block makes it free together with its free
neighbours. On the walk through the heap the three give way to one free block, which begins where
the first of them did, has the bytes of all of them, and knows that the block in front of it is
allocated. The block behind it, or the epilogue, is told that it is free. All other blocks stay as
they are, and the arena does not grow. The lists lose the neighbours and get the new block, which is
in the list of its bucket. -/
theorem History.release_merges_neighbours {σ : Type} [Source σ] {last : Nat} {source : σ}
    {config : Config} {past : List (Call × Reply)} {heap : Heap σ last} {leases : List Lease}
    {pointer : Pointer} (history : History source config past heap leases)
    (live : pointer ∈ leases.map Lease.pointer) :
    ∃ after front low block high back merged, Heap.release pointer heap = .ok () after ∧
      heap.MergesTo pointer front low block high back merged after := by
  obtain ⟨chart, describes, serves⟩ := history.exists_chart
  obtain ⟨cell, owns, named⟩ := serves.exists_cell live
  obtain ⟨front, back, start, stop, split, joins⟩ := describes.exists_joins_of_owns owns
  obtain ⟨_, after, released, _, described, _⟩ :=
    describes.yields_release split owns.2 pointer named
  exact ⟨after, _, _, _, _, _, _, released,
    describes.mergesTo described split owns.2 joins named⟩

/-- A client can release a block between two free ones. -/
theorem History.release_merges_neighbours_both :
    ∃ (session : Session Buffer 1) (pointer : Pointer) (after : Heap Buffer 1),
      Session.replay? (Buffer.ofMaximum 512) ⟨32, 144, 48⟩
          [.allocate 24, .allocate 24, .release ⟨32, by decide⟩] = some session ∧
        session.heap.arena.blocks.map (fun block => (block.offset, block.tag.allocated)) =
          [(32, false), (64, true), (96, false)] ∧
        pointer.offset = 64 ∧ Heap.release pointer session.heap = .ok () after ∧
        ∃ front low block high back merged,
          session.heap.MergesTo pointer front low block high back merged after := by
  have answered : (Session.replay? (Buffer.ofMaximum 512) ⟨32, 144, 48⟩
      [.allocate 24, .allocate 24, .release ⟨32, by decide⟩] : Option (Session Buffer 1)).map
        (fun session => (session.leases, session.heap.arena.blocks.map fun block =>
          (block.offset, block.tag.allocated))) =
            some ([⟨⟨64, by decide⟩, 24⟩], [(32, false), (64, true), (96, false)]) := by
    decide +kernel
  obtain ⟨session, replayed, both⟩ := Option.map_eq_some_iff.mp answered
  obtain ⟨leases, blocks⟩ := Prod.mk.inj both
  have live : (⟨64, by decide⟩ : Pointer) ∈ session.leases.map Lease.pointer := by
    rw [leases]
    exact List.mem_cons_self
  obtain ⟨after, front, low, block, high, back, merged, released, merges⟩ :=
    History.release_merges_neighbours (Session.history_of_replay? replayed) live
  exact ⟨session, _, after, replayed, blocks, rfl, released, front, low, block, high, back, merged,
    merges⟩

end SegregatedFit
