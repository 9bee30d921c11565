/-
This file proves what an allocation does to the blocks of a heap. It cuts one free block: the one
that a search finds, or the last one after growth, which is the only one that is large enough
then. The block gives way to its parts, one of which is allocated, and no other block changes.
-/

import SegregatedFit.Proofs.Client.Growth
import SegregatedFit.Proofs.Heap.Shape

namespace SegregatedFit

namespace Heap

variable {σ : Type} [Source σ] {last : Nat}

/-- Whether a walk through a heap meets the blocks of some cells, one after the other. -/
def ConsistsOf (heap : Heap σ last) (cells : List Cell) : Prop :=
  heap.arena.walk = .ok (Cell.blocks true cells)

/-- Whether the free ones among some parts take the place of a cell in the lists of a heap. -/
def Relists (heap : Heap σ last) (cell : Cell) (parts : List Cell) (after : Heap σ last) : Prop :=
  ∀ bucket, ∃ nodes others,
    (heap.index.lists.get bucket).nodes heap.arena = .ok nodes ∧
      (after.index.lists.get bucket).nodes after.arena = .ok others ∧
      others.Perm ((Index.bucketCells last bucket (parts.filter (! ·.allocated))).map
        Cell.offset ++ nodes.filter (· ≠ cell.offset))

/-- How an allocation of `size` bytes gets to a free cell with other cells in front and behind.
A search finds it in the heap as it is. If nothing is found, the heap grows once: the new bytes
make up the last cell, together with the last cell so far if that is free. No other free cell is
large enough, and another search would find this one. -/
inductive Offers (heap : Heap σ last) (size : Nat) :
    List Cell → Cell → List Cell → Heap σ last → Prop
  | found {front back : List Cell} {cell : Cell}
      (search : heap.index.find heap.arena size = .ok (some cell.offset)) :
    Offers heap size front cell back heap
  | grown {front : List Cell} {cell : Cell} {after : Heap σ last} {trailing : Option Cell}
      (search : heap.index.find heap.arena size = .ok none)
      (extended : extend size heap = .ok (.ok cell.offset) after)
      (walk : heap.ConsistsOf (front ++ trailing.toList))
      (free : ∀ other ∈ trailing, other.allocated = false)
      (ends : Cell.lastAllocated true front = true)
      (joins : cell = Cell.join trailing
        ⟨heap.size, max size heap.config.chunkSize, false⟩ none)
      (alone : ∀ other ∈ front, other.allocated = false → other.size < size)
      (nodes : heap.Relists cell [cell] after)
      (again : after.index.find after.arena size = .ok (some cell.offset))
      (settings : after.config = heap.config) :
    Offers heap size front cell [] after

/-- Whether a heap becomes another when `size` bytes are cut from a free cell: the cell gives way
to its parts on the walk and in the lists, and the pointer names the allocated part. -/
structure CutsTo (heap : Heap σ last) (size : Nat) (front : List Cell) (cell : Cell)
    (back : List Cell) (pointer : Pointer) (after : Heap σ last) : Prop where
  free : cell.allocated = false
  fits : size ≤ cell.size
  origin : heap.ConsistsOf (front ++ cell :: back)
  result : after.ConsistsOf (front ++ cell.parts heap.config.splitThreshold size ++ back)
  named : pointer.offset = (cell.used heap.config.splitThreshold size).offset
  nodes : heap.Relists cell (cell.parts heap.config.splitThreshold size) after

variable {heap after : Heap σ last} {request : Nat} {pointer : Pointer}

/-- An allocation that succeeds finds a block or adds one, and cuts it. -/
theorem exists_place_of_allocate (allocated : allocate request heap = .ok (.ok pointer) after) :
    ∃ size block grown, blockSize? request = some size ∧
      findOrExtend size heap = .ok (.ok block) grown ∧
      place block size grown = .ok pointer.offset after := by
  unfold allocate at allocated
  by_cases empty : request = 0
  · rw [if_pos empty] at allocated
    cases (Action.pure_eq_ok_iff.mp allocated).1
  · rw [if_neg empty] at allocated
    cases needed : blockSize? request with
    | none =>
      rw [needed] at allocated
      obtain ⟨_, _, _, refused⟩ := Action.bind_eq_ok_iff.mp allocated
      cases (Action.pure_eq_ok_iff.mp refused).1
    | some size =>
      rw [needed] at allocated
      obtain ⟨outcome, grown, chosen, allocated⟩ := Action.bind_eq_ok_iff.mp allocated
      cases outcome with
      | error refusal => cases (Action.pure_eq_ok_iff.mp allocated).1
      | ok block =>
        obtain ⟨offset, between, placed, allocated⟩ := Action.bind_eq_ok_iff.mp allocated
        obtain ⟨named, lifted, same⟩ := Action.bind_pure_eq_ok_iff.mp allocated
        cases same
        obtain ⟨found, rfl⟩ := Action.lift_eq_ok_iff.mp lifted
        rw [← Pointer.ofBlock_eq_ok_iff.mp found] at placed
        exact ⟨size, block, grown, rfl, chosen, placed⟩

end Heap

namespace Chart

variable {σ : Type} [Source σ] {last : Nat} {chart between : Chart} {heap grown after : Heap σ last}
variable {front back : List Cell} {cell : Cell} {request size : Nat} {pointer : Pointer}

/-- What happens on the way when an allocation succeeds: a heap in between has the cell that is
cut, which is put in front of the cells of its size. -/
structure Places (chart : Chart) (heap : Heap σ last) (size : Nat) (cell : Cell)
    (between : Chart) (grown : Heap σ last) (pointer : Pointer) (after : Heap σ last) : Prop where
  chosen : chart.findOrExtend size = (.ok cell, between)
  found : Heap.findOrExtend size heap = .ok (.ok cell.offset) grown
  described : between.Describes grown
  placed : (between.place cell size).Describes after
  named : pointer.offset = (cell.used between.setting.config.splitThreshold size).offset
  alters : Arena.Alters (Arena.UpdateBytes cell between.order) grown.arena after.arena

/-- An allocation that succeeds in a described heap cuts a cell. -/
theorem Describes.exists_places (describes : chart.Describes heap)
    (allocated : Heap.allocate request heap = .ok (.ok pointer) after) :
    ∃ size cell between grown, blockSize? request = some size ∧
      chart.Places heap size cell between grown pointer after := by
  obtain ⟨size, block, grown, needed, found, placed⟩ := Heap.exists_place_of_allocate allocated
  obtain ⟨_, _, whole, large, _⟩ := blockSize?_eq_some_iff.mp needed
  obtain ⟨answered, described, _⟩ := (describes.yields_findOrExtend size).of_eq_ok found
  cases chosen : chart.findOrExtend size with
  | mk outcome between =>
    rw [chosen] at answered described
    cases outcome with
    | error refusal => cases answered
    | ok cell =>
      obtain rfl : block = cell.offset := Except.ok.inj answered
      obtain ⟨member, fits, _⟩ := findOrExtend_eq_ok chosen
      obtain ⟨named, cut, alters⟩ :=
        (described.yields_place member whole large fits).of_eq_ok placed
      exact ⟨size, cell, between, grown, needed, chosen, found, described, cut, named, alters⟩

/-! ### The lists of a heap -/

theorem foldr_insertInto_perm (parts order : List Cell) :
    (parts.foldr Cell.insertInto order).Perm (parts ++ order) := by
  induction parts with
  | nil => exact List.Perm.refl _
  | cons part rest inductionHypothesis =>
    exact (Cell.insertInto_perm part _).trans (inductionHypothesis.cons part)

/-- The cells outside of a range are those with another offset, if each of the others begins
where the range does. -/
theorem without_eq_filter {range : Cell} {cells : List Cell} (large : 0 < range.size)
    (sides : ∀ other ∈ cells, 0 < other.size ∧ (other.offset = range.offset ∨
      other.next ≤ range.offset ∨ range.next ≤ other.offset)) :
    range.without cells = cells.filter (·.offset ≠ range.offset) := by
  refine List.filter_congr fun other found => decide_eq_decide.mpr ?_
  obtain ⟨otherLarge, sides⟩ := sides other found
  unfold Cell.next at sides ⊢
  omega

/-- The lists follow the order when parts take the place of some cells there. -/
theorem Describes.exists_nodes_perm (describes : chart.Describes heap)
    (described : between.Describes after) (parts : List Cell) (kept : Nat → Bool)
    (outside : cell.without chart.order = chart.order.filter (kept ·.offset))
    (order : between.order =
      (parts.filter (! ·.allocated)).foldr Cell.insertInto (cell.without chart.order))
    (bucket : Fin (last + 1)) :
    ∃ nodes others, (heap.index.lists.get bucket).nodes heap.arena = .ok nodes ∧
      (after.index.lists.get bucket).nodes after.arena = .ok others ∧
      others.Perm ((Index.bucketCells last bucket (parts.filter (! ·.allocated))).map
        Cell.offset ++ nodes.filter kept) := by
  refine ⟨_, _, (describes.holds bucket).1.nodes_eq, (described.holds bucket).1.nodes_eq, ?_⟩
  have stays : (Index.bucketCells last bucket (cell.without chart.order)).map Cell.offset =
      ((Index.bucketCells last bucket chart.order).map Cell.offset).filter kept := by
    rw [outside, List.filter_map]
    simp only [Index.bucketCells, List.filter_filter]
    exact congrArg _ (List.filter_congr fun other _ => Bool.and_comm _ _)
  have cut := ((foldr_insertInto_perm (parts.filter (! ·.allocated))
    (cell.without chart.order)).filter fun part => bucketFor last part.size = bucket).map
      Cell.offset
  rw [List.filter_append, List.map_append] at cut
  rw [order]
  exact stays ▸ cut

/-- The lists follow the order when parts take the place of a cell there. -/
theorem Describes.relists {parts : List Cell} (describes : chart.Describes heap)
    (described : between.Describes after)
    (outside : cell.without chart.order = chart.order.filter (·.offset ≠ cell.offset))
    (order : between.order =
      (parts.filter (! ·.allocated)).foldr Cell.insertInto (cell.without chart.order)) :
    heap.Relists cell parts after :=
  describes.exists_nodes_perm described parts (· ≠ cell.offset) outside order

/-- A free cell gives way to its parts in the lists. -/
theorem Describes.relists_place (describes : chart.Describes heap)
    (placed : (chart.place cell size).Describes after) (member : cell ∈ chart.order) :
    heap.Relists cell (cell.parts chart.setting.config.splitThreshold size) after := by
  obtain ⟨inCells, _⟩ := describes.closed.free cell member
  obtain ⟨_, _, _, large⟩ := describes.tiles.bounds inCells
  refine describes.relists placed (without_eq_filter (by omega) fun other found => ?_) rfl
  obtain ⟨otherInCells, _⟩ := describes.closed.free other found
  obtain ⟨_, _, _, otherLarge⟩ := describes.tiles.bounds otherInCells
  refine ⟨by omega, (describes.tiles.apart otherInCells inCells).imp_left ?_⟩
  rintro rfl
  rfl

/-- The cell at the end of a heap that grows takes the place of the last one, if that is free. -/
theorem Describes.relists_extend (describes : chart.Describes heap)
    (described : between.Describes after) (extended : chart.extend size = (.ok cell, between)) :
    heap.Relists cell [cell] after := by
  obtain ⟨growth, start, stop, rounded, joins, rfl, rfl⟩ :=
    describes.exists_joins_of_extend extended
  obtain ⟨_, _, least, _⟩ := alignUp?_eq_some_iff.mp rounded
  have chunks := describes.growing.chunks
  have lowBound : _ ≤ chart.setting.size := joins.lowBound
  have highBound : chart.setting.size + growth ≤ _ := joins.highBound
  unfold Cell.next at highBound
  refine describes.relists described (without_eq_filter (by omega) fun other found => ?_)
    (congrArg Chart.order joins.freeEq)
  obtain ⟨inCells, _⟩ := describes.closed.free other found
  obtain ⟨_, _, _, large⟩ := describes.tiles.bounds inCells
  rw [List.nil_append, joins.frontEq] at inCells
  refine ⟨by omega, ?_⟩
  rcases List.mem_append.mp inCells with inStart | trailing
  · exact Or.inr (Or.inl (joins.startTiles.bounds inStart).2.1)
  · rw [joins.joinedEq, Option.mem_toList.mp trailing]
    exact Or.inl rfl

/-! ### The cell that an allocation cuts -/

/-- A search for more than the other cells have finds the cell that was put in. -/
theorem find?_insertInto {order : List Cell} (smaller : ∀ other ∈ order, other.size < size)
    (fits : size ≤ cell.size) :
    (cell.insertInto order).find? (size ≤ ·.size) = some cell := by
  refine List.find?_eq_some_iff_append.mpr ⟨decide_eq_true fits, _, _, rfl, fun other member => ?_⟩
  simpa using smaller other (List.mem_filter.mp member).1

/-- The cell that an allocation cuts is offered by a search or by growth. -/
theorem Describes.exists_offers (describes : chart.Describes heap) {config : Config}
    (normalization : config.normalized? = some chart.setting.config) (whole : size % 16 = 0)
    (small : size < wordLimit) (places : chart.Places heap size cell between grown pointer after) :
    ∃ front back, between.cells = front ++ cell :: back ∧
      heap.Offers size front cell back grown := by
  have search := describes.find_eq_ok size
  have found := places.found
  have chosen := places.chosen
  unfold findOrExtend at chosen
  cases first : chart.order.find? (size ≤ ·.size) with
  | some other =>
    rw [first] at chosen search
    cases chosen
    cases (Heap.findOrExtend_of_found search).symm.trans found
    have member := (describes.closed.free cell (List.mem_of_find?_eq_some first)).1
    obtain ⟨front, back, split⟩ := List.append_of_mem member
    exact ⟨front, back, split, .found search⟩
  | none =>
    rw [first] at chosen search
    -- All cells in the order are too small, so the one that growth adds is the only one that fits.
    rw [Heap.findOrExtend_of_missing search] at found
    have nodes := describes.relists_extend places.described chosen
    obtain ⟨growth, start, stop, rounded, joins, rfl, rfl⟩ :=
      describes.exists_joins_of_extend chosen
    rw [Config.alignUp?_max_chunkSize normalization whole small] at rounded
    obtain rfl := Option.some.inj rounded
    have stopEq : stop = [] := joins.backEq.symm
    subst stopEq
    have walk : heap.ConsistsOf (start ++ (Cell.freeLast? chart.cells).toList) := by
      rw [← joins.frontEq]
      exact describes.walk_eq_ok
    have size_eq : heap.size = chart.setting.size := describes.size_eq
    refine ⟨start, [], congrArg Chart.cells joins.freeEq, .grown search found walk
      (fun other trailing => Cell.free_of_freeLast? trailing) joins.startAllocated ?_ ?_ nodes ?_
      (places.described.config_eq.trans describes.config_eq.symm)⟩
    · rw [joins.joinedEq, describes.config_eq, size_eq]
      rfl
    · intro other member free
      have inCells : other ∈ chart.cells := by
        rw [joins.frontEq]
        exact List.mem_append_left _ member
      have missing := List.find?_eq_none.mp first other (describes.indexed other inCells free)
      simpa using missing
    · have smaller (other : Cell) (member : other ∈ chart.order) : other.size < size := by
        simpa using List.find?_eq_none.mp first other member
      rw [places.described.find_eq_ok size, joins.freeEq,
        find?_insertInto (fun other kept => smaller other (Cell.mem_without.mp kept).1)
          (findOrExtend_eq_ok places.chosen).2.1]
      rfl

/-- The cell that an allocation cuts gives way to its parts. -/
theorem Places.cutsTo (places : chart.Places heap size cell between grown pointer after)
    (split : between.cells = front ++ cell :: back) :
    grown.CutsTo size front cell back pointer after := by
  obtain ⟨member, fits, _⟩ := findOrExtend_eq_ok places.chosen
  have described := places.described
  have result := places.placed.walk_eq_ok
  rw [place, replace_eq between _ (described.splits split rfl rfl)] at result
  refine ⟨(described.closed.free cell member).2, fits, ?_, ?_, ?_, ?_⟩
  · rw [Heap.ConsistsOf, ← split]
    exact described.walk_eq_ok
  · rw [described.config_eq]
    exact result
  · rw [described.config_eq]
    exact places.named
  · rw [described.config_eq]
    exact described.relists_place places.placed member

end Chart

/-- At every moment of a history, an allocation that succeeds cuts one free block, which a search
finds or which growth adds at the end. On the walk through the heap the block gives way to its
parts: to one allocated block if less than 32 bytes are left over, and else to an allocated block
and a free one behind it, or in front of it from the threshold on. In the lists it gives way to
the free part, if there is one; and no other block changes. -/
theorem History.allocation_cuts_one_block {σ : Type} [Source σ] {last : Nat} {source : σ}
    {config : Config} {past : List (Call × Reply)} {heap after : Heap σ last}
    {leases : List Lease} {request : Nat} {pointer : Pointer}
    (history : History source config past heap leases)
    (allocated : Heap.allocate request heap = .ok (.ok pointer) after) :
    config.normalized? = some heap.config ∧ ∃ size front cell back grown,
      blockSize? request = some size ∧ heap.Offers size front cell back grown ∧
        grown.CutsTo size front cell back pointer after := by
  obtain ⟨chart, describes, _, normalization⟩ := history.exists_normalized_chart
  obtain ⟨size, cell, between, grown, needed, places⟩ := describes.exists_places allocated
  obtain ⟨_, small, whole, _⟩ := blockSize?_eq_some_iff.mp needed
  obtain ⟨front, back, split, offers⟩ := describes.exists_offers normalization whole small places
  exact ⟨describes.config_eq ▸ normalization, size, front, cell, back, grown, needed, offers,
    places.cutsTo split⟩

/-- The first allocation of a client takes 64 bytes from the high end of the only free block. -/
theorem History.allocation_cuts_one_block_high :
    ∃ (session : Session Buffer 1) (pointer : Pointer) (after : Heap Buffer 1),
      Session.replay? (Buffer.ofMaximum 512) ⟨32, 144, 48⟩ [] = some session ∧
        Heap.allocate 56 session.heap = .ok (.ok pointer) after ∧ pointer.offset = 112 ∧
        ∃ front cell back grown, session.heap.Offers 64 front cell back grown ∧
          grown.CutsTo 64 front cell back pointer after := by
  have answered : (Session.replay? (Buffer.ofMaximum 512) ⟨32, 144, 48⟩ [] :
      Option (Session Buffer 1)).map (fun session =>
        ((Heap.allocate 56).run' session.heap).map (·.map Pointer.offset)) =
          some (some (.ok 112)) := by
    decide +kernel
  obtain ⟨session, replayed, named⟩ := Option.map_eq_some_iff.mp answered
  obtain ⟨answer, after, allocated, offset_eq⟩ := Action.exists_of_map_run named
  cases answer with
  | error refusal => cases offset_eq
  | ok pointer =>
    obtain ⟨_, size, front, cell, back, grown, needed, offers, cuts⟩ :=
      History.allocation_cuts_one_block (Session.history_of_replay? replayed) allocated
    obtain rfl : size = 64 := Option.some.inj (needed.symm.trans (by decide))
    exact ⟨session, pointer, after, replayed, allocated, Except.ok.inj offset_eq, front, cell,
      back, grown, offers, cuts⟩

end SegregatedFit
