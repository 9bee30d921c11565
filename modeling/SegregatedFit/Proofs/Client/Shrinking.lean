/-
This file proves that a block which was cut down gets its old bytes back when it is enlarged
again. The tail that was cut off is free, together with a free block behind it, and lies right
behind what is left; so the block grows in place, takes all of that in, and is cut where it ended
before.
-/

import SegregatedFit.Proofs.Client.Layout
import SegregatedFit.Proofs.Client.Resizing

namespace SegregatedFit

/-- The payload of a block is a request for a block of the same size. -/
theorem blockSize?_payload {size : Nat} (small : size < wordLimit) (whole : size % 16 = 0)
    (large : 32 ≤ size) : blockSize? (size - 8) = some size :=
  blockSize?_eq_some_iff.mpr ⟨by omega, small, whole, large, by omega, by omega⟩

/-- Whether two heaps have the same blocks, the same free blocks in their lists, and arenas that
grew equally often to the same size. -/
structure Heap.SameBlocks {σ : Type} [Source σ] {last : Nat} (heap twin : Heap σ last) :
    Prop where
  walk : heap.SameWalk twin
  nodes : heap.SameNodes twin
  size_eq : twin.size = heap.size
  growths_eq : twin.arena.growths = heap.arena.growths

namespace Chart

variable {σ : Type} [Source σ] {last : Nat} {chart : Chart} {heap shrunk after : Heap σ last}
variable {front back : List Cell} {cell : Cell} {follower : Option Cell}
variable {request size : Nat} {pointer : Pointer} {answer : Option Pointer}

theorem Describes.sameBlocks {next : Chart} (describes : chart.Describes heap)
    (described : next.Describes after) (cells : chart.cells = next.cells)
    (setting : next.setting = chart.setting) : heap.SameBlocks after where
  walk := describes.sameWalk described cells
  nodes := describes.sameNodes described cells
  size_eq := (describes.size_growths_eq described setting).1
  growths_eq := (describes.size_growths_eq described setting).2

theorem trim_of_tight (tight : cell.size - size < 32) : chart.trim cell size = chart :=
  if_neg (Nat.not_le_of_lt tight)

/-- A free cell behind an allocated one begins where that ends. -/
theorem Describes.follower_eq {next : Cell} (describes : chart.Describes heap)
    (locates : chart.Locates front cell (some next) back) :
    32 ≤ next.size ∧ (⟨cell.offset + cell.size, next.size, false⟩ : Cell) = next := by
  have tiles := describes.tiles
  rw [locates.split] at tiles
  obtain ⟨_, _, rfl, _, begins, ⟨_, large⟩, _⟩ := Cell.tiles_append.mp tiles
  have free := Cell.free_of_freeHead? locates.follows
  refine ⟨large, ?_⟩
  rw [← free]
  exact congrArg (Cell.mk · next.size next.allocated) begins.symm

/-- What is left of a cell that was cut down, with the rest behind it. -/
theorem Describes.locates_trim (describes : chart.Describes heap)
    (locates : chart.Locates front cell follower back) (whole : size % 16 = 0)
    (large : 32 ≤ size) (loose : 32 ≤ cell.size - size) :
    (chart.trim cell size).Locates front ⟨cell.offset, size, true⟩
      (some ⟨cell.offset + size, cell.size - size + follower.elim 0 (·.size), false⟩) back where
  split := describes.cells_trim locates.split locates.follows whole large loose
  follows := by simp
  allocated := rfl

/-- A cell that was cut down, takes the rest in and is cut where it ended before lies among the
same cells again. -/
theorem Describes.cells_absorb_trim (describes : chart.Describes heap)
    (described : (chart.trim cell size).Describes shrunk)
    (locates : chart.Locates front cell follower back) (whole : size % 16 = 0)
    (large : 32 ≤ size) (loose : 32 ≤ cell.size - size) :
    ((chart.trim cell size).absorb ⟨cell.offset, size, true⟩ cell.size).cells = chart.cells := by
  obtain ⟨_, _, cellWhole, cellLarge⟩ := describes.tiles.bounds locates.owns.1
  obtain ⟨room, noRoom⟩ := described.cells_absorb
    (describes.locates_trim locates whole large loose).split rfl rfl cellWhole cellLarge
  have same : (⟨cell.offset, cell.size, true⟩ : Cell) = cell := by rw [← locates.allocated]
  cases follower with
  | none =>
    have sum : size + (cell.size - size + 0) = cell.size := by omega
    simp only [Option.elim_none, sum] at noRoom
    rw [noRoom (by omega), locates.split, same]
    rfl
  | some next =>
    obtain ⟨nextLarge, next_eq⟩ := describes.follower_eq locates
    have sum : size + (cell.size - size + next.size) - cell.size = next.size := by omega
    simp only [Option.elim_some, sum] at room
    rw [room nextLarge, locates.split, same, next_eq]
    rfl

/-- A cut down cell grows in place to the size that it had, and all cells are as before. -/
theorem Describes.sameBlocks_of_regrown (describes : chart.Describes heap)
    (described : (chart.trim cell size).Describes shrunk)
    (locates : chart.Locates front cell follower back) (named : pointer.offset = cell.offset)
    (whole : size % 16 = 0) (large : 32 ≤ size) (fits : size ≤ cell.size)
    (needed : blockSize? request = some cell.size) :
    Heap.Yields shrunk (Heap.resizeBlock? pointer request) fun answer after =>
      answer = some pointer ∧ heap.SameBlocks after := by
  have stays (answer : Option Pointer) (kept : answer.map Pointer.offset = some cell.offset) :
      answer = some pointer :=
    Pointer.eq_of_map_offset_eq (kept.trans (congrArg some named.symm))
  by_cases loose : 32 ≤ cell.size - size
  · have trimmed := describes.locates_trim locates whole large loose
    have made : (chart.trim cell size).reserve? ⟨cell.offset, size, true⟩ cell.size =
        some (chart.trim cell size) :=
      reserve?_of_enough (described.size_enlarged trimmed).1 (by
        simp only [Cell.extent, Option.elim_some]
        omega)
    have short : size < cell.size := by omega
    refine (described.yields_resizeBlock? trimmed.owns pointer named).mono ?_
    rw [resize_of_reserved needed short made]
    rintro answer after ⟨answered, restored, _⟩
    refine ⟨stays answer answered, describes.sameBlocks restored ?_ ?_⟩
    · exact (describes.cells_absorb_trim described locates whole large loose).symm
    · rw [setting_absorb, setting_trim]
  · rw [trim_of_tight (by omega)] at described
    refine (described.yields_resizeBlock? locates.owns pointer named).mono ?_
    rw [resize_of_fits needed (Nat.le_refl _), trim_of_tight (by omega)]
    rintro answer after ⟨answered, restored, _⟩
    exact ⟨stays answer answered, describes.sameBlocks restored rfl rfl⟩

end Chart

/-- At every moment of a history, a live block that is cut down to any smaller size and then gets
its old size back stays in its place all the time. The arena does not grow, and afterwards the
heap has the same blocks as before, with the same tags, and the same free blocks in each of its
lists. -/
theorem History.growing_back_undoes_shrinking {σ : Type} [Source σ] {last : Nat} {source : σ}
    {config : Config} {past : List (Call × Reply)} {heap : Heap σ last} {leases : List Lease}
    {lease : Lease} (history : History source config past heap leases) (live : lease ∈ leases) :
    ∃ tag, heap.arena.header lease.pointer.offset = .ok tag ∧
      ∀ request size, blockSize? request = some size → size ≤ tag.size →
        ∃ shrunk restored,
          Heap.resize? (some lease.pointer) request heap = .ok (some lease.pointer) shrunk ∧
            shrunk.size = heap.size ∧ shrunk.arena.growths = heap.arena.growths ∧
            Heap.resize? (some lease.pointer) (tag.size - 8) shrunk =
              .ok (some lease.pointer) restored ∧
            heap.SameBlocks restored := by
  obtain ⟨chart, describes, serves⟩ := history.exists_chart
  obtain ⟨cell, owns, place, _⟩ := serves.backed lease live
  obtain ⟨front, follower, back, locates⟩ := describes.exists_locates owns
  obtain ⟨flag, shown⟩ := Heap.Opened.exists_shows describes.closed
    (List.mem_append_right [] owns.1)
  obtain ⟨_, ends, regular⟩ := describes.tiles.bounds owns.1
  refine ⟨cell.tag flag, place ▸ Arena.header_eq_ok_iff.mpr shown.header,
    fun request size needed fits => ?_⟩
  rw [Cell.size_tag regular] at fits ⊢
  obtain ⟨seeks, _, whole, large, _⟩ := blockSize?_eq_some_iff.mp needed
  have limit := heap.arena.size_lt
  rw [describes.size_eq] at limit
  have small : cell.size < wordLimit := by
    unfold Cell.next at ends
    omega
  have old := blockSize?_payload small regular.1 regular.2
  obtain ⟨answer, shrunk, cutDown, _, answered, described, _⟩ :
      Heap.Yields heap (Heap.resizeBlock? lease.pointer request) _ :=
    describes.yields_resizeBlock? owns lease.pointer place.symm
  rw [Chart.resize_of_fits needed fits] at answered described
  obtain rfl : answer = some lease.pointer :=
    Pointer.eq_of_map_offset_eq (answered.trans (congrArg some place))
  obtain ⟨_, restored, regrown, _, rfl, same⟩ :=
    describes.sameBlocks_of_regrown described locates place.symm whole large fits old
  obtain ⟨size_eq, growths_eq⟩ :=
    describes.size_growths_eq described (chart.setting_trim cell size)
  refine ⟨shrunk, restored, ?_, size_eq, growths_eq, ?_, same⟩
  · rw [Heap.resize?, if_neg (Nat.ne_of_gt seeks)]
    exact cutDown
  · rw [Heap.resize?, if_neg (show ¬ cell.size - 8 = 0 by have := regular.2; omega)]
    exact regrown

/-- A client has a moved block cut down, which releases a tail at the end of the arena, and gets
the 72 bytes of its payload back. -/
theorem History.growing_back_undoes_shrinking_moving :
    ∃ (session : Session Buffer 1) (pointer : Pointer) (shrunk restored : Heap Buffer 1),
      Session.replay? (Buffer.ofMaximum 512) ⟨32, 64, 48⟩ Session.moving = some session ∧
        session.leases = [⟨pointer, 60⟩, ⟨⟨64, by decide⟩, 24⟩] ∧
        Heap.resize? (some pointer) 40 session.heap = .ok (some pointer) shrunk ∧
        shrunk.size = session.heap.size ∧
        Heap.resize? (some pointer) 72 shrunk = .ok (some pointer) restored ∧
        session.heap.SameBlocks restored := by
  have answered : (Session.replay? (Buffer.ofMaximum 512) ⟨32, 64, 48⟩ Session.moving :
      Option (Session Buffer 1)).map (fun session => (session.leases,
        (session.heap.arena.header 96).toOption.map Tag.size)) =
          some ([⟨⟨96, by decide⟩, 60⟩, ⟨⟨64, by decide⟩, 24⟩], some 80) := by
    decide +kernel
  obtain ⟨session, replayed, both⟩ := Option.map_eq_some_iff.mp answered
  obtain ⟨leases, sized⟩ := Prod.mk.inj both
  have live : (⟨⟨96, by decide⟩, 60⟩ : Lease) ∈ session.leases := by
    rw [leases]
    exact List.mem_cons_self
  obtain ⟨tag, header, resizes⟩ :=
    History.growing_back_undoes_shrinking (Session.history_of_replay? replayed) live
  rw [header] at sized
  have large : tag.size = 80 := Option.some.inj sized
  obtain ⟨shrunk, restored, cutDown, size_eq, _, regrown, same⟩ :=
    resizes 40 48 (by decide) (by omega)
  rw [large] at regrown
  exact ⟨session, _, shrunk, restored, replayed, leases, cutDown, size_eq, regrown, same⟩

end SegregatedFit
