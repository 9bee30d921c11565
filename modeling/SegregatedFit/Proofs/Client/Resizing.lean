/-
This file proves what a resize does to a live block. The size of the block, the block behind it,
the end of the arena and the source decide which way it goes. Where the block stays, what is left
of the bytes that it has taken is one free block; where it moves, it is released.
-/

import SegregatedFit.Proofs.Client.Noninterference
import SegregatedFit.Proofs.Client.Placement

namespace SegregatedFit

/-- The bytes of a cell and of the free cell behind it, if there is one. -/
def Cell.extent (cell : Cell) (follower : Option Cell) : Nat :=
  cell.size + follower.elim 0 (·.size)

namespace Heap

variable {σ : Type} [Source σ] {last : Nat}

/-- Where a live block lies in a heap: with some cells in front of it, and behind it a free cell,
if there is one right there, and the other cells. -/
structure Locates (heap : Heap σ last) (pointer : Pointer) (front : List Cell) (cell : Cell)
    (follower : Option Cell) (back : List Cell) : Prop where
  walk : heap.ConsistsOf (front ++ cell :: (follower.toList ++ back))
  named : pointer.offset = cell.offset
  live : cell.allocated = true
  follows : Cell.freeHead? (follower.toList ++ back) = follower

/-- Whether an allocated block of `total` bytes, with a free cell behind it or not, was cut down to
`size` bytes. If the rest cannot be a block of its own, nothing is cut off; and else the rest is
one free block, together with the free cell behind. -/
structure TrimmedTo (after : Heap σ last) (front : List Cell) (offset total size : Nat)
    (follower : Option Cell) (back : List Cell) : Prop where
  fits : size ≤ total
  loose : 32 ≤ total - size → after.ConsistsOf (front ++ ⟨offset, size, true⟩ ::
    ⟨offset + size, total - size + follower.elim 0 (·.size), false⟩ :: back)
  tight : total - size < 32 → (total = size ∨ total = size + 16) ∧
    after.ConsistsOf (front ++ ⟨offset, total, true⟩ :: (follower.toList ++ back))

/-- Whether a block that should get `size` bytes cannot stay: they are more than it has together
with the free cell behind it, and if it could grow at the end, the source refuses what is
missing. -/
structure Hinders (heap : Heap σ last) (chunk size : Nat) (cell : Cell)
    (follower : Option Cell) : Prop where
  scarce : cell.extent follower < size
  refused : cell.offset + cell.extent follower = heap.arena.epilogue → ∃ refusal,
    (Source.request heap.arena.source (max (size - cell.extent follower) chunk)).1 =
      .error refusal

/-- The ways a resize of a live block goes, for a heap that grows by chunks of `chunk` bytes. -/
inductive ResizesTo (heap : Heap σ last) (chunk request : Nat) (pointer : Pointer)
    (front : List Cell) (cell : Cell) (follower : Option Cell) (back : List Cell) :
    Option Pointer → Heap σ last → Prop
  | overflows (overflow : blockSize? request = none) :
    ResizesTo heap chunk request pointer front cell follower back none heap
  | shrinks {after : Heap σ last} {size : Nat} (needed : blockSize? request = some size)
      (size_eq : after.size = heap.size) (growths_eq : after.arena.growths = heap.arena.growths)
      (trimmed : after.TrimmedTo front cell.offset cell.size size follower back) :
    ResizesTo heap chunk request pointer front cell follower back (some pointer) after
  | absorbs {after : Heap σ last} {size : Nat} (needed : blockSize? request = some size)
      (short : cell.size < size) (size_eq : after.size = heap.size)
      (growths_eq : after.arena.growths = heap.arena.growths)
      (trimmed : after.TrimmedTo front cell.offset (cell.extent follower) size none back) :
    ResizesTo heap chunk request pointer front cell follower back (some pointer) after
  | grows {after : Heap σ last} {size growth offset : Nat}
      (needed : blockSize? request = some size) (scarce : cell.extent follower < size)
      (ends : cell.offset + cell.extent follower = heap.arena.epilogue)
      (growth_eq : growth = max (size - cell.extent follower) chunk)
      (granted : (Source.request heap.arena.source growth).1 = .ok offset)
      (size_eq : after.size = heap.size + growth)
      (growths_eq : after.arena.growths = heap.arena.growths + 1) (alone : back = [])
      (trimmed : after.TrimmedTo front cell.offset (cell.extent follower + growth) size none []) :
    ResizesTo heap chunk request pointer front cell follower back (some pointer) after
  | stays {size : Nat} (needed : blockSize? request = some size)
      (hinders : heap.Hinders chunk size cell follower)
      (refused : allocate? request heap = .ok none heap) :
    ResizesTo heap chunk request pointer front cell follower back none heap
  | moves {between released after : Heap σ last} {size : Nat} {target : Pointer}
      (needed : blockSize? request = some size)
      (hinders : heap.Hinders chunk size cell follower)
      (allocated : allocate? request heap = .ok (some target) between)
      (different : target ≠ pointer) (frees : release pointer between = .ok () released)
      (books : after.SameBooks released) :
    ResizesTo heap chunk request pointer front cell follower back (some target) after

end Heap

namespace Chart

/-! ### The paths of a resize -/

section Paths

variable {chart reserved : Chart} {cell : Cell} {request size extent : Nat}

theorem resize_of_fits (needed : blockSize? request = some size) (fits : size ≤ cell.size) :
    chart.resize cell request = (some cell.offset, chart.trim cell size) := by
  simp only [resize, needed, if_pos fits]

theorem resize_of_reserved (needed : blockSize? request = some size) (short : cell.size < size)
    (made : chart.reserve? cell size = some reserved) :
    chart.resize cell request = (some cell.offset, reserved.absorb cell size) := by
  simp only [resize, needed, if_neg (Nat.not_le_of_lt short), made]

/-- A cell that cannot stay moves, if it gets another one, and stays as it is if not. -/
theorem resize_of_hindered (needed : blockSize? request = some size) (short : cell.size < size)
    (hindered : chart.reserve? cell size = none) :
    chart.resize cell request = ((chart.allocate request).1.toOption,
      if (chart.allocate request).1.isOk then (chart.allocate request).2.free cell else chart) := by
  simp only [resize, needed, if_neg (Nat.not_le_of_lt short), hindered]
  cases result : chart.allocate request with
  | mk outcome after =>
    cases outcome with
    | error refusal =>
      obtain rfl := allocate_eq_error result
      rfl
    | ok offset => rfl

theorem reserve?_of_enough (enlarged : (chart.enlarged cell).size = extent)
    (enough : size ≤ extent) : chart.reserve? cell size = some chart := by
  rw [reserve?, enlarged, if_pos enough]

theorem reserve?_of_extend {range : Cell} (enlarged : (chart.enlarged cell).size = extent)
    (scarce : extent < size) (ends : (chart.enlarged cell).next = chart.setting.size)
    (extended : chart.extend (size - extent) = (.ok range, reserved)) :
    chart.reserve? cell size = some reserved := by
  rw [reserve?, enlarged, if_neg (Nat.not_le_of_lt scarce), if_pos ends, extended]

theorem reserve?_of_refused (enlarged : (chart.enlarged cell).size = extent)
    (scarce : extent < size)
    (refused : (chart.enlarged cell).next = chart.setting.size →
      ∃ refusal, chart.extend (size - extent) = (.error refusal, chart)) :
    chart.reserve? cell size = none := by
  rw [reserve?, enlarged, if_neg (Nat.not_le_of_lt scarce)]
  by_cases ends : (chart.enlarged cell).next = chart.setting.size
  · obtain ⟨refusal, extended⟩ := refused ends
    rw [if_pos ends, extended]
  · rw [if_neg ends]

end Paths

/-- Where an allocated cell lies in a chart, with the free cell right behind it, if there is
one. -/
structure Locates (chart : Chart) (front : List Cell) (cell : Cell) (follower : Option Cell)
    (back : List Cell) : Prop where
  split : chart.cells = front ++ cell :: (follower.toList ++ back)
  follows : Cell.freeHead? (follower.toList ++ back) = follower
  allocated : cell.allocated = true

variable {σ : Type} [Source σ] {last : Nat} {chart reserved : Chart} {heap after : Heap σ last}
variable {front back : List Cell} {cell next : Cell} {follower : Option Cell}
variable {request size : Nat} {pointer : Pointer} {config : Config}

theorem Locates.owns (locates : chart.Locates front cell follower back) : chart.Owns cell := by
  refine ⟨?_, locates.allocated⟩
  rw [locates.split]
  exact List.mem_append_right _ List.mem_cons_self

/-- Every owned cell lies somewhere. -/
theorem Describes.exists_locates (describes : chart.Describes heap) (owns : chart.Owns cell) :
    ∃ front follower back, chart.Locates front cell follower back := by
  obtain ⟨front, back, split⟩ := List.append_of_mem owns.1
  obtain ⟨stop, backEq, _⟩ := describes.exists_enlarged split
  exact ⟨front, _, stop, backEq ▸ split, congrArg Cell.freeHead? backEq.symm, owns.2⟩

/-- The enlarged cell extends over the free cell behind it, and the other cells begin there. -/
theorem Describes.size_enlarged (describes : chart.Describes heap)
    (locates : chart.Locates front cell follower back) :
    (chart.enlarged cell).size = cell.extent follower ∧
      (chart.enlarged cell).next = cell.offset + cell.extent follower ∧
      Cell.Tiles (cell.offset + cell.extent follower) chart.setting.size back := by
  obtain ⟨stop, backEq, size_eq, tiles⟩ := describes.exists_enlarged locates.split
  rw [locates.follows] at backEq size_eq
  obtain rfl := List.append_cancel_left backEq
  have next_eq : (chart.enlarged cell).next = cell.offset + cell.extent follower :=
    congrArg (cell.offset + ·) size_eq
  exact ⟨size_eq, next_eq, next_eq ▸ tiles⟩

theorem Describes.extent_mod_eq_zero (describes : chart.Describes heap)
    (split : chart.cells = front ++ cell :: (follower.toList ++ back)) :
    cell.extent follower % 16 = 0 := by
  have bounds (other : Cell) (member : other ∈ cell :: (follower.toList ++ back)) :
      other.size % 16 = 0 := by
    refine (describes.tiles.bounds ?_).2.2.1
    rw [split]
    exact List.mem_append_right _ member
  have whole := bounds cell List.mem_cons_self
  unfold Cell.extent
  cases follower with
  | none => exact whole
  | some other =>
    have := bounds other (by simp)
    simp only [Option.elim_some]
    omega

/-! ### The blocks after a resize in place -/

/-- A cell that was cut down is trimmed. -/
theorem Describes.trimmedTo_trim (describes : chart.Describes heap)
    (described : (chart.trim cell size).Describes after)
    (locates : chart.Locates front cell follower back) (whole : size % 16 = 0)
    (large : 32 ≤ size) (fits : size ≤ cell.size) :
    after.TrimmedTo front cell.offset cell.size size follower back where
  fits := fits
  loose room := by
    rw [Heap.ConsistsOf,
      ← describes.cells_trim locates.split locates.follows whole large room]
    exact described.walk_eq_ok
  tight short := by
    have cellWhole := (describes.tiles.bounds locates.owns.1).2.2.1
    have same : (⟨cell.offset, cell.size, true⟩ : Cell) = cell := by rw [← locates.allocated]
    rw [trim, if_neg (Nat.not_le_of_lt short)] at described
    refine ⟨by omega, ?_⟩
    rw [Heap.ConsistsOf, same, ← locates.split]
    exact described.walk_eq_ok

/-- A cell that took the free cell behind it in, and was cut down then, is trimmed. -/
theorem Describes.trimmedTo_absorb (describes : chart.Describes heap)
    (described : (chart.absorb cell size).Describes after)
    (split : chart.cells = front ++ cell :: next :: back) (allocated : cell.allocated = true)
    (nextFree : next.allocated = false) (whole : size % 16 = 0) (large : 32 ≤ size)
    (fits : size ≤ cell.size + next.size) :
    after.TrimmedTo front cell.offset (cell.size + next.size) size none back := by
  have cells := describes.cells_absorb split allocated nextFree whole large
  have joint : chart.cells = front ++ cell :: ((some next).toList ++ back) := split
  have sum_mod : (cell.size + next.size) % 16 = 0 := describes.extent_mod_eq_zero joint
  refine ⟨fits, fun room => ?_, fun short => ⟨by omega, ?_⟩⟩
  · rw [Heap.ConsistsOf, Option.elim_none, Nat.add_zero, ← cells.1 room]
    exact described.walk_eq_ok
  · rw [Heap.ConsistsOf, Option.toList_none, List.nil_append, ← cells.2 short]
    exact described.walk_eq_ok

/-! ### The path that a resize goes -/

/-- A block that is large enough is cut down. -/
theorem Describes.resizesTo_of_fits (describes : chart.Describes heap)
    (described : (chart.trim cell size).Describes after)
    (locates : chart.Locates front cell follower back) (needed : blockSize? request = some size)
    (fits : size ≤ cell.size) (chunk : Nat) :
    heap.ResizesTo chunk request pointer front cell follower back (some pointer) after := by
  obtain ⟨_, _, whole, large, _⟩ := blockSize?_eq_some_iff.mp needed
  obtain ⟨size_eq, growths_eq⟩ :=
    describes.size_growths_eq described (chart.setting_trim cell size)
  exact .shrinks needed size_eq growths_eq
    (describes.trimmedTo_trim described locates whole large fits)

/-- A block that is large enough with the free block behind it takes that in. -/
theorem Describes.resizesTo_of_enough (describes : chart.Describes heap)
    (described : (chart.absorb cell size).Describes after)
    (locates : chart.Locates front cell follower back) (needed : blockSize? request = some size)
    (short : cell.size < size) (enough : size ≤ cell.extent follower) (chunk : Nat) :
    heap.ResizesTo chunk request pointer front cell follower back (some pointer) after := by
  obtain ⟨_, _, whole, large, _⟩ := blockSize?_eq_some_iff.mp needed
  obtain ⟨size_eq, growths_eq⟩ :=
    describes.size_growths_eq described (chart.setting_absorb cell size)
  cases follower with
  | none => exact absurd (Nat.lt_of_lt_of_le short enough) (Nat.lt_irrefl _)
  | some next =>
    exact .absorbs needed short size_eq growths_eq (describes.trimmedTo_absorb described
      locates.split locates.allocated (Cell.free_of_freeHead? locates.follows) whole large enough)

/-- A block at the end grows with the arena. -/
theorem Describes.resizesTo_of_extend (describes : chart.Describes heap) {range : Cell}
    (rounded : alignUp? (max (size - cell.extent follower) chart.setting.config.chunkSize) =
      some (max (size - cell.extent follower) chart.setting.config.chunkSize))
    (room : chart.setting.allows chart.setting.size
      (max (size - cell.extent follower) chart.setting.config.chunkSize))
    (extended : chart.extend (size - cell.extent follower) = (.ok range, reserved))
    (described : (reserved.absorb cell size).Describes after)
    (locates : chart.Locates front cell follower back) (needed : blockSize? request = some size)
    (scarce : cell.extent follower < size)
    (ends : cell.offset + cell.extent follower = chart.setting.size) :
    heap.ResizesTo chart.setting.config.chunkSize request pointer front cell follower back
      (some pointer) after := by
  obtain ⟨_, _, whole, large, _⟩ := blockSize?_eq_some_iff.mp needed
  obtain ⟨_, _, tiles⟩ := describes.size_enlarged locates
  have split := locates.split
  have follows := locates.follows
  rw [ends] at tiles
  -- Nothing lies behind the two cells, so growth leaves one free cell right behind the first.
  obtain rfl := tiles.eq_nil
  obtain ⟨_, one, _, _, _, reservedDescribes, _⟩ :=
    describes.yields_extend (size - cell.extent follower)
  rw [extended] at reservedDescribes
  obtain ⟨other, again, setting, cells, free, range_eq⟩ :=
    describes.cells_extend split locates.allocated (by rw [follows, List.append_nil]) extended
  obtain rfl := Option.some.inj (rounded.symm.trans again)
  rw [follows] at range_eq
  have total : cell.size + range.size = cell.extent follower +
      max (size - cell.extent follower) chart.setting.config.chunkSize := by
    unfold Cell.extent at range_eq ⊢
    omega
  obtain ⟨size_eq, growths_eq⟩ :=
    describes.size_growths_of_grown described ((reserved.setting_absorb cell size).trans setting)
  refine .grows needed scarce (ends.trans describes.size_eq.symm) rfl
    (describes.request_eq_ok room) size_eq growths_eq rfl ?_
  rw [← total]
  exact reservedDescribes.trimmedTo_absorb described cells locates.allocated free whole large
    (by omega)

/-- A block that is too small, even with the free block behind it, cannot stay unless it can grow
at the end. -/
theorem Describes.hinders (describes : chart.Describes heap)
    (locates : chart.Locates front cell follower back)
    (rounded : alignUp? (max (size - cell.extent follower) chart.setting.config.chunkSize) =
      some (max (size - cell.extent follower) chart.setting.config.chunkSize))
    (scarce : cell.extent follower < size)
    (refused : cell.offset + cell.extent follower = chart.setting.size →
      chart.setting.allows chart.setting.size
        (max (size - cell.extent follower) chart.setting.config.chunkSize) = false) :
    chart.reserve? cell size = none ∧
      heap.Hinders chart.setting.config.chunkSize size cell follower := by
  obtain ⟨enlarged, ends_eq, _⟩ := describes.size_enlarged locates
  refine ⟨reserve?_of_refused enlarged scarce fun ends => ?_, scarce, fun ends => ?_⟩
  · exact ⟨_, extend_eq_error_iff.mpr
      ⟨rfl, Or.inr ⟨_, rounded, refused (ends_eq.symm.trans ends), rfl⟩⟩⟩
  · exact ⟨_, describes.request_eq_error (refused (ends.trans describes.size_eq))⟩

/-- A block that cannot stay ends as an allocation does, and is released if that succeeds. -/
theorem Describes.resizesTo_of_hinders (describes : chart.Describes heap) {answer : Option Pointer}
    {chunk : Nat} (hindered : chart.reserve? cell size = none)
    (answered : answer.map Pointer.offset = (chart.resize cell request).1)
    (described : (chart.resize cell request).2.Describes after)
    (unchanged : answer = none → after = heap)
    (locates : chart.Locates front cell follower back) (named : pointer.offset = cell.offset)
    (needed : blockSize? request = some size) (short : cell.size < size)
    (hinders : heap.Hinders chunk size cell follower) :
    heap.ResizesTo chunk request pointer front cell follower back answer after := by
  rw [resize_of_hindered needed short hindered] at answered described
  obtain ⟨granted, between, allocated, _, offset_eq, placed, refused, _⟩ :=
    describes.yields_allocate? request
  obtain rfl := Pointer.eq_of_map_offset_eq (answered.trans offset_eq.symm)
  cases result : chart.allocate request with
  | mk outcome next =>
    rw [result] at answered described placed refused
    cases outcome with
    | error refusal =>
      obtain rfl : answer = none := Option.map_eq_none_iff.mp answered
      obtain rfl := unchanged rfl
      obtain rfl := refused rfl
      exact .stays needed hinders allocated
    | ok offset =>
      obtain ⟨target, rfl, rfl⟩ := Option.map_eq_some_iff.mp answered
      obtain ⟨other, place_eq, _, suits, apart, owned⟩ := describes.owns_allocate result
      have enough := suits.enough
      have owns := (owned cell).mpr (Or.inr locates.owns)
      -- One chart describes the heap that the resize leads to and the one after the release;
      -- they differ in the payload that was copied.
      obtain ⟨_, released, frees, _, freed, _⟩ :=
        placed.yields_release_spares owns pointer named
      refine .moves needed hinders allocated ?_ frees (described.sameBooks freed)
      rintro rfl
      have sides := apart cell locates.owns
      have large := (describes.tiles.bounds locates.owns.1).2.2.2
      unfold Cell.next at sides
      omega

/-- A live block of a described heap is resized in one of these ways. -/
theorem Describes.yields_resizesTo (describes : chart.Describes heap)
    (normalization : config.normalized? = some chart.setting.config)
    (locates : chart.Locates front cell follower back) (named : pointer.offset = cell.offset) :
    Heap.Yields heap (Heap.resizeBlock? pointer request) fun answer after =>
      heap.ResizesTo chart.setting.config.chunkSize request pointer front cell follower back
        answer after := by
  refine (describes.yields_resizeBlock? locates.owns pointer named).mono ?_
  rintro answer after ⟨answered, described, unchanged, _⟩
  have stayed (kept : answer.map Pointer.offset = some cell.offset) : answer = some pointer :=
    Pointer.eq_of_map_offset_eq (kept.trans (congrArg some named.symm))
  obtain ⟨enlarged, ends_eq, _⟩ := describes.size_enlarged locates
  cases needed : blockSize? request with
  | none =>
    simp only [resize, needed] at answered
    obtain rfl : answer = none := Option.map_eq_none_iff.mp answered
    obtain rfl := unchanged rfl
    exact .overflows needed
  | some size =>
    obtain ⟨_, small, whole, _⟩ := blockSize?_eq_some_iff.mp needed
    by_cases fits : size ≤ cell.size
    · rw [resize_of_fits needed fits] at answered described
      obtain rfl := stayed answered
      exact describes.resizesTo_of_fits described locates needed fits _
    have short := Nat.lt_of_not_le fits
    by_cases enough : size ≤ cell.extent follower
    · rw [resize_of_reserved needed short (reserve?_of_enough enlarged enough)]
        at answered described
      obtain rfl := stayed answered
      exact describes.resizesTo_of_enough described locates needed short enough _
    -- What is missing is a whole number of units, so that growth does not round it.
    have scarce := Nat.lt_of_not_le enough
    have whole : (size - cell.extent follower) % 16 = 0 := by
      have := describes.extent_mod_eq_zero locates.split
      omega
    have rounded := Config.alignUp?_max_chunkSize normalization whole (by omega)
    by_cases grows : cell.offset + cell.extent follower = chart.setting.size ∧
        chart.setting.allows chart.setting.size
          (max (size - cell.extent follower) chart.setting.config.chunkSize)
    · obtain ⟨ends, room⟩ := grows
      have extended := extend_eq_ok_iff.mpr ⟨_, rounded, room, rfl, rfl⟩
      have made := reserve?_of_extend enlarged scarce (ends_eq.trans ends) extended
      rw [resize_of_reserved needed short made] at answered described
      obtain rfl := stayed answered
      exact describes.resizesTo_of_extend rounded room extended described locates needed scarce
        ends
    · obtain ⟨hindered, hinders⟩ := describes.hinders locates rounded scarce fun ends =>
        eq_false_of_ne_true fun room => grows ⟨ends, room⟩
      exact describes.resizesTo_of_hinders hindered answered described unchanged locates named
        needed short hinders

end Chart

/-- At every moment of a history, the size that a request needs decides what a resize of a live
block does. A request for which there is no size is refused. A block that is large enough is cut
down; one that is large enough together with a free block behind it takes that in, and is cut
down then. At the end of the arena the block grows if the source grants what is missing, or a
chunk if that is more. In all other cases the outcome is that of an allocation: the block moves
and is released, or all stays as it is. -/
theorem History.resize_goes_one_way {σ : Type} [Source σ] {last : Nat} {source : σ}
    {config : Config} {past : List (Call × Reply)} {heap : Heap σ last} {leases : List Lease}
    {lease : Lease} {request : Nat} (history : History source config past heap leases)
    (live : lease ∈ leases) (seeks : 0 < request) :
    ∃ settings front cell follower back answer after,
      config.normalized? = some settings ∧
        heap.Locates lease.pointer front cell follower back ∧
        Heap.resize? (some lease.pointer) request heap = .ok answer after ∧
        heap.ResizesTo settings.chunkSize request lease.pointer front cell follower back answer
          after := by
  obtain ⟨chart, describes, serves, normalization⟩ := history.exists_normalized_chart
  obtain ⟨cell, owns, place, _⟩ := serves.backed lease live
  obtain ⟨front, follower, back, locates⟩ := describes.exists_locates owns
  have walk : heap.ConsistsOf (front ++ cell :: (follower.toList ++ back)) := by
    rw [← locates.split]
    exact describes.walk_eq_ok
  obtain ⟨answer, after, resized, _, resizes⟩ :=
    describes.yields_resizesTo normalization locates place.symm
  refine ⟨_, front, cell, follower, back, answer, after, normalization,
    ⟨walk, place.symm, locates.allocated, locates.follows⟩, ?_, resizes⟩
  rw [Heap.resize?, if_neg (Nat.ne_of_gt seeks)]
  exact resized

/-- A client whose only block lies in front of the last free one has it grow in place with the
arena. -/
theorem History.resize_goes_one_way_growing :
    ∃ (session : Session Buffer 1) (pointer : Pointer) (after : Heap Buffer 1),
      Session.replay? (Buffer.ofMaximum 512) ⟨32, 64, 48⟩ [.allocate 24] = some session ∧
        Heap.resize? (some pointer) 60 session.heap = .ok (some pointer) after ∧
        ∃ front cell follower back,
          session.heap.Locates pointer front cell follower back ∧
            session.heap.ResizesTo 32 60 pointer front cell follower back (some pointer) after := by
  have answered : (Session.replay? (Buffer.ofMaximum 512) ⟨32, 64, 48⟩ [.allocate 24] :
      Option (Session Buffer 1)).map (fun session => (session.leases,
        ((Heap.resize? (some ⟨32, by decide⟩) 60).run' session.heap).map (·.map Pointer.offset))) =
          some ([⟨⟨32, by decide⟩, 24⟩], some (some 32)) := by
    decide +kernel
  obtain ⟨session, replayed, both⟩ := Option.map_eq_some_iff.mp answered
  obtain ⟨leases, kept⟩ := Prod.mk.inj both
  have live : (⟨⟨32, by decide⟩, 24⟩ : Lease) ∈ session.leases := by
    rw [leases]
    exact List.mem_cons_self
  obtain ⟨settings, front, cell, follower, back, answer, after, normalization, locates, resized,
    resizes⟩ := History.resize_goes_one_way (Session.history_of_replay? replayed) live
      (show 0 < 60 by decide)
  rw [Session.chunkSize_moving normalization] at resizes
  obtain ⟨_, _, again, offset_eq⟩ := Action.exists_of_map_run kept
  cases resized.symm.trans again
  obtain ⟨target, rfl, place⟩ := Option.map_eq_some_iff.mp offset_eq
  obtain rfl : target = ⟨32, by decide⟩ := Pointer.eq_of_offset_eq place
  exact ⟨session, _, after, replayed, resized, front, cell, follower, back, locates, resizes⟩

end SegregatedFit
