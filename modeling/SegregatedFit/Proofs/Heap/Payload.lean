/-
This file proves that writes into the payload of an allocated block leave everything else
alone: the tags, the links, and the payloads of the other blocks.
-/

import SegregatedFit.Heap.Payload
import SegregatedFit.Proofs.Heap.Ownership

namespace SegregatedFit

namespace Source

variable {σ : Type} [Source σ]

@[simp] theorem allows_writeBytes (source : σ) (offset : Nat) (values : List UInt8) :
    allows (writeBytes source offset values) = allows source := by
  induction values generalizing source offset with
  | nil => rfl
  | cons value rest inductionHypothesis => rw [writeBytes, inductionHypothesis, allows_setByte]

/-- Bytes are read as elsewhere when they are the same there. -/
theorem readBytes_congr {τ : Type} [Source τ] {first : σ} {second : τ} {origin target count : Nat}
    (same : ∀ place < count, byte second (target + place) = byte first (origin + place)) :
    readBytes second target count = readBytes first origin count :=
  List.map_congr_left fun place found => same place (List.mem_range.mp found)

theorem readBytes_add (source : σ) (offset count more : Nat) :
    readBytes source offset (count + more) =
      readBytes source offset count ++ readBytes source (offset + count) more := by
  rw [readBytes, List.range_add, List.map_append, List.map_map]
  refine congrArg _ (List.map_congr_left fun place _ => ?_)
  exact congrArg (byte source) (Nat.add_assoc _ _ _).symm

theorem drop_readBytes (source : σ) (offset count limit : Nat) :
    (readBytes source offset (limit + count)).drop limit =
      readBytes source (offset + limit) count := by
  rw [readBytes_add]
  exact List.drop_left' (length_readBytes source offset limit)

theorem take_readBytes (source : σ) (offset count limit : Nat) :
    (readBytes source offset count).take limit = readBytes source offset (min limit count) := by
  rw [readBytes, ← List.map_take, List.take_range]
  rfl

@[simp] theorem capacity_writeBytes (source : σ) (offset : Nat) (values : List UInt8) :
    capacity (writeBytes source offset values) = capacity source := by
  induction values generalizing source offset with
  | nil => rfl
  | cons value rest inductionHypothesis => rw [writeBytes, inductionHypothesis, capacity_setByte]

end Source

namespace Arena

variable {σ : Type} [Source σ] {before : Arena σ}

/-- The bytes that are written can be read afterwards, and the others stay. -/
structure Writes (offset : Nat) (values : List UInt8) (before after : Arena σ) : Prop where
  alters : Alters (fun index => offset ≤ index ∧ index < offset + values.length) before after
  written : ∀ place value, values[place]? = some value →
    Source.byte after.source (offset + place) = value

/-- A range that some bytes are written into can be read as before, with these bytes in their
place. -/
theorem Writes.readBytes_eq {after : Arena σ} {origin start count : Nat} {values : List UInt8}
    (writes : Writes (origin + start) values before after) (fits : start + values.length ≤ count) :
    Source.readBytes after.source origin count =
      (Source.readBytes before.source origin count).take start ++ values ++
        (Source.readBytes before.source origin count).drop (start + values.length) := by
  obtain ⟨alters, written⟩ := writes
  obtain ⟨rest, rfl⟩ := Nat.exists_eq_add_of_le fits
  have front : Source.readBytes after.source origin start =
      Source.readBytes before.source origin start :=
    Source.readBytes_congr fun place inside => alters.byte _ (by omega)
  have middle : Source.readBytes after.source (origin + start) values.length = values := by
    refine List.ext_getElem (Source.length_readBytes _ _ _) fun place _ inside => ?_
    have value := written place _ (List.getElem?_eq_getElem inside)
    simpa [Source.readBytes] using value
  have back : Source.readBytes after.source (origin + (start + values.length)) rest =
      Source.readBytes before.source (origin + (start + values.length)) rest :=
    Source.readBytes_congr fun place inside => alters.byte _ (by omega)
  have short : min start (start + values.length + rest) = start := by omega
  rw [Source.take_readBytes, short, Source.drop_readBytes, Source.readBytes_add,
    Source.readBytes_add, front, middle, back]

theorem yields_setBytes {offset : Nat} {values : List UInt8}
    (inside : offset + values.length ≤ before.size) :
    Action.Yields before (setBytes offset values) fun _ after =>
      Writes offset values before after := by
  obtain ⟨source, growths⟩ := before
  refine ⟨(), _, setBytes_eq_ok_iff.mpr ⟨inside, rfl⟩, ⟨?_, rfl, ?_, ?_, fun index kept => ?_⟩, ?_⟩
  · exact Source.size_writeBytes _ _ _
  · exact Source.allows_writeBytes _ _ _
  · exact Source.capacity_writeBytes _ _ _
  · show Source.byte (Source.writeBytes source offset values) index = _
    rw [Source.byte_writeBytes _ _ _ _ inside]
    split
    · rw [List.getElem?_eq_none (by omega)]
      rfl
    · rfl
  · intro place value found
    show Source.byte (Source.writeBytes source offset values) (offset + place) = _
    rw [Source.byte_writeBytes _ _ _ _ inside, if_pos (Nat.le_add_right _ _),
      Nat.add_sub_cancel_left, found]
    rfl

/-- Copied bytes are those that were read. -/
theorem yields_copy {origin target count : Nat} (originInside : origin + count ≤ before.size)
    (targetInside : target + count ≤ before.size) :
    Action.Yields before (copy origin target count) fun _ after =>
      Alters (fun index => target ≤ index ∧ index < target + count) before after ∧
        ∀ place < count, Source.byte after.source (target + place) =
          Source.byte before.source (origin + place) := by
  have length := Source.length_readBytes before.source origin count
  unfold copy
  refine Action.yields_bind_inspect (if_pos originInside) ?_
  refine (yields_setBytes (by rwa [length])).mono fun _ after writes => ?_
  obtain ⟨alters, written⟩ := writes
  rw [length] at alters
  refine ⟨alters, fun place bound => written place _ ?_⟩
  rw [Source.readBytes, List.getElem?_map, List.getElem?_range bound]
  rfl

end Arena

namespace Chart

variable {σ : Type} [Source σ] {last : Nat} {chart : Chart} {heap before : Heap σ last}
variable {cell target : Cell} {request : Nat}

/-- A chart still describes a heap when bytes change in the payload of an allocated block. -/
theorem Describes.write (describes : chart.Describes before) (member : cell ∈ chart.cells)
    (allocated : cell.allocated = true) {arena : Arena σ} {touched : Nat → Prop}
    (alters : Arena.Alters touched before.arena arena)
    (within : ∀ index, touched index → cell.offset ≤ index ∧ index + 8 < cell.next) :
    chart.Describes { before with arena } := by
  have closed := describes.closed
  have begins := (describes.tiles.bounds member).1
  have ends := (describes.tiles.bounds member).2.1
  refine ⟨closed.alter alters (fun index hit => ?_) (fun other found index hit tagged => ?_)
    closed.free closed.distinct closed.ascending (closed.follows.alter alters ?_),
    describes.separated, describes.indexed, describes.growing⟩
  · have := within index hit
    omega
  · have := within index hit
    rw [List.nil_append] at found
    rcases List.mem_append.mp found with inside | atEnd
    · obtain ⟨_, _, _, large⟩ := describes.tiles.bounds inside
      have apart := describes.tiles.apart member inside
      unfold Cell.TagBytes Cell.next at *
      rcases apart with rfl | apart
      · rw [allocated] at tagged
        simp only [Bool.true_eq_false, false_and, or_false] at tagged
        omega
      · omega
    · rw [List.mem_singleton.mp atEnd] at tagged
      simp only [Cell.TagBytes, Cell.epilogue, Bool.true_eq_false, false_and, or_false] at tagged
      omega
  · rintro index hit ⟨node, found, low, high⟩
    have := within index hit
    obtain ⟨inside, free⟩ := closed.free node found
    obtain ⟨_, _, _, large⟩ := describes.tiles.bounds inside
    have apart := describes.tiles.apart member inside
    unfold Cell.next at *
    rcases apart with rfl | apart
    · rw [allocated] at free
      cases free
    · omega

/-- The payload of a block is all of it but its header. -/
theorem Describes.usableSize_eq_ok (describes : chart.Describes heap)
    (member : cell ∈ chart.cells) (pointer : Pointer) (named : pointer.offset = cell.offset) :
    heap.usableSize pointer = .ok (cell.size - 8) := by
  obtain ⟨flag, shown⟩ := Heap.Opened.exists_shows describes.closed
    (List.mem_append_right [] member)
  obtain ⟨_, _, regular⟩ := describes.tiles.bounds member
  have large := regular.2
  have header := Arena.header_eq_ok_iff.mpr shown.header
  unfold Heap.usableSize
  rw [named, header]
  show payloadSize (cell.tag flag).size = _
  rw [Cell.size_tag regular, payloadSize_eq_ok_iff]
  omega

/-- The payload of a block can be read. -/
theorem Describes.payload_eq_ok (describes : chart.Describes heap)
    (member : cell ∈ chart.cells) (pointer : Pointer) (named : pointer.offset = cell.offset) :
    heap.payload pointer =
      .ok (Source.readBytes heap.arena.source cell.offset (cell.size - 8)) := by
  obtain ⟨_, ends, _, large⟩ := describes.tiles.bounds member
  have size_eq := describes.size_eq
  unfold Cell.next at ends
  unfold Heap.payload
  rw [describes.usableSize_eq_ok member pointer named, named]
  exact if_pos (by omega)

/-- Bytes are written into a payload. -/
theorem Describes.yields_writePayload (describes : chart.Describes before)
    (member : cell ∈ chart.cells) (allocated : cell.allocated = true) (pointer : Pointer)
    (named : pointer.offset = cell.offset) (start : Nat) (values : List UInt8)
    (fits : start + values.length ≤ cell.size - 8) :
    Heap.Yields before (Heap.writePayload pointer start values) fun _ after =>
      chart.Describes after ∧ after.index = before.index ∧
        Arena.Writes (cell.offset + start) values before.arena after.arena := by
  obtain ⟨_, ends, _, large⟩ := describes.tiles.bounds member
  have size_eq := describes.size_eq
  unfold Cell.next at ends
  have inside : cell.offset + (cell.size - 8) ≤ before.size ∧
      start + values.length ≤ cell.size - 8 := by
    unfold Heap.size
    omega
  unfold Heap.writePayload
  refine Heap.yields_bind_inspect (describes.usableSize_eq_ok member pointer named) ?_
  refine Heap.yields_bind_look ?_
  rw [named, if_pos inside]
  refine Heap.Opened.yields_onArena describes.closed ((Arena.yields_setBytes (by omega)).mono ?_)
    (fun _ _ holds => ⟨holds.1.closed.follows, Heap.Opened.hosts holds.1.closed⟩)
    (Arena.rewrites_setBytes _ _).develops
  intro _ arena writes
  refine ⟨describes.write member allocated writes.alters fun index hit => ?_, rfl, writes⟩
  unfold Cell.next
  omega

/-- A payload is filled byte by byte. -/
theorem Describes.yields_fillPayload (describes : chart.Describes before)
    (member : cell ∈ chart.cells) (allocated : cell.allocated = true) (pointer : Pointer)
    (named : pointer.offset = cell.offset) (value : Nat → UInt8) :
    Heap.Yields before (Heap.fillPayload pointer value) fun _ after =>
      chart.Describes after ∧
        Arena.Alters (fun index => cell.offset ≤ index ∧ index + 8 < cell.next)
          before.arena after.arena ∧
        ∀ place, place + 8 < cell.size →
          Source.byte after.arena.source (cell.offset + place) = value place := by
  obtain ⟨_, _, _, large⟩ := describes.tiles.bounds member
  unfold Heap.fillPayload
  refine Heap.yields_bind_inspect (describes.payload_eq_ok member pointer named) ?_
  refine (describes.yields_writePayload member allocated pointer named 0 _ (by simp)).mono ?_
  rintro _ after ⟨described, _, alters, written⟩
  refine ⟨described, alters.mono fun index hit => ?_, fun place bound => ?_⟩
  · rw [List.length_mapIdx, Source.length_readBytes] at hit
    unfold Cell.next
    omega
  · refine written place _ ?_
    have short : place < cell.size - 8 := by omega
    simp [Source.readBytes, List.getElem?_mapIdx, List.getElem?_range short]

/-- Bytes are copied from one payload into another. -/
theorem Describes.yields_copy (describes : chart.Describes before) (owns : chart.Owns cell)
    (targetOwns : chart.Owns target) {count : Nat} (read : count ≤ cell.size - 8)
    (written : count ≤ target.size - 8) :
    Heap.Yields before (Heap.onArena (Arena.copy cell.offset target.offset count))
      fun _ after => chart.Describes after ∧
        Arena.Alters (fun index => target.offset ≤ index ∧ index + 8 < target.next)
          before.arena after.arena ∧
        ∀ place < count, Source.byte after.arena.source (target.offset + place) =
          Source.byte before.arena.source (cell.offset + place) := by
  obtain ⟨_, cellEnds, _, cellLarge⟩ := describes.tiles.bounds owns.1
  obtain ⟨_, targetEnds, _, targetLarge⟩ := describes.tiles.bounds targetOwns.1
  have size_eq := describes.size_eq
  unfold Cell.next at cellEnds targetEnds ⊢
  have originInside : cell.offset + count ≤ before.arena.size := by omega
  have targetInside : target.offset + count ≤ before.arena.size := by omega
  refine Heap.Opened.yields_onArena describes.closed
    ((Arena.yields_copy originInside targetInside).mono ?_)
    (fun _ _ holds => ⟨holds.1.closed.follows, Heap.Opened.hosts holds.1.closed⟩)
    (Arena.rewrites_copy _ _ _).develops
  rintro _ arena ⟨alters, bytes⟩
  have within : ∀ index, target.offset ≤ index ∧ index < target.offset + count →
      target.offset ≤ index ∧ index + 8 < target.next := by
    unfold Cell.next
    omega
  exact ⟨describes.write targetOwns.1 targetOwns.2 alters within, alters.mono within, bytes⟩

/-- An allocation with zeros follows the chart, and spares the payloads of all owners. -/
theorem Describes.yields_allocateZeroed? (describes : chart.Describes before) (request : Nat) :
    Heap.Yields before (Heap.allocateZeroed? request) fun answer after =>
      answer.map Pointer.offset = (chart.allocate request).1.toOption ∧
        (chart.allocate request).2.Describes after ∧
        ((chart.allocate request).1.isOk = false → after = before) ∧
        (∀ other, chart.Owns other → Arena.Spares other before.arena after.arena) ∧
        ∀ offset, (chart.allocate request).1 = .ok offset →
          ∀ target, (chart.allocate request).2.Owns target → target.offset = offset →
            ∀ place, place + 8 < target.size →
              Source.byte after.arena.source (offset + place) = 0 := by
  unfold Heap.allocateZeroed?
  refine (describes.yields_allocate? request).bind ?_
  rintro answer one ⟨answered, described, refused, spares⟩
  cases result : chart.allocate request with
  | mk outcome between =>
    rw [result] at answered described refused
    cases outcome with
    | error refusal =>
      cases answer with
      | some pointer => cases answered
      | none =>
        refine Heap.yields_pure ⟨rfl, described, refused, spares, ?_⟩
        rintro offset ⟨⟩
    | ok offset =>
      cases answer with
      | none => cases answered
      | some pointer =>
        obtain rfl : pointer.offset = offset := Option.some.inj answered
        obtain ⟨target, place_eq, allocated, _, apart, owned⟩ :=
          describes.owns_allocate result
        have targetOwns : between.Owns target := (owned target).mpr (Or.inl rfl)
        refine (described.yields_fillPayload targetOwns.1 allocated pointer place_eq.symm
          fun _ => 0).bind ?_
        rintro _ after ⟨filled, alters, zeros⟩
        refine Heap.yields_pure ⟨rfl, filled, (fun refused => by cases refused),
          fun other others => ?_, ?_⟩
        · have sides := apart other others
          exact (spares other others).trans (alters.keeps.spares fun index low high hit => by omega)
        · rintro _ ⟨rfl⟩ other others same place inside
          obtain rfl := described.eq_of_offset_eq targetOwns others (same.trans place_eq.symm)
          rw [← same]
          exact zeros place inside

end Chart

end SegregatedFit
