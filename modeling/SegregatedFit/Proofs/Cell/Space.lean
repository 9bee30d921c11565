/-
This file computes with ranges of cells. A range has the cells before it and those after it;
the cells between are replaced by others when a block is cut, freed or enlarged. A range that
becomes free takes its free neighbours in, so that no two free cells are adjacent.
-/

import SegregatedFit.Proofs.Cell

namespace SegregatedFit

namespace Cell

variable {cell range other : Cell} {cells front inside back : List Cell} {start stop : Nat}
variable {prevAllocated : Bool}

/-- The cells in front of a range. -/
def before (range : Cell) (cells : List Cell) : List Cell :=
  cells.filter (·.next ≤ range.offset)

/-- The cells behind a range. -/
def after (range : Cell) (cells : List Cell) : List Cell :=
  cells.filter (range.next ≤ ·.offset)

/-- The cells outside of a range. -/
def without (range : Cell) (cells : List Cell) : List Cell :=
  cells.filter fun other => other.next ≤ range.offset ∨ range.next ≤ other.offset

/-- Whether no two free cells are adjacent, after a cell that is allocated or not. -/
def Separated (prevAllocated : Bool) : List Cell → Prop
  | [] => True
  | cell :: rest => (prevAllocated = true ∨ cell.allocated = true) ∧ Separated cell.allocated rest

/-- The cells of a row in front of a range are those that the range cuts off. -/
theorem Tiles.before_eq (tiles : Tiles start range.offset front)
    (behind : ∀ cell ∈ cells, range.offset < cell.next) :
    range.before (front ++ cells) = front := by
  unfold before
  rw [List.filter_append]
  have all : front.filter (·.next ≤ range.offset) = front :=
    List.filter_eq_self.mpr fun cell member => by simpa using (tiles.bounds member).2.1
  have none : cells.filter (·.next ≤ range.offset) = [] :=
    List.filter_eq_nil_iff.mpr fun cell member => by simpa using behind cell member
  rw [all, none, List.append_nil]

/-- The cells of a row behind a range are those that the range cuts off. -/
theorem Tiles.after_eq (tiles : Tiles range.next stop back)
    (inFront : ∀ cell ∈ cells, cell.offset < range.next) : range.after (cells ++ back) = back := by
  unfold after
  rw [List.filter_append]
  have none : cells.filter (range.next ≤ ·.offset) = [] :=
    List.filter_eq_nil_iff.mpr fun cell member => by simpa using inFront cell member
  have all : back.filter (range.next ≤ ·.offset) = back :=
    List.filter_eq_self.mpr fun cell member => by simpa using (tiles.bounds member).1
  rw [none, all, List.nil_append]

/-- A range splits cells where the cells on both sides end at it. -/
theorem splits (low : Tiles start range.offset front) (high : Tiles range.next stop back)
    (within : ∀ cell ∈ inside,
      range.offset ≤ cell.offset ∧ cell.next ≤ range.next ∧ 0 < cell.size) :
    range.before (front ++ (inside ++ back)) = front ∧
      range.after (front ++ (inside ++ back)) = back := by
  constructor
  · refine low.before_eq fun cell member => ?_
    rcases List.mem_append.mp member with inInside | inBack
    · have := within cell inInside
      unfold next
      omega
    · obtain ⟨begins, _, _, large⟩ := high.bounds inBack
      unfold next at *
      omega
  · rw [← List.append_assoc]
    refine high.after_eq fun cell member => ?_
    rcases List.mem_append.mp member with inFront | inInside
    · obtain ⟨_, ends, _, large⟩ := low.bounds inFront
      unfold next at *
      omega
    · have := within cell inInside
      unfold next at *
      omega

theorem mem_without : other ∈ range.without cells ↔
    other ∈ cells ∧ (other.next ≤ range.offset ∨ range.next ≤ other.offset) := by
  simp [without]

theorem without_eq_self (apart : ∀ other ∈ cells,
    other.next ≤ range.offset ∨ range.next ≤ other.offset) : range.without cells = cells :=
  List.filter_eq_self.mpr fun other member => by simpa using apart other member

theorem without_congr {first second : Cell} (same : ∀ other ∈ cells,
    other.next ≤ first.offset ∨ first.next ≤ other.offset ↔
      other.next ≤ second.offset ∨ second.next ≤ other.offset) :
    first.without cells = second.without cells :=
  List.filter_congr fun other member => decide_eq_decide.mpr (same other member)

theorem without_sublist (range : Cell) (cells : List Cell) :
    (range.without cells).Sublist cells :=
  List.filter_sublist

theorem without_insertInto (large : 0 < cell.size) (ascending : Ascending cells)
    (apart : ∀ other ∈ cells, other.next ≤ cell.offset ∨ cell.next ≤ other.offset) :
    cell.without (cell.insertInto cells) = cells := by
  unfold without
  rw [filter_insertInto ascending, if_neg]
  · exact without_eq_self apart
  · rw [decide_eq_true_eq]
    unfold next
    omega

theorem separated_append : Separated prevAllocated (front ++ back) ↔
    Separated prevAllocated front ∧ Separated (lastAllocated prevAllocated front) back := by
  induction front generalizing prevAllocated with
  | nil => simp [Separated, lastAllocated]
  | cons cell rest inductionHypothesis =>
    simp only [List.cons_append, Separated, lastAllocated, inductionHypothesis, and_assoc]

/-- After an allocated cell any cell may come. -/
theorem Separated.of_allocated (separated : Separated prevAllocated cells) :
    Separated true cells := by
  cases cells with
  | nil => trivial
  | cons cell rest => exact ⟨Or.inl rfl, separated.2⟩

/-! ### Rows that are known by their allocated cells -/

/-- Behind the first cell of a row no cell begins where the row begins. -/
theorem Tiles.not_mem_of_offset_eq (tiles : Tiles start stop (cell :: cells))
    (here : other.offset = start) : other ∉ cells := by
  obtain ⟨begins, ⟨_, large⟩, rest⟩ := tiles
  intro member
  have low := (rest.bounds member).1
  unfold next at low
  omega

/-- A free cell at the begin of a row reaches as far as a free cell at the begin of another row,
when no free cell follows it and all allocated cells of its row are in the other row too. -/
theorem Tiles.next_le (tiles : Tiles start stop (cell :: front))
    (others : Tiles start stop (other :: back))
    (separated : Separated prevAllocated (cell :: front)) (free : cell.allocated = false)
    (otherFree : other.allocated = false)
    (within : ∀ owned : Cell, owned.allocated = true → owned ∈ cell :: front →
      owned ∈ other :: back) : other.next ≤ cell.next := by
  obtain ⟨_, _, frontTiles⟩ := tiles
  obtain ⟨_, _, backTiles⟩ := others
  have frontSeparated := separated.2
  rw [free] at frontSeparated
  cases front with
  | nil =>
    obtain rfl : cell.next = stop := frontTiles
    exact backTiles.le
  | cons after rest =>
    have allocated := frontSeparated.1.resolve_left Bool.false_ne_true
    have member := within after allocated (List.mem_cons_of_mem _ List.mem_cons_self)
    have different : after ≠ other := by
      rintro rfl
      exact Bool.false_ne_true (otherFree.symm.trans allocated)
    have begins := (backTiles.bounds ((List.mem_cons.mp member).resolve_left different)).1
    rwa [frontTiles.1] at begins

/-- Rows with the same range and the same allocated cells begin with the same cell. -/
theorem Tiles.head_eq (tiles : Tiles start stop (cell :: front))
    (others : Tiles start stop (other :: back))
    (separated : Separated prevAllocated (cell :: front))
    (apart : Separated prevAllocated (other :: back))
    (same : ∀ owned : Cell, owned.allocated = true →
      (owned ∈ cell :: front ↔ owned ∈ other :: back)) : cell = other := by
  by_cases allocated : cell.allocated = true
  · have member := (same cell allocated).mp List.mem_cons_self
    exact (List.mem_cons.mp member).resolve_right (others.not_mem_of_offset_eq tiles.1)
  · by_cases otherAllocated : other.allocated = true
    · have member := (same other otherAllocated).mpr List.mem_cons_self
      exact ((List.mem_cons.mp member).resolve_right (tiles.not_mem_of_offset_eq others.1)).symm
    · rw [Bool.not_eq_true] at allocated otherAllocated
      have ahead := tiles.next_le others separated allocated otherAllocated
        fun owned isAllocated => (same owned isAllocated).mp
      have behind := others.next_le tiles apart otherAllocated allocated
        fun owned isAllocated => (same owned isAllocated).mpr
      have begins := tiles.1.trans others.1.symm
      obtain ⟨offset, size, isAllocated⟩ := cell
      obtain ⟨otherOffset, otherSize, isOtherAllocated⟩ := other
      simp only [next, mk.injEq] at *
      exact ⟨begins, by omega, allocated.trans otherAllocated.symm⟩

/-- Where no two free cells are adjacent, the allocated cells of a row decide the free ones. -/
theorem Tiles.unique (tiles : Tiles start stop front) (others : Tiles start stop back)
    (separated : Separated prevAllocated front) (apart : Separated prevAllocated back)
    (same : ∀ owned : Cell, owned.allocated = true → (owned ∈ front ↔ owned ∈ back)) :
    front = back := by
  induction front generalizing start prevAllocated back with
  | nil =>
    obtain rfl : start = stop := tiles
    exact others.eq_nil.symm
  | cons cell front inductionHypothesis =>
    cases back with
    | nil =>
      obtain rfl : start = stop := others
      exact tiles.eq_nil
    | cons other back =>
      obtain rfl := tiles.head_eq others separated apart same
      refine congrArg (cell :: ·) (inductionHypothesis tiles.2.2 others.2.2 separated.2 apart.2 ?_)
      have absent := tiles.not_mem_of_offset_eq tiles.1
      have missing := others.not_mem_of_offset_eq others.1
      intro owned allocated
      have parts := same owned allocated
      simp only [List.mem_cons] at parts
      grind

/-! ### Freeing a range -/

/-- The last of some cells, if it is free. -/
def freeLast? (cells : List Cell) : Option Cell :=
  cells.getLast?.filter (! ·.allocated)

/-- The first of some cells, if it is free. -/
def freeHead? (cells : List Cell) : Option Cell :=
  cells.head?.filter (! ·.allocated)

/-- The free cell that a range becomes together with a cell in front and a cell behind, of
which either may be missing. -/
def join (low : Option Cell) (range : Cell) (high : Option Cell) : Cell where
  offset := low.elim range.offset (·.offset)
  size := low.elim 0 (·.size) + range.size + high.elim 0 (·.size)
  allocated := false

@[simp]
theorem freeLast?_concat (cells : List Cell) (cell : Cell) :
    freeLast? (cells ++ [cell]) = if cell.allocated then none else some cell := by
  cases allocated : cell.allocated <;> simp [freeLast?, Option.filter, allocated]

@[simp]
theorem freeHead?_cons (cell : Cell) (cells : List Cell) :
    freeHead? (cell :: cells) = if cell.allocated then none else some cell := by
  cases allocated : cell.allocated <;> simp [freeHead?, Option.filter, allocated]

theorem free_of_freeLast? (found : freeLast? cells = some cell) : cell.allocated = false := by
  simpa using (Option.filter_eq_some_iff.mp found).2

theorem free_of_freeHead? (found : freeHead? cells = some cell) : cell.allocated = false := by
  simpa using (Option.filter_eq_some_iff.mp found).2

/-- Behind a row that ends with an allocated cell, a range joins only a free cell of its own. -/
theorem freeLast?_append_toList (ends : lastAllocated true front = true) {low : Option Cell}
    (free : ∀ other ∈ low, other.allocated = false) : freeLast? (front ++ low.toList) = low := by
  cases low with
  | some other =>
    rw [Option.toList_some, freeLast?_concat, free other rfl]
    rfl
  | none =>
    rw [Option.toList_none, List.append_nil]
    rcases List.eq_nil_or_concat front with rfl | ⟨rest, cell, rfl⟩
    · rfl
    · rw [List.concat_eq_append] at ends ⊢
      rw [lastAllocated_append] at ends
      rw [freeLast?_concat]
      exact if_pos ends

/-- In front of a row that begins with an allocated cell, a range joins only a free cell of its
own. -/
theorem freeHead?_toList_append (separated : Separated false back) {high : Option Cell}
    (free : ∀ other ∈ high, other.allocated = false) : freeHead? (high.toList ++ back) = high := by
  cases high with
  | some other =>
    rw [Option.toList_some, List.singleton_append, freeHead?_cons, free other rfl]
    rfl
  | none =>
    rw [Option.toList_none, List.nil_append]
    cases back with
    | nil => rfl
    | cons next rest =>
      rw [freeHead?_cons]
      exact if_pos (separated.1.resolve_left Bool.false_ne_true)

/-- In front of the free cell at the end of a row there is no other free cell. -/
theorem exists_front (separated : Separated true front) :
    ∃ rest, front = rest ++ (freeLast? front).toList ∧ lastAllocated true rest = true ∧
      Separated true rest := by
  rcases List.eq_nil_or_concat front with rfl | ⟨rest, cell, rfl⟩
  · exact ⟨[], rfl, rfl, trivial⟩
  · rw [List.concat_eq_append] at separated ⊢
    obtain ⟨restSeparated, last⟩ := separated_append.mp separated
    by_cases allocated : cell.allocated = true
    · refine ⟨rest ++ [cell], ?_, ?_, separated⟩
      · simp [allocated]
      · simpa [lastAllocated] using allocated
    · refine ⟨rest, ?_, last.1.resolve_right allocated, restSeparated⟩
      simp [allocated]

/-- Behind the free cell at the begin of a row there is no other free cell. -/
theorem exists_back (separated : Separated prevAllocated back) :
    ∃ rest, back = (freeHead? back).toList ++ rest ∧ Separated false rest := by
  cases back with
  | nil => exact ⟨[], rfl, trivial⟩
  | cons cell rest =>
    by_cases allocated : cell.allocated = true
    · refine ⟨cell :: rest, ?_, Or.inr allocated, separated.2⟩
      simp [allocated]
    · have later := separated.2
      simp only [Bool.not_eq_true] at allocated
      rw [allocated] at later
      refine ⟨rest, ?_, later⟩
      simp [allocated]

/-! ### Cutting a cell -/

/-- The allocated part of a free cell that serves `size` bytes. -/
def used (cell : Cell) (threshold size : Nat) : Cell :=
  if cell.size - size < 32 then
    { cell with allocated := true }
  else if size < threshold then
    { offset := cell.offset, size, allocated := true }
  else
    { offset := cell.offset + (cell.size - size), size, allocated := true }

/-- The parts of a free cell that serves `size` bytes. -/
def parts (cell : Cell) (threshold size : Nat) : List Cell :=
  if cell.size - size < 32 then
    [cell.used threshold size]
  else if size < threshold then
    [cell.used threshold size,
      { offset := cell.offset + size, size := cell.size - size, allocated := false }]
  else
    [{ offset := cell.offset, size := cell.size - size, allocated := false },
      cell.used threshold size]

theorem used_whole {threshold size : Nat} (tight : cell.size - size < 32) :
    cell.used threshold size = ⟨cell.offset, cell.size, true⟩ ∧
      cell.parts threshold size = [⟨cell.offset, cell.size, true⟩] := by
  simp only [used, parts, if_pos tight, and_self]

theorem used_low {threshold size : Nat} (loose : ¬ cell.size - size < 32)
    (small : size < threshold) :
    cell.used threshold size = ⟨cell.offset, size, true⟩ ∧
      cell.parts threshold size = [⟨cell.offset, size, true⟩,
        ⟨cell.offset + size, cell.size - size, false⟩] := by
  simp only [used, parts, if_neg loose, if_pos small, and_self]

theorem used_high {threshold size : Nat} (loose : ¬ cell.size - size < 32)
    (big : ¬ size < threshold) :
    cell.used threshold size = ⟨cell.offset + (cell.size - size), size, true⟩ ∧
      cell.parts threshold size = [⟨cell.offset, cell.size - size, false⟩,
        ⟨cell.offset + (cell.size - size), size, true⟩] := by
  simp only [used, parts, if_neg loose, if_neg big, and_self]

/-- What is used of a free cell lies within it and is large enough. -/
theorem used_within {size : Nat} (fits : size ≤ cell.size) (threshold : Nat) :
    (cell.used threshold size).allocated = true ∧
      cell.offset ≤ (cell.used threshold size).offset ∧
      (cell.used threshold size).next ≤ cell.next ∧ size ≤ (cell.used threshold size).size := by
  by_cases tight : cell.size - size < 32
  · rw [(used_whole tight).1]
    refine ⟨rfl, ?_⟩
    simp only [next]
    omega
  · by_cases small : size < threshold
    · rw [(used_low tight small).1]
      refine ⟨rfl, ?_⟩
      simp only [next]
      omega
    · rw [(used_high tight small).1]
      refine ⟨rfl, ?_⟩
      simp only [next]
      omega

/-- What is used of a free cell is as large as needed, unless the rest would be too small for a
cell of its own. -/
theorem size_used {size : Nat} (fits : size ≤ cell.size) (sized : cell.Regular)
    (whole : size % 16 = 0) (threshold : Nat) :
    (cell.used threshold size).size = size ∨ (cell.used threshold size).size = size + 16 := by
  have cellWhole := sized.1
  by_cases tight : cell.size - size < 32
  · rw [(used_whole tight).1]
    show cell.size = size ∨ cell.size = size + 16
    omega
  · by_cases small : size < threshold
    · rw [(used_low tight small).1]
      exact Or.inl rfl
    · rw [(used_high tight small).1]
      exact Or.inl rfl

/-- Whether a cell is as large as a request needs. One unit more is as much as a cell has to
spare, since a rest of two units would be a cell of its own. -/
def Suits (cell : Cell) (request : Nat) : Prop :=
  ∃ size, blockSize? request = some size ∧ (cell.size = size ∨ cell.size = size + 16)

theorem Suits.enough {request : Nat} (suits : cell.Suits request) :
    request + 8 ≤ cell.size := by
  obtain ⟨size, needed, fits⟩ := suits
  obtain ⟨_, _, _, _, holds, _⟩ := blockSize?_eq_some_iff.mp needed
  omega

/-- A free cell is cut in a way that no two free cells are adjacent. -/
theorem separated_parts (frontSeparated : Separated true front)
    (frontAllocated : lastAllocated true front = true) (backSeparated : Separated false back)
    (threshold size : Nat) : Separated true (front ++ cell.parts threshold size ++ back) := by
  refine separated_append.mpr ⟨separated_append.mpr ⟨frontSeparated, ?_⟩, ?_⟩
  · rw [frontAllocated]
    by_cases tight : cell.size - size < 32
    · rw [(used_whole tight).2]
      exact ⟨Or.inl rfl, trivial⟩
    · by_cases small : size < threshold
      · rw [(used_low tight small).2]
        exact ⟨Or.inl rfl, Or.inl rfl, trivial⟩
      · rw [(used_high tight small).2]
        exact ⟨Or.inl rfl, Or.inr rfl, trivial⟩
  · rw [lastAllocated_append]
    by_cases tight : cell.size - size < 32
    · rw [(used_whole tight).2]
      exact backSeparated.of_allocated
    · by_cases small : size < threshold
      · rw [(used_low tight small).2]
        exact backSeparated
      · rw [(used_high tight small).2]
        exact backSeparated.of_allocated

end Cell

end SegregatedFit
