/-
This file describes arenas apart from memory. A cell is a block as a client sees it: where
its payload begins, how many bytes it has with its header, and whether somebody owns it.
Cells that tile a range follow each other without gaps; their headers tell in addition
whether the cell in front is allocated, so the blocks in memory can be computed from them.
-/

import SegregatedFit.Proofs.Arena.Tags

namespace SegregatedFit

/-- A block without its place among the others. -/
structure Cell where
  offset : Nat
  size : Nat
  allocated : Bool
deriving DecidableEq

namespace Cell

/-- The payload offset of the cell that follows. -/
def next (cell : Cell) : Nat :=
  cell.offset + cell.size

/-- Whether a cell has a size that blocks may have. -/
def Regular (cell : Cell) : Prop :=
  cell.size % 16 = 0 ∧ 32 ≤ cell.size

/-- The header of a cell, after a cell that is allocated or not. -/
def tag (cell : Cell) (prevAllocated : Bool) : Tag :=
  Tag.ofParts cell.size cell.allocated prevAllocated

/-- The blocks that some cells are, after a cell that is allocated or not. -/
def blocks (prevAllocated : Bool) : List Cell → List Block
  | [] => []
  | cell :: rest => ⟨cell.offset, cell.tag prevAllocated⟩ :: blocks cell.allocated rest

/-- Whether the last of some cells is allocated, which come after a cell that is allocated
or not. -/
def lastAllocated (prevAllocated : Bool) : List Cell → Bool
  | [] => prevAllocated
  | cell :: rest => lastAllocated cell.allocated rest

/-- Whether cells lie one after the other from `start` up to `stop`. -/
def Tiles (start stop : Nat) : List Cell → Prop
  | [] => start = stop
  | cell :: rest => cell.offset = start ∧ cell.Regular ∧ Tiles cell.next stop rest

/-- The epilogue of an arena of `size` bytes, seen as a cell. -/
def epilogue (size : Nat) : Cell where
  offset := size
  size := 0
  allocated := true

variable {cell other : Cell} {cells front back : List Cell} {start stop : Nat}
variable {prevAllocated : Bool}

theorem size_tag (regular : cell.Regular) (prevAllocated : Bool) :
    (cell.tag prevAllocated).size = cell.size :=
  Tag.size_ofParts (by have := regular.1; omega) _ _

@[simp] theorem allocated_tag : (cell.tag prevAllocated).allocated = cell.allocated := rfl

@[simp] theorem prevAllocated_tag : (cell.tag prevAllocated).prevAllocated = prevAllocated := rfl

/-! ### Cells in a row -/

@[simp] theorem lastAllocated_append (prevAllocated : Bool) (front back : List Cell) :
    lastAllocated prevAllocated (front ++ back) =
      lastAllocated (lastAllocated prevAllocated front) back := by
  induction front generalizing prevAllocated with
  | nil => rfl
  | cons cell rest inductionHypothesis => exact inductionHypothesis cell.allocated

theorem blocks_append (prevAllocated : Bool) (front back : List Cell) :
    blocks prevAllocated (front ++ back) =
      blocks prevAllocated front ++ blocks (lastAllocated prevAllocated front) back := by
  induction front generalizing prevAllocated with
  | nil => rfl
  | cons cell rest inductionHypothesis =>
    exact congrArg (_ :: ·) (inductionHypothesis cell.allocated)

/-- Every block comes from a cell. -/
theorem exists_of_mem_blocks {block : Block} (member : block ∈ blocks prevAllocated cells) :
    ∃ cell ∈ cells, ∃ flag, block = ⟨cell.offset, cell.tag flag⟩ := by
  induction cells generalizing prevAllocated with
  | nil => cases member
  | cons first rest inductionHypothesis =>
    rcases List.mem_cons.mp member with rfl | later
    · exact ⟨first, List.mem_cons_self, prevAllocated, rfl⟩
    · obtain ⟨cell, found, flag, same⟩ := inductionHypothesis later
      exact ⟨cell, List.mem_cons_of_mem _ found, flag, same⟩

/-- Every cell becomes a block. -/
theorem exists_mem_blocks (prevAllocated : Bool) (member : cell ∈ cells) :
    ∃ flag, ⟨cell.offset, cell.tag flag⟩ ∈ blocks prevAllocated cells := by
  induction cells generalizing prevAllocated with
  | nil => cases member
  | cons first rest inductionHypothesis =>
    rcases List.mem_cons.mp member with rfl | later
    · exact ⟨prevAllocated, List.mem_cons_self⟩
    · obtain ⟨flag, found⟩ := inductionHypothesis first.allocated later
      exact ⟨flag, List.mem_cons_of_mem _ found⟩

theorem tiles_append :
    Tiles start stop (front ++ back) ↔ ∃ middle, Tiles start middle front ∧
      Tiles middle stop back := by
  induction front generalizing start with
  | nil =>
    constructor
    · intro tiles
      exact ⟨start, rfl, tiles⟩
    · rintro ⟨_, rfl, tiles⟩
      exact tiles
  | cons cell rest inductionHypothesis =>
    simp only [List.cons_append, Tiles, inductionHypothesis]
    grind

theorem Tiles.le (tiles : Tiles start stop cells) : start ≤ stop := by
  induction cells generalizing start with
  | nil => exact Nat.le_of_eq tiles
  | cons cell rest inductionHypothesis =>
    obtain ⟨rfl, _, rest⟩ := tiles
    have := inductionHypothesis rest
    unfold next at this
    omega

theorem Tiles.eq_nil (tiles : Tiles start start cells) : cells = [] := by
  cases cells with
  | nil => rfl
  | cons cell rest =>
    obtain ⟨rfl, ⟨_, large⟩, rest⟩ := tiles
    have := rest.le
    unfold next at this
    omega

/-- A cell of a row lies inside of the range of the row. -/
theorem Tiles.bounds (tiles : Tiles start stop cells) (member : cell ∈ cells) :
    start ≤ cell.offset ∧ cell.next ≤ stop ∧ cell.Regular := by
  induction cells generalizing start with
  | nil => cases member
  | cons first rest inductionHypothesis =>
    obtain ⟨rfl, regular, rest⟩ := tiles
    rcases List.mem_cons.mp member with rfl | later
    · exact ⟨Nat.le_refl _, rest.le, regular⟩
    · obtain ⟨low, high, regularLater⟩ := inductionHypothesis rest later
      exact ⟨by unfold next at low; omega, high, regularLater⟩

/-- The cells of a row do not overlap. -/
theorem Tiles.apart (tiles : Tiles start stop cells) (one : cell ∈ cells) (two : other ∈ cells) :
    cell = other ∨ cell.next ≤ other.offset ∨ other.next ≤ cell.offset := by
  induction cells generalizing start with
  | nil => cases one
  | cons first rest inductionHypothesis =>
    obtain ⟨rfl, _, later⟩ := tiles
    rcases List.mem_cons.mp one with here | oneLater <;>
      rcases List.mem_cons.mp two with there | twoLater
    · exact Or.inl (here.trans there.symm)
    · exact Or.inr (Or.inl (here ▸ (later.bounds twoLater).1))
    · exact Or.inr (Or.inr (there ▸ (later.bounds oneLater).1))
    · exact inductionHypothesis later oneLater twoLater

/-- In a row that begins at an aligned offset, all cells do. -/
theorem Tiles.aligned (tiles : Tiles start stop cells) (whole : start % 16 = 0) :
    stop % 16 = 0 ∧ ∀ cell ∈ cells, cell.offset % 16 = 0 := by
  induction cells generalizing start with
  | nil =>
    obtain rfl : start = stop := tiles
    exact ⟨whole, by simp⟩
  | cons first rest inductionHypothesis =>
    obtain ⟨rfl, regular, rest⟩ := tiles
    obtain ⟨last, others⟩ := inductionHypothesis rest (by
      have := regular.1
      unfold next
      omega)
    exact ⟨last, List.forall_mem_cons.mpr ⟨whole, others⟩⟩

theorem Tiles.nodup (tiles : Tiles start stop cells) : (cells.map offset).Nodup := by
  induction cells generalizing start with
  | nil => exact List.nodup_nil
  | cons first rest inductionHypothesis =>
    obtain ⟨rfl, regular, rest⟩ := tiles
    refine List.nodup_cons.mpr ⟨fun found => ?_, inductionHypothesis rest⟩
    obtain ⟨cell, member, same⟩ := List.mem_map.mp found
    have low := (rest.bounds member).1
    have large := regular.2
    unfold next at low
    omega

/-- A row ends as far from its begin as its cells are large. -/
theorem Tiles.stop_eq (tiles : Tiles start stop cells) :
    stop = start + (cells.map size).foldr (· + ·) 0 := by
  induction cells generalizing start with
  | nil => exact Eq.symm tiles
  | cons first rest inductionHypothesis =>
    obtain ⟨rfl, _, rest⟩ := tiles
    rw [inductionHypothesis rest, List.map_cons, List.foldr_cons]
    unfold next
    omega

/-! ### The order of search -/

/-- The cells with one more, in front of the first that is not smaller. -/
def insertInto (cell : Cell) (cells : List Cell) : List Cell :=
  cells.filter (·.size < cell.size) ++ cell :: cells.filter (cell.size ≤ ·.size)

/-- Whether cells come in ascending order of their sizes. -/
def Ascending (cells : List Cell) : Prop :=
  cells.Pairwise fun first second => first.size ≤ second.size

theorem mem_insertInto : other ∈ cell.insertInto cells ↔ other = cell ∨ other ∈ cells := by
  simp only [insertInto, List.mem_append, List.mem_cons, List.mem_filter, decide_eq_true_eq]
  constructor
  · rintro (⟨member, _⟩ | rfl | ⟨member, _⟩)
    · exact Or.inr member
    · exact Or.inl rfl
    · exact Or.inr member
  · rintro (rfl | member)
    · exact Or.inr (Or.inl rfl)
    · rcases Nat.lt_or_ge other.size cell.size with smaller | larger
      · exact Or.inl ⟨member, smaller⟩
      · exact Or.inr (Or.inr ⟨member, larger⟩)

/-- Where a condition holds of all cells in front of any cell that it holds of, the cells that
fulfil it come first. -/
theorem filter_append_filter_not {condition : Cell → Bool}
    (closed : cells.Pairwise fun first second => condition second = true → condition first = true) :
    cells.filter condition ++ cells.filter (fun cell => ! condition cell) = cells := by
  induction cells with
  | nil => rfl
  | cons cell rest inductionHypothesis =>
    obtain ⟨least, restClosed⟩ := List.pairwise_cons.mp closed
    by_cases fulfils : condition cell = true
    · simp only [List.filter_cons, fulfils, if_true, Bool.not_true, Bool.false_eq_true, if_false,
        List.cons_append, inductionHypothesis restClosed]
    · have nobody : ∀ other ∈ cell :: rest, ¬ condition other = true := by
        intro other member
        rcases List.mem_cons.mp member with rfl | later
        · exact fulfils
        · exact fun holds => fulfils (least other later holds)
      have none : (cell :: rest).filter condition = [] := List.filter_eq_nil_iff.mpr nobody
      have all : (cell :: rest).filter (fun cell => ! condition cell) = cell :: rest :=
        List.filter_eq_self.mpr fun other member => by simp [nobody other member]
      rw [none, all, List.nil_append]

theorem not_smaller (bound : Nat) :
    (fun cell : Cell => ! decide (cell.size < bound)) = fun cell => decide (bound ≤ cell.size) := by
  funext cell
  rw [← decide_not]
  exact decide_eq_decide.mpr Nat.not_lt

/-- Ascending cells are those below a bound, followed by those from it on. -/
theorem Ascending.split (ascending : Ascending cells) (bound : Nat) :
    cells.filter (·.size < bound) ++ cells.filter (bound ≤ ·.size) = cells := by
  rw [← not_smaller]
  refine filter_append_filter_not (ascending.imp fun least small => ?_)
  simp only [decide_eq_true_eq] at small ⊢
  omega

theorem Ascending.filter (ascending : Ascending cells) (condition : Cell → Bool) :
    Ascending (cells.filter condition) :=
  List.Pairwise.filter condition ascending

/-- A cell that is put among others keeps what holds of every two of them in their order. -/
theorem pairwise_insertInto {relation : Cell → Cell → Prop} (pairwise : cells.Pairwise relation)
    (behind : ∀ other ∈ cells, other.size < cell.size → relation other cell)
    (before : ∀ other ∈ cells, cell.size ≤ other.size → relation cell other)
    (across : ∀ one ∈ cells, ∀ other ∈ cells, one.size < other.size → relation one other) :
    (cell.insertInto cells).Pairwise relation := by
  unfold Cell.insertInto
  rw [List.pairwise_append, List.pairwise_cons]
  refine ⟨pairwise.filter _, ⟨fun other found => ?_, pairwise.filter _⟩,
    fun one found other later => ?_⟩
  · obtain ⟨member, large⟩ := List.mem_filter.mp found
    exact before other member (by simpa using large)
  · obtain ⟨oneMember, small⟩ := List.mem_filter.mp found
    have small : one.size < cell.size := by simpa using small
    rcases List.mem_cons.mp later with rfl | later
    · exact behind one oneMember small
    · obtain ⟨member, large⟩ := List.mem_filter.mp later
      have large : cell.size ≤ other.size := by simpa using large
      exact across one oneMember other member (Nat.lt_of_lt_of_le small large)

theorem Ascending.insertInto (ascending : Ascending cells) (cell : Cell) :
    Ascending (cell.insertInto cells) :=
  pairwise_insertInto ascending (fun _ _ => Nat.le_of_lt) (fun _ _ => id)
    fun _ _ _ _ => Nat.le_of_lt

theorem insertInto_perm (cell : Cell) (cells : List Cell) :
    (cell.insertInto cells).Perm (cell :: cells) := by
  have parts := List.filter_append_perm (fun other : Cell => decide (other.size < cell.size)) cells
  rw [not_smaller] at parts
  exact (List.perm_middle).trans (parts.cons cell)

/-- A condition that a cell does not fulfil does not see it among the others. -/
theorem filter_insertInto (ascending : Ascending cells) (cell : Cell)
    (condition : Cell → Bool) :
    (cell.insertInto cells).filter condition =
      if condition cell then cell.insertInto (cells.filter condition)
      else cells.filter condition := by
  have swap (other : Cell → Bool) : (cells.filter other).filter condition =
      (cells.filter condition).filter other := by
    simp only [List.filter_filter, Bool.and_comm]
  have parts := (ascending.filter condition).split cell.size
  unfold insertInto
  rw [List.filter_append, List.filter_cons, swap, swap]
  split
  · rfl
  · exact parts

end Cell

end SegregatedFit
