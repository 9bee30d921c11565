/-
This file runs the allocator without memory. A chart is all that decides how a heap goes on:
its cells, the free ones among them in the order of search, and a few numbers. The operations
of heaps are functions of charts here. No function mentions the buckets of an index, nor any
byte of a payload, so whatever follows a chart cannot depend on them.
-/

import SegregatedFit.Heap.Resize
import SegregatedFit.Proofs.Cell.Space

namespace SegregatedFit

/-- What a heap knows about its arena besides the blocks. -/
structure Setting where
  size : Nat
  growths : Nat
  allows : (size count : Nat) → Bool
  capacity : Nat
  config : Config

namespace Setting

/-- The number of bytes by which the arena can still grow. -/
def remaining (setting : Setting) : Nat :=
  setting.capacity - setting.size

/-- The setting after one growth. -/
def grown (setting : Setting) (count : Nat) : Setting :=
  { setting with size := setting.size + count, growths := setting.growths + 1 }

/-- Whether an arena grows by at least one block at a time, and has done so. -/
structure Growing (setting : Setting) : Prop where
  chunks : 32 ≤ setting.config.chunkSize
  counted : 32 * setting.growths + 32 ≤ setting.size

theorem Growing.grown {setting : Setting} (growing : setting.Growing) {count : Nat}
    (large : 32 ≤ count) : (setting.grown count).Growing where
  chunks := growing.chunks
  counted := by
    have counted := growing.counted
    simp only [Setting.grown]
    omega

end Setting

/-- A heap apart from memory. The order lists the free cells as a search meets them. -/
structure Chart where
  setting : Setting
  cells : List Cell
  order : List Cell

namespace Chart

/-- Puts other cells into a range. The free ones among them join the order. -/
def replace (chart : Chart) (range : Cell) (parts : List Cell) : Chart where
  setting := chart.setting
  cells := range.before chart.cells ++ parts ++ range.after chart.cells
  order := (parts.filter (! ·.allocated)).foldr Cell.insertInto (range.without chart.order)

/-- The free cell that a range becomes with its free neighbours. -/
def joined (chart : Chart) (range : Cell) : Cell :=
  Cell.join (Cell.freeLast? (range.before chart.cells)) range
    (Cell.freeHead? (range.after chart.cells))

/-- Makes a range free, together with its free neighbours. -/
def free (chart : Chart) (range : Cell) : Chart :=
  chart.replace (chart.joined range) [chart.joined range]

/-- Grows by at least `size` bytes, and answers the free cell at the end. -/
def extend (chart : Chart) (size : Nat) : Except Refusal Cell × Chart :=
  match alignUp? (max size chart.setting.config.chunkSize) with
  | none => (.error (.outOfMemory size chart.setting.remaining), chart)
  | some growth =>
    if chart.setting.allows chart.setting.size growth then
      let range := { offset := chart.setting.size, size := growth, allocated := false }
      (.ok (chart.joined range),
        Chart.free { chart with setting := chart.setting.grown growth } range)
    else
      (.error (.outOfMemory growth chart.setting.remaining), chart)

/-- The cell to cut `size` bytes from: the first that fits, or a new one at the end. -/
def findOrExtend (chart : Chart) (size : Nat) : Except Refusal Cell × Chart :=
  match chart.order.find? (size ≤ ·.size) with
  | some cell => (.ok cell, chart)
  | none => chart.extend size

/-- Cuts `size` bytes from a free cell. -/
def place (chart : Chart) (cell : Cell) (size : Nat) : Chart :=
  chart.replace cell (cell.parts chart.setting.config.splitThreshold size)

/-- Allocates a cell with room for `request` bytes, and answers its offset. -/
def allocate (chart : Chart) (request : Nat) : Except Refusal Nat × Chart :=
  if request = 0 then
    (.error .invalidArgument, chart)
  else
    match blockSize? request with
    | none => (.error (.outOfMemory request chart.setting.remaining), chart)
    | some size =>
      match chart.findOrExtend size with
      | (.error refusal, after) => (.error refusal, after)
      | (.ok cell, after) =>
        (.ok (cell.used after.setting.config.splitThreshold size).offset, after.place cell size)

/-- Cuts an allocated cell down to `size` bytes, if the rest can be a cell. -/
def trim (chart : Chart) (cell : Cell) (size : Nat) : Chart :=
  if 32 ≤ cell.size - size then
    (chart.replace cell [{ offset := cell.offset, size, allocated := true }]).free
      { offset := cell.offset + size, size := cell.size - size, allocated := false }
  else
    chart

/-- An allocated cell with the free cell after it, if there is one. -/
def enlarged (chart : Chart) (cell : Cell) : Cell where
  offset := cell.offset
  size := cell.size + (Cell.freeHead? (cell.after chart.cells)).elim 0 (·.size)
  allocated := true

/-- Makes sure that an allocated cell and the free cell after it have `size` bytes together, if
need be by growth at the end. -/
def reserve? (chart : Chart) (cell : Cell) (size : Nat) : Option Chart :=
  if size ≤ (chart.enlarged cell).size then
    some chart
  else if (chart.enlarged cell).next = chart.setting.size then
    match chart.extend (size - (chart.enlarged cell).size) with
    | (.ok _, grown) => some grown
    | (.error _, _) => none
  else
    none

/-- Makes an allocated cell and the free cell after it into one, and cuts that down to `size`
bytes. -/
def absorb (chart : Chart) (cell : Cell) (size : Nat) : Chart :=
  (chart.replace (chart.enlarged cell) [chart.enlarged cell]).trim (chart.enlarged cell) size

/-- Gives an allocated cell room for `request` bytes, and answers where it lies afterwards. -/
def resize (chart : Chart) (cell : Cell) (request : Nat) : Option Nat × Chart :=
  match blockSize? request with
  | none => (none, chart)
  | some size =>
    if size ≤ cell.size then
      (some cell.offset, chart.trim cell size)
    else
      match chart.reserve? cell size with
      | some reserved => (some cell.offset, reserved.absorb cell size)
      | none =>
        match chart.allocate request with
        | (.error _, after) => (none, after)
        | (.ok target, after) => (some target, after.free cell)

/-! ### Outcomes of growth -/

variable {chart after : Chart} {size : Nat}

/-- A chart that grows gets a range at its end, which becomes free. -/
theorem extend_eq_ok_iff {cell : Cell} :
    chart.extend size = (.ok cell, after) ↔
      ∃ growth, alignUp? (max size chart.setting.config.chunkSize) = some growth ∧
        chart.setting.allows chart.setting.size growth = true ∧
        chart.joined ⟨chart.setting.size, growth, false⟩ = cell ∧
        Chart.free { chart with setting := chart.setting.grown growth }
          ⟨chart.setting.size, growth, false⟩ = after := by
  unfold extend
  cases alignUp? (max size chart.setting.config.chunkSize) with
  | none => simp
  | some growth =>
    by_cases room : chart.setting.allows chart.setting.size growth = true
    · simp [room]
    · simp [room]

/-- A chart that cannot grow stays as it is, and tells how many bytes it asked for. -/
theorem extend_eq_error_iff {refusal : Refusal} :
    chart.extend size = (.error refusal, after) ↔ chart = after ∧
      ((alignUp? (max size chart.setting.config.chunkSize) = none ∧
          .outOfMemory size chart.setting.remaining = refusal) ∨
        ∃ growth, alignUp? (max size chart.setting.config.chunkSize) = some growth ∧
          chart.setting.allows chart.setting.size growth = false ∧
          .outOfMemory growth chart.setting.remaining = refusal) := by
  unfold extend
  cases alignUp? (max size chart.setting.config.chunkSize) with
  | none => simp [and_comm]
  | some growth =>
    by_cases room : chart.setting.allows chart.setting.size growth = true
    · simp [room]
    · simp [room, and_comm]

end Chart

namespace Heap

variable {σ : Type} [Source σ] {last : Nat}

/-- The setting of a heap. -/
def setting (heap : Heap σ last) : Setting where
  size := heap.arena.size
  growths := heap.arena.growths
  allows := Source.allows heap.arena.source
  capacity := Source.capacity heap.arena.source
  config := heap.config

end Heap

end SegregatedFit
