/-
This file follows a heap through the middle of an update. Every update writes the tags of a
single range, and everything in front of that range and behind it stays in order. A heap is
opened at the range: the cells on both sides can be read from memory, but nothing is said
about the range between them. An update then opens the heap, fills the gap with cells again,
and closes it. Cells may join and leave the index at any time on the way.
-/

import SegregatedFit.Arena.Layout
import SegregatedFit.Proofs.Chart
import SegregatedFit.Proofs.Index.Recency

namespace SegregatedFit

namespace Cell

/-- The bytes of the header of a cell, and of its footer while it is free. -/
def TagBytes (cell : Cell) (index : Nat) : Prop :=
  cell.offset ≤ index + 8 ∧ index < cell.offset ∨
    cell.allocated = false ∧ cell.next ≤ index + 16 ∧ index + 8 < cell.next

end Cell

namespace Arena

variable {σ : Type} [Source σ] {before after : Arena σ} {touched : Nat → Prop} {cell : Cell}

/-- A cell is still shown when none of its tags is touched. -/
theorem Alters.shows_cell (alters : Alters touched before after) {flag : Bool}
    (regular : cell.allocated = false → cell.Regular)
    (shown : before.Shows ⟨cell.offset, cell.tag flag⟩)
    (clear : ∀ index, touched index → ¬ cell.TagBytes index) :
    after.Shows ⟨cell.offset, cell.tag flag⟩ := by
  refine alters.shows shown (fun index low high hit => ?_) fun free index low high hit => ?_
  · exact clear index hit (Or.inl ⟨low, high⟩)
  · have free : cell.allocated = false := free
    have large := (regular free).2
    simp only [Block.next, Cell.size_tag (regular free)] at low high
    refine clear index hit (Or.inr ⟨free, ?_⟩)
    unfold Cell.next
    omega

end Arena

namespace Heap

variable {σ : Type} [Source σ] {last : Nat}

/-- Whether a heap is in order but for the range from `low` to `high`. The flag tells whether
the cells behind the range take the last block of it for allocated. -/
structure Opened (heap : Heap σ last) (setting : Setting) (front : List Cell) (low high : Nat)
    (prevAllocated : Bool) (back order : List Cell) : Prop where
  known : heap.setting = setting
  prologue : heap.arena.PrologueIntact
  frontTiles : Cell.Tiles 32 low front
  backTiles : Cell.Tiles high setting.size back
  ordered : low ≤ high
  frontShown : ∀ block ∈ Cell.blocks true front, heap.arena.Shows block
  backShown : ∀ block ∈ Cell.blocks prevAllocated (back ++ [Cell.epilogue setting.size]),
    heap.arena.Shows block
  free : ∀ cell ∈ order, cell ∈ front ++ back ∧ cell.allocated = false
  distinct : order.Nodup
  ascending : Cell.Ascending order
  follows : heap.index.Follows heap.arena order

/-- Whether a heap is in order, except that free cells may be adjacent or miss in the order. -/
def Closed (heap : Heap σ last) (setting : Setting) (cells order : List Cell) : Prop :=
  heap.Opened setting [] 32 32 true cells order

variable {heap before : Heap σ last} {setting : Setting} {front back inside order : List Cell}
variable {low high : Nat} {prevAllocated : Bool} {cell other : Cell}

namespace Opened

theorem size_eq (opened : heap.Opened setting front low high prevAllocated back order) :
    heap.arena.size = setting.size :=
  congrArg Setting.size opened.known

/-- The setting tells which growth the source of the heap allows now. -/
theorem allows_eq (opened : heap.Opened setting front low high prevAllocated back order)
    (count : Nat) :
    Source.allows heap.arena.source heap.arena.size count =
      setting.allows setting.size count := by
  rw [← opened.known]
  rfl

/-- A cell lies on one side of the gap. -/
theorem bounds (opened : heap.Opened setting front low high prevAllocated back order)
    (member : cell ∈ front ++ back) : cell.Regular ∧ 32 ≤ cell.offset ∧
      cell.next ≤ setting.size ∧ (cell.next ≤ low ∨ high ≤ cell.offset) := by
  have below := opened.frontTiles.le
  have above := opened.backTiles.le
  have ordered := opened.ordered
  rcases List.mem_append.mp member with inFront | inBack
  · obtain ⟨begins, ends, regular⟩ := opened.frontTiles.bounds inFront
    exact ⟨regular, begins, by omega, Or.inl ends⟩
  · obtain ⟨begins, ends, regular⟩ := opened.backTiles.bounds inBack
    exact ⟨regular, by omega, ends, Or.inr begins⟩

/-- The cells do not overlap. -/
theorem apart (opened : heap.Opened setting front low high prevAllocated back order)
    (one : cell ∈ front ++ back) (two : other ∈ front ++ back) :
    cell = other ∨ cell.next ≤ other.offset ∨ other.next ≤ cell.offset := by
  have ordered := opened.ordered
  rcases List.mem_append.mp one with oneFront | oneBack <;>
    rcases List.mem_append.mp two with twoFront | twoBack
  · exact opened.frontTiles.apart oneFront twoFront
  · have := (opened.frontTiles.bounds oneFront).2.1
    have := (opened.backTiles.bounds twoBack).1
    exact Or.inr (Or.inl (by omega))
  · have := (opened.frontTiles.bounds twoFront).2.1
    have := (opened.backTiles.bounds oneBack).1
    exact Or.inr (Or.inr (by omega))
  · exact opened.backTiles.apart oneBack twoBack

/-- Every cell can be read from memory. -/
theorem exists_shows (opened : heap.Opened setting front low high prevAllocated back order)
    (member : cell ∈ front ++ back) : ∃ flag, heap.arena.Shows ⟨cell.offset, cell.tag flag⟩ := by
  rcases List.mem_append.mp member with inFront | inBack
  · obtain ⟨flag, found⟩ := Cell.exists_mem_blocks true inFront
    exact ⟨flag, opened.frontShown _ found⟩
  · obtain ⟨flag, found⟩ := Cell.exists_mem_blocks prevAllocated
      (List.mem_append_left [Cell.epilogue setting.size] inBack)
    exact ⟨flag, opened.backShown _ found⟩

/-- Different cells of a heap can be the nodes of lists. -/
theorem hosts_of (opened : heap.Opened setting front low high prevAllocated back order)
    {cells : List Cell} (members : ∀ cell ∈ cells, cell ∈ front ++ back)
    (distinct : cells.Nodup) : heap.arena.Hosts cells where
  measured cell member := by
    obtain ⟨flag, shown⟩ := opened.exists_shows (members cell member)
    exact ⟨_, shown.header, Cell.size_tag (opened.bounds (members cell member)).1 flag⟩
  inside cell member := by
    obtain ⟨⟨_, large⟩, _, ends, _⟩ := opened.bounds (members cell member)
    rw [opened.size_eq]
    unfold Cell.next at ends
    omega
  distinct := by
    refine List.Nodup.map_on (fun one oneMember two twoMember same => ?_) distinct
    have oneLarge := (opened.bounds (members one oneMember)).1.2
    have twoLarge := (opened.bounds (members two twoMember)).1.2
    rcases opened.apart (members one oneMember) (members two twoMember) with same | apart
    · exact same
    · unfold Cell.next at apart
      omega
  scattered := by
    intro first firstMember second secondMember
    obtain ⟨one, oneMember, rfl⟩ := List.mem_map.mp firstMember
    obtain ⟨two, twoMember, rfl⟩ := List.mem_map.mp secondMember
    have oneLarge := (opened.bounds (members one oneMember)).1.2
    have twoLarge := (opened.bounds (members two twoMember)).1.2
    rcases opened.apart (members one oneMember) (members two twoMember) with rfl | apart
    · exact Or.inl rfl
    · unfold Cell.next at apart
      omega

theorem hosts (opened : heap.Opened setting front low high prevAllocated back order) :
    heap.arena.Hosts order :=
  opened.hosts_of (fun cell member => (opened.free cell member).1) opened.distinct

/-! ### Steps -/

/-- A change of the arena alone, after which the index follows the same order. -/
theorem yields_onArena (opened : before.Opened setting front low high prevAllocated back order)
    {Answer : Type} {action : Action (Arena σ) Answer} {condition : Answer → Heap σ last → Prop}
    (yields : Action.Yields before.arena action fun answer arena =>
      condition answer { before with arena })
    (steady : ∀ answer after, condition answer after →
      after.index.Follows after.arena order ∧ after.arena.Hosts order)
    (develops : ∀ answer arena, action before.arena = .ok answer arena →
      ∃ granted, before.arena.Develops granted arena) :
    Heap.Yields before (onArena action) condition := by
  refine Heap.yields_onArena (yields.mono fun answer arena holds => ⟨?_, holds⟩) develops
  obtain ⟨follows, hosts⟩ := steady answer _ holds
  exact keepsNodes_of_follows opened.follows opened.hosts opened.ascending follows hosts

/-! ### Changing memory -/

/-- A heap stays in order in front of the gap when no tag is touched there. What lies behind
the gap may get other tags. -/
theorem alterFront (opened : before.Opened setting front low high prevAllocated back order)
    {arena : Arena σ} {index : Index last} {touched : Nat → Prop} {after : List Cell}
    {allocated : Bool} (alters : Arena.Alters touched before.arena arena)
    (behind : ∀ index, touched index → 24 ≤ index)
    (clear : ∀ cell ∈ front, ∀ index, touched index → ¬ cell.TagBytes index)
    (shown : ∀ block ∈ Cell.blocks allocated (back ++ [Cell.epilogue setting.size]),
      arena.Shows block)
    (free : ∀ cell ∈ after, cell ∈ front ++ back ∧ cell.allocated = false)
    (distinct : after.Nodup) (ascending : Cell.Ascending after)
    (follows : index.Follows arena after) :
    Heap.Opened { before with arena, index } setting front low high allocated back after where
  known := by
    rw [← opened.known]
    simp only [Heap.setting, alters.size, alters.growths, alters.allows, alters.capacity]
  prologue := by
    obtain ⟨header, footer, headerRead, footerRead, same⟩ := opened.prologue
    refine ⟨header, footer, ?_, ?_, same⟩
    · rwa [alters.word? fun index _ _ hit => by have := behind index hit; omega]
    · rwa [alters.word? fun index _ _ hit => by have := behind index hit; omega]
  frontTiles := opened.frontTiles
  backTiles := opened.backTiles
  ordered := opened.ordered
  frontShown block member := by
    obtain ⟨cell, found, flag, rfl⟩ := Cell.exists_of_mem_blocks member
    exact alters.shows_cell (fun _ => (opened.frontTiles.bounds found).2.2)
      (opened.frontShown _ member) (clear cell found)
  backShown := shown
  free := free
  distinct := distinct
  ascending := ascending
  follows := follows

/-- What lies behind the gap has valid sizes where it is free. -/
theorem regular_back (opened : heap.Opened setting front low high prevAllocated back order)
    (member : cell ∈ back ++ [Cell.epilogue setting.size]) (free : cell.allocated = false) :
    cell.Regular := by
  rcases List.mem_append.mp member with inBack | atEnd
  · exact (opened.backTiles.bounds inBack).2.2
  · rw [List.mem_singleton.mp atEnd] at free
    cases free

/-- A heap stays in order when no tag is touched and its index is in order again. -/
theorem alter (opened : before.Opened setting front low high prevAllocated back order)
    {arena : Arena σ} {index : Index last} {touched : Nat → Prop} {after : List Cell}
    (alters : Arena.Alters touched before.arena arena)
    (behind : ∀ index, touched index → 24 ≤ index)
    (clear : ∀ cell ∈ front ++ (back ++ [Cell.epilogue setting.size]), ∀ index,
      touched index → ¬ cell.TagBytes index)
    (free : ∀ cell ∈ after, cell ∈ front ++ back ∧ cell.allocated = false)
    (distinct : after.Nodup) (ascending : Cell.Ascending after)
    (follows : index.Follows arena after) :
    Heap.Opened { before with arena, index } setting front low high prevAllocated back after := by
  refine opened.alterFront alters behind (fun cell found => ?_) (fun block member => ?_) free
    distinct ascending follows
  · exact clear cell (List.mem_append_left _ found)
  · obtain ⟨cell, found, flag, rfl⟩ := Cell.exists_of_mem_blocks member
    exact alters.shows_cell (opened.regular_back found) (opened.backShown _ member)
      (clear cell (List.mem_append_right _ found))

/-- The tags of the cells are outside of the gap. -/
theorem not_tagBytes (opened : heap.Opened setting front low high prevAllocated back order)
    {index : Nat} (above : low ≤ index + 8) (below : index + 8 < high) :
    ∀ cell ∈ front ++ (back ++ [Cell.epilogue setting.size]), ¬ cell.TagBytes index := by
  intro cell member tagged
  have ends := opened.backTiles.le
  rcases List.mem_append.mp member with inFront | rest
  · have bounds := (opened.frontTiles.bounds inFront).2
    have large := bounds.2.2
    unfold Cell.TagBytes Cell.next at *
    omega
  · rcases List.mem_append.mp rest with inBack | atEnd
    · have bounds := opened.backTiles.bounds inBack
      have large := bounds.2.2.2
      unfold Cell.TagBytes Cell.next at *
      omega
    · rw [List.mem_singleton.mp atEnd] at tagged
      simp only [Cell.TagBytes, Cell.epilogue, Bool.true_eq_false, false_and, or_false] at tagged
      omega

/-- Writing into the gap disturbs nothing. -/
theorem write (opened : before.Opened setting front low high prevAllocated back order)
    {arena : Arena σ} {touched : Nat → Prop}
    (alters : Arena.Alters touched before.arena arena)
    (within : ∀ index, touched index → low ≤ index + 8 ∧ index + 8 < high) :
    Heap.Opened { before with arena } setting front low high prevAllocated back order := by
  have begins := opened.frontTiles.le
  refine opened.alter alters (fun index hit => ?_) (fun cell member index hit => ?_) opened.free
    opened.distinct opened.ascending (opened.follows.alter alters ?_)
  · have := within index hit
    omega
  · exact opened.not_tagBytes (within index hit).1 (within index hit).2 cell member
  · rintro index hit ⟨node, member, from', to'⟩
    have := within index hit
    obtain ⟨⟨_, large⟩, _, _, side⟩ := opened.bounds (opened.free node member).1
    unfold Cell.next at side
    omega

end Opened

end Heap

end SegregatedFit
