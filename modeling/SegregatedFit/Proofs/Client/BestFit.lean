/-
This file proves that a search of the index finds a best fit. A heap that is well formed has its
free blocks in its lists and nothing else, and the order of search begins with the smallest ones,
so a search finds the smallest free block of the whole arena that is large enough. Among blocks of
one size it finds the one that joined the index last, as the log of the index tells.
-/

import SegregatedFit.Proofs.Arena.Layout
import SegregatedFit.Proofs.Client.History
import SegregatedFit.Proofs.Heap.Shape

namespace SegregatedFit

/-- A history with a log of its index: which blocks joined the lists of the heap, and which left
them, since the heap began. -/
inductive Journal {σ : Type} [Source σ] {last : Nat} (source : σ) (config : Config) :
    List (Call × Reply) → Heap σ last → List Lease → List IndexEvent → Prop
  | begin {arena : Arena σ} {settings : Config} {heap : Heap σ last} {log : List IndexEvent}
      (begun : Arena.init source = .ok arena)
      (created : Heap.create source config = .ok (.ok heap))
      (evolves : (⟨arena, Index.empty, settings⟩ : Heap σ last).Evolves log heap) :
    Journal source config [] heap [] log
  | step {past : List (Call × Reply)} {before after : Heap σ last} {leases : List Lease}
      {log more : List IndexEvent} {call : Call} {reply : Reply}
      (earlier : Journal source config past before leases log)
      (permitted : call.Permitted before leases)
      (performed : call.perform before = .ok reply after)
      (evolves : before.Evolves more after) :
    Journal source config (past ++ [(call, reply)]) after (call.settle reply leases) (log ++ more)

namespace Heap

variable {σ : Type} [Source σ] {last : Nat} {heap : Heap σ last}
variable {log : List IndexEvent} {order : List Cell} {cell : Cell} {block other : Block}

/-- Whether a block is a free block of a heap. -/
def IsFree (heap : Heap σ last) (block : Block) : Prop :=
  block ∈ heap.arena.blocks ∧ block.tag.allocated = false

/-- Whether a block is the best choice for a size. It is free and large enough, no free block that
is large enough is smaller, and every other free block of its size joined the index before. -/
structure IsBestFit (heap : Heap σ last) (log : List IndexEvent) (size : Nat) (block : Block) :
    Prop where
  free : heap.IsFree block
  fits : size ≤ block.tag.size
  least : ∀ other, heap.IsFree other → size ≤ other.tag.size → block.tag.size ≤ other.tag.size
  newest : ∀ other, heap.IsFree other → other.tag.size = block.tag.size → other ≠ block →
    IndexEvent.JoinedLater log block.offset other.offset

theorem IsFree.eq_of_offset_eq (free : heap.IsFree block) (others : heap.IsFree other)
    (same : block.offset = other.offset) : block = other := by
  have one := Arena.header?_of_mem_blocks free.1
  have two := Arena.header?_of_mem_blocks others.1
  rw [same, two] at one
  obtain ⟨offset, tag⟩ := block
  exact (congrArg₂ Block.mk same (Option.some.inj one).symm)

/-! ### Free blocks and the order of search -/

/-- The nodes of a well-formed heap are its free blocks. -/
theorem WellFormed.indexes_iff (wellFormed : heap.WellFormed) {node : Nat} :
    heap.Indexes node ↔ ∃ block, heap.IsFree block ∧ block.offset = node := by
  constructor
  · rintro ⟨bucket, nodes, listed, member⟩
    obtain ⟨_, again, _, members⟩ := wellFormed.nodes_eq bucket
    obtain rfl := Except.ok.inj (listed.symm.trans again)
    obtain ⟨block, inArena, here, free, _⟩ := (members node).mp member
    exact ⟨block, ⟨inArena, free⟩, here⟩
  · rintro ⟨block, ⟨inArena, free⟩, rfl⟩
    obtain ⟨nodes, listed, _, members⟩ :=
      wellFormed.nodes_eq ⟨_, Nat.lt_succ_of_le (bucketFor_le last block.tag.size)⟩
    exact ⟨_, nodes, listed, (members _).mpr ⟨block, inArena, rfl, free, rfl⟩⟩

/-- An index without blocks remembers nothing. -/
theorem recalls_empty (arena : Arena σ) (settings : Config) :
    Recalls (⟨arena, Index.empty, settings⟩ : Heap σ last) [] [] where
  follows := Index.empty_follows arena
  hosts := ⟨List.forall_mem_nil _, List.forall_mem_nil _, List.nodup_nil, List.forall_mem_nil _⟩
  ascending := List.Pairwise.nil
  joined := List.forall_mem_nil _
  recent := List.Pairwise.nil

namespace Recalls

theorem size_eq (recalls : heap.Recalls log order) (member : cell ∈ order)
    (free : heap.IsFree block) (same : cell.offset = block.offset) :
    cell.size = block.tag.size := by
  obtain ⟨tag, found, size⟩ := recalls.hosts.measured cell member
  rw [same, Arena.header?_of_mem_blocks free.1] at found
  rw [← size, Option.some.inj found]

/-- Every free block is a cell of the order of search. -/
theorem exists_cell (recalls : heap.Recalls log order) (wellFormed : heap.WellFormed)
    (free : heap.IsFree block) :
    ∃ cell ∈ order, cell.offset = block.offset ∧ cell.size = block.tag.size := by
  obtain ⟨cell, member, same⟩ :=
    recalls.indexes_iff.mp (wellFormed.indexes_iff.mpr ⟨block, free, rfl⟩)
  exact ⟨cell, member, same, recalls.size_eq member free same⟩

/-- Every cell of the order of search is a free block. -/
theorem exists_free (recalls : heap.Recalls log order) (wellFormed : heap.WellFormed)
    (member : cell ∈ order) :
    ∃ block, heap.IsFree block ∧ cell.offset = block.offset ∧ cell.size = block.tag.size := by
  obtain ⟨block, free, same⟩ :=
    wellFormed.indexes_iff.mp (recalls.indexes_iff.mpr ⟨cell, member, rfl⟩)
  exact ⟨block, free, same.symm, recalls.size_eq member free same.symm⟩

/-- A search answers with the best fit, and with nothing where no free block is large enough. -/
theorem finds_best_fit (recalls : heap.Recalls log order) (wellFormed : heap.WellFormed)
    (size : Nat) :
    ∃ answer, heap.index.find heap.arena size = .ok answer ∧
      (answer = none ↔ ∀ block, heap.IsFree block → block.tag.size < size) ∧
      ∀ found, answer = some found → ∃ block, block.offset = found ∧
        heap.IsBestFit log size block := by
  refine ⟨_, Index.find_eq_ok recalls.follows recalls.hosts recalls.ascending size, ?_, ?_⟩
  · rw [Option.map_eq_none_iff, List.find?_eq_none]
    constructor
    · intro none block free
      obtain ⟨cell, member, _, same⟩ := recalls.exists_cell wellFormed free
      have small : cell.size < size := by simpa using none cell member
      omega
    · intro none cell member
      obtain ⟨block, free, _, same⟩ := recalls.exists_free wellFormed member
      have small := none block free
      simp only [decide_eq_true_eq]
      omega
  · intro found answered
    obtain ⟨cell, first, rfl⟩ := Option.map_eq_some_iff.mp answered
    obtain ⟨member, fits, best⟩ := recalls.first_of_find? first
    obtain ⟨block, free, here, size_eq⟩ := recalls.exists_free wellFormed member
    refine ⟨block, here.symm, free, by omega, fun other others large => ?_,
      fun other others same different => ?_⟩
    · obtain ⟨rival, rivals, _, rivalSize⟩ := recalls.exists_cell wellFormed others
      have least := (best rival rivals (by omega)).1
      omega
    · obtain ⟨rival, rivals, there, rivalSize⟩ := recalls.exists_cell wellFormed others
      have newest := (best rival rivals (by omega)).2 (by omega) ?_
      · rwa [here, there] at newest
      · rintro rfl
        exact different (others.eq_of_offset_eq free (there.symm.trans here))

end Recalls

end Heap

section Journals

variable {σ : Type} [Source σ] {last : Nat} {source : σ} {config : Config}
variable {past : List (Call × Reply)} {heap : Heap σ last} {leases : List Lease}
variable {log : List IndexEvent}

/-- Every history has a journal. -/
theorem History.exists_journal (history : History source config past heap leases) :
    ∃ log, Journal source config past heap leases log := by
  induction history with
  | begin created =>
    obtain ⟨arena, settings, begun, progresses⟩ := Chart.exists_progresses_of_create created
    obtain ⟨log, evolves⟩ := progresses.evolves
    exact ⟨log, .begin begun created evolves⟩
  | step earlier permitted performed inductionHypothesis =>
    obtain ⟨log, journal⟩ := inductionHypothesis
    obtain ⟨chart, describes, serves⟩ := earlier.exists_chart
    obtain ⟨more, evolves⟩ :=
      ((describes.yields_perform serves permitted).progresses performed).evolves
    exact ⟨log ++ more, .step journal permitted performed evolves⟩

/-- At every moment the index remembers what a journal tells. -/
theorem Journal.exists_recalls (journal : Journal source config past heap leases log) :
    ∃ order, heap.Recalls log order := by
  induction journal with
  | begin begun created evolves =>
    exact evolves.exists_recalls (Heap.recalls_empty _ _)
  | step earlier permitted performed evolves inductionHypothesis =>
    obtain ⟨order, recalls⟩ := inductionHypothesis
    exact evolves.exists_recalls recalls

end Journals

/-- At every moment of a history, whatever the number of its buckets, the search for a size finds
nothing exactly when no free block of the arena is large enough. Otherwise it finds the best fit:
a smallest one of all free blocks that are large enough, and among several of them the one that
joined the index last. The latter holds of every journal of the history, and there is one. -/
theorem History.finds_global_best_fit {σ : Type} [Source σ] {last : Nat} {source : σ}
    {config : Config} {past : List (Call × Reply)} {heap : Heap σ last} {leases : List Lease}
    (history : History source config past heap leases) :
    (∃ log, Journal source config past heap leases log) ∧
      ∀ log, Journal source config past heap leases log → ∀ size,
        ∃ answer, heap.index.find heap.arena size = .ok answer ∧
          (answer = none ↔ ∀ block, heap.IsFree block → block.tag.size < size) ∧
          ∀ found, answer = some found → ∃ block, block.offset = found ∧
            heap.IsBestFit log size block := by
  obtain ⟨chart, describes, _⟩ := history.exists_chart
  refine ⟨history.exists_journal, fun log journal size => ?_⟩
  obtain ⟨order, recalls⟩ := journal.exists_recalls
  exact recalls.finds_best_fit describes.wellFormed size

/-- A client allocates three times, and releases its second block. -/
def Session.recycling : List Call :=
  [.allocate 40, .allocate 24, .allocate 24, .release ⟨80, by decide⟩]

/-- The released block is found before the rest of the arena, which has the same size. -/
theorem History.finds_global_best_fit_recycling :
    ∃ (session : Session Buffer 1) (log : List IndexEvent),
      Session.replay? (Buffer.ofMaximum 512) ⟨32, 144, 256⟩ Session.recycling = some session ∧
        Journal (Buffer.ofMaximum 512) ⟨32, 144, 256⟩ session.past session.heap session.leases log ∧
        session.heap.index.find session.heap.arena 24 = .ok (some 80) ∧
        ∃ block, block.offset = 80 ∧ session.heap.IsBestFit log 24 block := by
  have answered : (Session.replay? (Buffer.ofMaximum 512) ⟨32, 144, 256⟩ Session.recycling :
      Option (Session Buffer 1)).map (fun session =>
        (session.heap.index.find session.heap.arena 24).toOption) = some (some (some 80)) := by
    decide +kernel
  obtain ⟨session, replayed, searched⟩ := Option.map_eq_some_iff.mp answered
  have history := Session.history_of_replay? replayed
  obtain ⟨⟨log, journal⟩, finds⟩ := History.finds_global_best_fit history
  obtain ⟨answer, found, _, best⟩ := finds log journal 24
  rw [found] at searched
  obtain rfl : answer = some 80 := Option.some.inj searched
  exact ⟨session, log, replayed, journal, found, best 80 rfl⟩

end SegregatedFit
