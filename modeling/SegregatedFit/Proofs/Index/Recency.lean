/-
This file proves that an index remembers the order in which blocks joined it. Among blocks of one
size the order of search begins with the block that was inserted last, because a block is put in
front of the first node that is not smaller. Whatever a heap does on the way, the log of its index
alone decides that order.
-/

import SegregatedFit.Proofs.Heap.Evolution
import SegregatedFit.Proofs.Index.Order

namespace SegregatedFit

namespace Heap

variable {σ : Type} [Source σ] {last : Nat} {heap : Heap σ last} {arena : Arena σ}
variable {order : List Cell} {cell : Cell} {node : Nat}

/-! ### Steps of an index that follows an order -/

/-- The nodes of the lists are those of the order that the index follows. -/
theorem indexes_iff (follows : heap.index.Follows heap.arena order)
    (hosts : heap.arena.Hosts order) (ascending : Cell.Ascending order) :
    heap.Indexes node ↔ ∃ cell ∈ order, cell.offset = node := by
  constructor
  · rintro ⟨bucket, nodes, listed, member⟩
    have represents := follows.represents hosts ascending bucket
    obtain rfl := Except.ok.inj (listed.symm.trans represents.nodes_eq)
    obtain ⟨cell, found, rfl⟩ := List.mem_map.mp member
    exact ⟨cell, (Index.mem_bucketCells.mp found).1, rfl⟩
  · rintro ⟨cell, member, rfl⟩
    exact ⟨⟨_, Nat.lt_succ_of_le (bucketFor_le last cell.size)⟩, _,
      (follows.represents hosts ascending _).nodes_eq,
      List.mem_map_of_mem (Index.mem_bucketCells.mpr ⟨member, rfl⟩)⟩

/-- The nodes stay as they are when the index follows the same order afterwards. -/
theorem keepsNodes_of_follows (follows : heap.index.Follows heap.arena order)
    (hosts : heap.arena.Hosts order) (ascending : Cell.Ascending order)
    (followed : heap.index.Follows arena order) (hosted : arena.Hosts order) :
    heap.KeepsNodes arena := by
  intro node indexes
  obtain ⟨cell, member, rfl⟩ := (indexes_iff follows hosts ascending).mp indexes
  obtain ⟨tag, found, size⟩ := hosts.measured cell member
  obtain ⟨other, reread, same⟩ := hosted.measured cell member
  refine ⟨?_, followed.words_eq follows member⟩
  rw [found, reread, Option.map_some, Option.map_some, size, same]

/-- A cell that can be a node beside those of the order may join them. -/
theorem admits_of_hosts (follows : heap.index.Follows heap.arena order)
    (hosts : heap.arena.Hosts (cell :: order)) (ascending : Cell.Ascending order) :
    heap.Admits cell.offset where
  headed := by
    obtain ⟨tag, found, _⟩ := hosts.measured cell List.mem_cons_self
    rw [found]
    rfl
  inside := hosts.inside cell List.mem_cons_self
  apart node indexes := by
    have olds := hosts.sublist (List.sublist_cons_self cell order)
    obtain ⟨other, member, rfl⟩ := (indexes_iff follows olds ascending).mp indexes
    refine hosts.apart (List.mem_cons_of_mem _ member) List.mem_cons_self fun same => ?_
    exact (List.nodup_cons.mp hosts.distinct).1 (List.mem_map.mpr ⟨other, member, same ▸ rfl⟩)

/-! ### What an index remembers -/

/-- Whether an index follows an order that agrees with a log: all of the cells joined, and among
cells of one size those that joined later come first. -/
structure Recalls (heap : Heap σ last) (log : List IndexEvent) (order : List Cell) : Prop where
  follows : heap.index.Follows heap.arena order
  hosts : heap.arena.Hosts order
  ascending : Cell.Ascending order
  joined : ∀ cell ∈ order, .inserted cell.offset ∈ log
  recent : order.Pairwise fun first second =>
    first.size = second.size → IndexEvent.JoinedLater log first.offset second.offset

namespace Recalls

variable {after : Heap σ last} {log more : List IndexEvent} {block size : Nat}

theorem indexes_iff (recalls : heap.Recalls log order) :
    heap.Indexes node ↔ ∃ cell ∈ order, cell.offset = node :=
  Heap.indexes_iff recalls.follows recalls.hosts recalls.ascending

/-- A change that keeps the nodes keeps what the index remembers. -/
theorem write (recalls : heap.Recalls log order) (keeps : heap.KeepsNodes arena) :
    Heap.Recalls { heap with arena } log order where
  follows := recalls.follows.congr
    (fun cell member => (keeps _ (recalls.indexes_iff.mpr ⟨cell, member, rfl⟩)).2.2)
    fun cell member => (keeps _ (recalls.indexes_iff.mpr ⟨cell, member, rfl⟩)).2.1
  hosts := by
    refine ⟨fun cell member => ?_, fun cell member => ?_, recalls.hosts.distinct,
      recalls.hosts.scattered⟩
    · obtain ⟨tag, found, size⟩ := recalls.hosts.measured cell member
      have kept := (keeps _ (recalls.indexes_iff.mpr ⟨cell, member, rfl⟩)).1
      rw [found, Option.map_some, size] at kept
      exact Option.map_eq_some_iff.mp kept
    · have inside := recalls.hosts.inside cell member
      have kept := (keeps _ (recalls.indexes_iff.mpr ⟨cell, member, rfl⟩)).2.2
      have stored : heap.arena.word? (cell.offset + 8) = some _ :=
        Arena.word?_eq_some_iff.mpr ⟨by omega, rfl⟩
      have bound := (Arena.word?_eq_some_iff.mp (kept.trans stored)).1
      show cell.offset + 16 ≤ arena.size
      omega
  ascending := recalls.ascending
  joined := recalls.joined
  recent := recalls.recent

/-- A block that has room among the nodes is none of them, and can be one of them. -/
theorem hosts_cons (recalls : heap.Recalls log order) (admits : heap.Admits block) {tag : Tag}
    (found : heap.arena.header? block = some tag) :
    heap.arena.Hosts (⟨block, tag.size, false⟩ :: order) := by
  have apart : ∀ node ∈ order.map Cell.offset, node + 24 ≤ block ∨ block + 24 ≤ node := by
    intro node member
    obtain ⟨cell, inOrder, rfl⟩ := List.mem_map.mp member
    exact admits.apart _ (recalls.indexes_iff.mpr ⟨cell, inOrder, rfl⟩)
  refine ⟨List.forall_mem_cons.mpr ⟨⟨tag, found, rfl⟩, recalls.hosts.measured⟩,
    List.forall_mem_cons.mpr ⟨admits.inside, recalls.hosts.inside⟩, ?_, ?_⟩
  · refine List.nodup_cons.mpr ⟨fun member => ?_, recalls.hosts.distinct⟩
    have : block + 24 ≤ block ∨ block + 24 ≤ block := apart block member
    omega
  · intro one oneMember other otherMember
    rcases List.mem_cons.mp oneMember with rfl | oneOld <;>
      rcases List.mem_cons.mp otherMember with rfl | otherOld
    · exact Or.inl rfl
    · exact Or.inr (apart other otherOld).symm
    · exact Or.inr (apart one oneOld)
    · exact recalls.hosts.scattered one oneOld other otherOld

/-- A block that joins the index comes in front of all blocks of its size. -/
theorem insert (recalls : heap.Recalls log order) (admits : heap.Admits block)
    (inserted : indexBlock block heap = .ok () after) :
    ∃ order, after.Recalls (log ++ [.inserted block]) order := by
  obtain ⟨tag, found⟩ := Option.isSome_iff_exists.mp admits.headed
  have hosts := recalls.hosts_cons admits found
  obtain ⟨index, arena, answered, rfl⟩ := onIndex_eq_ok_iff.mp inserted
  obtain ⟨follows, alters⟩ :=
    (Index.yields_insert recalls.follows hosts recalls.ascending).of_eq_ok answered
  -- Cells in front of the new one are smaller, so it is newest among the cells of its size as soon
  -- as it is newer than all the others.
  generalize joined : (⟨block, tag.size, false⟩ : Cell) = cell at *
  obtain rfl : block = cell.offset := joined ▸ rfl
  refine ⟨cell.insertInto order, follows,
    (hosts.alter alters).perm (Cell.insertInto_perm cell order).symm,
    recalls.ascending.insertInto cell, fun other member => ?_, Cell.pairwise_insertInto ?_ ?_ ?_ ?_⟩
  · rcases Cell.mem_insertInto.mp member with rfl | old
    · exact List.mem_concat_self
    · exact List.mem_append_left _ (recalls.joined other old)
  · refine recalls.recent.imp_of_mem fun {first second} _ old later same => ?_
    refine (later same).concat fun same => (List.nodup_cons.mp hosts.distinct).1 ?_
    rw [IndexEvent.inserted.inj same]
    exact List.mem_map_of_mem old
  · intro other _ smaller same
    omega
  · intro other old _ _
    exact IndexEvent.joinedLater_concat (recalls.joined other old)
  · intro one _ other _ smaller same
    omega

/-- A block that leaves the index changes nothing for the others. -/
theorem remove (recalls : heap.Recalls log order) (indexes : heap.Indexes block)
    (removed : unindexBlock block heap = .ok () after) :
    ∃ order, after.Recalls (log ++ [.removed block]) order := by
  obtain ⟨cell, member, rfl⟩ := recalls.indexes_iff.mp indexes
  obtain ⟨index, arena, answered, rfl⟩ := onIndex_eq_ok_iff.mp removed
  have only : ∀ other ∈ order, decide (other ≠ cell) = true ↔ other ≠ cell :=
    fun other _ => decide_eq_true_iff
  obtain ⟨follows, alters⟩ :=
    (Index.yields_remove recalls.follows recalls.hosts member only).of_eq_ok answered
  refine ⟨order.filter (· ≠ cell), follows,
    (recalls.hosts.alter alters).sublist List.filter_sublist, recalls.ascending.filter _,
    fun other found => ?_, ?_⟩
  · exact List.mem_append_left _ (recalls.joined other (List.mem_filter.mp found).1)
  · refine (recalls.recent.filter _).imp fun later same => (later same).concat ?_
    rintro ⟨⟩

/-- A search finds the newest one of the smallest cells that are large enough. -/
theorem first_of_find? (recalls : heap.Recalls log order)
    (found : order.find? (size ≤ ·.size) = some cell) :
    cell ∈ order ∧ size ≤ cell.size ∧
      ∀ other ∈ order, size ≤ other.size → cell.size ≤ other.size ∧
        (other.size = cell.size → other ≠ cell →
          IndexEvent.JoinedLater log cell.offset other.offset) := by
  obtain ⟨fits, front, back, rfl, skipped⟩ := List.find?_eq_some_iff_append.mp found
  refine ⟨by simp, by simpa using fits, fun other member large => ?_⟩
  rcases List.mem_append.mp member with early | late
  · have small := skipped other early
    simp [large] at small
  · rcases List.mem_cons.mp late with rfl | later
    · exact ⟨Nat.le_refl _, fun _ others => absurd rfl others⟩
    · have least := (List.pairwise_append.mp recalls.ascending).2.1
      have recent := (List.pairwise_append.mp recalls.recent).2.1
      exact ⟨List.rel_of_pairwise_cons least later,
        fun same _ => List.rel_of_pairwise_cons recent later same.symm⟩

end Recalls

/-- Whatever happens on the way, an index remembers what its log tells. -/
theorem Evolves.exists_recalls {before after : Heap σ last} {past log : List IndexEvent}
    (evolves : before.Evolves log after) (recalls : before.Recalls past order) :
    ∃ order, after.Recalls (past ++ log) order := by
  induction evolves with
  | start =>
    rw [List.append_nil]
    exact ⟨order, recalls⟩
  | write earlier keeps inductionHypothesis =>
    obtain ⟨order, recalls⟩ := inductionHypothesis
    exact ⟨order, recalls.write keeps⟩
  | insert earlier admits inserted inductionHypothesis =>
    obtain ⟨order, recalls⟩ := inductionHypothesis
    rw [← List.append_assoc]
    exact recalls.insert admits inserted
  | remove earlier indexes removed inductionHypothesis =>
    obtain ⟨order, recalls⟩ := inductionHypothesis
    rw [← List.append_assoc]
    exact recalls.remove indexes removed

end Heap

end SegregatedFit
