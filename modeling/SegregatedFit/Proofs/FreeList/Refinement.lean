/-
This file proves that a free list acts as a sorted sequence of blocks. The list keeps its nodes
inside of the blocks themselves, so what it stands for depends on words anywhere in the arena.
While the blocks are free and keep apart, no operation is felt outside of the links that it has
to change: insertion and removal act on the sequence as on any sorted sequence, a walk gives the
sequence, and a removal right after the insertion takes it back.
-/

import Mathlib.Data.List.Pairwise
import SegregatedFit.Proofs.FreeList.Chain
import SegregatedFit.Proofs.Index.Order
import SegregatedFit.Source.Buffer

namespace SegregatedFit

namespace Arena

variable {σ : Type} [Source σ]

/-- Whether there is a free block at a node: its header can be read, and tells of a block that
nobody owns, that is no smaller than blocks may be, and that lies inside of the arena. -/
def FreeAt (arena : Arena σ) (node : Nat) : Prop :=
  ∃ tag, arena.header? node = some tag ∧ tag.allocated = false ∧ minimumBlock ≤ tag.size ∧
    node + tag.size ≤ arena.size + headerSize

/-- Whether the blocks at two nodes do not overlap. -/
def Apart (arena : Arena σ) (first second : Nat) : Prop :=
  first + arena.sizeAt first ≤ second ∨ second + arena.sizeAt second ≤ first

/-- The free block at a node, seen as a cell. -/
def cellAt (arena : Arena σ) (node : Nat) : Cell where
  offset := node
  size := arena.sizeAt node
  allocated := false

variable {arena before after : Arena σ} {nodes front back : List Nat} {node : Nat}
variable {previous current : Option Nat}

@[simp] theorem map_offset_cellAt (arena : Arena σ) (nodes : List Nat) :
    (nodes.map arena.cellAt).map Cell.offset = nodes := by
  rw [List.map_map]
  exact List.map_id nodes

theorem sizeAt_eq_of_header?_eq (same : after.header? node = before.header? node) :
    after.sizeAt node = before.sizeAt node := by
  rw [sizeAt, sizeAt, same]

theorem FreeAt.measures (free : arena.FreeAt node) : arena.Measures (arena.cellAt node) := by
  obtain ⟨tag, found, _⟩ := free
  refine ⟨tag, found, ?_⟩
  rw [cellAt, sizeAt, found]
  rfl

theorem FreeAt.bounds (free : arena.FreeAt node) :
    32 ≤ arena.sizeAt node ∧ node + arena.sizeAt node ≤ arena.size + 8 := by
  obtain ⟨tag, found, _, large, inside⟩ := free
  rw [sizeAt, found]
  exact ⟨large, inside⟩

theorem FreeAt.congr (free : before.FreeAt node)
    (same : after.header? node = before.header? node) (size : after.size = before.size) :
    after.FreeAt node := by
  rwa [FreeAt, same, size]

instance : Std.Symm arena.Apart where
  symm _ _ := Or.symm

instance : DecidableRel arena.Apart := fun _ _ => inferInstanceAs (Decidable (_ ∨ _))

/-- Free blocks that keep apart have room for links that keep apart. -/
theorem hosts_map_cellAt (free : ∀ node ∈ nodes, arena.FreeAt node)
    (apart : nodes.Pairwise arena.Apart) : arena.Hosts (nodes.map arena.cellAt) where
  measured cell member := by
    obtain ⟨node, found, rfl⟩ := List.mem_map.mp member
    exact (free node found).measures
  inside cell member := by
    obtain ⟨node, found, rfl⟩ := List.mem_map.mp member
    have := (free node found).bounds
    simp only [cellAt]
    omega
  distinct := by
    rw [map_offset_cellAt]
    refine apart.imp_of_mem fun member _ keeps same => ?_
    have := (free _ member).bounds
    subst same
    unfold Apart at keeps
    omega
  scattered := by
    rw [map_offset_cellAt]
    intro first firstMember second secondMember
    refine or_iff_not_imp_left.mpr fun different => ?_
    have keeps := apart.forall firstMember secondMember different
    have := (free first firstMember).bounds
    have := (free second secondMember).bounds
    unfold Apart at keeps
    omega

/-! ### Chains as threads -/

/-- At each cut of a chain the two nodes beside it name each other. -/
theorem Chained.threads (chained : arena.Chained none current nodes) : arena.Threads nodes := by
  refine fun front back split => ⟨fun node last => ?_, fun node first => ?_⟩
  · obtain ⟨front, rfl⟩ := List.getLast?_eq_some_iff.mp last
    rw [List.append_assoc] at split
    exact Chained.forward (split ▸ chained)
  · obtain ⟨back, rfl⟩ := List.head?_eq_some_iff.mp first
    have stored := Chained.backward (split ▸ chained)
    rwa [Option.or_none] at stored

end Arena

namespace FreeList

variable {σ : Type} [Source σ] {arena before after : Arena σ} {list inserted : FreeList}
variable {nodes used front back : List Nat} {block : Nat}

/-- Whether a list sorts some free blocks: it stands for them in ascending order of their sizes,
and none of them overlap. -/
structure Sorts (list : FreeList) (arena : Arena σ) (nodes : List Nat) : Prop where
  represents : list.Represents arena nodes
  free : ∀ node ∈ nodes, arena.FreeAt node
  apart : nodes.Pairwise arena.Apart

/-- Whether a block was put into a list in front of the first that is not smaller. Only the links
of the block change, and those of its new neighbours to it; removing the block gives back the
list and all bytes, but for the links of the block itself. -/
structure Inserts (list : FreeList) (arena : Arena σ) (nodes : List Nat) (block : Nat)
    (inserted : FreeList) (after : Arena σ) : Prop where
  answer : list.insert block arena = .ok inserted after
  sorts : inserted.Sorts after (nodes.takeWhile (arena.sizeAt · < arena.sizeAt block) ++
    block :: nodes.dropWhile (arena.sizeAt · < arena.sizeAt block))
  alters : arena.Alters (fun index => block ≤ index ∧ index < block + 16 ∨
    Arena.NextBytes (nodes.takeWhile (arena.sizeAt · < arena.sizeAt block)).getLast? index ∨
    Arena.PreviousBytes (nodes.dropWhile (arena.sizeAt · < arena.sizeAt block)).head? index) after
  undone : ∃ restored, inserted.remove block after = .ok list restored ∧
    arena.Alters (fun index => block ≤ index ∧ index < block + 16) restored

/-- Whether a block was taken out of a list, of which it had some nodes in front of it and some
behind. Only the links of its neighbours to it change. -/
structure Removes (list : FreeList) (arena : Arena σ) (front : List Nat) (block : Nat)
    (back : List Nat) (removed : FreeList) (after : Arena σ) : Prop where
  answer : list.remove block arena = .ok removed after
  sorts : removed.Sorts after (front ++ back)
  alters : arena.Alters (fun index => Arena.NextBytes front.getLast? index ∨
    Arena.PreviousBytes back.head? index) after

/-! ### Lists that sort follow cells -/

/-- The cells of the blocks that a list sorts. -/
theorem Sorts.hosts (sorts : list.Sorts arena nodes) :
    arena.Hosts (nodes.map arena.cellAt) :=
  Arena.hosts_map_cellAt sorts.free sorts.apart

theorem Sorts.ascending (sorts : list.Sorts arena nodes) :
    Cell.Ascending (nodes.map arena.cellAt) :=
  List.pairwise_map.mpr sorts.represents.ascending

theorem Sorts.follows (sorts : list.Sorts arena nodes) :
    list.Follows arena (nodes.map arena.cellAt) where
  headed := by rw [Arena.map_offset_cellAt, sorts.represents.chained.head?_eq]
  counted := by rw [List.length_map, sorts.represents.counted]
  threaded := by
    rw [Arena.map_offset_cellAt]
    exact sorts.represents.chained.threads

/-- A list sorts blocks whose cells it follows when nothing changed but links of such blocks. -/
theorem Follows.sorts (follows : list.Follows after (nodes.map before.cellAt))
    (ascending : Cell.Ascending (nodes.map before.cellAt))
    (free : ∀ node ∈ nodes, before.FreeAt node) (apart : nodes.Pairwise before.Apart)
    (hosts : before.Hosts (used.map before.cellAt)) (within : ∀ node ∈ nodes, node ∈ used)
    (alters : before.Alters (Arena.NodeBytes (used.map before.cellAt)) after) :
    list.Sorts after nodes := by
  have header : ∀ node ∈ nodes, after.header? node = before.header? node := fun node member =>
    hosts.header?_eq alters (List.mem_map_of_mem (within node member))
  have cells : nodes.map before.cellAt = nodes.map after.cellAt := List.map_congr_left
    fun node member => by rw [Arena.cellAt, Arena.cellAt,
      Arena.sizeAt_eq_of_header?_eq (header node member)]
  have afterFree : ∀ node ∈ nodes, after.FreeAt node := fun node member =>
    (free node member).congr (header node member) alters.size
  have afterApart : nodes.Pairwise after.Apart :=
    apart.imp_of_mem fun first second keeps => by
      rwa [Arena.Apart, Arena.sizeAt_eq_of_header?_eq (header _ first),
        Arena.sizeAt_eq_of_header?_eq (header _ second)]
  refine ⟨?_, afterFree, afterApart⟩
  rw [cells] at follows ascending
  have represents := follows.represents (Arena.hosts_map_cellAt afterFree afterApart) ascending
  rwa [Arena.map_offset_cellAt] at represents

/-- What is smaller than a bound comes first in ascending order. -/
theorem filter_eq_takeWhile {measure : Nat → Nat} (bound : Nat)
    (ascending : nodes.Pairwise fun first second => measure first ≤ measure second) :
    nodes.filter (measure · < bound) = nodes.takeWhile (measure · < bound) ∧
      nodes.filter (bound ≤ measure ·) = nodes.dropWhile (measure · < bound) := by
  induction nodes with
  | nil => exact ⟨rfl, rfl⟩
  | cons node rest inductionHypothesis =>
    obtain ⟨least, later⟩ := List.pairwise_cons.mp ascending
    by_cases small : measure node < bound
    · obtain ⟨taken, dropped⟩ := inductionHypothesis later
      simp [small, taken, dropped]
    · have large : ∀ other ∈ node :: rest, bound ≤ measure other := by
        intro other member
        rcases List.mem_cons.mp member with rfl | found
        · omega
        · have := least other found
          omega
      rw [List.takeWhile_cons_of_neg (by simpa using small),
        List.dropWhile_cons_of_neg (by simpa using small)]
      refine ⟨List.filter_eq_nil_iff.mpr fun other found => ?_,
        List.filter_eq_self.mpr fun other found => ?_⟩
      · simpa using large other found
      · simpa using large other found

/-- The cells of the blocks that are smaller than a size, and those of the others. -/
theorem Sorts.filter_cells (sorts : list.Sorts arena nodes) (size : Nat) :
    (nodes.map arena.cellAt).filter (·.size < size) =
        (nodes.takeWhile (arena.sizeAt · < size)).map arena.cellAt ∧
      (nodes.map arena.cellAt).filter (size ≤ ·.size) =
        (nodes.dropWhile (arena.sizeAt · < size)).map arena.cellAt := by
  obtain ⟨taken, dropped⟩ := filter_eq_takeWhile size sorts.represents.ascending
  rw [← taken, ← dropped, List.filter_map, List.filter_map]
  exact ⟨rfl, rfl⟩

/-! ### Operations -/

/-- A search finds the first block that is large enough. -/
theorem Sorts.find_eq_ok (sorts : list.Sorts arena nodes) (size : Nat) :
    list.find arena size = .ok (nodes.find? (size ≤ arena.sizeAt ·)) := by
  rw [sorts.follows.find_eq_ok sorts.hosts, List.find?_map, Option.map_map]
  exact congrArg Except.ok (congrFun Option.map_id _)

/-- A cell that leaves a list right after it came gives back the list and the bytes of all links
but its own. -/
theorem Follows.undo {cells : List Cell} {cell : Cell} (follows : list.Follows before cells)
    (inserts : inserted.Follows after (cell.insertInto cells))
    (hosts : before.Hosts (cell :: cells)) (ascending : Cell.Ascending cells)
    (alters : before.Alters (fun index => cell.offset ≤ index ∧ index < cell.offset + 16 ∨
      Arena.NextBytes ((cells.filter (·.size < cell.size)).map Cell.offset).getLast? index ∨
      Arena.PreviousBytes ((cells.filter (cell.size ≤ ·.size)).map Cell.offset).head? index)
      after) :
    ∃ restored, inserted.remove cell.offset after = .ok list restored ∧
      before.Alters (fun index => cell.offset ≤ index ∧ index < cell.offset + 16) restored := by
  have wide := alters.mono fun index => Arena.nodeBytes_of_insert
  obtain ⟨removed, restored, answer, leaves, again⟩ := yields_remove inserts
    ((hosts.alter wide).perm (Cell.insertInto_perm cell cells).symm) rfl
  rw [ascending.split] at leaves
  have both := alters.trans (again.mono fun index => Or.inr)
  refine ⟨restored, answer.trans (by rw [follows.eq leaves]), { both with byte := ?_ }⟩
  intro index outside
  by_cases hit : Arena.NextBytes ((cells.filter (·.size < cell.size)).map Cell.offset).getLast?
      index ∨ Arena.PreviousBytes ((cells.filter (cell.size ≤ ·.size)).map Cell.offset).head? index
  · obtain ⟨other, member, low, high⟩ := Arena.nodeBytes_of_insert (Or.inr hit)
    rcases List.mem_cons.mp member with rfl | member
    · exact absurd ⟨low, high⟩ outside
    · obtain ⟨backward, forward⟩ := leaves.words_eq follows member
      have room := hosts.inside other (List.mem_cons_of_mem _ member)
      rw [← both.size] at room
      exact Arena.byte_eq_of_words?_eq backward forward room low high
  · exact both.byte index (not_or.mpr ⟨outside, hit⟩)

/-- A free block that overlaps with no other can be put into the list. -/
theorem Sorts.exists_inserts (sorts : list.Sorts arena nodes) (free : arena.FreeAt block)
    (apart : ∀ node ∈ nodes, arena.Apart block node) :
    ∃ inserted after, list.Inserts arena nodes block inserted after := by
  have allFree : ∀ node ∈ block :: nodes, arena.FreeAt node :=
    List.forall_mem_cons.mpr ⟨free, sorts.free⟩
  have allApart : (block :: nodes).Pairwise arena.Apart :=
    List.pairwise_cons.mpr ⟨apart, sorts.apart⟩
  have hosts := Arena.hosts_map_cellAt allFree allApart
  obtain ⟨inserted, after, answer, follows, alters⟩ :=
    yields_insert sorts.follows hosts sorts.ascending
  have undone := sorts.follows.undo follows hosts sorts.ascending alters
  have wide := alters.mono fun index => Arena.nodeBytes_of_insert
  -- The cells are split by a filter, and the nodes where the first is not smaller.
  have ascending := sorts.ascending.insertInto (arena.cellAt block)
  obtain ⟨smaller, larger⟩ := sorts.filter_cells (arena.cellAt block).size
  rw [Cell.insertInto, smaller, larger, ← List.map_cons, ← List.map_append] at follows ascending
  rw [smaller, larger, Arena.map_offset_cellAt, Arena.map_offset_cellAt] at alters
  have perm : (nodes.takeWhile (arena.sizeAt · < arena.sizeAt block) ++
      block :: nodes.dropWhile (arena.sizeAt · < arena.sizeAt block)).Perm (block :: nodes) :=
    List.perm_middle.trans (by rw [List.takeWhile_append_dropWhile])
  have sorted := follows.sorts ascending (fun node member => allFree node (perm.mem_iff.mp member))
    ((perm.pairwise_iff fun {_ _} => Or.symm).mpr allApart) hosts
    (fun node member => perm.mem_iff.mp member) wide
  exact ⟨inserted, after, answer, sorted, alters, undone⟩

/-- A block of the list can be taken out of it. -/
theorem Sorts.exists_removes (sorts : list.Sorts arena (front ++ block :: back)) :
    ∃ removed after, list.Removes arena front block back removed after := by
  have fewer : (front ++ back).Sublist (front ++ block :: back) :=
    (List.Sublist.refl front).append (List.sublist_cons_self block back)
  obtain ⟨removed, after, answer, follows, alters⟩ :=
    yields_remove sorts.follows sorts.hosts (List.map_append ..)
  have wide : arena.Alters (Arena.NodeBytes
      (front.map arena.cellAt ++ arena.cellAt block :: back.map arena.cellAt)) after :=
    alters.mono fun index => Arena.nodeBytes_of_remove
  rw [← List.map_append] at follows
  rw [Arena.map_offset_cellAt, Arena.map_offset_cellAt] at alters
  refine ⟨removed, after, answer, ?_, alters⟩
  exact follows.sorts (sorts.ascending.sublist (fewer.map _))
    (fun node member => sorts.free node (fewer.subset member)) (sorts.apart.sublist fewer)
    sorts.hosts (fun node member => fewer.subset member) (by simpa using wide)

/-- A free list acts as the sorted sequence of the blocks that it stands for. A walk gives the
sequence and ends after as many steps as it has nodes; a search finds the first block that is large
enough; a free block is put in front of the first that is not smaller; any block can be taken
out. -/
theorem acts_as_sorted_sequence (sorts : list.Sorts arena nodes) :
    list.nodes arena = .ok nodes ∧
      (∀ budget, nodes.length ≤ budget → nodesFrom arena budget list.head = .ok nodes) ∧
      (∀ size, list.find arena size = .ok (nodes.find? (size ≤ arena.sizeAt ·))) ∧
      (∀ block, arena.FreeAt block → (∀ node ∈ nodes, arena.Apart block node) →
        ∃ inserted after, list.Inserts arena nodes block inserted after) ∧
      ∀ front block back, nodes = front ++ block :: back →
        ∃ removed after, list.Removes arena front block back removed after := by
  refine ⟨sorts.represents.nodes_eq, fun budget enough => ?_, sorts.find_eq_ok,
    fun block free apart => sorts.exists_inserts free apart, ?_⟩
  · exact nodesFrom_eq_of_chained sorts.represents.chained enough
  · rintro front block back rfl
    exact sorts.exists_removes

/-- Two blocks of 32 and of 48 bytes, with a block of 48 bytes between them that joins their
list in front of the second. -/
theorem acts_as_sorted_sequence_two : ∃ (arena : Arena Buffer) (list : FreeList),
    list.Sorts arena [32, 112] ∧ list.nodes arena = .ok [32, 112] ∧
      list.find arena 40 = .ok (some 112) ∧
      (∃ inserted after, list.Inserts arena [32, 112] 64 inserted after ∧
        inserted.Sorts after [32, 64, 112]) ∧
      ∃ removed after, list.Removes arena [] 32 [112] removed after := by
  let blank : Arena Buffer :=
    ⟨⟨.common, Array.replicate 160 0, 160, by decide +kernel, by decide +kernel⟩, 0⟩
  let arena := ((((blank.withWord 24 34).withWord 56 48).withWord 104 48).withWord 40 112).withWord
    112 32
  have small : arena.header? 32 = some ⟨32, false, true, false, rfl⟩ := by decide +kernel
  have middle : arena.header? 64 = some ⟨48, false, false, false, rfl⟩ := by decide +kernel
  have large : arena.header? 112 = some ⟨48, false, false, false, rfl⟩ := by decide +kernel
  have sorts : (⟨some 32, 2⟩ : FreeList).Sorts arena [32, 112] := {
    represents := {
      chained := ⟨rfl, by decide, by decide +kernel, some 112, by decide +kernel, by decide, rfl,
        by decide, by decide +kernel, none, by decide +kernel, by decide, rfl⟩
      distinct := by decide
      headed := by decide +kernel
      ascending := by decide +kernel
      counted := rfl }
    free := by
      refine List.forall_mem_cons.mpr ⟨?_, List.forall_mem_singleton.mpr ?_⟩
      · exact ⟨_, small, rfl, by decide, by decide +kernel⟩
      · exact ⟨_, large, rfl, by decide, by decide +kernel⟩
    apart := by decide +kernel }
  obtain ⟨walk, _, find, insert, remove⟩ := acts_as_sorted_sequence sorts
  obtain ⟨inserted, after, inserts⟩ := insert 64
    ⟨_, middle, rfl, by decide, by decide +kernel⟩ (by decide +kernel)
  refine ⟨arena, _, sorts, walk, (find 40).trans ?_, ⟨inserted, after, inserts, ?_⟩,
    remove [] 32 [112] rfl⟩
  · decide +kernel
  · have place : [32, 112].takeWhile (arena.sizeAt · < arena.sizeAt 64) ++
        64 :: [32, 112].dropWhile (arena.sizeAt · < arena.sizeAt 64) = [32, 64, 112] := by
      decide +kernel
    exact place ▸ inserts.sorts

end FreeList

end SegregatedFit
