/-
This file proves that the audit of a well-formed heap finds nothing. The walk through the
arena meets its blocks one after the other and counts the free ones; the walks along the lists
meet as many nodes, so none of them runs out of its budget.
-/

import SegregatedFit.Heap.Audit
import SegregatedFit.Heap.WellFormed
import SegregatedFit.Proofs.Arena.Layout
import SegregatedFit.Proofs.Arena.Tags
import Mathlib.Algebra.GroupWithZero.Nat
import Mathlib.Data.List.Nodup

namespace SegregatedFit

namespace Audit

variable {σ : Type} [Source σ] {last : Nat} {arena : Arena σ} {Value : Type}

theorem lift_run_eq_ok_iff {outcome : Except Fault Value} {value : Value} :
    (liftM outcome : Audit Value).run = .ok (.ok value) ↔ outcome = .ok value := by
  cases outcome with
  | error fault => constructor <;> rintro ⟨⟩
  | ok other =>
    constructor
    · rintro ⟨⟩
      rfl
    · rintro ⟨⟩
      rfl

theorem tagAt_run_eq_ok_iff {block : Nat} {tag : Tag} :
    (tagAt arena block).run = .ok (.ok tag) ↔ arena.header? block = some tag := by
  unfold tagAt
  cases found : arena.header? block with
  | none => constructor <;> rintro ⟨⟩
  | some other =>
    rw [pure_run_eq_ok_iff]
    exact ⟨congrArg some, Option.some.inj⟩

/-! ### The blocks of the arena -/

/-- The prologue passes when it is intact. -/
theorem checkPrologue_passes (intact : arena.PrologueIntact) :
    (checkPrologue arena).run = .ok (.ok ()) := by
  obtain ⟨header, footer, headerRead, footerRead, headerSame, footerSame⟩ := intact
  have read : arena.header? prologueSize = some (Tag.ofWord header) :=
    Arena.header?_eq_some_iff.mpr ⟨by decide, header, headerRead, rfl⟩
  have footerRead : arena.word? prologueSize = some footer := footerRead
  refine bind_run_eq_ok_iff.mpr ⟨_, tagAt_run_eq_ok_iff.mpr read, ?_⟩
  simp only [Tag.sameBlock, Tag.prologue, Bool.and_eq_true, beq_iff_eq] at headerSame footerSame
  rw [require_run_eq_ok_iff, footerRead]
  simp [Tag.sameBlock, headerSame, footerSame]

/-- The number of free blocks among some blocks. -/
def freeCount (blocks : List Block) : Nat :=
  (blocks.filter fun block => ! block.tag.allocated).length

/-- Among the blocks of an arena that is laid out well, the free ones are fewer than its bytes. -/
theorem freeCount_lt_size {blocks : List Block} (layout : arena.LaidOut blocks) :
    freeCount blocks < arena.size := by
  have bounds := layout.2.bounds
  have inside : firstBlock ≤ arena.size := bounds.1
  simp only [firstBlock, sentinelsSize, wordSize] at inside
  have distinct := layout.2.nodup.sublist
    ((List.filter_sublist (p := fun block => ! block.tag.allocated)).map Block.offset)
  have places : ∀ node ∈ (blocks.filter fun block => ! block.tag.allocated).map Block.offset,
      0 < node ∧ node < arena.size := by
    intro node member
    obtain ⟨block, found, rfl⟩ := List.mem_map.mp member
    obtain ⟨starts, ends, ⟨_, _, large⟩, _⟩ := bounds.2 block (List.mem_of_mem_filter found)
    have ends : block.offset + block.tag.size ≤ arena.size := ends
    simp only [firstBlock, sentinelsSize, wordSize] at starts
    omega
  -- No block lies at the offset zero, so there is one number more below the size.
  have fresh : (0 :: (blocks.filter fun block => ! block.tag.allocated).map Block.offset).Nodup :=
    List.nodup_cons.mpr ⟨fun zero => Nat.lt_irrefl 0 (places 0 zero).1, distinct⟩
  have short := FreeList.length_le_of_nodup_of_lt fresh
    (List.forall_mem_cons.mpr ⟨by omega, fun node member => (places node member).2⟩)
  rwa [List.length_cons, List.length_map] at short

theorem freeCount_lt {blocks : List Block} (layout : arena.LaidOut blocks) :
    freeCount blocks < wordLimit :=
  Nat.lt_trans (freeCount_lt_size layout) arena.size_lt

/-- A free block passes when its footer agrees and the block in front is allocated. -/
theorem checkFreeBlock_passes {block : Block} (header : arena.header? block.offset = some block.tag)
    (inside : block.next ≤ arena.epilogue) (large : 32 ≤ block.tag.size)
    (agrees : arena.FooterAgrees block) :
    (checkFreeBlock arena block.offset block.tag true).run = .ok (.ok ()) := by
  obtain ⟨word, read, same⟩ := agrees
  have bound := arena.size_lt
  have inside : block.offset + block.tag.size ≤ arena.size := inside
  have footer := Arena.footer_eq_ok header (by omega) (by omega) read
  refine bind_run_eq_ok_iff.mpr ⟨_, lift_run_eq_ok_iff.mpr footer, ?_⟩
  refine bind_run_eq_ok_iff.mpr ⟨(), require_run_eq_ok_iff.mpr same, ?_⟩
  exact pure_run_eq_ok_iff.mpr rfl

/-- Whether a block is what it should be, after a block that is allocated or not. -/
structure Sound (arena : Arena σ) (block : Block) (prevAllocated : Bool) : Prop where
  header : arena.header? block.offset = some block.tag
  regular : block.Regular
  inside : block.next ≤ arena.epilogue
  knows : block.tag.prevAllocated = prevAllocated
  free : block.tag.allocated = false → prevAllocated = true ∧ arena.FooterAgrees block

/-- The first block of a tiled arena is what it should be. -/
theorem sound_of_tiled {offset : Nat} {prevAllocated : Bool} {block : Block} {rest : List Block}
    (tiled : arena.Tiled offset prevAllocated (block :: rest)) :
    Sound arena block prevAllocated := by
  have inside := (tiled.bounds.2 block List.mem_cons_self).2.1
  obtain ⟨rfl, regular, header, knows, free, _⟩ := tiled
  exact ⟨header, regular, inside, knows, free⟩

/-- A block passes that is what it should be. -/
theorem checkBlock_passes {block : Block} {prevAllocated : Bool}
    (sound : Sound arena block prevAllocated) :
    ∃ positive, (checkBlock arena block.offset prevAllocated).run =
      .ok (.ok ⟨block.tag, positive⟩) := by
  obtain ⟨offsetWhole, sizeWhole, large⟩ := sound.regular
  have valid : minimumBlock ≤ block.tag.size ∧ isAligned block.tag.size = true :=
    ⟨large, isAligned_iff.mpr sizeWhole⟩
  refine ⟨by omega, ?_⟩
  unfold checkBlock
  refine bind_run_eq_ok_iff.mpr ⟨_, tagAt_run_eq_ok_iff.mpr sound.header, ?_⟩
  refine bind_run_eq_ok_iff.mpr
    ⟨(), require_run_eq_ok_iff.mpr (isAligned_iff.mpr offsetWhole), ?_⟩
  rw [dif_pos valid]
  refine bind_run_eq_ok_iff.mpr ⟨(), require_run_eq_ok_iff.mpr (decide_eq_true sound.inside), ?_⟩
  refine bind_run_eq_ok_iff.mpr ⟨(), require_run_eq_ok_iff.mpr (beq_iff_eq.mpr sound.knows), ?_⟩
  cases allocated : block.tag.allocated with
  | true => exact pure_run_eq_ok_iff.mpr rfl
  | false =>
    obtain ⟨rfl, agrees⟩ := sound.free allocated
    refine bind_run_eq_ok_iff.mpr
      ⟨(), checkFreeBlock_passes sound.header sound.inside large agrees, ?_⟩
    exact pure_run_eq_ok_iff.mpr rfl

theorem freeCount_cons (block : Block) (rest : List Block) :
    freeCount (block :: rest) = (if block.tag.allocated then 0 else 1) + freeCount rest := by
  cases allocated : block.tag.allocated with
  | true => simp [freeCount, allocated]
  | false =>
    simp [freeCount, allocated]
    omega

/-- Free blocks are counted one by one while the count is a word. -/
theorem countFree_eq_ok {free : Nat} {block : Block} {rest : List Block}
    (small : free + freeCount (block :: rest) < wordLimit) :
    countFree block.tag free = .ok (free + if block.tag.allocated then 0 else 1) ∧
      (free + if block.tag.allocated then 0 else 1) + freeCount rest =
        free + freeCount (block :: rest) := by
  rw [freeCount_cons] at small ⊢
  refine ⟨?_, Nat.add_assoc _ _ _⟩
  unfold countFree
  cases allocated : block.tag.allocated with
  | true => rfl
  | false =>
    simp only [allocated, Bool.false_eq_true, if_false] at small ⊢
    exact Word.add_eq_ok_iff.mpr ⟨by omega, rfl⟩

/-- The walk through a tiled arena counts its free blocks. -/
theorem checkBlocksFrom_passes {offset : Nat} {prevAllocated : Bool} {blocks : List Block}
    (free : Nat) (tiled : arena.Tiled offset prevAllocated blocks)
    (small : free + freeCount blocks < wordLimit) :
    ∃ lastAllocated, (checkBlocksFrom arena offset prevAllocated free).run =
        .ok (.ok (free + freeCount blocks, lastAllocated)) ∧
      (checkEpilogue arena lastAllocated).run = .ok (.ok ()) := by
  induction blocks generalizing offset prevAllocated free with
  | nil =>
    obtain ⟨rfl, tag, header, same, knows⟩ := tiled
    refine ⟨prevAllocated, ?_, ?_⟩
    · rw [checkBlocksFrom, if_neg (Nat.lt_irrefl _)]
      exact pure_run_eq_ok_iff.mpr rfl
    · simp only [Tag.sameBlock, Tag.epilogue, Bool.and_eq_true, beq_iff_eq] at same
      refine bind_run_eq_ok_iff.mpr ⟨tag, tagAt_run_eq_ok_iff.mpr header, ?_⟩
      refine bind_run_eq_ok_iff.mpr ⟨(), require_run_eq_ok_iff.mpr (by simp [same]), ?_⟩
      exact require_run_eq_ok_iff.mpr (beq_iff_eq.mpr knows)
  | cons block rest inductionHypothesis =>
    have sound := sound_of_tiled tiled
    obtain ⟨positive, passed⟩ := checkBlock_passes sound
    have before : block.offset < arena.epilogue := by
      have inside := sound.inside
      unfold Block.next at inside
      omega
    obtain ⟨rfl, _, _, _, _, tail⟩ := tiled
    obtain ⟨counted, sum⟩ := countFree_eq_ok small
    rw [← sum] at small ⊢
    obtain ⟨lastAllocated, walked, ended⟩ := inductionHypothesis _ tail small
    refine ⟨lastAllocated, ?_, ended⟩
    rw [checkBlocksFrom, if_pos before]
    refine bind_run_eq_ok_iff.mpr ⟨_, passed, ?_⟩
    exact bind_run_eq_ok_iff.mpr ⟨_, lift_run_eq_ok_iff.mpr counted, walked⟩

/-- The blocks of an arena that is laid out well pass, and the free ones are counted. -/
theorem checkBlocks_passes {blocks : List Block} (layout : arena.LaidOut blocks) :
    (checkBlocks arena).run = .ok (.ok (freeCount blocks)) := by
  have small : 0 + freeCount blocks < wordLimit := by
    have := freeCount_lt layout
    omega
  obtain ⟨lastAllocated, walked, ended⟩ := checkBlocksFrom_passes 0 layout.2 small
  rw [Nat.zero_add] at walked
  refine bind_run_eq_ok_iff.mpr ⟨(), checkPrologue_passes layout.1, ?_⟩
  refine bind_run_eq_ok_iff.mpr ⟨_, walked, ?_⟩
  refine bind_run_eq_ok_iff.mpr ⟨(), ended, ?_⟩
  exact pure_run_eq_ok_iff.mpr rfl

/-! ### The free lists -/

/-- Whether a node is one of the blocks that belong to a bucket. -/
def Belongs (arena : Arena σ) (last bucket node : Nat) : Prop :=
  32 ≤ node ∧ node < arena.epilogue ∧ node % 16 = 0 ∧
    ∃ tag, arena.header? node = some tag ∧ tag.allocated = false ∧
      bucketFor last tag.size = bucket

/-- A node passes that belongs to its bucket and is linked with the node before it. -/
theorem checkNode_passes {bucket node lastSize : Nat} {previous : Option Nat}
    (belongs : Belongs arena last bucket node)
    (linked : arena.word? node = some (Link.word previous))
    (ordered : lastSize ≤ arena.sizeAt node) :
    (checkNode arena last bucket previous node lastSize).run = .ok (.ok (arena.sizeAt node)) := by
  obtain ⟨low, high, whole, tag, header, free, here⟩ := belongs
  have size_eq : arena.sizeAt node = tag.size := by
    rw [Arena.sizeAt, header]
    rfl
  rw [size_eq] at ordered ⊢
  unfold checkNode
  refine bind_run_eq_ok_iff.mpr ⟨(), require_run_eq_ok_iff.mpr ?_, ?_⟩
  · simp [low, high, isAligned_iff.mpr whole]
  refine bind_run_eq_ok_iff.mpr ⟨tag, tagAt_run_eq_ok_iff.mpr header, ?_⟩
  refine bind_run_eq_ok_iff.mpr ⟨(), require_run_eq_ok_iff.mpr (by simp [free]), ?_⟩
  rw [linked]
  refine bind_run_eq_ok_iff.mpr ⟨(), require_run_eq_ok_iff.mpr (by simp), ?_⟩
  refine bind_run_eq_ok_iff.mpr ⟨(), require_run_eq_ok_iff.mpr (by simp [here]), ?_⟩
  refine bind_run_eq_ok_iff.mpr ⟨(), require_run_eq_ok_iff.mpr (by simp [ordered]), ?_⟩
  exact pure_run_eq_ok_iff.mpr rfl

/-- Whether nodes follow a node of `lastSize` bytes in the list of a bucket. -/
structure Traces (arena : Arena σ) (last bucket : Nat) (previous current : Option Nat)
    (lastSize : Nat) (nodes : List Nat) : Prop where
  chained : arena.Chained previous current nodes
  belong : ∀ node ∈ nodes, Belongs arena last bucket node
  ascending : (lastSize :: nodes.map arena.sizeAt).Pairwise (· ≤ ·)

/-- The nodes of a list of a bucket, from its head on. -/
theorem traces_of_represents {bucket : Nat} {list : FreeList} {nodes : List Nat}
    (represents : list.Represents arena nodes)
    (belong : ∀ node ∈ nodes, Belongs arena last bucket node) :
    Traces arena last bucket none list.head 0 nodes where
  chained := represents.chained
  belong := belong
  ascending := List.pairwise_cons.mpr
    ⟨fun size _ => Nat.zero_le size, List.pairwise_map.mpr represents.ascending⟩

/-- The walk along some nodes counts them while the budget lasts. -/
theorem checkNodesFrom_passes {limit bucket lastSize : Nat} {previous current : Option Nat}
    {nodes : List Nat} (length indexed : Nat)
    (traces : Traces arena last bucket previous current lastSize nodes)
    (room : indexed + nodes.length ≤ limit) (small : limit < wordLimit)
    (within : length ≤ indexed) :
    (checkNodesFrom arena last limit bucket previous current lastSize length indexed).run =
      .ok (.ok (length + nodes.length, indexed + nodes.length)) := by
  induction nodes generalizing previous current lastSize length indexed with
  | nil =>
    obtain rfl : current = none := traces.chained
    rw [checkNodesFrom]
    exact pure_run_eq_ok_iff.mpr rfl
  | cons node rest inductionHypothesis =>
    obtain ⟨⟨rfl, _, linked, next, stored, named, tail⟩, belong, ascending⟩ := traces
    obtain ⟨here, others⟩ := List.forall_mem_cons.mp belong
    obtain ⟨least, later⟩ := List.pairwise_cons.mp ascending
    have bound := arena.size_lt
    have inside := (Arena.word?_eq_some_iff.mp stored).1
    rw [List.length_cons] at room ⊢
    have walked := inductionHypothesis (length + 1) (indexed + 1) ⟨tail, others, later⟩ (by omega)
      (by omega)
    have place : Word.add node wordSize = .ok (node + 8) :=
      Word.add_eq_ok_iff.mpr ⟨by simp only [wordSize]; omega, rfl⟩
    rw [checkNodesFrom]
    refine bind_run_eq_ok_iff.mpr
      ⟨_, checkNode_passes here linked (least _ List.mem_cons_self), ?_⟩
    refine bind_run_eq_ok_iff.mpr ⟨⟨indexed + 1, Nat.lt_succ_self indexed⟩, lift_run_eq_ok_iff.mpr
      (Word.next_eq_ok_iff.mpr ⟨by omega, rfl⟩), ?_⟩
    refine bind_run_eq_ok_iff.mpr ⟨length + 1, lift_run_eq_ok_iff.mpr
      (Word.add_eq_ok_iff.mpr ⟨by omega, rfl⟩), ?_⟩
    rw [if_neg (show ¬ limit < indexed + 1 by omega)]
    refine bind_run_eq_ok_iff.mpr ⟨_, lift_run_eq_ok_iff.mpr place, ?_⟩
    simp only [stored]
    rw [Link.ofWord_word named, walked]
    simp only [Nat.add_assoc, Nat.add_comm 1]

/-- The list of a bucket passes when its nodes belong to the bucket. -/
theorem checkList_passes {limit bucket indexed : Nat} {list : FreeList} {nodes : List Nat}
    (represents : list.Represents arena nodes)
    (belong : ∀ node ∈ nodes, Belongs arena last bucket node)
    (room : indexed + list.length ≤ limit) (small : limit < wordLimit) :
    (checkList arena last limit bucket list indexed).run = .ok (.ok (indexed + list.length)) := by
  have counted := represents.counted
  have walked := checkNodesFrom_passes 0 indexed (traces_of_represents represents belong)
    (counted ▸ room) small (Nat.zero_le _)
  rw [← counted, Nat.zero_add] at walked
  refine bind_run_eq_ok_iff.mpr ⟨_, walked, ?_⟩
  refine bind_run_eq_ok_iff.mpr ⟨(), require_run_eq_ok_iff.mpr (decide_eq_true rfl), ?_⟩
  exact pure_run_eq_ok_iff.mpr rfl

/-- Lists pass one after the other while the budget lasts. -/
theorem foldlM_checkList_passes {limit indexed : Nat} {lists : List (FreeList × Nat)}
    (held : ∀ pair ∈ lists, ∃ nodes, pair.1.Represents arena nodes ∧
      ∀ node ∈ nodes, Belongs arena last pair.2 node)
    (room : indexed + (lists.map (·.1.length)).sum ≤ limit) (small : limit < wordLimit) :
    (lists.foldlM (fun indexed (list, bucket) => checkList arena last limit bucket list indexed)
      indexed).run = .ok (.ok (indexed + (lists.map (·.1.length)).sum)) := by
  induction lists generalizing indexed with
  | nil => exact pure_run_eq_ok_iff.mpr rfl
  | cons pair rest inductionHypothesis =>
    obtain ⟨⟨nodes, represents, belong⟩, others⟩ := List.forall_mem_cons.mp held
    rw [List.map_cons, List.sum_cons, ← Nat.add_assoc] at room ⊢
    have first :=
      checkList_passes represents belong (Nat.le_trans (Nat.le_add_right _ _) room) small
    rw [List.foldlM_cons]
    exact bind_run_eq_ok_iff.mpr ⟨_, first, inductionHypothesis others room⟩

end Audit

namespace Index

/-- The lengths of lists can be added up while the sum is a word. -/
theorem foldlM_length_eq_ok {lists : List FreeList} {total : Nat}
    (small : total + (lists.map (·.length)).sum < wordLimit) :
    lists.foldlM (fun total list => Word.add total list.length) total =
      .ok (total + (lists.map (·.length)).sum) := by
  induction lists generalizing total with
  | nil => rfl
  | cons list rest inductionHypothesis =>
    rw [List.map_cons, List.sum_cons, ← Nat.add_assoc] at small ⊢
    rw [List.foldlM_cons]
    exact Fault.bind_eq_ok_iff.mpr ⟨_, Word.add_eq_ok_iff.mpr ⟨by omega, rfl⟩,
      inductionHypothesis small⟩

variable {σ : Type} [Source σ] {last : Nat} {arena : Arena σ} {index : Index last}
variable {blocks : List Block} {nodes : Fin (last + 1) → List Nat}

/-- No node is in two lists, since its header decides its bucket. -/
theorem nodup_flatMap_nodes
    (listed : ∀ bucket, (index.lists.get bucket).Represents arena (nodes bucket))
    (belong : ∀ bucket : Fin (last + 1), ∀ node ∈ nodes bucket,
      Audit.Belongs arena last bucket node) :
    ((List.finRange (last + 1)).flatMap nodes).Nodup := by
  refine List.nodup_flatMap.mpr ⟨fun bucket _ => (listed bucket).distinct, ?_⟩
  refine (List.nodup_finRange _).imp fun {one other} different => ?_
  refine List.disjoint_left.mpr fun node inOne inOther => different (Fin.ext ?_)
  obtain ⟨_, _, _, first, firstHeader, _, here⟩ := belong one node inOne
  obtain ⟨_, _, _, second, secondHeader, _, there⟩ := belong other node inOther
  rw [← here, ← there, Option.some.inj (firstHeader.symm.trans secondHeader)]

/-- Whether the lists of an index look as if they held the free blocks: each of them stands for
nodes with the headers of free blocks of its bucket, and all nodes together are as many as
there are free blocks. -/
structure Credible (index : Index last) (arena : Arena σ) (blocks : List Block)
    (nodes : Fin (last + 1) → List Nat) : Prop where
  listed : ∀ bucket, (index.lists.get bucket).Represents arena (nodes bucket)
  belong : ∀ bucket : Fin (last + 1), ∀ node ∈ nodes bucket, Audit.Belongs arena last bucket node
  counted : ((List.finRange (last + 1)).flatMap nodes).length = Audit.freeCount blocks

/-- The recorded lengths of the lists count their nodes. -/
theorem sum_length_eq
    (listed : ∀ bucket, (index.lists.get bucket).Represents arena (nodes bucket)) :
    (index.lists.toList.map (·.length)).sum =
      ((List.finRange (last + 1)).flatMap nodes).length := by
  have lists : index.lists.toList = (List.finRange (last + 1)).map index.lists.get := by
    refine List.ext_getElem (by simp) fun place _ _ => ?_
    simp [Vector.get]
  rw [lists, List.map_map, List.length_flatMap]
  exact congrArg List.sum (List.map_congr_left fun bucket _ => (listed bucket).counted)

namespace Credible

/-- The lists of a credible index have as many nodes as there are free blocks. -/
theorem sum_length (credible : index.Credible arena blocks nodes) :
    (index.lists.toList.map (·.length)).sum = Audit.freeCount blocks :=
  (sum_length_eq credible.listed).trans credible.counted

/-- The recorded length of a credible index is the number of free blocks. -/
theorem length_eq_ok (credible : index.Credible arena blocks nodes)
    (layout : arena.LaidOut blocks) : index.length = .ok (Audit.freeCount blocks) := by
  have sum := credible.sum_length
  have few := Audit.freeCount_lt layout
  have small : 0 + (index.lists.toList.map (·.length)).sum < wordLimit := by omega
  have added := foldlM_length_eq_ok small
  rwa [Nat.zero_add, sum] at added

/-- The lists of a credible index pass, with as many nodes as there are free blocks. -/
theorem checkLists_passes (credible : index.Credible arena blocks nodes)
    (layout : arena.LaidOut blocks) :
    (Audit.checkLists arena index (Audit.freeCount blocks)).run =
      .ok (.ok (Audit.freeCount blocks)) := by
  have lengths : (index.lists.toList.zipIdx.map (·.1.length)).sum = Audit.freeCount blocks := by
    have firsts := congrArg (List.map FreeList.length) (List.zipIdx_map_fst 0 index.lists.toList)
    rw [List.map_map] at firsts
    rw [← credible.sum_length]
    exact congrArg List.sum firsts
  have held : ∀ pair ∈ index.lists.toList.zipIdx, ∃ nodes,
      pair.1.Represents arena nodes ∧
        ∀ node ∈ nodes, Audit.Belongs arena last pair.2 node := by
    rintro ⟨list, bucket⟩ member
    have found := List.mk_mem_zipIdx_iff_getElem?.mp member
    obtain ⟨inside, rfl⟩ := List.getElem?_eq_some_iff.mp found
    have inside : bucket < last + 1 := by simpa using inside
    exact ⟨nodes ⟨bucket, inside⟩, credible.listed ⟨bucket, inside⟩,
      credible.belong ⟨bucket, inside⟩⟩
  have room : 0 + (index.lists.toList.zipIdx.map (·.1.length)).sum ≤ Audit.freeCount blocks := by
    omega
  have passed := Audit.foldlM_checkList_passes held room (Audit.freeCount_lt layout)
  rwa [lengths, Nat.zero_add] at passed

end Credible

namespace Holds

/-- The nodes of a list are blocks that belong to its bucket. -/
theorem belongs (holds : index.Holds arena blocks nodes) (layout : arena.LaidOut blocks)
    {bucket : Fin (last + 1)} {node : Nat} (member : node ∈ nodes bucket) :
    Audit.Belongs arena last bucket node := by
  obtain ⟨block, found, rfl, free, here⟩ := ((holds bucket).2 node).mp member
  obtain ⟨low, high, ⟨whole, _, large⟩, header⟩ :=
    layout.2.bounds.2 block found
  refine ⟨low, ?_, whole, block.tag, header, free, here⟩
  unfold Block.next at high
  omega

/-- The nodes of all lists are the free blocks. -/
theorem perm_free (holds : index.Holds arena blocks nodes) (layout : arena.LaidOut blocks) :
    ((List.finRange (last + 1)).flatMap nodes).Perm
      ((blocks.filter fun block => ! block.tag.allocated).map Block.offset) := by
  have distinct : ((List.finRange (last + 1)).flatMap nodes).Nodup :=
    nodup_flatMap_nodes (fun bucket => (holds bucket).1)
      fun bucket node member => holds.belongs layout member
  have free : ((blocks.filter fun block => ! block.tag.allocated).map Block.offset).Nodup :=
    layout.2.nodup.sublist (List.filter_sublist.map _)
  refine (List.perm_ext_iff_of_nodup distinct free).mpr fun node => ?_
  rw [List.mem_flatMap, List.mem_map]
  constructor
  · rintro ⟨bucket, _, member⟩
    obtain ⟨block, found, place, isFree, _⟩ := ((holds bucket).2 node).mp member
    exact ⟨block, List.mem_filter.mpr ⟨found, by simp [isFree]⟩, place⟩
  · rintro ⟨block, member, place⟩
    obtain ⟨found, isFree⟩ := List.mem_filter.mp member
    have isFree : block.tag.allocated = false := by simpa using isFree
    exact ⟨⟨bucketFor last block.tag.size, Nat.lt_succ_of_le (bucketFor_le _ _)⟩,
      List.mem_finRange _, ((holds _).2 node).mpr ⟨block, found, place, isFree, rfl⟩⟩

/-- Lists that do hold the free blocks are credible. -/
theorem credible (holds : index.Holds arena blocks nodes) (layout : arena.LaidOut blocks) :
    index.Credible arena blocks nodes where
  listed bucket := (holds bucket).1
  belong _ _ member := holds.belongs layout member
  counted := by
    rw [(holds.perm_free layout).length_eq, List.length_map]
    rfl

end Holds

end Index

namespace Heap

variable {σ : Type} [Source σ] {last : Nat} {heap : Heap σ last}

/-- The audit of a heap finds nothing when its arena is laid out well and its lists look as if
they held the free blocks. -/
theorem audit_passes {blocks : List Block} {nodes : Fin (last + 1) → List Nat}
    (layout : heap.arena.LaidOut blocks)
    (credible : heap.index.Credible heap.arena blocks nodes) :
    heap.audit.run = .ok (.ok ()) := by
  have recorded := Audit.lift_run_eq_ok_iff.mpr (credible.length_eq_ok layout)
  refine Audit.bind_run_eq_ok_iff.mpr ⟨_, Audit.checkBlocks_passes layout, ?_⟩
  refine Audit.bind_run_eq_ok_iff.mpr ⟨_, recorded, ?_⟩
  refine Audit.bind_run_eq_ok_iff.mpr
    ⟨(), Audit.require_run_eq_ok_iff.mpr (decide_eq_true rfl), ?_⟩
  refine Audit.bind_run_eq_ok_iff.mpr ⟨_, credible.checkLists_passes layout, ?_⟩
  exact Audit.require_run_eq_ok_iff.mpr (decide_eq_true rfl)

/-- The audit of a well-formed heap finds nothing. -/
theorem WellFormed.audit_passes (wellFormed : heap.WellFormed) :
    heap.audit.run = .ok (.ok ()) := by
  obtain ⟨blocks, nodes, layout, holds⟩ := wellFormed
  exact Heap.audit_passes layout (holds.credible layout)

end Heap

end SegregatedFit
