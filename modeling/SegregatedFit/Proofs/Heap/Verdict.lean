/-
This file proves what a heap is when its audit finds nothing. The blocks then tile the arena as
they should, and every list is a chain of nodes that look like free blocks of its bucket, in
order and never twice, as many together as there are free blocks. The audit does not compare
the nodes with the blocks, though: a node may lie inside of an allocated block whose owner has
written something like a header there, and stand in for a free block that no list has. A heap
is well formed when its audit finds nothing and every node is a block.
-/

import Mathlib.Data.List.Perm.Subperm
import SegregatedFit.Heap.Payload
import SegregatedFit.Heap.Release
import SegregatedFit.Proofs.FreeList.Chain
import SegregatedFit.Proofs.Heap.Audit
import SegregatedFit.Source.Buffer

namespace SegregatedFit

namespace Source

variable {σ : Type} [Source σ] {source : σ}

/-- Where bytes spell zero, all of them are zero. -/
theorem byte_eq_zero_of_load {offset count : Nat} (zero : load source offset count = 0) :
    ∀ place < count, byte source (offset + place) = 0 := by
  induction count generalizing offset with
  | zero =>
    intro place inside
    exact absurd inside (Nat.not_lt_zero place)
  | succ count inductionHypothesis =>
    rw [load] at zero
    have first : (byte source offset).toNat = 0 := by omega
    have others : load source (offset + 1) count = 0 := by omega
    intro place inside
    cases place with
    | zero => exact UInt8.toNat_inj.mp first
    | succ place =>
      have later := inductionHypothesis others place (Nat.lt_of_succ_lt_succ inside)
      rwa [Nat.add_assoc, Nat.add_comm 1] at later

end Source

/-- A link that is read from memory never names the offset zero. -/
theorem Link.ofWord_ne_some_zero (word : Nat) : ofWord word ≠ some 0 := by
  unfold ofWord
  split
  · exact Option.some_ne_none 0 |>.symm
  · rename_i nonzero
    exact fun same => nonzero (Option.some.inj same)

namespace Audit

variable {σ : Type} [Source σ] {last : Nat} {arena : Arena σ} {block node : Nat} {tag : Tag}
variable {prevAllocated : Bool}

theorem throw_run_ne_ok {Value : Type} {corruption : Corruption} {value : Value} :
    (throw corruption : Audit Value).run ≠ .ok (.ok value) := by
  rintro ⟨⟩

/-! ### The blocks of the arena -/

/-- A prologue that passes is intact. -/
theorem prologueIntact_of_checkPrologue (passes : (checkPrologue arena).run = .ok (.ok ())) :
    arena.PrologueIntact := by
  obtain ⟨tag, found, required⟩ := bind_run_eq_ok_iff.mp passes
  obtain ⟨_, header, read, rfl⟩ := Arena.header?_eq_some_iff.mp (tagAt_run_eq_ok_iff.mp found)
  have required := require_run_eq_ok_iff.mp required
  simp only [Bool.and_eq_true, decide_eq_true_eq] at required
  obtain ⟨⟨size, allocated⟩, footerMatches⟩ := required
  split at footerMatches
  · rename_i footer footerRead
    refine ⟨header, footer, read, footerRead, ?_, ?_⟩ <;>
      simp only [Tag.sameBlock, Tag.prologue, Bool.and_eq_true, beq_iff_eq] at footerMatches ⊢
    · exact ⟨size, allocated⟩
    · exact ⟨footerMatches.1.trans size, footerMatches.2.trans allocated⟩
  · cases footerMatches

/-- A free block that passes has its footer, and an allocated block in front. -/
theorem footerAgrees_of_checkFreeBlock (header : arena.header? block = some tag)
    (passes : (checkFreeBlock arena block tag prevAllocated).run = .ok (.ok ())) :
    prevAllocated = true ∧ arena.FooterAgrees ⟨block, tag⟩ := by
  obtain ⟨footer, lifted, rest⟩ := bind_run_eq_ok_iff.mp passes
  obtain ⟨_, required, rest⟩ := bind_run_eq_ok_iff.mp rest
  constructor
  · cases prevAllocated with
    | true => rfl
    | false =>
      obtain ⟨_, _, thrown⟩ := bind_run_eq_ok_iff.mp rest
      exact absurd thrown throw_run_ne_ok
  · obtain ⟨place, placed, found⟩ := Fault.bind_eq_ok_iff.mp (lift_run_eq_ok_iff.mp lifted)
    obtain ⟨word, read, same⟩ := Fault.bind_eq_ok_iff.mp found
    obtain ⟨next, following, back⟩ := Fault.bind_eq_ok_iff.mp placed
    obtain ⟨size, sized, sum⟩ := Fault.bind_eq_ok_iff.mp following
    obtain rfl := Except.ok.inj ((Arena.header_eq_ok_iff.mpr header).symm.trans sized)
    obtain ⟨_, rfl⟩ := Word.add_eq_ok_iff.mp sum
    obtain ⟨_, rfl⟩ := Word.sub_eq_ok_iff.mp back
    cases same
    exact ⟨word, Arena.word_eq_ok_iff.mp read, require_run_eq_ok_iff.mp required⟩

/-- A block that passes is what it should be. -/
theorem sound_of_checkBlock {found : { tag : Tag // 0 < tag.size }}
    (passes : (checkBlock arena block prevAllocated).run = .ok (.ok found)) :
    Sound arena ⟨block, found.val⟩ prevAllocated := by
  obtain ⟨tag, read, rest⟩ := bind_run_eq_ok_iff.mp passes
  have header := tagAt_run_eq_ok_iff.mp read
  obtain ⟨_, aligned, rest⟩ := bind_run_eq_ok_iff.mp rest
  have aligned := isAligned_iff.mp (require_run_eq_ok_iff.mp aligned)
  split at rest
  · rename_i valid
    obtain ⟨_, inside, rest⟩ := bind_run_eq_ok_iff.mp rest
    obtain ⟨_, knows, rest⟩ := bind_run_eq_ok_iff.mp rest
    have inside := of_decide_eq_true (require_run_eq_ok_iff.mp inside)
    have knows := beq_iff_eq.mp (require_run_eq_ok_iff.mp knows)
    have regular : Block.Regular ⟨block, tag⟩ := ⟨aligned, isAligned_iff.mp valid.2, valid.1⟩
    cases allocated : tag.allocated with
    | true =>
      simp only [allocated, if_true] at rest
      obtain rfl := pure_run_eq_ok_iff.mp rest
      exact ⟨header, regular, inside, knows, fun free => by simp [allocated] at free⟩
    | false =>
      simp only [allocated, Bool.false_eq_true, if_false] at rest
      obtain ⟨_, passed, rest⟩ := bind_run_eq_ok_iff.mp rest
      obtain rfl := pure_run_eq_ok_iff.mp rest
      exact ⟨header, regular, inside, knows, fun _ =>
        footerAgrees_of_checkFreeBlock header passed⟩
  · exact absurd rest throw_run_ne_ok

/-- An epilogue that passes is intact. -/
theorem epilogueIntact_of_checkEpilogue
    (passes : (checkEpilogue arena prevAllocated).run = .ok (.ok ())) :
    arena.EpilogueIntact prevAllocated := by
  obtain ⟨tag, read, rest⟩ := bind_run_eq_ok_iff.mp passes
  obtain ⟨_, same, knows⟩ := bind_run_eq_ok_iff.mp rest
  have same := require_run_eq_ok_iff.mp same
  refine ⟨tag, tagAt_run_eq_ok_iff.mp read, ?_, beq_iff_eq.mp (require_run_eq_ok_iff.mp knows)⟩
  simpa [Tag.sameBlock, Tag.epilogue] using same

/-- An arena with both of its sentinels has room for them. In a shorter one the header of the
epilogue would overlap with the footer of the prologue, whose upper bytes are zero. -/
theorem le_size_of_intact (prologue : arena.PrologueIntact)
    (epilogue : arena.EpilogueIntact prevAllocated) : firstBlock ≤ arena.epilogue := by
  obtain ⟨_, footer, _, footerRead, _, footerSame⟩ := prologue
  obtain ⟨tag, read, same, _⟩ := epilogue
  obtain ⟨_, word, wordRead, rfl⟩ := Arena.header?_eq_some_iff.mp read
  obtain ⟨inside, loaded⟩ := Arena.word?_eq_some_iff.mp footerRead
  obtain ⟨_, wordLoaded⟩ := Arena.word?_eq_some_iff.mp wordRead
  simp only [Tag.sameBlock, Tag.ofWord, Tag.prologue, Tag.epilogue, Bool.and_eq_true, beq_iff_eq,
    decide_eq_true_eq] at footerSame same
  by_contra short
  have short : arena.size < 32 := Nat.not_le.mp short
  have upper : Source.load arena.source (16 + 1) 7 = 0 := by
    rw [Source.load] at loaded
    omega
  by_cases atFooter : arena.epilogue - 8 = 16
  · rw [atFooter, loaded] at wordLoaded
    omega
  · obtain ⟨place, inUpper, start⟩ : ∃ place < 7, arena.epilogue - 8 = 17 + place := by
      refine ⟨arena.size - 8 - 17, by omega, ?_⟩
      unfold Arena.epilogue at *
      omega
    rw [start, Source.load, Source.byte_eq_zero_of_load upper place inUpper] at wordLoaded
    have zero : (0 : UInt8).toNat = 0 := rfl
    omega

theorem eq_of_countFree {free counted : Nat} (counts : countFree tag free = .ok counted) :
    counted = free + if tag.allocated then 0 else 1 := by
  unfold countFree at counts
  split at counts
  · rename_i allocated
    rw [if_pos allocated]
    exact (Except.ok.inj counts).symm
  · rename_i free
    rw [if_neg free]
    exact (Word.add_eq_ok_iff.mp counts).2.symm

/-- Blocks that pass one after the other tile the arena, and the free ones are counted. -/
theorem tiled_of_checkBlocksFrom {free : Nat} {outcome : Nat × Bool}
    (passes : (checkBlocksFrom arena block prevAllocated free).run = .ok (.ok outcome))
    (epilogue : arena.EpilogueIntact outcome.2) (inside : block ≤ arena.epilogue) :
    ∃ blocks, arena.Tiled block prevAllocated blocks ∧ outcome.1 = free + freeCount blocks := by
  -- The sizes come from memory; that they are not zero brings the walk closer to the epilogue.
  induction distance : arena.epilogue - block using Nat.strongRecOn
    generalizing block prevAllocated free with
  | ind distance inductionHypothesis =>
    rw [checkBlocksFrom] at passes
    by_cases before : block < arena.epilogue
    · rw [if_pos before] at passes
      obtain ⟨⟨tag, positive⟩, passed, rest⟩ := bind_run_eq_ok_iff.mp passes
      obtain ⟨counted, lifted, rest⟩ := bind_run_eq_ok_iff.mp rest
      obtain ⟨header, regular, ends, knows, isFree⟩ := sound_of_checkBlock passed
      obtain ⟨blocks, tiled, total⟩ := inductionHypothesis _ (by omega) rest ends rfl
      refine ⟨⟨block, tag⟩ :: blocks, ⟨rfl, regular, header, knows, isFree, tiled⟩, ?_⟩
      rw [total, freeCount_cons, eq_of_countFree (lift_run_eq_ok_iff.mp lifted), Nat.add_assoc]
    · rw [if_neg before] at passes
      obtain rfl := pure_run_eq_ok_iff.mp passes
      exact ⟨[], ⟨Nat.le_antisymm inside (Nat.not_lt.mp before), epilogue⟩, rfl⟩

/-- An arena whose blocks pass is laid out well, and its free blocks are counted. -/
theorem laidOut_of_checkBlocks {walked : Nat}
    (passes : (checkBlocks arena).run = .ok (.ok walked)) :
    ∃ blocks, arena.LaidOut blocks ∧ walked = freeCount blocks := by
  obtain ⟨_, prologue, rest⟩ := bind_run_eq_ok_iff.mp passes
  obtain ⟨outcome, blocks, rest⟩ := bind_run_eq_ok_iff.mp rest
  obtain ⟨_, epilogue, rest⟩ := bind_run_eq_ok_iff.mp rest
  obtain rfl := pure_run_eq_ok_iff.mp rest
  have prologue := prologueIntact_of_checkPrologue prologue
  have epilogue := epilogueIntact_of_checkEpilogue epilogue
  obtain ⟨blocks, tiled, total⟩ :=
    tiled_of_checkBlocksFrom blocks epilogue (le_size_of_intact prologue epilogue)
  exact ⟨blocks, ⟨prologue, tiled⟩, by rw [total, Nat.zero_add]⟩

/-! ### The free lists -/

/-- A node that passes belongs to its bucket, is linked with the node before it, and is not
smaller. -/
theorem belongs_of_checkNode {bucket lastSize size : Nat} {previous : Option Nat}
    (passes : (checkNode arena last bucket previous node lastSize).run = .ok (.ok size)) :
    Belongs arena last bucket node ∧ arena.word? node = some (Link.word previous) ∧
      lastSize ≤ size ∧ size = arena.sizeAt node := by
  obtain ⟨_, inside, rest⟩ := bind_run_eq_ok_iff.mp passes
  obtain ⟨tag, read, rest⟩ := bind_run_eq_ok_iff.mp rest
  obtain ⟨_, free, rest⟩ := bind_run_eq_ok_iff.mp rest
  have inside := require_run_eq_ok_iff.mp inside
  have header := tagAt_run_eq_ok_iff.mp read
  have free := require_run_eq_ok_iff.mp free
  simp only [Bool.and_eq_true, decide_eq_true_eq, Bool.not_eq_true'] at inside free
  obtain ⟨⟨low, high⟩, aligned⟩ := inside
  split at rest
  · rename_i stored storedRead
    obtain ⟨_, linked, rest⟩ := bind_run_eq_ok_iff.mp rest
    obtain ⟨_, here, rest⟩ := bind_run_eq_ok_iff.mp rest
    obtain ⟨_, ordered, rest⟩ := bind_run_eq_ok_iff.mp rest
    obtain rfl := pure_run_eq_ok_iff.mp rest
    have linked := of_decide_eq_true (require_run_eq_ok_iff.mp linked)
    have here := of_decide_eq_true (require_run_eq_ok_iff.mp here)
    rw [linked] at storedRead
    refine ⟨⟨low, high, isAligned_iff.mp aligned, tag, header, free, here⟩, storedRead,
      of_decide_eq_true (require_run_eq_ok_iff.mp ordered), ?_⟩
    rw [Arena.sizeAt, header]
    rfl
  · obtain ⟨_, thrown, _⟩ := bind_run_eq_ok_iff.mp rest
    exact absurd thrown throw_run_ne_ok

theorem Traces.cons {bucket lastSize : Nat} {previous next : Option Nat} {nodes : List Nat}
    (belongs : Belongs arena last bucket node)
    (linked : arena.word? node = some (Link.word previous)) (ordered : lastSize ≤ arena.sizeAt node)
    (stored : arena.word? (node + 8) = some (Link.word next)) (named : next ≠ some 0)
    (traces : Traces arena last bucket (some node) next (arena.sizeAt node) nodes) :
    Traces arena last bucket previous (some node) lastSize (node :: nodes) where
  chained := ⟨rfl, by have := belongs.1; omega, linked, next, stored, named, traces.chained⟩
  belong := List.forall_mem_cons.mpr ⟨belongs, traces.belong⟩
  ascending := by
    have later := traces.ascending
    rw [List.map_cons]
    refine List.pairwise_cons.mpr ⟨List.forall_mem_cons.mpr ⟨ordered, fun size member => ?_⟩, later⟩
    exact Nat.le_trans ordered ((List.pairwise_cons.mp later).1 size member)

/-- Nodes that pass one after the other are traced, and counted twice. -/
theorem traces_of_checkNodesFrom {limit bucket lastSize length indexed : Nat}
    {previous current : Option Nat} {outcome : Nat × Nat}
    (passes : (checkNodesFrom arena last limit bucket previous current lastSize length
      indexed).run = .ok (.ok outcome)) :
    ∃ nodes, Traces arena last bucket previous current lastSize nodes ∧
      outcome = (length + nodes.length, indexed + nodes.length) := by
  -- Nothing bounds the links of a damaged arena, but every step uses up some of the limit.
  induction distance : limit - indexed using Nat.strongRecOn
    generalizing previous current lastSize length indexed with
  | ind distance inductionHypothesis =>
    cases current with
    | none =>
      rw [checkNodesFrom] at passes
      obtain rfl := pure_run_eq_ok_iff.mp passes
      exact ⟨[], ⟨rfl, List.forall_mem_nil _, List.pairwise_singleton _ _⟩, rfl⟩
    | some node =>
      rw [checkNodesFrom] at passes
      obtain ⟨size, checked, rest⟩ := bind_run_eq_ok_iff.mp passes
      obtain ⟨⟨following, above⟩, next, rest⟩ := bind_run_eq_ok_iff.mp rest
      obtain ⟨counted, added, rest⟩ := bind_run_eq_ok_iff.mp rest
      obtain ⟨belongs, linked, ordered, rfl⟩ := belongs_of_checkNode checked
      obtain ⟨_, rfl⟩ := Word.next_eq_ok_iff.mp (lift_run_eq_ok_iff.mp next)
      obtain ⟨_, rfl⟩ := Word.add_eq_ok_iff.mp (lift_run_eq_ok_iff.mp added)
      by_cases full : limit < indexed + 1
      · rw [if_pos full] at rest
        exact absurd rest throw_run_ne_ok
      · rw [if_neg full] at rest
        obtain ⟨place, placed, rest⟩ := bind_run_eq_ok_iff.mp rest
        obtain ⟨_, rfl⟩ := Word.add_eq_ok_iff.mp (lift_run_eq_ok_iff.mp placed)
        split at rest
        · rename_i stored storedRead
          obtain ⟨nodes, traces, rfl⟩ := inductionHypothesis _ (by omega) rest rfl
          rw [← Link.word_ofWord stored] at storedRead
          refine ⟨node :: nodes, .cons belongs linked ordered storedRead
            (Link.ofWord_ne_some_zero stored) traces, ?_⟩
          rw [List.length_cons, Nat.add_assoc, Nat.add_assoc, Nat.add_comm 1]
        · exact absurd rest throw_run_ne_ok

/-- A list that passes stands for nodes that belong to its bucket. -/
theorem represents_of_checkList {limit bucket indexed total : Nat} {list : FreeList}
    (passes : (checkList arena last limit bucket list indexed).run = .ok (.ok total)) :
    (∃ nodes, list.Represents arena nodes ∧ ∀ node ∈ nodes, Belongs arena last bucket node) ∧
      total = indexed + list.length := by
  obtain ⟨outcome, walked, rest⟩ := bind_run_eq_ok_iff.mp passes
  obtain ⟨nodes, ⟨chained, belong, ascending⟩, rfl⟩ := traces_of_checkNodesFrom walked
  obtain ⟨_, counted, rest⟩ := bind_run_eq_ok_iff.mp rest
  have counted := of_decide_eq_true (require_run_eq_ok_iff.mp counted)
  rw [Nat.zero_add] at counted
  obtain rfl := pure_run_eq_ok_iff.mp rest
  refine ⟨⟨nodes, ⟨chained, chained.nodup, fun node member => ?_, ?_, counted.symm⟩, belong⟩, ?_⟩
  · obtain ⟨_, _, _, tag, header, _⟩ := belong node member
    exact Option.isSome_of_eq_some header
  · exact List.pairwise_map.mp (List.pairwise_cons.mp ascending).2
  · rw [counted]

/-- Lists that pass one after the other stand for nodes that belong to their buckets. -/
theorem represents_of_foldlM_checkList {limit indexed total : Nat} {lists : List (FreeList × Nat)}
    (passes : (lists.foldlM (fun indexed (list, bucket) =>
      checkList arena last limit bucket list indexed) indexed).run = .ok (.ok total)) :
    (∀ pair ∈ lists, ∃ nodes, pair.1.Represents arena nodes ∧
      ∀ node ∈ nodes, Belongs arena last pair.2 node) ∧
      total = indexed + (lists.map (·.1.length)).sum := by
  induction lists generalizing indexed with
  | nil =>
    obtain rfl := pure_run_eq_ok_iff.mp passes
    exact ⟨List.forall_mem_nil _, rfl⟩
  | cons pair rest inductionHypothesis =>
    rw [List.foldlM_cons] at passes
    obtain ⟨between, first, later⟩ := bind_run_eq_ok_iff.mp passes
    obtain ⟨held, rfl⟩ := represents_of_checkList first
    obtain ⟨others, sum⟩ := inductionHypothesis later
    refine ⟨List.forall_mem_cons.mpr ⟨held, others⟩, ?_⟩
    rw [sum, List.map_cons, List.sum_cons, Nat.add_assoc]

/-- The lists of an index that passes stand for nodes that belong to their buckets. -/
theorem represents_of_checkLists {index : Index last} {limit total : Nat}
    (passes : (checkLists arena index limit).run = .ok (.ok total)) :
    (∀ bucket : Fin (last + 1), ∃ nodes, (index.lists.get bucket).Represents arena nodes ∧
      ∀ node ∈ nodes, Belongs arena last bucket node) ∧
      total = (index.lists.toList.map (·.length)).sum := by
  obtain ⟨held, rfl⟩ := represents_of_foldlM_checkList passes
  refine ⟨fun bucket => held (index.lists.get bucket, bucket.val) ?_, ?_⟩
  · refine List.mk_mem_zipIdx_iff_getElem?.mpr ?_
    simp [Vector.get]
  · have firsts := congrArg (List.map FreeList.length) (List.zipIdx_map_fst 0 index.lists.toList)
    rw [List.map_map] at firsts
    rw [Nat.zero_add]
    exact congrArg List.sum firsts

end Audit

namespace Index

variable {σ : Type} [Source σ] {last : Nat} {arena : Arena σ} {index : Index last}
variable {blocks : List Block} {nodes : Fin (last + 1) → List Nat}

/-- Credible lists hold the free blocks when every node is a block. No two nodes are the same,
so as many nodes as there are free blocks leave none of them out. -/
theorem Credible.holds (credible : index.Credible arena blocks nodes)
    (layout : arena.LaidOut blocks)
    (known : ∀ bucket, ∀ node ∈ nodes bucket, ∃ block ∈ blocks, block.offset = node) :
    index.Holds arena blocks nodes := by
  have free : ∀ bucket : Fin (last + 1), ∀ node ∈ nodes bucket, ∃ block ∈ blocks,
      block.offset = node ∧ block.tag.allocated = false ∧
        bucketFor last block.tag.size = bucket := by
    intro bucket node member
    obtain ⟨block, found, rfl⟩ := known bucket node member
    obtain ⟨_, _, _, tag, header, isFree, here⟩ := credible.belong bucket _ member
    obtain ⟨_, _, _, same⟩ := layout.2.bounds.2 block found
    obtain rfl := Option.some.inj (same.symm.trans header)
    exact ⟨block, found, rfl, isFree, here⟩
  have within : (List.finRange (last + 1)).flatMap nodes ⊆
      (blocks.filter fun block => ! block.tag.allocated).map Block.offset := by
    intro node member
    obtain ⟨bucket, _, member⟩ := List.mem_flatMap.mp member
    obtain ⟨block, found, place, isFree, _⟩ := free bucket node member
    exact List.mem_map.mpr ⟨block, List.mem_filter.mpr ⟨found, by simp [isFree]⟩, place⟩
  have distinct := nodup_flatMap_nodes credible.listed credible.belong
  have enough := (List.length_map Block.offset).trans credible.counted.symm
  have perm := (distinct.subperm within).perm_of_length_le (Nat.le_of_eq enough)
  intro bucket
  refine ⟨credible.listed bucket, fun node => ⟨free bucket node, ?_⟩⟩
  rintro ⟨block, found, rfl, isFree, here⟩
  have listed : block.offset ∈ (List.finRange (last + 1)).flatMap nodes := perm.mem_iff.mpr
    (List.mem_map.mpr ⟨block, List.mem_filter.mpr ⟨found, by simp [isFree]⟩, rfl⟩)
  obtain ⟨other, _, member⟩ := List.mem_flatMap.mp listed
  obtain ⟨_, _, _, tag, header, _, there⟩ := credible.belong other _ member
  obtain ⟨_, _, _, same⟩ := layout.2.bounds.2 block found
  obtain rfl := Option.some.inj (same.symm.trans header)
  obtain rfl : other = bucket := Fin.ext (there.symm.trans here)
  exact member

end Index

namespace Heap

variable {σ : Type} [Source σ] {last : Nat} {heap : Heap σ last}

/-- The audit of a heap finds nothing exactly when its arena is laid out well and its lists look
as if they held the free blocks. -/
theorem audit_passes_iff : heap.audit.run = .ok (.ok ()) ↔
    ∃ blocks nodes, heap.arena.LaidOut blocks ∧
      heap.index.Credible heap.arena blocks nodes := by
  constructor
  · intro passes
    obtain ⟨walked, blocksPass, rest⟩ := Audit.bind_run_eq_ok_iff.mp passes
    obtain ⟨recorded, _, rest⟩ := Audit.bind_run_eq_ok_iff.mp rest
    obtain ⟨_, _, rest⟩ := Audit.bind_run_eq_ok_iff.mp rest
    obtain ⟨indexed, listsPass, same⟩ := Audit.bind_run_eq_ok_iff.mp rest
    have same := of_decide_eq_true (Audit.require_run_eq_ok_iff.mp same)
    obtain ⟨blocks, layout, rfl⟩ := Audit.laidOut_of_checkBlocks blocksPass
    obtain ⟨held, rfl⟩ := Audit.represents_of_checkLists listsPass
    obtain ⟨nodes, held⟩ := Classical.axiomOfChoice held
    have listed := fun bucket => (held bucket).1
    exact ⟨blocks, nodes, layout, listed, fun bucket => (held bucket).2,
      (Index.sum_length_eq listed).symm.trans same.symm⟩
  · rintro ⟨blocks, nodes, layout, credible⟩
    exact audit_passes layout credible

/-- A heap is well formed exactly when its audit finds nothing and every node of its lists is
one of the blocks that a walk through the arena meets. -/
theorem wellFormed_iff_audit_passes : heap.WellFormed ↔
    heap.audit.run = .ok (.ok ()) ∧
      ∀ bucket nodes, (heap.index.lists.get bucket).nodes heap.arena = .ok nodes →
        ∀ node ∈ nodes, ∃ block ∈ heap.arena.blocks, block.offset = node := by
  constructor
  · intro wellFormed
    refine ⟨wellFormed.audit_passes, fun bucket nodes listed node member => ?_⟩
    obtain ⟨_, found, _, members⟩ := wellFormed.nodes_eq bucket
    obtain rfl := Except.ok.inj (found.symm.trans listed)
    obtain ⟨block, inArena, place, _⟩ := (members node).mp member
    exact ⟨block, inArena, place⟩
  · rintro ⟨passes, known⟩
    obtain ⟨blocks, nodes, layout, credible⟩ := audit_passes_iff.mp passes
    rw [Arena.blocks_eq_of_laidOut layout] at known
    exact ⟨blocks, nodes, layout, credible.holds layout fun bucket =>
      known bucket _ (credible.listed bucket).nodes_eq⟩

/-- The owner of the block at 64 writes what looks like a free block into its payload, at the
offset 80. The link of the free block at 32 is then turned there, away from the free block
at 128. -/
def forge : Action (Heap Buffer 0) Unit := do
  let some free ← allocate? 24 | return
  let some owned ← allocate? 56 | return
  release free
  writePayload owned 8 ([32, 32, 0].flatMap fun low => [low, 0, 0, 0, 0, 0, 0, 0])
  onArena (Arena.setWord 40 80)

/-- A heap after a forgery. -/
def forged? : Option (Heap Buffer 0) :=
  match Heap.create (Buffer.ofMaximum 512) ⟨128, 128, 512⟩ with
  | .ok (.ok heap) =>
    match forge heap with
    | .ok _ forged => some forged
    | .error _ _ => none
  | _ => none

/-- An audit can find nothing although a node is no block and a free block is in no list. -/
theorem audit_passes_forged : ∃ heap : Heap Buffer 0, forged? = some heap ∧
    heap.audit.run = .ok (.ok ()) ∧
    (heap.index.lists.get 0).nodes heap.arena = .ok [32, 80] ∧
    (heap.arena.blocks.filter (! ·.tag.allocated)).map Block.offset = [32, 128] := by
  have forgery : forged?.map (fun heap => (heap.audit.run,
      (heap.index.lists.get 0).nodes heap.arena,
      (heap.arena.blocks.filter (! ·.tag.allocated)).map Block.offset)) =
        some (.ok (.ok ()), .ok [32, 80], [32, 128]) := by
    decide +kernel
  obtain ⟨heap, found, facts⟩ := Option.map_eq_some_iff.mp forgery
  simp only [Prod.mk.injEq] at facts
  exact ⟨heap, found, facts⟩

end Heap

end SegregatedFit
