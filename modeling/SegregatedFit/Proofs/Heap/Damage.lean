/-
This file proves that an audit notices damage to the metadata of a heap. A well-formed heap says
everything about its blocks and its lists twice: the flags of a header are repeated in front of it
and behind it, the header of a free block in its footer, and a link in the link back or in the
recorded length of its list. So one word that changes contradicts another one, whatever the other
bytes of the arena look like.
-/

import SegregatedFit.Proofs.Heap.Scrutiny

namespace SegregatedFit

namespace Tag

/-- The lowest bit of a word is the flag of the block itself. -/
theorem ofWord_xor_one (word : Nat) : (ofWord (word ^^^ 1)).size = (ofWord word).size ∧
    (ofWord (word ^^^ 1)).allocated = ! (ofWord word).allocated := by
  have half : (word ^^^ 1) / 2 = word / 2 := by
    rw [Nat.xor_div_two]
    exact Nat.xor_zero _
  have low : (word ^^^ 1) % 2 = 1 ↔ ¬ word % 2 = 1 := by
    rw [Nat.xor_mod_two_eq_one]
    simp
  constructor
  · simp only [ofWord]
    omega
  · simp only [ofWord, low, decide_not]

/-- The second bit of a word is the flag of the block in front. -/
theorem ofWord_xor_two (word : Nat) : (ofWord (word ^^^ 2)).size = (ofWord word).size ∧
    (ofWord (word ^^^ 2)).prevAllocated = ! (ofWord word).prevAllocated := by
  have half : (word ^^^ 2) / 2 = word / 2 ^^^ 1 := Nat.xor_div_two
  have quarter : (word / 2 ^^^ 1) / 2 = word / 2 / 2 := by
    rw [Nat.xor_div_two]
    exact Nat.xor_zero _
  have low : (word / 2 ^^^ 1) % 2 = 1 ↔ ¬ word / 2 % 2 = 1 := by
    rw [Nat.xor_mod_two_eq_one]
    simp
  constructor
  · simp only [ofWord]
    omega
  · simp only [ofWord, half, low, decide_not]

end Tag

namespace Arena

variable {σ : Type} [Source σ] {arena before after : Arena σ} {blocks others : List Block}
variable {block : Block} {offset head word value : Nat} {prevAllocated prevOther : Bool}

/-! ### Arenas whose headers tell the same sizes -/

/-- Whether an arena has the size of another one, and tells the same sizes of some blocks. -/
structure SameSizes (before after : Arena σ) (blocks : List Block) : Prop where
  size : after.size = before.size
  sizes : ∀ block ∈ blocks, after.sizeAt block.offset = before.sizeAt block.offset

/-- Where headers tell the same sizes, blocks begin and end at the same offsets. -/
theorem Tiled.exists_counterpart (one : before.Tiled offset prevAllocated blocks)
    (other : after.Tiled offset prevOther others) (same : SameSizes before after blocks)
    (member : block ∈ blocks) :
    ∃ counterpart ∈ others, counterpart.offset = block.offset ∧
      counterpart.next = block.next := by
  induction blocks generalizing offset prevAllocated prevOther others with
  | nil => cases member
  | cons first rest inductionHypothesis =>
    have ends := (one.bounds.2 first List.mem_cons_self).2.1
    obtain ⟨rfl, ⟨_, _, large⟩, header, _, _, tail⟩ := one
    obtain ⟨here, later⟩ := List.forall_mem_cons.mp same.sizes
    cases others with
    | nil =>
      have stops : first.offset = after.size := other.1
      have ends : first.offset + first.tag.size ≤ before.size := ends
      rw [same.size] at stops
      omega
    | cons counterpart others =>
      obtain ⟨place, _, found, _, _, behind⟩ := other
      have stops : counterpart.next = first.next := by
        rw [sizeAt, sizeAt, header, found] at here
        exact congrArg₂ (· + ·) place here
      rcases List.mem_cons.mp member with rfl | inRest
      · exact ⟨counterpart, List.mem_cons_self, place, stops⟩
      · rw [stops] at behind
        obtain ⟨found, inOthers, equal⟩ :=
          inductionHypothesis tail behind ⟨same.size, later⟩ inRest
        exact ⟨found, List.mem_cons_of_mem _ inOthers, equal⟩

/-- A block whose header stays is a block of the other arena too. -/
theorem LaidOut.mem_of_header?_eq (one : before.LaidOut blocks) (other : after.LaidOut others)
    (same : SameSizes before after blocks) (member : block ∈ blocks)
    (kept : after.header? block.offset = before.header? block.offset) : block ∈ others := by
  obtain ⟨⟨place, changed⟩, found, rfl, _⟩ := one.2.exists_counterpart other.2 same member
  have header := (one.2.bounds.2 block member).2.2.2
  have again := (other.2.bounds.2 _ found).2.2.2
  obtain rfl := Option.some.inj (again.symm.trans (kept.trans header))
  exact found

/-! ### Words of the blocks -/

/-- Headers lie at every other word, so the words between them do not touch any. -/
theorem LaidOut.header?_withWord_between (layout : arena.LaidOut blocks)
    (whole : offset % 16 = 0) (member : head ∈ arena.heads) :
    (arena.withWord offset value).header? head = arena.header? head := by
  have aligned := layout.aligned_of_mem_heads member
  exact header?_withWord_of_apart _ (by omega)

/-- Writing a header leaves all other headers alone. -/
theorem LaidOut.header?_withWord_of_ne (layout : arena.LaidOut blocks)
    (member : head ∈ arena.heads) {other : Nat} (inArena : other ∈ arena.heads)
    (different : other ≠ head) :
    (arena.withWord (head - 8) value).header? other = arena.header? other := by
  have one := layout.aligned_of_mem_heads member
  have two := layout.aligned_of_mem_heads inArena
  exact header?_withWord_of_apart _ (by omega)

section Header

variable (layout : arena.LaidOut blocks) (member : head ∈ arena.heads)
variable (read : arena.word? (head - 8) = some word) (isWord : value < wordLimit)
variable (size : (Tag.ofWord value).size = (Tag.ofWord word).size)
variable (damaged : (arena.withWord (head - 8) value).LaidOut others)

include layout member read in
theorem LaidOut.header?_eq : arena.header? head = some (Tag.ofWord word) := by
  have aligned := layout.aligned_of_mem_heads member
  exact header?_eq_some_iff.mpr ⟨by omega, word, read, rfl⟩

include layout member read isWord in
theorem LaidOut.header?_withWord_eq :
    (arena.withWord (head - 8) value).header? head = some (Tag.ofWord value) := by
  have aligned := layout.aligned_of_mem_heads member
  have inside := (word?_eq_some_iff.mp read).1
  exact header?_eq_some_iff.mpr ⟨by omega, value, word?_withWord_self inside isWord, rfl⟩

include layout member read isWord size in
theorem LaidOut.sameSizes_withWord :
    SameSizes arena (arena.withWord (head - 8) value) blocks where
  size := size_withWord _ _ _
  sizes block inArena := by
    by_cases same : block.offset = head
    · rw [same, sizeAt, sizeAt, layout.header?_eq member read,
        layout.header?_withWord_eq member read isWord]
      exact size
    · rw [sizeAt, sizeAt,
        layout.header?_withWord_of_ne member (layout.offset_mem_heads inArena) same]

include layout member read isWord size damaged

/-- A header does not tell anything else of the block in front while that one has its header. -/
theorem LaidOut.prevAllocated_eq :
    (Tag.ofWord value).prevAllocated = (Tag.ofWord word).prevAllocated := by
  have written := layout.header?_withWord_eq member read isWord
  have same := layout.sameSizes_withWord member read isWord size
  rcases layout.prevAllocated_cases member (layout.header?_eq member read) with
    ⟨rfl, knows⟩ | ⟨block, inArena, rfl, knows⟩
  · obtain ⟨_, header, again⟩ := damaged.2.exists_first
    cases header.symm.trans written
    exact again.trans knows.symm
  · have large := (layout.2.bounds.2 block inArena).2.2.1.2.2
    have kept := layout.mem_of_header?_eq damaged same inArena
      (layout.header?_withWord_of_ne member (layout.offset_mem_heads inArena)
        (by unfold Block.next; omega))
    obtain ⟨_, header, again⟩ := damaged.2.exists_follower kept
    cases header.symm.trans written
    exact again.trans knows.symm

/-- A header does not tell anything else of its block while the next header stays, and an epilogue
is never free. -/
theorem LaidOut.allocated_eq : (Tag.ofWord value).allocated = (Tag.ofWord word).allocated := by
  have found := layout.header?_eq member read
  have written := layout.header?_withWord_eq member read isWord
  have same := layout.sameSizes_withWord member read isWord size
  rcases layout.mem_heads_iff.mp member with ⟨block, inArena, rfl⟩ | rfl
  · obtain ⟨_, _, ⟨_, _, large⟩, header⟩ := layout.2.bounds.2 block inArena
    obtain ⟨counterpart, kept, begins, ends⟩ :=
      layout.2.exists_counterpart damaged.2 same inArena
    have again := (damaged.2.bounds.2 _ kept).2.2.2
    rw [begins] at again
    obtain ⟨_, behind, knows⟩ := layout.2.exists_follower inArena
    obtain ⟨_, remains, tells⟩ := damaged.2.exists_follower kept
    rw [ends, layout.header?_withWord_of_ne member (layout.next_mem_heads inArena)
      (by unfold Block.next; omega)] at remains
    cases remains.symm.trans behind
    rw [← Option.some.inj (again.symm.trans written), ← tells, knows,
      Option.some.inj (header.symm.trans found)]
  · obtain ⟨_, header, one⟩ := layout.2.exists_epilogue
    obtain ⟨_, again, other⟩ := damaged.2.exists_epilogue
    rw [size_withWord] at again
    cases header.symm.trans found
    cases again.symm.trans written
    exact (Tag.sameBlock_iff.mp other).2.trans (Tag.sameBlock_iff.mp one).2.symm

end Header

/-- A footer does not tell anything else of a free block while that one has its header. -/
theorem LaidOut.sameBlock_of_footer (layout : arena.LaidOut blocks) (member : block ∈ blocks)
    (free : block.tag.allocated = false) (read : arena.word? (block.next - 16) = some word)
    (isWord : value < wordLimit)
    (damaged : (arena.withWord (block.next - 16) value).LaidOut others) :
    (Tag.ofWord value).sameBlock (Tag.ofWord word) = true := by
  have aligned := layout.aligned_of_mem_heads (layout.next_mem_heads member)
  have headers : ∀ other ∈ blocks, (arena.withWord (block.next - 16) value).header? other.offset =
      arena.header? other.offset := fun other inArena =>
    layout.header?_withWord_between (by omega) (layout.offset_mem_heads inArena)
  have same : SameSizes arena (arena.withWord (block.next - 16) value) blocks :=
    ⟨size_withWord _ _ _, fun other inArena => by rw [sizeAt, sizeAt, headers other inArena]⟩
  have kept := layout.mem_of_header?_eq damaged same member (headers block member)
  obtain ⟨_, footer, one⟩ := layout.2.footerAgrees member free
  obtain ⟨_, again, other⟩ := damaged.2.footerAgrees kept free
  cases footer.symm.trans read
  cases again.symm.trans (word?_withWord_self (word?_eq_some_iff.mp read).1 isWord)
  exact Tag.sameBlock_of_sameBlock other one

/-- Both words of an intact prologue say what it is. -/
theorem PrologueIntact.sameBlock (intact : arena.PrologueIntact)
    (place : offset = 8 ∨ offset = 16) (read : arena.word? offset = some word) :
    (Tag.ofWord word).sameBlock Tag.prologue = true := by
  obtain ⟨header, footer, headerRead, footerRead, one, other⟩ := intact
  rcases place with rfl | rfl
  · cases headerRead.symm.trans read
    exact one
  · cases footerRead.symm.trans read
    exact other

end Arena

/-! ### Words of the lists -/

namespace Index.Holds

variable {σ : Type} [Source σ] {last : Nat} {index : Index last} {arena : Arena σ}
variable {blocks others : List Block} {nodes lists : Fin (last + 1) → List Nat} {block : Block}
variable {offset word value : Nat}

/-- Damage to a link of a free block leaves the nodes in front of it in its list. -/
theorem exists_shared (holds : index.Holds arena blocks nodes) (layout : arena.LaidOut blocks)
    (member : block ∈ blocks) (free : block.tag.allocated = false)
    (damaged : index.Credible (arena.withWord offset value) others lists)
    (own : offset = block.offset ∨ offset = block.offset + 8) :
    ∃ bucket front back rest, nodes bucket = front ++ block.offset :: back ∧
      lists bucket = front ++ block.offset :: rest := by
  have inside : bucketFor last block.tag.size < last + 1 :=
    Nat.lt_succ_of_le (bucketFor_le _ _)
  have listed : block.offset ∈ nodes ⟨_, inside⟩ :=
    ((holds ⟨_, inside⟩).2 block.offset).mpr ⟨block, member, rfl, free, rfl⟩
  obtain ⟨front, back, split⟩ := List.append_of_mem listed
  have represents := (holds ⟨_, inside⟩).1
  have aligned : ∀ node ∈ nodes ⟨_, inside⟩, node % 16 = 0 := fun node listed =>
    (holds.belongs layout listed).2.2.1
  have whole := aligned block.offset listed
  rw [split] at represents aligned
  have distinct := (List.nodup_append.mp represents.distinct).2.2
  obtain ⟨rest, shared⟩ := represents.chained.exists_shared (damaged.listed _).chained
    fun earlier inFront => by
      have apart := aligned earlier (List.mem_append_left _ inFront)
      have different := distinct earlier inFront block.offset List.mem_cons_self
      exact Arena.word?_withWord_of_apart _ (by omega)
  exact ⟨_, front, back, rest, split, shared⟩

/-- A node does not link to another node in front while the links forward stay. -/
theorem word_eq_of_previousLink (holds : index.Holds arena blocks nodes)
    (layout : arena.LaidOut blocks) (member : block ∈ blocks)
    (free : block.tag.allocated = false) (read : arena.word? block.offset = some word)
    (isWord : value < wordLimit)
    (damaged : index.Credible (arena.withWord block.offset value) others lists) :
    value = word := by
  obtain ⟨bucket, front, back, rest, split, shared⟩ :=
    holds.exists_shared layout member free damaged (Or.inl rfl)
  have one := (holds bucket).1.chained
  have other := (damaged.listed bucket).chained
  rw [split] at one
  rw [shared] at other
  have written := Arena.word?_withWord_self (Arena.word?_eq_some_iff.mp read).1 isWord
  exact Option.some.inj
    ((other.backward.symm.trans written).symm.trans (one.backward.symm.trans read))

/-- A node is the last one of its list or not, as the recorded length says. -/
theorem zero_iff_of_nextLink (holds : index.Holds arena blocks nodes)
    (layout : arena.LaidOut blocks) (member : block ∈ blocks)
    (free : block.tag.allocated = false) (read : arena.word? (block.offset + 8) = some word)
    (isWord : value < wordLimit)
    (damaged : index.Credible (arena.withWord (block.offset + 8) value) others lists) :
    value = 0 ↔ word = 0 := by
  obtain ⟨bucket, front, back, rest, split, shared⟩ :=
    holds.exists_shared layout member free damaged (Or.inr rfl)
  have one := (holds bucket).1
  have other := damaged.listed bucket
  rw [split] at one
  rw [shared] at other
  have lengths := one.counted.symm.trans other.counted
  simp only [List.length_append, List.length_cons] at lengths
  have unnamed : 0 ∉ back ∧ 0 ∉ rest :=
    ⟨fun zero => one.chained.named (by simp [zero]),
      fun zero => other.chained.named (by simp [zero])⟩
  have written := Arena.word?_withWord_self (Arena.word?_eq_some_iff.mp read).1 isWord
  rw [← Option.some.inj (one.chained.forward.symm.trans read),
    ← Option.some.inj (other.chained.forward.symm.trans written),
    Link.word_head?_eq_zero_iff unnamed.1, Link.word_head?_eq_zero_iff unnamed.2,
    ← List.length_eq_zero_iff, ← List.length_eq_zero_iff]
  omega

end Index.Holds

namespace Heap

variable {σ : Type} [Source σ] {last : Nat} {heap : Heap σ last} {offset value : Nat}

/-- The damage to one word of the metadata of a heap: the offset of the word, and the word that it
becomes. -/
inductive Damages (heap : Heap σ last) : (offset value : Nat) → Prop
  /-- The flag for the block itself is turned in a header. -/
  | allocated {head word : Nat} (member : head ∈ heap.arena.heads)
      (read : heap.arena.word? (head - 8) = some word) : Damages heap (head - 8) (word ^^^ 1)
  /-- The flag for the block in front is turned in a header. -/
  | prevAllocated {head word : Nat} (member : head ∈ heap.arena.heads)
      (read : heap.arena.word? (head - 8) = some word) : Damages heap (head - 8) (word ^^^ 2)
  /-- The footer of a free block is replaced. -/
  | footer {block : Block} {word value : Nat} (member : block ∈ heap.arena.blocks)
      (free : block.tag.allocated = false)
      (read : heap.arena.word? (block.next - 16) = some word) (isWord : value < wordLimit)
      (differs : (Tag.ofWord value).sameBlock (Tag.ofWord word) = false) :
    Damages heap (block.next - 16) value
  /-- The header or the footer of the prologue is replaced. -/
  | prologue {offset word value : Nat} (place : offset = 8 ∨ offset = 16)
      (read : heap.arena.word? offset = some word) (isWord : value < wordLimit)
      (differs : (Tag.ofWord value).sameBlock (Tag.ofWord word) = false) :
    Damages heap offset value
  /-- The link of a free block to the node in front is replaced. -/
  | previousLink {block : Block} {word value : Nat} (member : block ∈ heap.arena.blocks)
      (free : block.tag.allocated = false)
      (read : heap.arena.word? block.offset = some word) (isWord : value < wordLimit)
      (differs : value ≠ word) :
    Damages heap block.offset value
  /-- The link of a free block to the node behind is cut, or the last node gets one. -/
  | nextLink {block : Block} {word value : Nat} (member : block ∈ heap.arena.blocks)
      (free : block.tag.allocated = false)
      (read : heap.arena.word? (block.offset + 8) = some word) (isWord : value < wordLimit)
      (differs : ¬ (value = 0 ↔ word = 0)) :
    Damages heap (block.offset + 8) value

/-- Damage lies inside of the arena. -/
theorem Damages.inside (damages : heap.Damages offset value) : offset + 8 ≤ heap.arena.size := by
  cases damages with
  | allocated _ read => exact (Arena.word?_eq_some_iff.mp read).1
  | prevAllocated _ read => exact (Arena.word?_eq_some_iff.mp read).1
  | footer _ _ read => exact (Arena.word?_eq_some_iff.mp read).1
  | prologue _ read => exact (Arena.word?_eq_some_iff.mp read).1
  | previousLink _ _ read => exact (Arena.word?_eq_some_iff.mp read).1
  | nextLink _ _ read => exact (Arena.word?_eq_some_iff.mp read).1

/-- After damage to a well-formed heap there are no blocks and no lists any more that an audit
could find in it. -/
theorem WellFormed.not_credible (wellFormed : heap.WellFormed)
    (damages : heap.Damages offset value) {others : List Block}
    {lists : Fin (last + 1) → List Nat}
    (damaged : (heap.arena.withWord offset value).LaidOut others) :
    ¬ heap.index.Credible (heap.arena.withWord offset value) others lists := by
  obtain ⟨blocks, nodes, layout, holds⟩ := wellFormed
  have same := Arena.blocks_eq_of_laidOut layout
  intro credible
  cases damages with
  | @allocated head word member read =>
    obtain ⟨size, turned⟩ := Tag.ofWord_xor_one word
    have isWord : word ^^^ 1 < 2 ^ 64 :=
      Nat.xor_lt_two_pow (Arena.word_lt read) (by decide)
    have contradicts := layout.allocated_eq member read isWord size damaged
    simp [turned] at contradicts
  | @prevAllocated head word member read =>
    obtain ⟨size, turned⟩ := Tag.ofWord_xor_two word
    have isWord : word ^^^ 2 < 2 ^ 64 :=
      Nat.xor_lt_two_pow (Arena.word_lt read) (by decide)
    have contradicts := layout.prevAllocated_eq member read isWord size damaged
    simp [turned] at contradicts
  | footer member free read isWord differs =>
    exact Bool.false_ne_true
      (differs.symm.trans (layout.sameBlock_of_footer (same ▸ member) free read isWord damaged))
  | prologue place read isWord differs =>
    have again := Arena.word?_withWord_self (Arena.word?_eq_some_iff.mp read).1 isWord
    exact Bool.false_ne_true (differs.symm.trans (Tag.sameBlock_of_sameBlock
      (damaged.1.sameBlock place again) (layout.1.sameBlock place read)))
  | previousLink member free read isWord differs =>
    exact differs
      (holds.word_eq_of_previousLink layout (same ▸ member) free read isWord credible)
  | nextLink member free read isWord differs =>
    exact differs (holds.zero_iff_of_nextLink layout (same ▸ member) free read isWord credible)

/-- An audit ends with a verdict when the recorded lengths of the lists add up to a word. -/
theorem exists_verdict (heap : Heap σ last)
    (small : (heap.index.lists.toList.map FreeList.length).sum < wordLimit) :
    ∃ verdict, heap.audit.run = .ok verdict := by
  obtain ⟨verdict, _, _, ends, _⟩ :=
    Audit.Counting.counts_audit heap.arena.size small fun walked passes => by
      obtain ⟨blocks, layout, rfl⟩ := Audit.laidOut_of_checkBlocks passes
      exact Audit.freeCount_lt_size layout
  exact ⟨verdict, ends⟩

/-- An audit of a damaged heap reports a corruption. -/
theorem WellFormed.exists_corruption (wellFormed : heap.WellFormed)
    (damages : heap.Damages offset value) :
    ∃ damaged corruption, onArena (Arena.setWord offset value) heap = .ok () damaged ∧
      damaged.audit.run = .ok (.error corruption) := by
  have written : onArena (Arena.setWord offset value) heap =
      .ok () { heap with arena := heap.arena.withWord offset value } :=
    onArena_eq_ok_iff.mpr ⟨_, Arena.setWord_eq_ok_iff.mpr ⟨damages.inside, rfl⟩, rfl⟩
  have small : (heap.index.lists.toList.map FreeList.length).sum < wordLimit := by
    obtain ⟨blocks, nodes, layout, holds⟩ := wellFormed
    rw [(holds.credible layout).sum_length]
    exact Audit.freeCount_lt layout
  obtain ⟨verdict, ends⟩ :=
    exists_verdict { heap with arena := heap.arena.withWord offset value } small
  cases verdict with
  | error corruption => exact ⟨_, corruption, written, ends⟩
  | ok passed =>
    obtain ⟨others, lists, damaged, credible⟩ := audit_passes_iff.mp ends
    exact absurd credible (wellFormed.not_credible damages damaged)

end Heap

end SegregatedFit
