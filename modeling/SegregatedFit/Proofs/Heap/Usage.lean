/-
This file proves that a heap can always be measured. While blocks are counted, their bytes fill
the arena up to the next block, and every block has at least 32 of them; so no counter grows
beyond the arena, let alone beyond a word.
-/

import SegregatedFit.Heap.Usage
import SegregatedFit.Proofs.Arena.Layout

namespace SegregatedFit

namespace Usage

/-- Whether the counted blocks fill the arena from the sentinels up to an offset. -/
structure Reaches (usage : Usage) (offset : Nat) : Prop where
  filled : usage.allocatedBytes + usage.freeBytes + 32 = offset
  allocated : 32 * usage.allocatedBlocks ≤ usage.allocatedBytes
  free : 32 * usage.freeBlocks ≤ usage.freeBytes

variable {usage : Usage} {block : Block}

/-- A block that ends at a word can be counted. -/
theorem Reaches.exists_tally (reaches : usage.Reaches block.offset)
    (large : 32 ≤ block.tag.size) (small : block.next < wordLimit) :
    ∃ counted, usage.tally block = .ok counted ∧ counted.Reaches block.next := by
  obtain ⟨filled, allocated, free⟩ := reaches
  unfold Block.next at small ⊢
  unfold tally
  cases kind : block.tag.allocated with
  | true =>
    refine ⟨_, Fault.bind_eq_ok_iff.mpr ⟨_, Word.add_eq_ok_iff.mpr ⟨by omega, rfl⟩,
      Fault.bind_eq_ok_iff.mpr ⟨_, Word.add_eq_ok_iff.mpr ⟨by omega, rfl⟩, rfl⟩⟩, ?_, ?_, free⟩
    · simp only
      omega
    · simp only
      omega
  | false =>
    have payload : payloadSize block.tag.size = .ok (block.tag.size - 8) :=
      payloadSize_eq_ok_iff.mpr (by omega)
    refine ⟨_, Fault.bind_eq_ok_iff.mpr ⟨_, Word.add_eq_ok_iff.mpr ⟨by omega, rfl⟩,
      Fault.bind_eq_ok_iff.mpr ⟨_, Word.add_eq_ok_iff.mpr ⟨by omega, rfl⟩,
        Fault.bind_eq_ok_iff.mpr ⟨_, payload, rfl⟩⟩⟩, ?_, allocated, ?_⟩
    · simp only
      omega
    · simp only
      omega

/-- The blocks of a tiled arena can be counted one after the other. -/
theorem Reaches.exists_foldlM_tally {σ : Type} [Source σ] {arena : Arena σ} {blocks : List Block}
    {offset : Nat} {prevAllocated : Bool} (reaches : usage.Reaches offset)
    (tiled : arena.Tiled offset prevAllocated blocks) :
    ∃ total, blocks.foldlM tally usage = .ok total ∧ total.Reaches arena.epilogue := by
  induction blocks generalizing usage offset prevAllocated with
  | nil =>
    obtain rfl := tiled.1
    exact ⟨usage, rfl, reaches⟩
  | cons block rest inductionHypothesis =>
    have ends := (tiled.bounds.2 block List.mem_cons_self).2.1
    obtain ⟨rfl, ⟨_, _, large⟩, _, _, _, tail⟩ := tiled
    obtain ⟨counted, tallied, reaches⟩ :=
      reaches.exists_tally large (Nat.lt_of_le_of_lt ends arena.size_lt)
    obtain ⟨total, folded, reaches⟩ := inductionHypothesis reaches tail
    rw [List.foldlM_cons]
    exact ⟨total, Fault.bind_eq_ok_iff.mpr ⟨counted, tallied, folded⟩, reaches⟩

/-! ### The largest free block -/

variable {counted total : Usage} {blocks : List Block} {request : Nat}

/-- A block that is counted offers its payload if it is free. -/
theorem le_largestFree_tally_iff (tallied : usage.tally block = .ok counted) :
    request ≤ counted.largestFree ↔
      request ≤ usage.largestFree ∨ block.tag.allocated = false ∧ request + 8 ≤ block.tag.size := by
  unfold tally at tallied
  cases kind : block.tag.allocated with
  | true =>
    rw [kind, if_pos rfl] at tallied
    obtain ⟨_, _, tallied⟩ := Fault.bind_eq_ok_iff.mp tallied
    obtain ⟨_, _, same⟩ := Fault.bind_eq_ok_iff.mp tallied
    cases same
    simp
  | false =>
    rw [kind, if_neg Bool.false_ne_true] at tallied
    obtain ⟨_, _, tallied⟩ := Fault.bind_eq_ok_iff.mp tallied
    obtain ⟨_, _, tallied⟩ := Fault.bind_eq_ok_iff.mp tallied
    obtain ⟨payload, measured, same⟩ := Fault.bind_eq_ok_iff.mp tallied
    have size_eq := payloadSize_eq_ok_iff.mp measured
    cases same
    simp only [true_and]
    omega

/-- The largest free block has room for a request when some free block has. -/
theorem le_largestFree_foldlM_iff (folded : blocks.foldlM tally usage = .ok total) :
    request ≤ total.largestFree ↔ request ≤ usage.largestFree ∨
      ∃ block ∈ blocks, block.tag.allocated = false ∧ request + 8 ≤ block.tag.size := by
  induction blocks generalizing usage with
  | nil =>
    cases folded
    simp
  | cons block rest inductionHypothesis =>
    rw [List.foldlM_cons] at folded
    obtain ⟨counted, tallied, folded⟩ := Fault.bind_eq_ok_iff.mp folded
    rw [inductionHypothesis folded, le_largestFree_tally_iff tallied]
    simp only [List.mem_cons, exists_eq_or_imp, or_assoc]

end Usage

/-- A heap whose arena is laid out well can be measured, and every byte of it is counted. -/
theorem Heap.exists_usage {σ : Type} [Source σ] {last : Nat} {heap : Heap σ last}
    {blocks : List Block} (layout : heap.arena.LaidOut blocks) :
    ∃ usage, heap.usage = .ok usage ∧ usage.Reaches heap.size := by
  have begins : (Usage.begin heap.size heap.arena.growths).Reaches firstBlock :=
    ⟨rfl, Nat.le_refl _, Nat.le_refl _⟩
  obtain ⟨usage, folded, reaches⟩ := begins.exists_foldlM_tally layout.2
  exact ⟨usage, Fault.bind_eq_ok_iff.mpr ⟨blocks, layout.walk_eq_ok, folded⟩, reaches⟩

/-- The largest free block of a heap has room for a request when some free block on its walk
has. -/
theorem Heap.le_largestFree_iff {σ : Type} [Source σ] {last : Nat} {heap : Heap σ last}
    {blocks : List Block} {usage : Usage} (walked : heap.arena.walk = .ok blocks)
    (measured : heap.usage = .ok usage) {request : Nat} (seeks : 0 < request) :
    request ≤ usage.largestFree ↔
      ∃ block ∈ blocks, block.tag.allocated = false ∧ request + 8 ≤ block.tag.size := by
  obtain ⟨_, again, folded⟩ := Fault.bind_eq_ok_iff.mp measured
  obtain rfl := Except.ok.inj (walked.symm.trans again)
  have begins : ¬ request ≤ (Usage.begin heap.size heap.arena.growths).largestFree :=
    Nat.not_le_of_lt seeks
  rw [Usage.le_largestFree_foldlM_iff folded, or_iff_right begins]

end SegregatedFit
