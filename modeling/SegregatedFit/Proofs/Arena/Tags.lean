/-
This file describes what the actions on boundary tags do to an arena: which bytes they touch,
and which tags can be read afterwards. An arena shows a block when the header of the block
can be read, and for a free block the footer too.
-/

import SegregatedFit.Arena.Walk
import SegregatedFit.Proofs.Arena.Alteration
import SegregatedFit.Proofs.Outcome

namespace SegregatedFit

namespace Tag

theorem rounded_mod (size : Nat) : size / 8 * 8 % 8 = 0 := Nat.mul_mod_left _ _

/-- The tag of a block of `size` bytes, which have to be a multiple of eight. -/
def ofParts (size : Nat) (allocated prevAllocated : Bool) : Tag where
  size := size / 8 * 8
  size_mod := rounded_mod size
  allocated
  prevAllocated

theorem size_ofParts {size : Nat} (whole : size % 8 = 0) (allocated prevAllocated : Bool) :
    (ofParts size allocated prevAllocated).size = size := by
  simp only [ofParts]
  omega

theorem pack_eq_ok {size : Nat} (whole : size % 8 = 0) (allocated : Bool) :
    pack size allocated = .ok (ofParts size allocated false) := by
  have rounded : size / 8 * 8 = size := by omega
  simp only [pack, dif_pos whole, ofParts, rounded]

theorem withPrevAllocated_ofParts (size : Nat) (allocated first second : Bool) :
    (ofParts size allocated first).withPrevAllocated second = ofParts size allocated second :=
  rfl

theorem epilogue_eq_ofParts : epilogue = ofParts 0 true false := rfl

/-- The word of a tag is a word of memory when its size is one. -/
theorem word_lt_wordLimit {tag : Tag} (small : tag.size < wordLimit) : tag.word < wordLimit := by
  have bound := tag.word_lt
  have whole := tag.size_mod
  simp only [wordLimit] at *
  omega

theorem size_le_word (tag : Tag) : tag.size ≤ tag.word := by
  unfold Tag.word
  omega

end Tag

namespace Arena

variable {σ : Type} [Source σ]

/-- Whether an arena has a block: its header, and its footer while it is free. -/
structure Shows (arena : Arena σ) (block : Block) : Prop where
  header : arena.header? block.offset = some block.tag
  footer : block.tag.allocated = false →
    arena.word? (block.next - 16) = some (block.tag.withPrevAllocated false).word

theorem Alters.shows {touched : Nat → Prop} {before after : Arena σ} {block : Block}
    (alters : Alters touched before after) (shown : before.Shows block)
    (header : ∀ index, block.offset ≤ index + 8 → index < block.offset → ¬ touched index)
    (footer : block.tag.allocated = false →
      ∀ index, block.next - 16 ≤ index → index < block.next - 16 + 8 → ¬ touched index) :
    after.Shows block where
  header := (alters.header? header).trans shown.header
  footer free := (alters.word? (footer free)).trans (shown.footer free)

theorem size_lt_of_header? {arena : Arena σ} {block : Nat} {tag : Tag}
    (found : arena.header? block = some tag) : tag.size < wordLimit := by
  obtain ⟨_, word, read, rfl⟩ := header?_eq_some_iff.mp found
  have small := word_lt read
  have above := (Tag.ofWord word).size_le_word
  rw [Tag.word_ofWord] at above
  omega

theorem nextBlock_eq_ok {arena : Arena σ} {block : Nat} {tag : Tag}
    (found : arena.header? block = some tag) (small : block + tag.size < wordLimit) :
    arena.nextBlock block = .ok (block + tag.size) := by
  simp only [nextBlock, header_eq_ok_iff.mpr found, bind, Except.bind]
  exact Word.add_eq_ok_iff.mpr ⟨small, rfl⟩

theorem footerOffset_eq_ok {arena : Arena σ} {block : Nat} {tag : Tag}
    (found : arena.header? block = some tag) (above : 16 ≤ block + tag.size)
    (small : block + tag.size < wordLimit) :
    arena.footerOffset block = .ok (block + tag.size - 16) :=
  Fault.bind_eq_ok_iff.mpr
    ⟨_, nextBlock_eq_ok found small, Word.sub_eq_ok_iff.mpr ⟨above, rfl⟩⟩

/-- The footer of a block is read where the block ends. -/
theorem footer_eq_ok {arena : Arena σ} {block word : Nat} {tag : Tag}
    (found : arena.header? block = some tag) (above : 16 ≤ block + tag.size)
    (small : block + tag.size < wordLimit)
    (read : arena.word? (block + tag.size - 16) = some word) :
    arena.footer block = .ok (Tag.ofWord word) :=
  Fault.bind_eq_ok_iff.mpr ⟨_, footerOffset_eq_ok found above small,
    Fault.bind_eq_ok_iff.mpr ⟨_, word_eq_ok_iff.mpr read, rfl⟩⟩

theorem previousBlock_eq_ok {arena : Arena σ} {block : Nat} {tag : Tag}
    (found : arena.word? (block - 16) = some tag.word) (above : 16 ≤ block)
    (inside : tag.size ≤ block) : arena.previousBlock block = .ok (block - tag.size) := by
  have place : Word.sub block (headerSize + wordSize) = .ok (block - 16) :=
    Word.sub_eq_ok_iff.mpr ⟨above, rfl⟩
  simp only [previousBlock, place, word_eq_ok_iff.mpr found, bind, Except.bind, Tag.ofWord_word]
  exact Word.sub_eq_ok_iff.mpr ⟨inside, rfl⟩

/-! ### Writing -/

variable {before : Arena σ} {block size : Nat}

theorem yields_setWord {condition : Unit → Arena σ → Prop} {offset value : Nat}
    (inside : offset + 8 ≤ before.size)
    (holds : condition () (before.withWord offset value)) :
    Action.Yields before (setWord offset value) condition :=
  ⟨(), _, setWord_eq_ok_iff.mpr ⟨inside, rfl⟩, holds⟩

/-- Writing a header touches it alone, and it can be read afterwards. -/
theorem yields_setHeader (tag : Tag) (above : 8 ≤ block) (inside : block ≤ before.size)
    (small : tag.size < wordLimit) :
    Action.Yields before (setHeader block tag) fun _ after =>
      Alters (fun index => block ≤ index + 8 ∧ index < block) before after ∧
        after.header? block = some tag := by
  refine ⟨(), _, setHeader_eq_ok_iff.mpr ⟨above, inside, rfl⟩, ?_, ?_⟩
  · refine (alters_withWord before (block - 8) tag.word).mono fun index hit => ?_
    omega
  · exact header?_withWord_self above inside (Tag.word_lt_wordLimit small)

theorem yields_setAllocatedTag (prevAllocated : Bool) (above : 8 ≤ block)
    (inside : block ≤ before.size) (small : size < wordLimit) (whole : size % 8 = 0) :
    Action.Yields before (setAllocatedTag block size prevAllocated) fun _ after =>
      Alters (fun index => block ≤ index + 8 ∧ index < block) before after ∧
        after.header? block = some (Tag.ofParts size true prevAllocated) := by
  unfold setAllocatedTag
  refine Action.yields_bind_lift (Tag.pack_eq_ok whole true) ?_
  rw [Tag.withPrevAllocated_ofParts]
  exact yields_setHeader _ above inside (by rwa [Tag.size_ofParts whole])

/-- The tags of a free block are its first and its last word, and both can be read
afterwards. -/
theorem yields_setFreeTags (prevAllocated : Bool) (above : 8 ≤ block)
    (inside : block + size ≤ before.size) (large : 32 ≤ size) (whole : size % 8 = 0) :
    Action.Yields before (setFreeTags block size prevAllocated) fun _ after =>
      Alters (fun index => block ≤ index + 8 ∧ index < block ∨
        block + size ≤ index + 16 ∧ index + 8 < block + size) before after ∧
        after.Shows ⟨block, Tag.ofParts size false prevAllocated⟩ := by
  have bound := before.size_lt
  have small : size < wordLimit := by omega
  have size_eq := Tag.size_ofParts whole false prevAllocated
  unfold setFreeTags
  refine Action.yields_bind_lift (Tag.pack_eq_ok whole false) ?_
  rw [Tag.withPrevAllocated_ofParts]
  refine (yields_setHeader (Tag.ofParts size false prevAllocated) above (by omega)
    (by rwa [size_eq])).bind ?_
  rintro _ headed ⟨headerAlters, header⟩
  have sameSize := headerAlters.size
  have place := footerOffset_eq_ok header (by rw [size_eq]; omega) (by rw [size_eq]; omega)
  rw [size_eq] at place
  refine Action.yields_bind_inspect place ?_
  refine yields_setWord (by omega) ⟨?_, ?_, ?_⟩
  · refine (headerAlters.mono fun index hit => ?_).trans
      ((alters_withWord headed _ _).mono fun index hit => ?_)
    · exact Or.inl hit
    · exact Or.inr (by omega)
  · show (headed.withWord _ _).header? block = _
    rw [header?_withWord_of_apart _ (by omega)]
    exact header
  · intro _
    simp only [Block.next, size_eq, Tag.withPrevAllocated_ofParts]
    refine word?_withWord_self (by omega) (Tag.word_lt_wordLimit ?_)
    rwa [Tag.size_ofParts whole]

/-- Only the flag for the block in front changes in a header. -/
theorem yields_setPrevAllocated {tag : Tag} (prevAllocated : Bool)
    (found : before.header? block = some tag) :
    Action.Yields before (setPrevAllocated block prevAllocated) fun _ after =>
      Alters (fun index => block ≤ index + 8 ∧ index < block) before after ∧
        after.header? block = some (tag.withPrevAllocated prevAllocated) := by
  obtain ⟨above, inside⟩ := le_size_of_header? found
  have small := size_lt_of_header? found
  unfold setPrevAllocated
  refine Action.yields_bind_inspect (header_eq_ok_iff.mpr found) ?_
  exact yields_setHeader (tag.withPrevAllocated prevAllocated) above inside small

theorem yields_setNextPrevAllocated {tag nextTag : Tag} (allocated : Bool)
    (found : before.header? block = some tag)
    (next : before.header? (block + tag.size) = some nextTag) :
    Action.Yields before (setNextPrevAllocated block allocated) fun _ after =>
      Alters (fun index => block + tag.size ≤ index + 8 ∧ index < block + tag.size)
        before after ∧
        after.header? (block + tag.size) = some (nextTag.withPrevAllocated allocated) := by
  have bound := before.size_lt
  have inside := (le_size_of_header? next).2
  unfold setNextPrevAllocated
  refine Action.yields_bind_inspect (nextBlock_eq_ok found (by omega)) ?_
  exact yields_setPrevAllocated allocated next

end Arena

end SegregatedFit
