/-
This file proves that boundary tags are read as they were written, and that nothing else changes.
The tags of a free block lead from the block to its follower and back, because header and footer
tell the same size; and of a header that learns about the block in front, one bit changes.
-/

import SegregatedFit.Proofs.Arena.Tags
import SegregatedFit.Proofs.Source.Mirror
import SegregatedFit.Source.Buffer

namespace SegregatedFit

namespace Tag

/-- The second bit of a word tells about the block in front, and the other bits do not. -/
theorem word_parts (tag : Tag) : tag.word / 2 % 2 = tag.prevAllocated.toNat ∧
    tag.word % 2 = tag.allocated.toNat ∧ tag.word / 2 / 2 = tag.size / 4 + tag.spare.toNat := by
  have whole := tag.size_mod
  have prevAllocated := tag.prevAllocated.toNat_lt
  have allocated := tag.allocated.toNat_lt
  unfold word
  omega

/-- Only the second bit of a word changes when a tag learns about the block in front. -/
theorem testBit_word_withPrevAllocated (tag : Tag) (flag : Bool) (position : Nat) :
    (tag.withPrevAllocated flag).word.testBit position =
      if position = 1 then flag else tag.word.testBit position := by
  obtain ⟨second, first, others⟩ := (tag.withPrevAllocated flag).word_parts
  obtain ⟨_, sameFirst, sameOthers⟩ := tag.word_parts
  match position with
  | 0 =>
    rw [if_neg (by decide), Nat.testBit_zero, Nat.testBit_zero, first, sameFirst]
    rfl
  | 1 =>
    rw [if_pos rfl, Nat.testBit_succ, Nat.testBit_zero, second]
    cases flag <;> rfl
  | position + 2 =>
    rw [if_neg (by omega), Nat.testBit_succ, Nat.testBit_succ, Nat.testBit_succ, Nat.testBit_succ,
      others, sameOthers]
    rfl

end Tag

namespace Arena

variable {σ : Type} [Source σ] {arena : Arena σ} {block size : Nat} {prevAllocated : Bool}

/-- The bytes of the word at an offset. -/
def WordBytes (offset index : Nat) : Prop :=
  offset ≤ index ∧ index < offset + 8

/-- Whether an arena shows a free block by its header and its footer, and the steps between the
block and its follower lead there and back. -/
structure HasFreeTags (arena : Arena σ) (block size : Nat) (prevAllocated : Bool) : Prop where
  header : ∃ tag, arena.header block = .ok tag ∧ tag.size = size ∧ tag.allocated = false ∧
    tag.prevAllocated = prevAllocated
  footer : ∃ tag, arena.footer block = .ok tag ∧ tag.size = size ∧ tag.allocated = false
  follower : arena.nextBlock block = .ok (block + size)
  predecessor : arena.previousBlock (block + size) = .ok block

/-- An arena that shows a free block has the tags of that block. -/
theorem Shows.hasFreeTags
    (shows : arena.Shows ⟨block, Tag.ofParts size false prevAllocated⟩) (whole : size % 8 = 0)
    (large : 32 ≤ size) (inside : block + size ≤ arena.size) :
    arena.HasFreeTags block size prevAllocated := by
  have bound := arena.size_lt
  have size_eq (flag : Bool) := Tag.size_ofParts whole false flag
  have header := shows.header
  have footer : arena.word? (block + size - 16) = some (Tag.ofParts size false false).word := by
    simpa only [Block.next, size_eq, Tag.withPrevAllocated_ofParts] using shows.footer rfl
  have sized : block + (Tag.ofParts size false prevAllocated).size = block + size := by
    rw [size_eq]
  refine ⟨⟨_, header_eq_ok_iff.mpr header, size_eq _, rfl, rfl⟩,
    ⟨Tag.ofParts size false false, ?_, size_eq _, rfl⟩, ?_, ?_⟩
  · rw [← Tag.ofWord_word (Tag.ofParts size false false)]
    refine footer_eq_ok header ?_ ?_ (sized ▸ footer)
    · rw [sized]
      omega
    · rw [sized]
      omega
  · rw [← sized]
    exact nextBlock_eq_ok header (by rw [sized]; omega)
  · rw [previousBlock_eq_ok footer (by omega) (by rw [size_eq]; omega), size_eq,
      Nat.add_sub_cancel]

/-- What becomes of an arena when a header learns about the block in front: of one word one bit. -/
structure Flagged (block : Nat) (flag : Bool) (before after : Arena σ) : Prop where
  alters : Alters (WordBytes (block - 8)) before after
  bits : ∃ word value, before.word? (block - 8) = some word ∧
    after.word? (block - 8) = some value ∧
    ∀ position, value.testBit position = if position = 1 then flag else word.testBit position
  tags : ∃ old tag, before.header block = .ok old ∧ after.header block = .ok tag ∧
    tag.size = old.size ∧ tag.allocated = old.allocated ∧ tag.prevAllocated = flag

/-- The word of a header stays a word when its tag learns about the block in front. -/
theorem word_withPrevAllocated_lt {tag : Tag} (found : arena.header? block = some tag)
    (flag : Bool) : (tag.withPrevAllocated flag).word < wordLimit :=
  Tag.word_lt_wordLimit (show tag.size < wordLimit from size_lt_of_header? found)

/-- Telling a block about the block in front rewrites its header. -/
theorem setPrevAllocated_eq_ok {tag : Tag} (found : arena.header? block = some tag)
    (flag : Bool) : setPrevAllocated block flag arena =
      .ok () (arena.withWord (block - 8) (tag.withPrevAllocated flag).word) := by
  obtain ⟨above, inside⟩ := le_size_of_header? found
  exact Action.bind_eq_ok_iff.mpr ⟨tag, arena,
    Action.inspect_eq_ok_iff.mpr ⟨header_eq_ok_iff.mpr found, rfl⟩,
    setHeader_eq_ok_iff.mpr ⟨above, inside, rfl⟩⟩

theorem flagged_withWord {tag : Tag} (found : arena.header? block = some tag) (flag : Bool) :
    Flagged block flag arena (arena.withWord (block - 8) (tag.withPrevAllocated flag).word) := by
  obtain ⟨above, inside⟩ := le_size_of_header? found
  obtain ⟨_, word, read, decoded⟩ := header?_eq_some_iff.mp found
  have small := word_withPrevAllocated_lt found flag
  have written := header?_withWord_self above inside small
  refine ⟨alters_withWord _ _ _, ⟨word, _, read, word?_withWord_self (by omega) small, ?_⟩,
    ⟨tag, _, header_eq_ok_iff.mpr found, header_eq_ok_iff.mpr written, rfl, rfl, rfl⟩⟩
  rw [← Tag.word_ofWord word, decoded]
  exact tag.testBit_word_withPrevAllocated flag

/-- Of two words that are written to the same place, the second one stays. -/
theorem alike_withWord_withWord {offset first second : Nat} (inside : offset + 8 ≤ arena.size) :
    Alike ((arena.withWord offset first).withWord offset second)
      (arena.withWord offset second) := by
  have written (arena : Arena σ) (inside : offset + 8 ≤ arena.size) :
      Source.load (arena.withWord offset second).source offset 8 = second % byteLimit 8 :=
    Source.load_store _ _ _ _ inside
  refine ⟨⟨?_, ?_, ?_, fun index => ?_⟩, rfl⟩
  · simp only [withWord, Source.size_store]
  · simp only [withWord, Source.capacity_store]
  · simp only [withWord, Source.allows_store]
  · by_cases within : offset ≤ index ∧ index < offset + 8
    · refine Source.byte_eq_of_load_eq ?_ index within.1 within.2
      rw [written _ (by rwa [size_withWord]), written _ inside]
    · simp only [withWord, wordSize]
      rw [Source.byte_store_of_outside _ _ _ _ _ (by omega),
        Source.byte_store_of_outside _ _ _ _ _ (by omega),
        Source.byte_store_of_outside _ _ _ _ _ (by omega)]

/-- Tags are decoded as they were encoded. A block of an arena that gets the tags of a free block
has a header and a footer that tell so, from which the steps lead to the follower and back, and no
other words change. A header of any kind that learns whether the block in front is allocated
changes in this one bit, and no bytes outside of it change at all; of two such changes the second
one counts, so a change that is repeated has no effect. -/
theorem tags_decode_as_encoded {σ : Type} [Source σ] (arena : Arena σ) (block : Nat) :
    (∀ size prevAllocated, 32 ≤ block → block % 16 = 0 → 32 ≤ size → size % 16 = 0 →
      block + size ≤ arena.size → ∃ after,
        setFreeTags block size prevAllocated arena = .ok () after ∧
          after.HasFreeTags block size prevAllocated ∧
          Alters (fun index => WordBytes (block - 8) index ∨ WordBytes (block + size - 16) index)
            arena after) ∧
    ∀ word, 8 ≤ block → arena.word? (block - 8) = some word → ∀ flag, ∃ after,
      setPrevAllocated block flag arena = .ok () after ∧ Flagged block flag arena after ∧
        ∀ other, ∃ later direct, setPrevAllocated block other after = .ok () later ∧
          setPrevAllocated block other arena = .ok () direct ∧ later.Alike direct := by
  constructor
  · intro size prevAllocated above _ large whole inside
    obtain ⟨_, after, tagged, alters, shows⟩ :=
      yields_setFreeTags prevAllocated (show 8 ≤ block by omega) inside large
        (show size % 8 = 0 by omega)
    refine ⟨after, tagged, shows.hasFreeTags (by omega) large (alters.size ▸ inside),
      alters.mono fun index hit => ?_⟩
    unfold WordBytes
    omega
  · intro word above read flag
    have found := header?_eq_some_iff.mpr ⟨above, word, read, rfl⟩
    have inside := (word?_eq_some_iff.mp read).1
    have again := header?_withWord_self above (show block ≤ arena.size by omega)
      (word_withPrevAllocated_lt found flag)
    exact ⟨_, setPrevAllocated_eq_ok found flag, flagged_withWord found flag, fun other =>
      ⟨_, _, setPrevAllocated_eq_ok again other, setPrevAllocated_eq_ok found other,
        alike_withWord_withWord inside⟩⟩

/-- In an arena of 96 bytes, a free block takes the range from 32 on, and a header of all ones loses
one bit and no other. -/
theorem tags_decode_as_encoded_ones :
    ∃ arena : Arena Buffer, arena.size = 96 ∧ arena.word? 24 = some (wordLimit - 1) ∧
      (∃ tagged, setFreeTags 32 64 true arena = .ok () tagged ∧ tagged.HasFreeTags 32 64 true) ∧
      ∃ after, setPrevAllocated 32 false arena = .ok () after ∧ Flagged 32 false arena after := by
  obtain ⟨blank, size⟩ : ∃ blank : Arena Buffer, blank.size = 96 :=
    ⟨⟨(Source.request (Buffer.ofMaximum 512) 96).2, 0⟩, rfl⟩
  have ones : (blank.withWord 24 (wordLimit - 1)).word? 24 = some (wordLimit - 1) :=
    word?_withWord_self (by omega) (by decide)
  obtain ⟨encodes, flags⟩ := tags_decode_as_encoded (blank.withWord 24 (wordLimit - 1)) 32
  have sized : (blank.withWord 24 (wordLimit - 1)).size = 96 := by rw [size_withWord, size]
  obtain ⟨tagged, encoded, tags, _⟩ := encodes 64 true (by decide) (by decide) (by decide)
    (by decide) (Nat.le_of_eq sized.symm)
  obtain ⟨after, told, flagged, _⟩ := flags (wordLimit - 1) (by decide) ones false
  exact ⟨_, sized, ones, ⟨tagged, encoded, tags⟩, after, told, flagged⟩

end Arena

end SegregatedFit
