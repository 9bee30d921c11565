/-
This file describes how an arena begins and grows. Growth adds bytes at the end and rewrites
the tags there; the words in front of the old epilogue are read as before.
-/

import SegregatedFit.Arena.Growth
import SegregatedFit.Arena.Layout
import SegregatedFit.Proofs.Arena.Tags

namespace SegregatedFit

namespace Arena

variable {σ : Type} [Source σ] {first second third before after : Arena σ}
variable {touched wider : Nat → Prop}

/-- Whether the bytes of an arena stay, except at some offsets. The arena may have grown. -/
def Keeps (touched : Nat → Prop) (before after : Arena σ) : Prop :=
  ∀ index, ¬ touched index → Source.byte after.source index = Source.byte before.source index

theorem Alters.keeps (alters : Alters touched before after) : Keeps touched before after :=
  alters.byte

theorem Keeps.trans (one : Keeps touched first second) (other : Keeps touched second third) :
    Keeps touched first third :=
  fun index kept => (other index kept).trans (one index kept)

theorem Keeps.mono (keeps : Keeps touched before after)
    (widens : ∀ index, touched index → wider index) : Keeps wider before after :=
  fun index kept => keeps index fun hit => kept (widens index hit)

/-- A word of the old arena is read as before when none of its bytes is touched. -/
theorem Keeps.word? (keeps : Keeps touched before after) (grows : before.size ≤ after.size)
    {offset : Nat} (inside : offset + 8 ≤ before.size)
    (clear : ∀ index, offset ≤ index → index < offset + 8 → ¬ touched index) :
    after.word? offset = before.word? offset := by
  have same : Source.load after.source offset wordSize =
      Source.load before.source offset wordSize :=
    Source.load_congr _ _ _ _ fun index low high => keeps index (clear index low high)
  simp only [Arena.word?, same, wordSize]
  rw [if_pos (by omega), if_pos inside]

/-! ### Growth -/

/-- What an arena becomes by growth. -/
structure Grown (count : Nat) (prevAllocated : Bool) (before after : Arena σ) : Prop where
  size : after.size = before.size + count
  growths : after.growths = before.growths + 1
  allows : Source.allows after.source = Source.allows before.source
  capacity : Source.capacity after.source = Source.capacity before.source
  keeps : Keeps (fun index => before.size ≤ index + 8 ∧ index < before.size + count) before after
  shows : after.Shows ⟨before.size, Tag.ofParts count false prevAllocated⟩
  epilogue : after.header? (before.size + count) = some Tag.epilogue

/-- The break moves when the source allows it, and all bytes stay. -/
theorem yields_moveBreak {count : Nat}
    (room : Source.allows before.source before.size count) :
    Action.Yields before (moveBreak count) fun answer after =>
      answer = .ok before.size ∧ after.size = before.size + count ∧
        after.growths = before.growths ∧
        Source.allows after.source = Source.allows before.source ∧
        Source.capacity after.source = Source.capacity before.source ∧
        Keeps (fun _ => False) before after := by
  obtain ⟨source, growths⟩ := before
  have request : Source.request source count =
      (.ok (Source.size source), Source.advance source count room) := Source.request_eq_ok room
  refine ⟨_, ⟨Source.advance source count room, growths⟩, ?_, rfl, Source.size_advance _ _ _, rfl,
    Source.allows_advance _ _ _, Source.capacity_advance _ _ _,
    fun index _ => Source.byte_advance _ _ _ index⟩
  simp only [moveBreak, request]
  rfl

/-- The break stays when the source does not allow it to move. -/
theorem moveBreak_of_refused {count : Nat}
    (refused : Source.allows before.source before.size count = false) :
    moveBreak count before = .ok (.error (.outOfMemory count before.remaining)) before := by
  obtain ⟨source, growths⟩ := before
  have request : Source.request source count =
      (.error (.outOfMemory count (Source.remaining source)), source) :=
    Source.request_eq_error refused
  simp only [moveBreak, request]
  rfl

omit [Source σ] in
/-- A growth is counted while the count is a word. -/
theorem countGrowth_eq_ok (countable : before.growths + 1 < wordLimit) :
    countGrowth before = .ok () ⟨before.source, before.growths + 1⟩ := by
  obtain ⟨source, growths⟩ := before
  have counted : Word.add growths 1 = .ok (growths + 1) :=
    Word.add_eq_ok_iff.mpr ⟨countable, rfl⟩
  simp only [countGrowth, counted]

/-- The bytes behind a block become one free block and a new epilogue. -/
theorem yields_formatGrowth {block count : Nat} {tag : Tag}
    (found : before.header? block = some tag) (inside : block + count = before.size)
    (large : 32 ≤ count) (whole : count % 8 = 0) (countable : before.growths + 1 < wordLimit) :
    Action.Yields before (formatGrowth block count) fun _ after =>
      after.size = before.size ∧ after.growths = before.growths + 1 ∧
        Source.allows after.source = Source.allows before.source ∧
        Source.capacity after.source = Source.capacity before.source ∧
        Keeps (fun index => block ≤ index + 8 ∧ index < block + count) before after ∧
        after.Shows ⟨block, Tag.ofParts count false tag.prevAllocated⟩ ∧
        after.header? (block + count) = some Tag.epilogue := by
  have bound := before.size_lt
  have above := (le_size_of_header? found).1
  have size_eq := Tag.size_ofParts whole false tag.prevAllocated
  unfold formatGrowth
  refine Action.yields_bind_inspect (header_eq_ok_iff.mpr found) ?_
  refine (yields_setFreeTags tag.prevAllocated above (Nat.le_of_eq inside) large whole).bind ?_
  rintro _ one ⟨oneAlters, shown⟩
  refine Action.yields_bind_lift (Word.add_eq_ok_iff.mpr ⟨by omega, rfl⟩) ?_
  refine (yields_setHeader Tag.epilogue (by omega) (by rw [oneAlters.size]; omega)
    (by decide)).bind ?_
  rintro _ two ⟨twoAlters, epilogue⟩
  have shown : two.Shows ⟨block, Tag.ofParts count false tag.prevAllocated⟩ := by
    refine twoAlters.shows shown (fun index low high hit => ?_) fun _ index low high hit => ?_
    · have high : index < block := high
      omega
    · simp only [Block.next, size_eq] at low high
      omega
  have growths : two.growths = before.growths := twoAlters.growths.trans oneAlters.growths
  refine ⟨(), _, countGrowth_eq_ok (growths ▸ countable), twoAlters.size.trans oneAlters.size,
    congrArg (· + 1) growths,
    twoAlters.allows.trans oneAlters.allows, twoAlters.capacity.trans oneAlters.capacity, ?_,
    ⟨shown.header, shown.footer⟩, epilogue⟩
  refine (oneAlters.keeps.mono fun index hit => ?_).trans (twoAlters.keeps.mono fun index hit => ?_)
  · omega
  · omega

/-- An arena grows by one free block when the source allows it. -/
theorem yields_grow {count : Nat} {tag : Tag} (found : before.header? before.size = some tag)
    (room : Source.allows before.source before.size count) (large : 32 ≤ count)
    (whole : count % 8 = 0) (countable : before.growths + 1 < wordLimit) :
    Action.Yields before (grow count) fun answer after =>
      answer = .ok before.size ∧ Grown count tag.prevAllocated before after := by
  unfold grow
  refine (yields_moveBreak room).bind ?_
  rintro _ between ⟨rfl, size, growths, allows, capacity, keeps⟩
  have header : between.header? before.size = some tag := by
    obtain ⟨above, word, read, rfl⟩ := header?_eq_some_iff.mp found
    refine header?_eq_some_iff.mpr ⟨above, word, ?_, rfl⟩
    rw [← read]
    exact keeps.word? (by omega) (word?_eq_some_iff.mp read).1 fun _ _ _ => id
  refine (yields_formatGrowth header size.symm large whole (growths ▸ countable)).bind ?_
  rintro _ after ⟨size', growths', allows', capacity', keeps', shows, epilogue⟩
  refine Action.yields_pure ⟨rfl, size'.trans size, growths'.trans (congrArg (· + 1) growths),
    allows'.trans allows, capacity'.trans capacity, ?_, shows, epilogue⟩
  exact (keeps.mono fun _ none => none.elim).trans keeps'

/-- A refused growth changes nothing. -/
theorem grow_of_refused {count : Nat}
    (refused : Source.allows before.source before.size count = false) :
    grow count before = .ok (.error (.outOfMemory count before.remaining)) before := by
  unfold grow
  exact Action.bind_eq_ok_iff.mpr ⟨_, _, moveBreak_of_refused refused, rfl⟩

/-! ### The begin -/

/-- A fresh arena holds its sentinels. -/
theorem exists_init {source : σ} (empty : Source.size source = 0)
    (room : Source.allows source 0 32) :
    ∃ arena, init source = .ok arena ∧ arena.size = 32 ∧ arena.growths = 0 ∧
      Source.allows arena.source = Source.allows source ∧
      Source.capacity arena.source = Source.capacity source ∧ arena.PrologueIntact ∧
      arena.header? 32 = some (Tag.ofParts 0 true true) := by
  have enough : Source.allows source (Source.size source) 32 := by rwa [empty]
  have request : Source.request source sentinelsSize =
      (.ok (Source.size source), Source.advance source 32 enough) := Source.request_eq_ok enough
  obtain ⟨blank, blank_eq⟩ : ∃ blank : Arena σ, blank = ⟨Source.advance source 32 enough, 0⟩ :=
    ⟨_, rfl⟩
  have size : blank.size = 32 := by
    rw [blank_eq]
    exact (Source.size_advance _ _ _).trans (by rw [empty])
  have small : ∀ tag : Tag, tag.size ≤ 16 → tag.word < wordLimit := fun tag bound =>
    Tag.word_lt_wordLimit (Nat.lt_of_le_of_lt bound (by decide))
  have alters : Alters (fun _ => True) blank
      ((((blank.withWord 0 0).withWord 8 Tag.prologue.word).withWord 16 Tag.prologue.word).withWord
        24 (Tag.epilogue.withPrevAllocated true).word) :=
    ((((alters_withWord _ _ _).mono fun _ _ => trivial).trans
      ((alters_withWord _ _ _).mono fun _ _ => trivial)).trans
      ((alters_withWord _ _ _).mono fun _ _ => trivial)).trans
      ((alters_withWord _ _ _).mono fun _ _ => trivial)
  refine ⟨_, ?_, alters.size.trans size, ?_, ?_, ?_,
    ⟨Tag.prologue.word, Tag.prologue.word, ?_, ?_, ?_, ?_⟩, ?_⟩
  · rw [init, if_pos empty, request, blank_eq]
    rfl
  · rw [blank_eq]
    rfl
  · rw [alters.allows, blank_eq]
    exact Source.allows_advance _ _ _
  · rw [alters.capacity, blank_eq]
    exact Source.capacity_advance _ _ _
  · rw [word?_withWord_of_apart _ (by omega), word?_withWord_of_apart _ (by omega)]
    refine word?_withWord_self ?_ (small _ (Nat.le_refl _))
    rw [size_withWord, size]
    omega
  · rw [word?_withWord_of_apart _ (by omega)]
    refine word?_withWord_self ?_ (small _ (Nat.le_refl _))
    rw [size_withWord, size_withWord, size]
    omega
  · rw [Tag.ofWord_word]
    rfl
  · rw [Tag.ofWord_word]
    rfl
  · refine header?_withWord_self (by omega) ?_ (small _ (Nat.zero_le _))
    simp only [size_withWord, size, Nat.le_refl]

theorem init_of_refused {source : σ} (empty : Source.size source = 0)
    (refused : Source.allows source 0 32 = false) :
    init source = .error (.outOfMemory 32 (Source.capacity source)) := by
  have request : Source.request source sentinelsSize =
      (.error (.outOfMemory 32 (Source.remaining source)), source) :=
    Source.request_eq_error (empty ▸ refused)
  rw [init, if_pos empty, request, Source.remaining, empty]
  rfl

theorem init_of_used {source : σ} (used : Source.size source ≠ 0) :
    init source = .error .invalidArgument :=
  if_neg used

end Arena

end SegregatedFit
