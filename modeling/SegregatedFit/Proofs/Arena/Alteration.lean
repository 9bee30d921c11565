/-
This file compares an arena with the arena after some writes. `Arena.Alters touched` says
that nothing changes but the bytes at the offsets `touched`; every word that keeps clear
of those offsets is then read as before. Writes are described in this way once, and whatever
relies on a part of the arena only has to show that the part keeps clear.
-/

import SegregatedFit.Arena.Block

namespace SegregatedFit

namespace Arena

variable {σ : Type} [Source σ]

/-- Whether one arena becomes another by changes to the bytes at some offsets. -/
structure Alters (touched : Nat → Prop) (before after : Arena σ) : Prop where
  size : after.size = before.size
  growths : after.growths = before.growths
  allows : Source.allows after.source = Source.allows before.source
  capacity : Source.capacity after.source = Source.capacity before.source
  byte : ∀ index, ¬ touched index →
    Source.byte after.source index = Source.byte before.source index

namespace Alters

variable {touched wider : Nat → Prop} {first second third : Arena σ}

theorem refl (touched : Nat → Prop) (arena : Arena σ) : Alters touched arena arena :=
  ⟨rfl, rfl, rfl, rfl, fun _ _ => rfl⟩

theorem trans (one : Alters touched first second) (other : Alters touched second third) :
    Alters touched first third where
  size := other.size.trans one.size
  growths := other.growths.trans one.growths
  allows := other.allows.trans one.allows
  capacity := other.capacity.trans one.capacity
  byte index kept := (other.byte index kept).trans (one.byte index kept)

theorem mono (alters : Alters touched first second)
    (widens : ∀ index, touched index → wider index) : Alters wider first second where
  size := alters.size
  growths := alters.growths
  allows := alters.allows
  capacity := alters.capacity
  byte index kept := alters.byte index fun hit => kept (widens index hit)

/-- A word is read as before when none of its bytes is touched. -/
theorem word? (alters : Alters touched first second) {offset : Nat}
    (clear : ∀ index, offset ≤ index → index < offset + 8 → ¬ touched index) :
    second.word? offset = first.word? offset := by
  have same : Source.load second.source offset wordSize =
      Source.load first.source offset wordSize :=
    Source.load_congr _ _ _ _ fun index low high => alters.byte index (clear index low high)
  simp only [Arena.word?, alters.size, same]

/-- A header is read as before when none of its bytes is touched. -/
theorem header? (alters : Alters touched first second) {block : Nat}
    (clear : ∀ index, block ≤ index + 8 → index < block → ¬ touched index) :
    second.header? block = first.header? block := by
  unfold Arena.header?
  split
  · rename_i above
    simp only [headerSize, wordSize] at above ⊢
    rw [alters.word? fun index low high => clear index (by omega) (by omega)]
  · rfl

end Alters

/-- Writing a word touches its eight bytes only. -/
theorem alters_withWord (arena : Arena σ) (offset value : Nat) :
    Alters (fun index => offset ≤ index ∧ index < offset + 8) arena
      (arena.withWord offset value) where
  size := size_withWord _ _ _
  growths := rfl
  allows := Source.allows_store _ _ _ _
  capacity := Source.capacity_store _ _ _ _
  byte index kept := Source.byte_store_of_outside _ _ _ _ _ (by
    simp only [wordSize]
    omega)

/-! ### Bytes of what is read alike -/

section

variable {first second : Arena σ} {offset index : Nat}

/-- A word that is read alike has the same bytes. -/
theorem byte_eq_of_word?_eq (same : first.word? offset = second.word? offset)
    (inside : offset + 8 ≤ first.size) (low : offset ≤ index) (high : index < offset + 8) :
    Source.byte first.source index = Source.byte second.source index := by
  have read := word?_eq_some_iff.mpr ⟨inside, rfl⟩
  obtain ⟨_, loaded⟩ := word?_eq_some_iff.mp (same.symm.trans read)
  exact Source.byte_eq_of_load_eq loaded.symm index low high

/-- Two words in a row that are read alike have the same bytes. -/
theorem byte_eq_of_words?_eq (one : first.word? offset = second.word? offset)
    (other : first.word? (offset + 8) = second.word? (offset + 8))
    (inside : offset + 16 ≤ first.size) (low : offset ≤ index) (high : index < offset + 16) :
    Source.byte first.source index = Source.byte second.source index := by
  by_cases early : index < offset + 8
  · exact byte_eq_of_word?_eq one (by omega) low early
  · exact byte_eq_of_word?_eq other (by omega) (by omega) (by omega)

/-- A header that is read alike has the same bytes. -/
theorem byte_eq_of_header_eq {tag : Tag} (one : first.header offset = .ok tag)
    (other : second.header offset = .ok tag) (low : offset ≤ index + 8) (high : index < offset) :
    Source.byte first.source index = Source.byte second.source index := by
  obtain ⟨above, word, read, rfl⟩ := header?_eq_some_iff.mp (header_eq_ok_iff.mp one)
  obtain ⟨_, again, reread, same⟩ := header?_eq_some_iff.mp (header_eq_ok_iff.mp other)
  have equal : again = word := by rw [← Tag.word_ofWord again, same, Tag.word_ofWord]
  have inside := (word?_eq_some_iff.mp read).1
  exact byte_eq_of_word?_eq (read.trans (equal ▸ reread).symm) inside (by omega) (by omega)

end

end Arena

end SegregatedFit
