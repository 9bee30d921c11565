/-
This file proves that a heap grows as its chart does. The new bytes become a free cell at the
end, which joins the free cell in front of it if there is one. A refusal of the source changes
nothing at all.
-/

import SegregatedFit.Proofs.Arena.Growth
import SegregatedFit.Proofs.Heap.Describes

namespace SegregatedFit

namespace Heap

variable {σ : Type} [Source σ] {last : Nat} {before : Heap σ last} {setting : Setting}
variable {cells order : List Cell} {count : Nat}

/-- The epilogue of a closed heap knows whether the last cell is allocated. -/
theorem Closed.header_epilogue (closed : before.Closed setting cells order) :
    before.arena.header? setting.size =
      some ((Cell.epilogue setting.size).tag (Cell.lastAllocated true cells)) := by
  have shown := closed.backShown
    ⟨setting.size, (Cell.epilogue setting.size).tag (Cell.lastAllocated true cells)⟩ (by
      rw [Cell.blocks_append]
      exact List.mem_append_right _ List.mem_cons_self)
  exact shown.header

/-- A cell is shown again when the words up to its end stay as they were. -/
theorem Closed.shows_of_words (closed : before.Closed setting cells order) {arena : Arena σ}
    (words : ∀ offset, offset + 16 ≤ setting.size → arena.word? offset = before.arena.word? offset)
    {cell : Cell} {flag : Bool} (member : cell ∈ cells)
    (shown : before.arena.Shows ⟨cell.offset, cell.tag flag⟩) :
    arena.Shows ⟨cell.offset, cell.tag flag⟩ := by
  obtain ⟨_, ends, regular⟩ := closed.backTiles.bounds member
  have size := Cell.size_tag regular flag
  have large := regular.2
  unfold Cell.next at ends
  refine ⟨?_, fun free => ?_⟩
  · rw [← shown.header]
    unfold Arena.header?
    simp only [headerSize, wordSize]
    rw [words _ (by omega)]
  · rw [← shown.footer free]
    simp only [Block.next, size]
    exact words _ (by omega)

/-- Growth adds a free cell at the end, which is not in the index yet. -/
theorem Closed.yields_grow (closed : before.Closed setting cells order)
    (room : setting.allows setting.size count) (large : 32 ≤ count) (whole : count % 16 = 0)
    (growing : setting.Growing) :
    Heap.Yields before (onArena (Arena.grow count)) fun answer after =>
      answer = .ok setting.size ∧
        after.Closed (setting.grown count) (cells ++ [⟨setting.size, count, false⟩]) order ∧
        Arena.Keeps (fun index => setting.size ≤ index + 8 ∧ index < setting.size + count)
          before.arena after.arena := by
  have size_eq := Opened.size_eq closed
  have granted := (Opened.allows_eq closed count).trans room
  have header := closed.header_epilogue
  rw [← size_eq] at header
  have countable : before.arena.growths + 1 < wordLimit := by
    have growths_eq : before.arena.growths = setting.growths :=
      congrArg Setting.growths closed.known
    have counted := growing.counted
    have bound := before.arena.size_lt
    omega
  refine Opened.yields_onArena closed
    ((Arena.yields_grow header granted large (by omega) countable).mono ?_)
    (fun _ _ holds => ⟨holds.2.1.follows, Opened.hosts holds.2.1⟩)
    fun _ _ answered => ⟨_, Arena.develops_of_grow answered⟩
  rintro _ arena ⟨rfl, grown⟩
  have size_grown := grown.size
  have keeps := grown.keeps
  have new := grown.shows
  have epilogue := grown.epilogue
  rw [size_eq] at size_grown keeps new epilogue
  have tiles := closed.backTiles
  have words : ∀ offset, offset + 16 ≤ setting.size →
      arena.word? offset = before.arena.word? offset := fun offset inside =>
    keeps.word? (by omega) (by omega) fun index _ _ hit => by omega
  refine ⟨congrArg _ size_eq, ⟨?_, ?_, rfl, ?_, Nat.le_refl _, List.forall_mem_nil _, ?_, ?_,
    closed.distinct, closed.ascending, ?_⟩, keeps⟩
  · rw [← closed.known]
    simp only [Heap.setting, Setting.grown, grown.size, grown.growths, grown.allows, grown.capacity]
  · obtain ⟨header, footer, headerRead, footerRead, same⟩ := closed.prologue
    have start := tiles.le
    refine ⟨header, footer, ?_, ?_, same⟩
    · rwa [words _ (by omega)]
    · rwa [words _ (by omega)]
  · exact Cell.tiles_append.mpr ⟨_, tiles, rfl, ⟨whole, large⟩, rfl⟩
  · intro block member
    rw [Cell.blocks_append, Cell.blocks_append] at member
    rcases List.mem_append.mp member with inside | atEnd
    · rcases List.mem_append.mp inside with old | added
      · obtain ⟨cell, found, flag, rfl⟩ := Cell.exists_of_mem_blocks old
        refine closed.shows_of_words words found (closed.backShown _ ?_)
        rw [Cell.blocks_append]
        exact List.mem_append_left _ old
      · rw [List.mem_singleton.mp added]
        exact new
    · rw [List.mem_singleton.mp atEnd, Cell.lastAllocated_append]
      rw [Tag.epilogue_eq_ofParts] at epilogue
      exact ⟨epilogue, fun free => by cases free⟩
  · intro cell member
    obtain ⟨found, free⟩ := closed.free cell member
    exact ⟨List.mem_append_right _ (List.mem_append_left _ found), free⟩
  · have inside : ∀ cell ∈ order, cell.offset + 32 ≤ setting.size := by
      intro cell member
      obtain ⟨_, ends, _, large⟩ := tiles.bounds (closed.free cell member).1
      unfold Cell.next at ends
      omega
    refine closed.follows.congr (fun cell member => ?_) fun cell member => ?_
    · exact words _ (by have := inside cell member; omega)
    · exact words _ (by have := inside cell member; omega)

end Heap

namespace Chart

variable {σ : Type} [Source σ] {last : Nat} {chart : Chart} {before : Heap σ last}

/-- A heap grows as its chart does, and is refused as its chart is. -/
theorem Describes.yields_extend (describes : chart.Describes before) (size : Nat) :
    Heap.Yields before (Heap.extend size) fun answer after =>
      answer = (chart.extend size).1.map Cell.offset ∧ (chart.extend size).2.Describes after ∧
        ((chart.extend size).1.isOk = false → after = before) ∧
        ∀ range, (chart.extend size).1 = .ok range →
          Arena.Keeps (Arena.UpdateBytes range chart.order) before.arena after.arena := by
  unfold Heap.extend Chart.extend
  refine Heap.yields_bind_look ?_
  rw [describes.config_eq]
  cases found : alignUp? (max size chart.setting.config.chunkSize) with
  | none =>
    refine Heap.yields_bind_look (Heap.yields_pure ⟨?_, describes, fun _ => rfl, ?_⟩)
    · rw [describes.remaining_eq]
      rfl
    · rintro range ⟨⟩
  | some growth =>
    obtain ⟨_, whole, least, _⟩ := alignUp?_eq_some_iff.mp found
    have large := describes.growing.chunks
    by_cases room : chart.setting.allows chart.setting.size growth = true
    · simp only [if_pos room]
      refine (describes.closed.yields_grow room (by omega) whole describes.growing).bind ?_
      rintro _ between ⟨rfl, grown, keeps⟩
      have behind : Cell.Separated false [] := trivial
      have fresh : (⟨chart.setting.size, growth, false⟩ : Cell) ∉ chart.order := by
        intro member
        obtain ⟨_, ends, _, large⟩ :=
          describes.tiles.bounds (describes.closed.free _ member).1
        simp only [Cell.next] at ends large
        omega
      refine yields_free { chart with setting := chart.setting.grown growth }
        (List.append_nil chart.cells).symm grown rfl fresh (List.forall_mem_nil _)
        (by simpa using describes.indexed) describes.separated
        behind (describes.growing.grown (by omega)) ?_
      intro after described alters low high
      refine Heap.yields_pure ⟨rfl, described, (fun refused => by cases refused), ?_⟩
      rintro range ⟨rfl⟩
      have low : (chart.joined ⟨chart.setting.size, growth, false⟩).offset ≤ chart.setting.size :=
        low
      have high : chart.setting.size + growth ≤
          (chart.joined ⟨chart.setting.size, growth, false⟩).next := high
      exact (keeps.mono fun index hit => Or.inl (by omega)).trans alters.keeps
    · simp only [if_neg room]
      have denied := (describes.allows_eq growth).trans (eq_false_of_ne_true room)
      have refused : Heap.onArena (Arena.grow growth) before =
          .ok (.error (.outOfMemory growth before.arena.remaining)) before :=
        Heap.onArena_eq_ok_iff.mpr ⟨_, Arena.grow_of_refused denied, rfl⟩
      refine Heap.yields_bind_of_eq_ok refused ?_
      refine Heap.yields_pure ⟨?_, describes, fun _ => rfl, fun range found => by cases found⟩
      rw [describes.remaining_eq]
      rfl

end Chart

end SegregatedFit
