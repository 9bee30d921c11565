/-
This file proves how large a heap is when its client gets it. The first growth is a growth like any
other, so it is never below the size of a chunk: the larger one of the two sizes in the settings
decides it, and the initial size alone does so only where it is not below the size of a chunk.
-/

import SegregatedFit.Proofs.Client.Layout
import SegregatedFit.Source.Buffer

namespace SegregatedFit

namespace Config

variable {config settings : Config}

/-- The number of bytes by which a heap with normalized settings grows at first: its initial size,
or the size of a chunk if that is larger. -/
def firstGrowth (settings : Config) : Nat :=
  max settings.initialSize settings.chunkSize

theorem le_firstGrowth (normalization : config.normalized? = some settings) :
    32 ≤ settings.firstGrowth :=
  Nat.le_trans (chunkSize_of_normalized? normalization).1 (Nat.le_max_right _ _)

theorem alignUp?_firstGrowth (normalization : config.normalized? = some settings) :
    alignUp? (max settings.initialSize settings.chunkSize) = some settings.firstGrowth := by
  obtain ⟨small, whole, _⟩ := alignUp?_eq_some_iff.mp (sizes_of_normalized? normalization).2
  exact alignUp?_max_chunkSize normalization whole small

end Config

namespace Chart

variable {capacity : Nat} {allows : Nat → Nat → Bool} {config settings : Config}

/-- A heap begins with the first growth where the source allows the sentinels and that growth. -/
theorem exists_create_of_allows (normalization : config.normalized? = some settings)
    (sentinels : allows 0 32) (room : allows 32 settings.firstGrowth) :
    ∃ chart, create 0 capacity allows config = .ok chart ∧
      chart.setting = (fresh capacity allows settings).setting.grown settings.firstGrowth := by
  obtain ⟨range, chart, extended, setting⟩ : ∃ range chart,
      (fresh capacity allows settings).extend settings.initialSize = (.ok range, chart) ∧
        chart.setting = (fresh capacity allows settings).setting.grown settings.firstGrowth :=
    ⟨_, _, extend_eq_ok_iff.mpr
      ⟨_, Config.alignUp?_firstGrowth normalization, room, rfl, rfl⟩, rfl⟩
  refine ⟨chart, ?_, setting⟩
  simp only [create, normalization, if_pos, if_pos sentinels, extended]

/-- A heap does not begin where the source has no bytes for the sentinels. -/
theorem create_of_no_sentinels (normalization : config.normalized? = some settings)
    (refused : allows 0 32 = false) :
    create 0 capacity allows config = .error (.outOfMemory 32 capacity) := by
  simp only [create, normalization, if_pos, if_neg (ne_true_of_eq_false refused)]

/-- A heap does not begin where the source refuses the first growth. -/
theorem create_of_no_growth (normalization : config.normalized? = some settings)
    (sentinels : allows 0 32) (refused : allows 32 settings.firstGrowth = false) :
    create 0 capacity allows config =
      .error (.outOfMemory settings.firstGrowth (capacity - 32)) := by
  have stays : (fresh capacity allows settings).extend settings.initialSize =
      (.error (.outOfMemory settings.firstGrowth (capacity - 32)), _) :=
    extend_eq_error_iff.mpr
      ⟨rfl, Or.inr ⟨_, Config.alignUp?_firstGrowth normalization, refused, rfl⟩⟩
  simp only [create, normalization, if_pos, if_pos sentinels, stays]

end Chart

namespace Heap

/-- The larger one of the initial size and the size of a chunk, both of them normalized, decides
the first growth. A heap in an empty source that grants these bytes after the sentinels is one free
block of this size, after one growth, and the block is in the list of its bucket. Its size is the
initial size exactly when a chunk is not larger. A source that does not grant the sentinels, or not
this growth after them, is refused, and the refusal tells which of the two requests it was. -/
theorem first_growth_is_larger_size {σ : Type} [Source σ] {last : Nat} {source : σ}
    {config settings : Config} (normalization : config.normalized? = some settings)
    (empty : Source.size source = 0) :
    (Source.allows source 0 32 → Source.allows source 32 settings.firstGrowth →
      ∃ heap : Heap σ last,
        create source config = .ok (.ok heap) ∧ heap.IsOneFreeBlock ∧
          heap.size = 32 + settings.firstGrowth ∧ heap.arena.growths = 1 ∧
          heap.config = settings ∧
          (heap.size = 32 + settings.initialSize ↔
            settings.chunkSize ≤ settings.initialSize)) ∧
    (Source.allows source 0 32 = false →
      (create source config : Except Fault (Except Refusal (Heap σ last))) =
        .ok (.error (.outOfMemory 32 (Source.capacity source)))) ∧
    (Source.allows source 0 32 → Source.allows source 32 settings.firstGrowth = false →
      (create source config : Except Fault (Except Refusal (Heap σ last))) =
        .ok (.error (.outOfMemory settings.firstGrowth (Source.capacity source - 32)))) := by
  refine ⟨fun sentinels room => ?_, fun refused => ?_, fun sentinels refused => ?_⟩
  · obtain ⟨outcome, created, starts⟩ : ∃ outcome : Except Refusal (Heap σ last),
        create source config = .ok outcome ∧ Chart.Starts (Chart.create (Source.size source)
          (Source.capacity source) (Source.allows source) config) outcome :=
      Chart.exists_create source config
    obtain ⟨chart, begun, setting⟩ : ∃ chart, Chart.create 0 (Source.capacity source)
        (Source.allows source) config = .ok chart ∧ chart.setting = _ :=
      Chart.exists_create_of_allows normalization sentinels room
    rw [empty, begun] at starts
    cases starts with
    | @heap _ heap describes unowned =>
      have size_eq : heap.size = 32 + settings.firstGrowth :=
        describes.size_eq.trans (congrArg Setting.size setting)
      have large := Config.le_firstGrowth normalization
      refine ⟨heap, created, describes.isOneFreeBlock unowned ?_, size_eq,
        describes.growths_eq.trans (congrArg Setting.growths setting),
        describes.config_eq.trans (congrArg Setting.config setting), ?_⟩
      · rw [setting]
        show 64 ≤ 32 + settings.firstGrowth
        omega
      · rw [size_eq, Config.firstGrowth]
        omega
  · rw [Chart.create_eq_error_iff, empty]
    exact Chart.create_of_no_sentinels normalization refused
  · rw [Chart.create_eq_error_iff, empty]
    exact Chart.create_of_no_growth normalization sentinels refused

/-- A heap with an initial size of 128 bytes and smaller chunks begins with a block of 128 bytes. A
source of 144 bytes is too small for that by one unit, and one of 16 bytes for the sentinels. -/
theorem first_growth_is_larger_size_initial :
    (∃ heap : Heap Buffer 0, create (Buffer.ofMaximum 512) ⟨64, 120, 512⟩ = .ok (.ok heap) ∧
        heap.IsOneFreeBlock ∧ heap.size = 160) ∧
      (create (Buffer.ofMaximum 16) ⟨64, 120, 512⟩ :
        Except Fault (Except Refusal (Heap Buffer 0))) = .ok (.error (.outOfMemory 32 16)) ∧
      (create (Buffer.ofMaximum 144) ⟨64, 120, 512⟩ :
        Except Fault (Except Refusal (Heap Buffer 0))) = .ok (.error (.outOfMemory 128 112)) := by
  have normalization : Config.normalized? ⟨64, 120, 512⟩ = some ⟨64, 128, 512⟩ := by decide
  obtain ⟨begins, _⟩ := @first_growth_is_larger_size Buffer _ 0 _ _ _ normalization
    (Buffer.size_ofMaximum 512)
  obtain ⟨_, refusedAtOnce, _⟩ := @first_growth_is_larger_size Buffer _ 0 _ _ _ normalization
    (Buffer.size_ofMaximum 16)
  obtain ⟨_, _, refused⟩ := @first_growth_is_larger_size Buffer _ 0 _ _ _ normalization
    (Buffer.size_ofMaximum 144)
  obtain ⟨heap, created, one, size, _⟩ := begins (by decide) (by decide)
  exact ⟨⟨heap, created, one, size⟩, refusedAtOnce (by decide), refused (by decide) (by decide)⟩

/-- With larger chunks the initial size is without effect. A heap that is to begin with 64 bytes
gets a chunk of 128 bytes, and a source that has the 64 bytes but not the chunk is refused. -/
theorem first_growth_exceeds_initial_size : ∃ config : Config,
    config = (({} : Config).withChunkSize 128).withInitialSize 64 ∧
      config.normalized? = some config ∧ config.initialSize = 64 ∧
      (create (Buffer.ofMaximum 512) config :
        Except Fault (Except Refusal (Heap Buffer 0))).map (Except.map size) = .ok (.ok 160) ∧
      Source.allows (Buffer.ofMaximum 96) 0 32 = true ∧
      Source.allows (Buffer.ofMaximum 96) 32 config.initialSize = true ∧
      (create (Buffer.ofMaximum 96) config :
        Except Fault (Except Refusal (Heap Buffer 0))).map (Except.map size) =
          .ok (.error (.outOfMemory 128 64)) :=
  ⟨_, rfl, by decide +kernel⟩

end Heap

end SegregatedFit
