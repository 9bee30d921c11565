/-
This file proves that a heap begins as its chart does. A fresh arena has no blocks at all; the
first growth adds one free block, which nobody owns.
-/

import SegregatedFit.Proofs.Heap.Ownership

namespace SegregatedFit

namespace Index

variable {σ : Type} [Source σ] {last : Nat}

/-- The lists of the index without blocks are empty. -/
theorem empty_follows (arena : Arena σ) : (empty : Index last).Follows arena [] := by
  intro bucket
  have nothing : (empty : Index last).lists.get bucket = FreeList.empty := by
    simp [empty, Vector.get]
  rw [nothing]
  refine ⟨rfl, rfl, fun front back split => ?_⟩
  obtain ⟨rfl, rfl⟩ := List.append_eq_nil_iff.mp split.symm
  refine ⟨?_, ?_⟩
  · rintro node ⟨⟩
  · rintro node ⟨⟩

end Index

namespace Chart

variable {σ : Type} [Source σ] {last : Nat} {chart : Chart} {cell : Cell}

/-- The chart of a heap whose arena has its sentinels only. -/
def fresh (capacity : Nat) (allows : (size count : Nat) → Bool) (config : Config) : Chart where
  setting := { size := 32, growths := 0, allows, capacity, config }
  cells := []
  order := []

/-- The chart of a heap that begins in a source. -/
def create (size capacity : Nat) (allows : (size count : Nat) → Bool) (config : Config) :
    Except Refusal Chart :=
  match config.normalized? with
  | none => .error (.outOfMemory (max config.chunkSize config.initialSize) (capacity - size))
  | some config =>
    if size = 0 then
      if allows 0 32 then
        match (fresh capacity allows config).extend config.initialSize with
        | (.ok _, chart) => .ok chart
        | (.error refusal, _) => .error refusal
      else
        .error (.outOfMemory 32 capacity)
    else
      .error .invalidArgument

/-- A fresh arena is described by a chart without cells. -/
theorem describes_fresh {source : σ} (config : Config) (empty : Source.size source = 0)
    (room : Source.allows source 0 32) (growing : 32 ≤ config.chunkSize) :
    ∃ arena, Arena.init source = .ok arena ∧
      (fresh (Source.capacity source) (Source.allows source) config).Describes
        (⟨arena, Index.empty, config⟩ : Heap σ last) := by
  obtain ⟨arena, begun, size, growths, allows, capacity, prologue, header⟩ :=
    Arena.exists_init empty room
  refine ⟨arena, begun, ⟨?_, prologue, rfl, rfl, Nat.le_refl _, List.forall_mem_nil _, ?_,
    List.forall_mem_nil _, List.nodup_nil, List.Pairwise.nil, Index.empty_follows arena⟩, trivial,
    List.forall_mem_nil _, growing, Nat.le_refl _⟩
  · simp only [Heap.setting, fresh, size, growths, allows, capacity]
  · intro block member
    obtain rfl := List.mem_singleton.mp member
    exact ⟨header, fun free => by cases free⟩

/-- A heap progresses at its begin from an index without blocks in a fresh arena. -/
theorem exists_progresses_of_create {source : σ} {config : Config} {heap : Heap σ last}
    (created : Heap.create source config = .ok (.ok heap)) :
    ∃ arena settings, Arena.init source = .ok arena ∧
      (⟨arena, Index.empty, settings⟩ : Heap σ last).Progresses heap := by
  unfold Heap.create at created
  split at created
  · cases created
  · rename_i settings normalization
    split at created
    · cases created
    · rename_i arena begun
      have empty : Source.size source = 0 := by
        by_contra used
        cases begun.symm.trans (Arena.init_of_used used)
      have room : Source.allows source 0 32 := by
        by_contra refused
        cases begun.symm.trans (Arena.init_of_refused empty (eq_false_of_ne_true refused))
      obtain ⟨_, again, describes⟩ :=
        describes_fresh settings empty room (Config.chunkSize_of_normalized? normalization).1
      obtain rfl := Except.ok.inj (begun.symm.trans again)
      split at created
      · rename_i extended
        cases created
        exact ⟨arena, settings, begun,
          (describes.yields_extend settings.initialSize).progresses extended⟩
      · cases created
      · cases created

theorem not_owns_fresh (capacity : Nat) (allows : Nat → Nat → Bool) (config : Config) :
    ¬ (fresh capacity allows config).Owns cell :=
  fun owns => List.not_mem_nil owns.1

/-- How the begin of a heap and the begin of a chart may end. Nobody owns anything at first. -/
inductive Starts : Except Refusal Chart → Except Refusal (Heap σ last) → Prop
  | heap {chart : Chart} {heap : Heap σ last} (describes : chart.Describes heap)
      (unowned : ∀ cell, ¬ chart.Owns cell) : Starts (.ok chart) (.ok heap)
  | refusal (refusal : Refusal) : Starts (.error refusal) (.error refusal)

/-- A heap begins as its chart does, and is refused as its chart is. -/
theorem exists_create (source : σ) (config : Config) :
    ∃ outcome : Except Refusal (Heap σ last), Heap.create source config = .ok outcome ∧
      Starts (create (Source.size source) (Source.capacity source) (Source.allows source) config)
        outcome := by
  unfold create Heap.create
  cases normalization : config.normalized? with
  | none => exact ⟨_, rfl, .refusal _⟩
  | some normalized =>
    have growing := (Config.chunkSize_of_normalized? normalization).1
    by_cases empty : Source.size source = 0
    · simp only [if_pos empty]
      by_cases room : Source.allows source 0 32 = true
      · simp only [if_pos room]
        obtain ⟨arena, begun, describes⟩ : ∃ arena, Arena.init source = .ok arena ∧
            (fresh (Source.capacity source) (Source.allows source) normalized).Describes
              (⟨arena, Index.empty, normalized⟩ : Heap σ last) :=
          describes_fresh normalized empty room growing
        obtain ⟨_, heap, extended, _, rfl, described, _⟩ :=
          describes.yields_extend normalized.initialSize
        rw [begun]
        simp only [extended]
        cases result : (fresh (Source.capacity source) (Source.allows source) normalized).extend
            normalized.initialSize with
        | mk outcome grown =>
          rw [result] at described
          cases outcome with
          | error refusal => exact ⟨_, rfl, .refusal _⟩
          | ok range =>
            refine ⟨_, rfl, .heap described fun cell owns => ?_⟩
            exact not_owns_fresh _ _ _ ((describes.owns_extend result).1.mp owns)
      · simp only [if_neg room]
        rw [Arena.init_of_refused empty (eq_false_of_ne_true room)]
        exact ⟨_, rfl, .refusal _⟩
    · simp only [if_neg empty]
      rw [Arena.init_of_used empty]
      exact ⟨_, rfl, .refusal _⟩

/-- A heap is refused at its begin exactly when its chart is. -/
theorem create_eq_error_iff {source : σ} {config : Config} {refusal : Refusal} :
    (Heap.create source config : Except Fault (Except Refusal (Heap σ last))) =
        .ok (.error refusal) ↔
      create (Source.size source) (Source.capacity source) (Source.allows source) config =
        .error refusal := by
  obtain ⟨outcome, created, starts⟩ : ∃ outcome : Except Refusal (Heap σ last),
      Heap.create source config = .ok outcome ∧ Starts (create (Source.size source)
        (Source.capacity source) (Source.allows source) config) outcome :=
    exists_create source config
  rw [created]
  generalize create _ _ _ config = begun at starts
  cases starts with
  | heap describes unowned => constructor <;> rintro ⟨⟩
  | refusal reason =>
    constructor
    · rintro ⟨rfl⟩
      rfl
    · rintro ⟨rfl⟩
      rfl

end Chart

end SegregatedFit
