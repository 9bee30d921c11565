/-
This file proves that heaps never shrink. A call leaves the setting of a heap alone or lets it
grow once, and a heap begins with one growth already, so there is always room for a block.
-/

import SegregatedFit.Proofs.Client.History

namespace SegregatedFit

/-- How a setting may be changed by one operation: by at most one growth. -/
inductive Setting.GrowsTo (setting : Setting) : Setting → Prop
  | same : GrowsTo setting setting
  | grown (count : Nat) : GrowsTo setting (setting.grown count)

theorem Setting.GrowsTo.size_le {setting after : Setting} (grows : setting.GrowsTo after) :
    setting.size ≤ after.size := by
  cases grows with
  | same => exact Nat.le_refl _
  | grown count => exact Nat.le_add_right _ _

theorem Setting.GrowsTo.growths_le {setting after : Setting} (grows : setting.GrowsTo after) :
    setting.growths ≤ after.growths ∧ after.growths ≤ setting.growths + 1 := by
  cases grows with
  | same => exact ⟨Nat.le_refl _, Nat.le_add_right _ _⟩
  | grown count => exact ⟨Nat.le_add_right _ _, Nat.le_refl _⟩

theorem Setting.GrowsTo.config_eq {setting after : Setting} (grows : setting.GrowsTo after) :
    after.config = setting.config := by
  cases grows with
  | same => rfl
  | grown count => rfl

namespace Chart

variable {chart after : Chart} {cell range : Cell} {size : Nat}

/-! ### The setting of a chart after an operation -/

/-- Growth adds at least the bytes that were asked for, and at least a chunk. -/
theorem setting_of_extend_eq_ok (extended : chart.extend size = (.ok range, after)) :
    ∃ growth, max size chart.setting.config.chunkSize ≤ growth ∧
      after.setting = chart.setting.grown growth := by
  obtain ⟨growth, rounded, _, _, rfl⟩ := extend_eq_ok_iff.mp extended
  obtain ⟨_, _, least, _⟩ := alignUp?_eq_some_iff.mp rounded
  exact ⟨growth, least, rfl⟩

theorem growsTo_extend (chart : Chart) (size : Nat) :
    chart.setting.GrowsTo (chart.extend size).2.setting := by
  cases result : chart.extend size with
  | mk outcome after =>
    cases outcome with
    | error refusal =>
      obtain rfl := extend_eq_error result
      exact .same
    | ok range =>
      obtain ⟨growth, _, setting⟩ := setting_of_extend_eq_ok result
      rw [setting]
      exact .grown growth

theorem growsTo_findOrExtend (chart : Chart) (size : Nat) :
    chart.setting.GrowsTo (chart.findOrExtend size).2.setting := by
  unfold findOrExtend
  split
  · exact .same
  · exact growsTo_extend chart size

theorem growsTo_allocate (chart : Chart) (request : Nat) :
    chart.setting.GrowsTo (chart.allocate request).2.setting := by
  cases result : chart.allocate request with
  | mk outcome after =>
    cases outcome with
    | error refusal =>
      obtain rfl := allocate_eq_error result
      exact .same
    | ok offset =>
      obtain ⟨size, cell, between, _, found, _, rfl⟩ := allocate_eq_ok result
      have grows := growsTo_findOrExtend chart size
      rwa [found] at grows

theorem setting_trim (chart : Chart) (cell : Cell) (size : Nat) :
    (chart.trim cell size).setting = chart.setting := by
  unfold trim
  split <;> rfl

theorem setting_absorb (chart : Chart) (cell : Cell) (size : Nat) :
    (chart.absorb cell size).setting = chart.setting :=
  setting_trim _ _ _

theorem growsTo_reserve? (reserved : chart.reserve? cell size = some after) :
    chart.setting.GrowsTo after.setting := by
  unfold reserve? at reserved
  split at reserved
  · cases reserved
    exact .same
  · split at reserved
    · have grows := growsTo_extend chart (size - (chart.enlarged cell).size)
      split at reserved
      · rename_i extended
        cases reserved
        rwa [extended] at grows
      · cases reserved
    · cases reserved

theorem growsTo_resize (chart : Chart) (cell : Cell) (request : Nat) :
    chart.setting.GrowsTo (chart.resize cell request).2.setting := by
  unfold resize
  split
  · exact .same
  · split
    · rw [setting_trim]
      exact .same
    · split
      · rename_i reserved
        rw [setting_absorb]
        exact growsTo_reserve? reserved
      · have grows := growsTo_allocate chart request
        split
        · rename_i allocated
          rwa [allocated] at grows
        · rename_i allocated
          rwa [allocated] at grows

/-- A call lets a heap grow at most once. -/
theorem growsTo_perform (chart : Chart) (call : Call) :
    chart.setting.GrowsTo (chart.perform call).2.setting := by
  cases call with
  | allocate request => exact growsTo_allocate chart request
  | allocate? request => exact growsTo_allocate chart request
  | allocateZeroed? request => exact growsTo_allocate chart request
  | resize? argument request =>
    cases argument with
    | none => exact growsTo_allocate chart request
    | some pointer =>
      simp only [perform]
      split
      · exact .same
      · split
        · exact .same
        · exact growsTo_resize chart _ request
  | release pointer =>
    simp only [perform]
    split <;> exact .same
  | write pointer start values => exact .same

/-! ### The setting of a chart at its begin -/

/-- A chart begins with the growth of a chart without cells. -/
theorem exists_extend_of_create {capacity : Nat} {allows : Nat → Nat → Bool} {config : Config}
    (begun : create size capacity allows config = .ok chart) :
    ∃ normalized range, config.normalized? = some normalized ∧
      (fresh capacity allows normalized).extend normalized.initialSize = (.ok range, chart) := by
  unfold create at begun
  split at begun
  · cases begun
  · rename_i normalized normalization
    split at begun
    · split at begun
      · split at begun
        · rename_i extended
          cases begun
          exact ⟨normalized, _, normalization, extended⟩
        · cases begun
      · cases begun
    · cases begun

/-- A heap begins with room for a block. -/
theorem le_size_of_create {capacity : Nat} {allows : Nat → Nat → Bool} {config : Config}
    (begun : create size capacity allows config = .ok chart) : 64 ≤ chart.setting.size := by
  obtain ⟨normalized, range, normalization, extended⟩ := exists_extend_of_create begun
  obtain ⟨growth, least, setting⟩ := setting_of_extend_eq_ok extended
  have large := (Config.chunkSize_of_normalized? normalization).1
  rw [setting]
  simp only [fresh, Setting.grown] at least ⊢
  omega

/-- A heap begins with normalized settings. -/
theorem normalized_of_create {capacity : Nat} {allows : Nat → Nat → Bool} {config : Config}
    (begun : create size capacity allows config = .ok chart) :
    config.normalized? = some chart.setting.config := by
  obtain ⟨normalized, range, normalization, extended⟩ := exists_extend_of_create begun
  obtain ⟨growth, _, setting⟩ := setting_of_extend_eq_ok extended
  rw [setting]
  exact normalization

end Chart

section Histories

variable {σ : Type} [Source σ] {last : Nat} {source : σ} {config : Config}
variable {past : List (Call × Reply)} {heap : Heap σ last} {leases : List Lease}

/-- At every moment of a history a chart describes the heap and serves the leases, and there is
room for a block between the sentinels. -/
theorem History.exists_roomy_chart (history : History source config past heap leases) :
    ∃ chart : Chart, chart.Describes heap ∧ chart.Serves leases ∧ 64 ≤ chart.setting.size :=
  history.exists_chart_of (fun _ => Chart.le_size_of_create) fun chart call large =>
    Nat.le_trans large (chart.growsTo_perform call).size_le

/-- At every moment of a history a chart describes the heap and serves the leases, and its
settings are those that the heap was asked to begin with, normalized. -/
theorem History.exists_normalized_chart (history : History source config past heap leases) :
    ∃ chart : Chart, chart.Describes heap ∧ chart.Serves leases ∧
      config.normalized? = some chart.setting.config :=
  history.exists_chart_of (fun _ => Chart.normalized_of_create) fun chart call normalization =>
    normalization.trans (congrArg some (chart.growsTo_perform call).config_eq.symm)

end Histories

end SegregatedFit
