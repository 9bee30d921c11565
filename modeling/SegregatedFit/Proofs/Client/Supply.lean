/-
This file proves where an allocation takes its bytes from. As long as the largest free block has
room for a request, the arena does not grow. Otherwise the source is asked once, for the size of
the block or for a whole chunk, whichever is more, and its answer is the outcome. So the measured
usage of a heap foretells every allocation.
-/

import SegregatedFit.Proofs.Client.Growth
import SegregatedFit.Proofs.Heap.Shape
import SegregatedFit.Proofs.Heap.Usage

namespace SegregatedFit

namespace Heap

variable {σ : Type} [Source σ] {last : Nat}

/-- Allocates a block of `size` bytes from growth alone. The source is asked once, for `growth`
bytes; what follows works on the bytes that are there. -/
def allocateGrown (growth size : Nat) : Action (Heap σ last) (Except Refusal Pointer) := do
  match ← onArena (Arena.grow growth) with
  | .error refusal => return .error refusal
  | .ok block =>
    indexBlock block
    return .ok (← Pointer.ofBlock (← place (← coalesce block) size))

/-- The four ways an allocation ends, for a heap that grows by chunks of `chunk` bytes and whose
largest free block offers `largest` bytes. -/
inductive Supplies (heap : Heap σ last) (chunk largest request : Nat) :
    Except Refusal Pointer → Heap σ last → Prop
  | fits {pointer : Pointer} {after : Heap σ last} (served : request ≤ largest)
      (size_eq : after.size = heap.size) (growths_eq : after.arena.growths = heap.arena.growths) :
    Supplies heap chunk largest request (.ok pointer) after
  | overflows (scarce : largest < request) (overflow : blockSize? request = none) :
    Supplies heap chunk largest request
      (.error (.outOfMemory request heap.arena.remaining)) heap
  | granted {pointer : Pointer} {after : Heap σ last} {size offset : Nat}
      (scarce : largest < request) (needed : blockSize? request = some size)
      (asks : allocate request heap = allocateGrown (max size chunk) size heap)
      (reply : (Source.request heap.arena.source (max size chunk)).1 = .ok offset)
      (size_eq : after.size = heap.size + max size chunk)
      (growths_eq : after.arena.growths = heap.arena.growths + 1) :
    Supplies heap chunk largest request (.ok pointer) after
  | refused {size : Nat} {refusal : Refusal} (scarce : largest < request)
      (needed : blockSize? request = some size)
      (asks : allocate request heap = allocateGrown (max size chunk) size heap)
      (reply : (Source.request heap.arena.source (max size chunk)).1 = .error refusal) :
    Supplies heap chunk largest request
      (.error (.outOfMemory (max size chunk) heap.arena.remaining)) heap

variable {heap : Heap σ last} {request size growth : Nat}

/-- Where a search finds nothing, the block comes from growth alone. -/
theorem allocate_eq_allocateGrown (needed : blockSize? request = some size)
    (missing : heap.index.find heap.arena size = .ok none)
    (rounded : alignUp? (max size heap.config.chunkSize) = some growth) :
    allocate request heap = allocateGrown growth size heap := by
  have seeks : request ≠ 0 := Nat.ne_of_gt (blockSize?_eq_some_iff.mp needed).1
  simp only [allocate, if_neg seeks, needed, allocateGrown, bind, EStateM.bind,
    findOrExtend_of_missing missing, extend, Action.look, rounded]
  cases onArena (Arena.grow growth) heap with
  | error fault between => rfl
  | ok outcome between =>
    cases outcome with
    | error refusal => rfl
    | ok block =>
      simp only [EStateM.bind]
      cases indexBlock block between with
      | error fault _ => rfl
      | ok _ indexed =>
        simp only
        cases coalesce block indexed <;> rfl

/-- An allocation succeeds without growth exactly when the largest free block has room. -/
theorem Supplies.alone_iff {chunk largest : Nat} {answer : Except Refusal Pointer}
    {after : Heap σ last} (supplies : heap.Supplies chunk largest request answer after) :
    answer.isOk = true ∧ after.arena.growths = heap.arena.growths ↔ request ≤ largest := by
  cases supplies with
  | fits served size_eq growths_eq => exact ⟨fun _ => served, fun _ => ⟨rfl, growths_eq⟩⟩
  | overflows scarce overflow => simp [Except.isOk, Except.toBool, scarce]
  | granted scarce needed asks reply size_eq growths_eq => simp [growths_eq, scarce]
  | refused scarce needed asks reply => simp [Except.isOk, Except.toBool, scarce]

end Heap

namespace Chart

variable {σ : Type} [Source σ] {last : Nat} {chart next : Chart} {heap after : Heap σ last}
variable {cell : Cell} {request size : Nat} {usage : Usage}

/-- The largest free block has room for a request when a search finds a cell for it. -/
theorem Describes.le_largestFree_iff (describes : chart.Describes heap)
    (measured : heap.usage = .ok usage) (seeks : 0 < request) :
    request ≤ usage.largestFree ↔ ∃ size cell, blockSize? request = some size ∧
      chart.order.find? (size ≤ ·.size) = some cell := by
  have fits_iff (cell : Cell) (member : cell ∈ chart.cells) :
      request + 8 ≤ cell.size ↔ ∃ size, blockSize? request = some size ∧ size ≤ cell.size := by
    obtain ⟨_, ends, whole, large⟩ := describes.tiles.bounds member
    have bound := heap.arena.size_lt
    rw [describes.size_eq] at bound
    unfold Cell.next at ends
    exact request_fits_iff seeks (by omega) whole large
  rw [Heap.le_largestFree_iff describes.walk_eq_ok measured seeks]
  constructor
  · rintro ⟨block, member, free, roomy⟩
    obtain ⟨cell, found, flag, rfl⟩ := Cell.exists_of_mem_blocks member
    rw [Cell.size_tag (describes.tiles.bounds found).2.2] at roomy
    obtain ⟨size, needed, fits⟩ := (fits_iff cell found).mp roomy
    have some : (chart.order.find? (size ≤ ·.size)).isSome = true :=
      List.find?_isSome.mpr ⟨cell, describes.indexed cell found free, decide_eq_true fits⟩
    exact ⟨size, _, needed, Option.eq_some_of_isSome some⟩
  · rintro ⟨size, cell, needed, first⟩
    obtain ⟨found, free⟩ := describes.closed.free cell (List.mem_of_find?_eq_some first)
    rw [List.nil_append] at found
    obtain ⟨flag, member⟩ := Cell.exists_mem_blocks true found
    refine ⟨_, member, free, ?_⟩
    rw [Cell.size_tag (describes.tiles.bounds found).2.2]
    exact (fits_iff cell found).mpr ⟨size, needed, by simpa using List.find?_some first⟩

/-- An allocation takes the cell that a search finds, and the setting stays. -/
theorem allocate_of_found (needed : blockSize? request = some size)
    (first : chart.order.find? (size ≤ ·.size) = some cell) :
    chart.allocate request =
      (.ok (cell.used chart.setting.config.splitThreshold size).offset, chart.place cell size) := by
  have seeks : request ≠ 0 := Nat.ne_of_gt (blockSize?_eq_some_iff.mp needed).1
  simp only [allocate, if_neg seeks, needed, findOrExtend, first]

/-- Where a cell is large enough, an allocation needs no growth. -/
theorem Describes.supplies_of_found (describes : chart.Describes heap) {chunk largest : Nat}
    (served : request ≤ largest) (needed : blockSize? request = some size)
    (first : chart.order.find? (size ≤ ·.size) = some cell) :
    Heap.Yields heap (Heap.allocate request) fun answer after =>
      heap.Supplies chunk largest request answer after := by
  refine (describes.yields_allocate request).mono ?_
  rw [allocate_of_found needed first]
  rintro answer after ⟨answered, described, _⟩
  cases answer with
  | error refusal => cases answered
  | ok pointer =>
    obtain ⟨size_eq, growths_eq⟩ := describes.size_growths_eq described rfl
    exact .fits served size_eq growths_eq

/-- Where no cell is large enough, an allocation ends as growth does. -/
theorem Describes.supplies_of_missing (describes : chart.Describes heap) {config : Config}
    (normalization : config.normalized? = some chart.setting.config) {largest : Nat}
    (scarce : largest < request) (needed : blockSize? request = some size)
    (missing : chart.order.find? (size ≤ ·.size) = none) :
    Heap.Yields heap (Heap.allocate request) fun answer after =>
      heap.Supplies chart.setting.config.chunkSize largest request answer after := by
  obtain ⟨seeks, small, whole, _⟩ := blockSize?_eq_some_iff.mp needed
  have rounded := Config.alignUp?_max_chunkSize normalization whole small
  have search := describes.find_eq_ok size
  rw [missing] at search
  have asks := Heap.allocate_eq_allocateGrown needed search (describes.config_eq ▸ rounded)
  rw [describes.config_eq] at asks
  refine (describes.yields_allocate request).mono ?_
  rintro answer after ⟨answered, described, refused, _⟩
  by_cases room : chart.setting.allows chart.setting.size
      (max size chart.setting.config.chunkSize) = true
  · have extended := extend_eq_ok_iff.mpr ⟨_, rounded, room, rfl, rfl⟩
    simp only [allocate, if_neg (Nat.ne_of_gt seeks), needed, findOrExtend, missing, extended]
      at answered described
    cases answer with
    | error refusal => cases answered
    | ok pointer =>
      obtain ⟨size_eq, growths_eq⟩ := describes.size_growths_of_grown described rfl
      exact .granted scarce needed asks (describes.request_eq_ok room) size_eq growths_eq
  · have extended := extend_eq_error_iff.mpr
      ⟨rfl, Or.inr ⟨_, rounded, eq_false_of_ne_true room, rfl⟩⟩
    have reply := describes.request_eq_error (eq_false_of_ne_true room)
    simp only [allocate, if_neg (Nat.ne_of_gt seeks), needed, findOrExtend, missing, extended]
      at answered refused
    obtain rfl := refused rfl
    cases answer with
    | ok pointer => cases answered
    | error refusal =>
      cases answered
      rw [← describes.remaining_eq]
      exact .refused scarce needed asks reply

/-- The measured usage of a described heap foretells an allocation. -/
theorem Describes.yields_supplies (describes : chart.Describes heap) {config : Config}
    (normalization : config.normalized? = some chart.setting.config)
    (measured : heap.usage = .ok usage) (seeks : 0 < request) :
    Heap.Yields heap (Heap.allocate request) fun answer after =>
      heap.Supplies chart.setting.config.chunkSize usage.largestFree request answer after := by
  have served_iff := describes.le_largestFree_iff measured seeks
  by_cases served : request ≤ usage.largestFree
  · obtain ⟨size, cell, needed, first⟩ := served_iff.mp served
    exact describes.supplies_of_found served needed first
  · have scarce := Nat.lt_of_not_le served
    cases needed : blockSize? request with
    | none =>
      refine (describes.yields_allocate request).mono ?_
      simp only [allocate, if_neg (Nat.ne_of_gt seeks), needed]
      rintro answer after ⟨answered, _, refused, _⟩
      obtain rfl := refused rfl
      cases answer with
      | ok pointer => cases answered
      | error refusal =>
        cases answered
        rw [← describes.remaining_eq]
        exact .overflows scarce needed
    | some size =>
      have missing : chart.order.find? (size ≤ ·.size) = none := by
        refine Option.eq_none_iff_forall_ne_some.mpr fun cell first => served ?_
        exact served_iff.mpr ⟨size, cell, needed, first⟩
      exact describes.supplies_of_missing normalization scarce needed missing

end Chart

/-- At every moment of a history, the largest free block decides whether an allocation lets the
arena grow. A request for no more than it offers is served without growth. For a larger request
the source is asked once, for the size of its block or for a chunk, whichever is more, unless
there is no block of that size at all; the request is served if the source grants these bytes,
and refused if not. -/
theorem History.largest_free_decides_growth {σ : Type} [Source σ] {last : Nat} {source : σ}
    {config : Config} {past : List (Call × Reply)} {heap : Heap σ last} {leases : List Lease}
    (history : History source config past heap leases) :
    ∃ settings usage, config.normalized? = some settings ∧ heap.usage = .ok usage ∧
      ∀ request, 0 < request → ∃ answer after,
        Heap.allocate request heap = .ok answer after ∧
          heap.Supplies settings.chunkSize usage.largestFree request answer after ∧
          (answer.isOk = true ∧ after.arena.growths = heap.arena.growths ↔
            request ≤ usage.largestFree) := by
  obtain ⟨chart, describes, _, normalization⟩ := history.exists_normalized_chart
  obtain ⟨usage, measured, _⟩ := Heap.exists_usage describes.laidOut
  refine ⟨chart.setting.config, usage, normalization, measured, fun request seeks => ?_⟩
  obtain ⟨answer, after, allocated, _, supplies⟩ :=
    describes.yields_supplies normalization measured seeks
  exact ⟨answer, after, allocated, supplies, supplies.alone_iff⟩

/-- A client that had a block moved left a free block of 32 bytes. It is served with 24 bytes
without growth, but 25 bytes need more than what is free. -/
theorem History.largest_free_decides_growth_moving :
    ∃ (session : Session Buffer 1) (usage : Usage),
      Session.replay? (Buffer.ofMaximum 512) ⟨32, 64, 48⟩ Session.moving = some session ∧
        session.heap.usage = .ok usage ∧ usage.largestFree = 24 ∧
        (∃ pointer after, Heap.allocate 24 session.heap = .ok (.ok pointer) after ∧
          after.size = session.heap.size) ∧
        ∃ answer after, Heap.allocate 25 session.heap = .ok answer after ∧
          session.heap.Supplies 32 24 25 answer after := by
  obtain ⟨session, replayed, _⟩ := Session.exists_replay_moving
  obtain ⟨settings, usage, normalization, measured, foretold⟩ :=
    History.largest_free_decides_growth (Session.history_of_replay? replayed)
  have largest : usage.largestFree = 24 := by
    have found : (Session.replay? (Buffer.ofMaximum 512) ⟨32, 64, 48⟩ Session.moving :
        Option (Session Buffer 1)).map (fun session => session.heap.usage.map (·.largestFree)) =
          some (.ok 24) := by
      decide +kernel
    rw [replayed, Option.map_some, measured] at found
    exact Except.ok.inj (Option.some.inj found)
  rw [Session.chunkSize_moving normalization, largest] at foretold
  obtain ⟨_, after, served, supplies, _⟩ := foretold 24 (by decide)
  obtain ⟨answer, later, allocated, supplied, _⟩ := foretold 25 (by decide)
  refine ⟨session, usage, replayed, measured, largest, ?_, answer, later, allocated, supplied⟩
  cases supplies with
  | fits _ size_eq _ => exact ⟨_, after, served, size_eq⟩
  | overflows scarce => exact absurd scarce (Nat.lt_irrefl 24)
  | granted scarce => exact absurd scarce (Nat.lt_irrefl 24)
  | refused scarce => exact absurd scarce (Nat.lt_irrefl 24)

end SegregatedFit
