/-
This file proves that the live blocks decide the layout of a heap. Every byte between the
sentinels belongs to a block, and no two free blocks are adjacent, so there is only one way to
fill the gaps between the live blocks. What a client did before leaves no trace in the blocks; in
particular the order of releases does not, and a heap whose blocks are all released is one free
block.
-/

import SegregatedFit.Proofs.Client.Growth
import SegregatedFit.Proofs.Client.Twins

namespace SegregatedFit

namespace Heap

variable {σ τ : Type} [Source σ] [Source τ] {last other : Nat}

/-- Whether a lease names a block of `size` bytes at an offset. -/
def LiveBlock (heap : Heap σ last) (leases : List Lease) (offset size : Nat) : Prop :=
  ∃ lease ∈ leases, lease.pointer.offset = offset ∧
    ∃ tag, heap.arena.header offset = .ok tag ∧ tag.size = size

/-- Whether walks through two heaps meet the same blocks. -/
def SameWalk (heap : Heap σ last) (twin : Heap τ other) : Prop :=
  ∃ blocks, heap.arena.walk = .ok blocks ∧ twin.arena.walk = .ok blocks

/-- Whether the lists of two heaps hold the same nodes, bucket by bucket and each node once. -/
def SameNodes (heap twin : Heap σ last) : Prop :=
  ∀ bucket, ∃ nodes others, (heap.index.lists.get bucket).nodes heap.arena = .ok nodes ∧
    (twin.index.lists.get bucket).nodes twin.arena = .ok others ∧ nodes.Nodup ∧
    nodes.Perm others

/-- Whether a heap consists of one free block, which is in the list of its bucket and in no
other list. -/
def IsOneFreeBlock (heap : Heap σ last) : Prop :=
  ∃ tag : Tag, heap.arena.walk = .ok [⟨32, tag⟩] ∧ tag.size = heap.size - 32 ∧
    tag.allocated = false ∧ ∀ bucket : Fin (last + 1),
      (heap.index.lists.get bucket).nodes heap.arena =
        .ok (if bucketFor last tag.size = bucket then [32] else [])

/-- Releases the blocks of some pointers, one after the other. -/
def releaseAll : List Pointer → Action (Heap σ last) Unit
  | [] => pure ()
  | pointer :: rest => do
    release pointer
    releaseAll rest

end Heap

namespace Chart

variable {σ τ : Type} [Source σ] [Source τ] {last other : Nat} {chart next : Chart}
variable {before heap : Heap σ last} {twin : Heap τ other} {leases : List Lease}

/-! ### Charts with the same owned cells -/

/-- The live blocks are the owned cells. -/
theorem Describes.liveBlock_iff (describes : chart.Describes heap) (serves : chart.Serves leases)
    {offset size : Nat} : heap.LiveBlock leases offset size ↔ chart.Owns ⟨offset, size, true⟩ := by
  have read (cell : Cell) (owns : chart.Owns cell) :
      ∃ tag, heap.arena.header cell.offset = .ok tag ∧ tag.size = cell.size := by
    obtain ⟨flag, shown⟩ := Heap.Opened.exists_shows describes.closed
      (List.mem_append_right [] owns.1)
    exact ⟨_, Arena.header_eq_ok_iff.mpr shown.header,
      Cell.size_tag (describes.tiles.bounds owns.1).2.2 flag⟩
  constructor
  · rintro ⟨lease, member, rfl, tag, found, rfl⟩
    obtain ⟨cell, owns, named, _⟩ := serves.backed lease member
    obtain ⟨header, header_eq, size_eq⟩ := read cell owns
    rw [named, found] at header_eq
    cases header_eq
    rw [size_eq, ← named, ← owns.2]
    exact owns
  · intro owns
    obtain ⟨lease, member, named⟩ := serves.complete _ owns
    obtain ⟨tag, found, size_eq⟩ := read _ owns
    exact ⟨lease, member, named, tag, found, size_eq⟩

/-- Charts of heaps of one size with the same owned cells have the same cells. -/
theorem Describes.cells_eq (describes : chart.Describes heap) (described : next.Describes twin)
    (size : chart.setting.size = next.setting.size)
    (same : ∀ offset size, chart.Owns ⟨offset, size, true⟩ ↔ next.Owns ⟨offset, size, true⟩) :
    chart.cells = next.cells := by
  have tiles := described.tiles
  rw [← size] at tiles
  refine describes.tiles.unique tiles describes.separated described.separated ?_
  rintro ⟨offset, size, _⟩ rfl
  simpa only [Owns, and_true] using same offset size

/-- Heaps whose charts have the same cells look the same on a walk. -/
theorem Describes.sameWalk (describes : chart.Describes heap) (described : next.Describes twin)
    (same : chart.cells = next.cells) : heap.SameWalk twin :=
  ⟨_, describes.walk_eq_ok, same ▸ described.walk_eq_ok⟩

/-- Heaps whose charts have the same cells have the same nodes in their lists. -/
theorem Describes.sameNodes {twin : Heap σ last} (describes : chart.Describes heap)
    (described : next.Describes twin) (same : chart.cells = next.cells) :
    heap.SameNodes twin := by
  intro bucket
  obtain ⟨nodes, listed, distinct, members⟩ := describes.wellFormed.nodes_eq bucket
  obtain ⟨others, found, different, fellows⟩ := described.wellFormed.nodes_eq bucket
  refine ⟨nodes, others, listed, found, distinct, ?_⟩
  refine (List.perm_ext_iff_of_nodup distinct different).mpr fun node => ?_
  rw [members, fellows, Arena.blocks_eq_of_laidOut describes.laidOut,
    Arena.blocks_eq_of_laidOut described.laidOut, same]

/-! ### Many releases -/

/-- Pointers of owned cells can be released one after the other. All other cells keep their
owners, and the setting stays. -/
theorem Describes.yields_releaseAll {pointers : List Pointer} (describes : chart.Describes before)
    (distinct : pointers.Nodup)
    (owned : ∀ pointer ∈ pointers, ∃ cell, chart.Owns cell ∧ pointer.offset = cell.offset) :
    Heap.Yields before (Heap.releaseAll pointers) fun _ after =>
      ∃ next : Chart, next.Describes after ∧ next.setting = chart.setting ∧
        ∀ cell, next.Owns cell ↔
          chart.Owns cell ∧ ∀ pointer ∈ pointers, pointer.offset ≠ cell.offset := by
  induction pointers generalizing chart before with
  | nil =>
    exact Heap.yields_pure ⟨chart, describes, rfl, by simp⟩
  | cons pointer rest inductionHypothesis =>
    obtain ⟨absent, distinct⟩ := List.nodup_cons.mp distinct
    obtain ⟨released, owns, named⟩ := owned pointer List.mem_cons_self
    have gone : ∀ cell, chart.Owns cell → (cell ≠ released ↔ pointer.offset ≠ cell.offset) := by
      intro cell others
      rw [named]
      exact not_congr ⟨fun same => same ▸ rfl,
        fun same => describes.eq_of_offset_eq owns others same.symm⟩
    -- The chart after the first release owns the cells of the other pointers still, because no two
    -- pointers name the same cell.
    unfold Heap.releaseAll
    refine (describes.yields_release_spares owns pointer named).bind ?_
    rintro _ between ⟨freed, _⟩
    refine (inductionHypothesis freed distinct fun other member => ?_).mono ?_
    · obtain ⟨cell, others, place⟩ := owned other (List.mem_cons_of_mem _ member)
      refine ⟨cell, (describes.owns_free owns).mpr ⟨others, (gone cell others).mpr ?_⟩, place⟩
      rw [← place]
      exact fun same => absent (Pointer.eq_of_offset_eq same ▸ member)
    · rintro _ after ⟨next, described, setting, owners⟩
      refine ⟨next, described, setting, fun cell => ?_⟩
      rw [owners, describes.owns_free owns, List.forall_mem_cons, and_assoc]
      exact and_congr_right fun others => and_congr_left' (gone cell others)

/-! ### No owned cells -/

/-- Without owners, the cell that fills the range is the only one. -/
theorem Describes.cells_of_unowned (describes : chart.Describes heap)
    (unowned : ∀ cell, ¬ chart.Owns cell) (large : 64 ≤ chart.setting.size) :
    ∃ cell : Cell, chart.cells = [cell] ∧ cell.Regular ∧ cell.offset = 32 ∧
      cell.size = chart.setting.size - 32 ∧ cell.allocated = false := by
  have whole := (describes.tiles.aligned rfl).1
  have regular : Cell.Regular ⟨32, chart.setting.size - 32, false⟩ :=
    ⟨show (chart.setting.size - 32) % 16 = 0 by omega, show 32 ≤ chart.setting.size - 32 by omega⟩
  have ends : 32 + (chart.setting.size - 32) = chart.setting.size := by omega
  refine ⟨_, ?_, regular, rfl, rfl, rfl⟩
  refine describes.tiles.unique ⟨rfl, regular, ends⟩ describes.separated ⟨Or.inl rfl, trivial⟩
    fun owned allocated => ⟨fun member => ?_, fun member => ?_⟩
  · exact absurd ⟨member, allocated⟩ (unowned owned)
  · rw [List.mem_singleton.mp member] at allocated
    cases allocated

/-- A heap with room for a block whose cells have no owners is one free block. -/
theorem Describes.isOneFreeBlock (describes : chart.Describes heap)
    (unowned : ∀ cell, ¬ chart.Owns cell) (large : 64 ≤ chart.setting.size) :
    heap.IsOneFreeBlock := by
  obtain ⟨⟨_, _, _⟩, cells, regular, rfl, rfl, rfl⟩ := describes.cells_of_unowned unowned large
  have size_tag := Cell.size_tag regular true
  have size_eq : heap.size = chart.setting.size := describes.size_eq
  have walked := describes.walk_eq_ok
  rw [cells] at walked
  refine ⟨_, walked, by rw [size_tag, size_eq], rfl, fun bucket => ?_⟩
  obtain ⟨nodes, listed, distinct, members⟩ := describes.wellFormed.nodes_eq bucket
  rw [Arena.blocks_eq_of_laidOut describes.laidOut, cells] at members
  have only (node : Nat) : node ∈ nodes ↔
      node = 32 ∧ bucketFor last (chart.setting.size - 32) = bucket := by
    rw [members]
    constructor
    · rintro ⟨block, member, rfl, _, here⟩
      obtain rfl := List.mem_singleton.mp member
      rw [size_tag] at here
      exact ⟨rfl, here⟩
    · rintro ⟨rfl, here⟩
      exact ⟨_, List.mem_singleton_self _, rfl, rfl, size_tag ▸ here⟩
  rw [listed, size_tag]
  split
  · rename_i here
    have single := (List.perm_ext_iff_of_nodup distinct (List.nodup_singleton 32)).mpr
      fun node => by rw [only, List.mem_singleton, and_iff_left here]
    rw [List.perm_singleton.mp single]
  · rename_i elsewhere
    rw [List.eq_nil_iff_forall_not_mem.mpr fun node member => elsewhere ((only node).mp member).2]

end Chart

/-- The live blocks decide the layout of a heap. Any two heaps of one size with the same live
blocks consist of the same blocks. Releases have the same effect in every order, and once all
leased pointers are released the heap is one free block. -/
theorem History.live_blocks_decide_layout {σ : Type} [Source σ] {last : Nat} {source : σ}
    {config : Config} {past : List (Call × Reply)} {heap : Heap σ last} {leases : List Lease}
    (history : History source config past heap leases) :
    (∀ {τ : Type} [Source τ] {other : Nat} (copy : τ) (settings : Config)
      (calls : List (Call × Reply)) (twin : Heap τ other) (held : List Lease),
      History copy settings calls twin held → heap.size = twin.size →
        (∀ offset size, heap.LiveBlock leases offset size ↔ twin.LiveBlock held offset size) →
          heap.SameWalk twin) ∧
    (∀ pointers reordered : List Pointer, pointers.Nodup →
      (∀ pointer ∈ pointers, pointer ∈ leases.map Lease.pointer) → pointers.Perm reordered →
        ∃ after later, Heap.releaseAll pointers heap = .ok () after ∧
          Heap.releaseAll reordered heap = .ok () later ∧ after.SameWalk later ∧
          after.SameNodes later) ∧
    ∀ pointers : List Pointer, pointers.Perm (leases.map Lease.pointer) →
      ∃ after, Heap.releaseAll pointers heap = .ok () after ∧ after.size = heap.size ∧
        after.IsOneFreeBlock := by
  obtain ⟨chart, describes, serves, large⟩ := history.exists_roomy_chart
  have size_eq : heap.size = chart.setting.size := describes.size_eq
  refine ⟨?_, fun pointers reordered distinct leased perm => ?_, fun pointers perm => ?_⟩
  · intro τ _ other copy settings calls twin held again size same
    obtain ⟨next, described, serving⟩ := again.exists_chart
    have twinSize : twin.size = next.setting.size := described.size_eq
    refine describes.sameWalk described (describes.cells_eq described ?_ fun offset size => ?_)
    · rw [← size_eq, size, twinSize]
    · rw [← describes.liveBlock_iff serves, ← described.liveBlock_iff serving]
      exact same offset size
  · have owned pointer (member : pointer ∈ pointers) := serves.exists_cell (leased pointer member)
    obtain ⟨_, after, released, _, next, described, setting, owners⟩ :=
      describes.yields_releaseAll distinct owned
    obtain ⟨_, later, rereleased, _, other, redescribed, resetting, reowners⟩ :=
      describes.yields_releaseAll (perm.nodup distinct) fun pointer member =>
        owned pointer (perm.mem_iff.mpr member)
    have cells : next.cells = other.cells := by
      refine described.cells_eq redescribed (by rw [setting, resetting]) fun offset size => ?_
      simp only [owners, reowners, perm.mem_iff]
    exact ⟨after, later, released, rereleased, described.sameWalk redescribed cells,
      described.sameNodes redescribed cells⟩
  · have owned pointer (member : pointer ∈ pointers) :=
      serves.exists_cell (perm.mem_iff.mp member)
    obtain ⟨_, after, released, _, next, described, setting, owners⟩ :=
      describes.yields_releaseAll (perm.nodup_iff.mpr serves.distinct) owned
    have afterSize : after.size = next.setting.size := described.size_eq
    refine ⟨after, released, by rw [afterSize, setting, size_eq],
      described.isOneFreeBlock (fun cell owns => ?_) (setting ▸ large)⟩
    obtain ⟨old, spared⟩ := (owners cell).mp owns
    obtain ⟨lease, member, named⟩ := serves.complete cell old
    exact spared lease.pointer (perm.mem_iff.mpr (List.mem_map_of_mem member)) named

/-- A client that had a block moved has the same blocks in a heap with one list only, and may
release its two blocks in both orders. -/
theorem History.live_blocks_decide_layout_moving :
    ∃ session : Session Buffer 1,
      Session.replay? (Buffer.ofMaximum 512) ⟨32, 64, 48⟩ Session.moving = some session ∧
        (∃ twin : Heap Buffer 0,
          History (Buffer.ofMaximum 512) ⟨32, 64, 48⟩ session.past twin session.leases ∧
            session.heap.SameWalk twin) ∧
        ∃ after later,
          Heap.releaseAll [⟨96, by decide⟩, ⟨64, by decide⟩] session.heap = .ok () after ∧
            Heap.releaseAll [⟨64, by decide⟩, ⟨96, by decide⟩] session.heap = .ok () later ∧
            after.SameWalk later ∧ after.SameNodes later ∧ after.IsOneFreeBlock := by
  obtain ⟨session, replayed, leases⟩ := Session.exists_replay_moving
  have history := Session.history_of_replay? replayed
  obtain ⟨twin, chart, repeated, describes, described, serves⟩ := history.exists_twin rfl rfl rfl 0
  obtain ⟨decided, reordered, emptied⟩ := History.live_blocks_decide_layout history
  have walks := decided _ _ _ _ _ repeated (describes.sameLayout described).size
    fun offset size => by rw [describes.liveBlock_iff serves, described.liveBlock_iff serves]
  obtain ⟨after, later, released, rereleased, same, nodes⟩ :=
    reordered [⟨96, by decide⟩, ⟨64, by decide⟩] [⟨64, by decide⟩, ⟨96, by decide⟩] (by decide)
      (by rw [leases]; decide) (by decide)
  obtain ⟨other, again, _, one⟩ :=
    emptied [⟨96, by decide⟩, ⟨64, by decide⟩] (by rw [leases]; decide)
  obtain ⟨_, rfl⟩ := EStateM.Result.ok.inj (released.symm.trans again)
  exact ⟨session, replayed, ⟨twin, repeated, walks⟩, after, later, released, rereleased, same,
    nodes, one⟩

end SegregatedFit
