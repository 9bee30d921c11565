/-
This file proves that the allocator never looks at payloads. When the writes are left out of a
history, the other calls still get the same replies, and one chart describes both heaps. So two
histories that differ in their writes only, in what is written, where or how often, cannot be
told apart by anything that the allocator answers or keeps: replies, blocks, lists, links,
numbers, and the result of an audit.
-/

import SegregatedFit.Proofs.Client.Twins
import SegregatedFit.Proofs.Heap.Audit

namespace SegregatedFit

namespace Call

/-- Whether a call writes into a payload. -/
def writes : Call → Bool
  | write _ _ _ => true
  | _ => false

theorem exists_of_writes {call : Call} (writes : call.writes = true) :
    ∃ pointer start values, call = write pointer start values := by
  cases call with
  | write pointer start values => exact ⟨pointer, start, values, rfl⟩
  | allocate request => cases writes
  | allocate? request => cases writes
  | allocateZeroed? request => cases writes
  | resize? argument request => cases writes
  | release pointer => cases writes

/-- What happened to a heap apart from writes. -/
def unwritten (past : List (Call × Reply)) : List (Call × Reply) :=
  past.filter (! ·.1.writes)

theorem unwritten_concat (past : List (Call × Reply)) (call : Call) (reply : Reply) :
    unwritten (past ++ [(call, reply)]) =
      if call.writes then unwritten past else unwritten past ++ [(call, reply)] := by
  unfold unwritten
  rw [List.filter_append]
  cases kind : call.writes <;> simp [kind]

theorem map_fst_unwritten (past : List (Call × Reply)) :
    (unwritten past).map Prod.fst = (past.map Prod.fst).filter (! ·.writes) := by
  unfold unwritten
  rw [List.filter_map]
  rfl

end Call

variable {σ : Type} [Source σ] {last : Nat} {heap twin before after : Heap σ last}
variable {chart : Chart} {leases : List Lease}

namespace Heap

/-- Whether two heaps agree on all that the allocator keeps: they look the same from outside,
and have the same lists, the same footers and links of free blocks, the same end, and the same
audit. -/
structure SameBooks (heap twin : Heap σ last) : Prop where
  layout : heap.SameLayout twin
  epilogue : heap.arena.header? heap.arena.epilogue = twin.arena.header? twin.arena.epilogue
  index : heap.index = twin.index
  nodes : ∀ bucket, (heap.index.lists.get bucket).nodes heap.arena =
    (twin.index.lists.get bucket).nodes twin.arena
  free : ∀ blocks, heap.arena.walk = .ok blocks → ∀ block ∈ blocks, block.tag.allocated = false →
    ∀ offset ∈ [block.next - 16, block.offset, block.offset + 8],
      heap.arena.word? offset = twin.arena.word? offset
  audit : heap.audit.run = twin.audit.run

theorem SameLayout.symm (same : heap.SameLayout twin) : twin.SameLayout heap where
  walk := same.walk.symm
  size := same.size.symm
  growths := same.growths.symm
  usage := same.usage.symm

theorem SameLayout.trans {other : Heap σ last} (first : heap.SameLayout twin)
    (second : twin.SameLayout other) : heap.SameLayout other where
  walk := first.walk.trans second.walk
  size := first.size.trans second.size
  growths := first.growths.trans second.growths
  usage := first.usage.trans second.usage

theorem SameBooks.symm (same : heap.SameBooks twin) : twin.SameBooks heap where
  layout := same.layout.symm
  epilogue := same.epilogue.symm
  index := same.index.symm
  nodes bucket := (same.nodes bucket).symm
  free blocks walked block member free offset found :=
    (same.free blocks (same.layout.walk.trans walked) block member free offset found).symm
  audit := same.audit.symm

theorem SameBooks.trans {other : Heap σ last} (first : heap.SameBooks twin)
    (second : twin.SameBooks other) : heap.SameBooks other where
  layout := first.layout.trans second.layout
  epilogue := first.epilogue.trans second.epilogue
  index := first.index.trans second.index
  nodes bucket := (first.nodes bucket).trans (second.nodes bucket)
  free blocks walked block member free offset found :=
    (first.free blocks walked block member free offset found).trans
      (second.free blocks (first.layout.walk.symm.trans walked) block member free offset found)
  audit := first.audit.trans second.audit

end Heap

namespace Chart

/-! ### What a chart decides -/

/-- Heaps that one chart describes have the same lists. -/
theorem Describes.index_eq (describes : chart.Describes heap) (described : chart.Describes twin) :
    heap.index = twin.index := by
  have same : heap.index.lists = twin.index.lists := by
    refine Vector.ext fun bucket inside => ?_
    obtain ⟨headed, counted, _⟩ := describes.closed.follows ⟨bucket, inside⟩
    obtain ⟨twinHeaded, twinCounted, _⟩ := described.closed.follows ⟨bucket, inside⟩
    exact congrArg₂ FreeList.mk (headed.trans twinHeaded.symm) (counted.trans twinCounted.symm)
  exact congrArg Index.mk same

/-- The footer of a free cell holds its header, without the flag for the cell in front. -/
theorem Describes.footer_eq (describes : chart.Describes heap) {cell : Cell}
    (member : cell ∈ chart.cells) (free : cell.allocated = false) :
    heap.arena.word? (cell.next - 16) = some (cell.tag false).word := by
  obtain ⟨flag, shown⟩ := Heap.Opened.exists_shows describes.closed
    (List.mem_append_right [] member)
  have footer := shown.footer free
  have size_eq := Cell.size_tag (describes.tiles.bounds member).2.2 flag
  rwa [Block.next, size_eq] at footer

/-- The links of a free cell name its neighbours in the list of its bucket. -/
theorem Describes.links_eq (describes : chart.Describes heap) (described : chart.Describes twin)
    {cell : Cell} (indexed : cell ∈ chart.order) :
    heap.arena.word? cell.offset = twin.arena.word? cell.offset ∧
      heap.arena.word? (cell.offset + 8) = twin.arena.word? (cell.offset + 8) :=
  describes.closed.follows.words_eq described.closed.follows indexed

/-- Heaps that one chart describes agree on all that the allocator keeps. -/
theorem Describes.sameBooks (describes : chart.Describes heap) (described : chart.Describes twin) :
    heap.SameBooks twin where
  layout := describes.sameLayout described
  epilogue := by
    rw [Arena.epilogue, Arena.epilogue, describes.size_eq, described.size_eq]
    exact describes.closed.header_epilogue.trans described.closed.header_epilogue.symm
  index := describes.index_eq described
  nodes bucket := (describes.holds bucket).1.nodes_eq.trans
    (described.holds bucket).1.nodes_eq.symm
  free := by
    intro blocks walked block member free offset found
    obtain rfl := Except.ok.inj (walked.symm.trans describes.walk_eq_ok)
    obtain ⟨cell, inCells, flag, rfl⟩ := Cell.exists_of_mem_blocks member
    have free : cell.allocated = false := free
    have next_eq : Block.next ⟨cell.offset, cell.tag flag⟩ = cell.next :=
      congrArg (cell.offset + ·) (Cell.size_tag (describes.tiles.bounds inCells).2.2 flag)
    have links := describes.links_eq described (describes.indexed cell inCells free)
    rw [next_eq] at found
    rcases List.mem_cons.mp found with rfl | found
    · exact (describes.footer_eq inCells free).trans (described.footer_eq inCells free).symm
    · rcases List.mem_cons.mp found with rfl | found
      · exact links.1
      · obtain rfl := List.mem_singleton.mp found
        exact links.2
  audit := describes.wellFormed.audit_passes.trans described.wellFormed.audit_passes.symm

/-! ### Histories without their writes -/

variable {call : Call} {reply : Reply}

/-- A write answers no pointer, so the client holds the same leases after it. -/
theorem settle_of_writes (writes : call.writes = true)
    (performed : call.perform before = .ok reply after) : call.settle reply leases = leases := by
  obtain ⟨pointer, start, values, rfl⟩ := Call.exists_of_writes writes
  obtain ⟨_, _, rfl⟩ := Action.bind_pure_eq_ok_iff.mp performed
  simp [Call.settle, Call.returned?, Reply.granted?, Except.toOption]

/-- A write leaves a chart alone. -/
theorem perform_of_writes (chart : Chart) (writes : call.writes = true) :
    (chart.perform call).2 = chart := by
  obtain ⟨pointer, start, values, rfl⟩ := Call.exists_of_writes writes
  rfl

end Chart

namespace History

variable {source : σ} {config : Config} {past : List (Call × Reply)}

/-- A history without its writes is a history too. It leaves its client with the same leases,
and one chart describes both heaps. -/
theorem exists_unwritten (history : History source config past heap leases) :
    ∃ (twin : Heap σ last) (chart : Chart),
      History source config (Call.unwritten past) twin leases ∧
        chart.Describes heap ∧ chart.Describes twin ∧ chart.Serves leases := by
  induction history with
  | begin created =>
    obtain ⟨chart, describes, serves⟩ := (History.begin created).exists_chart
    exact ⟨_, chart, .begin created, describes, describes, serves⟩
  | @step past before after leases call reply earlier permitted performed inductionHypothesis =>
    obtain ⟨twin, chart, unwritten, describes, described, serves⟩ := inductionHypothesis
    rw [Call.unwritten_concat]
    by_cases writes : call.writes = true
    -- At a write only the first heap moves, and its chart stays, so the twin stays in step.
    · have steps := (describes.yields_perform serves permitted).of_eq_ok performed
      rw [if_pos writes, Chart.settle_of_writes writes performed]
      refine ⟨twin, chart, unwritten, ?_, described, serves⟩
      exact Chart.perform_of_writes chart writes ▸ steps.described
    · rw [if_neg writes]
      obtain ⟨later, next, allowed, redone, rest⟩ :=
        describes.perform_twin described serves permitted performed
      exact ⟨later, next, .step unwritten allowed redone, rest⟩

/-- Payloads never influence the allocator. When two clients make the same calls apart from
writes, on the same source and with the same settings, they get the same replies, hold the same
leases, and cannot find any difference in what the allocator keeps. Every beginning of a history
is a history, so this holds after each call. -/
theorem writes_are_unobservable {σ : Type} [Source σ] {last : Nat} {source : σ} {config : Config}
    {past other : List (Call × Reply)} {heap twin : Heap σ last} {leases held : List Lease}
    (history : History source config past heap leases)
    (again : History source config other twin held)
    (same : (Call.unwritten past).map Prod.fst = (Call.unwritten other).map Prod.fst) :
    Call.unwritten past = Call.unwritten other ∧ leases = held ∧ heap.SameBooks twin := by
  obtain ⟨plain, chart, unwritten, describes, plainly, _⟩ := history.exists_unwritten
  obtain ⟨bare, design, rewritten, fits, barely, _⟩ := again.exists_unwritten
  obtain ⟨replies, rfl, rfl⟩ := rewritten.unique unwritten same
  exact ⟨replies, rfl, (describes.sameBooks plainly).trans (fits.sameBooks barely).symm⟩

end History

/-- A client that makes the calls of `moving`, but fills the whole block that is then moved, also
where a free block has its links and its footer. -/
def Session.scribbling (pointer : Pointer) : List Call :=
  [.allocateZeroed? 24, .write pointer 0 (List.replicate 8 7), .allocate 24,
    .write pointer 8 (List.replicate 16 9), .resize? (some pointer) 60]

/-- A heap that moves a block keeps the same books for two clients that write different bytes. -/
theorem History.writes_are_unobservable_moving :
    ∃ first second : Session Buffer 1,
      Session.replay? (Buffer.ofMaximum 512) ⟨32, 64, 48⟩ Session.moving = some first ∧
        Session.replay? (Buffer.ofMaximum 512) ⟨32, 64, 48⟩
          (Session.scribbling ⟨32, by decide⟩) = some second ∧
        first.leases = second.leases ∧ first.heap.SameBooks second.heap := by
  obtain ⟨first, replayed, _⟩ := Session.exists_replay_moving
  have permitted : (Session.replay? (Buffer.ofMaximum 512) ⟨32, 64, 48⟩
      (Session.scribbling ⟨32, by decide⟩) : Option (Session Buffer 1)).isSome = true := by
    decide +kernel
  obtain ⟨second, repeated⟩ := Option.isSome_iff_exists.mp permitted
  have same : (Call.unwritten first.past).map Prod.fst =
      (Call.unwritten second.past).map Prod.fst := by
    rw [Call.map_fst_unwritten, Call.map_fst_unwritten, Session.calls_of_replay? replayed,
      Session.calls_of_replay? repeated]
    rfl
  obtain ⟨_, held, books⟩ := History.writes_are_unobservable
    (Session.history_of_replay? replayed) (Session.history_of_replay? repeated) same
  exact ⟨first, second, replayed, repeated, held, books⟩

end SegregatedFit
