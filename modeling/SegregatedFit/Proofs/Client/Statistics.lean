/-
This file proves that the usage of a heap agrees with what happened to it. The walk through the
arena counts the live blocks of the client and their payloads, and as many free blocks as the lists
have nodes. The counted growths are those that the source granted, which a metered source records,
and the arena has as many bytes as the source handed out. No call lets these numbers fall, or lets
the arena grow twice.
-/

import SegregatedFit.Proofs.Client.Growth
import SegregatedFit.Proofs.Client.Ownership
import SegregatedFit.Proofs.Client.Resizing
import SegregatedFit.Proofs.Client.Sources
import SegregatedFit.Proofs.Heap.Usage
import SegregatedFit.Proofs.Source.Metered

namespace SegregatedFit

/-! ### Counting blocks -/

namespace Usage

variable {usage counted total : Usage} {block : Block} {blocks more : List Block}

/-- The sizes of the allocated blocks among some blocks. -/
def allocatedSizes (blocks : List Block) : List Nat :=
  (blocks.filter fun block => block.tag.allocated).map fun block => block.tag.size

theorem allocatedSizes_cons (block : Block) (rest : List Block) :
    allocatedSizes (block :: rest) =
      (if block.tag.allocated then [block.tag.size] else []) ++ allocatedSizes rest := by
  cases allocated : block.tag.allocated with
  | true => simp [allocatedSizes, allocated]
  | false => simp [allocatedSizes, allocated]

/-- What a usage gains when some blocks are counted. -/
structure Adds (usage : Usage) (blocks : List Block) (total : Usage) : Prop where
  heapSize : total.heapSize = usage.heapSize
  growths : total.growths = usage.growths
  allocatedBlocks : total.allocatedBlocks =
    usage.allocatedBlocks + (allocatedSizes blocks).length
  allocatedBytes : total.allocatedBytes = usage.allocatedBytes + (allocatedSizes blocks).sum
  freeBlocks : total.freeBlocks = usage.freeBlocks + Audit.freeCount blocks

/-- A counted block is one more among the allocated blocks or among the free ones. -/
theorem Adds.of_tally (tallied : usage.tally block = .ok counted)
    (adds : counted.Adds blocks total) : usage.Adds (block :: blocks) total := by
  obtain ⟨heapSize, growths, allocatedBlocks, allocatedBytes, freeBlocks⟩ := adds
  unfold tally at tallied
  cases kind : block.tag.allocated with
  | true =>
    rw [kind, if_pos rfl] at tallied
    obtain ⟨_, one, tallied⟩ := Fault.bind_eq_ok_iff.mp tallied
    obtain ⟨_, bytes, same⟩ := Fault.bind_eq_ok_iff.mp tallied
    obtain ⟨_, rfl⟩ := Word.add_eq_ok_iff.mp one
    obtain ⟨_, rfl⟩ := Word.add_eq_ok_iff.mp bytes
    cases same
    refine ⟨heapSize, growths, ?_, ?_, ?_⟩
    · rw [allocatedSizes_cons, kind, allocatedBlocks]
      simp only [if_true, List.length_append, List.length_singleton]
      omega
    · rw [allocatedSizes_cons, kind, allocatedBytes]
      simp only [if_true, List.sum_append_nat, List.sum_singleton]
      omega
    · rw [Audit.freeCount_cons, kind, if_pos rfl, Nat.zero_add]
      exact freeBlocks
  | false =>
    rw [kind, if_neg Bool.false_ne_true] at tallied
    obtain ⟨_, one, tallied⟩ := Fault.bind_eq_ok_iff.mp tallied
    obtain ⟨_, _, tallied⟩ := Fault.bind_eq_ok_iff.mp tallied
    obtain ⟨_, _, same⟩ := Fault.bind_eq_ok_iff.mp tallied
    obtain ⟨_, rfl⟩ := Word.add_eq_ok_iff.mp one
    cases same
    have unchanged : allocatedSizes (block :: blocks) = allocatedSizes blocks := by
      rw [allocatedSizes_cons, kind, if_neg Bool.false_ne_true, List.nil_append]
    refine ⟨heapSize, growths, unchanged ▸ allocatedBlocks, unchanged ▸ allocatedBytes, ?_⟩
    rw [Audit.freeCount_cons, kind, if_neg Bool.false_ne_true, ← Nat.add_assoc]
    exact freeBlocks

theorem adds_of_foldlM (folded : blocks.foldlM tally usage = .ok total) :
    usage.Adds blocks total := by
  induction blocks generalizing usage with
  | nil =>
    cases folded
    exact ⟨rfl, rfl, rfl, rfl, rfl⟩
  | cons block rest inductionHypothesis =>
    rw [List.foldlM_cons] at folded
    obtain ⟨counted, tallied, folded⟩ := Fault.bind_eq_ok_iff.mp folded
    exact (inductionHypothesis folded).of_tally tallied

end Usage

/-- The usage of a heap counts the blocks that a walk meets. -/
theorem Heap.adds_of_usage {σ : Type} [Source σ] {last : Nat} {heap : Heap σ last}
    {blocks : List Block} {usage : Usage} (walked : heap.arena.walk = .ok blocks)
    (measured : heap.usage = .ok usage) :
    (Usage.begin heap.size heap.arena.growths).Adds blocks usage := by
  obtain ⟨_, again, folded⟩ := Fault.bind_eq_ok_iff.mp measured
  obtain rfl := Except.ok.inj (walked.symm.trans again)
  exact Usage.adds_of_foldlM folded

/-! ### Counting cells -/

namespace Cell

variable {cells : List Cell} {prevAllocated : Bool}

/-- The allocated blocks of some cells have the sizes of the allocated cells. -/
theorem allocatedSizes_blocks (regular : ∀ cell ∈ cells, cell.Regular) (prevAllocated : Bool) :
    Usage.allocatedSizes (blocks prevAllocated cells) =
      (cells.filter fun cell => cell.allocated).map size := by
  induction cells generalizing prevAllocated with
  | nil => rfl
  | cons cell rest inductionHypothesis =>
    obtain ⟨here, later⟩ := List.forall_mem_cons.mp regular
    rw [blocks, Usage.allocatedSizes_cons, inductionHypothesis later, allocated_tag]
    cases kind : cell.allocated with
    | true => simp [kind, size_tag here]
    | false => simp [kind]

/-- Where no two free cells are adjacent, there is at most one free cell more than there are
allocated ones. -/
theorem Separated.freeCount_le (separated : Separated prevAllocated cells) :
    Audit.freeCount (blocks prevAllocated cells) ≤
      (cells.filter fun cell => cell.allocated).length + if prevAllocated then 1 else 0 := by
  induction cells generalizing prevAllocated with
  | nil => exact Nat.zero_le _
  | cons cell rest inductionHypothesis =>
    obtain ⟨here, later⟩ := separated
    have others := inductionHypothesis later
    rw [blocks, Audit.freeCount_cons, allocated_tag, List.filter_cons]
    cases kind : cell.allocated with
    | true =>
      rw [kind, if_pos rfl] at others
      simp only [if_true, List.length_cons]
      omega
    | false =>
      rw [kind, if_neg Bool.false_ne_true] at others
      obtain rfl : prevAllocated = true := here.resolve_right (by simp [kind])
      simp only [Bool.false_eq_true, if_false, if_true]
      omega

end Cell

/-! ### Counting leases -/

/-- Where every element has an answer, all of them together have one. -/
theorem Fault.mapM_eq_ok {Element Value : Type} {elements : List Element}
    {read : Element → Except Fault Value} {value : Element → Value}
    (each : ∀ element ∈ elements, read element = .ok (value element)) :
    elements.mapM read = .ok (elements.map value) := by
  induction elements with
  | nil => rfl
  | cons element rest inductionHypothesis =>
    obtain ⟨here, later⟩ := List.forall_mem_cons.mp each
    rw [List.mapM_cons, here, inductionHypothesis later]
    rfl

namespace Chart

variable {σ : Type} [Source σ] {last : Nat} {chart : Chart} {heap : Heap σ last}
variable {leases : List Lease}

/-- The leases lie where the owned cells do, each of them once. -/
theorem Describes.perm_leases (describes : chart.Describes heap) (serves : chart.Serves leases) :
    (leases.map (·.pointer.offset)).Perm
      ((chart.cells.filter fun cell => cell.allocated).map Cell.offset) := by
  have distinct : ((chart.cells.filter fun cell => cell.allocated).map Cell.offset).Nodup :=
    describes.tiles.nodup.sublist (List.filter_sublist.map _)
  have leased := (describes.heldBy serves).distinct
  refine (List.perm_ext_iff_of_nodup leased distinct).mpr fun offset => ?_
  rw [List.mem_map, List.mem_map]
  constructor
  · rintro ⟨lease, live, rfl⟩
    obtain ⟨cell, owns, place, _⟩ := serves.backed lease live
    exact ⟨cell, List.mem_filter.mpr owns, place⟩
  · rintro ⟨cell, member, rfl⟩
    exact serves.complete cell (List.mem_filter.mp member)

theorem Describes.sizeAt_eq {cell : Cell} (describes : chart.Describes heap)
    (member : cell ∈ chart.cells) : heap.arena.sizeAt cell.offset = cell.size := by
  obtain ⟨flag, shown⟩ := Heap.Opened.exists_shows describes.closed
    (List.mem_append_right [] member)
  rw [Arena.sizeAt, shown.header]
  exact Cell.size_tag (describes.tiles.bounds member).2.2 flag

/-- The payloads of all leases can be measured. With their headers they are the owned cells. -/
theorem Describes.exists_usables (describes : chart.Describes heap)
    (serves : chart.Serves leases) :
    ∃ usables, leases.mapM (heap.usableSize ·.pointer) = .ok usables ∧
      (usables.map (· + 8)).sum =
        ((chart.cells.filter fun cell => cell.allocated).map Cell.size).sum := by
  have measured : ∀ lease ∈ leases, heap.usableSize lease.pointer =
      .ok (heap.arena.sizeAt lease.pointer.offset - 8) ∧
        8 ≤ heap.arena.sizeAt lease.pointer.offset := by
    intro lease live
    obtain ⟨cell, owns, place, _⟩ := serves.backed lease live
    have large := (describes.tiles.bounds owns.1).2.2.2
    rw [← place, describes.sizeAt_eq owns.1]
    exact ⟨describes.usableSize_eq_ok owns.1 lease.pointer place.symm, by omega⟩
  have sizes : (chart.cells.filter fun cell => cell.allocated).map Cell.size =
      ((chart.cells.filter fun cell => cell.allocated).map Cell.offset).map heap.arena.sizeAt := by
    rw [List.map_map]
    exact List.map_congr_left fun cell member =>
      (describes.sizeAt_eq (List.mem_of_mem_filter member)).symm
  refine ⟨leases.map fun lease => heap.arena.sizeAt lease.pointer.offset - 8, ?_, ?_⟩
  · exact Fault.mapM_eq_ok fun lease live => (measured lease live).1
  · rw [sizes, ← ((describes.perm_leases serves).map heap.arena.sizeAt).sum_nat, List.map_map,
      List.map_map]
    refine congrArg List.sum (List.map_congr_left fun lease live => ?_)
    exact Nat.sub_add_cancel (measured lease live).2

end Chart

/-! ### The accounts of a heap -/

/-- Whether a usage agrees with the leases of a client, with the lists of the heap, and with the
growths that its source granted. -/
structure Heap.Accounts {σ : Type} [Source σ] {last : Nat} (heap : Heap σ last)
    (leases : List Lease) (granted : List Nat) (usage : Usage) : Prop where
  allocatedBlocks : usage.allocatedBlocks = leases.length
  allocatedBytes : ∃ usables, leases.mapM (heap.usableSize ·.pointer) = .ok usables ∧
    usage.allocatedBytes = (usables.map (· + 8)).sum
  freeBlocks : heap.index.length = .ok usage.freeBlocks
  fewFree : usage.freeBlocks ≤ usage.allocatedBlocks + 1
  filled : usage.allocatedBytes + usage.freeBytes + 32 = usage.heapSize
  growths : usage.growths = granted.length
  heapSize : usage.heapSize = 32 + granted.sum

/-- The calls that make do with the memory that a heap has: they release a block, or ask for a
block that is not larger than the one they name. -/
inductive Call.Frugal {σ : Type} [Source σ] {last : Nat} (heap : Heap σ last) : Call → Prop
  | release (pointer : Pointer) : Frugal heap (.release pointer)
  | resizeToNothing (pointer : Option Pointer) : Frugal heap (.resize? pointer 0)
  | shrink {pointer : Pointer} {request size : Nat} {tag : Tag}
      (needed : blockSize? request = some size)
      (header : heap.arena.header pointer.offset = .ok tag) (fits : size ≤ tag.size) :
    Frugal heap (.resize? (some pointer) request)

/-- The usage of a described heap agrees with the leases when its source granted what it
counted. -/
theorem Chart.Describes.exists_accounts {σ : Type} [Source σ] {last : Nat} {chart : Chart}
    {heap : Heap σ last} {leases : List Lease} {granted : List Nat}
    (describes : chart.Describes heap) (serves : chart.Serves leases)
    (size : heap.size = 32 + granted.sum) (counted : heap.arena.growths = granted.length) :
    ∃ usage, heap.usage = .ok usage ∧ heap.Accounts leases granted usage := by
  obtain ⟨usage, measured, reaches⟩ := Heap.exists_usage describes.laidOut
  obtain ⟨heapSize, growths, allocatedBlocks, allocatedBytes, freeBlocks⟩ :=
    Heap.adds_of_usage describes.walk_eq_ok measured
  obtain ⟨usables, usable, sum⟩ := describes.exists_usables serves
  have owned : leases.length = (chart.cells.filter fun cell => cell.allocated).length := by
    have lengths := (describes.perm_leases serves).length_eq
    rwa [List.length_map, List.length_map] at lengths
  have sizes := Cell.allocatedSizes_blocks
    (fun cell member => (describes.tiles.bounds member).2.2) true
  have listed := (describes.holds.credible describes.laidOut).length_eq_ok describes.laidOut
  have few := describes.separated.freeCount_le
  rw [sizes, List.length_map] at allocatedBlocks
  rw [sizes] at allocatedBytes
  simp only [Usage.begin, Nat.zero_add]
    at heapSize growths allocatedBlocks allocatedBytes freeBlocks
  refine ⟨usage, measured, allocatedBlocks.trans owned.symm, ⟨usables, usable, ?_⟩, ?_, ?_, ?_,
    growths.trans counted, heapSize.trans size⟩
  · rw [allocatedBytes, sum]
  · rw [freeBlocks]
    exact listed
  · rw [freeBlocks, allocatedBlocks]
    exact few
  · rw [heapSize]
    exact reaches.filled

/-- A frugal call does not let a chart grow. -/
theorem Chart.Describes.setting_of_frugal {σ : Type} [Source σ] {last : Nat} {chart : Chart}
    {heap : Heap σ last} {call : Call} (describes : chart.Describes heap)
    (frugal : call.Frugal heap) : (chart.perform call).2.setting = chart.setting := by
  cases frugal with
  | release pointer =>
    simp only [Chart.perform]
    split <;> rfl
  | resizeToNothing pointer =>
    cases pointer with
    | none => rfl
    | some pointer =>
      simp only [Chart.perform, if_true]
      split <;> rfl
  | @shrink pointer request size tag needed header fits =>
    obtain ⟨seeks, _⟩ := blockSize?_eq_some_iff.mp needed
    simp only [Chart.perform, if_neg (Nat.ne_of_gt seeks)]
    split
    · rfl
    · rename_i cell found
      have place : cell.offset = pointer.offset := by simpa using List.find?_some found
      have size_eq : tag.size = cell.size := by
        rw [← describes.sizeAt_eq (List.mem_of_find?_eq_some found), place, Arena.sizeAt,
          Arena.header_eq_ok_iff.mp header]
        rfl
      rw [Chart.resize_of_fits needed (size_eq ▸ fits), Chart.setting_trim]

/-! ### What the source granted -/

namespace History

variable {σ : Type} [Source σ] {last : Nat} {source : σ} {config : Config}
variable {past : List (Call × Reply)} {heap : Heap σ last} {leases : List Lease}

/-- A source grants the bytes of the sentinels first, and then every growth that is counted. -/
theorem exists_grants (history : History source config past heap leases) :
    Source.size source = 0 ∧ ∃ granted,
      Source.Grants source (32 :: granted) heap.arena.source ∧
        heap.arena.growths = granted.length := by
  induction history with
  | begin created =>
    obtain ⟨arena, settings, begun, progresses⟩ := Chart.exists_progresses_of_create created
    obtain ⟨granted, develops⟩ := progresses.develops
    obtain ⟨empty, sentinels, uncounted⟩ := Arena.grants_of_init begun
    refine ⟨empty, granted, sentinels.trans develops.grants, ?_⟩
    rw [develops.counts, uncounted, Nat.zero_add]
  | step earlier permitted performed inductionHypothesis =>
    obtain ⟨empty, granted, grants, counted⟩ := inductionHypothesis
    obtain ⟨chart, describes, serves⟩ := earlier.exists_chart
    obtain ⟨more, develops⟩ :=
      ((describes.yields_perform serves permitted).progresses performed).develops
    refine ⟨empty, granted ++ more, grants.trans develops.grants, ?_⟩
    rw [develops.counts, counted, List.length_append]

/-- A history can be repeated on a metered source, whose record tells how the arena grew. -/
theorem exists_metered (history : History source config past heap leases) :
    ∃ (twin : Heap (Metered σ) last) (granted : List Nat),
      History (Metered.mk source []) config past twin leases ∧ heap.Alike twin ∧
        twin.arena.source.granted = 32 :: granted ∧ heap.arena.growths = granted.length ∧
        heap.size = 32 + granted.sum := by
  obtain ⟨twin, repeated, alike⟩ := history.exists_alike (Metered.alike source [])
  obtain ⟨empty, granted, grants, counted⟩ := repeated.exists_grants
  refine ⟨twin, granted, repeated, alike, Metered.granted_eq grants,
    alike.arena.growths.trans counted, ?_⟩
  have size_eq := grants.size_eq
  rw [empty, Nat.zero_add, List.sum_cons] at size_eq
  exact alike.arena.size.trans size_eq

/-- At every moment of a history the usage of the heap agrees with what happened before. The
allocated blocks are the leased ones, each with its payload and its header; the free blocks are
those in the lists, at most one more than the allocated ones; together they fill the arena behind
the sentinels. The same history on a metered source tells the growths that the source granted, which
are as many as the heap counted, and fill the arena too. A permitted call never lets the arena
shrink, lets it grow at most once, and not at all if it is frugal. -/
theorem statistics_agree (history : History source config past heap leases) :
    ∃ (twin : Heap (Metered σ) last) (granted : List Nat) (usage : Usage),
      History (Metered.mk source []) config past twin leases ∧ heap.Alike twin ∧
        twin.arena.source.granted = 32 :: granted ∧
        heap.usage = .ok usage ∧ heap.Accounts leases granted usage ∧
        ∀ call : Call, call.Permitted heap leases → ∃ reply after later,
          call.perform heap = .ok reply after ∧ after.usage = .ok later ∧
            usage.heapSize ≤ later.heapSize ∧ usage.growths ≤ later.growths ∧
            later.growths ≤ usage.growths + 1 ∧
            (call.Frugal heap → later.growths = usage.growths) := by
  obtain ⟨twin, granted, repeated, alike, recorded, counted, size⟩ := history.exists_metered
  obtain ⟨chart, describes, serves⟩ := history.exists_chart
  obtain ⟨usage, measured, accounts⟩ := describes.exists_accounts serves size counted
  refine ⟨twin, granted, usage, repeated, alike, recorded, measured, accounts,
    fun call permitted => ?_⟩
  obtain ⟨reply, after, performed, _, steps⟩ := describes.yields_perform serves permitted
  obtain ⟨later, remeasured, _⟩ := Heap.exists_usage steps.described.laidOut
  have before := Heap.adds_of_usage describes.walk_eq_ok measured
  have behind := Heap.adds_of_usage steps.described.walk_eq_ok remeasured
  have grows := chart.growsTo_perform call
  have heapSizes : usage.heapSize = chart.setting.size ∧
      later.heapSize = (chart.perform call).2.setting.size :=
    ⟨before.heapSize.trans describes.size_eq, behind.heapSize.trans steps.described.size_eq⟩
  have growths : usage.growths = chart.setting.growths ∧
      later.growths = (chart.perform call).2.setting.growths :=
    ⟨before.growths.trans describes.growths_eq, behind.growths.trans steps.described.growths_eq⟩
  refine ⟨reply, after, later, performed, remeasured, ?_⟩
  rw [heapSizes.1, heapSizes.2, growths.1, growths.2]
  exact ⟨grows.size_le, grows.growths_le.1, grows.growths_le.2, fun frugal =>
    congrArg Setting.growths (describes.setting_of_frugal frugal)⟩

/-- A client has moved a block, for which the source granted a second growth. Then it releases the
block, for which it grants none. -/
theorem statistics_agree_moving :
    ∃ (session : Session Buffer 1) (granted : List Nat) (usage : Usage) (reply : Reply)
      (after : Heap Buffer 1) (later : Usage),
      Session.replay? (Buffer.ofMaximum 512) ⟨32, 64, 48⟩ Session.moving = some session ∧
        session.leases = [⟨⟨96, by decide⟩, 60⟩, ⟨⟨64, by decide⟩, 24⟩] ∧
        session.heap.usage = .ok usage ∧ session.heap.Accounts session.leases granted usage ∧
        granted.length = 2 ∧ granted.sum = 144 ∧
        Call.perform (.release ⟨96, by decide⟩) session.heap = .ok reply after ∧
        after.usage = .ok later ∧ later.growths = 2 := by
  have answered : (Session.replay? (Buffer.ofMaximum 512) ⟨32, 64, 48⟩ Session.moving :
      Option (Session Buffer 1)).map (fun session => (session.leases,
        session.heap.usage.toOption.map fun usage => (usage.growths, usage.heapSize))) =
          some ([⟨⟨96, by decide⟩, 60⟩, ⟨⟨64, by decide⟩, 24⟩], some (2, 176)) := by
    decide +kernel
  obtain ⟨session, replayed, both⟩ := Option.map_eq_some_iff.mp answered
  obtain ⟨leases, counters⟩ := Prod.mk.inj both
  obtain ⟨_, granted, usage, _, _, _, measured, accounts, calls⟩ :=
    statistics_agree (Session.history_of_replay? replayed)
  rw [measured] at counters
  obtain ⟨growths, heapSize⟩ := Prod.mk.inj (Option.some.inj counters)
  have permitted : Call.Permitted (.release ⟨96, by decide⟩) session.heap session.leases := by
    refine ⟨fun pointer named => ?_, trivial⟩
    cases named
    rw [leases]
    exact List.mem_cons_self
  obtain ⟨reply, after, later, performed, remeasured, _, _, _, frugal⟩ := calls _ permitted
  have longer := accounts.growths
  have larger := accounts.heapSize
  exact ⟨session, granted, usage, reply, after, later, replayed, leases, measured, accounts,
    by omega, by omega, performed, remeasured, (frugal (.release _)).trans growths⟩

end History

end SegregatedFit
