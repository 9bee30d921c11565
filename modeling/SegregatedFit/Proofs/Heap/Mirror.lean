/-
This file compares heaps over different sources. Heaps are alike when their arenas are, and when
they have the same index and the same settings. Every operation does the same to heaps that are
alike, whatever state they are in, so the choice of the source decides nothing.
-/

import SegregatedFit.Heap.Payload
import SegregatedFit.Heap.Resize
import SegregatedFit.Proofs.Source.Mirror

namespace SegregatedFit

variable {σ τ : Type} [Source σ] [Source τ]

/-! ### Free lists and the index -/

namespace FreeList

variable {first : Arena σ} {second : Arena τ}

theorem seek_alike (alike : first.Alike second) (size budget : Nat)
    (previous current : Option Nat) :
    seek first size budget previous current = seek second size budget previous current := by
  induction budget generalizing previous current with
  | zero => cases current <;> rfl
  | succ budget inductionHypothesis =>
    cases current with
    | none => rfl
    | some node =>
      simp only [seek, alike.header, alike.nextLink, inductionHypothesis]

theorem firstFit_alike (alike : first.Alike second) (size budget : Nat) (current : Option Nat) :
    firstFit first size budget current = firstFit second size budget current := by
  induction budget generalizing current with
  | zero => cases current <;> rfl
  | succ budget inductionHypothesis =>
    cases current with
    | none => rfl
    | some node =>
      simp only [firstFit, alike.header, alike.nextLink, inductionHypothesis]

theorem find_alike (alike : first.Alike second) (list : FreeList) (size : Nat) :
    list.find first size = list.find second size := by
  unfold find
  rw [alike.size, firstFit_alike alike]

theorem mirrors_insert (list : FreeList) (block : Nat) :
    Arena.Mirrors σ τ (list.insert block) (list.insert block) := by
  refine (Action.mirrors_inspect fun _ _ alike => alike.header _).bind fun tag => ?_
  refine (Action.mirrors_inspect fun _ _ alike => ?_).bind fun place => ?_
  · rw [alike.size, seek_alike alike]
  · exact (Arena.mirrors_setWord _ _).bind fun _ => (Arena.mirrors_setNextLink _ _).bind fun _ =>
      (Arena.mirrors_setNextLinkOf _ _).bind fun _ =>
        (Arena.mirrors_setPreviousLinkOf _ _).bind fun _ =>
          (Action.mirrors_lift _).bind fun _ => Action.mirrors_pure _

theorem mirrors_remove (list : FreeList) (block : Nat) :
    Arena.Mirrors σ τ (list.remove block) (list.remove block) :=
  (Action.mirrors_inspect fun _ _ alike => alike.previousLink _).bind fun _ =>
    (Action.mirrors_inspect fun _ _ alike => alike.nextLink _).bind fun _ =>
      (Arena.mirrors_setNextLinkOf _ _).bind fun _ =>
        (Arena.mirrors_setPreviousLinkOf _ _).bind fun _ =>
          (Action.mirrors_lift _).bind fun _ => Action.mirrors_pure _

end FreeList

namespace Index

variable {last : Nat}

theorem find_alike {first : Arena σ} {second : Arena τ} (alike : first.Alike second)
    (index : Index last) (size : Nat) : index.find first size = index.find second size := by
  unfold find
  simp only [FreeList.find_alike alike]

theorem mirrors_insert (index : Index last) (block : Nat) :
    Arena.Mirrors σ τ (index.insert block) (index.insert block) :=
  (Action.mirrors_inspect fun _ _ alike => alike.header _).bind fun _ =>
    (FreeList.mirrors_insert _ _).bind fun _ => Action.mirrors_pure _

theorem mirrors_remove (index : Index last) (block : Nat) :
    Arena.Mirrors σ τ (index.remove block) (index.remove block) :=
  (Action.mirrors_inspect fun _ _ alike => alike.header _).bind fun _ =>
    (FreeList.mirrors_remove _ _).bind fun _ => Action.mirrors_pure _

end Index

namespace Heap

variable {last : Nat} {Answer : Type}

/-- Whether two heaps over alike arenas have the same index and the same settings. -/
structure Alike (first : Heap σ last) (second : Heap τ last) : Prop where
  arena : first.arena.Alike second.arena
  index : first.index = second.index
  config : first.config = second.config

/-- Whether two actions do the same to heaps that are alike. -/
abbrev Mirrors (σ τ : Type) [Source σ] [Source τ] (last : Nat) {Answer : Type}
    (action : Action (Heap σ last) Answer) (other : Action (Heap τ last) Answer) : Prop :=
  Action.Mirrors Alike action other

theorem mirrors_inspectArena {read : Arena σ → Except Fault Answer}
    {view : Arena τ → Except Fault Answer}
    (same : ∀ first second, Arena.Alike first second → read first = view second) :
    Mirrors σ τ last (inspectArena read) (inspectArena view) :=
  Action.mirrors_inspect fun _ _ alike => same _ _ alike.arena

theorem mirrors_onArena {action : Action (Arena σ) Answer} {other : Action (Arena τ) Answer}
    (mirrors : Arena.Mirrors σ τ action other) :
    Mirrors σ τ last (onArena action) (onArena other) := by
  intro before twin alike
  have ends := mirrors _ _ alike.arena
  unfold onArena
  simp only
  generalize action before.arena = outcome, other twin.arena = result at ends
  cases ends with
  | ok arenas => exact .ok ⟨arenas, alike.index, alike.config⟩
  | error arenas => exact .error ⟨arenas, alike.index, alike.config⟩

theorem mirrors_onIndex {action : Index last → Action (Arena σ) (Index last)}
    {other : Index last → Action (Arena τ) (Index last)}
    (mirrors : ∀ index, Arena.Mirrors σ τ (action index) (other index)) :
    Mirrors σ τ last (onIndex action) (onIndex other) := by
  intro before twin alike
  have ends := mirrors before.index _ _ alike.arena
  unfold onIndex
  simp only
  rw [alike.index] at ends ⊢
  generalize action twin.index before.arena = outcome, other twin.index twin.arena = result at ends
  cases ends with
  | ok arenas => exact .ok ⟨arenas, rfl, alike.config⟩
  | error arenas => exact .error ⟨arenas, rfl, alike.config⟩

theorem mirrors_indexBlock (block : Nat) :
    Mirrors σ τ last (indexBlock block) (indexBlock block) :=
  mirrors_onIndex fun index => index.mirrors_insert block

theorem mirrors_unindexBlock (block : Nat) :
    Mirrors σ τ last (unindexBlock block) (unindexBlock block) :=
  mirrors_onIndex fun index => index.mirrors_remove block

/-! ### Merging and growth -/

theorem mirrors_mergeRange (block size : Nat) (prevAllocated : Bool) :
    Mirrors σ τ last (mergeRange block size prevAllocated) (mergeRange block size prevAllocated) :=
  (mirrors_onArena (Arena.mirrors_setFreeTags _ _ _)).bind fun _ =>
    (mirrors_indexBlock _).bind fun _ => Action.mirrors_pure _

theorem mirrors_coalesce (block : Nat) : Mirrors σ τ last (coalesce block) (coalesce block) := by
  refine (mirrors_inspectArena fun _ _ alike => alike.header _).bind fun tag => ?_
  refine (mirrors_inspectArena fun _ _ alike => alike.nextBlock _).bind fun next => ?_
  refine (mirrors_inspectArena fun _ _ alike => alike.header _).bind fun nextTag => ?_
  cases tag.prevAllocated with
  | true =>
    cases nextTag.allocated with
    | true => exact Action.mirrors_pure _
    | false =>
      exact (mirrors_unindexBlock _).bind fun _ => (mirrors_unindexBlock _).bind fun _ =>
        (Action.mirrors_lift _).bind fun _ => mirrors_mergeRange _ _ _
  | false =>
    cases nextTag.allocated with
    | true =>
      exact (mirrors_inspectArena fun _ _ alike => alike.previousBlock _).bind fun _ =>
        (mirrors_inspectArena fun _ _ alike => alike.header _).bind fun _ =>
          (mirrors_unindexBlock _).bind fun _ => (mirrors_unindexBlock _).bind fun _ =>
            (Action.mirrors_lift _).bind fun _ => mirrors_mergeRange _ _ _
    | false =>
      exact (mirrors_inspectArena fun _ _ alike => alike.previousBlock _).bind fun _ =>
        (mirrors_inspectArena fun _ _ alike => alike.header _).bind fun _ =>
          (mirrors_unindexBlock _).bind fun _ => (mirrors_unindexBlock _).bind fun _ =>
            (mirrors_unindexBlock _).bind fun _ => (Action.mirrors_lift _).bind fun _ =>
              (Action.mirrors_lift _).bind fun _ => mirrors_mergeRange _ _ _

theorem mirrors_extend (size : Nat) : Mirrors σ τ last (extend size) (extend size) := by
  refine (Action.mirrors_look fun _ _ alike => by rw [alike.config]).bind fun chunkSize => ?_
  cases alignUp? (max size chunkSize) with
  | none =>
    exact (Action.mirrors_look fun _ _ alike => alike.arena.remaining).bind fun _ =>
      Action.mirrors_pure _
  | some growth =>
    refine (mirrors_onArena (Arena.mirrors_grow growth)).bind fun outcome => ?_
    cases outcome with
    | error refusal => exact Action.mirrors_pure _
    | ok block =>
      exact (mirrors_indexBlock _).bind fun _ => (mirrors_coalesce _).bind fun _ =>
        Action.mirrors_pure _

/-! ### Allocation -/

theorem mirrors_placeWhole (block : Nat) (tag : Tag) :
    Mirrors σ τ last (placeWhole block tag) (placeWhole block tag) :=
  (mirrors_onArena (Arena.mirrors_setAllocatedTag _ _ _)).bind fun _ =>
    (mirrors_onArena (Arena.mirrors_setNextPrevAllocated _ _)).bind fun _ => Action.mirrors_pure _

theorem mirrors_placeLow (block size : Nat) (tag : Tag) (leftover : Nat) :
    Mirrors σ τ last (placeLow block size tag leftover) (placeLow block size tag leftover) :=
  (mirrors_onArena (Arena.mirrors_setAllocatedTag _ _ _)).bind fun _ =>
    (Action.mirrors_lift _).bind fun _ => (mirrors_onArena (Arena.mirrors_setFreeTags _ _ _)).bind
      fun _ => (mirrors_indexBlock _).bind fun _ => Action.mirrors_pure _

theorem mirrors_placeHigh (block size : Nat) (tag : Tag) (leftover : Nat) :
    Mirrors σ τ last (placeHigh block size tag leftover) (placeHigh block size tag leftover) :=
  (mirrors_onArena (Arena.mirrors_setFreeTags _ _ _)).bind fun _ =>
    (mirrors_indexBlock _).bind fun _ => (Action.mirrors_lift _).bind fun _ =>
      (Action.mirrors_lift _).bind fun _ =>
        (mirrors_onArena (Arena.mirrors_setAllocatedTag _ _ _)).bind fun _ =>
          (mirrors_onArena (Arena.mirrors_setNextPrevAllocated _ _)).bind fun _ =>
            Action.mirrors_pure _

theorem mirrors_place (block size : Nat) :
    Mirrors σ τ last (place block size) (place block size) := by
  refine (mirrors_inspectArena fun _ _ alike => alike.header _).bind fun tag => ?_
  refine (Action.mirrors_look fun _ _ alike => by rw [alike.config]).bind fun threshold => ?_
  refine (mirrors_unindexBlock _).bind fun _ => (Action.mirrors_lift _).bind fun leftover => ?_
  split
  · exact mirrors_placeWhole _ _
  · split
    · exact mirrors_placeLow _ _ _ _
    · exact mirrors_placeHigh _ _ _ _

theorem mirrors_findOrExtend (size : Nat) :
    Mirrors σ τ last (findOrExtend size) (findOrExtend size) := by
  refine (Action.mirrors_inspect fun _ _ alike => ?_).bind fun found => ?_
  · rw [alike.index, Index.find_alike alike.arena]
  · cases found with
    | some block => exact Action.mirrors_pure _
    | none => exact mirrors_extend size

theorem mirrors_allocate (request : Nat) :
    Mirrors σ τ last (allocate request) (allocate request) := by
  unfold allocate
  split
  · exact Action.mirrors_pure _
  · cases blockSize? request with
    | none =>
      exact (Action.mirrors_look fun _ _ alike => alike.arena.remaining).bind fun _ =>
        Action.mirrors_pure _
    | some size =>
      refine (mirrors_findOrExtend size).bind fun outcome => ?_
      cases outcome with
      | error refusal => exact Action.mirrors_pure _
      | ok block =>
        exact (mirrors_place _ _).bind fun _ => (Action.mirrors_lift _).bind fun _ =>
          Action.mirrors_pure _

theorem mirrors_allocate? (request : Nat) :
    Mirrors σ τ last (allocate? request) (allocate? request) :=
  (mirrors_allocate request).bind fun _ => Action.mirrors_pure _

/-! ### Release and resize -/

theorem mirrors_release (pointer : Pointer) :
    Mirrors σ τ last (release pointer) (release pointer) :=
  (mirrors_inspectArena fun _ _ alike => alike.header _).bind fun _ =>
    (mirrors_onArena (Arena.mirrors_setFreeTags _ _ _)).bind fun _ =>
      (mirrors_onArena (Arena.mirrors_setNextPrevAllocated _ _)).bind fun _ =>
        (mirrors_indexBlock _).bind fun _ => (mirrors_coalesce _).bind fun _ =>
          Action.mirrors_pure _

theorem mirrors_setBlockSize (block size : Nat) :
    Mirrors σ τ last (setBlockSize block size) (setBlockSize block size) :=
  (mirrors_inspectArena fun _ _ alike => alike.header _).bind fun _ =>
    mirrors_onArena (Arena.mirrors_setAllocatedTag _ _ _)

theorem mirrors_trim (block size newSize : Nat) :
    Mirrors σ τ last (trim block size newSize) (trim block size newSize) := by
  refine (Action.mirrors_lift _).bind fun leftover => ?_
  split
  · exact (mirrors_setBlockSize _ _).bind fun _ => (Action.mirrors_lift _).bind fun _ =>
      (mirrors_onArena (Arena.mirrors_setFreeTags _ _ _)).bind fun _ =>
        (mirrors_onArena (Arena.mirrors_setNextPrevAllocated _ _)).bind fun _ =>
          (mirrors_indexBlock _).bind fun _ => (mirrors_coalesce _).bind fun _ =>
            Action.mirrors_pure _
  · exact Action.mirrors_pure _

theorem mirrors_reserveAfter (block size newSize : Nat) :
    Mirrors σ τ last (reserveAfter block size newSize) (reserveAfter block size newSize) := by
  have ends (available behind : Nat) : Mirrors σ τ last
      (do
        if newSize ≤ available then return true
        else if behind = (← Action.look (·.arena.epilogue)) then
          return (← extend (← Word.sub newSize available)).isOk
        else return false)
      (do
        if newSize ≤ available then return true
        else if behind = (← Action.look (·.arena.epilogue)) then
          return (← extend (← Word.sub newSize available)).isOk
        else return false) := by
    split
    · exact Action.mirrors_pure _
    · refine (Action.mirrors_look fun _ _ alike => alike.arena.size).bind fun epilogue => ?_
      split
      · exact (Action.mirrors_lift _).bind fun _ => (mirrors_extend _).bind fun _ =>
          Action.mirrors_pure _
      · exact Action.mirrors_pure _
  refine (mirrors_inspectArena fun _ _ alike => alike.nextBlock _).bind fun next => ?_
  refine (mirrors_inspectArena fun _ _ alike => alike.header _).bind fun nextTag => ?_
  cases nextTag.allocated with
  | true =>
    exact (Action.mirrors_pure _).bind fun _ => (Action.mirrors_pure _).bind fun _ => ends _ _
  | false =>
    exact (Action.mirrors_lift _).bind fun _ =>
      (mirrors_inspectArena fun _ _ alike => alike.nextBlock _).bind fun _ => ends _ _

theorem mirrors_absorbNext (block size : Nat) :
    Mirrors σ τ last (absorbNext block size) (absorbNext block size) :=
  (mirrors_inspectArena fun _ _ alike => alike.nextBlock _).bind fun _ =>
    (mirrors_inspectArena fun _ _ alike => alike.header _).bind fun _ =>
      (mirrors_unindexBlock _).bind fun _ => (Action.mirrors_lift _).bind fun _ =>
        (mirrors_onArena (Arena.mirrors_setNextPrevAllocated _ _)).bind fun _ =>
          (mirrors_setBlockSize _ _).bind fun _ => Action.mirrors_pure _

theorem mirrors_growInPlace (block size newSize : Nat) :
    Mirrors σ τ last (growInPlace block size newSize) (growInPlace block size newSize) := by
  refine (mirrors_reserveAfter _ _ _).bind fun reserved => ?_
  cases reserved with
  | true =>
    exact (mirrors_absorbNext _ _).bind fun _ => (mirrors_trim _ _ _).bind fun _ =>
      Action.mirrors_pure _
  | false => exact Action.mirrors_pure _

theorem mirrors_relocate (pointer : Pointer) (size request : Nat) :
    Mirrors σ τ last (relocate pointer size request) (relocate pointer size request) := by
  refine (mirrors_allocate? request).bind fun granted => ?_
  cases granted with
  | none => exact Action.mirrors_pure _
  | some target =>
    exact (Action.mirrors_lift _).bind fun _ => (mirrors_onArena (Arena.mirrors_copy _ _ _)).bind
      fun _ => (mirrors_release _).bind fun _ => Action.mirrors_pure _

theorem mirrors_resizeBlock? (pointer : Pointer) (request : Nat) :
    Mirrors σ τ last (resizeBlock? pointer request) (resizeBlock? pointer request) := by
  refine (mirrors_inspectArena fun _ _ alike => alike.header _).bind fun tag => ?_
  cases blockSize? request with
  | none => exact Action.mirrors_pure _
  | some newSize =>
    simp only
    split
    · exact (mirrors_trim _ _ _).bind fun _ => Action.mirrors_pure _
    · refine (mirrors_growInPlace _ _ _).bind fun grown => ?_
      cases grown with
      | true => exact Action.mirrors_pure _
      | false => exact mirrors_relocate _ _ _

theorem mirrors_resize? (pointer : Option Pointer) (request : Nat) :
    Mirrors σ τ last (resize? pointer request) (resize? pointer request) := by
  cases pointer with
  | none => exact mirrors_allocate? request
  | some pointer =>
    unfold resize?
    simp only
    split
    · exact (mirrors_release _).bind fun _ => Action.mirrors_pure _
    · exact mirrors_resizeBlock? _ _

/-! ### Payloads -/

variable {first : Heap σ last} {second : Heap τ last}

theorem Alike.usableSize (alike : first.Alike second) (pointer : Pointer) :
    first.usableSize pointer = second.usableSize pointer := by
  unfold Heap.usableSize
  rw [alike.arena.header]

theorem Alike.payload (alike : first.Alike second) (pointer : Pointer) :
    first.payload pointer = second.payload pointer := by
  unfold Heap.payload
  simp only [alike.usableSize, alike.arena.bytes]

theorem mirrors_writePayload (pointer : Pointer) (start : Nat) (values : List UInt8) :
    Mirrors σ τ last (writePayload pointer start values) (writePayload pointer start values) := by
  refine (Action.mirrors_inspect fun _ _ alike => alike.usableSize _).bind fun usable => ?_
  refine (Action.mirrors_look fun _ _ alike => alike.arena.size).bind fun arenaSize => ?_
  split
  · exact mirrors_onArena (Arena.mirrors_setBytes _ _)
  · exact fun _ _ alike => .error alike

theorem mirrors_fillPayload (pointer : Pointer) (value : Nat → UInt8) :
    Mirrors σ τ last (fillPayload pointer value) (fillPayload pointer value) :=
  (Action.mirrors_inspect fun _ _ alike => alike.payload _).bind fun _ =>
    mirrors_writePayload _ _ _

theorem mirrors_allocateZeroed? (request : Nat) :
    Mirrors σ τ last (allocateZeroed? request) (allocateZeroed? request) := by
  refine (mirrors_allocate? request).bind fun granted => ?_
  cases granted with
  | none => exact Action.mirrors_pure _
  | some pointer => exact (mirrors_fillPayload _ _).bind fun _ => Action.mirrors_pure _

end Heap

end SegregatedFit
