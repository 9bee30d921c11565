/-
This file proves that an audit always ends with a verdict. It reads words whose place other words
have told it, and counts what it meets, so every read and every sum has to be made safe by a test
in front of it, whatever the bytes, the heads of the lists and their lengths may be. Damaged
links can lead anywhere and go round in circles. To tell how far they are followed, an audit that
counts the nodes it looks at is set beside the audit itself; both come to the same verdict, and
the count is never more than one above the number of free blocks.
-/

import SegregatedFit.Proofs.Heap.Verdict

namespace SegregatedFit

namespace Audit

variable {Value Answer : Type}

/-! ### Checks that end with a verdict -/

/-- Whether a check ends with a verdict and not with a fault. -/
def Answers (check : Audit Value) : Prop :=
  ∃ verdict, check.run = .ok verdict

theorem answers_pure {value : Value} : Answers (pure value) :=
  ⟨_, rfl⟩

theorem answers_throw {corruption : Corruption} : Answers (throw corruption : Audit Value) :=
  ⟨_, rfl⟩

theorem answers_require {condition : Bool} {corruption : Corruption} :
    Answers (require condition corruption) := by
  cases condition
  · exact answers_throw
  · exact answers_pure

/-- A computation of words is safe in a check when it has a value. -/
theorem answers_lift {outcome : Except Fault Value} {value : Value} (found : outcome = .ok value) :
    Answers (liftM outcome) :=
  ⟨_, lift_run_eq_ok_iff.mpr found⟩

/-- Two checks end with a verdict when the second does wherever the first has passed. -/
theorem Answers.bind {first : Audit Value} {second : Value → Audit Answer} (one : Answers first)
    (other : ∀ value, first.run = .ok (.ok value) → Answers (second value)) :
    Answers (first >>= second) := by
  obtain ⟨verdict, ends⟩ := one
  unfold Answers
  rw [ExceptT.run_bind, ends]
  cases verdict with
  | error corruption => exact ⟨_, rfl⟩
  | ok value => exact other value ends

variable {σ : Type} [Source σ] {last : Nat} {arena : Arena σ} {block node : Nat} {tag : Tag}
variable {prevAllocated : Bool}

theorem answers_tagAt : Answers (tagAt arena block) := by
  unfold tagAt
  split
  · exact answers_pure
  · exact answers_throw

/-! ### The blocks of the arena -/

theorem answers_checkPrologue : Answers (checkPrologue arena) :=
  answers_tagAt.bind fun _ _ => answers_require

theorem answers_checkEpilogue : Answers (checkEpilogue arena prevAllocated) :=
  answers_tagAt.bind fun _ _ => answers_require.bind fun _ _ => answers_require

/-- The footer of a block that ends in front of the epilogue lies in the arena. -/
theorem answers_checkFreeBlock (header : arena.header? block = some tag) (low : 32 ≤ block)
    (large : 32 ≤ tag.size) (inside : block + tag.size ≤ arena.epilogue) :
    Answers (checkFreeBlock arena block tag prevAllocated) := by
  have bound := arena.size_lt
  have inside : block + tag.size ≤ arena.size := inside
  have footer := Arena.footer_eq_ok header (by omega) (by omega)
    (Arena.word?_eq_some_iff.mpr ⟨by omega, rfl⟩)
  have front : Word.sub block (headerSize + wordSize) = .ok _ :=
    Word.sub_eq_ok_iff.mpr ⟨by simp only [headerSize, wordSize]; omega, rfl⟩
  refine (answers_lift footer).bind fun _ _ => answers_require.bind fun _ _ => ?_
  split
  · exact answers_pure
  · exact (answers_lift front).bind fun _ _ => answers_throw

theorem answers_checkBlock (low : 32 ≤ block) :
    Answers (checkBlock arena block prevAllocated) := by
  refine answers_tagAt.bind fun tag found => answers_require.bind fun _ _ => ?_
  have header := tagAt_run_eq_ok_iff.mp found
  split
  · rename_i valid
    refine answers_require.bind fun _ required => answers_require.bind fun _ _ => ?_
    have inside := of_decide_eq_true (require_run_eq_ok_iff.mp required)
    split
    · exact answers_pure
    · exact (answers_checkFreeBlock header low valid.1 inside).bind fun _ _ => answers_pure
  · exact answers_throw

/-- A block adds at most one to the count, which has to be a word. -/
theorem exists_countFree {free : Nat} (tag : Tag) (room : free + 1 < wordLimit) :
    ∃ counted, countFree tag free = .ok counted ∧ counted ≤ free + 1 := by
  unfold countFree
  split
  · exact ⟨free, rfl, Nat.le_succ free⟩
  · exact ⟨free + 1, Word.add_eq_ok_iff.mpr ⟨room, rfl⟩, Nat.le_refl _⟩

/-- The free blocks that were counted lie in front of the next block, so there are fewer of them
than bytes. -/
theorem answers_checkBlocksFrom {free : Nat} (low : 32 ≤ block) (few : free ≤ block) :
    Answers (checkBlocksFrom arena block prevAllocated free) := by
  induction distance : arena.epilogue - block using Nat.strongRecOn
    generalizing block prevAllocated free with
  | ind distance inductionHypothesis =>
    have bound : arena.epilogue < wordLimit := arena.size_lt
    rw [checkBlocksFrom]
    split
    · rename_i before
      refine (answers_checkBlock low).bind ?_
      rintro ⟨tag, positive⟩ passed
      obtain ⟨_, regular, _⟩ := sound_of_checkBlock passed
      have large : 32 ≤ tag.size := regular.2.2
      obtain ⟨counted, counts, more⟩ := exists_countFree tag (show free + 1 < wordLimit by omega)
      refine (answers_lift counts).bind fun _ lifted => ?_
      obtain rfl := Except.ok.inj (counts.symm.trans (lift_run_eq_ok_iff.mp lifted))
      exact inductionHypothesis _ (by omega) (by omega) (by omega) rfl
    · exact answers_pure

theorem answers_checkBlocks : Answers (checkBlocks arena) :=
  answers_checkPrologue.bind fun _ _ =>
    (answers_checkBlocksFrom (by decide) (by decide)).bind fun _ _ =>
      answers_checkEpilogue.bind fun _ _ => answers_pure

/-! ### The nodes of the free lists -/

theorem answers_checkNode {bucket lastSize : Nat} {previous : Option Nat} :
    Answers (checkNode arena last bucket previous node lastSize) := by
  refine answers_require.bind fun _ _ => answers_tagAt.bind fun _ _ =>
    answers_require.bind fun _ _ => ?_
  split
  · exact answers_require.bind fun _ _ => answers_require.bind fun _ _ =>
      answers_require.bind fun _ _ => answers_pure
  · exact answers_throw.bind fun _ _ => answers_require.bind fun _ _ =>
      answers_require.bind fun _ _ => answers_pure

/-! ### Audits that count -/

/-- A check that counts the nodes it looks at, on from a given number. It knows the count also
when it reports an inconsistency. -/
abbrev Counting : Type → Type :=
  ExceptT Corruption (StateT Nat (Except Fault))

namespace Counting

/-- Looks at one more node. -/
def look : Counting Unit :=
  ExceptT.mk fun looked => .ok (.ok (), looked + 1)

/-- A check that looks at no node beyond those that were counted. -/
def plain (check : Audit Value) : Counting Value :=
  ExceptT.mk fun looked => check.run.map fun verdict => (verdict, looked)

/-- Checks the nodes of a list from `current` on as `checkNodesFrom` does, and counts them. -/
def nodesFrom (arena : Arena σ) (last limit bucket : Nat) (previous current : Option Nat)
    (lastSize length indexed : Nat) : Counting (Nat × Nat) :=
  match current with
  | none => pure (length, indexed)
  | some node => do
    look
    let size ← plain (checkNode arena last bucket previous node lastSize)
    let ⟨indexed, _⟩ ← plain (liftM (Word.next indexed))
    let length ← plain (liftM (Word.add length 1))
    if limit < indexed then
      throw (.indexMismatch limit indexed)
    else
      match arena.word? (← plain (liftM (Word.add node wordSize))) with
      | some next =>
        nodesFrom arena last limit bucket (some node) (Link.ofWord next) size length indexed
      | none => throw (.outOfBounds node)
termination_by limit - indexed

/-- Checks one list as `checkList` does, and counts its nodes. -/
def list (arena : Arena σ) (last limit bucket : Nat) (list : FreeList) (indexed : Nat) :
    Counting Nat := do
  let (length, indexed) ← nodesFrom arena last limit bucket none list.head 0 0 indexed
  plain (require (length = list.length) (.indexMismatch length list.length))
  return indexed

/-- Checks all lists as `checkLists` does, and counts their nodes. -/
def lists (arena : Arena σ) (index : Index last) (limit : Nat) : Counting Nat :=
  index.lists.toList.zipIdx.foldlM
    (fun indexed (freeList, bucket) => list arena last limit bucket freeList indexed) 0

/-- Whether a check and the same check with a count come to one verdict. The count ends at no
more than `bound`, and a condition holds of it and of a value that passes. -/
def Counts (counting : Counting Value) (check : Audit Value) (looked bound : Nat)
    (condition : Value → Nat → Prop) : Prop :=
  ∃ verdict final, counting.run.run looked = .ok (verdict, final) ∧ check.run = .ok verdict ∧
    final ≤ bound ∧ ∀ value, verdict = .ok value → condition value final

variable {looked bound : Nat} {condition : Value → Nat → Prop}

theorem counts_pure {value : Value} (within : looked ≤ bound) (holds : condition value looked) :
    Counts (pure value) (pure value) looked bound condition := by
  refine ⟨_, _, rfl, rfl, within, ?_⟩
  rintro _ ⟨rfl⟩
  exact holds

theorem counts_throw {corruption : Corruption} (within : looked ≤ bound) :
    Counts (throw corruption) (throw corruption) looked bound condition :=
  ⟨_, _, rfl, rfl, within, nofun⟩

/-- A check that looks at no node leaves the count. -/
theorem counts_plain {check : Audit Value} (answers : Answers check) (within : looked ≤ bound) :
    Counts (plain check) check looked bound fun value final =>
      final = looked ∧ check.run = .ok (.ok value) := by
  obtain ⟨verdict, ends⟩ := answers
  refine ⟨verdict, looked, ?_, ends, within, ?_⟩
  · show check.run.map _ = _
    rw [ends]
    rfl
  · rintro value rfl
    exact ⟨rfl, ends⟩

/-- Two checks in a row come to the verdict of the same checks with a count. -/
theorem Counts.bind {first : Counting Value} {firstCheck : Audit Value}
    {second : Value → Counting Answer} {secondCheck : Value → Audit Answer}
    {middle : Value → Nat → Prop} {condition : Answer → Nat → Prop}
    (one : Counts first firstCheck looked bound middle)
    (other : ∀ value between, middle value between →
      Counts (second value) (secondCheck value) between bound condition) :
    Counts (first >>= second) (firstCheck >>= secondCheck) looked bound condition := by
  obtain ⟨verdict, between, counted, ends, within, holds⟩ := one
  unfold Counts
  simp only [ExceptT.run_bind, StateT.run_bind, counted, ends]
  cases verdict with
  | error corruption => exact ⟨_, _, rfl, rfl, within, nofun⟩
  | ok value => exact other value between (holds value rfl)

/-- One more node is looked at in front of a check. -/
theorem Counts.look {counting : Counting Value} {check : Audit Value}
    (counts : Counts counting check (looked + 1) bound condition) :
    Counts (do Counting.look; counting) check looked bound condition := by
  obtain ⟨verdict, final, counted, rest⟩ := counts
  exact ⟨verdict, final, counted, rest⟩

/-! ### Links that lead anywhere -/

variable {limit bucket lastSize length indexed : Nat} {previous current : Option Nat}

/-- At every node the count of the nodes goes up by one, and it is compared with the limit before
the next node is looked at. -/
theorem counts_nodesFrom (small : limit + 1 < wordLimit) (enough : limit < bound)
    (within : indexed ≤ limit) (fewer : length ≤ indexed) :
    Counts (nodesFrom arena last limit bucket previous current lastSize length indexed)
      (checkNodesFrom arena last limit bucket previous current lastSize length indexed) indexed
      bound fun outcome final => outcome.2 = final ∧ final ≤ limit := by
  induction distance : limit - indexed using Nat.strongRecOn
    generalizing previous current lastSize length indexed with
  | ind distance inductionHypothesis =>
    cases current with
    | none =>
      rw [nodesFrom, checkNodesFrom]
      exact counts_pure (by omega) ⟨rfl, within⟩
    | some node =>
      rw [nodesFrom, checkNodesFrom]
      refine Counts.look ((counts_plain answers_checkNode (by omega)).bind ?_)
      rintro size _ ⟨rfl, checked⟩
      have bound := arena.size_lt
      have inside := (Arena.word?_eq_some_iff.mp (belongs_of_checkNode checked).2.1).1
      have following : Word.next indexed = .ok ⟨indexed + 1, Nat.lt_succ_self indexed⟩ :=
        Word.next_eq_ok_iff.mpr ⟨by omega, rfl⟩
      refine (counts_plain (answers_lift following) (by omega)).bind ?_
      rintro ⟨_, _⟩ _ ⟨rfl, lifted⟩
      obtain ⟨_, rfl⟩ := Word.next_eq_ok_iff.mp (lift_run_eq_ok_iff.mp lifted)
      have longer : Word.add length 1 = .ok (length + 1) :=
        Word.add_eq_ok_iff.mpr ⟨by omega, rfl⟩
      refine (counts_plain (answers_lift longer) (by omega)).bind ?_
      rintro _ _ ⟨rfl, lifted⟩
      obtain ⟨_, rfl⟩ := Word.add_eq_ok_iff.mp (lift_run_eq_ok_iff.mp lifted)
      by_cases full : limit < indexed + 1
      · simp only [if_pos full]
        exact counts_throw (by omega)
      · simp only [if_neg full]
        have place : Word.add node wordSize = .ok (node + 8) :=
          Word.add_eq_ok_iff.mpr ⟨by simp only [wordSize]; omega, rfl⟩
        refine (counts_plain (answers_lift place) (by omega)).bind ?_
        rintro _ _ ⟨rfl, lifted⟩
        obtain ⟨_, rfl⟩ := Word.add_eq_ok_iff.mp (lift_run_eq_ok_iff.mp lifted)
        cases arena.word? (node + wordSize) with
        | none => exact counts_throw (by omega)
        | some next => exact inductionHypothesis _ (by omega) (by omega) (by omega) rfl

/-- The nodes of a list are counted on from those of the lists in front of it. -/
theorem counts_list {freeList : FreeList} (small : limit + 1 < wordLimit) (enough : limit < bound)
    (within : indexed ≤ limit) :
    Counts (list arena last limit bucket freeList indexed)
      (checkList arena last limit bucket freeList indexed) indexed bound
      fun total final => total = final ∧ final ≤ limit := by
  refine (counts_nodesFrom small enough within (Nat.zero_le _)).bind ?_
  rintro ⟨length, total⟩ _ ⟨rfl, within⟩
  refine (counts_plain answers_require (by omega)).bind ?_
  rintro _ _ ⟨rfl, _⟩
  exact counts_pure (by omega) ⟨rfl, within⟩

/-- Lists are counted one after the other, and share one limit. -/
theorem counts_foldlM_list {pairs : List (FreeList × Nat)} (small : limit + 1 < wordLimit)
    (enough : limit < bound) (within : indexed ≤ limit) :
    Counts (pairs.foldlM (fun indexed (freeList, bucket) =>
        list arena last limit bucket freeList indexed) indexed)
      (pairs.foldlM (fun indexed (list, bucket) =>
        checkList arena last limit bucket list indexed) indexed) indexed bound
      fun total final => total = final ∧ final ≤ limit := by
  induction pairs generalizing indexed with
  | nil => exact counts_pure (by omega) ⟨rfl, within⟩
  | cons pair rest inductionHypothesis =>
    rw [List.foldlM_cons, List.foldlM_cons]
    refine (counts_list small enough within).bind ?_
    rintro total _ ⟨rfl, within⟩
    exact inductionHypothesis within

/-- Audits a heap as `Heap.audit` does, and counts the nodes of the free lists that it looks at. -/
def audit (heap : Heap σ last) : Counting Unit := do
  let walked ← plain (checkBlocks heap.arena)
  let recorded ← plain (liftM heap.index.length)
  plain (require (walked = recorded) (.indexMismatch walked recorded))
  let indexed ← lists heap.arena heap.index walked
  plain (require (walked = indexed) (.indexMismatch walked indexed))

/-- The count stays within a bound that is above the number of free blocks, if the blocks pass. -/
theorem counts_audit {heap : Heap σ last} (bound : Nat)
    (small : (heap.index.lists.toList.map FreeList.length).sum < wordLimit)
    (enough : ∀ walked, (checkBlocks heap.arena).run = .ok (.ok walked) → walked < bound) :
    Counts (audit heap) heap.audit 0 bound fun _ _ => True := by
  have recorded : heap.index.length = .ok (0 + (heap.index.lists.toList.map (·.length)).sum) :=
    Index.foldlM_length_eq_ok (by rwa [Nat.zero_add])
  refine (counts_plain answers_checkBlocks (Nat.zero_le _)).bind ?_
  rintro walked _ ⟨rfl, passes⟩
  have room : walked + 1 < wordLimit := by
    obtain ⟨blocks, layout, rfl⟩ := laidOut_of_checkBlocks passes
    have few := freeCount_lt_size layout
    have bound := heap.arena.size_lt
    omega
  refine (counts_plain (answers_lift recorded) (Nat.zero_le _)).bind ?_
  rintro _ _ ⟨rfl, _⟩
  refine (counts_plain answers_require (Nat.zero_le _)).bind ?_
  rintro _ _ ⟨rfl, _⟩
  have enough := enough walked passes
  refine (counts_foldlM_list room enough (Nat.zero_le _)).bind ?_
  rintro indexed _ ⟨rfl, within⟩
  obtain ⟨verdict, final, counted, ends, inside, _⟩ :=
    counts_plain answers_require (Nat.le_of_lt (Nat.lt_of_le_of_lt within enough))
  exact ⟨verdict, final, counted, ends, inside, fun _ _ => trivial⟩

end Counting

end Audit

namespace Heap

variable {σ : Type} [Source σ] {last : Nat}

/-- An audit comes to a verdict whatever the bytes of the arena, the heads of the lists and their
recorded lengths are, as long as the sum of these lengths is a word. It looks at nodes only when
the blocks have passed, and then at no more than one beyond the number of free blocks. -/
theorem audit_comes_to_verdict (heap : Heap σ last)
    (small : (heap.index.lists.toList.map FreeList.length).sum < wordLimit) :
    ∃ verdict looked, heap.audit.run = .ok verdict ∧
      (Audit.Counting.audit heap).run.run 0 = .ok (verdict, looked) ∧
      (looked = 0 ∨ ∃ walked, (Audit.checkBlocks heap.arena).run = .ok (.ok walked) ∧
        looked ≤ walked + 1) := by
  have ends : Audit.Answers (Audit.checkBlocks heap.arena) := Audit.answers_checkBlocks
  obtain ⟨blocksVerdict, ends⟩ := ends
  cases blocksVerdict with
  | error corruption =>
    obtain ⟨verdict, looked, counted, audited, within, _⟩ :=
      Audit.Counting.counts_audit 0 small fun walked passes => by simp [ends] at passes
    exact ⟨verdict, looked, audited, counted, Or.inl (Nat.le_zero.mp within)⟩
  | ok walked =>
    obtain ⟨verdict, looked, counted, audited, within, _⟩ :=
      Audit.Counting.counts_audit (walked + 1) small fun other passes => by
        obtain rfl : walked = other := by simpa [ends] using passes
        exact Nat.lt_succ_self walked
    exact ⟨verdict, looked, audited, counted, Or.inr ⟨walked, ends, within⟩⟩

/-- A heap of one free block, whose link to the next block is turned to the block itself. -/
def knotted? : Option (Heap Buffer 0) :=
  match Heap.create (Buffer.ofMaximum 512) ⟨128, 128, 512⟩ with
  | .ok (.ok heap) =>
    match onArena (Arena.setWord 40 32) heap with
    | .ok _ knotted => some knotted
    | .error _ _ => none
  | _ => none

/-- Of a list that is knotted an audit looks at two nodes, which are the same one. -/
theorem audit_comes_to_verdict_knotted : ∃ heap : Heap Buffer 0, knotted? = some heap ∧
    (heap.index.lists.toList.map FreeList.length).sum < wordLimit ∧
    heap.audit.run = .ok (.error (.asymmetricLink 32)) ∧
    (Audit.Counting.audit heap).run.run 0 = .ok (.error (.asymmetricLink 32), 2) ∧
    ∃ walked, (Audit.checkBlocks heap.arena).run = .ok (.ok walked) ∧ 2 ≤ walked + 1 := by
  have knot : knotted?.map (fun heap => ((heap.index.lists.toList.map FreeList.length).sum,
      (Audit.Counting.audit heap).run.run 0)) =
        some (1, .ok (.error (.asymmetricLink 32), 2)) := by
    decide +kernel
  obtain ⟨heap, found, facts⟩ := Option.map_eq_some_iff.mp knot
  obtain ⟨sum, counted⟩ := Prod.mk.inj facts
  have small : (heap.index.lists.toList.map FreeList.length).sum < wordLimit := by
    rw [sum]
    decide
  obtain ⟨verdict, looked, audited, again, within⟩ := audit_comes_to_verdict heap small
  obtain ⟨rfl, rfl⟩ := Prod.mk.inj (Except.ok.inj (counted.symm.trans again))
  exact ⟨heap, found, small, audited, counted, within.resolve_left (by decide)⟩

end Heap

end SegregatedFit
