/-
This file follows the index of a heap through its operations. A heap evolves by blocks that join
and leave its index, and by changes of its arena that leave the nodes of its lists alone; the log
of an evolution tells which blocks joined and left, in their order. `Heap.Yields` says of an
operation what `Action.Yields` says, and in addition that the heap evolves on the way, and that its
arena develops by counted growths.
-/

import SegregatedFit.FreeList.Chain
import SegregatedFit.Heap
import SegregatedFit.Proofs.Arena.Development
import SegregatedFit.Proofs.Outcome

namespace SegregatedFit

/-- What happens to an index. -/
inductive IndexEvent where
  | inserted (block : Nat)
  | removed (block : Nat)
deriving DecidableEq

namespace IndexEvent

/-- Whether a block joined an index after the last time that another block did. -/
def JoinedLater (log : List IndexEvent) (newer older : Nat) : Prop :=
  ∃ front back, log = front ++ inserted newer :: back ∧ inserted older ∈ front ∧
    inserted older ∉ back

variable {log : List IndexEvent} {event : IndexEvent} {newer older : Nat}

/-- The order in which two blocks joined stays until the older one joins again. -/
theorem JoinedLater.concat (later : JoinedLater log newer older)
    (others : event ≠ inserted older) : JoinedLater (log ++ [event]) newer older := by
  obtain ⟨front, back, rfl, first, absent⟩ := later
  refine ⟨front, back ++ [event], by simp, first, fun member => ?_⟩
  rcases List.mem_append.mp member with again | again
  · exact absent again
  · exact others (List.mem_singleton.mp again).symm

theorem joinedLater_concat (first : inserted older ∈ log) :
    JoinedLater (log ++ [inserted newer]) newer older :=
  ⟨log, [], rfl, first, List.not_mem_nil⟩

end IndexEvent

namespace Heap

variable {σ : Type} [Source σ] {last : Nat} {Answer Result : Type}
variable {before between after : Heap σ last} {log more : List IndexEvent}

/-- Whether a list of the index has a node at an offset. -/
def Indexes (heap : Heap σ last) (node : Nat) : Prop :=
  ∃ bucket nodes, (heap.index.lists.get bucket).nodes heap.arena = .ok nodes ∧ node ∈ nodes

/-- Whether the nodes of a heap keep their sizes and their links in another arena. -/
def KeepsNodes (heap : Heap σ last) (arena : Arena σ) : Prop :=
  ∀ node, heap.Indexes node →
    (arena.header? node).map Tag.size = (heap.arena.header? node).map Tag.size ∧
      arena.word? node = heap.arena.word? node ∧
      arena.word? (node + 8) = heap.arena.word? (node + 8)

/-- Whether there is room for a block among the nodes of a heap: it has a header and space for its
links, and its words do not overlap with those of any node. -/
structure Admits (heap : Heap σ last) (block : Nat) : Prop where
  headed : (heap.arena.header? block).isSome
  inside : block + 16 ≤ heap.arena.size
  apart : ∀ node, heap.Indexes node → node + 24 ≤ block ∨ block + 24 ≤ node

/-- How a heap may become another one, with what happens to its index on the way. -/
inductive Evolves (before : Heap σ last) : List IndexEvent → Heap σ last → Prop
  | start : Evolves before [] before
  | write {log : List IndexEvent} {between : Heap σ last} {arena : Arena σ}
      (earlier : Evolves before log between) (keeps : between.KeepsNodes arena) :
    Evolves before log { between with arena }
  | insert {log : List IndexEvent} {between after : Heap σ last} {block : Nat}
      (earlier : Evolves before log between) (admits : between.Admits block)
      (inserted : indexBlock block between = .ok () after) :
    Evolves before (log ++ [.inserted block]) after
  | remove {log : List IndexEvent} {between after : Heap σ last} {block : Nat}
      (earlier : Evolves before log between) (indexes : between.Indexes block)
      (removed : unindexBlock block between = .ok () after) :
    Evolves before (log ++ [.removed block]) after

theorem Evolves.trans (first : before.Evolves log between) (second : between.Evolves more after) :
    before.Evolves (log ++ more) after := by
  induction second with
  | start =>
    rw [List.append_nil]
    exact first
  | write earlier keeps inductionHypothesis => exact .write inductionHypothesis keeps
  | insert earlier admits inserted inductionHypothesis =>
    rw [← List.append_assoc]
    exact .insert inductionHypothesis admits inserted
  | remove earlier indexes removed inductionHypothesis =>
    rw [← List.append_assoc]
    exact .remove inductionHypothesis indexes removed

/-! ### Operations -/

/-- How the index and the arena of a heap have changed when it became another one. -/
structure Progresses (before after : Heap σ last) : Prop where
  evolves : ∃ log, before.Evolves log after
  develops : ∃ granted, before.arena.Develops granted after.arena

theorem Progresses.refl (heap : Heap σ last) : heap.Progresses heap where
  evolves := ⟨[], .start⟩
  develops := ⟨[], .refl _⟩

theorem Progresses.trans (one : before.Progresses between) (other : between.Progresses after) :
    before.Progresses after where
  evolves := by
    obtain ⟨log, evolves⟩ := one.evolves
    obtain ⟨more, goesOn⟩ := other.evolves
    exact ⟨_, evolves.trans goesOn⟩
  develops := by
    obtain ⟨granted, develops⟩ := one.develops
    obtain ⟨more, goesOn⟩ := other.develops
    exact ⟨_, develops.trans goesOn⟩

/-- Whether an operation answers from a heap, so that the heap progresses and a condition holds of
the answer and of the heap after it. -/
def Yields (before : Heap σ last) (action : Action (Heap σ last) Answer)
    (condition : Answer → Heap σ last → Prop) : Prop :=
  Action.Yields before action fun answer after =>
    before.Progresses after ∧ condition answer after

variable {condition : Result → Heap σ last → Prop}

theorem Yields.mono {action : Action (Heap σ last) Result} {weaker : Result → Heap σ last → Prop}
    (yields : Yields before action condition)
    (weakens : ∀ answer after, condition answer after → weaker answer after) :
    Yields before action weaker :=
  Action.Yields.mono yields fun answer after => And.imp_right (weakens answer after)

/-- An operation has one outcome only. -/
theorem Yields.of_eq_ok {action : Action (Heap σ last) Result} {answer : Result}
    (yields : Yields before action condition) (answered : action before = .ok answer after) :
    condition answer after :=
  (Action.Yields.of_eq_ok yields answered).2

/-- A heap progresses through every operation that answers. -/
theorem Yields.progresses {action : Action (Heap σ last) Result} {answer : Result}
    (yields : Yields before action condition) (answered : action before = .ok answer after) :
    before.Progresses after :=
  (Action.Yields.of_eq_ok yields answered).1

theorem yields_pure {answer : Result} (holds : condition answer before) :
    Yields before (pure answer) condition :=
  Action.yields_pure ⟨.refl before, holds⟩

theorem Yields.bind {first : Action (Heap σ last) Answer}
    {second : Answer → Action (Heap σ last) Result} {middle : Answer → Heap σ last → Prop}
    (one : Yields before first middle)
    (other : ∀ answer between, middle answer between →
      Yields between (second answer) condition) :
    Yields before (first >>= second) condition := by
  refine Action.Yields.bind one ?_
  rintro answer between ⟨progresses, holds⟩
  refine Action.Yields.mono (other answer between holds) ?_
  rintro result after ⟨goesOn, done⟩
  exact ⟨progresses.trans goesOn, done⟩

/-- A step that leaves the heap alone comes before the rest of an operation. -/
theorem yields_bind_of_eq_ok {first : Action (Heap σ last) Answer}
    {second : Answer → Action (Heap σ last) Result} {value : Answer}
    (answered : first before = .ok value before)
    (rest : Yields before (second value) condition) :
    Yields before (first >>= second) condition :=
  Action.yields_bind_of_eq_ok answered rest

theorem yields_bind_inspect {read : Heap σ last → Except Fault Answer} {value : Answer}
    {second : Answer → Action (Heap σ last) Result} (found : read before = .ok value)
    (rest : Yields before (second value) condition) :
    Yields before (Action.inspect read >>= second) condition :=
  Action.yields_bind_inspect found rest

theorem yields_bind_look {view : Heap σ last → Answer}
    {second : Answer → Action (Heap σ last) Result}
    (rest : Yields before (second (view before)) condition) :
    Yields before (Action.look view >>= second) condition :=
  Action.yields_bind_look rest

theorem yields_bind_lift {outcome : Except Fault Answer} {value : Answer}
    {second : Answer → Action (Heap σ last) Result} (found : outcome = .ok value)
    (rest : Yields before (second value) condition) :
    Yields before (liftM outcome >>= second) condition :=
  Action.yields_bind_lift found rest

theorem yields_bind_inspectArena {read : Arena σ → Except Fault Answer} {value : Answer}
    {second : Answer → Action (Heap σ last) Result} (found : read before.arena = .ok value)
    (rest : Yields before (second value) condition) :
    Yields before (inspectArena read >>= second) condition := by
  unfold inspectArena
  exact yields_bind_inspect found rest

/-- A change of the arena alone keeps the nodes. -/
theorem yields_onArena {action : Action (Arena σ) Result}
    (yields : Action.Yields before.arena action fun answer arena =>
      before.KeepsNodes arena ∧ condition answer { before with arena })
    (develops : ∀ answer arena, action before.arena = .ok answer arena →
      ∃ granted, before.arena.Develops granted arena) :
    Yields before (onArena action) condition := by
  obtain ⟨answer, arena, answered, keeps, holds⟩ := yields
  exact ⟨answer, _, onArena_eq_ok_iff.mpr ⟨arena, answered, rfl⟩,
    ⟨⟨[], .write .start keeps⟩, develops answer arena answered⟩, holds⟩

theorem yields_indexBlock {block : Nat} {condition : Unit → Heap σ last → Prop}
    (admits : before.Admits block)
    (yields : Action.Yields before.arena (before.index.insert block) fun index arena =>
      condition () { before with arena, index }) :
    Yields before (indexBlock block) condition := by
  obtain ⟨index, arena, answered, holds⟩ := yields
  have inserted : indexBlock block before = .ok () { before with arena, index } :=
    onIndex_eq_ok_iff.mpr ⟨index, arena, answered, rfl⟩
  have evolves : before.Evolves [.inserted block] { before with arena, index } :=
    .insert .start admits inserted
  exact ⟨(), _, inserted, ⟨⟨_, evolves⟩, _, Index.rewrites_insert _ _ _ _ _ answered⟩, holds⟩

theorem yields_unindexBlock {block : Nat} {condition : Unit → Heap σ last → Prop}
    (indexes : before.Indexes block)
    (yields : Action.Yields before.arena (before.index.remove block) fun index arena =>
      condition () { before with arena, index }) :
    Yields before (unindexBlock block) condition := by
  obtain ⟨index, arena, answered, holds⟩ := yields
  have removed : unindexBlock block before = .ok () { before with arena, index } :=
    onIndex_eq_ok_iff.mpr ⟨index, arena, answered, rfl⟩
  have evolves : before.Evolves [.removed block] { before with arena, index } :=
    .remove .start indexes removed
  exact ⟨(), _, removed, ⟨⟨_, evolves⟩, _, Index.rewrites_remove _ _ _ _ _ answered⟩, holds⟩

end Heap

end SegregatedFit
