/-
This file says when the links of an arena hold a sequence of nodes, and when a free list
stands for that sequence. The operations of free lists can then be understood as
operations on sequences. The main statement: a walk along a list visits the sequence that
the list stands for, so there is only one such sequence.
-/

import SegregatedFit.FreeList

namespace SegregatedFit

namespace Arena

variable {σ : Type} [Source σ]

/-- Whether a chain of links begins at a node, if any, runs through the given nodes in both
directions, and ends. -/
def Chained (arena : Arena σ) (previous current : Option Nat) : List Nat → Prop
  | [] => current = none
  | node :: rest =>
    current = some node ∧ node ≠ 0 ∧ arena.word? node = some (Link.word previous) ∧
      ∃ next, arena.word? (node + 8) = some (Link.word next) ∧ next ≠ some 0 ∧
        arena.Chained (some node) next rest

/-- The bytes of the block at a node, as its header tells. -/
def sizeAt (arena : Arena σ) (node : Nat) : Nat :=
  (arena.header? node).elim 0 (·.size)

end Arena

namespace FreeList

variable {σ : Type} [Source σ]

/-- Whether a list stands for a sequence of nodes: the links run through the nodes, no node
comes twice, their sizes ascend, and the list knows how many they are. -/
structure Represents (list : FreeList) (arena : Arena σ) (nodes : List Nat) : Prop where
  chained : arena.Chained none list.head nodes
  distinct : nodes.Nodup
  headed : ∀ node ∈ nodes, (arena.header? node).isSome
  ascending : nodes.Pairwise fun first second => arena.sizeAt first ≤ arena.sizeAt second
  counted : list.length = nodes.length

/-- Following the links of a chain visits its nodes. -/
theorem nodesFrom_eq_of_chained {arena : Arena σ} {previous current : Option Nat}
    {nodes : List Nat} {budget : Nat} (chained : arena.Chained previous current nodes)
    (enough : nodes.length ≤ budget) : nodesFrom arena budget current = .ok nodes := by
  induction nodes generalizing previous current budget with
  | nil =>
    rw [show current = none from chained]
    cases budget <;> rfl
  | cons node rest inductionHypothesis =>
    obtain ⟨rfl, _, _, next, stored, named, tail⟩ := chained
    obtain _ | budget := budget
    · simp at enough
    · have inArena := Arena.word?_eq_some_iff.mp stored
      have link : arena.nextLink node = .ok next := by
        have place : Word.add node wordSize = .ok (node + 8) :=
          Word.add_eq_ok_iff.mpr ⟨by have := arena.size_lt; simp only [wordSize]; omega, rfl⟩
        simp only [Arena.nextLink, place, Arena.word_eq_ok_iff.mpr stored, bind, Except.bind,
          pure, Except.pure, Link.ofWord_word named]
      have walked := inductionHypothesis tail (Nat.le_of_succ_le_succ enough)
      simp only [nodesFrom, link, walked, bind, Except.bind, pure, Except.pure]

/-- Every node of a chain is an offset inside of the arena. -/
theorem lt_size_of_chained {arena : Arena σ} {previous current : Option Nat} {nodes : List Nat}
    (chained : arena.Chained previous current nodes) : ∀ node ∈ nodes, node < arena.size := by
  induction nodes generalizing previous current with
  | nil => simp
  | cons first rest inductionHypothesis =>
    obtain ⟨_, _, stored, _, _, _, tail⟩ := chained
    have inside := (Arena.word?_eq_some_iff.mp stored).1
    intro node member
    rcases List.mem_cons.mp member with rfl | later
    · omega
    · exact inductionHypothesis tail node later

/-- There are no more than `bound` distinct numbers below `bound`. -/
theorem length_le_of_nodup_of_lt {bound : Nat} {numbers : List Nat} (distinct : numbers.Nodup)
    (below : ∀ number ∈ numbers, number < bound) : numbers.length ≤ bound := by
  induction bound generalizing numbers with
  | zero =>
    cases numbers with
    | nil => exact Nat.le_refl _
    | cons number rest => exact absurd (below number List.mem_cons_self) (Nat.not_lt_zero _)
  | succ bound inductionHypothesis =>
    have smaller : (numbers.erase bound).length ≤ bound := by
      refine inductionHypothesis (distinct.erase bound) fun number member => ?_
      obtain ⟨different, member⟩ := distinct.mem_erase_iff.mp member
      have := below number member
      omega
    have shorter := List.length_erase (a := bound) (l := numbers)
    split at shorter <;> omega

/-- A walk along a list visits the nodes that the list stands for. -/
theorem Represents.nodes_eq {list : FreeList} {arena : Arena σ} {nodes : List Nat}
    (represents : list.Represents arena nodes) : list.nodes arena = .ok nodes :=
  nodesFrom_eq_of_chained represents.chained
    (length_le_of_nodup_of_lt represents.distinct (lt_size_of_chained represents.chained))

/-- A list stands for at most one sequence of nodes. -/
theorem Represents.unique {list : FreeList} {arena : Arena σ} {first second : List Nat}
    (one : list.Represents arena first) (other : list.Represents arena second) :
    first = second :=
  Except.ok.inj (one.nodes_eq.symm.trans other.nodes_eq)

end FreeList

end SegregatedFit
