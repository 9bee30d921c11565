/-
This file proves that a chain of links never comes back to a node. A node links to the one
before it, so its place in the chain decides all nodes in front of it, back to the first; if
it came twice, it would have two different beginnings of the chain in front of it. Forward, the
first node decides all nodes behind it, so chains whose links agree have the same nodes.
-/

import Mathlib.Data.List.Induction
import Mathlib.Data.List.Nodup
import SegregatedFit.FreeList.Chain

namespace SegregatedFit

/-- A link to the first one of some nodes is zero where there are none. -/
theorem Link.word_head?_eq_zero_iff {nodes : List Nat} (named : 0 ∉ nodes) :
    word nodes.head? = 0 ↔ nodes = [] := by
  cases nodes with
  | nil => exact iff_of_true rfl rfl
  | cons first rest =>
    exact iff_of_false (List.ne_of_not_mem_cons named).symm (List.cons_ne_nil _ _)

namespace Arena

variable {σ : Type} [Source σ] {arena : Arena σ} {previous current : Option Nat}
variable {nodes front back : List Nat} {node : Nat}

/-- A node of a chain links to the one before it. -/
theorem Chained.backward (chained : arena.Chained previous current (front ++ node :: back)) :
    arena.word? node = some (Link.word (front.getLast?.or previous)) := by
  induction front generalizing previous current with
  | nil => exact chained.2.2.1
  | cons first rest inductionHypothesis =>
    obtain ⟨_, _, _, next, _, _, tail⟩ := chained
    rw [inductionHypothesis tail, List.getLast?_cons]
    cases rest.getLast? <;> rfl

theorem Chained.head?_eq (chained : arena.Chained previous current nodes) :
    nodes.head? = current := by
  cases nodes with
  | nil => exact Eq.symm chained
  | cons node rest => exact chained.1.symm

/-- A node of a chain links to the one after it. -/
theorem Chained.forward (chained : arena.Chained previous current (front ++ node :: back)) :
    arena.word? (node + 8) = some (Link.word back.head?) := by
  induction front generalizing previous current with
  | nil =>
    obtain ⟨_, _, _, next, stored, _, tail⟩ := chained
    rw [stored, tail.head?_eq]
  | cons first rest inductionHypothesis =>
    obtain ⟨_, _, _, next, _, _, tail⟩ := chained
    exact inductionHypothesis tail

/-- No node of a chain is called zero. -/
theorem Chained.named (chained : arena.Chained previous current nodes) : 0 ∉ nodes := by
  induction nodes generalizing previous current with
  | nil => exact List.not_mem_nil
  | cons first rest inductionHypothesis =>
    obtain ⟨_, nonzero, _, next, _, _, tail⟩ := chained
    rw [List.mem_cons]
    exact not_or.mpr ⟨Ne.symm nonzero, inductionHypothesis tail⟩

/-- The nodes in front of a node have the same last one wherever the node comes in a chain. -/
theorem Chained.getLast?_eq (chained : arena.Chained none current nodes) {other rest : List Nat}
    (here : nodes = front ++ node :: back) (there : nodes = other ++ node :: rest) :
    front.getLast? = other.getLast? := by
  have named : ∀ {part : List Nat}, part ⊆ nodes → part.getLast? ≠ some 0 :=
    fun within zero => chained.named (within (List.mem_of_getLast? zero))
  have one := (here ▸ chained).backward
  have two := (there ▸ chained).backward
  rw [Option.or_none] at one two
  have same : Link.word front.getLast? = Link.word other.getLast? :=
    Option.some.inj (one.symm.trans two)
  rw [← Link.ofWord_word (named (here ▸ List.subset_append_left _ _)), same,
    Link.ofWord_word (named (there ▸ List.subset_append_left _ _))]

/-- A node decides the beginning of the chain in front of it. -/
theorem Chained.front_eq (chained : arena.Chained none current nodes) {other rest : List Nat}
    (here : nodes = front ++ node :: back) (there : nodes = other ++ node :: rest) :
    front = other := by
  induction front using List.reverseRecOn generalizing node back other rest with
  | nil =>
    have last := chained.getLast?_eq here there
    exact (List.getLast?_eq_none_iff.mp last.symm).symm
  | append_singleton front last inductionHypothesis =>
    have same := chained.getLast?_eq here there
    rw [List.getLast?_concat] at same
    obtain ⟨shorter, rfl⟩ := List.getLast?_eq_some_iff.mp same.symm
    rw [List.append_assoc] at here there
    rw [inductionHypothesis here there]

/-- No node comes twice in a chain that has a beginning. -/
theorem Chained.nodup (chained : arena.Chained none current nodes) : nodes.Nodup := by
  refine List.nodup_iff_sublist.mpr fun node twice => ?_
  obtain ⟨low, high, rfl, inLow, inHigh⟩ := List.cons_sublist_iff.mp twice
  obtain ⟨front, middle, rfl⟩ := List.append_of_mem inLow
  obtain ⟨gap, back, rfl⟩ := List.append_of_mem (List.singleton_sublist.mp inHigh)
  have first : front ++ node :: middle ++ (gap ++ node :: back) =
      front ++ node :: (middle ++ (gap ++ node :: back)) := by simp
  have second : front ++ node :: middle ++ (gap ++ node :: back) =
      (front ++ node :: (middle ++ gap)) ++ node :: back := by simp
  have same := congrArg List.length (chained.front_eq first second)
  rw [List.length_append, List.length_cons] at same
  omega

variable {before after : Arena σ} {prevLink : Option Nat}

/-- Chains from the same node on share their nodes as long as the links forward are the same. -/
theorem Chained.exists_shared
    (one : before.Chained previous current (front ++ node :: back))
    (other : after.Chained prevLink current nodes)
    (kept : ∀ earlier ∈ front, after.word? (earlier + 8) = before.word? (earlier + 8)) :
    ∃ rest, nodes = front ++ node :: rest := by
  induction front generalizing previous prevLink current nodes with
  | nil =>
    obtain ⟨rfl, _⟩ := one
    cases nodes with
    | nil => cases other
    | cons first rest =>
      obtain ⟨same, _⟩ := other
      cases same
      exact ⟨rest, rfl⟩
  | cons first middle inductionHypothesis =>
    obtain ⟨rfl, _, _, next, stored, named, tail⟩ := one
    obtain ⟨here, later⟩ := List.forall_mem_cons.mp kept
    cases nodes with
    | nil => cases other
    | cons again rest =>
      obtain ⟨same, _, _, following, linked, known, behind⟩ := other
      cases same
      have words := Option.some.inj (linked.symm.trans (here.trans stored))
      have links : following = next := by
        rw [← Link.ofWord_word known, words, Link.ofWord_word named]
      obtain ⟨rest, rfl⟩ := inductionHypothesis tail (links ▸ behind) later
      exact ⟨rest, rfl⟩

end Arena

end SegregatedFit
