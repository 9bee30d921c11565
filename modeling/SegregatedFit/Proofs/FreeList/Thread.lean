/-
This file looks at the links of a free list from the gaps between its nodes. A sequence of
nodes is threaded when at each of its cuts the two nodes beside the cut name each other. A
node that joins the sequence or leaves it changes the links at one cut only, so all the
other cuts keep their links.
-/

import Mathlib.Data.List.Basic
import SegregatedFit.FreeList.Chain
import SegregatedFit.Proofs.Arena.Tags

namespace SegregatedFit

namespace Arena

variable {σ : Type} [Source σ]

/-- Whether two nodes, of which either may be missing, name each other. -/
structure Linked (arena : Arena σ) (previous next : Option Nat) : Prop where
  forward : ∀ node, previous = some node → arena.word? (node + 8) = some (Link.word next)
  backward : ∀ node, next = some node → arena.word? node = some (Link.word previous)

/-- Whether links run through some nodes in both directions. -/
def Threads (arena : Arena σ) (nodes : List Nat) : Prop :=
  ∀ front back, nodes = front ++ back → arena.Linked front.getLast? back.head?

/-- Whether the words that belong to different nodes, which are the header and the two links,
do not overlap. -/
def Scattered (nodes : List Nat) : Prop :=
  ∀ first ∈ nodes, ∀ second ∈ nodes,
    first = second ∨ first + 24 ≤ second ∨ second + 24 ≤ first

variable {arena before after : Arena σ} {nodes front back : List Nat} {block : Nat}

theorem Threads.forward (threads : arena.Threads nodes) {node : Nat}
    (split : nodes = front ++ node :: back) :
    arena.word? (node + 8) = some (Link.word back.head?) := by
  have cut := threads (front ++ [node]) back (by rw [split, List.append_assoc]; rfl)
  exact cut.forward node (by simp)

theorem Threads.backward (threads : arena.Threads nodes) {node : Nat}
    (split : nodes = front ++ node :: back) :
    arena.word? node = some (Link.word front.getLast?) :=
  (threads front (node :: back) split).backward node rfl

/-- The links of a node lie inside of the arena. -/
theorem Threads.inside (threads : arena.Threads nodes) :
    ∀ node ∈ nodes, node + 16 ≤ arena.size := by
  intro node member
  obtain ⟨front, back, split⟩ := List.append_of_mem member
  exact (word?_eq_some_iff.mp (threads.forward split)).1

/-- The node after a node of a threaded sequence is its successor. -/
theorem Threads.nextLink_eq_ok (threads : arena.Threads nodes) (named : 0 ∉ nodes) {node : Nat}
    (split : nodes = front ++ node :: back) : arena.nextLink node = .ok back.head? := by
  have stored := threads.forward split
  have bound := (word?_eq_some_iff.mp stored).1
  have place : Word.add node wordSize = .ok (node + 8) :=
    Word.add_eq_ok_iff.mpr ⟨by have := arena.size_lt; simp only [wordSize]; omega, rfl⟩
  have named : back.head? ≠ some 0 := fun zero => named (by
    rw [split]
    exact List.mem_append_right _ (List.mem_cons_of_mem _ (List.mem_of_mem_head? zero)))
  simp only [nextLink, place, word_eq_ok_iff.mpr stored, bind, Except.bind, pure, Except.pure,
    Link.ofWord_word named]

/-- The node before a node of a threaded sequence is its predecessor. -/
theorem Threads.previousLink_eq_ok (threads : arena.Threads nodes) (named : 0 ∉ nodes)
    {node : Nat} (split : nodes = front ++ node :: back) :
    arena.previousLink node = .ok front.getLast? := by
  have stored := threads.backward split
  have named : front.getLast? ≠ some 0 := fun zero => named (by
    rw [split]
    exact List.mem_append_left _ (List.mem_of_getLast? zero))
  simp only [previousLink, word_eq_ok_iff.mpr stored, bind, Except.bind, pure, Except.pure,
    Link.ofWord_word named]

/-- A threaded sequence is a chain of links from its first node on. -/
theorem Threads.chained (threads : arena.Threads nodes) (named : 0 ∉ nodes)
    (split : nodes = front ++ back) : arena.Chained front.getLast? back.head? back := by
  induction back generalizing front with
  | nil => rfl
  | cons node rest inductionHypothesis =>
    have longer : nodes = (front ++ [node]) ++ rest := by
      rw [split, List.append_assoc]
      rfl
    have later := inductionHypothesis longer
    rw [List.getLast?_concat] at later
    refine ⟨rfl, fun zero => named (by rw [split, ← zero]; simp), threads.backward split,
      rest.head?, threads.forward split, fun zero => named ?_, later⟩
    rw [split]
    exact List.mem_append_right _ (List.mem_cons_of_mem _ (List.mem_of_mem_head? zero))

/-- Links that stay as they were still run through the same nodes. -/
theorem Threads.congr (threads : before.Threads nodes)
    (forward : ∀ node ∈ nodes, after.word? (node + 8) = before.word? (node + 8))
    (backward : ∀ node ∈ nodes, after.word? node = before.word? node) :
    after.Threads nodes := by
  intro front back split
  refine ⟨fun node found => ?_, fun node found => ?_⟩
  · rw [forward node (by rw [split]; exact List.mem_append_left _ (List.mem_of_getLast? found))]
    exact (threads front back split).forward node found
  · rw [backward node (by rw [split]; exact List.mem_append_right _ (List.mem_of_mem_head? found))]
    exact (threads front back split).backward node found

/-! ### Nodes that join and leave -/

/-- A cut keeps its links when the words of the nodes beside it stay. -/
theorem Threads.linked_of_kept (threads : before.Threads nodes) (after : Arena σ)
    (front back : List Nat) (split : nodes = front ++ back)
    (forward : ∀ node, front.getLast? = some node →
      after.word? (node + 8) = before.word? (node + 8))
    (backward : ∀ node, back.head? = some node → after.word? node = before.word? node) :
    after.Linked front.getLast? back.head? where
  forward node found := (forward node found).trans ((threads front back split).forward node found)
  backward node found :=
    (backward node found).trans ((threads front back split).backward node found)

theorem getLast?_ne_of_nodup {low high : List Nat} {node : Nat} (distinct : (low ++ high).Nodup)
    (nonempty : high ≠ []) (member : node ∈ low) : (low ++ high).getLast? ≠ some node := by
  intro found
  rw [List.getLast?_append_of_ne_nil _ nonempty] at found
  exact (List.nodup_append.mp distinct).2.2 node member node (List.mem_of_getLast? found) rfl

theorem head?_ne_of_nodup {low high : List Nat} {node : Nat} (distinct : (low ++ high).Nodup)
    (nonempty : low ≠ []) (member : node ∈ high) : (low ++ high).head? ≠ some node := by
  intro found
  rw [List.head?_append_of_ne_nil _ nonempty] at found
  exact (List.nodup_append.mp distinct).2.2 node (List.mem_of_mem_head? found) node member rfl

/-- A cut inside of the front keeps its links when only the last link of the front and the
first link of the back change. -/
theorem Threads.linked_of_front {low high : List Nat} (middle : List Nat)
    (threads : before.Threads (low ++ high ++ middle ++ back)) (nonempty : high ≠ [])
    (distinct : (low ++ high ++ back).Nodup)
    (forward : ∀ node ∈ low ++ high ++ back, (low ++ high).getLast? ≠ some node →
      after.word? (node + 8) = before.word? (node + 8))
    (backward : ∀ node ∈ low ++ high ++ back, back.head? ≠ some node →
      after.word? node = before.word? node) :
    after.Linked low.getLast? high.head? := by
  have apart := List.nodup_append.mp distinct
  have kept := threads.linked_of_kept after low (high ++ middle ++ back) (by simp)
    (fun node found => ?_) fun node found => ?_
  · rwa [List.append_assoc, List.head?_append_of_ne_nil _ nonempty] at kept
  · have member := List.mem_of_getLast? found
    exact forward node (by simp [member]) (getLast?_ne_of_nodup apart.1 nonempty member)
  · rw [List.append_assoc, List.head?_append_of_ne_nil _ nonempty] at found
    have member := List.mem_of_mem_head? found
    refine backward node (by simp [member]) fun found => ?_
    exact apart.2.2 node (by simp [member]) node (List.mem_of_mem_head? found) rfl

/-- A cut inside of the back keeps its links when only the last link of the front and the
first link of the back change. -/
theorem Threads.linked_of_back {low high : List Nat} (middle : List Nat)
    (threads : before.Threads (front ++ middle ++ (low ++ high))) (nonempty : low ≠ [])
    (distinct : (front ++ (low ++ high)).Nodup)
    (forward : ∀ node ∈ front ++ (low ++ high), front.getLast? ≠ some node →
      after.word? (node + 8) = before.word? (node + 8))
    (backward : ∀ node ∈ front ++ (low ++ high), (low ++ high).head? ≠ some node →
      after.word? node = before.word? node) :
    after.Linked low.getLast? high.head? := by
  have apart := List.nodup_append.mp distinct
  have kept := threads.linked_of_kept after (front ++ middle ++ low) high (by simp)
    (fun node found => ?_) fun node found => ?_
  · rwa [List.getLast?_append_of_ne_nil _ nonempty] at kept
  · rw [List.getLast?_append_of_ne_nil _ nonempty] at found
    have member := List.mem_of_getLast? found
    refine forward node (by simp [member]) fun found => ?_
    exact apart.2.2 node (List.mem_of_getLast? found) node (by simp [member]) rfl
  · have member := List.mem_of_mem_head? found
    exact backward node (by simp [member]) (head?_ne_of_nodup apart.2.1 nonempty member)

/-- A node joins a sequence at a cut when it is linked with both nodes beside the cut. -/
theorem Threads.insert (threads : before.Threads (front ++ back))
    (distinct : (front ++ back).Nodup)
    (low : after.Linked front.getLast? (some block))
    (high : after.Linked (some block) back.head?)
    (forward : ∀ node ∈ front ++ back, front.getLast? ≠ some node →
      after.word? (node + 8) = before.word? (node + 8))
    (backward : ∀ node ∈ front ++ back, back.head? ≠ some node →
      after.word? node = before.word? node) :
    after.Threads (front ++ block :: back) := by
  intro first second split
  rcases List.append_eq_append_iff.mp split with ⟨passed, rfl, rest⟩ | ⟨passed, rfl, rfl⟩
  · cases passed with
    | nil =>
      obtain rfl : block :: back = second := rest
      rw [List.append_nil]
      exact low
    | cons _ passed =>
      obtain ⟨rfl, rfl⟩ : block = _ ∧ back = passed ++ second := by simpa using rest
      cases passed with
      | nil => simpa using high
      | cons node passed =>
        have kept := Threads.linked_of_back [] (by rwa [List.append_nil])
          (List.cons_ne_nil node passed) distinct forward backward
        rwa [List.append_cons, List.getLast?_append_cons]
  · cases passed with
    | nil => simpa using low
    | cons node passed =>
      have kept := Threads.linked_of_front [] (by rwa [List.append_nil])
        (List.cons_ne_nil node passed) distinct forward backward
      simpa using kept

/-- A node leaves a sequence when the nodes beside it are linked with each other. -/
theorem Threads.remove (threads : before.Threads (front ++ block :: back))
    (distinct : (front ++ back).Nodup)
    (linked : after.Linked front.getLast? back.head?)
    (forward : ∀ node ∈ front ++ back, front.getLast? ≠ some node →
      after.word? (node + 8) = before.word? (node + 8))
    (backward : ∀ node ∈ front ++ back, back.head? ≠ some node →
      after.word? node = before.word? node) :
    after.Threads (front ++ back) := by
  have threads : before.Threads (front ++ [block] ++ back) := by simpa using threads
  intro first second split
  rcases List.append_eq_append_iff.mp split with ⟨passed, rfl, rfl⟩ | ⟨passed, rfl, rfl⟩
  · cases passed with
    | nil => simpa using linked
    | cons node passed =>
      have kept := threads.linked_of_back [block] (List.cons_ne_nil node passed) distinct
        forward backward
      rwa [List.getLast?_append_cons]
  · cases passed with
    | nil => simpa using linked
    | cons node passed =>
      have kept := threads.linked_of_front [block] (List.cons_ne_nil node passed) distinct
        forward backward
      simpa using kept

end Arena

end SegregatedFit
