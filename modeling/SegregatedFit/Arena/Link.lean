/-
This file stores the links of the free lists. A free block keeps two links in the first
two words of its payload, to the nodes before and after it in its list. A link is the
payload offset of another free block; zero means that there is none, and never names a
block, because the padding word lies there.
-/

import SegregatedFit.Arena.Block

namespace SegregatedFit

namespace Link

/-- The link that a word of memory stands for. -/
def ofWord (word : Nat) : Option Nat :=
  if word = 0 then none else some word

/-- The word that stands for a link in memory. -/
def word (link : Option Nat) : Nat :=
  link.getD 0

theorem ofWord_word {link : Option Nat} (named : link ≠ some 0) : ofWord (word link) = link := by
  cases link with
  | none => rfl
  | some block =>
    have nonzero : block ≠ 0 := fun zero => named (congrArg some zero)
    simp [ofWord, word, nonzero]

theorem word_ofWord (value : Nat) : word (ofWord value) = value := by
  unfold ofWord
  split
  · rename_i zero
    exact zero.symm
  · rfl

end Link

namespace Arena

variable {σ : Type} [Source σ]

/-- The node before a block in its list. -/
def previousLink (arena : Arena σ) (block : Nat) : Except Fault (Option Nat) := do
  return Link.ofWord (← arena.word block)

/-- The node after a block in its list. -/
def nextLink (arena : Arena σ) (block : Nat) : Except Fault (Option Nat) := do
  return Link.ofWord (← arena.word (← Word.add block wordSize))

/-- Writes the link of a block to the node before it. -/
def setPreviousLink (block : Nat) (link : Option Nat) : Action (Arena σ) Unit :=
  setWord block (Link.word link)

/-- Writes the link of a block to the node after it. -/
def setNextLink (block : Nat) (link : Option Nat) : Action (Arena σ) Unit := do
  setWord (← Word.add block wordSize) (Link.word link)

/-- Writes the link of a node, if there is one, to the node before it. -/
def setPreviousLinkOf (node link : Option Nat) : Action (Arena σ) Unit :=
  match node with
  | some block => setPreviousLink block link
  | none => pure ()

/-- Writes the link of a node, if there is one, to the node after it. -/
def setNextLinkOf (node link : Option Nat) : Action (Arena σ) Unit :=
  match node with
  | some block => setNextLink block link
  | none => pure ()

end Arena

end SegregatedFit
