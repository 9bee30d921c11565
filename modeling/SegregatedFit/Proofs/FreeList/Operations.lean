/-
This file proves what the operations of free lists do. A list that follows some cells, in
ascending order of their sizes, finds the first of them that is large enough, takes in a cell
in front of the first that is not smaller, and lets go of any cell. Only links change: those
of the cell itself, and one link of each of its two neighbours.
-/

import SegregatedFit.Proofs.Cell
import SegregatedFit.Proofs.FreeList.Thread

namespace SegregatedFit

namespace Arena

variable {σ : Type} [Source σ]

/-- Whether the header of a cell can be read and tells its size. -/
def Measures (arena : Arena σ) (cell : Cell) : Prop :=
  ∃ tag, arena.header? cell.offset = some tag ∧ tag.size = cell.size

/-- Whether some cells can be nodes: their headers can be read, they have room for their links,
and their words do not overlap. -/
structure Hosts (arena : Arena σ) (cells : List Cell) : Prop where
  measured : ∀ cell ∈ cells, arena.Measures cell
  inside : ∀ cell ∈ cells, cell.offset + 16 ≤ arena.size
  distinct : (cells.map Cell.offset).Nodup
  scattered : Scattered (cells.map Cell.offset)

/-- The bytes of the link from a node, if there is one, to the next. -/
def NextBytes (node : Option Nat) (index : Nat) : Prop :=
  ∃ block, node = some block ∧ block + 8 ≤ index ∧ index < block + 16

/-- The bytes of the link from a node, if there is one, to the one before. -/
def PreviousBytes (node : Option Nat) (index : Nat) : Prop :=
  ∃ block, node = some block ∧ block ≤ index ∧ index < block + 8

variable {arena before : Arena σ} {cells : List Cell}

/-- No node is called zero, since no header lies in front of it. -/
theorem Hosts.named (hosts : arena.Hosts cells) : 0 ∉ cells.map Cell.offset := by
  intro zero
  obtain ⟨cell, member, same⟩ := List.mem_map.mp zero
  obtain ⟨tag, found, _⟩ := hosts.measured cell member
  have := (le_size_of_header? found).1
  omega

/-- There are fewer nodes than bytes. -/
theorem Hosts.length_le (hosts : arena.Hosts cells) : cells.length ≤ arena.size := by
  have below : ∀ node ∈ cells.map Cell.offset, node < arena.size := by
    intro node member
    obtain ⟨cell, found, rfl⟩ := List.mem_map.mp member
    have := hosts.inside cell found
    omega
  have short := FreeList.length_le_of_nodup_of_lt hosts.distinct below
  rwa [List.length_map] at short

theorem Measures.header_eq_ok {cell : Cell} (measured : arena.Measures cell) :
    ∃ tag, arena.header cell.offset = .ok tag ∧ tag.size = cell.size := by
  obtain ⟨tag, found, size⟩ := measured
  exact ⟨tag, header_eq_ok_iff.mpr found, size⟩

theorem Measures.sizeAt_eq {cell : Cell} (measured : arena.Measures cell) :
    arena.sizeAt cell.offset = cell.size := by
  obtain ⟨tag, found, size⟩ := measured
  rw [sizeAt, found]
  exact size

/-! ### Writing links -/

theorem yields_setNextLink {block : Nat} (link : Option Nat) (inside : block + 16 ≤ before.size)
    (small : Link.word link < wordLimit) :
    Action.Yields before (setNextLink block link) fun _ after =>
      Alters (fun index => block + 8 ≤ index ∧ index < block + 16) before after ∧
        after.word? (block + 8) = some (Link.word link) := by
  have bound := before.size_lt
  unfold setNextLink
  refine Action.yields_bind_lift (Word.add_eq_ok_iff.mpr ⟨?_, rfl⟩) ?_
  · simp only [wordSize]
    omega
  · refine yields_setWord (by simp only [wordSize]; omega) ⟨?_, ?_⟩
    · exact alters_withWord before _ _
    · exact word?_withWord_self (by omega) small

theorem yields_setPreviousLink {block : Nat} (link : Option Nat)
    (inside : block + 16 ≤ before.size) (small : Link.word link < wordLimit) :
    Action.Yields before (setPreviousLink block link) fun _ after =>
      Alters (fun index => block ≤ index ∧ index < block + 8) before after ∧
        after.word? block = some (Link.word link) := by
  refine yields_setWord (by omega) ⟨alters_withWord before _ _, ?_⟩
  exact word?_withWord_self (by omega) small

/-- The link to the next node is written where there is a node. -/
theorem yields_setNextLinkOf (node link : Option Nat)
    (inside : ∀ block, node = some block → block + 16 ≤ before.size)
    (small : Link.word link < wordLimit) :
    Action.Yields before (setNextLinkOf node link) fun _ after =>
      Alters (NextBytes node) before after ∧
        ∀ block, node = some block → after.word? (block + 8) = some (Link.word link) := by
  cases node with
  | none => exact Action.yields_pure ⟨Alters.refl _ _, by simp⟩
  | some block =>
    refine (yields_setNextLink link (inside block rfl) small).mono ?_
    rintro _ after ⟨alters, stored⟩
    refine ⟨alters.mono fun index hit => ⟨block, rfl, hit⟩, ?_⟩
    rintro _ ⟨rfl⟩
    exact stored

/-- The link to the node before is written where there is a node. -/
theorem yields_setPreviousLinkOf (node link : Option Nat)
    (inside : ∀ block, node = some block → block + 16 ≤ before.size)
    (small : Link.word link < wordLimit) :
    Action.Yields before (setPreviousLinkOf node link) fun _ after =>
      Alters (PreviousBytes node) before after ∧
        ∀ block, node = some block → after.word? block = some (Link.word link) := by
  cases node with
  | none => exact Action.yields_pure ⟨Alters.refl _ _, by simp⟩
  | some block =>
    refine (yields_setPreviousLink link (inside block rfl) small).mono ?_
    rintro _ after ⟨alters, stored⟩
    refine ⟨alters.mono fun index hit => ⟨block, rfl, hit⟩, ?_⟩
    rintro _ ⟨rfl⟩
    exact stored

/-! ### Nodes that join and leave -/

section

variable {low high : List Nat} {block : Nat} {Result : Type}
variable {rest : Action (Arena σ) Result} {condition : Result → Arena σ → Prop}

theorem word_getLast?_lt (inside : ∀ node ∈ low, node + 16 ≤ before.size) :
    Link.word low.getLast? < wordLimit := by
  have bound := before.size_lt
  cases found : low.getLast? with
  | none => decide
  | some node =>
    have := inside node (List.mem_of_getLast? found)
    simp only [Link.word, Option.getD_some]
    omega

theorem word_head?_lt (inside : ∀ node ∈ high, node + 16 ≤ before.size) :
    Link.word high.head? < wordLimit := by
  have bound := before.size_lt
  cases found : high.head? with
  | none => decide
  | some node =>
    have := inside node (List.mem_of_mem_head? found)
    simp only [Link.word, Option.getD_some]
    omega

/-- Whether the last of some nodes got a new link to the next, the first of other nodes got a
new link to the one before, and nothing else changed. -/
structure Relinks (low high : List Nat) (next previous : Option Nat) (before after : Arena σ) :
    Prop where
  alters : Alters (fun index => NextBytes low.getLast? index ∨ PreviousBytes high.head? index)
    before after
  next : ∀ node, low.getLast? = some node → after.word? (node + 8) = some (Link.word next)
  previous : ∀ node, high.head? = some node → after.word? node = some (Link.word previous)

theorem mem_append_of_getLast? (high : List Nat) {node : Nat} (found : low.getLast? = some node) :
    node ∈ low ++ high :=
  List.mem_append_left _ (List.mem_of_getLast? found)

theorem mem_append_of_head? (low : List Nat) {node : Nat} (found : high.head? = some node) :
    node ∈ low ++ high :=
  List.mem_append_right _ (List.mem_of_mem_head? found)

/-- Other nodes keep their links to the next. -/
theorem Relinks.forward {next previous : Option Nat} {after : Arena σ} {nodes : List Nat}
    {node : Nat} (relinks : Relinks low high next previous before after)
    (scattered : Scattered nodes) (within : low ++ high ⊆ nodes) (member : node ∈ nodes)
    (different : low.getLast? ≠ some node) :
    after.word? (node + 8) = before.word? (node + 8) := by
  refine relinks.alters.word? ?_
  rintro index _ _ (⟨other, found, _, _⟩ | ⟨other, found, _, _⟩)
  · have := scattered node member other (within (mem_append_of_getLast? high found))
    have : node ≠ other := fun same => different (same ▸ found)
    omega
  · have := scattered node member other (within (mem_append_of_head? low found))
    omega

/-- Other nodes keep their links to the one before. -/
theorem Relinks.backward {next previous : Option Nat} {after : Arena σ} {nodes : List Nat}
    {node : Nat} (relinks : Relinks low high next previous before after)
    (scattered : Scattered nodes) (within : low ++ high ⊆ nodes) (member : node ∈ nodes)
    (different : high.head? ≠ some node) : after.word? node = before.word? node := by
  refine relinks.alters.word? ?_
  rintro index _ _ (⟨other, found, _, _⟩ | ⟨other, found, _, _⟩)
  · have := scattered node member other (within (mem_append_of_getLast? high found))
    omega
  · have := scattered node member other (within (mem_append_of_head? low found))
    have : node ≠ other := fun same => different (same ▸ found)
    omega

/-- The two nodes beside a cut get a new link each. -/
theorem yields_relink (scattered : Scattered (low ++ high))
    (inside : ∀ node ∈ low ++ high, node + 16 ≤ before.size) {next previous : Option Nat}
    (nextSmall : Link.word next < wordLimit) (previousSmall : Link.word previous < wordLimit)
    (continues : ∀ after, Relinks low high next previous before after →
      Action.Yields after rest condition) :
    Action.Yields before (do
      setNextLinkOf low.getLast? next
      setPreviousLinkOf high.head? previous
      rest) condition := by
  refine (yields_setNextLinkOf low.getLast? next
    (fun node found => inside node (mem_append_of_getLast? high found)) nextSmall).bind ?_
  rintro _ one ⟨oneAlters, oneWord⟩
  refine (yields_setPreviousLinkOf high.head? previous (fun node found => by
    rw [oneAlters.size]
    exact inside node (mem_append_of_head? low found)) previousSmall).bind ?_
  rintro _ two ⟨twoAlters, twoWord⟩
  refine continues two ⟨?_, fun node found => ?_, twoWord⟩
  · exact (oneAlters.mono fun index hit => Or.inl hit).trans
      (twoAlters.mono fun index hit => Or.inr hit)
  · rw [twoAlters.word?]
    · exact oneWord node found
    · rintro index _ _ ⟨other, otherFound, _, _⟩
      have := scattered node (mem_append_of_getLast? high found) other
        (mem_append_of_head? low otherFound)
      omega

/-- A block gets both of its links. -/
theorem yields_link (previous next : Option Nat) (room : block + 16 ≤ before.size)
    (previousSmall : Link.word previous < wordLimit) (nextSmall : Link.word next < wordLimit)
    (continues : ∀ after, Alters (fun index => block ≤ index ∧ index < block + 16) before after →
      after.word? block = some (Link.word previous) →
      after.word? (block + 8) = some (Link.word next) →
      Action.Yields after rest condition) :
    Action.Yields before (do
      setPreviousLink block previous
      setNextLink block next
      rest) condition := by
  refine (yields_setPreviousLink previous room previousSmall).bind ?_
  rintro _ one ⟨oneAlters, oneWord⟩
  refine (yields_setNextLink next (by rw [oneAlters.size]; exact room) nextSmall).bind ?_
  rintro _ two ⟨twoAlters, twoWord⟩
  refine continues two ?_ ?_ twoWord
  · exact (oneAlters.mono fun index hit => by omega).trans
      (twoAlters.mono fun index hit => by omega)
  · rw [twoAlters.word? fun index _ _ _ => by omega]
    exact oneWord

/-- Four links make a block a node of a sequence at one of its cuts. -/
theorem yields_join (threads : before.Threads (low ++ high))
    (distinct : (block :: (low ++ high)).Nodup) (scattered : Scattered (block :: (low ++ high)))
    (room : block + 16 ≤ before.size)
    (continues : ∀ after, after.Threads (low ++ block :: high) →
      Alters (fun index => block ≤ index ∧ index < block + 16 ∨
        NextBytes low.getLast? index ∨ PreviousBytes high.head? index) before after →
      Action.Yields after rest condition) :
    Action.Yields before (do
      setPreviousLink block low.getLast?
      setNextLink block high.head?
      setNextLinkOf low.getLast? (some block)
      setPreviousLinkOf high.head? (some block)
      rest) condition := by
  have bound := before.size_lt
  obtain ⟨fresh, distinct⟩ := List.nodup_cons.mp distinct
  have inside := threads.inside
  have blockSmall : Link.word (some block) < wordLimit := by
    simp only [Link.word, Option.getD_some]
    omega
  refine yields_link low.getLast? high.head? room
    (word_getLast?_lt fun node member => inside node (List.mem_append_left _ member))
    (word_head?_lt fun node member => inside node (List.mem_append_right _ member)) ?_
  intro one linked toPrevious toNext
  have others : Scattered (low ++ high) := fun node member other otherMember =>
    scattered node (List.mem_cons_of_mem _ member) other (List.mem_cons_of_mem _ otherMember)
  have apart : ∀ node ∈ low ++ high, node + 24 ≤ block ∨ block + 24 ≤ node :=
    fun node member => (scattered node (List.mem_cons_of_mem _ member) block
      List.mem_cons_self).resolve_left fun same => fresh (same ▸ member)
  refine yields_relink others (by rw [linked.size]; exact inside) blockSmall blockSmall ?_
  intro two relinks
  -- The words of the block itself are clear of the links of its neighbours.
  have lowLinked : two.Linked low.getLast? (some block) := by
    refine ⟨relinks.next, ?_⟩
    rintro _ ⟨rfl⟩
    rw [relinks.backward scattered (List.subset_cons_self _ _) List.mem_cons_self
      fun found => fresh (mem_append_of_head? low found)]
    exact toPrevious
  have highLinked : two.Linked (some block) high.head? := by
    refine ⟨?_, relinks.previous⟩
    rintro _ ⟨rfl⟩
    rw [relinks.forward scattered (List.subset_cons_self _ _) List.mem_cons_self
      fun found => fresh (mem_append_of_getLast? high found)]
    exact toNext
  refine continues two (threads.insert distinct lowLinked highLinked ?_ ?_) ?_
  · intro node member notLast
    rw [relinks.forward others (List.Subset.refl _) member notLast]
    exact linked.word? fun index _ _ _ => by
      have := apart node member
      omega
  · intro node member notFirst
    rw [relinks.backward others (List.Subset.refl _) member notFirst]
    exact linked.word? fun index _ _ _ => by
      have := apart node member
      omega
  · exact (linked.mono fun index hit => Or.inl hit).trans
      (relinks.alters.mono fun index hit => Or.inr hit)

/-- Two links around a block take it out of a sequence of nodes. -/
theorem yields_leave (threads : before.Threads (low ++ block :: high))
    (distinct : (low ++ block :: high).Nodup) (scattered : Scattered (low ++ block :: high))
    (continues : ∀ after, after.Threads (low ++ high) →
      Alters (fun index => NextBytes low.getLast? index ∨ PreviousBytes high.head? index)
        before after →
      Action.Yields after rest condition) :
    Action.Yields before (do
      setNextLinkOf low.getLast? high.head?
      setPreviousLinkOf high.head? low.getLast?
      rest) condition := by
  have fewer : (low ++ high).Sublist (low ++ block :: high) :=
    (List.Sublist.refl low).append (List.sublist_cons_self block high)
  have others : Scattered (low ++ high) := fun node member other otherMember =>
    scattered node (fewer.mem member) other (fewer.mem otherMember)
  have inside : ∀ node ∈ low ++ high, node + 16 ≤ before.size :=
    fun node member => threads.inside node (fewer.mem member)
  refine yields_relink others inside
    (word_head?_lt fun node member => inside node (List.mem_append_right _ member))
    (word_getLast?_lt fun node member => inside node (List.mem_append_left _ member)) ?_
  intro after relinks
  have linked : after.Linked low.getLast? high.head? := ⟨relinks.next, relinks.previous⟩
  refine continues after (threads.remove (distinct.sublist fewer) linked ?_ ?_) relinks.alters
  · exact fun node member notLast => relinks.forward others (List.Subset.refl _) member notLast
  · exact fun node member notFirst => relinks.backward others (List.Subset.refl _) member notFirst

end

end Arena

namespace FreeList

variable {σ : Type} [Source σ] {arena : Arena σ} {list : FreeList}
variable {cells front back : List Cell} {cell : Cell}

/-- Whether a list stands for some cells in their order. -/
structure Follows (list : FreeList) (arena : Arena σ) (cells : List Cell) : Prop where
  headed : list.head = (cells.map Cell.offset).head?
  counted : list.length = cells.length
  threaded : arena.Threads (cells.map Cell.offset)

/-! ### Searching -/

theorem map_offset_split (split : cells = front ++ cell :: back) :
    cells.map Cell.offset =
      front.map Cell.offset ++ cell.offset :: back.map Cell.offset := by
  rw [split, List.map_append, List.map_cons]

/-- The place of a size is the gap between the smaller nodes and the others. -/
theorem seek_eq_ok (threads : arena.Threads (cells.map Cell.offset)) (hosts : arena.Hosts cells)
    (bound : Nat) {budget : Nat} (front : List Cell) (split : cells = front ++ back)
    (ascending : Cell.Ascending back) (enough : back.length ≤ budget) :
    seek arena bound budget (front.map Cell.offset).getLast? (back.map Cell.offset).head? =
      .ok (((front ++ back.filter (·.size < bound)).map Cell.offset).getLast?,
        ((back.filter (bound ≤ ·.size)).map Cell.offset).head?) := by
  induction back generalizing front budget with
  | nil => cases budget <;> simp [seek]
  | cons cell rest inductionHypothesis =>
    obtain _ | budget := budget
    · simp at enough
    · obtain ⟨tag, header, size⟩ :=
        (hosts.measured cell (by rw [split]; simp)).header_eq_ok
      have next := threads.nextLink_eq_ok hosts.named (map_offset_split split)
      have parts := ascending.split bound
      rw [List.map_cons, List.head?_cons, seek, header]
      by_cases large : bound ≤ cell.size
      · have least := (List.pairwise_cons.mp ascending).1
        have none : (cell :: rest).filter (·.size < bound) = [] := by
          rw [List.filter_eq_nil_iff]
          intro other member
          have : cell.size ≤ other.size := by
            rcases List.mem_cons.mp member with rfl | later
            · exact Nat.le_refl _
            · exact least other later
          simp only [decide_eq_true_eq]
          omega
        rw [none, List.nil_append] at parts
        simp only [bind, Except.bind, size, large, if_true, pure, Except.pure, none, parts,
          List.append_nil, List.map_cons, List.head?_cons]
      · have small : cell.size < bound := by omega
        have longer : cells = (front ++ [cell]) ++ rest := by simp [split]
        have later := inductionHypothesis _ longer (List.pairwise_cons.mp ascending).2
          (Nat.le_of_succ_le_succ enough)
        rw [List.map_append, List.map_singleton, List.getLast?_concat] at later
        simp only [bind, Except.bind, size, large, if_false, next, later, List.filter_cons, small,
          decide_true, decide_false, if_true, Bool.false_eq_true, List.append_assoc,
          List.singleton_append]

/-- A search along the links finds what a search along the cells finds. -/
theorem firstFit_eq_ok (threads : arena.Threads (cells.map Cell.offset))
    (hosts : arena.Hosts cells) (bound : Nat) {budget : Nat} (front : List Cell)
    (split : cells = front ++ back) (enough : back.length ≤ budget) :
    firstFit arena bound budget (back.map Cell.offset).head? =
      .ok ((back.find? (bound ≤ ·.size)).map Cell.offset) := by
  induction back generalizing front budget with
  | nil => cases budget <;> rfl
  | cons cell rest inductionHypothesis =>
    obtain _ | budget := budget
    · simp at enough
    · obtain ⟨tag, header, size⟩ :=
        (hosts.measured cell (by rw [split]; simp)).header_eq_ok
      have next := threads.nextLink_eq_ok hosts.named (map_offset_split split)
      have longer : cells = (front ++ [cell]) ++ rest := by simp [split]
      have later := inductionHypothesis _ longer (Nat.le_of_succ_le_succ enough)
      rw [List.map_cons, List.head?_cons, firstFit, header, next]
      by_cases large : bound ≤ cell.size
      · simp [bind, Except.bind, size, large, pure, Except.pure]
      · simp only [bind, Except.bind, size, large, if_false, later, List.find?_cons, decide_false]

theorem Follows.find_eq_ok (follows : list.Follows arena cells) (hosts : arena.Hosts cells)
    (size : Nat) : list.find arena size = .ok ((cells.find? (size ≤ ·.size)).map Cell.offset) := by
  have found := firstFit_eq_ok follows.threaded hosts size [] rfl hosts.length_le
  rwa [← follows.headed] at found

/-! ### Changing -/

theorem head?_map_offset_append (front back : List Cell) :
    ((front ++ back).map Cell.offset).head? =
      if (front.map Cell.offset).getLast?.isNone then (back.map Cell.offset).head?
      else (front.map Cell.offset).head? := by
  cases front with
  | nil => rfl
  | cons cell rest => simp [List.getLast?_cons]

/-- A cell goes in front of the first that is not smaller. Besides its own links, those that
lead to it change. -/
theorem yields_insert {before : Arena σ} (follows : list.Follows before cells)
    (hosts : before.Hosts (cell :: cells)) (ascending : Cell.Ascending cells) :
    Action.Yields before (list.insert cell.offset) fun inserted after =>
      inserted.Follows after (cell.insertInto cells) ∧
        Arena.Alters (fun index => cell.offset ≤ index ∧ index < cell.offset + 16 ∨
          Arena.NextBytes ((cells.filter (·.size < cell.size)).map Cell.offset).getLast? index ∨
          Arena.PreviousBytes ((cells.filter (cell.size ≤ ·.size)).map Cell.offset).head? index)
          before after := by
  have others : before.Hosts cells := {
    measured := fun other member => hosts.measured other (List.mem_cons_of_mem _ member)
    inside := fun other member => hosts.inside other (List.mem_cons_of_mem _ member)
    distinct := (List.nodup_cons.mp hosts.distinct).2
    scattered := fun one oneMember other otherMember => hosts.scattered one
      (List.mem_cons_of_mem _ oneMember) other (List.mem_cons_of_mem _ otherMember) }
  obtain ⟨tag, header, size⟩ := (hosts.measured cell List.mem_cons_self).header_eq_ok
  have place := seek_eq_ok follows.threaded others cell.size [] rfl ascending
    others.length_le
  rw [← follows.headed, List.map_nil, List.getLast?_nil, List.nil_append] at place
  have parts := ascending.split cell.size
  have counted : Word.add list.length 1 = .ok (cells.length + 1) := by
    have few := hosts.length_le
    have bound := before.size_lt
    rw [List.length_cons] at few
    exact Word.add_eq_ok_iff.mpr ⟨by rw [follows.counted]; omega, by rw [follows.counted]⟩
  unfold insert Cell.insertInto
  refine Action.yields_bind_inspect header ?_
  refine Action.yields_bind_inspect (by rw [size]; exact place) ?_
  generalize cells.filter (·.size < cell.size) = front at *
  generalize cells.filter (cell.size ≤ ·.size) = back at *
  obtain rfl : front ++ back = cells := parts
  have threads := follows.threaded
  have distinct := hosts.distinct
  have scattered := hosts.scattered
  rw [List.map_append] at threads
  rw [List.map_cons, List.map_append] at distinct scattered
  refine Arena.yields_join threads distinct scattered (hosts.inside cell List.mem_cons_self) ?_
  intro after joined alters
  refine Action.yields_bind_lift counted (Action.yields_pure ⟨⟨?_, ?_, ?_⟩, alters⟩)
  · rw [head?_map_offset_append, follows.headed, head?_map_offset_append]
    split <;> rfl
  · simp
    omega
  · rwa [List.map_append, List.map_cons]

/-- A cell leaves its list, and only the links that lead to it change. -/
theorem yields_remove {before : Arena σ} (follows : list.Follows before cells)
    (hosts : before.Hosts cells) (split : cells = front ++ cell :: back) :
    Action.Yields before (list.remove cell.offset) fun removed after =>
      removed.Follows after (front ++ back) ∧
        Arena.Alters (fun index => Arena.NextBytes (front.map Cell.offset).getLast? index ∨
          Arena.PreviousBytes (back.map Cell.offset).head? index) before after := by
  have nodes := map_offset_split split
  have threads := follows.threaded
  have previous := threads.previousLink_eq_ok hosts.named nodes
  have next := threads.nextLink_eq_ok hosts.named nodes
  have distinct := hosts.distinct
  have scattered := hosts.scattered
  have headed := follows.headed
  have counted : Word.sub list.length 1 = .ok (front ++ back).length := by
    rw [follows.counted, split, Word.sub_eq_ok_iff]
    simp
    omega
  rw [split, head?_map_offset_append] at headed
  rw [nodes] at threads distinct scattered
  unfold remove
  refine Action.yields_bind_inspect previous ?_
  refine Action.yields_bind_inspect next ?_
  refine Arena.yields_leave threads distinct scattered fun after left alters => ?_
  refine Action.yields_bind_lift counted (Action.yields_pure ⟨⟨?_, rfl, ?_⟩, alters⟩)
  · rw [head?_map_offset_append, headed]
    split <;> rfl
  · rwa [List.map_append]

end FreeList

end SegregatedFit
