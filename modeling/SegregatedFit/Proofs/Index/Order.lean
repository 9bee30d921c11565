/-
This file proves that the buckets of an index cannot be told apart from one list. An index
follows cells in ascending order of their sizes when the list of every bucket follows those
of them that belong there. Since larger cells are never in an earlier bucket, the lists
together are the whole order again, and a search finds the first cell in it that fits.
-/

import Mathlib.Data.List.Nodup
import SegregatedFit.Index
import SegregatedFit.Proofs.FreeList.Operations

namespace SegregatedFit

namespace Arena

variable {σ : Type} [Source σ]

/-- The bytes of the links of some cells. -/
def NodeBytes (cells : List Cell) (index : Nat) : Prop :=
  ∃ cell ∈ cells, cell.offset ≤ index ∧ index < cell.offset + 16

theorem NodeBytes.mono {cells wider : List Cell} (widens : ∀ cell ∈ cells, cell ∈ wider)
    {index : Nat} (hit : NodeBytes cells index) : NodeBytes wider index := by
  obtain ⟨cell, member, range⟩ := hit
  exact ⟨cell, widens cell member, range⟩

theorem NextBytes.nodeBytes {cells : List Cell} {index : Nat}
    (hit : NextBytes (cells.map Cell.offset).getLast? index) : NodeBytes cells index := by
  obtain ⟨_, found, low, high⟩ := hit
  obtain ⟨cell, member, rfl⟩ := List.mem_map.mp (List.mem_of_getLast? found)
  exact ⟨cell, member, by omega, high⟩

theorem PreviousBytes.nodeBytes {cells : List Cell} {index : Nat}
    (hit : PreviousBytes (cells.map Cell.offset).head? index) : NodeBytes cells index := by
  obtain ⟨_, found, low, high⟩ := hit
  obtain ⟨cell, member, rfl⟩ := List.mem_map.mp (List.mem_of_mem_head? found)
  exact ⟨cell, member, low, by omega⟩

/-- Where an insertion writes are links of the new cell or of the others. -/
theorem nodeBytes_of_insert {cell : Cell} {cells : List Cell} {smaller larger : Cell → Bool}
    {index : Nat} (hit : cell.offset ≤ index ∧ index < cell.offset + 16 ∨
      NextBytes ((cells.filter smaller).map Cell.offset).getLast? index ∨
      PreviousBytes ((cells.filter larger).map Cell.offset).head? index) :
    NodeBytes (cell :: cells) index := by
  rcases hit with own | next | previous
  · exact ⟨cell, List.mem_cons_self, own⟩
  · exact next.nodeBytes.mono fun other member =>
      List.mem_cons_of_mem _ (List.filter_sublist.subset member)
  · exact previous.nodeBytes.mono fun other member =>
      List.mem_cons_of_mem _ (List.filter_sublist.subset member)

/-- Where a removal writes are links of the cells beside the one that leaves. -/
theorem nodeBytes_of_remove {cell : Cell} {front back : List Cell} {index : Nat}
    (hit : NextBytes (front.map Cell.offset).getLast? index ∨
      PreviousBytes (back.map Cell.offset).head? index) :
    NodeBytes (front ++ cell :: back) index := by
  rcases hit with next | previous
  · exact next.nodeBytes.mono fun other => List.mem_append_left _
  · exact previous.nodeBytes.mono fun other member =>
      List.mem_append_right _ (List.mem_cons_of_mem _ member)

/-- Fewer cells can be nodes where more can. -/
theorem Hosts.sublist {arena : Arena σ} {cells fewer : List Cell} (hosts : arena.Hosts cells)
    (sublist : fewer.Sublist cells) : arena.Hosts fewer where
  measured cell member := hosts.measured cell (sublist.subset member)
  inside cell member := hosts.inside cell (sublist.subset member)
  distinct := hosts.distinct.sublist (sublist.map _)
  scattered one oneMember other otherMember := hosts.scattered one
    ((sublist.map _).subset oneMember) other ((sublist.map _).subset otherMember)

/-- Different nodes keep apart. -/
theorem Hosts.apart {arena : Arena σ} {cells : List Cell} (hosts : arena.Hosts cells)
    {one other : Cell} (oneMember : one ∈ cells) (otherMember : other ∈ cells)
    (different : one ≠ other) :
    one.offset + 24 ≤ other.offset ∨ other.offset + 24 ≤ one.offset := by
  rcases hosts.scattered _ (List.mem_map_of_mem oneMember) _ (List.mem_map_of_mem otherMember) with
    same | apart
  · exact absurd (List.inj_on_of_nodup_map hosts.distinct oneMember otherMember same) different
  · exact apart

/-- The order of cells does not matter for whether they can be nodes. -/
theorem Hosts.perm {arena : Arena σ} {cells used : List Cell} (hosts : arena.Hosts cells)
    (perm : cells.Perm used) : arena.Hosts used where
  measured cell member := hosts.measured cell (perm.mem_iff.mpr member)
  inside cell member := hosts.inside cell (perm.mem_iff.mpr member)
  distinct := (perm.map _).nodup_iff.mp hosts.distinct
  scattered one oneMember other otherMember := hosts.scattered one
    ((perm.map _).mem_iff.mpr oneMember) other ((perm.map _).mem_iff.mpr otherMember)

/-- Cells keep their headers while nothing changes but links of such cells. -/
theorem Hosts.header?_eq {before after : Arena σ} {cells : List Cell} {cell : Cell}
    (hosts : before.Hosts cells) (alters : Alters (NodeBytes cells) before after)
    (member : cell ∈ cells) : after.header? cell.offset = before.header? cell.offset := by
  refine alters.header? ?_
  rintro index low high ⟨other, otherMember, reaches, ends⟩
  by_cases same : cell = other
  · subst same
    omega
  · have := hosts.apart member otherMember same
    omega

/-- Cells can be nodes as before while nothing changes but links of such cells. -/
theorem Hosts.alter {before after : Arena σ} {cells : List Cell} (hosts : before.Hosts cells)
    (alters : Alters (NodeBytes cells) before after) : after.Hosts cells where
  measured cell member := by
    obtain ⟨tag, found, size⟩ := hosts.measured cell member
    exact ⟨tag, (hosts.header?_eq alters member).trans found, size⟩
  inside cell member := by
    rw [alters.size]
    exact hosts.inside cell member
  distinct := hosts.distinct
  scattered := hosts.scattered

end Arena

namespace FreeList

variable {σ : Type} [Source σ] {before after : Arena σ} {list : FreeList} {cells : List Cell}

/-- A list follows the same cells while their links can still be read. -/
theorem Follows.congr (follows : list.Follows before cells)
    (forward : ∀ cell ∈ cells, after.word? (cell.offset + 8) = before.word? (cell.offset + 8))
    (backward : ∀ cell ∈ cells, after.word? cell.offset = before.word? cell.offset) :
    list.Follows after cells where
  headed := follows.headed
  counted := follows.counted
  threaded := by
    refine follows.threaded.congr (fun node member => ?_) fun node member => ?_
    · obtain ⟨cell, found, rfl⟩ := List.mem_map.mp member
      exact forward cell found
    · obtain ⟨cell, found, rfl⟩ := List.mem_map.mp member
      exact backward cell found

/-- A list that follows some cells stands for their nodes. -/
theorem Follows.represents (follows : list.Follows before cells) (hosts : before.Hosts cells)
    (ascending : Cell.Ascending cells) : list.Represents before (cells.map Cell.offset) where
  chained := by
    rw [follows.headed]
    exact follows.threaded.chained hosts.named (List.nil_append _).symm
  distinct := hosts.distinct
  headed node member := by
    obtain ⟨cell, found, rfl⟩ := List.mem_map.mp member
    obtain ⟨tag, header, _⟩ := hosts.measured cell found
    rw [header]
    rfl
  ascending := by
    refine List.pairwise_map.mpr (ascending.imp_of_mem fun one other ordered => ?_)
    rw [(hosts.measured _ one).sizeAt_eq, (hosts.measured _ other).sizeAt_eq]
    exact ordered
  counted := by rw [follows.counted, List.length_map]

/-- The cells that a list follows decide where it begins and how long it is. -/
theorem Follows.eq {τ : Type} [Source τ] {twin : Arena τ} {copy : FreeList}
    (follows : list.Follows before cells) (followed : copy.Follows twin cells) : list = copy := by
  obtain ⟨head, length⟩ := list
  obtain ⟨twinHead, twinLength⟩ := copy
  exact congrArg₂ FreeList.mk (follows.headed.trans followed.headed.symm)
    (follows.counted.trans followed.counted.symm)

/-- The cells that a list follows decide the links of their nodes. -/
theorem Follows.words_eq {τ : Type} [Source τ] {twin : Arena τ} {copy : FreeList} {cell : Cell}
    (follows : list.Follows before cells) (followed : copy.Follows twin cells)
    (member : cell ∈ cells) :
    before.word? cell.offset = twin.word? cell.offset ∧
      before.word? (cell.offset + 8) = twin.word? (cell.offset + 8) := by
  obtain ⟨front, back, split⟩ := List.append_of_mem member
  have parts := map_offset_split split
  exact ⟨(follows.threaded.backward parts).trans (followed.threaded.backward parts).symm,
    (follows.threaded.forward parts).trans (followed.threaded.forward parts).symm⟩

end FreeList

namespace Index

variable {σ : Type} [Source σ] {last : Nat} {arena before after : Arena σ}
variable {index : Index last} {order : List Cell} {cell : Cell}

/-- The cells of an order that belong to a bucket. -/
def bucketCells (last bucket : Nat) (order : List Cell) : List Cell :=
  order.filter fun cell => bucketFor last cell.size = bucket

/-- Whether the lists of an index stand for cells that come in an order of search. -/
def Follows (index : Index last) (arena : Arena σ) (order : List Cell) : Prop :=
  ∀ bucket : Fin (last + 1),
    (index.lists.get bucket).Follows arena (bucketCells last bucket order)

theorem mem_bucketCells {last bucket : Nat} :
    cell ∈ bucketCells last bucket order ↔ cell ∈ order ∧ bucketFor last cell.size = bucket := by
  simp [bucketCells]

theorem bucketCells_sublist (last bucket : Nat) (order : List Cell) :
    (bucketCells last bucket order).Sublist order :=
  List.filter_sublist

/-- An index follows the same cells while their links can still be read. -/
theorem Follows.congr (follows : index.Follows before order)
    (forward : ∀ cell ∈ order, after.word? (cell.offset + 8) = before.word? (cell.offset + 8))
    (backward : ∀ cell ∈ order, after.word? cell.offset = before.word? cell.offset) :
    index.Follows after order := fun bucket =>
  (follows bucket).congr
    (fun cell member => forward cell ((bucketCells_sublist last bucket order).subset member))
    fun cell member => backward cell ((bucketCells_sublist last bucket order).subset member)

/-- An index follows the same cells while none of their links is touched. -/
theorem Follows.alter (follows : index.Follows before order) {touched : Nat → Prop}
    (alters : before.Alters touched after)
    (clear : ∀ index, touched index → ¬ Arena.NodeBytes order index) :
    index.Follows after order := by
  refine follows.congr (fun cell member => ?_) fun cell member => ?_
  · exact alters.word? fun index low high hit => clear index hit
      ⟨cell, member, by omega, by omega⟩
  · exact alters.word? fun index low high hit => clear index hit
      ⟨cell, member, by omega, by omega⟩

/-- The list of a bucket stands for the cells of an order that belong there. -/
theorem Follows.represents (follows : index.Follows arena order) (hosts : arena.Hosts order)
    (ascending : Cell.Ascending order) (bucket : Fin (last + 1)) :
    (index.lists.get bucket).Represents arena
      ((bucketCells last bucket order).map Cell.offset) :=
  (follows bucket).represents (hosts.sublist (bucketCells_sublist last bucket order))
    (ascending.filter _)

/-- The cells of an order decide the links of their nodes. -/
theorem Follows.words_eq {τ : Type} [Source τ] {twin : Arena τ} {copy : Index last}
    (follows : index.Follows arena order) (followed : copy.Follows twin order)
    (member : cell ∈ order) :
    arena.word? cell.offset = twin.word? cell.offset ∧
      arena.word? (cell.offset + 8) = twin.word? (cell.offset + 8) :=
  let bucket : Fin (last + 1) := ⟨_, Nat.lt_succ_of_le (bucketFor_le last cell.size)⟩
  (follows bucket).words_eq (followed bucket) (mem_bucketCells.mpr ⟨member, rfl⟩)

/-! ### Searching -/

/-- The cells of a bucket come before those of the later buckets. -/
theorem bucketCells_append (ascending : Cell.Ascending order) (last bucket : Nat) :
    bucketCells last bucket order ++
        order.filter (fun cell => bucket + 1 ≤ bucketFor last cell.size) =
      order.filter fun cell => bucket ≤ bucketFor last cell.size := by
  have closed : (order.filter fun cell => bucket ≤ bucketFor last cell.size).Pairwise
      fun first second => decide (bucketFor last second.size = bucket) = true →
        decide (bucketFor last first.size = bucket) = true := by
    rw [List.pairwise_filter]
    refine ascending.imp fun {first second} least low _ here => ?_
    have ordered : bucketFor last first.size ≤ bucketFor last second.size := bucketFor_mono least
    simp only [decide_eq_true_eq] at low here ⊢
    omega
  have parts := Cell.filter_append_filter_not closed
  rw [List.filter_filter, List.filter_filter] at parts
  rw [← parts]
  congr 1
  · refine List.filter_congr fun cell _ => ?_
    by_cases here : bucketFor last cell.size = bucket <;> simp [here]
  · refine List.filter_congr fun cell _ => ?_
    rw [← decide_not, ← Bool.decide_and]
    exact decide_eq_decide.mpr (by omega)

/-- The lists from a bucket on find what a search through their cells finds. -/
theorem findSomeM?_drop (follows : index.Follows arena order) (hosts : arena.Hosts order)
    (ascending : Cell.Ascending order) (size : Nat) (left : Nat) :
    ∀ bucket, bucket + left = last + 1 →
      (index.lists.toList.drop bucket).findSomeM? (·.find arena size) =
        .ok (((order.filter fun cell => bucket ≤ bucketFor last cell.size).find?
          (size ≤ ·.size)).map Cell.offset) := by
  induction left with
  | zero =>
    intro bucket all
    have none : order.filter (fun cell => bucket ≤ bucketFor last cell.size) = [] := by
      rw [List.filter_eq_nil_iff]
      intro cell _
      have := bucketFor_le last cell.size
      simp only [decide_eq_true_eq]
      omega
    rw [none, List.drop_eq_nil_of_le (by simp; omega)]
    rfl
  | succ left inductionHypothesis =>
    intro bucket all
    have later := inductionHypothesis (bucket + 1) (by omega)
    have found := (follows ⟨bucket, by omega⟩).find_eq_ok
      (hosts.sublist (bucketCells_sublist last bucket order)) size
    have inside : bucket < index.lists.toList.length := by
      rw [Vector.length_toList]
      omega
    rw [List.drop_eq_getElem_cons inside, List.findSomeM?_cons, later,
      ← bucketCells_append ascending last bucket, List.find?_append]
    have here : index.lists.toList[bucket] = index.lists.get ⟨bucket, by omega⟩ :=
      Vector.getElem_toList _
    rw [here, found]
    cases (bucketCells last bucket order).find? (size ≤ ·.size) <;> rfl

/-- A search finds the first cell of the order that is large enough. -/
theorem find_eq_ok (follows : index.Follows arena order) (hosts : arena.Hosts order)
    (ascending : Cell.Ascending order) (size : Nat) :
    index.find arena size = .ok ((order.find? (size ≤ ·.size)).map Cell.offset) := by
  have bound := bucketFor_le last size
  unfold find
  rw [findSomeM?_drop follows hosts ascending size (last + 1 - bucketFor last size) _ (by omega),
    List.find?_filter]
  congr 3
  funext cell
  by_cases fits : size ≤ cell.size
  · have ordered : bucketFor last size ≤ bucketFor last cell.size := bucketFor_mono fits
    simp [fits, ordered]
  · simp [fits]

/-! ### Changing -/

@[simp] theorem get_setListFor (index : Index last) (size : Nat) (list : FreeList)
    (bucket : Fin (last + 1)) :
    (index.setListFor size list).lists.get bucket =
      if bucketFor last size = bucket then list else index.lists.get bucket := by
  have bound := Nat.lt_succ_of_le (bucketFor_le last size)
  exact Vector.getElem_set bound bucket.isLt

theorem listFor_follows (follows : index.Follows arena order) (size : Nat) :
    (index.listFor size).Follows arena (bucketCells last (bucketFor last size) order) :=
  follows ⟨bucketFor last size, _⟩

theorem bucketCells_insertInto (ascending : Cell.Ascending order) (cell : Cell) (bucket : Nat) :
    bucketCells last bucket (cell.insertInto order) =
      if bucketFor last cell.size = bucket then cell.insertInto (bucketCells last bucket order)
      else bucketCells last bucket order := by
  unfold bucketCells
  rw [Cell.filter_insertInto ascending]
  simp only [decide_eq_true_eq]

/-- When only the list of one bucket changes, and its nodes alone, the lists of the other
buckets stay. -/
theorem Follows.other (follows : index.Follows before order)
    {cells : List Cell} (hosts : before.Hosts cells) {bucket : Fin (last + 1)}
    (within : ∀ other ∈ order, other ∈ cells) {used : List Cell} {size : Nat}
    (uses : ∀ one ∈ used, one ∈ cells ∧ bucketFor last one.size = bucketFor last size)
    (elsewhere : bucketFor last size ≠ bucket)
    (alters : before.Alters (Arena.NodeBytes used) after) :
    (index.lists.get bucket).Follows after (bucketCells last bucket order) := by
  have clear : ∀ other ∈ bucketCells last bucket order, ∀ index,
      Arena.NodeBytes used index → ¬ (other.offset ≤ index ∧ index < other.offset + 16) := by
    rintro other member index ⟨one, found, low, high⟩ hit
    obtain ⟨otherMember, there⟩ := mem_bucketCells.mp member
    obtain ⟨oneMember, here⟩ := uses one found
    have := hosts.apart oneMember (within other otherMember) (by
      rintro rfl
      exact elsewhere (here.symm.trans there))
    omega
  refine (follows bucket).congr (fun other member => ?_) fun other member => ?_
  · exact alters.word? fun index low high hit =>
      clear other member index hit ⟨by omega, by omega⟩
  · exact alters.word? fun index low high hit =>
      clear other member index hit ⟨by omega, by omega⟩

/-- A cell joins the order of search in front of the first that is not smaller. -/
theorem yields_insert (follows : index.Follows before order) (hosts : before.Hosts (cell :: order))
    (ascending : Cell.Ascending order) :
    Action.Yields before (index.insert cell.offset) fun inserted after =>
      inserted.Follows after (cell.insertInto order) ∧
        Arena.Alters (Arena.NodeBytes (cell :: order)) before after := by
  obtain ⟨tag, header, size⟩ := (hosts.measured cell List.mem_cons_self).header_eq_ok
  unfold insert
  refine Action.yields_bind_inspect header ?_
  rw [size]
  refine (FreeList.yields_insert (listFor_follows follows cell.size)
    (hosts.sublist ((bucketCells_sublist _ _ _).cons_cons cell)) (ascending.filter _)).bind ?_
  rintro list after ⟨inserted, alters⟩
  have alters : Arena.Alters (Arena.NodeBytes (cell ::
      bucketCells last (bucketFor last cell.size) order)) before after :=
    alters.mono fun index => Arena.nodeBytes_of_insert
  refine Action.yields_pure ⟨fun bucket => ?_, ?_⟩
  · rw [get_setListFor, bucketCells_insertInto ascending]
    split
    · rename_i here
      rwa [here] at inserted
    · rename_i elsewhere
      refine follows.other hosts (fun other => List.mem_cons_of_mem _) ?_ elsewhere alters
      intro one member
      rcases List.mem_cons.mp member with rfl | later
      · exact ⟨List.mem_cons_self, rfl⟩
      · obtain ⟨found, here⟩ := mem_bucketCells.mp later
        exact ⟨List.mem_cons_of_mem _ found, here⟩
  · exact alters.mono fun index hit => hit.mono
      ((bucketCells_sublist _ _ _).cons_cons cell).subset

/-- A cell leaves the order of search. The condition tells it from the others. -/
theorem yields_remove (follows : index.Follows before order) (hosts : before.Hosts order)
    (member : cell ∈ order) {others : Cell → Bool}
    (only : ∀ other ∈ order, others other = true ↔ other ≠ cell) :
    Action.Yields before (index.remove cell.offset) fun removed after =>
      removed.Follows after (order.filter others) ∧
        Arena.Alters (Arena.NodeBytes order) before after := by
  obtain ⟨tag, header, size⟩ := (hosts.measured cell member).header_eq_ok
  have sublist := bucketCells_sublist last (bucketFor last cell.size) order
  obtain ⟨front, back, split⟩ := List.append_of_mem (mem_bucketCells.mpr ⟨member, rfl⟩)
  have bucketHosts := hosts.sublist sublist
  have rest : (bucketCells last (bucketFor last cell.size) order).filter others =
      front ++ back := by
    have distinct := bucketHosts.distinct.of_map
    rw [split] at distinct sublist ⊢
    have fresh := (List.nodup_cons.mp (List.nodup_middle.mp distinct)).1
    have kept : ∀ other ∈ front ++ back, others other = true := by
      intro other found
      refine (only other (sublist.subset ?_)).mpr fun same => fresh (same ▸ found)
      exact ((List.Sublist.refl front).append (List.sublist_cons_self cell back)).subset found
    have dropped : ¬ others cell = true := fun holds => (only cell member).mp holds rfl
    rw [List.filter_append, List.filter_cons_of_neg dropped, ← List.filter_append]
    exact List.filter_eq_self.mpr kept
  unfold remove
  refine Action.yields_bind_inspect header ?_
  rw [size]
  refine (FreeList.yields_remove (listFor_follows follows cell.size) bucketHosts split).bind ?_
  rintro list after ⟨removed, alters⟩
  have alters : Arena.Alters (Arena.NodeBytes
      (bucketCells last (bucketFor last cell.size) order)) before after := by
    rw [split]
    exact alters.mono fun index => Arena.nodeBytes_of_remove
  have swap (bucket : Nat) : bucketCells last bucket (order.filter others) =
      (bucketCells last bucket order).filter others := by
    simp only [bucketCells, List.filter_filter, Bool.and_comm]
  refine Action.yields_pure ⟨fun bucket => ?_, ?_⟩
  · rw [get_setListFor, swap]
    split
    · rename_i here
      rwa [← here, rest]
    · rename_i elsewhere
      have stays :
          (bucketCells last bucket order).filter others = bucketCells last bucket order := by
        refine List.filter_eq_self.mpr fun other found => ?_
        obtain ⟨found, there⟩ := mem_bucketCells.mp found
        exact (only other found).mpr fun same => elsewhere (same ▸ there)
      rw [stays]
      exact follows.other hosts (fun other found => found)
        (fun one found => mem_bucketCells.mp found) elsewhere alters
  · exact alters.mono fun index hit => hit.mono sublist.subset

end Index

end SegregatedFit
