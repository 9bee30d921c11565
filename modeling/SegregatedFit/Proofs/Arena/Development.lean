/-
This file follows arenas through the actions on them. An action that rewrites an arena writes bytes
and nothing else; all of them do, down to the changes of the index, except for growth. Growth is
one grant of the source, which is counted once.
-/

import SegregatedFit.Index
import SegregatedFit.Proofs.Source.Grants
import SegregatedFit.Arena.Growth

namespace SegregatedFit

namespace Arena

variable {σ : Type} [Source σ] {Answer Result : Type}
variable {first second third before after : Arena σ} {granted more : List Nat}

/-- Whether an arena becomes another one by writes and by growths, each of which its source has
granted and the arena has counted. -/
structure Develops (before : Arena σ) (granted : List Nat) (after : Arena σ) : Prop where
  grants : Source.Grants before.source granted after.source
  counts : after.growths = before.growths + granted.length

theorem Develops.refl (arena : Arena σ) : arena.Develops [] arena where
  grants := .start
  counts := rfl

theorem Develops.trans (one : Develops first granted second) (other : Develops second more third) :
    Develops first (granted ++ more) third where
  grants := one.grants.trans other.grants
  counts := by
    rw [other.counts, one.counts, List.length_append, Nat.add_assoc]

/-- Whether an action only writes bytes when it answers. -/
def Rewrites (action : Action (Arena σ) Answer) : Prop :=
  ∀ before answer after, action before = .ok answer after → Develops before [] after

theorem Rewrites.develops {action : Action (Arena σ) Answer} (rewrites : Rewrites action) :
    ∀ answer arena, action before = .ok answer arena →
      ∃ granted, before.Develops granted arena :=
  fun _ _ answered => ⟨[], rewrites _ _ _ answered⟩

theorem rewrites_pure (answer : Answer) : Rewrites (pure answer : Action (Arena σ) Answer) := by
  intro before _ after answered
  obtain ⟨_, rfl⟩ := Action.pure_eq_ok_iff.mp answered
  exact Develops.refl before

theorem rewrites_lift (outcome : Except Fault Answer) :
    Rewrites (liftM outcome : Action (Arena σ) Answer) := by
  intro before _ after answered
  obtain ⟨_, rfl⟩ := Action.lift_eq_ok_iff.mp answered
  exact Develops.refl before

theorem rewrites_inspect (read : Arena σ → Except Fault Answer) :
    Rewrites (Action.inspect read) := by
  intro before _ after answered
  obtain ⟨_, rfl⟩ := Action.inspect_eq_ok_iff.mp answered
  exact Develops.refl before

theorem Rewrites.bind {action : Action (Arena σ) Answer}
    {rest : Answer → Action (Arena σ) Result} (one : Rewrites action)
    (other : ∀ answer, Rewrites (rest answer)) : Rewrites (action >>= rest) := by
  intro before _ after answered
  obtain ⟨answer, between, starts, ends⟩ := Action.bind_eq_ok_iff.mp answered
  exact (one _ _ _ starts).trans (other answer _ _ _ ends)

/-! ### Writing -/

theorem rewrites_setWord (offset value : Nat) :
    Rewrites (setWord offset value : Action (Arena σ) Unit) := by
  intro before _ after answered
  obtain ⟨_, rfl⟩ := setWord_eq_ok_iff.mp answered
  exact ⟨Source.grants_store _ _ _ _, rfl⟩

theorem rewrites_setBytes (offset : Nat) (values : List UInt8) :
    Rewrites (setBytes offset values : Action (Arena σ) Unit) := by
  intro before _ after answered
  obtain ⟨_, rfl⟩ := setBytes_eq_ok_iff.mp answered
  exact ⟨Source.grants_writeBytes _ _ _, rfl⟩

theorem rewrites_copy (origin target count : Nat) :
    Rewrites (copy origin target count : Action (Arena σ) Unit) :=
  (rewrites_inspect _).bind fun _ => rewrites_setBytes _ _

theorem rewrites_setHeader (block : Nat) (tag : Tag) :
    Rewrites (setHeader block tag : Action (Arena σ) Unit) :=
  (rewrites_lift _).bind fun _ => rewrites_setWord _ _

theorem rewrites_setFreeTags (block size : Nat) (prevAllocated : Bool) :
    Rewrites (setFreeTags block size prevAllocated : Action (Arena σ) Unit) :=
  (rewrites_lift _).bind fun _ => (rewrites_setHeader _ _).bind fun _ =>
    (rewrites_inspect _).bind fun _ => rewrites_setWord _ _

theorem rewrites_setAllocatedTag (block size : Nat) (prevAllocated : Bool) :
    Rewrites (setAllocatedTag block size prevAllocated : Action (Arena σ) Unit) :=
  (rewrites_lift _).bind fun _ => rewrites_setHeader _ _

theorem rewrites_setNextPrevAllocated (block : Nat) (allocated : Bool) :
    Rewrites (setNextPrevAllocated block allocated : Action (Arena σ) Unit) :=
  (rewrites_inspect _).bind fun _ => (rewrites_inspect _).bind fun _ => rewrites_setHeader _ _

theorem rewrites_setNextLink (block : Nat) (link : Option Nat) :
    Rewrites (setNextLink block link : Action (Arena σ) Unit) :=
  (rewrites_lift _).bind fun _ => rewrites_setWord _ _

theorem rewrites_setPreviousLinkOf (node link : Option Nat) :
    Rewrites (setPreviousLinkOf node link : Action (Arena σ) Unit) := by
  cases node with
  | none => exact rewrites_pure ()
  | some block => exact rewrites_setWord _ _

theorem rewrites_setNextLinkOf (node link : Option Nat) :
    Rewrites (setNextLinkOf node link : Action (Arena σ) Unit) := by
  cases node with
  | none => exact rewrites_pure ()
  | some block => exact rewrites_setNextLink _ _

/-! ### Growth -/

/-- The new bytes are written, and one growth is counted. -/
theorem grants_of_formatGrowth {block size : Nat} {answer : Unit}
    (answered : formatGrowth block size before = .ok answer after) :
    Source.Grants before.source [] after.source ∧ after.growths = before.growths + 1 := by
  obtain ⟨tag, one, read, answered⟩ := Action.bind_eq_ok_iff.mp answered
  obtain ⟨_, two, tagged, answered⟩ := Action.bind_eq_ok_iff.mp answered
  obtain ⟨stop, three, summed, answered⟩ := Action.bind_eq_ok_iff.mp answered
  obtain ⟨_, four, closed, counted⟩ := Action.bind_eq_ok_iff.mp answered
  have written : before.Develops [] four :=
    (((rewrites_inspect _ _ _ _ read).trans (rewrites_setFreeTags _ _ _ _ _ _ tagged)).trans
      (rewrites_lift _ _ _ _ summed)).trans (rewrites_setHeader _ _ _ _ _ closed)
  obtain ⟨source, growths⟩ := four
  simp only [countGrowth] at counted
  cases sum : Word.add growths 1 with
  | error fault =>
    rw [sum] at counted
    cases counted
  | ok following =>
    rw [sum] at counted
    obtain ⟨_, rfl⟩ := Word.add_eq_ok_iff.mp sum
    cases counted
    exact ⟨written.grants, congrArg (· + 1) written.counts⟩

/-- A growth that succeeds is granted and counted once. One that is refused is neither. -/
theorem develops_of_grow {count : Nat} {outcome : Except Refusal Nat}
    (answered : grow count before = .ok outcome after) :
    before.Develops (if outcome.isOk then [count] else []) after := by
  obtain ⟨source, growths⟩ := before
  obtain ⟨moved, between, advanced, rest⟩ := Action.bind_eq_ok_iff.mp answered
  have requested := Source.grants_request source count
  have moves : moveBreak count ⟨source, growths⟩ = .ok (Source.request source count).1
    ⟨(Source.request source count).2, growths⟩ := rfl
  obtain ⟨rfl, rfl⟩ := EStateM.Result.ok.inj (moves.symm.trans advanced)
  cases result : (Source.request source count).1 with
  | error refusal =>
    rw [result] at requested rest
    obtain ⟨rfl, rfl⟩ := Action.pure_eq_ok_iff.mp rest
    exact ⟨requested, rfl⟩
  | ok block =>
    rw [result] at requested rest
    obtain ⟨_, last, formatted, rest⟩ := Action.bind_eq_ok_iff.mp rest
    obtain ⟨rfl, rfl⟩ := Action.pure_eq_ok_iff.mp rest
    obtain ⟨written, counted⟩ := grants_of_formatGrowth formatted
    exact ⟨requested.trans written, counted⟩

/-- At the begin of an arena its source grants the bytes of the sentinels. -/
theorem grants_of_init {source : σ} (begun : init source = .ok after) :
    Source.size source = 0 ∧ Source.Grants source [sentinelsSize] after.source ∧
      after.growths = 0 := by
  unfold init at begun
  split at begun
  · rename_i empty
    have requested := Source.grants_request source sentinelsSize
    split at begun
    · rename_i request
      cases begun
      rw [request] at requested
      refine ⟨empty, ?_, rfl⟩
      exact (((requested.trans (Source.grants_store _ _ _ _)).trans
        (Source.grants_store _ _ _ _)).trans (Source.grants_store _ _ _ _)).trans
          (Source.grants_store _ _ _ _)
    · cases begun
  · cases begun

end Arena

/-! ### Changes of the index -/

namespace FreeList

variable {σ : Type} [Source σ]

theorem rewrites_insert (list : FreeList) (block : Nat) :
    Arena.Rewrites (list.insert block : Action (Arena σ) FreeList) :=
  (Arena.rewrites_inspect _).bind fun _ => (Arena.rewrites_inspect _).bind fun _ =>
    (Arena.rewrites_setWord _ _).bind fun _ => (Arena.rewrites_setNextLink _ _).bind fun _ =>
      (Arena.rewrites_setNextLinkOf _ _).bind fun _ =>
        (Arena.rewrites_setPreviousLinkOf _ _).bind fun _ =>
          (Arena.rewrites_lift _).bind fun _ => Arena.rewrites_pure _

theorem rewrites_remove (list : FreeList) (block : Nat) :
    Arena.Rewrites (list.remove block : Action (Arena σ) FreeList) :=
  (Arena.rewrites_inspect _).bind fun _ => (Arena.rewrites_inspect _).bind fun _ =>
    (Arena.rewrites_setNextLinkOf _ _).bind fun _ =>
      (Arena.rewrites_setPreviousLinkOf _ _).bind fun _ =>
        (Arena.rewrites_lift _).bind fun _ => Arena.rewrites_pure _

end FreeList

namespace Index

variable {σ : Type} [Source σ] {last : Nat}

theorem rewrites_insert (index : Index last) (block : Nat) :
    Arena.Rewrites (index.insert block : Action (Arena σ) (Index last)) :=
  (Arena.rewrites_inspect _).bind fun _ => (FreeList.rewrites_insert _ _).bind fun _ =>
    Arena.rewrites_pure _

theorem rewrites_remove (index : Index last) (block : Nat) :
    Arena.Rewrites (index.remove block : Action (Arena σ) (Index last)) :=
  (Arena.rewrites_inspect _).bind fun _ => (FreeList.rewrites_remove _ _).bind fun _ =>
    Arena.rewrites_pure _

end Index

end SegregatedFit
