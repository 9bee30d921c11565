/-
This file compares arenas over different sources. Sources are alike when they have the same size,
the same bytes and allow the same growth; how they keep their bytes does not matter. An action
mirrors another one when both do the same to states that are alike: they give the same answer or
stop with the same fault, and leave states that are alike again. Every action on arenas mirrors
itself.
-/

import SegregatedFit.Arena.Growth
import SegregatedFit.Arena.Link

namespace SegregatedFit

/-! ### Sources -/

namespace Source

variable {σ τ : Type} [Source σ] [Source τ] {first : σ} {second : τ}

/-- Whether two sources have the same bytes and allow the same growth. -/
structure Alike (first : σ) (second : τ) : Prop where
  size : size first = size second
  capacity : capacity first = capacity second
  allows : allows first = allows second
  byte : ∀ offset, byte first offset = byte second offset

theorem Alike.symm (alike : Alike first second) : Alike second first where
  size := alike.size.symm
  capacity := alike.capacity.symm
  allows := alike.allows.symm
  byte offset := (alike.byte offset).symm

theorem Alike.remaining (alike : Alike first second) :
    Source.remaining first = Source.remaining second := by
  unfold Source.remaining
  rw [alike.capacity, alike.size]

theorem Alike.load (alike : Alike first second) (offset count : Nat) :
    Source.load first offset count = Source.load second offset count :=
  load_congr first second offset count fun index _ _ => alike.byte index

theorem Alike.readBytes (alike : Alike first second) (offset count : Nat) :
    Source.readBytes first offset count = Source.readBytes second offset count := by
  unfold Source.readBytes
  simp only [alike.byte]

theorem Alike.setByte (alike : Alike first second) (offset : Nat) (value : UInt8) :
    Alike (Source.setByte first offset value) (Source.setByte second offset value) where
  size := by rw [size_setByte, size_setByte, alike.size]
  capacity := by rw [capacity_setByte, capacity_setByte, alike.capacity]
  allows := by rw [allows_setByte, allows_setByte, alike.allows]
  byte other := by rw [byte_setByte, byte_setByte, alike.size, alike.byte]

theorem Alike.store (alike : Alike first second) (offset value count : Nat) :
    Alike (Source.store first offset value count) (Source.store second offset value count) := by
  induction count generalizing first second offset value with
  | zero => exact alike
  | succ count inductionHypothesis => exact inductionHypothesis (alike.setByte offset _) _ _

theorem Alike.writeBytes (alike : Alike first second) (offset : Nat) (values : List UInt8) :
    Alike (Source.writeBytes first offset values) (Source.writeBytes second offset values) := by
  induction values generalizing first second offset with
  | nil => exact alike
  | cons value rest inductionHypothesis => exact inductionHypothesis (alike.setByte offset value) _

/-- Sources that are alike grow alike, or refuse alike. -/
theorem Alike.request (alike : Alike first second) (count : Nat) :
    (Source.request first count).1 = (Source.request second count).1 ∧
      Alike (Source.request first count).2 (Source.request second count).2 := by
  have same : Source.allows second (Source.size second) count =
      Source.allows first (Source.size first) count := by
    rw [alike.allows, alike.size]
  by_cases room : Source.allows first (Source.size first) count = true
  · rw [request_eq_ok room, request_eq_ok (same.trans room)]
    refine ⟨congrArg _ alike.size, ?_, ?_, ?_, fun offset => ?_⟩
    · rw [size_advance, size_advance, alike.size]
    · rw [capacity_advance, capacity_advance, alike.capacity]
    · rw [allows_advance, allows_advance, alike.allows]
    · rw [byte_advance, byte_advance, alike.byte]
  · have refused := eq_false_of_ne_true room
    rw [request_eq_error refused, request_eq_error (same.trans refused), alike.remaining]
    exact ⟨rfl, alike⟩

end Source

/-! ### Actions that do the same -/

namespace Action

variable {state other Answer Result : Type} {related : state → other → Prop}

/-- Whether two runs end with the same answer or with the same fault, and in related states. -/
inductive EndAlike (related : state → other → Prop) :
    EStateM.Result Fault state Answer → EStateM.Result Fault other Answer → Prop
  | ok {answer : Answer} {after : state} {later : other} (relates : related after later) :
    EndAlike related (.ok answer after) (.ok answer later)
  | error {fault : Fault} {after : state} {later : other} (relates : related after later) :
    EndAlike related (.error fault after) (.error fault later)

/-- Whether two actions do the same to related states. -/
def Mirrors (related : state → other → Prop) (first : Action state Answer)
    (second : Action other Answer) : Prop :=
  ∀ before twin, related before twin → EndAlike related (first before) (second twin)

theorem mirrors_pure (answer : Answer) : Mirrors related (pure answer) (pure answer) :=
  fun _ _ relates => .ok relates

theorem Mirrors.bind {first : Action state Answer} {second : Action other Answer}
    {next : Answer → Action state Result} {following : Answer → Action other Result}
    (one : Mirrors related first second)
    (rest : ∀ answer, Mirrors related (next answer) (following answer)) :
    Mirrors related (first >>= next) (second >>= following) := by
  intro before twin relates
  have ends := one before twin relates
  simp only [Bind.bind, EStateM.bind]
  generalize first before = outcome, second twin = result at ends
  cases ends with
  | ok between => exact rest _ _ _ between
  | error between => exact .error between

theorem mirrors_lift (outcome : Except Fault Answer) :
    Mirrors related (liftM outcome) (liftM outcome) := by
  intro before twin relates
  cases outcome with
  | ok answer => exact .ok relates
  | error fault => exact .error relates

theorem mirrors_inspect {read : state → Except Fault Answer} {view : other → Except Fault Answer}
    (same : ∀ before twin, related before twin → read before = view twin) :
    Mirrors related (inspect read) (inspect view) := by
  intro before twin relates
  unfold inspect
  rw [same before twin relates]
  cases view twin with
  | ok answer => exact .ok relates
  | error fault => exact .error relates

theorem mirrors_look {read : state → Answer} {view : other → Answer}
    (same : ∀ before twin, related before twin → read before = view twin) :
    Mirrors related (look read) (look view) := by
  intro before twin relates
  unfold look
  rw [same before twin relates]
  exact .ok relates

/-- A run has a counterpart from every related state. -/
theorem Mirrors.exists_of_eq_ok {first : Action state Answer} {second : Action other Answer}
    (mirrors : Mirrors related first second) {before after : state} {twin : other}
    (relates : related before twin) {answer : Answer} (answered : first before = .ok answer after) :
    ∃ later, second twin = .ok answer later ∧ related after later := by
  have ends := mirrors before twin relates
  rw [answered] at ends
  generalize second twin = result at ends
  cases ends with
  | ok relates => exact ⟨_, rfl, relates⟩

end Action

/-! ### Arenas -/

namespace Arena

variable {σ τ : Type} [Source σ] [Source τ] {first : Arena σ} {second : Arena τ}

/-- Whether two arenas lie in sources that are alike, and grew equally often. -/
structure Alike (first : Arena σ) (second : Arena τ) : Prop where
  source : Source.Alike first.source second.source
  growths : first.growths = second.growths

/-- Whether two actions do the same to arenas that are alike. -/
abbrev Mirrors (σ τ : Type) [Source σ] [Source τ] {Answer : Type}
    (action : Action (Arena σ) Answer) (other : Action (Arena τ) Answer) : Prop :=
  Action.Mirrors Alike action other

namespace Alike

variable (alike : first.Alike second)

include alike

theorem size : first.size = second.size :=
  alike.source.size

theorem remaining : first.remaining = second.remaining :=
  alike.source.remaining

theorem word? (offset : Nat) : first.word? offset = second.word? offset := by
  unfold Arena.word?
  rw [alike.size, alike.source.load]

theorem word (offset : Nat) : first.word offset = second.word offset := by
  unfold Arena.word
  rw [alike.word?]

theorem bytes (offset count : Nat) : first.bytes offset count = second.bytes offset count := by
  unfold Arena.bytes
  rw [alike.size, alike.source.readBytes]

theorem header? (block : Nat) : first.header? block = second.header? block := by
  unfold Arena.header?
  rw [alike.word?]

theorem header (block : Nat) : first.header block = second.header block := by
  unfold Arena.header
  rw [alike.header?]

theorem nextBlock (block : Nat) : first.nextBlock block = second.nextBlock block := by
  unfold Arena.nextBlock
  rw [alike.header]

theorem footerOffset (block : Nat) : first.footerOffset block = second.footerOffset block := by
  unfold Arena.footerOffset
  rw [alike.nextBlock]

theorem previousBlock (block : Nat) : first.previousBlock block = second.previousBlock block := by
  unfold Arena.previousBlock
  simp only [alike.word]

theorem previousLink (block : Nat) : first.previousLink block = second.previousLink block := by
  unfold Arena.previousLink
  rw [alike.word]

theorem nextLink (block : Nat) : first.nextLink block = second.nextLink block := by
  unfold Arena.nextLink
  simp only [alike.word]

end Alike

/-! ### Changing arenas -/

theorem mirrors_setWord (offset value : Nat) :
    Mirrors σ τ (setWord offset value) (setWord offset value) := by
  intro before twin alike
  unfold setWord
  rw [alike.size]
  split
  · exact .ok ⟨alike.source.store _ _ _, alike.growths⟩
  · exact .error alike

theorem mirrors_setBytes (offset : Nat) (values : List UInt8) :
    Mirrors σ τ (setBytes offset values) (setBytes offset values) := by
  intro before twin alike
  unfold setBytes
  rw [alike.size]
  split
  · exact .ok ⟨alike.source.writeBytes _ _, alike.growths⟩
  · exact .error alike

theorem mirrors_copy (origin target count : Nat) :
    Mirrors σ τ (copy origin target count) (copy origin target count) :=
  (Action.mirrors_inspect fun _ _ alike => alike.bytes _ _).bind fun _ => mirrors_setBytes _ _

theorem mirrors_setHeader (block : Nat) (tag : Tag) :
    Mirrors σ τ (setHeader block tag) (setHeader block tag) :=
  (Action.mirrors_lift _).bind fun _ => mirrors_setWord _ _

theorem mirrors_setFreeTags (block size : Nat) (prevAllocated : Bool) :
    Mirrors σ τ (setFreeTags block size prevAllocated) (setFreeTags block size prevAllocated) :=
  (Action.mirrors_lift _).bind fun _ => (mirrors_setHeader _ _).bind fun _ =>
    (Action.mirrors_inspect fun _ _ alike => alike.footerOffset _).bind fun _ => mirrors_setWord _ _

theorem mirrors_setAllocatedTag (block size : Nat) (prevAllocated : Bool) :
    Mirrors σ τ (setAllocatedTag block size prevAllocated)
      (setAllocatedTag block size prevAllocated) :=
  (Action.mirrors_lift _).bind fun _ => mirrors_setHeader _ _

theorem mirrors_setNextPrevAllocated (block : Nat) (allocated : Bool) :
    Mirrors σ τ (setNextPrevAllocated block allocated) (setNextPrevAllocated block allocated) :=
  (Action.mirrors_inspect fun _ _ alike => alike.nextBlock _).bind fun _ =>
    (Action.mirrors_inspect fun _ _ alike => alike.header _).bind fun _ => mirrors_setHeader _ _

theorem mirrors_setPreviousLinkOf (node link : Option Nat) :
    Mirrors σ τ (setPreviousLinkOf node link) (setPreviousLinkOf node link) := by
  cases node with
  | none => exact Action.mirrors_pure ()
  | some block => exact mirrors_setWord _ _

theorem mirrors_setNextLink (block : Nat) (link : Option Nat) :
    Mirrors σ τ (setNextLink block link) (setNextLink block link) :=
  (Action.mirrors_lift _).bind fun _ => mirrors_setWord _ _

theorem mirrors_setNextLinkOf (node link : Option Nat) :
    Mirrors σ τ (setNextLinkOf node link) (setNextLinkOf node link) := by
  cases node with
  | none => exact Action.mirrors_pure ()
  | some block => exact mirrors_setNextLink _ _

/-! ### Growth -/

theorem mirrors_countGrowth : Mirrors σ τ countGrowth countGrowth := by
  intro before twin alike
  unfold countGrowth
  simp only [alike.growths]
  split
  · exact .ok ⟨alike.source, rfl⟩
  · exact .error ⟨alike.source, rfl⟩

theorem mirrors_moveBreak (count : Nat) : Mirrors σ τ (moveBreak count) (moveBreak count) := by
  intro before twin alike
  obtain ⟨same, sources⟩ := alike.source.request count
  unfold moveBreak
  simp only
  rw [same]
  exact .ok ⟨sources, alike.growths⟩

theorem mirrors_formatGrowth (block size : Nat) :
    Mirrors σ τ (formatGrowth block size) (formatGrowth block size) :=
  (Action.mirrors_inspect fun _ _ alike => alike.header _).bind fun _ =>
    (mirrors_setFreeTags _ _ _).bind fun _ => (Action.mirrors_lift _).bind fun _ =>
      (mirrors_setHeader _ _).bind fun _ => mirrors_countGrowth

theorem mirrors_grow (size : Nat) : Mirrors σ τ (grow size) (grow size) := by
  refine (mirrors_moveBreak size).bind fun outcome => ?_
  cases outcome with
  | error refusal => exact Action.mirrors_pure _
  | ok block => exact (mirrors_formatGrowth block size).bind fun _ => Action.mirrors_pure _

/-- Arenas begin alike in sources that are alike. -/
theorem init_alike {source : σ} {copy : τ} (alike : Source.Alike source copy) :
    (∃ refusal, init source = .error refusal ∧ init copy = .error refusal) ∨
      ∃ arena twin, init source = .ok arena ∧ init copy = .ok twin ∧ Alike arena twin := by
  obtain ⟨same, sources⟩ := alike.request sentinelsSize
  unfold init
  rw [← alike.size]
  split
  · generalize Source.request source sentinelsSize = first at *
    generalize Source.request copy sentinelsSize = second at *
    obtain ⟨outcome, begun⟩ := first
    obtain ⟨answer, started⟩ := second
    obtain rfl : outcome = answer := same
    cases outcome with
    | error refusal => exact Or.inl ⟨refusal, rfl, rfl⟩
    | ok offset =>
      refine Or.inr ⟨_, _, rfl, rfl, ?_, rfl⟩
      exact (((sources.store _ _ _).store _ _ _).store _ _ _).store _ _ _
  · exact Or.inl ⟨_, rfl, rfl⟩

end Arena

end SegregatedFit
