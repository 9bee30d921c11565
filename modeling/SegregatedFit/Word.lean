/-
This file fixes the machine word and the faults. Offsets, sizes and tags are natural
numbers below `wordLimit`; a sum or a difference that leaves that range is a fault, and
so is an access outside the memory. A fault is never a refusal: refusals are answers
that a caller can act on, a fault means that a promise was broken, for instance by
releasing a pointer twice.
-/

namespace SegregatedFit

/-- A machine word has eight bytes. -/
@[simp] abbrev wordSize : Nat := 8

/-- Words are the natural numbers below this one. -/
@[simp] abbrev wordLimit : Nat := 1 <<< 64

/-- The numbers that fit in `count` bytes are those below this one. -/
def byteLimit : (count : Nat) → Nat
  | 0 => 1
  | count + 1 => 256 * byteLimit count

/-- The ways in which an operation can fail to answer. All of them stop it but `endless`. -/
inductive Fault where
  /-- A sum does not fit in a word. -/
  | overflow
  /-- A difference would be negative. -/
  | underflow
  /-- The `count` bytes from `offset` on are not all in memory. -/
  | outOfBounds (offset count : Nat)
  /-- A size with low bits set cannot share its word with the flags. -/
  | ragged (size : Nat)
  /-- The offset zero is no pointer. -/
  | nullPointer
  /-- A chain of links visits some block twice, so whoever follows it never comes to its end. -/
  | endless
  /-- The action of the caller gave up on its own. -/
  | abandoned
deriving DecidableEq

namespace Fault

variable {Value Answer : Type}

/-- The value that has to be there, or a fault. -/
def expect (fault : Fault) : Option Value → Except Fault Value
  | some value => .ok value
  | none => .error fault

theorem expect_eq_ok_iff {fault : Fault} {found : Option Value} {value : Value} :
    expect fault found = .ok value ↔ found = some value := by
  cases found <;> simp [expect]

/-- Two steps have an answer when the first has one and the second has one after it. -/
theorem bind_eq_ok_iff {first : Except Fault Value} {second : Value → Except Fault Answer}
    {answer : Answer} :
    first >>= second = .ok answer ↔ ∃ value, first = .ok value ∧ second value = .ok answer := by
  cases first <;> simp [bind, Except.bind]

end Fault

namespace Word

/-- The sum of two words, if it is a word. -/
def add (first second : Nat) : Except Fault Nat :=
  if first + second < wordLimit then .ok (first + second) else .error .overflow

/-- The word after a word, if there is one. What counts up to a limit comes nearer to it. -/
def next (number : Nat) : Except Fault { following : Nat // number < following } :=
  if number + 1 < wordLimit then .ok ⟨number + 1, Nat.lt_succ_self number⟩ else .error .overflow

/-- The difference of two words, if it is not negative. -/
def sub (first second : Nat) : Except Fault Nat :=
  if second ≤ first then .ok (first - second) else .error .underflow

theorem add_eq_ok_iff {first second sum : Nat} :
    add first second = .ok sum ↔ first + second < wordLimit ∧ first + second = sum := by
  simp only [add, wordLimit]
  split <;> simp <;> omega

theorem next_eq_ok_iff {number : Nat} {following : { following : Nat // number < following }} :
    next number = .ok following ↔ number + 1 < wordLimit ∧ number + 1 = following.val := by
  obtain ⟨following, above⟩ := following
  simp only [next, wordLimit]
  split <;> simp <;> omega

theorem sub_eq_ok_iff {first second difference : Nat} :
    sub first second = .ok difference ↔ second ≤ first ∧ first - second = difference := by
  simp only [sub]
  split <;> simp <;> omega

end Word

end SegregatedFit
