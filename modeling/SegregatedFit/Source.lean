/-
This file defines the sources of memory. A source hands out bytes in one growing range:
it starts empty, and its break moves forward and never back. Whether the break moves is
for the source to say. The operations come with their laws, so a statement about an
allocator holds over every source. The main statements: bytes stored as a word are loaded
as that word, and a store leaves every byte outside of its range alone.
-/

import SegregatedFit.Refusal
import SegregatedFit.Word

namespace SegregatedFit

/-- A provider of one contiguous range of bytes that grows at its end. -/
class Source (σ : Type) where
  /-- The number of bytes handed out so far, which is the break. -/
  size : σ → Nat
  /-- The number of bytes that the source is meant to hand out in all. -/
  capacity : σ → Nat
  /-- Whether `count` more bytes are granted when the break is at `size`. One answer says
  nothing about another: a source may refuse few bytes and grant many. -/
  allows : σ → (size count : Nat) → Bool
  /-- The byte at an offset, and zero from the break on. -/
  byte : σ → Nat → UInt8
  /-- The source with another byte at an offset; nothing changes from the break on. -/
  setByte : σ → Nat → UInt8 → σ
  /-- The source with its break moved forward. -/
  advance : (source : σ) → (count : Nat) → allows source (size source) count → σ
  size_le_capacity (source : σ) : size source ≤ capacity source
  size_lt (source : σ) : size source < wordLimit
  byte_of_size_le (source : σ) (offset : Nat) :
    size source ≤ offset → byte source offset = 0
  byte_setByte (source : σ) (offset other : Nat) (value : UInt8) :
    byte (setByte source offset value) other =
      if other = offset ∧ offset < size source then value else byte source other
  size_setByte (source : σ) (offset : Nat) (value : UInt8) :
    size (setByte source offset value) = size source
  capacity_setByte (source : σ) (offset : Nat) (value : UInt8) :
    capacity (setByte source offset value) = capacity source
  allows_setByte (source : σ) (offset : Nat) (value : UInt8) :
    allows (setByte source offset value) = allows source
  byte_advance (source : σ) (count : Nat) (room : allows source (size source) count)
      (offset : Nat) :
    byte (advance source count room) offset = byte source offset
  size_advance (source : σ) (count : Nat) (room : allows source (size source) count) :
    size (advance source count room) = size source + count
  capacity_advance (source : σ) (count : Nat) (room : allows source (size source) count) :
    capacity (advance source count room) = capacity source
  allows_advance (source : σ) (count : Nat) (room : allows source (size source) count) :
    allows (advance source count room) = allows source

attribute [simp] Source.size_setByte Source.capacity_setByte Source.allows_setByte
  Source.byte_advance Source.size_advance Source.capacity_advance Source.allows_advance

namespace Source

variable {σ : Type} [Source σ]

/-- The number of bytes that can still be asked for. -/
def remaining (source : σ) : Nat :=
  capacity source - size source

/-- Asks for more bytes, which follow the old ones and are zero. The answer is the offset
where they begin; a refusal leaves the source as it was. -/
def request (source : σ) (count : Nat) : Except Refusal Nat × σ :=
  if room : allows source (size source) count then
    let old := size source
    (.ok old, advance source count room)
  else
    let refusal := Refusal.outOfMemory count (remaining source)
    (.error refusal, source)

theorem request_eq_ok {source : σ} {count : Nat}
    (room : allows source (size source) count) :
    request source count = (.ok (size source), advance source count room) :=
  dif_pos room

theorem request_eq_error {source : σ} {count : Nat}
    (refused : allows source (size source) count = false) :
    request source count = (.error (.outOfMemory count (remaining source)), source) :=
  dif_neg (ne_true_of_eq_false refused)

/-- The number that the `count` bytes from an offset on spell, the least byte first. -/
def load (source : σ) (offset : Nat) : Nat → Nat
  | 0 => 0
  | count + 1 => (byte source offset).toNat + 256 * load source (offset + 1) count

/-- The source with the `count` least bytes of a number written from an offset on. -/
def store (source : σ) (offset value : Nat) : Nat → σ
  | 0 => source
  | count + 1 =>
    store (setByte source offset (UInt8.ofNat value)) (offset + 1) (value / 256) count

/-- The `count` bytes from an offset on. -/
def readBytes (source : σ) (offset count : Nat) : List UInt8 :=
  (List.range count).map fun index => byte source (offset + index)

/-- The source with the given bytes written from an offset on. -/
def writeBytes (source : σ) (offset : Nat) : List UInt8 → σ
  | [] => source
  | value :: rest => writeBytes (setByte source offset value) (offset + 1) rest

/-! ### Reading what was written -/

theorem load_lt (source : σ) (offset count : Nat) :
    load source offset count < byteLimit count := by
  induction count generalizing offset with
  | zero => simp [load, byteLimit]
  | succ count inductionHypothesis =>
    have rest := inductionHypothesis (offset + 1)
    have first := (byte source offset).toNat_lt
    rw [load, byteLimit]
    omega

theorem load_congr {τ : Type} [Source τ] (first : σ) (second : τ) (offset count : Nat)
    (same : ∀ index, offset ≤ index → index < offset + count →
      byte first index = byte second index) :
    load first offset count = load second offset count := by
  induction count generalizing offset with
  | zero => rfl
  | succ count inductionHypothesis =>
    rw [load, load, same offset (by omega) (by omega),
      inductionHypothesis (offset + 1) fun index low high => same index (by omega) (by omega)]

/-- Bytes that spell the same number are the same. -/
theorem byte_eq_of_load_eq {τ : Type} [Source τ] {first : σ} {second : τ} {offset count : Nat}
    (same : load first offset count = load second offset count) :
    ∀ index, offset ≤ index → index < offset + count → byte first index = byte second index := by
  induction count generalizing offset with
  | zero =>
    intro index low high
    exact absurd high (Nat.not_lt_of_le low)
  | succ count inductionHypothesis =>
    rw [load, load] at same
    have one := (byte first offset).toNat_lt
    have other := (byte second offset).toNat_lt
    have head : (byte first offset).toNat = (byte second offset).toNat := by omega
    have tail : load first (offset + 1) count = load second (offset + 1) count := by omega
    intro index low high
    rcases Nat.eq_or_lt_of_le low with rfl | above
    · exact UInt8.toNat_inj.mp head
    · exact inductionHypothesis tail index above (by omega)

@[simp] theorem size_store (source : σ) (offset value count : Nat) :
    size (store source offset value count) = size source := by
  induction count generalizing source offset value with
  | zero => rfl
  | succ count inductionHypothesis => rw [store, inductionHypothesis, size_setByte]

@[simp] theorem capacity_store (source : σ) (offset value count : Nat) :
    capacity (store source offset value count) = capacity source := by
  induction count generalizing source offset value with
  | zero => rfl
  | succ count inductionHypothesis => rw [store, inductionHypothesis, capacity_setByte]

@[simp] theorem allows_store (source : σ) (offset value count : Nat) :
    allows (store source offset value count) = allows source := by
  induction count generalizing source offset value with
  | zero => rfl
  | succ count inductionHypothesis => rw [store, inductionHypothesis, allows_setByte]

/-- A store leaves every byte outside of its range alone. -/
theorem byte_store_of_outside (source : σ) (offset value count index : Nat)
    (outside : index < offset ∨ offset + count ≤ index) :
    byte (store source offset value count) index = byte source index := by
  induction count generalizing source offset value with
  | zero => rfl
  | succ count inductionHypothesis =>
    rw [store, inductionHypothesis _ _ _ (by omega), byte_setByte, if_neg (by omega)]

/-- A stored number is loaded again, less what does not fit in its bytes. -/
theorem load_store (source : σ) (offset value count : Nat)
    (inside : offset + count ≤ size source) :
    load (store source offset value count) offset count = value % byteLimit count := by
  induction count generalizing source offset value with
  | zero => simp [load, byteLimit, Nat.mod_one]
  | succ count inductionHypothesis =>
    rw [load, store, inductionHypothesis _ _ _ (by rw [size_setByte]; omega),
      byte_store_of_outside _ _ _ _ _ (by omega), byte_setByte,
      if_pos ⟨rfl, by omega⟩, UInt8.toNat_ofNat', byteLimit]
    exact Nat.mod_mul.symm

@[simp] theorem length_readBytes (source : σ) (offset count : Nat) :
    (readBytes source offset count).length = count := by
  simp [readBytes]

@[simp] theorem size_writeBytes (source : σ) (offset : Nat) (values : List UInt8) :
    size (writeBytes source offset values) = size source := by
  induction values generalizing source offset with
  | nil => rfl
  | cons value rest inductionHypothesis => rw [writeBytes, inductionHypothesis, size_setByte]

/-- Written bytes are read again, and the others stay as they were. -/
theorem byte_writeBytes (source : σ) (offset index : Nat) (values : List UInt8)
    (inside : offset + values.length ≤ size source) :
    byte (writeBytes source offset values) index =
      if offset ≤ index then values[index - offset]?.getD (byte source index)
      else byte source index := by
  induction values generalizing source offset with
  | nil => simp [writeBytes]
  | cons value rest inductionHypothesis =>
    rw [List.length_cons] at inside
    rw [writeBytes, inductionHypothesis _ _ (by rw [size_setByte]; omega), byte_setByte]
    by_cases before : index < offset
    · rw [if_neg (by omega), if_neg (by omega), if_neg (by omega)]
    · by_cases here : index = offset
      · subst here
        rw [if_neg (by omega), if_pos ⟨rfl, by omega⟩, if_pos (Nat.le_refl _), Nat.sub_self]
        rfl
      · have later : index - offset = (index - (offset + 1)) + 1 := by omega
        rw [if_pos (by omega), if_neg (by omega), if_pos (by omega), later,
          List.getElem?_cons_succ]

end Source

end SegregatedFit
