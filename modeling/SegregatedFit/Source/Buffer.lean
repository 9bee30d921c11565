/-
This file defines the buffer, a source whose bytes lie in one array. Growth appends
zero bytes, up to a maximum that is chosen when the buffer is made, and only if the
host has room for the longer array.
-/

import SegregatedFit.Source
import SegregatedFit.Source.Host

namespace SegregatedFit

/-- An array of bytes that grows up to a maximum while its host agrees. -/
structure Buffer where
  host : Host
  bytes : Array UInt8
  maximum : Nat
  bounded : bytes.size ≤ maximum
  addressable : bytes.size < wordLimit

namespace Buffer

/-- The maximum of a buffer for which none is chosen, twenty mebibytes. -/
def defaultMaximum : Nat := 20 <<< 20

/-- A buffer without bytes, whose array is on the given host. -/
def onHost (host : Host) (maximum : Nat) : Buffer where
  host
  bytes := #[]
  maximum
  bounded := Nat.zero_le _
  addressable := by decide

/-- A buffer without bytes. -/
def ofMaximum (maximum : Nat) : Buffer :=
  onHost .common maximum

instance : Inhabited Buffer := ⟨ofMaximum defaultMaximum⟩

/-- The new size has to be a word that the maximum allows; only then the host is asked. -/
def allows (buffer : Buffer) (size count : Nat) : Bool :=
  size + count < wordLimit && size + count ≤ buffer.maximum && buffer.host.growsArray size count

theorem allows_eq_true_iff {buffer : Buffer} {size count : Nat} :
    buffer.allows size count = true ↔
      (size + count < wordLimit ∧ size + count ≤ buffer.maximum) ∧
        buffer.host.growsArray size count = true := by
  simp only [allows, Bool.and_eq_true, decide_eq_true_eq]

/-- Where the host grants what the maximum allows, the maximum decides. -/
theorem allows_eq_true_iff_of_grows {buffer : Buffer}
    (grows : buffer.host.GrowsArraysUpTo buffer.maximum) {size count : Nat} :
    buffer.allows size count = true ↔
      size + count < wordLimit ∧ size + count ≤ buffer.maximum := by
  rw [allows_eq_true_iff]
  exact and_iff_left_of_imp fun checks => grows size count checks.2

instance : Source Buffer where
  size buffer := buffer.bytes.size
  capacity buffer := buffer.maximum
  allows
  byte buffer offset := buffer.bytes.getD offset 0
  setByte := fun ⟨host, bytes, maximum, bounded, addressable⟩ offset value =>
    ⟨host, bytes.setIfInBounds offset value, maximum, by simpa using bounded,
      by simpa using addressable⟩
  advance := fun ⟨host, bytes, maximum, _, _⟩ count room =>
    ⟨host, bytes ++ Array.replicate count 0, maximum,
      by simpa using (allows_eq_true_iff.mp room).1.2,
      by simpa using (allows_eq_true_iff.mp room).1.1⟩
  size_le_capacity buffer := buffer.bounded
  size_lt buffer := buffer.addressable
  byte_of_size_le buffer offset beyond := by simp [Array.getD, Nat.not_lt.mpr beyond]
  byte_setByte buffer offset other value := by
    simp only [Array.getD_eq_getD_getElem?, Array.getElem?_setIfInBounds]
    by_cases here : offset = other
    · subst here
      by_cases inside : offset < buffer.bytes.size <;> simp [inside]
    · rw [if_neg here, if_neg fun hit => here hit.1.symm]
  size_setByte _ _ _ := by simp
  capacity_setByte _ _ _ := rfl
  allows_setByte _ _ _ := rfl
  byte_advance buffer count _ offset := by
    simp only [Array.getD_eq_getD_getElem?, Array.getElem?_append]
    by_cases inside : offset < buffer.bytes.size
    · rw [if_pos inside]
    · rw [if_neg inside, Array.getElem?_replicate]
      split <;> simp [Nat.not_lt.mp inside]
  size_advance _ _ _ := by simp
  capacity_advance _ _ _ := rfl
  allows_advance _ _ _ := rfl

@[simp] theorem size_ofMaximum (maximum : Nat) : Source.size (ofMaximum maximum) = 0 := rfl

end Buffer

end SegregatedFit
