import OpenCam.Bytes.BigEndian

/-!
The byte arrays of a program on the Java virtual machine. They are objects: two
variables may name the same array, and a write through one is seen through the
other.
-/

namespace Jvm

open Octets

/-- The arrays that have been created. A reference is the number of one of them. -/
abbrev Arrays := List Bytes

namespace Arrays

variable (arrays : Arrays)

def read (ref : Nat) : Bytes := arrays.getD ref []

/-- A new array with these contents. -/
def alloc (contents : Bytes) : Nat × Arrays := (arrays.length, arrays ++ [contents])

/-- `System.arraycopy`. -/
def arraycopy (src : Nat) (srcPos : Nat) (dest : Nat) (destPos length : Nat) :
    Except String Arrays :=
  if (arrays.read src).length < srcPos + length ∨ (arrays.read dest).length < destPos + length then
    .error "ArrayIndexOutOfBoundsException"
  else
    .ok (arrays.set dest ((arrays.read dest).take destPos ++
      ((arrays.read src).drop srcPos).take length ++ (arrays.read dest).drop (destPos + length)))

def fill (ref : Nat) (value : UInt8) : Arrays :=
  arrays.set ref (List.replicate (arrays.read ref).length value)

variable {arrays} {ref other : Nat} {contents : Bytes}

@[simp] theorem read_append_last : read (arrays ++ [contents]) arrays.length = contents := by
  simp [read]

theorem read_append (h : ref < arrays.length) : read (arrays ++ [contents]) ref = arrays.read ref := by
  rw [read, read, List.getD_eq_getElem?_getD, List.getD_eq_getElem?_getD,
    List.getElem?_append_left h]

@[simp] theorem read_set_same (h : ref < arrays.length) : read (arrays.set ref contents) ref = contents := by
  simp [read, h]

theorem read_set_other (h : ref ≠ other) : read (arrays.set ref contents) other = arrays.read other := by
  simp [read, List.getElem?_set_ne h]

theorem read_fill_other (h : ref ≠ other) (value : UInt8) :
    (arrays.fill ref value).read other = arrays.read other := read_set_other h

end Arrays

end Jvm
