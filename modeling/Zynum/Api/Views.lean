import Zynum.Vector.LevelOne

set_option autoImplicit false

/- The vector views of api/views.zig and api/aliasing.zig. A slice is an address
   counted in reals and a number of elements; bytes only appear where two storage
   ranges are compared. The first argument of a check is runtime_checks_enabled: a
   fast build leaves out slice capacities and overlaps and relies on its caller
   for them. -/
namespace Zynum.Api

open Element (width)
open LevelOne (realBytes)

inductive Error where
  | dimensionMismatch
  | invalidLength
  | invalidStride
  | invalidLeadingDimension
  | bufferTooSmall
  | workspaceTooSmall
  | aliasingNotAllowed
  deriving DecidableEq, Repr

structure Slice where
  start : Nat
  len : Nat
  deriving DecidableEq, Repr

structure VectorView where
  values : Slice
  length : Int
  stride : Int := 1
  deriving DecidableEq, Repr

-- std.math.minInt(BlasInt), which has no absolute value.
def minBlasInt : Int := -2147483648

def absoluteStride (stride : Int) : Except Error Nat :=
  if stride = 0 then .error .invalidStride
  else if stride = minBlasInt then .error .invalidStride
  else .ok stride.natAbs

def requiredVectorStorageLength (length stride : Int) : Except Error Nat :=
  if length < 0 then .error .invalidLength
  else if length = 0 then .ok 0
  else do
    let step ← absoluteStride stride
    .ok (1 + (toUsize length - 1) * step)

def ensureCapacity (checked : Bool) (dataLen required : Nat) : Except Error Unit :=
  if checked && decide (dataLen < required) then .error .bufferTooSmall else .ok ()

def validateVectorStorage (checked : Bool) (dataLen : Nat) (length stride : Int) : Except Error Unit := do
  let required ← requiredVectorStorageLength length stride
  ensureCapacity checked dataLen required

def VectorView.check (checked : Bool) (view : VectorView) : Except Error Unit :=
  validateVectorStorage checked view.values.len view.length view.stride

structure ByteRange where
  start : Nat
  finish : Nat

namespace ByteRange

def isEmpty (range : ByteRange) : Bool := range.start == range.finish

def overlap (first second : ByteRange) : Bool :=
  if first.isEmpty || second.isEmpty then false
  else decide (first.start < second.finish) && decide (second.start < first.finish)

end ByteRange

section Aliasing

variable {R : Type} (T : Type) [Element R T]

def elementBytes : Nat := width T * realBytes (Scalar.precision T)

def byteRange (start len : Nat) : Except Error ByteRange :=
  let address := start * realBytes (Scalar.precision T)
  let bytes := len * elementBytes T
  if 2 ^ 64 ≤ bytes then .error .invalidLength
  else if 2 ^ 64 ≤ address + bytes then .error .invalidLength
  else .ok ⟨address, address + bytes⟩

def vectorRange (view : VectorView) : Except Error ByteRange := do
  let len ← requiredVectorStorageLength view.length view.stride
  byteRange T view.values.start len

def vectorsExactlyMatch (first second : VectorView) : Bool :=
  first.values.start == second.values.start && first.length == second.length && first.stride == second.stride

def ensureNoVectorOverlap (checked : Bool) (first second : VectorView) : Except Error Unit :=
  if !checked then .ok ()
  else do
    let left ← vectorRange T first
    let right ← vectorRange T second
    if left.overlap right then .error .aliasingNotAllowed else .ok ()

def ensureNoPartialVectorOverlap (checked : Bool) (first second : VectorView) : Except Error Unit :=
  if !checked then .ok ()
  else if vectorsExactlyMatch first second then .ok ()
  else ensureNoVectorOverlap T checked first second

end Aliasing

end Zynum.Api
