import Zynum.Api.Views
import Zynum.Vector.Elementwise

set_option autoImplicit false

/- The vector operations of api/operations.zig over core/checked/operations.zig:
   every check of a call, then the Level 1 routine it hands the operands to. -/
namespace Zynum.Api

open ArrayProgram
open LevelOne (cellsFrom finished)

def checkedPairLength (firstLength secondLength : Int) : Except Error Int :=
  if firstLength < 0 ∨ secondLength < 0 then .error .invalidLength else .ok (min firstLength secondLength)

def requireEqualLength (firstLength secondLength : Int) : Except Error Unit :=
  if firstLength < 0 ∨ secondLength < 0 then .error .invalidLength
  else if firstLength ≠ secondLength then .error .dimensionMismatch
  else .ok ()

/- core/checked: a pointer, a length and a stride. -/
namespace Core

structure Vector where
  values : Nat
  length : Int
  stride : Int

def sharedLength (firstLength secondLength : Int) : Int := min firstLength secondLength

variable {R T : Type} [CommRing R] [LinearOrder R] [CommRing T] [Element R T]

variable (T) in
def swapVectors (machine : VectorMachine) (site : Site) (first second : Vector) : Execution Nat R Unit Unit :=
  LevelOne.swap T machine site (sharedLength first.length second.length) first.values second.values
    (cellsFrom first.values) first.stride (cellsFrom second.values) second.stride

variable (T) in
def copyVector (machine : VectorMachine) (site : Site) (source destination : Vector) : Execution Nat R Unit Unit :=
  LevelOne.copy T machine site (sharedLength source.length destination.length) source.values destination.values
    (cellsFrom source.values) source.stride (cellsFrom destination.values) destination.stride

def scaleVector (machine : VectorMachine) (site : Site) (vector : Vector) (scale : T) : Execution Nat R Unit Unit :=
  LevelOne.scal machine site vector.length scale (cellsFrom vector.values) vector.stride

def addScaledVector (machine : VectorMachine) (site : Site) (source destination : Vector) (scale : T) :
    Execution Nat R Unit Unit :=
  LevelOne.axpy machine site (sharedLength source.length destination.length) scale source.values destination.values
    (cellsFrom source.values) source.stride (cellsFrom destination.values) destination.stride

def combineVectors (machine : VectorMachine) (site : Site) (source destination : Vector)
    (sourceScale destinationScale : T) : Execution Nat R Unit Unit :=
  LevelOne.axpby machine site (sharedLength source.length destination.length) sourceScale destinationScale source.values
    destination.values (cellsFrom source.values) source.stride (cellsFrom destination.values) destination.stride

def dotProduct (machine : VectorMachine) (site : Site) (left right : Vector) (conjugateLeft : Bool) :
    Execution Nat R T T :=
  LevelOne.dot machine site (sharedLength left.length right.length) (cellsFrom left.values) left.stride
    (cellsFrom right.values) right.stride conjugateLeft

end Core

-- constVectorOperand and vectorOperand.
def VectorView.core (view : VectorView) : Core.Vector := ⟨view.values.start, view.length, view.stride⟩

def VectorView.shared (view : VectorView) (length : Int) : Core.Vector := ⟨view.values.start, length, view.stride⟩

section Operations

variable {R T : Type} [CommRing R] [LinearOrder R] [CommRing T] [Element R T]

variable (T) in
def swapVectors (checked : Bool) (machine : VectorMachine) (site : Site) (firstVector secondVector : VectorView) :
    Except Error (Execution Nat R Unit Unit) := do
  firstVector.check checked
  secondVector.check checked
  ensureNoPartialVectorOverlap T checked firstVector secondVector
  let sharedLength ← checkedPairLength firstVector.length secondVector.length
  return Core.swapVectors T machine site (firstVector.shared sharedLength) (secondVector.shared sharedLength)

variable (T) in
def copyVector (checked : Bool) (machine : VectorMachine) (site : Site) (sourceVector destinationVector : VectorView) :
    Except Error (Execution Nat R Unit Unit) := do
  sourceVector.check checked
  destinationVector.check checked
  if vectorsExactlyMatch sourceVector destinationVector then return finished
  ensureNoPartialVectorOverlap T checked sourceVector destinationVector
  let sharedLength ← checkedPairLength sourceVector.length destinationVector.length
  return Core.copyVector T machine site (sourceVector.shared sharedLength) (destinationVector.shared sharedLength)

def scaleVector (checked : Bool) (machine : VectorMachine) (site : Site) (targetVector : VectorView) (scale : T) :
    Except Error (Execution Nat R Unit Unit) := do
  targetVector.check checked
  return Core.scaleVector machine site targetVector.core scale

variable (T) in
def ensureVectorIntoAliases (checked : Bool) (inputVector resultVector : VectorView) : Except Error Unit :=
  if !checked then .ok ()
  else if vectorsExactlyMatch inputVector resultVector then .ok ()
  else ensureNoVectorOverlap T checked inputVector resultVector

variable (T) in
-- The destination takes the length of the input.
def copyVectorIntoResult (machine : VectorMachine) (site : Site) (inputVector resultVector : VectorView) :
    Execution Nat R Unit Unit :=
  Core.copyVector T machine site inputVector.core (resultVector.shared inputVector.length)

def executeScaleVectorIntoNoAlias (machine : VectorMachine) (site : Site) (inputVector resultVector : VectorView)
    (scale : T) : Execution Nat R Unit Unit :=
  (copyVectorIntoResult T machine (0 :: site) inputVector resultVector).andThen
    (Core.scaleVector machine (1 :: site) resultVector.core scale)

def scaleVectorInto (checked : Bool) (machine : VectorMachine) (site : Site) (inputVector resultVector : VectorView)
    (scale : T) : Except Error (Execution Nat R Unit Unit) := do
  inputVector.check checked
  resultVector.check checked
  requireEqualLength inputVector.length resultVector.length
  if vectorsExactlyMatch inputVector resultVector then scaleVector checked machine site resultVector scale
  else
    ensureVectorIntoAliases T checked inputVector resultVector
    return executeScaleVectorIntoNoAlias machine site inputVector resultVector scale

def addScaledVector (checked : Bool) (machine : VectorMachine) (site : Site) (sourceVector destinationVector : VectorView)
    (scale : T) : Except Error (Execution Nat R Unit Unit) := do
  sourceVector.check checked
  destinationVector.check checked
  ensureNoPartialVectorOverlap T checked sourceVector destinationVector
  let sharedLength ← checkedPairLength sourceVector.length destinationVector.length
  return Core.addScaledVector machine site (sourceVector.shared sharedLength) (destinationVector.shared sharedLength) scale

def executeAddScaledVectorIntoNoAlias (machine : VectorMachine) (site : Site)
    (sourceVector inputVector resultVector : VectorView) (scale : T) : Execution Nat R Unit Unit :=
  (copyVectorIntoResult T machine (0 :: site) inputVector resultVector).andThen
    (Core.addScaledVector machine (1 :: site) sourceVector.core resultVector.core scale)

-- The checks addScaledVectorInto and combineVectorsInto share.
def checkThreeVectors (checked : Bool) (sourceVector inputVector resultVector : VectorView) : Except Error Unit := do
  sourceVector.check checked
  inputVector.check checked
  resultVector.check checked
  requireEqualLength sourceVector.length inputVector.length
  requireEqualLength inputVector.length resultVector.length

def addScaledVectorInto (checked : Bool) (machine : VectorMachine) (site : Site)
    (sourceVector inputVector resultVector : VectorView) (scale : T) : Except Error (Execution Nat R Unit Unit) := do
  checkThreeVectors checked sourceVector inputVector resultVector
  if vectorsExactlyMatch inputVector resultVector then
    addScaledVector checked machine site sourceVector resultVector scale
  else
    ensureNoVectorOverlap T checked resultVector inputVector
    ensureNoVectorOverlap T checked resultVector sourceVector
    return executeAddScaledVectorIntoNoAlias machine site sourceVector inputVector resultVector scale

def combineVectors (checked : Bool) (machine : VectorMachine) (site : Site) (sourceVector destinationVector : VectorView)
    (sourceScale destinationScale : T) : Except Error (Execution Nat R Unit Unit) := do
  sourceVector.check checked
  destinationVector.check checked
  ensureNoPartialVectorOverlap T checked sourceVector destinationVector
  let sharedLength ← checkedPairLength sourceVector.length destinationVector.length
  return Core.combineVectors machine site (sourceVector.shared sharedLength) (destinationVector.shared sharedLength)
    sourceScale destinationScale

def executeCombineVectorsIntoNoAlias (machine : VectorMachine) (site : Site)
    (sourceVector inputVector resultVector : VectorView) (sourceScale inputScale : T) : Execution Nat R Unit Unit :=
  (copyVectorIntoResult T machine (0 :: site) inputVector resultVector).andThen
    (Core.combineVectors machine (1 :: site) sourceVector.core resultVector.core sourceScale inputScale)

def combineVectorsInto (checked : Bool) (machine : VectorMachine) (site : Site)
    (sourceVector inputVector resultVector : VectorView) (sourceScale inputScale : T) :
    Except Error (Execution Nat R Unit Unit) := do
  checkThreeVectors checked sourceVector inputVector resultVector
  if vectorsExactlyMatch inputVector resultVector then
    combineVectors checked machine site sourceVector resultVector sourceScale inputScale
  else
    ensureNoVectorOverlap T checked resultVector inputVector
    ensureNoVectorOverlap T checked resultVector sourceVector
    return executeCombineVectorsIntoNoAlias machine site sourceVector inputVector resultVector sourceScale inputScale

-- dotProduct, and conjugatedDotProduct with the left vector conjugated.
def dotProductView (checked : Bool) (machine : VectorMachine) (site : Site) (leftVector rightVector : VectorView)
    (conjugateLeft : Bool) : Except Error (Execution Nat R T T) := do
  leftVector.check checked
  rightVector.check checked
  let sharedLength ← checkedPairLength leftVector.length rightVector.length
  return Core.dotProduct machine site (leftVector.shared sharedLength) (rightVector.shared sharedLength) conjugateLeft

variable (T) in
def dotProduct (checked : Bool) (machine : VectorMachine) (site : Site) (leftVector rightVector : VectorView) :
    Except Error (Execution Nat R T T) := dotProductView checked machine site leftVector rightVector false

variable (T) in
def conjugatedDotProduct (checked : Bool) (machine : VectorMachine) (site : Site) (leftVector rightVector : VectorView) :
    Except Error (Execution Nat R T T) := dotProductView checked machine site leftVector rightVector true

end Operations

end Zynum.Api
