import Zynum.Api.MatrixViews
import Zynum.Api.VectorOperations

set_option autoImplicit false

/- matrixVectorMultiply and matrixVectorMultiplyWithWorkspace of api/operations.zig. -/
namespace Zynum.Api

open ArrayProgram

namespace Core

variable {R T : Type} [CommRing T] [Element R T]

def multiplyMatrixVector (leaves : GemvLeaves T) (machine : VectorMachine) (site : Site) (matrix : ConstMatrix)
    (input output : Vector) (productScale outputScale : T) (memory : Nat → R) : Nat → R :=
  storeElements output.values
    (gemv leaves machine.runtime site matrix.transpose matrix.rowCount matrix.columnCount productScale
      (elementsAt T matrix.values memory) matrix.leadingDimension (elementsAt T input.values memory) input.stride outputScale
      (elementsAt T output.values memory) output.stride) memory

end Core

def workspaceVector (workspace : Slice) (length : Int) : Core.Vector := ⟨workspace.start, length, 1⟩

structure MatrixVectorArguments (T : Type) [Zero T] [One T] where
  matrix : OperandView
  inputVector : VectorView
  resultVector : VectorView
  productScale : T := 1
  resultScale : T := 0

section Operations

variable {R T : Type} [CommRing R] [LinearOrder R] [CommRing T] [Element R T]

def executeMatrixVectorNoAlias (leaves : GemvLeaves T) (machine : VectorMachine) (site : Site)
    (arguments : MatrixVectorArguments T) : List (Phase R) :=
  [.product (Core.multiplyMatrixVector leaves machine site arguments.matrix.core arguments.inputVector.core
    arguments.resultVector.core arguments.productScale arguments.resultScale)]

def executeMatrixVectorWithWorkspace (leaves : GemvLeaves T) (machine : VectorMachine) (site : Site)
    (arguments : MatrixVectorArguments T) (workspace : Slice) (resultLength : Int) : List (Phase R) :=
  let temp := workspaceVector workspace resultLength
  let copyIn := Phase.routine (Core.copyVector T machine (0 :: site) arguments.resultVector.core temp)
  let multiply := Phase.product (Core.multiplyMatrixVector leaves machine (1 :: site) arguments.matrix.core
    arguments.inputVector.core temp arguments.productScale arguments.resultScale)
  let copyOut := Phase.routine (Core.copyVector T machine (2 :: site) temp (arguments.resultVector.shared resultLength))
  if isZero arguments.resultScale then [multiply, copyOut] else [copyIn, multiply, copyOut]

def matrixVectorMultiply (checked : Bool) (leaves : GemvLeaves T) (machine : VectorMachine) (site : Site)
    (arguments : MatrixVectorArguments T) : Except Error (List (Phase R)) := do
  arguments.matrix.check checked
  arguments.inputVector.check checked
  arguments.resultVector.check checked
  let _ ← checkMatrixVectorShapes arguments.matrix arguments.inputVector arguments.resultVector
  ensureNoVectorOverlap T checked arguments.resultVector arguments.inputVector
  ensureNoVectorMatrixOverlap T checked arguments.resultVector arguments.matrix.toMatrixView
  return executeMatrixVectorNoAlias leaves machine site arguments

-- views.vector over the whole workspace slice.
def workspaceView (workspace : Slice) (length : Int) : VectorView := ⟨workspace, length, 1⟩

variable (T) in
def ensureWorkspaceApart (checked : Bool) (workspace : VectorView) (inputVector resultVector : VectorView)
    (matrix : MatrixView) : Except Error Unit :=
  if !checked then .ok ()
  else do
    workspace.check checked
    ensureNoVectorOverlap T checked workspace inputVector
    ensureNoVectorOverlap T checked workspace resultVector
    ensureNoVectorMatrixOverlap T checked workspace matrix

def matrixVectorMultiplyWithWorkspace (checked : Bool) (leaves : GemvLeaves T) (machine : VectorMachine) (site : Site)
    (arguments : MatrixVectorArguments T) (workspace : Slice) : Except Error (List (Phase R)) := do
  arguments.matrix.check checked
  arguments.inputVector.check checked
  arguments.resultVector.check checked
  let resultLength ← checkMatrixVectorShapes arguments.matrix arguments.inputVector arguments.resultVector
  let required ← checkedNonNegativeLength resultLength
  ensureWorkspaceLength workspace.len required
  ensureWorkspaceApart T checked (workspaceView workspace resultLength) arguments.inputVector arguments.resultVector
    arguments.matrix.toMatrixView
  return executeMatrixVectorWithWorkspace leaves machine site arguments ⟨workspace.start, required⟩ resultLength

end Operations

end Zynum.Api
