import Zynum.Api.Views
import Zynum.MatrixVector.General

set_option autoImplicit false

/- The matrix views of api/views.zig, their alias checks in api/aliasing.zig and
   what the checked matrix operations of api/operations.zig ask of shapes. -/
namespace Zynum.Api

open ArrayProgram
open Element (width parts whole)

inductive MatrixTransform where
  | normal
  | transposed
  | adjoint
  deriving DecidableEq, Repr

def toCoreTranspose (transform : MatrixTransform) : TransposeMode :=
  match transform with
  | .normal => .noTrans
  | .transposed => .trans
  | .adjoint => .conjTrans

def requiredMatrixStorageLength (rowCount columnCount leadingDimension : Int) : Except Error Nat :=
  if rowCount < 0 ∨ columnCount < 0 then .error .invalidLength
  else if rowCount = 0 ∨ columnCount = 0 then .ok 0
  else if leadingDimension < max 1 rowCount then .error .invalidLeadingDimension
  else .ok (toUsize rowCount + toUsize (columnCount - 1) * toUsize leadingDimension)

def validateMatrixStorage (checked : Bool) (dataLen : Nat) (rowCount columnCount leadingDimension : Int) :
    Except Error Unit := do
  let required ← requiredMatrixStorageLength rowCount columnCount leadingDimension
  ensureCapacity checked dataLen required

structure MatrixView where
  values : Slice
  rowCount : Int
  columnCount : Int
  leadingDimension : Int
  deriving DecidableEq, Repr

def MatrixView.check (checked : Bool) (view : MatrixView) : Except Error Unit :=
  validateMatrixStorage checked view.values.len view.rowCount view.columnCount view.leadingDimension

-- ConstMatrix: a matrix view that may stand for its transpose.
structure OperandView extends MatrixView where
  operation : MatrixTransform := .normal
  deriving DecidableEq, Repr

namespace OperandView

def effectiveRowCount (view : OperandView) : Int :=
  if view.operation = .normal then view.rowCount else view.columnCount

def effectiveColumnCount (view : OperandView) : Int :=
  if view.operation = .normal then view.columnCount else view.rowCount

end OperandView

section Aliasing

variable {R : Type} (T : Type) [Element R T]

def matrixRange (view : MatrixView) : Except Error ByteRange := do
  let len ← requiredMatrixStorageLength view.rowCount view.columnCount view.leadingDimension
  byteRange T view.values.start len

def ensureNoVectorMatrixOverlap (checked : Bool) (vector : VectorView) (matrix : MatrixView) : Except Error Unit :=
  if !checked then .ok ()
  else do
    let left ← vectorRange T vector
    let right ← matrixRange T matrix
    if left.overlap right then .error .aliasingNotAllowed else .ok ()

def ensureNoMatrixOverlap (checked : Bool) (first second : MatrixView) : Except Error Unit :=
  if !checked then .ok ()
  else do
    let left ← matrixRange T first
    let right ← matrixRange T second
    if left.overlap right then .error .aliasingNotAllowed else .ok ()

end Aliasing

def checkedNonNegativeLength (length : Int) : Except Error Nat :=
  if length < 0 then .error .invalidLength else .ok (toUsize length)

def ensureWorkspaceLength (actual required : Nat) : Except Error Unit :=
  if actual < required then .error .workspaceTooSmall else .ok ()

def checkMatrixVectorShapes (inputMatrix : OperandView) (inputVector resultVector : VectorView) : Except Error Int :=
  let expectedInputLength := inputMatrix.effectiveColumnCount
  let expectedResultLength := inputMatrix.effectiveRowCount
  if expectedInputLength < 0 ∨ expectedResultLength < 0 then .error .invalidLength
  else if inputVector.length < expectedInputLength ∨ resultVector.length < expectedResultLength then
    .error .dimensionMismatch
  else .ok expectedResultLength

def matrixProductElementCount (resultMatrix : MatrixView) : Except Error Nat := do
  let rows ← checkedNonNegativeLength resultMatrix.rowCount
  let cols ← checkedNonNegativeLength resultMatrix.columnCount
  if 2 ^ 64 ≤ rows * cols then .error .invalidLength else .ok (rows * cols)

def checkMatrixProductShapes (leftMatrix rightMatrix : OperandView) (resultMatrix : MatrixView) : Except Error Unit :=
  if leftMatrix.effectiveColumnCount ≠ rightMatrix.effectiveRowCount then .error .dimensionMismatch
  else if resultMatrix.rowCount ≠ leftMatrix.effectiveRowCount then .error .dimensionMismatch
  else if resultMatrix.columnCount ≠ rightMatrix.effectiveColumnCount then .error .dimensionMismatch
  else .ok ()

/- The elements an array of T starting at a real holds, and that array stored again. -/
section Arrays

variable {R : Type} (T : Type) [Element R T]

def elementsAt (start : Nat) (memory : Nat → R) : Mem T := fun i => whole (fun part => memory (start + (width T * i + part)))

variable {T}

def storeElements (start : Nat) (values : Mem T) (memory : Nat → R) : Nat → R := fun place =>
  if place < start then memory place else parts (values ((place - start) / width T)) ((place - start) % width T)

end Arrays

/- An accepted call is a row of phases over one memory. A vector copy runs as its
   routine does; any other phase reads its operands from the memory it starts in,
   which is what the source sees once its output lies apart from them. -/
inductive Phase (R : Type) where
  | routine (execution : Execution Nat R Unit Unit)
  | product (run : (Nat → R) → Nat → R)

namespace Phase

variable {R : Type}

def Outcome (phase : Phase R) (memory final : Nat → R) : Prop :=
  match phase with
  | .routine execution => execution.Outcome memory () final
  | .product run => final = run memory

def Outcomes (phases : List (Phase R)) (memory final : Nat → R) : Prop :=
  match phases with
  | [] => final = memory
  | phase :: rest => ∃ middle, phase.Outcome memory middle ∧ Outcomes rest middle final

end Phase

namespace Core

structure ConstMatrix where
  values : Nat
  rowCount : Int
  columnCount : Int
  leadingDimension : Int
  transpose : TransposeMode

def ConstMatrix.effectiveColumnCount (matrix : ConstMatrix) : Int :=
  if matrix.transpose = .noTrans then matrix.columnCount else matrix.rowCount

end Core

-- constMatrixOperand.
def OperandView.core (view : OperandView) : Core.ConstMatrix :=
  ⟨view.values.start, view.rowCount, view.columnCount, view.leadingDimension, toCoreTranspose view.operation⟩

end Zynum.Api
