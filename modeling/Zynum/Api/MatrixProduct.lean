import Zynum.Api.MatrixViews
import Zynum.MatrixMatrix.Routine

set_option autoImplicit false

/- matrixMultiply and matrixMultiplyWithWorkspace of api/operations.zig over a gemm. -/
namespace Zynum.Api

open ArrayProgram

-- gemm of core/matrix_matrix.zig, which reads no leading dimension of an empty operand.
structure ProductCore (T : Type) [CommRing T] [Scalar T] where
  gemm : Runtime → Site → TransposeMode → TransposeMode → Int → Int → Int → T → Mem T → Int → Mem T → Int → T → Mem T →
    Int → Mem T
  exact : ∀ rt site transa transb m n k alpha a lda b ldb beta ldc, (0 < m → 0 < n → 0 < k → 0 < lda ∧ 0 < ldb) →
    (0 < m → 0 < n → m ≤ ldc) →
    Updates (matrixCells (toUsize m) (toUsize n)) (cellAddress ldc)
      (gemmTarget transa transb (toUsize k) alpha a lda b ldb beta)
      (fun c => gemm rt site transa transb m n k alpha a lda b ldb beta c ldc)

namespace Core

structure Matrix where
  values : Nat
  rowCount : Int
  columnCount : Int
  leadingDimension : Int

variable {R T : Type} [CommRing T] [Element R T]

def multiplyMatrices (core : ProductCore T) (rt : Runtime) (site : Site) (left right : ConstMatrix) (output : Matrix)
    (productScale outputScale : T) (memory : Nat → R) : Nat → R :=
  storeElements output.values
    (core.gemm rt site left.transpose right.transpose output.rowCount output.columnCount left.effectiveColumnCount
      productScale (elementsAt T left.values memory) left.leadingDimension (elementsAt T right.values memory)
      right.leadingDimension outputScale (elementsAt T output.values memory) output.leadingDimension) memory

end Core

-- matrixOperand and workspaceMatrix.
def MatrixView.core (view : MatrixView) : Core.Matrix :=
  ⟨view.values.start, view.rowCount, view.columnCount, view.leadingDimension⟩

def workspaceMatrix (workspace : Slice) (rowCount columnCount : Int) : Core.Matrix :=
  ⟨workspace.start, rowCount, columnCount, rowCount⟩

structure MatrixProductArguments (T : Type) [Zero T] [One T] where
  leftMatrix : OperandView
  rightMatrix : OperandView
  resultMatrix : MatrixView
  productScale : T := 1
  resultScale : T := 0

section Operations

variable {R T : Type} [CommRing T] [Element R T]

variable (T) in
def copyMatrixToWorkspace (sourceMatrix : MatrixView) (workspace : Slice) (memory : Nat → R) : Nat → R :=
  let rows := toUsize sourceMatrix.rowCount
  let cols := toUsize sourceMatrix.columnCount
  let source := elementsAt T sourceMatrix.values.start memory
  storeElements workspace.start
    (loop cols (fun col values => loop rows (fun row values =>
      Function.update values (row + col * rows) (source (toUsize sourceMatrix.leadingDimension * col + row))) values)
      (elementsAt T workspace.start memory)) memory

variable (T) in
def copyWorkspaceToMatrix (workspace : Slice) (resultMatrix : MatrixView) (memory : Nat → R) : Nat → R :=
  let rows := toUsize resultMatrix.rowCount
  let cols := toUsize resultMatrix.columnCount
  let source := elementsAt T workspace.start memory
  storeElements resultMatrix.values.start
    (loop cols (fun col values => loop rows (fun row values =>
      Function.update values (toUsize resultMatrix.leadingDimension * col + row) (source (row + col * rows))) values)
      (elementsAt T resultMatrix.values.start memory)) memory

def executeMatrixProductNoAlias (core : ProductCore T) (rt : Runtime) (site : Site)
    (arguments : MatrixProductArguments T) : List (Phase R) :=
  [.product (Core.multiplyMatrices core rt site arguments.leftMatrix.core arguments.rightMatrix.core
    arguments.resultMatrix.core arguments.productScale arguments.resultScale)]

def executeMatrixProductWithWorkspace (core : ProductCore T) (rt : Runtime) (site : Site)
    (arguments : MatrixProductArguments T) (workspace : Slice) : List (Phase R) :=
  let copyIn := Phase.product (copyMatrixToWorkspace T arguments.resultMatrix workspace)
  let temp := workspaceMatrix workspace arguments.resultMatrix.rowCount arguments.resultMatrix.columnCount
  let multiply := Phase.product (Core.multiplyMatrices core rt site arguments.leftMatrix.core arguments.rightMatrix.core
    temp arguments.productScale arguments.resultScale)
  let copyOut := Phase.product (copyWorkspaceToMatrix T workspace arguments.resultMatrix)
  if isZero arguments.resultScale then [multiply, copyOut] else [copyIn, multiply, copyOut]

def matrixMultiply (checked : Bool) (core : ProductCore T) (rt : Runtime) (site : Site)
    (arguments : MatrixProductArguments T) : Except Error (List (Phase R)) := do
  arguments.leftMatrix.check checked
  arguments.rightMatrix.check checked
  arguments.resultMatrix.check checked
  checkMatrixProductShapes arguments.leftMatrix arguments.rightMatrix arguments.resultMatrix
  ensureNoMatrixOverlap T checked arguments.resultMatrix arguments.leftMatrix.toMatrixView
  ensureNoMatrixOverlap T checked arguments.resultMatrix arguments.rightMatrix.toMatrixView
  return executeMatrixProductNoAlias core rt site arguments

-- views.matrix over the part of the workspace the product needs.
def workspaceMatrixView (workspace : Slice) (resultMatrix : MatrixView) : MatrixView :=
  ⟨workspace, resultMatrix.rowCount, resultMatrix.columnCount, resultMatrix.rowCount⟩

variable (T) in
def ensureMatrixWorkspaceApart (checked : Bool) (workspace leftMatrix rightMatrix resultMatrix : MatrixView) :
    Except Error Unit :=
  if !checked then .ok ()
  else do
    workspace.check checked
    ensureNoMatrixOverlap T checked workspace leftMatrix
    ensureNoMatrixOverlap T checked workspace rightMatrix
    ensureNoMatrixOverlap T checked workspace resultMatrix

def matrixMultiplyWithWorkspace (checked : Bool) (core : ProductCore T) (rt : Runtime) (site : Site)
    (arguments : MatrixProductArguments T) (workspace : Slice) : Except Error (List (Phase R)) := do
  arguments.leftMatrix.check checked
  arguments.rightMatrix.check checked
  arguments.resultMatrix.check checked
  checkMatrixProductShapes arguments.leftMatrix arguments.rightMatrix arguments.resultMatrix
  let required ← matrixProductElementCount arguments.resultMatrix
  ensureWorkspaceLength workspace.len required
  let used : Slice := ⟨workspace.start, required⟩
  ensureMatrixWorkspaceApart T checked (workspaceMatrixView used arguments.resultMatrix) arguments.leftMatrix.toMatrixView
    arguments.rightMatrix.toMatrixView arguments.resultMatrix
  return executeMatrixProductWithWorkspace core rt site arguments used

end Operations

end Zynum.Api
