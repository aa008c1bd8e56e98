import Zynum.MatrixVector.GeneralExact

set_option autoImplicit false

/- Kernel descriptors and tasks of the real GEMM planner
   (kernels/shared/matrix_matrix/catalog.zig, task.zig). Descriptor fields that
   no planning decision reads (names, tails, state contracts, workspace sizes)
   are left out. -/
namespace Zynum

open ArrayProgram

inductive KernelFamily where
  | generic
  | packedSimd
  | streamingMatrix
  deriving DecidableEq, Repr

inductive KernelId where
  | auto
  | genericF32x4x4
  | genericF64x4x4
  | aarch64AsimdF32x12x8
  | aarch64AsimdF64x6x8
  | aarch64Sve2AsimdF32x12x8
  | aarch64Sve2AsimdF64x6x8
  | aarch64SmeF32
  | aarch64SmeF64
  | x86Sse2F32Packed
  | x86Sse2F64Packed
  | x86AvxF32Packed
  | x86AvxF64Packed
  | x86Avx2FmaF32Packed
  | x86Avx2FmaF64Packed
  | x86Avx512fFmaF32Packed
  | x86Avx512fFmaF64Packed
  deriving DecidableEq, Repr

inductive PackKind where
  | none
  | bPanel
  | bPanelBatched
  deriving DecidableEq, Repr

inductive AppleAmxKernelId where
  | none
  | f32N16
  | f32N32
  | f64N8
  | f64N16
  | f64N32
  deriving DecidableEq, Repr

inductive BPackPath where
  | natural
  | dynamic
  | transpose4
  deriving DecidableEq, Repr

inductive BLayout where
  | noTrans
  | trans
  deriving DecidableEq, Repr

structure Tile where
  vectorLanes : Nat
  registerM : Nat
  registerN : Nat
  nPanel : Nat

structure Bounds where
  minMBlock : Nat
  minNBlock : Nat
  minKBlock : Nat
  minWork : Nat

structure Descriptor where
  kernel : KernelId
  precision : Precision
  defaultEligible : Bool
  family : KernelFamily
  layoutNoTrans : Bool
  layoutTransposedB : Bool
  arbitraryAlpha : Bool
  arbitraryBeta : Bool
  tile : Tile
  bounds : Bounds
  pack : PackKind

structure Shape where
  m : Nat
  n : Nat
  k : Nat

structure ExecutionPlan where
  amx : AppleAmxKernelId
  amxPartialN16 : Bool
  bPack : BPackPath

-- cOffset is the distance the C pointer of the task was moved by.
structure Task (T : Type) where
  m : Nat
  n0 : Nat
  n1 : Nat
  k : Nat
  alpha : T
  a : Mem T
  lda : Int
  b : Mem T
  ldb : Int
  bLayout : BLayout
  beta : T
  cOffset : Nat
  ldc : Int
  allowSme : Bool
  kernel : KernelId
  execution : ExecutionPlan

variable {T : Type}

def Task.bValue (task : Task T) (row col : Nat) : T :=
  match task.bLayout with
  | .noTrans => task.b (matIndex task.ldb row col)
  | .trans => task.b (matIndex task.ldb col row)

-- The elements of C a task owns, in the coordinates of its own C pointer.
def Task.cells (task : Task T) : Set (Nat × Nat) :=
  {cell | cell.1 < task.m ∧ task.n0 ≤ cell.2 ∧ cell.2 < task.n1}

def cellAddress (ldc : Int) (cell : Nat × Nat) : Nat := matIndex ldc cell.1 cell.2

section Exact

variable [CommRing T]

def Task.value (task : Task T) (cell : Nat × Nat) (old : T) : T :=
  task.alpha * ∑ p ∈ Finset.range task.k, task.a (matIndex task.lda cell.1 p) * task.bValue p cell.2 + task.beta * old

end Exact

-- Executable real kernels: what the executor runs for a task, the single-call
-- fast path that may decline, and the registered descriptors. A kernel is only
-- held to the transposed B layout if some descriptor advertises it.
structure RealKernels (T : Type) [CommRing T] where
  base : Descriptor
  others : List Descriptor
  run : Task T → Mem T → Mem T
  fast : (m n k : Nat) → (alpha : T) → (a : Mem T) → (lda : Int) → (b : Mem T) → (ldb : Int) → (beta : T) →
    (ldc : Int) → Mem T → Option (Mem T)
  run_exact : ∀ task : Task T, 0 < task.k → task.m ≤ toUsize task.ldc →
    (task.bLayout = .noTrans ∨ ∃ desc ∈ base :: others, desc.kernel = task.kernel ∧ desc.layoutTransposedB = true) →
    Updates task.cells (cellAddress task.ldc) task.value (run task)
  fast_exact : ∀ m n k alpha a lda b ldb beta ldc before after, 0 < k → m ≤ toUsize ldc →
    fast m n k alpha a lda b ldb beta ldc before = some after →
    Wrote {cell : Nat × Nat | cell.1 < m ∧ cell.2 < n} (cellAddress ldc)
      (fun cell old => alpha * ∑ p ∈ Finset.range k, a (matIndex lda cell.1 p) * b (matIndex ldb p cell.2) + beta * old)
      before after

def RealKernels.candidates [CommRing T] (kernels : RealKernels T) : List Descriptor := kernels.base :: kernels.others

theorem cell_address_injective (ldc : Int) (rows : Nat) (bound : rows ≤ toUsize ldc) :
    Set.InjOn (cellAddress ldc) {cell | cell.1 < rows} :=
  mat_index_injective ldc rows bound

end Zynum
