import Zynum.Foundation.Tiles
import Zynum.MatrixMatrix.RealGemmExact

set_option autoImplicit false

/- What the structured Level 3 routines need of a GEMM, and of the process they
   run in. A GemmRoutine is any product that writes its m by n block of C once. -/
namespace Zynum

open ArrayProgram

structure GemmRoutine (T : Type) [CommRing T] [Scalar T] where
  run : Runtime → Site → TransposeMode → TransposeMode → Int → Int → Int → T → Mem T → Int → Mem T → Int → T → Mem T →
    Int → Mem T
  exact : ∀ rt site transa transb m n k alpha a lda b ldb beta ldc, 0 < lda → 0 < ldb → 0 < ldc → m ≤ ldc →
    Updates (matrixCells (toUsize m) (toUsize n)) (cellAddress ldc)
      (gemmTarget transa transb (toUsize k) alpha a lda b ldb beta)
      (fun c => run rt site transa transb m n k alpha a lda b ldb beta c ldc)

inductive IsaCapability where
  | generic
  | aarch64AsimdFma
  | aarch64Sve
  | aarch64Sve2
  | aarch64Sme
  | aarch64Sme2
  | appleAmx
  | x86Sse2
  | x86Avx
  | x86Avx2
  | x86Fma
  | x86Avx2Fma
  | x86Avx512f
  | x86Avx512fFma
  | x86Amx
  deriving DecidableEq, Repr

-- scratch is what a fresh allocation holds before anything is stored in it.
structure Level3Env (T : Type) [CommRing T] [Scalar T] where
  gemm : GemmRoutine T
  scratch : Site → Mem T
  capability : IsaCapability
  macos : Bool
  isolatedStructured : Bool

variable {T : Type}

def sizeOf (T : Type) [Scalar T] : Nat :=
  (if Scalar.precision T = .single then 4 else 8) * (if Scalar.isComplex T then 2 else 1)

def tileCells (i0 rows j0 cols : Nat) : Set (Nat × Nat) :=
  {cell | (i0 ≤ cell.1 ∧ cell.1 < i0 + rows) ∧ j0 ≤ cell.2 ∧ cell.2 < j0 + cols}

theorem mat_index_first_column (ld : Int) (row : Nat) : matIndex ld row 0 = row := by
  simp only [matIndex, Nat.zero_mul, Nat.add_zero]

theorem mat_index_natural (rows row col : Nat) : matIndex (rows : Int) row col = row + col * rows := by
  simp only [matIndex, toUsize, Int.toNat_natCast]

theorem mat_index_offset (ld : Int) (i0 j0 i j : Nat) :
    matIndex ld i0 j0 + matIndex ld i j = matIndex ld (i0 + i) (j0 + j) := by
  simp only [matIndex, Nat.add_mul]
  omega

theorem tile_updates {value : Nat × Nat → T → T} {run : Mem T → Mem T} {rows cols : Nat} {ldc : Int}
    (updates : Updates (matrixCells rows cols) (cellAddress ldc) value run) (i0 j0 : Nat) (value' : Nat × Nat → T → T)
    (same : ∀ i j old, i < rows → j < cols → value (i, j) old = value' (i0 + i, j0 + j) old) :
    Updates (tileCells i0 rows j0 cols) (cellAddress ldc) value' (onTail (matIndex ldc i0 j0) run) := by
  have moved : Updates (matrixCells rows cols) (fun cell => cellAddress ldc (i0 + cell.1, j0 + cell.2))
      (fun cell => value' (i0 + cell.1, j0 + cell.2)) (onTail (matIndex ldc i0 j0) run) := by
    refine ((updates.on_tail (matIndex ldc i0 j0)).congr rfl (fun cell old inside => ?_)).congr_address (fun cell _ => ?_)
    · exact same cell.1 cell.2 old inside.1 inside.2
    · exact (mat_index_offset ldc i0 j0 cell.1 cell.2).symm
  refine (Updates.reindex (fun cell : Nat × Nat => (i0 + cell.1, j0 + cell.2)) moved).congr ?_ (fun _ _ _ => rfl)
  ext ⟨i, j⟩
  constructor
  · rintro ⟨⟨r, s⟩, ⟨inRows, inColumns⟩, place⟩
    cases place
    simp only at inRows inColumns
    exact ⟨⟨Nat.le_add_right _ _, Nat.add_lt_add_left inRows i0⟩, Nat.le_add_right _ _, Nat.add_lt_add_left inColumns j0⟩
  · rintro ⟨⟨rowLower, rowUpper⟩, columnLower, columnUpper⟩
    simp only at rowLower rowUpper columnLower columnUpper
    refine ⟨(i - i0, j - j0), ⟨by simp only; omega, by simp only; omega⟩, ?_⟩
    simp only [Prod.mk.injEq]
    omega

theorem row_block_cells (m n stride block : Nat) (some : 0 < stride) :
    {cell | cell ∈ matrixCells m n ∧ cell.1 / stride = block} =
      tileCells (block * stride) (blockLength m stride (block * stride)) 0 n := by
  ext cell
  have member := block_member cell.1 m stride block some
  simp only [tileCells, matrixCells, Set.mem_ofPred_eq, Nat.zero_le, true_and, Nat.zero_add]
  tauto

theorem column_block_cells (m n stride block : Nat) (some : 0 < stride) :
    {cell | cell ∈ matrixCells m n ∧ cell.2 / stride = block} =
      tileCells 0 m (block * stride) (blockLength n stride (block * stride)) := by
  ext cell
  have member := block_member cell.2 n stride block some
  simp only [tileCells, matrixCells, Set.mem_ofPred_eq, Nat.zero_le, true_and, Nat.zero_add]
  tauto

theorem tile_block_cells (m n stride rowBlock columnBlock : Nat) (some : 0 < stride) :
    {cell | cell ∈ matrixCells m n ∧ cell.1 / stride = rowBlock ∧ cell.2 / stride = columnBlock} =
      tileCells (rowBlock * stride) (blockLength m stride (rowBlock * stride)) (columnBlock * stride)
        (blockLength n stride (columnBlock * stride)) := by
  ext cell
  have rows := block_member cell.1 m stride rowBlock some
  have columns := block_member cell.2 n stride columnBlock some
  simp only [tileCells, matrixCells, Set.mem_ofPred_eq]
  tauto

section Products

variable [CommRing T] [Scalar T]

theorem GemmRoutine.product_updates (gemm : GemmRoutine T) (rt : Runtime) (site : Site) (transa transb : TransposeMode)
    (rows cols k : Nat) (alpha : T) (a : Mem T) (lda : Int) (b : Mem T) (ldb : Int) (beta : T) (ldc : Int)
    (stepa : 0 < lda) (stepb : 0 < ldb) (stepc : 0 < ldc) (bound : (rows : Int) ≤ ldc) (left right : Nat → Nat → T)
    (sameLeft : ∀ i p, i < rows → p < k → opEntry transa (denseEntry a lda) i p = left i p)
    (sameRight : ∀ p j, p < k → j < cols → opEntry transb (denseEntry b ldb) p j = right p j) :
    Updates (matrixCells rows cols) (cellAddress ldc) (gemmValue alpha left right k beta)
      (fun c => gemm.run rt site transa transb rows cols k alpha a lda b ldb beta c ldc) := by
  have whole := gemm.exact rt site transa transb rows cols k alpha a lda b ldb beta ldc stepa stepb stepc bound
  simp only [toUsize, Int.toNat_natCast] at whole
  refine whole.congr rfl (fun cell old inside => ?_)
  simp only [gemmTarget, gemmValue]
  congr 2
  refine Finset.sum_congr rfl (fun p member => ?_)
  rw [sameLeft cell.1 p inside.1 (Finset.mem_range.mp member), sameRight p cell.2 (Finset.mem_range.mp member) inside.2]

theorem GemmRoutine.tile_updates (gemm : GemmRoutine T) (rt : Runtime) (site : Site) (transa transb : TransposeMode)
    (rows cols k : Nat) (alpha : T) (a : Mem T) (lda : Int) (b : Mem T) (ldb : Int) (beta : T) (ldc : Int) (i0 j0 : Nat)
    (stepa : 0 < lda) (stepb : 0 < ldb) (stepc : 0 < ldc) (bound : (rows : Int) ≤ ldc) (left right : Nat → Nat → T)
    (sameLeft : ∀ i p, i < rows → p < k → opEntry transa (denseEntry a lda) i p = left (i0 + i) p)
    (sameRight : ∀ p j, p < k → j < cols → opEntry transb (denseEntry b ldb) p j = right p (j0 + j)) :
    Updates (tileCells i0 rows j0 cols) (cellAddress ldc) (gemmValue alpha left right k beta)
      (onTail (matIndex ldc i0 j0) (fun c => gemm.run rt site transa transb rows cols k alpha a lda b ldb beta c ldc)) :=
  Zynum.tile_updates (gemm.product_updates rt site transa transb rows cols k alpha a lda b ldb beta ldc stepa stepb stepc bound
    (fun i p => left (i0 + i) p) (fun p j => right p (j0 + j)) sameLeft sameRight) i0 j0 _ (fun _ _ _ _ _ => rfl)

omit [Scalar T] in
theorem gemm_value_blocks (alpha : T) (left right : Nat → Nat → T) (k stride : Nat) (beta : T) (cell : Nat × Nat) (old : T)
    (some : 0 < stride) (depth : 0 < k) :
    loop (strideCount 0 k stride) (fun block value =>
        gemmValue alpha (fun i p => left i (block * stride + p)) (fun p j => right (block * stride + p) j)
          (blockLength k stride (block * stride)) (if block = 0 then beta else 1) cell value) old =
      gemmValue alpha left right k beta cell old := by
  have first : 0 < strideCount 0 k stride := by
    rw [stride_count_iff 0 k stride 0 some]
    omega
  simp only [gemmValue]
  rw [scaled_accumulate _ first, block_sum k stride some (fun p => left cell.1 p * right p cell.2)]

end Products

def realGemmRoutine [CommRing T] [Scalar T] [LawfulScalar T] (env : RealGemmEnv T) : GemmRoutine T where
  run := gemmReal env
  exact := gemm_real_updates env

-- The triple loop behind every portable gemm, real or complex.
def GemmRoutine.portable (T : Type) [CommRing T] [Scalar T] [LawfulScalar T] : GemmRoutine T where
  run _ _ transa transb m n k alpha a lda b ldb beta c ldc :=
    gemmPortableLoop transa transb (toUsize m) (toUsize n) (toUsize k) alpha a lda b ldb beta c ldc
  exact _ _ transa transb m n k alpha a lda b ldb beta ldc _ _ _ bound :=
    portable_loop_updates transa transb (toUsize m) (toUsize n) (toUsize k) alpha a lda b ldb beta ldc (Int.toNat_le_toNat bound)

end Zynum
