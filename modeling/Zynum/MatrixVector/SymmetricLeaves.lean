import Zynum.MatrixVector.SymmetricColumns
import Zynum.MatrixVector.X86Leaves

set_option autoImplicit false

/- The column kernel of symv and hemv: the fixed-width kernel of both architectures,
   on a storage that holds y, x and the matrix one behind the other. -/
namespace Zynum.FixedMatrix

open ArrayProgram FixedVector LevelOne

section Shares

variable {R T : Type} [CommRing R] [CommRing T] [Scalar T] {kernels : ColumnKernels Nat R T} {read : (Nat → R) → Nat → Nat → T}
  {conj : T → T} {uplo : Triangle} {herm : Bool} {n a x : Nat} {lda : Int} {alpha : T} {memory : Nat → R} {entry : Nat → Nat → T}
  {vector : Nat → T}

omit [CommRing R] in
theorem column_share_is [LawfulScalar T] {row col : Nat} (inside : row < n) (column : col < n)
    (entries : ∀ i, i < n → read memory (columnAt kernels.width a lda 0 col) i = entry i col)
    (elements : ∀ i, i < n → read memory x i = vector i) (conjugates : ∀ value, conj value = conjugateIf value herm)
    (diagonals : ∀ value, kernels.symmetricDiagonal value = diagonalValue herm value) :
    columnShare kernels read conj (uplo = .upper) n alpha a lda x memory col row =
      symmetricShare uplo n alpha (completion herm uplo entry) vector col row := by
  have rows : offDiagonalRows (uplo = .upper) n col =
      Finset.Ico (if uplo = .upper then 0 else col + 1) (if uplo = .upper then col else n) := by
    cases uplo with
    | upper => exact Finset.range_eq_Ico col
    | lower => rfl
  have owned : ∀ i, i < n → (i ∈ offDiagonalRows (uplo = .upper) n col ↔ ownsEntry uplo i col) := fun i small => by
    rw [rows, Finset.mem_Ico, ← owned_rows uplo n i col column, and_iff_left small]
  have below : ∀ i, i ∈ offDiagonalRows (uplo = .upper) n col → i < n := fun i member => by
    rw [rows, Finset.mem_Ico, ← owned_rows uplo n i col column] at member
    exact member.2
  rw [columnShare, symmetricShare]
  by_cases own : row = col
  · subst own
    rw [if_pos rfl, if_pos rfl, owned_sum herm uplo entry n row inside, completion_diagonal, diagonals, entries row inside,
      elements row inside, ← rows]
    rw [Finset.sum_congr rfl (fun i member => by rw [entries i (below i member), elements i (below i member), conjugates])]
    ring
  · rw [if_neg own, if_neg own]
    by_cases owns : ownsEntry uplo row col
    · rw [if_pos ((owned row inside).mpr owns), if_pos owns, entries row inside, elements col column,
        (completion_owned herm uplo entry row col owns).1]
    · rw [if_neg (fun member => owns ((owned row inside).mp member)), if_neg owns]

omit [CommRing R] in
theorem columns_value [LawfulScalar T] {row j0 j1 : Nat} (inside : row < n) (within : j1 ≤ n)
    (entries : ∀ i j, i < n → read memory (columnAt kernels.width a lda 0 j) i = entry i j)
    (elements : ∀ i, i < n → read memory x i = vector i) (conjugates : ∀ value, conj value = conjugateIf value herm)
    (diagonals : ∀ value, kernels.symmetricDiagonal value = diagonalValue herm value) :
    alpha * ∑ j ∈ Finset.range n with owner (uplo = .upper) row j ∈ Finset.Ico j0 j1,
        symmetricEntry kernels read conj (uplo = .upper) a lda memory row j * read memory x j =
      ∑ col ∈ Finset.Ico j0 j1, symmetricShare uplo n alpha (completion herm uplo entry) vector col row := by
  refine (column_shares memory inside within).symm.trans (Finset.sum_congr rfl (fun col member => ?_))
  exact column_share_is inside ((Finset.mem_Ico.mp member).2.trans_le within) (fun i small => entries i col small) elements
    conjugates diagonals

end Shares

section Leaves

def matrixBodyConfig (precision : Precision) (hasAvx hasAvx512f avx2Fma : Bool) : MatrixVectorConfig :=
  { matrixConfig precision hasAvx hasAvx512f avx2Fma with colUnroll := 1, some_columns := Nat.one_pos }

variable {R : Type} [CommRing R] [DecidableEq R]

def realColumns (cfg : MatrixVectorConfig) (upper hermitian : Bool) (n j0 j1 : Nat) (alpha : R) (a : Mem R) (lda : Int)
    (x y : Mem R) : Option (Mem R) :=
  leaf (symmetricColumnsUnit (realColumnKernels cfg) upper hermitian n j0 j1 alpha (cellsFrom (n + n)) lda (cellsFrom n)
    (cellsFrom 0)) n n y x a

def complexColumns (cfg : MatrixVectorConfig) (upper hermitian : Bool) (n j0 j1 : Nat) (alpha : Cplx R) (a : Mem (Cplx R))
    (lda : Int) (x y : Mem (Cplx R)) : Option (Mem (Cplx R)) :=
  complexLeaf (symmetricColumnsUnit (complexColumnKernels cfg) upper hermitian n j0 j1 alpha (cellsFrom (2 * n + 2 * n)) lda
    (cellsFrom (2 * n)) (cellsFrom 0)) n n y x a

theorem real_columns_wrote (precision : Precision) {cfg : MatrixVectorConfig} {uplo : Triangle} {hermitian : Bool} {n j0 j1 : Nat}
    {alpha : R} {a x y after : Mem R} {lda : Int}
    (ran : realColumns cfg (uplo = .upper) hermitian n j0 j1 alpha a lda x y = some after) :
    let _ := realKind R precision
    Wrote (Set.Iio n) (fun i => i) (fun i old => old +
      ∑ j ∈ Finset.Ico j0 j1, symmetricShare uplo n alpha (completion hermitian uplo (denseEntry a lda)) x j i) y after := by
  let _ := realKind R precision
  have _ := real_kind_lawful R precision
  have length : (realColumnKernels cfg : ColumnKernels Nat R R).width * n = n := Nat.one_mul n
  have apartA : Disjoint (rowCells 0 ((realColumnKernels cfg : ColumnKernels Nat R R).width * n))
      (entryCells (realColumnKernels cfg : ColumnKernels Nat R R).width (n + n) lda n n) := by
    rw [length]
    exact output_before_matrix n n 1 n n lda
  have apartX : Disjoint (rowCells 0 ((realColumnKernels cfg : ColumnKernels Nat R R).width * n))
      (rowCells n ((realColumnKernels cfg : ColumnKernels Nat R R).width * n)) := by
    rw [length]
    exact output_before_input
  have kernel := symmetric_columns_kernel (real_column_kernels cfg) (uplo = .upper) hermitian j0 j1 alpha apartA apartX
  rw [length] at kernel
  refine leaf_wrote kernel _ (fun accepted i small => ?_) ran
  obtain ⟨rfl, _, _, inside, _⟩ := accepted
  have row : i / (realColumnKernels cfg : ColumnKernels Nat R R).width = i := Nat.div_one i
  rw [row, operands_output small]
  exact congrArg (y i + ·) (columns_value small inside (fun i j _ => column_read n n y x a lda i j)
    (fun i small => operands_input small) (fun _ => rfl) (fun _ => rfl))

theorem complex_columns_wrote (precision : Precision) {cfg : MatrixVectorConfig} (even : 2 ∣ cfg.laneCount) {uplo : Triangle}
    {hermitian : Bool} {n j0 j1 : Nat} {alpha : Cplx R} {a x y after : Mem (Cplx R)} {lda : Int}
    (ran : complexColumns cfg (uplo = .upper) hermitian n j0 j1 alpha a lda x y = some after) :
    let _ := complexKind R precision
    Wrote (Set.Iio n) (fun i => i) (fun i old => old +
      ∑ j ∈ Finset.Ico j0 j1, symmetricShare uplo n alpha (completion hermitian uplo (denseEntry a lda)) x j i) y after := by
  let _ := complexKind R precision
  have _ := complex_kind_lawful R precision
  have kernel := symmetric_columns_kernel (complex_column_kernels even) (uplo = .upper) hermitian j0 j1 alpha
    (output_before_matrix (2 * n) (2 * n) 2 n n lda) output_before_input
  refine complex_leaf_wrote kernel _ (fun accepted cell small => ?_) ran
  obtain ⟨rfl, _, _, inside, _⟩ := accepted
  have row : cell / 2 < n := Nat.div_lt_of_lt_mul small
  rw [operands_output small, component_add]
  refine congrArg (_ + component · cell) (columns_value row inside (fun i j _ => matrix_read n n y x a lda i j)
    (fun i small => input_read n n y x a small) (fun _ => rfl) (fun _ => rfl))

def realEnv (precision : Precision) (tuning : SymmetricVectorProfile) (float : FloatArithmetic) (aarch64 : Bool)
    (cfg : MatrixVectorConfig) : @ExactSymmetricEnv R _ (realKind R precision) :=
  let _ := realKind R precision
  { tuning := tuning
    float := float
    aarch64 := aarch64
    symmetricColumnsUnit := realColumns cfg
    columns_exact := fun _ _ _ _ _ _ _ _ _ _ _ ran => real_columns_wrote precision ran }

def complexEnv (precision : Precision) (tuning : SymmetricVectorProfile) (float : FloatArithmetic) (aarch64 : Bool)
    (cfg : MatrixVectorConfig) (even : 2 ∣ cfg.laneCount) : @ExactSymmetricEnv (Cplx R) _ (complexKind R precision) :=
  let _ := complexKind R precision
  { tuning := tuning
    float := float
    aarch64 := aarch64
    symmetricColumnsUnit := complexColumns cfg
    columns_exact := fun _ _ _ _ _ _ _ _ _ _ _ ran => complex_columns_wrote precision even ran }

end Leaves

end Zynum.FixedMatrix
