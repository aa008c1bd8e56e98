import Zynum.MatrixMatrix.RealGemm

set_option autoImplicit false

/- Every route of the real gemm writes alpha op(A) op(B) + beta C, once. -/
namespace Zynum

open ArrayProgram

section Cells

variable {R : Type}

theorem column_cells_updates (rows : Nat) (ldc : Int) (j : Nat) (value : Nat × Nat → R → R) (run : Mem R → Mem R)
    (updates : Updates (Set.Iio rows) (fun i => i) (fun i => value (i, j)) run) :
    Updates ((fun i => (i, j)) '' Set.Iio rows) (cellAddress ldc) value (onTail (matIndex ldc 0 j) run) := by
  refine Updates.reindex (fun i => (i, j)) ((updates.on_tail (matIndex ldc 0 j)).congr_address (fun i _ => ?_))
  simp only [cellAddress, matIndex]
  omega

end Cells

variable {R : Type} [CommRing R] [Scalar R]

def gemmTarget (transa transb : TransposeMode) (k : Nat) (alpha : R) (a : Mem R) (lda : Int) (b : Mem R) (ldb : Int)
    (beta : R) (cell : Nat × Nat) (old : R) : R :=
  gemmValue alpha (opEntry transa (denseEntry a lda)) (opEntry transb (denseEntry b ldb)) k beta cell old

omit [CommRing R] in
theorem layout_entry_op (b : Mem R) (ldb : Int) (transb : TransposeMode) (plain : transb = .noTrans ∨ transb = .trans) :
    layoutEntry (if transb = .trans then .trans else .noTrans) b ldb = opEntry transb (denseEntry b ldb) := by
  rcases plain with rfl | rfl <;> rfl

variable [LawfulScalar R]

theorem gemv_column_updates (env : RealGemmEnv R) (rt : Runtime) (site : Site) (m k : Int) (alpha : R) (a : Mem R)
    (lda : Int) (b : Mem R) (ldb : Int) (beta : R) (ldc : Int) (j : Nat) (rows : 0 < m) (depth : 0 < k) :
    Updates ((fun i => (i, j)) '' Set.Iio (toUsize m)) (cellAddress ldc)
      (gemmTarget .noTrans .noTrans (toUsize k) alpha a lda b ldb beta)
      (gemvColumn env rt site m k alpha a lda b ldb beta ldc j) := by
  have vector := gemv_updates env.leaves rt site .noTrans m k alpha a lda (view b (matIndex ldb 0 j)) 1 beta 1 rows depth
    Int.one_ne_zero Int.one_ne_zero
  simp only [outputLength, if_true, ix_unit] at vector
  refine column_cells_updates (toUsize m) ldc j _ _ (vector.congr rfl (fun i old _ => ?_))
  simp only [gemvTarget, if_true, vector_get_unit, gemmTarget, gemmValue, opEntry, denseEntry, view_apply]
  congr 2
  refine Finset.sum_congr rfl (fun p _ => ?_)
  congr 2
  simp only [matIndex]
  omega

theorem planner_updates (env : RealGemmEnv R) (rt : Runtime) (site : Site) (m n k : Int) (alpha : R) (a : Mem R) (lda : Int)
    (b : Mem R) (ldb : Int) (beta : R) (ldc : Int) (bound : toUsize m ≤ toUsize ldc) :
    Updates (matrixCells (toUsize m) (toUsize n)) (cellAddress ldc)
      (gemmTarget .noTrans .noTrans (toUsize k) alpha a lda b ldb beta)
      (fun c => plannerNoTrans env rt site m n k alpha a lda b ldb beta c ldc) :=
  no_trans_real_updates env.kernels env.profile rt site m n k alpha a lda b ldb beta ldc bound

theorem short_wide_row_updates (env : RealGemmEnv R) (rt : Runtime) (site : Site) (rows : Nat) (k : Int) (alpha : R)
    (a : Mem R) (lda : Int) (b : Mem R) (ldb : Int) (beta : R) (ldc : Int) (row : Nat) (depth : 0 < k) (small : row < rows)
    (bound : rows ≤ toUsize ldc) :
    Updates ((fun j => (row, j)) '' Set.Iio 2048) (cellAddress ldc)
      (gemmTarget .noTrans .noTrans (toUsize k) alpha a lda b ldb beta)
      (fun c => loop 2048 (fun j current => Function.update current (matIndex ldc row j)
        (gemvAt env rt site .trans k 2048 alpha b ldb (fun p => a (matIndex lda row p)) 1 beta
          (fun j => c (matIndex ldc row j)) 1 j)) c) := by
  have vector := gemv_updates env.leaves rt site .trans k 2048 alpha b ldb (fun p => a (matIndex lda row p)) 1 beta 1 depth
    (by decide) Int.one_ne_zero Int.one_ne_zero
  simp only [outputLength, reduceCtorEq, if_false, ix_unit] at vector
  have injective : Set.InjOn (fun j => matIndex ldc row j) (Set.Iio 2048) := by
    intro i _ j _ same
    exact congrArg Prod.snd (cell_address_injective ldc rows bound (show (row, i) ∈ _ from small)
      (show (row, j) ∈ _ from small) same)
  have through := updates_copy_through 2048 (fun j => matIndex ldc row j) _ _ injective vector
  refine Updates.reindex (fun j => (row, j)) ((through.congr rfl (fun j old _ => ?_)).congr_address (fun _ _ => rfl))
  simp only [gemvTarget, reduceCtorEq, if_false, vector_get_unit, gemmTarget, gemmValue, opEntry, denseEntry]
  congr 2
  exact Finset.sum_congr rfl (fun p _ => mul_comm _ _)

theorem short_wide_updates (env : RealGemmEnv R) (rt : Runtime) (site : Site) (m alignedRows k : Int) (alpha : R) (a : Mem R)
    (lda : Int) (b : Mem R) (ldb : Int) (beta : R) (ldc : Int) (depth : 0 < k) (aligned : alignedRows ≤ m)
    (bound : toUsize m ≤ toUsize ldc) :
    Updates (matrixCells (toUsize m) 2048) (cellAddress ldc)
      (gemmTarget .noTrans .noTrans (toUsize k) alpha a lda b ldb beta)
      (fun c => gemmNoTransRealShortWideTailN2048 env rt site m alignedRows k alpha a lda b ldb beta c ldc) := by
  have upper : toUsize alignedRows ≤ toUsize m := Int.toNat_le_toNat aligned
  have head := planner_updates env rt (0 :: site) alignedRows 2048 k alpha a lda b ldb beta ldc (upper.trans bound)
  have tailCells : {cell : Nat × Nat | ∃ step, step < toUsize m - toUsize alignedRows ∧
      cell ∈ (fun j => (toUsize alignedRows + step, j)) '' Set.Iio 2048} =
      {cell | toUsize alignedRows ≤ cell.1 ∧ cell.1 < toUsize m ∧ cell.2 < 2048} := by
    ext ⟨i, j⟩
    constructor
    · rintro ⟨step, small, j', inColumns, same⟩
      cases same
      exact ⟨Nat.le_add_right _ _, by simp only; omega, inColumns⟩
    · rintro ⟨lower, below, inColumns⟩
      simp only at lower below
      exact ⟨i - toUsize alignedRows, by omega, j, inColumns, by simp only [Prod.mk.injEq, and_true]; omega⟩
  have injective := matrix_cells_injective (toUsize m) 2048 ldc bound
  have tail := Updates.loop_apart (toUsize m - toUsize alignedRows)
    (fun step => (fun j => (toUsize alignedRows + step, j)) '' Set.Iio 2048) _
    (fun step small => short_wide_row_updates env rt (1 :: (toUsize alignedRows + step) :: site) (toUsize m) k alpha a lda b
      ldb beta ldc (toUsize alignedRows + step) depth (by omega) bound)
    (by
      rw [tailCells]
      refine injective.mono (fun cell member => ?_)
      exact ⟨member.2.1, member.2.2⟩)
    (by
      intro first second _ _ different
      rw [Set.disjoint_left]
      rintro cell ⟨i, _, rfl⟩ ⟨i', _, same⟩
      exact different (by have rowsEqual := congrArg Prod.fst same; simp only at rowsEqual; omega))
  rw [tailCells] at tail
  have joined : matrixCells (toUsize alignedRows) 2048 ∪
      {cell | toUsize alignedRows ≤ cell.1 ∧ cell.1 < toUsize m ∧ cell.2 < 2048} = matrixCells (toUsize m) 2048 := by
    ext ⟨i, j⟩
    constructor
    · rintro (member | member)
      · exact ⟨lt_of_lt_of_le member.1 upper, member.2⟩
      · exact ⟨member.2.1, member.2.2⟩
    · intro member
      by_cases before : i < toUsize alignedRows
      · exact Or.inl ⟨before, member.2⟩
      · exact Or.inr ⟨Nat.le_of_not_lt before, member.1, member.2⟩
  have whole := head.then_apart tail (joined.symm ▸ injective) (by
    rw [Set.disjoint_left]
    rintro cell inHead inTail
    exact absurd inHead.1 (Nat.not_lt.mpr inTail.1))
  exact whole.congr joined (fun _ _ _ => rfl)

theorem columns_union (m n : Nat) : matrixCells m n ∪ (fun i => (i, n)) '' Set.Iio m = matrixCells m (n + 1) := by
  ext ⟨i, j⟩
  constructor
  · rintro (member | ⟨i', inRows, same⟩)
    · exact ⟨member.1, Nat.lt_succ_of_lt member.2⟩
    · cases same
      exact ⟨inRows, Nat.lt_succ_self n⟩
  · intro member
    by_cases before : j < n
    · exact Or.inl ⟨member.1, before⟩
    · have last : n = j := Nat.le_antisymm (Nat.le_of_not_lt before) (Nat.lt_succ_iff.mp member.2)
      exact Or.inr ⟨i, member.1, by rw [last]⟩

theorem columns_apart (m n : Nat) : Disjoint (matrixCells m n) ((fun i => (i, n)) '' Set.Iio m) := by
  rw [Set.disjoint_left]
  rintro cell inHead ⟨i, _, rfl⟩
  exact Nat.lt_irrefl n inHead.2

theorem narrow_seventeen_updates (env : RealGemmEnv R) (rt : Runtime) (site : Site) (m k : Int) (alpha : R) (a : Mem R)
    (lda : Int) (b : Mem R) (ldb : Int) (beta : R) (ldc : Int) (rows : 0 < m) (depth : 0 < k)
    (bound : toUsize m ≤ toUsize ldc) :
    Updates (matrixCells (toUsize m) 17) (cellAddress ldc) (gemmTarget .noTrans .noTrans (toUsize k) alpha a lda b ldb beta)
      (fun c => gemvColumn env rt (1 :: site) m k alpha a lda b ldb beta ldc 16
        (plannerNoTrans env rt (0 :: site) m 16 k alpha a lda b ldb beta c ldc)) := by
  have head := planner_updates env rt (0 :: site) m 16 k alpha a lda b ldb beta ldc bound
  have last := gemv_column_updates env rt (1 :: site) m k alpha a lda b ldb beta ldc 16 rows depth
  have joined := columns_union (toUsize m) 16
  have whole := head.then_apart last (joined.symm ▸ matrix_cells_injective (toUsize m) 17 ldc bound)
    (columns_apart (toUsize m) 16)
  exact whole.congr joined (fun _ _ _ => rfl)

theorem column_by_column_updates (env : RealGemmEnv R) (rt : Runtime) (site : Site) (m k : Int) (n : Nat) (alpha : R)
    (a : Mem R) (lda : Int) (b : Mem R) (ldb : Int) (beta : R) (ldc : Int) (rows : 0 < m) (depth : 0 < k)
    (bound : toUsize m ≤ toUsize ldc) :
    Updates (matrixCells (toUsize m) n) (cellAddress ldc) (gemmTarget .noTrans .noTrans (toUsize k) alpha a lda b ldb beta)
      (loop n (fun j => gemvColumn env rt (j :: site) m k alpha a lda b ldb beta ldc j)) := by
  induction n with
  | zero =>
    refine (updates_nothing (cellAddress ldc) _).congr ?_ (fun _ _ _ => rfl)
    ext cell
    simp only [matrixCells, Set.mem_empty_iff_false, Set.mem_ofPred_eq, Nat.not_lt_zero, and_false]
  | succ n ih =>
    have joined := columns_union (toUsize m) n
    have whole := ih.then_apart
      (gemv_column_updates env rt (n :: site) m k alpha a lda b ldb beta ldc n rows depth)
      (joined.symm ▸ matrix_cells_injective (toUsize m) (n + 1) ldc bound) (columns_apart (toUsize m) n)
    exact whole.congr joined (fun _ _ _ => rfl)

theorem gemv_single_column_updates (env : RealGemmEnv R) (rt : Runtime) (site : Site) (m k : Int) (alpha : R) (a : Mem R)
    (lda : Int) (b : Mem R) (incb ldb : Int) (transb : TransposeMode) (beta : R) (ldc : Int) (rows : 0 < m) (depth : 0 < k)
    (step : 0 < incb) (column : ∀ p, opEntry transb (denseEntry b ldb) p 0 = vectorGet b (startIndex k incb) p incb) :
    Updates (matrixCells (toUsize m) 1) (cellAddress ldc) (gemmTarget .noTrans transb (toUsize k) alpha a lda b ldb beta)
      (fun c => gemvAt env rt site .noTrans m k alpha a lda b incb beta c 1) := by
  have vector := gemv_updates env.leaves rt site .noTrans m k alpha a lda b incb beta 1 rows depth (by omega) Int.one_ne_zero
  simp only [outputLength, if_true, ix_unit] at vector
  have placed : Updates (Set.Iio (toUsize m)) (fun i => cellAddress ldc (i, 0))
      (fun i => gemmTarget .noTrans transb (toUsize k) alpha a lda b ldb beta (i, 0))
      (fun c => gemvAt env rt site .noTrans m k alpha a lda b incb beta c 1) := by
    refine (vector.congr rfl (fun i old _ => ?_)).congr_address (fun i _ => ?_)
    · simp only [gemvTarget, if_true, gemmTarget, gemmValue, column]
    · simp only [cellAddress, matIndex, Nat.zero_mul, Nat.add_zero]
  refine (placed.reindex (fun i => (i, 0))).congr ?_ (fun _ _ _ => rfl)
  have joined := columns_union (toUsize m) 0
  have none : matrixCells (toUsize m) 0 = ∅ := by
    ext cell
    simp only [matrixCells, Set.mem_empty_iff_false, Set.mem_ofPred_eq, Nat.not_lt_zero, and_false]
  rw [none, Set.empty_union] at joined
  exact joined

theorem gemv_single_row_updates (env : RealGemmEnv R) (rt : Runtime) (site : Site) (mode : TransposeMode) (rowsB columnsB : Int)
    (n k : Nat) (alpha : R) (a : Mem R) (lda incx : Int) (transb : TransposeMode) (b : Mem R) (ldb : Int) (beta : R)
    (incc ldc : Int) (someRows : 0 < rowsB) (someColumns : 0 < columnsB) (stepx : 0 < incx) (stepc : 0 < incc)
    (length : toUsize (outputLength mode rowsB columnsB) = n)
    (depth : toUsize (if mode = .noTrans then columnsB else rowsB) = k)
    (row : ∀ p, vectorGet a (startIndex (if mode = .noTrans then columnsB else rowsB) incx) p incx = a (matIndex lda 0 p))
    (entry : ∀ j p, opEntry mode (denseEntry b ldb) j p = opEntry transb (denseEntry b ldb) p j)
    (spread : incc = ldc) :
    Updates (matrixCells 1 n) (cellAddress ldc) (gemmTarget .noTrans transb k alpha a lda b ldb beta)
      (fun c => gemvAt env rt site mode rowsB columnsB alpha b ldb a incx beta c incc) := by
  subst spread
  have vector := gemv_updates env.leaves rt site mode rowsB columnsB alpha b ldb a incx beta incc someRows someColumns
    (by omega) (by omega)
  rw [length] at vector
  have placed : Updates (Set.Iio n) (fun j => cellAddress incc (0, j))
      (fun j => gemmTarget .noTrans transb k alpha a lda b ldb beta (0, j))
      (fun c => gemvAt env rt site mode rowsB columnsB alpha b ldb a incx beta c incc) := by
    refine (vector.congr rfl (fun j old _ => ?_)).congr_address (fun j _ => ?_)
    · simp only [gemvTarget, depth, gemmTarget, gemmValue, row, entry]
      congr 2
      exact Finset.sum_congr rfl (fun p _ => mul_comm _ _)
    · have start : startIndex (outputLength mode rowsB columnsB) incc = 0 := by
        simp only [startIndex]
        split
        · rfl
        · rw [if_pos (by omega)]
      simp only [cellAddress, matIndex, ix, start, Nat.zero_add, Int.zero_add, toUsize]
      rw [Int.toNat_mul (by omega) (by omega), Int.toNat_natCast]
  refine (placed.reindex (fun j => (0, j))).congr ?_ (fun _ _ _ => rfl)
  ext ⟨i, j⟩
  constructor
  · rintro ⟨j', inColumns, same⟩
    cases same
    exact ⟨Nat.zero_lt_one, inColumns⟩
  · rintro ⟨inRows, inColumns⟩
    exact ⟨j, inColumns, by rw [show i = 0 from Nat.lt_one_iff.mp inRows]⟩

theorem gemm_no_trans_real_updates (env : RealGemmEnv R) (rt : Runtime) (site : Site) (m n k : Int) (alpha : R) (a : Mem R)
    (lda : Int) (b : Mem R) (ldb : Int) (beta : R) (ldc : Int) (bound : toUsize m ≤ toUsize ldc) :
    Updates (matrixCells (toUsize m) (toUsize n)) (cellAddress ldc)
      (gemmTarget .noTrans .noTrans (toUsize k) alpha a lda b ldb beta)
      (fun c => gemmNoTransReal env rt site m n k alpha a lda b ldb beta c ldc) := by
  by_cases empty : m ≤ 0 ∨ n ≤ 0
  · rw [matrix_cells_empty m n empty]
    exact (updates_nothing _ _).congr_run (fun c => by rw [gemmNoTransReal, if_pos empty])
  by_cases idle : k ≤ 0 ∨ isZero alpha = true
  · have vanishing : toUsize k = 0 ∨ alpha = 0 :=
      idle.imp (fun small => by simp only [toUsize]; omega) (LawfulScalar.isZero_iff alpha).mp
    refine ((scale_matrix_updates (toUsize m) (toUsize n) beta ldc bound).congr rfl (fun cell old _ => ?_)).congr_run
      (fun c => by rw [gemmNoTransReal, if_neg empty, if_pos idle])
    exact (gemm_value_empty _ _ _ _ _ _ _ vanishing).symm
  have rows : 0 < m := by omega
  have depth : 0 < k := by omega
  by_cases wide17 : m = 17 ∧ n = 2048 ∧ k ≥ 128 ∧ k ≤ 1024
  · have columns : toUsize n = 2048 := by rw [wide17.2.1]; rfl
    rw [columns]
    refine (short_wide_updates env rt site m 16 k alpha a lda b ldb beta ldc depth (by omega) bound).congr_run (fun c => ?_)
    rw [gemmNoTransReal, if_neg empty, if_neg idle, if_pos wide17]
  by_cases wide34 : m = 34 ∧ n = 2048 ∧ k ≥ 256 ∧ k ≤ 1024
  · have columns : toUsize n = 2048 := by rw [wide34.2.1]; rfl
    rw [columns]
    refine (short_wide_updates env rt site m 32 k alpha a lda b ldb beta ldc depth (by omega) bound).congr_run (fun c => ?_)
    rw [gemmNoTransReal, if_neg empty, if_neg idle, if_neg wide17, if_pos wide34]
  by_cases column : n = 1 ∧ k > 0
  · have columns : toUsize n = 1 := by rw [column.1]; rfl
    rw [columns]
    refine (gemv_single_column_updates env rt site m k alpha a lda b 1 ldb .noTrans beta ldc rows depth Int.one_pos
      (fun p => ?_)).congr_run (fun c => ?_)
    · simp only [opEntry, denseEntry, vector_get_unit, matIndex, Nat.zero_mul, Nat.add_zero]
    · rw [gemmNoTransReal, if_neg empty, if_neg idle, if_neg wide17, if_neg wide34, if_pos column]
  by_cases row : m = 1 ∧ lda = 1 ∧ ldc = 1 ∧ k ≥ 128
  · have single : toUsize m = 1 := by rw [row.1]; rfl
    rw [single]
    refine (gemv_single_row_updates env rt site .trans k n (toUsize n) (toUsize k) alpha a lda 1 .noTrans b ldb beta 1 ldc depth
      (by omega) Int.one_pos Int.one_pos rfl rfl (fun p => ?_) (fun _ _ => rfl) row.2.2.1.symm).congr_run (fun c => ?_)
    · simp only [reduceCtorEq, if_false, vector_get_unit, matIndex, row.2.1, Nat.zero_add]
      congr 1
      exact (Nat.mul_one p).symm
    · rw [gemmNoTransReal, if_neg empty, if_neg idle, if_neg wide17, if_neg wide34, if_neg column, if_pos row]
  by_cases seventeen : n = 17 ∧ m ≥ 1024 ∧ k ≥ 128
  · have columns : toUsize n = 17 := by rw [seventeen.1]; rfl
    rw [columns]
    refine (narrow_seventeen_updates env rt site m k alpha a lda b ldb beta ldc rows depth bound).congr_run (fun c => ?_)
    rw [gemmNoTransReal, if_neg empty, if_neg idle, if_neg wide17, if_neg wide34, if_neg column, if_neg row, if_pos seventeen]
  by_cases narrow : n > 1 ∧ n ≤ 17 ∧ n ≠ 16 ∧ m ≥ 1024 ∧ k ≥ 128
  · refine (column_by_column_updates env rt site m k (toUsize n) alpha a lda b ldb beta ldc rows depth bound).congr_run
      (fun c => ?_)
    rw [gemmNoTransReal, if_neg empty, if_neg idle, if_neg wide17, if_neg wide34, if_neg column, if_neg row,
      if_neg seventeen, if_pos narrow]
  · refine (planner_updates env rt site m n k alpha a lda b ldb beta ldc bound).congr_run (fun c => ?_)
    rw [gemmNoTransReal, if_neg empty, if_neg idle, if_neg wide17, if_neg wide34, if_neg column, if_neg row,
      if_neg seventeen, if_neg narrow]

theorem transposed_b_real_wrote (env : RealGemmEnv R) (rt : Runtime) (site : Site) (m n k : Int) (alpha : R) (a : Mem R)
    (lda : Int) (b : Mem R) (ldb : Int) (beta : R) (c after : Mem R) (ldc : Int) (bound : toUsize m ≤ toUsize ldc)
    (rows : 0 < m) (columns : 0 < n) (stepa : 0 < lda) (stepb : 0 < ldb) (stepc : 0 < ldc)
    (ran : tryGemmNoTransTransposedBReal env rt site m n k alpha a lda b ldb beta c ldc = some after) :
    Wrote (matrixCells (toUsize m) (toUsize n)) (cellAddress ldc)
      (gemmTarget .noTrans .trans (toUsize k) alpha a lda b ldb beta) c after := by
  have strided : ∀ (mem : Mem R) (ld count : Int) (p : Nat), 0 < ld → vectorGet mem (startIndex count ld) p ld =
      mem (matIndex ld 0 p) := by
    intro mem ld count p positive
    have start : startIndex count ld = 0 := by
      simp only [startIndex]
      split
      · rfl
      · rw [if_pos (by omega)]
    rw [vectorGet, ix, start, Int.zero_add, matIndex, Nat.zero_add, toUsize, Int.toNat_mul (by omega) (by omega),
      Int.toNat_natCast]
  unfold tryGemmNoTransTransposedBReal at ran
  split at ran
  · rename_i column
    cases ran
    have single : toUsize n = 1 := by rw [column.2.2.1]; rfl
    rw [single]
    exact (gemv_single_column_updates env rt site m k alpha a lda b ldb ldb .trans beta ldc rows (by omega) stepb
      (fun p => (strided b ldb k p stepb).symm)).wrote c
  · split at ran
    · rename_i row
      cases ran
      have single : toUsize m = 1 := by rw [row.2.2.1]; rfl
      rw [single]
      exact (gemv_single_row_updates env rt site .noTrans n k (toUsize n) (toUsize k) alpha a lda lda .trans b ldb beta ldc ldc
        columns (by omega) stepa stepc rfl rfl (fun p => strided a lda k p stepa) (fun _ _ => rfl) rfl).wrote c
    · exact no_trans_real_with_layout_wrote env.kernels env.profile rt site m n k alpha a lda b ldb .trans beta c after ldc true
        bound (fun _ => rfl) ran

theorem portable_loop_updates (transa transb : TransposeMode) (m n k : Nat) (alpha : R) (a : Mem R) (lda : Int) (b : Mem R)
    (ldb : Int) (beta : R) (ldc : Int) (bound : m ≤ toUsize ldc) :
    Updates (matrixCells m n) (cellAddress ldc) (gemmTarget transa transb k alpha a lda b ldb beta)
      (fun c => gemmPortableLoop transa transb m n k alpha a lda b ldb beta c ldc) := by
  have stored := updates_grid m n (cellAddress ldc) (fun cell (old : R) =>
    alpha * loop k (fun p sum => sum + matrixValue transa a lda cell.1 p * matrixValue transb b ldb p cell.2) 0 +
      if isZero beta then 0 else beta * old) (matrix_cells_injective m n ldc bound)
  refine stored.congr rfl (fun cell old _ => ?_)
  rw [loop_accumulate, zero_add]
  simp only [gemmTarget, gemmValue, matrixValue]
  split
  · rename_i nothing
    rw [(LawfulScalar.isZero_iff beta).mp nothing, zero_mul]
  · rfl

theorem gemm_real_updates (env : RealGemmEnv R) (rt : Runtime) (site : Site) (transa transb : TransposeMode) (m n k : Int)
    (alpha : R) (a : Mem R) (lda : Int) (b : Mem R) (ldb : Int) (beta : R) (ldc : Int) (stepa : 0 < lda) (stepb : 0 < ldb)
    (stepc : 0 < ldc) (bound : m ≤ ldc) :
    Updates (matrixCells (toUsize m) (toUsize n)) (cellAddress ldc)
      (gemmTarget transa transb (toUsize k) alpha a lda b ldb beta)
      (fun c => gemmReal env rt site transa transb m n k alpha a lda b ldb beta c ldc) := by
  have bound' : toUsize m ≤ toUsize ldc := Int.toNat_le_toNat bound
  by_cases empty : m ≤ 0 ∨ n ≤ 0
  · rw [matrix_cells_empty m n empty]
    exact (updates_nothing _ _).congr_run (fun c => by rw [gemmReal, if_pos empty])
  by_cases straight : transa = .noTrans ∧ transb = .noTrans
  · obtain ⟨rfl, rfl⟩ := straight
    refine (gemm_no_trans_real_updates env rt site m n k alpha a lda b ldb beta ldc bound').congr_run (fun c => ?_)
    rw [gemmReal, if_neg empty, if_pos ⟨rfl, rfl⟩]
  have portable : Updates (matrixCells (toUsize m) (toUsize n)) (cellAddress ldc)
      (gemmTarget transa transb (toUsize k) alpha a lda b ldb beta)
      (fun c => if toUsize k = 0 ∨ isZero alpha = true then scaleMatrix (toUsize m) (toUsize n) beta c ldc
        else gemmPortableLoop transa transb (toUsize m) (toUsize n) (toUsize k) alpha a lda b ldb beta c ldc) := by
    by_cases idle : toUsize k = 0 ∨ isZero alpha = true
    · have vanishing : toUsize k = 0 ∨ alpha = 0 := idle.imp_right (LawfulScalar.isZero_iff alpha).mp
      refine ((scale_matrix_updates (toUsize m) (toUsize n) beta ldc bound').congr rfl (fun cell old _ => ?_)).congr_run
        (fun c => by rw [if_pos idle])
      exact (gemm_value_empty _ _ _ _ _ _ _ vanishing).symm
    · exact (portable_loop_updates transa transb (toUsize m) (toUsize n) (toUsize k) alpha a lda b ldb beta ldc
        bound').congr_run (fun c => by rw [if_neg idle])
  have tried := attempt_updates (fun c =>
      if transa = .noTrans ∧ transb = .trans then
        tryGemmNoTransTransposedBReal env rt site m n k alpha a lda b ldb beta c ldc
      else if transa = .trans ∧ (transb = .noTrans ∨ transb = .trans) then
        tryGemmTransposedAReal env rt site transb m n k alpha a lda b ldb beta c ldc
      else none) (fun before after ran => ?_) portable
  · refine tried.congr_run (fun c => ?_)
    rw [gemmReal, if_neg empty, if_neg straight]
    simp only
    generalize (if transa = .noTrans ∧ transb = .trans then
        tryGemmNoTransTransposedBReal env rt site m n k alpha a lda b ldb beta c ldc
      else if transa = .trans ∧ (transb = .noTrans ∨ transb = .trans) then
        tryGemmTransposedAReal env rt site transb m n k alpha a lda b ldb beta c ldc
      else none) = answer
    cases answer <;> rfl
  · split at ran
    · rename_i transposedB
      obtain ⟨rfl, rfl⟩ := transposedB
      exact transposed_b_real_wrote env rt site m n k alpha a lda b ldb beta before after ldc bound' (by omega) (by omega)
        stepa stepb stepc ran
    · split at ran
      · rename_i transposedA
        obtain ⟨rfl, plain⟩ := transposedA
        have wrote := transposed_a_real_wrote env.kernels env.profile rt site m n k alpha a lda b ldb _ beta before after ldc
          bound' ran
        rw [layout_entry_op b ldb transb plain] at wrote
        exact wrote
      · exact nomatch ran

-- The portable task body (fallbackRealImpl of packed_simd.zig), which reads B in either layout.
def portableTask (task : Task R) (c : Mem R) : Mem R :=
  loopRange task.n0 task.n1 (fun j c => loop task.m (fun i c =>
    let acc := loop task.k (fun p acc => acc + task.a (matIndex task.lda i p) * task.bValue p j) 0
    let idxc := matIndex task.ldc i j
    Function.update c idxc (task.alpha * acc + if isZero task.beta then 0 else task.beta * c idxc)) c) c

theorem portable_task_updates (task : Task R) (bound : task.m ≤ toUsize task.ldc) :
    Updates task.cells (cellAddress task.ldc) task.value (portableTask task) := by
  have injective : Set.InjOn (fun cell : Nat × Nat => cellAddress task.ldc (cell.1, task.n0 + cell.2))
      {cell | cell.1 < task.m ∧ cell.2 < task.n1 - task.n0} := by
    intro first inFirst second inSecond same
    have equal := cell_address_injective task.ldc task.m bound (show (first.1, task.n0 + first.2) ∈ _ from inFirst.1)
      (show (second.1, task.n0 + second.2) ∈ _ from inSecond.1) same
    simp only [Prod.mk.injEq] at equal
    exact Prod.ext equal.1 (Nat.add_left_cancel equal.2)
  have stored := updates_grid task.m (task.n1 - task.n0) (fun cell => cellAddress task.ldc (cell.1, task.n0 + cell.2))
    (fun cell (old : R) => task.alpha * loop task.k (fun p acc =>
      acc + task.a (matIndex task.lda cell.1 p) * task.bValue p (task.n0 + cell.2)) 0 +
      if isZero task.beta then 0 else task.beta * old) injective
  have placed : Updates {cell : Nat × Nat | cell.1 < task.m ∧ cell.2 < task.n1 - task.n0}
      (fun cell => cellAddress task.ldc (cell.1, task.n0 + cell.2))
      (fun cell => task.value (cell.1, task.n0 + cell.2)) (portableTask task) := by
    refine stored.congr rfl (fun cell old _ => ?_)
    rw [loop_accumulate, zero_add]
    simp only [Task.value]
    split
    · rename_i nothing
      rw [(LawfulScalar.isZero_iff _).mp nothing, zero_mul]
    · rfl
  refine (placed.reindex (fun cell : Nat × Nat => (cell.1, task.n0 + cell.2))).congr ?_ (fun _ _ _ => rfl)
  ext ⟨i, j⟩
  constructor
  · rintro ⟨⟨i', j'⟩, ⟨inRows, inColumns⟩, same⟩
    cases same
    simp only at inRows inColumns
    exact ⟨inRows, Nat.le_add_right _ _, by simp only; omega⟩
  · rintro ⟨inRows, lower, upper⟩
    simp only at inRows lower upper
    exact ⟨(i, j - task.n0), ⟨inRows, by simp only; omega⟩, by simp only [Prod.mk.injEq, true_and]; omega⟩

-- A build without architecture kernels: one generic descriptor, no fast path.
def RealKernels.portable (base : Descriptor) : RealKernels R where
  base := base
  others := []
  run := portableTask
  fast _ _ _ _ _ _ _ _ _ _ _ := none
  run_exact task _ bound _ := portable_task_updates task bound
  fast_exact _ _ _ _ _ _ _ _ _ _ _ _ _ _ ran := nomatch ran

-- What a plan guarantees about its tasks, whatever runs them.
structure TasksPartition (profile : PlanningProfile R) (plan : Plan) (m n k : Nat) (alpha : R) (a : Mem R) (lda : Int)
    (b : Mem R) (ldb : Int) (bLayout : BLayout) (beta : R) (ldc : Int) : Prop where
  apart : ∀ s t, s < plan.columnTasks * plan.rowTasks → t < plan.columnTasks * plan.rowTasks → s ≠ t →
    Disjoint (ownedCells plan m n s) (ownedCells plan m n t)
  covered : {cell | ∃ t, t < plan.columnTasks * plan.rowTasks ∧ cell ∈ ownedCells plan m n t} = matrixCells m n
  owned : ∀ t, (fun cell : Nat × Nat => ((splitRows m (t / plan.columnTasks) plan.rowTasks).m0 + cell.1, cell.2)) ''
    (plannedTask profile plan m n k alpha a lda b ldb bLayout beta ldc t).cells = ownedCells plan m n t
  views : ∀ t r p j,
    let task := plannedTask profile plan m n k alpha a lda b ldb bLayout beta ldc t
    let m0 := (splitRows m (t / plan.columnTasks) plan.rowTasks).m0
    task.a (matIndex task.lda r p) = a (matIndex lda (m0 + r) p) ∧
      task.bValue p j = layoutEntry bLayout b ldb p j ∧
      task.cOffset + matIndex task.ldc r j = matIndex ldc (m0 + r) j

theorem gemm_accepted_bounds (ta tb : Char) (m n k lda ldb ldc : Int) (accepted : gemmError ta tb m n k lda ldb ldc = 0) :
    0 ≤ m ∧ 0 ≤ n ∧ 0 ≤ k ∧ 0 < lda ∧ 0 < ldb ∧ 0 < ldc ∧ m ≤ ldc := by
  simp only [gemmError, max1] at accepted
  split_ifs at accepted <;> omega

theorem real_gemm_tasks_partition (env : RealGemmEnv R) (rt : Runtime) (site : Site) (ta tb : Char) (m n k : Int) (alpha : R)
    (a : Mem R) (lda : Int) (b : Mem R) (ldb : Int) (beta : R) (ldc : Int)
    (accepted : gemmError ta tb m n k lda ldb ldc = 0) :
    (∀ (desc : Descriptor) (requestedThreads : Nat) (a : Mem R) (lda : Int) (bLayout : BLayout),
      let plan := planForDescriptor env.profile desc (toUsize m) (toUsize n) (toUsize k) alpha beta requestedThreads
      TasksPartition env.profile plan (toUsize m) (toUsize n) (toUsize k) alpha a lda b ldb bLayout beta ldc ∧
      (0 < k → desc ∈ env.kernels.candidates → (bLayout = .trans → desc.layoutTransposedB = true) →
        (∀ order : List Nat, order.Perm (List.range (plan.columnTasks * plan.rowTasks)) →
          Updates (matrixCells (toUsize m) (toUsize n)) (cellAddress ldc)
            (gemmValue alpha (fun i p => a (matIndex lda i p)) (layoutEntry bLayout b ldb) (toUsize k) beta)
            (fun c => order.foldl (fun current t => executeTask env.kernels (plannedTask env.profile plan (toUsize m)
              (toUsize n) (toUsize k) alpha a lda b ldb bLayout beta ldc t) current) c)) ∧
        Updates (matrixCells (toUsize m) (toUsize n)) (cellAddress ldc)
          (gemmValue alpha (fun i p => a (matIndex lda i p)) (layoutEntry bLayout b ldb) (toUsize k) beta)
          (executeTask env.kernels (wholeTask env.profile plan (toUsize m) (toUsize n) (toUsize k) alpha a lda b ldb bLayout
            beta ldc)))) ∧
    Updates (matrixCells (toUsize m) (toUsize n)) (cellAddress ldc)
      (gemmTarget (parseTrans ta) (parseTrans tb) (toUsize k) alpha a lda b ldb beta)
      (fun c => gemmReal env rt site (parseTrans ta) (parseTrans tb) m n k alpha a lda b ldb beta c ldc) := by
  obtain ⟨_, _, _, stepa, stepb, stepc, bound⟩ := gemm_accepted_bounds ta tb m n k lda ldb ldc accepted
  have bound' : toUsize m ≤ toUsize ldc := Int.toNat_le_toNat bound
  refine ⟨fun desc requestedThreads a lda bLayout => ?_,
    gemm_real_updates env rt site _ _ m n k alpha a lda b ldb beta ldc stepa stepb stepc bound⟩
  intro plan
  obtain ⟨columns, rows⟩ := plan_task_counts env.profile desc (toUsize m) (toUsize n) (toUsize k) alpha beta requestedThreads
  refine ⟨⟨owned_cells_apart plan _ _ columns rows, owned_cells_cover plan _ _ columns rows,
    planned_task_image env.profile plan _ _ _ alpha a lda b ldb bLayout beta ldc,
    planned_task_views env.profile plan _ _ _ alpha a lda b ldb bLayout beta ldc⟩, fun depth member layout => ?_⟩
  have depth' : 0 < toUsize k := by simp only [toUsize]; omega
  have supported : bLayout = .noTrans ∨ ∃ desc ∈ env.kernels.candidates,
      desc.kernel = plan.kernel.kernel ∧ desc.layoutTransposedB = true := by
    cases bLayout with
    | noTrans => exact Or.inl rfl
    | trans => exact Or.inr ⟨desc, member, rfl, layout rfl⟩
  exact ⟨planned_tasks_any_order env.kernels env.profile plan _ _ _ alpha a lda b ldb bLayout beta ldc depth' bound' columns
    rows supported, whole_task_updates env.kernels env.profile plan _ _ _ alpha a lda b ldb bLayout beta ldc depth' bound'
    supported⟩

def genericDescriptor (precision : Precision) : Descriptor where
  kernel := if precision = .single then .genericF32x4x4 else .genericF64x4x4
  precision := precision
  defaultEligible := true
  family := .generic
  layoutNoTrans := true
  layoutTransposedB := false
  arbitraryAlpha := true
  arbitraryBeta := true
  tile := if precision = .single then ⟨4, 4, 4, 4⟩ else ⟨2, 4, 4, 4⟩
  bounds := if precision = .single then ⟨4, 4, 1, 0⟩ else ⟨2, 4, 1, 0⟩
  pack := .none

def RealGemmEnv.portable (R : Type) [CommRing R] [Scalar R] [LawfulScalar R] : RealGemmEnv R where
  kernels := RealKernels.portable (genericDescriptor (Scalar.precision R))
  profile := ⟨true, fun _ _ _ _ _ => 0, fun _ _ => false, fun _ _ _ => ⟨.none, false, .natural⟩⟩
  leaves := ExactGemvLeaves.portable R

-- 200 by 200 in two tasks of columns, the second before the first, and on a pool.
theorem real_gemm_tasks_partition_small :
    let _ := realKind Int .double
    let _ := real_kind_lawful Int .double
    let env := RealGemmEnv.portable Int
    let plan := planForDescriptor env.profile (genericDescriptor .double) 200 200 200 (5 : Int) 7 4
    let entry : Mem Int := fun p => p
    plan.columnTasks * plan.rowTasks = 2 ∧
      Updates (matrixCells 200 200) (cellAddress 201)
        (gemmValue 5 (fun i p => entry (matIndex 202 i p)) (layoutEntry .noTrans entry 203) 200 7)
        (fun c => [1, 0].foldl (fun current t => executeTask env.kernels (plannedTask env.profile plan 200 200 200 5 entry 202
          entry 203 .noTrans 7 201 t) current) c) ∧
      Updates (matrixCells 200 200) (cellAddress 201) (gemmTarget .noTrans .noTrans 200 (5 : Int) entry 202 entry 203 7)
        (fun c => gemmReal env (Runtime.splitting 4) [] .noTrans .noTrans 200 200 200 5 entry 202 entry 203 7 c 201) := by
  intro kind lawful env plan entry
  have whole := real_gemm_tasks_partition env (Runtime.splitting 4) [] 'N' 'N' 200 200 200 5 entry 202 entry 203 7 201 (by decide)
  have two : plan.columnTasks * plan.rowTasks = 2 := by decide
  have tasks := ((whole.1 (genericDescriptor .double) 4 entry 202 .noTrans).2 (by decide) List.mem_cons_self
    (fun transposed => by cases transposed)).1
  refine ⟨two, tasks [1, 0] ?_, whole.2⟩
  exact two ▸ List.Perm.swap 0 1 []

end Zynum
