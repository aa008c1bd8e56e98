import Zynum.Abi.CblasSymmetric
import Zynum.Abi.CblasTriangularMatrix

set_option autoImplicit false

/- The row-major wrappers outside the Hermitian families, one by one: each leaves what
   the operation makes of the matrices that its caller stores row by row, and what the
   column-major wrapper leaves with these matrices stored column by column. -/
namespace Zynum

open ArrayProgram

variable {T : Type} [CommRing T] [Scalar T]

-- What gbmv_ is there for: it runs to its end and leaves the product with the band.
def Fortran.GbmvMeets (rt : Runtime) (site : Site) (tuning : GemvProfile) (trans : Char) (m n kl ku : Int) (alpha : T) (a : Mem T)
    (lda : Int) (x : Mem T) (incx : Int) (beta : T) (incy : Int) : Prop :=
  ∃ total, (∀ y, Fortran.gbmv rt site tuning trans m n kl ku alpha a lda x incx beta y incy = some (total y)) ∧
    Updates (Set.Iio (toUsize (outputLength (parseTrans trans) m n)))
      (fun i => ix (startIndex (outputLength (parseTrans trans) m n) incy) i incy)
      (matrixVectorValue (parseTrans trans) m n alpha (bandMatrix (toUsize m) (toUsize kl) (toUsize ku) a lda) x incx beta) total

namespace Cblas

-- A wrapper hands its call on, unless it has loops of its own for it.
def GbmvPasses (rt : Runtime) (site : Site) (tuning : GemvProfile) (layout : Layout) (mode : TransposeMode) (m n kl ku : Int)
    (alpha : T) (a : Mem T) (lda : Int) (x : Mem T) (incx : Int) (beta : T) (incy : Int) : Prop :=
  conjLeaf T layout.code (cblasTransOf mode) = true ∨
    Fortran.GbmvMeets rt site tuning (gemvTransFor layout.code (cblasTransOf mode)) (pick layout.code n m) (pick layout.code m n)
      (pick layout.code ku kl) (pick layout.code kl ku) alpha a lda x incx beta incy

section Contracts

variable (T) [LawfulScalar T]

def RowMajorGemv : Prop :=
  ∀ (leaves leaves' : ExactGemvLeaves T) (rt rt' : Runtime) (site site' : Site) (mode : TransposeMode) (m n : Int) (alpha : T)
    (a a' : Mem T) (lda lda' : Int) (x : Mem T) (incx : Int) (beta : T) (incy : Int),
    0 ≤ m → 0 ≤ n → max1 n ≤ lda → incx ≠ 0 → incy ≠ 0 →
    let run := fun y => gemv leaves.toGemvLeaves rt site cblasRowMajor (cblasTransOf mode) m n alpha a lda x incx beta y incy
    (m = 0 ∨ n = 0 → ∀ y, run y = y) ∧
    (0 < m → 0 < n → Updates (Set.Iio (toUsize (outputLength mode m n)))
      (fun i => ix (startIndex (outputLength mode m n) incy) i incy)
      (matrixVectorValue mode m n alpha (Layout.rowMajor.entry a lda) x incx beta) run) ∧
    (max1 m ≤ lda' → SameMatrix (toUsize m) (toUsize n) (Layout.colMajor.entry a' lda') (Layout.rowMajor.entry a lda) → ∀ y,
      gemv leaves'.toGemvLeaves rt' site' cblasColMajor (cblasTransOf mode) m n alpha a' lda' x incx beta y incy = run y)

def RowMajorGbmv : Prop :=
  ∀ (rt rt' : Runtime) (site site' : Site) (tuning tuning' : GemvProfile) (mode : TransposeMode) (m n kl ku : Int) (alpha : T)
    (a a' : Mem T) (lda lda' : Int) (x : Mem T) (incx : Int) (beta : T) (incy : Int),
    0 ≤ m → 0 ≤ n → 0 ≤ kl → 0 ≤ ku → kl + ku + 1 ≤ lda → incx ≠ 0 → incy ≠ 0 →
    let run := fun y => gbmv rt site tuning cblasRowMajor (cblasTransOf mode) m n kl ku alpha a lda x incx beta y incy
    (m = 0 ∨ n = 0 → ∀ y, run y = some y) ∧
    (0 < m → 0 < n → GbmvPasses rt site tuning .rowMajor mode m n kl ku alpha a lda x incx beta incy →
      (∃ total, (∀ y, run y = some (total y)) ∧
        Updates (Set.Iio (toUsize (outputLength mode m n))) (fun i => ix (startIndex (outputLength mode m n) incy) i incy)
          (matrixVectorValue mode m n alpha (rowMajorBandEntry (toUsize kl) (toUsize ku) a lda) x incx beta) total) ∧
      (kl + ku + 1 ≤ lda' → GbmvPasses rt' site' tuning' .colMajor mode m n kl ku alpha a' lda' x incx beta incy →
        SameMatrix (toUsize m) (toUsize n) (bandMatrix (toUsize m) (toUsize kl) (toUsize ku) a' lda')
          (rowMajorBandEntry (toUsize kl) (toUsize ku) a lda) → ∀ y,
        gbmv rt' site' tuning' cblasColMajor (cblasTransOf mode) m n kl ku alpha a' lda' x incx beta y incy = run y))

def RowMajorGer : Prop :=
  ∀ (leaves leaves' : ExactGerLeaves T) (m n : Int) (alpha : T) (x : Mem T) (incx : Int) (y : Mem T) (incy lda lda' : Int)
    (conjY : Bool), 0 ≤ m → 0 ≤ n → incx ≠ 0 → incy ≠ 0 → max1 n ≤ lda →
    let run := fun a => ger leaves.toGerLeaves cblasRowMajor m n alpha x incx y incy a lda conjY
    let run' := fun a => ger leaves'.toGerLeaves cblasColMajor m n alpha x incx y incy a lda' conjY
    Updates (matrixCells (toUsize m) (toUsize n)) (Layout.rowMajor.address lda) (outerValue m n alpha x incx y incy conjY) run ∧
    (max1 m ≤ lda' → ∀ a a', SameMatrix (toUsize m) (toUsize n) (Layout.colMajor.entry a' lda') (Layout.rowMajor.entry a lda) →
      SameMatrix (toUsize m) (toUsize n) (Layout.colMajor.entry (run' a') lda') (Layout.rowMajor.entry (run a) lda))

-- symv, spmv and sbmv, by the storage of their triangle.
def RowMajorSymmetricProduct [DecidableEq T] : Prop :=
  ∀ (store store' : TriangularStore T) (env env' : ProductEnv T) (uplo : Triangle) (n : Int) (alpha : T) (x : Mem T) (incx : Int)
    (beta : T) (incy : Int), 0 ≤ n → store.Fits n → incx ≠ 0 → incy ≠ 0 →
    let run := fun y => store.symmetricMultiply env false .rowMajor uplo n alpha x incx beta y incy
    (∃ total, (∀ y, run y = some (total y)) ∧ Updates (Set.Iio (toUsize n)) (fun i => ix (startIndex n incy) i incy)
      (matrixVectorValue .noTrans n n alpha (completion false uplo (store.entry .rowMajor uplo (toUsize n))) x incx beta) total) ∧
    (store'.Fits n → SameStored false uplo (toUsize n) (store'.entry .colMajor uplo (toUsize n))
        (store.entry .rowMajor uplo (toUsize n)) → ∀ y,
      store'.symmetricMultiply env' false .colMajor uplo n alpha x incx beta y incy = run y)

-- syr, spr, syr2 and spr2, by their operation and the storage of their triangle.
def RowMajorRankOne : Prop :=
  ∀ (call : RankCall T) (store store' : RankStorage) (tuning tuning' : RankUpdateProfile) (float float' : FloatArithmetic)
    (rt rt' : Runtime) (site site' : Site), call.operation.hermitian = false → 0 ≤ call.n → call.Regular → store.Accepts call.n →
    let run := call.cblas .rowMajor tuning float rt site store
    let run' := call.cblas .colMajor tuning' float' rt' site' store'
    let place := Layout.rowMajor.trianglePlace store call.uplo call.order
    let place' := Layout.colMajor.trianglePlace store' call.uplo call.order
    Updates call.cells place (fun cell old => old + call.added cell.1 cell.2) run ∧
    (store'.Accepts call.n → ∀ a a', (∀ cell ∈ call.cells, a' (place' cell) = a (place cell)) →
      ∀ cell ∈ call.cells, run' a' (place' cell) = run a (place cell))

-- trmv, tpmv and tbmv.
def RowMajorTriangularProduct : Prop :=
  ∀ (store store' : TriangularStore T) (env env' : CompactEnv) (rt rt' : Runtime) (site site' : Site) (uplo : Triangle)
    (mode : TransposeMode) (diag : Diagonal) (n incx : Int), 0 ≤ n → store.Fits n → incx ≠ 0 →
    let run := store.multiply env rt site cblasRowMajor (cblasUplo uplo) (cblasTransOf mode) (cblasDiagOf diag) n incx
    let entry := store.entry .rowMajor uplo (toUsize n)
    (∀ x, VectorMultiplied (triangle uplo diag mode entry) n incx x (run x)) ∧
    (store'.Fits n → SameTriangle uplo diag n (store'.entry .colMajor uplo (toUsize n)) entry → ∀ x,
      store'.multiply env' rt' site' cblasColMajor (cblasUplo uplo) (cblasTransOf mode) (cblasDiagOf diag) n incx x = run x)

-- trsv, tpsv and tbsv.
def RowMajorTriangularSolve [Div T] : Prop :=
  ∀ (store store' : TriangularStore T) (env env' : CompactEnv) (rt rt' : Runtime) (site site' : Site) (uplo : Triangle)
    (mode : TransposeMode) (diag : Diagonal) (n incx : Int), 0 ≤ n → store.Fits n → incx ≠ 0 →
    NonzeroDiagonal diag n (store.entry .rowMajor uplo (toUsize n)) →
    let run := store.solve env rt site cblasRowMajor (cblasUplo uplo) (cblasTransOf mode) (cblasDiagOf diag) n incx
    let entry := store.entry .rowMajor uplo (toUsize n)
    (∀ x, VectorSolved (triangle uplo diag mode entry) n incx x (run x) ∧
      ∀ after, VectorSolved (triangle uplo diag mode entry) n incx x after → after = run x) ∧
    (store'.Fits n → SameTriangle uplo diag n (store'.entry .colMajor uplo (toUsize n)) entry → ∀ x,
      store'.solve env' rt' site' cblasColMajor (cblasUplo uplo) (cblasTransOf mode) (cblasDiagOf diag) n incx x = run x)

omit [LawfulScalar T] in
def RowMajorGemm : Prop :=
  ∀ (env env' : Level3Env T) (rt rt' : Runtime) (site site' : Site) (ta tb : TransposeMode) (m n k : Int) (alpha : T)
    (a a' : Mem T) (lda lda' : Int) (b b' : Mem T) (ldb ldb' : Int) (beta : T) (ldc ldc' : Int), 0 ≤ m → 0 ≤ n → 0 ≤ k →
    max1 (outputLength ta k m) ≤ lda → max1 (outputLength tb n k) ≤ ldb → max1 n ≤ ldc →
    let run := fun c => gemm env rt site cblasRowMajor (cblasTransOf ta) (cblasTransOf tb) m n k alpha a lda b ldb beta c ldc
    let run' := fun c =>
      gemm env' rt' site' cblasColMajor (cblasTransOf ta) (cblasTransOf tb) m n k alpha a' lda' b' ldb' beta c ldc'
    Updates (matrixCells (toUsize m) (toUsize n)) (Layout.rowMajor.address ldc)
      (gemmValue alpha (opEntry ta (Layout.rowMajor.entry a lda)) (opEntry tb (Layout.rowMajor.entry b ldb)) (toUsize k) beta) run ∧
    (max1 (outputLength ta m k) ≤ lda' → max1 (outputLength tb k n) ≤ ldb' → max1 m ≤ ldc' →
      SameOperand ta m k (Layout.colMajor.entry a' lda') (Layout.rowMajor.entry a lda) →
      SameOperand tb k n (Layout.colMajor.entry b' ldb') (Layout.rowMajor.entry b ldb) → ∀ c c',
      SameMatrix (toUsize m) (toUsize n) (Layout.colMajor.entry c' ldc') (Layout.rowMajor.entry c ldc) →
      SameMatrix (toUsize m) (toUsize n) (Layout.colMajor.entry (run' c') ldc') (Layout.rowMajor.entry (run c) ldc))

-- symm, and hemm where herm is set.
def RowMajorSymm : Prop :=
  ∀ (herm : Bool) (env env' : Level3Env T) (rt rt' : Runtime) (site site' : Site) (side : OperandSide) (uplo : Triangle) (m n : Int)
    (alpha : T) (a a' : Mem T) (lda lda' : Int) (b b' : Mem T) (ldb ldb' : Int) (beta : T) (ldc ldc' : Int), 0 ≤ m → 0 ≤ n →
    max1 (if side = .left then m else n) ≤ lda → max1 n ≤ ldb → max1 n ≤ ldc →
    let run := fun c => symm env rt site herm cblasRowMajor (cblasSideOf side) (cblasUplo uplo) m n alpha a lda b ldb beta c ldc
    let run' := fun c =>
      symm env' rt' site' herm cblasColMajor (cblasSideOf side) (cblasUplo uplo) m n alpha a' lda' b' ldb' beta c ldc'
    Updates (matrixCells (toUsize m) (toUsize n)) (Layout.rowMajor.address ldc) (symmetricValue side
      (completion herm uplo (Layout.rowMajor.entry a lda)) (toUsize m) (toUsize n) alpha (Layout.rowMajor.entry b ldb) beta) run ∧
    (max1 (if side = .left then m else n) ≤ lda' → max1 m ≤ ldb' → max1 m ≤ ldc' →
      SameStored herm uplo (if side = .left then toUsize m else toUsize n) (Layout.colMajor.entry a' lda')
        (Layout.rowMajor.entry a lda) →
      SameMatrix (toUsize m) (toUsize n) (Layout.colMajor.entry b' ldb') (Layout.rowMajor.entry b ldb) → ∀ c c',
      SameMatrix (toUsize m) (toUsize n) (Layout.colMajor.entry c' ldc') (Layout.rowMajor.entry c ldc) →
      SameMatrix (toUsize m) (toUsize n) (Layout.colMajor.entry (run' c') ldc') (Layout.rowMajor.entry (run c) ldc))

-- syrk, and syr2k where rankTwo is set: over complex scalars they take NoTrans and Trans.
def RowMajorRankK : Prop :=
  ∀ (rankTwo : Bool) (env env' : Level3Env T) (rt rt' : Runtime) (site site' : Site) (uplo : Triangle) (mode : TransposeMode)
    (n k : Int) (alpha : T) (a a' : Mem T) (lda lda' : Int) (b b' : Mem T) (ldb ldb' : Int) (beta : T) (ldc ldc' : Int),
    (mode = .conjTrans → Scalar.isComplex T = false) → 0 ≤ n → 0 ≤ k → max1 (outputLength mode k n) ≤ lda →
    (rankTwo = true → max1 (outputLength mode k n) ≤ ldb) → max1 n ≤ ldc →
    let run := fun c =>
      rankUpdate rankTwo env rt site cblasRowMajor (cblasUplo uplo) (cblasTransOf mode) n k alpha a lda b ldb beta c ldc
    let run' := fun c =>
      rankUpdate rankTwo env' rt' site' cblasColMajor (cblasUplo uplo) (cblasTransOf mode) n k alpha a' lda' b' ldb' beta c ldc'
    Updates (triangleCells uplo (toUsize n)) (Layout.rowMajor.address ldc)
      (rankValue rankTwo mode (toUsize k) alpha (Layout.rowMajor.entry a lda) (Layout.rowMajor.entry b ldb) beta) run ∧
    (max1 (outputLength mode n k) ≤ lda' → (rankTwo = true → max1 (outputLength mode n k) ≤ ldb') → max1 n ≤ ldc' →
      SameOperand mode n k (Layout.colMajor.entry a' lda') (Layout.rowMajor.entry a lda) →
      (rankTwo = true → SameOperand mode n k (Layout.colMajor.entry b' ldb') (Layout.rowMajor.entry b ldb)) → ∀ c c',
      (∀ i j, (i, j) ∈ triangleCells uplo (toUsize n) → Layout.colMajor.entry c' ldc' i j = Layout.rowMajor.entry c ldc i j) →
      ∀ i j, (i, j) ∈ triangleCells uplo (toUsize n) →
        Layout.colMajor.entry (run' c') ldc' i j = Layout.rowMajor.entry (run c) ldc i j)

variable [Div T]

def RowMajorTrmm : Prop :=
  ∀ (env env' : TriangularEnv T) (rt rt' : Runtime) (site site' : Site) (side : OperandSide) (uplo : Triangle) (mode : TransposeMode)
    (diag : Diagonal) (m n : Int) (alpha : T) (a a' : Mem T) (lda lda' ldb ldb' : Int), 0 ≤ m → 0 ≤ n →
    max1 (if side = .left then m else n) ≤ lda → max1 n ≤ ldb →
    let run := fun b =>
      trmm env rt site cblasRowMajor (cblasSideOf side) (cblasUplo uplo) (cblasTransOf mode) (cblasDiagOf diag) m n alpha a lda b ldb
    let run' := fun b =>
      trmm env' rt' site' cblasColMajor (cblasSideOf side) (cblasUplo uplo) (cblasTransOf mode) (cblasDiagOf diag) m n alpha a' lda' b
        ldb'
    (∀ b, MatrixMultiplied .rowMajor side (triangle uplo diag mode (Layout.rowMajor.entry a lda)) alpha (toUsize m) (toUsize n) ldb b
      (run b)) ∧
    (max1 (if side = .left then m else n) ≤ lda' → max1 m ≤ ldb' →
      SameTriangle uplo diag (if side = .left then m else n) (Layout.colMajor.entry a' lda') (Layout.rowMajor.entry a lda) → ∀ b b',
      SameMatrix (toUsize m) (toUsize n) (Layout.colMajor.entry b' ldb') (Layout.rowMajor.entry b ldb) →
      SameMatrix (toUsize m) (toUsize n) (Layout.colMajor.entry (run' b') ldb') (Layout.rowMajor.entry (run b) ldb))

def RowMajorTrsm : Prop :=
  ∀ (env env' : TriangularEnv T) (rt rt' : Runtime) (site site' : Site) (side : OperandSide) (uplo : Triangle) (mode : TransposeMode)
    (diag : Diagonal) (m n : Int) (alpha : T) (a a' : Mem T) (lda lda' ldb ldb' : Int), 0 ≤ m → 0 ≤ n →
    max1 (if side = .left then m else n) ≤ lda → max1 n ≤ ldb →
    NonzeroDiagonal diag (if side = .left then m else n) (Layout.rowMajor.entry a lda) →
    let run := fun b =>
      trsm env rt site cblasRowMajor (cblasSideOf side) (cblasUplo uplo) (cblasTransOf mode) (cblasDiagOf diag) m n alpha a lda b ldb
    let run' := fun b =>
      trsm env' rt' site' cblasColMajor (cblasSideOf side) (cblasUplo uplo) (cblasTransOf mode) (cblasDiagOf diag) m n alpha a' lda' b
        ldb'
    let solved :=
      MatrixSolved .rowMajor side (triangle uplo diag mode (Layout.rowMajor.entry a lda)) alpha (toUsize m) (toUsize n) ldb
    (∀ b, solved b (run b) ∧ ∀ other, solved b other → other = run b) ∧
    (max1 (if side = .left then m else n) ≤ lda' → max1 m ≤ ldb' →
      SameTriangle uplo diag (if side = .left then m else n) (Layout.colMajor.entry a' lda') (Layout.rowMajor.entry a lda) → ∀ b b',
      SameMatrix (toUsize m) (toUsize n) (Layout.colMajor.entry b' ldb') (Layout.rowMajor.entry b ldb) →
      SameMatrix (toUsize m) (toUsize n) (Layout.colMajor.entry (run' b') ldb') (Layout.rowMajor.entry (run b) ldb))

structure RowMajorExact [DecidableEq T] : Prop where
  gemv : RowMajorGemv T
  gbmv : RowMajorGbmv T
  ger : RowMajorGer T
  symmetricProduct : RowMajorSymmetricProduct T
  rankOne : RowMajorRankOne T
  triangularProduct : RowMajorTriangularProduct T
  triangularSolve : RowMajorTriangularSolve T
  gemm : RowMajorGemm T
  symm : RowMajorSymm T
  rankK : RowMajorRankK T
  trmm : RowMajorTrmm T
  trsm : RowMajorTrsm T

end Contracts

section Exact

variable [LawfulScalar T]

theorem row_major_gemv : RowMajorGemv T := by
  intro leaves leaves' rt rt' site site' mode m n alpha a a' lda lda' x incx beta incy rows columns wide stepx stepy run
  refine ⟨fun empty y => gemv_layout_empty _ rt site .rowMajor mode m n alpha a lda x incx beta incy empty y, ?_, ?_⟩
  · intro someRow someColumn
    exact gemv_layout_updates leaves rt site .rowMajor mode m n alpha a lda x incx beta incy someRow someColumn wide stepx stepy
  · intro wide' same y
    exact gemv_layouts_agree leaves leaves' rt rt' site site' .rowMajor .colMajor mode m n alpha a a' lda lda' x incx beta incy rows
      columns wide wide' stepx stepy same y

-- A call that its export meets has no column below the last row.
theorem gbmv_passes_regular (rt : Runtime) (site : Site) (tuning : GemvProfile) (layout : Layout) (mode : TransposeMode)
    (m n kl ku : Int) (alpha : T) (a : Mem T) (lda : Int) (x : Mem T) (incx : Int) (beta : T) (incy : Int) (rows : 0 < m)
    (columns : 0 < n) (below : 0 ≤ kl) (above : 0 ≤ ku) (wide : kl + ku + 1 ≤ lda) (stepx : incx ≠ 0) (stepy : incy ≠ 0)
    (passes : GbmvPasses rt site tuning layout mode m n kl ku alpha a lda x incx beta incy) :
    alpha = 0 ∨ BandRegular T layout mode m n kl ku := by
  by_contra irregular
  obtain ⟨active, far⟩ := not_or.mp irregular
  have traps := gbmv_layout_traps rt site tuning layout mode m n kl ku alpha a lda x incx beta incy rows columns below above wide stepx
    stepy active far x
  have busy := (not_or.mp far).1
  obtain ⟨total, runs, _⟩ := passes.resolve_left busy
  simp only [gbmv, valid_layout, Bool.not_true, Bool.false_eq_true, if_false, busy, runs x] at traps
  cases traps

theorem row_major_gbmv : RowMajorGbmv T := by
  intro rt rt' site site' tuning tuning' mode m n kl ku alpha a a' lda lda' x incx beta incy rows columns below above wide stepx stepy
    run
  refine ⟨fun empty y => gbmv_layout_empty rt site tuning .rowMajor mode m n kl ku alpha a lda x incx beta incy empty y, ?_⟩
  intro someRow someColumn passes
  have regular := gbmv_passes_regular rt site tuning .rowMajor mode m n kl ku alpha a lda x incx beta incy someRow someColumn below
    above wide stepx stepy passes
  refine ⟨gbmv_layout_updates rt site tuning .rowMajor mode m n kl ku alpha a lda x incx beta incy someRow someColumn below above wide
    stepx stepy regular, ?_⟩
  intro wide' passes' same y
  have regular' := gbmv_passes_regular rt' site' tuning' .colMajor mode m n kl ku alpha a' lda' x incx beta incy someRow someColumn
    below above wide' stepx stepy passes'
  exact gbmv_layouts_regular rt rt' site site' tuning tuning' .rowMajor .colMajor mode m n kl ku alpha a a' lda lda' x incx beta incy
    someRow someColumn below above wide wide' stepx stepy regular regular' same y

theorem row_major_ger : RowMajorGer T := by
  intro leaves leaves' m n alpha x incx y incy lda lda' conjY rows columns stepx stepy wide run run'
  have one := ger_layout_updates leaves .rowMajor m n alpha x incx y incy lda conjY rows columns stepx stepy wide
  refine ⟨one, ?_⟩
  intro wide' a a' before i j inRows inColumns
  have other := ger_layout_updates leaves' .colMajor m n alpha x incx y incy lda' conjY rows columns stepx stepy wide'
  exact same_matrix_after one other (fun _ _ _ => rfl) a a' (fun i j member => before i j member.1 member.2) i j ⟨inRows, inColumns⟩

theorem row_major_symmetric_product [DecidableEq T] : RowMajorSymmetricProduct T := by
  intro store store' env env' uplo n alpha x incx beta incy size fits stepx stepy run
  obtain ⟨total, runs, one⟩ := store.symmetric_multiply_updates env false .rowMajor uplo n alpha x incx beta incy size fits stepx stepy
  refine ⟨⟨total, runs, one⟩, ?_⟩
  intro fits' same y
  obtain ⟨total', runs', other⟩ := store'.symmetric_multiply_updates env' false .colMajor uplo n alpha x incx beta incy size fits'
    stepx stepy
  have moved := other.congr rfl (fun i old inside => matrix_vector_value_congr .noTrans n n alpha _ _
    (fun r s inRow inColumn => same_stored_completion false uplo (toUsize n) _ _ same r s inRow inColumn) x incx beta i old inside)
  rw [runs' y, moved.unique one]
  exact (runs y).symm

theorem row_major_rank_one : RowMajorRankOne T := by
  intro call store store' tuning tuning' float float' rt rt' site site' plain size regular accepts run run' place place'
  have active : call.operation.hermitian = true → call.scalar ≠ 0 := fun herm => by
    rw [plain] at herm
    cases herm
  have target : ∀ layout : Layout, ∀ cell old, call.layoutTarget layout cell old = old + call.added cell.1 cell.2 := by
    intro layout cell old
    rw [RankCall.layoutTarget, plain]
    rfl
  have one := (call_layout_updates .rowMajor tuning float rt site call size regular accepts active).congr rfl
    (fun cell old _ => target .rowMajor cell old)
  refine ⟨one, ?_⟩
  intro accepts' a a' before cell member
  have other := (call_layout_updates .colMajor tuning' float' rt' site' call size regular accepts' active).congr rfl
    (fun cell old _ => target .colMajor cell old)
  exact (other.written a' cell member).trans (by rw [before cell member]; exact (one.written a cell member).symm)

theorem row_major_triangular_product : RowMajorTriangularProduct T := by
  intro store store' env env' rt rt' site site' uplo mode diag n incx size fits nonzero run entry
  have product := store.multiplies env rt site .rowMajor uplo mode diag n incx size fits nonzero
  refine ⟨fun x => vector_multiplied (product x), ?_⟩
  intro fits' same x
  have other := store'.multiplies env' rt' site' .colMajor uplo mode diag n incx size fits' nonzero
  exact same_product (other.product_congr same.triangle) product x

theorem row_major_triangular_solve [Div T] [ExactDivision T] : RowMajorTriangularSolve T := by
  intro store store' env env' rt rt' site site' uplo mode diag n incx size fits nonzero diagonal run entry
  have regular : Regular diag (toUsize n) (triangle uplo diag mode entry) := diagonal.regular
  have solvable := triangle_solvable regular {0}
  have solution := store.solves env rt site .rowMajor uplo mode diag n incx size fits nonzero regular
  refine ⟨fun x => ⟨vector_solved (solvable _) (solution x), fun after solved => vector_solved_unique after (solution x) solved⟩, ?_⟩
  intro fits' same x
  have moved : NonzeroDiagonal diag n (store'.entry .colMajor uplo (toUsize n)) := fun kind d inside => by
    rw [same d d inside inside (stored_diagonal uplo d) (fun unit => nomatch unit.symm.trans kind)]
    exact diagonal kind d inside
  have other := (store'.solves env' rt' site' .colMajor uplo mode diag n incx size fits' nonzero
    moved.regular).solution_congr same.triangle
  exact same_solution other solution x (solvable _)

omit [LawfulScalar T] in
theorem row_major_gemm : RowMajorGemm T := by
  intro env env' rt rt' site site' ta tb m n k alpha a a' lda lda' b b' ldb ldb' beta ldc ldc' rows columns depth widea wideb widec
  exact gemm_layouts_hold env env' rt rt' site site' .rowMajor .colMajor ta tb m n k alpha a a' lda lda' b b' ldb ldb' beta ldc ldc'
    rows columns depth widea wideb widec

theorem row_major_symm : RowMajorSymm T := by
  intro herm env env' rt rt' site site' side uplo m n alpha a a' lda lda' b b' ldb ldb' beta ldc ldc' rows columns widea wideb widec
    run run'
  refine ⟨symm_layout_updates env rt site herm .rowMajor side uplo m n alpha a lda b ldb beta ldc rows columns widea wideb widec, ?_⟩
  intro widea' wideb' widec'
  exact symm_layouts_agree env env' rt rt' site site' herm .rowMajor .colMajor side uplo m n alpha a a' lda lda' b b' ldb ldb' beta ldc
    ldc' rows columns widea wideb widec widea' wideb' widec'

theorem row_major_rank_k : RowMajorRankK T := by
  intro rankTwo env env' rt rt' site site' uplo mode n k alpha a a' lda lda' b b' ldb ldb' beta ldc ldc' plain size depth widea wideb
    widec run run'
  refine ⟨rank_layout_updates rankTwo env rt site .rowMajor uplo mode n k alpha a lda b ldb beta ldc plain size depth widea wideb
    widec, ?_⟩
  intro widea' wideb' widec'
  exact rank_layouts_agree rankTwo env env' rt rt' site site' .rowMajor .colMajor uplo mode n k alpha a a' lda lda' b b' ldb ldb' beta
    ldc ldc' plain size depth widea wideb widec widea' wideb' widec'

variable [Div T]

theorem row_major_trmm : RowMajorTrmm T := by
  intro env env' rt rt' site site' side uplo mode diag m n alpha a a' lda lda' ldb ldb' rows columns widea wideb run run'
  refine ⟨fun b => trmm_layout_multiplied env rt site .rowMajor side uplo mode diag m n alpha a lda ldb rows columns widea wideb b, ?_⟩
  intro widea' wideb'
  exact trmm_layouts_agree env env' rt rt' site site' .rowMajor .colMajor side uplo mode diag m n alpha a a' lda lda' ldb ldb' rows
    columns widea wideb widea' wideb'

variable [ExactDivision T]

theorem row_major_trsm : RowMajorTrsm T := by
  intro env env' rt rt' site site' side uplo mode diag m n alpha a a' lda lda' ldb ldb' rows columns widea wideb diagonal run run' solved
  refine ⟨fun b => trsm_layout_solved env rt site .rowMajor side uplo mode diag m n alpha a lda ldb rows columns widea wideb diagonal b,
    ?_⟩
  intro widea' wideb'
  exact trsm_layouts_agree env env' rt rt' site site' .rowMajor .colMajor side uplo mode diag m n alpha a a' lda lda' ldb ldb' rows
    columns widea wideb diagonal widea' wideb'

theorem row_major_exact [DecidableEq T] : RowMajorExact T where
  gemv := row_major_gemv
  gbmv := row_major_gbmv
  ger := row_major_ger
  symmetricProduct := row_major_symmetric_product
  rankOne := row_major_rank_one
  triangularProduct := row_major_triangular_product
  triangularSolve := row_major_triangular_solve
  gemm := row_major_gemm
  symm := row_major_symm
  rankK := row_major_rank_k
  trmm := row_major_trmm
  trsm := row_major_trsm

end Exact

section Runs

-- Conjugated loops over dense and packed storage, and a real update kept packed by rows or dense by columns.
theorem row_major_exact_small :
    let _ := complexKind Rat .double
    let _ := realKind Rat .double
    let a : Mem (Cplx Rat) := fun p => ⟨p + 1, 1⟩
    let portable := ExactGemvLeaves.portable (Cplx Rat)
    let call : RankCall Rat := ⟨.syr2, .upper, 3, 2, fun p => p, 2, fun p => p + 1, -1⟩
    let update := call.cblas .rowMajor RankUpdateProfile.production FloatArithmetic.fixedPoint Runtime.sequential [] .packed
    let update' := call.cblas .colMajor RankUpdateProfile.production FloatArithmetic.fixedPoint Runtime.sequential [] (.dense 4)
    Updates (Set.Iio 3) (fun i => ix (startIndex 3 (-1)) i (-1))
        (matrixVectorValue .conjTrans 2 3 ⟨0, 1⟩ (Layout.rowMajor.entry a 4) a 2 1)
        (fun y => gemv portable.toGemvLeaves Runtime.sequential [] cblasRowMajor cblasConjTrans 2 3 ⟨0, 1⟩ a 4 a 2 1 y (-1)) ∧
      VectorSolved (triangle .lower .nonUnit .conjTrans (Layout.rowMajor.triPackedEntry .lower 3 a)) 3 (-2) a
        ((TriangularStore.packed a).solve CompactEnv.production Runtime.sequential [] cblasRowMajor cblasLower cblasConjTrans
          cblasNonUnit 3 (-2) a) ∧
      ∀ cell ∈ call.cells, update' (fun _ => 7) (Layout.colMajor.trianglePlace (.dense 4) .upper 3 cell) =
        update (fun _ => 7) (Layout.rowMajor.trianglePlace .packed .upper 3 cell) := by
  intro complex real a portable call update update'
  have complexLawful := complex_kind_lawful Rat .double
  have realLawful := real_kind_lawful Rat .double
  have complexes : RowMajorExact (Cplx Rat) := row_major_exact
  have reals : RowMajorExact Rat := row_major_exact
  refine ⟨?_, ?_, ?_⟩
  · exact (complexes.gemv portable portable Runtime.sequential Runtime.sequential [] [] .conjTrans 2 3 ⟨0, 1⟩ a a 4 4 a 2 1 (-1)
      (by decide) (by decide) (by decide) (by decide) (by decide)).2.1 (by decide) (by decide)
  · have nonzero : ∀ p, a p ≠ 0 := fun p zero => one_ne_zero (congrArg Cplx.im zero)
    have solves := complexes.triangularSolve (.packed a) (.packed a) CompactEnv.production CompactEnv.production Runtime.sequential
      Runtime.sequential [] [] .lower .conjTrans .nonUnit 3 (-2) (by decide) trivial (by decide) (fun _ d inside => by
        have small : d < 3 := inside
        interval_cases d <;> exact nonzero _)
    exact (solves.1 a).1
  · have updates := reals.rankOne call .packed (.dense 4) RankUpdateProfile.production RankUpdateProfile.production
      FloatArithmetic.fixedPoint FloatArithmetic.fixedPoint Runtime.sequential Runtime.sequential [] [] rfl (by decide)
      ⟨by decide, fun _ => by decide⟩ trivial
    exact updates.2 (show max1 3 ≤ 4 by decide) (fun _ => 7) (fun _ => 7) (fun _ _ => rfl)

-- The wrapper's own loops return before they scale y where there is no row to sum.
theorem conjugated_empty_rows_unscaled :
    let _ := complexKind Int .double
    ¬ Updates (Set.Iio 1) (fun i => ix (startIndex 1 1) i 1)
      (matrixVectorValue .conjTrans 0 1 (1 : Cplx Int) (Layout.rowMajor.entry (fun _ => 1) 1) (fun _ => 1) 1 0)
      (fun y => gemv (ExactGemvLeaves.portable (Cplx Int)).toGemvLeaves Runtime.sequential [] cblasRowMajor cblasConjTrans 0 1 1
        (fun _ => 1) 1 (fun _ => 1) 1 0 y 1) := by
  intro kind updates
  have written := updates.written (fun _ => 1) 0 Nat.zero_lt_one
  exact absurd written (by decide)

end Runs

end Cblas

end Zynum
