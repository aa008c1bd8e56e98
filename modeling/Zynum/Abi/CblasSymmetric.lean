import Zynum.Abi.CblasMatrix
import Zynum.Abi.CblasTriangular

set_option autoImplicit false

/- Products with a stored triangle and updates of one, through CBLAS. The wrappers only
   flip the triangle, so a routine meets the transpose of a row-major matrix: of a
   Hermitian one, the conjugate. -/
namespace Zynum

open ArrayProgram

variable {T : Type} [CommRing T] [Scalar T]

section Products

-- All that a symmetric product depends on beside its arguments.
structure ProductEnv (T : Type) [CommRing T] [Scalar T] where
  symmetric : ExactSymmetricEnv T
  band : SymmetricProfile
  aarch64 : Bool
  rt : Runtime
  site : Site
  workspace : Mem T

-- The production profile on one thread, without a column kernel.
def ProductEnv.portable (T : Type) [CommRing T] [Scalar T] : ProductEnv T where
  symmetric :=
    { tuning := ⟨true, true, false, 64 * 1024 * 1024, 512 * 512, 256 * 256, 512⟩
      float := FloatArithmetic.fixedPoint
      aarch64 := false
      symmetricColumnsUnit := fun _ _ _ _ _ _ _ _ _ _ => none
      columns_exact := fun _ _ _ _ _ _ _ _ _ _ _ ran => by cases ran }
  band := ⟨true, 512, 8⟩
  aarch64 := false
  rt := Runtime.sequential
  site := []
  workspace _ := 0

variable [DecidableEq T]

def TriangularStore.symmetricMultiply (store : TriangularStore T) (env : ProductEnv T) (herm : Bool) (layout : Layout)
    (uplo : Triangle) (n : Int) (alpha : T) (x : Mem T) (incx : Int) (beta : T) (y : Mem T) (incy : Int) : Option (Mem T) :=
  match store with
  | .dense a lda =>
    some (Cblas.symv env.symmetric.toSymmetricEnv env.rt env.site herm layout.code (cblasUplo uplo) n alpha a lda x incx beta
      env.workspace y incy)
  | .packed ap =>
    some (Cblas.spmv env.symmetric.toSymmetricEnv env.rt env.site herm layout.code (cblasUplo uplo) n alpha ap x incx beta
      env.workspace y incy)
  | .band k a lda =>
    Cblas.sbmv env.band env.aarch64 env.rt env.site herm layout.code (cblasUplo uplo) n k alpha (fun place => some (a place)) lda x
      incx beta y incy

theorem symmetric_vector_accepted (uplo : Char) (n lda incx incy : Int) (triangles : validUplo uplo = true) (size : 0 ≤ n)
    (wide : max1 n ≤ lda) (stepx : incx ≠ 0) (stepy : incy ≠ 0) : symmetricVectorError uplo n lda incx incy = 0 := by
  simp only [symmetricVectorError, triangles, Bool.not_true, Bool.false_eq_true, if_false]
  split_ifs <;> omega

theorem packed_symmetric_vector_accepted (uplo : Char) (n incx incy : Int) (triangles : validUplo uplo = true) (size : 0 ≤ n)
    (stepx : incx ≠ 0) (stepy : incy ≠ 0) : packedSymmetricVectorError uplo n incx incy = 0 := by
  simp only [packedSymmetricVectorError, triangles, Bool.not_true, Bool.false_eq_true, if_false]
  split_ifs <;> omega

variable [LawfulScalar T]

omit [DecidableEq T] in
theorem TriangularStore.completion_passed (store : TriangularStore T) (herm : Bool) (layout : Layout) (uplo : Triangle) (n i j : Nat)
    (inRows : i < n) (inColumns : j < n) :
    completion herm (layout.triangle uplo) (store.entry .colMajor (layout.triangle uplo) n) i j =
      conjugateIf (completion herm uplo (store.entry layout uplo n) i j) (herm && layout = .rowMajor) := by
  cases layout with
  | colMajor =>
    rw [decide_eq_false (by exact nofun), Bool.and_false]
    rfl
  | rowMajor =>
    have turned : ∀ r s, r < n → s < n → store.entry .colMajor (flipped uplo) n r s = store.entry .rowMajor uplo n s r :=
      fun r s inRow inColumn => (store.row_entry uplo n s r inColumn inRow).symm
    have same : completion herm (flipped uplo) (store.entry .colMajor (flipped uplo) n) i j =
        completion herm (flipped uplo) (fun r s => store.entry .rowMajor uplo n s r) i j := by
      refine completion_congr herm (flipped uplo) _ _ i j (fun r s _ _ place => ?_) (fun _ => ?_)
      · rcases place with ⟨rfl, rfl⟩ | ⟨rfl, rfl⟩
        · exact turned r s inRows inColumns
        · exact turned r s inColumns inRows
      · rw [turned i i inRows inRows]
    rw [Layout.triangle, same, completion_flip, completion_mirror, decide_eq_true rfl, Bool.and_true]
    rfl

theorem TriangularStore.symmetric_multiply_updates (store : TriangularStore T) (env : ProductEnv T) (herm : Bool) (layout : Layout)
    (uplo : Triangle) (n : Int) (alpha : T) (x : Mem T) (incx : Int) (beta : T) (incy : Int) (size : 0 ≤ n) (fits : store.Fits n)
    (stepx : incx ≠ 0) (stepy : incy ≠ 0) :
    ∃ total, (∀ y, store.symmetricMultiply env herm layout uplo n alpha x incx beta y incy = some (total y)) ∧
      Updates (Set.Iio (toUsize n)) (fun i => ix (startIndex n incy) i incy) (matrixVectorValue .noTrans n n alpha (fun i j =>
        conjugateIf (completion herm uplo (store.entry layout uplo (toUsize n)) i j) (herm && layout = .rowMajor)) x incx beta)
        total := by
  obtain ⟨triangles, parsed⟩ := Cblas.uplo_passed layout uplo
  have moved : ∀ i old, i ∈ Set.Iio (toUsize n) → symmetricProduct (completion herm (layout.triangle uplo)
      (store.entry .colMajor (layout.triangle uplo) (toUsize n))) n alpha x incx beta i old =
      matrixVectorValue .noTrans n n alpha (fun i j => conjugateIf (completion herm uplo (store.entry layout uplo (toUsize n)) i j)
        (herm && layout = .rowMajor)) x incx beta i old := fun i old inside =>
    matrix_vector_value_congr .noTrans n n alpha _ _ (fun r s inRow inColumn =>
      store.completion_passed herm layout uplo _ r s inRow inColumn) x incx beta i old inside
  cases store with
  | dense a lda =>
    have accepted := symmetric_vector_accepted _ n lda incx incy triangles size fits stepx stepy
    refine ⟨_, fun y => rfl, ?_⟩
    refine ((symv_updates env.symmetric env.rt env.site (layout.triangle uplo) n alpha a lda x incx beta env.workspace incy herm
      stepx stepy).congr rfl moved).congr_run (fun y => ?_)
    simp only [Cblas.symv, Cblas.valid_layout, Bool.not_true, Bool.false_eq_true, if_false, Fortran.symv, Fortran.report_accepted
      accepted, parsed]
  | packed ap =>
    have accepted := packed_symmetric_vector_accepted _ n incx incy triangles size stepx stepy
    refine ⟨_, fun y => rfl, ?_⟩
    refine ((spmv_updates env.rt env.site (layout.triangle uplo) n alpha ap x incx beta env.workspace incy herm
      env.symmetric.toSymmetricEnv stepx stepy).congr rfl moved).congr_run (fun y => ?_)
    simp only [Cblas.spmv, Cblas.valid_layout, Bool.not_true, Bool.false_eq_true, if_false, Fortran.spmv, Fortran.report_accepted
      accepted, parsed]
  | band k a lda =>
    exact Cblas.sbmv_layout_updates env.band env.aarch64 env.rt env.site herm layout uplo n k alpha a lda x incx beta incy size
      fits.1 fits.2 stepx stepy _ (fun _ _ => rfl)

end Products

section Updates

-- Where a layout keeps an element of a stored triangle.
def Layout.trianglePlace (layout : Layout) (store : RankStorage) (uplo : Triangle) (n : Nat) (cell : Nat × Nat) : Nat :=
  match store with
  | .dense lda => layout.address lda cell
  | .packed =>
    match layout with
    | .rowMajor => (rowMajorTriPackedIndex (cblasUplo uplo) n cell.1 cell.2).getD 0
    | .colMajor => packedIndex uplo n cell.1 cell.2

def RankStorage.Accepts (store : RankStorage) (n : Int) : Prop :=
  match store with
  | .dense lda => max1 n ≤ lda
  | .packed => True

def RankCall.cblas (call : RankCall T) (layout : Layout) (tuning : RankUpdateProfile) (float : FloatArithmetic) (rt : Runtime)
    (site : Site) (store : RankStorage) (a : Mem T) : Mem T :=
  let uplo := cblasUplo call.uplo
  match call.operation, store with
  | .syr, .dense lda => Cblas.syr tuning float rt site layout.code uplo call.n call.alpha call.x call.incx a lda
  | .syr, .packed => Cblas.spr tuning float rt site layout.code uplo call.n call.alpha call.x call.incx a
  | .her, .dense lda => Cblas.her tuning float rt site layout.code uplo call.n call.alpha call.x call.incx a lda
  | .her, .packed => Cblas.hpr tuning float rt site layout.code uplo call.n call.alpha call.x call.incx a
  | .syr2, .dense lda =>
    Cblas.syr2 tuning float rt site layout.code uplo call.n call.alpha call.x call.incx call.y call.incy a lda
  | .syr2, .packed => Cblas.spr2 tuning float rt site layout.code uplo call.n call.alpha call.x call.incx call.y call.incy a
  | .her2, .dense lda =>
    Cblas.her2 tuning float rt site layout.code uplo call.n call.alpha call.x call.incx call.y call.incy a lda
  | .her2, .packed => Cblas.hpr2 tuning float rt site layout.code uplo call.n call.alpha call.x call.incx call.y call.incy a

-- The call a wrapper makes.
def RankCall.passed (call : RankCall T) (layout : Layout) : RankCall T := { call with uplo := layout.triangle call.uplo }

variable {call : RankCall T} {store : RankStorage} (layout : Layout) (tuning : RankUpdateProfile) (float : FloatArithmetic)
  (rt : Runtime) (site : Site)

theorem rank_arguments_accepted (uplo : Char) (n incx incy lda : Int) (triangles : validUplo uplo = true) (size : 0 ≤ n)
    (stepx : incx ≠ 0) :
    (max1 n ≤ lda → symmetricRankError uplo n incx lda = 0) ∧ packedRankError uplo n incx = 0 ∧
      (incy ≠ 0 → (max1 n ≤ lda → symmetricRank2Error uplo n incx incy lda = 0) ∧ packedRank2Error uplo n incx incy = 0) := by
  simp only [symmetricRankError, packedRankError, symmetricRank2Error, packedRank2Error, triangles, Bool.not_true,
    Bool.false_eq_true, if_false, if_neg size.not_gt, if_neg stepx]
  refine ⟨fun wide => if_neg wide.not_gt, trivial, fun stepy => ?_⟩
  rw [if_neg stepy, if_neg stepy]
  exact ⟨fun wide => if_neg wide.not_gt, rfl⟩

theorem cblas_passes (size : 0 ≤ call.n) (regular : call.Regular) (accepts : store.Accepts call.n) (a : Mem T) :
    call.cblas layout tuning float rt site store a = (call.passed layout).run tuning float rt site store a := by
  obtain ⟨triangles, parsed⟩ := Cblas.uplo_passed layout call.uplo
  have valid := Cblas.valid_layout layout
  have checks := fun lda => rank_arguments_accepted _ call.n call.incx call.incy lda triangles size regular.first
  obtain ⟨operation, uplo, n, alpha, x, incx, y, incy⟩ := call
  cases operation with
  | syr =>
    cases store with
    | dense lda => simp only [RankCall.cblas, Cblas.syr, valid, Fortran.syr, (checks lda).1 accepts, parsed]; rfl
    | packed => simp only [RankCall.cblas, Cblas.spr, valid, Fortran.spr, (checks 0).2.1, parsed]; rfl
  | her =>
    cases store with
    | dense lda => simp only [RankCall.cblas, Cblas.her, valid, Fortran.her, (checks lda).1 accepts, parsed]; rfl
    | packed => simp only [RankCall.cblas, Cblas.hpr, valid, Fortran.hpr, (checks 0).2.1, parsed]; rfl
  | syr2 =>
    have second := fun lda => (checks lda).2.2 (regular.second rfl)
    cases store with
    | dense lda => simp only [RankCall.cblas, Cblas.syr2, valid, Fortran.syr2, (second lda).1 accepts, parsed]; rfl
    | packed => simp only [RankCall.cblas, Cblas.spr2, valid, Fortran.spr2, (second 0).2, parsed]; rfl
  | her2 =>
    have second := fun lda => (checks lda).2.2 (regular.second rfl)
    cases store with
    | dense lda => simp only [RankCall.cblas, Cblas.her2, valid, Fortran.her2, (second lda).1 accepts, parsed]; rfl
    | packed => simp only [RankCall.cblas, Cblas.hpr2, valid, Fortran.hpr2, (second 0).2, parsed]; rfl

theorem row_triangle_place (store : RankStorage) (uplo : Triangle) (n i j : Nat) (member : (i, j) ∈ storedCells uplo n) :
    Layout.rowMajor.trianglePlace store uplo n (i, j) = store.place (flipped uplo) n (j, i) := by
  cases store with
  | dense lda => rfl
  | packed =>
    have kept : stored (flipped uplo) j i = true := by rw [stored_flipped]; exact member.2.2
    change (rowMajorTriPackedIndex (cblasUplo uplo) n i j).getD 0 = packedIndex (flipped uplo) n j i
    rw [row_major_packed uplo n i j member.1 member.2.1, tri_packed_index, if_pos kept, Option.getD_some]

theorem RankStorage.Accepts.fits {n : Int} (accepts : store.Accepts n) : store.Fits (toUsize n) := by
  cases store with
  | dense lda =>
    have wide : max1 n ≤ lda := accepts
    simp only [RankStorage.Fits, toUsize, max1] at wide ⊢
    omega
  | packed => trivial

def RankCall.layoutTarget (call : RankCall T) (layout : Layout) (cell : Nat × Nat) (old : T) : T :=
  clearedIf (call.operation.hermitian && cell.1 = cell.2)
    (old + conjugateIf (call.added cell.1 cell.2) (call.operation.hermitian && layout = .rowMajor))

section Exact

variable [LawfulScalar T]

theorem operation_mirror (operation : DenseRankOperation) (alpha : T) (x y : Nat → T) (i j : Nat)
    (real : operation = .her → conj alpha = alpha) :
    operation.added alpha x y j i = conjugateIf (operation.added alpha x y i j) operation.hermitian := by
  cases operation with
  | syr => 
    change x j * (alpha * x i) = x i * (alpha * x j)
    ring
  | her =>
    change x j * (alpha * conj (x i)) = conj (x i * (alpha * conj (x j)))
    rw [LawfulScalar.conj_mul, LawfulScalar.conj_mul, LawfulScalar.conj_conj, real rfl]
    ring
  | syr2 =>
    change x j * (alpha * y i) + y j * (alpha * x i) = x i * (alpha * y j) + y i * (alpha * x j)
    ring
  | her2 =>
    change x j * (alpha * conj (y i)) + y j * (conj alpha * conj (x i)) =
      conj (x i * (alpha * conj (y j)) + y i * (conj alpha * conj (x j)))
    simp only [LawfulScalar.conj_add, LawfulScalar.conj_mul, LawfulScalar.conj_conj]
    ring

theorem added_mirror (call : RankCall T) (i j : Nat) :
    call.added j i = conjugateIf (call.added i j) call.operation.hermitian := by
  refine operation_mirror call.operation call.scalar call.elementX call.elementY i j (fun her => ?_)
  rw [RankCall.scalar, if_pos her, LawfulScalar.conj_realOnly]

theorem call_layout_updates (call : RankCall T) (size : 0 ≤ call.n) (regular : call.Regular) (accepts : store.Accepts call.n)
    (active : call.operation.hermitian = true → call.scalar ≠ 0) :
    Updates call.cells (layout.trianglePlace store call.uplo call.order) (call.layoutTarget layout)
      (call.cblas layout tuning float rt site store) := by
  have regular' : (call.passed layout).Regular := ⟨regular.first, regular.second⟩
  have fits : store.Fits (call.passed layout).order := accepts.fits
  have whole := call_run_updates store tuning float rt site fits regular' active
  have turned : Updates call.cells (layout.trianglePlace store call.uplo call.order) (call.layoutTarget layout)
      ((call.passed layout).run tuning float rt site store) := by
    cases layout with
    | colMajor =>
      have plain : (call.operation.hermitian && decide (Layout.colMajor = .rowMajor)) = false := Bool.and_false _
      refine (whole.congr_address (fun cell _ => ?_)).congr rfl (fun cell old _ => ?_)
      · cases store <;> rfl
      · rw [RankCall.layoutTarget, plain]
        rfl
    | rowMajor =>
      have rows : (call.operation.hermitian && decide (Layout.rowMajor = .rowMajor)) = call.operation.hermitian := Bool.and_true _
      refine Updates.swapped whole (fun i j => ?_) (fun i j member => row_triangle_place store call.uplo call.order i j member)
        (fun i j _ old => ?_)
      · change _ ↔ j < call.order ∧ i < call.order ∧ stored (flipped call.uplo) j i = true
        rw [stored_flipped]
        exact ⟨fun member => ⟨member.2.1, member.1, member.2.2⟩, fun member => ⟨member.2.1, member.1, member.2.2⟩⟩
      · rw [RankCall.layoutTarget, rows, ← added_mirror]
        change clearedIf (call.operation.hermitian && decide (j = i)) (old + call.added j i) = _
        simp only [eq_comm (a := j)]
  exact turned.congr_run (fun a => cblas_passes layout tuning float rt site size regular accepts a)

theorem call_layout_idle (call : RankCall T) (size : 0 ≤ call.n) (regular : call.Regular) (accepts : store.Accepts call.n)
    (idle : call.n ≤ 0 ∨ call.scalar = 0) (a : Mem T) : call.cblas layout tuning float rt site store a = a := by
  have passed : (call.passed layout).n ≤ 0 ∨ (call.passed layout).scalar = 0 := idle
  rw [cblas_passes layout tuning float rt site size regular accepts, call_run_idle tuning float rt site passed]

end Exact

end Updates

section RankOne

variable [LawfulScalar T]

theorem rank_update_accepted (m n incx incy lda : Int) (rows : 0 ≤ m) (columns : 0 ≤ n) (stepx : incx ≠ 0) (stepy : incy ≠ 0)
    (wide : max1 m ≤ lda) : rankUpdateError m n incx incy lda = 0 := by
  simp only [rankUpdateError, if_neg rows.not_gt, if_neg columns.not_gt, if_neg stepx, if_neg stepy, if_neg wide.not_gt]

theorem Cblas.row_major_ger_updates (m n : Int) (alpha : T) (x : Mem T) (incx : Int) (y : Mem T) (incy : Int) (lda : Int)
    (conjY : Bool) (stepx : incx ≠ 0) (stepy : incy ≠ 0) (wide : max1 n ≤ lda) :
    Updates (matrixCells (toUsize m) (toUsize n)) (Layout.rowMajor.address lda) (outerValue m n alpha x incx y incy conjY)
      (fun a => rowMajorGer m n alpha x incx y incy a lda conjY) := by
  refine updates_guard _ (fun idle => ?_) (fun _ => ?_)
  · refine (updates_same _ _).congr rfl (fun cell old member => outer_idle m n alpha x incx y incy conjY ?_ cell old member)
    rcases idle with rows | columns | narrow | still | still | nothing
    · exact .inl rows
    · exact .inr (.inl columns)
    · exact absurd narrow wide.not_gt
    · exact absurd still stepx
    · exact absurd still stepy
    · exact .inr (.inr nothing)
  · have fits : toUsize n ≤ toUsize lda := by
      simp only [toUsize, max1] at wide ⊢
      omega
    have grid := updates_grid (toUsize n) (toUsize m) (cellAddress lda)
      (fun cell (old : T) => old + alpha * vectorGet x (startIndex m incx) cell.2 incx *
        conjugateIf (vectorGet y (startIndex n incy) cell.1 incy) conjY)
      ((cell_address_injective lda (toUsize n) fits).mono (fun _ member => member.1))
    refine (Updates.turned grid (fun i j => and_comm) (fun i j _ old => by rw [outerValue, mul_assoc])).congr_run (fun a => ?_)
    -- A row whose element of x is zero is left alone, and adding zero would leave it alone as well.
    refine loop_congr _ _ _ a (fun row current _ => ?_)
    simp only
    split
    next nothing =>
      refine (loop_fixed _ _ current (fun col _ => ?_)).symm
      rw [(LawfulScalar.isZero_iff _).mp nothing, mul_zero, zero_mul, add_zero, Function.update_eq_self]
    next =>
      refine loop_congr _ _ _ current (fun col state _ => ?_)
      simp only [cellAddress, matIndex, Nat.add_comm (row * _)]

theorem Cblas.ger_layout_updates (leaves : ExactGerLeaves T) (layout : Layout) (m n : Int) (alpha : T) (x : Mem T) (incx : Int)
    (y : Mem T) (incy : Int) (lda : Int) (conjY : Bool) (rows : 0 ≤ m) (columns : 0 ≤ n) (stepx : incx ≠ 0) (stepy : incy ≠ 0)
    (wide : layout.leading m n ≤ lda) :
    Updates (matrixCells (toUsize m) (toUsize n)) (layout.address lda) (outerValue m n alpha x incx y incy conjY)
      (fun a => Cblas.ger leaves.toGerLeaves layout.code m n alpha x incx y incy a lda conjY) := by
  cases layout with
  | rowMajor => exact Cblas.row_major_ger_updates m n alpha x incx y incy lda conjY stepx stepy wide
  | colMajor =>
    have accepted := rank_update_accepted m n incx incy lda rows columns stepx stepy wide
    have fits : toUsize m ≤ toUsize lda := by
      have tall : max1 m ≤ lda := wide
      simp only [toUsize, max1] at tall ⊢
      omega
    refine (ger_updates leaves m n alpha x incx y incy lda conjY stepx stepy fits).congr_run (fun a => ?_)
    exact if_neg (Fortran.report_accepted accepted)

end RankOne

end Zynum
