import Zynum.Abi.CblasLayout
import Zynum.MatrixVector.TriangularInverse

set_option autoImplicit false

/- The triangular vector routines through CBLAS: over dense, packed and band storage in
   either layout they multiply by, and solve with, the triangle the caller means. -/
namespace Zynum

open ArrayProgram

section Turning

variable {T : Type} [CommRing T] [Scalar T] [LawfulScalar T]

theorem turned_triangle (uplo : Triangle) (mode : TransposeMode) (diag : Diagonal)
    (plain : mode = .conjTrans → Scalar.isComplex T = false) (entry : Nat → Nat → T) (d p : Nat) :
    triangle (flipped uplo) diag (Layout.rowMajor.turned mode) entry d p = triangle uplo diag mode (fun i j => entry j i) d p := by
  have diagonal : (p = d) = (d = p) := propext eq_comm
  have above := stored_flipped uplo d p
  have below := stored_flipped uplo p d
  cases mode with
  | noTrans => simp only [triangle, Layout.turned, if_true, reduceCtorEq, if_false, diagonal, above]
  | trans => simp only [triangle, Layout.turned, if_true, reduceCtorEq, if_false, diagonal, below]
  | conjTrans =>
    simp only [triangle, Layout.turned, if_true, reduceCtorEq, if_false, diagonal, below, LawfulScalar.conj_real (plain rfl)]

end Turning

namespace Cblas

section Leaves

variable {T : Type} [CommRing T] [Scalar T]

theorem conj_tri_value (uplo : Triangle) (diag : Diagonal) (a : Mem T) (lda : Int) :
    rowMajorConjTriValue (cblasUplo uplo) (cblasDiagOf diag) a lda = triangle uplo diag .conjTrans (Layout.rowMajor.entry a lda) := by
  funext row col
  have place : a (col * toUsize lda + row) = Layout.rowMajor.entry a lda col row := by
    rw [Layout.entry, Layout.address, matIndex, Nat.add_comm]
  have unit : (cblasDiagOf diag = cblasUnit) = (diag = .unit) := by cases diag <;> decide
  have sides : (cblasUplo uplo = cblasUpper ∧ col > row) = (uplo = .upper ∧ col > row) ∧
      (cblasUplo uplo = cblasLower ∧ col < row) = (uplo = .lower ∧ col < row) := by
    cases uplo <;> simp [cblasUplo, cblasUpper, cblasLower]
  have diagonal : (row = col) = (col = row) := propext eq_comm
  simp only [rowMajorConjTriValue, triangle, unit, sides, place, reduceCtorEq, if_false, if_true, diagonal]
  cases uplo <;> simp only [stored, reduceCtorEq, true_and, false_and, if_false, decide_eq_true_eq, gt_iff_lt, ge_iff_le,
    ← Nat.not_le, ite_not]

variable [LawfulScalar T]

theorem conj_slot_value (uplo : Triangle) (diag : Diagonal) (index : Nat → Nat → Option Nat) (a : Mem T)
    (outside : ∀ i j, stored uplo i j = false → index i j = none) (row col : Nat) :
    (if row = col ∧ cblasDiagOf diag = cblasUnit then 1
      else match index col row with
        | none => 0
        | some idx => conj (a idx)) = triangle uplo diag .conjTrans (compactEntry index a) row col := by
  have unit : (cblasDiagOf diag = cblasUnit) = (diag = .unit) := by cases diag <;> decide
  have diagonal : (row = col) = (col = row) := propext eq_comm
  simp only [triangle, unit, diagonal, reduceCtorEq, if_false, if_true, compactEntry]
  split
  · rfl
  · cases inside : stored uplo col row with
    | false => rw [outside col row inside, if_neg Bool.false_ne_true]
    | true =>
      rw [if_pos rfl]
      cases index col row with
      | none => exact conj_zero.symm
      | some idx => rfl

theorem row_band_outside (uplo : Triangle) (k : Nat) (lda : Int) (i j : Nat) (missing : stored uplo i j = false) :
    rowMajorTriBandIndex (cblasUplo uplo) k lda i j = none := by
  rw [row_major_band]
  exact band_index_outside (flipped uplo) k lda j i ((stored_flipped uplo i j).trans missing)

theorem row_packed_outside (uplo : Triangle) (n i j : Nat) (missing : stored uplo i j = false) :
    rowMajorTriPackedIndex (cblasUplo uplo) n i j = none := by
  cases uplo with
  | upper =>
    have below : ¬ i ≤ j := of_decide_eq_false missing
    simp only [rowMajorTriPackedIndex, cblasUplo, if_true, if_pos (Nat.lt_of_not_le below)]
  | lower =>
    have above : ¬ i ≥ j := of_decide_eq_false missing
    simp only [rowMajorTriPackedIndex, cblasUplo, cblasUpper, cblasLower, Int.reduceEq, if_false, if_pos (Nat.lt_of_not_le above)]

theorem conj_tri_band_value (uplo : Triangle) (diag : Diagonal) (k : Nat) (a : Mem T) (lda : Int) :
    rowMajorConjTriBandValue (cblasUplo uplo) (cblasDiagOf diag) k a lda =
      triangle uplo diag .conjTrans (Layout.rowMajor.triBandEntry uplo k a lda) := by
  funext row col
  exact conj_slot_value uplo diag _ a (row_band_outside uplo k lda) row col

theorem conj_tri_packed_value (uplo : Triangle) (diag : Diagonal) (n : Nat) (ap : Mem T) :
    rowMajorConjTriPackedValue (cblasUplo uplo) (cblasDiagOf diag) n ap =
      triangle uplo diag .conjTrans (Layout.rowMajor.triPackedEntry uplo n ap) := by
  funext row col
  exact conj_slot_value uplo diag _ ap (row_packed_outside uplo n) row col

section Sweeps

variable (M : Nat → Nat → T) (uplo : Triangle) (n_ incx : Int)

theorem conj_op_upper : rowMajorConjTransOpUpper (cblasUplo uplo) = opIsUpper uplo .conjTrans := by
  cases uplo <;> rfl

omit [Scalar T] [LawfulScalar T] in
theorem conj_multiply_product (nonzero : incx ≠ 0)
    (shape : TriangularTo (rowMajorConjTransOpUpper (cblasUplo uplo)) (toUsize n_) M) :
    Meets (Product (Finset.range (toUsize n_)) {0} (strideAddress n_ incx) M 1)
      (fun x => rowMajorConjMultiply M (cblasUplo uplo) n_ x incx) := by
  have injective := stride_address_injective n_ incx nonzero
  refine (multiply_rows M _ shape (strideAddress n_ incx) injective).congr_run (fun x => ?_)
  cases upper : rowMajorConjTransOpUpper (cblasUplo uplo) with
  | true =>
    rw [upper] at shape
    rw [rowMajorConjMultiply, upper, if_pos rfl]
    refine loop_congr _ _ _ x (fun i current below => ?_)
    simp only [loop_range_accumulate, zero_add]
    refine congrArg (Function.update current _) ?_
    refine Finset.sum_subset (fun p member => Finset.mem_range.mpr (Finset.mem_Ico.mp member).2) (fun p member skipped => ?_)
    have inside := Finset.mem_range.mp member
    rw [shape i p below inside (by rw [if_pos rfl]; by_contra after; exact skipped (Finset.mem_Ico.mpr ⟨by omega, inside⟩)), zero_mul]
  | false =>
    rw [upper] at shape
    rw [rowMajorConjMultiply, upper, if_neg Bool.false_ne_true]
    refine loop_congr _ _ _ x (fun step current below => ?_)
    simp only [loop_range_accumulate, zero_add]
    refine congrArg (Function.update current _) ?_
    refine Finset.sum_subset (fun p member => Finset.mem_range.mpr (by have := (Finset.mem_Ico.mp member).2; omega))
      (fun p member skipped => ?_)
    have inside := Finset.mem_range.mp member
    have after : toUsize n_ - 1 - step < p := by
      by_contra before
      exact skipped (Finset.mem_Ico.mpr ⟨Nat.zero_le p, by omega⟩)
    have zero : M (sweep false (toUsize n_) step) p = 0 := shape _ p (sweep_inside false _ step below) inside after
    change M (sweep false (toUsize n_) step) p * _ = 0
    rw [zero, zero_mul]

omit [LawfulScalar T] in
theorem conj_multiplied (diag : Diagonal) (entry : Nat → Nat → T) (nonzero : incx ≠ 0) :
    Meets (Product (Finset.range (toUsize n_)) {0} (strideAddress n_ incx) (triangle uplo diag .conjTrans entry) 1)
      (fun x => rowMajorConjMultiply (triangle uplo diag .conjTrans entry) (cblasUplo uplo) n_ x incx) := by
  refine conj_multiply_product _ uplo n_ incx nonzero ?_
  rw [conj_op_upper]
  exact triangle_to uplo diag .conjTrans entry _

variable [Div T]

omit [Scalar T] [LawfulScalar T] in
theorem conj_solve_rows (diag : Diagonal) (x : Mem T) :
    rowMajorConjSolve M (cblasUplo uplo) (cblasDiagOf diag) n_ x incx =
      solveRows (rowMajorConjTransOpUpper (cblasUplo uplo)) diag M n_ x incx := by
  have kind : (cblasDiagOf diag ≠ cblasUnit) = (diag = .nonUnit) := by cases diag <;> decide
  simp only [rowMajorConjSolve, solveRows, solveRow, kind]

omit [LawfulScalar T] in
theorem conj_solved [ExactDivision T] (diag : Diagonal) (entry : Nat → Nat → T) (nonzero : incx ≠ 0)
    (regular : Regular diag (toUsize n_) (triangle uplo diag .conjTrans entry)) :
    Meets (Solution (Finset.range (toUsize n_)) {0} (strideAddress n_ incx) (triangle uplo diag .conjTrans entry) 1)
      (fun x => rowMajorConjSolve (triangle uplo diag .conjTrans entry) (cblasUplo uplo) (cblasDiagOf diag) n_ x incx) := by
  have shape := triangle_to uplo diag .conjTrans entry (toUsize n_)
  rw [← conj_op_upper] at shape
  refine (solve_rows_solution _ _ n_ incx nonzero shape regular).congr_run (fun x => ?_)
  exact conj_solve_rows _ uplo n_ incx diag x

end Sweeps

end Leaves

section Wrappers

variable {T : Type} [CommRing T] [Scalar T]

omit [CommRing T] in
theorem triangular_vector_meets {post : Mem T → Mem T → Prop} (leaf : Int → Int → Mem T → Mem T)
    (export_ : Char → Char → Char → Mem T → Mem T) (layout : Layout) (uplo : Triangle) (mode : TransposeMode) (diag : Diagonal)
    (conjugated : layout = .rowMajor → mode = .conjTrans → Meets post (leaf (cblasUplo uplo) (cblasDiagOf diag)))
    (turned : (layout = .rowMajor → mode = .conjTrans → Scalar.isComplex T = false) → ∀ uu tt dd, Zynum.validUplo uu = true →
      Zynum.validTrans tt = true → Zynum.validDiag dd = true → parseUplo uu = layout.triangle uplo →
      parseTrans tt = layout.turned mode → parseDiag dd = diag → Meets post (export_ uu tt dd)) :
    Meets post (triangularVector leaf export_ layout.code (cblasUplo uplo) (cblasTransOf mode) (cblasDiagOf diag)) := by
  intro x
  simp only [triangularVector, valid_layout, Bool.not_true, Bool.false_eq_true, if_false]
  cases kind : conjLeaf T layout.code (cblasTransOf mode) with
  | true =>
    obtain ⟨_, rows, conj⟩ := (conj_leaf_iff layout mode).mp kind
    rw [if_pos rfl]
    exact conjugated rows conj x
  | false =>
    obtain ⟨valid, parsed, _⟩ := turned_passed layout mode
    rw [if_neg Bool.false_ne_true, trans_for_turned layout mode T kind]
    refine turned (fun rows => ?_) _ _ _ (uplo_passed layout uplo).1 valid (diag_passed diag).1 (uplo_passed layout uplo).2 parsed
      (diag_passed diag).2 x
    subst rows
    exact leaf_plain mode kind

end Wrappers

end Cblas

section Stores

variable {T : Type}

inductive TriangularStore (T : Type) where
  | dense (a : Mem T) (lda : Int)
  | packed (ap : Mem T)
  | band (k : Int) (a : Mem T) (lda : Int)

def TriangularStore.Fits (store : TriangularStore T) (n : Int) : Prop :=
  match store with
  | .dense _ lda => max1 n ≤ lda
  | .packed _ => True
  | .band k _ lda => 0 ≤ k ∧ k + 1 ≤ lda

def TriangularStore.entry [Zero T] (store : TriangularStore T) (layout : Layout) (uplo : Triangle) (n : Nat) : Nat → Nat → T :=
  match store with
  | .dense a lda => layout.entry a lda
  | .packed ap => layout.triPackedEntry uplo n ap
  | .band k a lda => layout.triBandEntry uplo (toUsize k) a lda

variable [CommRing T] [Scalar T]

def TriangularStore.multiply (store : TriangularStore T) (env : CompactEnv) (rt : Runtime) (site : Site)
    (layout uplo trans diag n : Int) (incx : Int) (x : Mem T) : Mem T :=
  match store with
  | .dense a lda => Cblas.trmv env rt site layout uplo trans diag n a lda x incx
  | .packed ap => Cblas.tpmv env rt layout uplo trans diag n ap x incx
  | .band k a lda => Cblas.tbmv env layout uplo trans diag n k a lda x incx

def TriangularStore.solve [Div T] (store : TriangularStore T) (env : CompactEnv) (rt : Runtime) (site : Site)
    (layout uplo trans diag n : Int) (incx : Int) (x : Mem T) : Mem T :=
  match store with
  | .dense a lda => Cblas.trsv env rt site layout uplo trans diag n a lda x incx
  | .packed ap => Cblas.tpsv env rt layout uplo trans diag n ap x incx
  | .band k a lda => Cblas.tbsv env rt layout uplo trans diag n k a lda x incx

omit [Scalar T] in
theorem TriangularStore.row_entry (store : TriangularStore T) (uplo : Triangle) (n : Nat) :
    SameMatrix n n (store.entry .rowMajor uplo n) (fun i j => store.entry .colMajor (flipped uplo) n j i) := by
  intro i j inRows inColumns
  cases store with
  | dense a lda => rfl
  | packed ap => exact row_packed_entry uplo n ap i j inRows inColumns
  | band k a lda => exact row_band_entry uplo (toUsize k) a lda i j

variable [LawfulScalar T]

theorem TriangularStore.passed (store : TriangularStore T) (layout : Layout) (uplo : Triangle) (mode : TransposeMode)
    (diag : Diagonal) (plain : layout = .rowMajor → mode = .conjTrans → Scalar.isComplex T = false) (n : Nat) :
    SameMatrix n n (triangle (layout.triangle uplo) diag (layout.turned mode) (store.entry .colMajor (layout.triangle uplo) n))
      (triangle uplo diag mode (store.entry layout uplo n)) := by
  intro d p inRow inColumn
  cases layout with
  | colMajor => rfl
  | rowMajor =>
    refine (turned_triangle uplo mode diag (plain rfl) _ d p).trans (triangle_congr uplo diag mode _ _ d p (fun i j place _ _ => ?_))
    rcases place with ⟨rfl, rfl⟩ | ⟨rfl, rfl⟩
    · exact (store.row_entry uplo n _ _ inRow inColumn).symm
    · exact (store.row_entry uplo n _ _ inColumn inRow).symm

theorem triangular_vector_accepted (uu tt dd : Char) (n lda incx : Int) (triangles : validUplo uu = true)
    (transposes : validTrans tt = true) (diagonals : validDiag dd = true) (size : 0 ≤ n) (wide : max1 n ≤ lda) (nonzero : incx ≠ 0) :
    Fortran.triangularVectorError uu tt dd n lda incx = 0 := by
  simp only [Fortran.triangularVectorError, triangles, transposes, diagonals, Bool.not_true, Bool.false_eq_true, if_false]
  split_ifs <;> omega

theorem band_triangular_vector_accepted (uu tt dd : Char) (n k lda incx : Int) (triangles : validUplo uu = true)
    (transposes : validTrans tt = true) (diagonals : validDiag dd = true) (size : 0 ≤ n) (some : 0 ≤ k) (wide : k + 1 ≤ lda)
    (nonzero : incx ≠ 0) : Fortran.bandTriangularVectorError uu tt dd n k lda incx = 0 := by
  simp only [Fortran.bandTriangularVectorError, triangles, transposes, diagonals, Bool.not_true, Bool.false_eq_true, if_false]
  split_ifs <;> omega

theorem packed_triangular_vector_accepted (uu tt dd : Char) (n incx : Int) (triangles : validUplo uu = true)
    (transposes : validTrans tt = true) (diagonals : validDiag dd = true) (size : 0 ≤ n) (nonzero : incx ≠ 0) :
    Fortran.packedTriangularVectorError uu tt dd n incx = 0 := by
  simp only [Fortran.packedTriangularVectorError, triangles, transposes, diagonals, Bool.not_true, Bool.false_eq_true, if_false]
  split_ifs <;> omega

section Routines

variable (store : TriangularStore T) (env : CompactEnv) (rt : Runtime) (site : Site) (layout : Layout) (uplo : Triangle)
  (mode : TransposeMode) (diag : Diagonal) (n incx : Int)

-- A wrapper meets a condition on the matrix its caller means, if its loops do with that
-- matrix and its export with the matrix it is handed.
theorem TriangularStore.wrapper_meets (post : (Nat → Nat → T) → Mem T → Mem T → Prop) (leaf : Int → Int → Mem T → Mem T)
    (export_ : Char → Char → Char → Mem T → Mem T)
    (moves : ∀ M M' run, SameMatrix (toUsize n) (toUsize n) M M' → Meets (post M) run → Meets (post M') run)
    (conjugated : layout = .rowMajor → mode = .conjTrans →
      Meets (post (triangle uplo diag .conjTrans (store.entry .rowMajor uplo (toUsize n))))
      (leaf (cblasUplo uplo) (cblasDiagOf diag)))
    (turned : ∀ uu tt dd, validUplo uu = true → validTrans tt = true → validDiag dd = true →
      let exported := triangle (parseUplo uu) (parseDiag dd) (parseTrans tt) (store.entry .colMajor (parseUplo uu) (toUsize n))
      SameMatrix (toUsize n) (toUsize n) exported (triangle uplo diag mode (store.entry layout uplo (toUsize n))) →
      parseDiag dd = diag →
      Meets (post exported) (export_ uu tt dd)) :
    Meets (post (triangle uplo diag mode (store.entry layout uplo (toUsize n))))
      (Cblas.triangularVector leaf export_ layout.code (cblasUplo uplo) (cblasTransOf mode) (cblasDiagOf diag)) := by
  refine Cblas.triangular_vector_meets leaf export_ layout uplo mode diag (fun rows conj => ?_)
    (fun plain uu tt dd triangles transposes diagonals sameTriangle sameMode sameDiag => ?_)
  · subst rows conj
    exact conjugated rfl rfl
  · have same := store.passed layout uplo mode diag plain (toUsize n)
    rw [← sameTriangle, ← sameMode] at same
    have parsed : triangle (parseUplo uu) (parseDiag dd) (parseTrans tt) (store.entry .colMajor (parseUplo uu) (toUsize n)) =
        triangle (parseUplo uu) diag (parseTrans tt) (store.entry .colMajor (parseUplo uu) (toUsize n)) := by rw [sameDiag]
    rw [← parsed] at same
    exact moves _ _ _ same (turned uu tt dd triangles transposes diagonals same sameDiag)

theorem TriangularStore.multiplies (size : 0 ≤ n) (fits : store.Fits n) (nonzero : incx ≠ 0) :
    Meets (Product (Finset.range (toUsize n)) {0} (strideAddress n incx)
        (triangle uplo diag mode (store.entry layout uplo (toUsize n))) 1)
      (store.multiply env rt site layout.code (cblasUplo uplo) (cblasTransOf mode) (cblasDiagOf diag) n incx) := by
  have idle : toUsize n = 0 → ∀ M, Meets (Product (Finset.range (toUsize n)) {0} (strideAddress n incx) M 1) (fun x : Mem T => x) :=
    fun none M => product_idle _ none _ M
  have moves : ∀ (M M' : Nat → Nat → T) run, SameMatrix (toUsize n) (toUsize n) M M' →
      Meets (Product (Finset.range (toUsize n)) {0} (strideAddress n incx) M 1) run →
      Meets (Product (Finset.range (toUsize n)) {0} (strideAddress n incx) M' 1) run := fun M M' run same product =>
    product.product_congr (fun d p inRow inColumn => same d p (Finset.mem_range.mp inRow) (Finset.mem_range.mp inColumn))
  have codes := Cblas.valid_codes uplo mode diag .left
  cases store with
  | dense a lda =>
    have wide : max1 n ≤ lda := fits
    refine (TriangularStore.wrapper_meets (.dense a lda) layout uplo mode diag n
      (fun M => Product (Finset.range (toUsize n)) {0} (strideAddress n incx) M 1)
      (fun uplo diag x => Cblas.rowMajorConjTrmv uplo diag n a lda x incx)
      (fun uu tt dd x => Fortran.trmv env rt site uu tt dd n a lda x incx) moves ?_ ?_).congr_run (fun _ => rfl)
    · intro _ _
      refine meets_guard _ (fun none => idle (by
        simp only [codes, toUsize, Bool.not_true, Bool.false_eq_true, false_or] at none ⊢
        omega) _) (fun _ => ?_)
      rw [Cblas.conj_tri_value]
      exact Cblas.conj_multiplied uplo n incx diag _ nonzero
    · intro uu tt dd triangles transposes diagonals exported _ _
      have accepted := triangular_vector_accepted uu tt dd n lda incx triangles transposes diagonals size wide nonzero
      refine meets_guard _ (fun rejected => absurd rejected (Fortran.report_accepted accepted)) (fun _ => ?_)
      have product := trmv_product env.toVectorEnv rt site (parseUplo uu) (parseTrans tt) (parseDiag dd) n a lda incx nonzero
      rwa [tri_value_triangle] at product
  | packed ap =>
    refine (TriangularStore.wrapper_meets (.packed ap) layout uplo mode diag n
      (fun M => Product (Finset.range (toUsize n)) {0} (strideAddress n incx) M 1)
      (fun uplo diag x => Cblas.rowMajorConjTpmv uplo diag n ap x incx)
      (fun uu tt dd x => Fortran.tpmv env rt uu tt dd n ap x incx) moves ?_ ?_).congr_run (fun _ => rfl)
    · intro _ _
      refine meets_guard _ (fun none => idle (by
        simp only [codes, toUsize, Bool.not_true, Bool.false_eq_true, false_or] at none ⊢
        omega) _) (fun _ => ?_)
      rw [Cblas.conj_tri_packed_value]
      exact Cblas.conj_multiplied uplo n incx diag _ nonzero
    · intro uu tt dd triangles transposes diagonals exported _ _
      have accepted := packed_triangular_vector_accepted uu tt dd n incx triangles transposes diagonals size nonzero
      refine meets_guard _ (fun rejected => absurd rejected (Fortran.report_accepted accepted)) (fun _ => ?_)
      exact tpmv_product env rt n incx ap nonzero
  | band k a lda =>
    obtain ⟨some, wide⟩ := fits
    refine (TriangularStore.wrapper_meets (.band k a lda) layout uplo mode diag n
      (fun M => Product (Finset.range (toUsize n)) {0} (strideAddress n incx) M 1)
      (fun uplo diag x => Cblas.rowMajorConjTbmv uplo diag n k a lda x incx)
      (fun uu tt dd x => Fortran.tbmv env uu tt dd n k a lda x incx) moves ?_ ?_).congr_run (fun _ => rfl)
    · intro _ _
      refine meets_guard _ (fun none => idle (by
        simp only [codes, toUsize, Bool.not_true, Bool.false_eq_true, false_or] at none ⊢
        omega) _) (fun _ => ?_)
      rw [Cblas.conj_tri_band_value]
      exact Cblas.conj_multiplied uplo n incx diag _ nonzero
    · intro uu tt dd triangles transposes diagonals exported _ _
      have accepted := band_triangular_vector_accepted uu tt dd n k lda incx triangles transposes diagonals size some wide nonzero
      refine meets_guard _ (fun rejected => absurd rejected (Fortran.report_accepted accepted)) (fun _ => ?_)
      exact tbmv_product env n incx k a lda some wide nonzero

variable [Div T] [ExactDivision T]

theorem TriangularStore.solves (size : 0 ≤ n) (fits : store.Fits n) (nonzero : incx ≠ 0)
    (regular : Regular diag (toUsize n) (triangle uplo diag mode (store.entry layout uplo (toUsize n)))) :
    Meets (Solution (Finset.range (toUsize n)) {0} (strideAddress n incx)
        (triangle uplo diag mode (store.entry layout uplo (toUsize n))) 1)
      (store.solve env rt site layout.code (cblasUplo uplo) (cblasTransOf mode) (cblasDiagOf diag) n incx) := by
  have idle : toUsize n = 0 → ∀ M, Meets (Solution (Finset.range (toUsize n)) {0} (strideAddress n incx) M 1) (fun x : Mem T => x) :=
    fun none M => solution_idle _ none _ M
  have moves : ∀ (M M' : Nat → Nat → T) run, SameMatrix (toUsize n) (toUsize n) M M' →
      Meets (Solution (Finset.range (toUsize n)) {0} (strideAddress n incx) M 1) run →
      Meets (Solution (Finset.range (toUsize n)) {0} (strideAddress n incx) M' 1) run := fun M M' run same solution =>
    solution.solution_congr (fun d p inRow inColumn => same d p (Finset.mem_range.mp inRow) (Finset.mem_range.mp inColumn))
  have ready : ∀ {M : Nat → Nat → T} {diag' : Diagonal}, SameMatrix (toUsize n) (toUsize n) M
      (triangle uplo diag mode (store.entry layout uplo (toUsize n))) → diag' = diag → Regular diag' (toUsize n) M := by
    intro M diag' same sameDiag
    subst sameDiag
    exact ⟨fun kind d inside => by rw [same d d inside inside]; exact regular.nonzero kind d inside,
      fun kind d inside => by rw [same d d inside inside]; exact regular.one kind d inside⟩
  have codes := Cblas.valid_codes uplo mode diag .left
  cases store with
  | dense a lda =>
    have wide : max1 n ≤ lda := fits
    refine (TriangularStore.wrapper_meets (.dense a lda) layout uplo mode diag n
      (fun M => Solution (Finset.range (toUsize n)) {0} (strideAddress n incx) M 1)
      (fun uplo diag x => Cblas.rowMajorConjTrsv uplo diag n a lda x incx)
      (fun uu tt dd x => Fortran.trsv env rt site uu tt dd n a lda x incx) moves ?_ ?_).congr_run (fun _ => rfl)
    · intro rows conjugated
      subst rows conjugated
      refine meets_guard _ (fun none => idle (by
        simp only [codes, toUsize, Bool.not_true, Bool.false_eq_true, false_or] at none ⊢
        omega) _) (fun _ => ?_)
      rw [Cblas.conj_tri_value]
      exact Cblas.conj_solved uplo n incx diag _ nonzero regular
    · intro uu tt dd triangles transposes diagonals exported same sameDiag
      have accepted := triangular_vector_accepted uu tt dd n lda incx triangles transposes diagonals size wide nonzero
      refine meets_guard _ (fun rejected => absurd rejected (Fortran.report_accepted accepted)) (fun _ => ?_)
      have solution : Regular (parseDiag dd) (toUsize n) (triValue (parseUplo uu) (parseDiag dd) (parseTrans tt) a lda) → _ :=
        trsv_solution env.toVectorEnv rt site n lda incx nonzero
      rw [tri_value_triangle] at solution
      exact solution (ready same sameDiag)
  | packed ap =>
    refine (TriangularStore.wrapper_meets (.packed ap) layout uplo mode diag n
      (fun M => Solution (Finset.range (toUsize n)) {0} (strideAddress n incx) M 1)
      (fun uplo diag x => Cblas.rowMajorConjTpsv uplo diag n ap x incx)
      (fun uu tt dd x => Fortran.tpsv env rt uu tt dd n ap x incx) moves ?_ ?_).congr_run (fun _ => rfl)
    · intro rows conjugated
      subst rows conjugated
      refine meets_guard _ (fun none => idle (by
        simp only [codes, toUsize, Bool.not_true, Bool.false_eq_true, false_or] at none ⊢
        omega) _) (fun _ => ?_)
      rw [Cblas.conj_tri_packed_value]
      exact Cblas.conj_solved uplo n incx diag _ nonzero regular
    · intro uu tt dd triangles transposes diagonals exported same sameDiag
      have accepted := packed_triangular_vector_accepted uu tt dd n incx triangles transposes diagonals size nonzero
      refine meets_guard _ (fun rejected => absurd rejected (Fortran.report_accepted accepted)) (fun _ => ?_)
      exact tpsv_solution env rt n incx ap nonzero (ready same sameDiag)
  | band k a lda =>
    obtain ⟨some, wide⟩ := fits
    refine (TriangularStore.wrapper_meets (.band k a lda) layout uplo mode diag n
      (fun M => Solution (Finset.range (toUsize n)) {0} (strideAddress n incx) M 1)
      (fun uplo diag x => Cblas.rowMajorConjTbsv uplo diag n k a lda x incx)
      (fun uu tt dd x => Fortran.tbsv env rt uu tt dd n k a lda x incx) moves ?_ ?_).congr_run (fun _ => rfl)
    · intro rows conjugated
      subst rows conjugated
      refine meets_guard _ (fun none => idle (by
        simp only [codes, toUsize, Bool.not_true, Bool.false_eq_true, false_or] at none ⊢
        omega) _) (fun _ => ?_)
      rw [Cblas.conj_tri_band_value]
      exact Cblas.conj_solved uplo n incx diag _ nonzero regular
    · intro uu tt dd triangles transposes diagonals exported same sameDiag
      have accepted := band_triangular_vector_accepted uu tt dd n k lda incx triangles transposes diagonals size some wide nonzero
      refine meets_guard _ (fun rejected => absurd rejected (Fortran.report_accepted accepted)) (fun _ => ?_)
      exact tbsv_solution env rt n incx k a lda some nonzero (ready same sameDiag)

end Routines

section Results

-- The vector x after a product, and after a solve, with M; the rest of its store is kept.
structure VectorMultiplied (M : Nat → Nat → T) (n incx : Int) (before after : Mem T) : Prop where
  entry : ∀ d, d < toUsize n → vectorGet after (startIndex n incx) d incx =
    ∑ p ∈ Finset.range (toUsize n), M d p * vectorGet before (startIndex n incx) p incx
  rest : ∀ location, (∀ d, d < toUsize n → ix (startIndex n incx) d incx ≠ location) → after location = before location

structure VectorSolved (M : Nat → Nat → T) (n incx : Int) (before after : Mem T) : Prop where
  equation : ∀ d, d < toUsize n → ∑ p ∈ Finset.range (toUsize n), M d p * vectorGet after (startIndex n incx) p incx =
    vectorGet before (startIndex n incx) d incx
  rest : ∀ location, (∀ d, d < toUsize n → ix (startIndex n incx) d incx ≠ location) → after location = before location

variable {M : Nat → Nat → T} {n incx : Int} {before after : Mem T}

omit [CommRing T] [Scalar T] [LawfulScalar T] in
theorem vector_rest {value : Nat × Nat → T → T}
    (wrote : Wrote (laneCells (Finset.range (toUsize n)) {0}) (strideAddress n incx) value before after) (location : Nat)
    (apart : ∀ d, d < toUsize n → ix (startIndex n incx) d incx ≠ location) : after location = before location :=
  wrote.kept location (fun cell member => apart cell.1 (Finset.mem_range.mp member.1))

omit [Scalar T] [LawfulScalar T] in
theorem vector_multiplied (product : Product (Finset.range (toUsize n)) {0} (strideAddress n incx) M 1 before after) :
    VectorMultiplied M n incx before after := by
  refine ⟨fun d inside => ?_, vector_rest product⟩
  have written := product.written (d, 0) ⟨Finset.mem_range.mpr inside, rfl⟩
  rw [one_mul] at written
  exact written

omit [Scalar T] [LawfulScalar T] in
theorem vector_solved (solvable : ∃ X, IsSolution (Finset.range (toUsize n)) {0} M X
    (fun d r => before (strideAddress n incx (d, r))))
    (solution : Solution (Finset.range (toUsize n)) {0} (strideAddress n incx) M 1 before after) :
    VectorSolved M n incx before after := by
  obtain ⟨X, equations⟩ := solvable
  have wrote := solution X (by simpa only [one_mul] using equations)
  refine ⟨fun d inside => ?_, vector_rest wrote⟩
  refine Eq.trans ?_ (equations d (Finset.mem_range.mpr inside) 0 rfl)
  exact Finset.sum_congr rfl (fun p member => congrArg (M d p * ·) (wrote.written (p, 0) ⟨member, rfl⟩))

omit [Scalar T] [LawfulScalar T] in
theorem vector_solved_unique (other : Mem T) (solution : Solution (Finset.range (toUsize n)) {0} (strideAddress n incx) M
    1 before after)
    (solved : VectorSolved M n incx before other) : other = after := by
  have wrote := solution (fun p _ => vectorGet other (startIndex n incx) p incx) (by
    intro d inside r lane
    subst lane
    exact (solved.equation d (Finset.mem_range.mp inside)).trans (one_mul _).symm)
  refine same_store (strideAddress n incx) (laneCells (Finset.range (toUsize n)) {0}) other after (fun cell member => ?_)
    (fun location apart => ?_)
  · exact (wrote.written cell member).symm
  · rw [wrote.kept location apart]
    exact solved.rest location (fun d inside => apart (d, 0) ⟨Finset.mem_range.mpr inside, rfl⟩)

end Results

section Layouts

variable (store store' : TriangularStore T) (env env' : CompactEnv) (rt rt' : Runtime) (site site' : Site)
  (layout layout' : Layout) (uplo : Triangle) (mode : TransposeMode) (diag : Diagonal) (n incx : Int)

theorem triangular_multiply_layouts (size : 0 ≤ n) (fits : store.Fits n) (nonzero : incx ≠ 0) :
    let run := store.multiply env rt site layout.code (cblasUplo uplo) (cblasTransOf mode) (cblasDiagOf diag) n incx
    let entry := store.entry layout uplo (toUsize n)
    (∀ x, VectorMultiplied (triangle uplo diag mode entry) n incx x (run x)) ∧
    (store'.Fits n → SameTriangle uplo diag n (store'.entry layout' uplo (toUsize n)) entry → ∀ x,
      store'.multiply env' rt' site' layout'.code (cblasUplo uplo) (cblasTransOf mode) (cblasDiagOf diag) n incx x = run x) := by
  intro run entry
  have product := store.multiplies env rt site layout uplo mode diag n incx size fits nonzero
  refine ⟨fun x => vector_multiplied (product x), fun fits' same x => ?_⟩
  have other := store'.multiplies env' rt' site' layout' uplo mode diag n incx size fits' nonzero
  exact same_product (other.product_congr same.triangle) product x

variable [Div T] [ExactDivision T]

theorem triangular_solve_layouts (size : 0 ≤ n) (fits : store.Fits n) (nonzero : incx ≠ 0)
    (diagonal : NonzeroDiagonal diag n (store.entry layout uplo (toUsize n))) :
    let run := store.solve env rt site layout.code (cblasUplo uplo) (cblasTransOf mode) (cblasDiagOf diag) n incx
    let entry := store.entry layout uplo (toUsize n)
    (∀ x, VectorSolved (triangle uplo diag mode entry) n incx x (run x) ∧
      ∀ after, VectorSolved (triangle uplo diag mode entry) n incx x after → after = run x) ∧
    (store'.Fits n → SameTriangle uplo diag n (store'.entry layout' uplo (toUsize n)) entry → ∀ x,
      let solve' := store'.solve env' rt' site' layout'.code (cblasUplo uplo) (cblasTransOf mode) (cblasDiagOf diag) n incx
      let multiply' := store'.multiply env' rt' site' layout'.code (cblasUplo uplo) (cblasTransOf mode) (cblasDiagOf diag) n incx
      solve' x = run x ∧ run (multiply' x) = x ∧ multiply' (run x) = x) := by
  intro run entry
  have regular : Regular diag (toUsize n) (triangle uplo diag mode entry) := diagonal.regular
  have solvable := triangle_solvable regular {0}
  have solution := store.solves env rt site layout uplo mode diag n incx size fits nonzero regular
  refine ⟨fun x => ⟨vector_solved (solvable _) (solution x), fun after solved => vector_solved_unique after (solution x) solved⟩,
    fun fits' same x => ?_⟩
  have moved : NonzeroDiagonal diag n (store'.entry layout' uplo (toUsize n)) := fun kind d inside => by
    rw [same d d inside inside (stored_diagonal uplo d) (fun unit => nomatch unit.symm.trans kind)]
    exact diagonal kind d inside
  have product := (store'.multiplies env' rt' site' layout' uplo mode diag n incx size fits' nonzero).product_congr same.triangle
  have other := (store'.solves env' rt' site' layout' uplo mode diag n incx size fits' nonzero
    moved.regular).solution_congr same.triangle
  exact ⟨same_solution other solution x (solvable _), solve_after_multiply product solution x,
    multiply_after_solve product solution x (solvable _)⟩

end Layouts

-- Row-major band storage against column-major packed storage of one upper bidiagonal matrix.
theorem triangular_multiply_layouts_small :
    let _ := realKind Rat .double
    let _ := real_kind_lawful Rat .double
    VectorMultiplied (triangle .upper .nonUnit .trans (Layout.rowMajor.triBandEntry .upper 1 (fun p => (p : Rat) + 1) 2)) 3 (-2)
      (fun p => (p : Rat)) ((TriangularStore.band 1 (fun p => (p : Rat) + 1) 2).multiply CompactEnv.production Runtime.sequential []
        cblasRowMajor cblasUpper cblasTrans cblasNonUnit 3 (-2) (fun p => (p : Rat))) := by
  intro kind lawful
  have whole := triangular_multiply_layouts (.band 1 (fun p => (p : Rat) + 1) 2) (.packed (fun p => (p : Rat))) CompactEnv.production
    CompactEnv.production Runtime.sequential Runtime.sequential [] [] .rowMajor .colMajor .upper .trans .nonUnit 3 (-2) (by decide)
    ⟨by decide, by decide⟩ (by decide)
  exact whole.1 _

theorem triangular_solve_layouts_small :
    let _ := realKind Rat .double
    let _ := real_kind_lawful Rat .double
    VectorSolved (triangle .lower .nonUnit .trans (Layout.rowMajor.entry (fun p => (p : Rat) + 1) 3)) 3 (-2)
      (fun p => (p : Rat)) ((TriangularStore.dense (fun p => (p : Rat) + 1) 3).solve CompactEnv.production Runtime.sequential []
        cblasRowMajor cblasLower cblasTrans cblasNonUnit 3 (-2) (fun p => (p : Rat))) := by
  intro kind lawful
  have whole := triangular_solve_layouts (.dense (fun p => (p : Rat) + 1) 3) (.packed (fun p => (p : Rat))) CompactEnv.production
    CompactEnv.production Runtime.sequential Runtime.sequential [] [] .rowMajor .colMajor .lower .trans .nonUnit 3 (-2) (by decide)
    (show max1 3 ≤ 3 by decide) (by decide) (fun _ d _ => ne_of_gt (Nat.cast_add_one_pos _))
  exact (whole.1 _).1

end Stores

end Zynum
