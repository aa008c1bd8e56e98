import Zynum.Abi.CblasMatrix

set_option autoImplicit false

/- trmm and trsm through CBLAS: in either layout they multiply by, and solve with, the
   triangle the caller means, and the two undo each other across layouts. -/
namespace Zynum

open ArrayProgram

variable {T : Type} [CommRing T] [Scalar T]

section Products

def sideProduct (side : OperandSide) (M : Nat → Nat → T) (m n : Nat) (B : Nat → Nat → T) (i j : Nat) : T :=
  match side with
  | .left => ∑ p ∈ Finset.range m, M i p * B p j
  | .right => ∑ p ∈ Finset.range n, B i p * M p j

omit [Scalar T] in
theorem side_product_congr {side : OperandSide} {M M' B B' : Nat → Nat → T} {m n : Nat}
    (sameM : SameMatrix (dimension side m n) (dimension side m n) M' M) (sameB : SameMatrix m n B' B) (i j : Nat) (inRows : i < m)
    (inColumns : j < n) : sideProduct side M' m n B' i j = sideProduct side M m n B i j := by
  cases side with
  | left =>
    exact Finset.sum_congr rfl (fun p member => by
      rw [sameM i p inRows (Finset.mem_range.mp member), sameB p j (Finset.mem_range.mp member) inColumns])
  | right =>
    exact Finset.sum_congr rfl (fun p member => by
      rw [sameB i p inRows (Finset.mem_range.mp member), sameM p j (Finset.mem_range.mp member) inColumns])

omit [Scalar T] in
theorem side_product_scale (side : OperandSide) (M B : Nat → Nat → T) (m n : Nat) (factor : T) (i j : Nat) :
    sideProduct side M m n (fun r s => factor * B r s) i j = factor * sideProduct side M m n B i j := by
  cases side with
  | left =>
    simp only [sideProduct, Finset.mul_sum]
    exact Finset.sum_congr rfl (fun p _ => mul_left_comm _ _ _)
  | right =>
    simp only [sideProduct, Finset.mul_sum]
    exact Finset.sum_congr rfl (fun p _ => mul_assoc _ _ _)

theorem triangle_flip (uplo : Triangle) (diag : Diagonal) (mode : TransposeMode) (entry : Nat → Nat → T) (i j : Nat) :
    triangle (flipped uplo) diag mode (fun r s => entry s r) i j = triangle uplo diag mode entry j i := by
  have diagonal : (i = j) = (j = i) := propext eq_comm
  cases mode <;> simp only [triangle, if_true, reduceCtorEq, if_false, stored_flipped, diagonal]

variable [Div T] [ExactDivision T]

-- A right-hand side has at most one solution: with the triangle on the right it is the
-- transposed system that is triangular.
theorem side_solution_unique (side : OperandSide) (uplo : Triangle) (diag : Diagonal) (mode : TransposeMode) (entry : Nat → Nat → T)
    (m n : Nat) (regular : Regular diag (dimension side m n) (triangle uplo diag mode entry)) (X Y : Nat → Nat → T)
    (same : ∀ i j, i < m → j < n → sideProduct side (triangle uplo diag mode entry) m n X i j =
      sideProduct side (triangle uplo diag mode entry) m n Y i j) : SameMatrix m n X Y := by
  intro i j inRows inColumns
  cases side with
  | left =>
    have units : ∀ d, d < m → IsUnit (triangle uplo diag mode entry d d) := regular.units
    exact triangular_solution_unique m _ (opIsUpper uplo mode) (triangle_to uplo diag mode entry m) units (Set.Iio n)
      (sideProduct .left (triangle uplo diag mode entry) m n Y) X Y
      (fun d place r lane => same d r (Finset.mem_range.mp place) lane) (fun d place r lane => rfl) i j inRows inColumns
  | right =>
    have turned : ∀ p d, triangle (flipped uplo) diag mode (fun r s => entry s r) d p = triangle uplo diag mode entry p d :=
      fun p d => triangle_flip uplo diag mode entry d p
    have units : ∀ d, d < n → IsUnit (triangle (flipped uplo) diag mode (fun r s => entry s r) d d) := fun d inside => by
      rw [turned]
      exact regular.units d inside
    have product : ∀ (Z : Nat → Nat → T) (d r : Nat), ∑ p ∈ Finset.range n,
        triangle (flipped uplo) diag mode (fun r s => entry s r) d p * Z r p = sideProduct .right
        (triangle uplo diag mode entry) m n Z r d := by
      intro Z d r
      exact Finset.sum_congr rfl (fun p _ => by rw [turned, mul_comm])
    exact triangular_solution_unique n _ (opIsUpper (flipped uplo) mode) (triangle_to (flipped uplo) diag mode _ n) units (Set.Iio m)
      (fun d r => sideProduct .right (triangle uplo diag mode entry) m n Y r d) (fun p r => X r p) (fun p r => Y r p)
      (fun d place r lane => (product X d r).trans (same r d lane (Finset.mem_range.mp place)))
      (fun d place r lane => product Y d r) j i
      inColumns inRows

end Products

section Results

-- B after a product, and after a solve, with M; the rest of its store is kept.
structure MatrixMultiplied (layout : Layout) (side : OperandSide) (M : Nat → Nat → T) (alpha : T) (m n : Nat) (ldb : Int)
    (before after : Mem T) : Prop where
  entry : ∀ i j, i < m → j < n → layout.entry after ldb i j = alpha * sideProduct side M m n (layout.entry before ldb) i j
  rest : ∀ location, (∀ i j, i < m → j < n → layout.address ldb (i, j) ≠ location) → after location = before location

structure MatrixSolved (layout : Layout) (side : OperandSide) (M : Nat → Nat → T) (alpha : T) (m n : Nat) (ldb : Int)
    (before after : Mem T) : Prop where
  equation : ∀ i j, i < m → j < n → sideProduct side M m n (layout.entry after ldb) i j = alpha * layout.entry before ldb i j
  rest : ∀ location, (∀ i j, i < m → j < n → layout.address ldb (i, j) ≠ location) → after location = before location

-- The call that the export gets.
def Layout.triangularCall (layout : Layout) (side : OperandSide) (uplo : Triangle) (mode : TransposeMode)
    (diag : Diagonal) (alpha : T)
    (a : Mem T) (lda ldb : Int) : TriangularCall T where
  side := layout.side side
  uplo := layout.triangle uplo
  mode := mode
  diag := diag
  alpha := alpha
  a := a
  lda := lda
  ldb := ldb

variable (layout : Layout) (side : OperandSide) (uplo : Triangle) (mode : TransposeMode) (diag : Diagonal) (alpha : T) (a : Mem T)
  (lda ldb : Int) (m n : Nat) (before after : Mem T)

theorem row_call_product (b : Mem T) (i j : Nat) :
    (Layout.rowMajor.triangularCall side uplo mode diag alpha a lda ldb).product n m b j i =
      sideProduct side (triangle uplo diag mode (Layout.rowMajor.entry a lda)) m n (Layout.rowMajor.entry b ldb) i j := by
  have turned : ∀ r s, triangle (flipped uplo) diag mode (denseEntry a lda) r s =
      triangle uplo diag mode (Layout.rowMajor.entry a lda) s r := fun r s =>
    triangle_flip uplo diag mode (Layout.rowMajor.entry a lda) r s
  cases side with
  | left =>
    exact Finset.sum_congr rfl (fun p _ => by
      change b (matIndex ldb j p) * triangle (flipped uplo) diag mode (denseEntry a lda) p i = _
      rw [turned, mul_comm]
      rfl)
  | right =>
    exact Finset.sum_congr rfl (fun p _ => by
      change triangle (flipped uplo) diag mode (denseEntry a lda) j p * b (matIndex ldb p i) = _
      rw [turned, mul_comm]
      rfl)

theorem multiplied_iff :
    Multiplies (layout.triangularCall side uplo mode diag alpha a lda ldb) (Cblas.pick layout.code n m) (Cblas.pick layout.code m n)
      before after ↔
      MatrixMultiplied layout side (triangle uplo diag mode (layout.entry a lda)) alpha m n ldb before after := by
  cases layout with
  | colMajor =>
    rw [Cblas.pick_col, Cblas.pick_col]
    cases side <;> exact ⟨fun multiplies => ⟨multiplies.entry, multiplies.rest⟩, fun multiplied =>
      ⟨multiplied.entry, multiplied.rest⟩⟩
  | rowMajor =>
    rw [Cblas.pick_row, Cblas.pick_row]
    constructor
    · intro multiplies
      refine ⟨fun i j inRows inColumns => ?_, fun location apart => multiplies.rest location (fun j i inColumns inRows =>
        apart i j inRows inColumns)⟩
      rw [← row_call_product side uplo mode diag alpha a lda ldb m n before i j]
      exact multiplies.entry j i inColumns inRows
    · intro multiplied
      refine ⟨fun j i inColumns inRows => ?_, fun location apart => multiplied.rest location (fun i j inRows inColumns =>
        apart j i inColumns inRows)⟩
      rw [row_call_product side uplo mode diag alpha a lda ldb m n before i j]
      exact multiplied.entry i j inRows inColumns

theorem solved_iff :
    Solves (layout.triangularCall side uplo mode diag alpha a lda ldb) (Cblas.pick layout.code n m) (Cblas.pick layout.code m n)
      before after ↔
      MatrixSolved layout side (triangle uplo diag mode (layout.entry a lda)) alpha m n ldb before after := by
  cases layout with
  | colMajor =>
    rw [Cblas.pick_col, Cblas.pick_col]
    cases side <;> exact ⟨fun solves => ⟨solves.equation, solves.rest⟩, fun solved => ⟨solved.equation, solved.rest⟩⟩
  | rowMajor =>
    rw [Cblas.pick_row, Cblas.pick_row]
    constructor
    · intro solves
      refine ⟨fun i j inRows inColumns => ?_, fun location apart => solves.rest location (fun j i inColumns inRows =>
        apart i j inRows inColumns)⟩
      rw [← row_call_product side uplo mode diag alpha a lda ldb m n after i j]
      exact solves.equation j i inColumns inRows
    · intro solved
      refine ⟨fun j i inColumns inRows => ?_, fun location apart => solved.rest location (fun i j inRows inColumns =>
        apart j i inColumns inRows)⟩
      rw [row_call_product side uplo mode diag alpha a lda ldb m n after i j]
      exact solved.equation i j inRows inColumns

end Results

namespace Cblas

section Routines

variable [LawfulScalar T] [Div T]

theorem triangular_matrix_accepted (side uplo trans diag : Char) (m n lda ldb : Int) (sides : Zynum.validSide side = true)
    (triangles : Zynum.validUplo uplo = true) (transposes : Zynum.validTrans trans = true) (diagonals : Zynum.validDiag diag = true)
    (rows : 0 ≤ m) (columns : 0 ≤ n) (widea : max1 (if fromChar side = 'L' then m else n) ≤ lda) (wideb : max1 m ≤ ldb) :
    triangularMatrixError side uplo trans diag m n lda ldb = 0 := by
  simp only [triangularMatrixError, sides, triangles, transposes, diagonals, Bool.not_true, Bool.false_eq_true, if_false,
    if_neg rows.not_gt, if_neg columns.not_gt, if_neg widea.not_gt, if_neg wideb.not_gt]

variable (env env' : TriangularEnv T) (rt rt' : Runtime) (site site' : Site) (layout layout' : Layout) (side : OperandSide)
  (uplo : Triangle) (mode : TransposeMode) (diag : Diagonal) (m n : Int) (alpha : T) (a a' : Mem T) (lda lda' ldb ldb' : Int)

omit [LawfulScalar T] in
theorem triangular_matrix_passed (rows : 0 ≤ m) (columns : 0 ≤ n) (widea : max1 (if side = .left then m else n) ≤ lda)
    (wideb : layout.leading m n ≤ ldb) :
    let call := layout.triangularCall side uplo mode diag alpha a lda ldb
    let height := pick layout.code n m
    let breadth := pick layout.code m n
    (∀ b, trmm env rt site layout.code (cblasSideOf side) (cblasUplo uplo) (cblasTransOf mode) (cblasDiagOf diag) m n
      alpha a lda b ldb =
      Zynum.trmm env rt site call height breadth b) ∧
    (∀ b, trsm env rt site layout.code (cblasSideOf side) (cblasUplo uplo) (cblasTransOf mode) (cblasDiagOf diag) m n
      alpha a lda b ldb =
      Zynum.trsm env rt site call height breadth b) ∧
    0 < lda ∧ 0 < ldb ∧ height ≤ ldb := by
  intro call height breadth
  obtain ⟨sides, parsedSide, leftSide⟩ := side_passed layout side
  obtain ⟨triangles, parsedUplo⟩ := uplo_passed layout uplo
  obtain ⟨transposes, parsedTrans, _⟩ := trans_passed mode
  obtain ⟨diagonals, parsedDiag⟩ := diag_passed diag
  obtain ⟨codeUplo, codeTrans, codeDiag, codeSide⟩ := valid_codes uplo mode diag side
  have codes : ¬ ((!validLayout layout.code) = true ∨ (!validSide (cblasSideOf side)) = true ∨ (!validUplo (cblasUplo uplo)) = true ∨
      (!validTrans (cblasTransOf mode)) = true ∨ (!validDiag (cblasDiagOf diag)) = true) := by
    rw [valid_layout, codeUplo, codeTrans, codeDiag, codeSide]
    decide
  have same : Zynum.triangularCall (sideFor layout.code (cblasSideOf side)) (uploFor layout.code (cblasUplo uplo))
      (transChar (cblasTransOf mode)) (diagChar (cblasDiagOf diag)) alpha a lda ldb = call := by
    simp only [Zynum.triangularCall, parsedSide, parsedUplo, parsedTrans, parsedDiag]
    rfl
  have accepted : triangularMatrixError (sideFor layout.code (cblasSideOf side)) (uploFor layout.code (cblasUplo uplo))
      (transChar (cblasTransOf mode)) (diagChar (cblasDiagOf diag)) height breadth lda ldb = 0 := by
    have order : (if layout.side side = .left then height else breadth) = if side = .left then m else n := by
      cases layout <;> cases side <;> rfl
    have tall : max1 height ≤ ldb := by
      cases layout <;> exact wideb
    have some : 0 ≤ height ∧ 0 ≤ breadth := by
      cases layout
      · exact ⟨columns, rows⟩
      · exact ⟨rows, columns⟩
    exact triangular_matrix_accepted _ _ _ _ height breadth lda ldb sides triangles transposes diagonals some.1 some.2
      (by rw [if_congr leftSide rfl rfl, order]; exact widea) tall
  refine ⟨fun b => ?_, fun b => ?_, triangular_matrix_accepted_bounds _ _ _ _ _ _ lda ldb accepted⟩
  · rw [trmm, if_neg codes, Fortran.trmm, if_neg (Fortran.report_accepted accepted), same]
  · rw [trsm, if_neg codes, Fortran.trsm, if_neg (Fortran.report_accepted accepted), same]

omit [CommRing T] [Scalar T] [LawfulScalar T] [Div T] in
theorem order_dimension : toUsize (if side = .left then m else n) = dimension side (toUsize m) (toUsize n) := by
  cases side <;> rfl

omit [CommRing T] [Scalar T] [LawfulScalar T] [Div T] in
theorem picked_size : toUsize (pick layout.code n m) = pick layout.code (toUsize n) (toUsize m) ∧
    toUsize (pick layout.code m n) = pick layout.code (toUsize m) (toUsize n) := by
  cases layout <;> exact ⟨rfl, rfl⟩

omit [LawfulScalar T] [Div T] in
theorem same_triangle_matrix {entry entry' : Nat → Nat → T}
    (same : SameTriangle uplo diag (if side = .left then m else n) entry' entry) :
    SameMatrix (dimension side (toUsize m) (toUsize n)) (dimension side (toUsize m) (toUsize n)) (triangle uplo diag mode entry')
      (triangle uplo diag mode entry) := by
  intro i j inRows inColumns
  rw [← order_dimension] at inRows inColumns
  exact same.triangle i j (Finset.mem_range.mpr inRows) (Finset.mem_range.mpr inColumns)

theorem trmm_layout_multiplied (rows : 0 ≤ m) (columns : 0 ≤ n) (widea : max1 (if side = .left then m else n) ≤ lda)
    (wideb : layout.leading m n ≤ ldb) (b : Mem T) :
    MatrixMultiplied layout side (triangle uplo diag mode (layout.entry a lda)) alpha (toUsize m) (toUsize n) ldb b
      (trmm env rt site layout.code (cblasSideOf side) (cblasUplo uplo) (cblasTransOf mode) (cblasDiagOf diag) m n alpha a
        lda b ldb) := by
  obtain ⟨runs, _, stepa, stepb, bound⟩ :=
    triangular_matrix_passed env rt site layout side uplo mode diag m n alpha a lda ldb rows columns widea wideb
  have whole := multiplied_entries _ _ _ b _ (trmm_multiplied env rt site
    (layout.triangularCall side uplo mode diag alpha a lda ldb) (pick layout.code n m) (pick layout.code m n) stepa stepb bound b)
  rw [(picked_size layout m n).1, (picked_size layout m n).2] at whole
  rw [runs]
  exact (multiplied_iff layout side uplo mode diag alpha a lda ldb _ _ b _).mp whole

theorem trmm_layouts_agree (rows : 0 ≤ m) (columns : 0 ≤ n) (widea : max1 (if side = .left then m else n) ≤ lda)
    (wideb : layout.leading m n ≤ ldb) (widea' : max1 (if side = .left then m else n) ≤ lda') (wideb' : layout'.leading m n ≤ ldb')
    (same : SameTriangle uplo diag (if side = .left then m else n) (layout'.entry a' lda') (layout.entry a lda)) (b b' : Mem T)
    (before : SameMatrix (toUsize m) (toUsize n) (layout'.entry b' ldb') (layout.entry b ldb)) :
    SameMatrix (toUsize m) (toUsize n)
      (layout'.entry (trmm env' rt' site' layout'.code (cblasSideOf side) (cblasUplo uplo) (cblasTransOf mode) (cblasDiagOf diag) m n
        alpha a' lda' b' ldb') ldb')
      (layout.entry (trmm env rt site layout.code (cblasSideOf side) (cblasUplo uplo) (cblasTransOf mode) (cblasDiagOf diag) m n alpha
        a lda b ldb) ldb) := by
  have one := trmm_layout_multiplied env rt site layout side uplo mode diag m n alpha a lda ldb rows columns widea wideb b
  have other := trmm_layout_multiplied env' rt' site' layout' side uplo mode diag m n alpha a' lda' ldb' rows columns widea' wideb' b'
  intro i j inRows inColumns
  rw [other.entry i j inRows inColumns, one.entry i j inRows inColumns,
    side_product_congr (same_triangle_matrix side uplo mode diag m n same) before i j inRows inColumns]

theorem trmm_layouts (rows : 0 ≤ m) (columns : 0 ≤ n) (widea : max1 (if side = .left then m else n) ≤ lda)
    (wideb : layout.leading m n ≤ ldb) :
    let run := fun b =>
      trmm env rt site layout.code (cblasSideOf side) (cblasUplo uplo) (cblasTransOf mode) (cblasDiagOf diag) m n alpha a lda b ldb
    let run' := fun b =>
      trmm env' rt' site' layout'.code (cblasSideOf side) (cblasUplo uplo) (cblasTransOf mode) (cblasDiagOf diag) m n
      alpha a' lda' b ldb'
    (∀ b, MatrixMultiplied layout side (triangle uplo diag mode (layout.entry a lda)) alpha (toUsize m) (toUsize n) ldb b (run b)) ∧
    (max1 (if side = .left then m else n) ≤ lda' → layout'.leading m n ≤ ldb' →
      SameTriangle uplo diag (if side = .left then m else n) (layout'.entry a' lda') (layout.entry a lda) → ∀ b b',
      SameMatrix (toUsize m) (toUsize n) (layout'.entry b' ldb') (layout.entry b ldb) →
      SameMatrix (toUsize m) (toUsize n) (layout'.entry (run' b') ldb') (layout.entry (run b) ldb)) := by
  intro run run'
  exact ⟨fun b => trmm_layout_multiplied env rt site layout side uplo mode diag m n alpha a lda ldb rows columns widea wideb b,
    trmm_layouts_agree env env' rt rt' site site' layout layout' side uplo mode diag m n alpha a a' lda lda' ldb ldb' rows columns
      widea wideb⟩

variable [ExactDivision T]

theorem trsm_layout_solved (rows : 0 ≤ m) (columns : 0 ≤ n) (widea : max1 (if side = .left then m else n) ≤ lda)
    (wideb : layout.leading m n ≤ ldb) (diagonal : NonzeroDiagonal diag (if side = .left then m else n)
      (layout.entry a lda)) (b : Mem T) :
    let solved := MatrixSolved layout side (triangle uplo diag mode (layout.entry a lda)) alpha (toUsize m) (toUsize n) ldb b
    let after := trsm env rt site layout.code (cblasSideOf side) (cblasUplo uplo) (cblasTransOf mode) (cblasDiagOf diag) m
      n alpha a lda b ldb
    solved after ∧ ∀ other, solved other → other = after := by
  intro solved after
  obtain ⟨_, runs, stepa, stepb, bound⟩ :=
    triangular_matrix_passed env rt site layout side uplo mode diag m n alpha a lda ldb rows columns widea wideb
  have solvable : (layout.triangularCall side uplo mode diag alpha a lda ldb).Solvable (toUsize (pick layout.code n m))
      (toUsize (pick layout.code m n)) := by
    intro kind d inside
    have place : d < toUsize (if side = .left then m else n) := by
      rw [order_dimension]
      cases layout <;> cases side <;> exact inside
    have raw := diagonal kind d place
    cases layout <;> exact raw
  have equations := solved_equations _ _ _ b solvable _ (trsm_solved env rt site
    (layout.triangularCall side uplo mode diag alpha a lda ldb) (pick layout.code n m) (pick layout.code m n) solvable
    stepa stepb bound b)
  have unique := fun other solves => solves_unique _ _ _ b solvable other _ solves equations
  rw [(picked_size layout m n).1, (picked_size layout m n).2] at equations unique
  have same : after = _ := runs b
  rw [same]
  exact ⟨(solved_iff layout side uplo mode diag alpha a lda ldb _ _ b _).mp equations, fun other solves =>
    unique other ((solved_iff layout side uplo mode diag alpha a lda ldb _ _ b _).mpr solves)⟩

theorem trsm_layouts_agree (rows : 0 ≤ m) (columns : 0 ≤ n) (widea : max1 (if side = .left then m else n) ≤ lda)
    (wideb : layout.leading m n ≤ ldb) (diagonal : NonzeroDiagonal diag (if side = .left then m else n) (layout.entry a lda))
    (widea' : max1 (if side = .left then m else n) ≤ lda') (wideb' : layout'.leading m n ≤ ldb')
    (same : SameTriangle uplo diag (if side = .left then m else n) (layout'.entry a' lda') (layout.entry a lda)) (b b' : Mem T)
    (before : SameMatrix (toUsize m) (toUsize n) (layout'.entry b' ldb') (layout.entry b ldb)) :
    SameMatrix (toUsize m) (toUsize n)
      (layout'.entry (trsm env' rt' site' layout'.code (cblasSideOf side) (cblasUplo uplo) (cblasTransOf mode) (cblasDiagOf diag) m n
        alpha a' lda' b' ldb') ldb')
      (layout.entry (trsm env rt site layout.code (cblasSideOf side) (cblasUplo uplo) (cblasTransOf mode) (cblasDiagOf diag) m n alpha
        a lda b ldb) ldb) := by
  have one := trsm_layout_solved env rt site layout side uplo mode diag m n alpha a lda ldb rows columns widea wideb diagonal b
  have regular : Regular diag (dimension side (toUsize m) (toUsize n)) (triangle uplo diag mode (layout.entry a lda)) := by
    rw [← order_dimension]
    exact diagonal.regular
  have moved : NonzeroDiagonal diag (if side = .left then m else n) (layout'.entry a' lda') := fun kind d inside => by
    rw [same d d inside inside (stored_diagonal uplo d) (fun unit => nomatch unit.symm.trans kind)]
    exact diagonal kind d inside
  have other := trsm_layout_solved env' rt' site' layout' side uplo mode diag m n alpha a' lda' ldb' rows columns widea'
    wideb' moved b'
  refine side_solution_unique side uplo diag mode (layout.entry a lda) _ _ regular _ _ (fun i j inRows inColumns => ?_)
  rw [← side_product_congr (same_triangle_matrix side uplo mode diag m n same) (fun _ _ _ _ => rfl) i j inRows inColumns,
    other.1.equation i j inRows inColumns, before i j inRows inColumns, one.1.equation i j inRows inColumns]

theorem trsm_layouts (rows : 0 ≤ m) (columns : 0 ≤ n) (widea : max1 (if side = .left then m else n) ≤ lda)
    (wideb : layout.leading m n ≤ ldb) (diagonal : NonzeroDiagonal diag (if side = .left then m else n) (layout.entry a lda)) :
    let run := fun b =>
      trsm env rt site layout.code (cblasSideOf side) (cblasUplo uplo) (cblasTransOf mode) (cblasDiagOf diag) m n alpha a lda b ldb
    let run' := fun b =>
      trsm env' rt' site' layout'.code (cblasSideOf side) (cblasUplo uplo) (cblasTransOf mode) (cblasDiagOf diag) m n
      alpha a' lda' b ldb'
    let multiply' := fun factor b =>
      trmm env' rt' site' layout'.code (cblasSideOf side) (cblasUplo uplo) (cblasTransOf mode) (cblasDiagOf diag) m n
      factor a' lda' b ldb'
    let solved := fun b after =>
      MatrixSolved layout side (triangle uplo diag mode (layout.entry a lda)) alpha (toUsize m) (toUsize n) ldb b after
    (∀ b, solved b (run b) ∧ ∀ other, solved b other → other = run b) ∧
    (max1 (if side = .left then m else n) ≤ lda' → layout'.leading m n ≤ ldb' →
      SameTriangle uplo diag (if side = .left then m else n) (layout'.entry a' lda') (layout.entry a lda) →
      (∀ b b', SameMatrix (toUsize m) (toUsize n) (layout'.entry b' ldb') (layout.entry b ldb) →
        SameMatrix (toUsize m) (toUsize n) (layout'.entry (run' b') ldb') (layout.entry (run b) ldb)) ∧
      ∀ factor b b', SameMatrix (toUsize m) (toUsize n) (layout'.entry (multiply' factor b') ldb') (layout.entry b ldb) →
        SameMatrix (toUsize m) (toUsize n) (layout.entry (run b) ldb) (fun i j => alpha * factor * layout'.entry b' ldb' i j)) := by
  intro run run' multiply' solved
  have one := fun b => trsm_layout_solved env rt site layout side uplo mode diag m n alpha a lda ldb rows columns widea
    wideb diagonal b
  have regular : Regular diag (dimension side (toUsize m) (toUsize n)) (triangle uplo diag mode (layout.entry a lda)) := by
    rw [← order_dimension]
    exact diagonal.regular
  refine ⟨one, fun widea' wideb' same => ⟨fun b b' before => trsm_layouts_agree env env' rt rt' site site' layout layout' side uplo mode
    diag m n alpha a a' lda lda' ldb ldb' rows columns widea wideb diagonal widea' wideb' same b b' before,
    fun factor b b' before => ?_⟩⟩
  have product := trmm_layout_multiplied env' rt' site' layout' side uplo mode diag m n factor a' lda' ldb' rows columns
    widea' wideb' b'
  refine side_solution_unique side uplo diag mode (layout.entry a lda) _ _ regular _ _ (fun i j inRows inColumns => ?_)
  calc sideProduct side (triangle uplo diag mode (layout.entry a lda)) (toUsize m) (toUsize n) (layout.entry (run b) ldb) i j
      = alpha * layout.entry b ldb i j := (one b).1.equation i j inRows inColumns
    _ = alpha * (factor * sideProduct side (triangle uplo diag mode (layout'.entry a' lda')) (toUsize m) (toUsize n)
          (layout'.entry b' ldb') i j) := by rw [← before i j inRows inColumns, ← product.entry i j inRows inColumns]
    _ = alpha * factor * sideProduct side (triangle uplo diag mode (layout.entry a lda)) (toUsize m) (toUsize n)
          (layout'.entry b' ldb') i j := by
        rw [side_product_congr (same_triangle_matrix side uplo mode diag m n same) (fun _ _ _ _ => rfl) i j inRows
          inColumns, mul_assoc]
    _ = sideProduct side (triangle uplo diag mode (layout.entry a lda)) (toUsize m) (toUsize n)
          (fun r s => alpha * factor * layout'.entry b' ldb' r s) i j := (side_product_scale _ _ _ _ _ _ i j).symm

end Routines

section Runs

theorem trmm_layouts_small :
    let _ := realKind Rat .double
    let _ := real_kind_lawful Rat .double
    MatrixMultiplied .rowMajor .right (triangle .upper .nonUnit .trans (Layout.rowMajor.entry (fun p => (p : Rat)) 3)) 2 2 3 4
      (fun p => (p : Rat)) (trmm (TriangularEnv.portable Rat) Runtime.sequential [] cblasRowMajor cblasRight cblasUpper cblasTrans
        cblasNonUnit 2 3 2 (fun p => (p : Rat)) 3 (fun p => (p : Rat)) 4) := by
  intro kind lawful
  exact (trmm_layouts (TriangularEnv.portable Rat) (TriangularEnv.portable Rat) Runtime.sequential Runtime.sequential [] [] .rowMajor
    .colMajor .right .upper .trans .nonUnit 2 3 2 (fun p => (p : Rat)) (fun p => (p : Rat)) 3 3 4 4 (by decide) (by decide)
    (by decide) (by decide)).1 _

-- A solve over row-major storage takes back the product in the same storage, tripled twice.
theorem trsm_layouts_small :
    let _ := realKind Rat .double
    let _ := real_kind_lawful Rat .double
    let a : Mem Rat := fun p => p + 1
    let product := trmm (TriangularEnv.portable Rat) Runtime.sequential [] cblasRowMajor cblasLeft cblasLower cblasNoTrans
      cblasNonUnit
      2 3 3 a 2 (fun p => (p : Rat)) 4
    SameMatrix 2 3 (Layout.rowMajor.entry (trsm (TriangularEnv.portable Rat) Runtime.sequential [] cblasRowMajor cblasLeft cblasLower
      cblasNoTrans cblasNonUnit 2 3 3 a 2 product 4) 4) (fun i j => 3 * 3 * Layout.rowMajor.entry (fun p => (p : Rat)) 4 i j) := by
  intro kind lawful a product
  have whole := trsm_layouts (TriangularEnv.portable Rat) (TriangularEnv.portable Rat) Runtime.sequential Runtime.sequential [] []
    .rowMajor .rowMajor .left .lower .noTrans .nonUnit 2 3 3 a a 2 2 4 4 (by decide) (by decide) (by decide) (by decide)
    (fun _ d _ => ne_of_gt (Nat.cast_add_one_pos _))
  exact (whole.2 (by decide) (by decide) (fun _ _ _ _ _ _ => rfl)).2 3 product (fun p => (p : Rat)) (fun _ _ _ _ => rfl)

end Runs

end Cblas

end Zynum
