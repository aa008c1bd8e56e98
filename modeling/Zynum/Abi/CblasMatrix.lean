import Zynum.Abi.CblasVector
import Zynum.MatrixMatrix.X86Kernels

set_option autoImplicit false

/- The matrix products and the symmetric updates through CBLAS: what a call leaves in
   C depends on the matrices its caller means and not on how they are laid out. -/
namespace Zynum

open ArrayProgram

variable {T : Type} [CommRing T] [Scalar T]

section Turning

variable {cells cells' : Set (Nat × Nat)} {value value' : Nat × Nat → T → T} {ldc ldc' : Int} {run run' : Mem T → Mem T}

omit [CommRing T] [Scalar T] in
-- A matrix written column by column is its transpose written row by row.
theorem Wrote.swapped {address address' : Nat × Nat → Nat} {before after : Mem T} (wrote : Wrote cells address value before after)
    (cover : ∀ i j, (i, j) ∈ cells' ↔ (j, i) ∈ cells) (place : ∀ i j, (i, j) ∈ cells' → address' (i, j) = address (j, i))
    (same : ∀ i j, (i, j) ∈ cells' → ∀ old, value (j, i) old = value' (i, j) old) : Wrote cells' address' value' before after := by
  constructor
  · intro cell member
    have written := wrote.written (cell.2, cell.1) ((cover cell.1 cell.2).mp member)
    rw [same cell.1 cell.2 member, ← place cell.1 cell.2 member] at written
    exact written
  · intro location apart
    refine wrote.kept location (fun cell member => ?_)
    have turned := (cover cell.2 cell.1).mpr member
    rw [← place cell.2 cell.1 turned]
    exact apart (cell.2, cell.1) turned

omit [CommRing T] [Scalar T] in
theorem Updates.swapped {address address' : Nat × Nat → Nat} (whole : Updates cells address value run)
    (cover : ∀ i j, (i, j) ∈ cells' ↔ (j, i) ∈ cells) (place : ∀ i j, (i, j) ∈ cells' → address' (i, j) = address (j, i))
    (same : ∀ i j, (i, j) ∈ cells' → ∀ old, value (j, i) old = value' (i, j) old) : Updates cells' address' value' run :=
  updates_of_wrote (fun store => Wrote.swapped (whole.wrote store) cover place same)

omit [CommRing T] [Scalar T] in
theorem Updates.turned (whole : Updates cells (cellAddress ldc) value run) (cover : ∀ i j, (i, j) ∈ cells' ↔ (j, i) ∈ cells)
    (same : ∀ i j, (i, j) ∈ cells' → ∀ old, value (j, i) old = value' (i, j) old) :
    Updates cells' (Layout.rowMajor.address ldc) value' run := Updates.swapped whole cover (fun _ _ _ => rfl) same

omit [CommRing T] [Scalar T] in
theorem same_matrix_after {layout layout' : Layout} (first : Updates cells (layout.address ldc) value run)
    (second : Updates cells (layout'.address ldc') value' run') (agree : ∀ cell ∈ cells, ∀ old, value' cell old = value cell old)
    (c c' : Mem T) (before : ∀ i j, (i, j) ∈ cells → layout'.entry c' ldc' i j = layout.entry c ldc i j) (i j : Nat)
    (member : (i, j) ∈ cells) : layout'.entry (run' c') ldc' i j = layout.entry (run c) ldc i j := by
  calc layout'.entry (run' c') ldc' i j = value' (i, j) (layout'.entry c' ldc' i j) := second.written c' (i, j) member
    _ = value (i, j) (layout.entry c ldc i j) := by rw [agree (i, j) member, before i j member]
    _ = layout.entry (run c) ldc i j := (first.written c (i, j) member).symm

end Turning

section Values

-- The operand of op(A), m by k, as it is stored.
def SameOperand (mode : TransposeMode) (m k : Int) (entry entry' : Nat → Nat → T) : Prop :=
  SameMatrix (toUsize (outputLength mode m k)) (toUsize (outputLength mode k m)) entry entry'

omit [CommRing T] in
theorem op_entry_same {mode : TransposeMode} {m k : Int} {entry entry' : Nat → Nat → T} (same : SameOperand mode m k entry entry')
    (i p : Nat) (inRows : i < toUsize m) (inDepth : p < toUsize k) : opEntry mode entry i p = opEntry mode entry' i p := by
  cases mode with
  | noTrans => exact same i p inRows inDepth
  | trans => exact same p i inDepth inRows
  | conjTrans => exact congrArg conj (same p i inDepth inRows)

omit [CommRing T] in
theorem op_entry_turned (mode : TransposeMode) (a : Mem T) (lda : Int) (i j : Nat) :
    opEntry mode (denseEntry a lda) j i = opEntry mode (Layout.rowMajor.entry a lda) i j := by
  cases mode <;> rfl

omit [Scalar T] in
theorem gemm_value_congr (alpha : T) (left right left' right' : Nat → Nat → T) (k : Nat) (beta : T) (cell : Nat × Nat) (old : T)
    (same : ∀ p, p < k → left cell.1 p * right p cell.2 = left' cell.1 p * right' p cell.2) :
    gemmValue alpha left right k beta cell old = gemmValue alpha left' right' k beta cell old := by
  rw [gemmValue, gemmValue]
  exact congrArg (fun total => alpha * total + beta * old)
    (Finset.sum_congr rfl (fun p inside => same p (Finset.mem_range.mp inside)))

omit [Scalar T] in
theorem gemm_value_turned (alpha : T) (left right left' right' : Nat → Nat → T) (k : Nat) (beta : T) (i j : Nat) (old : T)
    (lefts : ∀ p, left p i = left' i p) (rights : ∀ p, right j p = right' p j) :
    gemmValue alpha right left k beta (j, i) old = gemmValue alpha left' right' k beta (i, j) old := by
  rw [gemmValue, gemmValue]
  refine congrArg (fun total => alpha * total + beta * old) (Finset.sum_congr rfl (fun p _ => ?_))
  rw [lefts, rights, mul_comm]

def symmetricValue (side : OperandSide) (S : Nat → Nat → T) (m n : Nat) (alpha : T) (B : Nat → Nat → T) (beta : T)
    (cell : Nat × Nat) (old : T) : T :=
  match side with
  | .left => gemmValue alpha S B m beta cell old
  | .right => gemmValue alpha B S n beta cell old

-- alpha op(A) op(A)^T + beta C, or alpha (op(A) op(B)^T + op(B) op(A)^T) + beta C.
def rankValue (rankTwo : Bool) (mode : TransposeMode) (k : Nat) (alpha : T) (A B : Nat → Nat → T) (beta : T) (cell : Nat × Nat)
    (old : T) : T :=
  let half := fun (first second : Nat → Nat → T) => ∑ p ∈ Finset.range k, opEntry mode first cell.1 p * opEntry mode second cell.2 p
  alpha * half A (if rankTwo then B else A) + (if rankTwo then alpha * half B A else 0) + beta * old

end Values

namespace Cblas

section General

theorem gemm_accepted (ta tb : Char) (m n k lda ldb ldc : Int) (transa : Zynum.validTrans ta = true)
    (transb : Zynum.validTrans tb = true)
    (rows : 0 ≤ m) (columns : 0 ≤ n) (depth : 0 ≤ k) (widea : max1 (if fromChar ta = 'N' then m else k) ≤ lda)
    (wideb : max1 (if fromChar tb = 'N' then k else n) ≤ ldb) (widec : max1 m ≤ ldc) : gemmError ta tb m n k lda ldb ldc = 0 := by
  simp only [gemmError, transa, transb, Bool.not_true, Bool.false_eq_true, if_false, if_neg rows.not_gt, if_neg columns.not_gt,
    if_neg depth.not_gt, if_neg widea.not_gt, if_neg wideb.not_gt, if_neg widec.not_gt]

variable (env env' : Level3Env T) (rt rt' : Runtime) (site site' : Site) (layout layout' : Layout) (ta tb : TransposeMode)
  (m n k : Int) (alpha : T) (a a' : Mem T) (lda lda' : Int) (b b' : Mem T) (ldb ldb' : Int) (beta : T) (ldc ldc' : Int)

theorem gemm_layout_updates (rows : 0 ≤ m) (columns : 0 ≤ n) (depth : 0 ≤ k)
    (widea : layout.leading (outputLength ta m k) (outputLength ta k m) ≤ lda)
    (wideb : layout.leading (outputLength tb k n) (outputLength tb n k) ≤ ldb) (widec : layout.leading m n ≤ ldc) :
    Updates (matrixCells (toUsize m) (toUsize n)) (layout.address ldc)
      (gemmValue alpha (opEntry ta (layout.entry a lda)) (opEntry tb (layout.entry b ldb)) (toUsize k) beta)
      (fun c => gemm env rt site layout.code (cblasTransOf ta) (cblasTransOf tb) m n k alpha a lda b ldb beta c ldc) := by
  obtain ⟨valida, parseda, choicea⟩ := trans_passed ta
  obtain ⟨validb, parsedb, choiceb⟩ := trans_passed tb
  have codes : ¬ ((!validLayout layout.code) = true ∨ (!validTrans (cblasTransOf ta)) = true ∨
    (!validTrans (cblasTransOf tb)) = true) := by
    rw [valid_layout, (valid_codes .upper ta .unit .left).2.1, (valid_codes .upper tb .unit .left).2.1]
    decide
  cases layout with
  | colMajor =>
    have accepted := gemm_accepted (transChar (cblasTransOf ta)) (transChar (cblasTransOf tb)) m n k lda ldb ldc valida validb rows
      columns depth (by rw [if_congr choicea rfl rfl]; exact widea) (by rw [if_congr choiceb rfl rfl]; exact wideb) widec
    obtain ⟨_, _, _, stepa, stepb, stepc, bound⟩ := gemm_accepted_bounds _ _ m n k lda ldb ldc accepted
    refine (env.gemm.exact rt site ta tb m n k alpha a lda b ldb beta ldc stepa stepb stepc bound).congr_run (fun c => ?_)
    simp only [gemm, if_neg codes, pick_col, Fortran.gemm, Fortran.report_accepted accepted, parseda, parsedb, if_false,
      Bool.false_eq_true]
  | rowMajor =>
    have accepted := gemm_accepted (transChar (cblasTransOf tb)) (transChar (cblasTransOf ta)) n m k ldb lda ldc validb valida columns
      rows depth (by rw [if_congr choiceb rfl rfl]; exact wideb) (by rw [if_congr choicea rfl rfl]; exact widea) widec
    obtain ⟨_, _, _, stepb, stepa, stepc, bound⟩ := gemm_accepted_bounds _ _ n m k ldb lda ldc accepted
    have whole := env.gemm.exact rt site tb ta n m k alpha b ldb a lda beta ldc stepb stepa stepc bound
    refine (Updates.turned whole (fun i j => and_comm) (fun i j _ old => ?_)).congr_run (fun c => ?_)
    · exact gemm_value_turned alpha _ _ _ _ _ beta i j old (fun p => op_entry_turned ta a lda i p)
        (fun p => op_entry_turned tb b ldb p j)
    · simp only [gemm, if_neg codes, pick_row, Fortran.gemm, Fortran.report_accepted accepted, parseda, parsedb, if_false,
        Bool.false_eq_true]

-- What a CBLAS product means: the matrices behind the pointers, not their layout.
def GemmLayouts (env env' : Level3Env T) : Prop :=
  ∀ (rt rt' : Runtime) (site site' : Site) (layout layout' : Layout) (ta tb : TransposeMode) (m n k : Int) (alpha : T)
    (a a' : Mem T) (lda lda' : Int) (b b' : Mem T) (ldb ldb' : Int) (beta : T) (ldc ldc' : Int),
    0 ≤ m → 0 ≤ n → 0 ≤ k → layout.leading (outputLength ta m k) (outputLength ta k m) ≤ lda →
    layout.leading (outputLength tb k n) (outputLength tb n k) ≤ ldb → layout.leading m n ≤ ldc →
    let run := fun c => gemm env rt site layout.code (cblasTransOf ta) (cblasTransOf tb) m n k alpha a lda b ldb beta c ldc
    let run' := fun c =>
      gemm env' rt' site' layout'.code (cblasTransOf ta) (cblasTransOf tb) m n k alpha a' lda' b' ldb' beta c ldc'
    Updates (matrixCells (toUsize m) (toUsize n)) (layout.address ldc)
      (gemmValue alpha (opEntry ta (layout.entry a lda)) (opEntry tb (layout.entry b ldb)) (toUsize k) beta) run ∧
    (layout'.leading (outputLength ta m k) (outputLength ta k m) ≤ lda' →
      layout'.leading (outputLength tb k n) (outputLength tb n k) ≤ ldb' → layout'.leading m n ≤ ldc' →
      SameOperand ta m k (layout'.entry a' lda') (layout.entry a lda) →
      SameOperand tb k n (layout'.entry b' ldb') (layout.entry b ldb) →
      ∀ c c', SameMatrix (toUsize m) (toUsize n) (layout'.entry c' ldc') (layout.entry c ldc) →
        SameMatrix (toUsize m) (toUsize n) (layout'.entry (run' c') ldc') (layout.entry (run c) ldc))

theorem gemm_layouts_hold : GemmLayouts env env' := by
  intro rt rt' site site' layout layout' ta tb m n k alpha a a' lda lda' b b' ldb ldb' beta ldc ldc' rows columns depth widea wideb
    widec run run'
  have one := gemm_layout_updates env rt site layout ta tb m n k alpha a lda b ldb beta ldc rows columns depth widea wideb widec
  refine ⟨one, fun widea' wideb' widec' samea sameb c c' before i j inRows inColumns => ?_⟩
  have other := gemm_layout_updates env' rt' site' layout' ta tb m n k alpha a' lda' b' ldb' beta ldc' rows columns depth widea'
    wideb' widec'
  refine same_matrix_after one other (fun cell member old => ?_) c c' (fun i j member => before i j member.1 member.2) i j
    ⟨inRows, inColumns⟩
  exact gemm_value_congr alpha _ _ _ _ _ beta cell old (fun p inDepth => by
    rw [op_entry_same samea cell.1 p member.1 inDepth, op_entry_same sameb p cell.2 inDepth member.2])

-- The real core as it is written, and any core that keeps a product's contract.
theorem gemm_layouts [LawfulScalar T] (real real' : RealGemmEnv T) :
    GemmLayouts { env with gemm := realGemmRoutine real } { env' with gemm := realGemmRoutine real' } ∧ GemmLayouts env env' :=
  ⟨gemm_layouts_hold _ _, gemm_layouts_hold env env'⟩

end General

section Symmetric

variable [LawfulScalar T]

theorem symmetric_matrix_accepted (side uplo : Char) (m n lda ldb ldc : Int) (sides : Zynum.validSide side = true)
    (triangles : Zynum.validUplo uplo = true) (rows : 0 ≤ m) (columns : 0 ≤ n)
    (widea : max1 (if fromChar side = 'L' then m else n) ≤ lda)
    (wideb : max1 m ≤ ldb) (widec : max1 m ≤ ldc) : symmetricMatrixError side uplo m n lda ldb ldc = 0 := by
  simp only [symmetricMatrixError, sides, triangles, Bool.not_true, Bool.false_eq_true, if_false, if_neg rows.not_gt,
    if_neg columns.not_gt, if_neg widea.not_gt, if_neg wideb.not_gt, if_neg widec.not_gt]

variable (env env' : Level3Env T) (rt rt' : Runtime) (site site' : Site) (herm : Bool) (layout layout' : Layout) (side : OperandSide)
  (uplo : Triangle) (m n : Int) (alpha : T) (a a' : Mem T) (lda lda' : Int) (b b' : Mem T) (ldb ldb' : Int) (beta : T)
  (ldc ldc' : Int)

omit [LawfulScalar T] in
theorem symm_target_turned (m n : Nat) (i j : Nat) (old : T) :
    symmTarget (Layout.rowMajor.side side) (flipped uplo) n m alpha a lda b ldb beta herm (j, i) old =
      symmetricValue side (completion herm uplo (Layout.rowMajor.entry a lda)) m n alpha (Layout.rowMajor.entry b ldb)
      beta (i, j) old := by
  have mirrored : ∀ r s, completion herm (flipped uplo) (denseEntry a lda) r s =
      completion herm uplo (Layout.rowMajor.entry a lda) s r := fun r s =>
    completion_flip herm uplo (Layout.rowMajor.entry a lda) r s
  cases side with
  | left => exact gemm_value_turned alpha _ _ _ _ m beta i j old (fun p => mirrored p i) (fun _ => rfl)
  | right => exact gemm_value_turned alpha _ _ _ _ n beta i j old (fun _ => rfl) (fun p => mirrored j p)

theorem symm_layout_updates (rows : 0 ≤ m) (columns : 0 ≤ n) (widea : max1 (if side = .left then m else n) ≤ lda)
    (wideb : layout.leading m n ≤ ldb) (widec : layout.leading m n ≤ ldc) :
    Updates (matrixCells (toUsize m) (toUsize n)) (layout.address ldc)
      (symmetricValue side (completion herm uplo (layout.entry a lda)) (toUsize m) (toUsize n) alpha (layout.entry b ldb) beta)
      (fun c => symm env rt site herm layout.code (cblasSideOf side) (cblasUplo uplo) m n alpha a lda b ldb beta c ldc) := by
  obtain ⟨sides, parsedSide, leftSide⟩ := side_passed layout side
  obtain ⟨triangles, parsedUplo⟩ := uplo_passed layout uplo
  cases layout with
  | colMajor =>
    have accepted := symmetric_matrix_accepted _ _ m n lda ldb ldc sides triangles rows columns
      (by rw [if_congr leftSide rfl rfl]; exact widea) wideb widec
    obtain ⟨_, _, _, stepb, stepc, bound⟩ := symmetric_matrix_accepted_bounds _ _ m n lda ldb ldc accepted
    refine ((symm_updates env rt site side uplo m n alpha a lda b ldb beta ldc herm stepb stepc bound).congr rfl
      (fun cell old _ => ?_)).congr_run (fun c => ?_)
    · cases side <;> rfl
    · simp only [symm, valid_layout, Bool.not_true, Bool.false_eq_true, if_false, pick_col, Fortran.symm,
        Fortran.report_accepted accepted, parsedSide, parsedUplo]
      rfl
  | rowMajor =>
    have order : (if Layout.rowMajor.side side = .left then n else m) = if side = .left then m else n := by
      cases side <;> rfl
    have accepted := symmetric_matrix_accepted _ _ n m lda ldb ldc sides triangles columns rows
      (by rw [if_congr leftSide rfl rfl, order]; exact widea) wideb widec
    obtain ⟨_, _, _, stepb, stepc, bound⟩ := symmetric_matrix_accepted_bounds _ _ n m lda ldb ldc accepted
    have whole := symm_updates env rt site (Layout.rowMajor.side side) (flipped uplo) n m alpha a lda b ldb beta ldc herm
      stepb stepc bound
    refine (Updates.turned whole (fun i j => and_comm) (fun i j _ old => ?_)).congr_run (fun c => ?_)
    · exact symm_target_turned herm side uplo alpha a lda b ldb beta _ _ i j old
    · simp only [symm, valid_layout, Bool.not_true, Bool.false_eq_true, if_false, pick_row, Fortran.symm,
        Fortran.report_accepted accepted, parsedSide, parsedUplo]
      rfl

omit [Scalar T] [LawfulScalar T] in
theorem symmetric_value_congr {S S' B B' : Nat → Nat → T} {m n : Nat}
    (sameS : SameMatrix (if side = .left then m else n) (if side = .left then m else n) S' S) (sameB : SameMatrix m n B' B)
    (cell : Nat × Nat) (member : cell ∈ matrixCells m n) (old : T) :
    symmetricValue side S' m n alpha B' beta cell old = symmetricValue side S m n alpha B beta cell old := by
  cases side with
  | left =>
    exact gemm_value_congr alpha _ _ _ _ m beta cell old (fun p inside => by
      rw [sameS cell.1 p member.1 inside, sameB p cell.2 inside member.2])
  | right =>
    exact gemm_value_congr alpha _ _ _ _ n beta cell old (fun p inside => by
      rw [sameB cell.1 p member.1 inside, sameS p cell.2 inside member.2])

theorem symm_layouts_agree (rows : 0 ≤ m) (columns : 0 ≤ n) (widea : max1 (if side = .left then m else n) ≤ lda)
    (wideb : layout.leading m n ≤ ldb) (widec : layout.leading m n ≤ ldc) (widea' : max1 (if side = .left then m else n) ≤ lda')
    (wideb' : layout'.leading m n ≤ ldb') (widec' : layout'.leading m n ≤ ldc')
    (samea : SameStored herm uplo (if side = .left then toUsize m else toUsize n) (layout'.entry a' lda') (layout.entry a lda))
    (sameb : SameMatrix (toUsize m) (toUsize n) (layout'.entry b' ldb') (layout.entry b ldb)) (c c' : Mem T)
    (before : SameMatrix (toUsize m) (toUsize n) (layout'.entry c' ldc') (layout.entry c ldc)) :
    SameMatrix (toUsize m) (toUsize n)
      (layout'.entry (symm env' rt' site' herm layout'.code (cblasSideOf side) (cblasUplo uplo) m n alpha a' lda' b' ldb' beta c' ldc')
        ldc')
      (layout.entry (symm env rt site herm layout.code (cblasSideOf side) (cblasUplo uplo) m n alpha a lda b ldb beta c ldc) ldc) := by
  have one := symm_layout_updates env rt site herm layout side uplo m n alpha a lda b ldb beta ldc rows columns widea wideb widec
  have other := symm_layout_updates env' rt' site' herm layout' side uplo m n alpha a' lda' b' ldb' beta ldc' rows columns
    widea' wideb' widec'
  have completed : SameMatrix _ _ (completion herm uplo (layout'.entry a' lda')) (completion herm uplo (layout.entry a lda)) :=
    fun r s inRow inColumn => same_stored_completion herm uplo _ _ _ samea r s inRow inColumn
  intro i j inRows inColumns
  exact same_matrix_after one other
    (fun cell member old => symmetric_value_congr side alpha beta completed sameb cell member old) c c'
    (fun i j member => before i j member.1 member.2) i j ⟨inRows, inColumns⟩

theorem symm_layouts (rows : 0 ≤ m) (columns : 0 ≤ n) (widea : max1 (if side = .left then m else n) ≤ lda)
    (wideb : layout.leading m n ≤ ldb) (widec : layout.leading m n ≤ ldc) :
    let run := fun c => symm env rt site herm layout.code (cblasSideOf side) (cblasUplo uplo) m n alpha a lda b ldb beta c ldc
    Updates (matrixCells (toUsize m) (toUsize n)) (layout.address ldc)
      (symmetricValue side (completion herm uplo (layout.entry a lda)) (toUsize m) (toUsize n) alpha (layout.entry b ldb) beta) run ∧
    (max1 (if side = .left then m else n) ≤ lda' → layout'.leading m n ≤ ldb' → layout'.leading m n ≤ ldc' →
      SameStored herm uplo (if side = .left then toUsize m else toUsize n) (layout'.entry a' lda') (layout.entry a lda) →
      SameMatrix (toUsize m) (toUsize n) (layout'.entry b' ldb') (layout.entry b ldb) →
      ∀ c c', SameMatrix (toUsize m) (toUsize n) (layout'.entry c' ldc') (layout.entry c ldc) →
        SameMatrix (toUsize m) (toUsize n) (layout'.entry
          (symm env' rt' site' herm layout'.code (cblasSideOf side) (cblasUplo uplo) m n
          alpha a' lda' b' ldb' beta c' ldc') ldc') (layout.entry (run c) ldc)) := by
  intro run
  exact ⟨symm_layout_updates env rt site herm layout side uplo m n alpha a lda b ldb beta ldc rows columns widea wideb widec,
    symm_layouts_agree env env' rt rt' site site' herm layout layout' side uplo m n alpha a a' lda lda' b b' ldb ldb' beta ldc ldc' rows
      columns widea wideb widec⟩

end Symmetric

section Ranks

variable [LawfulScalar T]

theorem rank_accepted (rankTwo : Bool) (uplo trans : Char) (n k lda ldb ldc : Int) (triangles : Zynum.validUplo uplo = true)
    (transposes : Zynum.validTrans trans = true) (size : 0 ≤ n) (depth : 0 ≤ k)
    (widea : max1 (if fromChar trans = 'N' then n else k) ≤ lda)
    (wideb : rankTwo = true → max1 (if fromChar trans = 'N' then n else k) ≤ ldb) (widec : max1 n ≤ ldc) :
    rankError rankTwo uplo trans n k lda ldb ldc = 0 := by
  cases rankTwo with
  | false =>
    simp only [rankError, rankKMatrixError, triangles, transposes, Bool.not_true, Bool.false_eq_true, if_false, if_neg size.not_gt,
      if_neg depth.not_gt, if_neg widea.not_gt, if_neg widec.not_gt]
  | true =>
    simp only [rankError, rank2KMatrixError, triangles, transposes, Bool.not_true, Bool.false_eq_true, if_false, if_true,
      if_neg size.not_gt, if_neg depth.not_gt, if_neg widea.not_gt, if_neg (wideb rfl).not_gt, if_neg widec.not_gt]

def rankUpdate (rankTwo : Bool) (env : Level3Env T) (rt : Runtime) (site : Site) (layout uplo trans n k : Int) (alpha : T) (a : Mem T)
    (lda : Int) (b : Mem T) (ldb : Int) (beta : T) (c : Mem T) (ldc : Int) : Mem T :=
  if rankTwo then syr2k env rt site layout uplo trans n k alpha a lda b ldb beta c ldc
  else syrk env rt site layout uplo trans n k alpha a lda beta c ldc

variable (rankTwo : Bool) (env env' : Level3Env T) (rt rt' : Runtime) (site site' : Site) (layout layout' : Layout) (uplo : Triangle)
  (mode : TransposeMode) (n k : Int) (alpha : T) (a a' : Mem T) (lda lda' : Int) (b b' : Mem T) (ldb ldb' : Int) (beta : T)
  (ldc ldc' : Int)

theorem rank_export_updates (uu tt : Char) (triangles : Zynum.validUplo uu = true) (transposes : Zynum.validTrans tt = true)
    (plain : parseTrans tt = .conjTrans → Scalar.isComplex T = false) (size : 0 ≤ n) (depth : 0 ≤ k)
    (widea : max1 (if fromChar tt = 'N' then n else k) ≤ lda)
    (wideb : rankTwo = true → max1 (if fromChar tt = 'N' then n else k) ≤ ldb)
    (widec : max1 n ≤ ldc) :
    Updates (triangleCells (parseUplo uu) (toUsize n)) (cellAddress ldc)
      (rankValue rankTwo (parseTrans tt) (toUsize k) alpha (denseEntry a lda) (denseEntry b ldb) beta) (fun c =>
        if rankTwo then Fortran.syr2k env rt site uu tt n k alpha a lda b ldb beta c ldc
        else Fortran.syrk env rt site uu tt n k alpha a lda beta c ldc) := by
  have accepted := rank_accepted rankTwo uu tt n k lda ldb ldc triangles transposes size depth widea wideb widec
  have admissible := rank_call_admissible rankTwo false uu tt n k alpha a lda b ldb beta ldc accepted
  have harmless : (rankCall rankTwo false uu tt n k alpha a lda b ldb beta ldc).transposeHarmless := by
    cases turned : parseTrans tt with
    | noTrans => exact Or.inl (by rw [rankCall, turned]; rfl)
    | trans => exact Or.inl (by rw [rankCall, turned]; rfl)
    | conjTrans =>
      refine Or.inr (fun i j _ _ _ => ?_)
      rw [LawfulScalar.conj_real (plain turned), LawfulScalar.conj_real (plain turned)]
  have whole := routine_updates _ admissible env rt site (fun _ _ _ => (transpose_harmless_iff _).mp harmless)
  obtain ⟨order, rfl⟩ := Int.eq_ofNat_of_zero_le size
  obtain ⟨steps, rfl⟩ := Int.eq_ofNat_of_zero_le depth
  refine (whole.congr rfl (fun cell old _ => ?_)).congr_run (fun c => ?_)
  · cases rankTwo with
    | false => rfl
    | true => rfl
  · cases rankTwo with
    | false =>
      have passed : ¬ Fortran.reportError (rankKMatrixError uu tt order steps lda ldc) = true := Fortran.report_accepted accepted
      simp only [Bool.false_eq_true, if_false, Fortran.syrk, if_neg passed]
      rfl
    | true =>
      have passed : ¬ Fortran.reportError (rank2KMatrixError uu tt order steps lda ldb ldc) = true := Fortran.report_accepted accepted
      simp only [if_true, Fortran.syr2k, if_neg passed]
      rfl

theorem rank_value_turned (plain : mode = .conjTrans → Scalar.isComplex T = false) (k i j : Nat) (old : T) :
    rankValue rankTwo (Layout.rowMajor.turned mode) k alpha (denseEntry a lda) (denseEntry b ldb) beta (j, i) old =
      rankValue rankTwo mode k alpha (Layout.rowMajor.entry a lda) (Layout.rowMajor.entry b ldb) beta (i, j) old := by
  have half : ∀ first second : Nat → Nat → T,
      ∑ p ∈ Finset.range k, opEntry (Layout.rowMajor.turned mode) first j p * opEntry (Layout.rowMajor.turned mode) second i p =
        ∑ p ∈ Finset.range k, opEntry mode (fun r s => second s r) i p * opEntry mode (fun r s => first s r) j p := by
    intro first second
    refine Finset.sum_congr rfl (fun p _ => ?_)
    rw [turned_entry mode plain, turned_entry mode plain, mul_comm]
  simp only [rankValue, half]
  cases rankTwo with
  | false => rfl
  | true => exact congrArg (· + beta * old) (add_comm _ _)

theorem rank_layout_updates (plain : mode = .conjTrans → Scalar.isComplex T = false) (size : 0 ≤ n) (depth : 0 ≤ k)
    (widea : layout.leading (outputLength mode n k) (outputLength mode k n) ≤ lda)
    (wideb : rankTwo = true → layout.leading (outputLength mode n k) (outputLength mode k n) ≤ ldb) (widec : max1 n ≤ ldc) :
    Updates (triangleCells uplo (toUsize n)) (layout.address ldc)
      (rankValue rankTwo mode (toUsize k) alpha (layout.entry a lda) (layout.entry b ldb) beta)
      (fun c => rankUpdate rankTwo env rt site layout.code (cblasUplo uplo) (cblasTransOf mode) n k alpha a lda b ldb beta
        c ldc) := by
  have leaf : conjLeaf T layout.code (cblasTransOf mode) = false := by
    refine Bool.eq_false_of_not_eq_true (fun taken => ?_)
    obtain ⟨complex, _, conjugated⟩ := (conj_leaf_iff layout mode).mp taken
    exact nomatch complex.symm.trans (plain conjugated)
  obtain ⟨triangles, parsedUplo⟩ := uplo_passed layout uplo
  obtain ⟨transposes, parsedTrans, choice⟩ := turned_passed layout mode
  have passed := trans_for_turned layout mode T leaf
  have order : max1 (if layout.turned mode = .noTrans then n else k) =
      layout.leading (outputLength mode n k) (outputLength mode k n) := by
    cases layout <;> cases mode <;> rfl
  have kept : layout.turned mode = .conjTrans → Scalar.isComplex T = false := by
    cases layout with
    | rowMajor => cases mode <;> exact fun conjugated => absurd conjugated (by decide)
    | colMajor => exact plain
  have whole := rank_export_updates rankTwo env rt site n k alpha a lda b ldb beta ldc _ _ triangles transposes
    (by rw [parsedTrans]; exact kept) size depth (by rw [if_congr choice rfl rfl, order]; exact widea)
    (fun two => by rw [if_congr choice rfl rfl, order]; exact wideb two) widec
  rw [parsedUplo, parsedTrans] at whole
  have runs : ∀ c, rankUpdate rankTwo env rt site layout.code (cblasUplo uplo) (cblasTransOf mode) n k alpha a lda b ldb beta c ldc =
      if rankTwo then
        Fortran.syr2k env rt site (uploFor layout.code (cblasUplo uplo)) (gemvTransFor layout.code (cblasTransOf mode)) n
        k alpha a lda b
          ldb beta c ldc
      else
        Fortran.syrk env rt site (uploFor layout.code (cblasUplo uplo)) (gemvTransFor layout.code (cblasTransOf mode)) n k alpha a lda
          beta c ldc := fun c => by
    simp only [rankUpdate, syrk, syr2k, valid_layout, Bool.not_true, Bool.false_eq_true, if_false, passed]
  cases layout with
  | colMajor => exact whole.congr_run (fun c => runs c)
  | rowMajor =>
    refine (Updates.turned whole (fun i j => ?_) (fun i j _ old => ?_)).congr_run (fun c => runs c)
    · simp only [triangleCells, Set.mem_ofPred_eq, matrixCells, Layout.triangle, stored_flipped, and_comm]
    · exact rank_value_turned rankTwo mode alpha a lda b ldb beta plain _ i j old

omit [LawfulScalar T] in
theorem rank_value_congr {A A' B B' : Nat → Nat → T} (sameA : SameOperand mode n k A' A)
    (sameB : rankTwo = true → SameOperand mode n k B' B) (cell : Nat × Nat)
    (member : cell ∈ matrixCells (toUsize n) (toUsize n)) (old : T) :
    rankValue rankTwo mode (toUsize k) alpha A' B' beta cell old = rankValue rankTwo mode (toUsize k) alpha A B beta cell old := by
  have half : ∀ {first first' second second' : Nat → Nat → T}, SameOperand mode n k first' first → SameOperand mode n k
    second' second →
      ∑ p ∈ Finset.range (toUsize k), opEntry mode first' cell.1 p * opEntry mode second' cell.2 p =
        ∑ p ∈ Finset.range (toUsize k), opEntry mode first cell.1 p * opEntry mode second cell.2 p := by
    intro first first' second second' one other
    refine Finset.sum_congr rfl (fun p inside => ?_)
    have inDepth := Finset.mem_range.mp inside
    rw [op_entry_same one cell.1 p member.1 inDepth, op_entry_same other cell.2 p member.2 inDepth]
  cases two : rankTwo with
  | false => simp only [rankValue, Bool.false_eq_true, if_false, half sameA sameA]
  | true => simp only [rankValue, if_true, half sameA (sameB two), half (sameB two) sameA]

theorem rank_layouts_agree (plain : mode = .conjTrans → Scalar.isComplex T = false) (size : 0 ≤ n) (depth : 0 ≤ k)
    (widea : layout.leading (outputLength mode n k) (outputLength mode k n) ≤ lda)
    (wideb : rankTwo = true → layout.leading (outputLength mode n k) (outputLength mode k n) ≤ ldb) (widec : max1 n ≤ ldc)
    (widea' : layout'.leading (outputLength mode n k) (outputLength mode k n) ≤ lda')
    (wideb' : rankTwo = true → layout'.leading (outputLength mode n k) (outputLength mode k n) ≤ ldb') (widec' : max1 n ≤ ldc')
    (samea : SameOperand mode n k (layout'.entry a' lda') (layout.entry a lda))
    (sameb : rankTwo = true → SameOperand mode n k (layout'.entry b' ldb') (layout.entry b ldb)) (c c' : Mem T)
    (before : ∀ i j, (i, j) ∈ triangleCells uplo (toUsize n) → layout'.entry c' ldc' i j = layout.entry c ldc i j) (i j : Nat)
    (member : (i, j) ∈ triangleCells uplo (toUsize n)) :
    layout'.entry (rankUpdate rankTwo env' rt' site' layout'.code (cblasUplo uplo) (cblasTransOf mode) n k alpha a' lda' b' ldb' beta
        c' ldc') ldc' i j =
      layout.entry (rankUpdate rankTwo env rt site layout.code (cblasUplo uplo) (cblasTransOf mode) n k alpha a lda b ldb beta c ldc)
        ldc i j := by
  have one := rank_layout_updates rankTwo env rt site layout uplo mode n k alpha a lda b ldb beta ldc plain size depth
    widea wideb widec
  have other := rank_layout_updates rankTwo env' rt' site' layout' uplo mode n k alpha a' lda' b' ldb' beta ldc' plain
    size depth widea' wideb' widec'
  exact same_matrix_after one other
    (fun cell inside old => rank_value_congr rankTwo mode n k alpha beta samea sameb cell inside.1 old) c c' before i j member

theorem rank_layouts (plain : mode = .conjTrans → Scalar.isComplex T = false) (size : 0 ≤ n) (depth : 0 ≤ k)
    (widea : layout.leading (outputLength mode n k) (outputLength mode k n) ≤ lda)
    (wideb : rankTwo = true → layout.leading (outputLength mode n k) (outputLength mode k n) ≤ ldb) (widec : max1 n ≤ ldc) :
    let run := fun c => rankUpdate rankTwo env rt site layout.code (cblasUplo uplo) (cblasTransOf mode) n k alpha a lda b
      ldb beta c ldc
    Updates (triangleCells uplo (toUsize n)) (layout.address ldc)
      (rankValue rankTwo mode (toUsize k) alpha (layout.entry a lda) (layout.entry b ldb) beta) run ∧
    (layout'.leading (outputLength mode n k) (outputLength mode k n) ≤ lda' →
      (rankTwo = true → layout'.leading (outputLength mode n k) (outputLength mode k n) ≤ ldb') → max1 n ≤ ldc' →
      SameOperand mode n k (layout'.entry a' lda') (layout.entry a lda) →
      (rankTwo = true → SameOperand mode n k (layout'.entry b' ldb') (layout.entry b ldb)) → ∀ c c',
      (∀ i j, (i, j) ∈ triangleCells uplo (toUsize n) → layout'.entry c' ldc' i j = layout.entry c ldc i j) →
      ∀ i j, (i, j) ∈ triangleCells uplo (toUsize n) → layout'.entry (rankUpdate rankTwo env' rt' site' layout'.code (cblasUplo uplo)
        (cblasTransOf mode) n k alpha a' lda' b' ldb' beta c' ldc') ldc' i j = layout.entry (run c) ldc i j) := by
  intro run
  exact ⟨rank_layout_updates rankTwo env rt site layout uplo mode n k alpha a lda b ldb beta ldc plain size depth widea wideb widec,
    rank_layouts_agree rankTwo env env' rt rt' site site' layout layout' uplo mode n k alpha a a' lda lda' b b' ldb ldb' beta ldc ldc'
      plain size depth widea wideb widec⟩

end Ranks

section Runs

-- A row-major product with a transposed operand on the AVX2 core against the column-major one on SSE2.
theorem gemm_layouts_small :
    let _ := realKind Int .double
    let _ := real_kind_lawful Int .double
    let pack : PackedSimd.PackEnv Int := ⟨fun _ => true, fun _ _ => 0, 0⟩
    let profile := (RealGemmEnv.portable Int).profile
    let avx2 := PackedSimd.x86Core .double .avx2Fma (fun _ => true) rfl pack profile
    let sse2 := PackedSimd.x86Core .double .sse2 (fun _ => true) rfl pack profile
    let core : Level3Env Int := { Level3Env.portable Int with gemm := realGemmRoutine avx2 }
    let core' : Level3Env Int := { Level3Env.portable Int with gemm := realGemmRoutine sse2 }
    let c : Mem Int := fun _ => 7
    SameMatrix 2 3
      (Layout.colMajor.entry (gemm core' Runtime.sequential [] cblasColMajor cblasTrans cblasNoTrans 2 3 1 5
        (fun p => p) 1 (fun p => p) 1 2 c 2) 2)
      (Layout.rowMajor.entry (gemm core Runtime.sequential [] cblasRowMajor cblasTrans cblasNoTrans 2 3 1 5
        (fun p => p) 2 (fun p => p) 3 2 c 4) 4) := by
  intro kind lawful pack profile avx2 sse2 core core' c
  have every := (gemm_layouts (Level3Env.portable Int) (Level3Env.portable Int) avx2 sse2).1
  have whole := every Runtime.sequential Runtime.sequential [] [] .rowMajor .colMajor .trans .noTrans 2 3 1 5
    (fun p => (p : Int)) (fun p => (p : Int)) 2 1 (fun p => (p : Int)) (fun p => (p : Int)) 3 1 2 4 2
    (by decide) (by decide) (by decide) (by decide) (by decide) (by decide)
  refine whole.2 (by decide) (by decide) (by decide) ?_ ?_ c c (fun _ _ _ _ => rfl)
  · intro i j inRows inColumns
    have first : i < 1 := inRows
    have second : j < 2 := inColumns
    interval_cases i
    interval_cases j <;> rfl
  · intro i j inRows inColumns
    have first : i < 1 := inRows
    have second : j < 3 := inColumns
    interval_cases i
    interval_cases j <;> rfl

-- A Hermitian matrix on the right, its lower triangle stored row by row.
theorem symm_layouts_small :
    let _ := complexKind Int .double
    let _ := complex_kind_lawful Int .double
    let a : Mem (Cplx Int) := fun p => ⟨p, 1⟩
    Updates (matrixCells 2 3) (Layout.rowMajor.address 4)
      (symmetricValue .right (completion true .lower (Layout.rowMajor.entry a 3)) 2 3 (2 : Cplx Int) (Layout.rowMajor.entry a 5) 1)
      (fun c => symm (Level3Env.portable (Cplx Int)) Runtime.sequential [] true cblasRowMajor cblasRight cblasLower 2 3 2
        a 3 a 5 1 c 4) := by
  intro kind lawful a
  exact (symm_layouts (Level3Env.portable (Cplx Int)) (Level3Env.portable (Cplx Int)) Runtime.sequential Runtime.sequential [] [] true
    .rowMajor .colMajor .right .lower 2 3 2 a a 3 3 a a 5 5 1 4 2 (by decide) (by decide) (by decide) (by decide) (by decide)).1

-- Over the reals the conjugate transpose is the transpose, also row by row.
theorem rank_layouts_small :
    let _ := realKind Int .double
    let _ := real_kind_lawful Int .double
    Updates (triangleCells .upper 3) (Layout.rowMajor.address 4)
      (rankValue true .conjTrans 2 (5 : Int) (Layout.rowMajor.entry (fun p => (p : Int)) 3)
        (Layout.rowMajor.entry (fun p => (p : Int)) 4) 7)
      (fun c => syr2k (Level3Env.portable Int) Runtime.sequential [] cblasRowMajor cblasUpper cblasConjTrans 3 2 5 (fun p => p) 3
        (fun p => p) 4 7 c 4) := by
  intro kind lawful
  exact (rank_layouts true (Level3Env.portable Int) (Level3Env.portable Int) Runtime.sequential Runtime.sequential [] [] .rowMajor
    .colMajor .upper .conjTrans 3 2 5 (fun p => (p : Int)) (fun p => (p : Int)) 3 2 (fun p => (p : Int))
    (fun p => (p : Int)) 4 2 7 4 3
    (fun _ => rfl) (by decide) (by decide) (by decide) (fun _ => by decide) (by decide)).1

end Runs

end Cblas

end Zynum
