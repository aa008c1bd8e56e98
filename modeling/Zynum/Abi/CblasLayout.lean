import Zynum.Abi.Cblas

set_option autoImplicit false

/- What a CBLAS call means: a layout says where an element of a matrix lies, and the
   options have one code each. A wrapper that turns its call into column-major order
   passes these options on. -/
namespace Zynum

inductive Layout where
  | rowMajor
  | colMajor
  deriving DecidableEq, Repr

def Layout.code (layout : Layout) : Int :=
  match layout with
  | .rowMajor => cblasRowMajor
  | .colMajor => cblasColMajor

def cblasTransOf (mode : TransposeMode) : Int :=
  match mode with
  | .noTrans => cblasNoTrans
  | .trans => cblasTrans
  | .conjTrans => cblasConjTrans

def cblasDiagOf (diag : Diagonal) : Int :=
  match diag with
  | .nonUnit => cblasNonUnit
  | .unit => cblasUnit

def cblasSideOf (side : OperandSide) : Int :=
  match side with
  | .left => cblasLeft
  | .right => cblasRight

-- Row by row, or column by column, ld apart.
def Layout.address (layout : Layout) (ld : Int) (cell : Nat × Nat) : Nat :=
  match layout with
  | .rowMajor => matIndex ld cell.2 cell.1
  | .colMajor => matIndex ld cell.1 cell.2

def Layout.entry {T : Type} (layout : Layout) (a : Mem T) (ld : Int) (i j : Nat) : T := a (layout.address ld (i, j))

-- The triangle of a band matrix, and a packed triangle, zero where there is no slot.
def Layout.triBandEntry {T : Type} [Zero T] (layout : Layout) (uplo : Triangle) (k : Nat) (a : Mem T) (lda : Int) : Nat → Nat → T :=
  match layout with
  | .rowMajor => compactEntry (rowMajorTriBandIndex (cblasUplo uplo) k lda) a
  | .colMajor => compactEntry (triBandIndex uplo k lda) a

def Layout.triPackedEntry {T : Type} [Zero T] (layout : Layout) (uplo : Triangle) (n : Nat) (ap : Mem T) : Nat → Nat → T :=
  match layout with
  | .rowMajor => compactEntry (rowMajorTriPackedIndex (cblasUplo uplo) n) ap
  | .colMajor => compactEntry (triPackedIndex uplo n) ap

def Layout.leading (layout : Layout) (rows columns : Int) : Int :=
  match layout with
  | .rowMajor => max1 columns
  | .colMajor => max1 rows

def SameMatrix {T : Type} (m n : Nat) (entry entry' : Nat → Nat → T) : Prop := ∀ i j, i < m → j < n → entry i j = entry' i j

-- What the column-major routine is asked for.
def Layout.triangle (layout : Layout) (uplo : Triangle) : Triangle :=
  match layout with
  | .rowMajor => flipped uplo
  | .colMajor => uplo

def Layout.side (layout : Layout) (side : OperandSide) : OperandSide :=
  match layout, side with
  | .rowMajor, .left => .right
  | .rowMajor, .right => .left
  | .colMajor, side => side

def Layout.turned (layout : Layout) (mode : TransposeMode) : TransposeMode :=
  match layout with
  | .rowMajor => if mode = .noTrans then .trans else .noTrans
  | .colMajor => mode

section Stores

theorem stored_flipped (uplo : Triangle) (row col : Nat) : stored (flipped uplo) col row = stored uplo row col := by
  cases uplo <;> rfl

variable {T : Type} [CommRing T]

theorem row_band_entry (uplo : Triangle) (k : Nat) (a : Mem T) (lda : Int) (i j : Nat) :
    Layout.rowMajor.triBandEntry uplo k a lda i j = bandEntry (flipped uplo) k a lda j i := by
  change compactEntry _ a i j = compactEntry _ a j i
  rw [compactEntry, row_major_band, compactEntry]

theorem row_packed_entry (uplo : Triangle) (n : Nat) (ap : Mem T) :
    SameMatrix n n (Layout.rowMajor.triPackedEntry uplo n ap) (fun i j => packedEntry (flipped uplo) n ap j i) := by
  intro i j inRows inColumns
  change compactEntry _ ap i j = compactEntry _ ap j i
  rw [compactEntry, row_major_packed uplo n i j inRows inColumns, compactEntry]

variable [Scalar T]

omit [CommRing T] in
theorem completion_flip (herm : Bool) (uplo : Triangle) (entry : Nat → Nat → T) (i j : Nat) :
    completion herm (flipped uplo) (fun i j => entry j i) i j = completion herm uplo entry j i := by
  simp only [completion, stored_flipped uplo j i]
  by_cases same : i = j
  · subst same
    rfl
  · rw [if_neg same, if_neg (Ne.symm same)]

theorem completion_conj [LawfulScalar T] (herm conjugated : Bool) (uplo : Triangle) (entry : Nat → Nat → T) (i j : Nat) :
    completion herm uplo (fun i j => conjugateIf (entry i j) (herm && conjugated)) i j =
      conjugateIf (completion herm uplo entry i j) (herm && conjugated) := by
  cases herm with
  | false => rfl
  | true =>
    cases conjugated with
    | false => rfl
    | true =>
      simp only [completion, conjugateIf, Bool.and_true, if_true]
      by_cases same : i = j
      · rw [if_pos same, if_pos same, LawfulScalar.realOnly_conj, LawfulScalar.conj_realOnly]
      · rw [if_neg same, if_neg same, apply_ite conj]

end Stores

namespace Cblas

section Codes

variable (layout : Layout) (uplo : Triangle) (mode : TransposeMode) (diag : Diagonal) (side : OperandSide)

theorem valid_layout : validLayout layout.code = true := by
  cases layout <;> rfl

theorem valid_codes : validUplo (cblasUplo uplo) = true ∧ validTrans (cblasTransOf mode) = true ∧
    validDiag (cblasDiagOf diag) = true ∧ validSide (cblasSideOf side) = true := by
  refine ⟨?_, ?_, ?_, ?_⟩
  · cases uplo <;> rfl
  · cases mode <;> rfl
  · cases diag <;> rfl
  · cases side <;> rfl

theorem uplo_passed : Zynum.validUplo (uploFor layout.code (cblasUplo uplo)) = true ∧
    parseUplo (uploFor layout.code (cblasUplo uplo)) = layout.triangle uplo := by
  cases layout <;> cases uplo <;> decide

theorem side_passed : Zynum.validSide (sideFor layout.code (cblasSideOf side)) = true ∧
    parseSide (sideFor layout.code (cblasSideOf side)) = layout.side side ∧
    (fromChar (sideFor layout.code (cblasSideOf side)) = 'L' ↔ layout.side side = .left) := by
  cases layout <;> cases side <;> decide

theorem diag_passed : Zynum.validDiag (diagChar (cblasDiagOf diag)) = true ∧ parseDiag (diagChar (cblasDiagOf diag)) = diag := by
  cases diag <;> decide

theorem trans_passed : Zynum.validTrans (transChar (cblasTransOf mode)) = true ∧ parseTrans (transChar (cblasTransOf mode)) = mode ∧
    (fromChar (transChar (cblasTransOf mode)) = 'N' ↔ mode = .noTrans) := by
  cases mode <;> decide

theorem turned_passed : Zynum.validTrans (gemvTransFor layout.code (cblasTransOf mode)) = true ∧
    parseTrans (gemvTransFor layout.code (cblasTransOf mode)) = layout.turned mode ∧
    (fromChar (gemvTransFor layout.code (cblasTransOf mode)) = 'N' ↔ layout.turned mode = .noTrans) := by
  cases layout <;> cases mode <;> decide

theorem trans_for_turned (T : Type) [Scalar T] (plain : conjLeaf T layout.code (cblasTransOf mode) = false) :
    transFor T layout.code (cblasTransOf mode) = gemvTransFor layout.code (cblasTransOf mode) := by
  have choice : ∀ real : Bool, rowMajorTransChar (if real ∧ cblasTransOf mode = cblasConjTrans then cblasTrans else
    cblasTransOf mode) =
      rowMajorGemvTrans (cblasTransOf mode) ∨ real = false ∧ mode = .conjTrans := by
    cases mode <;> decide
  cases layout with
  | colMajor => rfl
  | rowMajor =>
    cases choice (isReal T) with
    | inl same => exact same
    | inr complex =>
      have kind : Scalar.isComplex T = true := by simpa [isReal] using complex.1
      rw [complex.2, conjLeaf, kind] at plain
      cases plain

theorem pick_row {α : Type} (first second : α) : pick Layout.rowMajor.code first second = first := if_pos rfl

theorem pick_col {α : Type} (first second : α) : pick Layout.colMajor.code first second = second :=
  if_neg (by decide)

end Codes

section Storage

variable {T : Type}

theorem conj_leaf_iff [Scalar T] (layout : Layout) (mode : TransposeMode) :
    conjLeaf T layout.code (cblasTransOf mode) = true ↔ Scalar.isComplex T = true ∧ layout = .rowMajor ∧ mode = .conjTrans := by
  rw [conjLeaf]
  generalize Scalar.isComplex T = complex
  cases complex <;> cases layout <;> cases mode <;> decide

theorem leaf_plain [Scalar T] (mode : TransposeMode) (leaf : conjLeaf T Layout.rowMajor.code (cblasTransOf mode) = false)
    (conjugated : mode = .conjTrans) : Scalar.isComplex T = false := by
  by_contra complex
  rw [(conj_leaf_iff .rowMajor mode).mpr ⟨Bool.of_not_eq_false complex, rfl, conjugated⟩] at leaf
  exact nomatch leaf

end Storage

end Cblas

end Zynum
