import Zynum.MatrixMatrix.RankUpdate
import Zynum.MatrixMatrix.SymmetricExact

set_option autoImplicit false

/- What a rank update stores, and the tiles and rectangles its blocked routes
   store it by. -/
namespace Zynum

open ArrayProgram

structure RankProblem (T : Type) where
  rankTwo : Bool
  herm : Bool
  uplo : Triangle
  mode : TransposeMode
  n : Nat
  k : Nat
  alpha : T
  a : Mem T
  lda : Int
  b : Mem T
  ldb : Int
  beta : T
  ldc : Int

def triangleCells (uplo : Triangle) (n : Nat) : Set (Nat × Nat) :=
  {cell | cell ∈ matrixCells n n ∧ stored uplo cell.1 cell.2 = true}

-- The mode the blocked products use: any transpose becomes the one of the routine.
def canonicalMode (herm : Bool) (mode : TransposeMode) : TransposeMode :=
  if mode = .noTrans then .noTrans else if herm then .conjTrans else .trans

namespace RankProblem

variable {T : Type}

def canonical (P : RankProblem T) : RankProblem T := { P with mode := canonicalMode P.herm P.mode }

def cells (P : RankProblem T) : Set (Nat × Nat) := triangleCells P.uplo P.n

def onDiagonal (P : RankProblem T) (cell : Nat × Nat) : Bool := P.herm && decide (cell.1 = cell.2)

variable [Scalar T]

def left (P : RankProblem T) (i p : Nat) : T := opEntry P.mode (denseEntry P.a P.lda) i p

def right (P : RankProblem T) (i p : Nat) : T := opEntry P.mode (denseEntry P.b P.ldb) i p

-- What the exports guarantee: positive steps, room for n rows, and real scalars
-- where a Hermitian routine takes a real argument.
structure Admissible (P : RankProblem T) : Prop where
  stepa : 0 < P.lda
  stepb : 0 < P.ldb
  stepc : 0 < P.ldc
  bound : (P.n : Int) ≤ P.ldc
  realAlpha : P.herm = true → P.rankTwo = false → realOnly P.alpha = P.alpha
  realBeta : P.herm = true → realOnly P.beta = P.beta
  sameOperand : P.rankTwo = false → P.b = P.a ∧ P.ldb = P.lda

theorem Admissible.canonical {P : RankProblem T} (admissible : P.Admissible) : P.canonical.Admissible :=
  ⟨admissible.stepa, admissible.stepb, admissible.stepc, admissible.bound, admissible.realAlpha, admissible.realBeta,
    admissible.sameOperand⟩

variable [CommRing T]

-- alpha op(A) op(A)^T, or the two terms of a rank-two update; ^H when Hermitian.
def update (P : RankProblem T) (i j : Nat) : T :=
  P.alpha * ∑ p ∈ Finset.range P.k, P.left i p * conjugateIf (P.right j p) P.herm +
    if P.rankTwo then
      conjugateIf P.alpha P.herm * ∑ p ∈ Finset.range P.k, P.right i p * conjugateIf (P.left j p) P.herm
    else 0

-- beta C, with the diagonal of a Hermitian C taken as real.
def keep (P : RankProblem T) (cell : Nat × Nat) (old : T) : T :=
  P.beta * clearImaginary (P.onDiagonal cell) old

def target (P : RankProblem T) (cell : Nat × Nat) (old : T) : T := P.update cell.1 cell.2 + P.keep cell old

end RankProblem

variable {T : Type} [CommRing T] [Scalar T]

omit [CommRing T] in
theorem cells_injective (P : RankProblem T) (admissible : P.Admissible) : Set.InjOn (cellAddress P.ldc) P.cells := by
  have bound := admissible.bound
  exact (matrix_cells_injective P.n P.n P.ldc (by simp only [toUsize]; omega)).mono (fun _ member => member.1)

section Values

variable [LawfulScalar T]

theorem realOnly_zero : realOnly (0 : T) = 0 := map_zero (realOnlyHom T)

theorem realOnly_one : realOnly (1 : T) = 1 := by
  have square := LawfulScalar.realOnly_mul_conj (1 : T)
  rwa [LawfulScalar.conj_one, mul_one] at square

theorem realOnly_trace (z : T) : realOnly (z + conj z) = z + conj z := by
  have square := LawfulScalar.realOnly_mul_conj (1 + z)
  have expanded : (1 + z) * conj (1 + z) = 1 + (z + conj z) + z * conj z := by
    rw [LawfulScalar.conj_add, LawfulScalar.conj_one]
    ring
  rw [expanded, LawfulScalar.realOnly_add, LawfulScalar.realOnly_add, LawfulScalar.realOnly_mul_conj, realOnly_one] at square
  exact add_left_cancel (add_right_cancel square)

theorem scaled_stored_value_exact (beta source : T) (diagonal : Bool) :
    scaledStoredValue beta source diagonal = if diagonal then realOnly beta * realOnly source else beta * source := by
  rw [scaledStoredValue]
  by_cases nothing : isZero beta = true
  · rw [if_pos nothing, (LawfulScalar.isZero_iff beta).mp nothing, realOnly_zero]
    split <;> rw [zero_mul]
  · rw [if_neg nothing]
    by_cases component : Scalar.isComplex T = true ∧ diagonal = true
    · rw [if_pos component, if_pos component.2]
    · rw [if_neg component]
      have whole : (if isOne beta = true then source else beta * source) = beta * source := by
        split
        · rename_i one
          rw [(LawfulScalar.isOne_iff beta).mp one, one_mul]
        · rfl
      rw [whole]
      split
      · rename_i onDiagonal
        have real : Scalar.isComplex T = false := Bool.of_not_eq_true (fun complex => component ⟨complex, onDiagonal⟩)
        rw [LawfulScalar.realOnly_real real, LawfulScalar.realOnly_real real]
      · rfl

theorem update_diagonal_real (P : RankProblem T) (admissible : P.Admissible) (hermitian : P.herm = true) (i : Nat) :
    realOnly (P.update i i) = P.update i i := by
  simp only [RankProblem.update, hermitian, conjugateIf, if_true]
  cases kind : P.rankTwo with
  | false =>
    obtain ⟨same, sameStep⟩ := admissible.sameOperand kind
    have mirrored : ∀ p, P.right i p = P.left i p := fun p => by
      simp only [RankProblem.right, RankProblem.left, same, sameStep]
    simp only [Bool.false_eq_true, if_false, add_zero, mirrored]
    rw [LawfulScalar.realOnly_scale _ _ (admissible.realAlpha hermitian kind), realOnly_sum]
    simp only [LawfulScalar.realOnly_mul_conj]
  | true =>
    have mirrored : conj P.alpha * ∑ p ∈ Finset.range P.k, P.right i p * conj (P.left i p) =
        conj (P.alpha * ∑ p ∈ Finset.range P.k, P.left i p * conj (P.right i p)) := by
      rw [LawfulScalar.conj_mul, conj_sum]
      congr 1
      refine Finset.sum_congr rfl (fun p _ => ?_)
      rw [LawfulScalar.conj_mul, LawfulScalar.conj_conj, mul_comm]
    rw [if_pos rfl, mirrored, realOnly_trace]

-- What every route stores into a cell from the product it has computed for it.
theorem committed_value (P : RankProblem T) (admissible : P.Admissible) (cell : Nat × Nat) (old : T) :
    clearImaginary (P.onDiagonal cell) (P.update cell.1 cell.2 + scaledStoredValue P.beta old (P.onDiagonal cell)) =
      P.target cell old := by
  rw [scaled_stored_value_exact, RankProblem.target, RankProblem.keep]
  cases diagonal : P.onDiagonal cell with
  | false => rfl
  | true =>
    simp only [RankProblem.onDiagonal, Bool.and_eq_true, decide_eq_true_eq] at diagonal
    simp only [clearImaginary, if_true]
    rw [admissible.realBeta diagonal.1, LawfulScalar.realOnly_add,
      LawfulScalar.realOnly_scale _ _ (admissible.realBeta diagonal.1), LawfulScalar.realOnly_idem, ← diagonal.2,
      update_diagonal_real P admissible diagonal.1]

theorem target_diagonal_real (P : RankProblem T) (admissible : P.Admissible) (hermitian : P.herm = true) (i : Nat) (old : T) :
    realOnly (P.target (i, i) old) = P.target (i, i) old := by
  have diagonal : P.onDiagonal (i, i) = true := by simp only [RankProblem.onDiagonal, hermitian, decide_true, Bool.and_self]
  rw [← committed_value P admissible, diagonal]
  exact LawfulScalar.realOnly_idem _

omit [LawfulScalar T] in
theorem target_off_diagonal (P : RankProblem T) (cell : Nat × Nat) (old : T) (apart : cell.1 ≠ cell.2) :
    P.target cell old = P.update cell.1 cell.2 + P.beta * old := by
  simp only [RankProblem.target, RankProblem.keep, RankProblem.onDiagonal, apart, decide_false, Bool.and_false,
    clearImaginary, Bool.false_eq_true, if_false]

end Values

section Products

variable [LawfulScalar T]

theorem rank_product_updates (gemm : GemmRoutine T) (rt : Runtime) (site : Site) (mode : TransposeMode) (herm : Bool)
    (row col rows cols k : Nat) (alpha : T) (a : Mem T) (lda : Int) (b : Mem T) (ldb : Int) (beta : T) (ldTile : Int)
    (stepa : 0 < lda) (stepb : 0 < ldb) (stepc : 0 < ldTile) (bound : (rows : Int) ≤ ldTile) :
    Updates (matrixCells rows cols) (cellAddress ldTile)
      (gemmValue alpha (fun i p => opEntry (canonicalMode herm mode) (denseEntry a lda) (row + i) p)
        (fun p j => conjugateIf (opEntry (canonicalMode herm mode) (denseEntry b ldb) (col + j) p) herm) k beta)
      (rankProduct gemm rt site mode herm rows cols k alpha (rankOperandBase mode a lda row) lda
        (rankOperandBase mode b ldb col) ldb beta ldTile) := by
  by_cases straight : mode = .noTrans
  · subst straight
    have product := gemm.product_updates rt site .noTrans (if herm then .conjTrans else .trans) rows cols k alpha
      (rankOperandBase .noTrans a lda row) lda (rankOperandBase .noTrans b ldb col) ldb beta ldTile stepa stepb stepc bound
      (fun i p => opEntry (canonicalMode herm .noTrans) (denseEntry a lda) (row + i) p)
      (fun p j => conjugateIf (opEntry (canonicalMode herm .noTrans) (denseEntry b ldb) (col + j) p) herm)
      (fun i p _ _ => by
        simp only [canonicalMode, if_true, opEntry, denseEntry, rankOperandBase, view_apply, matIndex, Nat.add_assoc])
      (fun p j _ _ => by
        cases herm <;>
          simp only [canonicalMode, if_true, opEntry, denseEntry, rankOperandBase, view_apply, matIndex, Nat.add_assoc,
            conjugateIf, Bool.false_eq_true, if_false])
    exact product.congr_run (fun tile => by rw [rankProduct, if_pos rfl])
  · have product := gemm.product_updates rt site (if herm then .conjTrans else .trans) .noTrans rows cols k alpha
      (rankOperandBase mode a lda row) lda (rankOperandBase mode b ldb col) ldb beta ldTile stepa stepb stepc bound
      (fun i p => opEntry (canonicalMode herm mode) (denseEntry a lda) (row + i) p)
      (fun p j => conjugateIf (opEntry (canonicalMode herm mode) (denseEntry b ldb) (col + j) p) herm)
      (fun i p _ _ => by
        cases herm <;>
          simp only [canonicalMode, straight, if_true, if_false, Bool.false_eq_true, opEntry, denseEntry, rankOperandBase,
            view_apply, mat_index_offset, Nat.zero_add])
      (fun p j _ _ => by
        cases herm <;>
          simp only [canonicalMode, straight, if_true, if_false, Bool.false_eq_true, opEntry, denseEntry, rankOperandBase,
            view_apply, mat_index_offset, Nat.zero_add, conjugateIf, LawfulScalar.conj_conj])
    exact product.congr_run (fun tile => by rw [rankProduct, if_neg straight])

theorem rank_products_updates (P : RankProblem T) (admissible : P.Admissible) (gemm : GemmRoutine T) (rt : Runtime)
    (site : Site) (row col rows cols : Nat) (beta : T) (ldTile : Int) (stepc : 0 < ldTile) (bound : (rows : Int) ≤ ldTile) :
    Updates (matrixCells rows cols) (cellAddress ldTile)
      (fun cell old => P.canonical.update (row + cell.1) (col + cell.2) + beta * old)
      (rankProducts gemm rt site P.rankTwo P.mode P.herm row col rows cols P.k P.alpha P.a P.lda P.b P.ldb beta ldTile) := by
  have first := rank_product_updates gemm rt (0 :: site) P.mode P.herm row col rows cols P.k P.alpha P.a P.lda P.b P.ldb beta
    ldTile admissible.stepa admissible.stepb stepc bound
  cases kind : P.rankTwo with
  | false =>
    refine (first.congr rfl (fun cell old _ => ?_)).congr_run (fun tile => ?_)
    · simp only [RankProblem.update, RankProblem.canonical, kind, Bool.false_eq_true, if_false, add_zero]
      rfl
    · simp only [rankProducts, Bool.false_eq_true, if_false]
  | true =>
    have second := rank_product_updates gemm rt (1 :: site) P.mode P.herm row col rows cols P.k (conjugateIf P.alpha P.herm)
      P.b P.ldb P.a P.lda 1 ldTile admissible.stepb admissible.stepa stepc bound
    refine ((first.then_same second).congr rfl (fun cell old _ => ?_)).congr_run (fun tile => ?_)
    · simp only [RankProblem.update, RankProblem.canonical, kind, if_true, RankProblem.left, RankProblem.right, gemmValue]
      ring
    · simp only [rankProducts, if_true]

theorem commit_rank_tile_updates (P : RankProblem T) (admissible : P.Admissible) (tile : Mem T) (row col rows cols : Nat)
    (fits : row + rows ≤ P.n)
    (filled : ∀ i j, i < rows → j < cols → tile (i + j * rows) = P.update (row + i) (col + j)) :
    Updates {cell | cell ∈ tileCells row rows col cols ∧ stored P.uplo cell.1 cell.2 = true} (cellAddress P.ldc) P.target
      (commitRankTile P.uplo P.herm row col rows cols P.beta tile P.ldc) := by
  have bound := admissible.bound
  have injective : Set.InjOn (fun cell : Nat × Nat => cellAddress P.ldc (row + cell.1, col + cell.2))
      {cell | cell.1 < rows ∧ cell.2 < cols} := by
    intro first inFirst second inSecond same
    have equal := cell_address_injective P.ldc P.n (by simp only [toUsize]; omega)
      (show (row + first.1, col + first.2) ∈ _ from Nat.lt_of_lt_of_le (Nat.add_lt_add_left inFirst.1 row) fits)
      (show (row + second.1, col + second.2) ∈ _ from Nat.lt_of_lt_of_le (Nat.add_lt_add_left inSecond.1 row) fits) same
    simp only [Prod.mk.injEq] at equal
    exact Prod.ext (Nat.add_left_cancel equal.1) (Nat.add_left_cancel equal.2)
  have kept := updates_grid_where rows cols (fun cell => stored P.uplo (row + cell.1) (col + cell.2))
    (fun cell => cellAddress P.ldc (row + cell.1, col + cell.2))
    (fun cell old => clearImaginary (P.onDiagonal (row + cell.1, col + cell.2))
      (tile (cell.1 + cell.2 * rows) + scaledStoredValue P.beta old (P.onDiagonal (row + cell.1, col + cell.2)))) injective
  have placed : Updates {cell : Nat × Nat | (cell.1 < rows ∧ cell.2 < cols) ∧
      stored P.uplo (row + cell.1) (col + cell.2) = true} (fun cell => cellAddress P.ldc (row + cell.1, col + cell.2))
      (fun cell => P.target (row + cell.1, col + cell.2)) (commitRankTile P.uplo P.herm row col rows cols P.beta tile P.ldc) := by
    refine kept.congr rfl (fun cell old member => ?_)
    rw [filled cell.1 cell.2 member.1.1 member.1.2]
    exact committed_value P admissible (row + cell.1, col + cell.2) old
  refine (placed.reindex (fun cell : Nat × Nat => (row + cell.1, col + cell.2))).congr ?_ (fun _ _ _ => rfl)
  ext ⟨i, j⟩
  constructor
  · rintro ⟨⟨r, s⟩, ⟨⟨inRows, inColumns⟩, inside⟩, same⟩
    cases same
    simp only at inRows inColumns
    exact ⟨⟨⟨Nat.le_add_right _ _, Nat.add_lt_add_left inRows row⟩, Nat.le_add_right _ _,
      Nat.add_lt_add_left inColumns col⟩, inside⟩
  · rintro ⟨⟨⟨rowLower, rowUpper⟩, columnLower, columnUpper⟩, inside⟩
    simp only at rowLower rowUpper columnLower columnUpper inside
    have rowPlace : row + (i - row) = i := by omega
    have columnPlace : col + (j - col) = j := by omega
    refine ⟨(i - row, j - col), ⟨⟨?_, ?_⟩, ?_⟩, ?_⟩
    · simp only
      omega
    · simp only
      omega
    · simp only [rowPlace, columnPlace]
      exact inside
    · simp only [rowPlace, columnPlace]

theorem rank_tile_updates (P : RankProblem T) (admissible : P.Admissible) (env : Level3Env T) (rt : Runtime) (site : Site)
    (row col rows cols : Nat) (some : 0 < rows) (fits : row + rows ≤ P.n) :
    Updates {cell | cell ∈ tileCells row rows col cols ∧ stored P.uplo cell.1 cell.2 = true} (cellAddress P.ldc)
      P.canonical.target
      (rankTile env rt site P.rankTwo P.uplo P.mode P.herm row col rows cols P.k P.alpha P.a P.lda P.b P.ldb P.beta P.ldc) := by
  refine commit_rank_tile_updates P.canonical admissible.canonical _ row col rows cols fits (fun i j inRows inColumns => ?_)
  have product := (rank_products_updates P admissible env.gemm rt (row :: col :: site) row col rows cols 0 rows (by omega)
    (Int.le_refl _)).written (env.scratch (row :: col :: site)) (i, j) ⟨inRows, inColumns⟩
  rw [cellAddress, mat_index_natural, zero_mul, add_zero] at product
  exact product

theorem rank_direct_updates (P : RankProblem T) (admissible : P.Admissible) (env : Level3Env T) (rt : Runtime) (site : Site)
    (first col rows cols : Nat) (fits : first + rows ≤ P.n)
    (apart : ∀ cell, cell ∈ tileCells first rows col cols → cell.1 ≠ cell.2) :
    Updates (tileCells first rows col cols) (cellAddress P.ldc) P.canonical.target
      (rankDirect env rt site P.rankTwo P.mode P.herm first col rows cols P.k P.alpha P.a P.lda P.b P.ldb P.beta P.ldc) := by
  have bound := admissible.bound
  refine updates_guard (rows > 0) (fun _ => ?_) (fun none => ?_)
  · have product := rank_products_updates P admissible env.gemm rt (first :: col :: site) first col rows cols P.beta P.ldc
      admissible.stepc (by omega)
    have placed := tile_updates product first col
      (fun cell old => P.canonical.update cell.1 cell.2 + P.beta * old) (fun _ _ _ _ _ => rfl)
    exact placed.congr rfl (fun cell old member => (target_off_diagonal P.canonical cell old (apart cell member)).symm)
  · refine (updates_nothing _ _).congr ?_ (fun _ _ _ => rfl)
    ext cell
    simp only [tileCells, Set.mem_empty_iff_false, Set.mem_ofPred_eq, false_iff]
    omega

end Products

end Zynum
