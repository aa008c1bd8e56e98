import Zynum.Abi.CblasHermitianRank
import Zynum.Abi.CblasSymmetric

set_option autoImplicit false

/- The Hermitian families through CBLAS. Their row-major wrappers turn the triangle over
   and conjugate nothing, so they are right where a conjugate does not show. -/
namespace Zynum

open ArrayProgram

variable {T : Type}

-- chemv, chpmv and chbmv, by the storage of their triangle.
structure HermitianProductCall (T : Type) where
  store : TriangularStore T
  uplo : Triangle
  n : Int
  alpha : T
  x : Mem T
  incx : Int
  beta : T
  incy : Int

structure HermitianProductCall.Valid (call : HermitianProductCall T) : Prop where
  size : 0 ≤ call.n
  fits : call.store.Fits call.n
  stepx : call.incx ≠ 0
  stepy : call.incy ≠ 0

inductive HermitianCall (T : Type) where
  | product (call : HermitianProductCall T) (y : Mem T)
  | update (call : RankCall T) (store : RankStorage) (a : Mem T)
  | rank (call : HermitianRankCall T) (c : Mem T)

variable [CommRing T] [Scalar T]

namespace HermitianProductCall

variable (call : HermitianProductCall T) (layout : Layout)

def matrix : Nat → Nat → T := completion true call.uplo (call.store.entry layout call.uplo (toUsize call.n))

variable [DecidableEq T]

-- In every environment, and from any storage of the matrix, y gets the product.
def Right (y : Mem T) : Prop :=
  ∀ store : TriangularStore T, store.Fits call.n →
    SameStored true call.uplo (toUsize call.n) (store.entry layout call.uplo (toUsize call.n))
      (call.store.entry layout call.uplo (toUsize call.n)) →
    ∀ env, ∃ after,
      store.symmetricMultiply env true layout call.uplo call.n call.alpha call.x call.incx call.beta y call.incy = some after ∧
        Wrote (Set.Iio (toUsize call.n)) (fun i => ix (startIndex call.n call.incy) i call.incy)
          (matrixVectorValue .noTrans call.n call.n call.alpha (call.matrix layout) call.x call.incx call.beta) y after

omit [DecidableEq T] in
def row (entry : Nat → Nat → T) (i : Nat) : T :=
  call.alpha * ∑ j ∈ Finset.range (toUsize call.n), entry i j * vectorGet call.x (startIndex call.n call.incx) j call.incx

omit [DecidableEq T] in
def Harmless : Prop :=
  ∀ i, i < toUsize call.n → call.row (fun i j => conj (call.matrix .rowMajor i j)) i = call.row (call.matrix .rowMajor) i

variable [LawfulScalar T]

theorem multiply_wrote (valid : call.Valid) (store : TriangularStore T) (fits : store.Fits call.n)
    (same : SameStored true call.uplo (toUsize call.n) (store.entry layout call.uplo (toUsize call.n))
      (call.store.entry layout call.uplo (toUsize call.n))) (env : ProductEnv T) (y : Mem T) :
    ∃ after,
      store.symmetricMultiply env true layout call.uplo call.n call.alpha call.x call.incx call.beta y call.incy = some after ∧
        Wrote (Set.Iio (toUsize call.n)) (fun i => ix (startIndex call.n call.incy) i call.incy)
          (fun i old => call.row (fun i j => conjugateIf (call.matrix layout i j) (decide (layout = .rowMajor))) i + call.beta * old)
          y after := by
  obtain ⟨total, runs, updates⟩ := store.symmetric_multiply_updates env true layout call.uplo call.n call.alpha call.x call.incx
    call.beta call.incy valid.size fits valid.stepx valid.stepy
  refine ⟨total y, runs y, (updates.wrote y).congr (fun i old inside => ?_)⟩
  refine (matrix_vector_value_congr .noTrans call.n call.n call.alpha _ (fun i j =>
    conjugateIf (call.matrix layout i j) (decide (layout = .rowMajor))) (fun r s inRow inColumn => ?_) call.x call.incx call.beta i old
    inside).trans rfl
  rw [same_stored_completion true call.uplo (toUsize call.n) _ _ same r s inRow inColumn, Bool.true_and]
  rfl

theorem column_right (valid : call.Valid) (y : Mem T) : call.Right .colMajor y := by
  intro store fits same env
  exact call.multiply_wrote .colMajor valid store fits same env y

theorem row_right_iff (valid : call.Valid) (y : Mem T) : call.Right .rowMajor y ↔ call.Harmless := by
  constructor
  · intro right
    have mine : SameStored true call.uplo (toUsize call.n) (call.store.entry .rowMajor call.uplo (toUsize call.n))
        (call.store.entry .rowMajor call.uplo (toUsize call.n)) := ⟨fun _ _ _ _ _ _ => rfl, fun _ _ => rfl⟩
    obtain ⟨after, runs, wrote⟩ := call.multiply_wrote .rowMajor valid call.store valid.fits mine (ProductEnv.portable T) y
    obtain ⟨after', runs', wanted⟩ := right call.store valid.fits mine (ProductEnv.portable T)
    cases Option.some.inj (runs'.symm.trans runs)
    exact (wrote_added_iff wrote).mp wanted
  · intro harmless store fits same env
    obtain ⟨after, runs, wrote⟩ := call.multiply_wrote .rowMajor valid store fits same env y
    exact ⟨after, runs, (wrote_added_iff wrote).mpr harmless⟩

end HermitianProductCall

section Updates

variable (call : RankCall T) (layout : Layout) (store : RankStorage) (a : Mem T)

-- The calls of cher, chpr, cher2 and chpr2.
structure RankCall.HermitianValid (call : RankCall T) (store : RankStorage) : Prop where
  hermitian : call.operation.hermitian = true
  size : 0 ≤ call.n
  regular : call.Regular
  accepts : store.Accepts call.n

def RankCall.HermitianHarmless : Prop := ∀ i j, (i, j) ∈ call.cells → conj (call.added i j) = call.added i j

variable [DecidableEq T]

-- Without a scalar nothing is touched.
def RankCall.effect (cell : Nat × Nat) (old : T) : T := if call.scalar = 0 then old else call.target cell old

def RankCall.Right : Prop :=
  ∀ tuning float rt site, Wrote call.cells (layout.trianglePlace store call.uplo call.order) call.effect a
    (call.cblas layout tuning float rt site store a)

variable [LawfulScalar T]

omit [DecidableEq T] in
theorem added_diagonal_real (hermitian : call.operation.hermitian = true) (i : Nat) : conj (call.added i i) = call.added i i := by
  have mirrored := added_mirror call i i
  rw [hermitian] at mirrored
  exact mirrored.symm

variable {call store}

omit [LawfulScalar T] in
theorem layout_effect (hermitian : call.operation.hermitian = true) (cell : Nat × Nat) (old : T) (active : call.scalar ≠ 0)
    (same : layout = .rowMajor → conj (call.added cell.1 cell.2) = call.added cell.1 cell.2) :
    call.layoutTarget layout cell old = call.effect cell old := by
  rw [RankCall.effect, if_neg active, RankCall.layoutTarget, RankCall.target, DenseRankOperation.target, hermitian]
  cases layout with
  | colMajor => rfl
  | rowMajor => exact congrArg (clearedIf _) (congrArg (old + ·) (same rfl))

theorem update_wrote (valid : call.HermitianValid store) (harmless : layout = .rowMajor → call.HermitianHarmless) :
    call.Right layout store a := by
  intro tuning float rt site
  by_cases nothing : call.scalar = 0
  · rw [call_layout_idle layout tuning float rt site call valid.size valid.regular valid.accepts (.inr nothing)]
    exact ⟨fun cell _ => (if_pos nothing).symm, fun _ _ => rfl⟩
  · refine ((call_layout_updates layout tuning float rt site call valid.size valid.regular valid.accepts
      (fun _ => nothing)).wrote a).congr (fun cell old member => ?_)
    exact layout_effect layout valid.hermitian cell old nothing (fun rows => harmless rows cell.1 cell.2 member)

theorem update_right_iff (valid : call.HermitianValid store) : call.Right .rowMajor store a ↔ call.HermitianHarmless := by
  constructor
  · intro right i j member
    by_cases diagonal : i = j
    · rw [diagonal]
      exact added_diagonal_real call valid.hermitian j
    · by_cases nothing : call.scalar = 0
      · rw [RankCall.added, nothing, added_zero, conj_zero]
      · have updates := call_layout_updates .rowMajor RankUpdateProfile.production FloatArithmetic.fixedPoint Runtime.sequential []
          call valid.size valid.regular valid.accepts (fun _ => nothing)
        have equal := (updates.written a (i, j) member).symm.trans
          ((right RankUpdateProfile.production FloatArithmetic.fixedPoint Runtime.sequential []).written (i, j) member)
        rw [RankCall.effect, if_neg nothing, RankCall.layoutTarget, RankCall.target, DenseRankOperation.target, valid.hermitian] at equal
        have off : decide ((i, j).1 = (i, j).2) = false := decide_eq_false diagonal
        rw [off, Bool.and_false] at equal
        exact add_left_cancel equal
  · intro harmless
    exact update_wrote .rowMajor a valid (fun _ => harmless)

end Updates

namespace HermitianCall

variable (call : HermitianCall T) (layout : Layout)

def Valid : Prop :=
  match call with
  | .product call _ => call.Valid
  | .update call store _ => call.HermitianValid store
  | .rank call _ => call.Valid layout

def Harmless : Prop :=
  match call with
  | .product call _ => call.Harmless
  | .update call _ _ => call.HermitianHarmless
  | .rank call c => call.Harmless c

variable [DecidableEq T]

-- The call leaves what the operation makes of the matrices laid out so.
def Right : Prop :=
  match call with
  | .product call y => call.Right layout y
  | .update call store a => call.Right layout store a
  | .rank call c => call.Right layout c

variable [LawfulScalar T]

theorem column_right (valid : call.Valid .colMajor) : call.Right .colMajor := by
  cases call with
  | product call y => exact call.column_right valid y
  | update call store a => exact update_wrote .colMajor a valid (fun rows => by cases rows)
  | rank call c => exact call.column_right valid c

theorem row_right_iff (complex : Scalar.isComplex T = true) (definite : ∀ z : T, conj z * z + z * conj z = 0 → z = 0)
    (valid : call.Valid .rowMajor) : call.Right .rowMajor ↔ call.Harmless := by
  cases call with
  | product call y => exact call.row_right_iff valid y
  | update call store a => exact update_right_iff a valid
  | rank call c => exact call.row_right_iff valid complex definite c

end HermitianCall

section Complex

variable {R : Type} [CommRing R] [LinearOrder R] [IsStrictOrderedRing R]

theorem complex_definite (precision : Precision) :
    let _ := complexKind R precision
    ∀ z : Cplx R, conj z * z + z * conj z = 0 → z = 0 := by
  intro kind z vanishes
  have parts : z.re * z.re - -z.im * z.im + (z.re * z.re - z.im * -z.im) = 0 := congrArg Cplx.re vanishes
  have modulus : z.re * z.re + z.im * z.im = 0 := by linarith
  obtain ⟨real, imaginary⟩ := mul_self_add_mul_self_eq_zero.mp modulus
  exact Cplx.ext_parts real imaginary

theorem hermitian_layouts_exactly (precision : Precision) :
    let _ := complexKind R precision
    ∀ call : HermitianCall (Cplx R), (call.Valid .colMajor → call.Right .colMajor) ∧
      (call.Valid .rowMajor → (call.Right .rowMajor ↔ call.Harmless)) := by
  intro kind call
  have lawful := complex_kind_lawful R precision
  exact ⟨call.column_right, call.row_right_iff rfl (complex_definite precision)⟩

end Complex

section Runs

-- The matrix (0, i; -i, 0), by its upper triangle, times (0, 1): the first row gives i.
def imaginaryProduct : HermitianCall (Cplx Int) :=
  .product ⟨.dense (fun p => if p = 1 then ⟨0, 1⟩ else 0) 2, .upper, 2, 1, fun p => if p = 1 then 1 else 0, 1, 0, 1⟩ (fun _ => 0)

theorem row_major_product_conjugated :
    let _ := complexKind Int .double
    imaginaryProduct.Valid .rowMajor ∧ ¬ imaginaryProduct.Right .rowMajor := by
  intro kind
  have lawful := complex_kind_lawful Int .double
  have valid : imaginaryProduct.Valid .rowMajor := ⟨by decide, show max1 2 ≤ 2 by decide, by decide, by decide⟩
  refine ⟨valid, fun right => ?_⟩
  have hidden := (imaginaryProduct.row_right_iff rfl (complex_definite .double) valid).mp right
  exact absurd (hidden 0 (show 0 < 2 by decide)) (by decide)

end Runs

end Zynum
