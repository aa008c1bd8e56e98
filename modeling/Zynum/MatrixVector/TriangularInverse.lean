import Zynum.MatrixVector.CompactTriangularExact

set_option autoImplicit false

/- Multiply and solve undo each other on dense, packed and banded storage, and the
   three storages of one matrix give one result. -/
namespace Zynum

open ArrayProgram

-- Complex division over an ordered field: the square of the modulus does not vanish.
instance {K : Type} [Field K] [LinearOrder K] [IsStrictOrderedRing K] : ExactDivision (Cplx K) where
  div_mul a b nonzero := by
    have modulus : b.re * b.re + b.im * b.im ≠ 0 := by
      intro vanishes
      have parts := mul_self_add_mul_self_eq_zero.mp vanishes
      exact nonzero (Cplx.ext_parts parts.1 parts.2)
    change (⟨(a.re * b.re + a.im * b.im) / (b.re * b.re + b.im * b.im),
      (a.im * b.re - a.re * b.im) / (b.re * b.re + b.im * b.im)⟩ : Cplx K) * b = a
    ext
    · rw [Cplx.mul_re, div_mul_eq_mul_div, div_mul_eq_mul_div, ← sub_div, div_eq_iff modulus]
      ring
    · rw [Cplx.mul_im, div_mul_eq_mul_div, div_mul_eq_mul_div, ← add_div, div_eq_iff modulus]
      ring

section Storages

variable {T : Type} [CommRing T] [Scalar T]

def NonzeroDiagonal (diag : Diagonal) (n : Int) (entry : Nat → Nat → T) : Prop :=
  diag = .nonUnit → ∀ d, d < toUsize n → entry d d ≠ 0

def SameTriangle (uplo : Triangle) (diag : Diagonal) (n : Int) (entry entry' : Nat → Nat → T) : Prop :=
  ∀ i j, i < toUsize n → j < toUsize n → stored uplo i j = true → (diag = .unit → i ≠ j) → entry i j = entry' i j

variable [LawfulScalar T]
variable {uplo : Triangle} {mode : TransposeMode} {diag : Diagonal} {n : Int} {entry entry' : Nat → Nat → T}

omit [LawfulScalar T] in
theorem SameTriangle.triangle (same : SameTriangle uplo diag n entry entry') (d p : Nat) (inRow : d ∈ Finset.range (toUsize n))
    (inColumn : p ∈ Finset.range (toUsize n)) : triangle uplo diag mode entry d p = triangle uplo diag mode entry' d p := by
  refine triangle_congr uplo diag mode entry entry' d p (fun i j place inside off => ?_)
  simp only [Finset.mem_range] at inRow inColumn
  rcases place with ⟨rfl, rfl⟩ | ⟨rfl, rfl⟩
  · exact same i j inRow inColumn inside off
  · exact same i j inColumn inRow inside off

theorem NonzeroDiagonal.regular (nonzero : NonzeroDiagonal diag n entry) :
    Regular diag (toUsize n) (Zynum.triangle uplo diag mode entry) := by
  refine triangle_regular (fun kind d inside => ?_)
  rw [triangle_diagonal, if_neg (by rw [kind]; exact nofun)]
  have raw := nonzero kind d inside
  cases mode with
  | noTrans => exact raw
  | trans => exact raw
  | conjTrans =>
    intro vanishes
    have back := congrArg conj vanishes
    rw [conj_zero] at back
    exact raw ((LawfulScalar.conj_conj _).symm.trans back)

variable [Div T] [ExactDivision T]

omit [Scalar T] [LawfulScalar T] in
theorem Regular.units {order : Nat} {M : Nat → Nat → T} (regular : Regular diag order M) (d : Nat) (inside : d < order) :
    IsUnit (M d d) := by
  cases kind : diag with
  | nonUnit => exact exact_unit _ (regular.nonzero kind d inside)
  | unit =>
    rw [regular.one kind d inside]
    exact isUnit_one

omit [LawfulScalar T] in
theorem triangle_solvable (regular : Regular diag (toUsize n) (Zynum.triangle uplo diag mode entry)) (lanes : Set Nat)
    (rhs : Nat → Nat → T) :
    ∃ X, IsSolution (Finset.range (toUsize n)) lanes (Zynum.triangle uplo diag mode entry) X rhs :=
  triangular_solution_exists (toUsize n) _ (opIsUpper uplo mode) (triangle_to uplo diag mode entry _) regular.units lanes rhs

end Storages

section Claims

variable {T : Type} [CommRing T] [Scalar T] [LawfulScalar T] [Div T] [ExactDivision T]

theorem triangular_routines_inverse (env env' : CompactEnv) (rt rt' : Runtime) (site site' : Site) (uplo : Triangle)
    (mode : TransposeMode) (diag : Diagonal) (n k incx : Int) (a ap ab : Mem T) (lda ldab : Int) (nonzero : incx ≠ 0)
    (wide : 0 ≤ k) (fits : k + 1 ≤ ldab) :
    let multiply := fun x => trmv env.toVectorEnv rt site uplo mode diag n a lda x incx
    let solve := fun x => trsv env'.toVectorEnv rt' site' uplo mode diag n a lda x incx
    let multiplyPacked := fun x => tpmvEntry env rt uplo mode diag n ap x incx
    let solvePacked := fun x => tpsvEntry env' rt' uplo mode diag n ap x incx
    let multiplyBand := fun x => tbmv env uplo mode diag n k ab ldab x incx
    let solveBand := fun x => tbsvEntry env' rt' uplo mode diag n k ab ldab x incx
    let dense := denseEntry a lda
    let packed := packedEntry uplo (toUsize n) ap
    let band := bandEntry uplo (toUsize k) ab ldab
    (NonzeroDiagonal diag n dense → ∀ x, solve (multiply x) = x ∧ multiply (solve x) = x) ∧
    (NonzeroDiagonal diag n packed → ∀ x, solvePacked (multiplyPacked x) = x ∧ multiplyPacked (solvePacked x) = x) ∧
    (NonzeroDiagonal diag n band → ∀ x, solveBand (multiplyBand x) = x ∧ multiplyBand (solveBand x) = x) ∧
    (SameTriangle uplo diag n packed dense → ∀ x, multiplyPacked x = multiply x ∧
      (NonzeroDiagonal diag n dense → solvePacked x = solve x)) ∧
    (SameTriangle uplo diag n band dense → ∀ x, multiplyBand x = multiply x ∧
      (NonzeroDiagonal diag n dense → solveBand x = solve x)) := by
  intro multiply solve multiplyPacked solvePacked multiplyBand solveBand dense packed band
  have multiplies : Meets (Product (Finset.range (toUsize n)) {0} (strideAddress n incx) (triangle uplo diag mode dense)
    1) multiply := by
    rw [← tri_value_triangle]
    exact trmv_product env.toVectorEnv rt site uplo mode diag n a lda incx nonzero
  have solves : NonzeroDiagonal diag n dense →
      Meets (Solution (Finset.range (toUsize n)) {0} (strideAddress n incx) (triangle uplo diag mode dense) 1) solve := by
    intro diagonal
    have regular : Regular diag (toUsize n) (triangle uplo diag mode dense) := diagonal.regular
    rw [← tri_value_triangle] at regular ⊢
    exact trsv_solution env'.toVectorEnv rt' site' n lda incx nonzero regular
  have multipliesPacked : Meets (Product (Finset.range (toUsize n)) {0} (strideAddress n incx)
      (triangle uplo diag mode packed) 1) multiplyPacked := tpmv_product env rt n incx ap nonzero
  have solvesPacked : NonzeroDiagonal diag n packed → Meets (Solution (Finset.range (toUsize n)) {0} (strideAddress n incx)
      (triangle uplo diag mode packed) 1) solvePacked := fun diagonal => tpsv_solution env' rt' n incx ap nonzero diagonal.regular
  have multipliesBand : Meets (Product (Finset.range (toUsize n)) {0} (strideAddress n incx)
      (triangle uplo diag mode band) 1) multiplyBand := tbmv_product env n incx k ab ldab wide fits nonzero
  have solvesBand : NonzeroDiagonal diag n band → Meets (Solution (Finset.range (toUsize n)) {0} (strideAddress n incx)
      (triangle uplo diag mode band) 1) solveBand := fun diagonal => tbsv_solution env' rt' n incx k ab ldab wide nonzero
      diagonal.regular
  have inverse : ∀ (entry : Nat → Nat → T) (forward back : Mem T → Mem T), NonzeroDiagonal diag n entry →
      Meets (Product (Finset.range (toUsize n)) {0} (strideAddress n incx) (triangle uplo diag mode entry) 1) forward →
      Meets (Solution (Finset.range (toUsize n)) {0} (strideAddress n incx) (triangle uplo diag mode entry) 1) back →
      ∀ x, back (forward x) = x ∧ forward (back x) = x := fun entry forward back diagonal product solution x =>
    ⟨solve_after_multiply product solution x, multiply_after_solve product solution x (triangle_solvable diagonal.regular _ _)⟩
  have agree : ∀ (entry : Nat → Nat → T) (forward back : Mem T → Mem T), SameTriangle uplo diag n entry dense →
      Meets (Product (Finset.range (toUsize n)) {0} (strideAddress n incx) (triangle uplo diag mode entry) 1) forward →
      (NonzeroDiagonal diag n entry →
        Meets (Solution (Finset.range (toUsize n)) {0} (strideAddress n incx) (triangle uplo diag mode entry) 1) back) →
      ∀ x, forward x = multiply x ∧ (NonzeroDiagonal diag n dense → back x = solve x) := by
    intro entry forward back same product solution x
    refine ⟨same_product (product.product_congr same.triangle) multiplies x, fun diagonal => ?_⟩
    have moved : NonzeroDiagonal diag n entry := fun kind d inside => by
      rw [same d d inside inside (stored_diagonal uplo d) (fun unit => nomatch unit.symm.trans kind)]
      exact diagonal kind d inside
    exact same_solution ((solution moved).solution_congr same.triangle) (solves diagonal) x (triangle_solvable diagonal.regular _ _)
  exact ⟨fun diagonal => inverse dense multiply solve diagonal multiplies (solves diagonal),
    fun diagonal => inverse packed multiplyPacked solvePacked diagonal multipliesPacked (solvesPacked diagonal),
    fun diagonal => inverse band multiplyBand solveBand diagonal multipliesBand (solvesBand diagonal),
    fun same => agree packed multiplyPacked solvePacked same multipliesPacked solvesPacked,
    fun same => agree band multiplyBand solveBand same multipliesBand solvesBand⟩

-- The leaf thresholds of a 512 by 512 problem, on a target with the isolated leaves.
def CompactEnv.production : CompactEnv where
  tuning := productionTriangular
  fixedBodies := false
  bandWindowMinN := 512
  bandWindowMaxFractionDenominator := 16
  packedX86MinN := 128
  isolatedEnabled := true

-- Dense, packed and banded storage, a vector stored backwards.
theorem triangular_routines_inverse_rational :
    let _ := realKind Rat .double
    let _ := real_kind_lawful Rat .double
    let env := CompactEnv.production
    let a : Mem Rat := fun p => (p : Rat) + 1
    ∀ x : Mem Rat,
      trsv env.toVectorEnv Runtime.sequential [] .upper .trans .nonUnit 7 a 8
        (trmv env.toVectorEnv (Runtime.splitting 4) [] .upper .trans .nonUnit 7 a 8 x (-2)) (-2) = x ∧
      tpsvEntry env Runtime.sequential .upper .trans .nonUnit 7 a
        (tpmvEntry env (Runtime.splitting 4) .upper .trans .nonUnit 7 a x (-2)) (-2) = x ∧
      tbmv env .upper .trans .nonUnit 7 2 a 4 (tbsvEntry env Runtime.sequential .upper .trans .nonUnit 7 2 a 4 x (-2)) (-2) = x := by
  intro kind lawful env a x
  have whole := triangular_routines_inverse env env (Runtime.splitting 4) Runtime.sequential [] [] .upper .trans .nonUnit 7 2 (-2)
    a a a 8 4 (by decide) (by decide) (by decide)
  have positive : ∀ p : Nat, a p ≠ 0 := fun p => ne_of_gt (Nat.cast_add_one_pos p)
  refine ⟨(whole.1 (fun _ d _ => positive _) x).1, (whole.2.1 (fun _ d _ => ?_) x).1, (whole.2.2.1 (fun _ d _ => ?_) x).2⟩
  · have slot : packedEntry .upper (toUsize 7) a d d = a (d * (d + 1) / 2 + d) := by
      rw [packedEntry, compactEntry, triPackedIndex, if_neg (Nat.lt_irrefl d)]
    exact slot ▸ positive _
  · have near : ¬ d + toUsize 2 < d := Nat.not_lt.mpr (Nat.le_add_right d _)
    rw [band_entry_upper _ a 4 d d le_rfl, if_neg near]
    exact positive _

end Claims

end Zynum
