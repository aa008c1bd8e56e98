import Zynum.Abi.Arguments

set_option autoImplicit false

/- The checks of abi/fortran.zig in the arithmetic of BlasInt, which is i32: a sum
   that leaves the range has no value (a safe build stops, a fast build may do
   anything). The checks that add nothing are those of Arguments. -/
namespace Zynum

def addBlasInt (a b : Int) : Option Int :=
  if -2147483648 ≤ a + b ∧ a + b ≤ 2147483647 then some (a + b) else none

namespace BlasInt

def bandMatrixVectorError (trans : Char) (m n kl ku lda incx incy : Int) : Option Int :=
  if !validTrans trans then some 1
  else if m < 0 then some 2
  else if n < 0 then some 3
  else if kl < 0 then some 4
  else if ku < 0 then some 5
  else do
    let bands ← addBlasInt kl ku
    let rows ← addBlasInt bands 1
    if lda < rows then return 8
    else if incx = 0 then return 10
    else if incy = 0 then return 13
    else return 0

def bandSymmetricVectorError (uplo : Char) (n k lda incx incy : Int) : Option Int :=
  if !validUplo uplo then some 1
  else if n < 0 then some 2
  else if k < 0 then some 3
  else do
    let rows ← addBlasInt k 1
    if lda < rows then return 6
    else if incx = 0 then return 8
    else if incy = 0 then return 11
    else return 0

def bandTriangularVectorError (uplo trans diag : Char) (n k lda incx : Int) : Option Int :=
  if !validUplo uplo then some 1
  else if !validTrans trans then some 2
  else if !validDiag diag then some 3
  else if n < 0 then some 4
  else if k < 0 then some 5
  else do
    let rows ← addBlasInt k 1
    if lda < rows then return 7
    else if incx = 0 then return 9
    else return 0

end BlasInt

-- Positions of the arguments with the conditions they are to meet, in order.
def firstOffending : List (Int × Bool) → Int
  | [] => 0
  | (position, fine) :: rest => if fine then firstOffending rest else position

theorem add_blas_int_nonneg {a b : Int} (first : 0 ≤ a) (second : 0 ≤ b) :
    addBlasInt a b = if a + b ≤ 2147483647 then some (a + b) else none := by
  rw [addBlasInt]
  by_cases small : a + b ≤ 2147483647
  · rw [if_pos ⟨by omega, small⟩, if_pos small]
  · rw [if_neg (fun both => small both.2), if_neg small]

theorem add_band_rows {kl ku : Int} (first : 0 ≤ kl) (second : 0 ≤ ku) (next : Int → Option Int) :
    (addBlasInt kl ku >>= fun bands => addBlasInt bands 1 >>= next) =
      if kl + ku + 1 ≤ 2147483647 then next (kl + ku + 1) else none := by
  rw [add_blas_int_nonneg first second]
  by_cases small : kl + ku ≤ 2147483647
  · rw [if_pos small, Option.bind_eq_bind, Option.bind_some, add_blas_int_nonneg (by omega) (by omega)]
    by_cases fits : kl + ku + 1 ≤ 2147483647
    · rw [if_pos fits, if_pos fits]
      rfl
    · rw [if_neg fits, if_neg fits]
      rfl
  · rw [if_neg small, if_neg (by omega)]
    rfl

theorem add_row {k : Int} (nonneg : 0 ≤ k) (next : Int → Option Int) :
    (addBlasInt k 1 >>= next) = if k + 1 ≤ 2147483647 then next (k + 1) else none := by
  rw [add_blas_int_nonneg nonneg (by omega)]
  by_cases fits : k + 1 ≤ 2147483647
  · rw [if_pos fits, if_pos fits]
    rfl
  · rw [if_neg fits, if_neg fits]
    rfl

inductive ValidatorCall where
  | gemm (ta tb : Char) (m n k lda ldb ldc : Int)
  | triangularMatrix (side uplo trans diag : Char) (m n lda ldb : Int)
  | symmetricMatrix (side uplo : Char) (m n lda ldb ldc : Int)
  | rankKMatrix (uplo trans : Char) (n k lda ldc : Int)
  | rank2KMatrix (uplo trans : Char) (n k lda ldb ldc : Int)
  | bandMatrixVector (trans : Char) (m n kl ku lda incx incy : Int)
  | bandSymmetricVector (uplo : Char) (n k lda incx incy : Int)
  | bandTriangularVector (uplo trans diag : Char) (n k lda incx : Int)

namespace ValidatorCall

-- What the check answers; none when it overflows on the way.
def answer : ValidatorCall → Option Int
  | gemm ta tb m n k lda ldb ldc => some (gemmError ta tb m n k lda ldb ldc)
  | triangularMatrix side uplo mode diag m n lda ldb => some (triangularMatrixError side uplo mode diag m n lda ldb)
  | symmetricMatrix side uplo m n lda ldb ldc => some (symmetricMatrixError side uplo m n lda ldb ldc)
  | rankKMatrix uplo mode n k lda ldc => some (rankKMatrixError uplo mode n k lda ldc)
  | rank2KMatrix uplo mode n k lda ldb ldc => some (rank2KMatrixError uplo mode n k lda ldb ldc)
  | bandMatrixVector mode m n kl ku lda incx incy => BlasInt.bandMatrixVectorError mode m n kl ku lda incx incy
  | bandSymmetricVector uplo n k lda incx incy => BlasInt.bandSymmetricVectorError uplo n k lda incx incy
  | bandTriangularVector uplo mode diag n k lda incx => BlasInt.bandTriangularVectorError uplo mode diag n k lda incx

-- The conditions of the reference routines over the integers.
def conditions : ValidatorCall → List (Int × Bool)
  | gemm ta tb m n k lda ldb ldc =>
    [(1, validTrans ta), (2, validTrans tb), (3, 0 ≤ m), (4, 0 ≤ n), (5, 0 ≤ k),
      (8, max 1 (if fromChar ta = 'N' then m else k) ≤ lda), (10, max 1 (if fromChar tb = 'N' then k else n) ≤ ldb),
      (13, max 1 m ≤ ldc)]
  | triangularMatrix side uplo mode diag m n lda ldb =>
    [(1, validSide side), (2, validUplo uplo), (3, validTrans mode), (4, validDiag diag), (5, 0 ≤ m), (6, 0 ≤ n),
      (9, max 1 (if fromChar side = 'L' then m else n) ≤ lda), (11, max 1 m ≤ ldb)]
  | symmetricMatrix side uplo m n lda ldb ldc =>
    [(1, validSide side), (2, validUplo uplo), (3, 0 ≤ m), (4, 0 ≤ n),
      (7, max 1 (if fromChar side = 'L' then m else n) ≤ lda), (9, max 1 m ≤ ldb), (12, max 1 m ≤ ldc)]
  | rankKMatrix uplo mode n k lda ldc =>
    [(1, validUplo uplo), (2, validTrans mode), (3, 0 ≤ n), (4, 0 ≤ k),
      (7, max 1 (if fromChar mode = 'N' then n else k) ≤ lda), (10, max 1 n ≤ ldc)]
  | rank2KMatrix uplo mode n k lda ldb ldc =>
    [(1, validUplo uplo), (2, validTrans mode), (3, 0 ≤ n), (4, 0 ≤ k),
      (7, max 1 (if fromChar mode = 'N' then n else k) ≤ lda),
      (9, max 1 (if fromChar mode = 'N' then n else k) ≤ ldb), (12, max 1 n ≤ ldc)]
  | bandMatrixVector mode m n kl ku lda incx incy =>
    [(1, validTrans mode), (2, 0 ≤ m), (3, 0 ≤ n), (4, 0 ≤ kl), (5, 0 ≤ ku), (8, kl + ku + 1 ≤ lda), (10, incx ≠ 0),
      (13, incy ≠ 0)]
  | bandSymmetricVector uplo n k lda incx incy =>
    [(1, validUplo uplo), (2, 0 ≤ n), (3, 0 ≤ k), (6, k + 1 ≤ lda), (8, incx ≠ 0), (11, incy ≠ 0)]
  | bandTriangularVector uplo mode diag n k lda incx =>
    [(1, validUplo uplo), (2, validTrans mode), (3, validDiag diag), (4, 0 ≤ n), (5, 0 ≤ k), (7, k + 1 ≤ lda),
      (9, incx ≠ 0)]

-- The options, sizes and band widths are fine and the rows of the band do not fit BlasInt.
def Overflows : ValidatorCall → Prop
  | bandMatrixVector mode m n kl ku _ _ _ =>
    validTrans mode = true ∧ 0 ≤ m ∧ 0 ≤ n ∧ 0 ≤ kl ∧ 0 ≤ ku ∧ 2147483647 < kl + ku + 1
  | bandSymmetricVector uplo n k _ _ _ => validUplo uplo = true ∧ 0 ≤ n ∧ 0 ≤ k ∧ 2147483647 < k + 1
  | bandTriangularVector uplo mode diag n k _ _ =>
    validUplo uplo = true ∧ validTrans mode = true ∧ validDiag diag = true ∧ 0 ≤ n ∧ 0 ≤ k ∧ 2147483647 < k + 1
  | _ => False

end ValidatorCall

section Offending

variable (position : Int) (rest : List (Int × Bool))

theorem offending_option (fine : Bool) :
    firstOffending ((position, fine) :: rest) = if !fine then position else firstOffending rest := by
  cases fine with
  | true => rfl
  | false => rfl

theorem offending_below (bound value : Int) :
    firstOffending ((position, decide (bound ≤ value)) :: rest) =
      if value < bound then position else firstOffending rest := by
  by_cases below : value < bound
  · rw [offending_option, decide_eq_false (not_le.mpr below), if_pos below]
    rfl
  · rw [offending_option, decide_eq_true (not_lt.mp below), if_neg below]
    rfl

theorem offending_zero (increment : Int) :
    firstOffending ((position, decide (increment ≠ 0)) :: rest) =
      if increment = 0 then position else firstOffending rest := by
  by_cases zero : increment = 0
  · rw [offending_option, decide_eq_false (not_not.mpr zero), if_pos zero]
    rfl
  · rw [offending_option, decide_eq_true zero, if_neg zero]
    rfl

end Offending

theorem gemm_error_first (ta tb : Char) (m n k lda ldb ldc : Int) :
    gemmError ta tb m n k lda ldb ldc = firstOffending (ValidatorCall.gemm ta tb m n k lda ldb ldc).conditions := by
  rw [ValidatorCall.conditions, offending_option, offending_option]
  simp only [offending_below]
  rfl

theorem triangular_matrix_error_first (side uplo mode diag : Char) (m n lda ldb : Int) :
    triangularMatrixError side uplo mode diag m n lda ldb =
      firstOffending (ValidatorCall.triangularMatrix side uplo mode diag m n lda ldb).conditions := by
  rw [ValidatorCall.conditions, offending_option, offending_option, offending_option, offending_option]
  simp only [offending_below]
  rfl

theorem symmetric_matrix_error_first (side uplo : Char) (m n lda ldb ldc : Int) :
    symmetricMatrixError side uplo m n lda ldb ldc =
      firstOffending (ValidatorCall.symmetricMatrix side uplo m n lda ldb ldc).conditions := by
  rw [ValidatorCall.conditions, offending_option, offending_option]
  simp only [offending_below]
  rfl

theorem rank_k_matrix_error_first (uplo mode : Char) (n k lda ldc : Int) :
    rankKMatrixError uplo mode n k lda ldc = firstOffending (ValidatorCall.rankKMatrix uplo mode n k lda ldc).conditions := by
  rw [ValidatorCall.conditions, offending_option, offending_option]
  simp only [offending_below]
  rfl

theorem rank_2k_matrix_error_first (uplo mode : Char) (n k lda ldb ldc : Int) :
    rank2KMatrixError uplo mode n k lda ldb ldc =
      firstOffending (ValidatorCall.rank2KMatrix uplo mode n k lda ldb ldc).conditions := by
  rw [ValidatorCall.conditions, offending_option, offending_option]
  simp only [offending_below]
  rfl

section Bands

variable {condition overflows : Prop} [Decidable condition] {checked : Option Int} {expected : Int}

theorem early_answer (position : Int) (early : condition → ¬ overflows)
    (later : ¬ condition → (checked = some expected ↔ ¬ overflows)) :
    (if condition then some position else checked) = some (if condition then position else expected) ↔ ¬ overflows := by
  by_cases wrong : condition
  · rw [if_pos wrong, if_pos wrong]
    exact ⟨fun _ => early wrong, fun _ => rfl⟩
  · rw [if_neg wrong, if_neg wrong]
    exact later wrong

theorem late_answer {rows : Int} {late : Option Int} (answers : late = some expected)
    (reached : overflows ↔ 2147483647 < rows) :
    (if rows ≤ 2147483647 then late else none) = some expected ↔ ¬ overflows := by
  rw [reached, not_lt, answers]
  by_cases fits : rows ≤ 2147483647
  · rw [if_pos fits]
    exact iff_of_true rfl fits
  · rw [if_neg fits]
    exact iff_of_false (Option.some_ne_none expected).symm fits

end Bands

theorem unknown_option {fine : Bool} (wrong : (!fine) = true) : fine ≠ true := by
  cases fine with
  | true => exact Bool.noConfusion wrong
  | false => exact Bool.false_ne_true

theorem known_option {fine : Bool} (right : ¬ (!fine) = true) : fine = true := by
  cases fine with
  | true => rfl
  | false => exact absurd rfl right

theorem band_matrix_vector_first (mode : Char) (m n kl ku lda incx incy : Int) :
    BlasInt.bandMatrixVectorError mode m n kl ku lda incx incy =
        some (firstOffending (ValidatorCall.bandMatrixVector mode m n kl ku lda incx incy).conditions) ↔
      ¬ (ValidatorCall.bandMatrixVector mode m n kl ku lda incx incy).Overflows := by
  rw [ValidatorCall.conditions, offending_option, BlasInt.bandMatrixVectorError]
  simp only [offending_below, offending_zero]
  refine early_answer 1 (fun wrong bad => unknown_option wrong bad.1) (fun known => ?_)
  refine early_answer 2 (fun wrong bad => not_le.mpr wrong bad.2.1) (fun rows => ?_)
  refine early_answer 3 (fun wrong bad => not_le.mpr wrong bad.2.2.1) (fun columns => ?_)
  refine early_answer 4 (fun wrong bad => not_le.mpr wrong bad.2.2.2.1) (fun below => ?_)
  refine early_answer 5 (fun wrong bad => not_le.mpr wrong bad.2.2.2.2.1) (fun above => ?_)
  rw [add_band_rows (not_lt.mp below) (not_lt.mp above)]
  have reached : (ValidatorCall.bandMatrixVector mode m n kl ku lda incx incy).Overflows ↔ 2147483647 < kl + ku + 1 :=
    ⟨fun bad => bad.2.2.2.2.2,
      fun large => ⟨known_option known, not_lt.mp rows, not_lt.mp columns, not_lt.mp below, not_lt.mp above, large⟩⟩
  refine late_answer ?_ reached
  rw [firstOffending]
  split_ifs <;> rfl

theorem band_symmetric_vector_first (uplo : Char) (n k lda incx incy : Int) :
    BlasInt.bandSymmetricVectorError uplo n k lda incx incy =
        some (firstOffending (ValidatorCall.bandSymmetricVector uplo n k lda incx incy).conditions) ↔
      ¬ (ValidatorCall.bandSymmetricVector uplo n k lda incx incy).Overflows := by
  rw [ValidatorCall.conditions, offending_option, BlasInt.bandSymmetricVectorError]
  simp only [offending_below, offending_zero]
  refine early_answer 1 (fun wrong bad => unknown_option wrong bad.1) (fun known => ?_)
  refine early_answer 2 (fun wrong bad => not_le.mpr wrong bad.2.1) (fun order => ?_)
  refine early_answer 3 (fun wrong bad => not_le.mpr wrong bad.2.2.1) (fun band => ?_)
  rw [add_row (not_lt.mp band)]
  have reached : (ValidatorCall.bandSymmetricVector uplo n k lda incx incy).Overflows ↔ 2147483647 < k + 1 :=
    ⟨fun bad => bad.2.2.2, fun large => ⟨known_option known, not_lt.mp order, not_lt.mp band, large⟩⟩
  refine late_answer ?_ reached
  rw [firstOffending]
  split_ifs <;> rfl

theorem band_triangular_vector_first (uplo mode diag : Char) (n k lda incx : Int) :
    BlasInt.bandTriangularVectorError uplo mode diag n k lda incx =
        some (firstOffending (ValidatorCall.bandTriangularVector uplo mode diag n k lda incx).conditions) ↔
      ¬ (ValidatorCall.bandTriangularVector uplo mode diag n k lda incx).Overflows := by
  rw [ValidatorCall.conditions, offending_option, offending_option, offending_option, BlasInt.bandTriangularVectorError]
  simp only [offending_below, offending_zero]
  refine early_answer 1 (fun wrong bad => unknown_option wrong bad.1) (fun triangle => ?_)
  refine early_answer 2 (fun wrong bad => unknown_option wrong bad.2.1) (fun known => ?_)
  refine early_answer 3 (fun wrong bad => unknown_option wrong bad.2.2.1) (fun diagonal => ?_)
  refine early_answer 4 (fun wrong bad => not_le.mpr wrong bad.2.2.2.1) (fun order => ?_)
  refine early_answer 5 (fun wrong bad => not_le.mpr wrong bad.2.2.2.2.1) (fun band => ?_)
  rw [add_row (not_lt.mp band)]
  have reached : (ValidatorCall.bandTriangularVector uplo mode diag n k lda incx).Overflows ↔ 2147483647 < k + 1 :=
    ⟨fun bad => bad.2.2.2.2.2, fun large => ⟨known_option triangle, known_option known, known_option diagonal,
      not_lt.mp order, not_lt.mp band, large⟩⟩
  refine late_answer ?_ reached
  rw [firstOffending]
  split_ifs <;> rfl

theorem validators_exact (call : ValidatorCall) :
    call.answer = some (firstOffending call.conditions) ↔ ¬ call.Overflows := by
  cases call with
  | gemm ta tb m n k lda ldb ldc =>
    exact ⟨fun _ none => none, fun _ => congrArg some (gemm_error_first ta tb m n k lda ldb ldc)⟩
  | triangularMatrix side uplo mode diag m n lda ldb =>
    exact ⟨fun _ none => none, fun _ => congrArg some (triangular_matrix_error_first side uplo mode diag m n lda ldb)⟩
  | symmetricMatrix side uplo m n lda ldb ldc =>
    exact ⟨fun _ none => none, fun _ => congrArg some (symmetric_matrix_error_first side uplo m n lda ldb ldc)⟩
  | rankKMatrix uplo mode n k lda ldc =>
    exact ⟨fun _ none => none, fun _ => congrArg some (rank_k_matrix_error_first uplo mode n k lda ldc)⟩
  | rank2KMatrix uplo mode n k lda ldb ldc =>
    exact ⟨fun _ none => none, fun _ => congrArg some (rank_2k_matrix_error_first uplo mode n k lda ldb ldc)⟩
  | bandMatrixVector mode m n kl ku lda incx incy => exact band_matrix_vector_first mode m n kl ku lda incx incy
  | bandSymmetricVector uplo n k lda incx incy => exact band_symmetric_vector_first uplo n k lda incx incy
  | bandTriangularVector uplo mode diag n k lda incx => exact band_triangular_vector_first uplo mode diag n k lda incx

-- A band wider than BlasInt can count, in one column: the reference reports lda, argument 8.
theorem widest_band_overflows :
    (ValidatorCall.bandMatrixVector 'N' 1 1 2147483647 0 1 1 1).answer ≠
      some (firstOffending (ValidatorCall.bandMatrixVector 'N' 1 1 2147483647 0 1 1 1).conditions) := by
  rw [ValidatorCall.answer]
  intro exact
  refine (band_matrix_vector_first 'N' 1 1 2147483647 0 1 1 1).mp exact ?_
  exact ⟨by decide, by decide, by decide, by decide, by decide, by decide⟩

end Zynum
