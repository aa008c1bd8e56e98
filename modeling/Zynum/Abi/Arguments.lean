import Zynum.Indexing

set_option autoImplicit false

/- Option characters and the argument checks of abi/fortran.zig. A check returns
   the position of the first bad argument, zero when the call is accepted. -/
namespace Zynum

def fromChar (char : Char) : Char := char.toUpper

def parseTrans (char : Char) : TransposeMode :=
  if fromChar char = 'T' then .trans else if fromChar char = 'C' then .conjTrans else .noTrans

def parseUplo (char : Char) : Triangle := if fromChar char = 'L' then .lower else .upper

def parseDiag (char : Char) : Diagonal := if fromChar char = 'U' then .unit else .nonUnit

def parseSide (char : Char) : OperandSide := if fromChar char = 'R' then .right else .left

def validTrans (char : Char) : Bool := fromChar char = 'N' || fromChar char = 'T' || fromChar char = 'C'

def validUplo (char : Char) : Bool := fromChar char = 'U' || fromChar char = 'L'

def validDiag (char : Char) : Bool := fromChar char = 'N' || fromChar char = 'U'

def validSide (char : Char) : Bool := fromChar char = 'L' || fromChar char = 'R'

def max1 (value : Int) : Int := max 1 value

def gemmError (ta tb : Char) (m n k lda ldb ldc : Int) : Int :=
  if !validTrans ta then 1
  else if !validTrans tb then 2
  else if m < 0 then 3
  else if n < 0 then 4
  else if k < 0 then 5
  else
    let nrowa := if fromChar ta = 'N' then m else k
    let nrowb := if fromChar tb = 'N' then k else n
    if lda < max1 nrowa then 8
    else if ldb < max1 nrowb then 10
    else if ldc < max1 m then 13
    else 0

def triangularMatrixError (side uplo trans diag : Char) (m n lda ldb : Int) : Int :=
  if !validSide side then 1
  else if !validUplo uplo then 2
  else if !validTrans trans then 3
  else if !validDiag diag then 4
  else if m < 0 then 5
  else if n < 0 then 6
  else
    let nrowa := if fromChar side = 'L' then m else n
    if lda < max1 nrowa then 9
    else if ldb < max1 m then 11
    else 0

def matrixVectorError (trans : Char) (m n lda incx incy : Int) : Int :=
  if !validTrans trans then 1
  else if m < 0 then 2
  else if n < 0 then 3
  else if lda < max1 m then 6
  else if incx = 0 then 8
  else if incy = 0 then 11
  else 0

def bandMatrixVectorError (trans : Char) (m n kl ku lda incx incy : Int) : Int :=
  if !validTrans trans then 1
  else if m < 0 then 2
  else if n < 0 then 3
  else if kl < 0 then 4
  else if ku < 0 then 5
  else if lda < kl + ku + 1 then 8
  else if incx = 0 then 10
  else if incy = 0 then 13
  else 0

def symmetricVectorError (uplo : Char) (n lda incx incy : Int) : Int :=
  if !validUplo uplo then 1
  else if n < 0 then 2
  else if lda < max1 n then 5
  else if incx = 0 then 7
  else if incy = 0 then 10
  else 0

def bandSymmetricVectorError (uplo : Char) (n k lda incx incy : Int) : Int :=
  if !validUplo uplo then 1
  else if n < 0 then 2
  else if k < 0 then 3
  else if lda < k + 1 then 6
  else if incx = 0 then 8
  else if incy = 0 then 11
  else 0

def packedSymmetricVectorError (uplo : Char) (n incx incy : Int) : Int :=
  if !validUplo uplo then 1
  else if n < 0 then 2
  else if incx = 0 then 6
  else if incy = 0 then 9
  else 0

def rankUpdateError (m n incx incy lda : Int) : Int :=
  if m < 0 then 1
  else if n < 0 then 2
  else if incx = 0 then 5
  else if incy = 0 then 7
  else if lda < max1 m then 9
  else 0

def symmetricRankError (uplo : Char) (n incx lda : Int) : Int :=
  if !validUplo uplo then 1
  else if n < 0 then 2
  else if incx = 0 then 5
  else if lda < max1 n then 7
  else 0

def packedRankError (uplo : Char) (n incx : Int) : Int :=
  if !validUplo uplo then 1
  else if n < 0 then 2
  else if incx = 0 then 5
  else 0

def symmetricRank2Error (uplo : Char) (n incx incy lda : Int) : Int :=
  if !validUplo uplo then 1
  else if n < 0 then 2
  else if incx = 0 then 5
  else if incy = 0 then 7
  else if lda < max1 n then 9
  else 0

def packedRank2Error (uplo : Char) (n incx incy : Int) : Int :=
  if !validUplo uplo then 1
  else if n < 0 then 2
  else if incx = 0 then 5
  else if incy = 0 then 7
  else 0

def symmetricMatrixError (side uplo : Char) (m n lda ldb ldc : Int) : Int :=
  if !validSide side then 1
  else if !validUplo uplo then 2
  else if m < 0 then 3
  else if n < 0 then 4
  else
    let nrowa := if fromChar side = 'L' then m else n
    if lda < max1 nrowa then 7
    else if ldb < max1 m then 9
    else if ldc < max1 m then 12
    else 0

def rankKMatrixError (uplo trans : Char) (n k lda ldc : Int) : Int :=
  if !validUplo uplo then 1
  else if !validTrans trans then 2
  else if n < 0 then 3
  else if k < 0 then 4
  else
    let nrowa := if fromChar trans = 'N' then n else k
    if lda < max1 nrowa then 7
    else if ldc < max1 n then 10
    else 0

def rank2KMatrixError (uplo trans : Char) (n k lda ldb ldc : Int) : Int :=
  if !validUplo uplo then 1
  else if !validTrans trans then 2
  else if n < 0 then 3
  else if k < 0 then 4
  else
    let nrow := if fromChar trans = 'N' then n else k
    if lda < max1 nrow then 7
    else if ldb < max1 nrow then 9
    else if ldc < max1 n then 12
    else 0

theorem band_matrix_vector_accepted (trans : Char) (m n kl ku lda incx incy : Int) :
    bandMatrixVectorError trans m n kl ku lda incx incy = 0 ↔
      validTrans trans = true ∧ 0 ≤ m ∧ 0 ≤ n ∧ 0 ≤ kl ∧ 0 ≤ ku ∧ kl + ku + 1 ≤ lda ∧ incx ≠ 0 ∧ incy ≠ 0 := by
  simp only [bandMatrixVectorError]
  split_ifs <;> simp_all

theorem symmetric_matrix_accepted_bounds (side uplo : Char) (m n lda ldb ldc : Int)
    (accepted : symmetricMatrixError side uplo m n lda ldb ldc = 0) : 0 ≤ m ∧ 0 ≤ n ∧ 0 < lda ∧ 0 < ldb ∧ 0 < ldc ∧ m ≤ ldc := by
  simp only [symmetricMatrixError, max1] at accepted
  split_ifs at accepted <;> omega

theorem triangular_matrix_accepted_bounds (side uplo trans diag : Char) (m n lda ldb : Int)
    (accepted : triangularMatrixError side uplo trans diag m n lda ldb = 0) : 0 < lda ∧ 0 < ldb ∧ m ≤ ldb := by
  simp only [triangularMatrixError, max1] at accepted
  split_ifs at accepted <;> omega

theorem rank_k_matrix_accepted_bounds (uplo trans : Char) (n k lda ldc : Int)
    (accepted : rankKMatrixError uplo trans n k lda ldc = 0) : 0 ≤ n ∧ 0 < lda ∧ 0 < ldc ∧ n ≤ ldc := by
  simp only [rankKMatrixError, max1] at accepted
  split_ifs at accepted <;> omega

theorem rank_2k_matrix_accepted_bounds (uplo trans : Char) (n k lda ldb ldc : Int)
    (accepted : rank2KMatrixError uplo trans n k lda ldb ldc = 0) : 0 ≤ n ∧ 0 < lda ∧ 0 < ldb ∧ 0 < ldc ∧ n ≤ ldc := by
  simp only [rank2KMatrixError, max1] at accepted
  split_ifs at accepted <;> omega

end Zynum
