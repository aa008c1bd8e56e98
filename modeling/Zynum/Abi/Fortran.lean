import Zynum.MatrixVector.SymmetricBandExact
import Zynum.MatrixVector.SymmetricProduct
import Zynum.MatrixVector.RankOne
import Zynum.MatrixVector.CompactTriangularExact
import Zynum.MatrixMatrix.RankUpdateAgree
import Zynum.MatrixMatrix.TriangularAgree

set_option autoImplicit false

/- The Level 2 and Level 3 exports of abi/fortran.zig: a call whose arguments an
   error check rejects is reported and does nothing, any other goes to the core. The
   four element types of an export share one definition. -/
namespace Zynum.Fortran

-- xerbla only prints; what counts is the answer.
def reportError (info : Int) : Bool := decide (info ≠ 0)

def triangularVectorError (uplo trans diag : Char) (n lda incx : Int) : Int :=
  if !validUplo uplo then 1
  else if !validTrans trans then 2
  else if !validDiag diag then 3
  else if n < 0 then 4
  else if lda < max1 n then 6
  else if incx = 0 then 8
  else 0

def bandTriangularVectorError (uplo trans diag : Char) (n k lda incx : Int) : Int :=
  if !validUplo uplo then 1
  else if !validTrans trans then 2
  else if !validDiag diag then 3
  else if n < 0 then 4
  else if k < 0 then 5
  else if lda < k + 1 then 7
  else if incx = 0 then 9
  else 0

def packedTriangularVectorError (uplo trans diag : Char) (n incx : Int) : Int :=
  if !validUplo uplo then 1
  else if !validTrans trans then 2
  else if !validDiag diag then 3
  else if n < 0 then 4
  else if incx = 0 then 7
  else 0

section Vectors

variable {T : Type} [CommRing T] [Scalar T]

def gemv (leaves : GemvLeaves T) (rt : Runtime) (site : Site) (trans : Char) (m n : Int) (alpha : T) (a : Mem T) (lda : Int)
    (x : Mem T) (incx : Int) (beta : T) (y : Mem T) (incy : Int) : Mem T :=
  if reportError (matrixVectorError trans m n lda incx incy) then y
  else Zynum.gemv leaves rt site (parseTrans trans) m n alpha a lda x incx beta y incy

def gbmv (rt : Runtime) (site : Site) (tuning : GemvProfile) (trans : Char) (m n kl ku : Int) (alpha : T) (a : Mem T)
    (lda : Int) (x : Mem T) (incx : Int) (beta : T) (y : Mem T) (incy : Int) : Option (Mem T) :=
  if reportError (bandMatrixVectorError trans m n kl ku lda incx incy) then some y
  else Zynum.gbmv rt site tuning (parseTrans trans) m n kl ku alpha a lda x incx beta y incy

-- ssbmv_ and dsbmv_ pass herm = false, chbmv_ and zhbmv_ true.
def sbmv [DecidableEq T] (tuning : SymmetricProfile) (aarch64 : Bool) (rt : Runtime) (site : Site) (herm : Bool)
    (uplo : Char) (n k : Int)
    (alpha : T) (a : Nat → Option T) (lda : Int) (x : Mem T) (incx : Int) (beta : T) (y : Mem T) (incy : Int) :
    Option (Mem T) :=
  if reportError (bandSymmetricVectorError uplo n k lda incx incy) then some y
  else Zynum.sbmv tuning aarch64 rt site (parseUplo uplo) n k alpha a lda x incx beta y incy herm

-- hemv and hpmv are herm = true.
def symv (env : SymmetricEnv T) (rt : Runtime) (site : Site) (herm : Bool) (uplo : Char) (n : Int) (alpha : T) (a : Mem T) (lda : Int)
    (x : Mem T) (incx : Int) (beta : T) (workspace y : Mem T) (incy : Int) : Mem T :=
  if reportError (symmetricVectorError uplo n lda incx incy) then y
  else Zynum.symv env rt site (parseUplo uplo) n alpha a lda x incx beta workspace y incy herm

def spmv [DecidableEq T] (env : SymmetricEnv T) (rt : Runtime) (site : Site) (herm : Bool) (uplo : Char) (n : Int) (alpha : T)
    (ap : Mem T) (x : Mem T) (incx : Int) (beta : T) (workspace y : Mem T) (incy : Int) : Mem T :=
  if reportError (packedSymmetricVectorError uplo n incx incy) then y
  else Zynum.spmv env rt site (parseUplo uplo) n alpha ap x incx beta workspace y incy herm

def trmv (env : CompactEnv) (rt : Runtime) (site : Site) (uplo trans diag : Char) (n : Int) (a : Mem T) (lda : Int)
    (x : Mem T) (incx : Int) : Mem T :=
  if reportError (triangularVectorError uplo trans diag n lda incx) then x
  else Zynum.trmv env.toVectorEnv rt site (parseUplo uplo) (parseTrans trans) (parseDiag diag) n a lda x incx

def tbmv (env : CompactEnv) (uplo trans diag : Char) (n k : Int) (a : Mem T) (lda : Int) (x : Mem T) (incx : Int) : Mem T :=
  if reportError (bandTriangularVectorError uplo trans diag n k lda incx) then x
  else Zynum.tbmv env (parseUplo uplo) (parseTrans trans) (parseDiag diag) n k a lda x incx

def tpmv (env : CompactEnv) (rt : Runtime) (uplo trans diag : Char) (n : Int) (ap : Mem T) (x : Mem T) (incx : Int) : Mem T :=
  if reportError (packedTriangularVectorError uplo trans diag n incx) then x
  else tpmvEntry env rt (parseUplo uplo) (parseTrans trans) (parseDiag diag) n ap x incx

variable [Div T]

def trsv (env : CompactEnv) (rt : Runtime) (site : Site) (uplo trans diag : Char) (n : Int) (a : Mem T) (lda : Int)
    (x : Mem T) (incx : Int) : Mem T :=
  if reportError (triangularVectorError uplo trans diag n lda incx) then x
  else Zynum.trsv env.toVectorEnv rt site (parseUplo uplo) (parseTrans trans) (parseDiag diag) n a lda x incx

def tbsv (env : CompactEnv) (rt : Runtime) (uplo trans diag : Char) (n k : Int) (a : Mem T) (lda : Int) (x : Mem T)
    (incx : Int) : Mem T :=
  if reportError (bandTriangularVectorError uplo trans diag n k lda incx) then x
  else tbsvEntry env rt (parseUplo uplo) (parseTrans trans) (parseDiag diag) n k a lda x incx

def tpsv (env : CompactEnv) (rt : Runtime) (uplo trans diag : Char) (n : Int) (ap : Mem T) (x : Mem T) (incx : Int) : Mem T :=
  if reportError (packedTriangularVectorError uplo trans diag n incx) then x
  else tpsvEntry env rt (parseUplo uplo) (parseTrans trans) (parseDiag diag) n ap x incx

end Vectors

section Ranks

variable {T : Type} [CommRing T] [Scalar T]

-- geru and gerc differ in conjY.
def ger (leaves : GerLeaves T) (m n : Int) (alpha : T) (x : Mem T) (incx : Int) (y : Mem T) (incy : Int) (a : Mem T) (lda : Int)
    (conjY : Bool) : Mem T :=
  if reportError (rankUpdateError m n incx incy lda) then a
  else Zynum.ger leaves m n alpha x incx y incy a lda conjY

variable (tuning : RankUpdateProfile) (float : FloatArithmetic) (rt : Runtime) (site : Site) (uplo : Char) (n : Int)
  (alpha : T) (x : Mem T) (incx : Int)

def syr (a : Mem T) (lda : Int) : Mem T :=
  if reportError (symmetricRankError uplo n incx lda) then a
  else Zynum.syr tuning float rt site (parseUplo uplo) n alpha x incx a lda

def her (a : Mem T) (lda : Int) : Mem T :=
  if reportError (symmetricRankError uplo n incx lda) then a
  else Zynum.her tuning float rt site (parseUplo uplo) n alpha x incx a lda

def spr (ap : Mem T) : Mem T :=
  if reportError (packedRankError uplo n incx) then ap
  else Zynum.spr tuning float rt site (parseUplo uplo) n alpha x incx ap

def hpr (ap : Mem T) : Mem T :=
  if reportError (packedRankError uplo n incx) then ap
  else Zynum.hpr tuning float rt site (parseUplo uplo) n alpha x incx ap

variable (y : Mem T) (incy : Int)

def syr2 (a : Mem T) (lda : Int) : Mem T :=
  if reportError (symmetricRank2Error uplo n incx incy lda) then a
  else Zynum.syr2 tuning float rt site (parseUplo uplo) n alpha x incx y incy a lda

def her2 (a : Mem T) (lda : Int) : Mem T :=
  if reportError (symmetricRank2Error uplo n incx incy lda) then a
  else Zynum.her2 tuning float rt site (parseUplo uplo) n alpha x incx y incy a lda

def spr2 (ap : Mem T) : Mem T :=
  if reportError (packedRank2Error uplo n incx incy) then ap
  else Zynum.spr2 tuning float rt site (parseUplo uplo) n alpha x incx y incy ap

def hpr2 (ap : Mem T) : Mem T :=
  if reportError (packedRank2Error uplo n incx incy) then ap
  else Zynum.hpr2 tuning float rt site (parseUplo uplo) n alpha x incx y incy ap

end Ranks

section Matrices

variable {T : Type} [CommRing T] [Scalar T]

def gemm (env : Level3Env T) (rt : Runtime) (site : Site) (transa transb : Char) (m n k : Int) (alpha : T) (a : Mem T)
    (lda : Int) (b : Mem T) (ldb : Int) (beta : T) (c : Mem T) (ldc : Int) : Mem T :=
  if reportError (gemmError transa transb m n k lda ldb ldc) then c
  else env.gemm.run rt site (parseTrans transa) (parseTrans transb) m n k alpha a lda b ldb beta c ldc

-- hemm is herm = true.
def symm (env : Level3Env T) (rt : Runtime) (site : Site) (herm : Bool) (side uplo : Char) (m n : Int) (alpha : T)
    (a : Mem T) (lda : Int) (b : Mem T) (ldb : Int) (beta : T) (c : Mem T) (ldc : Int) : Mem T :=
  if reportError (symmetricMatrixError side uplo m n lda ldb ldc) then c
  else Zynum.symm env rt site (parseSide side) (parseUplo uplo) m n alpha a lda b ldb beta c ldc herm

def syrk (env : Level3Env T) (rt : Runtime) (site : Site) (uplo trans : Char) (n k : Int) (alpha : T) (a : Mem T) (lda : Int)
    (beta : T) (c : Mem T) (ldc : Int) : Mem T :=
  if reportError (rankKMatrixError uplo trans n k lda ldc) then c
  else Zynum.syrk env rt site (parseUplo uplo) (parseTrans trans) n k alpha a lda beta c ldc false

def syr2k (env : Level3Env T) (rt : Runtime) (site : Site) (uplo trans : Char) (n k : Int) (alpha : T) (a : Mem T) (lda : Int)
    (b : Mem T) (ldb : Int) (beta : T) (c : Mem T) (ldc : Int) : Mem T :=
  if reportError (rank2KMatrixError uplo trans n k lda ldb ldc) then c
  else Zynum.syr2k env rt site (parseUplo uplo) (parseTrans trans) n k alpha a lda b ldb beta c ldc false

-- The real scalars of cherk, zherk, cher2k and zher2k.
def herk (env : Level3Env T) (rt : Runtime) (site : Site) (uplo trans : Char) (n k : Int) (alpha : T) (a : Mem T) (lda : Int)
    (beta : T) (c : Mem T) (ldc : Int) : Mem T :=
  if reportError (rankKMatrixError uplo trans n k lda ldc) then c
  else Zynum.syrk env rt site (parseUplo uplo) (parseTrans trans) n k (realOnly alpha) a lda (realOnly beta) c ldc true

def her2k (env : Level3Env T) (rt : Runtime) (site : Site) (uplo trans : Char) (n k : Int) (alpha : T) (a : Mem T) (lda : Int)
    (b : Mem T) (ldb : Int) (beta : T) (c : Mem T) (ldc : Int) : Mem T :=
  if reportError (rank2KMatrixError uplo trans n k lda ldb ldc) then c
  else Zynum.syr2k env rt site (parseUplo uplo) (parseTrans trans) n k alpha a lda b ldb (realOnly beta) c ldc true

variable [LawfulScalar T] [Div T]

def trmm (env : TriangularEnv T) (rt : Runtime) (site : Site) (side uplo trans diag : Char) (m n : Int) (alpha : T)
    (a : Mem T) (lda : Int) (b : Mem T) (ldb : Int) : Mem T :=
  if reportError (triangularMatrixError side uplo trans diag m n lda ldb) then b
  else Zynum.trmm env rt site (triangularCall side uplo trans diag alpha a lda ldb) m n b

def trsm (env : TriangularEnv T) (rt : Runtime) (site : Site) (side uplo trans diag : Char) (m n : Int) (alpha : T)
    (a : Mem T) (lda : Int) (b : Mem T) (ldb : Int) : Mem T :=
  if reportError (triangularMatrixError side uplo trans diag m n lda ldb) then b
  else Zynum.trsm env rt site (triangularCall side uplo trans diag alpha a lda ldb) m n b

end Matrices

theorem report_error_iff (info : Int) : reportError info = true ↔ info ≠ 0 := by
  simp only [reportError, ne_eq, decide_eq_true_eq]

theorem report_accepted {info : Int} (accepted : info = 0) : ¬ reportError info = true := by
  rw [report_error_iff]
  exact fun rejected => rejected accepted

end Zynum.Fortran
