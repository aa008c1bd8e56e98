import Zynum.Abi.Fortran

set_option autoImplicit false

/- abi/cblas.zig: option codes, the translation of a row-major call into a
   column-major one, and the loops of its own for what has no column-major form. -/
namespace Zynum

def cblasRowMajor : Int := 101

def cblasColMajor : Int := 102

def cblasNoTrans : Int := 111

def cblasTrans : Int := 112

def cblasConjTrans : Int := 113

def cblasNonUnit : Int := 131

def cblasUnit : Int := 132

def cblasLeft : Int := 141

def cblasRight : Int := 142

namespace Cblas

open ArrayProgram

section Options

def validLayout (layout : Int) : Bool := layout = cblasRowMajor || layout = cblasColMajor

def validTrans (trans : Int) : Bool := trans = cblasNoTrans || trans = cblasTrans || trans = cblasConjTrans

def validUplo (uplo : Int) : Bool := uplo = cblasUpper || uplo = cblasLower

def validDiag (diag : Int) : Bool := diag = cblasNonUnit || diag = cblasUnit

def validSide (side : Int) : Bool := side = cblasLeft || side = cblasRight

def transChar (trans : Int) : Char :=
  if trans = cblasNoTrans then 'N' else if trans = cblasTrans then 'T' else if trans = cblasConjTrans then 'C' else 'X'

def rowMajorGemvTrans (trans : Int) : Char :=
  if trans = cblasNoTrans then 'T' else if trans = cblasTrans ∨ trans = cblasConjTrans then 'N' else 'X'

def uploChar (uplo : Int) : Char := if uplo = cblasUpper then 'U' else if uplo = cblasLower then 'L' else 'X'

def rowMajorUploChar (uplo : Int) : Char := if uplo = cblasUpper then 'L' else if uplo = cblasLower then 'U' else 'X'

def sideChar (side : Int) : Char := if side = cblasLeft then 'L' else if side = cblasRight then 'R' else 'X'

def rowMajorSideChar (side : Int) : Char := if side = cblasLeft then 'R' else if side = cblasRight then 'L' else 'X'

def diagChar (diag : Int) : Char := if diag = cblasNonUnit then 'N' else if diag = cblasUnit then 'U' else 'X'

def rowMajorTransChar (trans : Int) : Char :=
  if trans = cblasNoTrans then 'T' else if trans = cblasTrans then 'N' else if trans = cblasConjTrans then 'C' else 'X'

-- The choices every wrapper makes by layout: an option character, and one of two arguments.
def uploFor (layout uplo : Int) : Char := if layout = cblasRowMajor then rowMajorUploChar uplo else uploChar uplo

def sideFor (layout side : Int) : Char := if layout = cblasRowMajor then rowMajorSideChar side else sideChar side

def gemvTransFor (layout trans : Int) : Char := if layout = cblasRowMajor then rowMajorGemvTrans trans else transChar trans

-- The real wrappers take ConjTrans for Trans before they turn it.
def transFor (T : Type) [Scalar T] (layout trans : Int) : Char :=
  if layout = cblasRowMajor then
    rowMajorTransChar (if isReal T ∧ trans = cblasConjTrans then cblasTrans else trans)
  else transChar trans

def pick {α : Type} (layout : Int) (rowMajor colMajor : α) : α := if layout = cblasRowMajor then rowMajor else colMajor

end Options

section Leaves

variable {T : Type} [CommRing T] [Scalar T]

def rowMajorConjGemv (m n : Int) (alpha : T) (a : Mem T) (lda : Int) (x : Mem T) (incx : Int) (beta : T) (y : Mem T)
    (incy : Int) : Mem T :=
  if m ≤ 0 ∨ n ≤ 0 ∨ lda < max1 n ∨ incx = 0 ∨ incy = 0 then y
  else
    let sx := startIndex m incx
    let sy := startIndex n incy
    let scaled := scaleOutput (toUsize n) beta sy y incy
    if isZero alpha then scaled
    else
      loop (toUsize n) (fun j y =>
        let sum := loop (toUsize m) (fun i sum => sum + conj (a (i * toUsize lda + j)) * vectorGet x sx i incx) 0
        let py := ix sy j incy
        Function.update y py (y py + alpha * sum)) scaled

def rowMajorConjGbmv (m n kl ku : Int) (alpha : T) (a : Mem T) (lda : Int) (x : Mem T) (incx : Int) (beta : T) (y : Mem T)
    (incy : Int) : Mem T :=
  if m ≤ 0 ∨ n ≤ 0 ∨ kl < 0 ∨ ku < 0 ∨ lda < kl + ku + 1 ∨ incx = 0 ∨ incy = 0 then y
  else
    let ld := toUsize lda
    let sx := startIndex m incx
    let sy := startIndex n incy
    let scaled := scaleOutput (toUsize n) beta sy y incy
    if isZero alpha then scaled
    else
      loop (toUsize n) (fun j y =>
        let sum := loop (toUsize m) (fun i sum =>
          if i + toUsize ku < j then sum
          else if j + toUsize kl < i then sum
          else
            let bandCol := toUsize (kl + j - i)
            sum + conj (a (i * ld + bandCol)) * vectorGet x sx i incx) 0
        let py := ix sy j incy
        Function.update y py (y py + alpha * sum)) scaled

def rowMajorGer (m_ n_ : Int) (alpha : T) (x : Mem T) (incx : Int) (y : Mem T) (incy : Int) (a : Mem T) (lda : Int) (conjY : Bool) :
    Mem T :=
  if m_ ≤ 0 ∨ n_ ≤ 0 ∨ lda < max1 n_ ∨ incx = 0 ∨ incy = 0 ∨ isZero alpha then a
  else
    let m := toUsize m_
    let n := toUsize n_
    let sx := startIndex m_ incx
    let sy := startIndex n_ incy
    let ld := toUsize lda
    loop m (fun row a =>
      let xValue := vectorGet x sx row incx
      if isZero xValue then a
      else
        let scaledX := alpha * xValue
        loop n (fun col a =>
          let yValue := conjugateIf (vectorGet y sy col incy) conjY
          let index := row * ld + col
          Function.update a index (a index + scaledX * yValue)) a) a

def rowMajorConjTriValue (uplo diag : Int) (a : Mem T) (lda : Int) (row col : Nat) : T :=
  if row = col ∧ diag = cblasUnit then 1
  else
    let aRow := col
    let aCol := row
    if uplo = cblasUpper ∧ aRow > aCol then 0
    else if uplo = cblasLower ∧ aRow < aCol then 0
    else conj (a (aRow * toUsize lda + aCol))

def rowMajorConjTriBandValue (uplo diag : Int) (k : Nat) (a : Mem T) (lda : Int) (row col : Nat) : T :=
  if row = col ∧ diag = cblasUnit then 1
  else
    match rowMajorTriBandIndex uplo k lda col row with
    | none => 0
    | some idx => conj (a idx)

def rowMajorConjTriPackedValue (uplo diag : Int) (n : Nat) (ap : Mem T) (row col : Nat) : T :=
  if row = col ∧ diag = cblasUnit then 1
  else
    match rowMajorTriPackedIndex uplo n col row with
    | none => 0
    | some idx => conj (ap idx)

def rowMajorConjTransOpUpper (uplo : Int) : Bool := uplo = cblasLower

-- The loops that the conjugated multiplies and solves share, by the value they read.
def rowMajorConjMultiply (value : Nat → Nat → T) (uplo n_ : Int) (x : Mem T) (incx : Int) : Mem T :=
  let n := toUsize n_
  let sx := startIndex n_ incx
  let row := fun (i first last : Nat) (x : Mem T) =>
    Function.update x (ix sx i incx) (loopRange first last (fun j sum => sum + value i j * vectorGet x sx j incx) 0)
  if rowMajorConjTransOpUpper uplo then loop n (fun i x => row i i n x) x
  else loop n (fun step x => row (n - 1 - step) 0 (n - 1 - step + 1) x) x

def rowMajorConjTrmv (uplo diag n : Int) (a : Mem T) (lda : Int) (x : Mem T) (incx : Int) : Mem T :=
  if !validUplo uplo ∨ !validDiag diag ∨ n ≤ 0 ∨ lda < max1 n ∨ incx = 0 then x
  else rowMajorConjMultiply (rowMajorConjTriValue uplo diag a lda) uplo n x incx

def rowMajorConjTbmv (uplo diag n k : Int) (a : Mem T) (lda : Int) (x : Mem T) (incx : Int) : Mem T :=
  if !validUplo uplo ∨ !validDiag diag ∨ n ≤ 0 ∨ k < 0 ∨ lda < k + 1 ∨ incx = 0 then x
  else rowMajorConjMultiply (rowMajorConjTriBandValue uplo diag (toUsize k) a lda) uplo n x incx

def rowMajorConjTpmv (uplo diag n : Int) (ap : Mem T) (x : Mem T) (incx : Int) : Mem T :=
  if !validUplo uplo ∨ !validDiag diag ∨ n ≤ 0 ∨ incx = 0 then x
  else rowMajorConjMultiply (rowMajorConjTriPackedValue uplo diag (toUsize n) ap) uplo n x incx

variable [Div T]

def rowMajorConjSolve (value : Nat → Nat → T) (uplo diag n_ : Int) (x : Mem T) (incx : Int) : Mem T :=
  let n := toUsize n_
  let sx := startIndex n_ incx
  let row := fun (i first last : Nat) (x : Mem T) =>
    let t := loopRange first last (fun j t => t - value i j * vectorGet x sx j incx) (vectorGet x sx i incx)
    Function.update x (ix sx i incx) (if diag ≠ cblasUnit then t / value i i else t)
  if rowMajorConjTransOpUpper uplo then loop n (fun step x => row (n - 1 - step) (n - 1 - step + 1) n x) x
  else loop n (fun i x => row i 0 i x) x

def rowMajorConjTrsv (uplo diag n : Int) (a : Mem T) (lda : Int) (x : Mem T) (incx : Int) : Mem T :=
  if !validUplo uplo ∨ !validDiag diag ∨ n ≤ 0 ∨ lda < max1 n ∨ incx = 0 then x
  else rowMajorConjSolve (rowMajorConjTriValue uplo diag a lda) uplo diag n x incx

def rowMajorConjTbsv (uplo diag n k : Int) (a : Mem T) (lda : Int) (x : Mem T) (incx : Int) : Mem T :=
  if !validUplo uplo ∨ !validDiag diag ∨ n ≤ 0 ∨ k < 0 ∨ lda < k + 1 ∨ incx = 0 then x
  else rowMajorConjSolve (rowMajorConjTriBandValue uplo diag (toUsize k) a lda) uplo diag n x incx

def rowMajorConjTpsv (uplo diag n : Int) (ap : Mem T) (x : Mem T) (incx : Int) : Mem T :=
  if !validUplo uplo ∨ !validDiag diag ∨ n ≤ 0 ∨ incx = 0 then x
  else rowMajorConjSolve (rowMajorConjTriPackedValue uplo diag (toUsize n) ap) uplo diag n x incx

end Leaves

section Vectors

variable {T : Type} [CommRing T] [Scalar T]

-- Only the complex wrappers have the conjugated loops.
def conjLeaf (T : Type) [Scalar T] (layout trans : Int) : Bool :=
  Scalar.isComplex T && layout = cblasRowMajor && trans = cblasConjTrans

def gemv (leaves : GemvLeaves T) (rt : Runtime) (site : Site) (layout trans m n : Int) (alpha : T) (a : Mem T) (lda : Int)
    (x : Mem T) (incx : Int) (beta : T) (y : Mem T) (incy : Int) : Mem T :=
  if !validLayout layout then y
  else if conjLeaf T layout trans then rowMajorConjGemv m n alpha a lda x incx beta y incy
  else
    Fortran.gemv leaves rt site (gemvTransFor layout trans) (pick layout n m) (pick layout m n) alpha a lda x incx beta y incy

def gbmv (rt : Runtime) (site : Site) (tuning : GemvProfile) (layout trans m n kl ku : Int) (alpha : T) (a : Mem T)
    (lda : Int) (x : Mem T) (incx : Int) (beta : T) (y : Mem T) (incy : Int) : Option (Mem T) :=
  if !validLayout layout then some y
  else if conjLeaf T layout trans then some (rowMajorConjGbmv m n kl ku alpha a lda x incx beta y incy)
  else
    Fortran.gbmv rt site tuning (gemvTransFor layout trans) (pick layout n m) (pick layout m n) (pick layout ku kl)
      (pick layout kl ku) alpha a lda x incx beta y incy

def sbmv [DecidableEq T] (tuning : SymmetricProfile) (aarch64 : Bool) (rt : Runtime) (site : Site) (herm : Bool)
    (layout uplo n k : Int) (alpha : T) (a : Nat → Option T) (lda : Int) (x : Mem T) (incx : Int) (beta : T) (y : Mem T)
    (incy : Int) : Option (Mem T) :=
  if !validLayout layout then some y
  else Fortran.sbmv tuning aarch64 rt site herm (uploFor layout uplo) n k alpha a lda x incx beta y incy

def symv (env : SymmetricEnv T) (rt : Runtime) (site : Site) (herm : Bool) (layout uplo n : Int) (alpha : T) (a : Mem T) (lda : Int)
    (x : Mem T) (incx : Int) (beta : T) (workspace y : Mem T) (incy : Int) : Mem T :=
  if !validLayout layout then y
  else Fortran.symv env rt site herm (uploFor layout uplo) n alpha a lda x incx beta workspace y incy

def spmv [DecidableEq T] (env : SymmetricEnv T) (rt : Runtime) (site : Site) (herm : Bool) (layout uplo n : Int) (alpha : T)
    (ap : Mem T) (x : Mem T) (incx : Int) (beta : T) (workspace y : Mem T) (incy : Int) : Mem T :=
  if !validLayout layout then y
  else Fortran.spmv env rt site herm (uploFor layout uplo) n alpha ap x incx beta workspace y incy

-- The six triangular vector wrappers: a conjugated loop of their own, or the export.
def triangularVector (leaf : Int → Int → Mem T → Mem T) (export_ : Char → Char → Char → Mem T → Mem T)
    (layout uplo trans diag : Int) (x : Mem T) : Mem T :=
  if !validLayout layout then x
  else if conjLeaf T layout trans then leaf uplo diag x
  else export_ (uploFor layout uplo) (transFor T layout trans) (diagChar diag) x

def trmv (env : CompactEnv) (rt : Runtime) (site : Site) (layout uplo trans diag n : Int) (a : Mem T) (lda : Int) (x : Mem T)
    (incx : Int) : Mem T :=
  triangularVector (fun uplo diag x => rowMajorConjTrmv uplo diag n a lda x incx)
    (fun uu tt dd x => Fortran.trmv env rt site uu tt dd n a lda x incx) layout uplo trans diag x

def tbmv (env : CompactEnv) (layout uplo trans diag n k : Int) (a : Mem T) (lda : Int) (x : Mem T) (incx : Int) : Mem T :=
  triangularVector (fun uplo diag x => rowMajorConjTbmv uplo diag n k a lda x incx)
    (fun uu tt dd x => Fortran.tbmv env uu tt dd n k a lda x incx) layout uplo trans diag x

def tpmv (env : CompactEnv) (rt : Runtime) (layout uplo trans diag n : Int) (ap : Mem T) (x : Mem T) (incx : Int) : Mem T :=
  triangularVector (fun uplo diag x => rowMajorConjTpmv uplo diag n ap x incx)
    (fun uu tt dd x => Fortran.tpmv env rt uu tt dd n ap x incx) layout uplo trans diag x

variable [Div T]

def trsv (env : CompactEnv) (rt : Runtime) (site : Site) (layout uplo trans diag n : Int) (a : Mem T) (lda : Int) (x : Mem T)
    (incx : Int) : Mem T :=
  triangularVector (fun uplo diag x => rowMajorConjTrsv uplo diag n a lda x incx)
    (fun uu tt dd x => Fortran.trsv env rt site uu tt dd n a lda x incx) layout uplo trans diag x

def tbsv (env : CompactEnv) (rt : Runtime) (layout uplo trans diag n k : Int) (a : Mem T) (lda : Int) (x : Mem T)
    (incx : Int) : Mem T :=
  triangularVector (fun uplo diag x => rowMajorConjTbsv uplo diag n k a lda x incx)
    (fun uu tt dd x => Fortran.tbsv env rt uu tt dd n k a lda x incx) layout uplo trans diag x

def tpsv (env : CompactEnv) (rt : Runtime) (layout uplo trans diag n : Int) (ap : Mem T) (x : Mem T) (incx : Int) : Mem T :=
  triangularVector (fun uplo diag x => rowMajorConjTpsv uplo diag n ap x incx)
    (fun uu tt dd x => Fortran.tpsv env rt uu tt dd n ap x incx) layout uplo trans diag x

end Vectors

section Ranks

variable {T : Type} [CommRing T] [Scalar T]

def ger (leaves : GerLeaves T) (layout m n : Int) (alpha : T) (x : Mem T) (incx : Int) (y : Mem T) (incy : Int) (a : Mem T)
    (lda : Int) (conjY : Bool) : Mem T :=
  if !validLayout layout then a
  else if layout = cblasRowMajor then rowMajorGer m n alpha x incx y incy a lda conjY
  else Fortran.ger leaves m n alpha x incx y incy a lda conjY

variable (tuning : RankUpdateProfile) (float : FloatArithmetic) (rt : Runtime) (site : Site) (layout uplo n : Int)
  (alpha : T) (x : Mem T) (incx : Int)

def syr (a : Mem T) (lda : Int) : Mem T :=
  if !validLayout layout then a
  else Fortran.syr tuning float rt site (uploFor layout uplo) n alpha x incx a lda

def her (a : Mem T) (lda : Int) : Mem T :=
  if !validLayout layout then a
  else Fortran.her tuning float rt site (uploFor layout uplo) n alpha x incx a lda

def spr (ap : Mem T) : Mem T :=
  if !validLayout layout then ap
  else Fortran.spr tuning float rt site (uploFor layout uplo) n alpha x incx ap

def hpr (ap : Mem T) : Mem T :=
  if !validLayout layout then ap
  else Fortran.hpr tuning float rt site (uploFor layout uplo) n alpha x incx ap

variable (y : Mem T) (incy : Int)

def syr2 (a : Mem T) (lda : Int) : Mem T :=
  if !validLayout layout then a
  else Fortran.syr2 tuning float rt site (uploFor layout uplo) n alpha x incx y incy a lda

def her2 (a : Mem T) (lda : Int) : Mem T :=
  if !validLayout layout then a
  else Fortran.her2 tuning float rt site (uploFor layout uplo) n alpha x incx y incy a lda

def spr2 (ap : Mem T) : Mem T :=
  if !validLayout layout then ap
  else Fortran.spr2 tuning float rt site (uploFor layout uplo) n alpha x incx y incy ap

def hpr2 (ap : Mem T) : Mem T :=
  if !validLayout layout then ap
  else Fortran.hpr2 tuning float rt site (uploFor layout uplo) n alpha x incx y incy ap

end Ranks

section Matrices

variable {T : Type} [CommRing T] [Scalar T]

-- Read by columns a row-major product is transposed: the operands change places.
def gemm (env : Level3Env T) (rt : Runtime) (site : Site) (layout transa transb m n k : Int) (alpha : T) (a : Mem T) (lda : Int)
    (b : Mem T) (ldb : Int) (beta : T) (c : Mem T) (ldc : Int) : Mem T :=
  if !validLayout layout ∨ !validTrans transa ∨ !validTrans transb then c
  else
    let ta := transChar (pick layout transb transa)
    let tb := transChar (pick layout transa transb)
    Fortran.gemm env rt site ta tb (pick layout n m) (pick layout m n) k alpha (pick layout b a) (pick layout ldb lda)
      (pick layout a b) (pick layout lda ldb) beta c ldc

def symm (env : Level3Env T) (rt : Runtime) (site : Site) (herm : Bool) (layout side uplo m n : Int) (alpha : T) (a : Mem T)
    (lda : Int) (b : Mem T) (ldb : Int) (beta : T) (c : Mem T) (ldc : Int) : Mem T :=
  if !validLayout layout then c
  else
    Fortran.symm env rt site herm (sideFor layout side) (uploFor layout uplo) (pick layout n m) (pick layout m n) alpha a lda b
      ldb beta c ldc

def syrk (env : Level3Env T) (rt : Runtime) (site : Site) (layout uplo trans n k : Int) (alpha : T) (a : Mem T) (lda : Int)
    (beta : T) (c : Mem T) (ldc : Int) : Mem T :=
  if !validLayout layout then c
  else Fortran.syrk env rt site (uploFor layout uplo) (transFor T layout trans) n k alpha a lda beta c ldc

def syr2k (env : Level3Env T) (rt : Runtime) (site : Site) (layout uplo trans n k : Int) (alpha : T) (a : Mem T) (lda : Int)
    (b : Mem T) (ldb : Int) (beta : T) (c : Mem T) (ldc : Int) : Mem T :=
  if !validLayout layout then c
  else Fortran.syr2k env rt site (uploFor layout uplo) (transFor T layout trans) n k alpha a lda b ldb beta c ldc

-- No wrapper of the Hermitian updates takes ConjTrans for Trans.
def herk (env : Level3Env T) (rt : Runtime) (site : Site) (layout uplo trans n k : Int) (alpha : T) (a : Mem T) (lda : Int)
    (beta : T) (c : Mem T) (ldc : Int) : Mem T :=
  if !validLayout layout then c
  else
    Fortran.herk env rt site (uploFor layout uplo) (if layout = cblasRowMajor then rowMajorTransChar trans else transChar trans) n k
      alpha a lda beta c ldc

def her2k (env : Level3Env T) (rt : Runtime) (site : Site) (layout uplo trans n k : Int) (alpha : T) (a : Mem T) (lda : Int)
    (b : Mem T) (ldb : Int) (beta : T) (c : Mem T) (ldc : Int) : Mem T :=
  if !validLayout layout then c
  else
    Fortran.her2k env rt site (uploFor layout uplo) (if layout = cblasRowMajor then rowMajorTransChar trans else transChar trans) n k
      alpha a lda b ldb beta c ldc

variable [LawfulScalar T] [Div T]

def trmm (env : TriangularEnv T) (rt : Runtime) (site : Site) (layout side uplo trans diag m n : Int) (alpha : T) (a : Mem T)
    (lda : Int) (b : Mem T) (ldb : Int) : Mem T :=
  if !validLayout layout ∨ !validSide side ∨ !validUplo uplo ∨ !validTrans trans ∨ !validDiag diag then b
  else
    Fortran.trmm env rt site (sideFor layout side) (uploFor layout uplo) (transChar trans) (diagChar diag) (pick layout n m)
      (pick layout m n) alpha a lda b ldb

def trsm (env : TriangularEnv T) (rt : Runtime) (site : Site) (layout side uplo trans diag m n : Int) (alpha : T) (a : Mem T)
    (lda : Int) (b : Mem T) (ldb : Int) : Mem T :=
  if !validLayout layout ∨ !validSide side ∨ !validUplo uplo ∨ !validTrans trans ∨ !validDiag diag then b
  else
    Fortran.trsm env rt site (sideFor layout side) (uploFor layout uplo) (transChar trans) (diagChar diag) (pick layout n m)
      (pick layout m n) alpha a lda b ldb

end Matrices

end Cblas

end Zynum
