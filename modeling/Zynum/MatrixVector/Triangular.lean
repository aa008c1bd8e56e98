import Zynum.MatrixVector.Access

set_option autoImplicit false

/- TRMV and TRSV of core/matrix_vector/triangular.zig. A fixed SIMD body stores
   element by element what the scalar loop stores, and a fixed dot product is the
   same exact sum. -/
namespace Zynum

open ArrayProgram

structure TriangularVectorProfile where
  enableFixedBodies : Bool
  denseVectorMin : Nat
  complexVectorParallelMin : Nat

def productionTriangular : TriangularVectorProfile := ⟨false, 64, 512 * 1024⟩

def TriangularVectorProfile.preferDenseVector (self : TriangularVectorProfile) (n : Nat) : Bool := n ≥ self.denseVectorMin

def TriangularVectorProfile.keepComplexDependencySerial (self : TriangularVectorProfile) (n : Nat) : Bool :=
  n < self.complexVectorParallelMin

-- fixedBodies says whether the target has the fixed SIMD bodies at all.
structure VectorEnv where
  tuning : TriangularVectorProfile
  fixedBodies : Bool

variable {T : Type} [CommRing T] [Scalar T]

def opIsUpper (uplo : Triangle) (mode : TransposeMode) : Bool :=
  (mode = .noTrans && uplo = .upper) || (mode ≠ .noTrans && uplo = .lower)

def denseAxpy (env : VectorEnv) (rt : Runtime) (site : Site) (n : Nat) (alpha : T) (a : Mem T) (aStart : Nat) (x : Mem T)
    (xStart : Nat) : Mem T :=
  if n = 0 ∨ isZero alpha then x
  else if env.tuning.enableFixedBodies ∧ env.fixedBodies then
    axpyUnit (fun av xv => xv + alpha * av) a aStart xStart 0 n x
  else if env.tuning.preferDenseVector n ∧ isReal T then axpyUnitReal n alpha a aStart x xStart
  else if env.tuning.preferDenseVector n ∧ env.tuning.keepComplexDependencySerial n then
    axpy rt site n alpha a aStart 1 x xStart 1
  else loop n (fun i x => Function.update x (xStart + i) (x (xStart + i) + alpha * a (aStart + i))) x

def denseDot (env : VectorEnv) (rt : Runtime) (site : Site) (n : Nat) (a : Mem T) (aStart : Nat) (x : Mem T) (xStart : Nat)
    (conjugateA : Bool) : T :=
  if n ≠ 0 ∧ env.tuning.enableFixedBodies ∧ env.fixedBodies then dotUnit 0 n a aStart x xStart conjugateA
  else if env.tuning.preferDenseVector n ∧ isReal T then dotUnitReal n a aStart x xStart
  else if env.tuning.preferDenseVector n ∧ env.tuning.keepComplexDependencySerial n then
    dot rt site n a aStart 1 x xStart 1 conjugateA
  else loop n (fun i sum => sum + conjugateIf (a (aStart + i)) conjugateA * x (xStart + i)) 0

-- The stored part of a column: rows row0 to row1 from offset on, with the diagonal.
structure StoredColumn where
  row0 : Nat
  row1 : Nat
  offset : Nat
  diagOffset : Nat

def denseColumn (uplo : Triangle) (n : Nat) (lda : Int) (column : Nat) : StoredColumn :=
  match uplo with
  | .upper => ⟨0, column + 1, column * toUsize lda, column * toUsize lda + column⟩
  | .lower => ⟨column, n, column * toUsize lda + column, column * toUsize lda + column⟩

-- The column sweep that the unit-stride multiplies share; a leaf is told the
-- column it works for, the count, the coefficient and where both stretches start.
def multiplyColumns (axpy : Nat → Nat → T → Nat → Mem T → Nat → Mem T) (dot : Nat → Nat → Nat → Mem T → Nat → T)
    (column : Nat → StoredColumn) (uplo : Triangle) (mode : TransposeMode) (diag : Diagonal) (n : Nat) (a : Mem T)
    (x : Mem T) : Mem T :=
  if mode = .noTrans then
    if uplo = .upper then
      loop n (fun j x =>
        let xj := x j
        let x := axpy j (j - (column j).row0) xj (column j).offset x (column j).row0
        if diag = .nonUnit then Function.update x j (a (column j).diagOffset * xj) else x) x
    else
      loop n (fun step x =>
        let j := n - 1 - step
        let xj := x j
        let x := if diag = .nonUnit then Function.update x j (a (column j).diagOffset * xj) else x
        axpy j ((column j).row1 - (j + 1)) xj ((column j).offset + 1) x (j + 1)) x
  else
    let conjugateA := decide (mode = .conjTrans)
    if uplo = .upper then
      loop n (fun step x =>
        let j := n - 1 - step
        let sum := dot j (j - (column j).row0) (column j).offset x (column j).row0
        let diagonal := if diag = .unit then 1 else conjugateIf (a (column j).diagOffset) conjugateA
        Function.update x j (sum + diagonal * x j)) x
    else
      loop n (fun j x =>
        let diagonal := if diag = .unit then 1 else conjugateIf (a (column j).diagOffset) conjugateA
        let sum := diagonal * x j
        Function.update x j (sum + dot j ((column j).row1 - (j + 1)) ((column j).offset + 1) x (j + 1))) x

-- The source writes the diagonal product of the dense routine the other way round.
def trmvUnit (env : VectorEnv) (rt : Runtime) (site : Site) (uplo : Triangle) (mode : TransposeMode) (diag : Diagonal) (n : Nat)
    (a : Mem T) (lda : Int) (x : Mem T) : Mem T :=
  multiplyColumns (fun j count alpha aStart x xStart => denseAxpy env rt (j :: site) count alpha a aStart x xStart)
    (fun j count aStart x xStart => denseDot env rt (j :: site) count a aStart x xStart (decide (mode = .conjTrans)))
    (denseColumn uplo n lda) uplo mode diag n a x

def multiplyRow (entry : Nat → Nat → T) (n : Nat) (sx incx : Int) (row : Nat) (x : Mem T) : Mem T :=
  let sum := loop n (fun j sum => sum + entry row j * vectorGet x sx j incx) 0
  Function.update x (ix sx row incx) sum

def multiplyRows (upper : Bool) (entry : Nat → Nat → T) (n_ : Int) (x : Mem T) (incx : Int) : Mem T :=
  let n := toUsize n_
  let sx := startIndex n_ incx
  if upper then loop n (fun i x => multiplyRow entry n sx incx i x) x
  else loop n (fun step x => multiplyRow entry n sx incx (n - 1 - step) x) x

def trmvFallback (uplo : Triangle) (mode : TransposeMode) (diag : Diagonal) (n_ : Int) (a : Mem T) (lda : Int) (x : Mem T)
    (incx : Int) : Mem T :=
  multiplyRows (opIsUpper uplo mode) (triValue uplo diag mode a lda) n_ x incx

-- The unit-stride descriptor is feasible exactly at stride one.
def trmv (env : VectorEnv) (rt : Runtime) (site : Site) (uplo : Triangle) (mode : TransposeMode) (diag : Diagonal) (n_ : Int)
    (a : Mem T) (lda : Int) (x : Mem T) (incx : Int) : Mem T :=
  if n_ ≤ 0 ∨ incx = 0 then x
  else if incx = 1 then trmvUnit env rt site uplo mode diag (toUsize n_) a lda x
  else trmvFallback uplo mode diag n_ a lda x incx

variable [Div T]

-- The column sweep that the unit-stride solves share.
def solveColumns (axpy : Nat → Nat → T → Nat → Mem T → Nat → Mem T) (dot : Nat → Nat → Nat → Mem T → Nat → T)
    (column : Nat → StoredColumn) (uplo : Triangle) (mode : TransposeMode) (diag : Diagonal) (n : Nat) (a : Mem T)
    (x : Mem T) : Mem T :=
  if mode = .noTrans then
    if uplo = .upper then
      loop n (fun step x =>
        let j := n - 1 - step
        let xj := if diag = .nonUnit then x j / a (column j).diagOffset else x j
        axpy j (j - (column j).row0) (-xj) (column j).offset (Function.update x j xj) (column j).row0) x
    else
      loop n (fun j x =>
        let xj := if diag = .nonUnit then x j / a (column j).diagOffset else x j
        axpy j ((column j).row1 - (j + 1)) (-xj) ((column j).offset + 1) (Function.update x j xj) (j + 1)) x
  else
    let conjugateA := decide (mode = .conjTrans)
    if uplo = .upper then
      loop n (fun j x =>
        let xj := x j - dot j (j - (column j).row0) (column j).offset x (column j).row0
        Function.update x j (if diag = .nonUnit then xj / conjugateIf (a (column j).diagOffset) conjugateA else xj)) x
    else
      loop n (fun step x =>
        let j := n - 1 - step
        let xj := x j - dot j ((column j).row1 - (j + 1)) ((column j).offset + 1) x (j + 1)
        Function.update x j (if diag = .nonUnit then xj / conjugateIf (a (column j).diagOffset) conjugateA else xj)) x

def trsvUnit (env : VectorEnv) (rt : Runtime) (site : Site) (uplo : Triangle) (mode : TransposeMode) (diag : Diagonal) (n : Nat)
    (a : Mem T) (lda : Int) (x : Mem T) : Mem T :=
  solveColumns (fun j count alpha aStart x xStart => denseAxpy env rt (j :: site) count alpha a aStart x xStart)
    (fun j count aStart x xStart => denseDot env rt (j :: site) count a aStart x xStart (decide (mode = .conjTrans)))
    (denseColumn uplo n lda) uplo mode diag n a x

def solveRow (diag : Diagonal) (entry : Nat → Nat → T) (sx incx : Int) (row first last : Nat) (x : Mem T) : Mem T :=
  let t := loopRange first last (fun j t => t - entry row j * vectorGet x sx j incx) (vectorGet x sx row incx)
  Function.update x (ix sx row incx) (if diag = .nonUnit then t / entry row row else t)

def solveRows (upper : Bool) (diag : Diagonal) (entry : Nat → Nat → T) (n_ : Int) (x : Mem T) (incx : Int) : Mem T :=
  let n := toUsize n_
  let sx := startIndex n_ incx
  if upper then loop n (fun step x => solveRow diag entry sx incx (n - 1 - step) (n - 1 - step + 1) n x) x
  else loop n (fun i x => solveRow diag entry sx incx i 0 i x) x

def trsvFallback (uplo : Triangle) (mode : TransposeMode) (diag : Diagonal) (n_ : Int) (a : Mem T) (lda : Int) (x : Mem T)
    (incx : Int) : Mem T :=
  solveRows (opIsUpper uplo mode) diag (triValue uplo diag mode a lda) n_ x incx

def trsv (env : VectorEnv) (rt : Runtime) (site : Site) (uplo : Triangle) (mode : TransposeMode) (diag : Diagonal) (n_ : Int)
    (a : Mem T) (lda : Int) (x : Mem T) (incx : Int) : Mem T :=
  if n_ ≤ 0 ∨ incx = 0 then x
  else if incx = 1 then trsvUnit env rt site uplo mode diag (toUsize n_) a lda x
  else trsvFallback uplo mode diag n_ a lda x incx

end Zynum
