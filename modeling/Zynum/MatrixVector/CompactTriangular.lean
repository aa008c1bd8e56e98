import Zynum.MatrixVector.Triangular

set_option autoImplicit false

/- TBMV, TPMV, TBSV and TPSV of core/matrix_vector/triangular.zig with their
   unit-stride leaves: the band window of triangular.zig, triangular_band_solve.zig
   and triangular_packed_unit.zig. The leaves of the last two files are compiled
   into an object of their own that an x86_64 build may enable. -/
namespace Zynum

open ArrayProgram

-- band_window_min_n, band_window_max_fraction_denominator, packed_x86_min_n and the object's switch.
structure CompactEnv extends VectorEnv where
  bandWindowMinN : Nat
  bandWindowMaxFractionDenominator : Nat
  packedX86MinN : Nat
  isolatedEnabled : Bool

def CompactEnv.preferBandWindow (self : CompactEnv) (n k : Nat) : Bool :=
  n ≥ self.bandWindowMinN && k ≤ n / self.bandWindowMaxFractionDenominator

def CompactEnv.bandWindowAllowed (self : CompactEnv) (rt : Runtime) (n k incx : Int) : Bool :=
  if incx ≠ 1 ∨ n ≤ 0 ∨ k < 0 then false
  else if rt.arch ≠ .x86_64 then false
  else self.preferBandWindow (toUsize n) (toUsize k)

def CompactEnv.preferPackedX86 (self : CompactEnv) (rt : Runtime) (n : Nat) : Bool :=
  rt.arch = .x86_64 && n ≥ self.packedX86MinN

def packedColumn (uplo : Triangle) (n column : Nat) : StoredColumn :=
  match uplo with
  | .upper =>
    let offset := column * (column + 1) / 2
    ⟨0, column + 1, offset, offset + column⟩
  | .lower =>
    let offset := column * (2 * n - column + 1) / 2
    ⟨column, n, offset, offset⟩

def bandColumn (uplo : Triangle) (n k : Nat) (lda : Int) (column : Nat) : StoredColumn :=
  let columnOffset := column * toUsize lda
  match uplo with
  | .upper =>
    let row0 := column - min column k
    ⟨row0, column + 1, columnOffset + k + row0 - column, columnOffset + k⟩
  | .lower => ⟨column, column + 1 + min k (n - column - 1), columnOffset, columnOffset⟩

variable {T : Type} [CommRing T] [Scalar T]

-- The serial leaves of dependency_vector.zig.
def dependencyAxpy (n : Nat) (alpha : T) (a : Mem T) (aStart : Nat) (x : Mem T) (xStart : Nat) : Mem T :=
  if n = 0 then x else axpyUnit (fun av xv => xv + alpha * av) a aStart xStart 0 n x

def dependencyDot (n : Nat) (a : Mem T) (aStart : Nat) (x : Mem T) (xStart : Nat) (conjugateX : Bool) : T :=
  dotUnit 0 n a aStart x xStart (conjugateX && Scalar.isComplex T)

def packedAxpy (env : CompactEnv) (n : Nat) (alpha : T) (a : Mem T) (aStart : Nat) (x : Mem T) (xStart : Nat) : Mem T :=
  if n = 0 ∨ isZero alpha then x
  else if env.tuning.preferDenseVector n ∧ (isReal T ∨ env.tuning.keepComplexDependencySerial n) then
    dependencyAxpy n alpha a aStart x xStart
  else loop n (fun i x => Function.update x (xStart + i) (x (xStart + i) + alpha * a (aStart + i))) x

def packedDot (env : CompactEnv) (conjugateA : Bool) (n : Nat) (a : Mem T) (aStart : Nat) (x : Mem T) (xStart : Nat) : T :=
  if env.tuning.preferDenseVector n ∧ (isReal T ∨ env.tuning.keepComplexDependencySerial n) then
    dependencyDot n a aStart x xStart conjugateA
  else loop n (fun i sum => sum + conjugateIf (a (aStart + i)) conjugateA * x (xStart + i)) 0

def axpyContiguous (env : CompactEnv) (n : Nat) (alpha : T) (a : Mem T) (aStart : Nat) (x : Mem T) (xStart : Nat) : Mem T :=
  if n = 0 ∨ isZero alpha then x
  else if isReal T then dependencyAxpy n alpha a aStart x xStart
  else if env.tuning.preferDenseVector n ∧ env.tuning.keepComplexDependencySerial n then dependencyAxpy n alpha a aStart x xStart
  else loop n (fun i x => Function.update x (xStart + i) (x (xStart + i) + alpha * a (aStart + i))) x

def dotContiguous (env : CompactEnv) (conjugateA : Bool) (n : Nat) (a : Mem T) (aStart : Nat) (x : Mem T) (xStart : Nat) : T :=
  if n = 0 then 0
  else if isReal T then dependencyDot n a aStart x xStart false
  else if env.tuning.preferDenseVector n ∧ env.tuning.keepComplexDependencySerial n then dependencyDot n a aStart x xStart conjugateA
  else loop n (fun i sum => sum + conjugateIf (a (aStart + i)) conjugateA * x (xStart + i)) 0

def tpmvUnitLeaf (env : CompactEnv) (uplo : Triangle) (mode : TransposeMode) (diag : Diagonal) (n : Nat) (ap : Mem T)
    (x : Mem T) : Mem T :=
  multiplyColumns (fun _ count alpha aStart x xStart => packedAxpy env count alpha ap aStart x xStart)
    (fun _ count aStart x xStart => packedDot env (decide (mode = .conjTrans)) count ap aStart x xStart)
    (packedColumn uplo n) uplo mode diag n ap x

-- One row of the band window: from sum on, count entries of the matrix step apart.
def bandWindowRow (conjugateA : Bool) (a : Mem T) (matrixIndex matrixStep count : Nat) (x : Mem T) (xStart : Nat) (sum : T) : T :=
  loop count (fun s sum => sum + conjugateIf (a (matrixIndex + s * matrixStep)) conjugateA * x (xStart + s)) sum

def tbmvBandWindowUnitLeaf (uplo : Triangle) (mode : TransposeMode) (diag : Diagonal) (n k : Nat) (a : Mem T) (lda : Int)
    (x : Mem T) : Mem T :=
  let conjugateA := decide (mode = .conjTrans)
  if mode = .noTrans then
    let matrixStep := toUsize lda - 1
    if uplo = .upper then
      loop n (fun i x =>
        let matrixIndex := k + i * toUsize lda
        let sum := if diag = .unit then x i else a matrixIndex * x i
        Function.update x i
          (bandWindowRow false a (matrixIndex + matrixStep) matrixStep (min n (i + k + 1) - (i + 1)) x (i + 1) sum)) x
    else
      loop n (fun step x =>
        let i := n - 1 - step
        let jStart := i - min i k
        let matrixIndex := (i - jStart) + jStart * toUsize lda
        let sum := bandWindowRow false a matrixIndex matrixStep (i - jStart) x jStart 0
        Function.update x i
          (if diag = .unit then sum + x i else sum + a (matrixIndex + (i - jStart) * matrixStep) * x i)) x
  else if uplo = .upper then
    loop n (fun step x =>
      let i := n - 1 - step
      let jStart := i - min i k
      let matrixIndex := (k - (i - jStart)) + i * toUsize lda
      let sum := bandWindowRow conjugateA a matrixIndex 1 (i - jStart) x jStart 0
      Function.update x i
        (if diag = .unit then sum + x i else sum + conjugateIf (a (matrixIndex + (i - jStart) * 1)) conjugateA * x i)) x
  else
    loop n (fun i x =>
      let matrixIndex := i * toUsize lda
      let sum := if diag = .unit then x i else conjugateIf (a matrixIndex) conjugateA * x i
      Function.update x i (bandWindowRow conjugateA a (matrixIndex + 1) 1 (min n (i + k + 1) - (i + 1)) x (i + 1) sum)) x

def tbmv (env : CompactEnv) (uplo : Triangle) (mode : TransposeMode) (diag : Diagonal) (n_ k_ : Int) (a : Mem T) (lda : Int)
    (x : Mem T) (incx : Int) : Mem T :=
  if n_ ≤ 0 ∨ incx = 0 then x
  else if k_ < 0 then x
  else if incx = 1 ∧ env.preferBandWindow (toUsize n_) (toUsize k_) then
    tbmvBandWindowUnitLeaf uplo mode diag (toUsize n_) (toUsize k_) a lda x
  else multiplyRows (opIsUpper uplo mode) (triBandValue uplo mode diag (toUsize k_) a lda) n_ x incx

def tpmv (uplo : Triangle) (mode : TransposeMode) (diag : Diagonal) (n_ : Int) (ap : Mem T) (x : Mem T) (incx : Int) : Mem T :=
  if n_ ≤ 0 ∨ incx = 0 then x
  else multiplyRows (opIsUpper uplo mode) (triPackedValue uplo diag mode (toUsize n_) ap) n_ x incx

-- compact_triangular_entry.zig, on targets without the finite routes.
def tpmvEntry (env : CompactEnv) (rt : Runtime) (uplo : Triangle) (mode : TransposeMode) (diag : Diagonal) (n_ : Int) (ap : Mem T)
    (x : Mem T) (incx : Int) : Mem T :=
  if rt.arch = .x86_64 ∧ n_ > 0 ∧ incx ≠ 0 ∧ env.isolatedEnabled ∧ incx = 1 ∧ env.preferPackedX86 rt (toUsize n_) then
    tpmvUnitLeaf env uplo mode diag (toUsize n_) ap x
  else tpmv uplo mode diag n_ ap x incx

variable [Div T]

def tpsvUnitLeaf (env : CompactEnv) (uplo : Triangle) (mode : TransposeMode) (diag : Diagonal) (n : Nat) (ap : Mem T)
    (x : Mem T) : Mem T :=
  solveColumns (fun _ count alpha aStart x xStart => packedAxpy env count alpha ap aStart x xStart)
    (fun _ count aStart x xStart => packedDot env (decide (mode = .conjTrans)) count ap aStart x xStart)
    (packedColumn uplo n) uplo mode diag n ap x

def solveBandWindowLeaf (env : CompactEnv) (uplo : Triangle) (mode : TransposeMode) (diag : Diagonal) (n k : Nat) (a : Mem T)
    (lda : Int) (x : Mem T) : Mem T :=
  solveColumns (fun _ count alpha aStart x xStart => axpyContiguous env count alpha a aStart x xStart)
    (fun _ count aStart x xStart => dotContiguous env (decide (mode = .conjTrans)) count a aStart x xStart)
    (bandColumn uplo n k lda) uplo mode diag n a x

def tbsv (uplo : Triangle) (mode : TransposeMode) (diag : Diagonal) (n_ k_ : Int) (a : Mem T) (lda : Int) (x : Mem T)
    (incx : Int) : Mem T :=
  if n_ ≤ 0 ∨ incx = 0 then x
  else if k_ < 0 then x
  else solveRows (opIsUpper uplo mode) diag (triBandValue uplo mode diag (toUsize k_) a lda) n_ x incx

def tpsv (uplo : Triangle) (mode : TransposeMode) (diag : Diagonal) (n_ : Int) (ap : Mem T) (x : Mem T) (incx : Int) : Mem T :=
  if n_ ≤ 0 ∨ incx = 0 then x
  else solveRows (opIsUpper uplo mode) diag (triPackedValue uplo diag mode (toUsize n_) ap) n_ x incx

def tpsvEntry (env : CompactEnv) (rt : Runtime) (uplo : Triangle) (mode : TransposeMode) (diag : Diagonal) (n_ : Int) (ap : Mem T)
    (x : Mem T) (incx : Int) : Mem T :=
  if rt.arch = .x86_64 ∧ n_ > 0 ∧ incx ≠ 0 ∧ env.isolatedEnabled ∧ incx = 1 ∧ env.preferPackedX86 rt (toUsize n_) then
    tpsvUnitLeaf env uplo mode diag (toUsize n_) ap x
  else tpsv uplo mode diag n_ ap x incx

def tbsvEntry (env : CompactEnv) (rt : Runtime) (uplo : Triangle) (mode : TransposeMode) (diag : Diagonal) (n_ k_ : Int)
    (a : Mem T) (lda : Int) (x : Mem T) (incx : Int) : Mem T :=
  if rt.arch = .x86_64 ∧ n_ > 0 ∧ incx ≠ 0 ∧ k_ ≥ 0 ∧ env.isolatedEnabled ∧ env.bandWindowAllowed rt n_ k_ incx then
    solveBandWindowLeaf env uplo mode diag (toUsize n_) (toUsize k_) a lda x
  else tbsv uplo mode diag n_ k_ a lda x incx

end Zynum
