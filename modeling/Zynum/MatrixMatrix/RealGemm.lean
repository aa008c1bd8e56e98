import Zynum.MatrixMatrix.PlannerExact

set_option autoImplicit false

/- The real half of gemm (core/matrix_matrix/gemm.zig): vector edges, short and
   narrow shapes, the planner, and the portable triple loop behind them. -/
namespace Zynum

open ArrayProgram

structure RealGemmEnv (R : Type) [CommRing R] [Scalar R] where
  kernels : RealKernels R
  profile : PlanningProfile R
  leaves : ExactGemvLeaves R

variable {R : Type} [CommRing R] [Scalar R]

def gemvAt (env : RealGemmEnv R) (rt : Runtime) (site : Site) (mode : TransposeMode) (m n : Int) (alpha : R) (a : Mem R)
    (lda : Int) (x : Mem R) (incx : Int) (beta : R) (y : Mem R) (incy : Int) : Mem R :=
  gemv env.leaves.toGemvLeaves rt site mode m n alpha a lda x incx beta y incy

def plannerNoTrans (env : RealGemmEnv R) (rt : Runtime) (site : Site) (m n k : Int) (alpha : R) (a : Mem R) (lda : Int)
    (b : Mem R) (ldb : Int) (beta : R) (c : Mem R) (ldc : Int) : Mem R :=
  noTransReal env.kernels env.profile rt site m n k alpha a lda b ldb beta c ldc

def gemmNoTransRealShortWideTailN2048 (env : RealGemmEnv R) (rt : Runtime) (site : Site) (m alignedRows k : Int) (alpha : R)
    (a : Mem R) (lda : Int) (b : Mem R) (ldb : Int) (beta : R) (c : Mem R) (ldc : Int) : Mem R :=
  let aligned := plannerNoTrans env rt (0 :: site) alignedRows 2048 k alpha a lda b ldb beta c ldc
  loopRange (toUsize alignedRows) (toUsize m) (fun row c =>
    let xTail : Mem R := fun p => a (matIndex lda row p)
    let yTail : Mem R := fun j => c (matIndex ldc row j)
    let done := gemvAt env rt (1 :: row :: site) .trans k 2048 alpha b ldb xTail 1 beta yTail 1
    loop 2048 (fun j c => Function.update c (matIndex ldc row j) (done j)) c) aligned

def gemvColumn (env : RealGemmEnv R) (rt : Runtime) (site : Site) (m k : Int) (alpha : R) (a : Mem R) (lda : Int) (b : Mem R)
    (ldb : Int) (beta : R) (ldc : Int) (j : Nat) (c : Mem R) : Mem R :=
  onTail (matIndex ldc 0 j)
    (fun y => gemvAt env rt site .noTrans m k alpha a lda (view b (matIndex ldb 0 j)) 1 beta y 1) c

def gemmNoTransReal (env : RealGemmEnv R) (rt : Runtime) (site : Site) (m n k : Int) (alpha : R) (a : Mem R) (lda : Int)
    (b : Mem R) (ldb : Int) (beta : R) (c : Mem R) (ldc : Int) : Mem R :=
  if m ≤ 0 ∨ n ≤ 0 then c
  else if k ≤ 0 ∨ isZero alpha then scaleMatrix (toUsize m) (toUsize n) beta c ldc
  else if m = 17 ∧ n = 2048 ∧ k ≥ 128 ∧ k ≤ 1024 then
    gemmNoTransRealShortWideTailN2048 env rt site m 16 k alpha a lda b ldb beta c ldc
  else if m = 34 ∧ n = 2048 ∧ k ≥ 256 ∧ k ≤ 1024 then
    gemmNoTransRealShortWideTailN2048 env rt site m 32 k alpha a lda b ldb beta c ldc
  else if n = 1 ∧ k > 0 then gemvAt env rt site .noTrans m k alpha a lda b 1 beta c 1
  else if m = 1 ∧ lda = 1 ∧ ldc = 1 ∧ k ≥ 128 then gemvAt env rt site .trans k n alpha b ldb a 1 beta c 1
  else if n = 17 ∧ m ≥ 1024 ∧ k ≥ 128 then
    gemvColumn env rt (1 :: site) m k alpha a lda b ldb beta ldc 16
      (plannerNoTrans env rt (0 :: site) m 16 k alpha a lda b ldb beta c ldc)
  else if n > 1 ∧ n ≤ 17 ∧ n ≠ 16 ∧ m ≥ 1024 ∧ k ≥ 128 then
    loop (toUsize n) (fun j c => gemvColumn env rt (j :: site) m k alpha a lda b ldb beta ldc j c) c
  else plannerNoTrans env rt site m n k alpha a lda b ldb beta c ldc

def tryGemmNoTransTransposedBReal (env : RealGemmEnv R) (rt : Runtime) (site : Site) (m n k : Int) (alpha : R) (a : Mem R)
    (lda : Int) (b : Mem R) (ldb : Int) (beta : R) (c : Mem R) (ldc : Int) : Option (Mem R) :=
  if k ≥ 128 ∧ isZero alpha = false ∧ n = 1 ∧ m ≥ 128 then
    some (gemvAt env rt site .noTrans m k alpha a lda b ldb beta c 1)
  else if k ≥ 128 ∧ isZero alpha = false ∧ m = 1 ∧ n ≥ 128 then
    some (gemvAt env rt site .noTrans n k alpha b ldb a lda beta c ldc)
  else noTransTransposedBReal env.kernels env.profile rt site m n k alpha a lda b ldb beta c ldc

def tryGemmTransposedAReal (env : RealGemmEnv R) (rt : Runtime) (site : Site) (transb : TransposeMode) (m n k : Int)
    (alpha : R) (a : Mem R) (lda : Int) (b : Mem R) (ldb : Int) (beta : R) (c : Mem R) (ldc : Int) : Option (Mem R) :=
  transposedAReal env.kernels env.profile rt site m n k alpha a lda b ldb (if transb = .trans then .trans else .noTrans)
    beta c ldc

-- matrixValue of core/matrix_vector/access.zig.
def matrixValue (mode : TransposeMode) (a : Mem R) (lda : Int) (i j : Nat) : R := opEntry mode (denseEntry a lda) i j

def gemmPortableLoop (transa transb : TransposeMode) (m n k : Nat) (alpha : R) (a : Mem R) (lda : Int) (b : Mem R)
    (ldb : Int) (beta : R) (c : Mem R) (ldc : Int) : Mem R :=
  loop n (fun j c => loop m (fun i c =>
    let sum := loop k (fun p sum => sum + matrixValue transa a lda i p * matrixValue transb b ldb p j) 0
    let idxc := matIndex ldc i j
    Function.update c idxc (alpha * sum + if isZero beta then 0 else beta * c idxc)) c) c

def gemmReal (env : RealGemmEnv R) (rt : Runtime) (site : Site) (transa transb : TransposeMode) (m n k : Int) (alpha : R)
    (a : Mem R) (lda : Int) (b : Mem R) (ldb : Int) (beta : R) (c : Mem R) (ldc : Int) : Mem R :=
  if m ≤ 0 ∨ n ≤ 0 then c
  else if transa = .noTrans ∧ transb = .noTrans then gemmNoTransReal env rt site m n k alpha a lda b ldb beta c ldc
  else
    let tried := if transa = .noTrans ∧ transb = .trans then
        tryGemmNoTransTransposedBReal env rt site m n k alpha a lda b ldb beta c ldc
      else if transa = .trans ∧ (transb = .noTrans ∨ transb = .trans) then
        tryGemmTransposedAReal env rt site transb m n k alpha a lda b ldb beta c ldc
      else none
    match tried with
    | some done => done
    | none =>
      if toUsize k = 0 ∨ isZero alpha then scaleMatrix (toUsize m) (toUsize n) beta c ldc
      else gemmPortableLoop transa transb (toUsize m) (toUsize n) (toUsize k) alpha a lda b ldb beta c ldc

end Zynum
