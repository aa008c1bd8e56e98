import Zynum.MatrixMatrix.Packing

set_option autoImplicit false

/- SYMM and HEMM: symmetric.zig, the blocked route of structured_blocked.zig and
   the two dense routes (symmetric_dense_gemm.zig, and the isolated x86_64 object).
   A route answers whether it ran, with the C it leaves. -/
namespace Zynum

open ArrayProgram

structure Options where
  blockSize : Nat := 64
  workspaceAvailable : Bool := true
  workspaceByteLimit : Nat := usizeMax
  directRankPanels : Bool := false
  packedRankPanels : Bool := false
  parallelPackedRankPanels : Bool := false
  packedRankWorkerLimit : Nat := 8
  packedRankPoolAvailable : Bool := true

def validOptions (options : Options) : Bool := options.blockSize > 0 && options.blockSize ≤ 256

def workspaceElements (options : Options) (bufferCount : Nat) : Option Nat :=
  if validOptions options = false ∨ options.workspaceAvailable = false then none
  else if options.blockSize * options.blockSize * bufferCount > usizeMax then none
  else some (options.blockSize * options.blockSize * bufferCount)

structure ActivePanelProfile where
  minOutputDimension : Nat
  blockSize : Nat

def ActivePanelProfile.candidate (self : ActivePanelProfile) (m n : Nat) : Bool :=
  m ≥ self.minOutputDimension && n ≥ self.minOutputDimension

def aarch64MacosActivePanelCandidate : ActivePanelProfile := ⟨128, 64⟩

structure StructuredProfile where
  denseMinDimension : Nat
  denseC64LeftSymmGapStart : Nat
  denseC64LeftSymmGapEnd : Nat
  rightMinDimension : Nat
  rightMinAspectRatio : Nat
  rightMinWork : Nat

def x86ObjectProfile : StructuredProfile := ⟨128, 128, 512, 128, 4, 8 * 1024 * 1024⟩

def blockCount (size blockSize : Nat) : Nat := divCeil size blockSize

variable {T : Type} [CommRing T] [Scalar T]

def acquireWorkspace (T : Type) [Scalar T] (rt : Runtime) (site : Site) (options : Options) (bufferCount : Nat) : Bool :=
  match workspaceElements options bufferCount with
  | none => false
  | some len => len * sizeOf T ≤ usizeMax && len * sizeOf T ≤ options.workspaceByteLimit && rt.workspace site len

def isComplexF64 (T : Type) [Scalar T] : Bool := Scalar.isComplex T && Scalar.precision T = .double

def StructuredProfile.denseCandidate (self : StructuredProfile) (T : Type) [Scalar T] (side : OperandSide) (hermitian : Bool)
    (m n : Nat) : Bool :=
  if m ≠ n ∨ m < self.denseMinDimension then false
  else if isComplexF64 T ∧ side = .left ∧ hermitian = false ∧ m > self.denseC64LeftSymmGapStart ∧
    m < self.denseC64LeftSymmGapEnd then false
  else true

def scaleGeneral (m n : Nat) (beta : T) (c : Mem T) (ldc : Int) : Mem T :=
  if isOne beta then c else scaleMatrix m n beta c ldc

def runSymmColumns (side : OperandSide) (uplo : Triangle) (m n : Nat) (alpha : T) (a : Mem T) (lda : Int) (b : Mem T)
    (ldb : Int) (beta : T) (ldc : Int) (herm : Bool) (taskIndex taskCount : Nat) (c : Mem T) : Mem T :=
  strideLoop taskIndex n taskCount (fun j c => loop m (fun i c =>
    let sum := match side with
      | .left => loop m (fun p sum => sum + symValue uplo a lda i p herm * b (matIndex ldb p j)) 0
      | .right => loop n (fun p sum => sum + b (matIndex ldb i p) * symValue uplo a lda p j herm) 0
    let idxc := matIndex ldc i j
    Function.update c idxc (alpha * sum + if isZero beta then 0 else beta * c idxc)) c) c

def fullSymmWorkspace (env : Level3Env T) (rt : Runtime) (site : Site) (uplo : Triangle) (order : Nat) (a : Mem T)
    (lda : Int) (hermitian : Bool) : Mem T :=
  let execute := fun index output =>
    let col := index * 32
    let cols := min 32 (order - col)
    onTail (col * order) (packSymmetricBlock uplo hermitian a lda 0 col order cols) output
  let jobs := blockCount order 32
  (rt.runTasks site jobs execute (env.scratch site)).getD (loop jobs execute (env.scratch site))

def fullSymmProduct (env : Level3Env T) (rt : Runtime) (site : Site) (side : OperandSide) (m n order : Nat) (alpha : T)
    (structured b : Mem T) (ldb : Int) (beta : T) (ldc : Int) (index : Nat) (c : Mem T) : Mem T :=
  let rowBlocks := blockCount m 64
  let row := index % rowBlocks * 64
  let col := index / rowBlocks * 64
  let rows := min 64 (m - row)
  let cols := min 64 (n - col)
  let ld : Int := order
  onTail (matIndex ldc row col) (fun c => env.gemm.run rt (index :: site) .noTrans .noTrans rows cols ld alpha
    (if side = .left then view structured row else view b row) (if side = .left then ld else ldb)
    (if side = .left then view b (matIndex ldb 0 col) else view structured (col * order)) (if side = .left then ldb else ld)
    beta c ldc) c

def tryFullSymm (env : Level3Env T) (rt : Runtime) (site : Site) (options : Options) (side : OperandSide) (uplo : Triangle)
    (m n : Nat) (alpha : T) (a : Mem T) (lda : Int) (b : Mem T) (ldb : Int) (beta : T) (c : Mem T) (ldc : Int)
    (hermitian : Bool) : Bool × Mem T :=
  let order := if side = .left then m else n
  if rt.arch ≠ .x86_64 ∨ rt.maxThreads (0 :: site) ≤ 1 ∨ order < 256 ∨ order > 1024 then (false, c)
  else if validOptions options = false ∨ options.workspaceAvailable = false then (false, c)
  else if rt.workspace (1 :: site) (order * order) = false then (false, c)
  else
    let workspace := fullSymmWorkspace env rt (2 :: site) uplo order a lda hermitian
    let product := fullSymmProduct env rt (3 :: site) side m n order alpha workspace b ldb beta ldc
    match rt.runTasks (4 :: site) (blockCount m 64 * blockCount n 64) product c with
    | some done => (true, done)
    | none =>
      (true, env.gemm.run rt (5 :: site) .noTrans .noTrans m n order alpha (if side = .left then workspace else b)
        (if side = .left then order else ldb) (if side = .left then b else workspace) (if side = .left then ldb else order)
        beta c ldc)

def symmLeftPanels (env : Level3Env T) (rt : Runtime) (site : Site) (bs : Nat) (uplo : Triangle) (m : Nat) (n_ : Int)
    (alpha : T) (a : Mem T) (lda : Int) (b : Mem T) (ldb : Int) (beta : T) (ldc : Int) (hermitian : Bool) (c : Mem T) : Mem T :=
  strideLoop 0 m bs (fun iBase c =>
    let ib := blockLength m bs iBase
    strideLoop 0 m bs (fun p0 c =>
      let pb := blockLength m bs p0
      let panel := packSymmetricBlock uplo hermitian a lda iBase p0 ib pb (env.scratch (iBase :: p0 :: site))
      onTail iBase (fun c => env.gemm.run rt (iBase :: p0 :: site) .noTrans .noTrans ib n_ pb alpha panel ib (view b p0) ldb
        (if p0 = 0 then beta else 1) c ldc) c) c) c

def symmRightPanels (env : Level3Env T) (rt : Runtime) (site : Site) (bs : Nat) (uplo : Triangle) (m_ : Int) (n : Nat)
    (alpha : T) (a : Mem T) (lda : Int) (b : Mem T) (ldb : Int) (beta : T) (ldc : Int) (hermitian : Bool) (c : Mem T) : Mem T :=
  strideLoop 0 n bs (fun j0 c =>
    let jb := blockLength n bs j0
    strideLoop 0 n bs (fun p0 c =>
      let pb := blockLength n bs p0
      let panel := packSymmetricBlock uplo hermitian a lda p0 j0 pb jb (env.scratch (j0 :: p0 :: site))
      onTail (matIndex ldc 0 j0) (fun c => env.gemm.run rt (j0 :: p0 :: site) .noTrans .noTrans m_ jb pb alpha
        (view b (matIndex ldb 0 p0)) ldb panel pb (if p0 = 0 then beta else 1) c ldc) c) c) c

-- trySymm of structured_blocked.zig.
def blockedTrySymm (env : Level3Env T) (rt : Runtime) (site : Site) (options : Options) (side : OperandSide) (uplo : Triangle)
    (m_ n_ : Int) (alpha : T) (a : Mem T) (lda : Int) (b : Mem T) (ldb : Int) (beta : T) (c : Mem T) (ldc : Int)
    (hermitian : Bool) : Bool × Mem T :=
  if m_ ≤ 0 ∨ n_ ≤ 0 then (true, c)
  else
    let m := toUsize m_
    let n := toUsize n_
    if isZero alpha then (true, scaleGeneral m n beta c ldc)
    else
      orTry (tryFullSymm env rt (0 :: site) options side uplo m n alpha a lda b ldb beta c ldc hermitian) (fun c =>
        if acquireWorkspace T rt (1 :: site) options 1 = false then (false, c)
        else
          match side with
          | .left => (true, symmLeftPanels env rt (2 :: site) options.blockSize uplo m n_ alpha a lda b ldb beta ldc hermitian c)
          | .right => (true, symmRightPanels env rt (2 :: site) options.blockSize uplo m_ n alpha a lda b ldb beta ldc hermitian c))

def saveOutput (m n : Nat) (c : Mem T) (ldc : Int) (buffer : Mem T) : Mem T :=
  loop n (fun j buffer => loop m (fun i buffer => Function.update buffer (i + j * m) (c (matIndex ldc i j))) buffer) buffer

def denseSymmetric (uplo : Triangle) (order : Nat) (a : Mem T) (lda : Int) (herm : Bool) (buffer : Mem T) : Mem T :=
  loop order (fun j buffer => loop order (fun i buffer =>
    Function.update buffer (i + j * order) (symValue uplo a lda i j herm)) buffer) buffer

-- The part the two dense routes share, after their gates. Packed complex products
-- want unit alpha and zero beta, so C is saved and both scalars come after.
def denseSymmProduct (env : Level3Env T) (rt : Runtime) (site : Site) (applyAlpha : T → T) (side : OperandSide)
    (uplo : Triangle) (m_ n_ : Int) (alpha : T) (a : Mem T) (lda : Int) (b : Mem T) (ldb : Int) (beta : T) (c : Mem T)
    (ldc : Int) (herm : Bool) : Bool × Mem T :=
  let m := toUsize m_
  let n := toUsize n_
  let order := if side = .left then m else n
  let savedLen := if Scalar.isComplex T ∧ isZero beta = false then m * n else 0
  let workspaceLen := order * order + savedLen
  if workspaceLen * sizeOf T > usizeMax ∨ workspaceLen * sizeOf T > 64 * 1024 * 1024 then (false, c)
  else if rt.workspace site workspaceLen = false then (false, c)
  else
    let denseA := denseSymmetric uplo order a lda herm (env.scratch (0 :: site))
    let product := fun (alpha beta : T) (c : Mem T) => match side with
      | .left => env.gemm.run rt (1 :: site) .noTrans .noTrans m_ n_ m_ alpha denseA m_ b ldb beta c ldc
      | .right => env.gemm.run rt (1 :: site) .noTrans .noTrans m_ n_ n_ alpha b ldb denseA n_ beta c ldc
    if Scalar.isComplex T then
      let savedC := if savedLen ≠ 0 then saveOutput m n c ldc (env.scratch (2 :: site)) else env.scratch (2 :: site)
      (true, loop n (fun j c => loop m (fun i c =>
        let index := matIndex ldc i j
        let scaled := applyAlpha (c index)
        Function.update c index (if savedLen = 0 then scaled else scaled + beta * savedC (i + j * m))) c) (product 1 0 c))
    else (true, product alpha beta c)

def useDenseSymmGemm (T : Type) [Scalar T] (rt : Runtime) (m n order : Nat) : Bool :=
  if rt.arch ≠ .x86_64 then false
  else if isComplexF64 T ∧ m ≠ n ∧ order < 256 then false
  else m ≥ 128 && n ≥ 128 && order ≥ 128

-- trySymm of symmetric_dense_gemm.zig.
def denseGemmTrySymm (env : Level3Env T) (rt : Runtime) (site : Site) (side : OperandSide) (uplo : Triangle) (m_ n_ : Int)
    (alpha : T) (a : Mem T) (lda : Int) (b : Mem T) (ldb : Int) (beta : T) (c : Mem T) (ldc : Int) (herm : Bool) : Bool × Mem T :=
  if isZero alpha then (true, scaleGeneral (toUsize m_) (toUsize n_) beta c ldc)
  else if useDenseSymmGemm T rt (toUsize m_) (toUsize n_) (if side = .left then toUsize m_ else toUsize n_) = false then
    (false, c)
  else denseSymmProduct env rt site (fun value => if isOne alpha then value else alpha * value) side uplo m_ n_ alpha a
  lda b ldb beta c ldc herm

-- trySymm of the isolated object.
def isolatedTrySymm (env : Level3Env T) (rt : Runtime) (site : Site) (side : OperandSide) (uplo : Triangle) (m_ n_ : Int)
    (alpha : T) (a : Mem T) (lda : Int) (b : Mem T) (ldb : Int) (beta : T) (c : Mem T) (ldc : Int) (herm : Bool) : Bool × Mem T :=
  if env.isolatedStructured = false ∨ m_ ≤ 0 ∨ n_ ≤ 0 then (false, c)
  else if x86ObjectProfile.denseCandidate T side herm (toUsize m_) (toUsize n_) = false then (false, c)
  else if isZero alpha then (true, scaleMatrix (toUsize m_) (toUsize n_) beta c ldc)
  else denseSymmProduct env rt site (fun value => alpha * value) side uplo m_ n_ alpha a lda b ldb beta c ldc herm

def symmColumnRoute (rt : Runtime) (site : Site) (side : OperandSide) (uplo : Triangle) (m n : Nat) (alpha : T) (a : Mem T)
    (lda : Int) (b : Mem T) (ldb : Int) (beta : T) (c : Mem T) (ldc : Int) (herm : Bool) : Mem T :=
  let order := if side = .left then m else n
  let work := satMul (satMul m n) order
  let taskCount := if work ≥ 8 * 1024 * 1024 then min (rt.taskCount site n) 32 else 1
  let columns := runSymmColumns side uplo m n alpha a lda b ldb beta ldc herm
  if taskCount > 1 then
    (rt.runTasks site taskCount (fun taskIndex => columns taskIndex taskCount) c).getD (columns 0 1 c)
  else columns 0 1 c

def symm (env : Level3Env T) (rt : Runtime) (site : Site) (side : OperandSide) (uplo : Triangle) (m_ n_ : Int) (alpha : T)
    (a : Mem T) (lda : Int) (b : Mem T) (ldb : Int) (beta : T) (c : Mem T) (ldc : Int) (herm : Bool) : Mem T :=
  if m_ ≤ 0 ∨ n_ ≤ 0 then c
  else if isZero alpha then
    if isOne beta then c else scaleMatrix (toUsize m_) (toUsize n_) beta c ldc
  else
    let m := toUsize m_
    let n := toUsize n_
    let activePanel := fun (c : Mem T) =>
      if rt.arch = .aarch64 ∧ env.macos ∧ aarch64MacosActivePanelCandidate.candidate m n ∧
          (env.capability = .aarch64AsimdFma ∨ env.capability = .aarch64Sme) then
        blockedTrySymm env rt (0 :: site) { blockSize := aarch64MacosActivePanelCandidate.blockSize } side uplo m_ n_ alpha a
          lda b ldb beta c ldc herm
      else (false, c)
    let blocked := fun (c : Mem T) =>
      if rt.arch = .x86_64 ∧ m_ ≥ 128 ∧ n_ ≥ 128 ∧ (rt.maxThreads (1 :: site) = 1 ∨ (m_ ≥ 256 ∧ n_ ≥ 256)) ∧
          env.capability = .x86Avx2Fma then
        blockedTrySymm env rt (2 :: site)
          { blockSize := if rt.maxThreads (1 :: site) > 1 then 256 else if Scalar.isComplex T then 128 else 64 }
          side uplo m_ n_ alpha a lda b ldb beta c ldc herm
      else (false, c)
    let isolated := fun (c : Mem T) =>
      if rt.arch = .x86_64 ∧ x86ObjectProfile.denseCandidate T side herm m n then
        isolatedTrySymm env rt (3 :: site) side uplo m_ n_ alpha a lda b ldb beta c ldc herm
      else (false, c)
    orElse (orTry (orTry (activePanel c) blocked) isolated)
      (fun c => symmColumnRoute rt (4 :: site) side uplo m n alpha a lda b ldb beta c ldc herm)

end Zynum
