import Zynum.MatrixVector.SymmetricBand
import Zynum.MatrixVector.RankUpdate

set_option autoImplicit false

/- symv, hemv, spmv and hpmv of core/matrix_vector/symmetric.zig. The two lanes of a
   complex element are one lane here. -/
namespace Zynum

open ArrayProgram

inductive PackedImplementation where
  | compactSymmetricPacked
  | compactSymmetricPackedFused
  deriving DecidableEq, Repr

-- The fields of SymmetricProfile that the band product does not consult.
structure SymmetricVectorProfile where
  enableFusedRealPacked : Bool
  enableFusedRealPackedSingle : Bool
  enableFixedColumns : Bool
  privateWorkspaceMaxBytes : Nat
  realParallelMinWork : Nat
  hermitianParallelMinWork : Nat
  packedParallelMinN : Nat

namespace SymmetricVectorProfile

variable (self : SymmetricVectorProfile) (T : Type) [Scalar T]

def preferFourColumnRealBody (_ : SymmetricVectorProfile) (n : Nat) : Bool := n ≥ 256

def useUpperRangedRealWorkspace (_ : SymmetricVectorProfile) (upper : Bool) (n : Nat) : Bool :=
  isReal T && Scalar.precision T = .single && upper && n = 512

def balanceUpperHermitian (_ : SymmetricVectorProfile) (upper : Bool) (n : Nat) : Bool := upper && n ≥ 256

def preferRealParallel (n : Nat) : Bool := satMul n n ≥ self.realParallelMinWork

def preferHermitianParallel (n : Nat) : Bool := satMul n n ≥ self.hermitianParallelMinWork

def selectRealPackedSingleImplementation (aarch64 : Bool) : PackedImplementation :=
  if isReal T && self.enableFusedRealPackedSingle && aarch64 then .compactSymmetricPackedFused else .compactSymmetricPacked

def selectRealPackedImplementation (aarch64 : Bool) : PackedImplementation :=
  if isReal T && self.enableFusedRealPacked && aarch64 then .compactSymmetricPackedFused else .compactSymmetricPacked

def preferPackedParallel (n : Nat) : Bool := n ≥ self.packedParallelMinN

def workspaceAllowed (elementCount elementSize : Nat) : Bool := elementCount ≤ self.privateWorkspaceMaxBytes / elementSize

end SymmetricVectorProfile

-- What the routines ask of a build: its profile, and a column kernel that may decline.
structure SymmetricEnv (T : Type) where
  tuning : SymmetricVectorProfile
  float : FloatArithmetic
  aarch64 : Bool
  symmetricColumnsUnit : (upper hermitian : Bool) → (n j0 j1 : Nat) → (alpha : T) → (a : Mem T) → (lda : Int) →
    (x y : Mem T) → Option (Mem T)

variable {T : Type} [CommRing T] [Scalar T]

section Columns

variable (T) in
def elementLanes : Nat :=
  let reals := match Scalar.precision T with
    | .single => 8
    | .double => 4
  if isReal T then reals else reals / 2

def columnRow (columns : Nat) (herm : Bool) (col : Nat → Mem T) (temp1 : Nat → T) (x : Mem T) (i : Nat) (y : Mem T) : Mem T ×
    (Nat → T) :=
  (Function.update y i (loop columns (fun k yi => yi + col k i * temp1 k) (y i)), fun k => conjugateIf (col k i) herm * x i)

-- A vector of rows. Each lane keeps a sum for every column, in the accumulator that the vector goes to.
def columnVector (laneCount columns : Nat) (herm : Bool) (col : Nat → Mem T) (temp1 : Nat → T) (x : Mem T) (slot offset : Nat)
    (state : Mem T × (Nat → Nat → T)) : Mem T × (Nat → Nat → T) :=
  loop laneCount (fun lane state =>
    let row := columnRow columns herm col temp1 x (offset + lane) state.1
    let place := slot * laneCount + lane
    (row.1, fun k => Function.update (state.2 k) place (state.2 k place + row.2 k))) state

-- The rows of some columns: each takes its part of every column, and every column is summed against x.
def columnPass (laneCount unroll columns : Nat) (herm : Bool) (col : Nat → Mem T) (temp1 : Nat → T) (x : Mem T) (first last : Nat)
    (y : Mem T) : Mem T × (Nat → T) :=
  let wide := unroll * laneCount
  let unrolled := fitLoop first last wide (fun i => loop unroll (fun k =>
    columnVector laneCount columns herm col temp1 x (if columns = 1 then k else 0) (i + k * laneCount))) (y, fun _ _ => 0)
  let temp2_v := fun k lane => loop unroll (fun slot sum => sum + unrolled.2 k (slot * laneCount + lane)) 0
  let next := fitEnd first last wide
  let vectors := fitLoop next last laneCount (columnVector laneCount columns herm col temp1 x 0) (unrolled.1, temp2_v)
  let temp2 := fun k => loop laneCount (fun lane sum => sum + vectors.2 k lane) 0
  loopRange (fitEnd next last laneCount) last (fun i state =>
    let row := columnRow columns herm col temp1 x i state.1
    (row.1, fun k => state.2 k + row.2 k)) (vectors.1, temp2)

-- The triangle where the columns meet their own rows.
def columnEdges (columns : Nat) (herm : Bool) (alpha : T) (col : Nat → Mem T) (temp1 : Nat → T) (x : Mem T) (j : Nat)
    (state : Mem T × (Nat → T)) : Mem T × (Nat → T) :=
  loop columns (fun r state =>
    let own := state.1 (j + r) + alpha * state.2 r + temp1 r * diagonalValue herm (col r (j + r))
    loopRange (r + 1) columns (fun s state =>
      let ars := col s (j + r)
      (Function.update state.1 (j + r) (state.1 (j + r) + ars * temp1 s),
        Function.update state.2 s (state.2 s + conjugateIf ars herm * x (j + r))))
      (Function.update state.1 (j + r) own, state.2)) state

-- The bodies of one, two and four columns of an upper triangle. The pair of hemv adds its terms in another order.
def upperColumns (columns : Nat) (herm : Bool) (alpha : T) (a : Mem T) (lda : Int) (x : Mem T) (j : Nat) (y : Mem T) : Mem T :=
  let col := fun k => view a (matIndex lda 0 (j + k))
  let temp1 := fun k => alpha * x (j + k)
  let unroll := if isReal T then 4 else if columns = 1 then 2 else 1
  (columnEdges columns herm alpha col temp1 x j (columnPass (elementLanes T) unroll columns herm col temp1 x 0 j y)).1

def lowerColumnReal (n : Nat) (alpha : T) (a : Mem T) (lda : Int) (x : Mem T) (j : Nat) (y : Mem T) : Mem T :=
  let col := view a (matIndex lda 0 j)
  let temp1 := alpha * x j
  let y := Function.update y j (temp1 * col j + y j)
  let state := columnPass (elementLanes T) 4 1 false (fun _ => col) (fun _ => temp1) x (j + 1) n y
  Function.update state.1 j (state.1 j + alpha * state.2 0)

def symvColumnsUnitReal (env : SymmetricEnv T) (uplo : Triangle) (n j0 j1 : Nat) (alpha : T) (a : Mem T) (lda : Int)
    (x y : Mem T) : Mem T :=
  let fixed :=
    if env.tuning.enableFixedColumns then env.symmetricColumnsUnit (uplo = .upper) false n j0 j1 alpha a lda x y else none
  fixed.getD
    (match uplo with
    | .upper =>
      let four := env.tuning.preferFourColumnRealBody n
      let first := if four then fitEnd j0 j1 4 else j0
      let y := if four then fitLoop j0 j1 4 (upperColumns 4 false alpha a lda x) y else y
      loopRange first j1 (upperColumns 1 false alpha a lda x) y
    | .lower => loopRange j0 j1 (lowerColumnReal n alpha a lda x) y)

def lowerColumnComplex (rt : Runtime) (site : Site) (n : Nat) (alpha : T) (a : Mem T) (lda : Int) (x : Mem T) (j : Nat)
    (y : Mem T) : Mem T :=
  let col := matIndex lda 0 j
  let xj := alpha * x j
  let y := Function.update y j (y j + xj * realOnly (a (col + j)))
  if j + 1 < n then
    let tailLen : Int := (n - j - 1 : Nat)
    let y := if isZero xj then y else axpy rt (0 :: site) tailLen xj a (col + j + 1) 1 y (j + 1) 1
    let sum := dot rt (1 :: site) tailLen a (col + j + 1) 1 x (j + 1) 1 true
    Function.update y j (y j + alpha * sum)
  else y

def hermvColumnsUnitComplex (env : SymmetricEnv T) (rt : Runtime) (site : Site) (uplo : Triangle) (n j0 j1 : Nat) (alpha : T)
    (a : Mem T) (lda : Int) (x y : Mem T) : Mem T :=
  let fixed :=
    if env.tuning.enableFixedColumns then env.symmetricColumnsUnit (uplo = .upper) true n j0 j1 alpha a lda x y else none
  fixed.getD
    (match uplo with
    | .upper =>
      let pairs : Bool := rt.arch = .x86_64 ∧ n ≥ 128
      let first := if pairs then fitEnd j0 j1 2 else j0
      let y := if pairs then fitLoop j0 j1 2 (upperColumns 2 true alpha a lda x) y else y
      loopRange first j1 (upperColumns 1 true alpha a lda x) y
    | .lower => loopRange j0 j1 (fun j => lowerColumnComplex rt (j :: site) n alpha a lda x j) y)

end Columns

section Packed

variable [DecidableEq T]

def packedSegment (herm : Bool) (len : Nat) (scaledXj : T) (col x : Mem T) (start : Nat) (y : Mem T) : T × Mem T :=
  loop len (fun i state =>
    (state.1 + conjugateIf (col i) herm * x (start + i),
      Function.update state.2 (start + i) (state.2 (start + i) + col i * scaledXj))) (0, y)

def packedMvColumn (implementation : PackedImplementation) (uplo : Triangle) (n : Nat) (alpha : T) (ap x : Mem T) (herm : Bool)
    (j : Nat) (y : Mem T) : Mem T :=
  let xj := x j
  let scaledXj := alpha * xj
  let columnStart := match uplo with
    | .upper => j * (j + 1) / 2
    | .lower => j * (2 * n - j + 1) / 2
  let row0 := if uplo = .upper then 0 else j + 1
  let len := if uplo = .upper then j else n - j - 1
  let col := view ap (if uplo = .upper then columnStart else columnStart + 1)
  let diagValue := ap (if uplo = .upper then columnStart + j else columnStart)
  let plain := packedSegment herm len scaledXj col x row0 y
  let segment :=
    if isReal T ∧ implementation = .compactSymmetricPackedFused ∧ isZero scaledXj = false then
      (fusedSegment len scaledXj col x row0 y row0).getD plain
    else plain
  Function.update segment.2 j (segment.2 j + alpha * (segment.1 + diagonalValue herm diagValue * xj))

def packedMvColumnsUnitImpl (implementation : PackedImplementation) (uplo : Triangle) (n j0 j1 : Nat) (alpha : T) (ap x : Mem T)
    (herm : Bool) (y : Mem T) : Mem T :=
  loopRange j0 j1 (packedMvColumn implementation uplo n alpha ap x herm) y

end Packed

section Workspaces

-- A private workspace holds what the last call left in it; only a part may have been cleared.
def clearCells (first count : Nat) (workspace : Mem T) : Mem T :=
  loop count (fun i workspace => Function.update workspace (first + i) 0) workspace

-- A merge in vectors of rows, and row by row at the end.
def mergeRows (n : Nat) (beta : T) (sum_v : Nat → Nat → T) (sum : Nat → T) (y : Mem T) : Mem T :=
  let laneCount := elementLanes T
  let merged := fitLoop 0 n laneCount (fun i => loop laneCount (fun lane y =>
    let old := y (i + lane)
    Function.update y (i + lane)
      (if isZero beta then sum_v i lane else if isOne beta then old + sum_v i lane else old * beta + sum_v i lane))) y
  loopRange (fitEnd 0 n laneCount) n (fun i y =>
    Function.update y i (if isZero beta then sum i else y i * beta + sum i)) merged

def mergeSymvWorkspacesUnitReal (n taskCount : Nat) (beta : T) (workspace y : Mem T) : Mem T :=
  mergeRows n beta (fun i lane => loop taskCount (fun task sum_v => sum_v + workspace (task * n + (i + lane))) 0)
    (fun i => loop taskCount (fun task sum => sum + workspace (task * n + i)) 0) y

-- A vector that a task has filled in part gives only that part.
def mergeSymvUpperWorkspacesUnitReal (n taskCount : Nat) (beta : T) (workspace : Mem T) (ends : Nat → Nat) (y : Mem T) : Mem T :=
  let laneCount := elementLanes T
  mergeRows n beta
    (fun i lane => loop taskCount (fun task sum_v =>
      if i + laneCount ≤ ends task then sum_v + workspace (task * n + (i + lane))
      else if i < ends task then
        let partial_v := if i + lane < ends task then workspace (task * n + (i + lane)) else 0
        sum_v + partial_v
      else sum_v) 0)
    (fun i => loop taskCount (fun task sum => if i < ends task then sum + workspace (task * n + i) else sum) 0) y

def upperTriangularTaskBoundary (float : FloatArithmetic) (n taskCount taskIndex : Nat) : Nat :=
  denseRankTaskBoundary float .upper n taskCount taskIndex

def lowerTriangularTaskBoundary (float : FloatArithmetic) (n taskCount taskIndex : Nat) : Nat :=
  denseRankTaskBoundary float .lower n taskCount taskIndex

def symvTaskBoundary (float : FloatArithmetic) (uplo : Triangle) (n taskCount taskIndex : Nat) : Nat :=
  match uplo with
  | .upper => upperTriangularTaskBoundary float n taskCount taskIndex
  | .lower => lowerTriangularTaskBoundary float n taskCount taskIndex

def clearWorkspaces (ranged : Bool) (n taskCount : Nat) (ends : Nat → Nat) (workspace : Mem T) : Mem T :=
  if ranged then loop taskCount (fun index workspace => clearCells (index * n) (ends index) workspace) workspace
  else clearCells 0 (taskCount * n) workspace

-- The tasks of a product, each in its own part of the workspace, on a store that is cleared
-- throughout or as far as a task may write.
def privateTasks (rt : Runtime) (site : Site) (ranged : Bool) (n taskCount : Nat) (ends : Nat → Nat)
    (task : Nat → Mem T → Mem T) (workspace : Mem T) : Option (Mem T) :=
  rt.runTasks site taskCount (fun index => onTail (index * n) (task index)) (clearWorkspaces ranged n taskCount ends workspace)

def parallelSymvUnitReal (env : SymmetricEnv T) (rt : Runtime) (site : Site) (uplo : Triangle) (n : Nat) (alpha : T) (a : Mem T)
    (lda : Int) (x : Mem T) (beta : T) (workspace y : Mem T) : Option (Mem T) :=
  let taskCount := rt.taskCount site n
  if env.tuning.preferRealParallel n = false ∨ taskCount ≤ 1 then none
  else if env.tuning.workspaceAllowed (taskCount * n) (sizeOf T) = false ∨ rt.workspace site (taskCount * n) = false then none
  else
    let ranged := env.tuning.useUpperRangedRealWorkspace T (uplo = .upper) n
    let boundary := symvTaskBoundary env.float uplo n taskCount
    let ends := fun task => boundary (task + 1)
    (privateTasks rt site ranged n taskCount ends (fun task =>
      symvColumnsUnitReal env uplo n (boundary task) (ends task) alpha a lda x) workspace).map (fun workspace =>
        if ranged then mergeSymvUpperWorkspacesUnitReal n taskCount beta workspace ends y
        else mergeSymvWorkspacesUnitReal n taskCount beta workspace y)

def symvUnitReal (env : SymmetricEnv T) (rt : Runtime) (site : Site) (uplo : Triangle) (n : Nat) (alpha : T) (a : Mem T) (lda : Int)
    (x : Mem T) (beta : T) (workspace y : Mem T) : Mem T :=
  let parallel :=
    if isZero alpha then none else parallelSymvUnitReal env rt site uplo n alpha a lda x beta workspace y
  parallel.getD
    (let scaled := scaleUnitReal n beta y
    if isZero alpha then scaled else symvColumnsUnitReal env uplo n 0 n alpha a lda x scaled)

def mergeHermvUpperWorkspacesUnitComplex (rt : Runtime) (site : Site) (n taskCount : Nat) (workspace : Mem T) (ends : Nat → Nat)
    (y : Mem T) : Mem T :=
  loop taskCount (fun task y =>
    if ends task = 0 then y else axpy rt (task :: site) (ends task) 1 workspace (task * n) 1 y 0 1) y

def parallelHermvUnitComplex (env : SymmetricEnv T) (rt : Runtime) (site : Site) (uplo : Triangle) (n : Nat) (alpha : T)
    (a : Mem T) (lda : Int) (x workspace y : Mem T) : Option (Mem T) :=
  let taskCount := rt.taskCount site n
  let balanceUpper := env.tuning.balanceUpperHermitian (uplo = .upper) n
  if env.tuning.preferHermitianParallel n = false ∨ taskCount ≤ 1 then none
  else if env.tuning.workspaceAllowed (taskCount * n) (sizeOf T) = false ∨ rt.workspace site (taskCount * n) = false then none
  else
    let boundary := fun task =>
      if balanceUpper then upperTriangularTaskBoundary env.float n taskCount task else evenBound n taskCount task
    let ends := fun task => boundary (task + 1)
    (privateTasks rt site (uplo = .upper) n taskCount ends (fun task =>
      hermvColumnsUnitComplex env rt (0 :: task :: site) uplo n (boundary task) (ends task) alpha a lda x) workspace).map
        (fun workspace =>
          if uplo = .upper then mergeHermvUpperWorkspacesUnitComplex rt (1 :: site) n taskCount workspace ends y
          else loop taskCount (fun task y => axpy rt (task :: 2 :: site) n 1 workspace (task * n) 1 y 0 1) y)

def hermvUnitComplex (env : SymmetricEnv T) (rt : Runtime) (site : Site) (uplo : Triangle) (n : Nat) (alpha : T) (a : Mem T)
    (lda : Int) (x : Mem T) (beta : T) (workspace y : Mem T) : Mem T :=
  let scaled := scal rt (0 :: site) n beta y 0 1
  if isZero alpha then scaled
  else
    (parallelHermvUnitComplex env rt (1 :: site) uplo n alpha a lda x workspace scaled).getD
      (hermvColumnsUnitComplex env rt (2 :: site) uplo n 0 n alpha a lda x scaled)

end Workspaces

section Routines

-- The loops of symv and spmv at any stride, by the entry they read.
def symmetricSerial (entry : Nat → Nat → T) (n_ : Int) (alpha : T) (x : Mem T) (incx : Int) (beta : T) (y : Mem T) (incy : Int) :
    Mem T :=
  let n := toUsize n_
  let sx := startIndex n_ incx
  let sy := startIndex n_ incy
  let scaled := scaleOutput n beta sy y incy
  if isZero alpha then scaled
  else
    loop n (fun i y =>
      let sum := loop n (fun j sum => sum + entry i j * vectorGet x sx j incx) 0
      let py := ix sy i incy
      Function.update y py (y py + alpha * sum)) scaled

def symv (env : SymmetricEnv T) (rt : Runtime) (site : Site) (uplo : Triangle) (n_ : Int) (alpha : T) (a : Mem T) (lda : Int)
    (x : Mem T) (incx : Int) (beta : T) (workspace y : Mem T) (incy : Int) (herm : Bool) : Mem T :=
  if n_ ≤ 0 ∨ incx = 0 ∨ incy = 0 then y
  else if isReal T ∧ herm = false ∧ incx = 1 ∧ incy = 1 then
    symvUnitReal env rt site uplo (toUsize n_) alpha a lda x beta workspace y
  else if Scalar.isComplex T ∧ herm ∧ incx = 1 ∧ incy = 1 then
    hermvUnitComplex env rt site uplo (toUsize n_) alpha a lda x beta workspace y
  else symmetricSerial (fun i j => symValue uplo a lda i j herm) n_ alpha x incx beta y incy

def symPackedValue (uplo : Triangle) (n : Nat) (ap : Mem T) (row col : Nat) (herm : Bool) : T :=
  let v := ap (packedIndex uplo n row col)
  let storedDirect := stored uplo row col
  let v := if herm && !storedDirect then conj v else v
  if herm ∧ row = col then realOnly v else v

def spmvSerial (uplo : Triangle) (n : Int) (alpha : T) (ap x : Mem T) (incx : Int) (beta : T) (y : Mem T) (incy : Int)
    (herm : Bool) : Mem T :=
  symmetricSerial (fun i j => symPackedValue uplo (toUsize n) ap i j herm) n alpha x incx beta y incy

variable [DecidableEq T]

def mergePackedMvWorkspacesUnit (n taskCount : Nat) (beta : T) (workspace y : Mem T) : Mem T :=
  if isReal T then mergeSymvWorkspacesUnitReal n taskCount beta workspace y
  else
    loop n (fun i y =>
      let sum := loop taskCount (fun task sum => sum + workspace (task * n + i)) 0
      Function.update y i (if isZero beta then sum else beta * y i + sum)) y

-- A, x and y are separate allocations, which is what its overlap test asks.
def singlePackedMvUnit (env : SymmetricEnv T) (rt : Runtime) (site : Site) (uplo : Triangle) (n : Nat) (alpha : T) (ap x : Mem T)
    (beta : T) (workspace y : Mem T) : Option (Mem T) :=
  if isReal T = false ∨ env.tuning.preferPackedParallel n = false then none
  else if isZero alpha then some (scaleUnitReal n beta y)
  else if env.tuning.workspaceAllowed n (sizeOf T) = false ∨ rt.workspace site n = false then none
  else
    let workspace := packedMvColumnsUnitImpl .compactSymmetricPackedFused uplo n 0 n alpha ap x false (clearCells 0 n workspace)
    some (mergePackedMvWorkspacesUnit n 1 beta workspace y)

def parallelPackedMvUnit (env : SymmetricEnv T) (rt : Runtime) (site : Site) (uplo : Triangle) (n : Nat) (alpha : T) (ap x : Mem T)
    (beta : T) (workspace y : Mem T) (herm : Bool) : Option (Mem T) :=
  let taskCount := rt.taskCount site n
  if taskCount = 1 ∧ env.tuning.selectRealPackedSingleImplementation T env.aarch64 = .compactSymmetricPackedFused then
    singlePackedMvUnit env rt site uplo n alpha ap x beta workspace y
  else if taskCount ≤ 1 then none
  else if env.tuning.workspaceAllowed (taskCount * n) (sizeOf T) = false ∨ rt.workspace site (taskCount * n) = false then none
  else
    let boundary := symvTaskBoundary env.float uplo n taskCount
    (privateTasks rt site false n taskCount (fun _ => n) (fun task =>
      packedMvColumnsUnitImpl (env.tuning.selectRealPackedImplementation T env.aarch64) uplo n (boundary task)
        (boundary (task + 1)) alpha ap x herm) workspace).map (fun workspace =>
          mergePackedMvWorkspacesUnit n taskCount beta workspace y)

def spmv (env : SymmetricEnv T) (rt : Runtime) (site : Site) (uplo : Triangle) (n_ : Int) (alpha : T) (ap x : Mem T) (incx : Int)
    (beta : T) (workspace y : Mem T) (incy : Int) (herm : Bool) : Mem T :=
  if n_ ≤ 0 ∨ incx = 0 ∨ incy = 0 then y
  else
    let n := toUsize n_
    let parallel :=
      if env.tuning.preferPackedParallel n ∧ incx = 1 ∧ incy = 1 ∧ isZero alpha = false then
        parallelPackedMvUnit env rt site uplo n alpha ap x beta workspace y herm
      else none
    parallel.getD (spmvSerial uplo n_ alpha ap x incx beta y incy herm)

end Routines

end Zynum
