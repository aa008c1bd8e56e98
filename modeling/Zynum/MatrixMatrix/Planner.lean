import Zynum.MatrixMatrix.Task

set_option autoImplicit false

/- core/matrix_matrix/planner.zig: selecting a kernel, choosing how many row and
   column tasks to build, and running them. Scores, the low-K rejection and the
   execution plan of a shape are tuning policy and may be anything. -/
namespace Zynum

open ArrayProgram

def usizeMax : Nat := 2 ^ 64 - 1

def satMul (a b : Nat) : Nat := min (a * b) usizeMax

def parallelWorkThreshold : Nat := 192 * 192 * 192

def maxStackTasks : Nat := 64

def maxTasks : Nat := 64

structure ColumnSplit where
  n0 : Nat
  n1 : Nat

structure RowSplit where
  m0 : Nat
  m1 : Nat

structure Plan where
  kernel : Descriptor
  threadCount : Nat
  columnTasks : Nat
  rowTasks : Nat
  columnBlock : Nat
  allowDirectKernel : Bool
  useParallelTasks : Bool
  execution : ExecutionPlan

def divCeil (a b : Nat) : Nat := (a + b - 1) / b

def alignedColumnSplit (n taskIndex taskCount columnBlock : Nat) : ColumnSplit :=
  let block := max 1 columnBlock
  if block = 1 then ⟨taskIndex * n / taskCount, (taskIndex + 1) * n / taskCount⟩
  else
    let panels := divCeil n block
    let p0 := taskIndex * panels / taskCount
    let p1 := (taskIndex + 1) * panels / taskCount
    ⟨min n (p0 * block), min n (p1 * block)⟩

def splitRows (m taskIndex taskCount : Nat) : RowSplit := ⟨taskIndex * m / taskCount, (taskIndex + 1) * m / taskCount⟩

def ceilDiv (a b : Nat) : Nat := if b = 0 then 0 else divCeil a b

def min3 (a b c : Nat) : Nat := min a (min b c)

def max3 (a b c : Nat) : Nat := max a (max b c)

def isSquareish (shape : Shape) : Bool :=
  let minDim := min3 shape.m shape.n shape.k
  if minDim = 0 then false else decide (max3 shape.m shape.n shape.k ≤ minDim * 2)

def isNarrowN (desc : Descriptor) (n : Nat) : Bool := n ≤ desc.tile.nPanel * 4

def amxMBlock : AppleAmxKernelId → Nat
  | .f32N16 => 16
  | .f32N32 => 32
  | .f64N8 => 8
  | .f64N16 => 32
  | .f64N32 => 16
  | .none => 0

def amxNPanel : AppleAmxKernelId → Nat
  | .f32N16 => 16
  | .f32N32 => 32
  | .f64N8 => 8
  | .f64N16 => 16
  | .f64N32 => 32
  | .none => 0

def amxKernelCompatible (precision : Precision) (amx : AppleAmxKernelId) (shape : Shape) : Bool :=
  if shape.k = 0 ∨ amx = .none then false
  else
    let mBlock := amxMBlock amx
    let nPanel := amxNPanel amx
    if mBlock = 0 ∨ nPanel = 0 then false
    else if shape.m % mBlock ≠ 0 ∨ shape.n % nPanel ≠ 0 then false
    else
      match precision with
      | .single => decide (shape.k ≤ 512) && (amx = .f32N16 || amx = .f32N32)
      | .double => amx = .f64N8 || amx = .f64N16 || amx = .f64N32

def columnBlockForPlan (desc : Descriptor) (execution : ExecutionPlan) : Nat :=
  let amxPanel := amxNPanel execution.amx
  max 1 (if amxPanel ≠ 0 then amxPanel else desc.tile.nPanel)

def desiredThreadCount (precision : Precision) (desc : Descriptor) (requested m n k : Nat) (allowDirect : Bool) : Nat :=
  if requested ≤ 1 then requested
  else
    let work := satMul (satMul m n) k
    let minDim := min3 m n k
    let squareish := isSquareish ⟨m, n, k⟩
    let f32 := precision = .single
    let f64 := precision = .double
    if f32 ∧ m = 128 ∧ n = 128 ∧ k ≥ 2048 then min requested 8
    else if f64 ∧ allowDirect ∧ m ≥ 512 ∧ n ≥ 512 ∧ k ≤ 256 then min requested 8
    else if f32 ∧ allowDirect ∧ m ≥ 1024 ∧ m < 4096 ∧ n ≤ 32 ∧ k ≥ 128 ∧ k ≤ 512 then 1
    else if allowDirect ∧ squareish ∧ f32 ∧ work ≤ 128 * 128 * 128 then 1
    else
      let vectorEdge := (m = 1 ∨ n = 1) ∧ k ≥ 128 ∧ work ≥ 128 * 1024
      let threshold := if vectorEdge then 128 * 1024
        else if allowDirect ∧ squareish then 96 * 96 * 96
        else parallelWorkThreshold
      if work < threshold then 1
      else if vectorEdge then requested
      else
        let smallParallel := 256 * 256 * 256
        let mediumParallel := 384 * 384 * 384
        let threads := if allowDirect ∧ squareish ∧ f64 then (if work < smallParallel then min requested 6 else requested)
          else if work < smallParallel then min requested 2
          else if work < mediumParallel then min requested 4
          else requested
        let threads := if f64 ∧ allowDirect ∧ ¬ squareish ∧ m ≥ 256 ∧ n ≥ 256 ∧ k ≥ 512 ∧ k ≤ 1024 then min threads 8
          else threads
        let threads := if minDim ≤ desc.tile.nPanel ∧ k ≤ 128 then min threads 2
          else if isNarrowN desc n ∧ m ≥ 512 ∧ k ≥ desc.bounds.minKBlock * 8 then
            min threads (if f32 ∧ allowDirect ∧ n ≤ desc.tile.nPanel * 2 ∧ k ≥ 512 then 2 else 4)
          else if minDim ≥ 256 ∧ squareish ∧ k ≤ 256 ∧ ¬ (f64 ∧ allowDirect ∧ m ≥ 512 ∧ n ≥ 512) then min threads 4
          else threads
        max 1 (min threads maxTasks)

def baseThreadCountForPlan (limit m n k : Nat) : Nat :=
  if m = 0 ∨ n < 2 ∨ k = 0 then 1
  else if satMul (satMul m n) k < parallelWorkThreshold then 1
  else if limit ≤ 1 then 1
  else max 1 (min limit n)

def requestedThreadCountForPlan (limit m n k : Nat) : Nat :=
  let requested := baseThreadCountForPlan limit m n k
  if requested > 1 then min requested maxTasks
  else if (m = 1 ∨ n = 1) ∧ k ≥ 128 ∧ satMul (satMul m n) k ≥ 128 * 1024 then min limit maxTasks
  else requested

def rowMinBlock (desc : Descriptor) (m k : Nat) : Nat :=
  let byRegister := max (desc.bounds.minMBlock * 16) (desc.tile.registerM * 8)
  let byK := if k ≥ 1024 then 192 else 256
  min m (max byRegister byK)

def rowTaskCount (desc : Descriptor) (desiredThreads columnTasks m n k : Nat) : Nat :=
  if columnTasks = 0 ∨ columnTasks ≥ desiredThreads then 1
  else if m < desc.bounds.minMBlock * 4 ∨ k < desc.bounds.minKBlock * 4 then 1
  else
    let maxRowsByThreads := desiredThreads / columnTasks
    if maxRowsByThreads ≤ 1 then 1
    else
      let minRows := rowMinBlock desc m k
      if minRows = 0 ∨ m < minRows * 2 then 1
      else if desc.pack ≠ .none ∧ isNarrowN desc n ∧ k ≥ 1024 then 1
      else
        let maxByRows := max 1 (m / minRows)
        let maxByRows := if isNarrowN desc n then maxByRows else min maxByRows 2
        min maxRowsByThreads maxByRows

-- Tuning policy: which scores a profile gives and how it runs a shape.
structure PlanningProfile (T : Type) where
  x86 : Bool
  score : Descriptor → Shape → T → T → Nat → Int
  rejectLowK : Descriptor → Shape → Bool
  executionPlan : Descriptor → Shape → Nat → ExecutionPlan

inductive RequestLayout where
  | noTrans
  | transposedB

variable {T : Type} [Scalar T]

def forceSingleThreadPlan (profile : PlanningProfile T) (m n k : Nat) (alpha beta : T) : Bool :=
  if profile.x86 then false
  else Scalar.precision T = .single && isOne alpha && isZero beta && m ≥ 1024 && m < 4096 && n ≤ 32 && k ≥ 128 && k ≤ 512

def directKernelFeasible (desc : Descriptor) (shape : Shape) (alpha beta : T) : Bool :=
  if desc.family ≠ .streamingMatrix then false
  else if (!desc.arbitraryAlpha && !isOne alpha) || (!desc.arbitraryBeta && !isZero beta) then false
  else if shape.m < desc.bounds.minMBlock ∨ shape.n < desc.bounds.minNBlock ∨ shape.k < desc.bounds.minKBlock then false
  else true

def directKernelAllowed (desc : Descriptor) (shape : Shape) (alpha beta : T) : Bool :=
  directKernelFeasible desc shape alpha beta && satMul (satMul shape.m shape.n) shape.k ≥ desc.bounds.minWork

def isFeasible (desc : Descriptor) (shape : Shape) (alpha beta : T) (layout : RequestLayout) : Bool :=
  if desc.precision ≠ Scalar.precision T then false
  else if !desc.defaultEligible then false
  else if shape.m = 0 ∨ shape.n = 0 ∨ shape.k = 0 then false
  else if !(match layout with | .noTrans => desc.layoutNoTrans | .transposedB => desc.layoutTransposedB) then false
  else if desc.family = .streamingMatrix then directKernelFeasible desc shape alpha beta
  else true

def bestCandidate (candidates : List Descriptor) (feasible : Descriptor → Bool) (score : Descriptor → Int) :
    Option Descriptor :=
  (candidates.foldl (fun best item =>
    if !feasible item then best
    else
      match best with
      | none => some (item, score item)
      | some (chosen, bestScore) => if score item > bestScore then some (item, score item) else some (chosen, bestScore))
    none).map Prod.fst

def planForDescriptor (profile : PlanningProfile T) (desc : Descriptor) (m n k : Nat) (alpha beta : T)
    (requestedThreads : Nat) : Plan :=
  let shape : Shape := ⟨m, n, k⟩
  let allowDirect := directKernelAllowed desc shape alpha beta
  let threadCount := desiredThreadCount (Scalar.precision T) desc requestedThreads m n k allowDirect
  let execution := profile.executionPlan desc shape threadCount
  let columnBlock := columnBlockForPlan desc execution
  let panels := max 1 (ceilDiv n columnBlock)
  let columnTasks := if threadCount ≤ 1 then 1 else min threadCount panels
  let rows := rowTaskCount desc threadCount columnTasks m n k
  { kernel := desc
    threadCount := threadCount
    columnTasks := columnTasks
    rowTasks := rows
    columnBlock := columnBlock
    allowDirectKernel := allowDirect
    useParallelTasks := decide (columnTasks * rows > 1) && decide (threadCount > 1)
    execution := execution }

def lowScore : Int := -(2 ^ 62)

def selectNoTransReal (profile : PlanningProfile T) (candidates : List Descriptor) (first : Descriptor) (m n k : Nat)
    (alpha beta : T) (requestedThreads : Nat) : Plan :=
  let shape : Shape := ⟨m, n, k⟩
  let chosen := bestCandidate candidates (fun item => isFeasible item shape alpha beta .noTrans)
    (fun item => if profile.rejectLowK item shape then lowScore else profile.score item shape alpha beta requestedThreads)
  planForDescriptor profile (chosen.getD first) m n k alpha beta requestedThreads

def selectTransposedBReal (profile : PlanningProfile T) (candidates : List Descriptor) (m n k : Nat) (alpha beta : T)
    (requestedThreads : Nat) : Option Plan :=
  let shape : Shape := ⟨m, n, k⟩
  (bestCandidate candidates (fun item => isFeasible item shape alpha beta .transposedB)
    (fun item => profile.score item shape alpha beta requestedThreads)).map
      (fun desc => planForDescriptor profile desc m n k alpha beta requestedThreads)

def makeTask (profile : PlanningProfile T) (plan : Plan) (m n0 n1 k : Nat) (alpha : T) (a : Mem T) (lda : Int) (b : Mem T)
    (ldb : Int) (bLayout : BLayout) (beta : T) (cOffset : Nat) (ldc : Int) : Task T :=
  let taskShape : Shape := ⟨m, n1 - n0, k⟩
  let execution := profile.executionPlan plan.kernel taskShape plan.threadCount
  let execution := if execution.amx = .none ∧ amxKernelCompatible (Scalar.precision T) plan.execution.amx taskShape then
    { execution with amx := plan.execution.amx } else execution
  let execution := if bLayout = .trans then
      { amx := if Scalar.precision T = .double then .none else execution.amx, amxPartialN16 := false, bPack := .dynamic }
    else execution
  { m := m, n0 := n0, n1 := n1, k := k, alpha := alpha, a := a, lda := lda, b := b, ldb := ldb, bLayout := bLayout,
    beta := beta, cOffset := cOffset, ldc := ldc, allowSme := plan.allowDirectKernel, kernel := plan.kernel.kernel,
    execution := execution }

-- Row-split tasks move A and C down; column splits share A and keep their own columns of C.
def plannedTask (profile : PlanningProfile T) (plan : Plan) (m n k : Nat) (alpha : T) (a : Mem T) (lda : Int) (b : Mem T)
    (ldb : Int) (bLayout : BLayout) (beta : T) (ldc : Int) (t : Nat) : Task T :=
  let rowTask := t / plan.columnTasks
  let columnTask := t - rowTask * plan.columnTasks
  let rows := splitRows m rowTask plan.rowTasks
  let cols := alignedColumnSplit n columnTask plan.columnTasks plan.columnBlock
  makeTask profile plan (rows.m1 - rows.m0) cols.n0 cols.n1 k alpha (view a (matIndex lda rows.m0 0)) lda b ldb bLayout beta
    (matIndex ldc rows.m0 0) ldc

def wholeTask (profile : PlanningProfile T) (plan : Plan) (m n k : Nat) (alpha : T) (a : Mem T) (lda : Int) (b : Mem T)
    (ldb : Int) (bLayout : BLayout) (beta : T) (ldc : Int) : Task T :=
  makeTask profile plan m 0 n k alpha a lda b ldb bLayout beta 0 ldc

-- The vector and blocked variants of the pack move the same elements.
def packTransposedA [Zero T] (m k : Nat) (a : Mem T) (lda : Int) : Mem T :=
  loop k (fun p pack => loop m (fun i pack => Function.update pack (p * m + i) (a (matIndex lda p i))) pack) (fun _ => 0)

section Run

variable {R : Type} [CommRing R] [Scalar R]

def executeTask (kernels : RealKernels R) (task : Task R) (c : Mem R) : Mem R := onTail task.cOffset (kernels.run task) c

def runPlannedTasks (kernels : RealKernels R) (profile : PlanningProfile R) (rt : Runtime) (site : Site) (plan : Plan)
    (m n k : Nat) (alpha : R) (a : Mem R) (lda : Int) (b : Mem R) (ldb : Int) (bLayout : BLayout) (beta : R) (c : Mem R)
    (ldc : Int) : Mem R :=
  let taskCount := plan.columnTasks * plan.rowTasks
  let whole := executeTask kernels (wholeTask profile plan m n k alpha a lda b ldb bLayout beta ldc)
  if taskCount ≤ 1 then whole c
  else if taskCount > maxStackTasks ∧ rt.workspace site taskCount = false then whole c
  else if plan.useParallelTasks then
    (rt.runTasks site taskCount
      (fun t => executeTask kernels (plannedTask profile plan m n k alpha a lda b ldb bLayout beta ldc t)) c).getD (whole c)
  else whole c

def scaleMatrix (m n : Nat) (beta : R) (c : Mem R) (ldc : Int) : Mem R :=
  loop n (fun j c => loop m (fun i c =>
    let idxc := matIndex ldc i j
    Function.update c idxc (if isZero beta then 0 else beta * c idxc)) c) c

-- none stands for the false a declining route returns before it touches C.
def noTransRealWithBLayout (kernels : RealKernels R) (profile : PlanningProfile R) (rt : Runtime)
    (site : Site) (m_ n_ k_ : Int) (alpha : R) (a : Mem R) (lda : Int) (b : Mem R) (ldb : Int) (bLayout : BLayout)
    (beta : R) (c : Mem R) (ldc : Int) (requirePackedSimd : Bool) : Option (Mem R) :=
  if m_ ≤ 0 ∨ n_ ≤ 0 then some c
  else
    let m := toUsize m_
    let n := toUsize n_
    let k := toUsize k_
    if k = 0 ∨ isZero alpha then some (scaleMatrix m n beta c ldc)
    else
      let fast := if Scalar.precision R = .single ∧ bLayout = .noTrans then
        kernels.fast m n k alpha a lda b ldb beta ldc c else none
      match fast with
      | some done => some done
      | none =>
        let requestedThreads := if forceSingleThreadPlan profile m n k alpha beta then 1
          else requestedThreadCountForPlan (rt.maxThreads site) m n k
        let plan := if requirePackedSimd then
            selectTransposedBReal profile kernels.candidates m n k alpha beta requestedThreads
          else some (selectNoTransReal profile kernels.candidates kernels.base m n k alpha beta requestedThreads)
        plan.map (fun plan => runPlannedTasks kernels profile rt site plan m n k alpha a lda b ldb bLayout beta c ldc)

def noTransReal (kernels : RealKernels R) (profile : PlanningProfile R) (rt : Runtime) (site : Site)
    (m n k : Int) (alpha : R) (a : Mem R) (lda : Int) (b : Mem R) (ldb : Int) (beta : R) (c : Mem R) (ldc : Int) : Mem R :=
  (noTransRealWithBLayout kernels profile rt site m n k alpha a lda b ldb .noTrans beta c ldc false).getD c

def noTransTransposedBReal (kernels : RealKernels R) (profile : PlanningProfile R) (rt : Runtime)
    (site : Site) (m n k : Int) (alpha : R) (a : Mem R) (lda : Int) (b : Mem R) (ldb : Int) (beta : R) (c : Mem R)
    (ldc : Int) : Option (Mem R) :=
  noTransRealWithBLayout kernels profile rt site m n k alpha a lda b ldb .trans beta c ldc true

def transposedAReal (kernels : RealKernels R) (profile : PlanningProfile R) (rt : Runtime)
    (site : Site) (m_ n_ k_ : Int) (alpha : R) (a : Mem R) (lda : Int) (b : Mem R) (ldb : Int) (bLayout : BLayout)
    (beta : R) (c : Mem R) (ldc : Int) : Option (Mem R) :=
  if m_ ≤ 0 ∨ n_ ≤ 0 then some c
  else if k_ ≤ 0 ∨ isZero alpha then none
  else
    let m := toUsize m_
    let n := toUsize n_
    let k := toUsize k_
    if m = 1 ∨ n = 1 then none
    else if m ≤ 33 ∧ n ≤ 33 ∧ k ≤ 33 then none
    else
      let requestedThreads := if forceSingleThreadPlan profile m n k alpha beta then 1
        else requestedThreadCountForPlan (rt.maxThreads site) m n k
      let plan := if bLayout = .trans then
          selectTransposedBReal profile kernels.candidates m n k alpha beta requestedThreads
        else some (selectNoTransReal profile kernels.candidates kernels.base m n k alpha beta requestedThreads)
      plan.bind (fun plan =>
        if plan.kernel.family = .generic then none
        else if m * k > usizeMax ∨ rt.workspace (0 :: site) (m * k) = false then none
        else some (runPlannedTasks kernels profile rt (1 :: site) plan m n k alpha (packTransposedA m k a lda) m_ b ldb
          bLayout beta c ldc))

end Run

end Zynum
