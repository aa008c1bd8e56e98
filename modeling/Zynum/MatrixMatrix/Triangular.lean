import Zynum.MatrixMatrix.Symmetric
import Zynum.MatrixVector.Triangular

set_option autoImplicit false

/- TRMM and TRSM: triangular.zig, the blocked routes of structured_blocked.zig, the
   isolated x86_64 object and triangular_right_parallel.zig. The source writes each
   blocked loop once for a side; here d runs along the triangular matrix and r
   across the other dimension of B. -/
namespace Zynum

open ArrayProgram

variable {T : Type} [CommRing T] [Scalar T]

-- finite is isFinite of every component of an element.
structure TriangularEnv (T : Type) [CommRing T] [Scalar T] extends Level3Env T where
  vector : VectorEnv
  finite : T → Bool

structure TriangularCall (T : Type) where
  side : OperandSide
  uplo : Triangle
  mode : TransposeMode
  diag : Diagonal
  alpha : T
  a : Mem T
  lda : Int
  ldb : Int

section Sides

def sideIndex (side : OperandSide) (ld : Int) (d r : Nat) : Nat :=
  match side with
  | .left => matIndex ld d r
  | .right => matIndex ld r d

def sideRows (side : OperandSide) (d r : Nat) : Nat := if side = .left then d else r

def sideColumns (side : OperandSide) (d r : Nat) : Nat := if side = .left then r else d

-- The product of a panel of A with a panel of B, on the side the panel of A stands.
def sideGemm (env : TriangularEnv T) (rt : Runtime) (site : Site) (side : OperandSide) (mode : TransposeMode)
    (length width count : Nat) (alpha : T) (panel : Mem T) (ldPanel : Int) (rhs : Mem T) (ldRhs : Int) (beta : T) (out : Mem T)
    (ldOut : Int) : Mem T :=
  match side with
  | .left => env.gemm.run rt site mode .noTrans length width count alpha panel ldPanel rhs ldRhs beta out ldOut
  | .right => env.gemm.run rt site .noTrans mode width length count alpha rhs ldRhs panel ldPanel beta out ldOut

-- A dense rectangle of A, from place d0 of the result and place p0 of the operand on.
def operandPanel (call : TriangularCall T) (d0 p0 : Nat) : Mem T :=
  match call.side with
  | .left => view call.a (if call.mode = .noTrans then matIndex call.lda d0 p0 else matIndex call.lda p0 d0)
  | .right => view call.a (if call.mode = .noTrans then matIndex call.lda p0 d0 else matIndex call.lda d0 p0)

-- packTriangularPanel, with the leading dimension of its panel.
def packedPanel (call : TriangularCall T) (d0 p0 length depth : Nat) (buffer : Mem T) : Mem T :=
  match call.side with
  | .left => packTriangularOpBlock call.uplo call.mode call.diag call.a call.lda d0 p0 length depth buffer
  | .right => packTriangularOpBlock call.uplo call.mode call.diag call.a call.lda p0 d0 depth length buffer

def packedRows (side : OperandSide) (length depth : Nat) : Nat := if side = .left then length else depth

def dimension (side : OperandSide) (m n : Nat) : Nat := if side = .left then m else n

def rhsCount (side : OperandSide) (m n : Nat) : Nat := if side = .left then n else m

-- The places whose rows reach forward, from their diagonal to the end.
def reachesForward (call : TriangularCall T) : Bool :=
  if call.side = .left then effectiveTriangle call.uplo call.mode = .upper
  else effectiveTriangle call.uplo call.mode = .lower

end Sides

section Multiply

-- zeroGeneral of the blocked routes is the same loop.
def clearDenseMatrix (m n : Nat) (b : Mem T) (ldb : Int) : Mem T :=
  loop n (fun j b => loop m (fun i b => Function.update b (matIndex ldb 0 j + i) 0) b) b

def storeScaledTile (rows cols : Nat) (alpha : T) (tile : Mem T) (ldb : Int) (row0 col0 : Nat) (b : Mem T) : Mem T :=
  if isOne alpha then
    loop cols (fun j b => loop rows (fun i b =>
      Function.update b (matIndex ldb row0 (col0 + j) + i) (tile (j * rows + i))) b) b
  else
    loop cols (fun j b => loop rows (fun i b =>
      Function.update b (matIndex ldb (row0 + i) (col0 + j)) (alpha * tile (i + j * rows))) b) b

def allFinite (finite : T → Bool) (values : Mem T) (start count : Nat) : Bool :=
  (List.range count).all (fun i => finite (values (start + i)))

def trmmDiagonalNonfinite (env : TriangularEnv T) (side : OperandSide) (triangle : Triangle) (diag : Diagonal) (rows cols : Nat)
    (diagonal input : Mem T) (ldb : Int) (accumulate : Bool) (output : Mem T) : Bool × Mem T :=
  let order := if side = .left then rows else cols
  let finite := allFinite env.finite diagonal 0 (order * order) &&
    (List.range cols).all (fun j => allFinite env.finite input (matIndex ldb 0 j) rows)
  if finite then (false, output)
  else
    (true, loop cols (fun j output => loop rows (fun i output =>
      let pivot := if side = .left then i else j
      let first := if (side = .left ∧ triangle = .upper) ∨ (side = .right ∧ triangle = .lower) then pivot else 0
      let last := if (side = .left ∧ triangle = .lower) ∨ (side = .right ∧ triangle = .upper) then pivot + 1 else order
      let sum := loopRange first last (fun p sum =>
        if diag = .unit ∧ p = pivot then sum
        else
          let av := diagonal (if side = .left then i + p * order else p + j * order)
          let bv := input (if side = .left then matIndex ldb p j else matIndex ldb i p)
          sum + av * bv) (if diag = .unit then input (matIndex ldb i j) else 0)
      let index := i + j * rows
      Function.update output index (if accumulate then output index + sum else sum)) output) output)

-- One block of the route with several threads: all of its row off the diagonal in one product.
def trmmWideBlock (env : TriangularEnv T) (rt : Runtime) (site : Site) (call : TriangularCall T) (bs order width r0 step : Nat)
    (b : Mem T) : Mem T :=
  let blocks := blockCount order bs
  let after := reachesForward call
  let index := if after then step else blocks - 1 - step
  let start := index * bs
  let len := min bs (order - start)
  let first := if after then start + len else 0
  let count := if after then order - first else start
  let rows := sideRows call.side len width
  let cols := sideColumns call.side len width
  let scratch := env.scratch (0 :: site)
  let output := if count > 0 then
      sideGemm env rt (1 :: site) call.side call.mode len width count 1 (operandPanel call start first) call.lda
        (view b (sideIndex call.side call.ldb first r0)) call.ldb 0 scratch rows
    else scratch
  let diagonal := packTriangularOpBlock call.uplo call.mode call.diag call.a call.lda start start len len (env.scratch (2 :: site))
  let rhsPanel := view b (sideIndex call.side call.ldb start r0)
  let output := orElse
    (trmmDiagonalNonfinite env call.side (effectiveTriangle call.uplo call.mode) call.diag rows cols diagonal rhsPanel call.ldb
      (decide (count ≠ 0)) output)
    (fun output => sideGemm env rt (3 :: site) call.side .noTrans len width len 1 diagonal len rhsPanel call.ldb
      (if count = 0 then 0 else 1) output rows)
  storeScaledTile rows cols call.alpha output call.ldb (sideRows call.side start r0) (sideColumns call.side start r0) b

-- One block of the serial route: its row of blocks, one product for each.
def trmmPanelBlock (env : TriangularEnv T) (rt : Runtime) (site : Site) (call : TriangularCall T) (bs order width r0 step : Nat)
    (b : Mem T) : Mem T :=
  let blocks := blockCount order bs
  let after := reachesForward call
  let index := if after then step else blocks - 1 - step
  let start := index * bs
  let len := min bs (order - start)
  let rows := sideRows call.side len width
  let cols := sideColumns call.side len width
  let first := if after then index else 0
  let last := if after then blocks else index + 1
  let output := loopRange first last (fun pi output =>
    let pStart := pi * bs
    let pLen := min bs (order - pStart)
    let panel := packedPanel call start pStart len pLen (env.scratch (pi :: 0 :: site))
    let attempt := if pi = index then
        trmmDiagonalNonfinite env call.side (effectiveTriangle call.uplo call.mode) call.diag rows cols panel
          (view b (sideIndex call.side call.ldb start r0)) call.ldb (decide (pi ≠ first)) output
      else (false, output)
    orElse attempt (fun output => sideGemm env rt (pi :: 1 :: site) call.side .noTrans len width pLen 1 panel
      (packedRows call.side len pLen) (view b (sideIndex call.side call.ldb pStart r0)) call.ldb (if pi = first then 0 else 1)
      output rows)) (env.scratch (2 :: site))
  storeScaledTile rows cols call.alpha output call.ldb (sideRows call.side start r0) (sideColumns call.side start r0) b

def trmmWorkspace (env : TriangularEnv T) (rt : Runtime) (site : Site) (bs : Nat) (call : TriangularCall T) (m n : Nat)
    (b : Mem T) : Mem T :=
  let order := dimension call.side m n
  let rhs := rhsCount call.side m n
  let block := if rt.arch = .x86_64 ∧ rt.maxThreads (0 :: site) > 1 then trmmWideBlock (T := T) else trmmPanelBlock
  strideLoop 0 rhs bs (fun r0 b =>
    loop (blockCount order bs) (fun step => block env rt (step :: r0 :: 1 :: site) call bs order (min bs (rhs - r0)) r0 step) b) b

-- tryQueuedTriangular: panels of 32 right-hand sides, each a call of its own.
def tryQueuedTriangular (rt : Runtime) (site : Site) (perJob : Nat) (options : Options) (call : TriangularCall T) (m n : Nat)
    (operation : Site → Nat → TriangularCall T → Nat → Nat → Mem T → Mem T) (b : Mem T) : Bool × Mem T :=
  if rt.arch ≠ .x86_64 ∨ m < 256 ∨ n < 256 ∨ rt.maxThreads (0 :: site) ≤ 1 then (false, b)
  else if validOptions options = false ∨ options.workspaceAvailable = false then (false, b)
  else
    let jobs := blockCount (rhsCount call.side m n) 32
    if jobs * perJob > usizeMax then (false, b)
    else if rt.workspace (1 :: site) (jobs * perJob) = false then (false, b)
    else
      answered (rt.runTasks (2 :: site) jobs (fun index b =>
        let first := index * 32
        let rows := if call.side = .left then m else min 32 (m - first)
        let cols := if call.side = .left then min 32 (n - first) else n
        onTail (sideIndex call.side call.ldb 0 first) (operation (index :: 3 :: site) 64 call rows cols) b) b) b

def blockedTryTrmm (env : TriangularEnv T) (rt : Runtime) (site : Site) (options : Options) (call : TriangularCall T)
    (m_ n_ : Int) (b : Mem T) : Bool × Mem T :=
  if m_ ≤ 0 ∨ n_ ≤ 0 then (true, b)
  else
    let m := toUsize m_
    let n := toUsize n_
    if isZero call.alpha then (true, clearDenseMatrix m n b call.ldb)
    else
      orTry (tryQueuedTriangular rt (0 :: site) (64 * 64 * 2) options call m n (fun site => trmmWorkspace env rt site) b) (fun b =>
        if acquireWorkspace T rt (1 :: site) options 2 = false then (false, b)
        else (true, trmmWorkspace env rt (2 :: site) options.blockSize call m n b))

end Multiply

section Serial

inductive LeftOperation where
  | multiply
  | solve
  deriving DecidableEq, Repr

def scaleDenseColumns (m firstCol endCol : Nat) (alpha : T) (b : Mem T) (ldb : Int) : Mem T :=
  if isOne alpha then b
  else
    loopRange firstCol endCol (fun j b => loop m (fun i b =>
      Function.update b (matIndex ldb i j) (alpha * b (matIndex ldb i j))) b) b

def scaleDenseRows (n firstRow endRow : Nat) (alpha : T) (b : Mem T) (ldb : Int) : Mem T :=
  if isOne alpha then b
  else
    loopRange firstRow endRow (fun i b => loop n (fun j b =>
      Function.update b (matIndex ldb i j) (alpha * b (matIndex ldb i j))) b) b

def conjugateDenseRow (n row : Nat) (b : Mem T) (ldb : Int) : Mem T :=
  loop n (fun j b => Function.update b (matIndex ldb row j) (conj (b (matIndex ldb row j)))) b

-- The first total % count tasks take one index more than the others.
def sharedBound (total count task : Nat) : Nat := task * (total / count) + min task (total % count)

def multiplyRightRow (call : TriangularCall T) (n row : Nat) (b : Mem T) : Mem T :=
  let column := fun j b =>
    let sum := loop n (fun p sum => sum + b (matIndex call.ldb row p) *
      triValue call.uplo call.diag call.mode call.a call.lda p j) 0
    Function.update b (matIndex call.ldb row j) (call.alpha * sum)
  if opIsUpper call.uplo call.mode then loop n (fun step b => column (n - 1 - step) b) b
  else loop n (fun j b => column j b) b

-- Transposing X * A^H = B requires a conj(A) solve.
def solveRightRow (solve : TransposeMode → Mem T → Mem T) (call : TriangularCall T) (n row : Nat) (b : Mem T) : Mem T :=
  let onRow := fun mode => onTail (matIndex call.ldb row 0) (solve mode)
  match call.mode with
  | .noTrans => onRow .trans b
  | .trans => onRow .noTrans b
  | .conjTrans =>
    if Scalar.isComplex T then
      conjugateDenseRow n row (onRow .noTrans (conjugateDenseRow n row b call.ldb)) call.ldb
    else onRow .noTrans b

variable [Div T]

def runLeftColumns (env : TriangularEnv T) (rt : Runtime) (site : Site) (operation : LeftOperation) (call : TriangularCall T)
    (m firstCol endCol : Nat) (b : Mem T) : Mem T :=
  match operation with
  | .multiply =>
    loopRange firstCol endCol (fun j b =>
      scaleDenseColumns m j (j + 1) call.alpha
        (onTail (matIndex call.ldb 0 j)
          (fun x => trmv env.vector rt (j :: site) call.uplo call.mode call.diag m call.a call.lda x 1) b) call.ldb) b
  | .solve =>
    loopRange firstCol endCol (fun j =>
      onTail (matIndex call.ldb 0 j)
        (fun x => trsv env.vector rt (j :: site) call.uplo call.mode call.diag m call.a call.lda x 1))
      (scaleDenseColumns m firstCol endCol call.alpha b call.ldb)

def runLeft (env : TriangularEnv T) (rt : Runtime) (site : Site) (operation : LeftOperation) (call : TriangularCall T) (m n : Nat)
    (b : Mem T) : Mem T :=
  let work := satMul (satMul m m) n
  let taskCount := if work ≥ 8 * 1024 * 1024 then min (rt.taskCount (0 :: site) n) 32 else 1
  let serial := runLeftColumns env rt (1 :: site) operation call m 0 n b
  if taskCount > 1 then
    (rt.runTasks (2 :: site) taskCount (fun task => runLeftColumns env rt (task :: 3 :: site) operation call m
      (sharedBound n taskCount task) (sharedBound n taskCount (task + 1))) b).getD serial
  else serial

-- runRightRows of triangular_right_parallel.zig.
def runRightRows (env : TriangularEnv T) (rt : Runtime) (site : Site) (operation : LeftOperation) (call : TriangularCall T)
    (n firstRow endRow : Nat) (b : Mem T) : Mem T :=
  match operation with
  | .multiply => loopRange firstRow endRow (fun i => multiplyRightRow call n i) b
  | .solve =>
    loopRange firstRow endRow (fun i => solveRightRow
      (fun mode x => trsv env.vector rt (i :: site) call.uplo mode call.diag n call.a call.lda x call.ldb) call n i)
      (scaleDenseRows n firstRow endRow call.alpha b call.ldb)

-- tryDispatch of triangular_right_parallel.zig.
def rightParallelTryDispatch (env : TriangularEnv T) (rt : Runtime) (site : Site) (operation : LeftOperation)
    (call : TriangularCall T) (m n : Nat) (b : Mem T) : Bool × Mem T :=
  let taskCount := if rt.arch ≠ .x86_64 then 1 else if satMul (satMul m n) n < 8 * 1024 * 1024 then 1
    else min (rt.taskCount (0 :: site) m) 32
  if taskCount ≤ 1 then (false, b)
  else
    answered (rt.runTasks (1 :: site) taskCount (fun task => runRightRows env rt (task :: 2 :: site) operation call n
      (sharedBound m taskCount task) (sharedBound m taskCount (task + 1))) b) b

-- runRightRows of the isolated object, which solves with a loop of its own.
def isolatedRightRows (operation : LeftOperation) (call : TriangularCall T) (n firstRow endRow : Nat) (b : Mem T) : Mem T :=
  match operation with
  | .multiply => loopRange firstRow endRow (fun i => multiplyRightRow call n i) b
  | .solve =>
    loopRange firstRow endRow (fun i b => solveRightRow
      (fun mode x => trsvFallback call.uplo mode call.diag n call.a call.lda x call.ldb) call n i
      (scaleDenseRows n i (i + 1) call.alpha b call.ldb)) b

def StructuredProfile.rightTriangularCandidate (self : StructuredProfile) (m n : Nat) : Bool :=
  let short := min m n
  let long := max m n
  if short < self.rightMinDimension then false
  else if long < satMul short self.rightMinAspectRatio then false
  else satMul (satMul m n) n ≥ self.rightMinWork

def isolatedTryRight (env : TriangularEnv T) (rt : Runtime) (site : Site) (operation : LeftOperation) (call : TriangularCall T)
    (m_ n_ : Int) (b : Mem T) : Bool × Mem T :=
  if env.isolatedStructured = false ∨ m_ ≤ 0 ∨ n_ ≤ 0 then (false, b)
  else
    let m := toUsize m_
    let n := toUsize n_
    if x86ObjectProfile.rightTriangularCandidate m n = false then (false, b)
    else
      let taskCount := min (rt.taskCount (0 :: site) m) 32
      if taskCount ≤ 1 then (false, b)
      else
        answered (rt.runTasks (1 :: site) taskCount (fun task => isolatedRightRows operation call n
          (sharedBound m taskCount task) (sharedBound m taskCount (task + 1))) b) b

end Serial

section Solve

variable [Div T]

-- A vector body adds element by element what the scalar loop adds.
def updateSolvePanel (columns count : Nat) (x : Mem T) (coeff : Nat → T) (dest : Nat → Nat) (b : Mem T) : Mem T :=
  loop count (fun row b => loop columns (fun col b =>
    Function.update b (dest col + row) (coeff col * x row + b (dest col + row))) b) b

def solveLeftPanel (columns : Nat) (triangle : Triangle) (diag : Diagonal) (rows : Nat) (diagonal : Mem T) (reciprocal : Nat → T)
    (ldb : Int) (row0 col0 : Nat) (b : Mem T) : Mem T :=
  loop rows (fun step b =>
    let p := if triangle = .upper then rows - 1 - step else step
    let first := if triangle = .upper then 0 else p + 1
    let count := if triangle = .upper then p else rows - first
    let b := loop columns (fun col b =>
      let index := matIndex ldb (row0 + p) (col0 + col)
      if diag = .nonUnit then Function.update b index (b index * reciprocal p) else b) b
    updateSolvePanel columns count (view diagonal (p * rows + first)) (fun col => -b (matIndex ldb (row0 + p) (col0 + col)))
      (fun col => matIndex ldb (row0 + first) (col0 + col)) b) b

def updateRightPanel (columns rows pivot col : Nat) (diagonal : Mem T) (stride : Nat) (ldb : Int) (row0 col0 : Nat) (b : Mem T) :
    Mem T :=
  updateSolvePanel columns rows (view b (matIndex ldb row0 (col0 + pivot))) (fun j => -diagonal (pivot + (col + j) * stride))
    (fun j => matIndex ldb row0 (col0 + col + j)) b

def solveWidth (T : Type) [Scalar T] : Nat := if Scalar.isComplex T then 2 else 4

def solvePackedLeft (env : TriangularEnv T) (rt : Runtime) (site : Site) (triangle : Triangle) (diag : Diagonal) (rows cols : Nat)
    (diagonal : Mem T) (ldb : Int) (row0 col0 : Nat) (b : Mem T) : Mem T :=
  if rt.arch = .x86_64 then
    let reciprocal := fun i => if diag = .unit then 1 else 1 / diagonal (i + i * rows)
    let panel := fun columns j => solveLeftPanel columns triangle diag rows diagonal reciprocal ldb row0 (col0 + j)
    loopRange (fitEnd 0 cols (solveWidth T)) cols (panel 1) (fitLoop 0 cols (solveWidth T) (panel (solveWidth T)) b)
  else
    loop cols (fun j => onTail (matIndex ldb row0 (col0 + j))
      (fun x => trsv env.vector rt (j :: site) triangle .noTrans diag rows diagonal rows x 1)) b

def solvePackedRight (env : TriangularEnv T) (rt : Runtime) (site : Site) (triangle : Triangle) (diag : Diagonal) (rows cols : Nat)
    (diagonal : Mem T) (ldb : Int) (row0 col0 : Nat) (b : Mem T) : Mem T :=
  if rt.arch = .x86_64 then
    loop cols (fun step b =>
      let p := if triangle = .upper then step else cols - 1 - step
      let reciprocal := if diag = .unit then 1 else 1 / diagonal (p + p * cols)
      let b := loop rows (fun i b =>
        let index := matIndex ldb (row0 + i) (col0 + p)
        if diag = .nonUnit then Function.update b index (b index * reciprocal) else b) b
      let first := if triangle = .upper then p + 1 else 0
      let last := if triangle = .upper then cols else p
      let update := fun columns j => updateRightPanel columns rows p j diagonal cols ldb row0 col0
      loopRange (fitEnd first last (solveWidth T)) last (update 1)
        (fitLoop first last (solveWidth T) (update (solveWidth T)) b)) b
  else
    loop rows (fun i => onTail (matIndex ldb (row0 + i) col0)
      (fun x => trsv env.vector rt (i :: site) triangle .trans diag cols diagonal cols x ldb)) b

def solvePacked (env : TriangularEnv T) (rt : Runtime) (site : Site) (call : TriangularCall T) (length width : Nat)
    (diagonal : Mem T) (d0 r0 : Nat) (b : Mem T) : Mem T :=
  match call.side with
  | .left => solvePackedLeft env rt site (effectiveTriangle call.uplo call.mode) call.diag length width diagonal call.ldb d0 r0 b
  | .right => solvePackedRight env rt site (effectiveTriangle call.uplo call.mode) call.diag width length diagonal call.ldb r0 d0 b

-- One block of the x86_64 route: solve it for all right-hand sides, then update the rest once.
def trsmWideBlock (env : TriangularEnv T) (rt : Runtime) (site : Site) (call : TriangularCall T) (bs order rhs step : Nat)
    (b : Mem T) : Mem T :=
  let blocks := blockCount order bs
  let forward := !reachesForward call
  let index := if forward then step else blocks - 1 - step
  let start := index * bs
  let len := min bs (order - start)
  let diagonal := packTriangularOpBlock call.uplo call.mode call.diag call.a call.lda start start len len (env.scratch (0 :: site))
  let first := if forward then start + len else 0
  let count := if forward then order - first else start
  let b := solvePacked env rt (1 :: site) call len rhs diagonal start 0 b
  if count > 0 then
    onTail (sideIndex call.side call.ldb first 0) (fun c => sideGemm env rt (2 :: site) call.side call.mode count rhs len (-1)
      (operandPanel call first start) call.lda (view b (sideIndex call.side call.ldb start 0)) call.ldb 1 c call.ldb) b
  else b

-- One block of the portable route: what is solved is taken out of it, then it is solved.
def trsmPanelBlock (env : TriangularEnv T) (rt : Runtime) (site : Site) (call : TriangularCall T) (bs order width r0 step : Nat)
    (b : Mem T) : Mem T :=
  let blocks := blockCount order bs
  let forward := !reachesForward call
  let index := if forward then step else blocks - 1 - step
  let start := index * bs
  let len := min bs (order - start)
  let first := if forward then 0 else index + 1
  let last := if forward then index else blocks
  let b := loopRange first last (fun pi b =>
    let pStart := pi * bs
    let pLen := min bs (order - pStart)
    let panel := packedPanel call start pStart len pLen (env.scratch (pi :: 0 :: site))
    onTail (sideIndex call.side call.ldb start r0) (fun c => sideGemm env rt (pi :: 1 :: site) call.side .noTrans len width pLen
      (-1) panel (packedRows call.side len pLen) (view b (sideIndex call.side call.ldb pStart r0)) call.ldb 1 c call.ldb) b) b
  let diagonal := packTriangularOpBlock call.uplo call.mode call.diag call.a call.lda start start len len (env.scratch (2 :: site))
  solvePacked env rt (3 :: site) call len width diagonal start r0 b

def trsmWorkspace (env : TriangularEnv T) (rt : Runtime) (site : Site) (bs : Nat) (call : TriangularCall T) (m n : Nat)
    (b : Mem T) : Mem T :=
  let order := dimension call.side m n
  let rhs := rhsCount call.side m n
  let b := scaleGeneral m n call.alpha b call.ldb
  if rt.arch = .x86_64 then
    loop (blockCount order bs) (fun step => trsmWideBlock env rt (step :: 0 :: site) call bs order rhs step) b
  else
    strideLoop 0 rhs bs (fun r0 b => loop (blockCount order bs) (fun step =>
      trsmPanelBlock env rt (step :: r0 :: 1 :: site) call bs order (min bs (rhs - r0)) r0 step) b) b

def blockedTryTrsm (env : TriangularEnv T) (rt : Runtime) (site : Site) (options : Options) (call : TriangularCall T)
    (m_ n_ : Int) (b : Mem T) : Bool × Mem T :=
  if m_ ≤ 0 ∨ n_ ≤ 0 then (true, b)
  else
    let m := toUsize m_
    let n := toUsize n_
    if isZero call.alpha then (true, clearDenseMatrix m n b call.ldb)
    else
      orTry (tryQueuedTriangular rt (0 :: site) (64 * 64) options call m n (fun site => trsmWorkspace env rt site) b) (fun b =>
        if acquireWorkspace T rt (1 :: site) options 1 = false then (false, b)
        else (true, trsmWorkspace env rt (2 :: site) options.blockSize call m n b))

end Solve

section Routes

variable [Div T]

structure TriangularProfile where
  minOutputDimension : Nat
  rightMinOutputDimension : Nat
  blockSize : Nat
  solve : Bool

def TriangularProfile.candidate (self : TriangularProfile) (T : Type) [Scalar T] (side : OperandSide) (threaded : Bool)
    (m n : Nat) : Bool :=
  if side = .right then m ≥ self.rightMinOutputDimension && n ≥ self.rightMinOutputDimension
  else if m < self.minOutputDimension ∨ n < self.minOutputDimension then false
  else if threaded ∧ satMul (satMul m m) n ≥ 8 * 1024 * 1024 then false
  else !self.solve || isComplexF64 T

def aarch64MacosTrmmCandidate : TriangularProfile := ⟨128, 64, 64, false⟩

def aarch64MacosTrsmCandidate : TriangularProfile := ⟨128, 128, 64, true⟩

-- What trmm and trsm ask before they take the blocked route.
def macosBlocked (env : TriangularEnv T) (rt : Runtime) (site : Site) (profile : TriangularProfile) (side : OperandSide)
    (m n : Nat) : Bool :=
  rt.arch = .aarch64 && env.macos && profile.candidate T side (rt.maxThreads site > 1) m n &&
    (env.capability = .aarch64AsimdFma || env.capability = .aarch64Sme)

def x86Blocked (env : TriangularEnv T) (rt : Runtime) (site : Site) (side : OperandSide) (m_ n_ : Int) : Bool :=
  rt.arch = .x86_64 && m_ ≥ 128 && n_ ≥ 128 &&
    (rt.maxThreads site = 1 || (side = .right && m_ ≥ 256 && n_ ≥ 256)) && env.capability = .x86Avx2Fma

def isolatedRight (env : TriangularEnv T) (rt : Runtime) (site : Site) (operation : LeftOperation) (call : TriangularCall T)
    (m_ n_ : Int) (b : Mem T) : Bool × Mem T :=
  if rt.arch = .x86_64 ∧ call.side = .right ∧ x86ObjectProfile.rightTriangularCandidate (toUsize m_) (toUsize n_) then
    isolatedTryRight env rt site operation call m_ n_ b
  else (false, b)

def trmmSerial (env : TriangularEnv T) (rt : Runtime) (site : Site) (call : TriangularCall T) (m n : Nat) (b : Mem T) : Mem T :=
  match call.side with
  | .left => runLeft env rt site .multiply call m n b
  | .right => loop m (fun i => multiplyRightRow call n i) b

def trmm (env : TriangularEnv T) (rt : Runtime) (site : Site) (call : TriangularCall T) (m_ n_ : Int) (b : Mem T) : Mem T :=
  if m_ ≤ 0 ∨ n_ ≤ 0 then b
  else if isZero call.alpha then clearDenseMatrix (toUsize m_) (toUsize n_) b call.ldb
  else
    let macos := fun (b : Mem T) =>
      if macosBlocked env rt (0 :: site) aarch64MacosTrmmCandidate call.side (toUsize m_) (toUsize n_) then
        blockedTryTrmm env rt (1 :: site) { blockSize := aarch64MacosTrmmCandidate.blockSize } call m_ n_ b
      else (false, b)
    let x86 := fun (b : Mem T) =>
      if x86Blocked env rt (2 :: site) call.side m_ n_ then
        blockedTryTrmm env rt (3 :: site)
          { blockSize := if rt.maxThreads (2 :: site) > 1 then 256 else if Scalar.isComplex T then 128 else 64 } call m_ n_ b
      else (false, b)
    orElse (orTry (orTry (macos b) x86) (isolatedRight env rt (4 :: site) .multiply call m_ n_))
      (trmmSerial env rt (5 :: site) call (toUsize m_) (toUsize n_))

def trsmSerial (env : TriangularEnv T) (rt : Runtime) (site : Site) (call : TriangularCall T) (m n : Nat) (b : Mem T) : Mem T :=
  match call.side with
  | .left => runLeft env rt site .solve call m n b
  | .right =>
    loop m (fun i => solveRightRow
      (fun mode x => trsv env.vector rt (i :: site) call.uplo mode call.diag n call.a call.lda x call.ldb) call n i)
      (scaleDenseColumns m 0 n call.alpha b call.ldb)

def trsm (env : TriangularEnv T) (rt : Runtime) (site : Site) (call : TriangularCall T) (m_ n_ : Int) (b : Mem T) : Mem T :=
  if m_ ≤ 0 ∨ n_ ≤ 0 then b
  else if isZero call.alpha then clearDenseMatrix (toUsize m_) (toUsize n_) b call.ldb
  else
    let macos := fun (b : Mem T) =>
      if macosBlocked env rt (0 :: site) aarch64MacosTrsmCandidate call.side (toUsize m_) (toUsize n_) then
        blockedTryTrsm env rt (1 :: site) { blockSize := aarch64MacosTrsmCandidate.blockSize } call m_ n_ b
      else (false, b)
    let x86 := fun (b : Mem T) =>
      if x86Blocked env rt (2 :: site) call.side m_ n_ then blockedTryTrsm env rt (3 :: site) {} call m_ n_ b
      else (false, b)
    orElse (orTry (orTry (macos b) x86) (isolatedRight env rt (4 :: site) .solve call m_ n_))
      (trsmSerial env rt (5 :: site) call (toUsize m_) (toUsize n_))

end Routes

end Zynum
