import Zynum.MatrixMatrix.Symmetric

set_option autoImplicit false

/- SYRK, HERK, SYR2K and HER2K: symmetric.zig and the rank routes of
   structured_blocked.zig. rankTwo is the source's comptime rank_two; a rank-one
   update passes its operand twice. -/
namespace Zynum

open ArrayProgram

structure RankTileProfile where
  minOrder : Nat
  minReduction : Nat
  blockSize : Nat
  directPanels : Bool
  packedPanels : Bool
  parallelPackedPanels : Bool
  threadedMinOrder : Nat
  threadedMinWork : Nat

def RankTileProfile.candidate (self : RankTileProfile) (n k : Nat) (threaded : Bool) : Bool :=
  if n < self.minOrder ∨ k < self.minReduction then false
  else !threaded || (n ≥ self.threadedMinOrder && satMul (satMul n n) k ≥ self.threadedMinWork)

def aarch64MacosRankTileCandidate : RankTileProfile := ⟨64, 32, 64, false, true, true, 96, 512 * 1024⟩

def RankTileProfile.options (self : RankTileProfile) : Options :=
  { blockSize := self.blockSize
    directRankPanels := self.directPanels
    packedRankPanels := self.packedPanels
    parallelPackedRankPanels := self.parallelPackedPanels }

variable {T : Type} [CommRing T] [Scalar T]

def scaledStoredValue (beta source : T) (hermitianDiagonal : Bool) : T :=
  if isZero beta then 0
  else if Scalar.isComplex T ∧ hermitianDiagonal then realOnly beta * realOnly source
  else if isOne beta then source
  else beta * source

def storedFirst (uplo : Triangle) (j : Nat) : Nat := if uplo = .upper then 0 else j

def storedEnd (uplo : Triangle) (n j : Nat) : Nat := if uplo = .upper then j + 1 else n

def scaleStoredRank (uplo : Triangle) (n : Nat) (beta : T) (c : Mem T) (ldc : Int) (herm : Bool) : Mem T :=
  loop n (fun j c => loopRange (storedFirst uplo j) (storedEnd uplo n j) (fun i c =>
    let index := matIndex ldc i j
    Function.update c index (scaledStoredValue beta (c index) (herm && decide (i = j)))) c) c

def clearImaginary (onDiagonal : Bool) (value : T) : T := if onDiagonal then realOnly value else value

def scaleStoredTriangle (uplo : Triangle) (n : Nat) (beta : T) (c : Mem T) (ldc : Int) (hermitian : Bool) : Mem T :=
  loop n (fun j c => loopRange (storedFirst uplo j) (storedEnd uplo n j) (fun i c =>
    let index := matIndex ldc i j
    let onDiagonal := hermitian && decide (i = j)
    Function.update c index (clearImaginary onDiagonal (scaledStoredValue beta (c index) onDiagonal))) c) c

-- The C32 specialisations run this body too.
def runSyrkColumns (uplo : Triangle) (mode : TransposeMode) (n k : Nat) (alpha : T) (a : Mem T) (lda : Int) (beta : T)
    (ldc : Int) (herm : Bool) (taskIndex taskCount : Nat) (c : Mem T) : Mem T :=
  strideLoop taskIndex n taskCount (fun j c => loopRange (storedFirst uplo j) (storedEnd uplo n j) (fun i c =>
    let sum := loop k (fun p sum =>
      let ai := matrixValue mode a lda i p
      let aj := conjugateIf (matrixValue mode a lda j p) herm
      sum + ai * aj) 0
    let idxc := matIndex ldc i j
    let onDiagonal := herm && decide (i = j)
    Function.update c idxc
      (clearImaginary onDiagonal (alpha * sum + scaledStoredValue beta (c idxc) onDiagonal))) c) c

def runSyr2kColumns (uplo : Triangle) (mode : TransposeMode) (n k : Nat) (alpha : T) (a : Mem T) (lda : Int) (b : Mem T)
    (ldb : Int) (beta : T) (ldc : Int) (herm : Bool) (taskIndex taskCount : Nat) (c : Mem T) : Mem T :=
  strideLoop taskIndex n taskCount (fun j c => loopRange (storedFirst uplo j) (storedEnd uplo n j) (fun i c =>
    let sum := loop k (fun p sum =>
      let ai := matrixValue mode a lda i p
      let bi := matrixValue mode b ldb i p
      let aj := matrixValue mode a lda j p
      let bj := matrixValue mode b ldb j p
      if herm then sum + (alpha * (ai * conj bj) + conj alpha * (bi * conj aj))
      else sum + (ai * bj + bi * aj)) 0
    let idxc := matIndex ldc i j
    let prod := if herm then sum else alpha * sum
    let onDiagonal := herm && decide (i = j)
    Function.update c idxc (clearImaginary onDiagonal (prod + scaledStoredValue beta (c idxc) onDiagonal))) c) c

def rankOperandBase (mode : TransposeMode) (matrix : Mem T) (ld : Int) (outputOffset : Nat) : Mem T :=
  view matrix (if mode = .noTrans then outputOffset else matIndex ld 0 outputOffset)

def rankProduct (gemm : GemmRoutine T) (rt : Runtime) (site : Site) (mode : TransposeMode) (hermitian : Bool)
    (rows cols : Nat) (k : Int) (alpha : T) (left : Mem T) (ldLeft : Int) (right : Mem T) (ldRight : Int) (beta : T)
    (ldTile : Int) (tile : Mem T) : Mem T :=
  let flipped : TransposeMode := if hermitian then .conjTrans else .trans
  if mode = .noTrans then gemm.run rt site .noTrans flipped rows cols k alpha left ldLeft right ldRight beta tile ldTile
  else gemm.run rt site flipped .noTrans rows cols k alpha left ldLeft right ldRight beta tile ldTile

-- rankProduct for the block at (row, col), followed for rank two by the mirrored product.
def rankProducts (gemm : GemmRoutine T) (rt : Runtime) (site : Site) (rankTwo : Bool) (mode : TransposeMode)
    (hermitian : Bool) (row col rows cols : Nat) (k : Int) (alpha : T) (a : Mem T) (lda : Int) (b : Mem T) (ldb : Int)
    (beta : T) (ldTile : Int) (tile : Mem T) : Mem T :=
  let first := rankProduct gemm rt (0 :: site) mode hermitian rows cols k alpha (rankOperandBase mode a lda row) lda
    (rankOperandBase mode b ldb col) ldb beta ldTile tile
  if rankTwo then
    rankProduct gemm rt (1 :: site) mode hermitian rows cols k (conjugateIf alpha hermitian)
      (rankOperandBase mode b ldb row) ldb (rankOperandBase mode a lda col) lda 1 ldTile first
  else first

def commitRankTile (uplo : Triangle) (hermitian : Bool) (row0 col0 rows cols : Nat) (beta : T) (tile : Mem T) (ldc : Int)
    (c : Mem T) : Mem T :=
  loop cols (fun j c => loop rows (fun i c =>
    let globalRow := row0 + i
    let globalCol := col0 + j
    if stored uplo globalRow globalCol then
      let index := matIndex ldc globalRow globalCol
      let onDiagonal := hermitian && decide (globalRow = globalCol)
      Function.update c index
        (clearImaginary onDiagonal (tile (i + j * rows) + scaledStoredValue beta (c index) onDiagonal))
    else c) c) c

def rankTile (env : Level3Env T) (rt : Runtime) (site : Site) (rankTwo : Bool) (uplo : Triangle) (mode : TransposeMode)
    (hermitian : Bool) (row col rows cols : Nat) (k : Int) (alpha : T) (a : Mem T) (lda : Int) (b : Mem T) (ldb : Int)
    (beta : T) (ldc : Int) (c : Mem T) : Mem T :=
  let tile := rankProducts env.gemm rt (row :: col :: site) rankTwo mode hermitian row col rows cols k alpha a lda b ldb 0
    rows (env.scratch (row :: col :: site))
  commitRankTile uplo hermitian row col rows cols beta tile ldc c

-- The rectangle of a column strip that lies strictly inside the stored triangle.
def rankDirect (env : Level3Env T) (rt : Runtime) (site : Site) (rankTwo : Bool) (mode : TransposeMode) (hermitian : Bool)
    (first col rows cols : Nat) (k : Int) (alpha : T) (a : Mem T) (lda : Int) (b : Mem T) (ldb : Int) (beta : T) (ldc : Int)
    (c : Mem T) : Mem T :=
  if rows > 0 then
    onTail (matIndex ldc first col) (rankProducts env.gemm rt (first :: col :: site) rankTwo mode hermitian first col rows cols
      k alpha a lda b ldb beta ldc) c
  else c

def rankDiagonal (env : Level3Env T) (rt : Runtime) (site : Site) (rankTwo : Bool) (uplo : Triangle) (mode : TransposeMode)
    (hermitian : Bool) (start size : Nat) (k : Int) (alpha : T) (a : Mem T) (lda : Int) (b : Mem T) (ldb : Int) (beta : T)
    (ldc : Int) (c : Mem T) : Mem T :=
  if Scalar.isComplex T ∨ rt.maxThreads site > 1 then
    rankTile env rt (0 :: site) rankTwo uplo mode hermitian start start size size k alpha a lda b ldb beta ldc c
  else
    let leaf := min size 32
    strideLoop start (start + size) leaf (fun d c =>
      let width := min leaf (start + size - d)
      let first := if uplo = .upper then start else d + width
      let rows := if uplo = .upper then d - start else start + size - first
      rankTile env rt (0 :: site) rankTwo uplo mode hermitian d d width width k alpha a lda b ldb beta ldc
        (rankDirect env rt (1 :: site) rankTwo mode hermitian first d rows width k alpha a lda b ldb beta ldc c)) c

def rankPanels (env : Level3Env T) (rt : Runtime) (site : Site) (rankTwo : Bool) (bs : Nat) (uplo : Triangle)
    (mode : TransposeMode) (n : Nat) (k : Int) (alpha : T) (a : Mem T) (lda : Int) (b : Mem T) (ldb : Int) (beta : T) (ldc : Int)
    (hermitian : Bool) (c : Mem T) : Mem T :=
  strideLoop 0 n bs (fun j0 c =>
    let jb := blockLength n bs j0
    let first := if uplo = .upper then 0 else j0 + jb
    let rows := if uplo = .upper then j0 else n - first
    rankDiagonal env rt (j0 :: 0 :: site) rankTwo uplo mode hermitian j0 jb k alpha a lda b ldb beta ldc
      (rankDirect env rt (j0 :: 1 :: site) rankTwo mode hermitian first j0 rows jb k alpha a lda b ldb beta ldc c)) c

-- The tiles of the stored triangle, column of tiles by column of tiles.
def forRankTiles {σ : Type} (uplo : Triangle) (n bs : Nat) (body : Nat → Nat → σ → σ) (state : σ) : σ :=
  strideLoop 0 n bs (fun j0 state =>
    let cols := blockLength n bs j0
    let rowStart := if uplo = .upper then 0 else j0
    let iEnd := if uplo = .upper then j0 + cols else n
    strideLoop rowStart iEnd bs (fun row state => body row j0 state) state) state

def rankTiles (env : Level3Env T) (rt : Runtime) (site : Site) (rankTwo : Bool) (bs : Nat) (uplo : Triangle)
    (mode : TransposeMode) (n : Nat) (k : Int) (alpha : T) (a : Mem T) (lda : Int) (b : Mem T) (ldb : Int) (beta : T) (ldc : Int)
    (hermitian : Bool) (c : Mem T) : Mem T :=
  forRankTiles uplo n bs (fun iBase j0 c =>
    rankTile env rt site rankTwo uplo mode hermitian iBase j0 (blockLength n bs iBase) (blockLength n bs j0) k alpha a lda b ldb
      beta ldc c) c

def packedRankProduct (gemm : GemmRoutine T) (scratch : Site → Mem T) (rt : Runtime) (site : Site) (mode : TransposeMode)
    (hermitian : Bool) (row0 col0 rows cols k : Nat) (alpha : T) (left : Mem T) (ldLeft : Int) (right : Mem T) (ldRight : Int)
    (accumulate : Bool) (output : Mem T) : Mem T :=
  let flipped : TransposeMode := if hermitian then .conjTrans else .trans
  let leftTrans := if mode = .noTrans then .noTrans else flipped
  let rightTrans := if mode = .noTrans then flipped else .noTrans
  strideLoop 0 k 64 (fun p0 output =>
    let depth := blockLength k 64 p0
    let aPanel := packGeneralOpBlock leftTrans left ldLeft row0 p0 rows depth (scratch (0 :: p0 :: site))
    let bPanel := packGeneralOpBlock rightTrans right ldRight p0 col0 depth cols (scratch (1 :: p0 :: site))
    gemm.run rt (p0 :: site) .noTrans .noTrans rows cols depth alpha aPanel rows bPanel depth
      (if accumulate ∨ p0 ≠ 0 then 1 else 0) output rows) output

def packedRankTile (env : Level3Env T) (rt : Runtime) (site : Site) (rankTwo : Bool) (uplo : Triangle) (mode : TransposeMode)
    (n k : Nat) (alpha : T) (a : Mem T) (lda : Int) (b : Mem T) (ldb : Int) (beta : T) (ldc : Int) (hermitian : Bool)
    (row col : Nat) (c : Mem T) : Mem T :=
  let rows := blockLength n 64 row
  let cols := blockLength n 64 col
  let first := packedRankProduct env.gemm env.scratch rt (0 :: row :: col :: site) mode hermitian row col rows cols k alpha
    a lda b ldb false (env.scratch (row :: col :: site))
  let tile := if rankTwo then
      packedRankProduct env.gemm env.scratch rt (1 :: row :: col :: site) mode hermitian row col rows cols k
        (conjugateIf alpha hermitian) b ldb a lda true first
    else first
  commitRankTile uplo hermitian row col rows cols beta tile ldc c

-- One worker of the cyclic distribution: it walks all tiles and keeps its own.
def packedRankWorker (env : Level3Env T) (rt : Runtime) (site : Site) (rankTwo : Bool) (uplo : Triangle)
    (mode : TransposeMode) (n k : Nat) (alpha : T) (a : Mem T) (lda : Int) (b : Mem T) (ldb : Int) (beta : T) (ldc : Int)
    (hermitian : Bool) (workers majorBlocks majorTiles worker : Nat) (c : Mem T) : Mem T :=
  (forRankTiles uplo n 64 (fun row col (state : Mem T × Nat × Nat) =>
    let major := row / 64 < majorBlocks ∧ col / 64 < majorBlocks
    let majorOrdinal := state.2.1
    let edgeOrdinal := state.2.2
    let ordinal := if major then majorOrdinal else edgeOrdinal
    (if ordinal % workers = worker then
        packedRankTile env rt (worker :: site) rankTwo uplo mode n k alpha a lda b ldb beta ldc hermitian row col state.1
      else state.1,
      if major then (majorOrdinal + 1, edgeOrdinal) else (majorOrdinal, edgeOrdinal + 1))) (c, 0, majorTiles)).1

def parallelRankMaxWorkers : Nat := 8

-- A partial block counts when it covers at least half a panel.
def substantialBlocks (n : Nat) : Nat := n / 64 + if n % 64 ≥ 32 then 1 else 0

def parallelTiles (n : Nat) : Nat := substantialBlocks n * (substantialBlocks n + 1) / 2

def packedRankWorkers (rt : Runtime) (site : Site) (options : Options) (n : Nat) : Nat :=
  min (min options.packedRankWorkerLimit parallelRankMaxWorkers) (rt.taskCount (0 :: site) (parallelTiles n))

def tryParallelPackedRank (env : Level3Env T) (rt : Runtime) (site : Site) (rankTwo : Bool) (options : Options)
    (uplo : Triangle) (mode : TransposeMode) (n k : Nat) (alpha : T) (a : Mem T) (lda : Int) (b : Mem T) (ldb : Int) (beta : T)
    (c : Mem T) (ldc : Int) (hermitian : Bool) : Bool × Mem T :=
  if options.packedRankPanels = false ∨ options.parallelPackedRankPanels = false ∨ options.directRankPanels ∨
      options.blockSize ≠ 64 ∨ options.packedRankPoolAvailable = false then (false, c)
  else if n = 0 ∨ k = 0 ∨ isZero alpha then (false, c)
  else
    if substantialBlocks n * (substantialBlocks n + 1) > usizeMax then (false, c)
    else
      let workers := packedRankWorkers rt site options n
      if workers ≤ 1 then (false, c)
      else if acquireWorkspace T rt (1 :: site) options (3 * workers) = false then (false, c)
      else
        answered (rt.runTasks (2 :: site) workers (packedRankWorker env rt (3 :: site) rankTwo uplo mode n k alpha a lda b ldb
          beta ldc hermitian workers (substantialBlocks n) (parallelTiles n)) c) c

def tryPackedRank (env : Level3Env T) (rt : Runtime) (site : Site) (rankTwo : Bool) (options : Options) (uplo : Triangle)
    (mode : TransposeMode) (n k : Nat) (alpha : T) (a : Mem T) (lda : Int) (b : Mem T) (ldb : Int) (beta : T) (c : Mem T)
    (ldc : Int) (hermitian : Bool) : Bool × Mem T :=
  if options.directRankPanels ∨ options.blockSize ≠ 64 then (false, c)
  else if acquireWorkspace T rt (0 :: site) options 3 = false then (false, c)
  else (true, forRankTiles uplo n 64
    (packedRankTile env rt (1 :: site) rankTwo uplo mode n k alpha a lda b ldb beta ldc hermitian) c)

-- transposeSupport of the catalog.
def rankTransposeSupport (hermitian : Bool) (mode : TransposeMode) : Bool :=
  match mode with
  | .noTrans => true
  | .trans => !hermitian
  | .conjTrans => hermitian

def executePackedRankSerial (env : Level3Env T) (rt : Runtime) (site : Site) (rankTwo : Bool) (options : Options)
    (uplo : Triangle) (mode : TransposeMode) (n_ k_ : Int) (alpha : T) (a : Mem T) (lda : Int) (b : Mem T) (ldb : Int) (beta : T)
    (c : Mem T) (ldc : Int) (hermitian : Bool) : Bool × Mem T :=
  if rankTransposeSupport hermitian mode = false ∨ options.packedRankPanels = false ∨ options.directRankPanels ∨
      options.blockSize ≠ 64 then (false, c)
  else if Scalar.isComplex T ∧ ((hermitian ∧ rankTwo = false ∧ Scalar.imagIsZero alpha = false) ∨
      (hermitian ∧ Scalar.imagIsZero beta = false)) then (false, c)
  else if n_ ≤ 0 then (true, c)
  else if k_ ≤ 0 ∨ isZero alpha then (true, scaleStoredTriangle uplo (toUsize n_) beta c ldc hermitian)
  else tryPackedRank env rt site rankTwo options uplo mode (toUsize n_) (toUsize k_) alpha a lda b ldb beta c ldc hermitian

-- parallel stands for the implementation of the descriptor of the kernel; the
-- parallel one falls back to the serial one.
def executePackedRank (env : Level3Env T) (rt : Runtime) (site : Site) (rankTwo parallel : Bool) (options : Options)
    (uplo : Triangle) (mode : TransposeMode) (n_ k_ : Int) (alpha : T) (a : Mem T) (lda : Int) (b : Mem T) (ldb : Int) (beta : T)
    (c : Mem T) (ldc : Int) (hermitian : Bool) : Bool × Mem T :=
  let serial := fun c =>
    executePackedRankSerial env rt (0 :: site) rankTwo options uplo mode n_ k_ alpha a lda b ldb beta c ldc hermitian
  if parallel = false then serial c
  else if rankTransposeSupport hermitian mode = false ∨ options.packedRankPanels = false ∨ options.directRankPanels ∨
      options.blockSize ≠ 64 ∨ options.parallelPackedRankPanels = false then (false, c)
  else if Scalar.isComplex T ∧ ((hermitian ∧ rankTwo = false ∧ Scalar.imagIsZero alpha = false) ∨
      (hermitian ∧ Scalar.imagIsZero beta = false)) then (false, c)
  else if n_ ≤ 0 then (true, c)
  else if k_ ≤ 0 ∨ isZero alpha then (true, scaleStoredTriangle uplo (toUsize n_) beta c ldc hermitian)
  else
    orTry (tryParallelPackedRank env rt (1 :: site) rankTwo options uplo mode (toUsize n_) (toUsize k_) alpha a lda b ldb beta
      c ldc hermitian) serial

def queuedRankTask (env : Level3Env T) (rt : Runtime) (site : Site) (rankTwo : Bool) (bs nb : Nat) (uplo : Triangle)
    (mode : TransposeMode) (n : Nat) (k : Int) (alpha : T) (a : Mem T) (lda : Int) (b : Mem T) (ldb : Int) (beta : T) (ldc : Int)
    (hermitian : Bool) (index : Nat) (c : Mem T) : Mem T :=
  let bi := index % nb
  let bj := index / nb
  if (if uplo = .upper then bi > bj else bi < bj) then c
  else
    let row := bi * bs
    let col := bj * bs
    let rows := min bs (n - row)
    let cols := min bs (n - col)
    if bi = bj then rankTile env rt (0 :: site) rankTwo uplo mode hermitian row col rows cols k alpha a lda b ldb beta ldc c
    else onTail (matIndex ldc row col) (rankProducts env.gemm rt (1 :: index :: site) rankTwo mode hermitian row col rows cols k
      alpha a lda b ldb beta ldc) c

def tryQueuedRank (env : Level3Env T) (rt : Runtime) (site : Site) (rankTwo : Bool) (options : Options) (uplo : Triangle)
    (mode : TransposeMode) (n : Nat) (k : Int) (alpha : T) (a : Mem T) (lda : Int) (b : Mem T) (ldb : Int) (beta : T) (c : Mem T)
    (ldc : Int) (hermitian : Bool) : Bool × Mem T :=
  if rt.arch ≠ .x86_64 ∨ n < 256 ∨ k < 64 ∨ rt.maxThreads (0 :: site) ≤ 1 then (false, c)
  else if validOptions options = false ∨ options.workspaceAvailable = false then (false, c)
  else
    let bs := if n < 384 then 32 else 64
    let nb := blockCount n bs
    if nb * (bs * bs) > usizeMax ∨ rt.workspace (1 :: site) (nb * (bs * bs)) = false then (false, c)
    else if nb * nb > usizeMax then (false, c)
    else
      answered (rt.runTasks (2 :: site) (nb * nb) (queuedRankTask env rt (3 :: site) rankTwo bs nb uplo mode n k alpha a lda b ldb
        beta ldc hermitian) c) c

-- What trySyrk and trySyr2k do once a transposed real operand is converted.
def tryRankBlocks (env : Level3Env T) (rt : Runtime) (site : Site) (rankTwo : Bool) (options : Options) (uplo : Triangle)
    (mode : TransposeMode) (n : Nat) (k : Int) (alpha : T) (a : Mem T) (lda : Int) (b : Mem T) (ldb : Int) (beta : T) (c : Mem T)
    (ldc : Int) (hermitian : Bool) : Bool × Mem T :=
  orTry (tryQueuedRank env rt (0 :: site) rankTwo options uplo mode n k alpha a lda b ldb beta c ldc hermitian) (fun c =>
    if acquireWorkspace T rt (1 :: site) options 1 = false then (false, c)
    else if rt.arch = .x86_64 ∨ options.directRankPanels then
      (true, rankPanels env rt (2 :: site) rankTwo options.blockSize uplo mode n k alpha a lda b ldb beta ldc hermitian c)
    else (true, rankTiles env rt (2 :: site) rankTwo options.blockSize uplo mode n k alpha a lda b ldb beta ldc hermitian c))

def tryRank (env : Level3Env T) (rt : Runtime) (site : Site) (rankTwo : Bool) (options : Options) (uplo : Triangle)
    (mode : TransposeMode) (n_ k_ : Int) (alpha : T) (a : Mem T) (lda : Int) (b : Mem T) (ldb : Int) (beta : T) (c : Mem T)
    (ldc : Int) (hermitian : Bool) : Bool × Mem T :=
  if n_ ≤ 0 then (true, c)
  else
    let n := toUsize n_
    if k_ ≤ 0 ∨ isZero alpha then (true, scaleStoredTriangle uplo n beta c ldc hermitian)
    else if options.packedRankPanels then
      executePackedRank env rt (0 :: site) rankTwo (options.parallelPackedRankPanels && decide (rt.maxThreads site > 1)) options
        uplo mode n_ k_ alpha a lda b ldb beta c ldc hermitian
    else if rt.arch = .x86_64 ∧ isReal T ∧ mode ≠ .noTrans ∧ n ≥ 128 ∧ k_ ≥ 64 ∧ (rt.maxThreads site = 1 ∨ n < 384) ∧
        options.workspaceAvailable ∧ validOptions options then
      let count := n * toUsize k_
      let total := if rankTwo then count * 2 else count
      if total > usizeMax ∨ rt.workspace (1 :: site) total = false then (false, c)
      else
        -- The recursive no-trans call meets none of the checks above.
        tryRankBlocks env rt (2 :: site) rankTwo options uplo .noTrans n k_ alpha (packTransposedA n (toUsize k_) a lda) n_
          (packTransposedA n (toUsize k_) b ldb) n_ beta c ldc hermitian
    else tryRankBlocks env rt (3 :: site) rankTwo options uplo mode n k_ alpha a lda b ldb beta c ldc hermitian

def trySyrk (env : Level3Env T) (rt : Runtime) (site : Site) (options : Options) (uplo : Triangle) (mode : TransposeMode)
    (n_ k_ : Int) (alpha : T) (a : Mem T) (lda : Int) (beta : T) (c : Mem T) (ldc : Int) (hermitian : Bool) : Bool × Mem T :=
  tryRank env rt site false options uplo mode n_ k_ alpha a lda a lda beta c ldc hermitian

def trySyr2k (env : Level3Env T) (rt : Runtime) (site : Site) (options : Options) (uplo : Triangle) (mode : TransposeMode)
    (n_ k_ : Int) (alpha : T) (a : Mem T) (lda : Int) (b : Mem T) (ldb : Int) (beta : T) (c : Mem T) (ldc : Int)
    (hermitian : Bool) : Bool × Mem T :=
  tryRank env rt site true options uplo mode n_ k_ alpha a lda b ldb beta c ldc hermitian

-- The dispatcher of syrk and syr2k: macShape is what the macOS candidate asks of a
-- threaded shape beyond its profile, columns the column route.
def rankDispatch (env : Level3Env T) (rt : Runtime) (site : Site) (rankTwo : Bool) (macShape : Bool)
    (columns : Nat → Nat → Mem T → Mem T) (uplo : Triangle) (mode : TransposeMode) (n_ k_ : Int) (alpha : T) (a : Mem T)
    (lda : Int) (b : Mem T) (ldb : Int) (beta : T) (c : Mem T) (ldc : Int) (herm : Bool) : Mem T :=
  if n_ ≤ 0 then c
  else if k_ = 0 ∨ isZero alpha then scaleStoredRank uplo (toUsize n_) beta c ldc herm
  else
    let n := toUsize n_
    let k := toUsize k_
    let profile := aarch64MacosRankTileCandidate
    let mac := fun (c : Mem T) =>
      if rt.arch = .aarch64 ∧ env.macos ∧ k_ > 0 ∧ profile.candidate n k false ∧
          (rt.maxThreads (0 :: site) = 1 ∨ (profile.candidate n k true ∧ macShape)) ∧
          (env.capability = .aarch64AsimdFma ∨ env.capability = .aarch64Sme) then
        tryRank env rt (1 :: site) rankTwo profile.options uplo mode n_ k_ alpha a lda b ldb beta c ldc herm
      else (false, c)
    let x86 := fun (c : Mem T) =>
      if rt.arch = .x86_64 ∧ n_ ≥ 128 ∧ k_ ≥ 64 ∧ (rt.maxThreads (0 :: site) = 1 ∨ n_ ≥ 256) ∧
          env.capability = .x86Avx2Fma then
        tryRank env rt (2 :: site) rankTwo
          { blockSize := if rt.maxThreads (0 :: site) > 1 then 256 else if isComplexF32 T then 128 else 64 }
          uplo mode n_ k_ alpha a lda b ldb beta c ldc herm
      else (false, c)
    let columnRoute := fun (c : Mem T) =>
      let work := satMul (satMul n n) k
      let taskCount := if work ≥ 128 * 1024 then min (rt.taskCount (3 :: site) n) 32 else 1
      if taskCount > 1 then
        (rt.runTasks (4 :: site) taskCount (fun taskIndex => columns taskIndex taskCount) c).getD (columns 0 1 c)
      else columns 0 1 c
    orElse (orTry (mac c) x86) columnRoute

def syrk (env : Level3Env T) (rt : Runtime) (site : Site) (uplo : Triangle) (mode : TransposeMode) (n_ k_ : Int) (alpha : T)
    (a : Mem T) (lda : Int) (beta : T) (c : Mem T) (ldc : Int) (herm : Bool) : Mem T :=
  rankDispatch env rt site false (!isComplexF64 T || decide (n_ ≥ 128) || decide (k_ ≥ 64))
    (runSyrkColumns uplo mode (toUsize n_) (toUsize k_) alpha a lda beta ldc herm) uplo mode n_ k_ alpha a lda a lda beta c ldc
    herm

def syr2k (env : Level3Env T) (rt : Runtime) (site : Site) (uplo : Triangle) (mode : TransposeMode) (n_ k_ : Int) (alpha : T)
    (a : Mem T) (lda : Int) (b : Mem T) (ldb : Int) (beta : T) (c : Mem T) (ldc : Int) (herm : Bool) : Mem T :=
  rankDispatch env rt site true true (runSyr2kColumns uplo mode (toUsize n_) (toUsize k_) alpha a lda b ldb beta ldc herm) uplo
    mode n_ k_ alpha a lda b ldb beta c ldc herm

end Zynum
