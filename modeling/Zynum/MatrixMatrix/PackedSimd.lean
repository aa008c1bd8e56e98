import Zynum.MatrixMatrix.Routine

set_option autoImplicit false

/- The real GEMM micro-kernels: the shared write-back (epilogue.zig), the B panels
   (packing.zig), the portable kernels (generic.zig, generic/basic.zig) and the
   packed kernel (packed_simd.zig). A vector is a function of its lane; @mulAdd is
   a product and a sum. -/
namespace Zynum.PackedSimd

open ArrayProgram

variable {T : Type} [Zero T] [One T] [Add T] [Mul T] [DecidableEq T]

section Epilogue

def scaleOldScalar (beta old : T) : T := if beta = 0 then 0 else if beta = 1 then old else beta * old

def applyScalar (alpha beta acc old : T) : T :=
  if alpha = 1 ∧ beta = 0 then acc else alpha * acc + scaleOldScalar beta old

def applyTaskScalar (task : Task T) (acc : T) (row col : Nat) (c : Mem T) : T :=
  if task.alpha = 1 ∧ task.beta = 0 then acc
  else if task.beta = 0 then task.alpha * acc + 0
  else applyScalar task.alpha task.beta acc (c (matIndex task.ldc row col))

def scaleOldVector (beta : T) (old : Nat → T) : Nat → T :=
  if beta = 0 then fun _ => 0 else if beta = 1 then old else fun lane => old lane * beta

def applyVector (alpha beta : T) (acc old : Nat → T) : Nat → T :=
  if alpha = 1 ∧ beta = 0 then acc else fun lane => acc lane * alpha + scaleOldVector beta old lane

def loadVec (ptr : Mem T) (ld : Int) (row col : Nat) : Nat → T := fun lane => ptr (matIndex ld row col + lane)

def storeVec (lanes start : Nat) (value : Nat → T) (c : Mem T) : Mem T :=
  loop lanes (fun lane c => Function.update c (start + lane) (value lane)) c

def oldVec (task : Task T) (row col : Nat) (c : Mem T) : Nat → T :=
  if task.beta = 0 then fun _ => 0 else loadVec c task.ldc row col

def writeVectorEpilogue (lanes : Nat) (task : Task T) (directStore : Bool) (row col : Nat) (acc : Nat → T) (c : Mem T) : Mem T :=
  let out := if directStore then acc else applyVector task.alpha task.beta acc (oldVec task row col c)
  storeVec lanes (matIndex task.ldc row col) out c

def writeScalarEpilogue (task : Task T) (directStore : Bool) (row col : Nat) (acc : T) (c : Mem T) : Mem T :=
  Function.update c (matIndex task.ldc row col) (if directStore then acc else applyTaskScalar task acc row col c)

end Epilogue

section Packing

-- @shuffle: a lane of the left vector, or (as ~lane) one of the right.
def shuffle (left right : Nat → T) (mask : List (Nat ⊕ Nat)) : Nat → T := fun lane =>
  match mask[lane]? with
  | some (.inl from') => left from'
  | some (.inr from') => right from'
  | none => 0

def packBPanelF32x6NoTrans (task : Task T) (j : Nat) (pack : Mem T) : Mem T :=
  let packed := fitLoop 0 task.k 4 (fun p pack =>
    let v := fun col => loadVec task.b task.ldb p (j + col)
    let t0 := shuffle (v 0) (v 1) [.inl 0, .inr 0, .inl 2, .inr 2]
    let t1 := shuffle (v 0) (v 1) [.inl 1, .inr 1, .inl 3, .inr 3]
    let t2 := shuffle (v 2) (v 3) [.inl 0, .inr 0, .inl 2, .inr 2]
    let t3 := shuffle (v 2) (v 3) [.inl 1, .inr 1, .inl 3, .inr 3]
    let rows := fun lane =>
      if lane = 0 then shuffle t0 t2 [.inl 0, .inl 1, .inr 0, .inr 1]
      else if lane = 1 then shuffle t1 t3 [.inl 0, .inl 1, .inr 0, .inr 1]
      else if lane = 2 then shuffle t0 t2 [.inl 2, .inl 3, .inr 2, .inr 3]
      else shuffle t1 t3 [.inl 2, .inl 3, .inr 2, .inr 3]
    loop 4 (fun lane pack =>
      let base := (p + lane) * 6
      Function.update (Function.update (storeVec 4 base (rows lane) pack) (base + 4) (v 4 lane)) (base + 5) (v 5 lane)) pack) pack
  loopRange (fitEnd 0 task.k 4) task.k (fun p pack =>
    loop 6 (fun col pack => Function.update pack (p * 6 + col) (task.b (matIndex task.ldb p (j + col)))) pack) packed

def packBPanelF64x8NoTrans (task : Task T) (j : Nat) (pack : Mem T) : Mem T :=
  let packed := fitLoop 0 task.k 2 (fun p pack =>
    loop 4 (fun pair pack =>
      let col := pair * 2
      let v0 := loadVec task.b task.ldb p (j + col)
      let v1 := loadVec task.b task.ldb p (j + col + 1)
      storeVec 2 ((p + 1) * 8 + col) (shuffle v0 v1 [.inl 1, .inr 1])
        (storeVec 2 (p * 8 + col) (shuffle v0 v1 [.inl 0, .inr 0]) pack)) pack) pack
  loopRange (fitEnd 0 task.k 2) task.k (fun p pack =>
    loop 8 (fun col pack => Function.update pack (p * 8 + col) (task.b (matIndex task.ldb p (j + col)))) pack) packed

def packBPanel (panelCols : Nat) (task : Task T) (j : Nat) (pack : Mem T) : Mem T :=
  loop task.k (fun p pack =>
    loop panelCols (fun col pack => Function.update pack (p * panelCols + col) (task.bValue p (j + col))) pack) pack

end Packing

section Generic

structure BasicConfig where
  vectorLanes : Nat
  tileN : Nat
  kUnroll : Nat

def kernelVec (cfg : BasicConfig) (directStore : Bool) (task : Task T) (row col : Nat) (c : Mem T) : Mem T :=
  let step := fun p (acc : Nat → Nat → T) =>
    let av := loadVec task.a task.lda row p
    loop cfg.tileN (fun lane (acc : Nat → Nat → T) =>
      Function.update acc lane (fun l => av l * task.b (matIndex task.ldb p (col + lane)) + acc lane l)) acc
  let acc := fitLoop 0 task.k cfg.kUnroll (fun p => loop cfg.kUnroll (fun u => step (p + u))) (fun _ _ => 0)
  let acc := loopRange (fitEnd 0 task.k cfg.kUnroll) task.k step acc
  loop cfg.tileN (fun lane => writeVectorEpilogue cfg.vectorLanes task directStore row (col + lane) (acc lane)) c

def kernelScalarRows (cfg : BasicConfig) (directStore : Bool) (task : Task T) (rowStart col : Nat) (c : Mem T) : Mem T :=
  loopRange rowStart task.m (fun row c =>
    let step := fun p (acc : Nat → T) =>
      let av := task.a (matIndex task.lda row p)
      loop cfg.tileN (fun lane acc =>
        Function.update acc lane (av * task.b (matIndex task.ldb p (col + lane)) + acc lane)) acc
    let acc := fitLoop 0 task.k cfg.kUnroll (fun p => loop cfg.kUnroll (fun u => step (p + u))) (fun _ => 0)
    let acc := loopRange (fitEnd 0 task.k cfg.kUnroll) task.k step acc
    loop cfg.tileN (fun lane => writeScalarEpilogue task directStore row (col + lane) (acc lane)) c) c

def kernelScalarTailColumns (directStore : Bool) (task : Task T) (col : Nat) (c : Mem T) : Mem T :=
  loopRange col task.n1 (fun j c => loop task.m (fun row c =>
    let acc := loop task.k (fun p acc => task.a (matIndex task.lda row p) * task.b (matIndex task.ldb p j) + acc) 0
    writeScalarEpilogue task directStore row j acc c) c) c

def dotContiguous (lanes : Nat) (a b : Mem T) (len : Nat) : T :=
  let acc := fitLoop 0 len lanes (fun p (acc : Nat → T) => fun lane => a (p + lane) * b (p + lane) + acc lane) (fun _ => 0)
  let sum := loop lanes (fun lane sum => sum + acc lane) 0
  loopRange (fitEnd 0 len lanes) len (fun p sum => a p * b p + sum) sum

def dotStridedA (a : Mem T) (lda : Int) (b : Mem T) (len : Nat) : T :=
  loop len (fun p acc => a (matIndex lda 0 p) * b p + acc) 0

def wideLanes (precision : Precision) : Nat := if precision = .single then 8 else 4

def rowVectorColumnsImpl (precision : Precision) (directStore : Bool) (task : Task T) (c : Mem T) : Mem T :=
  loopRange task.n0 task.n1 (fun j c =>
    let bCol := view task.b (matIndex task.ldb 0 j)
    let acc := if toUsize task.lda = 1 then dotContiguous (wideLanes precision) task.a bCol task.k
      else dotStridedA task.a task.lda bCol task.k
    writeScalarEpilogue task directStore 0 j acc c) c

def rowVectorColumns (precision : Precision) (task : Task T) (c : Mem T) : Mem T :=
  if task.alpha = 1 ∧ task.beta = 0 then rowVectorColumnsImpl precision true task c
  else rowVectorColumnsImpl precision false task c

def basicNoTransRealImpl (cfg : BasicConfig) (directStore : Bool) (task : Task T) (c : Mem T) : Mem T :=
  let columns := fitLoop task.n0 task.n1 cfg.tileN (fun col c =>
    kernelScalarRows cfg directStore task (fitEnd 0 task.m cfg.vectorLanes) col
      (fitLoop 0 task.m cfg.vectorLanes (fun row => kernelVec cfg directStore task row col) c)) c
  kernelScalarTailColumns directStore task (fitEnd task.n0 task.n1 cfg.tileN) columns

def basicNoTransReal (cfg : BasicConfig) (task : Task T) (c : Mem T) : Mem T :=
  if task.alpha = 1 ∧ task.beta = 0 then basicNoTransRealImpl cfg true task c else basicNoTransRealImpl cfg false task c

def genericNoTransRealF32 (task : Task T) (c : Mem T) : Mem T :=
  let n := task.n1 - task.n0
  if task.m = 1 ∧ task.k ≥ 16 then rowVectorColumns .single task c
  else if task.m = 1 ∧ n ≥ 8 ∧ task.k ≥ 16 then basicNoTransReal ⟨4, 8, 4⟩ task c
  else if task.m = 1 ∧ n ≥ 4 ∧ task.k ≥ 16 then basicNoTransReal ⟨4, 4, 4⟩ task c
  else if n = 1 ∧ task.m ≥ 8 ∧ task.k ≥ 16 then basicNoTransReal ⟨8, 1, 4⟩ task c
  else if task.m ≥ 4 ∧ n ≥ 8 ∧ task.k ≥ 8 then basicNoTransReal ⟨4, 8, 4⟩ task c
  else if task.m ≥ 4 ∧ n ≥ 4 then basicNoTransReal ⟨4, 4, 4⟩ task c
  else basicNoTransReal ⟨4, 1, 4⟩ task c

def genericNoTransRealF64 (task : Task T) (c : Mem T) : Mem T :=
  let n := task.n1 - task.n0
  if task.m = 1 ∧ task.k ≥ 16 then rowVectorColumns .double task c
  else if task.m = 1 ∧ n ≥ 6 ∧ task.k ≥ 16 then basicNoTransReal ⟨2, 6, 4⟩ task c
  else if task.m = 1 ∧ n ≥ 4 ∧ task.k ≥ 16 then basicNoTransReal ⟨2, 4, 4⟩ task c
  else if n = 1 ∧ task.m ≥ 4 ∧ task.k ≥ 16 then basicNoTransReal ⟨4, 1, 4⟩ task c
  else if task.m ≥ 2 ∧ n ≥ 6 ∧ task.k ≥ 8 then basicNoTransReal ⟨2, 6, 4⟩ task c
  else if task.m ≥ 2 ∧ n ≥ 4 then basicNoTransReal ⟨2, 4, 4⟩ task c
  else basicNoTransReal ⟨2, 1, 4⟩ task c

def genericNoTransReal (precision : Precision) (task : Task T) (c : Mem T) : Mem T :=
  if precision = .single then genericNoTransRealF32 task c else genericNoTransRealF64 task c

end Generic

section Packed

structure PackedConfig where
  laneCount : Nat
  tileN : Nat
  rowGroups : Nat
  kUnroll : Nat
  tailVectorLanes : Nat
  maxStackPackBytes : Nat
  packTailColumns : Bool
  specialLowKPack : Bool
  pairedBLoad : Bool
  packA : Bool
  kBlock : Nat

-- What checkConfig and the paired loads ask of a configuration at compile time.
structure PackedConfig.Checked (cfg : PackedConfig) : Prop where
  lanes : 0 < cfg.laneCount
  columns : 0 < cfg.tileN
  groups : 0 < cfg.rowGroups
  unroll : 0 < cfg.kUnroll
  tail : cfg.tailVectorLanes < cfg.laneCount
  pairs : cfg.pairedBLoad = true → cfg.laneCount = 2 ∧ cfg.tileN % 2 = 0

def withTile (cfg : PackedConfig) (tileN : Nat) : PackedConfig :=
  { cfg with tileN := tileN, specialLowKPack := false, pairedBLoad := false }

def elementBytes (precision : Precision) : Nat := if precision = .single then 4 else 8

-- What the allocator answers, what a fresh buffer holds, and the stack the plan allows for B.
structure PackEnv (T : Type) where
  allocates : Site → Bool
  scratch : Site → Mem T
  stackBytes : Nat

def plannedStackPackElems (precision : Precision) (cfg : PackedConfig) (env : PackEnv T) : Nat :=
  let plannedBytes := if env.stackBytes = 0 then cfg.maxStackPackBytes else env.stackBytes
  min (cfg.maxStackPackBytes / elementBytes precision) (plannedBytes / elementBytes precision)

def preparePanel (precision : Precision) (cfg : PackedConfig) (task : Task T) (j : Nat) (pack : Mem T) : Mem T :=
  if cfg.specialLowKPack ∧ precision = .single ∧ cfg.tileN = 6 ∧ (task.k = 31 ∨ task.k = 32) ∧ task.bLayout = .noTrans then
    packBPanelF32x6NoTrans task j pack
  else if cfg.specialLowKPack ∧ precision = .double ∧ cfg.tileN = 8 ∧ task.k = 31 ∧ task.bLayout = .noTrans then
    packBPanelF64x8NoTrans task j pack
  else packBPanel cfg.tileN task j pack

def fallbackRealImpl (precision : Precision) (directStore : Bool) (task : Task T) (c : Mem T) : Mem T :=
  if task.bLayout = .noTrans then genericNoTransReal precision task c
  else loopRange task.n0 task.n1 (fun j c => loop task.m (fun i c =>
    let acc := loop task.k (fun p acc => task.a (matIndex task.lda i p) * task.bValue p j + acc) 0
    writeScalarEpilogue task directStore i j acc c) c) c

def fallbackReal (precision : Precision) (task : Task T) (c : Mem T) : Mem T :=
  if task.alpha = 1 ∧ task.beta = 0 then fallbackRealImpl precision true task c
  else fallbackRealImpl precision false task c

-- acc (group, col) is one vector of the register tile.
def accumulatePackedP (cfg : PackedConfig) (groups : Nat) (paired : Bool) (task : Task T) (panel : Mem T) (i p : Nat)
    (acc : Nat × Nat → Nat → T) : Nat × Nat → Nat → T :=
  let base := p * cfg.tileN
  let av := fun group => loadVec task.a task.lda (i + group * cfg.laneCount) p
  let column := fun col bv (acc : Nat × Nat → Nat → T) => loop groups (fun group (acc : Nat × Nat → Nat → T) =>
    Function.update acc (group, col) (fun lane => av group lane * bv + acc (group, col) lane)) acc
  if paired then
    loop (cfg.tileN / 2) (fun pair acc =>
      let values := fun lane => panel (base + pair * 2 + lane)
      loop 2 (fun lane acc => column (pair * 2 + lane) (values lane) acc) acc) acc
  else loop cfg.tileN (fun col acc => column col (panel (base + col)) acc) acc

def kernelPacked (cfg : PackedConfig) (groups : Nat) (directStore : Bool) (task : Task T) (panel : Mem T) (i j : Nat)
    (c : Mem T) : Mem T :=
  let acc := fitLoop 0 task.k cfg.kUnroll (fun p =>
    loop cfg.kUnroll (fun u => accumulatePackedP cfg groups false task panel i (p + u))) (fun _ _ => 0)
  let acc := loopRange (fitEnd 0 task.k cfg.kUnroll) task.k
    (fun p => accumulatePackedP cfg groups cfg.pairedBLoad task panel i p) acc
  loop groups (fun group c => loop cfg.tileN (fun col c =>
    writeVectorEpilogue cfg.laneCount task directStore (i + group * cfg.laneCount) (j + col) (acc (group, col)) c) c) c

def tailRowsScalarPacked (cfg : PackedConfig) (directStore : Bool) (task : Task T) (panel : Mem T) (rowStart j : Nat)
    (c : Mem T) : Mem T :=
  loopRange rowStart task.m (fun i c =>
    let acc := loop task.k (fun p (acc : Nat → T) =>
      let av := task.a (matIndex task.lda i p)
      let base := p * cfg.tileN
      loop cfg.tileN (fun col acc => Function.update acc col (av * panel (base + col) + acc col)) acc) (fun _ => 0)
    loop cfg.tileN (fun col => writeScalarEpilogue task directStore i (j + col) (acc col)) c) c

def tailConfig (cfg : PackedConfig) : PackedConfig where
  laneCount := cfg.tailVectorLanes
  tileN := cfg.tileN
  rowGroups := 1
  kUnroll := cfg.kUnroll
  tailVectorLanes := 0
  maxStackPackBytes := 0
  packTailColumns := false
  specialLowKPack := false
  pairedBLoad := false
  packA := false
  kBlock := 0

-- The row groups below groups, from i on, then the short vectors and the single rows.
def tailRowsPacked (cfg : PackedConfig) (directStore : Bool) (task : Task T) (panel : Mem T) (j : Nat) (groups i : Nat)
    (c : Mem T) : Mem T :=
  match groups with
  | 0 =>
    if cfg.tailVectorLanes ≠ 0 then
      tailRowsScalarPacked cfg directStore task panel (fitEnd i task.m cfg.tailVectorLanes) j
        (fitLoop i task.m cfg.tailVectorLanes (fun i => kernelPacked (tailConfig cfg) 1 directStore task panel i j) c)
    else tailRowsScalarPacked cfg directStore task panel i j c
  | groups + 1 =>
    let step := cfg.laneCount * (groups + 1)
    tailRowsPacked cfg directStore task panel j groups (fitEnd i task.m step)
      (fitLoop i task.m step (fun i => kernelPacked cfg (groups + 1) directStore task panel i j) c)

def runPreparedPanel (cfg : PackedConfig) (directStore : Bool) (task : Task T) (panel : Mem T) (j : Nat) (c : Mem T) : Mem T :=
  let step := cfg.laneCount * cfg.rowGroups
  tailRowsPacked cfg directStore task panel j (cfg.rowGroups - 1) (fitEnd 0 task.m step)
    (fitLoop 0 task.m step (fun i => kernelPacked cfg cfg.rowGroups directStore task panel i j) c)

def runPanel (precision : Precision) (cfg : PackedConfig) (directStore : Bool) (task : Task T) (pack : Mem T) (j : Nat)
    (c : Mem T) : Mem T :=
  runPreparedPanel cfg directStore task (preparePanel precision cfg task j pack) j c

-- One of the widths below tileN is what is left; any other is unreachable.
def tailColsPacked (precision : Precision) (cfg : PackedConfig) (directStore : Bool) (task : Task T) (pack : Mem T) (j : Nat)
    (c : Mem T) : Mem T :=
  let tileN := task.n1 - j
  if tileN = 0 then c else runPanel precision (withTile cfg tileN) directStore task pack j c

def tailColsGeneric (precision : Precision) (task : Task T) (j : Nat) (c : Mem T) : Mem T :=
  fallbackReal precision { task with n0 := j } c

-- Each panel finds in the buffer whatever the panels before it have left there.
def noTransRealWithPack (precision : Precision) (cfg : PackedConfig) (env : PackEnv T) (site : Site) (directStore : Bool)
    (task : Task T) (c : Mem T) : Mem T :=
  let done := fitLoop task.n0 task.n1 cfg.tileN (fun j =>
    runPanel precision cfg directStore task (env.scratch (j :: site)) j) c
  let j := fitEnd task.n0 task.n1 cfg.tileN
  if j < task.n1 then
    if cfg.packTailColumns then tailColsPacked precision cfg directStore task (env.scratch (j :: site)) j done
    else tailColsGeneric precision task j done
  else done

def packRows (mr : Nat) (task : Task T) (pack : Mem T) : Mem T :=
  loop (strideCount 0 task.m mr) (fun block pack =>
    let row := block * mr
    let count := min mr (task.m - row)
    loop task.k (fun p pack => loop count (fun t pack =>
      Function.update pack (block * mr * task.k + p * mr + t) (task.a (matIndex task.lda row p + t))) pack) pack) pack

def packedRowTask (mr : Nat) (task : Task T) (aPack : Mem T) (block : Nat) : Task T :=
  { task with m := min mr (task.m - block * mr), a := view aPack (block * mr * task.k), lda := mr }

def runPackedRows (cfg : PackedConfig) (directStore : Bool) (mr : Nat) (task : Task T) (aPack panel : Mem T) (j : Nat)
    (c : Mem T) : Mem T :=
  loop (strideCount 0 task.m mr) (fun block =>
    onTail (block * mr) (runPreparedPanel cfg directStore (packedRowTask mr task aPack block) panel j)) c

def withPackedA (precision : Precision) (cfg : PackedConfig) (env : PackEnv T) (site : Site) (directStore : Bool)
    (task : Task T) (c : Mem T) : Option (Mem T) :=
  let mr := cfg.laneCount * cfg.rowGroups
  if env.allocates (0 :: site) then
    let aPack := packRows mr task (env.scratch (0 :: site))
    let done := fitLoop task.n0 task.n1 cfg.tileN (fun j c =>
      runPackedRows cfg directStore mr task aPack (preparePanel precision cfg task j (env.scratch (j :: 1 :: site))) j c) c
    let j := fitEnd task.n0 task.n1 cfg.tileN
    if j < task.n1 then
      let tail := withTile cfg (task.n1 - j)
      some (runPackedRows tail directStore mr task aPack (preparePanel precision tail task j (env.scratch (j :: 1 :: site))) j done)
    else some done
  else none

def noTransRealWithPackSelected (precision : Precision) (cfg : PackedConfig) (env : PackEnv T) (site : Site) (task : Task T)
    (c : Mem T) : Mem T :=
  let directStore : Bool := task.alpha = 1 ∧ task.beta = 0
  let packed := if cfg.packA ∧ task.m ≥ 64 ∧ task.k ≥ 256 ∧ task.n1 - task.n0 ≥ 64 then
    withPackedA precision cfg env (0 :: site) directStore task c else none
  match packed with
  | some done => done
  | none => noTransRealWithPack precision cfg env (1 :: site) directStore task c

def noTransRealUnblocked (precision : Precision) (cfg : PackedConfig) (env : PackEnv T) (site : Site) (task : Task T)
    (c : Mem T) : Mem T :=
  let packElems := task.k * cfg.tileN
  if cfg.maxStackPackBytes ≠ 0 ∧ packElems ≤ plannedStackPackElems precision cfg env then
    noTransRealWithPackSelected precision cfg env (0 :: site) task c
  else if env.allocates (1 :: site) then noTransRealWithPackSelected precision cfg env (0 :: site) task c
  else fallbackReal precision task c

def kBlockTask (cfg : PackedConfig) (task : Task T) (p : Nat) : Task T :=
  { task with
    k := min cfg.kBlock (task.k - p)
    a := view task.a (matIndex task.lda 0 p)
    b := view task.b (if task.bLayout = .noTrans then p else matIndex task.ldb 0 p)
    beta := if p = 0 then task.beta else 1 }

def packedNoTransReal (precision : Precision) (cfg : PackedConfig) (env : PackEnv T) (site : Site) (task : Task T) (c : Mem T) :
    Mem T :=
  if cfg.kBlock ≠ 0 ∧ task.m ≥ 64 ∧ task.n1 - task.n0 ≥ 24 ∧ task.k > cfg.kBlock then
    strideLoop 0 task.k cfg.kBlock (fun p => noTransRealUnblocked precision cfg env (p :: site) (kBlockTask cfg task p)) c
  else noTransRealUnblocked precision cfg env (0 :: site) task c

end Packed

end Zynum.PackedSimd
