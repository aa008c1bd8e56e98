import Zynum.MatrixMatrix.RankUpdateAgree

set_option autoImplicit false

/- The cyclic distribution of tryParallelPackedRank: which tiles a worker keeps,
   and that the workers together do the work of the single-worker route. -/
namespace Zynum

open ArrayProgram

section Ownership

-- The walk of one worker over all tiles, with the tiles it keeps for a result.
def packedRankOwned (uplo : Triangle) (n bs workers majorBlocks majorTiles worker : Nat) : List (Nat × Nat) :=
  (forRankTiles uplo n bs (fun row col (state : List (Nat × Nat) × Nat × Nat) =>
    let major := row / bs < majorBlocks ∧ col / bs < majorBlocks
    let ordinal := if major then state.2.1 else state.2.2
    (if ordinal % workers = worker then state.1 ++ [(row, col)] else state.1,
      if major then (state.2.1 + 1, state.2.2) else (state.2.1, state.2.2 + 1))) ([], 0, majorTiles)).1

def storedTiles (uplo : Triangle) (n bs : Nat) : Set (Nat × Nat) :=
  {tile | ∃ cell, cell ∈ triangleCells uplo n ∧ tileOf bs cell = tile}

def committedCells (uplo : Triangle) (n bs : Nat) (tile : Nat × Nat) : Set (Nat × Nat) :=
  {cell | cell ∈ tileCells tile.1 (blockLength n bs tile.1) tile.2 (blockLength n bs tile.2) ∧
    stored uplo cell.1 cell.2 = true}

theorem foldl_filter {τ : Type} (keep : τ → Prop) [DecidablePred keep] (tasks before : List τ) :
    tasks.foldl (fun kept task => if keep task then kept ++ [task] else kept) before =
      before ++ tasks.filter (fun task => keep task) := by
  induction tasks generalizing before with
  | nil => rw [List.foldl_nil, List.filter_nil, List.append_nil]
  | cons task rest ih =>
    by_cases mine : keep task
    · rw [List.foldl_cons, if_pos mine, ih, List.filter_cons, if_pos (decide_eq_true mine), List.append_assoc]
      rfl
    · rw [List.foldl_cons, if_neg mine, ih, List.filter_cons, if_neg (by rwa [decide_eq_true_iff])]

theorem packed_rank_owned_filter (uplo : Triangle) (n bs workers majorBlocks majorTiles worker : Nat) (some : 0 < bs) :
    packedRankOwned uplo n bs workers majorBlocks majorTiles worker = (rankTileList uplo n bs).filter
      (fun tile => packedRankOrdinal uplo n bs majorBlocks majorTiles tile % workers = worker) := by
  rw [packedRankOwned, for_rank_tiles_list]
  have walk := foldl_owner (tileOrdinal bs majorBlocks) (countTile bs majorBlocks) (rankTileList uplo n bs)
    (rank_tiles_distinct uplo n bs some) (0, majorTiles) (fun tile kept => kept ++ [tile]) workers worker []
  exact walk.trans (foldl_filter _ _ _)

theorem rank_tile_corner_stored (uplo : Triangle) (n bs : Nat) (some : 0 < bs) (tile : Nat × Nat) :
    tile ∈ rankTileList uplo n bs ↔ tile ∈ storedTiles uplo n bs := by
  constructor
  · intro member
    simp only [rankTileList, List.mem_flatMap, List.mem_range, List.mem_map] at member
    obtain ⟨s, columns, step, rows, rfl⟩ := member
    rw [stride_count_iff _ _ _ _ some] at columns rows
    cases uplo with
    | upper =>
      simp only [if_true, blockLength] at rows
      -- the last column of the tile meets its first row
      refine ⟨(step * bs, 0 + s * bs + min bs (n - (0 + s * bs)) - 1), ⟨⟨by omega, by omega⟩, ?_⟩, ?_⟩
      · exact (stored_iff .upper _ _).mpr (.inl ⟨rfl, by omega⟩)
      · have column : (0 + s * bs + min bs (n - (0 + s * bs)) - 1) / bs = s :=
          (div_block _ bs s some).mpr ⟨by omega, by omega⟩
        rw [tileOf, column, Nat.mul_div_cancel step some, if_pos rfl]
        simp only [Nat.zero_add]
    | lower =>
      simp only [reduceCtorEq, if_false] at rows
      refine ⟨(0 + s * bs + step * bs, 0 + s * bs), ⟨⟨by omega, by omega⟩, ?_⟩, ?_⟩
      · exact (stored_iff .lower _ _).mpr (.inr ⟨rfl, by omega⟩)
      · simp only [tileOf, reduceCtorEq, if_false, Nat.zero_add]
        rw [← Nat.add_mul, Nat.mul_div_cancel _ some, Nat.mul_div_cancel _ some]
  · rintro ⟨cell, member, rfl⟩
    exact tile_of_listed uplo n bs some cell member

structure OwnedOnce (tiles : Set (Nat × Nat)) (workers : Nat) (owned : Nat → List (Nat × Nat)) : Prop where
  inside : ∀ worker tile, tile ∈ owned worker → tile ∈ tiles
  distinct : ∀ worker, (owned worker).Nodup
  once : ∀ tile, tile ∈ tiles → ∃! worker, worker < workers ∧ tile ∈ owned worker

theorem packed_rank_owned_once (uplo : Triangle) (n bs workers majorBlocks majorTiles : Nat) (block : 0 < bs)
    (some : 0 < workers) :
    OwnedOnce (storedTiles uplo n bs) workers (packedRankOwned uplo n bs workers majorBlocks majorTiles) := by
  have keeps : ∀ worker tile, tile ∈ packedRankOwned uplo n bs workers majorBlocks majorTiles worker ↔
      tile ∈ storedTiles uplo n bs ∧ packedRankOrdinal uplo n bs majorBlocks majorTiles tile % workers = worker := by
    intro worker tile
    rw [packed_rank_owned_filter _ _ _ _ _ _ _ block, List.mem_filter, rank_tile_corner_stored _ _ _ block, decide_eq_true_iff]
  refine ⟨fun worker tile member => ((keeps worker tile).mp member).1, fun worker => ?_, fun tile member => ?_⟩
  · rw [packed_rank_owned_filter _ _ _ _ _ _ _ block]
    exact (rank_tiles_distinct uplo n bs block).filter _
  · refine ⟨packedRankOrdinal uplo n bs majorBlocks majorTiles tile % workers, ⟨Nat.mod_lt _ some, ?_⟩, ?_⟩
    · exact (keeps _ _).mpr ⟨member, rfl⟩
    · rintro worker ⟨_, mine⟩
      exact ((keeps worker tile).mp mine).2.symm

theorem committed_once (uplo : Triangle) (n bs : Nat) (block : 0 < bs) (cell : Nat × Nat) (member : cell ∈ triangleCells uplo n) :
    ∃! tile, tile ∈ storedTiles uplo n bs ∧ cell ∈ committedCells uplo n bs tile := by
  have committed : ∀ r s, cell ∈ committedCells uplo n bs (r * bs, s * bs) ↔ tileOf bs cell = (r * bs, s * bs) := by
    intro r s
    have same := Set.ext_iff.mp (tile_of_cells uplo n bs r s block) cell
    exact ⟨fun inside => (same.mpr inside).2, fun place => same.mp ⟨member, place⟩⟩
  refine ⟨tileOf bs cell, ⟨⟨cell, member, rfl⟩, (committed _ _).mpr rfl⟩, ?_⟩
  rintro tile ⟨⟨other, inside, rfl⟩, mine⟩
  exact ((committed _ _).mp mine).symm

end Ownership

section Workers

variable {T : Type} [CommRing T] [Scalar T]

theorem worker_runs_owned (P : RankProblem T) (env : Level3Env T) (rt : Runtime) (site : Site)
    (workers majorBlocks majorTiles worker : Nat) (c : Mem T) :
    packedRankWorker env rt site P.rankTwo P.uplo P.mode P.n P.k P.alpha P.a P.lda P.b P.ldb P.beta P.ldc P.herm workers
        majorBlocks majorTiles worker c =
      (packedRankOwned P.uplo P.n 64 workers majorBlocks majorTiles worker).foldl (fun c tile =>
        packedRankTile env rt (worker :: site) P.rankTwo P.uplo P.mode P.n P.k P.alpha P.a P.lda P.b P.ldb P.beta P.ldc
          P.herm tile.1 tile.2 c) c := by
  rw [packed_rank_owned_filter _ _ _ _ _ _ _ (by decide), List.foldl_filter, packedRankWorker, for_rank_tiles_list]
  simp only [decide_eq_true_eq]
  exact foldl_owner (tileOrdinal 64 majorBlocks) (countTile 64 majorBlocks) _
    (rank_tiles_distinct P.uplo P.n 64 (by decide)) (0, majorTiles)
    (fun tile c => packedRankTile env rt (worker :: site) P.rankTwo P.uplo P.mode P.n P.k P.alpha P.a P.lda P.b P.ldb
      P.beta P.ldc P.herm tile.1 tile.2 c)
    workers worker c

variable [LawfulScalar T]

-- A tile reads nothing of its panels that it has not packed itself.
theorem packed_tile_scratch (P : RankProblem T) (admissible : P.Admissible) (env : Level3Env T) (rt : Runtime) (site : Site)
    (depth : 0 < P.k) (scratch : Site → Mem T) (tile : Nat × Nat) (member : tile ∈ storedTiles P.uplo P.n 64) :
    packedRankTile { env with scratch := scratch } rt site P.rankTwo P.uplo P.mode P.n P.k P.alpha P.a P.lda P.b P.ldb P.beta
        P.ldc P.herm tile.1 tile.2 =
      packedRankTile env rt site P.rankTwo P.uplo P.mode P.n P.k P.alpha P.a P.lda P.b P.ldb P.beta P.ldc P.herm tile.1
        tile.2 := by
  obtain ⟨r, s, rfl, inRows, _⟩ := rank_tile_corner P.uplo P.n 64 (by decide) tile
    ((rank_tile_corner_stored P.uplo P.n 64 (by decide) tile).mpr member)
  exact (packed_rank_tile_updates P admissible { env with scratch := scratch } rt site depth _ _ inRows).unique
    (packed_rank_tile_updates P admissible env rt site depth _ _ inRows)

-- What the distribution is to guarantee, for any number of workers and any numbering start.
structure SharedByWorkers (P : RankProblem T) (env : Level3Env T) (rt : Runtime) (site : Site)
    (workers majorBlocks majorTiles : Nat) : Prop where
  owned : ∀ bs, 0 < bs →
    OwnedOnce (storedTiles P.uplo P.n bs) workers (packedRankOwned P.uplo P.n bs workers majorBlocks majorTiles)
  committed : ∀ bs, 0 < bs → ∀ cell, cell ∈ triangleCells P.uplo P.n →
    ∃! tile, tile ∈ storedTiles P.uplo P.n bs ∧ cell ∈ committedCells P.uplo P.n bs tile
  runs : ∀ worker c,
    packedRankWorker env rt site P.rankTwo P.uplo P.mode P.n P.k P.alpha P.a P.lda P.b P.ldb P.beta P.ldc P.herm workers
        majorBlocks majorTiles worker c =
      (packedRankOwned P.uplo P.n 64 workers majorBlocks majorTiles worker).foldl (fun c tile =>
        packedRankTile env rt (worker :: site) P.rankTwo P.uplo P.mode P.n P.k P.alpha P.a P.lda P.b P.ldb P.beta P.ldc
          P.herm tile.1 tile.2 c) c
  commits : ∀ worker tile, tile ∈ storedTiles P.uplo P.n 64 →
    Updates (committedCells P.uplo P.n 64 tile) (cellAddress P.ldc) P.canonical.target
      (packedRankTile env rt (worker :: site) P.rankTwo P.uplo P.mode P.n P.k P.alpha P.a P.lda P.b P.ldb P.beta P.ldc
        P.herm tile.1 tile.2)
  packed : ∀ worker scratch tile, tile ∈ storedTiles P.uplo P.n 64 →
    packedRankTile { env with scratch := scratch } rt (worker :: site) P.rankTwo P.uplo P.mode P.n P.k P.alpha P.a P.lda P.b
        P.ldb P.beta P.ldc P.herm tile.1 tile.2 =
      packedRankTile env rt (worker :: site) P.rankTwo P.uplo P.mode P.n P.k P.alpha P.a P.lda P.b P.ldb P.beta P.ldc P.herm
        tile.1 tile.2
  single : ∀ (order : List Nat) (rt' : Runtime) (site' : Site) (options : Options) (c : Mem T),
    order.Perm (List.range workers) →
    (tryPackedRank env rt' site' P.rankTwo options P.uplo P.mode P.n P.k P.alpha P.a P.lda P.b P.ldb P.beta c P.ldc
      P.herm).1 = true →
    order.foldl (fun c worker => packedRankWorker env rt site P.rankTwo P.uplo P.mode P.n P.k P.alpha P.a P.lda P.b P.ldb
        P.beta P.ldc P.herm workers majorBlocks majorTiles worker c) c =
      (tryPackedRank env rt' site' P.rankTwo options P.uplo P.mode P.n P.k P.alpha P.a P.lda P.b P.ldb P.beta c P.ldc
        P.herm).2

theorem workers_share (P : RankProblem T) (admissible : P.Admissible) (env : Level3Env T) (rt : Runtime) (site : Site)
    (workers majorBlocks majorTiles : Nat) (some : 0 < workers) (depth : 0 < P.k) :
    SharedByWorkers P env rt site workers majorBlocks majorTiles where
  owned bs block := packed_rank_owned_once P.uplo P.n bs workers majorBlocks majorTiles block some
  committed bs block := committed_once P.uplo P.n bs block
  runs := worker_runs_owned P env rt site workers majorBlocks majorTiles
  commits worker tile member := by
    obtain ⟨r, s, rfl, inRows, _⟩ := rank_tile_corner P.uplo P.n 64 (by decide) tile
      ((rank_tile_corner_stored P.uplo P.n 64 (by decide) tile).mpr member)
    exact packed_rank_tile_updates P admissible env rt (worker :: site) depth _ _ inRows
  packed worker := packed_tile_scratch P admissible env rt (worker :: site) depth
  single order rt' site' options c complete ran := by
    have parallel := packed_rank_worker_updates P admissible env rt site depth workers majorBlocks majorTiles some order complete
    have alone := (try_packed_rank_attempts P admissible env rt' site' options depth).ran c ran
    exact (parallel.wrote c).unique alone

end Workers

section Driver

variable {T : Type} [CommRing T] [Scalar T]

-- The gates of tryParallelPackedRank are open and the pool takes its workers.
structure ParallelRankRuns (P : RankProblem T) (rt : Runtime) (site : Site) (options : Options) : Prop where
  panels : options.packedRankPanels = true
  parallel : options.parallelPackedRankPanels = true
  indirect : options.directRankPanels = false
  block : options.blockSize = 64
  pool : options.packedRankPoolAvailable = true
  rows : P.n ≠ 0
  depth : P.k ≠ 0
  scaled : isZero P.alpha = false
  counted : substantialBlocks P.n * (substantialBlocks P.n + 1) ≤ usizeMax
  several : 1 < packedRankWorkers rt site options P.n
  workspace : acquireWorkspace T rt (1 :: site) options (3 * packedRankWorkers rt site options P.n) = true
  accepted : (rt.dispatch (2 :: site) (packedRankWorkers rt site options P.n)).isSome = true

def RankProblem.tryParallel (P : RankProblem T) (env : Level3Env T) (rt : Runtime) (site : Site) (options : Options)
    (c : Mem T) : Bool × Mem T :=
  tryParallelPackedRank env rt site P.rankTwo options P.uplo P.mode P.n P.k P.alpha P.a P.lda P.b P.ldb P.beta c P.ldc P.herm

def RankProblem.trySerial (P : RankProblem T) (env : Level3Env T) (rt : Runtime) (site : Site) (options : Options)
    (c : Mem T) : Bool × Mem T :=
  tryPackedRank env rt site P.rankTwo options P.uplo P.mode P.n P.k P.alpha P.a P.lda P.b P.ldb P.beta c P.ldc P.herm

def RankProblem.workersInOrder (P : RankProblem T) (env : Level3Env T) (rt : Runtime) (site : Site) (options : Options)
    (order : List Nat) (c : Mem T) : Mem T :=
  order.foldl (fun c worker => packedRankWorker env rt (3 :: site) P.rankTwo P.uplo P.mode P.n P.k P.alpha P.a P.lda P.b P.ldb
    P.beta P.ldc P.herm (packedRankWorkers rt site options P.n) (substantialBlocks P.n) (parallelTiles P.n) worker c) c

theorem try_parallel_runs (P : RankProblem T) (env : Level3Env T) (rt : Runtime) (site : Site) (options : Options)
    (runs : ParallelRankRuns P rt site options) :
    ∃ order, rt.dispatch (2 :: site) (packedRankWorkers rt site options P.n) = some order ∧
      ∀ c, P.tryParallel env rt site options c = (true, P.workersInOrder env rt site options order c) := by
  obtain ⟨order, accepted⟩ := Option.isSome_iff_exists.mp runs.accepted
  refine ⟨order, accepted, fun c => ?_⟩
  have open_ : ¬ (options.packedRankPanels = false ∨ options.parallelPackedRankPanels = false ∨ options.directRankPanels = true ∨
      options.blockSize ≠ 64 ∨ options.packedRankPoolAvailable = false) := by
    rw [runs.panels, runs.parallel, runs.indirect, runs.block, runs.pool]
    decide
  have active : ¬ (P.n = 0 ∨ P.k = 0 ∨ isZero P.alpha = true) := by
    rw [runs.scaled]
    simp only [runs.rows, runs.depth, Bool.false_eq_true, or_self, not_false_eq_true]
  have several := runs.several
  rw [RankProblem.tryParallel, tryParallelPackedRank, if_neg open_, if_neg active, if_neg (Nat.not_lt.mpr runs.counted)]
  dsimp only
  rw [if_neg (by omega), runs.workspace, if_neg Bool.noConfusion, Runtime.runTasks, accepted]
  rfl

theorem try_serial_answers (P : RankProblem T) (env : Level3Env T) (rt : Runtime) (site : Site) (options : Options)
    (c : Mem T) (indirect : options.directRankPanels = false) (block : options.blockSize = 64)
    (workspace : acquireWorkspace T rt (0 :: site) options 3 = true) : (P.trySerial env rt site options c).1 = true := by
  have open_ : ¬ (options.directRankPanels = true ∨ options.blockSize ≠ 64) := by
    rw [indirect, block]
    decide
  rw [RankProblem.trySerial, tryPackedRank, if_neg open_, workspace, if_neg Bool.noConfusion]

theorem try_parallel_declines (P : RankProblem T) (env : Level3Env T) (rt : Runtime) (site : Site) (options : Options)
    (c : Mem T) (closed : ¬ ParallelRankRuns P rt site options) : P.tryParallel env rt site options c = (false, c) := by
  rw [RankProblem.tryParallel, tryParallelPackedRank]
  dsimp only
  split
  · rfl
  rename_i gates
  split
  · rfl
  rename_i active
  split
  · rfl
  rename_i counted
  split
  · rfl
  rename_i several
  split
  · rfl
  rename_i workspace
  cases answer : rt.dispatch (2 :: site) (packedRankWorkers rt site options P.n) with
  | none =>
    rw [Runtime.runTasks, answer]
    rfl
  | some order =>
    simp only [not_or, Bool.not_eq_false, Bool.not_eq_true, not_not] at gates active
    exact absurd ⟨gates.1, gates.2.1, gates.2.2.1, gates.2.2.2.1, gates.2.2.2.2, active.1, active.2.1, active.2.2,
      Nat.not_lt.mp counted, Nat.not_le.mp several, Bool.not_eq_false _ ▸ workspace, by rw [answer]; rfl⟩ closed

variable [LawfulScalar T]

-- The driver shares its tiles among workers of its own, and leaves what the single worker leaves.
structure DriverShares (P : RankProblem T) (env : Level3Env T) (rt : Runtime) (site : Site) (options : Options) : Prop where
  declines : ¬ ParallelRankRuns P rt site options → ∀ c, P.tryParallel env rt site options c = (false, c)
  answers : ParallelRankRuns P rt site options →
    ∃ order : List Nat, order.Perm (List.range (packedRankWorkers rt site options P.n)) ∧
      ∀ c, P.tryParallel env rt site options c = (true, P.workersInOrder env rt site options order c)
  shares : ParallelRankRuns P rt site options →
    SharedByWorkers P env rt (3 :: site) (packedRankWorkers rt site options P.n) (substantialBlocks P.n) (parallelTiles P.n)
  single : ParallelRankRuns P rt site options → ∀ (rt' : Runtime) (site' : Site) (options' : Options) (c : Mem T),
    (P.trySerial env rt' site' options' c).1 = true →
    (P.tryParallel env rt site options c).2 = (P.trySerial env rt' site' options' c).2

theorem packed_rank_shared (P : RankProblem T) (admissible : P.Admissible) (env : Level3Env T) (rt : Runtime) (site : Site)
    (depth : 0 < P.k) :
    (∀ workers majorBlocks majorTiles, 0 < workers → SharedByWorkers P env rt site workers majorBlocks majorTiles) ∧
      ∀ options, DriverShares P env rt site options := by
  refine ⟨fun workers majorBlocks majorTiles some =>
    workers_share P admissible env rt site workers majorBlocks majorTiles some depth, fun options => ?_⟩
  have shares : ParallelRankRuns P rt site options → SharedByWorkers P env rt (3 :: site)
      (packedRankWorkers rt site options P.n) (substantialBlocks P.n) (parallelTiles P.n) := fun runs =>
    workers_share P admissible env rt (3 :: site) _ _ _ (Nat.zero_lt_of_lt runs.several) depth
  refine ⟨fun closed c => try_parallel_declines P env rt site options c closed, fun runs => ?_, shares,
    fun runs rt' site' options' c ran => ?_⟩
  · obtain ⟨order, accepted, answers⟩ := try_parallel_runs P env rt site options runs
    exact ⟨order, rt.dispatch_complete _ _ _ accepted, answers⟩
  · obtain ⟨order, accepted, answers⟩ := try_parallel_runs P env rt site options runs
    rw [answers]
    exact (shares runs).single order rt' site' options' c (rt.dispatch_complete _ _ _ accepted) ran

-- Two hundred rows are six large tiles and four at the edge, among three workers.
theorem packed_rank_shared_three :
    let _ := realKind Int .double
    let _ := real_kind_lawful Int .double
    let call := rankCall false false 'U' 'N' 200 3 (5 : Int) (fun p => (p : Int)) 200 (fun p => (p : Int)) 200 7 200
    let options : Options := { packedRankPanels := true, parallelPackedRankPanels := true }
    let env := Level3Env.portable Int
    packedRankWorkers (Runtime.splitting 3) [] options call.n = 3 ∧ parallelTiles call.n = 6 ∧
      ∀ c, call.tryParallel env (Runtime.splitting 3) [] options c =
        (true, (call.trySerial env Runtime.sequential [] {} c).2) := by
  intro kind lawful call options env
  have law := packed_rank_shared call (rank_call_admissible false false 'U' 'N' 200 3 (5 : Int) (fun p => (p : Int)) 200
    (fun p => (p : Int)) 200 7 200 (by decide)) env (Runtime.splitting 3) [] (by decide)
  have runs : ParallelRankRuns call (Runtime.splitting 3) [] options := by
    constructor <;> decide
  refine ⟨by decide, by decide, fun c => ?_⟩
  obtain ⟨order, _, answers⟩ := (law.2 options).answers runs
  rw [← (law.2 options).single runs Runtime.sequential [] {} c
    (try_serial_answers call env Runtime.sequential [] {} c rfl rfl (by decide)), answers]

end Driver

end Zynum
