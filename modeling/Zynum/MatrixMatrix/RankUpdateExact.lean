import Zynum.MatrixMatrix.RankUpdateTiles

set_option autoImplicit false

/- The blocked, packed, queued and column routes of a rank update, each as one
   update of the stored triangle. -/
namespace Zynum

open ArrayProgram

section Strips

def strip (uplo : Triangle) (lo hi d w : Nat) : Set (Nat × Nat) :=
  {cell | stored uplo cell.1 cell.2 = true ∧ (lo ≤ cell.1 ∧ cell.1 < hi) ∧ d ≤ cell.2 ∧ cell.2 < d + w}

theorem strip_split (uplo : Triangle) (lo hi d w : Nat) (below : lo ≤ d) (above : d + w ≤ hi) :
    tileCells (if uplo = .upper then lo else d + w) (if uplo = .upper then d - lo else hi - (d + w)) d w ∪
      strip uplo d (d + w) d w = strip uplo lo hi d w := by
  ext ⟨i, j⟩
  simp only [Set.mem_union, tileCells, strip, Set.mem_ofPred_eq, stored_iff]
  cases uplo <;> simp only [if_true, reduceCtorEq, if_false, true_and, false_and, or_false, false_or] <;> omega

theorem strip_tile (uplo : Triangle) (d w : Nat) :
    {cell | cell ∈ tileCells d w d w ∧ stored uplo cell.1 cell.2 = true} = strip uplo d (d + w) d w := by
  ext cell
  simp only [tileCells, strip, Set.mem_ofPred_eq]
  tauto

theorem strip_direct_apart (uplo : Triangle) (lo hi d w : Nat) (below : lo ≤ d) (cell : Nat × Nat)
    (member : cell ∈ tileCells (if uplo = .upper then lo else d + w) (if uplo = .upper then d - lo else hi - (d + w)) d w) :
    cell.1 ≠ cell.2 ∧ cell ∉ strip uplo d (d + w) d w := by
  simp only [tileCells, strip, Set.mem_ofPred_eq] at member ⊢
  cases uplo <;> simp only [if_true, reduceCtorEq, if_false] at member <;> refine ⟨by omega, fun inside => ?_⟩ <;> omega

theorem strip_columns (uplo : Triangle) (n stride block : Nat) (some : 0 < stride) :
    {cell | cell ∈ triangleCells uplo n ∧ cell.2 / stride = block} =
      strip uplo 0 n (block * stride) (blockLength n stride (block * stride)) := by
  ext cell
  have columns := block_member cell.2 n stride block some
  simp only [triangleCells, matrixCells, strip, Set.mem_ofPred_eq]
  have lower := Nat.zero_le cell.1
  tauto

end Strips

variable {T : Type} [CommRing T] [Scalar T]

omit [CommRing T] in
theorem strip_injective (P : RankProblem T) (admissible : P.Admissible) (lo hi d w : Nat) (inside : hi ≤ P.n) :
    Set.InjOn (cellAddress P.ldc) (strip P.uplo lo hi d w) := by
  have bound := admissible.bound
  exact (cell_address_injective P.ldc P.n (by simp only [toUsize]; omega)).mono
    (fun cell member => Nat.lt_of_lt_of_le member.2.1.2 inside)

variable [LawfulScalar T]

theorem rank_strip_updates (P : RankProblem T) (admissible : P.Admissible) (env : Level3Env T) (rt : Runtime) (site : Site)
    (lo hi d w : Nat) (below : lo ≤ d) (above : d + w ≤ hi) (inside : hi ≤ P.n) (diagonal : Mem T → Mem T)
    (updates : Updates (strip P.uplo d (d + w) d w) (cellAddress P.ldc) P.canonical.target diagonal) :
    Updates (strip P.uplo lo hi d w) (cellAddress P.ldc) P.canonical.target (fun c => diagonal
      (rankDirect env rt site P.rankTwo P.mode P.herm (if P.uplo = .upper then lo else d + w) d
        (if P.uplo = .upper then d - lo else hi - (d + w)) w P.k P.alpha P.a P.lda P.b P.ldb P.beta P.ldc c)) := by
  have apart := strip_direct_apart P.uplo lo hi d w below
  have direct := rank_direct_updates P admissible env rt site (if P.uplo = .upper then lo else d + w) d
    (if P.uplo = .upper then d - lo else hi - (d + w)) w (by split <;> omega) (fun cell member => (apart cell member).1)
  have joined := strip_split P.uplo lo hi d w below above
  have whole := direct.then_apart updates (joined.symm ▸ strip_injective P admissible lo hi d w inside)
    (Set.disjoint_left.mpr (fun cell member => (apart cell member).2))
  exact whole.congr joined (fun _ _ _ => rfl)

theorem rank_diagonal_updates (P : RankProblem T) (admissible : P.Admissible) (env : Level3Env T) (rt : Runtime) (site : Site)
    (start size : Nat) (some : 0 < size) (inside : start + size ≤ P.n) :
    Updates (strip P.uplo start (start + size) start size) (cellAddress P.ldc) P.canonical.target
      (rankDiagonal env rt site P.rankTwo P.uplo P.mode P.herm start size P.k P.alpha P.a P.lda P.b P.ldb P.beta P.ldc) := by
  refine updates_guard _ (fun _ => ?_) (fun _ => ?_)
  · exact (rank_tile_updates P admissible env rt (0 :: site) start start size size some inside).congr
      (strip_tile P.uplo start size) (fun _ _ _ => rfl)
  · have leaf : 0 < min size 32 := by omega
    refine Updates.loop_by_class _ (fun cell => (cell.2 - start) / min size 32) _ _ (fun step reached => ?_)
      (fun cell member => ?_) (strip_injective P admissible _ _ _ _ inside)
    · rw [stride_count_iff start (start + size) (min size 32) step leaf] at reached
      have width : start + step * min size 32 + min (min size 32) (start + size - (start + step * min size 32)) ≤ start + size := by
        omega
      have tile := (rank_tile_updates P admissible env rt (0 :: site) (start + step * min size 32)
        (start + step * min size 32) (min (min size 32) (start + size - (start + step * min size 32)))
        (min (min size 32) (start + size - (start + step * min size 32))) (by omega) (by omega)).congr
        (strip_tile P.uplo _ _) (fun _ _ _ => rfl)
      refine ((rank_strip_updates P admissible env rt (1 :: site) start (start + size) (start + step * min size 32)
        (min (min size 32) (start + size - (start + step * min size 32))) (Nat.le_add_right _ _) width inside _ tile).congr ?_
        (fun _ _ _ => rfl)).congr_run (fun c => by cases P.uplo <;> rfl)
      ext cell
      have block := div_block (cell.2 - start) (min size 32) step leaf
      simp only [strip, Set.mem_ofPred_eq, block]
      constructor
      · rintro ⟨kept, rows, columns⟩
        exact ⟨⟨kept, rows, by omega⟩, by omega⟩
      · rintro ⟨⟨kept, rows, columns⟩, place⟩
        exact ⟨kept, rows, by omega⟩
    · rw [stride_count_iff start (start + size) (min size 32) _ leaf]
      have lower := member.2.2.1
      have upper := member.2.2.2
      have step := Nat.div_mul_le_self (cell.2 - start) (min size 32)
      omega

theorem rank_panels_updates (P : RankProblem T) (admissible : P.Admissible) (env : Level3Env T) (rt : Runtime) (site : Site)
    (bs : Nat) (some : 0 < bs) :
    Updates P.cells (cellAddress P.ldc) P.canonical.target
      (rankPanels env rt site P.rankTwo bs P.uplo P.mode P.n P.k P.alpha P.a P.lda P.b P.ldb P.beta P.ldc P.herm) := by
  refine Updates.loop_by_class _ (fun cell => cell.2 / bs) _ _ (fun block reached => ?_)
    (fun cell member => block_inside cell.2 P.n bs some member.1.2) (cells_injective P admissible)
  rw [stride_count_iff 0 P.n bs block some] at reached
  have width : 0 + block * bs + blockLength P.n bs (0 + block * bs) ≤ P.n := by simp only [blockLength]; omega
  have height : 0 < blockLength P.n bs (0 + block * bs) := by simp only [blockLength]; omega
  have diagonal := rank_diagonal_updates P admissible env rt ((0 + block * bs) :: 0 :: site) (0 + block * bs)
    (blockLength P.n bs (0 + block * bs)) height width
  have whole := rank_strip_updates P admissible env rt ((0 + block * bs) :: 1 :: site) 0 P.n (0 + block * bs)
    (blockLength P.n bs (0 + block * bs)) (Nat.zero_le _) width (Nat.le_refl _) _ diagonal
  refine (whole.congr ?_ (fun _ _ _ => rfl)).congr_run (fun c => ?_)
  · rw [Nat.zero_add]
    exact (strip_columns P.uplo P.n bs block some).symm
  · cases P.uplo <;> simp only [if_true, reduceCtorEq, if_false, Nat.sub_zero]

section Tiles

def rankTileList (uplo : Triangle) (n bs : Nat) : List (Nat × Nat) :=
  (List.range (strideCount 0 n bs)).flatMap (fun block =>
    let j0 := 0 + block * bs
    let rowStart := if uplo = .upper then 0 else j0
    let iEnd := if uplo = .upper then j0 + blockLength n bs j0 else n
    (List.range (strideCount rowStart iEnd bs)).map (fun step => (rowStart + step * bs, j0)))

theorem for_rank_tiles_list {σ : Type} (uplo : Triangle) (n bs : Nat) (body : Nat → Nat → σ → σ) (state : σ) :
    forRankTiles uplo n bs body state =
      (rankTileList uplo n bs).foldl (fun current tile => body tile.1 tile.2 current) state := by
  simp only [forRankTiles, strideLoop, rankTileList, List.foldl_flatMap, List.foldl_map, foldl_range]

theorem rank_tile_corner (uplo : Triangle) (n bs : Nat) (some : 0 < bs) (tile : Nat × Nat)
    (member : tile ∈ rankTileList uplo n bs) :
    ∃ r s, tile = (r * bs, s * bs) ∧ r * bs < n ∧ s * bs < n := by
  simp only [rankTileList, List.mem_flatMap, List.mem_range, List.mem_map] at member
  obtain ⟨s, columns, step, rows, rfl⟩ := member
  rw [stride_count_iff _ _ _ _ some] at columns rows
  cases uplo with
  | upper =>
    simp only [if_true, blockLength] at rows
    exact ⟨step, s, by simp only [if_true, Nat.zero_add], by omega, by omega⟩
  | lower =>
    simp only [reduceCtorEq, if_false] at rows
    refine ⟨s + step, s, ?_, ?_, by omega⟩
    · simp only [reduceCtorEq, if_false, Nat.zero_add, Nat.add_mul]
    · rw [Nat.add_mul]
      omega

theorem rank_tiles_distinct (uplo : Triangle) (n bs : Nat) (some : 0 < bs) : (rankTileList uplo n bs).Nodup := by
  refine List.nodup_flatMap.mpr ⟨fun block _ => ?_, ?_⟩
  · refine List.Nodup.map (fun first second same => ?_) List.nodup_range
    have rows := congrArg Prod.fst same
    simp only at rows
    exact Nat.eq_of_mul_eq_mul_right some (Nat.add_left_cancel rows)
  · refine List.Pairwise.imp_of_mem (fun {first second} _ _ different => ?_) (List.nodup_range (n := strideCount 0 n bs))
    intro tile left right
    simp only [List.mem_map] at left right
    obtain ⟨_, _, rfl⟩ := left
    obtain ⟨_, _, same⟩ := right
    have columns := congrArg Prod.snd same
    simp only [Nat.zero_add] at columns
    exact different (Nat.eq_of_mul_eq_mul_right some columns).symm

def tileOf (bs : Nat) (cell : Nat × Nat) : Nat × Nat := (cell.1 / bs * bs, cell.2 / bs * bs)

theorem tile_of_listed (uplo : Triangle) (n bs : Nat) (some : 0 < bs) (cell : Nat × Nat) (member : cell ∈ triangleCells uplo n) :
    tileOf bs cell ∈ rankTileList uplo n bs := by
  have kept := (stored_iff uplo cell.1 cell.2).mp member.2
  have inRows := member.1.1
  have rowStart := Nat.div_mul_le_self cell.1 bs
  have columnStart := Nat.div_mul_le_self cell.2 bs
  have columnNext := Nat.lt_div_mul_add some (a := cell.2)
  simp only [rankTileList, List.mem_flatMap, List.mem_range, List.mem_map]
  refine ⟨cell.2 / bs, block_inside cell.2 n bs some member.1.2, ?_⟩
  cases uplo with
  | upper =>
    simp only [true_and, reduceCtorEq, false_and, or_false] at kept
    have inColumns := member.1.2
    refine ⟨cell.1 / bs, ?_, ?_⟩
    · rw [stride_count_iff _ _ _ _ some]
      simp only [if_true, blockLength]
      omega
    · simp only [if_true, Nat.zero_add, tileOf]
  | lower =>
    simp only [true_and, reduceCtorEq, false_and, false_or] at kept
    have ordered : cell.2 / bs ≤ cell.1 / bs := Nat.div_le_div_right kept
    have gap : cell.2 / bs * bs + (cell.1 / bs - cell.2 / bs) * bs = cell.1 / bs * bs := by
      rw [← Nat.add_mul]
      congr 1
      omega
    refine ⟨cell.1 / bs - cell.2 / bs, ?_, ?_⟩
    · rw [stride_count_iff _ _ _ _ some]
      simp only [reduceCtorEq, if_false, Nat.zero_add]
      omega
    · simp only [reduceCtorEq, if_false, Nat.zero_add, tileOf, gap]

theorem tile_of_cells (uplo : Triangle) (n bs r s : Nat) (some : 0 < bs) :
    {cell | cell ∈ triangleCells uplo n ∧ tileOf bs cell = (r * bs, s * bs)} =
      {cell | cell ∈ tileCells (r * bs) (blockLength n bs (r * bs)) (s * bs) (blockLength n bs (s * bs)) ∧
        stored uplo cell.1 cell.2 = true} := by
  ext cell
  have rows := block_member cell.1 n bs r some
  have columns := block_member cell.2 n bs s some
  simp only [triangleCells, matrixCells, tileCells, tileOf, Set.mem_ofPred_eq, Prod.mk.injEq,
    Nat.mul_right_cancel_iff some]
  tauto

end Tiles

omit [CommRing T] [LawfulScalar T] in
theorem tile_list_updates (P : RankProblem T) (admissible : P.Admissible) (bs : Nat) (some : 0 < bs)
    (value : Nat × Nat → T → T) (run : Nat → Nat → Mem T → Mem T)
    (each : ∀ r s, r * bs < P.n → s * bs < P.n →
      Updates {cell | cell ∈ tileCells (r * bs) (blockLength P.n bs (r * bs)) (s * bs) (blockLength P.n bs (s * bs)) ∧
        stored P.uplo cell.1 cell.2 = true} (cellAddress P.ldc) value (run (r * bs) (s * bs))) :
    Updates P.cells (cellAddress P.ldc) value (forRankTiles P.uplo P.n bs run) := by
  have listed := Updates.by_listed_class value P.cells (tileOf bs) (rankTileList P.uplo P.n bs)
    (fun tile => run tile.1 tile.2) (rank_tiles_distinct P.uplo P.n bs some) (fun tile member => ?_)
    (tile_of_listed P.uplo P.n bs some) (cells_injective P admissible)
  · exact listed.congr_run (for_rank_tiles_list P.uplo P.n bs run)
  · obtain ⟨r, s, rfl, inRows, inColumns⟩ := rank_tile_corner P.uplo P.n bs some tile member
    exact (each r s inRows inColumns).congr (tile_of_cells P.uplo P.n bs r s some).symm (fun _ _ _ => rfl)

theorem rank_tiles_updates (P : RankProblem T) (admissible : P.Admissible) (env : Level3Env T) (rt : Runtime) (site : Site)
    (bs : Nat) (some : 0 < bs) :
    Updates P.cells (cellAddress P.ldc) P.canonical.target
      (rankTiles env rt site P.rankTwo bs P.uplo P.mode P.n P.k P.alpha P.a P.lda P.b P.ldb P.beta P.ldc P.herm) :=
  tile_list_updates P admissible bs some P.canonical.target _ (fun r s inRows _ =>
    rank_tile_updates P admissible env rt site (r * bs) (s * bs) _ _ (by simp only [blockLength]; omega)
      (by simp only [blockLength]; omega))

theorem packed_rank_product_updates (gemm : GemmRoutine T) (scratch : Site → Mem T) (rt : Runtime) (site : Site)
    (mode : TransposeMode) (herm : Bool) (row col rows cols k : Nat) (alpha : T) (a : Mem T) (lda : Int) (b : Mem T) (ldb : Int)
    (accumulate : Bool) (some : 0 < rows) (depth : 0 < k) :
    Updates (matrixCells rows cols) (cellAddress rows)
      (gemmValue alpha (fun i p => opEntry (canonicalMode herm mode) (denseEntry a lda) (row + i) p)
        (fun p j => conjugateIf (opEntry (canonicalMode herm mode) (denseEntry b ldb) (col + j) p) herm) k
        (if accumulate then 1 else 0))
      (packedRankProduct gemm scratch rt site mode herm row col rows cols k alpha a lda b ldb accumulate) := by
  have each : ∀ step, step < strideCount 0 k 64 → Updates (matrixCells rows cols) (cellAddress rows)
      (gemmValue alpha (fun i p => opEntry (canonicalMode herm mode) (denseEntry a lda) (row + i) (step * 64 + p))
        (fun p j => conjugateIf (opEntry (canonicalMode herm mode) (denseEntry b ldb) (col + j) (step * 64 + p)) herm)
        (blockLength k 64 (step * 64)) (if step = 0 then (if accumulate then 1 else 0) else 1))
      (fun output => gemm.run rt (step * 64 :: site) .noTrans .noTrans rows cols (blockLength k 64 (step * 64)) alpha
        (packGeneralOpBlock (if mode = .noTrans then .noTrans else if herm then .conjTrans else .trans) a lda row (step * 64)
          rows (blockLength k 64 (step * 64)) (scratch (0 :: step * 64 :: site))) rows
        (packGeneralOpBlock (if mode = .noTrans then (if herm then .conjTrans else .trans) else .noTrans) b ldb (step * 64) col
          (blockLength k 64 (step * 64)) cols (scratch (1 :: step * 64 :: site))) (blockLength k 64 (step * 64))
        (if accumulate ∨ step * 64 ≠ 0 then 1 else 0) output rows) := by
    intro step reached
    rw [stride_count_iff 0 k 64 step (by decide)] at reached
    have first : (if accumulate = true ∨ step * 64 ≠ 0 then (1 : T) else 0) =
        if step = 0 then (if accumulate then 1 else 0) else 1 := by
      by_cases start : step = 0
      · simp only [start, Nat.zero_mul, ne_eq, not_true_eq_false, or_false, if_true]
      · rw [if_pos (Or.inr (by omega)), if_neg start]
    rw [first]
    refine gemm.product_updates rt (step * 64 :: site) .noTrans .noTrans rows cols (blockLength k 64 (step * 64)) alpha _ rows _
      (blockLength k 64 (step * 64)) _ rows (by omega) (by simp only [blockLength]; omega) (by omega) (Int.le_refl _) _ _
      (fun i p inRows inDepth => ?_) (fun p j inDepth inColumns => ?_)
    · exact pack_general_op_block_entry _ a lda row (step * 64) rows _ _ i p inRows inDepth
    · refine (pack_general_op_block_entry _ b ldb (step * 64) col _ cols _ p j inDepth inColumns).trans ?_
      cases mode <;> cases herm <;>
        simp only [canonicalMode, reduceCtorEq, if_true, if_false, Bool.false_eq_true, opEntry, denseEntry, conjugateIf,
          LawfulScalar.conj_conj]
  refine ((Updates.repeat _ _ _ each).congr rfl (fun cell old _ => ?_)).congr_run (fun output => ?_)
  · exact gemm_value_blocks alpha (fun i p => opEntry (canonicalMode herm mode) (denseEntry a lda) (row + i) p)
      (fun p j => conjugateIf (opEntry (canonicalMode herm mode) (denseEntry b ldb) (col + j) p) herm) k 64 _ cell old
      (by decide) depth
  · simp only [packedRankProduct, strideLoop, Nat.zero_add]

theorem packed_rank_tile_updates (P : RankProblem T) (admissible : P.Admissible) (env : Level3Env T) (rt : Runtime)
    (site : Site) (depth : 0 < P.k) (row col : Nat) (inRows : row < P.n) :
    Updates {cell | cell ∈ tileCells row (blockLength P.n 64 row) col (blockLength P.n 64 col) ∧
      stored P.uplo cell.1 cell.2 = true} (cellAddress P.ldc) P.canonical.target
      (packedRankTile env rt site P.rankTwo P.uplo P.mode P.n P.k P.alpha P.a P.lda P.b P.ldb P.beta P.ldc P.herm row col) := by
  have some : 0 < blockLength P.n 64 row := by simp only [blockLength]; omega
  refine commit_rank_tile_updates P.canonical admissible.canonical _ row col _ _ (by
    change row + blockLength P.n 64 row ≤ P.n
    simp only [blockLength]
    omega) (fun i j inside column => ?_)
  have first := packed_rank_product_updates env.gemm env.scratch rt (0 :: row :: col :: site) P.mode P.herm row col
    (blockLength P.n 64 row) (blockLength P.n 64 col) P.k P.alpha P.a P.lda P.b P.ldb false some depth
  cases kind : P.rankTwo with
  | false =>
    have product := first.written (env.scratch (row :: col :: site)) (i, j) ⟨inside, column⟩
    rw [cellAddress, mat_index_natural] at product
    refine product.trans ?_
    simp only [RankProblem.update, RankProblem.canonical, kind, gemmValue, Bool.false_eq_true, if_false, zero_mul]
    rfl
  | true =>
    have second := packed_rank_product_updates env.gemm env.scratch rt (1 :: row :: col :: site) P.mode P.herm row col
      (blockLength P.n 64 row) (blockLength P.n 64 col) P.k (conjugateIf P.alpha P.herm) P.b P.ldb P.a P.lda true some depth
    have product := (first.then_same second).written (env.scratch (row :: col :: site)) (i, j) ⟨inside, column⟩
    rw [cellAddress, mat_index_natural] at product
    refine product.trans ?_
    simp only [RankProblem.update, RankProblem.canonical, kind, gemmValue, Bool.false_eq_true, if_false, if_true,
      zero_mul, add_zero, one_mul, RankProblem.left, RankProblem.right]
    exact add_comm _ _

-- A worker numbers tiles of whole blocks apart from those at the edges.
def tileOrdinal (bs majorBlocks : Nat) (tile : Nat × Nat) (count : Nat × Nat) : Nat :=
  if tile.1 / bs < majorBlocks ∧ tile.2 / bs < majorBlocks then count.1 else count.2

def countTile (bs majorBlocks : Nat) (tile : Nat × Nat) (count : Nat × Nat) : Nat × Nat :=
  if tile.1 / bs < majorBlocks ∧ tile.2 / bs < majorBlocks then (count.1 + 1, count.2) else (count.1, count.2 + 1)

def packedRankOrdinal (uplo : Triangle) (n bs majorBlocks majorTiles : Nat) : Nat × Nat → Nat :=
  ordinalOf (tileOrdinal bs majorBlocks) (countTile bs majorBlocks) (rankTileList uplo n bs) (0, majorTiles)

theorem packed_rank_worker_updates (P : RankProblem T) (admissible : P.Admissible) (env : Level3Env T) (rt : Runtime)
    (site : Site) (depth : 0 < P.k) (workers majorBlocks majorTiles : Nat) (some : 0 < workers) (order : List Nat)
    (complete : order.Perm (List.range workers)) :
    Updates P.cells (cellAddress P.ldc) P.canonical.target (fun c => order.foldl (fun current worker =>
      packedRankWorker env rt site P.rankTwo P.uplo P.mode P.n P.k P.alpha P.a P.lda P.b P.ldb P.beta P.ldc P.herm workers
        majorBlocks majorTiles worker current) c) := by
  have injective := cells_injective P admissible
  refine Updates.by_class P.cells (fun cell => packedRankOrdinal P.uplo P.n 64 majorBlocks majorTiles (tileOf 64 cell) % workers)
    workers order _ complete (fun worker _ => ?_) (fun _ _ => Nat.mod_lt _ some) injective
  have mine := Updates.by_listed_class P.canonical.target
    {cell | cell ∈ P.cells ∧ packedRankOrdinal P.uplo P.n 64 majorBlocks majorTiles (tileOf 64 cell) % workers = worker}
    (tileOf 64) (rankTileList P.uplo P.n 64)
    (fun tile c => if packedRankOrdinal P.uplo P.n 64 majorBlocks majorTiles tile % workers = worker then
      packedRankTile env rt (worker :: site) P.rankTwo P.uplo P.mode P.n P.k P.alpha P.a P.lda P.b P.ldb P.beta P.ldc P.herm
        tile.1 tile.2 c else c)
    (rank_tiles_distinct P.uplo P.n 64 (by decide)) (fun tile member => ?_)
    (fun cell member => tile_of_listed P.uplo P.n 64 (by decide) cell member.1)
    (injective.mono (fun _ member => member.1))
  · refine mine.congr_run (fun c => ?_)
    rw [packedRankWorker, for_rank_tiles_list]
    exact foldl_owner (tileOrdinal 64 majorBlocks) (countTile 64 majorBlocks) _
      (rank_tiles_distinct P.uplo P.n 64 (by decide)) (0, majorTiles)
      (fun tile c => packedRankTile env rt (worker :: site) P.rankTwo P.uplo P.mode P.n P.k P.alpha P.a P.lda P.b P.ldb P.beta
        P.ldc P.herm tile.1 tile.2 c) workers worker c
  · obtain ⟨r, s, rfl, inRows, _⟩ := rank_tile_corner P.uplo P.n 64 (by decide) tile member
    refine updates_guard _ (fun here => ?_) (fun elsewhere => ?_)
    · refine (packed_rank_tile_updates P admissible env rt (worker :: site) depth (r * 64) (s * 64) inRows).congr ?_
        (fun _ _ _ => rfl)
      rw [← tile_of_cells P.uplo P.n 64 r s (by decide)]
      ext cell
      simp only [Set.mem_ofPred_eq]
      constructor
      · rintro ⟨inside, place⟩
        exact ⟨⟨inside, by rw [place]; exact here⟩, place⟩
      · rintro ⟨⟨inside, _⟩, place⟩
        exact ⟨inside, place⟩
    · refine (updates_nothing _ _).congr ?_ (fun _ _ _ => rfl)
      ext cell
      simp only [Set.mem_empty_iff_false, Set.mem_ofPred_eq, false_iff]
      rintro ⟨⟨_, ours⟩, place⟩
      rw [place] at ours
      exact elsewhere ours

omit [CommRing T] [Scalar T] [LawfulScalar T] in
theorem tile_blocks_ordered (n bs bi bj : Nat) (before : bi < bj) (cell : Nat × Nat)
    (member : cell ∈ tileCells (bi * bs) (blockLength n bs (bi * bs)) (bj * bs) (blockLength n bs (bj * bs))) :
    cell.1 < cell.2 := by
  have next : bi * bs + bs ≤ bj * bs := by
    rw [← Nat.succ_mul]
    exact Nat.mul_le_mul_right bs before
  simp only [tileCells, blockLength, Set.mem_ofPred_eq] at member
  omega

omit [CommRing T] [Scalar T] [LawfulScalar T] in
theorem tile_blocks_reversed (n bs bi bj : Nat) (after : bj < bi) (cell : Nat × Nat)
    (member : cell ∈ tileCells (bi * bs) (blockLength n bs (bi * bs)) (bj * bs) (blockLength n bs (bj * bs))) :
    cell.2 < cell.1 := by
  have next : bj * bs + bs ≤ bi * bs := by
    rw [← Nat.succ_mul]
    exact Nat.mul_le_mul_right bs after
  simp only [tileCells, blockLength, Set.mem_ofPred_eq] at member
  omega

theorem queued_rank_task_updates (P : RankProblem T) (admissible : P.Admissible) (env : Level3Env T) (rt : Runtime)
    (site : Site) (bs index : Nat) (some : 0 < bs) (small : index < blockCount P.n bs * blockCount P.n bs) :
    Updates {cell | cell ∈ P.cells ∧ cell.1 / bs + blockCount P.n bs * (cell.2 / bs) = index} (cellAddress P.ldc)
      P.canonical.target (queuedRankTask env rt site P.rankTwo bs (blockCount P.n bs) P.uplo P.mode P.n P.k P.alpha P.a P.lda
        P.b P.ldb P.beta P.ldc P.herm index) := by
  have bound := admissible.bound
  have someBlocks : 0 < blockCount P.n bs := Nat.pos_of_ne_zero (fun none => by
    rw [none, Nat.zero_mul] at small
    exact absurd small (Nat.not_lt_zero index))
  have rowSmall : index % blockCount P.n bs * bs < P.n := by
    have inside := (stride_count_iff 0 P.n bs (index % blockCount P.n bs) some).mp (Nat.mod_lt index someBlocks)
    omega
  have cells : {cell | cell ∈ P.cells ∧ cell.1 / bs + blockCount P.n bs * (cell.2 / bs) = index} =
      {cell | cell ∈ tileCells (index % blockCount P.n bs * bs) (blockLength P.n bs (index % blockCount P.n bs * bs))
        (index / blockCount P.n bs * bs) (blockLength P.n bs (index / blockCount P.n bs * bs)) ∧
        stored P.uplo cell.1 cell.2 = true} := by
    rw [← tile_of_cells P.uplo P.n bs (index % blockCount P.n bs) (index / blockCount P.n bs) some]
    ext cell
    simp only [Set.mem_ofPred_eq, tileOf, Prod.mk.injEq, Nat.mul_right_cancel_iff some]
    exact and_congr_right (fun member => grid_class (blockCount P.n bs) index _ _ (block_inside cell.1 P.n bs some member.1.1))
  rw [cells]
  refine updates_guard _ (fun excluded => ?_) (fun included => updates_guard _ (fun diagonal => ?_) (fun apart => ?_))
  · refine (updates_nothing _ _).congr ?_ (fun _ _ _ => rfl)
    ext cell
    simp only [Set.mem_empty_iff_false, Set.mem_ofPred_eq, false_iff, stored_iff]
    rintro ⟨member, inside⟩
    cases kind : P.uplo with
    | upper =>
      simp only [kind, if_true] at excluded
      simp only [kind, true_and, reduceCtorEq, false_and, or_false] at inside
      exact absurd (tile_blocks_reversed P.n bs _ _ excluded cell member) (Nat.not_lt.mpr inside)
    | lower =>
      simp only [kind, reduceCtorEq, if_false] at excluded
      simp only [kind, true_and, reduceCtorEq, false_and, false_or] at inside
      exact absurd (tile_blocks_ordered P.n bs _ _ excluded cell member) (Nat.not_lt.mpr inside)
  · exact rank_tile_updates P admissible env rt (0 :: site) _ _ _ _ (by simp only [blockLength]; omega)
      (by simp only [blockLength]; omega)
  · have off : ∀ cell, cell ∈ tileCells (index % blockCount P.n bs * bs)
        (blockLength P.n bs (index % blockCount P.n bs * bs)) (index / blockCount P.n bs * bs)
        (blockLength P.n bs (index / blockCount P.n bs * bs)) → stored P.uplo cell.1 cell.2 = true ∧ cell.1 ≠ cell.2 := by
      intro cell member
      rw [stored_iff]
      cases kind : P.uplo with
      | upper =>
        simp only [kind, if_true] at included
        have below := tile_blocks_ordered P.n bs _ _ (by omega) cell member
        exact ⟨Or.inl ⟨rfl, below.le⟩, below.ne⟩
      | lower =>
        simp only [kind, reduceCtorEq, if_false] at included
        have above := tile_blocks_reversed P.n bs _ _ (by omega) cell member
        exact ⟨Or.inr ⟨rfl, above.le⟩, above.ne'⟩
    have product := rank_products_updates P admissible env.gemm rt (1 :: index :: site) (index % blockCount P.n bs * bs)
      (index / blockCount P.n bs * bs) (blockLength P.n bs (index % blockCount P.n bs * bs))
      (blockLength P.n bs (index / blockCount P.n bs * bs)) P.beta P.ldc admissible.stepc
      (by simp only [blockLength]; omega)
    refine (tile_updates product _ _ (fun cell old => P.canonical.update cell.1 cell.2 + P.beta * old)
      (fun _ _ _ _ _ => rfl)).congr ?_ (fun cell old member =>
        (target_off_diagonal P.canonical cell old (off cell member).2).symm)
    ext cell
    simp only [Set.mem_ofPred_eq]
    exact ⟨fun member => ⟨member, (off cell member).1⟩, fun member => member.1⟩

theorem try_queued_rank_attempts (P : RankProblem T) (admissible : P.Admissible) (env : Level3Env T) (rt : Runtime)
    (site : Site) (options : Options) :
    Attempts P.cells (cellAddress P.ldc) P.canonical.target (fun c => tryQueuedRank env rt site P.rankTwo options P.uplo P.mode
      P.n P.k P.alpha P.a P.lda P.b P.ldb P.beta c P.ldc P.herm) := by
  refine attempts_guard _ (fun _ => attempts_decline _ _ _) (fun _ => ?_)
  refine attempts_guard _ (fun _ => attempts_decline _ _ _) (fun _ => ?_)
  refine attempts_guard _ (fun _ => attempts_decline _ _ _) (fun _ => ?_)
  refine attempts_guard _ (fun _ => attempts_decline _ _ _) (fun _ => ?_)
  have some : 0 < if P.n < 384 then 32 else 64 := by split <;> decide
  refine attempts_answered (fun before after accepted => ?_)
  obtain ⟨order, complete, rfl⟩ := run_tasks_accepted accepted
  exact (Updates.by_class P.cells (fun cell => cell.1 / _ + blockCount P.n _ * (cell.2 / _)) _ order _ complete
    (fun index small => queued_rank_task_updates P admissible env rt (3 :: site) _ index some small)
    (fun cell member => grid_class_inside _ _ _ _ (block_inside cell.1 P.n _ some member.1.1)
      (block_inside cell.2 P.n _ some member.1.2)) (cells_injective P admissible)).wrote before

theorem try_packed_rank_attempts (P : RankProblem T) (admissible : P.Admissible) (env : Level3Env T) (rt : Runtime)
    (site : Site) (options : Options) (depth : 0 < P.k) :
    Attempts P.cells (cellAddress P.ldc) P.canonical.target (fun c => tryPackedRank env rt site P.rankTwo options P.uplo P.mode
      P.n P.k P.alpha P.a P.lda P.b P.ldb P.beta c P.ldc P.herm) := by
  refine attempts_guard _ (fun _ => attempts_decline _ _ _) (fun _ => ?_)
  refine attempts_guard _ (fun _ => attempts_decline _ _ _) (fun _ => ?_)
  exact (tile_list_updates P admissible 64 (by decide) P.canonical.target _ (fun r s inRows _ =>
    packed_rank_tile_updates P admissible env rt (1 :: site) depth (r * 64) (s * 64) inRows)).attempts

theorem try_parallel_packed_rank_attempts (P : RankProblem T) (admissible : P.Admissible) (env : Level3Env T) (rt : Runtime)
    (site : Site) (options : Options) :
    Attempts P.cells (cellAddress P.ldc) P.canonical.target (fun c => tryParallelPackedRank env rt site P.rankTwo options
      P.uplo P.mode P.n P.k P.alpha P.a P.lda P.b P.ldb P.beta c P.ldc P.herm) := by
  refine attempts_guard _ (fun _ => attempts_decline _ _ _) (fun _ => ?_)
  refine attempts_guard _ (fun _ => attempts_decline _ _ _) (fun active => ?_)
  refine attempts_guard _ (fun _ => attempts_decline _ _ _) (fun _ => ?_)
  refine attempts_guard _ (fun _ => attempts_decline _ _ _) (fun several => ?_)
  refine attempts_guard _ (fun _ => attempts_decline _ _ _) (fun _ => ?_)
  refine attempts_answered (fun before after accepted => ?_)
  obtain ⟨order, complete, rfl⟩ := run_tasks_accepted accepted
  exact (packed_rank_worker_updates P admissible env rt (3 :: site) (by omega) _ _ _ (by omega) order complete).wrote before

end Zynum
