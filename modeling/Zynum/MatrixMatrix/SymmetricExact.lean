import Zynum.MatrixMatrix.Symmetric

set_option autoImplicit false

/- Every route of SYMM and HEMM writes alpha S B + beta C, or alpha B S + beta C,
   for the completion S of the stored triangle. -/
namespace Zynum

open ArrayProgram

variable {T : Type} [CommRing T] [Scalar T]

def symmTarget (side : OperandSide) (uplo : Triangle) (m n : Nat) (alpha : T) (a : Mem T) (lda : Int) (b : Mem T) (ldb : Int)
    (beta : T) (herm : Bool) (cell : Nat × Nat) (old : T) : T :=
  match side with
  | .left => gemmValue alpha (completion herm uplo (denseEntry a lda)) (denseEntry b ldb) m beta cell old
  | .right => gemmValue alpha (denseEntry b ldb) (completion herm uplo (denseEntry a lda)) n beta cell old

variable [LawfulScalar T]

theorem optional_scale (beta old : T) : (if isZero beta then 0 else beta * old) = beta * old := by
  split
  · rename_i nothing
    rw [(LawfulScalar.isZero_iff beta).mp nothing, zero_mul]
  · rfl

theorem scale_general_updates (m n : Nat) (beta : T) (ldc : Int) (bound : m ≤ toUsize ldc) :
    Updates (matrixCells m n) (cellAddress ldc) (fun _ old => beta * old) (fun c => scaleGeneral m n beta c ldc) := by
  refine updates_guard (isOne beta = true) (fun one => ?_) (fun _ => scale_matrix_updates m n beta ldc bound)
  exact (updates_same _ _).congr rfl (fun _ old _ => by rw [(LawfulScalar.isOne_iff beta).mp one, one_mul])

omit [LawfulScalar T] in
theorem symm_target_idle (side : OperandSide) (uplo : Triangle) (m n : Nat) (a : Mem T) (lda : Int) (b : Mem T) (ldb : Int)
    (beta : T) (herm : Bool) (cell : Nat × Nat) (old : T) :
    symmTarget side uplo m n 0 a lda b ldb beta herm cell old = beta * old := by
  cases side <;> exact gemm_value_empty _ _ _ _ _ _ _ (Or.inr rfl)

theorem symm_column_updates (side : OperandSide) (uplo : Triangle) (m n : Nat) (alpha : T) (a : Mem T) (lda : Int) (b : Mem T)
    (ldb : Int) (beta : T) (ldc : Int) (herm : Bool) (bound : m ≤ toUsize ldc) (j : Nat) (inside : j < n) :
    Updates {cell | cell ∈ matrixCells m n ∧ cell.2 = j} (cellAddress ldc)
      (symmTarget side uplo m n alpha a lda b ldb beta herm)
      (loop m (fun i c =>
        let sum := match side with
          | .left => loop m (fun p sum => sum + symValue uplo a lda i p herm * b (matIndex ldb p j)) 0
          | .right => loop n (fun p sum => sum + b (matIndex ldb i p) * symValue uplo a lda p j herm) 0
        let idxc := matIndex ldc i j
        Function.update c idxc (alpha * sum + if isZero beta then 0 else beta * c idxc))) := by
  have injective : Set.InjOn (cellAddress ldc) {cell | cell.1 < m ∧ cell.2 = j} :=
    (cell_address_injective ldc m bound).mono (fun _ member => member.1)
  have stored := updates_column m j (cellAddress ldc) (fun cell old =>
    alpha * (match side with
      | .left => loop m (fun p sum => sum + symValue uplo a lda cell.1 p herm * b (matIndex ldb p cell.2)) 0
      | .right => loop n (fun p sum => sum + b (matIndex ldb cell.1 p) * symValue uplo a lda p cell.2 herm) 0) +
      if isZero beta then 0 else beta * old) injective
  refine stored.congr ?_ (fun cell old _ => ?_)
  · ext cell
    simp only [matrixCells, Set.mem_ofPred_eq]
    constructor
    · rintro ⟨inRows, same⟩
      exact ⟨⟨inRows, same ▸ inside⟩, same⟩
    · rintro ⟨⟨inRows, _⟩, same⟩
      exact ⟨inRows, same⟩
  · rw [optional_scale]
    cases side <;>
      simp only [loop_accumulate, zero_add, symmTarget, gemmValue, sym_value_completion, denseEntry]

theorem symm_columns_any_order (side : OperandSide) (uplo : Triangle) (m n : Nat) (alpha : T) (a : Mem T) (lda : Int)
    (b : Mem T) (ldb : Int) (beta : T) (ldc : Int) (herm : Bool) (bound : m ≤ toUsize ldc) (taskCount : Nat)
    (some : 0 < taskCount) (order : List Nat) (complete : order.Perm (List.range taskCount)) :
    Updates (matrixCells m n) (cellAddress ldc) (symmTarget side uplo m n alpha a lda b ldb beta herm)
      (fun c => order.foldl (fun current taskIndex =>
        runSymmColumns side uplo m n alpha a lda b ldb beta ldc herm taskIndex taskCount current) c) :=
  Updates.strided_tasks (matrixCells m n) Prod.snd n taskCount order _ some complete
    (symm_column_updates side uplo m n alpha a lda b ldb beta ldc herm bound) (fun _ member => member.2)
    (matrix_cells_injective m n ldc bound)

theorem symm_column_route_updates (rt : Runtime) (site : Site) (side : OperandSide) (uplo : Triangle) (m n : Nat) (alpha : T)
    (a : Mem T) (lda : Int) (b : Mem T) (ldb : Int) (beta : T) (ldc : Int) (herm : Bool) (bound : m ≤ toUsize ldc) :
    Updates (matrixCells m n) (cellAddress ldc) (symmTarget side uplo m n alpha a lda b ldb beta herm)
      (fun c => symmColumnRoute rt site side uplo m n alpha a lda b ldb beta c ldc herm) := by
  have serial : Updates (matrixCells m n) (cellAddress ldc) (symmTarget side uplo m n alpha a lda b ldb beta herm)
      (runSymmColumns side uplo m n alpha a lda b ldb beta ldc herm 0 1) :=
    symm_columns_any_order side uplo m n alpha a lda b ldb beta ldc herm bound 1 Nat.zero_lt_one [0] (List.Perm.refl _)
  refine updates_guard _ (fun several => ?_) (fun _ => serial)
  refine attempt_updates _ (fun before after accepted => ?_) serial
  obtain ⟨order, complete, rfl⟩ := run_tasks_accepted accepted
  exact (symm_columns_any_order side uplo m n alpha a lda b ldb beta ldc herm bound _ (Nat.zero_lt_of_lt several) order
    complete).wrote before

omit [LawfulScalar T] in
theorem symm_left_panels_updates (env : Level3Env T) (rt : Runtime) (site : Site) (bs : Nat) (uplo : Triangle) (m n : Nat)
    (alpha : T) (a : Mem T) (lda : Int) (b : Mem T) (ldb : Int) (beta : T) (ldc : Int) (hermitian : Bool) (some : 0 < bs)
    (rows : 0 < m) (stepb : 0 < ldb) (bound : (m : Int) ≤ ldc) :
    Updates (matrixCells m n) (cellAddress ldc) (symmTarget .left uplo m n alpha a lda b ldb beta hermitian)
      (symmLeftPanels env rt site bs uplo m n alpha a lda b ldb beta ldc hermitian) := by
  have stepc : 0 < ldc := by omega
  refine Updates.loop_by_class _ (fun cell => cell.1 / bs) _ _ (fun block inside => ?_)
    (fun cell member => block_inside cell.1 m bs some member.1)
    (matrix_cells_injective m n ldc (by simp only [toUsize]; omega))
  rw [stride_count_iff 0 m bs block some] at inside
  rw [row_block_cells m n bs block some, Nat.zero_add]
  have each : ∀ step, step < strideCount 0 m bs →
      Updates (tileCells (block * bs) (blockLength m bs (block * bs)) 0 n) (cellAddress ldc)
        (gemmValue alpha (fun i p => completion hermitian uplo (denseEntry a lda) i (step * bs + p))
          (fun p j => denseEntry b ldb (step * bs + p) j) (blockLength m bs (step * bs)) (if step = 0 then beta else 1))
        (onTail (block * bs) (fun c => env.gemm.run rt (block * bs :: step * bs :: site) .noTrans .noTrans
          (blockLength m bs (block * bs)) n (blockLength m bs (step * bs)) alpha
          (packSymmetricBlock uplo hermitian a lda (block * bs) (step * bs) (blockLength m bs (block * bs))
            (blockLength m bs (step * bs)) (env.scratch (block * bs :: step * bs :: site)))
          (blockLength m bs (block * bs)) (view b (step * bs)) ldb (if step * bs = 0 then beta else 1) c ldc)) := by
    intro step _
    have first : (if step * bs = 0 then beta else 1) = if step = 0 then beta else (1 : T) := by
      simp only [Nat.mul_eq_zero, some.ne', or_false]
    rw [first]
    have height : 0 < blockLength m bs (block * bs) := by simp only [blockLength]; omega
    have tile := env.gemm.tile_updates rt (block * bs :: step * bs :: site) .noTrans .noTrans (blockLength m bs (block * bs)) n
      (blockLength m bs (step * bs)) alpha
      (packSymmetricBlock uplo hermitian a lda (block * bs) (step * bs) (blockLength m bs (block * bs))
        (blockLength m bs (step * bs)) (env.scratch (block * bs :: step * bs :: site)))
      (blockLength m bs (block * bs)) (view b (step * bs)) ldb (if step = 0 then beta else 1) ldc (block * bs) 0
      (by omega) stepb stepc (by simp only [blockLength]; omega)
      (fun i p => completion hermitian uplo (denseEntry a lda) i (step * bs + p))
      (fun p j => denseEntry b ldb (step * bs + p) j)
      (fun i p inRows inDepth => (pack_symmetric_block_entry uplo hermitian a lda _ _ _ _ _ i p inRows inDepth).trans
        (sym_value_completion _ _ _ _ _ _))
      (fun p j _ _ => by
        simp only [opEntry, denseEntry, view_apply, matIndex, Nat.zero_add]
        congr 1
        omega)
    rwa [mat_index_first_column] at tile
  have repeated := Updates.repeat _ _ _ each
  refine (repeated.congr rfl (fun cell old _ => ?_)).congr_run (fun c => ?_)
  · exact gemm_value_blocks alpha (completion hermitian uplo (denseEntry a lda)) (denseEntry b ldb) m bs beta cell old some rows
  · simp only [strideLoop, Nat.zero_add]

omit [LawfulScalar T] in
theorem symm_right_panels_updates (env : Level3Env T) (rt : Runtime) (site : Site) (bs : Nat) (uplo : Triangle) (m n : Nat)
    (alpha : T) (a : Mem T) (lda : Int) (b : Mem T) (ldb : Int) (beta : T) (ldc : Int) (hermitian : Bool) (some : 0 < bs)
    (columns : 0 < n) (stepb : 0 < ldb) (stepc : 0 < ldc) (bound : (m : Int) ≤ ldc) :
    Updates (matrixCells m n) (cellAddress ldc) (symmTarget .right uplo m n alpha a lda b ldb beta hermitian)
      (symmRightPanels env rt site bs uplo m n alpha a lda b ldb beta ldc hermitian) := by
  refine Updates.loop_by_class _ (fun cell => cell.2 / bs) _ _ (fun block inside => ?_)
    (fun cell member => block_inside cell.2 n bs some member.2)
    (matrix_cells_injective m n ldc (by simp only [toUsize]; omega))
  rw [stride_count_iff 0 n bs block some] at inside
  rw [column_block_cells m n bs block some, Nat.zero_add]
  have each : ∀ step, step < strideCount 0 n bs →
      Updates (tileCells 0 m (block * bs) (blockLength n bs (block * bs))) (cellAddress ldc)
        (gemmValue alpha (fun i p => denseEntry b ldb i (step * bs + p))
          (fun p j => completion hermitian uplo (denseEntry a lda) (step * bs + p) j) (blockLength n bs (step * bs))
          (if step = 0 then beta else 1))
        (onTail (matIndex ldc 0 (block * bs)) (fun c => env.gemm.run rt (block * bs :: step * bs :: site) .noTrans .noTrans m
          (blockLength n bs (block * bs)) (blockLength n bs (step * bs)) alpha (view b (matIndex ldb 0 (step * bs))) ldb
          (packSymmetricBlock uplo hermitian a lda (step * bs) (block * bs) (blockLength n bs (step * bs))
            (blockLength n bs (block * bs)) (env.scratch (block * bs :: step * bs :: site)))
          (blockLength n bs (step * bs)) (if step * bs = 0 then beta else 1) c ldc)) := by
    intro step reached
    rw [stride_count_iff 0 n bs step some] at reached
    have first : (if step * bs = 0 then beta else 1) = if step = 0 then beta else (1 : T) := by
      simp only [Nat.mul_eq_zero, some.ne', or_false]
    rw [first]
    have depth : 0 < blockLength n bs (step * bs) := by simp only [blockLength]; omega
    exact env.gemm.tile_updates rt (block * bs :: step * bs :: site) .noTrans .noTrans m (blockLength n bs (block * bs))
      (blockLength n bs (step * bs)) alpha (view b (matIndex ldb 0 (step * bs))) ldb
      (packSymmetricBlock uplo hermitian a lda (step * bs) (block * bs) (blockLength n bs (step * bs))
        (blockLength n bs (block * bs)) (env.scratch (block * bs :: step * bs :: site)))
      (blockLength n bs (step * bs)) (if step = 0 then beta else 1) ldc 0 (block * bs) stepb (by omega) stepc bound
      (fun i p => denseEntry b ldb i (step * bs + p))
      (fun p j => completion hermitian uplo (denseEntry a lda) (step * bs + p) j)
      (fun i p _ _ => by
        simp only [opEntry, denseEntry, view_apply, mat_index_offset])
      (fun p j inDepth inColumns => (pack_symmetric_block_entry uplo hermitian a lda _ _ _ _ _ p j inDepth inColumns).trans
        (sym_value_completion _ _ _ _ _ _))
  have repeated := Updates.repeat _ _ _ each
  refine (repeated.congr rfl (fun cell old _ => ?_)).congr_run (fun c => ?_)
  · exact gemm_value_blocks alpha (denseEntry b ldb) (completion hermitian uplo (denseEntry a lda)) n bs beta cell old some
      columns
  · simp only [strideLoop, Nat.zero_add]

omit [LawfulScalar T] in
theorem full_symm_workspace_entry (env : Level3Env T) (rt : Runtime) (site : Site) (uplo : Triangle) (order : Nat) (a : Mem T)
    (lda : Int) (hermitian : Bool) (i j : Nat) (inRows : i < order) (inColumns : j < order) :
    fullSymmWorkspace env rt site uplo order a lda hermitian (matIndex order i j) =
      completion hermitian uplo (denseEntry a lda) i j := by
  let execute := fun index (output : Mem T) =>
    onTail (index * 32 * order) (packSymmetricBlock uplo hermitian a lda 0 (index * 32) order (min 32 (order - index * 32)))
      output
  have injective := matrix_cells_injective order order (order : Int) (by rw [toUsize, Int.toNat_natCast])
  have each : ∀ index, index < blockCount order 32 → Updates {cell | cell ∈ matrixCells order order ∧ cell.2 / 32 = index}
      (cellAddress order) (fun cell _ => completion hermitian uplo (denseEntry a lda) cell.1 cell.2) (execute index) := by
    intro index _
    rw [column_block_cells order order 32 index (by decide)]
    have packed := tile_updates (pack_symmetric_block_updates uplo hermitian a lda 0 (index * 32) order
      (blockLength order 32 (index * 32))) 0 (index * 32)
      (fun cell _ => completion hermitian uplo (denseEntry a lda) cell.1 cell.2)
      (fun i j _ _ _ => sym_value_completion _ _ _ _ _ _)
    rw [mat_index_natural, Nat.zero_add] at packed
    exact packed
  have small : ∀ cell, cell ∈ matrixCells order order → cell.2 / 32 < blockCount order 32 :=
    fun cell member => block_inside cell.2 order 32 (by decide) member.2
  have serial := Updates.loop_by_class (matrixCells order order) (fun cell => cell.2 / 32) (blockCount order 32) execute each
    small injective
  have filled := attempt_updates (fun output => rt.runTasks site (blockCount order 32) execute output)
    (fun before after accepted => by
      obtain ⟨tasks, complete, rfl⟩ := run_tasks_accepted accepted
      exact (Updates.by_class _ _ _ tasks execute complete each small injective).wrote before) serial
  exact filled.written (env.scratch site) (i, j) ⟨inRows, inColumns⟩

omit [LawfulScalar T] in
theorem full_symm_product_updates (env : Level3Env T) (rt : Runtime) (site : Site) (side : OperandSide) (uplo : Triangle)
    (m n : Nat) (alpha : T) (a : Mem T) (lda : Int) (structured b : Mem T) (ldb : Int) (beta : T) (ldc : Int)
    (hermitian : Bool) (stepb : 0 < ldb) (stepc : 0 < ldc) (bound : (m : Int) ≤ ldc)
    (filled : ∀ i j, i < (if side = .left then m else n) → j < (if side = .left then m else n) →
      structured (matIndex (if side = .left then m else n : Nat) i j) = completion hermitian uplo (denseEntry a lda) i j)
    (row col : Nat) (rowInside : row < m) (colInside : col < n) (rows cols : Nat) (rowsFit : row + rows ≤ m)
    (colsFit : col + cols ≤ n) (index : Nat) :
    Updates (tileCells row rows col cols) (cellAddress ldc) (symmTarget side uplo m n alpha a lda b ldb beta hermitian)
      (onTail (matIndex ldc row col) (fun c => env.gemm.run rt (index :: site) .noTrans .noTrans rows cols
        ((if side = .left then m else n : Nat) : Int) alpha (if side = .left then view structured row else view b row)
        (if side = .left then ((if side = .left then m else n : Nat) : Int) else ldb)
        (if side = .left then view b (matIndex ldb 0 col) else view structured (col * (if side = .left then m else n)))
        (if side = .left then ldb else ((if side = .left then m else n : Nat) : Int)) beta c ldc)) := by
  cases side with
  | left =>
    simp only [if_true] at filled ⊢
    refine env.gemm.tile_updates rt (index :: site) .noTrans .noTrans rows cols m alpha _ _ _ _ beta ldc row col (by omega)
      stepb stepc (by omega) (completion hermitian uplo (denseEntry a lda)) (denseEntry b ldb) (fun i p inRows inDepth => ?_)
      (fun p j _ _ => ?_)
    · rw [← filled (row + i) p (by omega) inDepth]
      simp only [opEntry, denseEntry, view_apply, matIndex, Nat.add_assoc]
    · simp only [opEntry, denseEntry, view_apply, mat_index_offset, Nat.zero_add]
  | right =>
    simp only [reduceCtorEq, if_false] at filled ⊢
    refine env.gemm.tile_updates rt (index :: site) .noTrans .noTrans rows cols n alpha _ _ _ _ beta ldc row col stepb
      (by omega) stepc (by omega) (denseEntry b ldb) (completion hermitian uplo (denseEntry a lda)) (fun i p _ _ => ?_)
      (fun p j inDepth inColumns => ?_)
    · simp only [opEntry, denseEntry, view_apply, matIndex, Nat.add_assoc]
    · rw [← filled p (col + j) inDepth (by omega)]
      simp only [opEntry, denseEntry, view_apply, mat_index_natural, Nat.add_mul]
      congr 1
      omega

omit [LawfulScalar T] in
theorem try_full_symm_attempts (env : Level3Env T) (rt : Runtime) (site : Site) (options : Options) (side : OperandSide)
    (uplo : Triangle) (m n : Nat) (alpha : T) (a : Mem T) (lda : Int) (b : Mem T) (ldb : Int) (beta : T) (ldc : Int)
    (hermitian : Bool) (stepb : 0 < ldb) (stepc : 0 < ldc) (bound : (m : Int) ≤ ldc) :
    Attempts (matrixCells m n) (cellAddress ldc) (symmTarget side uplo m n alpha a lda b ldb beta hermitian)
      (fun c => tryFullSymm env rt site options side uplo m n alpha a lda b ldb beta c ldc hermitian) := by
  refine attempts_guard _ (fun _ => attempts_decline _ _ _) (fun sized => ?_)
  refine attempts_guard _ (fun _ => attempts_decline _ _ _) (fun _ => ?_)
  refine attempts_guard _ (fun _ => attempts_decline _ _ _) (fun _ => ?_)
  have large : 256 ≤ (if side = .left then m else n) :=
    Nat.le_of_not_lt (fun short => sized (Or.inr (Or.inr (Or.inl short))))
  have filled := full_symm_workspace_entry env rt (2 :: site) uplo (if side = .left then m else n) a lda hermitian
  generalize fullSymmWorkspace env rt (2 :: site) uplo (if side = .left then m else n) a lda hermitian = workspace at filled
  have injective := matrix_cells_injective m n ldc (by simp only [toUsize]; omega)
  have each : ∀ index, index < blockCount m 64 * blockCount n 64 →
      Updates {cell | cell ∈ matrixCells m n ∧ cell.1 / 64 + blockCount m 64 * (cell.2 / 64) = index} (cellAddress ldc)
        (symmTarget side uplo m n alpha a lda b ldb beta hermitian)
        (fullSymmProduct env rt (3 :: site) side m n (if side = .left then m else n) alpha workspace b ldb beta ldc index) := by
    intro index small
    have someRows : 0 < blockCount m 64 := Nat.pos_of_ne_zero (fun none => by
      rw [none, Nat.zero_mul] at small
      exact absurd small (Nat.not_lt_zero index))
    have rowSmall : index % blockCount m 64 * 64 < m := by
      have inside := (stride_count_iff 0 m 64 (index % blockCount m 64) (by decide)).mp (Nat.mod_lt index someRows)
      omega
    have colSmall : index / blockCount m 64 * 64 < n := by
      have inside := (stride_count_iff 0 n 64 (index / blockCount m 64) (by decide)).mp (Nat.div_lt_of_lt_mul small)
      omega
    have cells : {cell | cell ∈ matrixCells m n ∧ cell.1 / 64 + blockCount m 64 * (cell.2 / 64) = index} =
        {cell | cell ∈ matrixCells m n ∧ cell.1 / 64 = index % blockCount m 64 ∧ cell.2 / 64 = index / blockCount m 64} := by
      ext cell
      simp only [Set.mem_ofPred_eq]
      refine and_congr_right (fun member => ?_)
      exact grid_class (blockCount m 64) index _ _ (block_inside cell.1 m 64 (by decide) member.1)
    rw [cells, tile_block_cells m n 64 _ _ (by decide)]
    exact full_symm_product_updates env rt (3 :: site) side uplo m n alpha a lda workspace b ldb beta ldc hermitian stepb stepc
      bound filled _ _ rowSmall colSmall _ _ (by simp only [blockLength]; omega) (by simp only [blockLength]; omega) index
  have small : ∀ cell, cell ∈ matrixCells m n →
      cell.1 / 64 + blockCount m 64 * (cell.2 / 64) < blockCount m 64 * blockCount n 64 :=
    fun cell member => grid_class_inside _ _ _ _ (block_inside cell.1 m 64 (by decide) member.1)
      (block_inside cell.2 n 64 (by decide) member.2)
  constructor
  · intro c answer
    simp only
    split
    · rename_i done accepted
      obtain ⟨order, complete, rfl⟩ := run_tasks_accepted accepted
      exact (Updates.by_class _ _ _ order _ complete each small injective).wrote c
    · cases side with
      | left =>
        simp only [if_true] at filled large ⊢
        exact (env.gemm.product_updates rt (5 :: site) .noTrans .noTrans m n m alpha workspace m b ldb beta ldc (by omega)
          stepb stepc bound (completion hermitian uplo (denseEntry a lda)) (denseEntry b ldb) filled (fun _ _ _ _ => rfl)).wrote c
      | right =>
        simp only [reduceCtorEq, if_false] at filled large ⊢
        exact (env.gemm.product_updates rt (5 :: site) .noTrans .noTrans m n n alpha b ldb workspace n beta ldc stepb
          (by omega) stepc bound (denseEntry b ldb) (completion hermitian uplo (denseEntry a lda)) (fun _ _ _ _ => rfl)
          filled).wrote c
  · intro c answer
    revert answer
    simp only
    split <;> exact fun answer => absurd (show true = false from answer) (by decide)

theorem natural_width {m : Int} (some : 0 < m) : ((toUsize m : Nat) : Int) = m := Int.toNat_of_nonneg some.le

omit [CommRing T] [Scalar T] [LawfulScalar T] in
theorem empty_attempts {value : Nat × Nat → T → T} (m n ldc : Int) (empty : m ≤ 0 ∨ n ≤ 0) :
    Attempts (matrixCells (toUsize m) (toUsize n)) (cellAddress ldc) value (fun c => (true, c)) := by
  rw [matrix_cells_empty m n empty]
  exact (updates_nothing _ _).attempts

omit [CommRing T] [LawfulScalar T] in
theorem acquired_options (rt : Runtime) (site : Site) (options : Options) (buffers : Nat)
    (acquired : acquireWorkspace T rt site options buffers = true) : 0 < options.blockSize ∧ options.blockSize ≤ 256 := by
  simp only [acquireWorkspace, workspaceElements] at acquired
  by_cases invalid : validOptions options = false ∨ options.workspaceAvailable = false
  · rw [if_pos invalid] at acquired
    exact nomatch acquired
  · have valid : validOptions options = true := Bool.of_not_eq_false (fun bad => invalid (Or.inl bad))
    simpa only [validOptions, Bool.and_eq_true, decide_eq_true_eq] using valid

theorem blocked_try_symm_attempts (env : Level3Env T) (rt : Runtime) (site : Site) (options : Options) (side : OperandSide)
    (uplo : Triangle) (m_ n_ : Int) (alpha : T) (a : Mem T) (lda : Int) (b : Mem T) (ldb : Int) (beta : T) (ldc : Int)
    (hermitian : Bool) (stepb : 0 < ldb) (stepc : 0 < ldc) (bound : m_ ≤ ldc) :
    Attempts (matrixCells (toUsize m_) (toUsize n_)) (cellAddress ldc)
      (symmTarget side uplo (toUsize m_) (toUsize n_) alpha a lda b ldb beta hermitian)
      (fun c => blockedTrySymm env rt site options side uplo m_ n_ alpha a lda b ldb beta c ldc hermitian) := by
  refine attempts_guard _ (fun empty => empty_attempts m_ n_ ldc empty) (fun entered => ?_)
  have widthM : ((toUsize m_ : Nat) : Int) = m_ := natural_width (by omega)
  have widthN : ((toUsize n_ : Nat) : Int) = n_ := natural_width (by omega)
  have bound' : ((toUsize m_ : Nat) : Int) ≤ ldc := by omega
  have fits : toUsize m_ ≤ toUsize ldc := Int.toNat_le_toNat bound
  refine attempts_guard _ (fun idle => ?_) (fun _ => ?_)
  · rw [(LawfulScalar.isZero_iff alpha).mp idle]
    exact ((scale_general_updates _ _ beta ldc fits).congr rfl
      (fun cell old _ => (symm_target_idle side uplo _ _ a lda b ldb beta hermitian cell old).symm)).attempts
  refine (try_full_symm_attempts env rt (0 :: site) options side uplo _ _ alpha a lda b ldb beta ldc hermitian stepb stepc
    bound').or_try ?_
  refine attempts_guard _ (fun _ => attempts_decline _ _ _) (fun acquired => ?_)
  have valid := acquired_options rt (1 :: site) options 1 (Bool.of_not_eq_false acquired)
  cases side with
  | left =>
    have panels := symm_left_panels_updates env rt (2 :: site) options.blockSize uplo (toUsize m_) (toUsize n_) alpha a lda b
      ldb beta ldc hermitian valid.1 (by omega) stepb bound'
    rw [widthN] at panels
    exact panels.attempts
  | right =>
    have panels := symm_right_panels_updates env rt (2 :: site) options.blockSize uplo (toUsize m_) (toUsize n_) alpha a lda b
      ldb beta ldc hermitian valid.1 (by omega) stepb stepc bound'
    rw [widthM] at panels
    exact panels.attempts

omit [CommRing T] [LawfulScalar T] in
theorem dense_symmetric_entry (uplo : Triangle) (order : Nat) (a : Mem T) (lda : Int) (herm : Bool) (buffer : Mem T)
    (i j : Nat) (inRows : i < order) (inColumns : j < order) :
    denseSymmetric uplo order a lda herm buffer (matIndex order i j) = completion herm uplo (denseEntry a lda) i j :=
  ((block_fill_updates order order (fun i j => symValue uplo a lda i j herm)).written buffer (i, j)
    ⟨inRows, inColumns⟩).trans (sym_value_completion _ _ _ _ _ _)

def denseSide (gemm : GemmRoutine T) (rt : Runtime) (site : Site) (side : OperandSide) (m_ n_ : Int) (denseA b : Mem T)
    (ldb ldc : Int) (alpha beta : T) (c : Mem T) : Mem T :=
  match side with
  | .left => gemm.run rt site .noTrans .noTrans m_ n_ m_ alpha denseA m_ b ldb beta c ldc
  | .right => gemm.run rt site .noTrans .noTrans m_ n_ n_ alpha b ldb denseA n_ beta c ldc

omit [LawfulScalar T] in
theorem dense_side_updates (gemm : GemmRoutine T) (rt : Runtime) (site : Site) (side : OperandSide) (uplo : Triangle)
    (m_ n_ : Int) (a : Mem T) (lda : Int) (b : Mem T) (ldb ldc : Int) (herm : Bool) (buffer : Mem T) (alpha beta : T)
    (rows : 0 < m_) (columns : 0 < n_) (stepb : 0 < ldb) (stepc : 0 < ldc) (bound : m_ ≤ ldc) :
    Updates (matrixCells (toUsize m_) (toUsize n_)) (cellAddress ldc)
      (symmTarget side uplo (toUsize m_) (toUsize n_) alpha a lda b ldb beta herm)
      (denseSide gemm rt site side m_ n_
        (denseSymmetric uplo (if side = .left then toUsize m_ else toUsize n_) a lda herm buffer) b ldb ldc alpha beta) := by
  have widthM := natural_width rows
  have widthN := natural_width columns
  cases side with
  | left =>
    have product := gemm.product_updates rt site .noTrans .noTrans (toUsize m_) (toUsize n_) (toUsize m_) alpha
      (denseSymmetric uplo (toUsize m_) a lda herm buffer) (toUsize m_ : Nat) b ldb beta ldc (by omega) stepb stepc (by omega)
      (completion herm uplo (denseEntry a lda)) (denseEntry b ldb)
      (dense_symmetric_entry uplo (toUsize m_) a lda herm buffer) (fun _ _ _ _ => rfl)
    rw [widthM, widthN] at product
    exact product
  | right =>
    have product := gemm.product_updates rt site .noTrans .noTrans (toUsize m_) (toUsize n_) (toUsize n_) alpha b ldb
      (denseSymmetric uplo (toUsize n_) a lda herm buffer) (toUsize n_ : Nat) beta ldc stepb (by omega) stepc (by omega)
      (denseEntry b ldb) (completion herm uplo (denseEntry a lda)) (fun _ _ _ _ => rfl)
      (dense_symmetric_entry uplo (toUsize n_) a lda herm buffer)
    rw [widthM, widthN] at product
    exact product

omit [LawfulScalar T] in
theorem symm_target_apply (side : OperandSide) (uplo : Triangle) (m n : Nat) (alpha : T) (a : Mem T) (lda : Int) (b : Mem T)
    (ldb : Int) (beta : T) (herm : Bool) (cell : Nat × Nat) (old product : T) :
    alpha * symmTarget side uplo m n 1 a lda b ldb 0 herm cell product + beta * old =
      symmTarget side uplo m n alpha a lda b ldb beta herm cell old := by
  cases side <;> simp only [symmTarget, gemmValue, one_mul, zero_mul, add_zero]

theorem dense_symm_product_attempts (env : Level3Env T) (rt : Runtime) (site : Site) (applyAlpha : T → T)
    (side : OperandSide) (uplo : Triangle) (m_ n_ : Int) (alpha : T) (a : Mem T) (lda : Int) (b : Mem T) (ldb : Int) (beta : T)
    (ldc : Int) (herm : Bool) (applies : ∀ value, applyAlpha value = alpha * value) (rows : 0 < m_) (columns : 0 < n_)
    (stepb : 0 < ldb) (stepc : 0 < ldc) (bound : m_ ≤ ldc) :
    Attempts (matrixCells (toUsize m_) (toUsize n_)) (cellAddress ldc)
      (symmTarget side uplo (toUsize m_) (toUsize n_) alpha a lda b ldb beta herm)
      (fun c => denseSymmProduct env rt site applyAlpha side uplo m_ n_ alpha a lda b ldb beta c ldc herm) := by
  have fits : toUsize m_ ≤ toUsize ldc := Int.toNat_le_toNat bound
  have injective := matrix_cells_injective (toUsize m_) (toUsize n_) ldc fits
  refine attempts_guard _ (fun _ => attempts_decline _ _ _) (fun _ => ?_)
  refine attempts_guard _ (fun _ => attempts_decline _ _ _) (fun _ => ?_)
  have product := dense_side_updates env.gemm rt (1 :: site) side uplo m_ n_ a lda b ldb ldc herm (env.scratch (0 :: site))
  refine attempts_guard _ (fun complex => ?_) (fun _ =>
    ((product alpha beta rows columns stepb stepc bound).congr_run (fun c => by cases side <;> rfl)).attempts)
  refine Updates.attempts (updates_of_wrote (fun c => ?_))
  have multiplied := product 1 0 rows columns stepb stepc bound
  -- Cell (i, j) of the saved C, or a value the merge does not read.
  generalize savedAt : (if (if Scalar.isComplex T = true ∧ isZero beta = false then toUsize m_ * toUsize n_ else 0) ≠ 0 then
    saveOutput (toUsize m_) (toUsize n_) c ldc (env.scratch (2 :: site)) else env.scratch (2 :: site)) = savedC
  have merged := updates_grid (toUsize m_) (toUsize n_) (cellAddress ldc) (fun cell (old : T) =>
    if (if Scalar.isComplex T = true ∧ isZero beta = false then toUsize m_ * toUsize n_ else 0) = 0 then applyAlpha old
    else applyAlpha old + beta * savedC (cell.1 + cell.2 * toUsize m_)) injective
  have final : ∀ cell : Nat × Nat, cell ∈ matrixCells (toUsize m_) (toUsize n_) → ∀ value,
      (if (if Scalar.isComplex T = true ∧ isZero beta = false then toUsize m_ * toUsize n_ else 0) = 0 then applyAlpha value
        else applyAlpha value + beta * savedC (cell.1 + cell.2 * toUsize m_)) =
      alpha * value + beta * c (cellAddress ldc cell) := by
    intro cell member value
    have some : toUsize m_ * toUsize n_ ≠ 0 :=
      Nat.mul_ne_zero (Nat.ne_zero_of_lt member.1) (Nat.ne_zero_of_lt member.2)
    rw [applies]
    by_cases nothing : isZero beta = true
    · have unsaved : ¬ (Scalar.isComplex T = true ∧ isZero beta = false) := by
        rw [nothing]
        exact fun both => nomatch both.2
      simp only [if_neg unsaved, if_true]
      rw [(LawfulScalar.isZero_iff beta).mp nothing, zero_mul, add_zero]
    · have kept : Scalar.isComplex T = true ∧ isZero beta = false := ⟨complex, Bool.of_not_eq_true nothing⟩
      rw [if_pos kept] at savedAt ⊢
      rw [if_pos some] at savedAt
      rw [if_neg some, ← savedAt]
      have copied := (block_fill_updates (toUsize m_) (toUsize n_) (fun i j => c (matIndex ldc i j))).written
        (env.scratch (2 :: site)) cell member
      simp only [cellAddress, mat_index_natural] at copied
      exact congrArg (fun old => alpha * value + beta * old) copied
  constructor
  · intro cell member
    refine (merged.written _ cell member).trans ?_
    rw [final cell member]
    refine (congrArg (fun value => alpha * value + beta * c (cellAddress ldc cell))
      (?_ : _ = symmTarget side uplo (toUsize m_) (toUsize n_) 1 a lda b ldb 0 herm cell (c (cellAddress ldc cell)))).trans
      (symm_target_apply side uplo _ _ alpha a lda b ldb beta herm cell _ _)
    refine Eq.trans ?_ (multiplied.written c cell member)
    cases side <;> rfl
  · intro place apart
    refine (merged.kept _ place apart).trans (Eq.trans ?_ (multiplied.kept c place apart))
    cases side <;> rfl

theorem dense_gemm_try_symm_attempts (env : Level3Env T) (rt : Runtime) (site : Site) (side : OperandSide) (uplo : Triangle)
    (m_ n_ : Int) (alpha : T) (a : Mem T) (lda : Int) (b : Mem T) (ldb : Int) (beta : T) (ldc : Int) (herm : Bool)
    (stepb : 0 < ldb) (stepc : 0 < ldc) (bound : m_ ≤ ldc) :
    Attempts (matrixCells (toUsize m_) (toUsize n_)) (cellAddress ldc)
      (symmTarget side uplo (toUsize m_) (toUsize n_) alpha a lda b ldb beta herm)
      (fun c => denseGemmTrySymm env rt site side uplo m_ n_ alpha a lda b ldb beta c ldc herm) := by
  refine attempts_guard _ (fun idle => ?_) (fun _ => ?_)
  · rw [(LawfulScalar.isZero_iff alpha).mp idle]
    exact ((scale_general_updates _ _ beta ldc (Int.toNat_le_toNat bound)).congr rfl
      (fun cell old _ => (symm_target_idle side uplo _ _ a lda b ldb beta herm cell old).symm)).attempts
  refine attempts_guard _ (fun _ => attempts_decline _ _ _) (fun chosen => ?_)
  have sized : toUsize m_ ≥ 128 ∧ toUsize n_ ≥ 128 := by
    have used := Bool.of_not_eq_false chosen
    simp only [useDenseSymmGemm] at used
    split_ifs at used
    all_goals
      simp only [Bool.and_eq_true, decide_eq_true_eq] at used
      exact used.1
  simp only [toUsize] at sized
  refine dense_symm_product_attempts env rt site _ side uplo m_ n_ alpha a lda b ldb beta ldc herm (fun value => ?_) (by omega)
    (by omega) stepb stepc bound
  split
  · rename_i one
    rw [(LawfulScalar.isOne_iff alpha).mp one, one_mul]
  · rfl

theorem isolated_try_symm_attempts (env : Level3Env T) (rt : Runtime) (site : Site) (side : OperandSide) (uplo : Triangle)
    (m_ n_ : Int) (alpha : T) (a : Mem T) (lda : Int) (b : Mem T) (ldb : Int) (beta : T) (ldc : Int) (herm : Bool)
    (stepb : 0 < ldb) (stepc : 0 < ldc) (bound : m_ ≤ ldc) :
    Attempts (matrixCells (toUsize m_) (toUsize n_)) (cellAddress ldc)
      (symmTarget side uplo (toUsize m_) (toUsize n_) alpha a lda b ldb beta herm)
      (fun c => isolatedTrySymm env rt site side uplo m_ n_ alpha a lda b ldb beta c ldc herm) := by
  refine attempts_guard _ (fun _ => attempts_decline _ _ _) (fun entered => ?_)
  refine attempts_guard _ (fun _ => attempts_decline _ _ _) (fun _ => ?_)
  refine attempts_guard _ (fun idle => ?_) (fun _ => ?_)
  · rw [(LawfulScalar.isZero_iff alpha).mp idle]
    exact ((scale_matrix_updates _ _ beta ldc (Int.toNat_le_toNat bound)).congr rfl
      (fun cell old _ => (symm_target_idle side uplo _ _ a lda b ldb beta herm cell old).symm)).attempts
  have rows : 0 < m_ := by
    by_contra none
    exact entered (Or.inr (Or.inl (by omega)))
  have columns : 0 < n_ := by
    by_contra none
    exact entered (Or.inr (Or.inr (by omega)))
  exact dense_symm_product_attempts env rt site _ side uplo m_ n_ alpha a lda b ldb beta ldc herm (fun _ => rfl) rows columns
    stepb stepc bound

theorem symm_updates (env : Level3Env T) (rt : Runtime) (site : Site) (side : OperandSide) (uplo : Triangle) (m_ n_ : Int)
    (alpha : T) (a : Mem T) (lda : Int) (b : Mem T) (ldb : Int) (beta : T) (ldc : Int) (herm : Bool) (stepb : 0 < ldb)
    (stepc : 0 < ldc) (bound : m_ ≤ ldc) :
    Updates (matrixCells (toUsize m_) (toUsize n_)) (cellAddress ldc)
      (symmTarget side uplo (toUsize m_) (toUsize n_) alpha a lda b ldb beta herm)
      (fun c => symm env rt site side uplo m_ n_ alpha a lda b ldb beta c ldc herm) := by
  have fits : toUsize m_ ≤ toUsize ldc := Int.toNat_le_toNat bound
  refine updates_guard _ (fun empty => ?_) (fun _ => ?_)
  · rw [matrix_cells_empty m_ n_ empty]
    exact updates_nothing _ _
  refine updates_guard _ (fun idle => ?_) (fun _ => ?_)
  · rw [(LawfulScalar.isZero_iff alpha).mp idle]
    exact (scale_general_updates _ _ beta ldc fits).congr rfl
      (fun cell old _ => (symm_target_idle side uplo _ _ a lda b ldb beta herm cell old).symm)
  have blocked := fun site options =>
    blocked_try_symm_attempts env rt site options side uplo m_ n_ alpha a lda b ldb beta ldc herm stepb stepc bound
  refine Attempts.or_else (Attempts.or_try (Attempts.or_try ?_ ?_) ?_) ?_
  · exact attempts_guard _ (fun _ => blocked _ _) (fun _ => attempts_decline _ _ _)
  · exact attempts_guard _ (fun _ => blocked _ _) (fun _ => attempts_decline _ _ _)
  · exact attempts_guard _ (fun _ => isolated_try_symm_attempts env rt _ side uplo m_ n_ alpha a lda b ldb beta ldc herm stepb
      stepc bound) (fun _ => attempts_decline _ _ _)
  · exact symm_column_route_updates rt _ side uplo _ _ alpha a lda b ldb beta ldc herm fits

-- Two operands a symmetric or Hermitian routine may not tell apart.
def SameStored (herm : Bool) (uplo : Triangle) (order : Nat) (entry entry' : Nat → Nat → T) : Prop :=
  (∀ i j, i < order → j < order → i ≠ j → stored uplo i j = true → entry i j = entry' i j) ∧
    ∀ i, i < order → (if herm then realOnly (entry i i) else entry i i) = (if herm then realOnly (entry' i i) else entry' i i)

omit [CommRing T] [LawfulScalar T] in
theorem same_stored_completion (herm : Bool) (uplo : Triangle) (order : Nat) (entry entry' : Nat → Nat → T)
    (same : SameStored herm uplo order entry entry') (i j : Nat) (inRows : i < order) (inColumns : j < order) :
    completion herm uplo entry i j = completion herm uplo entry' i j := by
  refine completion_congr herm uplo entry entry' i j (fun r s different inside place => ?_) (fun _ => same.2 i inRows)
  rcases place with ⟨rfl, rfl⟩ | ⟨rfl, rfl⟩
  · exact same.1 r s inRows inColumns different inside
  · exact same.1 r s inColumns inRows different inside

omit [LawfulScalar T] in
theorem symm_target_same_stored (side : OperandSide) (uplo : Triangle) (m n : Nat) (alpha : T) (a a' : Mem T) (lda : Int)
    (b : Mem T) (ldb : Int) (beta : T) (herm : Bool) (cell : Nat × Nat) (old : T) (inside : cell ∈ matrixCells m n)
    (same : SameStored herm uplo (if side = .left then m else n) (denseEntry a lda) (denseEntry a' lda)) :
    symmTarget side uplo m n alpha a lda b ldb beta herm cell old =
      symmTarget side uplo m n alpha a' lda b ldb beta herm cell old := by
  cases side with
  | left =>
    simp only [symmTarget, gemmValue]
    congr 2
    refine Finset.sum_congr rfl (fun p member => ?_)
    rw [same_stored_completion herm uplo m _ _ same cell.1 p inside.1 (Finset.mem_range.mp member)]
  | right =>
    simp only [symmTarget, gemmValue]
    congr 2
    refine Finset.sum_congr rfl (fun p member => ?_)
    rw [same_stored_completion herm uplo n _ _ same p cell.2 (Finset.mem_range.mp member) inside.2]

theorem symm_routes_agree (env : Level3Env T) (rt : Runtime) (site : Site) (side uplo : Char) (m n : Int) (alpha : T)
    (a : Mem T) (lda : Int) (b : Mem T) (ldb : Int) (beta : T) (ldc : Int) (herm : Bool)
    (accepted : symmetricMatrixError side uplo m n lda ldb ldc = 0) :
    let cells := matrixCells (toUsize m) (toUsize n)
    let target := symmTarget (parseSide side) (parseUplo uplo) (toUsize m) (toUsize n) alpha a lda b ldb beta herm
    let order := if parseSide side = .left then toUsize m else toUsize n
    Updates cells (cellAddress ldc) target
      (fun c => symm env rt site (parseSide side) (parseUplo uplo) m n alpha a lda b ldb beta c ldc herm) ∧
    (∀ (taskCount : Nat) (tasks : List Nat), 0 < taskCount → tasks.Perm (List.range taskCount) → Updates cells
      (cellAddress ldc) target
      (fun c => tasks.foldl (fun current taskIndex => runSymmColumns (parseSide side) (parseUplo uplo) (toUsize m) (toUsize n)
        alpha a lda b ldb beta ldc herm taskIndex taskCount current) c)) ∧
    (∀ options, Attempts cells (cellAddress ldc) target (fun c =>
      blockedTrySymm env rt site options (parseSide side) (parseUplo uplo) m n alpha a lda b ldb beta c ldc herm)) ∧
    (∀ options, Attempts cells (cellAddress ldc) target (fun c => tryFullSymm env rt site options (parseSide side)
      (parseUplo uplo) (toUsize m) (toUsize n) alpha a lda b ldb beta c ldc herm)) ∧
    Attempts cells (cellAddress ldc) target (fun c =>
      denseGemmTrySymm env rt site (parseSide side) (parseUplo uplo) m n alpha a lda b ldb beta c ldc herm) ∧
    Attempts cells (cellAddress ldc) target (fun c =>
      isolatedTrySymm env rt site (parseSide side) (parseUplo uplo) m n alpha a lda b ldb beta c ldc herm) ∧
    (∀ i j, completion herm (parseUplo uplo) (denseEntry a lda) j i =
      if herm then conj (completion herm (parseUplo uplo) (denseEntry a lda) i j)
      else completion herm (parseUplo uplo) (denseEntry a lda) i j) ∧
    ∀ a' : Mem T, SameStored herm (parseUplo uplo) order (denseEntry a lda) (denseEntry a' lda) → ∀ c,
      symm env rt site (parseSide side) (parseUplo uplo) m n alpha a lda b ldb beta c ldc herm =
        symm env rt site (parseSide side) (parseUplo uplo) m n alpha a' lda b ldb beta c ldc herm := by
  obtain ⟨_, _, _, stepb, stepc, bound⟩ := symmetric_matrix_accepted_bounds side uplo m n lda ldb ldc accepted
  have fits : toUsize m ≤ toUsize ldc := Int.toNat_le_toNat bound
  have width : ((toUsize m : Nat) : Int) ≤ ldc := by simp only [toUsize]; omega
  intro cells target order
  have whole := symm_updates env rt site (parseSide side) (parseUplo uplo) m n alpha a lda b ldb beta ldc herm stepb stepc bound
  refine ⟨whole, fun taskCount tasks some complete => ?_, fun options => ?_, fun options => ?_, ?_, ?_,
    fun i j => completion_mirror herm _ _ i j, fun a' same c => ?_⟩
  · exact symm_columns_any_order _ _ _ _ alpha a lda b ldb beta ldc herm fits taskCount some tasks complete
  · exact blocked_try_symm_attempts env rt site options _ _ m n alpha a lda b ldb beta ldc herm stepb stepc bound
  · exact try_full_symm_attempts env rt site options _ _ _ _ alpha a lda b ldb beta ldc herm stepb stepc width
  · exact dense_gemm_try_symm_attempts env rt site _ _ m n alpha a lda b ldb beta ldc herm stepb stepc bound
  · exact isolated_try_symm_attempts env rt site _ _ m n alpha a lda b ldb beta ldc herm stepb stepc bound
  · have other := symm_updates env rt site (parseSide side) (parseUplo uplo) m n alpha a' lda b ldb beta ldc herm stepb stepc
      bound
    have equal := (whole.congr rfl (fun cell old inside =>
      symm_target_same_stored _ _ _ _ alpha a a' lda b ldb beta herm cell old inside same)).unique other
    exact congrFun equal c

def Level3Env.portable (R : Type) [CommRing R] [Scalar R] [LawfulScalar R] : Level3Env R where
  gemm := GemmRoutine.portable R
  scratch _ _ := 0
  capability := .generic
  macos := false
  isolatedStructured := true

-- A Hermitian matrix on the right in blocks of two, and one of order 300 packed and multiplied by four tasks.
theorem symm_routes_agree_small :
    let _ := complexKind Int .double
    let _ := complex_kind_lawful Int .double
    let env := Level3Env.portable (Cplx Int)
    let a : Mem (Cplx Int) := fun p => ⟨p, 1⟩
    let blocked := fun c => blockedTrySymm env Runtime.sequential [] { blockSize := 2 } .right .lower 3 5 2 a 6 a 4 7 c 3 true
    let packed := fun c => tryFullSymm env (Runtime.splitting 4) [] {} .left .upper 300 7 2 a 301 a 302 7 c 303 true
    (∀ c, (blocked c).1 = true ∧ (packed c).1 = true) ∧
      Attempts (matrixCells 3 5) (cellAddress 3) (symmTarget .right .lower 3 5 2 a 6 a 4 7 true) blocked ∧
      Attempts (matrixCells 300 7) (cellAddress 303) (symmTarget .left .upper 300 7 2 a 301 a 302 7 true) packed := by
  intro kind lawful env a blocked packed
  have narrow := symm_routes_agree env Runtime.sequential [] 'R' 'L' 3 5 2 a 6 a 4 7 3 true (by decide)
  have wide := symm_routes_agree env (Runtime.splitting 4) [] 'L' 'U' 300 7 2 a 301 a 302 7 303 true (by decide)
  exact ⟨fun c => ⟨rfl, rfl⟩, narrow.2.2.1 { blockSize := 2 }, wide.2.2.2.1 {}⟩

end Zynum
