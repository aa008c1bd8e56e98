import Zynum.Foundation.WithNan
import Zynum.MatrixMatrix.PackedSimdGeneric
import Zynum.MatrixMatrix.PackedSimdTiles

set_option autoImplicit false

/- The packed kernel: panels side by side, packed rows of A, whatever the allocator
   answers, and blocks of the inner dimension that add up. -/
namespace Zynum.PackedSimd

open ArrayProgram

section PackedRows

variable {T : Type}

theorem packed_rows_hold (mr : Nat) (task : Task T) (pack : Mem T) (block t p : Nat) (inside : block < strideCount 0 task.m mr)
    (small : t < min mr (task.m - block * mr)) (below : p < task.k) :
    packRows mr task pack (block * mr * task.k + p * mr + t) = task.a (matIndex task.lda (block * mr) p + t) := by
  have depth : 0 < task.k := Nat.zero_lt_of_lt below
  have fits : ∀ block, min mr (task.m - block * mr) ≤ mr := fun block => Nat.min_le_left _ _
  have address : ∀ block p t, block * mr * task.k + p * mr + t = (block * task.k + p) * mr + t := by
    intro block p t
    ring
  let cells : Set (Nat × Nat) :=
    {cell | cell.1 < min mr (task.m - cell.2 / task.k * mr) ∧ cell.2 / task.k < strideCount 0 task.m mr}
  let value := fun (cell : Nat × Nat) (_ : T) => task.a (matIndex task.lda (cell.2 / task.k * mr) (cell.2 % task.k) + cell.1)
  have packed : Updates cells (panelAddress mr) value (packRows mr task) := by
    refine Updates.loop_by_class cells (fun cell => cell.2 / task.k) _ _ (fun block inside => ?_) (fun cell member => member.2)
      ((panel_injective mr).mono (fun cell member => lt_of_lt_of_le member.1 (fits _)))
    have element : ∀ t p, p < task.k → Updates (rectangle t (t + 1) (block * task.k + p) (block * task.k + p + 1)) (panelAddress mr)
        value (fun pack =>
          Function.update pack (block * mr * task.k + p * mr + t) (task.a (matIndex task.lda (block * mr) p + t))) := by
      intro t p below
      refine Updates.congr_run (point_rectangle t (block * task.k + p)) (fun pack => ?_)
      simp only [value, Nat.mul_comm block task.k, Nat.mul_add_div depth, Nat.div_eq_of_lt below, Nat.add_zero, Nat.mul_add_mod,
        Nat.mod_eq_of_lt below, panelAddress]
      rw [address, Nat.mul_comm block task.k]
    have strip := (columns_loop task.k (fun p => block * task.k + p) _ 0 (min mr (task.m - block * mr)) (panel_injective mr)
      (fun p _ => Nat.le_succ _) (fits block) (fun p below =>
        (rows_loop (min mr (task.m - block * mr)) (fun t => t) _ (block * task.k + p) (block * task.k + (p + 1))
          (panel_injective mr) (fun t _ => Nat.le_succ t) (fits block) (fun t _ => element t p below)).1)).1
    refine strip.congr ?_ (fun _ _ _ => rfl)
    ext cell
    have member := div_block cell.2 task.k block depth
    simp only [rectangle, cells, Set.mem_ofPred_eq, Nat.zero_le, true_and, Nat.add_zero]
    constructor
    · rintro ⟨rows, columns⟩
      have same := member.mpr columns
      rw [same]
      exact ⟨⟨rows, inside⟩, rfl⟩
    · rintro ⟨⟨rows, _⟩, same⟩
      rw [same] at rows
      exact ⟨rows, member.mp same⟩
  have quotient : (block * task.k + p) / task.k = block := by
    rw [Nat.mul_comm, Nat.mul_add_div depth, Nat.div_eq_of_lt below, Nat.add_zero]
  have rest : (block * task.k + p) % task.k = p := by
    rw [Nat.mul_comm, Nat.mul_add_mod, Nat.mod_eq_of_lt below]
  have written := packed.written pack (t, block * task.k + p) (by
    simp only [cells, Set.mem_ofPred_eq, quotient]
    exact ⟨small, inside⟩)
  simp only [value, panelAddress, quotient, rest] at written
  rw [address]
  exact written

theorem moved_rows {value : Nat × Nat → T → T} {run : Mem T → Mem T} {ldc : Int} {rows j0 j1 : Nat}
    (updates : Updates (rectangle 0 rows j0 j1) (cellAddress ldc) value run) (i0 : Nat) (value' : Nat × Nat → T → T)
    (same : ∀ i j old, i < rows → value (i, j) old = value' (i0 + i, j) old) :
    Updates (rectangle i0 (i0 + rows) j0 j1) (cellAddress ldc) value' (onTail i0 run) := by
  have moved : Updates (rectangle 0 rows j0 j1) (fun cell => cellAddress ldc (i0 + cell.1, cell.2))
      (fun cell => value' (i0 + cell.1, cell.2)) (onTail i0 run) := by
    refine ((updates.on_tail i0).congr rfl (fun cell old inside => same cell.1 cell.2 old inside.1.2)).congr_address
      (fun cell _ => ?_)
    simp only [cellAddress, matIndex]
    omega
  refine (Updates.reindex (fun cell : Nat × Nat => (i0 + cell.1, cell.2)) moved).congr ?_ (fun _ _ _ => rfl)
  ext ⟨i, j⟩
  simp only [Set.mem_image, rectangle, Set.mem_ofPred_eq, Prod.mk.injEq, Prod.exists]
  constructor
  · rintro ⟨r, s, inside, rfl, rfl⟩
    omega
  · intro inside
    exact ⟨i - i0, j, by omega, by omega, rfl⟩

end PackedRows

variable {T : Type} [AddCommMonoid T] [CommMagma T] [One T] [DecidableEq T]

section Panels

variable (task : Task T) (bound : task.m ≤ toUsize task.ldc) (directStore : Bool) (direct : StoresDirectly task directStore)

include bound direct

theorem run_panel (precision : Precision) (cfg : PackedConfig) (tiles : Tiles cfg) (pack : Mem T) (j : Nat) :
    Updates (rectangle 0 task.m j (j + cfg.tileN)) (cellAddress task.ldc) (taskTarget task)
      (runPanel precision cfg directStore task pack j) :=
  run_prepared_panel task _ bound directStore direct cfg tiles j (prepare_panel task j precision cfg pack)

omit bound direct in
omit [One T] [DecidableEq T] in
theorem packed_row_sum (mr : Nat) (pack : Mem T) (block t col : Nat) (inside : block < strideCount 0 task.m mr)
    (small : t < min mr (task.m - block * mr)) :
    taskSum (packedRowTask mr task (packRows mr task pack) block) (t, col) = taskSum task (block * mr + t, col) := by
  refine Finset.sum_congr rfl (fun p member => ?_)
  have read := packed_rows_hold mr task pack block t p inside small (Finset.mem_range.mp member)
  have place : matIndex task.lda (block * mr) p + t = matIndex task.lda (block * mr + t) p := by
    simp only [matIndex]
    omega
  have packed : (packedRowTask mr task (packRows mr task pack) block).a (matIndex (mr : Int) t p) =
      task.a (matIndex task.lda (block * mr + t) p) := by
    rw [← place, ← read, mat_index_natural]
    simp only [packedRowTask, view_apply]
    congr 1
    omega
  exact congrArg (· * task.bValue p col) packed

theorem run_packed_rows (cfg : PackedConfig) (tiles : Tiles cfg) (mr : Nat) (some : 0 < mr) (pack panel : Mem T) (j : Nat)
    (holds : PanelHolds cfg.tileN task j panel) :
    Updates (rectangle 0 task.m j (j + cfg.tileN)) (cellAddress task.ldc) (taskTarget task)
      (runPackedRows cfg directStore mr task (packRows mr task pack) panel j) := by
  have injective := cell_address_injective task.ldc task.m bound
  have splits := block_splits task.m mr some
  have block : ∀ block, block < strideCount 0 task.m mr →
      Updates (rectangle (min task.m (block * mr)) (min task.m ((block + 1) * mr)) j (j + cfg.tileN)) (cellAddress task.ldc)
        (taskTarget task) (onTail (block * mr)
          (runPreparedPanel cfg directStore (packedRowTask mr task (packRows mr task pack) block) panel j)) := by
    intro block inside
    have started : block * mr < task.m := by
      have below := (stride_count_iff 0 task.m mr block some).mp inside
      rwa [Nat.zero_add] at below
    have rows : min mr (task.m - block * mr) ≤ task.m := by omega
    have sub := run_prepared_panel (packedRowTask mr task (packRows mr task pack) block) panel (rows.trans bound) directStore
      direct cfg tiles j holds
    have moved := moved_rows sub (block * mr) (taskTarget task) (fun t col old small =>
      congrArg (fun sum => applyScalar task.alpha task.beta sum old) (packed_row_sum task mr pack block t col inside small))
    have first : min task.m (block * mr) = block * mr := by omega
    have last : min task.m ((block + 1) * mr) = block * mr + min mr (task.m - block * mr) := by
      rw [Nat.succ_mul]
      omega
    rw [first, last]
    exact moved
  have strips := (rows_loop (strideCount 0 task.m mr) (fun block => min task.m (block * mr)) _ j (j + cfg.tileN) injective
    splits.ordered (Nat.min_le_left _ _) block).1
  simp only [splits.start, splits.finish] at strips
  exact strips

theorem with_pack (precision : Precision) (cfg : PackedConfig) (tiles : Tiles cfg) (env : PackEnv T) (site : Site) :
    Updates (rectangle 0 task.m task.n0 task.n1) (cellAddress task.ldc) (taskTarget task)
      (noTransRealWithPack precision cfg env site directStore task) := by
  have injective := cell_address_injective task.ldc task.m bound
  refine columns_fit_then task.n0 task.n1 cfg.tileN 0 task.m
    (fun j => runPanel precision cfg directStore task (env.scratch (j :: site)) j) (fun done =>
      if fitEnd task.n0 task.n1 cfg.tileN < task.n1 then
        if cfg.packTailColumns then
          tailColsPacked precision cfg directStore task (env.scratch (fitEnd task.n0 task.n1 cfg.tileN :: site))
            (fitEnd task.n0 task.n1 cfg.tileN) done
        else tailColsGeneric precision task (fitEnd task.n0 task.n1 cfg.tileN) done
      else done) injective (Nat.le_refl _)
    (fun j _ _ => run_panel task bound directStore direct precision cfg tiles _ j) ?_
  generalize fitEnd task.n0 task.n1 cfg.tileN = j
  refine updates_guard _ (fun short => updates_guard _ (fun _ => ?_) (fun _ => ?_)) (fun full => ?_)
  · have some : ¬ task.n1 - j = 0 := by omega
    have last : j + (task.n1 - j) = task.n1 := by omega
    have tail := run_panel task bound directStore direct precision (withTile cfg (task.n1 - j))
      (tiles_with_width tiles (task.n1 - j)) (env.scratch (j :: site)) j
    simp only [withTile, last] at tail
    refine tail.congr_run (fun c => ?_)
    rw [tailColsPacked, if_neg some]
    rfl
  · exact fallback_real { task with n0 := j } bound precision
  · exact empty_rectangle _ (fun c => rfl) _ _ _ _ (Or.inr (Nat.le_of_not_lt full))

theorem with_packed_a (precision : Precision) (cfg : PackedConfig) (tiles : Tiles cfg) (env : PackEnv T) (site : Site)
    (before after : Mem T) (ran : withPackedA precision cfg env site directStore task before = some after) :
    Wrote (rectangle 0 task.m task.n0 task.n1) (cellAddress task.ldc) (taskTarget task) before after := by
  have injective := cell_address_injective task.ldc task.m bound
  have some : 0 < cfg.laneCount * cfg.rowGroups := Nat.mul_pos tiles.lanes tiles.groups
  unfold withPackedA at ran
  by_cases allocated : env.allocates (0 :: site) = true
  · rw [if_pos allocated] at ran
    have whole := columns_fit_then task.n0 task.n1 cfg.tileN 0 task.m
      (fun j => runPackedRows cfg directStore (cfg.laneCount * cfg.rowGroups) task
        (packRows (cfg.laneCount * cfg.rowGroups) task (env.scratch (0 :: site)))
        (preparePanel precision cfg task j (env.scratch (j :: 1 :: site))) j)
      (fun done => if fitEnd task.n0 task.n1 cfg.tileN < task.n1 then
        runPackedRows (withTile cfg (task.n1 - fitEnd task.n0 task.n1 cfg.tileN)) directStore (cfg.laneCount * cfg.rowGroups) task
          (packRows (cfg.laneCount * cfg.rowGroups) task (env.scratch (0 :: site)))
          (preparePanel precision (withTile cfg (task.n1 - fitEnd task.n0 task.n1 cfg.tileN)) task
            (fitEnd task.n0 task.n1 cfg.tileN) (env.scratch (fitEnd task.n0 task.n1 cfg.tileN :: 1 :: site)))
          (fitEnd task.n0 task.n1 cfg.tileN) done
        else done) injective (Nat.le_refl _)
      (fun j _ _ => run_packed_rows task bound directStore direct cfg tiles _ some _ _ j
        (prepare_panel task j precision cfg _)) (by
      generalize fitEnd task.n0 task.n1 cfg.tileN = j
      refine updates_guard _ (fun short => ?_) (fun full => ?_)
      · have last : j + (task.n1 - j) = task.n1 := by omega
        have tail := run_packed_rows task bound directStore direct (withTile cfg (task.n1 - j))
          (tiles_with_width tiles (task.n1 - j)) _ some (env.scratch (0 :: site)) _ j
          (prepare_panel task j precision (withTile cfg (task.n1 - j)) (env.scratch (j :: 1 :: site)))
        have width : (withTile cfg (task.n1 - j)).tileN = task.n1 - j := rfl
        rw [width, last] at tail
        exact tail
      · exact empty_rectangle _ (fun c => rfl) _ _ _ _ (Or.inr (Nat.le_of_not_lt full)))
    have wrote := whole.wrote before
    by_cases short : fitEnd task.n0 task.n1 cfg.tileN < task.n1
    · simp only [if_pos short] at ran wrote
      cases ran
      exact wrote
    · simp only [if_neg short] at ran wrote
      cases ran
      exact wrote
  · rw [if_neg allocated] at ran
    cases ran

end Panels

section Whole

variable (precision : Precision) (cfg : PackedConfig) (tiles : Tiles cfg) (env : PackEnv T) (site : Site) (task : Task T)
  (bound : task.m ≤ toUsize task.ldc)

include tiles bound

theorem with_pack_selected :
    Updates (rectangle 0 task.m task.n0 task.n1) (cellAddress task.ldc) (taskTarget task)
      (noTransRealWithPackSelected precision cfg env site task) := by
  have direct : StoresDirectly task (decide (task.alpha = 1 ∧ task.beta = 0)) := of_decide_eq_true
  refine updates_of_wrote (fun c => ?_)
  simp only [noTransRealWithPackSelected]
  generalize packed : (if cfg.packA = true ∧ task.m ≥ 64 ∧ task.k ≥ 256 ∧ task.n1 - task.n0 ≥ 64 then
    withPackedA precision cfg env (0 :: site) (decide (task.alpha = 1 ∧ task.beta = 0)) task c else none) = answer
  cases answer with
  | none => exact (with_pack task bound _ direct precision cfg tiles env (1 :: site)).wrote c
  | some done =>
    split at packed
    · exact with_packed_a task bound _ direct precision cfg tiles env (0 :: site) c done packed
    · cases packed

theorem unblocked_real :
    Updates (rectangle 0 task.m task.n0 task.n1) (cellAddress task.ldc) (taskTarget task)
      (noTransRealUnblocked precision cfg env site task) := by
  have selected := with_pack_selected precision cfg tiles env (0 :: site) task bound
  exact updates_guard _ (fun _ => selected)
    (fun _ => updates_guard _ (fun _ => selected) (fun _ => fallback_real task bound precision))

def blockedTarget (cfg : PackedConfig) (task : Task T) (cell : Nat × Nat) (old : T) : T :=
  loop (strideCount 0 task.k cfg.kBlock) (fun block => taskTarget (kBlockTask cfg task (block * cfg.kBlock)) cell) old

def packedTarget (cfg : PackedConfig) (task : Task T) (cell : Nat × Nat) (old : T) : T :=
  if cfg.kBlock ≠ 0 ∧ task.m ≥ 64 ∧ task.n1 - task.n0 ≥ 24 ∧ task.k > cfg.kBlock then blockedTarget cfg task cell old
  else taskTarget task cell old

theorem packed_real :
    Updates (rectangle 0 task.m task.n0 task.n1) (cellAddress task.ldc) (packedTarget cfg task)
      (packedNoTransReal precision cfg env site task) := by
  by_cases blocked : cfg.kBlock ≠ 0 ∧ task.m ≥ 64 ∧ task.n1 - task.n0 ≥ 24 ∧ task.k > cfg.kBlock
  · have each : ∀ block, block < strideCount 0 task.k cfg.kBlock →
        Updates (rectangle 0 task.m task.n0 task.n1) (cellAddress task.ldc) (taskTarget (kBlockTask cfg task (block * cfg.kBlock)))
          (noTransRealUnblocked precision cfg env (block * cfg.kBlock :: site) (kBlockTask cfg task (block * cfg.kBlock))) :=
      fun block _ => unblocked_real precision cfg tiles env _ (kBlockTask cfg task (block * cfg.kBlock)) bound
    have blocks := Updates.repeat (strideCount 0 task.k cfg.kBlock) _ _ each
    refine (blocks.congr rfl (fun cell old _ => (if_pos blocked).symm)).congr_run (fun c => ?_)
    rw [packedNoTransReal, if_pos blocked, strideLoop]
    simp only [Nat.zero_add]
  · refine ((unblocked_real precision cfg tiles env (0 :: site) task bound).congr rfl
      (fun cell old _ => (if_neg blocked).symm)).congr_run (fun c => ?_)
    rw [packedNoTransReal, if_neg blocked]

end Whole

section Exact

variable {R : Type} [CommRing R] [DecidableEq R]

theorem apply_scalar_value (alpha beta sum old : R) : applyScalar alpha beta sum old = alpha * sum + beta * old := by
  rw [applyScalar]
  by_cases direct : alpha = 1 ∧ beta = 0
  · rw [if_pos direct, direct.1, direct.2, one_mul, zero_mul, add_zero]
  · rw [if_neg direct, scaleOldScalar]
    by_cases cleared : beta = 0
    · rw [if_pos cleared, cleared, zero_mul]
    · by_cases kept : beta = 1
      · rw [if_neg cleared, if_pos kept, kept, one_mul]
      · rw [if_neg cleared, if_neg kept]

theorem task_target_value (task : Task R) (cell : Nat × Nat) (old : R) : taskTarget task cell old = task.value cell old :=
  apply_scalar_value _ _ _ _

omit [DecidableEq R] in
theorem block_task_sum (cfg : PackedConfig) (task : Task R) (p : Nat) (cell : Nat × Nat) :
    taskSum (kBlockTask cfg task p) cell = ∑ q ∈ Finset.range (blockLength task.k cfg.kBlock p),
      task.a (matIndex task.lda cell.1 (p + q)) * task.bValue (p + q) cell.2 := by
  refine Finset.sum_congr rfl (fun q _ => ?_)
  have left : (kBlockTask cfg task p).a (matIndex task.lda cell.1 q) = task.a (matIndex task.lda cell.1 (p + q)) := by
    simp only [kBlockTask, view_apply, mat_index_offset, Nat.zero_add]
  have right : (kBlockTask cfg task p).bValue q cell.2 = task.bValue (p + q) cell.2 := by
    unfold Task.bValue
    cases layout : task.bLayout with
    | noTrans =>
      simp only [kBlockTask, layout, if_pos, view_apply, matIndex]
      rw [Nat.add_assoc]
    | trans =>
      have other : ¬ BLayout.trans = BLayout.noTrans := by decide
      simp only [kBlockTask, layout, if_neg other, view_apply, mat_index_offset, Nat.zero_add]
  exact congrArg₂ (· * ·) left right

theorem packed_target_value (cfg : PackedConfig) (task : Task R) (cell : Nat × Nat) (old : R) :
    packedTarget cfg task cell old = task.value cell old := by
  rw [packedTarget]
  split
  case isTrue blocked =>
    have some : 0 < cfg.kBlock := Nat.pos_of_ne_zero blocked.1
    have blocks : 0 < strideCount 0 task.k cfg.kBlock := by
      rw [stride_count_iff 0 task.k cfg.kBlock 0 some]
      omega
    have turns : blockedTarget cfg task cell old = loop (strideCount 0 task.k cfg.kBlock) (fun block value =>
        task.alpha * taskSum (kBlockTask cfg task (block * cfg.kBlock)) cell + (if block = 0 then task.beta else 1) * value) old := by
      refine loop_congr _ _ _ _ (fun block value _ => ?_)
      have first : block * cfg.kBlock = 0 ↔ block = 0 := by
        rw [Nat.mul_eq_zero]
        omega
      have share : (kBlockTask cfg task (block * cfg.kBlock)).beta = if block = 0 then task.beta else 1 := if_congr first rfl rfl
      rw [taskTarget, apply_scalar_value, share]
      rfl
    rw [turns, scaled_accumulate _ blocks]
    simp only [block_task_sum]
    rw [block_sum task.k cfg.kBlock some (fun p => task.a (matIndex task.lda cell.1 p) * task.bValue p cell.2)]
    rfl
  case isFalse => exact task_target_value task cell old

theorem task_rectangle {T : Type} (task : Task T) : rectangle 0 task.m task.n0 task.n1 = task.cells := by
  simp only [rectangle, Task.cells, Nat.zero_le, true_and]

theorem packed_task (precision : Precision) {cfg : PackedConfig} (checked : cfg.Checked) (env : PackEnv R) (site : Site)
    (task : Task R) (bound : task.m ≤ toUsize task.ldc) :
    Updates task.cells (cellAddress task.ldc) task.value (packedNoTransReal precision cfg env site task) :=
  (packed_real precision cfg checked.tiles env site task bound).congr (task_rectangle task)
    (fun cell old _ => packed_target_value cfg task cell old)

theorem generic_task (precision : Precision) (task : Task R) (bound : task.m ≤ toUsize task.ldc)
    (natural : task.bLayout = .noTrans) :
    Updates task.cells (cellAddress task.ldc) task.value (genericNoTransReal precision task) :=
  (generic_real task natural bound precision).congr (task_rectangle task) (fun cell old _ => task_target_value task cell old)

end Exact

section Cleared

theorem task_target_cleared (task : Task T) (cleared : task.beta = 0) (cell : Nat × Nat) (old old' : T) :
    taskTarget task cell old = taskTarget task cell old' := by
  simp only [taskTarget, applyScalar, scaleOldScalar, if_pos cleared]

theorem packed_target_cleared (cfg : PackedConfig) (task : Task T) (cleared : task.beta = 0) (cell : Nat × Nat) (old old' : T) :
    packedTarget cfg task cell old = packedTarget cfg task cell old' := by
  rw [packedTarget, packedTarget]
  split
  case isTrue blocked =>
    have some : 0 < cfg.kBlock := Nat.pos_of_ne_zero blocked.1
    have blocks : 0 < strideCount 0 task.k cfg.kBlock := by
      rw [stride_count_iff 0 task.k cfg.kBlock 0 some]
      omega
    have first := task_target_cleared (kBlockTask cfg task (0 * cfg.kBlock)) ((if_pos (Nat.zero_mul _)).trans cleared) cell old old'
    have length : strideCount 0 task.k cfg.kBlock = 1 + (strideCount 0 task.k cfg.kBlock - 1) := by omega
    rw [blockedTarget, blockedTarget, length, loop_split, loop_split, loop_succ, loop_succ, loop_zero, loop_zero, first]
  case isFalse => exact task_target_cleared task cleared cell old old'

end Cleared

-- V needs no law that lets a product with a zero beta be dropped.
theorem packed_kernel_product {R V : Type} [CommRing R] [DecidableEq R] [AddCommMonoid V] [CommMagma V] [One V] [DecidableEq V]
    (precision : Precision) (cfg : PackedConfig) (checked : cfg.Checked) (site : Site) :
    (∀ (env : PackEnv R) (task : Task R), task.m ≤ toUsize task.ldc →
      Updates task.cells (cellAddress task.ldc) task.value (packedNoTransReal precision cfg env site task) ∧
      Updates task.cells (cellAddress task.ldc) task.value (fallbackReal precision task)) ∧
    (∀ task : Task R, task.m ≤ toUsize task.ldc → task.bLayout = .noTrans →
      Updates task.cells (cellAddress task.ldc) task.value (genericNoTransReal precision task) ∧
      (∀ basic : BasicConfig, Updates task.cells (cellAddress task.ldc) task.value (basicNoTransReal basic task)) ∧
      (task.m = 1 → Updates task.cells (cellAddress task.ldc) task.value (rowVectorColumns precision task))) ∧
    (∀ (task : Task R) (block : Nat), cfg.kBlock ≠ 0 →
      (kBlockTask cfg task (block * cfg.kBlock)).beta = if block = 0 then task.beta else 1) ∧
    (∀ (env : PackEnv V) (task : Task V), task.m ≤ toUsize task.ldc → task.beta = 0 → ∀ (c c' : Mem V) cell, cell ∈ task.cells →
      packedNoTransReal precision cfg env site task c (cellAddress task.ldc cell) =
        packedNoTransReal precision cfg env site task c' (cellAddress task.ldc cell) ∧
      fallbackReal precision task c (cellAddress task.ldc cell) = fallbackReal precision task c' (cellAddress task.ldc cell) ∧
      (task.bLayout = .noTrans → genericNoTransReal precision task c (cellAddress task.ldc cell) =
        genericNoTransReal precision task c' (cellAddress task.ldc cell))) := by
  refine ⟨fun env task bound => ⟨packed_task precision checked env site task bound, ?_⟩,
    fun task bound natural => ⟨generic_task precision task bound natural, fun basic => ?_, fun single => ?_⟩, ?_, ?_⟩
  · exact (fallback_real task bound precision).congr (task_rectangle task) (fun cell old _ => task_target_value task cell old)
  · exact (basic_real task natural bound basic).congr (task_rectangle task) (fun cell old _ => task_target_value task cell old)
  · exact (row_vector task natural bound precision single).congr (task_rectangle task)
      (fun cell old _ => task_target_value task cell old)
  · intro task block some
    refine if_congr ?_ rfl rfl
    rw [Nat.mul_eq_zero]
    omega
  · intro env task bound cleared c c' cell member
    rw [← task_rectangle] at member
    have packed := packed_real precision cfg checked.tiles env site task bound
    have fallback := fallback_real task bound precision
    refine ⟨?_, ?_, fun natural => ?_⟩
    · rw [packed.written c cell member, packed.written c' cell member]
      exact packed_target_cleared cfg task cleared cell _ _
    · rw [fallback.written c cell member, fallback.written c' cell member]
      exact task_target_cleared task cleared cell _ _
    · have generic := generic_real task natural bound precision
      rw [generic.written c cell member, generic.written c' cell member]
      exact task_target_cleared task cleared cell _ _

-- Two blocks of the inner dimension, paired loads, packed rows that cannot be had.
theorem packed_kernel_product_blocked :
    let cfg : PackedConfig := ⟨2, 4, 2, 2, 1, 64, true, false, true, true, 2⟩
    let env : PackEnv Int := ⟨fun _ => false, fun _ _ => -1, 0⟩
    let plan : ExecutionPlan := ⟨.none, false, .natural⟩
    let task : Task Int := ⟨65, 1, 27, 3, 2, fun p => p, 65, fun p => p + 1, 3, .noTrans, 3, 0, 70, false, .auto, plan⟩
    let cleared : Task (WithNan Int) :=
      ⟨65, 1, 27, 3, 1, fun p => .number p, 65, fun p => .number p, 3, .noTrans, 0, 0, 70, false, .auto, plan⟩
    packedNoTransReal .double cfg env [] task (fun _ => 1) (cellAddress 70 (64, 26)) = 2 * (64 * 79 + 129 * 80 + 194 * 81) + 3 ∧
      packedNoTransReal .double cfg ⟨fun _ => false, fun _ _ => .nan, 0⟩ [] cleared (fun _ => .nan) (cellAddress 70 (64, 26)) =
        packedNoTransReal .double cfg ⟨fun _ => false, fun _ _ => .nan, 0⟩ [] cleared (fun _ => 0) (cellAddress 70 (64, 26)) := by
  have product := packed_kernel_product (R := Int) (V := WithNan Int) .double ⟨2, 4, 2, 2, 1, 64, true, false, true, true, 2⟩
    ⟨by decide, by decide, by decide, by decide, by decide, by decide⟩ []
  intro cfg env plan task cleared
  have exact := (product.1 env task (by decide)).1.written (fun _ => 1) (64, 26) ⟨by decide, by decide, by decide⟩
  have value : task.value (64, 26) 1 = 2 * (64 * 79 + 129 * 80 + 194 * 81) + 3 := by decide +kernel
  exact ⟨exact.trans value,
    (product.2.2.2 _ cleared (by decide) rfl (fun _ => .nan) (fun _ => 0) (64, 26) ⟨by decide, by decide, by decide⟩).1⟩

end Zynum.PackedSimd
