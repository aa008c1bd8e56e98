import Zynum.MatrixMatrix.PackedSimdPanels

set_option autoImplicit false

/- The rows of one column panel: full register tiles, the narrower groups, the short
   vectors and the single rows write each row of the panel's columns once. -/
namespace Zynum.PackedSimd

open ArrayProgram

variable {T : Type} [AddCommMonoid T] [CommMagma T] [One T] [DecidableEq T]

-- What the packed kernel asks of a configuration.
structure Tiles (cfg : PackedConfig) : Prop where
  lanes : 0 < cfg.laneCount
  groups : 0 < cfg.rowGroups
  pairs : cfg.pairedBLoad = true → cfg.tileN % 2 = 0

theorem PackedConfig.Checked.tiles {cfg : PackedConfig} (checked : cfg.Checked) : Tiles cfg :=
  ⟨checked.lanes, checked.groups, fun paired => (checked.pairs paired).2⟩

theorem tiles_tail (cfg : PackedConfig) (some : 0 < cfg.tailVectorLanes) : Tiles (tailConfig cfg) :=
  ⟨some, Nat.one_pos, nofun⟩

theorem tiles_with_width {cfg : PackedConfig} (tiles : Tiles cfg) (width : Nat) : Tiles (withTile cfg width) :=
  ⟨tiles.lanes, tiles.groups, nofun⟩

section Registers

variable (task : Task T) (panel : Mem T)

def registerValue (cfg : PackedConfig) (i p : Nat) (cell : Nat × Nat) (old : Nat → T) : Nat → T := fun lane =>
  loadVec task.a task.lda (i + cell.1 * cfg.laneCount) p lane * panel (p * cfg.tileN + cell.2) + old lane

omit [One T] [DecidableEq T] in
theorem accumulate_paired (cfg : PackedConfig) (tiles : Tiles cfg) (groups i : Nat) :
    accumulatePackedP cfg groups cfg.pairedBLoad task panel i = accumulatePackedP cfg groups false task panel i := by
  funext p acc
  cases paired : cfg.pairedBLoad with
  | false => rfl
  | true =>
    have even := Nat.div_add_mod' cfg.tileN 2
    rw [tiles.pairs paired, Nat.add_zero] at even
    unfold accumulatePackedP
    simp only [if_pos, if_neg Bool.false_ne_true, Nat.add_assoc]
    rw [loop_blocks (cfg.tileN / 2) 2 (fun col acc => loop groups (fun group (acc : Nat × Nat → Nat → T) =>
      Function.update acc (group, col) (fun lane => loadVec task.a task.lda (i + group * cfg.laneCount) p lane *
        panel (p * cfg.tileN + col) + acc (group, col) lane)) acc), even]

omit [One T] [DecidableEq T] in
theorem accumulate_updates (cfg : PackedConfig) (groups i p : Nat) :
    Updates {cell : Nat × Nat | cell.1 < groups ∧ cell.2 < cfg.tileN} (fun cell => cell) (registerValue task panel cfg i p)
      (accumulatePackedP cfg groups false task panel i p) :=
  updates_grid groups cfg.tileN (fun cell : Nat × Nat => cell) (registerValue task panel cfg i p) Function.injective_id.injOn

omit [One T] [DecidableEq T] in
theorem kernel_registers (cfg : PackedConfig) (tiles : Tiles cfg) (groups i j : Nat) (holds : PanelHolds cfg.tileN task j panel)
    (group col lane : Nat) (inGroups : group < groups) (inTile : col < cfg.tileN) :
    loopRange (fitEnd 0 task.k cfg.kUnroll) task.k (fun p => accumulatePackedP cfg groups cfg.pairedBLoad task panel i p)
        (fitLoop 0 task.k cfg.kUnroll (fun p =>
          loop cfg.kUnroll (fun u => accumulatePackedP cfg groups false task panel i (p + u))) (fun _ _ => 0)) (group, col) lane =
      taskSum task (i + group * cfg.laneCount + lane, j + col) := by
  rw [accumulate_paired task panel cfg tiles, unrolled_loop, fold_cells task.k _ (registerValue task panel cfg i) _
    (fun p _ => accumulate_updates task panel cfg groups i p)
    (group, col) ⟨inGroups, inTile⟩]
  have lanes := products_lanes task.k (fun p lane => loadVec task.a task.lda (i + group * cfg.laneCount) p lane *
    panel (p * cfg.tileN + col)) lane
  refine lanes.trans (Finset.sum_congr rfl (fun p member => ?_))
  have place : matIndex task.lda (i + group * cfg.laneCount) p + lane = matIndex task.lda (i + group * cfg.laneCount + lane) p := by
    simp only [matIndex]
    omega
  rw [loadVec, place, holds p col (Finset.mem_range.mp member) inTile]

end Registers

section Rows

variable (task : Task T) (panel : Mem T) (bound : task.m ≤ toUsize task.ldc) (directStore : Bool)
  (direct : StoresDirectly task directStore)

include bound direct

theorem kernel_packed (cfg : PackedConfig) (tiles : Tiles cfg) (groups i j : Nat) (holds : PanelHolds cfg.tileN task j panel)
    (inside : i + cfg.laneCount * groups ≤ task.m) :
    Updates (rectangle i (i + cfg.laneCount * groups) j (j + cfg.tileN)) (cellAddress task.ldc) (taskTarget task)
      (kernelPacked cfg groups directStore task panel i j) := by
  have injective := cell_address_injective task.ldc task.m bound
  have step : ∀ group, i + (group + 1) * cfg.laneCount = i + group * cfg.laneCount + cfg.laneCount := by
    intro group
    rw [Nat.succ_mul, Nat.add_assoc]
  have all : i + groups * cfg.laneCount = i + cfg.laneCount * groups := by rw [Nat.mul_comm]
  have grown : ∀ group, group < groups → i + (group + 1) * cfg.laneCount ≤ i + groups * cfg.laneCount := fun group small =>
    Nat.add_le_add_left (Nat.mul_le_mul_right cfg.laneCount small) i
  have strips := (rows_loop groups (fun group => i + group * cfg.laneCount) _ j (j + cfg.tileN) injective
    (fun group _ => (step group) ▸ Nat.le_add_right _ _) (all ▸ inside) (fun group small => by
      have strip := (columns_loop cfg.tileN (fun col => j + col) _ (i + group * cfg.laneCount) (i + (group + 1) * cfg.laneCount)
        injective (fun col _ => Nat.le_succ _) ((grown group small).trans (all ▸ inside)) (fun col inTile => by
          rw [step group]
          exact write_vector task directStore direct cfg.laneCount (i + group * cfg.laneCount) (j + col) _ (fun lane _ =>
            kernel_registers task panel cfg tiles groups i j holds group col lane small inTile))).1
      exact strip)).1
  simp only [Nat.zero_mul, Nat.add_zero, all] at strips
  exact strips

theorem tail_rows_scalar (cfg : PackedConfig) (first j : Nat) (holds : PanelHolds cfg.tileN task j panel) (ordered : first ≤ task.m) :
    Updates (rectangle first task.m j (j + cfg.tileN)) (cellAddress task.ldc) (taskTarget task)
      (tailRowsScalarPacked cfg directStore task panel first j) := by
  have injective := cell_address_injective task.ldc task.m bound
  change Updates _ _ _ (fun c => tailRowsScalarPacked cfg directStore task panel first j c)
  unfold tailRowsScalarPacked
  refine rows_range first _ j (j + cfg.tileN) injective ordered (fun i _ inside => ?_)
  have strip := (columns_loop cfg.tileN (fun col => j + col) _ i (i + 1) injective (fun col _ => Nat.le_succ _) inside
    (fun col inTile => write_scalar task directStore direct i (j + col) _ ((register_row task.k cfg.tileN
      (fun p col old => task.a (matIndex task.lda i p) * panel (p * cfg.tileN + col) + old) (fun _ => 0) col inTile).trans
        ((products_sum task.k (fun p => task.a (matIndex task.lda i p) * panel (p * cfg.tileN + col))).trans
          (Finset.sum_congr rfl (fun p member => by rw [holds p col (Finset.mem_range.mp member) inTile])))))).1
  exact strip

theorem tail_rows (cfg : PackedConfig) (tiles : Tiles cfg) (groups first j : Nat) (holds : PanelHolds cfg.tileN task j panel)
    (ordered : first ≤ task.m) :
    Updates (rectangle first task.m j (j + cfg.tileN)) (cellAddress task.ldc) (taskTarget task)
      (tailRowsPacked cfg directStore task panel j groups first) := by
  have injective := cell_address_injective task.ldc task.m bound
  induction groups generalizing first with
  | zero =>
    change Updates _ _ _ (fun c => tailRowsPacked cfg directStore task panel j 0 first c)
    unfold tailRowsPacked
    by_cases some : cfg.tailVectorLanes ≠ 0
    · simp only [if_pos some]
      have inside := fit_end_inside first task.m cfg.tailVectorLanes ordered
      have short := rows_fit first cfg.tailVectorLanes (fun i => kernelPacked (tailConfig cfg) 1 directStore task panel i j) j
        (j + cfg.tileN) injective ordered (fun i _ small => by
          have tile := kernel_packed task panel bound directStore direct (tailConfig cfg)
            (tiles_tail cfg (Nat.pos_of_ne_zero some)) 1 i j holds (by
              simp only [tailConfig, Nat.mul_one]
              exact small)
          simp only [tailConfig, Nat.mul_one] at tile
          exact tile)
      have joined := rows_then injective short (tail_rows_scalar task panel bound directStore direct cfg _ j holds inside.2)
        inside.1 inside.2 (Nat.le_refl _)
      exact joined
    · simp only [if_neg some]
      exact tail_rows_scalar task panel bound directStore direct cfg first j holds ordered
  | succ groups ih =>
    have inside := fit_end_inside first task.m (cfg.laneCount * (groups + 1)) ordered
    have full := rows_fit first (cfg.laneCount * (groups + 1)) (fun i => kernelPacked cfg (groups + 1) directStore task panel i j)
      j (j + cfg.tileN) injective ordered (fun i _ small =>
        kernel_packed task panel bound directStore direct cfg tiles (groups + 1) i j holds small)
    have joined := rows_then injective full (ih (fitEnd first task.m (cfg.laneCount * (groups + 1))) inside.2) inside.1 inside.2
      (Nat.le_refl _)
    exact joined

theorem run_prepared_panel (cfg : PackedConfig) (tiles : Tiles cfg) (j : Nat) (holds : PanelHolds cfg.tileN task j panel) :
    Updates (rectangle 0 task.m j (j + cfg.tileN)) (cellAddress task.ldc) (taskTarget task)
      (runPreparedPanel cfg directStore task panel j) := by
  have injective := cell_address_injective task.ldc task.m bound
  have inside := fit_end_inside 0 task.m (cfg.laneCount * cfg.rowGroups) (Nat.zero_le _)
  have full := rows_fit 0 (cfg.laneCount * cfg.rowGroups) (fun i => kernelPacked cfg cfg.rowGroups directStore task panel i j)
    j (j + cfg.tileN) injective (Nat.zero_le _) (fun i _ small =>
      kernel_packed task panel bound directStore direct cfg tiles cfg.rowGroups i j holds small)
  have joined := rows_then injective full (tail_rows task panel bound directStore direct cfg tiles (cfg.rowGroups - 1) _ j holds
    inside.2) inside.1 inside.2 (Nat.le_refl _)
  exact joined

end Rows

end Zynum.PackedSimd
