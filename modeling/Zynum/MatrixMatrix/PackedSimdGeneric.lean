import Zynum.MatrixMatrix.PackedSimdPanels

set_option autoImplicit false

/- The portable kernels and the packed kernel's own fallback write a task's columns once. -/
namespace Zynum.PackedSimd

open ArrayProgram

theorem columns_fit_then {T : Type} {address : Nat × Nat → Nat} {value : Nat × Nat → T → T} {m : Nat} (first last step i0 i1 : Nat)
    (run : Nat → Mem T → Mem T) (rest : Mem T → Mem T) (injective : Set.InjOn address {cell | cell.1 < m}) (inside : i1 ≤ m)
    (each : ∀ col, first ≤ col → col + step ≤ last → Updates (rectangle i0 i1 col (col + step)) address value (run col))
    (tail : Updates (rectangle i0 i1 (fitEnd first last step) last) address value rest) :
    Updates (rectangle i0 i1 first last) address value (fun c => rest (fitLoop first last step run c)) := by
  by_cases ordered : first ≤ last
  · have bounds := fit_end_inside first last step ordered
    exact columns_then injective (columns_fit first last step run i0 i1 injective inside each) tail bounds.1 bounds.2 inside
  · have none : last - first = 0 := by omega
    have start : fitEnd first last step = first := by rw [fitEnd, none, Nat.zero_div, Nat.zero_mul, Nat.add_zero]
    rw [start] at tail
    refine tail.congr_run (fun c => ?_)
    rw [fitLoop, none, Nat.zero_div, loop_zero]

variable {T : Type} [AddCommMonoid T] [CommMagma T] [One T] [DecidableEq T]

section Kernels

omit [One T] [DecidableEq T] in
theorem dot_contiguous (lanes : Nat) (a b : Mem T) (len : Nat) :
    dotContiguous lanes a b len = ∑ p ∈ Finset.range len, a p * b p := by
  have inside := (fit_end_inside 0 len lanes (Nat.zero_le len)).2
  have blocks : fitEnd 0 len lanes = len / lanes * lanes := by rw [fitEnd, Nat.sub_zero, Nat.zero_add]
  have lane : ∀ l, fitLoop 0 len lanes (fun p (acc : Nat → T) => fun lane => a (p + lane) * b (p + lane) + acc lane) (fun _ => 0) l =
      ∑ turn ∈ Finset.range (len / lanes), a (turn * lanes + l) * b (turn * lanes + l) := by
    intro l
    rw [fitLoop, Nat.sub_zero]
    simp only [Nat.zero_add]
    exact products_lanes (len / lanes) (fun turn l => a (turn * lanes + l) * b (turn * lanes + l)) l
  have whole : loop lanes (fun l sum => sum + ∑ turn ∈ Finset.range (len / lanes), a (turn * lanes + l) * b (turn * lanes + l)) 0 =
      ∑ p ∈ Finset.range (fitEnd 0 len lanes), a p * b p := by
    rw [loop_accumulate, zero_add, blocks]
    exact lane_blocks_sum (len / lanes) lanes (fun p => a p * b p)
  have rest : ∀ sum : T, loopRange (fitEnd 0 len lanes) len (fun p sum => a p * b p + sum) sum =
      sum + ∑ p ∈ Finset.Ico (fitEnd 0 len lanes) len, a p * b p := by
    intro sum
    rw [← loop_range_accumulate]
    exact loop_congr _ _ _ _ (fun p sum _ => add_comm _ _)
  simp only [dotContiguous, lane, whole, rest]
  exact Finset.sum_range_add_sum_Ico _ inside

variable (task : Task T) (natural : task.bLayout = .noTrans) (bound : task.m ≤ toUsize task.ldc) (directStore : Bool)
  (direct : StoresDirectly task directStore)

omit [One T] [DecidableEq T] in
theorem natural_sum (natural : task.bLayout = .noTrans) (row col : Nat) :
    ∑ p ∈ Finset.range task.k, task.a (matIndex task.lda row p) * task.b (matIndex task.ldb p col) = taskSum task (row, col) :=
  Finset.sum_congr rfl (fun p _ => by rw [Task.bValue, natural])

include natural bound direct

theorem row_vector_columns (precision : Precision) (single : task.m = 1) :
    Updates (rectangle 0 task.m task.n0 task.n1) (cellAddress task.ldc) (taskTarget task)
      (rowVectorColumnsImpl precision directStore task) := by
  change Updates _ _ _ (fun c => rowVectorColumnsImpl precision directStore task c)
  unfold rowVectorColumnsImpl
  refine columns_range task.n0 task.n1 _ 0 task.m (cell_address_injective task.ldc task.m bound) (Nat.le_refl _) (fun j _ _ => ?_)
  rw [single]
  refine write_scalar task directStore direct 0 j _ ?_
  rw [← natural_sum task natural]
  have column : ∀ p, view task.b (matIndex task.ldb 0 j) p = task.b (matIndex task.ldb p j) := by
    intro p
    simp only [view_apply, matIndex, Nat.zero_add, Nat.add_comm]
  split
  case isTrue unit =>
    rw [dot_contiguous]
    refine Finset.sum_congr rfl (fun p _ => ?_)
    rw [column]
    simp only [matIndex, unit, Nat.zero_add, Nat.mul_one]
  case isFalse =>
    rw [dotStridedA, products_sum]
    exact Finset.sum_congr rfl (fun p _ => by rw [column])

theorem kernel_vec (cfg : BasicConfig) (row col : Nat) (inside : row + cfg.vectorLanes ≤ task.m) :
    Updates (rectangle row (row + cfg.vectorLanes) col (col + cfg.tileN)) (cellAddress task.ldc) (taskTarget task)
      (kernelVec cfg directStore task row col) := by
  let step := fun p (acc : Nat → Nat → T) => loop cfg.tileN (fun lane (acc : Nat → Nat → T) =>
    Function.update acc lane (fun l => loadVec task.a task.lda row p l * task.b (matIndex task.ldb p (col + lane)) + acc lane l)) acc
  have registers : ∀ lane l, lane < cfg.tileN →
      loop task.k step (fun _ _ => 0) lane l = taskSum task (row + l, col + lane) := by
    intro lane l inTile
    rw [register_row task.k cfg.tileN (fun p lane old l => loadVec task.a task.lda row p l *
      task.b (matIndex task.ldb p (col + lane)) + old l) (fun _ _ => 0) lane inTile]
    refine (products_lanes task.k (fun p l => loadVec task.a task.lda row p l * task.b (matIndex task.ldb p (col + lane))) l).trans ?_
    rw [← natural_sum task natural]
    refine Finset.sum_congr rfl (fun p _ => ?_)
    have place : matIndex task.lda row p + l = matIndex task.lda (row + l) p := by
      simp only [matIndex]
      omega
    rw [loadVec, place]
  have strip := (columns_loop cfg.tileN (fun lane => col + lane) _ row (row + cfg.vectorLanes)
    (cell_address_injective task.ldc task.m bound) (fun lane _ => Nat.le_succ _) inside (fun lane inTile =>
      write_vector task directStore direct cfg.vectorLanes row (col + lane) _ (fun l _ =>
        (congrFun (congrFun (unrolled_loop task.k cfg.kUnroll step (fun _ _ => 0)) lane) l).trans (registers lane l inTile)))).1
  exact strip

theorem kernel_scalar_rows (cfg : BasicConfig) (first col : Nat) (ordered : first ≤ task.m) :
    Updates (rectangle first task.m col (col + cfg.tileN)) (cellAddress task.ldc) (taskTarget task)
      (kernelScalarRows cfg directStore task first col) := by
  have injective := cell_address_injective task.ldc task.m bound
  change Updates _ _ _ (fun c => kernelScalarRows cfg directStore task first col c)
  unfold kernelScalarRows
  refine rows_range first _ col (col + cfg.tileN) injective ordered (fun row _ inside => ?_)
  let step := fun p (acc : Nat → T) => loop cfg.tileN (fun lane acc =>
    Function.update acc lane (task.a (matIndex task.lda row p) * task.b (matIndex task.ldb p (col + lane)) + acc lane)) acc
  have registers : ∀ lane, lane < cfg.tileN → loop task.k step (fun _ => 0) lane = taskSum task (row, col + lane) := by
    intro lane inTile
    rw [register_row task.k cfg.tileN (fun p lane old => task.a (matIndex task.lda row p) *
      task.b (matIndex task.ldb p (col + lane)) + old) (fun _ => 0) lane inTile, ← natural_sum task natural]
    exact products_sum task.k (fun p => task.a (matIndex task.lda row p) * task.b (matIndex task.ldb p (col + lane)))
  have strip := (columns_loop cfg.tileN (fun lane => col + lane) _ row (row + 1) injective (fun lane _ => Nat.le_succ _) inside
    (fun lane inTile => write_scalar task directStore direct row (col + lane) _
      ((congrFun (unrolled_loop task.k cfg.kUnroll step (fun _ => 0)) lane).trans (registers lane inTile)))).1
  exact strip

omit natural in
theorem each_element (first last : Nat) (sum : Nat → Nat → T) (exact : ∀ row col, sum row col = taskSum task (row, col)) :
    Updates (rectangle 0 task.m first last) (cellAddress task.ldc) (taskTarget task)
      (loopRange first last (fun col => loop task.m (fun row => writeScalarEpilogue task directStore row col (sum row col)))) := by
  have injective := cell_address_injective task.ldc task.m bound
  refine columns_range first last _ 0 task.m injective (Nat.le_refl _) (fun col _ _ => ?_)
  exact (rows_loop task.m (fun row => row) _ col (col + 1) injective (fun row _ => Nat.le_succ row) (Nat.le_refl _)
    (fun row _ => write_scalar task directStore direct row col _ (exact row col))).1

theorem basic_columns (cfg : BasicConfig) :
    Updates (rectangle 0 task.m task.n0 task.n1) (cellAddress task.ldc) (taskTarget task)
      (basicNoTransRealImpl cfg directStore task) := by
  have injective := cell_address_injective task.ldc task.m bound
  have inside := fit_end_inside 0 task.m cfg.vectorLanes (Nat.zero_le _)
  refine columns_fit_then task.n0 task.n1 cfg.tileN 0 task.m _ _ injective (Nat.le_refl _) (fun col _ _ => ?_) ?_
  · have vectors := rows_fit 0 cfg.vectorLanes (fun row => kernelVec cfg directStore task row col) col (col + cfg.tileN) injective
      (Nat.zero_le _) (fun row _ small => kernel_vec task natural bound directStore direct cfg row col small)
    exact rows_then injective vectors (kernel_scalar_rows task natural bound directStore direct cfg _ col inside.2) inside.1 inside.2
      (Nat.le_refl _)
  · exact each_element task bound directStore direct _ task.n1 _ (fun row col =>
      (products_sum task.k _).trans (natural_sum task natural row col))

omit directStore direct in
theorem basic_real (cfg : BasicConfig) :
    Updates (rectangle 0 task.m task.n0 task.n1) (cellAddress task.ldc) (taskTarget task) (basicNoTransReal cfg task) :=
  updates_guard (task.alpha = 1 ∧ task.beta = 0) (fun test => basic_columns task natural bound true (fun _ => test) cfg)
    (fun _ => basic_columns task natural bound false nofun cfg)

omit directStore direct in
theorem row_vector (precision : Precision) (single : task.m = 1) :
    Updates (rectangle 0 task.m task.n0 task.n1) (cellAddress task.ldc) (taskTarget task) (rowVectorColumns precision task) :=
  updates_guard (task.alpha = 1 ∧ task.beta = 0)
    (fun test => row_vector_columns task natural bound true (fun _ => test) precision single)
    (fun _ => row_vector_columns task natural bound false nofun precision single)

omit directStore direct in
theorem generic_real (precision : Precision) :
    Updates (rectangle 0 task.m task.n0 task.n1) (cellAddress task.ldc) (taskTarget task) (genericNoTransReal precision task) := by
  have basic := basic_real task natural bound
  have row := row_vector task natural bound
  refine updates_guard (precision = .single) (fun _ => ?_) (fun _ => ?_)
  · change Updates _ _ _ (fun c => genericNoTransRealF32 task c)
    unfold genericNoTransRealF32
    refine updates_guard _ (fun single => row _ single.1) (fun _ => ?_)
    repeat refine updates_guard _ (fun _ => basic _) (fun _ => ?_)
    exact basic _
  · change Updates _ _ _ (fun c => genericNoTransRealF64 task c)
    unfold genericNoTransRealF64
    refine updates_guard _ (fun single => row _ single.1) (fun _ => ?_)
    repeat refine updates_guard _ (fun _ => basic _) (fun _ => ?_)
    exact basic _

omit natural in
theorem fallback_columns (precision : Precision) :
    Updates (rectangle 0 task.m task.n0 task.n1) (cellAddress task.ldc) (taskTarget task)
      (fallbackRealImpl precision directStore task) := by
  refine updates_guard (task.bLayout = .noTrans) (fun natural => generic_real task natural bound precision) (fun _ => ?_)
  exact each_element task bound directStore direct task.n0 task.n1 _ (fun row col => products_sum task.k _)

omit natural directStore direct in
theorem fallback_real (precision : Precision) :
    Updates (rectangle 0 task.m task.n0 task.n1) (cellAddress task.ldc) (taskTarget task) (fallbackReal precision task) :=
  updates_guard (task.alpha = 1 ∧ task.beta = 0) (fun test => fallback_columns task bound true (fun _ => test) precision)
    (fun _ => fallback_columns task bound false nofun precision)

end Kernels

end Zynum.PackedSimd
