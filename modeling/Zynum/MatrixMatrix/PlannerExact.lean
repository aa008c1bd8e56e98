import Zynum.MatrixMatrix.Planner

set_option autoImplicit false

/- The tasks of a plan partition C, and running them in any order multiplies. -/
namespace Zynum

open ArrayProgram

section Splits

theorem div_ceil_covers (n block : Nat) (some : 0 < block) : n ≤ divCeil n block * block := by
  have whole : (n + block - 1) / block * block + (n + block - 1) % block = n + block - 1 := by
    rw [Nat.mul_comm]
    exact Nat.div_add_mod _ _
  have small := Nat.mod_lt (n + block - 1) some
  simp only [divCeil]
  omega

def columnBound (n count block : Nat) (task : Nat) : Nat := (alignedColumnSplit n task count block).n0

theorem aligned_column_next (n task count block : Nat) :
    (alignedColumnSplit n task count block).n1 = columnBound n count block (task + 1) := by
  simp only [columnBound, alignedColumnSplit]
  split <;> rfl

theorem aligned_columns_split (n count block : Nat) (some : 0 < count) :
    Splits count (columnBound n count block) 0 n := by
  by_cases single : max 1 block = 1
  · have plain : columnBound n count block = evenBound n count := by
      funext task
      simp only [columnBound, alignedColumnSplit, single, if_true, evenBound]
    rw [plain]
    exact even_splits n count some
  · have panels : columnBound n count block =
        fun task => min n (evenBound (divCeil n (max 1 block)) count task * max 1 block) := by
      funext task
      simp only [columnBound, alignedColumnSplit, single, if_false, evenBound]
    have even := even_splits (divCeil n (max 1 block)) count some
    have covered := div_ceil_covers n (max 1 block) (by omega)
    rw [panels]
    constructor
    · rw [even.start, Nat.zero_mul, Nat.min_zero]
    · rw [even.finish, Nat.min_eq_left covered]
    · intro piece small
      have step := Nat.mul_le_mul_right (max 1 block) (even.ordered piece small)
      exact min_le_min_left n step

theorem row_splits (m count : Nat) (some : 0 < count) : Splits count (fun task => (splitRows m task count).m0) 0 m :=
  even_splits m count some

end Splits

section Plans

theorem row_task_count_pos (desc : Descriptor) (threads columnTasks m n k : Nat) :
    0 < rowTaskCount desc threads columnTasks m n k := by
  simp only [rowTaskCount]
  split_ifs <;> omega

variable {T : Type} [Scalar T]

theorem plan_task_counts (profile : PlanningProfile T) (desc : Descriptor) (m n k : Nat) (alpha beta : T)
    (requested : Nat) :
    0 < (planForDescriptor profile desc m n k alpha beta requested).columnTasks ∧
      0 < (planForDescriptor profile desc m n k alpha beta requested).rowTasks := by
  refine ⟨?_, row_task_count_pos _ _ _ _ _ _⟩
  simp only [planForDescriptor]
  split <;> omega

omit [Scalar T] in
theorem best_candidate_feasible (candidates : List Descriptor) (feasible : Descriptor → Bool) (score : Descriptor → Int)
    (desc : Descriptor) (chosen : bestCandidate candidates feasible score = some desc) :
    desc ∈ candidates ∧ feasible desc = true := by
  obtain ⟨pair, folded, rfl⟩ := Option.map_eq_some_iff.mp chosen
  refine List.foldlRecOn (motive := fun best => ∀ pair, best = some pair → pair.1 ∈ candidates ∧ feasible pair.1 = true)
    candidates _ (fun _ empty => by cases empty) (fun best holds item inside => ?_) pair folded
  intro pair step
  cases fits : feasible item with
  | false =>
    simp only [fits, Bool.not_false, if_true] at step
    exact holds pair step
  | true =>
    have mine : item ∈ candidates ∧ feasible item = true := ⟨inside, fits⟩
    simp only [fits, Bool.not_true, Bool.false_eq_true, if_false] at step
    cases best with
    | none =>
      cases step
      exact mine
    | some old =>
      simp only at step
      split at step
      · cases step
        exact mine
      · exact holds pair step

theorem transposed_plan_supports (profile : PlanningProfile T) (candidates : List Descriptor) (m n k : Nat)
    (alpha beta : T) (requested : Nat) (plan : Plan)
    (selected : selectTransposedBReal profile candidates m n k alpha beta requested = some plan) :
    (∃ desc ∈ candidates, desc.kernel = plan.kernel.kernel ∧ desc.layoutTransposedB = true) ∧
      0 < plan.columnTasks ∧ 0 < plan.rowTasks := by
  obtain ⟨desc, chosen, rfl⟩ := Option.map_eq_some_iff.mp selected
  obtain ⟨member, fits⟩ := best_candidate_feasible _ _ _ desc chosen
  refine ⟨⟨desc, member, rfl, ?_⟩, plan_task_counts profile desc m n k alpha beta requested⟩
  simp only [isFeasible] at fits
  split_ifs at fits with _ _ _ layout
  all_goals simpa only [Bool.not_eq_true', Bool.not_eq_false] using layout

end Plans

section Ownership

-- The elements of C that task t of a plan owns, in the coordinates of the whole product.
def ownedCells (plan : Plan) (m n t : Nat) : Set (Nat × Nat) :=
  let rowTask := t / plan.columnTasks
  let columnTask := t - rowTask * plan.columnTasks
  let rows := splitRows m rowTask plan.rowTasks
  let cols := alignedColumnSplit n columnTask plan.columnTasks plan.columnBlock
  {cell | (rows.m0 ≤ cell.1 ∧ cell.1 < rows.m1) ∧ cols.n0 ≤ cell.2 ∧ cell.2 < cols.n1}

def matrixCells (m n : Nat) : Set (Nat × Nat) := {cell | cell.1 < m ∧ cell.2 < n}

theorem task_coordinates (columns t : Nat) : t - t / columns * columns = t % columns := by
  have whole := Nat.div_add_mod' t columns
  omega

theorem mem_owned_cells (plan : Plan) (m n t : Nat) (cell : Nat × Nat) :
    cell ∈ ownedCells plan m n t ↔
      cell.1 ∈ pieceOf (evenBound m plan.rowTasks) (t / plan.columnTasks) ∧
      cell.2 ∈ pieceOf (columnBound n plan.columnTasks plan.columnBlock) (t % plan.columnTasks) := by
  simp only [ownedCells, task_coordinates, aligned_column_next]
  exact Iff.rfl

theorem task_rows_columns (plan : Plan) (t : Nat) (small : t < plan.columnTasks * plan.rowTasks) :
    t / plan.columnTasks < plan.rowTasks ∧ t % plan.columnTasks < plan.columnTasks := by
  have some : 0 < plan.columnTasks := Nat.pos_of_ne_zero (fun none => by simp only [none, Nat.zero_mul, Nat.not_lt_zero] at small)
  exact ⟨Nat.div_lt_of_lt_mul small, Nat.mod_lt t some⟩

theorem owned_cells_apart (plan : Plan) (m n : Nat) (columns : 0 < plan.columnTasks) (rows : 0 < plan.rowTasks)
    (s t : Nat) (inFirst : s < plan.columnTasks * plan.rowTasks) (inSecond : t < plan.columnTasks * plan.rowTasks)
    (different : s ≠ t) : Disjoint (ownedCells plan m n s) (ownedCells plan m n t) := by
  obtain ⟨rowFirst, columnFirst⟩ := task_rows_columns plan s inFirst
  obtain ⟨rowSecond, columnSecond⟩ := task_rows_columns plan t inSecond
  rw [Set.disjoint_left]
  intro cell left right
  rw [mem_owned_cells] at left right
  by_cases sameRow : s / plan.columnTasks = t / plan.columnTasks
  · have otherColumn : s % plan.columnTasks ≠ t % plan.columnTasks := by
      intro sameColumn
      have first := Nat.div_add_mod' s plan.columnTasks
      have second := Nat.div_add_mod' t plan.columnTasks
      rw [sameRow, sameColumn, second] at first
      exact different first.symm
    have apart := (aligned_columns_split n plan.columnTasks plan.columnBlock columns).apart _ _ columnFirst columnSecond
      otherColumn
    exact Set.disjoint_left.mp apart left.2 right.2
  · have apart := (even_splits m plan.rowTasks rows).apart _ _ rowFirst rowSecond sameRow
    exact Set.disjoint_left.mp apart left.1 right.1

theorem owned_cells_cover (plan : Plan) (m n : Nat) (columns : 0 < plan.columnTasks) (rows : 0 < plan.rowTasks) :
    {cell | ∃ t, t < plan.columnTasks * plan.rowTasks ∧ cell ∈ ownedCells plan m n t} = matrixCells m n := by
  ext cell
  constructor
  · rintro ⟨t, small, member⟩
    obtain ⟨row, column⟩ := task_rows_columns plan t small
    rw [mem_owned_cells] at member
    exact ⟨((even_splits m plan.rowTasks rows).inside _ _ row member.1).2,
      ((aligned_columns_split n plan.columnTasks plan.columnBlock columns).inside _ _ column member.2).2⟩
  · rintro ⟨inRows, inColumns⟩
    obtain ⟨r, rowSmall, rowMember⟩ := (even_splits m plan.rowTasks rows).owner cell.1 (Nat.zero_le _) inRows
    obtain ⟨q, columnSmall, columnMember⟩ :=
      (aligned_columns_split n plan.columnTasks plan.columnBlock columns).owner cell.2 (Nat.zero_le _) inColumns
    have row : (q + plan.columnTasks * r) / plan.columnTasks = r := by
      rw [Nat.add_mul_div_left q r columns, Nat.div_eq_of_lt columnSmall, Nat.zero_add]
    have column : (q + plan.columnTasks * r) % plan.columnTasks = q := by
      rw [Nat.add_mul_mod_self_left, Nat.mod_eq_of_lt columnSmall]
    refine ⟨q + plan.columnTasks * r, ?_, ?_⟩
    · calc q + plan.columnTasks * r < plan.columnTasks + plan.columnTasks * r := Nat.add_lt_add_right columnSmall _
        _ = plan.columnTasks * (r + 1) := by ring
        _ ≤ plan.columnTasks * plan.rowTasks := Nat.mul_le_mul_left _ rowSmall
    · rw [mem_owned_cells, row, column]
      exact ⟨rowMember, columnMember⟩

end Ownership

section Product

variable {R : Type} [CommRing R] [Scalar R]

def layoutEntry (bLayout : BLayout) (b : Mem R) (ldb : Int) (p j : Nat) : R :=
  match bLayout with
  | .noTrans => b (matIndex ldb p j)
  | .trans => b (matIndex ldb j p)

def gemmValue (alpha : R) (left right : Nat → Nat → R) (k : Nat) (beta : R) (cell : Nat × Nat) (old : R) : R :=
  alpha * ∑ p ∈ Finset.range k, left cell.1 p * right p cell.2 + beta * old

omit [CommRing R] in
theorem make_task_fields (profile : PlanningProfile R) (plan : Plan) (m n0 n1 k : Nat) (alpha : R) (a : Mem R) (lda : Int)
    (b : Mem R) (ldb : Int) (bLayout : BLayout) (beta : R) (cOffset : Nat) (ldc : Int) (p j : Nat) :
    (makeTask profile plan m n0 n1 k alpha a lda b ldb bLayout beta cOffset ldc).bValue p j = layoutEntry bLayout b ldb p j := by
  cases bLayout <;> rfl

omit [CommRing R] in
-- Row r of the task's A is row m0 + r of A, and its C pointer moved by m0 rows
-- reaches element (m0 + r, j) of C from its own (r, j).
theorem planned_task_views (profile : PlanningProfile R) (plan : Plan) (m n k : Nat) (alpha : R) (a : Mem R) (lda : Int)
    (b : Mem R) (ldb : Int) (bLayout : BLayout) (beta : R) (ldc : Int) (t r p j : Nat) :
    let task := plannedTask profile plan m n k alpha a lda b ldb bLayout beta ldc t
    let m0 := (splitRows m (t / plan.columnTasks) plan.rowTasks).m0
    task.a (matIndex task.lda r p) = a (matIndex lda (m0 + r) p) ∧
      task.bValue p j = layoutEntry bLayout b ldb p j ∧
      task.cOffset + matIndex task.ldc r j = matIndex ldc (m0 + r) j := by
  refine ⟨?_, make_task_fields _ _ _ _ _ _ _ _ _ _ _ _ _ _ _ _ _, ?_⟩
  · change a (matIndex lda _ 0 + matIndex lda r p) = _
    congr 1
    simp only [matIndex]
    omega
  · change matIndex ldc _ 0 + matIndex ldc r j = _
    simp only [matIndex]
    omega

omit [CommRing R] in
theorem planned_task_image (profile : PlanningProfile R) (plan : Plan) (m n k : Nat) (alpha : R) (a : Mem R) (lda : Int)
    (b : Mem R) (ldb : Int) (bLayout : BLayout) (beta : R) (ldc : Int) (t : Nat) :
    (fun cell : Nat × Nat => ((splitRows m (t / plan.columnTasks) plan.rowTasks).m0 + cell.1, cell.2)) ''
      (plannedTask profile plan m n k alpha a lda b ldb bLayout beta ldc t).cells = ownedCells plan m n t := by
  let m0 := (splitRows m (t / plan.columnTasks) plan.rowTasks).m0
  let m1 := (splitRows m (t / plan.columnTasks) plan.rowTasks).m1
  ext ⟨i, j⟩
  simp only [Set.mem_image, Prod.mk.injEq, Prod.exists]
  constructor
  · rintro ⟨r, q, member, rfl, rfl⟩
    have local' : r < m1 - m0 := member.1
    exact ⟨⟨Nat.le_add_right _ _, by change m0 + r < m1; omega⟩, member.2⟩
  · rintro ⟨⟨lower, below⟩, columns⟩
    have lower' : m0 ≤ i := lower
    have below' : i < m1 := below
    exact ⟨i - m0, j, ⟨by change i - m0 < m1 - m0; omega, columns⟩, by change m0 + (i - m0) = i; omega, rfl⟩

theorem planned_task_updates (kernels : RealKernels R) (profile : PlanningProfile R) (plan : Plan) (m n k : Nat) (alpha : R)
    (a : Mem R) (lda : Int) (b : Mem R) (ldb : Int) (bLayout : BLayout) (beta : R) (ldc : Int) (t : Nat)
    (depth : 0 < k) (bound : m ≤ toUsize ldc) (rows : 0 < plan.rowTasks) (small : t < plan.columnTasks * plan.rowTasks)
    (supported : bLayout = .noTrans ∨ ∃ desc ∈ kernels.candidates,
      desc.kernel = plan.kernel.kernel ∧ desc.layoutTransposedB = true) :
    Updates (ownedCells plan m n t) (cellAddress ldc) (gemmValue alpha (fun i p => a (matIndex lda i p))
        (layoutEntry bLayout b ldb) k beta)
      (executeTask kernels (plannedTask profile plan m n k alpha a lda b ldb bLayout beta ldc t)) := by
  obtain ⟨rowSmall, _⟩ := task_rows_columns plan t small
  have last := (row_splits m plan.rowTasks rows).mono _ _ (Nat.succ_le_of_lt rowSmall) (Nat.le_refl _)
  rw [(row_splits m plan.rowTasks rows).finish] at last
  let m0 := (splitRows m (t / plan.columnTasks) plan.rowTasks).m0
  let m1 := (splitRows m (t / plan.columnTasks) plan.rowTasks).m1
  have upper : m1 ≤ m := last
  have inside : m1 - m0 ≤ toUsize ldc := (Nat.sub_le _ _).trans (upper.trans bound)
  have ran := (kernels.run_exact (plannedTask profile plan m n k alpha a lda b ldb bLayout beta ldc t) depth inside
    supported).on_tail (matIndex ldc m0 0)
  have views := fun r p j => planned_task_views profile plan m n k alpha a lda b ldb bLayout beta ldc t r p j
  have placed : Updates (plannedTask profile plan m n k alpha a lda b ldb bLayout beta ldc t).cells
      (fun cell => cellAddress ldc (m0 + cell.1, cell.2))
      (fun cell => gemmValue alpha (fun i p => a (matIndex lda i p)) (layoutEntry bLayout b ldb) k beta (m0 + cell.1, cell.2))
      (executeTask kernels (plannedTask profile plan m n k alpha a lda b ldb bLayout beta ldc t)) := by
    refine (ran.congr rfl (fun cell old _ => ?_)).congr_address (fun cell _ => (views cell.1 0 cell.2).2.2.symm)
    simp only [Task.value, gemmValue]
    congr 2
    exact Finset.sum_congr rfl (fun p _ => by rw [(views cell.1 p cell.2).1, (views cell.1 p cell.2).2.1])
  exact (placed.reindex (fun cell : Nat × Nat => (m0 + cell.1, cell.2))).congr
    (planned_task_image profile plan m n k alpha a lda b ldb bLayout beta ldc t) (fun _ _ _ => rfl)

theorem whole_task_updates (kernels : RealKernels R) (profile : PlanningProfile R) (plan : Plan) (m n k : Nat) (alpha : R)
    (a : Mem R) (lda : Int) (b : Mem R) (ldb : Int) (bLayout : BLayout) (beta : R) (ldc : Int)
    (depth : 0 < k) (bound : m ≤ toUsize ldc)
    (supported : bLayout = .noTrans ∨ ∃ desc ∈ kernels.candidates,
      desc.kernel = plan.kernel.kernel ∧ desc.layoutTransposedB = true) :
    Updates (matrixCells m n) (cellAddress ldc) (gemmValue alpha (fun i p => a (matIndex lda i p))
        (layoutEntry bLayout b ldb) k beta)
      (executeTask kernels (wholeTask profile plan m n k alpha a lda b ldb bLayout beta ldc)) := by
  have ran := (kernels.run_exact (wholeTask profile plan m n k alpha a lda b ldb bLayout beta ldc) depth bound
    supported).on_tail 0
  refine (ran.congr ?_ (fun cell old _ => ?_)).congr_address (fun cell _ => (Nat.zero_add _).symm)
  · ext cell
    exact ⟨fun member => ⟨member.1, member.2.2⟩, fun member => ⟨member.1, Nat.zero_le _, member.2⟩⟩
  · cases bLayout <;> rfl

theorem matrix_cells_injective (m n : Nat) (ldc : Int) (bound : m ≤ toUsize ldc) :
    Set.InjOn (cellAddress ldc) (matrixCells m n) :=
  (cell_address_injective ldc m bound).mono (fun _ member => member.1)

theorem planned_tasks_any_order (kernels : RealKernels R) (profile : PlanningProfile R) (plan : Plan) (m n k : Nat) (alpha : R)
    (a : Mem R) (lda : Int) (b : Mem R) (ldb : Int) (bLayout : BLayout) (beta : R) (ldc : Int) (depth : 0 < k)
    (bound : m ≤ toUsize ldc) (columns : 0 < plan.columnTasks) (rows : 0 < plan.rowTasks)
    (supported : bLayout = .noTrans ∨ ∃ desc ∈ kernels.candidates,
      desc.kernel = plan.kernel.kernel ∧ desc.layoutTransposedB = true)
    (order : List Nat) (complete : order.Perm (List.range (plan.columnTasks * plan.rowTasks))) :
    Updates (matrixCells m n) (cellAddress ldc) (gemmValue alpha (fun i p => a (matIndex lda i p))
        (layoutEntry bLayout b ldb) k beta)
      (fun c => order.foldl (fun current t =>
        executeTask kernels (plannedTask profile plan m n k alpha a lda b ldb bLayout beta ldc t) current) c) := by
  have covered := owned_cells_cover plan m n columns rows
  have whole := Updates.dispatch order (plan.columnTasks * plan.rowTasks) (ownedCells plan m n)
    (fun t => executeTask kernels (plannedTask profile plan m n k alpha a lda b ldb bLayout beta ldc t)) complete
    (fun t small => planned_task_updates kernels profile plan m n k alpha a lda b ldb bLayout beta ldc t depth bound rows
      small supported)
    (covered.symm ▸ matrix_cells_injective m n ldc bound)
    (fun s t inFirst inSecond different => owned_cells_apart plan m n columns rows s t inFirst inSecond different)
  exact whole.congr covered (fun _ _ _ => rfl)

theorem run_planned_tasks_updates (kernels : RealKernels R) (profile : PlanningProfile R) (rt : Runtime) (site : Site)
    (plan : Plan) (m n k : Nat) (alpha : R) (a : Mem R) (lda : Int) (b : Mem R) (ldb : Int) (bLayout : BLayout) (beta : R)
    (ldc : Int) (depth : 0 < k) (bound : m ≤ toUsize ldc) (columns : 0 < plan.columnTasks) (rows : 0 < plan.rowTasks)
    (supported : bLayout = .noTrans ∨ ∃ desc ∈ kernels.candidates,
      desc.kernel = plan.kernel.kernel ∧ desc.layoutTransposedB = true) :
    Updates (matrixCells m n) (cellAddress ldc) (gemmValue alpha (fun i p => a (matIndex lda i p))
        (layoutEntry bLayout b ldb) k beta)
      (fun c => runPlannedTasks kernels profile rt site plan m n k alpha a lda b ldb bLayout beta c ldc) := by
  have whole := whole_task_updates kernels profile plan m n k alpha a lda b ldb bLayout beta ldc depth bound supported
  have parallel := attempt_updates
    (fun c => rt.runTasks site (plan.columnTasks * plan.rowTasks) (fun t =>
      executeTask kernels (plannedTask profile plan m n k alpha a lda b ldb bLayout beta ldc t)) c)
    (fun before after accepted => by
      obtain ⟨order, complete, rfl⟩ := run_tasks_accepted accepted
      exact (planned_tasks_any_order kernels profile plan m n k alpha a lda b ldb bLayout beta ldc depth bound columns rows
        supported order complete).wrote before) whole
  by_cases direct : plan.columnTasks * plan.rowTasks ≤ 1 ∨
      (plan.columnTasks * plan.rowTasks > maxStackTasks ∧ rt.workspace site (plan.columnTasks * plan.rowTasks) = false) ∨
      plan.useParallelTasks = false
  · refine whole.congr_run (fun c => ?_)
    simp only [runPlannedTasks]
    split
    · rfl
    · split
      · rfl
      · rename_i several roomy
        have serial := (direct.resolve_left several).resolve_left roomy
        rw [if_neg (by rw [serial]; exact Bool.false_ne_true)]
  · refine parallel.congr_run (fun c => ?_)
    have several : ¬ plan.columnTasks * plan.rowTasks ≤ 1 := fun few => direct (Or.inl few)
    have roomy := fun full => direct (Or.inr (Or.inl full))
    have concurrent : plan.useParallelTasks = true := by
      cases flag : plan.useParallelTasks with
      | true => rfl
      | false => exact absurd (Or.inr (Or.inr flag)) direct
    simp only [runPlannedTasks]
    rw [if_neg several, if_neg roomy, if_pos concurrent]

end Product

section Entry

variable {R : Type} [CommRing R]

theorem pack_transposed_a_entry (m k : Nat) (a : Mem R) (lda : Int) (i p : Nat) (row : i < m) (depth : p < k) :
    packTransposedA m k a lda (matIndex m i p) = a (matIndex lda p i) := by
  have injective : Set.InjOn (fun cell : Nat × Nat => cell.2 * m + cell.1) {cell | cell.1 < m ∧ cell.2 < k} := by
    intro first inFirst second inSecond same
    refine mat_index_injective (m : Int) m (by rw [toUsize, Int.toNat_natCast]) inFirst.1 inSecond.1 ?_
    simp only [matIndex, toUsize, Int.toNat_natCast]
    simp only at same
    omega
  have stored := updates_grid m k (fun cell => cell.2 * m + cell.1) (fun cell _ => a (matIndex lda cell.2 cell.1)) injective
  have place : matIndex m i p = p * m + i := by
    simp only [matIndex, toUsize, Int.toNat_natCast]
    omega
  rw [place]
  exact stored.written (fun _ => 0) (i, p) ⟨row, depth⟩

theorem gemm_value_empty (alpha : R) (left right : Nat → Nat → R) (k : Nat) (beta : R) (cell : Nat × Nat) (old : R)
    (empty : k = 0 ∨ alpha = 0) : gemmValue alpha left right k beta cell old = beta * old := by
  rcases empty with rfl | rfl
  · simp only [gemmValue, Finset.range_zero, Finset.sum_empty, mul_zero, zero_add]
  · simp only [gemmValue, zero_mul, zero_add]

variable [Scalar R]

theorem selected_plan_supports (kernels : RealKernels R) (profile : PlanningProfile R) (m n k : Nat) (alpha beta : R)
    (requested : Nat) (packed : Bool) (plan : Plan)
    (selected : (if packed then selectTransposedBReal profile kernels.candidates m n k alpha beta requested
      else some (selectNoTransReal profile kernels.candidates kernels.base m n k alpha beta requested)) = some plan) :
    (packed = true → ∃ desc ∈ kernels.candidates, desc.kernel = plan.kernel.kernel ∧ desc.layoutTransposedB = true) ∧
      0 < plan.columnTasks ∧ 0 < plan.rowTasks := by
  cases packed with
  | true =>
    obtain ⟨supports, counts⟩ := transposed_plan_supports profile kernels.candidates m n k alpha beta requested plan selected
    exact ⟨fun _ => supports, counts⟩
  | false =>
    have same : selectNoTransReal profile kernels.candidates kernels.base m n k alpha beta requested = plan := by
      simpa only [Bool.false_eq_true, if_false, Option.some.injEq] using selected
    subst same
    exact ⟨fun asked => absurd asked Bool.false_ne_true, plan_task_counts _ _ _ _ _ _ _ _⟩

variable [LawfulScalar R]

theorem scale_matrix_updates (m n : Nat) (beta : R) (ldc : Int) (bound : m ≤ toUsize ldc) :
    Updates (matrixCells m n) (cellAddress ldc) (fun _ old => beta * old) (fun c => scaleMatrix m n beta c ldc) := by
  have stored := updates_grid m n (cellAddress ldc) (fun _ (old : R) => if isZero beta then 0 else beta * old)
    (matrix_cells_injective m n ldc bound)
  refine stored.congr rfl (fun _ old _ => ?_)
  split
  · rename_i nothing
    rw [(LawfulScalar.isZero_iff beta).mp nothing, zero_mul]
  · rfl

theorem matrix_cells_empty (m n : Int) (empty : m ≤ 0 ∨ n ≤ 0) : matrixCells (toUsize m) (toUsize n) = ∅ := by
  ext cell
  simp only [matrixCells, Set.mem_ofPred_eq, Set.mem_empty_iff_false, iff_false, toUsize]
  omega

theorem no_trans_real_with_layout_wrote (kernels : RealKernels R) (profile : PlanningProfile R) (rt : Runtime) (site : Site)
    (m n k : Int) (alpha : R) (a : Mem R) (lda : Int) (b : Mem R) (ldb : Int) (bLayout : BLayout) (beta : R)
    (c after : Mem R) (ldc : Int) (packed : Bool) (bound : toUsize m ≤ toUsize ldc)
    (layout : bLayout = .trans → packed = true)
    (ran : noTransRealWithBLayout kernels profile rt site m n k alpha a lda b ldb bLayout beta c ldc packed = some after) :
    Wrote (matrixCells (toUsize m) (toUsize n)) (cellAddress ldc)
      (gemmValue alpha (fun i p => a (matIndex lda i p)) (layoutEntry bLayout b ldb) (toUsize k) beta) c after := by
  unfold noTransRealWithBLayout at ran
  split at ran
  · rename_i empty
    cases ran
    rw [matrix_cells_empty m n empty]
    exact wrote_nothing _ _ _
  · simp only at ran
    split at ran
    · rename_i shortcut
      cases ran
      have empty : toUsize k = 0 ∨ alpha = 0 := shortcut.imp_right (LawfulScalar.isZero_iff alpha).mp
      exact ((scale_matrix_updates (toUsize m) (toUsize n) beta ldc bound).wrote c).congr
        (fun cell old _ => (gemm_value_empty _ _ _ _ _ _ _ empty).symm)
    · rename_i active
      have depth : 0 < toUsize k := Nat.pos_of_ne_zero (fun none => active (Or.inl none))
      split at ran
      · rename_i done answer
        cases ran
        split at answer
        · rename_i single
          have straight : bLayout = .noTrans := single.2
          rw [straight]
          exact kernels.fast_exact _ _ _ _ _ _ _ _ _ _ _ _ depth bound answer
        · cases answer
      · obtain ⟨plan, selected, rfl⟩ := Option.map_eq_some_iff.mp ran
        obtain ⟨supports, columns, rows⟩ := selected_plan_supports kernels profile _ _ _ _ _ _ packed plan selected
        have supported : bLayout = .noTrans ∨ ∃ desc ∈ kernels.candidates,
            desc.kernel = plan.kernel.kernel ∧ desc.layoutTransposedB = true := by
          cases bLayout with
          | noTrans => exact Or.inl rfl
          | trans => exact Or.inr (supports (layout rfl))
        exact (run_planned_tasks_updates kernels profile rt site plan _ _ _ alpha a lda b ldb bLayout beta ldc depth bound
          columns rows supported).wrote c

theorem no_trans_real_updates (kernels : RealKernels R) (profile : PlanningProfile R) (rt : Runtime) (site : Site)
    (m n k : Int) (alpha : R) (a : Mem R) (lda : Int) (b : Mem R) (ldb : Int) (beta : R) (ldc : Int)
    (bound : toUsize m ≤ toUsize ldc) :
    Updates (matrixCells (toUsize m) (toUsize n)) (cellAddress ldc)
      (gemmValue alpha (fun i p => a (matIndex lda i p)) (fun p j => b (matIndex ldb p j)) (toUsize k) beta)
      (fun c => noTransReal kernels profile rt site m n k alpha a lda b ldb beta c ldc) := by
  refine updates_of_wrote (fun c => ?_)
  have total : ∃ after, noTransRealWithBLayout kernels profile rt site m n k alpha a lda b ldb .noTrans beta c ldc false =
      some after := by
    unfold noTransRealWithBLayout
    split
    · exact ⟨_, rfl⟩
    · simp only [Bool.false_eq_true, if_false, Option.map_some]
      split
      · exact ⟨_, rfl⟩
      · split <;> exact ⟨_, rfl⟩
  obtain ⟨after, ran⟩ := total
  have wrote := no_trans_real_with_layout_wrote kernels profile rt site m n k alpha a lda b ldb .noTrans beta c after ldc false
    bound (fun asked => BLayout.noConfusion asked) ran
  rw [noTransReal, ran]
  exact wrote

omit [LawfulScalar R] in
theorem transposed_a_real_wrote (kernels : RealKernels R) (profile : PlanningProfile R) (rt : Runtime) (site : Site)
    (m n k : Int) (alpha : R) (a : Mem R) (lda : Int) (b : Mem R) (ldb : Int) (bLayout : BLayout) (beta : R)
    (c after : Mem R) (ldc : Int) (bound : toUsize m ≤ toUsize ldc)
    (ran : transposedAReal kernels profile rt site m n k alpha a lda b ldb bLayout beta c ldc = some after) :
    Wrote (matrixCells (toUsize m) (toUsize n)) (cellAddress ldc)
      (gemmValue alpha (fun i p => a (matIndex lda p i)) (layoutEntry bLayout b ldb) (toUsize k) beta) c after := by
  unfold transposedAReal at ran
  split at ran
  · rename_i empty
    cases ran
    rw [matrix_cells_empty m n empty]
    exact wrote_nothing _ _ _
  · rename_i entered
    split at ran
    · cases ran
    · rename_i active
      have depth : 0 < toUsize k := by simp only [toUsize]; omega
      have size : toUsize ((toUsize m : Nat) : Int) = toUsize m := by simp only [toUsize, Int.toNat_natCast]
      have width : ((toUsize m : Nat) : Int) = m := Int.toNat_of_nonneg (by omega)
      simp only at ran
      split at ran
      · cases ran
      · split at ran
        · cases ran
        · obtain ⟨plan, selected, started⟩ := Option.bind_eq_some_iff.mp ran
          split at started
          · cases started
          · split at started
            · cases started
            · cases started
              have chosen : (if decide (bLayout = .trans) then
                  selectTransposedBReal profile kernels.candidates (toUsize m) (toUsize n) (toUsize k) alpha beta
                    (if forceSingleThreadPlan profile (toUsize m) (toUsize n) (toUsize k) alpha beta then 1
                      else requestedThreadCountForPlan (rt.maxThreads site) (toUsize m) (toUsize n) (toUsize k))
                  else some (selectNoTransReal profile kernels.candidates kernels.base (toUsize m) (toUsize n) (toUsize k)
                    alpha beta (if forceSingleThreadPlan profile (toUsize m) (toUsize n) (toUsize k) alpha beta then 1
                      else requestedThreadCountForPlan (rt.maxThreads site) (toUsize m) (toUsize n) (toUsize k)))) =
                  some plan := by
                simpa only [decide_eq_true_eq] using selected
              obtain ⟨supports, columns, rows⟩ := selected_plan_supports kernels profile _ _ _ _ _ _ _ plan chosen
              have supported : bLayout = .noTrans ∨ ∃ desc ∈ kernels.candidates,
                  desc.kernel = plan.kernel.kernel ∧ desc.layoutTransposedB = true := by
                cases bLayout with
                | noTrans => exact Or.inl rfl
                | trans => exact Or.inr (supports (decide_eq_true rfl))
              have wrote := (run_planned_tasks_updates kernels profile rt (1 :: site) plan (toUsize m) (toUsize n) (toUsize k)
                alpha (packTransposedA (toUsize m) (toUsize k) a lda) m b ldb bLayout beta ldc depth bound columns rows
                supported).wrote c
              refine wrote.congr (fun cell old inside => ?_)
              simp only [gemmValue]
              congr 2
              refine Finset.sum_congr rfl (fun p member => ?_)
              have packed := pack_transposed_a_entry (toUsize m) (toUsize k) a lda cell.1 p inside.1
                (Finset.mem_range.mp member)
              rw [width] at packed
              rw [packed]

end Entry

end Zynum
