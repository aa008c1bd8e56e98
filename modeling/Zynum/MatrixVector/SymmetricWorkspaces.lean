import Zynum.MatrixVector.SymmetricColumns

set_option autoImplicit false

/- The private workspaces of a symmetric product. A task owns one row of n cells. Where
   the workspaces are ranged only the cells up to the end of its columns are cleared,
   and the merge asks for no other. -/
namespace Zynum

open ArrayProgram

section Places

variable {n : Nat}

def workspacePlace (n : Nat) (cell : Nat × Nat) : Nat := cell.1 * n + cell.2

def taskCells (n task : Nat) : Set (Nat × Nat) := {cell | cell.1 = task ∧ cell.2 < n}

theorem workspace_place_injective (n : Nat) : Set.InjOn (workspacePlace n) {cell | cell.2 < n} := by
  rintro ⟨task, i⟩ inside ⟨task', i'⟩ inside' same
  have first : i < n := inside
  have second : i' < n := inside'
  have rows : task * n + i = task' * n + i' := same
  have tasks : task = task' := by
    have left := Nat.add_div_of_dvd_right (Nat.dvd_mul_left n task) (b := i)
    have right := Nat.add_div_of_dvd_right (Nat.dvd_mul_left n task') (b := i')
    have some : 0 < n := Nat.zero_lt_of_lt first
    rw [Nat.mul_div_cancel _ some, Nat.div_eq_of_lt first, Nat.add_zero] at left
    rw [Nat.mul_div_cancel _ some, Nat.div_eq_of_lt second, Nat.add_zero] at right
    rw [← left, rows, right]
  subst tasks
  rw [Nat.add_left_cancel rows]

theorem task_cells_apart (first second : Nat) (different : first ≠ second) : Disjoint (taskCells n first) (taskCells n second) :=
  Set.disjoint_left.mpr (fun _ left right => different (left.1.symm.trans right.1))

theorem workspace_inside (taskCount task i : Nat) (several : task < taskCount) (small : i < n) : task * n + i < taskCount * n := by
  have rows : (task + 1) * n ≤ taskCount * n := Nat.mul_le_mul_right n several
  rw [Nat.succ_mul] at rows
  omega

end Places

variable {T : Type} [CommRing T]

section Clearing

theorem clear_cells_updates (first count : Nat) :
    Updates (Set.Iio count) (fun i => first + i) (fun _ _ => (0 : T)) (clearCells first count) :=
  updates_elementwise count (fun i => first + i) (fun _ _ => 0) (fun _ _ _ _ same => Nat.add_left_cancel same)

-- Every cell that a task may write holds zero, whatever was there before.
theorem cleared_cells (ranged : Bool) (n taskCount : Nat) (ends : Nat → Nat) (within : ∀ task, task < taskCount → ends task ≤ n)
    (workspace : Mem T) (task i : Nat) (several : task < taskCount) (small : i < n) (inside : ranged = true → i < ends task) :
    clearWorkspaces ranged n taskCount ends workspace (task * n + i) = 0 := by
  cases ranged with
  | false =>
    have whole := (clear_cells_updates (T := T) 0 (taskCount * n)).written workspace (task * n + i)
      (workspace_inside taskCount task i several small)
    rw [Nat.zero_add] at whole
    exact whole
  | true =>
    have each : ∀ index, index < taskCount → Updates {cell : Nat × Nat | cell.1 = index ∧ cell.2 < ends index} (workspacePlace n)
        (fun _ _ => (0 : T)) (clearCells (index * n) (ends index)) := fun index _ => by
      refine (Updates.reindex (fun i => (index, i)) (clear_cells_updates (index * n) (ends index))).congr ?_ (fun _ _ _ => rfl)
      ext ⟨task, i⟩
      constructor
      · rintro ⟨place, small, same⟩
        cases same
        exact ⟨rfl, small⟩
      · rintro ⟨rfl, small⟩
        exact ⟨i, small, rfl⟩
    have whole := Updates.loop_apart taskCount (fun index => {cell : Nat × Nat | cell.1 = index ∧ cell.2 < ends index})
      (fun index => clearCells (T := T) (index * n) (ends index)) each
      ((workspace_place_injective n).mono (by
        rintro cell ⟨index, below, rfl, inside⟩
        exact inside.trans_le (within _ below)))
      (fun first second _ _ different => Set.disjoint_left.mpr (fun _ left right => different (left.1.symm.trans right.1)))
    exact whole.written workspace (task, i) ⟨task, several, rfl, inside rfl⟩

end Clearing

section Tasks

variable {ranged : Bool} {n taskCount : Nat} {ends : Nat → Nat} {task : Nat → Mem T → Mem T} {workspace : Mem T}

-- The workspaces after the tasks have run in some order.
def filledWorkspaces (ranged : Bool) (n taskCount : Nat) (ends : Nat → Nat) (task : Nat → Mem T → Mem T) (order : List Nat)
    (workspace : Mem T) : Mem T :=
  order.foldl (fun current index => onTail (index * n) (task index) current) (clearWorkspaces ranged n taskCount ends workspace)

theorem private_tasks_filled {rt : Runtime} {site : Site} {after : Mem T}
    (accepted : privateTasks rt site ranged n taskCount ends task workspace = some after) :
    ∃ order : List Nat, order.Perm (List.range taskCount) ∧ after = filledWorkspaces ranged n taskCount ends task order workspace :=
  run_tasks_accepted accepted

-- Where a workspace was cleared it holds what its own task added.
theorem filled_workspaces_hold (order : List Nat) (complete : order.Perm (List.range taskCount))
    (within : ∀ task, task < taskCount → ends task ≤ n) (share : Nat → Nat → T)
    (each : ∀ index, index < taskCount → Updates (Set.Iio n) (fun i => i) (fun i old => old + share index i) (task index))
    (index i : Nat) (several : index < taskCount) (small : i < n) (inside : ranged = true → i < ends index) :
    filledWorkspaces ranged n taskCount ends task order workspace (index * n + i) = share index i := by
  have moved : ∀ index, index < taskCount → Updates (taskCells n index) (workspacePlace n) (fun cell old => old + share cell.1 cell.2)
      (onTail (index * n) (task index)) := fun index several => by
    refine (Updates.reindex (fun i => (index, i)) ((each index several).on_tail (index * n))).congr ?_ (fun _ _ _ => rfl)
    ext ⟨other, i⟩
    constructor
    · rintro ⟨place, small, same⟩
      cases same
      exact ⟨rfl, small⟩
    · rintro ⟨rfl, small⟩
      exact ⟨i, small, rfl⟩
  have whole := Updates.dispatch order taskCount (taskCells n) (fun index => onTail (index * n) (task index)) complete moved
    ((workspace_place_injective n).mono (by
      rintro cell ⟨index, _, member⟩
      exact member.2))
    (fun first second _ _ different => task_cells_apart first second different)
  refine (whole.written _ (index, i) ⟨index, several, rfl, small⟩).trans ?_
  rw [workspacePlace, cleared_cells ranged n taskCount ends within workspace index i several small inside, zero_add]

end Tasks

section Merges

variable [Scalar T]

theorem merge_rows_updates [LawfulScalar T] (n : Nat) (beta : T) (sum_v : Nat → Nat → T) (sum : Nat → T)
    (lanes : ∀ i lane, lane < elementLanes T → sum_v i lane = sum (i + lane)) :
    Updates (Set.Iio n) (fun i => i) (fun i old => beta * old + sum i) (mergeRows n beta sum_v sum) := by
  have value : ∀ (old sum : T), (if isZero beta then sum else old * beta + sum) = beta * old + sum := fun old sum => by
    split
    next zero => rw [(LawfulScalar.isZero_iff beta).mp zero, zero_mul, zero_add]
    next => rw [mul_comm]
  have value_v : ∀ (old sum : T), (if isZero beta then sum else if isOne beta then old + sum else old * beta + sum) =
      beta * old + sum := fun old sum => by
    rw [← value old sum]
    refine if_congr Iff.rfl rfl ?_
    split
    next one => rw [(LawfulScalar.isOne_iff beta).mp one, mul_one]
    next => rfl
  refine (updates_elementwise n (fun i => i) (fun i old => beta * old + sum i) Function.injective_id.injOn).congr_run (fun y => ?_)
  rw [← unrolled_loop n (elementLanes T)]
  simp only [mergeRows, value, value_v]
  refine congrArg (loopRange _ n _) (loop_congr _ _ _ _ (fun turn y _ => loop_congr _ _ _ _ (fun lane y small => ?_)))
  rw [lanes _ lane small]

variable [LawfulScalar T] (n taskCount : Nat) (beta : T) (workspace : Mem T)

theorem merge_symv_updates : Updates (Set.Iio n) (fun i => i)
    (fun i old => beta * old + ∑ task ∈ Finset.range taskCount, workspace (task * n + i))
    (mergeSymvWorkspacesUnitReal n taskCount beta workspace) := by
  have total : ∀ i, loop taskCount (fun task sum => sum + workspace (task * n + i)) 0 =
      ∑ task ∈ Finset.range taskCount, workspace (task * n + i) := fun i => by rw [loop_accumulate, zero_add]
  simp only [← total]
  exact merge_rows_updates n beta _ _ (fun _ _ _ => rfl)

theorem merge_symv_upper_updates (ends : Nat → Nat) : Updates (Set.Iio n) (fun i => i)
    (fun i old => beta * old + ∑ task ∈ Finset.range taskCount, if i < ends task then workspace (task * n + i) else 0)
    (mergeSymvUpperWorkspacesUnitReal n taskCount beta workspace ends) := by
  have total : ∀ i, loop taskCount (fun task (sum : T) => if i < ends task then sum + workspace (task * n + i) else sum) 0 =
      ∑ task ∈ Finset.range taskCount, if i < ends task then workspace (task * n + i) else 0 := fun i => by
    rw [← zero_add (∑ task ∈ Finset.range taskCount, _), ← loop_accumulate]
    refine loop_congr _ _ _ _ (fun task sum _ => ?_)
    split
    next => rfl
    next => rw [add_zero]
  simp only [← total]
  refine merge_rows_updates n beta _ _ (fun i lane small => ?_)
  refine loop_congr _ _ _ _ (fun task sum _ => ?_)
  by_cases full : i + elementLanes T ≤ ends task
  · rw [if_pos full, if_pos (by omega)]
  · by_cases part : i < ends task
    · rw [if_neg full, if_pos part]
      by_cases inside : i + lane < ends task
      · rw [if_pos inside, if_pos inside]
      · rw [if_neg inside, if_neg inside, add_zero]
    · rw [if_neg full, if_neg part, if_neg (by omega)]

theorem merge_packed_updates [DecidableEq T] : Updates (Set.Iio n) (fun i => i)
    (fun i old => beta * old + ∑ task ∈ Finset.range taskCount, workspace (task * n + i))
    (mergePackedMvWorkspacesUnit n taskCount beta workspace) := by
  cases kind : isReal T with
  | true => exact (merge_symv_updates n taskCount beta workspace).congr_run (fun y => by rw [mergePackedMvWorkspacesUnit,
    if_pos kind])
  | false =>
    refine (updates_elementwise n (fun i => i) _ Function.injective_id.injOn).congr_run (fun y => ?_)
    rw [mergePackedMvWorkspacesUnit, if_neg (by rw [kind]; exact Bool.false_ne_true)]
    refine loop_congr _ _ _ _ (fun i y _ => ?_)
    rw [loop_accumulate, zero_add]
    cases zero : isZero beta with
    | true => simp only [if_true, (LawfulScalar.isZero_iff beta).mp zero, zero_mul, zero_add]
    | false => rfl

theorem axpy_row_updates (rt : Runtime) (site : Site) (count start : Nat) (within : count ≤ n) : Updates (Set.Iio n) (fun i => i)
    (fun i old => old + if i < count then workspace (start + i) else 0) (fun y => axpy rt site count 1 workspace start 1 y 0 1) := by
  have row := axpy_unit_updates rt site count (1 : T) workspace start 0
  simp only [Nat.zero_add, toUsize, Int.toNat_natCast] at row
  refine Updates.extend (row.congr rfl (fun i old small => ?_)) (fun i small => lt_of_lt_of_le small within)
    Function.injective_id.injOn (fun i old _ outside => ?_)
  · rw [one_mul, if_pos (show i < count from small)]
  · rw [if_neg (show ¬ i < count from outside), add_zero]

theorem merge_hermv_updates (rt : Runtime) (site : Site) (ends : Nat → Nat) (within : ∀ task, task < taskCount → ends task ≤ n) :
    Updates (Set.Iio n) (fun i => i)
      (fun i old => old + ∑ task ∈ Finset.range taskCount, if i < ends task then workspace (task * n + i) else 0)
      (mergeHermvUpperWorkspacesUnitComplex rt site n taskCount workspace ends) := by
  refine (Updates.repeat taskCount (fun task i old => old + if i < ends task then workspace (task * n + i) else 0) _
    (fun task several => ?_)).congr rfl (fun i old _ => loop_accumulate taskCount _ old)
  refine updates_guard (ends task = 0) (fun none => ?_)
    (fun _ => axpy_row_updates n workspace rt (task :: site) (ends task) (task * n) (within task several))
  refine (updates_same _ _).congr rfl (fun i old _ => ?_)
  rw [none, if_neg (Nat.not_lt_zero i), add_zero]

end Merges

section Totals

variable [Scalar T]

-- The rows that a merge passes over hold nothing: a column of an upper triangle ends at its diagonal.
theorem filled_columns_total (ranged : Bool) (bound : Nat → Nat) {uplo : Triangle} {herm : Bool} {n taskCount : Nat}
    {task : Nat → Mem T → Mem T} {alpha : T} {entry : Nat → Nat → T} {x workspace : Mem T} (order : List Nat)
    (complete : order.Perm (List.range taskCount)) (upper : ranged = true → uplo = .upper) (splits : Splits taskCount bound 0 n)
    (adds : ∀ index, index < taskCount →
      AddsColumns uplo n alpha (completion herm uplo entry) x (bound index) (bound (index + 1)) (task index))
    (i : Nat) (small : i < n) :
    ∑ index ∈ Finset.range taskCount, (if ranged = true → i < bound (index + 1) then
        filledWorkspaces ranged n taskCount (fun index => bound (index + 1)) task order workspace (index * n + i) else 0) =
      alpha * ∑ j ∈ Finset.range n, completion herm uplo entry i j * x j := by
  have within : ∀ index, index < taskCount → bound (index + 1) ≤ n := fun index several =>
    (splits.mono (index + 1) taskCount several le_rfl).trans splits.finish.le
  rw [← symmetric_shares_total uplo n alpha (completion herm uplo entry) x i small, Finset.range_eq_Ico n, ← splits.sum]
  refine Finset.sum_congr rfl (fun index member => ?_)
  have several := Finset.mem_range.mp member
  by_cases inside : ranged = true → i < bound (index + 1)
  · rw [if_pos inside]
    exact filled_workspaces_hold order complete within _ adds index i several small inside
  · rw [if_neg inside]
    obtain ⟨yes, behind⟩ := Classical.not_imp.mp inside
    obtain rfl := upper yes
    refine (Finset.sum_eq_zero (fun j member => ?_)).symm
    exact upper_share_before herm alpha x entry i j ((Finset.mem_Ico.mp member).2.trans_le (Nat.le_of_not_lt behind))

theorem private_columns_total (ranged : Bool) (bound : Nat → Nat) {rt : Runtime} {site : Site} {uplo : Triangle} {herm : Bool}
    {n taskCount : Nat} {task : Nat → Mem T → Mem T} {alpha : T} {entry : Nat → Nat → T} {x workspace after : Mem T}
    (upper : ranged = true → uplo = .upper) (splits : Splits taskCount bound 0 n)
    (adds : ∀ index, index < taskCount →
      AddsColumns uplo n alpha (completion herm uplo entry) x (bound index) (bound (index + 1)) (task index))
    (accepted : privateTasks rt site ranged n taskCount (fun index => bound (index + 1)) task workspace = some after)
    (i : Nat) (small : i < n) :
    ∑ index ∈ Finset.range taskCount, (if ranged = true → i < bound (index + 1) then after (index * n + i) else 0) =
      alpha * ∑ j ∈ Finset.range n, completion herm uplo entry i j * x j := by
  obtain ⟨order, complete, rfl⟩ := private_tasks_filled accepted
  exact filled_columns_total ranged bound order complete upper splits adds i small

end Totals

end Zynum
