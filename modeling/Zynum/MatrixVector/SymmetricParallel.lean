import Zynum.MatrixVector.SymmetricLeaves
import Zynum.MatrixVector.SymmetricProduct

set_option autoImplicit false

/- Symmetric and Hermitian products of tasks: what the private workspaces hold, what
   the merges ask for, and what a stored element gives to the result. -/
namespace Zynum

open ArrayProgram

variable {T : Type} [CommRing T] [Scalar T]

section Entries

-- What a stored element adds to row i: off the diagonal once to its row and once, mirrored, to its column.
def entryShare (herm : Bool) (alpha : T) (entry : Nat → Nat → T) (x : Nat → T) (row col i : Nat) : T :=
  if row = col then if i = row then alpha * x row * diagonalValue herm (entry row row) else 0
  else (if i = row then alpha * x col * entry row col else 0) +
    if i = col then alpha * (conjugateIf (entry row col) herm * x row) else 0

variable [LawfulScalar T] (herm : Bool) (uplo : Triangle) (n : Nat) (alpha : T) (entry : Nat → Nat → T) (x : Nat → T)

theorem column_entry_shares (i col : Nat) (small : i < n) (inside : col < n) :
    symmetricShare uplo n alpha (completion herm uplo entry) x col i =
      ∑ row ∈ Finset.range n with stored uplo row col = true, entryShare herm alpha entry x row col i := by
  rw [Finset.sum_filter, symmetricShare]
  by_cases own : i = col
  · subst own
    have each : ∀ row, (if stored uplo row i = true then entryShare herm alpha entry x row i i else 0) =
        (if row = i then alpha * x i * completion herm uplo entry i i else 0) +
          alpha * (if ownsEntry uplo row i then completion herm uplo entry i row * x row else 0) := fun row => by
      by_cases diagonal : row = i
      · subst diagonal
        rw [if_pos (stored_diagonal uplo row), if_pos rfl, if_neg (fun owned => owned.1 rfl), mul_zero, add_zero, entryShare,
          if_pos rfl,
          if_pos rfl, completion_diagonal]
      · rw [if_neg diagonal, zero_add]
        by_cases kept : stored uplo row i = true
        · rw [if_pos kept, if_pos ⟨diagonal, kept⟩, entryShare, if_neg diagonal, if_neg (Ne.symm diagonal), if_pos rfl, zero_add,
            (completion_owned herm uplo entry row i ⟨diagonal, kept⟩).2]
        · rw [if_neg kept, if_neg (fun owned => kept owned.2), mul_zero]
    rw [if_pos rfl, Finset.sum_congr rfl (fun row _ => each row), Finset.sum_add_distrib, ← Finset.mul_sum, Finset.sum_ite_eq',
      if_pos (Finset.mem_range.mpr small), add_comm]
  · have each : ∀ row, (if stored uplo row col = true then entryShare herm alpha entry x row col i else 0) =
        if row = i then (if ownsEntry uplo i col then alpha * x col * completion herm uplo entry i col else 0) else 0 := fun row => by
      by_cases here : row = i
      · subst here
        rw [if_pos rfl]
        by_cases kept : stored uplo row col = true
        · rw [if_pos kept, if_pos ⟨own, kept⟩, entryShare, if_neg own, if_pos rfl, if_neg own, add_zero,
            (completion_owned herm uplo entry row col ⟨own, kept⟩).1]
        · rw [if_neg kept, if_neg (fun owned => kept owned.2)]
      · rw [if_neg here, entryShare, if_neg (Ne.symm here), if_neg (Ne.symm here), if_neg own, add_zero, ite_self, ite_self]
    rw [if_neg own, Finset.sum_congr rfl (fun row _ => each row), Finset.sum_ite_eq', if_pos (Finset.mem_range.mpr small)]

theorem product_entry_shares (i : Nat) (small : i < n) :
    alpha * ∑ j ∈ Finset.range n, completion herm uplo entry i j * x j =
      ∑ col ∈ Finset.range n, ∑ row ∈ Finset.range n with stored uplo row col = true, entryShare herm alpha entry x row col i := by
  rw [← symmetric_shares_total uplo n alpha _ x i small]
  exact Finset.sum_congr rfl (fun col member => column_entry_shares herm uplo n alpha entry x i col small
    (Finset.mem_range.mp member))

omit [CommRing T] [LawfulScalar T] in
-- Only the stored elements matter.
theorem completion_stored (other : Nat → Nat → T) (same : ∀ row col, row < n → col < n → stored uplo row col = true →
    entry row col = other row col) (i j : Nat) (rows : i < n) (columns : j < n) :
    completion herm uplo entry i j = completion herm uplo other i j := by
  rw [completion, completion, same i i rows rows (stored_diagonal uplo i)]
  by_cases diagonal : i = j
  · rw [if_pos diagonal, if_pos diagonal]
  · rw [if_neg diagonal, if_neg diagonal]
    cases kept : stored uplo i j with
    | true => rw [if_pos rfl, if_pos rfl, same i j rows columns kept]
    | false =>
      rw [if_neg Bool.false_ne_true, if_neg Bool.false_ne_true, same j i columns rows (stored_flip uplo i j kept)]

end Entries

section Kernels

variable [DecidableEq T]

-- The column kernels that a task may run.
inductive ColumnKernel (T : Type) where
  | symv (a : Mem T) (lda : Int)
  | hermv (rt : Runtime) (site : Nat → Site) (a : Mem T) (lda : Int)
  | packed (implementation : PackedImplementation) (ap : Mem T) (herm : Bool)

def ColumnKernel.herm : ColumnKernel T → Bool
  | .symv .. => false
  | .hermv .. => true
  | .packed _ _ herm => herm

def ColumnKernel.entry (uplo : Triangle) (n : Nat) : ColumnKernel T → Nat → Nat → T
  | .symv a lda => denseEntry a lda
  | .hermv _ _ a lda => denseEntry a lda
  | .packed _ ap _ => packedEntry uplo n ap

def ColumnKernel.run (env : SymmetricEnv T) (uplo : Triangle) (n : Nat) (alpha : T) (x : Mem T) (task j0 j1 : Nat) :
    ColumnKernel T → Mem T → Mem T
  | .symv a lda => symvColumnsUnitReal env uplo n j0 j1 alpha a lda x
  | .hermv rt site a lda => hermvColumnsUnitComplex env rt (site task) uplo n j0 j1 alpha a lda x
  | .packed implementation ap herm => packedMvColumnsUnitImpl implementation uplo n j0 j1 alpha ap x herm

theorem column_kernel_adds [LawfulScalar T] (env : ExactSymmetricEnv T) (uplo : Triangle) (n : Nat) (alpha : T) (x : Mem T)
    (kernel : ColumnKernel T) (task j0 j1 : Nat) (ordered : j0 ≤ j1) (inside : j1 ≤ n) :
    AddsColumns uplo n alpha (completion kernel.herm uplo (kernel.entry uplo n)) x j0 j1
      (kernel.run env.toSymmetricEnv uplo n alpha x task j0 j1) := by
  cases kernel with
  | symv a lda => exact symv_columns_unit_real_adds env uplo n j0 j1 alpha a lda x ordered inside
  | hermv rt site a lda => exact hermv_columns_unit_complex_adds env uplo n j0 j1 alpha a lda x rt (site task) ordered inside
  | packed implementation ap herm => exact packed_mv_columns_unit_adds uplo n j0 j1 alpha x implementation ap herm ordered inside

end Kernels

section Reads

variable [LawfulScalar T] {n taskCount : Nat} {beta : T} {ends : Nat → Nat} {workspace workspace' : Mem T}

-- Two workspaces that agree on what the tasks have cleared.
def AgreeBefore (n taskCount : Nat) (ends : Nat → Nat) (workspace workspace' : Mem T) : Prop :=
  ∀ task i, task < taskCount → i < n → i < ends task → workspace (task * n + i) = workspace' (task * n + i)

omit [Scalar T] [LawfulScalar T] in
theorem merged_sum_reads (agree : AgreeBefore n taskCount ends workspace workspace') (i : Nat) (small : i < n) :
    ∑ task ∈ Finset.range taskCount, (if i < ends task then workspace (task * n + i) else 0) =
      ∑ task ∈ Finset.range taskCount, if i < ends task then workspace' (task * n + i) else 0 := by
  refine Finset.sum_congr rfl (fun task member => ?_)
  split
  next inside => exact agree task i (Finset.mem_range.mp member) small inside
  next => rfl

theorem merge_symv_upper_reads (agree : AgreeBefore n taskCount ends workspace workspace') :
    mergeSymvUpperWorkspacesUnitReal n taskCount beta workspace ends = mergeSymvUpperWorkspacesUnitReal n taskCount beta
      workspace' ends :=
  (merge_symv_upper_updates n taskCount beta workspace ends).unique
    ((merge_symv_upper_updates n taskCount beta workspace' ends).congr rfl (fun i old small =>
      by rw [merged_sum_reads agree i small]))

theorem merge_hermv_reads (rt : Runtime) (site : Site) (within : ∀ task, task < taskCount → ends task ≤ n)
    (agree : AgreeBefore n taskCount ends workspace workspace') :
    mergeHermvUpperWorkspacesUnitComplex rt site n taskCount workspace ends =
      mergeHermvUpperWorkspacesUnitComplex rt site n taskCount workspace' ends :=
  (merge_hermv_updates n taskCount workspace rt site ends within).unique
    ((merge_hermv_updates n taskCount workspace' rt site ends within).congr rfl
      (fun i old small => by rw [merged_sum_reads agree i small]))

end Reads

section Answers

variable [DecidableEq T]

-- The conditions under which a product runs as tasks.
structure SplitsInto (env : SymmetricEnv T) (rt : Runtime) (site : Site) (n : Nat) : Prop where
  several : 1 < rt.taskCount site n
  allowed : env.tuning.workspaceAllowed (rt.taskCount site n * n) (sizeOf T) = true
  workspace : rt.workspace site (rt.taskCount site n * n) = true
  dispatched : (rt.dispatch site (rt.taskCount site n)).isSome = true

variable {env : SymmetricEnv T} {rt : Runtime} {site : Site} {n : Nat} (uplo : Triangle) (alpha : T) (a : Mem T) (lda : Int)
  (x : Mem T) (beta : T) (workspace y : Mem T) (herm : Bool)

omit [DecidableEq T] in
theorem SplitsInto.answers (splits : SplitsInto env rt site n) (ranged : Bool) (ends : Nat → Nat) (task : Nat → Mem T → Mem T)
    (merge : Mem T → Mem T) : ∃ after, (privateTasks rt site ranged n (rt.taskCount site n) ends task workspace).map merge =
      some after := by
  refine Option.isSome_iff_exists.mp ?_
  rw [Option.isSome_map, privateTasks, Runtime.runTasks, Option.isSome_map]
  exact splits.dispatched

omit [CommRing T] [DecidableEq T] in
theorem SplitsInto.granted (splits : SplitsInto env rt site n) :
    ¬ (env.tuning.workspaceAllowed (rt.taskCount site n * n) (sizeOf T) = false ∨ rt.workspace site (rt.taskCount site n * n)
      = false) := by
  rw [splits.allowed, splits.workspace]
  simp only [Bool.true_eq_false, or_self, not_false_eq_true]

omit [DecidableEq T] in
theorem parallel_symv_answers (splits : SplitsInto env rt site n) (prefer : env.tuning.preferRealParallel n = true) :
    ∃ after, parallelSymvUnitReal env rt site uplo n alpha a lda x beta workspace y = some after := by
  have enter : ¬ (env.tuning.preferRealParallel n = false ∨ rt.taskCount site n ≤ 1) := by
    rw [prefer]
    exact fun refused => refused.elim Bool.noConfusion (fun few => Nat.not_le_of_lt splits.several few)
  rw [parallelSymvUnitReal, if_neg enter, if_neg splits.granted]
  exact splits.answers workspace _ _ _ _

omit [DecidableEq T] in
theorem parallel_hermv_answers (splits : SplitsInto env rt site n) (prefer : env.tuning.preferHermitianParallel n = true) :
    ∃ after, parallelHermvUnitComplex env rt site uplo n alpha a lda x workspace y = some after := by
  have enter : ¬ (env.tuning.preferHermitianParallel n = false ∨ rt.taskCount site n ≤ 1) := by
    rw [prefer]
    exact fun refused => refused.elim Bool.noConfusion (fun few => Nat.not_le_of_lt splits.several few)
  rw [parallelHermvUnitComplex, if_neg enter, if_neg splits.granted]
  exact splits.answers workspace _ _ _ _

theorem parallel_packed_answers (splits : SplitsInto env rt site n) :
    ∃ after, parallelPackedMvUnit env rt site uplo n alpha a x beta workspace y herm = some after := by
  have several : ¬ (rt.taskCount site n = 1 ∧
      env.tuning.selectRealPackedSingleImplementation T env.aarch64 = .compactSymmetricPackedFused) :=
    fun single => Nat.ne_of_gt splits.several single.1
  rw [parallelPackedMvUnit, if_neg several, if_neg (Nat.not_le_of_lt splits.several), if_neg splits.granted]
  exact splits.answers workspace _ _ _ _

end Answers

section Calls

variable [DecidableEq T]

structure SymmetricCall (T : Type) where
  uplo : Triangle
  n : Int
  alpha : T
  x : Mem T
  incx : Int
  beta : T
  incy : Int
  herm : Bool

namespace SymmetricCall

variable (call : SymmetricCall T)

def order : Nat := toUsize call.n

def place (i : Nat) : Nat := ix (startIndex call.n call.incy) i call.incy

def target (S : Nat → Nat → T) (i : Nat) (old : T) : T := symmetricProduct S call.n call.alpha call.x call.incx call.beta i old

-- The product with the elements of x as they lie.
def unitProduct (S : Nat → Nat → T) (i : Nat) : T := call.alpha * ∑ j ∈ Finset.range call.order, S i j * call.x j

def filled (env : SymmetricEnv T) (kernel : ColumnKernel T) (ranged : Bool) (taskCount : Nat) (bound : Nat →
    Nat) (schedule : List Nat)
    (workspace : Mem T) : Mem T :=
  filledWorkspaces ranged call.order taskCount (fun task => bound (task + 1))
    (fun task => kernel.run env call.uplo call.order call.alpha call.x task (bound task) (bound (task + 1))) schedule workspace

end SymmetricCall

-- Columns cut into tasks, each with its own workspace.
structure Partition (call : SymmetricCall T) (ranged : Bool) (taskCount : Nat) (bound : Nat → Nat) (schedule : List Nat) : Prop where
  upper : ranged = true → call.uplo = .upper
  splits : Splits taskCount bound 0 call.order
  complete : schedule.Perm (List.range taskCount)

-- What symv, hemv, spmv and hpmv compute, and how their tasks do.
structure SymmetricCall.Exact (call : SymmetricCall T) (env : ExactSymmetricEnv T) : Prop where
  dense : call.incx ≠ 0 → call.incy ≠ 0 → ∀ rt site a lda workspace, Updates (Set.Iio call.order) call.place
    (call.target (completion call.herm call.uplo (denseEntry a lda)))
    (fun y => symv env.toSymmetricEnv rt site call.uplo call.n call.alpha a lda call.x call.incx call.beta workspace y call.incy
      call.herm)
  packed : call.incx ≠ 0 → call.incy ≠ 0 → ∀ rt site ap workspace, Updates (Set.Iio call.order) call.place
    (call.target (completion call.herm call.uplo (packedEntry call.uplo call.order ap)))
    (fun y => spmv env.toSymmetricEnv rt site call.uplo call.n call.alpha ap call.x call.incx call.beta workspace y call.incy
      call.herm)
  symvTasks : ∀ rt site a lda workspace y, SplitsInto env.toSymmetricEnv rt site call.order →
    env.tuning.preferRealParallel call.order = true → ∃ after,
      parallelSymvUnitReal env.toSymmetricEnv rt site call.uplo call.order call.alpha a lda call.x call.beta workspace y =
        some after ∧
      Wrote (Set.Iio call.order) (fun i => i)
        (fun i old => call.beta * old + call.unitProduct (completion false call.uplo (denseEntry a lda)) i) y after
  hermvTasks : ∀ rt site a lda workspace y, SplitsInto env.toSymmetricEnv rt site call.order →
    env.tuning.preferHermitianParallel call.order = true → ∃ after,
      parallelHermvUnitComplex env.toSymmetricEnv rt site call.uplo call.order call.alpha a lda call.x workspace y = some after ∧
      Wrote (Set.Iio call.order) (fun i => i)
        (fun i old => old + call.unitProduct (completion true call.uplo (denseEntry a lda)) i) y after
  packedTasks : ∀ rt site ap workspace y, SplitsInto env.toSymmetricEnv rt site call.order → ∃ after,
    parallelPackedMvUnit env.toSymmetricEnv rt site call.uplo call.order call.alpha ap call.x call.beta workspace y call.herm =
      some after ∧
    Wrote (Set.Iio call.order) (fun i => i)
      (fun i old => call.unitProduct (completion call.herm call.uplo (packedEntry call.uplo call.order ap)) i + call.beta *
        old) y after
  boundaries : ∀ taskCount, 0 < taskCount → Splits taskCount (symvTaskBoundary env.float call.uplo call.order taskCount) 0
    call.order ∧
    Splits taskCount (upperTriangularTaskBoundary env.float call.order taskCount) 0 call.order ∧
    Splits taskCount (evenBound call.order taskCount) 0 call.order
  workspaces : ∀ kernel ranged taskCount bound schedule workspace, Partition call ranged taskCount bound schedule →
    ∀ task i, task < taskCount → i < call.order → (ranged = true → i < bound (task + 1)) →
      call.filled env.toSymmetricEnv kernel ranged taskCount bound schedule workspace (task * call.order + i) =
        ∑ col ∈ Finset.Ico (bound task) (bound (task + 1)), ∑ row ∈ Finset.range call.order with stored call.uplo row col = true,
          entryShare kernel.herm call.alpha (kernel.entry call.uplo call.order) call.x row col i
  merges : ∀ kernel ranged taskCount bound schedule workspace, Partition call ranged taskCount bound schedule →
    let filled := call.filled env.toSymmetricEnv kernel ranged taskCount bound schedule workspace
    let product := call.unitProduct (completion kernel.herm call.uplo (kernel.entry call.uplo call.order))
    Updates (Set.Iio call.order) (fun i => i) (fun i old => call.beta * old + product i) (fun y =>
      if ranged then mergeSymvUpperWorkspacesUnitReal call.order taskCount call.beta filled (fun task => bound (task + 1)) y
      else mergeSymvWorkspacesUnitReal call.order taskCount call.beta filled y) ∧
    (∀ rt site, Updates (Set.Iio call.order) (fun i => i) (fun i old => old + product i) (fun y =>
      if ranged then mergeHermvUpperWorkspacesUnitComplex rt site call.order taskCount filled (fun task => bound (task + 1)) y
      else loop taskCount (fun task y => axpy rt (task :: site) call.order 1 filled (task * call.order) 1 y 0 1) y)) ∧
    (ranged = false → Updates (Set.Iio call.order) (fun i => i) (fun i old => call.beta * old + product i)
      (mergePackedMvWorkspacesUnit call.order taskCount call.beta filled))
  reads : ∀ taskCount ends workspace workspace', AgreeBefore call.order taskCount ends workspace workspace' →
    mergeSymvUpperWorkspacesUnitReal call.order taskCount call.beta workspace ends =
        mergeSymvUpperWorkspacesUnitReal call.order taskCount call.beta workspace' ends ∧
      ((∀ task, task < taskCount → ends task ≤ call.order) → ∀ rt site,
        mergeHermvUpperWorkspacesUnitComplex rt site call.order taskCount workspace ends =
          mergeHermvUpperWorkspacesUnitComplex rt site call.order taskCount workspace' ends)
  shares : ∀ herm entry i, i < call.order → call.unitProduct (completion herm call.uplo entry) i =
    ∑ col ∈ Finset.range call.order, ∑ row ∈ Finset.range call.order with stored call.uplo row col = true,
      entryShare herm call.alpha entry call.x row col i
  triangle : call.incx ≠ 0 → call.incy ≠ 0 → ∀ rt site a a' lda workspace,
    (∀ row col, (row, col) ∈ storedCells call.uplo call.order → a (matIndex lda row col) = a' (matIndex lda row col)) →
    (fun y => symv env.toSymmetricEnv rt site call.uplo call.n call.alpha a lda call.x call.incx call.beta workspace y call.incy
      call.herm) =
    fun y => symv env.toSymmetricEnv rt site call.uplo call.n call.alpha a' lda call.x call.incx call.beta workspace y call.incy
      call.herm

variable [LawfulScalar T] (call : SymmetricCall T) (env : ExactSymmetricEnv T)

theorem filled_merges (kernel : ColumnKernel T) (ranged : Bool) (taskCount : Nat) (bound : Nat → Nat) (schedule : List Nat)
    (workspace : Mem T) (partition : Partition call ranged taskCount bound schedule) (i : Nat) (small : i < call.order) :
    ∑ task ∈ Finset.range taskCount, (if ranged = true → i < bound (task + 1) then
        call.filled env.toSymmetricEnv kernel ranged taskCount bound schedule workspace (task * call.order + i) else 0) =
      call.unitProduct (completion kernel.herm call.uplo (kernel.entry call.uplo call.order)) i :=
  filled_columns_total ranged bound schedule partition.complete partition.upper partition.splits
    (fun task several => column_kernel_adds env call.uplo call.order call.alpha call.x kernel task (bound task) (bound (task + 1))
      (partition.splits.ordered task several)
      ((partition.splits.mono (task + 1) taskCount several le_rfl).trans partition.splits.finish.le)) i small

theorem symmetric_products_exact : call.Exact env where
  dense stepx stepy rt site a lda workspace :=
    symv_updates env rt site call.uplo call.n call.alpha a lda call.x call.incx call.beta workspace call.incy call.herm stepx stepy
  packed stepx stepy rt site ap workspace :=
    spmv_updates rt site call.uplo call.n call.alpha ap call.x call.incx call.beta workspace call.incy call.herm env.toSymmetricEnv
      stepx stepy
  symvTasks rt site a lda workspace y splits prefer := by
    obtain ⟨after, ran⟩ := parallel_symv_answers call.uplo call.alpha a lda call.x call.beta workspace y splits prefer
    exact ⟨after, ran, parallel_symv_wrote ran⟩
  hermvTasks rt site a lda workspace y splits prefer := by
    obtain ⟨after, ran⟩ := parallel_hermv_answers call.uplo call.alpha a lda call.x workspace y splits prefer
    exact ⟨after, ran, parallel_hermv_wrote ran⟩
  packedTasks rt site ap workspace y splits := by
    obtain ⟨after, ran⟩ := parallel_packed_answers call.uplo call.alpha ap call.x call.beta workspace y call.herm splits
    exact ⟨after, ran, parallel_packed_wrote ran⟩
  boundaries taskCount several :=
    ⟨symv_task_splits env.float call.uplo call.order taskCount several, rank_task_splits env.float .upper call.order
      taskCount several,
      even_splits call.order taskCount several⟩
  workspaces kernel ranged taskCount bound schedule workspace partition task i several small inside := by
    have within : ∀ task, task < taskCount → bound (task + 1) ≤ call.order := fun task several =>
      (partition.splits.mono (task + 1) taskCount several le_rfl).trans partition.splits.finish.le
    refine (filled_workspaces_hold schedule partition.complete within _ (fun task several => column_kernel_adds env call.uplo
      call.order call.alpha call.x kernel task (bound task) (bound (task + 1)) (partition.splits.ordered task several)
      (within task several)) task i several small inside).trans ?_
    exact Finset.sum_congr rfl (fun col member => column_entry_shares _ _ _ _ _ _ i col small
      ((Finset.mem_Ico.mp member).2.trans_le (within task several)))
  merges kernel ranged taskCount bound schedule workspace partition := by
    have total := filled_merges call env kernel ranged taskCount bound schedule workspace partition
    have within : ∀ task, task < taskCount → bound (task + 1) ≤ call.order := fun task several =>
      (partition.splits.mono (task + 1) taskCount several le_rfl).trans partition.splits.finish.le
    cases ranged with
    | true =>
      simp only [true_implies] at total
      refine ⟨?_, fun rt site => ?_, fun ranged => (Bool.noConfusion ranged)⟩
      · refine (merge_symv_upper_updates call.order taskCount call.beta _ _).congr rfl (fun i old small => ?_)
        rw [total i small]
      · refine (merge_hermv_updates call.order taskCount _ rt site _ within).congr rfl (fun i old small => ?_)
        rw [total i small]
    | false =>
      simp only [Bool.false_eq_true, false_implies, if_true] at total
      refine ⟨?_, fun rt site => ?_, fun _ => ?_⟩
      · refine (merge_symv_updates call.order taskCount call.beta _).congr rfl (fun i old small => ?_)
        rw [total i small]
      · refine (Updates.repeat taskCount _ _ (fun task _ => axpy_row_updates call.order _ rt (task :: site) call.order
          (task * call.order) le_rfl)).congr rfl (fun i old small => ?_)
        rw [← total i small, loop_accumulate]
        exact congrArg (old + ·) (Finset.sum_congr rfl (fun task _ => if_pos (show i < call.order from small)))
      · refine (merge_packed_updates call.order taskCount call.beta _).congr rfl (fun i old small => ?_)
        rw [total i small]
  reads taskCount ends workspace workspace' agree :=
    ⟨merge_symv_upper_reads agree, fun within rt site => merge_hermv_reads rt site within agree⟩
  shares herm entry i small := product_entry_shares herm call.uplo call.order call.alpha entry call.x i small
  triangle stepx stepy rt site a a' lda workspace same := by
    refine (symv_updates env rt site call.uplo call.n call.alpha a lda call.x call.incx call.beta workspace call.incy call.herm stepx
      stepy).unique ((symv_updates env rt site call.uplo call.n call.alpha a' lda call.x call.incx call.beta workspace call.incy
      call.herm stepx stepy).congr rfl (fun i old small => ?_))
    simp only [symmetricProduct]
    refine congrArg (call.alpha * · + call.beta * old) (Finset.sum_congr rfl (fun j member => ?_))
    rw [completion_stored call.herm call.uplo call.order (denseEntry a lda) (denseEntry a' lda)
      (fun row col rows columns kept => same row col ⟨rows, columns, kept⟩) i j small (Finset.mem_range.mp member)]

-- Three tasks on workspaces that hold something: a ranged real one of n = 512, and a Hermitian one.
theorem symmetric_products_exact_tasks :
    (let _ := realKind Int .single
      let env : ExactSymmetricEnv Int := FixedMatrix.realEnv .single ⟨true, true, false, 10 ^ 6, 0, 0,
        0⟩ FloatArithmetic.fixedPoint false
        (FixedMatrix.matrixBodyConfig .single true false true)
      ∃ after, parallelSymvUnitReal env.toSymmetricEnv (Runtime.splitting 3) [] .upper 512 2 (fun place => place) 512
          (fun j => if j = 3 then 1 else 0) 5 (fun _ => 7) (fun i => i) = some after ∧ after 1 = 3079 ∧ after 511 = 525825) ∧
    (let _ := complexKind Int .double
      let env : ExactSymmetricEnv (Cplx Int) := FixedMatrix.complexEnv .double ⟨true, true, true, 10 ^ 6, 0, 0, 0⟩
        FloatArithmetic.fixedPoint false (FixedMatrix.matrixBodyConfig .double true false true) (FixedMatrix.lanes_even
          .double true false)
      ∃ after, parallelHermvUnitComplex env.toSymmetricEnv (Runtime.splitting 3) [] .upper 4 (⟨0, 1⟩ : Cplx Int) (fun place =>
        ⟨place, 2⟩) 4
          (fun j => ⟨j, 1⟩) (fun _ => 7) (fun _ => 1) = some after ∧ after 2 = ⟨-44, 73⟩) := by
  constructor
  · let _ := realKind Int .single
    have _ := real_kind_lawful Int .single
    let env : ExactSymmetricEnv Int := FixedMatrix.realEnv .single ⟨true, true, false, 10 ^ 6, 0, 0,
      0⟩ FloatArithmetic.fixedPoint false
      (FixedMatrix.matrixBodyConfig .single true false true)
    let call : SymmetricCall Int := ⟨.upper, 512, 2, fun j => if j = 3 then 1 else 0, 1, 5, 1, false⟩
    obtain ⟨after, ran, wrote⟩ := (symmetric_products_exact call env).symvTasks (Runtime.splitting 3) [] (fun place => place) 512
      (fun _ => 7) (fun i => i) ⟨by decide, by decide, rfl, rfl⟩ (by decide)
    refine ⟨after, ran, ?_, ?_⟩
    · refine (wrote.written 1 (by decide)).trans ?_
      decide +kernel
    · refine (wrote.written 511 (by decide)).trans ?_
      decide +kernel
  · let _ := complexKind Int .double
    have _ := complex_kind_lawful Int .double
    let env : ExactSymmetricEnv (Cplx Int) := FixedMatrix.complexEnv .double ⟨true, true, true, 10 ^ 6, 0, 0, 0⟩
      FloatArithmetic.fixedPoint false (FixedMatrix.matrixBodyConfig .double true false true) (FixedMatrix.lanes_even .double
        true false)
    let call : SymmetricCall (Cplx Int) := ⟨.upper, 4, ⟨0, 1⟩, fun j => ⟨j, 1⟩, 1, 1, 1, true⟩
    obtain ⟨after, ran, wrote⟩ := (symmetric_products_exact call env).hermvTasks (Runtime.splitting 3) [] (fun place => ⟨place, 2⟩) 4
      (fun _ => 7) (fun _ => 1) ⟨by decide, by decide, rfl, rfl⟩ (by decide)
    refine ⟨after, ran, ?_⟩
    refine (wrote.written 2 (by decide)).trans ?_
    decide +kernel

end Calls

end Zynum
