import Zynum.MatrixVector.RankUpdateExact
import Zynum.MatrixVector.IndexMaps
import Zynum.MatrixVector.SymmetricWorkspaces

set_option autoImplicit false

/- symv, hemv, spmv and hpmv against their definition, on every route, for every number
   of tasks and whatever the workspaces held. -/
namespace Zynum

open ArrayProgram

variable {T : Type} [CommRing T] [Scalar T]

def symmetricProduct (S : Nat → Nat → T) (n : Int) (alpha : T) (x : Mem T) (incx : Int) (beta : T) (i : Nat) (old : T) : T :=
  alpha * ∑ j ∈ Finset.range (toUsize n), S i j * vectorGet x (startIndex n incx) j incx + beta * old

section Boundaries

theorem symv_task_splits (float : FloatArithmetic) (uplo : Triangle) (n taskCount : Nat) (several : 0 < taskCount) :
    Splits taskCount (symvTaskBoundary float uplo n taskCount) 0 n := by
  cases uplo with
  | upper => exact rank_task_splits float .upper n taskCount several
  | lower => exact rank_task_splits float .lower n taskCount several

theorem hermv_task_splits (float : FloatArithmetic) (balanceUpper : Bool) (n taskCount : Nat) (several : 0 < taskCount) :
    Splits taskCount (fun task =>
      if balanceUpper then upperTriangularTaskBoundary float n taskCount task else evenBound n taskCount task) 0 n := by
  cases balanceUpper with
  | true => exact rank_task_splits float .upper n taskCount several
  | false => exact even_splits n taskCount several

end Boundaries

section Private

variable [LawfulScalar T] {env : ExactSymmetricEnv T} {rt : Runtime} {site : Site} {uplo : Triangle} {n : Nat} {alpha : T} {a : Mem T}
  {lda : Int} {x : Mem T} {beta : T} {workspace y after : Mem T}

theorem parallel_symv_wrote
    (accepted : parallelSymvUnitReal env.toSymmetricEnv rt site uplo n alpha a lda x beta workspace y = some after) :
    Wrote (Set.Iio n) (fun i => i)
      (fun i old => beta * old + alpha * ∑ j ∈ Finset.range n, completion false uplo (denseEntry a lda) i j * x j) y after := by
  rw [parallelSymvUnitReal] at accepted
  split at accepted
  case isTrue => cases accepted
  case isFalse several =>
    split at accepted
    case isTrue => cases accepted
    case isFalse =>
      have count : 0 < rt.taskCount site n := Nat.lt_of_not_le (fun none => several (.inr (none.trans (Nat.zero_le 1))))
      have splits := symv_task_splits env.float uplo n (rt.taskCount site n) count
      obtain ⟨filled, ran, rfl⟩ := Option.map_eq_some_iff.mp accepted
      have total := private_columns_total _ _ (fun ranged => by
          simp only [SymmetricVectorProfile.useUpperRangedRealWorkspace, Bool.and_eq_true, decide_eq_true_eq] at ranged
          exact ranged.1.2) splits
        (fun task small => symv_columns_unit_real_adds env uplo n _ _ alpha a lda x (splits.ordered task small)
          ((splits.mono (task + 1) _ small le_rfl).trans splits.finish.le)) ran
      cases ranged : env.tuning.useUpperRangedRealWorkspace T (uplo = .upper) n with
      | true =>
        simp only [ranged, true_implies] at total
        refine ((merge_symv_upper_updates n _ beta filled _).congr rfl (fun i old small => ?_)).wrote y
        rw [total i small]
      | false =>
        simp only [ranged, Bool.false_eq_true, false_implies, if_true] at total
        refine ((merge_symv_updates n _ beta filled).congr rfl (fun i old small => ?_)).wrote y
        rw [total i small]

theorem parallel_hermv_wrote
    (accepted : parallelHermvUnitComplex env.toSymmetricEnv rt site uplo n alpha a lda x workspace y = some after) :
    Wrote (Set.Iio n) (fun i => i)
      (fun i old => old + alpha * ∑ j ∈ Finset.range n, completion true uplo (denseEntry a lda) i j * x j) y after := by
  rw [parallelHermvUnitComplex] at accepted
  split at accepted
  case isTrue => cases accepted
  case isFalse several =>
    split at accepted
    case isTrue => cases accepted
    case isFalse =>
      have count : 0 < rt.taskCount site n := Nat.lt_of_not_le (fun none => several (.inr (none.trans (Nat.zero_le 1))))
      have splits := hermv_task_splits env.float (env.tuning.balanceUpperHermitian (uplo = .upper) n) n _ count
      obtain ⟨filled, ran, rfl⟩ := Option.map_eq_some_iff.mp accepted
      have inside : ∀ task, task < rt.taskCount site n → _ ≤ n := fun task small =>
        (splits.mono (task + 1) _ small le_rfl).trans splits.finish.le
      have total := private_columns_total _ _ of_decide_eq_true splits
        (fun task small => hermv_columns_unit_complex_adds env uplo n _ _ alpha a lda x rt (0 :: task :: site)
          (splits.ordered task small) (inside task small)) ran
      by_cases upper : uplo = .upper
      · rw [if_pos upper]
        refine ((merge_hermv_updates n _ filled rt (1 :: site) _ inside).congr rfl (fun i old small => ?_)).wrote y
        rw [← total i small]
        exact congrArg (old + ·) (Finset.sum_congr rfl (fun task _ =>
          if_congr ⟨fun inside _ => inside, fun implied => implied (decide_eq_true upper)⟩ rfl rfl))
      · rw [if_neg upper]
        refine ((Updates.repeat _ _ _ (fun task _ => axpy_row_updates n filled rt (task :: 2 :: site) n (task * n) le_rfl)).congr rfl
          (fun i old small => ?_)).wrote y
        rw [← total i small, loop_accumulate]
        refine congrArg (old + ·) (Finset.sum_congr rfl (fun task _ => ?_))
        rw [if_pos (show i < n from small), if_pos (fun ranged => absurd (of_decide_eq_true ranged) upper)]

variable (env rt site uplo n alpha a lda x beta workspace)

theorem symv_unit_real_updates : Updates (Set.Iio n) (fun i => i)
    (fun i old => alpha * ∑ j ∈ Finset.range n, completion false uplo (denseEntry a lda) i j * x j + beta * old)
    (symvUnitReal env.toSymmetricEnv rt site uplo n alpha a lda x beta workspace) := by
  refine attempt_updates (fun y => if isZero alpha then none
    else parallelSymvUnitReal env.toSymmetricEnv rt site uplo n alpha a lda x beta workspace y) (fun y after ran => ?_) ?_
  · split at ran
    case isTrue => cases ran
    case isFalse => exact (parallel_symv_wrote ran).congr (fun i old _ => add_comm _ _)
  · cases nothing : isZero alpha with
    | true =>
      refine (scale_unit_real_updates n beta).congr rfl (fun i old _ => ?_)
      rw [(LawfulScalar.isZero_iff alpha).mp nothing, zero_mul, zero_add]
    | false =>
      refine ((scale_unit_real_updates n beta).then_same
        (symv_columns_unit_real_adds env uplo n 0 n alpha a lda x (Nat.zero_le n) le_rfl)).congr rfl (fun i old small => ?_)
      rw [← Finset.range_eq_Ico, symmetric_shares_total uplo n alpha _ x i small, add_comm]

theorem hermv_unit_complex_updates : Updates (Set.Iio n) (fun i => i)
    (fun i old => alpha * ∑ j ∈ Finset.range n, completion true uplo (denseEntry a lda) i j * x j + beta * old)
    (hermvUnitComplex env.toSymmetricEnv rt site uplo n alpha a lda x beta workspace) := by
  have scaled := scal_unit_updates rt (0 :: site) (n : Int) beta 0
  simp only [Nat.zero_add, toUsize, Int.toNat_natCast] at scaled
  cases nothing : isZero alpha with
  | true =>
    refine (scaled.congr rfl (fun i old _ => ?_)).congr_run (fun y => by simp only [hermvUnitComplex, nothing, if_true])
    rw [(LawfulScalar.isZero_iff alpha).mp nothing, zero_mul, zero_add]
  | false =>
    have added := attempt_updates
      (fun y => parallelHermvUnitComplex env.toSymmetricEnv rt (1 :: site) uplo n alpha a lda x workspace y)
      (fun y after ran => parallel_hermv_wrote ran)
      ((hermv_columns_unit_complex_adds env uplo n 0 n alpha a lda x rt (2 :: site) (Nat.zero_le n) le_rfl).congr rfl
        (fun i old small => by rw [← Finset.range_eq_Ico, symmetric_shares_total uplo n alpha _ x i small]))
    exact ((scaled.then_same added).congr rfl (fun i old _ => add_comm _ _)).congr_run
      (fun y => by simp only [hermvUnitComplex, nothing, Bool.false_eq_true, if_false])

end Private

section Packed

variable [DecidableEq T] [LawfulScalar T] {env : SymmetricEnv T} {rt : Runtime} {site : Site} {uplo : Triangle} {n : Nat} {alpha : T}
  {ap x : Mem T} {beta : T} {workspace y after : Mem T} {herm : Bool}

omit [DecidableEq T] in
theorem completion_real (real : isReal T = true) (herm : Bool) (uplo : Triangle) (entry : Nat → Nat → T) :
    completion herm uplo entry = completion false uplo entry := by
  have plain : Scalar.isComplex T = false := by simpa only [isReal, Bool.not_eq_true'] using real
  funext i j
  cases herm with
  | false => rfl
  | true => simp only [completion, if_true, LawfulScalar.conj_real plain, LawfulScalar.realOnly_real plain, Bool.false_eq_true,
    if_false]

theorem single_packed_wrote
    (accepted : singlePackedMvUnit env rt site uplo n alpha ap x beta workspace y = some after) :
    Wrote (Set.Iio n) (fun i => i)
      (fun i old => alpha * ∑ j ∈ Finset.range n, completion herm uplo (packedEntry uplo n ap) i j * x j + beta * old) y after := by
  rw [singlePackedMvUnit] at accepted
  split at accepted
  case isTrue => cases accepted
  case isFalse ready =>
    have real : isReal T = true := by
      cases kind : isReal T with
      | true => rfl
      | false => exact absurd (.inl kind) ready
    rw [completion_real real herm]
    split at accepted
    case isTrue nothing =>
      cases accepted
      refine ((scale_unit_real_updates n beta).congr rfl (fun i old _ => ?_)).wrote y
      rw [(LawfulScalar.isZero_iff alpha).mp nothing, zero_mul, zero_add]
    case isFalse =>
      split at accepted
      case isTrue => cases accepted
      case isFalse =>
        cases accepted
        refine ((merge_packed_updates n 1 beta _).congr rfl (fun i old small => ?_)).wrote y
        have columns := packed_mv_columns_unit_adds uplo n 0 n alpha x .compactSymmetricPackedFused ap false (Nat.zero_le n) le_rfl
        have cleared := (clear_cells_updates (T := T) 0 n).written workspace i small
        rw [Nat.zero_add] at cleared
        rw [Finset.sum_range_one, Nat.zero_mul, Nat.zero_add, columns.written _ i small, cleared, zero_add, ← Finset.range_eq_Ico,
          symmetric_shares_total uplo n alpha _ x i small, add_comm]

theorem parallel_packed_wrote
    (accepted : parallelPackedMvUnit env rt site uplo n alpha ap x beta workspace y herm = some after) :
    Wrote (Set.Iio n) (fun i => i)
      (fun i old => alpha * ∑ j ∈ Finset.range n, completion herm uplo (packedEntry uplo n ap) i j * x j + beta * old) y after := by
  rw [parallelPackedMvUnit] at accepted
  split at accepted
  case isTrue => exact single_packed_wrote accepted
  case isFalse =>
    split at accepted
    case isTrue => cases accepted
    case isFalse several =>
      split at accepted
      case isTrue => cases accepted
      case isFalse =>
        have count : 0 < rt.taskCount site n := Nat.lt_of_not_le (fun none => several (none.trans (Nat.zero_le 1)))
        have splits := symv_task_splits env.float uplo n (rt.taskCount site n) count
        obtain ⟨filled, ran, rfl⟩ := Option.map_eq_some_iff.mp accepted
        have total := private_columns_total false (symvTaskBoundary env.float uplo n (rt.taskCount site n))
          Bool.noConfusion splits (fun task small => packed_mv_columns_unit_adds uplo n _ _ alpha x _ ap herm
            (splits.ordered task small) ((splits.mono (task + 1) _ small le_rfl).trans splits.finish.le)) ran
        simp only [Bool.false_eq_true, false_implies, if_true] at total
        refine ((merge_packed_updates n _ beta filled).congr rfl (fun i old small => ?_)).wrote y
        rw [total i small, add_comm]

end Packed

section Strided

variable [LawfulScalar T]

theorem symmetric_serial_updates (S entry : Nat → Nat → T) (n : Int) (alpha : T) (x : Mem T) (incx : Int) (beta : T) (incy : Int)
    (nonzero : incy ≠ 0) (same : ∀ i j, i < toUsize n → j < toUsize n → entry i j = S i j) :
    Updates (Set.Iio (toUsize n)) (fun i => ix (startIndex n incy) i incy) (symmetricProduct S n alpha x incx beta)
      (fun y => symmetricSerial entry n alpha x incx beta y incy) := by
  have scaled := scale_output_updates (T := T) n beta incy nonzero
  cases nothing : isZero alpha with
  | true =>
    refine (scaled.congr rfl (fun i old _ => ?_)).congr_run (fun y => by simp only [symmetricSerial, nothing, if_true])
    rw [symmetricProduct, (LawfulScalar.isZero_iff alpha).mp nothing, zero_mul, zero_add]
  | false =>
    have rows := updates_elementwise (toUsize n) (fun i => ix (startIndex n incy) i incy)
      (fun i (old : T) => old + alpha * loop (toUsize n) (fun j sum => sum + entry i j * vectorGet x (startIndex n incx) j incx) 0)
      (ix_injective n incy nonzero)
    refine ((scaled.then_same rows).congr rfl (fun i old small => ?_)).congr_run
      (fun y => by simp only [symmetricSerial, nothing, Bool.false_eq_true, if_false])
    rw [loop_accumulate, zero_add, symmetricProduct, add_comm]
    refine congrArg (alpha * · + beta * old) (Finset.sum_congr rfl (fun j member => ?_))
    rw [same i j small (Finset.mem_range.mp member)]

omit [LawfulScalar T] in
theorem sym_packed_value (uplo : Triangle) (n : Nat) (ap : Mem T) (row col : Nat) (herm : Bool) :
    symPackedValue uplo n ap row col herm = completion herm uplo (packedEntry uplo n ap) row col := by
  have entry : ∀ i j, stored uplo i j = true → packedEntry uplo n ap i j = ap (packedIndex uplo n i j) := fun i j inside => by
    simp only [packedEntry, compactEntry, tri_packed_index, inside, if_true]
  simp only [symPackedValue, completion]
  by_cases diagonal : row = col
  · subst diagonal
    simp only [entry row row (stored_diagonal uplo row), stored_diagonal uplo row, Bool.not_true, Bool.and_false, Bool.false_eq_true,
      if_false, and_true, if_true]
  · cases inside : stored uplo row col with
    | true => simp only [entry row col inside, Bool.not_true, Bool.and_false, Bool.false_eq_true, if_false, diagonal,
      and_false, if_true]
    | false =>
      rw [entry col row (stored_flip uplo row col inside), packed_index_mirrored uplo n row col]
      simp only [Bool.not_false, Bool.and_true, diagonal, and_false, Bool.false_eq_true, if_false]

end Strided

section Calls

variable [LawfulScalar T] (env : ExactSymmetricEnv T) (rt : Runtime) (site : Site) (uplo : Triangle) (n : Int) (alpha : T)
  (a : Mem T) (lda : Int) (x : Mem T) (incx : Int) (beta : T) (workspace : Mem T) (incy : Int) (herm : Bool)

omit [Scalar T] [LawfulScalar T] in
theorem symmetric_product_empty (S : Nat → Nat → T) (none : n ≤ 0) : Updates (Set.Iio (toUsize n))
    (fun i => ix (startIndex n incy) i incy) (symmetricProduct S n alpha x incx beta) (fun y => y) := by
  have size : toUsize n = 0 := Int.toNat_of_nonpos none
  refine ⟨fun y i small => ?_, fun _ _ _ => rfl⟩
  rw [size] at small
  exact absurd small (Nat.not_lt_zero i)

omit [Scalar T] [LawfulScalar T] in
theorem symmetric_product_unit (S : Nat → Nat → T) {y after : Mem T} (stepx : incx = 1) (stepy : incy = 1)
    (wrote : Wrote (Set.Iio (toUsize n)) (fun i => i)
      (fun i old => alpha * ∑ j ∈ Finset.range (toUsize n), S i j * x j + beta * old) y after) :
    Wrote (Set.Iio (toUsize n)) (fun i => ix (startIndex n incy) i incy) (symmetricProduct S n alpha x incx beta) y after := by
  subst stepx stepy
  constructor
  · intro i small
    rw [ix_unit, wrote.written i small]
    simp only [symmetricProduct, vector_get_unit]
  · intro place apart
    refine wrote.kept place (fun i small => ?_)
    rw [← ix_unit n i]
    exact apart i small

theorem symv_updates (stepx : incx ≠ 0) (stepy : incy ≠ 0) : Updates (Set.Iio (toUsize n)) (fun i => ix (startIndex n incy) i incy)
    (symmetricProduct (completion herm uplo (denseEntry a lda)) n alpha x incx beta)
    (fun y => symv env.toSymmetricEnv rt site uplo n alpha a lda x incx beta workspace y incy herm) := by
  by_cases empty : n ≤ 0
  · exact (symmetric_product_empty n alpha x incx beta incy _ empty).congr_run (fun y => by rw [symv, if_pos (.inl empty)])
  · have enter : ¬ (n ≤ 0 ∨ incx = 0 ∨ incy = 0) := by omega
    by_cases real : isReal T ∧ herm = false ∧ incx = 1 ∧ incy = 1
    · refine updates_of_wrote (fun y => symmetric_product_unit n alpha x incx beta incy _ real.2.2.1 real.2.2.2 ?_)
      rw [symv, if_neg enter, if_pos real, real.2.1]
      exact (symv_unit_real_updates env rt site uplo (toUsize n) alpha a lda x beta workspace).wrote y
    · by_cases complex : Scalar.isComplex T ∧ herm ∧ incx = 1 ∧ incy = 1
      · refine updates_of_wrote (fun y => symmetric_product_unit n alpha x incx beta incy _ complex.2.2.1 complex.2.2.2 ?_)
        rw [symv, if_neg enter, if_neg real, if_pos complex, complex.2.1]
        exact (hermv_unit_complex_updates env rt site uplo (toUsize n) alpha a lda x beta workspace).wrote y
      · exact (symmetric_serial_updates _ _ n alpha x incx beta incy stepy
          (fun i j _ _ => sym_value_completion uplo a lda i j herm)).congr_run
          (fun y => by rw [symv, if_neg enter, if_neg real, if_neg complex])

theorem spmv_updates [DecidableEq T] (env : SymmetricEnv T) (stepx : incx ≠ 0) (stepy : incy ≠ 0) :
    Updates (Set.Iio (toUsize n)) (fun i => ix (startIndex n incy) i incy)
      (symmetricProduct (completion herm uplo (packedEntry uplo (toUsize n) a)) n alpha x incx beta)
      (fun y => spmv env rt site uplo n alpha a x incx beta workspace y incy herm) := by
  by_cases empty : n ≤ 0
  · exact (symmetric_product_empty n alpha x incx beta incy _ empty).congr_run (fun y => by rw [spmv, if_pos (.inl empty)])
  · have enter : ¬ (n ≤ 0 ∨ incx = 0 ∨ incy = 0) := by omega
    refine (attempt_updates (fun y =>
      if env.tuning.preferPackedParallel (toUsize n) ∧ incx = 1 ∧ incy = 1 ∧ isZero alpha = false then
        parallelPackedMvUnit env rt site uplo (toUsize n) alpha a x beta workspace y herm
      else none) (fun y after ran => ?_)
      (symmetric_serial_updates _ _ n alpha x incx beta incy stepy (fun i j _ _ => sym_packed_value uplo (toUsize n) a i j
        herm))).congr_run
      (fun y => by rw [spmv, if_neg enter]; rfl)
    split at ran
    case isFalse => cases ran
    case isTrue fast =>
      exact symmetric_product_unit n alpha x incx beta incy _ fast.2.1 fast.2.2.1 (parallel_packed_wrote ran)

end Calls

end Zynum
