import Zynum.Vector.Operations

set_option autoImplicit false

/- Over exact scalars every route of scal, axpy and dot has one meaning. -/
namespace Zynum

open ArrayProgram

section Stores

variable {T : Type}

theorem parallel_scal_unit_updates (rt : Runtime) (site : Site) (n : Nat) (apply : T → T) (x next : Mem T) (start : Nat)
    (accepted : parallelScalUnit rt site n apply x start = some next) :
    next = scalUnit apply start 0 n x := by
  unfold parallelScalUnit at accepted
  simp only at accepted
  split at accepted
  · exact absurd accepted (by simp only [reduceCtorEq, not_false_eq_true])
  · rename_i several
    obtain ⟨order, complete, rfl⟩ := run_tasks_accepted accepted
    have parts := Updates.split_dispatch order (rt.taskCount site n) 0 n (evenBound n (rt.taskCount site n))
      (fun task => scalUnit apply start (evenBound n (rt.taskCount site n) task)
        (evenBound n (rt.taskCount site n) (task + 1)))
      (even_splits n _ (by omega)) complete (start_injective start _)
      (fun task _ => updates_elementwise_range start _ _ (fun _ => apply))
    have whole := updates_elementwise_range start 0 n (fun _ => apply)
    exact congrFun (parts.unique whole) x

theorem parallel_axpy_unit_updates (rt : Runtime) (site : Site) (n : Nat) (value : T → T → T) (x : Mem T) (xStart : Nat)
    (y next : Mem T) (yStart : Nat)
    (accepted : parallelAxpyUnit rt site n value x xStart y yStart = some next) :
    next = axpyUnit value x xStart yStart 0 n y := by
  unfold parallelAxpyUnit at accepted
  simp only at accepted
  split at accepted
  · exact absurd accepted (by simp only [reduceCtorEq, not_false_eq_true])
  · rename_i several
    obtain ⟨order, complete, rfl⟩ := run_tasks_accepted accepted
    have parts := Updates.split_dispatch order (rt.taskCount site n) 0 n (evenBound n (rt.taskCount site n))
      (fun task => axpyUnit value x xStart yStart (evenBound n (rt.taskCount site n) task)
        (evenBound n (rt.taskCount site n) (task + 1)))
      (even_splits n _ (by omega)) complete (start_injective yStart _)
      (fun task _ => updates_elementwise_range yStart _ _ (fun i => value (x (xStart + i))))
    have whole := updates_elementwise_range yStart 0 n (fun i => value (x (xStart + i)))
    exact congrFun (parts.unique whole) y

end Stores

section Ring

variable {T : Type} [CommRing T]

theorem scal_unit_real_updates (n : Nat) (alpha : T) (start : Nat) :
    Updates (Set.Iio n) (fun i => start + i) (fun _ old => alpha * old) (fun x => scalUnitReal n alpha x start) := by
  have whole := updates_elementwise_range start 0 n (fun _ old => old * alpha)
  rw [Ico_from_zero] at whole
  exact whole.congr rfl (fun _ _ _ => mul_comm _ _)

theorem axpy_unit_real_updates (n : Nat) (alpha : T) (x : Mem T) (xStart yStart : Nat) :
    Updates (Set.Iio n) (fun i => yStart + i) (fun i old => old + alpha * x (xStart + i))
      (fun y => axpyUnitReal n alpha x xStart y yStart) := by
  have whole := updates_elementwise_range yStart 0 n (fun i old => alpha * x (xStart + i) + old)
  rw [Ico_from_zero] at whole
  exact whole.congr rfl (fun _ _ _ => add_comm _ _)

variable [Scalar T]

theorem dot_unit_sum (first last : Nat) (x : Mem T) (xStart : Nat) (y : Mem T) (yStart : Nat) (conjx : Bool) :
    dotUnit first last x xStart y yStart conjx =
      ∑ i ∈ Finset.Ico first last, conjugateIf (x (xStart + i)) conjx * y (yStart + i) := by
  rw [dotUnit, loop_range_accumulate, zero_add]

theorem parallel_dot_unit_sum (rt : Runtime) (site : Site) (n : Nat) (x : Mem T) (xStart : Nat) (y : Mem T)
    (yStart : Nat) (conjx : Bool) (total : T)
    (accepted : parallelDotUnit rt site n x xStart y yStart conjx = some total) :
    total = dotUnit 0 n x xStart y yStart conjx := by
  unfold parallelDotUnit at accepted
  simp only at accepted
  split at accepted
  · exact absurd accepted (by simp only [reduceCtorEq, not_false_eq_true])
  · rename_i several
    obtain ⟨partials, answer, rfl⟩ := Option.map_eq_some_iff.mp accepted
    obtain ⟨order, complete, rfl⟩ := run_tasks_accepted answer
    have splits := even_splits n (rt.taskCount site n) (by omega)
    have stored := Updates.dispatch order (rt.taskCount site n) (fun task => ({task} : Set Nat)) _ complete
      (fun task _ => updates_point task id (fun task _ =>
        dotUnit (evenBound n (rt.taskCount site n) task) (evenBound n (rt.taskCount site n) (task + 1))
          x xStart y yStart conjx))
      (Function.injective_id.injOn) (fun first second _ _ different => Set.disjoint_singleton.mpr different)
    rw [loop_accumulate, zero_add, dot_unit_sum, ← splits.sum]
    refine Finset.sum_congr rfl (fun task member => ?_)
    have small := Finset.mem_range.mp member
    rw [← dot_unit_sum]
    exact stored.written (fun _ => 0) task ⟨task, small, rfl⟩

theorem dot_unit_exact (rt : Runtime) (site : Site) (n : Int) (x : Mem T) (xStart : Nat) (y : Mem T) (yStart : Nat)
    (conjx : Bool) :
    dot rt site n x xStart 1 y yStart 1 conjx =
      ∑ i ∈ Finset.range (toUsize n), conjugateIf (x (xStart + i)) conjx * y (yStart + i) := by
  rw [Finset.range_eq_Ico, ← dot_unit_sum]
  by_cases empty : n ≤ 0
  · have none : toUsize n = 0 := by simp only [toUsize]; omega
    simp only [dot, empty, true_or, if_true, none]
    rfl
  · simp only [dot, empty, one_ne_zero, or_self, if_false, and_self, if_true]
    cases answer : parallelDotUnit rt site (toUsize n) x xStart y yStart conjx with
    | none => rfl
    | some total => exact parallel_dot_unit_sum rt site _ x xStart y yStart conjx total answer

end Ring

section Lawful

variable {T : Type} [CommRing T] [Scalar T] [LawfulScalar T]

theorem scal_value_exact (alpha value : T) : scalValue alpha value = alpha * value := by
  unfold scalValue
  split
  · exact mul_comm value alpha
  · split
    · rename_i flat
      rw [LawfulScalar.scaleByReal_eq, LawfulScalar.imagIsZero_real alpha flat]
    · rfl

theorem axpy_value_exact (alpha x y : T) : axpyValue alpha x y = y + alpha * x := by
  unfold axpyValue
  split
  · exact add_comm _ _
  · split
    · rename_i flat
      rw [LawfulScalar.scaleByReal_eq, LawfulScalar.imagIsZero_real alpha flat, add_comm]
    · rfl

theorem scal_unit_updates (rt : Runtime) (site : Site) (n : Int) (alpha : T) (start : Nat) :
    Updates (Set.Iio (toUsize n)) (fun i => start + i) (fun _ old => alpha * old)
      (fun x => scal rt site n alpha x start 1) := by
  by_cases empty : n ≤ 0
  · have none : toUsize n = 0 := by simp only [toUsize]; omega
    refine ((updates_nothing (fun i => start + i) _).congr ?_ (fun _ _ _ => rfl)).congr_run ?_
    · rw [none]
      exact Nat.bot_eq_zero ▸ Set.Iio_bot.symm
    · intro x
      simp only [scal, empty, true_or, if_true]
  · have skip : ¬ (n ≤ 0 ∨ (1 : Int) = 0) := by omega
    cases one : isOne alpha with
    | true =>
      have unit : alpha = 1 := (LawfulScalar.isOne_iff alpha).mp one
      refine ((updates_same _ (fun i => start + i)).congr rfl ?_).congr_run ?_
      · intro _ old _
        rw [unit, one_mul]
      · intro x
        simp only [scal, skip, one, if_true, if_false]
    | false =>
      have whole := updates_elementwise_range start 0 (toUsize n) (fun _ => scalValue alpha)
      rw [Ico_from_zero] at whole
      refine (whole.congr rfl (fun _ old _ => scal_value_exact alpha old)).congr_run ?_
      intro x
      simp only [scal, skip, one, if_true, if_false, Bool.false_eq_true]
      cases answer : parallelScalUnit rt site (toUsize n) (scalValue alpha) x start with
      | none => rfl
      | some next => exact parallel_scal_unit_updates rt site _ _ x next start answer

theorem axpy_unit_updates (rt : Runtime) (site : Site) (n : Int) (alpha : T) (x : Mem T) (xStart yStart : Nat) :
    Updates (Set.Iio (toUsize n)) (fun i => yStart + i) (fun i old => old + alpha * x (xStart + i))
      (fun y => axpy rt site n alpha x xStart 1 y yStart 1) := by
  by_cases empty : n ≤ 0
  · have none : toUsize n = 0 := by simp only [toUsize]; omega
    refine ((updates_nothing (fun i => yStart + i) _).congr ?_ (fun _ _ _ => rfl)).congr_run ?_
    · rw [none]
      exact Nat.bot_eq_zero ▸ Set.Iio_bot.symm
    · intro y
      simp only [axpy, empty, true_or, if_true]
  · cases nothing : isZero alpha with
    | true =>
      have zero : alpha = 0 := (LawfulScalar.isZero_iff alpha).mp nothing
      refine ((updates_same _ (fun i => yStart + i)).congr rfl ?_).congr_run ?_
      · intro _ old _
        rw [zero, zero_mul, add_zero]
      · intro y
        simp only [axpy, nothing, or_true, if_true]
    | false =>
      have whole := updates_elementwise_range yStart 0 (toUsize n) (fun i => axpyValue alpha (x (xStart + i)))
      rw [Ico_from_zero] at whole
      refine (whole.congr rfl (fun i old _ => axpy_value_exact alpha _ old)).congr_run ?_
      intro y
      simp only [axpy, empty, nothing, one_ne_zero, or_self, if_false, Bool.false_eq_true, and_self, if_true]
      cases answer : parallelAxpyUnit rt site (toUsize n) (axpyValue alpha) x xStart y yStart with
      | none => rfl
      | some next => exact parallel_axpy_unit_updates rt site _ _ x xStart y next yStart answer

end Lawful

end Zynum
