import Zynum.Vector.Exact
import Zynum.Vector.SecondRoutines
import Zynum.Vector.Sums

set_option autoImplicit false

/- The routines of core/vector/operations.zig as the matrix routines call them,
   on arrays of elements, against their lane loops on the storage of reals. -/
namespace Zynum

open ArrayProgram

section Strides

variable {T : Type} [CommRing T] [Scalar T] [LawfulScalar T]

theorem scal_updates (rt : Runtime) (site : Site) (n : Int) (alpha : T) (start : Nat) (incx : Int) (nonzero : incx ≠ 0) :
    Updates (Set.Iio (toUsize n)) (fun i => start + ix (startIndex n incx) i incx) (fun _ old => alpha * old)
      (fun x => scal rt site n alpha x start incx) := by
  by_cases unit : incx = 1
  · subst unit
    exact (scal_unit_updates rt site n alpha start).congr_address (fun i _ => congrArg (start + ·) (ix_unit n i))
  · have injective : Set.InjOn (fun i => start + ix (startIndex n incx) i incx) (Set.Iio (toUsize n)) :=
      fun i first j second same => ix_injective n incx nonzero first second (Nat.add_left_cancel same)
    by_cases empty : n ≤ 0
    · have none : toUsize n = 0 := by simp only [toUsize]; omega
      rw [none]
      refine ⟨fun _ _ inside => absurd inside (Nat.not_lt_zero _), fun store place _ => ?_⟩
      simp only [scal, empty, true_or, if_true]
    · have whole := updates_elementwise (toUsize n) (fun i => start + ix (startIndex n incx) i incx)
        (fun _ old => alpha * old) injective
      cases one : isOne alpha with
      | true =>
        have same : alpha = 1 := (LawfulScalar.isOne_iff alpha).mp one
        refine ((updates_same _ _).congr rfl (fun _ old _ => ?_)).congr_run (fun x => ?_)
        · rw [same, one_mul]
        · simp only [scal, empty, nonzero, or_self, one, if_true, if_false]
      | false =>
        refine whole.congr_run (fun x => ?_)
        simp only [scal, empty, nonzero, or_self, one, unit, if_false, Bool.false_eq_true]

theorem axpy_updates (rt : Runtime) (site : Site) (n : Int) (alpha : T) (x : Mem T) (xStart : Nat) (incx : Int)
    (yStart : Nat) (incy : Int) (nonzeroX : incx ≠ 0) (nonzeroY : incy ≠ 0) :
    Updates (Set.Iio (toUsize n)) (fun i => yStart + ix (startIndex n incy) i incy)
      (fun i old => old + alpha * x (xStart + ix (startIndex n incx) i incx))
      (fun y => axpy rt site n alpha x xStart incx y yStart incy) := by
  by_cases unit : incx = 1 ∧ incy = 1
  · obtain ⟨unitX, unitY⟩ := unit
    subst unitX
    subst unitY
    refine ((axpy_unit_updates rt site n alpha x xStart yStart).congr rfl (fun i old _ => ?_)).congr_address (fun i _ => ?_)
    · rw [ix_unit]
    · rw [ix_unit]
  · have injective : Set.InjOn (fun i => yStart + ix (startIndex n incy) i incy) (Set.Iio (toUsize n)) :=
      fun i first j second same => ix_injective n incy nonzeroY first second (Nat.add_left_cancel same)
    by_cases empty : n ≤ 0
    · have none : toUsize n = 0 := by simp only [toUsize]; omega
      rw [none]
      refine ⟨fun _ _ inside => absurd inside (Nat.not_lt_zero _), fun store place _ => ?_⟩
      simp only [axpy, empty, true_or, if_true]
    · have whole := updates_elementwise (toUsize n) (fun i => yStart + ix (startIndex n incy) i incy)
        (fun i old => old + alpha * x (xStart + ix (startIndex n incx) i incx)) injective
      cases nothing : isZero alpha with
      | true =>
        have zero : alpha = 0 := (LawfulScalar.isZero_iff alpha).mp nothing
        refine ((updates_same _ _).congr rfl (fun _ old _ => ?_)).congr_run (fun y => ?_)
        · rw [zero, zero_mul, add_zero]
        · simp only [axpy, nothing, or_true, if_true]
      | false =>
        refine whole.congr_run (fun y => ?_)
        simp only [axpy, empty, nonzeroX, nonzeroY, nothing, or_self, unit, if_false, Bool.false_eq_true]

omit [LawfulScalar T] in
theorem dot_exact (rt : Runtime) (site : Site) (n : Int) (x : Mem T) (xStart : Nat) (incx : Int) (y : Mem T) (yStart : Nat)
    (incy : Int) (conjx : Bool) (nonzeroX : incx ≠ 0) (nonzeroY : incy ≠ 0) :
    dot rt site n x xStart incx y yStart incy conjx = ∑ i ∈ Finset.range (toUsize n),
      conjugateIf (x (xStart + ix (startIndex n incx) i incx)) conjx * y (yStart + ix (startIndex n incy) i incy) := by
  by_cases unit : incx = 1 ∧ incy = 1
  · obtain ⟨unitX, unitY⟩ := unit
    subst unitX
    subst unitY
    rw [dot_unit_exact]
    exact Finset.sum_congr rfl (fun i _ => by rw [ix_unit])
  · by_cases empty : n ≤ 0
    · have none : toUsize n = 0 := by simp only [toUsize]; omega
      simp only [dot, empty, true_or, if_true, none, Finset.range_zero, Finset.sum_empty]
    · simp only [dot, empty, nonzeroX, nonzeroY, or_self, unit, if_false]
      rw [loop_accumulate, zero_add]

end Strides

namespace LevelOne

open Element (width parts whole)

variable {R T : Type} [CommRing R] [CommRing T] [Element R T] [LawfulElement R T]

def elements (T : Type) [Element R T] (memory : Nat → R) (start : Nat) : Mem T :=
  fun p => whole (fun part => memory (start + (width T * p + part)))

-- A routine that rewrites the cells of a strided vector rewrites its elements and keeps the others.
theorem elements_rewritten {n inc : Int} {start : Nat} {memory final : Nat → R} {value : Nat × Nat → R}
    (target : Nat → T) (meaning : ∀ i part, part < width T → value (i, part) = parts (target i) part)
    (overwrites : Overwrites (slots (width T) (Set.Iio (toUsize n)))
      (slotAddress (Operand.strided (width T) n inc (cellsFrom start))) value memory final) :
    Wrote (Set.Iio (toUsize n)) (fun i => 0 + ix (startIndex n inc) i inc) (fun i _ => target i) (elements T memory start)
      (elements T final start) := by
  constructor
  · intro i small
    refine (LawfulElement.whole_congr (T := T) _ _ (fun part inside => ?_)).trans (LawfulElement.whole_parts (target i))
    simp only [Nat.zero_add]
    exact (overwrites.written (i, part) ⟨inside, small⟩).trans (meaning i part inside)
  · intro p apart
    refine LawfulElement.whole_congr (T := T) _ _ (fun part inside => ?_)
    refine overwrites.kept _ (fun slot member same => ?_)
    have place : start + (width T * ix (startIndex n inc) slot.1 inc + slot.2) = start + (width T * p + part) := same
    have index : ix (startIndex n inc) slot.1 inc = p := by
      have cells := congrArg (· / width T) (Nat.add_left_cancel place)
      simp only [Nat.mul_add_div LawfulElement.width_pos, Nat.div_eq_of_lt member.1, Nat.div_eq_of_lt inside,
        Nat.add_zero] at cells
      exact cells
    exact apart slot.1 member.2 ((Nat.zero_add _).trans index)

section Agreement

variable (rt : Runtime) (site site' : Site) (machine : VectorMachine) {n incx incy : Int} {xStart yStart : Nat}
  {memory final : Nat → R}

theorem scal_elements (alpha : T) (nonzero : incx ≠ 0)
    (outcome : (scal machine site n alpha (cellsFrom xStart) incx).Outcome memory () final) :
    elements T final xStart = Zynum.scal rt site' n alpha (elements T memory xStart) 0 incx := by
  have rewritten := scal_rewrites machine site n alpha xStart incx nonzero memory () final outcome
  have stored := elements_rewritten (fun i => alpha * elements T memory xStart (ix (startIndex n incx) i incx))
    (fun i part _ => rfl) rewritten
  have updated := (scal_updates rt site' n alpha 0 incx nonzero).wrote (elements T memory xStart)
  refine Wrote.unique stored ⟨fun i small => ?_, updated.kept⟩
  rw [updated.written i small, Nat.zero_add]

theorem axpy_elements (alpha : T) (nonzeroX : incx ≠ 0) (nonzeroY : incy ≠ 0)
    (aligned : Aligned (Operand.strided (width T) n incx (cellsFrom xStart))
      (Operand.strided (width T) n incy (cellsFrom yStart)) (Set.Iio (toUsize n)))
    (outcome : (axpy machine site n alpha xStart yStart (cellsFrom xStart) incx (cellsFrom yStart) incy).Outcome
      memory () final) :
    elements T final yStart =
      Zynum.axpy rt site' n alpha (elements T memory xStart) 0 incx (elements T memory yStart) 0 incy := by
  have rewritten := axpy_rewrites machine site alpha nonzeroX nonzeroY aligned memory () final outcome
  have stored := elements_rewritten (fun i => elements T memory yStart (ix (startIndex n incy) i incy) +
    alpha * elements T memory xStart (ix (startIndex n incx) i incx)) (fun i part _ => rfl) rewritten
  have updated := (axpy_updates rt site' n alpha (elements T memory xStart) 0 incx 0 incy nonzeroX nonzeroY).wrote
    (elements T memory yStart)
  refine Wrote.unique stored ⟨fun i small => ?_, updated.kept⟩
  rw [updated.written i small, Nat.zero_add, Nat.zero_add]

theorem dot_elements (conjx : Bool) {result : T} (nonzeroX : incx ≠ 0) (nonzeroY : incy ≠ 0)
    (outcome : (dot machine site n (cellsFrom xStart) incx (cellsFrom yStart) incy conjx).Outcome memory result final) :
    result = Zynum.dot rt site' n (elements T memory xStart) 0 incx (elements T memory yStart) 0 incy conjx := by
  obtain ⟨returned, _⟩ := dot_returns machine site conjx nonzeroX nonzeroY memory result final outcome
  rw [returned, dot_exact rt site' n _ 0 incx _ 0 incy conjx nonzeroX nonzeroY]
  refine Finset.sum_congr rfl (fun i _ => ?_)
  rw [Nat.zero_add, Nat.zero_add]
  rfl

end Agreement

end LevelOne

end Zynum
