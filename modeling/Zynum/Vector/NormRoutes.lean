import Mathlib.Analysis.Real.Sqrt
import Zynum.Vector.Elementwise
import Zynum.Vector.NormExact

set_option autoImplicit false

/- nrm2 on every route. The strided loop and the norms of tasks keep a scale and
   a sum of squares whose product is the sum so far. -/
namespace Zynum.Norm

open ArrayProgram LevelOne WithNan

variable {K : Type} [Field K] [LinearOrder K] [IsStrictOrderedRing K] (ops : NormOps K)

section Accumulating

def Magnitude (value : WithNan K) : Prop := ∀ a, value = number a → 0 ≤ a

structure Balanced (state : WithNan K × WithNan K) (total : WithNan K) : Prop where
  scaled : ∃ scale : K, state.1 = number scale ∧ 0 ≤ scale ∧ number (scale * scale) * state.2 = total
  inside : ∀ a, state.2 = number a → 0 ≤ a

theorem balanced_start : Balanced ((0, 1) : WithNan K × WithNan K) 0 := by
  refine ⟨⟨0, rfl, le_refl 0, congrArg number ?_⟩, fun a same => number.inj same ▸ zero_le_one⟩
  rw [zero_mul, zero_mul]

omit [IsStrictOrderedRing K] in
theorem accumulate_zero (state : WithNan K × WithNan K) : accumulate 0 state = some state := if_pos rfl

omit [IsStrictOrderedRing K] in
theorem accumulate_nan (scale : K) (ssq : WithNan K) : accumulate nan (number scale, ssq) = some (number scale, nan) := by
  have present : (nan : WithNan K) ≠ 0 := by
    intro same
    cases same
  have quiet : ¬(number scale).less nan = true := by
    rw [less_nan]
    exact Bool.false_ne_true
  rw [accumulate, if_neg present, if_neg quiet]
  exact congrArg (fun sum => some (number scale, sum)) (add_nan ssq)

omit [IsStrictOrderedRing K] in
theorem accumulate_larger {scale a : K} (ssq : WithNan K) (nonzero : a ≠ 0) (larger : scale < a) :
    accumulate (number a) (number scale, ssq) = some (number a, 1 + ssq * number (scale / a) * number (scale / a)) := by
  rw [accumulate, if_neg (number_eq_zero.not.mpr nonzero), if_pos (by rw [less_number, decide_eq_true larger]),
    quotient_number scale nonzero, Option.map_some]

omit [IsStrictOrderedRing K] in
theorem accumulate_smaller {scale a : K} (ssq : WithNan K) (nonzero : a ≠ 0) (smaller : ¬scale < a) (positive : scale ≠ 0) :
    accumulate (number a) (number scale, ssq) = some (number scale, ssq + number (a / scale) * number (a / scale)) := by
  rw [accumulate, if_neg (number_eq_zero.not.mpr nonzero),
    if_neg (by rw [less_number, decide_eq_false smaller]; exact Bool.false_ne_true), quotient_number a positive, Option.map_some]

-- No step divides by zero: the scale is not zero once a number that is not zero has been seen.
theorem Balanced.accumulate {state : WithNan K × WithNan K} {total ax : WithNan K} (balanced : Balanced state total)
    (magnitude : Magnitude ax) : ∃ next, accumulate ax state = some next ∧ Balanced next (total + ax * ax) := by
  obtain ⟨scale, first, nonneg, same⟩ := balanced.scaled
  obtain ⟨scaleOf, ssq⟩ := state
  subst first
  change number (scale * scale) * ssq = total at same
  have inside : ∀ b, ssq = number b → 0 ≤ b := balanced.inside
  cases ax with
  | nan =>
    refine ⟨_, accumulate_nan scale ssq, ?_⟩
    rw [nan_mul, add_nan]
    exact ⟨⟨scale, rfl, nonneg, mul_nan _⟩, fun _ absent => by cases absent⟩
  | number a =>
    have above : 0 ≤ a := magnitude a rfl
    rcases eq_or_ne a 0 with rfl | nonzero
    · refine ⟨_, accumulate_zero _, ?_⟩
      rw [number_mul, mul_zero, number_zero, add_zero]
      exact balanced
    by_cases larger : scale < a
    · refine ⟨_, accumulate_larger ssq nonzero larger, ?_⟩
      rw [← same]
      cases ssq with
      | nan => exact ⟨⟨a, rfl, above, rfl⟩, fun _ absent => by cases absent⟩
      | number b =>
        refine ⟨⟨a, rfl, above, congrArg number ?_⟩, fun c total => number.inj total ▸ ?_⟩
        · field_simp
          ring
        · have ratio := mul_self_nonneg (scale / a)
          rw [mul_assoc]
          exact add_nonneg zero_le_one (mul_nonneg (inside b rfl) ratio)
    · have positive : scale ≠ 0 := (lt_of_lt_of_le (lt_of_le_of_ne above (Ne.symm nonzero)) (not_lt.mp larger)).ne'
      refine ⟨_, accumulate_smaller ssq nonzero larger positive, ?_⟩
      rw [← same]
      cases ssq with
      | nan => exact ⟨⟨scale, rfl, nonneg, rfl⟩, fun _ absent => by cases absent⟩
      | number b =>
        refine ⟨⟨scale, rfl, nonneg, congrArg number ?_⟩, fun c total => number.inj total ▸ ?_⟩
        · field_simp
        · exact add_nonneg (inside b rfl) (mul_self_nonneg (a / scale))

theorem accumulate_all_balanced (count : Nat) (value : Nat → WithNan K)
    (magnitudes : ∀ i, i < count → Magnitude (value i)) {state : WithNan K × WithNan K} {total : WithNan K}
    (balanced : Balanced state total) :
    ∃ next, accumulateAll count value (some state) = some next ∧
      Balanced next (total + ∑ i ∈ Finset.range count, value i * value i) := by
  induction count with
  | zero =>
    refine ⟨state, rfl, ?_⟩
    rw [Finset.range_zero, Finset.sum_empty, add_zero]
    exact balanced
  | succ count ih =>
    obtain ⟨before, reached, held⟩ := ih (fun i small => magnitudes i (by omega))
    obtain ⟨next, stepped, after⟩ := held.accumulate (magnitudes count (Nat.lt_succ_self count))
    refine ⟨next, ?_, ?_⟩
    · rw [accumulateAll, loop_succ, ← accumulateAll, reached, Option.bind_some, stepped]
    · rw [Finset.sum_range_succ, ← add_assoc]
      exact after

variable {ops}

theorem Balanced.finish {state : WithNan K × WithNan K} {total : WithNan K} (balanced : Balanced state total) :
    finishNorm ops state = squareRoot ops total := by
  obtain ⟨scale, first, nonneg, same⟩ := balanced.scaled
  obtain ⟨scaleOf, ssq⟩ := state
  subst first
  change number (scale * scale) * ssq = total at same
  subst same
  cases ssq with
  | nan => rfl
  | number b => exact congrArg number (scaled_root ops nonneg (balanced.inside b rfl) rfl)

theorem combine_root (strict : Bool) (count : Nat) (norms : Nat → WithNan K)
    (magnitudes : ∀ index, index < count → Magnitude (norms index)) :
    combineNrm2Partials ops strict count norms =
      some (squareRoot ops (∑ index ∈ Finset.range count, norms index * norms index)) := by
  obtain ⟨state, reached, whole⟩ := accumulate_all_balanced count norms magnitudes balanced_start
  rw [zero_add] at whole
  rw [combineNrm2Partials]
  split
  · rename_i index found
    have small : index < count := List.mem_range.mp (List.mem_of_find?_eq_some found)
    have infinite : (norms index).isNan = true := by
      have stopped : (strict && !(norms index).isFinite) = true :=
        @List.find?_some _ (fun index => strict && !(norms index).isFinite) _ _ found
      rw [isFinite, Bool.not_not] at stopped
      exact (Bool.and_eq_true_iff.mp stopped).2
    have absent : norms index = nan := (is_nan_iff _).mp infinite
    have total : ∑ index ∈ Finset.range count, norms index * norms index = nan :=
      (sum_nan_iff _ _).mpr ⟨index, Finset.mem_range.mpr small, by rw [absent, nan_mul]⟩
    rw [absent, total]
    rfl
  · rw [reached, Option.map_some, whole.finish]

end Accumulating

section Strided

variable {x : Operand Nat} (memory : Nat → WithNan K)

theorem magnitude_nonneg (value : WithNan K) : Magnitude value.magnitude := by
  cases value with
  | nan => exact nofun
  | number b => exact fun a same => number.inj same ▸ abs_nonneg b

omit [IsStrictOrderedRing K] in
theorem magnitude_square (value : WithNan K) : value.magnitude * value.magnitude = value * value := by
  cases value with
  | nan => rfl
  | number a => exact congrArg number (abs_mul_abs_self a)

theorem run_nrm2_strided (n : Nat) :
    (nrm2Strided ops x n).run memory = (some (squareRoot ops (rangeSquares x memory 0 n)), memory) := by
  have elementwise : ElementStep x.width (fun (_ : Nat) (value : Nat → WithNan K) =>
      accumulateAll x.width (fun part => (value part).magnitude)) := by
    intro index value value' state same
    refine loop_congr x.width _ _ state (fun part sum small => ?_)
    dsimp only
    rw [same part small]
  have walked := loop_invariant n (fun i =>
      accumulateAll x.width (fun part => (x.element memory i part).magnitude)) (some (0, 1))
    (fun done state => ∃ pair, state = some pair ∧ Balanced pair (rangeSquares x memory 0 done)) (by
      refine ⟨(0, 1), rfl, ?_⟩
      rw [rangeSquares, Finset.Ico_self, Finset.sum_empty]
      exact balanced_start) (by
      rintro done _ small ⟨pair, rfl, balanced⟩
      have next := accumulate_all_balanced x.width (fun part => (x.element memory done part).magnitude)
        (fun part _ => magnitude_nonneg _) balanced
      have total : rangeSquares x memory 0 (done + 1) = rangeSquares x memory 0 done + squares x memory done := by
        rw [rangeSquares, rangeSquares, Finset.sum_Ico_succ_top (Nat.zero_le done)]
      rw [total]
      simp only [magnitude_square] at next
      exact next)
  obtain ⟨pair, reached, balanced⟩ := walked
  rw [nrm2Strided, Program.run_do,
    run_element_walk (some (0, 1)) memory (singles_consecutive (Nat.zero_le n)) (walkable_singles x 0 n) elementwise]
  rw [Program.run_pure, loopRange]
  simp only [Nat.zero_add, Nat.sub_zero]
  rw [reached, Option.map_some, balanced.finish]

end Strided

/- A route is a vector seen as elements or as reals, the ranges its tasks take,
   and which of them a pass for the largest magnitude takes first. -/
structure NormRoute where
  operand : Operand Nat
  count : Nat
  length : Nat
  blind : Nat → Bool

namespace NormRoute

variable (route : NormRoute) (memory : Nat → WithNan K)

def first (task : Nat) : Nat := evenBound route.length route.count task

def last (task : Nat) : Nat := evenBound route.length route.count (task + 1)

def blindOn (task : Nat) : Bool := route.blind (route.last task - route.first task)

noncomputable def taskNorm (task : Nat) : WithNan K :=
  rangeNorm ops (route.blindOn task) route.operand memory (route.first task) (route.last task)

noncomputable def value : WithNan K :=
  squareRoot ops (∑ task ∈ Finset.range route.count, route.taskNorm ops memory task * route.taskNorm ops memory task)

noncomputable def answer : Checked K := some (route.value ops memory)

end NormRoute

-- How many tasks share the call: one where the runtime asks for no more or the pool refuses.
def acceptedTasks (machine : NormMachine) (site : Site) (length : Nat) : Nat :=
  let count := machine.base.runtime.taskCount site length
  if 1 < count ∧ (machine.base.runtime.dispatch site count).isSome then count else 1

-- The routes of operations.nrm2, and of the dispatch in front of it.
def ordinaryRoute (machine : NormMachine) (kind : ElementKind) (site : Site) (n : Int) (start : Nat) (incx : Int) : NormRoute :=
  let strided := Operand.strided kind.width n incx (cellsFrom start)
  if n ≤ 0 ∨ incx = 0 then ⟨strided, 1, 0, fun _ => false⟩
  else if incx = 1 then
    let reals := kind.width * toUsize n
    ⟨Operand.unit 1 (cellsFrom start), acceptedTasks machine site reals, reals,
      fun length => !onePass machine kind.precision length⟩
  else if incx = 2 then ⟨Operand.stride2 kind.width (cellsFrom start), 1, toUsize n, fun _ => true⟩
  else ⟨strided, 1, toUsize n, fun _ => false⟩

def normRoute (machine : NormMachine) (kind : ElementKind) (site : Site) (n : Int) (start : Nat) (incx : Int) : NormRoute :=
  let count := acceptedTasks machine (0 :: site) (toUsize n)
  if targetUnary machine.base n incx ∧ 1 < count then
    ⟨Operand.stride2 kind.width (cellsFrom start), count, toUsize n, fun _ => true⟩
  else ordinaryRoute machine kind (1 :: site) n start incx

section Tasks

variable (memory : Nat → WithNan K)

theorem range_norm_magnitude (blind : Bool) (x : Operand Nat) (first last : Nat) :
    Magnitude (rangeNorm ops blind x memory first last) := by
  intro a same
  rw [rangeNorm] at same
  split at same
  · exact (number.inj same).le
  · cases total : rangeSquares x memory first last with
    | nan => rw [total] at same; cases same
    | number b =>
      rw [total] at same
      exact number.inj same ▸ ops.sqrt_nonneg b (range_squares_nonneg memory x first last b total)

theorem root_of_square (value : WithNan K) (magnitude : Magnitude value) : squareRoot ops (value * value) = value := by
  cases value with
  | nan => rfl
  | number a => exact congrArg number (root_unique ops (magnitude a rfl) rfl)

theorem one_range (operand : Operand Nat) (length : Nat) (blind : Nat → Bool) :
    (⟨operand, 1, length, blind⟩ : NormRoute).value ops memory = rangeNorm ops (blind length) operand memory 0 length := by
  have start : evenBound length 1 0 = 0 := by rw [evenBound, Nat.zero_mul, Nat.zero_div]
  have finish : evenBound length 1 (0 + 1) = length := by rw [evenBound, Nat.zero_add, Nat.one_mul, Nat.div_one]
  rw [NormRoute.value, Finset.sum_range_one]
  refine (root_of_square ops _ (range_norm_magnitude ops memory _ _ _ _)).trans ?_
  change rangeNorm ops (blind (evenBound length 1 (0 + 1) - evenBound length 1 0)) operand memory (evenBound length 1 0)
    (evenBound length 1 (0 + 1)) = _
  rw [start, finish, Nat.sub_zero]

variable {task : Nat → Nat → Program Nat (WithNan K) (Option (Checked K))} {machine : NormMachine} {site : Site}
  {length : Nat} {operand : Operand Nat} {blind : Nat → Bool} {strict : Bool}
  {otherwise execution : Execution Nat (WithNan K) (Option (Checked K)) (Checked K)}

theorem fork_norm_returns (accepted : forkNorm ops machine strict site length task otherwise = some execution)
    (alone : ∀ first last memory, first ≤ last →
      (task first last).run memory = (some (some (rangeNorm ops (blind (last - first)) operand memory first last)), memory))
    (reads : ∀ first last memory, (task first last).Respects ∅ Set.univ memory) :
    Returns execution (NormRoute.answer ops ⟨operand, acceptedTasks machine site length, length, blind⟩) := by
  rw [forkNorm] at accepted
  split at accepted
  · exact nomatch accepted
  rename_i several
  obtain ⟨dispatched, accepted⟩ := Option.ite_none_right_eq_some.mp accepted
  have tasks : acceptedTasks machine site length = machine.base.runtime.taskCount site length :=
    if_pos ⟨by omega, dispatched⟩
  rw [tasks]
  have splits := even_splits length (machine.base.runtime.taskCount site length) (by omega)
  rw [← Option.some.inj accepted]
  rintro memory result final ⟨results, middle, finishes, rest⟩
  obtain ⟨ends, still⟩ := Pool.finishes_reading (fun index _ => reads _ _ memory) finishes
  have norms : ∀ index, index < machine.base.runtime.taskCount site length → results index = some (some
      (NormRoute.taskNorm ops ⟨operand, machine.base.runtime.taskCount site length, length, blind⟩ memory index)) := by
    intro index small
    rw [ends index small, alone _ _ memory (splits.ordered index small)]
    rfl
  have divided : (List.range (machine.base.runtime.taskCount site length)).any
      (fun index => (results index).any (fun norm => norm.isNone)) = false := by
    refine List.any_eq_false.mpr (fun index member => ?_)
    rw [norms index (List.mem_range.mp member)]
    exact Bool.false_ne_true
  have all : (List.range (machine.base.runtime.taskCount site length)).all (fun index => (results index).isSome) = true := by
    refine List.all_eq_true.mpr (fun index member => ?_)
    rw [norms index (List.mem_range.mp member)]
    rfl
  dsimp only at rest
  rw [divided, if_neg Bool.false_ne_true, if_pos all] at rest
  obtain ⟨total, same⟩ := Prod.mk.inj (show (combineNrm2Partials ops strict _ (fun index => (results index).join.getD 0),
    middle) = (result, final) from rest)
  refine ⟨total.symm.trans ?_, same.symm.trans still⟩
  rw [combine_root, NormRoute.answer, NormRoute.value]
  · refine congrArg (fun sum => some (squareRoot ops sum)) (Finset.sum_congr rfl (fun index member => ?_))
    rw [norms index (Finset.mem_range.mp member)]
    rfl
  · intro index small
    rw [norms index small]
    exact range_norm_magnitude ops memory _ _ _ _

end Tasks

section Reading

variable {memory : Nat → WithNan K} {x : Operand Nat}

omit [IsStrictOrderedRing K] in
theorem reads_scaled_norm (strict : Bool) (pieces : List Piece) :
    (scaledNorm ops strict x pieces).Respects ∅ Set.univ memory := by
  refine Program.respects_bind (reads_fold_elements _ pieces 0 memory) ?_
  split
  · trivial
  split
  · trivial
  split
  · trivial
  · trivial
  · exact Program.respects_bind (reads_fold_elements _ pieces (some 0) _) trivial

omit [IsStrictOrderedRing K] in
theorem reads_nrm2_unit_real (machine : NormMachine) (precision : Precision) (place : Nat → Nat) (first last : Nat) :
    (nrm2UnitReal ops machine precision place first last).Respects ∅ Set.univ memory := by
  refine reads_or_else (fun _ => ?_) (fun _ => reads_scaled_norm ops false _)
  unfold kernelNorm
  cases machine.kernel precision with
  | none => trivial
  | some kernel =>
    have slow : ∀ memory, (kernelScaledNorm ops precision kernel.scaled place first last).Respects ∅ Set.univ memory := by
      intro memory
      rw [kernelScaledNorm]
      split
      · trivial
      · exact reads_scaled_norm ops false _
    dsimp only
    cases kernel.fast with
    | none => exact slow _
    | some cfg =>
      refine reads_or_else (fun _ => ?_) slow
      unfold fastNorm
      dsimp only
      split
      · trivial
      cases precision with
      | single =>
        refine Program.respects_bind (reads_fold_elements _ _ 0 _) ?_
        split
        · trivial
        · exact Program.respects_bind (reads_fold_elements _ _ 0 _) trivial
      | double =>
        refine Program.respects_bind (reads_fold_elements _ _ 0 _) ?_
        split
        · trivial
        split
        · trivial
        · trivial

end Reading

-- An increment of zero uses no component.
def usedCount (n incx : Int) : Nat := if incx = 0 then 0 else toUsize n

section Routes

variable {machine : NormMachine} {kind : ElementKind} {n incx : Int} {start : Nat}

omit [Field K] [LinearOrder K] [IsStrictOrderedRing K] in
theorem or_strided_returns {fast : Program Nat (WithNan K) (Option (Checked K))}
    {strided : Program Nat (WithNan K) (Checked K)} {value : (Nat → WithNan K) → Checked K}
    (alone : ∀ memory, fast.run memory = (some (value memory), memory)) : Returns (orStrided fast strided) value := by
  refine returns_single (fun memory => ?_)
  rw [Program.run_bind, alone]
  rfl

omit [IsStrictOrderedRing K] in
theorem fork_norm_declined {site : Site} {length : Nat} {strict : Bool}
    {task : Nat → Nat → Program Nat (WithNan K) (Option (Checked K))}
    {otherwise : Execution Nat (WithNan K) (Option (Checked K)) (Checked K)}
    (declined : forkNorm ops machine strict site length task otherwise = none) : acceptedTasks machine site length = 1 := by
  rw [forkNorm] at declined
  rw [acceptedTasks]
  split at declined
  · exact if_neg (by omega)
  split at declined
  · exact nomatch declined
  · rename_i refused
    exact if_neg (fun accepted => refused accepted.2)

omit [IsStrictOrderedRing K] in
theorem fork_norm_several {site : Site} {length : Nat} {strict : Bool}
    {task : Nat → Nat → Program Nat (WithNan K) (Option (Checked K))}
    {otherwise execution : Execution Nat (WithNan K) (Option (Checked K)) (Checked K)}
    (accepted : forkNorm ops machine strict site length task otherwise = some execution) :
    1 < acceptedTasks machine site length := by
  rw [forkNorm] at accepted
  split at accepted
  · exact nomatch accepted
  split at accepted
  · rename_i several dispatched
    rw [acceptedTasks, if_pos ⟨by omega, dispatched⟩]
    omega
  · exact nomatch accepted

theorem stride2_alone (strict : Bool) (first last : Nat) (memory : Nat → WithNan K) (ordered : first ≤ last) :
    (nrm2Stride2 ops machine kind strict (cellsFrom start) first last).run memory =
      (some (some (rangeNorm ops true (Operand.stride2 kind.width (cellsFrom start)) memory first last)), memory) :=
  run_scaled_norm ops memory strict (stride2_plan_consecutive strict _ first last ordered)
    (walkable_stride2 strict _ first last _ _)

theorem nrm2_returns (site : Site) :
    Returns (nrm2 ops machine kind site n (cellsFrom start) incx)
      ((ordinaryRoute machine kind site n start incx).answer ops) := by
  have serial : ∀ operand : Operand Nat, ∀ length memory,
      NormRoute.answer ops ⟨operand, 1, length, fun _ => false⟩ memory =
        some (squareRoot ops (rangeSquares operand memory 0 length)) := by
    intro operand length memory
    rw [NormRoute.answer, one_range, rangeNorm, if_neg (fun blind => absurd blind.1 Bool.false_ne_true)]
  rw [nrm2, ordinaryRoute]
  dsimp only
  by_cases empty : n ≤ 0 ∨ incx = 0
  · rw [if_pos empty, if_pos empty]
    refine returns_single (fun memory => ?_)
    rw [serial, rangeSquares, Finset.Ico_self, Finset.sum_empty, square_root_zero]
    rfl
  rw [if_neg empty, if_neg empty]
  by_cases unit : incx = 1
  · rw [if_pos unit, if_pos unit]
    have alone : ∀ first last memory, first ≤ last →
        (nrm2UnitReal ops machine kind.precision (cellsFrom start) first last).run memory =
          (some (some (rangeNorm ops (!onePass machine kind.precision (last - first)) (Operand.unit 1 (cellsFrom start))
            memory first last)), memory) := fun first last memory ordered =>
      run_nrm2_unit_real ops memory ordered machine kind.precision start
    cases answer : forkNorm ops machine false site (kind.width * toUsize n)
      (nrm2UnitReal ops machine kind.precision (cellsFrom start)) _ with
    | some execution =>
      exact fork_norm_returns ops answer alone
        (fun first last memory => reads_nrm2_unit_real ops machine kind.precision (cellsFrom start) first last)
    | none =>
      rw [fork_norm_declined ops answer, Option.getD_none]
      refine or_strided_returns (fun memory => ?_)
      rw [NormRoute.answer, one_range, alone 0 _ memory (Nat.zero_le _), Nat.sub_zero]
  rw [if_neg unit, if_neg unit]
  by_cases two : incx = 2
  · rw [if_pos two, if_pos two]
    refine or_strided_returns (fun memory => ?_)
    rw [NormRoute.answer, one_range, stride2_alone ops false 0 _ memory (Nat.zero_le _)]
  · rw [if_neg two, if_neg two]
    refine returns_single (fun memory => ?_)
    rw [run_nrm2_strided, serial]

theorem entry_nrm2_returns (site : Site) :
    Returns (entryNrm2 ops machine kind site n (cellsFrom start) incx)
      ((normRoute machine kind site n start incx).answer ops) := by
  rw [entryNrm2, normRoute]
  by_cases target : targetUnary machine.base n incx = true
  · rw [if_pos target]
    cases answer : forkNorm ops machine true (0 :: site) (toUsize n) (nrm2Stride2 ops machine kind true (cellsFrom start))
      (nrm2 ops machine kind (1 :: site) n (cellsFrom start) incx) with
    | some execution =>
      rw [if_pos ⟨target, fork_norm_several ops answer⟩]
      exact fork_norm_returns ops answer
        (fun first last memory ordered => stride2_alone ops true first last memory ordered)
        (fun first last memory => reads_scaled_norm ops true _)
    | none =>
      rw [if_neg (fun both => by have one := fork_norm_declined ops answer; omega)]
      exact nrm2_returns ops (1 :: site)
  · rw [if_neg target, if_neg (fun both => target both.1)]
    exact nrm2_returns ops (1 :: site)

theorem accepted_positive (site : Site) (length : Nat) : 0 < acceptedTasks machine site length := by
  rw [acceptedTasks]
  split
  · omega
  · exact Nat.one_pos

omit [LinearOrder K] [IsStrictOrderedRing K] in
theorem ranges_total (operand : Operand Nat) (memory : Nat → WithNan K) (count length : Nat) (some : 0 < count) :
    ∑ task ∈ Finset.range count, rangeSquares operand memory (evenBound length count task) (evenBound length count (task + 1)) =
      rangeSquares operand memory 0 length :=
  (even_splits length count some).sum (squares operand memory)

omit [LinearOrder K] [IsStrictOrderedRing K] in
theorem row_squares (memory : Nat → WithNan K) (width length : Nat) :
    rangeSquares (Operand.unit 1 (cellsFrom start)) memory 0 (width * length) =
      rangeSquares (Operand.unit width (cellsFrom start)) memory 0 length := by
  rw [rangeSquares, rangeSquares, ← Finset.range_eq_Ico, ← Finset.range_eq_Ico, sum_row]
  refine Finset.sum_congr rfl (fun i _ => Finset.sum_congr rfl (fun part _ => ?_))
  rw [squares]
  change ∑ lane ∈ Finset.range 1, _ = _
  rw [Finset.sum_range_one, row_element]

-- The exports call operations.nrm2; abi_entry.zig has the dispatch in front of it.
def nrm2Call (dispatched : Bool) (machine : NormMachine) (kind : ElementKind) (site : Site) (n : Int) (x : Nat → Nat)
    (incx : Int) : Execution Nat (WithNan K) (Option (Checked K)) (Checked K) :=
  if dispatched then entryNrm2 ops machine kind site n x incx else nrm2 ops machine kind site n x incx

def calledRoute (dispatched : Bool) (machine : NormMachine) (kind : ElementKind) (site : Site) (n : Int) (start : Nat)
    (incx : Int) : NormRoute :=
  if dispatched then normRoute machine kind site n start incx else ordinaryRoute machine kind site n start incx

theorem nrm2_call_returns (dispatched : Bool) (site : Site) :
    Returns (nrm2Call ops dispatched machine kind site n (cellsFrom start) incx)
      ((calledRoute dispatched machine kind site n start incx).answer ops) := by
  cases dispatched with
  | true => exact entry_nrm2_returns ops site
  | false => exact nrm2_returns ops site

section Totals

-- Whatever the route, its ranges hold every component of the vector once.
def NormRoute.Whole (route : NormRoute) (x : Operand Nat) (count : Nat) : Prop :=
  ∀ memory : Nat → WithNan K,
    ∑ task ∈ Finset.range route.count, rangeSquares route.operand memory (route.first task) (route.last task) =
      rangeSquares x memory 0 count

omit [LinearOrder K] [IsStrictOrderedRing K] in
theorem route_whole (route : NormRoute) (some : 0 < route.count) {x : Operand Nat} {count : Nat}
    (same : ∀ memory : Nat → WithNan K, rangeSquares route.operand memory 0 route.length = rangeSquares x memory 0 count) :
    route.Whole (K := K) x count :=
  fun memory => (ranges_total route.operand memory route.count route.length some).trans (same memory)

omit [LinearOrder K] [IsStrictOrderedRing K] in
theorem ordinary_route_whole (site : Site) :
    (ordinaryRoute machine kind site n start incx).Whole (K := K) (Operand.strided kind.width n incx (cellsFrom start))
      (usedCount n incx) := by
  rw [ordinaryRoute]
  split
  · refine route_whole _ Nat.one_pos (fun memory => ?_)
    have none : usedCount n incx = 0 := by
      rw [usedCount]
      split
      · rfl
      · simp only [toUsize]
        omega
    rw [none]
  rename_i used
  have all : usedCount n incx = toUsize n := if_neg (by omega)
  rw [all]
  split
  · rename_i unit
    refine route_whole _ (accepted_positive _ _) (fun memory => ?_)
    rw [unit, unit_strided]
    exact row_squares memory kind.width (toUsize n)
  split
  · rename_i two
    refine route_whole _ Nat.one_pos (fun memory => ?_)
    rw [two, stride2_strided]
  · exact route_whole _ Nat.one_pos (fun memory => rfl)

omit [LinearOrder K] [IsStrictOrderedRing K] in
theorem called_route_whole (dispatched : Bool) (site : Site) :
    (calledRoute dispatched machine kind site n start incx).Whole (K := K)
      (Operand.strided kind.width n incx (cellsFrom start)) (usedCount n incx) := by
  cases dispatched with
  | false => exact ordinary_route_whole site
  | true =>
    change (normRoute machine kind site n start incx).Whole _ _
    rw [normRoute]
    split
    · rename_i target
      refine route_whole _ (accepted_positive _ _) (fun memory => ?_)
      have two := target_unary_two target.1
      rw [usedCount, if_neg (by omega), two, stride2_strided]
    · exact ordinary_route_whole (1 :: site)

end Totals

end Routes

/- What nrm2 is for. -/
section Specification

def HasNan (x : Operand Nat) (memory : Nat → WithNan K) (first last : Nat) : Prop :=
  ∃ i part, first ≤ i ∧ i < last ∧ part < x.width ∧ x.element memory i part = nan

structure IsNorm (x : Operand Nat) (memory : Nat → WithNan K) (count : Nat) (result : WithNan K) : Prop where
  absent : HasNan x memory 0 count → result = nan
  root : ¬HasNan x memory 0 count →
    ∃ r : K, result = number r ∧ 0 ≤ r ∧ number (r * r) = rangeSquares x memory 0 count

-- Some range with a component that is not a number is summed at once, or holds a nonzero number too.
def NormRoute.Reports (route : NormRoute) (memory : Nat → WithNan K) : Prop :=
  ∃ task, task < route.count ∧ HasNan route.operand memory (route.first task) (route.last task) ∧
    (route.blindOn task = true → ¬Weightless route.operand memory (route.first task) (route.last task))

omit [LinearOrder K] [IsStrictOrderedRing K] in
theorem has_nan_iff (x : Operand Nat) (memory : Nat → WithNan K) (first last : Nat) :
    HasNan x memory first last ↔ rangeSquares x memory first last = nan := by
  rw [rangeSquares, sum_nan_iff]
  constructor
  · rintro ⟨i, part, low, high, inside, absent⟩
    refine ⟨i, Finset.mem_Ico.mpr ⟨low, high⟩, (sum_nan_iff _ _).mpr ⟨part, Finset.mem_range.mpr inside, ?_⟩⟩
    rw [absent, nan_mul]
  · rintro ⟨i, member, absent⟩
    obtain ⟨part, inside, square⟩ := (sum_nan_iff _ _).mp absent
    obtain ⟨low, high⟩ := Finset.mem_Ico.mp member
    refine ⟨i, part, low, high, Finset.mem_range.mp inside, ?_⟩
    cases value : x.element memory i part with
    | nan => rfl
    | number a => rw [value] at square; cases square

theorem value_nan_iff (route : NormRoute) (memory : Nat → WithNan K) :
    route.value ops memory = nan ↔ route.Reports memory := by
  have root_nan : ∀ total, squareRoot ops total = nan ↔ total = nan := by
    intro total
    cases total with
    | nan => exact ⟨fun _ => rfl, fun _ => rfl⟩
    | number a => exact ⟨nofun, nofun⟩
  have square_nan : ∀ norm : WithNan K, norm * norm = nan ↔ norm = nan := by
    intro norm
    cases norm with
    | nan => exact ⟨fun _ => rfl, fun _ => rfl⟩
    | number a => exact ⟨nofun, nofun⟩
  rw [NormRoute.value, root_nan, sum_nan_iff]
  refine exists_congr (fun task => ?_)
  rw [Finset.mem_range, square_nan, NormRoute.taskNorm, range_norm_nan_iff, has_nan_iff]

omit [IsStrictOrderedRing K] in
theorem root_square (total : WithNan K) (nonneg : Magnitude total) : squareRoot ops total * squareRoot ops total = total := by
  cases total with
  | nan => rfl
  | number a => exact congrArg number (ops.sqrt_square a (nonneg a rfl))

theorem value_numbers (route : NormRoute) (memory : Nat → WithNan K)
    (numbers : ∑ task ∈ Finset.range route.count,
      rangeSquares route.operand memory (route.first task) (route.last task) ≠ nan) :
    route.value ops memory = squareRoot ops (∑ task ∈ Finset.range route.count,
      rangeSquares route.operand memory (route.first task) (route.last task)) := by
  rw [NormRoute.value]
  refine congrArg (squareRoot ops) (Finset.sum_congr rfl (fun task member => ?_))
  have present : rangeSquares route.operand memory (route.first task) (route.last task) ≠ nan := fun absent =>
    numbers ((sum_nan_iff _ _).mpr ⟨task, member, absent⟩)
  rw [NormRoute.taskNorm, range_norm_seen ops memory _ _ _ _ present]
  exact root_square ops _ (range_squares_nonneg memory _ _ _)

-- No call divides by zero, and its answer is the norm unless the range a NaN lies in is taken for zero.
theorem nrm2_exact (dispatched : Bool) (machine : NormMachine) (kind : ElementKind) (site : Site) (n : Int) (start : Nat)
    (incx : Int) (memory : Nat → WithNan K) :
    (∀ result final, (nrm2Call ops dispatched machine kind site n (cellsFrom start) incx).Outcome memory result final →
      result ≠ none) ∧
    ((∀ result final, (nrm2Call ops dispatched machine kind site n (cellsFrom start) incx).Outcome memory result final →
      ∃ norm, result = some norm ∧
        IsNorm (Operand.strided kind.width n incx (cellsFrom start)) memory (usedCount n incx) norm) ↔
      (HasNan (Operand.strided kind.width n incx (cellsFrom start)) memory 0 (usedCount n incx) →
        (calledRoute dispatched machine kind site n start incx).Reports memory)) := by
  have returns : Returns (nrm2Call ops dispatched machine kind site n (cellsFrom start) incx)
      ((calledRoute dispatched machine kind site n start incx).answer ops) := nrm2_call_returns ops dispatched site
  have whole : (calledRoute dispatched machine kind site n start incx).Whole (K := K)
      (Operand.strided kind.width n incx (cellsFrom start)) (usedCount n incx) := called_route_whole dispatched site
  have total := whole memory
  refine ⟨fun result final outcome absent => ?_, ?_⟩
  · have answered := absent.symm.trans (returns memory result final outcome).1
    cases answered
  rw [← value_nan_iff ops]
  by_cases numbers : HasNan (Operand.strided kind.width n incx (cellsFrom start)) memory 0 (usedCount n incx)
  · refine ⟨fun norm _ => ?_, fun reports result final outcome => ?_⟩
    · obtain ⟨result, final, outcome⟩ := Execution.outcome_exists
        (nrm2Call ops dispatched machine kind site n (cellsFrom start) incx) memory
      obtain ⟨value, same, found⟩ := norm result final outcome
      have answered := Option.some.inj (same.symm.trans (returns memory result final outcome).1)
      exact answered.symm.trans (found.absent numbers)
    · exact ⟨_, (returns memory result final outcome).1, fun _ => reports numbers, fun none => absurd numbers none⟩
  · refine ⟨fun _ found => absurd found numbers, fun _ result final outcome => ?_⟩
    refine ⟨_, (returns memory result final outcome).1, fun found => absurd found numbers, fun _ => ?_⟩
    have present : rangeSquares (Operand.strided kind.width n incx (cellsFrom start)) memory 0 (usedCount n incx) ≠ nan :=
      fun absent => numbers ((has_nan_iff _ memory _ _).mpr absent)
    rw [value_numbers ops _ memory (total ▸ present), total]
    cases squares : rangeSquares (Operand.strided kind.width n incx (cellsFrom start)) memory 0 (usedCount n incx) with
    | nan => exact absurd squares present
    | number a =>
      have nonneg := range_squares_nonneg memory _ _ _ a squares
      exact ⟨ops.sqrt a, rfl, ops.sqrt_nonneg a nonneg, congrArg number (ops.sqrt_square a nonneg)⟩

noncomputable def realOps : NormOps ℝ where
  sqrt := Real.sqrt
  floatMin := 1
  floor n := n
  sqrt_nonneg _ _ := Real.sqrt_nonneg _
  sqrt_square _ nonneg := Real.mul_self_sqrt nonneg

-- One f64 that is not a number.
theorem lone_nan_vanishes :
    ¬ ∀ result final, (nrm2Call realOps false ⟨portableMachine, fun _ => none⟩ ⟨false, .double⟩ [] 1 (cellsFrom 0) 1).Outcome
      (fun _ => nan) result final →
        ∃ norm, result = some norm ∧ IsNorm (Operand.strided 1 1 1 (cellsFrom 0)) (fun _ => nan) (usedCount 1 1) norm := by
  intro norm
  obtain ⟨result, final, outcome⟩ := Execution.outcome_exists
    (nrm2Call realOps false ⟨portableMachine, fun _ => none⟩ ⟨false, .double⟩ [] 1 (cellsFrom 0) 1) (fun _ => nan)
  obtain ⟨value, same, found⟩ := norm result final outcome
  have absent := found.absent ⟨0, 0, le_refl 0, Nat.one_pos, Nat.one_pos, rfl⟩
  have answered := Option.some.inj (same.symm.trans (nrm2_call_returns realOps false [] _ result final outcome).1)
  rw [answered, value_nan_iff] at absent
  obtain ⟨task, _, _, weighty⟩ := absent
  exact weighty rfl (fun _ _ _ _ _ => .inr rfl)

-- Two shares of two threes, and a NaN that the strided loop reports.
theorem nrm2_exact_threes :
    (∀ result final, (nrm2Call realOps false ⟨splitVectors, fun _ => none⟩ ⟨false, .double⟩ [] 4 (cellsFrom 0) 1).Outcome
      (fun _ => number 3) result final →
        ∃ norm, result = some norm ∧ IsNorm (Operand.strided 1 4 1 (cellsFrom 0)) (fun _ => number 3) (usedCount 4 1) norm) ∧
    ∀ result final, (nrm2Call realOps false ⟨portableMachine, fun _ => none⟩ ⟨false, .double⟩ [] 1 (cellsFrom 0) 3).Outcome
      (fun _ => nan) result final →
        ∃ norm, result = some norm ∧ IsNorm (Operand.strided 1 1 3 (cellsFrom 0)) (fun _ => nan) (usedCount 1 3) norm := by
  constructor
  · refine (nrm2_exact realOps false ⟨splitVectors, fun _ => none⟩ ⟨false, .double⟩ [] 4 0 1 (fun _ => number 3)).2.mpr ?_
    rintro ⟨i, part, _, _, _, absent⟩
    cases (show number (3 : ℝ) = nan from absent)
  · refine (nrm2_exact realOps false ⟨portableMachine, fun _ => none⟩ ⟨false, .double⟩ [] 1 0 3 (fun _ => nan)).2.mpr ?_
    exact fun _ => ⟨0, Nat.one_pos, ⟨0, 0, le_refl 0, Nat.one_pos, Nat.one_pos, rfl⟩, fun blind => Bool.noConfusion blind⟩

end Specification

end Zynum.Norm
